/-!
# Dictionaries in order of insertion

A dictionary is the list of its entries, each key once, in the order in which the keys were
first inserted. Inserting a key again changes its value and keeps its place.

## Main definitions

* `Dictionary.insert`, `Dictionary.ofEntries` — building; later values win.
* `Dictionary.lookup?`, `Dictionary.contains` — reading.
-/

namespace PojoGraph

/-- Entries in the order in which their keys were first inserted. -/
abbrev Dictionary (α : Type) := List (String × α)

namespace Dictionary

variable {α : Type}

/-- Gives `key` the value `value`: in its place if it has one, at the end otherwise. -/
def insert (entries : Dictionary α) (key : String) (value : α) : Dictionary α :=
  match entries with
  | [] => [(key, value)]
  | (k, v) :: rest => if k = key then (k, value) :: rest else (k, v) :: insert rest key value

/-- The dictionary of a list of entries in which keys may repeat: a key stands where it
stands first and has the value it has last. -/
def ofEntries (entries : List (String × α)) : Dictionary α :=
  entries.foldl (fun dictionary entry => dictionary.insert entry.1 entry.2) []

/-- The value of a key. -/
def lookup? (entries : Dictionary α) (key : String) : Option α :=
  List.lookup key entries

/-- Whether a key has a value. -/
def contains (entries : Dictionary α) (key : String) : Bool :=
  entries.any (·.1 = key)

/-- The keys in order. -/
def keys (entries : Dictionary α) : List String :=
  entries.map (·.1)

/-! ## Insertion -/

variable {entries : Dictionary α} {key : String} {value : α}

theorem mem_keys_insert {k : String} :
    k ∈ (entries.insert key value).keys ↔ k = key ∨ k ∈ entries.keys := by
  induction entries with
  | nil => simp [insert, keys]
  | cons entry rest ih =>
    obtain ⟨k', v'⟩ := entry
    by_cases h : k' = key <;> simp_all [insert, keys]
    grind

/-- A key inserted anew comes last. -/
theorem insert_of_not_mem (h : key ∉ entries.keys) :
    entries.insert key value = entries ++ [(key, value)] := by
  induction entries with
  | nil => rfl
  | cons entry rest ih =>
    obtain ⟨k, v⟩ := entry
    simp only [keys, List.map_cons, List.mem_cons, not_or] at h
    simp [insert, Ne.symm h.1, ih (by simpa [keys] using h.2)]

/-- Keys stay pairwise different. -/
theorem nodup_keys_insert (h : entries.keys.Nodup) : (entries.insert key value).keys.Nodup := by
  induction entries with
  | nil => simp [insert, keys]
  | cons entry rest ih =>
    obtain ⟨k, v⟩ := entry
    simp only [keys, List.map_cons, List.nodup_cons] at h
    by_cases hk : k = key
    · subst hk
      simp only [insert, if_true, keys, List.map_cons, List.nodup_cons]
      exact h
    · have hmem : k ∈ (insert rest key value).keys ↔ k = key ∨ k ∈ keys rest := mem_keys_insert
      have ih := ih (by simpa [keys] using h.2)
      simp only [keys] at hmem ih
      simp [insert, hk, keys, hmem, h.1, ih]

/-- Insertion adds no entry but its own. -/
theorem mem_of_mem_insert {entry : String × α} (h : entry ∈ entries.insert key value) :
    entry = (key, value) ∨ entry ∈ entries := by
  induction entries with
  | nil => exact .inl (List.mem_singleton.mp h)
  | cons first rest ih =>
    obtain ⟨k, v⟩ := first
    rw [insert] at h
    split at h
    · rename_i hkey
      rcases List.mem_cons.mp h with rfl | h
      · exact .inl (by rw [hkey])
      · exact .inr (List.mem_cons_of_mem _ h)
    · rcases List.mem_cons.mp h with rfl | h
      · exact .inr List.mem_cons_self
      · exact (ih h).imp_right (List.mem_cons_of_mem _)

/-! ## Reading -/

theorem lookup?_eq_none_iff : entries.lookup? key = none ↔ key ∉ entries.keys := by
  simp only [lookup?, keys, List.lookup_eq_none_iff, List.mem_map, not_exists, not_and]
  grind

theorem mem_of_lookup? (h : entries.lookup? key = some value) : (key, value) ∈ entries := by
  obtain ⟨before, after, rfl, -⟩ := List.lookup_eq_some_iff.mp h
  exact List.mem_append_right _ List.mem_cons_self

/-- Where keys are pairwise different, a key has the value that it is entered with. -/
theorem lookup?_eq_some_iff (h : entries.keys.Nodup) :
    entries.lookup? key = some value ↔ (key, value) ∈ entries := by
  induction entries with
  | nil => simp [lookup?]
  | cons entry rest ih =>
    obtain ⟨k, v⟩ := entry
    simp only [keys, List.map_cons, List.nodup_cons] at h
    have ih := ih h.2
    rw [lookup?] at ih ⊢
    rw [List.lookup_cons]
    by_cases hk : key = k
    · subst hk
      have hnot : (key, value) ∉ rest := fun hmem => h.1 (List.mem_map_of_mem hmem)
      simp [hnot, eq_comm]
    · have hne : (key == k) = false := by simpa using hk
      simp [hne, ih, hk]

end Dictionary

end PojoGraph
