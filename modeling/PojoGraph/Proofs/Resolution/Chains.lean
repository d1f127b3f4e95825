import PojoGraph.Resolution

/-!
# Chains of references

A branch name may lead to a plain member that is a reference, which leads on to another key. A
chain ends at the first key that leads no further, or it goes round in a circle. The keys on a
chain that ends are pairwise different entries of the table, so that as many steps as there are
entries, and one more, decide where it ends.

## Main definitions

* `ClassTable.next?` — the key to which a key leads.
* `ClassTable.Follows`, `ClassTable.EndsIn` — where the chain from a key ends.
* `Lead.ofEnd` — what the end of a chain is as a branch.

## Main statements

* `ClassTable.lead_of_endsIn` — a chain that ends is followed to its end.
* `ClassTable.lead_cases` — any other goes round in a circle.
* `ClassTable.lead_advance` — a round changes only leads that wait.
-/

namespace PojoGraph

/-- What a branch is if its chain ends in the given entry, or at a key without one. -/
def Lead.ofEnd : Option Classified → Lead
  | some (.pojo pojo) =>
    match pojo.asBranch with
    | .ok o => .object o
    | .error obstacle => .invalid obstacle
  | some (.plain _) => .invalid .plainMember
  | some (.stub _) => .waiting
  | none => .waiting

namespace ClassTable

variable (table : ClassTable)

/-! ## Following references -/

/-- The key to which a plain member that is a reference leads. -/
def next? (key : String) : Option String :=
  match table.lookup? key with
  | some (.plain plain) => plain.type.objectName?.map (·.key)
  | _ => none

variable {table} in
theorem next?_eq_some_iff {key next : String} : table.next? key = some next
    ↔ ∃ plain target, table.lookup? key = some (.plain plain)
      ∧ plain.type.objectName? = some target ∧ target.key = next := by
  rw [next?]
  split
  · rename_i plain hlookup
    rw [Option.map_eq_some_iff]
    constructor
    · rintro ⟨target, htarget, hkey⟩
      exact ⟨plain, target, hlookup, htarget, hkey⟩
    · rintro ⟨plain', target, hlookup', htarget, hkey⟩
      rw [hlookup] at hlookup'
      cases hlookup'
      exact ⟨target, htarget, hkey⟩
  · rename_i hplain
    constructor
    · intro h
      cases h
    · rintro ⟨plain, target, hlookup, -⟩
      exact absurd hlookup (hplain plain)

/-- The chain from a key passes through the keys of `path` and ends where the last of them
leads. -/
inductive Follows : String → (path : List String) → Option Classified → Prop where
  | here {key : String} (hend : table.next? key = none) : Follows key [] (table.lookup? key)
  | there {key next : String} {path : List String} {stop : Option Classified}
      (hnext : table.next? key = some next) (hrest : Follows next path stop) :
    Follows key (key :: path) stop

/-- The chain from a key ends in an entry, or at a key without one. -/
def EndsIn (key : String) (stop : Option Classified) : Prop :=
  ∃ path, table.Follows key path stop

variable {table} {key : String} {path path' : List String} {stop stop' : Option Classified}

theorem Follows.unique (h : table.Follows key path stop) (h' : table.Follows key path' stop') :
    path = path' ∧ stop = stop' := by
  induction h generalizing path' with
  | here hend =>
    cases h' with
    | here _ => exact ⟨rfl, rfl⟩
    | there hnext _ => rw [hend] at hnext; cases hnext
  | there hnext hrest ih =>
    cases h' with
    | here hend => rw [hnext] at hend; cases hend
    | there hnext' hrest' =>
      rw [hnext] at hnext'
      cases hnext'
      obtain ⟨hpath, hstop⟩ := ih hrest'
      exact ⟨by rw [hpath], hstop⟩

/-- A chain ends in one place only. -/
theorem EndsIn.unique (h : table.EndsIn key stop) (h' : table.EndsIn key stop') :
    stop = stop' := by
  obtain ⟨path, hpath⟩ := h
  obtain ⟨path', hpath'⟩ := h'
  exact (hpath.unique hpath').2

/-- From a key on the path the chain takes the rest of the path. -/
theorem Follows.exists_of_mem (h : table.Follows key path stop) {k : String} (hk : k ∈ path) :
    ∃ rest, rest <:+ path ∧ table.Follows k rest stop := by
  induction h with
  | here hend => cases hk
  | @there key next path stop hnext hrest ih =>
    rcases List.mem_cons.mp hk with rfl | hk
    · exact ⟨k :: path, List.suffix_refl _, .there hnext hrest⟩
    · obtain ⟨rest, hsuffix, hfollows⟩ := ih hk
      exact ⟨rest, hsuffix.trans (List.suffix_cons key path), hfollows⟩

/-- A chain that ends meets no key twice: from a key that it met before, it would have the same
way to go again. -/
theorem Follows.nodup (h : table.Follows key path stop) : path.Nodup := by
  induction h with
  | here hend => exact List.nodup_nil
  | @there key next path stop hnext hrest ih =>
    refine List.nodup_cons.mpr ⟨?_, ih⟩
    intro hkey
    obtain ⟨rest, hsuffix, hfollows⟩ := hrest.exists_of_mem hkey
    obtain ⟨rfl, -⟩ := hfollows.unique (.there hnext hrest)
    have hlength := hsuffix.length_le
    rw [List.length_cons] at hlength
    omega

theorem mem_keys_of_lookup? {value : Classified} (h : table.lookup? key = some value) :
    key ∈ Dictionary.keys table := by
  obtain ⟨before, after, rfl, -⟩ := List.lookup_eq_some_iff.mp h
  simp [Dictionary.keys]

theorem Follows.mem_keys (h : table.Follows key path stop) :
    ∀ k ∈ path, k ∈ Dictionary.keys table := by
  induction h with
  | here hend => simp
  | @there key next path stop hnext hrest ih =>
    intro k hk
    rcases List.mem_cons.mp hk with rfl | hk
    · obtain ⟨plain, target, hlookup, -, -⟩ := next?_eq_some_iff.mp hnext
      exact mem_keys_of_lookup? hlookup
    · exact ih k hk

/-- **A chain that ends has no more steps than there are entries.** -/
theorem Follows.length_le (h : table.Follows key path stop) : path.length ≤ table.length := by
  have hle := h.nodup.length_le_of_subset h.mem_keys
  simpa [Dictionary.keys] using hle

/-! ## Leads -/

theorem leadFrom_succ_of_next? {next : String} (h : table.next? key = some next) (steps : Nat) :
    table.leadFrom (steps + 1) key = table.leadFrom steps next := by
  obtain ⟨plain, target, hlookup, htarget, rfl⟩ := next?_eq_some_iff.mp h
  simp only [leadFrom, hlookup, htarget]

theorem leadFrom_succ_of_next?_eq_none (h : table.next? key = none) (steps : Nat) :
    table.leadFrom (steps + 1) key = Lead.ofEnd (table.lookup? key) := by
  rw [next?] at h
  cases hlookup : table.lookup? key with
  | none => simp [leadFrom, hlookup, Lead.ofEnd]
  | some classified =>
    cases classified with
    | pojo pojo =>
      cases hbranch : pojo.asBranch <;> simp [leadFrom, hlookup, Lead.ofEnd, hbranch]
    | stub stub => simp [leadFrom, hlookup, Lead.ofEnd]
    | plain plain =>
      rw [hlookup] at h
      have hnone : plain.type.objectName? = none := by simpa using h
      simp [leadFrom, hlookup, hnone, Lead.ofEnd]

theorem Follows.leadFrom_eq (h : table.Follows key path stop) {steps : Nat}
    (hsteps : path.length < steps) : table.leadFrom steps key = Lead.ofEnd stop := by
  induction h generalizing steps with
  | here hend =>
    obtain ⟨steps, rfl⟩ : ∃ n, steps = n + 1 := ⟨steps - 1, by omega⟩
    exact leadFrom_succ_of_next?_eq_none hend steps
  | @there key next path stop hnext hrest ih =>
    obtain ⟨steps, rfl⟩ : ∃ n, steps = n + 1 := ⟨steps - 1, by omega⟩
    rw [leadFrom_succ_of_next? hnext]
    exact ih (by simpa using hsteps)

/-- **A chain that ends is followed to its end.** -/
theorem lead_of_endsIn {name : PojoName} (h : table.EndsIn name.key stop) :
    table.lead name = Lead.ofEnd stop := by
  obtain ⟨path, hpath⟩ := h
  exact hpath.leadFrom_eq (Nat.lt_succ_of_le hpath.length_le)

theorem leadFrom_cases (table : ClassTable) (steps : Nat) (key : String) :
    (∃ stop, table.EndsIn key stop) ∨ table.leadFrom steps key = .invalid .cyclicReference := by
  induction steps generalizing key with
  | zero => exact .inr rfl
  | succ steps ih =>
    cases hnext : table.next? key with
    | none => exact .inl ⟨_, [], .here hnext⟩
    | some next =>
      rcases ih next with ⟨stop, path, hpath⟩ | hcyclic
      · exact .inl ⟨stop, key :: path, .there hnext hpath⟩
      · rw [leadFrom_succ_of_next? hnext]
        exact .inr hcyclic

/-- A name leads to the end of its chain, or the chain goes round in a circle. -/
theorem lead_cases (table : ClassTable) (name : PojoName) :
    (∃ stop, table.EndsIn name.key stop ∧ table.lead name = Lead.ofEnd stop)
      ∨ table.lead name = .invalid .cyclicReference := by
  rcases table.leadFrom_cases (table.length + 1) name.key with ⟨stop, hends⟩ | hcyclic
  · exact .inl ⟨stop, hends, lead_of_endsIn hends⟩
  · exact .inr hcyclic

/-! ## Leads in a later round -/

/-- Entries are looked up in a revised table as in the table itself. -/
theorem lookup?_map (f : Classified → Classified) (table : ClassTable) (key : String) :
    Dictionary.lookup? (table.map fun entry => (entry.1, f entry.2)) key
      = (table.lookup? key).map f := by
  unfold Dictionary.lookup?
  induction table with
  | nil => rfl
  | cons entry rest ih =>
    rw [List.map_cons, List.lookup_cons, List.lookup_cons, ih]
    cases key == entry.1 <;> rfl

theorem leadFrom_advance (steps : Nat) (key : String) :
    table.advance.leadFrom steps key = table.leadFrom steps key
      ∨ table.leadFrom steps key = .waiting := by
  induction steps generalizing key with
  | zero => exact .inl rfl
  | succ steps ih =>
    have hlookup := lookup?_map table.advanceEntry table key
    change Dictionary.lookup? table.advance key = _ at hlookup
    cases hentry : table.lookup? key with
    | none => exact .inr (by simp [leadFrom, hentry])
    | some classified =>
      rw [hentry, Option.map_some] at hlookup
      cases classified with
      | pojo pojo => exact .inl (by simp [leadFrom, hentry, hlookup, advanceEntry])
      | stub stub => exact .inr (by simp [leadFrom, hentry])
      | plain plain =>
        simp only [advanceEntry] at hlookup
        cases htarget : plain.type.objectName? with
        | none => exact .inl (by simp [leadFrom, hentry, hlookup, htarget])
        | some target => simpa only [leadFrom, hentry, hlookup, htarget] using ih target.key

theorem length_advance (table : ClassTable) : table.advance.length = table.length :=
  List.length_map _

/-- **A round changes only leads that wait.** -/
theorem lead_advance (table : ClassTable) (name : PojoName) :
    table.advance.lead name = table.lead name ∨ table.lead name = .waiting := by
  rw [lead, lead, length_advance]
  exact leadFrom_advance _ _

end ClassTable

end PojoGraph
