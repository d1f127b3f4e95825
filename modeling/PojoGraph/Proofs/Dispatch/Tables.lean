import PojoGraph.Proofs.PojoSet.Revisions
import PojoGraph.Proofs.Resolution.Result
import PojoGraph.Report

/-!
# Dispatch tables

The table of a discriminator is a list of values and branches, and both lookups take the first
entry that fits. Where no value stands with two branches, the table is a function, and then the
lookups agree with each other and with the report, in which later entries count. A table is a
function if its branches have different names, one suffix, and no value is mapped twice.

## Main definitions

* `Discriminator.IsFunction` — no value selects two branches.
* `PojoName.AreDistinct` — names with one suffix, of which a key belongs to one only.

## Main statements

* `Discriminator.branchFor_eq_ok_iff` — looking up a value finds its entry.
* `Discriminator.exists_branchFor_of_valueFor` — the lookups are inverse to each other.
* `Discriminator.lookup?_mapping` — the report says what looking up a value gives.
* `DiscriminatorSketch.isFunction_resolve` — resolved tables are functions.
-/

namespace PojoGraph

/-! ## Sorted fields -/

namespace Dictionary

variable {α : Type} {entries : Dictionary α} {key : String} {value : α}

@[simp] theorem lookup?_nil : lookup? ([] : Dictionary α) key = none := rfl

theorem lookup?_cons (entry : String × α) (rest : Dictionary α) (key : String) :
    lookup? (entry :: rest) key = if key = entry.1 then some entry.2 else lookup? rest key := by
  rw [lookup?, List.lookup_cons]
  by_cases h : key = entry.1
  · simp [h]
  · rw [beq_false_of_ne h, if_neg h]
    rfl

/-- A key that stands with one value only has this value. -/
theorem lookup?_of_forall (hmem : (key, value) ∈ entries)
    (h : ∀ entry ∈ entries, entry.1 = key → entry.2 = value) :
    entries.lookup? key = some value := by
  cases hlookup : entries.lookup? key with
  | none =>
    have hkey := lookup?_eq_none_iff.mp hlookup
    exact absurd (List.mem_map_of_mem hmem) hkey
  | some found => exact congrArg some (h _ (mem_of_lookup? hlookup) rfl)

end Dictionary

namespace Json

/-- A field that is inserted is found, and the others stay. -/
theorem lookup?_insertSorted (fields : List (String × Json)) (inserted : String) (value : Json)
    (key : String) : Dictionary.lookup? (insertSorted inserted value fields) key
      = if key = inserted then some value else Dictionary.lookup? fields key := by
  induction fields with
  | nil => exact Dictionary.lookup?_cons _ _ _
  | cons field rest ih =>
    obtain ⟨k, v⟩ := field
    rw [insertSorted]
    split
    · exact Dictionary.lookup?_cons _ _ _
    · split
      · rename_i hk
        rw [Dictionary.lookup?_cons, Dictionary.lookup?_cons, hk]
        by_cases h : key = inserted <;> simp [h]
      · rename_i hk
        rw [Dictionary.lookup?_cons, Dictionary.lookup?_cons, ih]
        by_cases h : key = inserted
        · have hne : key ≠ k := fun heq => hk (heq ▸ h)
          simp [h, h ▸ hne]
        · simp [h]

/-- Of fields that are sorted, the last with a key counts. -/
theorem lookup?_foldl_insertSorted (fields sorted : List (String × Json)) (key : String) :
    Dictionary.lookup? (fields.foldl (fun sorted field => insertSorted field.1 field.2 sorted)
        sorted) key
      = (Dictionary.lookup? fields.reverse key).or (Dictionary.lookup? sorted key) := by
  induction fields generalizing sorted with
  | nil => rfl
  | cons field rest ih =>
    have hlast : Dictionary.lookup? [field] key = if key = field.1 then some field.2 else none :=
      Dictionary.lookup?_cons _ _ _
    have hreverse : Dictionary.lookup? (rest.reverse ++ [field]) key
        = (Dictionary.lookup? rest.reverse key).or (Dictionary.lookup? [field] key) :=
      List.lookup_append
    rw [List.foldl_cons, ih, lookup?_insertSorted, List.reverse_cons, hreverse, hlast,
      Option.or_assoc]
    by_cases h : key = field.1 <;> simp [h]

end Json

/-! ## Tables -/

namespace Discriminator

/-- No value selects two branches. -/
def IsFunction (discriminator : Discriminator) : Prop :=
  ∀ entry ∈ discriminator.entries, ∀ other ∈ discriminator.entries,
    entry.value = other.value → entry.branch = other.branch

variable {discriminator : Discriminator} {value : String} {branch : PojoName}

/-- **In a function, looking up a value finds the branch that it stands with.** -/
theorem branchFor_eq_ok_iff (h : discriminator.IsFunction) :
    discriminator.branchFor value = .ok branch ↔ ⟨value, branch⟩ ∈ discriminator.entries := by
  rw [branchFor]
  cases hfind : discriminator.entries.find? (·.value == value) with
  | none =>
    refine ⟨nofun, fun hmem => ?_⟩
    have hnone := List.find?_eq_none.mp hfind _ hmem
    simp at hnone
  | some entry =>
    have hentry := List.mem_of_find?_eq_some hfind
    have hvalue : entry.value = value := by simpa using List.find?_some hfind
    constructor
    · rintro ⟨⟩
      exact hvalue ▸ hentry
    · intro hmem
      exact congrArg Except.ok (h entry hentry _ hmem hvalue)

theorem branchFor_eq_error_iff {mismatch : DispatchMismatch} :
    discriminator.branchFor value = .error mismatch ↔ mismatch = ⟨discriminator.property, value⟩
      ∧ ∀ entry ∈ discriminator.entries, entry.value ≠ value := by
  rw [branchFor]
  cases hfind : discriminator.entries.find? (·.value == value) with
  | none =>
    have hnone := List.find?_eq_none.mp hfind
    simp only [beq_iff_eq] at hnone
    simp only [Except.error.injEq, eq_comm (b := mismatch)]
    exact ⟨fun heq => ⟨heq, hnone⟩, fun heq => heq.1⟩
  | some entry =>
    refine ⟨nofun, fun hnone => ?_⟩
    have hvalue : entry.value = value := by simpa using List.find?_some hfind
    exact absurd hvalue (hnone.2 entry (List.mem_of_find?_eq_some hfind))

theorem branchForOr_of_error {mismatch : DispatchMismatch}
    (h : discriminator.branchFor value = .error mismatch) (fallback : PojoName) :
    discriminator.branchForOr value fallback = fallback := by
  rw [branchForOr, h]

/-- **The value of a branch selects it.** -/
theorem exists_branchFor_of_valueFor (h : discriminator.IsFunction)
    (hvalue : discriminator.valueFor branch = some value) :
    ∃ name, discriminator.branchFor value = .ok name ∧ name.isSame branch = true := by
  obtain ⟨entry, hfind, rfl⟩ := Option.map_eq_some_iff.mp hvalue
  have hsame := List.find?_some (p := fun entry : DispatchEntry => entry.branch.isSame branch) hfind
  exact ⟨entry.branch, (branchFor_eq_ok_iff h).mpr (List.mem_of_find?_eq_some hfind), hsame⟩

theorem IsFunction.rename (h : discriminator.IsFunction) (f : PojoName → PojoName) :
    (discriminator.rename f).IsFunction := by
  intro entry hentry other hother hvalue
  obtain ⟨original, horiginal, rfl⟩ := List.mem_map.mp hentry
  obtain ⟨original', horiginal', rfl⟩ := List.mem_map.mp hother
  exact congrArg f (h original horiginal original' horiginal' hvalue)

/-- The fields in which values and branches are reported. -/
def mappingFields (discriminator : Discriminator) : List (String × Json) :=
  (discriminator.entries.map fun entry => (entry.value, Json.string entry.branch.text)).foldl
    (fun sorted field => Json.insertSorted field.1 field.2 sorted) []

theorem report_eq (discriminator : Discriminator) : discriminator.report
    = .sortedObject [("property", .string discriminator.property),
      ("mapping", .object discriminator.mappingFields)] :=
  rfl

/-- **The report of a function says what looking up a value gives**, although the last entry
counts there and the first one here. -/
theorem lookup?_mapping (h : discriminator.IsFunction) (value : String) :
    Dictionary.lookup? discriminator.mappingFields value
      = (discriminator.branchFor value).toOption.map fun branch => .string branch.text := by
  rw [mappingFields, Json.lookup?_foldl_insertSorted]
  simp only [Dictionary.lookup?_nil, Option.or_none]
  cases hbranch : discriminator.branchFor value with
  | ok branch =>
    have hmem := (branchFor_eq_ok_iff h).mp hbranch
    refine Dictionary.lookup?_of_forall ?_ ?_
    · exact List.mem_reverse.mpr (List.mem_map.mpr ⟨_, hmem, rfl⟩)
    · intro field hfield hvalue
      obtain ⟨entry, hentry, rfl⟩ := List.mem_map.mp (List.mem_reverse.mp hfield)
      rw [h entry hentry _ hmem hvalue]
  | error mismatch =>
    obtain ⟨-, hnone⟩ := branchFor_eq_error_iff.mp hbranch
    refine Dictionary.lookup?_eq_none_iff.mpr fun hkey => ?_
    obtain ⟨field, hfield, hvalue⟩ := List.mem_map.mp hkey
    obtain ⟨entry, hentry, rfl⟩ := List.mem_map.mp (List.mem_reverse.mp hfield)
    exact hnone entry hentry hvalue

end Discriminator

/-! ## Resolved tables -/

/-- The names have one suffix, and a key belongs to one of them only. -/
structure PojoName.AreDistinct (names : List PojoName) : Prop where
  suffix : ∀ name ∈ names, ∀ other ∈ names, name.suffix = other.suffix
  key : ∀ name ∈ names, ∀ other ∈ names, name.key = other.key → name = other

namespace DiscriminatorSketch

variable {sketch : DiscriminatorSketch} {branches : List PojoName}
  {mapping : Dictionary PojoName} {value : String} {branch : PojoName}

theorem mem_entries_of_mapping (h : sketch.mapping = some mapping) :
    ⟨value, branch⟩ ∈ (sketch.resolve branches).entries
      ↔ branch ∈ branches ∧ ∃ target, (value, target) ∈ mapping ∧ branch.key = target.key := by
  simp only [resolve, h, List.mem_flatMap, List.mem_map, List.mem_filter, PojoName.isSame_iff,
    DispatchEntry.mk.injEq]
  constructor
  · rintro ⟨_, hbranch, ⟨_, target⟩, ⟨hentry, hkey⟩, rfl, rfl⟩
    exact ⟨hbranch, target, hentry, hkey⟩
  · rintro ⟨hbranch, target, hentry, hkey⟩
    exact ⟨branch, hbranch, (value, target), ⟨hentry, hkey⟩, rfl, rfl⟩

theorem mem_entries_of_no_mapping (h : sketch.mapping = none) :
    ⟨value, branch⟩ ∈ (sketch.resolve branches).entries
      ↔ branch ∈ branches ∧ branch.raw = value := by
  simp [resolve, h, and_comm]

theorem branch_mem_of_mem_entries {entry : DispatchEntry}
    (h : entry ∈ (sketch.resolve branches).entries) : entry.branch ∈ branches := by
  obtain ⟨value, branch⟩ := entry
  cases hmapping : sketch.mapping with
  | none => exact ((mem_entries_of_no_mapping hmapping).mp h).1
  | some mapping => exact ((mem_entries_of_mapping hmapping).mp h).1

/-- **A resolved table is a function**, where branches have different names and no value is mapped
twice. -/
theorem isFunction_resolve (hbranches : PojoName.AreDistinct branches)
    (hvalues : ∀ mapping, sketch.mapping = some mapping → (Dictionary.keys mapping).Nodup) :
    (sketch.resolve branches).IsFunction := by
  rintro ⟨value, branch⟩ hentry ⟨_, other⟩ hother rfl
  cases hmapping : sketch.mapping with
  | none =>
    obtain ⟨hbranch, hraw⟩ := (mem_entries_of_no_mapping hmapping).mp hentry
    obtain ⟨hbranch', hraw'⟩ := (mem_entries_of_no_mapping hmapping).mp hother
    have hsuffix := hbranches.suffix branch hbranch other hbranch'
    obtain ⟨raw, suffix⟩ := branch
    obtain ⟨raw', suffix'⟩ := other
    simp_all
  | some mapping =>
    obtain ⟨hbranch, target, htarget, hkey⟩ := (mem_entries_of_mapping hmapping).mp hentry
    obtain ⟨hbranch', target', htarget', hkey'⟩ := (mem_entries_of_mapping hmapping).mp hother
    have hnodup := hvalues mapping hmapping
    have htargets : target = target' := by
      have hfirst := (Dictionary.lookup?_eq_some_iff hnodup).mpr htarget
      rw [(Dictionary.lookup?_eq_some_iff hnodup).mpr htarget'] at hfirst
      exact (Option.some.inj hfirst).symm
    exact hbranches.key branch hbranch other hbranch' (by rw [hkey, hkey', htargets])

/-- No value is mapped to anything but a branch if and only if each target is one. -/
theorem stray?_eq_none_iff (h : sketch.mapping = some mapping) :
    sketch.stray? branches = none
      ↔ ∀ entry ∈ mapping, ∃ branch ∈ branches, branch.key = entry.2.key := by
  simp [stray?, h]

end DiscriminatorSketch

end PojoGraph
