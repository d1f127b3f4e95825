import PojoGraph.Proofs.Resolution.FixedPoint
import PojoGraph.Proofs.Resolution.Scope

/-!
# Resolution of a part of a table

If a part of a table mentions no name of the rest, the rest does not matter to it: the names in it
lead to the same, each round makes the same of its stubs, and the part resolves to its own part of
what the whole table resolves to. Only the number of rounds may differ, since the rest may need
some more.

## Main definitions

* `Owns` — a name has one of the keys of a part.
* `ClassTable.restrict` — the part of a table at some keys.
* `ClassTable.IsKeyed` — all entries stand at the keys of their names.

## Main statements

* `ClassTable.lead_congr` — names lead to the same in tables that agree on all that is met.
* `ClassTable.advance_restrict` — a round makes the same of a part.
* `ClassTable.settle_restrict` — **so do all rounds**.
-/

namespace PojoGraph

/-- The name has one of the keys. -/
def Owns (isOwn : String → Bool) (name : PojoName) : Prop :=
  isOwn name.key = true

namespace ClassTable

/-- The part of the table at the given keys. -/
def restrict (isOwn : String → Bool) (table : ClassTable) : ClassTable :=
  table.filter fun entry => isOwn entry.1

/-- Each entry stands at the key of its name. -/
def IsKeyed (table : ClassTable) : Prop :=
  ∀ entry ∈ table, entry.2.name.key = entry.1

variable {isOwn : String → Bool} {table other : ClassTable} {key : String} {stub : Stub}

/-! ## Leads -/

section

variable (hlookup : ∀ key, isOwn key = true → table.lookup? key = other.lookup? key)
  (hclosed : ∀ key next, isOwn key = true → table.next? key = some next → isOwn next = true)

include hlookup

theorem next?_congr (hkey : isOwn key = true) : table.next? key = other.next? key := by
  rw [next?, next?, hlookup key hkey]

include hclosed

/-- A chain that meets only keys at which the tables agree is the same in both. -/
theorem Follows.congr {path : List String} {stop : Option Classified}
    (h : table.Follows key path stop) (hkey : isOwn key = true) :
    other.Follows key path stop := by
  induction h with
  | @here key hend =>
    rw [hlookup key hkey]
    exact .here (next?_congr hlookup hkey ▸ hend)
  | @there key next path stop hnext _ ih =>
    exact .there (next?_congr hlookup hkey ▸ hnext) (ih (hclosed key next hkey hnext))

/-- **Names lead to the same in tables that agree on all that is met.** -/
theorem lead_congr {name : PojoName} (hname : Owns isOwn name) :
    table.lead name = other.lead name := by
  rcases table.lead_cases name with ⟨stop, ⟨path, hpath⟩, hlead⟩ | hcyclic
  · have hends : other.EndsIn name.key stop := ⟨path, hpath.congr hlookup hclosed hname⟩
    rw [hlead, lead_of_endsIn hends]
  rcases other.lead_cases name with ⟨stop, ⟨path, hpath⟩, hlead⟩ | hcyclic'
  · have hlookup' : ∀ key, isOwn key = true → other.lookup? key = table.lookup? key :=
      fun key hkey => (hlookup key hkey).symm
    have hclosed' : ∀ key next, isOwn key = true → other.next? key = some next →
        isOwn next = true :=
      fun key next hkey hnext => hclosed key next hkey (next?_congr hlookup hkey ▸ hnext)
    have hends : table.EndsIn name.key stop := ⟨path, hpath.congr hlookup' hclosed' hname⟩
    rw [hlead, lead_of_endsIn hends]
  · rw [hcyclic, hcyclic']

end

theorem outcome_congr (h : ∀ name ∈ stub.branchNames, table.lead name = other.lead name) :
    table.outcome stub = other.outcome stub := by
  have hinvalid : table.invalidBranches stub = other.invalidBranches stub := by
    refine List.filterMap_congr fun ⟨kind, name⟩ hbranch => ?_
    dsimp only
    rw [h name (mem_branchNames_iff.mpr ⟨kind, hbranch⟩)]
  have hmissing : table.missing stub = other.missing stub :=
    List.filter_congr fun name hname => by rw [h name hname]
  have hbranches : table.branchesOf stub = other.branchesOf stub := by
    simp only [branchesOf, objectsOf_congr h]
  rw [outcome, outcome, hinvalid, hmissing, hbranches]

/-! ## The part of a table -/

theorem lookup?_restrict (hkey : isOwn key = true) :
    (table.restrict isOwn).lookup? key = table.lookup? key := by
  unfold restrict Dictionary.lookup?
  induction table with
  | nil => rfl
  | cons entry rest ih =>
    cases hown : isOwn entry.1 with
    | true =>
      rw [List.filter_cons_of_pos (p := fun entry : String × Classified => isOwn entry.1) hown,
        List.lookup_cons, List.lookup_cons, ih]
    | false =>
      have hne : (key == entry.1) = false := by
        rw [beq_eq_false_iff_ne]
        rintro rfl
        rw [hkey] at hown
        cases hown
      rw [List.filter_cons_of_neg (by simp [hown]), List.lookup_cons, hne, ih]

theorem name_advanceEntry (table : ClassTable) (classified : Classified) :
    (table.advanceEntry classified).name = classified.name := by
  cases classified with
  | pojo pojo => rfl
  | plain plain => rfl
  | stub stub =>
    dsimp only [advanceEntry]
    cases houtcome : (table.outcome stub).pojo? with
    | none => rfl
    | some pojo =>
      obtain ⟨-, hresolve⟩ := pojo?_outcome_eq_some_iff.mp houtcome
      obtain ⟨-, rfl⟩ := resolve_eq_ok_iff.mp hresolve
      exact stub.name_toPojo _

theorem IsKeyed.advance (h : table.IsKeyed) : table.advance.IsKeyed :=
  List.forall_mem_map.mpr fun entry hentry =>
    (congrArg PojoName.key (name_advanceEntry table entry.2)).trans (h entry hentry)

theorem entries_restrict (h : table.IsKeyed) : (table.restrict isOwn).entries
    = table.entries.filter fun resolved => isOwn resolved.name.key := by
  rw [restrict, entries, entries, List.filterMap_filter, List.filter_filterMap]
  refine List.filterMap_congr fun entry hentry => ?_
  have hkey := h entry hentry
  obtain ⟨key, classified⟩ := entry
  cases classified with
  | pojo pojo =>
    obtain rfl : pojo.name.key = key := hkey
    rfl
  | plain plain =>
    obtain rfl : plain.name.key = key := hkey
    rfl
  | stub stub =>
    dsimp only
    split <;> rfl

theorem stubs_restrict_sublist : List.Sublist (table.restrict isOwn).stubs table.stubs :=
  List.filter_sublist.filterMap _

/-! ## One round -/

/-- Where no stub is resolved, a round changes nothing. -/
theorem advance_eq_self (h : table.canAdvance = false) : table.advance = table := by
  have hentry : ∀ entry ∈ table, (entry.1, table.advanceEntry entry.2) = id entry := by
    rintro ⟨key, classified⟩ hentry
    cases classified with
    | pojo pojo => rfl
    | plain plain => rfl
    | stub stub =>
      have hnone := canAdvance_eq_false_iff.mp h stub (mem_stubs_iff.mpr ⟨key, hentry⟩)
      simp only [advanceEntry, hnone]
      rfl
  rw [advance, List.map_congr_left hentry, List.map_id]

section

variable (hwithin : (table.restrict isOwn).Within (Owns isOwn))

include hwithin

/-- The names in the part lead to the same in it as in the whole table. -/
theorem lead_restrict {name : PojoName} (hname : Owns isOwn name) :
    (table.restrict isOwn).lead name = table.lead name := by
  refine lead_congr (fun key hkey => lookup?_restrict hkey) (fun key next _ hnext => ?_) hname
  obtain ⟨plain, target, hplain, htarget, rfl⟩ := next?_eq_some_iff.mp hnext
  cases hwithin.of_lookup? hplain with
  | plain h => exact h.type.of_objectName? htarget

theorem outcome_restrict (hstub : stub ∈ (table.restrict isOwn).stubs) :
    (table.restrict isOwn).outcome stub = table.outcome stub := by
  obtain ⟨key, hentry⟩ := mem_stubs_iff.mp hstub
  cases hwithin _ hentry with
  | stub h => exact outcome_congr fun name hname =>
      lead_restrict hwithin (h.of_mem_branchNames hname)

/-- **A round makes the same of a part as of the whole table.** -/
theorem advance_restrict : (table.restrict isOwn).advance = table.advance.restrict isOwn := by
  have hfilter : table.advance.restrict isOwn
      = (table.restrict isOwn).map fun entry => (entry.1, table.advanceEntry entry.2) := by
    rw [restrict, advance, List.filter_map]
    rfl
  rw [hfilter, advance]
  refine List.map_congr_left fun entry hentry => ?_
  obtain ⟨key, classified⟩ := entry
  cases classified with
  | pojo pojo => rfl
  | plain plain => rfl
  | stub stub =>
    have houtcome := outcome_restrict hwithin (mem_stubs_iff.mpr ⟨key, hentry⟩)
    simp only [advanceEntry, houtcome]

theorem faults_restrict (h : table.faults = []) : (table.restrict isOwn).faults = [] := by
  refine faults_eq_nil_iff.mpr fun stub hstub => ?_
  rw [outcome_restrict hwithin hstub]
  exact faults_eq_nil_iff.mp h stub (stubs_restrict_sublist.subset hstub)

end

/-! ## All rounds -/

/-- **A part of a table resolves to its part of what the whole resolves to**, if it mentions no
name of the rest. -/
theorem settle_restrict {number : Nat} {entries : List Resolved} (hkeyed : table.IsKeyed)
    (hwithin : (table.restrict isOwn).Within (Owns isOwn))
    (h : (table.settle number).2 = .ok entries) (number' : Nat) :
    ((table.restrict isOwn).settle number').2
      = .ok (entries.filter fun resolved => isOwn resolved.name.key) := by
  induction hn : table.stubs.length using Nat.strongRecOn generalizing table number number' with
  | _ n ih =>
    rw [snd_settle] at h
    cases hverdict : table.verdict? with
    | some result =>
      rw [hverdict, Option.getD_some] at h
      subst h
      rcases verdict?_cases hverdict with ⟨hnone, heq⟩ | ⟨failure, -, heq⟩ | ⟨-, -, -, heq⟩
      · cases heq
        have hstubs : (table.restrict isOwn).stubs = [] :=
          List.eq_nil_of_sublist_nil (hnone ▸ stubs_restrict_sublist)
        rw [snd_settle, verdict?, hstubs, ← entries_restrict hkeyed]
        rfl
      · cases heq
      · cases heq
    | none =>
      obtain ⟨-, hfaults, hadvance⟩ := verdict?_eq_none_iff.mp hverdict
      rw [hverdict, Option.getD_none] at h
      have hpart := advance_restrict hwithin
      have hrest := ih _ (hn ▸ length_stubs_advance_lt table hadvance) hkeyed.advance
        (hpart ▸ hwithin.advance) h
      rw [← hpart] at hrest
      cases hstop : (table.restrict isOwn).canAdvance with
      | false =>
        -- The rest may go on, but the part is the same after the round as before.
        rw [advance_eq_self hstop] at hrest
        exact hrest number' rfl
      | true =>
        have hnext : (table.restrict isOwn).verdict? = none := by
          refine verdict?_eq_none_iff.mpr ⟨?_, faults_restrict hwithin hfaults, hstop⟩
          intro hnone
          simp [canAdvance, hnone] at hstop
        rw [snd_settle, hnext]
        exact hrest (number' + 1) rfl

end ClassTable

end PojoGraph
