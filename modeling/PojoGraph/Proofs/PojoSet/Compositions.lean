import PojoGraph.Pojo.Revision
import PojoGraph.Composition

/-!
# Compositions and their copies

A pojo holds its branches as copies of other pojos, which hold copies in turn. The copies agree
with a list of pojos if each is the branch that some pojo of the list makes. It is enough to ask
this of the compositions that pojos have themselves: a copy has those of the pojo that it is a
copy of. Revisions keep the agreement, since a pojo makes the revised branch once it has been
revised itself.

## Main definitions

* `ObjectPojo.compositions`, `Pojo.compositions` — the lists of branches of a pojo.
* `Pojo.Embeds` — the branches of a pojo, to any depth.
* `ObjectPojo.IsBare` — an object with no members of its own or of others.
* `CopiesAgree` — branches are made by pojos of the list.

## Main statements

* `Pojo.asBranch_eq_ok_iff` — a branch with members is a copy of an object.
* `CopiesAgree.exists_asBranch` — agreement reaches branches at any depth.
* `Pojo.asBranch_revise` — a revised pojo makes the revised branch.
* `CopiesAgree.map_revise` — revisions keep the agreement.
-/

namespace PojoGraph

/-! ## Compositions -/

/-- The lists of branches of the compositions that an object has. -/
def ObjectPojo.compositions (object : ObjectPojo) : List (List ObjectPojo) :=
  object.allOf.toList ++ (object.oneOf.map (·.branches)).toList
    ++ (object.anyOf.map (·.branches)).toList

namespace Pojo

/-- The lists of branches of the compositions that a pojo has. -/
def compositions : Pojo → List (List ObjectPojo)
  | object o => o.compositions
  | composed _ _ _ union => [union.branches]
  | array .. => []
  | enum .. => []
  | freeForm .. => []
  | typeAlias .. => []

/-- The pojo has the branch in a composition, or in a composition of a branch that it has. -/
inductive Embeds (pojo : Pojo) : ObjectPojo → Prop where
  | direct {branches : List ObjectPojo} {branch : ObjectPojo}
      (hbranches : branches ∈ pojo.compositions) (hbranch : branch ∈ branches) :
    Embeds pojo branch
  | nested {outer : ObjectPojo} {branches : List ObjectPojo} {branch : ObjectPojo}
      (houter : Embeds pojo outer) (hbranches : branches ∈ outer.compositions)
      (hbranch : branch ∈ branches) :
    Embeds pojo branch

/-- The branch that a pojo makes has the compositions of the pojo. -/
theorem compositions_of_asBranch {pojo : Pojo} {object : ObjectPojo}
    (h : pojo.asBranch = .ok object) : object.compositions = pojo.compositions := by
  cases pojo with
  | object o => cases h; rfl
  | composed name description kind union => cases kind <;> cases h <;> rfl
  | freeForm name description constraints => cases h; rfl
  | array name description value => cases h
  | enum name description values => cases h
  | typeAlias name description type nullability => cases h

end Pojo

/-! ## Branches with members -/

/-- The object has no members and contains no others, and says nothing certain of further
properties. -/
structure ObjectPojo.IsBare (object : ObjectPojo) : Prop where
  members : object.members = []
  allOf : object.allOf = none
  requiredAdditional : object.requiredAdditional = []
  additional : object.additional = .notAllowed ∨ object.additional = .allowed .freeForm

/-- A branch that a pojo makes is the pojo's object, or it is bare. -/
theorem Pojo.eq_object_or_isBare_of_asBranch {pojo : Pojo} {object : ObjectPojo}
    (h : pojo.asBranch = .ok object) : pojo = .object object ∨ object.IsBare := by
  cases pojo with
  | object o => cases h; exact .inl rfl
  | composed name description kind union =>
    cases kind <;> cases h <;> exact .inr ⟨rfl, rfl, rfl, .inl rfl⟩
  | freeForm name description constraints => cases h; exact .inr ⟨rfl, rfl, rfl, .inr rfl⟩
  | array name description value => cases h
  | enum name description values => cases h
  | typeAlias name description type nullability => cases h

/-- A branch that a pojo makes is the pojo's object, or has no members. -/
theorem Pojo.eq_object_or_of_asBranch {pojo : Pojo} {object : ObjectPojo}
    (h : pojo.asBranch = .ok object) :
    pojo = .object object ∨ object.members = [] ∧ object.allOf = none :=
  (eq_object_or_isBare_of_asBranch h).imp_right fun hbare => ⟨hbare.members, hbare.allOf⟩

/-- **A branch with members is a copy of the one object that makes it.** -/
theorem Pojo.asBranch_eq_ok_iff {pojo : Pojo} {object : ObjectPojo} (h : object.members ≠ []) :
    pojo.asBranch = .ok object ↔ pojo = .object object := by
  constructor
  · intro hbranch
    exact (eq_object_or_of_asBranch hbranch).resolve_right fun hbare => h hbare.1
  · rintro rfl
    exact asBranch_object object

/-! ## Agreement -/

/-- Each composition of a pojo of the list has branches, and each branch is the one that some
pojo of the list makes. -/
def CopiesAgree (pojos : List Pojo) : Prop :=
  ∀ pojo ∈ pojos, ∀ branches ∈ pojo.compositions,
    branches ≠ [] ∧ ∀ branch ∈ branches, ∃ top ∈ pojos, top.asBranch = .ok branch

namespace CopiesAgree

variable {pojos : List Pojo} {pojo : Pojo} {branch : ObjectPojo}

/-- **Where copies agree, branches at any depth are made by pojos of the list.** -/
theorem exists_asBranch (h : CopiesAgree pojos) (hpojo : pojo ∈ pojos)
    (hembeds : pojo.Embeds branch) : ∃ top ∈ pojos, top.asBranch = .ok branch := by
  induction hembeds with
  | direct hbranches hbranch => exact (h pojo hpojo _ hbranches).2 _ hbranch
  | nested houter hbranches hbranch ih =>
    obtain ⟨top, htop, houterbranch⟩ := ih
    rw [Pojo.compositions_of_asBranch houterbranch] at hbranches
    exact (h top htop _ hbranches).2 _ hbranch

/-- Compositions at any depth have branches. -/
theorem ne_nil_of_embeds (h : CopiesAgree pojos) (hpojo : pojo ∈ pojos)
    (hembeds : pojo.Embeds branch) : ∀ branches ∈ branch.compositions, branches ≠ [] := by
  intro branches hbranches
  obtain ⟨top, htop, hbranch⟩ := h.exists_asBranch hpojo hembeds
  rw [Pojo.compositions_of_asBranch hbranch] at hbranches
  exact (h top htop branches hbranches).1

end CopiesAgree

/-! ## Revisions -/

/-- The revision does not change the type of any value whatsoever, which stands for the members
of a free-form object. -/
def Revision.KeepsFreeForm (r : Revision) : Prop :=
  r.type .freeForm = .freeForm

namespace Revision

theorem keepsFreeForm_rename (f : PojoName → PojoName) : (rename f).KeepsFreeForm := rfl

theorem keepsFreeForm_substitute (replacement : Replacement) :
    (substitute replacement).KeepsFreeForm := rfl

theorem keepsFreeForm_describe (described : Described) : (describe described).KeepsFreeForm := rfl

end Revision

theorem ObjectPojo.compositions_revise (r : Revision) (object : ObjectPojo) :
    (object.revise r).compositions = object.compositions.map (·.map (revise r)) := by
  rw [revise_eq]
  cases hall : object.allOf <;> cases hone : object.oneOf <;> cases hany : object.anyOf <;>
    simp [compositions, Alternatives.revise, hall, hone, hany]

namespace Pojo

theorem compositions_revise (r : Revision) (pojo : Pojo) :
    (pojo.revise r).compositions = pojo.compositions.map (·.map (ObjectPojo.revise r)) := by
  cases pojo with
  | object o => exact o.compositions_revise r
  | _ => rfl

/-- **A revised pojo makes the revised branch.** -/
theorem asBranch_revise {r : Revision} (hfree : r.KeepsFreeForm) {pojo : Pojo}
    {object : ObjectPojo} (h : pojo.asBranch = .ok object) :
    (pojo.revise r).asBranch = .ok (object.revise r) := by
  cases pojo with
  | object o =>
    cases h
    rfl
  | composed name description kind union =>
    cases kind <;> cases h <;>
      simp [revise, asBranch, ObjectPojo.revise_eq, AdditionalProperties.map]
  | freeForm name description constraints =>
    cases h
    have hfree' : r.type .freeForm = .freeForm := hfree
    simp [revise, asBranch, ObjectPojo.revise_eq, AdditionalProperties.map, hfree']
  | array name description value => cases h
  | enum name description values => cases h
  | typeAlias name description type nullability => cases h

end Pojo

namespace CopiesAgree

variable {pojos : List Pojo}

/-- **A revision of all pojos keeps the agreement.** -/
theorem map_revise (h : CopiesAgree pojos) {r : Revision} (hfree : r.KeepsFreeForm) :
    CopiesAgree (pojos.map (Pojo.revise r)) := by
  intro revised hrevised branches hbranches
  obtain ⟨pojo, hpojo, rfl⟩ := List.mem_map.mp hrevised
  rw [Pojo.compositions_revise] at hbranches
  obtain ⟨originals, horiginals, rfl⟩ := List.mem_map.mp hbranches
  obtain ⟨hne, hbranch⟩ := h pojo hpojo originals horiginals
  constructor
  · simpa using hne
  · intro branch hmem
    obtain ⟨original, horiginal, rfl⟩ := List.mem_map.mp hmem
    obtain ⟨top, htop, hasBranch⟩ := hbranch original horiginal
    exact ⟨top.revise r, List.mem_map_of_mem htop, Pojo.asBranch_revise hfree hasBranch⟩

end CopiesAgree

end PojoGraph
