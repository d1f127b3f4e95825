import PojoGraph.Proofs.PojoSet.Mentions

/-!
# References of a type

The references that are checked are collected from a generated type in one sweep. They are the
names that stand in the types which the generated type holds: those of members and further
properties, of an array's value and of an alias, in branches to any depth as at the top. Each
reference to a type that the set does not have is then reported once for a key.

## Main definitions

* `DataType.RefersTo` — a name stands in a type.
* `ObjectPojo.Holds`, `Pojo.Holds` — a generated type holds a type.
* `Pojo.RefersTo` — a name stands in a type that the generated type holds.
* `Warning.isDangling` — a warning that reports a key for a generated type.

## Main statements

* `Pojo.mem_references_iff` — the collected names are those that are referred to.
* `countP_distinctNames` — each key is kept once.
* `countP_isDangling` — each key that is referred to in vain is reported once.
* `exists_of_mem_danglingReferences` — nothing else is reported.
-/

namespace PojoGraph

/-! ## References in types -/

/-- The name stands in the type: the type is a reference to it, or a container of one. -/
inductive DataType.RefersTo (name : PojoName) : DataType → Prop where
  | object (traits : Traits) : RefersTo name (.leaf (.object name) traits)
  | item {item : DataType} (traits : Traits) (h : RefersTo name item) :
    RefersTo name (.list item traits)
  | key {key : DataType} (value : DataType) (traits : Traits) (h : RefersTo name key) :
    RefersTo name (.map key value traits)
  | value (key : DataType) {value : DataType} (traits : Traits) (h : RefersTo name value) :
    RefersTo name (.map key value traits)

theorem DataType.mem_references_iff {name : PojoName} {type : DataType} :
    name ∈ type.references ↔ type.RefersTo name := by
  constructor
  · intro h
    induction type with
    | leaf leaf traits =>
      cases leaf with
      | object other =>
        obtain rfl := List.mem_singleton.mp h
        exact .object traits
      | _ => cases h
    | list item traits ih => exact .item traits (ih h)
    | map key value traits ihkey ihvalue =>
      rcases List.mem_append.mp h with h | h
      · exact .key value traits (ihkey h)
      · exact .value key traits (ihvalue h)
  · intro h
    induction h with
    | object traits => exact List.mem_singleton_self name
    | item traits _ ih => exact ih
    | key value traits _ ih => exact List.mem_append_left _ ih
    | value key traits _ ih => exact List.mem_append_right _ ih

/-! ## Types held -/

/-- The type is that of a member of the object, or of its further properties. -/
inductive ObjectPojo.Holds (object : ObjectPojo) : DataType → Prop where
  | member {member : Member} (h : member ∈ object.members) : Holds object member.type
  | additional {type : DataType} (h : object.additional = .allowed type) : Holds object type

theorem ObjectPojo.mem_ownReferences_iff {object : ObjectPojo} {name : PojoName} :
    name ∈ object.ownReferences ↔ ∃ type, object.Holds type ∧ type.RefersTo name := by
  rw [ownReferences, List.mem_append, List.mem_flatMap]
  constructor
  · rintro (⟨member, hmember, h⟩ | h)
    · exact ⟨member.type, .member hmember, DataType.mem_references_iff.mp h⟩
    · cases hadditional : object.additional with
      | notAllowed => rw [hadditional] at h; cases h
      | allowed type =>
        rw [hadditional] at h
        exact ⟨type, .additional hadditional, DataType.mem_references_iff.mp h⟩
  · rintro ⟨type, hholds, h⟩
    cases hholds with
    | @member member hmember => exact .inl ⟨member, hmember, DataType.mem_references_iff.mpr h⟩
    | additional hadditional =>
      rw [hadditional]
      exact .inr (DataType.mem_references_iff.mpr h)

namespace Pojo

/-- The generated type holds the type at its top, or in a branch at any depth. -/
inductive Holds : Pojo → DataType → Prop where
  | object {object : ObjectPojo} {type : DataType} (h : object.Holds type) :
    Holds (.object object) type
  | array (name : PojoName) (description : Option String) (value : Member) :
    Holds (.array name description value) value.type
  | typeAlias (name : PojoName) (description : Option String) (type : DataType)
      (nullability : Nullability) :
    Holds (.typeAlias name description type nullability) type
  | branch {pojo : Pojo} {branch : ObjectPojo} {type : DataType} (hembeds : pojo.Embeds branch)
      (h : branch.Holds type) :
    Holds pojo type

/-- The name stands in a type that the generated type holds. -/
def RefersTo (pojo : Pojo) (name : PojoName) : Prop :=
  ∃ type, pojo.Holds type ∧ type.RefersTo name

/-- What a type embeds is one of its branches, or embedded in one of them. -/
theorem embeds_iff {pojo : Pojo} {branch : ObjectPojo} : pojo.Embeds branch
    ↔ ∃ branches ∈ pojo.compositions, ∃ first ∈ branches,
      branch = first ∨ (Pojo.object first).Embeds branch := by
  constructor
  · intro h
    induction h with
    | direct hbranches hbranch => exact ⟨_, hbranches, _, hbranch, .inl rfl⟩
    | nested _ hbranches hbranch ih =>
      obtain ⟨branches, hfirsts, first, hfirst, rfl | hembeds⟩ := ih
      · exact ⟨branches, hfirsts, _, hfirst, .inr (.direct hbranches hbranch)⟩
      · exact ⟨branches, hfirsts, first, hfirst, .inr (.nested hembeds hbranches hbranch)⟩
  · rintro ⟨branches, hfirsts, first, hfirst, rfl | hembeds⟩
    · exact .direct hfirsts hfirst
    · induction hembeds with
      | direct hbranches hbranch => exact .nested (.direct hfirsts hfirst) hbranches hbranch
      | nested _ hbranches hbranch ih => exact .nested ih hbranches hbranch

end Pojo

/-- A type without compositions embeds nothing. -/
theorem Pojo.not_embeds_of_compositions {pojo : Pojo} (h : pojo.compositions = [])
    (branch : ObjectPojo) : ¬ pojo.Embeds branch := by
  rw [embeds_iff, h]
  rintro ⟨branches, hbranches, -⟩
  cases hbranches

theorem ObjectPojo.mem_branches_iff {object branch : ObjectPojo} :
    branch ∈ object.branches ↔ ∃ branches ∈ object.compositions, branch ∈ branches := by
  rcases hall : object.allOf with _ | allOf <;> rcases hone : object.oneOf with _ | ⟨oneOf, _⟩ <;>
    rcases hany : object.anyOf with _ | ⟨anyOf, _⟩ <;>
    simp [branches, compositions, hall, hone, hany]

/-- An object holds what it holds itself, and what its branches hold. -/
theorem Pojo.refersTo_object_iff {object : ObjectPojo} {name : PojoName} :
    (Pojo.object object).RefersTo name
      ↔ (∃ type, object.Holds type ∧ type.RefersTo name)
        ∨ ∃ branch ∈ object.branches, (Pojo.object branch).RefersTo name := by
  constructor
  · rintro ⟨type, hholds, h⟩
    cases hholds with
    | object hown => exact .inl ⟨type, hown, h⟩
    | branch hembeds hholds =>
      obtain ⟨branches, hbranches, first, hfirst, hcase⟩ := embeds_iff.mp hembeds
      have hmem : first ∈ object.branches :=
        ObjectPojo.mem_branches_iff.mpr ⟨branches, hbranches, hfirst⟩
      refine .inr ⟨first, hmem, type, ?_, h⟩
      rcases hcase with rfl | hdeeper
      · exact .object hholds
      · exact .branch hdeeper hholds
  · rintro (⟨type, hown, h⟩ | ⟨first, hfirst, type, hholds, h⟩)
    · exact ⟨type, .object hown, h⟩
    · obtain ⟨branches, hbranches, hmem⟩ := ObjectPojo.mem_branches_iff.mp hfirst
      refine ⟨type, ?_, h⟩
      cases hholds with
      | object hown => exact .branch (.direct hbranches hmem) hown
      | branch hembeds hdeeper =>
        exact .branch (embeds_iff.mpr ⟨branches, hbranches, first, hmem, .inr hembeds⟩) hdeeper

theorem ObjectPojo.mem_references_iff {object : ObjectPojo} {name : PojoName} :
    name ∈ object.references ↔ (Pojo.object object).RefersTo name := by
  induction object using branchInduction with
  | step object ih =>
    rw [references_eq, List.mem_append, mem_ownReferences_iff, List.mem_flatMap,
      Pojo.refersTo_object_iff]
    exact or_congr_right <| exists_congr fun branch => and_congr_right fun hbranch =>
      ih branch hbranch

/-- **The references that are collected from a generated type are the names that stand in the
types which it holds**, at any depth. -/
theorem Pojo.mem_references_iff {pojo : Pojo} {name : PojoName} :
    name ∈ pojo.references ↔ pojo.RefersTo name := by
  cases pojo with
  | object object => exact ObjectPojo.mem_references_iff
  | composed own description kind union =>
    rw [references, List.mem_flatMap]
    constructor
    · rintro ⟨first, hfirst, h⟩
      obtain ⟨type, hholds, h⟩ := ObjectPojo.mem_references_iff.mp h
      refine ⟨type, ?_, h⟩
      cases hholds with
      | object hown => exact .branch (.direct (List.mem_singleton_self _) hfirst) hown
      | branch hembeds hdeeper =>
        exact .branch (embeds_iff.mpr ⟨_, List.mem_singleton_self _, first, hfirst, .inr hembeds⟩)
          hdeeper
    · rintro ⟨type, hholds, h⟩
      cases hholds with
      | branch hembeds hholds =>
        obtain ⟨branches, hbranches, first, hfirst, hcase⟩ := embeds_iff.mp hembeds
        obtain rfl := List.mem_singleton.mp hbranches
        refine ⟨first, hfirst, ObjectPojo.mem_references_iff.mpr ⟨type, ?_, h⟩⟩
        rcases hcase with rfl | hdeeper
        · exact .object hholds
        · exact .branch hdeeper hholds
  | array own description value =>
    rw [references, DataType.mem_references_iff]
    constructor
    · intro h
      exact ⟨value.type, .array own description value, h⟩
    · rintro ⟨type, hholds, h⟩
      cases hholds with
      | array => exact h
      | branch hembeds _ => exact absurd hembeds (not_embeds_of_compositions rfl _)
  | typeAlias own description held nullability =>
    rw [references, DataType.mem_references_iff]
    constructor
    · intro h
      exact ⟨held, .typeAlias own description held nullability, h⟩
    · rintro ⟨type, hholds, h⟩
      cases hholds with
      | typeAlias => exact h
      | branch hembeds _ => exact absurd hembeds (not_embeds_of_compositions rfl _)
  | enum own description values =>
    refine ⟨fun h => (List.not_mem_nil h).elim, ?_⟩
    rintro ⟨type, hholds, -⟩
    cases hholds with
    | branch hembeds _ => exact absurd hembeds (not_embeds_of_compositions rfl _)
  | freeForm own description constraints =>
    refine ⟨fun h => (List.not_mem_nil h).elim, ?_⟩
    rintro ⟨type, hholds, -⟩
    cases hholds with
    | branch hembeds _ => exact absurd hembeds (not_embeds_of_compositions rfl _)

/-! ## Each key once -/

theorem mem_of_mem_distinctNames {seen : List String} {names : List PojoName} {name : PojoName}
    (h : name ∈ distinctNames seen names) : name ∈ names := by
  induction names generalizing seen with
  | nil => cases h
  | cons first rest ih =>
    rw [distinctNames] at h
    split at h
    · exact List.mem_cons_of_mem _ (ih h)
    · rcases List.mem_cons.mp h with rfl | h
      · exact List.mem_cons_self
      · exact List.mem_cons_of_mem _ (ih h)

/-- Keys that have been seen are left out. -/
theorem countP_distinctNames_of_seen {seen : List String} {names : List PojoName} {key : String}
    (h : key ∈ seen) : (distinctNames seen names).countP (·.key == key) = 0 := by
  induction names generalizing seen with
  | nil => rfl
  | cons first rest ih =>
    rw [distinctNames]
    split
    · exact ih h
    · rename_i hfirst
      have hne : first.key ≠ key := fun heq => hfirst (heq ▸ h)
      rw [List.countP_cons_of_neg (by simpa using hne)]
      exact ih (List.mem_cons_of_mem _ h)

/-- **Each other key is kept once.** -/
theorem countP_distinctNames {seen : List String} {names : List PojoName} {name : PojoName}
    (hname : name ∈ names) (hseen : name.key ∉ seen) :
    (distinctNames seen names).countP (·.key == name.key) = 1 := by
  induction names generalizing seen with
  | nil => cases hname
  | cons first rest ih =>
    rw [distinctNames]
    by_cases hsame : first.key = name.key
    · rw [if_neg (hsame ▸ hseen), List.countP_cons_of_pos (by simpa using hsame),
        countP_distinctNames_of_seen (by simp [hsame])]
    · have hrest : name ∈ rest := by
        rcases List.mem_cons.mp hname with rfl | hrest
        · exact absurd rfl hsame
        · exact hrest
      split
      · exact ih hrest hseen
      · rw [List.countP_cons_of_neg (by simpa using hsame)]
        refine ih hrest ?_
        simp [hseen, Ne.symm hsame]

/-! ## Reports -/

/-- Whether the warning reports, for the type of a name, a reference with the key. -/
def Warning.isDangling (pojo : PojoName) (key : String) : Warning → Bool
  | danglingReference owner reference => owner.isSame pojo && reference.key == key
  | _ => false

/-- The references of a type that lead to no type of the set and are not excluded. -/
def Pojo.undefined (exclusion : Exclusion) (pojos : List Pojo) (pojo : Pojo) : List PojoName :=
  pojo.references.filter fun name =>
    !(pojos.map (·.name.key)).contains name.key && !exclusion.excludes name.raw

theorem Pojo.mem_undefined_iff {exclusion : Exclusion} {pojos : List Pojo} {pojo : Pojo}
    {name : PojoName} : name ∈ pojo.undefined exclusion pojos
      ↔ pojo.RefersTo name ∧ (∀ other ∈ pojos, other.name.key ≠ name.key)
        ∧ exclusion.excludes name.raw = false := by
  rw [undefined, List.mem_filter, mem_references_iff]
  simp

theorem danglingReferences_eq (exclusion : Exclusion) (pojos : List Pojo) :
    danglingReferences exclusion pojos = pojos.flatMap fun pojo =>
      (distinctNames [] (pojo.undefined exclusion pojos)).map (.danglingReference pojo.name) :=
  rfl

/-- Types with other keys are not reported under a name. -/
theorem countP_isDangling_others {names : Pojo → List PojoName} {pojos : List Pojo}
    {owner : PojoName} (h : ∀ pojo ∈ pojos, pojo.name.key ≠ owner.key) (key : String) :
    (pojos.flatMap fun pojo => (names pojo).map (.danglingReference pojo.name)).countP
      (Warning.isDangling owner key) = 0 := by
  rw [List.countP_eq_zero]
  intro warning hwarning
  obtain ⟨pojo, hpojo, hmem⟩ := List.mem_flatMap.mp hwarning
  obtain ⟨name, -, rfl⟩ := List.mem_map.mp hmem
  simp [Warning.isDangling, h pojo hpojo]

/-- Where types have different keys, what is reported under the name of one is what is reported
for it. -/
theorem countP_isDangling_flatMap {names : Pojo → List PojoName} {pojos : List Pojo} {pojo : Pojo}
    (hnodup : (pojos.map (·.name.key)).Nodup) (hpojo : pojo ∈ pojos) (key : String) :
    (pojos.flatMap fun pojo => (names pojo).map (.danglingReference pojo.name)).countP
      (Warning.isDangling pojo.name key) = (names pojo).countP (·.key == key) := by
  obtain ⟨before, after, rfl⟩ := List.append_of_mem hpojo
  have hothers : ∀ other ∈ before ++ after, other.name.key ≠ pojo.name.key := by
    have hkeys := (List.perm_middle.map fun other : Pojo => other.name.key).nodup_iff.mp hnodup
    rw [List.map_cons, List.nodup_cons] at hkeys
    intro other hother hkey
    exact hkeys.1 (hkey ▸ List.mem_map_of_mem hother)
  have hown : ((names pojo).map (Warning.danglingReference pojo.name)).countP
      (Warning.isDangling pojo.name key) = (names pojo).countP (·.key == key) := by
    rw [List.countP_map]
    exact List.countP_congr fun name _ => by simp [Warning.isDangling]
  rw [List.flatMap_append, List.flatMap_cons, List.countP_append, List.countP_append, hown,
    countP_isDangling_others (fun other h => hothers other (List.mem_append_left _ h)),
    countP_isDangling_others (fun other h => hothers other (List.mem_append_right _ h))]
  omega

/-- **Each key that a type refers to in vain is reported once for it**, where types have different
keys. -/
theorem countP_isDangling {exclusion : Exclusion} {pojos : List Pojo} {pojo : Pojo}
    {name : PojoName} (hnodup : (pojos.map (·.name.key)).Nodup) (hpojo : pojo ∈ pojos)
    (hname : name ∈ pojo.undefined exclusion pojos) :
    (danglingReferences exclusion pojos).countP (Warning.isDangling pojo.name name.key) = 1 := by
  rw [danglingReferences_eq, countP_isDangling_flatMap hnodup hpojo]
  exact countP_distinctNames hname List.not_mem_nil

/-- **Nothing else is reported**: what is reported for a type is a name that it refers to in
vain. -/
theorem exists_of_mem_danglingReferences {exclusion : Exclusion} {pojos : List Pojo}
    {warning : Warning} (h : warning ∈ danglingReferences exclusion pojos) :
    ∃ pojo ∈ pojos, ∃ name ∈ pojo.undefined exclusion pojos,
      warning = .danglingReference pojo.name name := by
  obtain ⟨pojo, hpojo, hmem⟩ := List.mem_flatMap.mp h
  obtain ⟨name, hname, rfl⟩ := List.mem_map.mp hmem
  exact ⟨pojo, hpojo, name, mem_of_mem_distinctNames hname, rfl⟩

end PojoGraph
