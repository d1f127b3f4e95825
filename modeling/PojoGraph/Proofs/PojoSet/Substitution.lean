import Mathlib.Data.List.Pairwise
import PojoGraph.Proofs.PojoSet.Expansion
import PojoGraph.Proofs.PojoSet.References

/-!
# Substitution in generated types

A reference is replaced by a type wherever it stands: in types of members and further properties,
in aliases, and in branches to any depth. A member that is itself the reference takes over a
description as well. Two replacements are apart if they are for different names and neither type
refers to the name of the other. Then the one finds the references of the other as they were, so
that they can be made in either order, and any number of them in any order.

## Main definitions

* `Replacement.AreApart` — replacements that do not touch what the other makes.

## Main statements

* `Revision.substitute_andThen_comm` — replacements that are apart can be made in either order.
* `Revision.sequence_substitute_of_perm` — so can those of a list in any order.
* `Pojo.references_substitute` — each reference is replaced in its place.
* `reference_substitution_lawful` — the laws of substitution, for types with branches to any depth.
-/

namespace PojoGraph

/-! ## What is left alone -/

section

variable {replacement : Replacement}

/-- A type that does not refer to what is replaced stays as it is. -/
theorem DataType.substitute_of_references {type : DataType}
    (h : ∀ name ∈ type.references, name.key ≠ replacement.name.key) :
    type.substitute replacement = type := by
  induction type with
  | leaf leaf traits =>
    refine substitute_leaf (fun name hleaf => h name ?_) traits
    rw [hleaf]
    exact List.mem_singleton_self name
  | list item traits ih => exact congrArg (DataType.list · traits) (ih h)
  | map key value traits ihkey ihvalue =>
    exact congrArg₂ (DataType.map · · traits)
      (ihkey fun name hmem => h name (List.mem_append_left _ hmem))
      (ihvalue fun name hmem => h name (List.mem_append_right _ hmem))

theorem DataType.mem_references_of_objectName? {type : DataType} {name : PojoName}
    (h : type.objectName? = some name) : name ∈ type.references := by
  rw [eq_of_objectName? h]
  exact List.mem_singleton_self name

namespace Member

variable {member : Member} {name : PojoName}

theorem refersTo_iff : member.refersTo name = true
    ↔ ∃ target, member.type.objectName? = some target ∧ target.key = name.key := by
  simp [refersTo, Option.any_eq_true]

/-- A member is a reference to one key at most. -/
theorem refersTo_eq_false {other : PojoName} (hkeys : name.key ≠ other.key)
    (h : member.refersTo name = true) : member.refersTo other = false := by
  obtain ⟨target, htarget, hkey⟩ := refersTo_iff.mp h
  rw [← Bool.not_eq_true, refersTo_iff]
  rintro ⟨target', htarget', hkey'⟩
  obtain rfl : target = target' := Option.some.inj (htarget.symm.trans htarget')
  exact hkeys (hkey.symm.trans hkey')

/-- A member whose type does not refer to a name is no reference to it. -/
theorem refersTo_eq_false_of_references
    (h : ∀ target ∈ member.type.references, target.key ≠ name.key) :
    member.refersTo name = false := by
  rw [← Bool.not_eq_true, refersTo_iff]
  rintro ⟨target, htarget, hkey⟩
  exact h target (DataType.mem_references_of_objectName? htarget) hkey

theorem description_substitute (replacement : Replacement) (member : Member) :
    (member.substitute replacement).description
      = if member.refersTo replacement.name then member.description <|> replacement.description
        else member.description :=
  rfl

end Member

end

/-! ## Two replacements -/

/-- The replacements are for different names, and neither type refers to the name of the other. -/
structure Replacement.AreApart (first second : Replacement) : Prop where
  keys_ne : first.name.key ≠ second.name.key
  first_avoids : ∀ name ∈ first.type.references, name.key ≠ second.name.key
  second_avoids : ∀ name ∈ second.type.references, name.key ≠ first.name.key

theorem Replacement.AreApart.symm {first second : Replacement} (h : first.AreApart second) :
    second.AreApart first :=
  ⟨h.keys_ne.symm, h.second_avoids, h.first_avoids⟩

instance : Std.Symm Replacement.AreApart := ⟨fun _ _ h => h.symm⟩

section

variable {first second : Replacement} (h : first.AreApart second)

include h

theorem DataType.substitute_comm (type : DataType) :
    (type.substitute first).substitute second = (type.substitute second).substitute first := by
  induction type with
  | leaf leaf traits =>
    cases leaf with
    | object name =>
      have hfirst := substitute_of_references h.first_avoids
      have hsecond := substitute_of_references h.second_avoids
      by_cases hkey : name.key = first.name.key
      · simp [substitute, hkey, h.keys_ne, hfirst]
      · by_cases hother : name.key = second.name.key
        · simp [substitute, hother, h.keys_ne.symm, hsecond]
        · simp [substitute, hkey, hother]
    | _ => rfl
  | list item traits ih => simp only [substitute, ih]
  | map key value traits ihkey ihvalue => simp only [substitute, ihkey, ihvalue]

/-- Making the one replacement does not make a member a reference to what the other is for, nor
keep it from being one. -/
theorem Member.refersTo_substitute (member : Member) :
    (member.substitute first).refersTo second.name = member.refersTo second.name := by
  cases hrefers : member.refersTo first.name with
  | true =>
    obtain ⟨target, htarget, hkey⟩ := refersTo_iff.mp hrefers
    have htype : member.type.substitute first = first.type := by
      rw [DataType.eq_of_objectName? htarget]
      simp [DataType.substitute, hkey]
    rw [refersTo_eq_false h.keys_ne hrefers]
    refine refersTo_eq_false_of_references fun target htarget => h.first_avoids target ?_
    rwa [← htype]
  | false =>
    have hname : (member.type.substitute first).objectName? = member.type.objectName? := by
      cases htype : member.type with
      | leaf leaf traits =>
        rw [DataType.substitute_leaf]
        rintro name rfl hkey
        exact Bool.false_ne_true
          (hrefers.symm.trans (refersTo_iff.mpr ⟨name, by rw [htype]; rfl, hkey⟩))
      | list item traits => rfl
      | map key value traits => rfl
    exact congrArg (Option.any (·.isSame second.name)) hname

theorem Member.substitute_comm (member : Member) :
    (member.substitute first).substitute second = (member.substitute second).substitute first := by
  have hdescription : ((member.substitute first).substitute second).description
      = ((member.substitute second).substitute first).description := by
    simp only [description_substitute, refersTo_substitute h, refersTo_substitute h.symm]
    -- a member is a reference to one of the two at most, so that only one can describe it
    cases hfirst : member.refersTo first.name with
    | false => simp only [Bool.false_eq_true, if_false]
    | true =>
      simp only [refersTo_eq_false h.keys_ne hfirst, Bool.false_eq_true, if_false]
  exact congrArg₂ (fun type description => { member with type, description })
    (member.type.substitute_comm h) hdescription

/-- **Replacements that are apart can be made in either order.** -/
theorem Revision.substitute_andThen_comm :
    (substitute first).andThen (substitute second)
      = (substitute second).andThen (substitute first) :=
  ext_of (fun _ => rfl) (Member.substitute_comm h) (DataType.substitute_comm h)

theorem Pojo.substitute_comm (pojo : Pojo) :
    (pojo.substitute first).substitute second = (pojo.substitute second).substitute first := by
  simp only [substitute, revise_revise, Revision.substitute_andThen_comm h]

end

/-! ## Lists of replacements -/

/-- **Replacements that are apart can be made in any order.** -/
theorem Revision.sequence_substitute_of_perm {replacements replacements' : List Replacement}
    (h : replacements.Pairwise Replacement.AreApart) (hperm : replacements.Perm replacements') :
    sequence substitute replacements = sequence substitute replacements' := by
  have hapart : ∀ first ∈ replacements, ∀ second ∈ replacements,
      first = second ∨ first.AreApart second := by
    intro first hfirst second hsecond
    by_cases heq : first = second
    · exact .inl heq
    · exact .inr (h.forall hfirst hsecond heq)
  refine ext_of (fun name => ?_) (fun member => ?_) (fun type => ?_)
  · simp only [name_sequence_substitute]
  · refine hperm.foldl_eq' (fun first hfirst second hsecond member => ?_) member
    rcases hapart first hfirst second hsecond with rfl | h
    · rfl
    · exact member.substitute_comm h
  · refine hperm.foldl_eq' (fun first hfirst second hsecond type => ?_) type
    rcases hapart first hfirst second hsecond with rfl | h
    · rfl
    · exact type.substitute_comm h

/-! ## References -/

section

variable (replacement : Replacement)

theorem Revision.mapsReferences_substitute :
    (substitute replacement).MapsReferences fun name =>
      if name.isSame replacement.name then replacement.type.references else [name] where
  member member := member.type.references_substitute replacement
  type type := type.references_substitute replacement

/-- **Each reference to what is replaced is exchanged, in its place**, for what the replacement
refers to. -/
theorem Pojo.references_substitute (pojo : Pojo) :
    (pojo.substitute replacement).references = pojo.references.flatMap fun name =>
      if name.isSame replacement.name then replacement.type.references else [name] :=
  references_revise (Revision.mapsReferences_substitute replacement) pojo

variable {replacement} in
/-- **No reference to what is replaced is left**, at any depth. -/
theorem Pojo.not_refersTo_substitute
    (h : ∀ name ∈ replacement.type.references, name.key ≠ replacement.name.key) (pojo : Pojo)
    {name : PojoName} (hname : (pojo.substitute replacement).RefersTo name) :
    name.key ≠ replacement.name.key := by
  rw [← mem_references_iff, references_substitute, List.mem_flatMap] at hname
  obtain ⟨original, -, hname⟩ := hname
  split at hname
  · exact h name hname
  · rename_i hother
    rw [List.mem_singleton.mp hname]
    simpa using hother

end

/-- **Replacing references has the laws of a substitution.** Take two names with different keys, and
for each a type that refers to neither, with a description or without. Replacing the references to
both in a generated type comes to the same in either order. Once the references to one name are
replaced, none to it is left, in branches to any depth. And the references of the generated type
are then what they were, with those of the replacing type in the place of each to that name. -/
theorem reference_substitution_lawful (pojo : Pojo) {first second : Replacement}
    (hkeys : first.name.key ≠ second.name.key)
    (hfirst : ∀ name ∈ first.type.references,
      name.key ≠ first.name.key ∧ name.key ≠ second.name.key)
    (hsecond : ∀ name ∈ second.type.references,
      name.key ≠ first.name.key ∧ name.key ≠ second.name.key) :
    (pojo.substitute first).substitute second = (pojo.substitute second).substitute first
      ∧ (∀ name, (pojo.substitute first).RefersTo name → name.key ≠ first.name.key)
      ∧ (pojo.substitute first).references = pojo.references.flatMap fun name =>
        if name.key = first.name.key then first.type.references else [name] := by
  have hapart : first.AreApart second :=
    ⟨hkeys, fun name hname => (hfirst name hname).2, fun name hname => (hsecond name hname).1⟩
  refine ⟨pojo.substitute_comm hapart, fun name hname => ?_, ?_⟩
  · exact pojo.not_refersTo_substitute (fun name hname => (hfirst name hname).1) hname
  · rw [Pojo.references_substitute]
    simp only [PojoName.isSame_iff]

/-- A pet whose keepers are listed, and whose animal, a branch, has a code and is kept for owners
by name. -/
def keptPet : Pojo :=
  .object {
    name := ⟨"Pet", "Dto"⟩
    members := [⟨"keepers", none, .list (.object ⟨"owner", "Dto"⟩) {}, .required, .notNullable⟩]
    allOf := some [{
      name := ⟨"Animal", "Dto"⟩
      members := [⟨"code", none, .object ⟨"Code", "Dto"⟩, .optional, .nullable⟩]
      additional := .allowed (.mapOf (.object ⟨"Owner", "Dto"⟩)) }] }

/-- Owners are lists of people. -/
def ownerPeople : Replacement :=
  ⟨⟨"Owner", "Dto"⟩, some "Who keeps a pet", .list (.object ⟨"Person", "Dto"⟩) {}⟩

/-- Codes are strings. -/
def codeText : Replacement :=
  ⟨⟨"Code", "Dto"⟩, some "A short code", .scalar (.string .plain)⟩

/-- The references to owners, in two spellings and in a branch, are replaced by those to people. -/
theorem reference_substitution_lawful_keptPet :
    ownerPeople.name.key ≠ codeText.name.key
      ∧ (keptPet.substitute ownerPeople).substitute codeText
        = (keptPet.substitute codeText).substitute ownerPeople
      ∧ (∀ name, (keptPet.substitute ownerPeople).RefersTo name → name.key ≠ ownerPeople.name.key)
      ∧ (keptPet.substitute ownerPeople).references
        = [⟨"Person", "Dto"⟩, ⟨"Code", "Dto"⟩, ⟨"Person", "Dto"⟩] := by
  have hkeys : ownerPeople.name.key ≠ codeText.name.key := by decide +kernel
  have hpeople : ∀ name ∈ ownerPeople.type.references,
      name.key ≠ ownerPeople.name.key ∧ name.key ≠ codeText.name.key := by decide +kernel
  have htext : ∀ name ∈ codeText.type.references,
      name.key ≠ ownerPeople.name.key ∧ name.key ≠ codeText.name.key := by decide +kernel
  obtain ⟨hcomm, hnone, hreferences⟩ :=
    reference_substitution_lawful keptPet hkeys hpeople htext
  refine ⟨hkeys, hcomm, hnone, hreferences.trans ?_⟩
  decide +kernel

end PojoGraph
