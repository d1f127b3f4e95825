import Mathlib.Tactic.Tauto
import PojoGraph.Proofs.Classification.Sites

/-!
# Null branches

A branch that admits nothing but null is no branch of a type: it makes the schema nullable, and is
left out where branches are named, numbered or taken for a single reference. So it does not matter
how many of them the unions of a composed schema list, or where, with one exception. Which union the
discriminator belongs to is read off the lists as they are written. Where `oneOf` lists nothing, a
null branch in it takes the discriminator away from `anyOf`, and no union gets it.

## Main definitions

* `NullPadded` — a list of schemas with null branches put in.
* `Keywords.withUnions` — keywords with other unions.
* `Keywords.LosesDiscriminator` — the exception.

## Main statements

* `branchesOf_of_nullPadded` — null branches change no composition.
* `stubOf_withUnions` — what they change in a composed type.
* `null_branches_immaterial_iff` — when they change nothing.
-/

namespace PojoGraph

/-! ## Lists with null branches put in -/

/-- The second list is the first one with null branches put in, anywhere. -/
inductive NullPadded : List Schema → List Schema → Prop where
  | nil : NullPadded [] []
  | keep (schema : Schema) {schemas padded : List Schema} (h : NullPadded schemas padded) :
    NullPadded (schema :: schemas) (schema :: padded)
  | insert {null : Schema} (hnull : null.isNullType = true) {schemas padded : List Schema}
      (h : NullPadded schemas padded) :
    NullPadded schemas (null :: padded)

namespace NullPadded

variable {schemas padded : List Schema}

/-- Without null branches the lists are the same. -/
theorem filter_eq (h : NullPadded schemas padded) :
    padded.filter (!·.isNullType) = schemas.filter (!·.isNullType) := by
  induction h with
  | nil => rfl
  | keep schema _ ih => simp [List.filter_cons, ih]
  | insert hnull _ ih => simp [hnull, ih]

theorem length_le (h : NullPadded schemas padded) : schemas.length ≤ padded.length := by
  induction h with
  | nil => exact Nat.le_refl _
  | keep schema _ ih => simpa using ih
  | insert hnull _ ih => simp only [List.length_cons]; omega

theorem eq_nil (h : NullPadded schemas padded) (hpadded : padded = []) : schemas = [] := by
  have hlength := h.length_le
  rw [hpadded, List.length_nil] at hlength
  exact List.eq_nil_of_length_eq_zero (Nat.le_zero.mp hlength)

/-- There is a null branch if there was one, or if one has been put in. -/
theorem any_isNullType (h : NullPadded schemas padded) :
    padded.any Schema.isNullType = true
      ↔ schemas.any Schema.isNullType = true ∨ padded ≠ schemas := by
  induction h with
  | nil => simp
  | keep schema _ ih =>
    simp only [List.any_cons, Bool.or_eq_true, ih, ne_eq, List.cons.injEq, true_and]
    tauto
  | @insert null hnull schemas padded hrest _ =>
    have hlength := hrest.length_le
    have hne : null :: padded ≠ schemas := by
      intro heq
      rw [← heq, List.length_cons] at hlength
      omega
    simp [hnull, hne]

end NullPadded

/-! ## Keywords -/

namespace Keywords

/-- The keywords with the given branches in their unions. -/
def withUnions (k : Keywords Schema) (oneOf anyOf : List Schema) : Keywords Schema :=
  { k with oneOf, anyOf }

/-- The discriminator belongs to `anyOf` as long as `oneOf` lists nothing, and to nothing once it
lists null branches. -/
def LosesDiscriminator (k : Keywords Schema) (oneOf : List Schema) : Prop :=
  k.oneOf = [] ∧ oneOf ≠ [] ∧ k.discriminator ≠ none
    ∧ ∃ branch ∈ k.anyOf, branch.isNullType = false

variable {k : Keywords Schema} {oneOf anyOf : List Schema}

theorem composedBranches_withUnions (hone : NullPadded k.oneOf oneOf)
    (hany : NullPadded k.anyOf anyOf) :
    (k.withUnions oneOf anyOf).composedBranches = k.composedBranches := by
  simp only [composedBranches, withUnions, List.filter_append, hone.filter_eq, hany.filter_eq]

theorem singleReference?_withUnions (hone : NullPadded k.oneOf oneOf)
    (hany : NullPadded k.anyOf anyOf) :
    (k.withUnions oneOf anyOf).singleReference? = k.singleReference? := by
  rw [singleReference?, composedBranches_withUnions hone hany]
  rfl

theorem hasComposition_withUnions (hone : NullPadded k.oneOf oneOf)
    (hany : NullPadded k.anyOf anyOf) (h : k.hasComposition = true) :
    (k.withUnions oneOf anyOf).hasComposition = true := by
  simp only [hasComposition, Bool.or_eq_true, Bool.not_eq_true', List.isEmpty_eq_false_iff,
    withUnions] at h ⊢
  rcases h with (hall | hone') | hany'
  · exact .inl (.inl hall)
  · exact .inl (.inr fun hnil => hone' (hone.eq_nil hnil))
  · exact .inr fun hnil => hany' (hany.eq_nil hnil)

/-- **Null branches make the schema nullable.** -/
theorem isNullable_withUnions (hone : NullPadded k.oneOf oneOf)
    (hany : NullPadded k.anyOf anyOf) :
    (k.withUnions oneOf anyOf).isNullable = true
      ↔ k.isNullable = true ∨ oneOf ≠ k.oneOf ∨ anyOf ≠ k.anyOf := by
  simp only [isNullable, hasNullBranch, withUnions, List.any_append, Bool.or_eq_true,
    hone.any_isNullType, hany.any_isNullType]
  tauto

end Keywords

/-! ## Compositions -/

section

variable (settings : Settings) (owner : PojoName)

/-- **Null branches change no composition**, neither its names nor what is found in it. -/
theorem branchesOf_of_nullPadded {schemas padded : List Schema} (h : NullPadded schemas padded)
    (kind : CompositionKind) (survey : Survey) :
    branchesOf settings owner kind padded survey
      = branchesOf settings owner kind schemas survey := by
  simp only [branchesOf, h.filter_eq]

theorem fst_branchesOf_eq_none_iff (kind : CompositionKind) (schemas : List Schema)
    (survey : Survey) : (branchesOf settings owner kind schemas survey).1 = none
      ↔ ∀ branch ∈ schemas, branch.isNullType = true := by
  rw [branchesOf]
  by_cases h : (schemas.filter (!·.isNullType)).isEmpty
  · simp only [h, if_true, true_iff]
    simpa [List.filter_eq_nil_iff] using h
  · simp only [h, Bool.false_eq_true, if_false, reduceCtorEq, false_iff]
    simpa [List.filter_eq_nil_iff] using h

end

/-- The stub without a discriminator at `anyOf`. -/
def Stub.withoutAnyOfDiscriminator (stub : Stub) : Stub :=
  { stub with anyOf := stub.anyOf.map fun sketch => ⟨sketch.branches, none⟩ }

theorem Stub.withoutAnyOfDiscriminator_eq_iff {stub : Stub} :
    stub.withoutAnyOfDiscriminator = stub
      ↔ ∀ sketch, stub.anyOf = some sketch → sketch.discriminator = none := by
  obtain ⟨name, description, members, required, additional, constraints, allOf, oneOf, anyOf⟩ :=
    stub
  cases anyOf with
  | none => simp [withoutAnyOfDiscriminator]
  | some sketch =>
    obtain ⟨branches, discriminator⟩ := sketch
    simp [withoutAnyOfDiscriminator, eq_comm]

section

variable (settings : Settings) (owner : PojoName) {k : Keywords Schema} {oneOf anyOf : List Schema}

/-- **What null branches change in a composed type**: once `oneOf` lists them and nothing else,
the discriminator is no longer at `anyOf`. -/
theorem stubOf_withUnions (hone : NullPadded k.oneOf oneOf) (hany : NullPadded k.anyOf anyOf)
    (survey : Survey) :
    stubOf settings owner (k.withUnions oneOf anyOf) survey
      = (if k.oneOf = [] ∧ oneOf ≠ []
          then (stubOf settings owner k survey).1.withoutAnyOfDiscriminator
          else (stubOf settings owner k survey).1,
        (stubOf settings owner k survey).2) := by
  have hmembers : membersOf settings owner (k.withUnions oneOf anyOf)
      = membersOf settings owner k := rfl
  have hadditional : additionalOf settings owner (k.withUnions oneOf anyOf)
      = additionalOf settings owner k := rfl
  have hrequired : (k.withUnions oneOf anyOf).requiredAdditional = k.requiredAdditional := rfl
  have hnone : ∀ survey, branchesOf settings owner .oneOf [] survey = (none, survey) :=
    fun _ => rfl
  simp only [stubOf, hmembers, hadditional, hrequired]
  simp only [Keywords.withUnions, branchesOf_of_nullPadded settings owner hone,
    branchesOf_of_nullPadded settings owner hany]
  by_cases hplain : k.oneOf = []
  · by_cases hpadded : oneOf = []
    · simp [hplain, hpadded]
    · simp [hplain, hpadded, hnone, Stub.withoutAnyOfDiscriminator, Function.comp_def]
  · have hpadded : oneOf ≠ [] := fun hnil => hplain (hone.eq_nil hnil)
    simp [hplain, hpadded]

/-- The discriminator that `anyOf` has while `oneOf` lists nothing is that of the schema. -/
theorem withoutAnyOfDiscriminator_stubOf_eq_iff (hplain : k.oneOf = []) (survey : Survey) :
    (stubOf settings owner k survey).1.withoutAnyOfDiscriminator
        = (stubOf settings owner k survey).1
      ↔ k.discriminator = none ∨ ∀ branch ∈ k.anyOf, branch.isNullType = true := by
  obtain ⟨before, hbefore⟩ : ∃ before, (stubOf settings owner k survey).1.anyOf
      = (branchesOf settings owner .anyOf k.anyOf before).1.map
        (⟨·, if k.oneOf.isEmpty then k.discriminator.map (sketchOf settings) else none⟩) :=
    ⟨_, rfl⟩
  rw [← fst_branchesOf_eq_none_iff settings owner .anyOf k.anyOf before,
    Stub.withoutAnyOfDiscriminator_eq_iff, hbefore, hplain]
  cases (branchesOf settings owner .anyOf k.anyOf before).1 with
  | none => simp
  | some names => simp

variable {settings owner} in
/-- A composed schema that is not just a reference is classified as a stub. -/
theorem classify_of_hasComposition (hshape : k.isArrayShaped = false)
    (hcomposition : k.hasComposition = true) (hreference : k.singleReference? = none)
    (registry : Registry) :
    classify settings ⟨owner, .inline k⟩ registry
      = .ok (.stub (stubOf settings owner k { registry }).1,
          (stubOf settings owner k { registry }).2) := by
  simp [classify, classifyInline, hshape, hcomposition, hreference]

/-- **Null branches make a composed schema nullable and change nothing else, unless they take the
discriminator away.** Take a composed schema that describes no arrays and is not just a reference.
However null branches are put into its unions, classification gives a stub as before, finds the same
schemas under the same names, and gives the same warnings. The stub is the same if and only if the
discriminator is not lost, and otherwise it is the same but for the discriminator of `anyOf`. -/
theorem null_branches_immaterial_iff (registry : Registry) (hshape : k.isArrayShaped = false)
    (hcomposition : k.hasComposition = true) (hreference : k.singleReference? = none)
    (hone : NullPadded k.oneOf oneOf) (hany : NullPadded k.anyOf anyOf) :
    ∃ stub padded survey,
      classify settings ⟨owner, .inline k⟩ registry = .ok (.stub stub, survey)
      ∧ classify settings ⟨owner, .inline (k.withUnions oneOf anyOf)⟩ registry
        = .ok (.stub padded, survey)
      ∧ (padded = stub ↔ ¬ k.LosesDiscriminator oneOf)
      ∧ (k.LosesDiscriminator oneOf → padded = stub.withoutAnyOfDiscriminator)
      ∧ ((k.withUnions oneOf anyOf).isNullable = true
        ↔ k.isNullable = true ∨ oneOf ≠ k.oneOf ∨ anyOf ≠ k.anyOf) := by
  have hcomposed := Keywords.hasComposition_withUnions hone hany hcomposition
  have hno := (Keywords.singleReference?_withUnions hone hany).trans hreference
  have hpadded : classify settings ⟨owner, .inline (k.withUnions oneOf anyOf)⟩ registry
      = .ok (.stub (stubOf settings owner (k.withUnions oneOf anyOf) { registry }).1,
          (stubOf settings owner (k.withUnions oneOf anyOf) { registry }).2) :=
    classify_of_hasComposition (k := k.withUnions oneOf anyOf) hshape hcomposed hno registry
  rw [stubOf_withUnions settings owner hone hany] at hpadded
  refine ⟨_, _, _, classify_of_hasComposition hshape hcomposition hreference registry, hpadded,
    ?_, ?_, Keywords.isNullable_withUnions hone hany⟩
  · by_cases hlists : k.oneOf = [] ∧ oneOf ≠ []
    · rw [if_pos hlists, withoutAnyOfDiscriminator_stubOf_eq_iff settings owner hlists.1,
        or_iff_not_imp_left]
      simp [Keywords.LosesDiscriminator, hlists]
    · rw [if_neg hlists, eq_self, true_iff]
      intro hloses
      exact hlists ⟨hloses.1, hloses.2.1⟩
  · intro hloses
    rw [if_pos ⟨hloses.1, hloses.2.1⟩]

end

/-- Cats and dogs, told apart by their kind. -/
def catsAndDogs : Keywords Schema where
  anyOf := [.ref "#/components/schemas/Cat", .ref "#/components/schemas/Dog"]
  discriminator := some ⟨"kind", []⟩

/-- A schema that admits nothing but null. -/
def nullSchema : Schema :=
  .inline { types := some (.single .null) }

/-- A null branch between cats and dogs leaves their stub as it is. -/
theorem null_branches_immaterial_iff_catsAndDogs :
    ∃ stub survey, classify {} ⟨⟨"Pet", ""⟩, .inline catsAndDogs⟩ {} = .ok (.stub stub, survey)
      ∧ classify {} ⟨⟨"Pet", ""⟩, .inline (catsAndDogs.withUnions []
          [.ref "#/components/schemas/Cat", nullSchema, .ref "#/components/schemas/Dog"])⟩ {}
        = .ok (.stub stub, survey) := by
  have hany : NullPadded catsAndDogs.anyOf
      [.ref "#/components/schemas/Cat", nullSchema, .ref "#/components/schemas/Dog"] :=
    .keep _ (.insert rfl (.keep _ .nil))
  obtain ⟨stub, padded, survey, hstub, hpadded, hiff, -⟩ :=
    null_branches_immaterial_iff {} ⟨"Pet", ""⟩ {} rfl rfl rfl .nil hany
  obtain rfl := hiff.mpr fun hloses => hloses.2.1 rfl
  exact ⟨padded, survey, hstub, hpadded⟩

/-- **A null branch takes the discriminator away**: put into the empty `oneOf` beside cats and dogs,
it leaves them without one. -/
theorem null_branch_takes_discriminator :
    NullPadded catsAndDogs.oneOf [nullSchema]
      ∧ (catsAndDogs.isArrayShaped = false ∧ catsAndDogs.hasComposition = true
        ∧ catsAndDogs.singleReference? = none)
      ∧ ∃ stub padded survey survey',
        classify {} ⟨⟨"Pet", ""⟩, .inline catsAndDogs⟩ {} = .ok (.stub stub, survey)
        ∧ classify {} ⟨⟨"Pet", ""⟩, .inline (catsAndDogs.withUnions [nullSchema]
          catsAndDogs.anyOf)⟩ {} = .ok (.stub padded, survey')
        ∧ stub.discriminatorOf .anyOf = some ⟨"kind", none⟩
        ∧ padded.discriminatorOf .anyOf = none :=
  ⟨.insert rfl .nil, ⟨rfl, rfl, rfl⟩, _, _, _, _, rfl, rfl, rfl, rfl⟩

end PojoGraph
