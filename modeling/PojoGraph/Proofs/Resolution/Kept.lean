import PojoGraph.Proofs.Dispatch.Runs

/-!
# What resolution keeps of a stub

Resolution makes an object of a stub, which carries all that the stub says, or a composed pojo,
which carries its name, its description and one union. So everything else must be missing from a
stub that becomes a composed pojo. The search for such content passes over the constraints: a union
whose schema also bounds the number of properties becomes a composed pojo, and the bound is lost.

## Main definitions

* `Stub.IsJust` — a stub has one union, and besides it nothing but constraints.
* `Stub.CarriedBy` — an object carries all that a stub says, with its branches.
* `Stub.KeptIn` — nothing that a stub says is missing from a pojo.

## Main statements

* `Stub.toPojo_of_isJust`, `Stub.toPojo_of_not_isJust` — when a stub takes which shape.
* `Stub.carriedBy_toObject` — an object keeps everything.
* `resolution_keeps_iff` — nothing is lost, unless a union has constraints.
* `ClassTable.keptIn_outcome_iff` — the same for what a round resolves.
-/

namespace PojoGraph

/-- The objects that the branch names of a union lead to. -/
def Branches.objects? (branches : Branches) : UnionKind → Option (List ObjectPojo)
  | .oneOf => branches.oneOf
  | .anyOf => branches.anyOf

/-- The union of a keyword of an object. -/
def ObjectPojo.union? (object : ObjectPojo) :
    UnionKind → Option (Alternatives ObjectPojo Discriminator)
  | .oneOf => object.oneOf
  | .anyOf => object.anyOf

namespace Stub

variable {stub : Stub} {branches : Branches} {kind : UnionKind} {pojo : Pojo}

/-- One union, of the given keyword, and besides it nothing but constraints. -/
structure IsJust (stub : Stub) (kind : UnionKind) : Prop where
  sketch : ∀ other, (stub.sketch? other).isSome ↔ other = kind
  members : stub.members = []
  allOf : stub.allOf = none
  additional : stub.additional = .notAllowed
  requiredAdditional : stub.requiredAdditional = []

/-- An object carries all that a stub says, with the branches of its compositions. -/
structure CarriedBy (stub : Stub) (branches : Branches) (object : ObjectPojo) : Prop where
  name : object.name = stub.name
  description : object.description = stub.description
  members : object.members = (branches.allOf.getD []).flatMap (·.members) ++ stub.members
  requiredAdditional : object.requiredAdditional = stub.requiredAdditional
  additional : object.additional = stub.additional
  constraints : object.constraints = stub.constraints
  allOf : object.allOf.getD [] = branches.allOf.getD []
  unions : ∀ kind sketch objects, stub.sketch? kind = some sketch →
    branches.objects? kind = some objects → object.union? kind = some (sketch.resolve objects)

/-- Nothing that a stub says is missing from a pojo: it is an object that carries all of it, or a
union of a stub that says nothing else. -/
inductive KeptIn (stub : Stub) (branches : Branches) : Pojo → Prop where
  | object {object : ObjectPojo} (hcarried : stub.CarriedBy branches object) :
    KeptIn stub branches (.object object)
  | composed {kind : UnionKind} {sketch : UnionSketch} {objects : List ObjectPojo}
    {union : Alternatives ObjectPojo Discriminator} (hjust : stub.IsJust kind)
    (hconstraints : stub.constraints = {}) (hsketch : stub.sketch? kind = some sketch)
    (hobjects : branches.objects? kind = some objects) (hunion : union = sketch.resolve objects) :
    KeptIn stub branches (.composed stub.name stub.description kind union)

/-! ## Shapes -/

theorem IsJust.exists_sketch (hjust : stub.IsJust kind) :
    ∃ sketch, stub.sketch? kind = some sketch :=
  Option.isSome_iff_exists.mp ((hjust.sketch kind).mpr rfl)

/-- Exactly one of the two unions is sketched if and only if some keyword is the only one. -/
theorem isSome_bne_isSome_iff : (stub.oneOf.isSome != stub.anyOf.isSome) = true
    ↔ ∃ kind, ∀ other, (stub.sketch? other).isSome ↔ other = kind := by
  constructor
  · intro hne
    by_cases hone : stub.oneOf.isSome
    · have hany : stub.anyOf.isSome = false := by simpa [hone] using hne
      refine ⟨.oneOf, fun other => ?_⟩
      cases other <;> simp [sketch?, hone, hany]
    · have hany : stub.anyOf.isSome := by simpa [hone] using hne
      refine ⟨.anyOf, fun other => ?_⟩
      cases other <;> simp [sketch?, hone, hany]
  · rintro ⟨kind, hkind⟩
    have hone : stub.oneOf.isSome ↔ UnionKind.oneOf = kind := hkind .oneOf
    have hany : stub.anyOf.isSome ↔ UnionKind.anyOf = kind := hkind .anyOf
    cases kind <;> simp_all

theorem isBareUnion_iff : stub.isBareUnion = true ↔ ∃ kind, stub.IsJust kind := by
  have hadditional : stub.additional.isAllowed = false ↔ stub.additional = .notAllowed := by
    cases stub.additional <;> simp [AdditionalProperties.isAllowed]
  simp only [isBareUnion, isPureUnion, Bool.and_eq_true, List.isEmpty_iff,
    Option.isNone_iff_eq_none, Bool.not_eq_true', hadditional, isSome_bne_isSome_iff]
  constructor
  · rintro ⟨⟨⟨⟨hmembers, hallOf⟩, kind, hkind⟩, hnone⟩, hrequired⟩
    exact ⟨kind, hkind, hmembers, hallOf, hnone, hrequired⟩
  · rintro ⟨kind, hjust⟩
    exact ⟨⟨⟨⟨hjust.members, hjust.allOf⟩, kind, hjust.sketch⟩, hjust.additional⟩,
      hjust.requiredAdditional⟩

theorem union_eq_some_iff {union : Alternatives ObjectPojo Discriminator} :
    Stub.union (stub.sketch? kind) (branches.objects? kind) = some union
      ↔ ∃ sketch objects, stub.sketch? kind = some sketch ∧ branches.objects? kind = some objects
        ∧ sketch.resolve objects = union := by
  cases stub.sketch? kind <;> cases branches.objects? kind <;> simp [Stub.union]

/-- A stub that has just one union, with its branches, is that union. -/
theorem toPojo_of_isJust {sketch : UnionSketch} {objects : List ObjectPojo}
    (hjust : stub.IsJust kind) (hsketch : stub.sketch? kind = some sketch)
    (hobjects : branches.objects? kind = some objects) :
    stub.toPojo branches
      = .composed stub.name stub.description kind (sketch.resolve objects) := by
  have hbare : stub.isBareUnion = true := isBareUnion_iff.mpr ⟨kind, hjust⟩
  have hunion := union_eq_some_iff.mpr ⟨sketch, objects, hsketch, hobjects, rfl⟩
  rw [toPojo, hbare]
  cases kind with
  | oneOf =>
    have hany : stub.anyOf = none := by simpa [sketch?] using hjust.sketch .anyOf
    have hone : Stub.union stub.oneOf branches.oneOf = some (sketch.resolve objects) := hunion
    rw [hone, hany]
    rfl
  | anyOf =>
    have hone : stub.oneOf = none := by simpa [sketch?] using hjust.sketch .oneOf
    have hany : Stub.union stub.anyOf branches.anyOf = some (sketch.resolve objects) := hunion
    rw [hany, hone]
    rfl

/-- Any other stub is an object. -/
theorem toPojo_of_not_isJust (h : ∀ kind, stub.IsJust kind → branches.objects? kind = none) :
    stub.toPojo branches = .object (stub.toObject branches) := by
  have hnone : ∀ kind union, stub.isBareUnion = true →
      Stub.union (stub.sketch? kind) (branches.objects? kind) ≠ some union := by
    intro kind union hbare hunion
    obtain ⟨just, hjust⟩ := isBareUnion_iff.mp hbare
    obtain ⟨sketch, objects, hsketch, hobjects, -⟩ := union_eq_some_iff.mp hunion
    have hkind : kind = just := (hjust.sketch kind).mp (by rw [hsketch]; rfl)
    rw [hkind, h just hjust] at hobjects
    cases hobjects
  rw [toPojo]
  split
  · rename_i union hbare hone _
    exact absurd hone (hnone .oneOf union hbare)
  · rename_i union hbare _ hany
    exact absurd hany (hnone .anyOf union hbare)
  · rfl

/-- An object made of a stub carries all that the stub says. -/
theorem carriedBy_toObject (stub : Stub) (branches : Branches) :
    stub.CarriedBy branches (stub.toObject branches) := by
  constructor
  case allOf =>
    rw [toObject]
    cases branches.allOf with
    | none => rfl
    | some objects => cases objects <;> rfl
  case unions =>
    intro kind sketch objects hsketch hobjects
    have hunion := union_eq_some_iff.mpr ⟨sketch, objects, hsketch, hobjects, rfl⟩
    cases kind <;> exact hunion
  all_goals rfl

/-- **What is lost**: nothing, unless a stub that has just one union has constraints too. -/
theorem keptIn_toPojo_iff : stub.KeptIn branches (stub.toPojo branches)
    ↔ ∀ kind objects, stub.IsJust kind → branches.objects? kind = some objects →
      stub.constraints = {} := by
  constructor
  · intro hkept kind objects hjust hobjects
    obtain ⟨sketch, hsketch⟩ := hjust.exists_sketch
    rw [toPojo_of_isJust hjust hsketch hobjects] at hkept
    cases hkept with
    | composed _ hconstraints _ _ _ => exact hconstraints
  · intro hconstraints
    by_cases hjust : ∃ kind objects, stub.IsJust kind ∧ branches.objects? kind = some objects
    · obtain ⟨kind, objects, hjust, hobjects⟩ := hjust
      obtain ⟨sketch, hsketch⟩ := hjust.exists_sketch
      rw [toPojo_of_isJust hjust hsketch hobjects]
      exact .composed hjust (hconstraints kind objects hjust hobjects) hsketch hobjects rfl
    · rw [toPojo_of_not_isJust]
      · exact .object (carriedBy_toObject stub branches)
      · intro kind hkind
        exact Option.eq_none_iff_forall_ne_some.mpr fun objects hobjects =>
          hjust ⟨kind, objects, hkind, hobjects⟩

/-- **What resolution keeps.** A stub that resolves becomes a composed pojo with its name, its
description and its union if it has just one union, with its branches, and constraints; any other
becomes an object that carries its name, its description, the members of its `allOf` branches and
its own, its required names, its policy for further properties, its constraints, and all of its
compositions with their branches. So nothing that the stub says is lost, if and only if it has no
constraints in the first case. -/
theorem resolution_keeps_iff (h : stub.resolve branches = .ok pojo) :
    (∀ kind objects, stub.IsJust kind → branches.objects? kind = some objects →
        ∃ sketch, stub.sketch? kind = some sketch
          ∧ pojo = .composed stub.name stub.description kind (sketch.resolve objects))
      ∧ ((∀ kind, stub.IsJust kind → branches.objects? kind = none) →
        ∃ object, pojo = .object object ∧ stub.CarriedBy branches object)
      ∧ (stub.KeptIn branches pojo ↔ ∀ kind objects, stub.IsJust kind →
        branches.objects? kind = some objects → stub.constraints = {}) := by
  obtain ⟨-, rfl⟩ := ClassTable.resolve_eq_ok_iff.mp h
  refine ⟨fun kind objects hjust hobjects => ?_, fun hnone => ?_, keptIn_toPojo_iff⟩
  · obtain ⟨sketch, hsketch⟩ := hjust.exists_sketch
    exact ⟨sketch, hsketch, toPojo_of_isJust hjust hsketch hobjects⟩
  · exact ⟨stub.toObject branches, toPojo_of_not_isJust hnone, carriedBy_toObject stub branches⟩

/-- Pets, which are cats, under the given constraints. -/
def petUnion (constraints : Constraints) : Stub :=
  { name := ⟨"Pet", ""⟩, oneOf := some ⟨[⟨"Cat", ""⟩], none⟩, constraints }

/-- The cats. -/
def catBranch : Branches :=
  { oneOf := some [{ name := ⟨"Cat", ""⟩ }] }

/-- Without constraints the union is kept. -/
theorem resolution_keeps_iff_cats :
    (petUnion {}).resolve catBranch
        = .ok (.composed ⟨"Pet", ""⟩ none .oneOf ⟨[{ name := ⟨"Cat", ""⟩ }], none⟩)
      ∧ (petUnion {}).KeptIn catBranch
        (.composed ⟨"Pet", ""⟩ none .oneOf ⟨[{ name := ⟨"Cat", ""⟩ }], none⟩) :=
  have h : (petUnion {}).resolve catBranch
      = .ok (.composed ⟨"Pet", ""⟩ none .oneOf ⟨[{ name := ⟨"Cat", ""⟩ }], none⟩) := rfl
  ⟨h, (resolution_keeps_iff h).2.2.mpr fun _ _ _ _ => rfl⟩

/-- **A bound on the number of properties is lost** beside a union: pets become a composed pojo, as
if the bound were missing, though the stub says more than its union. -/
theorem bounded_union_composed :
    (petUnion { propertyCount := some ⟨some 1, none⟩ }).resolve catBranch
        = .ok (.composed ⟨"Pet", ""⟩ none .oneOf ⟨[{ name := ⟨"Cat", ""⟩ }], none⟩)
      ∧ (petUnion { propertyCount := some ⟨some 1, none⟩ }).resolve catBranch
        = (petUnion {}).resolve catBranch
      ∧ (petUnion { propertyCount := some ⟨some 1, none⟩ }).constraints ≠ {} :=
  ⟨rfl, rfl, by decide⟩

end Stub

/-! ## Rounds -/

namespace ClassTable

variable {table : ClassTable} {stub : Stub} {kind : UnionKind} {pojo : Pojo}

theorem objects?_branchesOf : (table.branchesOf stub).objects? kind
    = (stub.sketch? kind).map fun sketch => table.objectsAt sketch.branches := by
  cases kind with
  | oneOf => exact Option.map_map _ _ stub.oneOf
  | anyOf => exact Option.map_map _ _ stub.anyOf

/-- **A round loses nothing** of a stub that it resolves, except the constraints of one that has
just one union. -/
theorem keptIn_outcome_iff (h : (table.outcome stub).pojo? = some pojo) :
    stub.KeptIn (table.branchesOf stub) pojo
      ↔ ∀ kind, stub.IsJust kind → stub.constraints = {} := by
  obtain ⟨-, hresolve⟩ := pojo?_outcome_eq_some_iff.mp h
  obtain ⟨-, rfl⟩ := resolve_eq_ok_iff.mp hresolve
  rw [Stub.keptIn_toPojo_iff]
  refine forall_congr' fun kind => ⟨fun hkept hjust => ?_, fun hkept _ hjust _ => hkept hjust⟩
  obtain ⟨sketch, hsketch⟩ := hjust.exists_sketch
  have hobjects : (table.branchesOf stub).objects? kind
      = some (table.objectsAt sketch.branches) := by
    rw [objects?_branchesOf, hsketch, Option.map_some]
  exact hkept _ hjust hobjects

end ClassTable

end PojoGraph
