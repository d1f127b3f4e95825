import PojoGraph.Proofs.Classification.Scope
import PojoGraph.Proofs.PojoSet.Copies

/-!
# Resolution within a scope

Resolution puts no names into types but those that stand in the table already: the branches of a
stub come from the table, and its discriminators select these branches. So if the entries of a
table are within a scope, so are they after each round.

## Main definitions

* `ClassTable.Within`, `Resolved.Within` — all names in a table, or in what a schema has become,
  are in scope.

## Main statements

* `Stub.Within.toPojo` — a stub makes a type within the scope.
* `ClassTable.Within.rounds` — rounds of resolution keep a table within the scope.
* `ClassTable.Within.settle` — what the table settles to is within it.
-/

namespace PojoGraph

variable {P : PojoName → Prop}

/-! ## Stubs -/

/-- All names in the branches are in scope. -/
structure Branches.Within (P : PojoName → Prop) (branches : Branches) : Prop where
  allOf : ∀ objects, branches.allOf = some objects → ∀ object ∈ objects, object.Within P
  oneOf : ∀ objects, branches.oneOf = some objects → ∀ object ∈ objects, object.Within P
  anyOf : ∀ objects, branches.anyOf = some objects → ∀ object ∈ objects, object.Within P

theorem ObjectPojo.Within.name {object : ObjectPojo} (h : object.Within P) : P object.name := by
  obtain ⟨hname⟩ := h
  exact hname

theorem ObjectPojo.Within.members {object : ObjectPojo} (h : object.Within P) :
    ∀ member ∈ object.members, member.type.Within P := by
  obtain ⟨-, hmembers⟩ := h
  exact hmembers

theorem Stub.Within.of_mem_branchNames {stub : Stub} (h : stub.Within P)
    {name : PojoName} (hname : name ∈ stub.branchNames) : P name := by
  obtain ⟨kind, hkind⟩ := ClassTable.mem_branchNames_iff.mp hname
  obtain ⟨other, -, hmem⟩ := List.mem_flatMap.mp hkind
  obtain ⟨branch, hbranch, heq⟩ := List.mem_map.mp hmem
  obtain ⟨rfl, rfl⟩ := Prod.mk.inj heq
  cases hnames : stub.branchesOf other with
  | none => rw [hnames] at hbranch; cases hbranch
  | some names =>
    rw [hnames] at hbranch
    exact h.branches other names hnames branch hbranch

/-- A union of branches within the scope is within it: its discriminator selects branches. -/
theorem Stub.within_of_union {sketch : Option UnionSketch} {objects : Option (List ObjectPojo)}
    (hobjects : ∀ list, objects = some list → ∀ object ∈ list, object.Within P)
    {union : Alternatives ObjectPojo Discriminator} (h : Stub.union sketch objects = some union) :
    union.Within P := by
  have hbranches : ∀ branch ∈ union.branches, branch.Within P := by
    unfold Stub.union at h
    split at h
    · cases h
      exact hobjects _ rfl
    · cases h
  refine ⟨hbranches, fun discriminator hdiscriminator name hname => ?_⟩
  obtain ⟨branch, hbranch, rfl⟩ := exists_branch_of_union h hdiscriminator name hname
  exact (hbranches branch hbranch).name

section

variable {stub : Stub} (h : stub.Within P) {branches : Branches} (hbranches : branches.Within P)

include h hbranches

theorem Stub.Within.toObject : (stub.toObject branches).Within P := by
  have hone : ∀ union, (stub.toObject branches).oneOf = some union → union.Within P :=
    fun union hunion => Stub.within_of_union hbranches.oneOf hunion
  have hany : ∀ union, (stub.toObject branches).anyOf = some union → union.Within P :=
    fun union hunion => Stub.within_of_union hbranches.anyOf hunion
  refine .intro h.name ?_ h.additional ?_ ?_
  · intro member hmember
    rcases List.mem_append.mp hmember with hmember | hmember
    · cases hall : branches.allOf with
      | none => simp [hall] at hmember
      | some objects =>
        rw [hall] at hmember
        obtain ⟨object, hobject, hmember⟩ := List.mem_flatMap.mp hmember
        exact (hbranches.allOf objects hall object hobject).members member hmember
    · exact h.members member hmember
  · intro discriminator hdiscriminator
    simp only [ObjectPojo.discriminators, List.mem_append, Option.mem_toList,
      Option.bind_eq_some_iff] at hdiscriminator
    rcases hdiscriminator with ⟨union, hunion, hmem⟩ | ⟨union, hunion, hmem⟩
    · exact (hone union hunion).discriminator discriminator hmem
    · exact (hany union hunion).discriminator discriminator hmem
  · intro branch hbranch
    simp only [ObjectPojo.branches, List.mem_append] at hbranch
    rcases hbranch with (hbranch | hbranch) | hbranch
    · cases hall : (stub.toObject branches).allOf with
      | none => simp [hall] at hbranch
      | some objects =>
        rw [hall] at hbranch
        obtain ⟨hkept, -⟩ := Option.filter_eq_some_iff.mp hall
        exact hbranches.allOf objects hkept branch hbranch
    · cases hunion : (stub.toObject branches).oneOf with
      | none => rw [hunion] at hbranch; cases hbranch
      | some union =>
        rw [hunion] at hbranch
        exact (hone union hunion).branches branch hbranch
    · cases hunion : (stub.toObject branches).anyOf with
      | none => rw [hunion] at hbranch; cases hbranch
      | some union =>
        rw [hunion] at hbranch
        exact (hany union hunion).branches branch hbranch

/-- **A stub within the scope makes a type within it** of branches within it. -/
theorem Stub.Within.toPojo : (stub.toPojo branches).Within P := by
  rw [Stub.toPojo]
  split
  · rename_i hone _
    exact .composed h.name (Stub.within_of_union hbranches.oneOf hone)
  · rename_i _ hany
    exact .composed h.name (Stub.within_of_union hbranches.anyOf hany)
  · exact .object (h.toObject hbranches)

end

/-! ## Tables -/

/-- All names in what a schema has become are in scope. -/
inductive Resolved.Within (P : PojoName → Prop) : Resolved → Prop where
  | pojo {pojo : Pojo} (h : pojo.Within P) : Within P (.pojo pojo)
  | plain {plain : PlainMember} (h : plain.Within P) : Within P (.plain plain)

namespace ClassTable

/-- All names in the entries of the table are in scope. -/
def Within (P : PojoName → Prop) (table : ClassTable) : Prop :=
  ∀ entry ∈ table, entry.2.Within P

namespace Within

variable {table : ClassTable} (h : table.Within P)

include h

theorem of_lookup? {key : String} {classified : Classified}
    (hlookup : table.lookup? key = some classified) : classified.Within P :=
  h _ (Dictionary.mem_of_lookup? hlookup)

theorem entries : ∀ resolved ∈ table.entries, resolved.Within P := by
  intro resolved hresolved
  obtain ⟨⟨key, classified⟩, hentry, hsome⟩ := List.mem_filterMap.mp hresolved
  have hwithin := h _ hentry
  cases hwithin with
  | pojo hpojo => cases hsome; exact .pojo hpojo
  | plain hplain => cases hsome; exact .plain hplain
  | stub hstub => cases hsome

theorem branchesOf (stub : Stub) : (table.branchesOf stub).Within P := by
  have hobjects : ∀ kind objects, table.objectsOf stub kind = some objects →
      ∀ object ∈ objects, object.Within P := by
    intro kind objects hkind object hobject
    obtain ⟨names, -, rfl⟩ := Option.map_eq_some_iff.mp hkind
    obtain ⟨name, -, hlead⟩ := List.mem_filterMap.mp hobject
    cases hcase : table.lead name with
    | object o =>
      rw [hcase] at hlead
      cases hlead
      obtain ⟨pojo, hpojo, hbranch⟩ := exists_asBranch_of_lead hcase
      cases h.entries _ hpojo with
      | pojo hwithin => exact hwithin.of_asBranch hbranch
    | waiting => rw [hcase] at hlead; cases hlead
    | invalid obstacle => rw [hcase] at hlead; cases hlead
  exact ⟨hobjects .allOf, hobjects .oneOf, hobjects .anyOf⟩

theorem advance : table.advance.Within P := by
  refine List.forall_mem_map.mpr ?_
  rintro ⟨key, classified⟩ hentry
  cases h _ hentry with
  | pojo hpojo => exact .pojo hpojo
  | plain hplain => exact .plain hplain
  | @stub stub hstub =>
    dsimp only [advanceEntry]
    cases houtcome : (table.outcome stub).pojo? with
    | none => exact .stub hstub
    | some pojo =>
      obtain ⟨-, hresolve⟩ := pojo?_outcome_eq_some_iff.mp houtcome
      obtain ⟨-, rfl⟩ := resolve_eq_ok_iff.mp hresolve
      exact .pojo (hstub.toPojo (h.branchesOf stub))

/-- **Rounds of resolution keep a table within the scope.** -/
theorem rounds (n : Nat) : (table.rounds n).Within P := by
  induction n with
  | zero => exact h
  | succ n ih => exact ih.advance

/-- What the table settles to is within the scope. -/
theorem settle {number : Nat} {resolved : List Resolved}
    (hsettle : (ClassTable.settle number table).2 = .ok resolved) :
    ∀ entry ∈ resolved, entry.Within P := by
  obtain ⟨n, -, hverdict, -⟩ := exists_verdict table number
  rw [hsettle] at hverdict
  rcases verdict?_cases hverdict with ⟨-, heq⟩ | ⟨failure, -, heq⟩ | ⟨-, -, -, heq⟩
  · cases heq
    exact (h.rounds n).entries
  · cases heq
  · cases heq

end Within

end ClassTable

end PojoGraph
