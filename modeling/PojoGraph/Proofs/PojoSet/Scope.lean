import PojoGraph.Proofs.PojoSet.Expansion

/-!
# Names in scope

Often not all names matter, but only those of some scope: the names of ASCII schemas, or those of
a part of a document. A type is within a scope if all names in it are, in branches to any depth as
at the top. What a revision makes of such a type depends only on what it does within the scope.

## Main definitions

* `DataType.Within`, `ObjectPojo.Within`, `Pojo.Within` — all names in a type are in scope.
* `Revision.KeepsWithin` — a revision does not lead out of the scope.
* `Revision.AgreesOn` — two revisions do the same within the scope.

## Main statements

* `Pojo.Within.references` — what is referred to in a type within the scope is in it.
* `Pojo.Within.revise` — a revision that keeps within the scope keeps types within it.
* `Pojo.Within.revise_congr` — revisions that agree on the scope revise such types alike.
* `Revision.agreesOn_filter` — revisions that do nothing within the scope can be left out.
-/

namespace PojoGraph

variable {P : PojoName → Prop}

/-! ## Types -/

/-- All names that stand in the type are in scope. -/
def DataType.Within (P : PojoName → Prop) (type : DataType) : Prop :=
  ∀ name ∈ type.references, P name

/-- The names in the type of further properties are in scope. -/
def AdditionalProperties.Within (P : PojoName → Prop) (additional : AdditionalProperties) : Prop :=
  ∀ name ∈ additional.references, P name

/-- The branches that the values of a discriminator select are in scope. -/
def Discriminator.Within (P : PojoName → Prop) (discriminator : Discriminator) : Prop :=
  ∀ name ∈ discriminator.targets, P name

/-- All names in the object and in its branches are in scope. -/
inductive ObjectPojo.Within (P : PojoName → Prop) : ObjectPojo → Prop where
  | intro {object : ObjectPojo} (name : P object.name)
      (members : ∀ member ∈ object.members, member.type.Within P)
      (additional : object.additional.Within P)
      (discriminators : ∀ discriminator ∈ object.discriminators, discriminator.Within P)
      (branches : ∀ branch ∈ object.branches, Within P branch) :
    Within P object

/-- All names in the union are in scope. -/
structure Alternatives.Within (P : PojoName → Prop)
    (union : Alternatives ObjectPojo Discriminator) : Prop where
  branches : ∀ branch ∈ union.branches, branch.Within P
  discriminator : ∀ discriminator ∈ union.discriminator, discriminator.Within P

/-- All names in the generated type are in scope. -/
inductive Pojo.Within (P : PojoName → Prop) : Pojo → Prop where
  | object {object : ObjectPojo} (h : object.Within P) : Within P (.object object)
  | array {name : PojoName} {description : Option String} {value : Member} (hname : P name)
      (hvalue : value.type.Within P) :
    Within P (.array name description value)
  | enum {name : PojoName} {description : Option String} {values : List EnumValue}
      (hname : P name) :
    Within P (.enum name description values)
  | composed {name : PojoName} {description : Option String} {kind : UnionKind}
      {union : Alternatives ObjectPojo Discriminator} (hname : P name) (hunion : union.Within P) :
    Within P (.composed name description kind union)
  | freeForm {name : PojoName} {description : Option String} {constraints : Constraints}
      (hname : P name) :
    Within P (.freeForm name description constraints)
  | typeAlias {name : PojoName} {description : Option String} {type : DataType}
      {nullability : Nullability} (hname : P name) (htype : type.Within P) :
    Within P (.typeAlias name description type nullability)

theorem DataType.Within.of_objectName? {type : DataType} (h : type.Within P) {name : PojoName}
    (hname : type.objectName? = some name) : P name := by
  rw [DataType.eq_of_objectName? hname] at h
  exact h name (List.mem_singleton_self name)

/-! ## Branches and references -/

theorem ObjectPojo.mem_branches_of_allOf {object branch : ObjectPojo} {branches : List ObjectPojo}
    (h : object.allOf = some branches) (hbranch : branch ∈ branches) :
    branch ∈ object.branches := by
  simp [ObjectPojo.branches, h, hbranch]

theorem ObjectPojo.mem_branches_of_oneOf {object branch : ObjectPojo}
    {union : Alternatives ObjectPojo Discriminator} (h : object.oneOf = some union)
    (hbranch : branch ∈ union.branches) : branch ∈ object.branches := by
  simp [ObjectPojo.branches, h, hbranch]

theorem ObjectPojo.mem_branches_of_anyOf {object branch : ObjectPojo}
    {union : Alternatives ObjectPojo Discriminator} (h : object.anyOf = some union)
    (hbranch : branch ∈ union.branches) : branch ∈ object.branches := by
  simp [ObjectPojo.branches, h, hbranch]

theorem ObjectPojo.Within.oneOf {object : ObjectPojo} (h : object.Within P)
    {union : Alternatives ObjectPojo Discriminator} (hunion : object.oneOf = some union) :
    union.Within P := by
  obtain ⟨-, -, -, hdiscriminators, hbranches⟩ := h
  refine ⟨fun branch hbranch => hbranches branch (mem_branches_of_oneOf hunion hbranch), ?_⟩
  intro discriminator hdiscriminator
  refine hdiscriminators discriminator ?_
  rw [Option.mem_def] at hdiscriminator
  simp [discriminators, hunion, hdiscriminator]

theorem ObjectPojo.Within.anyOf {object : ObjectPojo} (h : object.Within P)
    {union : Alternatives ObjectPojo Discriminator} (hunion : object.anyOf = some union) :
    union.Within P := by
  obtain ⟨-, -, -, hdiscriminators, hbranches⟩ := h
  refine ⟨fun branch hbranch => hbranches branch (mem_branches_of_anyOf hunion hbranch), ?_⟩
  intro discriminator hdiscriminator
  refine hdiscriminators discriminator ?_
  rw [Option.mem_def] at hdiscriminator
  simp [discriminators, hunion, hdiscriminator]

theorem ObjectPojo.Within.references {object : ObjectPojo} (h : object.Within P) :
    ∀ name ∈ object.references, P name := by
  induction h with
  | intro _ hmembers hadditional _ _ ih =>
    intro name hname
    rw [references_eq, ownReferences, List.mem_append, List.mem_append] at hname
    rcases hname with (hname | hname) | hname
    · obtain ⟨member, hmember, hname⟩ := List.mem_flatMap.mp hname
      exact hmembers member hmember name hname
    · exact hadditional name hname
    · obtain ⟨branch, hbranch, hname⟩ := List.mem_flatMap.mp hname
      exact ih branch hbranch name hname

theorem Pojo.Within.name {pojo : Pojo} (h : pojo.Within P) : P pojo.name := by
  cases h with
  | object h => obtain ⟨hname⟩ := h; exact hname
  | array hname _ => exact hname
  | enum hname => exact hname
  | composed hname _ => exact hname
  | freeForm hname => exact hname
  | typeAlias hname _ => exact hname

/-- **What is referred to in a type within the scope is in it.** -/
theorem Pojo.Within.references {pojo : Pojo} (h : pojo.Within P) :
    ∀ name ∈ pojo.references, P name := by
  cases h with
  | object h => exact h.references
  | array _ hvalue => exact hvalue
  | composed _ hunion =>
    intro name hname
    obtain ⟨branch, hbranch, hname⟩ := List.mem_flatMap.mp hname
    exact (hunion.branches branch hbranch).references name hname
  | typeAlias _ htype => exact htype
  | _ => exact fun name hname => (List.not_mem_nil hname).elim

/-- The branch that a type within the scope makes is within it. -/
theorem Pojo.Within.of_asBranch {pojo : Pojo} (h : pojo.Within P) {object : ObjectPojo}
    (hbranch : pojo.asBranch = .ok object) : object.Within P := by
  have hnone : ∀ additional : AdditionalProperties, additional = .notAllowed
      ∨ additional = .allowed .freeForm → additional.Within P := by
    rintro _ (rfl | rfl) name hname <;> cases hname
  cases h with
  | object h => cases hbranch; exact h
  | @composed name description kind union hname hunion =>
    obtain ⟨hbranches, hdiscriminator⟩ := hunion
    cases kind <;> cases hbranch <;>
      refine .intro hname (fun _ h => (List.not_mem_nil h).elim) (hnone _ (.inl rfl)) ?_ ?_
    · simpa [ObjectPojo.discriminators, Option.mem_def] using hdiscriminator
    · simpa [ObjectPojo.branches] using hbranches
    · simpa [ObjectPojo.discriminators, Option.mem_def] using hdiscriminator
    · simpa [ObjectPojo.branches] using hbranches
  | freeForm hname =>
    cases hbranch
    refine .intro hname (fun _ h => (List.not_mem_nil h).elim) (hnone _ (.inr rfl)) ?_ ?_
    · exact fun _ h => (List.not_mem_nil h).elim
    · exact fun _ h => (List.not_mem_nil h).elim
  | array _ _ => cases hbranch
  | enum _ => cases hbranch
  | typeAlias _ _ => cases hbranch

/-! ## Revisions that keep within the scope -/

/-- The revision makes what is in scope something in scope. -/
structure Revision.KeepsWithin (P : PojoName → Prop) (r : Revision) : Prop where
  name : ∀ name, P name → P (r.name name)
  member : ∀ member : Member, member.type.Within P → (r.member member).type.Within P
  type : ∀ type : DataType, type.Within P → (r.type type).Within P

section

variable {r : Revision} (hr : r.KeepsWithin P)

include hr

theorem AdditionalProperties.Within.map {additional : AdditionalProperties}
    (h : additional.Within P) : (additional.map r.type).Within P := by
  cases additional with
  | notAllowed => exact h
  | allowed type => exact hr.type type h

theorem Discriminator.Within.rename {discriminator : Discriminator} (h : discriminator.Within P) :
    (discriminator.rename r.name).Within P := by
  intro name hname
  rw [targets_rename] at hname
  obtain ⟨original, horiginal, rfl⟩ := List.mem_map.mp hname
  exact hr.name original (h original horiginal)

theorem ObjectPojo.Within.revise {object : ObjectPojo} (h : object.Within P) :
    (object.revise r).Within P := by
  induction h with
  | @intro object hname hmembers hadditional hdiscriminators _ ih =>
    refine .intro ?_ ?_ ?_ ?_ ?_
    · rw [name_revise]
      exact hr.name _ hname
    · rw [members_revise]
      exact List.forall_mem_map.mpr fun member hmember => hr.member member (hmembers member hmember)
    · have hrevised := AdditionalProperties.Within.map hr hadditional
      rwa [revise_eq]
    · rw [discriminators_revise]
      exact List.forall_mem_map.mpr fun discriminator hmem =>
        (hdiscriminators discriminator hmem).rename hr
    · rw [branches_revise]
      exact List.forall_mem_map.mpr ih

/-- **Such a revision keeps types within the scope.** -/
theorem Pojo.Within.revise {pojo : Pojo} (h : pojo.Within P) : (pojo.revise r).Within P := by
  cases h with
  | object h => exact .object (h.revise hr)
  | array hname hvalue => exact .array (hr.name _ hname) (hr.member _ hvalue)
  | enum hname => exact .enum (hr.name _ hname)
  | composed hname hunion =>
    refine .composed (hr.name _ hname) ⟨?_, ?_⟩
    · exact List.forall_mem_map.mpr fun branch hbranch => (hunion.branches branch hbranch).revise hr
    · intro discriminator hdiscriminator
      obtain ⟨original, horiginal, rfl⟩ := Option.map_eq_some_iff.mp hdiscriminator
      exact (hunion.discriminator original horiginal).rename hr
  | freeForm hname => exact .freeForm (hr.name _ hname)
  | typeAlias hname htype => exact .typeAlias (hr.name _ hname) (hr.type _ htype)

end

/-! ## Revisions that agree -/

/-- The revisions do the same to all that is in scope. -/
structure Revision.AgreesOn (P : PojoName → Prop) (r s : Revision) : Prop where
  name : ∀ name, P name → r.name name = s.name name
  member : ∀ member : Member, member.type.Within P → r.member member = s.member member
  type : ∀ type : DataType, type.Within P → r.type type = s.type type

section

variable {r s : Revision} (hagrees : r.AgreesOn P s)

include hagrees

theorem AdditionalProperties.Within.map_congr {additional : AdditionalProperties}
    (h : additional.Within P) : additional.map r.type = additional.map s.type := by
  cases additional with
  | notAllowed => rfl
  | allowed type => exact congrArg allowed (hagrees.type type h)

theorem Discriminator.Within.rename_congr {discriminator : Discriminator}
    (h : discriminator.Within P) : discriminator.rename r.name = discriminator.rename s.name := by
  have hentries : discriminator.entries.map
        (fun entry => { entry with branch := r.name entry.branch })
      = discriminator.entries.map fun entry => { entry with branch := s.name entry.branch } := by
    refine List.map_congr_left fun entry hentry => ?_
    rw [hagrees.name _ (h _ (List.mem_map_of_mem hentry))]
  simp only [Discriminator.rename, hentries]

theorem Alternatives.Within.revise_congr {union : Alternatives ObjectPojo Discriminator}
    (h : union.Within P) (hbranches : ∀ branch ∈ union.branches, branch.revise r = branch.revise s) :
    union.revise r = union.revise s := by
  have hdiscriminator : union.discriminator.map (·.rename r.name)
      = union.discriminator.map (·.rename s.name) :=
    Option.map_congr fun discriminator hmem => (h.discriminator discriminator hmem).rename_congr
      hagrees
  rw [revise, revise, hdiscriminator, List.map_congr_left hbranches]

theorem ObjectPojo.Within.revise_congr {object : ObjectPojo} (h : object.Within P) :
    object.revise r = object.revise s := by
  induction h with
  | @intro object hname hmembers hadditional hdiscriminators hwithin ih =>
    have hobject : object.Within P := .intro hname hmembers hadditional hdiscriminators hwithin
    have hall : object.allOf.map (·.map (ObjectPojo.revise r))
        = object.allOf.map (·.map (ObjectPojo.revise s)) :=
      Option.map_congr fun branches hbranches => List.map_congr_left fun branch hbranch =>
        ih branch (mem_branches_of_allOf hbranches hbranch)
    have hone : object.oneOf.map (·.revise r) = object.oneOf.map (·.revise s) :=
      Option.map_congr fun union hunion => (hobject.oneOf hunion).revise_congr hagrees
        fun branch hbranch => ih branch (mem_branches_of_oneOf hunion hbranch)
    have hany : object.anyOf.map (·.revise r) = object.anyOf.map (·.revise s) :=
      Option.map_congr fun union hunion => (hobject.anyOf hunion).revise_congr hagrees
        fun branch hbranch => ih branch (mem_branches_of_anyOf hunion hbranch)
    have hown : object.members.map r.member = object.members.map s.member :=
      List.map_congr_left fun member hmember => hagrees.member member (hmembers member hmember)
    rw [revise_eq, revise_eq, hall, hone, hany, hown, hagrees.name _ hname,
      hadditional.map_congr hagrees]

/-- **Revisions that agree on the scope revise types within it alike.** -/
theorem Pojo.Within.revise_congr {pojo : Pojo} (h : pojo.Within P) :
    pojo.revise r = pojo.revise s := by
  cases h with
  | object h => exact congrArg Pojo.object (h.revise_congr hagrees)
  | array hname hvalue =>
    rw [Pojo.revise, Pojo.revise, hagrees.name _ hname, hagrees.member _ hvalue]
  | enum hname => rw [Pojo.revise, Pojo.revise, hagrees.name _ hname]
  | composed hname hunion =>
    rw [Pojo.revise, Pojo.revise, hagrees.name _ hname, hunion.revise_congr hagrees
      fun branch hbranch => (hunion.branches branch hbranch).revise_congr hagrees]
  | freeForm hname => rw [Pojo.revise, Pojo.revise, hagrees.name _ hname]
  | typeAlias hname htype =>
    rw [Pojo.revise, Pojo.revise, hagrees.name _ hname, hagrees.type _ htype]

end

/-! ## Many revisions -/

namespace Revision

theorem AgreesOn.refl (P : PojoName → Prop) (r : Revision) : r.AgreesOn P r :=
  ⟨fun _ _ => rfl, fun _ _ => rfl, fun _ _ => rfl⟩

theorem AgreesOn.symm {r s : Revision} (h : r.AgreesOn P s) : s.AgreesOn P r :=
  ⟨fun name hname => (h.name name hname).symm, fun member hmember => (h.member member hmember).symm,
    fun type htype => (h.type type htype).symm⟩

theorem AgreesOn.trans {r s t : Revision} (h : r.AgreesOn P s) (h' : s.AgreesOn P t) :
    r.AgreesOn P t :=
  ⟨fun name hname => (h.name name hname).trans (h'.name name hname),
    fun member hmember => (h.member member hmember).trans (h'.member member hmember),
    fun type htype => (h.type type htype).trans (h'.type type htype)⟩

/-- Agreement goes from one revision to the next if the first does not lead out of the scope. -/
theorem AgreesOn.andThen {r s r' s' : Revision} (h : r.AgreesOn P s) (h' : r'.AgreesOn P s')
    (hkeeps : r.KeepsWithin P) : (r.andThen r').AgreesOn P (s.andThen s') where
  name name hname := by
    change r'.name (r.name name) = s'.name (s.name name)
    rw [← h.name name hname, h'.name _ (hkeeps.name name hname)]
  member member hmember := by
    change r'.member (r.member member) = s'.member (s.member member)
    rw [← h.member member hmember, h'.member _ (hkeeps.member member hmember)]
  type type htype := by
    change r'.type (r.type type) = s'.type (s.type type)
    rw [← h.type type htype, h'.type _ (hkeeps.type type htype)]

theorem KeepsWithin.andThen {r s : Revision} (hr : r.KeepsWithin P) (hs : s.KeepsWithin P) :
    (r.andThen s).KeepsWithin P where
  name name hname := hs.name _ (hr.name name hname)
  member member hmember := hs.member _ (hr.member member hmember)
  type type htype := hs.type _ (hr.type type htype)

theorem KeepsWithin.sequence {α : Type} {r : α → Revision} {as : List α}
    (h : ∀ a ∈ as, (r a).KeepsWithin P) : (sequence r as).KeepsWithin P := by
  induction as with
  | nil => exact ⟨fun _ h => h, fun _ h => h, fun _ h => h⟩
  | cons a rest ih =>
    exact (h a List.mem_cons_self).andThen (ih fun b hb => h b (List.mem_cons_of_mem _ hb))

/-- **Revisions that do nothing within the scope can be left out of a list.** -/
theorem agreesOn_filter {α : Type} {r : α → Revision} {as : List α} {isKept : α → Bool}
    (hkeeps : ∀ a ∈ as, isKept a = true → (r a).KeepsWithin P)
    (hnothing : ∀ a ∈ as, isKept a = false → (r a).AgreesOn P (rename id)) :
    (sequence r (as.filter isKept)).AgreesOn P (sequence r as) := by
  induction as with
  | nil => exact .refl P _
  | cons a rest ih =>
    have hrest := ih (fun b hb => hkeeps b (List.mem_cons_of_mem _ hb))
      fun b hb => hnothing b (List.mem_cons_of_mem _ hb)
    cases hkept : isKept a with
    | true =>
      rw [List.filter_cons_of_pos hkept]
      exact (AgreesOn.refl P (r a)).andThen hrest (hkeeps a List.mem_cons_self hkept)
    | false =>
      rw [List.filter_cons_of_neg (by simp [hkept])]
      have hfirst := hnothing a List.mem_cons_self hkept
      have hid : (rename id).KeepsWithin P :=
        ⟨fun _ h => h, fun member h => by rwa [show (rename id).member member = member from
          member.rename_id], fun type h => by rwa [show (rename id).type type = type from
          type.rename_id]⟩
      have hboth := hfirst.symm.andThen hrest hid
      rwa [rename_id_andThen] at hboth

end Revision

end PojoGraph
