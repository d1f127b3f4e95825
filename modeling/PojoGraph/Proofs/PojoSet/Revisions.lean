import PojoGraph.Proofs.PojoSet.Mentions

/-!
# Revisions one after the other

Each step to the final set revises all types by a list of replacements or of descriptions, one
after the other. What this does to a type is again one revision: it changes every name, member
and type as the members of the list do in turn.

## Main definitions

* `Revision.andThen` — one revision after the other.
* `Revision.sequence` — the revisions of a list, in order.
* `Revision.KeepsMembers` — members keep all but their types and descriptions.
* `keptPojos`, `Revision.ofEntries` — the types that are left of resolved schemas, and what
  becomes of them in the final set.

## Main statements

* `Pojo.revise_revise` — two revisions come to one.
* `Pojo.foldl_revise` — so do those of a list.
* `pojos_ofEntries` — the final set is made by one revision.
-/

namespace PojoGraph

namespace Revision

/-- One revision after the other. -/
def andThen (r s : Revision) : Revision where
  name := s.name ∘ r.name
  member := s.member ∘ r.member
  type := s.type ∘ r.type

/-- The revisions of a list, in order. -/
def sequence {α : Type} (r : α → Revision) (as : List α) : Revision where
  name name := as.foldl (fun name a => (r a).name name) name
  member member := as.foldl (fun member a => (r a).member member) member
  type type := as.foldl (fun type a => (r a).type type) type

theorem ext_of {r s : Revision} (hname : ∀ name, r.name name = s.name name)
    (hmember : ∀ member, r.member member = s.member member)
    (htype : ∀ type, r.type type = s.type type) : r = s := by
  obtain ⟨_, _, _⟩ := r
  obtain ⟨_, _, _⟩ := s
  congr
  · exact funext hname
  · exact funext hmember
  · exact funext htype

end Revision

/-! ## Two revisions -/

theorem Discriminator.rename_rename (f g : PojoName → PojoName) (discriminator : Discriminator) :
    (discriminator.rename f).rename g = discriminator.rename (g ∘ f) := by
  simp [rename]

theorem AdditionalProperties.map_map (f g : DataType → DataType)
    (additional : AdditionalProperties) :
    (additional.map f).map g = additional.map (g ∘ f) := by
  cases additional <;> rfl

theorem Alternatives.revise_revise {r s : Revision}
    {union : Alternatives ObjectPojo Discriminator}
    (h : ∀ branch ∈ union.branches,
      (branch.revise r).revise s = branch.revise (r.andThen s)) :
    (union.revise r).revise s = union.revise (r.andThen s) := by
  obtain ⟨branches, discriminator⟩ := union
  have hbranches : (branches.map (ObjectPojo.revise r)).map (ObjectPojo.revise s)
      = branches.map (ObjectPojo.revise (r.andThen s)) := by
    rw [List.map_map]
    exact List.map_congr_left h
  cases discriminator <;>
    simp [revise, hbranches, Revision.andThen, Discriminator.rename_rename]

theorem ObjectPojo.revise_revise (r s : Revision) (object : ObjectPojo) :
    (object.revise r).revise s = object.revise (r.andThen s) := by
  induction object using branchInduction with
  | step object ih =>
    have hall : (object.allOf.map (·.map (revise r))).map (·.map (revise s))
        = object.allOf.map (·.map (revise (r.andThen s))) := by
      cases h : object.allOf with
      | none => rfl
      | some branches =>
        simp only [Option.map_some, List.map_map]
        exact congrArg some (List.map_congr_left fun branch hbranch =>
          ih branch (by simp [ObjectPojo.branches, h, hbranch]))
    have hone : (object.oneOf.map (·.revise r)).map (·.revise s)
        = object.oneOf.map (·.revise (r.andThen s)) := by
      cases h : object.oneOf with
      | none => rfl
      | some union =>
        exact congrArg some (Alternatives.revise_revise fun branch hbranch =>
          ih branch (by simp [ObjectPojo.branches, h, hbranch]))
    have hany : (object.anyOf.map (·.revise r)).map (·.revise s)
        = object.anyOf.map (·.revise (r.andThen s)) := by
      cases h : object.anyOf with
      | none => rfl
      | some union =>
        exact congrArg some (Alternatives.revise_revise fun branch hbranch =>
          ih branch (by simp [ObjectPojo.branches, h, hbranch]))
    rw [revise_eq r object, revise_eq s, revise_eq (r.andThen s)]
    simp only [hall, hone, hany, List.map_map, AdditionalProperties.map_map]
    rfl

namespace Pojo

/-- **Two revisions come to one**, at every place of a type. -/
theorem revise_revise (r s : Revision) (pojo : Pojo) :
    (pojo.revise r).revise s = pojo.revise (r.andThen s) := by
  cases pojo with
  | object object => exact congrArg Pojo.object (object.revise_revise r s)
  | composed name description kind union =>
    exact congrArg (Pojo.composed _ description kind)
      (Alternatives.revise_revise fun branch _ => branch.revise_revise r s)
  | _ => rfl

/-! ## Many revisions -/

/-- **The revisions of a list come to one.** -/
theorem foldl_revise {α : Type} (r : α → Revision) (as : List α) (pojo : Pojo) :
    as.foldl (fun pojo a => pojo.revise (r a)) pojo = pojo.revise (.sequence r as) := by
  induction as generalizing pojo with
  | nil =>
    have hunchanged : Revision.sequence r [] = .rename id :=
      Revision.ext_of (fun _ => rfl) (fun member => member.rename_id.symm)
        (fun type => type.rename_id.symm)
    rw [hunchanged]
    exact pojo.rename_id.symm
  | cons a rest ih => rw [List.foldl_cons, ih, revise_revise]; rfl

theorem foldl_substitute (replacements : List Replacement) (pojo : Pojo) :
    replacements.foldl (fun pojo replacement => pojo.substitute replacement) pojo
      = pojo.revise (.sequence Revision.substitute replacements) :=
  foldl_revise Revision.substitute replacements pojo

theorem foldl_describe (described : List Described) (pojo : Pojo) :
    described.foldl (fun pojo described => pojo.describe described) pojo
      = pojo.revise (.sequence Revision.describe described) :=
  foldl_revise Revision.describe described pojo

end Pojo

/-! ## Replacements and descriptions -/

theorem Revision.rename_id_andThen (r : Revision) : (rename id).andThen r = r :=
  ext_of (fun _ => rfl) (fun member => congrArg r.member member.rename_id)
    (fun type => congrArg r.type type.rename_id)

/-- Renaming twice is renaming once. -/
theorem Revision.rename_andThen (f g : PojoName → PojoName) :
    (rename f).andThen (rename g) = rename (g ∘ f) :=
  ext_of (fun _ => rfl)
    (fun member => congrArg (fun type => { member with type }) (member.type.rename_rename f g))
    fun type => type.rename_rename f g

theorem Pojo.rename_rename (f g : PojoName → PojoName) (pojo : Pojo) :
    (pojo.rename f).rename g = pojo.rename (g ∘ f) := by
  rw [rename, rename, revise_revise, Revision.rename_andThen]
  rfl

namespace Revision

@[simp] theorem name_sequence_substitute (replacements : List Replacement) (name : PojoName) :
    (sequence substitute replacements).name name = name := by
  induction replacements with
  | nil => rfl
  | cons replacement rest ih => exact ih

@[simp] theorem name_sequence_describe (described : List Described) (name : PojoName) :
    (sequence describe described).name name = name := by
  induction described with
  | nil => rfl
  | cons first rest ih => exact ih

@[simp] theorem type_sequence_describe (described : List Described) (type : DataType) :
    (sequence describe described).type type = type := by
  induction described with
  | nil => rfl
  | cons first rest ih => exact ih

end Revision

/-! ## What members keep -/

namespace Revision

/-- Members keep all but their types and descriptions. -/
def KeepsMembers (r : Revision) : Prop :=
  ∀ member, (r.member member).name = member.name
    ∧ (r.member member).necessity = member.necessity
    ∧ (r.member member).nullability = member.nullability

theorem keepsMembers_rename (f : PojoName → PojoName) : (rename f).KeepsMembers :=
  fun _ => ⟨rfl, rfl, rfl⟩

theorem keepsMembers_substitute (replacement : Replacement) :
    (substitute replacement).KeepsMembers :=
  fun _ => ⟨rfl, rfl, rfl⟩

theorem keepsMembers_describe (described : Described) : (describe described).KeepsMembers := by
  intro member
  simp only [describe, Member.describe]
  split <;> exact ⟨rfl, rfl, rfl⟩

theorem KeepsMembers.andThen {r s : Revision} (hr : r.KeepsMembers) (hs : s.KeepsMembers) :
    (r.andThen s).KeepsMembers := by
  intro member
  obtain ⟨hname, hnecessity, hnullability⟩ := hs (r.member member)
  exact ⟨hname.trans (hr member).1, hnecessity.trans (hr member).2.1,
    hnullability.trans (hr member).2.2⟩

theorem keepsMembers_sequence {α : Type} {r : α → Revision} (h : ∀ a, (r a).KeepsMembers)
    (as : List α) : (sequence r as).KeepsMembers := by
  induction as with
  | nil => exact fun _ => ⟨rfl, rfl, rfl⟩
  | cons a rest ih => exact (h a).andThen ih

end Revision

/-! ## The final set -/

/-- The types that are left of resolved schemas: all but the plain types that are put in place of
references to them. -/
def keptPojos (inlining : ReferenceInlining) (entries : List Resolved) : List Pojo :=
  entries.filterMap fun
    | .pojo pojo => some pojo
    | .plain plain =>
      match inlining with
      | .never => some plain.toAlias
      | .simple =>
        if (plain.finalType? (plainMembers entries)).isNone then some plain.toAlias else none

/-- What is left are the resolved pojos, and those plain types that are not put in place of
references. -/
theorem mem_keptPojos_iff {inlining : ReferenceInlining} {entries : List Resolved} {pojo : Pojo} :
    pojo ∈ keptPojos inlining entries ↔ .pojo pojo ∈ entries
      ∨ ∃ plain, .plain plain ∈ entries ∧ plain.toAlias = pojo
        ∧ (inlining = .never ∨ (plain.finalType? (plainMembers entries)).isNone = true) := by
  rw [keptPojos, List.mem_filterMap]
  constructor
  · rintro ⟨resolved, hresolved, hkept⟩
    cases resolved with
    | pojo other =>
      cases hkept
      exact .inl hresolved
    | plain plain =>
      cases inlining with
      | never => exact .inr ⟨plain, hresolved, Option.some.inj hkept, .inl rfl⟩
      | simple =>
        obtain ⟨hnone, heq⟩ := Option.ite_none_right_eq_some.mp hkept
        exact .inr ⟨plain, hresolved, Option.some.inj heq, .inr hnone⟩
  · rintro (hpojo | ⟨plain, hplain, rfl, rfl | hnone⟩)
    · exact ⟨_, hpojo, rfl⟩
    · exact ⟨_, hplain, rfl⟩
    · refine ⟨_, hplain, ?_⟩
      cases inlining with
      | never => rfl
      | simple => exact if_pos hnone

/-- Objects are left as they have been resolved. -/
theorem mem_entries_of_mem_keptPojos {inlining : ReferenceInlining} {entries : List Resolved}
    {object : ObjectPojo} (h : .object object ∈ keptPojos inlining entries) :
    .pojo (.object object) ∈ entries := by
  rcases mem_keptPojos_iff.mp h with hpojo | ⟨plain, -, heq, -⟩
  · exact hpojo
  · cases heq

/-- What is put in place of references to plain types. -/
def replacementsOf (inlining : ReferenceInlining) (entries : List Resolved) : List Replacement :=
  match inlining with
  | .never => []
  | .simple => Replacement.ofPlains (plainMembers entries)

theorem pojos_ofResolved (inlining : ReferenceInlining) (entries : List Resolved) :
    (PojoSet.ofResolved inlining entries).pojos = (keptPojos inlining entries).map
      (Pojo.revise (.sequence Revision.substitute (replacementsOf inlining entries))) := by
  cases inlining with
  | never =>
    have hunchanged : ∀ pojo : Pojo, pojo.revise (.sequence Revision.substitute []) = pojo :=
      fun pojo => (Pojo.foldl_substitute [] pojo).symm
    rw [replacementsOf, List.map_congr_left fun pojo _ => hunchanged pojo, List.map_id',
      keptPojos, PojoSet.ofResolved, keepPlains, ← List.filterMap_eq_map]
    exact List.filterMap_congr fun resolved _ => by cases resolved <;> rfl
  | simple =>
    rw [PojoSet.ofResolved, inlinePlains]
    exact List.map_congr_left fun pojo _ => Pojo.foldl_substitute _ pojo

theorem pojos_describe (set : PojoSet) : set.describe.pojos
    = set.pojos.map (Pojo.revise (.sequence Revision.describe (describedTypes set.pojos))) :=
  List.map_congr_left fun pojo _ => Pojo.foldl_describe _ pojo

/-- What becomes, in the final set, of the types that are left of resolved schemas. -/
def Revision.ofEntries (settings : Settings) (entries : List Resolved) : Revision :=
  ((sequence substitute (replacementsOf settings.referenceInlining entries)).andThen
    (sequence describe (describedTypes
      (PojoSet.ofResolved settings.referenceInlining entries).pojos))).andThen
    (rename settings.mapName)

theorem Revision.keepsMembers_ofEntries (settings : Settings) (entries : List Resolved) :
    (ofEntries settings entries).KeepsMembers :=
  ((keepsMembers_sequence keepsMembers_substitute _).andThen
    (keepsMembers_sequence keepsMembers_describe _)).andThen (keepsMembers_rename _)

/-- **The final set is made by one revision** of the types that are left. -/
theorem pojos_ofEntries (settings : Settings) (exclusion : Exclusion) (entries : List Resolved) :
    (PojoSet.ofEntries settings exclusion entries).pojos
      = (keptPojos settings.referenceInlining entries).map
        (Pojo.revise (.ofEntries settings entries)) := by
  change (PojoSet.ofResolved settings.referenceInlining entries).describe.pojos.map
    (Pojo.rename settings.mapName) = _
  rw [pojos_describe, pojos_ofResolved, List.map_map, List.map_map]
  refine List.map_congr_left fun pojo _ => ?_
  rw [Function.comp_apply, Function.comp_apply, Pojo.rename, Pojo.revise_revise,
    Pojo.revise_revise, Revision.ofEntries, pojos_ofResolved]
  rfl

end PojoGraph
