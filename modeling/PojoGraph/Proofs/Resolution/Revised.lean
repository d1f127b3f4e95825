import Mathlib.Data.List.Find
import PojoGraph.Proofs.Resolution.Scope

/-!
# Resolution of revised tables

Resolution compares names by their keys, passes members on and reads the schema keys of branches
where a discriminator has no mapping. A revision that does not interfere with this may be carried
out before resolution or after it, and the result is the same.

## Main definitions

* `Revision.IsFaithful` — a revision that does not interfere with resolution.
* `Stub.revise`, `PlainMember.revise`, `ClassTable.revise` — a revision of what is not resolved.
* `Fault.rename`, `Failure.rename` — faults that mention other names.

## Main statements

* `ClassTable.lead_revise` — a revised name leads where the name led.
* `Revision.IsFaithful.toPojo` — a revised stub makes the revised type.
* `ClassTable.outcome_revise` — a round makes the revised outcome of a revised stub.
* `ClassTable.settle_revise` — **a revised table settles to the revised types**.
-/

namespace PojoGraph

/-! ## Faithful revisions -/

/-- The revision gives names in scope new keys, one for each key, but keeps schema keys and the
names of members, and makes references of references only. -/
structure Revision.IsFaithful (P : PojoName → Prop) (g : String → String) (r : Revision) :
    Prop where
  key : ∀ name, P name → (r.name name).key = g name.key
  injective : Function.Injective g
  raw : ∀ name, (r.name name).raw = name.raw
  objectName? : ∀ type, (r.type type).objectName? = type.objectName?.map r.name
  freeForm : r.KeepsFreeForm
  members : r.KeepsMembers

/-- The sketch with all targets renamed. -/
def DiscriminatorSketch.rename (f : PojoName → PojoName) (sketch : DiscriminatorSketch) :
    DiscriminatorSketch :=
  { sketch with mapping := sketch.mapping.map (·.map fun entry => (entry.1, f entry.2)) }

/-- The union with all branches renamed. -/
def UnionSketch.rename (f : PojoName → PojoName) (sketch : UnionSketch) : UnionSketch :=
  ⟨sketch.branches.map f, sketch.discriminator.map (·.rename f)⟩

/-- The stub with a revision carried out in it. -/
def Stub.revise (r : Revision) (stub : Stub) : Stub :=
  { stub with
    name := r.name stub.name
    members := stub.members.map r.member
    additional := stub.additional.map r.type
    allOf := stub.allOf.map (·.map r.name)
    oneOf := stub.oneOf.map (UnionSketch.rename r.name)
    anyOf := stub.anyOf.map (UnionSketch.rename r.name) }

/-- The plain type with a revision carried out in it. -/
def PlainMember.revise (r : Revision) (plain : PlainMember) : PlainMember :=
  { plain with name := r.name plain.name, type := r.type plain.type }

/-- What a schema turns out to be, with a revision carried out in it. -/
def Classified.revise (r : Revision) : Classified → Classified
  | pojo p => .pojo (p.revise r)
  | stub s => .stub (s.revise r)
  | plain m => .plain (m.revise r)

/-- What a schema is once compositions are resolved, with a revision carried out in it. -/
def Resolved.revise (r : Revision) : Resolved → Resolved
  | pojo p => .pojo (p.revise r)
  | plain m => .plain (m.revise r)

/-- The table with all keys changed and a revision carried out in all entries. -/
def ClassTable.revise (r : Revision) (g : String → String) (table : ClassTable) : ClassTable :=
  table.map fun entry => (g entry.1, entry.2.revise r)

/-- Where a revised name leads. -/
def Lead.revise (r : Revision) : Lead → Lead
  | object o => .object (o.revise r)
  | waiting => .waiting
  | invalid obstacle => .invalid obstacle

/-- The branches with a revision carried out in each. -/
def Branches.revise (r : Revision) (branches : Branches) : Branches where
  allOf := branches.allOf.map (·.map (ObjectPojo.revise r))
  oneOf := branches.oneOf.map (·.map (ObjectPojo.revise r))
  anyOf := branches.anyOf.map (·.map (ObjectPojo.revise r))

/-! ## Faults -/

/-- The composed type and what it waits for under other names. -/
def Stuck.rename (f : PojoName → PojoName) (stuck : Stuck) : Stuck :=
  ⟨f stuck.pojo, stuck.missing.map f⟩

/-- The fault with all names of types changed. -/
def Fault.rename (f : PojoName → PojoName) : Fault → Fault
  | unresolvable stuck => .unresolvable (stuck.map (·.rename f))
  | ambiguousMember pojo member => .ambiguousMember (f pojo) member
  | invalidBranch pojo kind branch obstacle => .invalidBranch (f pojo) kind (f branch) obstacle
  | invalidMapping pojo value target => .invalidMapping (f pojo) value (f target)
  | incompleteEnum pojo missing => .incompleteEnum (f pojo) missing
  | duplicateTypeName first second name => .duplicateTypeName first second (f name)
  | unloadedDocument reference document => .unloadedDocument reference document
  | endless pending => .endless (pending.map f)

/-- The failure with all names of types changed. -/
def Failure.rename (f : PojoName → PojoName) (failure : Failure) : Failure :=
  ⟨failure.first.rename f, failure.others.map (·.rename f)⟩

theorem Failure.of?_map_rename (f : PojoName → PojoName) (faults : List Fault) :
    Failure.of? (faults.map (·.rename f)) = (Failure.of? faults).map (·.rename f) := by
  cases faults <;> rfl

/-- What a round makes of a revised stub. -/
def ClassTable.Outcome.revise (r : Revision) : Outcome → Outcome
  | resolved pojo => .resolved (pojo.revise r)
  | stuck missing => .stuck (missing.map r.name)
  | faulty faults => .faulty (faults.map (·.rename r.name))

/-! ## Stubs -/

section

variable {r : Revision}

theorem Stub.branchesOf_revise (stub : Stub) (kind : CompositionKind) :
    (stub.revise r).branchesOf kind = (stub.branchesOf kind).map (·.map r.name) := by
  cases kind with
  | allOf => rfl
  | oneOf => cases h : stub.oneOf <;> simp [revise, Stub.branchesOf, h, UnionSketch.rename]
  | anyOf => cases h : stub.anyOf <;> simp [revise, Stub.branchesOf, h, UnionSketch.rename]

theorem Stub.branches_revise (stub : Stub) :
    (stub.revise r).branches = stub.branches.map fun (kind, name) => (kind, r.name name) := by
  have hkind : ∀ kind, (((stub.revise r).branchesOf kind).getD []).map (Prod.mk kind)
      = (((stub.branchesOf kind).getD []).map (Prod.mk kind)).map
        fun (kind, name) => (kind, r.name name) := by
    intro kind
    rw [branchesOf_revise]
    cases stub.branchesOf kind <;> simp
  simp only [branches, hkind, List.map_flatMap]

theorem Stub.branchNames_revise (stub : Stub) :
    (stub.revise r).branchNames = stub.branchNames.map r.name := by
  rw [branchNames, branchNames, branches_revise, List.map_map, List.map_map]
  rfl

end

namespace Revision.IsFaithful

variable {P : PojoName → Prop} {g : String → String} {r : Revision} (hr : r.IsFaithful P g)

include hr

theorem isSame {a b : PojoName} (ha : P a) (hb : P b) :
    (r.name a).isSame (r.name b) = a.isSame b := by
  rw [Bool.eq_iff_iff, PojoName.isSame_iff, PojoName.isSame_iff, hr.key a ha, hr.key b hb]
  exact hr.injective.eq_iff

/-! ## Branches -/

/-- A revised type makes the revised branch, or meets the same obstacle. -/
theorem asBranch (pojo : Pojo) :
    (pojo.revise r).asBranch = pojo.asBranch.map (ObjectPojo.revise r) := by
  cases hbranch : pojo.asBranch with
  | ok object => exact Pojo.asBranch_revise hr.freeForm hbranch
  | error obstacle =>
    cases pojo with
    | object o => cases hbranch
    | composed name description kind union => cases kind <;> cases hbranch
    | freeForm name description constraints => cases hbranch
    | array name description value => cases hbranch; rfl
    | enum name description values => cases hbranch; rfl
    | typeAlias name description type nullability => cases hbranch; rfl

/-! ## Discriminators -/

section

variable {sketch : DiscriminatorSketch} {branches : List PojoName}
  (htargets : ∀ entry ∈ sketch.mapping.getD [], P entry.2) (hbranches : ∀ name ∈ branches, P name)

include htargets hbranches

theorem stray? : (sketch.rename r.name).stray? (branches.map r.name)
    = (sketch.stray? branches).map fun entry => (entry.1, r.name entry.2) := by
  have hmapping : (sketch.rename r.name).mapping.getD []
      = (sketch.mapping.getD []).map fun entry => (entry.1, r.name entry.2) := by
    rw [DiscriminatorSketch.rename]
    cases sketch.mapping <;> rfl
  rw [DiscriminatorSketch.stray?, DiscriminatorSketch.stray?, hmapping, List.find?_map]
  generalize sketch.mapping.getD [] = mapping at htargets
  congr 1
  refine List.find?_congr fun entry hentry => ?_
  have hany : (branches.map r.name).any (·.isSame (r.name entry.2))
      = branches.any (·.isSame entry.2) := by
    rw [List.any_map, Bool.eq_iff_iff, List.any_eq_true, List.any_eq_true]
    refine exists_congr fun name => and_congr_right fun hname => ?_
    rw [Function.comp_apply, hr.isSame (hbranches name hname) (htargets entry hentry)]
  rw [Function.comp_apply, hany]

theorem resolve_sketch : (sketch.rename r.name).resolve (branches.map r.name)
    = (sketch.resolve branches).rename r.name := by
  simp only [DiscriminatorSketch.resolve, DiscriminatorSketch.rename, Discriminator.rename,
    Discriminator.mk.injEq, true_and]
  cases hmapping : sketch.mapping with
  | none =>
    simp only [Option.map_none, List.map_map]
    exact List.map_congr_left fun name _ => by simp [hr.raw]
  | some mapping =>
    rw [hmapping] at htargets
    simp only [Option.map_some, List.flatMap_map, List.map_flatMap]
    refine List.flatMap_congr fun name hname => ?_
    rw [List.filter_map, List.map_map, List.map_map]
    refine congrArg₂ List.map rfl (List.filter_congr fun entry hentry => ?_)
    exact hr.isSame (hbranches name hname) (htargets entry hentry)

end

/-! ## Unions -/

section

variable {objects : List ObjectPojo} (hobjects : ∀ object ∈ objects, object.Within P)

include hobjects

omit hr in
theorem names_within : ∀ name ∈ objects.map (·.name), P name :=
  List.forall_mem_map.mpr fun object hobject => (hobjects object hobject).name

omit hr hobjects in
theorem names_revise : (objects.map (ObjectPojo.revise r)).map (·.name)
    = (objects.map (·.name)).map r.name := by
  rw [List.map_map, List.map_map]
  exact List.map_congr_left fun object _ => object.name_revise r

theorem faults_sketch {sketch : UnionSketch}
    (htargets : ∀ discriminator, sketch.discriminator = some discriminator →
      ∀ entry ∈ discriminator.mapping.getD [], P entry.2) (owner : PojoName) :
    UnionSketch.faults (UnionSketch.rename r.name sketch) (r.name owner)
        (objects.map (ObjectPojo.revise r))
      = (UnionSketch.faults sketch owner objects).map (·.rename r.name) := by
  rw [UnionSketch.faults, UnionSketch.faults, names_revise]
  cases hdiscriminator : sketch.discriminator with
  | none => simp [UnionSketch.rename, hdiscriminator]
  | some discriminator =>
    have hstray := hr.stray? (htargets discriminator hdiscriminator) (names_within hobjects)
    simp only [UnionSketch.rename, hdiscriminator, Option.map_some, Option.bind_some, hstray]
    cases discriminator.stray? (objects.map (·.name)) <;> rfl

theorem resolve_union {sketch : UnionSketch}
    (htargets : ∀ discriminator, sketch.discriminator = some discriminator →
      ∀ entry ∈ discriminator.mapping.getD [], P entry.2) :
    UnionSketch.resolve (UnionSketch.rename r.name sketch) (objects.map (ObjectPojo.revise r))
      = (UnionSketch.resolve sketch objects).revise r := by
  rw [UnionSketch.resolve, UnionSketch.resolve, names_revise]
  cases hdiscriminator : sketch.discriminator with
  | none => simp [UnionSketch.rename, hdiscriminator, Alternatives.revise]
  | some discriminator =>
    have hresolve :=
      hr.resolve_sketch (htargets discriminator hdiscriminator) (names_within hobjects)
    simp only [UnionSketch.rename, hdiscriminator, Option.map_some, Alternatives.revise, hresolve]

end

theorem union {sketch : Option UnionSketch} {objects : Option (List ObjectPojo)}
    (hobjects : ∀ list, objects = some list → ∀ object ∈ list, object.Within P)
    (htargets : ∀ discriminator, sketch.bind (·.discriminator) = some discriminator →
      ∀ entry ∈ discriminator.mapping.getD [], P entry.2) :
    Stub.union (sketch.map (UnionSketch.rename r.name))
        (objects.map (·.map (ObjectPojo.revise r)))
      = (Stub.union sketch objects).map (·.revise r) := by
  cases sketch with
  | none => cases objects <;> rfl
  | some sketch =>
    cases objects with
    | none => rfl
    | some list =>
      exact congrArg some (hr.resolve_union (hobjects list rfl) fun discriminator hdiscriminator =>
        htargets discriminator hdiscriminator)

/-! ## Stubs -/

section

variable {stub : Stub} (hstub : stub.Within P) {branches : Branches}
  (hbranches : branches.Within P)

include hstub hbranches

omit hr hstub hbranches in
theorem allMembers : (stub.revise r).allMembers (branches.revise r)
    = (stub.allMembers branches).map r.member := by
  have hown : (stub.revise r).members = stub.members.map r.member := rfl
  rw [Stub.allMembers, Stub.allMembers, hown, List.map_append, List.map_flatMap, Branches.revise]
  cases branches.allOf <;> simp [List.flatMap_map]

/-- **What is wrong with a revised stub** is what was wrong with the stub, under other names. -/
theorem faults_stub : (stub.revise r).faults (branches.revise r)
    = (stub.faults branches).map (·.rename r.name) := by
  have hnames : ((stub.revise r).allMembers (branches.revise r)).map (·.name)
      = (stub.allMembers branches).map (·.name) := by
    rw [allMembers, List.map_map]
    exact List.map_congr_left fun member _ => (hr.members member).1
  rw [Stub.faults, Stub.faults, hnames, List.map_append, List.map_append, List.map_map]
  refine congrArg₂ (· ++ ·) (congrArg₂ (· ++ ·) ?_ ?_) rfl
  · rw [Stub.revise, Branches.revise]
    cases hsketch : stub.oneOf with
    | none => rfl
    | some sketch =>
      cases hlist : branches.oneOf with
      | none => rfl
      | some list =>
        exact hr.faults_sketch (hbranches.oneOf list hlist)
          (by simpa [Stub.discriminatorOf, hsketch] using hstub.targets .oneOf) stub.name
  · rw [Stub.revise, Branches.revise]
    cases hsketch : stub.anyOf with
    | none => rfl
    | some sketch =>
      cases hlist : branches.anyOf with
      | none => rfl
      | some list =>
        exact hr.faults_sketch (hbranches.anyOf list hlist)
          (by simpa [Stub.discriminatorOf, hsketch] using hstub.targets .anyOf) stub.name

/-- A revised stub is the revised object. -/
theorem toObject : (stub.revise r).toObject (branches.revise r)
    = (stub.toObject branches).revise r := by
  have hone := hr.union hbranches.oneOf (hstub.targets .oneOf)
  have hany := hr.union hbranches.anyOf (hstub.targets .anyOf)
  have hall : (branches.allOf.map (·.map (ObjectPojo.revise r))).filter (!·.isEmpty)
      = (branches.allOf.filter (!·.isEmpty)).map (·.map (ObjectPojo.revise r)) := by
    rcases branches.allOf with _ | _ | ⟨first, rest⟩ <;> rfl
  rw [ObjectPojo.revise_eq]
  simp only [Stub.toObject, allMembers]
  simp only [Branches.revise, Stub.revise, hone, hany, hall]

/-- **A revised stub makes the revised type.** -/
theorem toPojo : (stub.revise r).toPojo (branches.revise r)
    = (stub.toPojo branches).revise r := by
  have hone : Stub.union (stub.revise r).oneOf (branches.revise r).oneOf
      = (Stub.union stub.oneOf branches.oneOf).map (·.revise r) :=
    hr.union hbranches.oneOf (hstub.targets .oneOf)
  have hany : Stub.union (stub.revise r).anyOf (branches.revise r).anyOf
      = (Stub.union stub.anyOf branches.anyOf).map (·.revise r) :=
    hr.union hbranches.anyOf (hstub.targets .anyOf)
  have hbare : (stub.revise r).isBareUnion = stub.isBareUnion := by
    have hadditional : (stub.additional.map r.type).isAllowed = stub.additional.isAllowed := by
      cases stub.additional <;> rfl
    simp [Stub.isBareUnion, Stub.isPureUnion, Stub.revise, hadditional]
  have hobject := hr.toObject hstub hbranches
  rw [Stub.toPojo, Stub.toPojo, hone, hany, hbare, hobject]
  cases stub.isBareUnion with
  | false => rfl
  | true =>
    cases Stub.union stub.oneOf branches.oneOf <;> cases Stub.union stub.anyOf branches.anyOf <;>
      rfl

end

end Revision.IsFaithful

/-! ## Tables -/

/-- What a key leads to if all keys are changed, each to another. -/
theorem Dictionary.lookup?_map_injective {α β : Type} {g : String → String}
    (hg : Function.Injective g) (f : α → β) (entries : Dictionary α) (key : String) :
    Dictionary.lookup? (entries.map fun entry => (g entry.1, f entry.2)) (g key)
      = (entries.lookup? key).map f := by
  unfold Dictionary.lookup?
  induction entries with
  | nil => rfl
  | cons entry rest ih =>
    rw [List.map_cons, List.lookup_cons, List.lookup_cons]
    have hsame : (g key == g entry.1) = (key == entry.1) := by
      rw [Bool.eq_iff_iff, beq_iff_eq, beq_iff_eq, hg.eq_iff]
    rw [hsame]
    cases key == entry.1 with
    | true => rfl
    | false => exact ih

namespace ClassTable

theorem entries_revise (r : Revision) (g : String → String) (table : ClassTable) :
    (table.revise r g).entries = table.entries.map (Resolved.revise r) := by
  rw [entries, entries, revise, List.filterMap_map, List.map_filterMap]
  refine List.filterMap_congr fun entry _ => ?_
  rcases entry with ⟨key, _ | _ | _⟩ <;> rfl

theorem stubs_revise (r : Revision) (g : String → String) (table : ClassTable) :
    (table.revise r g).stubs = table.stubs.map (Stub.revise r) := by
  rw [stubs, stubs, revise, List.filterMap_map, List.map_filterMap]
  refine List.filterMap_congr fun entry _ => ?_
  rcases entry with ⟨key, _ | _ | _⟩ <;> rfl

theorem revise_insert {r : Revision} {g : String → String} (hg : Function.Injective g)
    (table : ClassTable) (key : String) (classified : Classified) :
    (Dictionary.insert table key classified).map (fun entry => (g entry.1, entry.2.revise r))
      = (table.revise r g).insert (g key) (classified.revise r) := by
  unfold revise
  induction table with
  | nil => rfl
  | cons entry rest ih =>
    obtain ⟨first, value⟩ := entry
    by_cases hkey : first = key
    · simp [Dictionary.insert, hkey]
    · simp [Dictionary.insert, hkey, hg.eq_iff, ih]

theorem Within.stub {P : PojoName → Prop} {table : ClassTable} (h : table.Within P) {stub : Stub}
    (hstub : stub ∈ table.stubs) : stub.Within P := by
  obtain ⟨key, hentry⟩ := mem_stubs_iff.mp hstub
  cases h _ hentry with
  | stub hwithin => exact hwithin

variable {P : PojoName → Prop} {g : String → String} {r : Revision} (hr : r.IsFaithful P g)
  {table : ClassTable}

include hr

theorem lookup?_revise (key : String) :
    (table.revise r g).lookup? (g key) = (table.lookup? key).map (Classified.revise r) :=
  Dictionary.lookup?_map_injective hr.injective _ _ _

/-- What a revised entry is as a branch. -/
theorem revise_of_asBranch (pojo : Pojo) :
    (match (pojo.revise r).asBranch with
      | .ok object => Lead.object object
      | .error obstacle => .invalid obstacle)
    = (match pojo.asBranch with
      | .ok object => Lead.object object
      | .error obstacle => .invalid obstacle).revise r := by
  rw [hr.asBranch]
  cases pojo.asBranch <;> rfl

variable (htable : table.Within P)

include htable

theorem leadFrom_revise (steps : Nat) (key : String) :
    (table.revise r g).leadFrom steps (g key) = (table.leadFrom steps key).revise r := by
  induction steps generalizing key with
  | zero => rfl
  | succ steps ih =>
    rw [leadFrom, leadFrom, lookup?_revise hr]
    cases hlookup : table.lookup? key with
    | none => rfl
    | some classified =>
      cases classified with
      | pojo pojo => exact revise_of_asBranch hr pojo
      | stub stub => rfl
      | plain plain =>
        dsimp only [Option.map_some, Classified.revise, PlainMember.revise]
        rw [hr.objectName?]
        cases htarget : plain.type.objectName? with
        | none => rfl
        | some target =>
          have hwithin : P target := by
            cases htable.of_lookup? hlookup with
            | plain hplain => exact hplain.type.of_objectName? htarget
          rw [← ih target.key, ← hr.key target hwithin]
          rfl

/-- **A revised name leads where the name led.** -/
theorem lead_revise {name : PojoName} (hname : P name) :
    (table.revise r g).lead (r.name name) = (table.lead name).revise r := by
  have hlength : (table.revise r g).length = table.length := List.length_map _
  rw [lead, lead, hlength, hr.key name hname, leadFrom_revise hr htable]

section

variable {stub : Stub} (hstub : stub.Within P)

include hstub

theorem objectsOf_revise (kind : CompositionKind) : (table.revise r g).objectsOf (stub.revise r) kind
    = (table.objectsOf stub kind).map (·.map (ObjectPojo.revise r)) := by
  rw [objectsOf, objectsOf, Stub.branchesOf_revise]
  cases hnames : stub.branchesOf kind with
  | none => rfl
  | some names =>
    simp only [Option.map_some, List.filterMap_map, List.map_filterMap]
    congr 1
    refine List.filterMap_congr fun name hname => ?_
    rw [Function.comp_apply, lead_revise hr htable (hstub.branches kind names hnames name hname)]
    cases table.lead name <;> rfl

theorem branchesOf_revise :
    (table.revise r g).branchesOf (stub.revise r) = (table.branchesOf stub).revise r := by
  simp only [branchesOf, Branches.revise, objectsOf_revise hr htable hstub]

theorem invalidBranches_revise : (table.revise r g).invalidBranches (stub.revise r)
    = (table.invalidBranches stub).map (·.rename r.name) := by
  rw [invalidBranches, invalidBranches, Stub.branches_revise, List.filterMap_map,
    List.map_filterMap]
  refine List.filterMap_congr ?_
  rintro ⟨kind, name⟩ hname
  have hwithin : P name :=
    hstub.of_mem_branchNames (mem_branchNames_iff.mpr ⟨kind, hname⟩)
  dsimp only [Function.comp_apply]
  rw [lead_revise hr htable hwithin]
  cases table.lead name <;> rfl

theorem missing_revise :
    (table.revise r g).missing (stub.revise r) = (table.missing stub).map r.name := by
  rw [missing, missing, Stub.branchNames_revise, List.filter_map]
  refine congrArg _ (List.filter_congr fun name hname => ?_)
  rw [Function.comp_apply, lead_revise hr htable (hstub.of_mem_branchNames hname)]
  cases table.lead name <;> rfl

/-- **A round makes the revised outcome of a revised stub.** -/
theorem outcome_revise :
    (table.revise r g).outcome (stub.revise r) = (table.outcome stub).revise r := by
  have hbranches := htable.branchesOf stub
  rw [outcome, outcome, invalidBranches_revise hr htable hstub, missing_revise hr htable hstub,
    branchesOf_revise hr htable hstub, Stub.resolve, Stub.resolve,
    hr.faults_stub hstub hbranches, hr.toPojo hstub hbranches]
  cases table.invalidBranches stub with
  | cons fault rest => rfl
  | nil =>
    cases table.missing stub with
    | cons name rest => rfl
    | nil => cases stub.faults (table.branchesOf stub) <;> rfl

end

/-! ## Rounds -/

theorem advance_revise : (table.revise r g).advance = table.advance.revise r g := by
  have hentry : ∀ entry ∈ table, (table.revise r g).advanceEntry (entry.2.revise r)
      = (table.advanceEntry entry.2).revise r := by
    rintro ⟨key, classified⟩ hmem
    cases classified with
    | pojo pojo => rfl
    | plain plain => rfl
    | stub stub =>
      have houtcome := outcome_revise hr htable (htable.stub (mem_stubs_iff.mpr ⟨key, hmem⟩))
      change (((table.revise r g).outcome (stub.revise r)).pojo?.map Classified.pojo).getD _ = _
      rw [houtcome]
      dsimp only [advanceEntry]
      cases table.outcome stub <;> rfl
  calc (table.revise r g).advance
      = table.map fun entry =>
          (g entry.1, (table.revise r g).advanceEntry (entry.2.revise r)) := List.map_map
    _ = table.map fun entry => (g entry.1, (table.advanceEntry entry.2).revise r) :=
        List.map_congr_left fun entry hmem => by rw [hentry entry hmem]
    _ = table.advance.revise r g := by rw [advance, revise, List.map_map]; rfl

theorem faults_revise : (table.revise r g).faults = table.faults.map (·.rename r.name) := by
  rw [faults, faults, stubs_revise, List.flatMap_map, List.map_flatMap]
  refine List.flatMap_congr fun stub hstub => ?_
  rw [outcome_revise hr htable (htable.stub hstub)]
  cases table.outcome stub <;> rfl

theorem stuck_revise : (table.revise r g).stuck = table.stuck.map (·.rename r.name) := by
  rw [stuck, stuck, stubs_revise, List.filterMap_map, List.map_filterMap]
  refine List.filterMap_congr fun stub hstub => ?_
  rw [Function.comp_apply, outcome_revise hr htable (htable.stub hstub)]
  cases table.outcome stub <;> rfl

theorem canAdvance_revise : (table.revise r g).canAdvance = table.canAdvance := by
  rw [canAdvance, canAdvance, stubs_revise, List.any_map, Bool.eq_iff_iff, List.any_eq_true,
    List.any_eq_true]
  refine exists_congr fun stub => and_congr_right fun hstub => ?_
  rw [Function.comp_apply, isResolvable, isResolvable,
    outcome_revise hr htable (htable.stub hstub)]
  cases table.outcome stub <;> rfl

/-- A result with a revision carried out in it. -/
theorem verdict?_revise : (table.revise r g).verdict?
    = table.verdict?.map fun result =>
      (result.map (·.map (Resolved.revise r))).mapError (Failure.rename r.name) := by
  have hempty : (table.revise r g).stubs.isEmpty = table.stubs.isEmpty := by
    rw [stubs_revise, List.isEmpty_map]
  rw [verdict?, verdict?, hempty, faults_revise hr htable, Failure.of?_map_rename,
    canAdvance_revise hr htable, entries_revise, stuck_revise hr htable]
  cases table.stubs.isEmpty with
  | true => rfl
  | false =>
    cases Failure.of? table.faults with
    | some failure => rfl
    | none => cases table.canAdvance <;> rfl

/-- **A revised table settles to the revised types**, or fails with the same faults under the
revised names. -/
theorem settle_revise (number : Nat) : (settle number (table.revise r g)).2
    = ((settle number table).2.map (·.map (Resolved.revise r))).mapError
      (Failure.rename r.name) := by
  induction hcount : table.stubs.length using Nat.strongRecOn generalizing table number with
  | ind count ih =>
    rw [snd_settle number (table.revise r g), snd_settle number table, verdict?_revise hr htable]
    cases hverdict : table.verdict? with
    | some result => rfl
    | none =>
      have hlt := length_stubs_advance_lt table (canAdvance_of_verdict?_eq_none hverdict)
      rw [advance_revise hr htable]
      exact ih _ (hcount ▸ hlt) htable.advance (number + 1) rfl

end ClassTable

end PojoGraph
