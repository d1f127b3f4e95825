import PojoGraph.Proofs.Dispatch.Tables
import PojoGraph.Proofs.Run.Flattening
import PojoGraph.Proofs.Run.Suffixes

/-!
# Dispatch in final sets

Each discriminator of a final set, at any depth, is the one of a schema that lists the branches
of a composition. Its table is a function over these branches, whose names are different in the
run. Names are mapped in the branches and in the table alike, while values stay what they are.

## Main definitions

* `Pojo.HasUnion` — a union stands in a pojo, at any depth.
* `Alternatives.Dispatches` — a discriminator selects branches of its union as its keyword says.

## Main statements

* `Alternatives.dispatches_resolve` — resolved unions dispatch.
* `Course.exists_dispatches` — so do those of a final set.
* `discriminators_dispatch` — for every run that succeeds.
-/

namespace PojoGraph

/-! ## Unions -/

/-- The unions that an object has. -/
def ObjectPojo.unions (object : ObjectPojo) : List (Alternatives ObjectPojo Discriminator) :=
  object.oneOf.toList ++ object.anyOf.toList

theorem ObjectPojo.unions_revise (r : Revision) (object : ObjectPojo) :
    (object.revise r).unions = object.unions.map (·.revise r) := by
  rw [revise_eq]
  cases hone : object.oneOf <;> cases hany : object.anyOf <;> simp [unions, hone, hany]

namespace Pojo

/-- The unions that a pojo has. -/
def unions : Pojo → List (Alternatives ObjectPojo Discriminator)
  | object o => o.unions
  | composed _ _ _ union => [union]
  | array .. => []
  | enum .. => []
  | freeForm .. => []
  | typeAlias .. => []

/-- The union is one of the pojo, or of a branch that the pojo has at any depth. -/
def HasUnion (pojo : Pojo) (union : Alternatives ObjectPojo Discriminator) : Prop :=
  union ∈ pojo.unions ∨ ∃ object, pojo.Embeds object ∧ union ∈ object.unions

variable {pojo : Pojo} {union : Alternatives ObjectPojo Discriminator}

/-- The branch that a pojo makes has the unions of the pojo. -/
theorem unions_of_asBranch {object : ObjectPojo} (h : pojo.asBranch = .ok object) :
    object.unions = pojo.unions := by
  cases pojo with
  | object o => cases h; rfl
  | composed name description kind union => cases kind <;> cases h <;> rfl
  | freeForm name description constraints => cases h; rfl
  | array name description value => cases h
  | enum name description values => cases h
  | typeAlias name description type nullability => cases h

theorem unions_revise (r : Revision) (pojo : Pojo) :
    (pojo.revise r).unions = pojo.unions.map (·.revise r) := by
  cases pojo with
  | object o => exact o.unions_revise r
  | _ => rfl

/-- A pojo without compositions has no unions. -/
theorem unions_eq_nil_of_compositions (h : pojo.compositions = []) : pojo.unions = [] := by
  cases pojo with
  | object o =>
    simp only [compositions, ObjectPojo.compositions, List.append_eq_nil_iff,
      Option.toList_eq_nil_iff, Option.map_eq_none_iff] at h
    simp [unions, ObjectPojo.unions, h]
  | composed name description kind union => cases h
  | _ => rfl

end Pojo

/-- Where copies agree, the unions at any depth are unions of pojos of the list. -/
theorem CopiesAgree.exists_mem_unions {pojos : List Pojo} (h : CopiesAgree pojos) {pojo : Pojo}
    (hpojo : pojo ∈ pojos) {union : Alternatives ObjectPojo Discriminator}
    (hunion : pojo.HasUnion union) : ∃ top ∈ pojos, union ∈ top.unions := by
  rcases hunion with hunion | ⟨object, hembeds, hunion⟩
  · exact ⟨pojo, hpojo, hunion⟩
  · obtain ⟨top, htop, hbranch⟩ := h.exists_asBranch hpojo hembeds
    exact ⟨top, htop, Pojo.unions_of_asBranch hbranch ▸ hunion⟩

/-! ## Unions of stubs -/

namespace Stub

/-- The union that a keyword of a stub sketches. -/
def sketch? (stub : Stub) : UnionKind → Option UnionSketch
  | .oneOf => stub.oneOf
  | .anyOf => stub.anyOf

variable {stub : Stub} {branches : Branches} {union : Alternatives ObjectPojo Discriminator}

/-- The unions of a resolved stub are those that it sketches, with its branches. -/
theorem mem_unions_toPojo_iff : union ∈ (stub.toPojo branches).unions
    ↔ Stub.union stub.oneOf branches.oneOf = some union
      ∨ Stub.union stub.anyOf branches.anyOf = some union := by
  rw [toPojo]
  split
  · rename_i hone hany
    simp [Pojo.unions, hone, hany, eq_comm]
  · rename_i hone hany
    simp [Pojo.unions, hone, hany, eq_comm]
  · simp [Pojo.unions, ObjectPojo.unions, toObject]

end Stub

namespace ClassTable

variable {table : ClassTable} {stub : Stub} {union : Alternatives ObjectPojo Discriminator}

/-- The objects that names lead to. -/
def objectsAt (table : ClassTable) (names : List PojoName) : List ObjectPojo :=
  names.filterMap fun name => (table.lead name).object?

/-- The unions of a stub that is resolved with its branches in a table. -/
theorem mem_unions_toPojo_iff : union ∈ (stub.toPojo (table.branchesOf stub)).unions
    ↔ ∃ kind sketch, stub.sketch? kind = some sketch
      ∧ union = sketch.resolve (table.objectsAt sketch.branches) := by
  have hunion : ∀ sketch : Option UnionSketch,
      Stub.union sketch ((sketch.map (·.branches)).map table.objectsAt) = some union
        ↔ ∃ written, sketch = some written
          ∧ union = written.resolve (table.objectsAt written.branches) := by
    intro sketch
    cases sketch <;> simp [Stub.union, eq_comm]
  rw [Stub.mem_unions_toPojo_iff]
  refine (or_congr (hunion stub.oneOf) (hunion stub.anyOf)).trans ⟨?_, ?_⟩
  · rintro (hone | hany)
    · exact ⟨.oneOf, hone⟩
    · exact ⟨.anyOf, hany⟩
  · rintro ⟨kind, hkind⟩
    cases kind with
    | oneOf => exact .inl hkind
    | anyOf => exact .inr hkind

end ClassTable

/-- A union without faults maps no value to anything but a branch. -/
theorem UnionSketch.faults_eq_nil_iff {sketch : UnionSketch} {owner : PojoName}
    {objects : List ObjectPojo} : sketch.faults owner objects = []
      ↔ ∀ discriminator, sketch.discriminator = some discriminator →
        discriminator.stray? (objects.map (·.name)) = none := by
  rw [faults]
  cases hdiscriminator : sketch.discriminator with
  | none => simp
  | some discriminator =>
    cases hstray : discriminator.stray? (objects.map (·.name)) <;> simp [hstray]

/-- What is wrong with the union that a keyword of a stub sketches, with its branches in a table. -/
def ClassTable.unionFaults (table : ClassTable) (stub : Stub) (kind : UnionKind) : List Fault :=
  match stub.sketch? kind with
  | some sketch => sketch.faults stub.name (table.objectsAt sketch.branches)
  | none => []

theorem ClassTable.faults_branchesOf (table : ClassTable) (stub : Stub) :
    stub.faults (table.branchesOf stub)
      = table.unionFaults stub .oneOf ++ table.unionFaults stub .anyOf
        ++ (repeats [] ((stub.allMembers (table.branchesOf stub)).map (·.name))).map
          (.ambiguousMember stub.name) := by
  rw [Stub.faults, unionFaults, unionFaults]
  congr 1
  cases hone : stub.oneOf <;> cases hany : stub.anyOf <;>
    simp [branchesOf, objectsOf, Stub.branchesOf, Stub.sketch?, hone, hany, objectsAt]

/-- A stub without faults has no union with a fault. -/
theorem ClassTable.faults_of_sketch? {table : ClassTable} {stub : Stub} {kind : UnionKind}
    {sketch : UnionSketch} (hsketch : stub.sketch? kind = some sketch)
    (h : stub.faults (table.branchesOf stub) = []) :
    sketch.faults stub.name (table.objectsAt sketch.branches) = [] := by
  rw [faults_branchesOf, List.append_eq_nil_iff, List.append_eq_nil_iff] at h
  have hkind : table.unionFaults stub kind = [] := by
    cases kind with
    | oneOf => exact h.1.1
    | anyOf => exact h.1.2
  rwa [unionFaults, hsketch] at hkind

/-- The discriminator of a sketched union is the one of the schema. -/
theorem exists_keyword_of_stubOf {settings : Settings} {owner : PojoName} {k : Keywords Schema}
    {survey : Survey} {kind : UnionKind} {sketch : UnionSketch}
    (hsketch : (stubOf settings owner k survey).1.sketch? kind = some sketch)
    {discriminator : DiscriminatorSketch} (h : sketch.discriminator = some discriminator) :
    ∃ keyword, k.discriminator = some keyword ∧ discriminator = sketchOf settings keyword := by
  cases kind with
  | oneOf =>
    obtain ⟨names, -, rfl⟩ := Option.map_eq_some_iff.mp hsketch
    obtain ⟨-, h⟩ := Option.ite_none_left_eq_some.mp h
    obtain ⟨keyword, hkeyword, rfl⟩ := Option.map_eq_some_iff.mp h
    exact ⟨keyword, hkeyword, rfl⟩
  | anyOf =>
    obtain ⟨names, -, rfl⟩ := Option.map_eq_some_iff.mp hsketch
    obtain ⟨-, h⟩ := Option.ite_none_right_eq_some.mp h
    obtain ⟨keyword, hkeyword, rfl⟩ := Option.map_eq_some_iff.mp h
    exact ⟨keyword, hkeyword, rfl⟩

/-! ## Discriminators without repeated values -/

/-- The discriminator of the keywords maps no value twice. -/
def Keywords.HasDistinctValues (k : Keywords Schema) : Prop :=
  ∀ keyword, k.discriminator = some keyword → (Dictionary.keys keyword.mapping).Nodup

/-- No discriminator in the document maps a value twice. -/
def Document.HasDistinctValues (document : Document) : Prop :=
  ∀ entry ∈ document.schemas, entry.2.Everywhere Keywords.HasDistinctValues

/-! ## Dispatch -/

/-- The discriminator of a union selects its branches, whose names were the given ones before
names were mapped, as the keyword says. -/
structure Alternatives.Dispatches (settings : Settings) (keyword : DiscriminatorKeyword)
    (names : List PojoName) (union : Alternatives ObjectPojo Discriminator)
    (discriminator : Discriminator) : Prop where
  branches : union.branches.map (·.name) = names.map settings.mapName
  property : discriminator.property = keyword.propertyName
  mem_branches : ∀ entry ∈ discriminator.entries, ∃ branch ∈ union.branches,
    branch.name = entry.branch
  isFunction : ∀ entry ∈ discriminator.entries, ∀ other ∈ discriminator.entries,
    entry.value = other.value → entry.branch = other.branch
  inverts : ∀ branch value, discriminator.valueFor branch = some value →
    ∃ name, discriminator.branchFor value = .ok name ∧ name.isSame branch = true
  /-- A mapping is followed, and selects nothing else. -/
  of_mapping : keyword.mapping ≠ [] → ∀ value,
    match keyword.mapping.lookup? value with
    | some target => ∃ name ∈ names, name.isSame (settings.referenceName target) = true
      ∧ discriminator.branchFor value = .ok (settings.mapName name)
    | none => discriminator.branchFor value = .error ⟨keyword.propertyName, value⟩
      ∧ ∀ fallback, discriminator.branchForOr value fallback = fallback
  /-- Without a mapping, branches are selected by their schema keys. -/
  of_no_mapping : keyword.mapping = [] → ∀ name ∈ names,
    ⟨name.raw, settings.mapName name⟩ ∈ discriminator.entries
  report : ∃ fields, discriminator.report
      = .sortedObject [("property", .string keyword.propertyName), ("mapping", .object fields)]
    ∧ ∀ value, Dictionary.lookup? fields value
      = (discriminator.branchFor value).toOption.map fun branch => .string branch.text

section

variable {settings : Settings} {keyword : DiscriminatorKeyword} {names : List PojoName}
  {value : String}

theorem mapping_sketchOf (settings : Settings) (h : keyword.mapping ≠ []) :
    (sketchOf settings keyword).mapping
      = some (keyword.mapping.map fun entry => (entry.1, settings.referenceName entry.2)) := by
  rw [sketchOf, if_neg (by simpa using h)]
  rfl

theorem mapping_sketchOf_of_nil (h : keyword.mapping = []) :
    (sketchOf settings keyword).mapping = none := by
  rw [sketchOf, h]
  rfl

theorem isFunction_sketchOf (settings : Settings) (hnames : PojoName.AreDistinct names)
    (hvalues : (Dictionary.keys keyword.mapping).Nodup) :
    ((sketchOf settings keyword).resolve names).IsFunction := by
  refine DiscriminatorSketch.isFunction_resolve hnames fun mapping hmapping => ?_
  have hne : keyword.mapping ≠ [] := by
    intro hnil
    rw [mapping_sketchOf_of_nil hnil] at hmapping
    cases hmapping
  rw [mapping_sketchOf settings hne] at hmapping
  obtain rfl := Option.some.inj hmapping
  rw [Dictionary.keys, List.map_map]
  exact hvalues

/-- A mapped value stands in the table with the branch that its target names. -/
theorem exists_entry_of_lookup? {target : String}
    (hstray : (sketchOf settings keyword).stray? names = none)
    (h : keyword.mapping.lookup? value = some target) :
    ∃ name ∈ names, name.isSame (settings.referenceName target) = true
      ∧ ⟨value, name⟩ ∈ ((sketchOf settings keyword).resolve names).entries := by
  have hmem := Dictionary.mem_of_lookup? h
  have hmapping := mapping_sketchOf settings (List.ne_nil_of_mem hmem)
  have hentry := List.mem_map_of_mem
    (f := fun entry => (entry.1, settings.referenceName entry.2)) hmem
  obtain ⟨name, hname, hkey⟩ :=
    (DiscriminatorSketch.stray?_eq_none_iff hmapping).mp hstray _ hentry
  exact ⟨name, hname, PojoName.isSame_iff.mpr hkey,
    (DiscriminatorSketch.mem_entries_of_mapping hmapping).mpr ⟨hname, _, hentry, hkey⟩⟩

/-- A value that is not mapped does not stand in the table of a mapping. -/
theorem value_ne_of_lookup? (hne : keyword.mapping ≠ [])
    (h : keyword.mapping.lookup? value = none) {entry : DispatchEntry}
    (hentry : entry ∈ ((sketchOf settings keyword).resolve names).entries) :
    entry.value ≠ value := by
  obtain ⟨other, branch⟩ := entry
  obtain ⟨-, target, htarget, -⟩ :=
    (DiscriminatorSketch.mem_entries_of_mapping (mapping_sketchOf settings hne)).mp hentry
  obtain ⟨original, horiginal, heq⟩ := List.mem_map.mp htarget
  obtain ⟨rfl, -⟩ := Prod.mk.inj heq
  rintro rfl
  exact Dictionary.lookup?_eq_none_iff.mp h (List.mem_map_of_mem horiginal)

end

/-- **The resolved union of a keyword dispatches**, after any revision that maps names. -/
theorem Alternatives.dispatches_resolve {settings : Settings} {keyword : DiscriminatorKeyword}
    {objects : List ObjectPojo} {r : Revision}
    (hr : ∀ name, r.name name = settings.mapName name)
    (hnames : PojoName.AreDistinct (objects.map (·.name)))
    (hvalues : (Dictionary.keys keyword.mapping).Nodup)
    (hstray : (sketchOf settings keyword).stray? (objects.map (·.name)) = none) :
    Dispatches settings keyword (objects.map (·.name))
      (revise r ⟨objects, some ((sketchOf settings keyword).resolve (objects.map (·.name)))⟩)
      (((sketchOf settings keyword).resolve (objects.map (·.name))).rename r.name) := by
  have htable := isFunction_sketchOf settings hnames hvalues
  have hfunction := htable.rename r.name
  have hrenamed : ∀ {value name}, ⟨value, name⟩
        ∈ ((sketchOf settings keyword).resolve (objects.map (·.name))).entries →
      ⟨value, settings.mapName name⟩ ∈ (((sketchOf settings keyword).resolve
        (objects.map (·.name))).rename r.name).entries := by
    intro value name hentry
    rw [← hr name]
    exact List.mem_map.mpr ⟨_, hentry, rfl⟩
  constructor
  · simp [revise, hr, Function.comp_def]
  · rfl
  · intro entry hentry
    obtain ⟨original, horiginal, rfl⟩ := List.mem_map.mp hentry
    obtain ⟨object, hobject, hname⟩ :=
      List.mem_map.mp (DiscriminatorSketch.branch_mem_of_mem_entries horiginal)
    exact ⟨object.revise r, List.mem_map_of_mem hobject, by rw [ObjectPojo.name_revise, hname]⟩
  · exact hfunction
  · exact fun branch value => Discriminator.exists_branchFor_of_valueFor hfunction
  · intro hne value
    cases hlookup : keyword.mapping.lookup? value with
    | some target =>
      obtain ⟨name, hname, hsame, hentry⟩ := exists_entry_of_lookup? hstray hlookup
      exact ⟨name, hname, hsame,
        (Discriminator.branchFor_eq_ok_iff hfunction).mpr (hrenamed hentry)⟩
    | none =>
      have herror : (((sketchOf settings keyword).resolve (objects.map (·.name))).rename
          r.name).branchFor value = .error ⟨keyword.propertyName, value⟩ := by
        refine Discriminator.branchFor_eq_error_iff.mpr ⟨rfl, fun entry hentry => ?_⟩
        obtain ⟨original, horiginal, rfl⟩ := List.mem_map.mp hentry
        have hvalue := value_ne_of_lookup? hne hlookup horiginal
        exact hvalue
      exact ⟨herror, Discriminator.branchForOr_of_error herror⟩
  · intro hnil name hname
    exact hrenamed ((DiscriminatorSketch.mem_entries_of_no_mapping
      (mapping_sketchOf_of_nil hnil)).mpr ⟨hname, rfl⟩)
  · exact ⟨_, Discriminator.report_eq _, Discriminator.lookup?_mapping hfunction⟩

/-! ## Runs -/

namespace Course

variable {settings : Settings} {isLoaded : String → Bool} {documents : List Document}
  {course : Course settings isLoaded documents}

theorem name_revision (course : Course settings isLoaded documents) (name : PojoName) :
    course.revision.name name = settings.mapName name := by
  simp [revision, Revision.ofEntries, Revision.andThen, Revision.rename]

/-- Names of a run are distinct. -/
theorem areDistinct (course : Course settings isLoaded documents) {names : List PojoName}
    (h : ∀ name ∈ names, name ∈ course.queue.map (·.name)) : PojoName.AreDistinct names := by
  constructor
  · intro name hname other hother
    obtain ⟨pending, hpending, rfl⟩ := List.mem_map.mp (h name hname)
    obtain ⟨pending', hpending', rfl⟩ := List.mem_map.mp (h other hother)
    rw [suffix_eq hpending, suffix_eq hpending']
  · intro name hname other hother hkey
    obtain ⟨pending, hpending, rfl⟩ := List.mem_map.mp (h name hname)
    obtain ⟨pending', hpending', rfl⟩ := List.mem_map.mp (h other hother)
    rw [List.inj_on_of_nodup_map course.nodup_keys_queue hpending hpending' hkey]

/-- Resolved types have names of schemas of the run. -/
theorem name_mem_queue {resolved : Resolved} (h : resolved ∈ course.final.entries) :
    resolved.name ∈ course.queue.map (·.name) := by
  rw [← names_entries]
  exact List.mem_map_of_mem h

/-- The objects that names lead to are made by resolved pojos. -/
theorem exists_asBranch_of_mem_objectsAt {names : List PojoName} {object : ObjectPojo}
    (h : object ∈ course.final.objectsAt names) :
    ∃ pojo, .pojo pojo ∈ course.final.entries ∧ pojo.asBranch = .ok object := by
  obtain ⟨name, -, hlead⟩ := List.mem_filterMap.mp h
  cases hcase : course.final.lead name with
  | object found =>
    rw [hcase] at hlead
    obtain rfl := Option.some.inj hlead
    exact ClassTable.exists_asBranch_of_lead hcase
  | waiting => rw [hcase] at hlead; cases hlead
  | invalid obstacle => rw [hcase] at hlead; cases hlead

/-- The objects that names lead to have distinct names. -/
theorem areDistinct_objectsAt (course : Course settings isLoaded documents)
    (names : List PojoName) :
    PojoName.AreDistinct ((course.final.objectsAt names).map (·.name)) := by
  refine course.areDistinct fun name hname => ?_
  obtain ⟨object, hobject, rfl⟩ := List.mem_map.mp hname
  obtain ⟨top, htop, hmakes⟩ := exists_asBranch_of_mem_objectsAt hobject
  rw [Pojo.name_of_asBranch hmakes]
  exact name_mem_queue htop

/-- **The unions that schemas sketch dispatch in the final set**, unless they are faulty. -/
theorem dispatches_sketch (course : Course settings isLoaded documents)
    (hdistinct : ∀ document ∈ documents, document.HasDistinctValues) {visit : Visit}
    (hvisit : visit ∈ course.visits) {k : Keywords Schema}
    (hschema : visit.pending.schema = .inline k) {keyword : DiscriminatorKeyword}
    (hkeyword : k.discriminator = some keyword) {stub : Stub}
    (hfaults : stub.faults (course.final.branchesOf stub) = []) {kind : UnionKind}
    {sketch : UnionSketch} (hsketch : stub.sketch? kind = some sketch)
    (hdiscriminator : sketch.discriminator = some (sketchOf settings keyword)) :
    Alternatives.Dispatches settings keyword
      ((course.final.objectsAt sketch.branches).map (·.name))
      ((sketch.resolve (course.final.objectsAt sketch.branches)).revise course.revision)
      (((sketchOf settings keyword).resolve
        ((course.final.objectsAt sketch.branches).map (·.name))).rename course.revision.name) := by
  have hstray := UnionSketch.faults_eq_nil_iff.mp
    (ClassTable.faults_of_sketch? hsketch hfaults) _ hdiscriminator
  have heverywhere := course.everywhere hdistinct visit hvisit
  rw [hschema] at heverywhere
  have hdispatches := Alternatives.dispatches_resolve course.name_revision
    (course.areDistinct_objectsAt sketch.branches) (heverywhere.here keyword hkeyword) hstray
  rw [UnionSketch.resolve, hdiscriminator]
  exact hdispatches

/-- **The discriminators of resolved types dispatch in the final set.** -/
theorem exists_dispatches
    (hdistinct : ∀ document ∈ documents, document.HasDistinctValues) {pojo : Pojo}
    (hpojo : .pojo pojo ∈ course.final.entries) {union : Alternatives ObjectPojo Discriminator}
    (hunion : union ∈ pojo.unions) {discriminator : Discriminator}
    (hdiscriminator : union.discriminator = some discriminator) :
    ∃ schema ∈ course.queue, ∃ k keyword, schema.schema = .inline k
      ∧ k.discriminator = some keyword
      ∧ (∀ object ∈ union.branches, ∃ top, .pojo top ∈ course.final.entries
        ∧ top.asBranch = .ok object)
      ∧ Alternatives.Dispatches settings keyword (union.branches.map (·.name))
        (union.revise course.revision) (discriminator.rename course.revision.name) := by
  obtain ⟨visit, hvisit, hbecomes⟩ := course.exists_becomes_of_mem hpojo
  have hvalid : classify settings visit.pending visit.registry
      = .ok (visit.classified, visit.survey) := course.valid visit hvisit
  have hqueue : visit.pending ∈ course.queue := List.mem_map_of_mem hvisit
  generalize hclassified : visit.classified = classified at hbecomes hvalid
  cases hbecomes with
  | pojo =>
    rw [Pojo.unions_eq_nil_of_compositions (isBare_of_classify hvalid)] at hunion
    cases hunion
  | @stub stub _ hready hresolve =>
    obtain ⟨k, hschema, rfl⟩ := eq_stubOf_of_classify hvalid
    obtain ⟨hfaults, rfl⟩ := ClassTable.resolve_eq_ok_iff.mp hresolve
    obtain ⟨kind, sketch, hsketch, rfl⟩ := ClassTable.mem_unions_toPojo_iff.mp hunion
    obtain ⟨written, hwritten, rfl⟩ := Option.map_eq_some_iff.mp hdiscriminator
    obtain ⟨keyword, hkeyword, rfl⟩ := exists_keyword_of_stubOf hsketch hwritten
    exact ⟨visit.pending, hqueue, k, keyword, hschema, hkeyword,
      fun object => exists_asBranch_of_mem_objectsAt,
      course.dispatches_sketch hdistinct hvisit hschema hkeyword hfaults hsketch hwritten⟩

end Course

/-- What becomes of a resolved pojo is in the final set. -/
theorem Course.Makes.revise_mem {settings : Settings} {isLoaded : String → Bool}
    {documents : List Document} {course : Course settings isLoaded documents} {set : PojoSet}
    (h : course.Makes set) {pojo : Pojo} (hpojo : .pojo pojo ∈ course.final.entries) :
    pojo.revise course.revision ∈ set.pojos := by
  rw [h.pojos_eq_revise]
  exact List.mem_map_of_mem (mem_keptPojos_iff.mpr (.inl hpojo))

/-- **Discriminators dispatch**: in a run that succeeds, over documents in which no discriminator
maps a value twice, the discriminator of each union of the final set, at any depth, selects the
branches of the union as the keyword of its schema says. These are the branches that resolved types
make, as they are in the final set. -/
theorem discriminators_dispatch {settings : Settings} {isLoaded : String → Bool}
    {documents : List Document} {set : PojoSet}
    (hdistinct : ∀ document ∈ documents, document.HasDistinctValues)
    (h : (mapDocuments settings isLoaded documents).2 = .ok set) :
    ∃ course : Course settings isLoaded documents, course.Makes set
      ∧ ∀ pojo ∈ set.pojos, ∀ union, pojo.HasUnion union →
        ∀ discriminator, union.discriminator = some discriminator →
          ∃ schema ∈ course.queue, ∃ k keyword, ∃ objects : List ObjectPojo,
            schema.schema = .inline k
            ∧ k.discriminator = some keyword
            ∧ (∀ object ∈ objects, ∃ top, .pojo top ∈ course.final.entries
              ∧ top.asBranch = .ok object)
            ∧ union.branches = objects.map (ObjectPojo.revise course.revision)
            ∧ Alternatives.Dispatches settings keyword (objects.map (·.name)) union
              discriminator := by
  obtain ⟨course, hmakes⟩ := exists_course h
  refine ⟨course, hmakes, fun pojo hpojo union hunion discriminator hdiscriminator => ?_⟩
  obtain ⟨top, htop, hmem⟩ :=
    (copiesAgree_mapDocuments h).exists_mem_unions hpojo hunion
  rw [hmakes.pojos_eq_revise] at htop
  obtain ⟨resolved, hresolved, rfl⟩ := List.mem_map.mp htop
  rw [Pojo.unions_revise] at hmem
  obtain ⟨original, horiginal, rfl⟩ := List.mem_map.mp hmem
  obtain ⟨written, hwritten, rfl⟩ := Option.map_eq_some_iff.mp hdiscriminator
  have hentry : .pojo resolved ∈ course.final.entries := by
    rcases mem_keptPojos_iff.mp hresolved with hentry | ⟨plain, -, rfl, -⟩
    · exact hentry
    · cases horiginal
  obtain ⟨schema, hschema, k, keyword, hk, hkeyword, hbranches, hdispatches⟩ :=
    Course.exists_dispatches hdistinct hentry horiginal hwritten
  exact ⟨schema, hschema, k, keyword, _, hk, hkeyword, hbranches, rfl, hdispatches⟩

/-- Animals of two kinds, one of which is known by two values, and shelters that are made of
animals. -/
def shelters : Document :=
  .ofSchemas
    [("Cat", .inline { properties := [("name", .inline { types := some (.single .string) })] }),
      ("Dog", .inline { properties := [("name", .inline { types := some (.single .string) })] }),
      ("Animal", .inline
        { anyOf := [.ref "#/components/schemas/Cat", .ref "#/components/schemas/Dog"]
          discriminator := some ⟨"kind", [("cat", "#/components/schemas/Cat"),
            ("dog", "#/components/schemas/Dog"), ("kitten", "#/components/schemas/cat")]⟩ }),
      ("Shelter", .inline { allOf := [.ref "#/components/schemas/Animal"] })]

theorem hasDistinctValues_shelters : ∀ document ∈ [shelters], document.HasDistinctValues := by
  intro document hdocument entry hentry
  obtain rfl := List.mem_singleton.mp hdocument
  have hname : Schema.Everywhere Keywords.HasDistinctValues
      (.inline { properties := [("name", .inline { types := some (.single .string) })] }) := by
    refine Schema.Everywhere.inline_iff.mpr ⟨nofun, fun child hchild => ?_⟩
    obtain rfl := List.mem_singleton.mp hchild
    exact .ofFacets nofun
  simp only [Document.schemas, shelters, Document.ofSchemas, List.mem_cons, List.not_mem_nil,
    or_false] at hentry
  rcases hentry with rfl | rfl | rfl | rfl
  · exact hname
  · exact hname
  · refine Schema.Everywhere.inline_iff.mpr ⟨?_, fun child hchild => ?_⟩
    · rintro keyword ⟨⟩
      decide
    · rcases List.mem_pair.mp hchild with rfl | rfl <;> exact .ref _
  · refine Schema.Everywhere.inline_iff.mpr ⟨nofun, fun child hchild => ?_⟩
    obtain rfl := List.mem_singleton.mp hchild
    exact .ref _

/-- The animals that shelters embed are told apart, under mapped names. -/
theorem discriminators_dispatch_shelters :
    ∃ set, (mapDocuments { suffix := "Dto", nameMappings := [⟨"Cat", "Feline"⟩] }
        (fun _ => false) [shelters]).2 = .ok set
      ∧ ∃ pojo ∈ set.pojos, ∃ union, pojo.HasUnion union
        ∧ ∃ discriminator, union.discriminator = some discriminator
          ∧ (discriminator.branchFor "kitten").toOption = some ⟨"Feline", "Dto"⟩
          ∧ ∃ keyword names, Alternatives.Dispatches
            { suffix := "Dto", nameMappings := [⟨"Cat", "Feline"⟩] } keyword names union
              discriminator := by
  obtain ⟨set, hset, hunions⟩ := exists_ok_of_any_toOption
    (show ((mapDocuments { suffix := "Dto", nameMappings := [⟨"Cat", "Feline"⟩] }
        (fun _ => false) [shelters]).2.toOption.any fun set => set.pojos.any fun pojo =>
          pojo.compositions.any fun branches => branches.any fun branch =>
            branch.unions.any fun union => union.discriminator.any fun discriminator =>
              decide ((discriminator.branchFor "kitten").toOption = some ⟨"Feline", "Dto"⟩)) = true
      by decide +kernel)
  obtain ⟨pojo, hpojo, hunions⟩ := List.any_eq_true.mp hunions
  obtain ⟨branches, hbranches, hunions⟩ := List.any_eq_true.mp hunions
  obtain ⟨branch, hbranch, hunions⟩ := List.any_eq_true.mp hunions
  obtain ⟨union, hunion, hselects⟩ := List.any_eq_true.mp hunions
  have hhas : pojo.HasUnion union := .inr ⟨branch, .direct hbranches hbranch, hunion⟩
  cases hdiscriminator : union.discriminator with
  | none =>
    rw [hdiscriminator] at hselects
    cases hselects
  | some discriminator =>
    rw [hdiscriminator] at hselects
    obtain ⟨course, -, hall⟩ := discriminators_dispatch hasDistinctValues_shelters hset
    obtain ⟨-, -, -, keyword, objects, -, -, -, -, hdispatches⟩ :=
      hall pojo hpojo union hhas discriminator hdiscriminator
    exact ⟨set, hset, pojo, hpojo, union, hhas, discriminator, hdiscriminator,
      of_decide_eq_true hselects, keyword, _, hdispatches⟩

end PojoGraph
