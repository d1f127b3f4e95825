import PojoGraph.Proofs.Dispatch.Runs
import PojoGraph.Proofs.Frame.Resolution
import PojoGraph.Proofs.Run.Documents

/-!
# Mappings to listed branches

A branch that is listed by reference is looked up through all references that follow, and is the
object at the end of them, under its own name. The targets of a mapping are compared with these
names as they are written. So a target that is listed itself is accepted if and only if it is the
name of the object: where it is a reference to another schema, the run fails.

## Main definitions

* `Keywords.dispatched`, `Keywords.ListsTargets` — the schemas that a discriminator tells apart,
  and mappings to nothing but these.
* `ClassTable.IsAlias` — a name of a plain member.

## Main statements

* `ClassTable.key_of_lead_iff` — a name leads to an object of its own unless it is an alias.
* `ClassTable.stray?_objectsAt_iff` — which mappings to listed branches are accepted.
* `listed_targets_accepted_iff` — for all runs.
-/

namespace PojoGraph

/-! ## Listed branches -/

namespace Keywords

/-- The schemas that the discriminator tells apart. -/
def dispatched (k : Keywords Schema) : List Schema :=
  if k.oneOf.isEmpty then k.anyOf else k.oneOf

/-- The discriminator maps values, and only to schemas that are listed by reference. -/
def ListsTargets (settings : Settings) (k : Keywords Schema) (keyword : DiscriminatorKeyword) :
    Prop :=
  keyword.mapping ≠ [] ∧ ∀ entry ∈ keyword.mapping, ∃ reference, .ref reference ∈ k.dispatched
    ∧ (settings.referenceName reference).isSame (settings.referenceName entry.2) = true

end Keywords

section

variable {settings : Settings} {owner : PojoName} {k : Keywords Schema} {survey : Survey}
  {reference : String}

/-- A schema that is listed by reference is a branch, under the name of the reference. -/
theorem mem_branchesOf_of_ref {kind : CompositionKind} {schemas : List Schema}
    (h : .ref reference ∈ schemas) : ∃ names,
      (branchesOf settings owner kind schemas survey).1 = some names
        ∧ settings.referenceName reference ∈ names := by
  have hbranch : .ref reference ∈ schemas.filter (!·.isNullType) :=
    List.mem_filter.mpr ⟨h, rfl⟩
  rw [branchesOf]
  dsimp only
  rw [if_neg (by simpa using List.ne_nil_of_mem hbranch)]
  refine ⟨_, rfl, ?_⟩
  have hall := forall₂_mapWithState
    (branchOf settings owner kind (1 < (schemas.filter (!·.isNullType)).countP Schema.isInline))
    (0, survey) (schemas.filter (!·.isNullType))
  obtain ⟨i, hi, hat⟩ := List.mem_iff_getElem.mp hbranch
  have hi' := hall.length_eq ▸ hi
  obtain ⟨state, hname⟩ := hall.get hi hi'
  simp only [List.get_eq_getElem, hat] at hname
  exact List.mem_iff_getElem.mpr ⟨i, hi', hname⟩

theorem sketch?_oneOf_stubOf (settings : Settings) (owner : PojoName) (k : Keywords Schema)
    (survey : Survey) : ∃ before, (stubOf settings owner k survey).1.sketch? .oneOf
      = (branchesOf settings owner .oneOf k.oneOf before).1.map
        (⟨·, if k.oneOf.isEmpty then none else k.discriminator.map (sketchOf settings)⟩) :=
  ⟨_, rfl⟩

theorem sketch?_anyOf_stubOf (settings : Settings) (owner : PojoName) (k : Keywords Schema)
    (survey : Survey) : ∃ before, (stubOf settings owner k survey).1.sketch? .anyOf
      = (branchesOf settings owner .anyOf k.anyOf before).1.map
        (⟨·, if k.oneOf.isEmpty then k.discriminator.map (sketchOf settings) else none⟩) :=
  ⟨_, rfl⟩

/-- The schemas that a discriminator tells apart are the branches of the union it belongs to. -/
theorem mem_branches_of_dispatched {kind : UnionKind} {sketch : UnionSketch}
    (hsketch : (stubOf settings owner k survey).1.sketch? kind = some sketch)
    {discriminator : DiscriminatorSketch} (h : sketch.discriminator = some discriminator)
    (href : .ref reference ∈ k.dispatched) :
    settings.referenceName reference ∈ sketch.branches := by
  cases kind with
  | oneOf =>
    obtain ⟨before, heq⟩ := sketch?_oneOf_stubOf settings owner k survey
    obtain ⟨names, hnames, rfl⟩ := Option.map_eq_some_iff.mp (heq.symm.trans hsketch)
    obtain ⟨hone, -⟩ := Option.ite_none_left_eq_some.mp h
    rw [Keywords.dispatched, if_neg hone] at href
    obtain ⟨listed, hlisted, hmem⟩ := mem_branchesOf_of_ref href
    rwa [Option.some.inj (hnames.symm.trans hlisted)]
  | anyOf =>
    obtain ⟨before, heq⟩ := sketch?_anyOf_stubOf settings owner k survey
    obtain ⟨names, hnames, rfl⟩ := Option.map_eq_some_iff.mp (heq.symm.trans hsketch)
    obtain ⟨hone, -⟩ := Option.ite_none_right_eq_some.mp h
    rw [Keywords.dispatched, if_pos hone] at href
    obtain ⟨listed, hlisted, hmem⟩ := mem_branchesOf_of_ref href
    rwa [Option.some.inj (hnames.symm.trans hlisted)]

/-- A discriminator that tells listed schemas apart belongs to a union. -/
theorem exists_sketch_of_dispatched {keyword : DiscriminatorKeyword}
    (hkeyword : k.discriminator = some keyword) (href : .ref reference ∈ k.dispatched)
    (settings : Settings) (owner : PojoName) (survey : Survey) :
    ∃ kind sketch, (stubOf settings owner k survey).1.sketch? kind = some sketch
      ∧ sketch.discriminator = some (sketchOf settings keyword) := by
  by_cases hone : k.oneOf.isEmpty = true
  · obtain ⟨before, heq⟩ := sketch?_anyOf_stubOf settings owner k survey
    rw [Keywords.dispatched, if_pos hone] at href
    obtain ⟨names, hnames, -⟩ := mem_branchesOf_of_ref href
    refine ⟨.anyOf, _, heq.trans (by rw [hnames, Option.map_some]), ?_⟩
    rw [if_pos hone, hkeyword]
    rfl
  · obtain ⟨before, heq⟩ := sketch?_oneOf_stubOf settings owner k survey
    rw [Keywords.dispatched, if_neg hone] at href
    obtain ⟨names, hnames, -⟩ := mem_branchesOf_of_ref href
    refine ⟨.oneOf, _, heq.trans (by rw [hnames, Option.map_some]), ?_⟩
    rw [if_neg hone, hkeyword]
    rfl

end

/-- The branches of a sketched union are branches of the stub. -/
theorem mem_branchNames_of_sketch? {stub : Stub} {kind : UnionKind} {sketch : UnionSketch}
    (hsketch : stub.sketch? kind = some sketch) {name : PojoName} (hname : name ∈ sketch.branches) :
    name ∈ stub.branchNames := by
  have hbranches : stub.branchesOf kind.composition = some sketch.branches := by
    cases kind with
    | oneOf => exact Option.map_eq_some_iff.mpr ⟨sketch, hsketch, rfl⟩
    | anyOf => exact Option.map_eq_some_iff.mpr ⟨sketch, hsketch, rfl⟩
  exact ClassTable.mem_branchNames_of_branchesOf hbranches hname

/-! ## Aliases -/

namespace ClassTable

variable {table : ClassTable} {stub : Stub} {name : PojoName} {object : ObjectPojo}

/-- The name is that of a plain member, be it a reference or not. -/
def IsAlias (table : ClassTable) (name : PojoName) : Prop :=
  ∃ plain, table.lookup? name.key = some (.plain plain)

theorem IsKeyed.rounds (h : table.IsKeyed) (n : Nat) : (table.rounds n).IsKeyed := by
  induction n with
  | zero => exact h
  | succ n ih => exact ih.advance

theorem keys_rounds (table : ClassTable) (n : Nat) :
    Dictionary.keys (table.rounds n) = Dictionary.keys table := by
  rw [rounds_eq_map, Dictionary.keys, List.map_map]
  rfl

theorem pojo_mem_entries {key : String} {pojo : Pojo} (h : (key, .pojo pojo) ∈ table) :
    .pojo pojo ∈ table.entries :=
  List.mem_filterMap.mpr ⟨_, h, rfl⟩

/-- In a table with one entry for each key, nothing stands at the name of a pojo but this. -/
theorem lookup?_name_of_pojo (hkeyed : table.IsKeyed) (hnodup : (Dictionary.keys table).Nodup)
    {pojo : Pojo} (h : .pojo pojo ∈ table.entries) :
    table.lookup? pojo.name.key = some (.pojo pojo) := by
  obtain ⟨⟨key, classified⟩, hentry, hresolved⟩ := List.mem_filterMap.mp h
  have hkey := hkeyed _ hentry
  cases classified with
  | pojo p =>
    cases hresolved
    exact (Dictionary.lookup?_eq_some_iff hnodup).mpr (hkey ▸ hentry)
  | plain plain => cases hresolved
  | stub stub => cases hresolved

/-- **A name that leads to an object is the name of the object unless it is an alias.** -/
theorem key_of_lead_iff (hkeyed : table.IsKeyed) (hnodup : (Dictionary.keys table).Nodup)
    (hlead : table.lead name = .object object) :
    object.name.key = name.key ↔ ¬ table.IsAlias name := by
  constructor
  · rintro hkey ⟨plain, hplain⟩
    obtain ⟨pojo, hpojo, hbranch⟩ := exists_asBranch_of_lead hlead
    have hlookup := lookup?_name_of_pojo hkeyed hnodup hpojo
    rw [← Pojo.name_of_asBranch hbranch, hkey, hplain] at hlookup
    cases hlookup
  · intro halias
    have hnext : table.next? name.key = none := by
      rw [Option.eq_none_iff_forall_ne_some]
      intro next hnext
      obtain ⟨plain, -, hplain, -⟩ := next?_eq_some_iff.mp hnext
      exact halias ⟨plain, hplain⟩
    have hend := lead_of_endsIn ⟨[], .here hnext⟩
    rw [hlead] at hend
    cases hlookup : table.lookup? name.key with
    | none => rw [hlookup] at hend; cases hend
    | some classified =>
      cases classified with
      | stub stub => rw [hlookup] at hend; cases hend
      | plain plain => exact absurd ⟨plain, hlookup⟩ halias
      | pojo pojo =>
        have hkey := hkeyed _ (Dictionary.mem_of_lookup? hlookup)
        cases hbranch : pojo.asBranch with
        | error obstacle => simp [hlookup, Lead.ofEnd, hbranch] at hend
        | ok found =>
          simp only [hlookup, Lead.ofEnd, hbranch, Lead.object.injEq] at hend
          rw [hend, Pojo.name_of_asBranch hbranch]
          exact hkey

theorem mem_objectsAt_iff {names : List PojoName} : object ∈ table.objectsAt names
    ↔ ∃ name ∈ names, table.lead name = .object object := by
  rw [objectsAt, List.mem_filterMap]
  refine exists_congr fun name => and_congr_right fun _ => ?_
  cases table.lead name <;> simp [Lead.object?]

theorem lead_eq_of_key_eq {name other : PojoName} (h : name.key = other.key) :
    table.lead name = table.lead other := by
  rw [lead, lead, h]

/-- **A mapping to listed branches is accepted if and only if no target is an alias.** -/
theorem stray?_objectsAt_iff (hkeyed : table.IsKeyed) (hnodup : (Dictionary.keys table).Nodup)
    {names : List PojoName} (hready : ∀ name ∈ names, ∃ object, table.lead name = .object object)
    {sketch : DiscriminatorSketch} {mapping : Dictionary PojoName}
    (hmapping : sketch.mapping = some mapping)
    (hlisted : ∀ entry ∈ mapping, ∃ name ∈ names, name.key = entry.2.key) :
    sketch.stray? ((table.objectsAt names).map (·.name)) = none
      ↔ ∀ entry ∈ mapping, ¬ table.IsAlias entry.2 := by
  rw [DiscriminatorSketch.stray?_eq_none_iff hmapping]
  refine forall₂_congr fun entry hentry => ?_
  obtain ⟨name, hname, hkey⟩ := hlisted entry hentry
  obtain ⟨object, hobject⟩ := hready name hname
  constructor
  · rintro ⟨branch, hbranch, hsame⟩ ⟨plain, hplain⟩
    obtain ⟨found, hfound, rfl⟩ := List.mem_map.mp hbranch
    obtain ⟨other, -, hlead⟩ := mem_objectsAt_iff.mp hfound
    obtain ⟨pojo, hpojo, hmakes⟩ := exists_asBranch_of_lead hlead
    have hlookup := lookup?_name_of_pojo hkeyed hnodup hpojo
    rw [← Pojo.name_of_asBranch hmakes, hsame, hplain] at hlookup
    cases hlookup
  · intro halias
    have hown : ¬ table.IsAlias name := by
      rw [IsAlias, hkey]
      exact halias
    exact ⟨object.name,
      List.mem_map.mpr ⟨object, mem_objectsAt_iff.mpr ⟨name, hname, hobject⟩, rfl⟩,
      ((key_of_lead_iff hkeyed hnodup hobject).mpr hown).trans hkey⟩

end ClassTable

/-! ## Rejected mappings -/

/-- A union is reported for the first stray target of its discriminator. -/
theorem UnionSketch.mem_faults_iff {sketch : UnionSketch} {owner : PojoName}
    {objects : List ObjectPojo} {fault : Fault} : fault ∈ sketch.faults owner objects
      ↔ ∃ discriminator value target, sketch.discriminator = some discriminator
        ∧ discriminator.stray? (objects.map (·.name)) = some (value, target)
        ∧ fault = .invalidMapping owner value target := by
  rw [faults]
  cases hdiscriminator : sketch.discriminator with
  | none => simp
  | some discriminator =>
    rcases hstray : discriminator.stray? (objects.map (·.name)) with _ | ⟨value, target⟩
    · simp [hstray]
    · simp [hstray, and_assoc]

namespace ClassTable

variable {table : ClassTable} {stub : Stub} {owner : PojoName} {value : String}
  {target : PojoName}

theorem mem_unionFaults_iff {kind : UnionKind} {fault : Fault} :
    fault ∈ table.unionFaults stub kind
      ↔ ∃ sketch, stub.sketch? kind = some sketch
        ∧ fault ∈ sketch.faults stub.name (table.objectsAt sketch.branches) := by
  rw [unionFaults]
  cases stub.sketch? kind <;> simp

/-- A round reports the mapping of a stub if and only if the stub is ready and one of its unions
has a stray target. -/
theorem invalidMapping_mem_outcome_iff :
    .invalidMapping owner value target ∈ (table.outcome stub).faults
      ↔ table.IsReady stub ∧ owner = stub.name
        ∧ ∃ kind sketch discriminator, stub.sketch? kind = some sketch
          ∧ sketch.discriminator = some discriminator
          ∧ discriminator.stray? ((table.objectsAt sketch.branches).map (·.name))
            = some (value, target) := by
  by_cases hready : table.IsReady stub
  · rw [faults_outcome_of_isReady hready, faults_branchesOf, List.mem_append, List.mem_append,
      mem_unionFaults_iff, mem_unionFaults_iff]
    simp only [UnionSketch.mem_faults_iff, List.mem_map, Fault.invalidMapping.injEq, hready,
      true_and]
    constructor
    · rintro ((⟨sketch, hsketch, discriminator, _, _, hdiscriminator, hstray, rfl, rfl, rfl⟩
        | ⟨sketch, hsketch, discriminator, _, _, hdiscriminator, hstray, rfl, rfl, rfl⟩)
        | ⟨member, -, hambiguous⟩)
      · exact ⟨rfl, .oneOf, sketch, discriminator, hsketch, hdiscriminator, hstray⟩
      · exact ⟨rfl, .anyOf, sketch, discriminator, hsketch, hdiscriminator, hstray⟩
      · cases hambiguous
    · rintro ⟨rfl, kind, sketch, discriminator, hsketch, hdiscriminator, hstray⟩
      left
      cases kind with
      | oneOf =>
        exact .inl ⟨sketch, hsketch, discriminator, _, _, hdiscriminator, hstray, rfl, rfl, rfl⟩
      | anyOf =>
        exact .inr ⟨sketch, hsketch, discriminator, _, _, hdiscriminator, hstray, rfl, rfl, rfl⟩
  · simp only [hready, false_and, iff_false]
    intro hfault
    by_cases hvalid : table.invalidBranches stub = []
    · rw [outcome_of_not_isReady hready hvalid] at hfault
      cases hfault
    · rw [outcome_of_invalidBranches hvalid] at hfault
      obtain ⟨⟨kind, name⟩, -, hbranch⟩ := List.mem_filterMap.mp hfault
      obtain ⟨obstacle, -, heq⟩ := Option.map_eq_some_iff.mp hbranch
      cases heq

end ClassTable

/-- The stub is the composed type of the keywords. -/
def Stub.IsOf (settings : Settings) (k : Keywords Schema) (stub : Stub) : Prop :=
  ∃ survey, stub = (stubOf settings stub.name k survey).1

namespace ClassTable

variable {table : ClassTable} {stub : Stub}

/-- A mapping of a ready stub to listed branches is accepted if and only if no target is an
alias. -/
theorem stray?_iff_of_listsTargets {settings : Settings} {owner : PojoName}
    {k : Keywords Schema} {survey : Survey} {keyword : DiscriminatorKeyword}
    (hkeyed : table.IsKeyed) (hnodup : (Dictionary.keys table).Nodup)
    (hready : table.IsReady (stubOf settings owner k survey).1)
    (hlists : k.ListsTargets settings keyword) {kind : UnionKind} {sketch : UnionSketch}
    (hsketch : (stubOf settings owner k survey).1.sketch? kind = some sketch)
    (hdiscriminator : sketch.discriminator = some (sketchOf settings keyword)) :
    (sketchOf settings keyword).stray? ((table.objectsAt sketch.branches).map (·.name)) = none
      ↔ ∀ entry ∈ keyword.mapping, ¬ table.IsAlias (settings.referenceName entry.2) := by
  rw [stray?_objectsAt_iff hkeyed hnodup
    (fun name hname => hready name (mem_branchNames_of_sketch? hsketch hname))
    (mapping_sketchOf settings hlists.1)]
  · exact List.forall_mem_map
  · intro entry hentry
    obtain ⟨original, horiginal, rfl⟩ := List.mem_map.mp hentry
    obtain ⟨reference, href, hsame⟩ := hlists.2 original horiginal
    exact ⟨_, mem_branches_of_dispatched hsketch hdiscriminator href,
      PojoName.isSame_iff.mp hsame⟩

/-- **The mapping of a stub whose targets are all listed is reported if and only if the stub is
ready and a target is an alias.** -/
theorem invalidMapping_mem_faults_iff {settings : Settings} {owner : PojoName}
    {k : Keywords Schema} {survey : Survey} {keyword : DiscriminatorKeyword}
    (hkeyed : table.IsKeyed) (hnodup : (Dictionary.keys table).Nodup)
    (hnames : (table.stubs.map (·.name)).Nodup) (hstub : stub ∈ table.stubs)
    (hstubOf : stub = (stubOf settings owner k survey).1)
    (hkeyword : k.discriminator = some keyword) (hlists : k.ListsTargets settings keyword) :
    (∃ value target, .invalidMapping stub.name value target ∈ table.faults)
      ↔ table.IsReady stub
        ∧ ∃ entry ∈ keyword.mapping, table.IsAlias (settings.referenceName entry.2) := by
  constructor
  · rintro ⟨value, target, hfault⟩
    obtain ⟨other, hother, hfault⟩ := List.mem_flatMap.mp hfault
    obtain ⟨hready, hname, kind, sketch, discriminator, hsketch, hdiscriminator, hstray⟩ :=
      invalidMapping_mem_outcome_iff.mp hfault
    obtain rfl := List.inj_on_of_nodup_map hnames hstub hother hname
    subst hstubOf
    obtain ⟨written, hwritten, rfl⟩ := exists_keyword_of_stubOf hsketch hdiscriminator
    obtain rfl := Option.some.inj (hkeyword.symm.trans hwritten)
    refine ⟨hready, ?_⟩
    by_contra hnone
    rw [(stray?_iff_of_listsTargets hkeyed hnodup hready hlists hsketch hdiscriminator).mpr
      fun entry hentry halias => hnone ⟨entry, hentry, halias⟩] at hstray
    cases hstray
  · rintro ⟨hready, entry, hentry, halias⟩
    obtain ⟨reference, href, -⟩ := hlists.2 entry hentry
    obtain ⟨kind, sketch, hsketch, hdiscriminator⟩ :=
      exists_sketch_of_dispatched hkeyword href settings owner survey
    subst hstubOf
    rcases hstray : (sketchOf settings keyword).stray?
        ((table.objectsAt sketch.branches).map (·.name)) with _ | ⟨value, target⟩
    · have hnone := (stray?_iff_of_listsTargets hkeyed hnodup hready hlists hsketch
        hdiscriminator).mp hstray
      exact absurd halias (hnone entry hentry)
    · exact ⟨value, target, List.mem_flatMap.mpr ⟨_, hstub, invalidMapping_mem_outcome_iff.mpr
        ⟨hready, rfl, kind, sketch, _, hsketch, hdiscriminator, hstray⟩⟩⟩

end ClassTable

/-! ## Runs -/

section

variable {settings : Settings} {isLoaded : String → Bool} {documents : List Document}

/-- The stubs of a round are composed types of schemas. -/
theorem RunsRound.exists_isOf {n : Nat} {table : ClassTable}
    (h : RunsRound settings isLoaded documents n table) {stub : Stub} (hstub : stub ∈ table.stubs) :
    ∃ k, stub.IsOf settings k := by
  obtain ⟨visits, hvalid, -, rfl⟩ := h.exists_visits
  rw [ClassTable.stubs_rounds] at hstub
  obtain ⟨key, hentry⟩ := ClassTable.mem_stubs_iff.mp (List.mem_of_mem_filter hstub)
  obtain ⟨visit, hvisit, heq⟩ := List.mem_map.mp hentry
  have hvisit := hvalid visit hvisit
  rw [Visit.IsValid, (Prod.mk.inj heq).2] at hvisit
  obtain ⟨k, -, rfl⟩ := eq_stubOf_of_classify hvisit
  exact ⟨k, _, rfl⟩

/-- The table of a round has one entry for each key, that of the name of the entry. -/
theorem RunsRound.isKeyed {n : Nat} {table : ClassTable}
    (h : RunsRound settings isLoaded documents n table) :
    table.IsKeyed ∧ (Dictionary.keys table).Nodup := by
  obtain ⟨visits, hvalid, hkeys, rfl⟩ := h.exists_visits
  have hkeyed : ClassTable.IsKeyed (visits.map Visit.entry) := by
    intro entry hentry
    obtain ⟨visit, hvisit, rfl⟩ := List.mem_map.mp hentry
    exact congrArg PojoName.key (name_of_classify (hvalid visit hvisit))
  refine ⟨hkeyed.rounds n, ?_⟩
  rw [ClassTable.keys_rounds, Dictionary.keys, List.map_map]
  exact hkeys

/-- The final table of a run has one entry for each key, that of the name of the entry. -/
theorem Course.isKeyed_final (course : Course settings isLoaded documents) :
    course.final.IsKeyed ∧ (Dictionary.keys course.final).Nodup := by
  constructor
  · intro entry hentry
    obtain ⟨i, hi, rfl⟩ := List.mem_iff_getElem.mp hentry
    have hi' := course.settles.length_eq ▸ hi
    obtain ⟨hkey, hbecomes⟩ := course.settles.get hi' hi
    obtain ⟨visit, hvisit, heq⟩ := List.mem_map.mp (List.getElem_mem hi')
    simp only [List.get_eq_getElem, ← heq] at hkey hbecomes
    have hname : visit.classified.name = visit.pending.name :=
      name_of_classify (course.valid visit hvisit)
    rw [← hkey, hbecomes.name_eq]
    exact congrArg PojoName.key hname
  · rw [course.keys_final]
    exact course.nodup_keys_queue

/-- The schema ends with a union whose discriminator selects for each value the object that its
target leads to. -/
def Course.Selects (course : Course settings isLoaded documents) (set : PojoSet)
    (schema : Pending) (keyword : DiscriminatorKeyword) : Prop :=
  ∃ pojo ∈ set.pojos, pojo.name = settings.mapName schema.name
    ∧ ∃ union ∈ pojo.unions, ∃ discriminator, union.discriminator = some discriminator
      ∧ ∀ entry ∈ keyword.mapping, ∃ object,
        course.final.lead (settings.referenceName entry.2) = .object object
          ∧ discriminator.branchFor entry.1 = .ok (settings.mapName object.name)

/-- A value selects the branch that its target leads to, if it leads there under its own name. -/
theorem Course.branchFor_of_dispatches {course : Course settings isLoaded documents}
    {keyword : DiscriminatorKeyword} {names : List PojoName}
    {union : Alternatives ObjectPojo Discriminator} {discriminator : Discriminator}
    (hdispatches : Alternatives.Dispatches settings keyword
      ((course.final.objectsAt names).map (·.name)) union discriminator)
    (hvalues : (Dictionary.keys keyword.mapping).Nodup) {entry : String × String}
    (hentry : entry ∈ keyword.mapping) {object : ObjectPojo}
    (hobject : object ∈ course.final.objectsAt names)
    (hkey : object.name.key = (settings.referenceName entry.2).key) :
    discriminator.branchFor entry.1 = .ok (settings.mapName object.name) := by
  have hselected := hdispatches.of_mapping (List.ne_nil_of_mem hentry) entry.1
  rw [(Dictionary.lookup?_eq_some_iff hvalues).mpr hentry] at hselected
  obtain ⟨name, hname, hsame, hselects⟩ := hselected
  have heq : object.name = name := (course.areDistinct_objectsAt names).key _
    (List.mem_map_of_mem hobject) _ hname (hkey.trans (PojoName.isSame_iff.mp hsame).symm)
  rw [heq]
  exact hselects

/-- **Where a run succeeds, no target that is listed is an alias**, and each value selects what its
target leads to. -/
theorem Course.selects_of_listsTargets {course : Course settings isLoaded documents}
    (hdistinct : ∀ document ∈ documents, document.HasDistinctValues) {set : PojoSet}
    (hmakes : course.Makes set) {visit : Visit} (hvisit : visit ∈ course.visits) {stub : Stub}
    (hclassified : visit.classified = .stub stub) {k : Keywords Schema}
    (hschema : visit.pending.schema = .inline k) {keyword : DiscriminatorKeyword}
    (hkeyword : k.discriminator = some keyword) (hlists : k.ListsTargets settings keyword) :
    (∀ entry ∈ keyword.mapping, ¬ course.final.IsAlias (settings.referenceName entry.2))
      ∧ course.Selects set visit.pending keyword := by
  obtain ⟨hkeyed, hnodup⟩ := course.isKeyed_final
  have hvalid : classify settings visit.pending visit.registry
      = .ok (visit.classified, visit.survey) := course.valid visit hvisit
  rw [hclassified] at hvalid
  obtain ⟨k', hschema', rfl⟩ := eq_stubOf_of_classify hvalid
  obtain rfl : k' = k := Schema.inline.inj (hschema'.symm.trans hschema)
  obtain ⟨after, hafter, hbecomes⟩ := course.exists_becomes hvisit
  rw [hclassified] at hbecomes
  cases hbecomes with
  | stub hready hresolve =>
    obtain ⟨hfaults, rfl⟩ := ClassTable.resolve_eq_ok_iff.mp hresolve
    obtain ⟨first, hfirst⟩ := List.exists_mem_of_ne_nil _ hlists.1
    obtain ⟨reference, href, -⟩ := hlists.2 first hfirst
    obtain ⟨kind, sketch, hsketch, hdiscriminator⟩ :=
      exists_sketch_of_dispatched hkeyword href settings visit.pending.name
        { registry := visit.registry }
    have hstray := UnionSketch.faults_eq_nil_iff.mp
      (ClassTable.faults_of_sketch? hsketch hfaults) _ hdiscriminator
    have haliases := (ClassTable.stray?_iff_of_listsTargets hkeyed hnodup hready hlists hsketch
      hdiscriminator).mp hstray
    have hdispatches := course.dispatches_sketch hdistinct hvisit hschema hkeyword hfaults hsketch
      hdiscriminator
    have hvalues : (Dictionary.keys keyword.mapping).Nodup := by
      have heverywhere := course.everywhere hdistinct visit hvisit
      rw [hschema] at heverywhere
      exact heverywhere.here keyword hkeyword
    have hunion : sketch.resolve (course.final.objectsAt sketch.branches) ∈ Pojo.unions _ :=
      ClassTable.mem_unions_toPojo_iff.mpr ⟨kind, sketch, hsketch, rfl⟩
    have hrevised := List.mem_map_of_mem (f := Alternatives.revise course.revision) hunion
    rw [← Pojo.unions_revise] at hrevised
    refine ⟨haliases, _, hmakes.revise_mem (ClassTable.pojo_mem_entries hafter), ?_,
      _, hrevised, _, by rw [UnionSketch.resolve, hdiscriminator]; rfl, ?_⟩
    · rw [Pojo.name_revise, course.name_revision, Stub.name_toPojo]
      rfl
    · intro entry hentry
      obtain ⟨listed, hlisted, hsame⟩ := hlists.2 entry hentry
      have hbranch := mem_branches_of_dispatched hsketch hdiscriminator hlisted
      obtain ⟨object, hobject⟩ := hready _ (mem_branchNames_of_sketch? hsketch hbranch)
      have hlead := hobject
      rw [ClassTable.lead_eq_of_key_eq (PojoName.isSame_iff.mp hsame)] at hlead
      exact ⟨object, hlead, Course.branchFor_of_dispatches hdispatches hvalues hentry
        (ClassTable.mem_objectsAt_iff.mpr ⟨_, hbranch, hobject⟩)
        ((ClassTable.key_of_lead_iff hkeyed hnodup hlead).mpr (haliases entry hentry))⟩

/-- **Which mappings to listed branches are accepted.** Take a discriminator that maps values to
nothing but schemas that the union it belongs to lists by reference. In a round of a run, its
mapping is reported if and only if all branches are there and some target is an alias; the run
fails then, with all that the round reports. In a run that succeeds no target is an alias, and each
value selects, in the final set, the object that its target leads to. -/
theorem listed_targets_accepted_iff
    (hdistinct : ∀ document ∈ documents, document.HasDistinctValues) :
    (∀ n table, RunsRound settings isLoaded documents n table → ∀ stub ∈ table.stubs,
      (∃ k, stub.IsOf settings k)
        ∧ ∀ k, stub.IsOf settings k → ∀ keyword, k.discriminator = some keyword →
          k.ListsTargets settings keyword →
          ((∃ value target, .invalidMapping stub.name value target ∈ table.faults)
            ↔ table.IsReady stub
              ∧ ∃ entry ∈ keyword.mapping, table.IsAlias (settings.referenceName entry.2))
          ∧ (table.IsReady stub →
            (∃ entry ∈ keyword.mapping, table.IsAlias (settings.referenceName entry.2)) →
              ∃ failure, (mapDocuments settings isLoaded documents).2 = .error (.failure failure)
                ∧ failure.faults = table.faults))
    ∧ ∀ set, (mapDocuments settings isLoaded documents).2 = .ok set →
      ∃ course : Course settings isLoaded documents, course.Makes set
        ∧ ∀ visit ∈ course.visits, ∀ stub, visit.classified = .stub stub →
          ∀ k, visit.pending.schema = .inline k → ∀ keyword, k.discriminator = some keyword →
            k.ListsTargets settings keyword →
              (∀ entry ∈ keyword.mapping,
                ¬ course.final.IsAlias (settings.referenceName entry.2))
              ∧ course.Selects set visit.pending keyword := by
  constructor
  · intro n table hround stub hstub
    obtain ⟨hkeyed, hnodup⟩ := hround.isKeyed
    refine ⟨hround.exists_isOf hstub, fun k ⟨survey, hisOf⟩ keyword hkeyword hlists => ?_⟩
    have hiff := ClassTable.invalidMapping_mem_faults_iff hkeyed hnodup hround.nodup_names_stubs
      hstub hisOf hkeyword hlists
    refine ⟨hiff, fun hready halias => ?_⟩
    obtain ⟨value, target, hfault⟩ := hiff.mpr ⟨hready, halias⟩
    exact (hround.mapDocuments_eq (List.ne_nil_of_mem hfault)).2
  · intro set h
    obtain ⟨course, hmakes⟩ := exists_course h
    exact ⟨course, hmakes, fun visit hvisit stub hclassified k hschema keyword hkeyword hlists =>
      Course.selects_of_listsTargets hdistinct hmakes hvisit hclassified hschema hkeyword hlists⟩

end

/-- Pets, which are cats or hounds. One value tells them apart, by the given target. -/
def petsBy (target : String) : Keywords Schema where
  oneOf := [.ref "#/components/schemas/Cat", .ref "#/components/schemas/Hound"]
  discriminator := some ⟨"kind", [("pet", target)]⟩

/-- Cats, dogs, hounds, which are but another word for dogs, and pets. -/
def hounds (target : String) : Document :=
  .ofSchemas
    [("Cat", .inline { properties := [("name", .inline { types := some (.single .string) })] }),
      ("Dog", .inline { properties := [("name", .inline { types := some (.single .string) })] }),
      ("Hound", .ref "#/components/schemas/Dog"),
      ("Pet", .inline (petsBy target))]

/-- The table before the first round of a run over hounds. -/
def houndTable (target : String) : ClassTable :=
  let roots := claimRoots {} (includedSchemas ⟨[]⟩ [hounds target])
  (Sweep.run {} roots.registry roots.pending).table

theorem hasDistinctValues_hounds (target : String) :
    ∀ document ∈ [hounds target], document.HasDistinctValues := by
  intro document hdocument entry hentry
  obtain rfl := List.mem_singleton.mp hdocument
  have hname : Schema.Everywhere Keywords.HasDistinctValues
      (.inline { properties := [("name", .inline { types := some (.single .string) })] }) := by
    refine Schema.Everywhere.inline_iff.mpr ⟨nofun, fun child hchild => ?_⟩
    obtain rfl := List.mem_singleton.mp hchild
    exact .ofFacets nofun
  simp only [Document.schemas, hounds, Document.ofSchemas, List.mem_cons, List.not_mem_nil,
    or_false] at hentry
  rcases hentry with rfl | rfl | rfl | rfl
  · exact hname
  · exact hname
  · exact .ref _
  · refine Schema.Everywhere.inline_iff.mpr ⟨?_, fun child hchild => ?_⟩
    · rintro keyword ⟨⟩
      exact List.nodup_singleton _
    · rcases List.mem_pair.mp hchild with rfl | rfl <;> exact .ref _

theorem runsRound_hounds : RunsRound {} (fun _ => false) [hounds "#/components/schemas/Hound"] 0
    (houndTable "#/components/schemas/Hound") where
  sweeps := ⟨⟨[]⟩, rfl, by decide +kernel, _, rfl, by decide +kernel, _, rfl, by decide +kernel,
    rfl, fun m hm => absurd hm m.not_lt_zero⟩
  stubs_ne_nil := by decide +kernel

theorem listsTargets_petsBy {target : String} (h : .ref target ∈ (petsBy target).oneOf) :
    (petsBy target).ListsTargets {} ⟨"kind", [("pet", target)]⟩ := by
  refine ⟨nofun, fun entry hentry => ?_⟩
  obtain rfl := List.mem_singleton.mp hentry
  exact ⟨target, h, PojoName.isSame_iff.mpr rfl⟩

/-- A value mapped to hounds is reported, and a value mapped to cats selects them. -/
theorem listed_targets_accepted_iff_hounds :
    (∃ value target, .invalidMapping ⟨"Pet", ""⟩ value target
        ∈ (houndTable "#/components/schemas/Hound").faults)
      ∧ ∃ set, (mapDocuments {} (fun _ => false) [hounds "#/components/schemas/Cat"]).2 = .ok set
        ∧ ∃ course : Course {} (fun _ => false) [hounds "#/components/schemas/Cat"],
          course.Selects set ⟨⟨"Pet", ""⟩, .inline (petsBy "#/components/schemas/Cat")⟩
            ⟨"kind", [("pet", "#/components/schemas/Cat")]⟩ := by
  constructor
  · obtain ⟨stub, hstub, hchecked⟩ := List.any_eq_true.mp
      (show ((houndTable "#/components/schemas/Hound").stubs.any fun stub =>
        decide (stub = (stubOf {} ⟨"Pet", ""⟩ (petsBy "#/components/schemas/Hound")
            { registry := {} }).1)
          && ((houndTable "#/components/schemas/Hound").invalidBranches stub).isEmpty
          && ((houndTable "#/components/schemas/Hound").missing stub).isEmpty) = true
        by decide +kernel)
    simp only [Bool.and_eq_true, decide_eq_true_iff, List.isEmpty_iff] at hchecked
    obtain ⟨⟨rfl, hvalid⟩, hmissing⟩ := hchecked
    have hready := ClassTable.isReady_iff.mpr ⟨hvalid, hmissing⟩
    have hplain : ((houndTable "#/components/schemas/Hound").lookup?
        (Settings.referenceName {} "#/components/schemas/Hound").key).any
          (·.kind == "plain member") = true := by decide +kernel
    have halias : (houndTable "#/components/schemas/Hound").IsAlias
        (Settings.referenceName {} "#/components/schemas/Hound") := by
      cases hlookup : (houndTable "#/components/schemas/Hound").lookup?
          (Settings.referenceName {} "#/components/schemas/Hound").key with
      | none => rw [hlookup] at hplain; cases hplain
      | some classified =>
        rw [hlookup] at hplain
        cases classified with
        | plain plain => exact ⟨plain, hlookup⟩
        | stub stub => cases hplain
        | pojo pojo => cases pojo <;> cases hplain
    obtain ⟨-, hiff⟩ := (listed_targets_accepted_iff
      (hasDistinctValues_hounds "#/components/schemas/Hound")).1 0 _ runsRound_hounds _ hstub
    exact (hiff _ ⟨_, rfl⟩ _ rfl (listsTargets_petsBy (by simp [petsBy]))).1.mpr
      ⟨hready, _, List.mem_singleton_self _, halias⟩
  · obtain ⟨set, hset, -⟩ := exists_ok_of_any_toOption
      (show ((mapDocuments {} (fun _ => false)
        [hounds "#/components/schemas/Cat"]).2.toOption.any fun _ => true) = true
        by decide +kernel)
    obtain ⟨course, hmakes, hselects⟩ := (listed_targets_accepted_iff
      (hasDistinctValues_hounds "#/components/schemas/Cat")).2 set hset
    have hroot : (⟨⟨"Pet", ""⟩, .inline (petsBy "#/components/schemas/Cat")⟩ : Pending)
        ∈ course.roots := by
      refine Course.mem_roots_iff.mpr ⟨_, List.mem_singleton_self _, ?_⟩
      rw [course.exclusion_eq rfl, Document.declared_of_nil]
      exact List.mem_of_getElem? (i := 3) rfl
    have hqueue := List.mem_append_left course.found hroot
    rw [← Course.queue_eq_append] at hqueue
    obtain ⟨visit, hvisit, hpending⟩ := List.mem_map.mp hqueue
    have hvalid : classify {} visit.pending visit.registry = .ok (visit.classified, visit.survey) :=
      course.valid visit hvisit
    have hcomposed : classify {} ⟨⟨"Pet", ""⟩, .inline (petsBy "#/components/schemas/Cat")⟩
        visit.registry = .ok (.stub _, _) := rfl
    rw [hpending, hcomposed] at hvalid
    obtain ⟨hclassified, -⟩ := Prod.mk.inj (Except.ok.inj hvalid)
    obtain ⟨-, hselected⟩ := hselects visit hvisit _ hclassified.symm _ (by rw [hpending]) _ rfl
      (listsTargets_petsBy (by simp [petsBy]))
    exact ⟨set, hset, course, hpending ▸ hselected⟩

/-- **A listed branch is rejected**: hounds are a branch of pets, and lead to dogs, but a value that
is mapped to hounds is said to be mapped to no branch. -/
theorem listed_alias_rejected :
    RunsRound {} (fun _ => false) [hounds "#/components/schemas/Hound"] 0
        (houndTable "#/components/schemas/Hound")
      ∧ (petsBy "#/components/schemas/Hound").ListsTargets {}
        ⟨"kind", [("pet", "#/components/schemas/Hound")]⟩
      ∧ (∃ object, (houndTable "#/components/schemas/Hound").lead ⟨"Hound", ""⟩ = .object object
        ∧ object.name = ⟨"Dog", ""⟩)
      ∧ ∃ failure, (mapDocuments {} (fun _ => false) [hounds "#/components/schemas/Hound"]).2
          = .error (.failure failure)
        ∧ failure.faults = [.invalidMapping ⟨"Pet", ""⟩ "pet" ⟨"Hound", ""⟩] := by
  have hfaults : (houndTable "#/components/schemas/Hound").faults
      = [.invalidMapping ⟨"Pet", ""⟩ "pet" ⟨"Hound", ""⟩] := by decide +kernel
  refine ⟨runsRound_hounds, listsTargets_petsBy (by simp [petsBy]), ?_, ?_⟩
  · have hdog : ((houndTable "#/components/schemas/Hound").lead ⟨"Hound", ""⟩).object?.any
        (·.name == ⟨"Dog", ""⟩) = true := by decide +kernel
    cases hlead : (houndTable "#/components/schemas/Hound").lead ⟨"Hound", ""⟩ with
    | object object =>
      rw [hlead] at hdog
      exact ⟨object, rfl, by simpa [Lead.object?] using hdog⟩
    | waiting => rw [hlead] at hdog; cases hdog
    | invalid obstacle => rw [hlead] at hdog; cases hdog
  · obtain ⟨-, failure, hfailure, heq⟩ :=
      runsRound_hounds.mapDocuments_eq (by rw [hfaults]; exact List.cons_ne_nil _ _)
    exact ⟨failure, hfailure, heq.trans hfaults⟩

end PojoGraph
