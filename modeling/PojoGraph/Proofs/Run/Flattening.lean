import PojoGraph.Proofs.PojoSet.Revisions
import PojoGraph.Proofs.Resolution.Ambiguity
import PojoGraph.Proofs.Run.Outcome
import PojoGraph.Proofs.Run.Properties

/-!
# Flat lists of members

An object has the members of its `allOf` branches in front of those that its schema declares.
They are copied when the object is resolved; since one revision makes the final set of all that
has been resolved, the copies stay what the members of the branches become. Members that would
repeat a name end the run in the round in which the branches are there.

## Main definitions

* `ObjectPojo.Follows`, `ObjectPojo.Flattens` — what an object has from its schema; its members are
  those of its branches and its own.
* `Course.revision` — what becomes of resolved types in the final set.
* `RunsRound` — a run gets as far as a round of resolution.

## Main statements

* `Course.flattens_of_mem_entries` — resolved objects are flat.
* `Course.flattens_of_mem_pojos` — final objects are flat.
* `RunsRound.mapDocuments_eq` — a round that reports something ends the run.
* `members_flatten_allOf` — final objects are flat, and repeated members are reported.
-/

namespace PojoGraph

/-! ## Flat objects -/

/-- The object comes from the schema by a revision: its members are those of its `allOf`
branches, in their order, followed by those of the properties that the schema declares. -/
def ObjectPojo.Flattens (settings : Settings) (schema : Pending) (r : Revision)
    (object : ObjectPojo) : Prop :=
  object.name = r.name schema.name
    ∧ ∃ k declared, schema.schema = .inline k ∧ k.Declares settings schema.name declared
      ∧ object.members = (object.allOf.getD []).flatMap (·.members) ++ declared.map r.member

theorem ObjectPojo.Flattens.revise {settings : Settings} {schema : Pending} {r : Revision}
    {object : ObjectPojo} (h : object.Flattens settings schema r) (s : Revision) :
    (object.revise s).Flattens settings schema (r.andThen s) := by
  obtain ⟨hname, k, declared, hschema, hdeclares, hmembers⟩ := h
  have hall : (object.revise s).allOf = object.allOf.map (·.map (ObjectPojo.revise s)) := by
    rw [revise_eq]
  refine ⟨by rw [name_revise, hname]; rfl, k, declared, hschema, hdeclares, ?_⟩
  rw [members_revise, hmembers, hall]
  cases object.allOf with
  | none => simp [Revision.andThen]
  | some branches => simp [Revision.andThen, List.flatMap_map, List.map_flatMap]

/-- The members of a resolved stub are flat. -/
theorem Stub.members_toObject (stub : Stub) (branches : Branches) :
    (stub.toObject branches).members
      = ((stub.toObject branches).allOf.getD []).flatMap (·.members) ++ stub.members := by
  rw [toObject, allMembers]
  rcases branches.allOf with _ | _ | ⟨first, rest⟩ <;> simp [Option.filter]

/-- A stub that becomes an object becomes the one with its branches. -/
theorem Stub.eq_toObject_of_toPojo {stub : Stub} {branches : Branches} {object : ObjectPojo}
    (h : stub.toPojo branches = .object object) : object = stub.toObject branches := by
  rw [toPojo] at h
  split at h
  · cases h
  · cases h
  · exact (Pojo.object.inj h).symm

/-- The object is what the keywords of the schema say, in the names of the members of its branches
and in all that concerns its own. -/
structure ObjectPojo.Follows (settings : Settings) (schema : Pending) (k : Keywords Schema)
    (object : ObjectPojo) : Prop where
  schema_eq : schema.schema = .inline k
  name : object.name = schema.name
  /-- The members of the branches stand before those of the declared properties. -/
  members : ∃ declared, k.Declares settings schema.name declared
    ∧ object.members = (object.allOf.getD []).flatMap (·.members) ++ declared
  requiredAdditional : object.requiredAdditional = k.requiredAdditional
  additional : ∃ survey, object.additional = (additionalOf settings schema.name k survey).1
  nodup : (Dictionary.keys k.properties).Nodup → (object.members.map (·.name)).Nodup

theorem ObjectPojo.Follows.flattens {settings : Settings} {schema : Pending}
    {k : Keywords Schema} {object : ObjectPojo} (h : object.Follows settings schema k) :
    object.Flattens settings schema (.rename id) := by
  obtain ⟨declared, hdeclares, hmembers⟩ := h.members
  have hid : declared.map (Revision.rename id).member = declared :=
    (List.map_congr_left fun member _ => member.rename_id).trans (List.map_id' declared)
  exact ⟨h.name, k, declared, h.schema_eq, hdeclares, by rw [hmembers, hid]⟩

namespace Course

variable {settings : Settings} {isLoaded : String → Bool} {documents : List Document}
  (course : Course settings isLoaded documents)

/-- **What a resolved object is.** Its members are flat, and it says of further properties what its
schema says. -/
theorem exists_follows_of_mem_entries {object : ObjectPojo}
    (h : .pojo (.object object) ∈ course.final.entries) :
    ∃ visit ∈ course.visits, ∃ k, object.Follows settings visit.pending k := by
  obtain ⟨visit, hvisit, hbecomes⟩ := course.exists_becomes_of_mem h
  refine ⟨visit, hvisit, ?_⟩
  have hvalid := course.valid visit hvisit
  obtain ⟨pending, registry, classified, survey⟩ := visit
  change classify settings pending registry = .ok (classified, survey) at hvalid
  cases hbecomes with
  | pojo =>
    obtain ⟨k, hschema, rfl⟩ := eq_objectOf_of_classify hvalid
    have hdeclares : k.Declares settings pending.name
        (membersOf settings pending.name k { registry }).1 := declares_membersOf _
    exact ⟨k, hschema, rfl, ⟨_, hdeclares, rfl⟩, rfl, ⟨_, rfl⟩,
      fun hkeys => hdeclares.names ▸ hkeys⟩
  | @stub stub _ hready hresolve =>
    obtain ⟨k, hschema, rfl⟩ := eq_stubOf_of_classify hvalid
    obtain ⟨hfaults, hpojo⟩ := ClassTable.resolve_eq_ok_iff.mp hresolve
    obtain rfl := Stub.eq_toObject_of_toPojo hpojo.symm
    exact ⟨k, hschema, rfl, ⟨_, declares_membersOf _, Stub.members_toObject _ _⟩, rfl, ⟨_, rfl⟩,
      fun _ => Stub.nodup_candidates_of_faults hfaults⟩

/-- **Resolved objects are flat**, and have members of different names if schemas have different
properties. -/
theorem flattens_of_mem_entries (hdistinct : ∀ document ∈ documents,
    document.HasDistinctProperties) {object : ObjectPojo}
    (h : .pojo (.object object) ∈ course.final.entries) :
    (object.members.map (·.name)).Nodup
      ∧ ∃ schema ∈ course.queue, object.Flattens settings schema (.rename id) := by
  obtain ⟨visit, hvisit, k, hfollows⟩ := course.exists_follows_of_mem_entries h
  have hproperties := course.hasDistinctProperties hdistinct _ hvisit
  rw [hfollows.schema_eq] at hproperties
  exact ⟨hfollows.nodup hproperties.nodup, visit.pending, List.mem_map_of_mem hvisit,
    hfollows.flattens⟩

/-- What becomes, in the final set, of the types that have been resolved. -/
def revision : Revision :=
  .ofEntries settings course.final.entries

variable {course} {set : PojoSet}

theorem Makes.pojos_eq_revise (h : course.Makes set) :
    set.pojos = (keptPojos settings.referenceInlining course.final.entries).map
      (Pojo.revise course.revision) := by
  rw [h.pojos, revision, ← pojos_ofEntries settings course.exclusion]
  rfl

/-- **The objects of the final set are flat.** -/
theorem flattens_of_mem_pojos (hdistinct : ∀ document ∈ documents,
    document.HasDistinctProperties) (h : course.Makes set) {object : ObjectPojo}
    (hobject : .object object ∈ set.pojos) :
    (object.members.map (·.name)).Nodup
      ∧ ∃ schema ∈ course.queue, object.Flattens settings schema course.revision := by
  rw [h.pojos_eq_revise] at hobject
  obtain ⟨pojo, hpojo, hrevised⟩ := List.mem_map.mp hobject
  cases pojo with
  | object original =>
    obtain rfl := Pojo.object.inj hrevised
    obtain ⟨hnodup, schema, hschema, hflat⟩ :=
      course.flattens_of_mem_entries hdistinct (mem_entries_of_mem_keptPojos hpojo)
    have hrevised := hflat.revise course.revision
    rw [Revision.rename_id_andThen] at hrevised
    refine ⟨?_, schema, hschema, hrevised⟩
    have hnames : (fun member : Member => member.name) ∘ course.revision.member = (·.name) := by
      funext member
      exact (Revision.keepsMembers_ofEntries settings course.final.entries member).1
    rw [ObjectPojo.members_revise, List.map_map, hnames]
    exact hnodup
  | _ => cases hrevised

end Course

/-! ## Rounds of a run -/

/-- The stubs that visits give have names of the visited schemas, in their order. -/
theorem Visit.names_stubs_sublist {settings : Settings} {visits : List Visit}
    (h : ∀ visit ∈ visits, visit.IsValid settings) :
    List.Sublist ((ClassTable.stubs (visits.map Visit.entry)).map (·.name))
      (visits.map (·.pending.name)) := by
  induction visits with
  | nil => exact .slnil
  | cons visit rest ih =>
    have hrest := ih fun other hother => h other (List.mem_cons_of_mem _ hother)
    have hname : visit.classified.name = visit.pending.name :=
      name_of_classify (h visit List.mem_cons_self)
    cases hclassified : visit.classified with
    | stub stub =>
      rw [hclassified] at hname
      have hstubs : ClassTable.stubs ((visit :: rest).map Visit.entry)
          = stub :: ClassTable.stubs (rest.map Visit.entry) := by
        simp [ClassTable.stubs, Visit.entry, hclassified, ClassTable.stub?]
      rw [hstubs, List.map_cons, List.map_cons, ← hname]
      exact hrest.cons_cons _
    | _ =>
      have hstubs : ClassTable.stubs ((visit :: rest).map Visit.entry)
          = ClassTable.stubs (rest.map Visit.entry) := by
        simp [ClassTable.stubs, Visit.entry, hclassified, ClassTable.stub?]
      rw [hstubs, List.map_cons]
      exact hrest.cons _

/-- The run has a round of resolution after `n` others, with the given table before it: all checks
up to then have passed, and there are stubs left. -/
structure RunsRound (settings : Settings) (isLoaded : String → Bool) (documents : List Document)
    (n : Nat) (table : ClassTable) : Prop where
  sweeps : ∃ exclusion, Exclusion.ofPatterns settings.excludedSchemas = .ok exclusion
    ∧ unloadedReferences isLoaded (includedSchemas exclusion documents) = []
    ∧ ∃ roots, roots = claimRoots settings (includedSchemas exclusion documents)
      ∧ roots.faults = [] ∧ ∃ sweep, sweep = Sweep.run settings roots.registry roots.pending
        ∧ sweep.allFaults = [] ∧ table = sweep.table.rounds n
        ∧ ∀ m < n, (sweep.table.rounds m).verdict? = none
  stubs_ne_nil : table.stubs ≠ []

namespace RunsRound

variable {settings : Settings} {isLoaded : String → Bool} {documents : List Document} {n : Nat}
  {table : ClassTable}

/-- **A round that reports something ends the run**, which fails with all that the round
reports. -/
theorem mapDocuments_eq (h : RunsRound settings isLoaded documents n table)
    (hfaults : table.faults ≠ []) :
    (mapDocuments settings isLoaded documents).1.getLast?
        = some (.round (n + 1) table.stubs.length)
      ∧ ∃ failure, (mapDocuments settings isLoaded documents).2 = .error (.failure failure)
        ∧ failure.faults = table.faults := by
  obtain ⟨⟨exclusion, hexclusion, hloaded, roots, hroots, hclaimed, sweep, hsweep, hclean, rfl,
    hbefore⟩, hstubs⟩ := h
  obtain ⟨failure, hfailure⟩ : ∃ failure : Failure,
      failure.faults = (sweep.table.rounds n).faults := by
    obtain ⟨first, others, hcons⟩ := List.exists_cons_of_ne_nil hfaults
    exact ⟨⟨first, others⟩, hcons.symm⟩
  obtain ⟨lines, hsettle⟩ := ClassTable.settle_rounds 0 hbefore
  rw [ClassTable.settle_of_faults hstubs hfailure, Nat.zero_add] at hsettle
  have hrun : mapDocuments settings isLoaded documents
      = (sweep.log ++ (lines ++ [.round (n + 1) (sweep.table.rounds n).stubs.length]),
        .error (.failure failure)) := by
    rw [mapDocuments, hexclusion]
    simp only [hloaded, ← hroots, hclaimed, mapPending, resolve, ← hsweep, hclean, hsettle]
    rfl
  rw [hrun, ← List.append_assoc, List.getLast?_concat]
  exact ⟨rfl, failure, rfl, hfailure⟩

/-- The table of a round is the one that visits of different names have given, after the rounds
before. -/
theorem exists_visits (h : RunsRound settings isLoaded documents n table) :
    ∃ visits : List Visit, (∀ visit ∈ visits, visit.IsValid settings)
      ∧ (visits.map (·.pending.name.key)).Nodup
      ∧ table = ClassTable.rounds (visits.map Visit.entry) n := by
  obtain ⟨⟨exclusion, -, -, roots, hroots, hclaimed, sweep, hsweep, hclean, rfl, -⟩, -⟩ := h
  have haccepts : roots.Accepts settings (includedSchemas exclusion documents) := by
    rw [hroots] at hclaimed ⊢
    exact accepts_claimRoots hclaimed
  have hbegin : Sweep.Accounts settings roots.pending [] []
      { pending := roots.pending, registry := roots.registry } := by
    rw [haccepts.registry, ← haccepts.pending]
    exact Sweep.accounts_ofPending settings (haccepts.pending ▸ haccepts.nodup)
  obtain ⟨hfaults, -⟩ := Sweep.allFaults_eq_nil_iff.mp hclean
  rw [hsweep] at hfaults
  obtain ⟨visits, -, haccounts⟩ := hbegin.after _ hfaults
  have htable : sweep.table = visits.map Visit.entry := hsweep ▸ haccounts.table
  have hkeys : (visits.map (·.pending.name.key)).Nodup := by
    have hall := haccounts.nodup
    rw [List.map_append, List.map_map] at hall
    exact (List.nodup_append.mp hall).1
  exact ⟨visits, haccounts.valid, hkeys, by rw [htable]⟩

/-- The stubs of a round have different names. -/
theorem nodup_names_stubs (h : RunsRound settings isLoaded documents n table) :
    (table.stubs.map (·.name)).Nodup := by
  obtain ⟨visits, hvalid, hkeys, rfl⟩ := h.exists_visits
  have hnames : (visits.map (·.pending.name)).Nodup := by
    have hmap : visits.map (·.pending.name.key)
        = (visits.map (·.pending.name)).map PojoName.key := by simp
    exact (hmap ▸ hkeys).of_map _
  have hsublist : List.Sublist
      ((ClassTable.rounds (visits.map Visit.entry) n).stubs.map (·.name))
      ((ClassTable.stubs (visits.map Visit.entry)).map (·.name)) := by
    rw [ClassTable.stubs_rounds]
    exact List.filter_sublist.map _
  exact (hsublist.trans (Visit.names_stubs_sublist hvalid)).nodup hnames

end RunsRound

/-! ## The result -/

section

variable {settings : Settings} {isLoaded : String → Bool} {documents : List Document}

/-- **Members are flat lists.** In a run that succeeds, over documents in which no schema declares
a property twice, each object of the final set, at any depth, has members of different names; if
it has `allOf` branches, its members are those of the branches as they are in the final set, in
their order, followed by those of the properties that its schema declares, in theirs. And if in
some round of a run all branches of a stub are there, and the members of the branches and its own
repeat a name, the run fails in that round. Among the faults reported there is one for each of
them that repeats an earlier one. -/
theorem members_flatten_allOf
    (hdistinct : ∀ document ∈ documents, document.HasDistinctProperties) :
    (∀ set, (mapDocuments settings isLoaded documents).2 = .ok set →
      ∃ course : Course settings isLoaded documents, course.Makes set
        ∧ course.revision.KeepsMembers
        ∧ ∀ pojo ∈ set.pojos, ∀ object, pojo = .object object ∨ pojo.Embeds object →
          (object.members.map (·.name)).Nodup
            ∧ ∀ branches, object.allOf = some branches →
              ∃ schema ∈ course.queue, ∃ k declared, schema.schema = .inline k
                ∧ object.name = course.revision.name schema.name
                ∧ k.Declares settings schema.name declared
                ∧ object.members
                  = branches.flatMap (·.members) ++ declared.map course.revision.member)
    ∧ ∀ n table, RunsRound settings isLoaded documents n table →
      ∀ stub ∈ table.stubs, table.IsReady stub →
        ¬ (stub.candidates (table.branchesOf stub)).Nodup →
          (mapDocuments settings isLoaded documents).1.getLast?
              = some (.round (n + 1) table.stubs.length)
            ∧ ∃ failure, (mapDocuments settings isLoaded documents).2 = .error (.failure failure)
              ∧ failure.faults.filterMap (Fault.ambiguous? stub.name)
                = repeated (stub.candidates (table.branchesOf stub)) := by
  constructor
  · intro set h
    obtain ⟨course, hmakes⟩ := exists_course h
    refine ⟨course, hmakes, Revision.keepsMembers_ofEntries _ _, ?_⟩
    have htop : ∀ object, .object object ∈ set.pojos →
        (object.members.map (·.name)).Nodup
          ∧ ∀ branches, object.allOf = some branches →
            ∃ schema ∈ course.queue, ∃ k declared, schema.schema = .inline k
              ∧ object.name = course.revision.name schema.name
              ∧ k.Declares settings schema.name declared
              ∧ object.members
                = branches.flatMap (·.members) ++ declared.map course.revision.member := by
      intro object hobject
      obtain ⟨hnodup, schema, hschema, hname, k, declared, hinline, hdeclares, hmembers⟩ :=
        Course.flattens_of_mem_pojos hdistinct hmakes hobject
      refine ⟨hnodup, fun branches hbranches => ?_⟩
      rw [hbranches] at hmembers
      exact ⟨schema, hschema, k, declared, hinline, hname, hdeclares, hmembers⟩
    rintro pojo hpojo object (rfl | hembeds)
    · exact htop object hpojo
    -- What is embedded is a copy of a type of the set, or stands for one without members.
    · obtain ⟨top, hmem, hbranch⟩ :=
        (copiesAgree_mapDocuments h).exists_asBranch hpojo hembeds
      rcases Pojo.eq_object_or_of_asBranch hbranch with rfl | ⟨hmembers, hnone⟩
      · exact htop object hmem
      · refine ⟨by rw [hmembers]; exact List.nodup_nil, fun branches hbranches => ?_⟩
        rw [hnone] at hbranches
        cases hbranches
  · intro n table hround stub hstub hready hrepeats
    obtain ⟨hlog, failure, hfailure, hfaults⟩ :=
      hround.mapDocuments_eq (ClassTable.faults_ne_nil_of_candidates hstub hready hrepeats)
    refine ⟨hlog, failure, hfailure, ?_⟩
    rw [hfaults]
    exact ClassTable.ambiguous_faults hround.nodup_names_stubs hstub hready

end

/-- Pets with a name, and cats, which are pets with a property of the given name. -/
def cats (property : String) : Document :=
  .ofSchemas
    [("Pet", .inline { properties := [("name", .inline { types := some (.single .string) })] }),
      ("Cat", .inline
        { allOf := [.ref "#/components/schemas/Pet"]
          properties := [(property, .inline { types := some (.single .integer) })] })]

theorem hasDistinctProperties_cats (property : String) :
    ∀ document ∈ [cats property], document.HasDistinctProperties := by
  intro document hdocument entry hentry
  obtain rfl := List.mem_singleton.mp hdocument
  rcases List.mem_pair.mp hentry with rfl | rfl
  · refine Schema.HasDistinctProperties.inline_iff.mpr ⟨List.nodup_singleton _, ?_⟩
    intro child hchild
    obtain rfl := List.mem_singleton.mp hchild
    exact .ofFacets _
  · refine Schema.HasDistinctProperties.inline_iff.mpr ⟨List.nodup_singleton _, ?_⟩
    intro child hchild
    rcases List.mem_pair.mp hchild with rfl | rfl
    · exact .ofFacets _
    · exact .ref _

/-- The table before the first round of a run over cats. -/
def catTable (property : String) : ClassTable :=
  let roots := claimRoots {} (includedSchemas ⟨[]⟩ [cats property])
  (Sweep.run {} roots.registry roots.pending).table

theorem runsRound_cats : RunsRound {} (fun _ => false) [cats "name"] 0 (catTable "name") where
  sweeps := ⟨⟨[]⟩, rfl, by decide +kernel, _, rfl, by decide +kernel, _, rfl, by decide +kernel,
    rfl, fun m hm => absurd hm m.not_lt_zero⟩
  stubs_ne_nil := by decide +kernel

/-- Cats have the members of pets and their own. Where a cat is to have a second name, the run
fails in the first round, and the name is reported once. -/
theorem members_flatten_allOf_cats :
    (∃ set, (mapDocuments {} (fun _ => false) [cats "lives"]).2 = .ok set
      ∧ ∃ object branches, .object object ∈ set.pojos ∧ object.allOf = some branches
        ∧ (object.members.map (·.name)).Nodup
        ∧ ∃ own, object.members = branches.flatMap (·.members) ++ own)
    ∧ (mapDocuments {} (fun _ => false) [cats "name"]).1.getLast? = some (.round 1 1)
      ∧ ∃ failure, (mapDocuments {} (fun _ => false) [cats "name"]).2 = .error (.failure failure)
        ∧ failure.faults.filterMap (Fault.ambiguous? ⟨"Cat", ""⟩) = ["name"] := by
  constructor
  · obtain ⟨set, hset, hcomposed⟩ := exists_ok_of_any_toOption
      (show ((mapDocuments {} (fun _ => false) [cats "lives"]).2.toOption.any fun set =>
        (set.pojos.filterMap (·.object?)).any (·.allOf.isSome)) = true by decide +kernel)
    obtain ⟨object, hobject, hsome⟩ := List.any_eq_true.mp hcomposed
    obtain ⟨pojo, hpojo, hpojo_eq⟩ := List.mem_filterMap.mp hobject
    obtain ⟨branches, hbranches⟩ := Option.isSome_iff_exists.mp hsome
    cases pojo with
    | object o =>
      obtain rfl := Option.some.inj hpojo_eq
      obtain ⟨course, -, -, hflat⟩ :=
        (members_flatten_allOf (hasDistinctProperties_cats "lives")).1 set hset
      obtain ⟨hnodup, hall⟩ := hflat _ hpojo o (.inl rfl)
      obtain ⟨schema, -, k, declared, -, -, -, hmembers⟩ := hall branches hbranches
      exact ⟨set, hset, o, branches, hpojo, hbranches, hnodup, _, hmembers⟩
    | _ => cases hpojo_eq
  · obtain ⟨stub, hstub, hchecked⟩ := List.any_eq_true.mp
      (show ((catTable "name").stubs.any fun stub =>
        ((catTable "name").invalidBranches stub).isEmpty && ((catTable "name").missing stub).isEmpty
          && stub.name == ⟨"Cat", ""⟩
          && stub.candidates ((catTable "name").branchesOf stub) == ["name", "name"]) = true
        by decide +kernel)
    simp only [Bool.and_eq_true, List.isEmpty_iff, beq_iff_eq] at hchecked
    obtain ⟨⟨hready, hname⟩, hcandidates⟩ := hchecked
    have hrun := (members_flatten_allOf (hasDistinctProperties_cats "name")).2 0 _ runsRound_cats
      stub hstub (ClassTable.isReady_iff.mpr hready) (by rw [hcandidates]; decide)
    rw [hcandidates, hname] at hrun
    obtain ⟨hlog, failure, hfailure, hambiguous⟩ := hrun
    have hcount : (catTable "name").stubs.length = 1 := by decide +kernel
    refine ⟨by rw [hlog, hcount], failure, hfailure, hambiguous.trans (by decide +kernel)⟩

end PojoGraph
