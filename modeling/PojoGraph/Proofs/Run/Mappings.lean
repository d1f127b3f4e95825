import PojoGraph.Proofs.PojoSet.Mentions
import PojoGraph.Proofs.Sweep.Settings

/-!
# Name mappings

Name mappings come last: a run with mappings is the run without them, with all names replaced at
its end. Without mappings the types of a run have different names. With them they do if and only
if no two names are mapped to one key, which nothing makes sure of. A reference that is spelled
as the type that it leads to keeps leading to it; one that is spelled in another case may be
mapped differently.

## Main definitions

* `Settings.withoutMappings` — settings that map no names.
* `PojoSet.KeepsMentions` — renaming keeps what mentions lead to.

## Main statements

* `mapDocuments_withoutMappings` — name mappings come last.
* `type_names_distinct_iff` — when mapped names are different.
* `keeps_mentions_iff` — when mapped references lead to the mapped types.
-/

namespace PojoGraph

/-! ## Runs without mappings -/

/-- The settings without name mappings. -/
def Settings.withoutMappings (settings : Settings) : Settings :=
  { settings with nameMappings := [] }

theorem resolve_withoutMappings (settings : Settings) (registry : Registry)
    (roots : List Pending) :
    resolve settings.withoutMappings registry roots = resolve settings registry roots := by
  rw [← resolve_classifying settings.withoutMappings, ← resolve_classifying settings]
  rfl

theorem PojoSet.rename_id (set : PojoSet) : set.rename id = set := by
  rw [rename, List.map_congr_left fun pojo _ => pojo.rename_id, List.map_id']

theorem PojoSet.ofEntries_withoutMappings (settings : Settings) (exclusion : Exclusion)
    (entries : List Resolved) :
    ofEntries settings exclusion entries
      = (ofEntries settings.withoutMappings exclusion entries).rename settings.mapName := by
  have hunmapped : ofEntries settings.withoutMappings exclusion entries
      = ((ofResolved settings.referenceInlining entries).describe).checkReferences exclusion :=
    rename_id _
  rw [hunmapped]
  rfl

theorem mapPending_withoutMappings (settings : Settings) (exclusion : Exclusion)
    (registry : Registry) (pending : List Pending) :
    mapPending settings exclusion registry pending
      = ((mapPending settings.withoutMappings exclusion registry pending).1,
        (mapPending settings.withoutMappings exclusion registry pending).2.map
          (PojoSet.rename settings.mapName)) := by
  rw [mapPending, mapPending, resolve_withoutMappings]
  cases resolve settings registry pending with
  | mk log result =>
    cases result with
    | error failure => rfl
    | ok resolution =>
      simp only [Except.map, PojoSet.ofEntries_withoutMappings settings]
      rfl

/-- **Name mappings come last**: a run with mappings ends as the run without them does, but for
the names of its types. -/
theorem mapDocuments_withoutMappings (settings : Settings) (isLoaded : String → Bool)
    (documents : List Document) :
    (mapDocuments settings isLoaded documents).2
      = (mapDocuments settings.withoutMappings isLoaded documents).2.map
        (PojoSet.rename settings.mapName) := by
  have hroots : claimRoots settings.withoutMappings = claimRoots settings := rfl
  have hexcluded : settings.withoutMappings.excludedSchemas = settings.excludedSchemas := rfl
  rw [mapDocuments, mapDocuments, hroots, hexcluded]
  cases Exclusion.ofPatterns settings.excludedSchemas with
  | error error => rfl
  | ok exclusion =>
    simp only [mapPending_withoutMappings settings]
    cases Failure.of? (unloadedReferences isLoaded (includedSchemas exclusion documents)
        ++ (claimRoots settings (includedSchemas exclusion documents)).faults) with
    | some failure => rfl
    | none =>
      cases mapPending settings.withoutMappings exclusion
          (claimRoots settings (includedSchemas exclusion documents)).registry
          (claimRoots settings (includedSchemas exclusion documents)).pending with
      | mk log result => cases result <;> rfl

section

variable {settings : Settings} {isLoaded : String → Bool} {documents : List Document}
  {set : PojoSet}

/-- A run that succeeds does so without mappings, and then has a course that makes its types as
they are. -/
theorem exists_course_withoutMappings
    (h : (mapDocuments settings isLoaded documents).2 = .ok set) :
    ∃ unmapped, (mapDocuments settings.withoutMappings isLoaded documents).2 = .ok unmapped
      ∧ set = unmapped.rename settings.mapName
      ∧ ∃ course : Course settings.withoutMappings isLoaded documents,
        unmapped.pojos = course.pojos := by
  rw [mapDocuments_withoutMappings] at h
  cases hunmapped : (mapDocuments settings.withoutMappings isLoaded documents).2 with
  | error error =>
    rw [hunmapped] at h
    cases h
  | ok unmapped =>
    rw [hunmapped] at h
    obtain ⟨course, hmakes⟩ := exists_course hunmapped
    refine ⟨unmapped, rfl, (Except.ok.inj h).symm, course, ?_⟩
    have hid : settings.withoutMappings.mapName = id := rfl
    rw [hmakes.pojos, hid, List.map_congr_left fun pojo _ => pojo.rename_id, List.map_id']

/-! ## Names of types -/

/-- The types of a course have different names. -/
theorem Course.nodup_keys_pojos (course : Course settings isLoaded documents) :
    (course.pojos.map (·.name.key)).Nodup := by
  have hsublist := course.names_pojos_sublist.map PojoName.key
  rw [List.map_map, List.map_map] at hsublist
  exact hsublist.nodup course.nodup_keys_queue

/-- **When the types of a run have different names.** Without name mappings they do. Mapped names
are different if and only if no two types have names that are mapped to one key. -/
theorem type_names_distinct_iff (h : (mapDocuments settings isLoaded documents).2 = .ok set) :
    ∃ unmapped, (mapDocuments settings.withoutMappings isLoaded documents).2 = .ok unmapped
      ∧ set = unmapped.rename settings.mapName
      ∧ (unmapped.pojos.map (·.name.key)).Nodup
      ∧ ((set.pojos.map (·.name.key)).Nodup
        ↔ ∀ pojo ∈ unmapped.pojos, ∀ other ∈ unmapped.pojos,
          (settings.mapName pojo.name).key = (settings.mapName other.name).key →
            pojo.name.key = other.name.key) := by
  obtain ⟨unmapped, hunmapped, rfl, course, hpojos⟩ := exists_course_withoutMappings h
  have hnodup : (unmapped.pojos.map (·.name.key)).Nodup := by
    rw [hpojos]
    exact course.nodup_keys_pojos
  refine ⟨unmapped, hunmapped, rfl, hnodup, ?_⟩
  have hkeys : (unmapped.rename settings.mapName).pojos.map (·.name.key)
      = unmapped.pojos.map fun pojo => (settings.mapName pojo.name).key := by
    simp [PojoSet.rename]
  rw [hkeys, List.nodup_map_iff_inj_on hnodup.of_map]
  constructor
  · intro hinjective pojo hpojo other hother hkey
    rw [hinjective pojo hpojo other hother hkey]
  · intro hdistinct pojo hpojo other hother hkey
    exact List.inj_on_of_nodup_map hnodup hpojo hother (hdistinct pojo hpojo other hother hkey)

end

/-- Two schemas whose names differ in a part that is taken out. -/
def users : Document :=
  .ofSchemas
    [("LegacyUser", .inline { properties :=
        [("id", .inline { types := some (.single .string) })] }),
      ("User", .inline { properties := [("name", .inline { types := some (.single .string) })] })]

/-- **Mapped names collide**: once the part that tells them apart is taken out of their names, two
types have one name. -/
theorem mapped_names_collide :
    ∃ set, (mapDocument { nameMappings := [⟨"Legacy", ""⟩] } users).2 = .ok set
      ∧ ¬ (set.pojos.map (·.name.key)).Nodup := by
  obtain ⟨set, hset, hkeys⟩ := exists_ok_of_any_toOption
    (show ((mapDocument { nameMappings := [⟨"Legacy", ""⟩] } users).2.toOption.any fun set =>
      decide (¬ (set.pojos.map (·.name.key)).Nodup)) = true by decide +kernel)
  exact ⟨set, hset, of_decide_eq_true hkeys⟩

/-- **Mapped names stay apart** if the part that tells them apart is turned into another. -/
theorem mapped_names_kept_apart :
    ∃ set, (mapDocument { nameMappings := [⟨"Legacy", "Old"⟩] } users).2 = .ok set
      ∧ set.pojos.map (·.name.raw) = ["OldUser", "User"]
      ∧ (set.pojos.map (·.name.key)).Nodup := by
  obtain ⟨set, hset, hnames⟩ := exists_ok_of_any_toOption
    (show ((mapDocument { nameMappings := [⟨"Legacy", "Old"⟩] } users).2.toOption.any fun set =>
      decide (set.pojos.map (·.name.raw) = ["OldUser", "User"])) = true by decide +kernel)
  obtain ⟨other, hother, happart⟩ := exists_ok_of_any_toOption
    (show ((mapDocument {} users).2.toOption.any fun unmapped =>
      unmapped.pojos.all fun pojo => unmapped.pojos.all fun other =>
        (Settings.mapName { nameMappings := [⟨"Legacy", "Old"⟩] } pojo.name).key
            != (Settings.mapName { nameMappings := [⟨"Legacy", "Old"⟩] } other.name).key
          || pojo.name.key == other.name.key) = true by decide +kernel)
  obtain ⟨unmapped, hunmapped, -, -, hiff⟩ := type_names_distinct_iff hset
  obtain rfl : unmapped = other := Except.ok.inj (hunmapped.symm.trans hother)
  refine ⟨set, hset, of_decide_eq_true hnames, hiff.mpr ?_⟩
  simp only [List.all_eq_true, Bool.or_eq_true, bne_iff_ne, beq_iff_eq] at happart
  intro pojo hpojo other hother hkey
  exact (happart pojo hpojo other hother).resolve_left fun hne => hne hkey

/-! ## References -/

/-- Each name that a type of the set mentions, and that has the key of a type of the set, has the
key of that type also once both are renamed. -/
def PojoSet.KeepsMentions (set : PojoSet) (f : PojoName → PojoName) : Prop :=
  ∀ pojo ∈ set.pojos, ∀ name, pojo.Mentions name → ∀ target ∈ set.pojos,
    name.key = target.name.key → (f name).key = (target.rename f).name.key

/-- **When mapped references lead to the mapped types.** A run with mappings renames each name
that a type of the run without them mentions. Discriminators mention types by their own names, so
that what they mention is kept. All mentions are kept if and only if each reference that is spelled
differently from the type that it leads to is mapped to the key of the mapped type. -/
theorem keeps_mentions_iff {settings : Settings} {isLoaded : String → Bool}
    {documents : List Document} {set : PojoSet}
    (h : (mapDocuments settings isLoaded documents).2 = .ok set) :
    ∃ unmapped, (mapDocuments settings.withoutMappings isLoaded documents).2 = .ok unmapped
      ∧ set = unmapped.rename settings.mapName
      ∧ (∀ pojo ∈ unmapped.pojos, ∀ name, (pojo.rename settings.mapName).Mentions name
        ↔ ∃ original, pojo.Mentions original ∧ settings.mapName original = name)
      ∧ (∀ pojo ∈ unmapped.pojos, ∀ name, pojo.Dispatches name →
        ∃ target ∈ unmapped.pojos, target.name = name)
      ∧ (unmapped.KeepsMentions settings.mapName
        ↔ ∀ pojo ∈ unmapped.pojos, ∀ name ∈ pojo.references, ∀ target ∈ unmapped.pojos,
          name.key = target.name.key → name ≠ target.name →
            (settings.mapName name).key = (settings.mapName target.name).key) := by
  obtain ⟨unmapped, hunmapped, rfl, course, hpojos⟩ := exists_course_withoutMappings h
  have hdispatches : ∀ pojo ∈ unmapped.pojos, ∀ name, pojo.Dispatches name →
      ∃ target ∈ unmapped.pojos, target.name = name := by
    rw [hpojos]
    intro pojo hpojo name hname
    exact Course.exists_mem_pojos_of_dispatches hpojo hname
  have hnodup : (unmapped.pojos.map (·.name.key)).Nodup := by
    rw [hpojos]
    exact course.nodup_keys_pojos
  refine ⟨unmapped, hunmapped, rfl, fun pojo _ name => Pojo.mentions_rename_iff, hdispatches, ?_⟩
  simp only [PojoSet.KeepsMentions, Pojo.name_rename]
  constructor
  · intro hkeeps pojo hpojo name hname target htarget hkey _
    exact hkeeps pojo hpojo name (.inl hname) target htarget hkey
  · rintro hreferences pojo hpojo name (hname | hname) target htarget hkey
    · by_cases hsame : name = target.name
      · rw [hsame]
      · exact hreferences pojo hpojo name hname target htarget hkey hsame
    · obtain ⟨top, htop, rfl⟩ := hdispatches pojo hpojo name hname
      rw [List.inj_on_of_nodup_map hnodup htop htarget hkey]

/-- A schema, and one that refers to it by the given name. -/
def teams (lead : String) : Document :=
  .ofSchemas
    [("LegacyUser", .inline { properties :=
        [("id", .inline { types := some (.single .string) })] }),
      ("Team", .inline { properties := [("lead", .ref ("#/components/schemas/" ++ lead))] })]

/-- **A mapped reference dangles**: the reference, spelled in another case than the schema that it
leads to, does not contain the part that is taken out of the name of the type, and no type has its
name afterwards. Nothing is reported. -/
theorem mapped_reference_dangles :
    ∃ unmapped set, (mapDocument {} (teams "legacyUser")).2 = .ok unmapped
      ∧ (mapDocument { nameMappings := [⟨"Legacy", ""⟩] } (teams "legacyUser")).2 = .ok set
      ∧ set.warnings = []
      ∧ ∃ pojo ∈ unmapped.pojos, ∃ name, pojo.Mentions name
        ∧ (∃ target ∈ unmapped.pojos, name.key = target.name.key)
        ∧ ∀ renamed ∈ set.pojos, renamed.name.key
          ≠ (Settings.mapName { nameMappings := [⟨"Legacy", ""⟩] } name).key := by
  obtain ⟨unmapped, hunmapped, hmentions⟩ := exists_ok_of_any_toOption
    (show ((mapDocument {} (teams "legacyUser")).2.toOption.any fun unmapped =>
      unmapped.pojos.any (fun pojo => decide (⟨"legacyUser", ""⟩ ∈ pojo.references))
        && unmapped.pojos.any fun target =>
          PojoName.key ⟨"legacyUser", ""⟩ == target.name.key) = true by decide +kernel)
  obtain ⟨set, hset, hdangles⟩ := exists_ok_of_any_toOption
    (show ((mapDocument { nameMappings := [⟨"Legacy", ""⟩] }
        (teams "legacyUser")).2.toOption.any fun set =>
      set.warnings.isEmpty && set.pojos.all fun renamed => renamed.name.key
        != (Settings.mapName { nameMappings := [⟨"Legacy", ""⟩] } ⟨"legacyUser", ""⟩).key) = true
      by decide +kernel)
  simp only [Bool.and_eq_true, List.any_eq_true, List.all_eq_true, List.isEmpty_iff,
    decide_eq_true_eq, beq_iff_eq, bne_iff_ne] at hmentions hdangles
  obtain ⟨⟨pojo, hpojo, hname⟩, htarget⟩ := hmentions
  exact ⟨unmapped, set, hunmapped, hset, hdangles.1, pojo, hpojo, _, .inl hname, htarget,
    hdangles.2⟩

/-- A reference that is spelled as the schema is mapped together with it. -/
theorem exact_reference_kept :
    ∃ set unmapped : PojoSet, (mapDocument { nameMappings := [⟨"Legacy", ""⟩] }
        (teams "LegacyUser")).2 = .ok set
      ∧ set = unmapped.rename (Settings.mapName { nameMappings := [⟨"Legacy", ""⟩] })
      ∧ unmapped.KeepsMentions (Settings.mapName { nameMappings := [⟨"Legacy", ""⟩] }) := by
  obtain ⟨set, hset, -⟩ := exists_ok_of_any_toOption
    (show ((mapDocument { nameMappings := [⟨"Legacy", ""⟩] }
      (teams "LegacyUser")).2.toOption.any fun _ => true) = true by decide +kernel)
  obtain ⟨other, hother, hspelled⟩ := exists_ok_of_any_toOption
    (show ((mapDocument {} (teams "LegacyUser")).2.toOption.any fun unmapped =>
      unmapped.pojos.all fun pojo => pojo.references.all fun name =>
        unmapped.pojos.all fun target => name.key != target.name.key || name == target.name) = true
      by decide +kernel)
  obtain ⟨unmapped, hunmapped, hrenamed, -, -, hiff⟩ := keeps_mentions_iff hset
  obtain rfl : unmapped = other := Except.ok.inj (hunmapped.symm.trans hother)
  refine ⟨set, unmapped, hset, hrenamed, hiff.mpr ?_⟩
  simp only [List.all_eq_true, Bool.or_eq_true, bne_iff_ne, beq_iff_eq] at hspelled
  intro pojo hpojo name hname target htarget hkey hspelling
  rcases hspelled pojo hpojo name hname target htarget with hne | hsame
  · exact absurd hkey hne
  · exact absurd hsame hspelling

end PojoGraph
