import PojoGraph.Proofs.Suffix.Classification

/-!
# The sweep under a suffix

A sweep over ASCII schemas with a suffix goes as the one without: the same schemas wait, under the
same names but for the suffix, and the same names are taken. The tables have the same entries, with
a suffix in all names; so they settle to the same types, or fail with the same faults.

## Main definitions

* `Pending.IsAscii`, `Sweep.IsAscii` — an ASCII schema under an ASCII name, and a sweep of such.
* `Sweep.Suffixes` — a sweep is another one with a suffix in all names.

## Main statements

* `Sweep.Suffixes.after` — passes keep one sweep the other with a suffix.
* `resolve_withSuffix` — **a resolution with a suffix is the one without, with a suffix in all
  names**.
-/

namespace PojoGraph

open Text

/-! ## ASCII sweeps -/

/-- An ASCII schema waits under an ASCII name without a suffix. -/
structure Pending.IsAscii (pending : Pending) : Prop where
  name : pending.name.IsUnsuffixed
  schema : pending.schema.IsAscii

/-- All that waits is ASCII, and there are no other names in the table. -/
structure Sweep.IsAscii (sweep : Sweep) : Prop where
  pending : ∀ pending ∈ sweep.pending, pending.IsAscii
  table : sweep.table.Within PojoName.IsUnsuffixed

theorem isAscii_refName {target : String} (h : IsAscii target) : IsAscii (refName target) := by
  intro c hc
  rw [refName, String.toList_ofList, afterLast, List.mem_reverse] at hc
  exact h c (List.mem_reverse.mp ((List.takeWhile_subset _) hc))

/-- The references of an ASCII schema lead to ASCII names. -/
theorem Schema.IsAscii.refersWithin {schema : Schema} (h : schema.IsAscii) {settings : Settings}
    (hbare : settings.suffix = "") : schema.RefersWithin settings PojoName.IsUnsuffixed :=
  fun reference hreference => ⟨isAscii_refName (h.references reference hreference), hbare⟩

/-! ## Found schemas -/

/-- The part of a name that a site of a schema gives is ASCII. -/
def Site.IsAscii : Site → Prop
  | .member name _ => Text.IsAscii name
  | .branch tag _ => Text.IsAscii tag

theorem isAscii_branchSites (kind : CompositionKind) (schemas : List Schema) :
    ∀ site ∈ branchSites kind schemas, site.IsAscii := by
  suffices ∀ isNumbered number branches,
      ∀ site ∈ branchSitesFrom kind isNumbered number branches, site.IsAscii from this _ _ _
  intro isNumbered number branches
  induction branches generalizing number with
  | nil => exact fun site hsite => (List.not_mem_nil hsite).elim
  | cons branch rest ih =>
    cases branch with
    | ref target => exact ih number
    | inline k =>
      refine List.forall_mem_cons.mpr ⟨?_, ih (number + 1)⟩
      cases isNumbered with
      | true => exact (isAscii_tag kind).append (isAscii_toString number)
      | false => exact isAscii_tag kind

theorem Keywords.isAscii_additionalSites (k : Keywords Schema) :
    ∀ site ∈ k.additionalSites, site.IsAscii := by
  rw [additionalSites]
  split
  · split
    · exact fun site hsite => (List.not_mem_nil hsite).elim
    · exact fun site hsite => List.mem_singleton.mp hsite ▸ isAscii_additionalMember
  · exact fun site hsite => (List.not_mem_nil hsite).elim

/-- The sites of an ASCII schema are ASCII. -/
theorem Schema.IsAscii.sites {schema : Schema} (h : schema.IsAscii) :
    ∀ site ∈ schema.sites, site.IsAscii := by
  have hvalue : ∀ {inner : Schema}, ∀ site ∈ [Site.member valueMember inner], site.IsAscii :=
    fun site hsite => List.mem_singleton.mp hsite ▸ isAscii_valueMember
  cases schema with
  | ref target => exact hvalue
  | inline k =>
    have hmembers : ∀ site ∈ k.memberSites, site.IsAscii :=
      List.forall_mem_map.mpr fun property hproperty => h.own hproperty
    have hadditional := k.isAscii_additionalSites
    rw [Schema.sites, Keywords.sites]
    split_ifs
    · exact hvalue
    · exact hvalue
    · simp only [List.forall_mem_append]
      exact ⟨⟨⟨⟨isAscii_branchSites _ _, isAscii_branchSites _ _⟩, isAscii_branchSites _ _⟩,
        hmembers⟩, hadditional⟩
    · exact List.forall_mem_append.mpr ⟨hmembers, hadditional⟩
    · exact fun site hsite => (List.not_mem_nil hsite).elim
    · exact hvalue

/-- The names that an ASCII schema asks for are ASCII. -/
theorem isUnsuffixed_derivedNames {schema : Schema} (hascii : schema.IsAscii) {owner : PojoName}
    (howner : owner.IsUnsuffixed) : ∀ name ∈ schema.derivedNames owner, name.IsUnsuffixed := by
  intro name hname
  obtain ⟨site, hsite, hname⟩ := List.mem_flatMap.mp hname
  have hpart := hascii.sites site hsite
  cases site with
  | member member inner =>
    obtain ⟨_, -, rfl⟩ := List.mem_map.mp hname
    exact howner.ofMember hpart
  | branch tag inner =>
    rw [List.mem_singleton.mp hname]
    exact howner.append hpart

/-- What is found in an ASCII schema is ASCII, and so are the names that it is found under. -/
theorem isAscii_of_mem_found {settings : Settings} {pending : Pending} (h : pending.IsAscii)
    {registry : Registry} {classified : Classified} {survey : Survey}
    (hclassify : classify settings pending registry = .ok (classified, survey)) :
    ∀ found ∈ survey.found, found.IsAscii := by
  intro found hfound
  have hname : found.name ∈ (registry.claimAll (pending.schema.derivedNames pending.name)).1 := by
    rw [claimAll_classify hclassify]
    exact List.mem_map_of_mem hfound
  have hschema : found.schema ∈ pending.schema.discovered := by
    rw [← schemas_found_classify hclassify]
    exact List.mem_map_of_mem hfound
  exact ⟨.claimAll (isUnsuffixed_derivedNames h.schema h.name) _ hname,
    h.schema.of_mem_discovered hschema⟩

/-! ## Steps and passes -/

namespace Sweep

variable {settings : Settings} {suffix : String} {sweep sweep' : Sweep}

/-- The second sweep is the first one with a suffix in all names. What they have logged does not
matter. -/
structure Suffixes (suffix : String) (sweep sweep' : Sweep) : Prop where
  pending : sweep'.pending = sweep.pending.map (.withSuffix suffix)
  registry : sweep'.registry = sweep.registry.withSuffix suffix
  table : sweep'.table
    = sweep.table.revise (.rename (.withSuffix suffix)) (· ++ lower suffix)
  warnings : sweep'.warnings = sweep.warnings.map (.rename (.withSuffix suffix))
  faults : sweep'.faults = sweep.faults.map (.rename (.withSuffix suffix))

theorem IsAscii.step (h : sweep.IsAscii) (hbare : settings.suffix = "") {pending : Pending}
    (hpending : pending.IsAscii) : (sweep.step settings pending).IsAscii := by
  rw [Sweep.step]
  cases hclassify : classify settings pending sweep.registry with
  | error fault => exact ⟨h.pending, h.table⟩
  | ok result =>
    obtain ⟨classified, survey⟩ := result
    have hfound := isAscii_of_mem_found hpending hclassify
    refine ⟨List.forall_mem_append.mpr ⟨h.pending, hfound⟩, fun entry hentry => ?_⟩
    rcases Dictionary.mem_of_mem_insert hentry with rfl | hentry
    · exact within_classify hclassify hpending.name (hpending.schema.refersWithin hbare)
        fun found hmem => (hfound found hmem).name
    · exact h.table entry hentry

theorem IsAscii.steps (h : sweep.IsAscii) (hbare : settings.suffix = "") {waiting : List Pending}
    (hwaiting : ∀ pending ∈ waiting, pending.IsAscii) :
    (waiting.foldl (Sweep.step settings) sweep).IsAscii := by
  induction waiting generalizing sweep with
  | nil => exact h
  | cons pending rest ih =>
    exact ih (h.step hbare (hwaiting pending List.mem_cons_self)) fun other hother =>
      hwaiting other (List.mem_cons_of_mem _ hother)

theorem IsAscii.pass (h : sweep.IsAscii) (hbare : settings.suffix = "") :
    (sweep.pass settings).IsAscii := by
  rw [Sweep.pass]
  split
  · exact h
  · have hbegin : sweep.begin.IsAscii := ⟨fun _ hmem => (List.not_mem_nil hmem).elim, h.table⟩
    exact hbegin.steps hbare h.pending

theorem IsAscii.after (h : sweep.IsAscii) (hbare : settings.suffix = "") (n : Nat) :
    (sweep.after settings n).IsAscii := by
  induction n with
  | zero => exact h
  | succ n ih =>
    rw [after_succ]
    exact ih.pass hbare

section

variable (hsuffix : Text.IsAscii suffix)

include hsuffix

theorem Suffixes.step (h : sweep.Suffixes suffix sweep') {pending : Pending}
    (hpending : pending.IsAscii) :
    (sweep.step settings pending).Suffixes suffix
      (sweep'.step (settings.withSuffix suffix) (pending.withSuffix suffix)) := by
  rw [Sweep.step, Sweep.step, h.registry,
    classify_withSuffix hsuffix hpending.name hpending.schema]
  cases hclassify : classify settings pending sweep.registry with
  | error fault =>
    refine ⟨h.pending, rfl, h.table, h.warnings, ?_⟩
    simp only [Except.map, Except.mapError, h.faults, List.map_append]
    rfl
  | ok result =>
    obtain ⟨classified, survey⟩ := result
    have hname : classified.name.IsUnsuffixed := by
      rw [name_of_classify hclassify]
      exact hpending.name
    refine ⟨?_, rfl, ?_, ?_, h.faults⟩
    · simp only [Except.map, Except.mapError, h.pending, List.map_append]
      rfl
    · have hkey := PojoName.key_withSuffix hname hsuffix
      have hrevised : (classified.revise (.rename (.withSuffix suffix))).name
          = classified.name.withSuffix suffix := by
        cases classified with
        | pojo pojo => exact Pojo.name_revise _ pojo
        | stub stub => rfl
        | plain plain => rfl
      simp only [Except.map, Except.mapError, hrevised, hkey, h.table]
      exact (ClassTable.revise_insert (PojoName.append_lower_injective suffix) _ _ _).symm
    · simp only [Except.map, Except.mapError, h.warnings, List.map_append]
      rfl

theorem Suffixes.steps (h : sweep.Suffixes suffix sweep') {waiting : List Pending}
    (hwaiting : ∀ pending ∈ waiting, pending.IsAscii) :
    (waiting.foldl (Sweep.step settings) sweep).Suffixes suffix
      ((waiting.map (.withSuffix suffix)).foldl (Sweep.step (settings.withSuffix suffix))
        sweep') := by
  induction waiting generalizing sweep sweep' with
  | nil => exact h
  | cons pending rest ih =>
    exact ih (h.step hsuffix (hwaiting pending List.mem_cons_self)) fun other hother =>
      hwaiting other (List.mem_cons_of_mem _ hother)

theorem Suffixes.pass (h : sweep.Suffixes suffix sweep') (hascii : sweep.IsAscii) :
    (sweep.pass settings).Suffixes suffix (sweep'.pass (settings.withSuffix suffix)) := by
  have hempty : sweep'.pending.isEmpty = sweep.pending.isEmpty := by
    rw [h.pending, List.isEmpty_map]
  rw [Sweep.pass, Sweep.pass, hempty, h.pending]
  split
  · exact h
  · have hbegin : sweep.begin.Suffixes suffix sweep'.begin :=
      ⟨rfl, h.registry, h.table, h.warnings, h.faults⟩
    exact hbegin.steps hsuffix hascii.pending

/-- **Passes keep one sweep the other with a suffix.** -/
theorem Suffixes.after (h : sweep.Suffixes suffix sweep') (hascii : sweep.IsAscii)
    (hbare : settings.suffix = "") (n : Nat) :
    (sweep.after settings n).Suffixes suffix (sweep'.after (settings.withSuffix suffix) n) := by
  induction n with
  | zero => exact h
  | succ n ih =>
    rw [after_succ, after_succ]
    exact ih.pass hsuffix (hascii.after hbare n)

end

theorem Suffixes.allFaults (h : sweep.Suffixes suffix sweep') :
    sweep'.allFaults = sweep.allFaults.map (.rename (.withSuffix suffix)) := by
  rw [Sweep.allFaults, Sweep.allFaults, h.pending, h.faults, List.isEmpty_map, List.map_map]
  split
  · rfl
  · rw [List.map_append, List.map_singleton, Fault.rename, List.map_map]
    rfl

end Sweep

/-! ## Resolution -/

/-- The revision that gives all names a suffix does not interfere with resolution. -/
theorem Revision.isFaithful_withSuffix {suffix : String} (hsuffix : IsAscii suffix) :
    (Revision.rename (.withSuffix suffix)).IsFaithful PojoName.IsUnsuffixed
      (· ++ lower suffix) where
  key name hname := PojoName.key_withSuffix hname hsuffix
  injective := PojoName.append_lower_injective suffix
  raw name := rfl
  objectName? type := by
    cases type with
    | leaf l traits => cases l <;> rfl
    | list item traits => rfl
    | map key value traits => rfl
  freeForm := keepsFreeForm_rename _
  members := keepsMembers_rename _

/-- The resolution with all names of types changed. -/
def Resolution.rename (f : PojoName → PojoName) (resolution : Resolution) : Resolution :=
  ⟨resolution.entries.map (Resolved.revise (.rename f)), resolution.warnings.map (.rename f)⟩

section

variable {settings : Settings} (hbare : settings.suffix = "") {roots : List Pending}
  (hroots : ∀ root ∈ roots, root.IsAscii) (registry : Registry)

include hbare hroots

theorem Sweep.isAscii_run : (run settings registry roots).IsAscii := by
  have hascii : Sweep.IsAscii { pending := roots, registry } :=
    ⟨hroots, fun _ hmem => (List.not_mem_nil hmem).elim⟩
  exact hascii.after hbare _

/-- There are no other names than ASCII ones in what ASCII schemas resolve to. -/
theorem within_resolve {resolution : Resolution}
    (h : (resolve settings registry roots).2 = .ok resolution) :
    ∀ resolved ∈ resolution.entries, resolved.Within PojoName.IsUnsuffixed := by
  obtain ⟨-, hsettle, -⟩ := snd_resolve_eq_ok_iff.mp h
  exact (Sweep.isAscii_run hbare hroots registry).table.settle hsettle

/-- **A resolution with a suffix is the one without, with a suffix in all names.** -/
theorem resolve_withSuffix {suffix : String} (hsuffix : IsAscii suffix) :
    (resolve (settings.withSuffix suffix) (registry.withSuffix suffix)
        (roots.map (.withSuffix suffix))).2
      = ((resolve settings registry roots).2.map (Resolution.rename (.withSuffix suffix))).mapError
        (Failure.rename (.withSuffix suffix)) := by
  have henough : Sweep.enough (roots.map (Pending.withSuffix suffix)) = Sweep.enough roots := by
    rw [Sweep.enough, Sweep.enough, List.map_map]
    rfl
  have hrun : (Sweep.run settings registry roots).Suffixes suffix
      (Sweep.run (settings.withSuffix suffix) (registry.withSuffix suffix)
        (roots.map (.withSuffix suffix))) := by
    rw [Sweep.run, Sweep.run, henough]
    exact Sweep.Suffixes.after hsuffix ⟨rfl, rfl, rfl, rfl, rfl⟩
      ⟨hroots, fun _ hmem => (List.not_mem_nil hmem).elim⟩ hbare _
  have htable := (Sweep.isAscii_run hbare hroots registry).table
  simp only [resolve, hrun.allFaults, Failure.of?_map_rename]
  cases Failure.of? (Sweep.run settings registry roots).allFaults with
  | some failure => rfl
  | none =>
    have hsettle := ClassTable.settle_revise (Revision.isFaithful_withSuffix hsuffix) htable 0
    simp only [Option.map_none, hrun.table, hrun.warnings, hsettle]
    cases (ClassTable.settle 0 (Sweep.run settings registry roots).table).2 <;> rfl

end

end PojoGraph
