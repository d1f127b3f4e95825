import PojoGraph.Proofs.PojoSet.References
import PojoGraph.Proofs.Run.Outcome

/-!
# The final set is closed

Without name mappings, the branches and discriminators of a final set lead to types of the set.
So does every reference in a type, unless it is excluded; and a reference that leads nowhere has
been reported, once for the type that holds it and the key that it looks for.

## Main statements

* `Course.set_of_nil` — the references to types that do not exist are the only ones reported.
* `set_is_closed` — every name in a final set leads to a type, is excluded or is reported.
-/

namespace PojoGraph

namespace Warning

theorem isDangling_of_isOfClassification {warning : Warning}
    (h : warning.isOfClassification = true) (pojo : PojoName) (key : String) :
    warning.isDangling pojo key = false := by
  cases warning with
  | danglingReference owner reference => cases h
  | _ => rfl

end Warning

/-- Putting plain types in place of references warns of circles only. -/
theorem exists_cyclicAlias_of_mem_warnings {inlining : ReferenceInlining}
    {entries : List Resolved} {warning : Warning}
    (h : warning ∈ (PojoSet.ofResolved inlining entries).warnings) :
    ∃ name, warning = .cyclicAlias name := by
  cases inlining with
  | never => cases h
  | simple =>
    obtain ⟨plain, -, rfl⟩ := List.mem_map.mp h
    exact ⟨plain.name, rfl⟩

theorem Settings.mapName_of_nil {settings : Settings} (h : settings.nameMappings = []) :
    settings.mapName = id := by
  funext name
  rw [mapName, h]
  rfl

namespace Course

variable {settings : Settings} {isLoaded : String → Bool} {documents : List Document}
  (course : Course settings isLoaded documents)

/-- Without name mappings the set has the types of the course. Of references it reports just
those that lead to no type. -/
theorem set_of_nil (hmappings : settings.nameMappings = []) {set : PojoSet}
    (h : (mapDocuments settings isLoaded documents).2 = .ok set) :
    set.pojos = course.pojos ∧ ∃ others : List Warning,
      set.warnings = others ++ danglingReferences course.exclusion course.pojos
        ∧ ∀ warning ∈ others, warning.isOfClassification = true
          ∨ ∃ name, warning = .cyclicAlias name := by
  obtain ⟨warnings, hwarnings, hset⟩ := course.mapDocuments_eq
  rw [h, Settings.mapName_of_nil hmappings] at hset
  obtain rfl := Except.ok.inj hset
  refine ⟨?_, _, (List.append_assoc ..).symm, ?_⟩
  · rw [List.map_congr_left fun pojo _ => pojo.rename_id, List.map_id']
  · intro warning hwarning
    rcases List.mem_append.mp hwarning with hclassified | hinlined
    · exact .inl (hwarnings warning hclassified)
    · exact .inr (exists_cyclicAlias_of_mem_warnings hinlined)

end Course

section

variable {settings : Settings} {isLoaded : String → Bool} {documents : List Document}
  {set : PojoSet}

/-- **The final set is closed**, if no names are mapped. Each branch of a type, at any depth, and
each entry of a discriminator has the key of a type of the set. So does each name that stands in
a type which a generated type holds, unless it is excluded or reported: then just one warning
names the generated type and the key. What is reported is always such a reference. -/
theorem set_is_closed (hmappings : settings.nameMappings = [])
    (h : (mapDocuments settings isLoaded documents).2 = .ok set) :
    ∃ exclusion, Exclusion.ofPatterns settings.excludedSchemas = .ok exclusion
      ∧ (∀ pojo ∈ set.pojos,
        (∀ branch, pojo.Embeds branch → ∃ top ∈ set.pojos, top.name.key = branch.name.key)
          ∧ (∀ name, pojo.Dispatches name → ∃ top ∈ set.pojos, top.name.key = name.key)
          ∧ ∀ type, pojo.Holds type → ∀ name, type.RefersTo name →
            (∃ top ∈ set.pojos, top.name.key = name.key)
              ∨ exclusion.excludes name.raw = true
              ∨ set.warnings.countP (Warning.isDangling pojo.name name.key) = 1)
      ∧ ∀ owner reference, .danglingReference owner reference ∈ set.warnings →
        ∃ pojo ∈ set.pojos, pojo.name = owner
          ∧ (∃ type, pojo.Holds type ∧ type.RefersTo reference)
          ∧ (∀ top ∈ set.pojos, top.name.key ≠ reference.key)
          ∧ exclusion.excludes reference.raw = false := by
  obtain ⟨course, -⟩ := exists_course h
  obtain ⟨hpojos, others, hwarnings, hothers⟩ := course.set_of_nil hmappings h
  refine ⟨course.exclusion, course.isExclusion, ?_, ?_⟩
  · rw [hpojos]
    intro pojo hpojo
    refine ⟨?_, ?_, ?_⟩
    · intro branch hembeds
      obtain ⟨top, htop, hbranch⟩ := course.copiesAgree.exists_asBranch hpojo hembeds
      exact ⟨top, htop, by rw [Pojo.name_of_asBranch hbranch]⟩
    · intro name hdispatches
      obtain ⟨top, htop, hname⟩ := Course.exists_mem_pojos_of_dispatches hpojo hdispatches
      exact ⟨top, htop, by rw [hname]⟩
    · intro type hholds name hname
      by_cases hdefined : ∃ top ∈ course.pojos, top.name.key = name.key
      · exact .inl hdefined
      · right
        cases hexcluded : course.exclusion.excludes name.raw with
        | true => exact .inl rfl
        | false =>
          right
          have hundefined : name ∈ pojo.undefined course.exclusion course.pojos :=
            Pojo.mem_undefined_iff.mpr ⟨⟨type, hholds, hname⟩,
              fun top htop hkey => hdefined ⟨top, htop, hkey⟩, hexcluded⟩
          have hnone : others.countP (Warning.isDangling pojo.name name.key) = 0 := by
            rw [List.countP_eq_zero]
            intro warning hwarning
            rcases hothers warning hwarning with hclassified | ⟨plain, rfl⟩
            · simp [Warning.isDangling_of_isOfClassification hclassified]
            · simp [Warning.isDangling]
          rw [hwarnings, List.countP_append, hnone,
            countP_isDangling course.nodup_keys_pojos hpojo hundefined]
  · intro owner reference hreported
    rw [hwarnings, List.mem_append] at hreported
    rcases hreported with hother | hdangling
    · rcases hothers _ hother with hclassified | ⟨name, hname⟩
      · cases hclassified
      · cases hname
    · obtain ⟨pojo, hpojo, name, hname, heq⟩ := exists_of_mem_danglingReferences hdangling
      cases heq
      obtain ⟨hrefers, hundefined, hexcluded⟩ := Pojo.mem_undefined_iff.mp hname
      rw [hpojos]
      exact ⟨pojo, hpojo, rfl, hrefers, hundefined, hexcluded⟩

end

/-- Pets with an owner and keepers, none of whom is described. -/
def strayPets : Document :=
  .ofSchemas
    [("Pet", .inline { properties :=
      [("owner", .ref "#/components/schemas/Owner"),
        ("keepers", .inline
          { types := some (.single .array)
            items := some (.ref "#/components/schemas/owner") })] })]

/-- Two references of one key that lead nowhere give one warning. -/
theorem set_is_closed_without_owner :
    ∃ set, (mapDocument {} strayPets).2 = .ok set
      ∧ ∃ pojo ∈ set.pojos, pojo.references = [⟨"Owner", ""⟩, ⟨"owner", ""⟩]
        ∧ set.warnings.countP (Warning.isDangling pojo.name "owner") = 1 := by
  obtain ⟨set, hset, hchecked⟩ := exists_ok_of_any_toOption
    (show ((mapDocument {} strayPets).2.toOption.any fun set =>
      (set.pojos.any fun pojo => decide (pojo.references = [⟨"Owner", ""⟩, ⟨"owner", ""⟩]))
        && set.pojos.all (·.name.key != "owner")) = true by decide +kernel)
  simp only [Bool.and_eq_true, List.any_eq_true, List.all_eq_true, decide_eq_true_eq,
    bne_iff_ne] at hchecked
  obtain ⟨⟨pojo, hpojo, hreferences⟩, hundefined⟩ := hchecked
  have hmem : ⟨"Owner", ""⟩ ∈ pojo.references := by simp [hreferences]
  obtain ⟨type, hholds, hname⟩ := Pojo.mem_references_iff.mp hmem
  obtain ⟨exclusion, hexclusion, hclosed, -⟩ := set_is_closed rfl hset
  have hkey : PojoName.key ⟨"Owner", ""⟩ = "owner" := by decide +kernel
  refine ⟨set, hset, pojo, hpojo, hreferences, ?_⟩
  rw [← hkey]
  rcases (hclosed pojo hpojo).2.2 type hholds _ hname with ⟨top, htop, heq⟩ | hexcluded | honce
  · exact absurd (heq.trans hkey) (hundefined top htop)
  · obtain rfl := Except.ok.inj hexclusion
    cases hexcluded
  · exact honce

end PojoGraph
