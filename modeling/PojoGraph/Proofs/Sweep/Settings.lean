import PojoGraph.Proofs.Classification.Sites
import PojoGraph.Resolution

/-!
# Settings that matter to resolution

Classification asks the settings for four things: the suffix of names, the classes for scalars,
those for formats, and how enum values are described. Everything up to the resolution of
compositions is the same for settings that agree on these, whatever they exclude, inline or
rename.

## Main definitions

* `Settings.classifying` — the settings with all else left at its default.

## Main statements

* `resolve_classifying` — resolution depends on these settings alone.
-/

namespace PojoGraph

/-- The settings that classification depends on; all others have their defaults. -/
def Settings.classifying (settings : Settings) : Settings where
  suffix := settings.suffix
  classMappings := settings.classMappings
  formatMappings := settings.formatMappings
  enumDescription := settings.enumDescription

variable (settings : Settings)

/-! ## Types -/

theorem mapSchema_classifying : mapSchema settings.classifying = mapSchema settings := by
  funext owner member registry schema
  induction schema using Schema.childInduction with
  | ref target => rw [mapSchema_ref, mapSchema_ref]; rfl
  | inline k ih =>
    rw [mapSchema_inline, mapSchema_inline]
    cases k.form with
    | list =>
      cases hitems : k.items with
      | none => rfl
      | some item => simp only [ih item (Keywords.mem_children_of_items hitems)]
    | map =>
      cases hadditional : k.additional with
      | none => rfl
      | some additional =>
        cases additional with
        | flag _ => rfl
        | schema value => simp only [ih value (Keywords.mem_children_of_additional hadditional)]
    | _ => rfl

theorem mapType_classifying : Survey.mapType settings.classifying = Survey.mapType settings := by
  funext owner survey member schema
  rw [Survey.mapType, Survey.mapType, mapSchema_classifying]

/-! ## Parts of a classification -/

theorem membersOf_classifying : membersOf settings.classifying = membersOf settings := by
  have hmember : memberOf settings.classifying = memberOf settings := by
    funext owner required survey property
    rw [memberOf, memberOf, mapType_classifying]
  funext owner k survey
  rw [membersOf, membersOf, hmember]

theorem additionalOf_classifying : additionalOf settings.classifying = additionalOf settings := by
  funext owner k survey
  simp only [additionalOf, mapType_classifying]

theorem stubOf_classifying : stubOf settings.classifying = stubOf settings := by
  have hbranches : branchesOf settings.classifying = branchesOf settings := rfl
  have hsketch : sketchOf settings.classifying = sketchOf settings := rfl
  funext owner k survey
  simp only [stubOf, hbranches, hsketch, membersOf_classifying, additionalOf_classifying]

theorem objectOf_classifying : objectOf settings.classifying = objectOf settings := by
  funext owner k survey
  simp only [objectOf, membersOf_classifying, additionalOf_classifying]

theorem plainOf_classifying : plainOf settings.classifying = plainOf settings := by
  funext owner schema description isNullable survey
  simp only [plainOf, mapType_classifying]

/-- **Classification depends on the classifying settings alone.** -/
theorem classify_classifying : classify settings.classifying = classify settings := by
  have henum : enumOf settings.classifying = enumOf settings := rfl
  have hinline : classifyInline settings.classifying = classifyInline settings := by
    funext owner k survey
    simp only [classifyInline, mapType_classifying, stubOf_classifying, objectOf_classifying,
      plainOf_classifying, henum]
  funext pending registry
  simp only [classify, plainOf_classifying, hinline]

/-! ## Resolution -/

namespace Sweep

theorem pass_classifying (sweep : Sweep) :
    sweep.pass settings.classifying = sweep.pass settings := by
  have hstep : step settings.classifying = step settings := by
    funext sweep schema
    simp only [step, classify_classifying]
  rw [pass, pass, hstep]

theorem after_classifying (sweep : Sweep) (n : Nat) :
    sweep.after settings.classifying n = sweep.after settings n := by
  induction n generalizing sweep with
  | zero => rfl
  | succ n ih => rw [after, after, pass_classifying, ih]

end Sweep

/-- **Resolution depends on the classifying settings alone.** -/
theorem resolve_classifying (registry : Registry) (roots : List Pending) :
    resolve settings.classifying registry roots = resolve settings registry roots := by
  rw [resolve, resolve, Sweep.run, Sweep.run, Sweep.after_classifying]

end PojoGraph
