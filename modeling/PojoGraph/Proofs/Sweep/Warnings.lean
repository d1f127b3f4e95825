import PojoGraph.Proofs.Sweep.Accounting

/-!
# Warnings of classification

While schemas are classified, a run warns of schemas that no rule recognizes and of enums that
are incomplete or no strings. References are no matter of classification: what is wrong with them
shows only in the set of all types, and is reported there.

## Main definitions

* `Warning.isOfClassification` — the warnings that classification gives.

## Main statements

* `isOfClassification_classify` — classification gives no others.
* `isOfClassification_resolve` — nor does a run before the final set is made.
-/

namespace PojoGraph

/-- Whether the warning tells of a schema, rather than of references between types. -/
def Warning.isOfClassification : Warning → Bool
  | unrecognizedShape .. => true
  | incompleteEnum .. => true
  | nonStringEnum .. => true
  | danglingReference .. => false
  | cyclicAlias .. => false

/-- All warnings of the survey tell of schemas. -/
def Survey.WarnsOfSchemas (survey : Survey) : Prop :=
  ∀ warning ∈ survey.warnings, warning.isOfClassification = true

section

variable {settings : Settings} {owner : PojoName} {survey : Survey}

theorem isOfClassification_mapSchema {member : String} {registry : Registry} {schema : Schema}
    {warning : Warning}
    (h : warning ∈ (mapSchema settings owner member registry schema).warnings) :
    warning.isOfClassification = true := by
  induction schema using Schema.childInduction with
  | ref target => rw [mapSchema_ref] at h; cases h
  | inline k ih =>
    rw [mapSchema_inline] at h
    cases hform : k.form with
    | list =>
      simp only [hform] at h
      cases hitems : k.items with
      | none => simp [hitems] at h
      | some item =>
        rw [hitems] at h
        exact ih item (Keywords.mem_children_of_items hitems) h
    | map =>
      simp only [hform] at h
      split at h
      · rename_i value hvalue
        exact ih value (Keywords.mem_children_of_additional hvalue) h
      · obtain rfl := List.mem_singleton.mp h
        rfl
      · obtain rfl := List.mem_singleton.mp h
        rfl
    | unrecognized =>
      simp only [hform] at h
      obtain rfl := List.mem_singleton.mp h
      rfl
    | _ => simp [hform] at h

namespace Survey.WarnsOfSchemas

theorem mapType (h : survey.WarnsOfSchemas) (member : String) (schema : Schema) :
    (survey.mapType settings owner member schema).2.WarnsOfSchemas := by
  intro warning hwarning
  rcases List.mem_append.mp hwarning with hbefore | hmapped
  · exact h warning hbefore
  · exact isOfClassification_mapSchema hmapped

theorem visitAll (h : survey.WarnsOfSchemas) (sites : List Site) :
    (survey.visitAll settings owner sites).WarnsOfSchemas := by
  induction sites generalizing survey with
  | nil => exact h
  | cons site rest ih =>
    cases site with
    | member name schema => exact ih (h.mapType name schema)
    | branch tag schema => exact ih h

theorem warn (h : survey.WarnsOfSchemas) {warning : Warning}
    (hwarning : warning.isOfClassification = true) : (survey.warn warning).WarnsOfSchemas := by
  intro other hother
  rcases List.mem_append.mp hother with hbefore | hnew
  · exact h other hbefore
  · rwa [List.mem_singleton.mp hnew]

theorem enumOf (h : survey.WarnsOfSchemas) {k : Keywords Schema} {values : List String}
    {pojo : Pojo} {survey' : Survey}
    (henum : PojoGraph.enumOf settings owner k values survey = .ok (pojo, survey')) :
    survey'.WarnsOfSchemas := by
  rw [PojoGraph.enumOf] at henum
  split at henum
  · dsimp only at henum
    split_ifs at henum
    · cases henum
      exact h
    · cases henum
      exact h.warn rfl
  · cases henum
    exact h

end Survey.WarnsOfSchemas

/-- **Classification warns of schemas only.** -/
theorem warnsOfSchemas_classify {pending : Pending} {registry : Registry}
    {classified : Classified} {survey : Survey}
    (h : classify settings pending registry = .ok (classified, survey)) :
    survey.WarnsOfSchemas := by
  have hempty : Survey.WarnsOfSchemas { registry } := by
    intro warning hwarning
    cases hwarning
  obtain ⟨name, schema⟩ := pending
  cases schema with
  | ref target =>
    cases h
    exact hempty.mapType valueMember _
  | inline k =>
    have hsurvey : (if k.enumValues.isEmpty then ({ registry } : Survey)
        else Survey.warn { registry } (.nonStringEnum name)).WarnsOfSchemas := by
      split
      · exact hempty
      · exact hempty.warn rfl
    cases classifies_classify h with
    | array hshape => exact hempty.mapType valueMember _
    | nullReference hshape hreference => exact hempty.mapType valueMember _
    | composed hshape hreference hcomposition =>
      rw [survey_stubOf]
      exact hempty.visitAll _
    | object hshape hreference hcomposition hobject =>
      rw [survey_objectOf]
      exact hempty.visitAll _
    | enum hsimple hvalues henum => exact hempty.enumOf henum
    | freeForm hsimple hvalues hfree => exact hsurvey
    | plain hsimple hvalues hfree hwarned =>
      subst hwarned
      exact hsurvey.mapType valueMember _

end

/-! ## Runs -/

namespace Sweep

variable {settings : Settings} {sweep : Sweep}

/-- All warnings of the sweep tell of schemas. -/
def WarnsOfSchemas (sweep : Sweep) : Prop :=
  ∀ warning ∈ sweep.warnings, warning.isOfClassification = true

namespace WarnsOfSchemas

theorem step (h : sweep.WarnsOfSchemas) (pending : Pending) :
    (sweep.step settings pending).WarnsOfSchemas := by
  rw [Sweep.step]
  split
  · exact h
  · rename_i classified survey hclassify
    intro warning hwarning
    rcases List.mem_append.mp hwarning with hbefore | hnew
    · exact h warning hbefore
    · exact warnsOfSchemas_classify hclassify warning hnew

theorem pass (h : sweep.WarnsOfSchemas) : (sweep.pass settings).WarnsOfSchemas := by
  rw [Sweep.pass]
  split
  · exact h
  · exact List.foldlRecOn _ _ (show sweep.begin.WarnsOfSchemas from h)
      fun _ hbefore pending _ => hbefore.step pending

theorem after (h : sweep.WarnsOfSchemas) (n : Nat) :
    (sweep.after settings n).WarnsOfSchemas := by
  induction n with
  | zero => exact h
  | succ n ih =>
    rw [after_succ]
    exact ih.pass

end WarnsOfSchemas

end Sweep

/-- **A run warns of schemas only, before the final set is made.** -/
theorem isOfClassification_resolve {settings : Settings} {registry : Registry}
    {roots : List Pending} {resolution : Resolution}
    (h : (resolve settings registry roots).2 = .ok resolution) :
    ∀ warning ∈ resolution.warnings, warning.isOfClassification = true := by
  have hsweep : (Sweep.run settings registry roots).WarnsOfSchemas := by
    refine Sweep.WarnsOfSchemas.after ?_ _
    intro warning hwarning
    cases hwarning
  obtain ⟨-, -, hwarnings⟩ := snd_resolve_eq_ok_iff.mp h
  rw [← hwarnings]
  exact hsweep

end PojoGraph
