import PojoGraph.Proofs.Classification.Discovery
import PojoGraph.Proofs.Names.Claiming

/-!
# The names of found schemas

The name of a schema that classification finds is made of the name of the classified schema and
of the site where the found one stands, and then claimed. Which names are asked for is thus read
off the schema, like the found schemas themselves; which ones they get is a matter of claiming
them in order.

## Main definitions

* `Site.derivedNames`, `Schema.derivedNames` — the names asked for at a site, and in a schema.

## Main statements

* `claimAll_classify` — the found schemas have the names that claiming the derived ones gives.
-/

namespace PojoGraph

/-- The names asked for at a site of a schema that is classified under the name `owner`: one for
each schema found there. -/
def Site.derivedNames (owner : PojoName) : Site → List PojoName
  | .member name schema => schema.nested.map fun _ => owner.ofMember name
  | .branch tag _ => [owner.append tag]

/-- The names asked for by the classification of a schema under the name `owner`, in order. -/
def Schema.derivedNames (schema : Schema) (owner : PojoName) : List PojoName :=
  schema.sites.flatMap (Site.derivedNames owner)

section

variable (settings : Settings) (owner : PojoName)

/-- Mapping a schema claims the name of its member, once for each nested schema. -/
theorem claimAll_mapSchema (member : String) (registry : Registry) (schema : Schema) :
    registry.claimAll (schema.nested.map fun _ => owner.ofMember member)
      = ((mapSchema settings owner member registry schema).found.map (·.name),
        (mapSchema settings owner member registry schema).registry) := by
  induction schema using Schema.childInduction with
  | ref target => rw [mapSchema_ref, Schema.nested]; rfl
  | inline k ih =>
    rw [mapSchema_inline, Schema.nested_inline]
    cases k.form with
    | list =>
      cases hitems : k.items with
      | none => rfl
      | some item => exact ih item (Keywords.mem_children_of_items hitems)
    | map =>
      cases hadditional : k.additional with
      | none => rfl
      | some additional =>
        cases additional with
        | flag _ => rfl
        | schema value => exact ih value (Keywords.mem_children_of_additional hadditional)
    | _ => rfl

/-- The names that a survey gains at a list of sites. -/
theorem claimAll_visitAll (survey : Survey) (sites : List Site) :
    (survey.visitAll settings owner sites).found.map (·.name)
        = survey.found.map (·.name)
          ++ (survey.registry.claimAll (sites.flatMap (Site.derivedNames owner))).1
      ∧ (survey.visitAll settings owner sites).registry
        = (survey.registry.claimAll (sites.flatMap (Site.derivedNames owner))).2 := by
  induction sites generalizing survey with
  | nil => exact ⟨(List.append_nil _).symm, rfl⟩
  | cons site rest ih =>
    have hcons : survey.visitAll settings owner (site :: rest)
        = (survey.visit settings owner site).visitAll settings owner rest := rfl
    obtain ⟨hnames, hregistry⟩ := ih (survey.visit settings owner site)
    rw [hcons, hnames, hregistry, List.flatMap_cons, Registry.claimAll_append]
    cases site with
    | member name schema =>
      simp only [Site.derivedNames]
      rw [claimAll_mapSchema settings owner name survey.registry schema]
      simp [Survey.visit, Survey.mapType]
    | branch tag schema =>
      simp [Site.derivedNames, Survey.visit, Survey.discover, Registry.claimAll]

end

/-- **The schemas that a classification finds have the names that it gets by claiming the derived
ones in order.** -/
theorem claimAll_classify {settings : Settings} {pending : Pending} {registry : Registry}
    {classified : Classified} {survey : Survey}
    (h : classify settings pending registry = .ok (classified, survey)) :
    registry.claimAll (pending.schema.derivedNames pending.name)
      = (survey.found.map (·.name), survey.registry) := by
  obtain ⟨hregistry, hfound⟩ := survey_classify h
  obtain ⟨hnames, hclaimed⟩ :=
    claimAll_visitAll settings pending.name { registry } pending.schema.sites
  rw [hregistry, hfound, hnames, hclaimed]
  rfl

end PojoGraph
