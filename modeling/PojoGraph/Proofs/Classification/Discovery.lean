import Mathlib.Logic.Relation
import PojoGraph.Proofs.Classification.Sites
import PojoGraph.Proofs.Names.Numbering

/-!
# Schemas found by classification

Two things are known of the schemas that a classification finds, whatever the settings and the
names taken before. Each is claimed under a key that is new, and the registry gains no other
keys. And which schemas they are is read off the classified schema alone: they lie inside it,
unless it is an array by the rule of classification and an object by the rule of mapping. Such
a schema finds itself.

## Main definitions

* `Registry.Claims` — the names of found schemas are new, and are all that was taken.
* `Schema.discovered` — the schemas that classification finds in a schema.
* `Schema.findsItself` — whether the schema is among them.
* `Schema.Inside` — the proper sub-schema relation.

## Main statements

* `claims_classify` — found schemas have new names of their own.
* `schemas_found_classify` — found schemas are the discovered ones, in order.
* `Schema.inside_of_mem_discovered` — they lie inside the schema that does not find itself.
-/

namespace PojoGraph

/-! ## Names -/

/-- The schemas found between two states of a registry: their keys are new and pairwise
different, and they are the only keys that have been added. -/
structure Registry.Claims (before : Registry) (found : List Pending) (after : Registry) :
    Prop where
  keys : after.keys = (found.map (·.name.key)).reverse ++ before.keys
  fresh : ∀ pending ∈ found, pending.name.key ∉ before.keys
  nodup : (found.map (·.name.key)).Nodup

namespace Registry.Claims

variable {before middle after : Registry} {found found' : List Pending}

theorem refl (registry : Registry) : registry.Claims [] registry :=
  ⟨rfl, by simp, List.nodup_nil⟩

theorem trans (h : before.Claims found middle) (h' : middle.Claims found' after) :
    before.Claims (found ++ found') after where
  keys := by
    rw [h'.keys, h.keys, List.map_append, List.reverse_append, List.append_assoc]
  fresh := by
    intro pending hpending
    rcases List.mem_append.mp hpending with hfound | hfound
    · exact h.fresh pending hfound
    · intro hbefore
      refine h'.fresh pending hfound ?_
      rw [h.keys]
      exact List.mem_append_right _ hbefore
  nodup := by
    rw [List.map_append]
    refine List.nodup_append.mpr ⟨h.nodup, h'.nodup, ?_⟩
    rintro key hkey _ hkey' rfl
    obtain ⟨pending, hpending, rfl⟩ := List.mem_map.mp hkey'
    refine h'.fresh pending hpending ?_
    rw [h.keys]
    exact List.mem_append_left _ (List.mem_reverse.mpr hkey)

theorem claim (registry : Registry) (name : PojoName) (schema : Schema) :
    registry.Claims [⟨(registry.claim name).1, schema⟩] (registry.claim name).2 where
  keys := by simp
  fresh := by
    intro pending hpending
    obtain rfl := List.mem_singleton.mp hpending
    exact registry.key_choose_not_mem name
  nodup := List.nodup_singleton _

/-- The keys that were taken before still are. -/
theorem mem_of_mem_before (h : before.Claims found after) {key : String}
    (hkey : key ∈ before.keys) : key ∈ after.keys := by
  rw [h.keys]
  exact List.mem_append_right _ hkey

/-- The keys of the found schemas are taken. -/
theorem mem_of_mem_found (h : before.Claims found after) {pending : Pending}
    (hpending : pending ∈ found) : pending.name.key ∈ after.keys := by
  rw [h.keys]
  exact List.mem_append_left _ (List.mem_reverse.mpr (List.mem_map_of_mem hpending))

end Registry.Claims

/-! ## Discovered schemas -/

/-- The schemas left to be classified by themselves once a schema has been mapped to a type:
the inline object in which the type ends, if it ends in one. -/
def Schema.nested : Schema → List Schema
  | .ref _ => []
  | .inline ⟨facets, properties, additional, items, allOf, oneOf, anyOf⟩ =>
    let k : Keywords Schema := ⟨facets, properties, additional, items, allOf, oneOf, anyOf⟩
    match k.form with
    | .object => [.inline k]
    | .list =>
      match items with
      | some item => item.nested
      | none => []
    | .map =>
      match additional with
      | some (.schema value) => value.nested
      | some (.flag _) => []
      | none => []
    | _ => []

/-- The schemas found at a site. -/
def Site.schemas : Site → List Schema
  | .member _ schema => schema.nested
  | .branch _ schema => [schema]

/-- The schemas that classification finds in a schema, in order. -/
def Schema.discovered (schema : Schema) : List Schema :=
  schema.sites.flatMap Site.schemas

theorem Schema.nested_inline (k : Keywords Schema) :
    (Schema.inline k).nested =
      match k.form with
      | .object => [.inline k]
      | .list =>
        match k.items with
        | some item => item.nested
        | none => []
      | .map =>
        match k.additional with
        | some (.schema value) => value.nested
        | some (.flag _) => []
        | none => []
      | _ => [] := by
  obtain ⟨facets, properties, additional, items, allOf, oneOf, anyOf⟩ := k
  rw [nested.eq_def]

section

variable (settings : Settings) (owner : PojoName)

/-- Mapping a schema claims a name for each nested schema. -/
theorem found_mapSchema (member : String) (registry : Registry) (schema : Schema) :
    registry.Claims (mapSchema settings owner member registry schema).found
        (mapSchema settings owner member registry schema).registry
      ∧ (mapSchema settings owner member registry schema).found.map (·.schema)
        = schema.nested := by
  induction schema using Schema.childInduction with
  | ref target => rw [mapSchema_ref, Schema.nested]; exact ⟨.refl registry, rfl⟩
  | inline k ih =>
    rw [mapSchema_inline, Schema.nested_inline]
    cases k.form with
    | object => exact ⟨.claim registry _ _, rfl⟩
    | list =>
      cases hitems : k.items with
      | none => exact ⟨.refl registry, rfl⟩
      | some item => exact ih item (Keywords.mem_children_of_items hitems)
    | map =>
      cases hadditional : k.additional with
      | none => exact ⟨.refl registry, rfl⟩
      | some additional =>
        cases additional with
        | flag _ => exact ⟨.refl registry, rfl⟩
        | schema value => exact ih value (Keywords.mem_children_of_additional hadditional)
    | _ => exact ⟨.refl registry, rfl⟩

/-- What a survey gains at a list of sites. -/
theorem found_visitAll (survey : Survey) (sites : List Site) :
    ∃ found, (survey.visitAll settings owner sites).found = survey.found ++ found
      ∧ survey.registry.Claims found (survey.visitAll settings owner sites).registry
      ∧ found.map (·.schema) = sites.flatMap Site.schemas := by
  induction sites generalizing survey with
  | nil => exact ⟨[], by simp [Survey.visitAll], .refl _, rfl⟩
  | cons site rest ih =>
    obtain ⟨found, hfound, hclaims, hschemas⟩ := ih (survey.visit settings owner site)
    have hcons : survey.visitAll settings owner (site :: rest)
        = (survey.visit settings owner site).visitAll settings owner rest := rfl
    rw [hcons, hfound]
    cases site with
    | member name schema =>
      obtain ⟨hmapped, hnested⟩ := found_mapSchema settings owner name survey.registry schema
      refine ⟨_ ++ found, List.append_assoc .., hmapped.trans hclaims, ?_⟩
      rw [List.map_append, hnested, hschemas]
      rfl
    | branch tag schema =>
      have hclaim := Registry.Claims.claim survey.registry (owner.append tag) schema
      refine ⟨_ ++ found, List.append_assoc .., hclaim.trans hclaims, ?_⟩
      rw [List.map_append, hschemas]
      rfl

end

section

variable {settings : Settings} {pending : Pending} {registry : Registry} {classified : Classified}
  {survey : Survey}

/-- The schemas that a classification finds have new names, each its own. -/
theorem claims_classify (h : classify settings pending registry = .ok (classified, survey)) :
    registry.Claims survey.found survey.registry := by
  obtain ⟨hregistry, hfound⟩ := survey_classify h
  obtain ⟨found, hall, hclaims, -⟩ :=
    found_visitAll settings pending.name { registry } pending.schema.sites
  rw [hregistry, hfound, hall]
  exact hclaims

/-- The schemas that a classification finds depend on the classified schema alone. -/
theorem schemas_found_classify
    (h : classify settings pending registry = .ok (classified, survey)) :
    survey.found.map (·.schema) = pending.schema.discovered := by
  obtain ⟨-, hfound⟩ := survey_classify h
  obtain ⟨found, hall, -, hschemas⟩ :=
    found_visitAll settings pending.name { registry } pending.schema.sites
  rw [hfound, hall]
  exact hschemas

end

/-! ## Schemas inside a schema -/

namespace Schema

/-- One schema stands directly in another. -/
def IsChild (child parent : Schema) : Prop :=
  ∃ k, parent = .inline k ∧ child ∈ k.children

/-- One schema stands in another, at any depth. -/
def Inside : Schema → Schema → Prop :=
  Relation.TransGen IsChild

theorem size_lt_of_inside {schema outer : Schema} (h : schema.Inside outer) :
    schema.size < outer.size := by
  have hchild : ∀ {child parent : Schema}, IsChild child parent → child.size < parent.size := by
    rintro child _ ⟨k, rfl, hchild⟩
    exact size_lt_of_mem_children hchild
  induction h with
  | single h => exact hchild h
  | tail _ h ih => exact Nat.lt_trans ih (hchild h)

/-- Whether classification finds the schema in itself: it is classified as an array, but mapped
as an object, since it declares properties or is composed of something other than a single
reference. -/
def findsItself : Schema → Bool
  | ref _ => false
  | inline k => k.isArrayShaped && k.isInlineObject && k.singleReference?.isNone

end Schema

namespace Keywords

variable {k : Keywords Schema}

/-- A schema is mapped as an object if it looks like one and is not just a reference. -/
theorem form_eq_object_iff :
    k.form = .object ↔ k.isInlineObject = true ∧ k.singleReference? = none := by
  rw [form]
  cases k.singleReference? with
  | some target => simp
  | none =>
    cases k.isInlineObject with
    | true => simp
    | false =>
      simp only [Bool.false_eq_true, if_false, false_and, iff_false]
      repeat' split
      all_goals simp

end Keywords

/-- What is nested in a schema stands inside it, unless the schema is mapped as an object: then
it is the schema itself. -/
theorem Schema.inside_or_eq_of_mem_nested {schema inner : Schema} (h : inner ∈ schema.nested) :
    inner.Inside schema ∨ inner = schema ∧ ∃ k, schema = .inline k ∧ k.form = .object := by
  induction schema using Schema.childInduction with
  | ref target => simp [nested] at h
  | inline k ih =>
    have hdescend : ∀ child ∈ k.children, inner ∈ child.nested → inner.Inside (.inline k) := by
      intro child hchild hinner
      rcases ih child hchild hinner with hinside | ⟨rfl, -⟩
      · exact .tail hinside ⟨k, rfl, hchild⟩
      · exact .single ⟨k, rfl, hchild⟩
    rw [nested_inline] at h
    cases hform : k.form with
    | object => simp only [hform, List.mem_singleton] at h; exact .inr ⟨h, k, rfl, hform⟩
    | list =>
      cases hitems : k.items with
      | none => simp [hform, hitems] at h
      | some item =>
        simp only [hform, hitems] at h
        exact .inl (hdescend item (Keywords.mem_children_of_items hitems) h)
    | map =>
      simp only [hform] at h
      split at h
      · rename_i value hvalue
        exact .inl (hdescend value (Keywords.mem_children_of_additional hvalue) h)
      · cases h
      · cases h
    | _ => simp [hform] at h

theorem Schema.inside_of_mem_nested_child {k : Keywords Schema} {child inner : Schema}
    (hchild : child ∈ k.children) (h : inner ∈ child.nested) : inner.Inside (.inline k) := by
  rcases inside_or_eq_of_mem_nested h with hinside | ⟨rfl, -⟩
  · exact .tail hinside ⟨k, rfl, hchild⟩
  · exact .single ⟨k, rfl, hchild⟩

theorem schemas_branchSites (kind : CompositionKind) (schemas : List Schema) :
    (branchSites kind schemas).flatMap Site.schemas
      = (schemas.filter (!·.isNullType)).filter Schema.isInline := by
  have hfrom : ∀ (isNumbered : Bool) (number : Nat) (branches : List Schema),
      (branchSitesFrom kind isNumbered number branches).flatMap Site.schemas
        = branches.filter Schema.isInline := by
    intro isNumbered number branches
    induction branches generalizing number with
    | nil => rfl
    | cons branch rest ih =>
      cases branch with
      | ref target => simpa [branchSitesFrom, Schema.isInline] using ih number
      | inline k =>
        rw [branchSitesFrom, List.flatMap_cons, ih (number + 1)]
        rfl
  exact hfrom _ 0 _

namespace Keywords

variable {k : Keywords Schema} {inner : Schema}

theorem mem_children_of_mem_branchSites {kind : CompositionKind} {schemas : List Schema}
    (h : inner ∈ (branchSites kind schemas).flatMap Site.schemas) : inner ∈ schemas := by
  rw [schemas_branchSites] at h
  exact List.mem_of_mem_filter (List.mem_of_mem_filter h)

/-- What is found at the members lies in the schemas of properties. -/
theorem inside_of_mem_memberSites (h : inner ∈ k.memberSites.flatMap Site.schemas) :
    inner.Inside (.inline k) := by
  obtain ⟨site, hsite, hinner⟩ := List.mem_flatMap.mp h
  obtain ⟨property, hproperty, rfl⟩ := List.mem_map.mp hsite
  have hchild : property.2 ∈ k.children := by
    have hmem : property.2 ∈ k.properties.map (·.2) := List.mem_map_of_mem hproperty
    simp only [children, List.mem_append]
    exact .inl (.inl (.inl (.inl (.inl hmem))))
  exact Schema.inside_of_mem_nested_child hchild hinner

theorem inside_of_mem_additionalSites (h : inner ∈ k.additionalSites.flatMap Site.schemas) :
    inner.Inside (.inline k) := by
  rw [additionalSites] at h
  split at h
  · rename_i value hvalue
    split at h
    · cases h
    · have hinner : inner ∈ value.nested := by simpa [Site.schemas] using h
      exact Schema.inside_of_mem_nested_child (mem_children_of_additional hvalue) hinner
  · cases h

/-- What is found in a schema that is classified by itself as a type stands inside it, unless
mapping takes the schema for an object. -/
theorem inside_of_mem_valueSites (hform : k.form ≠ .object)
    (h : inner ∈ k.valueSites.flatMap Site.schemas) : inner.Inside (.inline k) := by
  have hinner : inner ∈ (Schema.inline k).nested := by simpa [valueSites, Site.schemas] using h
  rcases Schema.inside_or_eq_of_mem_nested hinner with hinside | ⟨-, _, hk, hobject⟩
  · exact hinside
  · cases hk
    exact absurd hobject hform

theorem IsSimple.form_ne_object (h : k.IsSimple) : k.form ≠ .object := by
  intro hform
  have hproperties : k.properties.isEmpty = true := by
    have hobject := h.isObjectShaped
    simp only [Keywords.isObjectShaped, Bool.or_eq_false_iff, Bool.not_eq_false'] at hobject
    exact hobject.1
  have hinline := (form_eq_object_iff.mp hform).1
  simp [isInlineObject, hproperties, h.hasComposition] at hinline

end Keywords

namespace Schema

/-- **What classification finds in a schema stands inside it**, unless the schema finds
itself. -/
theorem inside_of_mem_discovered {schema inner : Schema} (hself : schema.findsItself = false)
    (h : inner ∈ schema.discovered) : inner.Inside schema := by
  cases schema with
  | ref target => simp [discovered, sites, Site.schemas, nested] at h
  | inline k =>
    change inner ∈ k.sites.flatMap Site.schemas at h
    rw [Keywords.sites] at h
    split_ifs at h with hshape hreference hcomposition hobject hfree
    · have hform : k.form ≠ .object := by
        rw [ne_eq, Keywords.form_eq_object_iff]
        intro hobject
        simp [findsItself, hshape, hobject.1, hobject.2] at hself
      exact Keywords.inside_of_mem_valueSites hform h
    · have hform : k.form ≠ .object := by
        rw [ne_eq, Keywords.form_eq_object_iff]
        intro hobject
        simp [hobject.2] at hreference
      exact Keywords.inside_of_mem_valueSites hform h
    · simp only [List.flatMap_append, List.mem_append] at h
      rcases h with (((h | h) | h) | h) | h
      · have hmem := Keywords.mem_children_of_mem_branchSites h
        exact .single ⟨k, rfl, by simp [Keywords.children, hmem]⟩
      · have hmem := Keywords.mem_children_of_mem_branchSites h
        exact .single ⟨k, rfl, by simp [Keywords.children, hmem]⟩
      · have hmem := Keywords.mem_children_of_mem_branchSites h
        exact .single ⟨k, rfl, by simp [Keywords.children, hmem]⟩
      · exact Keywords.inside_of_mem_memberSites h
      · exact Keywords.inside_of_mem_additionalSites h
    · rw [List.flatMap_append, List.mem_append] at h
      rcases h with h | h
      · exact Keywords.inside_of_mem_memberSites h
      · exact Keywords.inside_of_mem_additionalSites h
    · cases h
    · have hsimple : k.IsSimple :=
        ⟨by simpa using hshape, by simpa using hreference, by simpa using hcomposition,
          by simpa using hobject⟩
      exact Keywords.inside_of_mem_valueSites hsimple.form_ne_object h

/-- A schema that finds itself finds nothing else. -/
theorem discovered_of_findsItself {schema : Schema} (hself : schema.findsItself = true) :
    schema.discovered = [schema] := by
  cases schema with
  | ref target => cases hself
  | inline k =>
    simp only [findsItself, Bool.and_eq_true, Option.isNone_iff_eq_none] at hself
    obtain ⟨⟨hshape, hinline⟩, hreference⟩ := hself
    have hform : k.form = .object := Keywords.form_eq_object_iff.mpr ⟨hinline, hreference⟩
    simp [discovered, sites, Keywords.sites, hshape, Keywords.valueSites, Site.schemas,
      nested_inline, hform]

end Schema

end PojoGraph
