import PojoGraph.Proofs.Extraction.Classification
import PojoGraph.Proofs.Names.Ascii

/-!
# Schemas made of properties

An object written in place at a property can be made a schema of its own, under the very name that
it gets where it is found, and be referred to at the property.

## Main definitions

* `Extraction` — a schema with an object written in place at a property.
* `Extraction.nesting`, `Extraction.referring`, `Extraction.extracted` — the schema as it is, the
  schema with a reference at the property, and the schema made of the object.
* `Extraction.revision` — passes the description of the object on.

## Main statements

* `Extraction.offspring_nesting` — what is found in both schemas.
* `Extraction.outcome_nesting` — what both schemas turn out to be.
* `Extraction.exists_row_extracted` — what the object turns out to be.
-/

namespace PojoGraph

open Text

theorem Text.afterLast_append {separator : Char} (lead : List Char) {tail : List Char}
    (h : separator ∉ tail) : afterLast separator (lead ++ separator :: tail) = tail := by
  have htail : ∀ c ∈ tail.reverse, (c != separator) = true := by
    intro c hc
    rw [bne_iff_ne]
    rintro rfl
    exact h (List.mem_reverse.mp hc)
  rw [afterLast, List.reverse_append, List.reverse_cons, List.append_assoc,
    List.takeWhile_append_of_pos htail]
  simp

/-- A schema that is no array, with an object written in place at a property. -/
structure Extraction where
  owner : String
  /-- What the schema says, but for its properties. -/
  keywords : Keywords Schema
  before : List (String × Schema)
  property : String
  /-- The object at the property. -/
  inner : Keywords Schema
  after : List (String × Schema)
  isAscii_owner : IsAscii owner
  isAscii_property : IsAscii property
  isArrayShaped : keywords.isArrayShaped = false
  isExtractable : inner.IsExtractable

namespace Extraction

variable (e : Extraction) (settings : Settings)

/-- The key under which the object is made a schema of its own. -/
def key : String :=
  typeIdentifier e.owner ++ typeIdentifier e.property

/-- The reference to that schema. -/
def reference : String :=
  "#/components/schemas/" ++ e.key

/-- The properties, with the given schema in the place of the object. -/
def properties (schema : Schema) : List (String × Schema) :=
  e.before ++ (e.property, schema) :: e.after

/-- The schema with the object written in place. -/
def nesting : String × Schema :=
  (e.owner, .inline (e.keywords.withProperties (e.properties (.inline e.inner))))

/-- The schema with a reference in place of the object. -/
def referring : String × Schema :=
  (e.owner, .inline (e.keywords.withProperties (e.properties (.ref e.reference))))

/-- The object as a schema of its own. -/
def extracted : String × Schema :=
  (e.key, .inline e.inner)

/-- The description of the object, if it has one. -/
def described : List Described :=
  (e.inner.description.map (⟨settings.pojoName e.key, ·⟩)).toList

/-- Passes the description of the object on. -/
def revision : Revision :=
  .sequence Revision.describe (e.described settings)

/-! ## Names -/

theorem toList_reference :
    e.reference.toList = "#/components/schemas/".toList ++ e.key.toList :=
  String.toList_append

theorem refName_reference : refName e.reference = e.key := by
  have hkey : '/' ∉ e.key.toList := by
    rw [key, String.toList_append, List.mem_append]
    rintro (hmem | hmem)
    · exact ne_slash_of_isWordChar (isWordChar_typeIdentifier e.isAscii_owner _ hmem) rfl
    · exact ne_slash_of_isWordChar (isWordChar_typeIdentifier e.isAscii_property _ hmem) rfl
  have hlead : "#/components/schemas/".toList = "#/components/schemas".toList ++ ['/'] := by decide
  rw [refName, toList_reference, hlead, List.append_assoc, List.singleton_append,
    afterLast_append _ hkey, String.ofList_toList]

theorem refFile_reference : refFile e.reference = none := by
  have hlead : "#/components/schemas/".toList = '#' :: "/components/schemas/".toList := by decide
  rw [refFile, toList_reference, hlead, List.cons_append, splitOnce, if_pos rfl]

/-- The object is found under the name of the schema made of it. -/
theorem ofMember_property : (settings.pojoName e.owner).ofMember e.property
    = settings.pojoName e.key :=
  rfl

/-! ## Members -/

variable {settings}

/-- The member of the property is the same up to the description, of which there is none in a
reference. -/
theorem bareMember_property (required : List String) :
    (e.revision settings).member
        (bareMember settings (settings.pojoName e.owner) required (e.property, .inline e.inner))
      = (e.revision settings).member (bareMember settings (settings.pojoName e.owner) required
        (e.property, .ref e.reference)) := by
  have hname : ({} : Registry).choose (settings.pojoName e.key) = settings.pojoName e.key :=
    Registry.choose_eq_self_iff.mpr List.not_mem_nil
  have htype : (mapSchema settings (settings.pojoName e.owner) e.property {}
      (.inline e.inner)).type = .object (settings.pojoName e.key) := by
    rw [mapSchema_inline, e.isExtractable.form_eq]
    simp only [Registry.fst_claim, ofMember_property, hname]
  have htype' : (mapSchema settings (settings.pojoName e.owner) e.property {}
      (.ref e.reference)).type = .object (settings.pojoName e.key) := by
    rw [mapSchema_ref, refName_reference]
  simp only [bareMember, memberOf, Survey.mapType, htype, htype', e.isExtractable.isNullable]
  cases hdescription : e.inner.description with
  | none => rfl
  | some description =>
    simp [revision, described, hdescription, Revision.sequence, Revision.describe, Member.describe,
      Member.refersTo, DataType.object, DataType.objectName?]

theorem giveAlike : GiveAlike settings (settings.pojoName e.owner) e.keywords.required
    (e.revision settings) (e.properties (.inline e.inner)) (e.properties (.ref e.reference)) where
  keys := by simp [properties]
  members := by simp [properties, e.bareMember_property]
  warnings := by
    have hinner : bareWarnings settings (settings.pojoName e.owner) (e.property, .inline e.inner)
        = [] := by
      rw [bareWarnings, mapSchema_inline, e.isExtractable.form_eq]
    have hreference : bareWarnings settings (settings.pojoName e.owner)
        (e.property, .ref e.reference) = [] := by
      rw [bareWarnings, mapSchema_ref]
    simp [properties, hinner, hreference]

/-! ## What is found -/

/-- **Besides the object the same is found in both schemas.** -/
theorem offspring_nesting : (Pending.ofSchema settings e.nesting).offspring.Perm
    (Pending.ofSchema settings e.extracted
      :: (Pending.ofSchema settings e.referring).offspring) := by
  obtain ⟨first, rest, hsites⟩ : ∃ first rest, ∀ schema,
      (e.keywords.withProperties (e.properties schema)).sites
        = first ++ Site.member e.property schema :: rest := by
    refine ⟨branchSites .allOf e.keywords.allOf ++ branchSites .oneOf e.keywords.oneOf
        ++ branchSites .anyOf e.keywords.anyOf
        ++ e.before.map fun property => .member property.1 property.2,
      (e.after.map fun property => .member property.1 property.2) ++ e.keywords.additionalSites,
      fun schema => ?_⟩
    rw [e.keywords.sites_withProperties (by simp [properties]) e.isArrayShaped]
    simp [Keywords.memberSites, Keywords.withProperties, properties]
  have hinner : Site.offspring (settings.pojoName e.owner) (.member e.property (.inline e.inner))
      = [Pending.ofSchema settings e.extracted] := by
    rw [Site.offspring, Site.derivedNames, Site.schemas, Schema.nested_inline,
      e.isExtractable.form_eq]
    rfl
  have hreference :
      Site.offspring (settings.pojoName e.owner) (.member e.property (.ref e.reference)) = [] := by
    rw [Site.offspring, Site.derivedNames, Schema.nested]
    rfl
  have hoffspring : ∀ schema, Pending.offspring ⟨settings.pojoName e.owner,
      .inline (e.keywords.withProperties (e.properties schema))⟩
        = first.flatMap (Site.offspring (settings.pojoName e.owner))
          ++ (Site.offspring (settings.pojoName e.owner) (.member e.property schema)
            ++ rest.flatMap (Site.offspring (settings.pojoName e.owner))) := by
    intro schema
    rw [Pending.offspring_eq, ← List.flatMap_cons, ← List.flatMap_append, ← hsites]
    rfl
  have hnesting := hoffspring (.inline e.inner)
  have hreferring := hoffspring (.ref e.reference)
  rw [hinner] at hnesting
  rw [hreference, List.nil_append] at hreferring
  rw [Pending.ofSchema, nesting, hnesting, Pending.ofSchema, Pending.ofSchema, referring,
    hreferring]
  exact List.perm_middle

/-! ## What the schemas turn out to be -/

section

variable
  (hgrants : ({} : Registry).Grants (Pending.ofSchema settings e.nesting).derivedNames)
  (hgrants' : ({} : Registry).Grants (Pending.ofSchema settings e.referring).derivedNames)

include hgrants hgrants'

/-- **Both schemas turn out to be the same**, up to the description of the member. -/
theorem outcome_nesting : ((Pending.ofSchema settings e.nesting).row? settings).map
        (fun entry => (entry.1, entry.2.revise (e.revision settings)))
      = ((Pending.ofSchema settings e.referring).row? settings).map
        (fun entry => (entry.1, entry.2.revise (e.revision settings)))
    ∧ (Pending.ofSchema settings e.nesting).warnings settings
      = (Pending.ofSchema settings e.referring).warnings settings
    ∧ (Pending.ofSchema settings e.nesting).fault? settings
      = (Pending.ofSchema settings e.referring).fault? settings := by
  obtain ⟨classified, classified', found, found', warnings, houtcome, houtcome', hrevise⟩ :=
    e.giveAlike.outcome e.isArrayShaped (by simp [properties]) (by simp [properties])
      hgrants hgrants'
  have hnesting : (Pending.ofSchema settings e.nesting).outcome settings
      = .ok (classified, found, warnings) := houtcome
  have hreferring : (Pending.ofSchema settings e.referring).outcome settings
      = .ok (classified', found', warnings) := houtcome'
  have hname : (Pending.ofSchema settings e.nesting).name
      = (Pending.ofSchema settings e.referring).name := rfl
  simp only [Pending.row?, Pending.warnings, Pending.fault?, hnesting, hreferring, hname,
    Option.map_some, hrevise, and_self]

end

variable (settings) in
/-- The object turns out to be a type with its name and its description. -/
theorem exists_row_extracted : ∃ classified,
    (Pending.ofSchema settings e.extracted).row? settings
        = some ((settings.pojoName e.key).key, classified)
      ∧ ∀ {final : ClassTable} {resolved : Resolved}, final.Becomes classified resolved.entry →
        ∃ pojo, resolved = .pojo pojo ∧ pojo.name = settings.pojoName e.key
          ∧ pojo.description = e.inner.description := by
  have hentry : ∀ {classified : Classified} {survey : Survey},
      classifyInline settings (settings.pojoName e.key) e.inner { registry := {} }
          = .ok (classified, survey) →
        (Pending.ofSchema settings e.extracted).row? settings
          = some ((settings.pojoName e.key).key, classified) := by
    intro classified survey hclassify
    have houtcome : (Pending.ofSchema settings e.extracted).outcome settings
        = withoutNames (.ok (classified, survey)) := congrArg withoutNames hclassify
    rw [Pending.row?, houtcome]
    rfl
  have hreference : (e.inner.hasNullBranch && e.inner.singleReference?.isSome) = false := by
    simp [e.isExtractable.singleReference?]
  cases hcomposed : e.inner.hasComposition with
  | true =>
    obtain ⟨survey, hclassify⟩ : ∃ survey,
        classifyInline settings (settings.pojoName e.key) e.inner { registry := {} }
          = .ok (.stub (stubOf settings (settings.pojoName e.key) e.inner { registry := {} }).1,
            survey) := by
      rw [classifyInline, e.isExtractable.isArrayShaped, hreference, hcomposed]
      exact ⟨_, rfl⟩
    refine ⟨_, hentry hclassify, fun {final resolved} hbecomes => ?_⟩
    cases resolved with
    | plain plain => cases hbecomes
    | pojo pojo =>
      cases hbecomes with
      | stub hready hresolve =>
        obtain ⟨-, rfl⟩ := ClassTable.resolve_eq_ok_iff.mp hresolve
        exact ⟨_, rfl, Stub.name_toPojo _ _, Stub.description_toPojo _ _⟩
  | false =>
    have hobject : e.inner.isObjectShaped = true := by
      have hinline := e.isExtractable.isInlineObject
      rw [Keywords.isInlineObject, hcomposed, Bool.or_false] at hinline
      rw [Keywords.isObjectShaped, hinline, Bool.true_or]
    obtain ⟨survey, hclassify⟩ : ∃ survey,
        classifyInline settings (settings.pojoName e.key) e.inner { registry := {} } = .ok
          (.pojo (.object (objectOf settings (settings.pojoName e.key) e.inner
            { registry := {} }).1), survey) := by
      rw [classifyInline, e.isExtractable.isArrayShaped, hreference, hcomposed, hobject]
      exact ⟨_, rfl⟩
    refine ⟨_, hentry hclassify, fun {final resolved} hbecomes => ?_⟩
    cases resolved with
    | plain plain => cases hbecomes
    | pojo pojo =>
      cases hbecomes
      exact ⟨_, rfl, rfl, rfl⟩

end Extraction

end PojoGraph
