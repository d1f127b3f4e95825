import PojoGraph.Proofs.Dispatch.Runs
import PojoGraph.Proofs.Document.Reading
import PojoGraph.Proofs.Run.Properties

/-!
# Dictionaries of documents that are read

Properties are read into a dictionary, in which a later property takes the place of an earlier one
of the same name, and so are the mappings of discriminators. So no schema that is read declares a
property twice or maps a value twice, nor does any schema inside it, and the same goes for
documents and for sets of documents that are loaded.

## Main definitions

* `DocumentSet.HasDistinctProperties` — no schema in a set of documents declares a property twice.

## Main statements

* `Document.hasDistinctProperties_of_read`, `DocumentSet.hasDistinctProperties_of_load` — no schema
  declares a property twice.
* `Document.hasDistinctValues_of_read`, `DocumentSet.hasDistinctValues_of_load` — no discriminator
  maps a value twice.
-/

namespace PojoGraph

/-! ## Properties -/

/-- Properties are read into a dictionary. -/
theorem Keywords.nodup_properties_of_read? {k k' : Keywords Schema} {keyword : Keyword}
    {value : Tree} {readings : SchemaReadings} (hk : (Dictionary.keys k.properties).Nodup)
    (h : k.read? keyword value readings = some k') : (Dictionary.keys k'.properties).Nodup := by
  rcases properties_of_read? h with heq | ⟨entries, heq⟩
  · rw [heq]
    exact hk
  · rw [heq]
    exact (Dictionary.ofEntries_spec entries).1

theorem Keywords.isKept_nodup_properties : IsKept (fun _ => True) fun k =>
    (Dictionary.keys k.properties).Nodup where
  hereditary := Tree.isHereditary_true
  empty := List.nodup_nil
  read? hk _ h := nodup_properties_of_read? hk h

theorem Document.hasDistinctProperties_of_read {format : Format} {text : String}
    {document : Document} (h : Document.read format text = .ok document) :
    document.HasDistinctProperties :=
  (everywhere_of_read Keywords.isKept_nodup_properties Tree.isRead_true h).2

/-- No schema of the set declares a property twice. -/
def DocumentSet.HasDistinctProperties (set : DocumentSet) : Prop :=
  ∀ document ∈ set.documents, document.HasDistinctProperties

/-- **No schema of a loaded set of documents declares a property twice.** -/
theorem DocumentSet.hasDistinctProperties_of_load {files : FileView} {path : String}
    {set : DocumentSet} (h : (DocumentSet.load files path).2 = .ok set) :
    set.HasDistinctProperties :=
  forall_documents_of_load Document.hasDistinctProperties_of_read h

/-! ## Mappings of discriminators -/

/-- A mapping is read into a dictionary. -/
theorem Facets.nodup_of_readDiscriminator? {tree : Tree} {keyword : DiscriminatorKeyword}
    (h : readDiscriminator? tree = some keyword) : (Dictionary.keys keyword.mapping).Nodup := by
  obtain ⟨fields, -, h⟩ := Option.bind_eq_some_iff.mp h
  split at h
  · obtain ⟨name, -, h⟩ := Option.bind_eq_some_iff.mp h
    obtain ⟨mapping, hmapping, h⟩ := Option.bind_eq_some_iff.mp h
    cases h
    rw [Tree.texts?.eq_def] at hmapping
    split at hmapping
    · obtain ⟨entries, -, rfl⟩ := Option.map_eq_some_iff.mp hmapping
      exact (Dictionary.ofEntries_spec entries).1
    · cases hmapping
  · obtain ⟨name, -, h⟩ := Option.bind_eq_some_iff.mp h
    cases h
    exact List.nodup_nil
  · cases h

/-- What is read for a value that may be null is nothing, or what is read for a value. -/
theorem Tree.eq_none_or_of_optional? {α : Type} {read : Tree → Option α} {tree : Tree}
    {result : Option α} (h : tree.optional? read = some result) :
    result = none ∨ ∃ value, read tree = some value ∧ result = some value := by
  rw [Tree.optional?.eq_def] at h
  split at h
  · cases h
    exact .inl rfl
  · obtain ⟨value, hvalue, rfl⟩ := Option.map_eq_some_iff.mp h
    exact .inr ⟨value, hvalue, rfl⟩

theorem Facets.nodup_mapping_of_read? {facets facets' : Facets} {keyword : Keyword} {value : Tree}
    (hfacets : ∀ given ∈ facets.discriminator, (Dictionary.keys given.mapping).Nodup)
    (h : facets.read? keyword value = some facets') :
    ∀ given ∈ facets'.discriminator, (Dictionary.keys given.mapping).Nodup := by
  cases keyword with
  | discriminator =>
    obtain ⟨discriminator, hread, rfl⟩ := Option.map_eq_some_iff.mp h
    rcases Tree.eq_none_or_of_optional? hread with rfl | ⟨given, hgiven, rfl⟩
    · nofun
    · rintro given ⟨⟩
      exact nodup_of_readDiscriminator? hgiven
  | properties | additional | items | allOf | oneOf | anyOf => cases h
  | _ =>
    obtain ⟨_, -, rfl⟩ := Option.map_eq_some_iff.mp h
    exact hfacets

theorem Keywords.isKept_hasDistinctValues :
    IsKept (fun _ => True) Keywords.HasDistinctValues where
  hereditary := Tree.isHereditary_true
  empty := nofun
  read? hk _ h := by
    rcases toFacets_of_read? h with heq | hread
    · rw [HasDistinctValues, heq]
      exact hk
    · exact Facets.nodup_mapping_of_read? hk hread

theorem Document.hasDistinctValues_of_read {format : Format} {text : String}
    {document : Document} (h : Document.read format text = .ok document) :
    document.HasDistinctValues :=
  (everywhere_of_read Keywords.isKept_hasDistinctValues Tree.isRead_true h).2

/-- **No discriminator in a loaded set of documents maps a value twice.** -/
theorem DocumentSet.hasDistinctValues_of_load {files : FileView} {path : String}
    {set : DocumentSet} (h : (DocumentSet.load files path).2 = .ok set) :
    ∀ document ∈ set.documents, document.HasDistinctValues :=
  forall_documents_of_load Document.hasDistinctValues_of_read h

end PojoGraph
