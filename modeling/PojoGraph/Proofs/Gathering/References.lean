import Mathlib.Data.List.Forall2
import PojoGraph.Document.Load
import PojoGraph.Proofs.Classification.Sites
import PojoGraph.Proofs.Text.Lines

/-!
# Where references lead

A reference leads into another document if something stands before its `#`: the path of that
document. Paths are spelled with any number of `./` in front, and the key of the document is what
follows them, so that all spellings of a path give one key. Paths and keys are described here as
they are written, and what is computed of references is compared with these descriptions.

## Main definitions

* `Schema.Refers`, `Schema.Lists` — where references stand in a schema, and in which order.
* `HasFilePart`, `IsKeyOf` — the path that a reference gives, and the key of a path.
* `GivesKey`, `GiveKeys` — the key that a reference gives, and those that references give in order.
* `Mention` — the keys that references in documents give, in order.
* `Document.PointsTo` — a reference in a document gives a key.

## Main statements

* `Schema.mem_references_iff_refers`, `Schema.lists_references` — no place where references stand
  is left out, and their order is kept.
* `refFile_eq_some_iff`, `documentKey_eq_iff` — paths and keys are found as they are described.
* `Document.mem_referencedDocuments_iff`, `mention_referencedDocuments` — so are the keys that
  documents point to, in order.
* `DocumentSet.isLoaded_iff` — a document is in a set under the key of its path.
-/

namespace PojoGraph

/-! ## Places of references -/

/-- The reference stands in the schema: it is the schema itself, stands in a schema inside it, or
is a target of its discriminator. -/
inductive Schema.Refers (reference : String) : Schema → Prop
  | here : Refers reference (.ref reference)
  | property {k : Keywords Schema} {property : String × Schema}
      (hproperty : property ∈ k.properties) (hrefers : Refers reference property.2) :
    Refers reference (.inline k)
  | item {k : Keywords Schema} {item : Schema} (hitem : k.items = some item)
      (hrefers : Refers reference item) : Refers reference (.inline k)
  | additional {k : Keywords Schema} {value : Schema}
      (hadditional : k.additional = some (.schema value)) (hrefers : Refers reference value) :
    Refers reference (.inline k)
  | allOf {k : Keywords Schema} {branch : Schema} (hbranch : branch ∈ k.allOf)
      (hrefers : Refers reference branch) : Refers reference (.inline k)
  | oneOf {k : Keywords Schema} {branch : Schema} (hbranch : branch ∈ k.oneOf)
      (hrefers : Refers reference branch) : Refers reference (.inline k)
  | anyOf {k : Keywords Schema} {branch : Schema} (hbranch : branch ∈ k.anyOf)
      (hrefers : Refers reference branch) : Refers reference (.inline k)
  | mapping {k : Keywords Schema} {discriminator : DiscriminatorKeyword} {value : String}
      (hdiscriminator : k.discriminator = some discriminator)
      (hmapping : (value, reference) ∈ discriminator.mapping) : Refers reference (.inline k)

theorem Keywords.mem_mappingTargets_iff {k : Keywords Schema} {reference : String} :
    reference ∈ k.mappingTargets ↔ ∃ discriminator value, k.discriminator = some discriminator
      ∧ (value, reference) ∈ discriminator.mapping := by
  rw [mappingTargets]
  cases k.discriminator with
  | none => simp
  | some discriminator => simp [eq_comm]

/-- A reference stands in a schema written in place if it stands in a child or is a target of the
discriminator. -/
theorem Schema.refers_inline_iff {k : Keywords Schema} {reference : String} :
    (Schema.inline k).Refers reference
      ↔ (∃ child ∈ k.children, child.Refers reference) ∨ reference ∈ k.mappingTargets := by
  constructor
  · intro h
    cases h with
    | property hproperty hrefers =>
      refine .inl ⟨_, ?_, hrefers⟩
      simp only [Keywords.children, List.mem_append, List.mem_map]
      exact .inl (.inl (.inl (.inl (.inl ⟨_, hproperty, rfl⟩))))
    | item hitem hrefers => exact .inl ⟨_, by simp [Keywords.children, hitem], hrefers⟩
    | additional hadditional hrefers =>
      exact .inl ⟨_, by simp [Keywords.children, hadditional], hrefers⟩
    | allOf hbranch hrefers => exact .inl ⟨_, by simp [Keywords.children, hbranch], hrefers⟩
    | oneOf hbranch hrefers => exact .inl ⟨_, by simp [Keywords.children, hbranch], hrefers⟩
    | anyOf hbranch hrefers => exact .inl ⟨_, by simp [Keywords.children, hbranch], hrefers⟩
    | mapping hdiscriminator hmapping =>
      exact .inr (Keywords.mem_mappingTargets_iff.mpr ⟨_, _, hdiscriminator, hmapping⟩)
  · rintro (⟨child, hchild, hrefers⟩ | htarget)
    · simp only [Keywords.children, List.mem_append, List.mem_map, Option.mem_toList] at hchild
      rcases hchild with
        ((((⟨property, hproperty, rfl⟩ | hitem) | hall) | hone) | hany) | hadditional
      · exact .property hproperty hrefers
      · exact .item hitem hrefers
      · exact .allOf hall hrefers
      · exact .oneOf hone hrefers
      · exact .anyOf hany hrefers
      · split at hadditional
        · rename_i hvalue
          obtain rfl := List.mem_singleton.mp hadditional
          exact .additional hvalue hrefers
        · cases hadditional
    · obtain ⟨discriminator, value, hdiscriminator, hmapping⟩ :=
        Keywords.mem_mappingTargets_iff.mp htarget
      exact .mapping hdiscriminator hmapping

/-- **The references collected from a schema are those that stand in it**, wherever that is. -/
theorem Schema.mem_references_iff_refers {schema : Schema} {reference : String} :
    reference ∈ schema.references ↔ schema.Refers reference := by
  induction schema using Schema.childInduction with
  | ref target =>
    rw [references_ref, List.mem_singleton]
    constructor
    · rintro rfl
      exact .here
    · rintro ⟨⟩
      rfl
  | inline k ih =>
    rw [references_inline, refers_inline_iff, List.mem_append, List.mem_flatMap]
    refine or_congr (exists_congr fun child => and_congr_right fun hchild => ?_) Iff.rfl
    exact ih child hchild

/-- The references of the schema in their order: those in the schemas of its properties, of its
items, of its branches and of its further properties, piece by piece, and then the targets of its
discriminator. -/
inductive Schema.Lists : Schema → List String → Prop where
  | ref (target : String) : Lists (.ref target) [target]
  | inline {k : Keywords Schema} {pieces : List (List String)}
      (hpieces : List.Forall₂ Lists
        (k.properties.map (·.2) ++ k.items.toList ++ k.allOf ++ k.oneOf ++ k.anyOf
          ++ k.additional.elim [] fun | .schema value => [value] | .flag _ => [])
        pieces) :
    Lists (.inline k) (pieces.flatten ++ k.discriminator.elim [] (·.mapping.map (·.2)))

/-- **The references are collected from a schema in their order.** -/
theorem Schema.lists_references (schema : Schema) : schema.Lists schema.references := by
  induction schema using Schema.childInduction with
  | ref target =>
    rw [references_ref]
    exact .ref target
  | inline k ih =>
    have hpieces : List.Forall₂ Lists k.children (k.children.map references) :=
      List.forall₂_map_right_iff.mpr (List.forall₂_same.mpr ih)
    have hchildren : k.children = k.properties.map (·.2) ++ k.items.toList ++ k.allOf ++ k.oneOf
        ++ k.anyOf ++ k.additional.elim [] fun | .schema value => [value] | .flag _ => [] := by
      rw [Keywords.children]
      rcases k.additional with _ | _ | value <;> rfl
    have htargets : k.mappingTargets = k.discriminator.elim [] (·.mapping.map (·.2)) := by
      rw [Keywords.mappingTargets]
      cases k.discriminator <;> rfl
    rw [references_inline, List.flatMap_def, htargets]
    exact .inline (hchildren ▸ hpieces)

/-! ## Paths -/

section

variable {reference path key : String}

/-- The reference gives the path: what stands before its first `#`, unless that is nothing. -/
structure HasFilePart (reference path : String) : Prop where
  reference_eq : ∃ fragment, reference.toList = path.toList ++ '#' :: fragment
  not_mem : '#' ∉ path.toList
  ne_empty : path ≠ ""

theorem refFile_eq_some_iff : refFile reference = some path ↔ HasFilePart reference path := by
  constructor
  · intro h
    rw [refFile] at h
    split at h
    · cases h
    · rename_i file fragment hfile hcut
      cases h
      obtain ⟨hreference, hnot⟩ := Text.splitOnce_eq_some_iff.mp hcut
      refine ⟨⟨fragment, ?_⟩, ?_, ?_⟩
      · rw [String.toList_ofList, hreference]
      · rwa [String.toList_ofList]
      · intro hempty
        rw [String.ofList_eq_empty_iff] at hempty
        exact hfile hempty
    · cases h
  · rintro ⟨⟨fragment, hreference⟩, hnot, hne⟩
    have hcut := Text.splitOnce_eq_some_iff.mpr ⟨hreference, hnot⟩
    cases hpath : path.toList with
    | nil => exact absurd (String.toList_eq_nil_iff.mp hpath) hne
    | cons c rest =>
      rw [refFile, hcut, hpath]
      exact congrArg some (by rw [← hpath, String.ofList_toList])

end

/-! ## Keys -/

/-- The key is what follows in the path after the `./` in front, of which there may be many. -/
structure IsKeyOf (key path : String) : Prop where
  path_eq : ∃ n, path.toList = (List.replicate n ['.', '/']).flatten ++ key.toList
  not_prefix : ¬ ['.', '/'] <+: key.toList

namespace documentKey

theorem strip_prefixed (n : Nat) (cs : List Char) :
    strip ((List.replicate n ['.', '/']).flatten ++ cs) = strip cs := by
  induction n with
  | zero => rfl
  | succ n ih =>
    rw [List.replicate_succ, List.flatten_cons]
    exact ih

theorem strip_eq_self {cs : List Char} (h : ¬ ['.', '/'] <+: cs) : strip cs = cs := by
  unfold strip
  split
  · exact absurd (List.prefix_append ['.', '/'] _) h
  · rfl

theorem exists_eq_prefixed (cs : List Char) :
    ∃ n, cs = (List.replicate n ['.', '/']).flatten ++ strip cs := by
  fun_induction strip cs with
  | case1 rest ih =>
    obtain ⟨n, hrest⟩ := ih
    exact ⟨n + 1, congrArg (['.', '/'] ++ ·) hrest⟩
  | case2 cs => exact ⟨0, rfl⟩

theorem not_prefix_strip (cs : List Char) : ¬ ['.', '/'] <+: strip cs := by
  fun_induction strip cs with
  | case1 rest ih => exact ih
  | case2 cs hnot =>
    rintro ⟨rest, rfl⟩
    exact hnot rest rfl

end documentKey

section

variable {reference path key : String}

theorem documentKey_eq_iff : documentKey path = key ↔ IsKeyOf key path := by
  constructor
  · rintro rfl
    refine ⟨?_, ?_⟩
    · rw [documentKey, String.toList_ofList]
      exact documentKey.exists_eq_prefixed path.toList
    · rw [documentKey, String.toList_ofList]
      exact documentKey.not_prefix_strip path.toList
  · rintro ⟨⟨n, hpath⟩, hbare⟩
    rw [documentKey, hpath, documentKey.strip_prefixed, documentKey.strip_eq_self hbare,
      String.ofList_toList]

/-- The reference gives the key of another document. -/
def GivesKey (reference key : String) : Prop :=
  ∃ path, HasFilePart reference path ∧ IsKeyOf key path

theorem givesKey_iff : GivesKey reference key
    ↔ ∃ path, refFile reference = some path ∧ documentKey path = key := by
  simp only [GivesKey, refFile_eq_some_iff, documentKey_eq_iff]

end

/-! ## Documents -/

/-- The references give the keys, in this order. A reference within its own document gives none. -/
inductive GiveKeys : (references keys : List String) → Prop where
  | nil : GiveKeys [] []
  | within {reference : String} {references keys : List String}
      (h : ∀ key, ¬ GivesKey reference key) (hrest : GiveKeys references keys) :
    GiveKeys (reference :: references) keys
  | outside {reference key : String} {references keys : List String}
      (h : GivesKey reference key) (hrest : GiveKeys references keys) :
    GiveKeys (reference :: references) (key :: keys)

theorem giveKeys_map_filterMap (references : List String) :
    GiveKeys references ((references.filterMap refFile).map documentKey) := by
  induction references with
  | nil => exact .nil
  | cons reference rest ih =>
    cases hpath : refFile reference with
    | none =>
      rw [List.filterMap_cons_none hpath]
      refine .within (fun key hgives => ?_) ih
      obtain ⟨path, hsome, -⟩ := givesKey_iff.mp hgives
      rw [hpath] at hsome
      cases hsome
    | some path =>
      rw [List.filterMap_cons_some hpath, List.map_cons]
      exact .outside (givesKey_iff.mpr ⟨path, hpath, rfl⟩) ih

/-- The documents mention the keys in this order: it is the order of the references in their
schemas, one document and one schema after the other. -/
def Mention (documents : List Document) (keys : List String) : Prop :=
  ∃ pieces : List (List String),
    List.Forall₂ (fun entry piece => entry.2.Lists piece) (documents.flatMap (·.schemas)) pieces
      ∧ GiveKeys pieces.flatten keys

/-- **The scan of documents finds the keys that they mention**, in order. -/
theorem mention_referencedDocuments (documents : List Document) :
    Mention documents (documents.flatMap (·.referencedDocuments)) := by
  have hscan : documents.flatMap (·.referencedDocuments)
      = ((((documents.flatMap (·.schemas)).map (·.2.references)).flatten).filterMap refFile).map
        documentKey := by
    rw [← List.flatMap_def, List.flatMap_assoc, List.filterMap_flatMap, List.map_flatMap]
    rfl
  refine ⟨(documents.flatMap (·.schemas)).map (·.2.references), ?_, ?_⟩
  · exact List.forall₂_map_right_iff.mpr
      (List.forall₂_same.mpr fun entry _ => entry.2.lists_references)
  · rw [hscan]
    exact giveKeys_map_filterMap _

namespace Document

variable {document : Document} {key : String}

/-- The document points to a key: a reference that stands in one of its schemas gives it. -/
def PointsTo (document : Document) (key : String) : Prop :=
  ∃ entry ∈ document.schemas, ∃ reference, entry.2.Refers reference ∧ GivesKey reference key

theorem mem_referencedDocuments_iff :
    key ∈ document.referencedDocuments ↔ document.PointsTo key := by
  simp only [referencedDocuments, references, PointsTo, List.mem_map, List.mem_filterMap,
    List.mem_flatMap, Schema.mem_references_iff_refers, givesKey_iff]
  constructor
  · rintro ⟨path, ⟨reference, ⟨entry, hentry, hrefers⟩, hpath⟩, hkey⟩
    exact ⟨entry, hentry, reference, hrefers, path, hpath, hkey⟩
  · rintro ⟨entry, hentry, reference, hrefers, path, hpath, hkey⟩
    exact ⟨path, ⟨reference, ⟨entry, hentry, hrefers⟩, hpath⟩, hkey⟩

/-- What a document points to does not begin with `./`. -/
theorem PointsTo.not_prefix (h : document.PointsTo key) : ¬ ['.', '/'] <+: key.toList := by
  obtain ⟨-, -, -, -, path, -, hkey⟩ := h
  exact hkey.not_prefix

end Document

namespace DocumentSet

variable {set : DocumentSet}

theorem hasKey_iff {key : String} :
    set.hasKey key = true ↔ set.mainName = some key ∨ key ∈ Dictionary.keys set.external := by
  simp [hasKey, Dictionary.contains, Dictionary.keys]

theorem isLoaded_iff {path : String} : set.isLoaded path = true
    ↔ ∃ key, IsKeyOf key path ∧ (set.mainName = some key ∨ key ∈ Dictionary.keys set.external) := by
  simp only [isLoaded, hasKey_iff, ← documentKey_eq_iff, exists_eq_left']

end DocumentSet

end PojoGraph
