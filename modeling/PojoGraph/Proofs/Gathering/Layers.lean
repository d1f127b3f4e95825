import PojoGraph.Proofs.Gathering.References
import PojoGraph.Proofs.Lists.Repetitions

/-!
# Layers of documents

The documents that references lead to stand in layers around the main document: those that it
points to itself, those that these point to, and so on. Each document belongs to the layer in which
it is first mentioned. Reading goes through the layers one by one, a round for each, and ends at
the first document that cannot be read.

## Main definitions

* `Gathering.AreLayers` — lists of keys that follow documents as layers.
* `Gathering.layers` — the layers around a main document, computed.
* `Gathering.ofKeys` — the state in which keys have been read in order.

## Main statements

* `Gathering.areLayers_layersFrom` — what is computed are the layers.
* `Gathering.after_start_eq` — rounds of reading go through the layers.
-/

namespace PojoGraph

namespace Gathering

variable {ε : Type} (read : String → Except ε Document)

/-! ## Layers -/

/-- The documents that can be read, under their keys. -/
def entriesUnder (keys : List String) : Dictionary Document :=
  keys.filterMap fun key => (read key).toOption.map (key, ·)

/-- The lists are the first layers that follow some documents, while the known keys belong to none
of them. A layer has the keys that the documents before it mention, other than the known ones, in
the order in which they are mentioned first; the next layer follows the documents under these
keys. -/
inductive AreLayers : (known : List String) → List Document → List (List String) → Prop where
  | nil {known : List String} {documents : List Document} : AreLayers known documents []
  | cons {known mentioned layer : List String} {documents : List Document}
      {rest : List (List String)}
      (hmention : Mention documents mentioned)
      (hlayer : layer = (mentioned.filter (· ∉ known)).eraseDups)
      (hrest : AreLayers (known ++ layer) ((entriesUnder read layer).map (·.2)) rest) :
    AreLayers known documents (layer :: rest)

/-- The keys that documents point to, other than the known ones, in the order in which they are
first mentioned. -/
def newKeys (known : List String) (documents : List Document) : List String :=
  ((documents.flatMap (·.referencedDocuments)).filter (· ∉ known)).eraseDups

/-- The layers that follow some documents, while the known keys belong to no layer to come. -/
def layersFrom (known : List String) (documents : List Document) : Nat → List (List String)
  | 0 => []
  | n + 1 =>
    let layer := newKeys known documents
    layer :: layersFrom (known ++ layer) ((entriesUnder read layer).map (·.2)) n

/-- The first layers around a main document, whose name belongs to none. -/
def layers (main : Document) (name : Option String) (n : Nat) : List (List String) :=
  layersFrom read name.toList [main] n

section

variable {read} {known : List String} {documents : List Document} {key : String}

/-- **The layers that follow documents are computed as they are described.** -/
theorem areLayers_layersFrom (known : List String) (documents : List Document) (n : Nat) :
    AreLayers read known documents (layersFrom read known documents n) := by
  induction n generalizing known documents with
  | zero => exact .nil
  | succ n ih => exact .cons (mention_referencedDocuments documents) rfl (ih _ _)

theorem length_layersFrom (known : List String) (documents : List Document) (n : Nat) :
    (layersFrom read known documents n).length = n := by
  induction n generalizing known documents with
  | zero => rfl
  | succ n ih => exact congrArg (· + 1) (ih _ _)

theorem mem_newKeys_iff : key ∈ newKeys known documents
    ↔ (∃ document ∈ documents, document.PointsTo key) ∧ key ∉ known := by
  simp [newKeys, List.mem_eraseDups, Document.mem_referencedDocuments_iff]

theorem nodup_newKeys : (newKeys known documents).Nodup :=
  nodup_eraseDups _

@[simp] theorem newKeys_nil : newKeys known [] = [] := rfl

@[simp] theorem entriesUnder_nil : entriesUnder read [] = [] := rfl

theorem entriesUnder_append (keys others : List String) :
    entriesUnder read (keys ++ others) = entriesUnder read keys ++ entriesUnder read others :=
  List.filterMap_append

theorem mem_entriesUnder_iff {keys : List String} {document : Document} :
    (key, document) ∈ entriesUnder read keys ↔ key ∈ keys ∧ read key = .ok document := by
  simp only [entriesUnder, List.mem_filterMap, Option.map_eq_some_iff, Prod.mk.injEq]
  constructor
  · rintro ⟨other, hother, found, hfound, rfl, rfl⟩
    refine ⟨hother, ?_⟩
    cases hread : read other with
    | ok document => rw [hread] at hfound; exact congrArg _ (Option.some.inj hfound)
    | error cause => rw [hread] at hfound; cases hfound
  · rintro ⟨hkey, hread⟩
    exact ⟨key, hkey, document, by rw [hread]; rfl, rfl, rfl⟩

/-- Nothing follows where nothing is pointed to. -/
theorem flatten_layersFrom_of_nil (h : newKeys known documents = []) (n : Nat) :
    (layersFrom read known documents n).flatten = [] := by
  have hnil : ∀ n, (layersFrom read known [] n).flatten = [] := by
    intro n
    induction n with
    | zero => rfl
    | succ n ih => simpa [layersFrom] using ih
  cases n with
  | zero => rfl
  | succ n => simpa [layersFrom, h] using hnil n

/-- The keys of the layers are different from each other and from the known ones. -/
theorem nodup_layersFrom (known : List String) (documents : List Document) (n : Nat) :
    (layersFrom read known documents n).flatten.Nodup
      ∧ ∀ key ∈ (layersFrom read known documents n).flatten, key ∉ known := by
  induction n generalizing known documents with
  | zero => simp [layersFrom]
  | succ n ih =>
    obtain ⟨hrest, hnew⟩ := ih (known ++ newKeys known documents)
      ((entriesUnder read (newKeys known documents)).map (·.2))
    simp only [List.mem_append, not_or] at hnew
    rw [layersFrom, List.flatten_cons]
    constructor
    · refine List.nodup_append.mpr ⟨nodup_newKeys, hrest, ?_⟩
      rintro key hkey other hother rfl
      exact (hnew key hother).2 hkey
    · intro key hkey
      rcases List.mem_append.mp hkey with hkey | hkey
      · exact (mem_newKeys_iff.mp hkey).2
      · exact (hnew key hkey).1

end

/-! ## Reading in order -/

/-- The keys up to the first that cannot be read, that one included. -/
def readUpTo : List String → List String
  | [] => []
  | key :: rest =>
    match read key with
    | .ok _ => key :: readUpTo rest
    | .error _ => [key]

/-- The failure at the first key that cannot be read. -/
def firstFailure? : List String → Option (GatheringError ε)
  | [] => none
  | key :: rest =>
    match read key with
    | .ok _ => firstFailure? rest
    | .error cause => some ⟨key, cause⟩

/-- The state in which reading begins. -/
def start (main : Document) (name : Option String) : Gathering ε :=
  ⟨⟨main, name, []⟩, [], none⟩

/-- The state in which keys have been read in order, up to the first that cannot be read. -/
def ofKeys (main : Document) (name : Option String) (keys : List String) : Gathering ε where
  set := ⟨main, name, entriesUnder read (readUpTo read keys)⟩
  reads := readUpTo read keys
  failure := firstFailure? read keys

section

variable {read} {main : Document} {name : Option String} {keys others : List String}
  {failure : GatheringError ε}

/-- Up to a failure all keys can be read. -/
theorem readUpTo_of_firstFailure? (h : firstFailure? read keys = some failure) :
    read failure.document = .error failure.cause
      ∧ ∃ before, readUpTo read keys = before ++ [failure.document]
        ∧ ∀ key ∈ before, ∃ document, read key = .ok document := by
  induction keys with
  | nil => cases h
  | cons key rest ih =>
    rw [firstFailure?] at h
    rw [readUpTo]
    split at h
    · rename_i document hread
      obtain ⟨herror, before, hbefore, hall⟩ := ih h
      refine ⟨herror, key :: before, ?_, List.forall_mem_cons.mpr ⟨⟨document, hread⟩, hall⟩⟩
      simp [hbefore]
    · rename_i cause hread
      cases h
      exact ⟨hread, [], by simp, by simp⟩

/-- Without a failure all keys are read. -/
theorem readUpTo_of_forall (h : firstFailure? read keys = none) :
    readUpTo read keys = keys ∧ ∀ key ∈ keys, ∃ document, read key = .ok document := by
  induction keys with
  | nil => simp [readUpTo]
  | cons key rest ih =>
    rw [firstFailure?] at h
    split at h
    · rename_i document hread
      obtain ⟨heq, hall⟩ := ih h
      exact ⟨by simp [readUpTo, hread, heq], List.forall_mem_cons.mpr ⟨⟨document, hread⟩, hall⟩⟩
    · cases h

theorem readUpTo_sublist (read : String → Except ε Document) (keys : List String) :
    List.Sublist (readUpTo read keys) keys := by
  induction keys with
  | nil => exact .slnil
  | cons key rest ih =>
    rw [readUpTo]
    split
    · exact ih.cons_cons key
    · exact (List.nil_sublist rest).cons_cons key

/-- What follows a failure is not read. -/
theorem ofKeys_append_of_failure (h : firstFailure? read keys = some failure) :
    ofKeys read main name (keys ++ others) = ofKeys read main name keys := by
  have heq : readUpTo read (keys ++ others) = readUpTo read keys
      ∧ firstFailure? read (keys ++ others) = firstFailure? read keys := by
    induction keys with
    | nil => cases h
    | cons key rest ih =>
      rw [firstFailure?] at h
      cases hread : read key with
      | ok document =>
        rw [hread] at h
        simp [readUpTo, firstFailure?, hread, ih h]
      | error cause => simp [readUpTo, firstFailure?, hread]
  simp only [ofKeys, heq]

theorem append_of_firstFailure?_eq_none (h : firstFailure? read keys = none)
    (others : List String) :
    readUpTo read (keys ++ others) = keys ++ readUpTo read others
      ∧ firstFailure? read (keys ++ others) = firstFailure? read others := by
  induction keys with
  | nil => simp
  | cons key rest ih =>
    rw [firstFailure?] at h
    split at h
    · rename_i document hread
      simp [readUpTo, firstFailure?, hread, ih h]
    · cases h

/-! ## Rounds -/

theorem foldl_step_of_failure {state : Gathering ε} (h : state.failure.isSome)
    (keys : List String) : keys.foldl (step read) state = state := by
  induction keys with
  | nil => rfl
  | cons key rest ih => rw [List.foldl_cons, step, if_pos h, ih]

/-- A step reads the next key. -/
theorem step_ofKeys {key : String} (h : firstFailure? read keys = none) (hnew : key ∉ keys) :
    step read (ofKeys read main name keys) key = ofKeys read main name (keys ++ [key]) := by
  obtain ⟨hreads, hfailure⟩ := append_of_firstFailure?_eq_none h [key]
  have hkeys := (readUpTo_of_forall h).1
  have hfresh : key ∉ Dictionary.keys (entriesUnder read keys) := by
    intro hmem
    obtain ⟨⟨other, document⟩, hentry, rfl⟩ := List.mem_map.mp hmem
    exact hnew (mem_entriesUnder_iff.mp hentry).1
  rw [step, if_neg (by simp [ofKeys, h])]
  simp only [ofKeys, hreads, hfailure, hkeys, entriesUnder_append]
  cases hread : read key with
  | ok document =>
    have hentry : entriesUnder read [key] = [(key, document)] := by
      simp [entriesUnder, hread, Except.toOption]
    simp [readUpTo, firstFailure?, hread, hentry, Dictionary.insert_of_not_mem hfresh, h]
  | error cause =>
    have hnone : entriesUnder read [key] = [] := by
      simp [entriesUnder, hread, Except.toOption]
    simp [readUpTo, firstFailure?, hread, hnone]

/-- Steps read keys in order. -/
theorem foldl_step_ofKeys (h : firstFailure? read keys = none) (hnodup : (keys ++ others).Nodup) :
    others.foldl (step read) (ofKeys read main name keys)
      = ofKeys read main name (keys ++ others) := by
  induction others generalizing keys with
  | nil => simp
  | cons key rest ih =>
    have hnew : key ∉ keys := fun hmem =>
      (List.nodup_append.mp hnodup).2.2 key hmem key List.mem_cons_self rfl
    rw [List.append_cons] at hnodup ⊢
    rw [List.foldl_cons, step_ofKeys h hnew]
    cases hfailure : firstFailure? read (keys ++ [key]) with
    | none => exact ih hfailure hnodup
    | some failure =>
      rw [ofKeys_append_of_failure hfailure]
      exact foldl_step_of_failure (by simp [ofKeys, hfailure]) rest

theorem after_of_isOver {state : Gathering ε} (h : state.isOver = true) (n : Nat) :
    state.after read n = state := by
  cases n with
  | zero => rfl
  | succ n => rw [after, if_pos h]

/-- Between two rounds: the keys in the set are the known ones, and what the other documents than
the given ones point to is known. -/
structure Stands (state : Gathering ε) (known : List String) (fresh : List Document) : Prop where
  hasKey : ∀ key, state.set.hasKey key = true ↔ key ∈ known
  documents : ∃ others, state.set.documents = others ++ fresh
    ∧ ∀ document ∈ others, ∀ key ∈ document.referencedDocuments, key ∈ known

variable {known : List String} {fresh : List Document}

/-- Only what the given documents point to can be missing. -/
theorem Stands.missing_eq {state : Gathering ε} (h : state.Stands known fresh) :
    state.set.missing = newKeys known fresh := by
  obtain ⟨others, hdocuments, hothers⟩ := h.documents
  have hnone : (others.flatMap (·.referencedDocuments)).filter (!state.set.hasKey ·) = [] := by
    rw [List.filter_eq_nil_iff]
    intro key hkey
    obtain ⟨document, hdocument, hmem⟩ := List.mem_flatMap.mp hkey
    simpa using (h.hasKey key).mpr (hothers document hdocument key hmem)
  have hknown : ∀ key, (!state.set.hasKey key) = decide (key ∉ known) := by
    intro key
    rw [Bool.eq_iff_iff, Bool.not_eq_true', ← Bool.not_eq_true, h.hasKey, decide_eq_true_iff]
  rw [DocumentSet.missing, hdocuments, List.flatMap_append, List.filter_append, hnone,
    List.nil_append, newKeys]
  simp only [hknown]

/-- A round without a failure reads the next layer. -/
theorem Stands.next (h : (ofKeys read main name keys).Stands known fresh)
    (hkeys : firstFailure? read keys = none)
    (hlayer : firstFailure? read (newKeys known fresh) = none) :
    (ofKeys read main name (keys ++ newKeys known fresh)).Stands
      (known ++ newKeys known fresh)
      ((entriesUnder read (newKeys known fresh)).map (·.2)) := by
  obtain ⟨hreads, -⟩ := append_of_firstFailure?_eq_none hkeys (newKeys known fresh)
  obtain ⟨hlayerReads, hreadable⟩ := readUpTo_of_forall hlayer
  have hkeysReads := (readUpTo_of_forall hkeys).1
  have hexternal : (ofKeys read main name (keys ++ newKeys known fresh)).set.external
      = (ofKeys read main name keys).set.external ++ entriesUnder read (newKeys known fresh) := by
    simp only [ofKeys, hreads, hlayerReads, hkeysReads, entriesUnder_append]
  have hcontains : ∀ key, Dictionary.contains (entriesUnder read (newKeys known fresh)) key = true
      ↔ key ∈ newKeys known fresh := by
    intro key
    simp only [Dictionary.contains, List.any_eq_true, decide_eq_true_eq]
    constructor
    · rintro ⟨⟨other, document⟩, hentry, rfl⟩
      exact (mem_entriesUnder_iff.mp hentry).1
    · intro hkey
      obtain ⟨document, hread⟩ := hreadable key hkey
      exact ⟨(key, document), mem_entriesUnder_iff.mpr ⟨hkey, hread⟩, rfl⟩
  constructor
  · intro key
    rw [List.mem_append, ← h.hasKey key, ← hcontains key, DocumentSet.hasKey, hexternal]
    simp only [DocumentSet.hasKey, Dictionary.contains, List.any_append, Bool.or_eq_true,
      or_assoc]
    rfl
  · refine ⟨(ofKeys read main name keys).set.documents, ?_, ?_⟩
    · simp only [DocumentSet.documents, hexternal, List.map_append]
      rfl
    · intro document hdocument key hkey
      rw [List.mem_append, mem_newKeys_iff]
      by_cases hknown : key ∈ known
      · exact .inl hknown
      · right
        obtain ⟨others, hdocuments, hothers⟩ := h.documents
        rw [hdocuments, List.mem_append] at hdocument
        rcases hdocument with hdocument | hdocument
        · exact absurd (hothers document hdocument key hkey) hknown
        · exact ⟨⟨document, hdocument, Document.mem_referencedDocuments_iff.mp hkey⟩, hknown⟩

/-- Rounds go through the layers that follow. -/
theorem Stands.after_eq (h : (ofKeys read main name keys).Stands known fresh)
    (hkeys : firstFailure? read keys = none) (hnodup : keys.Nodup)
    (hknown : ∀ key ∈ keys, key ∈ known) (n : Nat) :
    (ofKeys read main name keys).after read n
      = ofKeys read main name (keys ++ (layersFrom read known fresh n).flatten) := by
  induction n generalizing keys known fresh with
  | zero => simp [after, layersFrom]
  | succ n ih =>
    have hmissing := h.missing_eq
    by_cases hempty : newKeys known fresh = []
    · rw [flatten_layersFrom_of_nil hempty, List.append_nil]
      exact after_of_isOver (by simp [isOver, hmissing, hempty]) _
    · have hall : (keys ++ newKeys known fresh).Nodup := by
        refine List.nodup_append.mpr ⟨hnodup, nodup_newKeys, ?_⟩
        rintro key hkey other hother rfl
        exact (mem_newKeys_iff.mp hother).2 (hknown key hkey)
      have hround : (ofKeys read main name keys).round read
          = ofKeys read main name (keys ++ newKeys known fresh) := by
        rw [round, hmissing]
        exact foldl_step_ofKeys hkeys hall
      have hover : (ofKeys read main name keys).isOver = false := by
        have hgoing : (ofKeys read main name keys).failure = none := hkeys
        simp [isOver, hmissing, hempty, hgoing]
      rw [after, hover, if_neg Bool.false_ne_true, hround, layersFrom, List.flatten_cons,
        ← List.append_assoc]
      cases hlayer : firstFailure? read (newKeys known fresh) with
      | none =>
        refine ih (h.next hkeys hlayer) ?_ hall ?_
        · rw [(append_of_firstFailure?_eq_none hkeys _).2, hlayer]
        · intro key hkey
          rw [List.mem_append] at hkey ⊢
          exact hkey.imp_left (hknown key)
      | some failure =>
        have hfailure : firstFailure? read (keys ++ newKeys known fresh) = some failure := by
          rw [(append_of_firstFailure?_eq_none hkeys _).2, hlayer]
        rw [ofKeys_append_of_failure hfailure]
        exact after_of_isOver (by simp [isOver, ofKeys, hfailure]) n

/-- **Rounds of reading go through the layers around the main document**, up to the first document
that cannot be read. -/
theorem after_start_eq (main : Document) (name : Option String) (n : Nat) :
    (start main name).after read n = ofKeys read main name (layers read main name n).flatten := by
  have hstands : (ofKeys read main name []).Stands name.toList [main] := by
    refine ⟨fun key => ?_, [], rfl, by simp⟩
    cases name with
    | none => simp [ofKeys, DocumentSet.hasKey, Dictionary.contains, readUpTo]
    | some own =>
      simp only [ofKeys, DocumentSet.hasKey, Dictionary.contains, readUpTo, entriesUnder_nil,
        List.any_nil, Bool.or_false, beq_iff_eq, Option.some.injEq, Option.toList_some,
        List.mem_singleton]
      exact eq_comm
  exact hstands.after_eq rfl List.nodup_nil (by simp) n

end

end Gathering

end PojoGraph
