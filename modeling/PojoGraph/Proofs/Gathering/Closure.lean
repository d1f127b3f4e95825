import Mathlib.Data.Set.Card
import PojoGraph.Proofs.Gathering.Layers

/-!
# Reading as a closure

Reading documents around a main one ends when only finitely many keys are reached through
references. What it comes to then is the set of exactly the documents under these keys, or the
failure at the first of them, in the order of the layers, that cannot be read.

## Main definitions

* `Gathering.Reaches` — references lead from the main document to a key.
* `DocumentSet.IsClosure` — a set has exactly the documents that are reached.
* `Gathering.Closes` — what a reading that is over has done.

## Main statements

* `Gathering.mem_reads_iff` — a reading that ends well has read exactly what is reached.
* `Gathering.exists_closes_of_finite` — a reading of finitely many documents ends.
-/

namespace PojoGraph

namespace Gathering

section

variable {ε : Type} (read : String → Except ε Document) (main : Document) (name : Option String)

/-- References lead from the main document to the key, through documents that can be read. The
main document has its name already. -/
inductive Reaches : String → Prop where
  | main {key : String} (hpoints : main.PointsTo key) (hother : name ≠ some key) : Reaches key
  | next {key target : String} {document : Document} (hreaches : Reaches key)
      (hread : read key = .ok document) (hpoints : document.PointsTo target)
      (hother : name ≠ some target) : Reaches target

end

section

variable {ε : Type} {read : String → Except ε Document} {main : Document} {name : Option String}
  {key : String}

theorem Reaches.ne_name (h : Reaches read main name key) : name ≠ some key := by
  cases h <;> assumption

theorem Reaches.not_prefix (h : Reaches read main name key) : ¬ ['.', '/'] <+: key.toList := by
  cases h with
  | main hpoints => exact hpoints.not_prefix
  | next _ _ hpoints => exact hpoints.not_prefix

/-! ## What is read is reached -/

/-- The layers that follow reached documents are reached. -/
theorem reaches_of_mem_layersFrom {known : List String} {documents : List Document} {n : Nat}
    (hknown : ∀ own ∈ name, own ∈ known)
    (hdocuments : ∀ document ∈ documents, document = main
      ∨ ∃ key, Reaches read main name key ∧ read key = .ok document)
    (h : key ∈ (layersFrom read known documents n).flatten) : Reaches read main name key := by
  induction n generalizing known documents with
  | zero => simp [layersFrom] at h
  | succ n ih =>
    have hlayer : ∀ key ∈ newKeys known documents, Reaches read main name key := by
      intro key hkey
      obtain ⟨⟨document, hdocument, hpoints⟩, hnew⟩ := mem_newKeys_iff.mp hkey
      have hother : name ≠ some key := fun hname => hnew (hknown key hname)
      rcases hdocuments document hdocument with rfl | ⟨source, hreaches, hread⟩
      · exact .main hpoints hother
      · exact hreaches.next hread hpoints hother
    rw [layersFrom, List.flatten_cons, List.mem_append] at h
    rcases h with h | h
    · exact hlayer key h
    · refine ih (fun own hown => List.mem_append_left _ (hknown own hown)) ?_ h
      intro document hdocument
      obtain ⟨⟨source, found⟩, hentry, rfl⟩ := List.mem_map.mp hdocument
      obtain ⟨hsource, hread⟩ := mem_entriesUnder_iff.mp hentry
      exact .inr ⟨source, hlayer source hsource, hread⟩

theorem reaches_of_mem_layers {n : Nat} (h : key ∈ (layers read main name n).flatten) :
    Reaches read main name key :=
  reaches_of_mem_layersFrom (by simp) (by simp) h

theorem nodup_layers (n : Nat) : (layers read main name n).flatten.Nodup :=
  (nodup_layersFrom _ _ _).1

theorem reads_after_start (n : Nat) :
    ((start main name).after read n).reads = readUpTo read (layers read main name n).flatten := by
  rw [after_start_eq]
  rfl

theorem nodup_reads (n : Nat) : ((start main name).after read n).reads.Nodup := by
  rw [reads_after_start]
  exact (nodup_layers n).sublist (readUpTo_sublist read _)

theorem reaches_of_mem_reads {n : Nat} (h : key ∈ ((start main name).after read n).reads) :
    Reaches read main name key := by
  rw [reads_after_start] at h
  exact reaches_of_mem_layers ((readUpTo_sublist read _).subset h)

/-! ## What is reached is read -/

/-- The documents in the set are those under the keys that have been read. -/
theorem external_after_start (read : String → Except ε Document) (main : Document)
    (name : Option String) (n : Nat) : ((start main name).after read n).set
    = ⟨main, name, entriesUnder read ((start main name).after read n).reads⟩ := by
  rw [after_start_eq]
  rfl

theorem keys_entriesUnder {keys : List String}
    (h : ∀ key ∈ keys, ∃ document, read key = .ok document) :
    Dictionary.keys (entriesUnder read keys) = keys := by
  induction keys with
  | nil => rfl
  | cons key rest ih =>
    obtain ⟨⟨document, hread⟩, hrest⟩ := List.forall_mem_cons.mp h
    rw [entriesUnder, List.filterMap_cons, hread]
    exact congrArg (key :: ·) (ih hrest)

/-- Without a failure, the keys in the set are those that have been read. -/
theorem keys_external_after_start {n : Nat}
    (h : ((start main name).after read n).failure = none) :
    Dictionary.keys ((start main name).after read n).set.external
      = ((start main name).after read n).reads := by
  rw [external_after_start]
  refine keys_entriesUnder fun key hkey => ?_
  rw [after_start_eq] at h
  rw [reads_after_start, (readUpTo_of_forall h).1] at hkey
  exact (readUpTo_of_forall h).2 key hkey

/-- What the documents point to is in a set from which nothing is missing. -/
theorem hasKey_of_pointsTo {set : DocumentSet} (hmissing : set.missing = []) {document : Document}
    (hdocument : document ∈ set.documents) (hpoints : document.PointsTo key) :
    set.hasKey key = true := by
  by_contra hnot
  have hmem : key ∈ set.missing := by
    rw [DocumentSet.missing, List.mem_eraseDups, List.mem_filter, List.mem_flatMap]
    exact ⟨⟨document, hdocument, Document.mem_referencedDocuments_iff.mpr hpoints⟩,
      by simpa using hnot⟩
  rw [hmissing] at hmem
  cases hmem

theorem missing_eq_nil {state : Gathering ε} (hover : state.isOver = true)
    (h : state.failure = none) : state.set.missing = [] := by
  simpa [isOver, h] using hover

/-- **A reading that ends without a failure has read exactly what is reached.** -/
theorem mem_reads_iff {n : Nat} (hover : ((start main name).after read n).isOver = true)
    (h : ((start main name).after read n).failure = none) :
    key ∈ ((start main name).after read n).reads ↔ Reaches read main name key := by
  refine ⟨reaches_of_mem_reads, fun hreaches => ?_⟩
  have hmissing := missing_eq_nil hover h
  have hset := external_after_start read main name n
  have hkeys := keys_external_after_start h
  generalize hfinal : (start main name).after read n = final at hmissing hset hkeys ⊢
  have hpresent : ∀ document ∈ final.set.documents, ∀ target, document.PointsTo target →
      name ≠ some target → target ∈ final.reads := by
    intro document hdocument target hpoints hother
    rw [← hkeys]
    have hkey := hasKey_of_pointsTo hmissing hdocument hpoints
    exact (DocumentSet.hasKey_iff.mp hkey).resolve_left (by rw [hset]; exact hother)
  -- Along the references each key is pointed to by a document that is in the set.
  induction hreaches with
  | main hpoints hother =>
    exact hpresent main (by rw [hset]; exact List.mem_cons_self) _ hpoints hother
  | @next source target document _ hread hpoints hother ih =>
    refine hpresent document ?_ target hpoints hother
    rw [hset]
    exact List.mem_cons_of_mem _
      (List.mem_map_of_mem (mem_entriesUnder_iff.mpr ⟨ih, hread⟩))

/-- Where reading comes to an end without a failure, only finitely many keys are reached. -/
theorem finite_reaches {n : Nat} (hover : ((start main name).after read n).isOver = true)
    (h : ((start main name).after read n).failure = none) :
    {key | Reaches read main name key}.Finite :=
  ((start main name).after read n).reads.finite_toSet.subset fun _ hreaches =>
    (mem_reads_iff hover h).mpr hreaches

/-! ## Rounds -/

theorem after_add (state : Gathering ε) (n m : Nat) :
    state.after read (n + m) = (state.after read n).after read m := by
  induction n generalizing state with
  | zero => rw [Nat.zero_add, after]
  | succ n ih =>
    by_cases hover : state.isOver = true
    · rw [after_of_isOver hover, after_of_isOver hover, after_of_isOver hover]
    · rw [Nat.add_right_comm, after, if_neg hover, ih, after, if_neg hover]

theorem length_reads_foldl_step (keys : List String) (state : Gathering ε) :
    state.reads.length ≤ (keys.foldl (step read) state).reads.length := by
  induction keys generalizing state with
  | nil => exact le_refl _
  | cons key rest ih =>
    refine le_trans ?_ (ih (step read state key))
    rw [step]
    split
    · exact le_refl _
    · dsimp only
      split <;> simp

/-- A round before the end reads a document. -/
theorem length_reads_round (read : String → Except ε Document) {state : Gathering ε}
    (h : ¬state.isOver = true) :
    state.reads.length < (state.round read).reads.length := by
  rw [isOver, Bool.or_eq_true, not_or, List.isEmpty_iff] at h
  obtain ⟨key, rest, hmissing⟩ := List.exists_cons_of_ne_nil h.2
  rw [round, hmissing, List.foldl_cons]
  refine lt_of_lt_of_le ?_ (length_reads_foldl_step rest _)
  rw [step, if_neg h.1]
  dsimp only
  split <;> simp

/-- Reading is over, or has read a document in each round. -/
theorem isOver_or_le_length (state : Gathering ε) (n : Nat) :
    (state.after read n).isOver = true ∨ n ≤ (state.after read n).reads.length := by
  induction n with
  | zero => exact .inr (Nat.zero_le _)
  | succ n ih =>
    rw [after_add]
    by_cases hover : (state.after read n).isOver = true
    · rw [after_of_isOver hover]
      exact .inl hover
    · have hlength := ih.resolve_left hover
      have hround := length_reads_round read hover
      rw [after, if_neg hover, after]
      exact .inr (by omega)

/-- There are no more rounds than keys that are reached. -/
theorem isOver_after_start (hfinite : {key | Reaches read main name key}.Finite) {n : Nat}
    (h : {key | Reaches read main name key}.ncard < n) :
    ((start main name).after read n).isOver = true := by
  refine (isOver_or_le_length _ n).resolve_right fun hlength => ?_
  have hreads : ((start main name).after read n).reads.length
      ≤ {key | Reaches read main name key}.ncard := by
    rw [← List.toFinset_card_of_nodup (nodup_reads n), ← Set.ncard_coe_finset]
    refine Set.ncard_le_ncard (fun key hkey => ?_) hfinite
    exact reaches_of_mem_reads (List.mem_toFinset.mp hkey)
  omega

end

end Gathering

/-! ## Results -/

/-- A document in a file is loaded with all documents that are gathered around it. -/
theorem DocumentSet.load_of_ok {files : FileView} {path : String} {main : Document}
    (h : Document.load files path = .ok main) :
    DocumentSet.load files path
      = ((gather files path main).log, (gather files path main).result) := by
  rw [load, h]

section

variable (read : String → Except ParseError Document) (main : Document) (name : Option String)

/-- The set has the main document and exactly the documents that are reached from it, and no
reference leads out of it. -/
structure DocumentSet.IsClosure (set : DocumentSet) : Prop where
  main_eq : set.main = main
  mainName_eq : set.mainName = name
  mem_keys_iff : ∀ key, key ∈ Dictionary.keys set.external
    ↔ Gathering.Reaches read main name key
  read_eq : ∀ entry ∈ set.external, read entry.1 = .ok entry.2
  isLoaded_iff : ∀ path, set.isLoaded path = true
    ↔ ∃ key, IsKeyOf key path ∧ (name = some key ∨ key ∈ Dictionary.keys set.external)
  isLoaded : ∀ document ∈ set.documents, ∀ entry ∈ document.schemas, ∀ reference path,
    entry.2.Refers reference → HasFilePart reference path → set.isLoaded path = true

/-- The reading is over. It went through the layers around the main document, read no document
twice, none under a path that begins with `./` and none under the name of the main one, and comes to
the closure, its documents in the order in which they were read. Otherwise it ends with the first
document that could not be read. -/
structure Gathering.Closes (final : Gathering ParseError) : Prop where
  isOver : final.isOver = true
  nodup : final.reads.Nodup
  isKey : ∀ key ∈ final.reads, ¬ ['.', '/'] <+: key.toList ∧ name ≠ some key
  reads_eq : ∃ rounds, ∀ n ≥ rounds, ∃ layers, layers.length = n
    ∧ AreLayers read name.toList [main] layers ∧ final.reads = readUpTo read layers.flatten
  of_ok : ∀ set, final.result = .ok set →
    set.IsClosure read main name ∧ Dictionary.keys set.external = final.reads
  of_error : ∀ error, final.result = .error error →
    ∃ before key cause, error = .referenced key cause ∧ read key = .error cause
      ∧ final.reads = before ++ [key]
      ∧ ∀ other ∈ before, ∃ document, read other = .ok document

end

namespace Gathering

variable {read : String → Except ParseError Document} {main : Document} {name : Option String}

theorem isClosure_of_isOver {n : Nat} (hover : ((start main name).after read n).isOver = true)
    (h : ((start main name).after read n).failure = none) :
    ((start main name).after read n).set.IsClosure read main name := by
  have hset := external_after_start read main name n
  constructor
  · rw [hset]
  · rw [hset]
  · intro key
    rw [keys_external_after_start h, mem_reads_iff hover h]
  · intro entry hentry
    rw [hset] at hentry
    exact (mem_entriesUnder_iff.mp hentry).2
  · intro path
    rw [DocumentSet.isLoaded_iff, hset]
  · intro document hdocument entry hentry reference path hrefers hpath
    exact hasKey_of_pointsTo (missing_eq_nil hover h) hdocument
      ⟨entry, hentry, reference, hrefers, path, hpath, documentKey_eq_iff.mp rfl⟩

theorem closes_of_isOver {n : Nat} (hover : ((start main name).after read n).isOver = true) :
    Closes read main name ((start main name).after read n) := by
  constructor
  · exact hover
  · exact nodup_reads n
  · intro key hkey
    have hreaches := reaches_of_mem_reads hkey
    exact ⟨hreaches.not_prefix, hreaches.ne_name⟩
  · refine ⟨n, fun m hm => ⟨layers read main name m, length_layersFrom _ _ m,
      areLayers_layersFrom _ _ m, ?_⟩⟩
    obtain ⟨more, rfl⟩ := Nat.exists_eq_add_of_le hm
    rw [← reads_after_start, after_add, after_of_isOver hover]
  · intro set hset
    obtain ⟨hnone, rfl⟩ := result_eq_ok_iff.mp hset
    exact ⟨isClosure_of_isOver hover hnone, keys_external_after_start hnone⟩
  · intro error herror
    obtain ⟨failure, hfailure, rfl⟩ := result_eq_error_iff.mp herror
    rw [after_start_eq] at hfailure
    obtain ⟨hread, before, hreads, hbefore⟩ := readUpTo_of_firstFailure? hfailure
    exact ⟨before, _, _, rfl, hread, (reads_after_start n).trans hreads, hbefore⟩

/-- **Reading is an exact closure.** Where finitely many keys are reached it ends after finitely
many rounds, with exactly the documents that are reached or with the first failure. -/
theorem exists_closes_of_finite (read : String → Except ParseError Document) (main : Document)
    (name : Option String) (hfinite : {key | Reaches read main name key}.Finite) :
    ∃ final, Closes read main name final ∧ ∀ n > {key | Reaches read main name key}.ncard,
      (start main name).after read n = final := by
  have hover := isOver_after_start hfinite (Nat.lt_succ_self _)
  refine ⟨_, closes_of_isOver hover, fun n hn => ?_⟩
  obtain ⟨more, rfl⟩ := Nat.exists_eq_add_of_lt hn
  rw [Nat.add_right_comm, after_add, after_of_isOver hover]

/-- A document that refers to others and, through a discriminator, to one in another spelling. -/
def atlas : Document :=
  .ofSchemas
    [("City", .ref "./cities.json#/components/schemas/City"),
      ("Water", .inline
        { oneOf := [.ref "#/components/schemas/City"]
          discriminator :=
            some ⟨"kind", [("river", "././rivers.json#/components/schemas/River")]⟩ })]

/-- The atlas with the documents around it. These refer to each other in circles, back to the atlas,
and to one document in several spellings of its path. -/
def maps : Dictionary Document :=
  [("atlas.json", atlas),
    ("cities.json", .ofSchemas
      [("City", .inline
        { properties :=
            [("twins", .inline { items := some (.ref "cities.json#/components/schemas/City") }),
              ("river", .ref "rivers.json#/components/schemas/River"),
              ("map", .ref "./atlas.json#/components/schemas/Water")] })]),
    ("rivers.json", .ofSchemas
      [("River", .inline { allOf := [.ref "./seas.json#/components/schemas/Sea"] })]),
    ("seas.json", .ofSchemas
      [("Sea", .inline
        { additional := some (.schema (.ref "./cities.json#/components/schemas/City")) })])]

/-- Reading one of the maps. -/
def readMap (key : String) : Except ParseError Document :=
  match maps.lookup? key with
  | some document => .ok document
  | none => .error (.unreadable key .notFound)

/-- **Around the atlas each document is read once**, whatever the spellings of its path, first those
that the atlas mentions and then the one that these mention. The atlas itself is not read again. -/
theorem exists_closes_atlas : {key | Reaches readMap atlas (some "atlas.json") key}.Finite
    ∧ ∃ final, Closes readMap atlas (some "atlas.json") final
      ∧ (∀ n > {key | Reaches readMap atlas (some "atlas.json") key}.ncard,
        (start atlas (some "atlas.json")).after readMap n = final)
      ∧ final.reads = ["cities.json", "rivers.json", "seas.json"] := by
  have hover : ((start atlas (some "atlas.json")).after readMap 3).isOver = true := by
    decide +kernel
  have hnone : ((start atlas (some "atlas.json")).after readMap 3).failure = none := by
    decide +kernel
  have hfinite := finite_reaches hover hnone
  obtain ⟨final, hcloses, hends⟩ := exists_closes_of_finite readMap atlas _ hfinite
  refine ⟨hfinite, final, hcloses, hends, ?_⟩
  have hfinal : (start atlas (some "atlas.json")).after readMap 3 = final := by
    rw [← hends (3 + ({key | Reaches readMap atlas (some "atlas.json") key}.ncard + 1))
      (by omega), after_add, after_of_isOver hover]
  rw [← hfinal]
  decide +kernel

end Gathering

/-- A document in a file is loaded with the closure around it, where the files have at least as
many characters as there are keys to reach. -/
theorem DocumentSet.exists_closes_of_load {files : FileView} {path : String} {main : Document}
    (hmain : Document.load files path = .ok main)
    (hfinite : {key | Gathering.Reaches
      (fun document => Document.load files (Path.join (Path.parent path) document)) main
      (some (Path.fileName path)) key}.Finite)
    (hvolume : {key | Gathering.Reaches
      (fun document => Document.load files (Path.join (Path.parent path) document)) main
      (some (Path.fileName path)) key}.ncard ≤ files.volume) :
    ∃ final, Gathering.Closes
      (fun document => Document.load files (Path.join (Path.parent path) document)) main
      (some (Path.fileName path)) final
      ∧ DocumentSet.load files path = (final.log, final.result) :=
  ⟨gather files path main,
    Gathering.closes_of_isOver (Gathering.isOver_after_start hfinite (Nat.lt_succ_of_le hvolume)),
    load_of_ok hmain⟩

end PojoGraph
