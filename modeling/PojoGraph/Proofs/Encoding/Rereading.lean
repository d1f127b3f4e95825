import PojoGraph.Document.Read
import PojoGraph.Proofs.Checks
import PojoGraph.Proofs.Encoding.Texts

/-!
# Documents read back

A document that is written is read back as it was, and so its text is a fixed point: what is read
from it is written as the same text. Two limits of the reader of JSON stand against this. It reads
containers only up to a depth, which a document in YAML may exceed by one level, and it does not
compute the nearest double of every decimal, so that some doubles are read back as a neighbour.

## Main definitions

* `Number.isReadBack` — whether a number is read back, computed.

## Main statements

* `Document.read_compact` — what is read from the text of a well-formed document.
* `Document.encoding_read_back` — both for values and for texts, documents are read back.
* `Document.rereading_limits` — a document that is nested too deep, and one whose double changes.
-/

namespace PojoGraph

namespace Number

/-- Whether the number is read back. -/
def isReadBack (number : Number) : Bool :=
  match Json.readNumber? number.text.toList with
  | some (.number found, []) => found = number
  | _ => false

theorem isReadBack_iff {number : Number} : number.isReadBack = true ↔ number.IsReadBack := by
  rw [isReadBack, IsReadBack]
  split
  · rename_i hread
    simp [hread]
  · rename_i hother
    exact ⟨fun h => absurd h Bool.false_ne_true, fun hread => (hother number hread).elim⟩

instance : DecidablePred IsReadBack := fun _ => decidable_of_iff _ isReadBack_iff

end Number

namespace Document

variable {document : Document}

/-- **The text of a well-formed document is read as the document**, unless it is nested deeper than
the reader reads. Only for doubles it depends on the number whether it is read back. -/
theorem read_compact (h : document.IsWellFormed)
    (hversion : "3.".toList.isPrefixOf document.openapi.toList = true)
    (hdoubles : ∀ value, .double value ∈ document.encode.numbers →
      (Number.double value).IsReadBack) :
    read .json document.encode.compact
      = if document.encode.depth ≤ Json.nestingLimit then .ok document
        else .error (.malformed .json) := by
  have hnumbers : ∀ number ∈ document.encode.numbers, number.IsReadBack := by
    intro number hnumber
    cases number with
    | integer value =>
      exact Number.isReadBack_integer (numbersWellFormed_encode h _ hnumber)
    | double value => exact hdoubles value hnumber
  have hdecode : decodeText? .json document.encode.compact
      = if document.encode.depth ≤ Json.nestingLimit then some document else none := by
    rw [decodeText?, Json.read?_compact hnumbers]
    exact decode?_treeWithin h 124
  rw [read, hdecode]
  by_cases hdepth : document.encode.depth ≤ Json.nestingLimit
  · rw [if_pos hdepth, if_pos hdepth]
    exact if_pos hversion
  · rw [if_neg hdepth, if_neg hdepth]

/-- A document that is read has a supported version. -/
theorem isPrefixOf_of_read {format : Format} {text : String}
    (h : read format text = .ok document) :
    "3.".toList.isPrefixOf document.openapi.toList = true := by
  rw [read] at h
  split at h
  · cases h
  · split at h
    · rename_i hversion
      cases h
      exact hversion
    · cases h

/-- **Documents are read back.** A well-formed document is decoded from the tree as which it is
written. Documents that are read are well formed; unless such a document is nested too deep or has a
double that is not read back, the text as which it is written is read as the document again. -/
theorem encoding_read_back :
    (∀ document : Document, document.IsWellFormed →
      decode? document.encode.tree = some document) ∧
    ∀ (format : Format) (text : String) (document : Document), read format text = .ok document →
      document.IsWellFormed ∧
      ((∀ value, .double value ∈ document.encode.numbers → (Number.double value).IsReadBack) →
        read .json document.encode.compact
          = if document.encode.depth ≤ Json.nestingLimit then .ok document
            else .error (.malformed .json)) := by
  refine ⟨fun document h => decode?_encode h, fun format text document h => ?_⟩
  have hwell := isWellFormed_of_read h
  exact ⟨hwell, read_compact hwell (isPrefixOf_of_read h)⟩

/-- The text of a document with a bound. -/
def boundedText (bound : String) : String :=
  "\x7b\"openapi\":\"3.0.3\",\"info\":\x7b\"title\":\"t\",\"version\":\"v\"\x7d,"
    ++ "\"components\":\x7b\"schemas\":\x7b\"A\":\x7b\"minimum\":" ++ bound
    ++ "\x7d\x7d\x7d\x7d"

/-- A document with a double is read back from its tree and from its text. -/
theorem encoding_read_back_quarter :
    ∃ document, read .json (boundedText "0.25") = .ok document
      ∧ decode? document.encode.tree = some document
      ∧ read .json document.encode.compact = .ok document := by
  obtain ⟨document, hread, hlimits⟩ := exists_ok_of_any_toOption
    (show (read .json (boundedText "0.25")).toOption.any (fun document =>
      decide (document.encode.depth ≤ Json.nestingLimit
        ∧ ∀ number ∈ document.encode.numbers, number.IsReadBack)) = true by decide +kernel)
  obtain ⟨hdepth, hnumbers⟩ := of_decide_eq_true hlimits
  obtain ⟨hdecode, hreread⟩ := encoding_read_back
  obtain ⟨hwell, hreread⟩ := hreread .json (boundedText "0.25") document hread
  refine ⟨document, hread, hdecode document hwell, ?_⟩
  rw [hreread fun value hvalue => hnumbers _ hvalue, if_pos hdepth]

/-- The characters of a document with an enum value of nested lists. -/
def nestedChars (levels : Nat) : List Char :=
  "\x7bopenapi: 3.0.3, info: \x7btitle: t, version: v\x7d, ".toList
    ++ "components: \x7bschemas: \x7bA: \x7benum: ".toList
    ++ List.replicate levels '[' ++ List.replicate levels ']' ++ "\x7d\x7d\x7d\x7d".toList

/-- With 124 levels of lists, YAML is read although JSON is not. -/
theorem exists_read_nestedChars {text : String} (htext : text.toList = nestedChars 124) :
    ∃ document, read .yaml text = .ok document
      ∧ ¬ document.encode.depth ≤ Json.nestingLimit ∧ document.encode.numbers = [] := by
  obtain ⟨document, hread, hlimits⟩ := exists_ok_of_any_toOption
    (show (read .yaml text).toOption.any (fun document =>
      decide (¬ document.encode.depth ≤ Json.nestingLimit) && document.encode.numbers.isEmpty)
        = true by
      simp only [read, decodeText?, Yaml.Node.read?, Yaml.Token.scan?, htext]
      decide +kernel)
  rw [Bool.and_eq_true, decide_eq_true_iff, List.isEmpty_iff] at hlimits
  exact ⟨document, hread, hlimits⟩

/-- **Documents that are not read back**: one that is nested too deep for JSON, and one whose double
is read as its neighbour. -/
theorem rereading_limits :
    (∃ document, read .yaml (String.ofList (nestedChars 124)) = .ok document
      ∧ read .json document.encode.compact = .error (.malformed .json))
    ∧ ∃ document again, read .json (boundedText "31679.1238518507407") = .ok document
      ∧ read .json document.encode.compact = .ok again
      ∧ again.encode.compact ≠ document.encode.compact := by
  constructor
  · obtain ⟨document, hread, hdepth, hnumbers⟩ :=
      exists_read_nestedChars (String.toList_ofList (l := nestedChars 124))
    refine ⟨document, hread, ?_⟩
    rw [read_compact (isWellFormed_of_read hread) (isPrefixOf_of_read hread) (by simp [hnumbers]),
      if_neg hdepth]
  · obtain ⟨document, hread, hagain⟩ := exists_ok_of_any_toOption
      (show (read .json (boundedText "31679.1238518507407")).toOption.any (fun document =>
        (read .json document.encode.compact).toOption.any fun again =>
          decide (again.encode.compact ≠ document.encode.compact)) = true by decide +kernel)
    obtain ⟨again, hagain, hchanged⟩ := exists_ok_of_any_toOption hagain
    exact ⟨document, again, hread, hagain, of_decide_eq_true hchanged⟩

end Document

end PojoGraph
