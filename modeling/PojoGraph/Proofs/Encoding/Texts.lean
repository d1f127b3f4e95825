import PojoGraph.Proofs.Encoding.Nesting
import PojoGraph.Proofs.Encoding.Numbers
import PojoGraph.Proofs.Encoding.Scalars

/-!
# Written values

A value that is written compactly is read back as its tree, as deep as there is room, provided its
numbers are read back. The reader takes as many steps as it is given; two for each character are
enough.

## Main statements

* `Json.readValue?_compact` — a written value is read back, whatever follows it.
* `Json.read?_compact` — and so it is where it is the whole text.
-/

namespace PojoGraph

namespace Json

/-! ## Separators -/

theorem skipBlanks_cons {c : Char} (h : c ∉ [' ', '\n', '\t', '\r']) (cs : List Char) :
    skipBlanks (c :: cs) = c :: cs := by
  rw [skipBlanks, List.dropWhile_cons_of_neg]
  simpa [and_assoc] using h

theorem toList_joinWith_singleton (separator text : String) :
    (Text.joinWith separator [text]).toList = text.toList := by
  simp [Text.joinWith]

theorem toList_joinWith_cons_cons (separator first second : String) (rest : List String) :
    (Text.joinWith separator (first :: second :: rest)).toList = first.toList
      ++ (separator.toList ++ (Text.joinWith separator (second :: rest)).toList) := by
  simp [Text.joinWith, String.toList_intercalate, List.intercalate]

theorem toList_quote (text : String) :
    (quote text).toList = '"' :: (text.toList.flatMap escapeChar ++ ['"']) := by
  simp [quote]

/-- The character can begin a value: it is not blank and closes nothing. -/
def StartsValue (c : Char) : Prop :=
  c ∉ [' ', '\n', '\t', '\r'] ∧ c ≠ ']' ∧ c ≠ '\x7d'

instance : DecidablePred StartsValue := fun _ => inferInstanceAs (Decidable (_ ∧ _ ∧ _))

theorem startsValue_of_isDigit {c : Char} (h : c.isDigit = true) : StartsValue c := by
  have hne : ∀ {d : Char}, d.isDigit = false → c ≠ d := by
    rintro d hd rfl
    rw [hd] at h
    cases h
  simp only [StartsValue, List.mem_cons, List.not_mem_nil, or_false, not_or]
  exact ⟨⟨hne rfl, hne rfl, hne rfl, hne rfl⟩, hne rfl, hne rfl⟩

/-- A value is written with some character in front that can begin one. -/
theorem exists_cons_compact {value : Json} (h : ∀ number ∈ value.numbers, number.IsReadBack) :
    ∃ c cs, value.compact.toList = c :: cs ∧ StartsValue c := by
  cases value with
  | null => exact ⟨'n', _, rfl, by decide⟩
  | bool value =>
    cases value with
    | false => exact ⟨'f', _, rfl, by decide⟩
    | true => exact ⟨'t', _, rfl, by decide⟩
  | number number =>
    obtain ⟨c, cs, heq, hc⟩ := (h number (by simp [numbers])).exists_cons
    refine ⟨c, cs, by rw [compact, heq], ?_⟩
    rcases hc with rfl | hdigit
    · decide
    · exact startsValue_of_isDigit hdigit
  | string text => exact ⟨'"', _, by rw [compact, toList_quote], by decide⟩
  | array items => exact ⟨'[', _, by rw [compact, String.toList_append, String.toList_append]; rfl,
      by decide⟩
  | object fields => exact ⟨'\x7b', _,
      by rw [compact, String.toList_append, String.toList_append]; rfl, by decide⟩

/-! ## Steps of the reader -/

section

variable {fuel room : Nat} {c : Char} {cs rest : List Char}

theorem readValue?_array (hc : StartsValue c) :
    readValue? (fuel + 1) room ('[' :: c :: cs)
      = (readItems? fuel (room - 1) (c :: cs)).map fun read =>
          (nested room (.sequence read.1), read.2) := by
  rw [readValue?, skipBlanks_cons (by decide)]
  split <;> rename_i heq
  case h_2 =>
    obtain ⟨-, rfl⟩ := List.cons.inj heq
    rw [skipBlanks_cons hc.1]
    split
    · rename_i hclose
      exact absurd (List.cons.inj hclose).1 hc.2.1
    · rfl
  case h_4 _ hbracket _ => exact (hbracket (List.cons.inj heq).1.symm).elim
  all_goals simp at heq

theorem readValue?_object (hc : StartsValue c) :
    readValue? (fuel + 1) room ('\x7b' :: c :: cs)
      = (readFields? fuel (room - 1) (c :: cs)).map fun read =>
          (nested room (.mapping read.1), read.2) := by
  rw [readValue?, skipBlanks_cons (by decide)]
  split <;> rename_i heq
  case h_1 =>
    obtain ⟨-, rfl⟩ := List.cons.inj heq
    rw [skipBlanks_cons hc.1]
    split
    · rename_i hclose
      exact absurd (List.cons.inj hclose).1 hc.2.2
    · rfl
  case h_4 hbrace _ _ => exact (hbrace (List.cons.inj heq).1.symm).elim
  all_goals simp at heq

theorem readValue?_number (hc : c = '-' ∨ c.isDigit = true) :
    readValue? (fuel + 1) room (c :: cs) = readNumber? (c :: cs) := by
  have hstarts : StartsValue c := by
    rcases hc with rfl | hdigit
    · decide
    · exact startsValue_of_isDigit hdigit
  have hnumber : (c = '-' || c.isDigit) = true := by simpa using hc
  rw [readValue?, skipBlanks_cons hstarts.1]
  split
  all_goals rename_i heq
  · obtain ⟨rfl, -⟩ := List.cons.inj heq
    cases hnumber
  · obtain ⟨rfl, -⟩ := List.cons.inj heq
    cases hnumber
  · obtain ⟨rfl, -⟩ := List.cons.inj heq
    cases hnumber
  · cases heq
    rw [if_pos hnumber]
  · cases heq

/-- An item is read, and then the items after the comma. -/
theorem readItems?_comma {item : Tree} (h : readValue? fuel room cs = some (item, ',' :: rest)) :
    readItems? (fuel + 1) room cs
      = (readItems? fuel room rest).map fun read => (item :: read.1, read.2) := by
  rw [readItems?, h, Option.bind_eq_bind, Option.bind_some]
  show (readItems? fuel room rest).bind _ = _
  cases readItems? fuel room rest <;> rfl

/-- The last item is read, and the bracket after it. -/
theorem readItems?_bracket {item : Tree}
    (h : readValue? fuel room cs = some (item, ']' :: rest)) :
    readItems? (fuel + 1) room cs = some ([item], rest) := by
  rw [readItems?, h, Option.bind_eq_bind, Option.bind_some]
  rfl

/-- A field is read, and then the fields after the comma. -/
theorem readFields?_comma {key value : Tree} {afterColon : List Char}
    (hkey : readText? cs = some (key, ':' :: afterColon))
    (hvalue : readValue? fuel room afterColon = some (value, ',' :: rest)) :
    readFields? (fuel + 1) room ('"' :: cs)
      = (readFields? fuel room rest).map fun read => ((key, value) :: read.1, read.2) := by
  rw [readFields?]
  show (readText? cs).bind _ = _
  rw [hkey, Option.bind_some]
  show (readValue? fuel room afterColon).bind _ = _
  rw [hvalue, Option.bind_some]
  show (readFields? fuel room rest).bind _ = _
  cases readFields? fuel room rest <;> rfl

/-- The last field is read, and the brace after it. -/
theorem readFields?_brace {key value : Tree} {afterColon : List Char}
    (hkey : readText? cs = some (key, ':' :: afterColon))
    (hvalue : readValue? fuel room afterColon = some (value, '\x7d' :: rest)) :
    readFields? (fuel + 1) room ('"' :: cs) = some ([(key, value)], rest) := by
  rw [readFields?]
  show (readText? cs).bind _ = _
  rw [hkey, Option.bind_some]
  show (readValue? fuel room afterColon).bind _ = _
  rw [hvalue, Option.bind_some]
  rfl

end

/-! ## Values -/

/-- The items of an array as they stand between its brackets. -/
def itemsText (items : List Json) : List Char :=
  (Text.joinWith "," (compactItems items)).toList

/-- The fields of an object as they stand between its braces. -/
def fieldsText (fields : List (String × Json)) : List Char :=
  (Text.joinWith "," (compactFields fields)).toList

theorem toList_compact_array (items : List Json) :
    (array items).compact.toList = '[' :: (itemsText items ++ [']']) := by
  simp [compact, itemsText]

theorem toList_compact_object (fields : List (String × Json)) :
    (object fields).compact.toList = '\x7b' :: (fieldsText fields ++ ['\x7d']) := by
  simp [compact, fieldsText, braces]

theorem itemsText_singleton (item : Json) : itemsText [item] = item.compact.toList := by
  rw [itemsText, compactItems, compactItems, toList_joinWith_singleton]

theorem itemsText_cons_cons (first second : Json) (rest : List Json) :
    itemsText (first :: second :: rest)
      = first.compact.toList ++ ',' :: itemsText (second :: rest) := by
  rw [itemsText, compactItems, compactItems, toList_joinWith_cons_cons]
  rfl

theorem fieldsText_singleton (key : String) (value : Json) :
    fieldsText [(key, value)]
      = '"' :: (key.toList.flatMap escapeChar ++ '"' :: ':' :: value.compact.toList) := by
  rw [fieldsText, compactFields, compactFields, toList_joinWith_singleton]
  simp [toList_quote]

theorem fieldsText_cons_cons (key : String) (value : Json) (second : String × Json)
    (rest : List (String × Json)) : fieldsText ((key, value) :: second :: rest)
      = '"' :: (key.toList.flatMap escapeChar ++ '"' :: ':' ::
          (value.compact.toList ++ ',' :: fieldsText (second :: rest))) := by
  obtain ⟨second, next⟩ := second
  rw [fieldsText, compactFields, compactFields, toList_joinWith_cons_cons]
  simp [toList_quote, fieldsText, compactFields]

theorem exists_cons_itemsText {item : Json} {rest : List Json}
    (h : ∀ number ∈ numbersOfItems (item :: rest), number.IsReadBack) :
    ∃ c cs, itemsText (item :: rest) = c :: cs ∧ StartsValue c := by
  have hitem : ∀ number ∈ item.numbers, number.IsReadBack :=
    fun number hnumber => h number (List.mem_append_left _ hnumber)
  obtain ⟨c, cs, heq, hc⟩ := exists_cons_compact hitem
  cases rest with
  | nil => exact ⟨c, cs, by rw [itemsText_singleton, heq], hc⟩
  | cons second rest => exact ⟨c, _, by rw [itemsText_cons_cons, heq, List.cons_append], hc⟩

theorem exists_cons_fieldsText (field : String × Json) (rest : List (String × Json)) :
    ∃ cs, fieldsText (field :: rest) = '"' :: cs := by
  cases rest with
  | nil => exact ⟨_, fieldsText_singleton field.1 field.2⟩
  | cons second rest => exact ⟨_, fieldsText_cons_cons field.1 field.2 second rest⟩

mutual

/-- **A written value is read back**, as deep as there is room, whatever follows it. -/
theorem readValue?_compact : ∀ (value : Json) (fuel room : Nat) (rest : List Char),
    (∀ number ∈ value.numbers, number.IsReadBack) → EndsValue rest →
    2 * value.compact.toList.length ≤ fuel →
    readValue? (fuel + 1) room (value.compact.toList ++ rest) = some (value.treeWithin room, rest)
  | null => fun _ _ _ _ _ _ => rfl
  | bool true | bool false => fun _ _ _ _ _ _ => rfl
  | number value => by
    intro fuel room rest hnumbers hrest _
    have hback := hnumbers value (by simp [numbers])
    obtain ⟨c, cs, heq, hc⟩ := hback.exists_cons
    have hread := hback.readNumber? hrest
    rw [heq, List.cons_append] at hread
    rw [compact, treeWithin, heq, List.cons_append, readValue?_number hc, hread]
  | string text => by
    intro fuel room rest _ _ _
    rw [compact, toList_quote, List.cons_append, List.append_assoc, treeWithin]
    show readText? (_ ++ '"' :: rest) = _
    rw [readText?_escaped, String.ofList_toList]
  | array [] => by
    intro fuel room rest _ _ _
    rw [toList_compact_array]
    rfl
  | array (item :: items) => by
    intro fuel room rest hnumbers _ hfuel
    rw [toList_compact_array] at hfuel ⊢
    simp only [List.length_cons, List.length_append, List.length_nil] at hfuel
    obtain ⟨c, cs, heq, hc⟩ := exists_cons_itemsText hnumbers
    have hread := readItems?_compact (item :: items) fuel (room - 1) rest hnumbers
      (List.cons_ne_nil _ _) (by omega)
    rw [List.cons_append, List.append_assoc, List.singleton_append]
    rw [heq, List.cons_append] at hread ⊢
    rw [readValue?_array hc, hread]
    rfl
  | object [] => by
    intro fuel room rest _ _ _
    rw [toList_compact_object]
    rfl
  | object (field :: fields) => by
    intro fuel room rest hnumbers _ hfuel
    rw [toList_compact_object] at hfuel ⊢
    simp only [List.length_cons, List.length_append, List.length_nil] at hfuel
    obtain ⟨cs, heq⟩ := exists_cons_fieldsText field fields
    have hread := readFields?_compact (field :: fields) fuel (room - 1) rest hnumbers
      (List.cons_ne_nil _ _) (by omega)
    rw [List.cons_append, List.append_assoc, List.singleton_append]
    rw [heq, List.cons_append] at hread ⊢
    rw [readValue?_object (by decide), hread]
    rfl

/-- The written items of an array are read back up to the bracket that closes it. -/
theorem readItems?_compact : ∀ (items : List Json) (fuel room : Nat) (rest : List Char),
    (∀ number ∈ numbersOfItems items, number.IsReadBack) → items ≠ [] →
    2 * (itemsText items).length + 2 ≤ fuel →
    readItems? fuel room (itemsText items ++ ']' :: rest)
      = some (itemsWithin room items, rest)
  | [] => fun _ _ _ _ hne => absurd rfl hne
  | [item] => by
    intro fuel room rest hnumbers _ hfuel
    obtain ⟨fuel, rfl⟩ : ∃ n, fuel = n + 2 := ⟨fuel - 2, by omega⟩
    rw [itemsText_singleton] at hfuel ⊢
    refine readItems?_bracket (readValue?_compact item _ _ _ ?_ ?_ (by omega))
    · exact fun number hnumber => hnumbers number (List.mem_append_left _ hnumber)
    · simp [EndsValue]
  | first :: second :: items => by
    intro fuel room rest hnumbers _ hfuel
    obtain ⟨fuel, rfl⟩ : ∃ n, fuel = n + 2 := ⟨fuel - 2, by omega⟩
    rw [itemsText_cons_cons] at hfuel ⊢
    simp only [List.length_cons, List.length_append] at hfuel
    have hfirst := readValue?_compact first fuel room
      (',' :: (itemsText (second :: items) ++ ']' :: rest))
      (fun number hnumber => hnumbers number (List.mem_append_left _ hnumber))
      (by simp [EndsValue]) (by omega)
    have hothers := readItems?_compact (second :: items) (fuel + 1) room rest
      (fun number hnumber => hnumbers number (List.mem_append_right _ hnumber))
      (List.cons_ne_nil _ _) (by omega)
    rw [List.append_assoc, List.cons_append, readItems?_comma hfirst, hothers]
    rfl

/-- The written fields of an object are read back up to the brace that closes it. -/
theorem readFields?_compact : ∀ (fields : List (String × Json)) (fuel room : Nat)
    (rest : List Char), (∀ number ∈ numbersOfFields fields, number.IsReadBack) → fields ≠ [] →
    2 * (fieldsText fields).length + 2 ≤ fuel →
    readFields? fuel room (fieldsText fields ++ '\x7d' :: rest)
      = some (fieldsWithin room fields, rest)
  | [] => fun _ _ _ _ hne => absurd rfl hne
  | [(key, value)] => by
    intro fuel room rest hnumbers _ hfuel
    obtain ⟨fuel, rfl⟩ : ∃ n, fuel = n + 2 := ⟨fuel - 2, by omega⟩
    rw [fieldsText_singleton] at hfuel ⊢
    simp only [List.length_cons, List.length_append] at hfuel
    rw [List.cons_append, List.append_assoc, List.cons_append, List.cons_append]
    have hkey := readText?_escaped key.toList (':' :: (value.compact.toList ++ '\x7d' :: rest))
    rw [String.ofList_toList] at hkey
    refine readFields?_brace hkey (readValue?_compact value _ _ _ ?_ ?_ (by omega))
    · exact fun number hnumber => hnumbers number (List.mem_append_left _ hnumber)
    · simp [EndsValue]
  | (key, value) :: second :: fields => by
    intro fuel room rest hnumbers _ hfuel
    obtain ⟨fuel, rfl⟩ : ∃ n, fuel = n + 2 := ⟨fuel - 2, by omega⟩
    rw [fieldsText_cons_cons] at hfuel ⊢
    simp only [List.length_cons, List.length_append] at hfuel
    rw [List.cons_append, List.append_assoc, List.cons_append, List.cons_append,
      List.append_assoc, List.cons_append]
    have hkey := readText?_escaped key.toList
      (':' :: (value.compact.toList ++ ',' :: (fieldsText (second :: fields) ++ '\x7d' :: rest)))
    rw [String.ofList_toList] at hkey
    have hvalue := readValue?_compact value fuel room
      (',' :: (fieldsText (second :: fields) ++ '\x7d' :: rest))
      (fun number hnumber => hnumbers number (List.mem_append_left _ hnumber))
      (by simp [EndsValue]) (by omega)
    have hothers := readFields?_compact (second :: fields) (fuel + 1) room rest
      (fun number hnumber => hnumbers number (List.mem_append_right _ hnumber))
      (List.cons_ne_nil _ _) (by omega)
    rw [readFields?_comma hkey hvalue, hothers]
    rfl

end

/-- **A text that is a written value is read as its tree**, as deep as the reader reads. -/
theorem read?_compact {value : Json} (h : ∀ number ∈ value.numbers, number.IsReadBack) :
    read? value.compact = some (value.treeWithin nestingLimit) := by
  have hread := readValue?_compact value (2 * value.compact.toList.length + 1) nestingLimit []
    h endsValue_nil (by omega)
  rw [List.append_nil] at hread
  rw [read?]
  dsimp only
  rw [hread, Option.bind_eq_bind, Option.bind_some]
  rfl

end Json

end PojoGraph
