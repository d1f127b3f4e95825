import Mathlib.Data.List.TakeWhile
import PojoGraph.Json.Reader
import PojoGraph.Json.Writer
import PojoGraph.Proofs.Document.WellFormed

/-!
# Written strings and numbers

A string is written with the escapes that it needs, and they are read as the characters they stand
for. An integer of 64 bits is read back from its digits. Whether a double is depends on how its
decimal is computed: `Number.IsReadBack` says that a number is.

## Main definitions

* `Json.EndsValue` — what may follow a value.
* `Number.IsReadBack` — the number is read from its text.

## Main statements

* `Json.readText?_escaped` — a string is read back.
* `Json.readNumber?_append` — how a number is read does not depend on what follows.
* `Number.isReadBack_integer` — integers of 64 bits are read back.
-/

namespace PojoGraph

namespace Json

/-! ## Strings -/

/-- The characters that are written as an escape of one letter. -/
def shortEscaped : List Char :=
  ['"', '\\', '\n', '\t', '\r', Char.ofNat 8, Char.ofNat 12]

/-- What is read for the written form of a character. -/
def partOf (c : Char) : TextPart :=
  if c.toNat < 32 ∧ c ∉ shortEscaped then .unit c.toNat else .char c

theorem exists_shortEscape {c : Char} (h : c ∈ shortEscaped) :
    ∃ e, escapeChar c = ['\\', e] ∧ e ≠ 'u' ∧ shortEscape? e = some c := by
  simp only [shortEscaped, List.mem_cons, List.not_mem_nil, or_false] at h
  rcases h with rfl | rfl | rfl | rfl | rfl | rfl | rfl <;> exact ⟨_, rfl, by decide, rfl⟩

/-- The two digits of a control character. -/
def controlDigits (n : Nat) : List Char :=
  (if n < 16 then ['0'] else []) ++ Nat.toDigits 16 n

theorem exists_controlDigits {n : Nat} (h : n < 32) : ∃ high low, controlDigits n = [high, low]
    ∧ hexValue? high = some (n / 16) ∧ hexValue? low = some (n % 16) := by
  have hall : ∀ n < 32, (controlDigits n).map hexValue? = [some (n / 16), some (n % 16)] := by
    decide
  obtain ⟨high, rest, heq, hhigh, hrest⟩ := List.map_eq_cons_iff.mp (hall n h)
  obtain ⟨low, rest, rfl, hlow, hnil⟩ := List.map_eq_cons_iff.mp hrest
  obtain rfl := List.map_eq_nil_iff.mp hnil
  exact ⟨high, low, heq, hhigh, hlow⟩

/-- A control character is read from its two digits. -/
theorem readParts?_control {n : Nat} (h : n < 32) (rest : List Char) :
    readParts? ('\\' :: 'u' :: '0' :: '0' :: (controlDigits n ++ rest))
      = (readParts? rest).map fun read => (.unit n :: read.1, read.2) := by
  obtain ⟨high, low, heq, hhigh, hlow⟩ := exists_controlDigits h
  have hunit : 0 * 4096 + 0 * 256 + n / 16 * 16 + n % 16 = n := by omega
  rw [heq, List.cons_append, List.cons_append, List.nil_append, readParts?, hhigh, hlow,
    show hexValue? '0' = some 0 from rfl]
  simp only [Option.bind_eq_bind, Option.bind_some, hunit]
  cases readParts? rest <;> rfl

/-- A character is read from its escape of one letter. -/
theorem readParts?_short {c e : Char} (he : e ≠ 'u') (hc : shortEscape? e = some c)
    (rest : List Char) : readParts? ('\\' :: e :: rest)
      = (readParts? rest).map fun read => (.char c :: read.1, read.2) := by
  rw [readParts?, hc]
  · cases readParts? rest <;> rfl
  · intro _ _ _ _ _ heq
    exact absurd heq he

/-- Each character is read from its written form. -/
theorem readParts?_escapeChar (c : Char) (rest : List Char) :
    readParts? (escapeChar c ++ rest)
      = (readParts? rest).map fun read => (partOf c :: read.1, read.2) := by
  by_cases hshort : c ∈ shortEscaped
  · obtain ⟨e, hescape, he, hread⟩ := exists_shortEscape hshort
    have hpart : partOf c = .char c := if_neg fun h => h.2 hshort
    rw [hescape, hpart]
    exact readParts?_short he hread rest
  obtain ⟨hquote, hbackslash, hnewline, htab, hreturn, hbackspace, hfeed⟩ :
      c ≠ '"' ∧ c ≠ '\\' ∧ c ≠ '\n' ∧ c ≠ '\t' ∧ c ≠ '\r' ∧ c ≠ Char.ofNat 8
        ∧ c ≠ Char.ofNat 12 := by simpa [shortEscaped] using hshort
  rw [escapeChar, if_neg hquote, if_neg hbackslash, if_neg hnewline, if_neg htab, if_neg hreturn,
    if_neg hbackspace, if_neg hfeed]
  by_cases hcontrol : c.toNat < 32
  · have hpart : partOf c = .unit c.toNat := if_pos ⟨hcontrol, hshort⟩
    rw [if_pos hcontrol, hpart, ← readParts?_control hcontrol]
    rfl
  · have hpart : partOf c = .char c := if_neg fun h => hcontrol h.1
    rw [if_neg hcontrol, hpart, List.singleton_append, readParts?, if_neg hcontrol]
    · cases readParts? rest <;> rfl
    · exact fun heq => hquote heq
    · exact fun _ _ _ _ _ heq => absurd heq hbackslash
    · exact fun _ _ heq => absurd heq hbackslash

/-- A unit that is no surrogate stands for a character by itself. -/
theorem joinParts?_unit {n : Nat} (h : n < 0xD800) (parts : List TextPart) :
    joinParts? (.unit n :: parts) = (joinParts? parts).map (Char.ofNat n :: ·) := by
  have hnot : decide (0xD800 ≤ n) = false := by simpa using h
  rcases parts with _ | ⟨_ | low, parts⟩ <;> simp [joinParts?, hnot]

/-- What is read for a written text stands for it. -/
theorem joinParts?_partOf (text : List Char) : joinParts? (text.map partOf) = some text := by
  induction text with
  | nil => rfl
  | cons c rest ih =>
    rw [List.map_cons, partOf]
    split
    · rename_i hcontrol
      rw [joinParts?_unit (by omega), ih, Option.map_some, Char.ofNat_toNat]
    · rw [joinParts?, ih]
      rfl

/-- **A string is read back**, its opening quote taken. -/
theorem readText?_escaped (text rest : List Char) :
    readText? (text.flatMap escapeChar ++ '"' :: rest)
      = some (.text (String.ofList text), rest) := by
  have hparts : readParts? (text.flatMap escapeChar ++ '"' :: rest)
      = some (text.map partOf, rest) := by
    induction text with
    | nil => rfl
    | cons c text ih =>
      rw [List.flatMap_cons, List.append_assoc, readParts?_escapeChar, ih]
      rfl
  rw [readText?, hparts, Option.bind_eq_bind, Option.bind_some]
  dsimp only
  rw [joinParts?_partOf]

/-! ## Numbers -/

/-- The text can follow a value: it is empty, or goes on with what separates or closes. -/
def EndsValue (rest : List Char) : Prop :=
  ∀ c ∈ rest.head?, c = ',' ∨ c = ']' ∨ c = '\x7d'

theorem endsValue_nil : EndsValue [] :=
  nofun

variable {rest : List Char}

theorem takeDigits_append (hrest : EndsValue rest) (cs : List Char) :
    takeDigits (cs ++ rest) = ((takeDigits cs).1, (takeDigits cs).2 ++ rest) := by
  have hstops : rest.takeWhile Char.isDigit = [] ∧ rest.dropWhile Char.isDigit = rest := by
    cases rest with
    | nil => exact ⟨rfl, rfl⟩
    | cons c rest => rcases hrest c rfl with rfl | rfl | rfl <;> exact ⟨rfl, rfl⟩
  have happend : (cs ++ rest).takeWhile Char.isDigit = cs.takeWhile Char.isDigit
      ∧ (cs ++ rest).dropWhile Char.isDigit = cs.dropWhile Char.isDigit ++ rest := by
    induction cs with
    | nil => simp [hstops]
    | cons c cs ih => cases hdigit : c.isDigit <;> simp [hdigit, ih]
  rw [takeDigits, takeDigits, happend.1, happend.2]

theorem readDigits?_append (hrest : EndsValue rest) (cs : List Char) :
    readDigits? (cs ++ rest) = (readDigits? cs).map fun read => (read.1, read.2 ++ rest) := by
  rw [readDigits?, readDigits?, takeDigits_append hrest]
  rcases takeDigits cs with ⟨_ | _, _⟩ <;> rfl

theorem readFraction?_append (hrest : EndsValue rest) (cs : List Char) :
    readFraction? (cs ++ rest) = (readFraction? cs).map fun read => (read.1, read.2 ++ rest) := by
  cases cs with
  | nil =>
    cases rest with
    | nil => rfl
    | cons c rest => rcases hrest c rfl with rfl | rfl | rfl <;> rfl
  | cons c cs =>
    by_cases hpoint : c = '.'
    · subst hpoint
      rw [List.cons_append, readFraction?, readFraction?, readDigits?_append hrest]
      cases readDigits? cs <;> rfl
    · rw [List.cons_append, readFraction?, readFraction?]
      · rfl
      all_goals simp [hpoint]

/-- Whether the sign of an exponent is negative, and what follows it. -/
def exponentSign (cs : List Char) : Bool × List Char :=
  match cs with
  | '-' :: rest => (true, rest)
  | '+' :: rest => (false, rest)
  | rest => (false, rest)

theorem exponentSign_append (hrest : EndsValue rest) (cs : List Char) :
    exponentSign (cs ++ rest) = ((exponentSign cs).1, (exponentSign cs).2 ++ rest) := by
  cases cs with
  | nil =>
    cases rest with
    | nil => rfl
    | cons c rest => rcases hrest c rfl with rfl | rfl | rfl <;> rfl
  | cons c cs =>
    by_cases hminus : c = '-'
    · subst hminus
      rfl
    by_cases hplus : c = '+'
    · subst hplus
      rfl
    rw [List.cons_append, exponentSign, exponentSign]
    · rfl
    all_goals simp [hminus, hplus]

theorem readExponent?_cons (c : Char) (cs : List Char) :
    readExponent? (c :: cs) = if c = 'e' || c = 'E' then
        (readDigits? (exponentSign cs).2).map fun read =>
          (some ((exponentSign cs).1, read.1), read.2)
      else some (none, c :: cs) := by
  rw [readExponent?.eq_def]
  dsimp only
  split
  · split
    · rfl
    · rfl
    · rename_i hminus hplus
      rw [exponentSign]
      · exact hminus
      · exact hplus
  · rfl

theorem readExponent?_append (hrest : EndsValue rest) (cs : List Char) :
    readExponent? (cs ++ rest) = (readExponent? cs).map fun read => (read.1, read.2 ++ rest) := by
  cases cs with
  | nil =>
    cases rest with
    | nil => rfl
    | cons c rest => rcases hrest c rfl with rfl | rfl | rfl <;> rfl
  | cons c cs =>
    rw [List.cons_append, readExponent?_cons, readExponent?_cons, exponentSign_append hrest,
      readDigits?_append hrest]
    split
    · cases readDigits? (exponentSign cs).2 <;> rfl
    · rfl

/-- A number without its sign. -/
def readMagnitude? (isNegative : Bool) (cs : List Char) : Option (Tree × List Char) := do
  let (whole, cs) ← readDigits? cs
  if whole.head? == some 0 && whole.length != 1 then none
  let (fraction, cs) ← readFraction? cs
  let (exponent, cs) ← readExponent? cs
  match Number.ofLiteral? { isNegative, whole, fraction, exponent } with
  | some value => some (.number value, cs)
  | none => some (.unreadable, cs)

theorem readMagnitude?_append (hrest : EndsValue rest) (isNegative : Bool) (cs : List Char) :
    readMagnitude? isNegative (cs ++ rest)
      = (readMagnitude? isNegative cs).map fun read => (read.1, read.2 ++ rest) := by
  rw [readMagnitude?, readMagnitude?, readDigits?_append hrest]
  rcases readDigits? cs with _ | ⟨whole, cs⟩
  · rfl
  simp only [Option.map_some, Option.bind_eq_bind, Option.bind_some]
  split
  · rfl
  rw [readFraction?_append hrest]
  rcases readFraction? cs with _ | ⟨fraction, cs⟩
  · rfl
  simp only [Option.map_some, Option.bind_some]
  rw [readExponent?_append hrest]
  rcases readExponent? cs with _ | ⟨exponent, cs⟩
  · rfl
  simp only [Option.map_some, Option.bind_some]
  split <;> rfl

theorem readNumber?_cons {c : Char} (h : c ≠ '-') (cs : List Char) :
    readNumber? (c :: cs) = readMagnitude? false (c :: cs) := by
  rw [readNumber?.eq_def]
  split
  rename_i hsign
  obtain ⟨rfl, rfl⟩ : _ = false ∧ _ = c :: cs := by simpa [h, eq_comm] using hsign
  rfl

/-- **How a number is read does not depend on what follows it.** -/
theorem readNumber?_append (hrest : EndsValue rest) (cs : List Char) :
    readNumber? (cs ++ rest) = (readNumber? cs).map fun read => (read.1, read.2 ++ rest) := by
  cases cs with
  | nil =>
    cases rest with
    | nil => rfl
    | cons c rest => rcases hrest c rfl with rfl | rfl | rfl <;> rfl
  | cons c cs =>
    by_cases hminus : c = '-'
    · subst hminus
      exact readMagnitude?_append hrest true cs
    · rw [List.cons_append, readNumber?_cons hminus, readNumber?_cons hminus]
      exact readMagnitude?_append hrest false (c :: cs)

end Json

/-! ## Integers -/

/-- The number is read from its text. -/
def Number.IsReadBack (number : Number) : Prop :=
  Json.readNumber? number.text.toList = some (.number number, [])

namespace Number

variable {number : Number}

/-- A number that is read back is read from its text, whatever follows. -/
theorem IsReadBack.readNumber? (h : number.IsReadBack) {rest : List Char}
    (hrest : Json.EndsValue rest) :
    Json.readNumber? (number.text.toList ++ rest) = some (.number number, rest) := by
  rw [Json.readNumber?_append hrest, h]
  rfl

/-- The text of a number that is read back begins with a sign or a digit. -/
theorem IsReadBack.exists_cons (h : number.IsReadBack) :
    ∃ c cs, number.text.toList = c :: cs ∧ (c = '-' ∨ c.isDigit = true) := by
  rw [IsReadBack] at h
  generalize number.text.toList = text at h
  cases text with
  | nil => cases h
  | cons c cs =>
    refine ⟨c, cs, rfl, ?_⟩
    by_contra hneither
    rw [not_or, Bool.not_eq_true] at hneither
    have hdigits : Json.readDigits? (c :: cs) = none := by
      rw [Json.readDigits?, Json.takeDigits, List.takeWhile_cons_of_neg (by simp [hneither.2])]
      rfl
    rw [Json.readNumber?_cons hneither.1, Json.readMagnitude?, hdigits] at h
    cases h

/-- The digits of a natural number denote it. -/
theorem natural_toDigits (n : Nat) :
    DecimalLiteral.natural ((Nat.toDigits 10 n).map fun c => c.toNat - '0'.toNat) = n := by
  rw [DecimalLiteral.natural, List.foldl_map]
  simp only [Nat.mul_comm _ 10]
  exact Nat.ofDigitChars_ten_toDigits

/-- The digits of a natural number begin with zero for zero only. -/
theorem head?_toDigits_ne {n : Nat} (h : 0 < n) :
    ((Nat.toDigits 10 n).map fun c => c.toNat - '0'.toNat).head? ≠ some 0 := by
  induction n using Nat.strongRecOn with
  | _ n ih =>
    by_cases hlt : n < 10
    · have hall : ∀ n < 10, 0 < n →
          ((Nat.toDigits 10 n).map fun c => c.toNat - '0'.toNat).head? ≠ some 0 := by decide
      exact hall n hlt h
    · have hne : (Nat.toDigits 10 (n / 10)).map (fun c => c.toNat - '0'.toNat) ≠ [] := by
        simp [Nat.toDigits_ne_nil]
      rw [Nat.toDigits_of_base_le (by omega) (by omega), List.map_append,
        List.head?_append_of_ne_nil _ hne]
      exact ih (n / 10) (by omega) (by omega)

/-- The digits of a natural number are read as its digits. -/
theorem readDigits?_toDigits (n : Nat) : Json.readDigits? (Nat.toDigits 10 n)
    = some ((Nat.toDigits 10 n).map fun c => c.toNat - '0'.toNat, []) := by
  have hdigit : ∀ c ∈ Nat.toDigits 10 n, c.isDigit = true :=
    fun c => Nat.isDigit_of_mem_toDigits (by omega) (by omega)
  rw [Json.readDigits?, Json.takeDigits, List.takeWhile_eq_self_iff.mpr hdigit,
    List.dropWhile_eq_nil_iff.mpr hdigit]
  split
  · rename_i heq
    simp [Nat.toDigits_ne_nil] at heq
  · rfl

/-- The digits of a natural number do not begin with a sign. -/
theorem exists_cons_toDigits (n : Nat) : ∃ c cs, Nat.toDigits 10 n = c :: cs ∧ c ≠ '-' := by
  cases hdigits : Nat.toDigits 10 n with
  | nil => exact absurd hdigits Nat.toDigits_ne_nil
  | cons c cs =>
    refine ⟨c, cs, rfl, ?_⟩
    rintro rfl
    have hdigit := Nat.isDigit_of_mem_toDigits (by omega) (by omega)
      (hdigits ▸ List.mem_cons_self : '-' ∈ Nat.toDigits 10 n)
    cases hdigit

/-- A natural number is read from its digits, after a sign or without one. -/
theorem readMagnitude?_toDigits (isNegative : Bool) (n : Nat)
    (hzero : ¬ (isNegative = true ∧ n = 0))
    (hbound : n < if isNegative then signedBound + 1 else unsignedBound) :
    Json.readMagnitude? isNegative (Nat.toDigits 10 n)
      = some (.number (.integer (if isNegative then -(n : Int) else n)), []) := by
  have hleading : (((Nat.toDigits 10 n).map fun c => c.toNat - '0'.toNat).head? == some 0
      && ((Nat.toDigits 10 n).map fun c => c.toNat - '0'.toNat).length != 1) = false := by
    rcases Nat.eq_zero_or_pos n with rfl | hpos
    · rfl
    · rw [Bool.and_eq_false_iff]
      exact .inl (by simpa using head?_toDigits_ne hpos)
  have hliteral : ofLiteral?
      { isNegative, whole := (Nat.toDigits 10 n).map fun c => c.toNat - '0'.toNat }
        = some (.integer (if isNegative then -(n : Int) else n)) := by
    rw [ofLiteral?, natural_toDigits]
    have hnot : (isNegative && n == 0) = false := by
      rw [Bool.and_eq_false_imp]
      exact fun hnegative => by simpa [hnegative] using hzero
    exact if_pos (by simp [hbound, hnot])
  rw [Json.readMagnitude?, readDigits?_toDigits, Option.bind_eq_bind, Option.bind_some]
  simp only [hleading]
  show (match ofLiteral? _ with | some value => _ | none => _) = _
  rw [hliteral]

/-- **Integers of 64 bits are read back.** -/
theorem isReadBack_integer {value : Int} (h : (integer value).HoldsInteger) :
    (integer value).IsReadBack := by
  obtain ⟨hlow, hhigh⟩ := h
  rw [IsReadBack, text, Int.toString_eq_repr, Int.repr_eq_if]
  split
  · rename_i hpos
    obtain ⟨n, rfl⟩ := Int.eq_ofNat_of_zero_le hpos
    rw [Int.toNat_natCast, Nat.toList_repr]
    have hread := readMagnitude?_toDigits false n nofun (by simpa using hhigh)
    obtain ⟨c, cs, hdigits, hc⟩ := exists_cons_toDigits n
    rw [hdigits, Json.readNumber?_cons hc, ← hdigits]
    exact hread
  · rename_i hneg
    obtain ⟨n, hn⟩ := Int.eq_ofNat_of_zero_le (show 0 ≤ -value by omega)
    obtain rfl : value = -(n : Int) := by omega
    rw [String.toList_append, Int.neg_neg, Int.toNat_natCast, Nat.toList_repr]
    exact readMagnitude?_toDigits true n (by omega) (by simp; omega)

end Number

end PojoGraph
