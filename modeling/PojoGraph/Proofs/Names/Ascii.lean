import PojoGraph.Proofs.Names.Numbering

/-!
# ASCII names

Case mapping looks at the characters around a letter, but not in ASCII: an ASCII text is mapped
character by character. So the key of an ASCII name is made of the key of its schema key and of
that of its suffix, and a type identifier has letters, digits and underscores only.

## Main definitions

* `Text.IsAscii`, `Text.isWordChar` — ASCII texts, and the characters of ASCII identifiers.
* `PojoName.withSuffix` — a name with another suffix.
* `PojoName.IsUnsuffixed` — an ASCII schema key without a suffix.

## Main statements

* `flatten_words` — the words of a text are its letters and numbers.
* `isWordChar_typeIdentifier` — what the type identifier of an ASCII key is made of.
* `lower_append` — ASCII texts are lower-cased part by part.
* `PojoName.key_withSuffix` — a suffix comes last in the key of a name.
-/

namespace PojoGraph

namespace Text

/-! ## Characters -/

/-- All characters of the text are ASCII. -/
def IsAscii (text : String) : Prop :=
  ∀ c ∈ text.toList, isAscii c

instance (text : String) : Decidable (IsAscii text) :=
  decidable_of_iff (text.toList.all isAscii = true) List.all_eq_true

/-- ASCII letters, digits and the underscore. -/
def isWordChar (c : Char) : Bool :=
  isAscii c && (c.isAlphanum || c == '_')

/-- What holds of the first 128 characters holds of each ASCII character. -/
theorem forall_isAscii {p : Char → Prop} (h : ∀ n < 128, p (Char.ofNat n)) {c : Char}
    (hc : isAscii c) : p c := by
  have hlt : c.toNat < 128 := by simpa [isAscii] using hc
  have hsame := h c.toNat hlt
  rwa [Char.ofNat_toNat] at hsame

theorem isAscii_of_isWordChar {c : Char} (h : isWordChar c) : isAscii c := by
  simp only [isWordChar, Bool.and_eq_true] at h
  exact h.1

theorem ne_sigma_of_isAscii {c : Char} (h : isAscii c) : (c == 'Σ') = false := by
  rw [beq_eq_false_iff_ne]
  rintro rfl
  exact absurd h (by decide)

theorem ne_slash_of_isWordChar {c : Char} (h : isWordChar c) : c ≠ '/' := by
  rintro rfl
  exact absurd h (by decide)

theorem isWordChar_toUpper {c : Char} (h : isWordChar c) : isWordChar c.toUpper :=
  forall_isAscii (p := fun c => isWordChar c → isWordChar c.toUpper) (by decide)
    (isAscii_of_isWordChar h) h

theorem isWordChar_toLower {c : Char} (h : isWordChar c) : isWordChar c.toLower :=
  forall_isAscii (p := fun c => isWordChar c → isWordChar c.toLower) (by decide)
    (isAscii_of_isWordChar h) h

theorem isWordChar_of_isAlphanumeric {c : Char} (hc : isAscii c) (h : isAlphanumeric c) :
    isWordChar c := by
  rw [isAlphanumeric_of_isAscii hc] at h
  simp [isWordChar, hc, h]

/-! ## Words -/

theorem flatten_splitOnP {p : Char → Bool} (cs : List Char) :
    (cs.splitOnP p).flatten = cs.filter (!p ·) := by
  induction cs with
  | nil => simp
  | cons c cs ih =>
    obtain ⟨stretch, others, hsplit⟩ :=
      List.exists_cons_of_ne_nil (List.splitOnP_ne_nil p cs)
    rw [hsplit] at ih
    cases hc : p c <;> simp_all [List.splitOnP_cons_eq_if_modifyHead]

/-- Cutting a run into words loses nothing. -/
theorem flatten_cutRun (trend : Trend) (word : List Char) {cs : List Char} (h : cs ≠ []) :
    (cutRun trend word cs).flatten = word.reverse ++ cs := by
  fun_induction cutRun trend word cs with
  | case1 => exact absurd rfl h
  | case2 => simp
  | case3 trend word c d rest hlower ih => simp [ih]
  | case4 trend word c d rest hlower hupper ih => simp [ih]
  | case5 trend word c d rest hlower hupper ih => simp [ih]

/-- **The words of a text are its letters and numbers**, in order. -/
theorem flatten_words (cs : List Char) : (words cs).flatten = cs.filter isAlphanumeric := by
  have hcut : ∀ stretch : List Char, (cutRun .none [] stretch).flatten = stretch := by
    intro stretch
    cases stretch with
    | nil => rfl
    | cons c rest => exact flatten_cutRun .none [] (List.cons_ne_nil c rest)
  have hstretches := flatten_splitOnP (p := (!isAlphanumeric ·)) cs
  simp only [Bool.not_not] at hstretches
  rw [words, ← hstretches, List.flatMap_def, List.flatten_flatten, List.map_map]
  exact congrArg List.flatten ((List.map_congr_left fun stretch _ => hcut stretch).trans
    (List.map_id _))

theorem mem_of_mem_words {cs word : List Char} {c : Char} (hword : word ∈ words cs)
    (hc : c ∈ word) : c ∈ cs := by
  have hmem : c ∈ (words cs).flatten := List.mem_flatten_of_mem hword hc
  rw [flatten_words] at hmem
  exact (List.mem_filter.mp hmem).1

/-- An ASCII word is lower-cased character by character. -/
theorem lowerWord_of_isAscii {cs : List Char} (h : ∀ c ∈ cs, isAscii c) :
    lowerWord cs = cs.map Char.toLower := by
  induction cs with
  | nil => rfl
  | cons first rest ih =>
    have hfirst : isAscii first := h first List.mem_cons_self
    rw [lowerWord, ih fun c hc => h c (List.mem_cons_of_mem _ hc)]
    simp [ne_sigma_of_isAscii hfirst, lowerChar_of_isAscii hfirst]

theorem isWordChar_lowerWord {cs : List Char} (h : ∀ c ∈ cs, isWordChar c) :
    ∀ c ∈ lowerWord cs, isWordChar c := by
  rw [lowerWord_of_isAscii fun c hc => isAscii_of_isWordChar (h c hc)]
  exact List.forall_mem_map.mpr fun c hc => isWordChar_toLower (h c hc)

theorem isWordChar_capitalize {cs : List Char} (h : ∀ c ∈ cs, isWordChar c) :
    ∀ c ∈ capitalize cs, isWordChar c := by
  cases cs with
  | nil => exact fun c hc => (List.not_mem_nil hc).elim
  | cons first rest =>
    have hfirst : isWordChar first := h first List.mem_cons_self
    intro c hc
    simp only [capitalize, upperChar_of_isAscii (isAscii_of_isWordChar hfirst),
      List.singleton_append, List.mem_cons] at hc
    rcases hc with rfl | hc
    · exact isWordChar_toUpper hfirst
    · exact isWordChar_lowerWord (fun d hd => h d (List.mem_cons_of_mem _ hd)) c hc

theorem isWordChar_pascalCase {cs : List Char} (h : ∀ c ∈ cs, isWordChar c) :
    ∀ c ∈ pascalCase cs, isWordChar c := by
  intro c hc
  obtain ⟨word, hword, hc⟩ := List.mem_flatMap.mp hc
  exact isWordChar_capitalize (fun d hd => h d (mem_of_mem_words hword hd)) c hc

/-! ## Lower case -/

/-- **ASCII texts are lower-cased part by part.** -/
theorem lower_append {a b : String} (ha : IsAscii a) (hb : IsAscii b) :
    lower (a ++ b) = lower a ++ lower b := by
  have hboth : ∀ c ∈ a.toList ++ b.toList, isAscii c := by
    intro c hc
    rcases List.mem_append.mp hc with hc | hc
    · exact ha c hc
    · exact hb c hc
  rw [lower, lower, lower, String.toList_append, lowerFrom_of_isAscii hboth,
    lowerFrom_of_isAscii ha, lowerFrom_of_isAscii hb, List.map_append, String.ofList_append]

theorem IsAscii.append {a b : String} (ha : IsAscii a) (hb : IsAscii b) : IsAscii (a ++ b) := by
  intro c hc
  rw [String.toList_append, List.mem_append] at hc
  exact hc.elim (ha c) (hb c)

theorem isAscii_toString (n : Nat) : IsAscii (toString n) := by
  intro c hc
  have hdigit := (isNumeral_toString n).isDigit c hc
  simp only [Char.isDigit, ge_iff_le, Bool.and_eq_true, decide_eq_true_eq,
    UInt32.le_iff_toNat_le] at hdigit
  have hbound : c.toNat ≤ 57 := hdigit.2
  simp only [isAscii, decide_eq_true_eq]
  omega

end Text

/-! ## Identifiers -/

open Text

theorem isWordChar_joinStretches {gap started : Bool} {cs : List Char} (h : ∀ c ∈ cs, isAscii c) :
    ∀ c ∈ joinStretches gap started cs, isWordChar c := by
  induction cs generalizing gap started with
  | nil => exact fun c hc => (List.not_mem_nil hc).elim
  | cons first rest ih =>
    have hrest : ∀ c ∈ rest, isAscii c := fun c hc => h c (List.mem_cons_of_mem _ hc)
    intro c hc
    rw [joinStretches] at hc
    split at hc
    · rename_i halnum
      have hfirst := isWordChar_of_isAlphanumeric (h first List.mem_cons_self) halnum
      rcases List.mem_append.mp hc with hc | hc
      · split at hc
        · rcases List.mem_pair.mp hc with rfl | rfl
          · decide
          · exact hfirst
        · obtain rfl := List.mem_singleton.mp hc
          exact hfirst
      · exact ih hrest c hc
    · exact ih hrest c hc

theorem isWordChar_sanitize {cs : List Char} (h : ∀ c ∈ cs, isAscii c) :
    ∀ c ∈ sanitize cs, isWordChar c := by
  rw [sanitize]
  split
  · exact List.all_eq_true.mp rfl
  · rename_i joined hjoined
    intro c hc
    rcases List.mem_append.mp hc with hc | hc
    · split at hc
      · obtain rfl := List.mem_singleton.mp hc
        decide
      · cases hc
    · exact isWordChar_joinStretches h c hc

/-- **The type identifier of an ASCII key has letters, digits and underscores of ASCII only.** -/
theorem isWordChar_typeIdentifier {key : String} (h : IsAscii key) :
    ∀ c ∈ (typeIdentifier key).toList, isWordChar c := by
  rw [typeIdentifier]
  split
  · rename_i hplain
    cases hkey : key.toList with
    | nil => rw [hkey] at hplain; cases hplain
    | cons first rest =>
      have hall : ∀ c ∈ first :: rest, isWordChar c := by
        rw [hkey, isPlainIdentifier, Bool.and_eq_true, List.all_eq_true] at hplain
        intro c hc
        have hascii : isAscii c := h c (hkey ▸ hc)
        rcases Bool.or_eq_true_iff.mp (hplain.2 c hc) with halnum | hunderscore
        · exact isWordChar_of_isAlphanumeric hascii halnum
        · simp [isWordChar, hascii, hunderscore]
      have hfirst := hall first List.mem_cons_self
      intro c hc
      simp only [upperFirst, hkey, upperChar_of_isAscii (isAscii_of_isWordChar hfirst),
        List.singleton_append, String.toList_ofList, List.mem_cons] at hc
      rcases hc with rfl | hc
      · exact isWordChar_toUpper hfirst
      · exact hall c (List.mem_cons_of_mem _ hc)
  · rw [String.toList_ofList]
    exact isWordChar_pascalCase (isWordChar_sanitize h)

theorem isAscii_typeIdentifier {key : String} (h : IsAscii key) : IsAscii (typeIdentifier key) :=
  fun c hc => isAscii_of_isWordChar (isWordChar_typeIdentifier h c hc)

/-! ## Suffixes -/

namespace PojoName

/-- The name with another suffix. -/
def withSuffix (suffix : String) (name : PojoName) : PojoName :=
  { name with suffix }

/-- The name is an ASCII schema key without a suffix. -/
structure IsUnsuffixed (name : PojoName) : Prop where
  isAscii : IsAscii name.raw
  suffix_eq : name.suffix = ""

variable {name : PojoName} {suffix : String}

/-- **A suffix comes last in the key of a name.** -/
theorem key_withSuffix (h : name.IsUnsuffixed) (hsuffix : IsAscii suffix) :
    (name.withSuffix suffix).key = name.key ++ lower suffix := by
  have hbare : name.key = lower (typeIdentifier name.raw) := by
    rw [key, text, h.suffix_eq, String.append_empty]
  rw [hbare]
  exact lower_append (isAscii_typeIdentifier h.isAscii) hsuffix

theorem append_lower_injective (suffix : String) :
    Function.Injective fun key : String => key ++ lower suffix := by
  intro a b h
  have hlists := congrArg String.toList h
  simp only [String.toList_append, List.append_cancel_right_eq] at hlists
  exact String.toList_inj.mp hlists

namespace IsUnsuffixed

theorem append (h : name.IsUnsuffixed) {tail : String} (htail : IsAscii tail) :
    (name.append tail).IsUnsuffixed :=
  ⟨(isAscii_typeIdentifier h.isAscii).append htail, h.suffix_eq⟩

theorem ofMember (h : name.IsUnsuffixed) {member : String} (hmember : IsAscii member) :
    (name.ofMember member).IsUnsuffixed :=
  h.append (isAscii_typeIdentifier hmember)

theorem numbered (h : name.IsUnsuffixed) (number : Nat) : (name.numbered number).IsUnsuffixed :=
  ⟨h.isAscii.append (isAscii_toString number), h.suffix_eq⟩

end IsUnsuffixed

end PojoName

end PojoGraph
