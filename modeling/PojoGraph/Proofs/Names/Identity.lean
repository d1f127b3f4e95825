import PojoGraph.Proofs.Names.Ascii

/-!
# What identifies a key

The type identifier of an ASCII key changes the case of the key's characters and nothing else if
the key is an identifier, and otherwise keeps its letters and digits, in order. Whether a key is
an identifier does not depend on case. So keys that differ in case have type identifiers that do,
and the type identifier of a type identifier differs from it in case at most. In front of any
suffix, such keys make names of one type.

## Main definitions

* `keptOf` — the characters of a key that are left in its type identifier.

## Main statements

* `map_toLower_typeIdentifier` — a type identifier is what is left of the key, up to case.
* `PojoName.key_eq_of_map_toLower` — names of keys that differ in case are the same.
* `typeIdentifier_keeps_identity` — a key and its type identifier name the same type.
-/

namespace PojoGraph

namespace Text

/-! ## Case -/

theorem toLower_toLower {c : Char} (h : isAscii c) : c.toLower.toLower = c.toLower :=
  forall_isAscii (p := fun c => c.toLower.toLower = c.toLower) (by decide) h

theorem toLower_toUpper {c : Char} (h : isAscii c) : c.toUpper.toLower = c.toLower :=
  forall_isAscii (p := fun c => c.toUpper.toLower = c.toLower) (by decide) h

theorem map_toLower_toLower {cs : List Char} (h : ∀ c ∈ cs, isAscii c) :
    (cs.map Char.toLower).map Char.toLower = cs.map Char.toLower := by
  rw [List.map_map]
  exact List.map_congr_left fun c hc => toLower_toLower (h c hc)

/-- The character classes do not tell the two characters apart, other than by case. -/
structure LooksAlike (c d : Char) : Prop where
  isAlphanumeric : isAlphanumeric c = isAlphanumeric d
  isDigit : c.isDigit = d.isDigit
  isUnderscore : (c == '_') = (d == '_')
  isCased : isCased c = isCased d
  isCaseIgnorable : isCaseIgnorable c = isCaseIgnorable d

/-- The classes do not tell the cases of an ASCII letter apart. -/
theorem looksAlike_toLower {c : Char} (h : isAscii c) : LooksAlike c.toLower c := by
  have hall : ∀ n < 128, isAlphanumeric (Char.ofNat n).toLower = isAlphanumeric (Char.ofNat n)
      ∧ (Char.ofNat n).toLower.isDigit = (Char.ofNat n).isDigit
      ∧ ((Char.ofNat n).toLower == '_') = (Char.ofNat n == '_')
      ∧ isCased (Char.ofNat n).toLower = isCased (Char.ofNat n)
      ∧ isCaseIgnorable (Char.ofNat n).toLower = isCaseIgnorable (Char.ofNat n) := by
    decide +kernel
  obtain ⟨halnum, hdigit, hunderscore, hcased, hignorable⟩ := forall_isAscii
    (p := fun c => isAlphanumeric c.toLower = isAlphanumeric c ∧ c.toLower.isDigit = c.isDigit
      ∧ (c.toLower == '_') = (c == '_') ∧ isCased c.toLower = isCased c
      ∧ isCaseIgnorable c.toLower = isCaseIgnorable c) hall h
  exact ⟨halnum, hdigit, hunderscore, hcased, hignorable⟩

/-- The rule for a final sigma does not see the case of what it looks through. -/
theorem meetsCased_map_toLower {cs : List Char} (h : ∀ c ∈ cs, isAscii c) :
    meetsCased (cs.map Char.toLower) = meetsCased cs := by
  induction cs with
  | nil => rfl
  | cons c cs ih =>
    have hc := looksAlike_toLower (h c List.mem_cons_self)
    have ih := ih fun d hd => h d (List.mem_cons_of_mem _ hd)
    cases hignorable : isCaseIgnorable c with
    | true => simpa [meetsCased, hc.isCaseIgnorable, hignorable] using ih
    | false => simp [meetsCased, hc.isCaseIgnorable, hignorable, hc.isCased]

theorem lowerFrom_append_of_isAscii {seen cs : List Char} (h : ∀ c ∈ cs, isAscii c)
    (tail : List Char) :
    lowerFrom seen (cs ++ tail) = cs.map Char.toLower ++ lowerFrom (cs.reverse ++ seen) tail := by
  induction cs generalizing seen with
  | nil => rfl
  | cons c cs ih =>
    have hc : isAscii c := h c List.mem_cons_self
    rw [List.cons_append, lowerFrom, ne_sigma_of_isAscii hc, lowerChar_of_isAscii hc,
      ih fun d hd => h d (List.mem_cons_of_mem _ hd)]
    simp

/-- **ASCII texts that differ in case are lower-cased alike, whatever follows them.** -/
theorem lower_append_congr {a b : String} (ha : IsAscii a) (hb : IsAscii b)
    (h : a.toList.map Char.toLower = b.toList.map Char.toLower) (suffix : String) :
    lower (a ++ suffix) = lower (b ++ suffix) := by
  have hmeets : meetsCased a.toList.reverse = meetsCased b.toList.reverse := by
    rw [← meetsCased_map_toLower fun c hc => ha c (List.mem_reverse.mp hc),
      ← meetsCased_map_toLower fun c hc => hb c (List.mem_reverse.mp hc),
      List.map_reverse, List.map_reverse, h]
  have htail : lowerFrom a.toList.reverse suffix.toList = lowerFrom b.toList.reverse suffix.toList :=
    lowerFrom_congr hmeets suffix.toList
  rw [lower, lower, String.toList_append, String.toList_append, lowerFrom_append_of_isAscii ha,
    lowerFrom_append_of_isAscii hb, h, List.append_nil, List.append_nil, htail]

/-! ## Words -/

theorem map_toLower_capitalize {cs : List Char} (h : ∀ c ∈ cs, isAscii c) :
    (capitalize cs).map Char.toLower = cs.map Char.toLower := by
  cases cs with
  | nil => rfl
  | cons c cs =>
    have hc : isAscii c := h c List.mem_cons_self
    have hcs : ∀ d ∈ cs, isAscii d := fun d hd => h d (List.mem_cons_of_mem _ hd)
    rw [capitalize, upperChar_of_isAscii hc, lowerWord_of_isAscii hcs, List.map_append,
      map_toLower_toLower hcs]
    simp [toLower_toUpper hc]

/-- **The identifier of an ASCII text is made of its letters and digits**, up to case. -/
theorem map_toLower_pascalCase {cs : List Char} (h : ∀ c ∈ cs, isAscii c) :
    (pascalCase cs).map Char.toLower = (cs.filter isAlphanumeric).map Char.toLower := by
  have hwords : ∀ word ∈ words cs,
      (capitalize word).map Char.toLower = word.map Char.toLower :=
    fun word hword => map_toLower_capitalize fun c hc => h c (mem_of_mem_words hword hc)
  rw [pascalCase, ← flatten_words, List.map_flatMap, List.map_flatten, ← List.flatMap_def]
  exact List.flatMap_congr hwords

end Text

/-! ## Keys -/

open Text

theorem filter_joinStretches (gap started : Bool) (cs : List Char) :
    (joinStretches gap started cs).filter isAlphanumeric = cs.filter isAlphanumeric := by
  have hunderscore : isAlphanumeric '_' = false := by decide
  induction cs generalizing gap started with
  | nil => rfl
  | cons c cs ih =>
    cases hc : isAlphanumeric c with
    | false => simp [joinStretches, hc, ih]
    | true => cases gap <;> cases started <;> simp [joinStretches, hc, ih, hunderscore]

theorem joinStretches_eq_nil_iff {gap started : Bool} {cs : List Char} :
    joinStretches gap started cs = [] ↔ cs.filter isAlphanumeric = [] := by
  induction cs generalizing gap started with
  | nil => simp [joinStretches]
  | cons c cs ih =>
    cases hc : isAlphanumeric c with
    | false => simpa [joinStretches, hc] using ih
    | true => cases gap <;> cases started <;> simp [joinStretches, hc]

/-- The letters and numbers of a text. A text without any is called `unnamed`. -/
def lettersOf (cs : List Char) : List Char :=
  match cs.filter isAlphanumeric with
  | [] => "unnamed".toList
  | letters => letters

/-- The characters of a key that are left in its type identifier: all of them if the key is an
identifier, else its letters and numbers. -/
def keptOf (cs : List Char) : List Char :=
  if isPlainIdentifier cs then cs else lettersOf cs

theorem lettersOf_of_filter {cs : List Char} (h : cs.filter isAlphanumeric ≠ []) :
    lettersOf cs = cs.filter isAlphanumeric := by
  unfold lettersOf
  split
  · rename_i hnil
    exact absurd hnil h
  · rfl

theorem lettersOf_of_filter_eq_nil {cs : List Char} (h : cs.filter isAlphanumeric = []) :
    lettersOf cs = "unnamed".toList := by
  rw [lettersOf, h]

theorem filter_sanitize (cs : List Char) : (sanitize cs).filter isAlphanumeric = lettersOf cs := by
  have hunderscore : isAlphanumeric '_' = false := by decide
  have hlead : ∀ isLed : Bool,
      ((if isLed then ['_'] else []) ++ joinStretches false false cs).filter isAlphanumeric
        = cs.filter isAlphanumeric := by
    intro isLed
    cases isLed <;> simp [filter_joinStretches, hunderscore]
  by_cases hnone : cs.filter isAlphanumeric = []
  · have hdigit : (cs.head?.any Char.isDigit) = false := by
      cases cs with
      | nil => rfl
      | cons c cs =>
        have hc : isAlphanumeric c = false := by
          simpa using (List.filter_eq_nil_iff.mp hnone) c List.mem_cons_self
        rw [List.head?_cons, Option.any_some, ← Bool.not_eq_true]
        intro hdigit
        rw [(isCaseless_of_isDigit hdigit).isAlphanumeric] at hc
        cases hc
    rw [lettersOf_of_filter_eq_nil hnone, sanitize, hdigit, joinStretches_eq_nil_iff.mpr hnone]
    decide
  · rw [lettersOf_of_filter hnone, sanitize]
    split
    · rename_i hempty
      have hjoined := (List.append_eq_nil_iff.mp hempty).2
      exact absurd (joinStretches_eq_nil_iff.mp hjoined) hnone
    · exact hlead _

/-- **The type identifier of an ASCII key is what is left of the key**, up to case. -/
theorem map_toLower_typeIdentifier {key : String} (h : IsAscii key) :
    (typeIdentifier key).toList.map Char.toLower = (keptOf key.toList).map Char.toLower := by
  rw [typeIdentifier, keptOf]
  split
  · cases hkey : key.toList with
    | nil => simp [upperFirst, hkey]
    | cons c cs =>
      have hc : isAscii c := h c (hkey ▸ List.mem_cons_self)
      simp [upperFirst, hkey, upperChar_of_isAscii hc, toLower_toUpper hc]
  · have hsanitized : ∀ c ∈ sanitize key.toList, isAscii c :=
      fun c hc => isAscii_of_isWordChar (isWordChar_sanitize h c hc)
    rw [String.toList_ofList, map_toLower_pascalCase hsanitized, filter_sanitize]

theorem isAlphanumeric_of_mem_lettersOf {cs : List Char} :
    ∀ c ∈ lettersOf cs, isAlphanumeric c := by
  by_cases hnone : cs.filter isAlphanumeric = []
  · rw [lettersOf_of_filter_eq_nil hnone]
    exact List.all_eq_true.mp rfl
  · rw [lettersOf_of_filter hnone]
    exact fun c hc => (List.mem_filter.mp hc).2

theorem lettersOf_ne_nil (cs : List Char) : lettersOf cs ≠ [] := by
  by_cases hnone : cs.filter isAlphanumeric = []
  · rw [lettersOf_of_filter_eq_nil hnone]
    decide
  · rwa [lettersOf_of_filter hnone]

theorem keptOf_ne_nil (cs : List Char) : keptOf cs ≠ [] := by
  unfold keptOf
  split
  · rename_i hplain
    rintro rfl
    cases hplain
  · exact lettersOf_ne_nil cs

/-- Of what is left, all is left. -/
theorem keptOf_keptOf (cs : List Char) : keptOf (keptOf cs) = keptOf cs := by
  have hletters : lettersOf (lettersOf cs) = lettersOf cs := by
    have hall : (lettersOf cs).filter isAlphanumeric = lettersOf cs :=
      List.filter_eq_self.mpr isAlphanumeric_of_mem_lettersOf
    rw [lettersOf_of_filter (hall.symm ▸ lettersOf_ne_nil cs), hall]
  rw [keptOf]
  split
  · rfl
  · rename_i hplain
    cases hcs : isPlainIdentifier cs with
    | true => rw [keptOf, hcs, if_pos rfl] at hplain; exact absurd hcs hplain
    | false => rw [keptOf, hcs, if_neg Bool.false_ne_true, hletters]

/-- What is left of a key does not depend on the case of the key. -/
theorem keptOf_map_toLower {cs : List Char} (h : ∀ c ∈ cs, isAscii c) :
    keptOf (cs.map Char.toLower) = (keptOf cs).map Char.toLower := by
  have hlooks : ∀ c ∈ cs, LooksAlike c.toLower c := fun c hc => looksAlike_toLower (h c hc)
  have hplain : isPlainIdentifier (cs.map Char.toLower) = isPlainIdentifier cs := by
    cases cs with
    | nil => rfl
    | cons c cs =>
      have hall : ((c :: cs).map Char.toLower).all (fun d => isAlphanumeric d || d == '_')
          = (c :: cs).all fun d => isAlphanumeric d || d == '_' := by
        rw [List.all_map, Bool.eq_iff_iff, List.all_eq_true, List.all_eq_true]
        refine forall₂_congr fun d hd => ?_
        rw [Function.comp_apply, (hlooks d hd).isAlphanumeric, (hlooks d hd).isUnderscore]
      exact congrArg₂ and (congrArg not (hlooks c List.mem_cons_self).isDigit) hall
  have hfilter : (cs.map Char.toLower).filter isAlphanumeric
      = (cs.filter isAlphanumeric).map Char.toLower := by
    rw [List.filter_map]
    exact congrArg _ (List.filter_congr fun c hc => (hlooks c hc).isAlphanumeric)
  have hletters : lettersOf (cs.map Char.toLower) = (lettersOf cs).map Char.toLower := by
    by_cases hnone : cs.filter isAlphanumeric = []
    · rw [lettersOf_of_filter_eq_nil hnone, lettersOf_of_filter_eq_nil (by rw [hfilter, hnone]; rfl)]
      decide
    · rw [lettersOf_of_filter hnone, lettersOf_of_filter (by simpa [hfilter] using hnone), hfilter]
  rw [keptOf, keptOf, hplain, hletters]
  split <;> rfl

/-- **Keys that differ in case have type identifiers that differ in case.** -/
theorem map_toLower_typeIdentifier_congr {a b : String} (ha : IsAscii a) (hb : IsAscii b)
    (h : a.toList.map Char.toLower = b.toList.map Char.toLower) :
    (typeIdentifier a).toList.map Char.toLower = (typeIdentifier b).toList.map Char.toLower := by
  rw [map_toLower_typeIdentifier ha, map_toLower_typeIdentifier hb, ← keptOf_map_toLower ha,
    ← keptOf_map_toLower hb, h]

theorem isAscii_keptOf {cs : List Char} (h : ∀ c ∈ cs, isAscii c) : ∀ c ∈ keptOf cs, isAscii c := by
  unfold keptOf
  split
  · exact h
  · by_cases hnone : cs.filter isAlphanumeric = []
    · rw [lettersOf_of_filter_eq_nil hnone]
      exact List.all_eq_true.mp rfl
    · rw [lettersOf_of_filter hnone]
      exact fun c hc => h c (List.mem_filter.mp hc).1

/-- **The type identifier of a type identifier differs from it in case at most.** -/
theorem map_toLower_typeIdentifier_typeIdentifier {key : String} (h : IsAscii key) :
    (typeIdentifier (typeIdentifier key)).toList.map Char.toLower
      = (typeIdentifier key).toList.map Char.toLower := by
  have hidentifier := isAscii_typeIdentifier h
  have hkept := isAscii_keptOf h
  calc (typeIdentifier (typeIdentifier key)).toList.map Char.toLower
      = keptOf ((typeIdentifier key).toList.map Char.toLower) := by
        rw [map_toLower_typeIdentifier hidentifier, keptOf_map_toLower hidentifier]
    _ = keptOf ((keptOf key.toList).map Char.toLower) := by rw [map_toLower_typeIdentifier h]
    _ = (keptOf key.toList).map Char.toLower := by rw [keptOf_map_toLower hkept, keptOf_keptOf]
    _ = (typeIdentifier key).toList.map Char.toLower := (map_toLower_typeIdentifier h).symm

theorem typeIdentifier_ne_empty {key : String} (h : IsAscii key) : typeIdentifier key ≠ "" := by
  intro hempty
  have hkept := map_toLower_typeIdentifier h
  rw [hempty] at hkept
  exact keptOf_ne_nil key.toList (List.map_eq_nil_iff.mp hkept.symm)

/-! ## Names -/

/-- **ASCII keys that differ in case name the same type**, under any suffix. -/
theorem PojoName.key_eq_of_map_toLower {a b : String} (ha : IsAscii a) (hb : IsAscii b)
    (h : a.toList.map Char.toLower = b.toList.map Char.toLower) (suffix : String) :
    (PojoName.mk a suffix).key = (PojoName.mk b suffix).key :=
  lower_append_congr (isAscii_typeIdentifier ha) (isAscii_typeIdentifier hb)
    (map_toLower_typeIdentifier_congr ha hb h) suffix

/-- **A key and its type identifier name the same type.** The type identifier of an ASCII key is
not empty, and is made of ASCII letters, digits and underscores. Under any suffix, the name made of
it has the key of the name made of the key itself, and so have the names derived from the two. -/
theorem typeIdentifier_keeps_identity {key : String} (h : IsAscii key) (suffix : String) :
    typeIdentifier key ≠ ""
      ∧ (∀ c ∈ (typeIdentifier key).toList, isWordChar c)
      ∧ (PojoName.mk (typeIdentifier key) suffix).key = (PojoName.mk key suffix).key
      ∧ ∀ tail, IsAscii tail →
        ((PojoName.mk (typeIdentifier key) suffix).append tail).key
          = ((PojoName.mk key suffix).append tail).key := by
  have hidentifier := isAscii_typeIdentifier h
  have hagain := isAscii_typeIdentifier hidentifier
  have hcase := map_toLower_typeIdentifier_typeIdentifier h
  refine ⟨typeIdentifier_ne_empty h, isWordChar_typeIdentifier h,
    lower_append_congr hagain hidentifier hcase suffix, fun tail htail => ?_⟩
  have htails : (typeIdentifier (typeIdentifier key) ++ tail).toList.map Char.toLower
      = (typeIdentifier key ++ tail).toList.map Char.toLower := by
    rw [String.toList_append, String.toList_append, List.map_append, List.map_append, hcase]
  exact PojoName.key_eq_of_map_toLower (hagain.append htail) (hidentifier.append htail) htails suffix

/-- The type identifier of `1a-b-c` is `1aBC`, and that of `1aBC` is `1aBc`. -/
theorem typeIdentifier_keeps_identity_1aBC : IsAscii "1a-b-c" ∧ IsAscii "Owner"
    ∧ typeIdentifier "1a-b-c" = "1aBC" ∧ typeIdentifier "1aBC" = "1aBc"
    ∧ (PojoName.mk "1aBC" "Dto").key = (PojoName.mk "1a-b-c" "Dto").key
    ∧ ((PojoName.mk "1aBC" "Dto").append "Owner").key
      = ((PojoName.mk "1a-b-c" "Dto").append "Owner").key := by
  have hkey : IsAscii "1a-b-c" := by decide
  have htail : IsAscii "Owner" := by decide
  have hidentifier : typeIdentifier "1a-b-c" = "1aBC" := by decide +kernel
  obtain ⟨-, -, hsame, hderived⟩ := typeIdentifier_keeps_identity hkey "Dto"
  rw [hidentifier] at hsame hderived
  exact ⟨hkey, htail, hidentifier, by decide +kernel, hsame, hderived "Owner" htail⟩

end PojoGraph
