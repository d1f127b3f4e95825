import Mathlib.Data.List.Nodup
import PojoGraph.Registry

/-!
# Numbered names

A number at the end of a schema key stays where it is: it is not cut from the last word, its
digits have no case, and they make the text before them look the same to the rule for a final
sigma, whichever number they are. So numbered forms of one name have different keys, and one
of them is free however many names have been taken.

## Main statements

* `PojoName.key_numbered_injective` — no two numbered forms of a name have the same key.
* `Registry.isFree_choose` — the name that is chosen has not been taken.
-/

namespace PojoGraph

namespace Text

/-! ## Digits -/

/-- At least one digit, and nothing else. -/
structure IsNumeral (ds : List Char) : Prop where
  ne_nil : ds ≠ []
  isDigit : ∀ d ∈ ds, d.isDigit

theorem isNumeral_toString (n : Nat) : IsNumeral (toString n).toList := by
  have hdigits : (toString n).toList = Nat.toDigits 10 n := Nat.toList_repr
  rw [hdigits]
  exact ⟨Nat.toDigits_ne_nil, fun d hd => Nat.isDigit_of_mem_toDigits (by omega) (by omega) hd⟩

theorem toString_injective {m n : Nat} (h : (toString m).toList = (toString n).toList) :
    m = n := by
  have hdigits : Nat.toDigits 10 m = Nat.toDigits 10 n := by
    simpa only [Nat.toString_eq_repr, Nat.toList_repr] using h
  have hread := congrArg (fun ds => Nat.ofDigitChars 10 ds 0) hdigits
  simpa only [Nat.ofDigitChars_ten_toDigits] using hread

/-- How the character classes and the case mappings see a digit. -/
structure IsCaseless (d : Char) : Prop where
  isAlphanumeric : isAlphanumeric d = true
  isLowercase : isLowercase d = false
  isUppercase : isUppercase d = false
  isCased : isCased d = false
  isCaseIgnorable : isCaseIgnorable d = false
  upperChar : upperChar d = [d]
  lowerChar : lowerChar d = [d]
  ne_sigma : (d == 'Σ') = false
  ne_underscore : (d == '_') = false

theorem isCaseless_of_isDigit {d : Char} (h : d.isDigit) : IsCaseless d := by
  have hbounds : 48 ≤ d.toNat ∧ d.toNat < 58 := by
    simp only [Char.isDigit, ge_iff_le, Bool.and_eq_true, decide_eq_true_eq,
      UInt32.le_iff_toNat_le] at h
    change 48 ≤ d.val.toNat ∧ d.val.toNat ≤ 57 at h
    change 48 ≤ d.val.toNat ∧ d.val.toNat < 58
    omega
  have hall : ∀ n < 58, 48 ≤ n →
      isAlphanumeric (Char.ofNat n) = true ∧ isLowercase (Char.ofNat n) = false
        ∧ isUppercase (Char.ofNat n) = false ∧ isCased (Char.ofNat n) = false
        ∧ isCaseIgnorable (Char.ofNat n) = false ∧ upperChar (Char.ofNat n) = [Char.ofNat n]
        ∧ lowerChar (Char.ofNat n) = [Char.ofNat n] ∧ (Char.ofNat n == 'Σ') = false
        ∧ (Char.ofNat n == '_') = false := by
    decide +kernel
  have hd := hall d.toNat hbounds.2 hbounds.1
  rw [Char.ofNat_toNat] at hd
  obtain ⟨h₁, h₂, h₃, h₄, h₅, h₆, h₇, h₈, h₉⟩ := hd
  exact ⟨h₁, h₂, h₃, h₄, h₅, h₆, h₇, h₈, h₉⟩

/-- A numeral consists of caseless characters. -/
theorem IsNumeral.isCaseless {ds : List Char} (h : IsNumeral ds) : ∀ d ∈ ds, IsCaseless d :=
  fun d hd => isCaseless_of_isDigit (h.isDigit d hd)

/-! ## Words -/

/-- Stretches of letters and numbers: a numeral at the end stays as it is. -/
theorem joinStretches_append_numeral (gap started : Bool) (cs : List Char) :
    ∃ stem, ∀ ds, IsNumeral ds → joinStretches gap started (cs ++ ds) = stem ++ ds := by
  have hdigits : ∀ (ds : List Char) (started : Bool), (∀ d ∈ ds, IsCaseless d) →
      joinStretches false started ds = ds := by
    intro ds
    induction ds with
    | nil => intro _ _; rfl
    | cons d ds ih =>
      intro started h
      have hd := h d List.mem_cons_self
      simp [joinStretches, hd.isAlphanumeric, ih true fun e he => h e (List.mem_cons_of_mem _ he)]
  induction cs generalizing gap started with
  | nil =>
    refine ⟨if gap && started then ['_'] else [], fun ds hds => ?_⟩
    obtain ⟨d, rest, rfl⟩ := List.exists_cons_of_ne_nil hds.ne_nil
    have hd := hds.isCaseless d List.mem_cons_self
    have hrest := hdigits rest true fun e he => hds.isCaseless e (List.mem_cons_of_mem _ he)
    cases gap <;> cases started <;> simp [joinStretches, hd.isAlphanumeric, hrest]
  | cons c cs ih =>
    by_cases hc : isAlphanumeric c
    · obtain ⟨stem, hstem⟩ := ih false true
      refine ⟨(if gap && started then ['_', c] else [c]) ++ stem, fun ds hds => ?_⟩
      simp [joinStretches, hc, hstem ds hds]
    · obtain ⟨stem, hstem⟩ := ih true started
      exact ⟨stem, fun ds hds => by simp [joinStretches, hc, hstem ds hds]⟩

theorem sanitize_append_numeral (cs : List Char) :
    ∃ stem, ∀ ds, IsNumeral ds → sanitize (cs ++ ds) = stem ++ ds := by
  obtain ⟨stem, hstem⟩ := joinStretches_append_numeral false false cs
  refine ⟨(if cs.head?.all Char.isDigit then ['_'] else []) ++ stem, fun ds hds => ?_⟩
  obtain ⟨d, rest, rfl⟩ := List.exists_cons_of_ne_nil hds.ne_nil
  have hd : d.isDigit := hds.isDigit d List.mem_cons_self
  rw [sanitize]
  rw [hstem _ hds]
  cases cs with
  | nil => cases stem <;> simp [hd]
  | cons c cs => cases stem <;> cases hc : c.isDigit <;> simp [hc]

/-- A numeral at the end of a run of letters and numbers stays in the last word. -/
theorem cutRun_append_numeral (trend : Trend) (word cs : List Char) :
    ∃ before last, ∀ ds, IsNumeral ds →
      cutRun trend word (cs ++ ds) = before ++ [last ++ ds] := by
  have hdigits : ∀ (ds word : List Char) (trend : Trend), ds ≠ [] → (∀ d ∈ ds, IsCaseless d) →
      cutRun trend word ds = [word.reverse ++ ds] := by
    intro ds
    induction ds with
    | nil => intro _ _ h _; exact absurd rfl h
    | cons d ds ih =>
      intro word trend _ h
      have hd := h d List.mem_cons_self
      cases ds with
      | nil => simp [cutRun]
      | cons e ds =>
        have he := h e (List.mem_cons_of_mem _ List.mem_cons_self)
        have hnext : trend.next d = trend := by simp [Trend.next, hd.isLowercase, hd.isUppercase]
        have ih := ih (d :: word) trend (by simp) fun f hf => h f (List.mem_cons_of_mem _ hf)
        rw [cutRun, hnext]
        simp [he.isUppercase, hd.isUppercase, ih]
  induction cs generalizing trend word with
  | nil => exact ⟨[], word.reverse, fun ds hds => hdigits ds word trend hds.ne_nil hds.isCaseless⟩
  | cons c cs ih =>
    cases cs with
    | nil =>
      obtain ⟨before, last, hcut⟩ := ih (trend.next c) (c :: word)
      refine ⟨before, last, fun ds hds => ?_⟩
      have hcut := hcut ds hds
      obtain ⟨d, rest, rfl⟩ := List.exists_cons_of_ne_nil hds.ne_nil
      have hd := hds.isCaseless d List.mem_cons_self
      simp only [List.nil_append, List.cons_append] at hcut ⊢
      rw [cutRun, hcut]
      simp [hd.isUppercase, hd.isLowercase]
    | cons d cs =>
      by_cases hlower : trend.next c = .lower && isUppercase d
      · obtain ⟨before, last, hcut⟩ := ih .none []
        refine ⟨(c :: word).reverse :: before, last, fun ds hds => ?_⟩
        have hcut := hcut ds hds
        rw [List.cons_append] at hcut
        simp only [List.cons_append, cutRun, hlower, if_true, hcut]
      · by_cases hupper : trend = .upper && isUppercase c && isLowercase d
        · obtain ⟨before, last, hcut⟩ := ih .none [c]
          refine ⟨word.reverse :: before, last, fun ds hds => ?_⟩
          have hcut := hcut ds hds
          rw [List.cons_append] at hcut
          simp only [List.cons_append, cutRun, hlower, hupper, if_true, hcut]
          simp
        · obtain ⟨before, last, hcut⟩ := ih (trend.next c) (c :: word)
          refine ⟨before, last, fun ds hds => ?_⟩
          have hcut := hcut ds hds
          rw [List.cons_append] at hcut
          simp only [List.cons_append, cutRun, hlower, hupper, hcut]
          simp

/-- A numeral belongs to the last stretch of letters and numbers. -/
theorem splitOnP_append_numeral (cs : List Char) :
    ∃ before last, ∀ ds, IsNumeral ds →
      (cs ++ ds).splitOnP (!isAlphanumeric ·) = before ++ [last ++ ds] := by
  induction cs with
  | nil =>
    refine ⟨[], [], fun ds hds => ?_⟩
    have hfree : ∀ d ∈ ds, (!isAlphanumeric d) = false := fun d hd => by
      simp [(hds.isCaseless d hd).isAlphanumeric]
    simpa using List.splitOnP_eq_singleton hfree
  | cons c cs ih =>
    obtain ⟨before, last, hsplit⟩ := ih
    by_cases hc : isAlphanumeric c
    · cases before with
      | nil =>
        refine ⟨[], c :: last, fun ds hds => ?_⟩
        simp [List.splitOnP_cons_eq_if_modifyHead, hc, hsplit ds hds]
      | cons first before =>
        refine ⟨(c :: first) :: before, last, fun ds hds => ?_⟩
        simp [List.splitOnP_cons_eq_if_modifyHead, hc, hsplit ds hds]
    · refine ⟨[] :: before, last, fun ds hds => ?_⟩
      simp [List.splitOnP_cons_eq_if_modifyHead, hc, hsplit ds hds]

theorem words_append_numeral (cs : List Char) :
    ∃ before last, ∀ ds, IsNumeral ds → words (cs ++ ds) = before ++ [last ++ ds] := by
  obtain ⟨stretches, stretch, hsplit⟩ := splitOnP_append_numeral cs
  obtain ⟨before, last, hcut⟩ := cutRun_append_numeral .none [] stretch
  refine ⟨stretches.flatMap (cutRun .none []) ++ before, last, fun ds hds => ?_⟩
  simp [words, hsplit ds hds, hcut ds hds]

/-! ## Identifiers -/

theorem lowerWord_append_numeral (cs : List Char) {ds : List Char} (hds : IsNumeral ds) :
    lowerWord (cs ++ ds) = cs.flatMap lowerChar ++ ds := by
  have hdigits : ∀ ds : List Char, (∀ d ∈ ds, IsCaseless d) → lowerWord ds = ds := by
    intro ds
    induction ds with
    | nil => intro _; rfl
    | cons d ds ih =>
      intro h
      have hd := h d List.mem_cons_self
      simp [lowerWord, hd.ne_sigma, hd.lowerChar, ih fun e he => h e (List.mem_cons_of_mem _ he)]
  induction cs with
  | nil => exact hdigits ds hds.isCaseless
  | cons c cs ih => simp [lowerWord, hds.ne_nil, ih]

theorem capitalize_append_numeral (cs : List Char) :
    ∃ stem, ∀ ds, IsNumeral ds → capitalize (cs ++ ds) = stem ++ ds := by
  cases cs with
  | nil =>
    refine ⟨[], fun ds hds => ?_⟩
    obtain ⟨d, rest, rfl⟩ := List.exists_cons_of_ne_nil hds.ne_nil
    have hd := hds.isCaseless d List.mem_cons_self
    cases rest with
    | nil => simp [capitalize, lowerWord, hd.upperChar]
    | cons e rest =>
      have hrest : IsNumeral (e :: rest) :=
        ⟨by simp, fun f hf => hds.isDigit f (List.mem_cons_of_mem _ hf)⟩
      have hlower := lowerWord_append_numeral [] hrest
      simp only [List.nil_append, List.flatMap_nil] at hlower
      simp [capitalize, hd.upperChar, hlower]
  | cons c cs =>
    refine ⟨upperChar c ++ cs.flatMap lowerChar, fun ds hds => ?_⟩
    simp [capitalize, lowerWord_append_numeral cs hds]

theorem pascalCase_append_numeral (cs : List Char) :
    ∃ stem, ∀ ds, IsNumeral ds → pascalCase (cs ++ ds) = stem ++ ds := by
  obtain ⟨before, last, hwords⟩ := words_append_numeral cs
  obtain ⟨stem, hlast⟩ := capitalize_append_numeral last
  refine ⟨before.flatMap capitalize ++ stem, fun ds hds => ?_⟩
  simp [pascalCase, hwords ds hds, hlast ds hds]

theorem isPlainIdentifier_append_numeral (cs : List Char) {ds : List Char} (hds : IsNumeral ds) :
    isPlainIdentifier (cs ++ ds) = isPlainIdentifier cs := by
  have hall : ds.all (fun d => isAlphanumeric d || d == '_') = true := by
    rw [List.all_eq_true]
    intro d hd
    simp [(hds.isCaseless d hd).isAlphanumeric]
  cases cs with
  | nil =>
    obtain ⟨d, rest, rfl⟩ := List.exists_cons_of_ne_nil hds.ne_nil
    have hd : d.isDigit := hds.isDigit d List.mem_cons_self
    simp [isPlainIdentifier, hd]
  | cons c cs =>
    change (!c.isDigit && (c :: cs ++ ds).all _) = (!c.isDigit && (c :: cs).all _)
    rw [List.all_append, hall, Bool.and_true]

theorem typeIdentifier_append_numeral (key : String) :
    ∃ stem, ∀ ds, IsNumeral ds →
      (typeIdentifier (String.ofList (key.toList ++ ds))).toList = stem ++ ds := by
  by_cases hplain : isPlainIdentifier key.toList
  · cases hkey : key.toList with
    | nil => simp [hkey, isPlainIdentifier] at hplain
    | cons c cs =>
      refine ⟨upperChar c ++ cs, fun ds hds => ?_⟩
      have hkept := isPlainIdentifier_append_numeral key.toList hds
      rw [hplain, hkey] at hkept
      rw [typeIdentifier, upperFirst, String.toList_ofList, if_pos hkept]
      simp
  · obtain ⟨kept, hkept⟩ := sanitize_append_numeral key.toList
    obtain ⟨stem, hstem⟩ := pascalCase_append_numeral kept
    refine ⟨stem, fun ds hds => ?_⟩
    simp [typeIdentifier, isPlainIdentifier_append_numeral key.toList hds, hplain, hkept ds hds,
      hstem ds hds]

/-! ## Lower case -/

/-- What the rule for a final sigma sees behind a text depends on what it sees there first. -/
theorem meetsCased_append_congr {cs ds : List Char} (h : meetsCased cs = meetsCased ds)
    (before : List Char) : meetsCased (before ++ cs) = meetsCased (before ++ ds) := by
  induction before with
  | nil => exact h
  | cons c before ih =>
    cases hc : isCaseIgnorable c with
    | true => simpa [meetsCased, hc] using ih
    | false => simp [meetsCased, hc]

/-- A numeral ends what the rule for a final sigma looks through. -/
theorem meetsCased_append_numeral (cs tail : List Char) {ds : List Char} (hds : IsNumeral ds) :
    meetsCased (cs ++ ds ++ tail) = meetsCased (cs ++ ['0']) := by
  have hzero : IsCaseless '0' := isCaseless_of_isDigit (by decide)
  obtain ⟨d, rest, rfl⟩ := List.exists_cons_of_ne_nil hds.ne_nil
  have hd := hds.isCaseless d List.mem_cons_self
  have hnumeral : meetsCased (d :: rest ++ tail) = meetsCased ['0'] := by
    simp [meetsCased, hd.isCaseIgnorable, hzero.isCaseIgnorable, hd.isCased, hzero.isCased]
  rw [List.append_assoc]
  exact meetsCased_append_congr hnumeral cs

/-- What stands before a text matters only as far as the rule for a final sigma sees it. -/
theorem lowerFrom_congr {seen seen' : List Char} (h : meetsCased seen = meetsCased seen')
    (cs : List Char) : lowerFrom seen cs = lowerFrom seen' cs := by
  induction cs generalizing seen seen' with
  | nil => rfl
  | cons c cs ih =>
    have hc : meetsCased (c :: seen) = meetsCased (c :: seen') := meetsCased_append_congr h [c]
    rw [lowerFrom, lowerFrom, ih hc, h]

theorem lowerFrom_numeral_append (seen tail : List Char) {ds : List Char} (hds : IsNumeral ds) :
    lowerFrom seen (ds ++ tail) = ds ++ lowerFrom ['0'] tail := by
  have hdigits : ∀ (ds seen : List Char), (∀ d ∈ ds, IsCaseless d) →
      lowerFrom seen (ds ++ tail) = ds ++ lowerFrom (ds.reverse ++ seen) tail := by
    intro ds
    induction ds with
    | nil => intro _ _; rfl
    | cons d ds ih =>
      intro seen h
      have hd := h d List.mem_cons_self
      have ih := ih (d :: seen) fun e he => h e (List.mem_cons_of_mem _ he)
      simp [lowerFrom, hd.ne_sigma, hd.lowerChar, ih]
  have hrev : IsNumeral ds.reverse :=
    ⟨by simpa using hds.ne_nil, fun d hd => hds.isDigit d (List.mem_reverse.mp hd)⟩
  have hseen : lowerFrom (ds.reverse ++ seen) tail = lowerFrom ['0'] tail :=
    lowerFrom_congr (meetsCased_append_numeral [] seen hrev) tail
  rw [hdigits ds seen hds.isCaseless, hseen]

/-- The text before a numeral and that after it are lower-cased without regard to the numeral,
which stays as it is. -/
theorem lowerFrom_append_numeral (seen cs tail : List Char) :
    ∃ before after, ∀ ds, IsNumeral ds →
      lowerFrom seen (cs ++ ds ++ tail) = before ++ ds ++ after := by
  induction cs generalizing seen with
  | nil =>
    refine ⟨[], lowerFrom ['0'] tail, fun ds hds => ?_⟩
    simpa using lowerFrom_numeral_append seen tail hds
  | cons c cs ih =>
    obtain ⟨before, after, hlower⟩ := ih (c :: seen)
    refine ⟨(if c == 'Σ' then [if meetsCased seen && !meetsCased (cs ++ ['0']) then 'ς' else 'σ']
      else lowerChar c) ++ before, after, fun ds hds => ?_⟩
    rw [List.cons_append, List.cons_append, lowerFrom, hlower ds hds,
      meetsCased_append_numeral cs tail hds]
    simp only [List.append_assoc]

end Text

/-! ## Keys -/

open Text

namespace PojoName

variable (name : PojoName)

/-- The number of a name stands as it is in the name's key, between the same two texts. -/
theorem key_numbered : ∃ before after, ∀ number,
    (name.numbered number).key.toList = before ++ (toString number).toList ++ after := by
  obtain ⟨stem, hstem⟩ := typeIdentifier_append_numeral name.raw
  obtain ⟨before, after, hlower⟩ := lowerFrom_append_numeral [] stem name.suffix.toList
  refine ⟨before, after, fun number => ?_⟩
  have hdigits := isNumeral_toString number
  have hraw : name.raw ++ toString number
      = String.ofList (name.raw.toList ++ (toString number).toList) := by
    rw [← String.toList_append, String.ofList_toList]
  have htext : (name.numbered number).text.toList
      = stem ++ (toString number).toList ++ name.suffix.toList := by
    rw [text, String.toList_append, numbered, hraw, hstem _ hdigits]
  rw [key, lower, String.toList_ofList, htext, hlower _ hdigits]

/-- Numbered forms of a name have different keys. -/
theorem key_numbered_injective {m n : Nat}
    (h : (name.numbered m).key = (name.numbered n).key) : m = n := by
  obtain ⟨before, after, hkey⟩ := name.key_numbered
  have hlists := congrArg String.toList h
  rw [hkey m, hkey n] at hlists
  exact toString_injective (List.append_cancel_left (List.append_cancel_right hlists))

end PojoName

namespace Registry

variable (registry : Registry) (name : PojoName)

variable {registry name} in
/-- Numbered forms of a name have different keys, so that no more of them are taken than there are
keys. -/
theorem le_of_taken {number : Nat}
    (h : ∀ lower, 2 ≤ lower → lower < number → (name.numbered lower).key ∈ registry.keys) :
    number ≤ registry.keys.length + 2 := by
  let taken := (List.range' 2 (number - 2)).map fun lower => (name.numbered lower).key
  have hnodup : taken.Nodup := by
    refine List.Nodup.map_on (fun m _ n _ h => name.key_numbered_injective h) ?_
    exact List.nodup_range'
  have hsubset : taken ⊆ registry.keys := by
    intro key hkey
    obtain ⟨lower, hlower, rfl⟩ := List.mem_map.mp hkey
    rw [List.mem_range'_1] at hlower
    exact h lower hlower.1 (by omega)
  have hlength := hnodup.length_le_of_subset hsubset
  simp only [taken, List.length_map, List.length_range'] at hlength
  omega

/-- Some number frees a name: as many keys as there are candidates cannot all be taken. -/
theorem exists_free_candidate :
    ∃ number ∈ registry.candidates, registry.isFree (name.numbered number) := by
  by_contra hnone
  have htaken : ∀ lower, 2 ≤ lower → lower < registry.keys.length + 3 →
      (name.numbered lower).key ∈ registry.keys := by
    intro lower hlower hlt
    by_contra hkey
    refine hnone ⟨lower, ?_, by simpa [isFree] using hkey⟩
    rw [candidates, List.mem_range'_1]
    omega
  have hle := le_of_taken htaken
  omega

/-- The name that is chosen has not been taken. -/
theorem isFree_choose : registry.isFree (registry.choose name) := by
  rw [choose]
  split
  · assumption
  · obtain ⟨number, hmem, hfree⟩ := registry.exists_free_candidate name
    cases hfind : registry.candidates.find? fun number =>
        registry.isFree (name.numbered number) with
    | none => exact absurd hfree (by simpa using List.find?_eq_none.mp hfind number hmem)
    | some chosen => exact List.find?_some (p := fun n => registry.isFree (name.numbered n)) hfind

/-- The key of the name that is chosen is new. -/
theorem key_choose_not_mem : (registry.choose name).key ∉ registry.keys := by
  simpa [isFree] using registry.isFree_choose name

end Registry

end PojoGraph
