import Mathlib.Data.Rat.Cast.Order
import Mathlib.Tactic.NormNum
import PojoGraph.Proofs.Classification.Arrays
import PojoGraph.Proofs.Encoding.Scalars

/-!
# Bounds of numbers

A schema of numbers may limit its values at either end twice: by an inclusive bound, which a flag
makes exclusive, and by an exclusive bound of its own. The constraints of its type have a place
for an exact integer and one for a decimal at each end, but of the two bounds at one end mapping
keeps only the exclusive one. So the constraints admit every integer that the schema admits, and
they admit others where the bound left out is the tighter one.

## Main definitions

* `DecimalLiteral.value`, `Bound.value?` — the number that a decimal denotes.
* `Constraints.Admits` — the numbers that constraints admit.
* `Facets.AdmitsNumber` — the integers that the bounds of a schema admit.
* `Facets.Shadows` — an inclusive bound that stands beside an exclusive one.

## Main statements

* `Bound.value?_text` — the decimals that mapping writes for integers denote these.
* `Facets.admitsNumber_iff` — what mapping leaves out.
* `numeric_bounds_kept_iff` — when the constraints admit what the schema admits.
-/

namespace PojoGraph

/-! ## Decimals -/

namespace DecimalLiteral

/-- The digits before and after the point as one natural number. -/
def significand (literal : DecimalLiteral) : Nat :=
  natural (literal.whole ++ literal.fraction.getD [])

/-- The power of ten by which the significand is scaled up. -/
def scaleUp (literal : DecimalLiteral) : Nat :=
  match literal.exponent with
  | some (false, digits) => Decimal.tenTo (natural digits)
  | _ => 1

/-- The power of ten by which the significand is scaled down. -/
def scaledBy (literal : DecimalLiteral) : Nat :=
  Decimal.tenTo (literal.fraction.getD []).length *
    match literal.exponent with
    | some (true, digits) => Decimal.tenTo (natural digits)
    | _ => 1

/-- The rational number that a literal denotes. -/
def value (literal : DecimalLiteral) : ℚ :=
  let magnitude : ℚ := (literal.significand * literal.scaleUp : Nat) / (literal.scaledBy : Nat)
  if literal.isNegative then -magnitude else magnitude

/-- The literal that a text is, if it is one. -/
def ofText? (text : String) : Option DecimalLiteral := do
  let isNegative := text.toList.head? == some '-'
  let (whole, cs) ← Json.readDigits? (if isNegative then text.toList.tail else text.toList)
  let (fraction, cs) ← Json.readFraction? cs
  let (exponent, cs) ← Json.readExponent? cs
  if cs.isEmpty then some { isNegative, whole, fraction, exponent } else none

/-- The literal of a natural number, with a sign or without one. -/
def ofNat (isNegative : Bool) (n : Nat) : DecimalLiteral where
  isNegative
  whole := (Nat.toDigits 10 n).map fun c => c.toNat - '0'.toNat

theorem value_ofNat (isNegative : Bool) (n : Nat) :
    (ofNat isNegative n).value = if isNegative then -(n : ℚ) else n := by
  have hsignificand : (ofNat isNegative n).significand = n := by
    rw [significand, ofNat, Option.getD_none, List.append_nil]
    exact Number.natural_toDigits n
  rw [value, hsignificand]
  simp [scaleUp, scaledBy, ofNat]

/-- An integer is written as the literal of its magnitude. -/
theorem ofText?_toString (n : ℤ) : ofText? (toString n) = some (ofNat (n < 0) n.natAbs) := by
  by_cases hneg : n < 0
  · have htext : (toString n).toList = '-' :: Nat.toDigits 10 n.natAbs := by
      have habs : (-n).toNat = n.natAbs := by omega
      rw [Int.toString_eq_repr, Int.repr_eq_if, if_neg (by omega), String.toList_append, habs,
        Nat.toList_repr]
      rfl
    simp only [ofText?, htext, List.head?_cons, BEq.rfl, if_true, List.tail_cons,
      Number.readDigits?_toDigits, hneg, decide_true]
    rfl
  · have htext : (toString n).toList = Nat.toDigits 10 n.natAbs := by
      have habs : n.toNat = n.natAbs := by omega
      rw [Int.toString_eq_repr, Int.repr_eq_if, if_pos (by omega), habs, Nat.toList_repr]
    obtain ⟨c, cs, hdigits, hc⟩ := Number.exists_cons_toDigits n.natAbs
    have hsign : ((Nat.toDigits 10 n.natAbs).head? == some '-') = false := by
      simp [hdigits, hc]
    simp only [ofText?, htext, hsign, Bool.false_eq_true, if_false,
      Number.readDigits?_toDigits, hneg, decide_false]
    rfl

end DecimalLiteral

/-- The number that a decimal bound is written as. -/
def Bound.value? (bound : Bound) : Option ℚ :=
  (DecimalLiteral.ofText? bound.value).map (·.value)

/-- **A bound that is written as an integer denotes it.** -/
theorem Bound.value?_text (n : ℤ) (inclusive : Bool) :
    Bound.value? ⟨(Number.integer n).text, inclusive⟩ = some (n : ℚ) := by
  rw [value?, Number.text, DecimalLiteral.ofText?_toString, Option.map_some,
    DecimalLiteral.value_ofNat]
  by_cases hneg : n < 0
  · have habs : (n.natAbs : ℤ) = -n := by omega
    simp [hneg, ← Int.cast_natCast (R := ℚ), habs]
  · have habs : (n.natAbs : ℤ) = n := by omega
    simp [hneg, ← Int.cast_natCast (R := ℚ), habs]

/-! ## Ends of ranges -/

/-- The ends of a range of numbers. -/
inductive RangeEnd where
  | lower
  | upper
  deriving DecidableEq, Repr

namespace RangeEnd

/-- The number lies inside the end that stands at `limit`. -/
def Past : RangeEnd → ℚ → ℚ → Prop
  | lower, limit, x => limit < x
  | upper, limit, x => x < limit

/-- The number lies inside the end that stands at `limit`, or on it. -/
def AtOrPast : RangeEnd → ℚ → ℚ → Prop
  | lower, limit, x => limit ≤ x
  | upper, limit, x => x ≤ limit

/-- The other end. -/
def opposite : RangeEnd → RangeEnd
  | lower => upper
  | upper => lower

/-- The first integer inside the end that stands at `limit`. -/
def next : RangeEnd → ℤ → ℤ
  | lower, limit => limit + 1
  | upper, limit => limit - 1

variable {e : RangeEnd}

theorem eq_or_eq_opposite (e other : RangeEnd) : other = e ∨ other = e.opposite := by
  cases e <;> cases other <;> simp [opposite]

theorem past_next (e : RangeEnd) (limit : ℤ) : e.Past limit (e.next limit) := by
  cases e <;> simp [Past, next]

/-- No integer inside an end comes before the first one. -/
theorem atOrPast_next {limit x : ℤ} (h : e.Past limit x) : e.AtOrPast (e.next limit) x := by
  cases e with
  | lower =>
    have hlt : limit < x := by simpa [Past] using h
    have hle : limit + 1 ≤ x := by omega
    simpa [AtOrPast, next] using (Int.cast_le (R := ℚ)).mpr hle
  | upper =>
    have hlt : x < limit := by simpa [Past] using h
    have hle : x ≤ limit - 1 := by omega
    simpa [AtOrPast, next] using (Int.cast_le (R := ℚ)).mpr hle

theorem AtOrPast.trans {limit x y : ℚ} (h : e.AtOrPast limit x) (hxy : e.AtOrPast x y) :
    e.AtOrPast limit y := by
  cases e with
  | lower => exact le_trans h hxy
  | upper => exact le_trans hxy h

/-- A number that is nearer to an end is no nearer to the other one. -/
theorem AtOrPast.opposite {limit x y : ℚ} (h : e.opposite.AtOrPast limit y)
    (hxy : e.AtOrPast x y) : e.opposite.AtOrPast limit x := by
  cases e with
  | lower => exact le_trans hxy h
  | upper => exact le_trans h hxy

theorem Past.opposite {limit x y : ℚ} (h : e.opposite.Past limit y) (hxy : e.AtOrPast x y) :
    e.opposite.Past limit x := by
  cases e with
  | lower => exact lt_of_le_of_lt hxy h
  | upper => exact lt_of_lt_of_le h hxy

end RangeEnd

/-! ## What constraints admit -/

/-- The number keeps to a decimal bound at an end. -/
def Bound.Admits (bound : Bound) (e : RangeEnd) (x : ℚ) : Prop :=
  ∃ limit, bound.value? = some limit
    ∧ if bound.inclusive then e.AtOrPast limit x else e.Past limit x

namespace Constraints

/-- The exact integer that bounds an end. -/
def wholeAt (constraints : Constraints) : RangeEnd → Option Int
  | .lower => constraints.min
  | .upper => constraints.max

/-- The decimal that bounds an end. -/
def decimalAt (constraints : Constraints) : RangeEnd → Option Bound
  | .lower => constraints.decimalMin
  | .upper => constraints.decimalMax

/-- The number keeps to all bounds, exact integers and decimals, at both ends. -/
def Admits (constraints : Constraints) (x : ℚ) : Prop :=
  ∀ e, (∀ limit, constraints.wholeAt e = some limit → e.AtOrPast limit x)
    ∧ ∀ bound, constraints.decimalAt e = some bound → bound.Admits e x

end Constraints

/-! ## What a schema admits -/

/-- Whether the keyword makes the inclusive bound beside it exclusive. -/
def ExclusiveBound.isStrict : ExclusiveBound → Bool
  | flag isSet => isSet
  | value _ => false

namespace Facets

variable (facets : Facets)

/-- The inclusive bound of an end. -/
def inclusiveAt : RangeEnd → Option Number
  | .lower => facets.minimum
  | .upper => facets.maximum

/-- The exclusive bound of an end, or the flag in its place. -/
def exclusiveAt : RangeEnd → Option ExclusiveBound
  | .lower => facets.exclusiveMinimum
  | .upper => facets.exclusiveMaximum

/-- All bounds that are numbers are integers. -/
structure HasIntegerBounds : Prop where
  inclusive : ∀ e number, facets.inclusiveAt e = some number → ∃ n, number = .integer n
  exclusive : ∀ e number, facets.exclusiveAt e = some (.value number) → ∃ n, number = .integer n

/-- The integer is admitted at an end: it keeps to the inclusive bound, exclusively if a flag says
so, and to the exclusive bound. -/
def AdmitsAt (e : RangeEnd) (x : ℤ) : Prop :=
  (∀ limit, facets.inclusiveAt e = some (.integer limit) →
      if (facets.exclusiveAt e).any (·.isStrict) then e.Past limit x else e.AtOrPast limit x)
    ∧ ∀ limit, facets.exclusiveAt e = some (.value (.integer limit)) → e.Past limit x

/-- The integer keeps to the bounds at both ends. -/
def AdmitsNumber (x : ℤ) : Prop :=
  ∀ e, facets.AdmitsAt e x

/-- An inclusive bound and an exclusive one stand at the same end. -/
def Shadows (e : RangeEnd) (inclusive exclusive : ℤ) : Prop :=
  facets.inclusiveAt e = some (.integer inclusive)
    ∧ facets.exclusiveAt e = some (.value (.integer exclusive))

/-- The bound that mapping keeps of an end. -/
def boundAt (integral : Bool) (e : RangeEnd) : Option NumericBound :=
  numericBound (facets.inclusiveAt e) (facets.exclusiveAt e) integral

end Facets

/-! ## What mapping keeps -/

/-- The number keeps to a bound at an end. -/
def NumericBound.Admits (e : RangeEnd) : NumericBound → ℚ → Prop
  | whole limit, x => e.AtOrPast limit x
  | decimal bound, x => bound.Admits e x

theorem NumericBound.admits_integer {e : RangeEnd} {limit : ℤ} {inclusive : Bool} {x : ℚ} :
    (decimal ⟨(Number.integer limit).text, inclusive⟩).Admits e x
      ↔ if inclusive then e.AtOrPast limit x else e.Past limit x := by
  simp [Admits, Bound.Admits, Bound.value?_text]

/-- An integer that nothing makes exclusive is kept as such, or as an inclusive decimal. -/
theorem numericBound_of_inclusive {e : RangeEnd} (limit : ℤ) {exclusive : Option ExclusiveBound}
    (h : exclusive = none ∨ exclusive = some (.flag false)) (integral : Bool) :
    ∃ bound, numericBound (some (.integer limit)) exclusive integral = some bound
      ∧ ∀ x, bound.Admits e x ↔ e.AtOrPast limit x := by
  have hkept : (∃ n, (Number.integer limit).int64? = some n
        ∧ numericBound (some (.integer limit)) exclusive integral = some (.whole n))
      ∨ numericBound (some (.integer limit)) exclusive integral
        = some (.decimal ⟨(Number.integer limit).text, true⟩) := by
    rcases h with rfl | rfl <;> cases hint : (Number.integer limit).int64? <;>
      cases integral <;> simp [numericBound, hint]
  rcases hkept with ⟨n, hn, hbound⟩ | hbound
  · have heq : limit = n := by simpa [Number.int64?] using (Option.ite_none_right_eq_some.mp hn).2
    exact ⟨_, hbound, fun x => by rw [NumericBound.Admits, heq]⟩
  · exact ⟨_, hbound, fun x => NumericBound.admits_integer⟩

/-- A number that is nearer to an end keeps to the bounds of the other one. -/
theorem NumericBound.Admits.opposite {e : RangeEnd} {bound : NumericBound} {x y : ℚ}
    (h : bound.Admits e.opposite y) (hxy : e.AtOrPast x y) : bound.Admits e.opposite x := by
  cases bound with
  | whole limit => exact RangeEnd.AtOrPast.opposite h hxy
  | decimal bound =>
    obtain ⟨limit, hlimit, hadmits⟩ := h
    refine ⟨limit, hlimit, ?_⟩
    by_cases hinclusive : bound.inclusive = true
    · rw [if_pos hinclusive] at hadmits ⊢
      exact RangeEnd.AtOrPast.opposite hadmits hxy
    · rw [if_neg hinclusive] at hadmits ⊢
      exact RangeEnd.Past.opposite hadmits hxy

namespace Facets

variable {facets : Facets} {integral : Bool} {e : RangeEnd}

/-- The constraints of a number are the bounds kept of the two ends. -/
theorem admits_numericConstraints_iff {x : ℚ} : (facets.numericConstraints integral).Admits x
    ↔ ∀ e bound, facets.boundAt integral e = some bound → bound.Admits e x := by
  have hends : ∀ e,
      (facets.numericConstraints integral).wholeAt e
          = (facets.boundAt integral e).bind (·.whole?)
        ∧ (facets.numericConstraints integral).decimalAt e
          = (facets.boundAt integral e).bind (·.decimal?) := by
    intro e
    cases e <;> exact ⟨rfl, rfl⟩
  rw [Constraints.Admits]
  refine forall_congr' fun e => ?_
  rw [(hends e).1, (hends e).2]
  cases facets.boundAt integral e with
  | none => simp
  | some bound =>
    cases bound <;> simp [NumericBound.whole?, NumericBound.decimal?, NumericBound.Admits]

/-- **What mapping leaves out**: of two bounds at one end it keeps the exclusive one. -/
theorem admitsAt_iff (h : facets.HasIntegerBounds) {x : ℤ} : facets.AdmitsAt e x
    ↔ (∀ bound, facets.boundAt integral e = some bound → bound.Admits e x)
      ∧ ∀ inclusive exclusive, facets.Shadows e inclusive exclusive →
          e.AtOrPast inclusive x := by
  have hinclusive := h.inclusive e
  have hexclusive := h.exclusive e
  simp only [AdmitsAt, boundAt, Shadows]
  generalize facets.inclusiveAt e = inclusive at hinclusive ⊢
  generalize facets.exclusiveAt e = exclusive at hexclusive ⊢
  -- What stands in the place of an exclusive bound decides which of the two is kept.
  rcases exclusive with _ | isStrict | number
  · rcases inclusive with _ | number
    · simp [numericBound]
    · obtain ⟨limit, rfl⟩ := hinclusive number rfl
      obtain ⟨bound, hbound, hadmits⟩ :=
        numericBound_of_inclusive (e := e) limit (.inl rfl) integral
      simp [hbound, hadmits]
  · rcases inclusive with _ | number
    · simp [numericBound]
    · obtain ⟨limit, rfl⟩ := hinclusive number rfl
      cases isStrict with
      | true =>
        have hbound : numericBound (some (.integer limit)) (some (.flag true)) integral
            = some (.decimal ⟨(Number.integer limit).text, false⟩) := rfl
        simp [hbound, ExclusiveBound.isStrict, NumericBound.admits_integer]
      | false =>
        obtain ⟨bound, hbound, hadmits⟩ :=
          numericBound_of_inclusive (e := e) limit (.inr rfl) integral
        simp [hbound, hadmits, ExclusiveBound.isStrict]
  · obtain ⟨limit, rfl⟩ := hexclusive number rfl
    have hbound : numericBound inclusive (some (.value (.integer limit))) integral
        = some (.decimal ⟨(Number.integer limit).text, false⟩) := by
      cases inclusive <;> rfl
    rw [hbound]
    simp [ExclusiveBound.isStrict, NumericBound.admits_integer, and_comm]

/-- **A schema admits less than its constraints** by the inclusive bounds that stand beside
exclusive ones. -/
theorem admitsNumber_iff (h : facets.HasIntegerBounds) (integral : Bool) {x : ℤ} :
    facets.AdmitsNumber x
      ↔ (facets.numericConstraints integral).Admits x
        ∧ ∀ e inclusive exclusive, facets.Shadows e inclusive exclusive →
            e.AtOrPast inclusive x := by
  rw [AdmitsNumber, admits_numericConstraints_iff, ← forall_and]
  exact forall_congr' fun e => admitsAt_iff h

theorem Shadows.boundAt {inclusive exclusive : ℤ} (h : facets.Shadows e inclusive exclusive) :
    facets.boundAt integral e = some (.decimal ⟨(Number.integer exclusive).text, false⟩) := by
  rw [Facets.boundAt, h.1, h.2]
  rfl

/-- The exclusive one of two bounds is kept. -/
theorem Shadows.past {inclusive exclusive x : ℤ} (h : facets.Shadows e inclusive exclusive)
    (hx : (facets.numericConstraints integral).Admits x) : e.Past exclusive x := by
  simpa [NumericBound.admits_integer] using admits_numericConstraints_iff.mp hx e _ h.boundAt

/-- If the constraints admit an integer inside an exclusive bound, they admit the first one. -/
theorem Shadows.admits_next {inclusive exclusive x : ℤ} (h : facets.Shadows e inclusive exclusive)
    (hx : (facets.numericConstraints integral).Admits x) :
    (facets.numericConstraints integral).Admits (e.next exclusive) := by
  have hnext := RangeEnd.atOrPast_next (h.past hx)
  rw [admits_numericConstraints_iff] at hx ⊢
  intro other bound hother
  rcases e.eq_or_eq_opposite other with rfl | rfl
  · rw [h.boundAt, Option.some.injEq] at hother
    rw [← hother, NumericBound.admits_integer]
    simpa using RangeEnd.past_next other exclusive
  · exact (hx _ bound hother).opposite hnext

/-- **The constraints admit what the schema admits** if and only if no inclusive bound excludes
the first integer inside the exclusive bound beside it, unless the other end excludes it as
well. -/
theorem forall_admits_iff (h : facets.HasIntegerBounds) :
    (∀ x : ℤ, (facets.numericConstraints integral).Admits x ↔ facets.AdmitsNumber x)
      ↔ ∀ e inclusive exclusive, facets.Shadows e inclusive exclusive →
          (facets.numericConstraints integral).Admits (e.next exclusive) →
            e.AtOrPast inclusive (e.next exclusive) := by
  constructor
  · intro hall e inclusive exclusive hshadows hnext
    have hadmits := (hall (e.next exclusive)).mp hnext
    exact ((admitsNumber_iff h integral).mp hadmits).2 e inclusive exclusive hshadows
  · intro hnext x
    rw [admitsNumber_iff h integral]
    refine ⟨fun hx => ⟨hx, fun e inclusive exclusive hshadows => ?_⟩, fun hx => hx.1⟩
    have hfirst := hnext e inclusive exclusive hshadows (hshadows.admits_next hx)
    exact hfirst.trans (RangeEnd.atOrPast_next (hshadows.past hx))

end Facets

/-! ## Types of numbers -/

/-- A schema of numbers in place has the constraints that its bounds give. -/
theorem constraints_mapSchema (settings : Settings) (owner : PojoName) (member : String)
    (registry : Registry) {k : Keywords Schema} (hplain : k.isInlineObject = false)
    (htype : k.isType .integer = true ∨ k.isType .number = true) :
    ∃ integral, (mapSchema settings owner member registry (.inline k)).type.traits.constraints
      = k.numericConstraints integral := by
  have hsingle : k.singleType? = some .integer ∨ k.singleType? = some .number := by
    simpa [Facets.isType] using htype
  have hstring : k.admitsType .string = false := by
    rcases hsingle with h | h <;> simp [Facets.admitsType, h]
  have hscalar : ∃ integral scalar, k.scalar? = some (scalar, k.numericConstraints integral) := by
    rcases hsingle with h | h
    · exact ⟨true, _, by rw [Facets.scalar?, h]⟩
    · exact ⟨false, _, by rw [Facets.scalar?, h]⟩
  obtain ⟨integral, scalar, hscalar⟩ := hscalar
  have hform : k.form = .scalar scalar (k.numericConstraints integral) := by
    simp [Keywords.form, Keywords.singleReference?_of_isInlineObject hplain, hplain, hstring,
      hscalar]
  refine ⟨integral, ?_⟩
  rw [mapSchema_inline, hform]
  rfl

/-- **When the constraints of a number admit what its schema admits.** For a schema of integers or
numbers, neither composed nor with properties, whose bounds are integers: an integer is admitted
by the schema if and only if it is admitted by the constraints of the mapped type and keeps to
each inclusive bound that stands beside an exclusive one. So the constraints admit the same
integers if and only if no such inclusive bound excludes the first integer inside the exclusive
bound beside it, unless the constraints exclude it anyway. -/
theorem numeric_bounds_kept_iff (settings : Settings) (owner : PojoName) (member : String)
    (registry : Registry) {k : Keywords Schema} (hplain : k.isInlineObject = false)
    (htype : k.isType .integer = true ∨ k.isType .number = true)
    (hbounds : k.HasIntegerBounds) :
    (∀ x : ℤ, k.AdmitsNumber x
        ↔ (mapSchema settings owner member registry (.inline k)).type.traits.constraints.Admits x
          ∧ ∀ e inclusive exclusive, k.Shadows e inclusive exclusive → e.AtOrPast inclusive x)
      ∧ ((∀ x : ℤ,
            (mapSchema settings owner member registry (.inline k)).type.traits.constraints.Admits x
              ↔ k.AdmitsNumber x)
          ↔ ∀ e inclusive exclusive, k.Shadows e inclusive exclusive →
              (mapSchema settings owner member registry
                (.inline k)).type.traits.constraints.Admits (e.next exclusive) →
              e.AtOrPast inclusive (e.next exclusive)) := by
  obtain ⟨integral, hconstraints⟩ := constraints_mapSchema settings owner member registry hplain
    htype
  rw [hconstraints]
  exact ⟨fun x => Facets.admitsNumber_iff hbounds integral, Facets.forall_admits_iff hbounds⟩

/-- An age: an integer from `least` on, below 150 and above `floor`. -/
def ageFrom (least floor : ℤ) : Keywords Schema where
  types := some (.single .integer)
  minimum := some (.integer least)
  maximum := some (.integer 150)
  exclusiveMinimum := some (.value (.integer floor))
  exclusiveMaximum := some (.flag true)

theorem hasIntegerBounds_ageFrom (least floor : ℤ) : (ageFrom least floor).HasIntegerBounds where
  inclusive := by
    intro e number h
    cases e <;> exact ⟨_, (Option.some.inj h).symm⟩
  exclusive := by
    intro e number h
    cases e with
    | lower => exact ⟨floor, by cases h; rfl⟩
    | upper => cases h

/-- An age from 0 on that is above -1 has constraints that admit the same ages. -/
theorem numeric_bounds_kept_iff_age :
    (ageFrom 0 (-1)).isInlineObject = false ∧ (ageFrom 0 (-1)).isType .integer = true
      ∧ (ageFrom 0 (-1)).HasIntegerBounds
      ∧ ∀ x : ℤ, (mapSchema {} ⟨"Pet", ""⟩ "age" {}
            (.inline (ageFrom 0 (-1)))).type.traits.constraints.Admits x
          ↔ (ageFrom 0 (-1)).AdmitsNumber x := by
  have hbounds := hasIntegerBounds_ageFrom 0 (-1)
  refine ⟨rfl, rfl, hbounds, ?_⟩
  apply (numeric_bounds_kept_iff {} ⟨"Pet", ""⟩ "age" {} rfl (.inl rfl) hbounds).2.mpr
  intro e inclusive exclusive hshadows _
  cases e with
  | lower =>
    obtain ⟨rfl, rfl⟩ : 0 = inclusive ∧ -1 = exclusive := by
      simpa [Facets.Shadows, Facets.inclusiveAt, Facets.exclusiveAt, ageFrom] using hshadows
    simp [RangeEnd.AtOrPast, RangeEnd.next]
  | upper => cases hshadows.2

/-- **An inclusive bound is lost**: an age from 5 on that is above 3 has constraints that admit
4. -/
theorem inclusive_bound_lost :
    (ageFrom 5 3).isInlineObject = false ∧ (ageFrom 5 3).isType .integer = true
      ∧ (ageFrom 5 3).HasIntegerBounds
      ∧ (mapSchema {} ⟨"Pet", ""⟩ "age" {} (.inline (ageFrom 5 3))).type.traits.constraints.Admits
          (4 : ℤ)
      ∧ ¬ (ageFrom 5 3).AdmitsNumber 4 := by
  refine ⟨rfl, rfl, hasIntegerBounds_ageFrom 5 3, ?_, ?_⟩
  · have hconstraints : (mapSchema {} ⟨"Pet", ""⟩ "age" {}
        (.inline (ageFrom 5 3))).type.traits.constraints
          = (ageFrom 5 3).numericConstraints true := by decide +kernel
    rw [hconstraints, Facets.admits_numericConstraints_iff]
    intro e bound hbound
    cases e with
    | lower =>
      obtain rfl : NumericBound.decimal ⟨(Number.integer 3).text, false⟩ = bound :=
        Option.some.inj hbound
      rw [NumericBound.admits_integer]
      norm_num [RangeEnd.Past]
    | upper =>
      obtain rfl : NumericBound.decimal ⟨(Number.integer 150).text, false⟩ = bound :=
        Option.some.inj hbound
      rw [NumericBound.admits_integer]
      norm_num [RangeEnd.Past]
  · intro h
    have hleast := (h .lower).1 5 rfl
    norm_num [Facets.exclusiveAt, ageFrom, ExclusiveBound.isStrict, RangeEnd.AtOrPast] at hleast

end PojoGraph
