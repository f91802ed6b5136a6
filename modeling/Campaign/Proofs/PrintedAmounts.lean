import Campaign.HumanUnits
import Campaign.Proofs.RoundingOrder
import Mathlib.Algebra.Order.Field.Rat
import Mathlib.Tactic.FieldSimp
import Mathlib.Tactic.Linarith
import Mathlib.Tactic.NormNum
import Mathlib.Tactic.Positivity
import Mathlib.Tactic.Ring

namespace Campaign

def Binary64.value? (x : Binary64) : Option ℚ := x.units?.map fun units : Int => (units : ℚ) / unitsInOne

def Decimal.value (decimal : Decimal) : ℚ := decimal.digits * 10 ^ decimal.exponent

structure Quantity where
  number : Decimal
  unit : Nat
  deriving DecidableEq

namespace Quantity

def amount (quantity : Quantity) : ℚ := quantity.number.value * quantity.unit

def isNumeral (c : Char) : Bool := c.isDigit || c == '.'

def ofText? (units : List (String × Nat)) (text : String) : Option Quantity := do
  let number ← readDecimal? (text.toList.takeWhile isNumeral)
  let unit ← units.lookup (String.ofList (text.toList.dropWhile isNumeral))
  return { number := number, unit := unit }

def sizeUnits : List (String × Nat) :=
  [("B", 1), ("K", 1024), ("M", 1024 ^ 2), ("G", 1024 ^ 3),
    (" B", 1), (" KiB", 1024), (" MiB", 1024 ^ 2), (" GiB", 1024 ^ 3)]

def rateUnits : List (String × Nat) :=
  [("", 1), ("M/s", 1), ("G/s", 1024), (" MiB/s", 1), (" GiB/s", 1024)]

theorem ofText?_append {units : List (String × Nat)} {number : List Char} {suffix : String}
    {unit : Nat} {decimal : Decimal} (numerals : ∀ c ∈ number, isNumeral c = true)
    (stops : ∀ c ∈ suffix.toList.head?, isNumeral c = false)
    (read : readDecimal? number = some decimal) (known : units.lookup suffix = some unit) :
    ofText? units (String.ofList number ++ suffix) = some { number := decimal, unit := unit } := by
  have ending : suffix.toList.takeWhile isNumeral = [] ∧
      suffix.toList.dropWhile isNumeral = suffix.toList := by
    cases cut : suffix.toList with
    | nil => exact ⟨rfl, rfl⟩
    | cons c rest => simp [stops c (by simp [cut])]
  have taken : (number ++ suffix.toList).takeWhile isNumeral = number := by
    rw [List.takeWhile_append_of_pos numerals, ending.1, List.append_nil]
  have dropped : (number ++ suffix.toList).dropWhile isNumeral = suffix.toList := by
    rw [List.dropWhile_append_of_pos numerals, ending.2]
  rw [ofText?, String.toList_append, String.toList_ofList, taken, dropped, read,
    String.ofList_toList, known]
  rfl

end Quantity

section

variable {unit units otherUnit otherUnits : Nat}

def tenths (unit units : Nat) : Nat := roundHalfEven (units * 10) (unit * unitsInOne)

/-- What a magnitude written in tenths of a unit amounts to. -/
def shownAmount (unit units : Nat) : ℚ := tenths unit units / 10 * unit

theorem shownAmount_mono (positive : 0 < unit) (atMost : units ≤ otherUnits) :
    shownAmount unit units ≤ shownAmount unit otherUnits := by
  have ordered : tenths unit units ≤ tenths unit otherUnits :=
    roundHalfEven_mono (Nat.mul_le_mul_right 10 atMost) (Nat.mul_pos positive unitsInOne_pos)
  unfold shownAmount
  gcongr

theorem Binary64.value?_ofNat {n : Nat} (small : n ≤ 2 ^ 53) : (ofNat n).value? = some (n : ℚ) := by
  have one : (unitsInOne : ℚ) ≠ 0 := by exact_mod_cast unitsInOne_pos.ne'
  have fits : n ≤ 2 ^ 64 := Nat.le_trans small (by decide)
  rw [ofNat_eq fits, value?, units?, if_neg Bool.false_ne_true, unitsOfRank_rankOfNat small,
    Option.map_some, Int.cast_natCast, Nat.cast_mul, mul_div_cancel_right₀ _ one]

theorem shownAmount_le (positive : 0 < unit) (divides : unit ∣ otherUnit)
    (below : units ≤ otherUnit * unitsInOne) : shownAmount unit units ≤ otherUnit := by
  obtain ⟨times, rfl⟩ := divides
  have few : tenths unit units ≤ times * 10 := by
    apply roundHalfEven_le _ (Nat.mul_pos positive unitsInOne_pos)
    calc
      units * 10 ≤ unit * times * unitsInOne * 10 := Nat.mul_le_mul_right 10 below
      _ = times * 10 * (unit * unitsInOne) := by ring
  have cast : (tenths unit units : ℚ) ≤ times * 10 := by exact_mod_cast few
  unfold shownAmount
  calc
    (tenths unit units : ℚ) / 10 * unit ≤ times * 10 / 10 * unit := by gcongr
    _ = ((unit * times : Nat) : ℚ) := by push_cast; ring

theorem le_shownAmount (positive : 0 < unit) (above : unit * unitsInOne ≤ units) :
    (unit : ℚ) ≤ shownAmount unit units := by
  have many : 10 ≤ tenths unit units := by
    apply le_roundHalfEven _ (Nat.mul_pos positive unitsInOne_pos)
    omega
  have cast : (10 : ℚ) ≤ tenths unit units := by exact_mod_cast many
  unfold shownAmount
  calc
    (unit : ℚ) = 10 / 10 * unit := by ring
    _ ≤ tenths unit units / 10 * unit := by gcongr

theorem shownAmount_near (positive : 0 < unit) (units : Nat) :
    |shownAmount unit units - units / unitsInOne| ≤ unit / 20 := by
  obtain ⟨below, above⟩ := roundHalfEven_near (units * 10) (Nat.mul_pos positive unitsInOne_pos)
  have one : (0 : ℚ) < unitsInOne := by exact_mod_cast unitsInOne_pos
  obtain ⟨value, exact⟩ : ∃ value : ℚ, value = units / unitsInOne := ⟨_, rfl⟩
  have whole : (units : ℚ) = value * unitsInOne := by rw [exact, div_mul_cancel₀ _ one.ne']
  have castBelow : 2 * ((units : ℚ) * 10) ≤
      2 * (tenths unit units * (unit * unitsInOne)) + unit * unitsInOne := by exact_mod_cast below
  have castAbove : 2 * (tenths unit units * ((unit : ℚ) * unitsInOne)) ≤
      2 * (units * 10) + unit * unitsInOne := by exact_mod_cast above
  rw [whole] at castBelow castAbove
  have least : 20 * value ≤ 2 * tenths unit units * unit + unit := by
    apply le_of_mul_le_mul_right _ one
    linarith
  have most : 2 * tenths unit units * (unit : ℚ) ≤ 20 * value + unit := by
    apply le_of_mul_le_mul_right _ one
    linarith
  rw [← exact, shownAmount, abs_le]
  constructor
  · linarith
  · linarith

end

namespace BinaryUnit

theorem ofBytes_spec (n : Nat) :
    (ofBytes n = .one ∧ n < 1024) ∨ (ofBytes n = .kibi ∧ 1024 ≤ n ∧ n < 1024 * 1024) ∨
      (ofBytes n = .mebi ∧ 1024 * 1024 ≤ n ∧ n < 1024 * 1024 * 1024) ∨
      (ofBytes n = .gibi ∧ 1024 * 1024 * 1024 ≤ n) := by
  by_cases giga : gibi.bytes ≤ n
  · exact Or.inr (Or.inr (Or.inr ⟨if_pos giga, giga⟩))
  by_cases mega : mebi.bytes ≤ n
  · have unit : ofBytes n = .mebi := (if_neg giga).trans (if_pos mega)
    exact Or.inr (Or.inr (Or.inl ⟨unit, mega, Nat.lt_of_not_le giga⟩))
  by_cases kilo : kibi.bytes ≤ n
  · have unit : ofBytes n = .kibi := (if_neg giga).trans ((if_neg mega).trans (if_pos kilo))
    exact Or.inr (Or.inl ⟨unit, kilo, Nat.lt_of_not_le mega⟩)
  · have unit : ofBytes n = .one := (if_neg giga).trans ((if_neg mega).trans (if_neg kilo))
    exact Or.inl ⟨unit, Nat.lt_of_not_le kilo⟩

theorem ofBytes_cases {a b : Nat} (atMost : a ≤ b) :
    ofBytes a = ofBytes b ∨
      ((ofBytes a).bytes ∣ (ofBytes b).bytes ∧ a < (ofBytes b).bytes ∧ (ofBytes b).bytes ≤ b) := by
  rcases ofBytes_spec a with low | low | low | low <;>
    rcases ofBytes_spec b with high | high | high | high <;>
    simp [low.1, high.1, bytes] <;> omega

theorem bytes_pos (unit : BinaryUnit) : 0 < unit.bytes := by
  cases unit <;> decide

theorem ofBytes_bytes_le {n : Nat} (large : ofBytes n ≠ .one) : (ofBytes n).bytes ≤ n := by
  rcases ofBytes_spec n with small | kilo | mega | giga
  · exact absurd small.1 large
  · rw [kilo.1]
    exact kilo.2.1
  · rw [mega.1]
    exact mega.2.1
  · rw [giga.1]
    exact giga.2

theorem bytes_eq (unit : BinaryUnit) : ∃ k ≤ 30, unit.bytes = 2 ^ k := by
  cases unit
  · exact ⟨0, by decide, rfl⟩
  · exact ⟨10, by decide, rfl⟩
  · exact ⟨20, by decide, rfl⟩
  · exact ⟨30, by decide, rfl⟩

theorem lookup_suffix (unit : BinaryUnit) (style : UnitStyle) :
    Quantity.sizeUnits.lookup (unit.suffix style) = some unit.bytes := by
  cases unit <;> cases style <;> rfl

theorem lookup_rateSuffix (style : UnitStyle) :
    Quantity.rateUnits.lookup (BinaryUnit.suffix style .mebi ++ "/s") = some 1 ∧
      Quantity.rateUnits.lookup (BinaryUnit.suffix style .gibi ++ "/s") = some 1024 := by
  cases style <;> exact ⟨rfl, rfl⟩

end BinaryUnit

theorem toFixed_finite (rank : Fin infinityRank) :
    (Binary64.finite false rank).toFixed 1 =
      String.ofList (placedText 1 (tenths 1 (unitsOfRank rank))) := by
  have ten : Nat.pow 10 1 = 10 := rfl
  simp only [Binary64.toFixed, Binary64.fixedText, Bool.false_eq_true, if_false, List.nil_append,
    ten, tenths, Nat.one_mul]

theorem toFixed_div (rank : Fin infinityRank) {k : Nat} (few : k ≤ 53)
    (large : 2 ^ k * unitsInOne ≤ unitsOfRank rank) :
    (Binary64.finite false rank / Binary64.ofNat (2 ^ k)).toFixed 1 =
      String.ofList (placedText 1 (tenths (2 ^ k) (unitsOfRank rank))) := by
  obtain ⟨shifted, units, quotient⟩ := Binary64.div_two_pow few large
  have figure : tenths 1 (unitsOfRank shifted) = tenths (2 ^ k) (unitsOfRank rank) := by
    rw [tenths, tenths, ← units, Nat.mul_comm (2 ^ k), Nat.mul_right_comm,
      roundHalfEven_scaled (Nat.two_pow_pos k), Nat.one_mul]
  rw [quotient, toFixed_finite, figure]

section

variable {negative : Bool} {rank : Fin infinityRank}

theorem unitsOfRank_eq_zero_iff {n : Nat} : unitsOfRank n = 0 ↔ n = 0 := by
  have zero : unitsOfRank 0 = 0 := rfl
  constructor
  · intro none
    have atMost := unitsOfRank_le_iff.mp (Nat.le_of_eq (none.trans zero.symm))
    omega
  · intro none
    rw [none, zero]

theorem atMost_zero_iff :
    (Binary64.finite negative rank).atMost .zero = true ↔
      negative = true ∨ unitsOfRank rank = 0 := by
  rw [unitsOfRank_eq_zero_iff]
  cases negative <;> simp [Binary64.atMost, Binary64.position?, Binary64.zero]

theorem atMost_rate_iff :
    (Binary64.ofNat 1024).atMost (.finite false rank) = true ↔
      1024 * unitsInOne ≤ unitsOfRank rank := by
  have ranks : (Binary64.ofNat 1024).atMost (.finite false rank) = true ↔
      rankOfNat 1024 ≤ rank := by
    rw [Binary64.ofNat_eq (by decide)]
    show decide ((rankOfNat 1024 : Int) ≤ rank) = true ↔ rankOfNat 1024 ≤ rank
    rw [decide_eq_true_iff, Int.ofNat_le]
  rw [ranks, ← unitsOfRank_le_iff, unitsOfRank_rankOfNat (by decide)]

end

namespace Quantity

theorem ofText?_tenths {units : List (String × Nat)} {suffix : String} {unit n : Nat}
    (stops : ∀ c ∈ suffix.toList.head?, isNumeral c = false)
    (known : units.lookup suffix = some unit) :
    ofText? units (String.ofList (placedText 1 n) ++ suffix) =
      some { number := { digits := n, exponent := -1 }, unit := unit } := by
  apply ofText?_append _ stops (readDecimal?_placedText 1 n) known
  intro c member
  rcases mem_placedText member with digit | point
  · rw [isNumeral, digit, Bool.true_or]
  · rw [point]
    rfl

theorem amount_tenths {n unit : Nat} :
    amount { number := { digits := n, exponent := -1 }, unit := unit } = n / 10 * unit := by
  rw [amount, Decimal.value, zpow_neg_one, div_eq_mul_inv]

theorem stops_suffix (unit : BinaryUnit) (style : UnitStyle) (rest : String) :
    ∀ c ∈ (unit.suffix style ++ rest).toList.head?, isNumeral c = false := by
  rw [String.toList_append]
  cases unit <;> cases style <;> intro c first <;> cases first <;> decide

theorem ofText?_bytesText {bytes : Nat} (fits : bytes < 2 ^ 64) (style : UnitStyle) :
    ∃ read, ofText? sizeUnits (bytesText bytes style) = some read ∧
      read.unit = (BinaryUnit.ofBytes bytes).bytes ∧
      read.amount = shownAmount read.unit (unitsOfRank (rankOfNat bytes)) := by
  have stops := stops_suffix (BinaryUnit.ofBytes bytes) style ""
  have known := (BinaryUnit.ofBytes bytes).lookup_suffix style
  rw [String.append_empty] at stops
  unfold bytesText
  dsimp only
  by_cases small : BinaryUnit.ofBytes bytes = .one
  · rw [if_pos small]
    have digits : ∀ c ∈ Text.digits bytes, c.isDigit = true := fun _ member =>
      Text.isDigit_of_mem_digits member
    have numerals : ∀ c ∈ Text.digits bytes, isNumeral c = true := by
      intro c member
      rw [isNumeral, digits c member, Bool.true_or]
    have number := readDecimal?_whole (Text.digits_ne_nil bytes) digits
    rw [Text.digitsValue_digits] at number
    refine ⟨_, ofText?_append numerals stops number known, rfl, ?_⟩
    rw [small] at known ⊢
    have exact : unitsOfRank (rankOfNat bytes) = bytes * unitsInOne := by
      apply unitsOfRank_rankOfNat
      rcases BinaryUnit.ofBytes_spec bytes with low | high | high | high
      · omega
      all_goals
        rw [small] at high
        cases high.1
    have ten : tenths 1 (bytes * unitsInOne) = bytes * 10 := by
      rw [tenths, Nat.mul_right_comm, Nat.one_mul, roundHalfEven_mul _ unitsInOne_pos]
    show (bytes : ℚ) * 10 ^ (0 : Int) * (1 : Nat) = shownAmount 1 _
    rw [exact, shownAmount, ten]
    push_cast
    ring
  · obtain ⟨k, few, power⟩ := (BinaryUnit.ofBytes bytes).bytes_eq
    have least : 2 ^ k ≤ bytes := power ▸ BinaryUnit.ofBytes_bytes_le small
    have large : 2 ^ k * unitsInOne ≤ unitsOfRank (rankOfNat bytes) := by
      have exact : 2 ^ k ≤ 2 ^ 53 := Nat.pow_le_pow_right (by decide) (by omega)
      rw [← unitsOfRank_rankOfNat exact]
      exact unitsOfRank_le_iff.mpr (rankOfNat_mono least)
    have fits : bytes ≤ 2 ^ 64 := Nat.le_of_lt fits
    have figure := toFixed_div ⟨rankOfNat bytes, rankOfNat_lt_infinityRank fits⟩
      (Nat.le_trans few (by decide)) large
    rw [← Binary64.ofNat_eq fits, ← power] at figure
    rw [if_neg small, figure]
    exact ⟨_, ofText?_tenths stops known, rfl, amount_tenths⟩

/-- The unit that a positive rate is written in, in MiB/s. -/
def rateUnit (units : Nat) : Nat := if 1024 * unitsInOne ≤ units then 1024 else 1

theorem rateUnit_pos (units : Nat) : 0 < rateUnit units := by
  unfold rateUnit
  split <;> decide

theorem ofText?_rateText {rate : Binary64} {units : Int} (finite : rate.units? = some units)
    (style : UnitStyle) :
    ∃ read, ofText? rateUnits (rateText rate style) = some read ∧
      read.unit = rateUnit units.toNat ∧
      read.amount = shownAmount read.unit units.toNat := by
  cases rate with
  | nan => cases finite
  | infinite negative => cases finite
  | finite negative rank =>
    obtain rfl := Option.some.inj finite
    unfold rateText
    by_cases idle : (Binary64.finite negative rank).atMost .zero = true
    · rw [if_pos idle]
      have none : (if negative = true then -(unitsOfRank rank : Int) else unitsOfRank rank).toNat =
          0 := by
        rcases atMost_zero_iff.mp idle with rfl | zero
        · simp
        · simp [zero]
      have bare : ofText? rateUnits "0" =
          some { number := { digits := 0, exponent := 0 }, unit := 1 } := by decide +kernel
      have unit : rateUnit 0 = 1 := by
        rw [rateUnit, if_neg]
        exact Nat.not_le_of_lt (Nat.mul_pos (by decide) unitsInOne_pos)
      have nothing : tenths 1 0 = 0 := by
        simp [tenths, roundHalfEven, unitsInOne_pos]
      refine ⟨_, bare, ?_⟩
      rw [none, unit]
      refine ⟨rfl, ?_⟩
      rw [shownAmount, nothing]
      simp [amount, Decimal.value]
    · rw [if_neg idle]
      obtain ⟨sign, given⟩ := not_or.mp fun either => idle (atMost_zero_iff.mpr either)
      obtain rfl := Bool.eq_false_of_not_eq_true sign
      rw [if_neg Bool.false_ne_true, Int.toNat_natCast]
      by_cases large : 1024 * unitsInOne ≤ unitsOfRank rank
      · have kibi : 2 ^ 10 = 1024 := by decide
        have figure := toFixed_div rank (show 10 ≤ 53 by decide) (kibi ▸ large)
        rw [kibi] at figure
        rw [if_pos (atMost_rate_iff.mpr large), figure, String.append_assoc, rateUnit, if_pos large]
        exact ⟨_, ofText?_tenths (stops_suffix _ style _) (BinaryUnit.lookup_rateSuffix style).2, rfl,
          amount_tenths⟩
      · rw [if_neg fun above => large (atMost_rate_iff.mp above), toFixed_finite,
          String.append_assoc, rateUnit, if_neg large]
        exact ⟨_, ofText?_tenths (stops_suffix _ style _) (BinaryUnit.lookup_rateSuffix style).1, rfl,
          amount_tenths⟩

theorem unitsOfRank_bytes (unit : BinaryUnit) :
    unitsOfRank (rankOfNat unit.bytes) = unit.bytes * unitsInOne := by
  obtain ⟨k, few, power⟩ := unit.bytes_eq
  rw [power]
  exact unitsOfRank_rankOfNat (Nat.pow_le_pow_right (by decide) (by omega))

theorem size_mono {a b : Nat} (atMost : a ≤ b) :
    shownAmount (BinaryUnit.ofBytes a).bytes (unitsOfRank (rankOfNat a)) ≤
      shownAmount (BinaryUnit.ofBytes b).bytes (unitsOfRank (rankOfNat b)) := by
  have positive := (BinaryUnit.ofBytes a).bytes_pos
  rcases BinaryUnit.ofBytes_cases atMost with same | ⟨divides, below, reached⟩
  · rw [← same]
    exact shownAmount_mono positive (unitsOfRank_le_iff.mpr (rankOfNat_mono atMost))
  · have threshold := unitsOfRank_bytes (BinaryUnit.ofBytes b)
    calc
      _ ≤ ((BinaryUnit.ofBytes b).bytes : ℚ) := by
        apply shownAmount_le positive divides
        rw [← threshold]
        exact unitsOfRank_le_iff.mpr (rankOfNat_mono (Nat.le_of_lt below))
      _ ≤ _ := by
        apply le_shownAmount (BinaryUnit.ofBytes b).bytes_pos
        rw [← threshold]
        exact unitsOfRank_le_iff.mpr (rankOfNat_mono reached)

theorem rounding_near {n : Nat} (fits : n < 2 ^ 64) :
    |(unitsOfRank (rankOfNat n) : ℚ) / unitsInOne - n| ≤ if 2 ^ 53 < n then 1024 else 0 := by
  have one : (0 : ℚ) < unitsInOne := by exact_mod_cast unitsInOne_pos
  split
  · obtain ⟨above, below⟩ := rankOfNat_near fits
    have castAbove : (unitsOfRank (rankOfNat n) : ℚ) ≤ (n + 1024) * unitsInOne := by
      rw [add_mul]
      exact_mod_cast above
    have castBelow : ((n : ℚ) - 1024) * unitsInOne ≤ unitsOfRank (rankOfNat n) := by
      rw [sub_mul, sub_le_iff_le_add]
      exact_mod_cast below
    have most := (div_le_iff₀ one).mpr castAbove
    have least := (le_div_iff₀ one).mpr castBelow
    rw [abs_le]
    constructor
    · linarith
    · linarith
  · rename_i small
    rw [unitsOfRank_rankOfNat (Nat.le_of_not_lt small), Nat.cast_mul,
      mul_div_cancel_right₀ _ one.ne', sub_self, abs_zero]

theorem rate_mono {units otherUnits : Nat} (atMost : units ≤ otherUnits) :
    shownAmount (rateUnit units) units ≤ shownAmount (rateUnit otherUnits) otherUnits := by
  by_cases low : 1024 * unitsInOne ≤ units
  · have high := Nat.le_trans low atMost
    rw [rateUnit, if_pos low, rateUnit, if_pos high]
    exact shownAmount_mono (by decide) atMost
  · rw [rateUnit, if_neg low]
    by_cases high : 1024 * unitsInOne ≤ otherUnits
    · rw [rateUnit, if_pos high]
      calc
        shownAmount 1 units ≤ ((1024 : Nat) : ℚ) :=
          shownAmount_le (by decide) (by decide) (Nat.le_of_not_le low)
        _ ≤ shownAmount 1024 otherUnits := le_shownAmount (by decide) high
    · rw [rateUnit, if_neg high]
      exact shownAmount_mono (by decide) atMost

/-- Texts for people keep the order of what they are written for, across units and styles, and are
within half of the last place that is written; sizes from `2 ^ 53` bytes on are first rounded to a
64-bit number, which adds 1024 bytes at most. -/
theorem texts_keepOrder :
    (∀ (a b : Nat) (style other : UnitStyle), a ≤ b → b < 2 ^ 64 →
      ∃ low high, ofText? sizeUnits (bytesText a style) = some low ∧
        ofText? sizeUnits (bytesText b other) = some high ∧ low.amount ≤ high.amount ∧
        |low.amount - a| ≤ low.unit / 20 + (if 2 ^ 53 < a then 1024 else 0)) ∧
    ∀ (x y : Binary64) (style other : UnitStyle) (p q : ℚ),
      x.value? = some p → y.value? = some q → p ≤ q →
      ∃ low high, ofText? rateUnits (rateText x style) = some low ∧
        ofText? rateUnits (rateText y other) = some high ∧ low.amount ≤ high.amount ∧
        (0 < p → |low.amount - p| ≤ low.unit / 20) := by
  have one : (0 : ℚ) < unitsInOne := by exact_mod_cast unitsInOne_pos
  constructor
  · intro a b style other atMost fits
    have fitsLow : a < 2 ^ 64 := Nat.lt_of_le_of_lt atMost fits
    obtain ⟨low, read, unit, amount⟩ := ofText?_bytesText fitsLow style
    obtain ⟨high, readOther, otherUnit, otherAmount⟩ := ofText?_bytesText fits other
    refine ⟨low, high, read, readOther, ?_, ?_⟩
    · rw [amount, otherAmount, unit, otherUnit]
      exact size_mono atMost
    · have written := shownAmount_near (BinaryUnit.ofBytes a).bytes_pos
        (unitsOfRank (rankOfNat a))
      rw [← unit, ← amount] at written
      have rounded := rounding_near fitsLow
      have both := abs_sub_le low.amount (unitsOfRank (rankOfNat a) / unitsInOne) a
      linarith
  · intro x y style other p q value otherValue atMost
    obtain ⟨units, finite, rfl⟩ := Option.map_eq_some_iff.mp value
    obtain ⟨otherUnits, otherFinite, rfl⟩ := Option.map_eq_some_iff.mp otherValue
    obtain ⟨low, read, unit, amount⟩ := ofText?_rateText finite style
    obtain ⟨high, readOther, otherUnit, otherAmount⟩ := ofText?_rateText otherFinite other
    have ordered : units ≤ otherUnits := by
      have cast := (div_le_div_iff_of_pos_right one).mp atMost
      exact_mod_cast cast
    refine ⟨low, high, read, readOther, ?_, fun positive => ?_⟩
    · rw [amount, otherAmount, unit, otherUnit]
      exact rate_mono (Int.toNat_le_toNat ordered)
    · have some : (0 : ℚ) < units := (div_pos_iff_of_pos_right one).mp positive
      have nat : ((units.toNat : Nat) : ℚ) = units := by
        have whole : ((units.toNat : Nat) : Int) = units :=
          Int.toNat_of_nonneg (by exact_mod_cast some.le)
        exact_mod_cast whole
      have written := shownAmount_near (rateUnit_pos units.toNat) units.toNat
      rw [← unit, ← amount, nat] at written
      exact written

theorem texts_keepOrder_nextUnit :
    (1048575 ≤ 1048576 ∧ 1048576 < 2 ^ 64 ∧
      ∃ low high, ofText? sizeUnits (bytesText 1048575 .compact) = some low ∧
        ofText? sizeUnits (bytesText 1048576 .detail) = some high ∧ low.amount ≤ high.amount ∧
        |low.amount - (1048575 : Nat)| ≤
          low.unit / 20 + (if 2 ^ 53 < 1048575 then 1024 else 0)) ∧
    (Binary64.ofNat 1023).value? = some (1023 : Nat) ∧
    (Binary64.ofNat 1024).value? = some (1024 : Nat) ∧ ((1023 : Nat) : ℚ) ≤ (1024 : Nat) ∧
    ∃ low high, ofText? rateUnits (rateText (.ofNat 1023) .compact) = some low ∧
      ofText? rateUnits (rateText (.ofNat 1024) .detail) = some high ∧ low.amount ≤ high.amount ∧
      (0 < ((1023 : Nat) : ℚ) → |low.amount - (1023 : Nat)| ≤ low.unit / 20) := by
  have low : (Binary64.ofNat 1023).value? = some (1023 : Nat) :=
    Binary64.value?_ofNat (by decide)
  have high : (Binary64.ofNat 1024).value? = some (1024 : Nat) :=
    Binary64.value?_ofNat (by decide)
  have ordered : ((1023 : Nat) : ℚ) ≤ (1024 : Nat) := by norm_num
  exact ⟨⟨by decide, by decide, texts_keepOrder.1 _ _ _ _ (by decide) (by decide)⟩, low, high, ordered,
    texts_keepOrder.2 _ _ _ _ _ _ low high ordered⟩

example : bytesText 1048575 .compact = "1024.0K" ∧ bytesText 1048576 .compact = "1.0M" := by
  decide +kernel

end Quantity

end Campaign
