import Campaign.Json
import Campaign.Proofs.FigureText
import Mathlib.Algebra.Group.Nat.Defs
import Mathlib.Data.List.DropRight

namespace Campaign

section

variable {num den otherNum otherDen factor : Nat}

theorem roundHalfEven_scaled (positive : 0 < factor) :
    roundHalfEven (num * factor) (den * factor) = roundHalfEven num den := by
  have double : 2 * (num % den * factor) = 2 * (num % den) * factor :=
    (Nat.mul_assoc _ _ _).symm
  have less : 2 * (num % den) * factor < den * factor ↔ 2 * (num % den) < den :=
    Nat.mul_lt_mul_right positive
  have tie : 2 * (num % den) * factor = den * factor ↔ 2 * (num % den) = den :=
    Nat.mul_left_inj (Nat.ne_of_gt positive)
  simp only [roundHalfEven, Nat.mul_div_mul_right _ _ positive, Nat.mul_mod_mul_right, double, less,
    tie]

theorem nearestRank_scaled (positive : 0 < factor) :
    nearestRank (num * factor) (den * factor) = nearestRank num den := by
  have spacing : ∀ step, den * factor * step = den * step * factor := fun step =>
    Nat.mul_right_comm den factor step
  simp only [nearestRank, Nat.mul_div_mul_right _ _ positive, spacing,
    roundHalfEven_scaled positive]

theorem nearestRank_congr (positive : 0 < den) (otherPositive : 0 < otherDen)
    (same : num * otherDen = otherNum * den) :
    nearestRank num den = nearestRank otherNum otherDen := by
  rw [← nearestRank_scaled otherPositive, same, Nat.mul_comm den, nearestRank_scaled positive]

end

namespace Decimal

variable {n k : Nat} {exponent : Int}

theorem rank_shift :
    rank { digits := n * 10 ^ k, exponent := exponent } =
      rank { digits := n, exponent := exponent + k } := by
  have places : k + exponent.toNat + (-(exponent + k)).toNat =
      (exponent + k).toNat + (-exponent).toNat := by omega
  have powers := congrArg (10 ^ ·) places
  simp only [Nat.pow_add] at powers
  unfold rank numerator denominator
  simp only [Nat.pow_eq]
  generalize unitsInOne = unit
  apply nearestRank_congr (Nat.pow_pos (by decide)) (Nat.pow_pos (by decide))
  calc
    n * 10 ^ k * 10 ^ exponent.toNat * unit * 10 ^ (-(exponent + k)).toNat =
        n * unit * (10 ^ k * 10 ^ exponent.toNat * 10 ^ (-(exponent + k)).toNat) := by
      simp only [Nat.mul_assoc, Nat.mul_comm, Nat.mul_left_comm]
    _ = n * unit * (10 ^ (exponent + k).toNat * 10 ^ (-exponent).toNat) := by rw [powers]
    _ = n * 10 ^ (exponent + k).toNat * unit * 10 ^ (-exponent).toNat := by
      simp only [Nat.mul_assoc, Nat.mul_comm, Nat.mul_left_comm]

theorem rank_exactDecimal (rank : Nat) : (exactDecimal (unitsOfRank rank)).rank = rank := by
  have tens : Nat.pow 5 1074 * unitsInOne = Nat.pow 10 (- -1074 : Int).toNat := by decide +kernel
  have whole : Nat.pow 10 (-1074 : Int).toNat = 1 := rfl
  have exact : (exactDecimal (unitsOfRank rank)).numerator =
      unitsOfRank rank * (exactDecimal (unitsOfRank rank)).denominator := by
    unfold numerator denominator exactDecimal
    rw [whole, Nat.mul_one, Nat.mul_assoc, tens]
  rw [Decimal.rank, exact]
  exact nearestRank_unitsOfRank rank (Nat.pow_pos (by decide))

end Decimal

theorem rank_of_nearestOnGrid? {units rank : Nat} {exponent : Int} {decimal : Decimal}
    (found : nearestOnGrid? units rank exponent = some decimal) : decimal.rank = rank := by
  unfold nearestOnGrid? at found
  dsimp only at found
  split at found
  · rename_i below
    split at found
    · rename_i above
      cases found
      exact above.1
    · cases found
      exact below
  · split at found
    · rename_i above
      cases found
      exact above
    · cases found

theorem rank_shortestDecimal (rank : Nat) : (shortestDecimal rank).rank = rank := by
  have either : ∀ found : Option Decimal, (∀ decimal, found = some decimal → decimal.rank = rank) →
      (found.getD (exactDecimal (unitsOfRank rank))).rank = rank := by
    intro found onGrid
    cases found with
    | none => exact Decimal.rank_exactDecimal rank
    | some decimal => exact onGrid decimal rfl
  apply either
  intro decimal found
  obtain ⟨_, _, onGrid⟩ := List.exists_of_findSome?_eq_some found
  exact rank_of_nearestOnGrid? onGrid

theorem digitsValue_zeros (text : List Char) (k : Nat) :
    Text.digitsValue (List.replicate k '0' ++ text) = Text.digitsValue text ∧
      Text.digitsValue (text ++ List.replicate k '0') = Text.digitsValue text * 10 ^ k := by
  have zero : Text.digitsValue (List.replicate k '0') = 0 := by
    rw [Text.digitsValue, Nat.ofDigitChars_replicate_zero, Nat.mul_zero]
  rw [Text.digitsValue_append, Text.digitsValue_append, zero, List.length_replicate, Nat.pow_eq,
    Nat.pow_eq]
  constructor
  · rw [Nat.mul_zero, Nat.zero_add]
  · rw [Nat.add_zero, Nat.mul_comm]

namespace Json

theorem digits_eq_significantDigits (n : Nat) :
    ∃ k, Text.digits n = significantDigits n ++ List.replicate k '0' := by
  have split : significantDigits n ++ (Text.digits n).rtakeWhile (· = '0') = Text.digits n :=
    List.rdropWhile_append_rtakeWhile
  have zeros : ∀ c ∈ (Text.digits n).rtakeWhile (· = '0'), c = '0' := by
    intro c member
    simpa using List.mem_rtakeWhile_imp member
  exact ⟨_, by rw [← List.eq_replicate_of_mem zeros, split]⟩

theorem isDigit_of_mem_significantDigits {n : Nat} {c : Char} (member : c ∈ significantDigits n) :
    c.isDigit = true := by
  obtain ⟨k, cut⟩ := digits_eq_significantDigits n
  apply Text.isDigit_of_mem_digits (n := n)
  rw [cut]
  exact List.mem_append_left _ member

theorem readExponent?_digits (exponent : Int) :
    readExponent? ('e' :: (if exponent < 0 then '-' else '+') :: Text.digits exponent.natAbs) =
      some exponent := by
  unfold readExponent?
  by_cases negative : exponent < 0
  · have size : -(exponent.natAbs : Int) = exponent := by omega
    simp only [negative, splitSign, Text.isNatural_digits, Text.digitsValue_digits, if_true, size]
    rfl
  · have size : (exponent.natAbs : Int) = exponent := by omega
    simp only [negative, splitSign, Text.isNatural_digits, Text.digitsValue_digits, if_false, size]
    rfl

section

variable {digits : List Char} (given : digits ≠ []) (isDigit : ∀ c ∈ digits, c.isDigit = true)

include given isDigit

theorem readDecimal?_scientific (exponent : Int) :
    readDecimal? (digits.take 1 ++ (if digits.length ≤ 1 then [] else '.' :: digits.drop 1) ++
        'e' :: (if exponent < 0 then '-' else '+') :: Text.digits exponent.natAbs) =
      some
        { digits := Text.digitsValue digits, exponent := exponent + 1 - digits.length } := by
  have sign : ∀ c ∈ ('e' :: (if exponent < 0 then '-' else '+') ::
      Text.digits exponent.natAbs).head?, c.isDigit = false ∧ c ≠ '.' := by
    intro c first
    cases first
    exact ⟨rfl, by decide⟩
  by_cases single : digits.length ≤ 1
  · have some : 0 < digits.length := List.length_pos_iff.mpr given
    have one : digits.length = 1 := by omega
    rw [if_pos single, List.append_nil, List.take_of_length_le single,
      readDecimal?_whole_append given isDigit sign, readExponent?_digits, Option.map_some, one]
    simp
  · have taken : digits.take 1 ≠ [] := by simp [given]
    have takenDigits : ∀ c ∈ digits.take 1, c.isDigit = true := fun c member =>
      isDigit c (List.mem_of_mem_take member)
    have droppedDigits : ∀ c ∈ digits.drop 1, c.isDigit = true := fun c member =>
      isDigit c (List.mem_of_mem_drop member)
    rw [if_neg single, List.append_assoc, List.cons_append,
      readDecimal?_point_append taken takenDigits droppedDigits fun c first => (sign c first).1,
      readExponent?_digits, Option.map_some, List.take_append_drop, List.length_drop]
    congr 2
    omega

theorem readDecimal?_cut {n : Nat} (positive : 0 < n) :
    readDecimal? (digits.take n ++ '.' :: digits.drop n) =
      some
        { digits := Text.digitsValue digits
          exponent := -((digits.length - n : Nat) : Int) } := by
  have taken : digits.take n ≠ [] := by simp [given, Nat.ne_of_gt positive]
  rw [readDecimal?_point taken (fun c member => isDigit c (List.mem_of_mem_take member))
    fun c member => isDigit c (List.mem_of_mem_drop member), List.take_append_drop,
    List.length_drop]

omit given in
theorem readDecimal?_belowOne (k : Nat) :
    readDecimal? ('0' :: '.' :: List.replicate k '0' ++ digits) =
      some
        { digits := Text.digitsValue digits, exponent := -((k + digits.length : Nat) : Int) } := by
  have fractionDigits : ∀ c ∈ List.replicate k '0' ++ digits, c.isDigit = true := by
    intro c member
    rcases List.mem_append.mp member with zero | digit
    · rw [List.eq_of_mem_replicate zero]
      rfl
    · exact isDigit c digit
  have wholeDigits : ∀ c ∈ ['0'], c.isDigit = true := List.forall_mem_singleton.mpr rfl
  have read := readDecimal?_point (List.cons_ne_nil '0' []) wholeDigits fractionDigits
  have zeros : ['0'] ++ (List.replicate k '0' ++ digits) =
      List.replicate (k + 1) '0' ++ digits := by
    rw [List.replicate_succ]
    rfl
  rw [zeros, (digitsValue_zeros digits (k + 1)).1, List.length_append, List.length_replicate] at read
  exact read

theorem readDecimal?_zeros (k : Nat) :
    readDecimal? (digits ++ List.replicate k '0' ++ ['.', '0']) =
      some { digits := Text.digitsValue digits * 10 ^ (k + 1), exponent := -1 } := by
  have wholeDigits : ∀ c ∈ digits ++ List.replicate k '0', c.isDigit = true := by
    intro c member
    rcases List.mem_append.mp member with digit | zero
    · exact isDigit c digit
    · rw [List.eq_of_mem_replicate zero]
      rfl
  have whole : digits ++ List.replicate k '0' ≠ [] := by simp [given]
  have fractionDigits : ∀ c ∈ ['0'], c.isDigit = true := List.forall_mem_singleton.mpr rfl
  have read := readDecimal?_point whole wholeDigits fractionDigits
  have zeros : digits ++ List.replicate k '0' ++ ['0'] =
      digits ++ List.replicate (k + 1) '0' := by
    rw [List.append_assoc, List.replicate_succ']
  rw [zeros, (digitsValue_zeros digits (k + 1)).2] at read
  exact read

/-- Digits are read back in every notation; in one of them zeros are added. -/
theorem readDecimal?_decimal (exponent : Int) :
    ∃ k : Nat, readDecimal? (decimal digits exponent) =
      some
        { digits := Text.digitsValue digits * 10 ^ k
          exponent := exponent + 1 - digits.length - k } := by
  unfold decimal
  split
  · exact ⟨0, by rw [readDecimal?_scientific given isDigit]; simp⟩
  · split
    · refine ⟨0, ?_⟩
      rw [readDecimal?_belowOne isDigit]
      simp
      omega
    · dsimp only
      split
      · refine ⟨exponent.toNat + 1 - digits.length + 1, ?_⟩
        rw [readDecimal?_zeros given isDigit]
        simp
        omega
      · refine ⟨0, ?_⟩
        rw [readDecimal?_cut given isDigit (Nat.succ_pos _)]
        simp
        omega

end

theorem readDecimal?_significantDigits {written : Decimal} (nonzero : written.digits ≠ 0) :
    ∃ read, readDecimal? (decimal (significantDigits written.digits) (written.leadingPlace - 1)) =
        some read ∧
      read.rank = written.rank := by
  obtain ⟨n, exponent⟩ := written
  obtain ⟨k, cut⟩ := digits_eq_significantDigits n
  have value : Text.digitsValue (significantDigits n) * 10 ^ k = n := by
    rw [← (digitsValue_zeros _ k).2, ← cut, Text.digitsValue_digits]
  have given : significantDigits n ≠ [] := by
    intro none
    rw [none] at value
    exact nonzero (value.symm.trans (Nat.zero_mul _))
  have isDigit : ∀ c ∈ significantDigits n, c.isDigit = true := fun _ member =>
    isDigit_of_mem_significantDigits member
  have place : Decimal.leadingPlace { digits := n, exponent := exponent } =
      ((significantDigits n).length + k : Nat) + exponent := by
    rw [Decimal.leadingPlace, cut, List.length_append, List.length_replicate]
  obtain ⟨zeros, read⟩ := readDecimal?_decimal given isDigit
    (Decimal.leadingPlace { digits := n, exponent := exponent } - 1)
  refine ⟨_, read, ?_⟩
  have same : Decimal.leadingPlace { digits := n, exponent := exponent } - 1 + 1 -
      (significantDigits n).length - zeros + zeros = exponent + k := by
    rw [place]
    omega
  rw [Decimal.rank_shift, same, ← Decimal.rank_shift, value]

theorem rank_of_digits_zero {written : Decimal} (zero : written.digits = 0) :
    written.rank = 0 := by
  have none : written.numerator = 0 := by
    rw [Decimal.numerator, zero, Nat.zero_mul, Nat.zero_mul]
  rw [Decimal.rank, none]
  simp only [nearestRank, roundHalfEven, Nat.zero_div, Nat.zero_mod]
  simp +contextual [eq_comm]

theorem readDecimal?_magnitude (rank : Nat) :
    ∃ read, readDecimal? (magnitude rank) = some read ∧ read.rank = rank := by
  unfold magnitude
  by_cases zero : rank = 0
  · refine ⟨{ digits := 0, exponent := -1 }, ?_, ?_⟩
    · rw [if_pos zero]
      rfl
    · rw [rank_of_digits_zero rfl, zero]
  · have nonzero : (shortestDecimal rank).digits ≠ 0 := by
      intro none
      have same := rank_of_digits_zero none
      rw [rank_shortestDecimal] at same
      exact zero same
    obtain ⟨read, given, same⟩ := readDecimal?_significantDigits nonzero
    rw [if_neg zero]
    exact ⟨read, given, same.trans (rank_shortestDecimal rank)⟩

theorem splitSign_of_readDecimal? {text : List Char} {read : Decimal}
    (given : readDecimal? text = some read) (negative : Bool) :
    splitSign ((if negative then ['-'] else []) ++ text) = (negative, text) := by
  cases negative with
  | true => rfl
  | false =>
    show splitSign text = (false, text)
    unfold splitSign
    split
    · simp [readDecimal?] at given
    · simp [readDecimal?] at given
    · rfl

end Json

namespace Binary64

def isFinite : Binary64 → Bool
  | .finite _ _ => true
  | _ => false

theorem eq_of_number_eq {x y : Binary64} (xFinite : x.isFinite = true) (yFinite : y.isFinite = true)
    (same : Json.number x = Json.number y) : x = y := by
  match x, y, xFinite, yFinite with
  | .finite negative rank, .finite otherNegative otherRank, _, _ =>
    obtain ⟨read, given, nearest⟩ := Json.readDecimal?_magnitude rank
    obtain ⟨otherRead, otherGiven, otherNearest⟩ := Json.readDecimal?_magnitude otherRank
    have split := congrArg splitSign same
    rw [Json.number, Json.number, Json.splitSign_of_readDecimal? given,
      Json.splitSign_of_readDecimal? otherGiven, Prod.mk.injEq] at split
    obtain ⟨signs, magnitudes⟩ := split
    rw [magnitudes, otherGiven, Option.some.injEq] at given
    rw [← given, otherNearest] at nearest
    rw [signs, Fin.ext nearest]

end Binary64

end Campaign
