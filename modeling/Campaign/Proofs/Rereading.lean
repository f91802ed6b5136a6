import Campaign.Proofs.FigureText
import Mathlib.Algebra.Group.Nat.Defs

namespace Campaign

section

variable {num den n : Nat}

theorem le_roundHalfEven (least : n * den ≤ num) (positive : 0 < den) :
    n ≤ roundHalfEven num den := by
  have down : n ≤ num / den := (Nat.le_div_iff_mul_le positive).mpr least
  unfold roundHalfEven
  dsimp only
  split <;> omega

theorem roundHalfEven_le (most : num ≤ n * den) (positive : 0 < den) :
    roundHalfEven num den ≤ n := by
  rcases Nat.eq_or_lt_of_le most with rfl | less
  · rw [roundHalfEven_mul n positive]
  · have down : num / den < n := (Nat.div_lt_iff_lt_mul positive).mpr less
    unfold roundHalfEven
    dsimp only
    split <;> omega

theorem roundHalfEven_near (num : Nat) (positive : 0 < den) :
    2 * num ≤ 2 * (roundHalfEven num den * den) + den ∧
      2 * (roundHalfEven num den * den) ≤ 2 * num + den := by
  have whole := Nat.div_add_mod' num den
  have rest := Nat.mod_lt num positive
  have next : (num / den + 1) * den = num / den * den + den := Nat.succ_mul _ _
  unfold roundHalfEven
  dsimp only
  split
  · omega
  · rw [next]
    omega

theorem roundHalfEven_of_near (above : 2 * num < 2 * (n * den) + den)
    (below : 2 * (n * den) < 2 * num + den) : roundHalfEven num den = n := by
  have positive : 0 < den := by omega
  by_cases least : n * den ≤ num
  · have down : num / den = n := by
      apply Nat.div_eq_of_lt_le least
      rw [Nat.succ_mul]
      omega
    have whole := Nat.div_add_mod' num den
    rw [down] at whole
    unfold roundHalfEven
    dsimp only
    rw [down, if_pos (by omega)]
  · obtain ⟨m, rfl⟩ : ∃ m, n = m + 1 := by
      cases n with
      | zero => omega
      | succ m => exact ⟨m, rfl⟩
    have next : (m + 1) * den = m * den + den := Nat.succ_mul m den
    have down : num / den = m := by
      apply Nat.div_eq_of_lt_le
      · omega
      · omega
    have whole := Nat.div_add_mod' num den
    rw [down] at whole
    unfold roundHalfEven
    dsimp only
    rw [down, if_neg (by omega)]

end

/-- The magnitude of a rank that is put together from a scale and a significand; the significand
may also be the first one that is too large for the scale. -/
theorem unitsOfRank_scaled {s significand : Nat} (small : significand ≤ 2 ^ 53)
    (large : s = 0 ∨ 2 ^ 52 ≤ significand) :
    unitsOfRank (s * 2 ^ 52 + significand) = significand * 2 ^ s := by
  unfold unitsOfRank
  simp only [Nat.pow_eq]
  by_cases below : significand < 2 ^ 52
  · have none : s = 0 := by omega
    subst none
    rw [if_pos (by omega)]
    omega
  · rw [if_neg (by omega)]
    by_cases full : significand = 2 ^ 53
    · have quotient : (s * 2 ^ 52 + significand) / 2 ^ 52 - 1 = s + 1 := by omega
      have rest : 2 ^ 52 + (s * 2 ^ 52 + significand) % 2 ^ 52 = 2 ^ 52 := by omega
      have double : 2 ^ (s + 1) = 2 * 2 ^ s := Nat.pow_succ'
      rw [quotient, rest, full, double]
      omega
    · have quotient : (s * 2 ^ 52 + significand) / 2 ^ 52 = s + 1 := by omega
      have rest : 2 ^ 52 + (s * 2 ^ 52 + significand) % 2 ^ 52 = significand := by omega
      rw [quotient, rest, Nat.add_sub_cancel]

theorem exists_scale (rank : Nat) :
    ∃ s m, rank = s * 2 ^ 52 + m ∧ m < 2 ^ 53 ∧ (s = 0 ∨ 2 ^ 52 ≤ m) ∧
      unitsOfRank rank = m * 2 ^ s := by
  by_cases small : rank < 2 ^ 52
  · refine ⟨0, rank, by omega, by omega, Or.inl rfl, ?_⟩
    unfold unitsOfRank
    rw [Nat.pow_eq, if_pos small, Nat.pow_zero, Nat.mul_one]
  · have cut : rank = (rank / 2 ^ 52 - 1) * 2 ^ 52 + (2 ^ 52 + rank % 2 ^ 52) := by omega
    have high : 2 ^ 52 + rank % 2 ^ 52 < 2 ^ 53 := by omega
    have low : 2 ^ 52 ≤ 2 ^ 52 + rank % 2 ^ 52 := Nat.le_add_right _ _
    refine ⟨_, _, cut, high, Or.inr low, ?_⟩
    rw [← unitsOfRank_scaled (Nat.le_of_lt high) (Or.inr low), ← cut]

theorem nearestRank_spec (num : Nat) {den : Nat} (positive : 0 < den) :
    ∃ s significand, s = (num / den).log2 - 52 ∧ significand ≤ 2 ^ 53 ∧
      (s = 0 ∨ 2 ^ 52 ≤ significand) ∧ nearestRank num den = s * 2 ^ 52 + significand ∧
      significand = roundHalfEven num (den * 2 ^ s) ∧
      unitsOfRank (nearestRank num den) = significand * 2 ^ s := by
  obtain ⟨s, scale⟩ : ∃ s, s = (num / den).log2 - 52 := ⟨_, rfl⟩
  have spacing : 0 < den * 2 ^ s := Nat.mul_pos positive (Nat.two_pow_pos s)
  have rank : nearestRank num den = s * 2 ^ 52 + roundHalfEven num (den * 2 ^ s) := by
    rw [scale]
    rfl
  have small : roundHalfEven num (den * 2 ^ s) ≤ 2 ^ 53 := by
    apply roundHalfEven_le _ spacing
    have below : num / den < 2 ^ (53 + s) :=
      Nat.lt_of_lt_of_le Nat.lt_log2_self (Nat.pow_le_pow_right (by decide) (by omega))
    have most := (Nat.div_lt_iff_lt_mul positive).mp below
    rw [Nat.pow_add, Nat.mul_assoc, Nat.mul_comm (2 ^ s)] at most
    exact Nat.le_of_lt most
  have large : s = 0 ∨ 2 ^ 52 ≤ roundHalfEven num (den * 2 ^ s) := by
    by_cases none : s = 0
    · exact Or.inl none
    · right
      apply le_roundHalfEven _ spacing
      have given : num / den ≠ 0 := by
        intro zero
        rw [zero] at scale
        simp at scale
        exact none scale
      have above : 2 ^ (52 + s) ≤ num / den :=
        Nat.le_trans (Nat.pow_le_pow_right (by decide) (by omega)) (Nat.log2_self_le given)
      have least := (Nat.le_div_iff_mul_le positive).mp above
      rw [Nat.pow_add, Nat.mul_assoc, Nat.mul_comm (2 ^ s)] at least
      exact least
  refine ⟨s, _, scale, small, large, rank, rfl, ?_⟩
  rw [rank, unitsOfRank_scaled small large]

/-- What lies less than half a spacing away from a significand is rounded to it. A power of two is
left out: below it the spacing is smaller. -/
theorem nearestRank_of_near {num den s m : Nat} (positive : 0 < den) (low : 2 ^ 52 < m)
    (high : m < 2 ^ 53) (above : 2 * num < 2 * (m * (den * 2 ^ s)) + den * 2 ^ s)
    (below : 2 * (m * (den * 2 ^ s)) < 2 * num + den * 2 ^ s) :
    nearestRank num den = s * 2 ^ 52 + m := by
  have significand : roundHalfEven num (den * 2 ^ s) = m := roundHalfEven_of_near above below
  have atLeast : (2 ^ 52 + 1) * (den * 2 ^ s) ≤ m * (den * 2 ^ s) := Nat.mul_le_mul_right _ low
  have atMost : (m + 1) * (den * 2 ^ s) ≤ 2 ^ 53 * (den * 2 ^ s) := Nat.mul_le_mul_right _ high
  rw [Nat.succ_mul] at atLeast atMost
  have spacings : ∀ places, 2 ^ (places + s) * den = 2 ^ places * (den * 2 ^ s) := by
    intro places
    rw [Nat.pow_add, Nat.mul_assoc, Nat.mul_comm (2 ^ s)]
  have down : 2 ^ (52 + s) ≤ num / den := by
    rw [Nat.le_div_iff_mul_le positive, spacings]
    omega
  have up : num / den < 2 ^ (52 + s + 1) := by
    rw [Nat.div_lt_iff_lt_mul positive, show 52 + s + 1 = 53 + s by omega, spacings]
    omega
  have log : (num / den).log2 - 52 = s := by
    have given : num / den ≠ 0 := by
      have := Nat.two_pow_pos (52 + s)
      omega
    rw [(Nat.log2_eq_iff given).mpr ⟨down, up⟩, Nat.add_sub_cancel_left]
  simp only [nearestRank, Nat.pow_eq, log]
  rw [significand]

section

variable {unit t rank : Nat}

def hundredths (unit units : Nat) : Nat := roundHalfEven (units * 100) unit

theorem hundredths_mul (n : Nat) (positive : 0 < unit) :
    hundredths unit (n * unit) * unit = n * unit * 100 := by
  rw [hundredths, Nat.mul_right_comm, roundHalfEven_mul _ positive]

theorem nearestRank_hundredths (power : unit = 2 ^ t) (deep : 6 ≤ t)
    (large : (t - 5) * 2 ^ 52 ≤ rank) :
    nearestRank (hundredths unit (unitsOfRank rank) * unit) 100 = rank := by
  obtain ⟨s, m, cut, high, least, units⟩ := exists_scale rank
  have scale : t ≤ s + 6 := by omega
  have low : 2 ^ 52 ≤ m := by omega
  have positive : 0 < unit := by
    rw [power]
    exact Nat.two_pow_pos t
  by_cases whole : unit ∣ unitsOfRank rank
  · obtain ⟨n, same⟩ := whole
    rw [Nat.mul_comm] at same
    have exact := hundredths_mul n positive
    rw [← same] at exact
    rw [exact, nearestRank_unitsOfRank rank (by decide)]
  · -- Else the number is no power of two, and its neighbours on both sides are as far away.
    have above : 2 ^ 52 < m := by
      apply Nat.lt_of_le_of_ne low
      intro least
      apply whole
      rw [units, power, ← least, ← Nat.pow_add]
      exact Nat.pow_dvd_pow 2 (by omega)
    have wide : unit ≤ 64 * 2 ^ s := by
      rw [power, show 64 = 2 ^ 6 by decide, ← Nat.pow_add]
      exact Nat.pow_le_pow_right (by decide) (by omega)
    have spaced : 0 < 2 ^ s := Nat.two_pow_pos s
    have order : m * (100 * 2 ^ s) = m * 2 ^ s * 100 := by
      rw [Nat.mul_comm 100, Nat.mul_assoc]
    obtain ⟨below, beyond⟩ := roundHalfEven_near (unitsOfRank rank * 100) positive
    rw [← hundredths, units] at below beyond
    rw [units, cut]
    apply nearestRank_of_near (by decide) above high <;> omega

theorem hundredths_nearestRank (power : unit = 2 ^ t) (deep : 7 ≤ t)
    (small : rank < (t - 5) * 2 ^ 52) :
    hundredths unit (unitsOfRank (nearestRank (hundredths unit (unitsOfRank rank) * unit) 100)) =
        hundredths unit (unitsOfRank rank) ∧
      nearestRank (hundredths unit (unitsOfRank rank) * unit) 100 ≤ (t - 5) * 2 ^ 52 := by
  have positive : 0 < unit := by
    rw [power]
    exact Nat.two_pow_pos t
  have wide : unit = 128 * 2 ^ (t - 7) := by
    rw [power, show 128 = 2 ^ 7 by decide, ← Nat.pow_add]
    congr 1
    omega
  have units : unitsOfRank rank ≤ (2 ^ 53 - 1) * 2 ^ (t - 7) := by
    obtain ⟨s, m, cut, high, least, units⟩ := exists_scale rank
    rw [units]
    apply Nat.mul_le_mul
    · omega
    · exact Nat.pow_le_pow_right (by decide) (by omega)
  obtain ⟨_, most⟩ := roundHalfEven_near (unitsOfRank rank * 100) positive
  rw [← hundredths] at most
  generalize hundredths unit (unitsOfRank rank) = figure at *
  obtain ⟨s, significand, scale, few, _, same, rounded, read⟩ :=
    nearestRank_spec (figure * unit) (show 0 < 100 by decide)
  have deepest : s ≤ t - 7 := by
    have up : figure * unit / 100 < 2 ^ (53 + (t - 7)) := by
      rw [Nat.div_lt_iff_lt_mul (by decide), Nat.pow_add]
      omega
    by_cases none : figure * unit / 100 = 0
    · rw [none] at scale
      simp at scale
      omega
    · have less := (Nat.log2_lt none).mpr up
      omega
  -- The spacing at the number read is at most a 128th, and half of that is less than half a hundredth.
  have narrow : 2 ^ s ≤ 2 ^ (t - 7) := Nat.pow_le_pow_right (by decide) deepest
  have spaced : 0 < 100 * 2 ^ s := Nat.mul_pos (by decide) (Nat.two_pow_pos s)
  constructor
  · obtain ⟨below, beyond⟩ := roundHalfEven_near (figure * unit) spaced
    have order : significand * (100 * 2 ^ s) = significand * 2 ^ s * 100 := by
      rw [Nat.mul_comm 100, Nat.mul_assoc]
    rw [← rounded, order] at below beyond
    rw [hundredths, read]
    apply roundHalfEven_of_near <;> omega
  · have steps : s * 2 ^ 52 ≤ (t - 7) * 2 ^ 52 := Nat.mul_le_mul_right _ deepest
    omega

end

theorem unitsInOne_eq : unitsInOne = 2 ^ 1074 := by decide +kernel

/-- The units in one are a power of two, its exponent named so that the power is not evaluated. -/
theorem exists_unitPlace : ∃ t, t = 1074 ∧ unitsInOne = 2 ^ t := ⟨1074, rfl, unitsInOne_eq⟩

theorem unitsInOne_pos : 0 < unitsInOne := by
  obtain ⟨t, _, power⟩ := exists_unitPlace
  rw [power]
  exact Nat.two_pow_pos t

theorem hundredths_reread (rank : Nat) :
    hundredths unitsInOne (unitsOfRank
        (nearestRank (hundredths unitsInOne (unitsOfRank rank) * unitsInOne) 100)) =
      hundredths unitsInOne (unitsOfRank rank) := by
  by_cases small : rank < (1074 - 5) * 2 ^ 52
  · exact (hundredths_nearestRank unitsInOne_eq (by decide) small).1
  · rw [nearestRank_hundredths unitsInOne_eq (by decide) (Nat.le_of_not_lt small)]

theorem nearestRank_lt_infinityRank {rank : Nat} (finite : rank < infinityRank) :
    nearestRank (hundredths unitsInOne (unitsOfRank rank) * unitsInOne) 100 < infinityRank := by
  have bound : infinityRank = 2047 * 2 ^ 52 := rfl
  by_cases small : rank < (1074 - 5) * 2 ^ 52
  · have most := (hundredths_nearestRank unitsInOne_eq (by decide) small).2
    omega
  · rw [nearestRank_hundredths unitsInOne_eq (by decide) (Nat.le_of_not_lt small)]
    exact finite

theorem hundredths_lt {rank : Nat} (finite : rank < infinityRank) :
    hundredths unitsInOne (unitsOfRank rank) < 10 ^ 311 := by
  have bound : infinityRank = 2047 * 2 ^ 52 := rfl
  obtain ⟨s, m, cut, high, least, units⟩ := exists_scale rank
  obtain ⟨top, last⟩ : ∃ top, top = 2045 := ⟨_, rfl⟩
  have most : unitsOfRank rank ≤ 2 ^ 53 * 2 ^ top := by
    rw [units]
    apply Nat.mul_le_mul (Nat.le_of_lt high)
    exact Nat.pow_le_pow_right (by decide) (by omega)
  have below : unitsOfRank rank * 100 ≤ 10 ^ 310 * 9 * unitsInOne := by
    have largest : 2 ^ 53 * 2 ^ top * 100 ≤ 10 ^ 310 * 9 * unitsInOne := by
      rw [last]
      decide +kernel
    exact Nat.le_trans (Nat.mul_le_mul_right 100 most) largest
  exact Nat.lt_of_le_of_lt (roundHalfEven_le below unitsInOne_pos) (by decide +kernel)

namespace Binary64

theorem ofDecimal_hundredths (negative : Bool) {n : Nat} (fits : n < 10 ^ 311) :
    ofDecimal negative { digits := n, exponent := -2 } =
      ofUnits negative (n * unitsInOne) 100 := by
  have lengths : ∀ places, 0 < places → n < 10 ^ places → (Text.digits n).length ≤ places :=
    fun _ some below => (Nat.length_toDigits_le_iff (by decide) some).mpr below
  have length : (Text.digits n).length ≤ 311 := lengths 311 (by decide) fits
  have some : 0 < (Text.digits n).length := List.length_pos_iff.mpr (Text.digits_ne_nil n)
  have place : Decimal.leadingPlace { digits := n, exponent := -2 } =
      ((Text.digits n).length : Int) - 2 := rfl
  unfold ofDecimal
  rw [place]
  by_cases zero : n = 0
  · subst zero
    have left : nearestRank 0 1 = 0 := by decide
    have right : nearestRank 0 100 = 0 := by decide
    rw [if_pos (Or.inl rfl), Nat.zero_mul, ofUnits, ofUnits, left, right]
  · have given : ¬ (n = 0 ∨ ((Text.digits n).length : Int) - 2 ≤ -324) := by omega
    have fits : ¬ 309 < ((Text.digits n).length : Int) - 2 := by omega
    rw [if_neg given, if_neg fits]
    have one : n * Nat.pow 10 0 * unitsInOne = n * unitsInOne := by
      rw [Nat.pow_eq, Nat.pow_zero, Nat.mul_one]
    exact congrArg (ofUnits negative · 100) one

/-- Text with two places stays the same when it is read and written again. -/
theorem fixedText_reread (x : Binary64) : (x.reread 2).fixedText 2 = x.fixedText 2 := by
  cases x with
  | nan => rfl
  | infinite negative => rfl
  | finite negative rank =>
    have finite := nearestRank_lt_infinityRank rank.isLt
    have same := hundredths_reread rank
    have text : ∀ rank, fixedText 2 (.finite negative rank) =
        (if negative then ['-'] else []) ++
          placedText 2 (hundredths unitsInOne (unitsOfRank rank)) := fun _ => rfl
    have read : reread 2 (.finite negative rank) =
        ofDecimal negative
          { digits := hundredths unitsInOne (unitsOfRank rank), exponent := -2 } := rfl
    have number := ofDecimal_hundredths negative (hundredths_lt rank.isLt)
    rw [ofUnits, dif_pos finite] at number
    rw [read, number, text, text, same]

end Binary64

end Campaign
