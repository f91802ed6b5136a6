import Campaign.Binary64.Basic

namespace Campaign

/-- The natural number nearest to `num / den`; of two equally near, the even one. -/
def roundHalfEven (num den : Nat) : Nat :=
  let down := num / den
  let rest := num % den
  if 2 * rest < den ∨ (2 * rest = den ∧ down % 2 = 0) then down else down + 1

theorem roundHalfEven_mul (n : Nat) {den : Nat} (positive : 0 < den) :
    roundHalfEven (n * den) den = n := by
  simp [roundHalfEven, Nat.mul_div_cancel _ positive, positive]

/-- The rank of the magnitude nearest to `num / den` units; at `infinityRank` or above there is no
finite one. A quotient below `2 ^ 53` is rounded to a whole unit, one in the range from
`2 ^ (52 + s)` to `2 ^ (53 + s)` to a multiple of `2 ^ s`. -/
def nearestRank (num den : Nat) : Nat :=
  let s := (num / den).log2 - 52
  s * Nat.pow 2 52 + roundHalfEven num (den * Nat.pow 2 s)

theorem log2_unitsOfRank {rank : Nat} (large : Nat.pow 2 52 ≤ rank) :
    (unitsOfRank rank).log2 = 52 + (rank / Nat.pow 2 52 - 1) := by
  simp only [unitsOfRank, Nat.pow_eq] at large ⊢
  have positive : 0 < 2 ^ (rank / 2 ^ 52 - 1) := Nat.two_pow_pos _
  have within : rank % 2 ^ 52 < 2 ^ 52 := Nat.mod_lt _ (by decide)
  rw [if_neg (by omega)]
  rw [Nat.log2_eq_iff (Nat.mul_ne_zero (by omega) (by omega))]
  constructor
  · rw [Nat.pow_add]
    exact Nat.mul_le_mul_right _ (by omega)
  · rw [show 52 + (rank / 2 ^ 52 - 1) + 1 = 53 + (rank / 2 ^ 52 - 1) by omega, Nat.pow_add]
    exact Nat.mul_lt_mul_of_pos_right (by omega) positive

theorem nearestRank_unitsOfRank (rank : Nat) {den : Nat} (positive : 0 < den) :
    nearestRank (unitsOfRank rank * den) den = rank := by
  simp only [nearestRank, Nat.mul_div_cancel _ positive, Nat.pow_eq]
  by_cases small : rank < Nat.pow 2 52
  · have units : unitsOfRank rank = rank := if_pos small
    have bits : rank.log2 - 52 = 0 := by
      by_cases zero : rank = 0
      · simp [zero]
      · have := (Nat.log2_lt zero).mpr small
        omega
    simp [units, bits, roundHalfEven_mul rank positive]
  · have bits : (unitsOfRank rank).log2 - 52 = rank / 2 ^ 52 - 1 := by
      rw [log2_unitsOfRank (Nat.le_of_not_lt small), Nat.add_sub_cancel_left, Nat.pow_eq]
    have quotient : unitsOfRank rank * den =
        (2 ^ 52 + rank % 2 ^ 52) * (den * 2 ^ (rank / 2 ^ 52 - 1)) := by
      rw [unitsOfRank, if_neg small, Nat.mul_assoc, Nat.mul_comm (Nat.pow 2 _) den]
      rfl
    rw [bits, quotient, roundHalfEven_mul _ (Nat.mul_pos positive (Nat.two_pow_pos _))]
    have := Nat.div_add_mod rank (2 ^ 52)
    have : 1 ≤ rank / 2 ^ 52 :=
      (Nat.le_div_iff_mul_le (by decide)).mpr (by simpa using Nat.le_of_not_lt small)
    omega

namespace Binary64

def ofUnits (negative : Bool) (num den : Nat) : Binary64 :=
  let rank := nearestRank num den
  if finite : rank < infinityRank then .finite negative ⟨rank, finite⟩ else .infinite negative

def ofNat (n : Nat) : Binary64 := ofUnits false (n * unitsInOne) 1

end Binary64

end Campaign
