import Campaign.Binary64.Arithmetic
import Campaign.Proofs.Rereading
import Campaign.Proofs.ShortestText

namespace Campaign

theorem roundHalfEven_mono {num other den : Nat} (atMost : num ≤ other) (positive : 0 < den) :
    roundHalfEven num den ≤ roundHalfEven other den := by
  by_contra reversed
  -- Results in the wrong order would both be a half off, and so the results of one quotient.
  have next : (roundHalfEven other den + 1) * den ≤ roundHalfEven num den * den :=
    Nat.mul_le_mul_right den (by omega)
  rw [Nat.succ_mul] at next
  have above := (roundHalfEven_near num positive).2
  have below := (roundHalfEven_near other positive).1
  have same : num = other := by omega
  subst same
  exact reversed (Nat.le_refl _)

theorem log2_mono {n m : Nat} (atMost : n ≤ m) : n.log2 ≤ m.log2 := by
  rcases Nat.eq_zero_or_pos n with zero | positive
  · rw [zero, Nat.log2_zero]
    exact Nat.zero_le _
  · have given : n ≠ 0 := by omega
    have largest : m ≠ 0 := by omega
    exact (Nat.le_log2 largest).mpr (Nat.le_trans (Nat.log2_self_le given) atMost)

theorem unitsOfRank_strictMono {rank other : Nat} (less : rank < other) :
    unitsOfRank rank < unitsOfRank other := by
  obtain ⟨s, m, cut, high, least, units⟩ := exists_scale rank
  obtain ⟨t, n, otherCut, otherHigh, otherLeast, otherUnits⟩ := exists_scale other
  rw [units, otherUnits]
  rcases Nat.lt_trichotomy s t with below | same | above
  · have wide : 2 ^ (s + 1) ≤ 2 ^ t := Nat.pow_le_pow_right (by decide) below
    calc
      m * 2 ^ s < 2 ^ 53 * 2 ^ s := Nat.mul_lt_mul_of_pos_right high (Nat.two_pow_pos s)
      _ = 2 ^ 52 * 2 ^ (s + 1) := by rw [Nat.pow_succ' (n := s)]; omega
      _ ≤ n * 2 ^ t := Nat.mul_le_mul (by omega) wide
  · subst same
    exact Nat.mul_lt_mul_of_pos_right (by omega) (Nat.two_pow_pos s)
  · omega

theorem unitsOfRank_le_iff {rank other : Nat} :
    unitsOfRank rank ≤ unitsOfRank other ↔ rank ≤ other := by
  constructor
  · intro atMost
    by_contra reversed
    have less := unitsOfRank_strictMono (Nat.lt_of_not_le reversed)
    omega
  · intro atMost
    rcases Nat.lt_or_eq_of_le atMost with less | same
    · exact Nat.le_of_lt (unitsOfRank_strictMono less)
    · rw [same]

theorem nearestRank_mono {num other den : Nat} (atMost : num ≤ other) (positive : 0 < den) :
    nearestRank num den ≤ nearestRank other den := by
  obtain ⟨s, m, scale, small, _, rank, rounded, _⟩ := nearestRank_spec num positive
  obtain ⟨t, n, otherScale, _, large, otherRank, otherRounded, _⟩ := nearestRank_spec other positive
  have wider := log2_mono (Nat.div_le_div_right (c := den) atMost)
  rw [rank, otherRank]
  rcases Nat.lt_trichotomy s t with below | same | above
  · omega
  · subst same
    have ordered := roundHalfEven_mono atMost (Nat.mul_pos positive (Nat.two_pow_pos s))
    omega
  · omega

def rankOfNat (n : Nat) : Nat := nearestRank (n * unitsInOne) 1

theorem rankOfNat_mono {n m : Nat} (atMost : n ≤ m) : rankOfNat n ≤ rankOfNat m :=
  nearestRank_mono (Nat.mul_le_mul_right _ atMost) Nat.one_pos

theorem rankOfNat_lt_infinityRank {n : Nat} (fits : n ≤ 2 ^ 64) : rankOfNat n < infinityRank := by
  have most : rankOfNat (2 ^ 64) < infinityRank := by decide +kernel
  exact Nat.lt_of_le_of_lt (rankOfNat_mono fits) most

theorem Binary64.ofNat_eq {n : Nat} (fits : n ≤ 2 ^ 64) :
    ofNat n = .finite false ⟨rankOfNat n, rankOfNat_lt_infinityRank fits⟩ :=
  dif_pos (rankOfNat_lt_infinityRank fits)

theorem rankOfNat_spec (n : Nat) :
    ∃ s, s = (n * unitsInOne).log2 - 52 ∧
      unitsOfRank (rankOfNat n) = roundHalfEven (n * unitsInOne) (2 ^ s) * 2 ^ s := by
  obtain ⟨s, m, scale, _, _, _, rounded, units⟩ := nearestRank_spec (n * unitsInOne) Nat.one_pos
  rw [Nat.div_one] at scale
  rw [Nat.one_mul] at rounded
  exact ⟨s, scale, rounded ▸ units⟩

theorem scale_le {n k : Nat} (small : n < 2 ^ k) : (n * unitsInOne).log2 - 52 ≤ k + 1021 := by
  obtain ⟨t, place, power⟩ := exists_unitPlace
  by_cases zero : n * unitsInOne = 0
  · rw [zero, Nat.log2_zero]
    exact Nat.zero_le _
  · have below : n * unitsInOne < 2 ^ (k + t) := by
      rw [power, Nat.pow_add]
      exact Nat.mul_lt_mul_of_pos_right small (Nat.two_pow_pos t)
    have bits := (Nat.log2_lt zero).mpr below
    omega

theorem unitsOfRank_rankOfNat {n : Nat} (small : n ≤ 2 ^ 53) :
    unitsOfRank (rankOfNat n) = n * unitsInOne := by
  obtain ⟨s, scale, units⟩ := rankOfNat_spec n
  obtain ⟨t, place, power⟩ := exists_unitPlace
  have whole : 2 ^ s ∣ n * unitsInOne := by
    rcases Nat.lt_or_eq_of_le small with less | rfl
    · have narrow := scale_le less
      rw [power]
      exact Nat.dvd_mul_left_of_dvd (Nat.pow_dvd_pow 2 (by omega)) n
    · rw [power, ← Nat.pow_add, Nat.log2_two_pow] at scale
      rw [power, ← Nat.pow_add]
      exact Nat.pow_dvd_pow 2 (by omega)
  obtain ⟨multiple, same⟩ := whole
  rw [units, same, Nat.mul_comm (2 ^ s), roundHalfEven_mul _ (Nat.two_pow_pos s)]

theorem rankOfNat_near {n : Nat} (fits : n < 2 ^ 64) :
    unitsOfRank (rankOfNat n) ≤ n * unitsInOne + 1024 * unitsInOne ∧
      n * unitsInOne ≤ unitsOfRank (rankOfNat n) + 1024 * unitsInOne := by
  obtain ⟨s, scale, units⟩ := rankOfNat_spec n
  obtain ⟨t, place, power⟩ := exists_unitPlace
  have narrow : 2 ^ s ≤ 2 * (1024 * unitsInOne) := by
    have most := scale_le fits
    rw [← scale] at most
    calc
      2 ^ s ≤ 2 ^ (11 + t) := Nat.pow_le_pow_right (by decide) (by omega)
      _ = 2 * (1024 * unitsInOne) := by rw [power, Nat.pow_add]; omega
  obtain ⟨above, below⟩ := roundHalfEven_near (n * unitsInOne) (Nat.two_pow_pos s)
  rw [units]
  omega

/-- A quotient by a power of two that is not too small is exact: it has another scale, and the same
significand. -/
theorem exists_div_two_pow {rank k : Nat} (large : 2 ^ k * unitsInOne ≤ unitsOfRank rank) :
    ∃ shifted, shifted ≤ rank ∧ unitsOfRank shifted * 2 ^ k = unitsOfRank rank := by
  obtain ⟨s, m, cut, high, least, units⟩ := exists_scale rank
  have deep : k < s := by
    obtain ⟨t, place, power⟩ := exists_unitPlace
    have bits : 2 ^ (k + t) < 2 ^ (53 + s) := by
      rw [units, power, ← Nat.pow_add] at large
      rw [Nat.pow_add 2 53]
      exact Nat.lt_of_le_of_lt large (Nat.mul_lt_mul_of_pos_right high (Nat.two_pow_pos s))
    have exponents := (Nat.pow_lt_pow_iff_right (by decide)).mp bits
    omega
  refine ⟨(s - k) * 2 ^ 52 + m, ?_, ?_⟩
  · rw [cut]
    exact Nat.add_le_add_right (Nat.mul_le_mul_right _ (Nat.sub_le s k)) m
  · rw [unitsOfRank_scaled (Nat.le_of_lt high) (Or.inr (by omega)), units, Nat.mul_assoc,
      ← Nat.pow_add, Nat.sub_add_cancel (Nat.le_of_lt deep)]

theorem Binary64.div_two_pow {negative : Bool} {rank : Fin infinityRank} {k : Nat} (few : k ≤ 53)
    (large : 2 ^ k * unitsInOne ≤ unitsOfRank rank) :
    ∃ shifted : Fin infinityRank, unitsOfRank shifted * 2 ^ k = unitsOfRank rank ∧
      Binary64.finite negative rank / ofNat (2 ^ k) = .finite negative shifted := by
  obtain ⟨shifted, atMost, units⟩ := exists_div_two_pow large
  have small : 2 ^ k ≤ 2 ^ 53 := Nat.pow_le_pow_right (by decide) few
  have divisor := unitsOfRank_rankOfNat small
  have given : unitsOfRank (rankOfNat (2 ^ k)) ≠ 0 := by
    rw [divisor]
    exact Nat.ne_of_gt (Nat.mul_pos (Nat.two_pow_pos k) unitsInOne_pos)
  have quotient : nearestRank (unitsOfRank rank * unitsInOne) (unitsOfRank (rankOfNat (2 ^ k))) =
      shifted := by
    rw [divisor, nearestRank_scaled unitsInOne_pos, ← units]
    exact nearestRank_unitsOfRank shifted (Nat.two_pow_pos k)
  have finite : shifted < infinityRank := Nat.lt_of_le_of_lt atMost rank.isLt
  refine ⟨⟨shifted, finite⟩, units, ?_⟩
  rw [ofNat_eq (Nat.le_trans small (by decide))]
  show div (.finite negative rank) (.finite false ⟨rankOfNat (2 ^ k), _⟩) = _
  unfold div
  dsimp only
  rw [if_neg given, Bool.bne_false, ofUnits, quotient, dif_pos finite]

end Campaign
