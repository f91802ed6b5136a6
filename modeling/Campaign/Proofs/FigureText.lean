import Campaign.Binary64.Decimal
import Campaign.Binary64.Fixed
import Mathlib.Data.List.TakeWhile

namespace Campaign

namespace Text

theorem digitsValue_append (left right : List Char) :
    digitsValue (left ++ right) =
      Nat.pow 10 right.length * digitsValue left + digitsValue right := by
  unfold digitsValue
  rw [Nat.ofDigitChars_append, Nat.ofDigitChars_eq_ofDigitChars_zero, Nat.pow_eq]

theorem digitsValue_paddedDigits (width n : Nat) : digitsValue (paddedDigits width n) = n := by
  have zeros : digitsValue (List.replicate (width - (digits n).length) '0') = 0 := by
    unfold digitsValue
    rw [Nat.ofDigitChars_replicate_zero, Nat.mul_zero]
  rw [paddedDigits, digitsValue_append, zeros, digitsValue_digits]
  omega

theorem isDigit_of_mem_paddedDigits {width n : Nat} {c : Char}
    (member : c ∈ paddedDigits width n) : c.isDigit = true := by
  rcases List.mem_append.mp member with zero | digit
  · rw [List.eq_of_mem_replicate zero]
    decide
  · exact isDigit_of_mem_digits digit

theorem length_paddedDigits {width n : Nat} (positive : 0 < width) (small : n < Nat.pow 10 width) :
    (paddedDigits width n).length = width := by
  have short : (digits n).length ≤ width :=
    (Nat.length_toDigits_le_iff (by decide) positive).mpr small
  rw [paddedDigits, List.length_append, List.length_replicate]
  omega

theorem digits_ne_nil (n : Nat) : digits n ≠ [] := Nat.toDigits_ne_nil

end Text

section

variable {whole fraction rest : List Char}

theorem span_digits (digits : ∀ c ∈ whole, c.isDigit = true)
    (stops : ∀ c ∈ rest.head?, c.isDigit = false) :
    (whole ++ rest).takeWhile Char.isDigit = whole ∧
      (whole ++ rest).dropWhile Char.isDigit = rest := by
  rw [List.takeWhile_append_of_pos digits, List.dropWhile_append_of_pos digits]
  cases rest with
  | nil => simp
  | cons c rest => simp [stops c rfl]

theorem readDecimal?_whole_append (given : whole ≠ []) (digits : ∀ c ∈ whole, c.isDigit = true)
    (stops : ∀ c ∈ rest.head?, c.isDigit = false ∧ c ≠ '.') :
    readDecimal? (whole ++ rest) =
      (readExponent? rest).map fun exponent =>
        { digits := Text.digitsValue whole, exponent := exponent } := by
  obtain ⟨taken, dropped⟩ := span_digits digits fun c first => (stops c first).1
  have some : whole.isEmpty = false := List.isEmpty_eq_false_iff.mpr given
  rw [readDecimal?, taken, dropped]
  dsimp only
  split
  · exact absurd rfl (stops '.' rfl).2
  · simp [some]

theorem readDecimal?_point_append (given : whole ≠ [])
    (wholeDigits : ∀ c ∈ whole, c.isDigit = true)
    (fractionDigits : ∀ c ∈ fraction, c.isDigit = true)
    (stops : ∀ c ∈ rest.head?, c.isDigit = false) :
    readDecimal? (whole ++ '.' :: (fraction ++ rest)) =
      (readExponent? rest).map fun exponent =>
        { digits := Text.digitsValue (whole ++ fraction)
          exponent := exponent - fraction.length } := by
  have point : ∀ c ∈ ('.' :: (fraction ++ rest)).head?, c.isDigit = false := by
    intro c first
    cases first
    rfl
  obtain ⟨taken, dropped⟩ := span_digits wholeDigits point
  obtain ⟨fractionTaken, fractionDropped⟩ := span_digits fractionDigits stops
  simp [readDecimal?, taken, dropped, fractionTaken, fractionDropped, given]

theorem readDecimal?_whole (given : whole ≠ []) (digits : ∀ c ∈ whole, c.isDigit = true) :
    readDecimal? whole = some { digits := Text.digitsValue whole, exponent := 0 } := by
  have stops : ∀ c ∈ ([] : List Char).head?, c.isDigit = false ∧ c ≠ '.' := nofun
  have read := readDecimal?_whole_append given digits stops
  rw [List.append_nil] at read
  exact read

theorem readDecimal?_point (given : whole ≠ []) (wholeDigits : ∀ c ∈ whole, c.isDigit = true)
    (fractionDigits : ∀ c ∈ fraction, c.isDigit = true) :
    readDecimal? (whole ++ '.' :: fraction) =
      some
        { digits := Text.digitsValue (whole ++ fraction)
          exponent := -(fraction.length : Int) } := by
  have stops : ∀ c ∈ ([] : List Char).head?, c.isDigit = false := nofun
  have read := readDecimal?_point_append given wholeDigits fractionDigits stops
  rw [List.append_nil] at read
  rw [read, readExponent?, Option.map_some, Int.zero_sub]

end

theorem readDecimal?_placedText (places n : Nat) :
    readDecimal? (placedText places n) = some { digits := n, exponent := -(places : Int) } := by
  have wholeDigits : ∀ c ∈ Text.digits (n / Nat.pow 10 places), c.isDigit = true :=
    fun _ member => Text.isDigit_of_mem_digits member
  have given := Text.digits_ne_nil (n / Nat.pow 10 places)
  unfold placedText
  by_cases none : places = 0
  · subst none
    rw [if_pos rfl, List.append_nil, readDecimal?_whole given wholeDigits, Text.digitsValue_digits]
    simp
  · have small : n % Nat.pow 10 places < Nat.pow 10 places :=
      Nat.mod_lt _ (Nat.pow_pos (by decide))
    have length := Text.length_paddedDigits (by omega) small
    rw [if_neg none, readDecimal?_point given wholeDigits fun _ member =>
      Text.isDigit_of_mem_paddedDigits member, length, Text.digitsValue_append, length,
      Text.digitsValue_digits, Text.digitsValue_paddedDigits, Nat.div_add_mod]

theorem mem_placedText {places n : Nat} {c : Char} (member : c ∈ placedText places n) :
    c.isDigit = true ∨ c = '.' := by
  rcases List.mem_append.mp member with whole | rest
  · exact Or.inl (Text.isDigit_of_mem_digits whole)
  · split at rest
    · exact absurd rest List.not_mem_nil
    · rcases List.mem_cons.mp rest with point | fraction
      · exact Or.inr point
      · exact Or.inl (Text.isDigit_of_mem_paddedDigits fraction)

namespace Binary64

/-- What the text with `places` digits after the point reads back as. -/
def reread (places : Nat) : Binary64 → Binary64
  | .nan => .nan
  | .infinite negative => .infinite negative
  | .finite negative rank =>
    .ofDecimal negative
      { digits := roundHalfEven (unitsOfRank rank * Nat.pow 10 places) unitsInOne
        exponent := -(places : Int) }

theorem splitSign_digit (text : List Char) (digit : ∀ c ∈ text.head?, c.isDigit = true)
    (negative : Bool) :
    splitSign ((if negative then ['-'] else []) ++ text) = (negative, text) := by
  cases negative with
  | true => rfl
  | false =>
    cases text with
    | nil => rfl
    | cons c rest =>
      have isDigit := digit c (by simp)
      show splitSign (c :: rest) = _
      unfold splitSign
      split
      · rename_i same
        cases same
        exact absurd isDigit (by decide)
      · rename_i same
        cases same
        exact absurd isDigit (by decide)
      · rfl

theorem ofText?_digit {text : List Char} {c : Char} (first : text.head? = some c)
    (digit : c.isDigit = true) (negative : Bool) :
    ofText? ((if negative then ['-'] else []) ++ text) =
      (readDecimal? text).map (ofDecimal negative) := by
  have sign := splitSign_digit text (fun d same => by
    rw [first] at same
    cases same
    exact digit) negative
  have same : c.toLower = c := by
    unfold Char.toLower
    rw [dif_neg]
    intro capital
    simp only [Char.isDigit, Bool.and_eq_true, decide_eq_true_eq, UInt32.le_iff_toNat_le,
      ge_iff_le] at digit capital
    have apart : '9'.val.toNat < 'A'.val.toNat := by decide
    omega
  have lower : (text.map Char.toLower).head? = some c := by
    rw [List.head?_map, first, Option.map_some, same]
  unfold ofText?
  rw [sign]
  dsimp only
  split
  · rename_i named
    rw [named] at lower
    cases lower
    exact absurd digit (by decide)
  · rename_i named
    rw [named] at lower
    cases lower
    exact absurd digit (by decide)
  · rename_i named
    rw [named] at lower
    cases lower
    exact absurd digit (by decide)
  · rfl

theorem ofText?_fixedText (places : Nat) (x : Binary64) :
    ofText? (x.fixedText places) = some (x.reread places) := by
  cases x with
  | nan => rfl
  | infinite negative => cases negative <;> rfl
  | finite negative rank =>
    have figures : ∀ n, ∃ c, (placedText places n).head? = some c ∧ c.isDigit = true := by
      intro n
      obtain ⟨c, rest, cut⟩ :=
        List.exists_cons_of_ne_nil (Text.digits_ne_nil (n / Nat.pow 10 places))
      have member : c ∈ Text.digits (n / Nat.pow 10 places) := by
        rw [cut]
        exact List.mem_cons_self
      exact ⟨c, by rw [placedText, cut]; rfl, Text.isDigit_of_mem_digits member⟩
    obtain ⟨c, first, digit⟩ :=
      figures (roundHalfEven (unitsOfRank rank * Nat.pow 10 places) unitsInOne)
    rw [fixedText, ofText?_digit first digit, readDecimal?_placedText]
    rfl

theorem fixedText_ne_nil (places : Nat) (x : Binary64) : x.fixedText places ≠ [] := by
  intro empty
  have read := ofText?_fixedText places x
  rw [empty] at read
  cases read

end Binary64

end Campaign
