import Campaign.Csv
import Campaign.Proofs.FigureText

namespace Campaign.Csv

/-- Characters that mean nothing to a reader, wherever they stand in a row. -/
def isPlain (c : Char) : Bool := c != ',' && c != '"' && !Text.isBlank c

structure IsPlainField (field : List Char) : Prop where
  given : field ≠ []
  plain : ∀ c ∈ field, isPlain c = true

theorem isPlainField_of_all {field : List Char} (given : field.isEmpty = false)
    (plain : field.all isPlain = true) : IsPlainField field :=
  ⟨List.isEmpty_eq_false_iff.mp given, List.all_eq_true.mp plain⟩

theorem isPlain_iff {c : Char} :
    isPlain c = true ↔ c ≠ ',' ∧ c ≠ '"' ∧ Text.isBlank c = false := by
  simp [isPlain, and_assoc]

theorem isLineEnd_of_isPlain {c : Char} (plain : isPlain c = true) :
    c ≠ '\n' ∧ Reader.isLineEnd c = false := by
  obtain ⟨_, _, noBlank⟩ := isPlain_iff.mp plain
  have apart : ∀ blank : Char, Text.isBlank blank = true → c ≠ blank := by
    intro blank isBlank same
    rw [← same, noBlank] at isBlank
    cases isBlank
  have feed := apart '\n' (by decide)
  have back := apart '\r' (by decide)
  exact ⟨feed, by simp [Reader.isLineEnd, feed, back]⟩

theorem trim_of_plain {field : List Char} (plain : ∀ c ∈ field, isPlain c = true) :
    Text.trim field = field := by
  have keep : ∀ text : List Char, (∀ c ∈ text, isPlain c = true) →
      text.dropWhile Text.isBlank = text := by
    intro text all
    cases text with
    | nil => rfl
    | cons c rest =>
      have noBlank := (isPlain_iff.mp (all c List.mem_cons_self)).2.2
      rw [List.dropWhile_cons, noBlank]
      rfl
  rw [Text.trim, keep field plain, keep field.reverse fun c member =>
    plain c (List.mem_reverse.mp member), List.reverse_reverse]

namespace Reader

variable {reader : Reader} {c : Char}

theorem step_plain (plain : isPlain c = true)
    (outside : reader.position = .beforeRow ∨ reader.position = .beforeField ∨
      reader.position = .inField) : reader.step c = reader.put .inField c := by
  obtain ⟨noComma, noQuote, _⟩ := isPlain_iff.mp plain
  obtain ⟨noFeed, noEnd⟩ := isLineEnd_of_isPlain plain
  rcases outside with position | position | position <;>
    simp [step, stepCounted, stepField, stepPlain, position, noComma, noQuote, noFeed, noEnd]

theorem step_comma (position : reader.position = .inField) :
    reader.step ',' = reader.endField := by
  simp [step, stepCounted, stepPlain, position]

theorem step_feed (position : reader.position = .inField) :
    reader.step '\n' = { reader with line := reader.line + 1 }.endRow := by
  simp [step, stepCounted, stepPlain, position, isLineEnd]

theorem foldl_step_plain {text : List Char} (plain : ∀ c ∈ text, isPlain c = true)
    (position : reader.position = .inField) :
    text.foldl step reader = { reader with field := text.reverse ++ reader.field } := by
  induction text generalizing reader with
  | nil => rfl
  | cons c rest ih =>
    rw [List.foldl_cons, step_plain (plain c List.mem_cons_self) (Or.inr (Or.inr position)),
      ih (fun d member => plain d (List.mem_cons_of_mem _ member)) rfl]
    simp [put, position]

theorem foldl_step_field {field : List Char} (plain : IsPlainField field)
    (outside : reader.position = .beforeRow ∨ reader.position = .beforeField)
    (fresh : reader.field = []) :
    field.foldl step reader = { reader with position := .inField, field := field.reverse } := by
  cases field with
  | nil => exact absurd rfl plain.given
  | cons c rest =>
    have outside : reader.position = .beforeRow ∨ reader.position = .beforeField ∨
        reader.position = .inField := by
      rcases outside with position | position
      · exact Or.inl position
      · exact Or.inr (Or.inl position)
    rw [List.foldl_cons, step_plain (plain.plain c List.mem_cons_self) outside,
      foldl_step_plain (fun d member => plain.plain d (List.mem_cons_of_mem _ member)) rfl]
    simp [put, fresh]

def nextRow (reader : Reader) (fields : List (List Char)) : Reader :=
  { position := .beforeRow
    line := reader.line + 1
    rowLine := reader.line + 1
    field := []
    fields := []
    rows := { line := reader.rowLine, fields := fields } :: reader.rows }

theorem foldl_step_line {first : List Char} {others : List (List Char)}
    (plain : ∀ field ∈ first :: others, IsPlainField field)
    (outside : reader.position = .beforeRow ∨ reader.position = .beforeField)
    (fresh : reader.field = []) :
    (List.intercalate [','] (first :: others) ++ ['\n']).foldl step reader =
      reader.nextRow (reader.fields.reverse ++ first :: others) := by
  have firstPlain := plain first List.mem_cons_self
  have trimmed : Text.trim first.reverse.reverse = first := by
    rw [List.reverse_reverse, trim_of_plain firstPlain.plain]
  induction others generalizing reader first with
  | nil =>
    have single : List.intercalate [','] [first] = first := by simp
    rw [single, List.foldl_append, foldl_step_field firstPlain outside fresh, List.foldl_cons,
      List.foldl_nil, step_feed rfl]
    simp only [endRow, endField, trimmed, nextRow]
    simp
  | cons second rest ih =>
    have split : List.intercalate [','] (first :: second :: rest) =
        first ++ ',' :: List.intercalate [','] (second :: rest) := by
      simp [List.intercalate_cons_cons]
    have secondPlain := plain second (List.mem_cons_of_mem _ List.mem_cons_self)
    rw [split, List.append_assoc, List.foldl_append, foldl_step_field firstPlain outside fresh,
      List.cons_append, List.foldl_cons, step_comma rfl,
      ih (fun field member => plain field (List.mem_cons_of_mem _ member)) (Or.inr rfl) rfl
        secondPlain (by rw [List.reverse_reverse, trim_of_plain secondPlain.plain])]
    simp only [endField, trimmed, nextRow]
    simp

theorem foldl_step_lines {lines : List (List (List Char))}
    (plain : ∀ fields ∈ lines, fields ≠ [] ∧ ∀ field ∈ fields, IsPlainField field)
    (between : reader.position = .beforeRow) (fresh : reader.field = [])
    (noFields : reader.fields = []) :
    ∃ result : Reader,
      (lines.flatMap fun fields => List.intercalate [','] fields ++ ['\n']).foldl step reader =
        result ∧
      result.position = .beforeRow ∧
      result.rows.reverse.map (·.fields) = reader.rows.reverse.map (·.fields) ++ lines := by
  induction lines generalizing reader with
  | nil => exact ⟨reader, rfl, between, by simp⟩
  | cons fields rest ih =>
    obtain ⟨given, fieldsPlain⟩ := plain fields List.mem_cons_self
    obtain ⟨first, others, rfl⟩ := List.exists_cons_of_ne_nil given
    have line := foldl_step_line fieldsPlain (Or.inl between) fresh
    rw [List.flatMap_cons, List.foldl_append, line]
    have position : (reader.nextRow (reader.fields.reverse ++ first :: others)).position =
        .beforeRow := rfl
    obtain ⟨result, folded, last, rows⟩ :=
      ih (fun fields member => plain fields (List.mem_cons_of_mem _ member)) position rfl rfl
    refine ⟨result, folded, last, ?_⟩
    rw [rows]
    simp [nextRow, noFields]

end Reader

theorem dropMark_eq_self {text : List Char} (noMark : text.head? ≠ some '\uFEFF') :
    dropMark text = text := by
  unfold dropMark
  split
  · exact absurd rfl noMark
  · rfl

theorem fields_rows {lines : List (List (List Char))}
    (plain : ∀ fields ∈ lines, fields ≠ [] ∧ ∀ field ∈ fields, IsPlainField field)
    (noMark : (lines.flatMap fun fields =>
      List.intercalate [','] fields ++ ['\n']).head? ≠ some '\uFEFF') :
    (rows (lines.flatMap fun fields => List.intercalate [','] fields ++ ['\n'])).map (·.fields) =
      lines := by
  have begun : Reader.start.position = .beforeRow := rfl
  obtain ⟨result, folded, position, read⟩ := Reader.foldl_step_lines plain begun rfl rfl
  rw [rows, dropMark_eq_self noMark, folded, Reader.finish, if_pos position, read]
  rfl

theorem isPlain_of_isDigit {c : Char} (digit : c.isDigit = true) : isPlain c = true := by
  have low : '0'.val.toNat = 48 := by decide
  have high : '9'.val.toNat = 57 := by decide
  have within : 48 ≤ c.toNat ∧ c.toNat ≤ 57 := by
    simp only [Char.isDigit, Bool.and_eq_true, decide_eq_true_eq, UInt32.le_iff_toNat_le,
      ge_iff_le, low, high] at digit
    exact digit
  refine isPlain_iff.mpr ⟨?_, ?_, ?_⟩
  · intro comma
    exact absurd digit (by rw [comma]; decide)
  · intro quote
    exact absurd digit (by rw [quote]; decide)
  · simp only [Text.isBlank, Bool.or_eq_false_iff, Bool.and_eq_false_iff, decide_eq_false_iff_not,
      beq_eq_false_iff_ne]
    omega

theorem isPlainField_decimal (n : Nat) : IsPlainField (Text.decimal n).toList := by
  rw [Text.decimal, String.toList_ofList]
  exact ⟨Text.digits_ne_nil n, fun _ member =>
    isPlain_of_isDigit (Text.isDigit_of_mem_digits member)⟩

theorem isPlainField_fixedText (places : Nat) (x : Binary64) :
    IsPlainField (x.fixedText places) := by
  cases x with
  | nan => exact isPlainField_of_all rfl rfl
  | infinite negative => cases negative <;> exact isPlainField_of_all rfl rfl
  | finite negative rank =>
    refine ⟨Binary64.fixedText_ne_nil places _, fun c member => ?_⟩
    rcases List.mem_append.mp member with sign | figure
    · cases negative with
      | false => exact absurd sign List.not_mem_nil
      | true =>
        rw [List.mem_singleton.mp sign]
        rfl
    · rcases mem_placedText figure with digit | rfl
      · exact isPlain_of_isDigit digit
      · rfl

end Campaign.Csv
