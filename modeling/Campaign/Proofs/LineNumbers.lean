import Campaign.Proofs.SummaryRows

namespace Campaign.Csv

inductive LineEnd where
  | feed
  | returnFeed
  deriving DecidableEq

def LineEnd.text : LineEnd → List Char
  | .feed => ['\n']
  | .returnFeed => ['\r', '\n']

structure Line where
  content : List Char
  ending : LineEnd
  deriving DecidableEq

namespace Line

def text (line : Line) : List Char := line.content ++ line.ending.text

def isBlank (line : Line) : Bool := line.content.isEmpty

end Line

def textOfLines (lines : List Line) (last : List Char) : List Char :=
  lines.flatMap Line.text ++ last

def fieldsOf (content : List Char) : List (List Char) :=
  (content.foldl Reader.step .start).endField.fields.reverse

structure IsLine (content : List Char) : Prop where
  whole : ∀ c ∈ content, Reader.isLineEnd c = false
  closed : (content.foldl Reader.step .start).position ≠ .inQuotes

def rowOn? (content : List Char) (number : Nat) : Option Row :=
  if content.isEmpty then none else some { line := number, fields := fieldsOf content }

def rowsOn (contents : List (List Char)) : List Row :=
  (contents.zipIdx 1).filterMap fun (content, number) => rowOn? content number

/-- By how much the search for a row after these lines began too early: the blank ones at their end,
and one more for a return with a feed before those. -/
def lag (lines : List Line) : Nat :=
  let blank := lines.reverse.takeWhile Line.isBlank
  let ending? := (lines.reverse.dropWhile Line.isBlank).head?.map Line.ending
  blank.length + if ending? = some .returnFeed then 1 else 0

theorem lag_concat (lines : List Line) (line : Line) :
    lag (lines ++ [line]) =
      if line.isBlank then lag lines + 1 else if line.ending = .returnFeed then 1 else 0 := by
  unfold lag
  rw [List.reverse_append, List.reverse_singleton, List.singleton_append]
  cases blank : line.isBlank with
  | true =>
    simp only [List.takeWhile_cons, List.dropWhile_cons, blank, if_true, List.length_cons]
    omega
  | false => simp [blank]

theorem lag_le_length (lines : List Line) : lag lines ≤ lines.length := by
  induction lines using List.reverseRecOn with
  | nil => exact Nat.le_refl 0
  | append_singleton lines line ih =>
    rw [lag_concat, List.length_append, List.length_singleton]
    split
    · omega
    · split <;> omega

theorem lag_take_eq_zero_iff {lines : List Line} {n : Nat} (within : n ≤ lines.length) :
    lag (lines.take n) = 0 ↔
      n = 0 ∨ ∃ line, lines[n - 1]? = some line ∧ line.content ≠ [] ∧ line.ending = .feed := by
  cases n with
  | zero => simp [lag]
  | succ m =>
    have bound : m < lines.length := within
    rw [List.take_succ_eq_append_getElem bound, lag_concat, Nat.add_sub_cancel,
      List.getElem?_eq_getElem bound]
    cases blank : lines[m].isBlank with
    | true =>
      have empty : lines[m].content = [] := List.isEmpty_iff.mp blank
      simp [empty]
    | false =>
      have given : lines[m].content ≠ [] := List.isEmpty_eq_false_iff.mp blank
      cases ending : lines[m].ending <;> simp [given, ending]

theorem rowsOn_concat (contents : List (List Char)) (content : List Char) :
    rowsOn (contents ++ [content]) =
      rowsOn contents ++ (rowOn? content (contents.length + 1)).toList := by
  unfold rowsOn
  rw [List.zipIdx_append, List.filterMap_append, List.zipIdx_singleton, Nat.add_comm 1]
  rfl

theorem line_le_of_mem_rowsOn {contents : List (List Char)} {row : Row}
    (member : row ∈ rowsOn contents) : 0 < row.line ∧ row.line ≤ contents.length := by
  obtain ⟨⟨content, number⟩, indexed, given⟩ := List.mem_filterMap.mp member
  have bounds := List.mem_zipIdx indexed
  have number_eq : row.line = number := by
    unfold rowOn? at given
    dsimp only at given
    split at given
    · cases given
    · cases given
      rfl
  omega

/-- A row under the number of the line on which the search for it began. -/
def located (lines : List Line) (row : Row) : Row :=
  { row with line := row.line - lag (lines.take (row.line - 1)) }

theorem map_located_append {contents : List (List Char)} {lines : List Line}
    (short : contents.length ≤ lines.length + 1) (after : List Line) :
    (rowsOn contents).map (located (lines ++ after)) = (rowsOn contents).map (located lines) := by
  apply List.map_congr_left
  intro row member
  have bounds := line_le_of_mem_rowsOn member
  rw [located, located, List.take_append_of_le_length (by omega)]

namespace Reader

def within (reader row : Reader) : Reader :=
  { reader with position := row.position, field := row.field, fields := row.fields }

variable (reader row : Reader) {c : Char}

theorem stepPlain_within (inside : isLineEnd c = false) :
    (reader.within row).stepPlain c = reader.within (row.stepPlain c) := by
  unfold stepPlain
  split
  · rfl
  · rw [inside]
    rfl

theorem stepField_within (inside : isLineEnd c = false) :
    (reader.within row).stepField c = reader.within (row.stepField c) := by
  unfold stepField
  split
  · rfl
  · exact stepPlain_within reader row inside

theorem ne_feed (inside : isLineEnd c = false) : c ≠ '\n' := by
  rintro rfl
  cases inside

theorem step_within (inside : isLineEnd c = false) :
    (reader.within row).step c = reader.within (row.step c) := by
  have position : (reader.within row).position = row.position := rfl
  rw [step, step, if_neg (ne_feed inside), if_neg (ne_feed inside), stepCounted, stepCounted,
    position]
  cases row.position with
  | beforeRow =>
    simp only [inside, Bool.false_eq_true, if_false]
    exact stepField_within reader row inside
  | beforeField => exact stepField_within reader row inside
  | inField => exact stepPlain_within reader row inside
  | inQuotes =>
    dsimp only
    split <;> rfl
  | afterQuote =>
    dsimp only
    split
    · rfl
    · exact stepPlain_within reader row inside

theorem foldl_step_within {content : List Char} (whole : ∀ c ∈ content, isLineEnd c = false) :
    content.foldl step (reader.within row) = reader.within (content.foldl step row) := by
  induction content generalizing row with
  | nil => rfl
  | cons c rest ih =>
    rw [List.foldl_cons, List.foldl_cons, step_within reader row (whole c List.mem_cons_self)]
    exact ih (row.step c) fun d member => whole d (List.mem_cons_of_mem _ member)

theorem position_step (inside : isLineEnd c = false) : (row.step c).position ≠ .beforeRow := by
  have plain : (row.stepPlain c).position ≠ .beforeRow := by
    unfold stepPlain
    split
    · exact nofun
    · rw [inside]
      exact nofun
  have field : (row.stepField c).position ≠ .beforeRow := by
    unfold stepField
    split
    · exact nofun
    · exact plain
  rw [step, if_neg (ne_feed inside), stepCounted]
  cases row.position with
  | beforeRow =>
    simp only [inside, Bool.false_eq_true, if_false]
    exact field
  | beforeField => exact field
  | inField => exact plain
  | inQuotes =>
    dsimp only
    split <;> exact nofun
  | afterQuote =>
    dsimp only
    split
    · exact nofun
    · exact plain

theorem position_foldl_step {content : List Char} (whole : ∀ c ∈ content, isLineEnd c = false)
    (given : content ≠ []) : (content.foldl step start).position ≠ .beforeRow := by
  rcases List.eq_nil_or_concat' content with rfl | ⟨before, c, rfl⟩
  · exact absurd rfl given
  · rw [List.foldl_append]
    exact position_step _ (whole c (by simp))

variable {reader row}

theorem step_lineEnd (begun : row.position ≠ .beforeRow) (closed : row.position ≠ .inQuotes)
    (ends : isLineEnd c = true) :
    row.step c = (if c = '\n' then { row with line := row.line + 1 } else row).endRow := by
  have noComma : c ≠ ',' := by
    rintro rfl
    cases ends
  have noQuote : c ≠ '"' := by
    rintro rfl
    cases ends
  have plain : ∀ other : Reader, other.stepPlain c = other.endRow := by
    intro other
    rw [stepPlain, if_neg noComma, if_pos ends]
  have field : ∀ other : Reader, other.stepField c = other.endRow := by
    intro other
    rw [stepField, if_neg noQuote, plain]
  have position : (if c = '\n' then { row with line := row.line + 1 } else row).position =
      row.position := by
    split <;> rfl
  rw [step, stepCounted, position]
  cases same : row.position with
  | beforeRow => exact absurd same begun
  | beforeField => exact field _
  | inField => exact plain _
  | inQuotes => exact absurd same closed
  | afterQuote =>
    dsimp only
    rw [if_neg noQuote, plain]

theorem step_feed_between (between : reader.position = .beforeRow) :
    reader.step '\n' = { reader with line := reader.line + 1 } := by
  simp [step, stepCounted, between, isLineEnd]

theorem step_return_between (between : reader.position = .beforeRow) :
    reader.step '\r' = reader := by
  simp [step, stepCounted, between, isLineEnd]

/-- What a reader knows between two lines: all rows so far, and where it looks for the next one. -/
structure HasRead (lines : List Line) (reader : Reader) : Prop where
  position : reader.position = .beforeRow
  line : reader.line = lines.length + 1
  rowLine : reader.rowLine + lag lines = lines.length + 1
  field : reader.field = []
  fields : reader.fields = []
  rows : reader.rows.reverse = (rowsOn (lines.map Line.content)).map (located lines)

theorem hasRead_start : HasRead [] start where
  position := rfl
  line := rfl
  rowLine := rfl
  field := rfl
  fields := rfl
  rows := rfl

namespace HasRead

variable {lines : List Line} {line : Line} {content : List Char}

theorem foldl_content (before : HasRead lines reader)
    (whole : ∀ c ∈ content, isLineEnd c = false) :
    content.foldl step reader = reader.within (content.foldl step start) := by
  have between : reader = reader.within start := by
    obtain ⟨position, line, rowLine, field, fields, rows⟩ := reader
    obtain ⟨rfl, _, _, rfl, rfl, _⟩ := before
    rfl
  rw [between, foldl_step_within reader start whole]
  rfl

theorem rows_concat (before : HasRead lines reader) (given : content ≠ []) :
    ((reader.within (content.foldl step start)).endRow).rows.reverse =
      (rowsOn (lines.map Line.content ++ [content])).map (located lines) := by
  have added : (reader.within (content.foldl step start)).endRow.rows =
      { line := reader.rowLine, fields := fieldsOf content } :: reader.rows := rfl
  have row : rowOn? content (lines.length + 1) =
      some { line := lines.length + 1, fields := fieldsOf content } := by
    simp [rowOn?, given]
  have number : reader.rowLine = lines.length + 1 - lag lines := by
    have sum := before.rowLine
    omega
  rw [added, List.reverse_cons, before.rows, rowsOn_concat, List.length_map, row, List.map_append,
    number]
  simp [located]

theorem foldl_blank (before : HasRead lines reader) (blank : line.content = []) :
    HasRead (lines ++ [line]) (line.text.foldl step reader) := by
  have between := before.position
  have after : line.text.foldl step reader = { reader with line := reader.line + 1 } := by
    rw [Line.text, blank, List.nil_append]
    cases line.ending with
    | feed => exact step_feed_between between
    | returnFeed =>
      show (reader.step '\r').step '\n' = _
      rw [step_return_between between, step_feed_between between]
  rw [after]
  constructor
  · exact between
  · rw [List.length_append, List.length_singleton, ← before.line]
  · have sum := before.rowLine
    have more : lag (lines ++ [line]) = lag lines + 1 := by
      rw [lag_concat, if_pos (by simp [Line.isBlank, blank])]
    rw [more, List.length_append, List.length_singleton]
    dsimp only
    omega
  · exact before.field
  · exact before.fields
  · have none : rowOn? line.content ((lines.map Line.content).length + 1) = none := by
      simp [rowOn?, blank]
    rw [List.map_append, List.map_singleton, rowsOn_concat, none, Option.toList_none,
      List.append_nil, map_located_append (by simp)]
    exact before.rows

theorem foldl_row (before : HasRead lines reader) (isLine : IsLine line.content)
    (given : line.content ≠ []) :
    HasRead (lines ++ [line]) (line.text.foldl step reader) := by
  obtain ⟨row, reading⟩ : ∃ row, row = reader.within (line.content.foldl step start) := ⟨_, rfl⟩
  have begun : row.position ≠ .beforeRow := by
    rw [reading]
    exact position_foldl_step isLine.whole given
  have closed : row.position ≠ .inQuotes := by
    rw [reading]
    exact isLine.closed
  have rows : row.endRow.rows.reverse =
      (rowsOn ((lines ++ [line]).map Line.content)).map (located (lines ++ [line])) := by
    rw [List.map_append, List.map_singleton, map_located_append (by simp), reading,
      before.rows_concat given]
  have number : row.line = lines.length + 1 := by
    rw [reading]
    exact before.line
  have next : (lines ++ [line]).length + 1 = row.line + 1 := by
    rw [List.length_append, List.length_singleton, number]
  have behind : lag (lines ++ [line]) = if line.ending = .returnFeed then 1 else 0 := by
    rw [lag_concat, if_neg (by simp [Line.isBlank, given])]
  rw [Line.text, List.foldl_append, before.foldl_content isLine.whole, ← reading]
  cases ending : line.ending with
  | feed =>
    have after : LineEnd.feed.text.foldl step row = { row with line := row.line + 1 }.endRow :=
      step_lineEnd begun closed rfl
    rw [ending] at behind
    rw [after]
    exact ⟨rfl, next.symm, by rw [behind, next]; rfl, rfl, rfl, rows⟩
  | returnFeed =>
    have after : LineEnd.returnFeed.text.foldl step row =
        { row.endRow with line := row.line + 1 } := by
      show (row.step '\r').step '\n' = _
      rw [step_lineEnd begun closed rfl]
      exact step_feed_between rfl
    rw [ending] at behind
    rw [after]
    exact ⟨rfl, next.symm, by rw [behind, next]; rfl, rfl, rfl, rows⟩

/-- The run over lines, from any that were read before them. -/
theorem foldl_lines {before after : List Line} (read : HasRead before reader)
    (plain : ∀ line ∈ after, IsLine line.content) :
    HasRead (before ++ after) ((after.flatMap Line.text).foldl step reader) := by
  induction after generalizing before reader with
  | nil =>
    rw [List.append_nil]
    exact read
  | cons line rest ih =>
    have next : HasRead (before ++ [line]) (line.text.foldl step reader) := by
      by_cases blank : line.content = []
      · exact read.foldl_blank blank
      · exact read.foldl_row (plain line List.mem_cons_self) blank
    have all := ih next fun other member => plain other (List.mem_cons_of_mem _ member)
    rw [List.append_assoc, List.singleton_append] at all
    rw [List.flatMap_cons, List.foldl_append]
    exact all

theorem finish_last {last : List Char} (read : HasRead lines reader)
    (whole : ∀ c ∈ last, isLineEnd c = false) :
    (last.foldl step reader).finish =
      (rowsOn (lines.map Line.content ++ [last])).map (located lines) := by
  by_cases blank : last = []
  · have none : rowOn? last ((lines.map Line.content).length + 1) = none := by simp [rowOn?, blank]
    rw [rowsOn_concat, none, Option.toList_none, List.append_nil, ← read.rows, blank,
      List.foldl_nil, finish, if_pos read.position]
  · have begun : (reader.within (last.foldl step start)).position ≠ .beforeRow :=
      position_foldl_step whole blank
    rw [read.foldl_content whole, finish, if_neg begun, read.rows_concat blank]

end HasRead

end Reader

theorem rows_lines {text : List Char} {lines : List Line} {last : List Char}
    (cut : dropMark text = textOfLines lines last) (plain : ∀ line ∈ lines, IsLine line.content)
    (whole : ∀ c ∈ last, Reader.isLineEnd c = false) :
    rows text = (rowsOn (lines.map Line.content ++ [last])).map (located lines) := by
  have read := Reader.hasRead_start.foldl_lines plain
  rw [rows, cut, textOfLines, List.foldl_append, read.finish_last whole]
  rfl

end Campaign.Csv

namespace Campaign.Summary

open Csv

theorem dataRows_map {change : Csv.Row → Csv.Row}
    (keeps : ∀ row, (change row).fields = row.fields) (rows : List Csv.Row) :
    dataRows (rows.map change) = (dataRows rows).map change := by
  have blank : ∀ row, isBlank (change row) = isBlank row := fun row => by
    rw [isBlank, isBlank, keeps]
  have data : ∀ row, isData (change row) = isData row := fun row => by
    rw [isData, isData, keeps]
  have kept : (rows.map change).filter (!isBlank ·) = (rows.filter (!isBlank ·)).map change := by
    rw [List.filter_map]
    congr 1
    apply List.filter_congr
    intro row _
    rw [Function.comp_apply, blank]
  unfold dataRows
  rw [kept]
  cases rows.filter (!isBlank ·) with
  | nil => rfl
  | cons first rest =>
    rw [List.map_cons]
    dsimp only
    rw [data]
    split <;> rfl

theorem mem_of_mem_dataRows {rows : List Csv.Row} {row : Csv.Row} (member : row ∈ dataRows rows) :
    row ∈ rows := by
  apply List.mem_of_mem_filter (p := (!isBlank ·))
  unfold dataRows at member
  cases kept : rows.filter (!isBlank ·) with
  | nil =>
    rw [kept] at member
    cases member
  | cons first rest =>
    rw [kept] at member
    dsimp only at member
    split at member
    · exact member
    · exact List.mem_cons_of_mem _ member

theorem line_located_iff {lines : List Line} {row : Csv.Row} {number : Nat}
    (bounds : 0 < row.line ∧ row.line ≤ lines.length + 1) :
    number = (located lines row).line ↔
      number + lag (lines.take (row.line - 1)) = row.line ∧
        (number = row.line ↔ row.line = 1 ∨
          ∃ line, lines[row.line - 2]? = some line ∧ line.content ≠ [] ∧
            line.ending = .feed) := by
  have most := lag_le_length (lines.take (row.line - 1))
  rw [List.length_take] at most
  have none := @lag_take_eq_zero_iff lines (row.line - 1) (by omega)
  rw [show row.line - 1 - 1 = row.line - 2 by omega,
    show row.line - 1 = 0 ↔ row.line = 1 by omega] at none
  rw [← none, located]
  dsimp only
  omega

/-- A fault in a text made of lines is the first one of the first faulty row. Its number is that of
the row's line less the lag before it, so it is the right one only on the first line and after a line
that is not blank and ends in a feed alone. -/
theorem parse_locates {text : List Char} {lines : List Line} {last : List Char}
    (cut : dropMark text = textOfLines lines last) (plain : ∀ line ∈ lines, IsLine line.content)
    (whole : ∀ c ∈ last, Csv.Reader.isLineEnd c = false) (number : Nat) (fault : RowFault) :
    parse text = .error (.line number fault) ↔
      ∃ before row after, dataRows (rowsOn (lines.map Line.content ++ [last])) =
          before ++ row :: after ∧
        (∀ earlier ∈ before, ∃ key figures, Reads earlier.fields key figures) ∧
        firstFault? row.fields = some fault ∧
        number + lag (lines.take (row.line - 1)) = row.line ∧
        (number = row.line ↔ row.line = 1 ∨
          ∃ line, lines[row.line - 2]? = some line ∧ line.content ≠ [] ∧
            line.ending = .feed) := by
  obtain ⟨data, standing⟩ : ∃ data, data = dataRows (rowsOn (lines.map Line.content ++ [last])) :=
    ⟨_, rfl⟩
  have found : dataRows (Csv.rows text) = data.map (located lines) := by
    have keeps : ∀ row, (located lines row).fields = row.fields := fun _ => rfl
    rw [rows_lines cut plain whole, dataRows_map keeps, standing]
  have bounds : ∀ row ∈ data, 0 < row.line ∧ row.line ≤ lines.length + 1 := by
    intro row member
    rw [standing] at member
    have within := line_le_of_mem_rowsOn (mem_of_mem_dataRows member)
    rw [List.length_append, List.length_map, List.length_singleton] at within
    exact within
  rw [parse_eq, found, foldlM_addRow_eq_error_iff, ← standing]
  constructor
  · intro given
    obtain ⟨_, _, _, _, split, good, bad, same⟩ := given
    obtain ⟨before, rest, rfl, rfl, restRows⟩ := List.map_eq_append_iff.mp split
    obtain ⟨row, after, rfl, rfl, _⟩ := List.map_eq_cons_iff.mp restRows
    obtain ⟨numbers, faults⟩ := SummaryError.line.inj same
    refine ⟨before, row, after, rfl, ?_, faults ▸ bad, ?_⟩
    · exact fun earlier member => good (located lines earlier) (List.mem_map_of_mem member)
    · exact (line_located_iff (bounds row (by simp))).mp numbers
  · intro given
    obtain ⟨before, row, after, rfl, good, bad, numbers⟩ := given
    have number_eq := (line_located_iff (bounds row (by simp))).mpr numbers
    refine ⟨before.map (located lines), located lines row, after.map (located lines), fault, ?_, ?_,
      bad, ?_⟩
    · rw [List.map_append, List.map_cons]
    · exact List.forall_mem_map.mpr good
    · rw [← number_eq]

theorem parse_locates_thirdLine :
    let lines : List Line := [⟨"N,Stripes".toList, .returnFeed⟩, ⟨[], .feed⟩]
    let last := "1,4,64K,trim,1,1,1".toList
    let text := "N,Stripes\r\n\n1,4,64K,trim,1,1,1".toList
    dropMark text = textOfLines lines last ∧ (∀ line ∈ lines, IsLine line.content) ∧
      (∀ c ∈ last, Csv.Reader.isLineEnd c = false) ∧
      (dataRows (rowsOn (lines.map Line.content ++ [last]))).map (·.line) = [3] ∧
      parse text = .error (.line 1 (.invalidOperation { text := "trim" })) := by
  intro lines last text
  have cut : dropMark text = textOfLines lines last := by decide
  have plain : ∀ line ∈ lines, IsLine line.content := by
    have header : IsLine "N,Stripes".toList := ⟨by simp [Csv.Reader.isLineEnd], by decide⟩
    have blank : IsLine [] := ⟨nofun, nofun⟩
    exact List.forall_mem_cons.mpr ⟨header, List.forall_mem_cons.mpr ⟨blank, nofun⟩⟩
  have whole : ∀ c ∈ last, Csv.Reader.isLineEnd c = false := by
    simp [last, Csv.Reader.isLineEnd]
  have fault : firstFault? (fieldsOf last) = some (.invalidOperation { text := "trim" }) := by
    decide +kernel
  have data : dataRows (rowsOn (lines.map Line.content ++ [last])) =
      [{ line := 3, fields := fieldsOf last }] := by decide +kernel
  refine ⟨cut, plain, whole, by rw [data]; rfl, ?_⟩
  refine (parse_locates cut plain whole 1 _).mpr ⟨[], _, [], data, nofun, fault, ?_, ?_⟩
  · decide
  · decide

end Campaign.Summary
