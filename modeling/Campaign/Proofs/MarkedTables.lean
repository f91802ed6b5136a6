import Campaign.Proofs.Columns
import Campaign.Report.Ior
import Mathlib.Data.List.Basic

namespace Campaign.Ior

def isMarker (line : List Char) : Bool := marker.isPrefixOf line

def isRowOf (op : Operation) (line : List Char) : Bool :=
  (Text.words line).head? == some op.name.toList

def markerLine? (lines : List (List Char)) : Option Nat := lines.findIdx? isMarker

/-- The lines below the first marker. -/
def tableLines (lines : List (List Char)) : List (List Char) :=
  (markerLine? lines).elim [] fun m => lines.drop (m + 1)

def headerLine? (lines : List (List Char)) : Option (List Char) := (tableLines lines).head?

def rowLine? (op : Operation) (lines : List (List Char)) : Option (List Char) :=
  (tableLines lines).tail.find? (isRowOf op)

def IsFirstFrom (passes : List Char → Bool) (lines : List (List Char)) (start i : Nat)
    (line : List Char) : Prop :=
  start ≤ i ∧ lines[i]? = some line ∧ passes line = true ∧
    ∀ j other, start ≤ j → j < i → lines[j]? = some other → passes other = false

section

variable {op : Operation} {lines : List (List Char)} {line : List Char} {m : Nat}

theorem operation?_eq_some_iff : Row.operation? (Text.words line) = some op ↔
    isRowOf op line = true := by
  unfold Row.operation? isRowOf
  rw [beq_iff_eq]
  constructor
  · intro found
    simpa using List.find?_some found
  · intro first
    rw [first]
    cases op <;> decide

theorem operation?_eq_none_iff : Row.operation? (Text.words line) = none ↔
    ∀ op, isRowOf op line = false := by
  rw [Option.eq_none_iff_forall_ne_some]
  refine forall_congr' fun op => ?_
  rw [← Bool.not_eq_true]
  exact not_congr operation?_eq_some_iff

theorem lt_of_markerLine? (found : markerLine? lines = some m) : m < lines.length :=
  (List.findIdx?_eq_some_iff_getElem.mp found).1

theorem markerLine?_append (more : List (List Char)) (found : markerLine? lines = some m) :
    markerLine? (lines ++ more) = some m := by
  have first : lines.findIdx? isMarker = some m := found
  rw [markerLine?, List.findIdx?_append, first]
  rfl

theorem markerLine?_concat (line : List Char) (absent : markerLine? lines = none) :
    markerLine? (lines ++ [line]) = if isMarker line then some lines.length else none := by
  have none : lines.findIdx? isMarker = none := absent
  rw [markerLine?, List.findIdx?_append, none, List.findIdx?_singleton]
  cases isMarker line <;> simp

theorem tableLines_of_none (absent : markerLine? lines = none) : tableLines lines = [] := by
  rw [tableLines, absent]
  rfl

theorem tableLines_of_some (found : markerLine? lines = some m) :
    tableLines lines = lines.drop (m + 1) := by
  rw [tableLines, found]
  rfl

theorem tableLines_append (more : List (List Char)) (found : markerLine? lines = some m) :
    tableLines (lines ++ more) = tableLines lines ++ more := by
  have within := lt_of_markerLine? found
  rw [tableLines_of_some (markerLine?_append more found), tableLines_of_some found,
    List.drop_append_of_le_length (by omega)]

theorem exists_markerLine? {header : List Char} (given : headerLine? lines = some header) :
    ∃ m rest, markerLine? lines = some m ∧ tableLines lines = header :: rest := by
  unfold headerLine? at given
  cases found : markerLine? lines with
  | none =>
    rw [tableLines_of_none found] at given
    cases given
  | some m =>
    obtain ⟨rest, cut⟩ := List.head?_eq_some_iff.mp given
    exact ⟨m, rest, rfl, cut⟩

theorem headerLine?_append {header : List Char} (more : List (List Char))
    (given : headerLine? lines = some header) : headerLine? (lines ++ more) = some header := by
  obtain ⟨m, rest, found, cut⟩ := exists_markerLine? given
  rw [headerLine?, tableLines_append more found, cut]
  rfl

theorem rowLine?_append {header : List Char} (op : Operation) (more : List (List Char))
    (given : headerLine? lines = some header) :
    rowLine? op (lines ++ more) = (rowLine? op lines).or (more.find? (isRowOf op)) := by
  obtain ⟨m, rest, found, cut⟩ := exists_markerLine? given
  rw [rowLine?, rowLine?, tableLines_append more found, cut, List.cons_append, List.tail_cons,
    List.tail_cons, List.find?_append]

/-- Lines before the table do not matter as long as none of them is a marker. -/
theorem tableLines_after (lines : List (List Char)) {before : List (List Char)}
    (plain : ∀ line ∈ before, isMarker line = false) :
    tableLines (before ++ lines) = tableLines lines := by
  have absent : before.findIdx? isMarker = none := List.findIdx?_eq_none_iff.mpr plain
  have moved : markerLine? (before ++ lines) = (markerLine? lines).map (· + before.length) := by
    rw [markerLine?, List.findIdx?_append, absent]
    rfl
  cases found : markerLine? lines with
  | none =>
    rw [found] at moved
    rw [tableLines_of_none moved, tableLines_of_none found]
  | some m =>
    rw [found, Option.map_some] at moved
    have lengths : m + before.length + 1 = before.length + (m + 1) := by omega
    rw [tableLines_of_some moved, tableLines_of_some found, lengths, List.drop_length_add_append]

theorem markerLine?_eq_some_iff :
    markerLine? lines = some m ↔ ∃ title, IsFirstFrom isMarker lines 0 m title := by
  unfold markerLine?
  rw [List.findIdx?_eq_some_iff_getElem]
  constructor
  · intro found
    obtain ⟨within, passes, before⟩ := found
    refine ⟨lines[m], Nat.zero_le _, List.getElem?_eq_getElem within, passes, ?_⟩
    intro j other _ earlier there
    obtain ⟨_, rfl⟩ := List.getElem?_eq_some_iff.mp there
    simpa using before j earlier
  · intro found
    obtain ⟨title, _, there, passes, before⟩ := found
    obtain ⟨within, rfl⟩ := List.getElem?_eq_some_iff.mp there
    refine ⟨within, passes, fun j earlier => ?_⟩
    have plain := before j _ (Nat.zero_le _) earlier (List.getElem?_eq_getElem (by omega))
    simpa using plain

theorem find?_drop_eq_some_iff {passes : List Char → Bool} {start : Nat} :
    (lines.drop start).find? passes = some line ↔ ∃ i, IsFirstFrom passes lines start i line := by
  rw [List.find?_eq_some_iff_getElem]
  constructor
  · intro found
    obtain ⟨passed, i, within, here, before⟩ := found
    have place : lines[start + i]? = some line := by
      rw [← List.getElem?_drop, List.getElem?_eq_getElem within, here]
    refine ⟨start + i, by omega, place, passed, ?_⟩
    intro j other late earlier there
    obtain ⟨offset, rfl⟩ := Nat.exists_eq_add_of_le late
    rw [← List.getElem?_drop] at there
    obtain ⟨_, rfl⟩ := List.getElem?_eq_some_iff.mp there
    simpa using before offset (by omega)
  · intro found
    obtain ⟨i, late, there, passed, before⟩ := found
    obtain ⟨offset, rfl⟩ := Nat.exists_eq_add_of_le late
    rw [← List.getElem?_drop] at there
    obtain ⟨within, here⟩ := List.getElem?_eq_some_iff.mp there
    refine ⟨passed, offset, within, here, fun j earlier => ?_⟩
    have failed := before (start + j) _ (by omega) (by omega)
      (List.getElem?_drop ▸ List.getElem?_eq_getElem (by omega))
    simpa using failed

theorem headerLine?_eq_some_iff :
    headerLine? lines = some line ↔
      ∃ m title, IsFirstFrom isMarker lines 0 m title ∧ lines[m + 1]? = some line := by
  constructor
  · intro given
    obtain ⟨m, rest, found, cut⟩ := exists_markerLine? given
    obtain ⟨title, first⟩ := markerLine?_eq_some_iff.mp found
    refine ⟨m, title, first, ?_⟩
    rw [tableLines_of_some found] at cut
    rw [← List.head?_drop, cut]
    rfl
  · intro given
    obtain ⟨m, title, first, next⟩ := given
    have found := markerLine?_eq_some_iff.mpr ⟨title, first⟩
    rw [headerLine?, tableLines_of_some found, List.head?_drop]
    exact next

theorem rowLine?_eq_some_iff :
    rowLine? op lines = some line ↔
      ∃ m title i, IsFirstFrom isMarker lines 0 m title ∧
        IsFirstFrom (isRowOf op) lines (m + 2) i line := by
  unfold rowLine?
  constructor
  · intro given
    cases found : markerLine? lines with
    | none =>
      rw [tableLines_of_none found] at given
      cases given
    | some m =>
      obtain ⟨title, first⟩ := markerLine?_eq_some_iff.mp found
      rw [tableLines_of_some found, List.tail_drop] at given
      obtain ⟨i, row⟩ := find?_drop_eq_some_iff.mp given
      exact ⟨m, title, i, first, row⟩
  · intro given
    obtain ⟨m, title, i, first, row⟩ := given
    have found := markerLine?_eq_some_iff.mpr ⟨title, first⟩
    rw [tableLines_of_some found, List.tail_drop]
    exact find?_drop_eq_some_iff.mpr ⟨i, row⟩

namespace Reader

/-- What each state of a reader says of the lines read so far, which are trimmed and not blank. -/
def HasRead (lines : List (List Char)) : Reader → Prop
  | .unmarked => markerLine? lines = none
  | .marked => ∃ m, markerLine? lines = some m ∧ tableLines lines = []
  | .inTable header rows => (headerLine? lines).map Text.words = some header ∧
      ∀ op, rows.get op = (rowLine? op lines).map Text.words

variable {reader : Reader}

theorem hasRead_start : start.HasRead [] := rfl

theorem HasRead.header? (held : reader.HasRead lines) :
    reader.header? = (headerLine? lines).map Text.words := by
  cases reader with
  | unmarked =>
    rw [headerLine?, tableLines_of_none held]
    rfl
  | marked =>
    obtain ⟨_, _, nothing⟩ := held
    rw [headerLine?, nothing]
    rfl
  | inTable header rows => exact held.1.symm

theorem HasRead.row? (held : reader.HasRead lines) (op : Operation) :
    reader.row? op = (rowLine? op lines).map Text.words := by
  cases reader with
  | unmarked =>
    rw [rowLine?, tableLines_of_none held]
    rfl
  | marked =>
    obtain ⟨_, _, nothing⟩ := held
    rw [rowLine?, nothing]
    rfl
  | inTable header rows => exact held.2 op

theorem HasRead.stepRow {header : Row} {rows : PerOperation (Option Row)}
    (held : HasRead lines (.inTable header rows)) (line : List Char) :
    HasRead (lines ++ [line]) (stepRow header rows (Text.words line)) := by
  obtain ⟨first, held⟩ := held
  obtain ⟨title, there, words⟩ := Option.map_eq_some_iff.mp first
  have headed : (headerLine? (lines ++ [line])).map Text.words = some header := by
    rw [headerLine?_append [line] there, Option.map_some, words]
  have kept : ∀ op, isRowOf op line = false ∨ (rows.get op).isSome →
      rows.get op = (rowLine? op (lines ++ [line])).map Text.words := by
    intro op given
    rw [rowLine?_append op [line] there, held op]
    rcases given with other | present
    · simp [other]
    · rw [held op, Option.isSome_map] at present
      obtain ⟨row, found⟩ := Option.isSome_iff_exists.mp present
      rw [found, Option.some_or]
  unfold Reader.stepRow
  cases kind : Row.operation? (Text.words line) with
  | none =>
    have none := operation?_eq_none_iff.mp kind
    exact ⟨headed, fun op => kept op (Or.inl (none op))⟩
  | some op =>
    have own := operation?_eq_some_iff.mp kind
    have others : ∀ other, other ≠ op → isRowOf other line = false := by
      intro other different
      rw [← Bool.not_eq_true]
      intro also
      rw [operation?_eq_some_iff.mpr also] at kind
      exact different (Option.some.inj kind)
    dsimp only
    -- The first row of an operation wins: a later one leaves both sides as they are.
    by_cases present : (rows.get op).isSome
    · rw [if_pos present]
      refine ⟨headed, fun other => kept other ?_⟩
      by_cases same : other = op
      · exact Or.inr (same ▸ present)
      · exact Or.inl (others other same)
    · rw [if_neg present]
      refine ⟨headed, fun other => ?_⟩
      by_cases same : other = op
      · subst same
        have absent : rowLine? other lines = none := by
          rw [held other, Option.isSome_map] at present
          simpa using present
        rw [PerOperation.get_set_self, rowLine?_append other [line] there, absent]
        simp [own]
      · rw [PerOperation.get_set_of_ne _ same]
        exact kept other (Or.inl (others other same))

theorem HasRead.step (held : reader.HasRead lines) (given : line ≠ []) :
    (reader.step line).HasRead (lines ++ [line]) := by
  cases reader with
  | unmarked =>
    have next := markerLine?_concat line held
    unfold Reader.step
    cases kind : isMarker line with
    | true =>
      have begins : marker.isPrefixOf line = true := kind
      rw [kind, if_pos rfl] at next
      rw [if_pos begins]
      refine ⟨_, next, ?_⟩
      rw [tableLines_of_some next, List.drop_eq_nil_iff]
      simp
    | false =>
      have plain : ¬ marker.isPrefixOf line = true := Bool.eq_false_iff.mp kind
      rw [kind, if_neg Bool.false_ne_true] at next
      rw [if_neg plain]
      exact next
  | marked =>
    obtain ⟨m, found, nothing⟩ := held
    have table := tableLines_append [line] found
    rw [nothing, List.nil_append] at table
    have content : ¬ line.isEmpty = true := by simpa using given
    unfold Reader.step
    rw [if_neg content]
    refine ⟨?_, fun op => ?_⟩
    · rw [headerLine?, table]
      rfl
    · rw [rowLine?, table]
      cases op <;> rfl
  | inTable header rows => exact HasRead.stepRow held line

theorem step_blank (reader : Reader) : reader.step [] = reader := by
  cases reader <;> rfl

theorem HasRead.append_of_complete (held : reader.HasRead lines)
    (complete : reader.isComplete = true) (more : List (List Char)) :
    reader.HasRead (lines ++ more) := by
  cases reader with
  | unmarked => cases complete
  | marked => cases complete
  | inTable header rows =>
    obtain ⟨first, held⟩ := held
    obtain ⟨title, there, words⟩ := Option.map_eq_some_iff.mp first
    refine ⟨by rw [headerLine?_append more there, Option.map_some, words], fun op => ?_⟩
    have both := Bool.and_eq_true_iff.mp complete
    have present : (rows.get op).isSome = true := by
      cases op with
      | read => exact both.2
      | write => exact both.1
    rw [held op, Option.isSome_map] at present
    obtain ⟨row, found⟩ := Option.isSome_iff_exists.mp present
    rw [rowLine?_append op more there, held op, found, Option.some_or]

theorem HasRead.read (held : reader.HasRead lines) (more : List (List Char)) :
    (reader.read more).HasRead (lines ++ (more.map Text.trim).filter (!·.isEmpty)) := by
  induction more generalizing reader lines with
  | nil =>
    rw [List.map_nil, List.filter_nil, List.append_nil]
    exact held
  | cons line rest ih =>
    unfold Reader.read
    by_cases complete : reader.isComplete = true
    · rw [if_pos complete]
      exact held.append_of_complete complete _
    · rw [if_neg complete]
      by_cases blank : Text.trim line = []
      · rw [blank, step_blank]
        simpa [blank] using ih held
      · simpa [blank] using ih (held.step blank)

end Reader

theorem parse_eq (text : List Char) :
    parse text = ofRows ((headerLine? (Text.contentLines text)).map Text.words)
      ((rowLine? .write (Text.contentLines text)).map Text.words)
      ((rowLine? .read (Text.contentLines text)).map Text.words) := by
  have held := Reader.hasRead_start.read (text.splitOn '\n')
  rw [List.nil_append, ← Text.contentLines.eq_1] at held
  rw [← held.header?, ← held.row? .write, ← held.row? .read]
  rfl

theorem texts_missingParts (header? write? read? : Option (List Char)) :
    (missingParts (header?.map Text.words) (write?.map Text.words) (read?.map Text.words)).map
        ReportPart.text =
      (if header?.isNone then ["header"] else []) ++
        (if write?.isNone then ["write row"] else []) ++
        (if read?.isNone then ["read row"] else []) := by
  cases header? <;> cases write? <;> cases read? <;> rfl

theorem ofRows_eq_error {header? write? read? : Option Row}
    (lacking : ¬ (header?.isSome ∧ write?.isSome ∧ read?.isSome)) :
    ofRows header? write? read? = .error (.malformed (missingParts header? write? read?)) := by
  unfold ofRows
  split
  · exact absurd ⟨rfl, rfl, rfl⟩ lacking
  · rfl

theorem ofRows_eq_ok_iff {header? write? read? : Option Row} {record : RunRecord} :
    ofRows header? write? read? = .ok record ↔
      ∃ header write read, header? = some header ∧ write? = some write ∧ read? = some read ∧
        record = { read := metrics header read, write := metrics header write } := by
  unfold ofRows
  split
  · simp [eq_comm]
  · rename_i lacking
    constructor
    · intro failed
      cases failed
    · intro given
      obtain ⟨header, write, read, headed, writes, reads, _⟩ := given
      exact absurd reads (lacking header write read headed writes)

theorem lines_of_ok {text : List Char} {record : RunRecord} (parsed : parse text = .ok record) :
    ∃ header, headerLine? (Text.contentLines text) = some header ∧
      ∀ op, ∃ row, rowLine? op (Text.contentLines text) = some row ∧
        record.get op = metrics (Text.words header) (Text.words row) := by
  rw [parse_eq, ofRows_eq_ok_iff] at parsed
  simp only [Option.map_eq_some_iff] at parsed
  obtain ⟨_, _, _, ⟨header, headed, rfl⟩, ⟨write, writes, rfl⟩, ⟨read, reads, rfl⟩, rfl⟩ := parsed
  refine ⟨header, headed, fun op => ?_⟩
  cases op with
  | read => exact ⟨read, reads, rfl⟩
  | write => exact ⟨write, writes, rfl⟩

theorem lines_of_parse {text : List Char} {record : RunRecord} (read : parse text = .ok record)
    {before : List (List Char)} (plain : ∀ line ∈ before, isMarker line = false)
    (after : List (List Char)) :
    headerLine? (before ++ Text.contentLines text ++ after) =
        headerLine? (Text.contentLines text) ∧
      ∀ op, rowLine? op (before ++ Text.contentLines text ++ after) =
        rowLine? op (Text.contentLines text) := by
  obtain ⟨header, there, rows⟩ := lines_of_ok read
  have table := tableLines_after (Text.contentLines text ++ after) plain
  rw [List.append_assoc]
  constructor
  · rw [headerLine?, table, there]
    exact headerLine?_append after there
  · intro op
    obtain ⟨row, found, _⟩ := rows op
    have same : rowLine? op (before ++ (Text.contentLines text ++ after)) =
        rowLine? op (Text.contentLines text ++ after) := by
      rw [rowLine?, table]
      rfl
    rw [same, rowLine?_append op after there, found, Option.some_or]

/-- A report is read as its first table says, blank lines and blanks at the ends of lines aside:
the header stands below the first marker, and the rows are the first ones below the header. -/
theorem parse_eq_table (text : List Char) :
    let lines := Text.contentLines text
    let texts := fun line : List Char => (Text.words line).map String.ofList
    (∀ line, isMarker line = true ↔ "Summary of all tests:".toList <+: line) ∧
    (∀ line, (isRowOf .write line = true ↔ (Text.words line).head? = some "write".toList) ∧
      (isRowOf .read line = true ↔ (Text.words line).head? = some "read".toList)) ∧
    (∀ header, headerLine? lines = some header ↔
      ∃ m title, IsFirstFrom isMarker lines 0 m title ∧ lines[m + 1]? = some header) ∧
    (∀ op row, rowLine? op lines = some row ↔
      ∃ m title i, IsFirstFrom isMarker lines 0 m title ∧
        IsFirstFrom (isRowOf op) lines (m + 2) i row) ∧
    (match headerLine? lines, rowLine? .write lines, rowLine? .read lines with
      | some header, some write, some read =>
        parse text = .ok { read := .zip (texts header) (texts read) numericColumns
                           write := .zip (texts header) (texts write) numericColumns }
      | header?, write?, read? => ∃ missing, parse text = .error (.malformed missing) ∧
          missing.map ReportPart.text =
            (if header?.isNone then ["header"] else []) ++
              (if write?.isNone then ["write row"] else []) ++
              (if read?.isNone then ["read row"] else [])) ∧
    (∀ record, parse text = .ok record →
      ∃ header, headerLine? lines = some header ∧ ∀ op, ∃ row, rowLine? op lines = some row ∧
        ∀ name metric, (record.get op).get? name = some metric ↔
          ∃ i field, Metrics.IsLastColumn (texts header) (texts row) name i ∧
            (texts row)[i]? = some field ∧ metric.Shows numericColumns name field) ∧
    (∀ other, headerLine? (Text.contentLines other) = headerLine? lines →
      (∀ op, rowLine? op (Text.contentLines other) = rowLine? op lines) →
      parse other = parse text) ∧
    ∀ other before after record, Text.contentLines other = before ++ lines ++ after →
      (∀ line ∈ before, isMarker line = false) → parse text = .ok record →
      parse other = .ok record := by
  intro lines texts
  have alike : ∀ other, headerLine? (Text.contentLines other) = headerLine? lines →
      (∀ op, rowLine? op (Text.contentLines other) = rowLine? op lines) →
      parse other = parse text := by
    intro other headers rows
    rw [parse_eq, parse_eq, headers, rows, rows]
  refine ⟨fun line => List.isPrefixOf_iff_prefix, fun line => ⟨beq_iff_eq, beq_iff_eq⟩,
    fun header => headerLine?_eq_some_iff, fun op row => rowLine?_eq_some_iff, ?_, ?_, alike, ?_⟩
  · rw [parse_eq]
    split
    · rename_i header write read
      rw [header, write, read]
      rfl
    · rename_i lacking
      refine ⟨_, ofRows_eq_error ?_, texts_missingParts _ _ _⟩
      simp only [Option.isSome_map, Option.isSome_iff_exists]
      intro given
      obtain ⟨⟨header, headed⟩, ⟨write, writes⟩, ⟨read, reads⟩⟩ := given
      exact lacking header write read headed writes reads
  · intro record parsed
    obtain ⟨header, headed, rows⟩ := lines_of_ok parsed
    refine ⟨header, headed, fun op => ?_⟩
    obtain ⟨row, found, columns⟩ := rows op
    refine ⟨row, found, fun name metric => ?_⟩
    rw [columns]
    exact Metrics.get?_zip_eq_some_iff
  · intro other before after record cut plain read
    obtain ⟨headers, rows⟩ := lines_of_parse read plain after
    rw [alike other (cut ▸ headers) (cut ▸ rows), read]

end

end Campaign.Ior
