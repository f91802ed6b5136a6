import Campaign.Proofs.CutReports
import Campaign.Proofs.MarkedTables
import Campaign.Proofs.WrittenReports

namespace Campaign

namespace Text

theorem words_append_blanks (left : List Char) {right : List Char}
    (blank : ∀ c ∈ right, isBlank c = true) : words (left ++ right) = words left := by
  induction right generalizing left with
  | nil => rw [List.append_nil]
  | cons c rest ih =>
    have nothing : words rest = [] := ih [] fun c member => blank c (List.mem_cons_of_mem _ member)
    rw [words_append_blank (blank c List.mem_cons_self), nothing, List.append_nil]

theorem words_take_append {word : List Char} (given : word ≠ [])
    (plain : ∀ c ∈ word, isBlank c = false) (more : List Char) {count : Nat} (some : 0 < count) :
    ∃ later, words ((word ++ ' ' :: more).take count) = word.take count :: later := by
  by_cases within : count ≤ word.length
  · refine ⟨[], ?_⟩
    rw [List.take_append_of_le_length within,
      words_of_plain (take_ne_nil given some) fun c member => plain c (List.mem_of_mem_take member)]
  · obtain ⟨extra, rfl⟩ := Nat.exists_eq_add_of_lt (Nat.lt_of_not_le within)
    have all : word.take (word.length + (extra + 1)) = word := List.take_of_length_le (by omega)
    refine ⟨words (more.take extra), ?_⟩
    rw [Nat.add_assoc, List.take_length_add_append, List.take_succ_cons, words_append given plain,
      all]

theorem words_trim (text : List Char) : words (trim text) = words text := by
  have blank : ∀ text : List Char, ∀ c ∈ text.takeWhile isBlank, isBlank c = true :=
    fun text c member => List.mem_takeWhile_imp member
  generalize front : text.dropWhile isBlank = rest
  have first : words text = words rest := by
    rw [← List.takeWhile_append_dropWhile (p := isBlank) (l := text), front,
      words_blanks_append rest (blank text)]
  have last : rest = (rest.reverse.dropWhile isBlank).reverse ++
      (rest.reverse.takeWhile isBlank).reverse := by
    rw [← List.reverse_append, List.takeWhile_append_dropWhile, List.reverse_reverse]
  rw [trim, front, first]
  conv_rhs => rw [last]
  exact (words_append_blanks _ fun c member => blank _ c (List.mem_reverse.mp member)).symm

theorem head?_words_of_prefix {cut text word : List Char} (first : cut <+: text)
    (head : (words cut).head? = some word) :
    ∃ whole, (words text).head? = some whole ∧ word <+: whole := by
  obtain ⟨front, piece, later, part, pieces, start, cuts⟩ := splitOnP_of_prefix isBlank first
  rw [words, cuts, List.filter_append] at head
  rw [words, pieces, List.filter_append]
  cases before : front.filter (!·.isEmpty) with
  | cons own others =>
    rw [before] at head
    exact ⟨own, rfl, (Option.some.inj head) ▸ List.prefix_rfl⟩
  | nil =>
    rw [before] at head
    cases part with
    | nil => cases head
    | cons c rest =>
      obtain rfl := Option.some.inj head
      obtain ⟨more, rfl⟩ := start
      exact ⟨c :: rest ++ more, rfl, List.prefix_append _ _⟩

end Text

namespace Ior

section

variable {op : Operation} {lines : List (List Char)}

theorem isRowOf_trim (op : Operation) (line : List Char) :
    isRowOf op (Text.trim line) = isRowOf op line := by
  rw [isRowOf, isRowOf, Text.words_trim]

theorem isRowOf_of_prefix {cut text : List Char} (first : cut <+: text)
    (row : isRowOf op cut = true) :
    ∃ whole, (Text.words text).head? = some whole ∧ op.name.toList <+: whole :=
  Text.head?_words_of_prefix first (beq_iff_eq.mp row)

theorem rowLine?_eq_none (absent : ∀ line ∈ lines, isRowOf op line = false) :
    rowLine? op lines = none := by
  have known : ∀ line ∈ tableLines lines, line ∈ lines := by
    intro line member
    cases found : markerLine? lines with
    | none =>
      rw [tableLines_of_none found] at member
      exact absurd member List.not_mem_nil
    | some m =>
      rw [tableLines_of_some found] at member
      exact List.mem_of_mem_drop member
  rw [rowLine?, List.find?_eq_none]
  intro line member
  rw [absent line (known line (List.mem_of_mem_tail member))]
  exact Bool.false_ne_true

theorem parse_ne_ok (op : Operation) {text : List Char}
    (absent : ∀ line ∈ text.splitOn '\n', isRowOf op line = false) (record : RunRecord) :
    parse text ≠ .ok record := by
  have none : rowLine? op (Text.contentLines text) = none := by
    apply rowLine?_eq_none
    intro line member
    obtain ⟨written, inText, rfl⟩ := List.mem_map.mp (List.mem_filter.mp member).1
    rw [isRowOf_trim]
    exact absent written inText
  intro parsed
  obtain ⟨_, _, rows⟩ := lines_of_ok parsed
  obtain ⟨row, found, _⟩ := rows op
  rw [none] at found
  cases found

end

def front (write : Figures) : List Char := (Text.unlines (frontLines write)).toList

theorem toList_report (figures : PerOperation Figures) :
    (report figures.write figures.read).toList =
      front figures.write ++ ((writtenRow (lead .read) figures.read).toList ++ ['\n']) := by
  rw [report_eq_unlines, front]
  simp [Text.unlines]

theorem splitOn_front (write : Figures) {last : List Char} (flat : '\n' ∉ last) :
    (front write ++ last).splitOn '\n' = (frontLines write).map String.toList ++ [last] :=
  Text.splitOn_unlines_append (flat_frontLines write) flat

theorem heads_front (write : Figures) : ∀ line ∈ frontLines write ++ ["rea"],
    ∃ word, ¬ Operation.read.name.toList <+: word ∧ (Text.words line.toList).head? = some word := by
  have title : (Text.words "Summary of all tests:".toList).head? = some "Summary".toList := by
    rw [String.toList_ofList, String.toList_ofList]
    rfl
  have header : (Text.words titles.toList).head? = some "Operation".toList := by
    rw [titles, String.toList_ofList, String.toList_ofList]
    rfl
  have row : (Text.words (writtenRow (lead .write) write).toList).head? = some "write".toList := by
    rw [words_writtenRow]
    rfl
  have last : (Text.words "rea".toList).head? = some "rea".toList := by
    rw [String.toList_ofList]
    rfl
  simp only [frontLines, List.cons_append, List.nil_append, List.forall_mem_cons]
  exact ⟨⟨_, by decide, title⟩, ⟨_, by decide, header⟩, ⟨_, by decide, row⟩, ⟨_, by decide, last⟩,
    List.forall_mem_nil _⟩

/-- Before the last row is known as one of reading, a cut report has no such row. -/
theorem parse_of_prefix (write : Figures) {cut : List Char}
    (start : cut <+: front write ++ "rea".toList) (record : RunRecord) :
    parse cut ≠ .ok record := by
  have pieces : (front write ++ "rea".toList).splitOn '\n' =
      (frontLines write ++ ["rea"]).map String.toList := by
    rw [splitOn_front write (by decide), List.map_append]
    rfl
  obtain ⟨before, piece, later, part, whole, begins, cuts⟩ :=
    Text.splitOnP_of_prefix (· == '\n') start
  have known : ∀ line ∈ before ++ piece :: later,
      ∃ written ∈ frontLines write ++ ["rea"], written.toList = line := by
    intro line member
    rw [← whole] at member
    exact List.mem_map.mp (pieces ▸ member)
  have lines : cut.splitOn '\n' = before ++ [part] := cuts
  refine parse_ne_ok .read (fun line member => ?_) record
  rw [lines] at member
  obtain ⟨written, stored, first⟩ : ∃ written ∈ frontLines write ++ ["rea"],
      line <+: written.toList := by
    rcases List.mem_append.mp member with early | last
    · obtain ⟨written, stored, rfl⟩ := known line (List.mem_append_left _ early)
      exact ⟨written, stored, List.prefix_rfl⟩
    · obtain rfl := List.mem_singleton.mp last
      obtain ⟨written, stored, rfl⟩ :=
        known piece (List.mem_append_right _ List.mem_cons_self)
      exact ⟨written, stored, begins⟩
  rw [← Bool.not_eq_true]
  intro row
  obtain ⟨word, head, named⟩ := isRowOf_of_prefix first row
  obtain ⟨other, different, own⟩ := heads_front write written stored
  rw [own] at head
  exact different (Option.some.inj head ▸ named)

/-- A written report as far as the maximum of its last row. -/
def stem (write : Figures) : List Char := front write ++ (lead .read).toList

theorem toList_readRow (figures : Figures) :
    ∃ more, (writtenRow (lead .read) figures).toList =
      (lead .read).toList ++ (figures.max.fixedText 2 ++ ' ' :: more) := by
  refine ⟨"   ".toList ++ (figures.min.fixedText 2 ++ ("    ".toList ++
    (figures.mean.fixedText 2 ++ "     0.00    POSIX".toList))), ?_⟩
  simp [writtenRow, Binary64.toFixed]

theorem words_lead (rest : List Char) :
    Text.words ((lead .read).toList ++ rest) = "read".toList :: Text.words rest := by
  have cut : (lead .read).toList ++ rest =
      "read".toList ++ ' ' :: (List.replicate 7 ' ' ++ rest) := rfl
  have name : Csv.IsPlainField "read".toList := (Lsm.isPlain_name .read).1
  have plain := fun c member => (Csv.isPlain_iff.mp (name.plain c member)).2.2
  rw [cut, Text.words_append name.given plain, Text.words_blanks]

/-- What a row of reading that is cut has in the place of its maximum. -/
theorem words_take_readRow (figures : Figures) {count : Nat} (named : 4 ≤ count) :
    let cut := (writtenRow (lead .read) figures).toList.take count
    (Text.words cut).head? = some "read".toList ∧
      (Text.words cut)[1]?.bind Binary64.ofText? =
        Binary64.ofText? ((figures.max.fixedText 2).take (count - 12)) := by
  intro cut
  obtain ⟨more, row⟩ := toList_readRow figures
  have part : cut = ((lead .read).toList ++ (figures.max.fixedText 2 ++ ' ' :: more)).take count :=
    congrArg (List.take count) row
  by_cases early : count ≤ 12
  · obtain ⟨extra, rfl⟩ := Nat.exists_eq_add_of_le named
    have leads : (lead .read).toList = "read".toList ++ List.replicate 8 ' ' := rfl
    have four : "read".toList.length = 4 := by decide
    have fewer : min extra 8 = extra := by omega
    have blank : ∀ c ∈ List.replicate extra ' ', Text.isBlank c = true := by
      intro c member
      rw [List.eq_of_mem_replicate member]
      decide
    have words : Text.words cut = ["read".toList] := by
      rw [part, List.take_append_of_le_length early, leads, ← four, List.take_length_add_append,
        List.take_replicate, fewer, Text.words_append_blanks _ blank]
      rfl
    have nothing : 4 + extra - 12 = 0 := by omega
    rw [words, nothing]
    exact ⟨rfl, rfl⟩
  · obtain ⟨extra, rfl⟩ := Nat.exists_eq_add_of_le (Nat.le_of_not_le early)
    have twelve : (lead .read).toList.length = 12 := by decide
    have plain := Csv.isPlainField_fixedText 2 figures.max
    obtain ⟨later, second⟩ := Text.words_take_append plain.given
      (fun c member => (Csv.isPlain_iff.mp (plain.plain c member)).2.2) more
      (show 0 < extra by omega)
    have words : Text.words cut =
        "read".toList :: (figures.max.fixedText 2).take extra :: later := by
      rw [part, ← twelve, List.take_length_add_append, words_lead, second]
    rw [words, Nat.add_sub_cancel_left]
    exact ⟨rfl, rfl⟩

theorem parse_front_take (figures : PerOperation Figures) {count : Nat} (named : 4 ≤ count) :
    let row := (writtenRow (lead .read) figures.read).toList
    ∃ record, parse (front figures.write ++ (row ++ ['\n']).take count) = .ok record ∧
      record.number? .write maxColumn = some (figures.write.max.reread 2) ∧
      record.number? .read maxColumn =
        Binary64.ofText? ((figures.read.max.fixedText 2).take (count - 12)) := by
  intro row
  obtain ⟨first, second⟩ := words_take_readRow figures.read named
  have isRow : isRowOf .read (Text.trim (row.take count)) = true := by
    rw [isRowOf_trim, isRowOf, first]
    rfl
  have given : (Text.trim (row.take count)).isEmpty = false := by
    rw [List.isEmpty_eq_false_iff]
    intro empty
    rw [empty] at isRow
    cases isRow
  have lines : Text.contentLines (front figures.write ++ (row ++ ['\n']).take count) =
      (frontLines figures.write).map String.toList ++ [Text.trim (row.take count)] := by
    by_cases within : count ≤ row.length
    · have flat : '\n' ∉ row.take count := fun feed =>
        flat_writtenRow .read figures.read (List.mem_of_mem_take feed)
      rw [List.take_append_of_le_length within,
        contentLines_frontLines figures.write (splitOn_front figures.write flat)]
      simp [given]
    · have all : row.take count = row := List.take_of_length_le (by omega)
      have ended : (row ++ ['\n']).take count = row ++ ['\n'] :=
        List.take_of_length_le (by simp; omega)
      rw [ended, all, ← toList_report, contentLines_report, trim_writtenRow]
  refine ⟨_, parse_frontLines figures.write lines isRow, ?_, ?_⟩
  · refine (number?_writtenRow .write figures.write ?_).1
    simp only [PerOperation.get]
  · rw [Text.words_trim, ← second]
    refine number?_row (i := 1) ?_ rfl (by decide)
    simp only [PerOperation.get, row]

/-- A written report that is cut after any number of its characters is read exactly if the name of
its last row is there. Then the maximum of writing is that of the whole report, and the maximum of
reading is what the part of its text before the cut reads as. -/
theorem parse_take (figures : PerOperation Figures) (length : Nat) :
    let text := (report figures.write figures.read).toList
    let before := stem figures.write
    let maximum := figures.read.max.fixedText 2
    (before ++ maximum <+: text) ∧
    ((∃ record, parse (text.take length) = .ok record) ↔ before.length ≤ length + 8) ∧
    ∃ whole, parse text = .ok whole ∧
      ∀ record, parse (text.take length) = .ok record →
        record.number? .write maxColumn = whole.number? .write maxColumn ∧
        record.number? .read maxColumn =
          Binary64.ofText? (maximum.take (length - before.length)) ∧
        (length ≤ before.length → record.number? .read maxColumn = none) ∧
        (before.length + maximum.length ≤ length →
          record.number? .read maxColumn = whole.number? .read maxColumn) := by
  intro text before maximum
  obtain ⟨more, readRow⟩ := toList_readRow figures.read
  obtain ⟨whole, parsed, peaks⟩ := parse_report figures
  have split : text = front figures.write ++
      ((writtenRow (lead .read) figures.read).toList ++ ['\n']) := toList_report figures
  have starts : before.length = (front figures.write).length + 12 := by
    simp [before, stem, lead]
  have within : before ++ maximum <+: text := by
    rw [split, readRow]
    exact ⟨' ' :: more ++ ['\n'], by simp [before, stem, maximum]⟩
  by_cases named : before.length ≤ length + 8
  · obtain ⟨count, rfl⟩ :=
      Nat.exists_eq_add_of_le (show (front figures.write).length ≤ length by omega)
    obtain ⟨record, found, write, read⟩ :=
      parse_front_take figures (show 4 ≤ count by omega)
    have left : text.take ((front figures.write).length + count) = front figures.write ++
        ((writtenRow (lead .read) figures.read).toList ++ ['\n']).take count := by
      rw [split, List.take_length_add_append]
    have place : (front figures.write).length + count - before.length = count - 12 := by omega
    rw [left, place]
    refine ⟨within, ⟨fun _ => named, fun _ => ⟨record, found⟩⟩, whole, parsed,
      fun other given => ?_⟩
    obtain rfl := Except.ok.inj (found.symm.trans given)
    refine ⟨write.trans (peaks .write).1.symm, read, fun early => ?_, fun late => ?_⟩
    · have nothing : count - 12 = 0 := by omega
      rw [read, nothing]
      rfl
    · have all : maximum.take (count - 12) = maximum := List.take_of_length_le (by omega)
      rw [read, all, (peaks .read).1]
      exact Binary64.ofText?_fixedText 2 figures.read.max
  · have start : text.take length <+: front figures.write ++ "rea".toList := by
      have part : front figures.write ++ "rea".toList <+: text := by
        rw [split, readRow]
        exact ⟨"d        ".toList ++ (maximum ++ ' ' :: more) ++ ['\n'],
          by simp [lead, maximum]⟩
      refine List.prefix_of_prefix_length_le (List.take_prefix _ _) part ?_
      rw [List.length_take, List.length_append]
      have three : "rea".toList.length = 3 := by decide
      omega
    have none := parse_of_prefix figures.write start
    refine ⟨within, ⟨fun given => ?_, fun long => absurd long named⟩, whole, parsed,
      fun record given => absurd given (none record)⟩
    obtain ⟨record, given⟩ := given
    exact absurd given (none record)

def tens : PerOperation Figures :=
  let ten : Figures := { max := .ofNat 10, min := .ofNat 10, mean := .ofNat 10 }
  { read := ten, write := ten }

/-- A report that is cut after the first digit of a maximum of ten gives a maximum of one. -/
theorem parse_take_withinMaximum :
    let text := (report tens.write tens.read).toList
    let peak (text : List Char) : Except ReportError (Option Binary64) :=
      (parse text).map fun record => record.number? .read maxColumn
    peak (text.take ((stem tens.write).length + 1)) = .ok (some (.ofNat 1)) ∧
      peak text = .ok (some (.ofNat 10)) ∧ Binary64.ofNat 1 ≠ .ofNat 10 := by
  decide +kernel

end Ior

end Campaign
