import Campaign.Proofs.Sections
import Campaign.Proofs.Shares
import Campaign.Proofs.WrittenReports

namespace Campaign

namespace Text

/-- A cut text has the pieces of the whole one up to the piece that is cut itself. -/
theorem splitOnP_of_prefix {α : Type} (separates : α → Bool) {cut text : List α}
    (first : cut <+: text) :
    ∃ front piece later part, text.splitOnP separates = front ++ piece :: later ∧
      part <+: piece ∧ cut.splitOnP separates = front ++ [part] := by
  induction text generalizing cut with
  | nil =>
    obtain rfl := List.prefix_nil.mp first
    exact ⟨[], [], [], [], rfl, List.nil_prefix, rfl⟩
  | cons c rest ih =>
    obtain rfl | ⟨more, rfl, further⟩ := List.prefix_cons_iff.mp first
    · obtain ⟨piece, later, pieces⟩ :=
        List.exists_cons_of_ne_nil (List.splitOnP_ne_nil separates (c :: rest))
      exact ⟨[], piece, later, [], pieces, List.nil_prefix, rfl⟩
    · obtain ⟨front, piece, later, part, whole, start, cuts⟩ := ih further
      rw [List.splitOnP_cons_eq_if_modifyHead, List.splitOnP_cons_eq_if_modifyHead, whole, cuts]
      split
      · exact ⟨[] :: front, piece, later, part, rfl, start, rfl⟩
      · cases front with
        | nil =>
          have longer : c :: part <+: c :: piece := List.cons_prefix_cons.mpr ⟨rfl, start⟩
          exact ⟨[], c :: piece, later, c :: part, rfl, longer, rfl⟩
        | cons head others => exact ⟨(c :: head) :: others, piece, later, part, rfl, start, rfl⟩

theorem exists_digits_of_prefix (n : Nat) {part : List Char} (first : part <+: digits n)
    (given : part ≠ []) : ∃ m, part = digits m := by
  by_cases small : n < 10
  · have single : digits n = [Nat.digitChar n] := Nat.toDigits_of_lt_base small
    rw [single] at first
    obtain rfl | ⟨rest, rfl, nothing⟩ := List.prefix_cons_iff.mp first
    · exact absurd rfl given
    · exact ⟨n, by rw [single, List.prefix_nil.mp nothing]⟩
  · have step : digits n = digits (n / 10) ++ [Nat.digitChar (n % 10)] :=
      Nat.toDigits_of_base_le (by decide) (by omega)
    rw [step, List.prefix_concat_iff] at first
    rcases first with rfl | earlier
    · exact ⟨n, step.symm⟩
    · exact exists_digits_of_prefix (n / 10) earlier given
termination_by n

theorem take_ne_nil {text : List Char} (given : text ≠ []) {count : Nat} (some : 0 < count) :
    text.take count ≠ [] := by
  intro none
  rcases List.take_eq_nil_iff.mp none with zero | empty
  · omega
  · exact given empty

theorem length_filter_trim_le (lines : List (List Char)) :
    ((lines.map trim).filter (!·.isEmpty)).length ≤ lines.length := by
  have fewer := List.length_filter_le (fun line : List Char => !line.isEmpty) (lines.map trim)
  rwa [List.length_map] at fewer

theorem length_filter_trim_concat_nil (lines : List (List Char)) :
    (((lines ++ [[]] : List (List Char)).map trim).filter (!·.isEmpty)).length ≤
      lines.length := by
  rw [List.map_append, List.filter_append, List.length_append]
  exact length_filter_trim_le lines

end Text

namespace Lsm

section

variable {op : Operation} {before last : List (List Char)}

theorem sectionsOf_eq_nil (plain : ∀ line ∈ before, banner? line ≠ some op)
    (few : last.length ≤ 2) : sectionsOf op (before ++ last) = [] := by
  have count : sectionsOf op (before ++ last) =
      (List.range before.length).filterMap (sectionAt? op (before ++ last)) :=
    sectionsOf_eq (by simp) (by simpa using few)
  rw [count, List.filterMap_eq_nil_iff]
  intro i member
  have within : i < before.length := List.mem_range.mp member
  have here : (before ++ last)[i]? = some before[i] := by
    rw [List.getElem?_append_left within, List.getElem?_eq_getElem within]
  unfold sectionAt?
  rw [here]
  split
  · rename_i title header row same _ _
    rw [if_neg]
    intro given
    exact plain _ (List.getElem_mem within) (Option.some.inj same ▸ given.1)
  · rfl

end

theorem parse_ne_ok {text : List Char} (none : sectionsOf .read (Text.contentLines text) = [])
    (record : RunRecord) : parse text ≠ .ok record := by
  rw [parse_eq, none]
  cases sectionsOf .write (Text.contentLines text) <;> simp

variable {access : String} (figures : Figures)

/-- A written row as far as its last comma. -/
def rowStem (access : String) (figures : Figures) : List Char :=
  List.intercalate [','] ((rowFields access figures).dropLast ++ [[]])

theorem writtenRow_eq_stem :
    (writtenRow access figures).toList = rowStem access figures ++ Text.digits figures.iterations := by
  rw [toList_writtenRow]
  simp [rowStem, rowFields, List.intercalate_cons_cons]

theorem last_of_prefix_rowStem (plain : Csv.IsPlainField access.toList) {part : List Char}
    (first : part <+: rowStem access figures) :
    ∀ text ∈ (Text.commaFields part)[6]?, text = [] := by
  have noComma : ∀ field ∈ (rowFields access figures).dropLast ++ [[]], ',' ∉ field := by
    intro field member inField
    rcases List.mem_append.mp member with early | last
    · have fieldPlain := isPlain_rowFields figures plain field (List.dropLast_subset _ early)
      exact absurd (fieldPlain.plain _ inField) (by decide)
    · rw [List.mem_singleton.mp last] at inField
      exact absurd inField List.not_mem_nil
  have pieces : (rowStem access figures).splitOn ',' = (rowFields access figures).dropLast ++ [[]] :=
    List.splitOn_intercalate ',' noComma (by simp)
  obtain ⟨front, piece, later, cut, whole, start, cuts⟩ :=
    Text.splitOnP_of_prefix (· == ',') first
  have same : front ++ piece :: later = (rowFields access figures).dropLast ++ [[]] :=
    whole.symm.trans pieces
  have seven := congrArg List.length same
  simp only [rowFields, List.length_append, List.length_cons, List.length_dropLast,
    List.length_nil] at seven
  have fields : Text.commaFields part = (front ++ [cut]).map Text.trim := congrArg (List.map _) cuts
  intro text member
  rw [fields, List.getElem?_map] at member
  by_cases last : front.length = 6
  · obtain ⟨_, ends⟩ := List.append_inj same last
    obtain ⟨rfl, _⟩ := List.cons.inj ends
    obtain rfl := List.prefix_nil.mp start
    have here : (front ++ [[]])[6]? = some ([] : List Char) := by
      rw [← last, List.getElem?_concat_length]
    rw [here] at member
    exact (Option.some.inj member).symm
  · rw [List.getElem?_eq_none (by simp; omega)] at member
    cases member

def stem (figures : PerOperation Figures) : List Char :=
  (Text.unlines (frontLines figures ++ ["Bench-READ: lsm", header])).toList ++
    rowStem Operation.read.name figures.read

theorem toList_report (figures : PerOperation Figures) :
    (report figures.write figures.read).toList =
      stem figures ++ (Text.digits figures.read.iterations ++ ['\n']) := by
  have row : (writtenRow Operation.read.name figures.read).toList =
      rowStem Operation.read.name figures.read ++ Text.digits figures.read.iterations :=
    writtenRow_eq_stem figures.read
  have text : ∀ front : List String, (Text.unlines (front ++ sectionLines "Bench-READ: lsm"
      Operation.read.name figures.read)).toList =
        (Text.unlines (front ++ ["Bench-READ: lsm", header])).toList ++
          ((writtenRow Operation.read.name figures.read).toList ++ ['\n']) := by
    simp [Text.unlines, sectionLines]
  rw [report_eq_unlines, text, row, stem]
  simp only [List.append_assoc]

theorem noReadBanner_frontLines (figures : PerOperation Figures) :
    ∀ line ∈ frontLines figures, banner? (Text.trim line.toList) ≠ some .read := by
  have opening := isInert_openingLines figures.write
  have between := isInert_betweenLines figures.read
  have title : banner? (Text.trim "Bench-WRITE: lsm".toList) ≠ some .read := by
    rw [banner?_titles.1]
    simp
  have headed : banner? (Text.trim header.toList) ≠ some .read := by
    rw [isInert_header.1]
    simp
  obtain ⟨plain, c, first, other⟩ := isPlain_name .write
  obtain ⟨noBanner, _, same, _⟩ := writtenRow_plain figures.write plain first other
  have row : banner? (Text.trim (writtenRow Operation.write.name figures.write).toList) ≠
      some .read := by
    rw [same, noBanner]
    simp
  simp only [frontLines, sectionLines, List.forall_mem_append, List.forall_mem_cons]
  refine ⟨⟨fun line member => ?_, title, headed, row, List.forall_mem_nil _⟩, fun line member => ?_⟩
  · rw [(opening line member).1]
    simp
  · rw [(between line member).1]
    simp

theorem parse_ne_ok_of_front (figures : PerOperation Figures) {text : List Char}
    {front last : List (List Char)} (pieces : text.splitOn '\n' = front ++ last)
    (inFront : ∀ line ∈ front, line ∈ (frontLines figures).map String.toList)
    (few : ((last.map Text.trim).filter (!·.isEmpty)).length ≤ 2) (record : RunRecord) :
    parse text ≠ .ok record := by
  apply parse_ne_ok
  rw [Text.contentLines, pieces, List.map_append, List.filter_append]
  apply sectionsOf_eq_nil _ few
  intro line member
  obtain ⟨whole, stored, rfl⟩ := List.mem_map.mp (List.mem_filter.mp member).1
  obtain ⟨written, inLines, rfl⟩ := List.mem_map.mp (inFront whole stored)
  exact noReadBanner_frontLines figures written inLines

theorem nodeTotals_ne_ok {record : RunRecord} (op : Operation)
    (missing : record.number? op iterationColumn = none) (node : PerOperation Totals) :
    nodeTotals record ≠ .ok node := by
  intro given
  rw [nodeTotals_eq] at given
  cases gaps : Operation.all.findSome? (gap? record) with
  | some fault =>
    rw [gaps] at given
    cases given
  | none =>
    have full := gap?_eq_none_iff.mp (List.findSome?_eq_none_iff.mp gaps op op.mem_all)
    have present := full iterationColumn (by simp [shareColumns])
    rw [missing] at present
    cases present

theorem isPrefix_rowStem : rowStem access figures <+: (writtenRow access figures).toList := by
  rw [writtenRow_eq_stem]
  exact List.prefix_append _ _

theorem flat_front (figures : PerOperation Figures) :
    ∀ line ∈ frontLines figures ++ ["Bench-READ: lsm", header], '\n' ∉ line.toList := by
  have title : '\n' ∉ "Bench-READ: lsm".toList := by decide
  simp only [List.forall_mem_append, List.forall_mem_cons]
  exact ⟨flat_frontLines figures, title, isInert_header.2, List.forall_mem_nil _⟩

theorem splitOn_stem (figures : PerOperation Figures) :
    (stem figures).splitOn '\n' = (frontLines figures).map String.toList ++
      ["Bench-READ: lsm".toList, header.toList, rowStem Operation.read.name figures.read] := by
  obtain ⟨plain, c, first, other⟩ := isPlain_name .read
  obtain ⟨_, _, _, flatRow⟩ := writtenRow_plain figures.read plain first other
  have flatStem : '\n' ∉ rowStem Operation.read.name figures.read := fun feed =>
    flatRow ((isPrefix_rowStem figures.read).subset feed)
  rw [stem, Text.splitOn_unlines_append (flat_front figures) flatStem, List.map_append,
    List.append_assoc]
  rfl

theorem nodeTotals_of_prefix_rowStem (figures : PerOperation Figures) {cut part : List Char}
    (pieces : cut.splitOn '\n' = (frontLines figures).map String.toList ++
      ["Bench-READ: lsm".toList, header.toList, part])
    (start : part <+: rowStem Operation.read.name figures.read) (given : part ≠ [])
    (node : PerOperation Totals) : (parse cut >>= nodeTotals) ≠ .ok node := by
  obtain ⟨plain, c, first, other⟩ := isPlain_name .read
  obtain ⟨noBanner, same, _⟩ := plain_of_prefix_writtenRow figures.read plain first other
    (start.trans (isPrefix_rowStem figures.read)) given
  have lines : cut.splitOn '\n' = (frontLines figures ++
      ["Bench-READ: lsm", header, String.ofList part] ++ []).map String.toList := by
    simp [pieces]
  have parsed := parse_frontLines figures lines noBanner given same
  rw [parsed]
  split
  · exact nofun
  · refine nodeTotals_ne_ok .read ?_ node
    rw [number?_row rfl (i := 6) rfl (by decide)]
    cases last : (Text.commaFields part)[6]? with
    | none => rfl
    | some text =>
      rw [last_of_prefix_rowStem figures.read plain start text last]
      rfl

/-- The lines of a report that is cut within its stem: few after those before the last section, or
all up to the last row, which is cut itself. -/
theorem lines_of_prefix_stem (figures : PerOperation Figures) {cut : List Char}
    (start : cut <+: stem figures) :
    (∃ front last, cut.splitOn '\n' = front ++ last ∧ last.length ≤ 2 ∧
      ∀ line ∈ front, line ∈ (frontLines figures).map String.toList) ∨
    ∃ part, part <+: rowStem Operation.read.name figures.read ∧
      cut.splitOn '\n' = (frontLines figures).map String.toList ++
        ["Bench-READ: lsm".toList, header.toList, part] := by
  obtain ⟨front, piece, later, part, whole, begins, pieces⟩ :=
    Text.splitOnP_of_prefix (· == '\n') start
  have same := whole.symm.trans (splitOn_stem figures)
  rcases List.append_eq_append_iff.mp same with ⟨rest, inside, _⟩ | ⟨added, rfl, ends⟩
  · refine .inl ⟨front, [part], pieces, by simp, fun line member => ?_⟩
    rw [inside]
    exact List.mem_append_left _ member
  · have three := congrArg List.length ends
    simp only [List.length_append, List.length_cons, List.length_nil] at three
    rw [List.append_assoc] at pieces
    by_cases short : added.length ≤ 1
    · exact .inl ⟨_, added ++ [part], pieces, by simpa using short, fun _ member => member⟩
    · have split : ["Bench-READ: lsm".toList, header.toList] ++
          [rowStem Operation.read.name figures.read] = added ++ piece :: later := ends
      have two : ["Bench-READ: lsm".toList, header.toList].length = added.length := by
        simp only [List.length_cons, List.length_nil]
        omega
      obtain ⟨rfl, last⟩ := List.append_inj split two
      obtain ⟨rfl, _⟩ := List.cons.inj last
      exact .inr ⟨part, begins, pieces⟩

theorem nodeTotals_of_prefix_stem (figures : PerOperation Figures) {cut : List Char}
    (start : cut <+: stem figures) (node : PerOperation Totals) :
    (parse cut >>= nodeTotals) ≠ .ok node := by
  have unread : (∀ record, parse cut ≠ .ok record) → (parse cut >>= nodeTotals) ≠ .ok node := by
    intro none
    cases parsed : parse cut with
    | error fault => exact nofun
    | ok record => exact absurd parsed (none record)
  rcases lines_of_prefix_stem figures start with ⟨front, last, pieces, few, inFront⟩ | given
  · exact unread (parse_ne_ok_of_front figures pieces inFront
      ((Text.length_filter_trim_le last).trans few))
  · obtain ⟨part, begins, pieces⟩ := given
    by_cases none : part = []
    · subst none
      exact unread (parse_ne_ok_of_front figures pieces (fun _ member => member)
        (Text.length_filter_trim_concat_nil ["Bench-READ: lsm".toList, header.toList]))
    · exact nodeTotals_of_prefix_rowStem figures pieces begins none node

theorem nodeTotals_eq_ok {record : RunRecord} {read write : Totals}
    (reads : totals record .read = .ok read) (writes : totals record .write = .ok write) :
    nodeTotals record = .ok { read := read, write := write } := by
  rw [nodeTotals, reads, writes]
  rfl

theorem nodeTotals_of_digits (figures : PerOperation Figures) (m : Nat) :
    (parse (stem figures ++ Text.digits m) >>= nodeTotals) =
      .ok { read := { figures.read with iterations := m }.reread
            write := figures.write.reread } := by
  obtain ⟨plain, c, first, other⟩ := isPlain_name .read
  generalize counted : { figures.read with iterations := m } = read
  have text : (writtenRow Operation.read.name read).toList =
      rowStem Operation.read.name figures.read ++ Text.digits m := by
    rw [← counted]
    exact writtenRow_eq_stem _
  obtain ⟨_, _, _, flatRow⟩ := writtenRow_plain read plain first other
  have pieces : (stem figures ++ Text.digits m).splitOn '\n' = (frontLines figures ++
      sectionLines "Bench-READ: lsm" Operation.read.name read ++ []).map String.toList := by
    rw [stem, List.append_assoc, ← text, Text.splitOn_unlines_append (flat_front figures) flatRow]
    simp [sectionLines]
  obtain ⟨record, parsed, writes, reads⟩ := parse_writtenRow figures read pieces
  rw [parsed]
  exact nodeTotals_eq_ok reads writes

theorem nodeTotals_report (figures : PerOperation Figures) :
    (parse (report figures.write figures.read).toList >>= nodeTotals) =
      .ok { read := figures.read.reread, write := figures.write.reread } := by
  obtain ⟨record, parsed, totals⟩ := parse_report figures
  rw [parsed]
  exact nodeTotals_eq_ok (totals .read) (totals .write)

/-- What is left of a report when it is cut: a part of its stem, or the stem and some digits of the
last number, or all of it. -/
theorem take_report (figures : PerOperation Figures) (length : Nat) :
    let text := (report figures.write figures.read).toList
    let digits := Text.digits figures.read.iterations
    (text.take length <+: stem figures ∧ length + digits.length < text.length) ∨
      text.length ≤ length + digits.length ∧
        ((∃ m, text.take length = stem figures ++ Text.digits m) ∨ text.take length = text) := by
  intro text digits
  have whole : text = stem figures ++ (digits ++ ['\n']) := toList_report figures
  have lengths := congrArg List.length whole
  simp only [List.length_append, List.length_singleton] at lengths
  by_cases within : length ≤ (stem figures).length
  · refine .inl ⟨?_, by omega⟩
    rw [whole, List.take_append_of_le_length within]
    exact List.take_prefix _ _
  · refine .inr ⟨by omega, ?_⟩
    by_cases ends : length ≤ (stem figures).length + digits.length
    · left
      obtain ⟨count, rfl⟩ := Nat.exists_eq_add_of_le (Nat.le_of_not_le within)
      have given : digits.take count ≠ [] :=
        Text.take_ne_nil (Text.digits_ne_nil _) (show 0 < count by omega)
      obtain ⟨m, same⟩ := Text.exists_digits_of_prefix _ (List.take_prefix count digits) given
      refine ⟨m, ?_⟩
      rw [whole, List.take_length_add_append, List.take_append_of_le_length (by omega), same]
    · exact .inr (List.take_of_length_le (by omega))

/-- A written report that is cut after any number of its characters gives figures exactly if the
last number is there or begun. Then they are those of the whole report, but for the count of
iterations of reading. -/
theorem nodeTotals_take (figures : PerOperation Figures) (length : Nat) :
    let text := (report figures.write figures.read).toList
    let read (text : List Char) : Except ReportError (PerOperation Totals) :=
      parse text >>= nodeTotals
    ((∃ node, read (text.take length) = .ok node) ↔
      text.length ≤ length + (Text.digits figures.read.iterations).length) ∧
    ∃ whole, read text = .ok whole ∧
      ∀ node, read (text.take length) = .ok node →
        node.write = whole.write ∧
          node.read = { whole.read with iteration := node.read.iteration } := by
  intro text read
  have full : read text = .ok { read := figures.read.reread, write := figures.write.reread } :=
    nodeTotals_report figures
  rcases take_report figures length with ⟨start, short⟩ | ⟨long, ⟨m, same⟩ | same⟩
  · have none := nodeTotals_of_prefix_stem figures start
    refine ⟨⟨fun given => ?_, fun long => absurd long (Nat.not_le_of_lt short)⟩, _, full,
      fun node given => ?_⟩
    · obtain ⟨node, given⟩ := given
      exact absurd given (none node)
    · exact absurd given (none node)
  · have given : read (text.take length) =
        .ok { read := { figures.read with iterations := m }.reread
              write := figures.write.reread } := by
      rw [same]
      exact nodeTotals_of_digits figures m
    refine ⟨⟨fun _ => long, fun _ => ⟨_, given⟩⟩, _, full, fun node found => ?_⟩
    obtain rfl := Except.ok.inj (given.symm.trans found)
    exact ⟨rfl, rfl⟩
  · have given : read (text.take length) =
        .ok { read := figures.read.reread, write := figures.write.reread } :=
      (congrArg read same).trans full
    refine ⟨⟨fun _ => long, fun _ => ⟨_, given⟩⟩, _, full, fun node found => ?_⟩
    obtain rfl := Except.ok.inj (given.symm.trans found)
    exact ⟨rfl, rfl⟩

end Lsm

end Campaign
