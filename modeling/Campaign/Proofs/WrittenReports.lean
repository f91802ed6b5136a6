import Campaign.Proofs.Columns
import Campaign.Proofs.CsvLines
import Campaign.Proofs.MarkedTables
import Campaign.Report
import Campaign.Report.Written
import Mathlib.Data.List.Induction

namespace Campaign

namespace Text

theorem splitOn_unlines_append {lines : List String} {last : List Char}
    (flat : ∀ line ∈ lines, '\n' ∉ line.toList) (flatLast : '\n' ∉ last) :
    ((unlines lines).toList ++ last).splitOn '\n' = lines.map String.toList ++ [last] := by
  induction lines with
  | nil => exact List.splitOn_eq_singleton flatLast
  | cons line rest ih =>
    have first : '\n' ∉ line.toList := flat line List.mem_cons_self
    have text : (unlines (line :: rest)).toList ++ last =
        line.toList ++ '\n' :: ((unlines rest).toList ++ last) := by
      simp [unlines]
    rw [text, List.splitOn_append_cons_self, List.splitOn_eq_singleton first,
      ih fun other member => flat other (List.mem_cons_of_mem _ member)]
    rfl

theorem splitOn_unlines {lines : List String} (flat : ∀ line ∈ lines, '\n' ∉ line.toList) :
    (unlines lines).toList.splitOn '\n' = (lines ++ [""]).map String.toList := by
  have ended := splitOn_unlines_append flat List.not_mem_nil
  rw [List.append_nil] at ended
  rw [ended, List.map_append]
  rfl

theorem head?_trim (text : List Char) : (trim text).head? = (text.dropWhile isBlank).head? := by
  unfold trim
  have first := List.head?_dropWhile_not isBlank text
  cases rest : text.dropWhile isBlank with
  | nil => rfl
  | cons c more =>
    rw [rest] at first
    have noBlank : isBlank c = false := first
    rw [List.reverse_cons, List.dropWhile_append]
    split
    · simp [noBlank]
    · simp

theorem trim_eq_self {text : List Char} (first : ∀ c ∈ text.head?, isBlank c = false)
    (last : ∀ c ∈ text.getLast?, isBlank c = false) : trim text = text := by
  have keep : ∀ text : List Char, (∀ c ∈ text.head?, isBlank c = false) →
      text.dropWhile isBlank = text := by
    intro text first
    cases text with
    | nil => rfl
    | cons c rest => rw [List.dropWhile_cons_of_neg (by simp [first c rfl])]
  rw [trim, keep text first, keep text.reverse (by simpa using last), List.reverse_reverse]

theorem words_append_blank {c : Char} (blank : isBlank c = true) (left right : List Char) :
    words (left ++ c :: right) = words left ++ words right := by
  rw [words, List.splitOnP_append_cons left right blank, List.filter_append]
  rfl

theorem words_blanks_append {left : List Char} (right : List Char)
    (blank : ∀ c ∈ left, isBlank c = true) : words (left ++ right) = words right := by
  induction left with
  | nil => rfl
  | cons c rest ih =>
    have dropped := words_append_blank (blank c List.mem_cons_self) [] (rest ++ right)
    exact dropped.trans (ih fun c member => blank c (List.mem_cons_of_mem _ member))

theorem words_blanks (count : Nat) (rest : List Char) :
    words (List.replicate count ' ' ++ rest) = words rest := by
  apply words_blanks_append
  intro c member
  rw [List.eq_of_mem_replicate member]
  decide

theorem words_of_plain {word : List Char} (given : word ≠ [])
    (plain : ∀ c ∈ word, isBlank c = false) : words word = [word] := by
  rw [words, List.splitOnP_eq_singleton plain]
  simp [given]

theorem words_append {word : List Char} (given : word ≠ [])
    (plain : ∀ c ∈ word, isBlank c = false) (rest : List Char) :
    words (word ++ ' ' :: rest) = word :: words rest := by
  rw [words_append_blank (by decide), words_of_plain given plain]
  rfl

theorem commaFields_intercalate {fields : List (List Char)} (given : fields ≠ [])
    (plain : ∀ field ∈ fields, Csv.IsPlainField field) :
    commaFields (List.intercalate [','] fields) = fields := by
  have noComma : ∀ field ∈ fields, ',' ∉ field := by
    intro field member inField
    exact absurd ((plain field member).plain _ inField) (by decide)
  rw [commaFields, List.splitOn_intercalate ',' noComma given]
  have same : ∀ field ∈ fields, trim field = id field := fun field member =>
    Csv.trim_of_plain (plain field member).plain
  rw [List.map_congr_left same, List.map_id]

theorem head?_intercalate {field : List Char} (fields : List (List Char)) {c : Char}
    (first : field.head? = some c) :
    (List.intercalate [','] (field :: fields)).head? = some c := by
  cases fields with
  | nil => simpa using first
  | cons next rest =>
    rw [List.intercalate_cons_cons, List.append_assoc, List.head?_append, first]
    rfl

theorem isBlank_of_mem_intercalate {fields : List (List Char)}
    (plain : ∀ field ∈ fields, Csv.IsPlainField field) {c : Char}
    (member : c ∈ List.intercalate [','] fields) : isBlank c = false := by
  induction fields with
  | nil => exact absurd member List.not_mem_nil
  | cons field rest ih =>
    have own : c ∈ field → isBlank c = false := fun inField =>
      (Csv.isPlain_iff.mp ((plain field List.mem_cons_self).plain c inField)).2.2
    cases rest with
    | nil => exact own (by simpa using member)
    | cons next others =>
      rw [List.intercalate_cons_cons] at member
      simp only [List.mem_append, List.mem_singleton] at member
      rcases member with (inField | rfl) | inRest
      · exact own inField
      · decide
      · exact ih (fun other inOthers => plain other (List.mem_cons_of_mem _ inOthers)) inRest

end Text

namespace Binary64

def ofCount (n : Nat) : Binary64 := .ofDecimal false { digits := n, exponent := 0 }

theorem ofText?_digits (n : Nat) : ofText? (Text.digits n) = some (ofCount n) := by
  have digits : ∀ c ∈ Text.digits n, c.isDigit = true := fun _ member =>
    Text.isDigit_of_mem_digits member
  obtain ⟨c, rest, cut⟩ := List.exists_cons_of_ne_nil (Text.digits_ne_nil n)
  have first : (Text.digits n).head? = some c := by rw [cut]; rfl
  have read := ofText?_digit first (digits c (by simp [cut])) false
  rw [readDecimal?_whole (Text.digits_ne_nil n) digits, Text.digitsValue_digits] at read
  exact read

end Binary64

theorem Metrics.number?_zip {header numeric : List String} (once : header.Nodup)
    (fields : List (List Char)) {i : Nat} {column : String} (place : header[i]? = some column)
    (known : numeric.contains column = true) :
    (zip header (fields.map String.ofList) numeric).number? column =
      fields[i]?.bind Binary64.ofText? := by
  have within := (List.getElem?_eq_some_iff.mp place).1
  cases shown : fields[i]? with
  | none =>
    have short : fields.length ≤ i := List.getElem?_eq_none_iff.mp shown
    have absent : (zip header (fields.map String.ofList) numeric).get? column = none := by
      rw [Option.eq_none_iff_forall_ne_some]
      intro metric found
      obtain ⟨j, _, ⟨inside, named, _⟩, _⟩ := get?_zip_eq_some_iff.mp found
      obtain ⟨_, filled⟩ := lt_width_iff.mp inside
      have same := (List.getElem?_inj within once).mp (place.trans named.symm)
      rw [List.length_map] at filled
      omega
    rw [number?, absent]
    rfl
  | some text =>
    have there : (fields.map String.ofList)[i]? = some (String.ofList text) := by
      rw [List.getElem?_map, shown, Option.map_some]
    have filled := (List.getElem?_eq_some_iff.mp there).1
    have last := isLastColumn_of_nodup once (lt_width_iff.mpr ⟨within, filled⟩) place
    have found : (zip header (fields.map String.ofList) numeric).get? column =
        some (Metric.ofText true (String.ofList text)) :=
      get?_zip_eq_some_iff.mpr ⟨i, _, last, there, Metric.shows_iff.mpr (by rw [known])⟩
    rw [number?, found, Option.bind_some, Option.bind_some]
    unfold Metric.ofText
    rw [String.toList_ofList]
    cases Binary64.ofText? text <;> rfl

namespace Lsm

theorem banner?_trim_eq_none {line : List Char} {c : Char}
    (first : (line.dropWhile Text.isBlank).head? = some c) (other : c ∉ ['W', 'R', 'B']) :
    banner? (Text.trim line) = none := by
  have noBlank : Text.isBlank c = false := by
    have given := List.head?_dropWhile_not Text.isBlank line
    rw [first] at given
    exact given
  rw [← Text.head?_trim] at first
  obtain ⟨rest, cut⟩ := List.head?_eq_some_iff.mp first
  obtain ⟨word, words, pieces⟩ :=
    List.exists_cons_of_ne_nil (List.splitOnP_ne_nil Text.isBlank rest)
  have head : (Text.words (Text.trim line)).head? = some (c :: word) := by
    rw [cut, Text.words, List.splitOnP_cons_eq_if_modifyHead, noBlank, pieces]
    rfl
  -- Colons are dropped at the end only, so that a title would still begin with the letter.
  have part : ((c :: word).reverse.dropWhile (· = ':')).reverse <+: c :: word := by
    have suffix := List.reverse_prefix.mpr
      (List.dropWhile_suffix (fun c : Char => decide (c = ':')) : _ <:+ (c :: word).reverse)
    rwa [List.reverse_reverse] at suffix
  have apart : ∀ letter title, letter ∈ ['W', 'R', 'B'] →
      ((c :: word).reverse.dropWhile (· = ':')).reverse ≠ letter :: title := by
    intro letter title known same
    rw [same, List.cons_prefix_cons] at part
    exact other (part.1 ▸ known)
  unfold banner?
  rw [head]
  dsimp only
  rw [if_neg, if_neg]
  · intro title
    rcases title with same | same
    · exact apart 'R' _ (by decide) same
    · exact apart 'B' _ (by decide) same
  · intro title
    rcases title with same | same
    · exact apart 'W' _ (by decide) same
    · exact apart 'B' _ (by decide) same

section

variable {field : List Char} {fields : List (List Char)} {c : Char}

theorem plain_of_prefix_fields (plain : ∀ part ∈ field :: fields, Csv.IsPlainField part)
    (first : field.head? = some c) (other : c ∉ ['W', 'R', 'B']) {part : List Char}
    (start : part <+: List.intercalate [','] (field :: fields)) (given : part ≠ []) :
    banner? part = none ∧ Text.trim part = part ∧ '\n' ∉ part := by
  have noBlank : ∀ c ∈ part, Text.isBlank c = false := fun c member =>
    Text.isBlank_of_mem_intercalate plain (start.subset member)
  obtain ⟨more, begins⟩ := List.head?_eq_some_iff.mp (Text.head?_intercalate fields first)
  obtain ⟨inner, same⟩ : ∃ inner, part = c :: inner := by
    rw [begins] at start
    obtain none | ⟨inner, same, _⟩ := List.prefix_cons_iff.mp start
    · exact absurd none given
    · exact ⟨inner, same⟩
  have trimmed : Text.trim part = part := by
    apply Text.trim_eq_self
    · exact fun c first => noBlank c (List.mem_of_head? first)
    · exact fun c last => noBlank c (List.mem_of_getLast? last)
  refine ⟨?_, trimmed, fun feed => absurd (noBlank _ feed) (by decide)⟩
  rw [← trimmed]
  apply banner?_trim_eq_none
  · rw [same, List.dropWhile_cons_of_neg]
    · rfl
    · rw [noBlank c (by simp [same])]
      exact Bool.false_ne_true
  · exact other

theorem plain_fields (plain : ∀ part ∈ field :: fields, Csv.IsPlainField part)
    (first : field.head? = some c) (other : c ∉ ['W', 'R', 'B']) :
    let row := List.intercalate [','] (field :: fields)
    banner? row = none ∧ row ≠ [] ∧ Text.trim row = row ∧ '\n' ∉ row := by
  intro row
  have given : row ≠ [] := by
    intro none
    have begins := Text.head?_intercalate fields first
    rw [show List.intercalate [','] (field :: fields) = [] from none] at begins
    cases begins
  obtain ⟨noBanner, same, flat⟩ := plain_of_prefix_fields plain first other List.prefix_rfl given
  exact ⟨noBanner, given, same, flat⟩

end

namespace Reader

variable {reader : Reader} {op : Operation}

theorem isComplete_eq_false (awaited : (reader.sections.get op).isComplete = false) :
    reader.isComplete = false := by
  unfold isComplete
  cases op with
  | read => exact Bool.and_eq_false_iff.mpr (Or.inr awaited)
  | write => exact Bool.and_eq_false_iff.mpr (Or.inl awaited)

/-- Outside sections only banners count. -/
theorem read_plain {lines : List (List Char)} (idle : reader.active = none)
    (awaited : reader.isComplete = false)
    (plain : ∀ line ∈ lines, banner? (Text.trim line) = none) (rest : List (List Char)) :
    reader.read (lines ++ rest) = reader.read rest := by
  induction lines with
  | nil => rfl
  | cons line others ih =>
    have noBanner := plain line List.mem_cons_self
    have kept : reader.step (Text.trim line) = reader := by
      unfold step stepContent
      rw [noBanner, idle]
      exact ite_self reader
    rw [List.cons_append, read, kept]
    simp only [awaited, Bool.false_eq_true, if_false]
    exact ih fun other member => plain other (List.mem_cons_of_mem _ member)

theorem step_content {line : List Char} (noBanner : banner? line = none) (given : line ≠ []) :
    reader.step line = reader.stepContent line := by
  have some : line.isEmpty = false := by simpa using given
  rw [step, noBanner]
  simp only [some, Bool.false_eq_true, if_false]

def withSection (reader : Reader) (op : Operation) (header row : List Char) : Reader :=
  { sections := reader.sections.set op (.complete header row), active := none }

theorem read_section {banner header row : List Char}
    (awaited : (reader.sections.get op).isComplete = false)
    (opens : banner? (Text.trim banner) = some op)
    (headed : banner? header = none) (given : header ≠ []) (same : Text.trim header = header)
    (rowed : banner? row = none) (rowGiven : row ≠ []) (sameRow : Text.trim row = row)
    (rest : List (List Char)) :
    reader.read (banner :: header :: row :: rest) =
      if (reader.withSection op header row).isComplete then reader.withSection op header row
      else (reader.withSection op header row).read rest := by
  have opened : reader.step (Text.trim banner) =
      { sections := reader.sections.set op .awaited, active := some op } := by
    rw [step, opens]
    simp only [stepBanner, awaited, Bool.false_eq_true, if_false]
  have begun : step { sections := reader.sections.set op .awaited, active := some op } header =
      { sections := reader.sections.set op (.begun header), active := some op } := by
    rw [step_content headed given]
    cases op <;> rfl
  have ended : step { sections := reader.sections.set op (.begun header), active := some op } row =
      reader.withSection op header row := by
    rw [step_content rowed rowGiven]
    cases op <;> rfl
  -- The early stop does not come before the row: until then the section itself is not complete.
  have stillOpen : ∀ part : Section, part.isComplete = false →
      isComplete { sections := reader.sections.set op part, active := some op } = false := by
    intro part lacking
    have own : ((reader.sections.set op part).get op).isComplete = false := by
      rw [PerOperation.get_set_self]
      exact lacking
    exact isComplete_eq_false own
  rw [read, opened, stillOpen _ rfl, read, same, begun, stillOpen _ rfl, read, sameRow, ended]
  rfl

end Reader

def rowFields (access : String) (figures : Figures) : List (List Char) :=
  [access.toList, figures.max.fixedText 2, figures.min.fixedText 2, figures.mean.fixedText 2,
    figures.mib.fixedText 2, figures.ops.fixedText 0, Text.digits figures.iterations]

def sectionLines (title access : String) (figures : Figures) : List String :=
  [title, header, writtenRow access figures]

def openingLines (write : Figures) : List String :=
  ["BENCHMARK PARAMETERS:", "", " MPI: Enabled", " MPI Rank: 0", " fileName: kvbench.db",
    " dirName: /scratch/kv/data/4/1M"] ++ [" iterations: " ++ Text.decimal write.iterations] ++
    [" keyCount: 4096", " valueSize: 65536", "", "BENCHMARK RESULTS:", ""] ++
    sectionLines "Iteration-WRITE: lsm" "iwrite" write.oneIteration ++ [""]

def betweenLines (read : Figures) : List String :=
  [""] ++ sectionLines "Iteration-READ: lsm" "iread" read.oneIteration ++ [""]

def Figures.reread (figures : Figures) : Totals :=
  { max := figures.max.reread 2
    min := figures.min.reread 2
    mean := figures.mean.reread 2
    mib := figures.mib.reread 2
    ops := figures.ops.reread 0
    iteration := (Binary64.ofCount figures.iterations).toCount }

/-- What a report says before the section of reading. -/
def frontLines (figures : PerOperation Figures) : List String :=
  openingLines figures.write ++
    sectionLines "Bench-WRITE: lsm" Operation.write.name figures.write ++ betweenLines figures.read

theorem report_eq_unlines (figures : PerOperation Figures) :
    report figures.write figures.read = Text.unlines (frontLines figures ++
      sectionLines "Bench-READ: lsm" Operation.read.name figures.read) := rfl

section

variable {access : String} (figures : Figures)

theorem toList_writtenRow :
    (writtenRow access figures).toList = List.intercalate [','] (rowFields access figures) := by
  simp [writtenRow, rowFields, Binary64.toFixed, Text.decimal]

theorem isPlain_rowFields (plain : Csv.IsPlainField access.toList) :
    ∀ field ∈ rowFields access figures, Csv.IsPlainField field := by
  intro field member
  simp only [rowFields, List.mem_cons, List.not_mem_nil, or_false] at member
  rcases member with rfl | rfl | rfl | rfl | rfl | rfl | rfl
  · exact plain
  · exact Csv.isPlainField_fixedText 2 _
  · exact Csv.isPlainField_fixedText 2 _
  · exact Csv.isPlainField_fixedText 2 _
  · exact Csv.isPlainField_fixedText 2 _
  · exact Csv.isPlainField_fixedText 0 _
  · rw [← String.toList_ofList (l := Text.digits figures.iterations)]
    exact Csv.isPlainField_decimal _

theorem plain_of_prefix_writtenRow (plain : Csv.IsPlainField access.toList) {c : Char}
    (first : access.toList.head? = some c) (other : c ∉ ['W', 'R', 'B']) {part : List Char}
    (start : part <+: (writtenRow access figures).toList) (given : part ≠ []) :
    banner? part = none ∧ Text.trim part = part ∧ '\n' ∉ part := by
  rw [toList_writtenRow] at start
  exact plain_of_prefix_fields (isPlain_rowFields figures plain) first other start given

theorem writtenRow_plain (plain : Csv.IsPlainField access.toList) {c : Char}
    (first : access.toList.head? = some c) (other : c ∉ ['W', 'R', 'B']) :
    let row := (writtenRow access figures).toList
    banner? row = none ∧ row ≠ [] ∧ Text.trim row = row ∧ '\n' ∉ row := by
  rw [toList_writtenRow]
  exact plain_fields (isPlain_rowFields figures plain) first other

theorem commaFields_writtenRow (plain : Csv.IsPlainField access.toList) :
    Text.commaFields (writtenRow access figures).toList = rowFields access figures := by
  rw [toList_writtenRow]
  exact Text.commaFields_intercalate (List.cons_ne_nil _ _) (isPlain_rowFields figures plain)

theorem isFailed_writtenRow (plain : Csv.IsPlainField access.toList) :
    isFailed (writtenRow access figures).toList = false := by
  have second : figures.max.fixedText 2 ≠ "FAILED".toList := by
    intro same
    have read := Binary64.ofText?_fixedText 2 figures.max
    have unread : Binary64.ofText? "FAILED".toList = none := by decide
    rw [same, unread] at read
    cases read
  rw [isFailed, commaFields_writtenRow figures plain]
  simpa [rowFields] using second

def columns : List String :=
  ["access", maxColumn, minColumn, meanColumn, totalMibColumn, totalOpsColumn, iterationColumn]

theorem toList_header : header.toList = List.intercalate [','] (columns.map String.toList) := by
  simp [header, columns]

theorem isPlain_columns : ∀ field ∈ columns.map String.toList, Csv.IsPlainField field := by
  have plain : ∀ field ∈ columns.map String.toList, field.isEmpty = false ∧
      field.all Csv.isPlain = true := by
    decide +kernel
  exact fun field member => Csv.isPlainField_of_all (plain field member).1 (plain field member).2

theorem number?_row {record : RunRecord} {op : Operation} {row : List Char}
    (given : record.get op = metrics header.toList row) {i : Nat} {column : String}
    (place : columns[i]? = some column) (known : numericColumns.contains column = true) :
    record.number? op column = (Text.commaFields row)[i]?.bind Binary64.ofText? := by
  have names : (Text.commaFields header.toList).map String.ofList = columns := by
    have given : columns.map String.toList ≠ [] := List.cons_ne_nil _ _
    rw [toList_header, Text.commaFields_intercalate given isPlain_columns]
    simp
  rw [RunRecord.number?, given, metrics, names]
  exact Metrics.number?_zip (by decide) _ place known

theorem totals_writtenRow (plain : Csv.IsPlainField access.toList) {record : RunRecord}
    {op : Operation}
    (given : record.get op = metrics header.toList (writtenRow access figures).toList) :
    totals record op = .ok figures.reread := by
  have column : ∀ {i : Nat} {name : String} text value, columns[i]? = some name →
      numericColumns.contains name = true → (rowFields access figures)[i]? = some text →
      Binary64.ofText? text = some value → figure record op name = .ok value := by
    intro i name text value place known there read
    rw [figure, number?_row given place known, commaFields_writtenRow figures plain, there,
      Option.bind_some, read]
  have fixed := Binary64.ofText?_fixedText
  have max := column (i := 1) _ _ rfl (by decide) rfl (fixed 2 figures.max)
  have min := column (i := 2) _ _ rfl (by decide) rfl (fixed 2 figures.min)
  have mean := column (i := 3) _ _ rfl (by decide) rfl (fixed 2 figures.mean)
  have mib := column (i := 4) _ _ rfl (by decide) rfl (fixed 2 figures.mib)
  have ops := column (i := 5) _ _ rfl (by decide) rfl (fixed 0 figures.ops)
  have iteration := column (i := 6) _ _ rfl (by decide) rfl
    (Binary64.ofText?_digits figures.iterations)
  unfold totals
  rw [max, min, mean, mib, ops, iteration]
  rfl

end

def IsInert (line : String) : Prop :=
  banner? (Text.trim line.toList) = none ∧ '\n' ∉ line.toList

instance : DecidablePred IsInert := fun line =>
  inferInstanceAs (Decidable (banner? (Text.trim line.toList) = none ∧ '\n' ∉ line.toList))

theorem header_plain : banner? header.toList = none ∧ header.toList ≠ [] ∧
    Text.trim header.toList = header.toList ∧ '\n' ∉ header.toList := by
  rw [toList_header]
  exact plain_fields isPlain_columns rfl (by decide : 'a' ∉ ['W', 'R', 'B'])

theorem isInert_header : IsInert header := by
  obtain ⟨noBanner, _, same, flat⟩ := header_plain
  refine ⟨?_, flat⟩
  rw [same]
  exact noBanner

theorem isInert_empty : IsInert "" := by decide

theorem isInert_sectionLines {title access : String} (figures : Figures)
    (inert : IsInert title) (plain : Csv.IsPlainField access.toList) {c : Char}
    (first : access.toList.head? = some c) (other : c ∉ ['W', 'R', 'B']) :
    ∀ line ∈ sectionLines title access figures, IsInert line := by
  obtain ⟨noBanner, _, same, flat⟩ := writtenRow_plain figures plain first other
  have row : IsInert (writtenRow access figures) := ⟨by rw [same]; exact noBanner, flat⟩
  simp [sectionLines, inert, isInert_header, row]

theorem isInert_openingLines (write : Figures) : ∀ line ∈ openingLines write, IsInert line := by
  have before : ∀ line ∈ ["BENCHMARK PARAMETERS:", "", " MPI: Enabled", " MPI Rank: 0",
      " fileName: kvbench.db", " dirName: /scratch/kv/data/4/1M"], IsInert line := by
    decide +kernel
  have after : ∀ line ∈ [" keyCount: 4096", " valueSize: 65536", "", "BENCHMARK RESULTS:", ""],
      IsInert line := by
    decide +kernel
  have own : IsInert (" iterations: " ++ Text.decimal write.iterations) := by
    have digits : (Text.decimal write.iterations).toList = Text.digits write.iterations :=
      String.toList_ofList
    rw [IsInert, String.toList_append, digits]
    refine ⟨banner?_trim_eq_none (c := 'i') rfl (by decide), fun feed => ?_⟩
    rcases List.mem_append.mp feed with lead | digit
    · exact absurd lead (by decide)
    · exact absurd (Text.isDigit_of_mem_digits digit) (by decide)
  have iterations : ∀ line ∈ sectionLines "Iteration-WRITE: lsm" "iwrite" write.oneIteration,
      IsInert line :=
    isInert_sectionLines _ (by decide +kernel) (Csv.isPlainField_of_all (by decide) (by decide))
      (c := 'i') (by decide) (by decide)
  unfold openingLines
  simp only [List.forall_mem_append, List.forall_mem_singleton]
  exact ⟨⟨⟨⟨before, own⟩, after⟩, iterations⟩, isInert_empty⟩

theorem isInert_betweenLines (read : Figures) : ∀ line ∈ betweenLines read, IsInert line := by
  have iterations : ∀ line ∈ sectionLines "Iteration-READ: lsm" "iread" read.oneIteration,
      IsInert line :=
    isInert_sectionLines _ (by decide +kernel) (Csv.isPlainField_of_all (by decide) (by decide))
      (c := 'i') (by decide) (by decide)
  unfold betweenLines
  simp only [List.forall_mem_append, List.forall_mem_singleton]
  exact ⟨⟨isInert_empty, iterations⟩, isInert_empty⟩

section

variable {op : Operation}

theorem isPlain_name (op : Operation) :
    Csv.IsPlainField op.name.toList ∧ ∃ c, op.name.toList.head? = some c ∧ c ∉ ['W', 'R', 'B'] := by
  cases op with
  | read => exact ⟨Csv.isPlainField_of_all (by decide) (by decide), 'r', by decide, by decide⟩
  | write => exact ⟨Csv.isPlainField_of_all (by decide) (by decide), 'w', by decide, by decide⟩

theorem flat_sectionLines {title : String} (figures : Figures) (flat : '\n' ∉ title.toList) :
    ∀ line ∈ sectionLines title op.name figures, '\n' ∉ line.toList := by
  obtain ⟨plain, c, first, other⟩ := isPlain_name op
  obtain ⟨_, _, _, row⟩ := writtenRow_plain figures plain first other
  simp [sectionLines, flat, isInert_header.2, row]

def afterSection (reader : Reader) (op : Operation) (figures : Figures) : Reader :=
  reader.withSection op header.toList (writtenRow op.name figures).toList

theorem read_sectionLines {reader : Reader} {title : String} (figures : Figures)
    (awaited : (reader.sections.get op).isComplete = false)
    (opens : banner? (Text.trim title.toList) = some op) (rest : List String) :
    reader.read ((sectionLines title op.name figures ++ rest).map String.toList) =
      if (afterSection reader op figures).isComplete then afterSection reader op figures
      else (afterSection reader op figures).read (rest.map String.toList) := by
  obtain ⟨plain, c, first, other⟩ := isPlain_name op
  obtain ⟨noBanner, given, same, _⟩ := writtenRow_plain figures plain first other
  obtain ⟨headed, headGiven, headSame, _⟩ := header_plain
  exact Reader.read_section awaited opens headed headGiven headSame noBanner given same
    (rest.map String.toList)

end

theorem read_inert {reader : Reader} {lines : List String} (idle : reader.active = none)
    (awaited : reader.isComplete = false) (inert : ∀ line ∈ lines, IsInert line)
    (rest : List String) :
    reader.read ((lines ++ rest).map String.toList) = reader.read (rest.map String.toList) := by
  rw [List.map_append]
  apply Reader.read_plain idle awaited
  intro line member
  obtain ⟨text, inLines, rfl⟩ := List.mem_map.mp member
  exact (inert text inLines).1

theorem flat_frontLines (figures : PerOperation Figures) :
    ∀ line ∈ frontLines figures, '\n' ∉ line.toList := by
  have opening := isInert_openingLines figures.write
  have between := isInert_betweenLines figures.read
  have title : '\n' ∉ "Bench-WRITE: lsm".toList := by decide
  simp only [frontLines, List.forall_mem_append]
  exact ⟨⟨fun line member => (opening line member).2, flat_sectionLines figures.write title⟩,
    fun line member => (between line member).2⟩

theorem banner?_titles : banner? (Text.trim "Bench-WRITE: lsm".toList) = some .write ∧
    banner? (Text.trim "Bench-READ: lsm".toList) = some .read := by
  rw [String.toList_ofList, String.toList_ofList]
  decide +kernel

theorem read_frontLines (figures : PerOperation Figures) (rest : List String) :
    Reader.start.read ((frontLines figures ++ rest).map String.toList) =
      (afterSection .start .write figures.write).read (rest.map String.toList) := by
  have half : ¬ (afterSection .start .write figures.write).isComplete = true := Bool.false_ne_true
  simp only [frontLines, List.append_assoc]
  rw [read_inert rfl rfl (isInert_openingLines figures.write),
    read_sectionLines figures.write rfl banner?_titles.1, if_neg half,
    read_inert rfl rfl (isInert_betweenLines figures.read)]

/-- A text that goes on like a written report as far as the last row is read with that row. -/
theorem parse_frontLines (figures : PerOperation Figures) {text row : List Char}
    {rest : List String}
    (pieces : text.splitOn '\n' = (frontLines figures ++
      ["Bench-READ: lsm", header, String.ofList row] ++ rest).map String.toList)
    (noBanner : banner? row = none) (given : row ≠ []) (same : Text.trim row = row) :
    parse text = if isFailed row then .error (.failedRun .read)
      else .ok { read := metrics header.toList row
                 write := metrics header.toList
                  (writtenRow Operation.write.name figures.write).toList } := by
  let reader := afterSection .start .write figures.write
  have whole : (reader.withSection .read header.toList row).isComplete = true := rfl
  have ends : reader.read ((["Bench-READ: lsm", header, String.ofList row] ++ rest).map
      String.toList) = reader.withSection .read header.toList row := by
    simp only [List.cons_append, List.nil_append, List.map_cons, String.toList_ofList]
    obtain ⟨headed, headGiven, headSame, _⟩ := header_plain
    rw [Reader.read_section rfl banner?_titles.2 headed headGiven headSame noBanner given same,
      if_pos whole]
  have sound := isFailed_writtenRow figures.write (isPlain_name .write).1
  have sections : (reader.withSection .read header.toList row).sections =
      { write := .complete header.toList (writtenRow Operation.write.name figures.write).toList
        read := .complete header.toList row } := rfl
  rw [parse, pieces, List.append_assoc, read_frontLines, ends, sections, ofSections]
  dsimp only
  rw [sound, if_neg Bool.false_ne_true]

theorem parse_writtenRow (figures : PerOperation Figures) (read : Figures) {text : List Char}
    {rest : List String}
    (pieces : text.splitOn '\n' = (frontLines figures ++
      sectionLines "Bench-READ: lsm" Operation.read.name read ++ rest).map String.toList) :
    ∃ record, parse text = .ok record ∧ totals record .write = .ok figures.write.reread ∧
      totals record .read = .ok read.reread := by
  obtain ⟨plain, c, first, other⟩ := isPlain_name .read
  obtain ⟨noBanner, given, same, _⟩ := writtenRow_plain read plain first other
  rw [sectionLines, ← String.ofList_toList (s := writtenRow Operation.read.name read)] at pieces
  have parsed := parse_frontLines figures pieces noBanner given same
  rw [isFailed_writtenRow read plain, if_neg Bool.false_ne_true] at parsed
  refine ⟨_, parsed, totals_writtenRow figures.write (isPlain_name .write).1 ?_,
    totals_writtenRow read plain ?_⟩
  · simp only [PerOperation.get]
  · simp only [PerOperation.get]

theorem parse_report (figures : PerOperation Figures) :
    ∃ record, parse (report figures.write figures.read).toList = .ok record ∧
      ∀ op, totals record op = .ok (figures.get op).reread := by
  have flat : ∀ line ∈ frontLines figures ++
      sectionLines "Bench-READ: lsm" Operation.read.name figures.read, '\n' ∉ line.toList :=
    List.forall_mem_append.mpr
      ⟨flat_frontLines figures, flat_sectionLines figures.read (by decide)⟩
  have pieces := Text.splitOn_unlines flat
  rw [← report_eq_unlines] at pieces
  obtain ⟨record, parsed, write, read⟩ := parse_writtenRow figures figures.read pieces
  exact ⟨record, parsed, fun op => by cases op <;> assumption⟩

end Lsm

namespace Ior

def titles : String := "Operation   Max(MiB)   Min(MiB)  Mean(MiB)     StdDev   API"

def lead (op : Operation) : String :=
  match op with
  | .write => "write       "
  | .read => "read        "

def rowWords (op : Operation) (figures : Figures) : Row :=
  [op.name.toList, figures.max.fixedText 2, figures.min.fixedText 2, figures.mean.fixedText 2,
    "0.00".toList, "POSIX".toList]

/-- What a report says before its last row. -/
def frontLines (write : Figures) : List String :=
  ["Summary of all tests:", titles, writtenRow (lead .write) write]

theorem report_eq_unlines (figures : PerOperation Figures) :
    report figures.write figures.read = Text.unlines
      (frontLines figures.write ++ [writtenRow (lead .read) figures.read]) := rfl

section

variable (op : Operation) (figures : Figures)

theorem toList_writtenRow :
    ∃ blanks, (writtenRow (lead op) figures).toList = op.name.toList ++ ' ' ::
      (List.replicate blanks ' ' ++ (figures.max.fixedText 2 ++ ' ' ::
        (List.replicate 3 ' ' ++ (figures.min.fixedText 2 ++ ' ' ::
          (List.replicate 3 ' ' ++ (figures.mean.fixedText 2 ++ ' ' ::
            (List.replicate 4 ' ' ++ ("0.00".toList ++ ' ' ::
              (List.replicate 3 ' ' ++ "POSIX".toList))))))))) := by
  have begins : ∃ blanks, (lead op).toList =
      op.name.toList ++ ' ' :: List.replicate blanks ' ' := by
    cases op with
    | read => exact ⟨7, by decide⟩
    | write => exact ⟨6, by decide⟩
  have gap : "    ".toList = ' ' :: List.replicate 3 ' ' := by decide
  have ends : "     0.00    POSIX".toList = ' ' :: (List.replicate 4 ' ' ++ ("0.00".toList ++ ' ' ::
      (List.replicate 3 ' ' ++ "POSIX".toList))) := by decide
  obtain ⟨blanks, begins⟩ := begins
  refine ⟨blanks, ?_⟩
  simp only [writtenRow, String.toList_append, Binary64.toFixed, String.toList_ofList, begins, gap,
    ends, List.append_assoc, List.cons_append]

theorem words_writtenRow :
    Text.words (writtenRow (lead op) figures).toList = rowWords op figures := by
  have noBlank : ∀ field, Csv.IsPlainField field → ∀ c ∈ field, Text.isBlank c = false :=
    fun field plain c member => (Csv.isPlain_iff.mp (plain.plain c member)).2.2
  have word : ∀ field rest, Csv.IsPlainField field →
      Text.words (field ++ ' ' :: rest) = field :: Text.words rest := fun field rest plain =>
    Text.words_append plain.given (noBlank field plain) rest
  have fixed := Csv.isPlainField_fixedText 2
  have name := (Lsm.isPlain_name op).1
  have deviation : Csv.IsPlainField "0.00".toList :=
    Csv.isPlainField_of_all (by decide) (by decide)
  have interface : Csv.IsPlainField "POSIX".toList :=
    Csv.isPlainField_of_all (by decide) (by decide)
  obtain ⟨blanks, text⟩ := toList_writtenRow op figures
  rw [text, word _ _ name, Text.words_blanks, word _ _ (fixed _), Text.words_blanks,
    word _ _ (fixed _), Text.words_blanks, word _ _ (fixed _), Text.words_blanks,
    word _ _ deviation, Text.words_blanks,
    Text.words_of_plain interface.given (noBlank _ interface)]
  rfl

theorem isEmpty_writtenRow : (writtenRow (lead op) figures).toList.isEmpty = false := by
  rw [List.isEmpty_eq_false_iff]
  intro empty
  have words := words_writtenRow op figures
  rw [empty] at words
  cases words

theorem trim_writtenRow :
    Text.trim (writtenRow (lead op) figures).toList = (writtenRow (lead op) figures).toList := by
  obtain ⟨blanks, text⟩ := toList_writtenRow op figures
  have name := (Lsm.isPlain_name op).1
  have notBlank : Text.isBlank 'X' = false := by decide
  have last : ∀ front : List Char, (front ++ "POSIX".toList).getLast? = some 'X' := by
    intro front
    rw [List.getLast?_append_of_ne_nil _ (by decide)]
    rfl
  apply Text.trim_eq_self
  · rw [text, List.head?_append_of_ne_nil _ name.given]
    intro c first
    exact (Csv.isPlain_iff.mp (name.plain c (List.mem_of_head? first))).2.2
  · obtain ⟨front, cut⟩ : ∃ front, (writtenRow (lead op) figures).toList =
        front ++ "POSIX".toList := by
      rw [text]
      simp only [← List.append_assoc, ← List.cons_append]
      exact ⟨_, rfl⟩
    rw [cut, last]
    intro c same
    rw [← Option.some.inj same]
    exact notBlank

theorem flat_writtenRow : '\n' ∉ (writtenRow (lead op) figures).toList := by
  have feed : ∀ field, Csv.IsPlainField field → '\n' ∉ field := by
    intro field plain member
    have noBlank := (Csv.isPlain_iff.mp (plain.plain _ member)).2.2
    exact absurd noBlank (by decide)
  have fixed := fun x => feed _ (Csv.isPlainField_fixedText 2 x)
  have name := feed _ (Lsm.isPlain_name op).1
  have deviation : '\n' ∉ "0.00".toList := by decide
  have interface : '\n' ∉ "POSIX".toList := by decide
  obtain ⟨blanks, text⟩ := toList_writtenRow op figures
  rw [text]
  have space : '\n' ≠ ' ' := by decide
  simp only [List.mem_append, List.mem_cons, List.mem_replicate, fixed, name, deviation, interface,
    space, and_false, or_false, not_false_eq_true]

def columns : List String := ["Operation", maxColumn, minColumn, meanColumn, "StdDev", "API"]

theorem titles_plain : Text.trim titles.toList = titles.toList ∧ '\n' ∉ titles.toList ∧
    (Text.words titles.toList).map String.ofList = columns := by
  rw [titles, String.toList_ofList]
  decide +kernel

theorem marker_plain : Text.trim "Summary of all tests:".toList = "Summary of all tests:".toList ∧
    '\n' ∉ "Summary of all tests:".toList ∧ isMarker "Summary of all tests:".toList = true := by
  rw [String.toList_ofList]
  decide +kernel

theorem number?_row {record : RunRecord} {op : Operation} {row : Row}
    (given : record.get op = metrics (Text.words titles.toList) row) {i : Nat} {column : String}
    (place : columns[i]? = some column) (known : numericColumns.contains column = true) :
    record.number? op column = row[i]?.bind Binary64.ofText? := by
  rw [RunRecord.number?, given, metrics, titles_plain.2.2]
  exact Metrics.number?_zip (by decide) _ place known

theorem number?_writtenRow {record : RunRecord}
    (given : record.get op = metrics (Text.words titles.toList) (rowWords op figures)) :
    record.number? op maxColumn = some (figures.max.reread 2) ∧
      record.number? op minColumn = some (figures.min.reread 2) ∧
      record.number? op meanColumn = some (figures.mean.reread 2) := by
  have read := Binary64.ofText?_fixedText 2
  refine ⟨?_, ?_, ?_⟩
  · rw [number?_row given (i := 1) rfl (by decide)]
    exact read figures.max
  · rw [number?_row given (i := 2) rfl (by decide)]
    exact read figures.min
  · rw [number?_row given (i := 3) rfl (by decide)]
    exact read figures.mean

end

theorem flat_frontLines (write : Figures) : ∀ line ∈ frontLines write, '\n' ∉ line.toList := by
  simp only [frontLines, List.forall_mem_cons]
  exact ⟨marker_plain.2.1, titles_plain.2.1, flat_writtenRow _ _, List.forall_mem_nil _⟩

theorem contentLines_frontLines (write : Figures) {text : List Char} {more : List (List Char)}
    (pieces : text.splitOn '\n' = (frontLines write).map String.toList ++ more) :
    Text.contentLines text =
      (frontLines write).map String.toList ++ (more.map Text.trim).filter (!·.isEmpty) := by
  rw [Text.contentLines, pieces, List.map_append, List.filter_append]
  simp only [frontLines, List.map_cons, List.map_nil, marker_plain.1, titles_plain.1,
    trim_writtenRow]
  rw [List.filter_cons_of_pos rfl, List.filter_cons_of_pos rfl,
    List.filter_cons_of_pos (by rw [isEmpty_writtenRow]; rfl), List.filter_nil]

/-- A text that goes on like a written report as far as the last row is read with that row. -/
theorem parse_frontLines (write : Figures) {text row : List Char}
    (lines : Text.contentLines text = (frontLines write).map String.toList ++ [row])
    (read : isRowOf .read row = true) :
    parse text = .ok { read := metrics (Text.words titles.toList) (Text.words row)
                       write := metrics (Text.words titles.toList) (rowWords .write write) } := by
  have isWrite : isRowOf .write (writtenRow (lead .write) write).toList = true := by
    rw [isRowOf, words_writtenRow]
    rfl
  have notRead : isRowOf .read (writtenRow (lead .write) write).toList = false := by
    rw [isRowOf, words_writtenRow]
    show (some "write".toList == some "read".toList) = false
    decide
  have table : tableLines (Text.contentLines text) =
      [titles.toList, (writtenRow (lead .write) write).toList, row] := by
    rw [lines, frontLines, List.map_cons, List.cons_append, tableLines, markerLine?,
      List.findIdx?_cons, if_pos marker_plain.2.2]
    rfl
  have writes : rowLine? .write (Text.contentLines text) =
      some (writtenRow (lead .write) write).toList := by
    rw [rowLine?, table, List.tail_cons, List.find?_cons_of_pos isWrite]
  have reads : rowLine? .read (Text.contentLines text) = some row := by
    rw [rowLine?, table, List.tail_cons, List.find?_cons_of_neg (by simp [notRead]),
      List.find?_cons_of_pos read]
  rw [parse_eq, headerLine?, table, writes, reads]
  simp only [List.head?_cons, Option.map_some, words_writtenRow]
  rfl

theorem contentLines_report (figures : PerOperation Figures) :
    Text.contentLines (report figures.write figures.read).toList =
      (frontLines figures.write).map String.toList ++
        [(writtenRow (lead .read) figures.read).toList] := by
  have row : ∀ line ∈ [writtenRow (lead .read) figures.read], '\n' ∉ line.toList := by
    simp [flat_writtenRow]
  have flat := List.forall_mem_append.mpr ⟨flat_frontLines figures.write, row⟩
  have pieces := Text.splitOn_unlines flat
  rw [← report_eq_unlines, List.append_assoc, List.map_append] at pieces
  rw [contentLines_frontLines figures.write pieces]
  simp [trim_writtenRow, isEmpty_writtenRow]

theorem report_ne_empty (figures : PerOperation Figures) :
    report figures.write figures.read ≠ "" := by
  intro empty
  have lines := contentLines_report figures
  rw [empty] at lines
  cases lines

theorem parse_report (figures : PerOperation Figures) :
    ∃ record, parse (report figures.write figures.read).toList = .ok record ∧
      ∀ op, record.number? op maxColumn = some ((figures.get op).max.reread 2) ∧
        record.number? op minColumn = some ((figures.get op).min.reread 2) ∧
        record.number? op meanColumn = some ((figures.get op).mean.reread 2) := by
  have read : isRowOf .read (writtenRow (lead .read) figures.read).toList = true := by
    rw [isRowOf, words_writtenRow]
    rfl
  have parsed := parse_frontLines figures.write (contentLines_report figures) read
  rw [words_writtenRow] at parsed
  refine ⟨_, parsed, fun op => number?_writtenRow op (figures.get op) ?_⟩
  cases op <;> simp only [PerOperation.get]

end Ior

end Campaign
