import Campaign.Proofs.Summaries
import Mathlib.Data.List.Dedup
import Mathlib.Data.List.Induction

namespace Campaign.Summary

def dataRows (rows : List Csv.Row) : List Csv.Row :=
  match rows.filter (!isBlank ·) with
  | [] => []
  | first :: rest => if isData first then first :: rest else rest

theorem foldlM_step_begun (rows : List Csv.Row) (summary : Summary) :
    (rows.foldlM Reader.step { summary := summary, begun := true }).map (·.summary) =
      (rows.filter (!isBlank ·)).foldlM addRow summary := by
  induction rows generalizing summary with
  | nil => rfl
  | cons row rest ih =>
    rw [List.foldlM_cons, Reader.step]
    cases blank : isBlank row with
    | true =>
      rw [List.filter_cons_of_neg (by simp [blank])]
      exact ih summary
    | false =>
      rw [List.filter_cons_of_pos (by simp [blank]), List.foldlM_cons]
      dsimp only
      cases summary.addRow row with
      | ok next => exact ih next
      | error error => rfl

/-- A reader drops the header when it meets it; the data is what stands there without it. -/
theorem parse_eq (text : List Char) :
    parse text = (dataRows (Csv.rows text)).foldlM addRow .empty := by
  unfold parse
  generalize Csv.rows text = rows
  induction rows with
  | nil => rfl
  | cons row rest ih =>
    rw [List.foldlM_cons, Reader.step]
    cases blank : isBlank row with
    | true =>
      have dropped : dataRows (row :: rest) = dataRows rest := by
        rw [dataRows, List.filter_cons_of_neg (by simp [blank])]
        rfl
      rw [dropped]
      exact ih
    | false =>
      have kept : dataRows (row :: rest) =
          if isData row then row :: rest.filter (!isBlank ·) else rest.filter (!isBlank ·) := by
        rw [dataRows, List.filter_cons_of_pos (by simp [blank])]
      rw [kept]
      cases data : isData row with
      | true =>
        rw [if_pos rfl, List.foldlM_cons]
        have added : Reader.start.summary.addRow row = Summary.empty.addRow row := rfl
        rw [added]
        cases Summary.empty.addRow row with
        | ok next => exact foldlM_step_begun rest next
        | error error => rfl
      | false => exact foldlM_step_begun rest .empty

def figure? (field : List Char) : Option Binary64 :=
  if field = [] then some .zero else Binary64.ofText? field

structure Reads (fields : List (List Char)) (key : SummaryKey) (figures : Throughput) : Prop where
  long : 7 ≤ fields.length
  nodes : fields[0]?.bind Text.readCount? = some key.nodes
  stripes : fields[1]?.bind Text.readCount? = some key.stripes
  size : fields[2]?.map String.ofList = some key.size
  op : fields[3]?.map (Operation.ofText ∘ String.ofList) = some (.ok key.op)
  max : fields[4]?.bind figure? = some figures.max
  min : fields[5]?.bind figure? = some figures.min
  mean : fields[6]?.bind figure? = some figures.mean

def checks (fields : List (List Char)) : List (Option RowFault) :=
  let field (i : Nat) : List Char := fields.getD i []
  let count (i : Nat) (fault : String → RowFault) : Option RowFault :=
    if (Text.readCount? (field i)).isSome then none else some (fault (String.ofList (field i)))
  let figure (i : Nat) : Option RowFault :=
    if (figure? (field i)).isSome then none else some (.invalidNumber (String.ofList (field i)))
  let operation (i : Nat) : Option RowFault :=
    match Operation.ofText (String.ofList (field i)) with
    | .ok _ => none
    | .error error => some (.invalidOperation error)
  [if 7 ≤ fields.length then none else some (.tooFewFields fields.length),
    count 0 .invalidNodes, count 1 .invalidStripes, operation 3, figure 4, figure 5, figure 6]

def firstFault? (fields : List (List Char)) : Option RowFault := (checks fields).findSome? id

section

variable {fields : List (List Char)} {key : SummaryKey} {figures : Throughput} {fault : RowFault}

theorem readCount_eq (fault : String → RowFault) (field : List Char) :
    readCount fault field =
      (Text.readCount? field).elim (.error (fault (String.ofList field))) .ok := by
  unfold readCount
  cases Text.readCount? field <;> rfl

theorem readFigure_eq (field : List Char) :
    readFigure field =
      (figure? field).elim (.error (.invalidNumber (String.ofList field))) .ok := by
  unfold readFigure figure?
  cases field with
  | nil => rfl
  | cons c rest =>
    simp only [List.isEmpty_cons, Bool.false_eq_true, if_false, reduceCtorEq]
    cases Binary64.ofText? (c :: rest) <;> rfl

theorem exists_seven (long : 7 ≤ fields.length) :
    ∃ nodes stripes size op max min mean rest,
      fields = nodes :: stripes :: size :: op :: max :: min :: mean :: rest := by
  match fields, long with
  | nodes :: stripes :: size :: op :: max :: min :: mean :: rest, _ =>
    exact ⟨nodes, stripes, size, op, max, min, mean, rest, rfl⟩

theorem readRow_of_short (short : ¬ 7 ≤ fields.length) :
    readRow fields = .error (.tooFewFields fields.length) := by
  unfold readRow
  split
  · simp at short
  · rfl

section

variable {nodes stripes size op max min mean : List Char} {rest : List (List Char)}

theorem reads_cons_iff :
    Reads (nodes :: stripes :: size :: op :: max :: min :: mean :: rest) key figures ↔
      Text.readCount? nodes = some key.nodes ∧ Text.readCount? stripes = some key.stripes ∧
        String.ofList size = key.size ∧ Operation.ofText (String.ofList op) = .ok key.op ∧
        figure? max = some figures.max ∧ figure? min = some figures.min ∧
        figure? mean = some figures.mean := by
  constructor
  · intro reads
    obtain ⟨_, nodes, stripes, size, op, max, min, mean⟩ := reads
    simp at nodes stripes size op max min mean
    exact ⟨nodes, stripes, size, op, max, min, mean⟩
  · intro given
    obtain ⟨nodes, stripes, size, op, max, min, mean⟩ := given
    constructor <;> simp [nodes, stripes, size, op, max, min, mean]

theorem firstFault?_cons :
    firstFault? (nodes :: stripes :: size :: op :: max :: min :: mean :: rest) =
      if (Text.readCount? nodes).isNone then some (.invalidNodes (String.ofList nodes))
      else if (Text.readCount? stripes).isNone then some (.invalidStripes (String.ofList stripes))
      else match Operation.ofText (String.ofList op) with
        | .error error => some (.invalidOperation error)
        | .ok _ =>
          if (figure? max).isNone then some (.invalidNumber (String.ofList max))
          else if (figure? min).isNone then some (.invalidNumber (String.ofList min))
          else if (figure? mean).isNone then some (.invalidNumber (String.ofList mean))
          else none := by
  simp only [firstFault?, checks, List.getD_cons_zero, List.getD_cons_succ, List.length_cons]
  cases Text.readCount? nodes <;> cases Text.readCount? stripes <;>
    cases Operation.ofText (String.ofList op) <;> cases figure? max <;> cases figure? min <;>
    cases figure? mean <;> simp

end

/-- One case for each check that a row with enough fields can fail, and one for a row that passes
all. -/
theorem readRow_of_long (long : 7 ≤ fields.length) :
    (∀ key figures, readRow fields = .ok (key, figures) ↔ Reads fields key figures) ∧
      ∀ fault, readRow fields = .error fault ↔ firstFault? fields = some fault := by
  obtain ⟨nodes, stripes, size, op, max, min, mean, rest, rfl⟩ := exists_seven long
  simp only [reads_cons_iff, firstFault?_cons, readRow, readCount_eq, readFigure_eq, bind,
    Except.bind, Except.mapError, pure, Except.pure]
  cases Text.readCount? nodes with
  | none => simp
  | some n =>
    cases Text.readCount? stripes with
    | none => simp
    | some k =>
      cases Operation.ofText (String.ofList op) with
      | error error => simp
      | ok o =>
        cases figure? max with
        | none => simp
        | some x =>
          cases figure? min with
          | none => simp
          | some y =>
            cases figure? mean with
            | none => simp
            | some z =>
              refine ⟨fun key figures => ?_, by simp⟩
              obtain ⟨_, _, _, _⟩ := key
              obtain ⟨_, _, _⟩ := figures
              simp only [Option.elim_some, Except.ok.injEq, Prod.mk.injEq, SummaryKey.mk.injEq,
                Throughput.mk.injEq, Option.some.injEq]
              constructor <;> simp +contextual

theorem readRow_iff (fields : List (List Char)) :
    (∀ key figures, readRow fields = .ok (key, figures) ↔ Reads fields key figures) ∧
      ∀ fault, readRow fields = .error fault ↔ firstFault? fields = some fault := by
  by_cases long : 7 ≤ fields.length
  · exact readRow_of_long long
  · rw [readRow_of_short long]
    refine ⟨fun _ _ => ⟨nofun, fun reads => absurd reads.long long⟩, fun fault => ?_⟩
    simp [firstFault?, checks, long]

end

def figuresAt? (key : SummaryKey) (row : Csv.Row) : Option Throughput :=
  match readRow row.fields with
  | .ok (other, figures) => if other = key then some figures else none
  | .error _ => none

def key? (row : Csv.Row) : Option SummaryKey := (readRow row.fields).toOption.map (·.1)

theorem figuresAt?_eq_some_iff {key : SummaryKey} {row : Csv.Row} {figures : Throughput} :
    figuresAt? key row = some figures ↔ Reads row.fields key figures := by
  rw [← (readRow_iff row.fields).1, figuresAt?]
  cases readRow row.fields with
  | error fault => simp
  | ok pair =>
    obtain ⟨other, given⟩ := pair
    by_cases same : other = key <;> simp [same]

theorem key?_eq_some_iff {key : SummaryKey} {row : Csv.Row} :
    key? row = some key ↔ ∃ figures, Reads row.fields key figures := by
  simp only [← (readRow_iff row.fields).1, key?]
  cases readRow row.fields with
  | error fault => simp [Except.toOption]
  | ok pair =>
    obtain ⟨other, given⟩ := pair
    simp [Except.toOption, eq_comm]

theorem isEmpty_insert (summary : Summary) (key : SummaryKey) (figures : Throughput) :
    (summary.insert key figures).isEmpty = false := by
  have filled : ((summary.insert key figures).rows.get key.op).isEmpty = false := by
    rw [insert_eq, PerOperation.get_set_self]
    exact Table.isEmpty_insert _ _ _
  rw [isEmpty, List.all_eq_false]
  exact ⟨key.op, key.op.mem_all, by simp [filled]⟩

/-- What a summary holds after the rows, each with data. -/
structure Holds (summary : Summary) (rows : List Csv.Row) : Prop where
  points : ∀ key, summary.point? key = rows.reverse.findSome? (figuresAt? key)
  size : summary.size = (rows.filterMap key?).dedup.length
  isEmpty : summary.isEmpty = rows.isEmpty

theorem holds_empty : empty.Holds [] where
  points := point?_empty
  size := rfl
  isEmpty := rfl

theorem Holds.insert {summary : Summary} {rows : List Csv.Row} {row : Csv.Row} {key : SummaryKey}
    {figures : Throughput} (before : summary.Holds rows)
    (read : readRow row.fields = .ok (key, figures)) :
    (summary.insert key figures).Holds (rows ++ [row]) where
  points other := by
    rw [point?_insert, before.points, List.reverse_append, List.reverse_singleton,
      List.singleton_append, List.findSome?_cons, figuresAt?, read]
    by_cases same : other = key
    · simp [same]
    · simp [same, Ne.symm same]
  size := by
    have found : key? row = some key :=
      key?_eq_some_iff.mpr ⟨figures, ((readRow_iff _).1 _ _).mp read⟩
    have taken : (summary.point? key).isSome = true ↔ key ∈ rows.filterMap key? := by
      rw [before.points, List.findSome?_isSome_iff, List.mem_filterMap]
      simp only [List.mem_reverse, Option.isSome_iff_exists, figuresAt?_eq_some_iff,
        key?_eq_some_iff]
    rw [size_insert, before.size, List.filterMap_append, List.filterMap_cons_some found,
      List.filterMap_nil, length_dedup_concat]
    simp only [taken]
  isEmpty := by simp [isEmpty_insert]

theorem Holds.foldlM_addRow {summary result : Summary} {before rows : List Csv.Row}
    (held : summary.Holds before) (read : rows.foldlM addRow summary = .ok result) :
    result.Holds (before ++ rows) := by
  induction rows generalizing summary before with
  | nil =>
    cases read
    simpa using held
  | cons row rest ih =>
    rw [List.foldlM_cons, addRow] at read
    cases given : readRow row.fields with
    | error fault =>
      rw [given] at read
      cases read
    | ok pair =>
      obtain ⟨key, figures⟩ := pair
      rw [given] at read
      have after := ih (held.insert given) read
      simpa using after

theorem exists_foldlM_addRow_iff {rows : List Csv.Row} (summary : Summary) :
    (∃ result, rows.foldlM addRow summary = .ok result) ↔
      ∀ row ∈ rows, ∃ key figures, Reads row.fields key figures := by
  induction rows generalizing summary with
  | nil => simp [pure, Except.pure]
  | cons row rest ih =>
    rw [List.foldlM_cons, addRow, List.forall_mem_cons]
    simp only [← (readRow_iff row.fields).1]
    cases readRow row.fields with
    | error fault => simp [bind, Except.bind]
    | ok pair =>
      obtain ⟨key, figures⟩ := pair
      refine (ih (summary.insert key figures)).trans ?_
      simp

theorem Holds.of_different {summary : Summary} {rows : List Csv.Row} (held : summary.Holds rows)
    {written : List (SummaryKey × Throughput)}
    (read : (rows.map fun row => readRow row.fields) = written.map .ok)
    (different : (written.map (·.1)).Nodup) :
    (∀ key figures, summary.point? key = some figures ↔ (key, figures) ∈ written) ∧
      summary.size = written.length := by
  have listed : ∀ pair, pair ∈ written ↔ ∃ row ∈ rows, readRow row.fields = .ok pair := by
    intro pair
    rw [← List.mem_map (f := fun row : Csv.Row => readRow row.fields), read,
      List.mem_map_of_injective fun _ _ => Except.ok.inj]
  have found : ∀ key figures, summary.point? key = some figures → (key, figures) ∈ written := by
    intro key figures point
    rw [held.points] at point
    obtain ⟨row, member, here⟩ := List.exists_of_findSome?_eq_some point
    rw [figuresAt?_eq_some_iff, ← (readRow_iff row.fields).1] at here
    exact (listed _).mpr ⟨row, List.mem_reverse.mp member, here⟩
  constructor
  · refine fun key figures => ⟨found key figures, fun member => ?_⟩
    obtain ⟨row, inRows, here⟩ := (listed _).mp member
    rw [(readRow_iff row.fields).1, ← figuresAt?_eq_some_iff] at here
    have some : (summary.point? key).isSome = true := by
      rw [held.points, List.findSome?_isSome_iff]
      exact ⟨row, List.mem_reverse.mpr inRows, by rw [here]; rfl⟩
    obtain ⟨other, point⟩ := Option.isSome_iff_exists.mp some
    have same := List.inj_on_of_nodup_map different (found key other point) member rfl
    rw [point, (Prod.mk.inj same).2]
  · have keys : rows.filterMap key? = written.map (·.1) := by
      have through : rows.filterMap key? =
          (rows.map fun row => readRow row.fields).filterMap fun result =>
            result.toOption.map (·.1) := by
        rw [List.filterMap_map]
        rfl
      rw [through, read, List.filterMap_map, ← List.filterMap_eq_map]
      rfl
    rw [held.size, keys, different.dedup, List.length_map]

theorem foldlM_addRow_eq_error_iff {summary : Summary} {rows : List Csv.Row}
    {error : SummaryError} :
    rows.foldlM addRow summary = .error error ↔
      ∃ before row after fault, rows = before ++ row :: after ∧
        (∀ earlier ∈ before, ∃ key figures, Reads earlier.fields key figures) ∧
        firstFault? row.fields = some fault ∧ error = .line row.line fault := by
  constructor
  · intro read
    induction rows generalizing summary with
    | nil => cases read
    | cons row rest ih =>
      rw [List.foldlM_cons, addRow] at read
      cases given : readRow row.fields with
      | error fault =>
        rw [given] at read
        cases read
        exact ⟨[], row, rest, fault, rfl, nofun, ((readRow_iff _).2 fault).mp given, rfl⟩
      | ok pair =>
        obtain ⟨key, figures⟩ := pair
        rw [given] at read
        obtain ⟨before, other, after, fault, rfl, good, bad⟩ := ih read
        refine ⟨row :: before, other, after, fault, rfl, ?_, bad⟩
        exact List.forall_mem_cons.mpr ⟨⟨key, figures, ((readRow_iff _).1 _ _).mp given⟩, good⟩
  · intro given
    obtain ⟨before, row, after, fault, rfl, good, bad, rfl⟩ := given
    obtain ⟨next, read⟩ := (exists_foldlM_addRow_iff summary).mpr good
    have faulty : readRow row.fields = .error fault := ((readRow_iff _).2 fault).mpr bad
    rw [List.foldlM_append, read]
    show (row :: after).foldlM addRow next = _
    rw [List.foldlM_cons, addRow, faulty]
    rfl

theorem last_iff {α β : Type} {f : α → Option β} {items : List α} {value : β} :
    items.reverse.findSome? f = some value ↔
      ∃ before item after, items = before ++ item :: after ∧ f item = some value ∧
        ∀ later ∈ after, f later = none := by
  rw [List.findSome?_eq_some_iff]
  constructor
  · intro given
    obtain ⟨after, item, before, split, found, missed⟩ := given
    refine ⟨before.reverse, item, after.reverse, ?_, found, by simpa using missed⟩
    have turned := congrArg List.reverse split
    simpa using turned
  · intro given
    obtain ⟨before, item, after, rfl, found, missed⟩ := given
    exact ⟨after.reverse, item, before.reverse, by simp, found, by simpa using missed⟩

theorem series_points (summary : Summary) (op : Operation) (stripes : Nat) (size : String) :
    (summary.series op stripes size).points.Pairwise (fun left right => left.1 < right.1) ∧
      ∀ nodes value, (nodes, value) ∈ (summary.series op stripes size).points ↔
        ∃ figures, summary.point?
            { op := op, stripes := stripes, size := size, nodes := nodes } = some figures ∧
          figures.max = value := by
  refine ⟨List.pairwise_map.mpr (summary.byNodes op stripes size).ascending, fun nodes value => ?_⟩
  simp only [series, point?, Table.get?_eq_some_iff, List.mem_map, Prod.exists, Prod.mk.injEq]
  constructor
  · intro given
    obtain ⟨_, figures, member, rfl, same⟩ := given
    exact ⟨figures, member, same⟩
  · intro given
    obtain ⟨figures, member, same⟩ := given
    exact ⟨nodes, figures, member, rfl, same⟩

/-- A text is a summary exactly if all its rows with data are well formed. Then every key has the
figures of its last row and no other key has any; otherwise the first bad row is reported with its
first fault. -/
theorem parse_rows (text : List Char) :
    let rows := (Csv.rows text).filter (!isBlank ·)
    let data := dataRows (Csv.rows text)
    (∀ row ∈ rows, row.fields ≠ []) ∧
    ((∃ summary, parse text = .ok summary) ↔
      ∀ row ∈ data, ∃ key figures, Reads row.fields key figures) ∧
    (∀ summary, parse text = .ok summary →
      (∀ key figures, summary.point? key = some figures ↔
        ∃ before row after, data = before ++ row :: after ∧ Reads row.fields key figures ∧
          ∀ later ∈ after, ∀ other, ¬ Reads later.fields key other) ∧
      (∀ key, summary.point? key = none ↔
        ∀ row ∈ data, ∀ figures, ¬ Reads row.fields key figures) ∧
      (∃ keys : List SummaryKey, keys.Nodup ∧
        (∀ key, key ∈ keys ↔ ∃ row ∈ data, ∃ figures, Reads row.fields key figures) ∧
        summary.size = keys.length) ∧
      (summary.isEmpty = true ↔ data = []) ∧
      ∀ op stripes size,
        (summary.series op stripes size).points.Pairwise (fun left right => left.1 < right.1) ∧
        ∀ nodes value, (nodes, value) ∈ (summary.series op stripes size).points ↔
          ∃ figures, summary.point?
              { op := op, stripes := stripes, size := size, nodes := nodes } = some figures ∧
            figures.max = value) ∧
    ∀ error, parse text = .error error ↔
      ∃ before row after fault, data = before ++ row :: after ∧
        (∀ earlier ∈ before, ∃ key figures, Reads earlier.fields key figures) ∧
        firstFault? row.fields = some fault ∧ error = .line row.line fault := by
  intro rows data
  rw [parse_eq]
  refine ⟨?_, exists_foldlM_addRow_iff .empty, fun summary read => ?_,
    fun error => foldlM_addRow_eq_error_iff⟩
  · intro row member none
    have given := (List.mem_filter.mp member).2
    simp [isBlank, none] at given
  · have held := holds_empty.foldlM_addRow read
    rw [List.nil_append] at held
    have missing : ∀ key row,
        figuresAt? key row = none ↔ ∀ figures, ¬ Reads row.fields key figures := by
      intro key row
      simp only [← figuresAt?_eq_some_iff, Option.eq_none_iff_forall_ne_some]
    refine ⟨fun key figures => ?_, fun key => ?_, ?_, ?_, series_points summary⟩
    · rw [held.points, last_iff]
      simp only [figuresAt?_eq_some_iff, missing]
      rfl
    · rw [held.points, List.findSome?_eq_none_iff]
      simp only [List.mem_reverse, missing]
      rfl
    · refine ⟨_, List.nodup_dedup _, fun key => ?_, held.size⟩
      simp only [List.mem_dedup, List.mem_filterMap, key?_eq_some_iff]
      rfl
    · rw [held.isEmpty, List.isEmpty_iff]

end Campaign.Summary
