import Campaign.Proofs.Columns
import Campaign.Report.Lsm
import Mathlib.Data.List.Basic
import Mathlib.Data.List.DropRight
import Mathlib.Data.List.Find
import Mathlib.Data.List.Induction

namespace Campaign.Lsm

/-- The words that open a section, with or without colons behind them. -/
def titles : Operation → List (List Char)
  | .write => ["WRITE".toList, "Bench-WRITE".toList]
  | .read => ["READ".toList, "Bench-READ".toList]

theorem exists_colons (word : List Char) :
    ∃ colons, word = word.rdropWhile (· = ':') ++ List.replicate colons ':' := by
  induction word using List.reverseRecOn with
  | nil => exact ⟨0, rfl⟩
  | append_singleton word c ih =>
    by_cases colon : c = ':'
    · subst colon
      obtain ⟨colons, split⟩ := ih
      refine ⟨colons + 1, ?_⟩
      rw [List.rdropWhile_concat_pos _ _ _ (by simp), List.replicate_succ', ← List.append_assoc,
        ← split]
    · refine ⟨0, ?_⟩
      rw [List.rdropWhile_concat_neg _ _ _ (by simpa using colon), List.replicate_zero,
        List.append_nil]

theorem rdropWhile_colons {title : List Char} (bare : title.rdropWhile (· = ':') = title)
    (colons : Nat) : (title ++ List.replicate colons ':').rdropWhile (· = ':') = title := by
  induction colons with
  | zero => rwa [List.replicate_zero, List.append_nil]
  | succ colons ih =>
    rw [List.replicate_succ', ← List.append_assoc, List.rdropWhile_concat_pos _ _ _ (by simp), ih]

theorem banner?_iff_mem_titles {line word : List Char} (first : (Text.words line).head? = some word)
    {op : Operation} : banner? line = some op ↔ word.rdropWhile (· = ':') ∈ titles op := by
  have apart : ∀ title ∈ titles .read, title ∉ titles .write := by decide
  have read : banner? line = if word.rdropWhile (· = ':') ∈ titles .write then some .write
      else if word.rdropWhile (· = ':') ∈ titles .read then some .read else none := by
    rw [banner?, first]
    simp only [titles, List.mem_cons, List.not_mem_nil, or_false]
    rfl
  rw [read]
  by_cases written : word.rdropWhile (· = ':') ∈ titles .write
  · rw [if_pos written]
    cases op with
    | write => exact iff_of_true rfl written
    | read => exact iff_of_false nofun fun member => apart _ member written
  · rw [if_neg written]
    cases op with
    | write => exact iff_of_false (by split <;> nofun) written
    | read => simp

theorem banner?_eq_some_iff {line : List Char} {op : Operation} :
    banner? line = some op ↔ ∃ title ∈ titles op, ∃ colons,
      (Text.words line).head? = some (title ++ List.replicate colons ':') := by
  have bare : ∀ op, ∀ title ∈ titles op, title.rdropWhile (· = ':') = title := by
    intro op
    cases op <;> decide
  constructor
  · intro found
    cases first : (Text.words line).head? with
    | none => simp [banner?, first] at found
    | some word =>
      obtain ⟨colons, cut⟩ := exists_colons word
      exact ⟨_, (banner?_iff_mem_titles first).mp found, colons, congrArg some cut⟩
  · intro given
    obtain ⟨title, member, colons, first⟩ := given
    rw [banner?_iff_mem_titles first, rdropWhile_colons (bare op title member)]
    exact member

/-- The header and the row of the section at line `i`: a banner of the operation and two more lines,
neither of them a banner. -/
def sectionAt? (op : Operation) (lines : List (List Char)) (i : Nat) :
    Option (List Char × List Char) :=
  match lines[i]?, lines[i + 1]?, lines[i + 2]? with
  | some title, some header, some row =>
    if banner? title = some op ∧ banner? header = none ∧ banner? row = none then some (header, row)
    else none
  | _, _, _ => none

def sectionsOf (op : Operation) (lines : List (List Char)) : List (List Char × List Char) :=
  (List.range lines.length).filterMap (sectionAt? op lines)

def lastBanner? (op : Operation) (lines : List (List Char)) : Option Nat :=
  (List.range lines.length).reverse.find? fun i => lines[i]?.bind banner? = some op

/-- The line after the last banner of an operation, if there is one and it is no banner. -/
def lastHeader? (op : Operation) (lines : List (List Char)) : Option (List Char) :=
  (lastBanner? op lines).bind fun i => lines[i + 1]?.filter fun line => (banner? line).isNone

def opened? (lines : List (List Char)) : Option (Operation × Option (List Char)) :=
  lines.getLast?.bind fun line =>
    match banner? line with
    | some op => some (op, none)
    | none => (lines.dropLast.getLast?.bind banner?).map (·, some line)

def active? (lines : List (List Char)) : Option Operation :=
  (opened? lines).bind fun last => if sectionsOf last.1 lines = [] then some last.1 else none

def sectionOf (op : Operation) (lines : List (List Char)) : Section :=
  match (sectionsOf op lines).head? with
  | some (header, row) => .complete header row
  | none => (lastHeader? op lines).elim .awaited .begun

section

variable {op : Operation} {lines : List (List Char)} {line : List Char}

theorem sectionAt?_append (op : Operation) (more : List (List Char)) {i : Nat}
    (within : i + 2 < lines.length) :
    sectionAt? op (lines ++ more) i = sectionAt? op lines i := by
  unfold sectionAt?
  rw [List.getElem?_append_left (by omega), List.getElem?_append_left (by omega),
    List.getElem?_append_left within]

theorem sectionAt?_eq_none {i : Nat} (short : lines.length ≤ i + 2) :
    sectionAt? op lines i = none := by
  unfold sectionAt?
  rw [List.getElem?_eq_none short]
  split
  · rename_i absurdly
    cases absurdly
  · rfl

theorem sectionAt?_length (op : Operation) (before : List (List Char))
    (title header row : List Char) :
    sectionAt? op (before ++ [title, header, row]) before.length =
      if banner? title = some op ∧ banner? header = none ∧ banner? row = none
      then some (header, row) else none := by
  simp [sectionAt?]

theorem sectionsOf_eq {count : Nat} (few : count ≤ lines.length)
    (enough : lines.length ≤ count + 2) :
    sectionsOf op lines = (List.range count).filterMap (sectionAt? op lines) := by
  obtain ⟨rest, length⟩ := Nat.exists_eq_add_of_le few
  have nothing : ((List.range rest).map (count + ·)).filterMap (sectionAt? op lines) = [] := by
    apply List.filterMap_eq_nil_iff.mpr
    intro i member
    obtain ⟨_, _, rfl⟩ := List.mem_map.mp member
    exact sectionAt?_eq_none (by omega)
  rw [sectionsOf, length, List.range_add, List.filterMap_append, nothing, List.append_nil]

theorem sectionsOf_append_three (op : Operation) (before : List (List Char))
    (title header row : List Char) :
    sectionsOf op (before ++ [title, header, row]) =
      sectionsOf op (before ++ [title, header]) ++
        if banner? title = some op ∧ banner? header = none ∧ banner? row = none
        then [(header, row)] else [] := by
  have earlier : (List.range before.length).filterMap
        (sectionAt? op (before ++ [title, header, row])) =
      (List.range before.length).filterMap (sectionAt? op (before ++ [title, header])) := by
    apply List.filterMap_congr
    intro i member
    have within : i + 2 < (before ++ [title, header]).length := by
      have less := List.mem_range.mp member
      simpa using less
    have same := sectionAt?_append op [row] within
    simpa using same
  have all : sectionsOf op (before ++ [title, header, row]) =
      (List.range (before.length + 1)).filterMap
        (sectionAt? op (before ++ [title, header, row])) :=
    sectionsOf_eq (by simp) (by simp)
  have old : sectionsOf op (before ++ [title, header]) =
      (List.range before.length).filterMap (sectionAt? op (before ++ [title, header])) :=
    sectionsOf_eq (by simp) (by simp)
  rw [all, old, List.range_succ, List.filterMap_append, earlier]
  congr 1
  by_cases complete : banner? title = some op ∧ banner? header = none ∧ banner? row = none
  · simp only [List.filterMap_cons, sectionAt?_length, if_pos complete, List.filterMap_nil]
  · simp only [List.filterMap_cons, sectionAt?_length, if_neg complete, List.filterMap_nil]

theorem opened?_concat :
    opened? (lines ++ [line]) =
      match banner? line with
      | some op => some (op, none)
      | none => (lines.getLast?.bind banner?).map (·, some line) := by
  simp [opened?]

theorem opened?_concat_plain (plain : banner? line = none) :
    opened? (lines ++ [line]) =
      match opened? lines with
      | some (op, none) => some (op, some line)
      | _ => none := by
  rw [opened?_concat, plain]
  dsimp only
  cases last : lines.getLast? with
  | none => simp [opened?, last]
  | some title =>
    cases kind : banner? title with
    | some op => simp [opened?, last, kind]
    | none =>
      cases earlier : lines.dropLast.getLast?.bind banner? <;> simp [opened?, last, kind, earlier]

/-- One more line completes a section exactly if it stands after the header of one that is open. -/
theorem sectionsOf_concat (op : Operation) (lines : List (List Char)) (line : List Char) :
    sectionsOf op (lines ++ [line]) = sectionsOf op lines ++
      match opened? lines with
      | some (other, some header) =>
        if other = op ∧ banner? line = none then [(header, line)] else []
      | _ => [] := by
  have short : ∀ lines : List (List Char), lines.length ≤ 2 → sectionsOf op lines = [] :=
    fun lines few => sectionsOf_eq (Nat.zero_le _) few
  rcases List.eq_nil_or_concat lines with rfl | ⟨earlier, header, rfl⟩
  · exact short _ (by simp)
  · rw [List.concat_eq_append, opened?_concat]
    rcases List.eq_nil_or_concat earlier with rfl | ⟨before, title, rfl⟩
    · rw [short _ (by simp), short _ (by simp)]
      cases banner? header <;> rfl
    · have added := sectionsOf_append_three op before title header line
      simp only [List.concat_eq_append, List.append_assoc, List.cons_append, List.nil_append]
      rw [added]
      cases second : banner? header with
      | some other => simp
      | none =>
        cases first : banner? title with
        | none => simp [first]
        | some other => simp [first]

theorem sectionsOf_concat_banner (lines : List (List Char)) (banner : banner? line = some op)
    (other : Operation) : sectionsOf other (lines ++ [line]) = sectionsOf other lines := by
  rw [sectionsOf_concat, banner]
  cases opened? lines with
  | none => simp
  | some last => obtain ⟨_, _ | _⟩ := last <;> simp

theorem sectionsOf_append (op : Operation) (lines more : List (List Char)) :
    ∃ later, sectionsOf op (lines ++ more) = sectionsOf op lines ++ later := by
  induction more using List.reverseRecOn with
  | nil => exact ⟨[], by simp⟩
  | append_singleton more line ih =>
    obtain ⟨later, split⟩ := ih
    rw [← List.append_assoc, sectionsOf_concat, split, List.append_assoc]
    exact ⟨_, rfl⟩

theorem lt_of_lastBanner? {i : Nat} (found : lastBanner? op lines = some i) : i < lines.length := by
  have member := List.mem_of_find?_eq_some found
  simpa using member

theorem lastBanner?_concat :
    lastBanner? op (lines ++ [line]) =
      if banner? line = some op then some lines.length else lastBanner? op lines := by
  have same : ∀ i ∈ (List.range lines.length).reverse,
      decide ((lines ++ [line])[i]?.bind banner? = some op) =
        decide (lines[i]?.bind banner? = some op) := by
    intro i member
    rw [List.getElem?_append_left (by simpa using member)]
  unfold lastBanner?
  rw [List.length_append, List.length_singleton, List.range_succ, List.reverse_append,
    List.reverse_singleton, List.singleton_append, List.find?_cons, List.getElem?_concat_length,
    List.find?_congr same]
  by_cases banner : banner? line = some op <;> simp [banner]

theorem lastHeader?_concat :
    lastHeader? op (lines ++ [line]) =
      if banner? line = some op then none
      else if opened? lines = some (op, none) ∧ banner? line = none then some line
      else lastHeader? op lines := by
  unfold lastHeader?
  rw [lastBanner?_concat]
  by_cases again : banner? line = some op
  · rw [if_pos again, if_pos again, Option.bind_some, List.getElem?_eq_none (by simp)]
    rfl
  · rw [if_neg again, if_neg again]
    -- Whether the new line is a header is told by the line before it alone.
    rcases List.eq_nil_or_concat lines with rfl | ⟨before, last, rfl⟩
    · rfl
    · rw [List.concat_eq_append, lastBanner?_concat, opened?_concat]
      by_cases banner : banner? last = some op
      · have next : (before ++ [last] ++ [line])[before.length + 1]? = some line := by simp
        have nothing : (before ++ [last])[before.length + 1]? = none := by simp
        simp only [banner, if_true, Option.bind_some, next, nothing, true_and]
        cases plain : banner? line <;> simp [Option.filter, plain]
      · have elsewhere : ¬ (match banner? last with
            | some op => some (op, none)
            | none => (before.getLast?.bind banner?).map (·, some last)) =
              some (op, (none : Option (List Char))) := by
          cases kind : banner? last with
          | some other => simpa [kind] using banner
          | none => cases before.getLast?.bind banner? <;> simp
        rw [if_neg banner, if_neg fun given => elsewhere given.1]
        cases found : lastBanner? op before with
        | none => rfl
        | some i =>
          have within : i + 1 < (before ++ [last]).length := by
            have less := lt_of_lastBanner? found
            simp only [List.length_append, List.length_singleton]
            omega
          rw [Option.bind_some, Option.bind_some, List.getElem?_append_left within]

theorem lastHeader?_of_opened {header? : Option (List Char)}
    (last : opened? lines = some (op, header?)) : lastHeader? op lines = header? := by
  rcases List.eq_nil_or_concat lines with rfl | ⟨before, line, rfl⟩
  · cases last
  · rw [List.concat_eq_append] at last ⊢
    rw [opened?_concat] at last
    rw [lastHeader?_concat]
    cases banner : banner? line with
    | some other =>
      rw [banner] at last
      cases last
      rw [if_pos rfl]
    | none =>
      rw [banner] at last
      obtain ⟨other, title, same⟩ := Option.map_eq_some_iff.mp last
      cases same
      have begun : opened? before = some (op, none) := by
        obtain ⟨first, atEnd, kind⟩ := Option.bind_eq_some_iff.mp title
        simp [opened?, atEnd, kind]
      rw [if_neg nofun, if_pos ⟨begun, rfl⟩]

theorem sectionOf_of_complete {header row : List Char} {rest : List (List Char × List Char)}
    (found : sectionsOf op lines = (header, row) :: rest) :
    sectionOf op lines = .complete header row := by
  rw [sectionOf, found]
  rfl

theorem sectionOf_of_incomplete (incomplete : sectionsOf op lines = []) :
    sectionOf op lines = (lastHeader? op lines).elim .awaited .begun := by
  rw [sectionOf, incomplete]
  rfl

theorem isComplete_sectionOf_iff (op : Operation) (lines : List (List Char)) :
    (sectionOf op lines).isComplete = true ↔ sectionsOf op lines ≠ [] := by
  cases found : sectionsOf op lines with
  | nil =>
    rw [sectionOf_of_incomplete found]
    cases lastHeader? op lines <;> simp [Section.isComplete]
  | cons first rest => simp [sectionOf_of_complete found, Section.isComplete]

theorem sectionOf_append_of_complete (complete : (sectionOf op lines).isComplete = true)
    (more : List (List Char)) : sectionOf op (lines ++ more) = sectionOf op lines := by
  obtain ⟨first, rest, found⟩ :=
    List.exists_cons_of_ne_nil ((isComplete_sectionOf_iff op lines).mp complete)
  obtain ⟨later, split⟩ := sectionsOf_append op lines more
  rw [found] at split
  rw [sectionOf_of_complete found, sectionOf_of_complete split]

theorem sectionOf_concat_banner (banner : banner? line = some op) (other : Operation) :
    sectionOf other (lines ++ [line]) =
      if other = op ∧ sectionsOf op lines = [] then .awaited else sectionOf other lines := by
  have sections := sectionsOf_concat_banner lines banner other
  have header : lastHeader? other (lines ++ [line]) =
      if other = op then none else lastHeader? other lines := by
    rw [lastHeader?_concat, banner]
    simp [eq_comm]
  cases found : sectionsOf other lines with
  | nil =>
    rw [found] at sections
    rw [sectionOf_of_incomplete sections, sectionOf_of_incomplete found, header]
    by_cases same : other = op
    · subst same
      simp [found]
    · simp [same]
  | cons first rest =>
    have incomplete : ¬ (other = op ∧ sectionsOf op lines = []) := by
      intro given
      obtain ⟨rfl, absurdly⟩ := given
      rw [found] at absurdly
      cases absurdly
    rw [if_neg incomplete, sectionOf_of_complete (sections.trans found),
      sectionOf_of_complete found]

theorem active?_eq_some_iff :
    active? lines = some op ↔
      ∃ header?, opened? lines = some (op, header?) ∧ sectionsOf op lines = [] := by
  simp [active?, Option.bind_eq_some_iff]

theorem active?_concat_plain (lines : List (List Char)) (plain : banner? line = none) :
    active? (lines ++ [line]) =
      match opened? lines with
      | some (_, none) => active? lines
      | _ => none := by
  rw [active?, opened?_concat_plain plain]
  cases last : opened? lines with
  | none => rfl
  | some pair =>
    obtain ⟨op, header?⟩ := pair
    cases header? with
    | some header => rfl
    | none => simp [active?, sectionsOf_concat, last]

theorem sectionOf_of_opened {header? : Option (List Char)}
    (last : opened? lines = some (op, header?)) (incomplete : sectionsOf op lines = []) :
    sectionOf op lines = header?.elim .awaited .begun := by
  rw [sectionOf_of_incomplete incomplete, lastHeader?_of_opened last]

theorem sectionOf_concat_of_opened {header? : Option (List Char)} (plain : banner? line = none)
    (last : opened? lines = some (op, header?)) (incomplete : sectionsOf op lines = []) :
    sectionOf op (lines ++ [line]) = header?.elim (.begun line) (.complete · line) := by
  have sections := sectionsOf_concat op lines line
  rw [last, incomplete] at sections
  cases header? with
  | some header =>
    have found : sectionsOf op (lines ++ [line]) = [(header, line)] := by
      simpa [plain] using sections
    exact sectionOf_of_complete found
  | none =>
    rw [sectionOf_of_incomplete sections, lastHeader?_concat, plain, if_neg nofun,
      if_pos ⟨last, rfl⟩]
    rfl

theorem sectionOf_concat_of_inactive (plain : banner? line = none)
    (inactive : active? lines ≠ some op) :
    sectionOf op (lines ++ [line]) = sectionOf op lines := by
  cases found : sectionsOf op lines with
  | nil =>
    have apart : ∀ header?, opened? lines ≠ some (op, header?) := by
      intro header? last
      exact inactive (active?_eq_some_iff.mpr ⟨header?, last, found⟩)
    have sections : sectionsOf op (lines ++ [line]) = [] := by
      rw [sectionsOf_concat, found, List.nil_append]
      cases last : opened? lines with
      | none => rfl
      | some pair =>
        obtain ⟨other, header?⟩ := pair
        have different : other ≠ op := fun same => apart header? (same ▸ last)
        cases header? <;> simp [different]
    rw [sectionOf_of_incomplete sections, sectionOf_of_incomplete found, lastHeader?_concat,
      plain, if_neg nofun, if_neg fun given => apart _ given.1]
  | cons first rest =>
    have complete : (sectionOf op lines).isComplete = true :=
      (isComplete_sectionOf_iff op lines).mpr (by rw [found]; exact List.cons_ne_nil _ _)
    exact sectionOf_append_of_complete complete [line]

namespace Reader

/-- A reader that has read the lines, which are trimmed and not blank. -/
structure HasRead (reader : Reader) (lines : List (List Char)) : Prop where
  sections : ∀ op, reader.sections.get op = sectionOf op lines
  active : reader.active = active? lines

variable {reader : Reader}

theorem hasRead_start : start.HasRead [] where
  sections op := by cases op <;> rfl
  active := rfl

theorem HasRead.stepBanner (before : reader.HasRead lines) (banner : banner? line = some op) :
    (reader.stepBanner op).HasRead (lines ++ [line]) := by
  have active : active? (lines ++ [line]) = if sectionsOf op lines = [] then some op else none := by
    rw [active?, opened?_concat, banner, Option.bind_some, sectionsOf_concat_banner lines banner]
  have complete := isComplete_sectionOf_iff op lines
  unfold Reader.stepBanner
  rw [before.sections op]
  by_cases given : sectionsOf op lines = []
  · rw [if_neg fun done => complete.mp done given]
    refine ⟨fun other => ?_, by rw [active, if_pos given]⟩
    rw [sectionOf_concat_banner banner]
    by_cases same : other = op
    · subst same
      rw [PerOperation.get_set_self, if_pos ⟨rfl, given⟩]
    · rw [PerOperation.get_set_of_ne _ same, before.sections, if_neg fun both => same both.1]
  · rw [if_pos (complete.mpr given)]
    refine ⟨fun other => ?_, by rw [active, if_neg given]⟩
    rw [sectionOf_concat_banner banner, before.sections, if_neg fun both => given both.2]

theorem HasRead.stepContent (before : reader.HasRead lines) (plain : banner? line = none) :
    (reader.stepContent line).HasRead (lines ++ [line]) := by
  have after := active?_concat_plain lines plain
  have kept : ∀ op, active? lines ≠ some op →
      reader.sections.get op = sectionOf op (lines ++ [line]) := by
    intro op inactive
    rw [sectionOf_concat_of_inactive plain inactive]
    exact before.sections op
  unfold Reader.stepContent
  rw [before.active]
  cases now : active? lines with
  | none =>
    refine ⟨fun op => kept op (by rw [now]; exact nofun), ?_⟩
    rw [after, before.active, now]
    split <;> rfl
  | some op =>
    obtain ⟨header?, last, incomplete⟩ := active?_eq_some_iff.mp now
    have here := sectionOf_of_opened last incomplete
    have there := sectionOf_concat_of_opened plain last incomplete
    have changed : ∀ other, (reader.sections.set op (sectionOf op (lines ++ [line]))).get other =
        sectionOf other (lines ++ [line]) := by
      intro other
      by_cases same : other = op
      · rw [same, PerOperation.get_set_self]
      · rw [PerOperation.get_set_of_ne _ same]
        exact kept other (by rw [now]; exact fun given => same (Option.some.inj given).symm)
    rw [there] at changed
    rw [last] at after
    cases header? with
    | none =>
      refine ⟨?_, ?_⟩
      · simpa [before.sections op, here] using changed
      · simpa [before.sections op, here] using (after.trans now).symm
    | some header =>
      refine ⟨?_, ?_⟩
      · simpa [before.sections op, here] using changed
      · simpa [before.sections op, here] using after.symm

theorem HasRead.step (before : reader.HasRead lines) (given : line ≠ []) :
    (reader.step line).HasRead (lines ++ [line]) := by
  unfold Reader.step
  cases kind : banner? line with
  | some op => exact before.stepBanner kind
  | none =>
    have content : ¬ line.isEmpty = true := by simpa using given
    dsimp only
    rw [if_neg content]
    exact before.stepContent kind

theorem HasRead.read (before : reader.HasRead lines) (more : List (List Char)) (op : Operation) :
    (reader.read more).sections.get op =
      sectionOf op (lines ++ (more.map Text.trim).filter (!·.isEmpty)) := by
  induction more generalizing reader lines with
  | nil =>
    rw [List.map_nil, List.filter_nil, List.append_nil]
    exact before.sections op
  | cons line rest ih =>
    -- A blank line leaves the reader as it is, any other one is one more that it has read.
    obtain ⟨seen, split, after⟩ : ∃ seen,
        lines ++ ((line :: rest).map Text.trim).filter (!·.isEmpty) =
          seen ++ (rest.map Text.trim).filter (!·.isEmpty) ∧
        (reader.step (Text.trim line)).HasRead seen := by
      by_cases blank : Text.trim line = []
      · refine ⟨lines, by simp [blank], ?_⟩
        rw [blank]
        exact before
      · exact ⟨lines ++ [Text.trim line], by simp [blank], before.step blank⟩
    unfold Reader.read
    dsimp only
    rw [split]
    by_cases done : (reader.step (Text.trim line)).isComplete = true
    -- The reader stops, and its sections stay the first ones whatever follows.
    · have both := Bool.and_eq_true_iff.mp done
      have complete : (sectionOf op seen).isComplete = true := by
        rw [← after.sections op]
        cases op with
        | read => exact both.2
        | write => exact both.1
      rw [if_pos done, sectionOf_append_of_complete complete]
      exact after.sections op
    · rw [if_neg done]
      exact ih after

end Reader

def lackingOf (op : Operation) (lines : List (List Char)) : List ReportPart :=
  if (sectionsOf op lines).isEmpty then
    if (lastHeader? op lines).isSome then [.row op] else [.wholeSection op]
  else []

theorem toList_missingPart? :
    ((sectionOf op lines).missingPart? op).toList = lackingOf op lines := by
  unfold lackingOf
  cases found : sectionsOf op lines with
  | nil =>
    rw [sectionOf_of_incomplete found]
    cases lastHeader? op lines <;> rfl
  | cons first rest =>
    rw [sectionOf_of_complete found]
    rfl

theorem texts_lackingOf (op : Operation) :
    (lackingOf op lines).map ReportPart.text =
      if (sectionsOf op lines).head?.isSome then []
      else if (lastHeader? op lines).isSome then [op.name ++ " row"]
      else [op.name ++ " section"] := by
  unfold lackingOf
  cases sectionsOf op lines with
  | nil => cases lastHeader? op lines <;> rfl
  | cons first rest => rfl

theorem ofSections_eq (sections : PerOperation Section)
    (held : ∀ op, sections.get op = sectionOf op lines) :
    ofSections sections =
      match (sectionsOf .write lines).head?, (sectionsOf .read lines).head? with
      | some (writeHeader, writeRow), some (readHeader, readRow) =>
        if isFailed writeRow then .error (.failedRun .write)
        else if isFailed readRow then .error (.failedRun .read)
        else .ok { read := metrics readHeader readRow, write := metrics writeHeader writeRow }
      | _, _ => .error (.malformed (lackingOf .write lines ++ lackingOf .read lines)) := by
  have write : sections.write = sectionOf .write lines := held .write
  have read : sections.read = sectionOf .read lines := held .read
  rw [← toList_missingPart?, ← toList_missingPart?, ofSections, write, read]
  cases first : sectionsOf .write lines with
  | nil =>
    rw [sectionOf_of_incomplete first]
    cases lastHeader? .write lines <;> rfl
  | cons whole rest =>
    obtain ⟨header, row⟩ := whole
    rw [sectionOf_of_complete first]
    cases second : sectionsOf .read lines with
    | nil =>
      rw [sectionOf_of_incomplete second]
      cases lastHeader? .read lines <;> rfl
    | cons whole rest =>
      obtain ⟨header, row⟩ := whole
      rw [sectionOf_of_complete second]
      rfl

theorem parse_eq (text : List Char) :
    parse text =
      match (sectionsOf .write (Text.contentLines text)).head?,
          (sectionsOf .read (Text.contentLines text)).head? with
      | some (writeHeader, writeRow), some (readHeader, readRow) =>
        if isFailed writeRow then .error (.failedRun .write)
        else if isFailed readRow then .error (.failedRun .read)
        else .ok { read := metrics readHeader readRow, write := metrics writeHeader writeRow }
      | _, _ => .error (.malformed (lackingOf .write (Text.contentLines text) ++
          lackingOf .read (Text.contentLines text))) := by
  have read : parse text = _ :=
    ofSections_eq _ fun op => Reader.hasRead_start.read (text.splitOn '\n') op
  rw [List.nil_append, ← Text.contentLines.eq_1] at read
  exact read

theorem isFailed_iff {row : List Char} :
    isFailed row = true ↔ (Text.commaFields row)[1]? = some "FAILED".toList := by
  rw [isFailed, beq_iff_eq]

theorem get_of_parse {text : List Char} {record : RunRecord} (parsed : parse text = .ok record)
    {op : Operation} {header row : List Char}
    (first : (sectionsOf op (Text.contentLines text)).head? = some (header, row)) :
    record.get op = metrics header row := by
  rw [parse_eq] at parsed
  split at parsed
  · rename_i writeHeader writeRow readHeader readRow writes reads
    split at parsed
    · cases parsed
    · split at parsed
      · cases parsed
      · cases parsed
        cases op with
        | read =>
          obtain ⟨rfl, rfl⟩ := Prod.mk.inj (Option.some.inj (reads.symm.trans first))
          rfl
        | write =>
          obtain ⟨rfl, rfl⟩ := Prod.mk.inj (Option.some.inj (writes.symm.trans first))
          rfl
  · cases parsed

theorem findSome?_range_eq_some_iff {α : Type} {f : Nat → Option α} {count : Nat} {value : α} :
    (List.range count).findSome? f = some value ↔
      ∃ i < count, f i = some value ∧ ∀ j < i, f j = none := by
  induction count with
  | zero => simp
  | succ count ih =>
    rw [List.range_succ, List.findSome?_append, Option.or_eq_some_iff, ih,
      List.findSome?_eq_none_iff]
    constructor
    · rintro (⟨i, less, found, before⟩ | ⟨before, found⟩)
      · exact ⟨i, by omega, found, before⟩
      · refine ⟨count, by omega, by simpa using found, fun j less => ?_⟩
        exact before j (List.mem_range.mpr less)
    · rintro ⟨i, less, found, before⟩
      by_cases last : i = count
      · subst last
        refine Or.inr ⟨fun j member => before j (List.mem_range.mp member), ?_⟩
        simpa using found
      · exact Or.inl ⟨i, by omega, found, before⟩

theorem head?_sectionsOf_eq_some_iff {header row : List Char} :
    (sectionsOf op lines).head? = some (header, row) ↔
      ∃ i, sectionAt? op lines i = some (header, row) ∧ ∀ j < i, sectionAt? op lines j = none := by
  rw [sectionsOf, List.head?_filterMap, findSome?_range_eq_some_iff]
  constructor
  · intro given
    obtain ⟨i, _, found⟩ := given
    exact ⟨i, found⟩
  · intro given
    obtain ⟨i, found, before⟩ := given
    refine ⟨i, ?_, found, before⟩
    have long : ¬ lines.length ≤ i + 2 := by
      intro short
      rw [sectionAt?_eq_none short] at found
      cases found
    omega

/-- A report is read as the first complete sections of its lines say, blank lines and blanks at the
ends of lines aside; without one for each operation it is known what is missing. -/
theorem parse_eq_sections (text : List Char) :
    let lines := Text.contentLines text
    let texts := fun line : List Char => (Text.commaFields line).map String.ofList
    (∀ other, Text.contentLines other = lines → parse other = parse text) ∧
    (∀ op line, banner? line = some op ↔ ∃ title ∈ titles op, ∃ colons,
      (Text.words line).head? = some (title ++ List.replicate colons ':')) ∧
    (∀ op header row, (sectionsOf op lines).head? = some (header, row) ↔
      ∃ i, sectionAt? op lines i = some (header, row) ∧ ∀ j < i, sectionAt? op lines j = none) ∧
    (parse text =
      match (sectionsOf .write lines).head?, (sectionsOf .read lines).head? with
      | some (writeHeader, writeRow), some (readHeader, readRow) =>
        if (Text.commaFields writeRow)[1]? = some "FAILED".toList then .error (.failedRun .write)
        else if (Text.commaFields readRow)[1]? = some "FAILED".toList then
          .error (.failedRun .read)
        else .ok { read := .zip (texts readHeader) (texts readRow) numericColumns
                   write := .zip (texts writeHeader) (texts writeRow) numericColumns }
      | _, _ => .error (.malformed (lackingOf .write lines ++ lackingOf .read lines))) ∧
    (∀ record op header row, parse text = .ok record →
      (sectionsOf op lines).head? = some (header, row) →
        ∀ name metric, (record.get op).get? name = some metric ↔
          ∃ i field, Metrics.IsLastColumn (texts header) (texts row) name i ∧
            (texts row)[i]? = some field ∧ metric.Shows numericColumns name field) ∧
    ∀ op, (lackingOf op lines).map ReportPart.text =
      if (sectionsOf op lines).head?.isSome then []
      else if (lastHeader? op lines).isSome then [op.name ++ " row"]
      else [op.name ++ " section"] := by
  intro lines texts
  have read := parse_eq text
  simp only [isFailed_iff] at read
  refine ⟨?_, fun op line => banner?_eq_some_iff, fun op header row => head?_sectionsOf_eq_some_iff,
    read, ?_, texts_lackingOf⟩
  · intro other same
    rw [parse_eq other, same, parse_eq text]
  · intro record op header row parsed first name metric
    rw [get_of_parse parsed first]
    exact Metrics.get?_zip_eq_some_iff

end

end Campaign.Lsm
