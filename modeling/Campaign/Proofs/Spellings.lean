import Campaign.RunName
import Mathlib.Algebra.Group.Nat.Defs
import Mathlib.Data.List.Basic

namespace Campaign

/-- Digits 0 to 9, at least one, of a number below 2^32. Zeros in front are allowed. -/
structure IsCount (text : List Char) : Prop where
  given : text ≠ []
  digits : ∀ c ∈ text, c.isDigit = true
  small : Text.digitsValue text < 2 ^ 32

structure IsDigits (text : List Char) : Prop where
  given : text ≠ []
  digits : ∀ c ∈ text, Text.isScriptDigit c = true

structure IsHost (text : List Char) : Prop where
  given : text ≠ []
  letters : ∀ c ∈ text, c.isAlphanum = true

structure IsExtension (text : List Char) : Prop where
  given : text ≠ []
  words : ∀ c ∈ text, Text.isWordCharacter c = true

/-- The fields of a file name. -/
@[ext] structure Spelling where
  label : List Char
  count : List Char
  digits : List Char
  unit : Char
  year : List Char
  month : List Char
  day : List Char
  host : List Char
  rank : List Char
  extension : List Char
  sequence : List Char
  label_plain : ∀ c ∈ label, c.isAlphanum = true ∨ c = '-'
  count_isCount : IsCount count
  digits_isDigits : IsDigits digits
  unit_known : unit ∈ ['K', 'M', 'G', 'T', 'B']
  year_isDigits : IsDigits year
  month_isDigits : IsDigits month
  day_isDigits : IsDigits day
  host_isHost : IsHost host
  rank_isCount : IsCount rank
  extension_isExtension : IsExtension extension
  sequence_isCount : IsCount sequence

namespace Spelling

def stem (s : Spelling) : List Char :=
  ['o', 'u', 't'] ++ '-' :: (s.label ++ '-' :: (s.count ++ '-' :: (s.digits ++ [s.unit] ++ '-' ::
    (s.year ++ '-' :: (s.month ++ '-' :: (s.day ++ '-' :: (s.host ++ '-' :: s.rank)))))))

def text (s : Spelling) : List Char := s.stem ++ '.' :: (s.extension ++ '.' :: s.sequence)

def runName (s : Spelling) : RunName where
  label := String.ofList s.label
  stripeCount := Text.digitsValue s.count
  stripeSize := String.ofList (s.digits ++ [s.unit])
  date := String.ofList (s.year ++ '-' :: s.month ++ '-' :: s.day)
  host := String.ofList s.host
  rank := Text.digitsValue s.rank
  ext := String.ofList s.extension
  sequence := Text.digitsValue s.sequence

end Spelling

theorem Text.readDigits?_eq_some_iff {text : List Char} {n : Nat} :
    readDigits? text = some n ↔ IsCount text ∧ digitsValue text = n := by
  have limit : countLimit = 2 ^ 32 := rfl
  simp only [readDigits?, isNatural, limit, Option.ite_none_right_eq_some, Bool.and_eq_true,
    decide_eq_true_eq, Option.some.injEq, Bool.not_eq_true', List.isEmpty_eq_false_iff,
    List.all_eq_true]
  constructor
  · intro given
    obtain ⟨⟨⟨given, digits⟩, small⟩, value⟩ := given
    exact ⟨⟨given, digits, small⟩, value⟩
  · intro given
    obtain ⟨⟨given, digits, small⟩, value⟩ := given
    exact ⟨⟨⟨given, digits⟩, small⟩, value⟩

namespace RunName

section

variable {text : List Char}

theorem isLabel_iff : isLabel text = true ↔ ∀ c ∈ text, c.isAlphanum = true ∨ c = '-' := by
  simp [isLabel]

theorem isDigitRun_iff : isDigitRun text = true ↔ IsDigits text := by
  simp only [isDigitRun, Bool.and_eq_true, Bool.not_eq_true', List.isEmpty_eq_false_iff,
    List.all_eq_true]
  exact ⟨fun given => ⟨given.1, given.2⟩, fun given => ⟨given.1, given.2⟩⟩

theorem isHost_iff : isHost text = true ↔ IsHost text := by
  simp only [isHost, Bool.and_eq_true, Bool.not_eq_true', List.isEmpty_eq_false_iff,
    List.all_eq_true]
  exact ⟨fun given => ⟨given.1, given.2⟩, fun given => ⟨given.1, given.2⟩⟩

theorem isExtension_iff : isExtension text = true ↔ IsExtension text := by
  simp only [isExtension, Bool.and_eq_true, Bool.not_eq_true', List.isEmpty_eq_false_iff,
    List.all_eq_true]
  exact ⟨fun given => ⟨given.1, given.2⟩, fun given => ⟨given.1, given.2⟩⟩

theorem isSize_iff :
    isSize text = true ↔
      ∃ digits unit, text = digits ++ [unit] ∧ IsDigits digits ∧
        unit ∈ ['K', 'M', 'G', 'T', 'B'] := by
  have units : "KMGTB".toList = ['K', 'M', 'G', 'T', 'B'] := by decide
  rcases List.eq_nil_or_concat text with rfl | ⟨digits, unit, rfl⟩
  · simp [isSize]
  · rw [List.concat_eq_append, isSize, List.dropLast_concat, List.getLast?_concat, Option.any_some,
      units, Bool.and_eq_true, isDigitRun_iff, List.contains_iff_mem]
    constructor
    · intro given
      exact ⟨digits, unit, rfl, given.1, given.2⟩
    · intro given
      obtain ⟨digits', unit', same, run, known⟩ := given
      obtain ⟨rfl, last⟩ := List.append_inj' same rfl
      cases last
      exact ⟨run, known⟩

theorem ofFields?_eq_some_iff
    {label count size year month day host rank ext sequence : List Char} {runName : RunName} :
    ofFields? label count size year month day host rank ext sequence = some runName ↔
      ∃ s : Spelling, s.label = label ∧ s.count = count ∧ s.digits ++ [s.unit] = size ∧
        s.year = year ∧ s.month = month ∧ s.day = day ∧ s.host = host ∧ s.rank = rank ∧
        s.extension = ext ∧ s.sequence = sequence ∧ s.runName = runName := by
  constructor
  · intro read
    rw [ofFields?, Option.ite_none_right_eq_some] at read
    obtain ⟨plain, read⟩ := read
    simp only [Bool.and_eq_true, isLabel_iff, isSize_iff, isDigitRun_iff, isHost_iff,
      isExtension_iff] at plain
    obtain ⟨⟨⟨⟨⟨⟨labelPlain, digits, unit, rfl, isDigits, known⟩, isYear⟩, isMonth⟩, isDay⟩,
      isHost⟩, isExtension⟩ := plain
    obtain ⟨_, readCount, read⟩ := Option.bind_eq_some_iff.mp read
    obtain ⟨_, readRank, read⟩ := Option.bind_eq_some_iff.mp read
    obtain ⟨_, readSequence, read⟩ := Option.bind_eq_some_iff.mp read
    obtain ⟨isCount, rfl⟩ := Text.readDigits?_eq_some_iff.mp readCount
    obtain ⟨isRank, rfl⟩ := Text.readDigits?_eq_some_iff.mp readRank
    obtain ⟨isSequence, rfl⟩ := Text.readDigits?_eq_some_iff.mp readSequence
    cases read
    let s : Spelling :=
      { label := label, count := count, digits := digits, unit := unit, year := year,
        month := month, day := day, host := host, rank := rank, extension := ext,
        sequence := sequence, label_plain := labelPlain, count_isCount := isCount,
        digits_isDigits := isDigits, unit_known := known, year_isDigits := isYear,
        month_isDigits := isMonth, day_isDigits := isDay, host_isHost := isHost,
        rank_isCount := isRank, extension_isExtension := isExtension,
        sequence_isCount := isSequence }
    exact ⟨s, rfl, rfl, rfl, rfl, rfl, rfl, rfl, rfl, rfl, rfl, rfl⟩
  · intro given
    obtain ⟨s, rfl, rfl, rfl, rfl, rfl, rfl, rfl, rfl, rfl, rfl, rfl⟩ := given
    have plain : (isLabel s.label && isSize (s.digits ++ [s.unit]) && isDigitRun s.year &&
        isDigitRun s.month && isDigitRun s.day && isHost s.host && isExtension s.extension) =
        true := by
      simp only [Bool.and_eq_true, isLabel_iff, isSize_iff, isDigitRun_iff, isHost_iff,
        isExtension_iff]
      exact ⟨⟨⟨⟨⟨⟨s.label_plain, s.digits, s.unit, rfl, s.digits_isDigits, s.unit_known⟩,
        s.year_isDigits⟩, s.month_isDigits⟩, s.day_isDigits⟩, s.host_isHost⟩,
        s.extension_isExtension⟩
    have count := Text.readDigits?_eq_some_iff.mpr ⟨s.count_isCount, rfl⟩
    have rank := Text.readDigits?_eq_some_iff.mpr ⟨s.rank_isCount, rfl⟩
    have sequence := Text.readDigits?_eq_some_iff.mpr ⟨s.sequence_isCount, rfl⟩
    rw [ofFields?, if_pos plain, count, rank, sequence]
    rfl

end

end RunName

theorem IsCount.not_mem {text : List Char} (count : IsCount text) : '-' ∉ text ∧ '.' ∉ text :=
  ⟨fun member => absurd (count.digits _ member) (by decide),
    fun member => absurd (count.digits _ member) (by decide)⟩

theorem IsDigits.not_mem {text : List Char} (run : IsDigits text) : '-' ∉ text ∧ '.' ∉ text :=
  ⟨fun member => absurd (run.digits _ member) (by decide),
    fun member => absurd (run.digits _ member) (by decide)⟩

theorem IsHost.not_mem {text : List Char} (host : IsHost text) : '-' ∉ text ∧ '.' ∉ text :=
  ⟨fun member => absurd (host.letters _ member) (by decide),
    fun member => absurd (host.letters _ member) (by decide)⟩

theorem IsExtension.not_mem {text : List Char} (ext : IsExtension text) : '.' ∉ text :=
  fun member => absurd (ext.words _ member) (by decide +kernel)

theorem intercalate_append_cons {mark : Char} {front : List (List Char)} (given : front ≠ [])
    (piece : List Char) (rest : List (List Char)) :
    List.intercalate [mark] (front ++ piece :: rest) =
      List.intercalate [mark] front ++ mark :: List.intercalate [mark] (piece :: rest) := by
  induction front with
  | nil => exact absurd rfl given
  | cons first others ih =>
    cases others with
    | nil => simp [List.intercalate_cons_cons]
    | cons second others =>
      have tail := ih (List.cons_ne_nil _ _)
      rw [List.cons_append] at tail
      rw [List.cons_append, List.cons_append, List.intercalate_cons_cons, tail,
        List.intercalate_cons_cons]
      simp

namespace Spelling

theorem splitOn_stem (s : Spelling) :
    s.stem.splitOn '-' = (['o', 'u', 't'] :: s.label.splitOn '-') ++
      [s.count, s.digits ++ [s.unit], s.year, s.month, s.day, s.host, s.rank] := by
  have head : ['o', 'u', 't'].splitOn '-' = [['o', 'u', 't']] :=
    List.splitOn_eq_singleton (by decide)
  have size : '-' ∉ s.digits ++ [s.unit] := by
    intro member
    rcases List.mem_append.mp member with inDigits | inUnit
    · exact s.digits_isDigits.not_mem.1 inDigits
    · have known := s.unit_known
      rw [← List.mem_singleton.mp inUnit] at known
      exact absurd known (by decide)
  unfold stem
  simp only [List.splitOn_append_cons_self, head,
    List.splitOn_eq_singleton s.count_isCount.not_mem.1,
    List.splitOn_eq_singleton size, List.splitOn_eq_singleton s.year_isDigits.not_mem.1,
    List.splitOn_eq_singleton s.month_isDigits.not_mem.1,
    List.splitOn_eq_singleton s.day_isDigits.not_mem.1,
    List.splitOn_eq_singleton s.host_isHost.not_mem.1,
    List.splitOn_eq_singleton s.rank_isCount.not_mem.1]
  rfl

theorem dot_not_mem_stem (s : Spelling) : '.' ∉ s.stem := by
  have label : '.' ∉ s.label := by
    intro member
    rcases s.label_plain _ member with letter | dash
    · exact absurd letter (by decide)
    · exact absurd dash (by decide)
  have unit : '.' ≠ s.unit := by
    intro same
    have known := s.unit_known
    rw [← same] at known
    exact absurd known (by decide)
  simp [stem, label, unit, s.count_isCount.not_mem, s.digits_isDigits.not_mem,
    s.year_isDigits.not_mem, s.month_isDigits.not_mem, s.day_isDigits.not_mem,
    s.host_isHost.not_mem, s.rank_isCount.not_mem]

theorem splitOn_text (s : Spelling) : s.text.splitOn '.' = [s.stem, s.extension, s.sequence] := by
  rw [text, List.splitOn_append_cons_self, List.splitOn_append_cons_self,
    List.splitOn_eq_singleton s.dot_not_mem_stem,
    List.splitOn_eq_singleton s.extension_isExtension.not_mem,
    List.splitOn_eq_singleton s.sequence_isCount.not_mem.2]
  rfl

theorem splitOn_injective {mark : Char} {left right : List Char}
    (same : left.splitOn mark = right.splitOn mark) : left = right := by
  have joined : List.intercalate [mark] (left.splitOn mark) = left := List.intercalate_splitOn mark
  rw [← joined, same, List.intercalate_splitOn]

/-- A name has one spelling: the fields after the label hold no dash, so that they are told from the
end, whatever the label holds. -/
theorem text_injective {left right : Spelling} (same : left.text = right.text) : left = right := by
  have parts := congrArg (List.splitOn '.') same
  rw [splitOn_text, splitOn_text] at parts
  simp only [List.cons.injEq, and_true] at parts
  obtain ⟨stems, exts, sequences⟩ := parts
  have pieces := congrArg (List.splitOn '-') stems
  rw [splitOn_stem, splitOn_stem] at pieces
  obtain ⟨leads, fields⟩ := List.append_inj' pieces rfl
  have labels : left.label = right.label := splitOn_injective (List.cons.inj leads).2
  simp only [List.cons.injEq, and_true] at fields
  obtain ⟨counts, sizes, years, months, days, hosts, ranks⟩ := fields
  obtain ⟨digits, units⟩ := List.append_inj' sizes rfl
  exact Spelling.ext labels counts digits (List.cons.inj units).1 years months days hosts ranks
    exts sequences

end Spelling

namespace RunName

theorem ofText?_text (s : Spelling) : ofText? s.text = some s.runName := by
  obtain ⟨first, more, cut⟩ := List.exists_cons_of_ne_nil (List.splitOn_ne_nil '-' s.label)
  have label : List.intercalate ['-'] (first :: more) = s.label := by
    rw [← cut, List.intercalate_splitOn]
  have read := ofFields?_eq_some_iff.mpr
    ⟨s, label.symm, rfl, rfl, rfl, rfl, rfl, rfl, rfl, rfl, rfl, rfl⟩
  rw [ofText?, s.splitOn_text]
  simpa [ofParts?, s.splitOn_stem, cut] using read

theorem exists_spelling {name : List Char} {runName : RunName}
    (read : ofText? name = some runName) : ∃ s : Spelling, s.text = name ∧ s.runName = runName := by
  unfold ofText? at read
  split at read
  · rename_i stem ext sequence parts
    unfold ofParts? at read
    split at read
    · rename_i rank host day month year size count lead pieces
      split at read
      · rename_i first more front
        obtain ⟨s, label, rfl, rfl, rfl, rfl, rfl, rfl, rfl, rfl, rfl, same⟩ :=
          ofFields?_eq_some_iff.mp read
        have turned : stem.splitOn '-' = (['o', 'u', 't'] :: first :: more) ++
            [s.count, s.digits ++ [s.unit], s.year, s.month, s.day, s.host, s.rank] := by
          rw [← List.reverse_reverse (stem.splitOn '-'), pieces, ← front]
          simp
        have whole : s.stem = stem := by
          have joined : List.intercalate ['-'] (stem.splitOn '-') = stem :=
            List.intercalate_splitOn '-'
          rw [← joined, turned, intercalate_append_cons (List.cons_ne_nil _ _),
            List.intercalate_cons_cons, ← label]
          simp [Spelling.stem, List.intercalate_cons_cons]
        have joined : List.intercalate ['.'] (name.splitOn '.') = name :=
          List.intercalate_splitOn '.'
        refine ⟨s, ?_, same⟩
        rw [← joined, parts, ← whole]
        simp [Spelling.text, List.intercalate_cons_cons]
      · cases read
    · cases read
  · cases read

theorem ofText?_eq_some_iff {name : List Char} {runName : RunName} :
    ofText? name = some runName ↔ ∃ s : Spelling, s.text = name ∧ s.runName = runName := by
  constructor
  · exact exists_spelling
  · intro given
    obtain ⟨s, rfl, rfl⟩ := given
    exact ofText?_text s

/-- A name is recognized exactly if it has a spelling, as what its only spelling says; every other
name is in the error. -/
theorem recognize_spellings (name : String) :
    (∀ runName, recognize name = .ok runName ↔
      ∃ s : Spelling, s.text = name.toList ∧ s.runName = runName) ∧
    (∀ left right : Spelling, left.text = name.toList → right.text = name.toList → left = right) ∧
    ∀ error, recognize name = .error error ↔
      (∀ s : Spelling, s.text ≠ name.toList) ∧ error.name = name := by
  refine ⟨fun runName => ?_, fun left right first second => ?_, fun error => ?_⟩
  · rw [← ofText?_eq_some_iff, recognize]
    cases ofText? name.toList <;> simp
  · exact Spelling.text_injective (first.trans second.symm)
  · cases read : ofText? name.toList with
    | some runName =>
      obtain ⟨s, same, _⟩ := ofText?_eq_some_iff.mp read
      simp only [recognize, read, reduceCtorEq, false_iff, not_and]
      exact fun none _ => none s same
    | none =>
      have nothing : ∀ s : Spelling, s.text ≠ name.toList := by
        intro s same
        have found := ofText?_eq_some_iff.mpr ⟨s, same, rfl⟩
        rw [read] at found
        cases found
      obtain ⟨text⟩ := error
      simp only [recognize, read, Except.error.injEq, UnrecognizedName.mk.injEq]
      exact ⟨fun same => ⟨nothing, same.symm⟩, fun given => given.2.symm⟩

example : (recognize "out-a-4-1M-2023-07-21-n1-16-64K-2024-01-02-h2-3.txt.1").toOption.map
    (fun name => (name.label, name.stripeCount, name.host)) =
      some ("a-4-1M-2023-07-21-n1", 16, "h2") := by
  decide +kernel

end RunName

end Campaign
