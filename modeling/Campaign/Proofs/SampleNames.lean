import Campaign.Proofs.Spellings
import Campaign.SampleCampaign

namespace Campaign

theorem isCount_digits {n : Nat} (small : n < Text.countLimit) : IsCount (Text.digits n) :=
  (Text.readDigits?_eq_some_iff.mp (Text.readDigits?_digits small)).1

theorem isDigits_of_all {text : List Char} (given : text.isEmpty = false)
    (digits : text.all Char.isDigit = true) : IsDigits text := by
  refine ⟨List.isEmpty_eq_false_iff.mp given, fun c member => ?_⟩
  exact Text.isScriptDigit_of_isDigit (List.all_eq_true.mp digits c member)

namespace Sample

def runName (label : String) (cell : Cell) (rank : Nat) : RunName where
  label := label
  stripeCount := cell.stripes.count
  stripeSize := cell.size.label
  date := "2023-07-21"
  host := "node" ++ Text.decimal (100 + rank)
  rank := rank
  ext := "txt"
  sequence := 1

def sizeDigits : StripeSize → List Char
  | .k64 => ['6', '4']
  | .m1 => ['1']
  | .m8 => ['8']

def sizeUnit : StripeSize → Char
  | .k64 => 'K'
  | .m1 => 'M'
  | .m8 => 'M'

theorem toList_label (size : StripeSize) :
    size.label.toList = sizeDigits size ++ [sizeUnit size] := by
  cases size <;> decide

theorem isDigits_sizeDigits (size : StripeSize) : IsDigits (sizeDigits size) := by
  cases size <;> exact isDigits_of_all (by decide) (by decide)

theorem sizeUnit_known (size : StripeSize) : sizeUnit size ∈ ['K', 'M', 'G', 'T', 'B'] := by
  cases size <;> decide

def hostName (rank : Nat) : List Char := "node".toList ++ Text.digits (100 + rank)

theorem isHost_hostName (rank : Nat) : IsHost (hostName rank) := by
  refine ⟨by simp [hostName], fun c member => ?_⟩
  rcases List.mem_append.mp member with letter | digit
  · have letters : "node".toList.all Char.isAlphanum = true := by decide
    exact List.all_eq_true.mp letters c letter
  · rw [Char.isAlphanum, Text.isDigit_of_mem_digits digit, Bool.or_true]

theorem cell_small (cell : Cell) :
    cell.stripes.count < Text.countLimit ∧ cell.participants ≤ 48 := by
  have counts : ∀ stripes : StripeCount, stripes.count < Text.countLimit := by
    intro stripes
    cases stripes <;> decide
  have nodes : ∀ nodes : NodeCount, nodes.nodes ≤ 48 := by
    intro nodes
    cases nodes <;> decide
  exact ⟨counts cell.stripes, nodes cell.nodes⟩

section

variable {label : String} (cell : Cell) {rank : Nat}

def spelling (labelled : RunName.isLabel label.toList = true) (small : rank < Text.countLimit) :
    Spelling where
  label := label.toList
  count := Text.digits cell.stripes.count
  digits := sizeDigits cell.size
  unit := sizeUnit cell.size
  year := "2023".toList
  month := "07".toList
  day := "21".toList
  host := hostName rank
  rank := Text.digits rank
  extension := "txt".toList
  sequence := Text.digits 1
  label_plain := RunName.isLabel_iff.mp labelled
  count_isCount := isCount_digits (cell_small cell).1
  digits_isDigits := isDigits_sizeDigits cell.size
  unit_known := sizeUnit_known cell.size
  year_isDigits := isDigits_of_all (by decide) (by decide)
  month_isDigits := isDigits_of_all (by decide) (by decide)
  day_isDigits := isDigits_of_all (by decide) (by decide)
  host_isHost := isHost_hostName rank
  rank_isCount := isCount_digits small
  extension_isExtension := RunName.isExtension_iff.mp (by
    rw [String.toList_ofList]
    rfl)
  sequence_isCount := isCount_digits (by decide)

theorem text_spelling (labelled : RunName.isLabel label.toList = true)
    (small : rank < Text.countLimit) :
    (spelling cell labelled small).text = (fileName label cell rank).toList := by
  have decimals : ∀ n, (Text.decimal n).toList = Text.digits n := fun _ => String.toList_ofList
  have date : "2023-07-21".toList =
      "2023".toList ++ '-' :: ("07".toList ++ '-' :: "21".toList) := by decide
  have lead : "out-".toList = ['o', 'u', 't', '-'] := by decide
  have dash : "-".toList = ['-'] := by decide
  have dot : ".".toList = ['.'] := by decide
  unfold fileName RunName.text Spelling.text Spelling.stem spelling hostName
  dsimp only
  simp only [String.toList_append, decimals, toList_label, date, lead, dash, dot,
    List.append_assoc, List.cons_append, List.nil_append]

theorem runName_spelling (labelled : RunName.isLabel label.toList = true)
    (small : rank < Text.countLimit) :
    (spelling cell labelled small).runName = runName label cell rank := by
  have date : String.ofList ("2023".toList ++ '-' :: "07".toList ++ '-' :: "21".toList) =
      "2023-07-21" := by decide
  have host : String.ofList (hostName rank) = "node" ++ Text.decimal (100 + rank) := by
    rw [hostName, String.ofList_append, String.ofList_toList, Text.decimal]
  simp only [Spelling.runName, spelling, runName, Text.digitsValue_digits, ← toList_label,
    String.ofList_toList, date, host]

theorem recognize_fileName (labelled : RunName.isLabel label.toList = true)
    (small : rank < Text.countLimit) :
    RunName.recognize (fileName label cell rank) = .ok (runName label cell rank) := by
  have read := RunName.ofText?_text (spelling cell labelled small)
  rw [text_spelling, runName_spelling] at read
  rw [RunName.recognize, read]

theorem fileName_injective (labelled : RunName.isLabel label.toList = true) {other : Cell}
    {otherRank : Nat} (small : rank < Text.countLimit) (otherSmall : otherRank < Text.countLimit)
    (same : fileName label cell rank = fileName label other otherRank) :
    cell.stripes.count = other.stripes.count ∧ cell.size.label = other.size.label ∧
      rank = otherRank := by
  have first := recognize_fileName cell labelled small
  rw [same, recognize_fileName other labelled otherSmall] at first
  have names := Except.ok.inj first
  simp only [runName, RunName.mk.injEq] at names
  exact ⟨names.2.1.symm, names.2.2.1.symm, names.2.2.2.2.2.1.symm⟩

def nameEnd (rank : Nat) : List Char :=
  Text.digits (100 + rank) ++ '-' :: (Text.digits rank ++ ".txt.1".toList)

/-- Node numbers all have three digits, so that their texts are in the order of the numbers. -/
theorem nameEnds_ascending : ((List.range 48).map nameEnd).Pairwise (· < ·) := by decide +kernel

theorem toList_fileName (label : String) :
    ∃ front, ∀ rank, (fileName label cell rank).toList = front ++ nameEnd rank := by
  have decimals : ∀ n, (Text.decimal n).toList = Text.digits n := fun _ => String.toList_ofList
  have ends : ".txt.1".toList = ".".toList ++ ("txt".toList ++ (".".toList ++ Text.digits 1)) := by
    decide
  have dash : "-".toList = ['-'] := by decide
  refine ⟨("out-" ++ label ++ "-" ++ Text.decimal cell.stripes.count ++ "-" ++ cell.size.label ++
    "-" ++ "2023-07-21" ++ "-" ++ "node").toList, fun rank => ?_⟩
  unfold fileName RunName.text nameEnd
  dsimp only
  simp only [String.toList_append, decimals, ends, dash, List.append_assoc, List.cons_append,
    List.nil_append]

theorem fileNames_ascending (label : String) {count : Nat} (few : count ≤ 48) :
    (List.range count).Pairwise fun rank later =>
      fileName label cell rank < fileName label cell later := by
  obtain ⟨front, text⟩ := toList_fileName cell label
  have part : (List.range count).Sublist (List.range 48) := List.range_sublist.mpr few
  refine ((List.pairwise_map.mp nameEnds_ascending).sublist part).imp fun {rank later} less => ?_
  rw [String.lt_iff, text, text]
  exact List.append_left_lt less

end

end Sample

end Campaign
