import Campaign.Metrics
import Campaign.Proofs.Tables
import Mathlib.Data.Nat.Find

namespace Campaign

/-- What a text shows in a column of a name: a number in a numeric column where the text reads as
one, and else the text as it stands. -/
def Metric.Shows (numeric : List String) (name text : String) : Metric → Prop
  | .number value => name ∈ numeric ∧ Binary64.ofText? text.toList = some value
  | .text shown => shown = text ∧ ¬ (name ∈ numeric ∧ (Binary64.ofText? text.toList).isSome)

theorem Metric.shows_iff {numeric : List String} {name text : String} {metric : Metric} :
    metric.Shows numeric name text ↔ metric = Metric.ofText (numeric.contains name) text := by
  unfold Shows ofText
  by_cases known : name ∈ numeric
  · cases read : Binary64.ofText? text.toList with
    | none => cases metric <;> simp [known]
    | some value => cases metric <;> simp [known, eq_comm]
  · cases metric <;> simp [known]

namespace Metrics

def width (header values : List String) : Nat := min header.length values.length

/-- The last column of a name, of those that have a text. -/
def IsLastColumn (header values : List String) (name : String) (i : Nat) : Prop :=
  i < width header values ∧ header[i]? = some name ∧
    ∀ j, i < j → j < width header values → header[j]? ≠ some name

variable {header values numeric : List String} {name : String} {metric : Metric}

theorem lt_width_iff {i : Nat} :
    i < width header values ↔ i < header.length ∧ i < values.length := by
  rw [width, Nat.lt_min]

theorem getElem?_columns {i : Nat} :
    ((header.zip values).map fun (name, text) =>
        (name, Metric.ofText (numeric.contains name) text))[i]? = some (name, metric) ↔
      header[i]? = some name ∧ ∃ text, values[i]? = some text ∧ metric.Shows numeric name text := by
  rw [List.getElem?_map, Option.map_eq_some_iff]
  constructor
  · intro found
    obtain ⟨⟨_, text⟩, there, same⟩ := found
    obtain ⟨named, shown⟩ := List.getElem?_zip_eq_some.mp there
    cases same
    exact ⟨named, text, shown, Metric.shows_iff.mpr rfl⟩
  · intro found
    obtain ⟨named, text, shown, shows⟩ := found
    refine ⟨(name, text), List.getElem?_zip_eq_some.mpr ⟨named, shown⟩, ?_⟩
    exact congrArg (name, ·) (Metric.shows_iff.mp shows).symm

theorem get?_zip_eq_some_iff :
    (zip header values numeric).get? name = some metric ↔
      ∃ i text, IsLastColumn header values name i ∧ values[i]? = some text ∧
        metric.Shows numeric name text := by
  rw [zip, Table.get?_ofList_eq_some_iff]
  constructor
  · intro found
    obtain ⟨i, here, last⟩ := found
    obtain ⟨named, text, shown, shows⟩ := getElem?_columns.mp here
    have within := (List.getElem?_eq_some_iff.mp named).1
    have filled := (List.getElem?_eq_some_iff.mp shown).1
    refine ⟨i, text, ⟨lt_width_iff.mpr ⟨within, filled⟩, named, ?_⟩, shown, shows⟩
    intro j later inside again
    have there := List.getElem?_eq_getElem (lt_width_iff.mp inside).2
    exact last j later _ (getElem?_columns.mpr ⟨again, _, there, Metric.shows_iff.mpr rfl⟩)
  · intro found
    obtain ⟨i, text, ⟨_, named, last⟩, shown, shows⟩ := found
    refine ⟨i, getElem?_columns.mpr ⟨named, text, shown, shows⟩, ?_⟩
    intro j later other there
    obtain ⟨again, _, beside, _⟩ := getElem?_columns.mp there
    have within := (List.getElem?_eq_some_iff.mp again).1
    have filled := (List.getElem?_eq_some_iff.mp beside).1
    exact last j later (lt_width_iff.mpr ⟨within, filled⟩) again

theorem exists_isLastColumn {i : Nat} (within : i < width header values)
    (named : header[i]? = some name) : ∃ last, IsLastColumn header values name last := by
  let Named : Nat → Prop := fun j => j < width header values ∧ header[j]? = some name
  have spec : Named (Nat.findGreatest Named (width header values)) :=
    Nat.findGreatest_spec (Nat.le_of_lt within) ⟨within, named⟩
  refine ⟨_, spec.1, spec.2, fun j later inside again => ?_⟩
  exact Nat.findGreatest_is_greatest later (Nat.le_of_lt inside) ⟨inside, again⟩

theorem isLastColumn_of_nodup (once : header.Nodup) {i : Nat} (within : i < width header values)
    (named : header[i]? = some name) : IsLastColumn header values name i := by
  refine ⟨within, named, fun j later _ again => ?_⟩
  have same := (List.getElem?_inj (lt_width_iff.mp within).1 once).mp (named.trans again.symm)
  omega

theorem mem_keys_zip_iff :
    name ∈ (zip header values numeric).keys ↔
      ∃ i < width header values, header[i]? = some name := by
  rw [Table.mem_keys_iff]
  constructor
  · intro found
    obtain ⟨metric, found⟩ := found
    obtain ⟨i, _, ⟨within, named, _⟩, _⟩ := get?_zip_eq_some_iff.mp found
    exact ⟨i, within, named⟩
  · intro found
    obtain ⟨i, within, named⟩ := found
    obtain ⟨last, column⟩ := exists_isLastColumn within named
    have shown := List.getElem?_eq_getElem (lt_width_iff.mp column.1).2
    exact ⟨_, get?_zip_eq_some_iff.mpr ⟨last, _, column, shown, Metric.shows_iff.mpr rfl⟩⟩

theorem get?_zip_concat {text : String} (even : header.length = values.length) :
    (zip (header ++ [name]) (values ++ [text]) numeric).get? name = some metric ↔
      metric.Shows numeric name text := by
  rw [zip, List.zip_append even, List.map_append, List.zip_cons_cons, List.zip_nil_left,
    List.map_singleton, Table.get?_ofList_concat, if_pos rfl, Metric.shows_iff, Option.some.injEq,
    eq_comm]

theorem zip_append_of_even (more : List String) (even : header.length = values.length) :
    zip (header ++ more) values numeric = zip header values numeric ∧
      zip header (values ++ more) numeric = zip header values numeric := by
  have names : (header ++ more).zip (values ++ []) = header.zip values ++ more.zip [] :=
    List.zip_append even
  have texts : (header ++ []).zip (values ++ more) = header.zip values ++ [].zip more :=
    List.zip_append even
  rw [List.append_nil, List.zip_nil_right, List.append_nil] at names
  rw [List.append_nil, List.zip_nil_left, List.append_nil] at texts
  unfold zip
  rw [names, texts]
  exact ⟨rfl, rfl⟩

theorem zip_take :
    zip (header.take (width header values)) (values.take (width header values)) numeric =
      zip header values numeric := by
  rw [zip, width, ← List.zip_eq_zip_take_min]
  rfl

/-- Column names and texts are paired by position: the keys are the names of the columns that have a
text, and of several columns with one name the last decides, whether it shows a number or a text and
whatever the others show. What stands beyond the shorter of the two lists counts for nothing. -/
theorem zip_takesLast (header values numeric : List String) :
    (∀ name, name ∈ (zip header values numeric).keys ↔
      ∃ i < width header values, header[i]? = some name) ∧
    (∀ name metric, (zip header values numeric).get? name = some metric ↔
      ∃ i text, IsLastColumn header values name i ∧ values[i]? = some text ∧
        metric.Shows numeric name text) ∧
    (∀ name text metric,
      (zip (header.take (width header values) ++ [name])
        (values.take (width header values) ++ [text]) numeric).get? name = some metric ↔
          metric.Shows numeric name text) ∧
    ∀ more,
      zip (header.take (width header values) ++ more) (values.take (width header values)) numeric =
        zip header values numeric ∧
      zip (header.take (width header values)) (values.take (width header values) ++ more) numeric =
        zip header values numeric := by
  have even : (header.take (width header values)).length =
      (values.take (width header values)).length := by
    simp [width]
  refine ⟨fun name => mem_keys_zip_iff, fun name metric => get?_zip_eq_some_iff,
    fun name text metric => get?_zip_concat even, fun more => ?_⟩
  rw [(zip_append_of_even more even).1, (zip_append_of_even more even).2, zip_take]
  exact ⟨rfl, rfl⟩

end Metrics

end Campaign
