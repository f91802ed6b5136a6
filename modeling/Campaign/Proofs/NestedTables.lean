import Campaign.Proofs.Tables

namespace Campaign.Table

variable {α β γ δ : Type} [LT α] [LT β] [LT γ] [DecidableEq α] [DecidableEq β] [DecidableEq γ]

def getIn? (table : Table α (Table β (Table γ δ))) (a : α) (b : β) (c : γ) : Option δ :=
  ((table.get? a).bind fun inner => inner.get? b).bind fun last => last.get? c

def sizeIn (table : Table α (Table β (Table γ δ))) : Nat :=
  table.total fun inner => inner.total size

theorem getIn?_eq (table : Table α (Table β (Table γ δ))) (a : α) (b : β) (c : γ) :
    table.getIn? a b c = ((((table.get? a).getD .empty).get? b).getD .empty).get? c := by
  unfold getIn?
  cases outer : table.get? a with
  | none => rfl
  | some inner => cases middle : inner.get? b <;> simp [middle]

/-- No table inside is empty. -/
structure Dense (table : Table α (Table β (Table γ δ))) : Prop where
  inner : ∀ a inner, table.get? a = some inner → inner.isEmpty = false
  last : ∀ a inner b last, table.get? a = some inner → inner.get? b = some last →
    last.isEmpty = false

omit [DecidableEq γ] in
theorem dense_empty : Dense (empty : Table α (Table β (Table γ δ))) where
  inner _ _ found := by cases found
  last _ _ _ _ found := by cases found

section

variable [KeyOrder γ]

theorem Dense.isSome_get?_bind_iff {table : Table α (Table β (Table γ δ))} (dense : table.Dense)
    {a : α} {b : β} :
    ((table.get? a).bind fun inner => inner.get? b).isSome ↔
      ∃ c value, table.getIn? a b c = some value := by
  rw [Option.isSome_iff_exists]
  constructor
  · intro given
    obtain ⟨last, found⟩ := given
    obtain ⟨inner, outer, within⟩ := Option.bind_eq_some_iff.mp found
    obtain ⟨c, value, held⟩ := isEmpty_eq_false_iff.mp (dense.last a inner b last outer within)
    exact ⟨c, value, by rw [getIn?, found, Option.bind_some, held]⟩
  · intro given
    obtain ⟨c, value, held⟩ := given
    obtain ⟨last, found, _⟩ := Option.bind_eq_some_iff.mp held
    exact ⟨last, found⟩

variable [KeyOrder β]

theorem Dense.isSome_get?_iff {table : Table α (Table β (Table γ δ))} (dense : table.Dense)
    {a : α} : (table.get? a).isSome ↔ ∃ b c value, table.getIn? a b c = some value := by
  simp only [← dense.isSome_get?_bind_iff, Option.isSome_iff_exists]
  constructor
  · intro given
    obtain ⟨inner, found⟩ := given
    obtain ⟨b, last, within⟩ := isEmpty_eq_false_iff.mp (dense.inner a inner found)
    exact ⟨b, last, by rw [found, Option.bind_some, within]⟩
  · intro given
    obtain ⟨b, last, found⟩ := given
    obtain ⟨inner, outer, _⟩ := Option.bind_eq_some_iff.mp found
    exact ⟨inner, outer⟩

end

variable [DecidableLT α] [DecidableLT β] [DecidableLT γ] [KeyOrder α] [KeyOrder β] [KeyOrder γ]

/-- Puts a value at three keys, with new tables where there are none. -/
def insertIn (table : Table α (Table β (Table γ δ))) (a : α) (b : β) (c : γ) (value : δ) :
    Table α (Table β (Table γ δ)) :=
  table.alter a fun inner? => (inner?.getD .empty).alter b fun last? =>
    (last?.getD .empty).insert c value

theorem getIn?_insertIn (table : Table α (Table β (Table γ δ))) (a a' : α) (b b' : β) (c c' : γ)
    (value : δ) :
    (table.insertIn a b c value).getIn? a' b' c' =
      if a' = a ∧ b' = b ∧ c' = c then some value else table.getIn? a' b' c' := by
  unfold getIn? insertIn
  by_cases first : a' = a
  · subst first
    by_cases second : b' = b
    · subst second
      simp only [get?_alter, if_true, Option.bind_some, get?_insert, true_and]
      split
      · rfl
      · cases outer : table.get? a' with
        | none => rfl
        | some inner => cases middle : inner.get? b' <;> simp [middle]
    · simp only [get?_alter, if_true, Option.bind_some, second, if_false, false_and, and_false]
      cases outer : table.get? a' <;> simp
  · simp only [get?_alter, first, if_false, false_and]

theorem sizeIn_insertIn (table : Table α (Table β (Table γ δ))) (a : α) (b : β) (c : γ)
    (value : δ) :
    (table.insertIn a b c value).sizeIn =
      table.sizeIn + if (table.getIn? a b c).isSome then 0 else 1 := by
  rw [getIn?_eq]
  let addLast := fun last : Table γ δ => last.insert c value
  let addInner := fun inner : Table β (Table γ δ) => inner.alter b fun last? =>
    addLast (last?.getD .empty)
  refine total_alter_getD (total_empty size) table a addInner ?_
  refine total_alter_getD size_empty _ b addLast ?_
  exact size_insert _ c value

theorem Dense.insertIn {table : Table α (Table β (Table γ δ))} (dense : table.Dense) (a : α) (b : β)
    (c : γ) (value : δ) : (table.insertIn a b c value).Dense where
  inner a' inner found := by
    rw [Table.insertIn, get?_alter] at found
    split at found
    · cases found
      exact isEmpty_insert _ _ _
    · exact dense.inner a' inner found
  last a' inner b' last found within := by
    rw [Table.insertIn, get?_alter] at found
    split at found
    · cases found
      rw [get?_alter] at within
      split at within
      · cases within
        exact isEmpty_insert _ _ _
      · cases present : table.get? a with
        | none => simp [present] at within
        | some old => exact dense.last a old b' last present (by simpa [present] using within)
    · exact dense.last a' inner b' last found within

end Campaign.Table
