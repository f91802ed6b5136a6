namespace Campaign

/-- The order that keys of a table need: decidable elsewhere, strict and total here. -/
class KeyOrder (κ : Type) [LT κ] : Prop where
  irrefl (a : κ) : ¬ a < a
  trans {a b c : κ} : a < b → b < c → a < c
  total (a b : κ) : a < b ∨ a = b ∨ b < a

instance : KeyOrder Nat where
  irrefl := Nat.lt_irrefl
  trans := Nat.lt_trans
  total := Nat.lt_trichotomy

instance : KeyOrder String where
  irrefl := String.lt_irrefl
  trans := String.lt_trans
  total a b := by
    by_cases less : a < b
    · exact Or.inl less
    · by_cases more : b < a
      · exact Or.inr (Or.inr more)
      · exact Or.inr (Or.inl (Std.Trichotomous.trichotomous a b less more))

def Ascending {κ α : Type} [LT κ] (pairs : List (κ × α)) : Prop :=
  pairs.Pairwise fun a b => a.1 < b.1

def insertPair {κ α : Type} [LT κ] [DecidableLT κ] [DecidableEq κ] (key : κ) (value : α) :
    List (κ × α) → List (κ × α)
  | [] => [(key, value)]
  | pair :: rest =>
    if key < pair.1 then (key, value) :: pair :: rest
    else if key = pair.1 then (key, value) :: rest
    else pair :: insertPair key value rest

section

variable {κ α : Type} [LT κ] [DecidableLT κ] [DecidableEq κ]

theorem mem_insertPair {key : κ} {value : α} {pairs : List (κ × α)} {pair : κ × α}
    (member : pair ∈ insertPair key value pairs) : pair = (key, value) ∨ pair ∈ pairs := by
  induction pairs with
  | nil => simpa [insertPair] using member
  | cons head rest ih =>
    unfold insertPair at member
    split at member
    · simpa using member
    · split at member
      · rcases List.mem_cons.mp member with same | inRest
        · exact Or.inl same
        · exact Or.inr (List.mem_cons_of_mem _ inRest)
      · rcases List.mem_cons.mp member with same | inRest
        · exact Or.inr (same ▸ List.mem_cons_self)
        · rcases ih inRest with same | inTail
          · exact Or.inl same
          · exact Or.inr (List.mem_cons_of_mem _ inTail)

theorem Ascending.insertPair [KeyOrder κ] {pairs : List (κ × α)} (ascending : Ascending pairs)
    (key : κ) (value : α) : Ascending (Campaign.insertPair key value pairs) := by
  induction pairs with
  | nil => simp [Campaign.insertPair, Ascending]
  | cons head rest ih =>
    have above : ∀ pair ∈ rest, head.1 < pair.1 := (List.pairwise_cons.mp ascending).1
    have tail : Ascending rest := List.Pairwise.of_cons ascending
    unfold Campaign.insertPair
    split
    · rename_i less
      refine List.pairwise_cons.mpr ⟨fun pair member => ?_, ascending⟩
      rcases List.mem_cons.mp member with same | inRest
      · exact same ▸ less
      · exact KeyOrder.trans less (above pair inRest)
    · split
      · rename_i same
        exact List.pairwise_cons.mpr ⟨fun pair member => same ▸ above pair member, tail⟩
      · rename_i notLess different
        have greater : head.1 < key := by
          rcases KeyOrder.total key head.1 with less | same | greater
          · exact absurd less notLess
          · exact absurd same different
          · exact greater
        refine List.pairwise_cons.mpr ⟨fun pair member => ?_, ih tail⟩
        rcases mem_insertPair member with same | inRest
        · exact same ▸ greater
        · exact above pair inRest

theorem lookup_insertPair_self (key : κ) (value : α) (pairs : List (κ × α)) :
    (insertPair key value pairs).lookup key = some value := by
  induction pairs with
  | nil => simp [insertPair]
  | cons head rest ih =>
    obtain ⟨headKey, headValue⟩ := head
    unfold insertPair
    split
    · simp
    · split
      · simp
      · rename_i different
        rw [List.lookup_cons, beq_eq_false_iff_ne.mpr different]
        exact ih

theorem lookup_insertPair_of_ne {key other : κ} (different : other ≠ key) (value : α)
    (pairs : List (κ × α)) : (insertPair key value pairs).lookup other = pairs.lookup other := by
  have apart : (other == key) = false := beq_eq_false_iff_ne.mpr different
  induction pairs with
  | nil => simp [insertPair, List.lookup_cons, apart]
  | cons head rest ih =>
    obtain ⟨headKey, headValue⟩ := head
    unfold insertPair
    split
    · simp [List.lookup_cons, apart]
    · split
      · rename_i same
        have same : key = headKey := same
        subst same
        simp [List.lookup_cons, apart]
      · simp [List.lookup_cons, ih]

end

/-- A finite map as its pairs in ascending order of key. -/
structure Table (κ α : Type) [LT κ] where
  pairs : List (κ × α)
  ascending : Ascending pairs

namespace Table

variable {κ α β : Type} [LT κ]

def empty : Table κ α where
  pairs := []
  ascending := List.Pairwise.nil

instance : EmptyCollection (Table κ α) := ⟨empty⟩

instance : Inhabited (Table κ α) := ⟨empty⟩

@[ext] theorem ext {left right : Table κ α} (same : left.pairs = right.pairs) : left = right := by
  cases left; cases right; cases same; rfl

instance [DecidableEq κ] [DecidableEq α] : DecidableEq (Table κ α) := fun left right =>
  decidable_of_iff (left.pairs = right.pairs) ⟨ext, fun same => same ▸ rfl⟩

def keys (table : Table κ α) : List κ := table.pairs.map (·.1)

def values (table : Table κ α) : List α := table.pairs.map (·.2)

def size (table : Table κ α) : Nat := table.pairs.length

def isEmpty (table : Table κ α) : Bool := table.pairs.isEmpty

def total (weight : α → Nat) (table : Table κ α) : Nat :=
  table.pairs.foldr (fun pair sum => weight pair.2 + sum) 0

variable [DecidableEq κ]

def get? (table : Table κ α) (key : κ) : Option α := table.pairs.lookup key

@[simp] theorem get?_empty (key : κ) : (empty : Table κ α).get? key = none := rfl

variable [DecidableLT κ] [KeyOrder κ]

def insert (table : Table κ α) (key : κ) (value : α) : Table κ α where
  pairs := insertPair key value table.pairs
  ascending := table.ascending.insertPair key value

def alter (table : Table κ α) (key : κ) (change : Option α → α) : Table κ α :=
  table.insert key (change (table.get? key))

def ofList (pairs : List (κ × α)) : Table κ α :=
  pairs.foldl (fun table pair => table.insert pair.1 pair.2) empty

@[simp] theorem get?_insert_self (table : Table κ α) (key : κ) (value : α) :
    (table.insert key value).get? key = some value :=
  lookup_insertPair_self key value table.pairs

theorem get?_insert_of_ne {key other : κ} (different : other ≠ key) (table : Table κ α)
    (value : α) : (table.insert key value).get? other = table.get? other :=
  lookup_insertPair_of_ne different value table.pairs

theorem get?_insert (table : Table κ α) (key other : κ) (value : α) :
    (table.insert key value).get? other = if other = key then some value else table.get? other := by
  by_cases same : other = key
  · subst same; simp
  · simp [same, get?_insert_of_ne same]

end Table

end Campaign
