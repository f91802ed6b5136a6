import Campaign.Table
import Mathlib.Data.List.Dedup
import Mathlib.Data.List.Induction

namespace Campaign

theorem length_dedup_concat {κ : Type} [DecidableEq κ] (keys : List κ) (key : κ) :
    (keys ++ [key]).dedup.length = keys.dedup.length + if key ∈ keys then 0 else 1 := by
  rw [(List.perm_append_singleton key keys).dedup.length_eq, List.dedup_cons]
  split <;> simp

section

variable {κ α : Type} [LT κ] [KeyOrder κ]

theorem KeyOrder.ne_of_lt {a b : κ} (less : a < b) : a ≠ b := by
  intro same
  subst same
  exact KeyOrder.irrefl a less

variable [DecidableEq κ]

theorem Ascending.lookup_eq_some_iff {pairs : List (κ × α)} (ascending : Ascending pairs) {key : κ}
    {value : α} : pairs.lookup key = some value ↔ (key, value) ∈ pairs := by
  induction pairs with
  | nil => simp
  | cons head rest ih =>
    obtain ⟨headKey, headValue⟩ := head
    have above : ∀ pair ∈ rest, headKey < pair.1 := (List.pairwise_cons.mp ascending).1
    have tail := ih (List.Pairwise.of_cons ascending)
    by_cases same : key = headKey
    · subst same
      have absent : (key, value) ∉ rest := fun member => KeyOrder.irrefl key (above _ member)
      simp [absent, eq_comm]
    · have apart : (key == headKey) = false := beq_eq_false_iff_ne.mpr same
      simp only [List.lookup_cons, apart, tail, List.mem_cons, Prod.mk.injEq, same, false_and,
        false_or]

theorem Ascending.value_unique {pairs : List (κ × α)} (ascending : Ascending pairs) {key : κ}
    {left right : α} (first : (key, left) ∈ pairs) (second : (key, right) ∈ pairs) :
    left = right := by
  have found := ascending.lookup_eq_some_iff.mpr first
  rw [ascending.lookup_eq_some_iff.mpr second] at found
  exact (Option.some.inj found).symm

theorem Ascending.eq_of_lookup {left right : List (κ × α)} (leftOrder : Ascending left)
    (rightOrder : Ascending right) (same : ∀ key, left.lookup key = right.lookup key) :
    left = right := by
  have members : ∀ pair, pair ∈ left ↔ pair ∈ right := by
    intro ⟨key, value⟩
    rw [← leftOrder.lookup_eq_some_iff, same, rightOrder.lookup_eq_some_iff]
  clear same
  induction left generalizing right with
  | nil =>
    cases right with
    | nil => rfl
    | cons head rest => exact absurd ((members head).mpr List.mem_cons_self) List.not_mem_nil
  | cons first rest ih =>
    cases right with
    | nil => exact absurd ((members first).mp List.mem_cons_self) List.not_mem_nil
    | cons second others =>
      have aboveFirst := (List.pairwise_cons.mp leftOrder).1
      have aboveSecond := (List.pairwise_cons.mp rightOrder).1
      have heads : first = second := by
        rcases List.mem_cons.mp ((members first).mp List.mem_cons_self) with same | inOthers
        · exact same
        · rcases List.mem_cons.mp ((members second).mpr List.mem_cons_self) with same | inRest
          · exact same.symm
          · exact absurd (KeyOrder.trans (aboveFirst _ inRest) (aboveSecond _ inOthers))
              (KeyOrder.irrefl _)
      subst heads
      congr 1
      refine ih (List.Pairwise.of_cons leftOrder) (List.Pairwise.of_cons rightOrder) ?_
      intro pair
      have either := members pair
      simp only [List.mem_cons] at either
      constructor
      · intro inRest
        rcases either.mp (Or.inr inRest) with same | inOthers
        · exact absurd (same ▸ aboveFirst pair inRest) (KeyOrder.irrefl _)
        · exact inOthers
      · intro inOthers
        rcases either.mpr (Or.inr inOthers) with same | inRest
        · exact absurd (same ▸ aboveSecond pair inOthers) (KeyOrder.irrefl _)
        · exact inRest

variable [DecidableLT κ]

/-- A key above all others goes to the end. -/
theorem insertPair_of_above {pairs : List (κ × α)} {key : κ} (value : α)
    (above : ∀ pair ∈ pairs, pair.1 < key) :
    insertPair key value pairs = pairs ++ [(key, value)] := by
  induction pairs with
  | nil => rfl
  | cons head rest ih =>
    have greater := above head List.mem_cons_self
    have notLess : ¬ key < head.1 := fun less =>
      KeyOrder.irrefl _ (KeyOrder.trans greater less)
    have different : key ≠ head.1 := (KeyOrder.ne_of_lt greater).symm
    rw [insertPair, if_neg notLess, if_neg different,
      ih fun pair member => above pair (List.mem_cons_of_mem _ member), List.cons_append]

end

namespace Table

section

variable {κ α : Type} [LT κ] [DecidableEq κ] [KeyOrder κ]

theorem get?_eq_some_iff {table : Table κ α} {key : κ} {value : α} :
    table.get? key = some value ↔ (key, value) ∈ table.pairs :=
  table.ascending.lookup_eq_some_iff

theorem mem_keys_iff {table : Table κ α} {key : κ} :
    key ∈ table.keys ↔ ∃ value, table.get? key = some value := by
  simp only [keys, List.mem_map, Prod.exists, get?_eq_some_iff, exists_and_right, exists_eq_right]

theorem mem_values_iff {table : Table κ α} {value : α} :
    value ∈ table.values ↔ ∃ key, table.get? key = some value := by
  simp only [values, List.mem_map, Prod.exists, get?_eq_some_iff, exists_eq_right]

theorem ext_get? {left right : Table κ α} (same : ∀ key, left.get? key = right.get? key) :
    left = right :=
  ext (left.ascending.eq_of_lookup right.ascending same)

theorem isEmpty_iff {table : Table κ α} : table.isEmpty = true ↔ ∀ key, table.get? key = none := by
  constructor
  · intro given key
    have none : table.pairs = [] := List.isEmpty_iff.mp given
    simp [get?, none]
  · intro nothing
    have same : table = empty := ext_get? nothing
    rw [same]
    rfl

theorem isEmpty_eq_false_iff {table : Table κ α} :
    table.isEmpty = false ↔ ∃ key value, table.get? key = some value := by
  rw [← Bool.not_eq_true, isEmpty_iff, not_forall]
  simp only [← ne_eq, Option.ne_none_iff_exists']

variable [DecidableLT κ]

theorem isEmpty_insert (table : Table κ α) (key : κ) (value : α) :
    (table.insert key value).isEmpty = false := by
  rw [← Bool.not_eq_true, isEmpty_iff]
  intro nothing
  have absurdly := nothing key
  rw [get?_insert_self] at absurdly
  cases absurdly

theorem get?_alter (table : Table κ α) (key other : κ) (change : Option α → α) :
    (table.alter key change).get? other =
      if other = key then some (change (table.get? key)) else table.get? other :=
  get?_insert table key other _

theorem get?_ofList_concat (pairs : List (κ × α)) (last : κ × α) (key : κ) :
    (ofList (pairs ++ [last])).get? key =
      if key = last.1 then some last.2 else (ofList pairs).get? key := by
  rw [ofList, List.foldl_append, List.foldl_cons, List.foldl_nil, get?_insert]
  rfl

theorem get?_ofList_eq_some_iff {pairs : List (κ × α)} {key : κ} {value : α} :
    (ofList pairs).get? key = some value ↔
      ∃ i : Nat, pairs[i]? = some (key, value) ∧
        ∀ j > i, ∀ other, pairs[j]? ≠ some (key, other) := by
  induction pairs using List.reverseRecOn with
  | nil => simp [ofList]
  | append_singleton rest last ih =>
    obtain ⟨lastKey, lastValue⟩ := last
    have ending : (rest ++ [(lastKey, lastValue)])[rest.length]? = some (lastKey, lastValue) :=
      List.getElem?_concat_length
    have bound : ∀ (i : Nat) pair, (rest ++ [(lastKey, lastValue)])[i]? = some pair →
        i ≤ rest.length := by
      intro i pair there
      have within := (List.getElem?_eq_some_iff.mp there).1
      rw [List.length_append, List.length_singleton] at within
      omega
    rw [get?_ofList_concat]
    by_cases same : key = lastKey
    · subst same
      rw [if_pos rfl]
      constructor
      · intro found
        obtain rfl := Option.some.inj found
        refine ⟨rest.length, ending, fun j later other there => ?_⟩
        have within := bound j _ there
        omega
      · intro found
        obtain ⟨i, here, none⟩ := found
        have within := bound i _ here
        have atEnd : i = rest.length := by
          by_contra before
          exact none rest.length (by omega) lastValue ending
        subst atEnd
        rw [ending] at here
        cases here
        rfl
    · have agree : ∀ (i : Nat) other, (rest ++ [(lastKey, lastValue)])[i]? = some (key, other) ↔
          rest[i]? = some (key, other) := by
        intro i other
        rw [List.getElem?_append]
        split
        · rfl
        · rename_i beyond
          rw [List.getElem?_eq_none (Nat.le_of_not_lt beyond)]
          constructor
          · intro there
            cases List.mem_singleton.mp (List.mem_of_getElem? there)
            exact absurd rfl same
          · intro never
            cases never
      rw [if_neg same, ih]
      simp only [ne_eq, agree]

theorem pairs_foldl_insert {pairs : List (κ × α)} {table : Table κ α}
    (ascending : Ascending (table.pairs ++ pairs)) :
    (pairs.foldl (fun table pair => table.insert pair.1 pair.2) table).pairs =
      table.pairs ++ pairs := by
  induction pairs generalizing table with
  | nil => simp
  | cons head rest ih =>
    have above : ∀ pair ∈ table.pairs, pair.1 < head.1 := fun pair member =>
      (List.pairwise_append.mp ascending).2.2 pair member head List.mem_cons_self
    have step : (table.insert head.1 head.2).pairs = table.pairs ++ [head] :=
      insertPair_of_above head.2 above
    have next : Ascending ((table.insert head.1 head.2).pairs ++ rest) := by
      rw [step, List.append_assoc]
      exact ascending
    rw [List.foldl_cons, ih next, step, List.append_assoc, List.singleton_append]

theorem pairs_ofList {pairs : List (κ × α)} (ascending : Ascending pairs) :
    (ofList pairs).pairs = pairs :=
  pairs_foldl_insert ascending

end

section

variable {κ α : Type} [LT κ]

@[simp] theorem total_empty (weight : α → Nat) : (empty : Table κ α).total weight = 0 := rfl

@[simp] theorem size_empty : (empty : Table κ α).size = 0 := rfl

theorem total_one (table : Table κ α) : table.total (fun _ => 1) = table.size := by
  unfold total size
  induction table.pairs with
  | nil => rfl
  | cons head rest ih =>
    simp only [List.foldr_cons, List.length_cons] at ih ⊢
    omega

variable [DecidableEq κ] [DecidableLT κ] [KeyOrder κ]

theorem sum_insertPair (weight : α → Nat) {pairs : List (κ × α)} (ascending : Ascending pairs)
    (key : κ) (value : α) :
    (insertPair key value pairs).foldr (fun pair sum => weight pair.2 + sum) 0 +
        ((pairs.lookup key).map weight).getD 0 =
      pairs.foldr (fun pair sum => weight pair.2 + sum) 0 + weight value := by
  induction pairs with
  | nil => simp [insertPair]
  | cons head rest ih =>
    obtain ⟨headKey, headValue⟩ := head
    have above : ∀ pair ∈ rest, headKey < pair.1 := (List.pairwise_cons.mp ascending).1
    have tail := ih (List.Pairwise.of_cons ascending)
    unfold insertPair
    split
    · rename_i less
      have absent : ((headKey, headValue) :: rest).lookup key = none := by
        refine List.lookup_eq_none_iff.mpr fun pair member => bne_iff_ne.mpr ?_
        rcases List.mem_cons.mp member with rfl | inRest
        · exact KeyOrder.ne_of_lt less
        · exact KeyOrder.ne_of_lt (KeyOrder.trans less (above pair inRest))
      simp only [absent, List.foldr_cons, Option.map_none, Option.getD_none]
      omega
    · split
      · rename_i same
        have same : key = headKey := same
        subst same
        simp only [List.foldr_cons, List.lookup_cons_self, Option.map_some, Option.getD_some]
        omega
      · rename_i different
        have apart : (key == headKey) = false := beq_eq_false_iff_ne.mpr different
        simp only [List.foldr_cons, List.lookup_cons, apart]
        omega

theorem total_insert (weight : α → Nat) (table : Table κ α) (key : κ) (value : α) :
    (table.insert key value).total weight + ((table.get? key).map weight).getD 0 =
      table.total weight + weight value :=
  sum_insertPair weight table.ascending key value

theorem total_alter_getD {weight : α → Nat} {start : α} (zero : weight start = 0)
    (table : Table κ α) (key : κ) (change : α → α) {more : Nat}
    (grows : weight (change ((table.get? key).getD start)) =
      weight ((table.get? key).getD start) + more) :
    (table.alter key fun value? => change (value?.getD start)).total weight =
      table.total weight + more := by
  have sums := total_insert weight table key (change ((table.get? key).getD start))
  unfold alter
  cases found : table.get? key with
  | none =>
    simp only [found, Option.map_none, Option.getD_none, Nat.add_zero] at sums grows ⊢
    omega
  | some value =>
    simp only [found, Option.map_some, Option.getD_some] at sums grows ⊢
    omega

theorem size_insert (table : Table κ α) (key : κ) (value : α) :
    (table.insert key value).size =
      table.size + if (table.get? key).isSome then 0 else 1 := by
  have sums := total_insert (fun _ => 1) table key value
  rw [total_one, total_one] at sums
  cases found : table.get? key <;> simp [found] at sums ⊢ <;> omega

end

end Table

end Campaign
