import Campaign.Proofs.ShortestText

namespace Campaign

namespace Json

def marked : Char → Char
  | 'b' => '\x08'
  | 'f' => '\x0c'
  | 'n' => '\n'
  | 'r' => '\r'
  | 't' => '\t'
  | mark => mark

theorem escaped_cases (c : Char) :
    (escaped c = [c] ∧ c ≠ '"' ∧ c ≠ '\\') ∨
      (∃ mark, escaped c = ['\\', mark] ∧ mark ≠ 'u' ∧ marked mark = c) ∨
      (c.toNat < 0x20 ∧ escaped c =
        ['\\', 'u', '0', '0', (c.toNat / 16).digitChar, (c.toNat % 16).digitChar]) := by
  unfold escaped
  split
  case h_8 noQuote noSlash _ _ _ _ _ =>
    split
    · rename_i control
      exact Or.inr (Or.inr ⟨control, rfl⟩)
    · exact Or.inl ⟨rfl, noQuote, noSlash⟩
  all_goals exact Or.inr (Or.inl ⟨_, rfl, by decide, rfl⟩)

theorem digitChar_inj {m n : Nat} (small : m < 16) (otherSmall : n < 16)
    (same : m.digitChar = n.digitChar) : m = n := by
  have all : ∀ i j : Fin 16, (i : Nat).digitChar = (j : Nat).digitChar → i = j := by decide
  exact congrArg Fin.val (all ⟨m, small⟩ ⟨n, otherSmall⟩ same)

theorem escaped_cancel {c d : Char} {u v : List Char} (same : escaped c ++ u = escaped d ++ v) :
    c = d ∧ u = v := by
  rcases escaped_cases c with ⟨c_eq, _, noSlash⟩ | ⟨mark, c_eq, noNumber, isMark⟩ | ⟨low, c_eq⟩ <;>
    rcases escaped_cases d with
      ⟨d_eq, _, otherNoSlash⟩ | ⟨other, d_eq, otherNoNumber, otherIsMark⟩ | ⟨otherLow, d_eq⟩ <;>
    rw [c_eq, d_eq] at same <;> simp only [List.cons_append, List.nil_append, List.cons.injEq] at same
  · exact same
  · exact absurd same.1 noSlash
  · exact absurd same.1 noSlash
  · exact absurd same.1.symm otherNoSlash
  · obtain ⟨_, marks, rest⟩ := same
    rw [← isMark, ← otherIsMark, marks]
    exact ⟨rfl, rest⟩
  · exact absurd same.2.1 noNumber
  · exact absurd same.1.symm otherNoSlash
  · exact absurd same.2.1.symm otherNoNumber
  · obtain ⟨_, _, _, _, high, low, rest⟩ := same
    have highs := digitChar_inj (by omega) (by omega) high
    have lows := digitChar_inj (by omega) (by omega) low
    exact ⟨Char.toNat_inj.mp (by omega), rest⟩

theorem quote_ne_escaped (c : Char) (u v : List Char) : '"' :: u ≠ escaped c ++ v := by
  intro same
  rcases escaped_cases c with ⟨c_eq, noQuote, _⟩ | ⟨mark, c_eq, _⟩ | ⟨_, c_eq⟩ <;>
    rw [c_eq] at same <;> simp only [List.cons_append, List.cons.injEq] at same
  · exact noQuote same.1.symm
  · exact absurd same.1 (by decide)
  · exact absurd same.1 (by decide)

theorem flatMap_escaped_cancel {s t u v : List Char}
    (same : s.flatMap escaped ++ '"' :: u = t.flatMap escaped ++ '"' :: v) : s = t ∧ u = v := by
  induction s generalizing t with
  | nil =>
    cases t with
    | nil => exact ⟨rfl, List.tail_eq_of_cons_eq same⟩
    | cons d t =>
      rw [List.flatMap_cons, List.append_assoc] at same
      exact absurd same (quote_ne_escaped d u _)
  | cons c s ih =>
    cases t with
    | nil =>
      rw [List.flatMap_cons, List.append_assoc] at same
      exact absurd same.symm (quote_ne_escaped c v _)
    | cons d t =>
      rw [List.flatMap_cons, List.flatMap_cons, List.append_assoc, List.append_assoc] at same
      obtain ⟨rfl, rest⟩ := escaped_cancel same
      obtain ⟨rfl, after⟩ := ih rest
      exact ⟨rfl, after⟩

theorem string_append (text : String) (u : List Char) :
    string text ++ u = '"' :: (text.toList.flatMap escaped ++ '"' :: u) := by
  simp [string]

theorem string_cancel {left right : String} {u v : List Char}
    (same : string left ++ u = string right ++ v) : left = right ∧ u = v := by
  rw [string_append, string_append] at same
  obtain ⟨texts, rest⟩ := flatMap_escaped_cancel (List.tail_eq_of_cons_eq same)
  exact ⟨String.toList_injective texts, rest⟩

def isBare (c : Char) : Bool := c != '"' && c != ',' && c != '\x7b' && c != '\x7d'

def Ends (rest : List Char) : Prop := ∀ c ∈ rest.head?, c = ',' ∨ c = '\x7d'

inductive IsValue : List Char → Prop
  | string (text : String) : IsValue (string text)
  | bare {text : List Char} (given : text ≠ []) (plain : ∀ c ∈ text, isBare c = true) :
      IsValue text
  | object {fields : List (String × List Char)} (values : ∀ field ∈ fields, IsValue field.2) :
      IsValue (object fields)

theorem bare_cancel {s t u v : List Char} (plain : ∀ c ∈ s, isBare c = true)
    (otherPlain : ∀ c ∈ t, isBare c = true) (ends : Ends u) (otherEnds : Ends v)
    (same : s ++ u = t ++ v) : s = t ∧ u = v := by
  have cut : ∀ {text rest : List Char}, (∀ c ∈ text, isBare c = true) → Ends rest →
      (text ++ rest).takeWhile isBare = text := by
    intro text rest plain ends
    rw [List.takeWhile_append_of_pos plain]
    cases rest with
    | nil => simp
    | cons c rest =>
      have stops : isBare c = false := by
        rcases ends c rfl with rfl | rfl <;> rfl
      simp [stops]
  have texts : s = t := by
    rw [← cut plain ends, same, cut otherPlain otherEnds]
  subst texts
  exact ⟨rfl, List.append_cancel_left same⟩

def fieldText (field : String × List Char) : List Char := string field.1 ++ ':' :: field.2

theorem object_nil_append (u : List Char) : object [] ++ u = '\x7b' :: '\x7d' :: u := rfl

theorem object_cons_append (field : String × List Char) (rest : List (String × List Char))
    (u : List Char) :
    object (field :: rest) ++ u =
      '\x7b' :: (fieldText field ++ (rest.flatMap (',' :: fieldText ·) ++ '\x7d' :: u)) := by
  have joined : ∀ (first : List Char) (others : List (String × List Char)),
      List.intercalate [','] (first :: others.map fieldText) =
        first ++ others.flatMap (',' :: fieldText ·) := by
    intro first others
    induction others generalizing first with
    | nil => simp
    | cons second others ih =>
      rw [List.map_cons, List.intercalate_cons_cons, ih]
      simp
  have text : object (field :: rest) =
      '\x7b' :: List.intercalate [','] (fieldText field :: rest.map fieldText) ++ ['\x7d'] := rfl
  rw [text, joined]
  simp

theorem ends_fields (fields : List (String × List Char)) (u : List Char) :
    Ends (fields.flatMap (',' :: fieldText ·) ++ '\x7d' :: u) := by
  cases fields with
  | nil =>
    intro c first
    cases first
    exact Or.inr rfl
  | cons field rest =>
    intro c first
    cases first
    exact Or.inl rfl

/-- A value that can be told from all others, whatever follows the two. -/
def Cancels (s : List Char) : Prop :=
  ∀ {t u v : List Char}, IsValue t → Ends u → Ends v → s ++ u = t ++ v → s = t ∧ u = v

theorem fieldText_cancel {field other : String × List Char} {u v : List Char}
    (cancels : Cancels field.2) (value : IsValue other.2) (ends : Ends u) (otherEnds : Ends v)
    (same : fieldText field ++ u = fieldText other ++ v) : field = other ∧ u = v := by
  unfold fieldText at same
  rw [List.append_assoc, List.append_assoc] at same
  obtain ⟨keys, rest⟩ := string_cancel same
  obtain ⟨values, after⟩ := cancels value ends otherEnds (List.tail_eq_of_cons_eq rest)
  exact ⟨Prod.ext keys values, after⟩

/-- The induction is on the fields; after each of them a comma or the end of the object follows. -/
theorem fields_cancel {left right : List (String × List Char)} {u v : List Char}
    (cancel : ∀ field ∈ left, Cancels field.2) (values : ∀ field ∈ right, IsValue field.2)
    (same : left.flatMap (',' :: fieldText ·) ++ '\x7d' :: u =
      right.flatMap (',' :: fieldText ·) ++ '\x7d' :: v) : left = right ∧ u = v := by
  induction left generalizing right with
  | nil =>
    cases right with
    | nil => exact ⟨rfl, List.tail_eq_of_cons_eq same⟩
    | cons other others => exact absurd (List.head_eq_of_cons_eq same) (by decide)
  | cons field rest ih =>
    cases right with
    | nil => exact absurd (List.head_eq_of_cons_eq same) (by decide)
    | cons other others =>
      rw [List.flatMap_cons, List.flatMap_cons, List.append_assoc, List.append_assoc] at same
      obtain ⟨rfl, after⟩ := fieldText_cancel (cancel field List.mem_cons_self)
        (values other List.mem_cons_self) (ends_fields rest u) (ends_fields others v)
        (List.tail_eq_of_cons_eq same)
      obtain ⟨rfl, last⟩ := ih (fun field member => cancel field (List.mem_cons_of_mem _ member))
        (fun field member => values field (List.mem_cons_of_mem _ member)) after
      exact ⟨rfl, last⟩

theorem object_cancel {left right : List (String × List Char)} {u v : List Char}
    (cancel : ∀ field ∈ left, Cancels field.2) (values : ∀ field ∈ right, IsValue field.2)
    (same : object left ++ u = object right ++ v) : left = right ∧ u = v := by
  cases left with
  | nil =>
    cases right with
    | nil => exact ⟨rfl, List.append_cancel_left same⟩
    | cons other others =>
      rw [object_nil_append, object_cons_append] at same
      exact absurd (List.head_eq_of_cons_eq (List.tail_eq_of_cons_eq same)) (by decide)
  | cons field rest =>
    cases right with
    | nil =>
      rw [object_nil_append, object_cons_append] at same
      exact absurd (List.head_eq_of_cons_eq (List.tail_eq_of_cons_eq same)) (by decide)
    | cons other others =>
      rw [object_cons_append, object_cons_append] at same
      obtain ⟨rfl, after⟩ := fieldText_cancel (cancel field List.mem_cons_self)
        (values other List.mem_cons_self) (ends_fields rest u) (ends_fields others v)
        (List.tail_eq_of_cons_eq same)
      obtain ⟨rfl, last⟩ := fields_cancel
        (fun field member => cancel field (List.mem_cons_of_mem _ member))
        (fun field member => values field (List.mem_cons_of_mem _ member)) after
      exact ⟨rfl, last⟩

/-- The first character tells strings, objects and all other values apart. -/
theorem IsValue.cancels {s : List Char} (value : IsValue s) : Cancels s := by
  have apart : ∀ {c : Char} {text u v : List Char}, text ≠ [] → (∀ c ∈ text, isBare c = true) →
      isBare c = false → text ++ u ≠ c :: v := by
    intro c text u v given plain special same
    obtain ⟨first, rest, rfl⟩ := List.exists_cons_of_ne_nil given
    have bare := plain first List.mem_cons_self
    rw [List.head_eq_of_cons_eq same, special] at bare
    cases bare
  induction value with
  | string text =>
    intro t u v other ends otherEnds same
    cases other with
    | string otherText =>
      obtain ⟨rfl, rest⟩ := string_cancel same
      exact ⟨rfl, rest⟩
    | bare given plain => exact absurd same.symm (apart given plain rfl)
    | object values => exact absurd (List.head_eq_of_cons_eq same) (by decide)
  | bare given plain =>
    intro t u v other ends otherEnds same
    cases other with
    | string otherText => exact absurd same (apart given plain rfl)
    | bare otherGiven otherPlain => exact bare_cancel plain otherPlain ends otherEnds same
    | object values => exact absurd same (apart given plain rfl)
  | object values ih =>
    intro t u v other ends otherEnds same
    cases other with
    | string otherText => exact absurd (List.head_eq_of_cons_eq same) (by decide)
    | bare given plain => exact absurd same.symm (apart given plain rfl)
    | object otherValues =>
      obtain ⟨rfl, rest⟩ := object_cancel ih otherValues same
      exact ⟨rfl, rest⟩

/-- The text of an object gives its fields, with their names, values and order. -/
theorem object_injective {left right : List (String × List Char)}
    (values : ∀ field ∈ left, IsValue field.2) (otherValues : ∀ field ∈ right, IsValue field.2)
    (same : object left = object right) : left = right := by
  have texts : object left ++ [] = object right ++ [] := congrArg (· ++ []) same
  exact (object_cancel (fun field member => (values field member).cancels) otherValues texts).1

theorem string_injective {left right : String} (same : string left = string right) :
    left = right :=
  (string_cancel (congrArg (· ++ []) same)).1

theorem count_injective {m n : Nat} (same : count m = count n) : m = n := by
  rw [← Text.digitsValue_digits m, ← Text.digitsValue_digits n]
  exact congrArg Text.digitsValue same

theorem isBare_of_isDigit {c : Char} (digit : c.isDigit = true) : isBare c = true := by
  have apart : ∀ other : Char, other.isDigit = false → c ≠ other := by
    intro other noDigit same
    rw [same, noDigit] at digit
    cases digit
  simp [isBare, apart '"' rfl, apart ',' rfl, apart '\x7b' rfl, apart '\x7d' rfl]

theorem isBare_decimal {digits : List Char} (isDigit : ∀ c ∈ digits, c.isDigit = true)
    (exponent : Int) : ∀ c ∈ decimal digits exponent, isBare c = true := by
  have bare : ∀ c ∈ digits, isBare c = true := fun c member => isBare_of_isDigit (isDigit c member)
  have zeros : ∀ k, ∀ c ∈ List.replicate k '0', isBare c = true := by
    intro k c member
    rw [List.eq_of_mem_replicate member]
    rfl
  have taken : ∀ k, ∀ c ∈ digits.take k, isBare c = true := fun k c member =>
    bare c (List.mem_of_mem_take member)
  have dropped : ∀ k, ∀ c ∈ digits.drop k, isBare c = true := fun k c member =>
    bare c (List.mem_of_mem_drop member)
  have power : ∀ c ∈ Text.digits exponent.natAbs, isBare c = true := fun c member =>
    isBare_of_isDigit (Text.isDigit_of_mem_digits member)
  unfold decimal
  dsimp only
  split
  · refine List.forall_mem_append.mpr ⟨List.forall_mem_append.mpr ⟨taken 1, ?_⟩, ?_⟩
    · split
      · exact nofun
      · exact List.forall_mem_cons.mpr ⟨rfl, dropped 1⟩
    · refine List.forall_mem_cons.mpr ⟨rfl, List.forall_mem_cons.mpr ⟨?_, power⟩⟩
      split <;> rfl
  · split
    · refine List.forall_mem_append.mpr ⟨?_, bare⟩
      exact List.forall_mem_cons.mpr ⟨rfl, List.forall_mem_cons.mpr ⟨rfl, zeros _⟩⟩
    · split
      · refine List.forall_mem_append.mpr ⟨List.forall_mem_append.mpr ⟨bare, zeros _⟩, ?_⟩
        exact List.all_eq_true.mp rfl
      · exact List.forall_mem_append.mpr ⟨taken _, List.forall_mem_cons.mpr ⟨rfl, dropped _⟩⟩

theorem isBare_magnitude (rank : Nat) : ∀ c ∈ magnitude rank, isBare c = true := by
  unfold magnitude
  split
  · exact List.all_eq_true.mp rfl
  · exact isBare_decimal (fun _ member => isDigit_of_mem_significantDigits member) _

theorem magnitude_ne_nil (rank : Nat) : magnitude rank ≠ [] := by
  intro none
  obtain ⟨read, given, _⟩ := readDecimal?_magnitude rank
  rw [none] at given
  cases given

theorem isBare_number (x : Binary64) : ∀ c ∈ number x, isBare c = true := by
  have word : ∀ c ∈ ['n', 'u', 'l', 'l'], isBare c = true := List.all_eq_true.mp rfl
  cases x with
  | nan => exact word
  | infinite negative => exact word
  | finite negative rank =>
    refine List.forall_mem_append.mpr ⟨?_, isBare_magnitude rank⟩
    cases negative <;> exact List.all_eq_true.mp rfl

theorem number_ne_nil (x : Binary64) : number x ≠ [] := by
  cases x with
  | nan => exact List.cons_ne_nil _ _
  | infinite negative => exact List.cons_ne_nil _ _
  | finite negative rank =>
    exact List.append_ne_nil_of_right_ne_nil _ (magnitude_ne_nil rank)

theorem isValue_number (x : Binary64) : IsValue (number x) :=
  .bare (number_ne_nil x) (isBare_number x)

theorem isValue_count (n : Nat) : IsValue (count n) :=
  .bare (Text.digits_ne_nil n) fun _ member => isBare_of_isDigit (Text.isDigit_of_mem_digits member)

theorem number_ne_string (x : Binary64) (text : String) : number x ≠ string text := by
  intro same
  have quote : '"' ∈ number x := by
    rw [same, string]
    exact List.mem_append_left _ List.mem_cons_self
  exact absurd (isBare_number x '"' quote) (by decide)

end Json

end Campaign
