import Campaign.Path

namespace Campaign

/-- A name that is one step wherever it stands in a path. -/
structure IsPlain (name : String) : Prop where
  given : name ≠ ""
  flat : '/' ∉ name.toList
  notHere : name ≠ "."
  notUp : name ≠ ".."

theorem not_mem_of_mem_splitOn {text piece : List Char} {mark : Char}
    (member : piece ∈ text.splitOn mark) : mark ∉ piece := by
  induction text generalizing piece with
  | nil => simp_all
  | cons c rest ih =>
    rw [List.splitOn_cons_eq_if_modifyHead] at member
    split at member
    · rcases List.mem_cons.mp member with rfl | inRest
      · exact List.not_mem_nil
      · exact ih inRest
    · rename_i different
      have different : c ≠ mark := by simpa using different
      cases pieces : rest.splitOn mark with
      | nil => exact absurd pieces (List.splitOn_ne_nil mark rest)
      | cons first others =>
        rw [pieces, List.modifyHead_cons] at member
        rcases List.mem_cons.mp member with rfl | inOthers
        · have absent : mark ∉ first := ih (pieces ▸ List.mem_cons_self)
          simp [absent, Ne.symm different]
        · exact ih (pieces ▸ List.mem_cons_of_mem _ inOthers)

namespace IsPlain

variable {name : String}

theorem toList_ne (plain : IsPlain name) :
    name.toList ≠ [] ∧ name.toList ≠ ['.'] ∧ name.toList ≠ ['.', '.'] := by
  refine ⟨?_, ?_, ?_⟩
  · exact fun same => plain.given (String.toList_inj.mp same)
  · exact fun same => plain.notHere (String.toList_inj.mp same)
  · exact fun same => plain.notUp (String.toList_inj.mp same)

theorem laterComponent? (plain : IsPlain name) :
    Campaign.laterComponent? name.toList = some (.name name) := by
  obtain ⟨given, notHere, notUp⟩ := plain.toList_ne
  simp [Campaign.laterComponent?, isIdlePiece, given, notHere, notUp]

theorem firstComponent? (plain : IsPlain name) (alone : Bool) :
    Campaign.firstComponent? alone name.toList = some (.name name) := by
  obtain ⟨given, notHere, notUp⟩ := plain.toList_ne
  simp [Campaign.firstComponent?, given, notHere, notUp]

theorem of_piece {piece : List Char} (given : piece ≠ []) (flat : '/' ∉ piece)
    (notHere : piece ≠ ['.']) (notUp : piece ≠ ['.', '.']) : IsPlain (String.ofList piece) := by
  refine ⟨?_, ?_, ?_, ?_⟩
  · exact fun same => given (by simpa using congrArg String.toList same)
  · simpa using flat
  · exact fun same => notHere (by simpa using congrArg String.toList same)
  · exact fun same => notUp (by simpa using congrArg String.toList same)

end IsPlain

theorem plain_of_laterComponent? {piece : List Char} {text : String} (flat : '/' ∉ piece)
    (step : laterComponent? piece = some (.name text)) : IsPlain text := by
  unfold laterComponent? at step
  split at step
  · cases step
  · rename_i idle
    simp only [isIdlePiece, Bool.or_eq_true, List.isEmpty_iff, beq_iff_eq, not_or] at idle
    split at step
    · cases step
    · rename_i notUp
      cases step
      exact IsPlain.of_piece idle.1 flat idle.2 notUp

theorem plain_of_firstComponent? {piece : List Char} {alone : Bool} {text : String}
    (flat : '/' ∉ piece) (step : firstComponent? alone piece = some (.name text)) :
    IsPlain text := by
  unfold firstComponent? at step
  split at step
  · split at step <;> cases step
  · rename_i given
    split at step
    · cases step
    · rename_i notHere
      split at step
      · cases step
      · rename_i notUp
        cases step
        exact IsPlain.of_piece (by simpa using given) flat notHere notUp

theorem firstComponent?_of_ne_nil {piece : List Char} (given : piece ≠ []) (alone other : Bool) :
    firstComponent? alone piece = firstComponent? other piece := by
  simp [firstComponent?, given]

theorem firstComponent?_ne_root {piece : List Char} (given : piece ≠ []) (alone : Bool) :
    ∃ step, firstComponent? alone piece = some step ∧ step ≠ .root := by
  simp only [firstComponent?, List.isEmpty_iff, given, if_false]
  split
  · exact ⟨_, rfl, nofun⟩
  · split <;> exact ⟨_, rfl, nofun⟩

theorem laterComponent?_ne_root (piece : List Char) : laterComponent? piece ≠ some .root := by
  unfold laterComponent?
  split
  · exact nofun
  · split <;> exact nofun

theorem filterMap_dropIdleEnd (pieces : List (List Char)) :
    (Path.dropIdleEnd pieces).filterMap laterComponent? = pieces.filterMap laterComponent? := by
  have drop : ∀ pieces : List (List Char),
      (pieces.dropWhile isIdlePiece).filterMap laterComponent? =
        pieces.filterMap laterComponent? := by
    intro pieces
    induction pieces with
    | nil => rfl
    | cons piece rest ih =>
      by_cases idle : isIdlePiece piece = true
      · simp [idle, ih, laterComponent?]
      · simp [idle]
  unfold Path.dropIdleEnd
  rw [List.filterMap_reverse, drop, List.filterMap_reverse, List.reverse_reverse]

theorem laterComponent?_getLast {pieces init : List (List Char)} {piece : List Char}
    (kept : Path.dropIdleEnd pieces = init ++ [piece]) : ∃ step, laterComponent? piece = some step := by
  have start : (pieces.reverse.dropWhile isIdlePiece) = piece :: init.reverse := by
    have turned := congrArg List.reverse kept
    simpa [Path.dropIdleEnd] using turned
  have busy : isIdlePiece piece = false := by
    have first := List.head?_dropWhile_not isIdlePiece pieces.reverse
    simpa [start] using first
  unfold laterComponent?
  rw [busy]
  simp only [Bool.false_eq_true, if_false]
  split <;> exact ⟨_, rfl⟩

namespace Path

theorem trail_ofText (text : String) :
    (ofText text).trail = trailOfPieces (text.toList.splitOn '/') := rfl

theorem trail_eq_pieces (path : Path) : path.trail = trailOfPieces path.pieces := path.trail_eq

theorem plain_of_mem_trail {path : Path} {text : String} (member : .name text ∈ path.trail) :
    IsPlain text := by
  rw [path.trail_eq] at member
  cases pieces : path.text.toList.splitOn '/' with
  | nil => exact absurd pieces (List.splitOn_ne_nil _ _)
  | cons first rest =>
    have flat : ∀ piece ∈ first :: rest, '/' ∉ piece := fun piece inPieces =>
      not_mem_of_mem_splitOn (pieces ▸ inPieces)
    rw [pieces, trailOfPieces, List.mem_append, List.mem_reverse] at member
    rcases member with later | start
    · obtain ⟨piece, inRest, step⟩ := List.mem_filterMap.mp later
      exact plain_of_laterComponent? (flat piece (List.mem_cons_of_mem _ inRest)) step
    · exact plain_of_firstComponent? (flat first List.mem_cons_self) (Option.mem_toList.mp start)

theorem fileName?_eq_some_iff {path : Path} {name : String} :
    path.fileName? = some name ↔ ∃ outer, path.trail = .name name :: outer := by
  unfold fileName?
  split
  · rename_i text outer steps
    simp [steps]
  · rename_i other
    simp only [reduceCtorEq, false_iff, not_exists]
    exact fun outer steps => other name outer steps

theorem plain_of_fileName? {path : Path} {name : String} (last : path.fileName? = some name) :
    IsPlain name := by
  obtain ⟨outer, steps⟩ := fileName?_eq_some_iff.mp last
  exact plain_of_mem_trail (steps ▸ List.mem_cons_self)

theorem trailOfPieces_concat_nil {pieces : List (List Char)} (given : pieces ≠ [])
    (notEmpty : pieces ≠ [[]]) : trailOfPieces (pieces ++ [[]]) = trailOfPieces pieces := by
  cases pieces with
  | nil => exact absurd rfl given
  | cons first rest =>
    have start : firstComponent? false first = firstComponent? rest.isEmpty first := by
      cases rest with
      | nil => exact firstComponent?_of_ne_nil (fun empty => notEmpty (by rw [empty])) _ _
      | cons _ _ => rfl
    have more : (rest ++ [[]]).isEmpty = false := by simp
    simp [trailOfPieces, laterComponent?, isIdlePiece, start, more]

theorem trailOfPieces_concat {pieces : List (List Char)} {name : String} (given : pieces ≠ [])
    (plain : IsPlain name) :
    trailOfPieces (pieces ++ [name.toList]) = .name name :: trailOfPieces (pieces ++ [[]]) := by
  cases pieces with
  | nil => exact absurd rfl given
  | cons first rest =>
    have idle : laterComponent? [] = none := rfl
    have more : ∀ piece, (rest ++ [piece]).isEmpty = false := by simp
    simp [trailOfPieces, plain.laterComponent?, idle, more]

theorem trail_join (path : Path) {name : String} (plain : IsPlain name) :
    (path.join name).trail = .name name :: path.trail := by
  have relative : name.toList.head? ≠ some '/' := fun slash =>
    plain.flat (List.mem_of_head? slash)
  have alone : name.toList.splitOn '/' = [name.toList] := List.splitOn_eq_singleton plain.flat
  unfold join
  by_cases empty : path.text.toList = []
  · have nowhere : path.trail = [] := by
      rw [path.trail_eq, empty]
      rfl
    simp [empty, nowhere, trail_ofText, alone, trailOfPieces, plain.firstComponent?]
  · have given : path.text.toList.isEmpty = false := by simpa using empty
    simp only [given, Bool.false_or, decide_eq_true_eq, relative, if_false]
    split
    · rename_i slash
      obtain ⟨start, text⟩ := List.getLast?_eq_some_iff.mp slash
      have pieces : (path.text ++ name).toList.splitOn '/' =
          start.splitOn '/' ++ [name.toList] := by
        rw [String.toList_append, text, List.append_assoc, List.singleton_append,
          List.splitOn_append_cons_self, alone]
      have outer : path.text.toList.splitOn '/' = start.splitOn '/' ++ [[]] := by
        rw [text, List.splitOn_append_cons_self, List.splitOn_nil]
      rw [trail_ofText, pieces, trailOfPieces_concat (List.splitOn_ne_nil _ _) plain,
        path.trail_eq, outer]
    · -- No slash at the end: one is put in, and the outer pieces are all of the path.
      have pieces : (path.text ++ "/" ++ name).toList.splitOn '/' =
          path.text.toList.splitOn '/' ++ [name.toList] := by
        rw [String.toList_append, String.toList_append, List.append_assoc]
        have cut := List.splitOn_append_cons_self (a := '/') path.text.toList name.toList
        rwa [alone] at cut
      have notEmpty : path.text.toList.splitOn '/' ≠ [[]] := by
        intro single
        have joined : ['/'].intercalate (path.text.toList.splitOn '/') = path.text.toList :=
          List.intercalate_splitOn '/'
        rw [single] at joined
        exact empty (by simpa using joined.symm)
      rw [trail_ofText, pieces, trailOfPieces_concat (List.splitOn_ne_nil _ _) plain,
        trailOfPieces_concat_nil (List.splitOn_ne_nil _ _) notEmpty, path.trail_eq]

/-- Only the outermost step can be the root. -/
theorem outer_of_root {path : Path} {outer : List Component}
    (steps : path.trail = .root :: outer) : outer = [] := by
  rw [path.trail_eq] at steps
  cases pieces : path.text.toList.splitOn '/' with
  | nil => exact absurd pieces (List.splitOn_ne_nil _ _)
  | cons first rest =>
    rw [pieces, trailOfPieces] at steps
    cases later : (rest.filterMap laterComponent?).reverse with
    | nil =>
      rw [later, List.nil_append] at steps
      cases start : firstComponent? rest.isEmpty first with
      | none => simp [start] at steps
      | some step => simp_all
    | cons last others =>
      have member : last ∈ rest.filterMap laterComponent? := by
        rw [← List.mem_reverse, later]
        exact List.mem_cons_self
      obtain ⟨piece, _, step⟩ := List.mem_filterMap.mp member
      rw [later, List.cons_append] at steps
      have root : last = .root := (List.cons.inj steps).1
      exact absurd (root ▸ step) (laterComponent?_ne_root piece)

theorem mem_of_mem_dropIdleEnd {pieces : List (List Char)} {piece : List Char}
    (member : piece ∈ dropIdleEnd pieces) : piece ∈ pieces := by
  rw [dropIdleEnd, List.mem_reverse] at member
  exact List.mem_reverse.mp ((List.dropWhile_suffix _).subset member)

theorem trail_textOfPieces {first : List Char} {rest : List (List Char)}
    (flat : ∀ piece ∈ first :: rest, '/' ∉ piece) :
    (ofText (textOfPieces (first :: dropIdleEnd rest))).trail =
      (rest.filterMap laterComponent?).reverse ++ (firstComponent? false first).toList := by
  rw [trail_ofText, ← filterMap_dropIdleEnd rest]
  by_cases single : first :: dropIdleEnd rest = [[]]
  · obtain ⟨rfl, idle⟩ := List.cons.inj single
    have slash : "/".toList = ['/'] := by simp
    rw [idle, textOfPieces, if_pos rfl, slash]
    rfl
  · have flatKept : ∀ piece ∈ first :: dropIdleEnd rest, '/' ∉ piece := by
      intro piece member
      rcases List.mem_cons.mp member with rfl | kept
      · exact flat piece List.mem_cons_self
      · exact flat piece (List.mem_cons_of_mem _ (mem_of_mem_dropIdleEnd kept))
    have start : firstComponent? (dropIdleEnd rest).isEmpty first =
        firstComponent? false first := by
      by_cases empty : first = []
      · have more : (dropIdleEnd rest).isEmpty = false := by
          rw [List.isEmpty_eq_false_iff]
          exact fun none => single (by rw [empty, none])
        rw [more]
      · exact firstComponent?_of_ne_nil empty _ _
    rw [textOfPieces, if_neg single, String.toList_ofList,
      List.splitOn_intercalate '/' flatKept (List.cons_ne_nil _ _), trailOfPieces, start]

theorem parent?_eq_some {path : Path} {last : Component} {outer : List Component}
    (steps : path.trail = last :: outer) (notRoot : last ≠ .root) :
    ∃ parent, path.parent? = some parent ∧ parent.trail = outer := by
  have flat : ∀ piece ∈ path.pieces, '/' ∉ piece := fun piece => not_mem_of_mem_splitOn
  rw [trail_eq_pieces] at steps
  unfold parent?
  cases pieces : path.pieces with
  | nil => exact absurd pieces (List.splitOn_ne_nil _ _)
  | cons first rest =>
    rw [pieces] at flat
    rw [pieces, trailOfPieces, ← filterMap_dropIdleEnd rest] at steps
    rcases List.eq_nil_or_concat (dropIdleEnd rest) with none | ⟨init, piece, kept⟩
    · -- A single piece that counts: the parent is the empty path.
      rw [none, List.filterMap_nil, List.reverse_nil, List.nil_append] at steps
      have given : first ≠ [] := by
        intro empty
        rw [empty] at steps
        cases rest with
        | nil => exact absurd steps.symm (List.cons_ne_nil _ _)
        | cons _ _ => exact notRoot (List.cons.inj steps).1.symm
      refine ⟨ofText "", by simp [none, given], ?_⟩
      cases start : firstComponent? rest.isEmpty first with
      | none => simp [start] at steps
      | some step => simp_all [trail_ofText, trailOfPieces, firstComponent?]
    · rw [List.concat_eq_append] at kept
      obtain ⟨step, found⟩ := laterComponent?_getLast kept
      have inRest : ∀ piece ∈ init, piece ∈ rest := fun piece member =>
        mem_of_mem_dropIdleEnd (kept ▸ List.mem_append_left _ member)
      have more : rest.isEmpty = false := by
        cases rest with
        | nil => simp [dropIdleEnd] at kept
        | cons _ _ => rfl
      refine ⟨ofText (textOfPieces (first :: dropIdleEnd init)), ?_, ?_⟩
      · cases begun : dropIdleEnd rest with
        | nil => simp [begun] at kept
        | cons head tail =>
          have shorter : (head :: tail).dropLast = init := by
            rw [← begun, kept, List.dropLast_concat]
          simp only [begun, shorter]
      · rw [kept, more, List.filterMap_append, List.reverse_append] at steps
        rw [trail_textOfPieces fun piece member => ?_]
        · simpa [found] using (List.cons.inj (by simpa [found] using steps)).2
        · rcases List.mem_cons.mp member with rfl | inInit
          · exact flat piece List.mem_cons_self
          · exact flat piece (List.mem_cons_of_mem _ (inRest piece inInit))

theorem parent?_eq_none {path : Path} (topmost : ∀ last ∈ path.trail.head?, last = .root) :
    path.parent? = none := by
  rw [trail_eq_pieces] at topmost
  unfold parent?
  cases pieces : path.pieces with
  | nil => rfl
  | cons first rest =>
    rw [pieces, trailOfPieces, ← filterMap_dropIdleEnd rest] at topmost
    rcases List.eq_nil_or_concat (dropIdleEnd rest) with none | ⟨init, piece, kept⟩
    · rw [none, List.filterMap_nil, List.reverse_nil, List.nil_append] at topmost
      by_cases empty : first = []
      · simp [none, empty]
      · obtain ⟨step, start, notRoot⟩ := firstComponent?_ne_root empty rest.isEmpty
        exact absurd (topmost step (by simp [start])) notRoot
    · rw [List.concat_eq_append] at kept
      obtain ⟨step, found⟩ := laterComponent?_getLast kept
      have root : step = .root := topmost step (by simp [kept, found])
      exact absurd (root ▸ found) (laterComponent?_ne_root piece)

theorem trail_of_parent? {path parent : Path} (above : path.parent? = some parent) :
    ∃ last, path.trail = last :: parent.trail := by
  cases steps : path.trail with
  | nil =>
    rw [parent?_eq_none (by simp [steps])] at above
    cases above
  | cons last outer =>
    by_cases root : last = .root
    · rw [parent?_eq_none (by simp [steps, root])] at above
      cases above
    · obtain ⟨_, found, trail⟩ := parent?_eq_some steps root
      obtain rfl := Option.some.inj (found.symm.trans above)
      exact ⟨last, by rw [trail]⟩

end Path

end Campaign
