import Campaign.Table

namespace Campaign

inductive Component where
  | root
  | here
  | up
  | name (text : String)
  deriving DecidableEq

namespace Component

inductive Less : Component → Component → Prop where
  | rootHere : Less .root .here
  | rootUp : Less .root .up
  | rootName (text : String) : Less .root (.name text)
  | hereUp : Less .here .up
  | hereName (text : String) : Less .here (.name text)
  | upName (text : String) : Less .up (.name text)
  | names {left right : String} (less : left < right) : Less (.name left) (.name right)

instance : LT Component := ⟨Less⟩

instance : DecidableLT Component := fun left right =>
  match left, right with
  | .root, .root => .isFalse nofun
  | .root, .here => .isTrue .rootHere
  | .root, .up => .isTrue .rootUp
  | .root, .name text => .isTrue (.rootName text)
  | .here, .root => .isFalse nofun
  | .here, .here => .isFalse nofun
  | .here, .up => .isTrue .hereUp
  | .here, .name text => .isTrue (.hereName text)
  | .up, .root => .isFalse nofun
  | .up, .here => .isFalse nofun
  | .up, .up => .isFalse nofun
  | .up, .name text => .isTrue (.upName text)
  | .name _, .root => .isFalse nofun
  | .name _, .here => .isFalse nofun
  | .name _, .up => .isFalse nofun
  | .name left, .name right =>
    if less : left < right then .isTrue (.names less)
    else .isFalse fun | .names given => less given

instance : KeyOrder Component where
  irrefl
    | .name text, .names less => KeyOrder.irrefl text less
  trans := by
    intro a b c first second
    cases first <;> cases second <;> try constructor
    case names.names left middle less right more => exact KeyOrder.trans less more
  total := by
    intro a b
    cases a <;> cases b
    case name.name left right =>
      rcases KeyOrder.total left right with less | same | more
      · exact Or.inl (.names less)
      · exact Or.inr (Or.inl (same ▸ rfl))
      · exact Or.inr (Or.inr (.names more))
    all_goals
      first
      | exact Or.inr (Or.inl rfl)
      | exact Or.inl (by constructor)
      | exact Or.inr (Or.inr (by constructor))

end Component

def isIdlePiece (piece : List Char) : Bool := piece.isEmpty || piece == ['.']

/-- The step of the first piece of a path; an empty one begins a path at the root unless it is the
whole path. -/
def firstComponent? (alone : Bool) (piece : List Char) : Option Component :=
  if piece.isEmpty then if alone then none else some .root
  else if piece = ['.'] then some .here
  else if piece = ['.', '.'] then some .up
  else some (.name (String.ofList piece))

def laterComponent? (piece : List Char) : Option Component :=
  if isIdlePiece piece then none
  else if piece = ['.', '.'] then some .up
  else some (.name (String.ofList piece))

def trailOfPieces : List (List Char) → List Component
  | [] => []
  | first :: rest =>
    (rest.filterMap laterComponent?).reverse ++ (firstComponent? rest.isEmpty first).toList

/-- A path: its text, and the steps that the text stands for, innermost first. Names are Unicode
texts: a name that is none is not modelled, so a path always prints as the text that it was given. -/
structure Path where
  text : String
  trail : List Component
  depth : Nat
  trail_eq : trail = trailOfPieces (text.toList.splitOn '/')
  depth_eq : depth = trail.length
  deriving DecidableEq

namespace Path

def ofText (text : String) : Path :=
  let trail := trailOfPieces (text.toList.splitOn '/')
  { text := text, trail := trail, depth := trail.length, trail_eq := rfl, depth_eq := rfl }

instance : Inhabited Path := ⟨ofText ""⟩

/-- Whether two paths lead to the same place; the depths tell most paths apart at once. -/
def same (left right : Path) : Bool := left.depth == right.depth && left.trail == right.trail

theorem same_iff {left right : Path} : left.same right = true ↔ left.trail = right.trail := by
  simp only [same, Bool.and_eq_true, beq_iff_eq, left.depth_eq, right.depth_eq]
  exact ⟨And.right, fun steps => ⟨congrArg _ steps, steps⟩⟩

def pieces (path : Path) : List (List Char) := path.text.toList.splitOn '/'

def textOfPieces (pieces : List (List Char)) : String :=
  if pieces = [[]] then "/" else String.ofList (List.intercalate ['/'] pieces)

def dropIdleEnd (pieces : List (List Char)) : List (List Char) :=
  (pieces.reverse.dropWhile isIdlePiece).reverse

def parent? (path : Path) : Option Path :=
  match path.pieces with
  | [] => none
  | first :: rest =>
    match dropIdleEnd rest with
    | [] => if first.isEmpty then none else some (ofText "")
    | last :: earlier =>
      some (ofText (textOfPieces (first :: dropIdleEnd (last :: earlier).dropLast)))

def fileName? (path : Path) : Option String :=
  match path.trail with
  | .name text :: _ => some text
  | _ => none

/-- The path of an entry below this path. A text that begins with a slash stands for itself. -/
def join (path : Path) (entry : String) : Path :=
  let base := path.text.toList
  if base.isEmpty || entry.toList.head? = some '/' then ofText entry
  else if base.getLast? = some '/' then ofText (path.text ++ entry)
  else ofText (path.text ++ "/" ++ entry)

def isEntryOf (path directory : Path) : Bool :=
  match path.trail with
  | [] => false
  | .root :: _ => false
  | _ :: outer => path.depth == directory.depth + 1 && outer == directory.trail

theorem depth_of_isEntryOf {path directory : Path} (entry : path.isEntryOf directory = true) :
    path.depth = directory.depth + 1 := by
  unfold isEntryOf at entry
  split at entry
  · exact absurd entry Bool.false_ne_true
  · exact absurd entry Bool.false_ne_true
  · exact eq_of_beq (Bool.and_eq_true _ _ ▸ entry).1

end Path

end Campaign
