import Campaign.Text.Blank

namespace Campaign

inductive Operation where
  | read
  | write
  deriving DecidableEq, Repr

namespace Operation

def all : List Operation := [.read, .write]

theorem mem_all (op : Operation) : op ∈ all := by cases op <;> decide

def name : Operation → String
  | .read => "read"
  | .write => "write"

structure NameError where
  text : String
  deriving DecidableEq

def NameError.message (error : NameError) : String :=
  "unknown operation '" ++ error.text ++ "' (expected read or write)"

def ofText (text : String) : Except NameError Operation :=
  let word := Text.lower (Text.trimmed text)
  if word = "read" then .ok .read
  else if word = "write" then .ok .write
  else .error { text := word }

end Operation

structure PerOperation (α : Type) where
  read : α
  write : α
  deriving DecidableEq

namespace PerOperation

variable {α β : Type}

def get (both : PerOperation α) : Operation → α
  | .read => both.read
  | .write => both.write

def set (both : PerOperation α) (op : Operation) (value : α) : PerOperation α :=
  match op with
  | .read => { both with read := value }
  | .write => { both with write := value }

@[simp] theorem get_set_self (both : PerOperation α) (op : Operation) (value : α) :
    (both.set op value).get op = value := by
  cases op <;> rfl

theorem get_set_of_ne (both : PerOperation α) {op other : Operation} (different : other ≠ op)
    (value : α) : (both.set op value).get other = both.get other := by
  cases op <;> cases other <;> first | rfl | exact absurd rfl different

end PerOperation

end Campaign
