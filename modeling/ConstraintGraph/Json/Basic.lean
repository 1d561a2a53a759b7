import ConstraintGraph.Binary64.Basic

/-!
JSON values. An object is the row of its members as they are written, so one type serves for a
text that was read (where a key may come twice) and for a text that will be printed (where the
order counts).
-/

namespace ConstraintGraph

/-- A JSON value. A number is an integer or a double, as its literal says. -/
inductive Json where
  | null
  | bool (value : Bool)
  | int (value : Int)
  | double (value : Binary64)
  | string (value : String)
  | array (items : List Json)
  | object (members : List (String × Json))
deriving Inhabited

namespace Json

mutual

def decEq : (a b : Json) → Decidable (a = b)
  | .null, b => match b with
    | .null => isTrue rfl
    | .bool _ | .int _ | .double _ | .string _ | .array _ | .object _ => isFalse (by simp)
  | .bool x, b => match b with
    | .bool y => if h : x = y then isTrue (by rw [h]) else isFalse (by simpa using h)
    | .null | .int _ | .double _ | .string _ | .array _ | .object _ => isFalse (by simp)
  | .int x, b => match b with
    | .int y => if h : x = y then isTrue (by rw [h]) else isFalse (by simpa using h)
    | .null | .bool _ | .double _ | .string _ | .array _ | .object _ => isFalse (by simp)
  | .double x, b => match b with
    | .double y => if h : x = y then isTrue (by rw [h]) else isFalse (by simpa using h)
    | .null | .bool _ | .int _ | .string _ | .array _ | .object _ => isFalse (by simp)
  | .string x, b => match b with
    | .string y => if h : x = y then isTrue (by rw [h]) else isFalse (by simpa using h)
    | .null | .bool _ | .int _ | .double _ | .array _ | .object _ => isFalse (by simp)
  | .array xs, b => match b with
    | .array ys => match decEqItems xs ys with
      | isTrue h => isTrue (by rw [h])
      | isFalse h => isFalse (by simpa using h)
    | .null | .bool _ | .int _ | .double _ | .string _ | .object _ => isFalse (by simp)
  | .object xs, b => match b with
    | .object ys => match decEqMembers xs ys with
      | isTrue h => isTrue (by rw [h])
      | isFalse h => isFalse (by simpa using h)
    | .null | .bool _ | .int _ | .double _ | .string _ | .array _ => isFalse (by simp)

def decEqItems : (xs ys : List Json) → Decidable (xs = ys)
  | [], [] => isTrue rfl
  | [], _ :: _ => isFalse (by simp)
  | _ :: _, [] => isFalse (by simp)
  | x :: xs, y :: ys => match decEq x y, decEqItems xs ys with
    | isTrue h, isTrue t => isTrue (by rw [h, t])
    | isFalse h, _ => isFalse (by simp [h])
    | _, isFalse t => isFalse (by simp [t])

def decEqMembers : (xs ys : List (String × Json)) → Decidable (xs = ys)
  | [], [] => isTrue rfl
  | [], _ :: _ => isFalse (by simp)
  | _ :: _, [] => isFalse (by simp)
  | (k, x) :: xs, (l, y) :: ys =>
    if hk : k = l then
      match decEq x y, decEqMembers xs ys with
      | isTrue h, isTrue t => isTrue (by rw [hk, h, t])
      | isFalse h, _ => isFalse (by simp [h])
      | _, isFalse t => isFalse (by simp [t])
    else isFalse (by simp [hk])

end

instance : DecidableEq Json := decEq

def get? (key : String) : Json → Option Json
  | .object members => (members.reverse.find? (·.1 == key)).map (·.2)
  | _ => none

def ofStrings (texts : List String) : Json := .array (texts.map .string)

def ofOption {α : Type} (write : α → Json) : Option α → Json
  | none => .null
  | some x => write x

end Json
end ConstraintGraph
