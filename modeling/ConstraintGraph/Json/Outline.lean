import ConstraintGraph.Json.Basic

/-!
What a text shows of a JSON value before anything is made of it. A part of a text that nobody asks
for only has to follow the grammar, so a reader keeps a part that no value answers to as
`unreadable`, and it is a fault only where it is taken up. A text that leaves the grammar shows what
stands before that place, and `broken` there. `Outline.ofJson` and `Outline.toJson?` go from values
to outlines and back.
-/

namespace ConstraintGraph.Json

structure Key where
  -- What stands between its quotes, escapes and all.
  spelling? : Option String
  -- The text that this gives, if it can be read.
  text? : Option String
deriving DecidableEq, Repr, Inhabited

def Key.ofText (text : String) : Key := ⟨some text, some text⟩

def Key.missing : Key := ⟨none, none⟩

inductive Outline where
  -- The place where the text leaves the grammar. Nothing behind it is shown.
  | broken
  -- A part that follows the grammar and still has no value.
  | unreadable
  | null
  | bool (value : Bool)
  | int (value : Int)
  | double (value : Binary64)
  | string (value : String)
  | array (items : List Outline)
  | object (members : List (Key × Outline))
deriving Inhabited

namespace Outline

mutual

def ofJson : Json → Outline
  | .null => .null
  | .bool b => .bool b
  | .int n => .int n
  | .double x => .double x
  | .string s => .string s
  | .array items => .array (ofItems items)
  | .object members => .object (ofMembers members)

def ofItems : List Json → List Outline
  | [] => []
  | x :: xs => ofJson x :: ofItems xs

def ofMembers : List (String × Json) → List (Key × Outline)
  | [] => []
  | (k, v) :: ms => (.ofText k, ofJson v) :: ofMembers ms

end

mutual

def toJson? : Outline → Option Json
  | .broken => none
  | .unreadable => none
  | .null => some .null
  | .bool b => some (.bool b)
  | .int n => some (.int n)
  | .double x => some (.double x)
  | .string s => some (.string s)
  | .array items => (toItems? items).map .array
  | .object members => (toMembers? members).map .object

def toItems? : List Outline → Option (List Json)
  | [] => some []
  | x :: xs => do return (← toJson? x) :: (← toItems? xs)

def toMembers? : List (Key × Outline) → Option (List (String × Json))
  | [] => some []
  | (k, v) :: ms => do return (← k.text?, ← toJson? v) :: (← toMembers? ms)

end

mutual

def isBroken : Outline → Bool
  | .broken => true
  | .unreadable | .null | .bool _ | .int _ | .double _ | .string _ => false
  | .array items => haveBroken items
  | .object members => haveBrokenValue members

def haveBroken : List Outline → Bool
  | [] => false
  | x :: xs => isBroken x || haveBroken xs

def haveBrokenValue : List (Key × Outline) → Bool
  | [] => false
  | (_, v) :: ms => isBroken v || haveBrokenValue ms

end

mutual

/-- The outline of a value has that value. -/
theorem toJson?_ofJson : (j : Json) → (ofJson j).toJson? = some j
  | .null | .bool _ | .int _ | .double _ | .string _ => by simp [ofJson, toJson?]
  | .array items => by simp [ofJson, toJson?, toItems?_ofItems items]
  | .object members => by simp [ofJson, toJson?, toMembers?_ofMembers members]

theorem toItems?_ofItems : (items : List Json) → toItems? (ofItems items) = some items
  | [] => by simp [ofItems, toItems?]
  | x :: xs => by simp [ofItems, toItems?, toJson?_ofJson x, toItems?_ofItems xs]

theorem toMembers?_ofMembers : (members : List (String × Json)) →
    toMembers? (ofMembers members) = some members
  | [] => by simp [ofMembers, toMembers?]
  | (_, v) :: ms => by
    simp [ofMembers, toMembers?, Key.ofText, toJson?_ofJson v, toMembers?_ofMembers ms]

end

mutual

/-- The text of a value does not leave the grammar. -/
theorem isBroken_ofJson : (j : Json) → (ofJson j).isBroken = false
  | .null | .bool _ | .int _ | .double _ | .string _ => by simp [ofJson, isBroken]
  | .array items => by simp [ofJson, isBroken, haveBroken_ofItems items]
  | .object members => by simp [ofJson, isBroken, haveBrokenValue_ofMembers members]

theorem haveBroken_ofItems : (items : List Json) → haveBroken (ofItems items) = false
  | [] => by simp [ofItems, haveBroken]
  | x :: xs => by simp [ofItems, haveBroken, isBroken_ofJson x, haveBroken_ofItems xs]

theorem haveBrokenValue_ofMembers : (members : List (String × Json)) →
    haveBrokenValue (ofMembers members) = false
  | [] => by simp [ofMembers, haveBrokenValue]
  | (_, v) :: ms => by
    simp [ofMembers, haveBrokenValue, isBroken_ofJson v, haveBrokenValue_ofMembers ms]

end

end Outline
end ConstraintGraph.Json
