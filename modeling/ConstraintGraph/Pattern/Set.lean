import ConstraintGraph.Pattern.Atom

namespace ConstraintGraph.Pattern

structure CharSet where
  -- How deep it nests.
  height : Nat
  -- Something is listed in it.
  stocked : Bool
deriving DecidableEq, Repr

def rowHeight : List Nat → Nat
  | [] => 0
  | [h] => h
  | hs => 1 + (hs.max?.getD 0)

def joinedHeight (left : Option Nat) (items : List Nat) : Nat :=
  match left with
  | some h => 1 + max h (rowHeight items)
  | none => rowHeight items

def classNames : List String :=
  ["alnum", "alpha", "ascii", "blank", "cntrl", "digit", "graph", "lower", "print", "punct",
    "space", "upper", "word", "xdigit"]

/-- A class by its name between colons, without the bracket in front of it: whether it is negated,
and the text after it. -/
def readClass? : List Char → Option (Bool × List Char)
  | ':' :: cs =>
    let (negated, cs) :=
      match cs with
      | '^' :: rest => (true, rest)
      | _ => (false, cs)
    let name := cs.takeWhile (· != ':')
    match cs.drop name.length with
    | ':' :: ']' :: rest =>
      if String.ofList name ∈ classNames then some (negated, rest) else none
    | _ => none
  | _ => none

/-- The hyphens at the beginning of a set, which stand for themselves: their number, and the text
after them. -/
def leadingHyphens (o : Options) : Nat → Nat → List Char → Nat × List Char
  | 0, n, cs => (n, cs)
  | fuel + 1, n, cs =>
    match cs with
    | '-' :: rest => leadingHyphens o fuel (n + 1) (o.skip rest)
    | _ => (n, cs)

/-- The beginning of a set behind its bracket: whether it is negated, the heights of the characters
that stand for themselves only there, and the text after them. -/
def openSet (o : Options) (cs : List Char) : Bool × List Nat × List Char :=
  let (negated, cs) :=
    match o.skip cs with
    | '^' :: rest => (true, o.skip rest)
    | rest => (false, rest)
  let (hyphens, cs) := leadingHyphens o cs.length 0 cs
  match hyphens, cs with
  | 0, ']' :: rest => (negated, [0], o.skip rest)
  | n, cs => (negated, List.replicate n 0, cs)

/-- The next character that counts, for a hyphen that may be the last one of its set. It looks past
one mark of a comment, not past the comment. -/
def peek? (o : Options) (cs : List Char) : Option Char :=
  if o.spaced then
    match cs.dropWhile Text.isBlank with
    | '#' :: rest => (rest.dropWhile Text.isBlank).head?
    | rest => rest.head?
  else cs.head?

def readPiece (o : Options) : List Char → Option (Atom × List Char)
  | [] => none
  | '\\' :: rest => readEscape o rest
  | c :: rest => some (.char c false, rest)

def readRange (o : Options) (cs : List Char) : Option (List Char) := do
  let (low, rest) ← readPiece o cs
  if !low.isAllowedInSet o then none
  match o.skip rest with
  | '-' :: behind =>
    if peek? o behind ∈ [some ']', some '-'] then return '-' :: behind
    let (high, rest) ← readPiece o (o.skip behind)
    if !high.isAllowedInSet o then none
    if (← low.char?) ≤ (← high.char?) then some rest else none
  | rest => return rest

/-- A set that was read to its end may stand where it does. Where only ASCII counts, a set may not
be negated. Where both cases of a letter count, nothing may be listed in it: such a set has nothing
in it, or everything if it is negated, and neither has other cases to look up. -/
def CharSet.isAllowed (o : Options) (negated : Bool) (s : CharSet) : Bool :=
  if o.unicode then !(o.ignoreCase && s.stocked) else !negated

/-- The rest of a set up to its closing bracket, and the text after it. `left` is the height of what
stands before the last operator, `items` are the heights of what stands behind it. -/
def readSet (o : Options) : Nat → Option Nat → List Nat → Bool → List Char →
    Option (CharSet × List Char)
  | 0, _, _, _, _ => none
  | fuel + 1, left, items, stocked, cs =>
    let operator (rest : List Char) :=
      readSet o fuel (some (joinedHeight left items)) [] stocked rest
    match o.skip cs with
    | [] => none
    | ']' :: rest => some (⟨joinedHeight left items, stocked⟩, rest)
    | '&' :: '&' :: rest => operator rest
    | '-' :: '-' :: rest => operator rest
    | '~' :: '~' :: rest => operator rest
    | '[' :: rest =>
      match readClass? rest with
      | some (negated, rest) =>
        if negated && !o.unicode then none else readSet o fuel left (0 :: items) true rest
      | none =>
        let (negated, first, rest) := openSet o rest
        match readSet o fuel none first (!first.isEmpty) rest with
        | none => none
        | some (inner, rest) =>
          if inner.isAllowed o negated then
            readSet o fuel left ((1 + inner.height) :: items) (stocked || inner.stocked) rest
          else none
    | cs =>
      match readRange o cs with
      | some rest => readSet o fuel left (0 :: items) true rest
      | none => none

def readBrackets (o : Options) (cs : List Char) : Option (Nat × List Char) :=
  let (negated, first, rest) := openSet o cs
  match readSet o (cs.length + 1) none first (!first.isEmpty) rest with
  | some (s, rest) => if s.isAllowed o negated then some (1 + s.height, rest) else none
  | none => none

end ConstraintGraph.Pattern
