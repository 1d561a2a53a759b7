import ConstraintGraph.Pattern.Set
import ConstraintGraph.Text.Alphanumeric

namespace ConstraintGraph.Pattern

/-- What was read of a branch: its pieces, the last one first, by their heights. A change of options
is no piece to repeat. -/
abbrev Branch := List (Option Nat)

structure Body where
  branch : Branch
  before : List Nat

namespace Body

def empty : Body := ⟨[], []⟩

def branchHeight (b : Body) : Nat := rowHeight (b.branch.map (·.getD 0))

def height (b : Body) : Nat := rowHeight (b.branchHeight :: b.before)

def push (b : Body) (height : Nat) : Body := { b with branch := some height :: b.branch }

end Body

structure Reading where
  options : Options
  body : Body
  -- What surrounds each open group, and the options there; the innermost group first.
  outer : List (Options × Body)
  names : List String

namespace Reading

def initial : Reading := ⟨.initial, .empty, [], []⟩

def push (r : Reading) (height : Nat) : Reading := { r with body := r.body.push height }

def enter (r : Reading) (options : Options) : Reading :=
  { r with options, body := .empty, outer := (r.options, r.body) :: r.outer }

end Reading

/-- Letters of options up to a colon or a closing parenthesis, with what they are set to: the
letters, the last character, and the text after it. -/
def readOptions (letters : List (Char × Bool)) (negated dangling : Bool) :
    List Char → Option (List (Char × Bool) × Char × List Char)
  | [] => none
  | c :: rest =>
    if c == ':' || c == ')' then if dangling then none else some (letters.reverse, c, rest)
    else if c == '-' then if negated then none else readOptions letters true true rest
    else if Options.letters.contains c && !letters.any (·.1 == c) then
      readOptions ((c, !negated) :: letters) negated false rest
    else none

def isName : List Char → Bool
  | [] => false
  | c :: cs =>
    (c == '_' || Text.isAlphabetic c) &&
      cs.all fun c => c ∈ ['_', '.', '[', ']'] || Text.isAlphanumeric c

namespace Reading

def enterNamed (r : Reading) (cs : List Char) : Option (Reading × List Char) :=
  let name := cs.takeWhile (· != '>')
  let text := String.ofList name
  match cs.drop name.length with
  | '>' :: rest =>
    if isName name && !r.names.contains text then
      some ({ r.enter r.options with names := text :: r.names }, rest)
    else none
  | _ => none

def openGroup (r : Reading) (cs : List Char) : Option (Reading × List Char) :=
  match r.options.skip cs with
  | '?' :: 'P' :: '<' :: rest => r.enterNamed rest
  | '?' :: '<' :: rest => r.enterNamed rest
  | '?' :: rest =>
    match readOptions [] false false rest with
    | none => none
    | some (letters, last, rest) =>
      let options := letters.foldl (fun o (letter, value) => o.set letter value) r.options
      if last == ':' then some (r.enter options, rest)
      else if letters.isEmpty then none
      else some ({ r with options, body := { r.body with branch := none :: r.body.branch } }, rest)
  | rest => some (r.enter r.options, rest)

def closeGroup (r : Reading) : Option Reading :=
  match r.outer with
  | [] => none
  | (options, body) :: outer =>
    some { r with options, body := body.push (1 + r.body.height), outer }

def repeatLast (r : Reading) : Option Reading :=
  match r.body.branch with
  | some h :: branch => some { r with body := { r.body with branch := some (1 + h) :: branch } }
  | _ => none

def divide (r : Reading) : Reading :=
  { r with body := ⟨[], r.body.branchHeight :: r.body.before⟩ }

def atom (r : Reading) (a : Atom) : Option Reading :=
  if a.isAllowed r.options then some (r.push 0) else none

/-- Goes on with the first character of the text. Behind the sign of a repetition a question mark
belongs to it. A dot matches a byte outside ASCII where only ASCII counts, and so is a fault. -/
def step (r : Reading) (c : Char) (rest : List Char) : Option (Reading × List Char) :=
  match c with
  | '(' => r.openGroup rest
  | ')' => r.closeGroup.map (·, rest)
  | '|' => some (r.divide, rest)
  | '[' => (readBrackets r.options rest).map fun (height, rest) => (r.push height, rest)
  | '\x7b' => none
  | '.' => if r.options.unicode then some (r.push 0, rest) else none
  | '\\' => (readEscape r.options rest).bind fun (a, rest) => (r.atom a).map (·, rest)
  | c =>
    if c ∈ ['?', '*', '+'] then
      r.repeatLast.map fun r =>
        match rest with
        | '?' :: rest => (r, rest)
        | rest => (r, rest)
    else if c ∈ ['^', '$'] then some (r.push 0, rest)
    else (r.atom (.char c false)).map (·, rest)

def greatestHeight : Nat := 250

def isAccepted : Nat → Reading → List Char → Bool
  | 0, _, _ => false
  | fuel + 1, r, cs =>
    match r.options.skip cs with
    | [] => r.outer.isEmpty && r.body.height ≤ greatestHeight
    | c :: rest =>
      match r.step c rest with
      | some (r, rest) => isAccepted fuel r rest
      | none => false

end Reading

/-- A valid pattern. Each step takes at least one character. -/
def isValid (cs : List Char) : Bool := Reading.isAccepted (cs.length + 1) .initial cs

end ConstraintGraph.Pattern
