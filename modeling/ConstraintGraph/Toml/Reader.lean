import ConstraintGraph.Toml.Quoted
import ConstraintGraph.Toml.Value

/-!
Reading TOML text as a list of statements: headers and assignments, in order. This is the grammar
alone; which statements may stand together is left to those who read a document for its content,
except inside a table that is written on one line, whose keys must not overlap.
-/

namespace ConstraintGraph.Toml

inductive Statement where
  | openTable (path : List String)
  | openItem (path : List String)
  | assign (path : List String) (value : Value)
deriving Inhabited

/-- One path begins with the other, so that a value at both would make one of them a value and a
table at once, or give it twice. -/
def overlap (p q : List String) : Bool := p.isPrefixOf q || q.isPrefixOf p

def areApart : List (List String) → Bool
  | [] => true
  | p :: ps => ps.all (!overlap p ·) && areApart ps

def depthLimit : Nat := 80

def isBareChar (c : Char) : Bool := c.isAlphanum || c == '_' || c == '-'

def skipBlanks (cs : List Char) : List Char := cs.dropWhile isBlank

def readName : List Char → Option (String × List Char)
  | '\"' :: rest => readBasic [] rest
  | '\x27' :: rest => readLiteral [] rest
  | cs =>
    let name := cs.takeWhile isBareChar
    if name.isEmpty then none else some (String.ofList name, cs.dropWhile isBareChar)

/-- A key of names with points between them, behind the names of `acc`, and the text after the
blanks behind it. A key nests as deep as it has names. -/
def readPath : Nat → List String → List Char → Option (List String × List Char)
  | 0, _, _ => none
  | fuel + 1, acc, cs =>
    match readName (skipBlanks cs) with
    | none => none
    | some (name, rest) =>
      match skipBlanks rest with
      | '.' :: rest => readPath fuel (name :: acc) rest
      | rest => if acc.length + 1 < depthLimit then some ((name :: acc).reverse, rest) else none

/-- The text after blanks, line ends and comments. A comment runs to the end of its line. -/
def skipFiller : Bool → List Char → Option (List Char)
  | _, '\n' :: rest => skipFiller false rest
  | _, '\r' :: '\n' :: rest => skipFiller false rest
  | true, c :: rest => if isPlain c then skipFiller true rest else none
  | true, [] => none
  | false, ' ' :: rest => skipFiller false rest
  | false, '\t' :: rest => skipFiller false rest
  | false, '#' :: rest => skipFiller true rest
  | false, rest => some rest

mutual

def readValue : Nat → Nat → List Char → Option (Value × List Char)
  | 0, _, _ => none
  | fuel + 1, depth, cs =>
    match cs with
    | '[' :: rest =>
      match depth with
      | 0 => none
      | depth + 1 => readItems fuel depth [] rest
    | '\x7b' :: rest =>
      match depth with
      | 0 => none
      | depth + 1 =>
        match skipBlanks rest with
        | '\x7d' :: rest => some (.table [], rest)
        | rest => readEntries fuel depth [] rest
    | '\"' :: _ => (readString cs).map fun (s, rest) => (.text s, rest)
    | '\x27' :: _ => (readString cs).map fun (s, rest) => (.text s, rest)
    | _ => readWord cs

/-- The rest of an array behind the items of `acc`. A comma may follow the last item. -/
def readItems : Nat → Nat → List Value → List Char → Option (Value × List Char)
  | 0, _, _, _ => none
  | fuel + 1, depth, acc, cs =>
    match skipFiller false cs with
    | none => none
    | some (']' :: rest) => some (.list acc.reverse, rest)
    | some rest =>
      match readValue fuel depth rest with
      | none => none
      | some (item, rest) =>
        match skipFiller false rest with
        | some (',' :: rest) => readItems fuel depth (item :: acc) rest
        | some (']' :: rest) => some (.list (item :: acc).reverse, rest)
        | _ => none

def readEntries : Nat → Nat → List (List String × Value) → List Char → Option (Value × List Char)
  | 0, _, _, _ => none
  | fuel + 1, depth, acc, cs =>
    match readPath cs.length [] cs with
    | some (path, '=' :: rest) =>
      match readValue fuel depth (skipBlanks rest) with
      | none => none
      | some (value, rest) =>
        let acc := (path, value) :: acc
        match skipBlanks rest with
        | ',' :: rest => readEntries fuel depth acc rest
        | '\x7d' :: rest =>
          if areApart (acc.map (·.1)) then some (.table acc.reverse, rest) else none
        | _ => none
    | _ => none

end

def readLineEnd (cs : List Char) : Option (List Char) :=
  let cs :=
    match skipBlanks cs with
    | '#' :: rest => rest.dropWhile isPlain
    | cs => cs
  match cs with
  | [] => some []
  | cs => readLineBreak cs

def readHeader : List Char → Option (Statement × List Char)
  | '[' :: '[' :: rest =>
    match readPath rest.length [] rest with
    | some (path, ']' :: ']' :: rest) => some (.openItem path, rest)
    | _ => none
  | '[' :: rest =>
    match readPath rest.length [] rest with
    | some (path, ']' :: rest) => some (.openTable path, rest)
    | _ => none
  | _ => none

def readAssignment (cs : List Char) : Option (Statement × List Char) :=
  match readPath cs.length [] cs with
  | some (path, '=' :: rest) =>
    (readValue (2 * cs.length) (depthLimit - 1) (skipBlanks rest)).map fun (value, rest) =>
      (.assign path value, rest)
  | _ => none

def readStatements : Nat → List Statement → List Char → Option (List Statement)
  | 0, _, _ => none
  | fuel + 1, acc, cs =>
    match skipBlanks cs with
    | [] => some acc.reverse
    | c :: rest =>
      if c == '#' || c == '\n' || c == '\r' then
        (readLineEnd (c :: rest)).bind (readStatements fuel acc)
      else
        match if c == '[' then readHeader (c :: rest) else readAssignment (c :: rest) with
        | none => none
        | some (statement, rest) =>
          (readLineEnd rest).bind (readStatements fuel (statement :: acc))

/-- The statements of a text, if it is TOML. A byte order mark in front is passed over. -/
def ofText? (text : String) : Option (List Statement) :=
  let cs :=
    match text.toList with
    | '\uFEFF' :: rest => rest
    | cs => cs
  readStatements (cs.length + 1) [] cs

end ConstraintGraph.Toml
