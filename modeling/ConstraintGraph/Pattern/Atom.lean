import ConstraintGraph.Text.Basic

/-!
The smallest pieces of a pattern. Patterns are the regular expressions that a log filter compares
fields with; what they match does not matter here, only whether they are valid. They stand behind an
equals sign and before a closing brace, in a list with commas, so none of these three comes in them:
counted repetition, braces behind an escape and looking around cannot be spelled, and their
beginnings are faults. Tables of Unicode properties and of letter cases are not at hand, so what
needs them is a fault as well.
-/

namespace ConstraintGraph.Pattern

structure Options where
  -- A letter stands for both its cases.
  ignoreCase : Bool
  -- Characters count, not only those of ASCII.
  unicode : Bool
  -- Blanks and comments are passed over.
  spaced : Bool
deriving DecidableEq, Repr

namespace Options

def initial : Options := ⟨false, true, false⟩

/-- The options after one of them was set or unset, by its letter. The other letters change how a
pattern matches, but not whether it is valid. -/
def set (o : Options) (letter : Char) (value : Bool) : Options :=
  match letter with
  | 'i' => { o with ignoreCase := value }
  | 'u' => { o with unicode := value }
  | 'x' => { o with spaced := value }
  | _ => o

def letters : List Char := ['i', 'm', 's', 'U', 'u', 'R', 'x']

end Options

def afterGap (inComment : Bool) : List Char → List Char
  | [] => []
  | c :: cs =>
    if inComment then afterGap (c != '\n') cs
    else if Text.isBlank c then afterGap false cs
    else if c == '#' then afterGap true cs
    else c :: cs

def Options.skip (o : Options) (cs : List Char) : List Char :=
  if o.spaced then afterGap false cs else cs

inductive Atom where
  -- A character; `byte` when it is given by two hexadecimal digits.
  | char (value : Char) (byte : Bool)
  -- The digits, blanks or word characters, or all but them.
  | family (negated : Bool)
  -- The beginning or end of the text, or, with `ofWord`, of a word.
  | place (ofWord : Bool)
deriving DecidableEq, Repr

def readHex (o : Options) : Nat → Nat → List Char → Option (Nat × List Char)
  | 0, n, cs => some (n, cs)
  | count + 1, n, cs =>
    match o.skip cs with
    | [] => none
    | c :: rest => (Text.hexDigit? c).bind fun d => readHex o count (16 * n + d) rest

def readCode (o : Options) (count : Nat) (cs : List Char) : Option (Atom × List Char) :=
  (readHex o count 0 cs).bind fun (n, rest) =>
    if n.isValidChar then some (.char (Char.ofNat n) (count == 2), rest) else none

def control? : Char → Option Char
  | 'a' => some '\x07'
  | 'f' => some '\x0c'
  | 'n' => some '\n'
  | 'r' => some '\r'
  | 't' => some '\t'
  | 'v' => some '\x0b'
  | _ => none

/-- What stands behind a backslash, and the text after it. Digits are no references, and a
property of characters, behind `p`, would have to be looked up. -/
def readEscape (o : Options) : List Char → Option (Atom × List Char)
  | [] => none
  | c :: rest =>
    if c == 'x' then readCode o 2 rest
    else if c == 'u' then readCode o 4 rest
    else if c == 'U' then readCode o 8 rest
    else if c ∈ ['d', 's', 'w'] then some (.family false, rest)
    else if c ∈ ['D', 'S', 'W'] then some (.family true, rest)
    else if let some control := control? c then some (.char control false, rest)
    else if c ∈ ['A', 'z'] then some (.place false, rest)
    else if c ∈ ['b', 'B', '<', '>'] then some (.place true, rest)
    else if c.toNat < 0x80 && !c.isAlphanum then some (.char c false, rest)
    else none

namespace Atom

/-- The piece may stand by itself. Where both cases of a letter count, no character may; where only
ASCII counts, no class with characters outside it may. -/
def isAllowed (o : Options) : Atom → Bool
  | .char c byte => if o.unicode then !o.ignoreCase else !byte || c.toNat < 0x80
  | .family negated => !o.unicode && !negated
  | .place ofWord => !ofWord || !o.unicode

def isAllowedInSet (o : Options) : Atom → Bool
  | .char c _ => o.unicode || c.toNat < 0x80
  | .family negated => !o.unicode && !negated
  | .place _ => false

def char? : Atom → Option Char
  | .char c _ => some c
  | .family _ | .place _ => none

end Atom
end ConstraintGraph.Pattern
