import ConstraintGraph.CommandLine.Flag

/-!
Reading the words of a command line from left to right. A word that begins with a dash gives an
option, whose value is attached behind an equals sign or is the next word; two dashes alone end the
options; any other word takes the next free place. What was read last is checked when the next
option or place comes, so that of several faults the first one counts, and so that help is answered
where it is asked for.
-/

namespace ConstraintGraph.CommandLine

inductive Stop where
  | usage
  | help
  | version
deriving DecidableEq, Repr, Inhabited

structure Level where
  flags : List Flag
  places : Nat

inductive Pending where
  | nothing
  | option (flag : Flag) (value : Option String)
  | place (value : String)

structure Words where
  -- Options with their values; one that takes no value has the empty text.
  options : List (Flag × String)
  places : List String
  pending : Pending
  ended : Bool

inductive Word where
  | plain (value : String)
  | terminator
  | long (name : String) (value : Option String)
  | short (letter : Char)

namespace Word

def of (word : String) : Word :=
  match word.toList with
  | ['-', '-'] => .terminator
  | '-' :: '-' :: cs =>
    let name := cs.takeWhile (· != '=')
    match cs.drop name.length with
    | [] => .long (String.ofList name) none
    | _ :: value => .long (String.ofList name) (some (String.ofList value))
  | '-' :: letter :: _ => .short letter
  -- A single dash alone is plain, too.
  | _ => .plain word

end Word

namespace Words

def empty : Words := ⟨[], [], .nothing, false⟩

def value? (w : Words) (flag : Flag) : Option String := w.options.lookup flag

def has (w : Words) (flag : Flag) : Bool := (w.value? flag).isSome

def give (w : Words) (flag : Flag) (value : String) : Except Stop Words :=
  if w.has flag ∨ ¬ flag.accepts value then .error .usage
  else .ok { w with options := w.options ++ [(flag, value)] }

def settle (w : Words) : Except Stop Words :=
  let settled := { w with pending := .nothing }
  match w.pending with
  | .nothing => .ok settled
  | .option flag (some value) => settled.give flag value
  | .option _ none => .error .usage
  | .place value =>
    if value = "" then .error .usage else .ok { settled with places := w.places ++ [value] }

def raise (w : Words) (flag : Flag) : Except Stop Words := do
  let w ← w.settle
  match flag with
  -- These two end the reading where they are asked for.
  | .help => .error .help
  | .version => .error .version
  | flag => w.give flag ""

def takeLong (l : Level) (w : Words) (name : String) (value : Option String) :
    Except Stop Words := do
  match l.flags.find? (·.name == name) with
  | none => .error .usage
  | some flag =>
    match flag.takesValue, value with
    | true, some value => (← w.settle).give flag value
    | true, none => return { (← w.settle) with pending := .option flag none }
    | false, none => w.raise flag
    | false, some _ => .error .usage

def takeShort (l : Level) (w : Words) (letter : Char) : Except Stop Words :=
  match l.flags.find? (·.letter? == some letter) with
  | some flag => w.raise flag
  | none => .error .usage

def taken (w : Words) : Nat :=
  match w.pending with
  | .place _ => w.places.length + 1
  | .nothing | .option _ _ => w.places.length

def takePlain (l : Level) (w : Words) (value : String) : Except Stop (Option Words) := do
  match w.ended, w.pending with
  -- It is the value that the option before it waits for.
  | false, .option flag none => return some { w with pending := .option flag (some value) }
  | _, _ =>
    if w.taken < l.places then return some { (← w.settle) with pending := .place value }
    else return none

def take (l : Level) (w : Words) : List String → Except Stop (Words × List String)
  | [] => .ok (w, [])
  | word :: rest => do
    match if w.ended then .plain word else Word.of word with
    | .plain value =>
      match ← w.takePlain l value with
      | some w => take l w rest
      | none => return (w, word :: rest)
    | .terminator => take l { w with ended := true } rest
    | .long name value => take l (← takeLong l w name value) rest
    | .short letter => take l (← takeShort l w letter) rest

end Words
end ConstraintGraph.CommandLine
