import ConstraintGraph.Binary64.Reader
import ConstraintGraph.Pattern.Basic
import ConstraintGraph.Text.Alphanumeric
import ConstraintGraph.Text.Basic

/-!
Log filters. A filter is a list of directives with commas between them; a directive is a level or a
target, a target may go on with a span in brackets, the span may name a field in braces, and a level
may follow behind an equals sign. A field may be compared with a number or a pattern.

Of the directives that are about an event the closest one decides, by its level, whether the event
is logged. The program opens no spans, so a directive that is about spans decides nothing.
-/

namespace ConstraintGraph.LogFilter

/-- The part of a directive that is being read. Places in a directive are counted in bytes. -/
inductive Part where
  | start
  -- A word that is a level or a target.
  | word
  | span (place : Nat)
  | field (place : Nat)
  -- The end of the fields.
  | closed
  -- The end of a span.
  | target
  | level (place : Nat)

structure Directive where
  -- What the targets begin with.
  target : List Char
  -- A span is named, or a field of one is compared.
  ofSpans : Bool
  field : Option (List Char)
  level : Nat
deriving DecidableEq

def levelNames : List String := ["off", "error", "warn", "info", "debug", "trace"]

def greatestLevel : Nat := 5

def level? (cs : List Char) : Option Nat :=
  let s := String.ofList cs
  (Text.naturalUpTo? greatestLevel s).or (levelNames.idxOf? s.toLower)

def isWordStart (c : Char) : Bool :=
  Text.isAlphanumeric c || c == '-' || c == ':' || c == '_'

def partAt? : Nat → List Char → Option (List Char × List Char)
  | 0, cs => some ([], cs)
  | _ + 1, [] => none
  | n + 1, c :: cs =>
    if c.utf8Size ≤ n + 1 then
      (partAt? (n + 1 - c.utf8Size) cs).map fun (front, back) => (c :: front, back)
    else none

def slice? (cs : List Char) (first last : Nat) : Option (List Char) := do
  let (front, _) ← partAt? last cs
  let (_, middle) ← partAt? first front
  return middle

namespace Directive

/-- The directive with a field: a name, and behind an equals sign what it is compared with. What
follows another equals sign is passed over. -/
def withField? (d : Directive) (cs : List Char) : Option Directive :=
  match cs.splitOn '=' with
  | name :: value :: _ =>
    if (Binary64.ofText? (String.ofList value)).isSome || Pattern.isValid value then
      some { d with ofSpans := true, field := some name }
    else none
  | _ => if cs.isEmpty then none else some { d with field := some cs }

/-- Goes on with the character at a place. Targets and fields are taken out of the whole text. -/
def next (whole : List Char) : Part × Directive → Char × Nat → Option (Part × Directive)
  | (.start, d), (c, i) =>
    if c == '[' then some (.span (i + 1), d) else if isWordStart c then some (.word, d) else none
  | (.word, d), (c, i) =>
    if c == '=' then (slice? whole 0 i).map fun target => (.level (i + 1), { d with target })
    else if c == '[' then (slice? whole 0 i).map fun target => (.span (i + 1), { d with target })
    else some (.word, d)
  | (.span place, d), (c, i) =>
    if c == ']' then some (.target, { d with ofSpans := true })
    else if c == '\x7b' then some (.field (i + 1), { d with ofSpans := place != i })
    else some (.span place, d)
  | (.field place, d), (c, i) =>
    if c == '\x7d' then ((slice? whole place i).bind d.withField?).map (.closed, ·)
    else some (.field place, d)
  | (.closed, d), (c, _) => if c == ']' then some (.target, d) else none
  | (.target, d), (c, i) => if c == '=' then some (.level (i + 1), d) else none
  | (.level place, d), _ => some (.level place, d)

/-- The directive when all of it is read. A word that is no level is a target, and a target alone
has every level. -/
def settle? (whole : List Char) : Part × Directive → Option Directive
  | (.word, d) =>
    match level? whole with
    | some level => some { d with level }
    | none => some { d with target := whole }
  | (.target, d) => some d
  | (.level place, d) =>
    (partAt? place whole).bind fun (_, level) =>
      if level.isEmpty then some d else (level? level).map ({ d with level := · })
  | _ => none

def placed (place : Nat) : List Char → List (Char × Nat)
  | [] => []
  | c :: cs => (c, place) :: placed (place + c.utf8Size) cs

/-- The directive that a text writes. Blanks at its ends are not read, but they count for what is
taken out of the text: this lies in the whole text at the places that it has in the text without the
blanks. -/
def ofChars? (cs : List Char) : Option Directive :=
  ((placed 0 (Text.trimChars cs)).foldlM (next cs)
    (.start, ⟨[], false, none, greatestLevel⟩)).bind (settle? cs)

end Directive

def directives? (filter : String) : Option (List Directive) :=
  ((filter.toList.splitOn ',').filter (!·.isEmpty)).mapM Directive.ofChars?

def isValid (filter : String) : Bool := (directives? filter).isSome

/-- What may be logged. The names of the fields are in order. -/
structure Event where
  target : String
  fields : List String
  level : Nat

def Event.stored : Event :=
  ⟨"ocgraph_eval::orchestrator", ["message", "nodes", "violations"], levelNames.idxOf "info"⟩

namespace Directive

def isAbout (d : Directive) (e : Event) : Bool :=
  !d.ofSpans && d.target.isPrefixOf e.target.toList &&
    d.field.all fun name => String.ofList name ∈ e.fields

def closeness (d : Directive) (e : Event) : Nat :=
  -- The length of the target comes first, and of two fields the later one is the closer.
  let field := (d.field.map fun name => e.fields.idxOf (String.ofList name) + 1).getD 0
  d.target.length * (e.fields.length + 1) + field

def closer (e : Event) (first? : Option Directive) (second : Directive) : Option Directive :=
  match first? with
  | some first => if second.closeness e < first.closeness e then some first else some second
  | none => some second

end Directive

def logs (filter : String) (e : Event) : Bool :=
  let about := ((directives? filter).getD []).filter (·.isAbout e)
  (about.foldl (Directive.closer e) none).any (e.level ≤ ·.level)

end ConstraintGraph.LogFilter
