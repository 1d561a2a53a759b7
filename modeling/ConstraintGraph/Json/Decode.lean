import ConstraintGraph.Json.Canonical
import ConstraintGraph.Json.Reader
import ConstraintGraph.Binary64.Rounding
import ConstraintGraph.Binary64.Shortest
import Std.Data.ExtTreeMap
import Std.Data.ExtTreeSet

/-!
Reading domain values out of JSON. A record is an object, or an array of its fields in their order;
fields that it does not have are passed over unread, a field that is there twice is a fault. Of
several faults in a record the one that stands first is reported, and a missing field comes last of
all. A tagged record says by its tag which of several alternatives it is. It is taken up whole
before its tag is known, and what is inside it may be spelled in a few ways that are not open
elsewhere. The faults that carry a wording of their own concern bounds and variable indices.
-/

namespace ConstraintGraph

inductive DecodeError where
  | notJson
  | mismatch
  | boundNotInteger (value : Binary64)
  | boundOutOfRange (value : Nat)
  | boundText (text : String)
  | variableIndex (key : String)
deriving DecidableEq, Repr

namespace DecodeError

def message? : DecodeError → Option String
  | .notJson => none
  | .mismatch => none
  | .boundNotInteger x => some s!"bound {x.plainText} is not an integer"
  | .boundOutOfRange n => some s!"bound {n} is out of range"
  | .boundText s => some s!"invalid bound '{s}'"
  | .variableIndex key => some s!"invalid variable index '{key}'"

def unfit : Json.Outline → DecodeError
  | .broken => .notJson
  | .unreadable => .notJson
  | _ => .mismatch

end DecodeError

inductive Json.Origin where
  | text
  | value
  | tagged
deriving DecidableEq, Repr

/-- The fault of an array that is longer than the record it is read as, and of an alternative that
is neither a name nor an object with one key. A text breaks off there. -/
def Json.Origin.overrun : Json.Origin → DecodeError
  | .text => .notJson
  | .value => .mismatch
  | .tagged => .mismatch

abbrev Decoder (α : Type) := Json.Origin → Json.Outline → Except DecodeError α

namespace Decoder

def run {α : Type} (read : Decoder α) (j : Json) : Except DecodeError α :=
  read .value (.ofJson j)

def runText {α : Type} (read : Decoder α) (text : String) : Except DecodeError α := do
  let (o, rest) := Json.Outline.ofText text
  let x ← read .text o
  -- A fault in the value comes before one in what follows it.
  if Json.isEnd rest then return x else .error .notJson

end Decoder

namespace Json

def asString : Decoder String
  | _, .string s => .ok s
  | _, o => .error (.unfit o)

def asIntBetween (least greatest : Int) : Decoder Int
  | _, .int n => if least ≤ n ∧ n ≤ greatest then .ok n else .error .mismatch
  | _, o => .error (.unfit o)

def asInt64 : Decoder Int64 := fun origin o =>
  (asIntBetween Int64.minValue.toInt Int64.maxValue.toInt origin o).map Int64.ofInt

def asUInt32 : Decoder UInt32 := fun origin o =>
  (asIntBetween 0 4294967295 origin o).map fun n => UInt32.ofNat n.toNat

def asUInt64 : Decoder UInt64 := fun origin o =>
  (asIntBetween 0 18446744073709551615 origin o).map fun n => UInt64.ofNat n.toNat

def asDouble : Decoder Binary64
  | _, .double x => .ok x
  | _, .int n => .ok (Binary64.ofInt n)
  | _, o => .error (.unfit o)

def asAny : Decoder CanonicalJson := fun _ o =>
  match o.toJson? with
  | some j => .ok (.ofJson j)
  | none => .error .notJson

def asOption {α : Type} (read : Decoder α) : Decoder (Option α)
  | _, .null => .ok none
  | origin, o => (read origin o).map some

def asList {α : Type} (read : Decoder α) : Decoder (List α)
  | origin, .array items => items.mapM (read origin)
  | _, o => .error (.unfit o)

def asStringSet : Decoder (Std.ExtTreeSet String) := fun origin o =>
  (asList asString origin o).map fun items => Std.ExtTreeSet.ofList items

def asPair {α β : Type} (first : Decoder α) (second : Decoder β) : Decoder (α × β)
  | origin, .array (a :: items) => do
    let x ← first origin a
    match items with
    | [] => .error .mismatch
    | b :: more =>
      let y ← second origin b
      if more.isEmpty then return (x, y) else .error origin.overrun
  | _, o => .error (.unfit o)

def asEntries {α β : Type} (readKey : Key → Except DecodeError α) (read : Decoder β) :
    Decoder (List (α × β))
  | origin, .object members => members.mapM fun (key, value) => do
    return (← readKey key, ← read origin value)
  | _, o => .error (.unfit o)

def Key.asText (key : Key) : Except DecodeError String :=
  match key.text? with
  | some text => .ok text
  | none => .error .notJson

def Key.asUInt32 (key : Key) : Except DecodeError UInt32 := do
  -- What stands between the quotes is read like a number of its own.
  match key.spelling?.bind fun spelling => readNumber spelling.toList with
  | some (number, rest) =>
    let n ← Json.asUInt32 .text number
    if rest.isEmpty then return n else .error .notJson
  | none => .error .notJson

def asStringMap {α : Type} (read : Decoder α) : Decoder (Std.ExtTreeMap String α) :=
  fun origin o => (asEntries Key.asText read origin o).map fun entries => .ofList entries

def asIndexMap {α : Type} (read : Decoder α) : Decoder (Std.ExtTreeMap UInt32 α) :=
  fun origin o => (asEntries Key.asUInt32 read origin o).map fun entries => .ofList entries

structure Record where
  origin : Origin
  members : List (Key × Outline)
  -- It was written as an array of another length.
  misfit : Bool

/-- A part of a record. The parts are read on their own, and a fault comes with its place among the
members, or with their number when something is missing. -/
def Part (α : Type) := Record → Except (Nat × DecodeError) α

namespace Part

def first (a b : Nat × DecodeError) : Nat × DecodeError := if b.1 < a.1 then b else a

def seq {α β : Type} (p : Part (α → β)) (q : Unit → Part α) : Part β := fun r =>
  match p r, q () r with
  | .ok f, .ok x => .ok (f x)
  | .error e, .ok _ => .error e
  | .ok _, .error e => .error e
  | .error e, .error e' => .error (first e e')

instance : Applicative Part where
  pure x := fun _ => .ok x
  seq := seq

def field? {α : Type} (name : String) (missing : Except DecodeError α) (read : Decoder α) :
    Part α := fun r =>
  match r.members.zipIdx.filter fun ((key, _), _) => key.text? == some name with
  | [] => missing.mapError (r.members.length, ·)
  | ((_, o), place) :: again =>
    -- A field that is there twice is a fault at the second place, once the first one is read.
    match read r.origin o, again with
    | .error e, _ => .error (place, e)
    | .ok x, [] => .ok x
    | .ok _, (_, place) :: _ => .error (place, .mismatch)

def field {α : Type} (name : String) (read : Decoder α) : Part α :=
  field? name (.error .mismatch) read

def fieldOr {α : Type} (name : String) (absent : α) (read : Decoder α) : Part α :=
  field? name (.ok absent) read

def fieldOption {α : Type} (name : String) (read : Decoder α) : Part (Option α) :=
  fieldOr name none (asOption read)

def others (names : List String) : Part Record := fun r =>
  -- They are taken up whole before it is known what they are.
  let rest := r.members.zipIdx.filter fun ((key, _), _) => !key.text?.any names.contains
  match rest.find? fun ((key, o), _) => key.text?.isNone || o.toJson?.isNone with
  | some (_, place) => .error (place, .notJson)
  | none => .ok ⟨.tagged, rest.map (·.1), r.misfit⟩

def unbroken : Part Unit := fun r =>
  match r.members.zipIdx.find? fun ((key, o), _) => key.text?.isNone || o.isBroken with
  | some (_, place) => .error (place, .notJson)
  | none => .ok ()

end Part

def Record.read {α : Type} (r : Record) (part : Part α) : Except DecodeError α := do
  let x ← ((part <* Part.unbroken) r).mapError (·.2)
  if r.misfit then .error r.origin.overrun else return x

def asObject {α : Type} (part : Part α) : Decoder α
  | origin, .object members => (Record.mk origin members false).read part
  | _, o => .error (.unfit o)

/-- A record with the given field names. Written as an array, it has its fields in their order, and
the last ones may be left out. -/
def asRecord {α : Type} (names : List String) (part : Part α) : Decoder α
  | origin, .object members => (Record.mk origin members false).read part
  | origin, .array items =>
    (Record.mk origin ((names.map .ofText).zip items) (names.length < items.length)).read part
  | _, o => .error (.unfit o)

/-- One of the alternatives that a tagged record may be. Written as an array, it has the tag and
then its fields in their order, of which the last ones may be left out if they are defaulted. -/
structure Alternative (α : Type) where
  tag : String
  required : List String
  defaulted : List String
  content : Part α

def asTag {α : Type} (alternatives : List (Alternative α)) : Decoder (Alternative α) :=
  fun origin o =>
    let found? :=
      match origin, o with
      | _, .string tag => alternatives.find? (·.tag == tag)
      -- Inside a tagged record a tag may be the position of the alternative.
      | .tagged, .int n => if 0 ≤ n then alternatives[n.toNat]? else none
      | _, _ => none
    match found? with
    | some alternative => .ok alternative
    | none => .error (.unfit o)

def Record.alternative {α : Type} (r : Record) (name : String)
    (alternatives : List (Alternative α)) : Except DecodeError α := do
  let (found, rest) ←
    r.read (Prod.mk <$> Part.field name (asTag alternatives) <*> Part.others [name])
  rest.read found.content

def asTagged {α : Type} (name : String) (alternatives : List (Alternative α)) : Decoder α
  | origin, .object members => (Record.mk origin members false).alternative name alternatives
  | origin, .array (tag :: items) => do
    let found ← asTag alternatives origin tag
    if items.any (·.toJson?.isNone) then .error .notJson
    let names := found.required ++ found.defaulted
    let misfit := items.length < found.required.length || names.length < items.length
    (Record.mk .tagged ((names.map .ofText).zip items) misfit).read found.content
  | _, o => .error (.unfit o)

/-- One of several alternatives with a name, written as `"name"`, or as an object with that one key
and with what the alternative carries. -/
def asVariant {α : Type} (read : String → Decoder α) : Decoder α
  | origin, .string name => read name origin .null
  | origin, .object ((key, content) :: more) => do
    let x ← read (← key.asText) origin content
    if more.isEmpty then return x else .error origin.overrun
  | _, .broken => .error .notJson
  | _, .unreadable => .error .notJson
  | origin, _ => .error origin.overrun

def asNothing : Decoder Unit
  | _, .null => .ok ()
  -- Inside a tagged record nothing may be written in this way, too.
  | .tagged, .object [] => .ok ()
  | _, o => .error (.unfit o)

def asEnum {α : Type} (table : List (String × α)) : Decoder α := asVariant fun name origin o =>
  match table.lookup name with
  | some x => (asNothing origin o).map fun _ => x
  | none => .error .mismatch

end Json
end ConstraintGraph
