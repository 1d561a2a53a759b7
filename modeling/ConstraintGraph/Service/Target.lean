import ConstraintGraph.Text.Basic
import ConstraintGraph.Text.Utf8

namespace ConstraintGraph

def Text.percentBytes : List Char → List UInt8
  | [] => []
  | '%' :: a :: b :: rest =>
    match Text.hexValue? [a, b] with
    | some n => UInt8.ofNat n :: percentBytes rest
    -- Without two digits behind it the sign is itself.
    | none => 0x25 :: percentBytes (a :: b :: rest)
  | c :: rest => c.toString.toUTF8.toList ++ percentBytes rest

structure Target where
  -- The names between the slashes of the path, as they are written.
  path : List (List Char)
  query : List (String × String)
deriving DecidableEq, Repr, Inhabited

namespace Target

def queryText (cs : List Char) : String :=
  Text.ofUtf8 (Text.percentBytes (cs.map fun c => if c == '+' then ' ' else c))

def parseQuery (cs : List Char) : List (String × String) :=
  ((cs.splitOn '&').filter (!·.isEmpty)).map fun pair =>
    let name := pair.takeWhile (· != '=')
    (queryText name, queryText ((pair.drop name.length).drop 1))

/-- The target that a text writes. A path begins with a slash, and has no name in front of it. -/
def ofText (s : String) : Target :=
  let path := s.toList.takeWhile (· != '?')
  ⟨path.splitOn '/', parseQuery ((s.toList.drop path.length).drop 1)⟩

def pathText? (cs : List Char) : Option String := Text.ofUtf8? (Text.percentBytes cs)

end Target
end ConstraintGraph
