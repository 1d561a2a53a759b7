import ConstraintGraph.Text.Basic

namespace ConstraintGraph.Toml

def isPlain (c : Char) : Bool :=
  c == '\t' || (0x20 ≤ c.toNat && c.toNat != 0x7F)

def isBlank (c : Char) : Bool := c == ' ' || c == '\t'

def escaped? : Char → Option Char
  | '\"' => some '\"'
  | '\\' => some '\\'
  | 'b' => some '\x08'
  | 'f' => some '\x0c'
  | 'n' => some '\n'
  | 'r' => some '\r'
  | 't' => some '\t'
  | _ => none

def coded? (digits : List Char) : Option Char := do
  let n ← Text.hexValue? digits
  if n.isValidChar then some (Char.ofNat n) else none

def readEscape : List Char → Option (Char × List Char)
  | 'u' :: a :: b :: c :: d :: rest => (coded? [a, b, c, d]).map (·, rest)
  | 'U' :: a :: b :: c :: d :: e :: f :: g :: h :: rest =>
    (coded? [a, b, c, d, e, f, g, h]).map (·, rest)
  | c :: rest => (escaped? c).map (·, rest)
  | [] => none

/-- The first of a text's characters is taken away. -/
theorem length_readEscape {cs rest : List Char} {c : Char} (h : readEscape cs = some (c, rest)) :
    rest.length < cs.length := by
  unfold readEscape at h
  split at h <;> simp only [Option.map_eq_some_iff, Prod.mk.injEq, reduceCtorEq] at h <;>
    obtain ⟨_, _, _, rfl⟩ := h <;> simp only [List.length_cons] <;> omega

def readBasic (acc : List Char) (cs : List Char) : Option (String × List Char) :=
  match cs with
  | [] => none
  | '\"' :: rest => some (String.ofList acc.reverse, rest)
  | '\\' :: rest =>
    match _h : readEscape rest with
    | some (c, rest) => readBasic (c :: acc) rest
    | none => none
  | c :: rest => if isPlain c then readBasic (c :: acc) rest else none
termination_by cs.length
decreasing_by
  · have := length_readEscape _h
    simp only [List.length_cons]
    omega
  · simp

def readLiteral (acc : List Char) : List Char → Option (String × List Char)
  | [] => none
  | '\x27' :: rest => some (String.ofList acc.reverse, rest)
  | c :: rest => if isPlain c then readLiteral (c :: acc) rest else none

/-- The end of a string over several lines. One or two more quotes than the three that close it
belong to the string. -/
def close (quote : Char) (acc rest : List Char) : String × List Char :=
  let extra := (rest.take 2).takeWhile (· == quote)
  (String.ofList (acc.reverse ++ extra), rest.drop extra.length)

def readLineBreak : List Char → Option (List Char)
  | '\n' :: rest => some rest
  | '\r' :: '\n' :: rest => some rest
  | _ => none

theorem length_readLineBreak {cs rest : List Char} (h : readLineBreak cs = some rest) :
    rest.length < cs.length := by
  unfold readLineBreak at h
  split at h <;> grind

def skipMargin (cs : List Char) : List Char :=
  match cs with
  | ' ' :: rest => skipMargin rest
  | '\t' :: rest => skipMargin rest
  | '\n' :: rest => skipMargin rest
  | '\r' :: '\n' :: rest => skipMargin rest
  | cs => cs

theorem length_skipMargin (cs : List Char) : (skipMargin cs).length ≤ cs.length := by
  fun_induction skipMargin cs <;> grind

/-- After a backslash that ends a line, the text from the next character on that is neither a blank
nor a line end. -/
def skipContinuation (cs : List Char) : Option (List Char) :=
  (readLineBreak (cs.dropWhile isBlank)).map skipMargin

theorem length_dropWhile_le {α : Type} (p : α → Bool) (xs : List α) :
    (xs.dropWhile p).length ≤ xs.length :=
  (List.dropWhile_sublist p).length_le

theorem length_skipContinuation {cs rest : List Char} (h : skipContinuation cs = some rest) :
    rest.length < cs.length := by
  obtain ⟨line, hl, rfl⟩ := Option.map_eq_some_iff.1 h
  have := length_readLineBreak hl
  have := length_skipMargin line
  have := length_dropWhile_le isBlank cs
  omega

/-- A string in tripled double quotes. A line end is kept as a line feed in either form, and
skipped after a backslash, together with all blanks that follow. -/
def readBasicLines (acc : List Char) (cs : List Char) : Option (String × List Char) :=
  match cs with
  | [] => none
  | '\"' :: '\"' :: '\"' :: rest => some (close '\"' acc rest)
  | '\\' :: rest =>
    match _h : skipContinuation rest with
    | some rest => readBasicLines acc rest
    | none =>
      match _h : readEscape rest with
      | some (c, rest) => readBasicLines (c :: acc) rest
      | none => none
  | '\n' :: rest => readBasicLines ('\n' :: acc) rest
  | '\r' :: '\n' :: rest => readBasicLines ('\n' :: acc) rest
  | c :: rest => if isPlain c then readBasicLines (c :: acc) rest else none
termination_by cs.length
decreasing_by
  · have := length_skipContinuation _h
    simp only [List.length_cons]
    omega
  · have := length_readEscape _h
    simp only [List.length_cons]
    omega
  all_goals simp only [List.length_cons]; omega

def readLiteralLines (acc : List Char) : List Char → Option (String × List Char)
  | [] => none
  | '\x27' :: '\x27' :: '\x27' :: rest => some (close '\x27' acc rest)
  | '\n' :: rest => readLiteralLines ('\n' :: acc) rest
  | '\r' :: '\n' :: rest => readLiteralLines ('\n' :: acc) rest
  | c :: rest => if isPlain c then readLiteralLines (c :: acc) rest else none

def skipLineBreak (cs : List Char) : List Char := (readLineBreak cs).getD cs

/-- A string of any of the four kinds. A line end right after tripled quotes is not part of it. -/
def readString : List Char → Option (String × List Char)
  | '\"' :: '\"' :: '\"' :: rest => readBasicLines [] (skipLineBreak rest)
  | '\"' :: rest => readBasic [] rest
  | '\x27' :: '\x27' :: '\x27' :: rest => readLiteralLines [] (skipLineBreak rest)
  | '\x27' :: rest => readLiteral [] rest
  | _ => none

end ConstraintGraph.Toml
