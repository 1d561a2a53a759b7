namespace ConstraintGraph.Text

/-- What the first byte of a character of several bytes says: how many bytes follow, between which
limits the next one lies, and the bits that it brings. -/
def utf8Lead? (b : UInt8) : Option (Nat × UInt8 × UInt8 × Nat) :=
  if 0xC2 ≤ b ∧ b ≤ 0xDF then some (1, 0x80, 0xBF, b.toNat % 32)
  else if b = 0xE0 then some (2, 0xA0, 0xBF, 0)
  else if b = 0xED then some (2, 0x80, 0x9F, 13)
  else if 0xE1 ≤ b ∧ b ≤ 0xEF then some (2, 0x80, 0xBF, b.toNat % 16)
  else if b = 0xF0 then some (3, 0x90, 0xBF, 0)
  else if 0xF1 ≤ b ∧ b ≤ 0xF3 then some (3, 0x80, 0xBF, b.toNat % 8)
  else if b = 0xF4 then some (3, 0x80, 0x8F, 4)
  else none

def utf8Tail : Nat → UInt8 → UInt8 → Nat → List UInt8 → Option Char × List UInt8
  | 0, _, _, n, rest => (some (Char.ofNat n), rest)
  | count + 1, least, greatest, n, b :: rest =>
    if least ≤ b ∧ b ≤ greatest then utf8Tail count 0x80 0xBF (64 * n + b.toNat % 64) rest
    else (none, b :: rest)
  | _ + 1, _, _, _, [] => (none, [])

theorem length_utf8Tail (count : Nat) (least greatest : UInt8) (n : Nat) (bs : List UInt8) :
    (utf8Tail count least greatest n bs).2.length ≤ bs.length := by
  fun_induction utf8Tail count least greatest n bs <;> simp_all only [List.length_cons] <;> omega

def utf8Part (b : UInt8) (rest : List UInt8) : Option Char × List UInt8 :=
  if b < 0x80 then (some (Char.ofNat b.toNat), rest)
  else
    match utf8Lead? b with
    | none => (none, rest)
    | some (count, least, greatest, n) => utf8Tail count least greatest n rest

theorem length_utf8Part (b : UInt8) (rest : List UInt8) :
    (utf8Part b rest).2.length ≤ rest.length := by
  unfold utf8Part
  split
  · exact Nat.le_refl _
  · split
    · exact Nat.le_refl _
    · exact length_utf8Tail ..

def utf8Parts : List UInt8 → List (Option Char)
  | [] => []
  | b :: rest => (utf8Part b rest).1 :: utf8Parts (utf8Part b rest).2
termination_by bs => bs.length
decreasing_by
  have := length_utf8Part b rest
  simp only [List.length_cons]
  omega

def ofUtf8? (bs : List UInt8) : Option String :=
  ((utf8Parts bs).mapM id).map String.ofList

def ofUtf8 (bs : List UInt8) : String :=
  String.ofList ((utf8Parts bs).map (·.getD '\uFFFD'))

end ConstraintGraph.Text
