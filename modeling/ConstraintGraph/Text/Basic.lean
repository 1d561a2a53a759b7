namespace ConstraintGraph.Text

def isBlank (c : Char) : Bool :=
  let n := c.toNat
  (0x09 ≤ n && n ≤ 0x0D) || n == 0x20 || n == 0x85 || n == 0xA0 || n == 0x1680 ||
    (0x2000 ≤ n && n ≤ 0x200A) || n == 0x2028 || n == 0x2029 || n == 0x202F || n == 0x205F ||
    n == 0x3000

def trimChars (cs : List Char) : List Char :=
  ((cs.dropWhile isBlank).reverse.dropWhile isBlank).reverse

def trim (s : String) : String :=
  String.ofList (trimChars s.toList)

def hexDigit (n : Nat) : Char :=
  if n < 10 then Char.ofNat (48 + n) else Char.ofNat (87 + n)

def hexDigit? (c : Char) : Option Nat :=
  if '0' ≤ c ∧ c ≤ '9' then some (c.toNat - 48)
  else if 'a' ≤ c ∧ c ≤ 'f' then some (c.toNat - 87)
  else if 'A' ≤ c ∧ c ≤ 'F' then some (c.toNat - 55)
  else none

def hexValue? (cs : List Char) : Option Nat :=
  cs.foldlM (fun n c => (hexDigit? c).map (16 * n + ·)) 0

def greatestInt64 : Nat := 9223372036854775807

def greatestUInt64 : Nat := 18446744073709551615

def digitsValue (cs : List Char) : Nat :=
  cs.foldl (fun n c => 10 * n + (c.toNat - 48)) 0

def isDigits (cs : List Char) : Bool :=
  !cs.isEmpty && cs.all Char.isDigit

def natural? : List Char → Option Nat
  | '+' :: cs => if isDigits cs then some (digitsValue cs) else none
  | cs => if isDigits cs then some (digitsValue cs) else none

def integer? : List Char → Option Int
  | '-' :: cs => if isDigits cs then some (-(digitsValue cs : Int)) else none
  | cs => (natural? cs).map Int.ofNat

def naturalUpTo? (greatest : Nat) (s : String) : Option Nat :=
  (natural? s.toList).filter (· ≤ greatest)

def int64? (s : String) : Option Int64 :=
  (integer? s.toList).bind fun n =>
    if Int64.minValue.toInt ≤ n ∧ n ≤ Int64.maxValue.toInt then some (Int64.ofInt n) else none

def uint32? (s : String) : Option UInt32 :=
  (naturalUpTo? 4294967295 s).map UInt32.ofNat

end ConstraintGraph.Text
