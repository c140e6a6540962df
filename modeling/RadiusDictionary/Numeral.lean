/-! # Numerals

A dictionary writes numbers in decimal, or in hexadecimal after `0x` or `0X`. `unsigned?` reads the
numbers of attributes and vendors, `signed?` those of named values. A numeral that does not fit its
word is not a number. Numbers are always written in decimal. -/

namespace RadiusDictionary.Numeral

/-- A number in decimal. -/
def decimal (n : Nat) : String := .ofList (Nat.toDigits 10 n)

/-- A signed number in decimal. -/
def signedDecimal (n : Int) : String := if n < 0 then "-" ++ decimal n.natAbs else decimal n.natAbs

/-- The value of a digit below `radix`; letters count in either case. -/
def digit? (radix : Nat) (c : Char) : Option Nat :=
  let value? :=
    if '0' ≤ c && c ≤ '9' then some (c.toNat - 48)
    else if 'a' ≤ c && c ≤ 'z' then some (c.toNat - 87)
    else if 'A' ≤ c && c ≤ 'Z' then some (c.toNat - 55)
    else none
  value?.filter (· < radix)

/-- The value of a numeral: one digit or more, and nothing else. -/
def natural? (radix : Nat) (cs : List Char) : Option Nat :=
  if cs.isEmpty then none
  else cs.foldlM (fun value c => (digit? radix c).map (radix * value + ·)) 0

/-- The radix that a numeral announces, and what follows the announcement. -/
def splitRadix : List Char → Nat × List Char
  | '0' :: 'x' :: cs => (16, cs)
  | '0' :: 'X' :: cs => (16, cs)
  | cs => (10, cs)

/-- A numeral after at most one plus sign. -/
def positive? (radix : Nat) : List Char → Option Nat
  | '+' :: cs => natural? radix cs
  | cs => natural? radix cs

/-- A numeral after at most one sign. -/
def integer? (radix : Nat) : List Char → Option Int
  | '-' :: cs => (natural? radix cs).map fun n => -(n : Int)
  | cs => (positive? radix cs).map Int.ofNat

/-- The 32-bit number that a text denotes. -/
def unsigned? (text : String) : Option UInt32 :=
  let (radix, body) := splitRadix text.toList
  ((positive? radix body).filter (· < UInt32.size)).map UInt32.ofNat

/-- Whether a minus sign comes first, and what follows it. -/
def splitMinus : List Char → Bool × List Char
  | '-' :: cs => (true, cs)
  | cs => (false, cs)

/-- Whether a number fits 64 bits with a sign. -/
def fitsInt64 (n : Int) : Bool := Int64.minValue.toInt ≤ n && n ≤ Int64.maxValue.toInt

/-- The signed 64-bit number that a text denotes. A minus sign may stand before the radix, and a
sign of either kind after it. -/
def signed? (text : String) : Option Int64 :=
  let (negated, rest) := splitMinus text.toList
  let (radix, body) := splitRadix rest
  ((integer? radix body).filter fitsInt64).map fun n => Int64.ofInt (if negated then -n else n)

end RadiusDictionary.Numeral
