/-! Decimal numbers as they are written: digits, perhaps after a sign. -/
namespace Portability.Text

/-- The value of a non-empty run of decimal digits. -/
def digitsValue? : List Char → Option Nat
  | [] => none
  | cs =>
    cs.foldl
      (fun value c =>
        value.bind fun n => if c.isDigit then some (10 * n + (c.toNat - '0'.toNat)) else none)
      (some 0)

/-- An unsigned number of at most `limit`; a leading `+` is allowed. -/
def parseNat? (limit : Nat) (s : String) : Option Nat :=
  let digits := match s.toList with
    | '+' :: rest => rest
    | cs => cs
  (digitsValue? digits).filter (· ≤ limit)

def maxWord32 : Nat := 4294967295

def maxWord64 : Nat := 18446744073709551615

def maxInt64 : Int := 9223372036854775807

def parseInt64? (s : String) : Option Int :=
  let value : Option Int := match s.toList with
    | '-' :: rest => (digitsValue? rest).map fun n => -Int.ofNat n
    | '+' :: rest => (digitsValue? rest).map Int.ofNat
    | cs => (digitsValue? cs).map Int.ofNat
  value.filter fun n => -maxInt64 - 1 ≤ n && n ≤ maxInt64

end Portability.Text
