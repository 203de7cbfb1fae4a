/-! Texts encoded in UTF-16, with either byte first. -/
namespace Portability.Encoding

inductive ByteOrder where
  | little
  | big
  deriving DecidableEq, Repr

def ByteOrder.unit : ByteOrder → UInt8 → UInt8 → Nat
  | little, b₀, b₁ => b₀.toNat + 256 * b₁.toNat
  | big, b₀, b₁ => 256 * b₀.toNat + b₁.toNat

def isLead (unit : Nat) : Bool := 0xD800 ≤ unit && unit < 0xDC00

def isTrailUnit (unit : Nat) : Bool := 0xDC00 ≤ unit && unit < 0xE000

/-- The character of a unit that is no first half of a pair. -/
def unitChar? (unit : Nat) : Option Char :=
  if isTrailUnit unit then none else some (Char.ofNat unit)

/-- The characters of a sequence of bytes; `lead` is the first half of a pair that waits for the
second. There is no character for a half without its partner nor for a single byte at the end. -/
def utf16From (order : ByteOrder) (lead : Option Nat) : List UInt8 → List (Option Char)
  | [] => if lead.isSome then [none] else []
  | [_] => [none]
  | b₀ :: b₁ :: rest =>
    let unit := order.unit b₀ b₁
    match lead with
    | some high =>
      if isTrailUnit unit then
        some (Char.ofNat (0x10000 + (high - 0xD800) * 0x400 + (unit - 0xDC00))) ::
          utf16From order none rest
      else if isLead unit then none :: utf16From order (some unit) rest
      else none :: some (Char.ofNat unit) :: utf16From order none rest
    | none =>
      if isLead unit then utf16From order (some unit) rest
      else unitChar? unit :: utf16From order none rest

def utf16 (order : ByteOrder) (bytes : List UInt8) : List (Option Char) :=
  utf16From order none bytes

end Portability.Encoding
