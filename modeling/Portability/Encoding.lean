import Portability.Encoding.Utf16
import Portability.Encoding.Utf8

/-! Scripts as bytes. A byte order mark tells the encoding; a script without one is in UTF-8 or
else in the Western code page 1252. -/
namespace Portability.Encoding

/-- The character in place of bytes that stand for none. -/
def replacement : Char := Char.ofNat 0xFFFD

/-- The text of characters that were read, with replacements where there is none. -/
def textOf (chars : List (Option Char)) : String :=
  String.ofList (chars.map (·.getD replacement))

/-- The code points of the bytes 128 to 159 in the code page; five of them stand for themselves. -/
def westernPoints : List Nat :=
  [0x20AC, 0x81, 0x201A, 0x0192, 0x201E, 0x2026, 0x2020, 0x2021, 0x02C6, 0x2030, 0x0160, 0x2039,
   0x0152, 0x8D, 0x017D, 0x8F, 0x90, 0x2018, 0x2019, 0x201C, 0x201D, 0x2022, 0x2013, 0x2014,
   0x02DC, 0x2122, 0x0161, 0x203A, 0x0153, 0x9D, 0x017E, 0x0178]

def westernChar (b : UInt8) : Char :=
  let n := b.toNat
  if n < 0x80 then Char.ofNat n else Char.ofNat (westernPoints[n - 0x80]?.getD n)

def western (bytes : List UInt8) : String := String.ofList (bytes.map westernChar)

/-- The text of a script. -/
def decode : List UInt8 → String
  | 0xEF :: 0xBB :: 0xBF :: rest => textOf (utf8 rest)
  | 0xFF :: 0xFE :: rest => textOf (utf16 .little rest)
  | 0xFE :: 0xFF :: rest => textOf (utf16 .big rest)
  | bytes => (utf8Text? bytes).getD (western bytes)

end Portability.Encoding
