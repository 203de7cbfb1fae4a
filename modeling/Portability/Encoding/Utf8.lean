/-! Texts encoded in UTF-8. -/
namespace Portability.Encoding

def isTrail (low high : Nat) (b : UInt8) : Bool := low ≤ b.toNat && b.toNat ≤ high

def trailBits (b : UInt8) : Nat := b.toNat % 64

/-- The bounds of the second byte after a first byte. They leave out overlong forms, surrogates and
what lies beyond the last code point. -/
def secondBounds (first : Nat) : Nat × Nat :=
  if first = 0xE0 then (0xA0, 0xBF)
  else if first = 0xED then (0x80, 0x9F)
  else if first = 0xF0 then (0x90, 0xBF)
  else if first = 0xF4 then (0x80, 0x8F)
  else (0x80, 0xBF)

/-- The characters of a sequence of bytes. Where the bytes are malformed there is no character:
one for each longest run that begins a character but is not continued, or for a byte that begins
none. -/
def utf8 : List UInt8 → List (Option Char)
  | [] => []
  | b :: rest =>
    let first := b.toNat
    if first < 0x80 then some (Char.ofNat first) :: utf8 rest
    else if first < 0xC2 ∨ 0xF4 < first then none :: utf8 rest
    else
      match rest with
      | [] => [none]
      | b₁ :: rest₁ =>
        let bounds := secondBounds first
        if !isTrail bounds.1 bounds.2 b₁ then none :: utf8 (b₁ :: rest₁)
        else if first < 0xE0 then
          some (Char.ofNat ((first - 0xC0) * 64 + trailBits b₁)) :: utf8 rest₁
        else
          match rest₁ with
          | [] => [none]
          | b₂ :: rest₂ =>
            if !isTrail 0x80 0xBF b₂ then none :: utf8 (b₂ :: rest₂)
            else if first < 0xF0 then
              some (Char.ofNat ((first - 0xE0) * 4096 + trailBits b₁ * 64 + trailBits b₂)) ::
                utf8 rest₂
            else
              match rest₂ with
              | [] => [none]
              | b₃ :: rest₃ =>
                if !isTrail 0x80 0xBF b₃ then none :: utf8 (b₃ :: rest₃)
                else
                  some (Char.ofNat ((first - 0xF0) * 262144 + trailBits b₁ * 4096 +
                    trailBits b₂ * 64 + trailBits b₃)) :: utf8 rest₃

/-- The text of a sequence of bytes without malformed parts. -/
def utf8Text? (bytes : List UInt8) : Option String :=
  ((utf8 bytes).mapM id).map String.ofList

end Portability.Encoding
