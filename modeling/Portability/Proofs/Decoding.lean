import Portability.Encoding
import Portability.Proofs.Numerals
import Portability.Proofs.Text

/-! Scripts read back from their bytes. A text comes back from each encoding with a byte order mark,
and from UTF-8 without one; bytes that are neither marked nor UTF-8 give one character each. -/
namespace Portability.Encoding

/-! ### UTF-8 -/

/-- The bytes of a code point: its bits, six in every byte behind the first one, in as few bytes as
hold them. Surrogates have none. -/
inductive Spelled : Nat → List UInt8 → Prop
  | one {n : Nat} {b : UInt8} (hn : n < 0x80) (h : b.toNat = n) : Spelled n [b]
  | two {n : Nat} {b b₁ : UInt8} (hn : 0x80 ≤ n ∧ n < 0x800) (h : b.toNat = 0xC0 + n / 64)
      (h₁ : b₁.toNat = 0x80 + n % 64) : Spelled n [b, b₁]
  | three {n : Nat} {b b₁ b₂ : UInt8}
      (hn : 0x800 ≤ n ∧ n < 0xD800 ∨ 0xDFFF < n ∧ n < 0x10000) (h : b.toNat = 0xE0 + n / 4096)
      (h₁ : b₁.toNat = 0x80 + n / 64 % 64) (h₂ : b₂.toNat = 0x80 + n % 64) :
      Spelled n [b, b₁, b₂]
  | four {n : Nat} {b b₁ b₂ b₃ : UInt8} (hn : 0x10000 ≤ n ∧ n < 0x110000)
      (h : b.toNat = 0xF0 + n / 262144) (h₁ : b₁.toNat = 0x80 + n / 4096 % 64)
      (h₂ : b₂.toNat = 0x80 + n / 64 % 64) (h₃ : b₃.toNat = 0x80 + n % 64) :
      Spelled n [b, b₁, b₂, b₃]

variable {n : Nat} {bs rest : List UInt8} {cs : List Char}

theorem spelled_utf8EncodeChar (c : Char) : Spelled c.toNat (String.utf8EncodeChar c) := by
  have hvalid : c.toNat < 0xD800 ∨ 0xDFFF < c.toNat ∧ c.toNat < 0x110000 := c.valid
  show Spelled c.toNat (String.utf8EncodeChar c)
  rw [String.utf8EncodeChar]
  change Spelled c.toNat (if c.toNat ≤ 127 then _ else if c.toNat ≤ 2047 then _
    else if c.toNat ≤ 65535 then _ else _)
  split
  · exact .one (by omega) (by simp; omega)
  · split
    · exact .two (by omega) (by simp; omega) (by simp; omega)
    · split
      · exact .three (by omega) (by simp; omega) (by simp; omega) (by simp; omega)
      · exact .four (by omega) (by simp; omega) (by simp; omega) (by simp; omega) (by simp; omega)

theorem Spelled.isValidChar (h : Spelled n bs) : n.isValidChar := by
  cases h with
  | one hn => exact Or.inl (by omega)
  | two hn => exact Or.inl (by omega)
  | three hn =>
    rcases hn with hn | hn
    · exact Or.inl (by omega)
    · exact Or.inr (by omega)
  | four hn => exact Or.inr (by omega)

/-- A code point has one spelling. -/
theorem Spelled.unique {cs : List UInt8} (h : Spelled n bs) (h' : Spelled n cs) : bs = cs := by
  cases h <;> cases h' <;> first
    | omega
    | simp only [List.cons.injEq, ← UInt8.toNat_inj, and_true]; omega

theorem Spelled.eq_utf8EncodeChar (h : Spelled n bs) :
    bs = String.utf8EncodeChar (Char.ofNat n) := by
  have hn : (Char.ofNat n).toNat = n := by rw [Char.toNat_ofNat, if_pos h.isValidChar]
  have hchar := spelled_utf8EncodeChar (Char.ofNat n)
  rw [hn] at hchar
  exact h.unique hchar

theorem isTrail_eq_true {low high : Nat} {b : UInt8} :
    isTrail low high b = true ↔ low ≤ b.toNat ∧ b.toNat ≤ high := by
  simp [isTrail]

/-- The bytes that may come second are the continuation bytes but for those that would make a form
overlong, a surrogate or no code point. -/
theorem isTrail_secondBounds {first : Nat} {b : UInt8} :
    isTrail (secondBounds first).1 (secondBounds first).2 b = true ↔
      (0x80 ≤ b.toNat ∧ b.toNat ≤ 0xBF) ∧ (first = 0xE0 → 0xA0 ≤ b.toNat) ∧
        (first = 0xED → b.toNat ≤ 0x9F) ∧ (first = 0xF0 → 0x90 ≤ b.toNat) ∧
        (first = 0xF4 → b.toNat ≤ 0x8F) := by
  rw [isTrail_eq_true, secondBounds]
  split_ifs <;> dsimp only <;> omega

/-- What is spelled is read as its code point. -/
theorem utf8_append (h : Spelled n bs) (rest : List UInt8) :
    utf8 (bs ++ rest) = some (Char.ofNat n) :: utf8 rest := by
  cases h with
  | @one b hn h =>
    subst h
    rw [List.cons_append, List.nil_append, utf8.eq_def]
    dsimp only
    rw [if_pos hn]
  | @two b b₁ hn h h₁ =>
    have hascii : ¬ b.toNat < 0x80 := by omega
    have hlead : ¬ (b.toNat < 0xC2 ∨ 0xF4 < b.toNat) := by omega
    have htrail : isTrail (secondBounds b.toNat).1 (secondBounds b.toNat).2 b₁ = true :=
      isTrail_secondBounds.mpr (by omega)
    have hvalue : (b.toNat - 0xC0) * 64 + trailBits b₁ = n := by
      rw [trailBits]
      omega
    rw [List.cons_append, List.cons_append, List.nil_append, utf8.eq_def]
    dsimp only
    rw [if_neg hascii, if_neg hlead]
    simp only [htrail, Bool.not_true, Bool.false_eq_true, if_false]
    rw [if_pos (by omega), hvalue]
  | @three b b₁ b₂ hn h h₁ h₂ =>
    have hascii : ¬ b.toNat < 0x80 := by omega
    have hlead : ¬ (b.toNat < 0xC2 ∨ 0xF4 < b.toNat) := by omega
    have htrail : isTrail (secondBounds b.toNat).1 (secondBounds b.toNat).2 b₁ = true :=
      isTrail_secondBounds.mpr (by omega)
    have htrail₂ : isTrail 0x80 0xBF b₂ = true := isTrail_eq_true.mpr (by omega)
    have hvalue : (b.toNat - 0xE0) * 4096 + trailBits b₁ * 64 + trailBits b₂ = n := by
      simp only [trailBits]
      omega
    rw [List.cons_append, List.cons_append, List.cons_append, List.nil_append,
      utf8.eq_def]
    dsimp only
    rw [if_neg hascii, if_neg hlead]
    simp only [htrail, htrail₂, Bool.not_true, Bool.false_eq_true, if_false]
    rw [if_neg (by omega), if_pos (by omega), hvalue]
  | @four b b₁ b₂ b₃ hn h h₁ h₂ h₃ =>
    have hascii : ¬ b.toNat < 0x80 := by omega
    have hlead : ¬ (b.toNat < 0xC2 ∨ 0xF4 < b.toNat) := by omega
    have htrail : isTrail (secondBounds b.toNat).1 (secondBounds b.toNat).2 b₁ = true :=
      isTrail_secondBounds.mpr (by omega)
    have htrail₂ : isTrail 0x80 0xBF b₂ = true := isTrail_eq_true.mpr (by omega)
    have htrail₃ : isTrail 0x80 0xBF b₃ = true := isTrail_eq_true.mpr (by omega)
    have hvalue : (b.toNat - 0xF0) * 262144 + trailBits b₁ * 4096 + trailBits b₂ * 64 +
        trailBits b₃ = n := by
      simp only [trailBits]
      omega
    rw [List.cons_append, List.cons_append, List.cons_append, List.cons_append, List.nil_append,
      utf8.eq_def]
    dsimp only
    rw [if_neg hascii, if_neg hlead]
    simp only [htrail, htrail₂, htrail₃, Bool.not_true, Bool.false_eq_true, if_false]
    rw [if_neg (by omega), if_neg (by omega), hvalue]

theorem utf8_flatMap (cs : List Char) : utf8 (cs.flatMap String.utf8EncodeChar) = cs.map some := by
  induction cs with
  | nil => rfl
  | cons c cs ih =>
    rw [List.flatMap_cons, utf8_append (spelled_utf8EncodeChar c), ih, Char.ofNat_toNat]
    rfl

/-- A character at the head of what is read has been spelled. -/
theorem Spelled.flatMap_eq (h : Spelled n bs)
    (hcs : some (Char.ofNat n) :: utf8 rest = cs.map some)
    (ih : ∀ ds : List Char, utf8 rest = ds.map some → rest = ds.flatMap String.utf8EncodeChar) :
    bs ++ rest = cs.flatMap String.utf8EncodeChar := by
  cases cs with
  | nil => cases hcs
  | cons c cs =>
    simp only [List.map_cons, List.cons.injEq, Option.some.injEq] at hcs
    obtain ⟨rfl, hrest⟩ := hcs
    rw [List.flatMap_cons, ← h.eq_utf8EncodeChar, ← ih cs hrest]

/-- Bytes in which nothing is malformed are the spellings of the characters that are read. -/
theorem eq_flatMap_of_utf8 (h : utf8 bs = cs.map some) :
    bs = cs.flatMap String.utf8EncodeChar := by
  have hmalformed : ∀ {more : List (Option Char)} {cs : List Char}, none :: more ≠ cs.map some := by
    intro more cs hnone
    cases cs <;> cases hnone
  fun_induction utf8 bs generalizing cs
  case case1 =>
    cases cs with
    | nil => rfl
    | cons c cs => cases h
  case case2 hascii ih => exact (Spelled.one hascii rfl).flatMap_eq h fun ds h => ih h
  case case6 b first hascii hlead b₁ rest bounds htrail htwo ih =>
    have htrail := isTrail_secondBounds.mp (by simpa using htrail)
    simp only [trailBits] at h
    exact (Spelled.two (by omega) (by omega) (by omega)).flatMap_eq h fun ds h => ih h
  case case9 b first hascii hlead b₁ bounds htrail htwo b₂ rest htrail₂ hthree ih =>
    have htrail := isTrail_secondBounds.mp (by simpa using htrail)
    have htrail₂ := isTrail_eq_true.mp (by simpa using htrail₂)
    simp only [trailBits] at h
    exact (Spelled.three (by omega) (by omega) (by omega) (by omega)).flatMap_eq h fun ds h => ih h
  case case12 b first hascii hlead b₁ bounds htrail htwo b₂ htrail₂ hthree b₃ rest htrail₃ ih =>
    have htrail := isTrail_secondBounds.mp (by simpa using htrail)
    have htrail₂ := isTrail_eq_true.mp (by simpa using htrail₂)
    have htrail₃ := isTrail_eq_true.mp (by simpa using htrail₃)
    simp only [trailBits] at h
    exact (Spelled.four (by omega) (by omega) (by omega) (by omega) (by omega)).flatMap_eq h
      fun ds h => ih h
  all_goals exact absurd h hmalformed

theorem utf8_eq_map_some_iff : utf8 bs = cs.map some ↔ bs = cs.flatMap String.utf8EncodeChar := by
  constructor
  · exact eq_flatMap_of_utf8
  · rintro rfl
    exact utf8_flatMap cs

/-- Bytes are read as a text just when they are that text in UTF-8. -/
theorem utf8Text?_eq_some_iff {text : String} :
    utf8Text? bs = some text ↔ bs = Text.bytes text := by
  have hmap : ∀ {chars : List (Option Char)} {cs : List Char},
      chars.mapM id = some cs ↔ chars = cs.map some := by
    intro chars cs
    rw [Version.mapM_eq_some_iff_forall₂, ← List.forall₂_eq_eq_eq, List.forall₂_map_right_iff]
    rfl
  have htext : ∀ cs : List Char, Text.bytes (String.ofList cs) = cs.flatMap String.utf8EncodeChar :=
    Text.bytes_ofList
  simp only [utf8Text?, Option.map_eq_some_iff, hmap, utf8_eq_map_some_iff]
  constructor
  · rintro ⟨cs, rfl, rfl⟩
    exact (htext cs).symm
  · rintro rfl
    exact ⟨text.toList, by rw [← htext, String.ofList_toList], String.ofList_toList⟩

theorem isValidUTF8_iff :
    (ByteArray.mk bs.toArray).IsValidUTF8 ↔ ∃ text, bs = Text.bytes text := by
  constructor
  · rintro ⟨cs, h⟩
    refine ⟨String.ofList cs, ?_⟩
    have := congrArg (fun a : ByteArray => a.data.toList) h
    simpa [Text.bytes_ofList, List.utf8Encode] using this
  · rintro ⟨text, rfl⟩
    have := text.isValidUTF8
    simpa [Text.bytes] using this

theorem utf8Text?_eq_none_iff : utf8Text? bs = none ↔ ¬ (ByteArray.mk bs.toArray).IsValidUTF8 := by
  rw [isValidUTF8_iff, Option.eq_none_iff_forall_ne_some, not_exists]
  simp only [ne_eq, utf8Text?_eq_some_iff]

/-! ### UTF-16 -/

/-- The units of a character: its number, or a pair of surrogates. -/
def units (c : Char) : List Nat :=
  let n := c.toNat
  if n < 0x10000 then [n]
  else [0xD800 + (n - 0x10000) / 0x400, 0xDC00 + (n - 0x10000) % 0x400]

/-- The bytes of a unit. -/
def ByteOrder.bytes : ByteOrder → Nat → List UInt8
  | little, unit => [UInt8.ofNat (unit % 256), UInt8.ofNat (unit / 256)]
  | big, unit => [UInt8.ofNat (unit / 256), UInt8.ofNat (unit % 256)]

/-- The bytes of a text in UTF-16. -/
def ByteOrder.encode (order : ByteOrder) (text : String) : List UInt8 :=
  text.toList.flatMap fun c => (units c).flatMap order.bytes

variable {order : ByteOrder}

/-- A unit is read back from its bytes. -/
theorem ByteOrder.exists_bytes_eq {unit : Nat} (h : unit < 0x10000) (order : ByteOrder) :
    ∃ b₀ b₁, order.bytes unit = [b₀, b₁] ∧ order.unit b₀ b₁ = unit := by
  cases order with
  | little => exact ⟨_, _, rfl, by simp [ByteOrder.unit]; omega⟩
  | big => exact ⟨_, _, rfl, by simp [ByteOrder.unit]; omega⟩

theorem utf16From_append (order : ByteOrder) (c : Char) (rest : List UInt8) :
    utf16From order none ((units c).flatMap order.bytes ++ rest) =
      some c :: utf16From order none rest := by
  have hvalid : c.toNat < 0xD800 ∨ 0xDFFF < c.toNat ∧ c.toNat < 0x110000 := c.valid
  rw [units]
  split
  · next hsmall =>
    obtain ⟨b₀, b₁, hbytes, hunit⟩ := order.exists_bytes_eq hsmall
    have hlead : isLead c.toNat = false := by
      simp [isLead]
      omega
    have htrail : isTrailUnit c.toNat = false := by
      simp [isTrailUnit]
      omega
    simp [hbytes, utf16From, hunit, hlead, unitChar?, htrail]
  · next hlarge =>
    have hbound : 0xD800 + (c.toNat - 0x10000) / 0x400 < 0x10000 := by omega
    have hbound' : 0xDC00 + (c.toNat - 0x10000) % 0x400 < 0x10000 := by omega
    obtain ⟨h₀, h₁, hhigh, hunit⟩ := order.exists_bytes_eq hbound
    obtain ⟨l₀, l₁, hlow, hunit'⟩ := order.exists_bytes_eq hbound'
    have hlead : isLead (0xD800 + (c.toNat - 0x10000) / 0x400) = true := by
      simp [isLead]
      omega
    have htrail : isTrailUnit (0xDC00 + (c.toNat - 0x10000) % 0x400) = true := by
      simp [isTrailUnit]
      omega
    have hvalue : 0x10000 + (0xD800 + (c.toNat - 0x10000) / 0x400 - 0xD800) * 0x400 +
        (0xDC00 + (c.toNat - 0x10000) % 0x400 - 0xDC00) = c.toNat := by omega
    rw [List.flatMap_cons, List.flatMap_singleton, hhigh, hlow]
    simp only [List.cons_append, List.nil_append, utf16From, hunit, hunit', hlead, htrail, if_true,
      hvalue, Char.ofNat_toNat]

theorem utf16_encode (order : ByteOrder) (text : String) :
    utf16 order (order.encode text) = text.toList.map some := by
  rw [utf16, ByteOrder.encode]
  induction text.toList with
  | nil => rfl
  | cons c cs ih => rw [List.flatMap_cons, utf16From_append, ih, List.map_cons]

/-! ### Scripts -/

/-- The encodings that a byte order mark tells. -/
inductive Marked where
  | utf8
  | utf16 (order : ByteOrder)

/-- The byte order mark of an encoding. -/
def Marked.mark : Marked → List UInt8
  | utf8 => [0xEF, 0xBB, 0xBF]
  | utf16 .little => [0xFF, 0xFE]
  | utf16 .big => [0xFE, 0xFF]

/-- The bytes of a text in an encoding, without a mark. -/
def Marked.encode : Marked → String → List UInt8
  | utf8, text => Text.bytes text
  | utf16 order, text => order.encode text

theorem textOf_map_some (text : String) : textOf (text.toList.map some) = text := by
  rw [textOf, List.map_map]
  simp [Function.comp_def]

theorem utf8_bytes (text : String) : utf8 (Text.bytes text) = text.toList.map some := by
  rw [utf8_eq_map_some_iff, ← Text.bytes_ofList, String.ofList_toList]

theorem decode_marked (form : Marked) (text : String) :
    decode (form.mark ++ form.encode text) = text := by
  cases form with
  | utf8 =>
    show textOf (utf8 (Text.bytes text)) = text
    rw [utf8_bytes, textOf_map_some]
  | utf16 order =>
    cases order <;>
      · show textOf (utf16 _ (ByteOrder.encode _ text)) = text
        rw [utf16_encode, textOf_map_some]

theorem decode_unmarked (h : ∀ form : Marked, ¬ form.mark <+: bs) :
    decode bs = (utf8Text? bs).getD (western bs) := by
  unfold decode
  split
  · exact absurd ⟨_, rfl⟩ (h .utf8)
  · exact absurd ⟨_, rfl⟩ (h (.utf16 .little))
  · exact absurd ⟨_, rfl⟩ (h (.utf16 .big))
  · rfl

/-- The mark of UTF-8 is a character in it. Those of UTF-16 begin no character. -/
theorem not_mark_prefix_bytes {text : String} (h : text.toList.head? ≠ some '\uFEFF')
    (form : Marked) : ¬ form.mark <+: Text.bytes text := by
  rintro ⟨rest, hbytes⟩
  have hread := utf8_bytes text
  rw [← hbytes] at hread
  have hnone : ∀ (b : UInt8) (more : List UInt8), 0xF4 < b.toNat →
      utf8 (b :: more) ≠ text.toList.map some := by
    intro b more hb hsome
    rw [utf8.eq_def] at hsome
    dsimp only at hsome
    rw [if_neg (by omega), if_pos (by omega)] at hsome
    cases htext : text.toList <;> simp [htext] at hsome
  match form with
  | .utf8 =>
    have hmark : Spelled 0xFEFF [0xEF, 0xBB, 0xBF] :=
      .three (by decide) (by decide) (by decide) (by decide)
    rw [Marked.mark, utf8_append hmark] at hread
    cases htext : text.toList with
    | nil => simp [htext] at hread
    | cons c cs =>
      rw [htext, List.map_cons, List.cons.injEq, Option.some.injEq] at hread
      exact h (by rw [htext, ← hread.1]; rfl)
  | .utf16 .little => exact hnone _ _ (by decide) hread
  | .utf16 .big => exact hnone _ _ (by decide) hread

/-- The code page leaves the characters of one byte as they are and has no other bytes for them. -/
theorem westernChar_eq_iff {b : UInt8} (hn : n < 0x80) :
    (westernChar b).toNat = n ↔ b.toNat = n := by
  have hall : ∀ k < 0x100, if k < 0x80 then (westernChar (UInt8.ofNat k)).toNat = k
      else 0x80 ≤ (westernChar (UInt8.ofNat k)).toNat := by decide +kernel
  have hb := hall b.toNat b.toNat_lt
  rw [UInt8.ofNat_toNat] at hb
  split at hb <;> omega

/-- Every text comes back from its bytes after the mark of its encoding, whatever it begins with,
and from its bytes in UTF-8 unless it begins with the mark. Where there is no mark and no UTF-8,
there is one character for each byte, and the characters of one byte stay: lines end where the
bytes end them. -/
theorem decode_recovers :
    (∀ (form : Marked) (text : String), decode (form.mark ++ form.encode text) = text) ∧
    (∀ text : String, text.toList.head? ≠ some '\uFEFF' → decode (Text.bytes text) = text) ∧
    ∀ bs : List UInt8, (∀ form : Marked, ¬ form.mark <+: bs) →
      ¬ (ByteArray.mk bs.toArray).IsValidUTF8 →
      List.Forall₂ (fun b c => ∀ n < 0x80, Char.toNat c = n ↔ UInt8.toNat b = n)
        bs (decode bs).toList := by
  refine ⟨decode_marked, ?_, ?_⟩
  · intro text htext
    rw [decode_unmarked (not_mark_prefix_bytes htext), utf8Text?_eq_some_iff.mpr rfl,
      Option.getD_some]
  · intro bs hmark hvalid
    rw [decode_unmarked hmark, utf8Text?_eq_none_iff.mpr hvalid, Option.getD_none, western,
      String.toList_ofList, List.forall₂_map_right_iff, List.forall₂_same]
    exact fun b _ n hn => westernChar_eq_iff hn

/-- A smiling face is a pair of surrogates, the letter é is two bytes in UTF-8 and one in the code
page. -/
theorem decode_recovers_face_and_letter :
    decode ([0xFF, 0xFE] ++ [0x3D, 0xD8, 0x00, 0xDE]) = "😀" ∧
    ("é".toList.head? ≠ some '\uFEFF' ∧ decode (Text.bytes "é") = "é") ∧
    (∀ form : Marked, ¬ form.mark <+: [0x63, 0xE9, 0x0A]) ∧
    (¬ (ByteArray.mk [0x63, 0xE9, 0x0A].toArray).IsValidUTF8) ∧
    List.Forall₂ (fun b c => ∀ n < 0x80, Char.toNat c = n ↔ UInt8.toNat b = n)
      [0x63, 0xE9, 0x0A] (decode [0x63, 0xE9, 0x0A]).toList := by
  have hletter : "é".toList.head? ≠ some '\uFEFF' := by decide
  have hmark : ∀ form : Marked, ¬ form.mark <+: [0x63, 0xE9, 0x0A] := by
    rintro (_ | _ | _) <;> decide
  have hvalid : ¬ (ByteArray.mk [0x63, 0xE9, 0x0A].toArray).IsValidUTF8 :=
    utf8Text?_eq_none_iff.mp (by decide)
  exact ⟨decode_recovers.1 (.utf16 .little) "😀", ⟨hletter, decode_recovers.2.1 "é" hletter⟩,
    hmark, hvalid, decode_recovers.2.2 _ hmark hvalid⟩

end Portability.Encoding
