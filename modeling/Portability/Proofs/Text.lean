import Mathlib
import Portability.Text.Ascii

/-! Texts compared without regard to case are equal in upper case, and so are their bytes. -/
namespace Portability.Text

theorem eq_colon_of_toUpper {c : Char} (h : c.toUpper = ':') : c = ':' := by
  by_cases hletter : c.val ≥ 'a'.val ∧ c.val ≤ 'z'.val
  · have hsmall : ∀ k < 123, (Char.ofNat k).toUpper = ':' → Char.ofNat k = ':' := by decide
    have hle : c.toNat ≤ 122 := UInt32.le_iff_toNat_le.mp hletter.2
    have := hsmall c.toNat (by omega)
    rw [Char.ofNat_toNat] at this
    exact this h
  · rwa [Char.toUpper, dif_neg hletter] at h

theorem toList_upper (s : String) : (upper s).toList = s.toList.map Char.toUpper := by
  simp [upper, String.toUpper]

theorem upper_eq_ofList (s : String) : upper s = String.ofList (s.toList.map Char.toUpper) := by
  apply String.toList_inj.mp
  simp [toList_upper]

theorem upper_lower (s : String) : upper (lower s) = upper s := by
  apply String.toList_inj.mp
  simp [upper, lower, String.toUpper, String.toLower]

theorem lower_upper (s : String) : lower (upper s) = lower s := by
  apply String.toList_inj.mp
  simp [upper, lower, String.toUpper, String.toLower]

theorem same_of_upper {a b : String} (h : upper a = b) : same a b := by
  rw [same, ← h, lower_upper]
  simp

theorem upper_eq_of_same {a b : String} (h : same a b) : upper a = upper b := by
  have hl : lower a = lower b := by simpa [same] using h
  rw [← upper_lower a, hl, upper_lower]

theorem upper_mem_of_oneOf {word : String} {candidates : List String}
    (h : oneOf word candidates) : upper word ∈ candidates.map upper := by
  obtain ⟨c, hc, hs⟩ := List.any_eq_true.mp h
  exact List.mem_map.mpr ⟨c, hc, upper_eq_of_same hs⟩

/-! ### Bytes -/

/-- The bytes of a text. A table of texts is checked faster by them than by its characters. -/
def bytes (s : String) : List UInt8 := s.toByteArray.data.toList

/-- The byte of a small letter made that of the capital one. -/
def capitalByte (b : UInt8) : UInt8 := if 97 ≤ b ∧ b ≤ 122 then b - 32 else b

theorem bytes_ofList (cs : List Char) :
    bytes (String.ofList cs) = cs.flatMap String.utf8EncodeChar := by
  simp [bytes, String.toByteArray_ofList, List.utf8Encode]

theorem bytes_inj {a b : String} (h : bytes a = bytes b) : a = b :=
  String.toByteArray_inj.mp (ByteArray.ext (Array.toList_inj.mp h))

/-- The bytes of what is no small letter are none either: the character itself, or bytes above all
letters. -/
theorem notSmall_of_mem_utf8EncodeChar {c : Char} (h : ¬ (97 ≤ c.val.toNat ∧ c.val.toNat ≤ 122)) :
    ∀ b ∈ String.utf8EncodeChar c, ¬ (97 ≤ b.toNat ∧ b.toNat ≤ 122) := by
  simp only [String.utf8EncodeChar]
  repeat' split
  all_goals
    simp only [List.forall_mem_cons, List.not_mem_nil, false_implies, implies_true, and_true,
      UInt8.toNat_ofNat']
    omega

theorem map_capitalByte_utf8EncodeChar (c : Char) :
    (String.utf8EncodeChar c).map capitalByte = String.utf8EncodeChar c.toUpper := by
  by_cases hletter : c.val ≥ 'a'.val ∧ c.val ≤ 'z'.val
  · have hsmall : ∀ k < 123, (String.utf8EncodeChar (Char.ofNat k)).map capitalByte =
        String.utf8EncodeChar (Char.ofNat k).toUpper := by decide
    have hle : c.toNat ≤ 122 := UInt32.le_iff_toNat_le.mp hletter.2
    have := hsmall c.toNat (by omega)
    rwa [Char.ofNat_toNat] at this
  · rw [Char.toUpper, dif_neg hletter]
    have hsame : ∀ b ∈ String.utf8EncodeChar c, capitalByte b = b := fun b hb =>
      if_neg (notSmall_of_mem_utf8EncodeChar hletter b hb)
    exact (List.map_congr_left hsame).trans (List.map_id' _)

theorem bytes_upper (s : String) : bytes (upper s) = (bytes s).map capitalByte := by
  conv_rhs => rw [← String.ofList_toList (s := s)]
  rw [upper_eq_ofList, bytes_ofList, bytes_ofList, List.flatMap_map, List.map_flatMap]
  simp only [map_capitalByte_utf8EncodeChar]

theorem mem_bytes {s : String} {c : Char} (h : c ∈ s.toList) :
    ∀ b ∈ String.utf8EncodeChar c, b ∈ bytes s := by
  intro b hb
  rw [← String.ofList_toList (s := s), bytes_ofList]
  exact List.mem_flatMap.mpr ⟨c, h, hb⟩

end Portability.Text
