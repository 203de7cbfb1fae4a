import Mathlib
import Portability.Proofs.NameParts

/-! What a name shows and is read back as. The parts come back; whether the name is the same depends
on the dot before it. -/
namespace Portability

/-- What begins with a character that is no blank keeps it when it is trimmed. -/
theorem Text.head?_trimChars_cons {c : Char} (h : isBlank c = false) (cs : List Char) :
    (trimChars (c :: cs)).head? = some c := by
  have hleft : (c :: cs).dropWhile isBlank = c :: cs := dropWhile_eq_self (by simpa using h)
  rw [trimChars, hleft, trimRightChars, List.head?_reverse, List.reverse_cons,
    List.dropWhile_append]
  split <;> simp [h]

namespace Name

open Identifier (Written)

/-! ### The displayed form -/

theorem partsFrom_ne_nil (closer : Option Char) (part cs : List Char) :
    Identifier.partsFrom closer part cs ≠ [] := by
  fun_induction Identifier.partsFrom closer part cs with
  | case1 => simp
  | case6 => simp
  | _ => assumption

theorem parts_ne_nil (raw : String) : Identifier.parts raw ≠ [] := by
  simp [Identifier.parts, partsFrom_ne_nil]

theorem parts_resolve_ne_nil (raw : String) : (resolve raw).parts ≠ [] := by
  have hne := List.length_pos_iff.mpr (parts_ne_nil (Text.trim raw))
  apply List.ne_nil_of_length_pos
  rw [resolve, List.length_drop]
  omega

theorem length_parts_resolve (raw : String) : (resolve raw).parts.length ≤ 4 := by
  rw [resolve, List.length_drop]
  omega

/-- An empty part stands before all others. -/
def BeginsEmpty (n : Name) : Prop := ∃ part rest, n.parts = "" :: part :: rest

variable (n : Name)

/-- The parts as they are displayed. -/
def shown : List String := n.parts.map fun p => if p.isEmpty then "" else Identifier.quoted p

theorem display_eq : n.display = String.intercalate "." n.shown := rfl

theorem written_quoted (part : String) : Written part (Identifier.quoted part) := by
  unfold Identifier.quoted
  split
  · exact .bracketed
  · rename_i hneeds
    exact .bare (by simpa using hneeds)

theorem exists_head_quoted {part : String} (h : part ≠ "") :
    ∃ c rest, (Identifier.quoted part).toList = c :: rest ∧ c ≠ '.' := by
  apply (written_quoted part).exists_head
  unfold Identifier.quoted
  split
  · simp [Identifier.bracketed]
  · exact h

theorem written_shown : List.Forall₂ Written n.parts n.shown := by
  rw [shown, List.forall₂_map_right_iff, List.forall₂_same]
  intro part _
  split
  · rename_i hempty
    exact .missing (String.isEmpty_iff.mp hempty)
  · exact written_quoted part

/-- The displayed form begins with a dot just where an empty part stands before the others. -/
theorem head?_display : n.display.toList.head? = some '.' ↔ n.BeginsEmpty := by
  rw [display_eq, BeginsEmpty, shown]
  rcases n.parts with _ | ⟨part, _ | ⟨next, rest⟩⟩
  · simp
  · by_cases hpart : part = ""
    · simp [hpart]
    · obtain ⟨c, rest, hcs, hdot⟩ := exists_head_quoted hpart
      simp [hpart, hcs, hdot]
  · rw [List.map_cons, List.map_cons, Identifier.toList_intercalate_cons]
    by_cases hpart : part = ""
    · simp [hpart]
    · obtain ⟨c, tail, hcs, hdot⟩ := exists_head_quoted hpart
      simp [hpart, hcs, hdot]

/-- The name that is read from what the name shows. -/
def reread (n : Name) : Name := resolve n.display

variable {n}

theorem parts_reread (hne : n.parts ≠ []) (hle : n.parts.length ≤ 4) :
    n.reread.parts = n.parts := by
  rw [reread, n.display_eq, parts_resolve_intercalate hne n.written_shown,
    Nat.sub_eq_zero_of_le hle, List.drop_zero]

theorem leadingDot_reread : n.reread.leadingDot ↔ n.BeginsEmpty := by
  rw [← head?_display, reread, display_eq, resolve]
  simp [trim_intercalate n.written_shown]

/-- Names with equal parts are the same if the dots before them are. -/
theorem same_iff_of_parts {a b : Name} (h : a.parts = b.parts) :
    a.same b ↔ (a.leadingDot ↔ b.leadingDot) := by
  have hall : (b.parts.zip b.parts).all (fun p => Text.same p.1 p.2) = true := by
    rw [List.zip_eq_zipWith, List.zipWith_self]
    simp [Text.same]
  simp [same, partCount, h, hall]

/-- A dot before a text of at most four parts follows an empty first part. -/
theorem beginsEmpty_of_leadingDot {raw : String} (hdot : (resolve raw).leadingDot)
    (hle : (Identifier.parts (Text.trim raw)).length ≤ 4) : (resolve raw).BeginsEmpty := by
  have hhead : (Text.trim raw).toList.head? = some '.' := by simpa [resolve] using hdot
  obtain ⟨cs, hcs⟩ := List.head?_eq_some_iff.mp hhead
  have htrim := Text.head?_trimChars_cons (c := '.') (by decide) cs
  rw [← hcs] at htrim
  obtain ⟨rest, hrest⟩ := List.head?_eq_some_iff.mp htrim
  have hparts : Identifier.parts (Text.trim raw) =
      "" :: (Identifier.partsFrom none [] rest).map String.ofList := by
    rw [Identifier.parts, hrest, Identifier.partsFrom, if_pos rfl]
    rfl
  obtain ⟨part, more, hmore⟩ := List.exists_cons_of_ne_nil (partsFrom_ne_nil none [] rest)
  refine ⟨String.ofList part, more.map String.ofList, ?_⟩
  rw [resolve]
  dsimp only
  rw [Nat.sub_eq_zero_of_le hle, List.drop_zero, hparts, hmore, List.map_cons]

/-- What a name shows is read back as the same parts and shown the same again. It is the same name
if a dot stands before it just where its first part is empty and others follow; of at most four
parts, if the dot stands there or no empty part comes first. -/
theorem resolve_display (raw : String) :
    (resolve raw).reread.parts = (resolve raw).parts ∧
      (resolve raw).reread.display = (resolve raw).display ∧
      ((resolve raw).reread.same (resolve raw) ↔
        ((resolve raw).leadingDot ↔ (resolve raw).BeginsEmpty)) ∧
      ((Identifier.parts (Text.trim raw)).length ≤ 4 →
        ((resolve raw).reread.same (resolve raw) ↔
          (resolve raw).leadingDot ∨ ¬ (resolve raw).BeginsEmpty)) := by
  have hparts : (resolve raw).reread.parts = (resolve raw).parts :=
    parts_reread (parts_resolve_ne_nil raw) (length_parts_resolve raw)
  have hdisplay : (resolve raw).reread.display = (resolve raw).display := by
    rw [display, hparts, display]
  have hsame : (resolve raw).reread.same (resolve raw) ↔
      ((resolve raw).leadingDot ↔ (resolve raw).BeginsEmpty) := by
    rw [same_iff_of_parts hparts, leadingDot_reread]
    exact Iff.comm
  refine ⟨hparts, hdisplay, hsame, fun hle => hsame.trans ?_⟩
  constructor
  · intro hiff
    by_cases hempty : (resolve raw).BeginsEmpty
    · exact .inl (hiff.mpr hempty)
    · exact .inr hempty
  · rintro (hdot | hempty)
    · exact iff_of_true hdot (beginsEmpty_of_leadingDot hdot hle)
    · exact iff_of_false (fun hdot => hempty (beginsEmpty_of_leadingDot hdot hle)) hempty

/-- The dot before five parts is not shown, and the name that is read back lacks it. -/
theorem resolve_display_five_parts :
    (resolve ".a.b.c.d").display = "a.b.c.d" ∧
      (resolve ".a.b.c.d").reread.parts = ["a", "b", "c", "d"] ∧
      ¬ (resolve ".a.b.c.d").reread.same (resolve ".a.b.c.d") ∧
      (resolve "srv..[my t]").reread.same (resolve "srv..[my t]") := by
  have hparts : (resolve ".a.b.c.d").parts = ["a", "b", "c", "d"] := by decide +kernel
  have hdot : (resolve ".a.b.c.d").leadingDot := by decide +kernel
  obtain ⟨hagain, -, hsame, -⟩ := resolve_display ".a.b.c.d"
  obtain ⟨-, -, -, hfour⟩ := resolve_display "srv..[my t]"
  refine ⟨by decide +kernel, hagain.trans hparts, fun h => ?_, ?_⟩
  · obtain ⟨part, rest, hempty⟩ := (hsame.mp h).mp hdot
    rw [hparts] at hempty
    simp at hempty
  · refine (hfour (by decide +kernel)).mpr (.inr ?_)
    have hfirst : (resolve "srv..[my t]").parts = ["srv", "", "my t"] := by decide +kernel
    rintro ⟨part, rest, hempty⟩
    rw [hfirst] at hempty
    simp at hempty

end Name

end Portability
