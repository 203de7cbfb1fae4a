import Mathlib
import Portability.Proofs.Casing.Context
import Portability.Proofs.NameParts
import Portability.Proofs.SourceOrder
import Portability.Proofs.TokenShapes

/-! Two ways to the category of a constant or a variable: by its node, and by the look of its text.
They agree but for a variable whose name is the sign and one blank; in a text that blank is
trimmed. -/
namespace Portability

namespace Text

variable {c : Char} {cs rest : List Char}

theorem trimRightChars_cons (h : isBlank c = false) (rest : List Char) :
    trimRightChars (c :: rest) = c :: trimRightChars rest := by
  rw [trimRightChars, trimRightChars, List.reverse_cons, List.dropWhile_append]
  split
  · next hempty => simp [List.isEmpty_iff.mp hempty, h]
  · simp

theorem trimChars_cons (h : isBlank c = false) (rest : List Char) :
    trimChars (c :: rest) = c :: trimRightChars rest := by
  rw [trimChars, dropWhile_eq_self (by simpa using h), trimRightChars_cons h]

/-- No blank can be part of a bare word, its second and third character apart. -/
theorem isBlank_eq_false_of_word (h : Lexer.isWordStart c = true ∨ Lexer.isWordPart c = true) :
    isBlank c = false := by
  have hall : ∀ n ∈ blankRanges.flatMap fun r => List.range' r.1 (r.2 + 1 - r.1),
      Lexer.isWordStart (Char.ofNat n) = false ∧ Lexer.isWordPart (Char.ofNat n) = false := by
    decide +kernel
  by_contra hblank
  have hblank : isBlank c = true := by simpa using hblank
  obtain ⟨r, hr, hin⟩ := List.any_eq_true.mp hblank
  simp only [Bool.and_eq_true, decide_eq_true_eq] at hin
  have hmem : c.toNat ∈ blankRanges.flatMap fun r => List.range' r.1 (r.2 + 1 - r.1) := by
    rw [List.mem_flatMap]
    exact ⟨r, hr, List.mem_range'_1.mpr (by omega)⟩
  have hc := hall c.toNat hmem
  rw [Char.ofNat_toNat] at hc
  rcases h with h | h
  · simp [hc.1] at h
  · simp [hc.2] at h

end Text

/-- A number holds no blank and no mark of a hexadecimal literal. -/
theorem NumberText.plain {cs : List Char} (h : NumberText cs) (long : Bool) :
    ∀ c ∈ cs ++ (if long = true then ['L'] else []),
      Text.isBlank c = false ∧ c ≠ 'x' ∧ c ≠ 'X' := by
  intro c hc
  have hmem : c.isDigit = true ∨ c ∈ ['.', 'e', 'E', '+', '-', 'L'] := by
    rcases List.mem_append.mp hc with hc | hc
    · exact (h.mem c hc).imp_right fun hc => List.mem_append_left ['L'] hc
    · cases long <;> simp_all
  rcases hmem with hdigit | hmark
  · refine ⟨Text.isBlank_eq_false_of_word (.inr (by simp [Lexer.isWordPart, hdigit])), ?_, ?_⟩ <;>
      rintro rfl <;> revert hdigit <;> decide
  · have hmarks : ['.', 'e', 'E', '+', '-', 'L'].all
        (fun d => !Text.isBlank d && d != 'x' && d != 'X') = true := by decide
    simpa [and_assoc] using List.all_eq_true.mp hmarks c hmark

/-- A bare word ends in no blank, unless nothing follows the first character behind its signs. -/
theorem BareWord.getLast {cs : List Char} (h : BareWord cs) :
    (∀ c ∈ cs.getLast?, Text.isBlank c = false) ∨
      ∃ c, Text.isBlank c = true ∧ (cs = ['@', c] ∨ cs = ['@', '@', c] ∨ cs = ['#', c]) := by
  have hends : ∀ (signs : List Char) (c : Char) {more : List Char},
      (∀ d ∈ more, Lexer.isWordPart d = true) →
      (∀ d ∈ (signs ++ c :: more).getLast?, Text.isBlank d = false) ∨
        Text.isBlank c = true ∧ more = [] := by
    intro signs c more hmore
    by_cases hc : Text.isBlank c = true ∧ more = []
    · exact .inr hc
    · left
      intro d hd
      rw [List.getLast?_append_of_ne_nil signs (List.cons_ne_nil c more)] at hd
      rcases List.mem_cons.mp (List.mem_of_getLast? hd) with rfl | hd'
      · cases more with
        | nil => simpa using hc
        | cons e more =>
          rw [List.getLast?_cons_cons] at hd
          exact Text.isBlank_eq_false_of_word (.inr (hmore d (List.mem_of_getLast? hd)))
      · exact Text.isBlank_eq_false_of_word (.inr (hmore d hd'))
  cases h with
  | @plain c more hc hmore =>
    left
    intro d hd
    rcases List.mem_cons.mp (List.mem_of_getLast? hd) with rfl | hd
    · exact Text.isBlank_eq_false_of_word (.inl hc)
    · exact Text.isBlank_eq_false_of_word (.inr (hmore d hd))
  | localName c hmore =>
    rcases hends ['@'] c hmore with hlast | ⟨hblank, rfl⟩
    · exact .inl hlast
    · exact .inr ⟨c, hblank, .inl rfl⟩
  | systemName c hmore =>
    rcases hends ['@', '@'] c hmore with hlast | ⟨hblank, rfl⟩
    · exact .inl hlast
    · exact .inr ⟨c, hblank, .inr (.inl rfl)⟩
  | temporaryName c hmore =>
    rcases hends ['#'] c hmore with hlast | ⟨hblank, rfl⟩
    · exact .inl hlast
    · exact .inr ⟨c, hblank, .inr (.inr rfl)⟩
  | signs hne hcs =>
    left
    intro d hd
    rcases hcs d (List.mem_of_getLast? hd) with rfl | rfl <;> decide

namespace Category

variable {text : String} {cs rest : List Char}

/-! ### Constants by their look -/

theorem ofLiteralText?_string (h : text.toList = '\x27' :: rest) :
    ofLiteralText? text = some .string := by
  rw [ofLiteralText?, h, Text.trimChars_cons (by decide)]
  rfl

theorem ofLiteralText?_national (h : text.toList = 'N' :: '\x27' :: rest) :
    ofLiteralText? text = some .string := by
  rw [ofLiteralText?, h, Text.trimChars_cons (by decide), Text.trimRightChars_cons (by decide)]
  rfl

theorem ofLiteralText?_hex (h : text.toList = '0' :: 'x' :: rest) :
    ofLiteralText? text = some .binary := by
  rw [ofLiteralText?, h, Text.trimChars_cons (by decide), Text.trimRightChars_cons (by decide)]
  rfl

theorem ofLiteralText?_sign (h : text.toList = '@' :: rest) : ofLiteralText? text = none := by
  have hnull : Text.same (String.ofList ('@' :: Text.trimRightChars rest)) "NULL" = false := by
    rw [Bool.eq_false_iff]
    intro hsame
    have hupper := congrArg String.toList (Text.upper_eq_of_same hsame)
    rw [Text.toList_upper, Text.toList_upper, String.toList_ofList] at hupper
    simp at hupper
  rw [ofLiteralText?, h, Text.trimChars_cons (by decide)]
  simpa [unsigned] using hnull

theorem ofLiteralText?_null (h : Text.upper text = "NULL") : ofLiteralText? text = some .null := by
  have hcase : ∀ {c d : Char}, c.toUpper = d → c = d ∨ c = d.toLower := by
    rintro c _ rfl
    rcases Text.capital_or_toLower c with ⟨k, hk, rfl⟩ | hlower
    · have hcapital : ∀ k < 26, (Text.capital k).toUpper = Text.capital k := by decide
      exact .inl (hcapital k hk).symm
    · exact .inr (by rw [Char.toLower_toUpper_eq_toLower, hlower])
  have hchars : text.toList.map Char.toUpper = ['N', 'U', 'L', 'L'] := by
    rw [← Text.toList_upper, h]
    decide
  have hblank : ∀ c ∈ text.toList, Text.isBlank c = false := by
    intro c hc
    have hupper : c.toUpper ∈ ['N', 'U', 'L', 'L'] := hchars ▸ List.mem_map_of_mem hc
    have hletter : ['N', 'U', 'L', 'L'].all (fun d => !Text.isBlank d) = true := by decide
    have hupper := List.all_eq_true.mp hletter c.toUpper hupper
    rcases hcase (rfl : c.toUpper = _) with heq | heq
    · rw [heq]
      simpa using hupper
    · rw [heq, Text.isBlank_toLower]
      simpa using hupper
  have hsame : Text.same text "NULL" = true := Text.same_of_upper h
  obtain ⟨a, rest, htext, ha, hchars⟩ := List.map_eq_cons_iff.mp hchars
  obtain ⟨b, more, rfl, hb, -⟩ := List.map_eq_cons_iff.mp hchars
  rw [ofLiteralText?, (Text.tight_of_forall hblank).trimChars_eq, htext]
  rw [← String.ofList_toList (s := text), htext] at hsame
  rcases hcase ha with rfl | rfl <;> rcases hcase hb with rfl | rfl <;>
    simpa [unsigned] using hsame

theorem ofLiteralText?_number (long : Bool) (h : NumberText cs)
    (htext : text.toList = cs ++ if long = true then ['L'] else []) :
    ofLiteralText? text = some .numeric := by
  have hplain : ∀ c ∈ text.toList, Text.isBlank c = false ∧ c ≠ 'x' ∧ c ≠ 'X' :=
    htext ▸ h.plain long
  have htrim : Text.trimChars text.toList = text.toList :=
    (Text.tight_of_forall fun c hc => (hplain c hc).1).trimChars_eq
  obtain ⟨c, more, rfl, hc⟩ := h.begins
  have hfirst : c ≠ '\x27' ∧ c ≠ 'N' ∧ c ≠ 'n' ∧ c ≠ '-' ∧ c ≠ '+' := by
    rcases hc with hdigit | ⟨rfl, -⟩
    · refine ⟨?_, ?_, ?_, ?_, ?_⟩ <;> rintro rfl <;> revert hdigit <;> decide
    · decide
  generalize hrest : (more ++ if long = true then ['L'] else []) = rest
  rw [List.cons_append, hrest] at htext
  have hsecond : rest.head? ≠ some 'x' ∧ rest.head? ≠ some 'X' := by
    constructor <;> intro hhead
    · exact (hplain 'x' (by simp [htext, List.mem_of_mem_head? hhead])).2.1 rfl
    · exact (hplain 'X' (by simp [htext, List.mem_of_mem_head? hhead])).2.2 rfl
  have hnumeric : c.isDigit = true ∨ c = '.' ∧ rest ≠ [] := by
    refine hc.imp_right fun hpoint => ⟨hpoint.1, ?_⟩
    simp [← hrest, hpoint.2]
  rw [ofLiteralText?, htrim, htext]
  simp_all [unsigned]

/-! ### Texts of tokens -/

variable {symbols : SymbolTable} {schema value : String}

theorem ofText_of_literal {category : Category} (h : ofLiteralText? text = some category) :
    ofText symbols schema text = category := by
  rw [ofText, h]

theorem toList_trim_sign (h : value.toList = '@' :: rest) :
    (Text.trim value).toList = '@' :: Text.trimRightChars rest := by
  rw [Text.trim, String.toList_ofList, h, Text.trimChars_cons (by decide)]

theorem ofText_system (h : value.toList = '@' :: '@' :: rest) :
    ofText symbols schema value = ofSystemVariable (Text.trim value) := by
  have htrim : (Text.trim value).toList = '@' :: '@' :: Text.trimRightChars rest := by
    rw [toList_trim_sign h, Text.trimRightChars_cons (by decide)]
  rw [ofText, ofLiteralText?_sign h]
  dsimp only
  rw [htrim]
  rfl

theorem ofText_local (h : value.toList = '@' :: rest) (hlocal : rest.head? ≠ some '@') :
    ofText symbols schema value = ofVariable symbols schema (Text.trim value) := by
  have hprefix : Text.trimRightChars rest <+: rest :=
    List.rdropWhile_prefix Text.isBlank rest
  rw [ofText, ofLiteralText?_sign h]
  dsimp only
  rw [toList_trim_sign h]
  split
  · next more hmore =>
    rw [(List.cons.inj hmore).2] at hprefix
    obtain ⟨after, rfl⟩ := hprefix
    exact absurd rfl hlocal
  · rfl
  · next _ hno => exact (hno _ rfl).elim

/-- The name of a system variable is compared up to case. -/
theorem ofSystemVariable_upper (name : String) :
    ofSystemVariable (Text.upper name) = ofSystemVariable name := by
  simp [ofSystemVariable, Text.oneOf, Text.same, Text.lower_upper]

/-- Every system variable that holds a text has a longer name. -/
theorem ofSystemVariable_short {name : String} (h : name.length ≤ 3) :
    ofSystemVariable name = .numeric := by
  rw [ofSystemVariable, if_neg]
  intro hone
  obtain ⟨candidate, hmem, hsame⟩ := List.any_eq_true.mp hone
  have hlength : candidate.length = name.length := by
    rw [← Text.length_lower candidate, ← Text.length_lower name, eq_of_beq hsame]
  have hlong : stringSystemVariables.all (fun name => 3 < name.length) = true := by decide
  have := List.all_eq_true.mp hlong candidate hmem
  simp only [decide_eq_true_eq] at this
  omega

end Category

/-- The variable is named by the sign and one blank. -/
def Kind.isBlankVariable : Kind → Bool
  | .localVariable name =>
    match name.toList with
    | ['@', c] => Text.isBlank c
    | _ => false
  | _ => false

namespace Category

theorem trim_eq_self {value : String} (h : value.toList = '@' :: rest)
    (hlast : ∀ c ∈ value.toList.getLast?, Text.isBlank c = false) : Text.trim value = value := by
  have htight : Text.Tight value.toList := ⟨by simp [h]; decide, hlast⟩
  rw [Text.trim, htight.trimChars_eq, String.ofList_toList]

/-- A variable is looked up under its name, unless the name is the sign and one blank: the blank
goes before the name is looked up. -/
theorem ofText_localVariable (h : value.toList = '@' :: rest) (hlocal : rest.head? ≠ some '@')
    (hshaped : BareWord value.toList) :
    ofText symbols schema value =
      if (Kind.localVariable value).isBlankVariable = true then ofVariable symbols schema "@"
      else ofVariable symbols schema value := by
  rw [ofText_local h hlocal]
  rcases hshaped.getLast with hlast | ⟨c, hc, hname | hname | hname⟩
  · have hnone : (Kind.localVariable value).isBlankVariable = false := by
      unfold Kind.isBlankVariable
      dsimp only
      split
      · next c hname => exact hlast c (by rw [hname]; rfl)
      · rfl
    rw [hnone, trim_eq_self h hlast]
    rfl
  · have htrim : Text.trim value = "@" := by
      rw [Text.trim, hname, Text.trimChars_cons (by decide)]
      simp [Text.trimRightChars, hc]
    simp [Kind.isBlankVariable, hname, hc, htrim]
  · rw [hname] at h
    cases h
    exact absurd rfl hlocal
  · rw [hname] at h
    cases h

/-- A system variable keeps its category whatever blank ends its name: those that hold a text have
longer names. -/
theorem ofText_systemVariable (h : value.toList = '@' :: '@' :: rest)
    (hshaped : BareWord value.toList) :
    ofText symbols schema value = ofSystemVariable (Text.upper value) := by
  rw [ofText_system h, ofSystemVariable_upper]
  rcases hshaped.getLast with hlast | ⟨c, hc, hname | hname | hname⟩
  · rw [trim_eq_self h hlast]
  · rw [hname] at h
    cases h
    exact absurd hc (by decide)
  · have htrim : Text.trim value = "@@" := by
      rw [Text.trim, hname, Text.trimChars_cons (by decide), Text.trimRightChars_cons (by decide)]
      simp [Text.trimRightChars, hc]
    have hshort : value.length ≤ 3 := by simp [← String.length_toList, hname]
    rw [htrim, ofSystemVariable_short (by decide), ofSystemVariable_short hshort]
  · rw [hname] at h
    cases h

/-- The token of a constant or a variable has the category of the construct, but for the variables
that are named by the sign and one blank. -/
theorem ofText_sourceText {t : Token} {kind : Kind} (hdenotes : t.Denotes kind) (hshaped : t.Shaped)
    (s : Setting) (parts : List Category) :
    ofText s.symbols s.schema t.sourceText =
      if kind.isBlankVariable = true then ofVariable s.symbols s.schema "@"
      else ofKind s kind parts := by
  cases hdenotes with
  | number digits long =>
    refine ofText_of_literal (ofLiteralText?_number long hshaped ?_)
    cases long <;> simp [Token.sourceText, Token.display]
  | string value =>
    exact ofText_of_literal (ofLiteralText?_string (by simp [Token.sourceText]; rfl))
  | national value =>
    exact ofText_of_literal (ofLiteralText?_national (by simp [Token.sourceText]; rfl))
  | hex digits =>
    exact ofText_of_literal (ofLiteralText?_hex (by simp [Token.sourceText]; rfl))
  | null hnull => exact ofText_of_literal (ofLiteralText?_null hnull)
  | localVariable hvalue hlocal => exact ofText_localVariable hvalue hlocal hshaped
  | systemVariable hvalue => exact ofText_systemVariable hvalue hshaped

end Category

/-! ### Nodes of a tree -/

/-- A constant or a variable. -/
def Kind.isValue : Kind → Bool
  | .literal _ | .localVariable _ | .systemVariable _ => true
  | _ => false

namespace Tree

variable {text : String} {t : Tree} {site : Site}

/-- A constant or a variable is one token, which looks like one of its kind. -/
theorem token_of_isValue (h : ofText? text = some t) (hsite : site ∈ t.sites)
    (hvalue : site.kind.isValue = true) :
    ∃ token : Token, token.Denotes site.kind ∧ token.Shaped ∧
      t.text site.node = token.sourceText := by
  unfold ofText? at h
  split at h
  · next s hs =>
    have hall := ofSource?_placed s
    rw [h] at hall
    have htoken : Kind.IsToken s site.node.start site.node.stop site.kind := by
      cases (hall.1.of_mem hsite).1 with
      | intro line parts covers below =>
        show Kind.IsToken s site.node.start site.node.stop site.node.kind
        unfold Site.kind at hvalue
        cases hkind : site.node.kind <;> rw [hkind] at hvalue covers <;>
          first | exact covers | cases hvalue
    obtain ⟨hstop, token, htoken, hdenotes⟩ := htoken
    refine ⟨token, hdenotes, Source.shaped_of_ofText hs htoken, ?_⟩
    rw [Tree.text, source_of_ofSource? h, hstop, Source.textBetween_succ, htoken]
    rfl
  · next e he =>
    cases h
    simp only [unparsed, sites, Node.sites, Node.sitesFrom, sitesOfParts, List.append_nil,
      List.mem_cons, List.not_mem_nil, or_false] at hsite
    rcases hsite with rfl | rfl <;> cases hvalue

/-- Constants and variables have the category that their text has, but for a variable named by the
sign and one blank: its text has the category of a variable named by the sign alone. -/
theorem category_of_text (h : ofText? text = some t) (hsite : site ∈ t.sites)
    (hvalue : site.kind.isValue = true) (s : Category.Setting) :
    Category.ofText s.symbols s.schema (t.text site.node) =
      if site.kind.isBlankVariable = true then Category.ofVariable s.symbols s.schema "@"
      else Category.ofNode s site.node := by
  obtain ⟨token, hdenotes, hshaped, htext⟩ := token_of_isValue h hsite hvalue
  rw [htext, Category.ofNode_eq]
  exact Category.ofText_sourceText hdenotes hshaped s _

/-- A variable named by the sign and a tab, declared as text: its text is taken for a number. -/
theorem category_of_text_tab :
    let s : Category.Setting :=
      { symbols := ({} : SymbolTable).declare "@\t" (.localVariable "VARCHAR")
        schema := "dbo", quotedIdentifier := true }
    ∃ t, ofText? "PRINT @\t" = some t ∧ ∃ site ∈ t.sites, site.kind.isValue = true ∧
      Category.ofText s.symbols s.schema (t.text site.node) = .numeric ∧
      Category.ofNode s site.node = .string := by
  intro s
  have hrun : ((ofText? "PRINT @\t").map fun t => t.sites[2]?.map Site.kind) =
      some (some (.localVariable "@\t")) := map_ofText?_of_apart (by decide +kernel)
  obtain ⟨t, ht, hthird⟩ := Option.map_eq_some_iff.mp hrun
  obtain ⟨site, hat, hkind⟩ := Option.map_eq_some_iff.mp hthird
  have hsite : site ∈ t.sites := List.mem_of_getElem? hat
  have hvalue : site.kind.isValue = true := by rw [hkind, Kind.isValue]
  have hblank : site.kind.isBlankVariable = true := by
    rw [hkind]
    decide
  have htext := category_of_text ht hsite hvalue s
  rw [if_pos hblank] at htext
  have hnode : Category.ofNode s site.node = Category.ofVariable s.symbols s.schema "@\t" := by
    rw [Category.ofNode_eq, show site.node.kind = .localVariable "@\t" from hkind, Category.ofKind]
  exact ⟨t, ht, site, hsite, hvalue, htext.trans (by decide +kernel),
    hnode.trans (by decide +kernel)⟩

end Tree

end Portability
