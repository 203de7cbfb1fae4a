import Mathlib
import Portability.Matrix.Format
import Portability.Proofs.Judging

/-! The lines of a feature matrix and the entries that they make up. A text can be cut into sections
just where each of its lines may stand after those before it. -/
namespace Portability.Matrix

/-! ### Kinds of lines -/

/-- The lines that are neither blank nor comments. -/
def contentLines (lines : List String) : List String := lines.filter fun l => !isIdle (Text.trim l)

/-- The line starts with a space or a tab. -/
def isIndented (line : String) : Bool := line.toList.head?.any fun c => c == ' ' || c == '\t'

/-- The line is not indented and starts with `[`. -/
def isHeader (line : String) : Bool :=
  !isIndented line && (Text.trim line).toList.head? == some '['

/-- The line is neither indented nor a header. -/
def isKeyLine (line : String) : Bool := !isIndented line && !isHeader line

/-- What a header has between its brackets. -/
def nameOf (header : String) : String :=
  Text.trim (String.ofList (Text.trim header).toList.tail.dropLast)

/-- What stands before the first `=`. -/
def keyOf (line : String) : String :=
  Text.trim (String.ofList ((Text.trim line).toList.takeWhile (· ≠ '=')))

/-- What stands after the first `=`. -/
def valueOf (line : String) : String :=
  Text.trim (String.ofList ((Text.trim line).toList.dropWhile (· ≠ '=')).tail)

/-- After the last header among the lines, a key was given. -/
def HasKey (lines : List String) : Prop :=
  ∃ before key after, lines = before ++ key :: after ∧ isKeyLine key = true ∧
    ∀ l ∈ after, isHeader l = false

/-- The line may stand after the lines before it. -/
structure MayFollow (before : List String) (line : String) : Prop where
  indented : isIndented line = true → HasKey before
  header : isHeader line = true → (Text.trim line).toList.getLast? = some ']'
  key : isKeyLine line = true → '=' ∈ (Text.trim line).toList ∧ ∃ h ∈ before, isHeader h = true

/-- Every line may stand after those before it. -/
def Placed (seen lines : List String) : Prop :=
  ∀ before line after, lines = before ++ line :: after → MayFollow (seen ++ before) line

/-- A key with its value and the name of the section that it stands in. -/
structure KeyValue where
  owner : String
  key : String
  value : String

/-- A value goes on with the indented lines that follow, each after a space. -/
def continued (value : String) (lines : List String) : String :=
  lines.foldl (fun value line => value ++ " " ++ Text.trim line) value

/-- The keys of the lines in order; the first of them stand in the section of the given name. -/
def keyValues (owner : String) : List String → List KeyValue
  | [] => []
  | line :: rest =>
    if isHeader line then keyValues (nameOf line) rest
    else if isIndented line then keyValues owner rest
    else
      ⟨owner, keyOf line, continued (valueOf line) (rest.takeWhile isIndented)⟩ ::
        keyValues owner rest

/-- The names in the headers. -/
def headerNames (lines : List String) : List String := (lines.filter isHeader).map nameOf

/-! ### One line -/

section

variable {done done' : List RawSection} {text : String} {line : Nat}

theorem isIndented_eq_false (hspace : text.toList.head? ≠ some ' ')
    (htab : text.toList.head? ≠ some '\t') : isIndented text = false := by
  unfold isIndented
  cases hfirst : text.toList.head? with
  | none => rfl
  | some c =>
    rw [hfirst, ne_eq, Option.some.injEq] at hspace htab
    simp [hspace, htab]

theorem isHeader_eq_false (h : isIndented text = true) : isHeader text = false := by
  simp [isHeader, h]

theorem isKeyLine_eq_false (h : isIndented text = true) : isKeyLine text = false := by
  simp [isKeyLine, h]

theorem headerName?_eq_some_iff {trimmed name : String} (h : trimmed.toList.head? = some '[') :
    headerName? trimmed = some name ↔ trimmed.toList.getLast? = some ']' ∧
      name = Text.trim (String.ofList trimmed.toList.tail.dropLast) := by
  obtain ⟨rest, hrest⟩ := List.head?_eq_some_iff.mp h
  have hlast : ('[' :: rest).getLast? = some ']' ↔ rest.getLast? = some ']' := by
    cases rest with
    | nil => simp
    | cons c rest => rw [List.getLast?_cons_cons]
  rw [headerName?, hrest]
  simp only [hlast, List.tail_cons, Option.ite_none_right_eq_some, Option.some.injEq]
  rw [eq_comm (a := name)]

theorem splitAtFirst?_eq_some_iff {mark : Char} {s before after : String} :
    splitAtFirst? mark s = some (before, after) ↔ mark ∈ s.toList ∧
      before = String.ofList (s.toList.takeWhile (· ≠ mark)) ∧
      after = String.ofList (s.toList.dropWhile (· ≠ mark)).tail := by
  unfold splitAtFirst?
  rw [List.span_eq_takeWhile_dropWhile]
  cases hdrop : s.toList.dropWhile (fun c => decide (c ≠ mark)) with
  | nil =>
    have hall := List.dropWhile_eq_nil_iff.mp hdrop
    refine iff_of_false (by simp) fun h => ?_
    simpa using hall mark h.1
  | cons c rest =>
    have hmem : mark ∈ s.toList := by
      have hin : c ∈ s.toList := (List.dropWhile_sublist _).subset (hdrop ▸ List.mem_cons_self)
      have hc := List.head_dropWhile_not (fun c => decide (c ≠ mark)) (l := s.toList)
        (by rw [hdrop]; simp)
      simp only [hdrop, List.head_cons] at hc
      obtain rfl : c = mark := by simpa using hc
      exact hin
    simp [hmem, eq_comm]

/-- What a line does to the sections read so far, the last of which comes first. -/
inductive Extends (text : String) (line : Nat) : List RawSection → List RawSection → Prop
  | indented {s : RawSection} {e : Entry} {es : List Entry} {rest : List RawSection} :
    isIndented text = true → s.entries = e :: es →
    Extends text line (s :: rest)
      ({ s with entries := { e with value := e.value ++ " " ++ Text.trim text } :: es } :: rest)
  | header {done : List RawSection} :
    isHeader text = true → (Text.trim text).toList.getLast? = some ']' →
    Extends text line done (⟨nameOf text, line, []⟩ :: done)
  | key {s : RawSection} {rest : List RawSection} :
    isKeyLine text = true → '=' ∈ (Text.trim text).toList →
    Extends text line (s :: rest)
      ({ s with entries := ⟨keyOf text, valueOf text, line⟩ :: s.entries } :: rest)

theorem readLine_of_isIdle (h : isIdle (Text.trim text) = true) :
    readLine done text line = .ok done := by
  unfold readLine
  simp [h]

theorem extends_of_isIndented (h : isIndented text = true) :
    continueValue line (Text.trim text) done = .ok done' ↔ Extends text line done done' := by
  constructor
  · intro hvalue
    unfold continueValue at hvalue
    split at hvalue
    · split at hvalue
      · rename_i e es hentries
        cases hvalue
        exact .indented h hentries
      · cases hvalue
    · cases hvalue
  · rintro (⟨-, hentries⟩ | ⟨hheader, -⟩ | ⟨hkey, -⟩)
    · simp [continueValue, hentries]
    · simp [isHeader_eq_false h] at hheader
    · simp [isKeyLine_eq_false h] at hkey

theorem extends_of_isHeader (h : isHeader text = true) :
    Extends text line done done' ↔
      (Text.trim text).toList.getLast? = some ']' ∧ done' = ⟨nameOf text, line, []⟩ :: done := by
  constructor
  · rintro (⟨hindented, -⟩ | ⟨-, hlast⟩ | ⟨hkey, -⟩)
    · simp [isHeader_eq_false hindented] at h
    · exact ⟨hlast, rfl⟩
    · simp [isKeyLine, h] at hkey
  · rintro ⟨hlast, rfl⟩
    exact .header h hlast

theorem extends_of_isKeyLine (h : isKeyLine text = true) :
    Extends text line done done' ↔ '=' ∈ (Text.trim text).toList ∧ ∃ s rest, done = s :: rest ∧
      done' = { s with entries := ⟨keyOf text, valueOf text, line⟩ :: s.entries } :: rest := by
  constructor
  · rintro (⟨hindented, -⟩ | ⟨hheader, -⟩ | ⟨-, hequals⟩)
    · simp [isKeyLine_eq_false hindented] at h
    · simp [isKeyLine, hheader] at h
    · exact ⟨hequals, _, _, rfl, rfl⟩
  · rintro ⟨hequals, s, rest, rfl, rfl⟩
    exact .key h hequals

theorem readLine_eq_ok_iff (h : isIdle (Text.trim text) = false) :
    readLine done text line = .ok done' ↔ Extends text line done done' := by
  unfold readLine
  simp only [h, Bool.false_eq_true, if_false]
  split
  · rename_i hhead
    exact extends_of_isIndented (by simp [isIndented, hhead])
  · rename_i hhead
    exact extends_of_isIndented (by simp [isIndented, hhead])
  · rename_i hhead hspace htab
    have hindented : isIndented text = false := isIndented_eq_false hspace htab
    rw [extends_of_isHeader (by simp [isHeader, hindented, hhead]), nameOf]
    split
    · rename_i name hname
      obtain ⟨hlast, rfl⟩ := (headerName?_eq_some_iff hhead).mp hname
      simp [hlast, eq_comm]
    · rename_i hnone
      refine iff_of_false (by simp) fun hheader => ?_
      rw [(headerName?_eq_some_iff hhead).mpr ⟨hheader.1, rfl⟩] at hnone
      cases hnone
  · rename_i hspace htab hhead
    have hindented : isIndented text = false := isIndented_eq_false hspace htab
    have hheader : isHeader text = false := by
      simpa [isHeader, hindented] using hhead
    rw [extends_of_isKeyLine (by simp [isKeyLine, hindented, hheader]), keyOf, valueOf]
    split
    · rename_i hnone
      refine iff_of_false (by simp) fun hkey => ?_
      rw [splitAtFirst?_eq_some_iff.mpr ⟨hkey.1, rfl, rfl⟩] at hnone
      cases hnone
    · exact iff_of_false (by simp) (by simp)
    · rename_i key value s rest hsplit
      obtain ⟨hequals, rfl, rfl⟩ := splitAtFirst?_eq_some_iff.mp hsplit
      constructor
      · rintro ⟨⟩
        exact ⟨hequals, s, rest, rfl, rfl⟩
      · rintro ⟨-, _, _, hdone, rfl⟩
        obtain ⟨rfl, rfl⟩ := List.cons.inj hdone
        rfl

/-! ### All lines -/

/-- What has been read tells whether there was a header before, and a key after it. -/
structure Follows (seen : List String) (done : List RawSection) : Prop where
  header : done ≠ [] ↔ ∃ h ∈ seen, isHeader h = true
  key : (∃ s ∈ done.head?, s.entries ≠ []) ↔ HasKey seen

theorem follows_nil : Follows [] [] := ⟨by simp, by simp [HasKey]⟩

theorem hasKey_concat {seen : List String} :
    HasKey (seen ++ [text]) ↔ isKeyLine text = true ∨ isHeader text = false ∧ HasKey seen := by
  constructor
  · rintro ⟨before, key, after, hsplit, hkey, hafter⟩
    rcases List.eq_nil_or_concat after with rfl | ⟨after, last, rfl⟩
    · obtain ⟨-, hlast⟩ := List.append_inj' hsplit rfl
      obtain rfl := List.singleton_inj.mp hlast
      exact .inl hkey
    · rw [List.concat_eq_append, ← List.cons_append, ← List.append_assoc] at hsplit
      obtain ⟨rfl, hlast⟩ := List.append_inj' hsplit rfl
      obtain rfl := List.singleton_inj.mp hlast
      exact .inr ⟨hafter text (by simp), before, key, after, rfl, hkey,
        fun l hl => hafter l (by simp [hl])⟩
  · rintro (hkey | ⟨hheader, before, key, after, rfl, hkey, hafter⟩)
    · exact ⟨seen, text, [], rfl, hkey, by simp⟩
    · refine ⟨before, key, after ++ [text], by simp, hkey, fun l hl => ?_⟩
      rcases List.mem_append.mp hl with hl | hl
      · exact hafter l hl
      · rwa [List.mem_singleton.mp hl]

theorem Follows.of_extends {seen : List String} (h : Follows seen done)
    (hext : Extends text line done done') : Follows (seen ++ [text]) done' := by
  cases hext with
  | @indented s e es rest hindented hentries =>
    have hheader := isHeader_eq_false hindented
    refine ⟨?_, ?_⟩
    · have := h.header
      simp_all
    · have := h.key
      rw [hasKey_concat]
      simp_all [isKeyLine]
  | header hheader hlast => exact ⟨by simp [hheader], by simp [hasKey_concat, isKeyLine, hheader]⟩
  | key hkey hequals =>
    refine ⟨?_, by simp [hasKey_concat, hkey]⟩
    have := h.header
    simp_all

theorem exists_extends_iff (line : Nat) {seen : List String} (h : Follows seen done) :
    (∃ done', Extends text line done done') ↔ MayFollow seen text := by
  constructor
  · rintro ⟨_, @⟨s, e, es, rest, hindented, hentries⟩ | ⟨hheader, hlast⟩ | ⟨hkey, hequals⟩⟩
    · exact ⟨fun _ => h.key.mp ⟨s, rfl, by simp [hentries]⟩,
        by simp [isHeader_eq_false hindented], by simp [isKeyLine_eq_false hindented]⟩
    · exact ⟨fun hindented => by simp [isHeader_eq_false hindented] at hheader, fun _ => hlast,
        by simp [isKeyLine, hheader]⟩
    · exact ⟨fun hindented => by simp [isKeyLine_eq_false hindented] at hkey,
        fun hheader => by simp [isKeyLine, hheader] at hkey,
        fun _ => ⟨hequals, h.header.mp (by simp)⟩⟩
  · intro hmay
    cases hindented : isIndented text with
    | true =>
      obtain ⟨s, hs, hentries⟩ := h.key.mpr (hmay.indented hindented)
      obtain ⟨rest, rfl⟩ := List.head?_eq_some_iff.mp hs
      obtain ⟨e, es, hentries⟩ := List.exists_cons_of_ne_nil hentries
      exact ⟨_, .indented hindented hentries⟩
    | false =>
      cases hheader : isHeader text with
      | true => exact ⟨_, .header hheader (hmay.header hheader)⟩
      | false =>
        have hkey : isKeyLine text = true := by simp [isKeyLine, hindented, hheader]
        obtain ⟨hequals, hbefore⟩ := hmay.key hkey
        obtain ⟨s, rest, rfl⟩ := List.exists_cons_of_ne_nil (h.header.mpr hbefore)
        exact ⟨_, .key hkey hequals⟩

theorem placed_cons {seen lines : List String} :
    Placed seen (text :: lines) ↔ MayFollow seen text ∧ Placed (seen ++ [text]) lines := by
  constructor
  · refine fun h => ⟨by simpa using h [] text lines rfl, fun before l after hsplit => ?_⟩
    simpa using h (text :: before) l after (by simp [hsplit])
  · rintro ⟨htext, hlines⟩ before l after hsplit
    cases before with
    | nil =>
      obtain ⟨rfl, -⟩ := List.cons.inj hsplit
      simpa using htext
    | cons first before =>
      obtain ⟨rfl, hrest⟩ := List.cons.inj hsplit
      simpa using hlines before l after hrest

theorem exists_readLines_iff (line : Nat) {seen texts : List String} (h : Follows seen done) :
    (∃ done', readLines done line texts = .ok done') ↔ Placed seen (contentLines texts) := by
  induction texts generalizing seen done line with
  | nil =>
    exact iff_of_true ⟨done, rfl⟩ fun before l after hsplit => by simp [contentLines] at hsplit
  | cons text texts ih =>
    simp only [readLines]
    cases hidle : isIdle (Text.trim text) with
    | true =>
      simp only [readLine_of_isIdle hidle, ih _ h]
      simp [contentLines, hidle]
    | false =>
      have hlines : contentLines (text :: texts) = text :: contentLines texts := by
        simp [contentLines, hidle]
      rw [hlines, placed_cons, ← exists_extends_iff line h]
      cases hread : readLine done text line with
      | error fault =>
        refine iff_of_false (by simp) fun hmay => ?_
        obtain ⟨⟨next, hnext⟩, -⟩ := hmay
        cases hread.symm.trans ((readLine_eq_ok_iff hidle).mpr hnext)
      | ok next =>
        have hnext := (readLine_eq_ok_iff hidle).mp hread
        simp only [ih _ (h.of_extends hnext)]
        exact (and_iff_right ⟨next, hnext⟩).symm

/-- The keys of the sections read so far, in order. -/
def flat (done : List RawSection) : List KeyValue :=
  done.reverse.flatMap fun s => s.entries.reverse.map fun e => ⟨s.name, e.key, e.value⟩

/-- The sections read so far, when the last value goes on. -/
def continueLast (lines : List String) : List RawSection → List RawSection
  | s :: rest =>
    { s with entries := match s.entries with
      | e :: es => { e with value := continued e.value lines } :: es
      | [] => [] } :: rest
  | [] => []

theorem flat_cons (s : RawSection) (rest : List RawSection) :
    flat (s :: rest) =
      flat rest ++ s.entries.reverse.map fun e => ⟨s.name, e.key, e.value⟩ := by
  simp [flat]

theorem continueLast_nil (done : List RawSection) : continueLast [] done = done := by
  obtain _ | ⟨⟨name, n, _ | ⟨e, es⟩⟩, rest⟩ := done <;> rfl

/-- The keys are those of the lines, each with the value that goes on over indented lines. -/
theorem flat_of_readLines {texts : List String} (h : readLines done line texts = .ok done') :
    flat done' = flat (continueLast ((contentLines texts).takeWhile isIndented) done) ++
        keyValues ((done.head?.map (·.name)).getD "") (contentLines texts) ∧
      done'.reverse.map (·.name) =
        done.reverse.map (·.name) ++ headerNames (contentLines texts) := by
  induction texts generalizing done line with
  | nil =>
    cases h
    simp [contentLines, continueLast_nil, keyValues, headerNames]
  | cons text texts ih =>
    rw [readLines] at h
    split at h
    case h_2 => cases h
    rename_i next hread
    obtain ⟨hflat, hnames⟩ := ih h
    cases hidle : isIdle (Text.trim text) with
    | true =>
      rw [readLine_of_isIdle hidle] at hread
      obtain rfl := Except.ok.inj hread
      have hlines : contentLines (text :: texts) = contentLines texts := by
        simp [contentLines, hidle]
      rw [hlines]
      exact ⟨hflat, hnames⟩
    | false =>
      have hlines : contentLines (text :: texts) = text :: contentLines texts := by
        simp [contentLines, hidle]
      rw [hlines, hflat, hnames]
      cases (readLine_eq_ok_iff hidle).mp hread with
      | @indented s e es rest hindented hentries =>
        simp [keyValues, headerNames, hindented, isHeader_eq_false hindented, continueLast,
          hentries, continued]
      | header hheader hlast =>
        have hindented : isIndented text = false := by
          simpa [isHeader] using (Bool.and_eq_true_iff.mp hheader).1
        rw [List.takeWhile_cons_of_neg (by simp [hindented]), continueLast_nil]
        simp [keyValues, headerNames, hheader, continueLast, flat_cons]
      | key hkey hequals =>
        obtain ⟨hindented, hheader⟩ : isIndented text = false ∧ isHeader text = false := by
          simpa [isKeyLine] using hkey
        rw [List.takeWhile_cons_of_neg (by simp [hindented]), continueLast_nil]
        simp [keyValues, headerNames, hheader, hindented, continueLast, flat_cons]

end

/-! ### The sections of a text -/

/-- A text has sections just where its lines may stand as they do, and these have the names in its
headers and the keys of its lines. -/
theorem rawSections_ok (text : String) :
    ((∃ raw, rawSections text = .ok raw) ↔ Placed [] (contentLines (Text.lines text))) ∧
      ∀ raw, rawSections text = .ok raw →
        raw.map (·.name) = headerNames (contentLines (Text.lines text)) ∧
          (raw.flatMap fun s => s.entries.map fun e => ⟨s.name, e.key, e.value⟩) =
            keyValues "" (contentLines (Text.lines text)) := by
  constructor
  · rw [← exists_readLines_iff 1 follows_nil, rawSections]
    cases readLines [] 1 (Text.lines text) <;> simp [Except.map]
  · intro raw h
    unfold rawSections at h
    cases hdone : readLines [] 1 (Text.lines text) with
    | error fault => simp [hdone, Except.map] at h
    | ok done =>
      rw [hdone] at h
      cases h
      obtain ⟨hflat, hnames⟩ := flat_of_readLines hdone
      constructor
      · simpa [Function.comp_def] using hnames
      · rw [List.flatMap_map]
        exact hflat

end Portability.Matrix
