import Mathlib
import Portability.Proofs.Isolation
import Portability.Proofs.TreeShape
import Portability.Proofs.TypeNames

/-! The types of variables. What a batch knows of a variable that it declares once is the stored
form of the declared type, and the variable is of the category that this form has. -/
namespace Portability

/-- The variable that a construct declares. -/
def Kind.declaredName? : Kind → Option String
  | .variableDecl name | .parameter name .. | .tableVariableDecl name | .returnTable name =>
    some name
  | _ => none

/-- The construct declares a variable with a data type: a variable of a `DECLARE` or a parameter of
a routine. -/
def Kind.isTypedVariable : Kind → Bool
  | .variableDecl _ | .parameter .. => true
  | _ => false

theorem Kind.exists_dataType {kind : Kind} (h : kind.isDataType = true) :
    ∃ raw args, kind = .dataType raw args := by
  cases kind with
  | dataType raw args => exact ⟨raw, args, rfl⟩
  | _ => cases h

/-- The site is the only one of the tree that declares the variable. -/
def Tree.DeclaresOnce (t : Tree) (name : String) (decl : Site) : Prop :=
  t.sites.filter (fun site => site.kind.declaredName?.any (Text.same name)) = [decl]

namespace Declarations

variable {schema name base : String} {d : Declarations}

theorem declaredName?_of_symbol? {n : Node}
    (h : symbol? schema n = some (name, .localVariable base)) :
    n.kind.declaredName? = some name := by
  unfold symbol? at h
  unfold Kind.declaredName?
  cases hkind : n.kind with
  | createFunction raw params kind attributes =>
    simp [hkind, functionSymbol] at h
    split at h <;> simp at h
  | _ => simp_all

/-- A site that does not declare the variable leaves it as it is. -/
theorem ownVariables_add_of_other {site : Site}
    (h : site.kind.declaredName?.any (Text.same name) = false) :
    (add schema d site).ownVariables (Text.upper name) = d.ownVariables (Text.upper name) := by
  unfold ownVariables
  rw [active_add]
  unfold add
  cases hsymbol : symbol? schema site.node with
  | none => cases quoted? site <;> rfl
  | some declared =>
    obtain ⟨other, symbol⟩ := declared
    unfold SymbolTable.declare
    cases symbol with
    | localVariable base =>
      have hname : site.kind.declaredName? = some other := declaredName?_of_symbol? hsymbol
      have hother : Text.upper name ≠ Text.upper other := by
        intro heq
        rw [hname, Option.any_some, Text.same_iff_upper.mpr heq] at h
        cases h
      simp [Symbol.kind, hother]
    | _ => rfl

theorem ownVariables_foldl_add_of_other (sites : List Site)
    (h : ∀ site ∈ sites, site.kind.declaredName?.any (Text.same name) = false) :
    (sites.foldl (add schema) d).ownVariables (Text.upper name) =
      d.ownVariables (Text.upper name) := by
  induction sites generalizing d with
  | nil => rfl
  | cons site rest ih =>
    rw [List.forall_mem_cons] at h
    rw [List.foldl_cons, ih h.2, ownVariables_add_of_other h.1]

theorem ownVariables_add_declared {site : Site}
    (h : symbol? schema site.node = some (name, .localVariable base)) :
    (add schema d site).ownVariables (Text.upper name) = some (.localVariable base) := by
  unfold ownVariables
  rw [active_add]
  unfold add
  simp [h, SymbolTable.declare, Symbol.kind]

/-- What a batch knows of a variable that it declares once is what the declaration says. -/
theorem localsOf_of_declaresOnce {t : Tree} {v : String} {decl : Site}
    (hsymbol : symbol? schema decl.node = some (v, .localVariable base))
    (honce : t.DeclaresOnce name decl) :
    localsOf schema t (Text.upper name) = some (.localVariable base) := by
  obtain ⟨before, after, hsites, -, hdecl, hafter⟩ := List.filter_eq_cons_iff.mp honce
  have hname : decl.kind.declaredName? = some v := declaredName?_of_symbol? hsymbol
  rw [hname, Option.any_some, Text.same_iff_upper] at hdecl
  have hnone : ∀ site ∈ after, site.kind.declaredName?.any (Text.same name) = false := by
    simpa using hafter
  rw [localsOf, addBatch, hsites, List.foldl_append, List.foldl_cons,
    ownVariables_foldl_add_of_other after hnone, hdecl, ownVariables_add_declared hsymbol]

/-- The declared type of a node is that of its first part, if this is a data type. -/
theorem declaredType?_eq {n type : Node} {rest : List Node} {raw : String} {args : Option String}
    (hparts : n.children = type :: rest) (htype : type.kind = .dataType raw args) :
    declaredType? n = some (Category.baseTypeName raw) := by
  simp [declaredType?, Node.child?, hparts, htype]

/-- A variable with a data type has it as its first part and is declared with its stored form. -/
theorem exists_dataType (schema : String) {n : Node} (htyped : n.kind.isTypedVariable = true)
    (hadmits : n.kind.Admits n.children) :
    ∃ v D raw args, n.children.head? = some D ∧ D.kind = .dataType raw args ∧
      symbol? schema n = some (v, .localVariable (Category.baseTypeName raw)) := by
  obtain ⟨v, D, rest, hparts, htype, hsymbol⟩ : ∃ v D rest, n.children = D :: rest ∧
      D.kind.isDataType = true ∧
      symbol? schema n = some (v, .localVariable ((declaredType? n).getD "")) := by
    unfold symbol?
    cases hkind : n.kind with
    | variableDecl v =>
      rw [hkind] at hadmits
      obtain ⟨D, rest, hparts, htype⟩ := hadmits
      exact ⟨v, D, rest, hparts, htype, rfl⟩
    | parameter v =>
      rw [hkind] at hadmits
      obtain ⟨D, rest, hparts, htype, -⟩ := hadmits
      exact ⟨v, D, rest, hparts, htype, rfl⟩
    | _ => simp [hkind, Kind.isTypedVariable] at htyped
  obtain ⟨raw, args, hD⟩ := Kind.exists_dataType htype
  refine ⟨v, D, raw, args, by simp [hparts], hD, ?_⟩
  rw [hsymbol, declaredType?_eq hparts hD, Option.getD_some]

end Declarations

namespace Category

variable {s : Setting}

theorem ofNode_dataType {D : Node} {raw : String} {args : Option String}
    (h : D.kind = .dataType raw args) :
    ofNode s D = ofDeclared s.symbols s.schema raw := by
  obtain ⟨_, kind, _, _, _, children⟩ := D
  cases h
  rfl

theorem ofNode_localVariable {use : Node} {name base : String} (h : use.kind = .localVariable name)
    (hbase : s.symbols.find? .localVariable name = some (.localVariable base)) :
    ofNode s use = ofDeclared s.symbols s.schema base := by
  obtain ⟨_, kind, _, _, _, children⟩ := use
  cases h
  simp [ofNode, ofKind, ofVariable, SymbolTable.variableType?, hbase]

end Category

namespace Analysis

variable {script : String} {batches : List ParsedBatch} {i : Nat}
  {p : ParsedBatch} {name : String} {decl : Site}

/-- A variable has the type it was declared with, in the form in which the type is stored. -/
theorem variable_category (m : Matrix) (limits : NameLimits) (settings : Settings)
    (hparse : parse? script = some batches) (hp : batches[i]? = some p)
    (honce : p.tree.DeclaresOnce name decl) (htyped : decl.kind.isTypedVariable = true) :
    ∃ D raw args, decl.node.children.head? = some D ∧ D.kind = .dataType raw args ∧
      let s := scope m limits settings
        (Declarations.ofTrees settings.schema settings.quotedIdentifier (batches.map (·.tree)))
        i p.tree
      (∀ use v, use.kind = .localVariable v → Text.same name v →
        s.category use =
            Category.ofDeclared s.symbols s.schema (Category.baseTypeName raw) ∧
          (Category.Keeps s.schema raw → s.category use = s.category D)) ∧
      (Category.Keeps s.schema raw ↔ ∀ symbols,
        Category.ofDeclared symbols s.schema (Category.baseTypeName raw) =
          Category.ofDeclared symbols s.schema raw) ∧
      ∀ parts texts, Category.Plain parts → List.Forall₂ Identifier.Written parts texts →
        raw = String.intercalate "." texts → Category.Keeps s.schema raw := by
  have htree : Tree.ofText? p.batch.content = some p.tree :=
    (parse?_eq_some hparse).2 p (List.mem_of_getElem? hp)
  have hdecl : decl ∈ p.tree.sites := (List.mem_filter.mp (honce ▸ List.mem_singleton_self decl)).1
  have hadmits := ((Tree.conforms_ofText? htree).site hdecl).1
  obtain ⟨v, D, raw, args, hD, hkind, hsymbol⟩ :=
    Declarations.exists_dataType settings.schema htyped hadmits
  have hlocal := Declarations.localsOf_of_declaresOnce hsymbol honce
  have hat : (batches.map (·.tree))[i]? = some p.tree := by simp [hp]
  refine ⟨D, raw, args, hD, hkind, ?_⟩
  intro s
  refine ⟨?_, ?_, ?_⟩
  · intro use v' huse hname
    have hlocals : s.symbols.find? .localVariable v' =
        Declarations.localsOf settings.schema p.tree (Text.upper v') :=
      congrFun (Declarations.locals_ofTrees hat) _
    rw [← Text.same_iff_upper.mp hname, hlocal] at hlocals
    have hstored : s.category use =
        Category.ofDeclared s.symbols s.schema (Category.baseTypeName raw) :=
      Category.ofNode_localVariable huse hlocals
    refine ⟨hstored, fun hkeeps => ?_⟩
    have hspelled : s.category D = Category.ofDeclared s.symbols s.schema raw :=
      Category.ofNode_dataType hkind
    rw [hstored, hspelled, Category.ofDeclared_of_keeps hkeeps]
  · exact ⟨fun h symbols => Category.ofDeclared_of_keeps h, Category.keeps_of_ofDeclared⟩
  · rintro parts texts hplain hwritten rfl
    exact Category.keeps_plain hwritten hplain

/-- A parameter, and a type that is not what its stored form means. -/
theorem variable_category_parameter :
    (∃ p decl D use,
      parse? "CREATE PROC p @a dbo.T AS PRINT @A" = some [p] ∧ p.tree.DeclaresOnce "@a" decl ∧
      decl.node.children.head? = some D ∧ D.kind = .dataType "dbo.T" none ∧
      use ∈ p.tree.sites ∧ use.kind = .localVariable "@A" ∧
      let s := scope .default ⟨128, []⟩ {} (Declarations.ofTrees "dbo" true [p.tree]) 0 p.tree
      s.category use.node = s.category D) ∧
    ¬ Category.Keeps "dbo" "[my type]" := by
  constructor
  · have hsplit : Batch.split "CREATE PROC p @a dbo.T AS PRINT @A" =
        [⟨1, "CREATE PROC p @a dbo.T AS PRINT @A\n", 1, none, []⟩] := by decide +kernel
    have hrun : ((Tree.ofText? "CREATE PROC p @a dbo.T AS PRINT @A\n").map fun t =>
        t.sites.map fun x => (x.kind, x.node.children.head?.map Node.kind)) =
        some [(.batch, some (.createProcedure "p" .create [] none)),
          (.createProcedure "p" .create [] none, some (.parameter "@a" false false false)),
          (.parameter "@a" false false false, some (.dataType "dbo.T" none)),
          (.dataType "dbo.T" none, none), (.print, some (.localVariable "@A")),
          (.localVariable "@A", none)] :=
      Tree.map_ofText?_of_apart (by decide +kernel)
    obtain ⟨t, ht, hfacts⟩ := Option.map_eq_some_iff.mp hrun
    have hparse : parse? "CREATE PROC p @a dbo.T AS PRINT @A" =
        some [⟨⟨1, "CREATE PROC p @a dbo.T AS PRINT @A\n", 1, none, []⟩, t⟩] := by
      simp [parse?, hsplit, ht]
    obtain ⟨batch, _, hsites, hbatch, hfacts⟩ := List.map_eq_cons_iff.mp hfacts
    obtain ⟨routine, _, rfl, hroutine, hfacts⟩ := List.map_eq_cons_iff.mp hfacts
    obtain ⟨decl, _, rfl, hdecl, hfacts⟩ := List.map_eq_cons_iff.mp hfacts
    obtain ⟨type, _, rfl, htype, hfacts⟩ := List.map_eq_cons_iff.mp hfacts
    obtain ⟨print, _, rfl, hprint, hfacts⟩ := List.map_eq_cons_iff.mp hfacts
    obtain ⟨use, _, rfl, huse, hfacts⟩ := List.map_eq_cons_iff.mp hfacts
    obtain rfl := List.map_eq_nil_iff.mp hfacts
    simp only [Prod.mk.injEq] at hbatch hroutine hdecl htype hprint huse
    have hself : Text.same "@a" "@a" = true := by simp [Text.same]
    have honce : t.DeclaresOnce "@a" decl := by
      simp [Tree.DeclaresOnce, hsites, hbatch, hroutine, hdecl, htype, hprint, huse,
        Kind.declaredName?, hself]
    have hcase : Text.same "@a" "@A" = true := by
      rw [Text.same_iff_upper, Text.upper_eq_ofList, Text.upper_eq_ofList]
      decide +kernel
    obtain ⟨D, raw, args, hD, hkind, hcategory, -, hplain⟩ :=
      variable_category .default ⟨128, []⟩ {} hparse (show [_][0]? = some _ from rfl) honce
        (by rw [hdecl.1]; rfl)
    have hspelled : D.kind = .dataType "dbo.T" none := by simpa [hD] using hdecl.2
    obtain ⟨rfl, rfl⟩ : raw = "dbo.T" ∧ args = none := by simpa [hkind] using hspelled
    have hparts : Category.Plain ["dbo", "T"] := by
      refine ⟨by simp, by simp; decide, ?_⟩
      rintro first next rest ⟨rfl, -⟩
      rw [Text.same_iff_upper, Text.upper_eq_ofList, Text.upper_eq_ofList]
      decide +kernel
    have hkeeps := hplain _ _ hparts hparts.written (by decide +kernel)
    refine ⟨_, decl, D, use, hparse, honce, hD, hkind, by simp [hsites], huse.1, ?_⟩
    exact (hcategory use.node "@A" huse.1 hcase).2 hkeeps
  · have hstored : Category.baseTypeName "[my type]" = "MY TYPE" := by
      apply String.toList_inj.mp
      rw [Category.toList_baseTypeName]
      decide +kernel
    have hunknown : Category.ofTypeName "[my type]" = .unknown := by
      apply Category.ofTypeName_eq_unknown_of_not_mem
      rw [hstored]
      decide +kernel
    rintro (hknown | ⟨-, hkey⟩)
    · exact hknown hunknown
    · rw [hstored] at hkey
      have hchars := congrArg String.toList hkey
      rw [Name.toList_key (by decide +kernel), Name.toList_key (by decide +kernel),
        Text.toList_upper, Text.toList_upper, Text.toList_upper, Text.toList_upper] at hchars
      revert hchars
      decide +kernel

end Analysis

end Portability
