import ShadowCheck.Proofs.Diagnostic.Order
import ShadowCheck.Proofs.Script.Spelling

/-!
The grammar of scripts. A text has no errors just when all of it can be scanned
and its tokens form a program; then there is one list of declarations that these
tokens can stand for, and it is the list that reading gives.
-/

namespace ShadowCheck.Script

/-- A program: declarations, each with its end, and semicolons that stand alone.
A constant needs a value. -/
inductive Derives : List Token → List Declaration → Prop
  | empty : Derives [] []
  | semicolon (position : Position) (newline : Bool) {tokens : List Token}
      {declarations : List Declaration} (others : Derives tokens declarations) :
      Derives (⟨.mark .semicolon, position, newline⟩ :: tokens) declarations
  | declaration (newline : Bool) {first : Declaration} {front ending rest : List Token}
      {declarations : List Declaration} (spells : Spells first front) (ends : Ends ending rest)
      (valued : first.keyword = .constWord → first.initializer?.isSome)
      (others : Derives rest declarations) :
      Derives (⟨.keyword first.keyword, first.position, newline⟩ :: (front ++ (ending ++ rest)))
        (first :: declarations)

theorem Declaration.findings_eq_nil_iff (declaration : Declaration) :
    declaration.findings = [] ↔
      (declaration.keyword = .constWord → declaration.initializer?.isSome) := by
  unfold findings
  cases declaration.initializer? <;> simp

/-! Programs are read without errors. -/

theorem Derives.settles {tokens : List Token} {declarations : List Declaration}
    (derives : Derives tokens declarations) : Settles tokens := by
  cases derives with
  | empty => exact nofun
  | semicolon position newline => exact settles_semicolon position newline _
  | declaration newline =>
      rintro token ⟨rfl⟩
      exact ⟨nofun, nofun⟩

theorem Ends.settles {ending rest : List Token} (ends : Ends ending rest)
    (settles : Settles rest) : Settles (ending ++ rest) := by
  cases ends with
  | semicolon position newline => exact settles_semicolon position newline rest
  | stop => exact settles
  | newline => exact settles

theorem Derives.readAll_eq {tokens : List Token} {declarations : List Declaration}
    (derives : Derives tokens declarations) (stop : Position) :
    readAll stop tokens = ⟨declarations, []⟩ := by
  induction derives with
  | empty => rw [readAll]
  | semicolon position newline others ih => rw [readAll_semicolon, ih]
  | @declaration newline first front ending rest declarations spells ends valued others ih =>
      have quiet := first.findings_eq_nil_iff.mpr valued
      rw [spells.readAll_append ends (ends.settles others.settles), ih, quiet]
      rfl

theorem Derives.findings_eq_nil {tokens : List Token} {declarations : List Declaration}
    (derives : Derives tokens declarations) :
    ∀ declaration ∈ declarations, declaration.findings = [] := by
  induction derives with
  | empty => exact nofun
  | semicolon position newline others ih => exact ih
  | @declaration newline first front ending rest declarations spells ends valued others ih =>
      exact List.forall_mem_cons.mpr ⟨first.findings_eq_nil_iff.mpr valued, ih⟩

/-! What is read without errors is a program. -/

theorem exists_declaration_of_quiet {stop position : Position} {keyword : Keyword}
    {tokens : List Token}
    (quiet : (readDeclaration stop keyword position tokens).findings = []) :
    ∃ declaration,
      (readDeclaration stop keyword position tokens).declaration? = some declaration := by
  unfold readDeclaration at quiet ⊢
  split at quiet
  · cases quiet
  split at quiet
  · exact absurd quiet (List.append_ne_nil_of_right_ne_nil _ (List.cons_ne_nil _ _))
  · exact ⟨_, rfl⟩

theorem derives_readAll {stop : Position} {tokens : List Token}
    (quiet : (readAll stop tokens).findings = []) :
    Derives tokens (readAll stop tokens).declarations := by
  fun_induction readAll stop tokens with
  | case1 => exact .empty
  | case2 token rest isMark ih =>
      obtain ⟨lexeme, position, newline⟩ := token
      cases isMark
      exact .semicolon position newline (ih quiet)
  | case3 token rest keyword isKeyword attempt =>
      rename_i ih
      obtain ⟨lexeme, position, newline⟩ := token
      cases isKeyword
      obtain ⟨here, later⟩ := List.append_eq_nil_iff.mp quiet
      obtain ⟨declaration, read⟩ := exists_declaration_of_quiet here
      obtain ⟨rfl, rfl, findings, front, ending, tokens, spells, ends⟩ :=
        exists_spells_of_readDeclaration read
      have valued := declaration.findings_eq_nil_iff.mp (findings.symm.trans here)
      have resumed : attempt.resume = attempt.rest := by
        rw [Attempt.resume, if_pos (by rw [read]; rfl)]
      have listed : attempt.declaration?.toList = [declaration] := by rw [read]; rfl
      rw [resumed] at ih later
      simp only [Attempt.followedBy, listed, resumed]
      rw [tokens]
      exact .declaration newline spells ends valued (ih later)
  | case4 => cases quiet

theorem diagnostics_parse_eq_nil_iff_readAll (file : Path) (edition : Edition) (text : String) :
    (parse file edition text).diagnostics = [] ↔
      (Scan.ofText text).findings = [] ∧
        (readAll (Scan.ofText text).stop (Scan.ofText text).tokens).findings = [] := by
  rw [diagnostics, List.map_eq_nil_iff, ← List.append_eq_nil_iff]
  exact Finding.sort_eq_nil_iff

/-- A text has no errors exactly when it can be scanned without errors and its
tokens form a program, and the declarations of such a text are all that any
derivation of its tokens gives. -/
theorem diagnostics_parse_eq_nil_iff (file : Path) (edition : Edition) (text : String) :
    let scan := Scan.ofText text
    let script := parse file edition text
    (script.diagnostics = [] ↔
      scan.findings = [] ∧ ∃ declarations, Derives scan.tokens declarations) ∧
    ∀ declarations, scan.findings = [] ∧ Derives scan.tokens declarations ↔
      script.diagnostics = [] ∧ declarations = script.declarations := by
  intro scan script
  have read : script.declarations = (readAll scan.stop scan.tokens).declarations := rfl
  have unique : ∀ declarations, scan.findings = [] ∧ Derives scan.tokens declarations ↔
      script.diagnostics = [] ∧ declarations = script.declarations := by
    intro declarations
    rw [diagnostics_parse_eq_nil_iff_readAll, read]
    constructor
    · rintro ⟨scanned, derives⟩
      rw [derives.readAll_eq]
      exact ⟨⟨scanned, rfl⟩, rfl⟩
    · rintro ⟨⟨scanned, quiet⟩, rfl⟩
      exact ⟨scanned, derives_readAll quiet⟩
  refine ⟨⟨?_, ?_⟩, unique⟩
  · intro quiet
    obtain ⟨scanned, derives⟩ := (unique script.declarations).mpr ⟨quiet, rfl⟩
    exact ⟨scanned, _, derives⟩
  · rintro ⟨scanned, declarations, derives⟩
    exact ((unique declarations).mp ⟨scanned, derives⟩).1

/-- A line feed in front of a colon or an equals sign ends no declaration. -/
example : (parse ⟨"/a.ts"⟩ .latest "const a\n: T\n= 1\nlet b").diagnostics = [] := by
  decide +kernel

end ShadowCheck.Script
