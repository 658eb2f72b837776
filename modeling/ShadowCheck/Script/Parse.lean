import ShadowCheck.Script.Token

/-!
Reading declarations from tokens. A declaration that cannot be read is reported
at the token where reading stopped; reading goes on at the next declaration
keyword or after the next semicolon.
-/

namespace ShadowCheck.Script

/-- What a reader made of the tokens, and the tokens that it left. -/
abbrev Reading (α : Type) := Except SyntaxIssue α × List Token

def readName : List Token → Reading Name
  | ⟨.name text, position, _⟩ :: rest => (.ok ⟨text, position⟩, rest)
  | tokens => (.error .nameExpected, tokens)

def readType : List Token → Reading (Option Name)
  | ⟨.mark .colon, _, _⟩ :: rest =>
      match readName rest with
      | (.ok name, rest) => (.ok (some name), rest)
      | (.error issue, rest) => (.error issue, rest)
  | tokens => (.ok none, tokens)

def readValue : List Token → Reading Value
  | ⟨.quoted value quote, position, _⟩ :: rest => (.ok (.quoted position value quote), rest)
  | ⟨.number text, position, _⟩ :: rest => (.ok (.number position text), rest)
  | ⟨.boolean value, position, _⟩ :: rest => (.ok (.boolean position value), rest)
  | ⟨.name text, position, _⟩ :: rest => (.ok (.reference ⟨text, position⟩), rest)
  | tokens => (.error .valueExpected, tokens)

def readInitializer : List Token → Reading (Option Value)
  | ⟨.mark .equals, _, _⟩ :: rest =>
      match readValue rest with
      | (.ok value, rest) => (.ok (some value), rest)
      | (.error issue, rest) => (.error issue, rest)
  | tokens => (.ok none, tokens)

/-- A semicolon, the end of the text or a line feed ends a declaration; only the
semicolon is taken. -/
def readEnd : List Token → Reading Unit
  | [] => (.ok (), [])
  | ⟨.mark .semicolon, _, _⟩ :: rest => (.ok (), rest)
  | token :: rest =>
      if token.afterNewline then (.ok (), token :: rest)
      else (.error .semicolonExpected, token :: rest)

def readHead (keyword : Keyword) (position : Position) (tokens : List Token) :
    Reading Declaration :=
  match readName tokens with
  | (.error issue, rest) => (.error issue, rest)
  | (.ok name, rest) =>
      match readType rest with
      | (.error issue, rest) => (.error issue, rest)
      | (.ok type?, rest) =>
          match readInitializer rest with
          | (.error issue, rest) => (.error issue, rest)
          | (.ok initializer?, rest) =>
              (.ok ⟨keyword, position, name, type?, initializer?⟩, rest)

/-- A constant needs a value; one without is reported at its name and kept. -/
def Declaration.findings (declaration : Declaration) : List (Finding SyntaxIssue) :=
  if declaration.keyword = .constWord ∧ declaration.initializer? = none then
    [⟨declaration.name.position, .constUninitialized⟩]
  else []

def nextPosition (stop : Position) : List Token → Position
  | [] => stop
  | token :: _ => token.position

structure Attempt where
  declaration? : Option Declaration
  findings : List (Finding SyntaxIssue)
  rest : List Token

def readDeclaration (stop : Position) (keyword : Keyword) (position : Position)
    (tokens : List Token) : Attempt :=
  match readHead keyword position tokens with
  | (.error issue, rest) => ⟨none, [⟨nextPosition stop rest, issue⟩], rest⟩
  | (.ok declaration, rest) =>
      match readEnd rest with
      | (.error issue, rest) =>
          ⟨none, declaration.findings ++ [⟨nextPosition stop rest, issue⟩], rest⟩
      | (.ok (), rest) => ⟨some declaration, declaration.findings, rest⟩

/-- Skips to the next declaration keyword, or past the next semicolon. -/
def recover : List Token → List Token
  | [] => []
  | token :: rest =>
      match token.lexeme with
      | .keyword _ => token :: rest
      | .mark .semicolon => rest
      | _ => recover rest

theorem length_recover_le (tokens : List Token) :
    (recover tokens).length ≤ tokens.length := by
  fun_induction recover tokens <;> grind

theorem length_readName_le (tokens : List Token) :
    (readName tokens).2.length ≤ tokens.length := by
  unfold readName; split <;> simp

theorem length_readType_le (tokens : List Token) :
    (readType tokens).2.length ≤ tokens.length := by
  unfold readType
  split <;> grind [length_readName_le]

theorem length_readValue_le (tokens : List Token) :
    (readValue tokens).2.length ≤ tokens.length := by
  unfold readValue; split <;> simp

theorem length_readInitializer_le (tokens : List Token) :
    (readInitializer tokens).2.length ≤ tokens.length := by
  unfold readInitializer
  split <;> grind [length_readValue_le]

theorem length_readEnd_le (tokens : List Token) :
    (readEnd tokens).2.length ≤ tokens.length := by
  unfold readEnd
  split <;> grind

theorem length_readHead_le (keyword : Keyword) (position : Position) (tokens : List Token) :
    (readHead keyword position tokens).2.length ≤ tokens.length := by
  grind [readHead, length_readName_le, length_readType_le, length_readInitializer_le]

theorem length_rest_readDeclaration_le (stop : Position) (keyword : Keyword)
    (position : Position) (tokens : List Token) :
    (readDeclaration stop keyword position tokens).rest.length ≤ tokens.length := by
  grind [readDeclaration, length_readHead_le, length_readEnd_le]

structure Parsed where
  declarations : List Declaration
  findings : List (Finding SyntaxIssue)
deriving DecidableEq, Repr

def Attempt.followedBy (attempt : Attempt) (others : Parsed) : Parsed :=
  ⟨attempt.declaration?.toList ++ others.declarations, attempt.findings ++ others.findings⟩

def Attempt.resume (attempt : Attempt) : List Token :=
  if attempt.declaration?.isSome then attempt.rest else recover attempt.rest

theorem Attempt.length_resume_le (attempt : Attempt) :
    attempt.resume.length ≤ attempt.rest.length := by
  unfold resume
  split
  · exact Nat.le_refl _
  · exact length_recover_le _

def readAll (stop : Position) : List Token → Parsed
  | [] => ⟨[], []⟩
  | token :: rest =>
      match token.lexeme with
      | .mark .semicolon => readAll stop rest
      | .keyword keyword =>
          let attempt := readDeclaration stop keyword token.position rest
          attempt.followedBy (readAll stop attempt.resume)
      | _ =>
          let others := readAll stop (recover rest)
          ⟨others.declarations, ⟨token.position, .declarationExpected⟩ :: others.findings⟩
termination_by tokens => tokens.length
decreasing_by
  · simp
  · have first := length_rest_readDeclaration_le stop keyword token.position rest
    have second := (readDeclaration stop keyword token.position rest).length_resume_le
    simp only [List.length_cons]
    omega
  · have := length_recover_le rest
    simp only [List.length_cons]
    omega

/-- Reads a text as a script; findings are ordered by position. -/
def parse (file : Path) (edition : Edition) (text : String) : Script :=
  let scan := Scan.ofText text
  let parsed := readAll scan.stop scan.tokens
  ⟨file, edition, parsed.declarations, Finding.sort (scan.findings ++ parsed.findings)⟩

end ShadowCheck.Script
