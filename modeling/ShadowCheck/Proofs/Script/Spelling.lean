import ShadowCheck.Proofs.Script.Legible
import ShadowCheck.Script.Parse

/-!
How declarations are spelled as tokens. A reader takes the tokens that spell a
declaration and gives that declaration, and it gives no other.
-/

namespace ShadowCheck.Script

def Value.lexeme : Value → Lexeme
  | quoted _ value quote => .quoted value quote
  | number _ text => .number text
  | boolean _ value => .boolean value
  | reference name => .name name.text

theorem Value.text_eq (value : Value) : value.text = value.lexeme.text := by
  cases value <;> rfl

inductive SpellsType : Option Name → List Token → Prop
  | absent : SpellsType none []
  | present (name : Name) (position : Position) (first second : Bool) :
      SpellsType (some name)
        [⟨.mark .colon, position, first⟩, ⟨.name name.text, name.position, second⟩]

inductive SpellsInitializer : Option Value → List Token → Prop
  | absent : SpellsInitializer none []
  | present (value : Value) (position : Position) (first second : Bool) :
      SpellsInitializer (some value)
        [⟨.mark .equals, position, first⟩, ⟨value.lexeme, value.position, second⟩]

/-- The tokens of a declaration between its keyword and its end. -/
inductive Spells (declaration : Declaration) : List Token → Prop
  | mk (newline : Bool) {typeTokens valueTokens : List Token}
      (type : SpellsType declaration.type? typeTokens)
      (initializer : SpellsInitializer declaration.initializer? valueTokens) :
      Spells declaration
        (⟨.name declaration.name.text, declaration.name.position, newline⟩ ::
          (typeTokens ++ valueTokens))

/-- What ends a declaration, and what is left after it. -/
inductive Ends : List Token → List Token → Prop
  | semicolon (position : Position) (newline : Bool) (rest : List Token) :
      Ends [⟨.mark .semicolon, position, newline⟩] rest
  | stop : Ends [] []
  | newline (token : Token) (rest : List Token) (after : token.afterNewline) :
      Ends [] (token :: rest)

/-- What follows a declaration does not go on with its type or its value. -/
def Settles (rest : List Token) : Prop :=
  ∀ token ∈ rest.head?, token.lexeme ≠ .mark .colon ∧ token.lexeme ≠ .mark .equals

theorem readType_of_ne {tokens : List Token}
    (other : ∀ token ∈ tokens.head?, token.lexeme ≠ .mark .colon) :
    readType tokens = (.ok none, tokens) := by
  unfold readType
  split
  · exact absurd rfl (other _ rfl)
  · rfl

theorem readInitializer_of_ne {tokens : List Token}
    (other : ∀ token ∈ tokens.head?, token.lexeme ≠ .mark .equals) :
    readInitializer tokens = (.ok none, tokens) := by
  unfold readInitializer
  split
  · exact absurd rfl (other _ rfl)
  · rfl

theorem readValue_lexeme (value : Value) (newline : Bool) (rest : List Token) :
    readValue (⟨value.lexeme, value.position, newline⟩ :: rest) = (.ok value, rest) := by
  cases value <;> rfl

theorem SpellsType.readType_append {type? : Option Name} {tokens : List Token}
    (spells : SpellsType type? tokens) {rest : List Token}
    (other : ∀ token ∈ rest.head?, token.lexeme ≠ .mark .colon) :
    readType (tokens ++ rest) = (.ok type?, rest) := by
  cases spells with
  | absent => exact readType_of_ne other
  | present => rfl

theorem SpellsInitializer.readInitializer_append {initializer? : Option Value}
    {tokens : List Token} (spells : SpellsInitializer initializer? tokens) {rest : List Token}
    (other : ∀ token ∈ rest.head?, token.lexeme ≠ .mark .equals) :
    readInitializer (tokens ++ rest) = (.ok initializer?, rest) := by
  cases spells with
  | absent => exact readInitializer_of_ne other
  | present value position first second =>
      simp [readInitializer, readValue_lexeme]

theorem SpellsInitializer.ne_colon_append {initializer? : Option Value}
    {tokens : List Token} (spells : SpellsInitializer initializer? tokens) {rest : List Token}
    (other : ∀ token ∈ rest.head?, token.lexeme ≠ .mark .colon) :
    ∀ token ∈ (tokens ++ rest).head?, token.lexeme ≠ .mark .colon := by
  cases spells with
  | absent => exact other
  | present =>
      rintro token ⟨rfl⟩
      exact nofun

/-- The tokens that spell a declaration are read as that declaration. -/
theorem Spells.readHead_append {declaration : Declaration} {tokens : List Token}
    (spells : Spells declaration tokens) {rest : List Token} (settles : Settles rest) :
    readHead declaration.keyword declaration.position (tokens ++ rest) =
      (.ok declaration, rest) := by
  obtain ⟨newline, type, initializer⟩ := spells
  rename_i typeTokens valueTokens
  have noColon := initializer.ne_colon_append fun token first => (settles token first).1
  have readsType := type.readType_append noColon
  have readsValue := initializer.readInitializer_append fun token first => (settles token first).2
  rw [List.cons_append, List.append_assoc]
  simp [readHead, readName, readsType, readsValue]

theorem settles_semicolon (position : Position) (newline : Bool) (rest : List Token) :
    Settles (⟨.mark .semicolon, position, newline⟩ :: rest) := by
  rintro token ⟨rfl⟩
  exact ⟨nofun, nofun⟩

theorem readAll_semicolon (stop position : Position) (newline : Bool) (rest : List Token) :
    readAll stop (⟨.mark .semicolon, position, newline⟩ :: rest) = readAll stop rest := by
  rw [readAll]

/-- The end of a declaration is taken, and with it at most a semicolon on the line
below, which says nothing. -/
theorem Ends.exists_readEnd_append {ending rest : List Token} (ends : Ends ending rest)
    (stop : Position) :
    ∃ left, readEnd (ending ++ rest) = (.ok (), left) ∧
      readAll stop left = readAll stop rest := by
  cases ends with
  | semicolon position newline => exact ⟨rest, rfl, rfl⟩
  | stop => exact ⟨[], rfl, rfl⟩
  | newline token rest after =>
      obtain ⟨lexeme, position, newline⟩ := token
      by_cases isEnd : lexeme = .mark .semicolon
      · subst isEnd
        exact ⟨rest, rfl, (readAll_semicolon stop position newline rest).symm⟩
      · refine ⟨⟨lexeme, position, newline⟩ :: rest, ?_, rfl⟩
        rw [List.nil_append, readEnd, if_pos after]
        rintro _ _ ⟨rfl⟩
        exact isEnd rfl

/-- Tokens that spell a declaration and end it give that declaration, and then
what the tokens after them give. -/
theorem Spells.readAll_append {declaration : Declaration} {tokens : List Token}
    (spells : Spells declaration tokens) {ending rest : List Token} (ends : Ends ending rest)
    (settles : Settles (ending ++ rest)) (stop : Position) (newline : Bool) :
    readAll stop (⟨.keyword declaration.keyword, declaration.position, newline⟩ ::
        (tokens ++ (ending ++ rest))) =
      ⟨declaration :: (readAll stop rest).declarations,
        declaration.findings ++ (readAll stop rest).findings⟩ := by
  obtain ⟨left, ended, same⟩ := ends.exists_readEnd_append stop
  have head := spells.readHead_append settles
  have attempt : readDeclaration stop declaration.keyword declaration.position
      (tokens ++ (ending ++ rest)) = ⟨some declaration, declaration.findings, left⟩ := by
    simp only [readDeclaration, head, ended]
  rw [readAll, ← same]
  simp only [attempt]
  rfl

theorem exists_of_readName {tokens rest : List Token} {name : Name}
    (read : readName tokens = (.ok name, rest)) :
    ∃ newline, tokens = ⟨.name name.text, name.position, newline⟩ :: rest := by
  unfold readName at read
  split at read
  · cases read
    exact ⟨_, rfl⟩
  · cases read

theorem exists_spellsType_of_readType {tokens rest : List Token} {type? : Option Name}
    (read : readType tokens = (.ok type?, rest)) :
    ∃ front, tokens = front ++ rest ∧ SpellsType type? front := by
  unfold readType at read
  split at read
  · rename_i position newline after
    cases named : readName after with
    | mk outcome left =>
        cases outcome with
        | error issue => simp [named] at read
        | ok name =>
            obtain ⟨second, rfl⟩ := exists_of_readName named
            simp only [named, Prod.mk.injEq, Except.ok.injEq] at read
            obtain ⟨rfl, rfl⟩ := read
            exact ⟨_, rfl, .present name position newline second⟩
  · cases read
    exact ⟨[], rfl, .absent⟩

theorem exists_of_readValue {tokens rest : List Token} {value : Value}
    (read : readValue tokens = (.ok value, rest)) :
    ∃ newline, tokens = ⟨value.lexeme, value.position, newline⟩ :: rest := by
  unfold readValue at read
  split at read
  all_goals cases read
  all_goals exact ⟨_, rfl⟩

theorem exists_spellsInitializer_of_readInitializer {tokens rest : List Token}
    {initializer? : Option Value}
    (read : readInitializer tokens = (.ok initializer?, rest)) :
    ∃ front, tokens = front ++ rest ∧ SpellsInitializer initializer? front := by
  unfold readInitializer at read
  split at read
  · rename_i position newline after
    cases valued : readValue after with
    | mk outcome left =>
        cases outcome with
        | error issue => simp [valued] at read
        | ok value =>
            obtain ⟨second, rfl⟩ := exists_of_readValue valued
            simp only [valued, Prod.mk.injEq, Except.ok.injEq] at read
            obtain ⟨rfl, rfl⟩ := read
            exact ⟨_, rfl, .present value position newline second⟩
  · cases read
    exact ⟨[], rfl, .absent⟩

theorem exists_spells_of_readHead {keyword : Keyword} {position : Position}
    {tokens rest : List Token} {declaration : Declaration}
    (read : readHead keyword position tokens = (.ok declaration, rest)) :
    declaration.keyword = keyword ∧ declaration.position = position ∧
      ∃ front, tokens = front ++ rest ∧ Spells declaration front := by
  unfold readHead at read
  split at read
  · cases read
  rename_i name afterName named
  split at read
  · cases read
  rename_i type? afterType typed
  split at read
  · cases read
  rename_i initializer? afterValue valued
  cases read
  obtain ⟨newline, rfl⟩ := exists_of_readName named
  obtain ⟨typeTokens, rfl, type⟩ := exists_spellsType_of_readType typed
  obtain ⟨valueTokens, rfl, initializer⟩ := exists_spellsInitializer_of_readInitializer valued
  refine ⟨rfl, rfl, _, ?_, .mk newline type initializer⟩
  rw [List.cons_append, List.append_assoc]

theorem exists_ends_of_readEnd {tokens rest : List Token}
    (read : readEnd tokens = (.ok (), rest)) :
    ∃ ending, tokens = ending ++ rest ∧ Ends ending rest := by
  unfold readEnd at read
  split at read
  · cases read
    exact ⟨[], rfl, .stop⟩
  · cases read
    exact ⟨_, rfl, .semicolon _ _ _⟩
  · rename_i token after _
    split at read
    · rename_i afterNewline
      cases read
      exact ⟨[], rfl, .newline token after afterNewline⟩
    · cases read

theorem exists_of_readDeclaration {stop : Position} {keyword : Keyword} {position : Position}
    {tokens : List Token} {declaration : Declaration}
    (read : (readDeclaration stop keyword position tokens).declaration? = some declaration) :
    ∃ afterHead rest,
      readHead keyword position tokens = (.ok declaration, afterHead) ∧
      readEnd afterHead = (.ok (), rest) ∧
      readDeclaration stop keyword position tokens =
        ⟨some declaration, declaration.findings, rest⟩ := by
  unfold readDeclaration at read ⊢
  split at read
  · cases read
  rename_i found afterHead head
  split at read
  · cases read
  rename_i rest ended
  cases read
  exact ⟨afterHead, rest, head, ended, rfl⟩

/-- A declaration that was read was spelled by the tokens taken, and came to an end. -/
theorem exists_spells_of_readDeclaration {stop position : Position} {keyword : Keyword}
    {tokens : List Token} {declaration : Declaration}
    (read : (readDeclaration stop keyword position tokens).declaration? = some declaration) :
    declaration.keyword = keyword ∧ declaration.position = position ∧
      (readDeclaration stop keyword position tokens).findings = declaration.findings ∧
      ∃ front ending,
        tokens = front ++ (ending ++ (readDeclaration stop keyword position tokens).rest) ∧
        Spells declaration front ∧
        Ends ending (readDeclaration stop keyword position tokens).rest := by
  obtain ⟨afterHead, rest, head, ended, attempt⟩ := exists_of_readDeclaration read
  obtain ⟨sameKeyword, samePosition, front, taken, spells⟩ := exists_spells_of_readHead head
  obtain ⟨ending, left, ends⟩ := exists_ends_of_readEnd ended
  rw [attempt, taken, left]
  exact ⟨sameKeyword, samePosition, rfl, front, ending, rfl, spells, ends⟩

end ShadowCheck.Script
