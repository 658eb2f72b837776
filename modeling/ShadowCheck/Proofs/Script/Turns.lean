import ShadowCheck.Proofs.Script.Standing

/-!
Reading turn by turn. A turn takes the tokens of a declaration, a semicolon, or what cannot
be read, and the next turn starts where it stopped. Every keyword is taken by a turn of its
own, which either gives its declaration or reports once why there is none.
-/

namespace ShadowCheck.Script

structure Turn where
  read : Parsed
  left : List Token

/-- What is read from a token on, and the tokens that are left then. -/
def turn (stop : Position) (token : Token) (rest : List Token) : Turn :=
  match token.lexeme with
  | .mark .semicolon => ⟨⟨[], []⟩, rest⟩
  | .keyword keyword =>
      let attempt := readDeclaration stop keyword token.position rest
      ⟨⟨attempt.declaration?.toList, attempt.findings⟩, attempt.resume⟩
  | _ => ⟨⟨[], [⟨token.position, .declarationExpected⟩]⟩, recover rest⟩

theorem readAll_nil (stop : Position) : readAll stop [] = ⟨[], []⟩ := by
  rw [readAll]

theorem readAll_cons (stop : Position) (token : Token) (rest : List Token) :
    readAll stop (token :: rest) =
      ⟨(turn stop token rest).read.declarations ++
          (readAll stop (turn stop token rest).left).declarations,
        (turn stop token rest).read.findings ++
          (readAll stop (turn stop token rest).left).findings⟩ := by
  obtain ⟨lexeme, position, newline⟩ := token
  rw [readAll]
  cases lexeme with
  | mark kind => cases kind <;> rfl
  | _ => rfl

theorem left_turn_suffix (stop : Position) (token : Token) (rest : List Token) :
    (turn stop token rest).left <:+ rest := by
  unfold turn
  split
  · exact List.suffix_refl rest
  · rename_i keyword isKeyword
    have left := rest_readDeclaration_suffix stop keyword token.position rest
    exact (Attempt.resume_suffix _).trans left
  · exact recover_suffix rest

theorem length_left_turn_lt (stop : Position) (token : Token) (rest : List Token) :
    (turn stop token rest).left.length < (token :: rest).length :=
  Nat.lt_succ_of_le (left_turn_suffix stop token rest).length_le

/-- The turns of a reading, each with the tokens that it takes, until none are left. -/
inductive Turns (stop : Position) : List Token → List (List Token × Parsed) → Prop
  | done : Turns stop [] []
  | next {token : Token} {rest taken : List Token} {turns : List (List Token × Parsed)}
      (takes : token :: rest = taken ++ (turn stop token rest).left)
      (others : Turns stop (turn stop token rest).left turns) :
      Turns stop (token :: rest) ((taken, (turn stop token rest).read) :: turns)

theorem exists_turns (stop : Position) (tokens : List Token) :
    ∃ turns, Turns stop tokens turns := by
  cases tokens with
  | nil => exact ⟨[], .done⟩
  | cons token rest =>
      obtain ⟨turns, others⟩ := exists_turns stop (turn stop token rest).left
      obtain ⟨taken, whole⟩ :=
        (left_turn_suffix stop token rest).trans (List.suffix_cons token rest)
      exact ⟨_, .next whole.symm others⟩
termination_by tokens.length
decreasing_by exact length_left_turn_lt stop token rest

section

variable {stop : Position} {tokens : List Token} {turns : List (List Token × Parsed)}

theorem Turns.flatMap_taken (reads : Turns stop tokens turns) :
    turns.flatMap (·.1) = tokens := by
  induction reads with
  | done => rfl
  | next takes others ih => rw [List.flatMap_cons, ih, takes]

theorem Turns.taken_ne_nil (reads : Turns stop tokens turns) : ∀ turn ∈ turns, turn.1 ≠ [] := by
  induction reads with
  | done => exact nofun
  | @next token rest taken turns takes others ih =>
      refine List.forall_mem_cons.mpr ⟨?_, ih⟩
      rintro rfl
      have shorter := length_left_turn_lt stop token rest
      rw [takes] at shorter
      exact Nat.lt_irrefl _ shorter

theorem Turns.readAll_eq (reads : Turns stop tokens turns) :
    readAll stop tokens =
      ⟨turns.flatMap (·.2.declarations), turns.flatMap (·.2.findings)⟩ := by
  induction reads with
  | done => exact readAll_nil stop
  | next takes others ih => rw [readAll_cons, ih, List.flatMap_cons, List.flatMap_cons]

end

/-! Keywords. -/

def Lexeme.isKeyword : Lexeme → Bool
  | keyword _ => true
  | _ => false

def keywords (tokens : List Token) : List Token :=
  tokens.filter (·.lexeme.isKeyword)

theorem keywords_cons_of_other {token : Token} (other : token.lexeme.isKeyword = false)
    (rest : List Token) : keywords (token :: rest) = keywords rest :=
  List.filter_cons_of_neg (by simp [other])

theorem keywords_readName (tokens : List Token) :
    keywords (readName tokens).2 = keywords tokens := by
  unfold readName
  split
  · exact (keywords_cons_of_other rfl _).symm
  · rfl

theorem keywords_readType (tokens : List Token) :
    keywords (readType tokens).2 = keywords tokens := by
  unfold readType
  split
  · rename_i position newline rest
    have named := keywords_readName rest
    rw [keywords_cons_of_other rfl]
    split <;> rename_i read <;> rw [read] at named <;> exact named
  · rfl

theorem keywords_readValue (tokens : List Token) :
    keywords (readValue tokens).2 = keywords tokens := by
  unfold readValue
  split
  all_goals first | exact (keywords_cons_of_other rfl _).symm | rfl

theorem keywords_readInitializer (tokens : List Token) :
    keywords (readInitializer tokens).2 = keywords tokens := by
  unfold readInitializer
  split
  · rename_i position newline rest
    have valued := keywords_readValue rest
    rw [keywords_cons_of_other rfl]
    split <;> rename_i read <;> rw [read] at valued <;> exact valued
  · rfl

theorem keywords_readEnd (tokens : List Token) :
    keywords (readEnd tokens).2 = keywords tokens := by
  unfold readEnd
  split
  · rfl
  · exact (keywords_cons_of_other rfl _).symm
  · split <;> rfl

theorem keywords_readHead (keyword : Keyword) (position : Position) (tokens : List Token) :
    keywords (readHead keyword position tokens).2 = keywords tokens := by
  have named := keywords_readName tokens
  unfold readHead
  split <;> rename_i afterName readsName <;> rw [readsName] at named
  · exact named
  have typed := keywords_readType afterName
  split <;> rename_i afterType readsType <;> rw [readsType] at typed
  · exact typed.trans named
  have valued := keywords_readInitializer afterType
  split <;> rename_i afterValue readsValue <;> rw [readsValue] at valued
  · exact valued.trans (typed.trans named)
  · exact valued.trans (typed.trans named)

theorem keywords_readDeclaration (stop : Position) (keyword : Keyword) (position : Position)
    (tokens : List Token) :
    keywords (readDeclaration stop keyword position tokens).rest = keywords tokens := by
  have head := keywords_readHead keyword position tokens
  unfold readDeclaration
  split <;> rename_i afterHead readsHead <;> rw [readsHead] at head
  · exact head
  have ended := keywords_readEnd afterHead
  split <;> rename_i rest readsEnd <;> rw [readsEnd] at ended
  · exact ended.trans head
  · exact ended.trans head

/-- What is skipped holds no keyword. -/
theorem keywords_recover (tokens : List Token) : keywords (recover tokens) = keywords tokens := by
  fun_induction recover tokens with
  | case1 => rfl
  | case2 => rfl
  | case3 token rest isSemicolon =>
      exact (keywords_cons_of_other (by rw [isSemicolon]; rfl) rest).symm
  | case4 token rest notKeyword notSemicolon ih =>
      have other : token.lexeme.isKeyword = false := by
        unfold Lexeme.isKeyword
        split
        · rename_i keyword isKeyword
          exact absurd isKeyword (notKeyword keyword)
        · rfl
      rw [ih, keywords_cons_of_other other]

theorem Attempt.keywords_resume (attempt : Attempt) :
    keywords attempt.resume = keywords attempt.rest := by
  unfold resume
  split
  · rfl
  · exact keywords_recover attempt.rest

/-! Failures. -/

/-- Whether an issue is the reason why a declaration was not read. -/
def SyntaxIssue.isFailure (issue : SyntaxIssue) : Bool :=
  issue.code ∈ [1003, 1005, 1109]

def failures (findings : List (Finding SyntaxIssue)) : Nat :=
  findings.countP (·.issue.isFailure)

theorem failures_append (first second : List (Finding SyntaxIssue)) :
    failures (first ++ second) = failures first + failures second :=
  List.countP_append

theorem isFailure_of_readName {tokens rest : List Token} {issue : SyntaxIssue}
    (read : readName tokens = (.error issue, rest)) : issue.isFailure = true := by
  unfold readName at read
  split at read <;> cases read
  rfl

theorem isFailure_of_readType {tokens rest : List Token} {issue : SyntaxIssue}
    (read : readType tokens = (.error issue, rest)) : issue.isFailure = true := by
  unfold readType at read
  split at read
  · split at read
    · cases read
    · rename_i named
      cases read
      exact isFailure_of_readName named
  · cases read

theorem isFailure_of_readInitializer {tokens rest : List Token} {issue : SyntaxIssue}
    (read : readInitializer tokens = (.error issue, rest)) : issue.isFailure = true := by
  unfold readInitializer at read
  split at read
  · split at read
    · cases read
    · rename_i valued
      unfold readValue at valued
      split at valued <;> cases valued
      cases read
      rfl
  · cases read

theorem isFailure_of_readHead {keyword : Keyword} {position : Position}
    {tokens rest : List Token} {issue : SyntaxIssue}
    (read : readHead keyword position tokens = (.error issue, rest)) :
    issue.isFailure = true := by
  unfold readHead at read
  split at read
  · rename_i named
    cases read
    exact isFailure_of_readName named
  split at read
  · rename_i typed
    cases read
    exact isFailure_of_readType typed
  split at read
  · rename_i valued
    cases read
    exact isFailure_of_readInitializer valued
  · cases read

theorem isFailure_of_readEnd {tokens rest : List Token} {issue : SyntaxIssue}
    (read : readEnd tokens = (.error issue, rest)) : issue.isFailure = true := by
  unfold readEnd at read
  split at read
  · cases read
  · cases read
  · split at read <;> cases read
    rfl

theorem Declaration.failures_findings (declaration : Declaration) :
    failures declaration.findings = 0 := by
  unfold Declaration.findings
  split <;> rfl

theorem failures_singleton {issue : SyntaxIssue} (failed : issue.isFailure = true)
    (position : Position) : failures [⟨position, issue⟩] = 1 := by
  simp [failures, failed]

/-- A keyword gives a declaration or one failure. -/
theorem failures_readDeclaration (stop : Position) (keyword : Keyword) (position : Position)
    (tokens : List Token) :
    (readDeclaration stop keyword position tokens).declaration?.toList.length +
      failures (readDeclaration stop keyword position tokens).findings = 1 := by
  unfold readDeclaration
  split
  · rename_i issue rest read
    exact (Nat.zero_add _).trans (failures_singleton (isFailure_of_readHead read) _)
  rename_i declaration afterHead read
  split
  · rename_i issue rest ended
    rw [failures_append, declaration.failures_findings,
      failures_singleton (isFailure_of_readEnd ended)]
    rfl
  · rw [declaration.failures_findings]
    rfl

/-- What a turn has of keywords, declarations and failures. -/
structure Turn.Accounts (turn : Turn) (token : Token) (rest : List Token) : Prop where
  kept : keywords (token :: rest) = keywords [token] ++ keywords turn.left
  balance : (keywords [token]).length =
    turn.read.declarations.length + failures turn.read.findings
  positions : (turn.read.declarations.map (·.position)).Sublist
    ((keywords [token]).map (·.position))

theorem accounts_turn (stop : Position) (token : Token) (rest : List Token) :
    (turn stop token rest).Accounts token rest := by
  have whole : keywords (token :: rest) = keywords [token] ++ keywords rest :=
    List.filter_append [token] rest
  obtain ⟨lexeme, position, newline⟩ := token
  cases lexeme with
  | keyword keyword =>
      let attempt := readDeclaration stop keyword position rest
      have left : keywords attempt.resume = keywords rest :=
        attempt.keywords_resume.trans (keywords_readDeclaration stop keyword position rest)
      refine ⟨by rw [whole]; exact congrArg _ left.symm, ?_, ?_⟩
      · exact (failures_readDeclaration stop keyword position rest).symm
      · change (attempt.declaration?.toList.map (·.position)).Sublist [position]
        cases read : attempt.declaration? with
        | none => exact List.nil_sublist [position]
        | some declaration =>
            obtain ⟨-, rfl, -⟩ := exists_spells_of_readDeclaration read
            exact List.Sublist.refl _
  | mark kind =>
      cases kind with
      | semicolon => exact ⟨whole, rfl, .slnil⟩
      | _ => exact ⟨whole.trans (congrArg _ (keywords_recover rest).symm), rfl, .slnil⟩
  | _ => exact ⟨whole.trans (congrArg _ (keywords_recover rest).symm), rfl, .slnil⟩

theorem Turns.accounts {stop : Position} {tokens : List Token}
    {turns : List (List Token × Parsed)} (reads : Turns stop tokens turns) :
    (keywords tokens).length =
        (turns.flatMap (·.2.declarations)).length + failures (turns.flatMap (·.2.findings)) ∧
      ((turns.flatMap (·.2.declarations)).map (·.position)).Sublist
        ((keywords tokens).map (·.position)) := by
  induction reads with
  | done => exact ⟨rfl, .slnil⟩
  | @next token rest taken turns takes others ih =>
      obtain ⟨kept, balance, positions⟩ := accounts_turn stop token rest
      rw [kept, List.flatMap_cons, List.flatMap_cons, failures_append, List.length_append,
        List.length_append, balance, ih.1, List.map_append, List.map_append]
      refine ⟨?_, positions.append ih.2⟩
      dsimp only
      omega

/-! Texts. -/

theorem Piece.failures_findings (piece : Piece) (position : Position) :
    failures (piece.findings position) = 0 := by
  unfold findings
  split <;> rfl

/-- No failure is found before reading. -/
theorem Scan.failures_ofPieces (position : Position) (newline : Bool) (pieces : List Piece) :
    failures (ofPieces position newline pieces).findings = 0 := by
  induction pieces generalizing position newline with
  | nil => rfl
  | cons piece rest ih =>
      simp only [ofPieces]
      split <;> rw [failures_append, piece.failures_findings, ih]

theorem failures_parse (file : Path) (edition : Edition) (text : String) :
    (parse file edition text).diagnostics.countP
        (fun diagnostic => diagnostic.code ∈ [1003, 1005, 1109]) =
      failures (readAll (Scan.ofText text).stop (Scan.ofText text).tokens).findings := by
  have sorted := Finding.sort_perm ((Scan.ofText text).findings ++
    (readAll (Scan.ofText text).stop (Scan.ofText text).tokens).findings)
  have scanned : failures (Scan.ofText text).findings = 0 := Scan.failures_ofPieces _ _ _
  rw [diagnostics, List.countP_map]
  change failures (Finding.sort _) = _
  rw [failures, sorted.countP_eq]
  change failures (_ ++ _) = _
  rw [failures_append, scanned, Nat.zero_add]

/-- Every keyword of a text gives a declaration, in order, or one failure; a text is read in
turns, each of which takes a token or more, and which together take all of its tokens. -/
theorem exists_turns_parse (file : Path) (edition : Edition) (text : String) :
    let scan := Scan.ofText text
    let script := parse file edition text
    (keywords scan.tokens).length = script.declarations.length +
        script.diagnostics.countP (fun diagnostic => diagnostic.code ∈ [1003, 1005, 1109]) ∧
      (script.declarations.map (·.position)).Sublist
        ((keywords scan.tokens).map (·.position)) ∧
      ∃ turns, Turns scan.stop scan.tokens turns ∧ (∀ turn ∈ turns, turn.1 ≠ []) ∧
        turns.flatMap (·.1) = scan.tokens ∧
        script.declarations = turns.flatMap (·.2.declarations) ∧
        script.findings = Finding.sort (scan.findings ++ turns.flatMap (·.2.findings)) := by
  intro scan script
  obtain ⟨turns, reads⟩ := exists_turns scan.stop scan.tokens
  have outcome := reads.readAll_eq
  have declarations : script.declarations = turns.flatMap (·.2.declarations) :=
    congrArg Parsed.declarations outcome
  have findings : script.findings =
      Finding.sort (scan.findings ++ turns.flatMap (·.2.findings)) := by
    change Finding.sort (scan.findings ++ (readAll scan.stop scan.tokens).findings) = _
    rw [outcome]
  obtain ⟨balance, positions⟩ := reads.accounts
  rw [failures_parse, declarations]
  change _ = _ + failures (readAll scan.stop scan.tokens).findings ∧ _
  rw [outcome]
  exact ⟨balance, positions, turns, reads, reads.taken_ne_nil, reads.flatMap_taken, rfl, findings⟩

end ShadowCheck.Script
