import Reckoner.Proofs.EvaluationFrame
import Reckoner.Proofs.GrammarReading

/-! Where tokens and expressions stand. The tokens of a text follow one another between
its two ends, and an expression reaches from one of the tokens that spell it to
another, so no span ever leaves the text. -/

namespace Reckoner.Proofs.TokenSpans
open Token GrammarPhrases

/-- Tokens one behind the other, from one offset up to another. -/
def Within (low high : Int) : List Token → Prop
  | [] => low ≤ high
  | token :: rest => low ≤ token.span.start ∧ token.span.start ≤ token.span.stop ∧ Within token.span.stop high rest

variable {low high : Int}

theorem Within.le {tokens : List Token} (within : Within low high tokens) : low ≤ high := by
  induction tokens generalizing low with
  | nil => exact within
  | cons token rest ih =>
    obtain ⟨before, across, after⟩ := within
    have rest := ih after
    omega

theorem Within.lower {lower : Int} {tokens : List Token} (within : Within low high tokens) (down : lower ≤ low) :
    Within lower high tokens := by
  cases tokens with
  | nil => exact Int.le_trans down within
  | cons token rest => exact ⟨Int.le_trans down within.1, within.2⟩

theorem within_append {front back : List Token} :
    Within low high (front ++ back) ↔ ∃ middle, Within low middle front ∧ Within middle high back := by
  induction front generalizing low with
  | nil =>
    constructor
    · intro within
      exact ⟨low, Int.le_refl low, within⟩
    · rintro ⟨middle, before, within⟩
      exact within.lower before
  | cons token rest ih =>
    simp only [List.cons_append, Within, ih]
    constructor
    · rintro ⟨before, across, middle, first, second⟩
      exact ⟨middle, ⟨before, across, first⟩, second⟩
    · rintro ⟨middle, ⟨before, across, first⟩, second⟩
      exact ⟨before, across, middle, first, second⟩

/-- Leaving tokens out keeps the others in their places. -/
theorem Within.sublist {tokens fewer : List Token} (within : Within low high tokens) (sublist : fewer.Sublist tokens) :
    Within low high fewer := by
  induction sublist generalizing low with
  | slnil => exact within
  | cons token sublist ih =>
    obtain ⟨before, across, behind⟩ := within
    exact (ih behind).lower (Int.le_trans before across)
  | cons_cons token sublist ih =>
    obtain ⟨before, across, behind⟩ := within
    exact ⟨before, across, ih behind⟩

def Inside (low high : Int) (span : Span) : Prop := low ≤ span.start ∧ span.start ≤ span.stop ∧ span.stop ≤ high

theorem Inside.mono {lower higher : Int} {span : Span} (inside : Inside low high span) (down : lower ≤ low)
    (up : high ≤ higher) : Inside lower higher span := by
  unfold Inside at *
  omega

theorem Within.inside {tokens : List Token} (within : Within low high tokens) {token : Token}
    (member : token ∈ tokens) : Inside low high token.span := by
  obtain ⟨front, back, rfl⟩ := List.append_of_mem member
  obtain ⟨middle, first, before, across, rest⟩ := within_append.mp within
  have left := first.le
  have right := rest.le
  unfold Inside
  omega

section Scanning

theorem fractionLength_le (chars : List Char) : fractionLength chars ≤ chars.length := by
  unfold fractionLength
  split
  next rest =>
    have taken := (List.takeWhile_prefix isDigit (l := rest)).length_le
    simp only [List.length_cons]
    split <;> omega
  next => exact Nat.zero_le _

theorem lexicon_le (c : Char) (rest : List Char) : (lexicon c rest).2 ≤ rest.length := by
  have taken (wanted : Char → Bool) (chars : List Char) : (chars.takeWhile wanted).length ≤ chars.length :=
    (List.takeWhile_prefix wanted).length_le
  unfold lexicon
  split
  · exact taken isSpace rest
  · split
    · have fraction := fractionLength_le (rest.drop (rest.takeWhile isDigit).length)
      have whole := taken isDigit rest
      rw [List.length_drop] at fraction
      dsimp only
      omega
    · split
      · exact taken isWordCharacter rest
      · split
        next comment _ _ _ =>
          have skipped := taken (· != '\n') comment
          simp only [List.length_cons]
          omega
        · simp
        · simp
        · split <;> simp

theorem lexicon_stray {c : Char} {rest : List Char} {further : Nat} (stray : lexicon c rest = (.stray, further)) :
    further = 0 := by
  unfold lexicon at stray
  split at stray
  · cases stray
  · split at stray
    · cases stray
    · split at stray
      · cases stray
      · split at stray
        · cases stray
        · cases stray
        · cases stray
        · split at stray
          · cases stray
          · cases stray
            rfl

theorem written_taken (taken offset line : Nat) (c : Char) (rest : List Char) :
    written (taken + 1) offset line (c :: rest) = written taken (offset + 1) (line + lineStep c) rest := rfl

/-- The written tokens stand between the end of the piece already taken and the end of the text. -/
theorem written_within {taken offset line : Nat} {text : List Char} {tokens : List Token}
    (read : written taken offset line text = .ok tokens) (room : taken ≤ text.length) :
    Within (offset + taken : Nat) (offset + text.length : Nat) tokens := by
  induction text generalizing taken offset line tokens with
  | nil =>
    cases read
    simp only [Within, List.length_nil] at room ⊢
    omega
  | cons c rest ih =>
    rw [List.length_cons] at room ⊢
    cases taken with
    | succ taken =>
      rw [written_taken] at read
      have others := ih read (by omega)
      rwa [Nat.add_assoc, Nat.add_assoc, Nat.add_comm 1 taken, Nat.add_comm 1 rest.length] at others
    | zero =>
      have fits := lexicon_le c rest
      rcases piece : lexicon c rest with ⟨_ | kind | _, further⟩
      all_goals simp only [written, piece] at read fits
      · have others := ih read fits
        exact Within.lower (by rwa [Nat.add_right_comm offset 1 rest.length] at others) (by omega)
      · split at read
        · cases read
        next others scanned =>
          cases read
          have behind := ih scanned fits
          rw [Nat.add_right_comm offset 1 rest.length] at behind
          refine ⟨by simp, ?_, behind⟩
          dsimp only
          omega
      · cases read

/-- A lexical failure is about one character of the text, and points at it. -/
def Stray (text : List Char) (offset : Nat) (failure : Failure) : Prop :=
  ∃ index character line, text[index]? = some character ∧ failure.cause = .strayCharacter character line ∧
    failure.site = some ⟨(offset + index : Nat), (offset + index + 1 : Nat)⟩

theorem Stray.cons {text : List Char} {offset : Nat} {failure : Failure} (stray : Stray text (offset + 1) failure)
    (c : Char) : Stray (c :: text) offset failure := by
  obtain ⟨index, character, line, found, cause, site⟩ := stray
  rw [Nat.add_right_comm offset 1 index] at site
  exact ⟨index + 1, character, line, found, cause, site⟩

theorem written_stray {taken offset line : Nat} {text : List Char} {failure : Failure}
    (read : written taken offset line text = .error failure) : Stray text offset failure := by
  induction text generalizing taken offset line with
  | nil => cases read
  | cons c rest ih =>
    cases taken with
    | succ taken =>
      rw [written_taken] at read
      exact (ih read).cons c
    | zero =>
      rcases piece : lexicon c rest with ⟨_ | kind | _, further⟩
      all_goals simp only [written, piece] at read
      · exact (ih read).cons c
      · split at read
        next stray =>
          cases read
          exact (ih stray).cons c
        · cases read
      · cases read
        obtain rfl := lexicon_stray piece
        exact ⟨0, c, line, rfl, rfl, rfl⟩

theorem implyProducts_within {tokens : List Token} (within : Within low high tokens) :
    Within low high (implyProducts tokens) := by
  induction tokens generalizing low with
  | nil => exact within
  | cons left rest ih =>
    cases rest with
    | nil => exact within
    | cons right others =>
      obtain ⟨before, across, behind⟩ := within
      rw [implyProducts]
      split
      · exact ⟨before, across, Int.le_refl _, Int.le_refl _, ih behind⟩
      · exact ⟨before, across, ih behind⟩

/-- All tokens of a text, the end included, stand one behind the other within it. -/
theorem scan_within {text : List Char} {tokens : List Token} (read : scan text = .ok tokens) :
    Within 0 text.length tokens := by
  unfold scan at read
  cases scanned : written 0 0 1 text with
  | error failure => simp [scanned, bind, Except.bind] at read
  | ok body =>
    simp only [scanned, bind, Except.bind, pure, Except.pure, Except.ok.injEq] at read
    subst read
    have within := written_within scanned (Nat.zero_le _)
    rw [Nat.zero_add, Nat.zero_add] at within
    exact within_append.mpr ⟨_, implyProducts_within within, Int.le_refl _, Int.le_refl _, Int.le_refl _⟩

theorem scan_stray {text : List Char} {failure : Failure} (read : scan text = .error failure) :
    Stray text 0 failure := by
  unfold scan at read
  cases scanned : written 0 0 1 text with
  | ok body => simp [scanned, bind, Except.bind, pure, Except.pure] at read
  | error stray =>
    simp only [scanned, bind, Except.bind, Except.error.injEq] at read
    subst read
    exact written_stray scanned

end Scanning

section Expressions

theorem self_mem_nodes (expr : Expr) : expr ∈ expr.nodes := by
  cases expr <;> simp [Expr.nodes]

def Stands (low high : Int) (expr : Expr) : Prop := ∀ node ∈ expr.nodes, Inside low high node.span

theorem Stands.mono {lower higher : Int} {expr : Expr} (stands : Stands low high expr) (down : lower ≤ low)
    (up : high ≤ higher) : Stands lower higher expr :=
  fun node member => (stands node member).mono down up

theorem stands_token {token : Token} (within : Within low high [token]) :
    Stands low high (.literal token) ∧ Stands low high (.symbol token) := by
  have inside := within.inside (List.mem_singleton_self token)
  constructor
  · intro node member
    rwa [List.mem_singleton.mp member]
  · intro node member
    rwa [List.mem_singleton.mp member]

theorem stands_binary {middle : Int} {left right : Expr} {operator : Token} (first : Stands low middle left)
    (second : Stands middle high right) : Stands low high (.binary left operator right) := by
  have before := first left (self_mem_nodes left)
  have behind := second right (self_mem_nodes right)
  simp only [Inside, Expr.span] at before behind
  intro node member
  rw [Expr.nodes, List.mem_cons, List.mem_append] at member
  rcases member with rfl | early | late
  · simp only [Inside, Expr.span, Expr.start, Expr.stop]
    omega
  · exact (first node early).mono (Int.le_refl _) (by omega)
  · exact (second node late).mono (by omega) (Int.le_refl _)

theorem stands_call {middle : Int} {callee : Expr} {arguments : List Expr} {closing : Token}
    (head : Stands low middle callee) (inner : ∀ argument ∈ arguments, Stands low high argument)
    (closes : Within middle high [closing]) : Stands low high (.call callee arguments closing) := by
  have before := head callee (self_mem_nodes callee)
  have behind := closes.inside (List.mem_singleton_self closing)
  simp only [Inside, Expr.span] at before behind
  intro node member
  rw [Expr.nodes, Expr.nodesAll_eq, List.mem_cons, List.mem_append, List.mem_flatMap] at member
  rcases member with rfl | early | ⟨argument, listed, late⟩
  · simp only [Inside, Expr.span, Expr.start, Expr.stop]
    omega
  · exact (head node early).mono (Int.le_refl _) (by omega)
  · exact inner argument listed node late

theorem operands_within {front back : List Token} {operator : Token} (within : Within low high (front ++ operator :: back)) :
    ∃ middle, Within low middle front ∧ Within middle high back := by
  obtain ⟨middle, first, second⟩ := within_append.mp within
  exact ⟨middle, first, second.sublist (List.sublist_cons_self operator back)⟩

theorem further_sublist {others : List Further} {other : Further} (member : other ∈ others) :
    other.tokens.Sublist (furtherTokens others) := by
  induction others with
  | nil => cases member
  | cons first rest ih =>
    rw [furtherTokens_cons]
    rcases List.mem_cons.mp member with rfl | later
    · exact (List.sublist_append_left _ _).cons _
    · exact ((ih later).trans (List.sublist_append_right _ _)).cons _

/-- Every part of an expression stands between the ends of the tokens that spell it. -/
theorem spells_stands {phrase : Phrase} {tokens : List Token} {expr : Expr} (spelled : Spells phrase tokens expr)
    (within : Within low high tokens) : Stands low high expr := by
  induction spelled generalizing low high with
  | expression _ ih | factor _ ih | power _ ih | unary _ ih | call _ ih => exact ih within
  | sum _ _ _ left right | product _ _ _ left right | exponent _ _ _ left right =>
    obtain ⟨middle, first, second⟩ := operands_within within
    exact stands_binary (left first) (right second)
  | @negation tokens operator operand sign rest ih =>
    obtain ⟨before, across, behind⟩ := within
    have inside := ih behind
    have root := inside operand (self_mem_nodes operand)
    intro node member
    rw [Expr.nodes, List.mem_cons] at member
    simp only [Inside, Expr.span] at root
    rcases member with rfl | later
    · simp only [Inside, Expr.span, Expr.start, Expr.stop]
      omega
    · exact (inside node later).mono (by omega) (Int.le_refl _)
  | @scaled number opening closing inside factor kind opens closes only ih =>
    obtain ⟨before, across, behind⟩ := within
    have number : Within low number.span.stop [number] := ⟨before, across, Int.le_refl _⟩
    have factor : inside.Sublist (opening :: (inside ++ [closing])) := (List.sublist_append_left _ _).cons _
    exact stands_binary (stands_token number).1 (ih (behind.sublist factor))
  | @invoked front opening closing callee head unnumbered opens closes ih =>
    obtain ⟨middle, first, second⟩ := within_append.mp within
    exact stands_call (ih first) (by simp) (second.sublist (List.sublist_cons_self opening [closing]))
  | @applied front inside opening closing callee argument others head unnumbered opens closes first commas rest
      callees arguments further =>
    obtain ⟨middle, front, back⟩ := within_append.mp within
    have start := front.le
    have lies {fewer : List Token} (sublist : fewer.Sublist (opening :: (inside ++ furtherTokens others ++ [closing]))) :
        Within low high fewer := (back.sublist sublist).lower start
    refine stands_call (callees front) ?_ (back.sublist ((List.sublist_append_right _ _).cons _))
    intro listed member
    rcases List.mem_cons.mp member with rfl | later
    · exact arguments (lies (((List.sublist_append_left _ _).trans (List.sublist_append_left _ _)).cons _))
    · obtain ⟨other, present, rfl⟩ := List.mem_map.mp later
      exact further other present (lies ((((further_sublist present).trans (List.sublist_append_right _ _)).trans
        (List.sublist_append_left _ _)).cons _))
  | literal kind => exact (stands_token within).1
  | symbol kind => exact (stands_token within).2
  | @grouping opening closing tokens inner opens closes rest ih =>
    have inside := ih (within.sublist ((List.sublist_append_left _ _).cons _))
    intro node member
    rw [Expr.nodes, List.mem_cons] at member
    rcases member with rfl | later
    · exact inside inner (self_mem_nodes inner)
    · exact inside node later

theorem statement_stands {tokens : List Token} {statement : Statement} (spelled : SpellsStatement tokens statement)
    (within : Within low high tokens) : Stands low high statement.expr := by
  cases spelled with
  | expression rest => exact spells_stands rest within
  | print kind rest => exact spells_stands rest (within.sublist (List.sublist_cons_self _ _))
  | assign kind sign rest => exact spells_stands rest (within.sublist ((List.sublist_cons_self _ _).cons _))
  | @declare name opening closing equals listed parameters tokens body kind opens listing closes sign rest =>
    have body : tokens.Sublist (listed ++ closing :: equals :: tokens) :=
      ((List.sublist_cons_self _ _).cons _).trans (List.sublist_append_right _ _)
    exact spells_stands rest (within.sublist ((body.cons _).cons _))

theorem program_stands {tokens : List Token} {statements : List Statement} (spelled : SpellsProgram tokens statements)
    (within : Within low high tokens) : ∀ statement ∈ statements, Stands low high statement.expr := by
  induction spelled generalizing low with
  | finish => simp
  | statement head tail ih =>
    obtain ⟨middle, front, back⟩ := within_append.mp within
    intro statement member
    rcases List.mem_cons.mp member with rfl | later
    · exact (statement_stands head front).mono (Int.le_refl _) back.le
    · exact (ih back statement later).mono front.le (Int.le_refl _)

end Expressions

theorem ofText_stands {depth : Nat} {text : List Char} {statements : List Statement}
    (read : Grammar.ofText depth text = .ok statements) :
    ∀ statement ∈ statements, Stands 0 text.length statement.expr := by
  unfold Grammar.ofText at read
  cases scanned : scan text with
  | error failure => simp [scanned] at read
  | ok tokens =>
    simp only [scanned] at read
    have settles := GrammarReading.program_settles depth tokens 0 (Nat.zero_le _)
    rw [read] at settles
    obtain ⟨body, finish, rest, same, -, -, spelled⟩ := settles
    have within := scan_within scanned
    rw [show tokens = body ++ finish :: rest from same] at within
    exact program_stands spelled (within.sublist (List.sublist_append_left _ _))

end Reckoner.Proofs.TokenSpans
