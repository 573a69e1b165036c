import Reckoner.Proofs.FailureSites
import Reckoner.Proofs.GrammarBlame
import Reckoner.Proofs.TokenLexemes

/-! Where failures can be shown. Running out of depth happens nowhere, and a text that
stops too early fails just behind its last character. Every other failure has a site
with at least one character of the text in it. -/

namespace Reckoner.Proofs.FailurePlaces
open Token EvaluationFrame BatchExecution PureEvaluation FailureTrace FailureSites TokenSpans TokenLexemes
open GrammarPhrases GrammarBlame

section Expressions

variable {low middle high : Int} {tokens : List Token}

/-- All tokens but products take up space. -/
def Solid (tokens : List Token) : Prop := ∀ token ∈ tokens, token.kind ≠ .mark .star → token.span.start < token.span.stop

theorem Solid.sublist {fewer : List Token} (solid : Solid tokens) (sublist : fewer.Sublist tokens) : Solid fewer :=
  fun token member => solid token (sublist.subset member)

/-- Every part of an expression takes up space. -/
def Filled (expr : Expr) : Prop := ∀ node ∈ expr.nodes, node.start < node.stop

theorem Filled.root {expr : Expr} (filled : Filled expr) : expr.start < expr.stop := filled expr (self_mem_nodes expr)

theorem filled_binary {left right : Expr} {operator : Token} (first : Stands low middle left)
    (second : Stands middle high right) (front : Filled left) (back : Filled right) :
    Filled (.binary left operator right) := by
  have before := first left (self_mem_nodes left)
  have behind := second right (self_mem_nodes right)
  have wide := front.root
  simp only [Inside, Expr.span] at before behind
  intro node member
  rw [Expr.nodes, List.mem_cons, List.mem_append] at member
  rcases member with rfl | early | late
  · simp only [Expr.start, Expr.stop]
    omega
  · exact front node early
  · exact back node late

theorem filled_call {callee : Expr} {arguments : List Expr} {closing : Token} (head : Stands low middle callee)
    (closes : Within middle high [closing]) (front : Filled callee) (inner : ∀ argument ∈ arguments, Filled argument) :
    Filled (.call callee arguments closing) := by
  have before := head callee (self_mem_nodes callee)
  have behind := closes.inside (List.mem_singleton_self closing)
  have wide := front.root
  simp only [Inside, Expr.span] at before behind
  intro node member
  rw [Expr.nodes, Expr.nodesAll_eq, List.mem_cons, List.mem_append, List.mem_flatMap] at member
  rcases member with rfl | early | ⟨argument, listed, late⟩
  · simp only [Expr.start, Expr.stop]
    omega
  · exact front node early
  · exact inner argument listed node late

/-- No product stands at either end of a phrase, so the tokens that spell it fill all its parts. -/
theorem spells_filled {phrase : Phrase} {expr : Expr} (spelled : Spells phrase tokens expr)
    (within : Within low high tokens) (solid : Solid tokens) : Filled expr := by
  induction spelled generalizing low high with
  | expression _ ih | factor _ ih | power _ ih | unary _ ih | call _ ih => exact ih within solid
  | sum left _ right first second | product left _ right first second | exponent left _ right first second =>
    obtain ⟨middle, front, back⟩ := operands_within within
    have before := first front (solid.sublist (List.sublist_append_left _ _))
    have behind := second back (solid.sublist ((List.sublist_cons_self _ _).trans (List.sublist_append_right _ _)))
    exact filled_binary (spells_stands left front) (spells_stands right back) before behind
  | @negation tokens operator operand sign rest ih =>
    obtain ⟨before, across, behind⟩ := within
    have filled := ih behind (solid.sublist (List.sublist_cons_self _ _))
    have inside := spells_stands rest behind operand (self_mem_nodes operand)
    have wide := filled.root
    simp only [Inside, Expr.span] at inside
    intro node member
    rw [Expr.nodes, List.mem_cons] at member
    rcases member with rfl | later
    · simp only [Expr.start, Expr.stop]
      omega
    · exact filled node later
  | @scaled number opening closing inside factor kind opens closes only ih =>
    obtain ⟨before, across, behind⟩ := within
    have given : inside.Sublist (opening :: (inside ++ [closing])) := (List.sublist_append_left _ _).cons _
    have front : Within low number.span.stop [number] := ⟨before, across, Int.le_refl _⟩
    have back := behind.sublist given
    have wide := solid number List.mem_cons_self (by simp [kind])
    refine filled_binary (stands_token front).1 (spells_stands only back) ?_ (ih back (solid.sublist (given.cons _)))
    intro node member
    rwa [List.mem_singleton.mp member]
  | @invoked front opening closing callee head unnumbered opens closes ih =>
    obtain ⟨middle, first, second⟩ := within_append.mp within
    refine filled_call (spells_stands head first) (second.sublist (List.sublist_cons_self opening [closing])) ?_ (by simp)
    exact ih first (solid.sublist (List.sublist_append_left _ _))
  | @applied front inside opening closing callee argument others head unnumbered opens closes first commas rest
      callees arguments further =>
    obtain ⟨middle, before, back⟩ := within_append.mp within
    have behind := List.sublist_append_right front (opening :: (inside ++ furtherTokens others ++ [closing]))
    refine filled_call (spells_stands head before) (back.sublist ((List.sublist_append_right _ _).cons _))
      (callees before (solid.sublist (List.sublist_append_left _ _))) ?_
    intro listed member
    rcases List.mem_cons.mp member with rfl | later
    · have part : inside.Sublist (opening :: (inside ++ furtherTokens others ++ [closing])) :=
        ((List.sublist_append_left _ _).trans (List.sublist_append_left _ _)).cons _
      exact arguments (back.sublist part) (solid.sublist (part.trans behind))
    · obtain ⟨other, present, rfl⟩ := List.mem_map.mp later
      have part : other.tokens.Sublist (opening :: (inside ++ furtherTokens others ++ [closing])) :=
        (((further_sublist present).trans (List.sublist_append_right _ _)).trans (List.sublist_append_left _ _)).cons _
      exact further other present (back.sublist part) (solid.sublist (part.trans behind))
  | @literal token kind | @symbol token kind =>
    intro node member
    rw [List.mem_singleton.mp member]
    exact solid token List.mem_cons_self (by simp [kind])
  | @grouping opening closing tokens inner opens closes rest ih =>
    have part : tokens.Sublist (opening :: (tokens ++ [closing])) := (List.sublist_append_left _ _).cons _
    have filled := ih (within.sublist part) (solid.sublist part)
    intro node member
    rw [Expr.nodes, List.mem_cons] at member
    rcases member with rfl | later
    · exact filled.root
    · exact filled node later

theorem statement_part {statement : Statement} (spelled : SpellsStatement tokens statement) :
    ∃ part, part.Sublist tokens ∧ Spells .expression part statement.expr := by
  cases spelled with
  | expression rest => exact ⟨_, List.Sublist.refl _, rest⟩
  | print kind rest => exact ⟨_, List.sublist_cons_self _ _, rest⟩
  | assign kind sign rest => exact ⟨_, (List.sublist_cons_self _ _).cons _, rest⟩
  | @declare name opening closing equals listed parameters tokens body kind opens listing closes sign rest =>
    have body : tokens.Sublist (listed ++ closing :: equals :: tokens) :=
      ((List.sublist_cons_self _ _).cons _).trans (List.sublist_append_right _ _)
    exact ⟨_, (body.cons _).cons _, rest⟩

/-- Every statement is spelled by a part of the program's tokens. -/
theorem program_part {statements : List Statement} (spelled : SpellsProgram tokens statements) {statement : Statement}
    (member : statement ∈ statements) : ∃ part, part.Sublist tokens ∧ SpellsStatement part statement := by
  induction spelled with
  | finish => cases member
  | statement head tail ih =>
    rcases List.mem_cons.mp member with rfl | later
    · exact ⟨_, List.sublist_append_left _ _, head⟩
    · obtain ⟨part, sublist, rest⟩ := ih later
      exact ⟨part, sublist.trans (List.sublist_append_right _ _), rest⟩

theorem statement_filled {statement : Statement} (spelled : SpellsStatement tokens statement)
    (within : Within low high tokens) (solid : Solid tokens) : Filled statement.expr := by
  obtain ⟨part, sublist, spells⟩ := statement_part spelled
  exact spells_filled spells (within.sublist sublist) (solid.sublist sublist)

end Expressions

section Reading

variable {text : List Char} {tokens : List Token} {depth : Nat} {failure : Failure}

/-- What a token's span comes to, by what the token is. -/
theorem scan_spans (read : scan text = .ok tokens) {front back : List Token} {token : Token}
    (split : tokens = front ++ token :: back) :
    token.kind = .finish ∧ token.span = ⟨text.length, text.length⟩ ∨
      token.kind ≠ .finish ∧ token.span.start < token.span.stop ∨
      token.kind = .mark .star ∧ ∃ earlier number, front = earlier ++ [number] ∧ number.kind = .number := by
  obtain ⟨body, strung, whole⟩ := scan_strung read
  rw [whole] at split
  have all : ∀ token ∈ body, Written text token := fun token => strung.written
  rcases implyProducts_written all rfl split with finished | written | ⟨earlier, number, same, kind, rfl⟩
  · have member : token ∈ implyProducts body ++ [implied .finish (1 + lineFeeds text) text.length] := by simp [split]
    rcases List.mem_append.mp member with early | last
    · exact absurd finished (strung.unfinished early)
    · rw [List.mem_singleton.mp last]
      exact .inl ⟨rfl, rfl⟩
  · exact .inr (.inl ⟨written.unfinished, written.filled⟩)
  · exact .inr (.inr ⟨rfl, earlier, number, same, kind⟩)

/-- A text that can be read is spelled out by its tokens up to the end, which stand within it. -/
theorem ofText_spelled {statements : List Statement} (read : Grammar.ofText depth text = .ok statements) :
    ∃ tokens body, scan text = .ok tokens ∧ body.Sublist tokens ∧ SpellsProgram body statements ∧
      Within 0 text.length body ∧ Solid body := by
  unfold Grammar.ofText at read
  cases scanned : scan text with
  | error failure => simp [scanned] at read
  | ok tokens =>
    simp only [scanned] at read
    have settles := GrammarReading.program_settles depth tokens 0 (Nat.zero_le _)
    rw [read] at settles
    obtain ⟨body, finish, rest, same, unfinished, -, spelled⟩ := settles
    have whole : tokens = body ++ finish :: rest := same
    have sublist : body.Sublist tokens := whole ▸ List.sublist_append_left _ _
    refine ⟨tokens, body, rfl, sublist, spelled, (scan_within scanned).sublist sublist, ?_⟩
    intro token member written
    obtain ⟨front, back, split⟩ := List.append_of_mem member
    have place : tokens = front ++ token :: (back ++ finish :: rest) := by simp [whole, split]
    rcases scan_spans scanned place with ⟨finished, -⟩ | ⟨-, filled⟩ | ⟨star, -⟩
    · exact absurd finished (unfinished token member)
    · exact filled
    · exact absurd star written

theorem ofText_filled {statements : List Statement} (read : Grammar.ofText depth text = .ok statements) :
    ∀ statement ∈ statements, Filled statement.expr := by
  obtain ⟨tokens, body, -, -, spelled, within, solid⟩ := ofText_spelled read
  intro statement member
  obtain ⟨part, sublist, spells⟩ := program_part spelled member
  exact statement_filled spells (within.sublist sublist) (solid.sublist sublist)

end Reading

/-- Causes of failures that no character of the text is to blame for. -/
def Absent (cause : Failure.Cause) : Prop := cause = .tooDeep ∨ ∃ wanted, cause = .unexpectedEnd wanted

/-- Where the failure of a text is to be found. -/
inductive Located (text : String) (failure : Failure) : Prop
  | nowhere (cause : failure.cause = .tooDeep) (site : failure.site = none)
  | behind {wanted : Failure.Expectation} (cause : failure.cause = .unexpectedEnd wanted)
      (site : failure.site = some ⟨text.length, text.length⟩)
  | inside {start stop : Int} (cause : ¬ Absent failure.cause) (site : failure.site = some ⟨start, stop⟩)
      (first : 0 ≤ start) (filled : start < stop) (last : stop ≤ text.length)

variable {host : Host} {session : Session} {text : String} {failure : Failure}

theorem not_absent_of_kind (kind : failure.kind = .lexical ∨ failure.kind = .type ∨ failure.kind = .arity) :
    ¬ Absent failure.cause := by
  rintro (cause | ⟨wanted, cause⟩)
  all_goals
    rw [Failure.kind, cause] at kind
    simp [Failure.Cause.kind] at kind

theorem program_located {tokens : List Token} (scanned : scan text.toList = .ok tokens)
    (failed : Grammar.program host.depth tokens = .error (.failed failure)) : Located text failure := by
  obtain ⟨token, rest, ⟨front, split⟩, site, parse, finish, apart⟩ := program_blames failed
  have member : token ∈ tokens := by simp [← split]
  have inside := (scan_within scanned).inside member
  rw [String.length_toList] at inside
  rcases scan_spans scanned split.symm with ⟨finished, span⟩ | ⟨unfinished, filled⟩ | ⟨star, earlier, number, rfl, kind⟩
  · obtain ⟨wanted, cause⟩ := finish.mpr finished
    rw [String.length_toList] at span
    exact .behind cause (by rw [site, span])
  · refine .inside ?_ site inside.1 filled inside.2.2
    rintro (cause | ended)
    · rw [Failure.kind, cause] at parse
      cases parse
    · exact unfinished (finish.mp ended)
  · exact absurd star (apart number ⟨earlier, by simpa using split⟩ kind)

theorem unread_located (unread : Grammar.ofText host.depth text.toList = .error (.failed failure)) :
    Located text failure := by
  unfold Grammar.ofText at unread
  cases scanned : scan text.toList with
  | ok tokens =>
    simp only [scanned] at unread
    exact program_located scanned unread
  | error stray =>
    simp only [scanned, Except.error.injEq, Stop.failed.injEq] at unread
    subst unread
    obtain ⟨index, character, line, found, cause, site⟩ := scan_stray scanned
    obtain ⟨bound, -⟩ := List.getElem?_eq_some_iff.mp found
    rw [String.length_toList] at bound
    refine .inside (not_absent_of_kind (.inl (by rw [Failure.kind, cause]; rfl))) site ?_ ?_ ?_
    all_goals omega

theorem running_located (reached : session.Reachable) {done later : List Statement} {statement : Statement}
    {value : Value} {middle after : Machine}
    (read : Grammar.ofText host.depth text.toList = .ok (done ++ statement :: later))
    (run : interpret host.renderer host.depth done session.machine = (.ok value, middle))
    (failed : statement.expr.evaluate host.renderer host.depth middle = (.error (.failed failure), after)) :
    Located text failure := by
  have home : AtHome (WrittenAmong (done ++ statement :: later)) (some session.batches) middle :=
    interpret_atHome reached run
  obtain ⟨raise, raises⟩ := (derivable host.renderer host.depth).expression _ _ _ _ failed
  obtain ⟨final, ended⟩ := Raises.fails raises
  rw [failed, home.origin] at ended
  cases ended
  obtain ⟨other, member, inside⟩ := blamed_mem raises home fun node member => ⟨statement, by simp, member⟩
  obtain ⟨first, -, last⟩ := ofText_stands read other member _ inside
  rw [String.length_toList] at last
  have filled := ofText_filled read other member _ inside
  exact .inside (not_absent_of_kind (.inr (Raises.kind raises))) rfl first filled last

theorem trouble_located {stop : Stop} (told : stop.trouble = .failure failure)
    (sited : stop = .failed failure → Located text failure) : Located text failure := by
  cases stop with
  | failed earlier =>
    cases told
    exact sited rfl
  | tooDeep =>
    cases told
    exact .nowhere rfl rfl
  | broken fault => cases told

/-- Every failure of a batch is located: nowhere, behind the text, or at some of its characters. -/
theorem failure_located (reached : session.Reachable)
    (failed : (session.evaluate host text).1.outcome = .error (.failure failure)) : Located text failure := by
  cases read : Grammar.ofText host.depth text.toList with
  | error stop =>
    rw [evaluate_unread read] at failed
    refine trouble_located (Except.error.inj failed) ?_
    rintro rfl
    exact unread_located read
  | ok statements =>
    rcases run : interpret host.renderer host.depth statements session.machine with ⟨ended, final⟩
    rw [evaluate_read read run] at failed
    have whole := interpret_ended host.renderer host.depth statements session.machine
    rw [run] at whole
    cases whole with
    | finished => cases failed
    | stopped split early stopped =>
      refine trouble_located (Except.error.inj failed) ?_
      rintro rfl
      subst split
      exact running_located reached read early (execute_error stopped).2

end Reckoner.Proofs.FailurePlaces
