import Reckoner.Proofs.FailureTrace
import Reckoner.Proofs.FunctionOrigins
import Reckoner.Proofs.TokenSpans

/-! Failures point into the text that the caller handed in. Scanning and reading know no
other text. Running may fail inside a function of an earlier batch, but then a call of
this batch takes the blame: functions of this batch have their bodies in this text, and
the first call that leaves it is written in it. -/

namespace Reckoner.Proofs.FailureSites
open Run EvaluationFrame BatchExecution PureEvaluation FunctionOrigins FailureTrace TokenSpans

/-- Functions of the batch have their bodies among the given nodes. -/
def WrittenIn (nodes : Expr → Prop) (batch : Origin) (declaration : Declaration) (home : Origin) : Prop :=
  home = batch → ∀ node ∈ declaration.body.nodes, nodes node

variable {renderer : Option Renderer} {depth : Nat} {nodes : Expr → Prop} {batch : Origin}

/-- The machine runs code of the batch and knows its functions. -/
structure AtHome (nodes : Expr → Prop) (batch : Origin) (machine : Machine) : Prop where
  origin : machine.origin = batch
  functions : KnownIn (WrittenIn nodes batch) (.ofChain machine.scopes)

def Belongs (nodes : Expr → Prop) (batch : Origin) : Work → Prop
  | .expression expr => ∀ node ∈ expr.nodes, nodes node
  | .application call function arguments => nodes call ∧ Known (WrittenIn nodes batch) (.function function) ∧
      ∀ argument ∈ arguments, Known (WrittenIn nodes batch) argument

theorem AtHome.framed {names : List String} {machine after : Machine} {α : Type} {result : Except Stop α}
    (home : AtHome nodes batch machine) (framed : Framed names machine (result, after)) : AtHome nodes batch after :=
  ⟨framed.origin.trans home.origin, by rw [Grown.ofChain framed.scopes]; exact home.functions⟩

theorem AtHome.evaluate {expr : Expr} {machine after : Machine} {result : Except Stop Value}
    (home : AtHome nodes batch machine) (ended : expr.evaluate renderer depth machine = (result, after)) :
    AtHome nodes batch after :=
  home.framed (ended ▸ evaluate_framed renderer depth expr machine)

theorem AtHome.arguments {arguments : List Expr} {machine after : Machine} {result : Except Stop (List Value)}
    (home : AtHome nodes batch machine)
    (ended : arguments.mapM (Expr.evaluate renderer depth) machine = (result, after)) : AtHome nodes batch after :=
  home.framed (ended ▸ Framed.mapM (evaluate_framed renderer depth) arguments machine)

theorem AtHome.still {machine after : Machine} (home : AtHome nodes batch machine) (still : Still machine after) :
    AtHome nodes batch after :=
  ⟨still.origin.trans home.origin, by rw [still.scopes]; exact home.functions⟩

theorem AtHome.body {machine : Machine} {declaration : Declaration} {arguments : List Value}
    (home : AtHome nodes batch machine) (each : ∀ argument ∈ arguments, Known (WrittenIn nodes batch) argument) :
    AtHome nodes batch (bodyMachine machine declaration batch arguments) := by
  refine ⟨rfl, ?_⟩
  have parameters : Environment.ofChain (bodyMachine machine declaration batch arguments).scopes = _ :=
    ofChain_enter machine.scopes (declaration.parameterNames.zip arguments)
  rw [parameters]
  apply home.functions.updateAll
  intro binding member
  exact each binding.2 (List.of_mem_zip member).2

theorem blamed_mem {work : Work} {machine : Machine} {raise : Raise} (raises : Raises renderer depth work machine raise)
    (home : AtHome nodes batch machine) (belongs : Belongs nodes batch work) : nodes (raise.blamed batch) := by
  induction raises with
  | grouping inside ih => exact ih home fun node member => belongs node (by simp [Expr.nodes, member])
  | operand inside ih => exact ih home fun node member => belongs node (by simp [Expr.nodes, member])
  | notNegatable evaluated wrong => exact belongs _ (self_mem_nodes _)
  | left inside ih => exact ih home fun node member => belongs node (by simp [Expr.nodes, member])
  | right first inside ih => exact ih (home.evaluate first) fun node member => belongs node (by simp [Expr.nodes, member])
  | @notNumericLeft _ _ _ _ _ left => exact belongs left (by simp [Expr.nodes, self_mem_nodes])
  | @notNumericRight _ _ _ _ _ _ right => exact belongs right (by simp [Expr.nodes, self_mem_nodes])
  | callee inside ih => exact ih home fun node member => belongs node (by simp [Expr.nodes, member])
  | argument head others inside ih =>
    refine ih ((home.evaluate head).arguments others) fun node member => belongs node ?_
    simp [Expr.nodes, Expr.nodesAll_eq, member]
  | @notCallable _ _ _ _ callee => exact belongs callee (by simp [Expr.nodes, self_mem_nodes])
  | wrongCount head all wrong => exact belongs _ (self_mem_nodes _)
  | application head all count inside ih =>
    have middle := home.evaluate head
    exact ih (middle.arguments all) ⟨belongs _ (self_mem_nodes _), evaluate_known head home.functions,
      arguments_known all middle.functions⟩
  | @body depth machine raise call declaration origin arguments inside ih =>
    obtain ⟨written, function, each⟩ := belongs
    by_cases same : origin = batch
    · subst same
      rw [Raise.blamed_inside_same]
      exact ih (home.body each) (function rfl)
    · rw [Raise.blamed_inside_other _ _ same]
      exact written
  | sine | factors | notPlottable | notUnary => exact belongs.1
  | sample unary domain others inside ih =>
    obtain ⟨written, -, each⟩ := belongs
    exact ih (home.still (samples_still others)) ⟨written, each _ List.mem_cons_self, by simp [Known]⟩

/-- A text that cannot be read fails at one of its characters or at one of its tokens. -/
theorem ofText_failed {text : List Char} {failure : Failure} (unread : Grammar.ofText depth text = .error (.failed failure)) :
    Stray text 0 failure ∨
      failure.kind = .parse ∧ ∃ tokens token, Token.scan text = .ok tokens ∧ token ∈ tokens ∧ failure.site = some token.span := by
  unfold Grammar.ofText at unread
  cases scanned : Token.scan text with
  | error stray =>
    simp only [scanned, Except.error.injEq, Stop.failed.injEq] at unread
    subst unread
    exact .inl (scan_stray scanned)
  | ok tokens =>
    simp only [scanned] at unread
    have settles := GrammarReading.program_settles depth tokens 0 (Nat.zero_le _)
    rw [unread] at settles
    obtain ⟨kind, token, member, site⟩ := settles
    exact .inr ⟨kind, tokens, token, rfl, member, site⟩

theorem trouble_failed {stop : Stop} {failure : Failure} (told : stop.trouble = .failure failure)
    (followed : failure.cause ≠ .tooDeep) : stop = .failed failure := by
  cases stop with
  | failed earlier =>
    cases told
    rfl
  | tooDeep =>
    cases told
    exact absurd rfl followed
  | broken fault => cases told

def WrittenAmong (statements : List Statement) (node : Expr) : Prop := ∃ statement ∈ statements, node ∈ statement.expr.nodes

/-- Whatever ran of a batch before, its functions have their bodies in its own statements. -/
theorem interpret_atHome {session : Session} (reached : session.Reachable) {host : Host} {done rest : List Statement}
    {value : Value} {middle : Machine}
    (run : interpret host.renderer host.depth done session.machine = (.ok value, middle)) :
    AtHome (WrittenAmong (done ++ rest)) (some session.batches) middle := by
  refine ⟨(interpret_still run).2, interpret_known run ?_ ?_⟩
  · intro declaration member _ node inside
    exact ⟨.declare declaration, List.mem_append_left _ member, inside⟩
  · apply (reachable_known reached).mono
    rintro declaration _ ⟨batch, earlier, rfl⟩ same
    cases same
    exact absurd earlier (Nat.lt_irrefl _)

/-- Where a failure comes from, and what its site is. -/
inductive Sited (host : Host) (session : Session) (text : String) (failure : Failure) (site : Span) : Prop
  | lexical {index line : Nat} {character : Char} (found : text.toList[index]? = some character)
      (cause : failure.cause = .strayCharacter character line) (place : site = ⟨index, (index + 1 : Nat)⟩)
  | parse {tokens : List Token} {token : Token} (kind : failure.kind = .parse)
      (scanned : Token.scan text.toList = .ok tokens) (member : token ∈ tokens) (place : site = token.span)
  | running {done later : List Statement} {statement : Statement} {value : Value} {middle : Machine}
      (kind : failure.kind = .type ∨ failure.kind = .arity)
      (read : Grammar.ofText host.depth text.toList = .ok (done ++ statement :: later))
      (run : interpret host.renderer host.depth done session.machine = (.ok value, middle))
      (raised : ∃ raise, Raises host.renderer host.depth (.expression statement.expr) middle raise)
      (place : ∀ raise, Raises host.renderer host.depth (.expression statement.expr) middle raise →
        failure.cause = raise.cause ∧ site = (raise.blamed (some session.batches)).span ∧
          WrittenAmong (done ++ statement :: later) (raise.blamed (some session.batches)))

theorem running_sited {session : Session} (reached : session.Reachable) {host : Host} {text : String}
    {done later : List Statement} {statement : Statement} {value : Value} {middle after : Machine} {failure : Failure}
    (read : Grammar.ofText host.depth text.toList = .ok (done ++ statement :: later))
    (run : interpret host.renderer host.depth done session.machine = (.ok value, middle))
    (failed : statement.expr.evaluate host.renderer host.depth middle = (.error (.failed failure), after)) :
    ∃ site, failure.site = some site ∧ Inside 0 text.length site ∧ Sited host session text failure site := by
  have home : AtHome (WrittenAmong (done ++ statement :: later)) (some session.batches) middle :=
    interpret_atHome reached run
  have told : ∀ raise, Raises host.renderer host.depth (.expression statement.expr) middle raise →
      failure.cause = raise.cause ∧ failure.site = some (raise.blamed (some session.batches)).span ∧
        WrittenAmong (done ++ statement :: later) (raise.blamed (some session.batches)) := by
    intro raise raises
    obtain ⟨final, ended⟩ := Raises.fails raises
    rw [failed, home.origin] at ended
    cases ended
    exact ⟨rfl, rfl, blamed_mem raises home fun node member => ⟨statement, by simp, member⟩⟩
  obtain ⟨raise, raises⟩ := (derivable host.renderer host.depth).expression _ _ _ _ failed
  obtain ⟨cause, site, other, member, inside⟩ := told raise raises
  have kind : failure.kind = .type ∨ failure.kind = .arity := by
    rw [Failure.kind, cause]
    exact Raises.kind raises
  refine ⟨_, site, ofText_stands read other member _ inside, .running kind read run ⟨raise, raises⟩ ?_⟩
  intro again others
  obtain ⟨same, place, written⟩ := told again others
  exact ⟨same, Option.some.inj (site.symm.trans place), written⟩

theorem unread_sited {session : Session} {host : Host} {text : String} {failure : Failure}
    (unread : Grammar.ofText host.depth text.toList = .error (.failed failure)) :
    ∃ site, failure.site = some site ∧ Inside 0 text.length site ∧ Sited host session text failure site := by
  rcases ofText_failed unread with ⟨index, character, line, found, cause, site⟩ | ⟨kind, tokens, token, scanned, member, site⟩
  · rw [Nat.zero_add] at site
    obtain ⟨bound, -⟩ := List.getElem?_eq_some_iff.mp found
    rw [String.length_toList] at bound
    refine ⟨_, site, ?_, .lexical found cause rfl⟩
    simp only [Inside]
    omega
  · exact ⟨_, site, (scan_within scanned).inside member, .parse kind scanned member rfl⟩

/-- A failure points into the text at hand, and at the part that is to blame for it. -/
theorem failure_site_in_text {session : Session} (reached : session.Reachable) (host : Host) (text : String)
    {failure : Failure} (failed : (session.evaluate host text).1.outcome = .error (.failure failure))
    (followed : failure.cause ≠ .tooDeep) :
    ∃ site, failure.site = some site ∧ Inside 0 text.length site ∧ Sited host session text failure site := by
  cases read : Grammar.ofText host.depth text.toList with
  | error stop =>
    rw [evaluate_unread read] at failed
    obtain rfl := trouble_failed (Except.error.inj failed) followed
    exact unread_sited read
  | ok statements =>
    rcases run : interpret host.renderer host.depth statements session.machine with ⟨ended, final⟩
    rw [evaluate_read read run] at failed
    have whole := interpret_ended host.renderer host.depth statements session.machine
    rw [run] at whole
    cases whole with
    | finished => cases failed
    | stopped split early stopped =>
      obtain rfl := trouble_failed (Except.error.inj failed) followed
      subst split
      exact running_sited reached read early (execute_error stopped).2

/-- The function of the text `f(x) = x(x)`. -/
def selfApplied : Declaration :=
  ⟨⟨.name, "f", none, 1, ⟨0, 1⟩⟩, [⟨.name, "x", none, 1, ⟨2, 3⟩⟩],
    .call (.symbol ⟨.name, "x", none, 1, ⟨7, 8⟩⟩) [.symbol ⟨.name, "x", none, 1, ⟨9, 10⟩⟩]
      ⟨.mark .closing, ")", none, 1, ⟨10, 11⟩⟩⟩

/-- The expression of the text `f(sin)`. -/
def sineApplied : Expr :=
  .call (.symbol ⟨.name, "f", none, 1, ⟨0, 1⟩⟩) [.symbol ⟨.name, "sin", none, 1, ⟨2, 5⟩⟩]
    ⟨.mark .closing, ")", none, 1, ⟨5, 6⟩⟩

-- The sine refuses itself inside the body of an earlier batch, so the call is to blame.
theorem failure_site_in_text_foreign :
    let host : Host := { renderer := some .accepting }
    let session := (Session.start.evaluate host "f(x) = x(x)").2
    session.Reachable ∧ ∃ failure, (session.evaluate host "f(sin)").1.outcome = .error (.failure failure) ∧
      failure.cause ≠ .tooDeep ∧ failure.site = some ⟨0, 6⟩ ∧
      ∃ site, failure.site = some site ∧ Inside 0 "f(sin)".length site ∧ Sited host session "f(sin)" failure site := by
  intro host session
  have reached : session.Reachable := .evaluate .start host "f(x) = x(x)"
  let declared : Session :=
    ⟨⟨Machine.preamble.define "f" (.function (.declared selfApplied (some 0))), []⟩, some 0, 1⟩
  have same : session = declared := by
    have read : Grammar.ofText host.depth "f(x) = x(x)".toList = .ok [.declare selfApplied] := rfl
    have run : interpret host.renderer host.depth [.declare selfApplied] Session.start.machine =
      (.ok .nothing, ⟨declared.scopes, some 0, #[]⟩) := rfl
    exact congrArg Prod.snd (evaluate_read read run)
  have failed : ∃ failure, (session.evaluate host "f(sin)").1.outcome = .error (.failure failure) ∧
      failure.cause ≠ .tooDeep ∧ failure.site = some ⟨0, 6⟩ := by
    have read : Grammar.ofText host.depth "f(sin)".toList = .ok [.expression sineApplied] := rfl
    have run : interpret host.renderer host.depth [.expression sineApplied] declared.machine =
      (.error (.failed ⟨.needsNumber "<fnc:sin>" "<fnc:sin>", some ⟨0, 6⟩, none⟩), declared.machine) := rfl
    rw [same, evaluate_read read run]
    exact ⟨_, rfl, by simp, rfl⟩
  obtain ⟨failure, outcome, followed, place⟩ := failed
  exact ⟨reached, failure, outcome, followed, place, failure_site_in_text reached host "f(sin)" outcome followed⟩

end Reckoner.Proofs.FailureSites
