import Reckoner.Proofs.EvaluationSafety

/-! Whatever texts a session is given, each of them ends with a value or with one of the
failures that programs can have. All that the session holds was read from texts, so that
every batch starts where evaluation is safe; only a renderer can break a batch. -/

namespace Reckoner.Proofs.SessionSafety
open Run Grammar EvaluationFrame BatchExecution PureEvaluation FunctionOrigins TokenSpans EvaluationSafety

section Batches

variable {renderer : Option Renderer} {depth : Nat}

/-- A run has drawn all the plots among its events; only a plot that cannot be drawn breaks
it, and that is its last event. -/
inductive Traced (renderer : Option Renderer) : Except Stop Value → List Event → Prop
  | calm {result : Except Stop Value} {events : List Event} (unbroken : ∀ fault, result ≠ .error (.broken fault))
      (drawn : ∀ points, .plotted points ∈ events → Shown renderer points (.ok ())) : Traced renderer result events
  | broken {earlier : List Event} {points : List (Point Float)} {fault : Fault}
      (drawn : ∀ points, .plotted points ∈ earlier → Shown renderer points (.ok ()))
      (breaks : Shown renderer points (.error fault)) :
      Traced renderer (.error (.broken fault)) (earlier ++ [.plotted points])

theorem Traced.drawn {events : List Event} {value : Value} (traced : Traced renderer (.ok value) events) :
    ∀ points, .plotted points ∈ events → Shown renderer points (.ok ()) := by
  cases traced with
  | calm _ drawn => exact drawn

theorem draws_traced {yield : Yield Value} (draws : Draws renderer yield) {events : List Event}
    (before : ∀ points, .plotted points ∈ events → Shown renderer points (.ok ())) :
    Traced renderer yield.result (events ++ yield.plots.map .plotted) := by
  cases draws with
  | calm unbroken drawn =>
    refine .calm unbroken fun points member => ?_
    rcases List.mem_append.mp member with early | late
    · exact before points early
    · obtain ⟨plot, given, same⟩ := List.mem_map.mp late
      cases same
      exact drawn points given
  | broken drawn breaks =>
    rw [List.map_append, ← List.append_assoc]
    refine .broken (fun points member => ?_) breaks
    rcases List.mem_append.mp member with early | late
    · exact before points early
    · obtain ⟨plot, given, same⟩ := List.mem_map.mp late
      cases same
      exact drawn points given

/-- Where a machine stands before each statement: its functions are meaningful, and its
plots so far are drawn. -/
structure Sane (renderer : Option Renderer) (machine : Machine) : Prop where
  functions : KnownIn Bodied (.ofChain machine.scopes)
  drawn : ∀ points, .plotted points ∈ machine.events.toList → Shown renderer points (.ok ())

theorem evaluate_traced {expr : Expr} {machine after : Machine} {result : Except Stop Value}
    (ended : expr.evaluate renderer depth machine = (result, after)) (meaningful : expr.Meaningful)
    (sane : Sane renderer machine) : Traced renderer result after.events.toList := by
  have followed := (both_simulate renderer depth).1 _ _ expr machine rfl rfl
  rw [ended] at followed
  have draws := (safe renderer depth).expression _ machine.origin expr sane.functions meaningful
  rw [show result = _ from followed.result, show after.events.toList = _ from followed.events]
  exact draws_traced draws sane.drawn

theorem execute_traced {statement : Statement} {machine after : Machine} {result : Except Stop Value}
    (ended : statement.execute renderer depth machine = (result, after)) (meaningful : statement.expr.Meaningful)
    (sane : Sane renderer machine) : Traced renderer result after.events.toList := by
  cases result with
  | error stop => exact evaluate_traced (execute_error ended).2 meaningful sane
  | ok value =>
    refine .calm nofun ?_
    cases statement with
    | expression expr => exact (evaluate_traced ended meaningful sane).drawn
    | print keyword expr =>
      obtain ⟨shown, middle, run, printed⟩ := bind_ok ended
      obtain ⟨-, rfl⟩ := Prod.mk.inj printed
      intro points member
      have earlier : .plotted points ∈ middle.events.toList := by simpa using member
      exact (evaluate_traced run meaningful sane).drawn points earlier
    | assign name expr =>
      obtain ⟨given, middle, run, defined⟩ := bind_ok ended
      obtain ⟨-, rfl⟩ := Prod.mk.inj defined
      exact (evaluate_traced run meaningful sane).drawn
    | declare declaration =>
      obtain ⟨-, rfl⟩ := Prod.mk.inj ended
      exact sane.drawn

theorem interpret_traced {statements : List Statement} {machine after : Machine} {result : Except Stop Value}
    (run : interpret renderer depth statements machine = (result, after))
    (meaningful : ∀ statement ∈ statements, statement.expr.Meaningful) (sane : Sane renderer machine) :
    Traced renderer result after.events.toList := by
  induction statements using List.reverseRecOn generalizing result after with
  | nil =>
    cases run
    exact .calm nofun sane.drawn
  | append_singleton done statement ih =>
    have early : ∀ other ∈ done, other.expr.Meaningful := fun other member => meaningful other (by simp [member])
    have last {middle final : Machine} {value : Value} {ended : Except Stop Value}
        (before : interpret renderer depth done machine = (.ok value, middle))
        (executed : statement.execute renderer depth middle = (ended, final)) :
        Traced renderer ended final.events.toList := by
      have functions : KnownIn Bodied (.ofChain middle.scopes) :=
        interpret_known before (fun declaration member => early (.declare declaration) member) sane.functions
      exact execute_traced executed (meaningful statement (by simp)) ⟨functions, (ih before early).drawn⟩
    rw [interpret_snoc] at run
    cases result with
    | ok value =>
      obtain ⟨_, middle, before, executed⟩ := bind_ok run
      exact last before executed
    | error stop =>
      rcases bind_error run with stopped | ⟨_, middle, before, executed⟩
      · exact ih stopped early
      · exact last before executed

theorem reachable_bodied {session : Session} (reached : session.Reachable) :
    KnownIn Bodied (.ofChain session.scopes) := by
  apply (reachable_declared reached).mono
  rintro declaration home ⟨-, depth, text, statements, read, member⟩
  exact ofText_meaningful read (.declare declaration) member

theorem interpret_kind {statements : List Statement} {machine after : Machine} {failure : Failure}
    (run : interpret renderer depth statements machine = (.error (.failed failure), after)) :
    failure.kind = .type ∨ failure.kind = .arity := by
  have whole := interpret_ended renderer depth statements machine
  rw [run] at whole
  cases whole with
  | stopped split before stopped =>
    have failed := (execute_error stopped).2
    obtain ⟨raise, raises⟩ := (FailureTrace.derivable renderer depth).expression _ _ _ _ failed
    obtain ⟨final, ended⟩ := FailureTrace.Raises.fails raises
    rw [failed] at ended
    cases ended
    exact FailureTrace.Raises.kind raises

end Batches

/-- The course of an evaluation, with its result and the session it leaves. -/
inductive Course (host : Host) (session : Session) (text : String) : Result × Session → Prop
  | stray {failure : Failure} (scanned : Token.scan text.toList = .error failure) (kind : failure.kind = .lexical) :
    Course host session text (⟨.error (.failure failure), []⟩, session)
  | refused {tokens : List Token} {failure : Failure} (scanned : Token.scan text.toList = .ok tokens)
      (unread : program host.depth tokens = .error (.failed failure)) (kind : failure.kind = .parse) :
    Course host session text (⟨.error (.failure failure), []⟩, session)
  | steep {tokens : List Token} (scanned : Token.scan text.toList = .ok tokens)
      (unread : program host.depth tokens = .error .tooDeep) :
    Course host session text (⟨.error (.failure { cause := .tooDeep }), []⟩, session)
  | run {tokens : List Token} {statements : List Statement} {result : Except Stop Value} {after : Machine}
      (scanned : Token.scan text.toList = .ok tokens) (read : program host.depth tokens = .ok statements)
      (traced : Traced host.renderer result after.events.toList)
      (kinds : ∀ failure, result = .error (.failed failure) → failure.kind = .type ∨ failure.kind = .arity) :
    Course host session text (⟨result.mapError Stop.trouble, after.events.toList⟩,
      ⟨after.scopes, after.origin, session.batches + 1⟩)

theorem evaluate_course {session : Session} (reached : session.Reachable) (host : Host) (text : String) :
    Course host session text (session.evaluate host text) := by
  cases scanned : Token.scan text.toList with
  | error failure =>
    obtain ⟨index, character, line, -, cause, -⟩ := scan_stray scanned
    have unread : ofText host.depth text.toList = .error (.failed failure) := by simp only [ofText, scanned]
    rw [evaluate_unread unread]
    exact .stray scanned (by rw [Failure.kind, cause]; rfl)
  | ok tokens =>
    have same : ofText host.depth text.toList = program host.depth tokens := by simp only [ofText, scanned]
    cases read : program host.depth tokens with
    | error stop =>
      rw [evaluate_unread (same.trans read)]
      cases stop with
      | broken fault => exact absurd (same.trans read) (ofText_unbroken _ _ _)
      | tooDeep => exact .steep scanned read
      | failed failure =>
        have settles := GrammarReading.program_settles host.depth tokens 0 (Nat.zero_le _)
        rw [read] at settles
        exact .refused scanned read settles.1
    | ok statements =>
      rcases run : interpret host.renderer host.depth statements session.machine with ⟨result, after⟩
      rw [evaluate_read (same.trans read) run]
      refine .run scanned read ?_ ?_
      · have sane : Sane host.renderer session.machine := ⟨reachable_bodied reached, by simp [Session.machine]⟩
        exact interpret_traced run (ofText_meaningful (same.trans read)) sane
      · rintro failure rfl
        exact interpret_kind run

/-- A renderer that draws whatever it is given. -/
def Steady (renderer : Option Renderer) : Prop := ∀ draw, renderer = some draw → ∀ points, draw points = .ok ()

theorem Traced.unbroken {renderer : Option Renderer} (steady : Steady renderer) {result : Except Stop Value}
    {events : List Event} (traced : Traced renderer result events) : ∀ fault, result ≠ .error (.broken fault) := by
  cases traced with
  | calm unbroken _ => exact unbroken
  | broken _ breaks =>
    obtain ⟨-, draw, same, broken⟩ := breaks
    cases (steady draw same _).symm.trans broken

theorem told_fault {result : Except Stop Value} (fault : Fault) :
    result.mapError Stop.trouble = .error (.fault fault) ↔ result = .error (.broken fault) := by
  cases result with
  | ok value => exact ⟨nofun, nofun⟩
  | error stop =>
    cases stop with
    | failed | tooDeep => exact ⟨nofun, nofun⟩
    | broken other => exact ⟨fun same => by cases same; rfl, fun same => by cases same; rfl⟩

theorem trouble_kind {result : Except Stop Value} {failure : Failure}
    (kinds : ∀ failure, result = .error (.failed failure) → failure.kind = .type ∨ failure.kind = .arity)
    (told : result.mapError Stop.trouble = .error (.failure failure)) :
    failure.kind = .type ∨ failure.kind = .arity ∨ failure.kind = .depth := by
  cases result with
  | ok value => cases told
  | error stop =>
    cases stop with
    | broken fault => cases told
    | tooDeep =>
      cases told
      exact .inr (.inr rfl)
    | failed failed =>
      cases told
      rcases kinds failure rfl with kind | kind
      · exact .inl kind
      · exact .inr (.inl kind)

/-- What a caller can rely on, whatever the text. -/
structure Contained (host : Host) (session : Session) (text : String) (result : Result) (after : Session) : Prop where
  outcome : (∃ value, result.outcome = .ok value) ∨ ∃ failure, result.outcome = .error (.failure failure) ∧
    failure.kind ∈ [.lexical, .parse, .type, .arity, .depth]
  lexical : (∃ failure, result.outcome = .error (.failure failure) ∧ failure.kind = .lexical) ↔
    ∃ failure, Token.scan text.toList = .error failure
  parse : (∃ failure, result.outcome = .error (.failure failure) ∧ failure.kind = .parse) ↔
    ∃ tokens failure, Token.scan text.toList = .ok tokens ∧ program host.depth tokens = .error (.failed failure)
  untouched : ∀ failure, result.outcome = .error (.failure failure) → failure.kind = .lexical ∨ failure.kind = .parse →
    after = session ∧ result.events = []
  running : ∀ failure, result.outcome = .error (.failure failure) → failure.kind = .type ∨ failure.kind = .arity →
    ∃ statements, ofText host.depth text.toList = .ok statements

section Course

variable {host : Host} {session after : Session} {text : String} {result : Result}
  (course : Course host session text (result, after))

include course

/-- The kind of a failure tells where the evaluation ended. -/
theorem Course.failed {failure : Failure} (told : result.outcome = .error (.failure failure)) :
    (failure.kind = .lexical ∧ (∃ failure, Token.scan text.toList = .error failure) ∧
      after = session ∧ result.events = []) ∨
    (failure.kind = .parse ∧ (∃ tokens failure, Token.scan text.toList = .ok tokens ∧
      program host.depth tokens = .error (.failed failure)) ∧ after = session ∧ result.events = []) ∨
    failure.kind = .depth ∨
    ((failure.kind = .type ∨ failure.kind = .arity) ∧ ∃ statements, ofText host.depth text.toList = .ok statements) := by
  cases course with
  | stray scanned kind =>
    cases told
    exact .inl ⟨kind, ⟨_, scanned⟩, rfl, rfl⟩
  | refused scanned unread kind =>
    cases told
    exact .inr (.inl ⟨kind, ⟨_, _, scanned, unread⟩, rfl, rfl⟩)
  | steep scanned unread =>
    cases told
    exact .inr (.inr (.inl rfl))
  | @run tokens statements result machine scanned read traced kinds =>
    have found : ofText host.depth text.toList = .ok statements := by simp only [ofText, scanned, read]
    rcases trouble_kind kinds told with kind | kind | kind
    · exact .inr (.inr (.inr ⟨.inl kind, statements, found⟩))
    · exact .inr (.inr (.inr ⟨.inr kind, statements, found⟩))
    · exact .inr (.inr (.inl kind))

theorem Course.kind {failure : Failure} (told : result.outcome = .error (.failure failure)) :
    failure.kind ∈ [.lexical, .parse, .type, .arity, .depth] := by
  rcases course.failed told with ⟨kind, -⟩ | ⟨kind, -⟩ | kind | ⟨kind | kind, -⟩ <;> simp [kind]

theorem Course.stray_lexical {failure : Failure} (stray : Token.scan text.toList = .error failure) :
    ∃ failure, result.outcome = .error (.failure failure) ∧ failure.kind = .lexical := by
  cases course with
  | stray scanned kind => exact ⟨_, rfl, kind⟩
  | refused scanned | steep scanned | run scanned => cases stray.symm.trans scanned

theorem Course.refused_parse {tokens : List Token} {failure : Failure} (given : Token.scan text.toList = .ok tokens)
    (refused : program host.depth tokens = .error (.failed failure)) :
    ∃ failure, result.outcome = .error (.failure failure) ∧ failure.kind = .parse := by
  cases course with
  | stray scanned => cases given.symm.trans scanned
  | refused scanned unread kind => exact ⟨_, rfl, kind⟩
  | steep scanned unread =>
    cases given.symm.trans scanned
    cases refused.symm.trans unread
  | run scanned read =>
    cases given.symm.trans scanned
    cases refused.symm.trans read

theorem Course.faultless (steady : Steady host.renderer) (fault : Fault) : result.outcome ≠ .error (.fault fault) := by
  cases course with
  | stray | refused | steep => exact nofun
  | run scanned read traced kinds => exact fun told => traced.unbroken steady fault ((told_fault fault).mp told)

theorem Course.contained (steady : Steady host.renderer) : Contained host session text result after := by
  constructor
  · cases ended : result.outcome with
    | ok value => exact .inl ⟨value, rfl⟩
    | error trouble =>
      cases trouble with
      | fault fault => exact absurd ended (course.faultless steady fault)
      | failure failure => exact .inr ⟨failure, rfl, course.kind ended⟩
  · constructor
    · intro ⟨failure, told, kind⟩
      rcases course.failed told with ⟨-, scanned, -⟩ | ⟨other, -⟩ | other | ⟨other | other, -⟩
      · exact scanned
      all_goals cases kind.symm.trans other
    · intro ⟨_, scanned⟩
      exact course.stray_lexical scanned
  · constructor
    · intro ⟨failure, told, kind⟩
      rcases course.failed told with ⟨other, -⟩ | ⟨-, unread, -⟩ | other | ⟨other | other, -⟩
      · cases kind.symm.trans other
      · exact unread
      all_goals cases kind.symm.trans other
    · intro ⟨_, _, scanned, unread⟩
      exact course.refused_parse scanned unread
  · intro failure told early
    rcases course.failed told with ⟨-, -, untouched⟩ | ⟨-, -, untouched⟩ | other | ⟨other | other, -⟩
    · exact untouched
    · exact untouched
    all_goals simp [other] at early
  · intro failure told late
    rcases course.failed told with ⟨other, -⟩ | ⟨other, -⟩ | other | ⟨-, read⟩
    · simp [other] at late
    · simp [other] at late
    · simp [other] at late
    · exact read

end Course

/-- Evaluation is contained in every session that texts can lead to, as long as the renderer
draws what it is given: every batch ends with a value or with one of the failures that
programs can have. Nothing the session holds or reads lacks a value or an operation, and
no function is applied to a wrong number of arguments. -/
theorem evaluation_contained {session : Session} (reached : session.Reachable) (host : Host)
    (steady : Steady host.renderer) (text : String) :
    Contained host session text (session.evaluate host text).1 (session.evaluate host text).2 ∧
    (∀ name declaration home, session.scopes.get? name = some (.function (.declared declaration home)) →
      declaration.body.Meaningful) ∧
    (∀ statements, ofText host.depth text.toList = .ok statements →
      ∀ statement ∈ statements, statement.expr.Meaningful) ∧
    ∀ mismatch depth, Expr.evaluateWith mismatch host.renderer depth = Expr.evaluate host.renderer depth := by
  refine ⟨(evaluate_course reached host text).contained steady, ?_, fun _ => ofText_meaningful, ?_⟩
  · intro name declaration home bound
    have known := reachable_bodied reached name
    rw [Environment.ofChain, bound] at known
    exact known
  · exact fun mismatch depth => (mismatch_unreached mismatch host.renderer depth).1

/-- The function of the text `sin(x, y) = x*y`. -/
def shadow : Declaration :=
  ⟨⟨.name, "sin", none, 1, ⟨0, 3⟩⟩, [⟨.name, "x", none, 1, ⟨4, 5⟩⟩, ⟨.name, "y", none, 1, ⟨7, 8⟩⟩],
    .binary (.symbol ⟨.name, "x", none, 1, ⟨12, 13⟩⟩) ⟨.mark .star, "*", none, 1, ⟨13, 14⟩⟩
      (.symbol ⟨.name, "y", none, 1, ⟨14, 15⟩⟩)⟩

/-- The expression of the text `plot(sin)`. -/
def shadowPlotted : Expr :=
  .call (.symbol ⟨.name, "plot", none, 1, ⟨0, 4⟩⟩) [.symbol ⟨.name, "sin", none, 1, ⟨5, 8⟩⟩]
    ⟨.mark .closing, ")", none, 1, ⟨8, 9⟩⟩

-- The sine is shadowed by a function of two parameters, and the plot counts them before it samples.
theorem evaluation_contained_shadowed :
    let host : Host := { renderer := some .accepting }
    let session := (Session.start.evaluate host "sin(x, y) = x*y").2
    session.Reachable ∧ Steady host.renderer ∧
      Contained host session "plot(sin)" (session.evaluate host "plot(sin)").1 (session.evaluate host "plot(sin)").2 ∧
      ∃ failure, (session.evaluate host "plot(sin)").1.outcome = .error (.failure failure) ∧ failure.kind = .arity := by
  intro host session
  have reached : session.Reachable := .evaluate .start host "sin(x, y) = x*y"
  have steady : Steady host.renderer := by
    rintro draw ⟨⟩ points
    rfl
  let declared : Session :=
    ⟨⟨Machine.preamble.define "sin" (.function (.declared shadow (some 0))), []⟩, some 0, 1⟩
  have same : session = declared := by
    have read : ofText host.depth "sin(x, y) = x*y".toList = .ok [.declare shadow] := rfl
    have run : interpret host.renderer host.depth [.declare shadow] Session.start.machine =
      (.ok .nothing, ⟨declared.scopes, some 0, #[]⟩) := rfl
    exact congrArg Prod.snd (evaluate_read read run)
  refine ⟨reached, steady, (evaluation_contained reached host steady "plot(sin)").1, ?_⟩
  have read : ofText host.depth "plot(sin)".toList = .ok [.expression shadowPlotted] := rfl
  have run : interpret host.renderer host.depth [.expression shadowPlotted] declared.machine =
    (.error (.failed ⟨.arity 2 1, some ⟨0, 9⟩, none⟩), declared.machine) := rfl
  rw [same, evaluate_read read run]
  exact ⟨_, rfl, rfl⟩

end Reckoner.Proofs.SessionSafety
