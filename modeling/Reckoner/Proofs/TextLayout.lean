import Reckoner.Proofs.GrammarLikeness
import Reckoner.Proofs.GrammarPrinting
import Reckoner.Proofs.ParallelRuns
import Reckoner.Proofs.TokenLexemes

/-! How a text is laid out has no meaning. Blanks, line breaks and comments move tokens
about, and a product may be written or left to be implied; as long as the same words come
in the same order, the same happens. Only the sites of failures know offsets, and they
still begin and end at the same words. -/

namespace Reckoner

/-- What a token says, apart from its place. The value of a number follows from its spelling. -/
def Token.word (token : Token) : Kind × String := (token.kind, token.lexeme)

def Token.words (text : String) : Except Failure (List (Kind × String)) := (scan text.toList).map (List.map word)

/-- The stretch from the start of one token to the stop of another, both counted from the front. -/
def Token.stretch? (tokens : List Token) (first last : Nat) : Option Span := do
  return ⟨(← tokens[first]?).span.start, (← tokens[last]?).span.stop⟩

def Function.bare : Function → Function
  | .builtin which => .builtin which
  | .declared declaration home =>
    .declared ⟨declaration.name.bare, declaration.parameters.map Token.bare, declaration.body.bare⟩ home

/-- The value without the places that a function remembers of its text. -/
def Value.bare : Value → Value := Value.mapFunction Function.bare

/-- Two texts that scan into the same words. -/
def Respaced (text other : String) : Prop :=
  ∃ words, Token.words text = .ok words ∧ Token.words other = .ok words

/-- Spans in two texts that begin at the same token and end at the same token. -/
def SameStretch (text other : String) (span opposite : Span) : Prop :=
  ∃ tokens others first last, Token.scan text.toList = .ok tokens ∧ Token.scan other.toList = .ok others ∧
    Token.stretch? tokens first last = some span ∧ Token.stretch? others first last = some opposite

/-- What two texts come to, where they come to the same. -/
inductive SameOutcome (text other : String) : Except Trouble Value → Except Trouble Value → Prop
  | value {value bound : Value} (same : value.bare = bound.bare) : SameOutcome text other (.ok value) (.ok bound)
  | failure {failure told : Failure} (cause : failure.cause = told.cause) (hint : failure.hint = told.hint)
      (site : Option.Rel (SameStretch text other) failure.site told.site) :
    SameOutcome text other (.error (.failure failure)) (.error (.failure told))
  | fault (fault : Fault) : SameOutcome text other (.error (.fault fault)) (.error (.fault fault))

/-- Two sessions that were fed text by text with the same words. -/
inductive Session.Abreast : Session → Session → Prop
  | start : Abreast .start .start
  | evaluate {session other : Session} (abreast : Abreast session other) (host : Host) {text opposite : String}
      (respaced : Respaced text opposite) :
    Abreast (session.evaluate host text).2 (other.evaluate host opposite).2

namespace Proofs.TextLayout
open Token Likeness TokenLexemes BatchExecution GrammarLikeness ParallelRuns

section Words

theorem scan_literal {text : List Char} {tokens : List Token} (read : scan text = .ok tokens) {token : Token}
    (member : token ∈ tokens) : token.literal = literalOf token.kind token.lexeme.toList := by
  obtain ⟨body, strung, rfl⟩ := scan_strung read
  rcases List.mem_append.mp member with early | last
  · rcases mem_implyProducts early with given | ⟨number, -, -, rfl⟩
    · exact (strung.written given).literal
    · rfl
  · rw [List.mem_singleton.mp last]
    rfl

theorem words_scan {text : String} {words : List (Kind × String)} (spoken : Token.words text = .ok words) :
    ∃ tokens, scan text.toList = .ok tokens ∧ tokens.map word = words := by
  unfold Token.words at spoken
  cases read : scan text.toList with
  | error failure => simp [read, Except.map] at spoken
  | ok tokens => exact ⟨tokens, rfl, by simpa [read, Except.map] using spoken⟩

theorem scan_same {text other : List Char} {tokens others : List Token} (read : scan text = .ok tokens)
    (again : scan other = .ok others) (words : tokens.map word = others.map word) :
    List.Forall₂ Token.Same tokens others := by
  obtain ⟨count, each⟩ := List.forall₂_iff_zip.mp (forall₂_iff_map_eq.mpr words)
  refine List.forall₂_iff_zip.mpr ⟨count, fun {token opposite} member => ?_⟩
  obtain ⟨kind, lexeme⟩ := Prod.mk.inj (each member)
  obtain ⟨here, there⟩ := List.of_mem_zip member
  exact ⟨kind, lexeme, by rw [scan_literal read here, scan_literal again there, kind, lexeme]⟩

theorem stretch_of_mem {tokens others : List Token} {first start last stop : Token}
    (begins : (first, start) ∈ tokens.zip others) (ends : (last, stop) ∈ tokens.zip others) :
    ∃ i j, stretch? tokens i j = some ⟨first.span.start, last.span.stop⟩ ∧
      stretch? others i j = some ⟨start.span.start, stop.span.stop⟩ := by
  obtain ⟨i, begins⟩ := List.mem_iff_getElem?.mp begins
  obtain ⟨j, ends⟩ := List.mem_iff_getElem?.mp ends
  obtain ⟨here, there⟩ := List.getElem?_zip_eq_some.mp begins
  obtain ⟨final, opposite⟩ := List.getElem?_zip_eq_some.mp ends
  exact ⟨i, j, by simp [stretch?, here, final], by simp [stretch?, there, opposite]⟩

end Words

section Pages

/-- A page pairs off the tokens of two batches. Tokens stand for each other if they say the same, and
phrases begin and end at tokens that are a pair on the page of their batch. -/
def layout (pages : List (List (Token × Token))) : Likeness where
  deeper := False
  unwrapped := False
  sited := True
  token := Token.Same
  edge origin first second := first.Same second ∧
    ∃ batch page, origin = some batch ∧ pages[batch]? = some page ∧ (first, second) ∈ page
  before := []
  same := id
  token_of_edge := And.left
  deeper_of_unwrapped := id

variable {pages : List (List (Token × Token))} {origin : Origin}

theorem bare_of_same {token other : Token} (same : token.Same other) : token.bare = other.bare := by
  simp only [Token.bare, same.kind, same.lexeme, same.literal]

theorem exprs_bare {expr other : Expr} (like : (layout pages).Exprs origin expr other) : expr.bare = other.bare := by
  induction like with
  | literal edge | symbol edge => simp only [Expr.bare, bare_of_same edge.1]
  | grouping _ _ ih => simp only [Expr.bare, ih]
  | unwrapped lost => exact lost.elim
  | binary _ between _ first second => simp only [Expr.bare, bare_of_same between, first, second]
  | unary edge _ ih => simp only [Expr.bare, bare_of_same edge.1, ih]
  | @call _ _ arguments others _ _ _ count _ edge head each =>
    have same : arguments.map Expr.bare = others.map Expr.bare :=
      forall₂_iff_map_eq.mp (List.forall₂_iff_zip.mpr ⟨count, fun member => each _ member⟩)
    simp only [Expr.bare, Expr.bareAll_eq, bare_of_same edge.1, head, same]

theorem functions_bare {function other : Function} (like : (layout pages).Functions function other) :
    function.bare = other.bare := by
  cases like with
  | builtin which => rfl
  | @declared declaration opposite home away batch like =>
    have parameters := forall₂_iff_map_eq.mp (like.parameters.imp fun _ _ => bare_of_same)
    obtain rfl : home = away := batch trivial
    simp only [Function.bare, bare_of_same like.name, parameters, exprs_bare like.body]

/-- More pages leave what the earlier ones say as it is. -/
theorem layout_implies (pages : List (List (Token × Token))) (page : List (Token × Token)) :
    (layout pages).Implies (layout (pages ++ [page])) := by
  refine ⟨Iff.rfl, id, id, ?_⟩
  rintro origin first second ⟨same, batch, earlier, rfl, found, member⟩
  refine ⟨same, batch, earlier, rfl, ?_, member⟩
  rw [List.getElem?_append_left (List.getElem?_eq_some_iff.mp found).1, found]

theorem edges_of_same (pages : List (List (Token × Token))) {tokens others : List Token}
    (same : List.Forall₂ Token.Same tokens others) :
    List.Forall₂ ((layout (pages ++ [tokens.zip others])).edge (some pages.length)) tokens others := by
  obtain ⟨count, each⟩ := List.forall₂_iff_zip.mp same
  refine List.forall₂_iff_zip.mpr ⟨count, fun member => ⟨each member, pages.length, _, rfl, ?_, member⟩⟩
  exact List.getElem?_concat_length

variable {text opposite : String} {tokens others : List Token} (read : scan text.toList = .ok tokens)
  (again : scan opposite.toList = .ok others)
include read again

theorem spans_stretch {span other : Span}
    (spans : (layout (pages ++ [tokens.zip others])).Spans (some pages.length) span other) :
    SameStretch text opposite span other := by
  have onPage {first second : Token}
      (edge : (layout (pages ++ [tokens.zip others])).edge (some pages.length) first second) :
      (first, second) ∈ tokens.zip others := by
    obtain ⟨-, batch, page, here, found, member⟩ := edge
    obtain rfl : pages.length = batch := Option.some.inj here
    rw [List.getElem?_concat_length] at found
    rwa [Option.some.inj found]
  obtain ⟨first, start, last, stop, begins, ends, rfl, rfl⟩ := spans
  obtain ⟨i, j, here, there⟩ := stretch_of_mem (onPage begins) (onPage ends)
  exact ⟨tokens, others, i, j, read, again, here, there⟩

theorem stops_same {stop told : Stop}
    (stops : (layout (pages ++ [tokens.zip others])).Stops (some pages.length) stop told) :
    SameOutcome text opposite (.error stop.trouble) (.error told.trouble) := by
  cases stops with
  | tooDeep => exact .failure rfl rfl .none
  | broken fault => exact .fault fault
  | @failed failure told like =>
    have sites := like.site trivial
    refine .failure like.cause like.hint ?_
    generalize failure.site = site, told.site = place at sites
    cases sites with
    | none => exact .none
    | some spans => exact .some (spans_stretch read again spans)

end Pages

section Sessions

/-- Sessions whose functions are alike, with a page for every batch that both have run. -/
structure Alongside (pages : List (List (Token × Token))) (session other : Session) : Prop where
  scopes : (layout pages).Chains session.scopes other.scopes
  batches : session.batches = pages.length
  same : other.batches = pages.length

variable {pages : List (List (Token × Token))} {session other : Session}

theorem alongside_start : Alongside [] .start .start := by
  refine ⟨⟨Frames.defineAll (List.forall₂_same.mpr fun binding member => ?_) .nil, .nil⟩, rfl, rfl⟩
  obtain ⟨which, -, rfl⟩ := List.mem_map.mp member
  exact ⟨rfl, .function (.builtin which)⟩

theorem Alongside.globals (alongside : Alongside pages session other) :
    session.globals.mapValues Value.bare = other.globals.mapValues Value.bare :=
  alongside.scopes.globals_eq functions_bare

/-- One batch more, and one page. -/
theorem Alongside.runBatch {page : List (Token × Token)} (alongside : Alongside pages session other) (host : Host)
    {statements others : List Statement}
    (like : List.Forall₂ ((layout (pages ++ [page])).Statements (some pages.length)) statements others) :
    ∃ result ended events after final, session.runBatch host statements = (⟨result.mapError Stop.trouble, events⟩, after) ∧
      other.runBatch host others = (⟨ended.mapError Stop.trouble, events⟩, final) ∧
      (layout (pages ++ [page])).Results (some pages.length) (layout (pages ++ [page])).Values result ended ∧
      Alongside (pages ++ [page]) after final := by
  rcases run : interpret host.renderer host.depth statements session.machine with ⟨result, after⟩
  rcases again : interpret host.renderer host.depth others other.machine with ⟨ended, final⟩
  have depths : (layout (pages ++ [page])).Depths host.depth host.depth := ⟨Nat.le_refl _, .inl rfl⟩
  have machines : (layout (pages ++ [page])).Machines (some pages.length) session.machine other.machine :=
    ⟨alongside.scopes.weaken (layout_implies pages page), congrArg some alongside.batches,
      fun _ => congrArg some alongside.same, rfl⟩
  have ends := interpret_matches host.renderer depths like _ _ machines
  rw [run, again] at ends
  obtain ⟨results, states⟩ := ends.agree id
  have shown : after.events.toList = final.events.toList := states.events
  have still : Alongside (pages ++ [page]) ⟨after.scopes, after.origin, session.batches + 1⟩
      ⟨final.scopes, final.origin, other.batches + 1⟩ := by
    refine ⟨states.scopes, ?_, ?_⟩
    · rw [alongside.batches, List.length_append, List.length_singleton]
    · rw [alongside.same, List.length_append, List.length_singleton]
  refine ⟨result, ended, after.events.toList, _, _, Session.runBatch_eq run, ?_, results, still⟩
  rw [Session.runBatch_eq again, shown]

/-- One step of two sessions: they come to the same, and stay alongside each other. -/
theorem Alongside.evaluate (alongside : Alongside pages session other) (host : Host) {text opposite : String}
    (respaced : Respaced text opposite) :
    SameOutcome text opposite (session.evaluate host text).1.outcome (other.evaluate host opposite).1.outcome ∧
    (session.evaluate host text).1.events = (other.evaluate host opposite).1.events ∧
    ∃ more, Alongside more (session.evaluate host text).2 (other.evaluate host opposite).2 := by
  obtain ⟨words, spoken, repeated⟩ := respaced
  obtain ⟨tokens, read, rfl⟩ := words_scan spoken
  obtain ⟨others, again, words⟩ := words_scan repeated
  -- The page of the new batch is there from the start, since reading may fail at its tokens already.
  have edges := edges_of_same pages (scan_same read again words.symm)
  have programs := program_like id id host.depth edges
  have here : Grammar.ofText host.depth text.toList = Grammar.program host.depth tokens := by rw [Grammar.ofText, read]
  have there : Grammar.ofText host.depth opposite.toList = Grammar.program host.depth others := by
    rw [Grammar.ofText, again]
  rw [← here, ← there] at programs
  generalize first : Grammar.ofText host.depth text.toList = program at programs
  generalize second : Grammar.ofText host.depth opposite.toList = printed at programs
  cases programs with
  | error stops =>
    rw [evaluate_unread first, evaluate_unread second]
    exact ⟨stops_same read again stops, rfl, pages, alongside⟩
  | ok statements =>
    obtain ⟨result, ended, events, after, final, run, rerun, results, still⟩ := alongside.runBatch host statements
    rw [Session.evaluate_eq_runBatch first, Session.evaluate_eq_runBatch second, run, rerun]
    refine ⟨?_, rfl, _, still⟩
    cases results with
    | ok values => exact .value (values.map_eq functions_bare)
    | error stops => exact stops_same read again stops

theorem alongside_of_abreast (abreast : session.Abreast other) : ∃ pages, Alongside pages session other := by
  induction abreast with
  | start => exact ⟨[], alongside_start⟩
  | evaluate _ host respaced ih =>
    obtain ⟨pages, alongside⟩ := ih
    exact (alongside.evaluate host respaced).2.2

/-- Two sessions that are fed text by text with the same words come to the same each time: the same
value, or the same failure and hint with sites from the same token to the same token, the same
lines and plots, and the same names with the same values. -/
theorem layout_means_nothing {session other : Session} (abreast : session.Abreast other) (host : Host)
    {text opposite : String} (respaced : Respaced text opposite) :
    let here := session.evaluate host text
    let there := other.evaluate host opposite
    SameOutcome text opposite here.1.outcome there.1.outcome ∧ here.1.events = there.1.events ∧
    here.2.globals.mapValues Value.bare = there.2.globals.mapValues Value.bare := by
  obtain ⟨pages, alongside⟩ := alongside_of_abreast abreast
  obtain ⟨outcome, events, more, still⟩ := alongside.evaluate host respaced
  exact ⟨outcome, events, still.globals⟩

end Sessions

section Example

/-- The function of the text `f(x) = 2x`, however it is laid out behind the equals sign. -/
def doubling (line : Nat) (two star x : Span) : Declaration :=
  ⟨⟨.name, "f", none, 1, ⟨0, 1⟩⟩, [⟨.name, "x", none, 1, ⟨2, 3⟩⟩],
    .binary (.literal ⟨.number, "2", literalOf .number ['2'], line, two⟩) ⟨.mark .star, "*", none, line, star⟩
      (.symbol ⟨.name, "x", none, line, x⟩)⟩

/-- The call of the text `f(sin)`, however it is laid out. -/
def doublingSine (f sine closing : Span) : Expr :=
  .call (.symbol ⟨.name, "f", none, 1, f⟩) [.symbol ⟨.name, "sin", none, 1, sine⟩]
    ⟨.mark .closing, ")", none, 1, closing⟩

def declared (declaration : Declaration) : Session :=
  ⟨.single (Machine.preamble.define "f" (.function (.declared declaration (some 0)))), some 0, 1⟩

theorem evaluate_doubling {text : String} {line : Nat} {two star x : Span}
    (read : Grammar.ofText depthLimit text.toList = .ok [.declare (doubling line two star x)]) :
    (Session.start.evaluate { renderer := none } text).2 = declared (doubling line two star x) := by
  have run : interpret none depthLimit [.declare (doubling line two star x)] Session.start.machine =
    (.ok .nothing, ⟨(declared (doubling line two star x)).scopes, some 0, #[]⟩) := rfl
  have ended : Session.start.evaluate { renderer := none } text = _ := evaluate_read read run
  rw [ended]
  rfl

-- The body fails in a text of before, so the call has to take the blame.
theorem evaluate_doublingSine {text : String} {line : Nat} {two star x f sine closing : Span}
    (read : Grammar.ofText depthLimit text.toList = .ok [.expression (doublingSine f sine closing)]) :
    ((declared (doubling line two star x)).evaluate { renderer := none } text).1.outcome =
      .error (.failure ⟨.notNumeric "<fnc:sin>", some ⟨f.start, closing.stop⟩, none⟩) := by
  have run : interpret none depthLimit [.expression (doublingSine f sine closing)]
      (declared (doubling line two star x)).machine =
    (.error (.failed ⟨.notNumeric "<fnc:sin>", some ⟨f.start, closing.stop⟩, none⟩),
      (declared (doubling line two star x)).machine) := rfl
  have ended : (declared (doubling line two star x)).evaluate { renderer := none } text = _ := evaluate_read read run
  rw [ended]
  rfl

-- Once the product is implied and once it is written, in another line and before a comment.
theorem abreast_doubling :
    (declared (doubling 1 ⟨7, 8⟩ ⟨8, 8⟩ ⟨8, 9⟩)).Abreast (declared (doubling 2 ⟨9, 10⟩ ⟨11, 12⟩ ⟨13, 14⟩)) := by
  have read : Grammar.ofText depthLimit "f(x) = 2x".toList = .ok [.declare (doubling 1 ⟨7, 8⟩ ⟨8, 8⟩ ⟨8, 9⟩)] := rfl
  have again : Grammar.ofText depthLimit "f(x) =\n  2 * x // twice".toList =
    .ok [.declare (doubling 2 ⟨9, 10⟩ ⟨11, 12⟩ ⟨13, 14⟩)] := rfl
  have respaced : Respaced "f(x) = 2x" "f(x) =\n  2 * x // twice" :=
    ⟨[(.name, "f"), (.mark .opening, "("), (.name, "x"), (.mark .closing, ")"), (.mark .equals, "="), (.number, "2"),
      (.mark .star, "*"), (.name, "x"), (.finish, "<END>")], rfl, rfl⟩
  rw [← evaluate_doubling read, ← evaluate_doubling again]
  exact .evaluate .start _ respaced

theorem layout_means_nothing_commented :
    let session := declared (doubling 1 ⟨7, 8⟩ ⟨8, 8⟩ ⟨8, 9⟩)
    let other := declared (doubling 2 ⟨9, 10⟩ ⟨11, 12⟩ ⟨13, 14⟩)
    let here := session.evaluate { renderer := none } "f(sin)"
    let there := other.evaluate { renderer := none } " f( sin )"
    here.1.outcome = .error (.failure ⟨.notNumeric "<fnc:sin>", some ⟨0, 6⟩, none⟩) ∧
    there.1.outcome = .error (.failure ⟨.notNumeric "<fnc:sin>", some ⟨1, 9⟩, none⟩) ∧
    SameOutcome "f(sin)" " f( sin )" here.1.outcome there.1.outcome := by
  have read : Grammar.ofText depthLimit "f(sin)".toList =
    .ok [.expression (doublingSine ⟨0, 1⟩ ⟨2, 5⟩ ⟨5, 6⟩)] := rfl
  have again : Grammar.ofText depthLimit " f( sin )".toList =
    .ok [.expression (doublingSine ⟨1, 2⟩ ⟨4, 7⟩ ⟨8, 9⟩)] := rfl
  have respaced : Respaced "f(sin)" " f( sin )" :=
    ⟨[(.name, "f"), (.mark .opening, "("), (.name, "sin"), (.mark .closing, ")"), (.finish, "<END>")], rfl, rfl⟩
  exact ⟨evaluate_doublingSine read, evaluate_doublingSine again,
    (layout_means_nothing abreast_doubling { renderer := none } respaced).1⟩

end Example

end Proofs.TextLayout

end Reckoner
