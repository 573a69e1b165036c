import Mathlib.Data.List.Forall2
import Reckoner.Session

/-! What two runs that are compared have in common. A likeness says which tokens of theirs
stand for each other, and so which trees, functions, values and scopes do. Often one side
is the image of the other, or both have the same image, under a change of functions. -/

namespace Reckoner

theorem forall₂_iff_map_eq {α β γ : Type} {view : α → γ} {other : β → γ} {items : List α} {others : List β} :
    List.Forall₂ (fun item opposite => view item = other opposite) items others ↔ items.map view = others.map other := by
  rw [← List.forall₂_eq_eq_eq, List.forall₂_map_left_iff, List.forall₂_map_right_iff]

/-- Over the parts of an expression, however many arguments its calls have. -/
theorem Expr.by_parts {motive : Expr → Prop} (literal : ∀ token, motive (.literal token))
    (symbol : ∀ name, motive (.symbol name)) (grouping : ∀ inner, motive inner → motive (.grouping inner))
    (binary : ∀ left operator right, motive left → motive right → motive (.binary left operator right))
    (unary : ∀ operator operand, motive operand → motive (.unary operator operand))
    (call : ∀ callee arguments closing, motive callee → (∀ argument ∈ arguments, motive argument) →
      motive (.call callee arguments closing)) (expr : Expr) : motive expr :=
  @Expr.rec motive (fun exprs => ∀ expr ∈ exprs, motive expr) literal symbol grouping binary unary call
    nofun (fun _ _ head tail => List.forall_mem_cons.mpr ⟨head, tail⟩) expr

def Value.mapFunction (change : Function → Function) : Value → Value
  | .function target => .function (change target)
  | other => other

def Frame.mapValues (change : Value → Value) (frame : Frame Value) : Frame Value :=
  ⟨frame.bindings.map fun binding => (binding.1, change binding.2)⟩

def Chain.mapValues (change : Value → Value) (chain : Chain Value) : Chain Value :=
  ⟨chain.inner.mapValues change, chain.outer.map (Frame.mapValues change)⟩

theorem Value.mapFunction_id : Value.mapFunction id = id := by
  funext value
  cases value <;> rfl

theorem Frame.mapValues_id (frame : Frame Value) : frame.mapValues id = frame := by
  simp [Frame.mapValues]

theorem Chain.mapValues_id (chain : Chain Value) : chain.mapValues id = chain := by
  have frames : Frame.mapValues id = id := funext Frame.mapValues_id
  simp [Chain.mapValues, frames]

theorem Chain.globals_mapValues (change : Value → Value) (chain : Chain Value) :
    (chain.mapValues change).globals = chain.globals.mapValues change := by
  simp [Chain.globals, Chain.mapValues, List.getLastD_eq_getLast?, List.getLast?_map]

/-- Tokens that say the same, wherever they stand. -/
structure Token.Same (token other : Token) : Prop where
  kind : token.kind = other.kind
  lexeme : token.lexeme = other.lexeme
  literal : token.literal = other.literal

/-- In what two runs are alike. -/
structure Likeness where
  /-- The second run may go deeper than the first. -/
  deeper : Prop
  /-- The trees of the second run lack the parentheses of the first. -/
  unwrapped : Prop
  /-- Code of the two runs belongs to the same batches, so that sites can be compared. -/
  sited : Prop
  /-- Tokens that stand for each other. -/
  token : Token → Token → Prop
  /-- Those of them at which a phrase in a batch's text may begin or end. -/
  edge : Origin → Token → Token → Prop
  /-- What the first machine has shown over and above the second. -/
  before : List Event
  same : ∀ {first second}, token first second → first.Same second
  token_of_edge : ∀ {origin first second}, edge origin first second → token first second
  deeper_of_unwrapped : unwrapped → deeper

namespace Likeness

variable (likeness : Likeness)

/-- The second depth will do wherever the first one does. -/
def Depths (depth more : Nat) : Prop := depth ≤ more ∧ (depth = more ∨ likeness.deeper)

inductive Exprs (origin : Origin) : Expr → Expr → Prop
  | literal {token other : Token} (edge : likeness.edge origin token other) : Exprs origin (.literal token) (.literal other)
  | symbol {name other : Token} (edge : likeness.edge origin name other) : Exprs origin (.symbol name) (.symbol other)
  | grouping {inner other : Expr} (kept : ¬likeness.unwrapped) (inside : Exprs origin inner other) :
    Exprs origin (.grouping inner) (.grouping other)
  | unwrapped {inner other : Expr} (lost : likeness.unwrapped) (inside : Exprs origin inner other) :
    Exprs origin (.grouping inner) other
  | binary {left right first second : Expr} {operator sign : Token} (before : Exprs origin left first)
      (between : likeness.token operator sign) (behind : Exprs origin right second) :
    Exprs origin (.binary left operator right) (.binary first sign second)
  | unary {operand other : Expr} {operator sign : Token} (edge : likeness.edge origin operator sign)
      (inside : Exprs origin operand other) : Exprs origin (.unary operator operand) (.unary sign other)
  | call {callee other : Expr} {arguments others : List Expr} {closing final : Token} (head : Exprs origin callee other)
      (count : arguments.length = others.length)
      (each : ∀ pair ∈ arguments.zip others, Exprs origin pair.1 pair.2) (edge : likeness.edge origin closing final) :
    Exprs origin (.call callee arguments closing) (.call other others final)

structure Declarations (origin : Origin) (declaration other : Declaration) : Prop where
  name : likeness.token declaration.name other.name
  parameters : List.Forall₂ likeness.token declaration.parameters other.parameters
  body : likeness.Exprs origin declaration.body other.body

inductive Statements (origin : Origin) : Statement → Statement → Prop
  | expression {expr other : Expr} (inside : likeness.Exprs origin expr other) :
    Statements origin (.expression expr) (.expression other)
  | print {keyword again : Token} {expr other : Expr} (word : likeness.token keyword again)
      (inside : likeness.Exprs origin expr other) : Statements origin (.print keyword expr) (.print again other)
  | assign {name again : Token} {value other : Expr} (word : likeness.token name again)
      (inside : likeness.Exprs origin value other) : Statements origin (.assign name value) (.assign again other)
  | declare {declaration other : Declaration} (inside : likeness.Declarations origin declaration other) :
    Statements origin (.declare declaration) (.declare other)

/-- Spans that begin at tokens that stand for each other, and end at such tokens. -/
def Spans (origin : Origin) (span other : Span) : Prop :=
  ∃ first start last stop, likeness.edge origin first start ∧ likeness.edge origin last stop ∧
    span = ⟨first.span.start, last.span.stop⟩ ∧ other = ⟨start.span.start, stop.span.stop⟩

structure Failures (origin : Origin) (failure other : Failure) : Prop where
  cause : failure.cause = other.cause
  hint : failure.hint = other.hint
  site : likeness.sited → Option.Rel (likeness.Spans origin) failure.site other.site

inductive Stops (origin : Origin) : Stop → Stop → Prop
  | failed {failure other : Failure} (like : likeness.Failures origin failure other) :
    Stops origin (.failed failure) (.failed other)
  | tooDeep : Stops origin .tooDeep .tooDeep
  | broken (fault : Fault) : Stops origin (.broken fault) (.broken fault)

inductive Results {α β : Type} (origin : Origin) (related : α → β → Prop) : Except Stop α → Except Stop β → Prop
  | ok {value : α} {other : β} (like : related value other) : Results origin related (.ok value) (.ok other)
  | error {stop other : Stop} (like : likeness.Stops origin stop other) :
    Results origin related (.error stop) (.error other)

/-- Declared functions are alike in the batch that declared them, too, as far as batches count. -/
inductive Functions : Function → Function → Prop
  | builtin (which : Builtin) : Functions (.builtin which) (.builtin which)
  | declared {declaration other : Declaration} {home away : Origin} (batch : likeness.sited → home = away)
      (like : likeness.Declarations home declaration other) :
    Functions (.declared declaration home) (.declared other away)

inductive Values : Value → Value → Prop
  | number (x : Float) : Values (.number x) (.number x)
  | list (items : List Float) : Values (.list items) (.list items)
  | function {function other : Function} (like : likeness.Functions function other) :
    Values (.function function) (.function other)
  | unbound (name : String) : Values (.unbound name) (.unbound name)

def Bindings (binding other : String × Value) : Prop := binding.1 = other.1 ∧ likeness.Values binding.2 other.2

def Frames (frame other : Frame Value) : Prop := List.Forall₂ likeness.Bindings frame.bindings other.bindings

structure Chains (chain other : Chain Value) : Prop where
  inner : likeness.Frames chain.inner other.inner
  outer : List.Forall₂ likeness.Frames chain.outer other.outer

variable {likeness : Likeness} {origin : Origin}

section Trees

theorem Exprs.start {expr other : Expr} (like : likeness.Exprs origin expr other) :
    ∃ first second, likeness.edge origin first second ∧ expr.start = first.span.start ∧
      other.start = second.span.start := by
  induction like with
  | literal edge | symbol edge | unary edge => exact ⟨_, _, edge, rfl, rfl⟩
  | grouping _ _ ih | unwrapped _ _ ih | binary _ _ _ ih | call _ _ _ _ ih => exact ih

theorem Exprs.stop {expr other : Expr} (like : likeness.Exprs origin expr other) :
    ∃ last second, likeness.edge origin last second ∧ expr.stop = last.span.stop ∧
      other.stop = second.span.stop := by
  induction like with
  | literal edge | symbol edge | call _ _ _ edge => exact ⟨_, _, edge, rfl, rfl⟩
  | grouping _ _ ih | unwrapped _ _ ih | unary _ _ ih | binary _ _ _ _ ih => exact ih

theorem Exprs.span {expr other : Expr} (like : likeness.Exprs origin expr other) :
    likeness.Spans origin expr.span other.span := by
  obtain ⟨first, start, before, here, there⟩ := like.start
  obtain ⟨last, stop, behind, final, end_⟩ := like.stop
  exact ⟨first, start, last, stop, before, behind, by rw [Expr.span, here, final], by rw [Expr.span, there, end_]⟩

theorem Declarations.parameterNames {declaration other : Declaration}
    (like : likeness.Declarations origin declaration other) : declaration.parameterNames = other.parameterNames := by
  have names : List.Forall₂ (fun first second => first.lexeme = second.lexeme) declaration.parameters other.parameters :=
    like.parameters.imp fun _ _ tokens => (likeness.same tokens).lexeme
  exact forall₂_iff_map_eq.mp names

theorem Functions.arity {function other : Function} (like : likeness.Functions function other) :
    function.arity = other.arity := by
  cases like with
  | builtin which => rfl
  | declared batch like => exact like.parameters.length_eq

theorem Functions.render {function other : Function} (like : likeness.Functions function other) :
    function.render = other.render := by
  cases like with
  | builtin which => rfl
  | @declared declaration other home away batch like =>
    have name : declaration.name.lexeme = other.name.lexeme := (likeness.same like.name).lexeme
    simp only [Function.render, Function.name, name]

theorem Values.render {value other : Value} (like : likeness.Values value other) : value.render = other.render := by
  cases like with
  | number | list | unbound => rfl
  | function like => exact like.render

theorem Values.ordinate {value other : Value} (like : likeness.Values value other) :
    value.ordinate = other.ordinate := by
  cases like <;> rfl

end Trees

section Scopes

theorem Frames.get? {frame other : Frame Value} (like : likeness.Frames frame other) (name : String) :
    Option.Rel likeness.Values (frame.get? name) (other.get? name) := by
  obtain ⟨bindings⟩ := frame
  obtain ⟨others⟩ := other
  change List.Forall₂ likeness.Bindings bindings others at like
  change Option.Rel likeness.Values (bindings.lookup name) (others.lookup name)
  induction like with
  | nil => exact .none
  | @cons binding opposite rest more head tail ih =>
    obtain ⟨key, value⟩ := binding
    obtain ⟨again, bound⟩ := opposite
    obtain ⟨rfl, values⟩ : key = again ∧ likeness.Values value bound := head
    rw [Frame.lookup_binding, Frame.lookup_binding]
    split
    · exact .some values
    · exact ih

theorem Frames.define {frame other : Frame Value} (like : likeness.Frames frame other) (name : String)
    {value bound : Value} (values : likeness.Values value bound) :
    likeness.Frames (frame.define name value) (other.define name bound) := by
  obtain ⟨bindings⟩ := frame
  obtain ⟨others⟩ := other
  change List.Forall₂ likeness.Bindings bindings others at like
  change List.Forall₂ likeness.Bindings (Frame.put name value bindings) (Frame.put name bound others)
  induction like with
  | nil => exact .cons ⟨rfl, values⟩ .nil
  | @cons binding opposite rest more head tail ih =>
    rw [Frame.put, Frame.put, head.1]
    split
    · exact .cons ⟨rfl, values⟩ tail
    · exact .cons head ih

theorem Frames.defineAll {bindings others : List (String × Value)}
    (each : List.Forall₂ likeness.Bindings bindings others) {frame other : Frame Value} (like : likeness.Frames frame other) :
    likeness.Frames (frame.defineAll bindings) (other.defineAll others) := by
  induction each generalizing frame other with
  | nil => exact like
  | @cons binding opposite rest more head tail ih =>
    obtain ⟨key, value⟩ := binding
    obtain ⟨again, bound⟩ := opposite
    obtain ⟨rfl, values⟩ : key = again ∧ likeness.Values value bound := head
    exact ih (like.define key values)

theorem zip_bindings (names : List String) {values others : List Value} (each : List.Forall₂ likeness.Values values others) :
    List.Forall₂ likeness.Bindings (names.zip values) (names.zip others) := by
  induction each generalizing names with
  | nil => simp
  | cons head tail ih =>
    cases names with
    | nil => exact .nil
    | cons name names => exact .cons ⟨rfl, head⟩ (ih names)

theorem search_like {frames others : List (Frame Value)} (each : List.Forall₂ likeness.Frames frames others) (name : String) :
    Option.Rel likeness.Values (Frame.search frames name) (Frame.search others name) := by
  unfold Frame.search
  induction each with
  | nil => exact .none
  | cons head tail ih =>
    rw [List.findSome?_cons, List.findSome?_cons]
    have found := head.get? name
    revert found
    generalize Frame.get? _ name = here, Frame.get? _ name = there
    intro found
    cases found with
    | none => exact ih
    | some values => exact .some values

theorem Chains.frames {chain other : Chain Value} (like : likeness.Chains chain other) :
    List.Forall₂ likeness.Frames chain.frames other.frames :=
  .cons like.inner like.outer

theorem Chains.get? {chain other : Chain Value} (like : likeness.Chains chain other) (name : String) :
    Option.Rel likeness.Values (chain.get? name) (other.get? name) :=
  search_like like.frames name

theorem Chains.define {chain other : Chain Value} (like : likeness.Chains chain other) (name : String)
    {value bound : Value} (values : likeness.Values value bound) :
    likeness.Chains (chain.define name value) (other.define name bound) :=
  ⟨like.inner.define name values, like.outer⟩

theorem Chains.leave {chain other : Chain Value} (like : likeness.Chains chain other) :
    likeness.Chains chain.leave other.leave := by
  obtain ⟨inner, outer⟩ := chain
  obtain ⟨innermost, around⟩ := other
  obtain ⟨first, rest⟩ := like
  cases rest with
  | nil => exact ⟨first, .nil⟩
  | cons head tail => exact ⟨head, tail⟩

end Scopes

section Images

variable {change alter : Function → Function}

theorem Values.map_eq (views : ∀ {function other}, likeness.Functions function other → change function = alter other)
    {value other : Value} (like : likeness.Values value other) : value.mapFunction change = other.mapFunction alter := by
  cases like with
  | number | list | unbound => rfl
  | function like => exact congrArg Value.function (views like)

theorem Frames.map_eq (views : ∀ {function other}, likeness.Functions function other → change function = alter other)
    {frame other : Frame Value} (like : likeness.Frames frame other) :
    frame.mapValues (Value.mapFunction change) = other.mapValues (Value.mapFunction alter) := by
  have pairs : List.Forall₂ (fun binding other => (binding.1, binding.2.mapFunction change) =
      (other.1, other.2.mapFunction alter)) frame.bindings other.bindings :=
    List.Forall₂.imp (fun _ _ both => by rw [both.1, both.2.map_eq views]) like
  exact congrArg Frame.mk (forall₂_iff_map_eq.mp pairs)

theorem Chains.map_eq (views : ∀ {function other}, likeness.Functions function other → change function = alter other)
    {chain other : Chain Value} (like : likeness.Chains chain other) :
    chain.mapValues (Value.mapFunction change) = other.mapValues (Value.mapFunction alter) := by
  have frames := forall₂_iff_map_eq.mp (like.outer.imp fun _ _ both => both.map_eq views)
  rw [Chain.mapValues, Chain.mapValues, like.inner.map_eq views, frames]

theorem Chains.globals_eq (views : ∀ {function other}, likeness.Functions function other → change function = alter other)
    {chain other : Chain Value} (like : likeness.Chains chain other) :
    chain.globals.mapValues (Value.mapFunction change) = other.globals.mapValues (Value.mapFunction alter) := by
  rw [← Chain.globals_mapValues, ← Chain.globals_mapValues, like.map_eq views]

theorem Values.image (each : ∀ function, likeness.Functions function (change function)) (value : Value) :
    likeness.Values value (value.mapFunction change) := by
  cases value with
  | number x => exact .number x
  | list items => exact .list items
  | function function => exact .function (each function)
  | unbound name => exact .unbound name

theorem Frames.image (each : ∀ function, likeness.Functions function (change function)) (frame : Frame Value) :
    likeness.Frames frame (frame.mapValues (Value.mapFunction change)) := by
  refine List.forall₂_map_right_iff.mpr (List.forall₂_same.mpr fun binding _ => ?_)
  exact ⟨rfl, Values.image each binding.2⟩

theorem Chains.image (each : ∀ function, likeness.Functions function (change function)) (chain : Chain Value) :
    likeness.Chains chain (chain.mapValues (Value.mapFunction change)) := by
  refine ⟨Frames.image each chain.inner, ?_⟩
  exact List.forall₂_map_right_iff.mpr (List.forall₂_same.mpr fun frame _ => Frames.image each frame)

end Images

section Weakening

/-- What is alike in one way is alike in another that asks for less. -/
structure Implies (likeness other : Likeness) : Prop where
  wrapping : likeness.unwrapped ↔ other.unwrapped
  sited : other.sited → likeness.sited
  token : ∀ {first second}, likeness.token first second → other.token first second
  edge : ∀ {origin first second}, likeness.edge origin first second → other.edge origin first second

variable {other : Likeness} (implies : likeness.Implies other)
include implies

theorem Exprs.weaken {expr again : Expr} (like : likeness.Exprs origin expr again) : other.Exprs origin expr again := by
  induction like with
  | literal edge => exact .literal (implies.edge edge)
  | symbol edge => exact .symbol (implies.edge edge)
  | grouping kept _ ih => exact .grouping (fun lost => kept (implies.wrapping.mpr lost)) ih
  | unwrapped lost _ ih => exact .unwrapped (implies.wrapping.mp lost) ih
  | binary _ between _ first second => exact .binary first (implies.token between) second
  | unary edge _ ih => exact .unary (implies.edge edge) ih
  | call _ count _ edge head each => exact .call head count each (implies.edge edge)

theorem Functions.weaken {function again : Function} (like : likeness.Functions function again) :
    other.Functions function again := by
  cases like with
  | builtin which => exact .builtin which
  | declared batch like =>
    exact .declared (fun sited => batch (implies.sited sited))
      ⟨implies.token like.name, like.parameters.imp fun _ _ => implies.token, like.body.weaken implies⟩

theorem Values.weaken {value again : Value} (like : likeness.Values value again) : other.Values value again := by
  cases like with
  | number x => exact .number x
  | list items => exact .list items
  | function functions => exact .function (functions.weaken implies)
  | unbound name => exact .unbound name

theorem Frames.weaken {frame again : Frame Value} (like : likeness.Frames frame again) : other.Frames frame again :=
  List.Forall₂.imp (fun _ _ both => ⟨both.1, both.2.weaken implies⟩) like

theorem Chains.weaken {chain again : Chain Value} (like : likeness.Chains chain again) : other.Chains chain again :=
  ⟨like.inner.weaken implies, like.outer.imp fun _ _ frames => frames.weaken implies⟩

end Weakening

section Verbatim

/-- Tokens stand for themselves alone. -/
def verbatim (deeper unwrapped sited : Prop) (before : List Event) (implies : unwrapped → deeper) : Likeness where
  deeper := deeper
  unwrapped := unwrapped
  sited := sited
  token := Eq
  edge _ := Eq
  before := before
  same := by
    rintro token _ rfl
    exact ⟨rfl, rfl, rfl⟩
  token_of_edge := id
  deeper_of_unwrapped := implies

variable {deeper unwrapped sited : Prop} {before : List Event} {implies : unwrapped → deeper}

theorem verbatim_eq {expr other : Expr}
    (like : (verbatim deeper unwrapped sited before implies).Exprs origin expr other) (kept : ¬unwrapped) : expr = other := by
  induction like with
  | literal edge => exact congrArg Expr.literal edge
  | symbol edge => exact congrArg Expr.symbol edge
  | grouping _ _ ih => exact congrArg Expr.grouping ih
  | unwrapped lost => exact absurd lost kept
  | binary _ between _ first second => rw [first, between, second]
  | unary edge _ ih => rw [edge, ih]
  | call _ count _ edge head each =>
    have arguments := List.forall₂_iff_zip.mpr ⟨count, fun member => each _ member⟩
    rw [List.forall₂_eq_eq_eq] at arguments
    rw [head, arguments, edge]

theorem verbatim_refl (kept : ¬unwrapped) (expr : Expr) :
    (verbatim deeper unwrapped sited before implies).Exprs origin expr expr := by
  induction expr using Expr.by_parts with
  | literal token => exact .literal rfl
  | symbol name => exact .symbol rfl
  | grouping inner ih => exact .grouping kept ih
  | binary left operator right first second => exact .binary first rfl second
  | unary operator operand ih => exact .unary rfl ih
  | call callee arguments closing head each =>
    have all := List.forall₂_same.mpr each
    exact .call head rfl (fun pair member => List.forall₂_zip all member) rfl

theorem verbatim_declaration {declaration other : Declaration}
    (like : (verbatim deeper unwrapped sited before implies).Declarations origin declaration other) (kept : ¬unwrapped) :
    declaration = other := by
  obtain ⟨name, parameters, body⟩ := declaration
  obtain ⟨again, names, inside⟩ := other
  obtain ⟨rfl, words, trees⟩ := like
  obtain rfl : body = inside := verbatim_eq trees kept
  obtain rfl : parameters = names := by rwa [← List.forall₂_eq_eq_eq]
  rfl

theorem verbatim_declaration_refl (kept : ¬unwrapped) (declaration : Declaration) :
    (verbatim deeper unwrapped sited before implies).Declarations origin declaration declaration :=
  ⟨rfl, List.forall₂_same.mpr fun _ _ => rfl, verbatim_refl kept declaration.body⟩

theorem verbatim_statements_refl (kept : ¬unwrapped) (statements : List Statement) :
    List.Forall₂ ((verbatim deeper unwrapped sited before implies).Statements origin) statements statements := by
  refine List.forall₂_same.mpr fun statement _ => ?_
  cases statement with
  | expression expr => exact .expression (verbatim_refl kept expr)
  | print keyword expr => exact .print rfl (verbatim_refl kept expr)
  | assign name value => exact .assign rfl (verbatim_refl kept value)
  | declare declaration => exact .declare (verbatim_declaration_refl kept declaration)

theorem verbatim_chain_refl (kept : ¬unwrapped) (chain : Chain Value) :
    (verbatim deeper unwrapped sited before implies).Chains chain chain := by
  have each : ∀ function, (verbatim deeper unwrapped sited before implies).Functions function (id function) := by
    intro function
    cases function with
    | builtin which => exact .builtin which
    | declared declaration home => exact .declared (fun _ => rfl) (verbatim_declaration_refl kept declaration)
  have image := Chains.image each chain
  rwa [Value.mapFunction_id, Chain.mapValues_id] at image

theorem verbatim_span {span other : Span}
    (like : (verbatim deeper unwrapped sited before implies).Spans origin span other) : span = other := by
  obtain ⟨first, _, last, _, rfl, rfl, rfl, rfl⟩ := like
  rfl

theorem verbatim_failure (compared : sited) {failure other : Failure}
    (like : (verbatim deeper unwrapped sited before implies).Failures origin failure other) : failure = other := by
  obtain ⟨cause, site, hint⟩ := failure
  obtain ⟨again, place, advice⟩ := other
  obtain rfl : cause = again := like.cause
  obtain rfl : hint = advice := like.hint
  cases like.site compared with
  | none => rfl
  | some spans => rw [verbatim_span spans]

theorem verbatim_function (kept : ¬unwrapped) (compared : sited) {function other : Function}
    (like : (verbatim deeper unwrapped sited before implies).Functions function other) : function = other := by
  cases like with
  | builtin which => rfl
  | declared batch like => rw [verbatim_declaration like kept, batch compared]

theorem verbatim_value (kept : ¬unwrapped) (compared : sited) {value other : Value}
    (like : (verbatim deeper unwrapped sited before implies).Values value other) : value = other := by
  cases like with
  | number | list | unbound => rfl
  | function like => rw [verbatim_function kept compared like]

theorem verbatim_chain (kept : ¬unwrapped) (compared : sited) {chain other : Chain Value}
    (like : (verbatim deeper unwrapped sited before implies).Chains chain other) : chain = other := by
  have same : chain.mapValues (Value.mapFunction id) = other.mapValues (Value.mapFunction id) :=
    like.map_eq (verbatim_function kept compared)
  rwa [Value.mapFunction_id, Chain.mapValues_id, Chain.mapValues_id] at same

end Verbatim

end Likeness

end Reckoner
