import Reckoner.Expr.Debug
import Reckoner.Proofs.EvaluationSafety
import Reckoner.Proofs.RunLikeness
import Reckoner.Proofs.SpanNesting

/-! The debugging form tells the structure of an expression. What it writes ends in one
way only: a leaf at its bracket, an operation at its parenthesis, and a call behind the
last of the groups that follow one another. So expressions that were read from texts have
the same form exactly if they agree in all but their places and the layout of their numbers. -/

namespace Reckoner

/-- What an expression says, apart from where it says it. Numbers are known by their spelling. -/
inductive Outline where
  | literal (spelling : Option String)
  | symbol (name : String)
  | grouping (inner : Outline)
  | binary (left : Outline) (operator : Kind) (right : Outline)
  | unary (operator : Kind) (operand : Outline)
  | call (callee : Outline) (arguments : List Outline)

namespace Expr

mutual

def outline : Expr → Outline
  | .literal token => .literal (token.literal.map Number.spell)
  | .symbol name => .symbol name.lexeme
  | .grouping inner => .grouping inner.outline
  | .binary left operator right => .binary left.outline operator.kind right.outline
  | .unary operator operand => .unary operator.kind operand.outline
  | .call callee arguments _ => .call callee.outline (outlineAll arguments)

def outlineAll : List Expr → List Outline
  | [] => []
  | expr :: rest => expr.outline :: outlineAll rest

end

theorem outlineAll_eq (exprs : List Expr) : outlineAll exprs = exprs.map outline := by
  induction exprs with
  | nil => rfl
  | cons expr rest ih => rw [outlineAll, ih, List.map_cons]

end Expr

namespace Outline

mutual

/-- The debugging form of all expressions with this outline. -/
def written : Outline → List Char
  | .literal spelling => '<' :: ("Literal ".toList ++ (spelling.getD "None").toList ++ ['>'])
  | .symbol name => '<' :: ("ref:".toList ++ name.toList ++ ['>'])
  | .grouping inner => '(' :: (inner.written ++ [')'])
  | .binary left operator right =>
    '(' :: (left.written ++ ' ' :: (operator.label.toList ++ ' ' :: (right.written ++ [')'])))
  | .unary operator operand => '(' :: (operator.label.toList ++ (operand.written ++ [')']))
  | .call callee arguments => callee.written ++ '(' :: (writtenAll arguments ++ [')'])

def writtenAll : List Outline → List Char
  | [] => []
  | first :: others => first.written ++ writtenFurther others

def writtenFurther : List Outline → List Char
  | [] => []
  | next :: others => ',' :: ' ' :: (next.written ++ writtenFurther others)

end

/-- A group of arguments as it stands behind a callee. -/
def group (arguments : List Outline) : List Char := '(' :: (writtenAll arguments ++ [')'])

section Behind

variable (rest : List Char)

theorem literal_written (spelling : String) :
    (literal (some spelling)).written ++ rest = '<' :: ("Literal ".toList ++ (spelling.toList ++ '>' :: rest)) := by
  simp [written]

theorem symbol_written (name : String) :
    (symbol name).written ++ rest = '<' :: ("ref:".toList ++ (name.toList ++ '>' :: rest)) := by
  simp [written]

theorem grouping_written (inner : Outline) :
    (grouping inner).written ++ rest = '(' :: (inner.written ++ ')' :: rest) := by
  simp [written]

theorem binary_written (left right : Outline) (operator : Kind) :
    (binary left operator right).written ++ rest =
      '(' :: (left.written ++ ' ' :: (operator.label.toList ++ ' ' :: (right.written ++ ')' :: rest))) := by
  simp [written]

theorem negation_written (operand : Outline) :
    (unary (.mark .minus) operand).written ++ rest = '(' :: '-' :: (operand.written ++ ')' :: rest) := by
  simp [written, Kind.label, Mark.glyph]

theorem call_written (callee : Outline) (arguments : List Outline) :
    (call callee arguments).written ++ rest = callee.written ++ (group arguments ++ rest) := by
  rw [written, group, List.append_assoc]

end Behind

end Outline

namespace Proofs.DebugForms
open Grammar GrammarPhrases TokenSpans EvaluationSafety Outline

section Forms

theorem list_written (arguments : List Expr)
    (each : ∀ argument ∈ arguments, argument.debug.toList = argument.outline.written) :
    (", ".intercalate (Expr.debugAll arguments)).toList = writtenAll (Expr.outlineAll arguments) := by
  induction arguments with
  | nil => rfl
  | cons argument others ih =>
    have first := each argument List.mem_cons_self
    have rest := ih fun other member => each other (List.mem_cons_of_mem _ member)
    cases others with
    | nil => simp [Expr.debugAll, Expr.outlineAll, writtenAll, writtenFurther, first]
    | cons next others =>
      rw [Expr.debugAll, Expr.debugAll, String.intercalate_cons_cons, ← Expr.debugAll]
      simp [first, rest, Expr.outlineAll, writtenAll, writtenFurther]

theorem debug_written (expr : Expr) : expr.debug.toList = expr.outline.written := by
  induction expr using Expr.by_parts with
  | literal token =>
    cases valued : token.literal <;> simp [Expr.debug, Expr.outline, written, valued]
  | symbol name => simp [Expr.debug, Expr.outline, written]
  | grouping inner ih => simp [Expr.debug, Expr.outline, written, ih]
  | binary left operator right first second => simp [Expr.debug, Expr.outline, written, first, second]
  | unary operator operand ih => simp [Expr.debug, Expr.outline, written, ih]
  | call callee arguments closing head each =>
    simp [Expr.debug, Expr.outline, written, head, list_written arguments each]

end Forms

section Spellings

theorem closing_not_digit (n : Nat) : '>' ∉ Nat.toDigits 10 n := by
  intro member
  have digit := Nat.isDigit_of_mem_toDigits (by decide) (by decide) member
  exact absurd digit (by decide)

theorem shortest_digits (parts : Number.Parts) : '>' ∉ parts.shortest.digits := by
  unfold Number.Parts.shortest
  cases found : (List.range 17).findSome? fun count => parts.decimal? (count + 1) with
  | none => simp
  | some decimal =>
    obtain ⟨count, -, tried⟩ := List.exists_of_findSome?_eq_some found
    obtain ⟨index, -, rfl⟩ := Option.map_eq_some_iff.mp tried
    intro member
    have given := (List.dropWhile_suffix _).subset (List.mem_reverse.mp member)
    exact closing_not_digit index (List.mem_reverse.mp given)

theorem write_characters {decimal : Number.Decimal} (layout : Number.Layout) (digits : '>' ∉ decimal.digits) :
    '>' ∉ decimal.write layout := by
  have front (places : Nat) : '>' ∉ decimal.digits.take places := fun member => digits (List.mem_of_mem_take member)
  have back (places : Nat) : '>' ∉ decimal.digits.drop places := fun member => digits (List.mem_of_mem_drop member)
  unfold Number.Decimal.write
  split
  · unfold Number.Decimal.positional
    split
    · simp [digits]
    · dsimp only
      split <;> simp [front, back]
  · unfold Number.Decimal.scientific
    dsimp only
    split <;> split <;> simp [digits, front, back, closing_not_digit, -List.drop_one]

/-- A spelled number does not close the leaf that it stands in. -/
theorem spell_characters (x : Float) : '>' ∉ (Number.spell x).toList := by
  unfold Number.spell
  split
  · split
    · simp
    · split <;> simp
  next parts _ =>
    have digits : '>' ∉ (if parts.mantissa = 0 then ⟨['0'], 0⟩ else parts.shortest : Number.Decimal).digits := by
      split
      · simp
      · exact shortest_digits parts
    rw [String.toList_append, String.toList_ofList, List.mem_append, not_or]
    refine ⟨?_, write_characters Number.layout digits⟩
    split <;> simp

end Spellings

section Endings

/-- What the debugging form writes without any doubt about where it ends. -/
inductive Legible : Outline → Prop
  | literal {spelling : String} (ends : '>' ∉ spelling.toList) : Legible (.literal (some spelling))
  | symbol {name : String} (ends : '>' ∉ name.toList) : Legible (.symbol name)
  | grouping {inner : Outline} (inside : Legible inner) : Legible (.grouping inner)
  | binary {left right : Outline} {operator : Kind} {operation : Operator} (first : Legible left)
      (means : operator.operator? = some operation) (second : Legible right) : Legible (.binary left operator right)
  | unary {operand : Outline} (inside : Legible operand) : Legible (.unary (.mark .minus) operand)
  | call {callee : Outline} {arguments : List Outline} (head : Legible callee)
      (each : ∀ argument ∈ arguments, Legible argument) : Legible (.call callee arguments)

/-- The second outline is the first with groups of arguments behind it, written as given. -/
inductive Extends (first : Outline) : Outline → List Char → Prop
  | same : Extends first first []
  | called {callee : Outline} {behind : List Char} (front : Extends first callee behind) (arguments : List Outline) :
      Extends first (.call callee arguments) (behind ++ group arguments)

/-- However a text goes on behind the form of an outline, other forms at its front only have
more or fewer groups of arguments. -/
def Told (first : Outline) : Prop :=
  ∀ second rest others, Legible second → first.written ++ rest = second.written ++ others →
    (∃ behind, Extends first second behind ∧ rest = behind ++ others) ∨
      ∃ behind, Extends second first behind ∧ others = behind ++ rest

variable {first second : Outline} {rest others behind : List Char}

theorem Extends.first_group (longer : Extends first second behind) :
    second = first ∧ behind = [] ∨
      ∃ arguments further, behind = group arguments ++ further ∧ Extends (.call first arguments) second further := by
  induction longer with
  | same => exact .inl ⟨rfl, rfl⟩
  | called front arguments ih =>
    right
    rcases ih with ⟨rfl, rfl⟩ | ⟨earlier, further, rfl, longer⟩
    · exact ⟨arguments, [], by simp, .same⟩
    · exact ⟨earlier, further ++ group arguments, by simp, .called longer arguments⟩

theorem Extends.legible (longer : Extends first second behind) (legible : Legible second) : Legible first := by
  induction longer with
  | same => exact legible
  | called _ _ ih =>
    cases legible with
    | call head each => exact ih head

/-- Where no group follows on either side, the forms are the same and so is what follows. -/
theorem Told.settled (told : Told first) (legible : Legible second)
    (same : first.written ++ rest = second.written ++ others) (ends : rest.head? ≠ some '(')
    (finishes : others.head? ≠ some '(') : first = second ∧ rest = others := by
  rcases told second rest others legible same with ⟨behind, longer, rfl⟩ | ⟨behind, longer, rfl⟩
  · rcases longer.first_group with ⟨rfl, rfl⟩ | ⟨arguments, further, rfl, -⟩
    · exact ⟨rfl, rfl⟩
    · exact absurd rfl ends
  · rcases longer.first_group with ⟨rfl, rfl⟩ | ⟨arguments, further, rfl, -⟩
    · exact ⟨rfl, rfl⟩
    · exact absurd rfl finishes

theorem written_starts : (outline : Outline) → ∃ c further, outline.written = c :: further ∧ (c = '<' ∨ c = '(')
  | .literal _ | .symbol _ => ⟨'<', _, by rw [written], .inl rfl⟩
  | .grouping _ | .binary .. | .unary .. => ⟨'(', _, by rw [written], .inr rfl⟩
  | .call callee arguments => by
    obtain ⟨c, further, starts, either⟩ := written_starts callee
    exact ⟨c, further ++ group arguments, by rw [written, starts, group, List.cons_append], either⟩

/-- Forms begin with brackets, so a sign or the end of a group is no form's first character. -/
theorem written_ne_cons {outline : Outline} {c : Char} (leaf : c ≠ '<') (operation : c ≠ '(') :
    outline.written ++ rest ≠ c :: others := by
  intro same
  obtain ⟨d, further, starts, either⟩ := written_starts outline
  rw [starts] at same
  obtain ⟨rfl, -⟩ := List.cons.inj same
  exact either.elim leaf operation

end Endings

section Groups

variable {rest others : List Char}

theorem further_head (arguments : List Outline) (rest : List Char) :
    (writtenFurther arguments ++ ')' :: rest).head? ≠ some '(' := by
  cases arguments <;> simp [writtenFurther]

theorem further_told {arguments given : List Outline} (told : ∀ argument ∈ arguments, Told argument)
    (legible : ∀ argument ∈ given, Legible argument)
    (same : writtenFurther arguments ++ ')' :: rest = writtenFurther given ++ ')' :: others) :
    arguments = given ∧ rest = others := by
  induction arguments generalizing given with
  | nil =>
    cases given with
    | nil => simpa [writtenFurther] using same
    | cons next given => simp [writtenFurther] at same
  | cons argument arguments ih =>
    cases given with
    | nil => simp [writtenFurther] at same
    | cons next given =>
      rw [List.forall_mem_cons] at told legible
      simp only [writtenFurther, List.cons_append, List.append_assoc, List.cons.injEq, true_and] at same
      obtain ⟨rfl, tail⟩ := told.1.settled legible.1 same (further_head _ _) (further_head _ _)
      obtain ⟨rfl, rfl⟩ := ih told.2 legible.2 tail
      exact ⟨rfl, rfl⟩

/-- A group of arguments ends where it is closed. -/
theorem group_told {arguments given : List Outline} (told : ∀ argument ∈ arguments, Told argument)
    (legible : ∀ argument ∈ given, Legible argument) (same : group arguments ++ rest = group given ++ others) :
    arguments = given ∧ rest = others := by
  simp only [group, List.cons_append, List.append_assoc, List.nil_append, List.cons.injEq, true_and] at same
  cases arguments with
  | nil =>
    cases given with
    | nil => simpa [writtenAll] using same
    | cons next given =>
      simp only [writtenAll, List.nil_append, List.append_assoc] at same
      exact absurd same.symm (written_ne_cons (by decide) (by decide))
  | cons argument arguments =>
    cases given with
    | nil =>
      simp only [writtenAll, List.nil_append, List.append_assoc] at same
      exact absurd same (written_ne_cons (by decide) (by decide))
    | cons next given =>
      rw [List.forall_mem_cons] at told legible
      simp only [writtenAll, List.append_assoc] at same
      obtain ⟨rfl, tail⟩ := told.1.settled legible.1 same (further_head _ _) (further_head _ _)
      obtain ⟨rfl, rfl⟩ := further_told told.2 legible.2 tail
      exact ⟨rfl, rfl⟩

end Groups

section Heads

variable {first second : Outline} {rest others : List Char}

theorem leaf_told {front back : List Char} (first : '>' ∉ front) (second : '>' ∉ back)
    (same : front ++ '>' :: rest = back ++ '>' :: others) : front = back ∧ rest = others := by
  induction front generalizing back with
  | nil =>
    cases back with
    | nil => simpa using same
    | cons c back =>
      obtain ⟨rfl, -⟩ := List.cons.inj same
      exact absurd List.mem_cons_self second
  | cons c front ih =>
    cases back with
    | nil =>
      obtain ⟨rfl, -⟩ := List.cons.inj same
      exact absurd List.mem_cons_self first
    | cons d back =>
      rw [List.mem_cons, not_or] at first second
      obtain ⟨rfl, tail⟩ := List.cons.inj same
      obtain ⟨rfl, rfl⟩ := ih first.2 second.2 tail
      exact ⟨rfl, rfl⟩

theorem ofLabel_glyph (sign : Mark) : Kind.ofLabel sign.glyph = .mark sign := by
  cases sign <;> rfl

theorem operator_mark {operator : Kind} {operation : Operator} (means : operator.operator? = some operation) :
    ∃ sign c, operator = .mark sign ∧ sign.glyph.toList = [c] := by
  cases operator with
  | mark sign => cases sign <;> first | exact ⟨_, _, rfl, rfl⟩ | cases means
  | number | name | print | finish | other => cases means

/-- Operators have different labels, none of which begins another. -/
theorem label_told {operator other : Kind} {operation meaning : Operator} (means : operator.operator? = some operation)
    (meant : other.operator? = some meaning) (same : operator.label.toList ++ rest = other.label.toList ++ others) :
    operator = other ∧ rest = others := by
  obtain ⟨sign, c, rfl, glyph⟩ := operator_mark means
  obtain ⟨mark, d, rfl, sketch⟩ := operator_mark meant
  simp only [Kind.label, glyph, sketch, List.cons_append, List.nil_append, List.cons.injEq] at same
  obtain ⟨rfl, rfl⟩ := same
  have equal : sign.glyph = mark.glyph := String.toList_inj.mp (glyph.trans sketch.symm)
  exact ⟨by rw [← ofLabel_glyph sign, equal, ofLabel_glyph], rfl⟩

/-- Of the outlines that are no calls, only this one stands at the front of a text that begins
with its form. -/
def ToldAmongHeads (first : Outline) : Prop :=
  ∀ second rest others, Legible second → (∀ callee arguments, second ≠ .call callee arguments) →
    first.written ++ rest = second.written ++ others → first = second ∧ rest = others

theorem told_of_heads (heads : ToldAmongHeads first) : Told first := by
  intro second rest others legible same
  have alone {second : Outline} {rest others : List Char} (equal : first = second ∧ rest = others) :
      ∃ behind, Extends first second behind ∧ rest = behind ++ others := by
    obtain ⟨rfl, rfl⟩ := equal
    exact ⟨[], .same, rfl⟩
  left
  -- A call begins with its callee, and so on up to an outline that is no call.
  induction legible generalizing rest others with
  | literal ends => exact alone (heads _ _ _ (.literal ends) nofun same)
  | symbol ends => exact alone (heads _ _ _ (.symbol ends) nofun same)
  | grouping inside => exact alone (heads _ _ _ (.grouping inside) nofun same)
  | binary left means right => exact alone (heads _ _ _ (.binary left means right) nofun same)
  | unary inside => exact alone (heads _ _ _ (.unary inside) nofun same)
  | @call callee arguments _ _ ih =>
    rw [call_written] at same
    obtain ⟨behind, longer, rfl⟩ := ih _ _ same
    exact ⟨behind ++ group arguments, .called longer arguments, (List.append_assoc ..).symm⟩

theorem literal_heads {spelling : String} (ends : '>' ∉ spelling.toList) :
    ToldAmongHeads (.literal (some spelling)) := by
  intro second rest others legible head same
  rw [literal_written] at same
  cases legible with
  | @literal other finishes =>
    rw [literal_written] at same
    have leaves := List.append_cancel_left (List.cons.inj same).2
    obtain ⟨spelled, rfl⟩ := leaf_told ends finishes leaves
    exact ⟨by rw [String.toList_inj.mp spelled], rfl⟩
  | symbol => simp [symbol_written] at same
  | grouping | binary | unary => simp [written] at same
  | call => exact absurd rfl (head _ _)

theorem symbol_heads {name : String} (ends : '>' ∉ name.toList) : ToldAmongHeads (.symbol name) := by
  intro second rest others legible head same
  rw [symbol_written] at same
  cases legible with
  | @symbol other finishes =>
    rw [symbol_written] at same
    have leaves := List.append_cancel_left (List.cons.inj same).2
    obtain ⟨spelled, rfl⟩ := leaf_told ends finishes leaves
    exact ⟨by rw [String.toList_inj.mp spelled], rfl⟩
  | literal => simp [literal_written] at same
  | grouping | binary | unary => simp [written] at same
  | call => exact absurd rfl (head _ _)

theorem grouping_heads {inner : Outline} (told : Told inner) : ToldAmongHeads (.grouping inner) := by
  intro second rest others legible head same
  rw [grouping_written] at same
  cases legible with
  | grouping inside =>
    rw [grouping_written] at same
    obtain ⟨rfl, tail⟩ := told.settled inside (List.cons.inj same).2 (by simp) (by simp)
    exact ⟨rfl, (List.cons.inj tail).2⟩
  | binary left means right =>
    rw [binary_written] at same
    obtain ⟨rfl, tail⟩ := told.settled left (List.cons.inj same).2 (by simp) (by simp)
    simp at tail
  | unary inside =>
    rw [negation_written] at same
    exact absurd (List.cons.inj same).2 (written_ne_cons (by decide) (by decide))
  | literal | symbol => simp [written] at same
  | call => exact absurd rfl (head _ _)

theorem binary_heads {left right : Outline} {operator : Kind} {operation : Operator} (front : Told left)
    (means : operator.operator? = some operation) (back : Told right) :
    ToldAmongHeads (.binary left operator right) := by
  intro second rest others legible head same
  rw [binary_written] at same
  cases legible with
  | grouping inside =>
    rw [grouping_written] at same
    obtain ⟨rfl, tail⟩ := front.settled inside (List.cons.inj same).2 (by simp) (by simp)
    simp at tail
  | binary first meant last =>
    rw [binary_written] at same
    obtain ⟨rfl, tail⟩ := front.settled first (List.cons.inj same).2 (by simp) (by simp)
    obtain ⟨rfl, further⟩ := label_told means meant (List.cons.inj tail).2
    obtain ⟨rfl, ended⟩ := back.settled last (List.cons.inj further).2 (by simp) (by simp)
    exact ⟨rfl, (List.cons.inj ended).2⟩
  | unary inside =>
    rw [negation_written] at same
    exact absurd (List.cons.inj same).2 (written_ne_cons (by decide) (by decide))
  | literal | symbol => simp [written] at same
  | call => exact absurd rfl (head _ _)

theorem negation_heads {operand : Outline} (told : Told operand) : ToldAmongHeads (.unary (.mark .minus) operand) := by
  intro second rest others legible head same
  rw [negation_written] at same
  cases legible with
  | grouping inside =>
    rw [grouping_written] at same
    exact absurd (List.cons.inj same).2.symm (written_ne_cons (by decide) (by decide))
  | binary left means right =>
    rw [binary_written] at same
    exact absurd (List.cons.inj same).2.symm (written_ne_cons (by decide) (by decide))
  | unary inside =>
    rw [negation_written] at same
    obtain ⟨rfl, tail⟩ := told.settled inside (List.cons.inj (List.cons.inj same).2).2 (by simp) (by simp)
    exact ⟨rfl, (List.cons.inj tail).2⟩
  | literal | symbol => simp [written] at same
  | call => exact absurd rfl (head _ _)

theorem call_told {callee : Outline} {arguments : List Outline} (head : Told callee)
    (each : ∀ argument ∈ arguments, Told argument) : Told (.call callee arguments) := by
  intro second rest others legible same
  rw [call_written] at same
  -- The other form ends with the callee or before it, or else its next group is this one.
  rcases head second _ _ legible same with ⟨behind, longer, reached⟩ | ⟨behind, longer, rfl⟩
  · rcases longer.first_group with ⟨rfl, rfl⟩ | ⟨given, further, rfl, called⟩
    · exact .inr ⟨group arguments, .called .same arguments, reached.symm⟩
    · rw [List.append_assoc] at reached
      have among : ∀ argument ∈ given, Legible argument := by
        cases called.legible legible with
        | call _ among => exact among
      obtain ⟨rfl, rfl⟩ := group_told each among reached
      exact .inl ⟨further, called, rfl⟩
  · exact .inr ⟨behind ++ group arguments, .called longer arguments, (List.append_assoc ..).symm⟩

theorem legible_told (legible : Legible first) : Told first := by
  induction legible with
  | literal ends => exact told_of_heads (literal_heads ends)
  | symbol ends => exact told_of_heads (symbol_heads ends)
  | grouping _ ih => exact told_of_heads (grouping_heads ih)
  | binary _ means _ left right => exact told_of_heads (binary_heads left means right)
  | unary _ ih => exact told_of_heads (negation_heads ih)
  | call _ _ head each => exact call_told head each

/-- Legible outlines that are written in the same way are the same. -/
theorem written_unique (one : Legible first) (other : Legible second) (same : first.written = second.written) :
    first = second := by
  have told := (legible_told one).settled other (congrArg (· ++ []) same) (by simp) (by simp)
  exact told.1

end Heads

section Texts

variable {depth limit : Nat} {text other : List Char} {tokens : List Token} {statements others : List Statement}

/-- Numbers have a value, and no name closes the leaf that it stands in. -/
structure Presentable (token : Token) : Prop where
  valued : Valued token
  named : token.kind = .name → '>' ∉ token.lexeme.toList

theorem word_characters {lexeme : List Char} (word : TokenLexicon.Word lexeme) : '>' ∉ lexeme := by
  obtain ⟨first, rest, rfl, letter, letters⟩ := word
  rintro (_ | ⟨_, later⟩)
  · exact absurd letter (by decide)
  · exact absurd (letters '>' later) (by decide)

theorem scan_presentable (scanned : Token.scan text = .ok tokens) : ∀ token ∈ tokens, Presentable token := by
  intro token member
  refine ⟨scan_valued scanned token member, fun name => ?_⟩
  obtain ⟨body, strung, rfl⟩ := TokenLexemes.scan_strung scanned
  rcases List.mem_append.mp member with early | last
  · rcases TokenLexemes.mem_implyProducts early with given | ⟨_, _, _, rfl⟩
    · exact word_characters ((strung.written given).classified.name.mp name).1
    · cases name
  · rw [List.mem_singleton.mp last] at name
    cases name

theorem literal_legible {token : Token} (presentable : Presentable token) (kind : token.kind = .number) :
    Legible (Expr.literal token).outline := by
  obtain ⟨x, value⟩ := presentable.valued kind
  rw [Expr.outline, value]
  exact .literal (spell_characters x)

theorem spells_legible {phrase : Phrase} {expr : Expr} (spelled : Spells phrase tokens expr)
    (all : ∀ token ∈ tokens, Presentable token) : Legible expr.outline := by
  induction spelled with
  | sum _ sign _ first second =>
    obtain ⟨operation, means⟩ := sum_operator sign
    exact .binary (first fun token member => all token (by simp [member])) means
      (second fun token member => all token (by simp [member]))
  | product _ sign _ first second =>
    obtain ⟨operation, means⟩ := product_operator sign
    exact .binary (first fun token member => all token (by simp [member])) means
      (second fun token member => all token (by simp [member]))
  | exponent _ sign _ first second =>
    exact .binary (first fun token member => all token (by simp [member])) (by rw [sign]; rfl)
      (second fun token member => all token (by simp [member]))
  | expression _ ih | factor _ ih | power _ ih | unary _ ih | call _ ih => exact ih all
  | negation sign _ ih =>
    rw [Expr.outline, sign]
    exact .unary (ih fun token member => all token (by simp [member]))
  | scaled kind _ _ _ ih =>
    exact .binary (literal_legible (all _ List.mem_cons_self) kind) rfl
      (ih fun token member => all token (by simp [member]))
  | invoked _ _ _ _ ih => exact .call (ih fun token member => all token (by simp [member])) nofun
  | @applied front inside opening closing callee argument others _ _ _ _ _ _ _ head first rest =>
    refine .call (head fun token member => all token (by simp [member])) ?_
    rw [Expr.outlineAll_eq, List.forall_mem_map]
    intro item member
    rcases List.mem_cons.mp member with rfl | later
    · exact first fun token given => all token (by simp [given])
    · obtain ⟨further, given, rfl⟩ := List.mem_map.mp later
      refine rest further given fun token present => all token ?_
      have listed : token ∈ furtherTokens others := (further_sublist given).subset present
      simp [listed]
  | literal kind => exact literal_legible (all _ List.mem_cons_self) kind
  | symbol kind => exact .symbol ((all _ List.mem_cons_self).named kind)
  | grouping _ _ _ ih => exact .grouping (ih fun token member => all token (by simp [member]))

/-- Everything that is read from a text has a legible outline. -/
theorem ofText_legible (read : ofText depth text = .ok statements) {statement : Statement}
    (member : statement ∈ statements) {node : Expr} (inside : node ∈ statement.expr.nodes) : Legible node.outline := by
  obtain ⟨tokens, body, scanned, among, spelled, -, -⟩ := FailurePlaces.ofText_spelled read
  obtain ⟨part, fewer, spells⟩ := FailurePlaces.program_part spelled member
  obtain ⟨rest, least, expression⟩ := FailurePlaces.statement_part spells
  obtain ⟨phrase, own, narrow, written⟩ := SpanNesting.spells_parted expression node inside
  have sublist := ((narrow.trans least).trans fewer).trans among
  exact spells_legible written fun token given => scan_presentable scanned token (sublist.subset given)

end Texts

/-- Expressions that are read from texts have the same debugging form exactly if they have
the same outline. -/
theorem debug_tells_outline {depth limit : Nat} {text other : List Char} {statements others : List Statement}
    (read : ofText depth text = .ok statements) (reread : ofText limit other = .ok others)
    {statement twin : Statement} (member : statement ∈ statements) (listed : twin ∈ others) {node image : Expr}
    (inside : node ∈ statement.expr.nodes) (within : image ∈ twin.expr.nodes) :
    node.debug = image.debug ↔ node.outline = image.outline := by
  rw [← String.toList_inj, debug_written, debug_written]
  constructor
  · exact written_unique (ofText_legible read member inside) (ofText_legible reread listed within)
  · exact congrArg written

/-- Layout and spelling do not show, but the parentheses around the callee do. -/
theorem debug_tells_outline_respelled :
    ∃ plain spaced grouped, ofText 20 "2(x)(-y, 1)".toList = .ok [.expression plain] ∧
      ofText 20 "print 2.00 (x) // twice\n(- y, 01.0)".toList = .ok [spaced] ∧
      ofText 20 "(2x)(-y, 1)".toList = .ok [.expression grouped] ∧
      plain.debug = "(<Literal 2.0> * <ref:x>)((-<ref:y>), <Literal 1.0>)" ∧
      plain.outline = spaced.expr.outline ∧ plain.outline ≠ grouped.outline := by
  have read : ofText 20 "2(x)(-y, 1)".toList = .ok [.expression _] := rfl
  have reread : ofText 20 "print 2.00 (x) // twice\n(- y, 01.0)".toList = .ok [_] := rfl
  have regrouped : ofText 20 "(2x)(-y, 1)".toList = .ok [.expression _] := rfl
  refine ⟨_, _, _, read, reread, regrouped, by decide +kernel, ?_, ?_⟩
  · have told := debug_tells_outline read reread List.mem_cons_self List.mem_cons_self (self_mem_nodes _)
      (self_mem_nodes _)
    exact told.mp (by decide +kernel)
  · have told := debug_tells_outline read regrouped List.mem_cons_self List.mem_cons_self (self_mem_nodes _)
      (self_mem_nodes _)
    exact mt told.mpr (by decide +kernel)

end Proofs.DebugForms

end Reckoner
