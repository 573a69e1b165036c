import Reckoner.Token.Scan

/-! What the lexicon finds at the front of a text. Its words are described here by the
characters they are made of and by those that may not follow them, without saying how
they are looked for. -/

namespace Reckoner.Proofs.TokenLexicon
open Token

/-- What may stand between tokens, in front of the given text: white space, and comments
that run up to the end of a line or of the text. -/
inductive Skips (behind : List Char) : List Char → Prop
  | nothing : Skips behind []
  | space {c : Char} {rest : List Char} (blank : isSpace c = true) (further : Skips behind rest) :
    Skips behind (c :: rest)
  | comment {body rest : List Char} (inLine : '\n' ∉ body)
      (ends : rest ++ behind = [] ∨ ∃ more, rest ++ behind = '\n' :: more) (further : Skips behind rest) :
    Skips behind ('/' :: '/' :: (body ++ rest))

def Digits (chars : List Char) : Prop := chars ≠ [] ∧ ∀ c ∈ chars, isDigit c = true

def Numeral (lexeme : List Char) : Prop :=
  ∃ whole fraction, lexeme = whole ++ fraction ∧ Digits whole ∧
    (fraction = [] ∨ ∃ digits, fraction = '.' :: digits ∧ Digits digits)

def Word (lexeme : List Char) : Prop :=
  ∃ first rest, lexeme = first :: rest ∧ isLetter first = true ∧ ∀ c ∈ rest, isWordCharacter c = true

/-- The kind that the characters of a lexeme ask for. -/
structure Classified (kind : Kind) (lexeme : List Char) : Prop where
  number : kind = .number ↔ Numeral lexeme
  print : kind = .print ↔ lexeme = "print".toList
  name : kind = .name ↔ Word lexeme ∧ lexeme ≠ "print".toList
  other : kind = .number ∨ kind = .print ∨ kind = .name ∨ ∃ sign, kind = .mark sign ∧ sign.glyph.toList = lexeme

/-- The characters behind a lexeme do not make it longer. -/
structure Maximal (kind : Kind) (lexeme behind : List Char) : Prop where
  digit : kind = .number → ∀ c, behind.head? = some c → isDigit c = false
  fraction : kind = .number → '.' ∉ lexeme → ∀ c rest, behind = '.' :: c :: rest → isDigit c = false
  word : kind = .name ∨ kind = .print → ∀ c, behind.head? = some c → isWordCharacter c = false
  comparison : kind = .mark .less ∨ kind = .mark .greater → behind.head? ≠ some '='
  slash : kind = .mark .slash → behind.head? ≠ some '/'

section Characters

theorem digit_not_letter {c : Char} (digit : isDigit c = true) : isLetter c = false := by
  have high : ∀ d : Char, c ≤ '9' → '9' < d → ¬ d ≤ c := fun d low above within =>
    absurd (Char.le_trans within low) (Char.not_le.mpr above)
  simp only [isDigit, Bool.and_eq_true, decide_eq_true_eq] at digit
  have upper := high 'A' digit.2 (by decide)
  have lower := high 'a' digit.2 (by decide)
  have score := high '_' digit.2 (by decide)
  have other : c ≠ '_' := fun same => score (same ▸ Char.le_refl _)
  simp [isLetter, upper, lower, other]

theorem glyph_head {sign : Mark} {c : Char} {rest : List Char} (spelled : sign.glyph.toList = c :: rest) :
    isDigit c = false ∧ isLetter c = false := by
  cases sign <;> cases spelled <;> decide

end Characters

section Kinds

variable {c : Char} {rest : List Char}

theorem Numeral.starts (numeral : Numeral (c :: rest)) : isDigit c = true := by
  obtain ⟨whole, fraction, same, ⟨filled, digits⟩, -⟩ := numeral
  obtain ⟨first, others, rfl⟩ := List.exists_cons_of_ne_nil filled
  obtain ⟨rfl, -⟩ := List.cons.inj same
  exact digits c List.mem_cons_self

theorem Word.starts (word : Word (c :: rest)) : isLetter c = true := by
  obtain ⟨first, others, same, letter, -⟩ := word
  obtain ⟨rfl, -⟩ := List.cons.inj same
  exact letter

theorem print_starts (print : c :: rest = "print".toList) : isLetter c = true := by
  obtain ⟨rfl, -⟩ := List.cons.inj print
  decide

theorem classified_number (numeral : Numeral (c :: rest)) : Classified .number (c :: rest) := by
  have unlettered : isLetter c ≠ true := by simp [digit_not_letter numeral.starts]
  refine ⟨iff_of_true rfl numeral, ?_, ?_, .inl rfl⟩
  · exact iff_of_false nofun fun print => unlettered (print_starts print)
  · exact iff_of_false nofun fun word => unlettered word.1.starts

theorem classified_word (word : Word (c :: rest)) : Classified (wordKind (c :: rest)) (c :: rest) := by
  have unnumbered : ¬ Numeral (c :: rest) := by
    intro numeral
    have letter := word.starts
    simp [digit_not_letter numeral.starts] at letter
  unfold wordKind
  split
  next print =>
    exact ⟨iff_of_false nofun unnumbered, iff_of_true rfl print, iff_of_false nofun fun other => other.2 print,
      .inr (.inl rfl)⟩
  next print =>
    exact ⟨iff_of_false nofun unnumbered, iff_of_false nofun print, iff_of_true rfl ⟨word, print⟩,
      .inr (.inr (.inl rfl))⟩

theorem classified_mark {sign : Mark} (spelled : sign.glyph.toList = c :: rest) :
    Classified (.mark sign) (c :: rest) := by
  obtain ⟨undigited, unlettered⟩ := glyph_head spelled
  refine ⟨?_, ?_, ?_, .inr (.inr (.inr ⟨sign, rfl, spelled⟩))⟩
  · exact iff_of_false nofun fun numeral => by simp [numeral.starts] at undigited
  · exact iff_of_false nofun fun print => by simp [print_starts print] at unlettered
  · exact iff_of_false nofun fun word => by simp [word.1.starts] at unlettered

theorem Numeral.inLine {lexeme : List Char} (numeral : Numeral lexeme) : '\n' ∉ lexeme := by
  have undigited : ∀ chars, Digits chars → '\n' ∉ chars := fun chars digits member => nomatch digits.2 _ member
  obtain ⟨whole, fraction, rfl, digits, rfl | ⟨others, rfl, further⟩⟩ := numeral
  · rw [List.append_nil]
    exact undigited whole digits
  · simpa using ⟨undigited whole digits, undigited others further⟩

theorem Classified.word {kind : Kind} (classified : Classified kind (c :: rest)) :
    kind = .name ∨ kind = .print ↔ isLetter c = true := by
  constructor
  · rintro (name | print)
    · exact (classified.name.mp name).1.starts
    · exact print_starts (classified.print.mp print)
  · intro letter
    rcases classified.other with number | print | name | ⟨sign, -, spelled⟩
    · have undigited := digit_not_letter (classified.number.mp number).starts
      simp [letter] at undigited
    · exact .inr print
    · exact .inl name
    · have unlettered := (glyph_head spelled).2
      simp [letter] at unlettered

end Kinds

section Skipped

theorem Skips.append {behind front back : List Char} (first : Skips (back ++ behind) front) (second : Skips behind back) :
    Skips behind (front ++ back) := by
  induction first with
  | nothing => exact second
  | space blank _ ih => exact .space blank ih
  | comment inLine ends _ ih =>
    rw [List.cons_append, List.cons_append, List.append_assoc]
    exact .comment inLine (by rwa [List.append_assoc]) ih

theorem Skips.starts {behind more : List Char} {c : Char} (skips : Skips behind (c :: more)) : isLetter c = false := by
  generalize same : c :: more = gap at skips
  cases skips with
  | nothing => cases same
  | @space blank rest space =>
    obtain ⟨rfl, -⟩ := List.cons.inj same
    simp only [isSpace, Bool.or_eq_true, beq_iff_eq] at space
    rcases space with ((rfl | rfl) | rfl) | rfl <;> decide
  | comment =>
    obtain ⟨rfl, -⟩ := List.cons.inj same
    decide

end Skipped

section Lexicon

variable {chars : List Char}

theorem take_while (wanted : Char → Bool) (chars : List Char) :
    chars.take (chars.takeWhile wanted).length = chars.takeWhile wanted :=
  (List.prefix_iff_eq_take.mp (List.takeWhile_prefix wanted)).symm

theorem drop_while (wanted : Char → Bool) (chars : List Char) :
    chars.drop (chars.takeWhile wanted).length = chars.dropWhile wanted := by
  have whole := List.takeWhile_append_dropWhile (p := wanted) (l := chars)
  rw [← take_while wanted chars] at whole
  exact List.append_cancel_left ((List.take_append_drop _ chars).trans whole.symm)

theorem taken_wanted {wanted : Char → Bool} : ∀ c ∈ chars.takeWhile wanted, wanted c = true :=
  List.all_eq_true.mp List.all_takeWhile

theorem head_behind {wanted : Char → Bool} {c : Char} (head : (chars.dropWhile wanted).head? = some c) :
    wanted c = false := by
  have refused := List.head?_dropWhile_not wanted chars
  rwa [head] at refused

theorem spaces_skip (behind : List Char) {blanks : List Char} (all : ∀ c ∈ blanks, isSpace c = true) :
    Skips behind blanks := by
  induction blanks with
  | nil => exact .nothing
  | cons c rest ih => exact .space (all c List.mem_cons_self) (ih fun d member => all d (List.mem_cons_of_mem _ member))

theorem comment_skips (comment : List Char) :
    Skips (comment.dropWhile (· != '\n')) ('/' :: '/' :: comment.takeWhile (· != '\n')) := by
  have inLine : '\n' ∉ comment.takeWhile (· != '\n') := fun member => by
    simpa using taken_wanted _ member
  have ends : comment.dropWhile (· != '\n') = [] ∨ ∃ more, comment.dropWhile (· != '\n') = '\n' :: more := by
    cases left : comment.dropWhile (· != '\n') with
    | nil => exact .inl rfl
    | cons c more =>
      have head : (comment.dropWhile (· != '\n')).head? = some c := by rw [left, List.head?_cons]
      exact .inr ⟨more, by simpa using head_behind head⟩
  have skips : Skips _ ('/' :: '/' :: (comment.takeWhile (· != '\n') ++ [])) := .comment inLine ends .nothing
  rwa [List.append_nil] at skips

/-- A fraction behind digits is taken whole or, if it has no digits, not at all. -/
theorem fraction_taken (chars : List Char) :
    (chars.take (fractionLength chars) = [] ∧ chars.drop (fractionLength chars) = chars ∧
      ∀ c rest, chars = '.' :: c :: rest → isDigit c = false) ∨
    ∃ digits, chars.take (fractionLength chars) = '.' :: digits ∧ Digits digits ∧
      ∀ c, (chars.drop (fractionLength chars)).head? = some c → isDigit c = false := by
  unfold fractionLength
  split
  next rest =>
    dsimp only
    split
    next none =>
      refine .inl ⟨rfl, rfl, ?_⟩
      rintro c others ⟨⟩
      cases digit : isDigit c with
      | false => rfl
      | true => simp [digit] at none
    next some =>
      refine .inr ⟨rest.takeWhile isDigit, ?_, ⟨?_, taken_wanted⟩, ?_⟩
      · rw [List.take_succ_cons, take_while]
      · exact fun empty => some (by rw [empty]; rfl)
      · rw [List.drop_succ_cons, drop_while]
        exact fun c => head_behind
  next plain => exact .inl ⟨rfl, rfl, fun c rest same => (plain (c :: rest) same).elim⟩

/-- What a piece at the front of a text is, and why it ends where it ends. -/
def Found (piece : Piece) (lexeme behind : List Char) : Prop :=
  match piece with
  | .skipped => Skips behind lexeme
  | .lexeme kind => Classified kind lexeme ∧ Maximal kind lexeme behind
  | .stray => True

theorem number_found {c : Char} (digit : isDigit c = true) (rest : List Char) :
    let further := (rest.takeWhile isDigit).length + fractionLength (rest.drop (rest.takeWhile isDigit).length)
    Found (.lexeme .number) (c :: rest.take further) (rest.drop further) := by
  intro further
  have front : rest.take further = rest.takeWhile isDigit ++
      (rest.dropWhile isDigit).take (fractionLength (rest.dropWhile isDigit)) := by
    rw [List.take_add, take_while, drop_while]
  have back : rest.drop further = (rest.dropWhile isDigit).drop (fractionLength (rest.dropWhile isDigit)) := by
    rw [← List.drop_drop, drop_while]
  have whole : Digits (c :: rest.takeWhile isDigit) :=
    ⟨List.cons_ne_nil _ _, List.forall_mem_cons.mpr ⟨digit, taken_wanted⟩⟩
  rw [front, back]
  rcases fraction_taken (rest.dropWhile isDigit) with ⟨none, all, pointless⟩ | ⟨digits, some, fraction, stops⟩
  · rw [none, all, List.append_nil]
    refine ⟨classified_number ⟨_, [], (List.append_nil _).symm, whole, .inl rfl⟩, ?_⟩
    exact ⟨fun _ _ => head_behind, fun _ _ => pointless, nofun, nofun, nofun⟩
  · rw [some]
    refine ⟨classified_number ⟨_, _, rfl, whole, .inr ⟨digits, rfl, fraction⟩⟩, ?_⟩
    refine ⟨fun _ => stops, fun _ unpointed => absurd ?_ unpointed, nofun, nofun, nofun⟩
    exact List.mem_cons_of_mem _ (List.mem_append_right _ List.mem_cons_self)

theorem word_found {c : Char} (letter : isLetter c = true) (rest : List Char) :
    Found (.lexeme (wordKind (c :: rest.takeWhile isWordCharacter))) (c :: rest.takeWhile isWordCharacter)
      (rest.dropWhile isWordCharacter) := by
  refine ⟨classified_word ⟨c, _, rfl, letter, taken_wanted⟩, ?_⟩
  unfold wordKind
  split
  · exact ⟨nofun, nofun, fun _ _ => head_behind, nofun, nofun⟩
  · exact ⟨nofun, nofun, fun _ _ => head_behind, nofun, nofun⟩

theorem mark_found {c : Char} {sign : Mark} {rest : List Char} (spelled : sign.glyph.toList = [c])
    (uncommented : c = '/' → rest.head? ≠ some '/') (unequal : c = '<' ∨ c = '>' → rest.head? ≠ some '=') :
    Found (.lexeme (.mark sign)) [c] rest := by
  refine ⟨classified_mark spelled, nofun, nofun, nofun, ?_, ?_⟩
  · intro kind
    apply unequal
    rcases kind with same | same
    all_goals
      cases same
      cases spelled
    · exact .inl rfl
    · exact .inr rfl
  · intro same
    cases same
    cases spelled
    exact uncommented rfl

/-- The lexicon takes the longest piece there is. -/
theorem lexicon_found (c : Char) (rest : List Char) :
    Found (lexicon c rest).1 (c :: rest.take (lexicon c rest).2) (rest.drop (lexicon c rest).2) := by
  unfold lexicon
  split
  next blank =>
    rw [take_while, drop_while]
    exact spaces_skip _ (List.forall_mem_cons.mpr ⟨blank, taken_wanted⟩)
  next =>
  split
  next digit => exact number_found digit rest
  next =>
  split
  next letter =>
    dsimp only
    rw [take_while, drop_while]
    exact word_found letter rest
  next =>
  split
  next comment _ _ _ =>
    dsimp only
    rw [List.take_succ_cons, List.drop_succ_cons, take_while, drop_while]
    exact comment_skips comment
  next => exact ⟨classified_mark rfl, nofun, nofun, nofun, nofun, nofun⟩
  next => exact ⟨classified_mark rfl, nofun, nofun, nofun, nofun, nofun⟩
  next uncommented less greater =>
    split
    next sign found =>
      have spelled : sign.glyph.toList = [c] := by simpa using List.find?_some found
      refine mark_found spelled ?_ ?_
      · intro slash ahead
        obtain ⟨comment, more⟩ := List.head?_eq_some_iff.mp ahead
        exact uncommented comment slash more
      · intro comparison ahead
        obtain ⟨others, more⟩ := List.head?_eq_some_iff.mp ahead
        exact comparison.elim (fun same => less others same more) (fun same => greater others same more)
    next => trivial

end Lexicon

end Reckoner.Proofs.TokenLexicon
