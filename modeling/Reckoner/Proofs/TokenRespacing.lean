import Reckoner.Proofs.RunLikeness
import Reckoner.Proofs.TokenLexemes

/-! Scanning again what was scanned. The tokens of a text can be found from its characters
in one way only, so a text put together from lexemes and the blanks between them falls
apart into the same lexemes. Once blanks stand everywhere, no product is left to imply. -/

namespace Reckoner.Proofs.TokenRespacing
open Token TokenSpans TokenLexicon TokenLexemes

section Lexicon

variable {c : Char} {tail behind : List Char}

/-- White space goes on with no lexeme. -/
theorem space_alone (blank : isSpace c = true) :
    isDigit c = false ∧ isLetter c = false ∧ isWordCharacter c = false ∧ c ≠ '.' ∧ c ≠ '=' ∧ c ≠ '/' := by
  simp only [isSpace, Bool.or_eq_true, beq_iff_eq] at blank
  rcases blank with ((rfl | rfl) | rfl) | rfl <;> decide

theorem digit_not_space (digit : isDigit c = true) : isSpace c ≠ true :=
  fun blank => by simp [(space_alone blank).1] at digit

theorem letter_not_space (letter : isLetter c = true) : isSpace c ≠ true :=
  fun blank => by simp [(space_alone blank).2.1] at letter

theorem takeWhile_stops {wanted : Char → Bool} {front : List Char} (all : ∀ c ∈ front, wanted c = true)
    (stops : ∀ c, behind.head? = some c → wanted c = false) : (front ++ behind).takeWhile wanted = front := by
  rw [List.takeWhile_append_of_pos all]
  cases behind with
  | nil => simp
  | cons c rest => simp [stops c rfl]

theorem fractionLength_none (stops : ∀ c rest, behind = '.' :: c :: rest → isDigit c = false) :
    fractionLength behind = 0 := by
  unfold fractionLength
  split
  next rest =>
    cases rest with
    | nil => rfl
    | cons c more => simp [stops c more rfl]
  next => rfl

theorem fractionLength_some {digits : List Char} (fraction : Digits digits)
    (stops : ∀ c, behind.head? = some c → isDigit c = false) :
    fractionLength ('.' :: (digits ++ behind)) = digits.length + 1 := by
  have filled : digits.length ≠ 0 := fun none => fraction.1 (List.length_eq_zero_iff.mp none)
  simp [fractionLength, takeWhile_stops fraction.2 stops, filled]

theorem lexicon_digit (digit : isDigit c = true) (rest : List Char) :
    lexicon c rest =
      (.lexeme .number, (rest.takeWhile isDigit).length + fractionLength (rest.dropWhile isDigit)) := by
  unfold lexicon
  rw [if_neg (digit_not_space digit), if_pos digit, ← drop_while]

theorem lexicon_number (numeral : Numeral (c :: tail)) (maximal : Maximal .number (c :: tail) behind) :
    lexicon c (tail ++ behind) = (.lexeme .number, tail.length) := by
  rw [lexicon_digit numeral.starts, ← drop_while]
  obtain ⟨whole, fraction, same, ⟨filled, digits⟩, shape⟩ := numeral
  obtain ⟨first, others, rfl⟩ := List.exists_cons_of_ne_nil filled
  rw [List.cons_append] at same
  obtain ⟨rfl, rfl⟩ := List.cons.inj same
  have inner : ∀ d ∈ others, isDigit d = true := fun d member => digits d (List.mem_cons_of_mem _ member)
  rcases shape with rfl | ⟨fraction, rfl, further⟩
  · rw [List.append_nil] at maximal ⊢
    have pointless : '.' ∉ c :: others := fun member => nomatch digits _ member
    have whole := takeWhile_stops inner (maximal.digit rfl)
    rw [whole, List.drop_left, fractionLength_none (maximal.fraction rfl pointless)]
    rfl
  · have whole : (others ++ '.' :: (fraction ++ behind)).takeWhile isDigit = others :=
      takeWhile_stops inner (by rintro c ⟨⟩; rfl)
    rw [List.append_assoc, List.cons_append, whole, List.drop_left, fractionLength_some further (maximal.digit rfl)]
    simp

theorem lexicon_word {kind : Kind} (word : Word (c :: tail)) (maximal : Maximal kind (c :: tail) behind)
    (spoken : kind = .name ∨ kind = .print) :
    lexicon c (tail ++ behind) = (.lexeme (wordKind (c :: tail)), tail.length) := by
  have letter := word.starts
  obtain ⟨first, others, same, -, inner⟩ := word
  obtain ⟨rfl, rfl⟩ := List.cons.inj same
  have undigited : isDigit c ≠ true := fun digit => by simp [digit_not_letter digit] at letter
  unfold lexicon
  rw [if_neg (letter_not_space letter), if_neg undigited, if_pos letter,
    takeWhile_stops inner (maximal.word spoken)]

/-- A mark of one character, if the next one makes no more of it. -/
theorem lexicon_lone {sign : Mark} (spelled : sign.glyph.toList = [c]) (maximal : Maximal (.mark sign) [c] behind) :
    lexicon c behind = (.lexeme (.mark sign), 0) := by
  have known : markOf? c = some sign := by cases sign <;> cases spelled <;> rfl
  have unspaced : isSpace c = false := by cases sign <;> cases spelled <;> rfl
  obtain ⟨undigited, unlettered⟩ := glyph_head spelled
  unfold lexicon
  rw [if_neg (by simp [unspaced]), if_neg (by simp [undigited]), if_neg (by simp [unlettered])]
  split
  next =>
    cases sign <;> cases spelled
    exact absurd rfl (maximal.slash rfl)
  next =>
    cases sign <;> cases spelled
    exact absurd rfl (maximal.comparison (.inl rfl))
  next =>
    cases sign <;> cases spelled
    exact absurd rfl (maximal.comparison (.inr rfl))
  next => rw [known]

theorem lexicon_mark {sign : Mark} (spelled : sign.glyph.toList = c :: tail)
    (maximal : Maximal (.mark sign) (c :: tail) behind) :
    lexicon c (tail ++ behind) = (.lexeme (.mark sign), tail.length) := by
  cases tail with
  | nil => exact lexicon_lone spelled maximal
  | cons d rest => cases sign <;> cases spelled <;> rfl

/-- What a lexeme is can be told from its characters and from what stands behind it. -/
theorem lexicon_lexeme {kind : Kind} (classified : Classified kind (c :: tail))
    (maximal : Maximal kind (c :: tail) behind) :
    lexicon c (tail ++ behind) = (.lexeme kind, tail.length) := by
  rcases classified.other with rfl | rfl | rfl | ⟨sign, rfl, spelled⟩
  · exact lexicon_number (classified.number.mp rfl) maximal
  · have print := classified.print.mp rfl
    have rest : "rint".toList.all isWordCharacter = true := by decide
    have word : Word (c :: tail) := print ▸ ⟨'p', "rint".toList, rfl, rfl, List.all_eq_true.mp rest⟩
    rw [lexicon_word word maximal (.inr rfl), wordKind, if_pos print]
  · obtain ⟨word, other⟩ := classified.name.mp rfl
    rw [lexicon_word word maximal (.inl rfl), wordKind, if_neg other]
  · exact lexicon_mark spelled maximal

end Lexicon

section Scanning

variable {c : Char} {front passed ahead behind : List Char}

theorem lineFeeds_cons (c : Char) (chars : List Char) : lineFeeds (c :: chars) = lineStep c + lineFeeds chars := by
  rw [lineStep_eq, ← lineFeeds_append]
  rfl

theorem written_passed (offset line : Nat) (front behind : List Char) :
    written front.length offset line (front ++ behind) =
      written 0 (offset + front.length) (line + lineFeeds front) behind := by
  induction front generalizing offset line with
  | nil => rfl
  | cons c front ih =>
    rw [List.length_cons, List.cons_append, written_taken, ih, lineFeeds_cons, Nat.add_right_comm offset 1,
      Nat.add_assoc line, Nat.add_assoc offset]

theorem written_skipped (piece : lexicon c (front ++ behind) = (.skipped, front.length)) (offset line : Nat) :
    written 0 offset line (c :: (front ++ behind)) =
      written 0 (offset + (front.length + 1)) (line + lineFeeds (c :: front)) behind := by
  simp only [written, piece]
  rw [written_passed, lineFeeds_cons, Nat.add_right_comm offset 1, Nat.add_assoc line, Nat.add_assoc offset]

/-- White space is skipped all at once, which comes to the same as one by one. -/
theorem written_space (blank : isSpace c = true) (offset line : Nat) (rest : List Char) :
    written 0 offset line (c :: rest) = written 0 (offset + 1) (line + lineStep c) rest := by
  have skipped (d : Char) (more : List Char) (blank : isSpace d = true) :
      lexicon d more = (.skipped, (more.takeWhile isSpace).length) := by
    unfold lexicon
    rw [if_pos blank]
  simp only [written, skipped c rest blank]
  cases rest with
  | nil => rfl
  | cons d more =>
    by_cases also : isSpace d = true
    · simp only [List.takeWhile_cons_of_pos also, List.length_cons, written, skipped d more also]
    · rw [List.takeWhile_cons_of_neg also, List.length_nil]

theorem lexicon_comment (inLine : '\n' ∉ front) (ends : behind = [] ∨ ∃ more, behind = '\n' :: more) :
    lexicon '/' ('/' :: front ++ behind) = (.skipped, ('/' :: front).length) := by
  have whole : (front ++ behind).takeWhile (· != '\n') = front := by
    refine takeWhile_stops (fun c member => ?_) fun c next => ?_
    · simpa using fun same : c = '\n' => inLine (same ▸ member)
    · rcases ends with rfl | ⟨more, rfl⟩ <;> cases next
      rfl
  exact congrArg (fun chars => (Piece.skipped, List.length chars + 1)) whole

theorem written_skips {gap : List Char} (skips : Skips behind gap) (offset line : Nat) :
    written 0 offset line (gap ++ behind) = written 0 (offset + gap.length) (line + lineFeeds gap) behind := by
  induction skips generalizing offset line with
  | nothing => rfl
  | @space c rest blank further ih =>
    rw [List.cons_append, written_space blank, ih, List.length_cons, lineFeeds_cons, Nat.add_right_comm offset 1,
      Nat.add_assoc line, Nat.add_assoc offset]
  | @comment body rest inLine ends further ih =>
    have gap : '/' :: '/' :: (body ++ rest) = '/' :: '/' :: body ++ rest := rfl
    have skipped := written_skipped (lexicon_comment inLine ends) offset line
    rw [gap, List.append_assoc, List.length_append, lineFeeds_append, ← Nat.add_assoc, ← Nat.add_assoc, ← ih]
    exact skipped

theorem written_lexeme {kind : Kind} (piece : lexicon c (front ++ behind) = (.lexeme kind, front.length))
    (offset line : Nat) {others : List Token}
    (rest : written 0 (offset + (front.length + 1)) (line + lineFeeds (c :: front)) behind = .ok others) :
    written 0 offset line (c :: (front ++ behind)) =
      .ok (⟨kind, String.ofList (c :: front), literalOf kind (c :: front), line,
        ⟨offset, (offset + (front.length + 1) : Nat)⟩⟩ :: others) := by
  rw [lineFeeds_cons, Nat.add_comm front.length, ← Nat.add_assoc, ← Nat.add_assoc, ← written_passed] at rest
  simp only [written, piece, rest, List.take_left, Nat.add_comm front.length, Nat.add_assoc]

/-- Tokens that are strung together in a text are the tokens that scanning finds. -/
theorem written_of_strung {tokens : List Token} (strung : Strung passed ahead tokens) :
    written 0 passed.length (1 + lineFeeds passed) ahead = .ok tokens := by
  induction strung with
  | @done passed gap skips =>
    have skipped := written_skips skips passed.length (1 + lineFeeds passed)
    rw [List.append_nil] at skipped
    rw [skipped]
    rfl
  | @token passed gap lexeme behind token rest skips placed further ih =>
    obtain ⟨c, front, rfl⟩ := List.exists_cons_of_ne_nil placed.filled
    have same : token = ⟨token.kind, String.ofList (c :: front), literalOf token.kind (c :: front),
        1 + lineFeeds (passed ++ gap), ⟨(passed ++ gap).length, ((passed ++ gap).length + (front.length + 1) : Nat)⟩⟩ := by
      rw [← placed.spelled, ← placed.literal, ← placed.line, ← List.length_cons, ← placed.span]
    rw [written_skips skips, Nat.add_assoc 1, ← lineFeeds_append, ← List.length_append, same]
    refine written_lexeme (lexicon_lexeme placed.classified placed.maximal) _ _ ?_
    rw [List.length_append, lineFeeds_append, ← Nat.add_assoc] at ih
    exact ih

end Scanning

section Respacing

/-- Any mixture of white space and of comments with the line breaks that close them. -/
inductive Filler : List Char → Prop
  | nothing : Filler []
  | space {c : Char} {rest : List Char} (blank : isSpace c = true) (further : Filler rest) : Filler (c :: rest)
  | comment {body rest : List Char} (inLine : '\n' ∉ body) (further : Filler rest) :
    Filler ('/' :: '/' :: (body ++ '\n' :: rest))

/-- What keeps two lexemes apart: white space, and then any filler. -/
def Separates (chars : List Char) : Prop := ∃ c filler, chars = c :: filler ∧ isSpace c = true ∧ Filler filler

/-- The lexemes of tokens in their order, with a separator between each two. -/
inductive SetApart : List Token → List Char → Prop
  | none : SetApart [] []
  | one (token : Token) : SetApart [token] token.lexeme.toList
  | more {token next : Token} {rest : List Token} {separator text : List Char} (separates : Separates separator)
      (further : SetApart (next :: rest) text) :
    SetApart (token :: next :: rest) (token.lexeme.toList ++ (separator ++ text))

/-- A token whose lexeme is written as its kind asks for. -/
structure Spelled (token : Token) : Prop where
  classified : Classified token.kind token.lexeme.toList
  literal : token.literal = literalOf token.kind token.lexeme.toList

variable {behind text : List Char} {tokens : List Token}

theorem Filler.skips {filler : List Char} (fills : Filler filler) (behind : List Char) : Skips behind filler := by
  induction fills with
  | nothing => exact .nothing
  | space blank _ ih => exact .space blank ih
  | comment inLine _ ih => exact .comment inLine (.inr ⟨_, rfl⟩) (.space rfl ih)

theorem Separates.skips {separator : List Char} (separates : Separates separator) (behind : List Char) :
    Skips behind separator := by
  obtain ⟨c, filler, rfl, blank, fills⟩ := separates
  exact .space blank (fills.skips behind)

theorem Separates.head {separator : List Char} (separates : Separates separator) (behind : List Char) (c : Char)
    (next : (separator ++ behind).head? = some c) : isSpace c = true := by
  obtain ⟨first, filler, rfl, blank, -⟩ := separates
  cases next
  exact blank

/-- Whatever a lexeme is, it ends before white space and at the end of a text. -/
theorem maximal_before_space {kind : Kind} {lexeme : List Char}
    (blank : ∀ c, behind.head? = some c → isSpace c = true) : Maximal kind lexeme behind := by
  refine ⟨fun _ c next => (space_alone (blank c next)).1, fun _ _ c rest same => ?_,
    fun _ c next => (space_alone (blank c next)).2.2.1, fun _ next => ?_, fun _ next => ?_⟩
  · subst same
    cases blank '.' rfl
  · cases blank _ next
  · cases blank _ next

theorem Spelled.filled {token : Token} (spelled : Spelled token) : token.lexeme.toList ≠ [] := by
  rcases spelled.classified.other with number | print | name | ⟨sign, -, same⟩
  · obtain ⟨whole, fraction, same, digits, -⟩ := spelled.classified.number.mp number
    simp [same, digits.1]
  · rw [spelled.classified.print.mp print]
    decide
  · obtain ⟨⟨first, rest, same, -⟩, -⟩ := spelled.classified.name.mp name
    simp [same]
  · rw [← same]
    cases sign <;> decide

/-- The token that the same lexeme makes at another place. -/
def moved (token : Token) (before : List Char) : Token :=
  ⟨token.kind, token.lexeme, token.literal, 1 + lineFeeds before,
    ⟨before.length, (before.length + token.lexeme.toList.length : Nat)⟩⟩

theorem Spelled.placed {token : Token} (spelled : Spelled token) (before : List Char)
    (maximal : Maximal token.kind token.lexeme.toList behind) :
    Placed before token.lexeme.toList behind (moved token before) :=
  ⟨spelled.filled, String.ofList_toList.symm, rfl, rfl, spelled.literal, spelled.classified, maximal⟩

theorem setApart_strung (apart : SetApart tokens text) (spelled : ∀ token ∈ tokens, Spelled token)
    (passed : List Char) {gap : List Char} (skips : Skips text gap) :
    ∃ others, Strung passed (gap ++ text) others ∧ List.Forall₂ Token.Same tokens others ∧
      implyProducts others = others := by
  induction apart generalizing passed gap with
  | none =>
    refine ⟨[], ?_, .nil, rfl⟩
    rw [List.append_nil]
    exact .done skips
  | one token =>
    have maximal : Maximal token.kind token.lexeme.toList [] := maximal_before_space nofun
    have placed := (spelled token List.mem_cons_self).placed (passed ++ gap) maximal
    refine ⟨[moved token (passed ++ gap)], ?_, .cons ⟨rfl, rfl, rfl⟩ .nil, rfl⟩
    rw [← List.append_nil token.lexeme.toList] at skips ⊢
    exact .token skips placed (.done .nothing)
  | @more token next rest separator text separates further ih =>
    have placed := (spelled token List.mem_cons_self).placed (passed ++ gap)
      (maximal_before_space (separates.head text))
    obtain ⟨others, strung, same, written⟩ := ih (fun other member => spelled other (List.mem_cons_of_mem _ member))
      (passed ++ gap ++ token.lexeme.toList) (separates.skips text)
    refine ⟨moved token (passed ++ gap) :: others, .token skips placed strung, .cons ⟨rfl, rfl, rfl⟩ same, ?_⟩
    rw [implyProducts_cons, written]
    rcases placed.implication strung with ⟨-, ⟨c, next, letter⟩, -⟩ | ⟨-, none⟩
    · rw [placed.drop] at next
      exact absurd (separates.head text c next) (letter_not_space letter)
    · rw [none, List.nil_append]

theorem scan_spelled (read : scan text = .ok tokens) : ∀ token ∈ tokens.dropLast, Spelled token := by
  obtain ⟨body, strung, rfl⟩ := scan_strung read
  rw [List.dropLast_concat]
  intro token member
  rcases mem_implyProducts member with given | ⟨number, -, -, rfl⟩
  · exact ⟨(strung.written given).classified, (strung.written given).literal⟩
  · have star : Mark.star.glyph.toList = ['*'] := rfl
    have classified : Classified (.mark .star) Mark.star.glyph.toList := star ▸ classified_mark star
    exact ⟨classified, rfl⟩

/-- Lexemes set apart anew, the implied products written out, scan into the same words again, and
none of them is left to imply. -/
theorem scan_set_apart (read : scan text = .ok tokens) {respaced : List Char}
    (apart : SetApart tokens.dropLast respaced) :
    ∃ others, scan respaced = .ok others ∧ List.Forall₂ Token.Same tokens others ∧
      ∀ token ∈ others.dropLast, Written respaced token := by
  obtain ⟨others, strung, same, nothing⟩ := setApart_strung apart (scan_spelled read) [] .nothing
  rw [List.nil_append] at strung
  have again : scan respaced = .ok (others ++ [implied .finish (1 + lineFeeds respaced) respaced.length]) := by
    have found : written 0 0 1 respaced = .ok others := written_of_strung strung
    simp only [scan, found, bind, Except.bind, nothing, pure, Except.pure]
  refine ⟨_, again, ?_, ?_⟩
  · obtain ⟨body, -, rfl⟩ := scan_strung read
    rw [List.dropLast_concat] at same
    exact List.rel_append same (.cons ⟨rfl, rfl, rfl⟩ .nil)
  · rw [List.dropLast_concat]
    exact fun token => strung.written

-- Written without gaps, the star and both comparison signs would be read otherwise.
theorem scan_set_apart_commented : ∃ tokens others, scan "2x</=1.5".toList = .ok tokens ∧
    scan "2 *\tx\n//\n<\r/\n//=\n = 1.5".toList = .ok others ∧ others.length = 8 ∧
    List.Forall₂ Token.Same tokens others ∧
    ∀ token ∈ others.dropLast, Written "2 *\tx\n//\n<\r/\n//=\n = 1.5".toList token := by
  have separates (c : Char) {filler : List Char} (blank : isSpace c = true) (fills : Filler filler) :
      Separates (c :: filler) := ⟨c, filler, rfl, blank, fills⟩
  have apart (two star x less slash equals last : Token) :
      SetApart [two, star, x, less, slash, equals, last] (two.lexeme.toList ++ ([' '] ++ (star.lexeme.toList ++ (['\t'] ++
        (x.lexeme.toList ++ ("\n//\n".toList ++ (less.lexeme.toList ++ (['\r'] ++ (slash.lexeme.toList ++
          ("\n//=\n ".toList ++ (equals.lexeme.toList ++ ([' '] ++ last.lexeme.toList)))))))))))) :=
    .more (separates ' ' rfl .nothing) <| .more (separates '\t' rfl .nothing) <|
    .more (separates '\n' rfl (.comment List.not_mem_nil .nothing)) <| .more (separates '\r' rfl .nothing) <|
    .more (separates '\n' rfl (.comment (by decide : '\n' ∉ ['=']) (.space rfl .nothing))) <|
    .more (separates ' ' rfl .nothing) <| .one last
  have read : scan "2x</=1.5".toList = .ok _ := rfl
  obtain ⟨others, again, same, written⟩ := scan_set_apart read (apart _ _ _ _ _ _ _)
  exact ⟨_, others, read, again, same.length_eq.symm, same, written⟩

end Respacing

end Reckoner.Proofs.TokenRespacing
