import Mathlib.Data.List.DropRight
import Mathlib.Data.List.Infix
import Reckoner.Proofs.TokenLexemes

/-! Which texts cannot be scanned. A character that no token may hold is in the way unless
a comment hides it, and a comment is whatever stands behind two slashes in the same line,
whichever tokens come before them. The first such character is the one complained about. -/

namespace Reckoner.Proofs.StrayCharacters
open Token TokenSpans TokenLexicon TokenLexemes

def punctuation : List Char := ['(', ')', '.', '+', '-', '*', '/', '^', '!', '=', ',', '<', '>']

/-- The characters that tokens are made of, and white space. -/
def isExpected (c : Char) : Bool := isSpace c || isLetter c || isDigit c || punctuation.contains c

/-- The line that is still open behind what has been passed. -/
def lastLine (passed : List Char) : List Char := passed.rtakeWhile (· != '\n')

/-- Whether two slashes stand in the open line. -/
def Commented (passed : List Char) : Prop := ['/', '/'] <:+: lastLine passed

/-- An unexpected character that no comment hides. -/
structure StrayAt (text : List Char) (index : Nat) (c : Char) : Prop where
  found : text[index]? = some c
  unexpected : isExpected c = false
  uncommented : ¬ Commented (text.take index)

section Lines

variable {passed : List Char} {c : Char}

theorem lastLine_concat (within : c ≠ '\n') : lastLine (passed ++ [c]) = lastLine passed ++ [c] :=
  List.rtakeWhile_concat_pos _ _ _ (by simpa using within)

theorem not_commented_break : ¬ Commented (passed ++ ['\n']) := by
  rw [Commented, lastLine, List.rtakeWhile_concat_neg _ _ _ (by simp)]
  simp

theorem Commented.concat (commented : Commented passed) (within : c ≠ '\n') : Commented (passed ++ [c]) := by
  rw [Commented, lastLine_concat within]
  exact List.infix_concat_iff.mpr (.inr commented)

/-- A comment goes on up to the end of its line. -/
theorem Commented.append {more : List Char} (commented : Commented passed) (inLine : '\n' ∉ more) :
    Commented (passed ++ more) := by
  induction more generalizing passed with
  | nil => rwa [List.append_nil]
  | cons c rest ih =>
    rw [List.mem_cons, not_or] at inLine
    rw [List.append_cons]
    exact ih (commented.concat (Ne.symm inLine.1)) inLine.2

theorem commented_slashes : Commented (passed ++ ['/', '/']) := by
  rw [List.append_cons, Commented, lastLine_concat (by decide), lastLine_concat (by decide), List.append_assoc]
  exact (List.suffix_append _ _).isInfix

/-- Only a slash behind a slash starts a comment. -/
theorem Commented.of_concat (commented : Commented (passed ++ [c])) (within : c ≠ '\n') :
    Commented passed ∨ c = '/' ∧ ['/'] <:+ passed := by
  rw [Commented, lastLine_concat within, List.infix_concat_iff] at commented
  rcases commented with last | earlier
  · right
    rcases List.suffix_concat_iff.mp last with none | ⟨first, split, ends⟩
    · cases none
    · have pair : ['/'] ++ ['/'] = first ++ [c] := split
      obtain ⟨rfl, same⟩ := List.append_inj' pair rfl
      exact ⟨(List.cons.inj same).1.symm, ends.trans (List.rtakeWhile_suffix _ _)⟩
  · exact .inl earlier

end Lines

section Characters

variable {kind : Kind} {lexeme : List Char} {c : Char}

theorem markOf?_eq_none : markOf? c = none ↔ c ∉ punctuation := by
  simp [markOf?, Mark.all, Mark.glyph, punctuation, @eq_comm _ c]

theorem expected_digit (digit : isDigit c = true) : isExpected c = true := by simp [isExpected, digit]

theorem expected_word (word : isWordCharacter c = true) : isExpected c = true := by
  rcases Bool.or_eq_true_iff.mp word with letter | digit
  · simp [isExpected, letter]
  · exact expected_digit digit

/-- The lexicon gives up exactly on unexpected characters. -/
theorem lexicon_stray_iff (c : Char) (rest : List Char) : (lexicon c rest).1 = .stray ↔ isExpected c = false := by
  unfold lexicon
  split
  next blank => simp [isExpected, blank]
  next =>
  split
  next digit => simp [isExpected, digit]
  next =>
  split
  next letter => simp [isExpected, letter]
  next unspaced undigited unlettered =>
  split
  · simp [isExpected, punctuation]
  · simp [isExpected, punctuation]
  · simp [isExpected, punctuation]
  · have known := @markOf?_eq_none c
    split
    next sign found => simpa [isExpected, unspaced, undigited, unlettered, found] using known
    next none => simpa [isExpected, unspaced, undigited, unlettered, none] using known

theorem classified_expected (classified : Classified kind lexeme) : ∀ c ∈ lexeme, isExpected c = true := by
  intro c member
  rcases classified.other with number | print | name | ⟨sign, -, rfl⟩
  · obtain ⟨whole, fraction, rfl, digits, rfl | ⟨others, rfl, further⟩⟩ := classified.number.mp number
    · rw [List.append_nil] at member
      exact expected_digit (digits.2 c member)
    · rcases List.mem_append.mp member with early | late
      · exact expected_digit (digits.2 c early)
      · rcases List.mem_cons.mp late with rfl | digit
        · rfl
        · exact expected_digit (further.2 c digit)
  · rw [classified.print.mp print] at member
    exact List.all_eq_true.mp (by decide : "print".toList.all isExpected = true) c member
  · obtain ⟨⟨first, rest, rfl, letter, word⟩, -⟩ := classified.name.mp name
    rcases List.mem_cons.mp member with rfl | later
    · exact expected_word (by simp [isWordCharacter, letter])
    · exact expected_word (word c later)
  · have all : sign.glyph.toList.all isExpected = true := by cases sign <;> decide
    exact List.all_eq_true.mp all c member

/-- A slash makes a token of its own. -/
theorem classified_slash (classified : Classified kind lexeme) (member : '/' ∈ lexeme) :
    kind = .mark .slash ∧ lexeme = ['/'] := by
  rcases classified.other with number | print | name | ⟨sign, rfl, rfl⟩
  · obtain ⟨whole, fraction, rfl, digits, rfl | ⟨others, rfl, further⟩⟩ := classified.number.mp number
    · rw [List.append_nil] at member
      cases digits.2 _ member
    · rcases List.mem_append.mp member with early | late
      · cases digits.2 _ early
      · rcases List.mem_cons.mp late with slash | digit
        · cases slash
        · cases further.2 _ digit
  · rw [classified.print.mp print] at member
    exact absurd member (by decide)
  · obtain ⟨⟨first, rest, rfl, letter, word⟩, -⟩ := classified.name.mp name
    rcases List.mem_cons.mp member with rfl | later
    · cases letter
    · cases word _ later
  · revert member
    cases sign <;> decide

end Characters

section Pieces

variable {passed ahead behind front back : List Char} {c d : Char} {index : Nat}

theorem StrayAt.split (stray : StrayAt (front ++ back) index c) :
    StrayAt front index c ∨
      ∃ further, index = front.length + further ∧ back[further]? = some c ∧ isExpected c = false ∧
        ¬ Commented (front ++ back.take further) := by
  obtain ⟨found, unexpected, uncommented⟩ := stray
  rcases Nat.lt_or_ge index front.length with inside | beyond
  · rw [List.getElem?_append_left inside] at found
    rw [List.take_append_of_le_length (Nat.le_of_lt inside)] at uncommented
    exact .inl ⟨found, unexpected, uncommented⟩
  · rw [List.getElem?_append_right beyond] at found
    rw [List.take_append, List.take_of_length_le beyond] at uncommented
    exact .inr ⟨_, (Nat.add_sub_cancel' beyond).symm, found, unexpected, uncommented⟩

theorem StrayAt.append (stray : StrayAt front index c) (back : List Char) : StrayAt (front ++ back) index c := by
  obtain ⟨inside, -⟩ := List.getElem?_eq_some_iff.mp stray.found
  refine ⟨?_, stray.unexpected, ?_⟩
  · rw [List.getElem?_append_left inside, stray.found]
  · rw [List.take_append_of_le_length (Nat.le_of_lt inside)]
    exact stray.uncommented

/-- Between two pieces of a text no comment runs on, and nothing stray has been passed. -/
structure Boundary (passed ahead : List Char) : Prop where
  clear : ∀ c, ahead.head? = some c → ¬ Commented (passed ++ [c])
  clean : ∀ index c, ¬ StrayAt passed index c

theorem Boundary.character (boundary : Boundary passed (c :: ahead)) (expected : isExpected c = true)
    (single : c = '/' → ahead.head? ≠ some '/') : Boundary (passed ++ [c]) ahead := by
  refine ⟨fun d next commented => ?_, fun index d stray => ?_⟩
  · by_cases ends : d = '\n'
    · subst ends
      exact not_commented_break commented
    · rcases commented.of_concat ends with earlier | ⟨rfl, last⟩
      · exact boundary.clear c rfl earlier
      · obtain ⟨before, same⟩ := last
        have slash : c = '/' := by simpa using (congrArg List.getLast? same).symm
        exact single slash next
  · rcases stray.split with earlier | ⟨further, -, found, unexpected, -⟩
    · exact boundary.clean index d earlier
    · obtain rfl := List.mem_singleton.mp (List.mem_of_getElem? found)
      simp [expected] at unexpected

theorem Boundary.characters {chars : List Char} (boundary : Boundary passed (chars ++ ahead))
    (expected : ∀ c ∈ chars, isExpected c = true) (slashless : '/' ∉ chars) : Boundary (passed ++ chars) ahead := by
  induction chars generalizing passed with
  | nil => rwa [List.append_nil]
  | cons c rest ih =>
    rw [List.mem_cons, not_or] at slashless
    rw [List.append_cons]
    refine ih ?_ (fun d member => expected d (List.mem_cons_of_mem _ member)) slashless.2
    exact boundary.character (expected c List.mem_cons_self) fun slash => absurd slash.symm slashless.1

theorem Boundary.lexeme {kind : Kind} {lexeme : List Char} (boundary : Boundary passed (lexeme ++ behind))
    (classified : Classified kind lexeme) (maximal : Maximal kind lexeme behind) :
    Boundary (passed ++ lexeme) behind := by
  by_cases member : '/' ∈ lexeme
  · obtain ⟨slash, rfl⟩ := classified_slash classified member
    exact boundary.character rfl fun _ => maximal.slash slash
  · exact boundary.characters (classified_expected classified) member

/-- Everything in a comment is hidden, and the line break behind it ends it. -/
theorem Boundary.comment {body : List Char} (boundary : Boundary passed ('/' :: '/' :: (body ++ ahead)))
    (inLine : '\n' ∉ body) (ends : ahead = [] ∨ ∃ more, ahead = '\n' :: more) :
    Boundary (passed ++ '/' :: '/' :: body) ahead := by
  refine ⟨fun c next => ?_, fun index c stray => ?_⟩
  · rcases ends with rfl | ⟨more, rfl⟩
    · cases next
    · obtain rfl := Option.some.inj next
      exact not_commented_break
  · rcases stray.split with earlier | ⟨further, -, found, unexpected, uncommented⟩
    · exact boundary.clean index c earlier
    · match further with
      | 0 | 1 =>
        cases found
        cases unexpected
      | further + 2 =>
        have hidden : Commented (passed ++ ['/', '/'] ++ body.take further) :=
          commented_slashes.append fun member => inLine (List.mem_of_mem_take member)
        exact uncommented (by simpa using hidden)

theorem Boundary.skips {gap : List Char} (skips : Skips behind gap) (boundary : Boundary passed (gap ++ behind)) :
    Boundary (passed ++ gap) behind := by
  induction skips generalizing passed with
  | nothing => rwa [List.append_nil]
  | @space c rest blank further ih =>
    have other : c ≠ '/' := by
      rintro rfl
      cases blank
    rw [List.append_cons]
    exact ih (boundary.character (by simp [isExpected, blank]) fun slash => absurd slash other)
  | @comment body rest inLine ends further ih =>
    rw [List.cons_append, List.cons_append, List.append_assoc] at boundary
    have behind := ih (boundary.comment inLine ends)
    simpa using behind

/-- One step of scanning leads from boundary to boundary. -/
theorem Boundary.piece {rest : List Char} (boundary : Boundary passed (c :: rest))
    (expected : (lexicon c rest).1 ≠ .stray) :
    Boundary (passed ++ [c] ++ rest.take (lexicon c rest).2) (rest.drop (lexicon c rest).2) := by
  have found := lexicon_found c rest
  have whole : c :: rest = (c :: rest.take (lexicon c rest).2) ++ rest.drop (lexicon c rest).2 := by simp
  rw [whole] at boundary
  rw [← List.append_cons]
  generalize (lexicon c rest).1 = piece at expected found
  cases piece with
  | skipped => exact boundary.skips found
  | lexeme kind => exact boundary.lexeme found.1 found.2
  | stray => exact absurd rfl expected

end Pieces

section Scanning

/-- A lexical failure about a stray character before which there is none. -/
structure Tells (text : List Char) (failure : Failure) (index : Nat) (c : Char) : Prop where
  stray : StrayAt text index c
  first : ∀ earlier < index, ∀ d, ¬ StrayAt text earlier d
  kind : failure.kind = .lexical
  site : failure.site = some ⟨index, (index + 1 : Nat)⟩
  message : failure.message = "Unexpected character " ++ Text.quoted (String.singleton c) ++ " on line " ++
    toString (1 + lineFeeds (text.take index)) ++ "."

/-- What scanning a text comes to, as far as stray characters go. -/
def Settles {α : Type} (text : List Char) : Except Failure α → Prop
  | .ok _ => ∀ index c, ¬ StrayAt text index c
  | .error failure => ∃ index c, Tells text failure index c

theorem Boundary.tells {passed rest : List Char} {c : Char} (boundary : Boundary passed (c :: rest))
    (unexpected : isExpected c = false) {failure : Failure}
    (cause : failure.cause = .strayCharacter c (1 + lineFeeds passed))
    (site : failure.site = some ⟨passed.length, (passed.length + 1 : Nat)⟩) :
    Tells (passed ++ c :: rest) failure passed.length c := by
  have inLine : c ≠ '\n' := by
    rintro rfl
    cases unexpected
  refine ⟨⟨by simp, unexpected, ?_⟩, fun earlier before d stray => ?_, ?_, site, ?_⟩
  · rw [List.take_left]
    exact fun commented => boundary.clear c rfl (commented.concat inLine)
  · rcases stray.split with among | ⟨further, place, -⟩
    · exact boundary.clean earlier d among
    · omega
  · rw [Failure.kind, cause]
    rfl
  · rw [Failure.message, cause, List.take_left]
    rfl

/-- Scanning from a boundary on, with a part of the characters ahead already taken. -/
theorem written_settles {taken offset line : Nat} {passed ahead : List Char} (room : taken ≤ ahead.length)
    (place : offset = passed.length) (count : line = 1 + lineFeeds passed)
    (boundary : Boundary (passed ++ ahead.take taken) (ahead.drop taken)) :
    Settles (passed ++ ahead) (written taken offset line ahead) := by
  induction ahead generalizing taken offset line passed with
  | nil =>
    rw [List.take_nil] at boundary
    exact boundary.clean
  | cons c rest ih =>
    have next : offset + 1 = (passed ++ [c]).length := by simp [place]
    have below : line + lineStep c = 1 + lineFeeds (passed ++ [c]) := by
      rw [lineFeeds_append, lineStep_eq, count, Nat.add_assoc]
    cases taken with
    | succ taken =>
      rw [written_taken, List.append_cons]
      refine ih (Nat.le_of_succ_le_succ room) next below ?_
      rwa [List.append_assoc]
    | zero =>
      rw [List.take_zero, List.append_nil, List.drop_zero] at boundary
      have fits := lexicon_le c rest
      have step := boundary.piece
      have given := lexicon_stray_iff c rest
      rcases piece : lexicon c rest with ⟨_ | kind | _, further⟩
      all_goals
        rw [piece] at fits step given
        simp only [written, piece]
      · rw [List.append_cons]
        exact ih fits next below (step (by simp))
      · rw [List.append_cons]
        have others := ih fits next below (step (by simp))
        generalize written further (offset + 1) (line + lineStep c) rest = scanned at others
        cases scanned with
        | error failure => exact others
        | ok tokens => exact others
      · obtain rfl := lexicon_stray piece
        exact ⟨passed.length, c, boundary.tells (given.mp rfl) (by rw [count]) (by simp [place])⟩

theorem boundary_start (text : List Char) : Boundary [] text := by
  refine ⟨fun c _ commented => ?_, fun index c stray => ?_⟩
  · have two := commented.length_le
    have one := (List.rtakeWhile_suffix (· != '\n') [c]).length_le
    simp only [List.length_cons, List.length_nil] at two one
    exact absurd (Nat.le_trans two one) (by decide)
  · cases stray.found

theorem scan_settles (text : List Char) : Settles text (scan text) := by
  have settles : Settles ([] ++ text) (written 0 0 1 text) :=
    written_settles (Nat.zero_le _) rfl rfl (boundary_start text)
  unfold scan
  generalize written 0 0 1 text = scanned at settles
  cases scanned with
  | error failure => exact settles
  | ok tokens => exact settles

/-- A text cannot be scanned exactly if it has a stray character, and then the first one is told. -/
theorem scan_fails_on_strays (text : List Char) :
    ((∃ failure, scan text = .error failure) ↔ ∃ index c, StrayAt text index c) ∧
    ∀ failure, scan text = .error failure → ∃ index c, Tells text failure index c := by
  have settles := scan_settles text
  cases scanned : scan text with
  | ok tokens =>
    rw [scanned] at settles
    refine ⟨iff_of_false nofun ?_, nofun⟩
    rintro ⟨index, c, stray⟩
    exact settles index c stray
  | error failure =>
    rw [scanned] at settles
    refine ⟨iff_of_true ⟨failure, rfl⟩ ?_, ?_⟩
    · obtain ⟨index, c, tells⟩ := settles
      exact ⟨index, c, tells.stray⟩
    · rintro _ ⟨⟩
      exact settles

-- In the first line a comment hides the same character, and a carriage return does not end it.
theorem scan_fails_on_strays_below_comment : ∃ failure, scan "2x/// $\r#\n</_$".toList = .error failure ∧
    failure.site = some ⟨13, 14⟩ ∧ failure.cause = .strayCharacter '$' 2 ∧
    ∃ index c, Tells "2x/// $\r#\n</_$".toList failure index c :=
  ⟨_, rfl, rfl, rfl, (scan_fails_on_strays _).2 _ rfl⟩

end Scanning

end Reckoner.Proofs.StrayCharacters
