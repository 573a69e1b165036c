import Reckoner.Proofs.TokenLexicon
import Reckoner.Proofs.TokenSpans

/-! What the tokens of a text are. Together with the blanks and comments between them they
make up the whole text, and each reaches as far as it can. Its kind, its line and
the products that nobody wrote can be told from the characters alone. -/

namespace Reckoner.Proofs.TokenLexemes
open Token TokenSpans TokenLexicon

/-- The characters from one offset up to another. -/
def stretch (text : List Char) (start stop : Int) : List Char := (text.take stop.toNat).drop start.toNat

section Strings

/-- How a token is written between what stands before it and what stands behind it. -/
structure Placed (before lexeme behind : List Char) (token : Token) : Prop where
  filled : lexeme ≠ []
  spelled : token.lexeme = String.ofList lexeme
  span : token.span = ⟨before.length, (before.length + lexeme.length : Nat)⟩
  line : token.line = 1 + lineFeeds before
  literal : token.literal = literalOf token.kind lexeme
  classified : Classified token.kind lexeme
  maximal : Maximal token.kind lexeme behind

/-- Behind what has been passed, the characters ahead are tokens with skipped ones around. -/
inductive Strung : List Char → List Char → List Token → Prop
  | done {passed gap : List Char} (skips : Skips [] gap) : Strung passed gap []
  | token {passed gap lexeme behind : List Char} {token : Token} {rest : List Token}
      (skips : Skips (lexeme ++ behind) gap) (placed : Placed (passed ++ gap) lexeme behind token)
      (further : Strung (passed ++ gap ++ lexeme) behind rest) :
    Strung passed (gap ++ (lexeme ++ behind)) (token :: rest)

/-- A skipped piece belongs to the gap in front of the next token. -/
theorem Strung.skip {passed piece behind : List Char} {tokens : List Token} (skips : Skips behind piece)
    (strung : Strung (passed ++ piece) behind tokens) : Strung passed (piece ++ behind) tokens := by
  cases strung with
  | done more => exact .done (Skips.append (by rwa [List.append_nil]) more)
  | token more placed further =>
    rw [← List.append_assoc]
    rw [List.append_assoc passed] at placed further
    exact .token (skips.append more) placed further

theorem lineFeeds_append (front back : List Char) : lineFeeds (front ++ back) = lineFeeds front + lineFeeds back :=
  List.count_append

theorem lineStep_eq (c : Char) : lineStep c = lineFeeds [c] := by
  simp [lineStep, lineFeeds, List.count_singleton]

/-- Scanning from some offset on, with a part of the characters ahead already taken. -/
theorem written_strung {taken offset line : Nat} {passed ahead : List Char} {tokens : List Token}
    (read : written taken offset line ahead = .ok tokens) (room : taken ≤ ahead.length)
    (place : offset = passed.length) (count : line = 1 + lineFeeds passed) :
    Strung (passed ++ ahead.take taken) (ahead.drop taken) tokens := by
  induction ahead generalizing taken offset line passed tokens with
  | nil =>
    cases read
    rw [List.drop_nil]
    exact .done .nothing
  | cons c rest ih =>
    have next : offset + 1 = (passed ++ [c]).length := by simp [place]
    have below : line + lineStep c = 1 + lineFeeds (passed ++ [c]) := by
      rw [lineFeeds_append, lineStep_eq, count, Nat.add_assoc]
    cases taken with
    | succ taken =>
      rw [written_taken] at read
      have others := ih read (Nat.le_of_succ_le_succ room) next below
      rwa [List.append_assoc] at others
    | zero =>
      have fits := lexicon_le c rest
      have found := lexicon_found c rest
      rw [List.take_zero, List.append_nil, List.drop_zero]
      have split : c :: rest = (c :: rest.take (lexicon c rest).2) ++ rest.drop (lexicon c rest).2 := by simp
      rcases piece : lexicon c rest with ⟨_ | kind | _, further⟩
      all_goals
        rw [piece] at fits found split
        simp only [written, piece] at read
      · have others := ih read fits next below
        rw [List.append_assoc] at others
        rw [split]
        exact .skip found others
      · split at read
        · cases read
        next others scanned =>
          cases read
          have behind := ih scanned fits next below
          rw [List.append_assoc] at behind
          rw [split]
          have placed : Placed passed (c :: rest.take further) (rest.drop further)
              ⟨kind, String.ofList (c :: rest.take further), literalOf kind (c :: rest.take further), line,
                ⟨offset, (offset + 1 + further : Nat)⟩⟩ := by
            refine ⟨List.cons_ne_nil _ _, rfl, ?_, count, rfl, found.1, found.2⟩
            rw [place, List.length_cons, List.length_take_of_le fits, Nat.add_assoc, Nat.add_comm 1]
          rw [← List.append_nil passed] at placed behind
          exact Strung.token .nothing placed behind
      · cases read

end Strings

/-- A token that is written in the text, from the first character of its lexeme to the last. -/
structure Written (text : List Char) (token : Token) : Prop where
  filled : token.span.start < token.span.stop
  lexeme : token.lexeme.toList = stretch text token.span.start token.span.stop
  literal : token.literal = literalOf token.kind token.lexeme.toList
  classified : Classified token.kind token.lexeme.toList
  maximal : Maximal token.kind token.lexeme.toList (text.drop token.span.stop.toNat)

/-- From the given offset on, tokens have nothing but skipped characters between them. -/
def Apart (text : List Char) : Int → List Token → Prop
  | _, [] => True
  | offset, token :: rest =>
    Skips (text.drop token.span.start.toNat) (stretch text offset token.span.start) ∧ Apart text token.span.stop rest

def Counts (text : List Char) (token : Token) : Prop :=
  token.line = 1 + lineFeeds (text.take token.span.start.toNat)

/-- The product that a number and a word right behind it imply. -/
def product (number : Token) : Token := implied (.mark .star) number.line number.span.stop

def BeforeLetter (text : List Char) (token : Token) : Prop :=
  ∃ c, (text.drop token.span.stop.toNat).head? = some c ∧ isLetter c = true

/-- What the tokens of a text are. -/
structure Lexed (text : List Char) (tokens : List Token) : Prop where
  finish : ∃ body finish, tokens = body ++ [finish] ∧ finish.kind = .finish ∧
    finish.span = ⟨text.length, text.length⟩ ∧ ∀ token ∈ body, token.kind ≠ .finish
  ordered : Within 0 text.length tokens
  apart : Apart text 0 tokens
  written : ∀ front token back, tokens = front ++ token :: back → token.kind = .finish ∨ Written text token ∨
    ∃ earlier number, front = earlier ++ [number] ∧ number.kind = .number ∧ token = product number
  products : ∀ front number back, tokens = front ++ number :: back → number.kind = .number →
    (BeforeLetter text number ↔ ∃ others, back = product number :: others)
  counted : ∀ token ∈ tokens, Counts text token

section Texts

variable {passed ahead before lexeme behind : List Char} {token : Token} {tokens rest : List Token}

theorem stretch_middle (front middle back : List Char) :
    stretch (front ++ (middle ++ back)) front.length (front ++ middle).length = middle := by
  rw [stretch, Int.toNat_natCast, Int.toNat_natCast, ← List.append_assoc, List.take_left, List.drop_left]

theorem Placed.start (placed : Placed before lexeme behind token) : token.span.start = before.length := by
  rw [placed.span]

theorem Placed.stop (placed : Placed before lexeme behind token) : token.span.stop = (before ++ lexeme).length := by
  rw [placed.span, List.length_append]

theorem Placed.drop (placed : Placed before lexeme behind token) :
    (before ++ (lexeme ++ behind)).drop token.span.stop.toNat = behind := by
  rw [placed.stop, Int.toNat_natCast, ← List.append_assoc, List.drop_left]

theorem Placed.written (placed : Placed before lexeme behind token) :
    Written (before ++ (lexeme ++ behind)) token := by
  have same : token.lexeme.toList = lexeme := by rw [placed.spelled, String.toList_ofList]
  have filled := List.length_pos_iff.mpr placed.filled
  refine ⟨?_, ?_, same ▸ placed.literal, same ▸ placed.classified, ?_⟩
  · rw [placed.span]
    dsimp only
    omega
  · rw [same, placed.start, placed.stop, stretch_middle]
  · rw [placed.drop, same]
    exact placed.maximal

theorem Placed.counts (placed : Placed before lexeme behind token) :
    Counts (before ++ (lexeme ++ behind)) token := by
  rw [Counts, placed.line, placed.start, Int.toNat_natCast, List.take_left]

theorem Placed.counts_product (placed : Placed before lexeme behind token) (number : token.kind = .number) :
    Counts (before ++ (lexeme ++ behind)) (product token) := by
  have level : lineFeeds lexeme = 0 := List.count_eq_zero.mpr (placed.classified.number.mp number).inLine
  change token.line = 1 + lineFeeds (List.take token.span.stop.toNat _)
  rw [placed.stop, Int.toNat_natCast, ← List.append_assoc, List.take_left, lineFeeds_append, level, placed.line, Nat.add_zero]

/-- Every token of a string has its place in the text. -/
theorem Strung.placed (strung : Strung passed ahead tokens) (member : token ∈ tokens) :
    ∃ before lexeme behind, passed ++ ahead = before ++ (lexeme ++ behind) ∧ Placed before lexeme behind token := by
  induction strung with
  | done => cases member
  | @token passed gap lexeme behind first rest skips placed further ih =>
    rcases List.mem_cons.mp member with rfl | later
    · exact ⟨passed ++ gap, lexeme, behind, by simp, placed⟩
    · obtain ⟨before, inner, beyond, same, found⟩ := ih later
      exact ⟨before, inner, beyond, by simpa using same, found⟩

theorem Strung.apart (strung : Strung passed ahead tokens) {finish : Token}
    (ends : finish.span.start = (passed ++ ahead).length) :
    Apart (passed ++ ahead) passed.length (tokens ++ [finish]) := by
  induction strung with
  | @done passed gap skips =>
    have whole := stretch_middle passed gap []
    rw [List.append_nil] at whole
    refine ⟨?_, trivial⟩
    rw [ends, whole, Int.toNat_natCast, List.drop_length]
    exact skips
  | @token passed gap lexeme behind token rest skips placed further ih =>
    have text : passed ++ (gap ++ (lexeme ++ behind)) = passed ++ gap ++ lexeme ++ behind := by simp
    refine ⟨?_, ?_⟩
    · rw [placed.start, stretch_middle, Int.toNat_natCast, ← List.append_assoc passed, List.drop_left]
      exact skips
    · rw [placed.stop, text]
      exact ih (text ▸ ends)

def IsWord (token : Token) : Prop := token.kind = .name ∨ token.kind = .print

/-- Where a letter comes next, so does a word, without a gap. -/
theorem Strung.word_of_letter {c : Char} {more : List Char} (strung : Strung passed (c :: more) tokens)
    (letter : isLetter c = true) :
    ∃ word others, tokens = word :: others ∧ IsWord word ∧ word.span.start = passed.length := by
  generalize text : c :: more = chars at strung
  cases strung with
  | done skips =>
    subst text
    simp [skips.starts] at letter
  | @token _ gap lexeme behind word others skips placed further =>
    obtain ⟨first, tail, rfl⟩ := List.exists_cons_of_ne_nil placed.filled
    cases gap with
    | cons blank gap =>
      obtain ⟨rfl, -⟩ := List.cons.inj text
      simp [skips.starts] at letter
    | nil =>
      obtain ⟨rfl, -⟩ := List.cons.inj text
      exact ⟨word, others, rfl, placed.classified.word.mpr letter, by simp [placed.start]⟩

theorem Strung.letter_of_word {word : Token} {others : List Token} (strung : Strung passed ahead (word :: others))
    (isWord : IsWord word) (close : word.span.start = passed.length) :
    ∃ c, ahead.head? = some c ∧ isLetter c = true := by
  cases strung with
  | @token _ gap lexeme behind _ _ skips placed further =>
    have none : gap = [] := by
      rw [placed.start, List.length_append] at close
      exact List.length_eq_zero_iff.mp (by omega)
    obtain ⟨first, tail, rfl⟩ := List.exists_cons_of_ne_nil placed.filled
    exact ⟨first, by simp [none], placed.classified.word.mp isWord⟩

theorem impliesProduct_iff (left right : Token) :
    impliesProduct left right = true ↔
      left.kind = .number ∧ IsWord right ∧ left.span.stop = right.span.start := by
  simp [impliesProduct, IsWord, and_assoc]

/-- The product that stands behind a token, if the next one is a word to be multiplied. -/
def implication (token : Token) : List Token → List Token
  | [] => []
  | right :: _ => if impliesProduct token right then [product token] else []

theorem implyProducts_cons (token : Token) (rest : List Token) :
    implyProducts (token :: rest) = token :: (implication token rest ++ implyProducts rest) := by
  cases rest with
  | nil => rfl
  | cons right others =>
    rw [implyProducts, implication]
    split <;> rfl

theorem Placed.implication (placed : Placed before lexeme behind token) (strung : Strung (before ++ lexeme) behind rest) :
    token.kind = .number ∧ BeforeLetter (before ++ (lexeme ++ behind)) token ∧ implication token rest = [product token] ∨
    ¬ (token.kind = .number ∧ BeforeLetter (before ++ (lexeme ++ behind)) token) ∧ implication token rest = [] := by
  rw [BeforeLetter, placed.drop]
  by_cases number : token.kind = .number
  · by_cases letter : ∃ c, behind.head? = some c ∧ isLetter c = true
    · left
      obtain ⟨c, head, letter⟩ := letter
      obtain ⟨more, rfl⟩ := List.head?_eq_some_iff.mp head
      obtain ⟨word, others, rfl, isWord, start⟩ := strung.word_of_letter letter
      refine ⟨number, ⟨c, head, letter⟩, ?_⟩
      rw [TokenLexemes.implication, if_pos ((impliesProduct_iff _ _).mpr ⟨number, isWord, placed.stop.trans start.symm⟩)]
    · right
      refine ⟨fun both => letter both.2, ?_⟩
      cases rest with
      | nil => rfl
      | cons word others =>
        rw [TokenLexemes.implication, if_neg]
        intro implies
        obtain ⟨-, isWord, close⟩ := (impliesProduct_iff _ _).mp implies
        exact letter (strung.letter_of_word isWord (close.symm.trans placed.stop))
  · right
    refine ⟨fun both => number both.1, ?_⟩
    cases rest with
    | nil => rfl
    | cons word others =>
      rw [TokenLexemes.implication, if_neg]
      exact fun implies => number ((impliesProduct_iff _ _).mp implies).1

end Texts

section Products

variable {text passed ahead : List Char} {token finish : Token} {tokens rest : List Token}

theorem implication_eq (token : Token) (rest : List Token) :
    implication token rest = [] ∨ token.kind = .number ∧ implication token rest = [product token] := by
  cases rest with
  | nil => exact .inl rfl
  | cons right others =>
    rw [implication]
    split
    next implies => exact .inr ⟨((impliesProduct_iff _ _).mp implies).1, rfl⟩
    next => exact .inl rfl

theorem mem_implyProducts (member : token ∈ implyProducts tokens) :
    token ∈ tokens ∨ ∃ number ∈ tokens, number.kind = .number ∧ token = product number := by
  induction tokens with
  | nil => cases member
  | cons first rest ih =>
    rw [implyProducts_cons, List.mem_cons, List.mem_append] at member
    rcases member with rfl | implied | later
    · exact .inl List.mem_cons_self
    · rcases implication_eq first rest with none | ⟨number, one⟩
      · rw [none] at implied
        cases implied
      · rw [one] at implied
        exact .inr ⟨first, List.mem_cons_self, number, List.mem_singleton.mp implied⟩
    · rcases ih later with given | ⟨number, given, kind, same⟩
      · exact .inl (List.mem_cons_of_mem _ given)
      · exact .inr ⟨number, List.mem_cons_of_mem _ given, kind, same⟩

/-- A place behind a token is its product's, or a place among the tokens that follow. -/
theorem implication_split {first : Token} {front back others : List Token}
    (split : implication first rest ++ others = front ++ token :: back) :
    first.kind = .number ∧ front = [] ∧ token = product first ∨
    ∃ further, front = implication first rest ++ further ∧ others = further ++ token :: back := by
  rcases implication_eq first rest with none | ⟨number, one⟩
  · rw [none] at split ⊢
    exact .inr ⟨front, rfl, split⟩
  · rw [one] at split ⊢
    cases front with
    | nil =>
      obtain ⟨rfl, -⟩ := List.cons.inj split
      exact .inl ⟨number, rfl, rfl⟩
    | cons head front =>
      obtain ⟨rfl, further⟩ := List.cons.inj split
      exact .inr ⟨front, rfl, further⟩

theorem implyProducts_apart {offset : Int} (apart : Apart text offset (tokens ++ [finish])) :
    Apart text offset (implyProducts tokens ++ [finish]) := by
  induction tokens generalizing offset with
  | nil => exact apart
  | cons first rest ih =>
    obtain ⟨skips, others⟩ := apart
    have behind := ih others
    rw [implyProducts_cons, List.cons_append, List.append_assoc]
    refine ⟨skips, ?_⟩
    rcases implication_eq first rest with none | ⟨-, one⟩
    · rw [none]
      exact behind
    · rw [one]
      refine ⟨?_, behind⟩
      have nothing : stretch text first.span.stop first.span.stop = [] :=
        List.drop_eq_nil_of_le (List.length_take_le ..)
      exact nothing ▸ .nothing

theorem Written.apart_product {number : Token} (written : Written text token) : token ≠ product number := by
  rintro rfl
  exact absurd written.filled (Int.lt_irrefl _)

theorem Written.unfinished (written : Written text token) : token.kind ≠ .finish := by
  intro finished
  rcases written.classified.other with kind | kind | kind | ⟨sign, kind, -⟩ <;> cases finished.symm.trans kind

theorem Strung.written (strung : Strung passed ahead tokens) (member : token ∈ tokens) :
    Written (passed ++ ahead) token := by
  obtain ⟨before, lexeme, behind, same, placed⟩ := strung.placed member
  exact same ▸ placed.written

theorem Strung.counted (strung : Strung passed ahead tokens) (member : token ∈ implyProducts tokens) :
    Counts (passed ++ ahead) token := by
  rcases mem_implyProducts member with given | ⟨number, given, kind, rfl⟩
  · obtain ⟨before, lexeme, behind, same, placed⟩ := strung.placed given
    exact same ▸ placed.counts
  · obtain ⟨before, lexeme, behind, same, placed⟩ := strung.placed given
    exact same ▸ placed.counts_product kind

theorem Strung.unfinished (strung : Strung passed ahead tokens) (member : token ∈ implyProducts tokens) :
    token.kind ≠ .finish := by
  rcases mem_implyProducts member with given | ⟨number, given, kind, rfl⟩
  · exact (strung.written given).unfinished
  · exact nofun

theorem only_finish {front back : List Token} (split : [finish] = front ++ token :: back) : token = finish := by
  have member : token ∈ [finish] := by simp [split]
  exact List.mem_singleton.mp member

/-- A token is written unless it is the end, or the product behind a number. -/
theorem implyProducts_written {front back : List Token} (all : ∀ token ∈ tokens, Written text token)
    (ends : finish.kind = .finish) (split : implyProducts tokens ++ [finish] = front ++ token :: back) :
    token.kind = .finish ∨ Written text token ∨
      ∃ earlier number, front = earlier ++ [number] ∧ number.kind = .number ∧ token = product number := by
  induction tokens generalizing front with
  | nil =>
    rw [only_finish split]
    exact .inl ends
  | cons first rest ih =>
    rw [implyProducts_cons, List.cons_append, List.append_assoc] at split
    cases front with
    | nil =>
      obtain ⟨rfl, -⟩ := List.cons.inj split
      exact .inr (.inl (all first List.mem_cons_self))
    | cons head front =>
      obtain ⟨rfl, further⟩ := List.cons.inj split
      rcases implication_split further with ⟨kind, rfl, rfl⟩ | ⟨others, rfl, same⟩
      · exact .inr (.inr ⟨[], first, rfl, kind, rfl⟩)
      · rcases ih (fun token member => all token (List.mem_cons_of_mem _ member)) same with
          ended | written | ⟨earlier, number, rfl, kind, implied⟩
        · exact .inl ended
        · exact .inr (.inl written)
        · exact .inr (.inr ⟨first :: (implication first rest ++ earlier), number, by simp, kind, implied⟩)

/-- A product stands behind a number exactly if a letter does. -/
theorem Strung.products {front back : List Token} {number : Token} (strung : Strung passed ahead tokens)
    (ends : finish.kind = .finish) (split : implyProducts tokens ++ [finish] = front ++ number :: back)
    (kind : number.kind = .number) :
    BeforeLetter (passed ++ ahead) number ↔ ∃ others, back = product number :: others := by
  induction strung generalizing front with
  | done =>
    rw [only_finish split, ends] at kind
    cases kind
  | @token passed gap lexeme behind first rest skips placed further ih =>
    rw [implyProducts_cons, List.cons_append, List.append_assoc] at split
    cases front with
    | cons head front =>
      obtain ⟨rfl, later⟩ := List.cons.inj split
      rcases implication_split later with ⟨-, -, rfl⟩ | ⟨others, -, same⟩
      · cases kind
      · simpa using ih same
    | nil =>
      obtain ⟨rfl, same⟩ := List.cons.inj split
      rw [← List.append_assoc passed]
      rcases placed.implication further with ⟨-, letter, one⟩ | ⟨neither, none⟩
      · rw [one] at same
        exact iff_of_true letter ⟨_, same.symm⟩
      · rw [none] at same
        refine iff_of_false (fun letter => neither ⟨kind, letter⟩) ?_
        rintro ⟨others, rfl⟩
        -- What follows is the end or written, and a product is neither.
        have behind : implyProducts rest ++ [finish] = [] ++ product first :: others := same
        rcases implyProducts_written (fun token => further.written) ends behind with ended | written | ⟨_, _, nowhere, _⟩
        · cases ended
        · exact written.apart_product rfl
        · simp at nowhere

end Products

theorem scan_strung {text : List Char} {tokens : List Token} (read : scan text = .ok tokens) :
    ∃ body, Strung [] text body ∧ tokens = implyProducts body ++ [implied .finish (1 + lineFeeds text) text.length] := by
  unfold scan at read
  cases scanned : written 0 0 1 text with
  | error failure => simp [scanned, bind, Except.bind] at read
  | ok body =>
    simp only [scanned, bind, Except.bind, pure, Except.pure, Except.ok.injEq] at read
    have strung : Strung ([] ++ text.take 0) (text.drop 0) body := written_strung scanned (Nat.zero_le _) rfl rfl
    rw [List.take_zero, List.append_nil, List.drop_zero] at strung
    exact ⟨body, strung, read.symm⟩

/-- The tokens of a text are what its characters say. -/
theorem scan_lexed {text : List Char} {tokens : List Token} (read : scan text = .ok tokens) : Lexed text tokens := by
  have ordered := scan_within read
  obtain ⟨body, strung, rfl⟩ := scan_strung read
  refine ⟨⟨_, _, rfl, rfl, rfl, fun token => strung.unfinished⟩, ordered, ?_, ?_, ?_, ?_⟩
  · exact implyProducts_apart (strung.apart rfl)
  · exact fun front token back => implyProducts_written (fun token => strung.written) rfl
  · exact fun front number back => strung.products rfl
  · intro token member
    rcases List.mem_append.mp member with early | last
    · exact strung.counted early
    · rw [List.mem_singleton.mp last, Counts]
      simp [implied]

theorem scan_lexed_comment : ∃ tokens, scan "2x // y\n<= 1.5".toList = .ok tokens ∧
    tokens.map (·.kind) = [.number, .mark .star, .name, .mark .lessEqual, .number, .finish] ∧
    tokens.map (·.line) = [1, 1, 1, 2, 2, 2] ∧ Lexed "2x // y\n<= 1.5".toList tokens :=
  ⟨_, rfl, rfl, rfl, scan_lexed rfl⟩

end Reckoner.Proofs.TokenLexemes
