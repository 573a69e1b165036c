import Reckoner.Failure
import Reckoner.Number.Spelling
import Reckoner.Token

/-! From text to tokens. The lexicon says what stands at the front of a text and how far
it reaches; it always takes the longest piece there is. White space and comments are
skipped. A number directly followed by a word gets a product in between, so `2x`
scans like `2*x`. -/

namespace Reckoner.Token

def isSpace (c : Char) : Bool := c == ' ' || c == '\t' || c == '\r' || c == '\n'

def isDigit (c : Char) : Bool := decide ('0' ≤ c) && decide (c ≤ '9')

def isLetter (c : Char) : Bool :=
  decide ('A' ≤ c) && decide (c ≤ 'Z') || decide ('a' ≤ c) && decide (c ≤ 'z') || c == '_'

def isWordCharacter (c : Char) : Bool := isLetter c || isDigit c

/-- The mark that a single character makes. -/
def markOf? (c : Char) : Option Mark := Mark.all.find? fun mark => mark.glyph.toList == [c]

/-- The sort of piece that the front of a text makes. -/
inductive Piece where
  | skipped
  | lexeme (kind : Kind)
  | stray
  deriving DecidableEq

/-- The reserved words, and names. -/
def wordKind (word : List Char) : Kind := if word = "print".toList then .print else .name

/-- How many characters a fraction takes: the point and the digits behind it, or nothing. -/
def fractionLength : List Char → Nat
  | '.' :: rest =>
    let digits := (rest.takeWhile isDigit).length
    if digits = 0 then 0 else digits + 1
  | _ => 0

/-- The longest piece at the front of a text, and how many characters it takes after the
first one. -/
def lexicon (c : Char) (rest : List Char) : Piece × Nat :=
  if isSpace c then (.skipped, (rest.takeWhile isSpace).length)
  else if isDigit c then
    let whole := (rest.takeWhile isDigit).length
    (.lexeme .number, whole + fractionLength (rest.drop whole))
  else if isLetter c then
    let further := rest.takeWhile isWordCharacter
    (.lexeme (wordKind (c :: further)), further.length)
  else
    match c, rest with
    | '/', '/' :: comment => (.skipped, (comment.takeWhile (· != '\n')).length + 1)
    | '<', '=' :: _ => (.lexeme (.mark .lessEqual), 1)
    | '>', '=' :: _ => (.lexeme (.mark .greaterEqual), 1)
    | _, _ =>
      match markOf? c with
      | some mark => (.lexeme (.mark mark), 0)
      | none => (.stray, 0)

/-- The value a lexeme of the given kind carries. -/
def literalOf (kind : Kind) (lexeme : List Char) : Option Float :=
  if kind = .number then
    some (Number.ofDecimal (lexeme.takeWhile isDigit) ((lexeme.dropWhile isDigit).drop 1))
  else none

/-- How far a character moves the line number. Only line feeds count. -/
def lineStep (c : Char) : Nat := if c = '\n' then 1 else 0

def lineFeeds (chars : List Char) : Nat := chars.count '\n'

/-- The written tokens of a text that starts at the given offset and line, up to the
first stray character. So many characters at the front belong to a piece already taken. -/
def written (taken offset line : Nat) : List Char → Except Failure (List Token)
  | [] => .ok []
  | c :: rest =>
    match taken with
    | taken + 1 => written taken (offset + 1) (line + lineStep c) rest
    | 0 =>
      let (piece, further) := lexicon c rest
      let span : Span := ⟨offset, (offset + 1 + further : Nat)⟩
      match piece with
      | .stray => .error { cause := .strayCharacter c line, site := some span }
      | .skipped => written further (offset + 1) (line + lineStep c) rest
      | .lexeme kind =>
        let lexeme := c :: rest.take further
        match written further (offset + 1) (line + lineStep c) rest with
        | .error failure => .error failure
        | .ok others => .ok (⟨kind, String.ofList lexeme, literalOf kind lexeme, line, span⟩ :: others)

/-- Whether a number and the word right behind it are to be multiplied. -/
def impliesProduct (left right : Token) : Bool :=
  left.kind == .number && (right.kind == .name || right.kind == .print) &&
    left.span.stop == right.span.start

def implyProducts : List Token → List Token
  | left :: right :: rest =>
    if impliesProduct left right then
      left :: implied (.mark .star) left.line left.span.stop :: implyProducts (right :: rest)
    else left :: implyProducts (right :: rest)
  | tokens => tokens

/-- All tokens of a text, the last of which marks its end. -/
def scan (text : List Char) : Except Failure (List Token) := do
  let tokens ← written 0 0 1 text
  return implyProducts tokens ++ [implied .finish (1 + lineFeeds text) text.length]

end Reckoner.Token
