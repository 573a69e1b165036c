import Reckoner.Text.Digit
import Reckoner.Text.Quoted

/-! The words of a command line. Each word is first looked at on its own: it is an option,
or a value, or it separates the options from values that look like options. Then the
words are taken in order, options with the values that belong to them. Options may be
shortened as long as they stay unambiguous, and one-letter options may share a dash. -/

namespace Reckoner.Command

inductive Flag where
  | help
  | expression
  | plot
  | verbose
  deriving DecidableEq

namespace Flag

def all : List Flag := [.help, .expression, .plot, .verbose]

def letter : Flag → Char
  | .help => 'h'
  | .expression => 'e'
  | .plot => 'p'
  | .verbose => 'v'

def word : Flag → String
  | .help => "help"
  | .expression => "expression"
  | .plot => "plot"
  | .verbose => "verbose"

def short (flag : Flag) : List Char := ['-', flag.letter]

def long (flag : Flag) : List Char := '-' :: '-' :: flag.word.toList

/-- Both spellings, as messages give them. -/
def title (flag : Flag) : String := String.ofList (flag.short ++ '/' :: flag.long)

def takesValue : Flag → Bool
  | .expression | .plot => true
  | .help | .verbose => false

def ofLetter? (letter : Char) : Option Flag := all.find? fun flag => flag.letter == letter

/-- A flag spelled out in full, and whether it is the long spelling. -/
def spelled? (chars : List Char) : Option (Flag × Bool) :=
  match all.find? fun flag => flag.short == chars with
  | some flag => some (flag, false)
  | none => (all.find? fun flag => flag.long == chars).map fun flag => (flag, true)

end Flag

/-- How plots are drawn. -/
inductive Drawing where
  | hidden
  | text
  | window
  deriving DecidableEq

namespace Drawing

def all : List Drawing := [.hidden, .text, .window]

def word : Drawing → String
  | .hidden => "none"
  | .text => "text"
  | .window => "window"

end Drawing

/-- Why a command line is not carried out. -/
inductive Refusal where
  /-- Somebody asked for help. -/
  | help
  | ambiguous (word : String) (options : List String)
  | valueMissing (flag : Flag)
  | valueUnwanted (flag : Flag) (value : String)
  | unknownDrawing (value : String)
  | unrecognized (words : List String)
  | nothingToDo
  deriving DecidableEq

namespace Refusal

def message : Refusal → String
  | .help => ""
  | .ambiguous word options => "ambiguous option: " ++ word ++ " could match " ++ ", ".intercalate options
  | .valueMissing flag => "argument " ++ flag.title ++ ": expected one argument"
  | .valueUnwanted flag value =>
    "argument " ++ flag.title ++ ": ignored explicit argument " ++ Text.quoted value
  | .unknownDrawing value =>
    "argument " ++ Flag.plot.title ++ ": invalid choice: " ++ Text.quoted value ++ " (choose from " ++
      ", ".intercalate (Drawing.all.map fun drawing => Text.quoted drawing.word) ++ ")"
  | .unrecognized words => "unrecognized arguments: " ++ " ".intercalate words
  | .nothingToDo => "Give a program file or at least one expression."

end Refusal

/-- What a single word is. -/
inductive Word where
  | value (text : String)
  | separator
  /-- An option, perhaps with text attached to it within its word. -/
  | option (flag : Flag) (long : Bool) (attached : Option (List Char))
  | unknown (text : String)
  deriving DecidableEq

/-- Digits with an optional fraction; a line feed at the very end does not count. -/
def looksNegative (word : List Char) : Bool :=
  let body := if word.getLast? = some '\n' then word.dropLast else word
  match body with
  | '-' :: rest =>
    let whole := rest.takeWhile Text.isDecimalDigit
    match rest.dropWhile Text.isDecimalDigit with
    | [] => !whole.isEmpty
    | '.' :: fraction => !fraction.isEmpty && fraction.all Text.isDecimalDigit
    | _ => false
  | _ => false

/-- Splits at the first equals sign. -/
def splitEquals (word : List Char) : List Char × Option (List Char) :=
  let name := word.takeWhile (· != '=')
  match word.dropWhile (· != '=') with
  | _ :: text => (name, some text)
  | [] => (name, none)

/-- A word with a dash that spells no option: it may still be meant as a value. -/
def dashed (word : String) : Word :=
  if looksNegative word.toList || word.toList.contains ' ' then .value word else .unknown word

/-- A word with two dashes may be the beginning of an option. -/
def shortened (word : String) (name : List Char) (attached : Option (List Char)) : Except Refusal Word :=
  match Flag.all.filter fun flag => name.isPrefixOf flag.long with
  | [] => .ok (dashed word)
  | [flag] => .ok (.option flag true attached)
  | flags => .error (.ambiguous word (flags.map fun flag => String.ofList flag.long))

def classify (word : String) : Except Refusal Word :=
  match word.toList with
  | '-' :: c :: rest =>
    match Flag.spelled? ('-' :: c :: rest) with
    | some (flag, long) => .ok (.option flag long none)
    | none =>
      let (name, attached) := splitEquals ('-' :: c :: rest)
      match Flag.spelled? name, attached with
      | some (flag, long), some attached => .ok (.option flag long (some attached))
      | _, _ =>
        if c = '-' then shortened word name attached
        else match Flag.ofLetter? c with
          | some flag => .ok (.option flag false (some rest))
          | none => .ok (dashed word)
  | _ => .ok (.value word)

/-- Looks at every word. What follows the first separator is a value whatever it looks like. -/
def classifyAll : List String → Except Refusal (List Word)
  | [] => .ok []
  | word :: rest =>
    if word = "--" then .ok (.separator :: rest.map .value)
    else do
      let first ← classify word
      let others ← classifyAll rest
      return first :: others

/-- What a command line asks for. -/
structure Request where
  program : Option String
  /-- An expression may lack its text. -/
  expressions : List (Option String)
  drawing : Drawing
  verbosity : Nat
  deriving DecidableEq

/-- A command line as far as it has been taken in. -/
structure Progress where
  request : Request
  /-- The place of the program has been taken, be it by nothing. -/
  placed : Bool
  extras : List String

namespace Progress

def start : Progress := ⟨⟨none, [], .text, 0⟩, false, []⟩

/-- Two dashes never are a value. Attached to an option they leave it without one. -/
def given (value : String) : Option String := if value = "--" then none else some value

/-- Nothing is drawn without a word for it. -/
def chosen (value : Option String) : Except Refusal Drawing :=
  match value with
  | none => .ok .hidden
  | some word =>
    match Drawing.all.find? fun drawing => drawing.word == word with
    | some drawing => .ok drawing
    | none => .error (.unknownDrawing word)

/-- Carries out one option; those without a value ignore it. -/
def perform (progress : Progress) (flag : Flag) (value : String) : Except Refusal Progress :=
  let request := progress.request
  match flag with
  | .help => .error .help
  | .expression =>
    .ok { progress with request := { request with expressions := request.expressions ++ [given value] } }
  | .plot => (chosen (given value)).map fun drawing => { progress with request := { request with drawing } }
  | .verbose => .ok { progress with request := { request with verbosity := request.verbosity + 1 } }

def performAll (progress : Progress) (actions : List (Flag × String)) : Except Refusal Progress :=
  actions.foldlM (fun progress action => progress.perform action.1 action.2) progress

def leaveOver (progress : Progress) (word : String) : Progress :=
  { progress with extras := progress.extras ++ [word] }

def place (progress : Progress) (program : Option String) : Progress :=
  { progress with request := { progress.request with program }, placed := true }

end Progress

/-- The options that share one word. -/
structure Bundle where
  actions : List (Flag × String)
  /-- The last option still waits for its value. -/
  waiting : Option Flag

/-- Takes apart the letters behind a one-letter option that has no value: each is an
option of its own, and the first one with a value takes the rest. A letter that is no
option can only be meant as a value of the option before it. -/
def letters (flag : Flag) : List Char → Except Refusal Bundle
  | [] => .ok ⟨[(flag, "")], none⟩
  | c :: rest =>
    match Flag.ofLetter? c with
    | none => .error (.valueUnwanted flag (String.ofList (c :: rest)))
    | some next =>
      if next.takesValue then
        if rest.isEmpty then .ok ⟨[(flag, "")], some next⟩
        else .ok ⟨[(flag, ""), (next, String.ofList rest)], none⟩
      else
        match letters next rest with
        | .error refusal => .error refusal
        | .ok others => .ok { others with actions := (flag, "") :: others.actions }

/-- Takes apart one word: an option with what is attached to it. -/
def bundle (flag : Flag) (long : Bool) (attached : Option (List Char)) : Except Refusal Bundle :=
  match attached with
  | none => .ok (if flag.takesValue then ⟨[], some flag⟩ else ⟨[(flag, "")], none⟩)
  | some text =>
    if flag.takesValue then .ok ⟨[(flag, String.ofList text)], none⟩
    else if long || text.isEmpty then .error (.valueUnwanted flag (String.ofList text))
    else letters flag text

/-- Takes the words in order. The first value is the program, and a separator beside it
belongs to it. -/
def assemble (progress : Progress) : List Word → Except Refusal Progress
  | [] => .ok progress
  | .unknown text :: rest => assemble (progress.leaveOver text) rest
  | .value text :: rest =>
    if progress.placed then assemble (progress.leaveOver text) rest
    else match rest with
      | .separator :: rest => assemble (progress.place (some text)) rest
      | rest => assemble (progress.place (some text)) rest
  | .separator :: rest =>
    if progress.placed then assemble (progress.leaveOver "--") rest
    else match rest with
      | .value text :: rest => assemble (progress.place (some text)) rest
      | rest => assemble (progress.place none) rest
  | .option flag long attached :: rest =>
    match bundle flag long attached with
    | .error refusal => .error refusal
    | .ok options =>
      match options.waiting, rest with
      | some flag, .value text :: rest =>
        match progress.performAll (options.actions ++ [(flag, text)]) with
        | .error refusal => .error refusal
        | .ok after => assemble after rest
      | some flag, _ => .error (.valueMissing flag)
      | none, rest =>
        match progress.performAll options.actions with
        | .error refusal => .error refusal
        | .ok after => assemble after rest

/-- Reads a command line. An empty program name is no program. -/
def Request.ofArguments (arguments : List String) : Except Refusal Request := do
  let words ← classifyAll arguments
  let taken ← assemble .start words
  if !taken.extras.isEmpty then .error (.unrecognized taken.extras)
  else
    let request := { taken.request with program := taken.request.program.filter (· ≠ "") }
    if request.program.isNone && request.expressions.isEmpty then .error .nothingToDo
    else return request

end Reckoner.Command
