/-! Program files. A path names a file by the directories on the way to it. Reading a
path walks through them one by one, and tells what is in the way. -/

namespace Reckoner.Command

/-- A path as it is written: absolute or not, and its steps without the empty ones and
those that stay where they are. -/
structure Path where
  /-- What an absolute path begins with; two slashes, but not more, are kept apart. -/
  anchor : Option String
  steps : List String
  deriving DecidableEq

namespace Path

def parse (text : String) : Path :=
  let slashes := (text.toList.takeWhile (· == '/')).length
  let anchor :=
    if slashes = 0 then none else if slashes = 2 then some "//" else some "/"
  ⟨anchor, (text.splitOn "/").filter fun step => step ≠ "" ∧ step ≠ "."⟩

/-- A path as seen from a directory: an absolute one stands for itself. -/
def within (directory path : Path) : Path :=
  match path.anchor with
  | some _ => path
  | none => ⟨directory.anchor, directory.steps ++ path.steps⟩

def text (path : Path) : String := path.anchor.getD "" ++ "/".intercalate path.steps

end Path

/-- Why a file cannot be read. -/
inductive Unreadable where
  | missing
  | isDirectory
  | notDirectory
  | nameTooLong
  /-- Whatever else the system has to say. -/
  | other (message : String)
  deriving DecidableEq

def Unreadable.message : Unreadable → String
  | .missing => "No such file or directory"
  | .isDirectory => "Is a directory"
  | .notDirectory => "Not a directory"
  | .nameTooLong => "File name too long"
  | .other message => message

/-- Files by the steps that lead to them from the root, and a directory to start from. -/
structure Files where
  home : List String
  contents : List (List String × List UInt8)

namespace Files

def file? (files : Files) (steps : List String) : Option (List UInt8) := files.contents.lookup steps

/-- Every directory on the way to a file, or home, exists. -/
def isDirectory (files : Files) (steps : List String) : Bool :=
  steps.isPrefixOf files.home ||
    files.contents.any fun file => steps.isPrefixOf file.1 && steps != file.1

/-- The most bytes a step of a path may have. -/
def longestStep : Nat := 255

/-- The most bytes a path may have. -/
def longestPath : Nat := 4095

/-- Walks on from where some steps have led. -/
def walk (files : Files) (here : List String) : List String → Except Unreadable (List String)
  | [] => .ok here
  | step :: rest =>
    if !files.isDirectory here then .error .notDirectory
    else if step.utf8ByteSize > longestStep then .error .nameTooLong
    else
      let next := if step = ".." then here.dropLast else here ++ [step]
      if files.isDirectory next || (files.file? next).isSome then files.walk next rest
      else .error .missing

def read (files : Files) (path : Path) : Except Unreadable (List UInt8) := do
  if path.text.utf8ByteSize > longestPath then .error .nameTooLong
  else
    let found ← files.walk [] path.steps
    match files.file? found with
    | some bytes => return bytes
    | none => .error .isDirectory

end Files

end Reckoner.Command
