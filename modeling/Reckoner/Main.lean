import Reckoner.Command

/-! The program on a real system: reads the arguments and the program file, and writes
what the run shows. There is no window system here, so windows stay unseen. -/

namespace Reckoner

/-- What the system says about a file that cannot be read. Its code 21 stands for a
directory in place of a file, and 36, which may come negated, for a name too long. -/
def unreadable : IO.Error → Command.Unreadable
  | .noFileOrDirectory .. => .missing
  | .noSuchThing .. => .missing
  | .inappropriateType _ code _ => if code = 21 then .isDirectory else .notDirectory
  | .invalidArgument _ code details => if code = 36 || code = 0 - 36 then .nameTooLong else .other details
  | error => .other (toString error)

def readSource (name : String) : IO Command.Source := do
  let home := Command.Path.parse (← IO.currentDir).toString
  let path := Command.programPath home name
  let contents ← (IO.FS.readBinFile path.text).toBaseIO
  return ⟨name, path.text, (contents.mapError unreadable).map (·.toList)⟩

def randomPicks : IO (List Int) :=
  (List.range 3).mapM fun _ => do return Int.ofNat (← IO.rand 0 1000000)

def write (transcript : Command.Transcript) : IO UInt32 := do
  for (stream, text) in transcript.writes do
    match stream with
    | .stdout => (← IO.getStdout).putStr text
    | .stderr => (← IO.getStderr).putStr text
  match transcript.status with
  | .returned => return 0
  | .exited code => return code.toUInt32
  | .broken fault =>
    (← IO.getStderr).putStrLn fault.message
    return 1

end Reckoner

open Reckoner in
def main (arguments : List String) : IO UInt32 := do
  match Command.plan arguments with
  | .error transcript => write transcript
  | .ok request =>
    let source ← request.program.mapM readSource
    write (request.perform source (← randomPicks) [])
