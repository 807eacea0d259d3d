import Parley.Terminal.Run

/-!
# The command line

Reads the files a task names and writes what the task writes. While a dialogue is played, every
line of the player is answered at once.
-/

open Parley Terminal

namespace Parley.Terminal

/-- A path through a file fails when it is opened, and its fault names it; a folder fails when it
is read. -/
def readFault : IO.Error → ReadFault
  | .noFileOrDirectory _ _ _ => .missing
  | .inappropriateType (some _) _ _ => .notFolder
  | .inappropriateType none _ _ => .isFolder
  | error => .other (toString error)

def readFile (path : String) : IO (String × Except ReadFault String) := do
  try
    return (path, .ok (← IO.FS.readFile path))
  catch error =>
    return (path, .error (readFault error))

/-- Reads each path once. What is not among them counts as missing. -/
def readFiles (paths : List String) : IO Files := do
  let contents ← paths.mapM readFile
  return fun path => (contents.lookup path).getD (.error .missing)

def readEntropy : IO UInt64 := do
  let bytes ← IO.getRandomBytes 8
  return bytes.foldl (fun n b => n * 256 + b.toUInt64) 0

/-- Writes what is left to be written, and gives the number to leave behind. -/
def finish (output : Output) (ending : Ending) : IO UInt32 := do
  (← IO.getStdout).putStr output.out
  (← IO.getStderr).putStr (output.err ++ ending.text)
  return ending.code.toUInt32

/-- Writes what is on the screen, and leaves the screen empty. -/
def showScreen (s : Session) : IO Session := do
  let stdout ← IO.getStdout
  stdout.putStr s.screen
  stdout.flush
  return { s with screen := "" }

/-- Asks and answers, line by line, as long as the conversation lasts and there are lines. -/
partial def converse (s : Session) : IO Session := do
  if !s.isOpen then return s
  let s ← showScreen (s.print s.prompt)
  let line ← (← IO.getStdin).getLine
  if line.isEmpty then return s
  converse (s.answer (String.ofList ((Text.lines line.toList).headD [])))

/-- Plays a dialogue while the player is typing: what is on the screen is written before each line
is read. -/
def playLive (files : Files) (reg : Registry) (path key : String) (settings : List String)
    (seed : Option UInt64) : IO UInt32 := do
  let entropy ← readEntropy
  let (store, diagnostics) := loadScript files reg path
  (← IO.getStderr).putStr diagnostics
  match store.bind fun s => session s path key settings seed entropy with
  | .error message => finish {} (.failed message)
  | .ok s =>
      let s ← showScreen (← converse s).finish
      finish {} s.ending

end Parley.Terminal

def main (words : List String) : IO UInt32 := do
  match Invocation.read? words with
  | none => finish {} .misused
  | some i =>
      let files ← readFiles (invokedFiles i)
      match i.task, loadSpeakers files i.speakers with
      | .play path key settings seed, .ok reg => playLive files reg path key settings seed
      | _, _ =>
          let (output, ending) := perform files 0 [] i
          finish output ending
