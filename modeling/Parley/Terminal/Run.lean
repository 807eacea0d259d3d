import Parley.Files
import Parley.Json.Graph
import Parley.Report.Basic
import Parley.Script.Writer
import Parley.Terminal.Listing
import Parley.Terminal.Play
import Parley.Terminal.Task

/-!
# Running a task

The four tasks of the command line: to check scripts, to list the dialogues of one, to write it
in its normal form, and to play it.
-/

namespace Parley

/-! ### Loading a script -/

namespace Terminal

def plural (n : Nat) (noun : String) : String :=
  if n = 1 then s!"{n} {noun}" else s!"{n} {noun}s"

/-- The reports of all diagnostics, and how many there are. -/
def diagnosticsText (path source : String) (ds : List Diagnostic) : String :=
  if ds.isEmpty then ""
  else
    let errors := (ds.filter Diagnostic.isError).length
    let counts := [plural errors "error", plural (ds.length - errors) "warning"]
    String.ofList (Report.ofDiagnostics path source.toList ds) ++
      "  " ++ ", ".intercalate counts ++ "\n"

/-- How a script that cannot be loaded is spoken of: a fault in it names the file. -/
def loadErrorText (path : String) : LoadError → String
  | .refused error => s!"{path}: {error.message}"
  | error => error.message

/-- The store of a script, or why there is none, and the text of its diagnostics. -/
def loadScript (files : Files) (reg : Registry) (path : String) :
    Except String Store × String :=
  match files.text path, Store.load files reg path with
  | .ok source, .ok store => (.ok store, diagnosticsText path source store.diagnostics)
  | .error error, _ => (.error (loadErrorText path error), "")
  | _, .error error => (.error (loadErrorText path error), "")

/-- The registry of a speaker file; without a file every name is a speaker. -/
def loadSpeakers (files : Files) : Option String → Except String Registry
  | none => .ok .implicitly
  | some path => (Registry.load files path).mapError LoadError.message

/-! ### Tasks -/

/-- A script is clean when reading it dropped nothing. -/
def checkFile (files : Files) (reg : Registry) (path : String) : Output × Bool :=
  let (store, diagnostics) := loadScript files reg path
  match store with
  | .error message => (⟨"", diagnostics ++ s!"  failed {message}\n"⟩, false)
  | .ok store =>
      if store.diagnostics.any Diagnostic.isError then
        (⟨"", diagnostics ++ s!"  failed {path} has errors\n"⟩, false)
      else (⟨s!"  ok {path} ({store.size} dialogues)\n", diagnostics⟩, true)

/-- Checks scripts one after another, and fails if any of them did. -/
def check (files : Files) (reg : Registry) (paths : List String) : Output × Ending :=
  let results := paths.map (checkFile files reg)
  let output := results.foldl (fun output result => output ++ result.1) {}
  let failed := (results.filter fun result => !result.2).length
  if failed = 0 then (output ++ ⟨"  All checks passed.\n", ""⟩, .done)
  else (output, .failed s!"{failed} of {paths.length} scripts failed")

/-- A task on one script: what it does with the store once that is loaded. -/
def onScript (files : Files) (reg : Registry) (path : String)
    (act : Store → String × Ending) : Output × Ending :=
  let (store, diagnostics) := loadScript files reg path
  match store with
  | .error message => (⟨"", diagnostics⟩, .failed message)
  | .ok store => let (out, ending) := act store; (⟨out, diagnostics⟩, ending)

def dumpText (json : Bool) (s : Store) : String :=
  if json then
    String.ofList (Json.pretty 0 (.array (s.dialogues.map Dialogue.toJson))) ++ "\n"
  else Script.write s.dialogues

/-- The conversation that a script is played in. -/
def talk (s : Store) (vars : Variables) (seed : Option UInt64) (entropy : UInt64) :
    Conversation :=
  { (Conversation.new { seed } entropy).addStore s with
    vars
    commands := Play.commands }

/-- The session that plays a dialogue, before the player has typed anything. -/
def session (s : Store) (file key : String) (settings : List String) (seed : Option UInt64)
    (entropy : UInt64) : Except String Session :=
  match Play.applySettings {} settings with
  | .error fault => .error fault.message
  | .ok vars => .ok (.start (talk s vars seed entropy) key file)

/-- Plays a dialogue to the end of the input. -/
def play (s : Store) (file key : String) (settings : List String) (seed : Option UInt64)
    (entropy : UInt64) (input : List String) : String × Ending :=
  match session s file key settings seed entropy with
  | .error message => ("", .failed message)
  | .ok session =>
      let session := session.play input
      (session.screen, session.ending)

/-- The files that a task reads. -/
def invokedFiles (i : Invocation) : List String :=
  i.speakers.toList ++
    match i.task with
    | .check paths => paths
    | .keys path | .dump path _ | .play path _ _ _ => [path]

/-- Runs a task. `entropy` is used where a random pick has no seed. -/
def perform (files : Files) (entropy : UInt64) (input : List String) (i : Invocation) :
    Output × Ending :=
  match loadSpeakers files i.speakers with
  | .error message => ({}, .failed message)
  | .ok reg =>
      match i.task with
      | .check paths => check files reg paths
      | .keys path => onScript files reg path fun s => (Listing.text s.dialogues, .done)
      | .dump path json => onScript files reg path fun s => (dumpText json s, .done)
      | .play path key settings seed =>
          onScript files reg path fun s => play s path key settings seed entropy input

/-- Runs what a command line asks for, on all of the input. -/
def run (files : Files) (entropy : UInt64) (input : List String) (words : List String) :
    Output × Ending :=
  match Invocation.read? words with
  | none => ({}, .misused)
  | some i => perform files entropy input i

end Terminal

end Parley
