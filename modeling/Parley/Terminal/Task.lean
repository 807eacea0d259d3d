import Parley.Decimal.Read

/-!
# Tasks

What the command line asks for. A task has a name, operands and options, in any order behind the
name. An option is a word after two hyphens or a letter after one; letters may share a hyphen,
and a value stands behind its option, with an equals sign between them or apart.
-/

namespace Parley

/-- A task with its operands and the values of its options. -/
inductive Task where
  | check (files : List String)
  | keys (file : String)
  | dump (file : String) (json : Bool)
  | play (file key : String) (settings : List String) (seed : Option UInt64)
deriving DecidableEq, Repr

/-- A task and the speaker file it goes by. -/
structure Invocation where
  task : Task
  speakers : Option String
deriving DecidableEq, Repr

namespace Task

/-- The options of all tasks. -/
inductive Switch where
  | verbose
  | speakers
  | json
  | set
  | seed
deriving DecidableEq, Repr

def Switch.word : Switch → List Char
  | .verbose => ['v', 'e', 'r', 'b', 'o', 's', 'e']
  | .speakers => ['s', 'p', 'e', 'a', 'k', 'e', 'r', 's']
  | .json => ['j', 's', 'o', 'n']
  | .set => ['s', 'e', 't']
  | .seed => ['s', 'e', 'e', 'd']

def Switch.letter : Switch → Option Char
  | .verbose => some 'v'
  | .speakers => some 's'
  | _ => none

/-- Whether an option stands with a value. -/
def Switch.takesValue : Switch → Bool
  | .speakers | .set | .seed => true
  | .verbose | .json => false

/-- A piece of a command line: an operand, or an option with its value. -/
inductive Piece where
  | operand (word : String)
  | option (switch : Switch) (value : String)
deriving DecidableEq, Repr

/-- What one word of the command line holds. -/
inductive Reading where
  | whole (pieces : List Piece)
  /-- The last option still lacks its value. -/
  | lacking (pieces : List Piece) (switch : Switch)
  /-- No options follow. -/
  | lastOption
  | refused

def Reading.after (piece : Piece) : Reading → Reading
  | .whole pieces => .whole (piece :: pieces)
  | .lacking pieces switch => .lacking (piece :: pieces) switch
  | r => r

/-- The letters behind a single hyphen. -/
def readLetters (switches : List Switch) : List Char → Reading
  | [] => .whole []
  | c :: cs =>
      match switches.find? fun s => s.letter = some c with
      | none => .refused
      | some s =>
          if s.takesValue then
            match cs with
            | [] => .lacking [] s
            | '=' :: value => .whole [.option s (String.ofList value)]
            | value => .whole [.option s (String.ofList value)]
          else (readLetters switches cs).after (.option s "")

/-- What follows two hyphens. -/
def readLong (switches : List Switch) (cs : List Char) : Reading :=
  let word := cs.takeWhile (· ≠ '=')
  match switches.find? fun s => s.word = word, cs.dropWhile (· ≠ '=') with
  | none, _ => .refused
  | some s, [] => if s.takesValue then .lacking [] s else .whole [.option s ""]
  | some s, _ :: value =>
      if s.takesValue then .whole [.option s (String.ofList value)] else .refused

/-- A lone hyphen is an operand. -/
def isOption : List Char → Bool
  | '-' :: _ :: _ => true
  | _ => false

/-- Tells what a word of the command line is by its hyphens. -/
def readWord (switches : List Switch) (word : String) : Reading :=
  match word.toList with
  | ['-', '-'] => .lastOption
  | '-' :: '-' :: cs => readLong switches cs
  | '-' :: c :: cs => readLetters switches (c :: cs)
  | _ => .whole [.operand word]

/-- Reads the words of a command line, as long as all of them make sense. Where an option lacks its
value the next word is the value, unless that is an option. -/
def readPieces (switches : List Switch) : List String → Option (List Piece)
  | [] => some []
  | word :: words =>
      match readWord switches word with
      | .refused => none
      | .lastOption => some (words.map .operand)
      | .whole pieces => (readPieces switches words).map (pieces ++ ·)
      | .lacking pieces s =>
          match words with
          | [] => none
          | value :: rest =>
              if isOption value.toList then none
              else (readPieces switches rest).map (pieces ++ [.option s value] ++ ·)

def operands (pieces : List Piece) : List String :=
  pieces.filterMap fun
    | .operand word => some word
    | .option _ _ => none

def values (switch : Switch) (pieces : List Piece) : List String :=
  pieces.filterMap fun
    | .option s value => if s = switch then some value else none
    | .operand _ => none

/-- The value of an option that may stand once. -/
def value? (switch : Switch) (pieces : List Piece) : Option (Option String) :=
  match values switch pieces with
  | [] => some none
  | [value] => some (some value)
  | _ => none

/-- A file's name, which may not be empty. -/
def file? (word : String) : Option String :=
  if word.isEmpty then none else some word

/-- At least one file has to be named. -/
def check? (pieces : List Piece) : Option Task := do
  let files ← (operands pieces).mapM file?
  if files.isEmpty then none else some (.check files)

def keys? (pieces : List Piece) : Option Task :=
  match operands pieces with
  | [file] => (file? file).map .keys
  | _ => none

def dump? (pieces : List Piece) : Option Task := do
  let json ← value? .json pieces
  match operands pieces with
  | [file] => (file? file).map (.dump · json.isSome)
  | _ => none

/-- A seed is a natural number of 64 bits. -/
def seed? : Option String → Option (Option UInt64)
  | none => some none
  | some word => (Decimal.natural? word.toList).map (some ·.toUInt64)

/-- A file, a key, and settings as often as need be. -/
def play? (pieces : List Piece) : Option Task := do
  let seed ← seed? (← value? .seed pieces)
  match operands pieces with
  | [file, key] => (file? file).map (.play · key (values .set pieces) seed)
  | _ => none

/-- The options that the task of a name has, and how its pieces make the task. -/
def ofName? : String → Option (List Switch × (List Piece → Option Task))
  | "check" => some ([.verbose, .speakers], check?)
  | "keys" => some ([.verbose, .speakers], keys?)
  | "dump" => some ([.verbose, .speakers, .json], dump?)
  | "play" => some ([.verbose, .speakers, .set, .seed], play?)
  | _ => none

/-- The name of the task and the words behind it. -/
def takeName? : List String → Option (String × List String)
  | [] => none
  | word :: words =>
      match readWord [.verbose] word with
      | .whole [.operand name] => some (name, words)
      | .whole _ => takeName? words
      | _ => none

end Task

/-- What the words of a command line ask for, if they are well formed. -/
def Invocation.read? (words : List String) : Option Invocation := do
  let (name, rest) ← Task.takeName? words
  let (switches, make) ← Task.ofName? name
  let pieces ← Task.readPieces switches rest
  let speakers ← Task.value? .speakers pieces
  let speakers ←
    match speakers with
    | none => some none
    | some file => (Task.file? file).map some
  some ⟨← make pieces, speakers⟩

end Parley
