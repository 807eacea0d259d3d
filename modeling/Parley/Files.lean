import Parley.Speaker.Roster
import Parley.Store
import Parley.Text.Span
import Parley.Text.Split

/-!
# Files

Stores and speaker registries read from files. What a path leads to is given by a function, so
that files may lie on a disk or be held in memory.
-/

namespace Parley

/-- Why nothing could be read at a path. Faults that only a disk has come with their own text. -/
inductive ReadFault where
  | missing
  | isFolder
  | notFolder
  | tooLong
  | noName
  | other (text : String)
deriving DecidableEq, Repr

def ReadFault.message : ReadFault → String
  | .missing => "No such file or directory (os error 2)"
  | .isFolder => "Is a directory (os error 21)"
  | .notFolder => "Not a directory (os error 20)"
  | .tooLong => "File name too long (os error 36)"
  | .noName => "file name contained an unexpected NUL byte"
  | .other text => text

/-- What is read at each path. -/
abbrev Files := String → Except ReadFault String

namespace Path

/-- The names along a path. Empty names and dots lead nowhere. -/
def names (path : String) : List (List Char) :=
  (Text.splitOn '/' path.toList).filter fun name => name ≠ [] ∧ name ≠ ['.']

/-- A file's name without the last dot and what follows it. A dot in front stays, and what
follows it, unless another dot comes after. -/
def stemOfName (name : List Char) : List Char :=
  match (Text.splitOn '.' name).dropLast with
  | [] | [[]] => name
  | pieces => Text.joinWith ['.'] pieces

/-- The stem of the last name. A path that ends in two dots has none. -/
def stem (path : String) : String :=
  match (names path).getLast? with
  | none | some ['.', '.'] => ""
  | some name => String.ofList (stemOfName name)

end Path

/-! ### Files in memory -/

/-- The files of one folder and of those within it, each with the names that lead to it. -/
structure Folder where
  files : List (List (List Char) × String)

namespace Folder

/-- The files of a list, each with its path. -/
def ofList (files : List (String × String)) : Folder :=
  ⟨files.map fun (path, text) => (Path.names path, text)⟩

def hasFolder (f : Folder) (names : List (List Char)) : Bool :=
  f.files.any fun (path, _) => names.isPrefixOf path && path ≠ names

/-- Where a walk along a path has come to. -/
inductive Place where
  /-- The folder, or the one within it that the names lead to. -/
  | inside (names : List (List Char))
  /-- A folder above it. Of what lies there only more such folders are known. -/
  | above
  | file (text : String)

/-- The most bytes of a name. -/
def nameLimit : Nat := 255

/-- The least bytes of a path that are too many. -/
def pathLimit : Nat := 4096

/-- What stands in a folder under a name. -/
def enter (f : Folder) (names : List (List Char)) (name : List Char) : Except ReadFault Place :=
  let path := names ++ [name]
  match f.files.lookup path with
  | some text => .ok (.file text)
  | none => if f.hasFolder path then .ok (.inside path) else .error .missing

/-- One step of a walk. Two dots lead up, also out of the folder. -/
def step (f : Folder) (place : Place) (name : List Char) : Except ReadFault Place :=
  if name = ['.', '.'] then
    match place with
    | .file _ => .error .notFolder
    | .above | .inside [] => .ok .above
    | .inside names => .ok (.inside names.dropLast)
  else
    match place with
    | .file _ => .error .notFolder
    | .above => .error (if nameLimit < Text.byteLength name then .tooLong else .missing)
    | .inside names =>
        if nameLimit < Text.byteLength name then .error .tooLong else f.enter names name

/-- Whether only a folder can stand at the path, for the way it ends. -/
def asksForFolder (path : String) : Bool :=
  match (Text.splitOn '/' path.toList).reverse with
  | _ :: [] => false
  | last :: _ => last = [] || last = ['.']
  | [] => false

/-- A path that begins with a slash begins above. -/
def walk (f : Folder) (path : String) : Except ReadFault Place :=
  (Path.names path).foldlM f.step (if path.startsWith "/" then .above else .inside [])

/-- Reads a path from within the folder. -/
def read (f : Folder) : Files := fun path =>
  if path.isEmpty then .error .missing
  else if path.contains '\x00' then .error .noName
  else if pathLimit ≤ path.utf8ByteSize then .error .tooLong
  else
    match f.walk path with
    | .ok (.file text) => if asksForFolder path then .error .notFolder else .ok text
    | .ok _ => .error .isFolder
    | .error fault => .error fault

end Folder

/-! ### Loading -/

/-- Why nothing could be loaded from a path: it cannot be read, it holds no list of speakers, or its
script is refused. -/
inductive LoadError where
  | unreadable (path : String) (fault : ReadFault)
  | notARoster
  | refused (error : ScriptError)

def LoadError.message : LoadError → String
  | .unreadable path fault => s!"cannot read {path}: {fault.message}"
  | .notARoster => "invalid speaker file"
  | .refused error => error.message

namespace Files

def text (files : Files) (path : String) : Except LoadError String :=
  (files path).mapError (.unreadable path)

end Files

/-- The registry of a speaker file. -/
def Registry.load (files : Files) (path : String) : Except LoadError Registry := do
  match Roster.read? (← files.text path) with
  | some reg => .ok reg
  | none => .error .notARoster

/-- The store of a script file, named by the file's stem. -/
def Store.load (files : Files) (reg : Registry) (path : String) : Except LoadError Store := do
  let source ← files.text path
  (Store.ofSource (Path.stem path) reg source).mapError .refused

end Parley
