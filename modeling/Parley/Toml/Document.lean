import Parley.Toml.Node
import Parley.Toml.Scalar

/-!
# Reading TOML

A document is read statement by statement: assignments, headers, and comments between them.
Readers take a text from the front and return what is left of it.
-/

namespace Parley.Toml

/-- A reader takes something from the front of a text and gives what is left, or fails. -/
abbrev Reader (α : Type) := List Char → Option (α × List Char)

def isSpace (c : Char) : Bool :=
  c == ' ' || c == '\t'

def skipSpace (cs : List Char) : List Char :=
  cs.dropWhile isSpace

/-- A character that may stand in a comment or a quoted text: no control character but the
tab. -/
def isPlain (c : Char) : Bool :=
  c == '\t' || (0x20 ≤ c.toNat && c.toNat != 0x7F)

/-- A comment, if one begins here, up to its line end. -/
def skipComment : List Char → List Char
  | '#' :: cs => cs.dropWhile isPlain
  | cs => cs

/-- The text behind a line end, which must stand at its front. -/
def skipNewline? : List Char → Option (List Char)
  | '\n' :: cs => some cs
  | '\r' :: '\n' :: cs => some cs
  | _ => none

/-- Blanks, comments and line ends, as they may stand between the items of a list. -/
def skipFiller : (fuel : Nat) → List Char → List Char
  | 0, cs => cs
  | fuel + 1, cs =>
      let cs := skipComment (skipSpace cs)
      match skipNewline? cs with
      | some rest => skipFiller fuel rest
      | none => cs

/-! ### Quoted texts -/

/-- The character with a code point in hexadecimal digits. -/
def scalarValue? (digits : List Char) : Option Char :=
  let n := natInBase 16 digits
  if digits.all (fun c => digitValue c < 16) && n.isValidChar then some (Char.ofNat n) else none

/-- The character an escape stands for, behind its backslash. -/
def escape? : Reader Char
  | 'b' :: cs => some ('\x08', cs)
  | 't' :: cs => some ('\t', cs)
  | 'n' :: cs => some ('\n', cs)
  | 'f' :: cs => some ('\x0c', cs)
  | 'r' :: cs => some ('\r', cs)
  | '"' :: cs => some ('"', cs)
  | '\\' :: cs => some ('\\', cs)
  | 'u' :: cs =>
      if cs.length < 4 then none else (scalarValue? (cs.take 4)).map fun c => (c, cs.drop 4)
  | 'U' :: cs =>
      if cs.length < 8 then none else (scalarValue? (cs.take 8)).map fun c => (c, cs.drop 8)
  | _ => none

/-- The rest of a text in double quotes, behind the opening one. -/
def basicText : (fuel : Nat) → Reader (List Char)
  | 0, _ => none
  | _ + 1, [] => none
  | _ + 1, '"' :: cs => some ([], cs)
  | fuel + 1, '\\' :: cs => do
      let (c, cs) ← escape? cs
      let (rest, cs) ← basicText fuel cs
      some (c :: rest, cs)
  | fuel + 1, c :: cs =>
      if isPlain c then (basicText fuel cs).map fun (rest, cs) => (c :: rest, cs) else none

/-- The rest of a text in single quotes. Nothing is escaped in it. -/
def literalText : Reader (List Char)
  | [] => none
  | c :: cs =>
      if c = '\x27' then some ([], cs)
      else if isPlain c then (literalText cs).map fun (rest, cs) => (c :: rest, cs)
      else none

/-- The end of a text in tripled quotes: up to two more quotes belong to the text. -/
def closing? (quote : Char) (cs : List Char) : Option (List Char × List Char) :=
  let quotes := (cs.takeWhile (· == quote)).length
  let inside := min (quotes - 3) 2
  if quotes < 3 then none else some (List.replicate inside quote, cs.drop (3 + inside))

def skipBlankLines : List Char → List Char
  | '\r' :: '\n' :: cs => skipBlankLines cs
  | c :: cs => if isSpace c || c == '\n' then skipBlankLines cs else c :: cs
  | [] => []

/-- A backslash at the end of a line joins it to the next text below. -/
def joinLines? (cs : List Char) : Option (List Char) :=
  (skipNewline? (skipSpace cs)).map skipBlankLines

/-- The rest of a text in tripled quotes. Only in double quotes are there escapes. -/
def longText (quote : Char) : (fuel : Nat) → Reader (List Char)
  | 0, _ => none
  | _ + 1, [] => none
  | fuel + 1, c :: cs =>
      match closing? quote (c :: cs), skipNewline? (c :: cs) with
      | some found, _ => some found
      | none, some rest => (longText quote fuel rest).map fun (more, cs) => ('\n' :: more, cs)
      | none, none =>
          if c = '\\' ∧ quote = '"' then
            match joinLines? cs with
            | some rest => longText quote fuel rest
            | none => do
                let (c, cs) ← escape? cs
                let (rest, cs) ← longText quote fuel cs
                some (c :: rest, cs)
          else if isPlain c then (longText quote fuel cs).map fun (rest, cs) => (c :: rest, cs)
          else none

/-- A quoted text on one line. -/
def shortText : Reader (List Char)
  | '"' :: cs => basicText (cs.length + 1) cs
  | c :: cs => if c = '\x27' then literalText cs else none
  | [] => none

/-- A text in quotes of either kind, tripled or not. A line end right behind three quotes is no part
of it. -/
def quotedText : Reader (List Char)
  | a :: b :: c :: cs =>
      if (a = '"' ∨ a = '\x27') ∧ a = b ∧ b = c then
        let body := (skipNewline? cs).getD cs
        longText a (body.length + 1) body
      else shortText (a :: b :: c :: cs)
  | cs => shortText cs

/-! ### Keys -/

def isBareKeyChar (c : Char) : Bool :=
  c.isAlphanum || c == '_' || c == '-'

/-- One part of a key: bare, or in quotes. -/
def simpleKey (cs : List Char) : Option (String × List Char) :=
  match cs.takeWhile isBareKeyChar with
  | [] => (shortText cs).map fun (key, cs) => (String.ofList key, cs)
  | key => some (String.ofList key, cs.dropWhile isBareKeyChar)

/-- A key with its dots, as the path in front of the last part and that part. -/
def dottedKey : (fuel : Nat) → Reader (List String × String)
  | 0, _ => none
  | fuel + 1, cs => do
      let (key, cs) ← simpleKey (skipSpace cs)
      match skipSpace cs with
      | '.' :: rest =>
          let ((path, last), cs) ← dottedKey fuel rest
          some ((key :: path, last), cs)
      | cs => some (([], key), cs)

/-- The most parts that a key may have, and the most containers that may hold each other. -/
def nestingLimit : Nat := 79

/-- A key with as many parts as are allowed. -/
def key (cs : List Char) : Option ((List String × String) × List Char) :=
  match dottedKey (cs.length + 1) cs with
  | some ((path, last), cs) => if path.length < nestingLimit then some ((path, last), cs) else none
  | none => none

/-! ### Values -/

/-- The items of a list, behind its opening bracket. A comma may follow the last one. -/
def listItems (value : Reader Node) : (fuel : Nat) → Reader (List Node)
  | 0, _ => none
  | fuel + 1, cs =>
      match skipFiller cs.length cs with
      | ']' :: cs => some ([], cs)
      | cs => do
          let (item, cs) ← value cs
          match skipFiller cs.length cs with
          | ',' :: cs =>
              let (items, cs) ← listItems value fuel cs
              some (item :: items, cs)
          | ']' :: cs => some ([item], cs)
          | _ => none

/-- A key, an equals sign and a value. -/
def assignment (value : Reader Node) (cs : List Char) : Option (Assignment × List Char) := do
  let ((path, last), cs) ← key cs
  match cs with
  | '=' :: cs =>
      let (node, cs) ← value (skipSpace cs)
      some (⟨path, last, node⟩, cs)
  | _ => none

/-- The assignments of an inline table, all on one line. No comma follows the last one. -/
def inlineItems (value : Reader Node) : (fuel : Nat) → Reader (List Assignment)
  | 0, _ => none
  | fuel + 1, cs => do
      let (item, cs) ← assignment value (skipSpace cs)
      match skipSpace cs with
      | ',' :: cs =>
          let (items, cs) ← inlineItems value fuel cs
          some (item :: items, cs)
      | '\x7d' :: cs => some ([item], cs)
      | _ => none

/-- A value that holds no other. -/
def leaf : Reader Node
  | [] => none
  | c :: cs =>
      if c = '"' ∨ c = '\x27' then
        (quotedText (c :: cs)).map fun (text, cs) => (.text (String.ofList text), cs)
      else
        let (word, rest) := takeWord (c :: cs)
        if isScalar word then some (.scalar, rest) else none

/-- A value in which at most `depth` lists and inline tables hold each other. -/
def value : (depth : Nat) → Reader Node
  | 0, cs => leaf cs
  | depth + 1, cs =>
      match cs with
      | '[' :: cs => (listItems (value depth) (cs.length + 1) cs).map fun (items, cs) =>
          (.list items, cs)
      | '\x7b' :: cs =>
          match skipSpace cs with
          | '\x7d' :: cs => some (.inlineTable [], cs)
          | cs => do
              let (items, cs) ← inlineItems (value depth) (cs.length + 1) cs
              some (.inlineTable (← addAll items []), cs)
      | cs => leaf cs

/-! ### Statements -/

/-- A line of a document that is not blank: an assignment, or a header with one pair of brackets or
two. -/
inductive Statement where
  | assignment (a : Assignment)
  | header (repeated : Bool) (path : List String) (key : String)

def header (repeated : Bool) (cs : List Char) : Option (Statement × List Char) := do
  let ((path, last), cs) ← key cs
  match repeated, cs with
  | false, ']' :: cs => some (.header false path last, cs)
  | true, ']' :: ']' :: cs => some (.header true path last, cs)
  | _, _ => none

/-- Reads a statement up to its end, but not the line end behind it. -/
def statement (cs : List Char) : Option (Statement × List Char) :=
  match cs with
  | '[' :: '[' :: cs => header true cs
  | '[' :: cs => header false cs
  | cs => (assignment (value nestingLimit) cs).map fun (a, cs) => (.assignment a, cs)

/-- The end of a statement: a line end, or the end of the document. -/
def endOfLine? (cs : List Char) : Option (List Char) :=
  match skipComment (skipSpace cs) with
  | [] => some []
  | cs => skipNewline? cs

/-- All statements of a document. Each stands on a line of its own. -/
def statements : (fuel : Nat) → List Char → Option (List Statement)
  | 0, cs => if cs.isEmpty then some [] else none
  | fuel + 1, cs =>
      match skipFiller cs.length cs with
      | [] => some []
      | cs => do
          let (s, cs) ← statement cs
          let cs ← endOfLine? cs
          return s :: (← statements fuel cs)

/-- The assignments before the first header, and the blocks that headers begin. -/
def blocks : List Statement → List Assignment × List Block
  | [] => ([], [])
  | .assignment a :: rest =>
      let (front, bs) := blocks rest
      (a :: front, bs)
  | .header repeated path key :: rest =>
      let (front, bs) := blocks rest
      ([], ⟨repeated, path, key, front⟩ :: bs)

/-- A byte order mark in front of a document is no part of it. -/
def skipMark : List Char → List Char
  | '\ufeff' :: cs => cs
  | cs => cs

/-- The entries of a document, if it is well formed and no two of its statements contradict each
other. -/
def parse? (source : String) : Option Entries := do
  let cs := skipMark source.toList
  let (front, bs) := blocks (← statements (cs.length + 1) cs)
  bs.foldlM (fun root b => b.addTo root) (← addAll front [])

end Parley.Toml
