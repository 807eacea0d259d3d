import Parley.Script.Code
import Parley.Script.Item
import Parley.Speaker.Registry

/-!
# Sections of a script

A header with a key begins a section, and each section is a dialogue of its own: nothing carries
over from the section before. Its flags are those of all its flag lists, its exits are its
transitions and code blocks in order, and its elements are the runs of text between breaks.

What stands before the first such header belongs to no dialogue. Only blank lines, headers
without a key and choices may stand there.
-/

namespace Parley

open Text (trim allBlank splitOn breakOn? dropLast?)

/-- A header with its key, and all items down to the next such header. -/
structure Section where
  place : Place
  key : List Char
  items : List Located

namespace Section

/-- The items before the first header with a key, and the sections. -/
def divide : List Located → List Located × List Section
  | [] => ([], [])
  | i :: items =>
      let (before, sections) := divide items
      match i.item with
      | .header (c :: key) => ([], ⟨i.place, c :: key, before⟩ :: sections)
      | _ => (i :: before, sections)

/-! ### Flags -/

/-- The names in a flag list, whether or not its closing brace is there. -/
def flagNames (list : List Char) : List (List Char) :=
  ((splitOn ',' ((dropLast? '\x7d' list).getD list)).map trim).filter fun name => !name.isEmpty

/-- The flags that a list names. Names of no flag are passed over. -/
def flagsOf (list : List Char) : Flags :=
  ((flagNames list).filterMap fun name => Flags.ofName? (String.ofList name)).foldl Flags.union {}

/-- What is wrong with a flag list: its closing brace may be missing, and each name has to be that
of a flag. -/
def flagProblems (list : List Char) : List Problem :=
  (if dropLast? '\x7d' list = none then [.openFlagList] else []) ++
    (flagNames list).filterMap fun name =>
      match Flags.ofName? (String.ofList name) with
      | some _ => none
      | none => some (.unknownFlag (String.ofList name))

def itemFlags : Item → Flags
  | .flags list => flagsOf list
  | _ => {}

/-! ### Exits -/

/-- The exit that an item makes. A transition to nowhere makes none, and neither does a block that
is never closed. -/
def itemExit : Item → Option Exit
  | .redirect condition (c :: key) =>
      some ⟨String.ofList condition, .key (String.ofList (c :: key))⟩
  | .code condition body => some ⟨String.ofList condition, .code (Code.statements body)⟩
  | _ => none

/-- A condition has to be an expression, or blank. -/
def conditionProblems (condition : List Char) : List Problem :=
  if condition.isEmpty then []
  else
    let source := String.ofList condition
    match Expr.parse source with
    | .ok _ => []
    | .error cause => [.badCondition source cause]

/-! ### Elements -/

/-- A choice is a text, an arrow and a key; neither side may be blank. -/
def readChoice (body : List Char) : Except Problem Choice :=
  match breakOn? ['-', '>'] body with
  | none => .error .choiceWithoutArrow
  | some (before, after) =>
      let text := trim before
      let key := trim after
      if text.isEmpty || key.isEmpty then .error .incompleteChoice
      else .ok ⟨String.ofList text, String.ofList key⟩

/-- An element that may still grow. -/
structure Draft where
  speaker : Option Speaker
  lines : List (List Char)
  choices : List Choice

namespace Draft

def addLine (d : Draft) (line : List Char) : Draft :=
  { d with lines := d.lines ++ [line] }

def addChoice (d : Draft) (c : Choice) : Draft :=
  { d with choices := d.choices ++ [c] }

/-- The element, once nothing can be added to it. -/
def element (d : Draft) : Element :=
  ⟨d.speaker, String.ofList (Text.joinWith ['\n'] d.lines), d.choices⟩

end Draft

/-- A speaker tag opens an element even when no text follows it on the line. -/
def openDraft (speaker : Option Speaker) (rest : List Char) : Draft :=
  ⟨speaker, if rest.isEmpty then [] else [rest], []⟩

/-- Text goes to the open element, or opens one for the current speaker. -/
def withText (speaker : Option Speaker) (draft : Option Draft) (line : List Char) : Draft :=
  match draft with
  | some d => d.addLine line
  | none => ⟨speaker, [line], []⟩

/-- A choice that cannot be read, or that has no element to belong to, is dropped. -/
def withChoice (draft : Option Draft) (body : List Char) : Option Draft :=
  draft.map fun d =>
    match readChoice body with
    | .ok c => d.addChoice c
    | .error _ => d

/-- The elements that the items make, given the current speaker and the element still open. -/
def elementsFrom (reg : Registry) : Option Speaker → Option Draft → List Item → List Element
  | _, draft, [] => (draft.map Draft.element).toList
  | speaker, draft, i :: items =>
      match i with
      | .blank | .header _ =>
          (draft.map Draft.element).toList ++ elementsFrom reg speaker none items
      | .speaker name rest =>
          let next := reg.resolve (String.ofList name)
          (draft.map Draft.element).toList ++
            elementsFrom reg next (some (openDraft next rest)) items
      | .text line => elementsFrom reg speaker (some (withText speaker draft line)) items
      | .choice body => elementsFrom reg speaker (withChoice draft body) items
      | _ => elementsFrom reg speaker draft items

/-! ### The dialogue -/

/-- The dialogue of a section, made of its items alone. -/
def dialogue (reg : Registry) (s : Section) : Dialogue :=
  let items := s.items.map Located.item
  { name := String.ofList s.key
    flags := (items.map itemFlags).foldl Flags.union {}
    elements := elementsFrom reg none none items
    exits := items.filterMap itemExit }

/-! ### Diagnostics -/

/-- Whether an element is open behind an item. -/
def opens (isOpen : Bool) : Item → Bool
  | .blank | .header _ => false
  | .speaker _ _ | .text _ => true
  | _ => isOpen

/-- A tag that names nobody is reported, unless its name is blank. -/
def speakerProblems (reg : Registry) (name : List Char) : List Problem :=
  if (reg.resolve (String.ofList name)).isNone && !allBlank name then
    [.unknownSpeaker (String.ofList (trim name))]
  else []

/-- A choice that cannot be read is not asked for its element. -/
def choiceProblems (isOpen : Bool) (body : List Char) : List Problem :=
  match readChoice body with
  | .error problem => [problem]
  | .ok _ => if isOpen then [] else [.choiceWithoutElement]

/-- What is wrong with an item itself, apart from the lines of a code block. -/
def itemProblems (reg : Registry) (isOpen : Bool) : Item → List Problem
  | .header [] => [.headerWithoutKey]
  | .speaker name _ => speakerProblems reg name
  | .flags list => flagProblems list
  | .redirect _ [] => [.noDestination]
  | .redirect condition _ => conditionProblems condition
  | .code condition _ => conditionProblems condition
  | .openCode condition => conditionProblems condition ++ [.openCode]
  | .choice body => choiceProblems isOpen body
  | _ => []

/-- What is wrong with the lines of a block, each reported on its own line. -/
def bodyDiagnostics : Item → List Diagnostic
  | .code _ body => Code.diagnostics body
  | _ => []

/-- The diagnostics of items, in order, where an element is open in front of them or not. -/
def diagnosticsFrom (reg : Registry) : (isOpen : Bool) → List Located → List Diagnostic
  | _, [] => []
  | isOpen, i :: items =>
      (itemProblems reg isOpen i.item).map (fun problem => ⟨i.place, problem⟩) ++
        bodyDiagnostics i.item ++ diagnosticsFrom reg (opens isOpen i.item) items

def diagnostics (reg : Registry) (s : Section) : List Diagnostic :=
  diagnosticsFrom reg false s.items

/-! ### What refuses a script -/

/-- The first thing before all dialogues that would belong to one. Text counts at the line where
it begins, but only once something ends it. -/
def orphan? : (textLine : Option Nat) → List Located → Option ScriptError
  | textLine, [] => textLine.map (.orphan .text)
  | textLine, i :: items =>
      let line := i.place.line
      match i.item with
      | .blank | .header _ =>
          match textLine with
          | some begun => some (.orphan .text begun)
          | none => orphan? none items
      | .speaker _ _ =>
          match textLine with
          | some begun => some (.orphan .text begun)
          | none => orphan? (some line) items
      | .text _ => orphan? (some (textLine.getD line)) items
      | .choice _ => orphan? textLine items
      | .flags _ => some (.orphan .flags line)
      | .redirect _ _ => some (.orphan .transition line)
      | .code _ _ | .openCode _ => some (.orphan .code line)

/-- The first section whose key an earlier one has. -/
def repeated? (earlier : List (List Char)) : List Section → Option ScriptError
  | [] => none
  | s :: sections =>
      if earlier.contains s.key then some (.duplicateKey (String.ofList s.key) s.place.line)
      else repeated? (s.key :: earlier) sections

end Section

end Parley
