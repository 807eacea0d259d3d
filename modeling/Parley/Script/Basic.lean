import Parley.Script.Section

/-!
# Scripts

A script is read in four steps: its lines, the lines without comments, the items they form, and
the sections the items fall into.
-/

namespace Parley

/-- A script that was read, with all that is wrong with it. -/
structure Script where
  dialogues : List Dialogue
  /-- In source order. -/
  diagnostics : List Diagnostic

namespace Script

/-- Whether any of the diagnostics is an error. -/
def hasErrors (s : Script) : Bool :=
  s.diagnostics.any Diagnostic.isError

/-- A comment that is never closed is reported at the end of the source. -/
def endDiagnostics (inComment : Bool) (source : List Char) : List Diagnostic :=
  if inComment then
    let stop := Text.byteLength source
    [⟨⟨(Line.ofSource source).length, ⟨stop, stop⟩⟩, .openComment⟩]
  else []

/-- Reads a script. Whatever is wrong within a section is reported and the rest read; a script is
refused for what stands outside all sections or for a key that comes twice. -/
def parse (reg : Registry) (source : String) : Except ScriptError Script :=
  let cs := source.toList
  let (lines, inComment) := Comment.clear false (Line.ofSource cs)
  let (before, sections) := Section.divide (Item.gather none lines)
  match Section.orphan? none before with
  | some error => .error error
  | none =>
      match Section.repeated? [] sections with
      | some error => .error error
      | none =>
          .ok
            { dialogues := sections.map (Section.dialogue reg)
              diagnostics := Section.diagnosticsFrom reg false before ++
                sections.flatMap (Section.diagnostics reg) ++ endDiagnostics inComment cs }

end Script

end Parley
