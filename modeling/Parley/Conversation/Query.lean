import Parley.Conversation.Basic

/-!
# Looking ahead

Questions about a conversation that change nothing in it.
-/

namespace Parley.Conversation

/-- Follows a key through dialogues without elements, at most `hops` of them, and tells whether
it reaches one with elements. Code is not followed. -/
def reaches (c : Conversation) (start : String) : (hops : Nat) → (key : String) →
    Bool × List Notice
  | hops, key =>
      match (c.locate key).bind c.dialogueAt with
      | none => (false, [])
      | some d =>
          if d.flags.oneShot && c.seen.has key then (false, [])
          else if !d.isRedirect then (true, [])
          else
            match selectExit c.vars.lookup d.exits with
            | (some (.key next), notices) =>
                match hops with
                | 0 => (false, notices ++ [.redirectLimitResolving start])
                | hops + 1 =>
                    let (answer, more) := reaches c start hops next
                    (answer, notices ++ more)
            | (_, notices) => (false, notices)

/-- Whether a dialogue could be started by its key now, with the notices of finding out. -/
def findDialogue (c : Conversation) (key : String) : Bool × List Notice :=
  c.reaches key c.config.maxRedirects key

/-- Whether a dialogue could be started by its key now. -/
def hasDialogue (c : Conversation) (key : String) : Bool :=
  (c.findDialogue key).1

/-- Whether a selected exit leads on to a dialogue. An empty key leads nowhere. -/
def leadsOn : Option Target → Bool
  | some (.key key) => !key.isEmpty
  | _ => false

/-- Whether going on would show something more rather than close. -/
def hasMoreText (c : Conversation) : Bool :=
  match c.active with
  | none => false
  | some a =>
      match c.dialogueAt a.slot with
      | none => false
      | some d =>
          if (a.element? d).any Element.hasChoices then true
          else if d.picksElement then false
          else if (match a.index with | none => 0 | some i => i + 1) < d.elements.length then
            true
          else leadsOn (selectExit c.vars.lookup d.exits).1

end Parley.Conversation
