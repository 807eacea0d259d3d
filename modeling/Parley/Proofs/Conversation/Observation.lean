import Mathlib.Data.List.Forall2
import Parley.Conversation.Query
import Parley.Proofs.Conversation.Recast

/-!
# What a host observes

A host learns of a conversation what its calls are answered and what it can ask in between. The
graph that the conversation is played from is no part of that. Where other stores serve in the
place of those there are, each call is answered the same and everything looks the same behind it.
-/

namespace Parley

open Conversation (selectExit)

/-- What a call of the host is answered. -/
inductive Answer where
  | done
  | started (result : Except ScriptFault Bool)
  | went (result : Except ScriptFault Unit)
  | taken (events : List Event)

/-- What can be seen of a conversation between two calls of the host. The journal holds what was
shown and cleared, which commands ran, and the notices. -/
structure View where
  key : Option String
  element : Option Element
  moreText : Bool
  hasDialogue : String → Bool
  vars : Variables
  seen : SeenTable
  events : List Event
  journal : List Act

namespace Conversation

/-- What the host is told by a call. Calls that only set something tell nothing. -/
def answer (c : Conversation) : HostCall → Answer
  | .start key => .started (c.start key).result
  | .advance selected => .went (c.advance selected).result
  | .confirm reading => .went (c.confirm reading).result
  | .takeEvents => .taken c.takeEvents.1
  | _ => .done

/-- All that can be asked of a conversation between two calls. -/
def view (c : Conversation) : View where
  key := c.currentKey
  element := c.currentElement
  moreText := c.hasMoreText
  hasDialogue := c.hasDialogue
  vars := c.vars
  seen := c.seen
  events := c.events
  journal := c.journal

/-- A run as the host sees it: what each call is answered, and how things look behind it. -/
def observe (c : Conversation) : List HostCall → List (Answer × View)
  | [] => []
  | call :: calls => (c.answer call, (c.perform call).view) :: observe (c.perform call) calls

theorem length_observe (c : Conversation) (calls : List HostCall) :
    (c.observe calls).length = calls.length := by
  induction calls generalizing c with
  | nil => rfl
  | cons call calls ih => rw [observe, List.length_cons, ih, List.length_cons]

/-- A session in two parts is observed in two parts. -/
theorem observe_append (c : Conversation) (calls more : List HostCall) :
    c.observe (calls ++ more) = c.observe calls ++ (c.performAll calls).observe more := by
  induction calls generalizing c with
  | nil => rfl
  | cons call calls ih =>
      rw [List.cons_append, observe, ih, observe, List.cons_append]
      rfl

/-- Conversations that look the same, and that calls which correspond keep looking the same, are
not told apart by any run. -/
theorem observe_eq_of_simulation {Alike : Conversation → Conversation → Prop}
    {Matches : HostCall → HostCall → Prop}
    (hview : ∀ {c c'}, Alike c c' → c'.view = c.view)
    (hcall : ∀ {c c' call call'}, Alike c c' → Matches call call' →
      c'.answer call' = c.answer call ∧ Alike (c.perform call) (c'.perform call'))
    {c c' : Conversation} {calls calls' : List HostCall} (h : Alike c c')
    (hcalls : List.Forall₂ Matches calls calls') : c'.observe calls' = c.observe calls := by
  induction hcalls generalizing c c' with
  | nil => rfl
  | cons hfirst _ ih =>
      obtain ⟨hanswer, hnext⟩ := hcall h hfirst
      rw [observe, observe, hanswer, hview hnext, ih hnext]

/-! ### Playing from other stores -/

variable {r : Recast} {c : Conversation}

theorem recast_start (h : r.Serves c) (key : String) :
    ((c.recast r).start key).result = (c.start key).result := by
  have hfollow := Turn.recast_follow (t := ⟨c, c.config.maxRedirects + 1⟩) h (Nat.le_refl _) key
  have hresult := congrArg Progress.result hfollow.symm
  exact hresult

/-- Every call is answered the same from other stores that keep everything in its place. -/
theorem recast_answer (h : r.Keeps c) (call : HostCall) :
    (c.recast r).answer call = c.answer call := by
  cases call with
  | start key => exact congrArg Answer.started (recast_start h.toServes key)
  | advance selected => exact congrArg Answer.went (recast_advance h selected).2
  | confirm reading =>
      have hadds : ∀ s, HostCall.confirm reading ≠ .addStore s := by rintro s ⟨⟩
      exact congrArg Answer.went (recast_perform h hadds).2
  | _ => rfl

/-- Looking ahead reads the exits of dialogues without elements only. -/
theorem recast_reaches (h : r.Serves c) (start : String) (hops : Nat) (key : String) :
    (c.recast r).reaches start hops key = c.reaches start hops key := by
  -- Strong induction, since the equation of `reaches` is opened before the hops are told apart.
  induction hops using Nat.strongRecOn generalizing key with
  | ind hops ih =>
      have htarget := h.target key
      have hseen : (c.recast r).seen = c.seen := rfl
      have hvars : (c.recast r).vars = c.vars := rfl
      unfold reaches
      simp only [locate_bind_dialogueAt]
      generalize c.target? key = found, (c.recast r).target? key = other at htarget ⊢
      cases htarget with
      | none => rfl
      | @some found other hfound =>
          obtain ⟨-, hstand⟩ := hfound
          simp only [Option.map_some, hstand.flags, hstand.isRedirect, hseen, hvars]
          split
          · rfl
          · cases hredirect : found.2.isRedirect with
            | false => rfl
            | true =>
                simp only [hstand.exits hredirect, Bool.not_true, Bool.false_eq_true, if_false]
                rcases selectExit c.vars.lookup found.2.exits with ⟨_ | next | statements, notices⟩
                · rfl
                · cases hops with
                  | zero => rfl
                  | succ hops => simp only [ih hops (Nat.lt_succ_self hops) next]
                · rfl

theorem recast_hasDialogue (h : r.Serves c) (key : String) :
    (c.recast r).hasDialogue key = c.hasDialogue key :=
  congrArg Prod.fst (recast_reaches h key c.config.maxRedirects key)

/-- So is the question what comes next. -/
theorem recast_hasMoreText (h : r.Keeps c) : (c.recast r).hasMoreText = c.hasMoreText := by
  have hactive : (c.recast r).active = c.active.map (Active.recast r) := rfl
  have hvars : (c.recast r).vars = c.vars := rfl
  unfold hasMoreText
  rw [hactive]
  cases c.active with
  | none => rfl
  | some a =>
      have hdialogue := h.dialogueAt a.slot
      simp only [Option.map_some, Active.recast]
      generalize c.dialogueAt a.slot = found,
        (c.recast r).dialogueAt (r.place a.slot) = other at hdialogue ⊢
      cases hdialogue with
      | none => rfl
      | @some d e hstand =>
          have hpicks : e.picksElement = d.picksElement := by
            simp only [Dialogue.picksElement, hstand.flags, hstand.elements]
          simp only [Active.element?, hstand.elements, hpicks, hvars]
          -- The exits only come in where no element is picked.
          cases hpick : d.picksElement with
          | true => simp only [if_true]
          | false =>
              rw [hstand.exits (by rw [hpick]; rfl)]
              rfl

theorem recast_currentElement (h : r.Keeps c) :
    (c.recast r).currentElement = c.currentElement := by
  have hactive : (c.recast r).active = c.active.map (Active.recast r) := rfl
  unfold currentElement
  rw [hactive]
  cases c.active with
  | none => rfl
  | some a =>
      have hdialogue := h.dialogueAt a.slot
      simp only [Option.map_some, Option.bind_some, Active.recast]
      generalize c.dialogueAt a.slot = found,
        (c.recast r).dialogueAt (r.place a.slot) = other at hdialogue ⊢
      cases hdialogue with
      | none => rfl
      | some hstand => simp only [Option.bind_some, Active.element?, hstand.elements]

theorem recast_currentKey (r : Recast) (c : Conversation) :
    (c.recast r).currentKey = c.currentKey := by
  simp only [currentKey, recast, Option.map_map]
  rfl

/-- A conversation played from other stores looks the same, if nothing is put in front of its
journal. -/
theorem recast_view (h : r.Keeps c) (hfront : r.front = []) : (c.recast r).view = c.view := by
  have hjournal : (c.recast r).journal = c.journal := by
    simp only [recast, hfront, List.nil_append]
  simp only [view, recast_currentKey, recast_currentElement h, recast_hasMoreText h,
    funext (recast_hasDialogue h.toServes), hjournal]
  rfl

end Conversation

end Parley
