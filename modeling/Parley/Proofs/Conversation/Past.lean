import Parley.Conversation.Follow

/-!
# What was done before

A conversation writes its journal and never reads it. What stands in the journal already stays in
front of all that is written, and everything else goes as it would without it.
-/

namespace Parley

namespace Conversation

/-- The same conversation, with more done before. -/
def behind (past : List Act) (c : Conversation) : Conversation :=
  { c with journal := past ++ c.journal }

variable (past : List Act) (c : Conversation)

@[simp] theorem behind_record (acts : List Act) :
    (c.behind past).record acts = (c.record acts).behind past := by
  simp [behind, record]

@[simp] theorem behind_note (n : Notice) : (c.behind past).note n = (c.note n).behind past :=
  behind_record past c [.noticed n]

@[simp] theorem behind_close : (c.behind past).close = c.close.behind past := by
  cases hactive : c.active <;> simp [close, behind, record, emit, hactive]

@[simp] theorem behind_begin (slot : Slot) (key : String) :
    (c.behind past).begin slot key = (c.begin slot key).behind past := by
  simp [begin, behind, emit]

@[simp] theorem behind_present (a : Active) (index : Nat) (e : Element) :
    (c.behind past).present a index e = (c.present a index e).behind past := by
  simp [present, behind, record]

end Conversation

def Turn.behind (past : List Act) (t : Turn) : Turn :=
  ⟨t.talk.behind past, t.hops⟩

def Progress.behind {α : Type} (past : List Act) (p : Progress α) : Progress α :=
  ⟨p.turn.behind past, p.result⟩

namespace Turn

/-- A hop goes wherever it goes whatever was done before. -/
def Forgets (hop : Hop) : Prop :=
  ∀ past key t, hop key (t.behind past) = (hop key t).behind past

variable {hop : Hop} (past : List Act) (t : Turn)

/-- What does not look at the journal may be done in front of a longer one. -/
theorem behind_update {f : Conversation → Conversation}
    (h : ∀ c, f (c.behind past) = (f c).behind past) :
    (t.behind past).update f = (t.update f).behind past := by
  simp only [update, behind, h]

theorem behind_close : (t.behind past).close = t.close.behind past :=
  behind_update past t (Conversation.behind_close past)

theorem behind_noted (n : Notice) :
    ((t.behind past).update fun c => c.note n) = (t.update fun c => c.note n).behind past :=
  behind_update past t fun c => c.behind_note past n

theorem behind_recorded (acts : List Act) :
    ((t.behind past).update fun c => c.record acts) =
      (t.update fun c => c.record acts).behind past :=
  behind_update past t fun c => c.behind_record past acts

theorem behind_begun (slot : Slot) (key : String) :
    ((t.behind past).update fun c => c.begin slot key) =
      (t.update fun c => c.begin slot key).behind past :=
  behind_update past t fun c => c.behind_begin past slot key

theorem behind_presentAt (a : Active) (d : Dialogue) (index : Nat) :
    (t.behind past).presentAt a d index = (t.presentAt a d index).behind past := by
  unfold presentAt
  cases d.elements[index]? with
  | none => rfl
  | some e => exact behind_update past t fun c => Conversation.behind_present past c a index e

theorem behind_presentRandom (a : Active) (d : Dialogue) :
    (t.behind past).presentRandom a d = (t.presentRandom a d).behind past := by
  have hstream : (t.behind past).talk.stream = t.talk.stream := rfl
  simp only [presentRandom, hstream]
  obtain ⟨index, stream⟩ := t.talk.stream.pick d.elements.length
  exact behind_presentAt past (t.update fun c => { c with stream }) a d index

section Steps

variable (hhop : Forgets hop)
include hhop

/-! ### Code -/

theorem behind_perform (requests : List Request) :
    perform hop requests (t.behind past) = (perform hop requests t).behind past := by
  induction requests generalizing t with
  | nil => rfl
  | cons request requests ih =>
      cases request with
      | finish => rw [perform, perform, behind_close, ih]
      | start key =>
          simp only [perform, hhop past key t]
          obtain ⟨u, fault | answer⟩ := hop key t
          · rfl
          · exact ih u

/-- A command does the same whatever was done before it. -/
theorem behind_call (name : String) (sources : List String) :
    call hop name sources (t.behind past) = (call hop name sources t).behind past := by
  have hcall : (t.behind past).talk.commands.call name sources (t.behind past).talk.vars =
      t.talk.commands.call name sources t.talk.vars := rfl
  simp only [call, hcall]
  cases t.talk.commands.call name sources t.talk.vars with
  | refused error => exact congrArg done (behind_noted past t _)
  | handled args reply =>
      have hran : ((t.behind past).update fun c => { c with vars := reply.vars }.record
          [.ran name args]) = (t.update fun c => { c with vars := reply.vars }.record
          [.ran name args]).behind past :=
        behind_update past t fun c =>
          Conversation.behind_record past { c with vars := reply.vars } _
      simp only [hran]
      cases reply.failure with
      | some error => exact congrArg done (behind_noted past _ _)
      | none => exact behind_perform past _ hhop reply.requests

theorem behind_execute (dialogue : String) (s : Statement) :
    execute hop dialogue s (t.behind past) = (execute hop dialogue s t).behind past := by
  obtain ⟨kind, name, args⟩ := s
  cases kind with
  | call => exact behind_call past t hhop name args
  | assignment =>
      cases args with
      | nil => rfl
      | cons source args =>
          refine congrArg done (behind_update past t fun c => ?_)
          have hvars : (c.behind past).vars = c.vars := rfl
          simp only [assign, hvars]
          split
          · rfl
          · exact c.behind_note past _

theorem behind_executeAll (dialogue : String) (statements : List Statement) :
    executeAll hop dialogue statements (t.behind past) =
      (executeAll hop dialogue statements t).behind past := by
  induction statements generalizing t with
  | nil => rfl
  | cons s statements ih =>
      simp only [executeAll, behind_execute past t hhop dialogue s]
      obtain ⟨u, fault | done⟩ := execute hop dialogue s t
      · rfl
      · exact ih u

/-- A block of code does, too. -/
theorem behind_runCode (slot : Slot) (dialogue : String) (statements : List Statement) :
    runCode hop slot dialogue statements (t.behind past) =
      (runCode hop slot dialogue statements t).behind past := by
  simp only [runCode, behind_executeAll past t hhop dialogue statements]
  obtain ⟨u, fault | answer⟩ := executeAll hop dialogue statements t
  · exact congrArg (Progress.mk · _) (behind_close past u)
  · have hactive : (u.behind past).talk.active = u.talk.active := rfl
    simp only [Progress.behind, hactive]
    split
    · exact congrArg done (behind_close past u)
    · rfl

/-! ### Hops -/

theorem behind_hopOrClose (key : String) :
    hopOrClose hop key (t.behind past) = (hopOrClose hop key t).behind past := by
  simp only [hopOrClose, hhop past key t]
  obtain ⟨u, fault | _ | _⟩ := hop key t
  · rfl
  · exact congrArg done (behind_close past u)
  · rfl

/-- Which exit is taken does not depend on the past. -/
theorem behind_leave (slot : Slot) (d : Dialogue) :
    leave hop slot d (t.behind past) = (leave hop slot d t).behind past := by
  have hvars : (t.behind past).talk.vars = t.talk.vars := rfl
  simp only [leave, hvars]
  obtain ⟨target, notices⟩ := Conversation.selectExit t.talk.vars.lookup d.exits
  simp only [behind_recorded]
  match target with
  | none => exact congrArg done (behind_close past _)
  | some (.key key) => exact behind_hopOrClose past _ hhop key
  | some (.code statements) => exact behind_runCode past _ hhop slot d.name statements

/-- How a dialogue goes on does not depend on the past. -/
theorem behind_proceed (a : Active) (d : Dialogue) :
    proceed hop a d (t.behind past) = (proceed hop a d t).behind past := by
  unfold proceed
  cases moveFrom d a.index with
  | finish => exact congrArg done (behind_close past t)
  | pick => exact congrArg done (behind_presentRandom past t a d)
  | advance index => exact congrArg done (behind_presentAt past t a d index)
  | leave => exact behind_leave past t hhop a.slot d

theorem behind_choose (e : Element) (selected : Nat) :
    choose hop e selected (t.behind past) = (choose hop e selected t).behind past := by
  unfold choose
  cases e.choices[selected]? with
  | some choice => exact behind_hopOrClose past t hhop choice.key
  | none =>
      rw [behind_noted]
      exact congrArg done (behind_close past _)

/-- A step does not, as long as its hops do not. -/
theorem behind_step (selected : Nat) :
    step hop selected (t.behind past) = (step hop selected t).behind past := by
  have hactive : (t.behind past).talk.active = t.talk.active := rfl
  have hdialogue (slot : Slot) : (t.behind past).talk.dialogueAt slot = t.talk.dialogueAt slot :=
    rfl
  simp only [step, hactive, hdialogue]
  split
  · exact congrArg done (behind_close past t)
  · split
    · exact congrArg done (behind_close past t)
    · split
      · split
        · exact behind_choose past t hhop _ selected
        · exact behind_proceed past t hhop _ _
      · exact behind_proceed past t hhop _ _

theorem behind_enter (slot : Slot) (d : Dialogue) (key : String) :
    enter hop slot d key (t.behind past) = (enter hop slot d key t).behind past := by
  have hactive : (t.behind past).talk.active = t.talk.active := rfl
  have hclosed : (if t.talk.active.any (fun a => a.slot != slot) then (t.behind past).close
      else t.behind past) =
      (if t.talk.active.any (fun a => a.slot != slot) then t.close else t).behind past := by
    split
    · exact behind_close past t
    · rfl
  simp only [enter, hactive, hclosed, behind_begun, behind_proceed past _ hhop]
  generalize proceed hop _ d _ = next
  obtain ⟨u, fault | answer⟩ := next <;> rfl

end Steps

/-- A start does not, if the hops below it do not. -/
theorem Forgets.start (h : Forgets hop) : Forgets (start hop) := by
  intro past key t
  have htarget : ((t.behind past).talk.locate key).bind
      (fun slot => ((t.behind past).talk.dialogueAt slot).map (slot, ·)) =
        (t.talk.locate key).bind fun slot => (t.talk.dialogueAt slot).map (slot, ·) := rfl
  have hseen : (t.behind past).talk.seen = t.talk.seen := rfl
  simp only [Turn.start, htarget, hseen]
  split
  · exact congrArg (Progress.mk · _) (behind_noted past t _)
  · split
    · rfl
    · exact behind_enter past t h _ _ key

theorem outOfHops_forgets : Forgets outOfHops := by
  intro past key t
  simp only [outOfHops, behind_noted, behind_close]
  rfl

/-- However deep hops nest, none of them looks at what was done before. -/
theorem follow_forgets (depth : Nat) : Forgets (follow depth) := by
  induction depth with
  | zero => exact outOfHops_forgets
  | succ depth ih =>
      intro past key t
      have hhops : (t.behind past).hops = t.hops := rfl
      simp only [follow, hhops]
      cases t.hops with
      | zero => exact outOfHops_forgets past key t
      | succ hops => exact ih.start past key ⟨t.talk, hops⟩

end Turn

/-- Going on is the same whatever was done before. -/
theorem Conversation.behind_advance (past : List Act) (c : Conversation) (selected : Nat) :
    ((c.behind past).advance selected).talk = (c.advance selected).talk.behind past :=
  congrArg (Turn.talk ∘ Progress.turn) <|
    Turn.behind_step past (Turn.fresh c) (Turn.follow_forgets c.config.maxRedirects) selected

end Parley
