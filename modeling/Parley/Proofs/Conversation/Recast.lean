import Parley.Proofs.Conversation.Ending

/-!
# Playing from other stores

A conversation looks at its stores only to find the dialogue of a key and to read the dialogue
that is active. Where other stores answer these questions with dialogues that show the same and
are left the same way, the conversation goes on the same: playing from them and then changing the
stores comes to what changing the stores and then playing comes to.

## Implementation notes

Starting a dialogue never reads the exits of one that has elements, and going on never reads
those of one that picks an element. So what the exits have to agree on depends on how the
dialogue is met, and the agreement carries a flag that tells whether it may be left.
-/

namespace Parley

open Conversation (selectExit)

/-- `e` can take the place of `d`: it shows the same elements, and where `d` may be left it is
left by the same exit. -/
structure Dialogue.StandIn (leaves : Bool) (d e : Dialogue) : Prop where
  name : e.name = d.name
  flags : e.flags = d.flags
  elements : e.elements = d.elements
  exits : leaves = true → ∀ env, selectExit env e.exits = selectExit env d.exits

namespace Dialogue.StandIn

variable {leaves : Bool} {d e : Dialogue}

theorem refl (leaves : Bool) (d : Dialogue) : StandIn leaves d d :=
  ⟨rfl, rfl, rfl, fun _ _ => rfl⟩

theorem mono {less : Bool} (h : StandIn leaves d e) (hless : less = true → leaves = true) :
    StandIn less d e :=
  ⟨h.name, h.flags, h.elements, fun hl => h.exits (hless hl)⟩

theorem isRedirect (h : StandIn leaves d e) : e.isRedirect = d.isRedirect := by
  simp only [Dialogue.isRedirect, h.elements]

/-- A dialogue that stands in for another goes on in the same way. -/
theorem moveFrom (h : StandIn leaves d e) (index : Option Nat) :
    Turn.moveFrom e index = Turn.moveFrom d index := by
  unfold Turn.moveFrom Dialogue.picksElement
  rw [h.flags, h.elements]

/-- A dialogue without elements picks none. -/
theorem of_picksElement (h : StandIn (!d.picksElement) d e) : StandIn d.isRedirect d e := by
  apply h.mono
  intro hredirect
  have hnil : d.elements = [] := by simpa [Dialogue.isRedirect] using hredirect
  simp [Dialogue.picksElement, hnil]

end Dialogue.StandIn

/-- Only a dialogue without elements is left before anything of it is shown. -/
theorem Turn.isRedirect_of_moveFrom {d : Dialogue} (h : Turn.moveFrom d none = .leave) :
    d.isRedirect = true := by
  unfold Turn.moveFrom Dialogue.picksElement at h
  cases helements : d.elements with
  | nil => simp [Dialogue.isRedirect, helements]
  | cons e es => grind

/-- A dialogue that picks an element is never left. -/
theorem Turn.not_picksElement_of_moveFrom {d : Dialogue} {index : Option Nat}
    (h : Turn.moveFrom d index = .leave) : d.picksElement = false := by
  unfold Turn.moveFrom at h
  grind

/-- Other stores, where each place of the old ones is in them, and acts to stand in front of the
journal. -/
structure Recast where
  stores : List Store → List Store
  place : Slot → Slot
  front : List Act := []

/-- The same dialogue in its other place. -/
def Active.recast (r : Recast) (a : Active) : Active :=
  { a with slot := r.place a.slot }

/-- The conversation as it would be with the other stores, and with other acts in front of its
journal. -/
def Conversation.recast (r : Recast) (c : Conversation) : Conversation :=
  { c with
    stores := r.stores c.stores
    active := c.active.map (Active.recast r)
    journal := r.front ++ c.journal }

/-- The other stores find a stand-in for every key, and keep the places apart. -/
structure Recast.Serves (r : Recast) (c : Conversation) : Prop where
  place : Function.Injective r.place
  target : ∀ key, Option.Rel
    (fun found other => other.1 = r.place found.1 ∧
      found.2.StandIn found.2.isRedirect other.2)
    (c.target? key) ((c.recast r).target? key)

namespace Conversation

variable (r : Recast) (c : Conversation)

/-! ### Single acts -/

@[simp] theorem recast_record (acts : List Act) :
    (c.record acts).recast r = (c.recast r).record acts := by
  simp [recast, record]

@[simp] theorem recast_note (n : Notice) : (c.note n).recast r = (c.recast r).note n := by
  simp [note]

@[simp] theorem recast_emit (e : Event) : (c.emit e).recast r = (c.recast r).emit e := by
  simp [recast, emit]

@[simp] theorem recast_close : c.close.recast r = (c.recast r).close := by
  have hevents : (c.recast r).closingEvents = c.closingEvents := by
    cases hactive : c.active <;> simp [closingEvents, recast, hactive]
  simp only [close_eq, hevents]
  simp [recast]

@[simp] theorem recast_begin (slot : Slot) (key : String) :
    (c.begin slot key).recast r = (c.recast r).begin (r.place slot) key := by
  simp [begin, recast, emit, Active.recast]

@[simp] theorem recast_present (a : Active) (index : Nat) (e : Element) :
    (c.present a index e).recast r = (c.recast r).present (a.recast r) index e := by
  simp [present, recast, record, Active.recast]

end Conversation

namespace Recast.Serves

variable {r : Recast} {c c' : Conversation}

/-- Only the stores count. -/
theorem congr (h : r.Serves c) (hstores : c'.stores = c.stores) : r.Serves c' := by
  refine ⟨h.place, fun key => ?_⟩
  have hkey := h.target key
  simpa only [Conversation.target?, Conversation.locate, Conversation.dialogueAt,
    Conversation.recast, hstores] using hkey

end Recast.Serves

namespace Turn

def recast (r : Recast) (t : Turn) : Turn :=
  ⟨t.talk.recast r, t.hops⟩

def Job.recast (r : Recast) : Job → Job
  | .endCode slot => .endCode (r.place slot)
  | job => job

def Agenda.recast (r : Recast) (w : Agenda) : Agenda :=
  ⟨w.jobs.map (Job.recast r), w.turn.recast r⟩

end Turn

def Progress.recast {α : Type} (r : Recast) (p : Progress α) : Progress α :=
  ⟨p.turn.recast r, p.result⟩

namespace Turn

variable {r : Recast} {t : Turn}

theorem recast_close : t.close.recast r = (t.recast r).close := by
  simp [recast, update, close]

theorem recast_updateNote (n : Notice) :
    (t.update fun c => c.note n).recast r = (t.recast r).update fun c => c.note n := by
  simp [recast, update]

theorem recast_closeIf (b : Bool) : (closeIf b t).recast r = closeIf b (t.recast r) := by
  cases b with
  | false => rfl
  | true => exact recast_close

/-- Arriving is the same in either place, as long as no two places become one. -/
theorem recast_arrive (h : Function.Injective r.place) (slot : Slot) (key : String) :
    (arrive slot key t).recast r = arrive (r.place slot) key (t.recast r) := by
  have helsewhere : (t.recast r).talk.active.any (fun a => a.slot != r.place slot) =
      t.talk.active.any (fun a => a.slot != slot) := by
    cases hactive : t.talk.active with
    | none => simp [recast, Conversation.recast, hactive]
    | some a =>
        have hsame : (r.place a.slot == r.place slot) = (a.slot == slot) := by
          rw [Bool.eq_iff_iff, beq_iff_eq, beq_iff_eq, h.eq_iff]
        simp [recast, Conversation.recast, hactive, Active.recast, bne, hsame]
  have hclosed := recast_closeIf (r := r) (t := t) (t.talk.active.any fun a => a.slot != slot)
  rw [arrive, arrive, helsewhere, ← hclosed]
  simp [update, recast]

theorem recast_slot_iff (h : Function.Injective r.place) {slot : Slot} :
    (t.recast r).talk.active.map Active.slot = some (r.place slot) ↔
      t.talk.active.map Active.slot = some slot := by
  cases hactive : t.talk.active with
  | none => simp [recast, Conversation.recast, hactive]
  | some a => simp [recast, Conversation.recast, hactive, Active.recast, h.eq_iff]

theorem recast_presentAt {a : Active} {d e : Dialogue} (index : Nat)
    (helements : e.elements = d.elements) :
    (t.presentAt a d index).recast r = (t.recast r).presentAt (a.recast r) e index := by
  simp only [presentAt, helements]
  split <;> simp [recast, update]

theorem recast_presentRandom {a : Active} {d e : Dialogue}
    (helements : e.elements = d.elements) :
    (t.presentRandom a d).recast r = (t.recast r).presentRandom (a.recast r) e := by
  rw [presentRandom, presentRandom, helements]
  exact recast_presentAt _ helements

/-! ### What gives rise to jobs -/

theorem recast_exitJobs (slot : Slot) (dialogue : String) (target : Option Target) :
    (exitJobs slot dialogue target).map (Job.recast r) =
      exitJobs (r.place slot) dialogue target := by
  match target with
  | none => rfl
  | some (.key key) => rfl
  | some (.code statements) => simp [exitJobs, Job.recast]

/-- A dialogue is left by the same exit where the one that stands in has the same exits. -/
theorem recast_leaveAgenda {d e : Dialogue} (h : d.StandIn true e) (slot : Slot) :
    (leaveAgenda slot d t).recast r = leaveAgenda (r.place slot) e (t.recast r) := by
  have hexits : selectExit (t.recast r).talk.vars.lookup e.exits =
      selectExit t.talk.vars.lookup d.exits := h.exits rfl _
  simp only [leaveAgenda, hexits, h.name, Agenda.recast, recast_exitJobs]
  simp [recast, update]

/-- A dialogue goes on in the same way where it is played by another. -/
theorem recast_proceedAgenda {leaves : Bool} {a : Active} {d e : Dialogue}
    (h : d.StandIn leaves e) (hleaves : moveFrom d a.index = .leave → leaves = true) :
    (proceedAgenda a d t).recast r = proceedAgenda (a.recast r) e (t.recast r) := by
  have hmove : moveFrom e (a.recast r).index = moveFrom d a.index := h.moveFrom a.index
  simp only [proceedAgenda, hmove]
  cases hnext : moveFrom d a.index with
  | finish => rfl
  | pick => simp [Agenda.recast, recast_presentRandom h.elements]
  | advance index => simp [Agenda.recast, recast_presentAt index h.elements]
  | leave => exact recast_leaveAgenda (h.mono fun _ => hleaves hnext) a.slot

theorem recast_chooseAgenda (e : Element) (selected : Nat) :
    (chooseAgenda e selected t).recast r = chooseAgenda e selected (t.recast r) := by
  unfold chooseAgenda
  split <;> simp [Agenda.recast, Job.recast, recast, update]

theorem recast_startAgenda (h : r.Serves t.talk) (key : String) (exit : Bool) :
    (startAgenda key exit t).recast r = startAgenda key exit (t.recast r) := by
  have hseen : (t.recast r).talk.seen = t.talk.seen := rfl
  have htarget : Option.Rel _ (t.talk.target? key) ((t.recast r).talk.target? key) :=
    h.target key
  unfold startAgenda
  generalize t.talk.target? key = found, (t.recast r).talk.target? key = other at htarget ⊢
  cases htarget with
  | none => simp [Agenda.recast, recast_closeIf, recast_updateNote]
  | @some found other hfound =>
      obtain ⟨slot, d⟩ := found
      obtain ⟨_, e⟩ := other
      obtain ⟨rfl, hstand⟩ := hfound
      change d.StandIn d.isRedirect e at hstand
      simp only [hseen, hstand.flags]
      split
      · simp [Agenda.recast, recast_closeIf]
      · have hproceed := recast_proceedAgenda (r := r) (t := arrive slot key t)
          (a := ⟨slot, key, none⟩) hstand isRedirect_of_moveFrom
        rw [recast_arrive h.place] at hproceed
        simp only [Active.recast] at hproceed
        rw [← hproceed]
        simp [Agenda.recast, Job.recast]

/-- A hop leads to the same dialogue in its other place. -/
theorem recast_hopAgenda (h : r.Serves t.talk) (key : String) (exit : Bool) :
    (hopAgenda key exit t).recast r = hopAgenda key exit (t.recast r) := by
  have hhops : (t.recast r).hops = t.hops := rfl
  simp only [hopAgenda, hhops]
  cases t.hops with
  | zero => simp [Agenda.recast, recast_closeIf, recast_close, recast_updateNote]
  | succ hops => exact recast_startAgenda (t := ⟨t.talk, hops⟩) h key exit

theorem recast_requestJob (request : Request) :
    (requestJob request).recast r = requestJob request := by
  cases request <;> rfl

/-- Commands do not see the stores. -/
theorem recast_callAgenda (name : String) (sources : List String) :
    (callAgenda name sources t).recast r = callAgenda name sources (t.recast r) := by
  have hcall : (t.recast r).talk.commands.call name sources (t.recast r).talk.vars =
      t.talk.commands.call name sources t.talk.vars := rfl
  simp only [callAgenda, hcall]
  split
  · simp [Agenda.recast, recast, update]
  · next args reply _ =>
      have hran : ∀ vars acts, ({ t.talk with vars }.record acts).recast r =
          { t.talk.recast r with vars }.record acts := by
        intro vars acts
        simp [Conversation.recast, Conversation.record]
      split
      · simp [Agenda.recast, recast, update, hran]
      · simp [Agenda.recast, recast, update, hran, Function.comp_def, recast_requestJob]

theorem recast_assign (c : Conversation) (name source : String) :
    (assign c name source).recast r = assign (c.recast r) name source := by
  have hvars : (c.recast r).vars = c.vars := rfl
  simp only [assign, hvars]
  split
  · rfl
  · simp

/-- Neither do statements. -/
theorem recast_statementAgenda (dialogue : String) (s : Statement) :
    (statementAgenda dialogue s t).map (Agenda.recast r) =
      statementAgenda dialogue s (t.recast r) := by
  unfold statementAgenda
  split
  · exact congrArg Except.ok (recast_callAgenda _ _)
  · rfl
  · exact congrArg Except.ok (by simp [Agenda.recast, recast, update, recast_assign])

/-! ### Jobs and runs -/

/-- A job does the same wherever it is played from. -/
theorem recast_act (h : r.Serves t.talk) (job : Job) :
    (job.act t).map (Agenda.recast r) = (job.recast r).act (t.recast r) := by
  cases job with
  | hop key exit => exact congrArg Except.ok (recast_hopAgenda h key exit)
  | land exit =>
      have htalking : (t.recast r).talk.isTalking = t.talk.isTalking := by
        simp [recast, Conversation.recast, Conversation.isTalking]
      simp [Job.act, Job.recast, Except.map, Agenda.recast, recast_closeIf, htalking]
  | close => simp [Job.act, Job.recast, Except.map, Agenda.recast, recast_close]
  | statement dialogue s => exact recast_statementAgenda dialogue s
  | endCode slot =>
      simp [Job.act, Job.recast, Except.map, Agenda.recast, recast_closeIf,
        recast_slot_iff h.place]

/-- Giving up comes to the same. -/
theorem recast_abandon (jobs : List Job) :
    (abandon jobs t).recast r = abandon (jobs.map (Job.recast r)) (t.recast r) := by
  induction jobs generalizing t with
  | nil => rfl
  | cons job jobs ih =>
      cases job with
      | endCode slot =>
          rw [abandon, ih, recast_close]
          rfl
      | _ => exact ih

/-- A run from other stores comes to the same end, told in terms of those stores. -/
theorem Runs.recast {w : Agenda} {p : Progress Unit} (run : Runs w p)
    (h : r.Serves w.turn.talk) : Runs (w.recast r) (p.recast r) := by
  induction run with
  | done t => exact .done _
  | @work job jobs t next p hact tail ih =>
      have hnext := (recast_act h job).symm
      rw [hact] at hnext
      have hrest := ih (h.congr (changes_act hact).stores_eq)
      simp only [Agenda.recast, List.map_append] at hrest
      exact .work hnext hrest
  | @fail job jobs t fault hact =>
      have hnext := (recast_act h job).symm
      rw [hact] at hnext
      simp only [Progress.recast, recast_abandon]
      exact .fail hnext

theorem recast_landed (exit : Bool) (next : Progress Bool) :
    (landed exit next).recast r = landed exit (next.recast r) := by
  obtain ⟨u, fault | answer⟩ := next
  · rfl
  · simp only [landed, Progress.recast, done, recast_closeIf]

theorem close_ne_self (t : Turn) : t.close ≠ t := by
  intro h
  have hlength := congrArg (fun u => u.talk.journal.length) h
  simp [close, update] at hlength

/-- What a hop came to shows in how it lands: landing with an exit closes after a no. -/
theorem eq_of_landed {next other : Progress Bool}
    (h : ∀ exit, landed exit next = landed exit other) : next = other := by
  obtain ⟨t, result⟩ := next
  obtain ⟨u, result'⟩ := other
  have hstay := h false
  have hexit := h true
  cases result with
  | error fault =>
      cases result' with
      | error fault' => simpa only [landed, Progress.mk.injEq, Except.error.injEq] using hstay
      | ok answer' => simp [landed, done] at hstay
  | ok answer =>
      cases result' with
      | error fault' => simp [landed, done] at hstay
      | ok answer' =>
          have hturn : t = u := by simpa [landed, done, closeIf] using hstay
          subst hturn
          cases answer <;> cases answer'
          · rfl
          · exact absurd (by simpa [landed, done, closeIf] using hexit) (close_ne_self t)
          · exact absurd (by simpa [landed, done, closeIf] using hexit.symm) (close_ne_self t)
          · rfl

/-- Hopping from other stores comes to the same, answer included. -/
theorem recast_follow (h : r.Serves t.talk) {depth : Nat} (hdepth : t.hops ≤ depth)
    (key : String) : (follow depth key t).recast r = follow depth key (t.recast r) := by
  apply eq_of_landed
  intro exit
  rw [← recast_landed]
  have hrun := (follow_yields depth key exit t hdepth).runs
  exact (hrun.recast h).deterministic (follow_yields depth key exit (t.recast r) hdepth).runs

end Turn

/-! ### Calls of the host -/

/-- The other stores serve for starting and for going on: each place of a dialogue is that of a
stand-in for it. -/
structure Recast.Keeps (r : Recast) (c : Conversation) : Prop extends r.Serves c where
  dialogueAt : ∀ slot, Option.Rel (fun d e => d.StandIn (!d.picksElement) e)
    (c.dialogueAt slot) ((c.recast r).dialogueAt (r.place slot))

/-- Stores in which each key is found at the place of the old one, and a stand-in there. -/
theorem Recast.Keeps.of_locate {r : Recast} {c : Conversation}
    (hplace : Function.Injective r.place)
    (hlocate : ∀ key, (c.recast r).locate key = (c.locate key).map r.place)
    (hdialogue : ∀ slot, Option.Rel (fun d e => d.StandIn (!d.picksElement) e)
      (c.dialogueAt slot) ((c.recast r).dialogueAt (r.place slot))) : r.Keeps c := by
  refine ⟨⟨hplace, fun key => ?_⟩, hdialogue⟩
  unfold Conversation.target?
  rw [hlocate]
  cases c.locate key with
  | none => exact .none
  | some slot =>
      have hslot := hdialogue slot
      rw [Option.map_some, Option.bind_some, Option.bind_some]
      generalize c.dialogueAt slot = found,
        (c.recast r).dialogueAt (r.place slot) = other at hslot ⊢
      cases hslot with
      | none => exact .none
      | some hstand => exact .some ⟨rfl, hstand.of_picksElement⟩

namespace Turn

variable {r : Recast} {t : Turn}

theorem recast_stepAgenda (h : r.Keeps t.talk) (selected : Nat) :
    (stepAgenda selected t).recast r = stepAgenda selected (t.recast r) := by
  have hactive : (t.recast r).talk.active = t.talk.active.map (Active.recast r) := rfl
  unfold stepAgenda
  rw [hactive]
  cases t.talk.active with
  | none => rfl
  | some a =>
      have hdialogue : Option.Rel _ (t.talk.dialogueAt a.slot)
        ((t.recast r).talk.dialogueAt (a.recast r).slot) := h.dialogueAt a.slot
      simp only [Option.map_some]
      generalize t.talk.dialogueAt a.slot = found,
        (t.recast r).talk.dialogueAt (a.recast r).slot = other at hdialogue ⊢
      cases hdialogue with
      | none => rfl
      | @some d e hstand =>
          have helement : (a.recast r).element? e = a.element? d := by
            simp only [Active.element?, Active.recast, hstand.elements]
          have hproceed := recast_proceedAgenda (r := r) (t := t) (a := a) hstand
            fun hleave => by simp [not_picksElement_of_moveFrom hleave]
          simp only [helement]
          split
          · split
            · exact recast_chooseAgenda _ selected
            · exact hproceed
          · exact hproceed

end Turn

namespace Conversation

open Turn (opening outcome)

variable {r : Recast} {c : Conversation}

/-- A call of the host comes to the same, as soon as it opens with the same jobs. -/
theorem recast_perform_of_opening {call : HostCall} (h : r.Serves (opening c call).turn.talk)
    (hopening : (opening c call).recast r = opening (c.recast r) call) :
    (c.perform call).recast r = (c.recast r).perform call ∧
      outcome (c.recast r) call = outcome c call := by
  obtain ⟨p, hrun, htalk, hresult⟩ := Turn.perform_runs c call
  obtain ⟨q, hother, htalk', hresult'⟩ := Turn.perform_runs (c.recast r) call
  have hrecast := hrun.recast h
  rw [hopening] at hrecast
  cases hother.deterministic hrecast
  rw [← htalk, ← htalk', ← hresult, ← hresult']
  exact ⟨rfl, rfl⟩

theorem recast_advance (h : r.Keeps c) (selected : Nat) :
    (c.advance selected).talk.recast r = ((c.recast r).advance selected).talk ∧
      ((c.recast r).advance selected).result = (c.advance selected).result :=
  @recast_perform_of_opening r c (.advance selected)
    (h.congr (Turn.changes_step selected (Turn.fresh c)).stores_eq)
    (Turn.recast_stepAgenda (t := Turn.fresh c) h selected)

/-- A call of the host does the same and answers the same wherever it is played from. -/
theorem recast_perform (h : r.Keeps c) {call : HostCall} (hcall : ∀ s, call ≠ .addStore s) :
    (c.perform call).recast r = (c.recast r).perform call ∧
      outcome (c.recast r) call = outcome c call := by
  cases call with
  | start key => exact recast_perform_of_opening h.toServes rfl
  | advance selected => exact recast_advance h selected
  | confirm reading =>
      simp only [perform, outcome, confirm]
      split
      · exact ⟨recast_record r c [.skipped], rfl⟩
      · exact recast_advance h reading.selected
  | close => exact ⟨recast_close r c, rfl⟩
  | steer x y => exact ⟨recast_record r c [.steered x y], rfl⟩
  | addStore s => exact absurd rfl (hcall s)
  | _ => exact ⟨rfl, rfl⟩

end Conversation

end Parley
