import Parley.Conversation.Host

/-!
# The agenda of a turn

What a turn still has to do, as a list of jobs that are worked off from the front. A job is done
without a look at the jobs behind it, and puts the jobs it gives rise to in front of them: a hop
made by code stands before the rest of the code. Nothing nests, and no job is bounded by
anything but the hops of the turn.

## Implementation notes

A hop has to know what becomes of the conversation when it comes to nothing, so the job carries
the answer. The end of a code block is a job of its own, because the place of the dialogue that
runs the code decides there whether the conversation ends, and because a mistake of the script
ends the conversation once for every block that is still open.
-/

namespace Parley

/-- The dialogue a key leads to, with the place where it is found. -/
def Conversation.target? (c : Conversation) (key : String) : Option (Slot × Dialogue) :=
  (c.locate key).bind fun slot => (c.dialogueAt slot).map (slot, ·)

namespace Turn

/-- Something that is still to be done in a turn. -/
inductive Job where
  /-- A hop to a key. With `exit` the conversation ends if that comes to nothing. -/
  | hop (key : String) (exit : Bool)
  /-- What is left of a hop when the dialogue it led to has been entered. -/
  | land (exit : Bool)
  | close
  | statement (dialogue : String) (s : Statement)
  /-- The end of the code that the dialogue at a place runs. -/
  | endCode (slot : Slot)

/-- A turn together with the jobs it still has. -/
structure Agenda where
  jobs : List Job
  turn : Turn

def closeIf (b : Bool) (t : Turn) : Turn :=
  if b then t.close else t

/-- Makes the dialogue at a place the active one, and ends another one that is active. -/
def arrive (slot : Slot) (key : String) (t : Turn) : Turn :=
  (closeIf (t.talk.active.any fun a => a.slot != slot) t).update fun c => c.begin slot key

/-! ### What gives rise to jobs -/

/-- What a selected exit asks for. Behind code stands its end, which looks where it has led. -/
def exitJobs (slot : Slot) (dialogue : String) : Option Target → List Job
  | none => [.close]
  | some (.key key) => [.hop key true]
  | some (.code statements) => statements.map (.statement dialogue) ++ [.endCode slot]

def leaveAgenda (slot : Slot) (d : Dialogue) (t : Turn) : Agenda :=
  let (target, notices) := Conversation.selectExit t.talk.vars.lookup d.exits
  ⟨exitJobs slot d.name target, t.update fun c => c.record (notices.map .noticed)⟩

/-- Going on in a dialogue, with a hop left as a job. -/
def proceedAgenda (a : Active) (d : Dialogue) (t : Turn) : Agenda :=
  match moveFrom d a.index with
  | .finish => ⟨[.close], t⟩
  | .pick => ⟨[], t.presentRandom a d⟩
  | .advance index => ⟨[], t.presentAt a d index⟩
  | .leave => leaveAgenda a.slot d t

/-- Taking a choice, with its hop left as a job. -/
def chooseAgenda (e : Element) (selected : Nat) (t : Turn) : Agenda :=
  match e.choices[selected]? with
  | some choice => ⟨[.hop choice.key true], t⟩
  | none => ⟨[.close], t.update fun c => c.note .choiceOutOfRange⟩

/-- Going on from what is shown. -/
def stepAgenda (selected : Nat) (t : Turn) : Agenda :=
  match t.talk.active with
  | none => ⟨[.close], t⟩
  | some a =>
      match t.talk.dialogueAt a.slot with
      | none => ⟨[.close], t⟩
      | some d =>
          match a.element? d with
          | some e => if e.hasChoices then chooseAgenda e selected t else proceedAgenda a d t
          | none => proceedAgenda a d t

/-- A dialogue is looked for and entered; what it does first stands before the landing. -/
def startAgenda (key : String) (exit : Bool) (t : Turn) : Agenda :=
  match t.talk.target? key with
  | none => ⟨[], closeIf exit (t.update fun c => c.note (.unknownDialogue key))⟩
  | some (slot, d) =>
      if d.flags.oneShot && t.talk.seen.has key then ⟨[], closeIf exit t⟩
      else
        let entered := proceedAgenda ⟨slot, key, none⟩ d (t.arrive slot key)
        ⟨entered.jobs ++ [.land exit], entered.turn⟩

/-- A hop to a key: cut off where no hop is left, and else a start that uses one up. -/
def hopAgenda (key : String) (exit : Bool) (t : Turn) : Agenda :=
  match t.hops with
  | 0 => ⟨[], closeIf exit (t.update fun c => c.note (.redirectLimit key)).close⟩
  | hops + 1 => startAgenda key exit { t with hops }

def requestJob : Request → Job
  | .start key => .hop key false
  | .finish => .close

/-- Running a command. What its handler asked for is left as jobs. -/
def callAgenda (name : String) (sources : List String) (t : Turn) : Agenda :=
  match t.talk.commands.call name sources t.talk.vars with
  | .refused error => ⟨[], t.update fun c => c.note (.commandFailed error)⟩
  | .handled args reply =>
      let t := t.update fun c => { c with vars := reply.vars }.record [.ran name args]
      match reply.failure with
      | some error => ⟨[], t.update fun c => c.note (.commandFailed error)⟩
      | none => ⟨reply.requests.map requestJob, t⟩

/-- Running a statement. A mistake leaves no agenda. -/
def statementAgenda (dialogue : String) (s : Statement) (t : Turn) :
    Except ScriptFault Agenda :=
  match s.kind, s.args with
  | .call, sources => .ok (callAgenda s.name sources t)
  | .assignment, [] => .error (.noExpression dialogue s.name)
  | .assignment, source :: _ => .ok ⟨[], t.update fun c => assign c s.name source⟩

/-! ### Working the jobs off -/

/-- Does one job. The agenda holds only the jobs it gives rise to. -/
def Job.act (t : Turn) : Job → Except ScriptFault Agenda
  | .hop key exit => .ok (hopAgenda key exit t)
  | .land exit => .ok ⟨[], closeIf (exit && !t.talk.isTalking) t⟩
  | .close => .ok ⟨[], t.close⟩
  | .statement dialogue s => statementAgenda dialogue s t
  | .endCode slot => .ok ⟨[], closeIf (t.talk.active.map Active.slot = some slot) t⟩

/-- Gives the jobs up. Every code block among them ends the conversation. -/
def abandon : List Job → Turn → Turn
  | [], t => t
  | .endCode _ :: jobs, t => abandon jobs t.close
  | _ :: jobs, t => abandon jobs t

/-- Working an agenda off ends in some progress after finitely many jobs. -/
inductive Runs : Agenda → Progress Unit → Prop
  | done (t : Turn) : Runs ⟨[], t⟩ t.done
  | work {job : Job} {jobs : List Job} {t : Turn} {next : Agenda} {p : Progress Unit}
      (h : job.act t = .ok next) (tail : Runs ⟨next.jobs ++ jobs, next.turn⟩ p) :
      Runs ⟨job :: jobs, t⟩ p
  | fail {job : Job} {jobs : List Job} {t : Turn} {fault : ScriptFault}
      (h : job.act t = .error fault) :
      Runs ⟨job :: jobs, t⟩ ⟨abandon jobs t, .error fault⟩

/-- An agenda comes to no more than one end. -/
theorem Runs.deterministic {w : Agenda} {p q : Progress Unit} (run : Runs w p) :
    Runs w q → p = q := by
  induction run with
  | done t =>
      intro other
      cases other
      rfl
  | work h _ ih =>
      intro other
      cases other with
      | work h' tail' =>
          rw [h] at h'
          cases h'
          exact ih tail'
      | fail h' =>
          rw [h] at h'
          cases h'
  | fail h =>
      intro other
      cases other with
      | work h' _ =>
          rw [h] at h'
          cases h'
      | fail h' =>
          rw [h] at h'
          cases h'
          rfl

theorem abandon_append (jobs rest : List Job) (t : Turn) :
    abandon (jobs ++ rest) t = abandon rest (abandon jobs t) := by
  induction jobs generalizing t with
  | nil => rfl
  | cons job jobs ih =>
      cases job with
      | endCode slot => exact ih t.close
      | _ => exact ih t

/-- Statements and hops hold no end of a code block. -/
theorem abandon_eq_self {jobs : List Job} (h : ∀ slot, Job.endCode slot ∉ jobs) (t : Turn) :
    abandon jobs t = t := by
  induction jobs generalizing t with
  | nil => rfl
  | cons job jobs ih =>
      have htail : ∀ slot, Job.endCode slot ∉ jobs := fun slot hm => h slot (by simp [hm])
      cases job with
      | endCode slot => exact absurd (by simp) (h slot)
      | _ => exact ih htail t

/-- What every job keeps, and what giving up keeps, holds where the run ends. -/
theorem Runs.invariant {I : Agenda → Prop} {w : Agenda} {p : Progress Unit} (run : Runs w p)
    (hwork : ∀ job jobs t next, I ⟨job :: jobs, t⟩ → job.act t = .ok next →
      I ⟨next.jobs ++ jobs, next.turn⟩)
    (hfail : ∀ job jobs t fault, I ⟨job :: jobs, t⟩ → job.act t = .error fault →
      I ⟨[], abandon jobs t⟩) (hw : I w) :
    I ⟨[], p.turn⟩ := by
  induction run with
  | done t => exact hw
  | work h _ ih => exact ih (hwork _ _ _ _ hw h)
  | fail h => exact hfail _ _ _ _ hw h

end Turn

end Parley
