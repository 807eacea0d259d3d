import Parley.Proofs.Conversation.Ending

/-!
# How statements arise

Statements come onto an agenda in one way only: as the block of an exit that the active dialogue is
left by, with the end of the block behind it. Such a block is selected where a call goes on with a
dialogue that has come to its end, and where a hop enters a dialogue without elements.
-/

namespace Parley

namespace Turn

variable {t : Turn} {a : Active} {d : Dialogue} {statements : List Statement} {slot : Slot}
variable {dialogue key : String} {s : Statement} {selected : Nat}

/-! ### Selecting a block -/

/-- The dialogue has come to its end, and its first open exit runs code. -/
structure Selects (t : Turn) (a : Active) (d : Dialogue) (statements : List Statement) : Prop where
  move : moveFrom d a.index = .leave
  exit : (Conversation.selectExit t.talk.vars.lookup d.exits).1 = some (.code statements)

/-- A dialogue is active, and what it shows asks for no choice. -/
structure Proceeds (t : Turn) (a : Active) (d : Dialogue) : Prop where
  active : t.talk.active = some a
  place : t.talk.dialogueAt a.slot = some d
  plain : ∀ e, a.element? d = some e → e.hasChoices = false

/-- A hop to the key is not refused. -/
structure Enters (t : Turn) (key : String) (slot : Slot) (d : Dialogue) : Prop where
  hops : t.hops ≠ 0
  target : t.talk.target? key = some (slot, d)
  fresh : (d.flags.oneShot && t.talk.seen.has key) = false

/-- Where a block is selected, its statements are all that is to be done, in order, and the end of
the code behind them. -/
theorem proceedAgenda_of_selects (h : t.Selects a d statements) :
    ∃ acts, proceedAgenda a d t =
      ⟨statements.map (.statement d.name) ++ [.endCode a.slot],
        t.update fun c => c.record acts⟩ := by
  refine ⟨(Conversation.selectExit t.talk.vars.lookup d.exits).2.map .noticed, ?_⟩
  simp only [proceedAgenda, h.move, leaveAgenda, h.exit, exitJobs]

theorem stepAgenda_of_proceeds (h : t.Proceeds a d) :
    stepAgenda selected t = proceedAgenda a d t := by
  simp only [stepAgenda, h.active, h.place]
  cases he : a.element? d with
  | none => rfl
  | some e => simp only [h.plain e he, Bool.false_eq_true, if_false]

/-- Where a hop enters a dialogue, the variables are those it was made with. -/
theorem selects_arrive_iff {hops : Nat} :
    (arrive slot key { t with hops }).Selects a d statements ↔ t.Selects a d statements := by
  have hvars := arrive_vars slot key { t with hops }
  constructor
  · rintro ⟨hmove, hexit⟩
    exact ⟨hmove, hvars ▸ hexit⟩
  · rintro ⟨hmove, hexit⟩
    exact ⟨hmove, hvars ▸ hexit⟩

/-- A hop to a dialogue that has nothing to show selects its block at once. -/
theorem hopAgenda_of_selects (exit : Bool) (h : t.Enters key slot d)
    (hselects : t.Selects ⟨slot, key, none⟩ d statements) :
    ∃ hops acts, hopAgenda key exit t =
      ⟨statements.map (.statement d.name) ++ .endCode slot :: [.land exit],
        (arrive slot key { t with hops }).update fun c => c.record acts⟩ := by
  obtain ⟨hops, hsucc⟩ := Nat.exists_eq_succ_of_ne_zero h.hops
  obtain ⟨acts, hproceed⟩ := proceedAgenda_of_selects (selects_arrive_iff.mpr hselects)
  refine ⟨hops, acts, ?_⟩
  simp only [hopAgenda, hsucc, startAgenda, h.target, h.fresh, Bool.false_eq_true, if_false]
  rw [hproceed, List.append_assoc]
  rfl

/-! ### Whatever holds a statement was selected -/

/-- Conversely, statements come up only where their block is selected. -/
theorem selects_of_mem_proceed (h : Job.statement dialogue s ∈ (proceedAgenda a d t).jobs) :
    ∃ statements, t.Selects a d statements := by
  unfold proceedAgenda at h
  cases hmove : moveFrom d a.index with
  | leave =>
      simp only [hmove, leaveAgenda] at h
      match hexit : (Conversation.selectExit t.talk.vars.lookup d.exits).1 with
      | none => simp [hexit, exitJobs] at h
      | some (.key key) => simp [hexit, exitJobs] at h
      | some (.code statements) => exact ⟨statements, hmove, hexit⟩
  | _ => simp [hmove] at h

theorem selects_of_mem_step (h : Job.statement dialogue s ∈ (stepAgenda selected t).jobs) :
    ∃ a d statements, t.Proceeds a d ∧ t.Selects a d statements := by
  unfold stepAgenda at h
  cases ha : t.talk.active with
  | none => simp [ha] at h
  | some a =>
      simp only [ha] at h
      cases hd : t.talk.dialogueAt a.slot with
      | none => simp [hd] at h
      | some d =>
          simp only [hd] at h
          cases he : a.element? d with
          | none =>
              simp only [he] at h
              obtain ⟨statements, hselects⟩ := selects_of_mem_proceed h
              exact ⟨a, d, statements, ⟨ha, hd, by simp [he]⟩, hselects⟩
          | some e =>
              simp only [he] at h
              split at h
              · unfold chooseAgenda at h
                split at h <;> simp at h
              · next hplain =>
                  obtain ⟨statements, hselects⟩ := selects_of_mem_proceed h
                  exact ⟨a, d, statements, ⟨ha, hd, by simpa [he] using hplain⟩, hselects⟩

/-- The same of a hop. -/
theorem selects_of_mem_hop {exit : Bool}
    (h : Job.statement dialogue s ∈ (hopAgenda key exit t).jobs) :
    ∃ slot d statements, t.Enters key slot d ∧ t.Selects ⟨slot, key, none⟩ d statements := by
  unfold hopAgenda at h
  cases hhops : t.hops with
  | zero => simp [hhops] at h
  | succ hops =>
      simp only [hhops, startAgenda] at h
      split at h
      · simp at h
      · next slot d htarget =>
          split at h
          · simp at h
          · next hfresh =>
              have hproceed : Job.statement dialogue s ∈
                  (proceedAgenda ⟨slot, key, none⟩ d (arrive slot key { t with hops })).jobs := by
                simpa using h
              obtain ⟨statements, hselects⟩ := selects_of_mem_proceed hproceed
              refine ⟨slot, d, statements, ⟨?_, htarget, by simpa using hfresh⟩,
                selects_arrive_iff.mp hselects⟩
              rw [hhops]
              exact Nat.succ_ne_zero hops

/-! ### Agendas that arise -/

/-- No job is a statement. -/
def Plain (jobs : List Job) : Prop :=
  ∀ dialogue s, Job.statement dialogue s ∉ jobs

/-- The agenda holds no statement, or it begins with the block that the active dialogue selects,
and the end of that block. -/
inductive Arises : Agenda → Prop
  | plain {w : Agenda} (h : Plain w.jobs) : Arises w
  | block {a : Active} {d : Dialogue} {statements : List Statement} {rest : List Job} {t : Turn}
      (hactive : t.talk.active = some a) (hd : t.talk.dialogueAt a.slot = some d)
      (hselects : t.Selects a d statements) (hrest : Plain rest) :
      Arises ⟨statements.map (.statement d.name) ++ .endCode a.slot :: rest, t⟩

/-- An agenda arises if its statements do. -/
theorem arises_of_mem {w : Agenda}
    (h : ∀ dialogue s, Job.statement dialogue s ∈ w.jobs → Arises w) : Arises w := by
  apply Classical.byContradiction
  intro hno
  exact hno (.plain fun dialogue s hmem => hno (h dialogue s hmem))

theorem arises_step (selected : Nat) (t : Turn) : Arises (stepAgenda selected t) := by
  apply arises_of_mem
  intro dialogue s hmem
  obtain ⟨a, d, statements, hproceeds, hselects⟩ := selects_of_mem_step hmem
  obtain ⟨acts, hagenda⟩ := proceedAgenda_of_selects hselects
  rw [stepAgenda_of_proceeds hproceeds, hagenda]
  exact .block hproceeds.active hproceeds.place ⟨hselects.move, hselects.exit⟩ (by simp [Plain])

theorem arises_hop (key : String) (exit : Bool) (t : Turn) : Arises (hopAgenda key exit t) := by
  apply arises_of_mem
  intro dialogue s hmem
  obtain ⟨slot, d, statements, henters, hselects⟩ := selects_of_mem_hop hmem
  obtain ⟨hops, acts, hagenda⟩ := hopAgenda_of_selects exit henters hselects
  have harrived : (arrive slot key { t with hops }).Selects ⟨slot, key, none⟩ d statements :=
    selects_arrive_iff.mpr hselects
  have hd := (Conversation.target?_eq_some_iff.mp henters.target).2
  rw [hagenda]
  exact .block (a := ⟨slot, key, none⟩) rfl ((dialogueAt_arrive slot slot key _).trans hd)
    ⟨harrived.move, harrived.exit⟩ (by simp [Plain])

/-- A statement asks for hops and for the end, never for statements. -/
theorem plain_statement {next : Agenda} (h : statementAgenda dialogue s t = .ok next) :
    Plain next.jobs := by
  have hnil : Plain [] := by simp [Plain]
  have hrequests : ∀ requests : List Request, Plain (requests.map requestJob) := by
    intro requests dialogue s hmem
    obtain ⟨request, _, hjob⟩ := List.mem_map.mp hmem
    cases request <;> cases hjob
  unfold statementAgenda at h
  split at h
  · cases h
    unfold callAgenda
    split
    · exact hnil
    · simp only
      split
      · exact hnil
      · exact hrequests _
  · cases h
  · cases h
    exact hnil

/-- What one job gives rise to. -/
theorem arises_act {job : Job} {next : Agenda} (h : job.act t = .ok next) : Arises next := by
  cases job with
  | hop key exit =>
      cases h
      exact arises_hop key exit t
  | statement dialogue s => exact .plain (plain_statement h)
  | _ =>
      cases h
      exact .plain (by simp [Plain])

/-- What a call of the host begins with. -/
theorem arises_opening (c : Conversation) (call : HostCall) : Arises (opening c call) := by
  cases call with
  | start key => exact .plain (by simp [Plain, opening])
  | advance selected => exact arises_step selected _
  | confirm reading =>
      simp only [opening]
      split
      · exact .plain (by simp [Plain])
      · exact arises_step reading.selected _
  | _ => exact .plain (by simp [Plain, opening])

end Turn

end Parley
