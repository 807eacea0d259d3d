import Parley.Proofs.Conversation.Change

/-!
# Where agendas end

The functions that follow a conversation nest, an agenda does not; both come to the same end.
Each function has an agenda that yields its result in front of any further jobs, and so every
call of the host is an agenda that runs to the result of that call.

## Implementation notes

The hops of the functions are bounded by a depth beside the hops of the turn. The lemmas hold
wherever the turn has no more hops than that depth, so the bound is never what ends a chain.
-/

namespace Parley.Turn

/-- How a run goes on with further jobs behind a part of it that came to `q`. -/
def Continues (q : Progress Unit) (rest : List Job) (p : Progress Unit) : Prop :=
  match q.result with
  | .ok _ => Runs ⟨rest, q.turn⟩ p
  | .error fault => p = ⟨abandon rest q.turn, .error fault⟩

/-- An agenda comes to `q`, whatever jobs stand behind it. -/
def Yields (w : Agenda) (q : Progress Unit) : Prop :=
  ∀ rest p, Continues q rest p → Runs ⟨w.jobs ++ rest, w.turn⟩ p

theorem Yields.runs {w : Agenda} {q : Progress Unit} (h : Yields w q) : Runs w q := by
  have hrun := h [] q
  rw [List.append_nil] at hrun
  apply hrun
  obtain ⟨t, result⟩ := q
  cases result with
  | ok u => exact .done t
  | error fault => rfl

/-- Whatever yields an outcome spends hops and gains none. -/
theorem Yields.hops_le {w : Agenda} {q : Progress Unit} (h : Yields w q) :
    q.turn.hops ≤ w.turn.hops :=
  h.runs.changes.hops_le

theorem yields_done (t : Turn) : Yields ⟨[], t⟩ t.done :=
  fun _ _ hrest => hrest

theorem yields_job {job : Job} {t : Turn} {next : Agenda} {q : Progress Unit}
    (hact : job.act t = .ok next) (h : Yields next q) : Yields ⟨[job], t⟩ q :=
  fun rest p hrest => .work hact (h rest p hrest)

theorem close_yields (t : Turn) : Yields ⟨[.close], t⟩ t.close.done :=
  yields_job rfl (yields_done _)

theorem yields_fault {job : Job} {t : Turn} {fault : ScriptFault}
    (hact : job.act t = .error fault) : Yields ⟨[job], t⟩ ⟨t, .error fault⟩ := by
  intro rest p hrest
  cases hrest
  exact .fail hact

/-- Two agendas one behind the other. The second is given up where the first fails. -/
theorem Yields.append {jobs more : List Job} {t : Turn} {q r : Progress Unit}
    (h : Yields ⟨jobs, t⟩ q) (hok : q.result = .ok () → Yields ⟨more, q.turn⟩ r)
    (hfault : ∀ fault, q.result = .error fault → r = ⟨abandon more q.turn, .error fault⟩) :
    Yields ⟨jobs ++ more, t⟩ r := by
  intro rest p hrest
  simp only [List.append_assoc]
  apply h
  unfold Continues
  cases hq : q.result with
  | ok u => exact hok hq rest p hrest
  | error fault =>
      rw [hfault fault hq] at hrest
      change p = _ at hrest
      rw [hrest, abandon_append]

/-- What a hop comes to, seen from what asked for it. -/
def landed (exit : Bool) (next : Progress Bool) : Progress Unit :=
  match next.result with
  | .ok answer => (closeIf (exit && !answer) next.turn).done
  | .error fault => ⟨next.turn, .error fault⟩

theorem land_yields (exit : Bool) (t : Turn) :
    Yields ⟨[.land exit], t⟩ (landed exit ⟨t, .ok t.talk.isTalking⟩) :=
  yields_job rfl (yields_done _)

/-- What entering a dialogue answers when what it does first came to `next`. -/
def entered (next : Progress Unit) : Progress Bool :=
  match next.result with
  | .ok _ => ⟨next.turn, .ok next.turn.talk.isTalking⟩
  | .error fault => ⟨next.turn, .error fault⟩

theorem enter_eq (hop : Hop) (slot : Slot) (d : Dialogue) (key : String) (t : Turn) :
    enter hop slot d key t = entered (proceed hop ⟨slot, key, none⟩ d (arrive slot key t)) :=
  rfl

/-- A hop by an exit is a hop and then a look at what it came to. -/
theorem hopOrClose_eq (hop : Hop) (key : String) (t : Turn) :
    hopOrClose hop key t = landed true (hop key t) := by
  unfold hopOrClose landed
  rcases hop key t with ⟨u, _ | answer⟩
  · rfl
  · cases answer <;> rfl

section Steps

/-! ### The steps of a dialogue

All of them for a way to hop whose own hops are agendas, up to some number of hops left. -/

variable {hop : Hop} {depth : Nat}
variable (hhop : ∀ key exit t, t.hops ≤ depth → Yields ⟨[.hop key exit], t⟩
  (landed exit (hop key t)))
include hhop

omit hhop in
theorem endCode_not_mem_requests (requests : List Request) (slot : Slot) :
    Job.endCode slot ∉ requests.map requestJob := by
  intro hmem
  obtain ⟨request, _, hjob⟩ := List.mem_map.mp hmem
  cases request <;> cases hjob

/-- What a handler asked for, each request a job. -/
theorem perform_yields {t : Turn} (requests : List Request) (h : t.hops ≤ depth) :
    Yields ⟨requests.map requestJob, t⟩ (perform hop requests t) := by
  induction requests generalizing t with
  | nil => exact yields_done t
  | cons request requests ih =>
      cases request with
      | finish =>
          exact (close_yields t).append (fun _ => ih h) (by rintro fault ⟨⟩)
      | start key =>
          have hstart := hhop key false t h
          have hle := hstart.hops_le
          simp only [perform]
          generalize hop key t = next at hstart hle ⊢
          obtain ⟨u, fault | answer⟩ := next
          -- what was asked for behind a failed start is given up
          · apply hstart.append (by rintro ⟨⟩)
            rintro _ ⟨⟩
            rw [abandon_eq_self (endCode_not_mem_requests requests)]
            rfl
          · exact hstart.append (fun _ => ih (Nat.le_trans hle h)) (by rintro fault ⟨⟩)

/-- A command, with its requests worked off. -/
theorem call_yields {t : Turn} (dialogue name : String) (sources : List String)
    (h : t.hops ≤ depth) :
    Yields ⟨[.statement dialogue ⟨.call, name, sources⟩], t⟩ (call hop name sources t) := by
  apply yields_job rfl
  unfold callAgenda call
  cases t.talk.commands.call name sources t.talk.vars with
  | refused error => exact yields_done _
  | handled args reply =>
      simp only
      cases reply.failure with
      | some error => exact yields_done _
      | none => exact perform_yields hhop reply.requests h

theorem execute_yields {t : Turn} (dialogue : String) (s : Statement) (h : t.hops ≤ depth) :
    Yields ⟨[.statement dialogue s], t⟩ (execute hop dialogue s t) := by
  obtain ⟨kind, name, args⟩ := s
  cases kind with
  | call => exact call_yields hhop dialogue name args h
  | assignment =>
      cases args with
      | nil => exact yields_fault rfl
      | cons source args => exact yields_job rfl (yields_done _)

/-- Statements, one job after another until one fails. -/
theorem executeAll_yields {t : Turn} (dialogue : String) (statements : List Statement)
    (h : t.hops ≤ depth) :
    Yields ⟨statements.map (.statement dialogue), t⟩ (executeAll hop dialogue statements t) := by
  induction statements generalizing t with
  | nil => exact yields_done t
  | cons s statements ih =>
      have hfirst := execute_yields hhop dialogue s h
      have hle := hfirst.hops_le
      simp only [executeAll]
      generalize execute hop dialogue s t = next at hfirst hle ⊢
      obtain ⟨u, fault | done⟩ := next
      · apply hfirst.append (by rintro ⟨⟩)
        rintro _ ⟨⟩
        rw [abandon_eq_self (by simp)]
      · exact hfirst.append (fun _ => ih (Nat.le_trans hle h)) (by rintro fault ⟨⟩)

/-- A block of code and what stands behind it. Where a statement fails the rest of the block is
given up. -/
theorem runCode_yields {t : Turn} (slot : Slot) (dialogue : String)
    (statements : List Statement) (h : t.hops ≤ depth) :
    Yields ⟨statements.map (.statement dialogue) ++ [.endCode slot], t⟩
      (runCode hop slot dialogue statements t) := by
  have hall := executeAll_yields hhop dialogue statements h
  simp only [runCode]
  generalize executeAll hop dialogue statements t = next at hall ⊢
  obtain ⟨u, fault | done⟩ := next
  · apply hall.append (by rintro ⟨⟩)
    rintro _ ⟨⟩
    rfl
  · refine hall.append (fun _ => yields_job rfl ?_) (by rintro fault ⟨⟩)
    by_cases hslot : u.talk.active.map Active.slot = some slot
    · simpa only [hslot, closeIf, decide_true, if_true] using yields_done u.close
    · simpa only [hslot, closeIf, decide_false, Bool.false_eq_true, if_false] using yields_done u

theorem hopOrClose_yields {t : Turn} (key : String) (h : t.hops ≤ depth) :
    Yields ⟨[.hop key true], t⟩ (hopOrClose hop key t) := by
  rw [hopOrClose_eq]
  exact hhop key true t h

/-- A dialogue that is left, whatever its exit is. -/
theorem leave_yields {t : Turn} (slot : Slot) (d : Dialogue) (h : t.hops ≤ depth) :
    Yields (leaveAgenda slot d t) (leave hop slot d t) := by
  unfold leaveAgenda leave
  obtain ⟨target, notices⟩ := Conversation.selectExit t.talk.vars.lookup d.exits
  match target with
  | none => exact close_yields (t.update fun c => c.record (notices.map .noticed))
  | some (.key key) => exact hopOrClose_yields hhop key h
  | some (.code statements) => exact runCode_yields hhop slot d.name statements h

/-- A dialogue that goes on. -/
theorem proceed_yields {t : Turn} (a : Active) (d : Dialogue) (h : t.hops ≤ depth) :
    Yields (proceedAgenda a d t) (proceed hop a d t) := by
  unfold proceedAgenda proceed
  cases moveFrom d a.index with
  | finish => exact close_yields t
  | pick => exact yields_done _
  | advance index => exact yields_done _
  | leave => exact leave_yields hhop a.slot d h

theorem choose_yields {t : Turn} (e : Element) (selected : Nat) (h : t.hops ≤ depth) :
    Yields (chooseAgenda e selected t) (choose hop e selected t) := by
  unfold chooseAgenda choose
  cases e.choices[selected]? with
  | none => exact close_yields (t.update fun c => c.note .choiceOutOfRange)
  | some choice => exact hopOrClose_yields hhop choice.key h

/-- A step of the host from the element on show. -/
theorem step_yields {t : Turn} (selected : Nat) (h : t.hops ≤ depth) :
    Yields (stepAgenda selected t) (step hop selected t) := by
  unfold stepAgenda step
  cases t.talk.active with
  | none => exact close_yields t
  | some a =>
      simp only
      cases t.talk.dialogueAt a.slot with
      | none => exact close_yields t
      | some d =>
          simp only
          cases a.element? d with
          | none => exact proceed_yields hhop a d h
          | some e =>
              simp only
              split
              · exact choose_yields hhop e selected h
              · exact proceed_yields hhop a d h

/-- A start, and with it all that it hops through. -/
theorem start_yields {t : Turn} (key : String) (exit : Bool) (h : t.hops ≤ depth) :
    Yields (startAgenda key exit t) (landed exit (start hop key t)) := by
  have hrefused : ∀ u : Turn, Yields ⟨[], closeIf exit u⟩ (landed exit ⟨u, .ok false⟩) := by
    intro u
    simpa only [landed, Bool.not_false, Bool.and_true] using yields_done (closeIf exit u)
  unfold startAgenda start Conversation.target?
  cases (t.talk.locate key).bind fun slot => (t.talk.dialogueAt slot).map (slot, ·) with
  | none => exact hrefused (t.update fun c => c.note (.unknownDialogue key))
  | some found =>
      obtain ⟨slot, d⟩ := found
      simp only
      split
      · exact hrefused t
      · have hdepth : (arrive slot key t).hops ≤ depth := by
          unfold arrive closeIf
          split <;> exact h
        have hproceed := proceed_yields hhop ⟨slot, key, none⟩ d hdepth
        rw [enter_eq]
        generalize proceed hop ⟨slot, key, none⟩ d (arrive slot key t) = next at hproceed ⊢
        obtain ⟨u, fault | done⟩ := next
        · apply hproceed.append (by rintro ⟨⟩)
          rintro _ ⟨⟩
          rfl
        · exact hproceed.append (fun _ => land_yields exit u) (by rintro fault ⟨⟩)

end Steps

/-! ### Calls of the host -/

/-- Where the depth does not fall short of the hops left, a hop is an agenda of its own. -/
theorem follow_yields (depth : Nat) (key : String) (exit : Bool) (t : Turn)
    (h : t.hops ≤ depth) :
    Yields ⟨[.hop key exit], t⟩ (landed exit (follow depth key t)) := by
  -- The depth only makes the recursion structural; the hops left run out no later than it does.
  induction depth generalizing key exit t with
  | zero =>
      have hhops : t.hops = 0 := by omega
      apply yields_job rfl
      simp only [hopAgenda, hhops, follow, landed, outOfHops, Bool.not_false, Bool.and_true]
      exact yields_done _
  | succ depth ih =>
      apply yields_job rfl
      simp only [hopAgenda, follow]
      cases hhops : t.hops with
      | zero =>
          simp only [landed, outOfHops, Bool.not_false, Bool.and_true]
          exact yields_done _
      | succ hops =>
          have hdepth : hops ≤ depth := by omega
          exact start_yields ih key exit hdepth

/-- The agenda of a call of the host. A start by the host is a hop more than a call has. -/
def opening (c : Conversation) : HostCall → Agenda
  | .start key => ⟨[.hop key false], ⟨c, c.config.maxRedirects + 1⟩⟩
  | .advance selected => stepAgenda selected (fresh c)
  | .confirm reading =>
      if reading.revealing then ⟨[], fresh (c.record [.skipped])⟩
      else stepAgenda reading.selected (fresh c)
  | call => ⟨[], fresh (c.perform call)⟩

/-- Whether a mistake of the script stops a call of the host. -/
def outcome (c : Conversation) : HostCall → Except ScriptFault Unit
  | .start key => (c.start key).result.map fun _ => ()
  | .advance selected => (c.advance selected).result
  | .confirm reading => (c.confirm reading).result
  | _ => .ok ()

/-- Starting a key is a run of the jobs that it opens with, and ends as the run does. -/
theorem start_runs (c : Conversation) (key : String) :
    ∃ p, Runs (opening c (.start key)) p ∧ p.turn.talk = (c.start key).talk ∧
      p.result = outcome c (.start key) := by
  have hrun := (follow_yields (c.config.maxRedirects + 1) key false
    ⟨c, c.config.maxRedirects + 1⟩ (Nat.le_refl _)).runs
  refine ⟨_, hrun, ?_⟩
  change (landed false (start (follow c.config.maxRedirects) key (fresh c))).turn.talk =
      (start (follow c.config.maxRedirects) key (fresh c)).turn.talk ∧
    (landed false (start (follow c.config.maxRedirects) key (fresh c))).result =
      (start (follow c.config.maxRedirects) key (fresh c)).result.map fun _ => ()
  rcases start (follow c.config.maxRedirects) key (fresh c) with ⟨u, fault | answer⟩
  · exact ⟨rfl, rfl⟩
  · exact ⟨rfl, rfl⟩

theorem advance_runs (c : Conversation) (selected : Nat) :
    Runs (opening c (.advance selected))
      (step (follow c.config.maxRedirects) selected (fresh c)) :=
  (step_yields (fun key exit t => follow_yields _ key exit t) selected (Nat.le_refl _)).runs

/-- Every call of the host is an agenda that comes to an end, and the end is what the call
leaves and answers. -/
theorem perform_runs (c : Conversation) (call : HostCall) :
    ∃ p, Runs (opening c call) p ∧ p.turn.talk = c.perform call ∧
      p.result = outcome c call := by
  cases call with
  | start key => exact start_runs c key
  | advance selected => exact ⟨_, advance_runs c selected, rfl, rfl⟩
  | confirm reading =>
      simp only [opening, outcome, Conversation.perform, Conversation.confirm]
      cases reading.revealing with
      | true => exact ⟨_, .done _, rfl, rfl⟩
      | false => exact ⟨_, advance_runs c reading.selected, rfl, rfl⟩
  | _ => exact ⟨_, .done _, rfl, rfl⟩

theorem start_changes (c : Conversation) (key : String) :
    ∃ u, Changes ⟨c, c.config.maxRedirects + 1⟩ u ∧ u.talk = (c.start key).talk := by
  obtain ⟨p, hrun, htalk, _⟩ := start_runs c key
  exact ⟨p.turn, hrun.changes, htalk⟩

/-- All that going on does to a conversation is done by known steps. -/
theorem advance_changes (c : Conversation) (selected : Nat) :
    ∃ u, Changes (fresh c) u ∧ u.talk = (c.advance selected).talk :=
  ⟨_, (changes_step selected (fresh c)).trans (advance_runs c selected).changes, rfl⟩

theorem confirm_changes (c : Conversation) (reading : Conversation.Reading) :
    ∃ u, Changes (fresh c) u ∧ u.talk = (c.confirm reading).talk := by
  unfold Conversation.confirm
  split
  · refine ⟨(fresh c).update fun c => c.record [.skipped], (quietly_record _ ?_).changes, rfl⟩
    simp [Act.isQuiet]
  · exact advance_changes c reading.selected

end Parley.Turn

/-! ### The stores of a run -/

namespace Parley

/-- The stores that a call adds. -/
def HostCall.added : HostCall → List Store
  | .addStore s => [s]
  | _ => []

namespace Conversation

theorem stores_perform (c : Conversation) (call : HostCall) :
    (c.perform call).stores = c.stores ++ call.added := by
  have hturn : ∀ {hops c'}, (∃ u, Turn.Changes ⟨c, hops⟩ u ∧ u.talk = c') →
      c'.stores = c.stores ++ [] := by
    rintro hops c' ⟨u, hchanges, rfl⟩
    rw [hchanges.stores_eq, List.append_nil]
  cases call with
  | start key => exact hturn (Turn.start_changes c key)
  | advance selected => exact hturn (Turn.advance_changes c selected)
  | confirm reading => exact hturn (Turn.confirm_changes c reading)
  | addStore s => rfl
  | close => exact c.close_stores.trans (List.append_nil _).symm
  | _ => exact (List.append_nil _).symm

/-- The stores of a session are those it began with and those it added, in order. -/
theorem stores_performAll (c : Conversation) (calls : List HostCall) :
    (c.performAll calls).stores = c.stores ++ calls.flatMap HostCall.added := by
  induction calls generalizing c with
  | nil => exact (List.append_nil _).symm
  | cons call calls ih =>
      calc (c.performAll (call :: calls)).stores
          = (c.perform call).stores ++ calls.flatMap HostCall.added := ih (c.perform call)
        _ = c.stores ++ (call :: calls).flatMap HostCall.added := by
            rw [stores_perform, List.append_assoc, List.flatMap_cons]

/-- What the host makes sure of for every store it adds holds of all stores. -/
theorem forall_mem_stores {P : Store → Prop} {config : Config} {entropy : UInt64}
    {calls : List HostCall} (h : ∀ s, .addStore s ∈ calls → P s) :
    ∀ s ∈ ((new config entropy).performAll calls).stores, P s := by
  intro s hs
  rw [stores_performAll] at hs
  obtain ⟨call, hcall, hadded⟩ := List.mem_flatMap.mp ((List.mem_append.mp hs).resolve_left
    List.not_mem_nil)
  cases call with
  | addStore added =>
      rw [List.mem_singleton.mp hadded]
      exact h added hcall
  | _ => exact absurd hadded List.not_mem_nil

end Conversation

end Parley
