import Parley.Proofs.Conversation.Foresight

/-!
# Choices out of range

The selection of the host is looked at once in a call, where the element shown has choices. No hop
and no code looks at it again, so a call notices a choice out of range only where the element shown
has not got the choice that is selected.
-/

namespace Parley

/-- Nothing is told of a choice out of range. -/
def InRange (acts : List Act) : Prop :=
  .noticed .choiceOutOfRange ∉ acts

theorem InRange.append {acts more : List Act} (h : InRange acts) (hmore : InRange more) :
    InRange (acts ++ more) :=
  fun hmem => (List.mem_append.mp hmem).elim h hmore

namespace Conversation

/-- Looking for an exit is noticed only for conditions. -/
theorem inRange_selectExit (env : Environment) (exits : List Exit) :
    InRange ((selectExit env exits).2.map .noticed) := by
  have hholds : ∀ condition, InRange ((holds env condition).2.map .noticed) := by
    intro condition
    unfold holds
    split
    · simp [InRange]
    · split <;> simp [InRange]
  induction exits with
  | nil => simp [selectExit, InRange]
  | cons e exits ih =>
      have he := hholds e.condition
      rw [selectExit]
      rcases hheld : holds env e.condition with ⟨_ | _, notices⟩
      · rw [hheld] at he
        rw [List.map_append]
        exact he.append ih
      · rwa [hheld] at he

theorem inRange_close {c : Conversation} (h : InRange c.journal) : InRange c.close.journal := by
  rw [close_journal]
  exact h.append (by simp [InRange])

end Conversation

namespace Turn

variable {t : Turn}

theorem inRange_closeIf (b : Bool) (h : InRange t.talk.journal) :
    InRange (closeIf b t).talk.journal := by
  cases b with
  | false => exact h
  | true => exact Conversation.inRange_close h

theorem inRange_assign (h : InRange t.talk.journal) (name source : String) :
    InRange (assign t.talk name source).journal := by
  unfold assign
  dsimp only
  split
  · exact h
  · exact h.append (by simp [InRange])

/-- What a command does is no matter of choices. -/
theorem inRange_call (h : InRange t.talk.journal) (name : String) (sources : List String) :
    InRange (callAgenda name sources t).turn.talk.journal := by
  unfold callAgenda
  split
  · exact h.append (by simp [InRange])
  · next args reply _ =>
      have hran : InRange (t.talk.journal ++ [.ran name args]) := h.append (by simp [InRange])
      dsimp only
      split
      · exact hran.append (by simp [InRange])
      · exact hran

theorem inRange_presentAt (h : InRange t.talk.journal) (a : Active) (d : Dialogue) (index : Nat) :
    InRange (t.presentAt a d index).talk.journal := by
  unfold presentAt
  split
  · exact h.append (by simp [InRange])
  · exact h

theorem inRange_proceed (h : InRange t.talk.journal) (a : Active) (d : Dialogue) :
    InRange (proceedAgenda a d t).turn.talk.journal := by
  unfold proceedAgenda
  cases moveFrom d a.index with
  | finish => exact h
  | pick =>
      have hdrawn : InRange (t.update fun c =>
          { c with stream := (t.talk.stream.pick d.elements.length).2 }).talk.journal := h
      exact inRange_presentAt hdrawn a d _
  | advance index => exact inRange_presentAt h a d index
  | leave => exact h.append (Conversation.inRange_selectExit _ _)

/-- Neither is a hop. -/
theorem inRange_hop (h : InRange t.talk.journal) (key : String) (exit : Bool) :
    InRange (hopAgenda key exit t).turn.talk.journal := by
  unfold hopAgenda
  split
  · have hnoted : InRange (t.update fun c => c.note (.redirectLimit key)).talk.journal :=
      h.append (by simp [InRange])
    exact inRange_closeIf exit (Conversation.inRange_close hnoted)
  · next hops _ =>
      unfold startAgenda
      split
      · exact inRange_closeIf exit (h.append (by simp [InRange]))
      · next slot d _ =>
          split
          · exact inRange_closeIf (t := { t with hops }) exit h
          · have harrived : InRange (arrive slot key { t with hops }).talk.journal :=
              (inRange_closeIf (t := { t with hops }) _ h).append (by simp [InRange])
            exact inRange_proceed harrived _ d

/-! ### Jobs and runs -/

/-- No job looks at a choice, so none finds one missing. -/
theorem inRange_act {job : Job} {next : Agenda} (h : InRange t.talk.journal)
    (hact : job.act t = .ok next) : InRange next.turn.talk.journal := by
  cases job with
  | hop key exit =>
      cases hact
      exact inRange_hop h key exit
  | land exit =>
      cases hact
      exact inRange_closeIf _ h
  | close =>
      cases hact
      exact Conversation.inRange_close h
  | endCode slot =>
      cases hact
      exact inRange_closeIf _ h
  | statement dialogue s =>
      simp only [Job.act, statementAgenda] at hact
      split at hact
      · cases hact
        exact inRange_call h _ _
      · cases hact
      · cases hact
        exact inRange_assign h _ _

theorem inRange_abandon (jobs : List Job) (h : InRange t.talk.journal) :
    InRange (abandon jobs t).talk.journal := by
  induction jobs generalizing t with
  | nil => exact h
  | cons job jobs ih =>
      cases job with
      | endCode slot => exact ih (Conversation.inRange_close h)
      | _ => exact ih h

/-- So no run does, once its step is made. -/
theorem Runs.inRange {w : Agenda} {p : Progress Unit} (run : Runs w p)
    (h : InRange w.turn.talk.journal) : InRange p.turn.talk.journal :=
  run.invariant (I := fun w => InRange w.turn.talk.journal) (fun _ _ _ _ => inRange_act)
    (fun _ jobs _ _ h _ => inRange_abandon jobs h) h

end Turn

namespace Conversation

/-- Where the element shown has the selected choice, or has none at all, going on tells nothing of a
choice out of range. -/
theorem inRange_advance {c : Conversation} {a : Active} {d : Dialogue} {selected : Nat}
    (hactive : c.active = some a) (hd : c.dialogueAt a.slot = some d)
    (hrange : ¬ OutOfRange a d selected) (h : InRange c.journal) :
    InRange (c.advance selected).talk.journal := by
  apply (Turn.advance_runs c selected).inRange
  have hactive' : (Turn.fresh c).talk.active = some a := hactive
  have hd' : (Turn.fresh c).talk.dialogueAt a.slot = some d := hd
  simp only [Turn.opening, Turn.stepAgenda, hactive', hd']
  split
  · next e he =>
      split
      · next hchoices =>
          unfold Turn.chooseAgenda
          split
          · exact h
          · next hnone => exact absurd ⟨e, he, hchoices, hnone⟩ hrange
      · exact Turn.inRange_proceed h a d
  · exact Turn.inRange_proceed h a d

end Conversation

end Parley
