import Parley.Proofs.Conversation.Ending

/-!
# What the display shows

Between two calls of the host the display shows the element that is current, and nothing where no
dialogue is active. In the middle of a call that need not be so: a dialogue is active before
anything of it is shown, and code goes on while its dialogue has run out of elements.

## Implementation notes

What holds in the middle is told by the agenda. Either the display is right, or some job still to
come ends the active dialogue: the hop it leaves by, or the end of the code that it runs. A job
that does neither of these leaves the active dialogue and the display alone.
-/

namespace Parley

/-- Whether an act changes what the display shows. -/
def Act.draws : Act → Bool
  | .shown _ | .cleared => true
  | _ => false

/-- What was drawn last: an element, or nothing where the display was cleared behind it. -/
def lastDrawn (journal : List Act) : Option Act :=
  (journal.filter Act.draws).getLast?

theorem lastDrawn_append_of_not_draws {journal acts : List Act}
    (h : ∀ x ∈ acts, x.draws = false) : lastDrawn (journal ++ acts) = lastDrawn journal := by
  have hnone : acts.filter Act.draws = [] := by
    simpa [List.filter_eq_nil_iff] using h
  rw [lastDrawn, List.filter_append, hnone, List.append_nil, lastDrawn]

theorem lastDrawn_append_shown (journal : List Act) (e : Element) :
    lastDrawn (journal ++ [.shown e]) = some (.shown e) := by
  simp [lastDrawn, Act.draws]

theorem Conversation.lastDrawn_close (c : Conversation) :
    lastDrawn c.close.journal = some .cleared := by
  rw [close_journal, List.append_cons, lastDrawn_append_of_not_draws (by simp [Act.draws])]
  simp [lastDrawn, Act.draws]

theorem Act.draws_of_isQuiet {x : Act} (h : x.isQuiet = true) : x.draws = false := by
  cases x <;> simp_all [Act.draws, Act.isQuiet]

/-- The display shows the element that is current, or nothing. -/
def Pictured (c : Conversation) : Prop :=
  match c.active with
  | none => lastDrawn c.journal = none ∨ lastDrawn c.journal = some .cleared
  | some a =>
      ∃ d i e, c.dialogueAt a.slot = some d ∧ a.index = some i ∧ d.elements[i]? = some e ∧
        lastDrawn c.journal = some (.shown e)

namespace Pictured

/-- Closing clears the display, and nothing is active then. -/
theorem close (c : Conversation) : Pictured c.close := by
  simp only [Pictured, Conversation.close_active]
  exact .inr c.lastDrawn_close

theorem closeIf {b : Bool} {t : Turn} (h : b = false → Pictured t.talk) :
    Pictured (Turn.closeIf b t).talk := by
  cases b with
  | false => exact h rfl
  | true => exact close t.talk

/-- The element that is shown is the one that becomes current. -/
theorem presentAt {t : Turn} {a : Active} {d : Dialogue} {index : Nat}
    (hd : t.talk.dialogueAt a.slot = some d) (hindex : index < d.elements.length) :
    Pictured (t.presentAt a d index).talk := by
  have he : d.elements[index]? = some d.elements[index] := List.getElem?_eq_getElem hindex
  simp only [Turn.presentAt, he]
  exact ⟨d, index, d.elements[index], hd, rfl, he, lastDrawn_append_shown _ _⟩

theorem presentRandom {t : Turn} {a : Active} {d : Dialogue}
    (hd : t.talk.dialogueAt a.slot = some d) (hne : 0 < d.elements.length) :
    Pictured (t.presentRandom a d).talk :=
  presentAt hd (t.talk.stream.pick_lt hne)

/-- Only the active dialogue, the stores and what was last drawn count. -/
theorem congr {c c' : Conversation} (h : Pictured c) (hactive : c'.active = c.active)
    (hstores : c'.stores = c.stores) (hdrawn : lastDrawn c'.journal = lastDrawn c.journal) :
    Pictured c' := by
  unfold Pictured at h ⊢
  simpa only [hactive, hdrawn, Conversation.dialogueAt, hstores] using h

end Pictured

namespace Turn

/-- Two turns have the same active dialogue and the same picture. -/
structure Alike (t u : Turn) : Prop where
  active : u.talk.active = t.talk.active
  stores : u.talk.stores = t.talk.stores
  drawn : lastDrawn u.talk.journal = lastDrawn t.talk.journal

theorem Alike.refl (t : Turn) : Alike t t :=
  ⟨rfl, rfl, rfl⟩

theorem Alike.trans {t u v : Turn} (h : Alike t u) (h' : Alike u v) : Alike t v :=
  ⟨h'.active.trans h.active, h'.stores.trans h.stores, h'.drawn.trans h.drawn⟩

theorem Quietly.alike {t u : Turn} (h : Quietly t u) : Alike t u := by
  obtain ⟨_, _, hacts, _⟩ := h
  exact ⟨rfl, rfl, lastDrawn_append_of_not_draws fun x hx => Act.draws_of_isQuiet (hacts x hx)⟩

/-! ### What the agenda promises -/

/-- The jobs end the dialogue at a place before they are through, if it is still active then. -/
def Covers (jobs : List Job) (slot : Slot) : Prop :=
  .endCode slot ∈ jobs ∨ jobs.head? = some .close ∨ ∃ key, jobs.head? = some (.hop key true)

theorem Covers.append {jobs : List Job} {slot : Slot} (h : Covers jobs slot)
    (rest : List Job) : Covers (jobs ++ rest) slot := by
  cases jobs with
  | nil => simp [Covers] at h
  | cons job jobs =>
      obtain hend | hhead := h
      · exact .inl (List.mem_append_left rest hend)
      · exact .inr hhead

/-- The display is right, or the jobs see to the active dialogue. -/
def Covered (w : Agenda) : Prop :=
  Pictured w.turn.talk ∨ ∃ a, w.turn.talk.active = some a ∧ Covers w.jobs a.slot

theorem Covered.append {w : Agenda} (h : Covered w) (rest : List Job) :
    Covered ⟨w.jobs ++ rest, w.turn⟩ := by
  obtain hshown | ⟨a, ha, hcovers⟩ := h
  · exact .inl hshown
  · exact .inr ⟨a, ha, hcovers.append rest⟩

/-- A job that changes neither the active dialogue nor the picture, and that is not the one to
end the dialogue, leaves that to the jobs behind it. -/
theorem Covered.pass {job : Job} {jobs more : List Job} {t u : Turn}
    (h : Covered ⟨job :: jobs, t⟩) (halike : Alike t u)
    (hjob : ∀ a, t.talk.active = some a → Covers (job :: jobs) a.slot →
      .endCode a.slot ∈ jobs) : Covered ⟨more ++ jobs, u⟩ := by
  obtain hshown | ⟨a, ha, hcovers⟩ := h
  · exact .inl (hshown.congr halike.active halike.stores halike.drawn)
  · have hmem := hjob a ha hcovers
    exact .inr ⟨a, halike.active.trans ha, .inl (List.mem_append_right more hmem)⟩

/-- A dialogue that is left will be closed or hop away, so that its last element does not have to
stay. -/
theorem covered_leave {t : Turn} {a : Active} (d : Dialogue) (ha : t.talk.active = some a) :
    Covered (leaveAgenda a.slot d t) := by
  right
  refine ⟨a, ha, ?_⟩
  simp only [leaveAgenda]
  match (Conversation.selectExit t.talk.vars.lookup d.exits).1 with
  | none => exact .inr (.inl rfl)
  | some (.key key) => exact .inr (.inr ⟨key, rfl⟩)
  | some (.code statements) => exact .inl (by simp [exitJobs])

/-- A dialogue that goes on shows the next element, or will be left. -/
theorem covered_proceed {t : Turn} {a : Active} {d : Dialogue} (ha : t.talk.active = some a)
    (hd : t.talk.dialogueAt a.slot = some d) : Covered (proceedAgenda a d t) := by
  unfold proceedAgenda
  cases hmove : moveFrom d a.index with
  | finish => exact .inr ⟨a, ha, .inr (.inl rfl)⟩
  | leave => exact covered_leave d ha
  | pick =>
      have hne : 0 < d.elements.length := by
        unfold moveFrom at hmove
        grind [Dialogue.picksElement]
      exact .inl (Pictured.presentRandom hd hne)
  | advance index =>
      have hindex : index < d.elements.length := by
        unfold moveFrom at hmove
        grind
      exact .inl (Pictured.presentAt hd hindex)

theorem covered_choose {t : Turn} {a : Active} (e : Element) (selected : Nat)
    (ha : t.talk.active = some a) : Covered (chooseAgenda e selected t) := by
  right
  unfold chooseAgenda
  cases e.choices[selected]? with
  | none => exact ⟨a, ha, .inr (.inl rfl)⟩
  | some choice => exact ⟨a, ha, .inr (.inr ⟨choice.key, rfl⟩)⟩

/-- Whatever a step opens with is covered, in a conversation that is pictured. -/
theorem covered_step {t : Turn} (h : Pictured t.talk) (selected : Nat) :
    Covered (stepAgenda selected t) := by
  unfold stepAgenda
  split
  · exact .inl h
  · next a ha =>
      split
      · exact .inl h
      · next d hd =>
          split
          · next e _ =>
              split
              · exact covered_choose e selected ha
              · exact covered_proceed ha hd
          · exact covered_proceed ha hd

/-! ### Jobs and runs -/

/-- A hop that comes to nothing ends the conversation, or leaves it as it was. -/
theorem covered_refused {key : String} {exit : Bool} {jobs : List Job} {t u : Turn}
    (h : Covered ⟨.hop key exit :: jobs, t⟩) (halike : Alike t u) :
    Covered ⟨jobs, closeIf exit u⟩ := by
  cases exit with
  | true => exact .inl (Pictured.close u.talk)
  | false =>
      change Covered ⟨[] ++ jobs, u⟩
      apply h.pass halike
      intro a _ hcovers
      simpa [Covers] using hcovers

/-- A hop that comes to nothing is covered by what stands behind it. -/
theorem covered_hop {key : String} {exit : Bool} {jobs : List Job} {t : Turn}
    (h : Covered ⟨.hop key exit :: jobs, t⟩) :
    Covered ⟨(hopAgenda key exit t).jobs ++ jobs, (hopAgenda key exit t).turn⟩ := by
  unfold hopAgenda
  cases t.hops with
  | zero => exact .inl (Pictured.closeIf fun _ => Pictured.close _)
  | succ hops =>
      have hspent : Alike t { t with hops } := ⟨rfl, rfl, rfl⟩
      simp only [startAgenda]
      split
      · exact covered_refused h (hspent.trans (quietly_note _ _).alike)
      · next slot d htarget =>
          split
          · exact covered_refused h hspent
          · have hd := (Conversation.target?_eq_some_iff.mp htarget).2
            have hentered := covered_proceed (active_arrive slot key { t with hops })
              ((dialogueAt_arrive slot slot key { t with hops }).trans hd)
            exact (hentered.append [.land exit]).append jobs

/-- Every job leaves an agenda that is covered. -/
theorem covered_act {job : Job} {jobs : List Job} {t : Turn} {next : Agenda}
    (h : Covered ⟨job :: jobs, t⟩) (hact : job.act t = .ok next) :
    Covered ⟨next.jobs ++ jobs, next.turn⟩ := by
  cases job with
  | hop key exit =>
      cases hact
      exact covered_hop h
  | close =>
      cases hact
      exact .inl (Pictured.close t.talk)
  | land exit =>
      cases hact
      cases hend : exit && !t.talk.isTalking with
      | true => exact .inl (Pictured.close t.talk)
      | false =>
          apply h.pass (Alike.refl t)
          intro a _ hcovers
          simpa [Covers] using hcovers
  | endCode slot =>
      cases hact
      by_cases hslot : t.talk.active.map Active.slot = some slot
      · simp only [closeIf, hslot, decide_true, if_true]
        exact .inl (Pictured.close t.talk)
      · simp only [closeIf, hslot, decide_false, Bool.false_eq_true, if_false]
        apply h.pass (Alike.refl t)
        -- the block that ends here is that of another dialogue
        intro a ha hcovers
        have hne : a.slot ≠ slot := fun heq => hslot (by rw [ha, ← heq]; rfl)
        simpa [Covers, hne] using hcovers
  | statement dialogue s =>
      apply h.pass (quietly_statement hact).alike
      intro a _ hcovers
      simpa [Covers] using hcovers

/-- Where jobs are given up, every open code block ends the conversation. -/
theorem pictured_abandon {jobs : List Job} {t : Turn}
    (h : Pictured t.talk ∨ ∃ slot, .endCode slot ∈ jobs) : Pictured (abandon jobs t).talk := by
  induction jobs generalizing t with
  | nil => simpa [abandon] using h
  | cons job jobs ih =>
      cases job with
      | endCode slot => exact ih (.inl (Pictured.close t.talk))
      | _ => exact ih (by simpa using h)

/-- Giving up leaves a conversation that is pictured. -/
theorem covered_fail {job : Job} {jobs : List Job} {t : Turn} {fault : ScriptFault}
    (h : Covered ⟨job :: jobs, t⟩) (hact : job.act t = .error fault) :
    Covered ⟨[], abandon jobs t⟩ := by
  cases job with
  | statement dialogue s =>
      left
      apply pictured_abandon
      obtain hshown | ⟨a, _, hcovers⟩ := h
      · exact .inl hshown
      · exact .inr ⟨a.slot, by simpa [Covers] using hcovers⟩
  | _ => cases hact

/-- A run that is covered from the start ends with a conversation that is pictured. -/
theorem Runs.pictured {w : Agenda} {p : Progress Unit} (run : Runs w p) (h : Covered w) :
    Pictured p.turn.talk := by
  have hend : Covered ⟨[], p.turn⟩ :=
    run.invariant (fun _ _ _ _ => covered_act) (fun _ _ _ _ => covered_fail) h
  obtain hshown | ⟨a, _, hcovers⟩ := hend
  · exact hshown
  · simp [Covers] at hcovers

end Turn

/-! ### Calls of the host -/

namespace Pictured

variable {c : Conversation}

theorem start (h : Pictured c) (key : String) : Pictured (c.start key).talk := by
  obtain ⟨p, hrun, htalk, _⟩ := Turn.start_runs c key
  rw [← htalk]
  exact hrun.pictured (.inl h)

theorem advance (h : Pictured c) (selected : Nat) : Pictured (c.advance selected).talk :=
  (Turn.advance_runs c selected).pictured (Turn.covered_step h selected)

theorem record {acts : List Act} (h : Pictured c) (hquiet : ∀ x ∈ acts, x.isQuiet = true) :
    Pictured (c.record acts) :=
  h.congr rfl rfl (lastDrawn_append_of_not_draws fun x hx => Act.draws_of_isQuiet (hquiet x hx))

theorem confirm (h : Pictured c) (reading : Conversation.Reading) :
    Pictured (c.confirm reading).talk := by
  unfold Conversation.confirm
  split
  · exact h.record (by simp [Act.isQuiet])
  · exact h.advance reading.selected

theorem addStore (h : Pictured c) (s : Store) : Pictured (c.addStore s) := by
  unfold Pictured at h ⊢
  cases ha : c.active with
  | none => simpa only [Conversation.addStore, ha] using h
  | some a =>
      simp only [ha] at h
      obtain ⟨d, i, e, hd, hrest⟩ := h
      simp only [Conversation.addStore, ha]
      exact ⟨d, i, e, c.dialogueAt_addStore s hd, hrest⟩

theorem perform (h : Pictured c) (call : HostCall) : Pictured (c.perform call) := by
  cases call with
  | start key => exact h.start key
  | advance selected => exact h.advance selected
  | confirm reading => exact h.confirm reading
  | close => exact Pictured.close c
  | steer x y => exact h.record (by simp [Act.isQuiet])
  | addStore s => exact h.addStore s
  | _ => exact h.congr rfl rfl rfl

/-- A session keeps the display in step with the conversation. -/
theorem performAll (h : Pictured c) (calls : List HostCall) : Pictured (c.performAll calls) := by
  induction calls generalizing c with
  | nil => exact h
  | cons call calls ih => exact ih (h.perform call)

end Pictured

namespace Conversation

/-- Whatever the host does, and whatever it is answered: where a dialogue is active, an element
of it is current and was the last thing drawn; where none is, nothing was drawn or the display
was cleared last. -/
theorem shown_is_current (config : Config) (entropy : UInt64) (calls : List HostCall) :
    (∀ a, ((new config entropy).performAll calls).active = some a →
      ∃ s d i, ((new config entropy).performAll calls).stores[a.slot.store]? = some s ∧
        s.dialogues[a.slot.dialogue]? = some d ∧ a.index = some i ∧
        ∃ h : i < d.elements.length,
          ((new config entropy).performAll calls).currentElement = some d.elements[i] ∧
          lastDrawn ((new config entropy).performAll calls).journal =
            some (.shown d.elements[i])) ∧
    (((new config entropy).performAll calls).active = none →
      lastDrawn ((new config entropy).performAll calls).journal = none ∨
        lastDrawn ((new config entropy).performAll calls).journal = some .cleared) := by
  have hnew : Pictured (new config entropy) := .inl rfl
  have hpictured := hnew.performAll calls
  generalize (new config entropy).performAll calls = c at hpictured ⊢
  unfold Pictured at hpictured
  constructor
  · intro a ha
    simp only [ha] at hpictured
    obtain ⟨d, i, e, hd, hi, he, hdrawn⟩ := hpictured
    obtain ⟨s, hs, hplace⟩ := Option.bind_eq_some_iff.mp hd
    obtain ⟨hlt, rfl⟩ := List.getElem?_eq_some_iff.mp he
    refine ⟨s, d, i, hs, hplace, hi, hlt, ?_, hdrawn⟩
    simp [currentElement, ha, hd, Active.element?, hi, he]
  · intro ha
    simpa only [ha] using hpictured

end Conversation

end Parley
