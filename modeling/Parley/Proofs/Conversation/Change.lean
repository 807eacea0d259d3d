import Mathlib.Logic.Relation
import Parley.Proofs.Conversation.Agenda

/-!
# What a turn can change

Every job changes the conversation in four ways only: quietly, where neither the display nor the
events nor the active dialogue notice anything; by closing; by beginning a dialogue, which costs
a hop; and by presenting an element of the active dialogue. What each of the four keeps, a
whole call of the host keeps.
-/

namespace Parley

/-- Whether an act is neither an event nor anything that changes what the display shows. -/
def Act.isQuiet : Act → Bool
  | .shown _ | .cleared | .event _ => false
  | _ => true

namespace Conversation

/-- A key leads where the first store that has it says. -/
theorem target?_eq_some_iff {c : Conversation} {key : String} {slot : Slot} {d : Dialogue} :
    c.target? key = some (slot, d) ↔ c.locate key = some slot ∧ c.dialogueAt slot = some d := by
  unfold target?
  cases hl : c.locate key with
  | none => simp
  | some found =>
      simp only [Option.bind_some, Option.map_eq_some_iff, Prod.mk.injEq, Option.some.injEq]
      constructor
      · rintro ⟨e, he, rfl, rfl⟩
        exact ⟨rfl, he⟩
      · rintro ⟨rfl, hd⟩
        exact ⟨d, hd, rfl, rfl⟩

theorem locate_bind_dialogueAt (c : Conversation) (key : String) :
    (c.locate key).bind c.dialogueAt = (c.target? key).map Prod.snd := by
  simp [target?, Option.map_bind, Function.comp_def]

/-- The place of a key is in one of the stores that are left, which has the key. -/
theorem locateFrom_eq_some {key : String} {n : Nat} {stores : List Store} {slot : Slot}
    (h : locateFrom key n stores = some slot) :
    ∃ i s, slot.store = n + i ∧ stores[i]? = some s ∧ s.position? key = some slot.dialogue := by
  induction stores generalizing n with
  | nil => cases h
  | cons s rest ih =>
      rw [locateFrom] at h
      cases hs : s.position? key with
      | some place =>
          simp only [hs, Option.some.injEq] at h
          subst h
          exact ⟨0, s, rfl, rfl, hs⟩
      | none =>
          simp only [hs] at h
          obtain ⟨i, s', hslot, hget, hpos⟩ := ih h
          exact ⟨i + 1, s', by omega, by simpa using hget, hpos⟩

/-- A dialogue is found by its own name. -/
theorem name_of_target? {c : Conversation} {key : String} {slot : Slot} {d : Dialogue}
    (h : c.target? key = some (slot, d)) : d.name = key := by
  obtain ⟨hl, hd⟩ := target?_eq_some_iff.mp h
  obtain ⟨i, s, hslot, hget, hpos⟩ := locateFrom_eq_some hl
  obtain ⟨d', hd', hname⟩ := (s.indexed key slot.dialogue).mp hpos
  have hi : slot.store = i := by omega
  simp only [dialogueAt, hi, hget, Option.bind_some, hd', Option.some.injEq] at hd
  exact hd ▸ hname

/-- Stores are added behind those there are, so every dialogue keeps its place. -/
theorem dialogueAt_addStore (c : Conversation) (s : Store) {slot : Slot} {d : Dialogue}
    (h : c.dialogueAt slot = some d) : (c.addStore s).dialogueAt slot = some d := by
  obtain ⟨found, hfound, hdialogue⟩ := Option.bind_eq_some_iff.mp h
  have hlt : slot.store < c.stores.length := (List.getElem?_eq_some_iff.mp hfound).1
  simpa [addStore, dialogueAt, List.getElem?_append_left hlt, hfound] using hdialogue

/-- A key that is found stays where it is when stores are added behind. -/
theorem locateFrom_append {key : String} {n : Nat} {stores : List Store} {slot : Slot}
    (h : locateFrom key n stores = some slot) (more : List Store) :
    locateFrom key n (stores ++ more) = some slot := by
  induction stores generalizing n with
  | nil => cases h
  | cons s stores ih =>
      rw [List.cons_append, locateFrom]
      rw [locateFrom] at h
      cases hs : s.position? key with
      | some place => simpa only [hs] using h
      | none =>
          simp only [hs] at h
          exact ih h

theorem target?_addStore {c : Conversation} {key : String} {slot : Slot} {d : Dialogue}
    (h : c.target? key = some (slot, d)) (s : Store) :
    (c.addStore s).target? key = some (slot, d) := by
  obtain ⟨hlocate, hdialogue⟩ := target?_eq_some_iff.mp h
  exact target?_eq_some_iff.mpr
    ⟨locateFrom_append hlocate [s], c.dialogueAt_addStore s hdialogue⟩

theorem target?_congr {c c' : Conversation} (h : c'.stores = c.stores) (key : String) :
    c'.target? key = c.target? key := by
  simp only [target?, locate, dialogueAt, h]

/-- What closing reports: the end of the conversation, if there is one. -/
def closingEvents (c : Conversation) : List Event :=
  (c.active.map fun _ => Event.ended).toList

/-- Closing in one equation. The journal says that the display is cleared, and the end is reported
only where there was something to end. -/
theorem close_eq (c : Conversation) :
    c.close =
      { c with
        active := none
        events := c.events ++ c.closingEvents
        journal := c.journal ++ .cleared :: c.closingEvents.map .event } := by
  cases h : c.active with
  | none => simp [close, record, closingEvents, h]
  | some a => simp [close, record, emit, closingEvents, h]

@[simp] theorem close_active (c : Conversation) : c.close.active = none := by
  rw [close_eq]

@[simp] theorem close_stores (c : Conversation) : c.close.stores = c.stores := by
  rw [close_eq]

@[simp] theorem close_seen (c : Conversation) : c.close.seen = c.seen := by
  rw [close_eq]

@[simp] theorem close_events (c : Conversation) :
    c.close.events = c.events ++ c.closingEvents := by
  rw [close_eq]

@[simp] theorem close_journal (c : Conversation) :
    c.close.journal = c.journal ++ .cleared :: c.closingEvents.map .event := by
  rw [close_eq]

end Conversation

namespace Turn

open Relation (ReflTransGen)

/-- What a single step may do to a turn. No step gains a hop, touches the stores or takes anything
out of the journal; a dialogue is begun only where a hop is spent. -/
inductive Change : Turn → Turn → Prop
  | quiet {t : Turn} (vars : Variables) (stream : Random.Stream) {acts : List Act} {hops : Nat}
      (hacts : ∀ x ∈ acts, x.isQuiet = true) (hhops : hops ≤ t.hops) :
      Change t ⟨{ t.talk with vars, stream, journal := t.talk.journal ++ acts }, hops⟩
  | close (t : Turn) : Change t t.close
  | begin {t : Turn} {slot : Slot} {d : Dialogue} {key : String} {hops : Nat}
      (hhops : t.hops = hops + 1) (htarget : t.talk.target? key = some (slot, d))
      (hfresh : (d.flags.oneShot && t.talk.seen.has key) = false)
      (hactive : ∀ a, t.talk.active = some a → a.slot = slot) :
      Change t ⟨t.talk.begin slot key, hops⟩
  | present {t : Turn} {a : Active} {d : Dialogue} {index : Nat} {e : Element}
      (ha : t.talk.active = some a) (hd : t.talk.dialogueAt a.slot = some d)
      (he : d.elements[index]? = some e) :
      Change t (t.update fun c => c.present a index e)

/-- What a run of steps may do. -/
abbrev Changes : Turn → Turn → Prop := ReflTransGen Change

/-! ### Quiet effects -/

/-- Nothing of what happens can be seen: variables and picks may change, hops may be spent, and
the acts added are quiet. -/
inductive Quietly (t : Turn) : Turn → Prop
  | intro (vars : Variables) (stream : Random.Stream) {acts : List Act} {hops : Nat}
      (hacts : ∀ x ∈ acts, x.isQuiet = true) (hhops : hops ≤ t.hops) :
      Quietly t ⟨{ t.talk with vars, stream, journal := t.talk.journal ++ acts }, hops⟩

namespace Quietly

theorem changes {t u : Turn} (h : Quietly t u) : Changes t u := by
  obtain ⟨vars, stream, hacts, hhops⟩ := h
  exact .single (.quiet vars stream hacts hhops)

theorem trans {t u v : Turn} (h : Quietly t u) (h' : Quietly u v) : Quietly t v := by
  obtain ⟨_, _, hacts, hhops⟩ := h
  obtain ⟨vars, stream, hacts', hhops'⟩ := h'
  simp only [List.append_assoc]
  exact .intro vars stream (fun x hx => (List.mem_append.mp hx).elim (hacts x) (hacts' x))
    (Nat.le_trans hhops' hhops)

end Quietly

theorem quietly_state (t : Turn) (vars : Variables) (stream : Random.Stream) {hops : Nat}
    (h : hops ≤ t.hops) : Quietly t ⟨{ t.talk with vars, stream }, hops⟩ := by
  have hquiet : Quietly t
      ⟨{ t.talk with vars, stream, journal := t.talk.journal ++ [] }, hops⟩ :=
    .intro vars stream (by simp) h
  rwa [List.append_nil] at hquiet

/-- A hop that comes to nothing costs a hop all the same. -/
theorem quietly_hops {t : Turn} {hops : Nat} (h : hops ≤ t.hops) : Quietly t { t with hops } :=
  quietly_state t t.talk.vars t.talk.stream h

theorem quietly_record (t : Turn) {acts : List Act} (hacts : ∀ x ∈ acts, x.isQuiet = true) :
    Quietly t (t.update fun c => c.record acts) :=
  .intro t.talk.vars t.talk.stream hacts (Nat.le_refl _)

theorem quietly_note (t : Turn) (n : Notice) : Quietly t (t.update fun c => c.note n) :=
  quietly_record t (by simp [Act.isQuiet])

/-- An assignment touches the variables and the journal at most. -/
theorem quietly_assign (t : Turn) (name source : String) :
    Quietly t (t.update fun c => assign c name source) := by
  cases h : (Expr.parse source).bind (assignedValue t.talk.vars.lookup) with
  | error cause =>
      have hassign : assign t.talk name source = t.talk.note (.assignmentSkipped cause) := by
        simp only [assign, h]
      simpa only [update, hassign] using quietly_note t (.assignmentSkipped cause)
  | ok v =>
      have hassign : assign t.talk name source =
          { t.talk with vars := t.talk.vars.set name v } := by
        simp only [assign, h]
      simpa only [update, hassign] using
        quietly_state t (t.talk.vars.set name v) t.talk.stream (Nat.le_refl _)

/-- So does a command. What its handler asks for is left to be done. -/
theorem quietly_call (name : String) (sources : List String) (t : Turn) :
    Quietly t (callAgenda name sources t).turn := by
  unfold callAgenda
  split
  · exact quietly_note t _
  · next args reply _ =>
      have hran : Quietly t (t.update fun c =>
          { c with vars := reply.vars }.record [.ran name args]) :=
        .intro reply.vars t.talk.stream (by simp [Act.isQuiet]) (Nat.le_refl _)
      split
      · exact hran.trans (quietly_note _ _)
      · exact hran

/-- A statement is quiet; what it asks for is left to the jobs it gives rise to. -/
theorem quietly_statement {dialogue : String} {s : Statement} {t : Turn} {next : Agenda}
    (h : statementAgenda dialogue s t = .ok next) : Quietly t next.turn := by
  unfold statementAgenda at h
  split at h
  · cases h
    exact quietly_call _ _ t
  · cases h
  · cases h
    exact quietly_assign t _ _

/-- Selecting an exit writes down what its conditions give cause to. -/
theorem quietly_leave (slot : Slot) (d : Dialogue) (t : Turn) :
    Quietly t (leaveAgenda slot d t).turn :=
  quietly_record t (by simp [Act.isQuiet])

/-! ### Arriving -/

theorem changes_closeIf (b : Bool) (t : Turn) : Changes t (closeIf b t) := by
  cases b with
  | false => exact .refl
  | true => exact .single (.close t)

/-- Behind the closing that makes way for a dialogue, only that dialogue can be active. -/
theorem slot_of_closeIf {slot : Slot} {t : Turn} {a : Active}
    (h : (closeIf (t.talk.active.any fun a => a.slot != slot) t).talk.active = some a) :
    a.slot = slot := by
  unfold closeIf at h
  split at h
  · simp [close, update] at h
  · next helse => simpa [h] using helse

theorem target?_closeIf (b : Bool) (t : Turn) (key : String) :
    (closeIf b t).talk.target? key = t.talk.target? key := by
  cases b with
  | false => rfl
  | true => simp [closeIf, close, update, Conversation.target?, Conversation.locate,
      Conversation.dialogueAt]

/-- Arriving ends what went on elsewhere and begins the dialogue. -/
theorem changes_arrive {t : Turn} {slot : Slot} {d : Dialogue} {key : String} {hops : Nat}
    (hhops : t.hops = hops + 1) (htarget : t.talk.target? key = some (slot, d))
    (hfresh : (d.flags.oneShot && t.talk.seen.has key) = false) :
    Changes t (arrive slot key { t with hops }) := by
  let elsewhere := t.talk.active.any fun a => a.slot != slot
  have hkept : (closeIf elsewhere t).hops = t.hops ∧
      (closeIf elsewhere t).talk.seen = t.talk.seen := by
    cases elsewhere <;> simp [closeIf, close, update]
  have hbegin : Change (closeIf elsewhere t) ⟨(closeIf elsewhere t).talk.begin slot key, hops⟩ :=
    .begin (hkept.1.trans hhops) ((target?_closeIf _ _ _).trans htarget)
      (hkept.2 ▸ hfresh) fun _ => slot_of_closeIf
  have harrive : arrive slot key { t with hops } =
      ⟨(closeIf elsewhere t).talk.begin slot key, hops⟩ := by
    change (closeIf elsewhere { t with hops }).update _ = _
    cases elsewhere <;> rfl
  rw [harrive]
  exact (changes_closeIf elsewhere t).tail hbegin

theorem active_arrive (slot : Slot) (key : String) (t : Turn) :
    (arrive slot key t).talk.active = some ⟨slot, key, none⟩ := rfl

theorem arrive_stores (slot : Slot) (key : String) (t : Turn) :
    (arrive slot key t).talk.stores = t.talk.stores := by
  unfold arrive closeIf
  split <;> simp [update, close, Conversation.begin, Conversation.emit]

theorem arrive_vars (slot : Slot) (key : String) (t : Turn) :
    (arrive slot key t).talk.vars = t.talk.vars := by
  unfold arrive closeIf
  split <;> simp [update, close, Conversation.begin, Conversation.emit, Conversation.close_eq]

theorem arrive_seen (slot : Slot) (key : String) (t : Turn) :
    (arrive slot key t).talk.seen = t.talk.seen.mark key := by
  unfold arrive closeIf
  split <;> simp [update, close, Conversation.begin, Conversation.emit]

theorem arrive_hops (slot : Slot) (key : String) (t : Turn) :
    (arrive slot key t).hops = t.hops := by
  unfold arrive closeIf
  split <;> rfl

theorem dialogueAt_arrive (slot place : Slot) (key : String) (t : Turn) :
    (arrive slot key t).talk.dialogueAt place = t.talk.dialogueAt place := by
  simp only [Conversation.dialogueAt, arrive_stores]

/-! ### Going on -/

theorem changes_presentAt {t : Turn} {a : Active} {d : Dialogue} (index : Nat)
    (ha : t.talk.active = some a) (hd : t.talk.dialogueAt a.slot = some d) :
    Changes t (t.presentAt a d index) := by
  unfold presentAt
  cases he : d.elements[index]? with
  | none => exact .refl
  | some e => exact .single (.present ha hd he)

theorem changes_presentRandom {t : Turn} {a : Active} {d : Dialogue}
    (ha : t.talk.active = some a) (hd : t.talk.dialogueAt a.slot = some d) :
    Changes t (t.presentRandom a d) := by
  have hdrawn := quietly_state t t.talk.vars (t.talk.stream.pick d.elements.length).2
    (Nat.le_refl _)
  exact hdrawn.changes.trans (changes_presentAt _ ha hd)

/-- Going on shows one element at most. -/
theorem changes_proceed {t : Turn} {a : Active} {d : Dialogue}
    (ha : t.talk.active = some a) (hd : t.talk.dialogueAt a.slot = some d) :
    Changes t (proceedAgenda a d t).turn := by
  unfold proceedAgenda
  cases moveFrom d a.index with
  | finish => exact .refl
  | pick => exact changes_presentRandom ha hd
  | advance index => exact changes_presentAt index ha hd
  | leave => exact (quietly_leave a.slot d t).changes

theorem changes_choose (e : Element) (selected : Nat) (t : Turn) :
    Changes t (chooseAgenda e selected t).turn := by
  unfold chooseAgenda
  cases e.choices[selected]? with
  | none => exact (quietly_note t _).changes
  | some choice => exact .refl

/-- A step of the host is made of such changes. -/
theorem changes_step (selected : Nat) (t : Turn) :
    Changes t (stepAgenda selected t).turn := by
  unfold stepAgenda
  split
  · exact .refl
  · next a ha =>
      split
      · exact .refl
      · next d hd =>
          split
          · next e _ =>
              split
              · exact changes_choose e selected t
              · exact changes_proceed ha hd
          · exact changes_proceed ha hd

/-! ### Jobs and runs -/

/-- So is a hop, whether it starts something, is refused, or is cut off. -/
theorem changes_hop (key : String) (exit : Bool) (t : Turn) :
    Changes t (hopAgenda key exit t).turn := by
  unfold hopAgenda
  cases hhops : t.hops with
  | zero =>
      exact ((quietly_note t _).changes.tail (.close _)).trans (changes_closeIf exit _)
  | succ hops =>
      have hspent : Quietly t { t with hops } := quietly_hops (by omega)
      simp only [startAgenda]
      split
      · exact (hspent.trans (quietly_note _ _)).changes.trans (changes_closeIf exit _)
      · next slot d htarget =>
          split
          · exact hspent.changes.trans (changes_closeIf exit _)
          · next hfresh =>
              have harrive := changes_arrive hhops htarget (by simpa using hfresh)
              have hd := (Conversation.target?_eq_some_iff.mp htarget).2
              exact harrive.trans (changes_proceed (active_arrive slot key _)
                ((dialogueAt_arrive slot slot key _).trans hd))

/-- So is every job. -/
theorem changes_act {job : Job} {t : Turn} {next : Agenda} (h : job.act t = .ok next) :
    Changes t next.turn := by
  cases job with
  | hop key exit =>
      cases h
      exact changes_hop key exit t
  | land exit =>
      cases h
      exact changes_closeIf _ t
  | close =>
      cases h
      exact .single (.close t)
  | statement dialogue s =>
      exact (quietly_statement h).changes
  | endCode slot =>
      cases h
      exact changes_closeIf _ t

theorem changes_abandon (jobs : List Job) (t : Turn) : Changes t (abandon jobs t) := by
  induction jobs generalizing t with
  | nil => exact .refl
  | cons job jobs ih =>
      cases job with
      | endCode slot => exact .head (.close t) (ih t.close)
      | _ => exact ih t

/-- And so is a run, by induction on its jobs. -/
theorem Runs.changes {w : Agenda} {p : Progress Unit} (run : Runs w p) :
    Changes w.turn p.turn := by
  induction run with
  | done t => exact .refl
  | work h _ ih => exact (changes_act h).trans ih
  | fail _ => exact changes_abandon _ _

/-- Hops are spent and never gained. -/
theorem Change.hops_le {t u : Turn} (h : Change t u) : u.hops ≤ t.hops := by
  cases h with
  | quiet _ _ _ hhops => exact hhops
  | close => exact Nat.le_refl _
  | begin hhops => simp only [hhops, Nat.le_succ]
  | present => exact Nat.le_refl _

theorem Changes.hops_le {t u : Turn} (h : Changes t u) : u.hops ≤ t.hops := by
  induction h with
  | refl => exact Nat.le_refl _
  | tail _ hlast ih => exact Nat.le_trans hlast.hops_le ih

/-- The stores are the same at every moment of a turn. -/
theorem Changes.stores_eq {t u : Turn} (h : Changes t u) : u.talk.stores = t.talk.stores := by
  induction h with
  | refl => rfl
  | tail _ hlast ih =>
      rw [← ih]
      cases hlast with
      | close => exact Conversation.close_stores _
      | _ => rfl

/-- What each change tells of the events it adds, a chain of changes tells of all of them. -/
theorem Changes.exists_added {R : Turn → Turn → List Event → Prop} (hnil : ∀ t, R t t [])
    (happend : ∀ {t u v first second}, R t u first → R u v second → R t v (first ++ second))
    (hchange : ∀ {t u}, Change t u →
      ∃ added, u.talk.events = t.talk.events ++ added ∧ R t u added)
    {t u : Turn} (h : Changes t u) :
    ∃ added, u.talk.events = t.talk.events ++ added ∧ R t u added := by
  induction h with
  | refl => exact ⟨[], (List.append_nil _).symm, hnil t⟩
  | tail _ hlast ih =>
      obtain ⟨first, hfirst, hbefore⟩ := ih
      obtain ⟨second, hsecond, hafter⟩ := hchange hlast
      exact ⟨first ++ second, by rw [hsecond, hfirst, List.append_assoc], happend hbefore hafter⟩

end Turn

end Parley
