import Parley.Proofs.Conversation.Reroute

/-!
# What is shown while a dialogue is active

The journal of a conversation falls into activations: each goes from the start of a dialogue to
the next start or end. A dialogue that picks an element shows that one only. Any other dialogue
shows its elements in order from the first, and goes on behind an element with choices only by
one of them, which is another activation.
-/

namespace Parley

/-- A dialogue from its start to its end, as the journal tells it. -/
structure Activation where
  key : String
  /-- What was shown from the start to the next start or end. -/
  shown : List Element

/-- The activations that a journal tells of. -/
structure Playbill where
  past : List Activation := []
  /-- The one that is not over. -/
  going : Option Activation := none

namespace Playbill

/-- Reads one act. A start or an end closes what is going on; what is shown belongs to it. -/
def note (p : Playbill) : Act → Playbill
  | .event (.started key) => ⟨p.past ++ p.going.toList, some ⟨key, []⟩⟩
  | .event .ended => ⟨p.past ++ p.going.toList, none⟩
  | .shown e => { p with going := p.going.map fun a => { a with shown := a.shown ++ [e] } }
  | _ => p

def ofJournal (journal : List Act) : Playbill :=
  journal.foldl note {}

/-- All activations of a journal, the one still going on at the end. -/
def activations (p : Playbill) : List Activation :=
  p.past ++ p.going.toList

theorem ofJournal_append (journal acts : List Act) :
    ofJournal (journal ++ acts) = acts.foldl note (ofJournal journal) :=
  List.foldl_append

/-- Acts that neither start, end nor show anything leave the bill as it is. -/
theorem note_of_isQuiet (p : Playbill) {x : Act} (h : x.isQuiet = true) : p.note x = p := by
  cases x with
  | shown | cleared | event => cases h
  | _ => rfl

theorem ofJournal_append_of_isQuiet (journal : List Act) {acts : List Act}
    (h : ∀ x ∈ acts, x.isQuiet = true) : ofJournal (journal ++ acts) = ofJournal journal := by
  rw [ofJournal_append]
  generalize ofJournal journal = p
  induction acts with
  | nil => rfl
  | cons x acts ih =>
      rw [List.foldl_cons, p.note_of_isQuiet (h x List.mem_cons_self)]
      exact ih fun y hy => h y (List.mem_cons_of_mem x hy)

end Playbill

namespace Conversation

def playbill (c : Conversation) : Playbill :=
  .ofJournal c.journal

/-- Closing ends what is going on. -/
theorem playbill_close (c : Conversation) :
    c.close.playbill =
      match c.active with
      | none => c.playbill
      | some _ => ⟨c.playbill.activations, none⟩ := by
  simp only [playbill, close_journal, closingEvents, Playbill.ofJournal_append]
  cases c.active <;> rfl

/-- Starting ends what is going on and opens an activation that has shown nothing. -/
theorem playbill_begin (c : Conversation) (slot : Slot) (key : String) :
    (c.begin slot key).playbill = ⟨c.playbill.activations, some ⟨key, []⟩⟩ :=
  Playbill.ofJournal_append c.journal [.event (.started key)]

theorem playbill_present (c : Conversation) (a : Active) (index : Nat) (e : Element) :
    (c.present a index e).playbill =
      { c.playbill with
        going := c.playbill.going.map fun act => { act with shown := act.shown ++ [e] } } :=
  Playbill.ofJournal_append c.journal [.shown e]

end Conversation

/-! ### What a dialogue may have shown -/

/-- The elements a dialogue has shown where `index` is that of the last one. -/
def Dialogue.HasShown (d : Dialogue) (index : Option Nat) (shown : List Element) : Prop :=
  match index with
  | none => d.elements = [] ∧ shown = []
  | some i =>
      if d.picksElement then ∃ e, d.elements[i]? = some e ∧ shown = [e]
      else i < d.elements.length ∧ shown = d.elements.take (i + 1) ∧
        ∀ e ∈ d.elements.take i, e.hasChoices = false

/-- The dialogue may go on: nothing of it is shown yet, or an element without choices is. -/
def Dialogue.Ready (d : Dialogue) (index : Option Nat) (shown : List Element) : Prop :=
  match index with
  | none => shown = []
  | some i => d.HasShown (some i) shown ∧
      ∀ e, d.elements[i]? = some e → e.hasChoices = false

/-- What an activation shows befits its dialogue. -/
def Activation.Faithful (c : Conversation) (act : Activation) : Prop :=
  ∃ slot d, c.target? act.key = some (slot, d) ∧
    (d.picksElement = true → ∃ e ∈ d.elements, act.shown = [e]) ∧
    (d.picksElement = false → act.shown <+: d.elements ∧
      ∀ e ∈ act.shown.dropLast, e.hasChoices = false)

namespace Dialogue

variable {d : Dialogue} {index : Option Nat} {shown : List Element}

/-- A dialogue that is left, or finished after a pick, has shown all that it may. -/
theorem Ready.hasShown (h : d.Ready index shown)
    (hmove : Turn.moveFrom d index = .finish ∨ Turn.moveFrom d index = .leave) :
    d.HasShown index shown := by
  cases index with
  | some i => exact h.1
  | none =>
      refine ⟨?_, h⟩
      obtain hmove | hmove := hmove
      · unfold Turn.moveFrom at hmove
        grind
      · simpa [isRedirect] using Turn.isRedirect_of_moveFrom hmove

/-- Picking shows one element, and no other before it. -/
theorem Ready.pick {i : Nat} {e : Element} (h : d.Ready index shown)
    (hmove : Turn.moveFrom d index = .pick) (he : d.elements[i]? = some e) :
    d.HasShown (some i) (shown ++ [e]) := by
  unfold Turn.moveFrom at hmove
  cases index with
  | some j => grind
  | none =>
      have hpicks : d.picksElement = true := by grind
      have hnil : shown = [] := h
      simp only [HasShown, hpicks, if_true, hnil]
      exact ⟨e, he, rfl⟩

/-- The next element is shown behind all those in front of it. -/
theorem Ready.advance {n : Nat} (h : d.Ready index shown)
    (hmove : Turn.moveFrom d index = .advance n) :
    ∃ hn : n < d.elements.length, d.HasShown (some n) (shown ++ [d.elements[n]]) := by
  have hpicks : d.picksElement = false := by
    unfold Turn.moveFrom at hmove
    cases index <;> grind
  unfold Turn.moveFrom at hmove
  simp only [hpicks, Bool.false_eq_true, if_false] at hmove
  cases index with
  | none =>
      have hnil : shown = [] := h
      obtain ⟨hn, rfl⟩ : n < d.elements.length ∧ n = 0 := by grind
      refine ⟨hn, ?_⟩
      simp only [HasShown, hpicks, Bool.false_eq_true, if_false]
      refine ⟨hn, ?_, by simp⟩
      rw [hnil, ← List.take_append_getElem hn]
      rfl
  | some i =>
      obtain ⟨hshown, hlast⟩ := h
      simp only [HasShown, hpicks, Bool.false_eq_true, if_false] at hshown
      obtain ⟨hi, rfl, hbefore⟩ := hshown
      obtain ⟨hn, rfl⟩ : n < d.elements.length ∧ n = i + 1 := by grind
      refine ⟨hn, ?_⟩
      simp only [HasShown, hpicks, Bool.false_eq_true, if_false]
      refine ⟨hn, List.take_append_getElem hn, ?_⟩
      intro e he
      rw [← List.take_append_getElem hi, List.mem_append, List.mem_singleton] at he
      obtain he | rfl := he
      · exact hbefore e he
      · exact hlast _ (List.getElem?_eq_getElem hi)

/-- What a dialogue has shown so far is a faithful activation. -/
theorem HasShown.faithful {c : Conversation} {key : String} {slot : Slot}
    (h : d.HasShown index shown) (htarget : c.target? key = some (slot, d)) :
    Activation.Faithful c ⟨key, shown⟩ := by
  refine ⟨slot, d, htarget, fun hpicks => ?_, fun hpicks => ?_⟩
  · cases index with
    | none => simp [picksElement, h.1] at hpicks
    | some i =>
        simp only [HasShown, hpicks, if_true] at h
        obtain ⟨e, he, hshown⟩ := h
        exact ⟨e, List.mem_of_getElem? he, hshown⟩
  · cases index with
    | none =>
        obtain ⟨_, rfl⟩ := h
        exact ⟨List.nil_prefix, by simp⟩
    | some i =>
        simp only [HasShown, hpicks, Bool.false_eq_true, if_false] at h
        obtain ⟨hi, rfl, hbefore⟩ := h
        refine ⟨List.take_prefix _ _, ?_⟩
        rw [← List.take_append_getElem hi, List.dropLast_concat]
        exact hbefore

end Dialogue

/-! ### The invariant -/

/-- A dialogue is active, and its activation has shown something so far. -/
structure Opened (c : Conversation) (a : Active) (d : Dialogue) (shown : List Element) :
    Prop where
  active : c.active = some a
  target : c.target? a.key = some (a.slot, d)
  past : ∀ act ∈ c.playbill.past, act.Faithful c
  going : c.playbill.going = some ⟨a.key, shown⟩

/-- The activations told of befit their dialogues, and the one going on is that of the active
dialogue. -/
inductive Billed (c : Conversation) : Prop
  | idle (hactive : c.active = none) (hpast : ∀ act ∈ c.playbill.past, act.Faithful c)
      (hgoing : c.playbill.going = none)
  | active {a : Active} {d : Dialogue} {shown : List Element} (h : Opened c a d shown)
      (hshown : d.HasShown a.index shown)

theorem Activation.Faithful.congr {c c' : Conversation} {act : Activation}
    (h : act.Faithful c) (hstores : c'.stores = c.stores) : act.Faithful c' := by
  obtain ⟨slot, d, htarget, hshown⟩ := h
  exact ⟨slot, d, (Conversation.target?_congr hstores _).trans htarget, hshown⟩

namespace Opened

variable {c c' : Conversation} {a : Active} {d : Dialogue} {shown : List Element}

theorem congr (h : Opened c a d shown) (hactive : c'.active = c.active)
    (hstores : c'.stores = c.stores) (hbill : c'.playbill = c.playbill) :
    Opened c' a d shown := by
  refine ⟨hactive.trans h.active, (Conversation.target?_congr hstores _).trans h.target, ?_, ?_⟩
  · rw [hbill]
    exact fun act hact => (h.past act hact).congr hstores
  · rw [hbill, h.going]

theorem present (h : Opened c a d shown) (index : Nat) (e : Element) :
    Opened (c.present a index e) { a with index := some index } d (shown ++ [e]) := by
  have hbill := c.playbill_present a index e
  refine ⟨rfl, h.target, ?_, ?_⟩
  · rw [hbill]
    exact fun act hact => (h.past act hact).congr rfl
  · rw [hbill, h.going]
    rfl

end Opened

namespace Billed

variable {c c' : Conversation}

theorem congr (h : Billed c) (hactive : c'.active = c.active) (hstores : c'.stores = c.stores)
    (hbill : c'.playbill = c.playbill) : Billed c' := by
  cases h with
  | idle hidle hpast hgoing =>
      refine .idle (hactive.trans hidle) ?_ (by rw [hbill, hgoing])
      rw [hbill]
      exact fun act hact => (hpast act hact).congr hstores
  | active h hshown => exact .active (h.congr hactive hstores hbill) hshown

/-- Every activation on the bill is faithful, the one going on too. -/
theorem faithful (h : Billed c) : ∀ act ∈ c.playbill.activations, act.Faithful c := by
  unfold Playbill.activations
  cases h with
  | idle _ hpast hgoing => simpa [hgoing] using hpast
  | active h hshown =>
      intro act hact
      rw [h.going, List.mem_append] at hact
      obtain hact | hact := hact
      · exact h.past act hact
      · rw [List.mem_singleton.mp hact]
        exact hshown.faithful h.target

theorem close (h : Billed c) : Billed c.close := by
  have hbill := c.playbill_close
  cases hactive : c.active with
  | none =>
      apply h.congr
      · rw [hactive, Conversation.close_active]
      · exact c.close_stores
      · rw [hbill, hactive]
  | some a =>
      rw [hactive] at hbill
      refine .idle c.close_active ?_ (by rw [hbill])
      rw [hbill]
      exact fun act hact => (h.faithful act hact).congr c.close_stores

/-- A dialogue that begins has shown nothing yet. -/
theorem begin {slot : Slot} {d : Dialogue} {key : String} (h : Billed c)
    (htarget : c.target? key = some (slot, d)) :
    Opened (c.begin slot key) ⟨slot, key, none⟩ d [] := by
  have hbill := c.playbill_begin slot key
  refine ⟨rfl, htarget, ?_, by rw [hbill]⟩
  rw [hbill]
  exact fun act hact => (h.faithful act hact).congr rfl

theorem closeIf {b : Bool} {t : Turn} (h : Billed t.talk) : Billed (Turn.closeIf b t).talk := by
  cases b with
  | false => exact h
  | true => exact h.close

theorem addStore (h : Billed c) (s : Store) : Billed (c.addStore s) := by
  have hfaithful : ∀ act : Activation, act.Faithful c → act.Faithful (c.addStore s) := by
    rintro act ⟨slot, d, htarget, hshown⟩
    exact ⟨slot, d, Conversation.target?_addStore htarget s, hshown⟩
  cases h with
  | idle hidle hpast hgoing =>
      exact .idle hidle (fun act hact => hfaithful act (hpast act hact)) hgoing
  | active h hshown =>
      exact .active ⟨h.active, Conversation.target?_addStore h.target s,
        fun act hact => hfaithful act (h.past act hact), h.going⟩ hshown

end Billed

namespace Turn

theorem Quietly.alikeBill {t u : Turn} (h : Quietly t u) :
    u.talk.active = t.talk.active ∧ u.talk.stores = t.talk.stores ∧
      u.talk.playbill = t.talk.playbill := by
  obtain ⟨_, _, hacts, _⟩ := h
  exact ⟨rfl, rfl, Playbill.ofJournal_append_of_isQuiet _ hacts⟩

theorem Quietly.billed {t u : Turn} (h : Quietly t u) (hbilled : Billed t.talk) :
    Billed u.talk :=
  hbilled.congr h.alikeBill.1 h.alikeBill.2.1 h.alikeBill.2.2

theorem Quietly.opened {t u : Turn} {a : Active} {d : Dialogue} {shown : List Element}
    (h : Quietly t u) (hopened : Opened t.talk a d shown) : Opened u.talk a d shown :=
  hopened.congr h.alikeBill.1 h.alikeBill.2.1 h.alikeBill.2.2

/-- Entering a dialogue opens it with nothing shown. -/
theorem opened_arrive {t : Turn} {slot : Slot} {d : Dialogue} {key : String}
    (h : Billed t.talk) (htarget : t.talk.target? key = some (slot, d)) :
    Opened (arrive slot key t).talk ⟨slot, key, none⟩ d [] :=
  Billed.begin h.closeIf ((target?_closeIf _ t key).trans htarget)

/-- Going on shows at most one element, and that in its turn. -/
theorem billed_proceed {t : Turn} {a : Active} {d : Dialogue} {shown : List Element}
    (h : Opened t.talk a d shown) (hready : d.Ready a.index shown) :
    Billed (proceedAgenda a d t).turn.talk := by
  unfold proceedAgenda
  cases hmove : moveFrom d a.index with
  | finish => exact .active h (hready.hasShown (.inl hmove))
  | leave => exact .active ((quietly_leave a.slot d t).opened h) (hready.hasShown (.inr hmove))
  | advance n =>
      obtain ⟨hn, hshown⟩ := hready.advance hmove
      simp only [presentAt, List.getElem?_eq_getElem hn]
      exact .active (h.present n _) hshown
  | pick =>
      have hne : 0 < d.elements.length := by
        unfold moveFrom at hmove
        grind [Dialogue.picksElement]
      have he := List.getElem?_eq_getElem (t.talk.stream.pick_lt hne)
      have hdrawn := (quietly_state t t.talk.vars (t.talk.stream.pick d.elements.length).2
        (Nat.le_refl _)).opened h
      simp only [presentRandom, presentAt, he]
      exact .active (hdrawn.present _ _) (hready.pick hmove he)

/-- Going on keeps the bill faithful. -/
theorem billed_step {t : Turn} (h : Billed t.talk) (selected : Nat) :
    Billed (stepAgenda selected t).turn.talk := by
  unfold stepAgenda
  cases h with
  | idle hidle hpast hgoing =>
      simp only [hidle]
      exact .idle hidle hpast hgoing
  | @active a d shown hopened hshown =>
      have hdialogue := (Conversation.target?_eq_some_iff.mp hopened.target).2
      simp only [hopened.active, hdialogue]
      -- What was shown so far lets the dialogue go on only where no choice waits to be made.
      have hready : (∀ e, a.element? d = some e → e.hasChoices = false) →
          d.Ready a.index shown := by
        intro hplain
        unfold Active.element? at hplain
        cases hindex : a.index with
        | none =>
            rw [hindex] at hshown
            exact hshown.2
        | some i =>
            rw [hindex] at hshown hplain
            exact ⟨hshown, hplain⟩
      split
      · next e he =>
          split
          · unfold chooseAgenda
            split
            · exact .active hopened hshown
            · exact (quietly_note t _).billed (.active hopened hshown)
          · next hplain =>
              apply billed_proceed hopened
              apply hready
              intro e' he'
              rw [he] at he'
              cases he'
              simpa using hplain
      · next hnone =>
          apply billed_proceed hopened
          apply hready
          simp [hnone]

/-- Hopping keeps the bill faithful, also where the limit cuts it off. -/
theorem billed_hop {t : Turn} (h : Billed t.talk) (key : String) (exit : Bool) :
    Billed (hopAgenda key exit t).turn.talk := by
  unfold hopAgenda
  cases hhops : t.hops with
  | zero => exact Billed.closeIf ((quietly_note t _).billed h).close
  | succ hops =>
      have hspent : Billed ({ t with hops } : Turn).talk := h
      simp only [startAgenda]
      split
      · exact Billed.closeIf ((quietly_note { t with hops } _).billed hspent)
      · next slot d htarget =>
          split
          · exact Billed.closeIf hspent
          · exact billed_proceed (opened_arrive hspent htarget) rfl

/-- Every job keeps the bill faithful, whatever jobs it gives rise to. -/
theorem billed_act {job : Job} {t : Turn} {next : Agenda} (h : Billed t.talk)
    (hact : job.act t = .ok next) : Billed next.turn.talk := by
  cases job with
  | hop key exit =>
      cases hact
      exact billed_hop h key exit
  | land exit =>
      cases hact
      exact h.closeIf
  | close =>
      cases hact
      exact h.close
  | statement dialogue s => exact (quietly_statement hact).billed h
  | endCode slot =>
      cases hact
      exact h.closeIf

theorem billed_abandon {t : Turn} (h : Billed t.talk) (jobs : List Job) :
    Billed (abandon jobs t).talk := by
  induction jobs generalizing t with
  | nil => exact h
  | cons job jobs ih =>
      cases job with
      | endCode slot => exact ih h.close
      | _ => exact ih h

/-- So does a whole run, by induction on its jobs. -/
theorem Runs.billed {w : Agenda} {p : Progress Unit} (run : Runs w p) (h : Billed w.turn.talk) :
    Billed p.turn.talk :=
  run.invariant (I := fun w => Billed w.turn.talk) (fun _ _ _ _ => billed_act)
    (fun _ jobs _ _ hbilled _ => billed_abandon hbilled jobs) h

end Turn

/-! ### Calls of the host -/

namespace Billed

variable {c : Conversation}

theorem advance (h : Billed c) (selected : Nat) : Billed (c.advance selected).talk :=
  (Turn.advance_runs c selected).billed (Turn.billed_step h selected)

theorem record (h : Billed c) {acts : List Act} (hacts : ∀ x ∈ acts, x.isQuiet = true) :
    Billed (c.record acts) :=
  (Turn.quietly_record (Turn.fresh c) hacts).billed h

theorem perform (h : Billed c) (call : HostCall) : Billed (c.perform call) := by
  cases call with
  | start key =>
      obtain ⟨p, hrun, htalk, _⟩ := Turn.start_runs c key
      rw [Conversation.perform, ← htalk]
      exact hrun.billed h
  | advance selected => exact h.advance selected
  | confirm reading =>
      simp only [Conversation.perform, Conversation.confirm]
      split
      · exact h.record (by simp [Act.isQuiet])
      · exact h.advance reading.selected
  | close => exact h.close
  | steer x y => exact h.record (by simp [Act.isQuiet])
  | addStore s => exact h.addStore s
  | _ => exact h.congr rfl rfl rfl

/-- So does a session. -/
theorem performAll (h : Billed c) (calls : List HostCall) : Billed (c.performAll calls) := by
  induction calls generalizing c with
  | nil => exact h
  | cons call calls ih => exact ih (h.perform call)

end Billed

namespace Conversation

/-- Only dialogues that pick an element get other exits. -/
def pickExits (exits : Dialogue → List Exit) (d : Dialogue) : List Exit :=
  if d.picksElement then exits d else d.exits

theorem standIn_pickExits (exits : Dialogue → List Exit) (d : Dialogue) :
    d.StandIn (!d.picksElement) { d with exits := pickExits exits d } := by
  refine ⟨rfl, rfl, rfl, fun hleaves env => ?_⟩
  have hpicks : d.picksElement = false := by simpa using hleaves
  simp only [pickExits, hpicks, Bool.false_eq_true, if_false]

/-- Going on from an element without choices to the one behind it. -/
theorem advance_within {c : Conversation} {a : Active} {d : Dialogue} {i : Nat}
    (hactive : c.active = some a) (hd : c.dialogueAt a.slot = some d)
    (hpicks : d.picksElement = false) (hindex : a.index = some i)
    (hnext : i + 1 < d.elements.length)
    (hplain : ∀ e, d.elements[i]? = some e → e.hasChoices = false) (selected : Nat) :
    c.advance selected = ⟨c.present a (i + 1) d.elements[i + 1], .ok ()⟩ := by
  have hmove : Turn.moveFrom d a.index = .advance (i + 1) := by
    simp [Turn.moveFrom, hpicks, hindex, hnext]
  rw [advance_eq_proceed hactive hd (by simpa [Active.element?, hindex] using hplain)]
  simp only [Turn.proceed, hmove, Turn.presentAt, List.getElem?_eq_getElem hnext]
  rfl

/-- In every run, what is shown from the start of a dialogue to the next start or end is one
element of a dialogue that picks, and the first elements of any other, in order, of which only
the last may have choices. The exits of a dialogue that picks are never taken: with any others
the run is the same. Going on from an element without choices shows the next one where there is
one, and nothing else happens. -/
theorem shown_in_activation (config : Config) (entropy : UInt64) (calls : List HostCall) :
    (∀ act ∈ ((new config entropy).performAll calls).playbill.activations, ∃ slot d,
      ((new config entropy).performAll calls).target? act.key = some (slot, d) ∧
        (d.picksElement = true → ∃ e ∈ d.elements, act.shown = [e]) ∧
        (d.picksElement = false → act.shown <+: d.elements ∧
          ∀ e ∈ act.shown.dropLast, e.hasChoices = false)) ∧
    (∀ exits, (new config entropy).performAll (calls.map (HostCall.reroute (pickExits exits))) =
      ((new config entropy).performAll calls).reroute fun _ => pickExits exits) ∧
    (∀ a d i selected, ((new config entropy).performAll calls).active = some a →
      ((new config entropy).performAll calls).dialogueAt a.slot = some d →
      d.picksElement = false → a.index = some i → ∀ hnext : i + 1 < d.elements.length,
      (∀ e, d.elements[i]? = some e → e.hasChoices = false) →
      ((new config entropy).performAll calls).advance selected =
        ⟨((new config entropy).performAll calls).present a (i + 1) d.elements[i + 1],
          .ok ()⟩) := by
  have hnew : Billed (new config entropy) :=
    .idle rfl (by simp [playbill, new, Playbill.ofJournal]) rfl
  refine ⟨(hnew.performAll calls).faithful, ?_, ?_⟩
  · intro exits
    rw [reroute_performAll (standIn_pickExits exits)]
    rfl
  · intro a d i selected hactive hd hpicks hindex hnext hplain
    exact advance_within hactive hd hpicks hindex hnext hplain selected

end Conversation

end Parley
