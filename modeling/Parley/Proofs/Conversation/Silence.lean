import Parley.Proofs.Conversation.CodeStart
import Parley.Proofs.Conversation.Picture

/-!
# Ways that show nothing

A hop to a key may come to nothing that can be seen. Then the conversation is over behind it, and
that has one of two reasons: no hop may be made at all, or the key, started with one hop used up,
shows nothing.

## Implementation notes

A start that shows nothing leaves nothing active that has begun: a dialogue begins without a
place, only an element shown gives it one, and between two calls of the host an active dialogue
has one.
-/

namespace Parley

/-- No element is shown by any of the acts. -/
def Silent (acts : List Act) : Prop :=
  ∀ e, .shown e ∉ acts

/-- Acts are silent together if and only if each part is. -/
theorem silent_append {acts more : List Act} :
    Silent (acts ++ more) ↔ Silent acts ∧ Silent more := by
  simp only [Silent, List.mem_append, not_or, forall_and]

theorem silent_of_isQuiet {acts : List Act} (h : ∀ x ∈ acts, x.isQuiet = true) : Silent acts := by
  intro e he
  cases h _ he

theorem silent_events (events : List Event) : Silent (events.map .event) := by
  intro e he
  obtain ⟨event, -, heq⟩ := List.mem_map.mp he
  cases heq

/-- Closing is silent, although the display is cleared. -/
theorem silent_closing (c : Conversation) :
    Silent (.cleared :: c.closingEvents.map .event) := by
  intro e he
  obtain heq | hevent := List.mem_cons.mp he
  · cases heq
  · exact silent_events _ e hevent

theorem silent_notices (notices : List Notice) : Silent (notices.map .noticed) :=
  silent_of_isQuiet (List.forall_mem_map.mpr fun _ _ => rfl)

namespace Conversation

variable {c c' c'' : Conversation}

/-- What was done from `c` to `c'` shows no element. -/
def ShowsNothing (c c' : Conversation) : Prop :=
  ∃ acts, c'.journal = c.journal ++ acts ∧ Silent acts

/-- Whether a call showed something is told by the acts that it added. -/
theorem showsNothing_iff {acts : List Act} (h : c'.journal = c.journal ++ acts) :
    c.ShowsNothing c' ↔ Silent acts := by
  constructor
  · rintro ⟨acts', h', hsilent⟩
    rw [h, List.append_cancel_left_eq] at h'
    exact h' ▸ hsilent
  · exact fun hsilent => ⟨acts, h, hsilent⟩

theorem ShowsNothing.trans (h : c.ShowsNothing c') (h' : c'.ShowsNothing c'') :
    c.ShowsNothing c'' := by
  obtain ⟨acts, hacts, hsilent⟩ := h
  obtain ⟨more, hmore, hsilent'⟩ := h'
  refine ⟨acts ++ more, ?_, silent_append.mpr ⟨hsilent, hsilent'⟩⟩
  rw [hmore, hacts, List.append_assoc]

theorem record_nil (c : Conversation) : c.record [] = c := by
  rw [record, List.append_nil]

theorem showsNothing_record (c : Conversation) {acts : List Act} (h : Silent acts) :
    c.ShowsNothing (c.record acts) :=
  ⟨acts, rfl, h⟩

theorem showsNothing_close (c : Conversation) : c.ShowsNothing c.close :=
  ⟨_, c.close_journal, silent_closing c⟩

/-- The place of the element shown. -/
def place (c : Conversation) : Option Nat :=
  c.active.bind Active.index

theorem place_close (c : Conversation) : c.close.place = none := by
  rw [place, close_active, Option.bind_none]

/-- An active dialogue shows one of its elements, except in the middle of a call. -/
theorem active_eq_none_of_place (h : Pictured c) (hplace : c.place = none) : c.active = none := by
  unfold Pictured at h
  cases hactive : c.active with
  | none => rfl
  | some a =>
      simp only [hactive] at h
      obtain ⟨d, i, e, -, hindex, -⟩ := h
      simp [place, hactive, hindex] at hplace

end Conversation

namespace Turn

/-- Only what shows an element gives the active dialogue a place. -/
theorem Change.exists_acts {t u : Turn} (h : Change t u) :
    ∃ acts, u.talk.journal = t.talk.journal ++ acts ∧
      (Silent acts → t.talk.place = none → u.talk.place = none) := by
  cases h with
  | quiet vars stream hacts hhops => exact ⟨_, rfl, fun _ hplace => hplace⟩
  | close =>
      exact ⟨_, t.talk.close_journal, fun _ _ => t.talk.place_close⟩
  | begin hhops htarget hfresh hactive => exact ⟨_, rfl, fun _ _ => rfl⟩
  | @present a d index e ha hd he =>
      exact ⟨[.shown e], rfl, fun hsilent => absurd List.mem_cons_self (hsilent e)⟩

/-- A turn only adds to the journal, and without an element shown no place becomes current. -/
theorem Changes.exists_acts {t u : Turn} (h : Changes t u) :
    ∃ acts, u.talk.journal = t.talk.journal ++ acts ∧
      (Silent acts → t.talk.place = none → u.talk.place = none) := by
  induction h with
  | refl => exact ⟨[], (List.append_nil _).symm, fun _ hplace => hplace⟩
  | tail _ hlast ih =>
      obtain ⟨acts, hacts, hkept⟩ := ih
      obtain ⟨more, hmore, hkept'⟩ := hlast.exists_acts
      refine ⟨acts ++ more, by rw [hmore, hacts, List.append_assoc], fun hsilent hplace => ?_⟩
      obtain ⟨hbefore, hafter⟩ := silent_append.mp hsilent
      exact hkept' hafter (hkept hbefore hplace)

/-- Whatever was active before, the dialogue arrived at shows something or does not last. -/
theorem proceed_of_arrive {depth : Nat} {t : Turn} {slot : Slot} {d : Dialogue} (key : String)
    (hhops : t.hops ≤ depth) (hd : t.talk.dialogueAt slot = some d) :
    ∃ acts, (proceed (follow depth) ⟨slot, key, none⟩ d (arrive slot key t)).turn.talk.journal =
        t.talk.journal ++ acts ∧
      (Silent acts → (proceed (follow depth) ⟨slot, key, none⟩ d
        (arrive slot key t)).turn.talk.active = none) := by
  have hfront : ∃ acts, (arrive slot key t).talk.journal = t.talk.journal ++ acts := by
    obtain ⟨acts, hacts, -⟩ := (changes_closeIf
      (t.talk.active.any fun a => a.slot != slot) t).exists_acts
    refine ⟨acts ++ [.event (.started key)], ?_⟩
    rw [← List.append_assoc, ← hacts]
    rfl
  have hplace : (arrive slot key t).talk.place = none := rfl
  have hd' := (dialogueAt_arrive slot slot key t).trans hd
  have hdepth : (arrive slot key t).hops ≤ depth := by
    unfold arrive closeIf
    split <;> exact hhops
  have hrun := (proceed_yields (fun key exit t => follow_yields depth key exit t)
    ⟨slot, key, none⟩ d hdepth).runs
  have hpictured := hrun.pictured (covered_proceed (active_arrive slot key t) hd')
  obtain ⟨front, hfront⟩ := hfront
  have hchanges := (changes_proceed (active_arrive slot key t) hd').trans hrun.changes
  obtain ⟨acts, hacts, hkept⟩ := Changes.exists_acts hchanges
  refine ⟨front ++ acts, by rw [hacts, hfront, List.append_assoc], fun hsilent => ?_⟩
  exact Conversation.active_eq_none_of_place hpictured
    (hkept (silent_append.mp hsilent).2 hplace)

/-- A start that shows nothing leaves nothing that has begun active. -/
theorem start_silent {depth : Nat} {t : Turn} (key : String) (hhops : t.hops ≤ depth) :
    ∃ acts, (start (follow depth) key t).turn.talk.journal = t.talk.journal ++ acts ∧
      (Silent acts → (start (follow depth) key t).result ≠ .ok true) := by
  unfold start
  split
  · exact ⟨[.noticed (.unknownDialogue key)], rfl, fun _ => by simp⟩
  · next slot d htarget =>
      split
      · exact ⟨[], (List.append_nil _).symm, fun _ => by simp⟩
      · have hd := (Conversation.target?_eq_some_iff.mp htarget).2
        obtain ⟨acts, hacts, hidle⟩ := proceed_of_arrive key hhops hd
        rw [enter_eq]
        unfold entered
        split
        · refine ⟨acts, hacts, fun hsilent => ?_⟩
          simp [Conversation.isTalking, hidle hsilent]
        · exact ⟨acts, hacts, fun _ => by simp⟩

end Turn

namespace Conversation

/-! ### Going to a key -/

section Going

variable {c c' : Conversation}

/-- Goes on to a key in a call of the host. The conversation ends if that comes to nothing. -/
def goTo (c : Conversation) (key : String) : Result Unit :=
  .ofProgress (Turn.hopOrClose (Turn.follow c.config.maxRedirects) key (Turn.fresh c))

/-- Starts a key in a call of the host that has used up one hop already. -/
def startAfterHop (c : Conversation) (key : String) : Progress Bool :=
  Turn.start (Turn.follow (c.config.maxRedirects - 1)) key ⟨c, c.config.maxRedirects - 1⟩

/-- From `c` to `c'` nothing was shown, and nothing is active any more. -/
structure EndsSilently (c c' : Conversation) : Prop where
  silent : c.ShowsNothing c'
  idle : c'.active = none

theorem EndsSilently.close (h : c.ShowsNothing c') : c.EndsSilently c'.close :=
  ⟨h.trans c'.showsNothing_close, c'.close_active⟩

/-- Notices on the way are no noise. -/
theorem endsSilently_record_iff {acts more : List Act} (h : Silent acts)
    (hmore : c'.journal = (c.record acts).journal ++ more) :
    c.EndsSilently c' ↔ (c.record acts).EndsSilently c' := by
  constructor
  · intro hends
    have hall : c'.journal = c.journal ++ (acts ++ more) := by
      rw [hmore, ← List.append_assoc]
      rfl
    have hsilent := (showsNothing_iff hall).mp hends.silent
    exact ⟨⟨more, hmore, (silent_append.mp hsilent).2⟩, hends.idle⟩
  · intro hends
    exact ⟨(c.showsNothing_record h).trans hends.silent, hends.idle⟩

theorem exists_acts_goTo (c : Conversation) (key : String) :
    ∃ acts, (c.goTo key).talk.journal = c.journal ++ acts := by
  have hrun := (Turn.hopOrClose_yields (t := Turn.fresh c)
    (fun key exit t => Turn.follow_yields _ key exit t) key (Nat.le_refl _)).runs
  obtain ⟨acts, hacts, -⟩ := Turn.Changes.exists_acts hrun.changes
  exact ⟨acts, hacts⟩

/-- Where no hop may be made the conversation ends. -/
theorem goTo_of_maxRedirects_eq_zero (h : c.config.maxRedirects = 0) (key : String) :
    c.EndsSilently (c.goTo key).talk := by
  have hgoTo : (c.goTo key).talk = (c.note (.redirectLimit key)).close.close := by
    simp only [goTo, h]
    rfl
  rw [hgoTo]
  exact .close ((c.showsNothing_record (silent_notices [.redirectLimit key])).trans
    (showsNothing_close _))

/-- Where a hop is allowed at all, going to a key is starting it with one hop spent. -/
theorem goTo_of_maxRedirects_pos (h : 0 < c.config.maxRedirects) (key : String) :
    c.goTo key = .ofProgress (Turn.landed true (c.startAfterHop key)) := by
  obtain ⟨hops, hmax⟩ := Nat.exists_eq_add_one.mpr h
  simp only [goTo, startAfterHop, Turn.hopOrClose_eq, Turn.follow, Turn.fresh, hmax,
    Nat.add_sub_cancel]

/-- What a hop comes to for an exit is silent where the hop itself was. -/
theorem landed_endsSilently_iff {next : Progress Bool} {acts : List Act}
    (hacts : next.turn.talk.journal = c.journal ++ acts)
    (htrue : Silent acts → next.result ≠ .ok true)
    (hfault : ∀ fault, next.result = .error fault → next.turn.talk.active = none) :
    c.EndsSilently (Turn.landed true next).turn.talk ↔ Silent acts := by
  have hiff := showsNothing_iff hacts
  obtain ⟨u, result⟩ := next
  match result with
  | .error fault =>
      exact ⟨fun h => hiff.mp h.silent, fun h => ⟨hiff.mpr h, hfault fault rfl⟩⟩
  | .ok true =>
      exact ⟨fun h => hiff.mp h.silent, fun h => absurd rfl (htrue h)⟩
  | .ok false =>
      refine ⟨fun h => ?_, fun h => .close (hiff.mpr h)⟩
      have hclosed : u.talk.close.journal =
          c.journal ++ (acts ++ .cleared :: u.talk.closingEvents.map .event) := by
        rw [u.talk.close_journal, hacts, List.append_assoc]
      exact (silent_append.mp ((showsNothing_iff hclosed).mp h.silent)).1

theorem startAfterHop_settled (c : Conversation) (key : String) :
    Turn.Settled c.active (c.startAfterHop key) := by
  have hfault : ∀ key t fault,
      (Turn.follow (c.config.maxRedirects - 1) key t).result = .error fault →
        (Turn.follow (c.config.maxRedirects - 1) key t).turn.talk.active = none :=
    fun key t _ h => (Turn.follow_settled _ key t).idle_of_fault h
  exact Turn.start_settled hfault key ⟨c, c.config.maxRedirects - 1⟩

/-- Going to a key ends the conversation without a word if no hop is allowed, or if starting it
shows nothing. -/
theorem goTo_endsSilently_iff (c : Conversation) (key : String) :
    c.EndsSilently (c.goTo key).talk ↔
      c.config.maxRedirects = 0 ∨ c.ShowsNothing (c.startAfterHop key).turn.talk := by
  obtain hzero | hpos := Nat.eq_zero_or_pos c.config.maxRedirects
  · exact iff_of_true (goTo_of_maxRedirects_eq_zero hzero key) (.inl hzero)
  · obtain ⟨acts, hacts, htrue⟩ := Turn.start_silent (t := ⟨c, c.config.maxRedirects - 1⟩) key
      (Nat.le_refl (c.config.maxRedirects - 1))
    change (c.startAfterHop key).turn.talk.journal = c.journal ++ acts at hacts
    have hfault : ∀ fault, (c.startAfterHop key).result = .error fault →
        (c.startAfterHop key).turn.talk.active = none :=
      fun _ h => (c.startAfterHop_settled key).idle_of_fault h
    rw [goTo_of_maxRedirects_pos hpos, or_iff_right (Nat.ne_of_gt hpos), showsNothing_iff hacts]
    exact landed_endsSilently_iff hacts htrue hfault

end Going

end Conversation

end Parley
