import Parley.Proofs.Conversation.Episodes

/-!
# Dialogues that start once

Between two times that the host sets the seen table, a one-shot dialogue starts at most once, and
not at all where the table counted it from the beginning. Whatever asks for the start, the table is
looked up first and marked at once, and only the host takes marks away. Stores are added behind
those there are, so a key that has a dialogue never comes to stand for another one.

## Implementation notes

A mark counts as a start: the starts of a key and the mark it had before are together no more than
the mark it has afterwards. In this form what one change keeps adds up to what a run keeps.
-/

namespace Parley

namespace Conversation

variable {c : Conversation} {key : String}

/-- Whether the dialogue of a key starts at most once. A key without a dialogue never starts. -/
def IsOneShot (c : Conversation) (key : String) : Prop :=
  ∀ slot d, c.target? key = some (slot, d) → d.flags.oneShot = true

/-- One where the key is counted in the seen table, and else nothing. -/
def marks (c : Conversation) (key : String) : Nat :=
  (c.seen.has key).toNat

/-- A key is marked or it is not. -/
theorem marks_le_one (c : Conversation) (key : String) : c.marks key ≤ 1 :=
  Bool.toNat_le _

theorem marks_begin_self (c : Conversation) (slot : Slot) (key : String) :
    (c.begin slot key).marks key = 1 := by
  change ((c.seen.mark key).has key).toNat = 1
  rw [SeenTable.has_mark_self]
  rfl

theorem marks_begin_of_ne (c : Conversation) (slot : Slot) {key other : String} (h : key ≠ other) :
    (c.begin slot key).marks other = c.marks other := by
  change ((c.seen.mark key).has other).toNat = _
  rw [SeenTable.has_mark_of_ne c.seen h, marks]

theorem count_closingEvents (c : Conversation) (key : String) :
    c.closingEvents.count (.started key) = 0 := by
  unfold closingEvents
  cases c.active <;> simp

end Conversation

/-- From one conversation to another, further events `added` were recorded; what they tell of
starts of the key shows in the seen table. -/
def Counted (key : String) (c d : Conversation) (added : List Event) : Prop :=
  added.count (.started key) + c.marks key ≤ d.marks key

namespace Counted

variable {key : String} {c d e : Conversation} {first second : List Event}

theorem nil (h : d.seen = c.seen) : Counted key c d [] := by
  simp [Counted, Conversation.marks, h]

/-- Counts add up along a run: what the first part marked the second cannot start. -/
theorem append (h : Counted key c d first) (h' : Counted key d e second) :
    Counted key c e (first ++ second) := by
  unfold Counted at h h' ⊢
  rw [List.count_append]
  omega

/-- Between two tables a dialogue that starts once is started once at most. -/
theorem count_le_one (h : Counted key c d first) : first.count (.started key) ≤ 1 := by
  have hmarks := d.marks_le_one key
  unfold Counted at h
  omega

/-- Once it is marked it is not started at all. -/
theorem notMem (h : Counted key c d first) (hseen : c.seen.has key = true) :
    .started key ∉ first := by
  have hmarks := d.marks_le_one key
  have hmarked : c.marks key = 1 := by
    rw [Conversation.marks, hseen]
    rfl
  rw [Counted, hmarked] at h
  rw [← List.count_eq_zero]
  omega

end Counted

namespace Turn

/-- A dialogue begins only where its key is not marked, and marks it. -/
theorem Change.counted {t u : Turn} (h : Change t u) {key : String}
    (hone : t.talk.IsOneShot key) :
    ∃ added, u.talk.events = t.talk.events ++ added ∧ Counted key t.talk u.talk added := by
  cases h with
  | quiet => exact ⟨[], (List.append_nil _).symm, .nil rfl⟩
  | present => exact ⟨[], (List.append_nil _).symm, .nil rfl⟩
  | close =>
      refine ⟨t.talk.closingEvents, Conversation.close_events t.talk, ?_⟩
      have hseen : t.close.talk.marks key = t.talk.marks key :=
        congrArg (fun seen => (SeenTable.has seen key).toNat) (Conversation.close_seen t.talk)
      have hcount := Conversation.count_closingEvents t.talk key
      exact Nat.le_of_eq (by rw [hcount, hseen, Nat.zero_add])
  | @begin slot d other hops _ htarget hfresh _ =>
      refine ⟨[.started other], rfl, ?_⟩
      by_cases hkey : other = key
      · subst hkey
        have hunseen : t.talk.marks other = 0 := by
          rw [hone slot d htarget, Bool.true_and] at hfresh
          rw [Conversation.marks, hfresh]
          rfl
        rw [Counted, Conversation.marks_begin_self, hunseen]
        simp
      · rw [Counted, Conversation.marks_begin_of_ne _ _ hkey]
        simp [hkey]

/-- The starts of a turn are counted by its marks. -/
theorem Changes.counted {t u : Turn} (h : Changes t u) {key : String}
    (hone : t.talk.IsOneShot key) :
    ∃ added, u.talk.events = t.talk.events ++ added ∧ Counted key t.talk u.talk added := by
  induction h with
  | refl => exact ⟨[], (List.append_nil _).symm, .nil rfl⟩
  | tail hbefore hlast ih =>
      obtain ⟨first, hfirst, hcounted⟩ := ih
      have hstores := Changes.stores_eq hbefore
      obtain ⟨second, hsecond, hcounted'⟩ := hlast.counted fun slot d htarget =>
        hone slot d ((Conversation.target?_congr hstores key).symm.trans htarget)
      exact ⟨first ++ second, by rw [hsecond, hfirst, List.append_assoc],
        hcounted.append hcounted'⟩

end Turn

/-! ### Runs of the host -/

namespace Conversation

variable {c : Conversation} {key : String}

/-- Whatever the host does, a key keeps its dialogue. -/
theorem target?_perform {slot : Slot} {d : Dialogue} (h : c.target? key = some (slot, d))
    (call : HostCall) : (c.perform call).target? key = some (slot, d) := by
  have hturn : ∀ {hops c'}, (∃ u, Turn.Changes ⟨c, hops⟩ u ∧ u.talk = c') →
      c'.target? key = some (slot, d) := by
    rintro hops c' ⟨u, hchanges, rfl⟩
    exact (target?_congr hchanges.stores_eq key).trans h
  cases call with
  | start other => exact hturn (Turn.start_changes c other)
  | advance selected => exact hturn (Turn.advance_changes c selected)
  | confirm reading => exact hturn (Turn.confirm_changes c reading)
  | close => exact (target?_congr c.close_stores key).trans h
  | addStore s => exact target?_addStore h s
  | _ => exact h

/-- What a key stands for does not change in a session. -/
theorem target?_performAll {slot : Slot} {d : Dialogue} (h : c.target? key = some (slot, d))
    (calls : List HostCall) : (c.performAll calls).target? key = some (slot, d) := by
  induction calls generalizing c with
  | nil => exact h
  | cons call calls ih => exact ih (target?_perform h call)

theorem IsOneShot.of_performAll (calls : List HostCall)
    (h : (c.performAll calls).IsOneShot key) : c.IsOneShot key :=
  fun slot d htarget => h slot d (target?_performAll htarget calls)

theorem performAll_append (c : Conversation) (first second : List HostCall) :
    c.performAll (first ++ second) = (c.performAll first).performAll second :=
  List.foldl_append

/-- The events that the host has taken or could take by the end of a run. -/
def recorded (c : Conversation) (calls : List HostCall) : List Event :=
  c.takenAll calls ++ (c.performAll calls).events

theorem recorded_append (c : Conversation) (first second : List HostCall) :
    c.recorded (first ++ second) =
      c.takenAll first ++ (c.performAll first).recorded second := by
  induction first generalizing c with
  | nil => rfl
  | cons call first ih =>
      have hrest := ih (c.perform call)
      simp only [recorded, List.cons_append, takenAll, performAll, List.foldl_cons,
        List.append_assoc] at hrest ⊢
      rw [hrest]

/-- What the changes within a call tell of the events they add, the call tells of the events it
adds, unless it sets the seen table. -/
theorem perform_added {R : Conversation → List Event → Prop} {call : HostCall}
    (hcall : ∀ seen, call ≠ .restoreSeen seen) (hsame : ∀ d, d.seen = c.seen → R d [])
    (hchanges : ∀ {hops u}, Turn.Changes ⟨c, hops⟩ u →
      ∃ added, u.talk.events = c.events ++ added ∧ R u.talk added) :
    ∃ added, c.taken call ++ (c.perform call).events = c.events ++ added ∧
      R (c.perform call) added := by
  have hturn : ∀ {hops d}, (∃ u, Turn.Changes ⟨c, hops⟩ u ∧ u.talk = d) →
      ∃ added, d.events = c.events ++ added ∧ R d added := by
    rintro hops d ⟨u, hsteps, rfl⟩
    exact hchanges hsteps
  have hquiet : ∀ {d : Conversation}, d.events = c.events → d.seen = c.seen →
      ∃ added, d.events = c.events ++ added ∧ R d added := fun {d} hevents hseen =>
    ⟨[], by rw [hevents, List.append_nil], hsame d hseen⟩
  cases call with
  | start other => exact hturn (Turn.start_changes c other)
  | advance selected => exact hturn (Turn.advance_changes c selected)
  | confirm reading => exact hturn (Turn.confirm_changes c reading)
  | close => exact hturn ⟨_, .single (.close (Turn.fresh c)), rfl⟩
  | restoreSeen seen => exact absurd rfl (hcall seen)
  | takeEvents => exact ⟨[], rfl, hsame _ rfl⟩
  | _ => exact hquiet rfl rfl

/-- What each call of a run tells of the events it adds, the run tells of all of them. -/
theorem performAll_added {R : Conversation → Conversation → List Event → Prop}
    (hnil : ∀ c, R c c [])
    (happend : ∀ {c d e first second}, R c d first → R d e second → R c e (first ++ second))
    {calls : List HostCall}
    (hcalls : ∀ front call back, calls = front ++ call :: back → ∃ added,
      (c.performAll front).taken call ++ ((c.performAll front).perform call).events =
          (c.performAll front).events ++ added ∧
        R (c.performAll front) ((c.performAll front).perform call) added) :
    ∃ added, c.recorded calls = c.events ++ added ∧ R c (c.performAll calls) added := by
  -- The first call is told of by `hcalls` with nothing in front, the others with it in front.
  induction calls generalizing c with
  | nil => exact ⟨[], (List.append_nil _).symm, hnil c⟩
  | cons call calls ih =>
      obtain ⟨first, hfirst, hbefore⟩ := hcalls [] call calls rfl
      obtain ⟨second, hsecond, hafter⟩ := ih (c := c.perform call) fun front other back heq =>
        hcalls (call :: front) other back (congrArg (call :: ·) heq)
      refine ⟨first ++ second, ?_, happend hbefore hafter⟩
      calc c.recorded (call :: calls)
          = c.taken call ++ (c.perform call).recorded calls := List.append_assoc _ _ _
        _ = c.taken call ++ (c.perform call).events ++ second := by
            rw [hsecond, List.append_assoc]
        _ = c.events ++ (first ++ second) := by
            rw [← List.append_assoc]
            exact congrArg (· ++ second) hfirst

/-- The starts of a session are counted by its marks, unless another table is put in. -/
theorem performAll_counted {calls : List HostCall} (hone : (c.performAll calls).IsOneShot key)
    (hcalls : ∀ seen, .restoreSeen seen ∉ calls) :
    ∃ added, c.recorded calls = c.events ++ added ∧
      Counted key c (c.performAll calls) added := by
  apply performAll_added (R := Counted key) (fun _ => .nil rfl) .append
  rintro front call back rfl
  -- stores are only added, so what starts once in the end did so all along
  rw [performAll_append] at hone
  have hshot : (c.performAll front).IsOneShot key := .of_performAll (call :: back) hone
  apply perform_added (R := Counted key (c.performAll front))
  · rintro seen rfl
    exact hcalls seen (by simp)
  · exact fun d hseen => .nil hseen
  · exact fun hchanges => hchanges.counted hshot

/-! ### Starts that are refused -/

/-- A start of the key comes to nothing: it leads to no dialogue, or to one that starts once and
has started. -/
def Refuses (c : Conversation) (key : String) : Prop :=
  c.target? key = none ∨
    ∃ slot d, c.target? key = some (slot, d) ∧ d.flags.oneShot = true ∧ c.seen.has key = true

end Conversation

theorem Turn.start_of_refuses {t : Turn} {key : String} (h : t.talk.Refuses key) (hop : Turn.Hop) :
    ∃ notices : List Notice,
      Turn.start hop key t = ⟨t.update fun c => c.record (notices.map .noticed), .ok false⟩ := by
  obtain hunknown | ⟨slot, d, htarget, hone, hseen⟩ := h
  · have hfound : (t.talk.locate key).bind
        (fun slot => (t.talk.dialogueAt slot).map (slot, ·)) = none := hunknown
    refine ⟨[.unknownDialogue key], ?_⟩
    simp only [start, hfound]
    rfl
  · have hfound : (t.talk.locate key).bind
        (fun slot => (t.talk.dialogueAt slot).map (slot, ·)) = some (slot, d) := htarget
    refine ⟨[], ?_⟩
    simp only [start, hfound, hone, hseen, Bool.and_self, if_true]
    simp [update, Conversation.record]

namespace Conversation

/-- A start that is refused writes down why, and does nothing else. -/
theorem start_of_refuses {c : Conversation} {key : String} (h : c.Refuses key) :
    ∃ notices : List Notice,
      c.start key = ⟨{ c with journal := c.journal ++ notices.map .noticed }, .ok false⟩ := by
  obtain ⟨notices, hstart⟩ := Turn.start_of_refuses (t := Turn.fresh c) h
    (Turn.follow c.config.maxRedirects)
  exact ⟨notices, congrArg Result.ofProgress hstart⟩

/-- In every run, and in every stretch of it in which the host does not set the seen table: the
key of a one-shot dialogue is started at most once, and not at all where the table counts it when
the stretch begins. The dialogue may have been added before, in or behind the stretch. A start
that is refused answers no, and adds nothing but a notice to the journal. -/
theorem one_shot_starts_once (config : Config) (entropy : UInt64) :
    (∀ before stretch after key slot d, (∀ seen, .restoreSeen seen ∉ stretch) →
      ((new config entropy).performAll (before ++ stretch ++ after)).target? key =
        some (slot, d) → d.flags.oneShot = true →
      ∃ added, (new config entropy).recorded (before ++ stretch) =
          (new config entropy).recorded before ++ added ∧
        added.count (.started key) ≤ 1 ∧
        (((new config entropy).performAll before).seen.has key = true →
          .started key ∉ added)) ∧
    (∀ (c : Conversation) (key : String),
      (c.target? key = none ∨ ∃ slot d, c.target? key = some (slot, d) ∧
        d.flags.oneShot = true ∧ c.seen.has key = true) →
      ∃ notices : List Notice,
        c.start key = ⟨{ c with journal := c.journal ++ notices.map .noticed }, .ok false⟩) := by
  constructor
  · intro before stretch after key slot d hkept htarget hone
    rw [performAll_append, performAll_append] at htarget
    have hshot : (((new config entropy).performAll before).performAll stretch).IsOneShot key := by
      intro slot' d' hfound
      have hsame := target?_performAll hfound after
      rw [htarget] at hsame
      cases hsame
      exact hone
    obtain ⟨added, hadded, hcounted⟩ := performAll_counted hshot hkept
    refine ⟨added, ?_, hcounted.count_le_one, hcounted.notMem⟩
    rw [recorded_append, hadded, recorded, List.append_assoc]
  · exact fun c key => start_of_refuses

/-! A dialogue that starts once and leads back to itself, in a run that asks for it in three
ways. -/

def vow : Dialogue :=
  { name := "vow", flags := { oneShot := true }, elements := [{ text := "I do." }]
    exits := [⟨"", .key "vow"⟩] }

def vowStore : Store :=
  { name := "vows"
    dialogues := [vow]
    index := Std.TreeMap.insert {} "vow" 0
    indexed := Store.indexes_nil.insert (d := vow) rfl }

/-- The host starts it, the exit leads back to it, and the host starts it again. -/
def vowCalls : List HostCall :=
  [.addStore vowStore, .start "vow", .advance 0, .takeEvents, .start "vow"]

theorem vow_starts_once :
    (∀ seen, .restoreSeen seen ∉ vowCalls) ∧
      ((new {} 0).performAll vowCalls).target? "vow" = some (⟨0, 0⟩, vow) ∧
      vow.flags.oneShot = true ∧
      ((new {} 0).performAll vowCalls).seen.has "vow" = true ∧
      (new {} 0).recorded vowCalls = [.started "vow", .ended] ∧
      (∃ added, (new {} 0).recorded vowCalls = (new {} 0).recorded [] ++ added ∧
        added.count (.started "vow") ≤ 1) ∧
      ∃ notices : List Notice, ((new {} 0).performAll vowCalls).start "vow" =
        ⟨{ (new {} 0).performAll vowCalls with
          journal := ((new {} 0).performAll vowCalls).journal ++ notices.map .noticed },
          .ok false⟩ := by
  have hkept : ∀ seen, .restoreSeen seen ∉ vowCalls := by simp [vowCalls]
  have htarget : ((new {} 0).performAll vowCalls).target? "vow" = some (⟨0, 0⟩, vow) := rfl
  have hseen : ((new {} 0).performAll vowCalls).seen.has "vow" = true := by decide +kernel
  obtain ⟨hruns, hrefused⟩ := one_shot_starts_once {} 0
  obtain ⟨added, hadded, hcount, -⟩ := hruns [] vowCalls [] "vow" _ vow hkept
    (by simpa using htarget) rfl
  exact ⟨hkept, htarget, rfl, hseen, by decide +kernel, ⟨added, hadded, hcount⟩,
    hrefused _ "vow" (.inr ⟨⟨0, 0⟩, vow, htarget, rfl, hseen⟩)⟩

end Conversation

end Parley
