import Mathlib.Algebra.Ring.Nat
import Parley.Proofs.Conversation.Chain
import Parley.Proofs.Conversation.OneShot

/-!
# Counting starts

The seen table counts the starts that were reported, and nothing else: from the table that the host
set last, every event of a start adds one to the count of its key, until the count stands at the
largest 32-bit number. Starts that come to nothing report no event and count for none.
-/

namespace Parley

namespace SeenTable

/-- A count is a number of 32 bits. -/
theorem times_le (t : SeenTable) (key : String) : (t.times key).toNat ≤ 2 ^ 32 - 1 :=
  Nat.le_sub_one_of_lt (t.times key).toNat_lt

/-- One more start counts one more, up to the largest number. -/
theorem toNat_times_mark_self (t : SeenTable) (key : String) :
    ((t.mark key).times key).toNat = min (2 ^ 32 - 1) ((t.times key).toNat + 1) := by
  rw [times_mark, if_pos rfl]
  have hle := t.times_le key
  split
  · next hlast =>
      have htop : (t.times key).toNat = 2 ^ 32 - 1 := congrArg UInt32.toNat hlast
      omega
  · next hmore =>
      have hne : (t.times key).toNat ≠ 2 ^ 32 - 1 := fun htop =>
        hmore (UInt32.toNat_inj.mp htop)
      have hsum : (t.times key + 1).toNat = (t.times key).toNat + 1 := by
        rw [UInt32.toNat_add]
        exact Nat.mod_eq_of_lt (by change (t.times key).toNat + 1 < 2 ^ 32; omega)
      omega

/-- A mark adds one to the count of its key, up to the largest number. -/
theorem toNat_times_mark (t : SeenTable) (key other : String) :
    ((t.mark key).times other).toNat =
      min (2 ^ 32 - 1) ((t.times other).toNat + [Event.started key].count (.started other)) := by
  by_cases hkey : key = other
  · subst hkey
    rw [toNat_times_mark_self, List.count_singleton_self]
  · have hcount : [Event.started key].count (.started other) = 0 := by simp [hkey]
    have hle := t.times_le other
    rw [times_mark, if_neg hkey, hcount]
    omega

end SeenTable

/-- From one conversation to another, the count of the key grew by its starts among the events
`added`. -/
def Tallied (key : String) (c d : Conversation) (added : List Event) : Prop :=
  (d.seen.times key).toNat =
    min (2 ^ 32 - 1) ((c.seen.times key).toNat + added.count (.started key))

namespace Tallied

variable {key : String} {c d e : Conversation} {first second : List Event}

theorem of_count_eq_zero (h : d.seen = c.seen) (hcount : first.count (.started key) = 0) :
    Tallied key c d first := by
  have hle := c.seen.times_le key
  rw [Tallied, h, hcount]
  omega

theorem nil (h : d.seen = c.seen) : Tallied key c d [] :=
  of_count_eq_zero h rfl

/-- Tallies of two stretches add up, and stop at the largest number together. -/
theorem append (h : Tallied key c d first) (h' : Tallied key d e second) :
    Tallied key c e (first ++ second) := by
  unfold Tallied at h h' ⊢
  rw [List.count_append]
  omega

end Tallied

namespace Turn

/-- Only what begins a dialogue marks it, and that reports the start. -/
theorem Change.tallied {t u : Turn} (h : Change t u) (key : String) :
    ∃ added, u.talk.events = t.talk.events ++ added ∧ Tallied key t.talk u.talk added := by
  cases h with
  | quiet => exact ⟨[], (List.append_nil _).symm, .nil rfl⟩
  | present => exact ⟨[], (List.append_nil _).symm, .nil rfl⟩
  | close =>
      exact ⟨t.talk.closingEvents, Conversation.close_events t.talk,
        .of_count_eq_zero (Conversation.close_seen t.talk)
          (Conversation.count_closingEvents t.talk key)⟩
  | @begin slot d other =>
      exact ⟨[.started other], rfl, t.talk.seen.toNat_times_mark other key⟩

/-- The starts of a turn are tallied. -/
theorem Changes.tallied {t u : Turn} (h : Changes t u) (key : String) :
    ∃ added, u.talk.events = t.talk.events ++ added ∧ Tallied key t.talk u.talk added := by
  apply Changes.exists_added (R := fun t u added => Tallied key t.talk u.talk added)
  · exact fun t => .nil rfl
  · exact fun hfirst hsecond => hfirst.append hsecond
  · exact fun hchange => hchange.tallied key
  · exact h

end Turn

/-! ### Starts that come to nothing -/

namespace Turn

/-- A hop that is refused, or for which no hop is left, leaves all counts and reports no start. -/
theorem follow_uncounted {t : Turn} {key : String} (h : t.hops = 0 ∨ t.talk.Refuses key)
    (depth : Nat) :
    (follow depth key t).result = .ok false ∧
      (follow depth key t).turn.talk.seen = t.talk.seen ∧
      ∃ added, (follow depth key t).turn.talk.events = t.talk.events ++ added ∧
        ∀ other, .started other ∉ added := by
  have hcut : (outOfHops key t).turn.talk.seen = t.talk.seen ∧
      ∃ added, (outOfHops key t).turn.talk.events = t.talk.events ++ added ∧
        ∀ other, .started other ∉ added := by
    refine ⟨Conversation.close_seen _, _, Conversation.close_events _, fun other => ?_⟩
    exact List.count_eq_zero.mp (Conversation.count_closingEvents _ other)
  cases depth with
  | zero => exact ⟨rfl, hcut⟩
  | succ depth =>
      cases hhops : t.hops with
      | zero =>
          rw [follow_of_no_hops hhops]
          exact ⟨rfl, hcut⟩
      | succ hops =>
          have hrefuses : t.talk.Refuses key := by
            obtain hnone | hrefuses := h
            · omega
            · exact hrefuses
          obtain ⟨notices, hstart⟩ :=
            start_of_refuses (t := { t with hops }) hrefuses (follow depth)
          simp only [follow, hhops]
          rw [hstart]
          exact ⟨rfl, rfl, [], (List.append_nil _).symm, fun _ => List.not_mem_nil⟩

end Turn

/-! ### Runs of the host -/

namespace Conversation

variable {c : Conversation} {key : String}

/-- The starts of a session are tallied, unless another table is put in. -/
theorem performAll_tallied {calls : List HostCall} (key : String)
    (hcalls : ∀ seen, .restoreSeen seen ∉ calls) :
    ∃ added, c.recorded calls = c.events ++ added ∧
      Tallied key c (c.performAll calls) added := by
  apply performAll_added (R := Tallied key) (fun _ => .nil rfl) .append
  rintro front call back rfl
  apply perform_added (R := Tallied key (c.performAll front))
  · rintro seen rfl
    exact hcalls seen (by simp)
  · exact fun d hseen => .nil hseen
  · exact fun hchanges => hchanges.tallied key

/-- In every run, the count of a key is the one in the table that the host set last, none at the
beginning, and one for each start of the key that was reported since, whether or not the host has
taken the event; it stops at the largest 32-bit number. A start that is refused, or for which no
hop is left, answers no, reports no start and leaves the counts as they are, wherever it is asked
for. -/
theorem times_counts_starts (config : Config) (entropy : UInt64) :
    (∀ calls key, (∀ seen, .restoreSeen seen ∉ calls) →
      (((new config entropy).performAll calls).seen.times key).toNat =
        min (2 ^ 32 - 1) (((new config entropy).recorded calls).count (.started key))) ∧
    (∀ before seen since key, (∀ other, .restoreSeen other ∉ since) →
      ∃ added, (new config entropy).recorded (before ++ .restoreSeen seen :: since) =
          (new config entropy).recorded before ++ added ∧
        (((new config entropy).performAll (before ++ .restoreSeen seen :: since)).seen.times
            key).toNat =
          min (2 ^ 32 - 1) ((seen.times key).toNat + added.count (.started key))) ∧
    (∀ (c : Conversation) (key : String), c.Refuses key →
      (c.start key).result = .ok false ∧ (c.start key).talk.seen = c.seen ∧
        (c.start key).talk.events = c.events) ∧
    (∀ (t : Turn) (depth : Nat) (key : String), t.hops = 0 ∨ t.talk.Refuses key →
      (Turn.follow depth key t).result = .ok false ∧
        (Turn.follow depth key t).turn.talk.seen = t.talk.seen ∧
        ∃ added, (Turn.follow depth key t).turn.talk.events = t.talk.events ++ added ∧
          ∀ other, .started other ∉ added) := by
  refine ⟨?_, ?_, ?_, ?_⟩
  · intro calls key hkept
    obtain ⟨added, hadded, htally⟩ := performAll_tallied (c := new config entropy) key hkept
    have hnew : ((new config entropy).seen.times key).toNat = 0 := by
      simp [new, SeenTable.times]
    rw [Tallied, hnew, Nat.zero_add] at htally
    rw [htally, hadded]
    rfl
  · intro before seen since key hkept
    obtain ⟨added, hadded, htally⟩ := performAll_tallied
      (c := ((new config entropy).performAll before).restoreSeen seen) key hkept
    refine ⟨added, ?_, ?_⟩
    · rw [recorded_append]
      change _ ++ (((new config entropy).performAll before).restoreSeen seen).recorded since = _
      rw [hadded, ← List.append_assoc]
      rfl
    · rw [performAll_append]
      exact htally
  · intro c key hrefuses
    obtain ⟨notices, hstart⟩ := start_of_refuses hrefuses
    rw [hstart]
    exact ⟨rfl, rfl, rfl⟩
  · intro t depth key h
    exact Turn.follow_uncounted h depth

/-! A dialogue that leads back to itself, counted from a table that is nearly full. -/

def refrain : Dialogue :=
  { name := "refrain", elements := [{ text := "Once more!" }], exits := [⟨"", .key "refrain"⟩] }

def refrainStore : Store :=
  { name := "songs"
    dialogues := [refrain]
    index := Std.TreeMap.insert {} "refrain" 0
    indexed := Store.indexes_nil.insert (d := refrain) rfl }

def nearlyFull : SeenTable :=
  .ofList [("refrain", 4294967294)]

def refrainOpening : List HostCall :=
  [.addStore refrainStore, .start "refrain"]

/-- The host starts it anew, and the exit leads back to it. -/
def refrainCalls : List HostCall :=
  [.start "refrain", .takeEvents, .advance 0]

theorem refrain_times :
    (∀ seen, .restoreSeen seen ∉ refrainOpening) ∧
      (((new {} 0).performAll refrainOpening).seen.times "refrain").toNat = 1 ∧
      (∀ seen, .restoreSeen seen ∉ refrainCalls) ∧
      (nearlyFull.times "refrain").toNat = 2 ^ 32 - 2 ∧
      (∃ added, (new {} 0).recorded (refrainOpening ++ .restoreSeen nearlyFull :: refrainCalls) =
          (new {} 0).recorded refrainOpening ++ added ∧
        added = [.started "refrain", .started "refrain"] ∧
        (((new {} 0).performAll
          (refrainOpening ++ .restoreSeen nearlyFull :: refrainCalls)).seen.times "refrain").toNat =
            min (2 ^ 32 - 1) (2 ^ 32 - 2 + 2)) ∧
      (new {} 0).Refuses "refrain" ∧
      ((new {} 0).start "refrain").talk.seen = (new {} 0).seen ∧
      (Turn.follow 2 "refrain" ⟨(new {} 0).addStore refrainStore, 0⟩).result = .ok false := by
  have hkept : ∀ seen, .restoreSeen seen ∉ refrainOpening := by simp [refrainOpening]
  have hkept' : ∀ seen, .restoreSeen seen ∉ refrainCalls := by simp [refrainCalls]
  have hfull : (nearlyFull.times "refrain").toNat = 2 ^ 32 - 2 := by decide +kernel
  have hrefuses : (new {} 0).Refuses "refrain" := .inl rfl
  obtain ⟨hfirst, hruns, hrefused, hcut⟩ := times_counts_starts {} 0
  have hbefore : (new {} 0).recorded refrainOpening = [.started "refrain"] := by decide +kernel
  have hrecorded : (new {} 0).recorded
      (refrainOpening ++ .restoreSeen nearlyFull :: refrainCalls) =
      [.started "refrain", .started "refrain", .started "refrain"] := by decide +kernel
  have honce : (((new {} 0).performAll refrainOpening).seen.times "refrain").toNat = 1 := by
    rw [hfirst refrainOpening "refrain" hkept, hbefore]
    rfl
  refine ⟨hkept, honce, hkept', hfull, ?_, hrefuses, (hrefused _ _ hrefuses).2.1,
    (hcut _ 2 "refrain" (.inl rfl)).1⟩
  obtain ⟨added, hadded, htimes⟩ := hruns refrainOpening nearlyFull refrainCalls "refrain" hkept'
  have htwice : added = [.started "refrain", .started "refrain"] := by
    rw [hrecorded, hbefore] at hadded
    exact (List.cons.inj hadded).2.symm
  refine ⟨added, hadded, htwice, ?_⟩
  rw [htimes, hfull, htwice]
  rfl

end Conversation

end Parley
