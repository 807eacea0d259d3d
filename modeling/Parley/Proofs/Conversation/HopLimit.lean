import Parley.Proofs.Conversation.Ending

/-!
# The limit on hops

Every call of the host comes to an end, and the hops that a call has bound how many dialogues it
starts, whatever asks for the starts.
-/

namespace Parley

def Event.isStart : Event → Bool
  | .started _ => true
  | .ended => false

/-- How many of the events are starts. -/
def starts (events : List Event) : Nat :=
  events.countP Event.isStart

namespace Turn

theorem starts_closingEvents (c : Conversation) : starts c.closingEvents = 0 := by
  unfold Conversation.closingEvents
  cases c.active <;> rfl

/-- Every start is paid for with a hop. -/
theorem Change.starts_le {t u : Turn} (h : Change t u) :
    ∃ added, u.talk.events = t.talk.events ++ added ∧ starts added + u.hops ≤ t.hops := by
  cases h with
  | quiet _ _ _ hhops => exact ⟨[], by simp, by simpa [starts] using hhops⟩
  | close =>
      refine ⟨t.talk.closingEvents, Conversation.close_events t.talk, ?_⟩
      rw [starts_closingEvents, Nat.zero_add]
      exact Nat.le_refl _
  | begin hhops =>
      refine ⟨[.started _], rfl, ?_⟩
      rw [hhops, Nat.add_comm]
      exact Nat.le_refl _
  | present => exact ⟨[], by simp [update, Conversation.present, Conversation.record],
      by simp [starts, update]⟩

/-- Each start is paid for with a hop. -/
theorem Changes.starts_le {t u : Turn} (h : Changes t u) :
    ∃ added, u.talk.events = t.talk.events ++ added ∧ starts added + u.hops ≤ t.hops := by
  apply Changes.exists_added (R := fun t u added => starts added + u.hops ≤ t.hops)
  · intro t
    simp [starts]
  · intro t u v first second hfirst hsecond
    simp only [starts, List.countP_append] at hfirst hsecond ⊢
    omega
  · exact Change.starts_le
  · exact h

/-- No call reports more starts than it has hops. -/
theorem starts_le_of_changes {c d : Conversation} {hops : Nat}
    (h : ∃ u, Changes ⟨c, hops⟩ u ∧ u.talk = d) :
    ∃ added, d.events = c.events ++ added ∧ starts added ≤ hops := by
  obtain ⟨u, hchanges, rfl⟩ := h
  obtain ⟨added, hadded, hle⟩ := hchanges.starts_le
  exact ⟨added, hadded, Nat.le_trans (Nat.le_add_right _ _) hle⟩

end Turn

namespace Conversation

open Turn (Runs opening outcome)

/-- Every call of the host ends in one way only, and that is what the call leaves and answers.
A start by the host begins at most one dialogue more than the limit on hops, going on at most as
many as the limit. -/
theorem perform_ends_within_hops (c : Conversation) :
    (∀ call, ∃ p, Runs (opening c call) p ∧ (∀ q, Runs (opening c call) q → q = p) ∧
      p.turn.talk = c.perform call ∧ p.result = outcome c call) ∧
    (∀ key, ∃ added, (c.start key).talk.events = c.events ++ added ∧
      starts added ≤ c.config.maxRedirects + 1) ∧
    (∀ selected, ∃ added, (c.advance selected).talk.events = c.events ++ added ∧
      starts added ≤ c.config.maxRedirects) ∧
    (∀ reading, ∃ added, (c.confirm reading).talk.events = c.events ++ added ∧
      starts added ≤ c.config.maxRedirects) := by
  refine ⟨?_, ?_, ?_, ?_⟩
  · intro call
    obtain ⟨p, hrun, htalk, hresult⟩ := Turn.perform_runs c call
    exact ⟨p, hrun, fun q other => other.deterministic hrun, htalk, hresult⟩
  · intro key
    exact Turn.starts_le_of_changes (Turn.start_changes c key)
  · intro selected
    exact Turn.starts_le_of_changes (Turn.advance_changes c selected)
  · intro reading
    exact Turn.starts_le_of_changes (Turn.confirm_changes c reading)

end Conversation

end Parley
