import Parley.Proofs.Conversation.Ending

/-!
# Episodes

The events of a conversation, those that the host has taken and those it has not, fall into
episodes. An episode is a dialogue that starts, perhaps over and over, and then ends; only the
last one can still be going on, and it is that of the active dialogue.
-/

namespace Parley

/-- A dialogue from its first start to the end of it, told by the events. -/
structure Episode where
  key : String
  /-- How often the dialogue starts over within the episode. -/
  restarts : Nat

namespace Episode

/-- The events of an episode before its end. -/
def starts (e : Episode) : List Event :=
  List.replicate (e.restarts + 1) (.started e.key)

/-- All of an episode that is over. -/
def events (e : Episode) : List Event :=
  e.starts ++ [.ended]

end Episode

/-- The log consists of episodes; `current` is the key of the one that is not over, if any. -/
def InEpisodes (log : List Event) (current : Option String) : Prop :=
  ∃ (past : List Episode) (going : Option Episode),
    log = past.flatMap Episode.events ++ going.toList.flatMap Episode.starts ∧
      going.map Episode.key = current

namespace InEpisodes

variable {log : List Event} {key : String}

theorem nil : InEpisodes [] none :=
  ⟨[], none, rfl, rfl⟩

/-- A start opens an episode where none is open. -/
theorem start (h : InEpisodes log none) : InEpisodes (log ++ [.started key]) (some key) := by
  obtain ⟨past, going, rfl, hkey⟩ := h
  cases going with
  | some e => cases hkey
  | none => exact ⟨past, some ⟨key, 0⟩, by simp [Episode.starts], rfl⟩

/-- A start of the same dialogue goes on with its episode. -/
theorem startOver (h : InEpisodes log (some key)) :
    InEpisodes (log ++ [.started key]) (some key) := by
  obtain ⟨past, going, rfl, hkey⟩ := h
  cases going with
  | none => cases hkey
  | some e =>
      cases hkey
      refine ⟨past, some ⟨e.key, e.restarts + 1⟩, ?_, rfl⟩
      have hstarts : Episode.starts ⟨e.key, e.restarts + 1⟩ = e.starts ++ [.started e.key] :=
        List.replicate_succ'
      simp [hstarts]

/-- An end closes the episode that is open. -/
theorem finish (h : InEpisodes log (some key)) : InEpisodes (log ++ [.ended]) none := by
  obtain ⟨past, going, rfl, hkey⟩ := h
  cases going with
  | none => cases hkey
  | some e => exact ⟨past ++ [e], none, by simp [Episode.events], rfl⟩

end InEpisodes

/-- Behind the events `taken` that the host has had, the conversation keeps to its episodes, and
the active dialogue goes by its own name. -/
structure Chronicled (taken : List Event) (c : Conversation) : Prop where
  episodes : InEpisodes (taken ++ c.events) c.currentKey
  named : ∀ a, c.active = some a → ∃ d, c.dialogueAt a.slot = some d ∧ d.name = a.key

namespace Chronicled

variable {taken : List Event} {c : Conversation}

theorem new (config : Config) (entropy : UInt64) : Chronicled [] (.new config entropy) :=
  ⟨InEpisodes.nil, by rintro a ⟨⟩⟩

/-- Only the events, the stores and the active dialogue count. -/
theorem congr {c' : Conversation} (h : Chronicled taken c) (hevents : c'.events = c.events)
    (hactive : c'.active = c.active) (hstores : c'.stores = c.stores) : Chronicled taken c' := by
  obtain ⟨hepisodes, hnamed⟩ := h
  constructor
  · simpa only [Conversation.currentKey, hevents, hactive] using hepisodes
  · simpa only [Conversation.dialogueAt, hactive, hstores] using hnamed

theorem close (h : Chronicled taken c) : Chronicled taken c.close := by
  refine ⟨?_, by simp⟩
  have hepisodes := h.episodes
  cases hactive : c.active with
  | none =>
      simpa [Conversation.currentKey, Conversation.closingEvents, hactive] using hepisodes
  | some a =>
      simp only [Conversation.currentKey, hactive, Option.map_some] at hepisodes
      simpa [Conversation.currentKey, Conversation.closingEvents, hactive] using
        hepisodes.finish

/-- A dialogue begins a new episode, unless it is active already. -/
theorem begin {slot : Slot} {d : Dialogue} {key : String} (h : Chronicled taken c)
    (htarget : c.target? key = some (slot, d))
    (hactive : ∀ a, c.active = some a → a.slot = slot) : Chronicled taken (c.begin slot key) := by
  have hd := (Conversation.target?_eq_some_iff.mp htarget).2
  have hname := Conversation.name_of_target? htarget
  have hepisodes := h.episodes
  constructor
  · change InEpisodes (taken ++ (c.events ++ [.started key])) (some key)
    rw [← List.append_assoc]
    cases ha : c.active with
    | none =>
        simp only [Conversation.currentKey, ha, Option.map_none] at hepisodes
        exact hepisodes.start
    | some a =>
        simp only [Conversation.currentKey, ha, Option.map_some] at hepisodes
        obtain ⟨d', hd', hkey⟩ := h.named a ha
        rw [hactive a ha, hd] at hd'
        cases hd'
        rw [← hkey, hname] at hepisodes
        exact hepisodes.startOver
  · rintro a ⟨⟩
    exact ⟨d, hd, hname⟩

theorem present {a : Active} {index : Nat} {e : Element} (h : Chronicled taken c)
    (ha : c.active = some a) : Chronicled taken (c.present a index e) := by
  obtain ⟨hepisodes, hnamed⟩ := h
  rw [Conversation.currentKey, ha] at hepisodes
  refine ⟨hepisodes, ?_⟩
  rintro b ⟨⟩
  exact hnamed a ha

/-- Every step keeps the chronicle. -/
theorem change {t u : Turn} (h : Chronicled taken t.talk) (hchange : Turn.Change t u) :
    Chronicled taken u.talk := by
  cases hchange with
  | quiet => exact h.congr rfl rfl rfl
  | close => exact h.close
  | begin _ htarget _ hactive => exact h.begin htarget hactive
  | present ha => exact h.present ha

theorem changes {t u : Turn} (h : Chronicled taken t.talk) (hchanges : Turn.Changes t u) :
    Chronicled taken u.talk := by
  induction hchanges with
  | refl => exact h
  | tail _ hlast ih => exact ih.change hlast

theorem addStore (h : Chronicled taken c) (s : Store) : Chronicled taken (c.addStore s) := by
  refine ⟨h.episodes, ?_⟩
  intro a ha
  obtain ⟨d, hd, hname⟩ := h.named a ha
  exact ⟨d, c.dialogueAt_addStore s hd, hname⟩

/-- Events that are taken have happened all the same. -/
theorem takeEvents (h : Chronicled taken c) :
    Chronicled (taken ++ c.events) c.takeEvents.2 := by
  refine ⟨?_, h.named⟩
  change InEpisodes (taken ++ c.events ++ []) c.currentKey
  rw [List.append_nil]
  exact h.episodes

end Chronicled

namespace Conversation

/-- The events that a call of the host takes out of the conversation. -/
def taken (c : Conversation) : HostCall → List Event
  | .takeEvents => c.takeEvents.1
  | _ => []

/-- The events that a list of calls takes out, in order. -/
def takenAll (c : Conversation) : List HostCall → List Event
  | [] => []
  | call :: calls => c.taken call ++ takenAll (c.perform call) calls

/-- A call of the host keeps the chronicle, of the events taken and those to come. -/
theorem perform_chronicled {before : List Event} {c : Conversation}
    (h : Chronicled before c) (call : HostCall) :
    Chronicled (before ++ c.taken call) (c.perform call) := by
  have hsame : ∀ c', Chronicled before c' → Chronicled (before ++ []) c' := by
    intro c' hc'
    rwa [List.append_nil]
  cases call with
  | start key =>
      obtain ⟨u, hchanges, htalk⟩ := Turn.start_changes c key
      have hnext := h.changes hchanges
      rw [htalk] at hnext
      exact hsame _ hnext
  | advance selected =>
      obtain ⟨u, hchanges, htalk⟩ := Turn.advance_changes c selected
      have hnext := h.changes hchanges
      rw [htalk] at hnext
      exact hsame _ hnext
  | confirm reading =>
      obtain ⟨u, hchanges, htalk⟩ := Turn.confirm_changes c reading
      have hnext := h.changes hchanges
      rw [htalk] at hnext
      exact hsame _ hnext
  | close => exact hsame _ h.close
  | addStore s => exact hsame _ (h.addStore s)
  | takeEvents => exact h.takeEvents
  | _ => exact hsame _ (h.congr rfl rfl rfl)

theorem performAll_chronicled {before : List Event} {c : Conversation}
    (h : Chronicled before c) (calls : List HostCall) :
    Chronicled (before ++ c.takenAll calls) (c.performAll calls) := by
  induction calls generalizing before c with
  | nil =>
      rw [takenAll, List.append_nil]
      exact h
  | cons call calls ih =>
      rw [takenAll, ← List.append_assoc]
      exact ih (perform_chronicled h call)

/-- Whatever the host does, the events it has taken and those still waiting are episodes one
after the other. The last one is still going on exactly when a dialogue is active, and then its
key is the one that dialogue was started with, and its name. -/
theorem events_in_episodes (config : Config) (entropy : UInt64) (calls : List HostCall) :
    ∃ (past : List Episode) (going : Option Episode),
      (new config entropy).takenAll calls ++ ((new config entropy).performAll calls).events =
          past.flatMap Episode.events ++ going.toList.flatMap Episode.starts ∧
        (going.isSome ↔ ((new config entropy).performAll calls).isTalking) ∧
        going.map Episode.key = ((new config entropy).performAll calls).currentKey ∧
        going.map Episode.key =
          ((new config entropy).performAll calls).currentDialogue.map Dialogue.name := by
  have h := performAll_chronicled (Chronicled.new config entropy) calls
  obtain ⟨past, going, hlog, hkey⟩ := h.episodes
  refine ⟨past, going, hlog, ?_, hkey, ?_⟩
  · have hsome := congrArg Option.isSome hkey
    simp only [Option.isSome_map, currentKey] at hsome
    rw [hsome, isTalking]
  · rw [hkey, currentKey, currentDialogue]
    cases ha : ((new config entropy).performAll calls).active with
    | none => rfl
    | some a =>
        obtain ⟨d, hd, hname⟩ := h.named a ha
        simp [hd, hname]

end Conversation

end Parley
