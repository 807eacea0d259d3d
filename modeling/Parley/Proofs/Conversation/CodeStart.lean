import Parley.Proofs.Conversation.Reroute

/-!
# Starts that code asks for

An exit may name the dialogue it leads to, or run code that asks for that dialogue. Both hop to
it in the same way, and then both decide whether the conversation ends. The exit that names a
dialogue goes by the answer of the hop; the exit that runs code looks whether the active dialogue
has another place than the one that was left. The two agree on every key, except where the way
comes back to the dialogue that was left: an exit starts it over, code ends it.
-/

namespace Parley

open Conversation (selectExit holds)

namespace Turn

/-- What is active after a hop: a dialogue after a yes, after a no none or the one before, and
none where a mistake of the script stopped the hop. -/
def Settled (before : Option Active) (next : Progress Bool) : Prop :=
  match next.result with
  | .ok true => next.turn.talk.active ≠ none
  | .ok false => next.turn.talk.active = none ∨ next.turn.talk.active = before
  | .error _ => next.turn.talk.active = none

theorem Settled.idle_of_fault {before : Option Active} {next : Progress Bool}
    {fault : ScriptFault} (h : Settled before next) (hfault : next.result = .error fault) :
    next.turn.talk.active = none := by
  simpa only [Settled, hfault] using h

variable {hop : Hop}

/-! ### Mistakes of the script -/

/-- Code that ends in a mistake leaves nothing active. -/
theorem runCode_fault {slot : Slot} {dialogue : String} {statements : List Statement} {t : Turn}
    {fault : ScriptFault} (h : (runCode hop slot dialogue statements t).result = .error fault) :
    (runCode hop slot dialogue statements t).turn.talk.active = none := by
  simp only [runCode] at h ⊢
  cases hresult : (executeAll hop dialogue statements t).result with
  | error cause => simp [close, update]
  | ok done =>
      simp only [hresult] at h
      split at h <;> cases h

section Faults

/-! A mistake of the script leaves nothing active behind a hop, so it does behind whatever goes
by a hop. -/

variable (hhop : ∀ key t fault, (hop key t).result = .error fault →
  (hop key t).turn.talk.active = none)
include hhop

theorem hopOrClose_fault {key : String} {t : Turn} {fault : ScriptFault}
    (h : (hopOrClose hop key t).result = .error fault) :
    (hopOrClose hop key t).turn.talk.active = none := by
  unfold hopOrClose at h ⊢
  cases hresult : (hop key t).result with
  | error cause =>
      simp only [hresult]
      exact hhop key t cause hresult
  | ok answer => cases answer <;> simp [hresult, done] at h

theorem proceed_fault {a : Active} {d : Dialogue} {t : Turn} {fault : ScriptFault}
    (h : (proceed hop a d t).result = .error fault) :
    (proceed hop a d t).turn.talk.active = none := by
  unfold proceed at h ⊢
  cases hmove : moveFrom d a.index with
  | finish => simp [hmove, done] at h
  | pick => simp [hmove, done] at h
  | advance index => simp [hmove, done] at h
  | leave =>
      simp only [hmove, leave] at h ⊢
      cases htarget : (selectExit t.talk.vars.lookup d.exits).1 with
      | none => simp [htarget, done] at h
      | some target =>
          cases target with
          | key key =>
              simp only [htarget] at h ⊢
              exact hopOrClose_fault hhop h
          | code statements =>
              simp only [htarget] at h ⊢
              exact runCode_fault h

theorem choose_fault (e : Element) (selected : Nat) (t : Turn) {fault : ScriptFault} :
    (choose hop e selected t).result = .error fault →
      (choose hop e selected t).turn.talk.active = none := by
  unfold choose
  cases e.choices[selected]? with
  | some choice => exact hopOrClose_fault hhop
  | none => exact fun _ => Conversation.close_active _

/-- So does a step that comes to a mistake anywhere. -/
theorem step_fault (selected : Nat) (t : Turn) {fault : ScriptFault} :
    (step hop selected t).result = .error fault →
      (step hop selected t).turn.talk.active = none := by
  unfold step
  split
  · exact fun _ => Conversation.close_active _
  · split
    · exact fun _ => Conversation.close_active _
    · split
      · split
        · exact choose_fault hhop _ selected t
        · exact proceed_fault hhop
      · exact proceed_fault hhop

/-- A start that fails to start anything leaves what was active, or nothing. -/
theorem start_settled (key : String) (t : Turn) :
    Settled t.talk.active (start hop key t) := by
  unfold start
  split
  · exact .inr rfl
  · next slot d _ =>
      split
      · exact .inr rfl
      · rw [enter_eq]
        unfold entered
        split
        · cases hactive : (proceed hop ⟨slot, key, none⟩ d (arrive slot key t)).turn.talk.active <;>
            simp [Settled, Conversation.isTalking, hactive]
        · next fault hfault => exact proceed_fault hhop hfault

end Faults

theorem outOfHops_settled (before : Option Active) (key : String) (t : Turn) :
    Settled before (outOfHops key t) :=
  .inl (Conversation.close_active _)

/-- The same of a hop at any depth, by induction on it. -/
theorem follow_settled (depth : Nat) (key : String) (t : Turn) :
    Settled t.talk.active (follow depth key t) := by
  induction depth generalizing key t with
  | zero => exact outOfHops_settled _ key t
  | succ depth ih =>
      have hfault : ∀ key t fault, (follow depth key t).result = .error fault →
          (follow depth key t).turn.talk.active = none :=
        fun key t _ h => (ih key t).idle_of_fault h
      simp only [follow]
      cases t.hops with
      | zero => exact outOfHops_settled _ key t
      | succ hops => exact start_settled hfault key ⟨t.talk, hops⟩

theorem follow_fault (depth : Nat) (key : String) (t : Turn) (fault : ScriptFault)
    (h : (follow depth key t).result = .error fault) :
    (follow depth key t).turn.talk.active = none :=
  (follow_settled depth key t).idle_of_fault h

/-! ### Leaving by code and leaving by a redirect -/

/-- Code that only asks for a dialogue hops to it. -/
theorem executeAll_of_start (hop : Hop) {t : Turn} {name key : String} {sources : List String}
    {args : List Argument} (hcall : t.talk.commands.call name sources t.talk.vars =
      .handled args ⟨t.talk.vars, [.start key], none⟩) (dialogue : String) :
    executeAll hop dialogue [.call name sources] t =
      let next := hop key (t.update fun c => c.record [.ran name args])
      ⟨next.turn, next.result.map fun _ => ()⟩ := by
  have hsame : (t.update fun c => { c with vars := t.talk.vars }.record [.ran name args]) =
      t.update fun c => c.record [.ran name args] := rfl
  simp only [executeAll, execute, Statement.call, call, hcall, perform, hsame]
  rcases hop key (t.update fun c => c.record [.ran name args]) with ⟨u, fault | answer⟩
  · rfl
  · rfl

/-- What code that hops away comes to: the conversation ends where the active dialogue is at the
place that was left. -/
def leftBehind (slot : Slot) (next : Progress Bool) : Progress Unit :=
  match next.result with
  | .error fault => ⟨next.turn.close, .error fault⟩
  | .ok _ => (closeIf (next.turn.talk.active.map Active.slot = some slot) next.turn).done

/-- A dialogue that is left by a command which only starts a key is left by a hop to that key, and
what is active then is looked at. -/
theorem leave_of_start {t : Turn} {slot : Slot} {d : Dialogue} {name key : String}
    {sources : List String} {args : List Argument} {notices : List Notice}
    (hexit : selectExit t.talk.vars.lookup d.exits =
      (some (.code [.call name sources]), notices))
    (hcall : t.talk.commands.call name sources t.talk.vars =
      .handled args ⟨t.talk.vars, [.start key], none⟩) :
    leave hop slot d t = leftBehind slot
      (hop key (t.update fun c => c.record (notices.map .noticed ++ [.ran name args]))) := by
  have hcode := executeAll_of_start hop
    (t := t.update fun c => c.record (notices.map .noticed)) hcall d.name
  have hrecord : ((t.update fun c => c.record (notices.map .noticed)).update
      fun c => c.record [.ran name args]) =
      t.update fun c => c.record (notices.map .noticed ++ [.ran name args]) := by
    simp [update, Conversation.record]
  rw [hrecord] at hcode
  simp only [leave, hexit, runCode, hcode]
  generalize hop key (t.update fun c => c.record (notices.map .noticed ++ [.ran name args])) = next
  obtain ⟨u, fault | answer⟩ := next
  · rfl
  · simp only [leftBehind, Except.map, closeIf, decide_eq_true_eq]
    split
    · rfl
    · rfl

/-- A dialogue that is left by a redirect makes the same hop, and only whether it came to anything
is looked at. -/
theorem leave_of_redirect {t : Turn} {slot : Slot} {d : Dialogue} {key : String}
    {notices : List Notice}
    (hexit : selectExit t.talk.vars.lookup d.exits = (some (.key key), notices)) :
    leave hop slot d t =
      landed true (hop key (t.update fun c => c.record (notices.map .noticed))) := by
  simp only [leave, hexit, hopOrClose_eq]

end Turn

namespace Conversation

/-- Two conversations are at the same point: what is active and shown, what was reported and
what was counted. -/
structure SamePoint (c c' : Conversation) : Prop where
  active : c'.active = c.active
  element : c'.currentElement = c.currentElement
  events : c'.events = c.events
  seen : c'.seen = c.seen

theorem SamePoint.refl (c : Conversation) : SamePoint c c :=
  ⟨rfl, rfl, rfl, rfl⟩

theorem SamePoint.symm {c c' : Conversation} (h : SamePoint c c') : SamePoint c' c :=
  ⟨h.active.symm, h.element.symm, h.events.symm, h.seen.symm⟩

theorem SamePoint.trans {c c' c'' : Conversation} (h : SamePoint c c') (h' : SamePoint c' c'') :
    SamePoint c c'' :=
  ⟨h'.active.trans h.active, h'.element.trans h.element, h'.events.trans h.events,
    h'.seen.trans h.seen⟩

/-- Closing where nothing is active only clears the display. -/
theorem samePoint_close {c : Conversation} (h : c.active = none) : SamePoint c c.close := by
  constructor
  · simp [h]
  · simp [currentElement, h]
  · simp [closingEvents, h]
  · simp

end Conversation

namespace Turn

/-- Code that hops away comes to the same point as a redirect, unless the redirect is back at the
place that was left: there the code closes what the redirect has started over. -/
theorem leftBehind_landed {a : Active} {next : Progress Bool} (h : Settled (some a) next) :
    (leftBehind a.slot next).result = (landed true next).result ∧
      ((landed true next).turn.talk.active.map Active.slot ≠ some a.slot →
        Conversation.SamePoint (landed true next).turn.talk (leftBehind a.slot next).turn.talk) ∧
      ((landed true next).turn.talk.active.map Active.slot = some a.slot →
        (leftBehind a.slot next).turn = (landed true next).turn.close) := by
  obtain ⟨u, result⟩ := next
  match result with
  | .error fault =>
      have hidle : u.talk.active = none := h
      refine ⟨rfl, fun _ => Conversation.samePoint_close hidle, fun hback => ?_⟩
      change u.talk.active.map Active.slot = some a.slot at hback
      simp [hidle] at hback
  | .ok true =>
      have hstays : landed true ⟨u, .ok true⟩ = u.done := rfl
      rw [hstays]
      refine ⟨rfl, ?_, ?_⟩
      · intro helsewhere
        change u.talk.active.map Active.slot ≠ some a.slot at helsewhere
        have hopen : leftBehind a.slot ⟨u, .ok true⟩ = u.done := by
          simp only [leftBehind]
          rw [decide_eq_false helsewhere]
          rfl
        rw [hopen]
        exact .refl _
      · intro hback
        change u.talk.active.map Active.slot = some a.slot at hback
        simp only [leftBehind]
        rw [decide_eq_true hback]
        rfl
  | .ok false =>
      have hclosed : (landed true ⟨u, .ok false⟩).turn.talk.active = none :=
        Conversation.close_active _
      refine ⟨rfl, fun _ => ?_, fun hback => by simp [hclosed] at hback⟩
      -- A refused start leaves what was active before, which either side then closes.
      obtain hidle | hbefore : u.talk.active = none ∨ u.talk.active = some a := h
      · have hopen : leftBehind a.slot ⟨u, .ok false⟩ = u.done := by
          simp [leftBehind, hidle, closeIf]
        rw [hopen]
        exact (Conversation.samePoint_close hidle).symm
      · have hclose : leftBehind a.slot ⟨u, .ok false⟩ = u.close.done := by
          simp [leftBehind, hbefore, closeIf]
        rw [hclose]
        exact .refl _

/-- What is left behind may be played from other stores. -/
theorem recast_leftBehind {r : Recast} (h : Function.Injective r.place) (slot : Slot)
    (next : Progress Bool) :
    (leftBehind slot next).recast r = leftBehind (r.place slot) (next.recast r) := by
  obtain ⟨u, fault | answer⟩ := next
  · simp [leftBehind, Progress.recast, recast_close]
  · simp [leftBehind, Progress.recast, done, recast_closeIf, recast_slot_iff h]

end Turn

namespace Conversation

/-- The active dialogue has shown all it has to show, and asks for no choice. -/
structure Exhausted (c : Conversation) (a : Active) (d : Dialogue) : Prop where
  active : c.active = some a
  dialogue : c.dialogueAt a.slot = some d
  element : ∃ e, a.element? d = some e ∧ e.hasChoices = false
  last : ∀ index, Turn.moveFrom d a.index ≠ .advance index

/-- A command that succeeds, keeps the variables and asks for one dialogue. -/
def OnlyStarts (c : Conversation) (name : String) (sources : List String) (key : String) : Prop :=
  ∃ args, c.commands.call name sources c.vars = .handled args ⟨c.vars, [.start key], none⟩

/-- The conversation with other exits of the dialogue at one place. -/
def withExits (c : Conversation) (slot : Slot) (exits : List Exit) : Conversation :=
  c.reroute fun other d => if other = slot then exits else d.exits

/-- A dialogue whose elements are exhausted goes on to its exits. -/
theorem advance_of_exhausted {c : Conversation} {a : Active} {d : Dialogue}
    (h : c.Exhausted a d) (selected : Nat) :
    c.advance selected =
      .ofProgress (Turn.proceed (Turn.follow c.config.maxRedirects) a d (Turn.fresh c)) := by
  obtain ⟨e, helement, hchoices⟩ := h.element
  apply advance_eq_proceed h.active h.dialogue
  intro e' he'
  rw [helement] at he'
  cases he'
  exact hchoices

/-- Other exits of the dialogue at a place that has elements serve for starting. -/
theorem Exhausted.serves {c : Conversation} {a : Active} {d : Dialogue} (h : c.Exhausted a d)
    (exits : List Exit) (front : List Act) :
    (Recast.reroute (fun slot d => if slot = a.slot then exits else d.exits) front).Serves c := by
  apply Recast.reroute_serves
  intro slot d' hd'
  by_cases hslot : slot = a.slot
  · obtain ⟨e, helement, _⟩ := h.element
    obtain ⟨i, _, he⟩ := Option.bind_eq_some_iff.mp helement
    rw [hslot, h.dialogue] at hd'
    cases hd'
    have hredirect : d.isRedirect = false := by
      cases helements : d.elements with
      | nil => simp [helements] at he
      | cons first rest => simp [Dialogue.isRedirect, helements]
    refine ⟨rfl, rfl, rfl, fun hleaves => ?_⟩
    rw [hredirect] at hleaves
    cases hleaves
  · simpa only [if_neg hslot] using Dialogue.StandIn.refl d'.isRedirect d'

/-- Other exits do not bring its elements back. -/
theorem Exhausted.withExits {c : Conversation} {a : Active} {d : Dialogue} (h : c.Exhausted a d)
    (exits : List Exit) : (c.withExits a.slot exits).Exhausted a { d with exits } := by
  constructor
  · exact active_reroute.trans h.active
  · unfold Conversation.withExits Conversation.reroute
    rw [dialogueAt_reroute, h.dialogue]
    simp
  · exact h.element
  · exact h.last

/-- Other exits leave the conversation at the point where it is. -/
theorem samePoint_reroute (c : Conversation) (f : Slot → Dialogue → List Exit)
    (front : List Act) : SamePoint c (c.recast (.reroute f front)) :=
  ⟨active_reroute, currentElement_reroute, rfl, rfl⟩

theorem SamePoint.reroute {c c' : Conversation} (h : SamePoint c c')
    (f g : Slot → Dialogue → List Exit) (front front' : List Act) :
    SamePoint (c.recast (.reroute f front)) (c'.recast (.reroute g front')) :=
  ((samePoint_reroute c f front).symm.trans h).trans (samePoint_reroute c' g front')

theorem samePoint_close_withExits (c : Conversation) (slot : Slot) (exits : List Exit) :
    SamePoint (c.withExits slot exits).close c.close := by
  unfold withExits reroute
  rw [← recast_close]
  exact (samePoint_reroute c.close _ []).symm

/-- The hop that code or a redirect makes, with the journal so far taken. -/
def hopFrom (c : Conversation) (key : String) : Progress Bool :=
  Turn.follow c.config.maxRedirects key (Turn.fresh c.takeJournal.2)

/-- The hop is the same from either of the two dialogues. -/
theorem recast_hopFrom {c : Conversation} {r : Recast} (h : r.Serves c) (key : String) :
    (c.hopFrom key).recast r =
      Turn.follow c.config.maxRedirects key (Turn.recast r (Turn.fresh c.takeJournal.2)) :=
  Turn.recast_follow (t := Turn.fresh c.takeJournal.2) (h.congr rfl)
    (Nat.le_refl c.config.maxRedirects) key

theorem leave_code {c : Conversation} {a : Active} {d : Dialogue} {name key : String}
    {sources : List String} {notices : List Notice}
    (hexit : selectExit c.vars.lookup d.exits = (some (.code [.call name sources]), notices))
    (hstarts : c.OnlyStarts name sources key) : ∃ front,
    Turn.leave (Turn.follow c.config.maxRedirects) a.slot d (Turn.fresh c) =
      (Turn.leftBehind a.slot (c.hopFrom key)).recast (.reroute (fun _ d => d.exits) front) := by
  obtain ⟨args, hcall⟩ := hstarts
  refine ⟨c.journal ++ (notices.map .noticed ++ [.ran name args]), ?_⟩
  rw [Turn.recast_leftBehind Function.injective_id, recast_hopFrom (Recast.reroute_serves
    (fun slot d _ => Dialogue.StandIn.refl d.isRedirect d) _)]
  have hturn : Turn.recast (.reroute (fun _ d => d.exits)
        (c.journal ++ (notices.map .noticed ++ [.ran name args])))
        (Turn.fresh c.takeJournal.2) =
      (Turn.fresh c).update (fun c => c.record (notices.map .noticed ++ [.ran name args])) := by
    simp [Turn.recast, recast_reroute_exits, Turn.update, record, Turn.fresh, takeJournal]
  rw [hturn]
  exact Turn.leave_of_start (t := Turn.fresh c) hexit hcall

theorem Exhausted.leave_redirect {c : Conversation} {a : Active} {d : Dialogue} {key : String}
    {exits : List Exit} {notices : List Notice} (h : c.Exhausted a d)
    (hexit : selectExit c.vars.lookup exits = (some (.key key), notices)) : ∃ front,
    Turn.leave (Turn.follow c.config.maxRedirects) a.slot { d with exits }
        (Turn.fresh (c.withExits a.slot exits)) =
      (Turn.landed true (c.hopFrom key)).recast
        (.reroute (fun slot d => if slot = a.slot then exits else d.exits) front) := by
  refine ⟨c.journal ++ notices.map .noticed, ?_⟩
  rw [Turn.recast_landed, recast_hopFrom (h.serves exits _)]
  have hturn : Turn.recast (.reroute (fun slot d => if slot = a.slot then exits else d.exits)
        (c.journal ++ notices.map .noticed)) (Turn.fresh c.takeJournal.2) =
      (Turn.fresh (c.withExits a.slot exits)).update
        (fun c => c.record (notices.map .noticed)) := by
    change (⟨{ c.withExits a.slot exits with
      journal := c.journal ++ notices.map .noticed ++ [] }, c.config.maxRedirects⟩ : Turn) = _
    rw [List.append_nil]
    rfl
  rw [hturn]
  exact Turn.leave_of_redirect (t := Turn.fresh (c.withExits a.slot exits)) hexit

/-- A dialogue that is left by code which only asks for a dialogue, and the same dialogue left
by an exit that names it. Both answer the same and come to the same point, wherever the way
leads, unless it leads back to the dialogue left: then the redirect has started it over, and the
code has closed it on top of that. -/
theorem advance_code_or_redirect {c : Conversation} {a : Active} {d : Dialogue}
    {before after : List Exit} {condition name key : String} {sources : List String}
    (h : c.Exhausted a d)
    (hexits : d.exits = before ++ ⟨condition, .code [.call name sources]⟩ :: after)
    (hbefore : (selectExit c.vars.lookup before).1 = none)
    (hcondition : (holds c.vars.lookup condition).1 = true)
    (hstarts : c.OnlyStarts name sources key) (selected : Nat) :
    let code := c.advance selected
    let redirect :=
      (c.withExits a.slot (before ++ ⟨condition, .key key⟩ :: after)).advance selected
    code.result = redirect.result ∧
      (redirect.talk.active.map Active.slot ≠ some a.slot →
        SamePoint redirect.talk code.talk) ∧
      (redirect.talk.active.map Active.slot = some a.slot →
        SamePoint redirect.talk.close code.talk) := by
  intro code redirect
  have hcode : code = _ := advance_of_exhausted h selected
  have hredirect : redirect = _ := advance_of_exhausted
    (h.withExits (before ++ ⟨condition, .key key⟩ :: after)) selected
  have hsame : Turn.moveFrom { d with exits := before ++ ⟨condition, .key key⟩ :: after } a.index =
    Turn.moveFrom d a.index := rfl
  rw [hcode, hredirect]
  simp only [Turn.proceed, hsame]
  cases hmove : Turn.moveFrom d a.index with
  | advance index => exact absurd hmove (h.last index)
  | pick =>
      -- a pick is made only where no element is current
      obtain ⟨e, helement, _⟩ := h.element
      obtain ⟨i, hindex, _⟩ := Option.bind_eq_some_iff.mp helement
      unfold Turn.moveFrom at hmove
      grind
  | finish =>
      exact ⟨rfl, fun _ => samePoint_close_withExits c a.slot _, fun hback => by
        simp [Result.ofProgress, Turn.done, Turn.close, Turn.update] at hback⟩
  | leave =>
      -- Both take the same exit and the same hop; they differ in what ends the dialogue behind it.
      obtain ⟨front, hleave⟩ := leave_code (a := a) (d := d) (by
        rw [hexits]
        exact selectExit_append hbefore hcondition) hstarts
      have hexit : selectExit c.vars.lookup (before ++ ⟨condition, .key key⟩ :: after) = _ :=
        selectExit_append hbefore hcondition
      obtain ⟨front', hleave'⟩ := h.leave_redirect hexit
      have hsettled : Turn.Settled (some a) (c.hopFrom key) := by
        rw [← h.active]
        exact Turn.follow_settled _ key (Turn.fresh c.takeJournal.2)
      obtain ⟨hresult, helsewhere, hback⟩ := Turn.leftBehind_landed hsettled
      have hmax : (c.withExits a.slot (before ++ ⟨condition, .key key⟩ :: after)).config =
          c.config := rfl
      simp only [hmax, hleave, hleave', Result.ofProgress, Progress.recast, Turn.recast,
        active_reroute]
      refine ⟨hresult, fun hslot => (helsewhere hslot).reroute _ _ _ _, fun hslot => ?_⟩
      rw [hback hslot, ← recast_close]
      exact (SamePoint.refl _).reroute _ _ _ _

/-! A dialogue that is left by a command, in a conversation that plays it. -/

def wheel : Dialogue :=
  { name := "a", elements := [{ text := "again" }], exits := [⟨"", .code [.call "goto" []]⟩] }

def wheelStore : Store :=
  { name := "wheel"
    dialogues := [wheel, { name := "b", elements := [{ text := "away" }] }]
    index := Std.TreeMap.insert (Std.TreeMap.insert {} "a" 0) "b" 1
    indexed := (Store.indexes_nil.insert (d := wheel) rfl).insert
      (d := { name := "b", elements := [{ text := "away" }] }) rfl }

/-- The dialogue is exhausted, and its command asks for `key`. -/
def wheelTalk (key : String) : Conversation :=
  (new {} 0).performAll [.addStore wheelStore,
    .registerCommand "goto" ⟨[], fun _ vars => ⟨vars, [.start key], none⟩⟩, .start "a"]

theorem wheelTalk_exhausted (key : String) :
    (wheelTalk key).Exhausted ⟨⟨0, 0⟩, "a", some 0⟩ wheel :=
  ⟨rfl, rfl, ⟨{ text := "again" }, rfl, rfl⟩, fun index h => by
    have hleave : Turn.moveFrom wheel (some 0) = .leave := rfl
    rw [hleave] at h
    cases h⟩

theorem wheelTalk_onlyStarts (key : String) : (wheelTalk key).OnlyStarts "goto" [] key :=
  ⟨[], rfl⟩

theorem wheel_leads_away :
    (wheelTalk "b").Exhausted ⟨⟨0, 0⟩, "a", some 0⟩ wheel ∧
      (wheelTalk "b").OnlyStarts "goto" [] "b" ∧
      SamePoint (((wheelTalk "b").withExits ⟨0, 0⟩ [⟨"", .key "b"⟩]).advance 0).talk
        ((wheelTalk "b").advance 0).talk := by
  have hsame := @advance_code_or_redirect _ _ _ [] [] "" _ _ _ (wheelTalk_exhausted "b") rfl rfl
    rfl (wheelTalk_onlyStarts "b") 0
  exact ⟨wheelTalk_exhausted "b", wheelTalk_onlyStarts "b", hsame.2.1 (by decide +kernel)⟩

/-- Where the command asks for the dialogue itself, the redirect shows it again and the code ends
it. -/
theorem wheel_comes_back :
    (wheelTalk "a").Exhausted ⟨⟨0, 0⟩, "a", some 0⟩ wheel ∧
      (wheelTalk "a").OnlyStarts "goto" [] "a" ∧
      ¬ SamePoint (((wheelTalk "a").withExits ⟨0, 0⟩ [⟨"", .key "a"⟩]).advance 0).talk
        ((wheelTalk "a").advance 0).talk := by
  refine ⟨wheelTalk_exhausted "a", wheelTalk_onlyStarts "a", fun hsame => ?_⟩
  have hclosed : ((wheelTalk "a").advance 0).talk.active = none := by decide +kernel
  have hopen : (((wheelTalk "a").withExits ⟨0, 0⟩ [⟨"", .key "a"⟩]).advance 0).talk.active =
      some ⟨⟨0, 0⟩, "a", some 0⟩ := by decide +kernel
  have hactive := hsame.active
  rw [hclosed, hopen] at hactive
  cases hactive

end Conversation

end Parley
