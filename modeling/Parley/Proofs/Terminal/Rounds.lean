import Parley.Proofs.Conversation.Past
import Parley.Proofs.Conversation.Selection
import Parley.Proofs.Terminal.Painting

/-!
# Rounds of a session

While a conversation lasts the player is asked again and again. Every round takes one line, and the
session goes no further where the conversation is over or no line is left. The element on the screen
is the one that is current, so a choice typed by its number is the one that is followed.

## Implementation notes

A session keeps no record of what was done, since it takes the journal after every call. What is on
the screen is told by all that was done so far, `past`: the conversation is pictured as if all of
that stood in its journal still, and no call looks at what stands there already.
-/

namespace Parley

open Text (trim)

namespace Screen

/-! ### What is on the screen -/

/-- What may be written below an element: the prompt, what the player is told, and whatever comes
from acts that draw nothing. -/
inductive Below : String → Prop
  | nothing : Below ""
  | act {text : String} {a : Act} (h : Below text) (ha : a.draws = false) :
      Below (text ++ (ofAct a).text)
  | prompt {text : String} (h : Below text) (s : Session) : Below (text ++ s.prompt)
  | unclear {text : String} (h : Below text) (choices : Nat) :
      Below (text ++ s!"  please enter a number between 1 and {choices}\n")

/-- The element is on the screen, and no other below it. -/
def Faces (screen : String) (e : Element) : Prop :=
  ∃ above below, screen = above ++ (ofElement e).text ++ below ∧ Below below

/-- Where an element was drawn last, it is on the screen and the cursor is among its choices. -/
def Displays (past : List Act) (screen : String) (cursor : Cursor) : Prop :=
  ∀ e, lastDrawn past = some (.shown e) → Faces screen e ∧ cursor.choices = e.choices.length

theorem choices_after (c : Cursor) {a : Act} (h : a.draws = false) :
    (c.after a).choices = c.choices := by
  cases a with
  | shown e => cases h
  | cleared => cases h
  | steered x y =>
      change (c.steer y).choices = c.choices
      unfold Cursor.steer
      split
      · rfl
      · split
        · rfl
        · split <;> rfl
  | _ => rfl

namespace Displays

variable {past : List Act} {screen : String} {cursor : Cursor}

theorem below (h : Displays past screen cursor) {more : String}
    (hmore : ∀ text, Below text → Below (text ++ more)) :
    Displays past (screen ++ more) cursor := by
  intro e he
  obtain ⟨⟨above, below, rfl, hbelow⟩, hcursor⟩ := h e he
  exact ⟨⟨above, below ++ more, by rw [String.append_assoc], hmore below hbelow⟩, hcursor⟩

theorem act (h : Displays past screen cursor) (a : Act) :
    Displays (past ++ [a]) (screen ++ (ofAct a).text) (cursor.after a) := by
  cases hdraws : a.draws with
  | false =>
      have hlast : lastDrawn (past ++ [a]) = lastDrawn past :=
        lastDrawn_append_of_not_draws (List.forall_mem_singleton.mpr hdraws)
      have hmore := h.below fun text htext => htext.act hdraws
      simpa only [Displays, hlast, choices_after cursor hdraws] using hmore
  | true =>
      intro e he
      cases a with
      | shown shown =>
          rw [lastDrawn_append_shown] at he
          cases he
          exact ⟨⟨screen, "", (String.append_empty).symm, .nothing⟩, rfl⟩
      | cleared => simp [lastDrawn, Act.draws] at he
      | _ => cases hdraws

/-- What a call of the host did is written and drawn. -/
theorem acts (h : Displays past screen cursor) {acts : List Act}
    (hwritten : (ofActs acts).fault = none) :
    Displays (past ++ acts) (screen ++ (ofActs acts).text) (acts.foldl Cursor.after cursor) := by
  induction acts generalizing past screen cursor with
  | nil => simpa [ofActs] using h
  | cons a acts ih =>
      cases hfault : (ofAct a).fault with
      | some miscut => simp [ofActs, hfault] at hwritten
      | none =>
          simp only [ofActs, hfault, Option.isSome_none, Bool.false_eq_true, if_false] at hwritten ⊢
          rw [List.append_cons, ← String.append_assoc]
          exact ih (h.act a) hwritten

end Displays

end Screen

namespace Session

/-! ### The loop -/

/-- One round: the player is asked, and types a line. -/
def round (s : Session) (line : String) : Session :=
  (s.print s.prompt).answer line

/-- The rounds of a session on some lines, each by the session in which the player is asked, and the
session that is left. A round takes one line, or is the last because there is none. -/
inductive Loop : Session → List String → List Session → Session → Prop
  | closed {s : Session} {lines : List String} (h : s.isOpen = false) : Loop s lines [] s
  | starved {s : Session} (h : s.isOpen = true) : Loop s [] [s] (s.print s.prompt)
  | answered {s last : Session} {line : String} {lines : List String} {rounds : List Session}
      (h : s.isOpen = true) (tail : Loop (s.round line) lines rounds last) :
      Loop s (line :: lines) (s :: rounds) last

/-- Every session runs through rounds to an end. -/
theorem exists_loop (s : Session) (lines : List String) :
    ∃ rounds, Loop s lines rounds (s.converse lines) := by
  induction lines generalizing s with
  | nil =>
      cases hopen : s.isOpen with
      | false =>
          simp only [converse, hopen]
          exact ⟨[], .closed hopen⟩
      | true =>
          simp only [converse, hopen, if_true]
          exact ⟨[s], .starved hopen⟩
  | cons line lines ih =>
      cases hopen : s.isOpen with
      | false =>
          simp only [converse, hopen]
          exact ⟨[], .closed hopen⟩
      | true =>
          obtain ⟨rounds, hloop⟩ := ih (s.round line)
          simp only [converse, hopen, if_true]
          exact ⟨s :: rounds, .answered hopen hloop⟩

/-- There is one round for a line at most, and one more that finds none. -/
theorem Loop.length_le {s last : Session} {lines : List String} {rounds : List Session}
    (h : Loop s lines rounds last) : rounds.length ≤ lines.length + 1 := by
  induction h with
  | closed _ => exact Nat.zero_le _
  | starved _ => exact Nat.le_refl _
  | answered _ _ ih => exact Nat.succ_le_succ ih

/-- What a round keeps, and what asking keeps, holds in every round and in the end. -/
theorem Loop.invariant {P : Session → Prop} {s last : Session} {lines : List String}
    {rounds : List Session} (h : Loop s lines rounds last)
    (hround : ∀ s line, s.isOpen = true → P s → P (s.round line))
    (hask : ∀ s, s.isOpen = true → P s → P (s.print s.prompt)) (hs : P s) :
    (∀ t ∈ rounds, t.isOpen = true ∧ P t) ∧ P last := by
  induction h with
  | closed _ => exact ⟨List.forall_mem_nil _, hs⟩
  | starved hopen => exact ⟨List.forall_mem_singleton.mpr ⟨hopen, hs⟩, hask _ hopen hs⟩
  | answered hopen _ ih =>
      obtain ⟨hrounds, hlast⟩ := ih (hround _ _ hopen hs)
      exact ⟨List.forall_mem_cons.mpr ⟨⟨hopen, hs⟩, hrounds⟩, hlast⟩

/-! ### What every round keeps -/

/-- All that was done is on the screen, and pictures the conversation. -/
structure Faithful (past : List Act) (s : Session) : Prop where
  journal : s.talk.journal = []
  pictured : Pictured (s.talk.behind past)
  displays : Screen.Displays past s.screen s.cursor

/-- A session that did not break off lasts or has nothing active, and its screen is faithful. -/
def Coherent (s : Session) : Prop :=
  s.ending.BrokenOff ∨
    (s.ending = .done ∨ s.talk.active = none) ∧ ∃ past, s.Faithful past

variable {s t : Session}

/-- A session goes on as long as nothing failed and something is active. -/
theorem isOpen_iff : s.isOpen = true ↔ s.ending = .done ∧ s.talk.active ≠ none := by
  simp [isOpen, Conversation.isTalking, Option.isSome_iff_ne_none]

/-- An open session that is coherent shows what was done on its screen. -/
theorem Coherent.exists_past (h : s.Coherent) (hopen : s.isOpen = true) :
    ∃ past, s.Faithful past := by
  obtain ⟨fault, hcrashed⟩ | ⟨-, hpast⟩ := h
  · rw [(isOpen_iff.mp hopen).1] at hcrashed
    cases hcrashed
  · exact hpast

/-- A call of the host keeps the screen faithful, and leaves nothing active where it fails. -/
theorem coherent_follow {α : Type} {past : List Act} {r : Conversation.Result α}
    (hdone : s.ending = .done) (hdisplays : Screen.Displays past s.screen s.cursor)
    (hpictured : Pictured (r.talk.behind past))
    (hfault : ∀ fault, r.result = .error fault → r.talk.active = none) :
    (s.follow r).Coherent := by
  cases hwritten : (Screen.ofActs r.talk.journal).fault with
  | some miscut =>
      refine .inl ⟨miscut.message, ?_⟩
      simp [follow, Conversation.takeJournal, hwritten]
  | none =>
      refine .inr ⟨?_, past ++ r.talk.journal, rfl, ?_, hdisplays.acts hwritten⟩
      · cases hresult : r.result with
        | ok a =>
            left
            simp [follow, Conversation.takeJournal, hwritten, hresult, hdone]
        | error fault => exact .inr (hfault fault hresult)
      · simpa [Conversation.behind] using hpictured

/-- What is written below the last picture leaves the picture as it is. -/
theorem Coherent.print (h : s.Coherent) {text : String}
    (htext : ∀ below, Screen.Below below → Screen.Below (below ++ text)) :
    (s.print text).Coherent := by
  refine h.imp_right fun ⟨hactive, past, hfaithful⟩ => ⟨hactive, past, ?_⟩
  exact ⟨hfaithful.journal, hfaithful.pictured, hfaithful.displays.below htext⟩

theorem Coherent.ask (h : s.Coherent) : (s.print s.prompt).Coherent :=
  h.print fun _ hbelow => hbelow.prompt s

theorem Coherent.confirm (h : s.Coherent) (hopen : s.isOpen = true) (selected : Nat) :
    ((s.select selected).follow (s.talk.advance selected)).Coherent := by
  obtain ⟨past, hfaithful⟩ := h.exists_past hopen
  refine coherent_follow (isOpen_iff.mp hopen).1 hfaithful.displays ?_ ?_
  · rw [← Conversation.behind_advance]
    exact hfaithful.pictured.advance selected
  · exact fun fault hfault => Turn.step_fault (Turn.follow_fault _) selected _ hfault

theorem round_eq (t : Session) (line : String) :
    t.round line =
      match Play.Answer.read t.choices.length line with
      | .goOn =>
          ((t.print t.prompt).select t.cursor.selected).follow (t.talk.advance t.cursor.selected)
      | .choose selected =>
          ((t.print t.prompt).select selected).follow (t.talk.advance selected)
      | .unclear =>
          (t.print t.prompt).print
            s!"  please enter a number between 1 and {t.choices.length}\n" :=
  rfl

/-- Every round keeps the session coherent, whatever line it is given. -/
theorem Coherent.round (h : t.Coherent) (hopen : t.isOpen = true) (line : String) :
    (t.round line).Coherent := by
  rw [round_eq]
  cases Play.Answer.read t.choices.length line with
  | goOn => exact h.ask.confirm hopen _
  | choose selected => exact h.ask.confirm hopen selected
  | unclear => exact h.ask.print fun _ hbelow => hbelow.unclear _

/-! ### What a round does -/

/-- What a round does with any line, where the element is on the screen. -/
structure Asks (t : Session) (e : Element) : Prop where
  isOpen : t.isOpen = true
  current : t.talk.currentElement = some e
  onScreen : Screen.Faces t.screen e
  cursor : t.cursor.choices = e.choices.length
  /-- Without choices any line goes on by one step, whatever the cursor is on. -/
  goesOn : e.choices = [] → ∀ line selected,
    t.round line = (t.print t.prompt).follow (t.talk.advance selected) ∧
      InRange (t.talk.advance selected).talk.journal
  /-- The number of a choice leads to its key. -/
  chooses : ∀ line n choice, Decimal.natural? (trim line.toList) = some (n + 1) →
    e.choices[n]? = some choice →
      t.round line = ((t.print t.prompt).select n).follow (t.talk.goTo choice.key) ∧
        InRange (t.talk.goTo choice.key).talk.journal
  /-- Any other line is answered with a word on what to type, and changes nothing else. -/
  refuses : e.choices ≠ [] → ∀ line,
    (∀ n, Decimal.natural? (trim line.toList) = some (n + 1) → e.choices[n]? = none) →
      t.round line =
        { t with
          screen := t.screen ++ t.prompt ++
            s!"  please enter a number between 1 and {e.choices.length}\n" }

section Asking

variable {e : Element} {a : Active} {d : Dialogue} (hactive : t.talk.active = some a)
  (hd : t.talk.dialogueAt a.slot = some d) (he : a.element? d = some e)
include hactive hd he

theorem choices_eq : t.choices = e.choices := by
  simp [choices, Conversation.currentElement, hactive, hd, he]

/-- Without choices it does not matter which one is selected. -/
theorem advance_of_plain (hplain : e.choices = []) (selected other : Nat) :
    t.talk.advance selected = t.talk.advance other := by
  have hnone : ∀ e', a.element? d = some e' → e'.hasChoices = false := by
    intro e' he'
    rw [he] at he'
    cases he'
    simp [Element.hasChoices, hplain]
  rw [Conversation.advance_eq_proceed hactive hd hnone,
    Conversation.advance_eq_proceed hactive hd hnone]

theorem inRange_of_selected (hjournal : t.talk.journal = []) {selected : Nat}
    (hselected : e.hasChoices = true → e.choices[selected]? ≠ none) :
    InRange (t.talk.advance selected).talk.journal := by
  refine Conversation.inRange_advance hactive hd ?_ (by simp [hjournal, InRange])
  rintro ⟨e', he', hchoices, hnone⟩
  rw [he] at he'
  cases he'
  exact hselected hchoices hnone

/-- The element that is current is what the player is asked about. -/
theorem asks_of_current (hopen : t.isOpen = true) (hjournal : t.talk.journal = [])
    (hscreen : Screen.Faces t.screen e) (hcursor : t.cursor.choices = e.choices.length) :
    t.Asks e := by
  have hchoices : t.choices = e.choices := choices_eq hactive hd he
  constructor
  · exact hopen
  · simp [Conversation.currentElement, hactive, hd, he]
  · exact hscreen
  · exact hcursor
  -- without choices any line confirms
  · intro hplain line selected
    have hread : Play.Answer.read t.choices.length line = .goOn := by
      rw [hchoices, hplain]
      rfl
    refine ⟨?_, inRange_of_selected hactive hd he hjournal (by simp [Element.hasChoices, hplain])⟩
    rw [round_eq, hread, advance_of_plain hactive hd he hplain selected t.cursor.selected]
    rfl
  · intro line n choice hline hchoice
    have hlt : n < e.choices.length := (List.getElem?_eq_some_iff.mp hchoice).1
    have hread : Play.Answer.read t.choices.length line = .choose n := by
      have hne : ¬ e.choices.length = 0 := by omega
      simp only [Play.Answer.read, hchoices, hline, if_neg hne, if_pos hlt]
    have hgoTo : t.talk.advance n = t.talk.goTo choice.key := by
      have hleads : t.talk.LeadsTo a d n [] choice.key := .choice he hchoice
      rw [Conversation.advance_of_leadsTo hactive hd hleads, List.map_nil, Conversation.record_nil]
    rw [round_eq, hread, ← hgoTo]
    exact ⟨rfl, inRange_of_selected hactive hd he hjournal (by simp [hchoice])⟩
  · intro hne line hline
    have hread : Play.Answer.read t.choices.length line = .unclear := by
      have hlength : ¬ e.choices.length = 0 := by simpa using hne
      simp only [Play.Answer.read, hchoices, if_neg hlength]
      split
      · next n hn =>
          rw [if_neg]
          simpa using hline n hn
      · rfl
    rw [round_eq, hread, hchoices]
    rfl

end Asking

/-- An open session that is coherent asks for what its current element offers. -/
theorem Coherent.asks (h : t.Coherent) (hopen : t.isOpen = true) : ∃ e, t.Asks e := by
  obtain ⟨past, hfaithful⟩ := h.exists_past hopen
  obtain ⟨a, hactive⟩ := Option.ne_none_iff_exists'.mp (isOpen_iff.mp hopen).2
  have hpictured := hfaithful.pictured
  have hbehind : (t.talk.behind past).active = some a := hactive
  simp only [Pictured, hbehind] at hpictured
  obtain ⟨d, i, e, hd, hindex, he, hdrawn⟩ := hpictured
  have hcurrent : a.element? d = some e := by simp [Active.element?, hindex, he]
  have hpast : lastDrawn past = some (.shown e) := by
    simpa [Conversation.behind, hfaithful.journal] using hdrawn
  obtain ⟨hscreen, hcursor⟩ := hfaithful.displays e hpast
  exact ⟨e, asks_of_current hactive hd hcurrent hopen hfaithful.journal hscreen hcursor⟩

/-! ### The start and the end -/

/-- A session that did not break off has nothing active in the end. -/
theorem Coherent.finish (h : s.Coherent) (hcrashed : ¬ s.finish.ending.BrokenOff) :
    s.finish.talk.active = none := by
  unfold Session.finish at hcrashed ⊢
  split
  · exact Conversation.close_active _
  · next hdone =>
      obtain hcrash | ⟨hend, -⟩ := h
      · rw [if_neg hdone] at hcrashed
        exact absurd hcrash hcrashed
      · exact hend.resolve_left hdone

end Session

namespace Terminal

open Session (Loop)

end Terminal

end Parley
