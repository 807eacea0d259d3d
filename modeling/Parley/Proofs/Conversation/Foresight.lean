import Parley.Proofs.Conversation.Activation
import Parley.Proofs.Conversation.Faultless
import Parley.Proofs.Conversation.Silence
import Parley.Proofs.Script.WellFormed

/-!
# What looking ahead foretells

Whether there is more to show is asked without going on, by a chain of questions of its own. Where
the answer is no, going on shows nothing and ends the conversation. Where it is yes, going on
shows the next element, or leads to a key: by the selected choice, or by the first open exit. It
ends in silence only where no such choice is there, or where the way to the key comes to nothing.
-/

namespace Parley

/-- No exit of a script has an empty key. -/
theorem Store.Imported.key_ne_empty {s : Store} (h : s.Imported) :
    ∀ d ∈ s.dialogues, ∀ e ∈ d.exits, e.target ≠ .key "" := by
  obtain ⟨name, reg, source, hsource⟩ := h
  obtain ⟨script, hparse, hdialogues, -⟩ := Store.script_of_ofSource hsource
  rw [hdialogues]
  intro d hd e he htarget
  have hwell := (((Script.wellFormed_of_parse hparse).dialogues d hd).exits e he).target
  rw [htarget] at hwell
  exact hwell.1.ne_nil rfl

namespace Conversation

/-! ### Going on -/

/-- Where going on leads to, with the notices on the way: by the selected choice of the element
shown, or behind the last element by the first open exit. -/
inductive LeadsTo (c : Conversation) (a : Active) (d : Dialogue) (selected : Nat) :
    List Notice → String → Prop
  | choice {e : Element} {choice : Choice} (he : a.element? d = some e)
      (hchoice : e.choices[selected]? = some choice) : LeadsTo c a d selected [] choice.key
  | exit {notices : List Notice} {key : String}
      (hplain : ∀ e, a.element? d = some e → e.hasChoices = false)
      (hlast : Turn.moveFrom d a.index = .leave)
      (hexit : selectExit c.vars.lookup d.exits = (some (.key key), notices)) :
      LeadsTo c a d selected notices key

/-- The element shown has choices, and not the selected one. -/
def OutOfRange (a : Active) (d : Dialogue) (selected : Nat) : Prop :=
  ∃ e, a.element? d = some e ∧ e.hasChoices = true ∧ e.choices[selected]? = none

/-- The ways to go on where there is more to show. -/
inductive Onward (c : Conversation) (a : Active) (d : Dialogue) (selected : Nat) :
    Result Unit → Prop
  | next {i : Nat} {e : Element} (hplain : ∀ e, a.element? d = some e → e.hasChoices = false)
      (hindex : a.index = some i) (he : d.elements[i + 1]? = some e) :
      Onward c a d selected ⟨c.present a (i + 1) e, .ok ()⟩
  | follow {notices : List Notice} {key : String} (h : c.LeadsTo a d selected notices key) :
      Onward c a d selected ((c.record (notices.map .noticed)).goTo key)
  | outOfRange (h : OutOfRange a d selected) :
      Onward c a d selected ⟨(c.note .choiceOutOfRange).close, .ok ()⟩

/-- What going on does is what looking ahead foretells. -/
def Foretold (c : Conversation) (a : Active) (d : Dialogue) (selected : Nat) : Prop :=
  (c.hasMoreText = false ∧ ∃ notices : List Notice,
    c.advance selected = ⟨(c.record (notices.map .noticed)).close, .ok ()⟩) ∨
  (c.hasMoreText = true ∧ Onward c a d selected (c.advance selected))

section Advance

variable {c : Conversation} {a : Active} {d : Dialogue} {selected : Nat}
variable (hactive : c.active = some a) (hd : c.dialogueAt a.slot = some d)
include hactive hd

/-- An element with choices is left by the selected one. -/
theorem advance_eq_choose {e : Element} (he : a.element? d = some e)
    (hchoices : e.hasChoices = true) :
    c.advance selected =
      .ofProgress (Turn.choose (Turn.follow c.config.maxRedirects) e selected (Turn.fresh c)) := by
  have hactive' : (Turn.fresh c).talk.active = some a := hactive
  have hd' : (Turn.fresh c).talk.dialogueAt a.slot = some d := hd
  simp only [advance, Turn.step, hactive', hd', he, hchoices, if_true]

/-- A choice that is not there ends the conversation. -/
theorem advance_of_outOfRange (h : OutOfRange a d selected) :
    c.advance selected = ⟨(c.note .choiceOutOfRange).close, .ok ()⟩ := by
  obtain ⟨e, he, hchoices, hnone⟩ := h
  rw [advance_eq_choose hactive hd he hchoices]
  simp only [Turn.choose, hnone]
  rfl

/-- A choice and an open transition lead to their key in the same way. -/
theorem advance_of_leadsTo {notices : List Notice} {key : String}
    (h : c.LeadsTo a d selected notices key) :
    c.advance selected = (c.record (notices.map .noticed)).goTo key := by
  cases h with
  | @choice e choice he hchoice =>
      have hchoices : e.hasChoices = true := by
        have hmem := List.mem_of_getElem? hchoice
        simpa [Element.hasChoices] using List.ne_nil_of_mem hmem
      rw [advance_eq_choose hactive hd he hchoices, List.map_nil, record_nil]
      simp only [Turn.choose, hchoice]
      rfl
  | exit hplain hlast hexit =>
      have hexit' : selectExit (Turn.fresh c).talk.vars.lookup d.exits =
          (some (.key key), notices) := hexit
      rw [advance_eq_proceed hactive hd hplain]
      simp only [Turn.proceed, hlast, Turn.leave, hexit']
      rfl

/-- What is foretold where an element is on show, case by case. -/
theorem hasMoreText_eq {i : Nat} {e : Element} (hindex : a.index = some i)
    (he : d.elements[i]? = some e) :
    c.hasMoreText =
      if e.hasChoices then true
      else if d.picksElement then false
      else if i + 1 < d.elements.length then true
      else leadsOn (selectExit c.vars.lookup d.exits).1 := by
  simp only [hasMoreText, hactive, hd, Active.element?, hindex, Option.bind_some, he,
    Option.any_some]

theorem foretold_of_choices {e : Element} (he : a.element? d = some e)
    (hchoices : e.hasChoices = true) (hmore : c.hasMoreText = true) :
    c.Foretold a d selected := by
  refine .inr ⟨hmore, ?_⟩
  cases hchoice : e.choices[selected]? with
  | some choice =>
      have hleads : c.LeadsTo a d selected [] choice.key := .choice he hchoice
      rw [advance_of_leadsTo hactive hd hleads]
      exact .follow hleads
  | none =>
      have hrange : OutOfRange a d selected := ⟨e, he, hchoices, hchoice⟩
      rw [advance_of_outOfRange hactive hd hrange]
      exact .outOfRange hrange

/-- Behind the last element the answer is whether an exit leads on, and no exit has an empty
key. -/
theorem foretold_of_leave (hplain : ∀ e, a.element? d = some e → e.hasChoices = false)
    (hleave : Turn.moveFrom d a.index = .leave)
    (hmore : c.hasMoreText = leadsOn (selectExit c.vars.lookup d.exits).1)
    (hkeys : ∀ x ∈ d.exits, x.target ≠ .key "")
    (hcode : ∀ statements, (selectExit c.vars.lookup d.exits).1 ≠ some (.code statements)) :
    c.Foretold a d selected := by
  rcases hexit : selectExit c.vars.lookup d.exits with ⟨target, notices⟩
  rw [hexit] at hmore hcode
  match target with
  | none =>
      have hexit' : selectExit (Turn.fresh c).talk.vars.lookup d.exits = (none, notices) := hexit
      refine .inl ⟨hmore, notices, ?_⟩
      rw [advance_eq_proceed hactive hd hplain]
      simp only [Turn.proceed, hleave, Turn.leave, hexit']
      rfl
  | some (.key key) =>
      have hleads : c.LeadsTo a d selected notices key := .exit hplain hleave hexit
      have hne : key ≠ "" := by
        rintro rfl
        obtain ⟨x, hx, htarget⟩ := exists_of_selectExit (congrArg Prod.fst hexit)
        exact hkeys x hx htarget
      refine .inr ⟨by simpa [leadsOn] using hmore.trans (by simpa [leadsOn] using hne), ?_⟩
      rw [advance_of_leadsTo hactive hd hleads]
      exact .follow hleads
  | some (.code statements) => exact absurd rfl (hcode statements)

/-- Going on and looking ahead decide the same questions in the same order. -/
theorem foretold {i : Nat} {e : Element} (hindex : a.index = some i)
    (he : d.elements[i]? = some e) (hkeys : ∀ x ∈ d.exits, x.target ≠ .key "")
    (hcode : ∀ statements, (selectExit c.vars.lookup d.exits).1 ≠ some (.code statements)) :
    c.Foretold a d selected := by
  have helement : a.element? d = some e := by
    simpa only [Active.element?, hindex, Option.bind_some] using he
  have hmore := hasMoreText_eq hactive hd hindex he
  -- Choices come first, then a dialogue that picks, then the next element, and the exits last.
  cases hchoices : e.hasChoices with
  | true =>
      exact foretold_of_choices hactive hd helement hchoices (by rw [hmore, hchoices, if_pos rfl])
  | false =>
      have hplain : ∀ e, a.element? d = some e → e.hasChoices = false := by
        intro e' he'
        rw [helement, Option.some.injEq] at he'
        exact he' ▸ hchoices
      simp only [hchoices, Bool.false_eq_true, if_false] at hmore
      cases hpicks : d.picksElement with
      | true =>
          have hfinish : Turn.moveFrom d a.index = .finish := by
            simp only [Turn.moveFrom, hpicks, hindex, if_true]
          refine .inl ⟨by rw [hmore, hpicks, if_pos rfl], [], ?_⟩
          rw [advance_eq_proceed hactive hd hplain, List.map_nil, record_nil]
          simp only [Turn.proceed, hfinish]
          rfl
      | false =>
          simp only [hpicks, Bool.false_eq_true, if_false] at hmore
          by_cases hnext : i + 1 < d.elements.length
          · have hstep := advance_within hactive hd hpicks hindex hnext
              (fun e' he' => hplain e' (by simpa [Active.element?, hindex] using he')) selected
            refine .inr ⟨by rw [hmore, if_pos hnext], ?_⟩
            rw [hstep]
            exact .next hplain hindex (List.getElem?_eq_getElem hnext)
          · have hleave : Turn.moveFrom d a.index = .leave := by
              simp only [Turn.moveFrom, hpicks, hindex, hnext, Bool.false_eq_true, if_false]
            rw [if_neg hnext] at hmore
            exact foretold_of_leave hactive hd hplain hleave hmore hkeys hcode

end Advance

/-- Silence behind a yes has a reason. -/
theorem endsSilently_iff {c : Conversation} {a : Active} {d : Dialogue} {selected : Nat}
    (hactive : c.active = some a) (hd : c.dialogueAt a.slot = some d)
    (honward : Onward c a d selected (c.advance selected)) :
    c.EndsSilently (c.advance selected).talk ↔
      OutOfRange a d selected ∨ ∃ notices key, c.LeadsTo a d selected notices key ∧
        (c.config.maxRedirects = 0 ∨ (c.record (notices.map .noticed)).ShowsNothing
          ((c.record (notices.map .noticed)).startAfterHop key).turn.talk) := by
  have hrange : OutOfRange a d selected → c.EndsSilently (c.advance selected).talk := by
    intro h
    rw [advance_of_outOfRange hactive hd h]
    exact .close (c.showsNothing_record (silent_notices [.choiceOutOfRange]))
  have hfollow : ∀ notices key, c.LeadsTo a d selected notices key →
      (c.EndsSilently (c.advance selected).talk ↔ c.config.maxRedirects = 0 ∨
        (c.record (notices.map .noticed)).ShowsNothing
          ((c.record (notices.map .noticed)).startAfterHop key).turn.talk) := by
    intro notices key h
    obtain ⟨more, hmore⟩ := exists_acts_goTo (c.record (notices.map .noticed)) key
    rw [advance_of_leadsTo hactive hd h, endsSilently_record_iff (silent_notices notices) hmore]
    exact goTo_endsSilently_iff _ key
  constructor
  · intro hsilent
    generalize hadvance : c.advance selected = r at honward
    cases honward with
    | @next i e _ _ _ =>
        have hidle := hsilent.idle
        rw [hadvance] at hidle
        cases hidle
    | @follow notices key h => exact .inr ⟨notices, key, h, (hfollow notices key h).mp hsilent⟩
    | outOfRange h => exact .inl h
  · rintro (h | ⟨notices, key, h, hreason⟩)
    · exact hrange h
    · exact (hfollow notices key h).mpr hreason

/-- In every state that a host can bring about with scripts as stores: where a dialogue is active
and its selected exit is no code, looking ahead foretells what going on does. Behind a no it shows
nothing, reports one end and leaves nothing active, and nothing else is different. Behind a yes it
shows the next element or leads on; and it ends in silence if, and only if, the selected choice is
not there, or no hop may be made, or the key, started with one hop used up, shows nothing. -/
theorem hasMoreText_foretells_advance {config : Config} {entropy : UInt64}
    {calls : List HostCall} {c : Conversation} {a : Active}
    (hreach : (new config entropy).performAll calls = c)
    (hstores : ∀ s, .addStore s ∈ calls → s.Imported) (hactive : c.active = some a) :
    ∃ d, c.dialogueAt a.slot = some d ∧
      ((∀ statements, (selectExit c.vars.lookup d.exits).1 ≠ some (.code statements)) →
        ∀ selected,
          (c.hasMoreText = false → ∃ acts, Silent acts ∧ c.advance selected =
            ⟨{ c with
                active := none
                events := c.events ++ [.ended]
                journal := c.journal ++ acts }, .ok ()⟩) ∧
          (c.hasMoreText = true → Onward c a d selected (c.advance selected) ∧
            (c.EndsSilently (c.advance selected).talk ↔
              OutOfRange a d selected ∨ ∃ notices key, c.LeadsTo a d selected notices key ∧
                (c.config.maxRedirects = 0 ∨ (c.record (notices.map .noticed)).ShowsNothing
                  ((c.record (notices.map .noticed)).startAfterHop key).turn.talk)))) := by
  have hnew : Pictured (new config entropy) := .inl rfl
  have hpictured := hnew.performAll calls
  have himported : ∀ s ∈ ((new config entropy).performAll calls).stores, s.Imported :=
    forall_mem_stores hstores
  rw [hreach] at hpictured himported
  simp only [Pictured, hactive] at hpictured
  obtain ⟨d, i, e, hd, hindex, he, -⟩ := hpictured
  refine ⟨d, hd, fun hcode selected => ?_⟩
  obtain ⟨s, hs, hplace⟩ := Option.bind_eq_some_iff.mp hd
  have hkeys := (himported s (List.mem_of_getElem? hs)).key_ne_empty d (List.mem_of_getElem? hplace)
  have hforetold : c.Foretold a d selected := foretold hactive hd hindex he hkeys hcode
  obtain ⟨hno, notices, hadvance⟩ | ⟨hyes, honward⟩ := hforetold
  · refine ⟨fun _ => ?_, fun hyes => absurd (hno.symm.trans hyes) Bool.false_ne_true⟩
    refine ⟨notices.map .noticed ++ [.cleared, .event .ended], ?_, ?_⟩
    · exact silent_append.mpr ⟨silent_notices notices, by simp [Silent]⟩
    · rw [hadvance, close_eq]
      simp [record, closingEvents, hactive]
  · exact ⟨fun hno => absurd (hno.symm.trans hyes) Bool.false_ne_true, fun _ =>
      ⟨honward, endsSilently_iff hactive hd honward⟩⟩

/-! A sign that points from one dialogue to another. -/

def signSource : String :=
  "# a\n[Bob]: hi\n\n=> b\n# b\n[Bob]: there\n"

def sign : Dialogue :=
  { name := "a"
    elements := [{ speaker := some { name := "Bob" }, text := "hi" }]
    exits := [⟨"", .key "b"⟩] }

def signpost : Dialogue :=
  { name := "b", elements := [{ speaker := some { name := "Bob" }, text := "there" }] }

def signStore : Store :=
  { name := "signs"
    dialogues := [sign, signpost]
    index := Std.TreeMap.insert (Std.TreeMap.insert {} "a" 0) "b" 1
    indexed := (Store.indexes_nil.insert (d := sign) rfl).insert (d := signpost) rfl }

theorem signStore_imported : signStore.Imported :=
  ⟨"signs", Registry.implicitly, signSource, rfl⟩

/-- The first dialogue is active, with its only element shown. -/
def signTalk (maxRedirects : Nat) : Conversation :=
  (new { maxRedirects } 0).performAll [.addStore signStore, .start "a"]

/-- The sign is followed, and behind it there is nothing more. -/
theorem signpost_foretold :
    signStore.Imported ∧ (signTalk 1).active = some ⟨⟨0, 0⟩, "a", some 0⟩ ∧
      (signTalk 1).hasMoreText = true ∧
      Onward (signTalk 1) ⟨⟨0, 0⟩, "a", some 0⟩ sign 0 ((signTalk 1).advance 0) ∧
      ((signTalk 1).advance 0).talk.hasMoreText = false ∧
      ∃ acts, Silent acts ∧ ((signTalk 1).advance 0).talk.advance 0 =
        ⟨{ ((signTalk 1).advance 0).talk with
            active := none
            events := [.started "a", .ended, .started "b", .ended]
            journal := ((signTalk 1).advance 0).talk.journal ++ acts }, .ok ()⟩ := by
  have hmore : (signTalk 1).hasMoreText = true := by decide +kernel
  have hlast : ((signTalk 1).advance 0).talk.hasMoreText = false := by decide +kernel
  have hstores : ∀ more, (∀ call ∈ more, call.added = []) →
      ∀ s, .addStore s ∈ HostCall.addStore signStore :: more → s.Imported := by
    intro more hmore s hs
    obtain heq | hlater := List.mem_cons.mp hs
    · rw [HostCall.addStore.inj heq]
      exact signStore_imported
    · exact absurd (hmore _ hlater) (List.cons_ne_nil s [])
  have hreach : (new { maxRedirects := 1 } 0).performAll
      [.addStore signStore, .start "a", .advance 0] = ((signTalk 1).advance 0).talk := rfl
  have hactive : ((signTalk 1).advance 0).talk.active = some ⟨⟨0, 1⟩, "b", some 0⟩ := rfl
  obtain ⟨d, hd, hfirst⟩ := hasMoreText_foretells_advance (c := signTalk 1)
    (a := ⟨⟨0, 0⟩, "a", some 0⟩) rfl (hstores [.start "a"] (by simp [HostCall.added])) rfl
  obtain ⟨d', hd', hsecond⟩ := hasMoreText_foretells_advance hreach
    (hstores [.start "a", .advance 0] (by simp [HostCall.added])) hactive
  have hsign : d = sign := Option.some.inj (hd.symm.trans rfl)
  have hsignpost : d' = signpost := Option.some.inj (hd'.symm.trans rfl)
  subst hsign hsignpost
  refine ⟨signStore_imported, rfl, hmore, ?_, hlast, ?_⟩
  · exact ((hfirst (by rintro statements ⟨⟩) 0).2 hmore).1
  · exact (hsecond (by rintro statements ⟨⟩) 0).1 hlast

/-- Where no hop may be made the sign promises more, its key would show something with one hop
used up, and going on ends in silence all the same. -/
theorem signpost_without_hops :
    signStore.Imported ∧ (signTalk 0).active = some ⟨⟨0, 0⟩, "a", some 0⟩ ∧
      (signTalk 0).hasMoreText = true ∧ ¬ OutOfRange ⟨⟨0, 0⟩, "a", some 0⟩ sign 0 ∧
      (signTalk 0).LeadsTo ⟨⟨0, 0⟩, "a", some 0⟩ sign 0 [] "b" ∧
      (signTalk 0).EndsSilently ((signTalk 0).advance 0).talk ∧
      ¬ (signTalk 0).ShowsNothing ((signTalk 0).startAfterHop "b").turn.talk := by
  have hplain : ∀ e, (⟨⟨0, 0⟩, "a", some 0⟩ : Active).element? sign = some e →
      e.hasChoices = false := by
    rintro e ⟨⟩
    rfl
  have hleads : (signTalk 0).LeadsTo ⟨⟨0, 0⟩, "a", some 0⟩ sign 0 [] "b" :=
    .exit hplain rfl rfl
  refine ⟨signStore_imported, rfl, by decide +kernel, ?_, hleads, ?_, ?_⟩
  · rintro ⟨e, he, hchoices, -⟩
    rw [hplain e he] at hchoices
    cases hchoices
  · rw [advance_of_leadsTo rfl rfl hleads]
    exact goTo_of_maxRedirects_eq_zero rfl "b"
  · have hjournal : ((signTalk 0).startAfterHop "b").turn.talk.journal = (signTalk 0).journal ++
        [.cleared, .event .ended, .event (.started "b"),
          .shown { speaker := some { name := "Bob" }, text := "there" }] := rfl
    rw [showsNothing_iff hjournal]
    exact fun hsilent => hsilent { speaker := some { name := "Bob" }, text := "there" } (by simp)

end Conversation

end Parley
