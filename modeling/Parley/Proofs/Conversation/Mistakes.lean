import Parley.Proofs.Conversation.Blocks
import Parley.Proofs.Conversation.Picture

/-!
# Mistakes of the script

The only mistake that stops a call is an assignment without an expression. It ends the
conversation, and nothing else of the call is done after it; what was assigned before stays. A call
without one does every statement of every code block it selects.

## Implementation notes

A mistake ends the conversation because each statement has the end of its block behind it, and
that the end is reported because a block is only ever run for a dialogue that is active. Both are
kept by every job, so they are told of agendas.
-/

namespace Parley

namespace Turn

/-- An assignment without an expression. -/
def Job.bare (dialogue name : String) : Job :=
  .statement dialogue ⟨.assignment, name, []⟩

/-- A job fails if and only if it is an assignment without an expression. -/
theorem act_eq_error_iff {job : Job} {t : Turn} {fault : ScriptFault} :
    job.act t = .error fault ↔
      ∃ dialogue name, job = .bare dialogue name ∧ fault = .noExpression dialogue name := by
  constructor
  · intro hact
    cases job with
    | statement dialogue s =>
        obtain ⟨kind, name, args⟩ := s
        cases kind with
        | call => cases hact
        | assignment =>
            cases args with
            | nil =>
                cases hact
                exact ⟨dialogue, name, rfl, rfl⟩
            | cons source args => cases hact
    | _ => cases hact
  · rintro ⟨dialogue, name, rfl, rfl⟩
    rfl

/-! ### Statements on an agenda -/

/-- Every statement on the agenda has the end of its block behind it; where there is one, the turn
is as told. -/
def Guarded (P : Turn → Prop) (w : Agenda) : Prop :=
  ∀ dialogue s back, Job.statement dialogue s :: back <:+ w.jobs →
    (∃ slot, Job.endCode slot ∈ back) ∧ P w.turn

variable {P : Turn → Prop} {t u : Turn} {jobs : List Job}

theorem guarded_of_plain (h : Plain jobs) : Guarded P ⟨jobs, t⟩ :=
  fun dialogue s _ hsuffix => absurd (hsuffix.subset List.mem_cons_self) (h dialogue s)

theorem Guarded.behind {job : Job} (h : Guarded P ⟨job :: jobs, t⟩) (hkeep : P t → P u) :
    Guarded P ⟨jobs, u⟩ := by
  intro dialogue s back hsuffix
  obtain ⟨hend, ht⟩ := h dialogue s back (hsuffix.trans (List.suffix_cons job jobs))
  exact ⟨hend, hkeep ht⟩

/-- A dialogue is active. -/
def IsOn (t : Turn) : Prop :=
  t.talk.active ≠ none

/-- Statements arise with the end of their block behind them, and from a dialogue that is active. -/
theorem Arises.guarded {w : Agenda} (h : Arises w) : Guarded IsOn w := by
  cases h with
  | plain hplain => exact guarded_of_plain hplain
  | @block a _ _ rest t hactive _ _ hrest =>
      intro dialogue s back hsuffix
      have hon : t.IsOn := by
        rw [IsOn, hactive]
        exact Option.some_ne_none a
      refine ⟨⟨a.slot, ?_⟩, hon⟩
      -- a suffix that begins with a statement reaches back into the block
      obtain hinside | hbehind :=
        List.suffix_or_suffix_of_suffix hsuffix (List.suffix_append _ (.endCode a.slot :: rest))
      · obtain hstatement | hmem := List.mem_cons.mp (hinside.subset List.mem_cons_self)
        · cases hstatement
        · exact absurd hmem (hrest dialogue s)
      · obtain hsame | hback := List.suffix_cons_iff.mp hbehind
        · cases hsame
        · exact hback.subset List.mem_cons_self

/-! ### The end is reported -/

/-- The events continue some earlier ones, and if the conversation has ended since, then that is
the last of them. -/
structure Reports (past : List Event) (t : Turn) : Prop where
  grown : past <+: t.talk.events
  ended : t.talk.active = none → ∃ added, t.talk.events = past ++ added ++ [.ended]

variable {past : List Event}

/-- No event is lost within a turn. -/
theorem Change.events_grow (h : Change t u) : t.talk.events <+: u.talk.events := by
  cases h with
  | quiet => exact List.prefix_rfl
  | close =>
      change t.talk.events <+: t.talk.close.events
      rw [Conversation.close_events]
      exact List.prefix_append _ _
  | begin => exact List.prefix_append _ _
  | present => exact List.prefix_rfl

theorem Changes.events_grow (h : Changes t u) : t.talk.events <+: u.talk.events := by
  induction h with
  | refl => exact List.prefix_rfl
  | tail _ hlast ih => exact ih.trans hlast.events_grow

theorem Reports.of_isOn (hgrown : past <+: t.talk.events) (h : t.IsOn) : Reports past t :=
  ⟨hgrown, fun hnone => absurd hnone h⟩

theorem Reports.close (h : Reports past t) : Reports past t.close := by
  refine ⟨h.grown.trans (Change.close t).events_grow, fun _ => ?_⟩
  change ∃ added, t.talk.close.events = past ++ added ++ [.ended]
  rw [Conversation.close_events]
  cases hactive : t.talk.active with
  | none =>
      obtain ⟨added, hevents⟩ := h.ended hactive
      exact ⟨added, by simp [Conversation.closingEvents, hactive, hevents]⟩
  | some a =>
      obtain ⟨added, hevents⟩ := h.grown
      exact ⟨added, by simp [Conversation.closingEvents, hactive, hevents]⟩

/-- What is reported stays so, and the end of a conversation is reported as it comes. -/
theorem Reports.change (h : Reports past t) (hchange : Change t u) : Reports past u := by
  have hgrown := h.grown.trans hchange.events_grow
  cases hchange with
  | quiet => exact ⟨hgrown, h.ended⟩
  | close => exact h.close
  | begin => exact .of_isOn hgrown (Option.some_ne_none _)
  | present => exact .of_isOn hgrown (Option.some_ne_none _)

theorem Reports.changes (h : Reports past t) (hchanges : Changes t u) : Reports past u := by
  induction hchanges with
  | refl => exact h
  | tail _ hlast ih => exact ih.change hlast

/-- What the mistakes of a call find: the events so far, and a conversation that is on or whose
end was reported. -/
structure Prepared (past : List Event) (w : Agenda) : Prop where
  grown : past <+: w.turn.talk.events
  guarded : Guarded (Reports past) w

theorem Prepared.of_guarded {w : Agenda} (hgrown : past <+: w.turn.talk.events)
    (h : Guarded IsOn w) : Prepared past w := by
  refine ⟨hgrown, fun dialogue s back hsuffix => ?_⟩
  obtain ⟨hend, hon⟩ := h dialogue s back hsuffix
  exact ⟨hend, .of_isOn hgrown hon⟩

/-- Working off a job keeps the agenda prepared for a mistake. -/
theorem Prepared.next {job : Job} {next : Agenda} (h : Prepared past ⟨job :: jobs, t⟩)
    (hact : job.act t = .ok next) : Prepared past next :=
  .of_guarded (h.grown.trans (changes_act hact).events_grow) (arises_act hact).guarded

theorem Prepared.behind {job : Job} (h : Prepared past ⟨job :: jobs, t⟩)
    (hchanges : Changes t u) : Prepared past ⟨jobs, u⟩ where
  grown := h.grown.trans hchanges.events_grow
  guarded := h.guarded.behind fun ht => ht.changes hchanges

/-! ### What giving up leaves -/

/-- The second turn is the first with its conversation ended, and nothing else done. -/
structure EndedFrom (t u : Turn) : Prop where
  active : u.talk.active = none
  vars : u.talk.vars = t.talk.vars
  events : u.talk.events = t.talk.close.events
  drawn : lastDrawn u.talk.journal = some .cleared

theorem endedFrom_close (t : Turn) : EndedFrom t t.close where
  active := t.talk.close_active
  vars := by simp [close, update, Conversation.close_eq]
  events := rfl
  drawn := t.talk.lastDrawn_close

theorem EndedFrom.abandon (h : EndedFrom t u) (jobs : List Job) :
    EndedFrom t (abandon jobs u) := by
  induction jobs generalizing u with
  | nil => exact h
  | cons job jobs ih =>
      cases job with
      | endCode slot =>
          refine ih ⟨u.talk.close_active, ?_, ?_, u.talk.lastDrawn_close⟩
          · rw [← h.vars, (endedFrom_close u).vars]
          · calc u.talk.close.events
                = u.talk.events ++ u.talk.closingEvents := u.talk.close_events
              _ = t.talk.close.events := by
                  rw [Conversation.closingEvents, h.active, h.events]
                  exact List.append_nil _
      | _ => exact ih h

/-- Giving up where code is going on ends the conversation. -/
theorem endedFrom_abandon (h : ∃ slot, Job.endCode slot ∈ jobs) (t : Turn) :
    EndedFrom t (abandon jobs t) := by
  obtain ⟨slot, hmem⟩ := h
  induction jobs with
  | nil => exact absurd hmem List.not_mem_nil
  | cons job jobs ih =>
      cases job with
      | endCode slot' => exact (endedFrom_close t).abandon jobs
      | _ => exact ih (by simpa using hmem)

/-! ### Calls of the host -/

/-- A call begins prepared, if there is anything to do in it. -/
theorem prepared_opening {c : Conversation} {call : HostCall} (h : (opening c call).jobs ≠ []) :
    Prepared c.events (opening c call) := by
  refine .of_guarded ?_ (arises_opening c call).guarded
  cases call with
  | start key => exact List.prefix_rfl
  | advance selected => exact (changes_step selected (fresh c)).events_grow
  | confirm reading =>
      simp only [opening]
      split
      · exact List.prefix_rfl
      · exact (changes_step reading.selected (fresh c)).events_grow
  | _ => exact absurd rfl h

/-- A mistake in a call is the last thing done, happens in a conversation that is on or whose end
was reported, and leaves the conversation ended. -/
theorem exists_mistake_of_opening {c : Conversation} {call : HostCall} {account : Account}
    {p : Progress Unit} {fault : ScriptFault} (h : Accounts (opening c call) account p)
    (hfault : p.result = .error fault) :
    ∃ deed, account.EndsIn deed fault ∧ Reports c.events deed.turn ∧
      EndedFrom deed.turn p.turn := by
  have hjobs : (opening c call).jobs ≠ [] := by
    intro hnil
    generalize opening c call = w at h hnil
    cases h with
    | done t => cases hfault
    | _ => cases hnil
  apply h.exists_mistake (I := Prepared c.events)
    (R := fun t u => Reports c.events t ∧ EndedFrom t u)
  · exact fun _ _ _ _ hw hact => hw.next hact
  · exact fun _ _ _ _ hw hchanges => hw.behind hchanges
  · intro job jobs t fault hw hact
    obtain ⟨dialogue, name, rfl, -⟩ := act_eq_error_iff.mp hact
    obtain ⟨hend, hreports⟩ := hw.guarded dialogue _ jobs List.suffix_rfl
    exact ⟨hreports, endedFrom_abandon hend t⟩
  · exact fun jobs t u hboth => ⟨hboth.1, hboth.2.abandon jobs⟩
  · exact prepared_opening hjobs
  · exact hfault

end Turn

namespace Conversation

open Turn (Accounts opening outcome act_eq_error_iff exists_mistake_of_opening perform_runs)

/-- A call of the host has one account, which tells of jobs in the order they arise in, and of
statements only within code blocks that the call selects. A mistake stops the call just where the
account tells of an assignment without an expression, and then that is the last thing it tells of;
the conversation is over, which is the last event and the last thing drawn, and the variables are
those the mistake found. Where no mistake stops it, everything on its way is done, the code blocks
among it from their first statement to their last. -/
theorem mistakes_end_conversation (c : Conversation) (call : HostCall) :
    ∃ account p, Accounts (opening c call) account p ∧
      (∀ account' p', Accounts (opening c call) account' p' → account' = account ∧ p' = p) ∧
      p.turn.talk = c.perform call ∧ p.result = outcome c call ∧
      (account.jobs <+: (opening c call).jobs ∧
        (∀ deed ∈ account.deeds, deed.within <+: deed.raised) ∧
        ∀ deed ∈ account.deeds, ∀ dialogue s, deed.job = .statement dialogue s →
          ∃ done slot d statements, account.Block c call done slot d statements ∧
            deed.job ∈ done) ∧
      ((∃ fault, outcome c call = .error fault) ↔
        ∃ deed ∈ account.deeds, ∃ dialogue name, deed.job = .bare dialogue name) ∧
      (∀ before deed after dialogue name, account.deeds = before ++ deed :: after →
        deed.job = .bare dialogue name →
        after = [] ∧ outcome c call = .error (.noExpression dialogue name) ∧
        (c.perform call).active = none ∧
        (∃ added, (c.perform call).events = c.events ++ added ++ [.ended]) ∧
        lastDrawn (c.perform call).journal = some .cleared ∧
        (c.perform call).vars = deed.turn.talk.vars) ∧
      (outcome c call = .ok () →
        account.jobs = (opening c call).jobs ∧ (∀ deed ∈ account.deeds, deed.Whole) ∧
        ∀ done slot d statements, account.Block c call done slot d statements →
          ∃ behind, done = statements.map (.statement d.name) ++ .endCode slot :: behind ∧
            ∀ dialogue s, .statement dialogue s ∉ behind) := by
  obtain ⟨p, hrun, htalk, hresult⟩ := perform_runs c call
  obtain ⟨account, haccount⟩ := hrun.accounts
  have hfound : ∀ deed ∈ account.deeds, ∀ dialogue name, deed.job = .bare dialogue name →
      ∃ fault, p.result = .error fault := by
    intro deed hdeed dialogue name hbare
    cases hend : p.result with
    | error fault => exact ⟨fault, rfl⟩
    | ok u =>
        obtain ⟨next, hact⟩ := ((haccount.whole hend).2 deed hdeed).done
        rw [act_eq_error_iff.mpr ⟨dialogue, name, hbare, rfl⟩] at hact
        cases hact
  refine ⟨account, p, haccount, ?_, htalk, hresult, ?_, ?_, ?_, ?_⟩
  · intro account' p' other
    exact other.deterministic haccount
  · obtain ⟨hjobs, hdeeds⟩ := haccount.in_order
    exact ⟨hjobs, hdeeds, fun deed hdeed dialogue s hjob => haccount.exists_block hdeed hjob⟩
  · rw [← hresult]
    constructor
    · rintro ⟨fault, hfault⟩
      obtain ⟨deed, hlast, -⟩ := exists_mistake_of_opening haccount hfault
      obtain ⟨dialogue, name, hbare, -⟩ := act_eq_error_iff.mp hlast.1
      exact ⟨deed, hlast.mem, dialogue, name, hbare⟩
    · rintro ⟨deed, hdeed, dialogue, name, hbare⟩
      exact hfound deed hdeed dialogue name hbare
  · intro before deed after dialogue name hdeeds hbare
    have hmem : deed ∈ account.deeds := hdeeds ▸ List.mem_append_cons_self
    obtain ⟨fault, hfault⟩ := hfound deed hmem dialogue name hbare
    obtain ⟨last, hlast, hreports, hended⟩ := exists_mistake_of_opening haccount hfault
    have hact : deed.job.act deed.turn = .error (.noExpression dialogue name) :=
      act_eq_error_iff.mpr ⟨dialogue, name, hbare, rfl⟩
    obtain ⟨rfl, rfl⟩ := hlast.eq_of_split hdeeds hact
    have hsame : fault = .noExpression dialogue name := Except.error.inj (hlast.1.symm.trans hact)
    rw [← hresult, ← htalk]
    refine ⟨rfl, hfault.trans (congrArg _ hsame), hended.active, ?_, hended.drawn, hended.vars⟩
    rw [hended.events]
    exact hreports.close.ended deed.turn.talk.close_active
  · intro hok
    have hend := hresult.trans hok
    obtain ⟨hjobs, hwhole⟩ := haccount.whole hend
    exact ⟨hjobs, hwhole, fun _ _ _ _ hblock => haccount.block hend hblock⟩

/-! A command that starts two dialogues, the first of which makes the mistake, and a block that
goes on behind the end of the conversation. -/

def wager : Dialogue :=
  { name := "wager"
    exits := [⟨"", .code [⟨.assignment, "staked", ["true"]⟩, ⟨.assignment, "stake", []⟩,
      ⟨.assignment, "staked", ["false"]⟩]⟩] }

def duel : Dialogue :=
  { name := "duel"
    exits := [⟨"", .code [⟨.call, "dare", []⟩, ⟨.assignment, "over", ["true"]⟩]⟩] }

def hushCode : List Statement :=
  [⟨.call, "leave", []⟩, ⟨.assignment, "over", ["true"]⟩]

def hush : Dialogue :=
  { name := "hush", exits := [⟨"", .code hushCode⟩] }

def duelStore : Store :=
  { name := "duels"
    dialogues := [duel, wager, hush]
    index := ((Std.TreeMap.insert {} "duel" 0).insert "wager" 1).insert "hush" 2
    indexed := ((Store.indexes_nil.insert (d := duel) rfl).insert (d := wager) rfl).insert
      (d := hush) rfl }

def duelTalk : Conversation :=
  (new {} 0).performAll [.addStore duelStore,
    .registerCommand "dare" ⟨[], fun _ vars => ⟨vars, [.start "wager", .start "duel"], none⟩⟩,
    .registerCommand "leave" ⟨[], fun _ vars => ⟨vars, [.finish], none⟩⟩]

theorem wager_without_stake :
    (∃ account p before deed, Accounts (opening duelTalk (.start "duel")) account p ∧
      account.deeds = before ++ [deed] ∧ deed.job = .bare "wager" "stake" ∧
      (duelTalk.perform (.start "duel")).active = none ∧
      (∃ added, (duelTalk.perform (.start "duel")).events = added ++ [.ended]) ∧
      lastDrawn (duelTalk.perform (.start "duel")).journal = some .cleared ∧
      (duelTalk.perform (.start "duel")).vars = deed.turn.talk.vars ∧
      deed.turn.talk.vars.lookup "staked" = some (.bool true) ∧
      deed.turn.talk.vars.lookup "over" = none) ∧
    ∃ account p within behind, Accounts (opening duelTalk (.start "hush")) account p ∧
      account.Block duelTalk (.start "hush") within ⟨0, 2⟩ hush hushCode ∧
      within = hushCode.map (.statement "hush") ++ .endCode ⟨0, 2⟩ :: behind ∧
      (duelTalk.perform (.start "hush")).vars.lookup "over" = some (.bool true) := by
  constructor
  · obtain ⟨account, p, haccount, -, -, -, -, hiff, hmistake, -⟩ :=
      mistakes_end_conversation duelTalk (.start "duel")
    have hfault : outcome duelTalk (.start "duel") = .error (.noExpression "wager" "stake") := rfl
    obtain ⟨deed, hdeed, dialogue, name, hbare⟩ := hiff.mp ⟨_, hfault⟩
    obtain ⟨before, after, hdeeds⟩ := List.append_of_mem hdeed
    obtain ⟨rfl, hsame, hactive, hevents, hdrawn, hvars⟩ :=
      hmistake before deed after dialogue name hdeeds hbare
    cases hfault.symm.trans hsame
    refine ⟨account, p, before, deed, haccount, hdeeds, hbare, hactive, hevents, hdrawn, hvars, ?_⟩
    rw [← hvars]
    decide +kernel
  · obtain ⟨account, p, haccount, -, -, -, -, -, -, hwhole⟩ :=
      mistakes_end_conversation duelTalk (.start "hush")
    obtain ⟨within, hfirst⟩ : ∃ within, ⟨.hop "hush" false,
        ⟨duelTalk, duelTalk.config.maxRedirects + 1⟩, within⟩ ∈ account.deeds := by
      cases haccount <;> exact ⟨_, List.mem_cons_self⟩
    have hblock : account.Block duelTalk (.start "hush") within ⟨0, 2⟩ hush hushCode :=
      .entered hfirst ⟨by decide, rfl, rfl⟩ ⟨rfl, rfl⟩
    have hok : outcome duelTalk (.start "hush") = .ok () := by
      have hgood : (outcome duelTalk (.start "hush")).isOk = true := by decide +kernel
      cases hend : outcome duelTalk (.start "hush") with
      | ok u => rfl
      | error fault =>
          rw [hend] at hgood
          cases hgood
    obtain ⟨behind, hwithin, -⟩ := (hwhole hok).2.2 _ _ _ _ hblock
    exact ⟨account, p, within, behind, haccount, hblock, hwithin, by decide +kernel⟩

end Conversation

end Parley
