import Parley.Proofs.Conversation.Account
import Parley.Proofs.Conversation.Arising

/-!
# Code blocks in an account

Every statement that an account tells of stands in a block of code that the call selects. Where no
mistake stops the call, every selected block is told from its first statement to its last.
-/

namespace Parley

/-- The calls that may run code: those that go on from the element on show. -/
def HostCall.goesOn : HostCall → Bool
  | .advance _ => true
  | .confirm reading => !reading.revealing
  | _ => false

namespace Turn

/-- The code blocks that a call selects, with the jobs done where each is run: the block of the
dialogue that the call goes on with, and the blocks of the dialogues without elements that a hop
within the call enters. -/
inductive Account.Block (c : Conversation) (call : HostCall) (account : Account) :
    List Job → Slot → Dialogue → List Statement → Prop
  | left {a : Active} {d : Dialogue} {statements : List Statement} (hcall : call.goesOn = true)
      (hon : (fresh c).Proceeds a d) (hselects : (fresh c).Selects a d statements) :
      Block c call account account.jobs a.slot d statements
  | entered {t : Turn} {within : List Job} {key : String} {exit : Bool} {slot : Slot}
      {d : Dialogue} {statements : List Statement}
      (hdeed : ⟨.hop key exit, t, within⟩ ∈ account.deeds) (henters : t.Enters key slot d)
      (hselects : t.Selects ⟨slot, key, none⟩ d statements) :
      Block c call account within slot d statements

variable {c : Conversation} {call : HostCall} {account : Account} {p : Progress Unit}
variable {dialogue : String} {s : Statement}

/-- Such a call opens with a step. -/
theorem opening_of_goesOn (h : call.goesOn = true) :
    ∃ selected, opening c call = stepAgenda selected (fresh c) := by
  cases call with
  | advance selected => exact ⟨selected, rfl⟩
  | confirm reading =>
      have hrevealed : reading.revealing = false := by simpa [HostCall.goesOn] using h
      refine ⟨reading.selected, ?_⟩
      simp only [opening, hrevealed, Bool.false_eq_true, if_false]
  | _ => cases h

theorem goesOn_of_mem_opening (h : Job.statement dialogue s ∈ (opening c call).jobs) :
    call.goesOn = true := by
  cases call with
  | start key => simp [opening] at h
  | advance selected => rfl
  | confirm reading =>
      simp only [opening] at h
      split at h
      · simp at h
      · next hrevealed => simpa [HostCall.goesOn] using hrevealed
  | _ => simp [opening] at h

/-- Every statement that is done stands in a block that the call selects. -/
theorem Accounts.exists_block (h : Accounts (opening c call) account p) {deed : Deed}
    (hdeed : deed ∈ account.deeds) (hjob : deed.job = .statement dialogue s) :
    ∃ done slot d statements, account.Block c call done slot d statements ∧ deed.job ∈ done := by
  obtain ⟨hjobs, hdeeds⟩ := h.in_order
  obtain hmem | ⟨outer, houter, hmem⟩ := Account.job_mem hdeed
  · have hopening : Job.statement dialogue s ∈ (opening c call).jobs := hjob ▸ hjobs.subset hmem
    have hcall := goesOn_of_mem_opening hopening
    obtain ⟨selected, hstep⟩ := opening_of_goesOn (c := c) hcall
    rw [hstep] at hopening
    obtain ⟨a, d, statements, hon, hselects⟩ := selects_of_mem_step hopening
    exact ⟨_, _, _, _, .left hcall hon hselects, hmem⟩
  · have hraised : Job.statement dialogue s ∈ outer.raised :=
      hjob ▸ (hdeeds outer houter).subset hmem
    obtain ⟨job, t, within⟩ := outer
    cases job with
    | hop key exit =>
        obtain ⟨slot, d, statements, henters, hselects⟩ := selects_of_mem_hop hraised
        exact ⟨_, _, _, _, .entered houter henters hselects, hmem⟩
    | statement dialogue' s' =>
        cases hact : statementAgenda dialogue' s' t with
        | error fault =>
            simp only [Deed.raised, Job.act, hact] at hraised
            cases hraised
        | ok next =>
            simp only [Deed.raised, Job.act, hact] at hraised
            exact absurd hraised (plain_statement hact dialogue s)
    | _ => cases hraised

/-- Where no mistake stops the call, every selected block is run from its first statement to its
last, and nothing but the end of the block is done behind them. -/
theorem Accounts.block (h : Accounts (opening c call) account p) (hok : p.result = .ok ())
    {done : List Job} {slot : Slot} {d : Dialogue} {statements : List Statement}
    (hblock : account.Block c call done slot d statements) :
    ∃ behind, done = statements.map (.statement d.name) ++ .endCode slot :: behind ∧
      Plain behind := by
  obtain ⟨hjobs, hdeeds⟩ := h.whole hok
  cases hblock with
  | left hcall hon hselects =>
      obtain ⟨selected, hstep⟩ := opening_of_goesOn (c := c) hcall
      obtain ⟨acts, hagenda⟩ := proceedAgenda_of_selects hselects
      refine ⟨[], ?_, by simp [Plain]⟩
      rw [hjobs, hstep, stepAgenda_of_proceeds hon, hagenda]
  | @entered t within key exit _ _ _ hdeed henters hselects =>
      obtain ⟨hops, acts, hagenda⟩ := hopAgenda_of_selects exit henters hselects
      refine ⟨[.land exit], ?_, by simp [Plain]⟩
      calc done
          = (hopAgenda key exit t).jobs := (hdeeds _ hdeed).within
        _ = statements.map (.statement d.name) ++ .endCode slot :: [.land exit] :=
            congrArg Agenda.jobs hagenda

end Turn

end Parley
