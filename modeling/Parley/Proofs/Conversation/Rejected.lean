import Parley.Proofs.Conversation.Assignment
import Parley.Proofs.Conversation.Past

/-!
# Statements that are rejected

A call that the command table refuses runs no handler, and an assignment whose expression comes to
nothing sets no variable. Either of them leaves a notice and nothing else, so that a block of code
does what it does without the statement. A handler that fails has run already: its variables stay,
nothing it asked for is done, and the block goes on.
-/

namespace Parley

/-! ### Refused calls -/

/-- A reason why a call can be refused, while no handler has run. -/
def CommandError.IsRefusal : CommandError → Prop
  | .failed _ => False
  | _ => True

namespace Command

variable {name : String} {env : Environment} {error : CommandError}

/-- A call is refused, and its handler not asked, where an argument cannot be had. -/
theorem isRefusal_of_argument {index : Nat} {kind : ParamKind} {source : String}
    (h : argument name index kind env source = .error error) : error.IsRefusal := by
  unfold argument at h
  split at h
  · cases h
    trivial
  · split at h
    · cases h
    · cases h
      trivial

theorem isRefusal_of_argumentsFrom {found index : Nat} {params : List Param}
    {sources : List String} (h : argumentsFrom name env found index params sources = .error error) :
    error.IsRefusal := by
  have hrest : ∀ {rest : Except CommandError (List Argument)} {arg : Argument},
      rest.map (arg :: ·) = .error error → rest = .error error := by
    rintro (cause | args) arg hmap <;> cases hmap
    rfl
  induction params generalizing index sources with
  | nil => cases h
  | cons p ps ih =>
      cases sources with
      | cons source sources =>
          simp only [argumentsFrom] at h
          cases harg : argument name index p.kind env source with
          | error cause =>
              rw [harg] at h
              cases h
              exact isRefusal_of_argument harg
          | ok arg =>
              rw [harg] at h
              exact ih (hrest h)
      | nil =>
          simp only [argumentsFrom] at h
          cases hdefault : p.default with
          | none =>
              rw [hdefault] at h
              cases h
              trivial
          | some arg =>
              rw [hdefault] at h
              exact ih (hrest h)

theorem isRefusal_of_arguments {c : Command} {sources : List String}
    (h : c.arguments name sources env = .error error) : error.IsRefusal := by
  simp only [arguments] at h
  split at h
  · cases h
    trivial
  · split at h
    · cases h
      trivial
    · exact isRefusal_of_argumentsFrom h

/-- The arguments are settled by what the command declares. -/
theorem arguments_congr {c other : Command} (h : other.params = c.params) (name : String)
    (sources : List String) (env : Environment) :
    other.arguments name sources env = c.arguments name sources env := by
  obtain ⟨params, handler⟩ := other
  subst h
  rfl

end Command

namespace CommandTable

variable {table other : CommandTable} {name : String} {sources : List String} {vars : Variables}
  {error : CommandError}

/-- Another table declares the same commands; their handlers may do anything. -/
def SameParams (table other : CommandTable) : Prop :=
  ∀ name, (other.find? name).map Command.params = (table.find? name).map Command.params

/-- A call is refused for a reason that lies in the call. -/
theorem isRefusal_of_call (h : table.call name sources vars = .refused error) :
    error.IsRefusal := by
  unfold call at h
  split at h
  · cases h
    trivial
  · next c _ =>
      split at h
      · next cause harguments =>
          cases h
          exact Command.isRefusal_of_arguments harguments
      · cases h

/-- No handler has a say in a refusal. -/
theorem SameParams.call_refused (hsame : table.SameParams other)
    (h : table.call name sources vars = .refused error) :
    other.call name sources vars = .refused error := by
  have hname := hsame name
  unfold call at h ⊢
  cases hfind : table.find? name with
  | none =>
      rw [hfind, Option.map_none, Option.map_eq_none_iff] at hname
      rw [hfind] at h
      rw [hname]
      exact h
  | some c =>
      rw [hfind, Option.map_some, Option.map_eq_some_iff] at hname
      obtain ⟨d, hd, hparams⟩ := hname
      rw [hfind] at h
      rw [hd]
      simp only [Command.arguments_congr hparams] at h ⊢
      cases harguments : c.arguments name sources vars.lookup with
      | error cause =>
          rw [harguments] at h
          exact h
      | ok args =>
          rw [harguments] at h
          cases h

end CommandTable

/-! ### What is left but for the notices -/

def Act.isNotice : Act → Bool
  | .noticed _ => true
  | _ => false

/-- The acts without the notices. -/
def unnoticed (acts : List Act) : List Act :=
  acts.filter fun act => !act.isNotice

def Conversation.unnoticed (c : Conversation) : Conversation :=
  { c with journal := Parley.unnoticed c.journal }

def Turn.unnoticed (t : Turn) : Turn :=
  ⟨t.talk.unnoticed, t.hops⟩

/-- All that a turn came to, but for the notices in its journal. -/
def Progress.unnoticed {α : Type} (p : Progress α) : Progress α :=
  ⟨p.turn.unnoticed, p.result⟩

theorem Conversation.unnoticed_note (c : Conversation) (n : Notice) :
    (c.note n).unnoticed = c.unnoticed := by
  simp [Conversation.unnoticed, Parley.unnoticed, note, record, Act.isNotice]

namespace Turn

/-- What does not look at the journal does not look at the notices in it. -/
theorem unnoticed_congr {α : Type} {f : Turn → Progress α} {t u : Turn}
    (hf : ∀ past t, f (t.behind past) = (f t).behind past) (h : t.unnoticed = u.unnoticed) :
    (f t).unnoticed = (f u).unnoticed := by
  have hbehind : ∀ (past : List Act) (p : Progress α), (p.behind past).unnoticed =
      p.unnoticed.behind (Parley.unnoticed past) := by
    intro past p
    simp [Progress.unnoticed, Progress.behind, Turn.unnoticed, Turn.behind,
      Conversation.unnoticed, Conversation.behind, Parley.unnoticed]
  -- Both turns are one and the same turn with nothing done yet, behind what each has done.
  obtain ⟨⟨config, stream, stores, vars, commands, seen, events, active, past⟩, hops⟩ := t
  obtain ⟨⟨_, _, _, _, _, _, _, _, other⟩, _⟩ := u
  simp only [Turn.unnoticed, Conversation.unnoticed, Turn.mk.injEq, Conversation.mk.injEq] at h
  obtain ⟨⟨rfl, rfl, rfl, rfl, rfl, rfl, rfl, rfl, hjournal⟩, rfl⟩ := h
  have hpast : ∀ acts, (⟨⟨config, stream, stores, vars, commands, seen, events, active, acts⟩,
      hops⟩ : Turn) =
      behind acts ⟨⟨config, stream, stores, vars, commands, seen, events, active, []⟩, hops⟩ := by
    intro acts
    simp [behind, Conversation.behind]
  rw [hpast past, hpast other, hf, hf, hbehind, hbehind, hjournal]

end Turn

/-! ### Rejected statements -/

/-- A call that is refused, or an assignment whose expression cannot be read, or comes to no value,
or to one that no variable of a script can have. -/
inductive Statement.IsRejected (c : Conversation) : Statement → Prop where
  | call {name : String} {sources : List String} {error : CommandError} :
      c.commands.call name sources c.vars = .refused error → IsRejected c ⟨.call, name, sources⟩
  | assignment {name source : String} {more : List String} :
      (∀ e v, Expr.parse source = .ok e → e.evaluate c.vars.lookup = .ok v →
        v.toNumber? = none) → IsRejected c ⟨.assignment, name, source :: more⟩

namespace Turn

variable (hop : Hop) (dialogue : String) {t u : Turn} {s : Statement}

/-- A call that is refused writes down why, and changes nothing else. -/
theorem call_of_refused {name : String} {sources : List String} {error : CommandError}
    (h : t.talk.commands.call name sources t.talk.vars = .refused error) :
    execute hop dialogue ⟨.call, name, sources⟩ t =
      (t.update fun c => c.note (.commandFailed error)).done := by
  simp only [execute, call, h]

/-- A handler that fails is heard as far as the variables go. -/
theorem call_of_failure {name : String} {sources : List String} {args : List Argument}
    {reply : Reply} {error : CommandError}
    (h : t.talk.commands.call name sources t.talk.vars = .handled args reply)
    (hfailure : reply.failure = some error) :
    execute hop dialogue ⟨.call, name, sources⟩ t =
      (t.update fun c => { c with vars := reply.vars }.record
        [.ran name args, .noticed (.commandFailed error)]).done := by
  simp [execute, call, h, hfailure, update, Conversation.note, Conversation.record]

/-- So does a statement that is rejected, of either kind. -/
theorem execute_of_isRejected (h : s.IsRejected t.talk) :
    ∃ n, execute hop dialogue s t = (t.update fun c => c.note n).done := by
  cases h with
  | call hrefused => exact ⟨_, call_of_refused hop dialogue hrefused⟩
  | @assignment name source more hnothing =>
      obtain ⟨cause, hcause⟩ : ∃ cause,
          (Expr.parse source).bind (assignedValue t.talk.vars.lookup) = .error cause := by
        cases hparse : Expr.parse source with
        | error cause => exact ⟨cause, rfl⟩
        | ok e => exact assignedValue_error (hnothing e · hparse)
      refine ⟨.assignmentSkipped cause, ?_⟩
      simp only [execute, update, assign, hcause]

/-! ### Blocks -/

variable {hop dialogue} {before : List Statement}

/-- A block goes on behind statements that are done. -/
theorem executeAll_append (after : List Statement)
    (h : executeAll hop dialogue before t = u.done) :
    executeAll hop dialogue (before ++ after) t = executeAll hop dialogue after u := by
  induction before generalizing t with
  | nil =>
      cases h
      rfl
  | cons s before ih =>
      simp only [executeAll, List.cons_append] at h ⊢
      generalize execute hop dialogue s t = next at h ⊢
      obtain ⟨w, fault | done⟩ := next
      · cases h
      · exact ih h

/-- A block does not go on behind a mistake. -/
theorem executeAll_append_of_fault {fault : ScriptFault} (after : List Statement)
    (h : executeAll hop dialogue before t = ⟨u, .error fault⟩) :
    executeAll hop dialogue (before ++ after) t = ⟨u, .error fault⟩ := by
  induction before generalizing t with
  | nil => cases h
  | cons s before ih =>
      simp only [executeAll, List.cons_append] at h ⊢
      generalize execute hop dialogue s t = next at h ⊢
      obtain ⟨w, cause | done⟩ := next
      · exact h
      · exact ih h

theorem executeAll_cons_of_done {after : List Statement} (h : execute hop dialogue s t = u.done) :
    executeAll hop dialogue (s :: after) t = executeAll hop dialogue after u := by
  simp only [executeAll, h, done]

/-- A rejected statement is passed over, wherever it stands in the block. -/
theorem runCode_of_isRejected (hhop : Forgets hop) (slot : Slot) (after : List Statement)
    (h : ∀ u : Turn, executeAll hop dialogue before t = u.done → s.IsRejected u.talk) :
    (runCode hop slot dialogue (before ++ s :: after) t).unnoticed =
      (runCode hop slot dialogue (before ++ after) t).unnoticed := by
  rcases hbefore : executeAll hop dialogue before t with ⟨u, fault | answer⟩
  case error => simp only [runCode, executeAll_append_of_fault _ hbefore]
  case ok =>
      obtain ⟨n, hs⟩ := execute_of_isRejected hop dialogue (h u hbefore)
      calc
        (runCode hop slot dialogue (before ++ s :: after) t).unnoticed
            = (runCode hop slot dialogue after (u.update fun c => c.note n)).unnoticed := by
          simp only [runCode, executeAll_append _ hbefore, executeAll_cons_of_done hs]
        _ = (runCode hop slot dialogue after u).unnoticed := by
          apply unnoticed_congr fun past w => behind_runCode past w hhop slot dialogue after
          simp only [Turn.unnoticed, update, Conversation.unnoticed_note]
        _ = (runCode hop slot dialogue (before ++ after) t).unnoticed := by
          simp only [runCode, executeAll_append _ hbefore]

/-- A refused call runs no handler and leaves a notice only, whatever the handlers are. A block goes
as it does without a statement that is rejected where it stands. Where a handler fails, its
variables are kept, its requests are not, and what stands behind the call is run. -/
theorem rejected_passed_over :
    (∀ (table : CommandTable) (name : String) (sources : List String) (vars : Variables)
      (error : CommandError), table.call name sources vars = .refused error →
      error.IsRefusal ∧
      (∀ other, table.SameParams other → other.call name sources vars = .refused error) ∧
      ∀ (hop : Hop) (dialogue : String) (t : Turn), t.talk.commands = table → t.talk.vars = vars →
        execute hop dialogue ⟨.call, name, sources⟩ t =
          (t.update fun c => c.note (.commandFailed error)).done) ∧
    (∀ (depth : Nat) (slot : Slot) (dialogue : String) (before after : List Statement)
      (s : Statement) (t : Turn),
      (∀ u : Turn, executeAll (follow depth) dialogue before t = u.done →
        s.IsRejected u.talk) →
      (runCode (follow depth) slot dialogue (before ++ s :: after) t).unnoticed =
        (runCode (follow depth) slot dialogue (before ++ after) t).unnoticed) ∧
    ∀ (depth : Nat) (slot : Slot) (dialogue name : String) (before after : List Statement)
      (sources : List String) (t u : Turn) (args : List Argument) (reply : Reply)
      (error : CommandError), executeAll (follow depth) dialogue before t = u.done →
      u.talk.commands.call name sources u.talk.vars = .handled args reply →
      reply.failure = some error →
      runCode (follow depth) slot dialogue (before ++ ⟨.call, name, sources⟩ :: after) t =
        runCode (follow depth) slot dialogue after
          (u.update fun c => { c with vars := reply.vars }.record
            [.ran name args, .noticed (.commandFailed error)]) := by
  refine ⟨?_, ?_, ?_⟩
  · intro table name sources vars error hrefused
    refine ⟨CommandTable.isRefusal_of_call hrefused, fun other h => h.call_refused hrefused, ?_⟩
    rintro hop dialogue t rfl rfl
    exact call_of_refused hop dialogue hrefused
  · intro depth slot dialogue before after s t h
    exact runCode_of_isRejected (follow_forgets depth) slot after h
  · intro depth slot dialogue name before after sources t u args reply error hbefore hcall hfailure
    have hs := call_of_failure (follow depth) dialogue hcall hfailure
    simp only [runCode, executeAll_append _ hbefore, executeAll_cons_of_done hs]

end Turn

/-! ### A market -/

namespace Conversation

/-- Paying takes a text, sets a variable and asks for the end of the conversation, but fails. -/
def payCommand : Command :=
  { params := [{ name := "coin", kind := .string }]
    handler := fun _ vars =>
      { vars := vars.set "paid" (.bool true)
        requests := [.finish]
        failure := some (.failed "no coins") } }

def marketTurn : Turn :=
  Turn.fresh { new {} 0 with commands := CommandTable.register {} "pay" payCommand }

/-- A text is taken for a coin, and no other literal is. -/
theorem market_call {source : String} {v : Value} (h : Expr.parse source = .ok (.literal v))
    (vars : Variables) :
    marketTurn.talk.commands.call "pay" [source] vars =
      match ParamKind.string.coerce? v with
      | some coin => .handled [coin] (payCommand.handler [coin] vars)
      | none => .refused (.argumentType "pay" 0 .string v.dataType) := by
  have hfind : marketTurn.talk.commands.find? "pay" = some payCommand := rfl
  have harguments : payCommand.arguments "pay" [source] vars.lookup =
      (Command.argument "pay" 0 .string vars.lookup source).map ([·]) := by
    change Command.argumentsFrom "pay" vars.lookup 1 0 payCommand.params [source] = _
    rw [payCommand, Command.argumentsFrom]
    cases Command.argument "pay" 0 .string vars.lookup source <;> rfl
  have hargument : Command.argument "pay" 0 .string vars.lookup source =
      match ParamKind.string.coerce? v with
      | some coin => .ok coin
      | none => .error (.argumentType "pay" 0 .string v.dataType) := by
    rw [Command.argument, h]
    rfl
  simp only [CommandTable.call, hfind, harguments, hargument]
  cases ParamKind.string.coerce? v <;> rfl

theorem payment_refused (vars : Variables) :
    marketTurn.talk.commands.call "pay" ["true"] vars =
      .refused (.argumentType "pay" 0 .string .bool) :=
  market_call (v := .bool true) (Expr.parse_of_toOption (by decide +kernel)) vars

theorem payment_handled (vars : Variables) :
    marketTurn.talk.commands.call "pay" ["'copper'"] vars =
      .handled [.string "copper"] (payCommand.handler [.string "copper"] vars) :=
  market_call (v := .string "copper") (Expr.parse_of_toOption (by decide +kernel)) vars

theorem commands_assign (c : Conversation) (name source : String) :
    (Turn.assign c name source).commands = c.commands := by
  simp only [Turn.assign]
  split <;> rfl

/-- A payment of the wrong kind between two assignments, and one that fails. -/
theorem payments_passed_over :
    (∀ hop, Turn.execute hop "stall" (.call "pay" ["true"]) marketTurn =
      (marketTurn.update fun c =>
        c.note (.commandFailed (.argumentType "pay" 0 .string .bool))).done) ∧
    (Turn.runCode (Turn.follow 8) ⟨0, 0⟩ "stall"
        ([.assign "price" "2"] ++ .call "pay" ["true"] :: [.assign "left" "price"])
        marketTurn).unnoticed =
      (Turn.runCode (Turn.follow 8) ⟨0, 0⟩ "stall"
        ([.assign "price" "2"] ++ [.assign "left" "price"]) marketTurn).unnoticed ∧
    Turn.runCode (Turn.follow 8) ⟨0, 0⟩ "stall"
        ([] ++ .call "pay" ["'copper'"] :: [.assign "left" "1"]) marketTurn =
      Turn.runCode (Turn.follow 8) ⟨0, 0⟩ "stall" [.assign "left" "1"]
        (marketTurn.update fun c => { c with vars := c.vars.set "paid" (.bool true) }.record
          [.ran "pay" [.string "copper"], .noticed (.commandFailed (.failed "no coins"))]) := by
  obtain ⟨hrefused, hrejected, hfailed⟩ := Turn.rejected_passed_over
  refine ⟨?_, ?_, ?_⟩
  · intro hop
    obtain ⟨-, -, hnotice⟩ := hrefused _ _ _ _ _ (payment_refused marketTurn.talk.vars)
    exact hnotice hop "stall" marketTurn rfl rfl
  · refine hrejected 8 ⟨0, 0⟩ "stall" [.assign "price" "2"] [.assign "left" "price"]
      (.call "pay" ["true"]) marketTurn fun u hu => ?_
    have hprice : u = marketTurn.update fun c => Turn.assign c "price" "2" :=
      (congrArg Progress.turn hu).symm
    have hcommands : u.talk.commands = marketTurn.talk.commands := by
      rw [hprice]
      exact commands_assign marketTurn.talk "price" "2"
    apply Statement.IsRejected.call
    rw [hcommands]
    exact payment_refused u.talk.vars
  · exact hfailed 8 ⟨0, 0⟩ "stall" "pay" [] [.assign "left" "1"] ["'copper'"] marketTurn marketTurn
      [.string "copper"] (payCommand.handler [.string "copper"] marketTurn.talk.vars)
      (.failed "no coins") rfl (payment_handled marketTurn.talk.vars) rfl

end Conversation

end Parley
