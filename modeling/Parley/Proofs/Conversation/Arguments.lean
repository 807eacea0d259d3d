import Parley.Proofs.Conversation.Assignment

/-!
# Arguments of a call

A command may declare defaults for any of its parameters, also for some in front of others that
have none. A call is handled exactly where what it leaves out has a default and what it gives is of
the declared kind; the handler then gets an argument for every parameter.
-/

namespace Parley

/-! ### Kinds -/

/-- The type of the values that are taken for a parameter. -/
def ParamKind.valueType : ParamKind → DataType
  | .bool => .bool
  | .float | .int => .number
  | .string => .string

/-- The kind that an argument is of. -/
def Argument.kind : Argument → ParamKind
  | .bool _ => .bool
  | .float _ => .float
  | .int _ => .int
  | .string _ => .string

/-- A value can be had as an argument if and only if it has the type of the kind. -/
theorem ParamKind.exists_coerce?_iff {kind : ParamKind} {v : Value} :
    (∃ arg, kind.coerce? v = some arg) ↔ v.dataType = kind.valueType := by
  cases kind <;> cases v <;> simp [coerce?, valueType, Value.dataType]

theorem ParamKind.kind_of_coerce? {kind : ParamKind} {v : Value} {arg : Argument}
    (h : kind.coerce? v = some arg) : arg.kind = kind := by
  cases kind <;> cases v <;> cases h <;> rfl

namespace Command

variable {name : String} {env : Environment} {params : List Param} {sources : List String}
  {args : List Argument}

/-! ### One argument -/

/-- The source can be parsed and has a value. -/
def ComesTo (env : Environment) (source : String) (v : Value) : Prop :=
  ∃ e, Expr.parse source = .ok e ∧ e.evaluate env = .ok v

/-- An argument is had from a source that comes to a value of the right kind, and from no other. -/
theorem argument_eq_ok_iff {index : Nat} {kind : ParamKind} {source : String} {arg : Argument} :
    argument name index kind env source = .ok arg ↔
      ∃ v, ComesTo env source v ∧ kind.coerce? v = some arg := by
  unfold argument ComesTo
  cases hparse : Expr.parse source with
  | error cause => simp [Except.bind]
  | ok e =>
      cases heval : e.evaluate env with
      | error cause => simp [Except.bind, heval]
      | ok v => cases hcoerce : kind.coerce? v <;> simp [Except.bind, heval, hcoerce]

/-! ### All arguments -/

/-- Sources supply the parameters with arguments: the parameters in front with what the sources
come to, and those that no source is left for with their defaults. -/
inductive Supplied (env : Environment) : List Param → List String → List Argument → Prop where
  | nil : Supplied env [] [] []
  | given {p : Param} {params : List Param} {source : String} {sources : List String} {v : Value}
      {arg : Argument} {args : List Argument} :
      ComesTo env source v → p.kind.coerce? v = some arg → Supplied env params sources args →
      Supplied env (p :: params) (source :: sources) (arg :: args)
  | omitted {p : Param} {params : List Param} {arg : Argument} {args : List Argument} :
      p.default = some arg → Supplied env params [] args →
      Supplied env (p :: params) [] (arg :: args)

namespace Supplied

/-- There is one argument for each parameter. -/
theorem length_eq (h : Supplied env params sources args) : args.length = params.length := by
  induction h with
  | nil => rfl
  | given _ _ _ ih | omitted _ _ ih => simp [ih]

theorem length_le (h : Supplied env params sources args) : sources.length ≤ params.length := by
  induction h with
  | nil => exact Nat.le_refl 0
  | given _ _ _ ih => exact Nat.succ_le_succ ih
  | omitted _ _ _ => exact Nat.zero_le _

/-- A parameter without a default is never left out, wherever it stands. -/
theorem length_takeWhile_le (h : Supplied env params sources args) :
    (params.takeWhile fun p => p.default.isNone).length ≤ sources.length := by
  induction h with
  | nil => exact Nat.le_refl 0
  | @given p _ _ _ _ _ _ _ _ _ ih =>
      rw [List.takeWhile_cons]
      split
      · exact Nat.succ_le_succ ih
      · exact Nat.zero_le _
  | omitted hdefault _ _ => simp [hdefault]

/-- Where there is a source, the argument is its value. -/
theorem given_at (h : Supplied env params sources args) {i : Nat} {p : Param} {source : String}
    {arg : Argument} (hp : params[i]? = some p) (hsource : sources[i]? = some source)
    (harg : args[i]? = some arg) : ∃ v, ComesTo env source v ∧ p.kind.coerce? v = some arg := by
  induction h generalizing i with
  | nil => cases hp
  | given hvalue hcoerce _ ih =>
      cases i with
      | zero =>
          cases hp
          cases hsource
          cases harg
          exact ⟨_, hvalue, hcoerce⟩
      | succ i => exact ih hp hsource harg
  | omitted => cases hsource

/-- Where there is none, it is the default. -/
theorem omitted_at (h : Supplied env params sources args) {j : Nat} {p : Param}
    (hp : params[j]? = some p) (hj : sources.length ≤ j) :
    p.default.isSome ∧ args[j]? = p.default := by
  induction h generalizing j with
  | nil => cases hp
  | given _ _ _ ih =>
      obtain ⟨j, rfl⟩ := Nat.exists_eq_add_one_of_ne_zero (Nat.ne_zero_of_lt hj)
      exact ih hp (Nat.le_of_succ_le_succ hj)
  | omitted hdefault _ ih =>
      cases j with
      | zero =>
          cases hp
          exact ⟨Option.isSome_of_eq_some hdefault, hdefault.symm⟩
      | succ j => exact ih hp (Nat.zero_le j)

end Supplied

/-- The arguments that a call gives and leaves out can be supplied one by one. -/
theorem exists_supplied (hlength : sources.length ≤ params.length)
    (hdefault : ∀ (j : Nat) (p : Param), params[j]? = some p → sources.length ≤ j →
      p.default.isSome)
    (hgiven : ∀ (i : Nat) (p : Param) (source : String), params[i]? = some p →
      sources[i]? = some source → ∃ v, ComesTo env source v ∧ v.dataType = p.kind.valueType) :
    ∃ args, Supplied env params sources args := by
  induction params generalizing sources with
  | nil =>
      rw [List.eq_nil_of_length_eq_zero (Nat.le_zero.mp hlength)]
      exact ⟨[], .nil⟩
  | cons p params ih =>
      cases sources with
      | nil =>
          obtain ⟨arg, harg⟩ := Option.isSome_iff_exists.mp (hdefault 0 p rfl (Nat.le_refl 0))
          have hnone : ([] : List String).length ≤ params.length := Nat.zero_le _
          obtain ⟨args, hargs⟩ := ih hnone
            (fun j q hq _ => hdefault (j + 1) q hq (Nat.zero_le _)) (fun _ _ _ _ => nofun)
          exact ⟨arg :: args, .omitted harg hargs⟩
      | cons source sources =>
          obtain ⟨v, hv, htype⟩ := hgiven 0 p source rfl rfl
          obtain ⟨arg, harg⟩ := ParamKind.exists_coerce?_iff.mpr htype
          obtain ⟨args, hargs⟩ := ih (Nat.le_of_succ_le_succ hlength)
            (fun j q hq hj => hdefault (j + 1) q hq (Nat.succ_le_succ hj))
            (fun i q more hq hmore => hgiven (i + 1) q more hq hmore)
          exact ⟨arg :: args, .given hv harg hargs⟩

theorem map_cons_eq_ok_iff {rest : Except CommandError (List Argument)} {arg : Argument} :
    rest.map (arg :: ·) = .ok args ↔ ∃ more, rest = .ok more ∧ args = arg :: more := by
  cases rest <;> simp [Except.map, eq_comm]

/-- The reader gives just the arguments that are supplied. -/
theorem argumentsFrom_eq_ok_iff {found index : Nat} (hlength : sources.length ≤ params.length) :
    argumentsFrom name env found index params sources = .ok args ↔
      Supplied env params sources args := by
  induction params generalizing index sources args with
  | nil =>
      rw [List.eq_nil_of_length_eq_zero (Nat.le_zero.mp hlength), argumentsFrom, Except.ok.injEq]
      constructor
      · rintro rfl
        exact .nil
      · rintro ⟨⟩
        rfl
  | cons p params ih =>
      cases sources with
      | nil =>
          have hrest : ([] : List String).length ≤ params.length := Nat.zero_le _
          simp only [argumentsFrom]
          constructor
          · intro h
            cases hdefault : p.default with
            | none => simp [hdefault] at h
            | some arg =>
                simp only [hdefault, map_cons_eq_ok_iff, ih hrest] at h
                obtain ⟨more, hmore, rfl⟩ := h
                exact .omitted hdefault hmore
          · rintro (_ | _ | ⟨hdefault, hmore⟩)
            simp only [hdefault, map_cons_eq_ok_iff, ih hrest]
            exact ⟨_, hmore, rfl⟩
      | cons source sources =>
          have hrest := Nat.le_of_succ_le_succ hlength
          simp only [argumentsFrom]
          constructor
          · intro h
            cases harg : argument name index p.kind env source with
            | error cause => simp [harg] at h
            | ok arg =>
                simp only [harg, map_cons_eq_ok_iff, ih hrest] at h
                obtain ⟨more, hmore, rfl⟩ := h
                obtain ⟨v, hv, hcoerce⟩ := argument_eq_ok_iff.mp harg
                exact .given hv hcoerce hmore
          · rintro (_ | ⟨hv, hcoerce, hmore⟩)
            simp only [argument_eq_ok_iff.mpr ⟨_, hv, hcoerce⟩, map_cons_eq_ok_iff, ih hrest]
            exact ⟨_, hmore, rfl⟩

/-- The check of the least number of arguments stands in front of the others, but says no more. -/
theorem arguments_eq_ok_iff {c : Command} :
    c.arguments name sources env = .ok args ↔ Supplied env c.params sources args := by
  simp only [arguments]
  constructor
  · intro h
    split at h
    · cases h
    · split at h
      · cases h
      · next hmost => exact (argumentsFrom_eq_ok_iff (Nat.le_of_not_lt hmost)).mp h
  · intro h
    have hleast : ¬ sources.length < c.required := Nat.not_lt.mpr h.length_takeWhile_le
    rw [if_neg hleast, if_neg (Nat.not_lt.mpr h.length_le)]
    exact (argumentsFrom_eq_ok_iff h.length_le).mpr h

end Command

namespace CommandTable

open Command (ComesTo Supplied)

variable {table : CommandTable} {name : String} {c : Command}

/-- A handler runs on what is supplied, and only then. -/
theorem call_eq_handled_iff (h : table.find? name = some c) {sources : List String}
    {vars : Variables} {args : List Argument} {reply : Reply} :
    table.call name sources vars = .handled args reply ↔
      Supplied vars.lookup c.params sources args ∧ reply = c.handler args vars := by
  rw [← @Command.arguments_eq_ok_iff name vars.lookup sources args c]
  simp only [call, h]
  cases c.arguments name sources vars.lookup with
  | error cause => simp
  | ok given =>
      simp only [Outcome.handled.injEq, Except.ok.injEq]
      constructor <;> (rintro ⟨rfl, rfl⟩; exact ⟨rfl, rfl⟩)

/-- The handler of a command is run exactly where no source is left over, every parameter behind
the sources has a default, and every source can be parsed and has a value of the type declared at
its place. It gets one argument for each parameter: what its source comes to, made an argument of
the declared kind, or else the default as it was declared. -/
theorem arguments_reach_handler (h : table.find? name = some c) (sources : List String)
    (vars : Variables) :
    ((∃ args reply, table.call name sources vars = .handled args reply) ↔
      sources.length ≤ c.params.length ∧
      (∀ (j : Nat) (p : Param), c.params[j]? = some p → sources.length ≤ j →
        p.default.isSome) ∧
      ∀ (i : Nat) (p : Param) (source : String), c.params[i]? = some p →
        sources[i]? = some source →
        ∃ v, ComesTo vars.lookup source v ∧ v.dataType = p.kind.valueType) ∧
    ∀ args reply, table.call name sources vars = .handled args reply →
      reply = c.handler args vars ∧ args.length = c.params.length ∧
      (∀ (i : Nat) (p : Param) (source : String) (arg : Argument), c.params[i]? = some p →
        sources[i]? = some source → args[i]? = some arg →
        arg.kind = p.kind ∧ ∃ v, ComesTo vars.lookup source v ∧ p.kind.coerce? v = some arg) ∧
      ∀ (j : Nat) (p : Param), c.params[j]? = some p → sources.length ≤ j →
        args[j]? = p.default := by
  refine ⟨⟨?_, ?_⟩, ?_⟩
  · rintro ⟨args, reply, hcall⟩
    obtain ⟨hsupplied, -⟩ := (call_eq_handled_iff h).mp hcall
    refine ⟨hsupplied.length_le, fun j p hp hj => (hsupplied.omitted_at hp hj).1, ?_⟩
    intro i p source hp hsource
    have hi : i < args.length := by
      rw [hsupplied.length_eq]
      exact (List.getElem?_eq_some_iff.mp hp).1
    obtain ⟨v, hv, hcoerce⟩ := hsupplied.given_at hp hsource (List.getElem?_eq_getElem hi)
    exact ⟨v, hv, ParamKind.exists_coerce?_iff.mp ⟨_, hcoerce⟩⟩
  · rintro ⟨hlength, hdefault, hgiven⟩
    obtain ⟨args, hsupplied⟩ := Command.exists_supplied hlength hdefault hgiven
    exact ⟨args, _, (call_eq_handled_iff h).mpr ⟨hsupplied, rfl⟩⟩
  · intro args reply hcall
    obtain ⟨hsupplied, hreply⟩ := (call_eq_handled_iff h).mp hcall
    refine ⟨hreply, hsupplied.length_eq, fun i p source arg hp hsource harg => ?_,
      fun j p hp hj => (hsupplied.omitted_at hp hj).2⟩
    obtain ⟨v, hv, hcoerce⟩ := hsupplied.given_at hp hsource harg
    exact ⟨ParamKind.kind_of_coerce? hcoerce, v, hv, hcoerce⟩

/-! A default of another kind, in front of a parameter without one. -/

def greetCommand : Command :=
  { params := [{ name := "whom", kind := .string },
      { name := "softly", kind := .bool, default := some (.string "maybe") },
      { name := "twice", kind := .bool },
      { name := "times", kind := .int, default := some (.bool true) }]
    handler := fun _ vars => { vars := vars.set "greeted" (.bool true) } }

def greetTable : CommandTable :=
  CommandTable.register {} "greet" greetCommand

def greetVars : Variables :=
  .ofList [("bold", .bool true)]

theorem greeting_given (i : Nat) (p : Param) (source : String)
    (hp : greetCommand.params[i]? = some p)
    (hsource : ["'Ann' + '!'", "not bold", "bold"][i]? = some source) :
    ∃ v, ComesTo greetVars.lookup source v ∧ v.dataType = p.kind.valueType := by
  have hjoined : Expr.parse "'Ann' + '!'" =
      .ok (.binary .add (.literal (.string "Ann")) (.literal (.string "!"))) :=
    Expr.parse_of_toOption (by decide +kernel)
  have hnegated : Expr.parse "not bold" = .ok (.unary .not (.variable "bold")) :=
    Expr.parse_of_toOption (by decide +kernel)
  have hnamed : Expr.parse "bold" = .ok (.variable "bold") :=
    Expr.parse_of_toOption (by decide +kernel)
  match i with
  | 0 =>
      cases hp
      cases hsource
      exact ⟨.string "Ann!", ⟨_, hjoined, rfl⟩, rfl⟩
  | 1 =>
      cases hp
      cases hsource
      exact ⟨.bool false, ⟨_, hnegated, rfl⟩, rfl⟩
  | 2 =>
      cases hp
      cases hsource
      exact ⟨.bool true, ⟨_, hnamed, rfl⟩, rfl⟩
  | n + 3 => simp at hsource

theorem greeting_omitted (j : Nat) (p : Param) (hp : greetCommand.params[j]? = some p)
    (hj : 3 ≤ j) : p.default.isSome := by
  obtain ⟨j, rfl⟩ := Nat.exists_eq_add_of_le' hj
  cases j with
  | zero =>
      cases hp
      rfl
  | succ j => simp [greetCommand] at hp

/-- Only what stands behind all parameters without a default can be left out. -/
theorem greeting_reaches_handler :
    greetTable.find? "greet" = some greetCommand ∧
      (∃ args reply, greetTable.call "greet" ["'Ann' + '!'", "not bold", "bold"] greetVars =
        .handled args reply ∧ args[3]? = some (.bool true)) ∧
      ¬ ∃ args reply, greetTable.call "greet" ["'Ann'"] greetVars = .handled args reply := by
  have hfind : greetTable.find? "greet" = some greetCommand := rfl
  refine ⟨hfind, ?_, ?_⟩
  · obtain ⟨hhandled, hargs⟩ := arguments_reach_handler hfind ["'Ann' + '!'", "not bold", "bold"]
      greetVars
    obtain ⟨args, reply, hcall⟩ := hhandled.mpr ⟨by decide, greeting_omitted, greeting_given⟩
    obtain ⟨-, -, -, hdefault⟩ := hargs args reply hcall
    exact ⟨args, reply, hcall, hdefault 3 _ rfl (by decide)⟩
  · rw [(arguments_reach_handler hfind _ _).1]
    rintro ⟨-, hdefault, -⟩
    exact absurd (hdefault 2 _ rfl (by decide)) (by decide)

end CommandTable

end Parley
