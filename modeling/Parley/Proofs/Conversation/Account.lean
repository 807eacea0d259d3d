import Parley.Proofs.Conversation.Ending

/-!
# Accounts of a turn

A run of an agenda has nothing but its end to show. An account tells what was done on the way: each
job with the turn it was done in, and with what was done of the jobs it gave rise to before the
next one had its turn. Every agenda has one account. It tells of every job where no mistake of the
script stops the run, and where one does, the mistake is the last thing it tells of.

## Implementation notes

The jobs that stand side by side are a list, and each holds an account of its own. The tree is
kept as its first branch and the branches beside it, so that recursion on it is structural.
-/

namespace Parley.Turn

/-- What was done of some jobs, from the front. -/
inductive Account where
  | nothing
  /-- A job, the turn it was done in, what was done of the jobs it gave rise to, and what was done
  of the jobs behind it. -/
  | did (job : Job) (t : Turn) (inner rest : Account)

/-- A job that was done, the turn it was done in, and the jobs done within it. -/
structure Deed where
  job : Job
  turn : Turn
  within : List Job

namespace Account

/-- The jobs done side by side. -/
def jobs : Account → List Job
  | nothing => []
  | did job _ _ rest => job :: rest.jobs

/-- Everything done, in the order it was done in. -/
def deeds : Account → List Deed
  | nothing => []
  | did job t inner rest => ⟨job, t, inner.jobs⟩ :: (inner.deeds ++ rest.deeds)

end Account

/-- What working an agenda off does, and the progress it ends in. A mistake gives up the jobs
behind it, and the jobs behind everything it happened within. -/
inductive Accounts : Agenda → Account → Progress Unit → Prop
  | done (t : Turn) : Accounts ⟨[], t⟩ .nothing t.done
  | mistake {job : Job} {jobs : List Job} {t : Turn} {fault : ScriptFault}
      (h : job.act t = .error fault) :
      Accounts ⟨job :: jobs, t⟩ (.did job t .nothing .nothing) ⟨abandon jobs t, .error fault⟩
  | within {job : Job} {jobs : List Job} {t u : Turn} {next : Agenda} {inner : Account}
      {fault : ScriptFault} (h : job.act t = .ok next)
      (hinner : Accounts next inner ⟨u, .error fault⟩) :
      Accounts ⟨job :: jobs, t⟩ (.did job t inner .nothing) ⟨abandon jobs u, .error fault⟩
  | behind {job : Job} {jobs : List Job} {t u : Turn} {next : Agenda} {inner rest : Account}
      {p : Progress Unit} (h : job.act t = .ok next) (hinner : Accounts next inner u.done)
      (hrest : Accounts ⟨jobs, u⟩ rest p) :
      Accounts ⟨job :: jobs, t⟩ (.did job t inner rest) p

variable {w : Agenda} {account : Account} {p : Progress Unit}

/-! ### Runs and accounts -/

/-- An account of two agendas one behind the other: either the first comes to its end, or a mistake
in it gives the second up. -/
theorem Accounts.of_append {jobs more : List Job} {t : Turn}
    (h : Accounts ⟨jobs ++ more, t⟩ account p) :
    (∃ front u back, Accounts ⟨jobs, t⟩ front u.done ∧ Accounts ⟨more, u⟩ back p) ∨
      ∃ front u fault, Accounts ⟨jobs, t⟩ front ⟨u, .error fault⟩ ∧
        p = ⟨abandon more u, .error fault⟩ := by
  -- By induction on the first agenda. A mistake in it abandons what is left of both.
  induction jobs generalizing t account with
  | nil => exact .inl ⟨.nothing, t, account, .done t, h⟩
  | cons job jobs ih =>
      cases h with
      | mistake hact =>
          refine .inr ⟨_, _, _, .mistake hact, ?_⟩
          rw [← abandon_append]
          rfl
      | within hact hinner =>
          refine .inr ⟨_, _, _, .within hact hinner, ?_⟩
          rw [← abandon_append]
          rfl
      | behind hact hinner hrest =>
          obtain ⟨front, u, back, hfront, hback⟩ | ⟨front, u, fault, hfront, hp⟩ := ih hrest
          · exact .inl ⟨_, u, back, .behind hact hinner hfront, hback⟩
          · exact .inr ⟨_, u, fault, .behind hact hinner hfront, hp⟩

/-- Every run has an account. -/
theorem Runs.accounts (run : Runs w p) : ∃ account, Accounts w account p := by
  induction run with
  | done t => exact ⟨_, .done t⟩
  | work hact _ ih =>
      obtain ⟨account, haccount⟩ := ih
      obtain ⟨inner, u, rest, hinner, hrest⟩ | ⟨inner, u, fault, hinner, rfl⟩ :=
        haccount.of_append
      · exact ⟨_, .behind hact hinner hrest⟩
      · exact ⟨_, .within hact hinner⟩
  | fail hact => exact ⟨_, .mistake hact⟩

/-- An agenda has no more than one account. -/
theorem Accounts.deterministic (h : Accounts w account p) :
    ∀ {account' p'}, Accounts w account' p' → account = account' ∧ p = p' := by
  -- A job does one thing only, so that two accounts take the same way out of it.
  induction h with
  | done t =>
      intro account' p' other
      cases other
      exact ⟨rfl, rfl⟩
  | mistake hact =>
      intro account' p' other
      cases other with
      | mistake hact' =>
          rw [hact] at hact'
          cases hact'
          exact ⟨rfl, rfl⟩
      | within hact' _ | behind hact' _ _ =>
          rw [hact] at hact'
          cases hact'
  | within hact _ ih =>
      intro account' p' other
      cases other with
      | mistake hact' =>
          rw [hact] at hact'
          cases hact'
      | within hact' hinner' =>
          rw [hact] at hact'
          cases hact'
          obtain ⟨rfl, hend⟩ := ih hinner'
          cases hend
          exact ⟨rfl, rfl⟩
      | behind hact' hinner' _ =>
          rw [hact] at hact'
          cases hact'
          cases (ih hinner').2
  | behind hact _ _ ihinner ihrest =>
      intro account' p' other
      cases other with
      | mistake hact' =>
          rw [hact] at hact'
          cases hact'
      | within hact' hinner' =>
          rw [hact] at hact'
          cases hact'
          cases (ihinner hinner').2
      | behind hact' hinner' hrest' =>
          rw [hact] at hact'
          cases hact'
          obtain ⟨rfl, hend⟩ := ihinner hinner'
          cases hend
          obtain ⟨rfl, rfl⟩ := ihrest hrest'
          exact ⟨rfl, rfl⟩

/-- A run that is accounted for is a run all the same, and changes the turn by known steps. -/
theorem Accounts.changes (h : Accounts w account p) : Changes w.turn p.turn := by
  induction h with
  | done t => exact .refl
  | mistake => exact changes_abandon _ _
  | within hact _ ih => exact ((changes_act hact).trans ih).trans (changes_abandon _ _)
  | behind hact _ _ ihinner ihrest => exact ((changes_act hact).trans ihinner).trans ihrest

/-! ### What an account tells of -/

/-- The jobs that a deed gave rise to. -/
def Deed.raised (deed : Deed) : List Job :=
  match deed.job.act deed.turn with
  | .ok next => next.jobs
  | .error _ => []

/-- What a deed gives rise to are the jobs that its job leaves behind. -/
theorem Deed.raised_eq {deed : Deed} {next : Agenda} (h : deed.job.act deed.turn = .ok next) :
    deed.raised = next.jobs := by
  simp only [raised, h]

/-- Jobs are done from the first on, none is left out and none is done twice. -/
theorem Accounts.in_order (h : Accounts w account p) :
    account.jobs <+: w.jobs ∧ ∀ deed ∈ account.deeds, deed.within <+: deed.raised := by
  induction h with
  | done t => exact ⟨List.prefix_rfl, List.forall_mem_nil _⟩
  | @mistake job jobs t fault hact =>
      constructor
      · exact List.prefix_append [job] jobs
      · exact List.forall_mem_singleton.mpr List.nil_prefix
  | @within job jobs t u next inner fault hact _ ih =>
      constructor
      · exact List.prefix_append [job] jobs
      · refine List.forall_mem_cons.mpr ⟨?_, List.forall_mem_append.mpr ⟨ih.2, ?_⟩⟩
        · rw [Deed.raised_eq hact]
          exact ih.1
        · exact List.forall_mem_nil _
  | @behind job jobs t u next inner rest p hact _ _ ihinner ihrest =>
      constructor
      · exact List.cons_prefix_cons.mpr ⟨rfl, ihrest.1⟩
      · refine List.forall_mem_cons.mpr ⟨?_, List.forall_mem_append.mpr ⟨ihinner.2, ihrest.2⟩⟩
        rw [Deed.raised_eq hact]
        exact ihinner.1

/-- The deed came to an end, and all the jobs it gave rise to were done within it. -/
structure Deed.Whole (deed : Deed) : Prop where
  done : ∃ next, deed.job.act deed.turn = .ok next
  within : deed.within = deed.raised

/-- Where no mistake stops the run, every job is done. -/
theorem Accounts.whole (h : Accounts w account p) (hok : p.result = .ok ()) :
    account.jobs = w.jobs ∧ ∀ deed ∈ account.deeds, deed.Whole := by
  induction h with
  | done t => exact ⟨rfl, List.forall_mem_nil _⟩
  | mistake => cases hok
  | within => cases hok
  | @behind job jobs t u next inner rest p hact _ _ ihinner ihrest =>
      obtain ⟨hinner, hinnerDeeds⟩ := ihinner rfl
      obtain ⟨hrest, hrestDeeds⟩ := ihrest hok
      constructor
      · exact congrArg (job :: ·) hrest
      · refine List.forall_mem_cons.mpr ⟨⟨⟨next, hact⟩, ?_⟩, ?_⟩
        · rw [Deed.raised_eq hact]
          exact hinner
        · exact List.forall_mem_append.mpr ⟨hinnerDeeds, hrestDeeds⟩

/-- Whatever was done was done side by side with the first jobs, or within something done. -/
theorem Account.job_mem {deed : Deed} (h : deed ∈ account.deeds) :
    deed.job ∈ account.jobs ∨ ∃ outer ∈ account.deeds, deed.job ∈ outer.within := by
  induction account with
  | nothing => cases h
  | did job t inner rest ihinner ihrest =>
      obtain rfl | hmem := List.mem_cons.mp h
      · exact .inl List.mem_cons_self
      obtain hmem | hmem := List.mem_append.mp hmem
      · right
        obtain hjob | ⟨outer, houter, hjob⟩ := ihinner hmem
        · exact ⟨_, List.mem_cons_self, hjob⟩
        · exact ⟨outer, List.mem_cons_of_mem _ (List.mem_append_left _ houter), hjob⟩
      · obtain hjob | ⟨outer, houter, hjob⟩ := ihrest hmem
        · exact .inl (List.mem_cons_of_mem _ hjob)
        · exact .inr ⟨outer, List.mem_cons_of_mem _ (List.mem_append_right _ houter), hjob⟩

/-- The last deed is a mistake of the script, and nothing before it was. -/
def Account.EndsIn (account : Account) (deed : Deed) (fault : ScriptFault) : Prop :=
  deed.job.act deed.turn = .error fault ∧
    ∃ before, account.deeds = before ++ [deed] ∧
      ∀ d ∈ before, ∃ next, d.job.act d.turn = .ok next

theorem Account.EndsIn.mem {deed : Deed} {fault : ScriptFault} (h : account.EndsIn deed fault) :
    deed ∈ account.deeds := by
  obtain ⟨-, before, hdeeds, -⟩ := h
  rw [hdeeds]
  exact List.mem_append_cons_self

/-- There is one mistake, and nothing is done behind it. -/
theorem Account.EndsIn.eq_of_split {deed other : Deed} {fault fault' : ScriptFault}
    {before after : List Deed} (h : account.EndsIn deed fault)
    (hsplit : account.deeds = before ++ other :: after)
    (hother : other.job.act other.turn = .error fault') : after = [] ∧ other = deed := by
  obtain ⟨-, front, hdeeds, hfront⟩ := h
  rw [hdeeds] at hsplit
  obtain rfl | ⟨after, last, rfl⟩ := List.eq_nil_or_concat after
  · obtain ⟨-, hlast⟩ := List.append_inj' hsplit rfl
    exact ⟨rfl, (List.cons.inj hlast).1.symm⟩
  · have hmem : other ∈ front := by
      rw [List.concat_eq_append, ← List.cons_append, ← List.append_assoc] at hsplit
      obtain ⟨rfl, -⟩ := List.append_inj' hsplit rfl
      exact List.mem_append_cons_self
    obtain ⟨next, hact⟩ := hfront other hmem
    rw [hother] at hact
    cases hact

/-- Where a mistake stops the run, it is the last thing done. What every job passes on, to the jobs
it gives rise to and to the jobs behind it, holds there. -/
theorem Accounts.exists_mistake {I : Agenda → Prop} {R : Turn → Turn → Prop}
    (hnext : ∀ job jobs t next, I ⟨job :: jobs, t⟩ → job.act t = .ok next → I next)
    (hbehind : ∀ job jobs t u, I ⟨job :: jobs, t⟩ → Changes t u → I ⟨jobs, u⟩)
    (hmistake : ∀ job jobs t fault, I ⟨job :: jobs, t⟩ → job.act t = .error fault →
      R t (abandon jobs t))
    (habandon : ∀ jobs t u, R t u → R t (abandon jobs u))
    (h : Accounts w account p) (hw : I w) {fault : ScriptFault} (hfault : p.result = .error fault) :
    ∃ deed, account.EndsIn deed fault ∧ R deed.turn p.turn := by
  induction h with
  | done t => cases hfault
  | mistake hact =>
      cases hfault
      exact ⟨⟨_, _, _⟩, ⟨hact, [], rfl, List.forall_mem_nil _⟩, hmistake _ _ _ _ hw hact⟩
  | @within job jobs t u next inner _ hact _ ih =>
      cases hfault
      obtain ⟨deed, ⟨hlast, before, hdeeds, hbefore⟩, hend⟩ := ih (hnext _ _ _ _ hw hact) rfl
      refine ⟨deed, ⟨hlast, ⟨job, t, inner.jobs⟩ :: before, ?_, ?_⟩, habandon _ _ _ hend⟩
      · simp [Account.deeds, hdeeds]
      · exact List.forall_mem_cons.mpr ⟨⟨next, hact⟩, hbefore⟩
  | @behind job jobs t u next inner rest p hact hinner _ _ ihrest =>
      have hchanges := (changes_act hact).trans hinner.changes
      obtain ⟨deed, ⟨hlast, before, hdeeds, hbefore⟩, hend⟩ :=
        ihrest (hbehind _ _ _ _ hw hchanges) hfault
      refine ⟨deed, ⟨hlast, ⟨job, t, inner.jobs⟩ :: (inner.deeds ++ before), ?_, ?_⟩, hend⟩
      · simp [Account.deeds, hdeeds]
      · refine List.forall_mem_cons.mpr ⟨⟨next, hact⟩, List.forall_mem_append.mpr ⟨?_, hbefore⟩⟩
        exact fun d hd => ((hinner.whole rfl).2 d hd).done

end Parley.Turn
