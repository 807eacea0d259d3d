import Parley.Proofs.Conversation.Arising
import Parley.Proofs.Script.Checked

/-!
# Runs without faults

A mistake of the script stops a call of the host in one place only, at an assignment that has no
expression. Every statement that is ever run stands in an exit of some store. Where all stores
come from scripts of which nothing was reported, no call is stopped, whatever the host, the player
and the commands do.
-/

namespace Parley

/-- The store was made from the source of a script. -/
def Store.Imported (s : Store) : Prop :=
  ∃ name reg source, Store.ofSource name reg source = .ok s

/-- Nothing was reported of the script that the store was made from. -/
structure Store.Clean (s : Store) : Prop where
  imported : s.Imported
  unreported : s.diagnostics = []

/-- The dialogues of a clean store were checked when it was read. -/
theorem Store.Clean.checked {s : Store} (h : s.Clean) : ∀ d ∈ s.dialogues, d.Checked := by
  obtain ⟨⟨name, reg, source, hsource⟩, hclean⟩ := h
  obtain ⟨script, hparse, hdialogues, hdiagnostics⟩ := Store.script_of_ofSource hsource
  rw [hdialogues]
  exact Script.checked_of_parse hparse (hdiagnostics.symm.trans hclean)

namespace Conversation

/-- All that could be run has been checked. -/
def Checked (c : Conversation) : Prop :=
  ∀ s ∈ c.stores, ∀ d ∈ s.dialogues, d.Checked

theorem Checked.dialogueAt {c : Conversation} (h : c.Checked) {slot : Slot} {d : Dialogue}
    (hd : c.dialogueAt slot = some d) : d.Checked := by
  obtain ⟨s, hs, hplace⟩ := Option.bind_eq_some_iff.mp hd
  exact h s (List.mem_of_getElem? hs) d (List.mem_of_getElem? hplace)

/-- What is selected is the target of some exit. -/
theorem exists_of_selectExit {env : Environment} {exits : List Exit} {target : Target}
    (h : (selectExit env exits).1 = some target) : ∃ e ∈ exits, e.target = target := by
  induction exits with
  | nil => cases h
  | cons e exits ih =>
      rw [selectExit] at h
      split at h
      · exact ⟨e, List.mem_cons_self, Option.some.inj h⟩
      · obtain ⟨found, hfound, htarget⟩ := ih h
        exact ⟨found, List.mem_cons_of_mem e hfound, htarget⟩

/-- Nothing unchecked comes in during a turn. -/
theorem Checked.changes {t u : Turn} (h : t.talk.Checked) (hchanges : Turn.Changes t u) :
    u.talk.Checked := by
  unfold Checked
  rw [hchanges.stores_eq]
  exact h

end Conversation

namespace Turn

/-- A statement on the agenda has to be one that was checked. Other jobs cannot fail. -/
def Job.Checked : Job → Prop
  | .statement _ s => s.Checked
  | _ => True

theorem Plain.checked {jobs : List Job} (h : Plain jobs) : ∀ job ∈ jobs, job.Checked := by
  intro job hjob
  cases job with
  | statement dialogue s => exact absurd hjob (h dialogue s)
  | _ => trivial

/-- Every job that arises is checked. -/
theorem Arises.checked {w : Agenda} (h : Arises w) (hstores : w.turn.talk.Checked) :
    ∀ job ∈ w.jobs, job.Checked := by
  cases h with
  | plain hplain => exact hplain.checked
  | block _ hd hselects hrest =>
      obtain ⟨e, he, htarget⟩ := Conversation.exists_of_selectExit hselects.exit
      refine List.forall_mem_append.mpr ⟨?_, List.forall_mem_cons.mpr ⟨trivial, hrest.checked⟩⟩
      exact List.forall_mem_map.mpr ((hstores.dialogueAt hd e he).statements _ htarget)

/-- An assignment that was checked has an expression. -/
theorem Job.Checked.act_ne_error {job : Job} (h : job.Checked) {t : Turn} {fault : ScriptFault} :
    job.act t ≠ .error fault := by
  intro hact
  cases job with
  | statement dialogue s =>
      simp only [Job.act, statementAgenda] at hact
      split at hact
      · cases hact
      · next hkind hargs =>
          obtain ⟨source, hsource⟩ := h.single hkind
          rw [hargs] at hsource
          cases hsource
      · cases hact
  | _ => cases hact

/-! ### Runs -/

/-- Working off what was checked never stops at a mistake. -/
theorem Runs.succeeds {w : Agenda} {p : Progress Unit} (run : Runs w p)
    (hstores : w.turn.talk.Checked) (hjobs : ∀ job ∈ w.jobs, job.Checked) :
    p.result = .ok () := by
  induction run with
  | done t => rfl
  | @work job jobs t next p hact _ ih =>
      obtain ⟨-, hrest⟩ := List.forall_mem_cons.mp hjobs
      have hnext := hstores.changes (changes_act hact)
      have harisen := (arises_act hact).checked hnext
      exact ih hnext (List.forall_mem_append.mpr ⟨harisen, hrest⟩)
  | fail hact =>
      obtain ⟨hfirst, -⟩ := List.forall_mem_cons.mp hjobs
      exact absurd hact hfirst.act_ne_error

/-- In a checked conversation going on does not fail. -/
theorem advance_of_checked {c : Conversation} (h : c.Checked) (selected : Nat) :
    (c.advance selected).result = .ok () := by
  have hstores : (stepAgenda selected (fresh c)).turn.talk.Checked :=
    Conversation.Checked.changes (t := fresh c) h (changes_step selected (fresh c))
  exact (advance_runs c selected).succeeds hstores ((arises_step selected _).checked hstores)

/-- In a checked conversation no call of the host fails. -/
theorem outcome_of_checked {c : Conversation} (h : c.Checked) (call : HostCall) :
    outcome c call = .ok () := by
  cases call with
  | start key =>
      obtain ⟨p, hrun, -, hresult⟩ := start_runs c key
      rw [← hresult]
      exact hrun.succeeds h (List.forall_mem_singleton.mpr trivial)
  | advance selected => exact advance_of_checked h selected
  | confirm reading =>
      simp only [outcome, Conversation.confirm]
      split
      · rfl
      · exact advance_of_checked h reading.selected
  | _ => rfl

end Turn

namespace Conversation

/-- Where nothing was reported of a script, every condition and argument in it can be parsed and
every assignment has just one argument. Where this is so of all scripts behind the stores that a
host adds, no call that the host makes at any time is stopped by a mistake of a script. -/
theorem clean_scripts_never_fail :
    (∀ reg source script, Script.parse reg source = .ok script → script.diagnostics = [] →
      ∀ d ∈ script.dialogues, ∀ e ∈ d.exits,
        (Text.allBlank e.condition.toList = false →
          ∃ x, Expression.parse e.condition = .ok x) ∧
        ∀ statements, e.target = .code statements → ∀ s ∈ statements,
          (∀ source ∈ s.args, ∃ x, Expression.parse source = .ok x) ∧
          (s.kind = .assignment → s.args.length = 1)) ∧
    (∀ config entropy calls, (∀ s, .addStore s ∈ calls → s.Clean) →
      ∀ call, Turn.outcome ((new config entropy).performAll calls) call = .ok ()) := by
  constructor
  · intro reg source script hparse hclean d hd e he
    have hchecked := Script.checked_of_parse hparse hclean d hd e he
    refine ⟨hchecked.condition, fun statements htarget s hs => ?_⟩
    have hstatement := hchecked.statements statements htarget s hs
    refine ⟨hstatement.args, fun hkind => ?_⟩
    obtain ⟨source, hsource⟩ := hstatement.single hkind
    rw [hsource]
    rfl
  · intro config entropy calls hclean call
    exact Turn.outcome_of_checked (forall_mem_stores fun s hs => (hclean s hs).checked) call

/-- A condition, a block on one line and a block over several. -/
def pledge : String :=
  "# a\n[Ann]: Well?\n\x7bready && !late\x7d=>\x7bready = not ready;\x7d\n" ++
    "=>\x7b\nready = true; go(ready, 'b');\n\x7d\n"

theorem pledge_never_fails :
    ∃ script s, Script.parse Registry.implicitly pledge = .ok script ∧
      script.diagnostics = [] ∧
      (∀ d ∈ script.dialogues, ∀ e ∈ d.exits, Text.allBlank e.condition.toList = false →
        ∃ x, Expression.parse e.condition = .ok x) ∧
      Store.ofSource "pledges" Registry.implicitly pledge = .ok s ∧ s.Clean ∧
      ∀ call, Turn.outcome ((new {} 0).performAll
        [.addStore s, .start "a", .advance 0, .start "a"]) call = .ok () := by
  have ⟨script, hparse, hclean⟩ : ∃ script,
      Script.parse Registry.implicitly pledge = .ok script ∧ script.diagnostics = [] :=
    ⟨Script.reading Registry.implicitly pledge, rfl, by decide +kernel⟩
  have ⟨s, hsource⟩ : ∃ s, Store.ofSource "pledges" Registry.implicitly pledge = .ok s :=
    ⟨_, rfl⟩
  have hstore : s.Clean := by
    obtain ⟨found, hfound, -, hdiagnostics⟩ := Store.script_of_ofSource hsource
    rw [hparse] at hfound
    cases hfound
    exact ⟨⟨_, _, _, hsource⟩, hdiagnostics.trans hclean⟩
  obtain ⟨hchecked, hruns⟩ := clean_scripts_never_fail
  refine ⟨script, s, hparse, hclean, fun d hd e he => ?_, hsource, hstore, ?_⟩
  · exact (hchecked _ _ script hparse hclean d hd e he).1
  · refine hruns {} 0 _ fun added hadded => ?_
    have hsame : added = s := by simpa using hadded
    rw [hsame]
    exact hstore

end Conversation

end Parley
