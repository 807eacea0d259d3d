import Parley.Proofs.Conversation.Observation
import Parley.Proofs.Conversation.Reroute

/-!
# Exits that never count

A dialogue is left by its first open exit, so the exits behind one without a condition are dead;
and a dialogue that shows one element picked at random is never left by an exit at all. Whatever
stands in the place of dead exits, no run tells.
-/

namespace Parley

open Conversation (holds selectExit)

/-! ### Lists related element by element -/

theorem rel_getElem? {α β : Type} {R : α → β → Prop} {as : List α} {bs : List β}
    (h : List.Forall₂ R as bs) (i : Nat) : Option.Rel R as[i]? bs[i]? := by
  induction h generalizing i with
  | nil => exact .none
  | cons hfirst _ ih =>
      cases i with
      | zero => exact .some hfirst
      | succ i => exact ih i

theorem map_eq_of_forall₂ {α β γ : Type} {R : α → β → Prop} {f : α → γ} {g : β → γ}
    {as : List α} {bs : List β} (h : List.Forall₂ R as bs) (hfg : ∀ a b, R a b → f a = g b) :
    as.map f = bs.map g := by
  rw [← List.forall₂_eq_eq_eq, List.forall₂_map_left_iff, List.forall₂_map_right_iff]
  exact h.imp hfg

/-! ### The same graph but for dead exits -/

/-- `e` is `d` with other exits, where they are dead. -/
inductive Dialogue.SameButDead (d : Dialogue) : Dialogue → Prop
  | same : d.SameButDead d
  | behind {front back : List Exit} {last : Exit} (hexits : d.exits = front ++ last :: back)
      (hlast : last.isUnconditional = true) (others : List Exit) :
      d.SameButDead { d with exits := front ++ last :: others }
  | picked (hpicks : d.picksElement = true) (others : List Exit) :
      d.SameButDead { d with exits := others }

/-- The dialogues of the two stores correspond to one another in order. -/
def Store.SameButDead (s t : Store) : Prop :=
  List.Forall₂ Dialogue.SameButDead s.dialogues t.dialogues

/-- The same call, but for dead exits in the store it adds. -/
inductive HostCall.SameButDead : HostCall → HostCall → Prop
  | same (call : HostCall) : SameButDead call call
  | addStore {s t : Store} (h : s.SameButDead t) : SameButDead (.addStore s) (.addStore t)

/-- Behind an exit that is open no other counts. -/
theorem Conversation.selectExit_of_holds {env : Environment} {front : List Exit} {last : Exit}
    (h : (holds env last.condition).1 = true) (back others : List Exit) :
    selectExit env (front ++ last :: back) = selectExit env (front ++ last :: others) := by
  cases hfront : (selectExit env front).1 with
  | none => rw [selectExit_append hfront h, selectExit_append hfront h]
  | some target =>
      rw [selectExit_append_of_some hfront, selectExit_append_of_some hfront]

/-- Dead exits are never asked for, so either dialogue may be played for the other. -/
theorem Dialogue.SameButDead.standIn {d e : Dialogue} (h : d.SameButDead e) :
    d.StandIn (!d.picksElement) e := by
  cases h with
  | same => exact .refl _ d
  | behind hexits hlast others =>
      refine ⟨rfl, rfl, rfl, fun _ env => ?_⟩
      rw [hexits]
      apply Conversation.selectExit_of_holds
      rw [Conversation.holds_of_isUnconditional hlast]
  | picked hpicks others =>
      exact ⟨rfl, rfl, rfl, fun hleaves => by simp [hpicks] at hleaves⟩

theorem Store.SameButDead.refl (s : Store) : s.SameButDead s :=
  List.forall₂_same.mpr fun _ _ => .same

/-- Keys stand in the same places of both stores. -/
theorem Store.SameButDead.position?_eq {s t : Store} (h : s.SameButDead t) (key : String) :
    t.position? key = s.position? key := by
  have hkeys : s.keys = t.keys := map_eq_of_forall₂ h fun _ _ hd => hd.standIn.name.symm
  ext slot
  rw [position?_eq_some_iff, position?_eq_some_iff, hkeys]

/-! ### Playing from it -/

/-- Other stores in the place of those there are. -/
def Recast.swap (stores : List Store) : Recast where
  stores := fun _ => stores
  place := id

namespace Conversation

variable {c : Conversation} {stores : List Store}

/-- What stands at a place differs in dead exits only. -/
theorem dialogueAt_swap (h : List.Forall₂ Store.SameButDead c.stores stores) (slot : Slot) :
    Option.Rel Dialogue.SameButDead (c.dialogueAt slot)
      ((c.recast (.swap stores)).dialogueAt slot) := by
  have hstore := rel_getElem? h slot.store
  simp only [dialogueAt, recast, Recast.swap]
  generalize c.stores[slot.store]? = found, stores[slot.store]? = other at hstore ⊢
  cases hstore with
  | none => exact .none
  | some hsame => exact rel_getElem? hsame slot.dialogue

theorem locate_swap (h : List.Forall₂ Store.SameButDead c.stores stores) (key : String) :
    (c.recast (.swap stores)).locate key = (c.locate key).map id := by
  rw [Option.map_id, id]
  apply locateFrom_congr
  exact (map_eq_of_forall₂ h fun _ _ hs => (hs.position?_eq key).symm).symm

/-- Playing from the other stores keeps everything in its place. -/
theorem swap_keeps (h : List.Forall₂ Store.SameButDead c.stores stores) :
    (Recast.swap stores).Keeps c := by
  refine .of_locate Function.injective_id (locate_swap h) fun slot => ?_
  have hdialogue := dialogueAt_swap h slot
  change Option.Rel _ _ ((c.recast (.swap stores)).dialogueAt slot)
  generalize c.dialogueAt slot = found,
    (c.recast (.swap stores)).dialogueAt slot = other at hdialogue ⊢
  cases hdialogue with
  | none => exact .none
  | some hsame => exact .some hsame.standIn

/-! ### Whole runs -/

/-- `c'` plays from the stores of `c` with other exits where they are dead. -/
def SameButDead (c c' : Conversation) : Prop :=
  ∃ stores, List.Forall₂ Store.SameButDead c.stores stores ∧ c' = c.recast (.swap stores)

namespace SameButDead

variable {c c' : Conversation}

/-- Nothing that can be seen between two calls tells the conversations apart. -/
theorem view_eq (h : c.SameButDead c') : c'.view = c.view := by
  obtain ⟨stores, hstores, rfl⟩ := h
  exact recast_view (swap_keeps hstores) rfl

theorem addStore (h : c.SameButDead c') {s t : Store} (hstore : s.SameButDead t) :
    (c.addStore s).SameButDead (c'.addStore t) := by
  obtain ⟨stores, hstores, rfl⟩ := h
  exact ⟨stores ++ [t], List.rel_append hstores (.cons hstore .nil), rfl⟩

theorem perform (h : c.SameButDead c') {call : HostCall} (hcall : ∀ s, call ≠ .addStore s) :
    c'.answer call = c.answer call ∧ (c.perform call).SameButDead (c'.perform call) := by
  obtain ⟨stores, hstores, rfl⟩ := h
  have hkeeps := swap_keeps hstores
  have hkept : (c.perform call).stores = c.stores := by
    rw [stores_perform]
    cases call with
    | addStore s => exact absurd rfl (hcall s)
    | _ => exact List.append_nil _
  refine ⟨recast_answer hkeeps call, stores, ?_, (recast_perform hkeeps hcall).1.symm⟩
  rwa [hkept]

/-- Either call is answered the same, and leaves conversations that are the same again. -/
theorem call (h : c.SameButDead c') {call call' : HostCall} (hcall : call.SameButDead call') :
    c'.answer call' = c.answer call ∧ (c.perform call).SameButDead (c'.perform call') := by
  cases hcall with
  | addStore hstore => exact ⟨rfl, h.addStore hstore⟩
  | same =>
      cases call with
      | addStore s => exact ⟨rfl, h.addStore (.refl s)⟩
      | _ => exact h.perform (by rintro s ⟨⟩)

end SameButDead

/-- Two runs in which stores are added that differ in dead exits only are answered the same at
every call, and everything looks the same behind each. What is selected where a dialogue is left
is the first exit that is open, whatever comes behind it: no condition behind it is looked at. -/
theorem dead_exits_inert (config : Config) (entropy : UInt64) :
    (∀ calls calls', List.Forall₂ HostCall.SameButDead calls calls' →
      (new config entropy).observe calls' = (new config entropy).observe calls) ∧
    (∀ (env : Environment) (front back : List Exit) (first : Exit),
      (∀ e ∈ front, (holds env e.condition).1 = false) →
      (holds env first.condition).1 = true →
      selectExit env (front ++ first :: back) =
        (some first.target, (selectExit env front).2 ++ (holds env first.condition).2)) := by
  constructor
  · intro calls calls' hcalls
    have hnew : (new config entropy).SameButDead (new config entropy) := ⟨[], .nil, rfl⟩
    exact observe_eq_of_simulation SameButDead.view_eq (fun h hcall => h.call hcall) hnew hcalls
  · intro env front back first hfront hfirst
    exact selectExit_append (selectExit_eq_none_iff.mpr hfront) hfirst

/-! A door that leads on whatever else its exits say, and a coin that has exits for nothing. -/

def door (others : List Exit) : Dialogue :=
  { name := "door", elements := [{ text := "A door." }], exits := ⟨" ", .key "coin"⟩ :: others }

def coin (exits : List Exit) : Dialogue :=
  { name := "coin", flags := { random := true }
    elements := [{ text := "Heads." }, { text := "Tails." }], exits }

def coinStore (others exits : List Exit) : Store :=
  { name := "coins"
    dialogues := [door others, coin exits]
    index := Std.TreeMap.insert (Std.TreeMap.insert {} "door" 0) "coin" 1
    indexed := (Store.indexes_nil.insert (d := door others) rfl).insert (d := coin exits)
      (by simp [door, coin]) }

/-- The conditions behind the first hold, or cannot be read; the coin would lead back. -/
def deadExits : List Exit :=
  [⟨"true", .code [.call "open" []]⟩, ⟨"1 +", .key "door"⟩]

def coinCalls (others exits : List Exit) : List HostCall :=
  [.addStore (coinStore others exits), .start "door", .advance 0, .advance 0, .start "coin"]

theorem dead_exits_of_coins :
    (new {} 0).observe (coinCalls deadExits deadExits) = (new {} 0).observe (coinCalls [] []) ∧
      ((new {} 0).performAll (coinCalls deadExits deadExits)).events =
        [.started "door", .ended, .started "coin", .ended, .started "coin"] ∧
      (holds (fun _ => none) "1 +").1 = false ∧ (holds (fun _ => none) "true").1 = true ∧
      (selectExit (fun _ => none) (⟨"1 +", .key "coin"⟩ :: deadExits)).1 =
        some (.code [.call "open" []]) := by
  obtain ⟨hruns, hfirst⟩ := dead_exits_inert {} 0
  have hdoor : (door []).SameButDead (door deadExits) :=
    @Dialogue.SameButDead.behind _ [] _ _ rfl rfl deadExits
  have hcoin : (coin []).SameButDead (coin deadExits) := .picked rfl deadExits
  have hstore : (coinStore [] []).SameButDead (coinStore deadExits deadExits) :=
    List.Forall₂.cons hdoor (List.Forall₂.cons hcoin List.Forall₂.nil)
  have hcalls : List.Forall₂ HostCall.SameButDead (coinCalls [] [])
      (coinCalls deadExits deadExits) :=
    .cons (.addStore hstore) (List.forall₂_same.mpr fun call _ => .same call)
  have hclosed : (holds (fun _ => none) "1 +").1 = false := by decide +kernel
  have hopen : (holds (fun _ => none) "true").1 = true := by decide +kernel
  refine ⟨hruns _ _ hcalls, by decide +kernel, hclosed, hopen, ?_⟩
  exact congrArg Prod.fst (hfirst (fun _ => none) [⟨"1 +", .key "coin"⟩] [⟨"1 +", .key "door"⟩]
    ⟨"true", .code [.call "open" []]⟩ (List.forall_mem_singleton.mpr hclosed) hopen)

end Conversation

end Parley
