import Parley.Proofs.Conversation.Recast

/-!
# Other exits

What a conversation does when dialogues keep their names, flags and elements and get other exits.
Every dialogue keeps its place, so the conversation plays on as before wherever the exits that
changed are never read.
-/

namespace Parley

open Conversation (selectExit)

/-- The store with other exits, given for each place. -/
def Store.reroute (f : Nat → Dialogue → List Exit) (s : Store) : Store :=
  { s with
    dialogues := s.dialogues.mapIdx fun n d => { d with exits := f n d }
    indexed := by
      intro key n
      rw [s.indexed key n, List.getElem?_mapIdx]
      cases s.dialogues[n]? <;> simp }

/-- Giving every dialogue its own exits changes nothing. -/
theorem Store.reroute_exits (s : Store) : s.reroute (fun _ d => d.exits) = s := by
  have hdialogues : s.dialogues.mapIdx (fun _ d => { d with exits := d.exits }) = s.dialogues := by
    apply List.ext_getElem?
    intro n
    cases hd : s.dialogues[n]? <;> simp [hd]
  simp only [reroute, hdialogues]

/-- The same places with other exits. -/
def Recast.reroute (f : Slot → Dialogue → List Exit) (front : List Act) : Recast :=
  { stores := fun stores => stores.mapIdx fun n s => s.reroute fun i => f ⟨n, i⟩
    place := id
    front }

namespace Conversation

def reroute (f : Slot → Dialogue → List Exit) (c : Conversation) : Conversation :=
  c.recast (.reroute f [])

variable {f : Slot → Dialogue → List Exit} {front : List Act} {c : Conversation}

/-- Where a key is found depends only on where each store has it. -/
theorem locateFrom_congr {key : String} {stores others : List Store} (n : Nat)
    (h : stores.map (Store.position? · key) = others.map (Store.position? · key)) :
    locateFrom key n stores = locateFrom key n others := by
  induction stores generalizing n others with
  | nil =>
      cases others with
      | nil => rfl
      | cons other others => cases h
  | cons s stores ih =>
      cases others with
      | nil => cases h
      | cons other others =>
          simp only [List.map_cons, List.cons.injEq] at h
          simp only [locateFrom, h.1, ih (n + 1) h.2]

/-- What stands at a place has the other exits, and is else the same. -/
theorem dialogueAt_reroute (slot : Slot) :
    (c.recast (.reroute f front)).dialogueAt slot =
      (c.dialogueAt slot).map fun d => { d with exits := f slot d } := by
  simp only [recast, Recast.reroute, dialogueAt, List.getElem?_mapIdx]
  cases c.stores[slot.store]? with
  | none => rfl
  | some s => simp [Store.reroute, List.getElem?_mapIdx]

/-- Keys lead where they led. -/
theorem target?_reroute (key : String) :
    (c.recast (.reroute f front)).target? key =
      (c.target? key).map fun found => (found.1, { found.2 with exits := f found.1 found.2 }) := by
  have hlocate : (c.recast (.reroute f front)).locate key = c.locate key := by
    apply locateFrom_congr
    apply List.ext_getElem?
    intro n
    cases hstore : c.stores[n]? <;> simp [recast, Recast.reroute, hstore, Store.reroute,
      Store.position?]
  unfold target?
  rw [hlocate]
  cases c.locate key with
  | none => rfl
  | some slot => simp [dialogueAt_reroute, Function.comp_def]

theorem recast_reroute_exits :
    c.recast (.reroute (fun _ d => d.exits) front) = { c with journal := front ++ c.journal } := by
  have hactive : c.active.map (Active.recast (.reroute (fun _ d => d.exits) front)) = c.active := by
    cases c.active <;> rfl
  have hstores : (Recast.reroute (fun _ d => d.exits) front).stores c.stores = c.stores := by
    apply List.ext_getElem?
    intro n
    cases hs : c.stores[n]? <;> simp [Recast.reroute, Store.reroute_exits, hs]
  simp only [recast, hactive, hstores]
  rfl

theorem active_reroute : (c.recast (.reroute f front)).active = c.active := by
  simp only [recast]
  cases c.active <;> rfl

theorem currentElement_reroute :
    (c.recast (.reroute f front)).currentElement = c.currentElement := by
  simp only [currentElement, active_reroute]
  cases c.active with
  | none => rfl
  | some a =>
      simp only [Option.bind_some, dialogueAt_reroute]
      cases c.dialogueAt a.slot <;> rfl

end Conversation

/-- Exits of dialogues that have elements do not matter to a start. -/
theorem Recast.reroute_serves {f : Slot → Dialogue → List Exit} {c : Conversation}
    (h : ∀ slot d, c.dialogueAt slot = some d →
      d.StandIn d.isRedirect { d with exits := f slot d }) (front : List Act) :
    (Recast.reroute f front).Serves c := by
  refine ⟨Function.injective_id, fun key => ?_⟩
  rw [Conversation.target?_reroute]
  cases htarget : c.target? key with
  | none => exact .none
  | some found =>
      exact .some ⟨rfl, h _ _ (Conversation.target?_eq_some_iff.mp htarget).2⟩

/-- Exits of dialogues that pick an element do not matter to going on either. -/
theorem Recast.reroute_keeps {f : Slot → Dialogue → List Exit} {c : Conversation}
    (h : ∀ slot d, c.dialogueAt slot = some d →
      d.StandIn (!d.picksElement) { d with exits := f slot d }) (front : List Act) :
    (Recast.reroute f front).Keeps c := by
  constructor
  · apply Recast.reroute_serves
    exact fun slot d hd => (h slot d hd).of_picksElement
  · intro slot
    change Option.Rel _ _ ((c.recast (.reroute f front)).dialogueAt slot)
    rw [Conversation.dialogueAt_reroute]
    cases hd : c.dialogueAt slot with
    | none => exact .none
    | some d => exact .some (h slot d hd)

/-! ### Whole runs -/

/-- The call with other exits in the store it adds, if it adds one. -/
def HostCall.reroute (f : Dialogue → List Exit) : HostCall → HostCall
  | .addStore s => .addStore (s.reroute fun _ => f)
  | call => call

namespace Conversation

variable {f : Dialogue → List Exit}

theorem reroute_addStore (c : Conversation) (s : Store) :
    (c.addStore s).reroute (fun _ => f) =
      (c.reroute fun _ => f).addStore (s.reroute fun _ => f) := by
  have hstores : (Recast.reroute (fun _ => f) []).stores (c.stores ++ [s]) =
      (Recast.reroute (fun _ => f) []).stores c.stores ++ [s.reroute fun _ => f] :=
    List.mapIdx_concat
  simp only [addStore, reroute, recast, hstores]

/-- A call comes to the same where the exits that differ are never asked for. -/
theorem reroute_perform (hf : ∀ d : Dialogue, d.StandIn (!d.picksElement) { d with exits := f d })
    (c : Conversation) (call : HostCall) :
    (c.perform call).reroute (fun _ => f) =
      (c.reroute fun _ => f).perform (call.reroute f) := by
  have hkeeps : (Recast.reroute (fun _ => f) []).Keeps c :=
    Recast.reroute_keeps (fun _ d _ => hf d) []
  cases call with
  | addStore s => exact reroute_addStore c s
  | _ => exact (recast_perform hkeeps (by rintro s ⟨⟩)).1

/-- Where the exits that change are never read, a run is the same with the other exits. -/
theorem reroute_performAll
    (hf : ∀ d : Dialogue, d.StandIn (!d.picksElement) { d with exits := f d })
    (c : Conversation) (calls : List HostCall) :
    (c.performAll calls).reroute (fun _ => f) =
      (c.reroute fun _ => f).performAll (calls.map (HostCall.reroute f)) := by
  induction calls generalizing c with
  | nil => rfl
  | cons call calls ih =>
      change ((c.perform call).performAll calls).reroute _ = _
      rw [ih, reroute_perform hf]
      rfl

end Conversation

end Parley
