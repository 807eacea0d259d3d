import Parley.Proofs.Conversation.Observation
import Parley.Proofs.Conversation.Picture

/-!
# Stores in the shadow of others

A key is looked for in the stores one after the other, in the order in which they were added. A
store whose keys all occur in stores before it is never found, so it makes no difference to any
run, whatever its dialogues hold.

## Implementation notes

An active dialogue is kept by its place, and the stores that are added behind a shadowed one stand
one place further on. So the two runs do not come to the same conversation: they come to
conversations of which one is played from the other's stores with one more put in.
-/

namespace Parley

namespace Store

/-- Every key of the store is a key of one of the others. -/
def ShadowedBy (s : Store) (stores : List Store) : Prop :=
  ∀ key ∈ s.keys, ∃ t ∈ stores, key ∈ t.keys

end Store

namespace Slot

/-- Where a place is when a store has been put in at `n`. -/
def besides (n : Nat) (slot : Slot) : Slot :=
  if slot.store < n then slot else { slot with store := slot.store + 1 }

/-- Making room for a store brings no two places together. -/
theorem besides_injective (n : Nat) : Function.Injective (besides n) := by
  intro slot other h
  obtain ⟨store, dialogue⟩ := slot
  obtain ⟨store', dialogue'⟩ := other
  simp only [besides] at h
  grind

end Slot

/-- The stores with one more among them. -/
def Recast.putIn (n : Nat) (s : Store) : Recast where
  stores := fun stores => stores.take n ++ s :: stores.drop n
  place := Slot.besides n

namespace Conversation

/-! ### Looking for a key -/

/-- A key is not found if and only if no store has it. -/
theorem locateFrom_eq_none_iff {key : String} {n : Nat} {stores : List Store} :
    locateFrom key n stores = none ↔ ∀ s ∈ stores, key ∉ s.keys := by
  induction stores generalizing n with
  | nil => simp [locateFrom]
  | cons s stores ih =>
      rw [locateFrom, List.forall_mem_cons, Store.mem_keys_iff]
      cases s.position? key with
      | some slot => simp
      | none => simp [ih]

theorem locateFrom_append_of_none {key : String} {n : Nat} {stores : List Store}
    (h : locateFrom key n stores = none) (more : List Store) :
    locateFrom key n (stores ++ more) = locateFrom key (n + stores.length) more := by
  induction stores generalizing n with
  | nil => rfl
  | cons s stores ih =>
      rw [locateFrom] at h
      rw [List.cons_append, locateFrom, List.length_cons]
      cases hs : s.position? key with
      | some slot => simp [hs] at h
      | none =>
          simp only [hs] at h ⊢
          rw [ih h, Nat.add_right_comm, Nat.add_assoc]

theorem locateFrom_succ (key : String) (n : Nat) (stores : List Store) :
    locateFrom key (n + 1) stores =
      (locateFrom key n stores).map fun slot => { slot with store := slot.store + 1 } := by
  induction stores generalizing n with
  | nil => rfl
  | cons s stores ih =>
      rw [locateFrom, locateFrom]
      cases s.position? key with
      | some slot => rfl
      | none => exact ih (n + 1)

theorem le_store_of_locateFrom {key : String} {n : Nat} {stores : List Store} {slot : Slot}
    (h : locateFrom key n stores = some slot) : n ≤ slot.store := by
  obtain ⟨i, -, hslot, -⟩ := locateFrom_eq_some h
  omega

theorem store_lt_of_locateFrom {key : String} {n : Nat} {stores : List Store} {slot : Slot}
    (h : locateFrom key n stores = some slot) : slot.store < n + stores.length := by
  obtain ⟨i, s, hslot, hget, -⟩ := locateFrom_eq_some h
  have hlt := (List.getElem?_eq_some_iff.mp hget).1
  omega

/-- A store put in behind the stores that shadow it is not found. -/
theorem locateFrom_putIn {s : Store} {stores : List Store} (h : s.ShadowedBy stores)
    (more : List Store) (key : String) :
    locateFrom key 0 (stores ++ s :: more) =
      (locateFrom key 0 (stores ++ more)).map (Slot.besides stores.length) := by
  cases hfront : locateFrom key 0 stores with
  | some slot =>
      have hlt := store_lt_of_locateFrom hfront
      rw [locateFrom_append hfront, locateFrom_append hfront, Option.map_some, Slot.besides,
        if_pos (by omega)]
  | none =>
      have hnone : s.position? key = none := by
        rw [Option.eq_none_iff_forall_ne_some]
        intro slot hslot
        obtain ⟨t, ht, hkey⟩ := h key (Store.mem_keys_iff.mpr ⟨slot, hslot⟩)
        exact locateFrom_eq_none_iff.mp hfront t ht hkey
      rw [locateFrom_append_of_none hfront, locateFrom_append_of_none hfront, locateFrom, hnone,
        Nat.zero_add]
      change locateFrom key (stores.length + 1) more = _
      rw [locateFrom_succ]
      apply Option.map_congr
      intro slot hslot
      have hle := le_store_of_locateFrom hslot
      rw [Slot.besides, if_neg (by omega)]

/-! ### One more store -/

section PutIn

variable {s : Store} {c : Conversation} {n : Nat}

/-- Every key is located where it was, beside the store that was put in. -/
theorem locate_putIn (hn : n ≤ c.stores.length) (h : s.ShadowedBy (c.stores.take n))
    (key : String) :
    (c.recast (.putIn n s)).locate key = (c.locate key).map (Slot.besides n) := by
  have hlocate := locateFrom_putIn h (c.stores.drop n) key
  rw [List.take_append_drop, List.length_take, Nat.min_eq_left hn] at hlocate
  exact hlocate

theorem dialogueAt_putIn (hn : n ≤ c.stores.length) (slot : Slot) :
    (c.recast (.putIn n s)).dialogueAt (slot.besides n) = c.dialogueAt slot := by
  have hstore : (c.stores.take n ++ s :: c.stores.drop n)[(slot.besides n).store]? =
      c.stores[slot.store]? := by
    unfold Slot.besides
    grind
  have hdialogue : (slot.besides n).dialogue = slot.dialogue := by
    unfold Slot.besides
    split <;> rfl
  simp only [dialogueAt, hdialogue]
  exact congrArg (Option.bind · _) hstore

/-- Nothing is lost or hidden by a store that is shadowed. -/
theorem putIn_keeps (hn : n ≤ c.stores.length) (h : s.ShadowedBy (c.stores.take n)) :
    (Recast.putIn n s).Keeps c := by
  refine .of_locate (Slot.besides_injective n) (locate_putIn hn h) fun slot => ?_
  change Option.Rel _ _ ((c.recast (.putIn n s)).dialogueAt (slot.besides n))
  rw [dialogueAt_putIn hn]
  cases c.dialogueAt slot with
  | none => exact .none
  | some d => exact .some (.refl _ d)

theorem recast_putIn_addStore (hn : n ≤ c.stores.length) (t : Store) :
    (c.addStore t).recast (.putIn n s) = (c.recast (.putIn n s)).addStore t := by
  simp only [recast, addStore, Recast.putIn, List.take_append_of_le_length hn,
    List.drop_append_of_le_length hn, List.cons_append, List.append_assoc]

/-- What is active stands in one of the stores there are, so a store added last is one put in. -/
theorem addStore_eq_recast (h : Pictured c) (s : Store) :
    c.addStore s = c.recast (.putIn c.stores.length s) := by
  have hactive : c.active.map (Active.recast (.putIn c.stores.length s)) = c.active := by
    unfold Pictured at h
    cases ha : c.active with
    | none => rfl
    | some a =>
        simp only [ha] at h
        obtain ⟨d, i, e, hd, -⟩ := h
        obtain ⟨t, ht, -⟩ := Option.bind_eq_some_iff.mp hd
        have hlt := (List.getElem?_eq_some_iff.mp ht).1
        simp only [Option.map_some, Active.recast, Recast.putIn, Slot.besides, if_pos hlt]
  rw [recast, hactive]
  simp only [addStore, Recast.putIn, List.take_length, List.drop_length, List.nil_append]

end PutIn

/-- `c'` plays from the stores of `c` with one more behind the stores that shadow it. -/
def WithShadowed (s : Store) (c c' : Conversation) : Prop :=
  ∃ n, n ≤ c.stores.length ∧ s.ShadowedBy (c.stores.take n) ∧ c' = c.recast (.putIn n s)

namespace WithShadowed

variable {s : Store} {c c' : Conversation}

theorem view_eq (h : WithShadowed s c c') : c'.view = c.view := by
  obtain ⟨n, hn, hshadowed, rfl⟩ := h
  exact recast_view (putIn_keeps hn hshadowed) rfl

/-- Either call is answered the same, and leaves conversations that differ in the same store. -/
theorem call (h : WithShadowed s c c') (call : HostCall) :
    c'.answer call = c.answer call ∧ WithShadowed s (c.perform call) (c'.perform call) := by
  obtain ⟨n, hn, hshadowed, rfl⟩ := h
  have hkeeps := putIn_keeps hn hshadowed
  refine ⟨recast_answer hkeeps call, n, ?_⟩
  rw [stores_perform, List.take_append_of_le_length hn]
  refine ⟨by rw [List.length_append]; omega, hshadowed, ?_⟩
  cases call with
  | addStore t => exact (recast_putIn_addStore hn t).symm
  | _ => exact (recast_perform hkeeps (by rintro t ⟨⟩)).1.symm

/-- Whole sessions look the same. -/
theorem observe_eq (h : WithShadowed s c c') (calls : List HostCall) :
    c'.observe calls = c.observe calls := by
  have hcall : ∀ {c c' : Conversation} {call call' : HostCall}, WithShadowed s c c' →
      call = call' → c'.answer call' = c.answer call ∧
        WithShadowed s (c.perform call) (c'.perform call') := by
    rintro c c' call _ h rfl
    exact h.call call
  exact observe_eq_of_simulation view_eq hcall h (List.forall₂_eq_eq_eq ▸ rfl)

end WithShadowed

/-- Whenever in a run a store is added whose keys all occur in stores added before it: apart from
the call that adds it, every call is answered as in the run without it, and everything looks the
same behind each call, the one that adds the store included. -/
theorem shadowed_store_inert (config : Config) (entropy : UInt64) (before after : List HostCall)
    (s : Store) (h : s.ShadowedBy ((new config entropy).performAll before).stores) :
    ((new config entropy).observe (before ++ .addStore s :: after)).eraseIdx before.length =
        (new config entropy).observe (before ++ after) ∧
      (((new config entropy).performAll before).addStore s).view =
        ((new config entropy).performAll before).view := by
  have hnew : Pictured (new config entropy) := .inl rfl
  have hpictured := hnew.performAll before
  rw [observe_append, observe_append, ← (new config entropy).length_observe before]
  generalize (new config entropy).performAll before = c at h hpictured ⊢
  have hwith : WithShadowed s c (c.addStore s) := by
    refine ⟨c.stores.length, Nat.le_refl _, ?_, addStore_eq_recast hpictured s⟩
    rwa [List.take_length]
  refine ⟨?_, hwith.view_eq⟩
  rw [observe, List.eraseIdx_append_of_length_le (Nat.le_refl _), Nat.sub_self,
    List.eraseIdx_cons_zero]
  exact congrArg _ (hwith.observe_eq after)

/-! A store with another dialogue under a key that is taken, and one that comes behind it. -/

def hello : Dialogue :=
  { name := "hello", elements := [{ text := "Hello." }], exits := [⟨"", .key "bye"⟩] }

def otherHello : Dialogue :=
  { name := "hello", flags := { oneShot := true }, exits := [⟨"", .key "hello"⟩] }

def bye : Dialogue :=
  { name := "bye", elements := [{ text := "Bye." }] }

def storeOf (d : Dialogue) : Store :=
  { name := d.name
    dialogues := [d]
    index := Std.TreeMap.insert {} d.name 0
    indexed := Store.indexes_nil.insert (d := d) rfl }

def helloCalls : List HostCall :=
  [.addStore (storeOf hello), .start "hello"]

def byeCalls : List HostCall :=
  [.addStore (storeOf bye), .advance 0]

/-- The dialogue behind the shadowed store stands elsewhere, and that is all there is to it. -/
theorem other_hello_inert :
    (storeOf otherHello).ShadowedBy ((new {} 0).performAll helloCalls).stores ∧
      ((new {} 0).performAll (helloCalls ++ byeCalls)).active = some ⟨⟨1, 0⟩, "bye", some 0⟩ ∧
      ((new {} 0).performAll (helloCalls ++ .addStore (storeOf otherHello) :: byeCalls)).active =
        some ⟨⟨2, 0⟩, "bye", some 0⟩ ∧
      ((new {} 0).observe (helloCalls ++ .addStore (storeOf otherHello) :: byeCalls)).eraseIdx 2 =
        (new {} 0).observe (helloCalls ++ byeCalls) ∧
      (((new {} 0).performAll helloCalls).addStore (storeOf otherHello)).view =
        ((new {} 0).performAll helloCalls).view := by
  have hshadowed : (storeOf otherHello).ShadowedBy ((new {} 0).performAll helloCalls).stores :=
    List.forall_mem_singleton.mpr ⟨storeOf hello, List.mem_cons_self, List.mem_cons_self⟩
  exact ⟨hshadowed, rfl, rfl, shadowed_store_inert {} 0 helloCalls byeCalls _ hshadowed⟩

end Conversation

end Parley
