import Mathlib.Data.List.Induction
import Mathlib.Data.List.Nodup
import Parley.Proofs.Conversation.Assignment
import Parley.Proofs.Conversation.Shadowing

/-!
# Finding a dialogue

A store that is made of dialogues finds them by an index, and a conversation finds a dialogue by
asking one store after the other. Both come to the same as looking through the dialogues in order.
What is found stays where it is when stores are added.

## Implementation notes

No name can stand twice in an index, so whatever a store finds is the first of its name. That an
index can be made at all is told by one alternative for lists of dialogues: their names are
distinct, or there is a first one that repeats another.
-/

namespace Parley

namespace Store

/-! ### Names that repeat -/

/-- A dialogue has the name of one before it, and no dialogue before it has. -/
def FirstRepeat (ds : List Dialogue) (d : Dialogue) : Prop :=
  ∃ before after, ds = before ++ d :: after ∧ (before.map Dialogue.name).Nodup ∧
    d.name ∈ before.map Dialogue.name

/-- Either no name repeats, or one is the first that does. -/
theorem nodup_or_firstRepeat (ds : List Dialogue) :
    (ds.map Dialogue.name).Nodup ∨ ∃ d, FirstRepeat ds d := by
  induction ds using List.reverseRecOn with
  | nil => exact .inl List.nodup_nil
  | append_singleton ds last ih =>
      rcases ih with hnodup | ⟨d, before, after, rfl, hbefore, hmem⟩
      · by_cases hmem : last.name ∈ ds.map Dialogue.name
        · exact .inr ⟨last, ds, [], rfl, hnodup, hmem⟩
        · refine .inl ?_
          rw [List.map_append, List.map_singleton, ← List.concat_eq_append]
          exact List.Nodup.concat hmem hnodup
      · exact .inr ⟨d, before, after ++ [last], by simp, hbefore, hmem⟩

/-! ### Making a store -/

/-- Dialogues are indexed one after another. -/
theorem indexFrom_append {slot : Nat} {index index' : Std.TreeMap String Nat}
    {before : List Dialogue} (h : indexFrom slot index before = .ok index')
    (after : List Dialogue) :
    indexFrom slot index (before ++ after) = indexFrom (slot + before.length) index' after := by
  induction before generalizing slot index with
  | nil =>
      cases h
      rfl
  | cons d before ih =>
      rw [indexFrom] at h
      split at h
      · cases h
      · next hnew =>
          rw [List.cons_append, indexFrom, if_neg hnew, ih h, List.length_cons]
          congr 1
          omega

/-- The first key that comes again is the one that is refused. -/
theorem indexFrom_of_firstRepeat {ds : List Dialogue} {d : Dialogue} (h : FirstRepeat ds d) :
    indexFrom 0 {} ds = .error (.duplicateKey d.name 0) := by
  obtain ⟨before, after, rfl, hnodup, hmem⟩ := h
  obtain ⟨index, hindex⟩ : ∃ index, indexFrom 0 {} before = .ok index :=
    exists_indexFrom hnodup fun _ _ => rfl
  obtain ⟨e, he, hname⟩ := List.mem_map.mp hmem
  obtain ⟨slot, hslot⟩ := List.mem_iff_getElem?.mp he
  have hindexes : Indexes index ([] ++ before) := indexFrom_indexes indexes_nil hindex
  have hfound : index[d.name]? = some slot := (hindexes _ _).mpr ⟨e, hslot, hname⟩
  have hcontains : index.contains d.name = true := by
    rw [Std.TreeMap.contains_eq_isSome_getElem?, hfound]
    rfl
  rw [indexFrom_append hindex, indexFrom, if_pos hcontains]

theorem ofDialogues_of_firstRepeat (name : String) {ds : List Dialogue} {d : Dialogue}
    (h : FirstRepeat ds d) : ofDialogues name ds = .error (.duplicateKey d.name 0) := by
  have hindex := indexFrom_of_firstRepeat h
  unfold ofDialogues
  split
  · next error herror => exact congrArg Except.error (Except.error.inj (herror.symm.trans hindex))
  · next index hok => cases hok.symm.trans hindex

theorem name_of_ofDialogues {name : String} {ds : List Dialogue} {s : Store}
    (h : ofDialogues name ds = .ok s) : s.name = name := by
  unfold ofDialogues at h
  split at h
  · cases h
  · cases h
    rfl

/-- There is a store of dialogues if and only if no two of them share a key. -/
theorem exists_ofDialogues_iff {name : String} {ds : List Dialogue} :
    (∃ s, ofDialogues name ds = .ok s) ↔ (ds.map Dialogue.name).Nodup := by
  constructor
  · rintro ⟨s, hs⟩
    rcases nodup_or_firstRepeat ds with hnodup | ⟨d, hrepeat⟩
    · exact hnodup
    · cases hs.symm.trans (ofDialogues_of_firstRepeat name hrepeat)
  · intro hnodup
    obtain ⟨s, hs, -⟩ := exists_ofDialogues name hnodup
    exact ⟨s, hs⟩

/-- There is one reason only to refuse dialogues, and the error names the first key that comes
again. -/
theorem ofDialogues_eq_error_iff {name : String} {ds : List Dialogue} {error : ScriptError} :
    ofDialogues name ds = .error error ↔
      ∃ d, FirstRepeat ds d ∧ error = .duplicateKey d.name 0 := by
  constructor
  · intro herror
    rcases nodup_or_firstRepeat ds with hnodup | ⟨d, hrepeat⟩
    · obtain ⟨s, hs⟩ := exists_ofDialogues_iff.mpr hnodup
      cases hs.symm.trans herror
    · exact ⟨d, hrepeat, Except.error.inj
        (herror.symm.trans (ofDialogues_of_firstRepeat name hrepeat))⟩
  · rintro ⟨d, hrepeat, rfl⟩
    exact ofDialogues_of_firstRepeat name hrepeat

/-! ### Looking up a key -/

/-- The index says where a scan through the dialogues would end. -/
theorem position?_eq_findIdx? (s : Store) (key : String) :
    s.position? key = s.dialogues.findIdx? (·.name == key) := by
  ext1 slot
  rw [List.findIdx?_eq_some_iff_getElem]
  change s.index[key]? = some slot ↔ _
  constructor
  · intro hslot
    obtain ⟨d, hd, hname⟩ := (s.indexed key slot).mp hslot
    obtain ⟨hlt, rfl⟩ := List.getElem?_eq_some_iff.mp hd
    refine ⟨hlt, by simpa using hname, fun j hj hfirst => ?_⟩
    have hj' := List.getElem?_eq_getElem (Nat.lt_trans hj hlt)
    have hearlier : s.index[key]? = some j :=
      (s.indexed key j).mpr ⟨_, hj', by simpa using hfirst⟩
    exact absurd (Option.some.inj (hearlier.symm.trans hslot)) (Nat.ne_of_lt hj)
  · rintro ⟨hlt, hname, -⟩
    exact (s.indexed key slot).mpr ⟨_, List.getElem?_eq_getElem hlt, by simpa using hname⟩

theorem find?_eq_find? (s : Store) (key : String) :
    s.find? key = s.dialogues.find? (·.name == key) := by
  rw [List.find?_eq_bind_findIdx?_getElem?, ← position?_eq_findIdx?, find?]
  cases s.position? key <;> rfl

theorem has_eq_any (s : Store) (key : String) :
    s.has key = s.dialogues.any (·.name == key) := by
  rw [← List.findIdx?_isSome, ← position?_eq_findIdx?]
  exact Std.TreeMap.contains_eq_isSome_getElem?

end Store

namespace Conversation

/-! ### One store after the other -/

/-- A place in the first of some stores that has a dialogue of that name, and at the place there. -/
def FirstWith (stores : List Store) (key : String) (slot : Slot) : Prop :=
  ∃ before s after d, stores = before ++ s :: after ∧ slot.store = before.length ∧
    (∀ earlier ∈ before, key ∉ earlier.keys) ∧
    s.dialogues[slot.dialogue]? = some d ∧ d.name = key

/-- A key is located in the first store that has it. -/
theorem locate_eq_some_iff {c : Conversation} {key : String} {slot : Slot} :
    c.locate key = some slot ↔ FirstWith c.stores key slot := by
  constructor
  · intro h
    obtain ⟨i, s, hi, hs, hplace⟩ := locateFrom_eq_some h
    obtain ⟨d, hd, hname⟩ := (s.indexed key slot.dialogue).mp hplace
    obtain ⟨hlt, rfl⟩ := List.getElem?_eq_some_iff.mp hs
    rw [Nat.zero_add] at hi
    refine ⟨c.stores.take i, _, c.stores.drop (i + 1), d, ?_, ?_, ?_, hd, hname⟩
    · rw [List.getElem_cons_drop, List.take_append_drop]
    · rw [hi, List.length_take_of_le (Nat.le_of_lt hlt)]
    · rw [← locateFrom_eq_none_iff (n := 0)]
      cases hearlier : locateFrom key 0 (c.stores.take i) with
      | none => rfl
      | some other =>
          -- what is found in front of the store would have been found instead
          have hsame := locateFrom_append hearlier (c.stores.drop i)
          rw [List.take_append_drop] at hsame
          obtain ⟨j, t, hj, ht, -⟩ := locateFrom_eq_some hearlier
          have hlength := (List.getElem?_eq_some_iff.mp ht).1
          cases hsame.symm.trans h
          rw [List.length_take] at hlength
          omega
  · rintro ⟨before, s, after, d, hstores, hstore, hearlier, hd, hname⟩
    have hplace : s.position? key = some slot.dialogue :=
      (s.indexed key slot.dialogue).mpr ⟨d, hd, hname⟩
    rw [locate, hstores, locateFrom_append_of_none (locateFrom_eq_none_iff.mpr hearlier),
      locateFrom, hplace, Nat.zero_add, ← hstore]

theorem stores_foldl_addStore (c : Conversation) (more : List Store) :
    (more.foldl addStore c).stores = c.stores ++ more := by
  induction more generalizing c with
  | nil => exact (List.append_nil _).symm
  | cons s more ih => rw [List.foldl_cons, ih, addStore, List.append_assoc, List.singleton_append]

/-- A place that is found keeps its dialogue when stores are added, and is found again. -/
theorem locate_foldl_addStore {c : Conversation} {key : String} {slot : Slot}
    (h : c.locate key = some slot) (more : List Store) :
    (more.foldl addStore c).locate key = some slot ∧
      (more.foldl addStore c).dialogueAt slot = c.dialogueAt slot := by
  obtain ⟨before, s, after, d, hstores, hstore, -⟩ := locate_eq_some_iff.mp h
  have hlt : slot.store < c.stores.length := by
    rw [hstores, hstore, List.length_append, List.length_cons]
    omega
  constructor
  · rw [locate, stores_foldl_addStore]
    exact locateFrom_append h more
  · rw [dialogueAt, dialogueAt, stores_foldl_addStore, List.getElem?_append_left hlt]

/-- A store is made of dialogues exactly when their names are distinct, and otherwise the first
name that repeats an earlier one is reported. It has the dialogues it was made of, and whatever is
looked up in it is found as by looking through them for the first one of that name. A key is
located in the first store that has it, at the place where its dialogue stands there, and in none if
no store has it; a place that was found stays, with its dialogue, when stores are added. -/
theorem lookup_is_scan (name : String) (ds : List Dialogue) (c : Conversation) (key : String) :
    ((∃ s, Store.ofDialogues name ds = .ok s) ↔ (ds.map Dialogue.name).Nodup) ∧
    (∀ error, Store.ofDialogues name ds = .error error ↔
      ∃ d, Store.FirstRepeat ds d ∧ error = .duplicateKey d.name 0) ∧
    (∀ s, Store.ofDialogues name ds = .ok s →
      s.name = name ∧ s.dialogues = ds ∧
        s.position? key = ds.findIdx? (·.name == key) ∧
        s.find? key = ds.find? (·.name == key) ∧
        s.has key = ds.any (·.name == key)) ∧
    (∀ slot, c.locate key = some slot ↔ FirstWith c.stores key slot) ∧
    (c.locate key = none ↔ ∀ s ∈ c.stores, key ∉ s.keys) ∧
    ∀ slot, c.locate key = some slot → ∀ more : List Store,
      (more.foldl addStore c).locate key = some slot ∧
        (more.foldl addStore c).dialogueAt slot = c.dialogueAt slot := by
  refine ⟨Store.exists_ofDialogues_iff, fun error => Store.ofDialogues_eq_error_iff,
    fun s hs => ?_, fun slot => locate_eq_some_iff, locateFrom_eq_none_iff,
    fun slot h more => locate_foldl_addStore h more⟩
  obtain rfl := Store.dialogues_of_ofDialogues hs
  exact ⟨Store.name_of_ofDialogues hs, rfl, s.position?_eq_findIdx? key, s.find?_eq_find? key,
    s.has_eq_any key⟩

/-! The chest beside a box, a box too many, and a second chest in a store added later. -/

def box : Dialogue :=
  { chest with name := "box" }

theorem chest_lookup_is_scan :
    (∃ s, Store.ofDialogues "hall" [chest, box] = .ok s ∧ s.position? "box" = some 1 ∧
      s.find? "box" = some box ∧ s.has "bag" = false) ∧
    Store.ofDialogues "hall" [chest, box, box, chest] = .error (.duplicateKey "box" 0) ∧
    chestTalk.locate "chest" = some ⟨0, 0⟩ ∧
    ([chestStore].foldl addStore chestTalk).locate "chest" = some ⟨0, 0⟩ := by
  have hplace : chestTalk.locate "chest" = some ⟨0, 0⟩ := by decide +kernel
  refine ⟨?_, ?_, hplace, ?_⟩
  · obtain ⟨s, hs⟩ := (lookup_is_scan "hall" [chest, box] chestTalk "box").1.mpr (by decide)
    obtain ⟨-, -, hposition, hfind, -⟩ :=
      (lookup_is_scan "hall" [chest, box] chestTalk "box").2.2.1 s hs
    obtain ⟨-, -, -, -, hhas⟩ :=
      (lookup_is_scan "hall" [chest, box] chestTalk "bag").2.2.1 s hs
    exact ⟨s, hs, hposition.trans rfl, hfind.trans rfl, hhas.trans rfl⟩
  · have hrepeat : Store.FirstRepeat [chest, box, box, chest] box :=
      ⟨[chest, box], [chest], rfl, by decide, by decide⟩
    exact ((lookup_is_scan "hall" _ chestTalk "box").2.1 _).mpr ⟨box, hrepeat, rfl⟩
  · exact ((lookup_is_scan "hall" [] chestTalk "chest").2.2.2.2.2 _ hplace [chestStore]).1

end Conversation

end Parley
