import Parley.Script.Basic
import Parley.Text.Split

/-!
# Stores

A store holds the dialogues of one script and finds them by key. No key occurs twice in it.
-/

namespace Parley

/-- Whether an index gives, for every key, the place of its dialogue in a list. -/
def Store.Indexes (index : Std.TreeMap String Nat) (ds : List Dialogue) : Prop :=
  ∀ key slot, index[key]? = some slot ↔ ∃ d : Dialogue, ds[slot]? = some d ∧ d.name = key

/-- The dialogues of a script with an index of their keys. The index is right by construction, so a
key leads to one dialogue at most. -/
structure Store where
  name : String
  dialogues : List Dialogue
  index : Std.TreeMap String Nat
  indexed : Store.Indexes index dialogues
  diagnostics : List Diagnostic := []

namespace Store

/-- Adds dialogues that stand from `slot` on to an index of those before them. A repeated key has
no line: the dialogues need not come from a script. -/
def indexFrom (slot : Nat) (index : Std.TreeMap String Nat) :
    List Dialogue → Except ScriptError (Std.TreeMap String Nat)
  | [] => .ok index
  | d :: ds =>
      if index.contains d.name then .error (.duplicateKey d.name 0)
      else indexFrom (slot + 1) (index.insert d.name slot) ds

theorem indexes_nil : Indexes {} [] := by
  intro key slot
  simp

/-- The index goes on to hold when a dialogue with a new key is added behind all others. -/
theorem Indexes.insert {index : Std.TreeMap String Nat} {ds : List Dialogue} {d : Dialogue}
    (h : Indexes index ds) (hnew : index.contains d.name = false) :
    Indexes (index.insert d.name ds.length) (ds ++ [d]) := by
  have hfresh : ∀ e ∈ ds, e.name ≠ d.name := by
    intro e he hname
    obtain ⟨i, hi⟩ := List.mem_iff_getElem?.mp he
    have hsome : index[d.name]? = some i := (h _ _).mpr ⟨e, hi, hname⟩
    simp [Std.TreeMap.contains_eq_isSome_getElem?, hsome] at hnew
  intro key slot
  rw [Std.TreeMap.getElem?_insert]
  by_cases hkey : d.name = key
  · subst hkey
    simp only [Std.ReflCmp.compare_self, if_true, Option.some.injEq]
    constructor
    · rintro rfl
      exact ⟨d, by simp, rfl⟩
    · rintro ⟨e, he, hname⟩
      have hne : ds[slot]? ≠ some e := fun hs => hfresh e (List.mem_of_getElem? hs) hname
      grind
  · have hlt : index[key]? = some slot ↔ ∃ e, ds[slot]? = some e ∧ e.name = key := h _ _
    simp only [Std.LawfulEqCmp.compare_eq_iff_eq, hkey, if_false]
    rw [hlt]
    grind

theorem indexFrom_indexes {ds done : List Dialogue} {index index' : Std.TreeMap String Nat}
    (h : Indexes index done) (hds : indexFrom done.length index ds = .ok index') :
    Indexes index' (done ++ ds) := by
  induction ds generalizing done index with
  | nil =>
      cases hds
      simpa using h
  | cons d ds ih =>
      rw [indexFrom] at hds
      split at hds
      · cases hds
      · next hnew =>
          have hnext := h.insert (d := d) (by simpa only [Bool.not_eq_true] using hnew)
          simpa using ih hnext (by simpa using hds)

/-- Dialogues that share no key with one another or with those before them are all taken. -/
theorem exists_indexFrom {ds : List Dialogue} {slot : Nat} {index : Std.TreeMap String Nat}
    (hdistinct : (ds.map Dialogue.name).Nodup)
    (hfresh : ∀ d ∈ ds, index.contains d.name = false) :
    ∃ index', indexFrom slot index ds = .ok index' := by
  induction ds generalizing slot index with
  | nil => exact ⟨index, rfl⟩
  | cons d ds ih =>
      obtain ⟨hnew, hothers⟩ := List.forall_mem_cons.mp hfresh
      obtain ⟨hfirst, hrest⟩ := List.nodup_cons.mp hdistinct
      have hnext : ∀ e ∈ ds, (index.insert d.name slot).contains e.name = false := by
        intro e he
        have hne : d.name ≠ e.name := fun heq => hfirst (heq ▸ List.mem_map_of_mem he)
        simp [Std.TreeMap.contains_insert, hne, hothers e he]
      obtain ⟨index', hindex⟩ := ih hrest hnext
      exact ⟨index', by rw [indexFrom, hnew, if_neg Bool.false_ne_true, hindex]⟩

/-- A store of any list of dialogues whose keys differ. -/
def ofDialogues (name : String) (dialogues : List Dialogue) : Except ScriptError Store :=
  match h : indexFrom 0 {} dialogues with
  | .error error => .error error
  | .ok index => .ok { name, dialogues, index, indexed := indexFrom_indexes indexes_nil h }

/-- A store of what a script holds, with the diagnostics of reading it. -/
def ofSource (name : String) (reg : Registry) (source : String) : Except ScriptError Store :=
  match Script.parse reg source with
  | .error error => .error error
  | .ok script =>
      (ofDialogues name script.dialogues).map fun store =>
        { store with diagnostics := script.diagnostics }

theorem dialogues_of_ofDialogues {name : String} {ds : List Dialogue} {s : Store}
    (h : ofDialogues name ds = .ok s) : s.dialogues = ds := by
  unfold ofDialogues at h
  split at h
  · cases h
  · cases h
    rfl

theorem exists_ofDialogues (name : String) {ds : List Dialogue}
    (h : (ds.map Dialogue.name).Nodup) :
    ∃ s, ofDialogues name ds = .ok s ∧ s.name = name ∧ s.dialogues = ds := by
  obtain ⟨index, hindex⟩ : ∃ index, indexFrom 0 {} ds = .ok index :=
    exists_indexFrom h fun d _ => rfl
  unfold ofDialogues
  split
  · next error herror => cases hindex.symm.trans herror
  · exact ⟨_, rfl, rfl, rfl⟩

theorem script_of_ofSource {name source : String} {reg : Registry} {s : Store}
    (h : ofSource name reg source = .ok s) :
    ∃ script, Script.parse reg source = .ok script ∧ s.dialogues = script.dialogues ∧
      s.diagnostics = script.diagnostics := by
  unfold ofSource at h
  split at h
  · cases h
  · next script hparse =>
      cases hstore : ofDialogues name script.dialogues with
      | error error =>
          rw [hstore] at h
          cases h
      | ok store =>
          have hdialogues := dialogues_of_ofDialogues hstore
          rw [hstore] at h
          cases h
          exact ⟨script, hparse, hdialogues, rfl⟩

/-- The place of a key in the list of dialogues. -/
def position? (s : Store) (key : String) : Option Nat :=
  s.index[key]?

/-- The dialogue that a key stands for. -/
def find? (s : Store) (key : String) : Option Dialogue :=
  match s.position? key with
  | some slot => s.dialogues[slot]?
  | none => none

def has (s : Store) (key : String) : Bool :=
  s.index.contains key

def keys (s : Store) : List String :=
  s.dialogues.map Dialogue.name

/-- A key is found where it stands in the list of keys, and nowhere else. -/
theorem position?_eq_some_iff {s : Store} {key : String} {slot : Nat} :
    s.position? key = some slot ↔ s.keys[slot]? = some key := by
  simp only [keys, position?, s.indexed key, List.getElem?_map, Option.map_eq_some_iff]

theorem mem_keys_iff {s : Store} {key : String} :
    key ∈ s.keys ↔ ∃ slot, s.position? key = some slot := by
  simp only [position?_eq_some_iff, List.mem_iff_getElem?]

def size (s : Store) : Nat :=
  s.dialogues.length

def isEmpty (s : Store) : Bool :=
  s.dialogues.isEmpty

end Store

end Parley
