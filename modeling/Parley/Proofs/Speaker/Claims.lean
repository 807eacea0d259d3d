import Mathlib.Data.List.Induction
import Parley.Speaker.Registry

/-!
# Who claims a name

A registry finds a speaker by an index of folded names. Under each of them stands the first speaker
who has it as a name or an alias. The folded form of a blank name is empty, and no other is. So a
registry answers as a scan of the speakers would, and whom it answers with once, it answers with
whoever registers later.
-/

namespace Parley

namespace Text

theorem lowercaseChar_ne_nil (c : Char) : lowercaseChar c ≠ [] := by
  simp only [lowercaseChar]
  split
  · exact List.cons_ne_nil _ _
  · split
    · exact List.cons_ne_nil _ _
    · split <;> exact List.cons_ne_nil _ _

/-- No character is lost where a text is put in lower case. -/
theorem lowercase_eq_nil_iff {cs : List Char} : lowercase cs = [] ↔ cs = [] := by
  cases cs with
  | nil => simp [lowercase, lowercaseFrom]
  | cons c cs =>
      simp only [lowercase, lowercaseFrom, List.append_eq_nil_iff, reduceCtorEq, iff_false,
        not_and]
      intro hform
      split at hform
      · cases hform
      · exact absurd hform (lowercaseChar_ne_nil c)

end Text

namespace Registry

open Text (allBlank)

/-- Only blank names come to the empty one. -/
theorem fold_eq_empty_iff {name : String} : fold name = "" ↔ allBlank name.toList = true := by
  have hempty : "" = String.ofList [] := rfl
  rw [← Text.trim_eq_nil_iff, ← Text.lowercase_eq_nil_iff, fold, hempty, String.ofList_inj]

/-- Whether a name, in its folded form, is the name or an alias of a speaker. -/
def claims (s : Speaker) (key : String) : Bool :=
  (s.name :: s.aliases).any fun name => fold name == key

/-- A name that is claimed already is not claimed again. -/
theorem getElem?_foldl_insertIfNew (names : List String) (index : Std.TreeMap String Nat)
    (slot : Nat) (key : String) :
    (names.foldl (fun index name => index.insertIfNew (fold name) slot) index)[key]? =
      index[key]?.or (if names.any (fun name => fold name == key) then some slot else none) := by
  induction names generalizing index with
  | nil => simp
  | cons name names ih =>
      rw [List.foldl_cons, ih, Std.TreeMap.getElem?_insertIfNew, List.any_cons]
      by_cases hkey : fold name = key
      · subst hkey
        cases hslot : index[fold name]? <;>
          simp [Std.TreeMap.mem_iff_isSome_getElem?, hslot]
      · simp [Std.LawfulEqCmp.compare_eq_iff_eq, hkey]

/-- One more speaker takes the names that nobody has claimed. -/
theorem getElem?_register (r : Registry) (s : Speaker) (key : String) :
    (r.register s).index[key]? =
      r.index[key]?.or (if claims s key then some r.speakers.length else none) :=
  getElem?_foldl_insertIfNew (s.name :: s.aliases) r.index r.speakers.length key

variable {implicit : Bool} {speakers : List Speaker}

theorem ofSpeakers_concat (implicit : Bool) (speakers : List Speaker) (s : Speaker) :
    ofSpeakers implicit (speakers ++ [s]) = (ofSpeakers implicit speakers).register s := by
  rw [ofSpeakers, List.foldl_append]
  rfl

theorem speakers_ofSpeakers (implicit : Bool) (speakers : List Speaker) :
    (ofSpeakers implicit speakers).speakers = speakers := by
  induction speakers using List.reverseRecOn with
  | nil => rfl
  | append_singleton speakers s ih =>
      rw [ofSpeakers_concat, register, ih]

theorem implicit_ofSpeakers (implicit : Bool) (speakers : List Speaker) :
    (ofSpeakers implicit speakers).implicit = implicit := by
  induction speakers using List.reverseRecOn with
  | nil => rfl
  | append_singleton speakers s ih =>
      rw [ofSpeakers_concat, register, ih]

/-- The index gives the place of the first speaker who claims the name. -/
theorem getElem?_index_ofSpeakers (implicit : Bool) (speakers : List Speaker) (key : String) :
    (ofSpeakers implicit speakers).index[key]? = speakers.findIdx? fun s => claims s key := by
  induction speakers using List.reverseRecOn with
  | nil => exact Std.TreeMap.getElem?_emptyc
  | append_singleton speakers s ih =>
      rw [ofSpeakers_concat, getElem?_register, ih, speakers_ofSpeakers, List.findIdx?_append,
        List.findIdx?_singleton]
      split <;> simp

/-- A speaker claims the empty name with a blank name or alias. -/
theorem claims_empty_iff {s : Speaker} :
    claims s "" = true ↔ ∃ claim ∈ s.name :: s.aliases, allBlank claim.toList = true := by
  simp only [claims, List.any_eq_true, beq_iff_eq, fold_eq_empty_iff]

/-! ### Scanning the speakers -/

/-- The first speaker who claims a name, in the order they were registered in. -/
def claimant? (speakers : List Speaker) (name : String) : Option Speaker :=
  speakers.find? fun s => claims s (fold name)

/-- Whom a name means that nobody claims: an implicit registry makes a speaker up, unless the name
is blank. -/
def unclaimed (implicit : Bool) (name : String) : Option Speaker :=
  if implicit && !allBlank name.toList then
    some { name := String.ofList (Text.trim name.toList) }
  else none

theorem isEmpty_fold (name : String) : (fold name).isEmpty = allBlank name.toList := by
  rw [Bool.eq_iff_iff, String.isEmpty_iff, fold_eq_empty_iff]

/-- What the index finds stands in the list, so that a place never comes to nothing. -/
theorem resolve_eq (implicit : Bool) (speakers : List Speaker) (name : String) :
    (ofSpeakers implicit speakers).resolve name =
      (claimant? speakers name).or (unclaimed implicit name) := by
  simp only [resolve, claimant?, unclaimed, getElem?_index_ofSpeakers, speakers_ofSpeakers,
    implicit_ofSpeakers, isEmpty_fold]
  cases hslot : speakers.findIdx? fun s => claims s (fold name) with
  | none =>
      have hnone : speakers.find? (fun s => claims s (fold name)) = none :=
        List.find?_eq_none.mpr (by simpa using List.findIdx?_eq_none_iff.mp hslot)
      rw [hnone, Option.none_or]
  | some slot =>
      obtain ⟨hlt, hclaimed, hbefore⟩ := List.findIdx?_eq_some_iff_getElem.mp hslot
      have hfound : speakers.find? (fun s => claims s (fold name)) = some speakers[slot] :=
        List.find?_eq_some_iff_getElem.mpr ⟨hclaimed, slot, hlt, rfl, by simpa using hbefore⟩
      rw [hfound, Option.some_or]
      exact List.getElem?_eq_getElem hlt

/-- A blank name means nobody, unless it is claimed: no speaker is made up for it. -/
theorem resolve_blank_eq_none_iff {name : String} (hname : allBlank name.toList = true) :
    (ofSpeakers implicit speakers).resolve name = none ↔
      ∀ s ∈ speakers, ∀ claim ∈ s.name :: s.aliases, allBlank claim.toList = false := by
  have hfold : fold name = "" := fold_eq_empty_iff.mpr hname
  have hclaims : ∀ s : Speaker, ¬ claims s "" = true ↔
      ∀ claim ∈ s.name :: s.aliases, allBlank claim.toList = false := by
    intro s
    rw [claims_empty_iff]
    simp only [not_exists, not_and, Bool.not_eq_true]
  have hnobody : unclaimed implicit name = none := by
    simp only [unclaimed, hname, Bool.not_true, Bool.and_false, Bool.false_eq_true, if_false]
  rw [resolve_eq, hnobody, Option.or_none, claimant?, hfold, List.find?_eq_none]
  simp only [hclaims]

/-- A registry finds whom a scan of its speakers finds, and only where the scan finds nobody does
it make somebody up. Whom a name means that is claimed, no later registration changes. -/
theorem resolve_scans (implicit : Bool) (speakers : List Speaker) (name : String) :
    (ofSpeakers implicit speakers).resolve name =
        (claimant? speakers name).or (unclaimed implicit name) ∧
      ∀ later : List Speaker, (∃ s ∈ speakers, claims s (fold name) = true) →
        (later.foldl register (ofSpeakers implicit speakers)).resolve name =
          (ofSpeakers implicit speakers).resolve name := by
  refine ⟨resolve_eq implicit speakers name, fun later hclaimed => ?_⟩
  have hall : later.foldl register (ofSpeakers implicit speakers) =
      ofSpeakers implicit (speakers ++ later) := by
    rw [ofSpeakers, ofSpeakers, List.foldl_append]
  obtain ⟨s, hfound⟩ : ∃ s, claimant? speakers name = some s :=
    Option.isSome_iff_exists.mp (List.find?_isSome.mpr hclaimed)
  have hkept : claimant? (speakers ++ later) name = some s := by
    rw [claimant?, List.find?_append, ← claimant?, hfound, Option.some_or]
  rw [hall, resolve_eq, resolve_eq, hkept, hfound]

/-- Two speakers share an alias, and one who comes later claims a name of each. -/
theorem shared_alias_resolves :
    let bob : Speaker := ⟨"Bob", ["Robert", "É"], none⟩
    let rob : Speaker := ⟨"Rob", ["robert "], some "red"⟩
    let later : Speaker := ⟨"é", ["ROB", "Robin"], none⟩
    let reg := ofSpeakers true [bob, rob]
    (reg.resolve " ROBERT " = some bob ∧ reg.resolve "robin " = some ⟨"robin", [], none⟩) ∧
      ([later].foldl register reg).resolve " é" = some bob ∧
      ([later].foldl register reg).resolve "rob" = some rob := by
  intro bob rob later reg
  refine ⟨⟨?_, ?_⟩, ?_, ?_⟩
  · rw [(resolve_scans true [bob, rob] " ROBERT ").1]
    decide +kernel
  · rw [(resolve_scans true [bob, rob] "robin ").1]
    decide +kernel
  · rw [(resolve_scans true [bob, rob] " é").2 [later] ⟨bob, by simp, by decide +kernel⟩]
    decide +kernel
  · rw [(resolve_scans true [bob, rob] "rob").2 [later] ⟨rob, by simp, by decide +kernel⟩]
    decide +kernel

end Registry

end Parley
