import Parley.Conversation.Query
import Parley.Proofs.Conversation.Ending

/-!
# Chains of redirects

A dialogue without elements only leads elsewhere, so a key may stand for a dialogue that lies
behind a chain of others. Looking ahead follows the chain and touches nothing. Starting the key
follows it too, but ends what was active, marks every dialogue on the way and spends a hop for
each. Both come to the same dialogue, or both come to nothing.

## Implementation notes

A one-shot dialogue that starting has marked may not start again. On a chain that ends at
elements no key comes twice, since its distance from the end tells it apart from the others; on
any other chain the marks only bring the end nearer.
-/

namespace Parley

/-- What a key leads to when it is started. -/
inductive Prospect where
  /-- There is no such dialogue, or it may not start, or it has no element and no open exit. -/
  | nothing
  | elements (slot : Slot) (d : Dialogue)
  /-- A dialogue without elements hands on to another key. -/
  | redirect (next : String)
  /-- A dialogue without elements runs code. -/
  | code
deriving DecidableEq

namespace Conversation

/-- What starting a key would come to, told without starting it. -/
def prospect (c : Conversation) (key : String) : Prospect :=
  match c.target? key with
  | none => .nothing
  | some (slot, d) =>
      if d.flags.oneShot && c.seen.has key then .nothing
      else if d.isRedirect then
        match (selectExit c.vars.lookup d.exits).1 with
        | none => .nothing
        | some (.key next) => .redirect next
        | some (.code _) => .code
      else .elements slot d

/-- A chain of redirects, with the number of its hops. -/
inductive Leads (c : Conversation) : Nat → String → String → Prop
  | here (key : String) : Leads c 0 key key
  | hop {n : Nat} {key next last : String} (h : c.prospect key = .redirect next)
      (rest : Leads c n next last) : Leads c (n + 1) key last

variable {c : Conversation} {key next : String} {slot : Slot} {d : Dialogue}

theorem prospect_eq_elements_iff :
    c.prospect key = .elements slot d ↔ c.target? key = some (slot, d) ∧
      (d.flags.oneShot && c.seen.has key) = false ∧ d.isRedirect = false := by
  unfold prospect
  cases c.target? key with
  | none => simp
  | some found => grind

theorem prospect_eq_redirect_iff :
    c.prospect key = .redirect next ↔ ∃ slot d, c.target? key = some (slot, d) ∧
      (d.flags.oneShot && c.seen.has key) = false ∧ d.isRedirect = true ∧
      (selectExit c.vars.lookup d.exits).1 = some (.key next) := by
  unfold prospect
  cases c.target? key with
  | none => simp
  | some found => grind

/-- A chain cannot be longer than one from the same key that ends at elements. -/
theorem Leads.le_of_elements {n m : Nat} {key last other : String} {slot : Slot} {d : Dialogue}
    (h : c.Leads n key last) (hlast : c.prospect last = .elements slot d)
    (h' : c.Leads m key other) : m ≤ n ∧ ∃ k, c.Leads k other last := by
  -- Both chains take the same hops, since a key has one prospect.
  induction h generalizing m with
  | here key =>
      cases h' with
      | here => exact ⟨Nat.le_refl _, 0, .here _⟩
      | hop hother =>
          rw [hlast] at hother
          cases hother
  | @hop n key next last hnext rest ih =>
      cases h' with
      | here => exact ⟨Nat.zero_le _, n + 1, .hop hnext rest⟩
      | hop hother rest' =>
          rw [hnext] at hother
          cases hother
          obtain ⟨hle, hends⟩ := ih hlast rest'
          exact ⟨Nat.succ_le_succ hle, hends⟩

/-! ### Looking ahead -/

/-- Looking ahead follows the prospects, and spends a hop on each redirect. -/
theorem reaches_eq (c : Conversation) (start : String) (hops : Nat) (key : String) :
    (c.reaches start hops key).1 =
      match c.prospect key, hops with
      | .elements _ _, _ => true
      | .redirect next, hops + 1 => (c.reaches start hops next).1
      | _, _ => false := by
  conv => lhs; unfold reaches
  simp only [locate_bind_dialogueAt, prospect]
  cases c.target? key with
  | none => rfl
  | some found =>
      obtain ⟨slot, d⟩ := found
      simp only [Option.map_some]
      split
      · rfl
      · cases d.isRedirect with
        | false => rfl
        | true =>
            simp only [Bool.not_true, if_true, Bool.false_eq_true, if_false]
            rcases selectExit c.vars.lookup d.exits with ⟨_ | next | statements, notices⟩
            · rfl
            · cases hops <;> rfl
            · rfl

/-- Looking ahead finds exactly the keys from which a chain within the hops ends at elements. -/
theorem reaches_iff (c : Conversation) (start : String) (hops : Nat) (key : String) :
    (c.reaches start hops key).1 = true ↔
      ∃ n last slot d, n ≤ hops ∧ c.Leads n key last ∧ c.prospect last = .elements slot d := by
  induction hops generalizing key with
  | zero =>
      rw [reaches_eq]
      constructor
      · intro h
        cases hprospect : c.prospect key with
        | elements slot d => exact ⟨0, key, slot, d, Nat.le_refl _, .here key, hprospect⟩
        | _ => simp [hprospect] at h
      · rintro ⟨n, last, slot, d, hn, hleads, hlast⟩
        cases hleads with
        | here => simp only [hlast]
        | hop => omega
  | succ hops ih =>
      rw [reaches_eq]
      constructor
      · intro h
        cases hprospect : c.prospect key with
        | elements slot d => exact ⟨0, key, slot, d, Nat.zero_le _, .here key, hprospect⟩
        | redirect next =>
            simp only [hprospect] at h
            obtain ⟨n, last, slot, d, hn, hleads, hlast⟩ := (ih next).mp h
            exact ⟨n + 1, last, slot, d, Nat.succ_le_succ hn, .hop hprospect hleads, hlast⟩
        | nothing => simp [hprospect] at h
        | code => simp [hprospect] at h
      · rintro ⟨n, last, slot, d, hn, hleads, hlast⟩
        cases hleads with
        | here => simp only [hlast]
        | hop hnext hrest =>
            simp only [hnext]
            exact (ih _).mpr ⟨_, last, slot, d, Nat.le_of_succ_le_succ hn, hrest, hlast⟩

/-- The end of a chain at elements is where looking ahead comes to, within the hops or not. -/
theorem Leads.hasDialogue_iff {n : Nat} {last : String} {slot : Slot} {d : Dialogue}
    (h : c.Leads n key last) (hlast : c.prospect last = .elements slot d) :
    c.hasDialogue key = true ↔ n ≤ c.config.maxRedirects := by
  unfold hasDialogue findDialogue
  rw [reaches_iff]
  constructor
  · rintro ⟨m, other, slot', d', hm, hother, hend⟩
    exact Nat.le_trans (hother.le_of_elements hend h).1 hm
  · intro hn
    exact ⟨n, last, slot, d, hn, h, hlast⟩

/-- No dialogue on a chain that ends at elements runs code. -/
theorem Leads.not_code {n m : Nat} {last other : String} {slot : Slot} {d : Dialogue}
    (h : c.Leads n key last) (hlast : c.prospect last = .elements slot d)
    (h' : c.Leads m key other) : c.prospect other ≠ .code := by
  obtain ⟨k, hrest⟩ := (h.le_of_elements hlast h').2
  intro hcode
  cases hrest with
  | here => simp [hlast] at hcode
  | hop hnext => simp [hnext] at hcode

end Conversation

namespace Turn

open Conversation (selectExit)

variable {c : Conversation} {hop : Hop} {key next : String} {t : Turn} {slot : Slot} {d : Dialogue}

/-- The turn is at work on the conversation `c`: its stores and variables are those of `c`. -/
structure Upon (c : Conversation) (t : Turn) : Prop where
  stores : t.talk.stores = c.stores
  vars : t.talk.vars = c.vars

theorem Upon.target? (h : Upon c t) (key : String) : t.talk.target? key = c.target? key := by
  simp only [Conversation.target?, Conversation.locate, Conversation.dialogueAt, h.stores]

/-! ### Starting -/

/-- Starting a dialogue that may start enters it. -/
theorem start_of_target (htarget : t.talk.target? key = some (slot, d))
    (hfresh : (d.flags.oneShot && t.talk.seen.has key) = false) :
    start hop key t = entered (proceed hop ⟨slot, key, none⟩ d (arrive slot key t)) := by
  have hfound : (t.talk.locate key).bind (fun slot => (t.talk.dialogueAt slot).map (slot, ·)) =
    some (slot, d) := htarget
  simp only [start, hfound, hfresh, enter_eq, Bool.false_eq_true, if_false]

/-- A dialogue with elements shows one of them as soon as it is entered. -/
theorem proceed_of_elements (hd : d.isRedirect = false) :
    ∃ (index : Nat) (u : Turn), index < d.elements.length ∧
      u.talk.active = some ⟨slot, key, some index⟩ ∧ u.talk.stores = t.talk.stores ∧
      proceed hop ⟨slot, key, none⟩ d t = u.done := by
  have hlength : 0 < d.elements.length := by
    rw [List.length_pos_iff]
    simpa [Dialogue.isRedirect] using hd
  have hpresent : ∀ {index} (v : Turn) (hindex : index < d.elements.length),
      (v.presentAt ⟨slot, key, none⟩ d index).talk.active = some ⟨slot, key, some index⟩ ∧
        (v.presentAt ⟨slot, key, none⟩ d index).talk.stores = v.talk.stores := by
    intro index v hindex
    rw [presentAt, List.getElem?_eq_getElem hindex]
    exact ⟨rfl, rfl⟩
  cases hpicks : d.picksElement with
  | true =>
      have hmove : moveFrom d none = .pick := by simp [moveFrom, hpicks]
      have hindex := t.talk.stream.pick_lt hlength
      obtain ⟨hactive, hstores⟩ := hpresent (t.update fun c =>
        { c with stream := (t.talk.stream.pick d.elements.length).2 }) hindex
      refine ⟨_, _, hindex, hactive, hstores, ?_⟩
      simp only [proceed, hmove]
      rfl
  | false =>
      have hmove : moveFrom d none = .advance 0 := by simp [moveFrom, hpicks, hlength]
      obtain ⟨hactive, hstores⟩ := hpresent t hlength
      refine ⟨_, _, hlength, hactive, hstores, ?_⟩
      simp only [proceed, hmove]

theorem moveFrom_of_redirect (hd : d.isRedirect = true) : moveFrom d none = .leave := by
  have hnil : d.elements = [] := by simpa [Dialogue.isRedirect] using hd
  simp [moveFrom, Dialogue.picksElement, hnil]

/-- A dialogue that only hands on hops to the next key, and ends there if that fails. -/
theorem start_of_redirect (hop : Hop) (hprospect : t.talk.prospect key = .redirect next) :
    ∃ slot notices, start hop key t = entered (hopOrClose hop next
      ((arrive slot key t).update fun c => c.record notices)) := by
  obtain ⟨slot, d, htarget, hfresh, hredirect, hexit⟩ :=
    Conversation.prospect_eq_redirect_iff.mp hprospect
  refine ⟨slot, (selectExit t.talk.vars.lookup d.exits).2.map .noticed, ?_⟩
  rw [start_of_target htarget hfresh]
  simp only [proceed, moveFrom_of_redirect hredirect, leave, arrive_vars, hexit]

/-- Passing through a dialogue keeps the turn upon the same conversation. -/
theorem Upon.arrive (h : Upon c t) (slot : Slot) (key : String) (acts : List Act) :
    Upon c ((arrive slot key t).update fun c => c.record acts) :=
  ⟨(arrive_stores slot key t).trans h.stores, (arrive_vars slot key t).trans h.vars⟩

/-- Whether a key may start depends on its own count only. -/
theorem Upon.prospect (h : Upon c t) (hseen : t.talk.seen.has key = c.seen.has key) :
    t.talk.prospect key = c.prospect key := by
  simp only [Conversation.prospect, h.target?, h.vars, hseen]

/-- Starting a key goes along the chain to its end, where there are hops enough. The seen counts
need to be those of the beginning only for the keys still to come. -/
theorem start_of_leads {n : Nat} {last : String} (h : c.Leads n key last)
    (hlast : c.prospect last = .elements slot d) {depth : Nat} (hupon : Upon c t)
    (hseen : ∀ m k, m ≤ n → c.Leads m k last → t.talk.seen.has k = c.seen.has k)
    (hhops : n ≤ t.hops) (hdepth : t.hops ≤ depth) :
    ∃ (index : Nat) (u : Turn), index < d.elements.length ∧
      u.talk.active = some ⟨slot, last, some index⟩ ∧ u.talk.stores = c.stores ∧
      start (follow depth) key t = ⟨u, .ok true⟩ := by
  induction h generalizing t depth with
  | here key =>
      have hkey := (hupon.prospect (hseen 0 key (Nat.le_refl _) (.here key))).trans hlast
      obtain ⟨htarget, hfresh, helements⟩ := Conversation.prospect_eq_elements_iff.mp hkey
      obtain ⟨index, u, hindex, hactive, hstores, hproceed⟩ := proceed_of_elements helements
      refine ⟨index, u, hindex, hactive, ?_, ?_⟩
      · exact hstores.trans ((arrive_stores slot key t).trans hupon.stores)
      · rw [start_of_target htarget hfresh, hproceed]
        simp [entered, done, Conversation.isTalking, hactive]
  | @hop n key next last hnext rest ih =>
      have hfresh := hseen (n + 1) key (Nat.le_refl _) (.hop hnext rest)
      have hkey := (hupon.prospect hfresh).trans hnext
      obtain ⟨place, notices, hstart⟩ := start_of_redirect (follow depth) hkey
      obtain ⟨hops, hspent⟩ := Nat.exists_eq_add_of_le' (Nat.le_trans (Nat.le_add_left 1 n) hhops)
      obtain ⟨depth, rfl⟩ := Nat.exists_eq_add_of_le' (Nat.le_trans (Nat.le_add_left 1 n)
        (Nat.le_trans hhops hdepth))
      have hmarked : ∀ m k, m ≤ n → c.Leads m k last →
          (t.talk.seen.mark key).has k = c.seen.has k := by
        intro m k hm hk
        -- the same key further on would be nearer to the end than it is
        have hne : key ≠ k := by
          rintro rfl
          have hle := (hk.le_of_elements hlast (.hop hnext rest)).1
          omega
        rw [SeenTable.has_mark_of_ne _ hne]
        exact hseen m k (by omega) hk
      have hpassed := hupon.arrive place key notices
      have hleftover : hops ≤ depth := by omega
      obtain ⟨index, u, hindex, hactive, hstores, hrest⟩ := ih hlast
        (t := ⟨((arrive place key t).update fun c => c.record notices).talk, hops⟩)
        ⟨hpassed.stores, hpassed.vars⟩ (fun m k hm hk => by
          change (arrive place key t).talk.seen.has k = _
          rw [arrive_seen]
          exact hmarked m k hm hk) (by dsimp only; omega) hleftover
      refine ⟨index, u, hindex, hactive, hstores, ?_⟩
      have hleft : ((arrive place key t).update fun c => c.record notices).hops = hops + 1 :=
        (arrive_hops place key t).trans hspent
      rw [hstart, hopOrClose, follow]
      simp only [hleft, hrest]
      simp [entered, done, Conversation.isTalking, hactive]

/-- A start without a prospect comes to nothing, and stops nothing. -/
theorem start_of_nothing (h : t.talk.prospect key = .nothing) :
    (start hop key t).result = .ok false := by
  cases htarget : t.talk.target? key with
  | none =>
      have hfound : (t.talk.locate key).bind
          (fun slot => (t.talk.dialogueAt slot).map (slot, ·)) = none := htarget
      simp only [start, hfound]
  | some found =>
      obtain ⟨slot, d⟩ := found
      cases hfresh : d.flags.oneShot && t.talk.seen.has key with
      | true =>
          have hfound : (t.talk.locate key).bind
            (fun slot => (t.talk.dialogueAt slot).map (slot, ·)) = some (slot, d) := htarget
          simp only [start, hfound, hfresh, if_true]
      | false =>
          simp only [Conversation.prospect, htarget, hfresh, Bool.false_eq_true, if_false] at h
          split at h
          · next hredirect =>
              have hexit : (selectExit t.talk.vars.lookup d.exits).1 = none := by
                split at h <;> simp_all
              rw [start_of_target htarget hfresh]
              simp only [proceed, moveFrom_of_redirect hredirect, leave, arrive_vars, hexit]
              simp [entered, done, close, update, Conversation.isTalking]
          · cases h

/-- Marks can only keep a dialogue from starting. -/
theorem Upon.prospect_of_ne_nothing (h : Upon c t)
    (hseen : c.seen.has key = true → t.talk.seen.has key = true)
    (hne : t.talk.prospect key ≠ .nothing) : c.prospect key = t.talk.prospect key := by
  cases hmarked : t.talk.seen.has key with
  | false =>
      have hfree : c.seen.has key = false := by
        rw [← Bool.not_eq_true]
        intro hhas
        simp [hseen hhas] at hmarked
      exact (h.prospect (hmarked.trans hfree.symm)).symm
  | true =>
      simp only [Conversation.prospect, h.target?, h.vars, hmarked] at hne ⊢
      grind

/-- A key that reaches nothing and runs no code either does not start or only hands on. -/
theorem Upon.nothing_or_redirect {origin : String} {hops : Nat} (hupon : Upon c t)
    (h : (c.reaches origin hops key).1 = false) (hcode : c.prospect key ≠ .code)
    (hseen : c.seen.has key = true → t.talk.seen.has key = true) :
    t.talk.prospect key = .nothing ∨
      ∃ next, c.prospect key = .redirect next ∧ t.talk.prospect key = .redirect next := by
  by_cases hnothing : t.talk.prospect key = .nothing
  · exact .inl hnothing
  · have hsame := hupon.prospect_of_ne_nothing hseen hnothing
    rw [Conversation.reaches_eq] at h
    cases hprospect : c.prospect key with
    | nothing => exact absurd (hsame.symm.trans hprospect) hnothing
    | elements slot d => simp [hprospect] at h
    | code => exact absurd hprospect hcode
    | redirect next => exact .inr ⟨next, rfl, hsame.symm.trans hprospect⟩

theorem follow_of_no_hops (h : t.hops = 0) (depth : Nat) (key : String) :
    follow depth key t = outOfHops key t := by
  cases depth with
  | zero => rfl
  | succ depth => simp only [follow, h]

/-- A redirect comes to nothing if what it leads to does. -/
theorem start_false_of_redirect (hprospect : t.talk.prospect key = .redirect next)
    (hrest : ∀ slot notices,
      (hop next ((arrive slot key t).update fun c => c.record notices)).result = .ok false) :
    (start hop key t).result = .ok false := by
  obtain ⟨slot, notices, hstart⟩ := start_of_redirect hop hprospect
  rw [hstart]
  simp only [hopOrClose, hrest slot notices]
  simp [entered, done, close, update, Conversation.isTalking]

/-- Where looking ahead comes to nothing and meets no code, neither does starting: the marks it
leaves on the way keep back only what would not help. -/
theorem start_of_unreachable {origin : String} {hops : Nat}
    (h : (c.reaches origin hops key).1 = false)
    (hcode : ∀ n last, n ≤ hops → c.Leads n key last → c.prospect last ≠ .code) {depth : Nat}
    (hupon : Upon c t) (hseen : ∀ k, c.seen.has k = true → t.talk.seen.has k = true)
    (hhops : t.hops = hops) (hdepth : hops ≤ depth) :
    (start (follow depth) key t).result = .ok false := by
  -- By induction on the hops left, which looking ahead and starting spend alike. Starting marks
  -- dialogues as seen that looking ahead does not, and that can only keep more of them back.
  induction hops generalizing key t depth with
  | zero =>
      obtain hnothing | ⟨next, _, hhere⟩ := hupon.nothing_or_redirect h
        (hcode 0 key (Nat.zero_le _) (.here key)) (hseen key)
      · exact start_of_nothing hnothing
      · apply start_false_of_redirect hhere
        intro slot notices
        rw [follow_of_no_hops (t := (arrive slot key t).update fun c => c.record notices)
          ((arrive_hops slot key t).trans hhops)]
        rfl
  | succ hops ih =>
      obtain hnothing | ⟨next, hnext, hhere⟩ := hupon.nothing_or_redirect h
        (hcode 0 key (Nat.zero_le _) (.here key)) (hseen key)
      · exact start_of_nothing hnothing
      · apply start_false_of_redirect hhere
        intro slot notices
        obtain ⟨depth, rfl⟩ := Nat.exists_eq_add_of_le' (Nat.le_trans (Nat.le_add_left 1 hops)
          hdepth)
        have hpassed := hupon.arrive slot key notices
        have hleft : ((arrive slot key t).update fun c => c.record notices).hops = hops + 1 :=
          (arrive_hops slot key t).trans hhops
        simp only [follow, hleft]
        rw [Conversation.reaches_eq, hnext] at h
        refine ih h ?_ ⟨hpassed.stores, hpassed.vars⟩ ?_ rfl (by omega)
        · intro n last hn hleads
          exact hcode (n + 1) last (by omega) (.hop hnext hleads)
        · intro k hk
          change (arrive slot key t).talk.seen.has k = true
          rw [arrive_seen]
          exact SeenTable.has_mark_of_has (hseen k hk) key

end Turn

namespace Conversation

variable {c : Conversation} {key : String}

/-- A chain that ends at elements within the limit is started to its end. -/
theorem start_of_reached {n : Nat} {last : String} {slot : Slot} {d : Dialogue}
    (h : c.Leads n key last) (hlast : c.prospect last = .elements slot d)
    (hn : n ≤ c.config.maxRedirects) :
    (c.start key).result = .ok true ∧ ∃ index, index < d.elements.length ∧
      (c.start key).talk.active = some ⟨slot, last, some index⟩ ∧
      (c.start key).talk.currentElement = d.elements[index]? := by
  obtain ⟨index, u, hindex, hactive, hstores, hstart⟩ := Turn.start_of_leads h hlast
    (t := Turn.fresh c) ⟨rfl, rfl⟩ (fun _ _ _ _ => rfl) hn (Nat.le_refl c.config.maxRedirects)
  have htalk : (c.start key).talk = u.talk := by
    simp only [start, Result.ofProgress, hstart]
  refine ⟨by simp only [start, Result.ofProgress, hstart], index, hindex, ?_, ?_⟩
  · rw [htalk, hactive]
  · have hplace := (target?_eq_some_iff.mp (prospect_eq_elements_iff.mp hlast).1).2
    have hdialogue : u.talk.dialogueAt slot = some d := by
      simp only [dialogueAt, hstores]
      exact hplace
    simp [htalk, currentElement, hactive, hdialogue, Active.element?]

/-- What looking ahead does not find does not start, code aside. -/
theorem start_of_unreached (h : c.hasDialogue key = false)
    (hcode : ∀ n last, n ≤ c.config.maxRedirects → c.Leads n key last →
      c.prospect last ≠ .code) : (c.start key).result = .ok false :=
  Turn.start_of_unreachable h hcode (t := Turn.fresh c) ⟨rfl, rfl⟩ (fun _ hk => hk) rfl
    (Nat.le_refl _)

/-- Looking ahead and starting agree on every key. What is found starts, at the very dialogue
the chain ends at; what is not found does not start, unless the chain runs code. A chain that
ends at elements is followed to its end by both exactly where it is no longer than the limit. -/
theorem hasDialogue_agrees_with_start (c : Conversation) (key : String) :
    (c.hasDialogue key = true → (c.start key).result = .ok true ∧
      ∃ n last slot d index, n ≤ c.config.maxRedirects ∧ c.Leads n key last ∧
        c.prospect last = .elements slot d ∧ index < d.elements.length ∧
        (c.start key).talk.active = some ⟨slot, last, some index⟩ ∧
        (c.start key).talk.currentElement = d.elements[index]?) ∧
    (c.hasDialogue key = false →
      (∀ n last, n ≤ c.config.maxRedirects → c.Leads n key last → c.prospect last ≠ .code) →
      (c.start key).result = .ok false) ∧
    (∀ n last slot d, c.Leads n key last → c.prospect last = .elements slot d →
      (c.hasDialogue key = true ↔ n ≤ c.config.maxRedirects) ∧
      ((c.start key).result = .ok true ↔ n ≤ c.config.maxRedirects) ∧
      (n ≤ c.config.maxRedirects → (c.start key).talk.currentKey = some last)) := by
  refine ⟨?_, start_of_unreached, ?_⟩
  · intro h
    obtain ⟨n, last, slot, d, hn, hleads, hlast⟩ := (reaches_iff c key _ key).mp h
    obtain ⟨hresult, index, hindex, hactive, helement⟩ := start_of_reached hleads hlast hn
    exact ⟨hresult, n, last, slot, d, index, hn, hleads, hlast, hindex, hactive, helement⟩
  · intro n last slot d hleads hlast
    have hfound := hleads.hasDialogue_iff hlast
    refine ⟨hfound, ⟨?_, fun hn => (start_of_reached hleads hlast hn).1⟩, ?_⟩
    · intro hstarted
      apply Decidable.byContradiction
      intro hn
      have hmissed : c.hasDialogue key = false := by
        rw [← Bool.not_eq_true, hfound]
        exact hn
      rw [start_of_unreached hmissed fun m other _ h => hleads.not_code hlast h] at hstarted
      cases hstarted
    · intro hn
      obtain ⟨_, index, _, hactive, _⟩ := start_of_reached hleads hlast hn
      rw [currentKey, hactive]
      rfl

/-! A letter that is handed on twice, by dialogues that have nothing to say themselves. -/

def clerk : Dialogue :=
  { name := "clerk", exits := [⟨"", .key "courier"⟩] }

def courier : Dialogue :=
  { name := "courier", exits := [⟨"", .key "letter"⟩, ⟨"", .key "clerk"⟩] }

def letter : Dialogue :=
  { name := "letter", elements := [{ text := "Come at once." }] }

def relayStore : Store :=
  { name := "relay"
    dialogues := [clerk, courier, letter]
    index := ((Std.TreeMap.insert {} "clerk" 0).insert "courier" 1).insert "letter" 2
    indexed := ((Store.indexes_nil.insert (d := clerk) rfl).insert (d := courier)
      (by simp [clerk, courier])).insert (d := letter) (by simp [clerk, courier, letter]) }

def relay (maxRedirects : Nat) : Conversation :=
  (new { maxRedirects } 0).addStore relayStore

/-- Two hops are allowed and followed; where only one is, neither looking ahead nor starting gets
to the letter. -/
theorem relay_at_limit :
    (relay 2).hasDialogue "clerk" = true ∧ ((relay 2).start "clerk").result = .ok true ∧
      ((relay 2).start "clerk").talk.currentKey = some "letter" ∧
      (relay 1).hasDialogue "clerk" = false ∧ ((relay 1).start "clerk").result = .ok false := by
  have hlast : ∀ limit, (relay limit).prospect "letter" = .elements ⟨0, 2⟩ letter := fun _ => rfl
  have hclerk : ∀ limit, (relay limit).prospect "clerk" = .redirect "courier" := fun _ => rfl
  have hcourier : ∀ limit, (relay limit).prospect "courier" = .redirect "letter" := fun _ => rfl
  have hleads : ∀ limit, (relay limit).Leads 2 "clerk" "letter" := fun limit =>
    .hop (hclerk limit) (.hop (hcourier limit) (.here "letter"))
  obtain ⟨hfound, hstarted, hkey⟩ :=
    (hasDialogue_agrees_with_start (relay 2) "clerk").2.2 2 _ _ _ (hleads 2) (hlast 2)
  obtain ⟨hmissed, -, -⟩ :=
    (hasDialogue_agrees_with_start (relay 1) "clerk").2.2 2 _ _ _ (hleads 1) (hlast 1)
  have htwo : 2 ≤ (relay 2).config.maxRedirects := Nat.le_refl 2
  have hone : ¬ 2 ≤ (relay 1).config.maxRedirects := Nat.not_succ_le_self 1
  have hunseen : (relay 1).hasDialogue "clerk" = false := by
    rw [← Bool.not_eq_true]
    exact fun h => hone (hmissed.mp h)
  have hrefused := (hasDialogue_agrees_with_start (relay 1) "clerk").2.1 hunseen
    fun _ _ _ h => (hleads 1).not_code (hlast 1) h
  exact ⟨hfound.mpr htwo, hstarted.mpr htwo, hkey htwo, hunseen, hrefused⟩

end Conversation

end Parley
