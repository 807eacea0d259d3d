import Parley.Proofs.Expr.Longest
import Parley.Proofs.Expr.Names

/-!
# Names and keywords

A keyword is spelled like a name, and no expression has it for one of its names. Any other name is
an expression by itself: its variable.
-/

namespace Parley

namespace Lexer

/-! ### Keywords -/

/-- The words that are spelled like names and are none. -/
def keywords : List String :=
  ["or", "and", "not", "true", "false"]

theorem spelled_of_keyword : ∀ word ∈ keywords, ∃ p ∈ spellings, p.1 = word.toList := by
  decide

theorem name?_spellings : ∀ p ∈ spellings, p.2.name? = none := by
  decide

/-- A text that is a name by itself is not one of the words the lexer keeps for itself. -/
theorem notMem_keywords_of_isToken {text : List Char} {name : String}
    (h : IsToken text (.name name)) : name ∉ keywords := by
  intro hkeyword
  obtain ⟨⟨word, u⟩, hspelled, hword⟩ := spelled_of_keyword name hkeyword
  have hnone : ∀ v, (text, v) ∈ spellings → v ≠ .name name := by
    rintro v hv rfl
    cases name?_spellings _ hv
  cases h.matched with
  | spelled htext => exact hnone _ htext rfl
  | name _ =>
      rw [String.toList_ofList] at hword
      cases hword
      exact hnone u hspelled (h.first u hspelled)

/-- A word that is not kept by the lexer is a name. -/
theorem wordToken_of_notMem {name : String} (h : name ∉ keywords) :
    wordToken name.toList = .name name := by
  unfold wordToken
  split
  case h_6 => rw [String.ofList_toList]
  all_goals
    next hword =>
      refine absurd ?_ h
      rw [← String.ofList_toList (s := name), hword]
      decide

/-! ### Names by themselves -/

/-- The source is the name, but for gaps around it. -/
def Alone (name source : String) : Prop :=
  ∃ before after, source.toList = before ++ (name.toList ++ after) ∧
    (∀ c ∈ before, isGap c = true) ∧ ∀ c ∈ after, isGap c = true

theorem alone_self (name : String) : Alone name name :=
  ⟨[], [], by simp, List.forall_mem_nil _, List.forall_mem_nil _⟩

theorem isNameChar_of_isGap {c : Char} (h : isGap c = true) : isNameChar c = false := by
  simp only [isGap, Bool.or_eq_true, beq_iff_eq] at h
  rcases h with ((rfl | rfl) | rfl) | rfl <;> decide

theorem isGap_of_isNameStart {c : Char} (h : isNameStart c = true) : isGap c = false := by
  have hchar := isNameChar_of_isNameStart h
  rw [← Bool.not_eq_true]
  intro hgap
  rw [isNameChar_of_isGap hgap] at hchar
  cases hchar

/-- Gaps in front of a text change nothing about its tokens. -/
theorem Lexes.gaps {before cs : List Char} {ts : List Token} (h : ∀ c ∈ before, isGap c = true)
    (hcs : Lexes cs ts) : Lexes (before ++ cs) ts := by
  induction before with
  | nil => exact hcs
  | cons c before ih =>
      obtain ⟨hgap, hbefore⟩ := List.forall_mem_cons.mp h
      exact .gap hgap (ih hbefore)

/-- A name is cut off whole in front of a character that is none of a name. -/
theorem cut_name {c : Char} {cs after : List Char} (hstart : isNameStart c = true)
    (hcs : ∀ d ∈ cs, isNameChar d = true) (hafter : ∀ d ∈ after, isNameChar d = false) :
    cut c (cs ++ after) = ⟨.token (wordToken (c :: cs)), c :: cs, after⟩ := by
  have hstop : after.takeWhile isNameChar = [] ∧ after.dropWhile isNameChar = after := by
    cases after with
    | nil => exact ⟨rfl, rfl⟩
    | cons d after => simp [hafter d List.mem_cons_self]
  rw [cut_of_isNameStart hstart, cutWord, List.takeWhile_append_of_pos hcs,
    List.dropWhile_append_of_pos hcs, hstop.1, hstop.2, List.append_nil]

/-- A source with nothing but a name in it has that name for its only token. -/
theorem lexes_of_alone {name source : String} (hname : isName name.toList = true)
    (hkeyword : name ∉ keywords) (h : Alone name source) :
    Lexes source.toList [.name name] := by
  obtain ⟨before, after, hsource, hbefore, hafter⟩ := h
  have htoken := wordToken_of_notMem hkeyword
  rw [hsource]
  refine .gaps hbefore ?_
  cases hchars : name.toList with
  | nil =>
      rw [hchars] at hname
      cases hname
  | cons c cs =>
      rw [hchars] at hname htoken
      rw [isName, Bool.and_eq_true, List.all_eq_true] at hname
      have hcut := cut_name hname.1 hname.2 fun d hd => isNameChar_of_isGap (hafter d hd)
      rw [htoken] at hcut
      refine .token (isGap_of_isNameStart hname.1) (congrArg Cut.lexeme hcut) ?_
      change Lexes (cut c (cs ++ after)).rest []
      rw [hcut]
      simpa using Lexes.gaps hafter .nil

/-- A name token is no keyword. -/
theorem Lexes.notMem_keywords {cs : List Char} {ts : List Token} (h : Lexes cs ts) {name : String}
    (hname : .name name ∈ ts) : name ∉ keywords := by
  induction h with
  | nil => cases hname
  | gap _ _ ih => exact ih hname
  | token _ hcut _ ih =>
      rcases List.mem_cons.mp hname with rfl | hrest
      · exact notMem_keywords_of_isToken (isToken_cut hcut)
      · exact ih hrest

end Lexer

open Lexer (isName keywords Alone)

variable {name source : String}

/-- A source with nothing but a name in it is read as that variable. -/
theorem Expr.parse_of_alone (hname : isName name.toList = true) (hkeyword : name ∉ keywords)
    (h : Alone name source) : Expr.parse source = .ok (.variable name) :=
  parse_eq_ok_iff_lexes.mpr
    ⟨_, Lexer.lexes_of_alone hname hkeyword h, (Grammar.Derives.name name).whole⟩

/-- No expression reads a keyword as a name. -/
theorem Expr.notMem_names_of_keyword {e : Expr} (hkeyword : name ∈ keywords)
    (h : Expr.parse source = .ok e) : name ∉ e.names := by
  obtain ⟨ts, hlexes, hderives⟩ := parse_eq_ok_iff_lexes.mp h
  rw [hderives.names_eq, List.mem_filterMap]
  rintro ⟨t, ht, hread⟩
  cases t with
  | name known =>
      cases hread
      exact hlexes.notMem_keywords ht hkeyword
  | _ => cases hread

end Parley
