import Parley.Proofs.Expr.Tokens
import Parley.Proofs.Script.Nesting

/-!
# Expressions in a line of code

A line of code is cut without lexing it: a scan over its characters keeps track of quotes and
parentheses. On an expression the scan agrees with the lexer and the grammar. It leaves every
quote where a token ends, it is as deep as the grammar has parentheses open, and it sees a
separator only inside one of the two.

## Implementation notes

The lexer and the scan go over the text side by side, one token at a time. Between tokens no quote
is open, so that the depth alone says where the scan stands; and the depth behind a token follows
from the token, whatever its text is.
-/

namespace Parley

open Lexer (Lexes cut isNameChar isGap)

namespace Nesting

/-! ### Scans that cut nothing -/

/-- What separates arguments and statements. -/
def separators : List Char :=
  [',', ';']

/-- A text leads the scan from one nesting to another. No separator in it stands at top level and
no parenthesis in it closes one that is not open. -/
inductive Leads : Nesting → List Char → Nesting → Prop where
  | nil {n : Nesting} : Leads n [] n
  | cons {n m : Nesting} {c : Char} {cs : List Char} : 0 ≤ (n.advance c).depth →
      ¬ (c ∈ separators ∧ n.isTop = true) → Leads (n.advance c) cs m → Leads n (c :: cs) m

variable {n m k : Nesting} {cs ds : List Char}

theorem Leads.step {c : Char} (hadvance : n.advance c = m) (hdepth : 0 ≤ m.depth)
    (hsep : ¬ (c ∈ separators ∧ n.isTop = true)) (h : Leads m cs k) : Leads n (c :: cs) k := by
  subst hadvance
  exact .cons hdepth hsep h

/-- A scan over two texts goes over the one and then over the other. -/
theorem Leads.append (h : Leads n cs m) (h' : Leads m ds k) : Leads n (cs ++ ds) k := by
  induction h with
  | nil => exact h'
  | cons hdepth hsep _ ih => exact .cons hdepth hsep (ih h')

/-- A text that leads from one nesting to another is not cut. -/
theorem Leads.whole (h : Leads n cs m) {sep : Char} (hsep : sep ∈ separators) :
    Whole sep n cs := by
  induction h with
  | nil => exact whole_nil sep _
  | cons _ hnone _ ih =>
      refine whole_cons_iff.mpr ⟨?_, ih⟩
      rintro ⟨rfl, htop⟩
      exact hnone ⟨hsep, htop⟩

/-- A text that leads back to top level is balanced. -/
theorem Leads.balancedFrom (h : Leads n cs m) (htop : m.isTop = true) :
    balancedFrom n cs = true := by
  induction h with
  | nil => exact htop
  | cons hdepth _ _ ih =>
      rw [Nesting.balancedFrom, Bool.and_eq_true, decide_eq_true_eq]
      exact ⟨hdepth, ih htop⟩

/-! ### Depths -/

/-- Inside some parentheses and outside all quotes. -/
def level (depth : Nat) : Nesting :=
  ⟨depth, none⟩

/-- The character neither changes the nesting nor separates anything. -/
def isIdle (c : Char) : Bool :=
  isInert c && !separators.contains c

/-- Six characters matter to a scan, and no other does. -/
theorem isIdle_iff {c : Char} :
    isIdle c = true ↔ c ∉ ['"', '\x27', '(', ')', ',', ';'] := by
  simp [isIdle, isInert, separators, and_assoc]

/-- Characters of a kind that has no quote, parenthesis or separator in it. -/
theorem isIdle_of {p : Char → Bool} (hp : ['"', '\x27', '(', ')', ',', ';'].any p = false)
    {c : Char} (h : p c = true) : isIdle c = true := by
  rw [isIdle_iff]
  exact fun hmem => List.any_eq_false.mp hp c hmem h

theorem isIdle_of_isBlank {c : Char} (h : Text.isBlank c = true) : isIdle c = true :=
  isIdle_of (by decide) h

theorem isIdle_of_isNameChar {c : Char} (h : isNameChar c = true) : isIdle c = true :=
  isIdle_of (by decide) h

theorem isIdle_of_isGap {c : Char} (h : isGap c = true) : isIdle c = true :=
  isIdle_of (by decide) h

/-- A text that leaves the scan where it was, inside any number of parentheses. -/
def Enclosed (cs : List Char) : Prop :=
  ∀ d, Leads (level d) cs (level d)

/-- A text without quotes, parentheses and separators is passed over. -/
theorem enclosed_of_idle (h : ∀ c ∈ cs, isIdle c = true) : Enclosed cs := by
  intro d
  induction cs with
  | nil => exact .nil
  | cons c cs ih =>
      obtain ⟨hc, hcs⟩ := List.forall_mem_cons.mp h
      have hidle := isIdle_iff.mp hc
      have hadvance : (level d).advance c = level d := by
        simp_all [level, advance]
      refine .step hadvance (Int.natCast_nonneg d) (fun hsep => ?_) (ih hcs)
      simp_all [separators]

theorem enclosed_singleton {c : Char} (h : isIdle c = true) : Enclosed [c] :=
  enclosed_of_idle (List.forall_mem_singleton.mpr h)

theorem Enclosed.append (h : Enclosed cs) (h' : Enclosed ds) : Enclosed (cs ++ ds) :=
  fun d => (h d).append (h' d)

/-- An enclosed text is balanced. -/
theorem Enclosed.balanced (h : Enclosed cs) : balanced cs = true :=
  (h 0).balancedFrom rfl

/-- An enclosed text is one piece at any cut. -/
theorem Enclosed.isPiece (h : Enclosed cs) {sep : Char} (hsep : sep ∈ separators) :
    IsPiece sep cs :=
  ⟨(h 0).whole hsep, isTop_after_of_balancedFrom h.balanced⟩

theorem enclosed_of_isBlank (h : ∀ c ∈ cs, Text.isBlank c = true) : Enclosed cs :=
  enclosed_of_idle fun c hc => isIdle_of_isBlank (h c hc)

/-- Blanks put in or left out keep a text enclosed. -/
theorem Enclosed.of_spaced (h : Enclosed cs) (hspaced : Text.Spaced cs ds) : Enclosed ds := by
  induction hspaced with
  | refl => exact h
  | front hb _ ih => exact (enclosed_singleton (isIdle_of_isBlank hb)).append ih
  | back hb _ ih => exact ih.append (enclosed_singleton (isIdle_of_isBlank hb))

theorem leads_open (d : Nat) : Leads (level d) ['('] (level (d + 1)) :=
  .step rfl (Int.natCast_nonneg (d + 1)) (by simp [separators]) .nil

theorem leads_close (d : Nat) : Leads (level (d + 1)) [')'] (level d) := by
  have hadvance : (level (d + 1)).advance ')' = level d := by
    simp [level, advance]
  exact .step hadvance (Int.natCast_nonneg d) (by simp [separators]) .nil

/-- Between parentheses commas separate nothing at top level. -/
theorem leads_joinWith {pieces : List (List Char)} (h : ∀ piece ∈ pieces, Enclosed piece)
    (d : Nat) : Leads (level (d + 1)) (Text.joinWith [','] pieces) (level (d + 1)) := by
  have hcomma : Leads (level (d + 1)) [','] (level (d + 1)) :=
    .step rfl (Int.natCast_nonneg (d + 1)) (fun hsep => by simp [isTop, level] at hsep; omega) .nil
  unfold Text.joinWith
  induction pieces with
  | nil => exact .nil
  | cons first rest ih =>
      obtain ⟨hfirst, hrest⟩ := List.forall_mem_cons.mp h
      cases rest with
      | nil => simpa using hfirst (d + 1)
      | cons second rest =>
          rw [List.intercalate_cons_cons]
          exact ((hfirst (d + 1)).append hcomma).append (ih hrest)

/-- Arguments between their parentheses are enclosed, whatever commas are between them. -/
theorem enclosed_arguments {pieces : List (List Char)} (h : ∀ piece ∈ pieces, Enclosed piece) :
    Enclosed ('(' :: (Text.joinWith [','] pieces ++ [')'])) :=
  fun d => (leads_open d).append ((leads_joinWith h d).append (leads_close d))

theorem leads_unquote {q : Char} {body : List Char} (h : q ∉ body) (d : Nat) :
    Leads ⟨d, some q⟩ (body ++ [q]) (level d) := by
  induction body with
  | nil =>
      exact .step (advance_closing q d) (Int.natCast_nonneg d) (by simp [isTop]) .nil
  | cons c body ih =>
      rw [List.mem_cons, not_or] at h
      have hadvance := advance_quoted (Ne.symm h.1) d
      exact .step hadvance (Int.natCast_nonneg d) (by simp [isTop]) (ih h.2)

/-- A quotation leads back to the depth it began at. -/
theorem leads_quoted {q : Char} (hq : q = '"' ∨ q = '\x27') {body : List Char} (hbody : q ∉ body)
    (d : Nat) : Leads (level d) (q :: body ++ [q]) (level d) := by
  refine .step (advance_opening hq d) (Int.natCast_nonneg d) ?_ (leads_unquote hbody d)
  rcases hq with rfl | rfl <;> simp [separators]

end Nesting

/-! ### Tokens -/

/-- How many parentheses are open behind a token, if it closes one only where one is open. -/
def Token.depth? : Nat → Token → Option Nat
  | d, .openParen => some (d + 1)
  | 0, .closeParen => none
  | d + 1, .closeParen => some d
  | d, _ => some d

/-- Only parentheses change the depth. -/
theorem Token.depth?_eq {t : Token} (hopen : t ≠ .openParen) (hclose : t ≠ .closeParen) (d : Nat) :
    t.depth? d = some d := by
  cases t <;> first | rfl | contradiction

namespace Nesting

theorem leads_idle {taken : List Char} {t : Token} {d e : Nat}
    (hidle : ∀ c ∈ taken, isIdle c = true) (hopen : t ≠ .openParen) (hclose : t ≠ .closeParen)
    (hd : t.depth? d = some e) : Leads (level d) taken (level e) := by
  rw [Token.depth?_eq hopen hclose] at hd
  cases hd
  exact enclosed_of_idle hidle d

variable {c : Char} {cs : List Char} {t : Token} {d e : Nat}

/-- The text of a name or a keyword leads to the depth behind its token. -/
theorem leads_word (hstart : Lexer.isNameStart c = true)
    (ht : (Lexer.cutWord c cs).lexeme = .token t) (hd : t.depth? d = some e) :
    Leads (level d) (Lexer.cutWord c cs).taken (level e) := by
  have hidle : ∀ b ∈ (Lexer.cutWord c cs).taken, isIdle b = true := by
    refine List.forall_mem_cons.mpr ⟨?_, fun b hb => ?_⟩
    · exact isIdle_of_isNameChar (Lexer.isNameChar_of_isNameStart hstart)
    · exact isIdle_of_isNameChar (List.all_eq_true.mp List.all_takeWhile b hb)
  cases ht
  refine leads_idle hidle ?_ ?_ hd <;> unfold Lexer.wordToken <;> split <;> simp

theorem isDigit_of_mem_fraction {b : Char} (h : b ∈ (Lexer.splitFraction cs).1) :
    b.isDigit = true ∨ b = '.' := by
  unfold Lexer.splitFraction at h
  split at h
  · next d rest =>
      split at h
      · next hd =>
          rcases List.mem_cons.mp h with rfl | h
          · exact .inr rfl
          · rcases List.mem_cons.mp h with rfl | h
            · exact .inl hd
            · exact .inl (List.all_eq_true.mp List.all_takeWhile b h)
      · simp at h
  · simp at h

/-- The text of a number leads to the depth behind its token. -/
theorem leads_number (hdigit : c.isDigit = true) (ht : (Lexer.cutNumber c cs).lexeme = .token t)
    (hd : t.depth? d = some e) : Leads (level d) (Lexer.cutNumber c cs).taken (level e) := by
  have hname : ∀ b ∈ (Lexer.cutNumber c cs).taken, b.isDigit = true ∨ b = '.' := by
    simp only [Lexer.cutNumber, List.cons_append, List.forall_mem_cons, List.forall_mem_append]
    exact ⟨.inl hdigit, fun b hb => .inl (List.all_eq_true.mp List.all_takeWhile b hb),
      fun b hb => isDigit_of_mem_fraction hb⟩
  cases ht
  refine leads_idle (fun b hb => isIdle_of_isNameChar ?_) (by simp [Lexer.numberToken])
    (by simp [Lexer.numberToken]) hd
  rcases hname b hb with hb | rfl
  · exact Lexer.isNameChar_of_isDigit hb
  · decide

/-- The text of a quotation leads to the depth behind its token. -/
theorem leads_string {q : Char} (hq : q = '"' ∨ q = '\x27')
    (ht : (Lexer.cutQuote q cs).lexeme = .token t) (hd : t.depth? d = some e) :
    Leads (level d) (Lexer.cutQuote q cs).taken (level e) := by
  have hbody : q ∉ cs.takeWhile fun c => !Lexer.endsQuote q c := by
    intro hmem
    have hends := List.all_eq_true.mp List.all_takeWhile q hmem
    simp [Lexer.endsQuote] at hends
  unfold Lexer.cutQuote at ht ⊢
  split at ht
  · cases ht
  · split at ht
    · next hclose =>
        cases ht
        cases hd
        simp only [hclose, if_true]
        exact leads_quoted hq hbody d
    · cases ht

theorem isIdle_of_pairToken? {b : Char} (h : Lexer.pairToken? c b = some t) :
    (isIdle c = true ∧ isIdle b = true) ∧ t ≠ .openParen ∧ t ≠ .closeParen := by
  unfold Lexer.pairToken? at h
  split at h <;> cases h <;> exact ⟨⟨by decide, by decide⟩, by simp, by simp⟩

theorem charToken?_cases (h : Lexer.charToken? c = some t) :
    (c = '(' ∧ t = .openParen) ∨ (c = ')' ∧ t = .closeParen) ∨
      (isIdle c = true ∧ t ≠ .openParen ∧ t ≠ .closeParen) := by
  unfold Lexer.charToken? at h
  split at h <;> cases h <;> simp_all [isIdle_iff]

theorem leads_char (ht : (Lexer.cutChar c cs).lexeme = .token t) (hd : t.depth? d = some e) :
    Leads (level d) (Lexer.cutChar c cs).taken (level e) := by
  unfold Lexer.cutChar at ht ⊢
  split at ht
  · next hchar =>
      cases ht
      obtain ⟨rfl, rfl⟩ | ⟨rfl, rfl⟩ | ⟨hidle, hopen, hclose⟩ := charToken?_cases hchar
      · cases hd
        exact leads_open d
      · cases d with
        | zero => cases hd
        | succ d =>
            cases hd
            exact leads_close _
      · exact leads_idle (List.forall_mem_singleton.mpr hidle) hopen hclose hd
  · cases ht

/-- The text of a symbol leads to the depth behind its token. -/
theorem leads_symbol (ht : (Lexer.cutSymbol c cs).lexeme = .token t) (hd : t.depth? d = some e) :
    Leads (level d) (Lexer.cutSymbol c cs).taken (level e) := by
  cases cs with
  | nil => exact leads_char ht hd
  | cons b cs =>
      simp only [Lexer.cutSymbol] at ht ⊢
      split at ht
      · next hpair =>
          cases ht
          obtain ⟨⟨hc, hb⟩, hopen, hclose⟩ := isIdle_of_pairToken? hpair
          exact leads_idle (by simp [hc, hb]) hopen hclose hd
      · exact leads_char ht hd

/-- A token leads the scan to the depth behind it. -/
theorem leads_cut (ht : (cut c cs).lexeme = .token t) (hd : t.depth? d = some e) :
    Leads (level d) (cut c cs).taken (level e) := by
  unfold cut at ht ⊢
  split
  · next hstart =>
      rw [if_pos hstart] at ht
      exact leads_word hstart ht hd
  · next hstart =>
      rw [if_neg hstart] at ht
      split
      · next hdigit =>
          rw [if_pos hdigit] at ht
          exact leads_number hdigit ht hd
      · next hdigit =>
          rw [if_neg hdigit] at ht
          split
          · next hquote =>
              rw [if_pos hquote] at ht
              exact leads_string hquote ht hd
          · next hquote =>
              rw [if_neg hquote] at ht
              exact leads_symbol ht hd

/-- The scan of a text ends at the depth behind its tokens. -/
theorem leads_of_lexes {ts : List Token} (h : Lexes cs ts)
    (hd : ts.foldlM Token.depth? d = some e) : Leads (level d) cs (level e) := by
  induction h generalizing d with
  | nil =>
      cases hd
      exact .nil
  | gap hgap _ ih =>
      exact (enclosed_singleton (isIdle_of_isGap hgap) d).append (ih hd)
  | @token c cs t ts hgap hcut _ ih =>
      rw [List.foldlM_cons] at hd
      obtain ⟨inner, hfirst, hrest⟩ := Option.bind_eq_some_iff.mp hd
      rw [← Lexer.cut_taken_append_rest c cs]
      exact (leads_cut hcut hfirst).append (ih hrest)

end Nesting

/-! ### Sentences -/

open Grammar in
/-- What the grammar derives closes every parenthesis that it opens and no other. -/
theorem Grammar.Derives.depth_eq {s : Stratum} {ts : List Token} {e : Expr} (h : Derives s ts e)
    (d : Nat) : ts.foldlM Token.depth? d = some d := by
  induction h generalizing d with
  | number | string | bool | name => rfl
  | @parens ts e _ ih =>
      change (ts ++ [Token.closeParen]).foldlM Token.depth? (d + 1) = some d
      rw [List.foldlM_append, ih]
      rfl
  | not _ ih => exact ih d
  | neg _ ih => exact ih d
  | @binary s op left lhs right rhs _ _ _ ihl ihr =>
      rw [List.foldlM_append, ihl]
      exact ihr d
  | tighter _ ih => exact ih d

/-- An expression has its quotes closed, its parentheses balanced and no separator outside of
both. -/
theorem Nesting.enclosed_of_parse {source : String} {e : Expr}
    (h : Expr.parse source = .ok e) : Enclosed source.toList := by
  obtain ⟨ts, hlexes, hderives⟩ := Expr.parse_eq_ok_iff_lexes.mp h
  exact fun d => leads_of_lexes hlexes (hderives.depth_eq d)

end Parley
