import Parley.Proofs.Expr.Parsing
import Parley.Proofs.Text.Blank

/-!
# Texts as lists of tokens

A text in which nothing is stray falls into tokens with gaps between them. Which tokens these are
depends neither on where the text stands nor on the blanks at its ends.

## Implementation notes

A token is cut with all the text behind it, as the longest one there. What stands behind the text
may still make a difference to its last token, but a blank does not: none begins or continues a
token outside of quotes, and an open quote is stray with or without it.
-/

namespace Parley

open Text (isBlank trim)

namespace Lexer

/-- A text falls into gaps and tokens. -/
inductive Lexes : List Char → List Token → Prop where
  | nil : Lexes [] []
  | gap {c : Char} {cs : List Char} {ts : List Token} : isGap c = true → Lexes cs ts →
      Lexes (c :: cs) ts
  | token {c : Char} {cs : List Char} {t : Token} {ts : List Token} : isGap c = false →
      (cut c cs).lexeme = .token t → Lexes (cut c cs).rest ts → Lexes (c :: cs) (t :: ts)

/-- Without strays, the lexer gives a reading of the text. -/
theorem lexes_of_strays {pos : Nat} {cs : List Char} (h : strays (lexemesFrom pos cs) = []) :
    Lexes cs ((tokens (lexemesFrom pos cs)).map Text.Spanned.item) := by
  fun_induction lexemesFrom pos cs with
  | case1 pos => exact .nil
  | case2 pos c cs hgap ih => exact .gap hgap (ih h)
  | case3 pos c cs hgap first stop ih =>
      cases hcut : first.lexeme with
      | stray text => simp [strays, hcut] at h
      | token t =>
          simp only [strays, tokens, List.filterMap_cons, hcut, List.map_cons] at h ih ⊢
          exact .token (Bool.not_eq_true _ ▸ hgap) hcut (ih h)

/-- A reading of the text is what the lexer gives, wherever the text begins. -/
theorem Lexes.lexemes_eq {cs : List Char} {ts : List Token} (h : Lexes cs ts) (pos : Nat) :
    strays (lexemesFrom pos cs) = [] ∧
      (tokens (lexemesFrom pos cs)).map Text.Spanned.item = ts := by
  induction h generalizing pos with
  | nil =>
      rw [lexemesFrom]
      exact ⟨rfl, rfl⟩
  | gap hgap _ ih =>
      rw [lexemesFrom, if_pos hgap]
      exact ih _
  | @token c cs t ts hgap hcut _ ih =>
      rw [lexemesFrom, if_neg (by simp [hgap])]
      simp only [strays, tokens, List.filterMap_cons, hcut, List.map_cons] at ih ⊢
      exact ⟨(ih _).1, congrArg (t :: ·) (ih _).2⟩

/-! ### Blanks behind a token -/

section Concat

variable {b : Char} (hb : isBlank b = true)

/-- One character more behind a text where a scan stops already, or at that character. -/
theorem takeWhile_concat {p : Char → Bool} {cs : List Char}
    (h : p b = false ∨ cs.dropWhile p ≠ []) : (cs ++ [b]).takeWhile p = cs.takeWhile p := by
  induction cs with
  | nil =>
      have hstop : p b = false := by simpa using h
      simp [hstop]
  | cons c cs ih =>
      by_cases hc : p c = true
      · simp only [List.cons_append, List.takeWhile_cons, hc, if_true]
        rw [ih (by simpa [hc] using h)]
      · simp [hc]

theorem dropWhile_concat {p : Char → Bool} {cs : List Char}
    (h : p b = false ∨ cs.dropWhile p ≠ []) :
    (cs ++ [b]).dropWhile p = cs.dropWhile p ++ [b] := by
  induction cs with
  | nil =>
      have hstop : p b = false := by simpa using h
      simp [hstop]
  | cons c cs ih =>
      by_cases hc : p c = true
      · simp only [List.cons_append, List.dropWhile_cons, hc, if_true]
        exact ih (by simpa [hc] using h)
      · simp [hc]

include hb

theorem isNameChar_of_isBlank : isNameChar b = false := by
  rw [← Bool.not_eq_true]
  intro h
  rw [isBlank_of_isNameChar h] at hb
  contradiction

theorem isDigit_of_isBlank : b.isDigit = false := by
  rw [← Bool.not_eq_true]
  intro h
  rw [isBlank_of_isNameChar (isNameChar_of_isDigit h)] at hb
  contradiction

/-- A blank behind the text is not taken for part of a fraction. -/
theorem splitFraction_concat (cs : List Char) :
    splitFraction (cs ++ [b]) = ((splitFraction cs).1, (splitFraction cs).2 ++ [b]) := by
  have hdigit := isDigit_of_isBlank hb
  match cs with
  | [] => simp [splitFraction]
  | [c] =>
      by_cases hc : c = '.'
      · simp [hc, splitFraction, hdigit]
      · simp [splitFraction, hc]
  | c :: d :: cs =>
      by_cases hc : c = '.'
      · by_cases hd : d.isDigit = true
        · simp [hc, splitFraction, hd, takeWhile_concat (.inl hdigit),
            dropWhile_concat (.inl hdigit)]
        · simp [hc, splitFraction, hd]
      · simp [splitFraction, hc]

theorem cutWord_concat (c : Char) (cs : List Char) :
    cutWord c (cs ++ [b]) = { cutWord c cs with rest := (cutWord c cs).rest ++ [b] } := by
  have hname := isNameChar_of_isBlank hb
  simp only [cutWord, takeWhile_concat (.inl hname), dropWhile_concat (.inl hname)]

theorem cutNumber_concat (c : Char) (cs : List Char) :
    cutNumber c (cs ++ [b]) = { cutNumber c cs with rest := (cutNumber c cs).rest ++ [b] } := by
  have hdigit := isDigit_of_isBlank hb
  simp only [cutNumber, takeWhile_concat (.inl hdigit), dropWhile_concat (.inl hdigit),
    splitFraction_concat hb]

theorem cutSymbol_concat (c : Char) (cs : List Char) :
    cutSymbol c (cs ++ [b]) = { cutSymbol c cs with rest := (cutSymbol c cs).rest ++ [b] } := by
  have hchar (ds : List Char) :
      cutChar c (ds ++ [b]) = { cutChar c ds with rest := (cutChar c ds).rest ++ [b] } := by
    unfold cutChar
    split <;> rfl
  have hpair : pairToken? c b = none := by
    unfold pairToken?
    split <;> first | rfl | exact absurd hb (by decide)
  cases cs with
  | nil => simpa [cutSymbol, hpair] using hchar []
  | cons d cs =>
      simp only [List.cons_append, cutSymbol]
      cases pairToken? c d with
      | some t => rfl
      | none => exact hchar (d :: cs)

/-- A quote that is closed somewhere is closed where it was without the blank. -/
theorem cutQuote_concat {q : Char} (hquote : q = '"' ∨ q = '\x27') {cs : List Char} {t : Token}
    (h : (cutQuote q (cs ++ [b])).lexeme = .token t) :
    cutQuote q (cs ++ [b]) = { cutQuote q cs with rest := (cutQuote q cs).rest ++ [b] } := by
  have hne : b ≠ q := by
    rintro rfl
    rcases hquote with rfl | rfl <;> exact absurd hb (by decide)
  cases hdrop : cs.dropWhile fun c => !endsQuote q c with
  | nil =>
      by_cases hb' : endsQuote q b = true
      · simp [cutQuote, List.dropWhile_append, hdrop, hb', hne] at h
      · simp [cutQuote, List.dropWhile_append, hdrop, hb'] at h
  | cons d rest =>
      have hopen : (cs.dropWhile fun c => !endsQuote q c) ≠ [] := by simp [hdrop]
      have htake := takeWhile_concat (b := b) (p := fun c => !endsQuote q c) (.inr hopen)
      have hrest := dropWhile_concat (b := b) (p := fun c => !endsQuote q c) (.inr hopen)
      rw [hdrop, List.cons_append] at hrest
      simp only [cutQuote, htake, hrest, hdrop]
      split <;> rfl

/-- A blank behind all else stays behind the first token. -/
theorem cut_concat {c : Char} {cs : List Char} {t : Token}
    (h : (cut c (cs ++ [b])).lexeme = .token t) :
    cut c (cs ++ [b]) = { cut c cs with rest := (cut c cs).rest ++ [b] } := by
  unfold cut at h ⊢
  split
  · exact cutWord_concat hb c cs
  · next hstart =>
      rw [if_neg hstart] at h
      split
      · exact cutNumber_concat hb c cs
      · next hdigit =>
          rw [if_neg hdigit] at h
          split
          · next hquote =>
              rw [if_pos hquote] at h
              exact cutQuote_concat hb hquote h
          · exact cutSymbol_concat hb c cs

/-- A blank in front does not change the tokens. -/
theorem Lexes.of_front {cs : List Char} {ts : List Token} (h : Lexes (b :: cs) ts) :
    Lexes cs ts := by
  cases h with
  | gap _ hrest => exact hrest
  | token _ hcut _ =>
      rw [cut_of_isBlank hb] at hcut
      cases hcut

/-- A blank behind does not change the tokens. -/
theorem Lexes.of_back {cs : List Char} {ts : List Token} (h : Lexes (cs ++ [b]) ts) :
    Lexes cs ts := by
  generalize heq : cs ++ [b] = text at h
  -- A token never ends in the blank, so that it is cut off alike without it.
  induction h generalizing cs with
  | nil => simp at heq
  | gap hgap hrest ih =>
      cases cs with
      | nil =>
          obtain ⟨rfl, rfl⟩ := List.cons.inj heq
          exact hrest
      | cons c cs =>
          obtain ⟨rfl, rfl⟩ := List.cons.inj heq
          exact .gap hgap (ih rfl)
  | token hgap hcut _ ih =>
      cases cs with
      | nil =>
          obtain ⟨rfl, rfl⟩ := List.cons.inj heq
          rw [cut_of_isBlank hb] at hcut
          cases hcut
      | cons c cs =>
          rw [List.cons_append] at heq
          obtain ⟨rfl, rfl⟩ := List.cons.inj heq
          have hconcat := cut_concat hb hcut
          rw [hconcat] at hcut
          exact .token hgap hcut (ih (by rw [hconcat]))

end Concat

/-- The blanks at the ends of a text belong to none of its tokens. -/
theorem Lexes.of_spaced {cs ds : List Char} {ts : List Token} (hspaced : Text.Spaced cs ds)
    (h : Lexes ds ts) : Lexes cs ts := by
  induction hspaced with
  | refl => exact h
  | front hb _ ih => exact ih (h.of_front hb)
  | back hb _ ih => exact ih (h.of_back hb)

end Lexer

namespace Expr

open Grammar (Derives)

/-- Reading a source apart from positions: it has tokens, and these derive the expression. -/
theorem parse_eq_ok_iff_lexes {source : String} {e : Expr} :
    parse source = .ok e ↔ ∃ ts, Lexer.Lexes source.toList ts ∧ Derives .disjunction ts e := by
  rw [Grammar.parse_eq_ok_iff_derives]
  constructor
  · rintro ⟨hstrays, hderives⟩
    exact ⟨_, Lexer.lexes_of_strays hstrays, hderives⟩
  · rintro ⟨ts, hlexes, hderives⟩
    obtain ⟨hstrays, htokens⟩ := hlexes.lexemes_eq 0
    exact ⟨hstrays, htokens ▸ hderives⟩

/-- An expression is parsed to the same tree without the blanks at its ends. -/
theorem parse_trim {source : String} {e : Expr} (h : parse source = .ok e) :
    parse (String.ofList (trim source.toList)) = .ok e := by
  rw [parse_eq_ok_iff_lexes] at h ⊢
  obtain ⟨ts, hlexes, hderives⟩ := h
  rw [String.toList_ofList]
  exact ⟨ts, hlexes.of_spaced (Text.spaced_trim _), hderives⟩

theorem parse_of_toOption {source : String} {e : Expr} (h : (parse source).toOption = some e) :
    parse source = .ok e := by
  cases hparse : parse source with
  | error cause =>
      rw [hparse] at h
      cases h
  | ok f =>
      rw [hparse] at h
      cases h
      rfl

end Expr

/-- An expression keeps the source it was read from, trimmed. -/
theorem Expression.parse_eq_ok_iff {source : String} {x : Expression} :
    parse source = .ok x ↔
      Expr.parse source = .ok x.root ∧ x.source = String.ofList (Text.trim source.toList) := by
  obtain ⟨text, root⟩ := x
  unfold parse
  cases Expr.parse source <;> simp [Except.map, eq_comm, and_comm]

end Parley
