import Parley.Proofs.Expr.Longest
import Parley.Proofs.Expr.Refusal

/-!
# How lexemes tile a source

Tokens and stray texts, brought together in the order of the source, stand apart from one another,
each on characters of its own, and only gaps are left between them. A token is the longest one at
its place, and its text makes the same token without the rest of the source.
-/

namespace Parley

open Text (Span Spanned byteLength)

namespace Lexer

/-- The spans of all tokens and of all stray texts, by where they begin. -/
def spans (source : String) : List Span :=
  ((tokens (lexemes source)).map Spanned.span).merge ((strays (lexemes source)).map Spanned.span)
    fun s t => s.start ≤ t.start

/-- Spans that lie apart in a source, in its order, each on some characters, with gaps around. -/
structure Tiles (spans : List Span) (source : String) : Prop where
  nonempty : ∀ s ∈ spans, s.start < s.stop
  apart : spans.Pairwise fun s t => s.stop ≤ t.start
  fits : ∀ s ∈ spans, s.Fits source
  gaps : ∀ p < source.utf8ByteSize, (∀ s ∈ spans, ¬ (s.start ≤ p ∧ p < s.stop)) →
    ∃ before c after, source.toList = before ++ c :: after ∧ byteLength before = p ∧
      c ∈ [' ', '\t', '\r', '\n']

/-- A token on its text in a source. No rule matches more of the source there, and none of a
spelling makes another token of the text, which is the same token by itself. -/
structure StandsOn (source : String) (tok : Spanned Token) (before text after : List Char) :
    Prop where
  source_eq : source.toList = before ++ text ++ after
  span_eq : tok.span = ⟨byteLength before, byteLength (before ++ text)⟩
  isToken : IsToken text tok.item
  longest : ∀ more t, Matches more t → more <+: text ++ after → more.length ≤ text.length
  tokens_alone : tokens (lexemes (String.ofList text)) = [⟨⟨0, byteLength text⟩, tok.item⟩]
  strays_alone : strays (lexemes (String.ofList text)) = []

/-! ### Lexemes -/

theorem mem_of_isGap {c : Char} (h : isGap c = true) : c ∈ [' ', '\t', '\r', '\n'] := by
  simpa [isGap, or_assoc] using h

theorem utf8Size_of_isGap {c : Char} (h : isGap c = true) : c.utf8Size = 1 := by
  simp only [isGap, Bool.or_eq_true, beq_iff_eq] at h
  rcases h with ((rfl | rfl) | rfl) | rfl <;> rfl

variable {pos : Nat} {cs : List Char}

/-- Nothing that is cut off is empty. -/
theorem nonempty_of_mem_lexemesFrom {l : Spanned Lexeme} (h : l ∈ lexemesFrom pos cs) :
    l.span.start < l.span.stop := by
  obtain ⟨before, c, after, -, -, rfl⟩ := exists_of_mem_lexemesFrom h
  have hpos := Text.byteLength_pos (cut_taken_ne_nil c after)
  simp only [Text.byteLength_append]
  omega

theorem le_start_of_mem_lexemesFrom {l : Spanned Lexeme} (h : l ∈ lexemesFrom pos cs) :
    pos ≤ l.span.start := by
  obtain ⟨before, c, after, -, -, rfl⟩ := exists_of_mem_lexemesFrom h
  exact Nat.le_add_right pos _

/-- Lexemes stand one behind the other and do not overlap. -/
theorem apart_lexemesFrom (pos : Nat) (cs : List Char) :
    (lexemesFrom pos cs).Pairwise fun l m => l.span.stop ≤ m.span.start := by
  fun_induction lexemesFrom pos cs with
  | case1 pos => exact .nil
  | case2 pos c cs hgap ih => exact ih
  | case3 pos c cs hgap first stop ih =>
      exact .cons (fun m hm => le_start_of_mem_lexemesFrom hm) ih

/-- A byte that no lexeme stands on is a gap. -/
theorem gap_of_uncovered {p : Nat} (hlow : pos ≤ p) (hhigh : p < pos + byteLength cs)
    (h : ∀ l ∈ lexemesFrom pos cs, ¬ (l.span.start ≤ p ∧ p < l.span.stop)) :
    ∃ before c after, cs = before ++ c :: after ∧ pos + byteLength before = p ∧
      isGap c = true := by
  fun_induction lexemesFrom pos cs with
  | case1 pos => exact absurd hhigh (Nat.not_lt.mpr hlow)
  | case2 pos c cs hgap ih =>
      rw [Text.byteLength_cons, utf8Size_of_isGap hgap] at hhigh
      rw [utf8Size_of_isGap hgap] at ih h
      by_cases hp : p = pos
      · exact ⟨[], c, cs, rfl, hp.symm, hgap⟩
      · obtain ⟨before, d, after, rfl, hbefore, hd⟩ := ih (by omega) (by omega) h
        refine ⟨c :: before, d, after, rfl, ?_, hd⟩
        rw [Text.byteLength_cons, utf8Size_of_isGap hgap]
        omega
  | case3 pos c cs hgap first stop ih =>
      obtain ⟨hfirst, hrest⟩ := List.forall_mem_cons.mp h
      have htext : first.taken ++ first.rest = c :: cs := cut_taken_append_rest c cs
      rw [← htext, Text.byteLength_append, ← Nat.add_assoc] at hhigh
      have hstop : stop ≤ p := Nat.not_lt.mp fun hlt => hfirst ⟨hlow, hlt⟩
      obtain ⟨before, d, after, hcut, hbefore, hd⟩ := ih hstop hhigh hrest
      refine ⟨first.taken ++ before, d, after, ?_, ?_, hd⟩
      · rw [← htext, hcut, List.append_assoc]
      · rw [Text.byteLength_append, ← hbefore, ← Nat.add_assoc]

/-! ### Tokens and strays together -/

/-- The head of the left list goes first where it comes before everything on the right. -/
theorem merge_cons_left {α : Type} {le : α → α → Bool} {a : α} (as : List α) {bs : List α}
    (h : ∀ b ∈ bs, le a b = true) : (a :: as).merge bs le = a :: as.merge bs le := by
  cases bs with
  | nil => rw [List.merge_right, List.merge_right]
  | cons b bs => exact List.cons_merge_cons_pos le as bs (h b List.mem_cons_self)

/-- The head of the right list goes first where nothing on the left comes before it. -/
theorem merge_cons_right {α : Type} {le : α → α → Bool} {b : α} {as : List α} (bs : List α)
    (h : ∀ a ∈ as, ¬ le a b = true) : as.merge (b :: bs) le = b :: as.merge bs le := by
  cases as with
  | nil => rw [List.nil_merge, List.nil_merge]
  | cons a as => exact List.cons_merge_cons_neg le as bs (h a List.mem_cons_self)

/-- Tokens and strays, each in order, merge to the lexemes that they were told apart from. -/
theorem merge_spans {ls : List (Spanned Lexeme)}
    (h : ls.Pairwise fun l m => l.span.start < m.span.start) :
    ((tokens ls).map Spanned.span).merge ((strays ls).map Spanned.span)
      (fun s t => s.start ≤ t.start) = ls.map Spanned.span := by
  induction ls with
  | nil => exact List.nil_merge []
  | cons l ls ih =>
      obtain ⟨hfirst, hrest⟩ := List.pairwise_cons.mp h
      obtain ⟨span, item⟩ := l
      rw [List.map_cons, ← ih hrest]
      cases item with
      | token t =>
          apply merge_cons_left
          intro other hother
          obtain ⟨s, hs, rfl⟩ := List.mem_map.mp hother
          exact decide_eq_true (Nat.le_of_lt (hfirst _ (mem_of_mem_strays hs)))
      | stray text =>
          apply merge_cons_right
          intro other hother
          obtain ⟨t, ht, rfl⟩ := List.mem_map.mp hother
          rw [decide_eq_true_eq, Nat.not_le]
          exact hfirst _ (mem_of_mem_tokens ht)

/-- Tokens and strays, sorted into one list, are the lexemes again. -/
theorem spans_eq (source : String) : spans source = (lexemes source).map Spanned.span := by
  apply merge_spans
  apply (apart_lexemesFrom 0 source.toList).imp_of_mem
  intro l m hl _ hstop
  exact Nat.lt_of_lt_of_le (nonempty_of_mem_lexemesFrom hl) hstop

/-- Tokens and strays cover the source but for the gaps. -/
theorem tiles_spans (source : String) : Tiles (spans source) source := by
  rw [spans_eq]
  constructor
  · exact List.forall_mem_map.mpr fun l hl => nonempty_of_mem_lexemesFrom hl
  · exact List.pairwise_map.mpr (apart_lexemesFrom 0 source.toList)
  · exact List.forall_mem_map.mpr fun l hl => fits_of_mem_lexemes hl
  · intro p hp h
    rw [← Text.byteLength_toList, ← Nat.zero_add (byteLength _)] at hp
    have huncovered : ∀ l ∈ lexemesFrom 0 source.toList, ¬ (l.span.start ≤ p ∧ p < l.span.stop) :=
      fun l hl => h l.span (List.mem_map_of_mem hl)
    obtain ⟨before, c, after, htext, hbefore, hgap⟩ :=
      gap_of_uncovered (Nat.zero_le p) hp huncovered
    rw [Nat.zero_add] at hbefore
    exact ⟨before, c, after, htext, hbefore, mem_of_isGap hgap⟩

/-! ### Each token -/

/-- A text cut off whole is the only lexeme of the source it makes by itself. -/
theorem lexemes_alone {c : Char} {text : List Char} {t : Token} (hgap : isGap c = false)
    (h : cut c text = ⟨.token t, c :: text, []⟩) :
    lexemes (String.ofList (c :: text)) = [⟨⟨0, byteLength (c :: text)⟩, .token t⟩] := by
  rw [lexemes, String.toList_ofList, lexemesFrom, hgap, if_neg Bool.false_ne_true]
  simp only [h, lexemesFrom, Nat.zero_add]

/-- Every token stands on a stretch of the source that was cut off for it. -/
theorem standsOn_of_mem_tokens {source : String} {tok : Spanned Token}
    (h : tok ∈ tokens (lexemes source)) :
    ∃ before text after, StandsOn source tok before text after := by
  obtain ⟨span, t⟩ := tok
  obtain ⟨before, c, cs, htext, hgap, hlexeme⟩ :=
    exists_of_mem_lexemesFrom (mem_of_mem_tokens h)
  injection hlexeme with hspan htoken
  rw [Nat.zero_add, Nat.zero_add] at hspan
  have hcut : c :: cs = (cut c cs).taken ++ (cut c cs).rest := (cut_taken_append_rest c cs).symm
  obtain ⟨text, htaken, halone⟩ := cut_alone htoken.symm
  have hlexemes := lexemes_alone hgap halone
  refine ⟨before, (cut c cs).taken, (cut c cs).rest, ?_, hspan, isToken_cut htoken.symm, ?_, ?_, ?_⟩
  · rw [htext, hcut, List.append_assoc]
  · intro more u hmatch hbegins
    rw [← hcut] at hbegins
    obtain ⟨_, -, hlength⟩ := cut_longest hmatch hbegins
    exact hlength
  · rw [htaken, hlexemes]
    rfl
  · rw [htaken, hlexemes]
    rfl

/-- Tokens and stray texts tile the source, and every token is the longest at its place and the same
by itself. -/
theorem lexemes_tile (source : String) :
    Tiles (spans source) source ∧
      ∀ tok ∈ tokens (lexemes source),
        ∃ before text after, StandsOn source tok before text after :=
  ⟨tiles_spans source, fun _ h => standsOn_of_mem_tokens h⟩

/-- A keyword in front of a name, a point without a digit behind it, and a quote left open. -/
theorem order_stands :
    ∃ before text after,
      StandsOn "order>=1.x 'é" ⟨⟨0, 5⟩, .name "order"⟩ before text after :=
  (lexemes_tile "order>=1.x 'é").2 ⟨⟨0, 5⟩, .name "order"⟩ (by decide +kernel)

end Lexer

end Parley
