import Mathlib.Data.List.Induction
import Mathlib.Data.String.Basic
import Parley.Proofs.Expr.Parsing

/-!
# Where an expression goes wrong

Every token that the parser accepts can be continued to an expression: what is due is supplied, and
the parentheses left open are closed. So the token it refuses is the first one that no expression
has at its place, and where it refuses none the end of the source comes too early. The span of a
syntax error is that of the token, or the end of the text; it stands between characters of the text.

## Implementation notes

What an operand is followed by depends on the operators left open, but closing parentheses and the
end of the source settle all of those. That is why closing parentheses alone complete a state.
-/

namespace Parley

open Text (Span Spanned byteLength)

namespace Grammar

/-- The tokens can be continued to an expression. -/
def Viable (ts : List Token) : Prop :=
  ∃ more e, Derives .disjunction (ts ++ more) e

end Grammar

namespace Parser

open Grammar (Derives Viable)

variable {s t : State} {frames : List Frame} {e : Expr} {eoi : Span}

/-! ### Completing a state -/

/-- Some closing parentheses complete the state. -/
def State.Closable (s : State) : Prop :=
  ∃ n t e, (List.replicate n Token.closeParen).foldlM State.step? s = some t ∧ t.finish? = some e

/-- The end of the source settles all operators, and then nothing may be left open. -/
theorem State.finish?_eq (s : State) :
    s.finish? = s.settled 0 >>= fun p => if p.1 = [] then some p.2 else none := by
  obtain ⟨frames, operand⟩ := s
  cases operand with
  | none => rfl
  | some e =>
      simp only [finish?, settled, Option.map_some, Option.bind_eq_bind, Option.bind_some]
      split
      · next h => simp [h]
      · next hne =>
          rw [if_neg]
          intro hnil
          exact hne _ (Prod.ext hnil rfl)

/-- A closing parenthesis settles all operators, and then a group must be open. -/
theorem State.step?_closeParen_eq (s : State) :
    s.step? .closeParen = s.settled 0 >>= fun p =>
      match p with
      | (.group :: frames, e) => some (complete frames e)
      | _ => none := by
  obtain ⟨frames, operand⟩ := s
  cases operand <;> rfl

/-- Closing parentheses see of a state only what its binary operators come to. -/
theorem State.Closable.congr (h : t.Closable) (hsettled : s.settled 0 = t.settled 0) :
    s.Closable := by
  obtain ⟨n, u, e, hread, hfinish⟩ := h
  cases n with
  | zero =>
      cases hread
      refine ⟨0, s, e, rfl, ?_⟩
      rw [finish?_eq, hsettled, ← finish?_eq, hfinish]
  | succ n =>
      refine ⟨n + 1, u, e, ?_, hfinish⟩
      rw [List.replicate_succ, List.foldlM_cons] at hread ⊢
      rw [step?_closeParen_eq, hsettled, ← step?_closeParen_eq, hread]

/-- Behind an operand, whatever is open can be closed. -/
theorem Opened.closable {ts : List Token} (h : Opened frames ts) (e : Expr) :
    (State.complete frames e).Closable := by
  induction h generalizing e with
  | nil => exact ⟨0, _, e, rfl, rfl⟩
  | group _ ih =>
      obtain ⟨n, t, e', hread, hfinish⟩ := ih e
      exact ⟨n + 1, t, e', hread, hfinish⟩
  | not _ ih => exact ih (.unary .not e)
  | neg _ ih => exact ih (.unary .neg e)
  | @binary frames ts s op left lhs _ hop hlhs hfits ih =>
      apply (ih (.binary op lhs e)).congr
      rw [complete_of_fits (hfits.mono (Nat.le_of_lt (level_lt op)))]
      exact congrArg some (if_pos (Nat.zero_le _))

/-- Whatever was read, it can be continued: by an operand where one is due, and by closing
parentheses. -/
theorem Holds.viable {read : List Token} (h : Holds s read) : Viable read := by
  have hclose : ∀ {u : State} {ts : List Token}, Holds u ts → u.Closable → Viable ts := by
    rintro u ts hholds ⟨n, v, e, hread, hfinish⟩
    exact ⟨_, e, (hholds.steps hread).finish hfinish⟩
  cases h with
  | @due frames _ hopened =>
      have hstep : State.step? ⟨frames, none⟩ (.bool true) =
          some (State.complete frames (.literal (.bool true))) := rfl
      obtain ⟨more, e, hderives⟩ := hclose ((Holds.due hopened).step hstep) (hopened.closable _)
      exact ⟨.bool true :: more, e, by simpa using hderives⟩
  | @done frames outer inner e hopened hfits hinner =>
      apply hclose (.done hopened hfits hinner)
      rw [← complete_of_fits hfits]
      exact hopened.closable e

/-- Tokens can be continued to an expression exactly where the parser accepts all of them. -/
theorem viable_iff {ts : List Token} : Viable ts ↔ (ts.foldlM State.step? {}).isSome := by
  constructor
  · rintro ⟨more, e, hderives⟩
    obtain ⟨t, hread, -⟩ := finish_of_derives hderives
    rw [List.foldlM_append] at hread
    obtain ⟨u, hfirst, -⟩ := Option.bind_eq_some_iff.mp hread
    exact Option.isSome_of_mem hfirst
  · intro hread
    obtain ⟨s, hs⟩ := Option.isSome_iff_exists.mp hread
    have hholds : Holds s ([] ++ ts) := (Holds.due .nil).steps hs
    exact hholds.viable

instance (ts : List Token) : Decidable (Viable ts) :=
  decidable_of_iff _ viable_iff.symm

/-! ### What the parser refuses -/

/-- Where every token is accepted but something is left open, the end comes too early. -/
theorem run_of_accepted {ts : List (Spanned Token)}
    (hread : (ts.map Spanned.item).foldlM State.step? s = some t) (hopen : t.finish? = none) :
    run eoi s ts = .error (.malformed eoi (.outOfPlace none t.expected)) := by
  induction ts generalizing s with
  | nil =>
      cases hread
      simp only [run, hopen]
  | cons tok ts ih =>
      rw [List.map_cons, List.foldlM_cons] at hread
      obtain ⟨u, hstep, hrest⟩ := Option.bind_eq_some_iff.mp hread
      simp only [run, hstep]
      exact ih hrest

/-- The first token that is not accepted is the one to blame. -/
theorem run_of_refused {before after : List (Spanned Token)} {tok : Spanned Token}
    (hread : (before.map Spanned.item).foldlM State.step? s = some t)
    (hrefused : t.step? tok.item = none) :
    run eoi s (before ++ tok :: after) =
      .error (.malformed tok.span (.outOfPlace (some tok.item) t.expected)) := by
  induction before generalizing s with
  | nil =>
      cases hread
      simp only [List.nil_append, run, hrefused]
  | cons first before ih =>
      rw [List.map_cons, List.foldlM_cons] at hread
      obtain ⟨u, hstep, hrest⟩ := Option.bind_eq_some_iff.mp hread
      simp only [List.cons_append, run, hstep]
      exact ih hrest

end Parser

/-! ### Spans -/

theorem Text.byteLength_toList (source : String) :
    byteLength source.toList = source.utf8ByteSize := by
  have hlist : ∀ cs : List Char, byteLength cs = String.utf8Len cs := by
    intro cs
    induction cs with
    | nil => rfl
    | cons c cs ih => rw [byteLength_cons, String.utf8Len_cons, ih, Nat.add_comm]
  rw [hlist, ← String.utf8ByteSize_ofList, String.ofList_toList]

/-- The bytes of some characters at the front of a text end between two of its characters. -/
theorem Text.isValid_byteLength {source : String} {before after : List Char}
    (h : source.toList = before ++ after) :
    String.Pos.Raw.IsValid source ⟨byteLength before⟩ := by
  apply String.Pos.Raw.isValid_iff_exists_append.mpr
  refine ⟨.ofList before, .ofList after, ?_, ?_⟩
  · rw [← String.ofList_append, ← h, String.ofList_toList]
  · rw [String.rawEndPos, ← byteLength_toList, String.toList_ofList]

/-- A span that begins and ends between characters of the text. -/
structure Text.Span.Fits (span : Span) (source : String) : Prop where
  ordered : span.start ≤ span.stop
  within : span.stop ≤ source.utf8ByteSize
  start : String.Pos.Raw.IsValid source ⟨span.start⟩
  stop : String.Pos.Raw.IsValid source ⟨span.stop⟩

/-- The span of a part of the text lies between characters. -/
theorem Text.Span.fits_of_append {source : String} {before taken after : List Char}
    (h : source.toList = before ++ taken ++ after) :
    Fits ⟨byteLength before, byteLength (before ++ taken)⟩ source where
  ordered := by simp
  within := by simp [← byteLength_toList, h]
  start := isValid_byteLength (by rw [h, List.append_assoc])
  stop := isValid_byteLength h

theorem Text.Span.fits_end (source : String) :
    Fits ⟨source.utf8ByteSize, source.utf8ByteSize⟩ source := by
  have htext : source.toList = source.toList ++ [] ++ [] := by simp
  simpa only [List.append_nil, byteLength_toList] using fits_of_append htext

namespace Lexer

/-- Every lexeme was cut off at some character of the text that is no gap. -/
theorem exists_of_mem_lexemesFrom {pos : Nat} {cs : List Char} {l : Spanned Lexeme}
    (h : l ∈ lexemesFrom pos cs) :
    ∃ before c after, cs = before ++ c :: after ∧ isGap c = false ∧
      l = ⟨⟨pos + byteLength before, pos + byteLength (before ++ (cut c after).taken)⟩,
        (cut c after).lexeme⟩ := by
  fun_induction lexemesFrom pos cs with
  | case1 pos => exact absurd h List.not_mem_nil
  | case2 pos c cs hgap ih =>
      obtain ⟨before, d, after, rfl, hd, rfl⟩ := ih h
      exact ⟨c :: before, d, after, rfl, hd, by simp [Nat.add_assoc]⟩
  | case3 pos c cs hgap first stop ih =>
      have htext : first.taken ++ first.rest = c :: cs := cut_taken_append_rest c cs
      obtain rfl | hrest := List.mem_cons.mp h
      · exact ⟨[], c, cs, rfl, by simpa using hgap, rfl⟩
      · obtain ⟨before, d, after, hcut, hd, rfl⟩ := ih hrest
        refine ⟨first.taken ++ before, d, after, ?_, hd, ?_⟩
        · rw [← htext, hcut, List.append_assoc]
        · simp [stop, Nat.add_assoc]

/-- Whatever the lexer cuts off lies between characters of the source. -/
theorem fits_of_mem_lexemes {source : String} {l : Spanned Lexeme} (h : l ∈ lexemes source) :
    l.span.Fits source := by
  obtain ⟨before, c, after, htext, -, rfl⟩ := exists_of_mem_lexemesFrom h
  have hcut : source.toList = before ++ (cut c after).taken ++ (cut c after).rest := by
    rw [htext, List.append_assoc, cut_taken_append_rest]
  rw [Nat.zero_add, Nat.zero_add]
  exact Span.fits_of_append hcut

theorem mem_of_mem_tokens {ls : List (Spanned Lexeme)} {t : Spanned Token}
    (h : t ∈ tokens ls) : ⟨t.span, .token t.item⟩ ∈ ls := by
  obtain ⟨⟨span, item⟩, hl, hitem⟩ := List.mem_filterMap.mp h
  cases item with
  | token t =>
      cases hitem
      exact hl
  | stray text => cases hitem

theorem mem_of_mem_strays {ls : List (Spanned Lexeme)} {s : Spanned String}
    (h : s ∈ strays ls) : ⟨s.span, .stray s.item⟩ ∈ ls := by
  obtain ⟨⟨span, item⟩, hl, hitem⟩ := List.mem_filterMap.mp h
  cases item with
  | token t => cases hitem
  | stray text =>
      cases hitem
      exact hl

theorem fits_of_mem_tokens {source : String} {t : Spanned Token}
    (h : t ∈ tokens (lexemes source)) : t.span.Fits source :=
  fits_of_mem_lexemes (mem_of_mem_tokens h)

theorem fits_of_mem_strays {source : String} {s : Spanned String}
    (h : s ∈ strays (lexemes source)) : s.span.Fits source :=
  fits_of_mem_lexemes (mem_of_mem_strays h)

end Lexer

namespace Grammar

open Lexer (lexemes tokens strays)

/-- Tokens that cannot be continued to an expression have a first one that is to blame. -/
theorem exists_first_bad {ts : List (Spanned Token)} (h : ¬ Viable (ts.map Spanned.item)) :
    ∃ before t after, ts = before ++ t :: after ∧ Viable (before.map Spanned.item) ∧
      ¬ Viable ((before ++ [t]).map Spanned.item) := by
  induction ts using List.reverseRecOn with
  | nil => exact absurd (Parser.viable_iff.mpr rfl) h
  | append_singleton ts t ih =>
      by_cases hviable : Viable (ts.map Spanned.item)
      · exact ⟨ts, t, [], rfl, hviable, h⟩
      · obtain ⟨before, bad, after, rfl, hfirst⟩ := ih hviable
        exact ⟨before, bad, after ++ [t], by simp, hfirst⟩

variable {source : String} {before after : List (Spanned Token)} {t : Spanned Token}

/-- The first token with which no expression can go on is blamed. -/
theorem parse_of_bad_token (hblank : ¬ Text.allBlank source.toList)
    (hstrays : strays (lexemes source) = [])
    (htokens : tokens (lexemes source) = before ++ t :: after)
    (hbefore : Viable (before.map Spanned.item))
    (hbad : ¬ Viable ((before ++ [t]).map Spanned.item)) :
    ∃ expected,
      Expr.parse source = .error (.malformed t.span (.outOfPlace (some t.item) expected)) := by
  obtain ⟨s, hread⟩ := Option.isSome_iff_exists.mp (Parser.viable_iff.mp hbefore)
  have hrefused : s.step? t.item = none := by
    cases hstep : s.step? t.item with
    | none => rfl
    | some u =>
        refine absurd (Parser.viable_iff.mpr ?_) hbad
        rw [List.map_append, List.foldlM_append, hread]
        simp [hstep]
  simp only [Expr.parse, if_neg hblank, hstrays, htokens]
  exact ⟨_, Parser.run_of_refused hread hrefused⟩

/-- The end of the source is blamed where an expression could still go on. -/
theorem parse_of_early_end (hblank : ¬ Text.allBlank source.toList)
    (hstrays : strays (lexemes source) = []) (hfail : ∀ e, Expr.parse source ≠ .ok e)
    (hviable : Viable ((tokens (lexemes source)).map Spanned.item)) :
    ∃ expected, Expr.parse source =
      .error (.malformed ⟨source.utf8ByteSize, source.utf8ByteSize⟩
        (.outOfPlace none expected)) := by
  obtain ⟨s, hread⟩ := Option.isSome_iff_exists.mp (Parser.viable_iff.mp hviable)
  have hopen : s.finish? = none := by
    cases hfinish : s.finish? with
    | none => rfl
    | some e =>
        refine absurd ?_ (hfail e)
        simp only [Expr.parse, if_neg hblank, hstrays]
        exact Parser.run_eq_ok_iff.mpr ⟨s, hread, hfinish⟩
  simp only [Expr.parse, if_neg hblank, hstrays, ← Text.byteLength_toList]
  exact ⟨_, Parser.run_of_accepted hread hopen⟩

/-- The first stray text is blamed, whatever the tokens around it would come to. -/
theorem parse_of_stray {stray : Spanned String} {more : List (Spanned String)}
    (hblank : ¬ Text.allBlank source.toList) (hstrays : strays (lexemes source) = stray :: more) :
    Expr.parse source = .error (.malformed stray.span (.strayText stray.item)) := by
  simp only [Expr.parse, if_neg hblank, hstrays]

/-- What there is to blame in a source without an expression. -/
inductive Blame (source : String) : Span → Prop where
  /-- A text that is no token, the first of them. -/
  | stray {stray : Spanned String} {more : List (Spanned String)} :
      strays (lexemes source) = stray :: more → Blame source stray.span
  /-- A token that no expression has at its place, the first of them. -/
  | token {before after : List (Spanned Token)} {t : Spanned Token} :
      strays (lexemes source) = [] → tokens (lexemes source) = before ++ t :: after →
      Viable (before.map Spanned.item) → ¬ Viable ((before ++ [t]).map Spanned.item) →
      Blame source t.span
  /-- The end, which comes too early. -/
  | ending :
      strays (lexemes source) = [] → Viable ((tokens (lexemes source)).map Spanned.item) →
      Blame source ⟨source.utf8ByteSize, source.utf8ByteSize⟩

/-- In every source there is something to blame, should it not be an expression. -/
theorem Blame.exists (source : String) : ∃ span, Blame source span := by
  cases hstrays : strays (lexemes source) with
  | cons stray more => exact ⟨_, .stray hstrays⟩
  | nil =>
      by_cases hviable : Viable ((tokens (lexemes source)).map Spanned.item)
      · exact ⟨_, .ending hstrays hviable⟩
      · obtain ⟨before, t, after, htokens, hbefore, hbad⟩ := exists_first_bad hviable
        exact ⟨_, .token hstrays htokens hbefore hbad⟩

/-- What is blamed lies between characters of the source. -/
theorem Blame.fits {span : Span} (h : Blame source span) : span.Fits source := by
  cases h with
  | stray hstrays =>
      apply Lexer.fits_of_mem_strays
      rw [hstrays]
      exact List.mem_cons_self
  | token _ htokens =>
      apply Lexer.fits_of_mem_tokens
      rw [htokens]
      exact List.mem_append_cons_self
  | ending => exact Span.fits_end source

/-- A source that is not blank and has no expression is refused at what there is to blame in it. -/
theorem Blame.parse {span : Span} (h : Blame source span)
    (hblank : ¬ Text.allBlank source.toList) (hfail : ∀ e, Expr.parse source ≠ .ok e) :
    ∃ fault, Expr.parse source = .error (.malformed span fault) := by
  cases h with
  | stray hstrays => exact ⟨_, parse_of_stray hblank hstrays⟩
  | token hstrays htokens hbefore hbad =>
      obtain ⟨expected, hparse⟩ := parse_of_bad_token hblank hstrays htokens hbefore hbad
      exact ⟨_, hparse⟩
  | ending hstrays hviable =>
      obtain ⟨expected, hparse⟩ := parse_of_early_end hblank hstrays hfail hviable
      exact ⟨_, hparse⟩

/-- Where a source that is not blank has no expression, the span of the syntax error is the one and
only that is to blame, and it stands between characters of the source. -/
theorem malformed_at_blame (source : String) (hblank : ¬ Text.allBlank source.toList)
    (hfail : ∀ e, Expr.parse source ≠ .ok e) :
    ∃ span fault, Expr.parse source = .error (.malformed span fault) ∧
      (∀ other, Blame source other ↔ other = span) ∧
      span.start ≤ span.stop ∧ span.stop ≤ source.utf8ByteSize ∧
      String.Pos.Raw.IsValid source ⟨span.start⟩ ∧ String.Pos.Raw.IsValid source ⟨span.stop⟩ := by
  obtain ⟨span, hblame⟩ := Blame.exists source
  obtain ⟨fault, hparse⟩ := hblame.parse hblank hfail
  have honly : ∀ other, Blame source other ↔ other = span := by
    intro other
    constructor
    · intro hother
      obtain ⟨_, hagain⟩ := hother.parse hblank hfail
      rw [hparse] at hagain
      injection hagain with hfault
      injection hfault with hspan
      exact hspan.symm
    · rintro rfl
      exact hblame
  have hfits := hblame.fits
  exact ⟨span, fault, hparse, honly, hfits.ordered, hfits.within, hfits.start, hfits.stop⟩

deriving instance DecidableEq for Spanned

/-- A token behind a character of two bytes, an end behind a line feed, and a text that is no
token. -/
theorem blamed_spans :
    (∃ fault, Expr.parse "'é' b" = .error (.malformed ⟨5, 6⟩ fault)) ∧
      (∃ fault, Expr.parse "a +\n" = .error (.malformed ⟨4, 4⟩ fault)) ∧
      ∃ fault, Expr.parse "a = b" = .error (.malformed ⟨2, 3⟩ fault) := by
  have hfail : ∀ {source : String}, (Expr.parse source).isOk = false →
      ∀ e, Expr.parse source ≠ .ok e := by
    intro source hno e hparse
    rw [hparse] at hno
    cases hno
  refine ⟨?_, ?_, ?_⟩
  · obtain ⟨span, fault, hparse, honly, -⟩ :=
      malformed_at_blame "'é' b" (by decide +kernel) (hfail (by decide +kernel))
    have htokens : tokens (lexemes "'é' b") =
        [⟨⟨0, 4⟩, .string "é"⟩] ++ ⟨⟨5, 6⟩, .name "b"⟩ :: [] := by
      decide +kernel
    have hblame : Blame "'é' b" ⟨5, 6⟩ :=
      .token (by decide +kernel) htokens (by decide +kernel) (by decide +kernel)
    exact ⟨fault, (honly _).mp hblame ▸ hparse⟩
  · obtain ⟨span, fault, hparse, honly, -⟩ :=
      malformed_at_blame "a +\n" (by decide +kernel) (hfail (by decide +kernel))
    have hblame : Blame "a +\n" ⟨4, 4⟩ := .ending (by decide +kernel) (by decide +kernel)
    exact ⟨fault, (honly _).mp hblame ▸ hparse⟩
  · obtain ⟨span, fault, hparse, honly, -⟩ :=
      malformed_at_blame "a = b" (by decide +kernel) (hfail (by decide +kernel))
    have hstrays : strays (lexemes "a = b") = ⟨⟨2, 3⟩, "="⟩ :: [] := by decide +kernel
    have hblame : Blame "a = b" ⟨2, 3⟩ := .stray hstrays
    exact ⟨fault, (honly _).mp hblame ▸ hparse⟩

end Grammar

end Parley
