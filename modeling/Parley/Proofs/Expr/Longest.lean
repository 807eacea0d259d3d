import Mathlib.Data.List.TakeWhile
import Parley.Proofs.Expr.Lexing

/-!
# What the tokens are

The rules that tell which texts are tokens, and the lexer measured against them: it cuts off the
longest text that any rule matches. Where two rules match one and the same text, that of a symbol or
keyword comes before that of a name, and so each text is one token at most.

## Implementation notes

The rules know nothing of what stands behind a text, and a text cut off is compared with all that
the rules match there. That a token is cut again from its own text alone then needs no further look
at the lexer.
-/

namespace Parley

theorem Char.toLower_of_isDigit {c : Char} (h : c.isDigit = true) : c.toLower = c := by
  rw [Char.isDigit, Bool.and_eq_true, decide_eq_true_eq, decide_eq_true_eq] at h
  have hupper : ¬ (c.val ≥ 'A'.val ∧ c.val ≤ 'Z'.val) := by
    rintro ⟨hlow, -⟩
    exact absurd (UInt32.le_trans hlow h.2) (by decide)
  exact dif_neg hupper

namespace Lexer

/-! ### Rules -/

/-- The texts of symbols and keywords. -/
def spellings : List (List Char × Token) :=
  [(['('], .openParen), ([')'], .closeParen), (['|', '|'], .operator .or),
    (['o', 'r'], .operator .or), (['&', '&'], .operator .and), (['a', 'n', 'd'], .operator .and),
    (['!'], .not), (['n', 'o', 't'], .not), (['=', '='], .operator .equal),
    (['!', '='], .operator .notEqual), (['<'], .operator .less), (['<', '='], .operator .lessEqual),
    (['>'], .operator .greater), (['>', '='], .operator .greaterEqual), (['+'], .operator .add),
    (['-'], .operator .sub), (['*'], .operator .mul), (['/'], .operator .div),
    (['%'], .operator .rem), (['t', 'r', 'u', 'e'], .bool true),
    (['f', 'a', 'l', 's', 'e'], .bool false)]

/-- Digits, and behind them a point and digits, or nothing. -/
inductive IsNumeral : List Char → Prop where
  | whole {c : Char} {cs : List Char} : c.isDigit = true → (∀ d ∈ cs, d.isDigit = true) →
      IsNumeral (c :: cs)
  | fraction {c d : Char} {cs ds : List Char} : c.isDigit = true →
      (∀ e ∈ cs, e.isDigit = true) → d.isDigit = true → (∀ e ∈ ds, e.isDigit = true) →
      IsNumeral (c :: cs ++ '.' :: d :: ds)

/-- A text that a rule makes a token of. -/
inductive Matches : List Char → Token → Prop where
  | spelled {text : List Char} {t : Token} : (text, t) ∈ spellings → Matches text t
  | number {text : List Char} {x : Float} : IsNumeral text → Decimal.read? text = some x →
      Matches text (.number x)
  | string {q : Char} {body : List Char} : q = '"' ∨ q = '\x27' → q ∉ body → '\n' ∉ body →
      Matches (q :: (body ++ [q])) (.string (String.ofList body))
  | name {text : List Char} : isName text = true → Matches text (.name (String.ofList text))

/-- A text that a rule makes a token of, and no rule of a spelling makes another token of. -/
structure IsToken (text : List Char) (t : Token) : Prop where
  matched : Matches text t
  first : ∀ u, (text, u) ∈ spellings → u = t

/-! ### Beginnings -/

/-- A character that can only begin a symbol, or nothing. -/
def opensSymbol (c : Char) : Bool :=
  !isNameStart c && !c.isDigit && c != '"' && c != '\x27'

theorem isNameStart_of_isDigit {c : Char} (h : c.isDigit = true) : isNameStart c = false := by
  rw [← Bool.not_eq_true]
  intro hstart
  rw [Char.isDigit, Bool.and_eq_true, decide_eq_true_eq, decide_eq_true_eq] at h
  -- Letters and the underscore all stand behind the digits.
  have hbehind : 'A'.val ≤ c.val := by
    change ((c.isUpper || c.isLower) || c == '_') = true at hstart
    simp only [Bool.or_eq_true, beq_iff_eq] at hstart
    rcases hstart with (hupper | hlower) | rfl
    · exact (of_decide_eq_true hupper).1
    · change (decide ('a'.val ≤ c.val) && decide (c.val ≤ 'z'.val)) = true at hlower
      rw [Bool.and_eq_true, decide_eq_true_eq] at hlower
      exact UInt32.le_trans (by decide) hlower.1
    · decide
  exact absurd (UInt32.le_trans hbehind h.2) (by decide)

/-- A name or a keyword is cut off where a name may begin. -/
theorem cut_of_isNameStart {c : Char} (h : isNameStart c = true) (cs : List Char) :
    cut c cs = cutWord c cs :=
  if_pos h

theorem cut_of_isDigit {c : Char} (h : c.isDigit = true) (cs : List Char) :
    cut c cs = cutNumber c cs := by
  rw [cut, isNameStart_of_isDigit h, if_neg Bool.false_ne_true, if_pos h]

theorem cut_of_isQuote {q : Char} (h : q = '"' ∨ q = '\x27') (cs : List Char) :
    cut q cs = cutQuote q cs := by
  have hplain : isNameStart q = false ∧ q.isDigit = false := by
    rcases h with rfl | rfl <;> decide
  rw [cut, hplain.1, if_neg Bool.false_ne_true, hplain.2, if_neg Bool.false_ne_true, if_pos h]

/-- The first character settles which of the four rules is to be tried. -/
theorem opensSymbol_iff {c : Char} : opensSymbol c = true ↔
    isNameStart c = false ∧ c.isDigit = false ∧ ¬ (c = '"' ∨ c = '\x27') := by
  simp only [opensSymbol, Bool.and_eq_true, Bool.not_eq_true', bne_iff_ne, not_or, and_assoc]

theorem cut_of_opensSymbol {c : Char} (h : opensSymbol c = true) (cs : List Char) :
    cut c cs = cutSymbol c cs := by
  obtain ⟨hstart, hdigit, hquote⟩ := opensSymbol_iff.mp h
  rw [cut, hstart, if_neg Bool.false_ne_true, hdigit, if_neg Bool.false_ne_true, if_neg hquote]

/-! ### Spellings -/

/-- The token of a symbol, if the text is one. -/
def symbolToken? : List Char → Option Token
  | [c] => charToken? c
  | [c, d] => pairToken? c d
  | _ => none

/-- Keywords are names by themselves; no symbol begins like one. -/
theorem keyword_or_symbol : ∀ p ∈ spellings,
    (isName p.1 = true ∧ wordToken p.1 = p.2) ∨
      (p.1.head?.any opensSymbol = true ∧ symbolToken? p.1 = some p.2) := by
  decide

theorem spelled_of_charToken? {c : Char} {t : Token} (h : charToken? c = some t) :
    ([c], t) ∈ spellings := by
  unfold charToken? at h
  split at h <;> cases h <;> decide

theorem spelled_of_pairToken? {c d : Char} {t : Token} (h : pairToken? c d = some t) :
    ([c, d], t) ∈ spellings := by
  unfold pairToken? at h
  split at h <;> cases h <;> decide

/-- No text spells two tokens. -/
theorem spelling_unique : ∀ p ∈ spellings, ∀ q ∈ spellings, p.1 = q.1 → p.2 = q.2 := by
  decide

/-- Every entry of the table of spellings is a token. -/
theorem isToken_of_spelled {text : List Char} {t : Token} (h : (text, t) ∈ spellings) :
    IsToken text t :=
  ⟨.spelled h, fun _ hu => spelling_unique _ hu _ h rfl⟩

/-- What begins neither like a name nor like a symbol has no spelling. -/
theorem not_spelled {c : Char} (hstart : isNameStart c = false) (hopens : opensSymbol c = false)
    (cs : List Char) (t : Token) : (c :: cs, t) ∉ spellings := by
  intro h
  rcases keyword_or_symbol _ h with ⟨hname, -⟩ | ⟨hsymbol, -⟩
  · rw [isName, hstart] at hname
    cases hname
  · have hfirst : opensSymbol c = true := by simpa using hsymbol
    rw [hopens] at hfirst
    cases hfirst

/-! ### Numerals -/

theorem numeral?_of_isDigit {c : Char} (h : c.isDigit = true) (cs : List Char) :
    Decimal.numeral? (c :: cs) = Decimal.finite? false (c :: cs) := by
  have hne : c ≠ '+' ∧ c ≠ '-' ∧ c ≠ 'n' ∧ c ≠ 'i' := by
    refine ⟨?_, ?_, ?_, ?_⟩ <;> (rintro rfl; revert h; decide)
  obtain ⟨hplus, hminus, hnan, hinf⟩ := hne
  have hsign : Decimal.takeSign (c :: cs) = (false, c :: cs) := by
    unfold Decimal.takeSign
    split <;> simp_all
  simp only [Decimal.numeral?, hsign, List.map_cons, Char.toLower_of_isDigit h, List.cons.injEq,
    hnan, hinf, false_and, or_self, if_false]

theorem takeWhile_isDigit {cs : List Char} (h : ∀ c ∈ cs, c.isDigit = true) :
    cs.takeWhile Char.isDigit = cs ∧ cs.dropWhile Char.isDigit = [] :=
  ⟨List.takeWhile_eq_self_iff.mpr h, List.dropWhile_eq_nil_iff.mpr h⟩

/-- Every numeral of the rules has a value. -/
theorem IsNumeral.exists_finite {text : List Char} (h : IsNumeral text) :
    ∃ n, Decimal.finite? false text = some n := by
  cases h with
  | @whole c cs hc hcs =>
      obtain ⟨htake, hdrop⟩ := takeWhile_isDigit (List.forall_mem_cons.mpr ⟨hc, hcs⟩)
      simp only [Decimal.finite?, htake, hdrop]
      exact ⟨_, rfl⟩
  | @fraction c d cs ds hc hcs hd hds =>
      have hall : ∀ e ∈ c :: cs, e.isDigit = true := List.forall_mem_cons.mpr ⟨hc, hcs⟩
      obtain ⟨htake, hdrop⟩ := takeWhile_isDigit (List.forall_mem_cons.mpr ⟨hd, hds⟩)
      simp only [Decimal.finite?, List.takeWhile_append_of_pos hall,
        List.dropWhile_append_of_pos hall, List.dropWhile_cons_of_neg (by decide : ¬ '.'.isDigit),
        htake, hdrop]
      exact ⟨_, rfl⟩

/-- Every numeral can be read. -/
theorem IsNumeral.exists_read {text : List Char} (h : IsNumeral text) :
    ∃ x, Decimal.read? text = some x := by
  obtain ⟨n, hfinite⟩ := h.exists_finite
  refine ⟨n.toFloat, ?_⟩
  rw [Decimal.read?]
  cases h with
  | whole hc => rw [numeral?_of_isDigit hc, hfinite, Option.map_some]
  | fraction hc =>
      rw [List.cons_append] at hfinite ⊢
      rw [numeral?_of_isDigit hc, hfinite, Option.map_some]

/-! ### What is cut off is a token -/

section Cut

variable {c : Char} {cs : List Char} {t : Token}

/-- A word is the keyword it spells, or else a name. -/
theorem isToken_wordToken {word : List Char} (h : isName word = true) :
    IsToken word (wordToken word) := by
  constructor
  · unfold wordToken
    split
    case h_6 => exact .name h
    all_goals exact .spelled (by decide)
  · intro u hu
    rcases keyword_or_symbol _ hu with ⟨-, htoken⟩ | ⟨hopens, -⟩
    · exact htoken.symm
    · cases word with
      | nil => cases h
      | cons c cs =>
          rw [isName, Bool.and_eq_true] at h
          have hsymbol : opensSymbol c = true := by simpa using hopens
          rw [(opensSymbol_iff.mp hsymbol).1] at h
          cases h.1

/-- What is taken for a number is a numeral of the rules. -/
theorem isNumeral_taken (hdigit : c.isDigit = true) (cs : List Char) :
    IsNumeral (cutNumber c cs).taken := by
  have hwhole : ∀ d ∈ cs.takeWhile Char.isDigit, d.isDigit = true :=
    List.all_eq_true.mp List.all_takeWhile
  have hplain : IsNumeral (c :: cs.takeWhile Char.isDigit ++ []) := by
    rw [List.append_nil]
    exact .whole hdigit hwhole
  change IsNumeral (c :: cs.takeWhile Char.isDigit ++ (splitFraction (cs.dropWhile Char.isDigit)).1)
  unfold splitFraction
  split
  · next d rest _ =>
      split
      · next hd => exact .fraction hdigit hwhole hd (List.all_eq_true.mp List.all_takeWhile)
      · exact hplain
  · exact hplain

theorem isToken_cutNumber (hdigit : c.isDigit = true) (cs : List Char) :
    ∃ t, (cutNumber c cs).lexeme = .token t ∧ IsToken (cutNumber c cs).taken t := by
  have hnumeral := isNumeral_taken hdigit cs
  obtain ⟨x, hread⟩ := hnumeral.exists_read
  refine ⟨.number x, ?_, .number hnumeral hread, fun u hu => ?_⟩
  · change Lexeme.token (numberToken (cutNumber c cs).taken) = _
    rw [numberToken, hread, Option.getD_some]
  · have hopens : opensSymbol c = false := by simp [opensSymbol, hdigit]
    exact absurd hu (not_spelled (isNameStart_of_isDigit hdigit) hopens _ u)

/-- A quoted text that is closed in its line is a token. -/
theorem isToken_cutQuote {q : Char} (hquote : q = '"' ∨ q = '\x27')
    (h : (cutQuote q cs).lexeme = .token t) : IsToken (cutQuote q cs).taken t := by
  have hbody : ∀ d ∈ cs.takeWhile (fun d => !endsQuote q d), endsQuote q d = false := by
    intro d hd
    simpa using List.all_eq_true.mp List.all_takeWhile d hd
  have hplain : isNameStart q = false ∧ opensSymbol q = false := by
    rcases hquote with rfl | rfl <;> decide
  simp only [cutQuote] at h ⊢
  split at h
  · cases h
  · split at h
    · next d rest _ hclose =>
        cases h
        rw [if_pos hclose, hclose]
        refine ⟨.string hquote ?_ ?_, fun u hu => absurd hu (not_spelled hplain.1 hplain.2 _ u)⟩
        · exact fun hmem => absurd (hbody _ hmem) (by simp [endsQuote])
        · exact fun hmem => absurd (hbody _ hmem) (by simp [endsQuote])
    · cases h

theorem isToken_cutSymbol (h : (cutSymbol c cs).lexeme = .token t) :
    IsToken (cutSymbol c cs).taken t := by
  have hchar : ∀ ds, (cutChar c ds).lexeme = .token t → IsToken (cutChar c ds).taken t := by
    intro ds hds
    unfold cutChar at hds ⊢
    split at hds
    · next u hu =>
        cases hds
        exact isToken_of_spelled (spelled_of_charToken? hu)
    · cases hds
  cases cs with
  | nil => exact hchar [] h
  | cons d rest =>
      simp only [cutSymbol] at h ⊢
      cases hpair : pairToken? c d with
      | none =>
          rw [hpair] at h
          exact hchar (d :: rest) h
      | some u =>
          rw [hpair] at h
          cases h
          exact isToken_of_spelled (spelled_of_pairToken? hpair)

/-- Whatever is cut off as a token is one by the rules. -/
theorem isToken_cut (h : (cut c cs).lexeme = .token t) : IsToken (cut c cs).taken t := by
  by_cases hstart : isNameStart c = true
  · rw [cut_of_isNameStart hstart] at h ⊢
    cases h
    exact isToken_wordToken (Bool.and_eq_true _ _ ▸ ⟨hstart, List.all_takeWhile⟩)
  by_cases hdigit : c.isDigit = true
  · rw [cut_of_isDigit hdigit] at h ⊢
    obtain ⟨u, hu, htoken⟩ := isToken_cutNumber hdigit cs
    cases hu.symm.trans h
    exact htoken
  by_cases hquote : c = '"' ∨ c = '\x27'
  · rw [cut_of_isQuote hquote] at h ⊢
    exact isToken_cutQuote hquote h
  · rw [cut, if_neg hstart, if_neg hdigit, if_neg hquote] at h ⊢
    exact isToken_cutSymbol h

/-! ### Nothing longer is a token -/

variable {more : List Char}

/-- Where a name stands in front, no less than the name is cut off. -/
theorem longest_of_name (hname : isName more = true) (hbegins : more <+: c :: cs) :
    ∃ u, (cut c cs).lexeme = .token u ∧ more.length ≤ (cut c cs).taken.length := by
  obtain ⟨after, hafter⟩ := hbegins
  cases more with
  | nil => cases hname
  | cons d rest =>
      rw [List.cons_append] at hafter
      obtain ⟨rfl, rfl⟩ := List.cons.inj hafter
      rw [isName, Bool.and_eq_true, List.all_eq_true] at hname
      rw [cut_of_isNameStart hname.1]
      refine ⟨_, rfl, ?_⟩
      simp only [cutWord, List.takeWhile_append_of_pos hname.2, List.length_cons,
        List.length_append]
      omega

theorem length_pos_cut (c : Char) (cs : List Char) : 0 < (cut c cs).taken.length :=
  List.length_pos_iff.mpr (cut_taken_ne_nil c cs)

/-- Where an operator stands in front, no less than the operator is cut off. -/
theorem longest_of_symbol (hopens : more.head?.any opensSymbol = true)
    (htoken : symbolToken? more = some t) (hbegins : more <+: c :: cs) :
    ∃ u, (cut c cs).lexeme = .token u ∧ more.length ≤ (cut c cs).taken.length := by
  obtain ⟨after, hafter⟩ := hbegins
  match more, htoken with
  | [d], htoken =>
      rw [List.singleton_append] at hafter
      obtain ⟨rfl, rfl⟩ := List.cons.inj hafter
      have hcut : cut d after = cutSymbol d after :=
        cut_of_opensSymbol (by simpa using hopens) after
      have hchar : ∀ ds, cutChar d ds = ⟨.token t, [d], ds⟩ := by
        intro ds
        simp only [cutChar, show charToken? d = some t from htoken]
      have hlexeme : ∃ u, (cutSymbol d after).lexeme = .token u := by
        cases after with
        | nil => exact ⟨t, by rw [cutSymbol, hchar]⟩
        | cons e after =>
            rw [cutSymbol]
            cases pairToken? d e with
            | none => exact ⟨t, by rw [hchar]⟩
            | some u => exact ⟨u, rfl⟩
      obtain ⟨u, hu⟩ := hlexeme
      exact ⟨u, hcut ▸ hu, length_pos_cut d after⟩
  | [d, e], htoken =>
      rw [List.cons_append, List.singleton_append] at hafter
      obtain ⟨rfl, rfl⟩ := List.cons.inj hafter
      rw [cut_of_opensSymbol (by simpa using hopens)]
      simp only [cutSymbol, show pairToken? d e = some t from htoken]
      exact ⟨t, rfl, Nat.le_refl _⟩

/-- Where a numeral stands in front, no less than the numeral is cut off. -/
theorem longest_of_numeral (hnumeral : IsNumeral more) (hbegins : more <+: c :: cs) :
    ∃ u, (cut c cs).lexeme = .token u ∧ more.length ≤ (cut c cs).taken.length := by
  obtain ⟨after, hafter⟩ := hbegins
  cases hnumeral with
  | @whole d ds hd hds =>
      rw [List.cons_append] at hafter
      obtain ⟨rfl, rfl⟩ := List.cons.inj hafter
      rw [cut_of_isDigit hd]
      refine ⟨_, rfl, ?_⟩
      simp only [cutNumber, List.takeWhile_append_of_pos hds, List.length_cons, List.length_append]
      omega
  | @fraction d e ds es hd hds he hes =>
      rw [List.cons_append, List.cons_append, List.append_assoc] at hafter
      obtain ⟨rfl, rfl⟩ := List.cons.inj hafter
      have hpoint : ¬ '.'.isDigit := by decide
      rw [cut_of_isDigit hd]
      refine ⟨_, rfl, ?_⟩
      simp only [cutNumber, List.takeWhile_append_of_pos hds, List.dropWhile_append_of_pos hds,
        List.cons_append, List.takeWhile_cons_of_neg hpoint, List.dropWhile_cons_of_neg hpoint,
        splitFraction, he, if_true, List.takeWhile_append_of_pos hes, List.length_cons,
        List.length_append, List.length_nil]
      omega

/-- Where a closed quotation stands in front, no less than the quotation is cut off. -/
theorem longest_of_quoted {q : Char} {body : List Char} (hquote : q = '"' ∨ q = '\x27')
    (hclosed : q ∉ body) (hsingle : '\n' ∉ body) (hbegins : q :: (body ++ [q]) <+: c :: cs) :
    ∃ u, (cut c cs).lexeme = .token u ∧ (q :: (body ++ [q])).length ≤ (cut c cs).taken.length := by
  obtain ⟨after, hafter⟩ := hbegins
  rw [List.cons_append, List.append_assoc, List.singleton_append] at hafter
  obtain ⟨rfl, rfl⟩ := List.cons.inj hafter
  have hbody : ∀ d ∈ body, (!endsQuote q d) = true := by
    intro d hd
    have hne : d ≠ q ∧ d ≠ '\n' := ⟨fun heq => hclosed (heq ▸ hd), fun heq => hsingle (heq ▸ hd)⟩
    simp [endsQuote, hne]
  have htake : (body ++ q :: after).takeWhile (fun d => !endsQuote q d) = body := by
    rw [List.takeWhile_append_of_pos hbody]
    simp [endsQuote]
  have hdrop : (body ++ q :: after).dropWhile (fun d => !endsQuote q d) = q :: after := by
    rw [List.dropWhile_append_of_pos hbody]
    simp [endsQuote]
  rw [cut_of_isQuote hquote]
  simp only [cutQuote, htake, hdrop, if_true]
  exact ⟨_, rfl, Nat.le_refl _⟩

/-- Where a rule matches, a token is cut off that is no shorter. -/
theorem cut_longest (h : Matches more t) (hbegins : more <+: c :: cs) :
    ∃ u, (cut c cs).lexeme = .token u ∧ more.length ≤ (cut c cs).taken.length := by
  cases h with
  | spelled hmem =>
      rcases keyword_or_symbol _ hmem with ⟨hname, -⟩ | ⟨hopens, htoken⟩
      · exact longest_of_name hname hbegins
      · exact longest_of_symbol hopens htoken hbegins
  | number hnumeral => exact longest_of_numeral hnumeral hbegins
  | string hquote hclosed hsingle => exact longest_of_quoted hquote hclosed hsingle hbegins
  | name hname => exact longest_of_name hname hbegins

end Cut

/-! ### A token by itself -/

theorem IsNumeral.isDigit {c : Char} {cs : List Char} (h : IsNumeral (c :: cs)) :
    c.isDigit = true := by
  generalize htext : c :: cs = text at h
  cases h with
  | whole hd => exact (List.cons.inj htext).1 ▸ hd
  | fraction hd => exact (List.cons.inj htext).1 ▸ hd

/-- No text is both a numeral and a name. -/
theorem IsNumeral.not_isName {text : List Char} (h : IsNumeral text) : ¬ isName text = true := by
  cases h with
  | whole hc | fraction hc =>
      rw [Bool.not_eq_true]
      exact Bool.and_eq_false_imp.mpr fun hstart => by
        rw [isNameStart_of_isDigit hc] at hstart
        cases hstart

/-- What a text begins with tells the rules apart that are not about spellings. -/
theorem IsToken.unique {text : List Char} {t u : Token} (h : IsToken text t)
    (hother : IsToken text u) : t = u := by
  obtain ⟨hmatched, hfirst⟩ := h
  obtain ⟨hmatched', hfirst'⟩ := hother
  cases hmatched with
  | spelled hmem => exact hfirst' t hmem
  | @number _ x hnumeral hread =>
      cases hmatched' with
      | spelled hmem => exact (hfirst u hmem).symm
      | number _ hread' => rw [Option.some.inj (hread.symm.trans hread')]
      | string hquote =>
          have hdigit := hnumeral.isDigit
          rcases hquote with rfl | rfl <;> exact absurd hdigit (by decide)
      | name hname => exact absurd hname hnumeral.not_isName
  | @string q body hquote =>
      generalize htext : q :: (body ++ [q]) = text at hmatched' hfirst
      cases hmatched' with
      | spelled hmem => exact (hfirst u hmem).symm
      | number hnumeral =>
          have hdigit := (htext ▸ hnumeral).isDigit
          rcases hquote with rfl | rfl <;> exact absurd hdigit (by decide)
      | string =>
          obtain ⟨rfl, hbody⟩ := List.cons.inj htext
          rw [List.append_cancel_right hbody]
      | name hname =>
          rw [← htext, isName, Bool.and_eq_true] at hname
          rcases hquote with rfl | rfl <;> exact absurd hname.1 (by decide)
  | name hname =>
      cases hmatched' with
      | spelled hmem => exact (hfirst u hmem).symm
      | number hnumeral => exact absurd hname hnumeral.not_isName
      | string hquote =>
          rw [isName, Bool.and_eq_true] at hname
          rcases hquote with rfl | rfl <;> exact absurd hname.1 (by decide)
      | name => rfl

/-- The text of a token is cut again from nothing but itself. -/
theorem cut_alone {c : Char} {cs : List Char} {t : Token} (h : (cut c cs).lexeme = .token t) :
    ∃ text, (cut c cs).taken = c :: text ∧ cut c text = ⟨.token t, c :: text, []⟩ := by
  obtain ⟨text, htext⟩ : ∃ text, (cut c cs).taken = c :: text := by
    have hparts := cut_taken_append_rest c cs
    cases htaken : (cut c cs).taken with
    | nil => exact absurd htaken (cut_taken_ne_nil c cs)
    | cons d text =>
        rw [htaken, List.cons_append] at hparts
        exact ⟨text, by rw [(List.cons.inj hparts).1]⟩
  have htoken : IsToken (c :: text) t := htext ▸ isToken_cut h
  obtain ⟨u, hu, hlength⟩ := cut_longest htoken.matched (List.prefix_refl (c :: text))
  have hparts := cut_taken_append_rest c text
  -- What is cut off the text is all of it, and so the one token that it is.
  have hrest : (cut c text).rest = [] := by
    have hsum := congrArg List.length hparts
    rw [List.length_append] at hsum
    exact List.length_eq_zero_iff.mp (by omega)
  rw [hrest, List.append_nil] at hparts
  have hsame : u = t := IsToken.unique (hparts ▸ isToken_cut hu) htoken
  refine ⟨text, htext, ?_⟩
  calc
    cut c text = ⟨(cut c text).lexeme, (cut c text).taken, (cut c text).rest⟩ := rfl
    _ = ⟨.token t, c :: text, []⟩ := by rw [hu, hsame, hparts, hrest]

end Lexer

end Parley
