import Parley.Expr.Lexer
import Parley.Text.Blank

/-!
# What the lexer makes of characters

Names hold no blank, and a blank is never part of a token outside of quotes: it is a gap, or stray.
-/

namespace Parley

namespace Lexer

open Text (isBlank allBlank)

/-! ### Names -/

theorem isNameChar_of_isNameStart {c : Char} (h : isNameStart c = true) : isNameChar c = true := by
  simp only [isNameStart, Bool.or_eq_true] at h
  simp only [isNameChar, Char.isAlphanum, Bool.or_eq_true]
  rcases h with h | h <;> simp [h]

theorem isNameChar_of_isDigit {c : Char} (h : c.isDigit = true) : isNameChar c = true := by
  simp [isNameChar, Char.isAlphanum, h]

theorem isNameChar_of_mem {name : List Char} (h : isName name = true) {c : Char}
    (hc : c ∈ name) : isNameChar c = true := by
  cases name with
  | nil => simp at hc
  | cons first rest =>
      simp only [isName, Bool.and_eq_true, List.all_eq_true] at h
      rcases List.mem_cons.mp hc with rfl | hrest
      · exact isNameChar_of_isNameStart h.1
      · exact h.2 c hrest

/-- Where the characters of a name lie: far from the blanks. -/
theorem toNat_of_isNameChar {c : Char} (h : isNameChar c = true) :
    46 ≤ c.toNat ∧ c.toNat ≤ 122 := by
  have between : ∀ low high : Char, 46 ≤ low.toNat → high.toNat ≤ 122 →
      low.val ≤ c.val ∧ c.val ≤ high.val → 46 ≤ c.toNat ∧ c.toNat ≤ 122 := by
    intro low high hlow hhigh hrange
    rw [UInt32.le_iff_toNat_le, UInt32.le_iff_toNat_le] at hrange
    exact ⟨Nat.le_trans hlow hrange.1, Nat.le_trans hrange.2 hhigh⟩
  change (((c.isUpper || c.isLower) || c.isDigit) || c == '_' || c == '.') = true at h
  simp only [Bool.or_eq_true, beq_iff_eq] at h
  rcases h with (((hupper | hlower) | hdigit) | rfl) | rfl
  · exact between 'A' 'Z' (by decide) (by decide) (of_decide_eq_true hupper)
  · change (decide ('a'.val ≤ c.val) && decide (c.val ≤ 'z'.val)) = true at hlower
    rw [Bool.and_eq_true, decide_eq_true_eq, decide_eq_true_eq] at hlower
    exact between 'a' 'z' (by decide) (by decide) hlower
  · change (decide ('0'.val ≤ c.val) && decide (c.val ≤ '9'.val)) = true at hdigit
    rw [Bool.and_eq_true, decide_eq_true_eq, decide_eq_true_eq] at hdigit
    exact between '0' '9' (by decide) (by decide) hdigit
  · decide
  · decide

/-- No name is touched by trimming. -/
theorem isBlank_of_isNameChar {c : Char} (h : isNameChar c = true) : Text.isBlank c = false := by
  obtain ⟨hlow, hhigh⟩ := toNat_of_isNameChar h
  simp only [Text.isBlank, Bool.or_eq_false_iff, Bool.and_eq_false_iff, decide_eq_false_iff_not,
    beq_eq_false_iff_ne]
  omega

/-! ### Blanks -/

theorem cutSymbol_of_isBlank {c : Char} (h : isBlank c = true) (cs : List Char) :
    cutSymbol c cs = ⟨.stray (String.ofList [c]), [c], cs⟩ := by
  have hne : ∀ {d}, isBlank d = false → c ≠ d := fun hd heq => by
    rw [← heq, h] at hd
    contradiction
  have hpair : ∀ d, pairToken? c d = none := by
    intro d
    unfold pairToken?
    split <;> first | rfl | exact absurd rfl (hne (by decide))
  have hchar : charToken? c = none := by
    unfold charToken?
    split <;> first | rfl | exact absurd rfl (hne (by decide))
  cases cs <;> simp [cutSymbol, cutChar, hpair, hchar]

/-- A blank the lexer is asked to cut is a stray one: gaps are passed over before. -/
theorem cut_of_isBlank {c : Char} (h : isBlank c = true) (cs : List Char) :
    cut c cs = ⟨.stray (String.ofList [c]), [c], cs⟩ := by
  have hnot : ∀ {p : Char → Bool}, (∀ {d}, p d = true → isBlank d = false) → ¬ p c = true :=
    fun hp hc => by
      rw [hp hc] at h
      contradiction
  have hstart := hnot fun {d} hd => isBlank_of_isNameChar (isNameChar_of_isNameStart (c := d) hd)
  have hdigit := hnot fun {d} hd => isBlank_of_isNameChar (isNameChar_of_isDigit (c := d) hd)
  have hquote : ¬ (c = '"' ∨ c = '\x27') := by
    rintro (rfl | rfl) <;> exact absurd h (by decide)
  rw [cut, if_neg hstart, if_neg hdigit, if_neg hquote, cutSymbol_of_isBlank h]

/-- A blank source has no tokens, though it may have stray blanks. -/
theorem tokens_of_allBlank {cs : List Char} (h : allBlank cs = true) (pos : Nat) :
    tokens (lexemesFrom pos cs) = [] := by
  induction cs generalizing pos with
  | nil => rw [lexemesFrom]; rfl
  | cons c cs ih =>
      rw [allBlank, List.all_cons, Bool.and_eq_true] at h
      rw [lexemesFrom, cut_of_isBlank h.1]
      split
      · exact ih h.2 _
      · exact ih h.2 _

end Lexer

end Parley
