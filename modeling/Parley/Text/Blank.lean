/-!
# Blanks and trimming

A blank is a character with the Unicode property `White_Space`. Trimming takes the blanks off
both ends of a text and nothing else.
-/

namespace Parley.Text

/-- The characters with the property `White_Space`, by their code points. -/
def isBlank (c : Char) : Bool :=
  let n := c.toNat
  (0x09 ≤ n && n ≤ 0x0D) || n == 0x20 || n == 0x85 || n == 0xA0 || n == 0x1680 ||
    (0x2000 ≤ n && n ≤ 0x200A) || n == 0x2028 || n == 0x2029 || n == 0x202F ||
    n == 0x205F || n == 0x3000

def allBlank (cs : List Char) : Bool :=
  cs.all isBlank

def trimStart (cs : List Char) : List Char :=
  cs.dropWhile isBlank

/-- The text without the blanks at its end. -/
def trimEnd : List Char → List Char
  | [] => []
  | c :: cs =>
      match trimEnd cs with
      | [] => if isBlank c then [] else [c]
      | d :: rest => c :: d :: rest

/-- The text without the blanks at both ends. Those within it stay as they are. -/
def trim (cs : List Char) : List Char :=
  trimEnd (trimStart cs)

/-- A text that begins and ends without a blank. The empty text is one. -/
def Trimmed (cs : List Char) : Prop :=
  (∀ c ∈ cs.head?, isBlank c = false) ∧ (∀ c ∈ cs.getLast?, isBlank c = false)

theorem trimEnd_eq_nil_iff (cs : List Char) : trimEnd cs = [] ↔ allBlank cs = true := by
  induction cs with
  | nil => simp [trimEnd, allBlank]
  | cons c cs ih =>
      simp only [allBlank, List.all_cons, Bool.and_eq_true] at ih ⊢
      rw [trimEnd]
      cases h : trimEnd cs with
      | nil =>
          have hall := ih.mp h
          by_cases hc : isBlank c = true <;> simp [hc, hall]
      | cons d rest =>
          have hne : ¬ cs.all isBlank = true := fun hall => by simp [ih.mpr hall] at h
          simp [hne]

theorem trimStart_cons (c : Char) (cs : List Char) :
    trimStart (c :: cs) = if isBlank c then trimStart cs else c :: cs := by
  rw [trimStart, List.dropWhile_cons]
  rfl

theorem trimStart_eq_nil_iff (cs : List Char) : trimStart cs = [] ↔ allBlank cs = true := by
  induction cs with
  | nil => simp [trimStart, allBlank]
  | cons c cs ih =>
      by_cases hc : isBlank c = true
      · rw [trimStart_cons, if_pos hc, ih]
        simp [allBlank, hc]
      · simp [trimStart_cons, allBlank, hc]

theorem trim_eq_nil_iff (cs : List Char) : trim cs = [] ↔ allBlank cs = true := by
  rw [trim, trimEnd_eq_nil_iff]
  induction cs with
  | nil => simp [trimStart, allBlank]
  | cons c cs ih =>
      by_cases hc : isBlank c = true
      · simpa [trimStart, allBlank, hc] using ih
      · simp [trimStart, allBlank, hc]

end Parley.Text
