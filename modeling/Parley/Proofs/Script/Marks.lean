import Parley.Proofs.Text.Split
import Parley.Script.Comment

/-!
# Comments, mark by mark

Which mark is looked for depends on whether a comment is open. Where it begins a text, the search
goes on behind it for the other one; where it does not, the first character is kept or lost on its
own. This is all there is to say of cutting comments out: the other facts about `cut` are proved by
induction on these two steps.
-/

namespace Parley.Comment

/-- The mark that is looked for: outside of comments one that opens a comment, and inside of one
the mark that closes it. -/
def mark : (inside : Bool) → List Char
  | false => ['/', '*']
  | true => ['*', '/']

theorem mark_ne_nil (inside : Bool) : mark inside ≠ [] := by
  cases inside <;> exact List.cons_ne_nil _ _

theorem length_mark (inside : Bool) : (mark inside).length = 2 := by
  cases inside <;> rfl

variable {inside : Bool} {c : Char} {cs before rest : List Char}

/-! ### The two steps -/

theorem cut_mark (inside : Bool) (cs : List Char) :
    cut inside (mark inside ++ cs) = { cut (!inside) cs with met := true } := by
  cases inside <;> rfl

/-- A text that begins in a comment has met one. -/
theorem met_cut_true (cs : List Char) : (cut true cs).met = true := by
  unfold cut
  split <;> simp_all

theorem with_met_cut_true (cs : List Char) : { cut true cs with met := true } = cut true cs := by
  have hmet := met_cut_true cs
  generalize cut true cs = remains at hmet ⊢
  obtain ⟨kept, met, inside⟩ := remains
  cases hmet
  rfl

theorem cut_cons (h : ¬ mark inside <+: c :: cs) :
    cut inside (c :: cs) =
      { cut inside cs with
        kept := (if inside then [] else [c]) ++ (cut inside cs).kept
        met := inside || (cut inside cs).met } := by
  cases inside with
  | false =>
      rw [cut]
      · rfl
      · rintro rest rfl rfl
        exact h (List.prefix_append _ _)
  | true =>
      rw [cut]
      · rfl
      · rintro rest rfl rfl
        exact h (List.prefix_append _ _)

/-- A text is empty, begins with the mark that is looked for, or begins otherwise. -/
@[elab_as_elim]
theorem cut_induction {motive : Bool → List Char → Prop} (nil : ∀ inside, motive inside [])
    (mark : ∀ inside cs, motive (!inside) cs → motive inside (mark inside ++ cs))
    (cons : ∀ inside c cs, ¬ Comment.mark inside <+: c :: cs → motive inside cs →
      motive inside (c :: cs)) (inside : Bool) (cs : List Char) : motive inside cs := by
  induction inside, cs using cut.induct with
  | case1 inside => exact nil inside
  | case2 cs ih => exact mark false cs ih
  | case3 c cs hopen ih =>
      refine cons false c cs ?_ ih
      rintro ⟨rest, heq⟩
      obtain ⟨rfl, rfl⟩ := List.cons.inj heq
      exact hopen rest rfl rfl
  | case4 cs ih => exact mark true cs ih
  | case5 c cs hclose ih =>
      refine cons true c cs ?_ ih
      rintro ⟨rest, heq⟩
      obtain ⟨rfl, rfl⟩ := List.cons.inj heq
      exact hclose rest rfl rfl

/-! ### Parts of a text -/

/-- Without a mark in it a text is kept or lost as a whole. -/
theorem cut_unmarked (h : ¬ mark inside <:+: cs) :
    cut inside cs = ⟨if inside then [] else cs, inside, inside⟩ := by
  induction cs with
  | nil => cases inside <;> rfl
  | cons c cs ih =>
      obtain ⟨hfirst, hrest⟩ := not_or.mp (List.infix_cons_iff.not.mp h)
      rw [cut_cons hfirst, ih hrest]
      cases inside <;> rfl

/-- And so is the text in front of the first mark. -/
theorem cut_marked (h : ¬ mark inside <:+: before) (after : List Char) :
    cut inside (before ++ (mark inside ++ after)) =
      { cut (!inside) after with
        kept := (if inside then [] else before) ++ (cut (!inside) after).kept
        met := true } := by
  induction before with
  | nil =>
      rw [List.nil_append, cut_mark]
      cases inside <;> rfl
  | cons c before ih =>
      have hfirst : ¬ mark inside <+: c :: (before ++ (mark inside ++ after)) := by
        cases inside with
        | false => exact Text.pair_not_begins (by decide) h after
        | true => exact Text.pair_not_begins (by decide) h after
      obtain ⟨-, hrest⟩ := not_or.mp (List.infix_cons_iff.not.mp h)
      rw [List.cons_append, cut_cons hfirst, ih hrest]
      cases inside <;> simp

/-- No mark begins in front of a text that begins with neither of its characters. -/
theorem not_mark_append (hrest : ∀ d ∈ rest.head?, d ≠ '/' ∧ d ≠ '*')
    (h : ¬ mark inside <+: c :: cs) : ¬ mark inside <+: c :: (cs ++ rest) := by
  intro hbegins
  cases cs with
  | cons d cs =>
      refine h ?_
      cases inside <;> simpa [mark, List.cons_prefix_cons] using hbegins
  | nil =>
      cases rest with
      | nil => exact h hbegins
      | cons d rest =>
          obtain ⟨hslash, hstar⟩ := hrest d rfl
          cases inside <;> simp only [mark, List.nil_append, List.cons_prefix_cons] at hbegins
          · exact hstar hbegins.2.1.symm
          · exact hslash hbegins.2.1.symm

/-- A text may be cut in two in front of a character that is in no mark. -/
theorem cut_append (hrest : ∀ d ∈ rest.head?, d ≠ '/' ∧ d ≠ '*') (inside : Bool)
    (cs : List Char) :
    cut inside (cs ++ rest) =
      { kept := (cut inside cs).kept ++ (cut (cut inside cs).inside rest).kept
        met := (cut inside cs).met || (cut (cut inside cs).inside rest).met
        inside := (cut (cut inside cs).inside rest).inside } := by
  induction inside, cs using cut_induction with
  | nil inside =>
      cases inside with
      | false => rfl
      | true => exact (with_met_cut_true rest).symm
  | mark inside cs ih => simp [cut_mark, ih]
  | cons inside c cs h ih =>
      rw [List.cons_append, cut_cons (not_mark_append hrest h), cut_cons h, ih]
      simp [List.append_assoc, Bool.or_assoc]

theorem kept_subset (inside : Bool) (cs : List Char) : (cut inside cs).kept ⊆ cs := by
  induction inside, cs using cut_induction with
  | nil inside => exact List.Subset.refl []
  | mark inside cs ih =>
      rw [cut_mark]
      exact List.Subset.trans ih (List.subset_append_right (mark inside) cs)
  | cons inside c cs h ih =>
      rw [cut_cons h]
      cases inside with
      | false => exact List.cons_subset_cons c ih
      | true => exact List.Subset.trans ih (List.subset_cons_self c cs)

/-- A text that ends in a comment has met one. -/
theorem met_of_inside (h : (cut inside cs).inside = true) : (cut inside cs).met = true := by
  induction inside, cs using cut_induction with
  | nil inside => exact h
  | mark inside cs _ => rw [cut_mark]
  | cons inside c cs hfirst ih =>
      rw [cut_cons hfirst] at h ⊢
      simp [ih h]

/-- A text has met a comment if it begins inside one or has a mark in it that opens one. -/
theorem met_cut_iff : (cut inside cs).met = true ↔ inside = true ∨ mark false <:+: cs := by
  induction inside, cs using cut_induction with
  | nil inside => simp [cut, mark]
  | mark inside cs _ =>
      rw [cut_mark]
      cases inside with
      | false => simp [(List.prefix_append (Comment.mark false) cs).isInfix]
      | true => simp
  | cons inside c cs h ih =>
      rw [cut_cons h]
      cases inside with
      | false => simpa [List.infix_cons_iff, h] using ih
      | true => simp

end Parley.Comment
