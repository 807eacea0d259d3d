import Mathlib.Tactic.MkIffOfInductiveProp
import Parley.Proofs.Text.Blank
import Parley.Script.Nesting
import Parley.Text.Split

/-!
# Cutting at top level

A piece of inline code is a text that a cut at top level leaves whole and that leaves nothing
open behind it. Pieces that are joined with the separator come apart again, and balanced text is
part of one piece wherever it stands between parentheses.
-/

namespace Parley.Nesting

/-- At top level there is only one nesting. -/
theorem eq_of_isTop {n : Nesting} (h : n.isTop = true) : n = {} := by
  obtain ⟨depth, quote⟩ := n
  simp only [isTop, Bool.and_eq_true, beq_iff_eq, Option.isNone_iff_eq_none] at h
  rw [h.1, h.2]

/-- The character leaves the nesting at top level as it is. -/
def isInert (c : Char) : Bool :=
  c != '"' && c != '\x27' && c != '(' && c != ')'

/-- At top level, a character that is no quote and no parenthesis changes nothing. -/
theorem advance_inert {c : Char} (h : isInert c = true) : advance {} c = {} := by
  simp only [isInert, Bool.and_eq_true, bne_iff_ne] at h
  simp [advance, h.1.1.1, h.1.1.2, h.1.2, h.2]

/-! ### Steps of the scan -/

theorem after_cons (n : Nesting) (c : Char) (cs : List Char) :
    n.after (c :: cs) = (n.advance c).after cs :=
  rfl

theorem advance_opening {q : Char} (hq : q = '"' ∨ q = '\x27') (d : Int) :
    advance ⟨d, none⟩ q = ⟨d, some q⟩ :=
  if_pos hq

theorem advance_closing (q : Char) (d : Int) : advance ⟨d, some q⟩ q = ⟨d, none⟩ :=
  if_pos rfl

/-- Within a quote nothing but the same quote counts. -/
theorem advance_quoted {c q : Char} (h : c ≠ q) (d : Int) :
    advance ⟨d, some q⟩ c = ⟨d, some q⟩ :=
  if_neg h

/-! ### Texts that are not cut -/

theorem split_ne_nil (sep : Char) (n : Nesting) (cs : List Char) : split sep n cs ≠ [] := by
  cases cs with
  | nil => simp [split]
  | cons c cs => unfold split; split <;> (try split) <;> simp

/-- A cut leaves the text in one piece. -/
def Whole (sep : Char) (n : Nesting) (cs : List Char) : Prop :=
  split sep n cs = [cs]

theorem whole_nil (sep : Char) (n : Nesting) : Whole sep n [] := rfl

/-- A text is whole where its first character does not cut it and the rest is whole behind that. -/
theorem whole_cons_iff {sep c : Char} {n : Nesting} {cs : List Char} :
    Whole sep n (c :: cs) ↔ ¬ (c = sep ∧ n.isTop = true) ∧ Whole sep (n.advance c) cs := by
  unfold Whole
  rw [split]
  by_cases hcut : c = sep ∧ n.isTop = true
  · simp [hcut]
  · rw [if_neg hcut]
    cases hpieces : split sep (n.advance c) cs with
    | nil => exact absurd hpieces (split_ne_nil sep _ cs)
    | cons piece pieces => simp [hcut]

theorem Whole.append {sep : Char} {n : Nesting} {as bs : List Char} (ha : Whole sep n as)
    (hb : Whole sep (n.after as) bs) : Whole sep n (as ++ bs) := by
  induction as generalizing n with
  | nil => exact hb
  | cons c as ih =>
      rw [whole_cons_iff] at ha
      rw [List.cons_append, whole_cons_iff]
      exact ⟨ha.1, ih ha.2 hb⟩

/-- A separator behind a whole text that ends at top level is where it is cut. -/
theorem Whole.split_append {sep : Char} {n : Nesting} {as : List Char} (h : Whole sep n as)
    (htop : (n.after as).isTop = true) (bs : List Char) :
    split sep n (as ++ sep :: bs) = as :: split sep (n.after as) bs := by
  induction as generalizing n with
  | nil => exact if_pos ⟨rfl, htop⟩
  | cons c as ih =>
      rw [whole_cons_iff] at h
      rw [List.cons_append, split, if_neg h.1, ih h.2 htop]
      rfl

/-! ### Pieces -/

/-- A text that is not cut at `sep` and leaves nothing open. -/
@[mk_iff]
structure IsPiece (sep : Char) (cs : List Char) : Prop where
  whole : splitTopLevel sep cs = [cs]
  closed : (after {} cs).isTop = true

instance (sep : Char) (cs : List Char) : Decidable (IsPiece sep cs) :=
  decidable_of_iff' _ (isPiece_iff sep cs)

theorem IsPiece.after_eq {sep : Char} {cs : List Char} (h : IsPiece sep cs) : after {} cs = {} :=
  eq_of_isTop h.closed

theorem isPiece_nil (sep : Char) : IsPiece sep [] := ⟨rfl, rfl⟩

/-- Pieces one behind the other are one piece. -/
theorem IsPiece.append {sep : Char} {as bs : List Char} (ha : IsPiece sep as)
    (hb : IsPiece sep bs) : IsPiece sep (as ++ bs) := by
  constructor
  · apply Whole.append ha.whole
    rw [ha.after_eq]
    exact hb.whole
  · rw [after_append, ha.after_eq]
    exact hb.closed

/-- A text with no quotes, parentheses or separators in it is a piece. -/
theorem isPiece_of_inert {sep : Char} {cs : List Char}
    (h : ∀ c ∈ cs, isInert c = true ∧ c ≠ sep) : IsPiece sep cs := by
  induction cs with
  | nil => exact isPiece_nil sep
  | cons c cs ih =>
      have hrest := ih fun d hd => h d (List.mem_cons_of_mem c hd)
      obtain ⟨hinert, hsep⟩ := h c List.mem_cons_self
      constructor
      · refine whole_cons_iff.mpr ⟨fun hcut => hsep hcut.1, ?_⟩
        rw [advance_inert hinert]
        exact hrest.whole
      · rw [after_cons, advance_inert hinert]
        exact hrest.closed

/-- A piece in front of a separator is cut off whole. -/
theorem IsPiece.split_append {sep : Char} {as : List Char} (h : IsPiece sep as)
    (bs : List Char) : splitTopLevel sep (as ++ sep :: bs) = as :: splitTopLevel sep bs := by
  change split sep {} (as ++ sep :: bs) = as :: split sep {} bs
  rw [Whole.split_append h.whole h.closed, h.after_eq]

/-- Texts that are not cut come apart again. The last of them may leave something open. -/
theorem splitTopLevel_joinWith_of_closed {sep : Char} {pieces : List (List Char)}
    (hne : pieces ≠ []) (hwhole : ∀ piece ∈ pieces, Whole sep {} piece)
    (hclosed : ∀ piece ∈ pieces.dropLast, (after {} piece).isTop = true) :
    splitTopLevel sep (Text.joinWith [sep] pieces) = pieces := by
  unfold Text.joinWith
  induction pieces with
  | nil => exact absurd rfl hne
  | cons first rest ih =>
      obtain ⟨hfirst, hrest⟩ := List.forall_mem_cons.mp hwhole
      cases rest with
      | nil =>
          rw [List.intercalate_singleton]
          exact hfirst
      | cons second rest =>
          obtain ⟨htop, htops⟩ := List.forall_mem_cons.mp hclosed
          rw [List.intercalate_cons_cons, List.append_assoc, List.singleton_append,
            (IsPiece.mk hfirst htop).split_append, ih (List.cons_ne_nil _ _) hrest htops]

/-- Pieces that are joined by the separator are what the text is cut into. -/
theorem splitTopLevel_joinWith {sep : Char} {pieces : List (List Char)} (hne : pieces ≠ [])
    (h : ∀ piece ∈ pieces, IsPiece sep piece) :
    splitTopLevel sep (Text.joinWith [sep] pieces) = pieces :=
  splitTopLevel_joinWith_of_closed hne (fun piece hp => (h piece hp).whole)
    fun piece hp => (h piece (List.dropLast_subset _ hp)).closed

/-! ### Balanced text -/

theorem isTop_after_of_balancedFrom {n : Nesting} {cs : List Char}
    (h : balancedFrom n cs = true) : (n.after cs).isTop = true := by
  induction cs generalizing n with
  | nil => exact h
  | cons c cs ih =>
      rw [balancedFrom, Bool.and_eq_true] at h
      exact ih h.2

/-- Balanced texts one behind the other are balanced. -/
theorem balancedFrom_append {n : Nesting} {as bs : List Char} (ha : balancedFrom n as = true)
    (hb : balanced bs = true) : balancedFrom n (as ++ bs) = true := by
  induction as generalizing n with
  | nil =>
      rw [balancedFrom] at ha
      rw [List.nil_append, eq_of_isTop ha]
      exact hb
  | cons c as ih =>
      rw [balancedFrom, Bool.and_eq_true] at ha
      rw [List.cons_append, balancedFrom, Bool.and_eq_true]
      exact ⟨ha.1, ih ha.2⟩

/-- Balanced texts joined by a balanced one are balanced. -/
theorem balanced_joinWith {sep : List Char} (hsep : balanced sep = true)
    {pieces : List (List Char)} (h : ∀ piece ∈ pieces, balanced piece = true) :
    balanced (Text.joinWith sep pieces) = true := by
  unfold Text.joinWith
  induction pieces with
  | nil => rfl
  | cons first rest ih =>
      have hfirst := h first List.mem_cons_self
      have hrest := ih fun piece hp => h piece (List.mem_cons_of_mem _ hp)
      cases rest with
      | nil => rwa [List.intercalate_singleton]
      | cons second rest =>
          rw [List.intercalate_cons_cons, List.append_assoc]
          exact balancedFrom_append hfirst (balancedFrom_append hsep hrest)

/-- The same place within one more pair of parentheses. -/
def inside (n : Nesting) : Nesting :=
  { n with depth := n.depth + 1 }

/-- Inside one more pair of parentheses the scan takes the same step. -/
theorem advance_inside (n : Nesting) (c : Char) : n.inside.advance c = (n.advance c).inside := by
  obtain ⟨depth, quote⟩ := n
  cases quote with
  | some q =>
      simp only [advance, inside]
      split <;> rfl
  | none =>
      simp only [advance, inside]
      split
      · rfl
      · split
        · rfl
        · split
          · simp only [Nesting.mk.injEq, and_true]
            omega
          · rfl

theorem after_inside (n : Nesting) (cs : List Char) : n.inside.after cs = (n.after cs).inside := by
  induction cs generalizing n with
  | nil => rfl
  | cons c cs ih => rw [after_cons, after_cons, advance_inside, ih]

/-- Between parentheses nothing of a balanced text is at top level. -/
theorem whole_inside {n : Nesting} {cs : List Char} (hn : 0 ≤ n.depth)
    (h : balancedFrom n cs = true) (sep : Char) : Whole sep n.inside cs := by
  induction cs generalizing n with
  | nil => exact whole_nil sep _
  | cons c cs ih =>
      rw [balancedFrom, Bool.and_eq_true, decide_eq_true_eq] at h
      refine whole_cons_iff.mpr ⟨?_, ?_⟩
      · rintro ⟨-, htop⟩
        simp only [isTop, inside, Bool.and_eq_true, beq_iff_eq] at htop
        omega
      · rw [advance_inside]
        exact ih h.1 h.2

/-- A balanced text between parentheses is a piece, whatever separators are in it. -/
theorem isPiece_parenthesised {sep : Char} (hopen : '(' ≠ sep) (hclose : ')' ≠ sep)
    {cs : List Char} (h : balanced cs = true) : IsPiece sep ('(' :: (cs ++ [')'])) := by
  have hinside : advance {} '(' = inside {} := rfl
  have hafter : (inside {}).after cs = inside {} := by
    rw [after_inside, eq_of_isTop (isTop_after_of_balancedFrom h)]
  constructor
  · refine whole_cons_iff.mpr ⟨fun hcut => hopen hcut.1, ?_⟩
    rw [hinside]
    apply (whole_inside (Int.le_refl 0) h sep).append
    rw [hafter]
    exact whole_cons_iff.mpr ⟨fun hcut => hclose hcut.1, whole_nil sep _⟩
  · rw [after_cons, hinside, after_append, hafter]
    rfl

/-! ### Texts cut short -/

/-- A text is whole where both its parts are, the second from where the first leaves off. -/
theorem whole_append_iff {sep : Char} {n : Nesting} {as bs : List Char} :
    Whole sep n (as ++ bs) ↔ Whole sep n as ∧ Whole sep (n.after as) bs := by
  induction as generalizing n with
  | nil => exact ⟨fun h => ⟨whole_nil sep n, h⟩, fun h => h.2⟩
  | cons c as ih => rw [List.cons_append, whole_cons_iff, whole_cons_iff, ih, and_assoc]; rfl

theorem balancedFrom_append_iff {n : Nesting} {as bs : List Char}
    (htop : (n.after as).isTop = true) :
    balancedFrom n (as ++ bs) = true ↔
      balancedFrom n as = true ∧ balancedFrom (n.after as) bs = true := by
  induction as generalizing n with
  | nil => exact ⟨fun h => ⟨htop, h⟩, fun h => h.2⟩
  | cons c as ih =>
      rw [List.cons_append, balancedFrom, balancedFrom, Bool.and_eq_true, Bool.and_eq_true,
        ih htop, and_assoc]
      rfl

/-- Only quotes are ever open as quotes. -/
def Sound (n : Nesting) : Prop :=
  ∀ q ∈ n.quote, isInert q = false

/-- The scan comes to sound nestings only. -/
theorem sound_advance {n : Nesting} (h : n.Sound) (c : Char) : (n.advance c).Sound := by
  obtain ⟨depth, quote⟩ := n
  cases quote with
  | some q =>
      simp only [advance]
      split
      · exact fun q hq => absurd hq (Option.not_mem_none q)
      · exact h
  | none =>
      simp only [advance]
      split
      · next hquote =>
          intro q hq
          rw [← Option.mem_some.mp hq]
          rcases hquote with rfl | rfl <;> rfl
      · split
        · exact h
        · split <;> exact h

theorem sound_after {n : Nesting} (h : n.Sound) (cs : List Char) : (n.after cs).Sound := by
  induction cs generalizing n with
  | nil => exact h
  | cons c cs ih => exact ih (sound_advance h c)

theorem sound_start (cs : List Char) : (after {} cs).Sound :=
  sound_after (fun q hq => absurd hq (Option.not_mem_none q)) cs

theorem advance_eq_self {n : Nesting} (hn : n.Sound) {c : Char} (hc : isInert c = true) :
    n.advance c = n := by
  obtain ⟨depth, quote⟩ := n
  cases quote with
  | some q =>
      have hne : c ≠ q := by
        rintro rfl
        exact absurd hc (by simp [hn c rfl])
      simp [advance, hne]
  | none =>
      simp only [isInert, Bool.and_eq_true, bne_iff_ne] at hc
      simp [advance, hc.1.1.1, hc.1.1.2, hc.1.2, hc.2]

theorem after_eq_self {n : Nesting} (hn : n.Sound) {cs : List Char}
    (h : ∀ c ∈ cs, isInert c = true) : n.after cs = n := by
  induction cs with
  | nil => rfl
  | cons c cs ih =>
      rw [after_cons, advance_eq_self hn (h c List.mem_cons_self)]
      exact ih fun d hd => h d (List.mem_cons_of_mem c hd)

theorem isInert_of_isBlank {c : Char} (h : Text.isBlank c = true) : isInert c = true := by
  have hne : ∀ {d}, Text.isBlank d = false → c ≠ d := by
    rintro d hd rfl
    rw [h] at hd
    contradiction
  simp [isInert, hne (by decide : Text.isBlank '"' = false),
    hne (by decide : Text.isBlank '\x27' = false), hne (by decide : Text.isBlank '(' = false),
    hne (by decide : Text.isBlank ')' = false)]

/-- The blanks at both ends of a text make no difference. -/
theorem exists_eq_append_trim (cs : List Char) :
    ∃ lead trail, cs = lead ++ (Text.trim cs ++ trail) ∧ after {} lead = {} ∧
      after {} (Text.trim cs) = after {} cs ∧ ∀ c ∈ trail, isInert c = true := by
  obtain ⟨lead, trail, hcs, hlead, htrail⟩ := Text.exists_eq_append_trim cs
  have hlead' : after {} lead = {} :=
    after_eq_self (sound_start []) fun c hc => isInert_of_isBlank (hlead c hc)
  have htrail' : ∀ c ∈ trail, isInert c = true := fun c hc => isInert_of_isBlank (htrail c hc)
  refine ⟨lead, trail, hcs, hlead', ?_, htrail'⟩
  have hafter := after_append {} lead (Text.trim cs ++ trail)
  rwa [← hcs, hlead', after_append, after_eq_self (sound_start _) htrail', eq_comm] at hafter

/-- A text that is not cut is not cut when it is trimmed. -/
theorem whole_trim {sep : Char} {cs : List Char} (h : Whole sep {} cs) :
    Whole sep {} (Text.trim cs) := by
  obtain ⟨lead, trail, hcs, hlead, -, -⟩ := exists_eq_append_trim cs
  rw [hcs, whole_append_iff, hlead, whole_append_iff] at h
  exact h.2.1

/-- A piece is still one when it is trimmed. -/
theorem IsPiece.trim {sep : Char} {cs : List Char} (h : IsPiece sep cs) :
    IsPiece sep (Text.trim cs) := by
  obtain ⟨-, -, -, -, hafter, -⟩ := exists_eq_append_trim cs
  refine ⟨whole_trim h.whole, ?_⟩
  rw [hafter]
  exact h.closed

/-- A balanced text is still balanced when it is trimmed. -/
theorem balanced_trim {cs : List Char} (h : balanced cs = true) :
    balanced (Text.trim cs) = true := by
  obtain ⟨lead, trail, hcs, hlead, hafter, -⟩ := exists_eq_append_trim cs
  have htop : (after {} (Text.trim cs)).isTop = true := by
    rw [hafter]
    exact isTop_after_of_balancedFrom h
  rw [balanced, hcs, balancedFrom_append_iff (by rw [hlead]; rfl), hlead,
    balancedFrom_append_iff htop] at h
  exact h.2.1

theorem IsPiece.of_append {sep : Char} {as bs : List Char} (h : IsPiece sep (as ++ bs))
    (ha : after {} as = {}) : IsPiece sep bs := by
  have hwhole : Whole sep {} (as ++ bs) := h.whole
  have hclosed := h.closed
  rw [whole_append_iff, ha] at hwhole
  rw [after_append, ha] at hclosed
  exact ⟨hwhole.2, hclosed⟩

/-! ### What a cut makes of a text -/

/-- The pieces that a text falls into: all but the last end where nothing is open, in front of a
separator. -/
inductive Cut (sep : Char) : Nesting → List Char → List (List Char) → Prop where
  | last {n : Nesting} {cs : List Char} : Whole sep n cs → Cut sep n cs [cs]
  | cut {n : Nesting} {first cs : List Char} {pieces : List (List Char)} : Whole sep n first →
      (n.after first).isTop = true → Cut sep {} cs pieces →
      Cut sep n (first ++ sep :: cs) (first :: pieces)

namespace Cut

variable {sep : Char} {n : Nesting} {cs : List Char} {pieces : List (List Char)}

theorem cons {c : Char} (hc : ¬ (c = sep ∧ n.isTop = true)) (h : Cut sep (n.advance c) cs pieces) :
    ∃ piece rest, pieces = piece :: rest ∧ Cut sep n (c :: cs) ((c :: piece) :: rest) := by
  cases h with
  | last hwhole => exact ⟨cs, [], rfl, .last (whole_cons_iff.mpr ⟨hc, hwhole⟩)⟩
  | @cut _ first below rest hwhole hclosed hrest =>
      exact ⟨first, rest, rfl, .cut (whole_cons_iff.mpr ⟨hc, hwhole⟩) hclosed hrest⟩

/-- What the scan cuts a text into is a cut of the text. -/
theorem of_split (sep : Char) (n : Nesting) (cs : List Char) :
    Cut sep n cs (split sep n cs) := by
  induction cs generalizing n with
  | nil => exact .last (whole_nil sep n)
  | cons c cs ih =>
      rw [split]
      by_cases hcut : c = sep ∧ n.isTop = true
      · rw [if_pos hcut, hcut.1, eq_of_isTop hcut.2]
        exact .cut (whole_nil sep {}) rfl (ih {})
      · rw [if_neg hcut]
        obtain ⟨piece, rest, hpieces, hcons⟩ := (ih (n.advance c)).cons hcut
        rw [hpieces]
        exact hcons

/-- Every piece is a stretch of the text. -/
theorem infix_of_mem (h : Cut sep n cs pieces) : ∀ piece ∈ pieces, piece <:+: cs := by
  induction h with
  | last _ => exact List.forall_mem_singleton.mpr List.infix_rfl
  | @cut _ first cs _ _ _ _ ih =>
      refine List.forall_mem_cons.mpr ⟨(List.prefix_append first (sep :: cs)).isInfix, ?_⟩
      intro piece hp
      exact (ih piece hp).trans ⟨first ++ [sep], [], by simp⟩

theorem ne_nil (h : Cut sep n cs pieces) : pieces ≠ [] := by
  cases h <;> exact List.cons_ne_nil _ _

/-- Nothing is lost but the separators. -/
theorem joinWith_eq (h : Cut sep n cs pieces) : Text.joinWith [sep] pieces = cs := by
  unfold Text.joinWith
  induction h with
  | last _ => exact List.intercalate_singleton
  | cut _ _ hrest ih =>
      rw [List.intercalate_cons_of_ne_nil hrest.ne_nil, ih, List.append_assoc]
      rfl

/-- A cut that begins at top level begins there with every piece. -/
@[elab_as_elim]
theorem top_induction {motive : List Char → List (List Char) → Prop} (h : Cut sep {} cs pieces)
    (last : ∀ cs, Whole sep {} cs → motive cs [cs])
    (cut : ∀ first cs pieces, IsPiece sep first → motive cs pieces →
      motive (first ++ sep :: cs) (first :: pieces)) : motive cs pieces := by
  generalize hn : ({} : Nesting) = n at h
  induction h with
  | last hwhole =>
      subst hn
      exact last _ hwhole
  | cut hwhole hclosed _ ih =>
      subst hn
      exact cut _ _ _ ⟨hwhole, hclosed⟩ (ih rfl)

/-- No piece is cut again. -/
theorem whole_of_mem (h : Cut sep {} cs pieces) : ∀ piece ∈ pieces, Whole sep {} piece := by
  refine h.top_induction (fun cs hwhole => ?_) fun first cs pieces hfirst ih => ?_
  · exact List.forall_mem_singleton.mpr hwhole
  · exact List.forall_mem_cons.mpr ⟨hfirst.whole, ih⟩

/-- Every piece but the last is one by itself. -/
theorem isPiece_of_mem_dropLast (h : Cut sep {} cs pieces) :
    ∀ piece ∈ pieces.dropLast, IsPiece sep piece := by
  refine h.top_induction (fun _ _ => List.forall_mem_nil _) fun first cs pieces hfirst ih => ?_
  cases pieces with
  | nil => exact List.forall_mem_nil _
  | cons second rest => exact List.forall_mem_cons.mpr ⟨hfirst, ih⟩

/-- A cut of a balanced text at a separator has balanced pieces only. -/
theorem balanced_of_mem (h : Cut sep {} cs pieces) (hsep : isInert sep = true)
    (hcs : balanced cs = true) : ∀ piece ∈ pieces, balanced piece = true := by
  revert hcs
  refine h.top_induction (fun cs _ hcs => ?_) fun first cs pieces hfirst ih hcs => ?_
  · exact List.forall_mem_singleton.mpr hcs
  · rw [balanced, balancedFrom_append_iff hfirst.closed, hfirst.after_eq, balancedFrom,
      advance_inert hsep, Bool.and_eq_true] at hcs
    exact List.forall_mem_cons.mpr ⟨hcs.1, ih hcs.2.2⟩

end Cut

end Parley.Nesting
