/-
  NginxNettyHls.Text.Lines
  ────────────────────────
  **CUTTING A TEXT INTO LINES.**

  Two ways to end a line: by a separator of two symbols (`splitPair`, for CRLF
  and the like), or by any symbol of a class (`List.splitOnP`).  A writer
  that puts separators between its fields gets them back as lines exactly when
  no field brings a separator of its own:

    • `splitPair_append` — the cut after a field without the pair lands where the
      writer put it;
    • `not_pair_of_mem_splitPair` — no line contains the pair, so a field that
      does is never a line;
    • `length_splitOnP` — the number of lines is the number of separating symbols
      plus one, wherever they come from;
    • `mem_splitOnP` — a line begins at the beginning or behind a separator;
    • `induction_at` — what holds of a text without separators and is kept by one
      more line in front holds of every text.
-/
import Mathlib.Data.List.Infix
import Mathlib.Tactic.Common

namespace Text

variable {α : Type}

/-! ## §1. Fields without a pair. -/

/-- `a` directly followed by `b` somewhere in `l`. -/
def HasPair (a b : α) (l : List α) : Prop := [a, b] <:+: l

/-- A symbol other than `a` in front cannot complete a pair. -/
theorem hasPair_cons_iff {a b c : α} {l : List α} (hc : c ≠ a) :
    HasPair a b (c :: l) ↔ HasPair a b l := by
  unfold HasPair
  rw [List.infix_cons_iff]
  constructor
  · rintro (h | h)
    · obtain ⟨rest, hrest⟩ := h
      exact absurd (List.cons.inj hrest).1.symm hc
    · exact h
  · exact Or.inr

/-- Symbols other than `a` in front cannot complete a pair. -/
theorem hasPair_append_iff {a b : α} {l m : List α} (hl : a ∉ l) :
    HasPair a b (l ++ m) ↔ HasPair a b m := by
  induction l with
  | nil => rfl
  | cons c l ih =>
      rw [List.cons_append, hasPair_cons_iff (fun h => hl (by simp [h]))]
      exact ih (fun h => hl (List.mem_cons_of_mem c h))

/-- Without the first symbol of the pair there is no pair. -/
theorem not_hasPair_of_not_mem {a b : α} {l : List α} (hl : a ∉ l) : ¬ HasPair a b l := by
  intro h
  exact hl (h.subset (by simp))

theorem not_hasPair_tail {a b c : α} {l : List α} (h : ¬ HasPair a b (c :: l)) :
    ¬ HasPair a b l := by
  intro hl
  exact h (List.infix_cons_iff.mpr (Or.inr hl))

/-! ## §2. Cutting at a class of symbols. -/

/-- **From one separating symbol to the next.** -/
@[elab_as_elim]
theorem induction_at (p : α → Bool) {motive : List α → Prop} (l : List α)
    (line : ∀ l, (∀ c ∈ l, p c = false) → motive l)
    (cut : ∀ u c l, (∀ d ∈ u, p d = false) → p c = true → motive l → motive (u ++ c :: l)) :
    motive l := by
  have hlength : ∀ (n : Nat) (l : List α), l.length ≤ n → motive l := by
    intro n
    induction n with
    | zero =>
        intro l hl
        apply line
        rw [List.length_eq_zero_iff.mp (Nat.le_zero.mp hl)]
        exact fun c hc => absurd hc List.not_mem_nil
    | succ n ih =>
        intro l hl
        have hfront : ∀ d ∈ l.takeWhile (fun c => !p c), p d = false := by
          intro d hd
          have hall := List.all_eq_true.mp List.all_takeWhile d hd
          rwa [Bool.not_eq_true'] at hall
        have hl' : l.takeWhile (fun c => !p c) ++ l.dropWhile (fun c => !p c) = l :=
          List.takeWhile_append_dropWhile
        have hlen := congrArg List.length hl'
        cases hrest : l.dropWhile (fun c => !p c) with
        | nil =>
            rw [hrest, List.append_nil] at hl'
            rw [hl'] at hfront
            exact line l hfront
        | cons c rest =>
            have hhead := List.head?_dropWhile_not (fun c => !p c) l
            rw [hrest] at hhead
            have hc : p c = true := by simpa using hhead
            rw [hrest, List.length_append, List.length_cons] at hlen
            rw [← hl', hrest]
            exact cut _ c rest hfront hc (ih rest (by omega))
  exact hlength l.length l (Nat.le_refl _)

/-- What stands in front of the first cut stays in one piece. -/
theorem splitOnP_append_of_forall {p : α → Bool} {u : List α}
    (hu : ∀ c ∈ u, p c = false) (t : List α) :
    (u ++ t).splitOnP p = (t.splitOnP p).modifyHead (u ++ ·) := by
  induction u with
  | nil =>
      rw [List.nil_append]
      cases t.splitOnP p <;> rfl
  | cons c u ih =>
      have hc := hu c List.mem_cons_self
      rw [List.cons_append, List.splitOnP_cons_eq_if_modifyHead, hc,
        ih (fun d hd => hu d (List.mem_cons_of_mem c hd))]
      cases t.splitOnP p <;> rfl

/-- The first piece begins where the text does, every other one behind a separator. -/
theorem pieces_of_splitOnP (p : α → Bool) :
    ∀ (l q : List α) (qs : List (List α)), l.splitOnP p = q :: qs →
      (∃ post, l = q ++ post)
        ∧ ∀ piece ∈ qs, ∃ pre c post, p c = true ∧ l = pre ++ c :: (piece ++ post) := by
  intro l
  induction l with
  | nil =>
      intro q qs h
      rw [List.splitOnP_nil] at h
      obtain ⟨rfl, rfl⟩ := List.cons.inj h
      exact ⟨⟨[], rfl⟩, by simp⟩
  | cons c l ih =>
      intro q qs h
      rw [List.splitOnP_cons_eq_if_modifyHead] at h
      cases hs : l.splitOnP p with
      | nil => exact absurd hs (List.splitOnP_ne_nil p l)
      | cons q' qs' =>
          obtain ⟨⟨post, hpost⟩, hrest⟩ := ih q' qs' hs
          rw [hs] at h
          -- a piece behind the first one of `l`
          have hlater : ∀ piece ∈ qs', ∃ pre d post,
              p d = true ∧ c :: l = pre ++ d :: (piece ++ post) := by
            intro piece hpiece
            obtain ⟨pre, d, post, hd, hl⟩ := hrest piece hpiece
            exact ⟨c :: pre, d, post, hd, by rw [hl]; rfl⟩
          cases hc : p c with
          | true =>
              rw [hc, if_pos rfl] at h
              obtain ⟨rfl, rfl⟩ := List.cons.inj h
              refine ⟨⟨c :: l, rfl⟩, ?_⟩
              intro piece hpiece
              rcases List.mem_cons.mp hpiece with rfl | hpiece
              · exact ⟨[], c, post, hc, by rw [hpost]; rfl⟩
              · exact hlater piece hpiece
          | false =>
              rw [hc, if_neg (by simp), List.modifyHead_cons] at h
              obtain ⟨rfl, rfl⟩ := List.cons.inj h
              exact ⟨⟨post, by rw [hpost]; rfl⟩, hlater⟩

theorem mem_splitOnP {p : α → Bool} {l piece : List α} (h : piece ∈ l.splitOnP p) :
    ∃ pre post, l = pre ++ (piece ++ post)
      ∧ (pre = [] ∨ ∃ pre' c, p c = true ∧ pre = pre' ++ [c]) := by
  cases hs : l.splitOnP p with
  | nil => exact absurd hs (List.splitOnP_ne_nil p l)
  | cons q qs =>
      obtain ⟨⟨post, hpost⟩, hrest⟩ := pieces_of_splitOnP p l q qs hs
      rw [hs] at h
      rcases List.mem_cons.mp h with rfl | h
      · exact ⟨[], post, hpost, Or.inl rfl⟩
      · obtain ⟨pre, c, post, hc, hl⟩ := hrest piece h
        exact ⟨pre ++ [c], post, by rw [hl, List.append_assoc]; rfl, Or.inr ⟨pre, c, hc, rfl⟩⟩

/-- Only the symbols that occur matter. -/
theorem splitOnP_congr {p q : α → Bool} :
    ∀ {l : List α}, (∀ c ∈ l, p c = q c) → l.splitOnP p = l.splitOnP q := by
  intro l
  induction l with
  | nil => intro _; simp
  | cons c l ih =>
      intro h
      rw [List.splitOnP_cons_eq_if_modifyHead, List.splitOnP_cons_eq_if_modifyHead,
        h c List.mem_cons_self, ih (fun d hd => h d (List.mem_cons_of_mem c hd))]

/-- Cutting commutes with a map that respects the separators. -/
theorem splitOnP_map {β : Type} (f : α → β) (p : β → Bool) :
    ∀ (l : List α), (l.map f).splitOnP p = (l.splitOnP (fun a => p (f a))).map (List.map f) := by
  intro l
  induction l with
  | nil => simp
  | cons c l ih =>
      rw [List.map_cons, List.splitOnP_cons_eq_if_modifyHead, List.splitOnP_cons_eq_if_modifyHead,
        ih]
      cases p (f c) with
      | true => rfl
      | false => cases l.splitOnP (fun a => p (f a)) <;> rfl

/-! ## §3. Cutting at a pair. -/

variable [DecidableEq α]

/-- The pieces of a text between the occurrences of `a` followed by `b`. -/
def splitPair (a b : α) : List α → List (List α)
  | [] => [[]]
  | [c] => [[c]]
  | c :: d :: rest =>
      if c = a ∧ d = b then [] :: splitPair a b rest
      else (splitPair a b (d :: rest)).modifyHead (c :: ·)

/-- **The cut after a field without the pair.** -/
theorem splitPair_append {a b : α} (hab : a ≠ b) (m : List α) :
    ∀ (l : List α), ¬ HasPair a b l → splitPair a b (l ++ a :: b :: m) = l :: splitPair a b m := by
  intro l
  induction l with
  | nil => intro _; simp [splitPair]
  | cons c l ih =>
      intro h
      have hrest := ih (not_hasPair_tail h)
      cases l with
      | nil =>
          -- the last symbol before the separator: `c a` is not `a b`
          have hne : ¬ (c = a ∧ a = b) := fun e => hab e.2
          show splitPair a b (c :: a :: b :: m) = _
          rw [splitPair, if_neg hne]
          rw [List.nil_append] at hrest
          rw [hrest]
          rfl
      | cons d l =>
          have hne : ¬ (c = a ∧ d = b) := by
            rintro ⟨rfl, rfl⟩
            exact h ⟨[], l, rfl⟩
          show splitPair a b (c :: d :: (l ++ a :: b :: m)) = _
          rw [splitPair, if_neg hne]
          rw [List.cons_append] at hrest
          rw [hrest]
          rfl

/-- A text without the pair is one line. -/
theorem splitPair_eq_singleton {a b : α} :
    ∀ (l : List α), ¬ HasPair a b l → splitPair a b l = [l] := by
  intro l
  induction l with
  | nil => intro _; rfl
  | cons c l ih =>
      intro h
      have hrest := ih (not_hasPair_tail h)
      cases l with
      | nil => rfl
      | cons d l =>
          have hne : ¬ (c = a ∧ d = b) := by
            rintro ⟨rfl, rfl⟩
            exact h ⟨[], l, rfl⟩
          rw [splitPair, if_neg hne, hrest]
          rfl

theorem splitPair_ne_nil (a b : α) : ∀ (l : List α), splitPair a b l ≠ [] := by
  intro l
  induction l using splitPair.induct a b with
  | case1 => simp [splitPair]
  | case2 c => simp [splitPair]
  | case3 c d rest h ih => simp [splitPair, h]
  | case4 c d rest h ih =>
      rw [splitPair, if_neg h]
      cases hs : splitPair a b (d :: rest) with
      | nil => exact absurd hs ih
      | cons p ps => simp

/-- The first line begins as the text does. -/
theorem head_splitPair_prefix {a b : α} :
    ∀ (l : List α) {p : List α} {ps : List (List α)}, splitPair a b l = p :: ps → p <+: l := by
  intro l
  induction l using splitPair.induct a b with
  | case1 => intro p ps h; simp [splitPair] at h; simp [h.1]
  | case2 c => intro p ps h; simp [splitPair] at h; simp [h.1]
  | case3 c d rest h ih =>
      intro p ps hs
      rw [splitPair, if_pos h] at hs
      rw [← (List.cons.inj hs).1]
      exact List.nil_prefix
  | case4 c d rest h ih =>
      intro p ps hs
      rw [splitPair, if_neg h] at hs
      cases hr : splitPair a b (d :: rest) with
      | nil => exact absurd hr (splitPair_ne_nil a b _)
      | cons q qs =>
          rw [hr] at hs
          rw [← (List.cons.inj hs).1]
          exact List.cons_prefix_cons.mpr ⟨rfl, ih hr⟩

/-- **No line contains the pair.** -/
theorem not_pair_of_mem_splitPair {a b : α} :
    ∀ (l : List α), ∀ p ∈ splitPair a b l, ¬ HasPair a b p := by
  intro l
  induction l using splitPair.induct a b with
  | case1 =>
      intro p hp hpair
      rw [splitPair, List.mem_singleton] at hp
      subst hp
      exact absurd hpair.length_le (by simp)
  | case2 c =>
      intro p hp hpair
      rw [splitPair, List.mem_singleton] at hp
      subst hp
      exact absurd hpair.length_le (by simp)
  | case3 c d rest h ih =>
      intro p hp
      rw [splitPair, if_pos h, List.mem_cons] at hp
      rcases hp with rfl | hp
      · intro hpair
        exact absurd hpair.length_le (by simp)
      · exact ih p hp
  | case4 c d rest h ih =>
      intro p hp
      rw [splitPair, if_neg h] at hp
      cases hr : splitPair a b (d :: rest) with
      | nil => exact absurd hr (splitPair_ne_nil a b _)
      | cons q qs =>
          rw [hr, List.modifyHead_cons, List.mem_cons] at hp
          rcases hp with rfl | hp
          · -- a pair in front of the first line would be one of the text
            have hq := ih q (by rw [hr]; exact List.mem_cons_self)
            intro hpair
            rcases List.infix_cons_iff.mp hpair with hpre | hinf
            · have htext : c :: q <+: c :: d :: rest :=
                List.cons_prefix_cons.mpr ⟨rfl, head_splitPair_prefix _ hr⟩
              obtain ⟨t, ht⟩ := hpre.trans htext
              simp only [List.cons_append, List.nil_append, List.cons.injEq] at ht
              exact h ⟨ht.1.symm, ht.2.1.symm⟩
            · exact hq hinf
          · exact ih p (by rw [hr]; exact List.mem_cons_of_mem q hp)

end Text
