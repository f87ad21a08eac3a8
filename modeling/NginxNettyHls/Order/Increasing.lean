/-
  NginxNettyHls.Order.Increasing
  ──────────────────────────────
  **LISTS THAT INCREASE IN A KEY**, and the windows a key cuts out of them.

  The elements with a key above `t` form a final piece of such a list
  (`Increasing.eq_below_at_above`); above the key of position `p` they are just
  what follows `p` (`Increasing.above_getElem`).  Keys determine positions, so
  a key found in two such windows of one list is found at one place
  (`Increasing.position_unique`), and integer keys from an interval bound the
  length (`Increasing.length_le`).
-/
import Mathlib.Order.Lattice
import Mathlib.Tactic.Common

namespace Order

variable {α κ : Type}

/-- The keys strictly increase from each element to every later one. -/
def Increasing [LT κ] (key : α → κ) (l : List α) : Prop :=
  l.Pairwise (fun a b => key a < key b)

instance [LT κ] [DecidableLT κ] (key : α → κ) (l : List α) : Decidable (Increasing key l) :=
  inferInstanceAs (Decidable (l.Pairwise _))

/-- The elements with a key above `t`. -/
def above [LinearOrder κ] (key : α → κ) (t : κ) (l : List α) : List α :=
  l.filter (fun a => t < key a)

theorem mem_above [LinearOrder κ] {key : α → κ} {t : κ} {l : List α} {a : α} :
    a ∈ above key t l ↔ a ∈ l ∧ t < key a := by
  unfold above
  rw [List.mem_filter, decide_eq_true_eq]

/-- The first element above `t`. -/
theorem head_above [LinearOrder κ] {key : α → κ} {t : κ} {l rest : List α} {a : α}
    (h : above key t l = a :: rest) : a ∈ l ∧ t < key a := by
  apply mem_above.mp
  rw [h]
  exact List.mem_cons_self

namespace Increasing

theorem tail [LT κ] {key : α → κ} {a : α} {l : List α} (h : Increasing key (a :: l)) :
    Increasing key l := (List.pairwise_cons.mp h).2

theorem head_lt [LT κ] {key : α → κ} {a : α} {l : List α}
    (h : Increasing key (a :: l)) : ∀ b ∈ l, key a < key b :=
  (List.pairwise_cons.mp h).1

theorem sublist [LT κ] {key : α → κ} {l l' : List α} (h : Increasing key l)
    (hs : l'.Sublist l) : Increasing key l' := List.Pairwise.sublist hs h

variable [LinearOrder κ] {key : α → κ}

/-- Nothing is at or below a key that every element is above. -/
theorem above_eq_self {t : κ} {l : List α} (h : ∀ a ∈ l, t < key a) :
    above key t l = l := by
  unfold above
  rw [List.filter_eq_self]
  intro a ha
  simpa using h a ha

/-- **A key cuts the list in three**: the elements below it, at most one element
at it, the elements above it. -/
theorem eq_below_at_above (t : κ) :
    ∀ (l : List α), Increasing key l →
      ∃ lo hi, (∀ a ∈ lo, key a < t) ∧ hi = above key t l ∧ (∀ a ∈ hi, t < key a)
        ∧ ((l = lo ++ hi ∧ ∀ a ∈ l, key a ≠ t)
            ∨ ∃ a, key a = t ∧ l = lo ++ a :: hi) := by
  intro l
  induction l with
  | nil => intro _; exact ⟨[], [], by simp, rfl, by simp, Or.inl ⟨rfl, by simp⟩⟩
  | cons b l ih =>
      intro h
      obtain ⟨lo, hi, hlo, hhi, habove, hcases⟩ := ih h.tail
      rcases lt_trichotomy (key b) t with hb | hb | hb
      · -- `b` joins the elements below
        refine ⟨b :: lo, hi, ?_, ?_, habove, ?_⟩
        · intro a ha
          rcases List.mem_cons.mp ha with ha | ha
          · rw [ha]; exact hb
          · exact hlo a ha
        · rw [hhi]
          unfold above
          rw [List.filter_cons_of_neg (by simpa using hb.le)]
        · rcases hcases with ⟨hl, hne⟩ | ⟨a, ha, hl⟩
          · refine Or.inl ⟨by rw [hl]; rfl, ?_⟩
            intro a ha
            rcases List.mem_cons.mp ha with ha | ha
            · rw [ha]; exact hb.ne
            · exact hne a ha
          · exact Or.inr ⟨a, ha, by rw [hl]; rfl⟩
      · -- `b` is the element at `t`: all of `l` is above it
        have hl : ∀ a ∈ l, t < key a := fun a ha => hb ▸ h.head_lt a ha
        refine ⟨[], l, by simp, ?_, hl, Or.inr ⟨b, hb, rfl⟩⟩
        unfold above
        rw [List.filter_cons_of_neg (by simp [hb])]
        exact (above_eq_self hl).symm
      · -- everything is above
        have hl : ∀ a ∈ b :: l, t < key a := by
          intro a ha
          rcases List.mem_cons.mp ha with ha | ha
          · rw [ha]; exact hb
          · exact lt_trans hb (h.head_lt a ha)
        exact ⟨[], b :: l, by simp, (above_eq_self hl).symm, hl,
          Or.inl ⟨rfl, fun a ha => (hl a ha).ne'⟩⟩

/-- Positions are ordered as their keys are. -/
theorem lt_of_lt {l : List α} (h : Increasing key l) {i j : Nat} {a b : α}
    (hi : l[i]? = some a) (hj : l[j]? = some b) (hij : i < j) : key a < key b := by
  obtain ⟨hi', rfl⟩ := List.getElem?_eq_some_iff.mp hi
  obtain ⟨hj', rfl⟩ := List.getElem?_eq_some_iff.mp hj
  exact List.pairwise_iff_getElem.mp h i j hi' hj' hij

/-- **Keys determine positions.** -/
theorem position_unique {l : List α} (h : Increasing key l) {i j : Nat} {a b : α}
    (hi : l[i]? = some a) (hj : l[j]? = some b) (hab : key a = key b) : i = j := by
  rcases Nat.lt_trichotomy i j with hij | hij | hij
  · exact absurd hab (h.lt_of_lt hi hj hij).ne
  · exact hij
  · exact absurd hab (h.lt_of_lt hj hi hij).ne'

/-- Above the key of position `p` lies what follows `p`. -/
theorem above_getElem {l : List α} (h : Increasing key l) {p : Nat} {a : α}
    (hp : l[p]? = some a) : above key (key a) l = l.drop (p + 1) := by
  induction l generalizing p with
  | nil => simp at hp
  | cons b l ih =>
      cases p with
      | zero =>
          simp only [List.getElem?_cons_zero, Option.some.injEq] at hp
          subst hp
          unfold above
          rw [List.filter_cons_of_neg (by simp)]
          exact above_eq_self h.head_lt
      | succ p =>
          simp only [List.getElem?_cons_succ] at hp
          have hb : key b < key a := h.head_lt a (List.mem_of_getElem? hp)
          unfold above
          rw [List.filter_cons_of_neg (by simpa using hb.le)]
          exact ih h.tail hp

end Increasing

/-- Integer keys from `[a, b)` leave room for at most `b - a` elements. -/
theorem Increasing.length_le {key : α → Int} :
    ∀ (l : List α) (a b : Int), Increasing key l →
      (∀ x ∈ l, a ≤ key x ∧ key x < b) → a ≤ b → (l.length : Int) ≤ b - a := by
  intro l
  induction l with
  | nil => intro a b _ _ hab; simpa using hab
  | cons x l ih =>
      intro a b h hl hab
      have hx := hl x List.mem_cons_self
      have hrest := ih (key x + 1) b h.tail (by
        intro y hy
        have h1 := h.head_lt y hy
        have h2 := hl y (List.mem_cons_of_mem x hy)
        omega) (by omega)
      rw [List.length_cons]
      omega

end Order
