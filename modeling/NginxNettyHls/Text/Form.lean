/-
  NginxNettyHls.Text.Form
  ───────────────────────
  **NAMES AND VALUES CUT OUT OF A LINE.**

  A line is cut into parts at separators.  The equals signs a part begins with are
  skipped, and what is left, if anything, is cut into a name and a value at its
  first equals sign.  Which symbols are separators and which are equals signs is a
  parameter (`FormMarks`), so that one line can be read in two ways.

    • `sum_fields` — what names and values weigh together is found in one pass
      over the line (`weigh`), symbol by symbol (`charge`, `next`);
    • `weigh_finer_add_le` — a reading with more separators and equals signs
      leaves less in names and values, by one for each further separator and for
      each further equals sign it skips;
    • `weigh_names_add_le` — one with more equals signs only, none of them skipped,
      leaves less in the names, by one for each of them that stood in a name;
    • `fields_congr` — when two readings agree;
    • `perm_of_valuesOf` — named values that agree name by name are the same up to
      their order.
-/
import Mathlib.Algebra.BigOperators.Group.List.Basic
import Mathlib.Algebra.GroupWithZero.Nat
import Mathlib.Data.List.Count
import Mathlib.Data.List.Perm.Basic
import Mathlib.Data.List.TakeWhile
import NginxNettyHls.Text.Lines

namespace Text

variable {α β : Type}

/-! ## §1. Cutting a line. -/

/-- The symbols a line is cut at. -/
structure FormMarks (α : Type) where
  sep : α → Bool
  eq : α → Bool
  disjoint : ∀ x, sep x = true → eq x = false

namespace FormMarks

/-- The same marks, seen through `f`. -/
def comap (m : FormMarks β) (f : α → β) : FormMarks α where
  sep := fun x => m.sep (f x)
  eq := fun x => m.eq (f x)
  disjoint := fun x => m.disjoint (f x)

variable (m : FormMarks α)

/-- A part without the equals signs it begins with. -/
def skip (part : List α) : List α := part.dropWhile m.eq

def name (part : List α) : List α := part.takeWhile (fun x => !m.eq x)

/-- What follows the first equals sign; empty for a part that has none. -/
def value (part : List α) : List α := (part.dropWhile (fun x => !m.eq x)).drop 1

def parts (l : List α) : List (List α) :=
  ((l.splitOnP m.sep).map m.skip).filter (fun part => !part.isEmpty)

/-- The names and values, in their order. -/
def fields (l : List α) : List (List α × List α) :=
  (m.parts l).map (fun part => (m.name part, m.value part))

variable {m}

theorem skip_cons_eq {x : α} (hx : m.eq x = true) (l : List α) : m.skip (x :: l) = m.skip l :=
  List.dropWhile_cons_of_pos hx

theorem skip_cons {x : α} (hx : m.eq x = false) (l : List α) : m.skip (x :: l) = x :: l :=
  List.dropWhile_cons_of_neg (by rw [hx]; decide)

theorem name_append_cons {u v : List α} {x : α} (hu : ∀ y ∈ u, m.eq y = false)
    (hx : m.eq x = true) : m.name (u ++ x :: v) = u := by
  unfold name
  rw [List.takeWhile_append_of_pos (fun y hy => by rw [hu y hy]; rfl),
    List.takeWhile_cons_of_neg (by rw [hx]; decide), List.append_nil]

theorem value_append_cons {u v : List α} {x : α} (hu : ∀ y ∈ u, m.eq y = false)
    (hx : m.eq x = true) : m.value (u ++ x :: v) = v := by
  unfold value
  rw [List.dropWhile_append_of_pos (fun y hy => by rw [hu y hy]; rfl),
    List.dropWhile_cons_of_neg (by rw [hx]; decide)]
  rfl

theorem name_of_forall {part : List α} (h : ∀ y ∈ part, m.eq y = false) :
    m.name part = part :=
  List.takeWhile_eq_self_iff.mpr (fun y hy => by rw [h y hy]; rfl)

theorem value_of_forall {part : List α} (h : ∀ y ∈ part, m.eq y = false) :
    m.value part = [] := by
  unfold value
  rw [List.dropWhile_eq_nil_iff.mpr (fun y hy => by rw [h y hy]; rfl)]
  rfl

/-- A part has no equals sign, or is cut at its first one. -/
theorem part_cases (m : FormMarks α) (part : List α) :
    (∀ y ∈ part, m.eq y = false)
      ∨ ∃ u x v, part = u ++ x :: v ∧ (∀ y ∈ u, m.eq y = false) ∧ m.eq x = true := by
  induction part using induction_at m.eq with
  | line part h => exact Or.inl h
  | cut u x v hu hx _ => exact Or.inr ⟨u, x, v, rfl, hu, hx⟩

theorem fields_skipped {l : List α} (hnil : m.skip l = []) (h : ∀ x ∈ l, m.sep x = false) :
    m.fields l = [] := by
  unfold fields parts
  rw [List.splitOnP_eq_singleton h, List.map_singleton, hnil]
  rfl

theorem fields_line {l : List α} (hne : m.skip l ≠ []) (h : ∀ x ∈ l, m.sep x = false) :
    m.fields l = [(m.name (m.skip l), m.value (m.skip l))] := by
  unfold fields parts
  rw [List.splitOnP_eq_singleton h, List.map_singleton,
    List.filter_cons_of_pos (by simpa using hne)]
  rfl

theorem fields_cut {u l : List α} {x : α} (hu : ∀ y ∈ u, m.sep y = false)
    (hx : m.sep x = true) : m.fields (u ++ x :: l) = m.fields u ++ m.fields l := by
  unfold fields parts
  rw [List.splitOnP_append_cons_of_forall_mem hu x hx, List.splitOnP_eq_singleton hu,
    ← List.map_append, ← List.filter_append]
  rfl

/-- Names and values are made of symbols of the line. -/
theorem mem_of_mem_fields {l : List α} {p : List α × List α} (hp : p ∈ m.fields l) {x : α}
    (hx : x ∈ p.1 ∨ x ∈ p.2) : x ∈ l := by
  obtain ⟨skipped, hskipped, rfl⟩ := List.mem_map.mp hp
  obtain ⟨part, hpart, rfl⟩ := List.mem_map.mp (List.mem_of_mem_filter hskipped)
  have hmem : x ∈ m.skip part := by
    rcases hx with hx | hx
    · exact (List.takeWhile_sublist _).subset hx
    · exact (List.dropWhile_sublist _).subset (List.mem_of_mem_drop hx)
  obtain ⟨pre, post, hl, _⟩ := mem_splitOnP hpart
  rw [hl]
  exact List.mem_append_right _ (List.mem_append_left _ ((List.dropWhile_sublist _).subset hmem))

/-! ## §2. One pass over the line. -/

/-- Where the pass is: before a name, in a name, or in a value. -/
inductive Place where
  | start
  | name
  | value
  deriving DecidableEq

/-- What a symbol weighs that is skipped, in a name, or in a value. -/
structure Weights (α : Type) where
  skipped : α → Nat
  name : α → Nat
  value : α → Nat

/-- What the symbols of a text weigh. -/
def weight (w : α → Nat) (l : List α) : Nat := (l.map w).sum

theorem weight_one (l : List α) : weight (fun _ => 1) l = l.length := by simp [weight]

theorem weight_zero (l : List α) : weight (fun _ => 0) l = 0 := by simp [weight]

/-- Where the pass is behind a symbol. -/
def next (m : FormMarks α) (b : Place) (x : α) : Place :=
  if m.sep x then .start
  else match b with
    | .start => if m.eq x then .start else .name
    | .name => if m.eq x then .value else .name
    | .value => .value

/-- What a symbol adds. -/
def charge (m : FormMarks α) (w : Weights α) (b : Place) (x : α) : Nat :=
  if m.sep x then 0
  else match b with
    | .start => if m.eq x then w.skipped x else w.name x
    | .name => if m.eq x then 0 else w.name x
    | .value => w.value x

def weigh (m : FormMarks α) (w : Weights α) : Place → List α → Nat
  | _, [] => 0
  | b, x :: l => m.charge w b x + m.weigh w (m.next b x) l

variable {w : Weights α}

theorem weigh_nil (b : Place) : m.weigh w b [] = 0 := by
  cases b <;> rfl

theorem weigh_cons (b : Place) (x : α) (l : List α) :
    m.weigh w b (x :: l) = m.charge w b x + m.weigh w (m.next b x) l := by
  cases b <;> rfl

theorem weigh_append :
    ∀ (u l : List α) (b : Place),
      m.weigh w b (u ++ l) = m.weigh w b u + m.weigh w (u.foldl m.next b) l := by
  intro u l
  induction u with
  | nil => intro b; rw [weigh_nil, Nat.zero_add]; rfl
  | cons x u ih =>
      intro b
      rw [List.cons_append, weigh_cons, weigh_cons, ih, Nat.add_assoc]
      rfl

/-- A separator weighs nothing, and the next part begins. -/
theorem weigh_sep {x : α} (hx : m.sep x = true) (b : Place) (l : List α) :
    m.weigh w b (x :: l) = m.weigh w .start l := by
  simp [weigh_cons, charge, next, hx]

theorem weigh_skipped {x : α} (hsep : m.sep x = false) (hx : m.eq x = true) (l : List α) :
    m.weigh w .start (x :: l) = w.skipped x + m.weigh w .start l := by
  simp [weigh_cons, charge, next, hsep, hx]

theorem weigh_eq {x : α} (hsep : m.sep x = false) (hx : m.eq x = true) (l : List α) :
    m.weigh w .name (x :: l) = m.weigh w .value l := by
  simp [weigh_cons, charge, next, hsep, hx]

/-- A symbol that is no mark begins or continues a name. -/
theorem weigh_name {x : α} (hsep : m.sep x = false) (hx : m.eq x = false) {b : Place}
    (hb : b ≠ .value) (l : List α) :
    m.weigh w b (x :: l) = w.name x + m.weigh w .name l := by
  cases b with
  | value => exact absurd rfl hb
  | start => simp [weigh_cons, charge, next, hsep, hx]
  | name => simp [weigh_cons, charge, next, hsep, hx]

theorem weigh_value {x : α} (hsep : m.sep x = false) (l : List α) :
    m.weigh w .value (x :: l) = w.value x + m.weigh w .value l := by
  simp [weigh_cons, charge, next, hsep]

theorem weigh_cut {x : α} (hx : m.sep x = true) (u l : List α) (b : Place) :
    m.weigh w b (u ++ x :: l) = m.weigh w b u + m.weigh w .start l := by
  rw [weigh_append, weigh_sep hx]

theorem weigh_value_line {l : List α} (h : ∀ x ∈ l, m.sep x = false) :
    m.weigh w .value l = weight w.value l := by
  induction l with
  | nil => rfl
  | cons x l ih =>
      rw [weigh_value (h x List.mem_cons_self),
        ih (fun y hy => h y (List.mem_cons_of_mem x hy))]
      rfl

theorem weigh_name_line {l : List α} (h : ∀ x ∈ l, m.sep x = false) :
    m.weigh w .name l = weight w.name (m.name l) + weight w.value (m.value l) := by
  induction l with
  | nil => rfl
  | cons x l ih =>
      have hx := h x List.mem_cons_self
      have hl := fun y hy => h y (List.mem_cons_of_mem x hy)
      cases hq : m.eq x with
      | true =>
          have hname : m.name (x :: l) = [] := name_append_cons (u := []) (by simp) hq
          have hvalue : m.value (x :: l) = l := value_append_cons (u := []) (by simp) hq
          rw [weigh_eq hx hq, weigh_value_line hl, hname, hvalue]
          exact (Nat.zero_add _).symm
      | false =>
          have hname : m.name (x :: l) = x :: m.name l :=
            List.takeWhile_cons_of_pos (by rw [hq]; rfl)
          have hvalue : m.value (x :: l) = m.value l := by
            unfold value
            rw [List.dropWhile_cons_of_pos (by rw [hq]; rfl)]
          rw [weigh_name hx hq (by simp), ih hl, hname, hvalue, ← Nat.add_assoc]
          rfl

/-- Where skipped equals signs weigh nothing, the rest of the part does. -/
theorem weigh_line {n v : α → Nat} {l : List α} (h : ∀ x ∈ l, m.sep x = false) :
    m.weigh ⟨fun _ => 0, n, v⟩ .start l
      = weight n (m.name (m.skip l)) + weight v (m.value (m.skip l)) := by
  induction l with
  | nil => rfl
  | cons x l ih =>
      have hx := h x List.mem_cons_self
      cases hq : m.eq x with
      | true =>
          rw [weigh_skipped hx hq, skip_cons_eq hq,
            ih (fun y hy => h y (List.mem_cons_of_mem x hy))]
          exact Nat.zero_add _
      | false =>
          have hname := weigh_name_line (w := ⟨fun _ => 0, n, v⟩) h
          rw [weigh_name hx hq (by simp)] at hname
          rw [skip_cons hq, weigh_name hx hq (by simp)]
          exact hname

/-- **What names and values weigh together.** -/
theorem sum_fields (m : FormMarks α) (n v : α → Nat) (l : List α) :
    ((m.fields l).map (fun p => weight n p.1 + weight v p.2)).sum
      = m.weigh ⟨fun _ => 0, n, v⟩ .start l := by
  have hpart : ∀ u : List α, (∀ x ∈ u, m.sep x = false) →
      ((m.fields u).map (fun p => weight n p.1 + weight v p.2)).sum
        = m.weigh ⟨fun _ => 0, n, v⟩ .start u := by
    intro u hu
    rw [weigh_line hu]
    by_cases hnil : m.skip u = []
    · rw [fields_skipped hnil hu, hnil]
      rfl
    · rw [fields_line hnil hu]
      exact Nat.add_zero _
  induction l using induction_at m.sep with
  | line l h => exact hpart l h
  | cut u x l hu hx ih =>
      rw [fields_cut hu hx, List.map_append, List.sum_append, hpart u hu, ih, weigh_cut hx]

theorem charge_pos {x : α} (hsep : m.sep x = false) (hx : m.eq x = false) (hn : 0 < w.name x)
    (hv : 0 < w.value x) (b : Place) : 0 < m.charge w b x := by
  cases b <;> simpa [charge, hsep, hx]

/-- What begins with a symbol that is no mark weighs something. -/
theorem weigh_lt_append {x : α} (hsep : m.sep x = false) (hx : m.eq x = false)
    (hn : 0 < w.name x) (hv : 0 < w.value x) (u l : List α) (b : Place) :
    m.weigh w b u < m.weigh w b (u ++ x :: l) := by
  have hpos := charge_pos hsep hx hn hv (u.foldl m.next b)
  rw [weigh_append, weigh_cons]
  omega

/-- Skipped symbols can be weighed apart. -/
theorem weigh_split :
    ∀ (l : List α) (b : Place), m.weigh w b l
      = m.weigh ⟨w.skipped, fun _ => 0, fun _ => 0⟩ b l
        + m.weigh ⟨fun _ => 0, w.name, w.value⟩ b l := by
  have hcharge : ∀ (b : Place) (x : α), m.charge w b x
      = m.charge ⟨w.skipped, fun _ => 0, fun _ => 0⟩ b x
        + m.charge ⟨fun _ => 0, w.name, w.value⟩ b x := by
    intro b x
    unfold charge
    cases b <;> dsimp only <;> split_ifs <;> simp
  intro l
  induction l with
  | nil => intro b; rw [weigh_nil, weigh_nil, weigh_nil]
  | cons x l ih =>
      intro b
      have hx := hcharge b x
      have hl := ih (m.next b x)
      rw [weigh_cons, weigh_cons, weigh_cons]
      omega

/-! ## §3. Two readings of one line. -/

/-- What marks a symbol for `m` marks it for `m'`. -/
structure Finer (m m' : FormMarks α) : Prop where
  sep : ∀ x, m.sep x = true → m'.sep x = true
  eq : ∀ x, m.eq x = true → m'.eq x = true

/-- A separator of the second reading only. -/
def newSep (m m' : FormMarks α) (x : α) : Bool := m'.sep x && !m.sep x

/-- An equals sign of the second reading only. -/
def newEq (m m' : FormMarks α) (x : α) : Bool := m'.eq x && !m.eq x

/-- Where only the second pass is in a value, the first one has an equals sign to come. -/
def slack : Place → Place → Nat
  | .name, .value => 1
  | _, _ => 0

variable {m' : FormMarks α}

/-- What a symbol can be in two readings. -/
theorem Finer.cases (h : Finer m m') (x : α) :
    (m.sep x = true ∧ m'.sep x = true)
      ∨ (m.sep x = false ∧ m.eq x = false ∧ m'.sep x = true)
      ∨ (m.sep x = false ∧ m'.sep x = false ∧ m.eq x = true ∧ m'.eq x = true)
      ∨ (m.sep x = false ∧ m'.sep x = false ∧ m.eq x = false) := by
  have hs := h.sep x
  have hq := h.eq x
  have hd := m'.disjoint x
  cases hms : m.sep x <;> cases hms' : m'.sep x <;> cases hmq : m.eq x <;> simp_all

/-- One symbol. -/
theorem charge_finer_add_le (h : Finer m m') {b b' : Place} (hb : b = .start → b' = .start)
    (x : α) :
    (m.next b x = .start → m'.next b' x = .start)
      ∧ m'.charge ⟨fun x => if newEq m m' x then 1 else 0, fun _ => 1, fun _ => 1⟩ b' x
          + (if newSep m m' x then 1 else 0) + slack (m.next b x) (m'.next b' x)
        ≤ m.charge ⟨fun _ => 0, fun _ => 1, fun _ => 1⟩ b x + slack b b' := by
  rcases h.cases x with ⟨hs, hs'⟩ | ⟨hs, hq, hs'⟩ | ⟨hs, hs', hq, hq'⟩ | ⟨hs, hs', hq⟩
  · -- both begin a part
    simp [next, charge, newSep, hs, hs', slack]
  · -- only the second pass begins a part; the first one keeps the symbol
    cases b <;> cases b' <;> simp_all [next, charge, newSep, slack]
  · cases b <;> cases b' <;> simp_all [next, charge, newSep, newEq, slack]
  · cases hq' : m'.eq x <;> cases b <;> cases b' <;>
      simp_all [next, charge, newSep, newEq, slack]

/-- **More marks leave less**, by one for each further separator and for each further equals
sign that is skipped. -/
theorem weigh_finer_add_le (h : Finer m m') :
    ∀ (l : List α) (b b' : Place), (b = .start → b' = .start) →
      m'.weigh ⟨fun x => if newEq m m' x then 1 else 0, fun _ => 1, fun _ => 1⟩ b' l
          + l.countP (newSep m m')
        ≤ m.weigh ⟨fun _ => 0, fun _ => 1, fun _ => 1⟩ b l + slack b b' := by
  intro l
  induction l with
  | nil => intro b b' _; rw [weigh_nil]; exact Nat.zero_le _
  | cons x l ih =>
      intro b b' hb
      obtain ⟨hnext, hx⟩ := charge_finer_add_le h hb x
      have hl := ih _ _ hnext
      rw [weigh_cons, weigh_cons, List.countP_cons]
      omega

/-- The second pass is where the first one is, or is done with the name already. -/
def Ahead (b b' : Place) : Prop := b' = b ∨ (b = .name ∧ b' = .value)

/-- One symbol. -/
theorem charge_names_add_le (h : Finer m m') {b b' : Place} (hb : Ahead b b') {x : α}
    (hsep : m'.sep x = m.sep x)
    (hskip : m'.charge ⟨fun x => if newEq m m' x then 1 else 0, fun _ => 0, fun _ => 0⟩ b' x
      = 0) :
    Ahead (m.next b x) (m'.next b' x)
      ∧ m'.charge ⟨fun _ => 0, fun _ => 1, fun _ => 0⟩ b' x
          + m.charge ⟨fun _ => 0, fun x => if newEq m m' x then 1 else 0, fun _ => 0⟩ b x
        ≤ m.charge ⟨fun _ => 0, fun _ => 1, fun _ => 0⟩ b x := by
  rcases h.cases x with ⟨hs, hs'⟩ | ⟨hs, hq, hs'⟩ | ⟨hs, hs', hq, hq'⟩ | ⟨hs, hs', hq⟩
  · simp [next, charge, hs, hs', Ahead]
  · -- there are no further separators
    rw [hs, hs'] at hsep
    exact absurd hsep (by decide)
  · rcases hb with rfl | ⟨rfl, rfl⟩
    · cases b' <;> simp [next, charge, hs, hs', hq, hq', Ahead]
    · simp [next, charge, hs, hs', hq, Ahead]
  · rcases hb with rfl | ⟨rfl, rfl⟩
    · -- a further equals sign before a name would be skipped, against `hskip`
      cases hq' : m'.eq x <;> cases b' <;>
        simp_all [next, charge, newEq, Ahead]
    · cases hq' : m'.eq x <;> simp [next, charge, newEq, hs, hs', hq, hq', Ahead]

/-- **More equals signs leave less in the names**, by one for each of them that stood in a
name, if none of them is skipped. -/
theorem weigh_names_add_le (h : Finer m m') :
    ∀ {l : List α} {b b' : Place}, Ahead b b' → (∀ x ∈ l, m'.sep x = m.sep x) →
      m'.weigh ⟨fun x => if newEq m m' x then 1 else 0, fun _ => 0, fun _ => 0⟩ b' l = 0 →
      m'.weigh ⟨fun _ => 0, fun _ => 1, fun _ => 0⟩ b' l
          + m.weigh ⟨fun _ => 0, fun x => if newEq m m' x then 1 else 0, fun _ => 0⟩ b l
        ≤ m.weigh ⟨fun _ => 0, fun _ => 1, fun _ => 0⟩ b l := by
  intro l
  induction l with
  | nil => intro b b' _ _ _; rw [weigh_nil, weigh_nil]; exact Nat.zero_le _
  | cons x l ih =>
      intro b b' hb hsep hskip
      rw [weigh_cons, Nat.add_eq_zero_iff] at hskip
      obtain ⟨hnext, hx⟩ := charge_names_add_le h hb (hsep x List.mem_cons_self) hskip.1
      have hl := ih hnext (fun y hy => hsep y (List.mem_cons_of_mem x hy)) hskip.2
      rw [weigh_cons, weigh_cons, weigh_cons]
      omega

/-- A part whose name has no further equals sign is skipped and cut in the same place. -/
theorem part_congr (h : Finer m m') {part : List α}
    (hname : ∀ x ∈ m.name (m.skip part), m'.eq x = false) :
    m'.skip part = m.skip part ∧ m'.name (m.skip part) = m.name (m.skip part)
      ∧ m'.value (m.skip part) = m.value (m.skip part) := by
  constructor
  · induction part with
    | nil => rfl
    | cons x part ih =>
        cases hq : m.eq x with
        | true =>
            rw [skip_cons_eq hq] at hname ⊢
            rw [skip_cons_eq (h.eq x hq)]
            exact ih hname
        | false =>
            -- the first symbol that is left belongs to the name
            rw [skip_cons hq] at hname ⊢
            refine skip_cons (hname x ?_) part
            unfold name
            rw [List.takeWhile_cons_of_pos (by rw [hq]; rfl)]
            exact List.mem_cons_self
  · rcases part_cases m (m.skip part) with hnone | ⟨u, x, rest, hpart, hu, hx⟩
    · rw [name_of_forall hnone] at hname
      rw [name_of_forall hnone, value_of_forall hnone, name_of_forall hname,
        value_of_forall hname]
      exact ⟨rfl, rfl⟩
    · rw [hpart, name_append_cons hu hx] at hname
      rw [hpart, name_append_cons hu hx, value_append_cons hu hx,
        name_append_cons hname (h.eq x hx), value_append_cons hname (h.eq x hx)]
      exact ⟨rfl, rfl⟩

/-- **Two readings agree** when they have the separators in common and the names have no
further equals sign. -/
theorem fields_congr (h : Finer m m') {l : List α} (hsep : ∀ x ∈ l, m'.sep x = m.sep x)
    (hname : ∀ part ∈ l.splitOnP m.sep, ∀ x ∈ m.name (m.skip part), m'.eq x = false) :
    m'.fields l = m.fields l := by
  have hparts : m'.parts l = m.parts l := by
    unfold parts
    rw [splitOnP_congr hsep, List.map_congr_left (fun part hpart =>
      (part_congr h (hname part hpart)).1)]
  unfold fields
  rw [hparts]
  apply List.map_congr_left
  intro skipped hskipped
  obtain ⟨part, hpart, rfl⟩ := List.mem_map.mp (List.mem_of_mem_filter hskipped)
  obtain ⟨_, hn, hv⟩ := part_congr h (hname part hpart)
  rw [hn, hv]

/-- A map that respects the marks. -/
theorem fields_map (m : FormMarks β) (f : α → β) (l : List α) :
    m.fields (l.map f) = ((m.comap f).fields l).map (Prod.map (List.map f) (List.map f)) := by
  have hskip : m.skip ∘ List.map f = List.map f ∘ (m.comap f).skip := by
    funext part
    exact List.dropWhile_map
  have hfilter : ((fun part : List β => !part.isEmpty) ∘ List.map f)
      = fun part : List α => !part.isEmpty := by
    funext part
    cases part <;> rfl
  unfold fields parts
  rw [splitOnP_map, List.map_map, hskip, ← List.map_map, List.filter_map, hfilter, List.map_map,
    List.map_map]
  apply List.map_congr_left
  intro part _
  show (m.name (part.map f), m.value (part.map f)) = _
  unfold name value
  rw [List.takeWhile_map, List.dropWhile_map, ← List.map_drop]
  rfl

theorem weigh_map (m : FormMarks β) (f : α → β) (w : Weights β) :
    ∀ (l : List α) (b : Place), m.weigh w b (l.map f)
      = (m.comap f).weigh ⟨w.skipped ∘ f, w.name ∘ f, w.value ∘ f⟩ b l := by
  intro l
  induction l with
  | nil => intro b; rw [weigh_nil]; exact weigh_nil b
  | cons x l ih =>
      intro b
      rw [List.map_cons, weigh_cons, weigh_cons, ih]
      rfl

end FormMarks

/-! ## §4. The values of a name. -/

section Values

variable [DecidableEq α]

/-- The values of a name, in their order. -/
def valuesOf (fields : List (α × β)) (name : α) : List β :=
  (fields.filter (fun p => p.1 = name)).map Prod.snd

theorem valuesOf_ne_nil_iff (fields : List (α × β)) (name : α) :
    valuesOf fields name ≠ [] ↔ ∃ p ∈ fields, p.1 = name := by
  unfold valuesOf
  rw [Ne, List.map_eq_nil_iff, List.filter_eq_nil_iff]
  simp

variable [DecidableEq β]

theorem count_valuesOf (fields : List (α × β)) (name : α) (value : β) :
    (valuesOf fields name).count value = fields.count (name, value) := by
  unfold valuesOf
  rw [List.count, List.countP_map, List.countP_filter, List.count]
  apply List.countP_congr
  intro p _
  obtain ⟨a, b⟩ := p
  simp [and_comm]

/-- **The same values under every name** are the same fields, up to their order. -/
theorem perm_of_valuesOf {fields fields' : List (α × β)}
    (h : valuesOf fields = valuesOf fields') : fields.Perm fields' := by
  apply List.perm_iff_count.mpr
  intro p
  rw [← count_valuesOf, ← count_valuesOf, h]

end Values

/-- Reading every part, if all can be read. -/
theorem mapM_eq_some_iff (f : α → Option β) :
    ∀ (l : List α) (r : List β), l.mapM f = some r ↔ l.map f = r.map some := by
  intro l
  induction l with
  | nil =>
      intro r
      cases r <;> simp
  | cons x l ih =>
      intro r
      rw [List.mapM_cons]
      cases hx : f x with
      | none => cases r <;> simp [hx]
      | some y =>
          cases r with
          | nil => cases l.mapM f <;> simp
          | cons z r =>
              have hl := ih r
              rw [List.map_cons, List.map_cons, hx, List.cons.injEq, ← hl, Option.some.injEq]
              cases l.mapM f <;> simp

end Text
