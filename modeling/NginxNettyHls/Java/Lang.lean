/-
  NginxNettyHls.Java.Lang
  ───────────────────────
  **THE FRAGMENT OF THE JAVA LANGUAGE that m3u8-filter computes with.**

  `int` and `long` values are unbounded integers brought back into range by
  `toInt32`/`toInt64` wherever the source can overflow.  Strings are lists of
  characters; `contains`, `split` with a one-character separator,
  `Integer.parseInt`, `String.valueOf(long)` and `toCharArray` follow the
  documented behaviour of `java.lang`, and `readLines` that of
  `BufferedReader.readLine`.

  The facts the filters rest on:

    • `toInt32_of_range`, `toInt32_sub_pos_iff` — when a 32-bit subtraction
      may be read as a comparison;
    • `parseInt_range` and `parseInt_nonneg` — what a parsed `int` can be;
    • `mem_of_mem_split` — what the pieces of a split are made of, and
      `split_head`, `split_second` — its first two pieces;
    • `unbroken_of_mem_readLines` — a line `readLine` returns has no line break
      in it, and `readLines_crlf` — lines written with CRLF are read back.
-/
import Mathlib.Data.List.DropRight
import Mathlib.Data.List.Infix
import Mathlib.Tactic.NormNum
import Mathlib.Tactic.Common

namespace NginxNettyHls.Java

/-! ## §1. Fixed-width integers. -/

/-- The value an `int` holds after an operation with exact result `x`. -/
def toInt32 (x : Int) : Int := x.bmod (2 ^ 32)

/-- The value a `long` holds after an operation with exact result `x`. -/
def toInt64 (x : Int) : Int := x.bmod (2 ^ 64)

/-- `x` is the value of some `int`. -/
def IsInt32 (x : Int) : Prop := -2 ^ 31 ≤ x ∧ x < 2 ^ 31

/-- `x` is the value of some `long`. -/
def IsInt64 (x : Int) : Prop := -2 ^ 63 ≤ x ∧ x < 2 ^ 63

theorem toInt32_of_range {x : Int} (lo : -2 ^ 31 ≤ x) (hi : x < 2 ^ 31) :
    toInt32 x = x := by
  exact Int.bmod_eq_of_le (by norm_num; omega) (by norm_num; omega)

theorem toInt64_of_range {x : Int} (lo : -2 ^ 63 ≤ x) (hi : x < 2 ^ 63) :
    toInt64 x = x := by
  exact Int.bmod_eq_of_le (by norm_num; omega) (by norm_num; omega)

/-- A `long` increment is exact below the greatest `long` only: there it wraps to the
least one. -/
theorem toInt64_succ_eq_iff {x : Int} (hx : IsInt64 x) :
    toInt64 (x + 1) = x + 1 ↔ x < 2 ^ 63 - 1 := by
  obtain ⟨lo, hi⟩ := hx
  constructor
  · intro h
    by_contra hmax
    have hxmax : x = 2 ^ 63 - 1 := by omega
    rw [hxmax] at h
    exact absurd h (by decide)
  · intro h
    exact toInt64_of_range (by omega) (by omega)

theorem isInt32_toInt32 (x : Int) : IsInt32 (toInt32 x) := by
  unfold IsInt32 toInt32
  have hlo := Int.le_bmod (x := x) (m := 2 ^ 32) (by norm_num)
  have hhi := Int.bmod_lt (x := x) (m := 2 ^ 32) (by norm_num)
  norm_num at hlo hhi ⊢
  constructor <;> omega

/-- Only the last cast of a sum counts. -/
theorem toInt32_toInt32_add (x y : Int) : toInt32 (toInt32 x + y) = toInt32 (x + y) :=
  Int.bmod_add_bmod

theorem toInt32_eq_zero_iff (x : Int) : toInt32 x = 0 ↔ x % 2 ^ 32 = 0 := by
  have h := @Int.dvd_iff_bmod_eq_zero (2 ^ 32) x
  rw [Int.dvd_iff_emod_eq_zero] at h
  exact h.symm

/-- `toInt32` moves an exact result by whole multiples of `2 ^ 32`. -/
theorem toInt32_add_mul (x k : Int) : toInt32 (x + k * 2 ^ 32) = toInt32 x := by
  unfold toInt32
  have h := Int.add_mul_bmod_self_right x k (2 ^ 32)
  norm_num at h ⊢
  exact h

/-- **When a 32-bit difference is positive**: for a non-negative `t`, exactly
when `t` exceeds `a` by less than `2 ^ 31`. -/
theorem toInt32_sub_pos_iff {t a : Int} (ht : 0 ≤ t) (ht' : t < 2 ^ 31)
    (ha : IsInt32 a) : 0 < toInt32 (t - a) ↔ a < t ∧ t - a < 2 ^ 31 := by
  obtain ⟨ha1, ha2⟩ := ha
  by_cases hwrap : t - a < 2 ^ 31
  · rw [toInt32_of_range (by omega) hwrap]
    constructor
    · intro h
      exact ⟨by omega, hwrap⟩
    · intro h
      omega
  · -- the difference wraps to `t - a - 2 ^ 32`, which is negative
    have h := toInt32_add_mul (t - a) (-1)
    rw [← h, toInt32_of_range (by omega) (by omega)]
    constructor
    · intro h'
      omega
    · intro h'
      exact absurd h'.2 hwrap

/-- Between two non-negative `int`s the 32-bit difference compares exactly. -/
theorem toInt32_sub_pos_iff_lt {t l : Int} (ht : 0 ≤ t) (ht' : t < 2 ^ 31)
    (hl : 0 ≤ l) (hl' : l < 2 ^ 31) : 0 < toInt32 (t - l) ↔ l < t := by
  rw [toInt32_sub_pos_iff ht ht' ⟨by omega, hl'⟩]
  constructor
  · exact fun h => h.1
  · intro h
    exact ⟨h, by omega⟩

/-! ## §2. Strings. -/

/-- A Java string, one `Char` for each code point. -/
abbrev JString := List Char

/-- `s.contains(t)`. -/
def contains (s t : JString) : Bool := decide (t <:+: s)

/-- `s.split(sep)` for a one-character separator: the pieces between the
separators, trailing empty pieces removed; a string without the separator is
its own only piece. -/
def split (sep : Char) (s : JString) : List JString :=
  if sep ∈ s then (s.splitOn sep).rdropWhile (· == []) else [s]

/-- The code points of the decimal digit zeros `Character.digit` knows in the
Basic Multilingual Plane; each is followed by the digits one to nine. -/
def digitZeros : List Nat :=
  [0x0030, 0x0660, 0x06F0, 0x07C0, 0x0966, 0x09E6, 0x0A66, 0x0AE6, 0x0B66,
   0x0BE6, 0x0C66, 0x0CE6, 0x0D66, 0x0E50, 0x0ED0, 0x0F20, 0x1040, 0x1090,
   0x17E0, 0x1810, 0x1946, 0x19D0, 0x1A80, 0x1A90, 0x1B50, 0x1BB0, 0x1C40,
   0x1C50, 0xA620, 0xA8D0, 0xA900, 0xA9D0, 0xAA50, 0xABF0, 0xFF10]

/-- `Character.digit(c, 10)`, with `none` for the result `-1`. -/
def digit (c : Char) : Option Nat :=
  digitZeros.findSome? (fun z =>
    if z ≤ c.toNat ∧ c.toNat < z + 10 then some (c.toNat - z) else none)

/-- The value of a run of decimal digits read after the value `acc`. -/
def digitsValue : Nat → JString → Option Nat
  | acc, [] => some acc
  | acc, c :: cs =>
      match digit c with
      | none => none
      | some d => digitsValue (acc * 10 + d) cs

/-- `Integer.parseInt(s)`; `none` is a `NumberFormatException`.  A leading sign
needs a digit after it, and the value has to be an `int`. -/
def parseInt : JString → Option Int
  | [] => none
  | c :: cs =>
      if c.toNat < 0x30 then
        if cs = [] then none
        else if c = '-' then
          (digitsValue 0 cs).bind (fun v => if v ≤ 2 ^ 31 then some (-(v : Int)) else none)
        else if c = '+' then
          (digitsValue 0 cs).bind (fun v => if v < 2 ^ 31 then some (v : Int) else none)
        else none
      else
        (digitsValue 0 (c :: cs)).bind
          (fun v => if v < 2 ^ 31 then some (v : Int) else none)

/-- `String.valueOf(long)`. -/
def valueOf (n : Int) : JString :=
  if n < 0 then '-' :: Nat.toDigits 10 n.natAbs else Nat.toDigits 10 n.natAbs

/-- The UTF-16 code units of one code point. -/
def utf16Units (c : Char) : List Int :=
  if c.toNat < 0x10000 then [(c.toNat : Int)]
  else
    let v := c.toNat - 0x10000
    [((0xD800 + v / 0x400 : Nat) : Int), ((0xDC00 + v % 0x400 : Nat) : Int)]

/-- `s.toCharArray()`, each `char` as the integer arithmetic promotes it to. -/
def toCharArray (s : JString) : List Int := s.flatMap utf16Units

/-- What `sb.append(s)` adds for a reference that may be `null`. -/
def orNull (s : Option JString) : JString := s.getD "null".toList

/-! ## §3. What the string operations return. -/

/-- A character of a piece of `splitOn` is a character of the string other than
the separator. -/
theorem mem_of_mem_splitOn (sep : Char) :
    ∀ (s piece : JString), piece ∈ s.splitOn sep → ∀ c ∈ piece, c ∈ s ∧ c ≠ sep := by
  intro s
  induction s with
  | nil =>
      intro piece h
      simp only [List.splitOn_nil, List.mem_singleton] at h
      simp [h]
  | cons a s ih =>
      intro piece h c hc
      unfold List.splitOn at h ih
      rw [List.splitOnP_cons_eq_if_modifyHead] at h
      split at h
      next _ =>
        rcases List.mem_cons.mp h with h | h
        · simp [h] at hc
        · exact ⟨List.mem_cons_of_mem a (ih piece h c hc).1, (ih piece h c hc).2⟩
      next ha =>
        -- a character other than the separator joins the first piece
        cases hs : List.splitOnP (fun x => x == sep) s with
        | nil => exact absurd hs (List.splitOnP_ne_nil _ _)
        | cons p ps =>
            rw [hs] at h ih
            simp only [List.modifyHead_cons, List.mem_cons] at h
            rcases h with h | h
            · subst h
              rcases List.mem_cons.mp hc with hc | hc
              · subst hc
                exact ⟨List.mem_cons_self, by simpa using ha⟩
              · have hp := ih p (by simp) c hc
                exact ⟨List.mem_cons_of_mem a hp.1, hp.2⟩
            · have hp := ih piece (by simp [h]) c hc
              exact ⟨List.mem_cons_of_mem a hp.1, hp.2⟩

/-- A character of a piece of `s.split(sep)` is a character of `s`, and none of
them is the separator. -/
theorem mem_of_mem_split {sep : Char} {s piece : JString}
    (h : piece ∈ split sep s) : ∀ c ∈ piece, c ∈ s ∧ c ≠ sep := by
  unfold split at h
  split at h
  next _ =>
    have hpre := List.rdropWhile_prefix (fun x : JString => x == []) (l := s.splitOn sep)
    exact mem_of_mem_splitOn sep s piece (hpre.subset h)
  next hs =>
    rw [List.mem_singleton.mp h]
    intro c hc
    exact ⟨hc, fun e => hs (e ▸ hc)⟩

/-- The first element is dropped only when everything after it is. -/
theorem rdropWhile_cons {α : Type} (p : α → Bool) (a : α) (l : List α) :
    (a :: l).rdropWhile p
      = if l.rdropWhile p = [] then [a].rdropWhile p else a :: l.rdropWhile p := by
  unfold List.rdropWhile
  rw [List.reverse_cons, List.dropWhile_append]
  cases h : List.dropWhile p l.reverse with
  | nil => simp
  | cons b bs => simp

theorem rdropWhile_head {α : Type} (p : α → Bool) (l : List α) :
    (l.rdropWhile p)[0]? = if ∀ x ∈ l, p x = true then none else l[0]? := by
  split_ifs with h
  · rw [List.rdropWhile_eq_nil_iff.mpr h]
    rfl
  · cases hl : l.rdropWhile p with
    | nil => exact absurd (List.rdropWhile_eq_nil_iff.mp hl) h
    | cons b bs =>
        obtain ⟨t, ht⟩ := List.rdropWhile_prefix p (l := l)
        rw [← ht, hl]
        rfl

/-- The pieces are all empty when there is nothing but separators. -/
theorem splitOn_forall_nil (sep : Char) :
    ∀ (s : JString), (∀ piece ∈ s.splitOn sep, (piece == []) = true) ↔ ∀ c ∈ s, c = sep := by
  intro s
  induction s with
  | nil => simp
  | cons c s ih =>
      unfold List.splitOn at ih ⊢
      rw [List.splitOnP_cons_eq_if_modifyHead]
      by_cases hc : c = sep
      · simp only [hc, beq_self_eq_true, if_true, List.forall_mem_cons, true_and, ih]
      · cases hs : List.splitOnP (fun x => x == sep) s with
        | nil => exact absurd hs (List.splitOnP_ne_nil _ _)
        | cons piece pieces => simp [hc]

theorem splitOn_head (sep : Char) (s : JString) :
    (s.splitOn sep)[0]? = some (s.takeWhile (· != sep)) := by
  induction s with
  | nil => simp
  | cons c s ih =>
      unfold List.splitOn at ih ⊢
      rw [List.splitOnP_cons_eq_if_modifyHead]
      by_cases hc : c = sep
      · simp [hc]
      · simp [hc, ih]

theorem all_beq_iff {sep : Char} {s : JString} :
    s.all (· == sep) = true ↔ ∀ c ∈ s, c = sep := by
  simp only [List.all_eq_true, beq_iff_eq]

/-- `s.split(sep)[0]`: the text before the first separator, unless there is nothing but
separators. -/
theorem split_head (sep : Char) (s : JString) :
    (split sep s)[0]?
      = if s ≠ [] ∧ s.all (· == sep) = true then none else some (s.takeWhile (· != sep)) := by
  unfold split
  by_cases hsep : sep ∈ s
  · have hne : s ≠ [] := List.ne_nil_of_mem hsep
    rw [if_pos hsep, rdropWhile_head, splitOn_head]
    have hall := (splitOn_forall_nil sep s).trans all_beq_iff.symm
    exact if_congr (hall.trans (and_iff_right hne).symm) rfl rfl
  · have hall : ¬ (s ≠ [] ∧ s.all (· == sep) = true) := by
      intro ⟨hne, h⟩
      obtain ⟨c, hc⟩ := List.exists_mem_of_ne_nil s hne
      exact hsep (all_beq_iff.mp h c hc ▸ hc)
    rw [if_neg hsep, if_neg hall, List.takeWhile_eq_self_iff.mpr]
    · rfl
    · intro c hc
      simp only [bne_iff_ne, ne_eq]
      exact fun e => hsep (e ▸ hc)

/-- `s.split(sep)[1]`: the text between the first separator and the next, unless only
separators follow. -/
theorem split_second {sep : Char} {a : JString} (ha : sep ∉ a) (r : JString) :
    (split sep (a ++ sep :: r))[1]?
      = if r.all (· == sep) then none else some (r.takeWhile (· != sep)) := by
  have hpieces : (a ++ sep :: r).splitOn sep = a :: r.splitOn sep :=
    List.splitOnP_append_cons_of_forall_mem
      (fun c hc => by simpa using fun e : c = sep => ha (e ▸ hc)) sep (by simp) r
  unfold split
  rw [if_pos (by simp), hpieces, rdropWhile_cons]
  by_cases hall : r.all (· == sep) = true
  · have hnil := (splitOn_forall_nil sep r).mpr (all_beq_iff.mp hall)
    rw [if_pos (List.rdropWhile_eq_nil_iff.mpr hnil), if_pos hall, List.rdropWhile_singleton]
    split_ifs <;> rfl
  · have hkept : ¬ ∀ piece ∈ r.splitOn sep, (piece == []) = true :=
      fun h => hall (all_beq_iff.mpr ((splitOn_forall_nil sep r).mp h))
    rw [if_neg (fun h => hkept (List.rdropWhile_eq_nil_iff.mp h)), if_neg hall,
      List.getElem?_cons_succ, rdropWhile_head, if_neg hkept, splitOn_head]

theorem digitsValue_eq_none {c : Char} (hc : digit c = none) :
    ∀ (cs : JString) (acc : Nat), c ∈ cs → digitsValue acc cs = none := by
  intro cs
  induction cs with
  | nil => intro acc h; simp at h
  | cons b cs ih =>
      intro acc h
      unfold digitsValue
      rcases List.mem_cons.mp h with h | h
      · rw [← h, hc]
      · cases digit b with
        | none => rfl
        | some d => exact ih _ h

/-- A text with a slash in it is no number. -/
theorem parseInt_slash {s : JString} (h : '/' ∈ s) : parseInt s = none := by
  cases s with
  | nil => rfl
  | cons c cs =>
      have hslash : digit '/' = none := by decide
      simp only [parseInt]
      split_ifs with hlow hnil hminus hplus
      · rfl
      · have hmem : '/' ∈ cs := (List.mem_cons.mp h).resolve_left (by rw [hminus]; decide)
        rw [digitsValue_eq_none hslash cs 0 hmem]
        rfl
      · have hmem : '/' ∈ cs := (List.mem_cons.mp h).resolve_left (by rw [hplus]; decide)
        rw [digitsValue_eq_none hslash cs 0 hmem]
        rfl
      · rfl
      · rw [digitsValue_eq_none hslash (c :: cs) 0 h]
        rfl

/-- The text of a number is a sign and digits. -/
theorem mem_valueOf {n : Int} {c : Char} (h : c ∈ valueOf n) : c = '-' ∨ c.isDigit := by
  unfold valueOf at h
  split at h
  next _ =>
    rcases List.mem_cons.mp h with h | h
    · exact Or.inl h
    · exact Or.inr (Nat.isDigit_of_mem_toDigits (by decide) (by decide) h)
  next _ => exact Or.inr (Nat.isDigit_of_mem_toDigits (by decide) (by decide) h)

theorem valueOf_ne_nil (n : Int) : valueOf n ≠ [] := by
  unfold valueOf
  split
  next _ => simp
  next _ => exact Nat.toDigits_ne_nil

/-- A parsed `int` is an `int`. -/
theorem parseInt_range {s : JString} {t : Int} (h : parseInt s = some t) :
    IsInt32 t := by
  cases s with
  | nil => simp [parseInt] at h
  | cons c cs =>
      unfold IsInt32
      simp only [parseInt] at h
      split_ifs at h <;>
        simp only [Option.bind_eq_some_iff, Option.ite_none_right_eq_some,
          Option.some.injEq] at h <;>
        obtain ⟨v, _, hv, rfl⟩ := h <;>
        constructor <;> omega

/-- Without a minus sign the parsed `int` is not negative. -/
theorem parseInt_nonneg {s : JString} {t : Int} (h : parseInt s = some t)
    (hs : '-' ∉ s) : 0 ≤ t := by
  cases s with
  | nil => simp [parseInt] at h
  | cons c cs =>
      have hc : c ≠ '-' := fun e => hs (by simp [e])
      simp only [parseInt, hc, if_false] at h
      split_ifs at h <;>
        simp only [Option.bind_eq_some_iff, Option.ite_none_right_eq_some,
          Option.some.injEq] at h <;>
        obtain ⟨v, _, _, rfl⟩ := h <;>
        exact Int.natCast_nonneg v

/-! ## §4. Reading lines. -/

/-- The lines from here on, where `cur` is the part of the current one already read,
last character first; after a CR an LF is skipped. -/
def readLinesFrom : Bool → JString → JString → List JString
  | _, cur, [] => if cur = [] then [] else [cur.reverse]
  | skipLF, cur, c :: rest =>
      if skipLF && c == '\n' then readLinesFrom false cur rest
      else if c = '\n' then cur.reverse :: readLinesFrom false [] rest
      else if c = '\r' then cur.reverse :: readLinesFrom true [] rest
      else readLinesFrom false (c :: cur) rest

/-- What `readLine` returns one after the other: a line ends at LF, CR or CRLF, and the
last one may also end with the text. -/
def readLines (text : JString) : List JString := readLinesFrom false [] text

/-- Without CR and LF. -/
def Unbroken (s : JString) : Prop := '\r' ∉ s ∧ '\n' ∉ s

theorem unbroken_append {s t : JString} : Unbroken (s ++ t) ↔ Unbroken s ∧ Unbroken t := by
  unfold Unbroken
  simp only [List.mem_append, not_or]
  tauto

theorem unbroken_reverse {s : JString} : Unbroken s.reverse ↔ Unbroken s := by
  simp [Unbroken]

theorem unbroken_readLinesFrom :
    ∀ (text : JString) (skipLF : Bool) (cur : JString), Unbroken cur →
      ∀ l ∈ readLinesFrom skipLF cur text, Unbroken l := by
  intro text
  induction text with
  | nil =>
      intro skipLF cur hcur l hl
      simp only [readLinesFrom] at hl
      split at hl
      next _ => simp at hl
      next _ =>
        rw [List.mem_singleton.mp hl]
        exact unbroken_reverse.mpr hcur
  | cons c rest ih =>
      intro skipLF cur hcur l hl
      have hnil : Unbroken [] := ⟨by simp, by simp⟩
      -- a line that is ended here, or one of the rest
      have hend : ∀ skip, l ∈ cur.reverse :: readLinesFrom skip [] rest → Unbroken l := by
        intro skip hmem
        rcases List.mem_cons.mp hmem with rfl | hmem
        · exact unbroken_reverse.mpr hcur
        · exact ih skip [] hnil l hmem
      simp only [readLinesFrom] at hl
      split_ifs at hl with hskip hlf hcr
      · exact ih false cur hcur l hl
      · exact hend false hl
      · exact hend true hl
      · refine ih false (c :: cur) ?_ l hl
        exact ⟨by simp [hcur.1, Ne.symm hcr], by simp [hcur.2, Ne.symm hlf]⟩

/-- **A line has no line break in it.** -/
theorem unbroken_of_mem_readLines {text l : JString} (h : l ∈ readLines text) : Unbroken l :=
  unbroken_readLinesFrom text false [] ⟨by simp, by simp⟩ l h

/-- Its characters are characters of the text. -/
theorem mem_of_mem_readLinesFrom {c : Char} :
    ∀ (text : JString) (skipLF : Bool) (cur : JString),
      ∀ l ∈ readLinesFrom skipLF cur text, c ∈ l → c ∈ cur ∨ c ∈ text := by
  intro text
  induction text with
  | nil =>
      intro skipLF cur l hl hc
      simp only [readLinesFrom] at hl
      split at hl
      next _ => simp at hl
      next _ =>
        rw [List.mem_singleton.mp hl, List.mem_reverse] at hc
        exact Or.inl hc
  | cons b rest ih =>
      intro skipLF cur l hl hc
      have hend : ∀ skip, l ∈ cur.reverse :: readLinesFrom skip [] rest →
          c ∈ cur ∨ c ∈ b :: rest := by
        intro skip hmem
        rcases List.mem_cons.mp hmem with rfl | hmem
        · exact Or.inl (List.mem_reverse.mp hc)
        · rcases ih skip [] l hmem hc with h | h
          · simp at h
          · exact Or.inr (List.mem_cons_of_mem b h)
      simp only [readLinesFrom] at hl
      split_ifs at hl with hskip hlf hcr
      · rcases ih false cur l hl hc with h | h
        · exact Or.inl h
        · exact Or.inr (List.mem_cons_of_mem b h)
      · exact hend false hl
      · exact hend true hl
      · rcases ih false (b :: cur) l hl hc with h | h
        · rcases List.mem_cons.mp h with h | h
          · exact Or.inr (by simp [h])
          · exact Or.inl h
        · exact Or.inr (List.mem_cons_of_mem b h)

theorem mem_of_mem_readLines {text l : JString} (h : l ∈ readLines text) {c : Char} (hc : c ∈ l) :
    c ∈ text :=
  (mem_of_mem_readLinesFrom text false [] l h hc).resolve_left (by simp)

/-- Characters that are no line break join the current line. -/
theorem readLinesFrom_unbroken (rest : JString) :
    ∀ (l cur : JString), Unbroken l →
      readLinesFrom false cur (l ++ rest) = readLinesFrom false (l.reverse ++ cur) rest := by
  intro l
  induction l with
  | nil => intro cur _; rfl
  | cons c l ih =>
      intro cur hl
      obtain ⟨hcr, hlf⟩ := hl
      have hc : c ≠ '\n' ∧ c ≠ '\r' :=
        ⟨fun h => hlf (by simp [h]), fun h => hcr (by simp [h])⟩
      have hrest : Unbroken l :=
        ⟨fun h => hcr (List.mem_cons_of_mem c h), fun h => hlf (List.mem_cons_of_mem c h)⟩
      rw [List.cons_append, readLinesFrom, Bool.false_and, if_neg Bool.false_ne_true,
        if_neg hc.1, if_neg hc.2, ih (c :: cur) hrest, List.reverse_cons, List.append_assoc]
      rfl

/-- **A line written with a CRLF is read back.** -/
theorem readLines_crlf {l : JString} (hl : Unbroken l) (rest : JString) :
    readLines (l ++ '\r' :: '\n' :: rest) = l :: readLines rest := by
  unfold readLines
  rw [readLinesFrom_unbroken _ l [] hl, List.append_nil]
  show l.reverse.reverse :: readLinesFrom false [] rest = _
  rw [List.reverse_reverse]

/-- So is one at the end of the text, unless it is empty. -/
theorem readLines_last {l : JString} (hl : Unbroken l) (hne : l ≠ []) : readLines l = [l] := by
  have h := readLinesFrom_unbroken [] l [] hl
  rw [List.append_nil, List.append_nil] at h
  unfold readLines
  rw [h, readLinesFrom, if_neg (by simpa using hne), List.reverse_reverse]

end NginxNettyHls.Java
