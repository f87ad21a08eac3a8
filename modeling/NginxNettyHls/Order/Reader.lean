/-
  NginxNettyHls.Order.Reader
  ──────────────────────────
  **READING A LINE OF ITEMS THROUGH NUMBERED WINDOWS.**

  A `Reader` is shown windows of a line, each with the number of its first item,
  and remembers the number it wants next.  Of a window it takes the items it
  does not have yet; a window that starts beyond what it wants makes it jump.

  `Reads.load`: as long as no window starts beyond what is wanted, the reader has
  taken one unbroken piece of the line, every item of it once.
-/
import Mathlib.Data.Int.Order.Basic
import Mathlib.Tactic.Common

namespace Order

variable {α : Type}

/-- What has been taken so far, and the number wanted next; before the first
window any number is. -/
structure Reader (α : Type) where
  next : Option Int
  taken : List α
  deriving Repr, DecidableEq

namespace Reader

def start : Reader α := ⟨none, []⟩

/-- Show the reader the window `items`, whose first item has number `n`. -/
def load (r : Reader α) (n : Int) (items : List α) : Reader α :=
  if items.isEmpty then r
  else match r.next with
    | none => ⟨some (n + items.length), r.taken ++ items⟩
    | some k => ⟨some (max k (n + items.length)), r.taken ++ items.drop (k - n).toNat⟩

theorem load_nil (r : Reader α) (n : Int) : r.load n [] = r := rfl

/-- The reader wants number `k`, and has taken the `k` items of the line from place
`f` on. -/
structure Reads (line : List α) (f k : Nat) (r : Reader α) : Prop where
  next : r.next = some (k : Int)
  taken : r.taken = (line.drop f).take k
  le : f + k ≤ line.length

/-- The items of a window that begins at `i`, as far as the window goes. -/
theorem window_eq {line items : List α} {hi i w : Nat}
    (h : items = ((line.take hi).drop i).take w) :
    items = (line.drop i).take items.length ∧ (items ≠ [] → i + items.length ≤ line.length) := by
  have htake : items = (line.drop i).take (min (hi - i) w) := by
    rw [h, List.drop_take, List.take_take, Nat.min_comm]
  have hlen : items.length = min (min (hi - i) w) (line.length - i) := by
    conv_lhs => rw [htake]
    rw [List.length_take, List.length_drop]
  constructor
  · conv_lhs => rw [htake]
    rw [hlen, ← List.length_drop, ← List.take_eq_take_min]
  · intro hne
    have hpos : 0 < items.length := List.length_pos_iff.mpr hne
    omega

/-- **The first window** fixes where the piece begins. -/
theorem reads_first {line items : List α} {hi f w : Nat}
    (h : items = ((line.take hi).drop f).take w) (hne : items ≠ []) :
    Reads line f items.length (start.load 0 items) := by
  obtain ⟨heq, hle⟩ := window_eq h
  have hempty : items.isEmpty = false := List.isEmpty_eq_false_iff.mpr hne
  refine ⟨?_, ?_, hle hne⟩
  · simp [load, start, hempty]
  · simpa [load, start, hempty] using heq

/-- **A later window** that begins at or before what is wanted continues the piece. -/
theorem Reads.load {line items : List α} {r : Reader α} {f k hi q w : Nat}
    (hr : Reads line f k r) (h : items = ((line.take hi).drop (f + q)).take w) (hq : q ≤ k)
    (hne : items ≠ []) :
    Reads line f (max k (q + items.length)) (r.load q items) := by
  obtain ⟨heq, hle⟩ := window_eq h
  have hlen := hle hne
  have hempty : items.isEmpty = false := List.isEmpty_eq_false_iff.mpr hne
  have hnat : ((k : Int) - q).toNat = k - q := by omega
  have hload : r.load q items
      = ⟨some (max (k : Int) (q + items.length)), r.taken ++ items.drop (k - q)⟩ := by
    simp [Reader.load, hempty, hr.next, hnat]
  rw [hload]
  refine ⟨congrArg some (by omega), ?_, ?_⟩
  · -- the items past number `k` are the line from there on
    have hdrop : items.drop (k - q) = ((line.drop f).drop k).take (q + items.length - k) := by
      have hplace : f + q + (k - q) = f + k := by omega
      have hcount : items.length - (k - q) = q + items.length - k := by omega
      conv_lhs => rw [heq]
      rw [List.drop_take, List.drop_drop, List.drop_drop, hplace, hcount]
    rw [hr.taken, hdrop]
    have hmax : max k (q + items.length) = k + (q + items.length - k) := by omega
    rw [hmax, List.take_add]
  · have := hr.le
    omega

end Reader

end Order
