/-
  NginxNettyHls.M3u8Filter.SeekTime
  ─────────────────────────────────
  **THE ARITHMETIC OF A SEEK**, against unbounded integers.

  A first request names an offset of six digits (`hhmmss`); its response should
  list the first three segments newer than the clock less that offset.  The code
  takes six characters of any kind, adds them up in 32 bits, casts the 64-bit
  difference to 32 bits and compares by a 32-bit difference.

    • `transform2TimeOffset_of_hhmmss` — on six digits the sum is exact;
    • `passes_iff_exact`, `exactAfter_of_passes` — the cast and the comparison
      together are exact on all segment times for the start times of
      `ExactAfter`, and for no others;
    • `seek_exact_iff` — the seek is exact on every playlist that the 32-bit
      index can count, exactly for the inputs of `SeekSound`.
-/
import NginxNettyHls.M3u8Filter.Channel
import NginxNettyHls.M3u8Filter.SegmentNames
import NginxNettyHls.Text.Json

namespace NginxNettyHls.M3u8Filter

open NginxNettyHls.Java
open Text

/-! ## §1. Six digits. -/

/-- The value of a digit. -/
def digitOf (c : Char) : Int := c.toNat - 48

/-- The seconds that six ASCII digits `HHMMSS` stand for. -/
def hhmmss : JString → Option Int
  | [h, h', m, m', s, s'] =>
      if [h, h', m, m', s, s'].all Char.isDigit then
        some (3600 * (10 * digitOf h + digitOf h') + 60 * (10 * digitOf m + digitOf m')
          + (10 * digitOf s + digitOf s'))
      else none
  | _ => none

theorem utf16Units_digit {c : Char} (hc : c.isDigit = true) : utf16Units c = [(c.toNat : Int)] := by
  have h : c.toNat ≤ 57 := by
    simp only [Char.isDigit, Bool.and_eq_true, decide_eq_true_eq] at hc
    exact hc.2
  unfold utf16Units
  rw [if_pos (by omega)]

theorem digitOf_range {c : Char} (hc : c.isDigit = true) : 0 ≤ digitOf c ∧ digitOf c ≤ 9 := by
  have h : 48 ≤ c.toNat ∧ c.toNat ≤ 57 := by
    simp only [Char.isDigit, Bool.and_eq_true, decide_eq_true_eq] at hc
    exact hc
  unfold digitOf
  omega

/-- **On six digits the 32-bit sum is the offset.** -/
theorem transform2TimeOffset_of_hhmmss {seekTime : JString} {offset : Int}
    (h : hhmmss seekTime = some offset) : transform2TimeOffset seekTime = .ok offset := by
  unfold hhmmss at h
  split at h
  next h1 h2 m1 m2 s1 s2 =>
    split_ifs at h with hall
    simp only [List.all_cons, List.all_nil, Bool.and_true, Bool.and_eq_true] at hall
    obtain ⟨d1, d2, d3, d4, d5, d6⟩ := hall
    have r1 := digitOf_range d1
    have r2 := digitOf_range d2
    have r3 := digitOf_range d3
    have r4 := digitOf_range d4
    have r5 := digitOf_range d5
    have r6 := digitOf_range d6
    have hchars : toCharArray [h1, h2, m1, m2, s1, s2]
        = [(h1.toNat : Int), h2.toNat, m1.toNat, m2.toNat, s1.toNat, s2.toNat] := by
      simp only [toCharArray, List.flatMap_cons, List.flatMap_nil, utf16Units_digit, d1, d2, d3,
        d4, d5, d6]
      rfl
    unfold transform2TimeOffset
    rw [hchars]
    simp only [Option.some.injEq] at h
    unfold digitOf at h r1 r2 r3 r4 r5 r6
    dsimp only
    rw [toInt32_of_range (x := ((h1.toNat - 48) * 10 + h2.toNat - 48) * 3600) (by omega) (by omega)]
    rw [toInt32_of_range (x := 0 + _) (by omega) (by omega)]
    rw [toInt32_of_range (x := _ + ((m1.toNat - 48) * 10 + m2.toNat - 48) * 60) (by omega)
      (by omega)]
    rw [toInt32_of_range (by omega) (by omega), ← h]
    congr 1
    omega
  next => simp at h

/-! ## §2. The cast and the comparison. -/

/-- The start times for which the 32-bit code compares every segment time exactly: the
`int`s from zero on, and the two residues for which it selects nothing at all. -/
def ExactAfter (start : Int) : Prop :=
  0 ≤ start ∧ (start < 2 ^ 31 ∨ start % 2 ^ 32 = 2 ^ 31 - 1 ∨ start % 2 ^ 32 = 2 ^ 31)

/-- The cast from `long` to `int` forgets the wrap of the `long`. -/
theorem toInt32_toInt64 (x : Int) : toInt32 (toInt64 x) = toInt32 x := by
  unfold toInt32 toInt64
  exact Int.bmod_bmod_of_dvd (by norm_num)

theorem toInt32_congr (x : Int) : ∃ k, x = toInt32 x + k * 2 ^ 32 := by
  have h := Int.emod_add_mul_ediv (x - toInt32 x) (2 ^ 32)
  have hmod : (x - toInt32 x) % 2 ^ 32 = 0 := by
    unfold toInt32
    have hx := @Int.bmod_emod x (2 ^ 32)
    norm_num at hx ⊢
    omega
  exact ⟨(x - toInt32 x) / 2 ^ 32, by omega⟩

/-- The test of the code, on the start time in unbounded integers. -/
def passes (start t : Int) : Prop := 0 < toInt32 (t - toInt32 start)

theorem passes_iff_exact {start : Int} (hs : ExactAfter start) {t : Int} (ht : 0 ≤ t)
    (ht' : t < 2 ^ 31) : passes start t ↔ start < t := by
  obtain ⟨k, hk⟩ := toInt32_congr start
  have ha := isInt32_toInt32 start
  unfold passes
  rw [toInt32_sub_pos_iff ht ht' ha]
  unfold IsInt32 at ha
  obtain ⟨h0, hs⟩ := hs
  generalize toInt32 start = a at *
  omega

/-- **No other start time is compared exactly.** -/
theorem exactAfter_of_passes {start : Int}
    (h : ∀ t : Int, 0 ≤ t → t < 2 ^ 31 → (passes start t ↔ start < t)) : ExactAfter start := by
  obtain ⟨k, hk⟩ := toInt32_congr start
  have ha := isInt32_toInt32 start
  have hcode : ∀ t : Int, 0 ≤ t → t < 2 ^ 31 →
      (toInt32 start < t ∧ t - toInt32 start < 2 ^ 31 ↔ start < t) := by
    intro t ht ht'
    rw [← toInt32_sub_pos_iff ht ht' ha]
    exact h t ht ht'
  unfold IsInt32 at ha
  generalize toInt32 start = a at *
  have hfirst := hcode 0 (by omega) (by omega)
  have hlast := hcode (2 ^ 31 - 1) (by omega) (by omega)
  unfold ExactAfter
  by_cases hneg : start < 0
  · -- every segment should pass, but not both the first and the last one do
    omega
  · refine ⟨by omega, ?_⟩
    by_cases hsmall : start < 2 ^ 31
    · exact Or.inl hsmall
    · -- no segment should pass
      by_cases hmax : 0 ≤ a ∧ a < 2 ^ 31 - 1
      · have hnext := hcode (a + 1) (by omega) (by omega)
        omega
      · omega

/-! ## §3. A segment for every time. -/

def digitChar (d : Nat) : Char := Char.ofNat (48 + d)

/-- The name of a segment with the time `n`. -/
def segmentName (n : Nat) : JString :=
  "a".toList ++ '-' :: ((Json.decimal n).map digitChar ++ ".ts".toList)

theorem digitChar_spec : ∀ d < 10, digit (digitChar d) = some d ∧ 48 ≤ (digitChar d).toNat
    ∧ digitChar d ≠ '-' ∧ digitChar d ≠ '.' ∧ digitChar d ≠ '#' := by
  decide

theorem digitsValue_digits :
    ∀ (ds : List Nat) (acc : Nat), (∀ d ∈ ds, d < 10) →
      digitsValue acc (ds.map digitChar) = some (ds.foldl (fun a d => 10 * a + d) acc) := by
  intro ds
  induction ds with
  | nil => intro acc _; rfl
  | cons d ds ih =>
      intro acc h
      have hd := (digitChar_spec d (h d List.mem_cons_self)).1
      rw [List.map_cons, digitsValue, hd, Nat.mul_comm acc 10]
      exact ih _ (fun d' hd' => h d' (List.mem_cons_of_mem d hd'))

theorem parseInt_decimal {n : Nat} (hn : n < 2 ^ 31) :
    parseInt ((Json.decimal n).map digitChar) = some (n : Int) := by
  have hvalue : digitsValue 0 ((Json.decimal n).map digitChar) = some n := by
    rw [digitsValue_digits _ _ (Json.decimal_lt n), Json.foldl_decimal]
  obtain ⟨d, ds, hds⟩ : ∃ d ds, Json.decimal n = d :: ds := by
    cases h : Json.decimal n with
    | cons d ds => exact ⟨d, ds, rfl⟩
    | nil =>
        unfold Json.decimal at h
        split_ifs at h with h0
        exact absurd (List.reverse_eq_nil_iff.mp h) (Nat.digits_ne_nil_iff_ne_zero.mpr h0)
  have hd := (digitChar_spec d (Json.decimal_lt n d (hds ▸ List.mem_cons_self))).2.1
  rw [hds, List.map_cons] at hvalue ⊢
  rw [parseInt, if_neg (by omega), hvalue, Option.bind_some, if_pos hn]

theorem mem_digits {n : Nat} {c : Char} (h : c ∈ (Json.decimal n).map digitChar) :
    c ≠ '-' ∧ c ≠ '.' ∧ c ≠ '#' := by
  obtain ⟨d, hd, rfl⟩ := List.mem_map.mp h
  exact (digitChar_spec d (Json.decimal_lt n d hd)).2.2

theorem getTsTime_segmentName {n : Nat} (hn : n < 2 ^ 31) :
    getTsTime (segmentName n) = .ok (n : Int) := by
  have hfield : ((Json.decimal n).map digitChar ++ ".ts".toList).takeWhile (· != '-')
      = (Json.decimal n).map digitChar ++ ".ts".toList := by
    rw [List.takeWhile_eq_self_iff]
    intro c hc
    rcases List.mem_append.mp hc with hc | hc
    · simpa using (mem_digits hc).1
    · have hts : ∀ c ∈ ".ts".toList, (c != '-') = true := by simp
      exact hts c hc
  have hdash : ¬ ((Json.decimal n).map digitChar ++ ".ts".toList).all (· == '-') = true :=
    fun h => absurd (all_beq_iff.mp h 's' (by simp)) (by decide)
  have hdots : ¬ ((Json.decimal n).map digitChar ++ ".ts".toList ≠ []
      ∧ ((Json.decimal n).map digitChar ++ ".ts".toList).all (· == '.') = true) :=
    fun h => absurd (all_beq_iff.mp h.2 's' (by simp)) (by decide)
  have hnumber : ((Json.decimal n).map digitChar ++ ".ts".toList).takeWhile (· != '.')
      = (Json.decimal n).map digitChar :=
    takeWhile_append_sep (fun h => (mem_digits h).2.1 rfl) "ts".toList
  unfold segmentName
  rw [getTsTime_dash (by decide)]
  unfold fieldTime
  rw [if_neg hdash]
  dsimp only
  rw [hfield, if_neg hdots, hnumber, parseInt_decimal hn]

theorem lineKind_segmentName (n : Nat) : lineKind (segmentName n) = .segment := by
  rw [← isSegmentLine_iff]
  have hhash : '#' ∉ segmentName n := by
    unfold segmentName
    intro h
    rcases List.mem_append.mp h with h | h
    · exact absurd h (by decide)
    · rcases List.mem_cons.mp h with h | h
      · exact absurd h (by decide)
      · rcases List.mem_append.mp h with h | h
        · exact (mem_digits h).2.2 rfl
        · exact absurd h (by decide)
  unfold isSegmentLine isExtinfLine contains
  rw [Bool.and_eq_true, Bool.not_eq_true', decide_eq_true_eq, decide_eq_false_iff_not]
  constructor
  · exact ⟨"a".toList ++ '-' :: (Json.decimal n).map digitChar, [], by simp [segmentName]⟩
  · intro hmark
    exact hhash (hmark.subset (by decide))

theorem tsSegments_segmentName {n : Nat} (hn : n < 2 ^ 31) :
    tsSegments none [segmentName n] = ([⟨none, segmentName n, n⟩], none) := by
  simp only [tsSegments, lineKind_segmentName, getTsTime_segmentName hn]

/-! ## §4. The seek. -/

/-- The property of one seek at the clock `clock`: a string that is accepted is six
digits, and the response lists the first three segments newer than the clock less
them. -/
def ListsExactly (clock : Int) (seekTime : JString) (lines : List JString) : Prop :=
  ∀ absoluteTime, transformAbsoluteTime clock seekTime = .ok absoluteTime →
    ∃ offset, hhmmss seekTime = some offset
      ∧ ∀ (timestamp : JString) (query : Option JString), (tsSegments none lines).2 = none →
        (m3u8PlayseekFilter timestamp query absoluteTime (.opened lines .eof)).result.map listed
          = .ok (((tsSegments none lines).1.filter (fun g => clock - offset < g.time)).take 3)

/-- The string is refused, or it is six digits and the start time is one the code compares
exactly. -/
def SeekSound (clock : Int) (seekTime : JString) : Prop :=
  (toCharArray seekTime).length = 6 →
    ∃ offset, hhmmss seekTime = some offset ∧ ExactAfter (clock - offset)

theorem transformAbsoluteTime_of_hhmmss (clock : Int) {seekTime : JString} {offset : Int}
    (h : hhmmss seekTime = some offset) :
    transformAbsoluteTime clock seekTime = .ok (toInt32 (clock - offset)) := by
  unfold transformAbsoluteTime
  rw [transform2TimeOffset_of_hhmmss h, Except.map, toInt32_toInt64]

/-- The segments of a response, for any start time the code has computed. -/
theorem listed_seek (timestamp : JString) (query : Option JString) (a : Int)
    {lines : List JString} (hok : (tsSegments none lines).2 = none) :
    (m3u8PlayseekFilter timestamp query a (.opened lines .eof)).result.map listed
      = .ok (shown 0 (selected a (tsSegments none lines).1)) := by
  obtain ⟨ei, sb, hloop, hlisted, -, -⟩ :=
    (seekFilter timestamp query a).loop_ok rfl lines ⟨none, 0, []⟩ hok
  have hout := seekFilter_out timestamp query a (tsSegments none lines).1 0
  simp only [m3u8PlayseekFilter, hloop, Except.map, ReadEnd.raise, List.nil_append]
  rw [hlisted, ← listed_map_entry (shown 0 _) query]
  exact congrArg (fun out => Except.ok (listed out)) hout

/-- What the code selects after a start time it compares exactly. -/
theorem selected_exact {start : Int} (hs : ExactAfter start) (lines : List JString) :
    selected (toInt32 start) (tsSegments none lines).1
      = (tsSegments none lines).1.filter (fun g => start < g.time) := by
  apply List.filter_congr
  intro g hg
  obtain ⟨h0, h1⟩ := tsSegments_range lines none g hg
  rw [decide_eq_decide]
  exact passes_iff_exact hs h0 h1

/-- **With sound inputs a seek is exact** as long as the index counts the selected
segments. -/
theorem listsExactly_iff_of_sound {clock : Int} {seekTime : JString} {offset : Int}
    (hoff : hhmmss seekTime = some offset) (hs : ExactAfter (clock - offset))
    {lines : List JString} (hok : (tsSegments none lines).2 = none) :
    ListsExactly clock seekTime lines
      ↔ ((tsSegments none lines).1.filter (fun g => clock - offset < g.time)).length
        ≤ 2 ^ 31 := by
  have htime := transformAbsoluteTime_of_hhmmss clock hoff
  rw [← length_shown_le_iff]
  constructor
  · intro h
    obtain ⟨offset', hoff', hlist⟩ := h _ htime
    obtain rfl : offset = offset' := Option.some.inj (hoff.symm.trans hoff')
    have hshown := (listed_seek [] none (toInt32 (clock - offset)) hok).symm.trans
      (hlist [] none hok)
    rw [selected_exact hs, Except.ok.injEq] at hshown
    rw [hshown]
    exact List.length_take_le 3 _
  · intro hlen absoluteTime ha
    obtain rfl : toInt32 (clock - offset) = absoluteTime := Except.ok.inj (htime.symm.trans ha)
    refine ⟨offset, hoff, fun timestamp query _ => ?_⟩
    rw [listed_seek timestamp query _ hok, selected_exact hs,
      shown_eq_take _ 0 (by rw [Nat.zero_add]; exact (length_shown_le_iff _).mp hlen)]

/-- A single segment shows whether its time is compared exactly. -/
theorem passes_of_listsExactly {clock : Int} {seekTime : JString} {offset : Int}
    (hoff : hhmmss seekTime = some offset) {t : Int} (ht : 0 ≤ t) (ht' : t < 2 ^ 31)
    (h : ListsExactly clock seekTime [segmentName t.toNat]) :
    passes (clock - offset) t ↔ clock - offset < t := by
  have hn : t.toNat < 2 ^ 31 := by omega
  have hread := tsSegments_segmentName hn
  rw [Int.toNat_of_nonneg ht] at hread
  obtain ⟨offset', hoff', hlist⟩ := h _ (transformAbsoluteTime_of_hhmmss clock hoff)
  obtain rfl : offset = offset' := Option.some.inj (hoff.symm.trans hoff')
  have hshown := (listed_seek [] none (toInt32 (clock - offset)) (by rw [hread])).symm.trans
    (hlist [] none (by rw [hread]))
  have hone : (selected (toInt32 (clock - offset)) [⟨none, segmentName t.toNat, t⟩]).length ≤ 1 :=
    List.length_filter_le _ _
  rw [hread, Except.ok.injEq] at hshown
  dsimp only at hshown
  rw [shown_eq_take _ 0 (by omega)] at hshown
  unfold passes
  by_cases hpass : 0 < toInt32 (t - toInt32 (clock - offset))
  · by_cases hnew : clock - offset < t
    · exact iff_of_true hpass hnew
    · simp [selected, hpass, hnew] at hshown
  · by_cases hnew : clock - offset < t
    · simp [selected, hpass, hnew] at hshown
    · exact iff_of_false hpass hnew

/-- **When a seek is exact.**  On every playlist the index can count it is exactly when
the string is refused, or is six digits with a start time of `ExactAfter`; with such
inputs a playlist is listed exactly when the index can count its newer segments. -/
theorem seek_exact_iff (clock : Int) (seekTime : JString) :
    ((∀ lines, (tsSegments none lines).1.length ≤ 2 ^ 31 → ListsExactly clock seekTime lines)
        ↔ SeekSound clock seekTime)
      ∧ ∀ offset, hhmmss seekTime = some offset → ExactAfter (clock - offset) →
        ∀ lines, (tsSegments none lines).2 = none →
          (ListsExactly clock seekTime lines
            ↔ ((tsSegments none lines).1.filter (fun g => clock - offset < g.time)).length
              ≤ 2 ^ 31) := by
  refine ⟨⟨?_, ?_⟩, fun offset hoff hs lines hok => listsExactly_iff_of_sound hoff hs hok⟩
  · intro h h6
    obtain ⟨a, ha⟩ := (transformAbsoluteTime_ok_iff clock seekTime).mpr h6
    obtain ⟨offset, hoff, -⟩ := h [] (by simp [tsSegments]) a ha
    refine ⟨offset, hoff, exactAfter_of_passes (fun t ht ht' => ?_)⟩
    have hsmall : (tsSegments none [segmentName t.toNat]).1.length ≤ 2 ^ 31 := by
      rw [tsSegments_segmentName (by omega)]
      simp
    exact passes_of_listsExactly hoff ht ht' (h _ hsmall)
  · intro h lines hlen a ha
    obtain ⟨offset, hoff, hs⟩ := h ((transformAbsoluteTime_ok_iff clock seekTime).mp ⟨a, ha⟩)
    refine ⟨offset, hoff, fun timestamp query hok => ?_⟩
    have hfew : ((tsSegments none lines).1.filter (fun g => clock - offset < g.time)).length
        ≤ 2 ^ 31 := le_trans (List.length_filter_le _ _) hlen
    obtain ⟨offset', hoff', hlist⟩ := (listsExactly_iff_of_sound hoff hs hok).mpr hfew a ha
    obtain rfl : offset = offset' := Option.some.inj (hoff.symm.trans hoff')
    exact hlist timestamp query hok

/-- **A colon is taken for a digit**: the seek ten seconds back is answered. -/
theorem colon_accepted :
    hhmmss "00000:".toList = none
      ∧ transformAbsoluteTime 1508153152 "00000:".toList = .ok 1508153142 := by
  decide +kernel

end NginxNettyHls.M3u8Filter
