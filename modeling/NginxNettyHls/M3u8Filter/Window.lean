/-
  NginxNettyHls.M3u8Filter.Window
  ───────────────────────────────
  **WHICH SEGMENTS THE PLAYSEEK FILTERS SELECT**, in closed form.

  The abstract picture: a response shows a WINDOW of at most three segments of
  an increasing playlist.

    • The first response takes the segments that pass its comparison with
      `absolute_time` (`selected`), writes the session of the first of them and
      shows the first three (`seekFilter_over`).
    • A follow-up whose `last_time` is in the playlist takes the segments newer
      than it: the first one becomes the new `last_time`, the number is one
      more, and the first three are shown; with none newer the old number is
      repeated and nothing is written (`sessionFilter_present`).
    • A follow-up whose `last_time` has left the playlist shows the first newer
      segment BEFORE any number and behaves for the rest as if that segment had
      been its `last_time` (`sessionFilter_absent`).

  The loop index is an `int`; increasing segment times are distinct
  non-negative `int`s, so it never overflows here.
-/
import NginxNettyHls.M3u8Filter.Filters
import NginxNettyHls.Order.Increasing

namespace NginxNettyHls.M3u8Filter

open NginxNettyHls.Java
open Order

/-! ## §1. Times in range. -/

/-- The time is one `get_ts_time` can return. -/
def Segment.InRange (g : Segment) : Prop := 0 ≤ g.time ∧ g.time < 2 ^ 31

/-- The segments newer than `t`. -/
abbrev newer (t : Int) (gs : List Segment) : List Segment := above Segment.time t gs

/-- The segments that pass the test `ts_time - absolute_time > 0`. -/
def selected (absoluteTime : Int) (gs : List Segment) : List Segment :=
  gs.filter (fun g => 0 < toInt32 (g.time - absoluteTime))

theorem selected_cons_of_pass {a : Int} {g : Segment} (h : 0 < toInt32 (g.time - a))
    (gs : List Segment) : selected a (g :: gs) = g :: selected a gs :=
  List.filter_cons_of_pos (by simpa using h)

theorem selected_cons_of_fail {a : Int} {g : Segment} (h : ¬ 0 < toInt32 (g.time - a))
    (gs : List Segment) : selected a (g :: gs) = selected a gs :=
  List.filter_cons_of_neg (by simpa using h)

/-- A segment that does not pass leaves everything as it is. -/
theorem seekSegment_of_fail (timestamp : JString) (query : Option JString) {a : Int}
    (index : Int) {g : Segment} (h : ¬ 0 < toInt32 (g.time - a)) :
    seekSegment timestamp query a index g = ⟨index, none, []⟩ := by
  unfold seekSegment
  rw [if_neg h]

/-- The entries a response shows for some segments. -/
abbrev entries (query : Option JString) (gs : List Segment) : List Piece :=
  gs.map (Piece.entry · query)

/-- An increasing list of segments newer than a non-negative time fits an `int`
index. -/
theorem length_lt_of_newer {t : Int} {gs : List Segment} (ht : 0 ≤ t)
    (hinc : Increasing Segment.time gs) (hr : ∀ g ∈ gs, g.InRange)
    (hnew : ∀ g ∈ gs, t < g.time) : (gs.length : Int) < 2 ^ 31 := by
  by_cases hne : gs = []
  · subst hne
    norm_num
  · obtain ⟨g, hg⟩ := List.exists_mem_of_ne_nil gs hne
    have hg' := hnew g hg
    have hgr := (hr g hg).2
    have h := Increasing.length_le gs (t + 1) (2 ^ 31) hinc
      (fun x hx => ⟨by have := hnew x hx; omega, (hr x hx).2⟩) (by omega)
    omega

/-- An increasing list of selected segments fits an `int` index, whatever
`absolute_time` is. -/
theorem length_selected_lt {a : Int} {gs : List Segment} (ha : IsInt32 a)
    (hinc : Increasing Segment.time gs) (hr : ∀ g ∈ gs, g.InRange) :
    ((selected a gs).length : Int) < 2 ^ 31 := by
  have hsub : (selected a gs).Sublist gs := List.filter_sublist
  have hinc' := hinc.sublist hsub
  have hr' : ∀ g ∈ selected a gs, g.InRange := fun g hg => hr g (hsub.subset hg)
  have hpass : ∀ g ∈ selected a gs, a < g.time ∧ g.time - a < 2 ^ 31 := by
    intro g hg
    have hg' := (List.mem_filter.mp hg).2
    rw [decide_eq_true_eq, toInt32_sub_pos_iff (hr' g hg).1 (hr' g hg).2 ha] at hg'
    exact hg'
  by_cases ha0 : 0 ≤ a
  · exact length_lt_of_newer ha0 hinc' hr' (fun g hg => (hpass g hg).1)
  · -- below zero the comparison wraps: only times under `2 ^ 31 + a` pass
    have h := Increasing.length_le (selected a gs) 0 (2 ^ 31 - 1) hinc'
      (fun g hg => ⟨(hr' g hg).1, by have := (hpass g hg).2; omega⟩) (by norm_num)
    omega

/-- The `index < 3` of both filters: a segment at index `i` and what is left of the
first three after it. -/
theorem entries_take (query : Option JString) (g : Segment) (gs : List Segment) (i : Nat) :
    (if i < 3 then [Piece.entry g query] else []) ++ entries query (gs.take (3 - (i + 1)))
      = entries query ((g :: gs).take (3 - i)) := by
  by_cases hi3 : i < 3
  · have h3 : 3 - i = (3 - (i + 1)) + 1 := by omega
    rw [if_pos hi3, h3, List.take_succ_cons]
    rfl
  · have h3 : 3 - i = 0 := by omega
    have h3' : 3 - (i + 1) = 0 := by omega
    rw [if_neg hi3, h3, h3']
    rfl

/-! ## §2. The first response. -/

/-- The session `m3u8_playseek_filter` stores for its first segment. -/
def newSession (timestamp : JString) (g : Segment) : SessionDef := ⟨some timestamp, g.time, 0⟩

/-- **The first response**: from index `i` on it shows what is left of the first
three selected segments, and the session is written for the one at index 0. -/
theorem seekFilter_over (timestamp : JString) (query : Option JString) (a : Int) :
    ∀ (gs : List Segment) (i : Nat), ((i + (selected a gs).length : Nat) : Int) < 2 ^ 31 →
      ((seekFilter timestamp query a).over (i : Int) gs).out
          = entries query ((selected a gs).take (3 - i))
        ∧ ((seekFilter timestamp query a).over (i : Int) gs).puts
          = if i = 0 then (selected a gs).head?.toList.map (newSession timestamp) else [] := by
  intro gs
  induction gs with
  | nil => intro i _; simp [Filter.over, selected]
  | cons g gs ih =>
      intro i hi
      by_cases hg : 0 < toInt32 (g.time - a)
      · rw [selected_cons_of_pass hg] at hi ⊢
        rw [List.length_cons] at hi
        have hturn : (seekFilter timestamp query a).onSegment (i : Int) g
            = ⟨((i + 1 : Nat) : Int), if i = 0 then some (newSession timestamp g) else none,
               if i < 3 then [.entry g query] else []⟩ := by
          show seekSegment timestamp query a (i : Int) g = _
          unfold seekSegment
          rw [if_pos hg, toInt32_of_range (by omega) (by push_cast at hi ⊢; omega)]
          simp only [Int.natCast_eq_zero, Nat.cast_lt_ofNat, Nat.cast_succ, newSession]
        obtain ⟨hout, hputs⟩ := ih (i + 1) (by push_cast at hi ⊢; omega)
        simp only [Filter.over, hturn, hout, hputs]
        constructor
        · exact entries_take query g (selected a gs) i
        · -- only index 0 writes, and the index never comes back to it
          by_cases hi0 : i = 0
          · subst hi0
            rfl
          · simp [hi0]
      · rw [selected_cons_of_fail hg] at hi ⊢
        have hturn : (seekFilter timestamp query a).onSegment (i : Int) g
            = ⟨(i : Int), none, []⟩ := seekSegment_of_fail timestamp query i hg
        simp only [Filter.over, hturn]
        exact ih i hi

/-! ## §3. The phases of a follow-up. -/

/-- The segment at `last_time` is counted and not shown. -/
theorem sessionSegment_at (query : Option JString) (v : SessionVars) {g : Segment}
    (hg : g.time = v.session.lastTime) :
    sessionSegment query v g = ⟨{ v with index := toInt32 (v.index + 1) }, none, []⟩ := by
  unfold sessionSegment
  rw [if_pos hg]

/-- An older segment does nothing. -/
theorem sessionSegment_older (query : Option JString) (v : SessionVars) {g : Segment}
    (hl : 0 ≤ v.session.lastTime) (hl' : v.session.lastTime < 2 ^ 31) (hr : g.InRange)
    (hg : g.time < v.session.lastTime) : sessionSegment query v g = ⟨v, none, []⟩ := by
  unfold sessionSegment
  rw [if_neg (by omega), if_neg]
  rw [toInt32_sub_pos_iff_lt hr.1 hr.2 hl hl']
  omega

/-- A newer segment is counted, shown up to index 2, and at index 0 it moves the
session. -/
theorem sessionSegment_newer (query : Option JString) (v : SessionVars) {g : Segment}
    (hl : 0 ≤ v.session.lastTime) (hr : g.InRange) (hg : v.session.lastTime < g.time) :
    sessionSegment query v g
      = if v.index = 0 then
          ⟨⟨toInt32 (v.index + 1), v.session.advance g.time⟩, some (v.session.advance g.time),
            .number (v.session.advance g.time).sequence
              :: if v.index < 3 then [.entry g query] else []⟩
        else ⟨{ v with index := toInt32 (v.index + 1) }, none,
            if v.index < 3 then [.entry g query] else []⟩ := by
  have hpass := (toInt32_sub_pos_iff_lt hr.1 hr.2 hl (lt_trans hg hr.2)).mpr hg
  unfold sessionSegment
  rw [if_neg (by omega), if_pos hpass]

/-- Older segments are passed over. -/
theorem sessionFilter_old (query : Option JString) (v : SessionVars)
    (hl : 0 ≤ v.session.lastTime) (hl' : v.session.lastTime < 2 ^ 31) (rest : List Segment) :
    ∀ (gs : List Segment), (∀ g ∈ gs, g.InRange) →
      (∀ g ∈ gs, g.time < v.session.lastTime) →
      (sessionFilter query).over v (gs ++ rest) = (sessionFilter query).over v rest := by
  intro gs
  induction gs with
  | nil => intro _ _; rfl
  | cons g gs ih =>
      intro hr hold
      have hturn : (sessionFilter query).onSegment v g = ⟨v, none, []⟩ :=
        sessionSegment_older query v hl hl' (hr g List.mem_cons_self)
          (hold g List.mem_cons_self)
      have hrest := ih (fun g' h => hr g' (List.mem_cons_of_mem g h))
        (fun g' h => hold g' (List.mem_cons_of_mem g h))
      simp only [List.cons_append, Filter.over, hturn, hrest]
      rfl

/-- From index 1 on, newer segments are shown up to the third and nothing is
written. -/
theorem sessionFilter_window (query : Option JString) (s : SessionDef)
    (hl : 0 ≤ s.lastTime) :
    ∀ (gs : List Segment) (i : Nat), 1 ≤ i → ((i + gs.length : Nat) : Int) < 2 ^ 31 →
      (∀ g ∈ gs, g.InRange) → (∀ g ∈ gs, s.lastTime < g.time) →
      (sessionFilter query).over ⟨(i : Int), s⟩ gs
        = ⟨[], entries query (gs.take (3 - i)), ⟨((i + gs.length : Nat) : Int), s⟩⟩ := by
  intro gs
  induction gs with
  | nil => intro i _ _ _ _; simp [Filter.over]
  | cons g gs ih =>
      intro i hi1 hi hr hnew
      rw [List.length_cons] at hi ⊢
      have hturn : (sessionFilter query).onSegment ⟨(i : Int), s⟩ g
          = ⟨⟨((i + 1 : Nat) : Int), s⟩, none, if i < 3 then [.entry g query] else []⟩ := by
        show sessionSegment query ⟨(i : Int), s⟩ g = _
        rw [sessionSegment_newer query _ hl (hr g List.mem_cons_self)
          (hnew g List.mem_cons_self)]
        dsimp only
        rw [if_neg (by omega), toInt32_of_range (by omega) (by push_cast at hi ⊢; omega)]
        simp only [Nat.cast_lt_ofNat, Nat.cast_succ]
      have hrest := ih (i + 1) (by omega) (by push_cast at hi ⊢; omega)
        (fun g' h => hr g' (List.mem_cons_of_mem g h))
        (fun g' h => hnew g' (List.mem_cons_of_mem g h))
      have hlen : i + 1 + gs.length = i + (gs.length + 1) := by omega
      simp only [Filter.over, hturn, hrest, entries_take, hlen]
      rfl

/-- The sessions a follow-up writes when `new` comes after its place. -/
def followPuts (s : SessionDef) (new : List Segment) : List SessionDef :=
  new.head?.toList.map (fun g => s.advance g.time)

theorem followPuts_cons (s : SessionDef) (g : Segment) (rest : List Segment) :
    followPuts s (g :: rest) = [s.advance g.time] := rfl

/-- The number and the entries a follow-up appends when `new` comes after its
place. -/
def followOut (query : Option JString) (s : SessionDef) : List Segment → List Piece
  | [] => [.number s.sequence]
  | g :: rest =>
      .number (s.advance g.time).sequence :: entries query ((g :: rest).take 3)

/-- Index 0: the next newer segment moves the session. -/
theorem sessionFilter_fresh (query : Option JString) (s : SessionDef) (hl : 0 ≤ s.lastTime)
    (gs : List Segment) (hinc : Increasing Segment.time gs) (hr : ∀ g ∈ gs, g.InRange)
    (hnew : ∀ g ∈ gs, s.lastTime < g.time) :
    ((sessionFilter query).over ⟨0, s⟩ gs).puts = followPuts s gs
      ∧ ((sessionFilter query).over ⟨0, s⟩ gs).out
          ++ closingNumber ((sessionFilter query).over ⟨0, s⟩ gs).vars
        = followOut query s gs := by
  cases gs with
  | nil => exact ⟨rfl, rfl⟩
  | cons g rest =>
      have hgr := hr g List.mem_cons_self
      have hlen := length_lt_of_newer hl hinc hr hnew
      rw [List.length_cons] at hlen
      have hturn : (sessionFilter query).onSegment ⟨0, s⟩ g
          = ⟨⟨((1 : Nat) : Int), s.advance g.time⟩, some (s.advance g.time),
             [.number (s.advance g.time).sequence, .entry g query]⟩ := by
        show sessionSegment query ⟨0, s⟩ g = _
        rw [sessionSegment_newer query ⟨0, s⟩ hl hgr (hnew g List.mem_cons_self), if_pos rfl]
        rfl
      -- the rest is newer than the segment that has just become `last_time`
      have hrest := sessionFilter_window query (s.advance g.time) hgr.1 rest 1 (by omega)
        (by push_cast at hlen ⊢; omega)
        (fun g' h => hr g' (List.mem_cons_of_mem g h)) hinc.head_lt
      simp only [Filter.over, hturn, hrest]
      constructor
      · rfl
      · have hidx : ((1 + rest.length : Nat) : Int) ≠ 0 := by push_cast; omega
        unfold closingNumber
        rw [if_neg hidx, List.append_nil]
        rfl

/-! ## §4. The follow-up in closed form. -/

/-- **A follow-up whose `last_time` is in the playlist.** -/
theorem sessionFilter_present (query : Option JString) (s : SessionDef)
    {gs : List Segment} (hinc : Increasing Segment.time gs) (hr : ∀ g ∈ gs, g.InRange)
    {cur : Segment} (hmem : cur ∈ gs) (hcur : cur.time = s.lastTime) :
    ((sessionFilter query).over ⟨-1, s⟩ gs).puts = followPuts s (newer s.lastTime gs)
      ∧ ((sessionFilter query).over ⟨-1, s⟩ gs).out
          ++ closingNumber ((sessionFilter query).over ⟨-1, s⟩ gs).vars
        = followOut query s (newer s.lastTime gs) := by
  have hl := (hr cur hmem).1
  have hl' := (hr cur hmem).2
  rw [hcur] at hl hl'
  obtain ⟨old, new, hold, hnew, habove, hsplit⟩ :=
    Increasing.eq_below_at_above s.lastTime gs hinc
  rcases hsplit with ⟨_, hne⟩ | ⟨g, hg, hgs⟩
  · exact absurd hcur (hne cur hmem)
  · have hrold : ∀ x ∈ old, x.InRange := fun x hx => hr x (by rw [hgs]; simp [hx])
    have hrnew : ∀ x ∈ new, x.InRange := fun x hx => hr x (by rw [hgs]; simp [hx])
    have hincnew : Increasing Segment.time new :=
      hinc.sublist (by
        rw [hgs]
        exact ((List.sublist_cons_self g new).trans (List.sublist_append_right old _)))
    have hturn : (sessionFilter query).onSegment ⟨-1, s⟩ g = ⟨⟨0, s⟩, none, []⟩ :=
      sessionSegment_at query ⟨-1, s⟩ hg
    -- the segment at `last_time` brings the index to 0
    have hover : (sessionFilter query).over ⟨-1, s⟩ gs
        = (sessionFilter query).over ⟨0, s⟩ new := by
      rw [hgs, sessionFilter_old query ⟨-1, s⟩ hl hl' _ old hrold hold]
      simp only [Filter.over, hturn]
      rfl
    rw [hover, show newer s.lastTime gs = new from hnew.symm]
    exact sessionFilter_fresh query s hl new hincnew hrnew habove

/-- What a follow-up appends when `new` is newer than a `last_time` that is not
there. -/
def staleOut (query : Option JString) (s : SessionDef) : List Segment → List Piece
  | [] => []
  | g :: rest => .entry g query :: followOut query s rest

/-- **A follow-up whose `last_time` is not in the playlist**: the first newer
segment is shown without a number before it. -/
theorem sessionFilter_absent (query : Option JString) (s : SessionDef)
    (hl : 0 ≤ s.lastTime) (hl' : s.lastTime < 2 ^ 31)
    {gs : List Segment} (hinc : Increasing Segment.time gs) (hr : ∀ g ∈ gs, g.InRange)
    (habs : ∀ g ∈ gs, g.time ≠ s.lastTime) :
    ((sessionFilter query).over ⟨-1, s⟩ gs).puts
        = followPuts s (newer s.lastTime gs).tail
      ∧ ((sessionFilter query).over ⟨-1, s⟩ gs).out
          ++ closingNumber ((sessionFilter query).over ⟨-1, s⟩ gs).vars
        = staleOut query s (newer s.lastTime gs) := by
  obtain ⟨old, new, hold, hnew, habove, hsplit⟩ :=
    Increasing.eq_below_at_above s.lastTime gs hinc
  rcases hsplit with ⟨hgs, _⟩ | ⟨g, hg, hgs⟩
  · have hrold : ∀ x ∈ old, x.InRange := fun x hx => hr x (by rw [hgs]; simp [hx])
    have hrnew : ∀ x ∈ new, x.InRange := fun x hx => hr x (by rw [hgs]; simp [hx])
    have hincnew : Increasing Segment.time new :=
      hinc.sublist (by rw [hgs]; exact List.sublist_append_right old new)
    rw [hgs, sessionFilter_old query ⟨-1, s⟩ hl hl' new old hrold hold, ← hgs,
      show newer s.lastTime gs = new from hnew.symm]
    cases new with
    | nil => exact ⟨rfl, rfl⟩
    | cons g rest =>
        -- the index is still -1: the segment is shown, but does not move the session
        have hturn : (sessionFilter query).onSegment ⟨-1, s⟩ g
            = ⟨⟨0, s⟩, none, [.entry g query]⟩ := by
          show sessionSegment query ⟨-1, s⟩ g = _
          rw [sessionSegment_newer query ⟨-1, s⟩ hl (hrnew g List.mem_cons_self)
            (habove g List.mem_cons_self)]
          rfl
        obtain ⟨hputs, hout⟩ := sessionFilter_fresh query s hl rest hincnew.tail
          (fun x hx => hrnew x (List.mem_cons_of_mem g hx))
          (fun x hx => habove x (List.mem_cons_of_mem g hx))
        simp only [Filter.over, hturn]
        refine ⟨hputs, ?_⟩
        show _ = Piece.entry g query :: followOut query s rest
        rw [← hout]
        rfl
  · exact absurd hg (habs g (by rw [hgs]; simp))

end NginxNettyHls.M3u8Filter
