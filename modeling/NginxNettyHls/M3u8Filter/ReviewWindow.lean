/-
  NginxNettyHls.M3u8Filter.ReviewWindow
  ─────────────────────────────────────
  **THE WINDOW OF A REVIEW**, against the file line by line.

  The specification here looks at places of the file and not at a loop: a place
  is a line with the lines before it (`placesFrom`), the EXTINF line of a
  segment is the last one behind the segment line before it (`ownExtinf`), and
  an entry of the review is a place (`reviewEntry`).

    • `ownSegments_places` — the loop's `ext_info` is `ownExtinf` of the place;
    • `review_selection_exact` — the review collects exactly the entries of the
      places between its bounds;
    • `reviewed_split`, `review_windows_join` — two windows that share a bound
      miss exactly the segment at that bound.
-/
import NginxNettyHls.M3u8Filter.Operations
import NginxNettyHls.M3u8Filter.Review

namespace NginxNettyHls.M3u8Filter

open NginxNettyHls.Java
open KeyValue
open Order

/-! ## §1. Places of a file. -/

/-- Each of the lines `rest` with the lines of the file before it, when those
before the first are `before`. -/
def placesFrom : List JString → List JString → List (List JString × JString)
  | _, [] => []
  | before, s :: rest => (before, s) :: placesFrom (before ++ [s]) rest

def isExtinfLine (s : JString) : Bool := contains s "#EXTINF:".toList

/-- A line with `.ts` that is no EXTINF line. -/
def isSegmentLine (s : JString) : Bool := contains s ".ts".toList && !isExtinfLine s

/-- A line that is neither an EXTINF nor a segment line, with one of the four
tags. -/
def isHeaderLine (s : JString) : Bool :=
  !isExtinfLine s && !contains s ".ts".toList
    && (contains s "#EXTM3U".toList || contains s "#EXT-X-VERSION".toList
      || contains s "#EXT-X-TARGETDURATION".toList
      || contains s "#EXT-X-MEDIA-SEQUENCE".toList)

/-- The EXTINF line of a segment line with `before` in front of it: the last one
since the previous segment line. -/
def ownExtinf (before : List JString) : Option JString :=
  (before.reverse.takeWhile (fun s => !isSegmentLine s)).find? isExtinfLine

/-- The entry of a place in the review of the window between the bounds. -/
def reviewEntry (startTime endTime : Int) (p : List JString × JString) : Option TsInfo :=
  if isSegmentLine p.2 then
    match getTsTime p.2 with
    | .ok t => if startTime < t ∧ t < endTime then some ⟨ownExtinf p.1, p.2⟩ else none
    | .error _ => none
  else none

/-- The segment of a place. -/
def segmentAt (p : List JString × JString) : Option Segment :=
  if isSegmentLine p.2 then
    match getTsTime p.2 with
    | .ok t => some ⟨ownExtinf p.1, p.2, t⟩
    | .error _ => none
  else none

/-- A segment line at the place has a time and an EXTINF line of its own. -/
def HasOwn (p : List JString × JString) : Prop :=
  isSegmentLine p.2 = true →
    (getTsTime p.2).toOption.isSome = true ∧ (ownExtinf p.1).isSome = true

instance : DecidablePred HasOwn := fun p =>
  inferInstanceAs (Decidable (isSegmentLine p.2 = true → _))

/-- Every segment line of the file does. -/
def EachOwn (lines : List JString) : Prop := ∀ p ∈ placesFrom [] lines, HasOwn p

instance (lines : List JString) : Decidable (EachOwn lines) :=
  inferInstanceAs (Decidable (∀ p ∈ placesFrom [] lines, HasOwn p))

/-! ## §2. Kinds of lines. -/

theorem isExtinfLine_iff (s : JString) : isExtinfLine s = true ↔ lineKind s = .extinf := by
  unfold isExtinfLine lineKind
  by_cases h : contains s "#EXTINF:".toList = true
  · rw [if_pos h]
    exact iff_of_true h rfl
  · rw [if_neg h]
    refine iff_of_false h ?_
    split_ifs <;> exact not_false

theorem isSegmentLine_iff (s : JString) : isSegmentLine s = true ↔ lineKind s = .segment := by
  unfold isSegmentLine isExtinfLine lineKind
  generalize contains s "#EXTINF:".toList = extinf
  generalize contains s ".ts".toList = ts
  cases extinf <;> cases ts <;> simp only [Bool.and_true, Bool.and_false, Bool.not_true,
    Bool.not_false, if_true, if_false, Bool.false_eq_true, reduceCtorEq, false_iff]
  split_ifs <;> exact not_false

theorem isHeaderLine_eq_isTag (s : JString) : isHeaderLine s = isTag s := by
  unfold isHeaderLine isExtinfLine isTag lineKind
  generalize contains s "#EXTINF:".toList = extinf
  generalize contains s ".ts".toList = ts
  generalize contains s "#EXTM3U".toList = m3u
  generalize contains s "#EXT-X-VERSION".toList = version
  generalize contains s "#EXT-X-TARGETDURATION".toList = target
  generalize contains s "#EXT-X-MEDIA-SEQUENCE".toList = sequence
  revert extinf ts m3u version target sequence
  decide

theorem isSegmentLine_eq_false {s : JString} (h : lineKind s ≠ .segment) :
    isSegmentLine s = false := by
  cases hs : isSegmentLine s with
  | false => rfl
  | true => exact absurd ((isSegmentLine_iff s).mp hs) h

/-! ## §3. The EXTINF line in force. -/

theorem ownExtinf_segment (before : List JString) {s : JString} (h : lineKind s = .segment) :
    ownExtinf (before ++ [s]) = none := by
  unfold ownExtinf
  rw [List.reverse_append, List.reverse_singleton, List.singleton_append,
    List.takeWhile_cons_of_neg (by simp [(isSegmentLine_iff s).mpr h])]
  rfl

theorem ownExtinf_extinf (before : List JString) {s : JString} (h : lineKind s = .extinf) :
    ownExtinf (before ++ [s]) = some s := by
  unfold ownExtinf
  rw [List.reverse_append, List.reverse_singleton, List.singleton_append,
    List.takeWhile_cons_of_pos (by simp [isSegmentLine_eq_false (s := s) (by simp [h])]),
    List.find?_cons_of_pos ((isExtinfLine_iff s).mpr h)]

theorem ownExtinf_skip (before : List JString) {s : JString} (hseg : lineKind s ≠ .segment)
    (hext : lineKind s ≠ .extinf) : ownExtinf (before ++ [s]) = ownExtinf before := by
  have hno : ¬ isExtinfLine s = true := fun h => hext ((isExtinfLine_iff s).mp h)
  unfold ownExtinf
  rw [List.reverse_append, List.reverse_singleton, List.singleton_append,
    List.takeWhile_cons_of_pos (by simp [isSegmentLine_eq_false hseg]),
    List.find?_cons_of_neg hno]

theorem segmentAt_segment (before : List JString) {s : JString} {t : Int}
    (hk : lineKind s = .segment) (ht : getTsTime s = .ok t) :
    segmentAt (before, s) = some ⟨ownExtinf before, s, t⟩ := by
  unfold segmentAt
  rw [if_pos ((isSegmentLine_iff s).mpr hk)]
  simp only [ht]

theorem segmentAt_skip (before : List JString) {s : JString} (hk : lineKind s ≠ .segment) :
    segmentAt (before, s) = none := by
  unfold segmentAt
  rw [if_neg (by simp [isSegmentLine_eq_false hk])]

theorem HasOwn.exists {before : List JString} {s : JString} (h : HasOwn (before, s))
    (hk : lineKind s = .segment) :
    ∃ t ei, getTsTime s = .ok t ∧ ownExtinf before = some ei := by
  obtain ⟨htime, hext⟩ := h ((isSegmentLine_iff s).mpr hk)
  obtain ⟨ei, hei⟩ := Option.isSome_iff_exists.mp hext
  cases ht : getTsTime s with
  | error e => simp [ht, Except.toOption] at htime
  | ok t => exact ⟨t, ei, rfl, hei⟩

/-- **`ext_info` at a segment line is that line's own EXTINF line**, when every segment
line has one. -/
theorem ownSegments_places :
    ∀ (rest before : List JString),
      (∀ p ∈ placesFrom before rest, HasOwn p) →
      ownSegments (ownExtinf before) rest
        = some ((placesFrom before rest).filterMap segmentAt) := by
  intro rest
  induction rest with
  | nil => intro before _; rfl
  | cons s rest ih =>
      intro before h
      have hrest := ih (before ++ [s]) (fun p hp => h p (List.mem_cons_of_mem _ hp))
      simp only [ownSegments, placesFrom]
      cases hk : lineKind s with
      | extinf =>
          rw [ownExtinf_extinf before hk] at hrest
          rw [List.filterMap_cons_none (segmentAt_skip before (by simp [hk]))]
          exact hrest
      | segment =>
          obtain ⟨t, ei, ht, hei⟩ := (h (before, s) List.mem_cons_self).exists hk
          rw [ownExtinf_segment before hk] at hrest
          rw [List.filterMap_cons_some (segmentAt_segment before hk ht), hei]
          simp only [ht, hrest, Option.map_some]
      | title | mediaSequence | other =>
          rw [ownExtinf_skip before (by simp [hk]) (by simp [hk])] at hrest
          rw [List.filterMap_cons_none (segmentAt_skip before (by simp [hk]))]
          exact hrest

/-- A segment of a place between the bounds is an entry of the review. -/
theorem reviewEntry_eq (startTime endTime : Int) (p : List JString × JString) :
    reviewEntry startTime endTime p
      = ((segmentAt p).filter (fun g => startTime < g.time ∧ g.time < endTime)).map
          Segment.tsInfo := by
  unfold reviewEntry segmentAt
  split
  · cases getTsTime p.2 with
    | error e => rfl
    | ok t =>
        by_cases hin : startTime < t ∧ t < endTime <;> simp [hin, Option.filter, Segment.tsInfo]
  · rfl

theorem reviewed_places (startTime endTime : Int) (ps : List (List JString × JString)) :
    (reviewed startTime endTime (ps.filterMap segmentAt)).map Segment.tsInfo
      = ps.filterMap (reviewEntry startTime endTime) := by
  unfold reviewed
  rw [List.filter_filterMap, List.map_filterMap]
  exact congrArg (ps.filterMap ·) (funext fun p => (reviewEntry_eq startTime endTime p).symm)

/-! ## §4. The review of a file. -/

/-- **The selection of a review is exact**: `ts_list` has the entries of the places
between the bounds in file order, `m3u8_title` the header lines, and no operation of the
handler is on the store. -/
theorem review_selection_exact (c : ConfigControl) {playbackbegin playbackend : JString}
    {b e : Int} {lines : List JString} (hown : EachOwn lines)
    (hb : c.sdfParse "yyyyMMddHHmmss".toList playbackbegin = some b)
    (he : c.sdfParse "yyyyMMddHHmmss".toList playbackend = some e) :
    (∀ query, reviewReply c playbackbegin playbackend query (.opened lines .eof)
      = .ok (.ok,
        { playMode := .review
          m3u8Title := some ((lines.filter isHeaderLine).flatMap (· ++ "\r\n".toList))
          argus := query
          tsList := some ((placesFrom [] lines).filterMap
            (reviewEntry (b.tdiv 1000) (e.tdiv 1000))) }))
      ∧ ∀ request : HttpRequest, (playBackHandler c request).Each (fun _ => False) := by
  refine ⟨fun query => ?_, each_playBackHandler⟩
  have hstart : transform2UnixTime c playbackbegin "yyyyMMddHHmmss".toList = b.tdiv 1000 := by
    unfold transform2UnixTime
    rw [hb]
  have hend : transform2UnixTime c playbackend "yyyyMMddHHmmss".toList = e.tdiv 1000 := by
    unfold transform2UnixTime
    rw [he]
  have hread : tsSegments none lines = ((placesFrom [] lines).filterMap segmentAt, none) :=
    tsSegments_of_own lines none none _ (ownSegments_places lines [] hown) (Or.inl rfl)
  unfold reviewReply
  dsimp only
  rw [hstart, hend, playbackFilter_eq _ _ hread, reviewed_places]
  unfold titleText
  rw [List.filter_congr (fun s _ => (isHeaderLine_eq_isTag s).symm)]
  rfl

/-- A server in UTC, asked about one day. -/
def reviewConfig : ConfigControl :=
  { shippedConfig with
    sdfParse := fun _ date =>
      if date = "20171016110000".toList then some 1508151600000
      else if date = "20171016110010".toList then some 1508151610000
      else none }

/-- Three segments from 11:00:00 on. -/
def reviewLines : List JString :=
  ["#EXTM3U".toList, "#EXT-X-MEDIA-SEQUENCE:7".toList,
   "#EXTINF:6.0,".toList, "cctv-1508151600.ts".toList,
   "#EXTINF:5.5,".toList, "cctv-1508151606.ts".toList,
   "#EXTINF:6.5,".toList, "cctv-1508151612.ts".toList]

theorem review_selection_exact_tenSeconds :
    EachOwn reviewLines
      ∧ reviewReply reviewConfig "20171016110000".toList "20171016110010".toList none
          (.opened reviewLines .eof)
        = .ok (.ok,
          { playMode := .review
            m3u8Title := some "#EXTM3U\r\n#EXT-X-MEDIA-SEQUENCE:7\r\n".toList
            argus := none
            tsList := some [⟨some "#EXTINF:5.5,".toList, "cctv-1508151606.ts".toList⟩] }) :=
  ⟨by decide +kernel,
   ((review_selection_exact reviewConfig (by decide +kernel : EachOwn reviewLines)
      (b := 1508151600000) (e := 1508151610000) rfl rfl).1 none).trans (by decide +kernel)⟩

/-! ## §5. Two windows that share a bound. -/

/-- A window is the window up to a time inside it, the segment at that time and the
window from it on. -/
theorem reviewed_split {gs : List Segment} (hinc : Increasing Segment.time gs) {a b c : Int}
    (hab : a < b) (hbc : b < c) :
    reviewed a c gs
      = reviewed a b gs ++ gs.filter (fun g => g.time = b) ++ reviewed b c gs := by
  obtain ⟨lo, hi, hlo, -, hhi, hcases⟩ := Increasing.eq_below_at_above b gs hinc
  have hlo_ac : reviewed a c lo = reviewed a b lo :=
    List.filter_congr (fun g hg => by have := hlo g hg; rw [decide_eq_decide]; omega)
  have hhi_ac : reviewed a c hi = reviewed b c hi :=
    List.filter_congr (fun g hg => by have := hhi g hg; rw [decide_eq_decide]; omega)
  have hlo_at : lo.filter (fun g => g.time = b) = [] :=
    List.filter_eq_nil_iff.mpr (fun g hg => by have := hlo g hg; simp; omega)
  have hhi_at : hi.filter (fun g => g.time = b) = [] :=
    List.filter_eq_nil_iff.mpr (fun g hg => by have := hhi g hg; simp; omega)
  have hlo_bc : reviewed b c lo = [] :=
    List.filter_eq_nil_iff.mpr (fun g hg => by have := hlo g hg; simp; omega)
  have hhi_ab : reviewed a b hi = [] :=
    List.filter_eq_nil_iff.mpr (fun g hg => by have := hhi g hg; simp; omega)
  have happ : ∀ x y : Int, ∀ l l' : List Segment,
      reviewed x y (l ++ l') = reviewed x y l ++ reviewed x y l' :=
    fun x y l l' => List.filter_append l l'
  rcases hcases with ⟨hgs, -⟩ | ⟨g, hg, hgs⟩
  · rw [hgs, happ, happ, happ, List.filter_append, hlo_ac, hhi_ac, hlo_at, hhi_at, hlo_bc, hhi_ab]
    simp
  · have hg_ac : reviewed a c [g] = [g] := List.filter_cons_of_pos (by simp; omega)
    have hg_ab : reviewed a b [g] = [] := List.filter_cons_of_neg (by simp; omega)
    have hg_bc : reviewed b c [g] = [] := List.filter_cons_of_neg (by simp; omega)
    have hg_at : [g].filter (fun g => g.time = b) = [g] :=
      List.filter_cons_of_pos (by simpa using hg)
    have hsplit : gs = lo ++ ([g] ++ hi) := hgs
    rw [hsplit]
    simp only [happ, List.filter_append, hlo_ac, hhi_ac, hlo_at, hhi_at, hlo_bc, hhi_ab, hg_ac,
      hg_ab, hg_bc, hg_at, List.append_nil, List.nil_append, List.append_assoc]

/-- `ts_list` of the review of a file. -/
def reviewList (startTime endTime : Int) (file : FileRead) : Except Exn (List TsInfo) :=
  (m3u8PlaybackFilter startTime endTime file).map Prod.snd

theorem reviewList_eq (startTime endTime : Int) {lines : List JString} {gs : List Segment}
    (h : tsSegments none lines = (gs, none)) :
    reviewList startTime endTime (.opened lines .eof)
      = .ok ((reviewed startTime endTime gs).map Segment.tsInfo) := by
  unfold reviewList
  rw [playbackFilter_eq _ _ h]
  rfl

/-- **Adjacent windows miss the segment at the shared bound**, and nothing else. -/
theorem review_windows_join {lines : List JString} {gs : List Segment}
    (hread : tsSegments none lines = (gs, none)) (hinc : Increasing Segment.time gs)
    {a b c : Int} (hab : a < b) (hbc : b < c) :
    ∃ whole first second,
      reviewList a c (.opened lines .eof) = .ok whole
        ∧ reviewList a b (.opened lines .eof) = .ok first
        ∧ reviewList b c (.opened lines .eof) = .ok second
        ∧ whole = first ++ (gs.filter (fun g => g.time = b)).map Segment.tsInfo ++ second
        ∧ (whole = first ++ second ↔ ∀ g ∈ gs, g.time ≠ b) := by
  refine ⟨_, _, _, reviewList_eq a c hread, reviewList_eq a b hread, reviewList_eq b c hread, ?_⟩
  rw [reviewed_split hinc hab hbc, List.map_append, List.map_append]
  refine ⟨rfl, ?_⟩
  rw [List.append_cancel_right_eq, List.append_right_eq_self]
  simp only [List.map_eq_nil_iff, List.filter_eq_nil_iff, decide_eq_true_eq, ne_eq]

theorem review_windows_join_between :
    reviewList 1508151594 1508151618 (.opened reviewLines .eof)
      = (do
          let first ← reviewList 1508151594 1508151610 (.opened reviewLines .eof)
          let second ← reviewList 1508151610 1508151618 (.opened reviewLines .eof)
          pure (first ++ second)) := by
  obtain ⟨whole, first, second, hwhole, hfirst, hsecond, -, hiff⟩ :=
    @review_windows_join reviewLines (tsSegments none reviewLines).1 (by decide +kernel)
      (by decide +kernel) 1508151594 1508151610 1508151618 (by decide) (by decide)
  rw [hwhole, hfirst, hsecond, hiff.mpr (by decide +kernel)]
  rfl

/-- **The segment at 11:00:06** is in the review from 11:00:00 to 11:00:18 and in neither
of the two that share that bound. -/
theorem shared_bound_lost :
    Increasing Segment.time (tsSegments none reviewLines).1
      ∧ (tsSegments none reviewLines).2 = none
      ∧ reviewList 1508151600 1508151618 (.opened reviewLines .eof)
        = .ok [⟨some "#EXTINF:5.5,".toList, "cctv-1508151606.ts".toList⟩,
            ⟨some "#EXTINF:6.5,".toList, "cctv-1508151612.ts".toList⟩]
      ∧ reviewList 1508151600 1508151606 (.opened reviewLines .eof) = .ok []
      ∧ reviewList 1508151606 1508151618 (.opened reviewLines .eof)
        = .ok [⟨some "#EXTINF:6.5,".toList, "cctv-1508151612.ts".toList⟩] := by
  decide +kernel

end NginxNettyHls.M3u8Filter
