/-
  NginxNettyHls.M3u8Filter.SegmentNames
  ─────────────────────────────────────
  **WHAT A LINE IS TAKEN FOR, AND WHERE ITS TIME COMES FROM.**

  A line is classified by the texts it contains anywhere, and `get_ts_time`
  looks at the first dash of the whole line: the time is read in the text behind
  it (`fieldTime`), up to the next dash and the next dot.

    • `ignored_iff` — the filters pass over a line exactly when it contains none
      of the six texts they look for;
    • `getTsTime_behind`, `getTsTime_behind_dashed` — a prefix without a dash
      changes no time, a directory with a dash decides alone;
    • `host_independent_iff` — the selection of the filters does not depend on a
      directory exactly when it has no dash and no EXTINF tag in its name.
-/
import NginxNettyHls.M3u8Filter.ReviewWindow

namespace NginxNettyHls.M3u8Filter

open NginxNettyHls.Java

/-! ## §1. Lines that are passed over. -/

/-- What a caller sees of a playseek filter: the sessions written, and the text or the
exception. -/
def FilterRun.outcome (run : FilterRun) : List SessionDef × Except Exn JString :=
  (run.puts, run.result.map toText)

/-- The line may stand anywhere in any file without a trace in the filters. -/
structure Ignored (l : JString) : Prop where
  seek : ∀ (timestamp : JString) (query : Option JString) (absoluteTime : Int)
    (before after : List JString) (fin : ReadEnd),
    (m3u8PlayseekFilter timestamp query absoluteTime (.opened (before ++ l :: after) fin)).outcome
      = (m3u8PlayseekFilter timestamp query absoluteTime (.opened (before ++ after) fin)).outcome
  session : ∀ (session : SessionDef) (query : Option JString) (before after : List JString)
    (fin : ReadEnd),
    (m3u8PlayseekFilterSession session query (.opened (before ++ l :: after) fin)).outcome
      = (m3u8PlayseekFilterSession session query (.opened (before ++ after) fin)).outcome
  review : ∀ (startTime endTime : Int) (before after : List JString) (fin : ReadEnd),
    m3u8PlaybackFilter startTime endTime (.opened (before ++ l :: after) fin)
      = m3u8PlaybackFilter startTime endTime (.opened (before ++ after) fin)

/-- The texts the filters look for in a line. -/
def marks : List JString :=
  ["#EXTINF:".toList, ".ts".toList, "#EXTM3U".toList, "#EXT-X-VERSION".toList,
   "#EXT-X-TARGETDURATION".toList, "#EXT-X-MEDIA-SEQUENCE".toList]

theorem lineKind_other_iff (s : JString) :
    lineKind s = .other ↔ ∀ mark ∈ marks, contains s mark = false := by
  unfold lineKind marks
  simp only [List.forall_mem_cons, List.not_mem_nil, false_imp_iff, implies_true, and_true]
  generalize contains s "#EXTINF:".toList = extinf
  generalize contains s ".ts".toList = ts
  generalize contains s "#EXTM3U".toList = m3u
  generalize contains s "#EXT-X-VERSION".toList = version
  generalize contains s "#EXT-X-TARGETDURATION".toList = target
  generalize contains s "#EXT-X-MEDIA-SEQUENCE".toList = sequence
  revert extinf ts m3u version target sequence
  decide

variable {σ : Type}

theorem Filter.loop_insert (F : Filter σ) {l : JString} (hl : lineKind l = .other)
    (after : List JString) :
    ∀ (before : List JString) (st : LoopState σ),
      F.loop st (before ++ l :: after) = F.loop st (before ++ after) := by
  intro before
  induction before with
  | nil =>
      intro st
      show F.loop st (l :: after) = F.loop st after
      simp only [Filter.loop, Filter.line, hl, Option.toList_none, List.nil_append]
  | cons s before ih =>
      intro st
      simp only [List.cons_append, Filter.loop]
      cases F.line st s with
      | error e => rfl
      | ok r => simp only [ih]

theorem playbackFilter_insert (startTime endTime : Int) {l : JString} (hl : lineKind l = .other)
    (before after : List JString) (fin : ReadEnd) :
    m3u8PlaybackFilter startTime endTime (.opened (before ++ l :: after) fin)
      = m3u8PlaybackFilter startTime endTime (.opened (before ++ after) fin) := by
  have hline : ∀ st, playbackLine startTime endTime st l = .ok st := by
    intro st
    unfold playbackLine
    rw [hl]
  have hfold : ∀ st, (l :: after).foldlM (playbackLine startTime endTime) st
      = after.foldlM (playbackLine startTime endTime) st := by
    intro st
    rw [List.foldlM_cons, hline]
    rfl
  simp only [m3u8PlaybackFilter, List.foldlM_append, hfold]

/-- A line that is not passed over shows in some review. -/
theorem lineKind_other_of_review {l : JString}
    (h : ∀ (startTime endTime : Int) (after : List JString),
      m3u8PlaybackFilter startTime endTime (.opened (l :: after) .eof)
        = m3u8PlaybackFilter startTime endTime (.opened after .eof)) : lineKind l = .other := by
  have hempty : ∀ startTime endTime, m3u8PlaybackFilter startTime endTime (.opened [] .eof)
      = .ok ([], []) := fun _ _ => rfl
  cases hk : lineKind l with
  | other => rfl
  | title | mediaSequence =>
      -- the tag is copied into the title
      have htitle := h 0 0 []
      have hread : tsSegments none [l] = ([], none) := by simp only [tsSegments, hk]
      rw [hempty, playbackFilter_eq 0 0 hread, titleText_cons_tag (by simp [isTag, hk])] at htitle
      simp at htitle
  | extinf =>
      -- it becomes the EXTINF line of the next segment
      have hnext := h 0 2 ["a-1.ts".toList]
      have hkind : lineKind "a-1.ts".toList = .segment := by decide +kernel
      have htime : getTsTime "a-1.ts".toList = .ok 1 := by decide +kernel
      have hread : tsSegments none [l, "a-1.ts".toList]
          = ([⟨some l, "a-1.ts".toList, 1⟩], none) := by
        simp only [tsSegments, hk, hkind, htime]
      have hplain : tsSegments none ["a-1.ts".toList] = ([⟨none, "a-1.ts".toList, 1⟩], none) := by
        simp only [tsSegments, hkind, htime]
      rw [playbackFilter_eq 0 2 hread, playbackFilter_eq 0 2 hplain] at hnext
      simp [reviewed, Segment.tsInfo] at hnext
  | segment =>
      -- it throws, or it is listed
      cases ht : getTsTime l with
      | error e =>
          have hthrown := h 0 0 []
          rw [hempty] at hthrown
          simp [m3u8PlaybackFilter, playbackLine, hk, ht, ReadEnd.raise, Except.map, bind,
            Except.bind] at hthrown
      | ok t =>
          have hlisted := h (t - 1) (t + 1) []
          have hread : tsSegments none [l] = ([⟨none, l, t⟩], none) := by
            simp only [tsSegments, hk, ht]
          rw [hempty, playbackFilter_eq (t - 1) (t + 1) hread] at hlisted
          simp [reviewed] at hlisted

/-- **A line is passed over exactly when it contains none of the texts** the filters look
for, wherever in the line. -/
theorem ignored_iff (l : JString) :
    Ignored l ↔ ∀ mark ∈ marks, contains l mark = false := by
  rw [← lineKind_other_iff]
  constructor
  · intro h
    exact lineKind_other_of_review
      (fun startTime endTime after => h.review startTime endTime [] after .eof)
  · intro hl
    refine ⟨?_, ?_, ?_⟩
    · intro timestamp query absoluteTime before after fin
      simp only [m3u8PlayseekFilter, Filter.loop_insert _ hl]
    · intro session query before after fin
      simp only [m3u8PlayseekFilterSession, Filter.loop_insert _ hl]
    · intro startTime endTime before after fin
      exact playbackFilter_insert startTime endTime hl before after fin

/-- **A tag that names a file** is taken for a segment: the review that answered without
it throws. -/
theorem map_tag_not_ignored :
    let line := "#EXT-X-MAP:URI=\"init.ts\"".toList
    (line.head? = some '#'
        ∧ ∀ tag ∈ ["#EXTINF:".toList, "#EXTM3U".toList, "#EXT-X-VERSION".toList,
            "#EXT-X-TARGETDURATION".toList, "#EXT-X-MEDIA-SEQUENCE".toList],
          ¬ tag <+: line)
      ∧ m3u8PlaybackFilter 1508151600 1508151610 (.opened reviewLines .eof)
        = .ok ("#EXTM3U\r\n#EXT-X-MEDIA-SEQUENCE:7\r\n".toList,
            [⟨some "#EXTINF:5.5,".toList, "cctv-1508151606.ts".toList⟩])
      ∧ m3u8PlaybackFilter 1508151600 1508151610
          (.opened ("#EXTM3U".toList :: line :: reviewLines.tail) .eof)
        = .error .numberFormat := by
  decide +kernel

/-! ## §2. Where the time comes from. -/

/-- The time in the text behind the first dash. -/
def fieldTime (r : JString) : Except Exn Int :=
  if r.all (· == '-') then .error .arrayIndexOutOfBounds
  else
    let field := r.takeWhile (· != '-')
    if field ≠ [] ∧ field.all (· == '.') = true then .error .arrayIndexOutOfBounds
    else
      match parseInt (field.takeWhile (· != '.')) with
      | none => .error .numberFormat
      | some t => .ok t

theorem getTsTime_dash {a : JString} (ha : '-' ∉ a) (r : JString) :
    getTsTime (a ++ '-' :: r) = fieldTime r := by
  unfold getTsTime fieldTime
  rw [split_second ha]
  by_cases hr : r.all (· == '-') = true
  · rw [if_pos hr, if_pos hr]
  · rw [if_neg hr, if_neg hr]
    dsimp only
    rw [split_head]
    by_cases hfield : r.takeWhile (· != '-') ≠ []
        ∧ (r.takeWhile (· != '-')).all (· == '.') = true
    · rw [if_pos hfield, if_pos hfield]
    · rw [if_neg hfield]
      exact (if_neg hfield).symm

theorem getTsTime_noDash {s : JString} (hs : '-' ∉ s) :
    getTsTime s = .error .arrayIndexOutOfBounds := by
  unfold getTsTime split
  rw [if_neg hs]
  rfl

/-- **A prefix without a dash changes no time.** -/
theorem getTsTime_behind {p : JString} (hp : '-' ∉ p) (s : JString) :
    getTsTime (p ++ s) = getTsTime s := by
  by_cases hs : '-' ∈ s
  · obtain ⟨a, r, rfl, ha⟩ := List.eq_append_cons_of_mem hs
    rw [← List.append_assoc, getTsTime_dash (by simp [hp, ha]), getTsTime_dash ha]
  · rw [getTsTime_noDash hs, getTsTime_noDash (by simp [hp, hs])]

theorem takeWhile_append_sep {sep : Char} {u : JString} (hu : sep ∉ u) (r : JString) :
    (u ++ sep :: r).takeWhile (· != sep) = u := by
  rw [List.takeWhile_append_of_pos, List.takeWhile_cons_of_neg (by simp), List.append_nil]
  intro c hc
  simpa using fun e : c = sep => hu (e ▸ hc)

theorem takeWhile_append_slash {sep : Char} (hsep : sep ≠ '/') {u : JString} (hu : sep ∉ u)
    (r : JString) :
    (u ++ '/' :: r).takeWhile (· != sep) = u ++ '/' :: r.takeWhile (· != sep) := by
  rw [List.takeWhile_append_of_pos, List.takeWhile_cons_of_pos (by simpa using hsep.symm)]
  intro c hc
  simpa using fun e : c = sep => hu (e ▸ hc)

/-- Behind a dash, what stands before the last slash of a directory decides. -/
theorem fieldTime_directory (y s : JString) :
    fieldTime (y ++ '/' :: s) = fieldTime (y ++ ['/']) := by
  have hdash : ∀ z : JString, ¬ (y ++ '/' :: z).all (· == '-') = true :=
    fun z h => absurd (all_beq_iff.mp h '/' (by simp)) (by decide)
  have hdots : ∀ z : JString,
      ¬ (y ++ '/' :: z ≠ [] ∧ (y ++ '/' :: z).all (· == '.') = true) :=
    fun z h => absurd (all_beq_iff.mp h.2 '/' (by simp)) (by decide)
  unfold fieldTime
  rw [if_neg (hdash s), if_neg (hdash [])]
  dsimp only
  by_cases hy : '-' ∈ y
  · -- the field ends inside the directory
    obtain ⟨u, w, rfl, hu⟩ := List.eq_append_cons_of_mem hy
    rw [List.append_assoc, List.append_assoc, List.cons_append, List.cons_append,
      takeWhile_append_sep hu, takeWhile_append_sep hu]
  · rw [takeWhile_append_slash (by decide) hy, takeWhile_append_slash (by decide) hy,
      List.takeWhile_nil, if_neg (hdots _), if_neg (hdots [])]
    by_cases hdot : '.' ∈ y
    · -- so does the number
      obtain ⟨u, w, rfl, hu⟩ := List.eq_append_cons_of_mem hdot
      rw [List.append_assoc, List.append_assoc, List.cons_append, List.cons_append,
        takeWhile_append_sep hu, takeWhile_append_sep hu]
    · -- the slash is in the text that is parsed
      rw [takeWhile_append_slash (by decide) hdot, takeWhile_append_slash (by decide) hdot,
        parseInt_slash (by simp), parseInt_slash (by simp)]

/-- **A directory with a dash decides alone.** -/
theorem getTsTime_behind_dashed {p : JString} (hp : p.getLast? = some '/') (hdash : '-' ∈ p)
    (s : JString) : getTsTime (p ++ s) = getTsTime p := by
  obtain ⟨q, rfl⟩ := List.getLast?_eq_some_iff.mp hp
  have hq : '-' ∈ q := by simpa using hdash
  obtain ⟨a, y, rfl, ha⟩ := List.eq_append_cons_of_mem hq
  have hname : a ++ '-' :: y ++ ['/'] ++ s = a ++ '-' :: (y ++ '/' :: s) := by simp
  have hdir : a ++ '-' :: y ++ ['/'] = a ++ '-' :: (y ++ ['/']) := by simp
  rw [hname, hdir, getTsTime_dash ha, getTsTime_dash ha, fieldTime_directory]

/-! ## §3. The same playlist on another host. -/

/-- A line of the playlist with its segments under the directory `p`. -/
def rehost (p s : JString) : JString := if isSegmentLine s then p ++ s else s

def Segment.rehost (p : JString) (g : Segment) : Segment := { g with line := p ++ g.line }

def TsInfo.rehost (p : JString) (i : TsInfo) : TsInfo := { i with ts := p ++ i.ts }

/-- With its segments under `p` a playlist on which the filters succeed gives the same
selection and the same sessions. -/
structure HostIndependent (p : JString) : Prop where
  seek : ∀ (timestamp : JString) (query : Option JString) (absoluteTime : Int)
    (lines : List JString), (tsSegments none lines).2 = none →
    let run := m3u8PlayseekFilter timestamp query absoluteTime (.opened lines .eof)
    let run' := m3u8PlayseekFilter timestamp query absoluteTime
      (.opened (lines.map (rehost p)) .eof)
    run'.puts = run.puts
      ∧ run'.result.map listed = run.result.map (fun sb => (listed sb).map (Segment.rehost p))
  session : ∀ (session : SessionDef) (query : Option JString) (lines : List JString),
    (tsSegments none lines).2 = none →
    let run := m3u8PlayseekFilterSession session query (.opened lines .eof)
    let run' := m3u8PlayseekFilterSession session query (.opened (lines.map (rehost p)) .eof)
    run'.puts = run.puts
      ∧ run'.result.map listed = run.result.map (fun sb => (listed sb).map (Segment.rehost p))
  review : ∀ (startTime endTime : Int) (lines : List JString),
    (tsSegments none lines).2 = none →
    reviewList startTime endTime (.opened (lines.map (rehost p)) .eof)
      = (reviewList startTime endTime (.opened lines .eof)).map (List.map (TsInfo.rehost p))

/-- A text without a slash in a directory and a name is in one of the two. -/
theorem contains_directory {p w : JString} (hp : p.getLast? = some '/') (hw : '/' ∉ w)
    (s : JString) : contains (p ++ s) w = (contains p w || contains s w) := by
  unfold contains
  rw [← Bool.decide_or, decide_eq_decide, List.infix_append_iff]
  constructor
  · intro h
    rcases h with h | h | ⟨u, v, rfl, hu, hv⟩
    · exact Or.inl h
    · exact Or.inr h
    · -- a part at the end of the directory would have its slash
      rcases List.eq_nil_or_concat' u with rfl | ⟨u', c, rfl⟩
      · exact Or.inr hv.isInfix
      · obtain ⟨t, rfl⟩ := hu
        rw [← List.append_assoc, List.getLast?_concat] at hp
        exact absurd (by simp [Option.some.inj hp] : '/' ∈ u' ++ [c] ++ v) hw
  · intro h
    rcases h with h | h
    · exact Or.inl h
    · exact Or.inr (Or.inl h)

theorem lineKind_directory {p s : JString} (hp : p.getLast? = some '/')
    (hext : contains p "#EXTINF:".toList = false) (hs : isSegmentLine s = true) :
    lineKind (p ++ s) = .segment := by
  rw [← isSegmentLine_iff]
  unfold isSegmentLine isExtinfLine at hs ⊢
  rw [contains_directory hp (by decide), contains_directory hp (by decide), hext]
  simp only [Bool.and_eq_true, Bool.not_eq_true', Bool.or_eq_true, Bool.false_or] at hs ⊢
  exact ⟨Or.inr hs.1, hs.2⟩

/-- The segments of the playlist under a directory without a dash and an EXTINF tag. -/
theorem tsSegments_rehost {p : JString} (hp : p.getLast? = some '/') (hdash : '-' ∉ p)
    (hext : contains p "#EXTINF:".toList = false) :
    ∀ (lines : List JString) (ext : Option JString),
      tsSegments ext (lines.map (rehost p))
        = ((tsSegments ext lines).1.map (Segment.rehost p), (tsSegments ext lines).2) := by
  intro lines
  induction lines with
  | nil => intro ext; rfl
  | cons s rest ih =>
      intro ext
      rw [List.map_cons]
      by_cases hs : isSegmentLine s = true
      · have hk : lineKind s = .segment := (isSegmentLine_iff s).mp hs
        have hk' : lineKind (p ++ s) = .segment := lineKind_directory hp hext hs
        have hline : rehost p s = p ++ s := if_pos hs
        simp only [hline, tsSegments, hk, hk', getTsTime_behind hdash, ih]
        cases getTsTime s with
        | error e => rfl
        | ok t => rfl
      · have hline : rehost p s = s := if_neg hs
        have hk : lineKind s ≠ .segment := fun h => hs ((isSegmentLine_iff s).mpr h)
        rw [hline]
        simp only [tsSegments]
        cases hkind : lineKind s with
        | segment => exact absurd hkind hk
        | extinf | title | mediaSequence | other => exact ih _

/-- The branch for segment lines looks at the time only. -/
def Filter.TimeOnly (F : Filter σ) : Prop :=
  ∀ (p : JString) (v : σ) (g : Segment),
    (F.onSegment v (g.rehost p)).vars = (F.onSegment v g).vars
      ∧ (F.onSegment v (g.rehost p)).put = (F.onSegment v g).put
      ∧ listed (F.onSegment v (g.rehost p)).out
        = (listed (F.onSegment v g).out).map (Segment.rehost p)

theorem seekFilter_timeOnly (timestamp : JString) (query : Option JString) (absoluteTime : Int) :
    (seekFilter timestamp query absoluteTime).TimeOnly := by
  intro p index g
  simp only [seekFilter, seekSegment, Segment.rehost]
  split_ifs <;> simp [listed, Segment.rehost]

theorem sessionFilter_timeOnly (query : Option JString) : (sessionFilter query).TimeOnly := by
  intro p v g
  simp only [sessionFilter, sessionSegment, Segment.rehost]
  split_ifs <;> simp [listed, Segment.rehost]

theorem Filter.TimeOnly.over {F : Filter σ} (hF : F.TimeOnly) (p : JString) :
    ∀ (gs : List Segment) (v : σ),
      (F.over v (gs.map (Segment.rehost p))).vars = (F.over v gs).vars
        ∧ (F.over v (gs.map (Segment.rehost p))).puts = (F.over v gs).puts
        ∧ listed (F.over v (gs.map (Segment.rehost p))).out
          = (listed (F.over v gs).out).map (Segment.rehost p) := by
  intro gs
  induction gs with
  | nil => intro v; exact ⟨rfl, rfl, rfl⟩
  | cons g gs ih =>
      intro v
      obtain ⟨hvars, hput, hout⟩ := hF p v g
      obtain ⟨ihvars, ihputs, ihout⟩ := ih (F.onSegment v g).vars
      simp only [List.map_cons, Filter.over]
      rw [hvars, hput]
      refine ⟨ihvars, by rw [ihputs], ?_⟩
      rw [listed_append, listed_append, List.map_append, hout, ihout]

/-- **The loop over the playlist under the directory.** -/
theorem Filter.TimeOnly.loop {F : Filter σ} (hF : F.TimeOnly)
    (hseq : listed F.onMediaSequence = []) {p : JString} (hp : p.getLast? = some '/')
    (hdash : '-' ∉ p) (hext : contains p "#EXTINF:".toList = false) (v : σ)
    {lines : List JString} (hok : (tsSegments none lines).2 = none) :
    (F.loop ⟨none, v, []⟩ (lines.map (rehost p))).1 = (F.loop ⟨none, v, []⟩ lines).1
      ∧ ∃ st st', (F.loop ⟨none, v, []⟩ lines).2 = .ok st
        ∧ (F.loop ⟨none, v, []⟩ (lines.map (rehost p))).2 = .ok st'
        ∧ st'.vars = st.vars ∧ listed st'.sb = (listed st.sb).map (Segment.rehost p) := by
  have hsegs := tsSegments_rehost hp hdash hext lines none
  obtain ⟨hvars, hputs, hout⟩ := hF.over p (tsSegments none lines).1 v
  obtain ⟨ei, sb, hloop, hlisted, -, -⟩ := F.loop_ok hseq lines ⟨none, v, []⟩ hok
  obtain ⟨ei', sb', hloop', hlisted', -, -⟩ :=
    F.loop_ok hseq (lines.map (rehost p)) ⟨none, v, []⟩ (by rw [hsegs]; exact hok)
  simp only [hsegs] at hloop' hlisted'
  refine ⟨?_, _, _, hloop, hloop', hvars, ?_⟩
  · rw [F.loop_puts, F.loop_puts]
    simp only [hsegs]
    exact hputs
  · simp only [List.nil_append]
    rw [hlisted', hlisted, hout]

theorem hostIndependent_of_plain {p : JString} (hp : p.getLast? = some '/') (hdash : '-' ∉ p)
    (hext : contains p "#EXTINF:".toList = false) : HostIndependent p := by
  refine ⟨?_, ?_, ?_⟩
  · intro timestamp query absoluteTime lines hok
    obtain ⟨hputs, st, st', hst, hst', -, hsb⟩ :=
      (seekFilter_timeOnly timestamp query absoluteTime).loop rfl hp hdash hext (0 : Int) hok
    refine ⟨hputs, ?_⟩
    simp only [m3u8PlayseekFilter, hst, hst', Except.map, ReadEnd.raise, hsb]
  · intro session query lines hok
    obtain ⟨hputs, st, st', hst, hst', hvars, hsb⟩ :=
      (sessionFilter_timeOnly query).loop rfl hp hdash hext ⟨-1, session⟩ hok
    have hnumber : ∀ v : SessionVars, listed (closingNumber v) = [] := by
      intro v
      unfold closingNumber
      split_ifs <;> rfl
    refine ⟨hputs, ?_⟩
    simp only [m3u8PlayseekFilterSession, hst, hst', Except.map, ReadEnd.raise, listed_append,
      hnumber, List.append_nil, hsb]
  · intro startTime endTime lines hok
    have hread : tsSegments none lines = ((tsSegments none lines).1, none) := Prod.ext rfl hok
    have hread' : tsSegments none (lines.map (rehost p))
        = ((tsSegments none lines).1.map (Segment.rehost p), none) := by
      rw [tsSegments_rehost hp hdash hext, hok]
    rw [reviewList_eq _ _ hread, reviewList_eq _ _ hread']
    unfold reviewed
    rw [List.filter_map]
    simp only [Except.map, List.map_map]
    rfl

/-- A review that lists the only line of a file has read its time. -/
theorem segment_of_reviewList {startTime endTime : Int} {l : JString}
    (h : reviewList startTime endTime (.opened [l] .eof) = .ok [⟨none, l⟩]) :
    lineKind l = .segment ∧ ∃ t, getTsTime l = .ok t ∧ startTime < t ∧ t < endTime := by
  cases hk : lineKind l with
  | extinf | title | mediaSequence | other =>
      have hread : tsSegments none [l] = ([], none) := by simp only [tsSegments, hk]
      rw [reviewList_eq _ _ hread] at h
      simp [reviewed] at h
  | segment =>
      refine ⟨rfl, ?_⟩
      cases ht : getTsTime l with
      | error e =>
          simp [reviewList, m3u8PlaybackFilter, playbackLine, hk, ht, ReadEnd.raise, Except.map,
            bind, Except.bind] at h
      | ok t =>
          have hread : tsSegments none [l] = ([⟨none, l, t⟩], none) := by
            simp only [tsSegments, hk, ht]
          rw [reviewList_eq _ _ hread] at h
          refine ⟨t, rfl, ?_⟩
          by_contra hout
          have hnil : reviewed startTime endTime [⟨none, l, t⟩] = [] :=
            List.filter_cons_of_neg (by simpa using hout)
          rw [hnil] at h
          simp at h

theorem plain_of_hostIndependent {p : JString} (hp : p.getLast? = some '/')
    (h : HostIndependent p) : '-' ∉ p ∧ contains p "#EXTINF:".toList = false := by
  -- two playlists of one segment each, with different times
  have hone : reviewList 0 2 (.opened [p ++ "a-1.ts".toList] .eof)
      = .ok [⟨none, p ++ "a-1.ts".toList⟩] :=
    (h.review 0 2 ["a-1.ts".toList] (by decide +kernel)).trans
      (congrArg (Except.map _) (by decide +kernel : reviewList 0 2 (.opened ["a-1.ts".toList] .eof)
        = .ok [⟨none, "a-1.ts".toList⟩]))
  have hthree : reviewList 2 4 (.opened [p ++ "a-3.ts".toList] .eof)
      = .ok [⟨none, p ++ "a-3.ts".toList⟩] :=
    (h.review 2 4 ["a-3.ts".toList] (by decide +kernel)).trans
      (congrArg (Except.map _) (by decide +kernel : reviewList 2 4 (.opened ["a-3.ts".toList] .eof)
        = .ok [⟨none, "a-3.ts".toList⟩]))
  obtain ⟨hkind, t, ht, _, ht2⟩ := segment_of_reviewList hone
  obtain ⟨-, t', ht', ht2', _⟩ := segment_of_reviewList hthree
  constructor
  · intro hdash
    rw [getTsTime_behind_dashed hp hdash] at ht ht'
    obtain rfl : t = t' := Except.ok.inj (ht.symm.trans ht')
    omega
  · have hsegment := (isSegmentLine_iff _).mpr hkind
    unfold isSegmentLine isExtinfLine at hsegment
    rw [contains_directory hp (by decide) (w := "#EXTINF:".toList)] at hsegment
    simp only [Bool.and_eq_true, Bool.not_eq_true', Bool.or_eq_false_iff] at hsegment
    exact hsegment.2.1

/-- **Where the segments are hosted does not matter** exactly when the directory has no
dash and no EXTINF tag in its name; for the times alone the dash is enough. -/
theorem host_independent_iff {p : JString} (hp : p.getLast? = some '/') :
    (HostIndependent p ↔ '-' ∉ p ∧ contains p "#EXTINF:".toList = false)
      ∧ ((∀ s t, isSegmentLine s = true → getTsTime s = .ok t → getTsTime (p ++ s) = .ok t)
          ↔ '-' ∉ p) := by
  constructor
  · exact ⟨plain_of_hostIndependent hp, fun h => hostIndependent_of_plain hp h.1 h.2⟩
  · constructor
    · intro h hdash
      have hone := h "a-1.ts".toList 1 (by decide +kernel) (by decide +kernel)
      have hthree := h "a-3.ts".toList 3 (by decide +kernel) (by decide +kernel)
      rw [getTsTime_behind_dashed hp hdash] at hone hthree
      exact absurd (hone.symm.trans hthree) (by simp)
    · intro hdash s t _ ht
      rw [getTsTime_behind hdash]
      exact ht

theorem host_independent_plain :
    HostIndependent "http://cdn.example.com/live/".toList :=
  (host_independent_iff (p := "http://cdn.example.com/live/".toList) rfl).1.mpr
    ⟨by decide +kernel, by decide +kernel⟩

/-- **On a host with a dash in its name** every segment is taken for one of the second 1,
and the review is empty. -/
theorem dashed_host_selects_nothing :
    ("http://cdn-1.example.com/".toList).getLast? = some '/'
      ∧ getTsTime "cctv-1508151606.ts".toList = .ok 1508151606
      ∧ getTsTime ("http://cdn-1.example.com/".toList ++ "cctv-1508151606.ts".toList) = .ok 1
      ∧ reviewList 1508151600 1508151610 (.opened reviewLines .eof)
        = .ok [⟨some "#EXTINF:5.5,".toList, "cctv-1508151606.ts".toList⟩]
      ∧ reviewList 1508151600 1508151610
          (.opened (reviewLines.map (rehost "http://cdn-1.example.com/".toList)) .eof)
        = .ok [] := by
  decide +kernel

end NginxNettyHls.M3u8Filter
