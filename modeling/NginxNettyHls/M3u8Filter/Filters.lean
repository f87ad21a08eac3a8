/-
  NginxNettyHls.M3u8Filter.Filters
  ────────────────────────────────
  **THE THREE LINE FILTERS of `m3u8Capture`.**

  The two playseek filters share one loop (`Filter.loop`): EXTINF lines are
  remembered, the tags are copied, and a segment line is handed to the filter's
  own branch with its time.  That branch is all they differ in, besides the
  text of the media-sequence tag:

    • `seekSegment` of `m3u8_playseek_filter` — start a window after
      `absolute_time`, index from 0;
    • `sessionSegment` of `m3u8_playseek_filter_session` — go on after
      `session.last_time`, index from -1, with `last_time` moved in the middle
      of the loop.

  The session writes of a loop are logged in `puts` in the order they happen,
  also when a later line throws.  `m3u8_playback_filter` collects a title and a
  list and writes no session.

  `Filter.loop_puts` and `Filter.loop_ok` reduce the loop over lines to
  `Filter.over`, the same loop over the segments of the file.
-/
import NginxNettyHls.M3u8Filter.Playlist

namespace NginxNettyHls.M3u8Filter

open NginxNettyHls.Java

/-! ## §1. The shared loop. -/

/-- `sessionDef`. -/
structure SessionDef where
  timestamp : Option JString
  lastTime : Int
  sequence : Int
  deriving Repr, DecidableEq

/-- What one segment line does: the loop variables after it, the session it
writes to the store, the pieces it appends. -/
structure Turn (σ : Type) where
  vars : σ
  put : Option SessionDef
  out : List Piece

/-- A playseek filter: its branch for segment lines and what it appends for the
media-sequence tag. -/
structure Filter (σ : Type) where
  onSegment : σ → Segment → Turn σ
  onMediaSequence : List Piece

/-- The variables of the loop: `ext_info`, those of the segment branch, `sb`. -/
structure LoopState (σ : Type) where
  extInfo : Option JString
  vars : σ
  sb : List Piece

variable {σ : Type}

/-- One iteration of the `while` loop on the line `s`. -/
def Filter.line (F : Filter σ) (st : LoopState σ) (s : JString) :
    Except Exn (LoopState σ × Option SessionDef) :=
  match lineKind s with
  -- `ext_info` is never reset: it stays in force until the next EXTINF line
  | .extinf => .ok ({ st with extInfo := some s }, none)
  | .segment =>
      match getTsTime s with
      | .error e => .error e
      | .ok tsTime =>
          let t := F.onSegment st.vars ⟨st.extInfo, s, tsTime⟩
          .ok ({ st with vars := t.vars, sb := st.sb ++ t.out }, t.put)
  | .title => .ok ({ st with sb := st.sb ++ [.title s] }, none)
  | .mediaSequence => .ok ({ st with sb := st.sb ++ F.onMediaSequence }, none)
  | .other => .ok (st, none)

/-- The `while` loop: the sessions written, and the variables after the last
line or the exception that ended it. -/
def Filter.loop (F : Filter σ) :
    LoopState σ → List JString → List SessionDef × Except Exn (LoopState σ)
  | st, [] => ([], .ok st)
  | st, s :: rest =>
      match F.line st s with
      | .error e => ([], .error e)
      | .ok (st', put) =>
          -- a session written here stays written, whatever the rest does
          let r := Filter.loop F st' rest
          (put.toList ++ r.1, r.2)

/-- The outcome of a playseek filter: the sessions it wrote, and the content of
`sb` or the exception it ended with. -/
structure FilterRun where
  puts : List SessionDef
  result : Except Exn (List Piece)

/-- What a failing `readLine` or `close` makes of the loop's result. -/
def ReadEnd.raise {α : Type} (fin : ReadEnd) (r : Except Exn α) : Except Exn α :=
  match r, fin with
  | .error e, _ => .error e
  | .ok a, .eof => .ok a
  | .ok _, _ => .error .io

/-! ## §2. The first response: `m3u8_playseek_filter`. -/

/-- Its branch for segment lines; `index` is its only loop variable. -/
def seekSegment (timestamp : JString) (query : Option JString) (absoluteTime : Int)
    (index : Int) (g : Segment) : Turn Int :=
  -- `ts_time - absolute_time > 0`, an `int` difference
  if 0 < toInt32 (g.time - absoluteTime) then
    { vars := toInt32 (index + 1)
      put := if index = 0 then some ⟨some timestamp, g.time, 0⟩ else none
      out := if index < 3 then [.entry g query] else [] }
  else ⟨index, none, []⟩

def seekFilter (timestamp : JString) (query : Option JString) (absoluteTime : Int) :
    Filter Int where
  onSegment := seekSegment timestamp query absoluteTime
  onMediaSequence := [.mediaSequence, .number 0]

/-- `m3u8_playseek_filter` from the opening of the file on. -/
def m3u8PlayseekFilter (timestamp : JString) (query : Option JString)
    (absoluteTime : Int) : FileRead → FilterRun
  | .notFound => ⟨[], .error .io⟩
  | .opened lines fin =>
      let r := (seekFilter timestamp query absoluteTime).loop ⟨none, 0, []⟩ lines
      ⟨r.1, fin.raise (r.2.map (fun st => st.sb))⟩

/-! ## §3. The follow-up: `m3u8_playseek_filter_session`. -/

/-- The loop variables of its segment branch. -/
structure SessionVars where
  index : Int
  session : SessionDef
  deriving Repr, DecidableEq

/-- The session after `++session.sequence` and `session.last_time = ts_time`. -/
def SessionDef.advance (session : SessionDef) (tsTime : Int) : SessionDef :=
  { session with sequence := toInt64 (session.sequence + 1), lastTime := tsTime }

/-- Its branch for segment lines. -/
def sessionSegment (query : Option JString) (v : SessionVars) (g : Segment) :
    Turn SessionVars :=
  -- `index++; continue;`
  if g.time = v.session.lastTime then
    ⟨{ v with index := toInt32 (v.index + 1) }, none, []⟩
  else if 0 < toInt32 (g.time - v.session.lastTime) then
    let entry := if v.index < 3 then [Piece.entry g query] else []
    if v.index = 0 then
      -- later lines are compared with the new `last_time`
      let session := v.session.advance g.time
      ⟨⟨toInt32 (v.index + 1), session⟩, some session, .number session.sequence :: entry⟩
    else ⟨{ v with index := toInt32 (v.index + 1) }, none, entry⟩
  else ⟨v, none, []⟩

def sessionFilter (query : Option JString) : Filter SessionVars where
  onSegment := sessionSegment query
  onMediaSequence := [.mediaSequence]

/-- The number appended after the loop when `index == 0`. -/
def closingNumber (v : SessionVars) : List Piece :=
  if v.index = 0 then [.number v.session.sequence] else []

/-- `m3u8_playseek_filter_session`. -/
def m3u8PlayseekFilterSession (session : SessionDef) (query : Option JString) :
    FileRead → FilterRun
  | .notFound => ⟨[], .error .io⟩
  | .opened lines fin =>
      let r := (sessionFilter query).loop ⟨none, ⟨-1, session⟩, []⟩ lines
      ⟨r.1, fin.raise (r.2.map (fun st => st.sb ++ closingNumber st.vars))⟩

/-! ## §4. The review: `m3u8_playback_filter`. -/

/-- `tsInfo`. -/
structure TsInfo where
  ext : Option JString
  ts : JString
  deriving Repr, DecidableEq

/-- The loop variables of `m3u8_playback_filter`. -/
structure PlaybackState where
  extInfo : Option JString
  title : JString
  tsList : List TsInfo
  deriving Repr, DecidableEq

/-- One iteration of its loop. -/
def playbackLine (startTime endTime : Int) (st : PlaybackState) (s : JString) :
    Except Exn PlaybackState :=
  match lineKind s with
  | .extinf => .ok { st with extInfo := some s }
  | .segment =>
      match getTsTime s with
      | .error e => .error e
      | .ok tsTime =>
          if startTime < tsTime ∧ tsTime < endTime then
            .ok { st with tsList := st.tsList ++ [⟨st.extInfo, s⟩] }
          else .ok st
  | .title => .ok { st with title := st.title ++ s ++ "\r\n".toList }
  -- unlike in the playseek filters, the tag keeps its number
  | .mediaSequence => .ok { st with title := st.title ++ s ++ "\r\n".toList }
  | .other => .ok st

/-- `m3u8_playback_filter` from the opening of the file on: `m3u8_title` and
`ts_list`. -/
def m3u8PlaybackFilter (startTime endTime : Int) :
    FileRead → Except Exn (JString × List TsInfo)
  | .notFound => .error .io
  | .opened lines fin =>
      fin.raise ((lines.foldlM (playbackLine startTime endTime) ⟨none, [], []⟩).map
        (fun st => (st.title, st.tsList)))

/-! ## §5. From lines to segments. -/

/-- What a filter does over a list of segments. -/
structure SegmentRun (σ : Type) where
  puts : List SessionDef
  out : List Piece
  vars : σ

/-- The loop over segments. -/
def Filter.over (F : Filter σ) : σ → List Segment → SegmentRun σ
  | v, [] => ⟨[], [], v⟩
  | v, g :: gs =>
      let t := F.onSegment v g
      let r := Filter.over F t.vars gs
      ⟨t.put.toList ++ r.puts, t.out ++ r.out, r.vars⟩

/-- **The sessions a filter writes** are those of the segments before the first
line that throws. -/
theorem Filter.loop_puts (F : Filter σ) :
    ∀ (lines : List JString) (st : LoopState σ),
      (F.loop st lines).1 = (F.over st.vars (tsSegments st.extInfo lines).1).puts := by
  intro lines
  induction lines with
  | nil => intro st; rfl
  | cons s rest ih =>
      intro st
      simp only [Filter.loop, Filter.line, tsSegments]
      -- only a segment line writes; the others change `ext_info` or `sb`
      cases hk : lineKind s with
      | segment =>
          cases ht : getTsTime s with
          | error e => rfl
          | ok t => simp only [Filter.over, ih]
      | extinf | title | mediaSequence | other => simp [ih]

/-- A filter's loop ends in an exception exactly where reading the segment times
does. -/
theorem Filter.loop_error (F : Filter σ) :
    ∀ (lines : List JString) (st : LoopState σ) (e : Exn),
      (F.loop st lines).2 = .error e ↔ (tsSegments st.extInfo lines).2 = some e := by
  intro lines
  induction lines with
  | nil => intro st e; simp [Filter.loop, tsSegments]
  | cons s rest ih =>
      intro st e
      simp only [Filter.loop, Filter.line, tsSegments]
      cases hk : lineKind s with
      | segment =>
          cases ht : getTsTime s with
          | error e' => simp
          | ok t => exact ih _ e
      | extinf | title | mediaSequence | other => exact ih _ e

/-- **The loop over a file whose segment times can all be read**: the variables
at its end are those of the loop over the segments, and the pieces it appends
are those of the segments with the copied tags among them.  Lines without tags
add nothing of their own. -/
theorem Filter.loop_ok (F : Filter σ) (hF : listed F.onMediaSequence = []) :
    ∀ (lines : List JString) (st : LoopState σ),
      (tsSegments st.extInfo lines).2 = none →
      ∃ ei sb,
        (F.loop st lines).2
            = .ok ⟨ei, (F.over st.vars (tsSegments st.extInfo lines).1).vars, st.sb ++ sb⟩
          ∧ listed sb = listed (F.over st.vars (tsSegments st.extInfo lines).1).out
          ∧ (∀ p ∈ sb, p ∈ (F.over st.vars (tsSegments st.extInfo lines).1).out
              ∨ p ∈ F.onMediaSequence ∨ ∃ s, p = .title s)
          ∧ ((∀ s ∈ lines, lineKind s ≠ .title ∧ lineKind s ≠ .mediaSequence) →
              sb = (F.over st.vars (tsSegments st.extInfo lines).1).out) := by
  intro lines
  -- induction on the lines, with one case for each kind of line
  induction lines with
  | nil =>
      intro st _
      exact ⟨st.extInfo, [], by simp [Filter.loop, tsSegments, Filter.over], rfl,
        by simp, fun _ => rfl⟩
  | cons s rest ih =>
      intro st hok
      simp only [Filter.loop, Filter.line, tsSegments] at hok ⊢
      cases hk : lineKind s with
      | segment =>
          simp only [hk] at hok
          cases ht : getTsTime s with
          | error e => simp [ht] at hok
          | ok t =>
              simp only [ht] at hok
              -- the rest starts from the variables the segment has left
              obtain ⟨ei, sb, h1, h2, h3, h4⟩ :=
                ih ⟨st.extInfo, (F.onSegment st.vars ⟨st.extInfo, s, t⟩).vars,
                  st.sb ++ (F.onSegment st.vars ⟨st.extInfo, s, t⟩).out⟩ hok
              refine ⟨ei, (F.onSegment st.vars ⟨st.extInfo, s, t⟩).out ++ sb, ?_, ?_, ?_, ?_⟩
              · simp only [h1, Filter.over, List.append_assoc]
              · simp only [listed_append, h2, Filter.over]
              · intro p hp
                simp only [Filter.over]
                rcases List.mem_append.mp hp with hp | hp
                · exact Or.inl (List.mem_append_left _ hp)
                · rcases h3 p hp with h | h
                  · exact Or.inl (List.mem_append_right _ h)
                  · exact Or.inr h
              · intro hlines
                simp only [Filter.over]
                rw [h4 (fun s' hs' => hlines s' (List.mem_cons_of_mem s hs'))]
      | extinf =>
          simp only [hk] at hok
          obtain ⟨ei, sb, h1, h2, h3, h4⟩ := ih ⟨some s, st.vars, st.sb⟩ hok
          exact ⟨ei, sb, h1, h2, h3,
            fun hlines => h4 (fun s' hs' => hlines s' (List.mem_cons_of_mem s hs'))⟩
      | other =>
          simp only [hk] at hok
          obtain ⟨ei, sb, h1, h2, h3, h4⟩ := ih st hok
          exact ⟨ei, sb, h1, h2, h3,
            fun hlines => h4 (fun s' hs' => hlines s' (List.mem_cons_of_mem s hs'))⟩
      | title =>
          simp only [hk] at hok
          obtain ⟨ei, sb, h1, h2, h3, h4⟩ := ih ⟨st.extInfo, st.vars, st.sb ++ [.title s]⟩ hok
          refine ⟨ei, .title s :: sb, ?_, h2, ?_, ?_⟩
          · simp only [h1, List.append_assoc, List.singleton_append]
          · intro p hp
            rcases List.mem_cons.mp hp with hp | hp
            · exact Or.inr (Or.inr ⟨s, hp⟩)
            · exact h3 p hp
          · intro hlines
            exact absurd hk (hlines s List.mem_cons_self).1
      | mediaSequence =>
          simp only [hk] at hok
          obtain ⟨ei, sb, h1, h2, h3, h4⟩ :=
            ih ⟨st.extInfo, st.vars, st.sb ++ F.onMediaSequence⟩ hok
          refine ⟨ei, F.onMediaSequence ++ sb, ?_, ?_, ?_, ?_⟩
          · simp only [h1, List.append_assoc]
          · rw [listed_append, hF, List.nil_append, h2]
          · intro p hp
            rcases List.mem_append.mp hp with hp | hp
            · exact Or.inr (Or.inl hp)
            · exact h3 p hp
          · intro hlines
            exact absurd hk (hlines s List.mem_cons_self).2

end NginxNettyHls.M3u8Filter
