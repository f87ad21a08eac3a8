/-
  NginxNettyHls.M3u8Filter.SegmentTimes
  ─────────────────────────────────────
  **THE COMPARISON OF SEGMENT TIMES NEVER OVERFLOWS.**

  `m3u8_playseek_filter_session` compares two `int`s by the sign of their 32-bit
  difference, which is exact only while both are non-negative (or both
  negative).  What `get_ts_time` returns is read from between two dashes, so it
  is in `[0, 2^31 - 1]`.  From there:

    • `line_segmentTime` and `loop_segmentTime` — one line, and so any number of
      lines, of the follow-up keep `session.last_time` in that range, also where
      it is moved in the middle of the loop;
    • `written_of_reaches` — so is every `last_time` in the store, in every state
      reached from the empty store by playseek requests that arrive at any time,
      interleave in any way and meet any playlist and any clock, with sessions
      expiring in between;
    • `follow_up_exact` — the follow-up from a stored session is the one that
      compares the times as integers.
-/
import NginxNettyHls.KeyValue.Arrivals
import NginxNettyHls.M3u8Filter.MediaSequence
import NginxNettyHls.M3u8Filter.Operations

namespace NginxNettyHls.M3u8Filter

open NginxNettyHls.Java
open KeyValue

/-! ## §1. The times of a loop. -/

/-- A value `get_ts_time` can return. -/
def SegmentTime (t : Int) : Prop := 0 ≤ t ∧ t ≤ 2 ^ 31 - 1

theorem getTsTime_segmentTime {s : JString} {t : Int} (h : getTsTime s = .ok t) :
    SegmentTime t := by
  have hr := getTsTime_range h
  exact ⟨hr.1, by omega⟩

/-- Between two segment times the sign of the 32-bit difference is the order. -/
theorem SegmentTime.sub_pos_iff {t l : Int} (ht : SegmentTime t) (hl : SegmentTime l) :
    0 < toInt32 (t - l) ↔ l < t := by
  obtain ⟨ht0, ht1⟩ := ht
  obtain ⟨hl0, hl1⟩ := hl
  exact toInt32_sub_pos_iff_lt ht0 (by omega) hl0 (by omega)

/-- **Step lemma**: a line leaves a segment time in `session.last_time`. -/
theorem line_segmentTime {query : Option JString} {st st' : LoopState SessionVars}
    {s : JString} {put : Option SessionDef}
    (h : (sessionFilter query).line st s = .ok (st', put))
    (hl : SegmentTime st.vars.session.lastTime) : SegmentTime st'.vars.session.lastTime := by
  unfold Filter.line at h
  cases hk : lineKind s with
  | segment =>
      cases ht : getTsTime s with
      | error e => simp [hk, ht] at h
      | ok t =>
          simp only [hk, ht, Except.ok.injEq, Prod.mk.injEq] at h
          rw [← h.1]
          show SegmentTime (sessionSegment query st.vars ⟨st.extInfo, s, t⟩).vars.session.lastTime
          -- the session stays as it is, or takes the time of this line
          rcases sessionSegment_cases query st.vars ⟨st.extInfo, s, t⟩ with ⟨_, hv⟩ | ⟨_, _, hv⟩
          · rw [hv]
            exact hl
          · rw [hv]
            exact getTsTime_segmentTime ht
  | extinf | title | mediaSequence | other =>
      simp only [hk, Except.ok.injEq, Prod.mk.injEq] at h
      rw [← h.1]
      exact hl

/-- **Run lemma**: so do any number of lines. -/
theorem loop_segmentTime {query : Option JString} :
    ∀ (lines : List JString) (st : LoopState SessionVars) {puts : List SessionDef}
      {st' : LoopState SessionVars}, (sessionFilter query).loop st lines = (puts, .ok st') →
      SegmentTime st.vars.session.lastTime → SegmentTime st'.vars.session.lastTime := by
  intro lines
  induction lines with
  | nil =>
      intro st puts st' h hl
      simp only [Filter.loop, Prod.mk.injEq, Except.ok.injEq] at h
      rw [← h.2]
      exact hl
  | cons s rest ih =>
      intro st puts st' h hl
      unfold Filter.loop at h
      cases hline : (sessionFilter query).line st s with
      | error e => simp [hline] at h
      | ok r =>
          obtain ⟨st1, put⟩ := r
          simp only [hline, Prod.mk.injEq] at h
          exact ih st1 (Prod.ext rfl h.2) (line_segmentTime hline hl)

/-! ## §2. The comparison as integers. -/

/-- The branch for segment lines with the times compared as integers. -/
def exactSegment (query : Option JString) (v : SessionVars) (g : Segment) :
    Turn SessionVars :=
  if g.time = v.session.lastTime then
    ⟨{ v with index := toInt32 (v.index + 1) }, none, []⟩
  else if v.session.lastTime < g.time then
    let entry := if v.index < 3 then [Piece.entry g query] else []
    if v.index = 0 then
      let session := v.session.advance g.time
      ⟨⟨toInt32 (v.index + 1), session⟩, some session, .number session.sequence :: entry⟩
    else ⟨{ v with index := toInt32 (v.index + 1) }, none, entry⟩
  else ⟨v, none, []⟩

def exactFilter (query : Option JString) : Filter SessionVars where
  onSegment := exactSegment query
  onMediaSequence := [.mediaSequence]

theorem sessionSegment_exact (query : Option JString) {v : SessionVars} {g : Segment}
    (hl : SegmentTime v.session.lastTime) (hg : SegmentTime g.time) :
    sessionSegment query v g = exactSegment query v g := by
  unfold sessionSegment exactSegment
  simp only [hg.sub_pos_iff hl]

theorem sessionLine_exact (query : Option JString) {st : LoopState SessionVars} (s : JString)
    (hl : SegmentTime st.vars.session.lastTime) :
    (sessionFilter query).line st s = (exactFilter query).line st s := by
  unfold Filter.line
  cases lineKind s with
  | segment =>
      cases ht : getTsTime s with
      | error e => rfl
      | ok t =>
          simp only [sessionFilter, exactFilter,
            sessionSegment_exact query (g := ⟨st.extInfo, s, t⟩) hl (getTsTime_segmentTime ht)]
  | extinf | title | mediaSequence | other => rfl

/-- **The follow-up loop compares as over the integers**, from any session whose
`last_time` is a segment time. -/
theorem session_loop_exact (query : Option JString) :
    ∀ (lines : List JString) (st : LoopState SessionVars),
      SegmentTime st.vars.session.lastTime →
      (sessionFilter query).loop st lines = (exactFilter query).loop st lines := by
  intro lines
  induction lines with
  | nil => intro st _; rfl
  | cons s rest ih =>
      intro st hl
      unfold Filter.loop
      rw [← sessionLine_exact query s hl]
      cases hline : (sessionFilter query).line st s with
      | error e => rfl
      | ok r =>
          obtain ⟨st1, put⟩ := r
          simp only [ih st1 (line_segmentTime hline hl)]

/-! ## §3. The times in the store. -/

/-- The clients that come to the session store: playseek requests. -/
def ArrivingPlayseek (c : ConfigControl) (p : Client PlayseekReply) : Prop :=
  ∃ request, p = playSeekHandler c request

/-- The session service in operation: the store, and what is left of the requests. -/
abbrev SessionService := Service JString Stored Query Query.Answer PlayseekReply

/-- A state that playseek requests reach from the empty store. -/
def SessionService.Reachable (c : ConfigControl) (s : SessionService) : Prop :=
  Service.Reaches (ArrivingPlayseek c) ⟨emptyStore, []⟩ s

/-- The store after playseek requests handled one after the other, each with the clock
and the playlists it meets. -/
def serveAll (c : ConfigControl) (requests : List (HttpRequest × ∀ q : Query, q.Answer)) :
    SessionStore :=
  Service.execAll (requests.map (fun r => (playSeekHandler c r.1, r.2))) emptyStore

/-- Any sequence of requests leads to a reachable state. -/
theorem reachable_serveAll (c : ConfigControl)
    (requests : List (HttpRequest × ∀ q : Query, q.Answer)) :
    ∃ running, SessionService.Reachable c ⟨serveAll c requests, running⟩ := by
  apply Service.reaches_execAll
  intro x hx
  obtain ⟨r, _, rfl⟩ := List.mem_map.mp hx
  exact ⟨r.1, rfl⟩

/-- A playseek request, whatever it is answered, leaves only sessions with a segment
time. -/
theorem each_leaves_written (c : ConfigControl) (request : HttpRequest) :
    (playSeekHandler c request).Each (Prog.Op.Leaves (fun _ v => Written v)) := by
  apply each_playSeekHandler_timed
  intro m timestamp _ _
  refine ⟨trivial, ?_, ?_⟩
  · intro s ⟨_, htime⟩ s' hs'
    obtain rfl : s = s' := by simpa using hs'
    exact htime
  · intro s hs
    exact absurd hs (by simp)

/-- **Every reachable store** holds segment times only. -/
theorem written_of_reaches {c : ConfigControl} {s : SessionService}
    (h : SessionService.Reachable c s) : ∀ key, Written (s.store key) := by
  have hnone : ∀ _ : JString, Written none := by
    intro _ s hs
    exact absurd hs (by simp)
  refine Service.store_of_reaches (Ψ := fun _ v => Written v) hnone ?_ hnone h
  rintro p ⟨request, rfl⟩
  exact Prog.keeps_of_each _ (each_leaves_written c request)

theorem segmentTime_of_reaches {c : ConfigControl} {s : SessionService}
    (h : SessionService.Reachable c s) {key : JString} {session : SessionDef}
    (hs : s.store key = some (.session session)) : SegmentTime session.lastTime := by
  have hw := written_of_reaches h key session hs
  exact ⟨hw.1, by omega⟩

/-- **A follow-up from a stored session** is the one that compares integers. -/
theorem follow_up_exact {c : ConfigControl} {s : SessionService}
    (h : SessionService.Reachable c s) {key : JString} {session : SessionDef}
    (hs : s.store key = some (.session session)) (query : Option JString)
    (lines : List JString) (fin : ReadEnd) :
    m3u8PlayseekFilterSession session query (.opened lines fin)
      = ⟨((exactFilter query).loop ⟨none, ⟨-1, session⟩, []⟩ lines).1,
          fin.raise (((exactFilter query).loop ⟨none, ⟨-1, session⟩, []⟩ lines).2.map
            (fun st => st.sb ++ closingNumber st.vars))⟩ := by
  rw [← session_loop_exact query lines _ (segmentTime_of_reaches h hs)]
  rfl

/-- **Segment times are compared exactly**: `get_ts_time` returns a non-negative `int`;
so is every `last_time` in a reachable store; and where a follow-up from such a session
comes to a line with a time, after whatever lines it has read, the 32-bit test holds
exactly when the time is the greater one. -/
theorem segment_times_compared_exactly (c : ConfigControl) :
    (∀ (line : JString) (tsTime : Int), getTsTime line = .ok tsTime →
        0 ≤ tsTime ∧ tsTime ≤ 2 ^ 31 - 1)
      ∧ ∀ s : SessionService, SessionService.Reachable c s →
          ∀ (key : JString) (session : SessionDef), s.store key = some (.session session) →
            (0 ≤ session.lastTime ∧ session.lastTime ≤ 2 ^ 31 - 1)
              ∧ ∀ (query : Option JString) (before : List JString) (puts : List SessionDef)
                  (st : LoopState SessionVars) (line : JString) (tsTime : Int),
                  (sessionFilter query).loop ⟨none, ⟨-1, session⟩, []⟩ before = (puts, .ok st) →
                  getTsTime line = .ok tsTime →
                  (0 < toInt32 (tsTime - st.vars.session.lastTime)
                    ↔ st.vars.session.lastTime < tsTime) := by
  refine ⟨fun line tsTime h => getTsTime_segmentTime h, ?_⟩
  intro s hreach key session hs
  have hsession : SegmentTime session.lastTime := segmentTime_of_reaches hreach hs
  refine ⟨hsession, ?_⟩
  intro query before puts st line tsTime hloop ht
  have hlast : SegmentTime st.vars.session.lastTime := loop_segmentTime before _ hloop hsession
  exact (getTsTime_segmentTime ht).sub_pos_iff hlast

/-- A first request one minute back. -/
def minuteRequests : List (HttpRequest × ∀ q : Query, q.Answer) :=
  [((liveVisit "000100".toList _ liveTimes_first).request,
    (liveVisit "000100".toList _ liveTimes_first).env)]

def minuteStore : SessionStore := serveAll shippedConfig minuteRequests

/-- The loop of a follow-up from segment 1508153098, once `last_time` has moved to the
next one. -/
def minuteMoved : LoopState SessionVars where
  extInfo := some "#EXTINF:6,".toList
  vars := ⟨1, ⟨some "1".toList, 1508153104, 1⟩⟩
  sb := [.number 1, .entry (liveSegment 1508153104) none]

/-- One request stores segment 1508153098; its follow-up moves on to the next one and
goes on comparing. -/
theorem minute_compared_exactly :
    ∃ running, SessionService.Reachable shippedConfig ⟨minuteStore, running⟩
      ∧ (0 < toInt32 (1508153110 - minuteMoved.vars.session.lastTime)
          ↔ minuteMoved.vars.session.lastTime < 1508153110) := by
  obtain ⟨running, hreach⟩ := reachable_serveAll shippedConfig minuteRequests
  have hstored : minuteStore (sessionKey "viewer".toList)
      = some (.session ⟨some "1".toList, 1508153098, 0⟩) := by decide +kernel
  refine ⟨running, hreach, ?_⟩
  exact ((segment_times_compared_exactly shippedConfig).2 ⟨minuteStore, running⟩ hreach
    (sessionKey "viewer".toList) ⟨some "1".toList, 1508153098, 0⟩ hstored).2 none
    (liveBody [1508153098, 1508153104]) [⟨some "1".toList, 1508153104, 1⟩] minuteMoved
    (liveSegment 1508153110).line 1508153110 (by rfl) (by decide +kernel)

end NginxNettyHls.M3u8Filter
