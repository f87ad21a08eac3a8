/-
  NginxNettyHls.M3u8Filter.StoredSessions
  ───────────────────────────────────────
  **THE NUMBERS OF THE SESSIONS IN THE STORE.**

  `sequence` is a `long` that is incremented without a test.  It cannot wrap around:
  a session starts with 0, and it is moved only to a newer segment, so the number is
  never above `last_time`, which is an `int`.

    • `over_storable` — the moves of one follow-up keep that;
    • `storable_of_reaches` — so do all requests together, in any order;
    • `follow_up_agrees` — a follow-up from a stored session agrees with a first
      response;
    • `moved_twice` — the `int` that counts lines does wrap around.
-/
import NginxNettyHls.M3u8Filter.FollowUp
import NginxNettyHls.M3u8Filter.SegmentTimes

namespace NginxNettyHls.M3u8Filter

open NginxNettyHls.Java
open KeyValue

/-! ## §1. The sessions a request writes. -/

/-- A session the code can have stored. -/
structure SessionDef.Storable (s : SessionDef) : Prop where
  nonneg : 0 ≤ s.sequence
  le_time : s.sequence ≤ s.lastTime
  time : SegmentTime s.lastTime

/-- Far below the greatest `long`. -/
theorem SessionDef.Storable.sequence_lt {s : SessionDef} (h : s.Storable) :
    IsInt64 s.sequence ∧ s.sequence < 2 ^ 63 - 1 := by
  have hnonneg := h.nonneg
  have hle := h.le_time
  have hmax := h.time.2
  refine ⟨⟨?_, ?_⟩, ?_⟩ <;> omega

theorem Segment.InRange.segmentTime {g : Segment} (h : g.InRange) : SegmentTime g.time :=
  ⟨h.1, Int.le_sub_one_of_lt h.2⟩

theorem storable_newSession {g : Segment} (hg : g.InRange) (timestamp : JString) :
    (newSession timestamp g).Storable :=
  ⟨le_refl 0, hg.1, hg.segmentTime⟩

/-- A move to a newer segment leaves room for the next number. -/
theorem SessionDef.Storable.advance {s : SessionDef} (h : s.Storable) {t : Int}
    (ht : SegmentTime t) (hlt : s.lastTime < t) : (s.advance t).Storable := by
  obtain ⟨hint, hmax⟩ := h.sequence_lt
  have hnonneg := h.nonneg
  have hle := h.le_time
  have hsucc : (s.advance t).sequence = s.sequence + 1 := (toInt64_succ_eq_iff hint).mpr hmax
  refine ⟨?_, ?_, ht⟩
  · rw [hsucc]
    omega
  · rw [hsucc]
    show s.sequence + 1 ≤ t
    omega

/-- **Run lemma**: every session a follow-up writes is storable, if its own is; also where the
session is moved more than once. -/
theorem over_storable (query : Option JString) :
    ∀ (gs : List Segment) (v : SessionVars), v.session.Storable → (∀ g ∈ gs, g.InRange) →
      ∀ w ∈ ((sessionFilter query).over v gs).puts, w.Storable := by
  intro gs
  induction gs with
  | nil => intro v _ _ w hw; exact absurd hw List.not_mem_nil
  | cons g gs ih =>
      intro v hv hgs w hw
      have hg := (hgs g List.mem_cons_self).segmentTime
      have hrest : ∀ x ∈ gs, x.InRange := fun x hx => hgs x (List.mem_cons_of_mem g hx)
      have hputs : w ∈ (sessionSegment query v g).put.toList
          ++ ((sessionFilter query).over (sessionSegment query v g).vars gs).puts := hw
      rcases sessionSegment_cases query v g with ⟨hput, hsession⟩ | ⟨hpass, hput, hsession⟩
      · rw [hput] at hputs
        exact ih _ (by rw [hsession]; exact hv) hrest w hputs
      · have hmoved := hv.advance hg ((hg.sub_pos_iff hv.time).mp hpass)
        rw [hput] at hputs
        rcases List.mem_cons.mp hputs with rfl | hlater
        · exact hmoved
        · exact ih _ (by rw [hsession]; exact hmoved) hrest w hlater

/-- What a follow-up writes. -/
theorem storable_followUp {s : SessionDef} (h : s.Storable) {query : Option JString}
    {file : FileRead} : ∀ w ∈ (m3u8PlayseekFilterSession s query file).puts, w.Storable := by
  intro w hw
  rw [playseekFilterSession_puts] at hw
  exact over_storable query file.segments _ h file.inRange w hw

/-! ## §2. The store. -/

/-- A value under a key that holds a storable session, or none. -/
def StorableEntry (_ : JString) (stored : Option Stored) : Prop :=
  ∀ s, stored = some (.session s) → s.Storable

theorem storableEntry_none (key : JString) : StorableEntry key none := fun _ h => (nomatch h)

variable {c : ConfigControl}

/-- Setting storable sessions keeps the store as it should be. -/
theorem setOps_storable (c : ConfigControl) (mtvSession : JString) :
    SetOps c mtvSession SessionDef.Storable (Prog.Op.Leaves StorableEntry) := by
  refine ⟨trivial, ?_, storableEntry_none (sessionKey mtvSession)⟩
  intro s hs s' hs'
  obtain rfl : s = s' := by simpa using hs'
  exact hs

theorem getSession_eq_some {stored : Option Stored} {s : SessionDef}
    (h : getSession stored = some s) : stored = some (.session s) := by
  unfold getSession at h
  split at h
  · rw [Option.some.inj h]
  · exact absurd h (by simp)

/-- The playlist of a request, whatever session it finds. -/
theorem keeps_playSeekFile (path seekTime mtvSession timestamp : JString)
    (query : Option JString) :
    (playSeekFile c path seekTime mtvSession timestamp query).Keeps StorableEntry := by
  intro v hv
  have hops := setOps_storable c mtvSession
  have hanew := each_seekAnew hops (fun g hg => storable_newSession hg timestamp) path seekTime
    query
  show (playSeekWith c path seekTime (sessionKey mtvSession) timestamp query
    (getSession v)).Keeps StorableEntry
  apply Prog.keeps_of_each
  cases hsession : getSession v with
  | none => exact hanew
  | some s =>
      have hs : s.Storable := hv s (getSession_eq_some hsession)
      by_cases hts : s.timestamp = some timestamp
      · rw [playSeekWith_kept c path seekTime _ query hts]
        exact each_followUp hops path (fun file => storable_followUp hs)
      · rw [playSeekWith_changed c path seekTime _ query hts]
        exact ⟨hops.del, hanew⟩

theorem storable_playSeekHandler (c : ConfigControl) (request : HttpRequest) :
    (playSeekHandler c request).Keeps StorableEntry := by
  rcases playSeekHandler_cases c request with
    ⟨r, hret⟩ | ⟨seekTime, m, timestamp, uri, _, _, missing, hgo⟩
  · rw [hret]
    trivial
  · rw [hgo]
    intro hasIndex
    cases hasIndex with
    | true => exact keeps_playSeekFile _ seekTime m timestamp uri.query
    | false =>
        intro hasM3u8
        cases hasM3u8 with
        | true => exact keeps_playSeekFile _ seekTime m timestamp uri.query
        | false => trivial

/-- **Every reachable store** holds storable sessions only. -/
theorem storable_of_reaches {s : SessionService} (h : SessionService.Reachable c s)
    {key : JString} {session : SessionDef} (hs : s.store key = some (.session session)) :
    session.Storable := by
  refine Service.store_of_reaches storableEntry_none ?_ storableEntry_none h key session hs
  rintro p ⟨request, rfl⟩
  exact storable_playSeekHandler c request

/-! ## §3. Follow-ups from stored sessions. -/

/-- **The follow-up path agrees with the first-response path** for every session that is ever
stored, over every playlist that has the segment at its `last_time`. -/
theorem follow_up_agrees (c : ConfigControl) (service : SessionService)
    (hreach : SessionService.Reachable c service) (key : JString) (s : SessionDef)
    (hs : service.store key = some (.session s)) (P : Playlist) (timestamp : JString)
    (query : Option JString) (h : ∃ g ∈ P.segments, g.time = s.lastTime) :
    PathsAgree query s.sequence (m3u8PlayseekFilterSession s query P.file)
      (m3u8PlayseekFilter timestamp query s.lastTime P.file) := by
  obtain ⟨hint, hmax⟩ := (storable_of_reaches hreach hs).sequence_lt
  exact (follow_up_agrees_iff P timestamp query s hint h).mpr (Or.inl hmax)

/-- What one request has stored in `minuteStore`. -/
def minuteSession : SessionDef := ⟨some "1".toList, 1508153098, 0⟩

theorem minuteSession_stored :
    minuteStore (sessionKey "viewer".toList) = some (.session minuteSession) := by
  decide +kernel

/-- Its follow-up, when two more segments have come and one is gone. -/
theorem follow_up_agrees_minute :
    PathsAgree none 0
      (m3u8PlayseekFilterSession minuteSession none (Playlist.live _ liveTimes_dropped).file)
      (m3u8PlayseekFilter "1".toList none 1508153098
        (Playlist.live _ liveTimes_dropped).file) := by
  obtain ⟨running, hreach⟩ := reachable_serveAll shippedConfig minuteRequests
  exact follow_up_agrees shippedConfig ⟨minuteStore, running⟩ hreach (sessionKey "viewer".toList)
    minuteSession minuteSession_stored (Playlist.live _ liveTimes_dropped) "1".toList none
    ⟨liveSegment 1508153098, List.mem_cons_self, rfl⟩

/-! ## §4. The counter of lines. -/

/-- The lines of the segments at `times`, without `#EXTINF`. -/
def bareLine (t : Int) : JString := (liveSegment t).line

def bareSegment (t : Int) : Segment := ⟨none, bareLine t, t⟩

/-- A line whose time is read is a segment. -/
theorem tsSegments_cons {line : JString} {t : Int} (hkind : lineKind line = .segment)
    (htime : getTsTime line = .ok t) (ext : Option JString) (rest : List JString) :
    (tsSegments ext (line :: rest)).1 = ⟨ext, line, t⟩ :: (tsSegments ext rest).1 := by
  simp [tsSegments, hkind, htime]

theorem tsSegments_replicate {line : JString} {t : Int} (hkind : lineKind line = .segment)
    (htime : getTsTime line = .ok t) (ext : Option JString) (rest : List JString) :
    ∀ n, (tsSegments ext (List.replicate n line ++ rest)).1
      = List.replicate n ⟨ext, line, t⟩ ++ (tsSegments ext rest).1 := by
  intro n
  induction n with
  | zero => rfl
  | succ n ih =>
      rw [List.replicate_succ, List.cons_append, tsSegments_cons hkind htime, ih]
      rfl

/-- The segment at `last_time`, the line that moves the session, `n` more of it, and a newer
one. -/
def repeatedFile (n : Nat) : FileRead :=
  .opened (bareLine 1508153098 :: bareLine 1508153104
    :: (List.replicate n (bareLine 1508153104) ++ [bareLine 1508153110])) .eof

theorem repeatedFile_segments (n : Nat) :
    (repeatedFile n).segments = [bareSegment 1508153098] ++ bareSegment 1508153104
      :: (List.replicate n (bareSegment 1508153104) ++ [bareSegment 1508153110]) := by
  have hread : ∀ t ∈ [(1508153098 : Int), 1508153104, 1508153110],
      lineKind (bareLine t) = .segment ∧ getTsTime (bareLine t) = .ok t := by decide +kernel
  obtain ⟨hfirst, htime⟩ := hread 1508153098 (by decide)
  obtain ⟨hsecond, htime'⟩ := hread 1508153104 (by decide)
  obtain ⟨hlast, htime''⟩ := hread 1508153110 (by decide)
  show (tsSegments none _).1 = _
  rw [tsSegments_cons hfirst htime, tsSegments_cons hsecond htime',
    tsSegments_replicate hsecond htime', tsSegments_cons hlast htime'']
  rfl

/-- Repeated often enough, the line that moves the session brings `index` back to 0. -/
theorem not_noneInPlace_repeated {n : Nat} (hn : (2 + n) % 2 ^ 32 = 1) :
    ¬ NoneInPlace 1508153104 2
      (List.replicate n (bareSegment 1508153104) ++ [bareSegment 1508153110]) := by
  have hsame : (bareSegment 1508153104).time = 1508153104
      ∨ 0 < toInt32 ((bareSegment 1508153104).time - 1508153104) := Or.inl rfl
  have hcounted : ∀ m, counted 1508153104
      (List.replicate m (bareSegment 1508153104) ++ [bareSegment 1508153110])
      = List.replicate m (bareSegment 1508153104) ++ [bareSegment 1508153110] := by
    intro m
    induction m with
    | zero => decide +kernel
    | succ m ih =>
        rw [List.replicate_succ, List.cons_append, counted_cons_of_pos hsame, ih]
  intro h
  have hlast := h n (bareSegment 1508153110) hn (by
    rw [hcounted, List.getElem?_append_right List.length_replicate.le]
    simp)
  exact absurd hlast (by decide)

/-- Then the newer line moves it again. -/
theorem repeated_moves {n : Nat} (hn : (2 + n) % 2 ^ 32 = 1) :
    1 < (m3u8PlayseekFilterSession minuteSession none (repeatedFile n)).puts.length := by
  have hbefore : NoneInPlace minuteSession.lastTime 0 [bareSegment 1508153098] := by
    have hone : counted minuteSession.lastTime [bareSegment 1508153098]
        = [bareSegment 1508153098] := by decide +kernel
    intro k g _ hg
    rw [hone] at hg
    rw [List.mem_singleton.mp (List.mem_of_getElem? hg)]
    rfl
  have hputs := sessionFilter_firstMove none minuteSession (bareSegment 1508153104)
    (List.replicate n (bareSegment 1508153104) ++ [bareSegment 1508153110])
    (by decide) (by decide) [bareSegment 1508153098] 0 hbefore (by decide +kernel)
  have hmore := mt (sessionFilter_puts_eq_nil none (minuteSession.advance 1508153104)
    (List.replicate n (bareSegment 1508153104) ++ [bareSegment 1508153110]) 2).mp
    (not_noneInPlace_repeated hn)
  rw [playseekFilterSession_puts, repeatedFile_segments, hputs, List.length_cons]
  exact Nat.succ_lt_succ (List.length_pos_of_ne_nil hmore)

/-- **Moved twice**: a stored session and a playlist that repeats the line that moves it
`2 ^ 32 - 1` times, so that the newer line behind them is met with `index` at 0 again. -/
theorem moved_twice :
    (∃ running, SessionService.Reachable shippedConfig ⟨minuteStore, running⟩)
      ∧ minuteStore (sessionKey "viewer".toList) = some (.session minuteSession)
      ∧ ¬ OneMove minuteSession (repeatedFile (2 ^ 32 - 1)).lines
        (m3u8PlayseekFilterSession minuteSession none (repeatedFile (2 ^ 32 - 1))).puts := by
  refine ⟨reachable_serveAll shippedConfig minuteRequests, minuteSession_stored, ?_⟩
  intro hone
  exact absurd hone.1 (not_le_of_gt (repeated_moves (by decide)))

end NginxNettyHls.M3u8Filter
