/-
  NginxNettyHls.M3u8Filter.Operations
  ───────────────────────────────────
  **EVERY STORE OPERATION OF A REQUEST**, on every path through the handlers.

  A playseek request gets, sets and deletes the one key of its `mtv_session`;
  every session it sets carries its own timestamp and the time of a segment, and
  lives for `keyAliveTimeout`.  A review touches nothing.  `each_handleGet` and
  `each_playSeekHandler_timed` say this for any property of operations at once:
  which keys are touched, what is written, and for how long are instances of it.
-/
import NginxNettyHls.KeyValue.Program
import NginxNettyHls.M3u8Filter.Serial

namespace NginxNettyHls.M3u8Filter

open NginxNettyHls.Java
open KeyValue

/-- The operations on the session of `mtvSession` that set only sessions of the kind `P` are of
the kind `Φ`. -/
structure SetOps (c : ConfigControl) (mtvSession : JString) (P : SessionDef → Prop)
    (Φ : Prog.Op JString Stored → Prop) : Prop where
  get : Φ (.get (sessionKey mtvSession))
  set : ∀ s : SessionDef, P s → Φ (.set (sessionKey mtvSession) (.session s) c.keyAliveTimeout)
  del : Φ (.del (sessionKey mtvSession))

/-- A session of a request with `timestamp`, with a `last_time` that `get_ts_time` returns. -/
def SessionDef.Timed (timestamp : JString) (s : SessionDef) : Prop :=
  s.timestamp = some timestamp ∧ 0 ≤ s.lastTime ∧ s.lastTime < 2 ^ 31

/-- The operations of a request of `mtvSession` with `timestamp` are of the kind `Φ`. -/
abbrev SessionOps (c : ConfigControl) (mtvSession timestamp : JString) :
    (Prog.Op JString Stored → Prop) → Prop :=
  SetOps c mtvSession (fun s => s.timestamp = some timestamp)

/-- The same, where `Φ` has to hold only for sessions with the time of a segment. -/
abbrev TimedOps (c : ConfigControl) (mtvSession timestamp : JString) :
    (Prog.Op JString Stored → Prop) → Prop :=
  SetOps c mtvSession (SessionDef.Timed timestamp)

variable {c : ConfigControl} {P : SessionDef → Prop} {Φ : Prog.Op JString Stored → Prop}
  {mtvSession timestamp : JString}

theorem SetOps.mono {P' : SessionDef → Prop} (h : SetOps c mtvSession P Φ)
    (hP : ∀ s, P' s → P s) : SetOps c mtvSession P' Φ :=
  ⟨h.get, fun s hs => h.set s (hP s hs), h.del⟩

/-! ## §1. The filters. -/

theorem each_putSessions (h : SetOps c mtvSession P Φ) (r : PlayseekReply) :
    ∀ puts : List SessionDef, (∀ s ∈ puts, P s) →
      (putSessions c (sessionKey mtvSession) puts (.ret r)).Each Φ := by
  intro puts
  induction puts with
  | nil => intro _; trivial
  | cons s puts ih =>
      intro hputs
      refine ⟨h.set s (hputs s List.mem_cons_self), ?_⟩
      exact ih (fun s' hs' => hputs s' (List.mem_cons_of_mem s hs'))

theorem each_withCurrentTime {R : Type} {next : Int → Client R}
    (h : ∀ now, (next now).Each Φ) : (withCurrentTime c next).Each Φ := by
  unfold withCurrentTime
  split_ifs
  · exact h _
  · exact fun ms => h _

theorem each_seekAnew (h : SetOps c mtvSession P Φ)
    (hnew : ∀ g : Segment, g.InRange → P (newSession timestamp g)) (path seekTime : JString)
    (query : Option JString) :
    (seekAnew c path seekTime (sessionKey mtvSession) timestamp query).Each Φ := by
  apply each_withCurrentTime
  intro now
  cases transformAbsoluteTime now seekTime with
  | error e => trivial
  | ok a =>
      intro file
      apply each_putSessions h
      intro s hs
      obtain ⟨g, hg, rfl⟩ := playseekFilter_puts_mem hs
      exact hnew g (file.inRange g hg)

theorem each_followUp (h : SetOps c mtvSession P Φ) (path : JString) {s : SessionDef}
    {query : Option JString}
    (hputs : ∀ file, ∀ w ∈ (m3u8PlayseekFilterSession s query file).puts, P w) :
    (followUp c path (sessionKey mtvSession) s query).Each Φ := by
  intro file
  exact each_putSessions h _ _ (hputs file)

theorem timed_newSession {g : Segment} (hg : g.InRange) :
    (newSession timestamp g).Timed timestamp := ⟨rfl, hg⟩

/-- A follow-up keeps the timestamp of its session. -/
theorem timed_followUp {s : SessionDef} (hts : s.timestamp = some timestamp)
    {query : Option JString} {file : FileRead} :
    ∀ w ∈ (m3u8PlayseekFilterSession s query file).puts, w.Timed timestamp := by
  intro w hw
  obtain ⟨hts', g, hg, htime, _⟩ := playseekFilterSession_puts_mem hw
  refine ⟨hts'.trans hts, ?_⟩
  rw [htime]
  exact file.inRange g hg

/-! ## §2. The handlers. -/

theorem each_playSeekFile (h : TimedOps c mtvSession timestamp Φ) (path seekTime : JString)
    (query : Option JString) :
    (playSeekFile c path seekTime mtvSession timestamp query).Each Φ := by
  refine ⟨h.get, fun v => ?_⟩
  show (playSeekWith c path seekTime (sessionKey mtvSession) timestamp query
    (getSession v)).Each Φ
  cases getSession v with
  | none => exact each_seekAnew h (fun _ => timed_newSession) path seekTime query
  | some s =>
      by_cases hts : s.timestamp = some timestamp
      · rw [playSeekWith_kept c path seekTime _ query hts]
        exact each_followUp h path (fun file => timed_followUp hts)
      · rw [playSeekWith_changed c path seekTime _ query hts]
        exact ⟨h.del, each_seekAnew h (fun _ => timed_newSession) path seekTime query⟩

theorem each_withPlaylist {R : Type} {uri : Uri} {found : JString → Client R} {missing : R}
    (h : ∀ path, (found path).Each Φ) : (withPlaylist c uri found missing).Each Φ := by
  intro hasIndex
  cases hasIndex with
  | true => exact h _
  | false =>
      intro hasM3u8
      cases hasM3u8 with
      | true => exact h _
      | false => trivial

/-- A playseek request ends before it touches the store, since a parameter is missing or the
target is bad, or it goes on to a playlist. -/
theorem playSeekHandler_cases (c : ConfigControl) (request : HttpRequest) :
    (∃ r, playSeekHandler c request = .ret r)
      ∨ ∃ seekTime m timestamp uri, request.params "mtv_session".toList = some m
        ∧ request.params "timestamp".toList = some timestamp
        ∧ ∃ missing, playSeekHandler c request
          = withPlaylist c uri
            (fun path => playSeekFile c path seekTime m timestamp uri.query) missing := by
  unfold playSeekHandler
  cases request.params "playseek".toList with
  | none => exact Or.inl ⟨_, rfl⟩
  | some seekTime =>
      cases hm : request.params "mtv_session".toList with
      | none => exact Or.inl ⟨_, rfl⟩
      | some m =>
          cases hts : request.params "timestamp".toList with
          | none => exact Or.inl ⟨_, rfl⟩
          | some timestamp =>
              cases request.uri with
              | none => exact Or.inl ⟨_, rfl⟩
              | some uri => exact Or.inr ⟨seekTime, m, timestamp, uri, rfl, rfl, _, rfl⟩

/-- **Every operation of a playseek request** is one of the three on its session, and
a session it sets has the time of a segment. -/
theorem each_playSeekHandler_timed {request : HttpRequest}
    (h : ∀ m timestamp, request.params "mtv_session".toList = some m →
      request.params "timestamp".toList = some timestamp → TimedOps c m timestamp Φ) :
    (playSeekHandler c request).Each Φ := by
  rcases playSeekHandler_cases c request with
    ⟨r, hret⟩ | ⟨seekTime, m, timestamp, uri, hm, hts, missing, hgo⟩
  · rw [hret]
    trivial
  · rw [hgo]
    exact each_withPlaylist
      (fun path => each_playSeekFile (h m timestamp hm hts) path seekTime uri.query)

/-- Every operation of a playseek request, whatever time its sessions have. -/
theorem each_playSeekHandler {request : HttpRequest}
    (h : ∀ m timestamp, request.params "mtv_session".toList = some m →
      request.params "timestamp".toList = some timestamp → SessionOps c m timestamp Φ) :
    (playSeekHandler c request).Each Φ :=
  each_playSeekHandler_timed
    (fun m timestamp hm hts => (h m timestamp hm hts).mono (fun _ hs => hs.1))

/-- A review has no operation on the store. -/
theorem each_playBackHandler (request : HttpRequest) :
    (playBackHandler c request).Each Φ := by
  unfold playBackHandler
  cases request.params "playbackbegin".toList with
  | none => trivial
  | some playbackbegin =>
      cases request.params "playbackend".toList with
      | none => trivial
      | some playbackend =>
          cases request.params "timestamp".toList with
          | none => trivial
          | some timestamp =>
              cases request.uri with
              | none => trivial
              | some uri => exact each_withPlaylist (fun path file => trivial)

/-- **Every operation of a GET request** is one of the three on its session. -/
theorem each_handleGet {request : HttpRequest}
    (h : ∀ m timestamp, request.params "mtv_session".toList = some m →
      request.params "timestamp".toList = some timestamp → SessionOps c m timestamp Φ) :
    (handleGet c request).Each Φ := by
  unfold handleGet
  cases getPlayMode request with
  | seek => exact Prog.each_map _ _ (each_playSeekHandler h)
  | review => exact Prog.each_map _ _ (each_playBackHandler request)
  | none => trivial

end NginxNettyHls.M3u8Filter
