/-
  NginxNettyHls.M3u8Filter.Serial
  ───────────────────────────────
  **PLAYSEEK REQUESTS ONE AFTER THE OTHER.**

  A `PlayseekVisit` is a complete playseek request of one viewer with one
  timestamp, together with the machine it meets: the clock, and the playlist it
  is answered from.  `serve` is the handler run alone on it, `trace` a whole run
  of requests with the store each of them finds.

    • `serve_eq` — a request is its filter's sessions and reply;
    • `written_serve` — every session a request leaves in the store carries a
      time that `get_ts_time` returns.
-/
import NginxNettyHls.M3u8Filter.Handlers
import NginxNettyHls.M3u8Filter.Responses

namespace NginxNettyHls.M3u8Filter

open NginxNettyHls.Java
open KeyValue
open Order

/-! ## §1. Visits. -/

/-- A playseek request for a playlist that exists. -/
structure PlayseekVisit (c : ConfigControl) (mtvSession timestamp : JString) where
  request : HttpRequest
  env : ∀ q : Query, q.Answer
  seekTime : JString
  uri : Uri
  path : JString
  isPlayseek : request.IsPlayseek seekTime mtvSession timestamp uri
  path_eq : playlistPath c env uri = some path

namespace PlayseekVisit

variable {c : ConfigControl} {mtvSession timestamp : JString}

/-- The playlist as the request reads it. -/
def file (v : PlayseekVisit c mtvSession timestamp) : FileRead := v.env (.readFile v.path)

/-- The start point of a new seek. -/
def absoluteTime (v : PlayseekVisit c mtvSession timestamp) : Except Exn Int :=
  transformAbsoluteTime (currentTime c v.env) v.seekTime

/-- The outcome of the filter, when the key holds `stored`. -/
def run (v : PlayseekVisit c mtvSession timestamp) (stored : Option Stored) : FilterRun :=
  filterRun c v.env v.path v.seekTime timestamp v.uri.query stored

/-- The request handled alone. -/
def serve (v : PlayseekVisit c mtvSession timestamp) (store : SessionStore) :
    SessionStore × PlayseekReply :=
  (playSeekHandler c v.request).exec v.env store

theorem serve_eq (v : PlayseekVisit c mtvSession timestamp) (store : SessionStore) :
    v.serve store
      = (putAll (sessionKey mtvSession) (v.run (store (sessionKey mtvSession))).puts
           (clearChanged timestamp (sessionKey mtvSession) store),
         playseekReply (v.run (store (sessionKey mtvSession))).result) := by
  unfold serve run
  rw [exec_playSeekHandler v.isPlayseek v.path_eq, exec_playSeekFile]

/-- Going on from a session. -/
theorem run_kept (v : PlayseekVisit c mtvSession timestamp) {stored : Option Stored}
    {s : SessionDef} (h : keptSession timestamp stored = some s) :
    v.run stored = m3u8PlayseekFilterSession s v.uri.query v.file := by
  unfold run filterRun
  rw [h]
  rfl

/-- Seeking anew from a start point. -/
theorem run_anew (v : PlayseekVisit c mtvSession timestamp) {stored : Option Stored}
    {a : Int} (h : keptSession timestamp stored = none) (ha : v.absoluteTime = .ok a) :
    v.run stored = m3u8PlayseekFilter timestamp v.uri.query a v.file := by
  have ha' : transformAbsoluteTime (currentTime c v.env) v.seekTime = .ok a := ha
  unfold run filterRun
  rw [h]
  unfold seekRun
  simp only [ha']
  rfl

/-- Seeking anew with a seek time that is rejected. -/
theorem run_rejected (v : PlayseekVisit c mtvSession timestamp) {stored : Option Stored}
    {e : Exn} (h : keptSession timestamp stored = none) (he : v.absoluteTime = .error e) :
    v.run stored = ⟨[], .error e⟩ := by
  have he' : transformAbsoluteTime (currentTime c v.env) v.seekTime = .error e := he
  unfold run filterRun
  rw [h]
  unfold seekRun
  simp only [he']

/-- A start point is an `int`. -/
theorem isInt32_absoluteTime (v : PlayseekVisit c mtvSession timestamp) {a : Int}
    (h : v.absoluteTime = .ok a) : IsInt32 a := isInt32_transformAbsoluteTime h

end PlayseekVisit

/-- A store without any session. -/
def emptyStore : SessionStore := fun _ => none

/-- A machine with a single playlist file. -/
def machine (path : JString) (file : FileRead) (millis : Int) : ∀ q : Query, q.Answer
  | .fileExists p => (decide (p = path) : Bool)
  | .readFile p => if p = path then file else FileRead.notFound
  | .currentTimeMillis => millis

/-- The request `uriPath?query` with the three parameters of a playseek. -/
def playseekRequest (seekTime mtvSession timestamp uriPath : JString)
    (query : Option JString) : HttpRequest where
  uri := some ⟨some uriPath, query⟩
  params := fun name =>
    if name = "playseek".toList then some seekTime
    else if name = "mtv_session".toList then some mtvSession
    else if name = "timestamp".toList then some timestamp
    else none

theorem playseekRequest_isPlayseek (seekTime mtvSession timestamp uriPath : JString)
    (query : Option JString) :
    (playseekRequest seekTime mtvSession timestamp uriPath query).IsPlayseek
      seekTime mtvSession timestamp ⟨some uriPath, query⟩ := by
  refine ⟨?_, ?_, ?_, rfl⟩
  · unfold playseekRequest
    simp
  · unfold playseekRequest
    simp
  · unfold playseekRequest
    simp

/-- Without an `.index` file beside it, the `.m3u8` file is read. -/
theorem playlistPath_machine (c : ConfigControl) (uriPath : JString) (query : Option JString)
    (file : FileRead) (millis : Int) :
    playlistPath c (machine (c.rootPath ++ uriPath) file millis) ⟨some uriPath, query⟩
      = some (c.rootPath ++ uriPath) := by
  unfold playlistPath machine
  simp [orNull]

/-- A request to a machine with a single playlist file. -/
def PlayseekVisit.single (c : ConfigControl)
    (mtvSession timestamp seekTime uriPath : JString) (query : Option JString)
    (file : FileRead) (millis : Int) : PlayseekVisit c mtvSession timestamp where
  request := playseekRequest seekTime mtvSession timestamp uriPath query
  env := machine (c.rootPath ++ uriPath) file millis
  seekTime := seekTime
  uri := ⟨some uriPath, query⟩
  path := c.rootPath ++ uriPath
  isPlayseek := playseekRequest_isPlayseek seekTime mtvSession timestamp uriPath query
  path_eq := playlistPath_machine c uriPath query file millis

theorem PlayseekVisit.single_file (c : ConfigControl)
    (mtvSession timestamp seekTime uriPath : JString) (query : Option JString)
    (file : FileRead) (millis : Int) :
    (PlayseekVisit.single c mtvSession timestamp seekTime uriPath query file millis).file
      = file := if_pos rfl

/-! ## §2. Runs. -/

/-- One request of a run: the store it finds, the request, its reply. -/
structure Handled (σ α : Type) where
  before : σ
  visit : α
  reply : PlayseekReply

/-- A run of requests, `serve` telling what each does to the store. -/
def trace {σ α : Type} (serve : α → σ → σ × PlayseekReply) :
    List α → σ → List (Handled σ α)
  | [], _ => []
  | v :: vs, store =>
      ⟨store, v, (serve v store).2⟩ :: trace serve vs (serve v store).1

/-- A reply with a playlist is the filter's. -/
theorem playseekReply_ok {r : Except Exn (List Piece)} {sb : List Piece}
    (h : playseekReply r = playseekReply (.ok sb)) : r = .ok sb := by
  cases r with
  | ok sb' =>
      simp only [playseekReply, Except.ok.injEq, Prod.mk.injEq, M3u8PlayseekInfo.mk.injEq,
        Option.some.injEq, true_and] at h
      rw [h]
  | error e => cases e <;> simp [playseekReply] at h

theorem playseekReply_ok_inj {sb sb' : List Piece}
    (h : playseekReply (.ok sb) = playseekReply (.ok sb')) : sb = sb' :=
  Except.ok.inj (playseekReply_ok h)

/-! ## §3. What the key holds after a request. -/

/-- The session a value is continued with. -/
theorem keptSession_session {timestamp : JString} {s : SessionDef}
    (h : s.timestamp = some timestamp) :
    keptSession timestamp (some (.session s)) = some s := by
  simp [keptSession, checkTimestampChange, h]

theorem keptSession_eq_some {timestamp : JString} {stored : Option Stored} {s : SessionDef}
    (h : keptSession timestamp stored = some s) :
    stored = some (.session s) ∧ s.timestamp = some timestamp := by
  unfold keptSession at h
  split at h
  · split_ifs at h with hc
    simp only [Option.some.injEq] at h
    subst h
    simp only [checkTimestampChange, ne_eq, decide_not, Bool.not_eq_eq_eq_not, Bool.not_true,
      decide_eq_false_iff_not, not_not] at hc
    exact ⟨rfl, hc.symm⟩
  · exact absurd h (by simp)

/-- A kept session is not cleared. -/
theorem clearChanged_of_kept {timestamp key : JString} {store : SessionStore}
    {s : SessionDef} (h : keptSession timestamp (store key) = some s) :
    clearChanged timestamp key store = store := by
  obtain ⟨hs, ht⟩ := keptSession_eq_some h
  unfold clearChanged
  rw [hs]
  simp [getSession, checkTimestampChange, ht]

/-- Clearing leaves no session to go on from where there was none. -/
theorem keptSession_clearChanged {timestamp key : JString} {store : SessionStore}
    (h : keptSession timestamp (store key) = none) :
    keptSession timestamp (clearChanged timestamp key store key) = none := by
  unfold clearChanged
  cases getSession (store key) with
  | none => exact h
  | some s =>
      dsimp only
      split_ifs
      · rw [Function.update_self]
        rfl
      · exact h

theorem putAll_singleton (key : JString) (s : SessionDef) (store : SessionStore) :
    putAll key [s] store key = some (.session s) := by
  show Function.update store key (some (Stored.session s)) key = _
  rw [Function.update_self]

/-- The key holds what it held, or one of the sessions. -/
theorem putAll_cases (key : JString) (puts : List SessionDef) (store : SessionStore) :
    putAll key puts store key = store key
      ∨ ∃ s ∈ puts, putAll key puts store key = some (.session s) := by
  rcases List.eq_nil_or_concat puts with h | ⟨init, s, h⟩
  · rw [h]
    exact Or.inl rfl
  · rw [List.concat_eq_append] at h
    refine Or.inr ⟨s, by simp [h], ?_⟩
    rw [h, putAll_append_singleton, Function.update_self]

/-! ## §4. A request for a playlist that is in order. -/

namespace PlayseekVisit

variable {c : ConfigControl} {mtvSession timestamp : JString} {P : Playlist}
  {store : SessionStore}

/-- It goes on from a session whose segment is there. -/
theorem serve_present (v : PlayseekVisit c mtvSession timestamp) (hfile : v.file = P.file)
    {s : SessionDef} (hk : keptSession timestamp (store (sessionKey mtvSession)) = some s)
    (hp : ∃ g ∈ P.segments, g.time = s.lastTime) :
    v.serve store
      = (putAll (sessionKey mtvSession) (followPuts s (newer s.lastTime P.segments)) store,
         playseekReply (.ok (P.titles ++ .mediaSequence
           :: followOut v.uri.query s (newer s.lastTime P.segments)))) := by
  rw [v.serve_eq, v.run_kept hk, hfile, P.session_run_present s _ hp, clearChanged_of_kept hk]

/-- It goes on from a session whose segment has left. -/
theorem serve_absent (v : PlayseekVisit c mtvSession timestamp) (hfile : v.file = P.file)
    {s : SessionDef} (hk : keptSession timestamp (store (sessionKey mtvSession)) = some s)
    (hl : 0 ≤ s.lastTime) (hl' : s.lastTime < 2 ^ 31)
    (hp : ∀ g ∈ P.segments, g.time ≠ s.lastTime) :
    v.serve store
      = (putAll (sessionKey mtvSession) (followPuts s (newer s.lastTime P.segments).tail) store,
         playseekReply (.ok (P.titles ++ .mediaSequence
           :: staleOut v.uri.query s (newer s.lastTime P.segments)))) := by
  rw [v.serve_eq, v.run_kept hk, hfile, P.session_run_absent s _ hl hl' hp,
    clearChanged_of_kept hk]

/-- It seeks anew. -/
theorem serve_anew (v : PlayseekVisit c mtvSession timestamp) (hfile : v.file = P.file)
    {a : Int} (hk : keptSession timestamp (store (sessionKey mtvSession)) = none)
    (ha : v.absoluteTime = .ok a) :
    v.serve store
      = (putAll (sessionKey mtvSession)
           ((selected a P.segments).head?.toList.map (newSession timestamp))
           (clearChanged timestamp (sessionKey mtvSession) store),
         playseekReply (.ok (P.titles ++ .mediaSequence :: .number 0
           :: entries v.uri.query ((selected a P.segments).take 3)))) := by
  rw [v.serve_eq, v.run_anew hk ha, hfile, P.seek_run timestamp _ (v.isInt32_absoluteTime ha)]

/-- Its seek time is rejected. -/
theorem serve_rejected (v : PlayseekVisit c mtvSession timestamp) {e : Exn}
    (hk : keptSession timestamp (store (sessionKey mtvSession)) = none)
    (he : v.absoluteTime = .error e) :
    v.serve store
      = (clearChanged timestamp (sessionKey mtvSession) store, playseekReply (.error e)) := by
  rw [v.serve_eq, v.run_rejected hk he]
  rfl

end PlayseekVisit

/-! ## §5. What is written. -/

/-- Every session of `m3u8_playseek_filter` is a new one of a segment. -/
theorem seekFilter_puts_mem (timestamp : JString) (query : Option JString) (a : Int) :
    ∀ (gs : List Segment) (i : Int), ∀ s ∈ ((seekFilter timestamp query a).over i gs).puts,
      ∃ g ∈ gs, s = newSession timestamp g := by
  intro gs
  induction gs with
  | nil => intro i s hs; simp [Filter.over] at hs
  | cons g gs ih =>
      intro i s hs
      simp only [Filter.over] at hs
      rcases List.mem_append.mp hs with hs | hs
      · refine ⟨g, List.mem_cons_self, ?_⟩
        simp only [seekFilter, seekSegment] at hs
        split_ifs at hs <;> simp_all [newSession]
      · obtain ⟨g', hg', rfl⟩ := ih _ s hs
        exact ⟨g', List.mem_cons_of_mem g hg', rfl⟩

/-- What the follow-up's branch for a segment line does to the session: nothing,
or, when the time passes the comparison, `advance`, which is also what it writes. -/
theorem sessionSegment_cases (query : Option JString) (v : SessionVars) (g : Segment) :
    ((sessionSegment query v g).put = none
        ∧ (sessionSegment query v g).vars.session = v.session)
      ∨ (0 < toInt32 (g.time - v.session.lastTime)
        ∧ (sessionSegment query v g).put = some (v.session.advance g.time)
        ∧ (sessionSegment query v g).vars.session = v.session.advance g.time) := by
  unfold sessionSegment
  by_cases heq : g.time = v.session.lastTime
  · rw [if_pos heq]
    exact Or.inl ⟨rfl, rfl⟩
  · rw [if_neg heq]
    by_cases hnew : 0 < toInt32 (g.time - v.session.lastTime)
    · rw [if_pos hnew]
      by_cases hidx : v.index = 0
      · simp only [if_pos hidx]
        exact Or.inr ⟨hnew, trivial, trivial⟩
      · simp only [if_neg hidx]
        exact Or.inl ⟨trivial, trivial⟩
    · rw [if_neg hnew]
      exact Or.inl ⟨rfl, rfl⟩

/-- Every session `m3u8_playseek_filter_session` writes keeps the timestamp and has
the time of a segment, a newer one than the `last_time` it started from. -/
theorem sessionFilter_puts_mem (query : Option JString) :
    ∀ (gs : List Segment) (v : SessionVars), (∀ g ∈ gs, g.InRange) →
      ∀ s ∈ ((sessionFilter query).over v gs).puts,
        s.timestamp = v.session.timestamp
          ∧ ∃ g ∈ gs, s.lastTime = g.time
            ∧ (0 ≤ v.session.lastTime → v.session.lastTime < 2 ^ 31 →
                v.session.lastTime < g.time) := by
  intro gs
  induction gs with
  | nil => intro v _ s hs; simp [Filter.over] at hs
  | cons g gs ih =>
      intro v hr s hs
      have hgr := hr g List.mem_cons_self
      have hr' : ∀ x ∈ gs, x.InRange := fun x hx => hr x (List.mem_cons_of_mem g hx)
      have hs' : s ∈ (sessionSegment query v g).put.toList
          ++ ((sessionFilter query).over (sessionSegment query v g).vars gs).puts := hs
      rcases sessionSegment_cases query v g with ⟨hput, hvars⟩ | ⟨hpass, hput, hvars⟩
      · rw [hput] at hs'
        obtain ⟨h1, g', hg', h2, h3⟩ := ih _ hr' s hs'
        rw [hvars] at h1 h3
        exact ⟨h1, g', List.mem_cons_of_mem g hg', h2, h3⟩
      · have hlater : 0 ≤ v.session.lastTime → v.session.lastTime < 2 ^ 31 →
            v.session.lastTime < g.time :=
          fun hl hl' => (toInt32_sub_pos_iff_lt hgr.1 hgr.2 hl hl').mp hpass
        rw [hput] at hs'
        rcases List.mem_cons.mp hs' with rfl | hs'
        · exact ⟨rfl, g, List.mem_cons_self, rfl, hlater⟩
        · -- a later write starts from the time of `g`, which is newer still
          obtain ⟨h1, g', hg', h2, h3⟩ := ih _ hr' s hs'
          rw [hvars] at h1 h3
          exact ⟨h1, g', List.mem_cons_of_mem g hg', h2,
            fun hl hl' => lt_trans (hlater hl hl') (h3 hgr.1 hgr.2)⟩

/-- The segments of a file up to the first line that throws. -/
def FileRead.segments : FileRead → List Segment
  | .notFound => []
  | .opened lines _ => (tsSegments none lines).1

theorem FileRead.inRange (file : FileRead) : ∀ g ∈ file.segments, g.InRange := by
  cases file with
  | notFound => intro g hg; simp [FileRead.segments] at hg
  | opened lines fin => exact tsSegments_range lines none

/-- What a first response writes, whatever the file. -/
theorem playseekFilter_puts_mem {timestamp : JString} {query : Option JString} {a : Int}
    {file : FileRead} {s : SessionDef}
    (h : s ∈ (m3u8PlayseekFilter timestamp query a file).puts) :
    ∃ g ∈ file.segments, s = newSession timestamp g := by
  cases file with
  | notFound => simp [m3u8PlayseekFilter] at h
  | opened lines fin =>
      simp only [m3u8PlayseekFilter, Filter.loop_puts] at h
      exact seekFilter_puts_mem timestamp query a _ _ s h

/-- What a follow-up writes, whatever the file. -/
theorem playseekFilterSession_puts_mem {session : SessionDef} {query : Option JString}
    {file : FileRead} {s : SessionDef}
    (h : s ∈ (m3u8PlayseekFilterSession session query file).puts) :
    s.timestamp = session.timestamp
      ∧ ∃ g ∈ file.segments, s.lastTime = g.time
        ∧ (0 ≤ session.lastTime → session.lastTime < 2 ^ 31 → session.lastTime < g.time) := by
  have hr := file.inRange
  cases file with
  | notFound => simp [m3u8PlayseekFilterSession] at h
  | opened lines fin =>
      simp only [m3u8PlayseekFilterSession, Filter.loop_puts] at h
      exact sessionFilter_puts_mem query _ ⟨-1, session⟩ hr s h

/-- A `last_time` the code can have stored: one that `get_ts_time` returns. -/
def Written (stored : Option Stored) : Prop :=
  ∀ s, stored = some (.session s) → 0 ≤ s.lastTime ∧ s.lastTime < 2 ^ 31

/-- Every session either filter writes has the time of a segment of the file. -/
theorem PlayseekVisit.run_puts_range {c : ConfigControl} {mtvSession timestamp : JString}
    (v : PlayseekVisit c mtvSession timestamp) (stored : Option Stored) :
    ∀ s ∈ (v.run stored).puts, 0 ≤ s.lastTime ∧ s.lastTime < 2 ^ 31 := by
  intro s hs
  cases hk : keptSession timestamp stored with
  | some s0 =>
      rw [v.run_kept hk] at hs
      obtain ⟨_, g, hg, ht, _⟩ := playseekFilterSession_puts_mem hs
      rw [ht]
      exact v.file.inRange g hg
  | none =>
      cases ha : v.absoluteTime with
      | error e => rw [v.run_rejected hk ha] at hs; simp at hs
      | ok a =>
          rw [v.run_anew hk ha] at hs
          obtain ⟨g, hg, rfl⟩ := playseekFilter_puts_mem hs
          exact v.file.inRange g hg

theorem written_putAll {key : JString} {puts : List SessionDef} {store : SessionStore}
    (h : Written (store key)) (hputs : ∀ s ∈ puts, 0 ≤ s.lastTime ∧ s.lastTime < 2 ^ 31) :
    Written (putAll key puts store key) := by
  rcases putAll_cases key puts store with e | ⟨s, hs, e⟩
  · rw [e]
    exact h
  · intro s' hs'
    rw [e, Option.some.injEq, Stored.session.injEq] at hs'
    rw [← hs']
    exact hputs s hs

/-- **What a request leaves behind the code can have written**, if that was so
before. -/
theorem PlayseekVisit.written_serve {c : ConfigControl} {mtvSession timestamp : JString}
    (v : PlayseekVisit c mtvSession timestamp) {store : SessionStore}
    (h : Written (store (sessionKey mtvSession))) :
    Written ((v.serve store).1 (sessionKey mtvSession)) := by
  rw [v.serve_eq]
  refine written_putAll ?_ (v.run_puts_range _)
  intro s hs
  unfold clearChanged at hs
  cases hg : getSession (store (sessionKey mtvSession)) with
  | none => rw [hg] at hs; exact h s hs
  | some s0 =>
      rw [hg] at hs
      dsimp only at hs
      split_ifs at hs
      · rw [Function.update_self] at hs
        exact absurd hs (by simp)
      · exact h s hs

end NginxNettyHls.M3u8Filter
