/-
  NginxNettyHls.M3u8Filter.Handlers
  ─────────────────────────────────
  **THE REQUEST HANDLERS of `m3u8Capture` as clients of the session store.**

  `playSeekHandler` and `playBackHandler` are `KeyValue.Prog`s: the store
  operations they issue, and the questions they put to the machine (does a file
  exist, what does it read, what time is it), in the order of the source.  One
  definition serves for a request handled alone, for requests interleaved
  operation by operation, and for a store whose entries expire.

  A value in the store is the JSON of a session, or a text `readValue` rejects;
  `get_session` answers `null` for the latter as for a missing key.

  `exec_playSeekHandler` says what handling one request alone amounts to.
-/
import NginxNettyHls.KeyValue.Program
import NginxNettyHls.M3u8Filter.Filters

namespace NginxNettyHls.M3u8Filter

open NginxNettyHls.Java
open KeyValue

/-! ## §1. Requests, replies and the machine. -/

/-- The settings of `configControl` the handlers read, and the
`SimpleDateFormat` of the machine: `sdfParse format text` is the parsed date in
milliseconds, `none` a `ParseException`. -/
structure ConfigControl where
  rootPath : JString
  keyAliveTimeout : Int
  isDebugMode : Bool
  debugTimeCurrent : Int
  sdfParse : JString → JString → Option Int

/-- The settings of `config.properties`, on a machine whose `SimpleDateFormat` parses nothing:
a playseek request has no date in it. -/
def shippedConfig : ConfigControl where
  rootPath := "/mnt1/cloud/rec_distribute/playseek".toList
  keyAliveTimeout := 120
  isDebugMode := false
  debugTimeCurrent := 1508153152
  sdfParse := fun _ _ => none

/-- What `java.net.URI` makes of the request target; a component that is absent
is `null`. -/
structure Uri where
  path : Option JString
  query : Option JString
  deriving Repr, DecidableEq

/-- A GET request: the result of `new URI(request.uri())`, `none` when it
throws, and the parameters `parser` has filled in. -/
structure HttpRequest where
  uri : Option Uri
  params : JString → Option JString

/-- The codes of `errorCode` the two handlers return. -/
inductive ErrorCode where
  | ok
  | paramDismatch
  | m3u8FileNotFound
  deriving Repr, DecidableEq

/-- `serviceType`. -/
inductive ServiceType where
  | none
  | seek
  | review
  deriving Repr, DecidableEq

/-- The fields of `m3u8PlayseekInfo` a handler sets; the text of `m3u8_content`
is `toText` of the pieces. -/
structure M3u8PlayseekInfo where
  playMode : ServiceType
  m3u8Content : Option (List Piece)
  deriving Repr, DecidableEq

/-- `m3u8ReviewInfo`. -/
structure M3u8ReviewInfo where
  playMode : ServiceType
  m3u8Title : Option JString
  argus : Option JString
  tsList : Option (List TsInfo)
  deriving Repr, DecidableEq

/-- How `playSeekHandler` ends: a return code with the filled-in info object, or
an exception. -/
abbrev PlayseekReply := Except Exn (ErrorCode × M3u8PlayseekInfo)

/-- How `playBackHandler` ends. -/
abbrev ReviewReply := Except Exn (ErrorCode × M3u8ReviewInfo)

/-- What a handler asks the machine. -/
inductive Query where
  | fileExists (path : JString)
  | readFile (path : JString)
  | currentTimeMillis
  deriving Repr, DecidableEq

/-- The type of the machine's answer. -/
def Query.Answer : Query → Type
  | .fileExists _ => Bool
  | .readFile _ => FileRead
  | .currentTimeMillis => Int

/-- A value of the session store. -/
inductive Stored where
  | session (s : SessionDef)
  /-- A text `ObjectMapper.readValue` throws on. -/
  | unreadable (raw : JString)
  deriving Repr, DecidableEq

/-- A client of the session store with result type `R`. -/
abbrev Client (R : Type) := Prog JString Stored Query Query.Answer R

/-- The session store. -/
abbrev SessionStore := Store JString Stored

/-! ## §2. Sessions in the store. -/

/-- The key of a viewer's session. -/
def sessionKey (mtvSession : JString) : JString :=
  "mgcloud_streaming:playseek_session:".toList ++ mtvSession

/-- `get_session`: what it makes of the value found under the key. -/
def getSession : Option Stored → Option SessionDef
  | some (.session s) => some s
  -- no value, or one whose exception is caught and printed
  | _ => none

/-- `check_timestamp_change`. -/
def checkTimestampChange (timestamp : JString) (session : SessionDef) : Bool :=
  decide (some timestamp ≠ session.timestamp)

/-- The `putSession` calls of a filter one after the other, then `next`. -/
def putSessions {R : Type} (c : ConfigControl) (key : JString) (puts : List SessionDef)
    (next : Client R) : Client R :=
  puts.foldr (fun s p => .set key (.session s) c.keyAliveTimeout p) next

/-- Two viewers never share a key. -/
theorem sessionKey_injective {m m' : JString} (h : sessionKey m = sessionKey m') : m = m' :=
  List.append_cancel_left h

/-! ## §3. Times. -/

/-- `transform2TimeOffset`: seconds of `HHMMSS`; no check that the six `char`s
are digits, and the sum is an `int`. -/
def transform2TimeOffset (date : JString) : Except Exn Int :=
  match toCharArray date with
  | [a0, a1, a2, a3, a4, a5] =>
      -- `int` arithmetic throughout, so every `+=` may wrap around
      let sum := toInt32 (0 + toInt32 (((a0 - 48) * 10 + a1 - 48) * 3600))
      let sum := toInt32 (sum + ((a2 - 48) * 10 + a3 - 48) * 60)
      .ok (toInt32 (sum + ((a4 - 48) * 10 + a5 - 48)))
  | _ => .error .illegalArgument

/-- `transform_absolute_time` once the current time is known: a `long`
difference cast to `int`. -/
def transformAbsoluteTime (currentTime : Int) (relativeTime : JString) : Except Exn Int :=
  (transform2TimeOffset relativeTime).map
    (fun offset => toInt32 (toInt64 (currentTime - offset)))

theorem isInt32_transformAbsoluteTime {now : Int} {seekTime : JString} {a : Int}
    (h : transformAbsoluteTime now seekTime = .ok a) : IsInt32 a := by
  unfold transformAbsoluteTime at h
  cases ho : transform2TimeOffset seekTime with
  | error e => rw [ho] at h; exact absurd h (by simp [Except.map])
  | ok offset =>
      rw [ho] at h
      simp only [Except.map, Except.ok.injEq] at h
      rw [← h]
      exact isInt32_toInt32 _

/-- A seek time is refused in one way only. -/
theorem transformAbsoluteTime_error {now : Int} {seekTime : JString} {e : Exn}
    (h : transformAbsoluteTime now seekTime = .error e) : e = .illegalArgument := by
  unfold transformAbsoluteTime transform2TimeOffset at h
  split at h
  · exact absurd h (by simp [Except.map])
  · exact (Except.error.inj h).symm

/-- The current time in seconds, from the debug setting or the clock. -/
def withCurrentTime {R : Type} (c : ConfigControl) (next : Int → Client R) : Client R :=
  if c.isDebugMode then next c.debugTimeCurrent
  else .ask .currentTimeMillis (fun (ms : Int) => next (ms.tdiv 1000))

/-- `transform2UnixTime`: zero when the text does not parse. -/
def transform2UnixTime (c : ConfigControl) (dateStr format : JString) : Int :=
  match c.sdfParse format dateStr with
  | some ms => ms.tdiv 1000
  | none => 0

/-! ## §4. The handlers. -/

/-- The value a filter's outcome gives `playSeekHandler`: an `IOException` is
caught and printed, and the return code stays `ERROR_OK`. -/
def playseekReply : Except Exn (List Piece) → PlayseekReply
  | .ok sb => .ok (.ok, ⟨.seek, some sb⟩)
  | .error .io => .ok (.ok, ⟨.seek, none⟩)
  | .error e => .error e

/-- The call of `m3u8_playseek_filter`. -/
def seekAnew (c : ConfigControl) (filePath seekTime key timestamp : JString)
    (query : Option JString) : Client PlayseekReply :=
  withCurrentTime c (fun now =>
    match transformAbsoluteTime now seekTime with
    -- the seek time is looked at before the file is opened
    | .error e => .ret (playseekReply (.error e))
    | .ok absoluteTime =>
        .ask (.readFile filePath) (fun (file : FileRead) =>
          let run := m3u8PlayseekFilter timestamp query absoluteTime file
          putSessions c key run.puts (.ret (playseekReply run.result))))

/-- The call of `m3u8_playseek_filter_session`. -/
def followUp (c : ConfigControl) (filePath key : JString) (session : SessionDef)
    (query : Option JString) : Client PlayseekReply :=
  .ask (.readFile filePath) (fun (file : FileRead) =>
    let run := m3u8PlayseekFilterSession session query file
    putSessions c key run.puts (.ret (playseekReply run.result)))

/-- The `try` block of `playSeekHandler` after `get_session` has answered. -/
def playSeekWith (c : ConfigControl) (filePath seekTime key timestamp : JString)
    (query : Option JString) : Option SessionDef → Client PlayseekReply
  | none => seekAnew c filePath seekTime key timestamp query
  | some session =>
      if checkTimestampChange timestamp session then
        -- `remove_session`, then as if there had been none
        .del key (seekAnew c filePath seekTime key timestamp query)
      else followUp c filePath key session query

theorem playSeekWith_kept (c : ConfigControl) (filePath seekTime key : JString)
    {timestamp : JString} (query : Option JString) {session : SessionDef}
    (h : session.timestamp = some timestamp) :
    playSeekWith c filePath seekTime key timestamp query (some session)
      = followUp c filePath key session query :=
  if_neg (by simp [checkTimestampChange, h])

theorem playSeekWith_changed (c : ConfigControl) (filePath seekTime key : JString)
    {timestamp : JString} (query : Option JString) {session : SessionDef}
    (h : session.timestamp ≠ some timestamp) :
    playSeekWith c filePath seekTime key timestamp query (some session)
      = .del key (seekAnew c filePath seekTime key timestamp query) :=
  if_pos (by simpa [checkTimestampChange] using fun e => h e.symm)

/-- The `try` block of `playSeekHandler`. -/
def playSeekFile (c : ConfigControl) (filePath seekTime mtvSession timestamp : JString)
    (query : Option JString) : Client PlayseekReply :=
  .get (sessionKey mtvSession) (fun stored =>
    playSeekWith c filePath seekTime (sessionKey mtvSession) timestamp query
      (getSession stored))

/-- The choice between `.m3u8.index` and `.m3u8`. -/
def withPlaylist {R : Type} (c : ConfigControl) (uri : Uri) (found : JString → Client R)
    (missing : R) : Client R :=
  let fileM3u8 := c.rootPath ++ orNull uri.path
  let fileM3u8Index := fileM3u8 ++ ".index".toList
  -- the index file wins when both exist
  .ask (.fileExists fileM3u8Index) (fun (hasIndex : Bool) =>
    if hasIndex then found fileM3u8Index
    else .ask (.fileExists fileM3u8) (fun (hasM3u8 : Bool) =>
      if hasM3u8 then found fileM3u8 else .ret missing))

/-- `playSeekHandler`. -/
def playSeekHandler (c : ConfigControl) (request : HttpRequest) : Client PlayseekReply :=
  match request.params "playseek".toList with
  | none => .ret (.ok (.paramDismatch, ⟨.none, none⟩))
  | some seekTime =>
      match request.params "mtv_session".toList with
      | none => .ret (.ok (.paramDismatch, ⟨.none, none⟩))
      | some mtvSession =>
          match request.params "timestamp".toList with
          | none => .ret (.ok (.paramDismatch, ⟨.none, none⟩))
          | some timestamp =>
              match request.uri with
              | none => .ret (.error .uriSyntax)
              | some uri =>
                  withPlaylist c uri
                    (fun filePath =>
                      playSeekFile c filePath seekTime mtvSession timestamp uri.query)
                    (.ok (.m3u8FileNotFound, ⟨.none, none⟩))

/-- The call of `m3u8_playback_filter`. -/
def reviewReply (c : ConfigControl) (playbackbegin playbackend : JString)
    (query : Option JString) (file : FileRead) : ReviewReply :=
  let startTime := transform2UnixTime c playbackbegin "yyyyMMddHHmmss".toList
  let endTime := transform2UnixTime c playbackend "yyyyMMddHHmmss".toList
  (m3u8PlaybackFilter startTime endTime file).map (fun r =>
    (.ok, ⟨.review, some r.1, query, some r.2⟩))

/-- `playBackHandler`: no store operation at all. -/
def playBackHandler (c : ConfigControl) (request : HttpRequest) : Client ReviewReply :=
  match request.params "playbackbegin".toList with
  | none => .ret (.ok (.paramDismatch, ⟨.none, none, none, none⟩))
  | some playbackbegin =>
      match request.params "playbackend".toList with
      | none => .ret (.ok (.paramDismatch, ⟨.none, none, none, none⟩))
      | some playbackend =>
          match request.params "timestamp".toList with
          | none => .ret (.ok (.paramDismatch, ⟨.none, none, none, none⟩))
          -- the timestamp has to be there, but is not used
          | some _ =>
              match request.uri with
              | none => .ret (.error .uriSyntax)
              | some uri =>
                  withPlaylist c uri
                    (fun filePath =>
                      .ask (.readFile filePath) (fun (file : FileRead) =>
                        .ret (reviewReply c playbackbegin playbackend uri.query file)))
                    (.ok (.m3u8FileNotFound, ⟨.none, none, none, none⟩))

/-- `get_play_mode` on the parameters of a request. -/
def getPlayMode (request : HttpRequest) : ServiceType :=
  if (request.params "playseek".toList).isSome then .seek
  else if (request.params "playbackbegin".toList).isSome
      && (request.params "playbackend".toList).isSome then .review
  else .none

/-- What `channelRead` hands to the response writers for a GET request. -/
inductive Reply where
  | playseek (r : PlayseekReply)
  | review (r : ReviewReply)
  /-- "http request mode was not expected" -/
  | unexpected

/-- The GET branch of `channelRead` up to the response writers. -/
def handleGet (c : ConfigControl) (request : HttpRequest) : Client Reply :=
  match getPlayMode request with
  | .seek => (playSeekHandler c request).map .playseek
  | .review => (playBackHandler c request).map .review
  | .none => .ret .unexpected

/-! ## §5. One request handled alone. -/

/-- The store after a list of `putSession` calls. -/
def putAll (key : JString) (puts : List SessionDef) (store : SessionStore) : SessionStore :=
  puts.foldl (fun store s => Function.update store key (some (.session s))) store

theorem exec_putSessions {R : Type} (c : ConfigControl) (env : ∀ q : Query, q.Answer)
    (key : JString) (next : Client R) :
    ∀ (puts : List SessionDef) (store : SessionStore),
      (putSessions c key puts next).exec env store
        = next.exec env (putAll key puts store) := by
  intro puts
  induction puts with
  | nil => intro store; rfl
  | cons s puts ih =>
      intro store
      exact ih (Function.update store key (some (.session s)))

/-- Only the last write counts. -/
theorem putAll_append_singleton (key : JString) (s : SessionDef) :
    ∀ (puts : List SessionDef) (store : SessionStore),
      putAll key (puts ++ [s]) store = Function.update store key (some (.session s)) := by
  intro puts
  induction puts with
  | nil => intro store; rfl
  | cons s' puts ih =>
      intro store
      show putAll key (puts ++ [s]) (Function.update store key (some (.session s'))) = _
      rw [ih, Function.update_idem]

/-- The machine's time in seconds as the handlers read it. -/
def currentTime (c : ConfigControl) (env : ∀ q : Query, q.Answer) : Int :=
  if c.isDebugMode then c.debugTimeCurrent
  else
    let ms : Int := env .currentTimeMillis
    ms.tdiv 1000

theorem exec_withCurrentTime {R : Type} (c : ConfigControl) (env : ∀ q : Query, q.Answer)
    (next : Int → Client R) (store : SessionStore) :
    (withCurrentTime c next).exec env store = (next (currentTime c env)).exec env store := by
  unfold withCurrentTime currentTime
  cases c.isDebugMode <;> rfl

/-- The playlist file a request for `uri` is answered from. -/
def playlistPath (c : ConfigControl) (env : ∀ q : Query, q.Answer) (uri : Uri) :
    Option JString :=
  let fileM3u8 := c.rootPath ++ orNull uri.path
  let hasIndex : Bool := env (.fileExists (fileM3u8 ++ ".index".toList))
  let hasM3u8 : Bool := env (.fileExists fileM3u8)
  if hasIndex then some (fileM3u8 ++ ".index".toList)
  else if hasM3u8 then some fileM3u8
  else none

theorem exec_withPlaylist {R : Type} (c : ConfigControl) (env : ∀ q : Query, q.Answer)
    (uri : Uri) (found : JString → Client R) (missing : R) (store : SessionStore) :
    (withPlaylist c uri found missing).exec env store
      = match playlistPath c env uri with
        | some path => (found path).exec env store
        | none => (store, missing) := by
  unfold withPlaylist playlistPath
  simp only [Prog.exec]
  split_ifs with hindex hm3u8
  · rfl
  · simp only [Prog.exec, hm3u8, if_true]
  · simp only [Prog.exec, hm3u8, if_false, Bool.false_eq_true]

/-- The outcome of `m3u8_playseek_filter` with its clock and file read. -/
def seekRun (c : ConfigControl) (env : ∀ q : Query, q.Answer)
    (filePath seekTime timestamp : JString) (query : Option JString) : FilterRun :=
  match transformAbsoluteTime (currentTime c env) seekTime with
  | .error e => ⟨[], .error e⟩
  | .ok absoluteTime => m3u8PlayseekFilter timestamp query absoluteTime (env (.readFile filePath))

/-- A stored session a request with `timestamp` goes on from. -/
def keptSession (timestamp : JString) : Option Stored → Option SessionDef
  | some (.session s) => if checkTimestampChange timestamp s then none else some s
  | _ => none

/-- The outcome of the filter a request is given to. -/
def filterRun (c : ConfigControl) (env : ∀ q : Query, q.Answer)
    (filePath seekTime timestamp : JString) (query : Option JString)
    (stored : Option Stored) : FilterRun :=
  match keptSession timestamp stored with
  | some s => m3u8PlayseekFilterSession s query (env (.readFile filePath))
  | none => seekRun c env filePath seekTime timestamp query

/-- The store a filter starts from: the key is removed first when it holds a
session with another timestamp. -/
def clearChanged (timestamp key : JString) (store : SessionStore) : SessionStore :=
  match getSession (store key) with
  | some s =>
      if checkTimestampChange timestamp s then Function.update store key none else store
  | none => store

theorem exec_seekAnew (c : ConfigControl) (env : ∀ q : Query, q.Answer)
    (filePath seekTime key timestamp : JString) (query : Option JString)
    (store : SessionStore) :
    (seekAnew c filePath seekTime key timestamp query).exec env store
      = (putAll key (seekRun c env filePath seekTime timestamp query).puts store,
         playseekReply (seekRun c env filePath seekTime timestamp query).result) := by
  unfold seekAnew seekRun
  rw [exec_withCurrentTime]
  cases transformAbsoluteTime (currentTime c env) seekTime with
  | error e => rfl
  | ok absoluteTime =>
      simp only [Prog.exec]
      rw [exec_putSessions]
      rfl

/-- **One request handled alone**: the filter starts from the store with a
changed session removed, its sessions are written, its outcome is the reply. -/
theorem exec_playSeekFile (c : ConfigControl) (env : ∀ q : Query, q.Answer)
    (filePath seekTime mtvSession timestamp : JString) (query : Option JString)
    (store : SessionStore) :
    (playSeekFile c filePath seekTime mtvSession timestamp query).exec env store
      = (putAll (sessionKey mtvSession)
            (filterRun c env filePath seekTime timestamp query
              (store (sessionKey mtvSession))).puts
            (clearChanged timestamp (sessionKey mtvSession) store),
         playseekReply (filterRun c env filePath seekTime timestamp query
              (store (sessionKey mtvSession))).result) := by
  unfold playSeekFile filterRun clearChanged
  simp only [Prog.exec]
  -- the three answers of `get_session`: null, a changed session, a session to go on from
  cases hs : store (sessionKey mtvSession) with
  | none => exact exec_seekAnew c env filePath seekTime _ timestamp query store
  | some stored =>
      cases stored with
      | unreadable raw => exact exec_seekAnew c env filePath seekTime _ timestamp query store
      | session s =>
          simp only [getSession, keptSession, playSeekWith]
          split_ifs with hchange
          · exact exec_seekAnew c env filePath seekTime _ timestamp query _
          · unfold followUp
            simp only [Prog.exec]
            rw [exec_putSessions]
            rfl

/-- The parameters and the target of a playseek request. -/
structure HttpRequest.IsPlayseek (request : HttpRequest)
    (seekTime mtvSession timestamp : JString) (uri : Uri) : Prop where
  playseek : request.params "playseek".toList = some seekTime
  mtv_session : request.params "mtv_session".toList = some mtvSession
  timestamp : request.params "timestamp".toList = some timestamp
  uri : request.uri = some uri

theorem playSeekHandler_eq {c : ConfigControl} {request : HttpRequest}
    {seekTime mtvSession timestamp : JString} {uri : Uri}
    (h : request.IsPlayseek seekTime mtvSession timestamp uri) :
    playSeekHandler c request
      = withPlaylist c uri
          (fun filePath => playSeekFile c filePath seekTime mtvSession timestamp uri.query)
          (.ok (.m3u8FileNotFound, ⟨.none, none⟩)) := by
  unfold playSeekHandler
  rw [h.playseek, h.mtv_session, h.timestamp, h.uri]

/-- A playseek request for a playlist that exists, handled alone. -/
theorem exec_playSeekHandler {c : ConfigControl} {env : ∀ q : Query, q.Answer}
    {request : HttpRequest} {seekTime mtvSession timestamp path : JString} {uri : Uri}
    (h : request.IsPlayseek seekTime mtvSession timestamp uri)
    (hpath : playlistPath c env uri = some path) (store : SessionStore) :
    (playSeekHandler c request).exec env store
      = (playSeekFile c path seekTime mtvSession timestamp uri.query).exec env store := by
  rw [playSeekHandler_eq h, exec_withPlaylist, hpath]

end NginxNettyHls.M3u8Filter
