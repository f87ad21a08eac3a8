/-
  NginxNettyHls.M3u8Filter.Channel
  ────────────────────────────────
  **WHAT `httpServerInboundHandler` WRITES TO THE CHANNEL.**

  `channelRead` parses the query, hands a GET request to one of the two handlers
  and writes the response for the code it returns.  Whatever is thrown on the way
  leaves `channelRead`, and `exceptionCaught` only logs it: its own response is
  commented out.

    • `written` — the responses of one request on a store that may fail;
    • `Answerable` — the places where something can be thrown, as a condition on
      the request, the playlist file and the store;
    • `answered_once_iff` — a request gets exactly one response if and only if it
      is answerable.
-/
import NginxNettyHls.KeyValue.Faults
import NginxNettyHls.M3u8Filter.Failure

namespace NginxNettyHls.M3u8Filter

open NginxNettyHls.Java
open KeyValue

/-! ## §1. Messages and responses. -/

/-- The method of a request, as far as `channelRead` looks at it. -/
inductive HttpMethod where
  | get
  | other (name : JString)
  deriving Repr, DecidableEq

/-- The `HttpRequest` message: its method and its raw target. -/
structure HttpMessage where
  method : HttpMethod
  uri : JString
  deriving Repr, DecidableEq

/-- The parsers of the request target: `new QueryStringDecoder(uri).parameters()`,
the names with their values in the order of the map, or what it throws; and
`new URI(uri)`, `none` when it throws. -/
structure Parsers where
  parameters : JString → Except Exn (List (JString × List JString))
  uri : JString → Option Uri

/-- `parser`: of several values of one name the last one stays. -/
def parser (attributes : List (JString × List JString)) : JString → Option JString :=
  attributes.foldl (fun params attr =>
    attr.2.foldl (fun params value => Function.update params attr.1 (some value)) params)
    (fun _ => none)

/-- The object behind `resp_info`. -/
inductive RespInfo where
  | playseek (info : M3u8PlayseekInfo)
  | review (info : M3u8ReviewInfo)
  deriving Repr, DecidableEq

/-- `commonResp`. -/
structure CommonResp where
  errorCode : Nat
  errorText : JString
  respInfo : Option RespInfo
  deriving Repr, DecidableEq

/-- What `channel_response` writes: a status, and the JSON of the object as body. -/
structure HttpResponse where
  status : Nat
  body : CommonResp
  deriving Repr, DecidableEq

/-- The constants of `errorCode`. -/
def ErrorCode.value : ErrorCode → Nat
  | .ok => 0
  | .paramDismatch => 1
  | .m3u8FileNotFound => 2

/-- The body shared by `response_playseek` and `response_review`. -/
def respond (status : ErrorCode) (info : RespInfo) : List HttpResponse :=
  match status with
  | .ok => [⟨200, ⟨status.value, "OK".toList, some info⟩⟩]
  | .paramDismatch => [⟨403, ⟨status.value, "paramter dismatch".toList, none⟩⟩]
  | .m3u8FileNotFound => [⟨404, ⟨status.value, "m3u8 not found".toList, none⟩⟩]

/-- `response_playseek`. -/
def responsePlayseek (status : ErrorCode) (m3u8Info : M3u8PlayseekInfo) : List HttpResponse :=
  respond status (.playseek m3u8Info)

/-- `response_review`. -/
def responseReview (status : ErrorCode) (m3u8Info : M3u8ReviewInfo) : List HttpResponse :=
  respond status (.review m3u8Info)

/-- The response to a request that is not a GET or has no play mode. -/
def modeNotExpected : List HttpResponse :=
  [⟨403, ⟨5, "http request mode was not expected".toList, none⟩⟩]

/-- The response writers on the outcome of a handler. -/
def Reply.responses : Reply → Except Exn (List HttpResponse)
  | .playseek r => r.map (fun out => responsePlayseek out.1 out.2)
  | .review r => r.map (fun out => responseReview out.1 out.2)
  | .unexpected => .ok modeNotExpected

/-- `channelRead`: the responses written, or the exception that leaves it. -/
def channelRead (c : ConfigControl) (parsers : Parsers) (msg : HttpMessage) :
    Client (Except Exn (List HttpResponse)) :=
  match msg.method with
  | .other _ => .ret (.ok modeNotExpected)
  | .get =>
      match parsers.parameters msg.uri with
      | .error e => .ret (.error e)
      | .ok attributes =>
          (handleGet c ⟨parsers.uri msg.uri, parser attributes⟩).map Reply.responses

/-! ## §2. A store that fails. -/

/-- The exception of a Jedis call.  It is a `RuntimeException` of its own, which no
`catch` of the handlers names. -/
structure JedisException where
  message : JString
  deriving Repr, DecidableEq

/-- What can leave `channelRead`. -/
inductive Throwable where
  | exn (e : Exn)
  | jedis (e : JedisException)
  deriving Repr, DecidableEq

/-- Which commands the store fails on. -/
structure StoreFaults where
  get : Option JedisException
  set : Option JedisException
  del : Option JedisException
  deriving Repr, DecidableEq

/-- What an operation throws. -/
def StoreFaults.throws (faults : StoreFaults) : Prog.Op JString Stored → Option JedisException
  | .get _ => faults.get
  | .set _ _ _ => faults.set
  | .del _ => faults.del

/-- `exceptionCaught`: the message is logged; the code that would answer is commented
out. -/
def exceptionCaught (_cause : Throwable) : List HttpResponse := []

/-- The responses one request gets. -/
def written (c : ConfigControl) (parsers : Parsers) (faults : StoreFaults)
    (env : ∀ q : Query, q.Answer) (msg : HttpMessage) (store : SessionStore) :
    List HttpResponse :=
  match ((channelRead c parsers msg).execFaulty faults.throws env store).2 with
  | .error e => exceptionCaught (.jedis e)
  | .ok (.error e) => exceptionCaught (.exn e)
  | .ok (.ok responses) => responses

/-- The writers write one response for every code a handler returns. -/
theorem Reply.length_responses {r : Reply} {responses : List HttpResponse}
    (h : r.responses = .ok responses) : responses.length = 1 := by
  have hrespond : ∀ (status : ErrorCode) (info : RespInfo), (respond status info).length = 1 := by
    intro status info
    cases status <;> rfl
  cases r with
  | playseek r =>
      cases r with
      | error e => exact absurd h (by simp [Reply.responses, Except.map])
      | ok out =>
          simp only [Reply.responses, Except.map, Except.ok.injEq] at h
          rw [← h]
          exact hrespond _ _
  | review r =>
      cases r with
      | error e => exact absurd h (by simp [Reply.responses, Except.map])
      | ok out =>
          simp only [Reply.responses, Except.map, Except.ok.injEq] at h
          rw [← h]
          exact hrespond _ _
  | unexpected =>
      simp only [Reply.responses, Except.ok.injEq] at h
      rw [← h]
      rfl

/-! ## §3. Where something can be thrown. -/

/-- Every segment line that is met has a time. -/
def FileRead.TimesReadable : FileRead → Prop
  | .notFound => True
  | .opened lines _ => (tsSegments none lines).2 = none

/-- What a playseek request for a playlist that exists needs to be answered, when its
key holds `stored`.  An `IOException` of the file does not matter: it is caught. -/
structure PlayseekVisit.GoesThrough {c : ConfigControl} {mtvSession timestamp : JString}
    (v : PlayseekVisit c mtvSession timestamp) (faults : StoreFaults)
    (stored : Option Stored) : Prop where
  get : faults.get = none
  /-- `remove_session` is called for a session of another timestamp only. -/
  del : ∀ s, getSession stored = some s → s.timestamp ≠ some timestamp → faults.del = none
  /-- The seek time is looked at only where there is no session to go on from. -/
  seekTime : keptSession timestamp stored = none → (toCharArray v.seekTime).length = 6
  times : v.file.TimesReadable
  set : v.NothingToWrite stored ∨ faults.set = none

/-- What a playseek request needs to be answered. -/
def SeekAnswerable (c : ConfigControl) (faults : StoreFaults) (env : ∀ q : Query, q.Answer)
    (request : HttpRequest) (store : SessionStore) : Prop :=
  ∀ mtvSession timestamp, request.params "mtv_session".toList = some mtvSession →
    request.params "timestamp".toList = some timestamp →
      request.uri ≠ none ∧ ∀ v : PlayseekVisit c mtvSession timestamp,
        v.request = request → v.env = env → v.GoesThrough faults (store (sessionKey mtvSession))

/-- What a review request needs to be answered: here an `IOException` is not caught. -/
def ReviewAnswerable (c : ConfigControl) (env : ∀ q : Query, q.Answer)
    (request : HttpRequest) : Prop :=
  request.params "timestamp".toList ≠ none →
    ∃ uri, request.uri = some uri ∧ ∀ path, playlistPath c env uri = some path →
      ∃ lines, env (.readFile path) = FileRead.opened lines .eof
        ∧ (tsSegments none lines).2 = none

/-- What a GET request needs to be answered. -/
def RequestAnswerable (c : ConfigControl) (faults : StoreFaults)
    (env : ∀ q : Query, q.Answer) (request : HttpRequest) (store : SessionStore) : Prop :=
  match getPlayMode request with
  | .seek => SeekAnswerable c faults env request store
  | .review => ReviewAnswerable c env request
  | .none => True

/-- What a message needs to be answered: it is not a GET, or its query can be parsed
and the request is answerable. -/
def Answerable (c : ConfigControl) (parsers : Parsers) (faults : StoreFaults)
    (env : ∀ q : Query, q.Answer) (msg : HttpMessage) (store : SessionStore) : Prop :=
  msg.method = .get → ∃ attributes, parsers.parameters msg.uri = .ok attributes
    ∧ RequestAnswerable c faults env ⟨parsers.uri msg.uri, parser attributes⟩ store

/-! ## §4. Files. -/

theorem tsSegments_error_ne_io :
    ∀ (lines : List JString) (ext : Option JString), (tsSegments ext lines).2 ≠ some .io := by
  intro lines
  induction lines with
  | nil => intro ext; simp [tsSegments]
  | cons s rest ih =>
      intro ext
      simp only [tsSegments]
      cases hk : lineKind s with
      | segment =>
          cases ht : getTsTime s with
          | error e =>
              intro h
              simp only [Option.some.injEq] at h
              rw [h] at ht
              unfold getTsTime at ht
              split at ht
              · exact absurd ht (by simp)
              · split at ht
                · exact absurd ht (by simp)
                · split at ht <;> exact absurd ht (by simp)
          | ok t => exact ih ext
      | extinf => exact ih (some s)
      | title | mediaSequence | other => exact ih ext

/-- A playseek filter's outcome is turned into a reply unless a segment line has no
time. -/
theorem playseekReply_loop {σ : Type} (F : Filter σ) (v : σ) (f : LoopState σ → List Piece)
    (lines : List JString) (fin : ReadEnd) :
    (∃ r, playseekReply (fin.raise ((F.loop ⟨none, v, []⟩ lines).2.map f)) = .ok r)
      ↔ (tsSegments none lines).2 = none := by
  have herror := F.loop_error lines ⟨none, v, []⟩
  cases hloop : (F.loop ⟨none, v, []⟩ lines).2 with
  | error e =>
      have hts : (tsSegments none lines).2 = some e := (herror e).mp hloop
      have hio : e ≠ .io := fun h => tsSegments_error_ne_io lines none (h ▸ hts)
      rw [hts]
      cases e <;> cases fin <;> simp_all [Except.map, ReadEnd.raise, playseekReply]
  | ok st =>
      have hts : (tsSegments none lines).2 = none := by
        cases h : (tsSegments none lines).2 with
        | none => rfl
        | some e => rw [(herror e).mpr h] at hloop; exact absurd hloop (by simp)
      rw [hts]
      cases fin <;> simp [Except.map, ReadEnd.raise, playseekReply]

/-- The review's loop runs through unless a segment line has no time. -/
theorem playback_loop_ok_iff (startTime endTime : Int) :
    ∀ (lines : List JString) (st : PlaybackState),
      (∃ st', lines.foldlM (playbackLine startTime endTime) st = .ok st')
        ↔ (tsSegments st.extInfo lines).2 = none := by
  intro lines
  induction lines with
  | nil => intro st; simp [tsSegments, pure, Except.pure]
  | cons s rest ih =>
      intro st
      rw [List.foldlM_cons]
      simp only [playbackLine, tsSegments]
      cases hk : lineKind s with
      | segment =>
          cases ht : getTsTime s with
          | error e => simp [bind, Except.bind]
          | ok t =>
              dsimp only
              split_ifs with hrange
              · exact ih ⟨st.extInfo, st.title, st.tsList ++ [⟨st.extInfo, s⟩]⟩
              · exact ih st
      | extinf => exact ih ⟨some s, st.title, st.tsList⟩
      | title | mediaSequence => exact ih ⟨st.extInfo, _, st.tsList⟩
      | other => exact ih st

/-! ## §5. A client that gets through. -/

/-- The client meets no operation that fails and returns a value. -/
def Succeeds {R : Type} (faults : StoreFaults) (env : ∀ q : Query, q.Answer)
    (p : Client (Except Exn R)) (store : SessionStore) : Prop :=
  p.Meets (fun op => faults.throws op = none) env store ∧ ∃ r, (p.exec env store).2 = .ok r

section Succeeds

variable {R : Type} (faults : StoreFaults) (env : ∀ q : Query, q.Answer)

theorem succeeds_ret (r : Except Exn R) (store : SessionStore) :
    Succeeds faults env (.ret r) store ↔ ∃ a, r = .ok a :=
  and_iff_right trivial

theorem succeeds_get (key : JString) (next : Option Stored → Client (Except Exn R))
    (store : SessionStore) :
    Succeeds faults env (.get key next) store
      ↔ faults.get = none ∧ Succeeds faults env (next (store key)) store :=
  and_assoc

theorem succeeds_del (key : JString) (next : Client (Except Exn R)) (store : SessionStore) :
    Succeeds faults env (.del key next) store
      ↔ faults.del = none ∧ Succeeds faults env next (Function.update store key none) :=
  and_assoc

/-- The writes of a filter, then its reply. -/
theorem succeeds_putSessions (c : ConfigControl) (key : JString) (r : Except Exn R) :
    ∀ (puts : List SessionDef) (store : SessionStore),
      Succeeds faults env (putSessions c key puts (.ret r)) store
        ↔ (puts = [] ∨ faults.set = none) ∧ ∃ a, r = .ok a := by
  intro puts
  induction puts with
  | nil =>
      intro store
      rw [and_iff_right (Or.inl rfl)]
      exact succeeds_ret faults env r store
  | cons s puts ih =>
      intro store
      have hset : Succeeds faults env (putSessions c key (s :: puts) (.ret r)) store
          ↔ faults.set = none ∧ Succeeds faults env (putSessions c key puts (.ret r))
              (Function.update store key (some (.session s))) := and_assoc
      rw [hset, ih]
      constructor
      · rintro ⟨h, _, hr⟩
        exact ⟨Or.inr h, hr⟩
      · rintro ⟨h, hr⟩
        have hnone := h.resolve_left (List.cons_ne_nil _ _)
        exact ⟨hnone, Or.inr hnone, hr⟩

theorem succeeds_withPlaylist (c : ConfigControl) (uri : Uri)
    (found : JString → Client (Except Exn R)) (missing : R) (store : SessionStore) :
    Succeeds faults env (withPlaylist c uri found (.ok missing)) store
      ↔ ∀ path, playlistPath c env uri = some path → Succeeds faults env (found path) store := by
  unfold Succeeds withPlaylist playlistPath
  simp only [Prog.Meets, Prog.exec]
  split_ifs with hindex hm3u8
  · simp
  · simp [Prog.Meets, Prog.exec, hm3u8]
  · simp [Prog.Meets, Prog.exec, hm3u8]

theorem succeeds_seekAnew (c : ConfigControl) (filePath seekTime key timestamp : JString)
    (query : Option JString) (store : SessionStore) :
    Succeeds faults env (seekAnew c filePath seekTime key timestamp query) store
      ↔ ((seekRun c env filePath seekTime timestamp query).puts = [] ∨ faults.set = none)
        ∧ ∃ r, playseekReply (seekRun c env filePath seekTime timestamp query).result = .ok r := by
  have htime : ∀ next : Int → Client PlayseekReply,
      Succeeds faults env (withCurrentTime c next) store
        ↔ Succeeds faults env (next (currentTime c env)) store := by
    intro next
    unfold withCurrentTime currentTime
    cases c.isDebugMode <;> exact Iff.rfl
  unfold seekAnew seekRun
  rw [htime]
  cases transformAbsoluteTime (currentTime c env) seekTime with
  | error e =>
      dsimp only
      rw [and_iff_right (Or.inl rfl), succeeds_ret]
  | ok absoluteTime => exact succeeds_putSessions faults env c key _ _ store

/-- What the `try` block of `playSeekHandler` needs. -/
theorem succeeds_playSeekFile (c : ConfigControl)
    (filePath seekTime mtvSession timestamp : JString) (query : Option JString)
    (store : SessionStore) :
    Succeeds faults env (playSeekFile c filePath seekTime mtvSession timestamp query) store
      ↔ faults.get = none
        ∧ (∀ s, getSession (store (sessionKey mtvSession)) = some s →
            s.timestamp ≠ some timestamp → faults.del = none)
        ∧ ((filterRun c env filePath seekTime timestamp query
              (store (sessionKey mtvSession))).puts = [] ∨ faults.set = none)
        ∧ ∃ r, playseekReply (filterRun c env filePath seekTime timestamp query
              (store (sessionKey mtvSession))).result = .ok r := by
  unfold playSeekFile filterRun
  rw [succeeds_get]
  apply and_congr_right
  intro _
  -- as in `exec_playSeekFile`, the three answers of `get_session`
  cases hs : store (sessionKey mtvSession) with
  | none =>
      simp only [getSession, keptSession, playSeekWith]
      rw [succeeds_seekAnew]
      simp
  | some stored =>
      cases stored with
      | unreadable raw =>
          simp only [getSession, keptSession, playSeekWith]
          rw [succeeds_seekAnew]
          simp
      | session s =>
          simp only [getSession, Option.some.injEq, forall_eq']
          by_cases hts : s.timestamp = some timestamp
          · rw [playSeekWith_kept c filePath seekTime _ query hts, keptSession_session hts]
            simp only [hts, ne_eq, not_true_eq_false, false_implies, true_and]
            exact succeeds_putSessions faults env c _ _ _ store
          · rw [playSeekWith_changed c filePath seekTime _ query hts, succeeds_del,
              succeeds_seekAnew]
            have hkept : keptSession timestamp (some (.session s)) = none := by
              simp [keptSession, checkTimestampChange, Ne.symm hts]
            rw [hkept]
            simp only [hts, ne_eq, not_false_eq_true, true_implies]

end Succeeds

/-! ## §6. Requests. -/

/-- The seek time is accepted when it has six `char`s, whatever they are. -/
theorem transformAbsoluteTime_ok_iff (now : Int) (seekTime : JString) :
    (∃ a, transformAbsoluteTime now seekTime = .ok a) ↔ (toCharArray seekTime).length = 6 := by
  unfold transformAbsoluteTime transform2TimeOffset
  split
  · rename_i h
    simp [h, Except.map]
  · rename_i hother
    simp only [Except.map, reduceCtorEq, exists_false, false_iff]
    intro hlen
    match hchars : toCharArray seekTime, hlen with
    | [a0, a1, a2, a3, a4, a5], _ => exact hother a0 a1 a2 a3 a4 a5 hchars

/-- A request for a playlist is turned into a reply when its seek time, if it is looked
at, and the segment times are good. -/
theorem PlayseekVisit.reply_ok_iff {c : ConfigControl} {mtvSession timestamp : JString}
    (v : PlayseekVisit c mtvSession timestamp) (stored : Option Stored) :
    (∃ r, playseekReply (v.run stored).result = .ok r)
      ↔ (keptSession timestamp stored = none → (toCharArray v.seekTime).length = 6)
        ∧ v.file.TimesReadable := by
  cases hk : keptSession timestamp stored with
  | some s =>
      rw [v.run_kept hk, and_iff_right (by simp)]
      cases v.file with
      | notFound => simp [m3u8PlayseekFilterSession, playseekReply, FileRead.TimesReadable]
      | opened lines fin => exact playseekReply_loop (sessionFilter v.uri.query) _ _ lines fin
  | none =>
      have haccept := transformAbsoluteTime_ok_iff (currentTime c v.env) v.seekTime
      rw [← haccept]
      cases ha : v.absoluteTime with
      | error e =>
          have ha' : transformAbsoluteTime (currentTime c v.env) v.seekTime = .error e := ha
          obtain rfl := transformAbsoluteTime_error ha'
          rw [v.run_rejected hk ha, ha']
          simp [playseekReply]
      | ok a =>
          rw [v.run_anew hk ha, and_iff_right (fun _ => ⟨a, ha⟩)]
          cases v.file with
          | notFound => simp [m3u8PlayseekFilter, playseekReply, FileRead.TimesReadable]
          | opened lines fin =>
              exact playseekReply_loop (seekFilter timestamp v.uri.query a) _ _ lines fin

/-- `playSeekHandler` returns exactly for answerable requests. -/
theorem succeeds_playSeekHandler (c : ConfigControl) (faults : StoreFaults)
    (env : ∀ q : Query, q.Answer) {request : HttpRequest} {seekTime : JString}
    (hseek : request.params "playseek".toList = some seekTime) (store : SessionStore) :
    Succeeds faults env (playSeekHandler c request) store
      ↔ SeekAnswerable c faults env request store := by
  unfold SeekAnswerable
  cases hm : request.params "mtv_session".toList with
  | none =>
      unfold playSeekHandler
      simp only [hseek, hm]
      rw [succeeds_ret]
      simp
  | some mtvSession =>
      cases hts : request.params "timestamp".toList with
      | none =>
          unfold playSeekHandler
          simp only [hseek, hm, hts]
          rw [succeeds_ret]
          simp
      | some timestamp =>
          simp only [Option.some.injEq]
          cases huri : request.uri with
          | none =>
              unfold playSeekHandler
              simp only [hseek, hm, hts, huri]
              rw [succeeds_ret]
              simp
          | some uri =>
              have hplay : request.IsPlayseek seekTime mtvSession timestamp uri :=
                ⟨hseek, hm, hts, huri⟩
              rw [playSeekHandler_eq hplay, succeeds_withPlaylist]
              constructor
              · rintro h _ _ rfl rfl
                refine ⟨Option.some_ne_none uri, ?_⟩
                intro v hv henv
                subst hv henv
                -- the target and the seek time of the visit are those of the request
                obtain rfl : uri = v.uri :=
                  Option.some.inj (huri.symm.trans v.isPlayseek.uri)
                obtain rfl : seekTime = v.seekTime :=
                  Option.some.inj (hseek.symm.trans v.isPlayseek.playseek)
                obtain ⟨hget, hdel, hset, hreply⟩ :=
                  (succeeds_playSeekFile faults v.env c v.path _ _ _ _ store).mp
                    (h v.path v.path_eq)
                obtain ⟨h6, htimes⟩ := (v.reply_ok_iff _).mp hreply
                exact ⟨hget, hdel, h6, htimes, hset.imp_left (v.run_puts_eq_nil _).mp⟩
              · intro h path hpath
                let v : PlayseekVisit c mtvSession timestamp :=
                  ⟨request, env, seekTime, uri, path, hplay, hpath⟩
                obtain ⟨hget, hdel, h6, htimes, hset⟩ := (h _ _ rfl rfl).2 v rfl rfl
                rw [succeeds_playSeekFile]
                exact ⟨hget, hdel, hset.imp_left (v.run_puts_eq_nil _).mpr,
                  (v.reply_ok_iff _).mpr ⟨h6, htimes⟩⟩

/-- A review is turned into a reply when its file is read to the end and its segment
times are good. -/
theorem reviewReply_ok_iff (c : ConfigControl) (playbackbegin playbackend : JString)
    (query : Option JString) (file : FileRead) :
    (∃ r, reviewReply c playbackbegin playbackend query file = .ok r)
      ↔ ∃ lines, file = .opened lines .eof ∧ (tsSegments none lines).2 = none := by
  unfold reviewReply
  cases file with
  | notFound => simp [m3u8PlaybackFilter, Except.map]
  | opened lines fin =>
      have hloop := playback_loop_ok_iff
        (transform2UnixTime c playbackbegin "yyyyMMddHHmmss".toList)
        (transform2UnixTime c playbackend "yyyyMMddHHmmss".toList) lines ⟨none, [], []⟩
      simp only [m3u8PlaybackFilter, FileRead.opened.injEq]
      cases hfold : lines.foldlM (playbackLine
          (transform2UnixTime c playbackbegin "yyyyMMddHHmmss".toList)
          (transform2UnixTime c playbackend "yyyyMMddHHmmss".toList)) ⟨none, [], []⟩ with
      | error e =>
          rw [hfold] at hloop
          have hbad : (tsSegments none lines).2 ≠ none := fun h => by
            obtain ⟨st, hst⟩ := hloop.mpr h
            exact absurd hst (by simp)
          simp only [Except.map, ReadEnd.raise, reduceCtorEq, exists_false, false_iff]
          rintro ⟨_, ⟨rfl, _⟩, h⟩
          exact hbad h
      | ok st =>
          rw [hfold] at hloop
          have hgood : (tsSegments none lines).2 = none := hloop.mp ⟨st, rfl⟩
          cases fin <;> simp [Except.map, ReadEnd.raise, hgood]

/-- `playBackHandler` returns exactly for answerable requests. -/
theorem succeeds_playBackHandler (c : ConfigControl) (faults : StoreFaults)
    (env : ∀ q : Query, q.Answer) {request : HttpRequest} {playbackbegin playbackend : JString}
    (hbegin : request.params "playbackbegin".toList = some playbackbegin)
    (hend : request.params "playbackend".toList = some playbackend) (store : SessionStore) :
    Succeeds faults env (playBackHandler c request) store ↔ ReviewAnswerable c env request := by
  unfold playBackHandler ReviewAnswerable
  simp only [hbegin, hend]
  cases request.params "timestamp".toList with
  | none =>
      dsimp only
      rw [succeeds_ret]
      simp
  | some timestamp =>
      cases request.uri with
      | none =>
          dsimp only
          rw [succeeds_ret]
          simp
      | some uri =>
          dsimp only
          rw [succeeds_withPlaylist]
          simp only [ne_eq, reduceCtorEq, not_false_eq_true, true_implies, Option.some.injEq,
            exists_eq_left']
          apply forall₂_congr
          intro path _
          exact (succeeds_ret faults env _ store).trans (reviewReply_ok_iff c _ _ _ _)

/-! ## §7. The channel. -/

/-- Whatever is thrown is answered by nothing, so one response is written exactly when
`channelRead` returns. -/
theorem length_written_iff (c : ConfigControl) (parsers : Parsers) (faults : StoreFaults)
    (env : ∀ q : Query, q.Answer) (msg : HttpMessage) (store : SessionStore) :
    (written c parsers faults env msg store).length = 1
      ↔ Succeeds faults env (channelRead c parsers msg) store := by
  have hok := fun r => Prog.execFaulty_ok_iff faults.throws env r (channelRead c parsers msg) store
  unfold written Succeeds
  cases hrun : ((channelRead c parsers msg).execFaulty faults.throws env store).2 with
  | error e =>
      constructor
      · intro h
        exact absurd h (by simp [exceptionCaught])
      · rintro ⟨hmeets, r, hr⟩
        rw [(hok (.ok r)).mpr ⟨hmeets, hr⟩] at hrun
        exact absurd hrun (by simp)
  | ok out =>
      obtain ⟨hmeets, hexec⟩ := (hok out).mp hrun
      rw [hexec, and_iff_right hmeets]
      cases out with
      | error e => simp [exceptionCaught]
      | ok responses =>
          refine iff_of_true ?_ ⟨responses, rfl⟩
          show responses.length = 1
          unfold channelRead at hexec
          split at hexec
          · obtain rfl : modeNotExpected = responses := Except.ok.inj hexec
            rfl
          · split at hexec
            · exact absurd hexec (by simp [Prog.exec])
            · rw [Prog.exec_map] at hexec
              exact Reply.length_responses hexec

/-- The GET branch of `channelRead` returns exactly for answerable requests. -/
theorem succeeds_handleGet (c : ConfigControl) (faults : StoreFaults)
    (env : ∀ q : Query, q.Answer) (request : HttpRequest) (store : SessionStore) :
    Succeeds faults env ((handleGet c request).map Reply.responses) store
      ↔ RequestAnswerable c faults env request store := by
  unfold RequestAnswerable handleGet
  cases hmode : getPlayMode request with
  | none => simp [Succeeds, Prog.map, Prog.Meets, Prog.exec, Reply.responses]
  | seek =>
      obtain ⟨seekTime, hseek⟩ : ∃ s, request.params "playseek".toList = some s := by
        rw [← Option.isSome_iff_exists]
        unfold getPlayMode at hmode
        by_contra hno
        rw [if_neg hno] at hmode
        split_ifs at hmode
      rw [← succeeds_playSeekHandler c faults env hseek]
      unfold Succeeds
      rw [Prog.meets_map, Prog.meets_map, Prog.exec_map, Prog.exec_map]
      cases ((playSeekHandler c request).exec env store).2 <;> simp [Reply.responses, Except.map]
  | review =>
      obtain ⟨b, e, hbegin, hend⟩ : ∃ b e, request.params "playbackbegin".toList = some b
          ∧ request.params "playbackend".toList = some e := by
        unfold getPlayMode at hmode
        split_ifs at hmode with _ hboth
        rw [Bool.and_eq_true, Option.isSome_iff_exists, Option.isSome_iff_exists] at hboth
        obtain ⟨⟨b, hb⟩, e, he⟩ := hboth
        exact ⟨b, e, hb, he⟩
      rw [← succeeds_playBackHandler c faults env hbegin hend store]
      unfold Succeeds
      rw [Prog.meets_map, Prog.meets_map, Prog.exec_map, Prog.exec_map]
      cases ((playBackHandler c request).exec env store).2 <;> simp [Reply.responses, Except.map]

/-- **When a request is answered once**: for every message, every playlist file, every
content of the store and every failure of it. -/
theorem answered_once_iff (c : ConfigControl) (parsers : Parsers) (faults : StoreFaults)
    (env : ∀ q : Query, q.Answer) (msg : HttpMessage) (store : SessionStore) :
    (written c parsers faults env msg store).length = 1
      ↔ Answerable c parsers faults env msg store := by
  rw [length_written_iff]
  unfold Answerable channelRead
  cases msg.method with
  | other name => simp [succeeds_ret]
  | get =>
      cases parsers.parameters msg.uri with
      | error e => simp [succeeds_ret]
      | ok attributes => simpa using succeeds_handleGet c faults env _ store

/-- A store on which every command succeeds. -/
def noFaults : StoreFaults := ⟨none, none, none⟩

/-- What the parsers make of
`/cctv.m3u8?playseek=100&mtv_session=viewer&timestamp=1`. -/
def shortSeekParsers : Parsers where
  parameters := fun _ => .ok [("playseek".toList, ["100".toList]),
    ("mtv_session".toList, ["viewer".toList]), ("timestamp".toList, ["1".toList])]
  uri := fun _ => some ⟨some "/cctv.m3u8".toList,
    some "playseek=100&mtv_session=viewer&timestamp=1".toList⟩

/-- A seek time of three characters gets no response, from an intact playlist and an
empty store. -/
theorem short_seek_unanswered :
    written shippedConfig shortSeekParsers noFaults (machineOf (liveBody [1508153098]))
      ⟨.get, "/cctv.m3u8?playseek=100&mtv_session=viewer&timestamp=1".toList⟩ emptyStore = [] := by
  decide +kernel

end NginxNettyHls.M3u8Filter
