/-
  NginxNettyHls.M3u8Filter.Bodies
  ───────────────────────────────
  **THE BODY OF A RESPONSE AS JSON.**

  `ObjectMapper.writeValueAsString` writes the public fields of an object in the
  order of their declaration, a field that is `null` as `null`.

    • `CommonResp.toJson` — the object behind a response;
    • `ok_playSeekHandler_iff`, `ok_playBackHandler_iff` — when a handler returns
      `ERROR_OK`, as a statement about the call of its filter;
    • `written_ok` — a 200 carries the info object of a call of one of the three
      filters (`FilterCall`), with the query of the request target.
-/
import NginxNettyHls.M3u8Filter.Channel
import NginxNettyHls.Text.Json
import NginxNettyHls.Text.Utf8

namespace NginxNettyHls.M3u8Filter

open NginxNettyHls.Java
open KeyValue
open Text

/-! ## §1. Objects. -/

/-- The bytes of a field name. -/
def fieldName (s : String) : List UInt8 := s.toList.map (fun c => UInt8.ofNat c.toNat)

/-- The constants of `serviceType`. -/
def ServiceType.value : ServiceType → Nat
  | .none => 0
  | .seek => 1
  | .review => 2

/-- A `String` field as `ObjectMapper` writes it. -/
def jsonString : Option JString → Json
  | none => .null
  | some s => .str (utf8 s)

def TsInfo.toJson (t : TsInfo) : Json :=
  .obj [(fieldName "ext", jsonString t.ext), (fieldName "ts", jsonString (some t.ts))]

/-- The fields in the order of their declaration. -/
def RespInfo.toJson : RespInfo → Json
  | .playseek info => .obj
      [(fieldName "play_mode", .num info.playMode.value),
       -- no handler of a playseek sets `m3u8_title` or `argus`
       (fieldName "m3u8_title", .null),
       (fieldName "m3u8_content", jsonString (info.m3u8Content.map toText)),
       (fieldName "argus", .null)]
  | .review info => .obj
      [(fieldName "play_mode", .num info.playMode.value),
       (fieldName "m3u8_title", jsonString info.m3u8Title),
       (fieldName "argus", jsonString info.argus),
       (fieldName "ts_list", match info.tsList with
         | none => .null
         | some ts => .arr (ts.map TsInfo.toJson))]

/-- The fields of the object `writeValueAsString` writes for a `commonResp`. -/
def CommonResp.fields (r : CommonResp) : List (List UInt8 × Json) :=
  [(fieldName "error_code", .num r.errorCode),
   (fieldName "error_text", jsonString (some r.errorText)),
   (fieldName "resp_info", match r.respInfo with
     | none => .null
     | some info => info.toJson)]

def CommonResp.toJson (r : CommonResp) : Json := .obj r.fields

def RespInfo.playMode : RespInfo → ServiceType
  | .playseek info => info.playMode
  | .review info => info.playMode

/-! The names of the fields of one object differ: -/

theorem distinct_jsonString (s : Option JString) : (jsonString s).Distinct := by
  cases s with
  | none => exact .null
  | some s => exact .str _

theorem TsInfo.distinct (t : TsInfo) : t.toJson.Distinct := by
  have names : [fieldName "ext", fieldName "ts"].Nodup := by decide +kernel
  refine .obj names ?_
  simp only [List.forall_mem_cons]
  exact ⟨distinct_jsonString _, distinct_jsonString _, by simp⟩

theorem RespInfo.distinct (info : RespInfo) : info.toJson.Distinct := by
  cases info with
  | playseek info =>
      have names : [fieldName "play_mode", fieldName "m3u8_title", fieldName "m3u8_content",
          fieldName "argus"].Nodup := by decide +kernel
      refine .obj names ?_
      simp only [List.forall_mem_cons]
      exact ⟨.num _, .null, distinct_jsonString _, .null, by simp⟩
  | review info =>
      have names : [fieldName "play_mode", fieldName "m3u8_title", fieldName "argus",
          fieldName "ts_list"].Nodup := by decide +kernel
      refine .obj names ?_
      simp only [List.forall_mem_cons]
      refine ⟨.num _, distinct_jsonString _, distinct_jsonString _, ?_, by simp⟩
      cases info.tsList with
      | none => exact .null
      | some list =>
          refine .arr (fun j hj => ?_)
          obtain ⟨t, _, rfl⟩ := List.mem_map.mp hj
          exact t.distinct

theorem CommonResp.distinct (r : CommonResp) : r.toJson.Distinct := by
  have names : [fieldName "error_code", fieldName "error_text", fieldName "resp_info"].Nodup := by
    decide +kernel
  refine .obj names ?_
  unfold CommonResp.fields
  simp only [List.forall_mem_cons]
  refine ⟨.num _, distinct_jsonString _, ?_, by simp⟩
  cases r.respInfo with
  | none => exact .null
  | some info => exact info.distinct

/-! ## §2. What a 200 carries. -/

/-- The call of a filter by its handler, without the query and the file. -/
inductive FilterCall where
  /-- `m3u8_playseek_filter` -/
  | first (timestamp : JString) (absoluteTime : Int)
  /-- `m3u8_playseek_filter_session` -/
  | followUp (session : SessionDef)
  /-- `m3u8_playback_filter` -/
  | review (startTime endTime : Int)
  deriving Repr, DecidableEq

/-- The info object the handler returns with `ERROR_OK`. -/
def FilterCall.info (query : Option JString) (file : FileRead) :
    FilterCall → Except Exn RespInfo
  | .first timestamp absoluteTime =>
      (playseekReply (m3u8PlayseekFilter timestamp query absoluteTime file).result).map
        (fun out => .playseek out.2)
  | .followUp session =>
      (playseekReply (m3u8PlayseekFilterSession session query file).result).map
        (fun out => .playseek out.2)
  | .review startTime endTime =>
      (m3u8PlaybackFilter startTime endTime file).map
        (fun r => .review ⟨.review, some r.1, query, some r.2⟩)

/-- The filter a playseek request is given to. -/
theorem filterRun_call (c : ConfigControl) (env : ∀ q : Query, q.Answer)
    (filePath seekTime timestamp : JString) (query : Option JString) (stored : Option Stored)
    {info : M3u8PlayseekInfo}
    (h : playseekReply (filterRun c env filePath seekTime timestamp query stored).result
      = .ok (.ok, info)) :
    ∃ call : FilterCall, call.info query (env (.readFile filePath)) = .ok (.playseek info) := by
  unfold filterRun at h
  cases hkept : keptSession timestamp stored with
  | some session =>
      rw [hkept] at h
      refine ⟨.followUp session, ?_⟩
      simp only [FilterCall.info]
      rw [h]
      rfl
  | none =>
      rw [hkept] at h
      simp only [seekRun] at h
      cases htime : transformAbsoluteTime (currentTime c env) seekTime with
      | error e =>
          -- a seek time that is refused is no `IOException`
          rw [htime] at h
          obtain rfl := transformAbsoluteTime_error htime
          exact absurd h (by simp [playseekReply])
      | ok absoluteTime =>
          rw [htime] at h
          refine ⟨.first timestamp absoluteTime, ?_⟩
          simp only [FilterCall.info]
          rw [h]
          rfl

/-- The parameters and the target of a review request. -/
structure HttpRequest.IsReview (request : HttpRequest) (playbackbegin playbackend : JString)
    (uri : Uri) : Prop where
  playbackbegin : request.params "playbackbegin".toList = some playbackbegin
  playbackend : request.params "playbackend".toList = some playbackend
  timestamp : request.params "timestamp".toList ≠ none
  uri : request.uri = some uri

theorem ok_playSeekHandler_iff (c : ConfigControl) (env : ∀ q : Query, q.Answer)
    (request : HttpRequest) (store : SessionStore) (info : M3u8PlayseekInfo) :
    ((playSeekHandler c request).exec env store).2 = .ok (.ok, info)
      ↔ ∃ (mtvSession timestamp : JString) (v : PlayseekVisit c mtvSession timestamp),
          v.request = request ∧ v.env = env
            ∧ playseekReply (v.run (store (sessionKey mtvSession))).result
              = .ok (.ok, info) := by
  constructor
  · intro h
    unfold playSeekHandler at h
    -- only the call of a filter returns `ERROR_OK`
    split at h
    · exact absurd h (by simp [Prog.exec])
    · rename_i seekTime hseek
      split at h
      · exact absurd h (by simp [Prog.exec])
      · rename_i mtvSession hmtv
        split at h
        · exact absurd h (by simp [Prog.exec])
        · rename_i timestamp hts
          split at h
          · exact absurd h (by simp [Prog.exec])
          · rename_i uri huri
            rw [exec_withPlaylist] at h
            split at h
            · rename_i path hpath
              rw [exec_playSeekFile] at h
              exact ⟨mtvSession, timestamp,
                ⟨request, env, seekTime, uri, path, ⟨hseek, hmtv, hts, huri⟩, hpath⟩, rfl, rfl, h⟩
            · exact absurd h (by simp)
  · rintro ⟨mtvSession, timestamp, v, rfl, rfl, h⟩
    exact (congrArg Prod.snd (v.serve_eq store)).trans h

theorem playBackHandler_eq {c : ConfigControl} {request : HttpRequest}
    {playbackbegin playbackend : JString} {uri : Uri}
    (h : request.IsReview playbackbegin playbackend uri) :
    playBackHandler c request
      = withPlaylist c uri
          (fun filePath => .ask (.readFile filePath) (fun (file : FileRead) =>
            .ret (reviewReply c playbackbegin playbackend uri.query file)))
          (.ok (.m3u8FileNotFound, ⟨.none, none, none, none⟩)) := by
  obtain ⟨timestamp, hts⟩ := Option.ne_none_iff_exists'.mp h.timestamp
  unfold playBackHandler
  rw [h.playbackbegin, h.playbackend, hts, h.uri]

theorem ok_playBackHandler_iff (c : ConfigControl) (env : ∀ q : Query, q.Answer)
    (request : HttpRequest) (store : SessionStore) (info : M3u8ReviewInfo) :
    ((playBackHandler c request).exec env store).2 = .ok (.ok, info)
      ↔ ∃ playbackbegin playbackend uri path, request.IsReview playbackbegin playbackend uri
          ∧ playlistPath c env uri = some path
          ∧ reviewReply c playbackbegin playbackend uri.query (env (.readFile path))
            = .ok (.ok, info) := by
  constructor
  · intro h
    unfold playBackHandler at h
    split at h
    · exact absurd h (by simp [Prog.exec])
    · rename_i playbackbegin hbegin
      split at h
      · exact absurd h (by simp [Prog.exec])
      · rename_i playbackend hend
        split at h
        · exact absurd h (by simp [Prog.exec])
        · rename_i timestamp hts
          split at h
          · exact absurd h (by simp [Prog.exec])
          · rename_i uri huri
            rw [exec_withPlaylist] at h
            split at h
            · rename_i path hpath
              have hgiven : request.params "timestamp".toList ≠ none := by
                rw [hts]
                exact Option.some_ne_none timestamp
              exact ⟨playbackbegin, playbackend, uri, path, ⟨hbegin, hend, hgiven, huri⟩, hpath, h⟩
            · exact absurd h (by simp)
  · rintro ⟨playbackbegin, playbackend, uri, path, hreview, hpath, h⟩
    rw [playBackHandler_eq hreview, exec_withPlaylist, hpath]
    exact h

theorem playSeekHandler_call (c : ConfigControl) (env : ∀ q : Query, q.Answer)
    {request : HttpRequest} {store : SessionStore} {info : M3u8PlayseekInfo}
    (h : ((playSeekHandler c request).exec env store).2 = .ok (.ok, info)) :
    ∃ uri path, request.uri = some uri ∧ ∃ call : FilterCall,
      call.info uri.query (env (.readFile path)) = .ok (.playseek info) := by
  obtain ⟨mtvSession, timestamp, v, rfl, rfl, hreply⟩ :=
    (ok_playSeekHandler_iff c env request store info).mp h
  exact ⟨v.uri, v.path, v.isPlayseek.uri, filterRun_call c v.env v.path _ _ v.uri.query _ hreply⟩

theorem playBackHandler_call (c : ConfigControl) (env : ∀ q : Query, q.Answer)
    {request : HttpRequest} {store : SessionStore} {info : M3u8ReviewInfo}
    (h : ((playBackHandler c request).exec env store).2 = .ok (.ok, info)) :
    ∃ uri path, request.uri = some uri ∧ ∃ call : FilterCall,
      call.info uri.query (env (.readFile path)) = .ok (.review info) := by
  obtain ⟨playbackbegin, playbackend, uri, path, hreview, _, hreply⟩ :=
    (ok_playBackHandler_iff c env request store info).mp h
  refine ⟨uri, path, hreview.uri,
    .review (transform2UnixTime c playbackbegin "yyyyMMddHHmmss".toList)
      (transform2UnixTime c playbackend "yyyyMMddHHmmss".toList), ?_⟩
  unfold reviewReply at hreply
  dsimp only at hreply
  simp only [FilterCall.info]
  cases hf : m3u8PlaybackFilter
      (transform2UnixTime c playbackbegin "yyyyMMddHHmmss".toList)
      (transform2UnixTime c playbackend "yyyyMMddHHmmss".toList)
      (env (.readFile path)) with
  | error e => rw [hf] at hreply; exact absurd hreply (by simp [Except.map])
  | ok r =>
      rw [hf] at hreply
      simp only [Except.map, Except.ok.injEq, Prod.mk.injEq, true_and] at hreply ⊢
      rw [hreply]

/-- **A 200 carries the info object of a filter's call** with the query of its target. -/
theorem written_ok {c : ConfigControl} {parsers : Parsers} {faults : StoreFaults}
    {env : ∀ q : Query, q.Answer} {msg : HttpMessage} {store : SessionStore}
    {resp : HttpResponse} (hresp : resp ∈ written c parsers faults env msg store)
    (h200 : resp.status = 200) :
    ∃ uri path info, parsers.uri msg.uri = some uri ∧ resp.body.respInfo = some info
      ∧ ∃ call : FilterCall, call.info uri.query (env (.readFile path)) = .ok info := by
  have hrespond : ∀ {status : ErrorCode} {info : RespInfo}, resp ∈ respond status info →
      status = .ok ∧ resp.body.respInfo = some info := by
    intro status info hmem
    cases status with
    | ok => rw [List.mem_singleton.mp hmem]; exact ⟨rfl, rfl⟩
    | paramDismatch | m3u8FileNotFound =>
        rw [List.mem_singleton.mp hmem] at h200
        exact absurd h200 (by simp)
  have hmode : resp ∉ modeNotExpected := by
    intro hmem
    rw [List.mem_singleton.mp hmem] at h200
    exact absurd h200 (by simp)
  -- a response writer got `ERROR_OK` and the info object from its handler
  have hwriter : ∀ {α : Type} {reply : Except Exn (ErrorCode × α)} {f : α → RespInfo}
      {responses : List HttpResponse},
      reply.map (fun out => respond out.1 (f out.2)) = .ok responses → resp ∈ responses →
      ∃ info, reply = .ok (.ok, info) ∧ resp.body.respInfo = some (f info) := by
    intro α reply f responses hmap hmem
    cases reply with
    | error e => exact absurd hmap (by simp [Except.map])
    | ok out =>
        obtain rfl := Except.ok.inj hmap
        obtain ⟨hok, hinfo⟩ := hrespond hmem
        exact ⟨out.2, by rw [← hok], hinfo⟩
  unfold written at hresp
  split at hresp
  · exact absurd hresp (by simp [exceptionCaught])
  · exact absurd hresp (by simp [exceptionCaught])
  · rename_i responses hrun
    obtain ⟨_, hexec⟩ := (Prog.execFaulty_ok_iff _ _ _ _ _).mp hrun
    unfold channelRead at hexec
    split at hexec
    · obtain rfl : modeNotExpected = responses := Except.ok.inj hexec
      exact absurd hresp hmode
    · split at hexec
      · exact absurd hexec (by simp [Prog.exec])
      · rename_i attributes _
        rw [Prog.exec_map] at hexec
        unfold handleGet at hexec
        split at hexec
        · rw [Prog.exec_map] at hexec
          obtain ⟨info, hout, hinfo⟩ := hwriter (f := RespInfo.playseek) hexec hresp
          obtain ⟨uri, path, huri, hcall⟩ := playSeekHandler_call c env hout
          exact ⟨uri, path, _, huri, hinfo, hcall⟩
        · rw [Prog.exec_map] at hexec
          obtain ⟨info, hout, hinfo⟩ := hwriter (f := RespInfo.review) hexec hresp
          obtain ⟨uri, path, huri, hcall⟩ := playBackHandler_call c env hout
          exact ⟨uri, path, _, huri, hinfo, hcall⟩
        · obtain rfl : modeNotExpected = responses := Except.ok.inj hexec
          exact absurd hresp hmode

end NginxNettyHls.M3u8Filter
