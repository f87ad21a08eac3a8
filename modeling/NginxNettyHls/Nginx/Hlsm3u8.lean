/-
  NginxNettyHls.Nginx.Hlsm3u8
  ───────────────────────────
  **THE RENDERER OF `ngx_http_hlsm3u8_module`.**

  The module sends the request on to m3u8-filter as an in-memory subrequest.  When
  that ends, its status is copied to the main request and its completion code is
  dropped; the main request then logs the buffer, and for a status of 200 parses
  it and builds the playlist from the JSON.

    • `render` — the chain of buffers built from the parsed JSON, or the way it
      goes wrong: `assert(0)`, or a null string that is logged;
    • `renderer_valid_iff` — on the answers of m3u8-filter, when all is as expected;
    • `failure_reaches_client_iff` — which ends of the subrequest make an error
      response.
-/
import NginxNettyHls.M3u8Filter.Bodies
import NginxNettyHls.Nginx.Upstream

namespace NginxNettyHls.Nginx

open NginxNettyHls.Java
open NginxNettyHls.M3u8Filter
open Text

/-! ## §1. JSON on both sides. -/

/-- `json_type` of json-c. -/
inductive JsonType where
  | null
  | boolean
  | double
  | int
  | object
  | array
  | string
  deriving Repr, DecidableEq

/-- `ObjectMapper.writeValueAsString` and the functions of json-c the modules call, with
what is assumed of them.  A `json_object *` is an `Option Object`. -/
structure JsonLib where
  Object : Type
  writeValueAsString : Json → Bytes
  /-- `json_tokener_parse` of the memory from a pointer on: it is given no length. -/
  jsonTokenerParse : Bytes → Option Object
  jsonObjectGetType : Object → JsonType
  jsonObjectObjectGetEx : Option Object → String → Option Object
  jsonObjectGetInt : Option Object → Int
  jsonObjectGetString : Option Object → Option Bytes
  jsonObjectGetStringLen : Option Object → Nat
  /-- What `json_object_array_get_idx` returns below `json_object_array_length`. -/
  jsonObjectArrayItems : Option Object → List (Option Object)
  /-- What json-c builds from the text of a value. -/
  object : Json → Option Object
  /-- A response that is there in full is read, whatever lies behind it. -/
  parse_write : ∀ (r : CommonResp) (behind : Bytes),
    jsonTokenerParse (writeValueAsString r.toJson ++ behind) = object r.toJson
  /-- One that is cut off by a NUL is not. -/
  parse_cut : ∀ (r : CommonResp) (p q behind : Bytes), p ++ q = writeValueAsString r.toJson →
    q ≠ [] → jsonTokenerParse (p ++ 0 :: behind) = none
  /-- Only `null` is a null pointer. -/
  object_eq_none : ∀ j, object j = none ↔ j = .null
  get_obj : ∀ fields, (Json.obj fields).Distinct → ∀ key,
    jsonObjectObjectGetEx (object (.obj fields)) key
      = (fields.lookup (fieldName key)).bind object
  get_null : ∀ key, jsonObjectObjectGetEx none key = none
  int_num : ∀ n : Nat, n < 2 ^ 31 → jsonObjectGetInt (object (.num n)) = n
  int_null : jsonObjectGetInt none = 0
  string_str : ∀ s, jsonObjectGetString (object (.str s)) = some s
  string_null : jsonObjectGetString none = none
  stringLen_str : ∀ s, jsonObjectGetStringLen (object (.str s)) = s.length
  items_arr : ∀ items, jsonObjectArrayItems (object (.arr items)) = items.map object

/-- What `%s` takes of a string. -/
def cString (s : Bytes) : Bytes := s.takeWhile (fun b => b ≠ 0)

/-- The text of a C string does not reach behind its NUL. -/
theorem cString_append_zero {s : Bytes} (h : ∀ b ∈ s, b ≠ 0) (behind : Bytes) :
    cString (s ++ 0 :: behind) = s := by
  unfold cString
  rw [List.takeWhile_append_of_pos (fun b hb => by simpa using h b hb)]
  simp

namespace Printed

/-- A `json_object *`: the JSON `null` is a null pointer. -/
def pointer : Json → Option Json
  | .null => none
  | j => some j

theorem pointer_eq_none (j : Json) : pointer j = none ↔ j = .null := by
  cases j <;> simp [pointer]

def getType : Json → JsonType
  | .null => .null
  | .num _ => .int
  | .str _ => .string
  | .arr _ => .array
  | .obj _ => .object

def getEx (object : Option Json) (key : String) : Option Json :=
  match object with
  | some (.obj fields) => (fields.lookup (fieldName key)).bind pointer
  | _ => none

/-- A number too large is cut to the largest `int`. -/
def getInt : Option Json → Int
  | some (.num n) => min (n : Int) (2 ^ 31 - 1)
  | _ => 0

/-- What is not a string is given as its text. -/
def getString : Option Json → Option Bytes
  | none => none
  | some (.str s) => some s
  | some j => some j.print

def getStringLen : Option Json → Nat
  | some (.str s) => s.length
  | _ => 0

def arrayItems : Option Json → List (Option Json)
  | some (.arr items) => items.map pointer
  | _ => []

/-- What is parsed of a printed value and the memory behind it. -/
theorem cString_print (j : Json) (behind : Bytes) :
    cString (j.print ++ behind) = j.print ++ cString behind :=
  List.takeWhile_append_of_pos (fun b hb => by simpa using Json.print_ne_zero j b hb)

end Printed

/-- The plain printer, and the parser up to the first NUL. -/
def printedJson : JsonLib where
  Object := Json
  writeValueAsString := Json.print
  jsonTokenerParse memory := Json.parse (cString memory)
  jsonObjectGetType := Printed.getType
  jsonObjectObjectGetEx := Printed.getEx
  jsonObjectGetInt := Printed.getInt
  jsonObjectGetString := Printed.getString
  jsonObjectGetStringLen := Printed.getStringLen
  jsonObjectArrayItems := Printed.arrayItems
  object := Printed.pointer
  parse_write r behind := by
    rw [Printed.cString_print]
    exact Json.parse_print r.fields _
  parse_cut r p q behind hpq hq := by
    have hzero : ∀ b ∈ p, b ≠ 0 := fun b hb =>
      Json.print_ne_zero r.toJson b (hpq ▸ List.mem_append_left q hb)
    rw [cString_append_zero hzero]
    exact Json.parse_incomplete r.fields hpq hq
  object_eq_none := Printed.pointer_eq_none
  get_obj _ _ _ := rfl
  get_null _ := rfl
  int_num n hn := by
    show min (n : Int) (2 ^ 31 - 1) = n
    omega
  int_null := rfl
  string_str _ := rfl
  string_null := rfl
  stringLen_str _ := rfl
  items_arr _ := rfl

/-! ## §2. The renderer. -/

/-- How the status-200 branch of `hlsm3u8_pr_post_handler` goes wrong. -/
inductive Fault where
  | assertFailed
  /-- A null pointer given to a `%s` of `ngx_log_error`, which reads through it. -/
  | nullString
  deriving Repr, DecidableEq

/-- A buffer of the output chain: its `[pos, last)` and `last_buf`. -/
structure Buf where
  bytes : Bytes
  lastBuf : Bool
  deriving Repr, DecidableEq

def crlf : Bytes := [13, 10]

/-- What the `%s` of `sprintf` and `snprintf` writes; for a null pointer glibc writes
`(null)`. -/
def formatted : Option Bytes → Bytes
  | none => fieldName "(null)"
  | some s => cString s

/-- `sprintf(tspre, "%s\r\n", ext)`, or with a CRLF in front of all but the first. -/
def tspre (ii : Nat) (ext : Option Bytes) : Bytes :=
  (if ii = 0 then [] else crlf) ++ formatted ext ++ crlf

/-- `snprintf(tmp_buf->pos, 2048, "%s%s?%s", tspre, ts, argument)`. -/
def entryText (ii : Nat) (ext ts argument : Option Bytes) : Bytes :=
  tspre ii ext ++ formatted ts ++ 63 :: formatted argument

section Renderer

variable (lib : JsonLib)

/-- One iteration of the loop over `ts_list`. -/
def renderEntry (argument : Option Bytes) (ii : Nat) (item : Option lib.Object) : Buf :=
  let ext := lib.jsonObjectGetString (lib.jsonObjectObjectGetEx item "ext")
  let ts := lib.jsonObjectGetString (lib.jsonObjectObjectGetEx item "ts")
  ⟨entryText ii ext ts argument, false⟩

/-- The loop. -/
def renderEntries (argument : Option Bytes) : Nat → List (Option lib.Object) → List Buf
  | _, [] => []
  | ii, item :: items =>
      renderEntry lib argument ii item :: renderEntries argument (ii + 1) items

/-- `case 1`: the content as it is; it is logged before it is copied. -/
def renderPlayseek (info : Option lib.Object) : Except Fault (List Buf) :=
  let content := lib.jsonObjectObjectGetEx info "m3u8_content"
  match lib.jsonObjectGetString content with
  | none => .error .nullString
  | some s => .ok [⟨s.take (lib.jsonObjectGetStringLen content), true⟩]

def endList : Bytes := crlf ++ fieldName "#EXT-X-ENDLIST"

/-- `case 2`: the title, which is logged as well, the entries and the end tag. -/
def renderReview (info : Option lib.Object) : Except Fault (List Buf) :=
  let title := lib.jsonObjectObjectGetEx info "m3u8_title"
  let argument := lib.jsonObjectGetString (lib.jsonObjectObjectGetEx info "argus")
  let items := lib.jsonObjectArrayItems (lib.jsonObjectObjectGetEx info "ts_list")
  match lib.jsonObjectGetString title with
  | none => .error .nullString
  | some s => .ok (⟨s.take (lib.jsonObjectGetStringLen title), false⟩
      :: (renderEntries lib argument 0 items ++ [⟨endList, true⟩]))

/-- `resp_info` and its `play_mode`. -/
def respInfo (root : Option lib.Object) : Option lib.Object :=
  lib.jsonObjectObjectGetEx root "resp_info"

def playMode (root : Option lib.Object) : Int :=
  lib.jsonObjectGetInt (lib.jsonObjectObjectGetEx (respInfo lib root) "play_mode")

/-- The `switch` on the play mode. -/
def render (root : Option lib.Object) : Except Fault (List Buf) :=
  if playMode lib root = 1 then renderPlayseek lib (respInfo lib root)
  else if playMode lib root = 2 then renderReview lib (respInfo lib root)
  else .error .assertFailed

end Renderer

/-! ## §3. On the answers of m3u8-filter. -/

section Written

variable (lib : JsonLib)

/-- A field of an object is found under its name. -/
theorem JsonLib.get_field {fields : List (List UInt8 × Json)} (hd : (Json.obj fields).Distinct)
    (key : String) {j : Json} (h : fields.lookup (fieldName key) = some j) :
    lib.jsonObjectObjectGetEx (lib.object (.obj fields)) key = lib.object j := by
  rw [lib.get_obj fields hd, h]
  rfl

theorem JsonLib.string_jsonString (s : Option JString) :
    lib.jsonObjectGetString (lib.object (jsonString s)) = s.map utf8 := by
  cases s with
  | none => rw [jsonString, (lib.object_eq_none .null).mpr rfl, lib.string_null]; rfl
  | some s => exact lib.string_str _

/-- The info object and the play mode of a response. -/
theorem respInfo_written {r : CommonResp} {info : RespInfo} (h : r.respInfo = some info) :
    respInfo lib (lib.object r.toJson) = lib.object info.toJson := by
  refine lib.get_field r.distinct "resp_info" ?_
  obtain ⟨code, text, respInfo⟩ := r
  subst h
  rfl

theorem playMode_written {r : CommonResp} {info : RespInfo} (h : r.respInfo = some info) :
    playMode lib (lib.object r.toJson)
      = info.playMode.value := by
  have hsmall : ∀ mode : ServiceType, mode.value < 2 ^ 31 := by
    intro mode
    cases mode <;> decide
  unfold playMode
  rw [respInfo_written lib h]
  have hd := info.distinct
  have hfield : lib.jsonObjectObjectGetEx (lib.object info.toJson) "play_mode"
      = lib.object (.num info.playMode.value) := by
    cases info with
    | playseek seek => exact lib.get_field hd "play_mode" rfl
    | review review => exact lib.get_field hd "play_mode" rfl
  rw [hfield, lib.int_num _ (hsmall _)]

variable {lib} in
theorem playMode_seek {r : CommonResp} {seek : M3u8PlayseekInfo}
    (hinfo : r.respInfo = some (.playseek seek)) (hmode : seek.playMode = .seek) :
    playMode lib (lib.object r.toJson) = 1 := by
  rw [playMode_written lib hinfo, RespInfo.playMode, hmode]
  rfl

variable {lib} in
theorem playMode_review {r : CommonResp} {review : M3u8ReviewInfo}
    (hinfo : r.respInfo = some (.review review)) (hmode : review.playMode = .review) :
    playMode lib (lib.object r.toJson) = 2 := by
  rw [playMode_written lib hinfo, RespInfo.playMode, hmode]
  rfl

theorem get_content (seek : M3u8PlayseekInfo) :
    lib.jsonObjectObjectGetEx (lib.object (RespInfo.playseek seek).toJson) "m3u8_content"
      = lib.object (jsonString (seek.m3u8Content.map toText)) :=
  lib.get_field (RespInfo.playseek seek).distinct "m3u8_content" rfl

/-- The playseek branch on an answer of m3u8-filter. -/
theorem render_playseek {r : CommonResp} {seek : M3u8PlayseekInfo}
    (hinfo : r.respInfo = some (.playseek seek)) (hmode : seek.playMode = .seek) :
    render lib (lib.object r.toJson)
      = match seek.m3u8Content with
        | none => .error .nullString
        | some sb => .ok [⟨utf8 (toText sb), true⟩] := by
  unfold render renderPlayseek
  dsimp only
  rw [if_pos (playMode_seek hinfo hmode), respInfo_written lib hinfo, get_content,
    lib.string_jsonString]
  cases seek.m3u8Content with
  | none => rfl
  | some sb => simp [jsonString, lib.stringLen_str]

/-- The buffers of the entries of a review m3u8-filter has written. -/
def writtenEntries (argument : Option JString) : Nat → List TsInfo → List Buf
  | _, [] => []
  | ii, t :: list =>
      ⟨entryText ii (t.ext.map utf8) (some (utf8 t.ts)) (argument.map utf8), false⟩
        :: writtenEntries argument (ii + 1) list

theorem get_ext (t : TsInfo) :
    lib.jsonObjectGetString (lib.jsonObjectObjectGetEx (lib.object t.toJson) "ext")
      = t.ext.map utf8 := by
  rw [TsInfo.toJson, lib.get_field t.distinct "ext" rfl, lib.string_jsonString]

theorem get_ts (t : TsInfo) :
    lib.jsonObjectGetString (lib.jsonObjectObjectGetEx (lib.object t.toJson) "ts")
      = some (utf8 t.ts) := by
  rw [TsInfo.toJson, lib.get_field t.distinct "ts" rfl, lib.string_jsonString]
  rfl

/-- The loop over `ts_list` on a list m3u8-filter has written. -/
theorem renderEntries_written (argument : Option JString) :
    ∀ (list : List TsInfo) (ii : Nat),
      renderEntries lib (argument.map utf8) ii (list.map (fun t => lib.object t.toJson))
        = writtenEntries argument ii list := by
  intro list
  induction list with
  | nil => intro ii; rfl
  | cons t list ih =>
      intro ii
      rw [List.map_cons, renderEntries, ih, renderEntry, get_ext, get_ts]
      rfl

/-- The fields of a review, as the renderer finds them. -/
structure ReviewFields (review : M3u8ReviewInfo) (title : JString) (list : List TsInfo) :
    Prop where
  title : lib.jsonObjectObjectGetEx (lib.object (RespInfo.review review).toJson) "m3u8_title"
    = lib.object (.str (utf8 title))
  argus : lib.jsonObjectObjectGetEx (lib.object (RespInfo.review review).toJson) "argus"
    = lib.object (jsonString review.argus)
  tsList : lib.jsonObjectObjectGetEx (lib.object (RespInfo.review review).toJson) "ts_list"
    = lib.object (.arr (list.map TsInfo.toJson))

theorem reviewFields {review : M3u8ReviewInfo} {title : JString}
    (htitle : review.m3u8Title = some title) {list : List TsInfo}
    (hlist : review.tsList = some list) : ReviewFields lib review title list := by
  have hd := RespInfo.distinct (.review review)
  obtain ⟨mode, m3u8Title, argus, tsList⟩ := review
  subst htitle hlist
  exact ⟨lib.get_field hd "m3u8_title" rfl, lib.get_field hd "argus" rfl,
    lib.get_field hd "ts_list" rfl⟩

/-- The review branch. -/
theorem render_review {r : CommonResp} {review : M3u8ReviewInfo}
    (hinfo : r.respInfo = some (.review review)) (hmode : review.playMode = .review)
    {title : JString} (htitle : review.m3u8Title = some title) {list : List TsInfo}
    (hlist : review.tsList = some list) :
    render lib (lib.object r.toJson)
      = .ok (⟨utf8 title, false⟩ :: (writtenEntries review.argus 0 list ++ [⟨endList, true⟩])) := by
  have hfields := reviewFields lib htitle hlist
  unfold render renderReview
  rw [playMode_review hinfo hmode, respInfo_written lib hinfo, if_neg (by decide), if_pos rfl]
  dsimp only
  rw [hfields.title, hfields.argus, hfields.tsList, lib.string_str, lib.stringLen_str,
    lib.string_jsonString, lib.items_arr, List.map_map]
  dsimp only
  rw [List.take_length]
  exact congrArg (fun entries => Except.ok (_ :: (entries ++ _)))
    (renderEntries_written lib review.argus list 0)

/-- Nothing is found in a body that a NUL cuts off: its play mode is 0. -/
theorem render_cut {r : CommonResp} {p q : Bytes}
    (hpq : p ++ q = lib.writeValueAsString r.toJson) (hq : q ≠ []) (behind : Bytes) :
    render lib (lib.jsonTokenerParse (p ++ 0 :: behind)) = .error .assertFailed := by
  rw [lib.parse_cut r p q behind hpq hq]
  unfold render playMode respInfo
  rw [lib.get_null, lib.get_null, lib.int_null, if_neg (by decide), if_neg (by decide)]

end Written

/-- What the parsers make of
`/cctv.m3u8?playseek=000100&mtv_session=viewer&timestamp=1`. -/
def minuteParsers : Parsers where
  parameters := fun _ => .ok [("playseek".toList, ["000100".toList]),
    ("mtv_session".toList, ["viewer".toList]), ("timestamp".toList, ["1".toList])]
  uri := fun _ => some ⟨some "/cctv.m3u8".toList,
    some "playseek=000100&mtv_session=viewer&timestamp=1".toList⟩

/-- The request for the last minute of a playlist with one segment. -/
def minuteGet : HttpMessage :=
  ⟨.get, "/cctv.m3u8?playseek=000100&mtv_session=viewer&timestamp=1".toList⟩

/-- Its response. -/
def minuteResp : HttpResponse :=
  ⟨200, ⟨0, "OK".toList, some (.playseek ⟨.seek, some [.entry (liveSegment 1508153098)
    (some "playseek=000100&mtv_session=viewer&timestamp=1".toList)]⟩)⟩⟩

theorem minuteResp_mem : minuteResp ∈ written shippedConfig minuteParsers noFaults
    (machineOf (liveBody [1508153098])) minuteGet emptyStore := by
  decide +kernel

/-- The main request after `hlsm3u8_seek_subrequest_post_handler`: the status copied to
its `headers_out`, and the buffer `ctx->data` points to. -/
structure MainRequest where
  status : Nat
  data : UpstreamBuffer
  deriving Repr, DecidableEq

/-- `hlsm3u8_seek_subrequest_post_handler`; `ctx` is the one `ngx_http_hlsm3u8_handler`
has allocated.  The code the subrequest has ended with is not looked at. -/
def hlsm3u8SeekSubrequestPostHandler (sub : SubrequestEnd) : Int × MainRequest :=
  (ngxOk, ⟨sub.status, sub.buffer⟩)

/-- `ngx_http_finalize_request` for the subrequest: the main request when it is woken,
`none` when it is not. -/
def finalizeSubrequest (connectionError : Bool) (sub : SubrequestEnd) : Option MainRequest :=
  if sub.rc = ngxDone ∨ sub.rc = ngxDeclined then none
  else
    let (rc, main) := hlsm3u8SeekSubrequestPostHandler sub
    -- terminated
    if rc = ngxError ∨ rc = 408 ∨ rc = 499 ∨ connectionError then none
    -- a special response of its own
    else if 300 ≤ rc ∨ rc = 201 ∨ rc = 204 then none
    else some main

/-- What `ngx_http_output_filter` returns. -/
inductive FilterRc where
  | ok
  | error
  | again
  deriving Repr, DecidableEq

def FilterRc.value : FilterRc → Int
  | .ok => ngxOk
  | .error => ngxError
  | .again => ngxAgain

/-- What the output filters do with the main request. -/
structure Output where
  /-- What `ngx_http_send_header` returns. -/
  sendHeader : Int
  headerOnly : Bool
  /-- `r->headers_out.status` after it: 200, or what the header filters have made of it
  (304 or 412 for a conditional request). -/
  status : Nat
  outputFilter : FilterRc
  deriving Repr, DecidableEq

/-- `result == NGX_ERROR || result > NGX_OK || r->header_only`. -/
def Output.Stops (out : Output) : Prop :=
  out.sendHeader = ngxError ∨ 0 < out.sendHeader ∨ out.headerOnly = true

instance (out : Output) : Decidable out.Stops := inferInstanceAs (Decidable (_ ∨ _ ∨ _))

/-- How `hlsm3u8_pr_post_handler` leaves the main request. -/
inductive Outcome where
  /-- A buffer that was never allocated is read. -/
  | nullRead
  | fault (f : Fault)
  /-- `ngx_http_finalize_request(r, rc)`. -/
  | finalized (rc : Int)
  deriving Repr, DecidableEq

/-- `hlsm3u8_pr_post_handler`. -/
def hlsm3u8PrPostHandler (lib : JsonLib) (out : Output) (r : MainRequest) : Outcome :=
  match r.data.memory with
  -- the first line logs `ctx->data->pos` with `%s`, whatever the status is
  | none => .nullRead
  | some memory =>
      if r.status = 200 then
        match render lib (lib.jsonTokenerParse memory) with
        | .error f => .fault f
        | .ok _ =>
            if out.Stops then .finalized out.status else .finalized out.outputFilter.value
      else .finalized r.status

/-- The whole chain, for a client that is still connected. -/
def mainOutcome (lib : JsonLib) (out : Output) (sub : SubrequestEnd) : Option Outcome :=
  (finalizeSubrequest false sub).map (hlsm3u8PrPostHandler lib out)

/-- The main request is finalized with an error status, and no buffer that was never
allocated has been read on the way. -/
def ErrorReported (outcome : Option Outcome) : Prop :=
  ∃ rc, outcome = some (.finalized rc) ∧ 400 ≤ rc

/-- A subrequest that ends wakes the main request with its status, whatever its code. -/
theorem mainOutcome_eq (lib : JsonLib) (out : Output) {sub : SubrequestEnd}
    (hdone : sub.rc ≠ ngxDone) (hdeclined : sub.rc ≠ ngxDeclined) :
    mainOutcome lib out sub
      = some (hlsm3u8PrPostHandler lib out ⟨sub.status, sub.buffer⟩) := by
  have hends : ¬ (sub.rc = ngxDone ∨ sub.rc = ngxDeclined) := not_or.mpr ⟨hdone, hdeclined⟩
  unfold mainOutcome finalizeSubrequest
  rw [if_neg hends]
  rfl

/-- The answer was not fully received: there was no header, or the body of the response `r`
is cut off, with a NUL behind `last`. -/
inductive NotReceived (lib : JsonLib) : SubrequestEnd → Prop
  | noHeader (failure : HeaderFailure) (buffer : UpstreamBuffer) :
      NotReceived lib (headerFailed failure buffer)
  | cutBody (rc : Int) (status : Nat) (r : CommonResp) (received rest behind : Bytes)
      (body : received ++ rest = lib.writeValueAsString r.toJson) (cut : rest ≠ []) :
      NotReceived lib ⟨rc, status, .filled received (0 :: behind)⟩

/-- A 200 whose buffer is rendered, but whose header the filters answer with an error of
their own. -/
def HeaderRefused (lib : JsonLib) (out : Output) (sub : SubrequestEnd) : Prop :=
  sub.status = 200 ∧ out.Stops ∧ 400 ≤ out.status
    ∧ ∃ memory chain, sub.buffer.memory = some memory
      ∧ render lib (lib.jsonTokenerParse memory) = .ok chain

/-- Every way to an error response. -/
theorem errorReported_iff (lib : JsonLib) (out : Output) {sub : SubrequestEnd}
    (hdone : sub.rc ≠ ngxDone) (hdeclined : sub.rc ≠ ngxDeclined) :
    ErrorReported (mainOutcome lib out sub)
      ↔ (400 ≤ sub.status ∧ sub.buffer.memory ≠ none) ∨ HeaderRefused lib out sub := by
  rw [mainOutcome_eq lib out hdone hdeclined]
  unfold ErrorReported hlsm3u8PrPostHandler HeaderRefused
  cases sub.buffer.memory with
  | none => simp
  | some memory =>
      dsimp only
      by_cases h200 : sub.status = 200
      · -- a status of 200 ends in a fault, with the status the header filters leave, or with
        -- a code of the output filters, which is no status
        rw [if_pos h200, h200]
        have hcode : ∀ f : FilterRc, f.value < 400 := by
          intro f
          cases f <;> decide
        cases hrender : render lib (lib.jsonTokenerParse memory) with
        | error f => simp [hrender]
        | ok chain =>
            dsimp only
            split_ifs with hstops
            · simp [hstops, hrender]
            · have h := hcode out.outputFilter
              simp only [Option.some.injEq, Outcome.finalized.injEq, exists_eq_left', hstops,
                false_and, and_false, or_false]
              omega
      · rw [if_neg h200]
        simp only [Option.some.injEq, Outcome.finalized.injEq, exists_eq_left', ne_eq,
          reduceCtorEq, not_false_eq_true, and_true, h200, false_and, or_false]
        omega

/-- **Which failures reach the client**: for every code the subrequest ends with, every
status, every state of the buffer and everything the output filters do, the main request
gets an error status exactly when the status copied from the subrequest is one already and
the buffer is there, or the header of a playlist that could be rendered is refused.  When
the answer was not fully received, only the first of the two is left. -/
theorem failure_reaches_client_iff (lib : JsonLib) (out : Output) (sub : SubrequestEnd)
    (hdone : sub.rc ≠ ngxDone) (hdeclined : sub.rc ≠ ngxDeclined) :
    (ErrorReported (mainOutcome lib out sub)
        ↔ (400 ≤ sub.status ∧ sub.buffer.memory ≠ none) ∨ HeaderRefused lib out sub)
      ∧ (NotReceived lib sub →
          (ErrorReported (mainOutcome lib out sub)
            ↔ 400 ≤ sub.status ∧ sub.buffer.memory ≠ none)) := by
  have hiff := errorReported_iff lib out hdone hdeclined
  refine ⟨hiff, fun hcut => hiff.trans (or_iff_left ?_)⟩
  rintro ⟨h200, -, -, memory, chain, hmemory, hchain⟩
  cases hcut with
  | noHeader failure buffer => exact absurd h200 (by simp [headerFailed])
  | cutBody rc status r received rest behind body cut =>
      obtain rfl := Option.some.inj hmemory
      rw [render_cut lib body cut] at hchain
      exact absurd hchain (by simp)

/-- The body of a 404 of m3u8-filter. -/
def notFoundBody : Bytes :=
  printedJson.writeValueAsString (CommonResp.toJson ⟨2, "m3u8 not found".toList, none⟩)

/-- A 404 is passed on, also when its body is cut off after ten bytes. -/
theorem failure_reaches_client_not_found :
    ErrorReported (mainOutcome printedJson ⟨0, false, 200, .ok⟩
      ⟨ngxHttpGatewayTimeOut, 404, .filled (notFoundBody.take 10) [0]⟩) :=
  ((failure_reaches_client_iff printedJson ⟨0, false, 200, .ok⟩
    ⟨ngxHttpGatewayTimeOut, 404, .filled (notFoundBody.take 10) [0]⟩ (by decide) (by decide)).2
    (.cutBody _ _ ⟨2, "m3u8 not found".toList, none⟩ _ (notFoundBody.drop 10) []
      (List.take_append_drop 10 notFoundBody) (by decide +kernel))).mpr
    ⟨by decide, by simp [UpstreamBuffer.memory]⟩

/-- When m3u8-filter cannot be connected to, the main request reads a buffer that was
never allocated. -/
theorem failure_lost_connect :
    mainOutcome printedJson ⟨0, false, 200, .ok⟩ (headerFailed .error .unallocated)
        = some .nullRead
      ∧ ¬ ErrorReported (mainOutcome printedJson ⟨0, false, 200, .ok⟩
          (headerFailed .error .unallocated)) := by
  have h : mainOutcome printedJson ⟨0, false, 200, .ok⟩ (headerFailed .error .unallocated)
      = some .nullRead := rfl
  refine ⟨h, ?_⟩
  rw [h]
  rintro ⟨rc, hrc, _⟩
  exact absurd hrc (by simp)

end NginxNettyHls.Nginx
