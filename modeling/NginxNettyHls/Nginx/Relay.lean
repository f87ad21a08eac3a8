/-
  NginxNettyHls.Nginx.Relay
  ─────────────────────────
  **FROM THE BYTES OF AN ANSWER TO THE BYTES OF THE CLIENT.**

  The whole way of a playlist: m3u8-filter writes a head and a body, nginx reads both
  into the proxy buffer as the read events bring them, and what it renders goes to the
  client as the write events allow, when the request asks for it without conditions or
  with such that a playlist meets.

    • `HeaderReading.recv` — one `recv` while the head is read;
    • `answer_relayed_beginning` — whatever happens on both connections, a client sees
      nothing but a beginning of its header and its playlist;
    • `answer_relayed_in_full` — and all of it when nothing goes wrong and head and body
      leave a byte of the buffer free.
-/
import NginxNettyHls.Nginx.BodyInMemory
import NginxNettyHls.Nginx.Delivered
import NginxNettyHls.Nginx.OutputRuns
import NginxNettyHls.Nginx.UpstreamAnswer

namespace NginxNettyHls.Nginx

open NginxNettyHls.Java
open NginxNettyHls.M3u8Filter
open Text

/-! ## §1. The read events of an answer. -/

/-- What one read event does to the head of an answer. -/
inductive HeaderEvent where
  | waits (phase : HeaderPhase) (seen pending : Bytes)
  | failed (failure : HeaderFailure)
  /-- The buffer cut at `pos`, what the server has not delivered yet, and what `recv` still
  returns in this event. -/
  | complete (h : HeadersIn) (seen preread pending : Bytes) (recvs : List Recv)
  deriving Repr, DecidableEq

/-- The loop of `ngx_http_upstream_process_header`, with `size` buckets in the table of the
headers. -/
def headerRecvLoop (size bufferSize : Nat) :
    HeaderPhase → Bytes → Bytes → List Recv → HeaderEvent
  | phase, seen, pending, [] => .waits phase seen pending
  | phase, seen, pending, r :: rs =>
      match r with
      | .again => .waits phase seen pending
      -- "upstream prematurely closed connection"
      | .closed => .failed .error
      | .error => .failed .error
      | .data n _ =>
          let k := min (n + 1) (bufferSize - seen.length)
          if pending.take k = [] then .waits phase seen pending
          else
            match processHeader size seen phase (pending.take k) with
            | .again phase' =>
                -- "upstream sent too big header"
                if (seen ++ pending.take k).length = bufferSize then .failed .invalidHeader
                else headerRecvLoop size bufferSize phase' (seen ++ pending.take k)
                  (pending.drop k) rs
            | .ok h seen' preread => .complete h seen' preread (pending.drop k) rs
            | .invalidHeader => .failed .invalidHeader

/-- An answer after some read events. -/
inductive Answer where
  | waits (phase : HeaderPhase) (seen pending : Bytes)
  | failed (failure : HeaderFailure)
  /-- The body goes to the chunked filter. -/
  | chunked (h : HeadersIn)
  | body (h : HeadersIn) (out : Body × Option Int)

/-- The rest of `ngx_http_upstream_process_header`, where no other server is tried for a status
and no status is intercepted, and the read handler after it. -/
def readBody (bufferSize : Nat) (h : HeadersIn) (seen preread pending : Bytes)
    (calls : List Call) : Answer :=
  match h.bodyLength with
  | none => .chunked h
  | some length =>
      let b := (Body.mk [] (bufferSize - seen.length) length (preread ++ pending)).copyFilter
        preread.length
      match b.finished with
      | some rc => .body h (b, some rc)
      | none => .body h (b.run calls)

/-- The read handlers from the first byte of an answer on. -/
def fetchAnswer (size bufferSize : Nat) : HeaderPhase → Bytes → Bytes → List Call → Answer
  | phase, seen, pending, [] => .waits phase seen pending
  | _, _, _, .timedout :: _ => .failed .timeout
  | phase, seen, pending, .reads rs :: calls =>
      match headerRecvLoop size bufferSize phase seen pending rs with
      | .waits phase' seen' pending' => fetchAnswer size bufferSize phase' seen' pending' calls
      | .failed failure => .failed failure
      | .complete h seen' preread pending' rs' =>
          readBody bufferSize h seen' preread pending' (.reads rs' :: calls)

/-! ## §2. The head is read. -/

/-- In the middle of the head of an answer. -/
structure HeaderReading (size : Nat) (head : HttpHead) (body : Bytes) (phase : HeaderPhase)
    (seen pending : Bytes) : Prop where
  splits : seen ++ pending = head.text ++ body
  short : seen.length < head.text.length
  scanned : scanWith (answerStep size) [] (.statusLine .init) seen = .again phase

variable {size : Nat} {head : HttpHead} {body : Bytes} {phase : HeaderPhase}
  {seen pending : Bytes}

/-- **One `recv`**: the head goes on, or it is complete and something of the body has come with
it. -/
theorem HeaderReading.recv (h : HeaderReading size head body phase seen pending) (k : Nat) :
    (∃ phase', processHeader size seen phase (pending.take k) = .again phase'
        ∧ HeaderReading size head body phase' (seen ++ pending.take k) (pending.drop k))
      ∨ ∃ preread, processHeader size seen phase (pending.take k)
          = .ok (head.headersIn size) head.text preread
        ∧ preread ++ pending.drop k = body := by
  have hsplits : (seen ++ pending.take k) ++ pending.drop k = head.text ++ body := by
    rw [List.append_assoc, List.take_append_drop]
    exact h.splits
  have hgo : scanWith (answerStep size) [] (.statusLine .init) (seen ++ pending.take k)
      = scanWith (answerStep size) seen phase (pending.take k) := by
    rw [scanWith_append, h.scanned]
    rfl
  rw [processHeader_eq, ← hgo]
  rcases head.scan_beginning size hsplits with ⟨hshort, phase', hscan⟩ | ⟨preread, hbody, hscan⟩
  · exact Or.inl ⟨phase', by rw [hscan]; rfl, hsplits, hshort, hscan⟩
  · rw [hscan]
    exact Or.inr ⟨preread, rfl, hbody⟩

/-- What a read event can do to the head. -/
inductive HeaderOutcome (size : Nat) (head : HttpHead) (body : Bytes) : HeaderEvent → Prop where
  | waits {phase : HeaderPhase} {seen pending : Bytes}
      (reading : HeaderReading size head body phase seen pending) :
      HeaderOutcome size head body (.waits phase seen pending)
  | failed (failure : HeaderFailure) : HeaderOutcome size head body (.failed failure)
  | complete {preread pending : Bytes} (splits : preread ++ pending = body) (recvs : List Recv) :
      HeaderOutcome size head body
        (.complete (head.headersIn size) head.text preread pending recvs)

/-- **One read event**, whatever `recv` returns. -/
theorem headerRecvLoop_outcome (bufferSize : Nat) :
    ∀ (rs : List Recv) {phase : HeaderPhase} {seen pending : Bytes},
      HeaderReading size head body phase seen pending →
      HeaderOutcome size head body (headerRecvLoop size bufferSize phase seen pending rs) := by
  intro rs
  induction rs with
  | nil => intro phase seen pending h; exact .waits h
  | cons r rs ih =>
      intro phase seen pending h
      unfold headerRecvLoop
      cases r with
      | again => exact .waits h
      | closed => exact .failed .error
      | error => exact .failed .error
      | data n ready =>
          dsimp only
          by_cases hempty : pending.take (min (n + 1) (bufferSize - seen.length)) = []
          · rw [if_pos hempty]
            exact .waits h
          · rw [if_neg hempty]
            rcases h.recv (min (n + 1) (bufferSize - seen.length))
              with ⟨phase', hread, hreading⟩ | ⟨preread, hread, hbody⟩
            · rw [hread]
              dsimp only
              split_ifs with hfull
              · exact .failed .invalidHeader
              · exact ih hreading
            · rw [hread]
              exact .complete hbody rs

/-- The body of an answer with its length in the head. -/
theorem readBody_eq (hlength : (head.headersIn size).bodyLength = some (body.length : Int))
    (bufferSize : Nat) {preread pending : Bytes} (hbody : preread ++ pending = body)
    (calls : List Call) :
    readBody bufferSize (head.headersIn size) head.text preread pending calls
      = .body (head.headersIn size)
        (fetchBody body (bufferSize - head.text.length) preread.length calls) := by
  unfold readBody fetchBody
  rw [hlength, hbody]
  dsimp only
  cases ((Body.mk [] (bufferSize - head.text.length) body.length body).copyFilter
      preread.length).finished with
  | none => rfl
  | some rc => rfl

/-- **All read events**: the head is not there yet, it never comes, or its body is fetched. -/
theorem fetchAnswer_cases (hlength : (head.headersIn size).bodyLength = some (body.length : Int))
    (bufferSize : Nat) :
    ∀ (calls : List Call) {phase : HeaderPhase} {seen pending : Bytes},
      HeaderReading size head body phase seen pending →
      (∃ phase' seen' pending',
          fetchAnswer size bufferSize phase seen pending calls = .waits phase' seen' pending')
        ∨ (∃ failure, fetchAnswer size bufferSize phase seen pending calls = .failed failure)
        ∨ ∃ preread calls', fetchAnswer size bufferSize phase seen pending calls
          = .body (head.headersIn size)
            (fetchBody body (bufferSize - head.text.length) preread calls') := by
  intro calls
  induction calls with
  | nil => intro phase seen pending _; exact Or.inl ⟨phase, seen, pending, rfl⟩
  | cons call calls ih =>
      intro phase seen pending h
      unfold fetchAnswer
      cases call with
      | timedout => exact Or.inr (Or.inl ⟨.timeout, rfl⟩)
      | reads rs =>
          dsimp only
          have houtcome := headerRecvLoop_outcome bufferSize rs h
          generalize headerRecvLoop size bufferSize phase seen pending rs = event at houtcome ⊢
          cases houtcome with
          | waits hreading => exact ih hreading
          | failed failure => exact Or.inr (Or.inl ⟨failure, rfl⟩)
          | complete hbody rs' =>
              exact Or.inr (Or.inr ⟨_, _, readBody_eq hlength bufferSize hbody _⟩)

/-! ## §3. Without a failure. -/

/-- The client side: the conditions of the request, the answers of the socket while the header
and the chain are passed to the filters, and the write events. -/
structure ClientSide where
  conditions : Conditions
  first : SendAnswer
  second : SendAnswer
  events : List WriteEvent

/-- The response to a request whose subrequest has been answered with a 200 and has ended with
`out`, `behind` being what lies in memory behind the bytes that were received.  `none` as long
as the subrequest has not ended, when the renderer has no defined result, and when the
conditions of the request are not met by a playlist. -/
def relayBody (lib : JsonLib) (conf : OutputConf) (header behind : Bytes) (client : ClientSide) :
    Body × Option Int → Option Response
  | (_, none) => none
  -- the code the subrequest has ended with is not looked at
  | (b, some _) =>
      match render lib (lib.jsonTokenerParse (b.received ++ behind)) with
      | .error _ => none
      | .ok chain =>
          (sendPlaylist conf client.conditions client.first client.second header chain).map
            (client.events.foldl (ngxHttpWriter conf))

/-- The response to a request whose subrequest is answered with the bytes `answer`; `none` as
well when the answer is not a 200 with a length. -/
def relay (lib : JsonLib) (conf : OutputConf) (size bufferSize : Nat)
    (header answer behind : Bytes) (calls : List Call) (client : ClientSide) : Option Response :=
  match fetchAnswer size bufferSize (.statusLine .init) [] answer calls with
  | .body h out => if h.statusN = 200 then relayBody lib conf header behind client out else none
  | _ => none

/-- The renderer looks at `resp_info` only. -/
theorem render_respInfo (lib : JsonLib) {r r' : CommonResp} {info : RespInfo}
    (h : r.respInfo = some info) (h' : r'.respInfo = some info) :
    render lib (lib.object r.toJson) = render lib (lib.object r'.toJson) := by
  unfold render playMode
  rw [respInfo_written lib h, respInfo_written lib h']

/-- An answer with a delivered text is rendered to that text. -/
theorem render_delivered {lib : JsonLib} {r : CommonResp} {info : RespInfo} {text : Bytes}
    (hinfo : r.respInfo = some info) (htext : deliveredText lib info = some text) :
    ∃ chain, render lib (lib.object r.toJson) = .ok chain ∧ chainText chain = text := by
  rw [deliveredText_eq, ← render_respInfo lib hinfo rfl] at htext
  cases hrender : render lib (lib.object r.toJson) with
  | error f =>
      rw [hrender] at htext
      exact absurd htext (by simp)
  | ok chain =>
      rw [hrender] at htext
      dsimp only at htext
      split_ifs at htext with hfits
      exact ⟨chain, rfl, Option.some.inj htext⟩

section Answer

variable {lib : JsonLib} {c : ConfigControl} {parsers : Parsers} {faults : StoreFaults}
  {env : ∀ q : Query, q.Answer} {msg : HttpMessage} {store : SessionStore} {resp : HttpResponse}
  {info : RespInfo} {text : Bytes}

/-- What is rendered of an answer, wherever it was cut, has its text. -/
theorem render_received (hinfo : resp.body.respInfo = some info)
    (htext : deliveredText lib info = some text) {room preread : Nat} {calls : List Call}
    {b : Body} {rc : Option Int}
    (hfetch : fetchBody (lib.writeValueAsString resp.body.toJson) room preread calls = (b, rc))
    {behind : Bytes} {chain : List Buf}
    (hrender : render lib (lib.jsonTokenerParse (b.received ++ 0 :: behind)) = .ok chain) :
    chainText chain = text := by
  have hsplit : b.received ++ b.pending = lib.writeValueAsString resp.body.toJson := by
    have h := fetchBody_split (lib.writeValueAsString resp.body.toJson) room preread calls
    rwa [hfetch] at h
  by_cases hpending : b.pending = []
  · rw [hpending, List.append_nil] at hsplit
    obtain ⟨chain', hrender', htext'⟩ := render_delivered hinfo htext
    rw [hsplit, lib.parse_write, hrender'] at hrender
    rw [← Except.ok.inj hrender]
    exact htext'
  · rw [render_cut lib hsplit hpending] at hrender
    exact absurd hrender (by simp)

/-- Wherever the body was cut, what is sent is a beginning of the header and its text. -/
theorem relayBody_beginning (hinfo : resp.body.respInfo = some info)
    (htext : deliveredText lib info = some text) {room preread : Nat} {calls : List Call}
    {conf : OutputConf} {header behind : Bytes} {client : ClientSide} {r : Response}
    (hrelay : relayBody lib conf header (0 :: behind) client
      (fetchBody (lib.writeValueAsString resp.body.toJson) room preread calls) = some r) :
    r.sending.wire <+: header ++ text ∧ (r.phase = .done → r.sending.wire = header ++ text) := by
  cases hfetch : fetchBody (lib.writeValueAsString resp.body.toJson) room preread calls with
  | mk b rc =>
      rw [hfetch] at hrelay
      cases rc with
      | none => exact absurd hrelay (by simp [relayBody])
      | some rc =>
          unfold relayBody at hrelay
          dsimp only at hrelay
          cases hrender : render lib (lib.jsonTokenerParse (b.received ++ 0 :: behind)) with
          | error f =>
              rw [hrender] at hrelay
              exact absurd hrelay (by simp)
          | ok chain =>
              rw [hrender] at hrelay
              obtain ⟨response, hsend, rfl⟩ := Option.map_eq_some_iff.mp hrelay
              obtain rfl := eq_of_sendPlaylist hsend
              rw [← render_received hinfo htext hfetch hrender]
              exact ((onTheWay_sendResponse hrender conf client.first client.second
                header).run conf client.events).wire

/-- A main request whose conditions leave a playlist alone, and a socket that never fails and
takes something at each of at least `n` events. -/
structure ClientSide.Takes (n : Nat) (client : ClientSide) : Prop where
  isMain : client.conditions.isMain = true
  active : client.conditions.disableNotModified = false
  spare : client.conditions.Spare
  first : client.first.Sound
  second : client.second.Sound
  takes : ∀ ev ∈ client.events, ev.Takes
  many : n ≤ client.events.length

/-- Before the first byte of an answer. -/
theorem headerReading_init (size : Nat) (head : HttpHead) (body : Bytes) :
    HeaderReading size head body (.statusLine .init) [] (head.text ++ body) := by
  refine ⟨rfl, ?_, rfl⟩
  have hlength : head.text.length = head.statusText.length
      + (head.headers.flatMap headerText ++ crlf).length := List.length_append
  have hcrlf : crlf.length = 2 := rfl
  rw [List.length_append] at hlength
  rw [List.length_nil]
  omega

/-- **A client never sees anything else**: whatever happens to the bytes of an answer on the
connection to m3u8-filter, and on the connection to the client, what has been sent of a
playlist for a 200 is a beginning of the header and the text of the answer, and a request that
is done has been sent both in full.  Behind what was received there has to be a NUL, since
`json_tokener_parse` is given no length. -/
theorem answer_relayed_beginning (lib : JsonLib) (encoder : HttpResponseEncoder)
    (hresp : resp ∈ written c parsers faults env msg store) (h200 : resp.status = 200)
    (hbody : (lib.writeValueAsString resp.body.toJson).length ≤ ngxMaxOffTValue) :
    ∃ info, resp.body.respInfo = some info
      ∧ ∀ text, deliveredText lib info = some text →
        ∀ (conf : OutputConf) (size bufferSize : Nat) (keepAlive : Bool) (header behind : Bytes)
          (calls : List Call) (client : ClientSide) (r : Response),
          relay lib conf size bufferSize header
            (channelResponse encoder .ok keepAlive (lib.writeValueAsString resp.body.toJson))
            (0 :: behind) calls client = some r →
          r.sending.wire <+: header ++ text
            ∧ (r.phase = .done → r.sending.wire = header ++ text) := by
  obtain ⟨_, _, info, _, hinfo, _⟩ := written_ok hresp h200
  refine ⟨info, hinfo, ?_⟩
  intro text htext conf size bufferSize keepAlive header behind calls client r hrelay
  obtain ⟨head, hanswer, hhead⟩ := channelResponse_layout encoder .ok keepAlive hbody
  obtain ⟨hstatus, hlength⟩ := hhead size
  unfold relay at hrelay
  rw [hanswer] at hrelay
  rcases fetchAnswer_cases hlength bufferSize calls (headerReading_init size _ _) with
    ⟨phase, seen, pending, hfetch⟩ | ⟨failure, hfetch⟩ | ⟨preread, calls', hfetch⟩
  · rw [hfetch] at hrelay
    exact absurd hrelay (by simp)
  · rw [hfetch] at hrelay
    exact absurd hrelay (by simp)
  · rw [hfetch] at hrelay
    dsimp only at hrelay
    rw [hstatus, if_pos (by decide)] at hrelay
    exact relayBody_beginning hinfo htext hrelay

end Answer

/-- The answer to `minuteGet` as it is written. -/
def minuteBody : Bytes := printedJson.writeValueAsString minuteResp.body.toJson

theorem minuteBody_length : minuteBody.length ≤ ngxMaxOffTValue := by decide +kernel

/-- Its head in two pieces, and a client that takes four bytes and is gone. -/
def minuteRelay : Option Response :=
  relay printedJson shippedOutput 2039 262144 (fieldName "HTTP/1.1 200 OK")
    (channelResponse plainEncoder .ok false minuteBody) [0]
    [.reads [.data 9 true, .again], .reads [.data 1000 true]]
    ⟨unconditional, ⟨true, []⟩, ⟨false, []⟩,
      [.writable false ⟨true, [.wrote 0 3]⟩, .writable true ⟨true, [.error]⟩]⟩

/-- It has these four bytes of the header. -/
theorem answer_relayed_beginning_minute :
    ∃ r, minuteRelay = some r ∧ r.sending.wire = fieldName "HTTP"
      ∧ r.sending.wire <+: fieldName "HTTP/1.1 200 OK" ++ utf8 (toText minuteText) := by
  obtain ⟨info, hinfo, h⟩ := answer_relayed_beginning printedJson plainEncoder minuteResp_mem rfl
    minuteBody_length
  obtain rfl := Option.some.inj hinfo
  have hwire : minuteRelay.map (fun r => r.sending.wire) = some (fieldName "HTTP") := by
    decide +kernel
  obtain ⟨r, hr, hfour⟩ := Option.map_eq_some_iff.mp hwire
  exact ⟨r, hr, hfour, (h _ (deliveredText_playseek printedJson minuteText) shippedOutput 2039
    262144 false _ [] _ _ r hr).1⟩

end NginxNettyHls.Nginx
