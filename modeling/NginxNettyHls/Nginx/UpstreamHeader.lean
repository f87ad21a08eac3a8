/-
  NginxNettyHls.Nginx.UpstreamHeader
  ──────────────────────────────────
  **THE HEADER OF AN UPSTREAM ANSWER, HOWEVER IT IS CUT INTO PIECES.**

  `ngx_http_parse_status_line` and `ngx_http_parse_header_line` are byte machines that
  keep their state in the request and positions in the proxy buffer.  They are called
  again whenever more of the answer has been read into it, first the one and then, line
  by line, the other.

    • `header_any_cut` — for every sequence of bytes the verdict, the header and what is
      left of the answer do not depend on the cuts; only an answer without a status line
      loses the pieces that came before the verdict.
-/
import NginxNettyHls.Nginx.RangeParse
import NginxNettyHls.Text.Scanner

namespace NginxNettyHls.Nginx

open NginxNettyHls.M3u8Filter
open Text

/-! ## §1. The status line. -/

inductive StatusSw where
  | start
  | h
  | ht
  | htt
  | http
  | firstMajorDigit
  | majorDigit
  | firstMinorDigit
  | minorDigit
  | status
  | spaceAfterStatus
  | statusText
  | almostDone
  deriving Repr, DecidableEq

/-- `r->state`, the version in `r`, and `ngx_http_status_t`.  Positions are counted from the
start of the buffer. -/
structure StatusLine where
  state : StatusSw
  httpMajor : Nat
  httpMinor : Nat
  code : Nat
  count : Nat
  start : Nat
  /-- `status->end` -/
  stop : Option Nat
  deriving Repr, DecidableEq

inductive StatusVerdict where
  | ok (status : StatusLine)
  | error
  deriving Repr, DecidableEq

namespace StatusLine

def init : StatusLine := ⟨.start, 0, 0, 0, 0, 0, none⟩

/-- A state in which one byte is allowed. -/
def expect (s : StatusLine) (byte : UInt8) (next : StatusSw) (ch : UInt8) :
    Move StatusLine StatusVerdict :=
  if ch = byte then .go { s with state := next } else .stop .error

/-- `done` at the position `p`. -/
def done (s : StatusLine) (p : Nat) : Move StatusLine StatusVerdict :=
  .stop (.ok { s with state := .start, stop := some (s.stop.getD p) })

/-- `status->http_version` -/
def httpVersion (s : StatusLine) : Nat := s.httpMajor * 1000 + s.httpMinor

end StatusLine

/-- The loop of `ngx_http_parse_status_line` on the byte behind `seen`. -/
def statusLineStep (seen : Bytes) (s : StatusLine) (ch : UInt8) :
    Move StatusLine StatusVerdict :=
  let p := seen.length
  match s.state with
  -- "HTTP/"
  | .start => s.expect 72 .h ch
  | .h => s.expect 84 .ht ch
  | .ht => s.expect 84 .htt ch
  | .htt => s.expect 80 .http ch
  | .http => s.expect 47 .firstMajorDigit ch
  | .firstMajorDigit =>
      if ch < 49 ∨ 57 < ch then .stop .error
      else .go { s with state := .majorDigit, httpMajor := ch.toNat - 48 }
  | .majorDigit =>
      if ch = 46 then .go { s with state := .firstMinorDigit }
      else if isDigitByte ch = false ∨ 99 < s.httpMajor then .stop .error
      else .go { s with httpMajor := s.httpMajor * 10 + (ch.toNat - 48) }
  | .firstMinorDigit =>
      if isDigitByte ch = false then .stop .error
      else .go { s with state := .minorDigit, httpMinor := ch.toNat - 48 }
  | .minorDigit =>
      if ch = 32 then .go { s with state := .status }
      else if isDigitByte ch = false ∨ 99 < s.httpMinor then .stop .error
      else .go { s with httpMinor := s.httpMinor * 10 + (ch.toNat - 48) }
  | .status =>
      if ch = 32 then .go s
      else if isDigitByte ch = false then .stop .error
      else
        let s := { s with code := s.code * 10 + (ch.toNat - 48), count := s.count + 1 }
        if s.count = 3 then .go { s with state := .spaceAfterStatus, start := p - 2 } else .go s
  | .spaceAfterStatus =>
      -- a dot: IIS may send 403.1, 403.2, etc
      if ch = 32 ∨ ch = 46 then .go { s with state := .statusText }
      else if ch = 13 then .go { s with state := .almostDone }
      else if ch = 10 then s.done p
      else .stop .error
  | .statusText =>
      if ch = 13 then .go { s with state := .almostDone }
      else if ch = 10 then s.done p
      else .go s
  | .almostDone =>
      let s := { s with stop := some (p - 1) }
      if ch = 10 then s.done p else .stop .error

/-- `ngx_http_parse_status_line` on the bytes between `pos` and `last`, behind `seen`. -/
def ngxHttpParseStatusLine (seen : Bytes) (s : StatusLine) (unread : Bytes) :
    Scanned UInt8 StatusLine StatusVerdict :=
  scanWith statusLineStep seen s unread

/-! ## §2. A header line. -/

inductive HeaderSw where
  | start
  | name
  | spaceBeforeValue
  | value
  | spaceAfterValue
  | ignoreLine
  | almostDone
  | headerAlmostDone
  deriving Repr, DecidableEq

/-- What the machine keeps in `r`. -/
structure HeaderLine where
  state : HeaderSw
  hash : UInt64
  lowcaseIndex : Nat
  lowcaseHeader : Bytes
  invalidHeader : Bool
  nameStart : Nat
  nameEnd : Nat
  start : Nat
  /-- `r->header_end` -/
  stop : Nat
  deriving Repr, DecidableEq

inductive HeaderVerdict where
  /-- `NGX_OK` -/
  | ok (line : HeaderLine)
  /-- `NGX_HTTP_PARSE_HEADER_DONE` -/
  | headerDone
  /-- `NGX_HTTP_PARSE_INVALID_HEADER` -/
  | invalid
  deriving Repr, DecidableEq

/-- The table `lowcase`. -/
def lowcase (ch : UInt8) : UInt8 :=
  if 65 ≤ ch ∧ ch ≤ 90 then ch + 32
  else if ch = 45 ∨ (48 ≤ ch ∧ ch ≤ 57) ∨ (97 ≤ ch ∧ ch ≤ 122) then ch
  else 0

/-- `ngx_hash`. -/
def ngxHash (key : UInt64) (c : UInt8) : UInt64 := key * 31 + c.toUInt64

/-- `NGX_HTTP_LC_HEADER_LEN` -/
def ngxHttpLcHeaderLen : Nat := 32

/-- The bytes of the buffer from `start` up to `stop`. -/
def between (start stop : Nat) (buffer : Bytes) : Bytes := (buffer.take stop).drop start

namespace HeaderLine

def init : HeaderLine := ⟨.start, 0, 0, List.replicate ngxHttpLcHeaderLen 0, false, 0, 0, 0, 0⟩

/-- The first byte of a name, in lower case. -/
def first (line : HeaderLine) (c : UInt8) : HeaderLine :=
  { line with hash := ngxHash 0 c, lowcaseHeader := line.lowcaseHeader.set 0 c, lowcaseIndex := 1 }

/-- A further one. -/
def push (line : HeaderLine) (c : UInt8) : HeaderLine :=
  { line with
    hash := ngxHash line.hash c
    lowcaseHeader := line.lowcaseHeader.set line.lowcaseIndex c
    lowcaseIndex := (line.lowcaseIndex + 1) % ngxHttpLcHeaderLen }

/-- `done`. -/
def done (line : HeaderLine) : Move HeaderLine HeaderVerdict :=
  .stop (.ok { line with state := .start })

end HeaderLine

/-- The state `sw_start`. -/
def nameStartStep (line : HeaderLine) (p : Nat) (ch : UInt8) : Move HeaderLine HeaderVerdict :=
  let line := { line with nameStart := p, invalidHeader := false }
  if ch = 13 then .go { line with state := .headerAlmostDone, stop := p }
  else if ch = 10 then .stop .headerDone
  else
    let line := { line with state := .name }
    if lowcase ch ≠ 0 then .go (line.first (lowcase ch))
    else if ch = 95 then .go (line.first ch)
    else if ch = 0 then .stop .invalid
    -- the hash and the name in lower case are those of the line before
    else .go { line with invalidHeader := true }

/-- The state `sw_name`. -/
def nameStep (seen : Bytes) (line : HeaderLine) (ch : UInt8) : Move HeaderLine HeaderVerdict :=
  let p := seen.length
  if lowcase ch ≠ 0 then .go (line.push (lowcase ch))
  else if ch = 95 then .go (line.push ch)
  else if ch = 58 then .go { line with state := .spaceBeforeValue, nameEnd := p }
  else if ch = 13 then .go { line with state := .almostDone, nameEnd := p, start := p, stop := p }
  else if ch = 10 then { line with nameEnd := p, start := p, stop := p : HeaderLine }.done
  -- IIS may send the duplicate "HTTP/1.1 ..." lines
  else if ch = 47 ∧ p - line.nameStart = 4 ∧ between line.nameStart p seen = fieldName "HTTP" then
    .go { line with state := .ignoreLine }
  else if ch = 0 then .stop .invalid
  else .go { line with invalidHeader := true }

/-- The loop of `ngx_http_parse_header_line`, with underscores allowed and for a request with an
upstream, on the byte behind `seen`. -/
def headerLineStep (seen : Bytes) (line : HeaderLine) (ch : UInt8) :
    Move HeaderLine HeaderVerdict :=
  let p := seen.length
  match line.state with
  | .start => nameStartStep line p ch
  | .name => nameStep seen line ch
  | .spaceBeforeValue =>
      if ch = 32 then .go line
      else if ch = 13 then .go { line with state := .almostDone, start := p, stop := p }
      else if ch = 10 then { line with start := p, stop := p : HeaderLine }.done
      else if ch = 0 then .stop .invalid
      else .go { line with state := .value, start := p }
  | .value =>
      if ch = 32 then .go { line with state := .spaceAfterValue, stop := p }
      else if ch = 13 then .go { line with state := .almostDone, stop := p }
      else if ch = 10 then { line with stop := p : HeaderLine }.done
      else if ch = 0 then .stop .invalid
      else .go line
  | .spaceAfterValue =>
      if ch = 32 then .go line
      else if ch = 13 then .go { line with state := .almostDone }
      else if ch = 10 then line.done
      else if ch = 0 then .stop .invalid
      else .go { line with state := .value }
  | .ignoreLine => if ch = 10 then .go { line with state := .start } else .go line
  | .almostDone =>
      if ch = 10 then line.done else if ch = 13 then .go line else .stop .invalid
  | .headerAlmostDone => if ch = 10 then .stop .headerDone else .stop .invalid

/-! ## §3. The header. -/

/-- `ngx_table_elt_t`. -/
structure TableElt where
  hash : UInt64
  key : Bytes
  value : Bytes
  lowcaseKey : Bytes
  deriving Repr, DecidableEq

/-- `u->headers_in`, as far as it decides over the answer; of `server` and `date` only whether
they are set. -/
structure HeadersIn where
  statusN : Nat
  statusLine : Bytes
  contentLengthN : Int
  connectionClose : Bool
  chunked : Bool
  server : Bool
  date : Bool
  headers : List TableElt
  deriving Repr, DecidableEq

/-- The names with a handler that does more than keep the line or nothing at all. -/
inductive UpstreamHeader where
  | contentLength
  | connection
  | transferEncoding
  | server
  | date
  deriving Repr, DecidableEq

/-- `ngx_http_upstream_headers_in`, by the names in lower case. -/
def ngxHttpUpstreamHeadersIn (lowcaseKey : Bytes) : Option UpstreamHeader :=
  if lowcaseKey = fieldName "content-length" then some .contentLength
  else if lowcaseKey = fieldName "connection" then some .connection
  else if lowcaseKey = fieldName "transfer-encoding" then some .transferEncoding
  else if lowcaseKey = fieldName "server" then some .server
  else if lowcaseKey = fieldName "date" then some .date
  else none

/-- `ngx_hash_key`. -/
def ngxHashKey (data : Bytes) : UInt64 := data.foldl ngxHash 0

/-- `ngx_hash_find` in a table of `size` buckets: a name is found in its own bucket only. -/
def ngxHashFind (size : Nat) (hash : UInt64) (lowcaseKey : Bytes) : Option UpstreamHeader :=
  if hash.toNat % size = (ngxHashKey lowcaseKey).toNat % size then
    ngxHttpUpstreamHeadersIn lowcaseKey
  else none

/-- `ngx_atoof`: the same loop over digits as in the range parser, but nothing may follow. -/
def ngxAtoof (line : Bytes) : Int :=
  if line = [] then ngxError
  else
    match readOff 0 line with
    | some (value, []) => value
    | _ => ngxError

namespace HeadersIn

/-- Before there is a header. -/
def init : HeadersIn := ⟨0, [], -1, false, false, false, false, []⟩

/-- The handlers of `ngx_http_upstream_headers_in`. -/
def handle (h : HeadersIn) (elt : TableElt) : UpstreamHeader → HeadersIn
  | .contentLength => { h with contentLengthN := ngxAtoof elt.value }
  | .connection =>
      if (ngxStrlcasestrn elt.value 0 elt.value.length (fieldName "close") 4).isSome then
        { h with connectionClose := true }
      else h
  | .transferEncoding =>
      if (ngxStrlcasestrn elt.value 0 elt.value.length (fieldName "chunked") 6).isSome then
        { h with chunked := true }
      else h
  | .server => { h with server := true }
  | .date => { h with date := true }

/-- A header line that has been parsed. -/
def push (size : Nat) (h : HeadersIn) (elt : TableElt) : HeadersIn :=
  let h := { h with headers := h.headers ++ [elt] }
  match ngxHashFind size elt.hash elt.lowcaseKey with
  | none => h
  | some hh => h.handle elt hh

/-- The special empty header `name`, if there is none. -/
def special (name : String) (h : HeadersIn) (isThere : Bool) : HeadersIn :=
  if isThere then h
  else
    { h with
      headers := h.headers ++ [⟨ngxHashKey ((fieldName name).map ngxTolower), fieldName name, [],
        (fieldName name).map ngxTolower⟩] }

/-- A whole header has been parsed. -/
def finish (h : HeadersIn) : HeadersIn :=
  let h := h.special "Server" h.server
  let h := h.special "Date" h.date
  if h.chunked then { h with contentLengthN := -1 } else h

/-- `NGX_HTTP_VERSION_9`: an answer without a status line. -/
def noHeader : HeadersIn := { init with connectionClose := true }

/-- The status line has been parsed. -/
def ofStatus (status : StatusLine) (buffer : Bytes) : HeadersIn :=
  { init with
    statusN := status.code
    statusLine := between status.start (status.stop.getD 0) buffer
    connectionClose := decide (status.httpVersion < 1001) }

end HeadersIn

/-- The entry for a line. -/
def HeaderLine.elt (line : HeaderLine) (buffer : Bytes) : TableElt :=
  let key := between line.nameStart line.nameEnd buffer
  { hash := line.hash
    key := key
    value := between line.start line.stop buffer
    lowcaseKey :=
      if key.length = line.lowcaseIndex then line.lowcaseHeader.take key.length
      else key.map ngxTolower }

/-- The loop of `ngx_http_proxy_process_header` on the verdict over a line; `none` is
`NGX_HTTP_UPSTREAM_INVALID_HEADER`. -/
def nextLine (size : Nat) (buffer : Bytes) (h : HeadersIn) :
    HeaderVerdict → Move (HeaderLine × HeadersIn) (Option HeadersIn)
  | .ok line => .go (line, h.push size (line.elt buffer))
  | .headerDone => .stop (some h.finish)
  | .invalid => .stop none

/-- `u->process_header` and what it keeps. -/
inductive HeaderPhase where
  | statusLine (status : StatusLine)
  | headers (line : HeaderLine) (headersIn : HeadersIn)
  deriving Repr, DecidableEq

/-- What a call of `u->process_header` returns. -/
inductive HeaderRead where
  /-- `NGX_AGAIN` -/
  | again (phase : HeaderPhase)
  /-- `NGX_OK`, with the buffer cut at `pos`. -/
  | ok (headersIn : HeadersIn) (seen unread : Bytes)
  | invalidHeader
  deriving Repr, DecidableEq

/-- `ngx_http_proxy_process_header`. -/
def ngxHttpProxyProcessHeader (size : Nat) (seen : Bytes) (line : HeaderLine) (h : HeadersIn)
    (unread : Bytes) : HeaderRead :=
  match scanLoop headerLineStep (nextLine size) (unread.length + 1) seen line h unread with
  | .again (line, h) => .again (.headers line h)
  | .stop (some h) seen rest => .ok h seen rest
  | .stop none _ _ => .invalidHeader

/-- `ngx_http_proxy_process_status_line`. -/
def ngxHttpProxyProcessStatusLine (size : Nat) (seen : Bytes) (status : StatusLine)
    (unread : Bytes) : HeaderRead :=
  match ngxHttpParseStatusLine seen status unread with
  | .again status => .again (.statusLine status)
  -- "upstream sent no valid HTTP/1.0 header", and `pos` is where it was
  | .stop .error _ _ => .ok .noHeader seen unread
  | .stop (.ok status) seen rest =>
      ngxHttpProxyProcessHeader size seen .init (.ofStatus status seen) rest

/-- `u->process_header(r)`. -/
def processHeader (size : Nat) (seen : Bytes) (phase : HeaderPhase) (unread : Bytes) : HeaderRead :=
  match phase with
  | .statusLine status => ngxHttpProxyProcessStatusLine size seen status unread
  | .headers line h => ngxHttpProxyProcessHeader size seen line h unread

/-! ## §4. Cuts do not matter. -/

/-- The verdict over an answer: no status line, or what the header lines end with. -/
inductive AnswerVerdict where
  | noHeader
  | lines (r : Option HeadersIn)
  deriving Repr, DecidableEq

/-- Behind the status line. -/
def afterStatus (buffer : Bytes) : StatusVerdict → Move HeaderPhase AnswerVerdict
  | .error => .stop .noHeader
  | .ok status => .go (.headers .init (.ofStatus status buffer))

/-- Status line and header lines as one machine. -/
def answerStep (size : Nat) (seen : Bytes) (phase : HeaderPhase) (ch : UInt8) :
    Move HeaderPhase AnswerVerdict :=
  match phase with
  | .statusLine status =>
      (statusLineStep seen status ch).andThen .statusLine (afterStatus (seen ++ [ch]))
  | .headers line h =>
      (loopStep headerLineStep (nextLine size) seen (line, h) ch).andThen
        (fun s => .headers s.1 s.2) (fun r => .stop (.lines r))

/-- Its verdict as a call of `u->process_header` gives it; without a status line `pos` is where
it was before the call. -/
def readOf (seen unread : Bytes) : Scanned UInt8 HeaderPhase AnswerVerdict → HeaderRead
  | .again phase => .again phase
  | .stop .noHeader _ _ => .ok .noHeader seen unread
  | .stop (.lines (some h)) seen rest => .ok h seen rest
  | .stop (.lines none) _ _ => .invalidHeader

theorem scan_headers (size : Nat) (seen : Bytes) (line : HeaderLine) (h : HeadersIn)
    (unread : Bytes) :
    scanWith (answerStep size) seen (.headers line h) unread
      = (scanWith (loopStep headerLineStep (nextLine size)) seen (line, h) unread).andThen
        (fun s => .headers s.1 s.2) (fun _ r => .stop (.lines r)) (scanWith (answerStep size)) :=
  scanWith_andThen (f := fun s : HeaderLine × HeadersIn => HeaderPhase.headers s.1 s.2)
    (fun _ _ _ => rfl) unread seen (line, h)

theorem scan_statusLine (size : Nat) (seen : Bytes) (status : StatusLine) (unread : Bytes) :
    scanWith (answerStep size) seen (.statusLine status) unread
      = (scanWith statusLineStep seen status unread).andThen .statusLine afterStatus
        (scanWith (answerStep size)) :=
  scanWith_andThen (f := HeaderPhase.statusLine) (fun _ _ _ => rfl) unread seen status

theorem processLines_eq (size : Nat) (seen unread before piece : Bytes) (line : HeaderLine)
    (h : HeadersIn) :
    ngxHttpProxyProcessHeader size seen line h unread
      = readOf before piece (scanWith (answerStep size) seen (.headers line h) unread) := by
  unfold ngxHttpProxyProcessHeader
  rw [scanLoop_eq _ _ _ _ _ _ _ (Nat.lt_succ_self _), scan_headers]
  cases scanWith (loopStep headerLineStep (nextLine size)) seen (line, h) unread with
  | again s => rfl
  | stop r seen' rest =>
      cases r with
      | none => rfl
      | some h' => rfl

/-- **A call is a scan** with the one machine. -/
theorem processHeader_eq (size : Nat) (seen : Bytes) (phase : HeaderPhase) (unread : Bytes) :
    processHeader size seen phase unread
      = readOf seen unread (scanWith (answerStep size) seen phase unread) := by
  cases phase with
  | headers line h => exact processLines_eq size seen unread seen unread line h
  | statusLine status =>
      unfold processHeader ngxHttpProxyProcessStatusLine ngxHttpParseStatusLine
      dsimp only
      rw [scan_statusLine]
      cases scanWith statusLineStep seen status unread with
      | again status' => rfl
      | stop r seen' rest =>
          cases r with
          | error => rfl
          | ok status' => exact processLines_eq size seen' rest seen unread .init _

/-- The pieces of an answer, as they are read; what is behind the header is left to the body. -/
def receivePieces (size : Nat) : Bytes → HeaderPhase → List Bytes → HeaderRead
  | _, phase, [] => .again phase
  | seen, phase, piece :: pieces =>
      match processHeader size seen phase piece with
      | .again phase' => receivePieces size (seen ++ piece) phase' pieces
      | .ok h seen' rest => .ok h seen' (rest ++ pieces.flatten)
      | .invalidHeader => .invalidHeader

/-- An answer with a status line: the pieces are one text. -/
theorem receivePieces_eq (size : Nat) :
    ∀ (pieces : List Bytes) (seen : Bytes) (phase : HeaderPhase),
      (∀ seen' rest,
        scanWith (answerStep size) seen phase pieces.flatten ≠ .stop .noHeader seen' rest) →
      receivePieces size seen phase pieces
        = readOf seen pieces.flatten (scanWith (answerStep size) seen phase pieces.flatten) := by
  intro pieces
  induction pieces with
  | nil => intro seen phase _; rfl
  | cons piece pieces ih =>
      intro seen phase hheader
      rw [List.flatten_cons, scanWith_append] at hheader ⊢
      unfold receivePieces
      rw [processHeader_eq]
      cases hscan : scanWith (answerStep size) seen phase piece with
      | again phase' =>
          rw [hscan] at hheader
          have hrest := ih (seen ++ piece) phase' hheader
          show receivePieces size (seen ++ piece) phase' pieces = _
          rw [hrest]
          show readOf _ _ (scanWith (answerStep size) (seen ++ piece) phase' pieces.flatten) = _
          cases hlast : scanWith (answerStep size) (seen ++ piece) phase' pieces.flatten with
          | again phase'' => simp only [Scanned.resume, hlast, readOf]
          | stop r seen' rest =>
              cases r with
              | noHeader => exact absurd hlast (hheader seen' rest)
              | lines r =>
                  cases r with
                  | none => simp only [Scanned.resume, hlast, readOf]
                  | some h => simp only [Scanned.resume, hlast, readOf]
      | stop r seen' rest =>
          rw [hscan] at hheader
          cases r with
          | noHeader => exact absurd rfl (hheader seen' (rest ++ pieces.flatten))
          | lines r =>
              cases r with
              | none => rfl
              | some h => rfl

/-- An answer without one: the pieces before the verdict are lost. -/
theorem receivePieces_noHeader (size : Nat) :
    ∀ (pieces : List Bytes) (seen : Bytes) (phase : HeaderPhase) (seen' rest : Bytes),
      scanWith (answerStep size) seen phase pieces.flatten = .stop .noHeader seen' rest →
      ∃ k, receivePieces size seen phase pieces
        = .ok .noHeader (seen ++ (pieces.take k).flatten) (pieces.drop k).flatten := by
  intro pieces
  induction pieces with
  | nil => intro seen phase seen' rest h; exact absurd h (by simp [scanWith])
  | cons piece pieces ih =>
      intro seen phase seen' rest h
      rw [List.flatten_cons, scanWith_append] at h
      unfold receivePieces
      rw [processHeader_eq]
      cases hscan : scanWith (answerStep size) seen phase piece with
      | again phase' =>
          rw [hscan] at h
          obtain ⟨k, hk⟩ := ih (seen ++ piece) phase' seen' rest h
          refine ⟨k + 1, ?_⟩
          show receivePieces size (seen ++ piece) phase' pieces = _
          rw [hk, List.take_succ_cons, List.drop_succ_cons, List.flatten_cons, List.append_assoc]
      | stop r seen'' rest' =>
          rw [hscan] at h
          obtain ⟨rfl, _, _⟩ := Scanned.stop.inj h
          refine ⟨0, ?_⟩
          show HeaderRead.ok .noHeader seen (piece ++ pieces.flatten) = _
          rw [List.take_zero, List.drop_zero, List.flatten_nil, List.append_nil,
            List.flatten_cons]

/-- **Cuts do not matter**: however an answer comes in pieces, the proxy reads what it would
have read of it at once, and leaves the same rest to the body.  An answer without a status line
is taken for a body as well in both cases, but of this one the pieces that came before the
verdict are missing. -/
theorem header_any_cut (size : Nat) (pieces : List Bytes) :
    receivePieces size [] (.statusLine .init) pieces
        = processHeader size [] (.statusLine .init) pieces.flatten
      ∨ (processHeader size [] (.statusLine .init) pieces.flatten
          = .ok .noHeader [] pieces.flatten
        ∧ ∃ k, receivePieces size [] (.statusLine .init) pieces
          = .ok .noHeader (pieces.take k).flatten (pieces.drop k).flatten) := by
  rw [processHeader_eq]
  by_cases hheader : ∃ seen' rest,
      scanWith (answerStep size) [] (.statusLine .init) pieces.flatten = .stop .noHeader seen' rest
  · obtain ⟨seen', rest, hscan⟩ := hheader
    obtain ⟨k, hk⟩ := receivePieces_noHeader size pieces [] _ seen' rest hscan
    refine Or.inr ⟨?_, k, ?_⟩
    · rw [hscan]; rfl
    · rw [hk, List.nil_append]
  · refine Or.inl (receivePieces_eq size pieces [] _ ?_)
    intro seen' rest hscan
    exact hheader ⟨seen', rest, hscan⟩

end NginxNettyHls.Nginx
