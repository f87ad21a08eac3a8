/-
  NginxNettyHls.Nginx.HeaderFilter
  ────────────────────────────────
  **THE HEADER OF A RESPONSE TO A CLIENT.**

  `ngx_http_header_filter` goes over the fields of a response twice: first it adds up
  how many bytes the header can have, then it writes them into a buffer of that size.
  The buffer is never checked again.

    • `header_fits` — no header is longer than what has been added up;
    • `header_filter_read_back` — a proxy reads back the status and every header line
      that were written;
    • `playlist_read_by_client` — wherever a playlist response breaks off, a client that
      reads like a proxy knows how long the playlist is, and never takes a part of it
      for the whole.
-/
import NginxNettyHls.Nginx.ReadBack
import NginxNettyHls.Nginx.Relay

namespace NginxNettyHls.Nginx

open NginxNettyHls.M3u8Filter
open Text

/-! ## §1. The fields of a response. -/

/-- `server_tokens` -/
inductive ServerTokens where
  | on
  | build
  | off
  deriving Repr, DecidableEq

/-- What the filter reads of the configuration. -/
structure HeaderConf where
  serverTokens : ServerTokens
  /-- `NGX_BUILD`, in brackets -/
  build : Bytes
  absoluteRedirect : Bool
  serverNameInRedirect : Bool
  serverName : Bytes
  portInRedirect : Bool
  keepaliveHeader : Nat
  keepaliveHeader_lt : keepaliveHeader < 2 ^ 63
  gzipVary : Bool
  deriving Repr, DecidableEq

/-- An entry of `r->headers_out.headers`. -/
structure OutEntry where
  /-- `hash` is not zero. -/
  hash : Bool
  key : Bytes
  value : Bytes
  /-- It is `r->headers_out.location`. -/
  isLocation : Bool
  deriving Repr, DecidableEq

/-- The fields of a main request of HTTP/1.0 or later whose header has not been sent yet; of an
entry that is kept by itself, whether there is one. -/
structure HeaderFields where
  status : Nat
  statusLine : Bytes
  server : Bool
  date : Bool
  contentType : Bytes
  contentTypeLen : Nat
  charset : Bytes
  contentLength : Bool
  contentLengthN : Int
  lastModified : Bool
  lastModifiedTime : Int
  location : Option Bytes
  chunked : Bool
  keepalive : Bool
  gzipVary : Bool
  headers : List OutEntry
  deriving Repr, DecidableEq

/-- The connection, the host that was asked for, and the clock. -/
structure HeaderEnv where
  ssl : Bool
  port : Nat
  port_lt : port < 65536
  headersInServer : Bytes
  /-- `ngx_connection_local_sockaddr` -/
  localSockaddr : Option Bytes
  cachedHttpTime : Bytes
  clock : cachedHttpTime.length = 29
  ngxHttpTime : Int → Bytes

/-- `ngx_http_status_lines`, with an empty text for a null string. -/
def ngxHttpStatusLines : List String :=
  ["200 OK", "201 Created", "202 Accepted", "", "204 No Content", "", "206 Partial Content",
    "301 Moved Permanently", "302 Moved Temporarily", "303 See Other", "304 Not Modified", "", "",
    "307 Temporary Redirect", "308 Permanent Redirect",
    "400 Bad Request", "401 Unauthorized", "402 Payment Required", "403 Forbidden",
    "404 Not Found", "405 Not Allowed", "406 Not Acceptable", "", "408 Request Time-out",
    "409 Conflict", "410 Gone", "411 Length Required", "412 Precondition Failed",
    "413 Request Entity Too Large", "414 Request-URI Too Large", "415 Unsupported Media Type",
    "416 Requested Range Not Satisfiable", "", "", "", "", "421 Misdirected Request", "", "", "",
    "", "", "", "", "429 Too Many Requests",
    "500 Internal Server Error", "501 Not Implemented", "502 Bad Gateway",
    "503 Service Temporarily Unavailable", "504 Gateway Time-out",
    "505 HTTP Version Not Supported", "", "507 Insufficient Storage"]

def ngxHttpOff3xx : Nat := 207 - 200
def ngxHttpOff4xx : Nat := 309 - 301 + ngxHttpOff3xx
def ngxHttpOff5xx : Nat := 430 - 400 + ngxHttpOff4xx

/-- The line of the table for a status, if it has one that is not empty. -/
def tableLine (status : Nat) : Option Bytes :=
  let index :=
    if 200 ≤ status ∧ status < 207 then some (status - 200)
    else if 301 ≤ status ∧ status < 309 then some (status - 301 + ngxHttpOff3xx)
    else if 400 ≤ status ∧ status < 430 then some (status - 400 + ngxHttpOff4xx)
    else if 500 ≤ status ∧ status < 508 then some (status - 500 + ngxHttpOff5xx)
    else none
  match index with
  | none => none
  | some i =>
      let line := fieldName (ngxHttpStatusLines.getD i "")
      if line = [] then none else some line

namespace HeaderFields

/-- The fields the first pass changes: a date of change is for a 200, 206 or 304 only, a 204 has
no content, and `Vary` has to be configured. -/
def settle (conf : HeaderConf) (r : HeaderFields) : HeaderFields :=
  let r :=
    if r.lastModifiedTime ≠ -1 ∧ r.status ≠ 200 ∧ r.status ≠ 206 ∧ r.status ≠ 304 then
      { r with lastModifiedTime := -1, lastModified := false }
    else r
  let r :=
    if r.statusLine = [] ∧ r.status = 204 then
      { r with
        contentType := []
        lastModifiedTime := -1
        lastModified := false
        contentLength := false
        contentLengthN := -1 }
    else r
  { r with gzipVary := r.gzipVary && conf.gzipVary }

end HeaderFields

/-- `NGX_INT_T_LEN`, `NGX_OFF_T_LEN` and `NGX_TIME_T_LEN`. -/
def ngxIntLen : Nat := 20

/-- The number of bytes of a text of the source. -/
def textSize (text : String) : Nat := (fieldName text).length

/-- The values of `ngx_http_server_full_string`, `ngx_http_server_build_string` and
`ngx_http_server_string`. -/
def serverValue (conf : HeaderConf) : Bytes :=
  match conf.serverTokens with
  | .on => fieldName "nginx/1.13.3"
  | .build => fieldName "nginx/1.13.3" ++ conf.build
  | .off => fieldName "nginx"

/-- The charset is added to a type that has no parameters. -/
def HeaderFields.withCharset (r : HeaderFields) : Bool :=
  decide (r.contentTypeLen = r.contentType.length) && decide (r.charset ≠ [])

def HeaderFields.contentTypeValue (r : HeaderFields) : Bytes :=
  if r.withCharset then r.contentType ++ (fieldName "; charset=" ++ r.charset) else r.contentType

/-- The host of an absolute redirect, with an inner `none` where the location stays as it is;
`none` is `NGX_ERROR`. -/
def redirectHost (conf : HeaderConf) (env : HeaderEnv) (r : HeaderFields) :
    Option (Option Bytes) :=
  match r.location with
  | none => some none
  | some value =>
      if value.head? = some 47 ∧ conf.absoluteRedirect then
        if conf.serverNameInRedirect then some (some conf.serverName)
        else if env.headersInServer ≠ [] then some (some env.headersInServer)
        else env.localSockaddr.map some
      else some none

/-- The port in an absolute redirect, zero for none. -/
def redirectPort (conf : HeaderConf) (env : HeaderEnv) : Nat :=
  if conf.portInRedirect then
    if env.ssl then (if env.port = 443 then 0 else env.port)
    else (if env.port = 80 then 0 else env.port)
  else 0

/-- A number as `%O`, `%ui` and `%T` print it. -/
def numberText (n : Nat) : Bytes := digitsText (decimals n)

/-- `%03ui ` -/
def statusNumber (status : Nat) : Bytes :=
  List.replicate (3 - (numberText status).length) 48 ++ (numberText status ++ [32])

/-- The status line behind `HTTP/1.1 `. -/
def HeaderFields.statusText (r : HeaderFields) : Bytes :=
  if r.statusLine ≠ [] then r.statusLine
  else (tableLine r.status).getD (statusNumber r.status)

/-- A header line, if it is written. -/
def lineIf (isWritten : Bool) (key : String) (value : Bytes) : List (Bytes × Bytes) :=
  if isWritten then [(fieldName key, value)] else []

/-- The value of an absolute `Location`. -/
def locationValue (conf : HeaderConf) (env : HeaderEnv) (host value : Bytes) : Bytes :=
  fieldName "http" ++ ((if env.ssl then [115] else []) ++ (fieldName "://" ++ (host
    ++ ((if redirectPort conf env ≠ 0 then 58 :: numberText (redirectPort conf env) else [])
      ++ value))))

/-- The header lines about the connection. -/
def connectionLines (conf : HeaderConf) (r : HeaderFields) : List (Bytes × Bytes) :=
  if r.status = 101 then [(fieldName "Connection", fieldName "upgrade")]
  else if r.keepalive then
    (fieldName "Connection", fieldName "keep-alive")
      :: lineIf (decide (conf.keepaliveHeader ≠ 0)) "Keep-Alive"
        (fieldName "timeout=" ++ numberText conf.keepaliveHeader)
  else [(fieldName "Connection", fieldName "close")]

/-- The entries that are not skipped; the location is when it has been made absolute. -/
def elementLines (isRedirected : Bool) (r : HeaderFields) : List (Bytes × Bytes) :=
  (r.headers.filter (fun e => e.hash && !(isRedirected && e.isLocation))).map
    (fun e => (e.key, e.value))

/-- The header lines of settled fields, with `host` for an absolute redirect. -/
def headerLines (conf : HeaderConf) (env : HeaderEnv) (r : HeaderFields) (host : Option Bytes) :
    List (Bytes × Bytes) :=
  lineIf (!r.server) "Server" (serverValue conf)
    ++ (lineIf (!r.date) "Date" env.cachedHttpTime
    ++ (lineIf (decide (r.contentType ≠ [])) "Content-Type" r.contentTypeValue
    ++ (lineIf (!r.contentLength && decide (0 ≤ r.contentLengthN)) "Content-Length"
        (numberText r.contentLengthN.toNat)
    ++ (lineIf (!r.lastModified && decide (r.lastModifiedTime ≠ -1)) "Last-Modified"
        (env.ngxHttpTime r.lastModifiedTime)
    ++ (lineIf host.isSome "Location"
        (locationValue conf env (host.getD []) (r.location.getD []))
    ++ (lineIf r.chunked "Transfer-Encoding" (fieldName "chunked")
    ++ (connectionLines conf r
    ++ (lineIf r.gzipVary "Vary" (fieldName "Accept-Encoding")
    ++ elementLines host.isSome r))))))))

/-- The second pass. -/
def headerBytes (conf : HeaderConf) (env : HeaderEnv) (r : HeaderFields) (host : Option Bytes) :
    Bytes :=
  fieldName "HTTP/1.1 " ++ (r.statusText ++ (crlf
    ++ ((headerLines conf env r host).flatMap headerText ++ crlf)))

/-- What the first pass adds for a field. -/
def lenIf (isWritten : Bool) (len : Nat) : Nat := if isWritten then len else 0

/-- What it adds for the status line. -/
def statusLen (r : HeaderFields) : Nat :=
  if r.statusLine ≠ [] then r.statusLine.length
  else ((tableLine r.status).map List.length).getD (ngxIntLen + 1)

/-- What it adds for the content type. -/
def contentTypeLen (r : HeaderFields) : Nat :=
  lenIf (decide (r.contentType ≠ []))
    (textSize "Content-Type: " + r.contentType.length + 2
      + lenIf r.withCharset (textSize "; charset=" + r.charset.length))

/-- What it adds for an absolute redirect. -/
def locationLen (conf : HeaderConf) (env : HeaderEnv) (r : HeaderFields) : Option Bytes → Nat
  | none => 0
  | some host =>
      textSize "Location: https://" + host.length + (r.location.getD []).length + 2
        + (if redirectPort conf env ≠ 0 then textSize ":65535" else 0)

/-- What it adds for the connection. -/
def connectionLen (conf : HeaderConf) (r : HeaderFields) : Nat :=
  if r.status = 101 then textSize "Connection: upgrade\r\n"
  else if r.keepalive then
    textSize "Connection: keep-alive\r\n"
      + lenIf (decide (conf.keepaliveHeader ≠ 0)) (textSize "Keep-Alive: timeout=" + ngxIntLen + 2)
  else textSize "Connection: close\r\n"

/-- What it adds for the entries. -/
def entriesLen (lines : List (Bytes × Bytes)) : Nat :=
  lines.foldl (fun len e => len + (e.1.length + 2 + e.2.length + 2)) 0

/-- The first pass. -/
def headerLen (conf : HeaderConf) (env : HeaderEnv) (r : HeaderFields) (host : Option Bytes) :
    Nat :=
  textSize "HTTP/1.x " + 2 + 2 + statusLen r
    + lenIf (!r.server) (textSize "Server: " + (serverValue conf).length + 2)
    + lenIf (!r.date) (textSize "Date: Mon, 28 Sep 1970 06:00:00 GMT\r\n")
    + contentTypeLen r
    + lenIf (!r.contentLength && decide (0 ≤ r.contentLengthN))
      (textSize "Content-Length: " + ngxIntLen + 2)
    + lenIf (!r.lastModified && decide (r.lastModifiedTime ≠ -1))
      (textSize "Last-Modified: Mon, 28 Sep 1970 06:00:00 GMT\r\n")
    + locationLen conf env r host
    + lenIf r.chunked (textSize "Transfer-Encoding: chunked\r\n")
    + connectionLen conf r
    + lenIf r.gzipVary (textSize "Vary: Accept-Encoding\r\n")
    + entriesLen (elementLines host.isSome r)

/-- `ngx_http_header_filter`: the size of the buffer, and what is written into it. -/
def ngxHttpHeaderFilter (conf : HeaderConf) (env : HeaderEnv) (r : HeaderFields) :
    Option (Nat × Bytes) :=
  (redirectHost conf env (r.settle conf)).map (fun host =>
    (headerLen conf env (r.settle conf) host, headerBytes conf env (r.settle conf) host))

/-! ## §2. The buffer is large enough. -/

/-- The fields are machine words, and the date of change has a year of four digits. -/
structure HeaderFields.Fits (env : HeaderEnv) (r : HeaderFields) : Prop where
  status : r.status < 2 ^ 64
  contentLengthN : r.contentLengthN < 2 ^ 63
  lastModifiedTime : r.lastModifiedTime ≠ -1 → (env.ngxHttpTime r.lastModifiedTime).length = 29

/-- A number below `10 ^ k` has at most `k` digits. -/
theorem length_numberText_le {n k : Nat} (hk : 0 < k) (h : n < 10 ^ k) :
    (numberText n).length ≤ k := by
  unfold numberText digitsText decimals
  rw [List.length_map]
  split_ifs with hzero
  · exact hk
  · rw [List.length_reverse]
    exact (Nat.digits_length_le_iff (by decide) n).mpr h

theorem length_headerText (x : Bytes × Bytes) :
    (headerText x).length = x.1.length + 2 + x.2.length + 2 := by
  unfold headerText
  simp only [List.length_append, List.length_cons]
  have hcrlf : crlf.length = 2 := rfl
  omega

/-- A line that is written if it is added up. -/
theorem length_lineIf_le {isWritten : Bool} {key : String} {value : Bytes} {len : Nat}
    (h : isWritten = true → (fieldName key).length + 2 + value.length + 2 ≤ len) :
    ((lineIf isWritten key value).flatMap headerText).length ≤ lenIf isWritten len := by
  unfold lineIf lenIf
  cases isWritten with
  | false => exact Nat.le_refl 0
  | true =>
      rw [if_pos rfl, if_pos rfl, List.flatMap_cons, List.flatMap_nil, List.append_nil,
        length_headerText]
      exact h rfl

/-- The sum over the entries is taken from the left. -/
theorem foldl_entries (lines : List (Bytes × Bytes)) :
    ∀ len : Nat, lines.foldl (fun len e => len + (e.1.length + 2 + e.2.length + 2)) len
      = len + (lines.flatMap headerText).length := by
  induction lines with
  | nil => intro len; rfl
  | cons x lines ih =>
      intro len
      rw [List.foldl_cons, ih, List.flatMap_cons, List.length_append, length_headerText]
      omega

theorem length_statusText_le {r : HeaderFields} (h : r.status < 2 ^ 64) :
    r.statusText.length ≤ statusLen r := by
  unfold HeaderFields.statusText statusLen
  split_ifs with hline
  · exact Nat.le_refl _
  · cases tableLine r.status with
    | some line => exact Nat.le_refl _
    | none =>
        have hdigits : (numberText r.status).length ≤ 20 :=
          length_numberText_le (by decide) (lt_trans h (by decide))
        -- at least three digits and a space
        show (statusNumber r.status).length ≤ ngxIntLen + 1
        unfold statusNumber ngxIntLen
        simp only [List.length_append, List.length_replicate, List.length_singleton]
        omega

theorem length_contentType_le (r : HeaderFields) :
    ((lineIf (decide (r.contentType ≠ [])) "Content-Type" r.contentTypeValue).flatMap
      headerText).length ≤ contentTypeLen r := by
  have hkey : (fieldName "Content-Type").length + 2 = textSize "Content-Type: " := by
    decide +kernel
  have hcharset : (fieldName "; charset=").length = textSize "; charset=" := rfl
  unfold contentTypeLen
  apply length_lineIf_le
  intro _
  unfold HeaderFields.contentTypeValue lenIf
  split_ifs with hwith
  · rw [List.length_append, List.length_append]
    omega
  · omega

theorem length_location_le (conf : HeaderConf) (env : HeaderEnv) (r : HeaderFields)
    (host : Option Bytes) :
    ((lineIf host.isSome "Location"
      (locationValue conf env (host.getD []) (r.location.getD []))).flatMap headerText).length
        ≤ locationLen conf env r host := by
  cases host with
  | none => exact Nat.le_refl 0
  | some host =>
      have hport : (numberText (redirectPort conf env)).length ≤ 5 := by
        apply length_numberText_le (by decide)
        have hlt := env.port_lt
        unfold redirectPort
        split_ifs <;> omega
      have hkey : (fieldName "Location").length + 2 + (fieldName "http").length + 1
          + (fieldName "://").length = textSize "Location: https://" := by decide +kernel
      have hcolon : textSize ":65535" = 6 := by decide +kernel
      have hssl : (if env.ssl then [(115 : UInt8)] else []).length ≤ 1 := by
        split_ifs <;> simp
      have hsuffix : (if redirectPort conf env ≠ 0
            then (58 : UInt8) :: numberText (redirectPort conf env) else []).length
          ≤ (if redirectPort conf env ≠ 0 then textSize ":65535" else 0) := by
        split_ifs
        · rw [List.length_cons]
          omega
        · exact Nat.le_refl 0
      -- the first pass counts `https` always, and five digits for any port
      show ([(fieldName "Location", locationValue conf env host (r.location.getD []))].flatMap
        headerText).length ≤ _
      rw [List.flatMap_cons, List.flatMap_nil, List.append_nil, length_headerText]
      unfold locationValue locationLen
      simp only [List.length_append]
      omega

theorem length_connection_le (conf : HeaderConf) (r : HeaderFields) :
    ((connectionLines conf r).flatMap headerText).length ≤ connectionLen conf r := by
  have hupgrade : (headerText (fieldName "Connection", fieldName "upgrade")).length
      = textSize "Connection: upgrade\r\n" := by decide +kernel
  have hkeep : (headerText (fieldName "Connection", fieldName "keep-alive")).length
      = textSize "Connection: keep-alive\r\n" := by decide +kernel
  have hclose : (headerText (fieldName "Connection", fieldName "close")).length
      = textSize "Connection: close\r\n" := by decide +kernel
  have hkey : (fieldName "Keep-Alive").length + 2 + (fieldName "timeout=").length
      = textSize "Keep-Alive: timeout=" := by decide +kernel
  unfold connectionLines connectionLen
  split_ifs with hstatus hkeepalive
  · rw [List.flatMap_cons, List.flatMap_nil, List.append_nil, hupgrade]
  · have hnumber : (numberText conf.keepaliveHeader).length ≤ ngxIntLen :=
      length_numberText_le (by decide) (lt_trans conf.keepaliveHeader_lt (by decide))
    rw [List.flatMap_cons, List.length_append, hkeep]
    apply Nat.add_le_add_left
    apply length_lineIf_le
    intro _
    rw [List.length_append]
    omega
  · rw [List.flatMap_cons, List.flatMap_nil, List.append_nil, hclose]

/-- The two passes over settled fields agree. -/
theorem length_headerBytes_le (conf : HeaderConf) {env : HeaderEnv} {r : HeaderFields}
    (h : r.Fits env) (host : Option Bytes) :
    (headerBytes conf env r host).length ≤ headerLen conf env r host := by
  have hstatus := length_statusText_le h.status
  have hserver : ((lineIf (!r.server) "Server" (serverValue conf)).flatMap headerText).length
      ≤ lenIf (!r.server) (textSize "Server: " + (serverValue conf).length + 2) := by
    have hkey : (fieldName "Server").length + 2 = textSize "Server: " := by decide +kernel
    apply length_lineIf_le
    intro _
    omega
  have hdate : ((lineIf (!r.date) "Date" env.cachedHttpTime).flatMap headerText).length
      ≤ lenIf (!r.date) (textSize "Date: Mon, 28 Sep 1970 06:00:00 GMT\r\n") := by
    have hkey : (fieldName "Date").length + 2 + 29 + 2
        = textSize "Date: Mon, 28 Sep 1970 06:00:00 GMT\r\n" := by decide +kernel
    apply length_lineIf_le
    intro _
    rw [env.clock]
    omega
  have hlength : ((lineIf (!r.contentLength && decide (0 ≤ r.contentLengthN)) "Content-Length"
        (numberText r.contentLengthN.toNat)).flatMap headerText).length
      ≤ lenIf (!r.contentLength && decide (0 ≤ r.contentLengthN))
        (textSize "Content-Length: " + ngxIntLen + 2) := by
    have hkey : (fieldName "Content-Length").length + 2 = textSize "Content-Length: " := by
      decide +kernel
    have hdigits : (numberText r.contentLengthN.toNat).length ≤ ngxIntLen := by
      have := h.contentLengthN
      exact length_numberText_le (by decide) (by unfold ngxIntLen; omega)
    apply length_lineIf_le
    intro _
    omega
  have hmodified : ((lineIf (!r.lastModified && decide (r.lastModifiedTime ≠ -1)) "Last-Modified"
        (env.ngxHttpTime r.lastModifiedTime)).flatMap headerText).length
      ≤ lenIf (!r.lastModified && decide (r.lastModifiedTime ≠ -1))
        (textSize "Last-Modified: Mon, 28 Sep 1970 06:00:00 GMT\r\n") := by
    have hkey : (fieldName "Last-Modified").length + 2 + 29 + 2
        = textSize "Last-Modified: Mon, 28 Sep 1970 06:00:00 GMT\r\n" := by decide +kernel
    apply length_lineIf_le
    intro hwritten
    rw [Bool.and_eq_true, decide_eq_true_eq] at hwritten
    rw [h.lastModifiedTime hwritten.2]
    omega
  have hchunked : ((lineIf r.chunked "Transfer-Encoding" (fieldName "chunked")).flatMap
        headerText).length
      ≤ lenIf r.chunked (textSize "Transfer-Encoding: chunked\r\n") :=
    length_lineIf_le (fun _ => by decide +kernel)
  have hvary : ((lineIf r.gzipVary "Vary" (fieldName "Accept-Encoding")).flatMap
        headerText).length
      ≤ lenIf r.gzipVary (textSize "Vary: Accept-Encoding\r\n") :=
    length_lineIf_le (fun _ => by decide +kernel)
  have htype := length_contentType_le r
  have hlocation := length_location_le conf env r host
  have hconnection := length_connection_le conf r
  have hentries : ((elementLines host.isSome r).flatMap headerText).length
      = entriesLen (elementLines host.isSome r) := by
    unfold entriesLen
    rw [foldl_entries, Nat.zero_add]
  have hversion : (fieldName "HTTP/1.1 ").length = textSize "HTTP/1.x " := by decide +kernel
  have hcrlf : crlf.length = 2 := rfl
  unfold headerBytes headerLines headerLen
  simp only [List.flatMap_append, List.length_append]
  omega

/-- The changes of the first pass leave the fields as they fit. -/
theorem HeaderFields.Fits.settle (conf : HeaderConf) {env : HeaderEnv} {r : HeaderFields}
    (h : r.Fits env) : (r.settle conf).Fits env := by
  have hnone : (-1 : Int) < 2 ^ 63 := by decide
  unfold HeaderFields.settle
  dsimp only
  split_ifs with hmodified hempty hempty
  · exact ⟨h.status, hnone, fun hne => absurd rfl hne⟩
  · exact ⟨h.status, h.contentLengthN, fun hne => absurd rfl hne⟩
  · exact ⟨h.status, hnone, fun hne => absurd rfl hne⟩
  · exact ⟨h.status, h.contentLengthN, h.lastModifiedTime⟩

/-- **No header is longer than its buffer**: for every configuration, connection and response,
whatever lines are written, redirected or skipped. -/
theorem header_fits (conf : HeaderConf) (env : HeaderEnv) (r : HeaderFields) (h : r.Fits env)
    (size : Nat) (bytes : Bytes) (hfilter : ngxHttpHeaderFilter conf env r = some (size, bytes)) :
    bytes.length ≤ size := by
  obtain ⟨host, _, hboth⟩ := Option.map_eq_some_iff.mp hfilter
  obtain ⟨rfl, rfl⟩ := Prod.mk.inj hboth
  exact length_headerBytes_le conf (h.settle conf) host

/-- The default settings. -/
def shippedHeader : HeaderConf where
  serverTokens := .on
  build := []
  absoluteRedirect := true
  serverNameInRedirect := false
  serverName := []
  portInRedirect := true
  keepaliveHeader := 0
  keepaliveHeader_lt := by decide
  gzipVary := false

/-- A client of port 8080. -/
def port8080 : HeaderEnv where
  ssl := false
  port := 8080
  port_lt := by decide
  headersInServer := fieldName "127.0.0.1"
  localSockaddr := none
  cachedHttpTime := fieldName "Mon, 16 Oct 2017 11:24:58 GMT"
  clock := by decide +kernel
  ngxHttpTime := fun _ => fieldName "Mon, 16 Oct 2017 11:24:58 GMT"

/-- A directory without its slash. -/
def movedFields : HeaderFields where
  status := 301
  statusLine := []
  server := false
  date := false
  contentType := []
  contentTypeLen := 0
  charset := []
  contentLength := false
  contentLengthN := -1
  lastModified := false
  lastModifiedTime := -1
  location := some (fieldName "/live/")
  chunked := false
  keepalive := true
  gzipVary := false
  headers := [⟨true, fieldName "Location", fieldName "/live/", true⟩]

theorem movedFields_fits : movedFields.Fits port8080 :=
  ⟨by decide, by decide, fun hne => absurd rfl hne⟩

theorem header_fits_moved :
    ∃ size bytes, ngxHttpHeaderFilter shippedHeader port8080 movedFields = some (size, bytes)
      ∧ bytes.length ≤ size :=
  ⟨_, _, rfl, header_fits shippedHeader port8080 movedFields movedFields_fits _ _ rfl⟩

/-! ## §3. It is read back. -/

/-- The statuses the table covers. -/
theorem tableLine_status {status : Nat} {line : Bytes} (hline : tableLine status = some line) :
    status ∈ List.range' 200 7 ++ (List.range' 301 8
      ++ (List.range' 400 30 ++ List.range' 500 8)) := by
  simp only [List.mem_append, List.mem_range'_1]
  by_contra hout
  unfold tableLine at hline
  dsimp only at hline
  rw [if_neg (by omega), if_neg (by omega), if_neg (by omega), if_neg (by omega)] at hline
  exact absurd hline (by simp)

/-- A line of the table begins with its status. -/
theorem tableLine_digits {status : Nat} {line : Bytes} (hline : tableLine status = some line) :
    line.take 4 = digitsText [status / 100, status / 10 % 10, status % 10] ++ [32]
      ∧ ∀ b ∈ line.drop 4, b ≠ 10 ∧ b ≠ 13 := by
  have hall : ∀ s ∈ List.range' 200 7 ++ (List.range' 301 8
      ++ (List.range' 400 30 ++ List.range' 500 8)), ∀ line ∈ tableLine s,
      line.take 4 = digitsText [s / 100, s / 10 % 10, s % 10] ++ [32]
        ∧ (line.drop 4).all (fun b => decide (b ≠ 10 ∧ b ≠ 13)) = true := by decide +kernel
  obtain ⟨htake, hdrop⟩ := hall status (tableLine_status hline) line hline
  exact ⟨htake, by simpa using hdrop⟩

/-- A status of three digits without a line. -/
theorem statusNumber_digits {status : Nat} (h : 100 ≤ status ∧ status ≤ 999) :
    statusNumber status = digitsText [status / 100, status / 10 % 10, status % 10] ++ [32] := by
  have hfirst : status / 10 / 10 % 10 = status / 100 := by omega
  have hnone : status / 10 / 10 / 10 = 0 := by omega
  have hdigits : decimals status = [status / 100, status / 10 % 10, status % 10] := by
    unfold decimals
    rw [if_neg (by omega), Nat.digits_def' (by decide) (by omega),
      Nat.digits_def' (by decide) (by omega), Nat.digits_def' (by decide) (by omega), hfirst,
      hnone, Nat.digits_zero]
    rfl
  unfold statusNumber numberText
  rw [hdigits]
  rfl

/-- The status line of a response, from a table or not, is a status and a reason. -/
theorem statusText_digits {r : HeaderFields} (hline : r.statusLine = [])
    (h : 100 ≤ r.status ∧ r.status ≤ 999) :
    ∃ reason : Bytes, (∀ b ∈ reason, b ≠ 10 ∧ b ≠ 13)
      ∧ r.statusText = digitsText [r.status / 100, r.status / 10 % 10, r.status % 10]
        ++ 32 :: reason := by
  unfold HeaderFields.statusText
  rw [if_neg (not_not.mpr hline)]
  cases htable : tableLine r.status with
  | none => exact ⟨[], by simp, statusNumber_digits h⟩
  | some line =>
      obtain ⟨htake, hdrop⟩ := tableLine_digits htable
      refine ⟨line.drop 4, hdrop, ?_⟩
      show line = _
      rw [← List.take_append_drop 4 line, htake, List.append_assoc, List.drop_append]
      simp [digitsText]

/-- The head a header was written for. -/
theorem exists_head {conf : HeaderConf} {env : HeaderEnv} {r : HeaderFields}
    {host : Option Bytes} (hline : r.statusLine = []) (h : 100 ≤ r.status ∧ r.status ≤ 999)
    (hvalid : ∀ x ∈ headerLines conf env r host, IsName x.1 ∧ IsValue x.2) :
    ∃ head : HttpHead, head.text = headerBytes conf env r host ∧ head.code = r.status
      ∧ head.headers = headerLines conf env r host := by
  obtain ⟨reason, hreason, htext⟩ := statusText_digits hline h
  refine ⟨⟨r.status, reason, headerLines conf env r host, h, hreason,
    fun x hx => (hvalid x hx).1, fun x hx => (hvalid x hx).2⟩, ?_, rfl, rfl⟩
  unfold HttpHead.text HttpHead.statusText HttpHead.status headerBytes
  rw [htext]
  simp only [List.append_assoc]

theorem settle_status (conf : HeaderConf) (r : HeaderFields) :
    (r.settle conf).status = r.status ∧ (r.settle conf).statusLine = r.statusLine := by
  unfold HeaderFields.settle
  dsimp only
  split_ifs <;> exact ⟨rfl, rfl⟩

/-- **A proxy reads what the filter writes**: for every response without a status line of its
own and with valid lines, and every cut of header and body, it has the status, all lines in their
order, and the body. -/
theorem header_filter_read_back (conf : HeaderConf) (env : HeaderEnv) (r : HeaderFields)
    (hline : r.statusLine = []) (hstatus : 100 ≤ r.status ∧ r.status ≤ 999) (host : Option Bytes)
    (hhost : redirectHost conf env (r.settle conf) = some host)
    (hvalid : ∀ x ∈ headerLines conf env (r.settle conf) host, IsName x.1 ∧ IsValue x.2)
    (size : Nat) (body : Bytes) (pieces : List Bytes) :
    ∃ len header, ngxHttpHeaderFilter conf env r = some (len, header)
      ∧ (pieces.flatten = header ++ body →
        ∃ hin special, receivePieces size [] (.statusLine .init) pieces = .ok hin header body
          ∧ hin.statusN = r.status ∧ special.Sublist specialHeaders
          ∧ hin.headers.map (fun elt => (elt.key, elt.value))
            = headerLines conf env (r.settle conf) host ++ special) := by
  obtain ⟨hsettled, hsettledLine⟩ := settle_status conf r
  obtain ⟨head, htext, hcode, hheaders⟩ := exists_head (hsettledLine.trans hline)
    (hsettled ▸ hstatus) hvalid
  obtain ⟨hkeptCode, _, special, hspecial, hkept⟩ := head.headersIn_kept size
  refine ⟨headerLen conf env (r.settle conf) host, head.text, ?_, ?_⟩
  · unfold ngxHttpHeaderFilter
    rw [hhost, htext]
    rfl
  · intro hpieces
    refine ⟨head.headersIn size, special, head.receive size hpieces, ?_, hspecial, ?_⟩
    · rw [hkeptCode, hcode, hsettled]
    · rw [hkept, hheaders]

/-- The redirect, in two pieces. -/
theorem header_filter_read_back_moved :
    ∃ len header, ngxHttpHeaderFilter shippedHeader port8080 movedFields = some (len, header)
      ∧ ∃ hin, receivePieces 2039 [] (.statusLine .init) [header.take 20, header.drop 20]
          = .ok hin header [] ∧ hin.statusN = 301 := by
  have hhost : redirectHost shippedHeader port8080 (movedFields.settle shippedHeader)
      = some (some (fieldName "127.0.0.1")) := rfl
  obtain ⟨len, header, hfilter, h⟩ := header_filter_read_back shippedHeader port8080 movedFields
    rfl (by decide) _ hhost (by decide +kernel) 2039 []
    [(headerBytes shippedHeader port8080 movedFields (some (fieldName "127.0.0.1"))).take 20,
      (headerBytes shippedHeader port8080 movedFields (some (fieldName "127.0.0.1"))).drop 20]
  obtain ⟨rfl, rfl⟩ := Prod.mk.inj (Option.some.inj hfilter)
  obtain ⟨hin, _, hread, hstatus, _⟩ := h (by
    rw [List.flatten_cons, List.flatten_cons, List.flatten_nil, List.append_nil,
      List.append_nil]
    exact List.take_append_drop 20 _)
  exact ⟨_, _, rfl, hin, hread, hstatus⟩

/-! ## §4. The header of a playlist. -/

/-- The fields `hlsm3u8_pr_post_handler` leaves, with the entries of `add_header`, where
`ngx_http_not_modified_header_filter` does not change them. -/
def playlistFields (chain : List Buf) (headers : List OutEntry) : HeaderFields where
  status := 200
  statusLine := []
  server := false
  date := false
  contentType := fieldName "application/x-mpegURL"
  contentTypeLen := 0
  charset := []
  contentLength := false
  contentLengthN := headSize chain
  lastModified := false
  lastModifiedTime := -1
  location := none
  chunked := false
  keepalive := false
  gzipVary := false
  headers := headers

theorem headSize_text {chain : List Buf} (hsize : (chainText chain).length < 2 ^ 31) :
    headSize chain = (chainText chain).length := by
  rw [headSize_eq]
  exact ((toInt32_natCast_eq_iff _).mpr hsize).symm

/-- The lines before the length. -/
def linesBefore (conf : HeaderConf) (env : HeaderEnv) : List (Bytes × Bytes) :=
  [(fieldName "Server", serverValue conf), (fieldName "Date", env.cachedHttpTime),
    (fieldName "Content-Type", fieldName "application/x-mpegURL")]

/-- The lines behind the length. -/
def linesBehind (headers : List OutEntry) : List (Bytes × Bytes) :=
  (fieldName "Connection", fieldName "close")
    :: (headers.filter OutEntry.hash).map (fun e => (e.key, e.value))

/-- The lines of its header, around the length. -/
theorem headerLines_playlist (conf : HeaderConf) (env : HeaderEnv) {chain : List Buf}
    (hsize : (chainText chain).length < 2 ^ 31) (headers : List OutEntry) :
    headerLines conf env (playlistFields chain headers) none
      = linesBefore conf env
        ++ (fieldName "Content-Length", digitsText (decimals (chainText chain).length))
          :: linesBehind headers := by
  have htype : decide ((playlistFields chain headers).contentType ≠ []) = true := by
    show decide (fieldName "application/x-mpegURL" ≠ []) = true
    decide +kernel
  have hlength : decide (0 ≤ (playlistFields chain headers).contentLengthN) = true := by
    rw [decide_eq_true_iff]
    show 0 ≤ headSize chain
    rw [headSize_text hsize]
    exact Int.natCast_nonneg _
  have hnumber : numberText (playlistFields chain headers).contentLengthN.toNat
      = digitsText (decimals (chainText chain).length) := by
    show numberText (headSize chain).toNat = _
    rw [headSize_text hsize, Int.toNat_natCast]
    rfl
  have hentries : elementLines false (playlistFields chain headers)
      = (headers.filter OutEntry.hash).map (fun e => (e.key, e.value)) := by
    unfold elementLines
    congr 2
    funext e
    exact Bool.and_true _
  unfold headerLines
  rw [htype, hlength, hnumber]
  -- no date of change, no redirect, not chunked, and no `Vary`
  show _ ++ (_ ++ (_ ++ (_ ++ ([] ++ ([] ++ ([] ++ (_ ++ ([] ++ elementLines false _)))))))) = _
  rw [hentries]
  rfl

/-- An entry that is written is a valid line that says nothing about the length. -/
def OutEntry.Harmless (e : OutEntry) : Prop :=
  e.hash = true → IsName e.key ∧ IsValue e.value ∧ NoLength (e.key, e.value)

theorem linesBefore_valid {conf : HeaderConf} {env : HeaderEnv}
    (hserver : IsValue (serverValue conf)) (hdate : IsValue env.cachedHttpTime) :
    ∀ x ∈ linesBefore conf env, (IsName x.1 ∧ IsValue x.2) ∧ NoLength x := by
  have hname : IsName (fieldName "Server") ∧ NoLength (fieldName "Server", [])
      ∧ IsName (fieldName "Date") ∧ NoLength (fieldName "Date", []) := by decide +kernel
  have htype : (IsName (fieldName "Content-Type") ∧ IsValue (fieldName "application/x-mpegURL"))
      ∧ NoLength (fieldName "Content-Type", fieldName "application/x-mpegURL") := by
    decide +kernel
  unfold linesBefore
  simp only [List.forall_mem_cons, List.not_mem_nil, false_imp_iff, implies_true, and_true]
  exact ⟨⟨⟨hname.1, hserver⟩, hname.2.1⟩, ⟨⟨hname.2.2.1, hdate⟩, hname.2.2.2⟩, htype⟩

theorem linesBehind_valid {headers : List OutEntry} (h : ∀ e ∈ headers, e.Harmless) :
    ∀ x ∈ linesBehind headers, (IsName x.1 ∧ IsValue x.2) ∧ NoLength x := by
  intro x hx
  rcases List.mem_cons.mp hx with rfl | hx
  · decide +kernel
  · obtain ⟨e, he, rfl⟩ := List.mem_map.mp hx
    obtain ⟨hmem, hhash⟩ := List.mem_filter.mp he
    obtain ⟨hname, hvalue, hno⟩ := h e hmem hhash
    exact ⟨⟨hname, hvalue⟩, hno⟩

/-- The head that is written for a playlist, and what is read of it. -/
theorem playlist_head (conf : HeaderConf) (env : HeaderEnv) (hserver : IsValue (serverValue conf))
    (hdate : IsValue env.cachedHttpTime) {headers : List OutEntry}
    (hheaders : ∀ e ∈ headers, e.Harmless) {chain : List Buf}
    (hsize : (chainText chain).length < 2 ^ 31) :
    ∃ head : HttpHead,
      ngxHttpHeaderFilter conf env (playlistFields chain headers)
          = some (headerLen conf env (playlistFields chain headers) none, head.text)
        ∧ ∀ size, (head.headersIn size).statusN = 200
          ∧ (head.headersIn size).bodyLength = some (chainText chain).length := by
  have hbefore := linesBefore_valid hserver hdate
  have hlengthName : IsName (fieldName "Content-Length") := by decide +kernel
  have hbehind := linesBehind_valid hheaders
  have hlines := headerLines_playlist conf env hsize headers
  have hmax : (chainText chain).length ≤ ngxMaxOffTValue := by
    unfold ngxMaxOffTValue
    omega
  have hvalid : ∀ x ∈ headerLines conf env (playlistFields chain headers) none,
      IsName x.1 ∧ IsValue x.2 := by
    intro x hx
    rw [hlines] at hx
    rcases List.mem_append.mp hx with hx | hx
    · exact (hbefore x hx).1
    · rcases List.mem_cons.mp hx with rfl | hx
      · exact ⟨hlengthName, isValue_digitsText (isOff_decimals hmax).small⟩
      · exact (hbehind x hx).1
  obtain ⟨head, htext, hcode, hhead⟩ := exists_head (r := playlistFields chain headers) rfl
    ⟨(by decide : 100 ≤ 200), (by decide : 200 ≤ 999)⟩ hvalid
  have hcode' : head.code = 200 := hcode
  refine ⟨head, ?_, fun size => ⟨(head.headersIn_kept size).1.trans hcode', ?_⟩⟩
  · rw [htext]
    rfl
  · exact head.bodyLength_headersIn size (hhead.trans hlines) (by decide +kernel)
      (fun x hx => (hbefore x hx).2) (fun x hx => (hbehind x hx).2) (by omega) hmax

/-- **A client never takes a part of its playlist for the whole**: for every playlist of less
than `2 ^ 31` bytes that is sent, whatever has happened on its connection, and wherever what it
has got is cut, a reader like a proxy still waits for the end of the header, or it has a 200,
the length of the whole playlist and a beginning of it; and of a response that is done it has
everything. -/
theorem playlist_read_by_client {lib : JsonLib} {resp : CommonResp} {info : RespInfo}
    {text : Bytes} (hinfo : resp.respInfo = some info)
    (htext : deliveredText lib info = some text) (hsize : text.length < 2 ^ 31)
    (hconf : HeaderConf) (env : HeaderEnv) (hserver : IsValue (serverValue hconf))
    (hdate : IsValue env.cachedHttpTime) {headers : List OutEntry}
    (hheaders : ∀ e ∈ headers, e.Harmless) (behind : Bytes) :
    ∃ chain len header, render lib (lib.jsonTokenerParse
          (lib.writeValueAsString resp.toJson ++ behind)) = .ok chain
      ∧ ngxHttpHeaderFilter hconf env (playlistFields chain headers) = some (len, header)
      ∧ ∀ (conf : OutputConf) (c : Conditions) (first second : SendAnswer) (response : Response)
          (events : List WriteEvent) (size : Nat) (pieces : List Bytes),
          sendPlaylist conf c first second header chain = some response →
          let r := events.foldl (ngxHttpWriter conf) response
          pieces.flatten <+: r.sending.wire →
          ((∃ phase, receivePieces size [] (.statusLine .init) pieces = .again phase)
              ∨ ∃ hin body, receivePieces size [] (.statusLine .init) pieces = .ok hin header body
                ∧ hin.statusN = 200 ∧ hin.bodyLength = some text.length ∧ body <+: text)
            ∧ (r.phase = .done → pieces.flatten = r.sending.wire →
              ∃ hin, receivePieces size [] (.statusLine .init) pieces = .ok hin header text) := by
  obtain ⟨chain, hrender, rfl⟩ := render_delivered hinfo htext
  obtain ⟨head, hfilter, hread⟩ := playlist_head hconf env hserver hdate hheaders hsize
  refine ⟨chain, _, head.text, by rw [lib.parse_write, hrender], hfilter, ?_⟩
  intro conf c first second response events size pieces hsend r hgot
  obtain rfl := eq_of_sendPlaylist hsend
  obtain ⟨hbeginning, hdone⟩ :=
    ((onTheWay_sendResponse hrender conf first second head.text).run conf events).wire
  obtain ⟨hcode, hlength⟩ := hread size
  constructor
  · -- what the client has got is a beginning of what was sent, and that of the whole response
    obtain ⟨pending, hpieces⟩ := hgot.trans hbeginning
    rcases head.receive_beginning size hpieces with ⟨_, phase, hagain⟩ | ⟨body, hbody, hok⟩
    · exact Or.inl ⟨phase, hagain⟩
    · exact Or.inr ⟨_, body, hok, hcode, hlength, ⟨pending, hbody⟩⟩
  · intro hphase hall
    exact ⟨_, head.receive size (hall.trans (hdone hphase))⟩

theorem playlist_read_by_client_minute :
    ∃ chain len header response, render printedJson (printedJson.jsonTokenerParse
          (printedJson.writeValueAsString minuteResp.body.toJson ++ [0])) = .ok chain
      ∧ ngxHttpHeaderFilter shippedHeader port8080 (playlistFields chain []) = some (len, header)
      ∧ sendPlaylist shippedOutput unconditional ⟨true, []⟩ ⟨false, []⟩ header chain
        = some response
      ∧ ∀ events : List WriteEvent,
        let r := events.foldl (ngxHttpWriter shippedOutput) response
        r.phase = .done → ∃ hin, receivePieces 2039 [] (.statusLine .init) [r.sending.wire]
          = .ok hin header (utf8 (toText minuteText)) := by
  have hinfo : minuteResp.body.respInfo = some (.playseek ⟨.seek, some minuteText⟩) := rfl
  have hnone : ∀ e ∈ ([] : List OutEntry), e.Harmless := fun e he => absurd he List.not_mem_nil
  obtain ⟨chain, len, header, hrender, hfilter, h⟩ := playlist_read_by_client hinfo
    (deliveredText_playseek printedJson minuteText) (by decide +kernel) shippedHeader port8080
    (by decide +kernel) (by decide +kernel) hnone [0]
  refine ⟨chain, len, header, _, hrender, hfilter, rfl, ?_⟩
  intro events r hdone
  have hall : [r.sending.wire].flatten = r.sending.wire := List.append_nil _
  exact (h shippedOutput unconditional ⟨true, []⟩ ⟨false, []⟩ _ events 2039 [r.sending.wire] rfl
    ⟨[], by rw [List.append_nil]; exact hall⟩).2 hdone hall

end NginxNettyHls.Nginx
