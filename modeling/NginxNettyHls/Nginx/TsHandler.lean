/-
  NginxNettyHls.Nginx.TsHandler
  ─────────────────────────────
  **THE `.ts` HANDLER AND THE STATIC HANDLER IT WAS MADE FROM.**

  `ngx_http_hlsts_handler` and `ngx_http_static_handler` side by side, branch by
  branch: the tests of the request, the opening of the file, the header they
  prepare, `ngx_http_send_header` into an arbitrary chain of header filters, and
  the buffer they hand to `ngx_http_output_filter`.

  Where the copy is not the original:

    • it discards the request body before it looks for the file;
    • it prepares a header without ETag and with a fixed content type;
    • it does not look at what `ngx_http_send_header` returns, nor at
      `r->header_only`.

  So the header filters cannot stop the body (`hlsts_ignores_headerFilter`).
  `ts_like_static_iff` says for which requests all this makes no difference to the
  code that is returned and to the range of the file that is handed over.
-/
import NginxNettyHls.Nginx.Gate
import NginxNettyHls.Nginx.Sprintf

namespace NginxNettyHls.Nginx

open NginxNettyHls.M3u8Filter

/-! ## §1. Requests and files. -/

inductive Method where
  | get
  | head
  | post
  | other
  deriving Repr, DecidableEq

/-- What the two handlers read of a request. -/
structure FileRequest where
  method : Method
  uri : Bytes
  args : Bytes
  exten : Bytes
  /-- `r->headers_out.content_type` and `content_type_len` as the handler finds them. -/
  contentType : Bytes
  contentTypeLen : Nat
  /-- `r == r->main` -/
  isMain : Bool
  postAction : Bool
  headerSent : Bool
  /-- Zero for none. -/
  errStatus : Nat
  headerOnly : Bool
  deriving Repr, DecidableEq

/-- `of.err` after a failed open. -/
inductive OpenError where
  /-- Zero: no system call has failed. -/
  | internal
  | enoent
  | enotdir
  | enametoolong
  | eacces
  | emlink
  | eloop
  | other (errno : Nat)
  deriving Repr, DecidableEq

/-- The `switch` over `of.err`, the same in both handlers. -/
def OpenError.rc : OpenError → Int
  | .internal => ngxHttpInternalServerError
  | .enoent | .enotdir | .enametoolong => 404
  | .eacces | .emlink | .eloop => 403
  | .other _ => ngxHttpInternalServerError

/-- An opened file. -/
structure OpenFile where
  fd : Nat
  size : Nat
  mtime : Int
  isDir : Bool
  isFile : Bool
  deriving Repr, DecidableEq

/-- The header a handler prepares. -/
structure HeadersOut where
  status : Nat
  contentLengthN : Nat
  lastModifiedTime : Int
  contentType : Bytes
  contentTypeLen : Nat
  etag : Option Bytes
  allowRanges : Bool
  deriving Repr, DecidableEq

/-- What the header filters do: their code, and whether they set `r->header_only`. -/
structure HeaderAnswer where
  rc : Int
  headerOnly : Bool
  deriving Repr, DecidableEq

/-- The buffer handed to `ngx_http_output_filter`. -/
structure FileBuf where
  filePos : Nat
  fileLast : Nat
  inFile : Bool
  lastBuf : Bool
  lastInChain : Bool
  fd : Nat
  name : Bytes
  directio : Bool
  deriving Repr, DecidableEq

/-- The range of the file. -/
def FileBuf.range (b : FileBuf) : Nat × Nat := (b.filePos, b.fileLast)

/-- What is sent of it: `directio` only chooses how the file is read. -/
def FileBuf.sent (b : FileBuf) : FileBuf := { b with directio := false }

/-- What a handler meets: the results of the functions it calls, the settings of the
location, and the two filter chains. -/
structure FileEnv where
  /-- `ngx_http_discard_request_body` -/
  discard : Int
  /-- `ngx_http_map_uri_to_path` -/
  path : Option Bytes
  /-- `ngx_http_set_disable_symlinks` -/
  symlinks : Int
  /-- `ngx_open_cached_file` -/
  openFile : Except OpenError OpenFile
  directio : Nat
  /-- `ngx_directio_on` succeeds. -/
  directioOn : Bool
  /-- The location has a plain `root`. -/
  plainRoot : Bool
  locationSlot : Bool
  locationText : Bool
  etag : Bool
  etagSlot : Bool
  etagText : Bool
  types : Bytes → Option Bytes
  defaultType : Bytes
  extenText : Bool
  buf : Bool
  bufFile : Bool
  /-- `ngx_http_top_header_filter`, any function of the request and its header. -/
  headerFilter : FileRequest → HeadersOut → HeaderAnswer
  /-- What `ngx_http_output_filter` returns, any function of the request and of what is
  sent. -/
  outputFilter : FileRequest → FileBuf → Int

/-! ## §2. What both handlers call. -/

/-- `ngx_http_set_etag`; `none` is `NGX_ERROR`. -/
def ngxHttpSetEtag (env : FileEnv) (lastModifiedTime : Int) (contentLengthN : Nat) :
    Option (Option Bytes) :=
  if !env.etag then some none
  else if !env.etagSlot then none
  else if !env.etagText then none
  else
    some (formatText .text "\"%xT-%xO\"".toList
      [.word (BitVec.ofInt 64 lastModifiedTime), .word (BitVec.ofNat 64 contentLengthN)])

/-- `ngx_http_set_content_type`: `content_type` and `content_type_len`; `none` is
`NGX_ERROR`. -/
def ngxHttpSetContentType (env : FileEnv) (r : FileRequest) : Option (Bytes × Nat) :=
  if r.contentType ≠ [] then some (r.contentType, r.contentTypeLen)
  else if r.exten ≠ [] then
    -- the extension is copied in lower case when it has a capital letter
    if r.exten.map ngxTolower ≠ r.exten ∧ env.extenText = false then none
    else
      match env.types (r.exten.map ngxTolower) with
      | some type => some (type, type.length)
      | none => some (env.defaultType, env.defaultType.length)
  else some (env.defaultType, env.defaultType.length)

/-- A call of `ngx_http_send_header`: its code, `r->header_only` after it, and the header
the filters got. -/
structure SendHeader where
  rc : Int
  headerOnly : Bool
  given : Option HeadersOut
  deriving Repr, DecidableEq

/-- `ngx_http_send_header`. -/
def ngxHttpSendHeader (env : FileEnv) (r : FileRequest) (header : HeadersOut) : SendHeader :=
  if r.postAction then ⟨ngxOk, r.headerOnly, none⟩
  else if r.headerSent then ⟨ngxError, r.headerOnly, none⟩
  else
    let header := if r.errStatus ≠ 0 then { header with status := r.errStatus } else header
    let answer := env.headerFilter r header
    ⟨answer.rc, r.headerOnly || answer.headerOnly, some header⟩

/-- `rc == NGX_ERROR || rc > NGX_OK || r->header_only`. -/
def SendHeader.stops (s : SendHeader) : Bool :=
  decide (s.rc = ngxError) || decide (ngxOk < s.rc) || s.headerOnly

/-- What a handler does: the header it gives to the filters, the buffer it hands over,
and its return code. -/
structure Served where
  header : Option HeadersOut
  body : Option FileBuf
  rc : Int
  deriving Repr, DecidableEq

/-- A return without a header of its own. -/
def Served.exit (rc : Int) : Served := ⟨none, none, rc⟩

/-- `return ngx_http_output_filter(r, &out)` after the header. -/
def Served.output (env : FileEnv) (r : FileRequest) (sent : SendHeader) (b : FileBuf) : Served :=
  ⟨sent.given, some b, env.outputFilter r b.sent⟩

/-- `of.is_directio` for a threshold. -/
def isDirectio (env : FileEnv) (directio : Nat) (f : OpenFile) : Bool :=
  decide (directio ≤ f.size) && env.directioOn

/-- `NGX_MAX_OFF_T_VALUE`. -/
def ngxMaxOffTValue : Nat := 2 ^ 63 - 1

/-- What both handlers do to open the file: the path, `disable_symlinks`, the open
itself and the `switch` over its errors. -/
def openPath (env : FileEnv) : Except Int (Bytes × OpenFile) :=
  match env.path with
  | none => .error ngxHttpInternalServerError
  | some path =>
      if env.symlinks ≠ ngxOk then .error ngxHttpInternalServerError
      else
        match env.openFile with
        | .error err => .error err.rc
        | .ok f => .ok (path, f)

/-! ## §3. The handlers. -/

/-- The header of the `.ts` handler; `ngx_str_set` leaves `content_type_len` alone. -/
def tsHeader (r : FileRequest) (f : OpenFile) : HeadersOut where
  status := 200
  contentLengthN := f.size
  lastModifiedTime := f.mtime
  contentType := fieldName "application/octet-stream"
  contentTypeLen := r.contentTypeLen
  etag := none
  allowRanges := true

/-- Its buffer. -/
def tsBuf (env : FileEnv) (path : Bytes) (f : OpenFile) : FileBuf where
  filePos := 0
  fileLast := f.size
  inFile := decide (f.size ≠ 0)
  lastBuf := true
  lastInChain := true
  fd := f.fd
  name := path
  directio := isDirectio env ngxMaxOffTValue f

/-- A regular file that is open. -/
def serveTs (env : FileEnv) (r : FileRequest) (path : Bytes) (f : OpenFile) : Served :=
  if !env.buf then .exit ngxHttpInternalServerError
  else if !env.bufFile then .exit ngxHttpInternalServerError
  else
    -- `rc` is assigned and not looked at any more
    .output env r (ngxHttpSendHeader env r (tsHeader r f)) (tsBuf env path f)

/-- `ngx_http_hlsts_handler`. -/
def ngxHttpHlstsHandler (env : FileEnv) (r : FileRequest) : Served :=
  if r.method ≠ .get ∧ r.method ≠ .head then .exit 405
  else if r.uri.getLast? = some 47 then .exit ngxDeclined
  else if env.discard ≠ ngxOk then .exit env.discard
  else
    match openPath env with
    | .error rc => .exit rc
    | .ok (path, f) => if !f.isFile then .exit ngxDeclined else serveTs env r path f

/-- The header of the static handler, `none` where it cannot be prepared; the ranges
are allowed after a test of the size. -/
def staticHeader (env : FileEnv) (r : FileRequest) (f : OpenFile) (allowRanges : Bool) :
    Option HeadersOut :=
  match ngxHttpSetEtag env f.mtime f.size with
  | none => none
  | some etag =>
      match ngxHttpSetContentType env r with
      | none => none
      | some (contentType, contentTypeLen) =>
          some ⟨200, f.size, f.mtime, contentType, contentTypeLen, etag, allowRanges⟩

/-- Its buffer. -/
def staticBuf (env : FileEnv) (r : FileRequest) (path : Bytes) (f : OpenFile) : FileBuf where
  filePos := 0
  fileLast := f.size
  inFile := decide (f.size ≠ 0)
  lastBuf := r.isMain
  lastInChain := true
  fd := f.fd
  name := path
  directio := isDirectio env env.directio f

/-- The redirect of a directory. -/
def redirectDir (env : FileEnv) (r : FileRequest) : Served :=
  if !env.locationSlot then .exit ngxHttpInternalServerError
  else if env.plainRoot ∧ r.args = [] then .exit 301
  else if !env.locationText then .exit ngxHttpInternalServerError
  else .exit 301

/-- A regular file that is open. -/
def serveStatic (env : FileEnv) (r : FileRequest) (path : Bytes) (f : OpenFile) : Served :=
  if env.discard ≠ ngxOk then .exit env.discard
  else if r.isMain = false ∧ f.size = 0 then
    match staticHeader env r f false with
    | none => .exit ngxHttpInternalServerError
    | some header =>
        let sent := ngxHttpSendHeader env r header
        ⟨sent.given, none, sent.rc⟩
  else
    match staticHeader env r f true with
    | none => .exit ngxHttpInternalServerError
    | some header =>
        if !env.buf then .exit ngxHttpInternalServerError
        else if !env.bufFile then .exit ngxHttpInternalServerError
        else
          let sent := ngxHttpSendHeader env r header
          if sent.stops then ⟨sent.given, none, sent.rc⟩
          else .output env r sent (staticBuf env r path f)

/-- `ngx_http_static_handler`. -/
def ngxHttpStaticHandler (env : FileEnv) (r : FileRequest) : Served :=
  if r.method = .other then .exit 405
  else if r.uri.getLast? = some 47 then .exit ngxDeclined
  else
    match openPath env with
    | .error rc => .exit rc
    | .ok (path, f) =>
        if f.isDir then redirectDir env r
        else if !f.isFile then .exit 404
        else if r.method = .post then .exit 405
        else serveStatic env r path f

/-- **The `.ts` handler is deaf to the header filters**: whatever they answer, it hands
over the same buffer and returns the same code. -/
theorem hlsts_ignores_headerFilter (env : FileEnv)
    (filter : FileRequest → HeadersOut → HeaderAnswer) (r : FileRequest) :
    (ngxHttpHlstsHandler { env with headerFilter := filter } r).body
        = (ngxHttpHlstsHandler env r).body
      ∧ (ngxHttpHlstsHandler { env with headerFilter := filter } r).rc
        = (ngxHttpHlstsHandler env r).rc := by
  have hopen : openPath { env with headerFilter := filter } = openPath env := rfl
  unfold ngxHttpHlstsHandler
  rw [hopen]
  split_ifs with hmethod huri hdiscard
  · exact ⟨rfl, rfl⟩
  · exact ⟨rfl, rfl⟩
  · exact ⟨rfl, rfl⟩
  · cases openPath env with
    | error rc => exact ⟨rfl, rfl⟩
    | ok opened =>
        unfold serveTs
        dsimp only
        split_ifs
        all_goals exact ⟨rfl, rfl⟩

/-! ## §4. The same code and the same range. -/

/-- Two handlers return the same code and hand over the same range of the file. -/
def Alike (a b : Served) : Prop :=
  a.rc = b.rc ∧ a.body.map FileBuf.range = b.body.map FileBuf.range

/-- A main GET or HEAD request that names a regular file, if it can be opened. -/
structure NamesFile (env : FileEnv) (r : FileRequest) : Prop where
  main : r.isMain = true
  method : r.method = .get ∨ r.method = .head
  regular : ∀ f, env.openFile = .ok f → f.isFile = true ∧ f.isDir = false

/-- Both handlers let the method pass. -/
theorem NamesFile.allowed {env : FileEnv} {r : FileRequest} (h : NamesFile env r) :
    ¬ (r.method ≠ .get ∧ r.method ≠ .head) ∧ r.method ≠ .other ∧ r.method ≠ .post := by
  rcases h.method with hm | hm
  · simp [hm]
  · simp [hm]

/-- The requests both handlers serve alike. -/
def AlikeWhen (env : FileEnv) (r : FileRequest) : Prop :=
  r.uri.getLast? = some 47 ∨
    match openPath env with
    -- a file that cannot be opened, and no other error in the request body
    | .error rc => env.discard = ngxOk ∨ env.discard = rc
    -- both fail before the header, or the static handler's header lets the body follow
    | .ok (_, f) =>
        env.discard ≠ ngxOk ∨ env.buf = false ∨ env.bufFile = false
          ∨ ∃ header, staticHeader env r f true = some header
              ∧ (ngxHttpSendHeader env r header).stops = false

theorem Alike.refl (a : Served) : Alike a a := ⟨rfl, rfl⟩

theorem alike_exit_iff (rc rc' : Int) : Alike (.exit rc) (.exit rc') ↔ rc = rc' :=
  ⟨fun h => h.1, fun h => ⟨h, rfl⟩⟩

/-- A handler that hands over a body is not like one that does not. -/
theorem not_alike_of_body {a b : Served} {buf : FileBuf} (ha : a.body = some buf)
    (hb : b.body = none) : ¬ Alike a b := by
  intro h
  have hrange := h.2
  rw [ha, hb] at hrange
  exact absurd hrange (by simp)

theorem openPath_regular {env : FileEnv} {r : FileRequest} (h : NamesFile env r)
    {path : Bytes} {f : OpenFile} (ho : openPath env = .ok (path, f)) :
    f.isFile = true ∧ f.isDir = false := by
  unfold openPath at ho
  cases hp : env.path with
  | none => simp [hp] at ho
  | some path' =>
      by_cases hs : env.symlinks ≠ ngxOk
      · simp [hp, hs] at ho
      · cases hf : env.openFile with
        | error err => simp [hp, hs, hf] at ho
        | ok f' =>
            simp only [hp, hs, hf, if_false, Except.ok.injEq, Prod.mk.injEq] at ho
            rw [← ho.2]
            exact h.regular f' hf

/-- The `.ts` handler on such a request. -/
theorem hlsts_eq {env : FileEnv} {r : FileRequest} (h : NamesFile env r)
    (huri : r.uri.getLast? ≠ some 47) :
    ngxHttpHlstsHandler env r
      = if env.discard ≠ ngxOk then .exit env.discard
        else
          match openPath env with
          | .error rc => .exit rc
          | .ok (path, f) => serveTs env r path f := by
  unfold ngxHttpHlstsHandler
  rw [if_neg h.allowed.1, if_neg huri]
  cases ho : openPath env with
  | error rc => rfl
  | ok opened =>
      have hreg := openPath_regular h ho
      simp [hreg.1]

/-- The static handler on such a request. -/
theorem static_eq {env : FileEnv} {r : FileRequest} (h : NamesFile env r)
    (huri : r.uri.getLast? ≠ some 47) :
    ngxHttpStaticHandler env r
      = match openPath env with
        | .error rc => .exit rc
        | .ok (path, f) => serveStatic env r path f := by
  obtain ⟨_, hother, hpost⟩ := h.allowed
  unfold ngxHttpStaticHandler
  rw [if_neg hother, if_neg huri]
  cases ho : openPath env with
  | error rc => rfl
  | ok opened =>
      have hreg := openPath_regular h ho
      simp [hreg.1, hreg.2, hpost]

/-- Without memory for the buffer both end with the same code, also when the static
handler has no header either. -/
theorem serveStatic_no_buf {env : FileEnv} {r : FileRequest} {path : Bytes} {f : OpenFile}
    (hmain : r.isMain = true) (hdiscard : env.discard = ngxOk)
    (hbuf : env.buf = false ∨ env.bufFile = false) :
    serveStatic env r path f = .exit ngxHttpInternalServerError := by
  unfold serveStatic
  rw [if_neg (not_not_intro hdiscard), if_neg (by simp [hmain])]
  cases staticHeader env r f true with
  | none => rfl
  | some header =>
      rcases hbuf with hb | hb
      · simp [hb]
      · simp [hb]

theorem serveTs_no_buf {env : FileEnv} {r : FileRequest} {path : Bytes} {f : OpenFile}
    (hbuf : env.buf = false ∨ env.bufFile = false) :
    serveTs env r path f = .exit ngxHttpInternalServerError := by
  unfold serveTs
  rcases hbuf with hb | hb
  · simp [hb]
  · simp [hb]

/-- A header the static handler cannot prepare. -/
theorem serveStatic_no_header {env : FileEnv} {r : FileRequest} {path : Bytes} {f : OpenFile}
    (hmain : r.isMain = true) (hdiscard : env.discard = ngxOk)
    (hheader : staticHeader env r f true = none) :
    serveStatic env r path f = .exit ngxHttpInternalServerError := by
  unfold serveStatic
  simp [hdiscard, hmain, hheader]

/-- A header that is ready: its answer decides. -/
theorem serveStatic_header {env : FileEnv} {r : FileRequest} {path : Bytes} {f : OpenFile}
    (hmain : r.isMain = true) (hdiscard : env.discard = ngxOk) (hbuf : env.buf = true)
    (hfile : env.bufFile = true) {header : HeadersOut}
    (hheader : staticHeader env r f true = some header) :
    serveStatic env r path f
      = if (ngxHttpSendHeader env r header).stops then
          ⟨(ngxHttpSendHeader env r header).given, none, (ngxHttpSendHeader env r header).rc⟩
        else .output env r (ngxHttpSendHeader env r header) (staticBuf env r path f) := by
  unfold serveStatic
  simp [hdiscard, hmain, hbuf, hfile, hheader]

/-- The `.ts` handler always hands the file over. -/
theorem serveTs_output {env : FileEnv} {r : FileRequest} {path : Bytes} {f : OpenFile}
    (hbuf : env.buf = true) (hfile : env.bufFile = true) :
    serveTs env r path f
      = .output env r (ngxHttpSendHeader env r (tsHeader r f)) (tsBuf env path f) := by
  unfold serveTs
  simp [hbuf, hfile]

/-- For a main request the two send the same. -/
theorem sent_tsBuf {r : FileRequest} (hmain : r.isMain = true) (env : FileEnv) (path : Bytes)
    (f : OpenFile) : (tsBuf env path f).sent = (staticBuf env r path f).sent := by
  unfold tsBuf staticBuf FileBuf.sent
  rw [hmain]

/-- With memory for the buffer they are alike when the static handler's header is ready
and does not stop it. -/
theorem alike_serve_iff {env : FileEnv} {r : FileRequest} (path : Bytes) (f : OpenFile)
    (hmain : r.isMain = true) (hdiscard : env.discard = ngxOk) (hbuf : env.buf = true)
    (hfile : env.bufFile = true) :
    Alike (serveTs env r path f) (serveStatic env r path f)
      ↔ ∃ header, staticHeader env r f true = some header
          ∧ (ngxHttpSendHeader env r header).stops = false := by
  rw [serveTs_output hbuf hfile]
  cases hheader : staticHeader env r f true with
  | none =>
      rw [serveStatic_no_header hmain hdiscard hheader]
      constructor
      · intro h
        exact absurd h (not_alike_of_body rfl rfl)
      · intro h
        obtain ⟨header, hsome, _⟩ := h
        exact absurd hsome (by simp)
  | some header =>
      rw [serveStatic_header hmain hdiscard hbuf hfile hheader]
      cases hstops : (ngxHttpSendHeader env r header).stops with
      | true =>
          rw [if_pos rfl]
          constructor
          · intro h
            exact absurd h (not_alike_of_body rfl rfl)
          · intro h
            obtain ⟨header', hsome, hpass⟩ := h
            obtain rfl : header = header' := Option.some.inj hsome
            rw [hstops] at hpass
            exact absurd hpass (by simp)
      | false =>
          -- the output filter is given the same, so it returns the same
          have hrc := congrArg (env.outputFilter r) (sent_tsBuf hmain env path f)
          rw [if_neg (by simp)]
          exact ⟨fun _ => ⟨header, rfl, hstops⟩, fun _ => ⟨hrc, rfl⟩⟩

/-- A name that ends in a slash is declined by both. -/
theorem both_decline {env : FileEnv} {r : FileRequest} (h : NamesFile env r)
    (huri : r.uri.getLast? = some 47) :
    ngxHttpHlstsHandler env r = .exit ngxDeclined
      ∧ ngxHttpStaticHandler env r = .exit ngxDeclined := by
  obtain ⟨hmethod, hother, _⟩ := h.allowed
  unfold ngxHttpHlstsHandler ngxHttpStaticHandler
  rw [if_neg hmethod, if_pos huri, if_neg hother, if_pos huri]
  exact ⟨rfl, rfl⟩

/-- **When the `.ts` handler serves like the static handler**: for every main GET or HEAD
request that names a regular file, every size of the file, every header and output
filter and every failure on the way. -/
theorem ts_like_static_iff {env : FileEnv} {r : FileRequest} (h : NamesFile env r) :
    Alike (ngxHttpHlstsHandler env r) (ngxHttpStaticHandler env r) ↔ AlikeWhen env r := by
  unfold AlikeWhen
  by_cases huri : r.uri.getLast? = some 47
  · obtain ⟨hts, hstatic⟩ := both_decline h huri
    rw [hts, hstatic]
    exact ⟨fun _ => Or.inl huri, fun _ => Alike.refl _⟩
  · rw [hlsts_eq h huri, static_eq h huri, or_iff_right huri]
    by_cases hdiscard : env.discard = ngxOk
    · rw [if_neg (not_not_intro hdiscard)]
      cases openPath env with
      | error rc => exact ⟨fun _ => Or.inl hdiscard, fun _ => Alike.refl _⟩
      | ok opened =>
          dsimp only
          rw [or_iff_right (not_not_intro hdiscard), ← or_assoc]
          by_cases hbuf : env.buf = false ∨ env.bufFile = false
          · rw [serveTs_no_buf hbuf, serveStatic_no_buf h.main hdiscard hbuf]
            exact ⟨fun _ => Or.inl hbuf, fun _ => Alike.refl _⟩
          · obtain ⟨hb, hf⟩ : env.buf = true ∧ env.bufFile = true := by simpa using hbuf
            rw [alike_serve_iff _ _ h.main hdiscard hb hf, or_iff_right hbuf]
    · -- the `.ts` handler gives up before it looks for the file
      rw [if_pos hdiscard]
      cases openPath env with
      | error rc =>
          dsimp only
          rw [or_iff_right hdiscard]
          exact alike_exit_iff _ _
      | ok opened =>
          have hstatic : serveStatic env r opened.1 opened.2 = .exit env.discard := by
            unfold serveStatic
            rw [if_pos hdiscard]
          dsimp only
          rw [hstatic]
          exact ⟨fun _ => Or.inl hdiscard, fun _ => Alike.refl _⟩

/-- A segment of 1024 bytes, with header filters that do what `answer` says. -/
def segmentEnv (answer : FileRequest → HeaderAnswer) : FileEnv where
  discard := ngxOk
  path := some (fieldName "/mnt1/cctv-1508153098.ts")
  symlinks := ngxOk
  openFile := .ok ⟨7, 1024, 1508153098, false, true⟩
  directio := ngxMaxOffTValue
  directioOn := true
  plainRoot := true
  locationSlot := true
  locationText := true
  etag := true
  etagSlot := true
  etagText := true
  types := fun _ => none
  defaultType := fieldName "application/octet-stream"
  extenText := true
  buf := true
  bufFile := true
  headerFilter := fun r _ => answer r
  outputFilter := fun _ _ => ngxOk

def segmentRequest (method : Method) : FileRequest where
  method := method
  uri := fieldName "/cctv-1508153098.ts"
  args := []
  exten := fieldName "ts"
  contentType := []
  contentTypeLen := 0
  isMain := true
  postAction := false
  headerSent := false
  errStatus := 0
  headerOnly := false

/-- `ngx_http_header_filter`: a HEAD request has a header only. -/
def headerOnlyForHead (r : FileRequest) : HeaderAnswer := ⟨ngxOk, decide (r.method = .head)⟩

/-- A range that cannot be satisfied. -/
def rangeNotSatisfiable (_ : FileRequest) : HeaderAnswer := ⟨416, false⟩

theorem namesFile_segment (answer : FileRequest → HeaderAnswer) {method : Method}
    (h : method = .get ∨ method = .head) :
    NamesFile (segmentEnv answer) (segmentRequest method) := by
  refine ⟨rfl, h, ?_⟩
  intro f hf
  obtain rfl : (⟨7, 1024, 1508153098, false, true⟩ : OpenFile) = f := Except.ok.inj hf
  exact ⟨rfl, rfl⟩

/-- A GET request is served alike. -/
theorem get_served_alike :
    Alike (ngxHttpHlstsHandler (segmentEnv headerOnlyForHead) (segmentRequest .get))
      (ngxHttpStaticHandler (segmentEnv headerOnlyForHead) (segmentRequest .get)) :=
  (ts_like_static_iff (namesFile_segment headerOnlyForHead (Or.inl rfl))).mpr
    (Or.inr (Or.inr (Or.inr (Or.inr ⟨_, rfl, rfl⟩))))

/-- **A HEAD request is given the body**, and so is a GET request whose range the header
filters have refused with 416; the static handler stops after the header. -/
theorem ts_body_after_header_only :
    ((ngxHttpHlstsHandler (segmentEnv headerOnlyForHead) (segmentRequest .head)).body.map
          FileBuf.range = some (0, 1024)
      ∧ (ngxHttpStaticHandler (segmentEnv headerOnlyForHead) (segmentRequest .head)).body = none
      ∧ ¬ Alike (ngxHttpHlstsHandler (segmentEnv headerOnlyForHead) (segmentRequest .head))
          (ngxHttpStaticHandler (segmentEnv headerOnlyForHead) (segmentRequest .head)))
    ∧ (ngxHttpHlstsHandler (segmentEnv rangeNotSatisfiable) (segmentRequest .get)).rc = ngxOk
      ∧ (ngxHttpStaticHandler (segmentEnv rangeNotSatisfiable) (segmentRequest .get)).rc = 416 :=
  ⟨⟨rfl, rfl, not_alike_of_body rfl rfl⟩, rfl, rfl⟩

end NginxNettyHls.Nginx
