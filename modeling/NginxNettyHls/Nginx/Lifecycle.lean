/-
  NginxNettyHls.Nginx.Lifecycle
  ─────────────────────────────
  **A PLAYSEEK REQUEST FROM ITS HANDLER TO ITS END**, as nginx runs it.

  `ngx_http_hlsm3u8_handler` makes a subrequest and returns.  From there on the
  two requests share a reference counter, the place `c->data` of the active
  request, and a queue of posted requests; what happens next is decided by the
  write handlers stored in them whenever an event comes.  The functions below
  are those of `ngx_http_request.c` and `ngx_http_upstream.c` that move a request
  along, on the fields they read and write:

    • `ngxHttpCloseRequest` … `ngxHttpFinalizeRequest` — how a request ends;
    • `ngxHttpWriter`, `hlsm3u8PrPost` — the handlers of the main request;
    • `ngxHttpCoreContentPhase`, `step` — the event the handler is called in and
      every later one, with the posted requests after it.

  What the rest of nginx and the system answer during an event is an `Answers`.
  Requests with a body, aio, `post_action` and an error page for a 412 that a header
  filter has made are not modelled.
-/
import NginxNettyHls.Nginx.Hlsm3u8

namespace NginxNettyHls.Nginx

namespace Lifecycle

/-! ## §1. The two requests and their connection. -/

/-- The client's request and the subrequest its handler makes. -/
inductive Req where
  | main
  | sub
  deriving Repr, DecidableEq

/-- The values of `write_event_handler`. -/
inductive EventHandler where
  /-- `ngx_http_handler`, which runs the phases. -/
  | handler
  /-- `ngx_http_request_empty_handler`. -/
  | empty
  | writer
  /-- `ngx_http_upstream_wr_check_broken_connection`. -/
  | checkBroken
  /-- `hlsm3u8_pr_post_handler`. -/
  | prPost
  /-- `ngx_http_request_finalizer`. -/
  | finalizer
  /-- `ngx_http_terminate_handler`. -/
  | terminate
  deriving Repr, DecidableEq

/-- The alerts nginx logs in the functions of this module and in `ngx_http_send_header`, and
what it does not notice.  Those of the filters ("zero size buf in writer") and of the upstream
module ("upstream buffer is too small to read response") are not recorded. -/
inductive Alert where
  /-- "http request count is zero". -/
  | countZero
  /-- "http request already closed". -/
  | alreadyClosed
  /-- "subrequest … logged again". -/
  | loggedAgain
  /-- "http finalize non-active request". -/
  | nonActive
  /-- "header already sent". -/
  | headerAlreadySent
  /-- A request is used after its pool has been destroyed. -/
  | afterFree
  deriving Repr, DecidableEq

/-- The connection, its request and the subrequest. -/
structure State where
  /-- `r->main->count`, sixteen bits. -/
  count : Nat
  /-- `c->data`. -/
  active : Req
  /-- `r->main->posted_requests`. -/
  posted : List Req
  /-- `r->postponed` of the main request holds the subrequest. -/
  postponed : Bool
  mainHandler : EventHandler
  subHandler : EventHandler
  /-- `r->buffered` of the main request, four bits. -/
  buffered : BitVec 4
  /-- `c->buffered`. -/
  connBuffered : Bool
  /-- `c->error`. -/
  error : Bool
  /-- `c->destroyed`, set when the request is freed. -/
  destroyed : Bool
  subDone : Bool
  subLogged : Bool
  /-- `u->cleanup`: the upstream request has not been finalized yet. -/
  cleanup : Bool
  /-- Status and buffer the subrequest has left. -/
  answer : MainRequest
  headerSent : Bool
  /-- `r->error_page`. -/
  errorPage : Bool
  keepalive : Bool
  /-- The connection is read until the client closes it. -/
  lingering : Bool
  /-- The worker process is gone. -/
  crashed : Bool
  /-- Calls of `ngx_http_free_request`. -/
  frees : Nat
  /-- Calls of `hlsm3u8_pr_post_handler`. -/
  entered : Nat
  alerts : List Alert
  deriving Repr, DecidableEq

/-- The codes `ngx_http_hlsm3u8_handler` returns without a subrequest, but for
`NGX_DECLINED`, which leaves the request to the other content handlers. -/
inductive Refusal where
  | error
  | forbidden
  | notAllowed
  | internalServerError
  /-- `ngx_http_subrequest` has failed before it has changed anything. -/
  | serviceUnavailable
  deriving Repr, DecidableEq

def Refusal.rc : Refusal → Int
  | .error => ngxError
  | .forbidden => 403
  | .notAllowed => 405
  | .internalServerError => ngxHttpInternalServerError
  | .serviceUnavailable => 503

/-- How the content handler of the subrequest, `ngx_http_proxy_handler`, leaves it. -/
inductive ProxyStart where
  /-- It returns `NGX_HTTP_INTERNAL_SERVER_ERROR` before
  `ngx_http_read_client_request_body`. -/
  | refused
  /-- The request is finalized with the same code before there is a `u->cleanup`. -/
  | early
  /-- The upstream request is finalized before the handler returns. -/
  | ended (fin : SubrequestEnd)
  /-- It waits for the upstream server. -/
  | pending
  deriving Repr, DecidableEq

/-- The request for an error page, handled in place of the main request: the code it is
finalized with, and whether its header has been sent. -/
structure ErrorPage where
  rc : Int
  headerSent : Bool
  deriving Repr, DecidableEq

/-- What is answered during one event. -/
structure Answers where
  lib : JsonLib
  /-- The code `ngx_http_hlsm3u8_handler` returns without a subrequest. -/
  refusal : Option Refusal
  proxy : ProxyStart
  /-- The upstream request is finalized by an event of its connection. -/
  upstream : Option SubrequestEnd
  /-- Status and buffer the subrequest has so far, should nginx end it by itself. -/
  left : MainRequest
  /-- The client has gone. -/
  broken : Bool
  /-- The timer of the event that is handled has run out. -/
  timedout : Bool
  /-- `wev->delayed`. -/
  delayed : Bool
  /-- `ngx_palloc` in `ngx_http_post_request`. -/
  posts : Bool
  /-- `ngx_handle_write_event` succeeds. -/
  registers : Bool
  /-- What the output filters return. -/
  out : Output
  /-- What they leave in `r->buffered`, `c->buffered` and `c->error`. -/
  buffered : BitVec 4
  connBuffered : Bool
  outError : Bool
  /-- What the output filters return for a special response. -/
  special : FilterRc
  /-- What becomes of an `error_page`, if one is configured for the code. -/
  errorPage : Option ErrorPage
  /-- `c->read->eof`. -/
  eof : Bool
  /-- A keepalive timeout is configured, the worker is not exiting, and no special
  response has reset `r->keepalive`. -/
  keepalives : Bool
  /-- The connection has to be closed lingeringly. -/
  lingers : Bool

def alert (a : Alert) (s : State) : State := { s with alerts := s.alerts ++ [a] }

/-- Every function below begins with a look at the main request. -/
def touch (s : State) : State := if s.destroyed then alert .afterFree s else s

/-! ## §2. Closing. -/

/-- `ngx_http_free_request` once the cleanup handlers have run; `c->destroyed` is set. -/
def freeRequest (s : State) : State :=
  if s.destroyed then alert .alreadyClosed s
  else { s with frees := s.frees + 1, destroyed := true }

/-- `ngx_http_close_request`, when freeing the request is `free`. -/
def closeRequestWith (free : State → State) (s : State) : State :=
  let s := touch s
  let s := if s.count = 0 then alert .countZero s else s
  let s := { s with count := (s.count + 65535) % 65536 }
  if s.count ≠ 0 then s else free s

/-- `ngx_http_finalize_connection`; `ngx_http_set_keepalive` frees the request and keeps
the connection. -/
def finalizeConnectionWith (free : State → State) (io : Answers) (s : State) : State :=
  let s := touch s
  if s.count ≠ 1 then closeRequestWith free s
  else if s.keepalive && io.keepalives then free { s with keepalive := false }
  else if io.lingers then { s with lingering := true, mainHandler := .empty }
  else closeRequestWith free s

/-- `ngx_http_upstream_cleanup` of an upstream request that has not been finalized: the
handler is taken out of the list first, so it runs once. -/
def ngxHttpUpstreamCleanup (io : Answers) (s : State) : State :=
  if s.cleanup then finalizeConnectionWith freeRequest io { s with cleanup := false } else s

/-- `ngx_http_free_request`: the cleanup handlers, then the request. -/
def ngxHttpFreeRequest (io : Answers) (s : State) : State :=
  freeRequest (if s.destroyed then s else ngxHttpUpstreamCleanup io s)

def ngxHttpCloseRequest (io : Answers) : State → State :=
  closeRequestWith (ngxHttpFreeRequest io)

def ngxHttpFinalizeConnection (io : Answers) : State → State :=
  finalizeConnectionWith (ngxHttpFreeRequest io) io

/-- `ngx_http_terminate_request`: the main request is posted with a handler that closes
it whatever the counter says. -/
def ngxHttpTerminateRequest (io : Answers) (s : State) : State :=
  let s := ngxHttpUpstreamCleanup io (touch s)
  { s with posted := [.main], mainHandler := .terminate }

def ngxHttpTerminateHandler (io : Answers) (s : State) : State :=
  ngxHttpCloseRequest io { s with count := 1 }

/-- `ngx_http_set_write_handler`: whether the write event could be registered. -/
def ngxHttpSetWriteHandler (io : Answers) (s : State) : State × Bool :=
  let s := { s with mainHandler := .writer }
  if io.registers then (s, true) else (ngxHttpCloseRequest io s, false)

/-! ## §3. Finalizing. -/

/-- The codes that terminate a request. -/
def Terminates (rc : Int) : Prop := rc = ngxError ∨ rc = 408 ∨ rc = 499

instance (rc : Int) : Decidable (Terminates rc) := inferInstanceAs (Decidable (_ ∨ _ ∨ _))

/-- The codes that are answered with a special response. -/
def Special (rc : Int) : Prop := 300 ≤ rc ∨ rc = 201 ∨ rc = 204

instance (rc : Int) : Decidable (Special rc) := inferInstanceAs (Decidable (_ ∨ _ ∨ _))

/-- `ngx_http_finalize_request` for the main request from `if (r->buffered || …)` on. -/
def finalizeSent (io : Answers) (s : State) : State :=
  if s.buffered ≠ 0 ∨ s.connBuffered ∨ s.postponed then
    let (s, registered) := ngxHttpSetWriteHandler io s
    -- the request may have been freed already
    if registered then s else ngxHttpTerminateRequest io s
  else if s.active ≠ .main then alert .nonActive s
  else
    let s := { s with mainHandler := .empty }
    if io.eof then ngxHttpCloseRequest io s else ngxHttpFinalizeConnection io s

/-- The same for a code that needs no special response. -/
def finalizePlain (io : Answers) (s : State) (rc : Int) : State :=
  if rc = ngxDone then ngxHttpFinalizeConnection io s
  else if Terminates rc ∨ s.error then ngxHttpTerminateRequest io s
  else finalizeSent io (touch s)

/-- The output filters have run. -/
def filtered (io : Answers) (failed : Bool) (s : State) : State :=
  { s with buffered := io.buffered, connBuffered := io.connBuffered,
           error := s.error || io.outError || failed }

/-- `ngx_http_special_response_handler` without an error page. -/
def specialResponse (io : Answers) (s : State) : State × Int :=
  if s.headerSent then (alert .headerAlreadySent s, ngxError)
  else
    (filtered io (decide (io.special = .error)) { s with headerSent := true }, io.special.value)

/-- `ngx_http_finalize_request` for the main request, its error page already used. -/
def finalizeOnce (io : Answers) (s : State) (rc : Int) : State :=
  if Special rc ∧ ¬ Terminates rc ∧ ¬ s.error then
    -- `NGX_HTTP_CLOSE`
    if rc = 444 then ngxHttpTerminateRequest io s
    else finalizePlain io (specialResponse io s).1 (specialResponse io s).2
  else finalizePlain io s rc

/-- `ngx_http_finalize_request` for the main request.  An error page is an internal
redirect, which takes a reference, handles the request anew and ends with
`NGX_DONE`. -/
def ngxHttpFinalizeRequest (io : Answers) (s : State) (rc : Int) : State :=
  match io.errorPage with
  | some page =>
      if Special rc ∧ ¬ Terminates rc ∧ ¬ s.error ∧ rc ≠ 444 ∧ s.errorPage = false then
        let s := { s with count := s.count + 1, errorPage := true, mainHandler := .empty,
                          headerSent := s.headerSent || page.headerSent }
        finalizePlain io (finalizeOnce io (filtered io false s) page.rc) ngxDone
      else finalizeOnce io s rc
  | none => finalizeOnce io s rc

/-- `ngx_http_post_request`. -/
def ngxHttpPostRequest (r : Req) (s : State) : State := { s with posted := s.posted ++ [r] }

/-- The active subrequest leaves the tree of requests. -/
def detachSub (s : State) : State :=
  let s := { s with count := (s.count + 65535) % 65536, subDone := true, postponed := false,
                    active := .main }
  if s.subLogged then alert .loggedAgain s else { s with subLogged := true }

/-- `ngx_http_finalize_request` for the subrequest once its post handler has returned
`NGX_OK`. -/
def finalizeSub (io : Answers) (s : State) : State :=
  if s.error then ngxHttpTerminateRequest io s
  else
    let s := if s.active = .sub then detachSub s else { s with subHandler := .finalizer }
    if io.posts then ngxHttpPostRequest .main s
    else ngxHttpTerminateRequest io { s with count := s.count + 1 }

/-- `ngx_http_finalize_request` for the subrequest, whose end is `fin`.  The post handler
copies status and buffer, installs its handler in the parent and returns `NGX_OK`. -/
def ngxHttpFinalizeSubrequest (io : Answers) (s : State) (fin : SubrequestEnd) : State :=
  if fin.rc = ngxDone then ngxHttpFinalizeConnection io s
  else
    finalizeSub io { touch s with
      answer := (hlsm3u8SeekSubrequestPostHandler fin).2, mainHandler := .prPost }

/-- `ngx_http_upstream_finalize_request` for an in-memory subrequest. -/
def ngxHttpUpstreamFinalizeRequest (io : Answers) (s : State) (fin : SubrequestEnd) : State :=
  if s.cleanup then ngxHttpFinalizeSubrequest io { s with cleanup := false } fin
  -- "the request was already finalized"
  else ngxHttpFinalizeConnection io s

/-! ## §4. The handlers. -/

/-- `hlsm3u8_pr_post_handler`.  `NGX_HTTP_WRITE_BUFFERED` is `0x10`, of which the four
bits of `r->buffered` keep nothing. -/
def hlsm3u8PrPost (io : Answers) (s : State) : State :=
  let s := { s with entered := s.entered + 1 }
  match hlsm3u8PrPostHandler io.lib io.out s.answer with
  | .nullRead => { s with crashed := true }
  | .fault _ => { s with crashed := true }
  | .finalized rc =>
      if s.answer.status = 200 then
        let s := { s with
          buffered := s.buffered ||| (0x10#8).setWidth 4, keepalive := false, headerSent := true }
        let failed := decide (rc = ngxError)
        ngxHttpFinalizeRequest io (filtered io failed s) rc
      else ngxHttpFinalizeRequest io s rc

/-- `ngx_http_output_filter(r, NULL)` for the main request: `ngx_http_postpone_filter`
lets nothing through while the subrequest is active, and wakes one that is not. -/
def outputRest (io : Answers) (s : State) : State × FilterRc :=
  if s.active ≠ .main then (s, .ok)
  else if s.postponed then
    (ngxHttpPostRequest .sub { s with postponed := false, active := .sub }, .ok)
  else
    (filtered io (decide (io.out.outputFilter = .error)) s, io.out.outputFilter)

/-- `ngx_http_writer`. -/
def ngxHttpWriter (io : Answers) (s : State) : State :=
  if io.timedout then ngxHttpFinalizeRequest io s 408
  else if io.delayed then if io.registers then s else ngxHttpCloseRequest io s
  else
    let (s, rc) := outputRest io s
    if rc = .error then ngxHttpFinalizeRequest io s ngxError
    else if s.buffered ≠ 0 ∨ s.connBuffered ∨ s.postponed then
      if io.registers then s else ngxHttpCloseRequest io s
    else ngxHttpFinalizeRequest io { s with mainHandler := .empty } rc.value

/-- The content phase of the subrequest. -/
def subContentPhase (io : Answers) (s : State) : State :=
  let s := { s with subHandler := .empty }
  match io.proxy with
  | .refused => ngxHttpFinalizeSubrequest io s ⟨ngxHttpInternalServerError, 0, io.left.data⟩
  | .early =>
      -- `ngx_http_read_client_request_body` takes a reference that `NGX_DONE` gives back
      ngxHttpFinalizeConnection io
        (ngxHttpFinalizeSubrequest io { s with count := s.count + 1 }
          ⟨ngxHttpInternalServerError, 0, io.left.data⟩)
  | .ended fin =>
      ngxHttpFinalizeConnection io (ngxHttpUpstreamFinalizeRequest io
        { s with count := s.count + 1, cleanup := true, subHandler := .checkBroken } fin)
  | .pending =>
      ngxHttpFinalizeConnection io
        { s with count := s.count + 1, cleanup := true, subHandler := .checkBroken }

/-- `ngx_http_upstream_check_broken_connection`, nothing being cached. -/
def checkBrokenConnection (io : Answers) (s : State) : State :=
  if s.error ∨ io.broken then
    ngxHttpUpstreamFinalizeRequest io { s with error := true } ⟨499, io.left.status, io.left.data⟩
  else s

/-- `r->write_event_handler(r)`. -/
def writeEventHandler (io : Answers) (r : Req) (s : State) : State :=
  match r with
  | .sub =>
      match s.subHandler with
      | .handler => subContentPhase io s
      | .checkBroken => checkBrokenConnection io s
      | .finalizer => finalizeSub io { s with mainHandler := .prPost }
      | _ => s
  | .main =>
      match s.mainHandler with
      | .writer => ngxHttpWriter io s
      | .prPost => hlsm3u8PrPost io s
      | .terminate => ngxHttpTerminateHandler io s
      | _ => s

/-- `ngx_http_run_posted_requests`; the first argument bounds the turns of its loop. -/
def ngxHttpRunPostedRequests (io : Answers) : Nat → State → State
  | 0, s => s
  | n + 1, s =>
      if s.destroyed ∨ s.crashed then s
      else
        match s.posted with
        | [] => s
        | r :: rest =>
            ngxHttpRunPostedRequests io n (writeEventHandler io r { s with posted := rest })

/-- `r->read_event_handler(r)`: of the main request `ngx_http_test_reading`, of the
subrequest `ngx_http_upstream_rd_check_broken_connection`. -/
def readEventHandler (io : Answers) (r : Req) (s : State) : State :=
  match r with
  | .main =>
      if s.mainHandler = .writer ∧ io.broken then
        ngxHttpFinalizeRequest io { s with error := true } 499
      else s
  | .sub => if s.subHandler = .checkBroken then checkBrokenConnection io s else s

/-! ## §5. Events. -/

/-- What an event is about. -/
inductive Event where
  /-- The upstream connection. -/
  | upstream
  /-- The client's connection can be written, or its timer has run out. -/
  | clientWrite
  /-- It can be read. -/
  | clientRead
  deriving Repr, DecidableEq

/-- `ngx_http_lingering_close_handler`. -/
def lingeringCloseHandler (io : Answers) (s : State) : State :=
  if io.timedout ∨ io.eof then ngxHttpCloseRequest io s else s

/-- The handler of an event, without the posted requests. -/
def dispatch (e : Event) (io : Answers) (s : State) : State :=
  match e with
  | .upstream =>
      -- the connection is closed when the upstream request is finalized
      match s.cleanup, io.upstream with
      | true, some fin => ngxHttpUpstreamFinalizeRequest io s fin
      | _, _ => s
  | .clientWrite => if s.lingering then s else writeEventHandler io s.active s
  | .clientRead =>
      if s.lingering then lingeringCloseHandler io s else readEventHandler io s.active s

/-- `ngx_http_request_handler` and a write event that was delayed: that its timer has run
out means that it goes on. -/
def Answers.resume (io : Answers) : Answers :=
  if io.delayed && io.timedout then { io with delayed := false, timedout := false } else io

/-- One event and the requests posted during it. -/
def step (s : State) (e : Event × Answers) : State :=
  if s.destroyed ∨ s.crashed then s
  else
    let io := match e.1 with
      | .clientWrite => e.2.resume
      | _ => e.2
    ngxHttpRunPostedRequests io 8 (dispatch e.1 io s)

/-- The main request when its content handler is called. -/
def initial (keepalive : Bool) : State where
  count := 1
  active := .main
  posted := []
  postponed := false
  mainHandler := .empty
  subHandler := .empty
  buffered := 0
  connBuffered := false
  error := false
  destroyed := false
  subDone := false
  subLogged := false
  cleanup := false
  answer := ⟨0, .noUpstream⟩
  headerSent := false
  errorPage := false
  keepalive := keepalive
  lingering := false
  crashed := false
  frees := 0
  entered := 0
  alerts := []

/-- `ngx_http_subrequest`. -/
def ngxHttpSubrequest (s : State) : State :=
  let s := if s.active = .main ∧ s.postponed = false then { s with active := .sub } else s
  ngxHttpPostRequest .sub
    { s with postponed := true, subHandler := .handler, count := s.count + 1 }

/-- `ngx_http_core_content_phase` with `ngx_http_hlsm3u8_handler`, and the requests posted
by it. -/
def ngxHttpCoreContentPhase (keepalive : Bool) (io : Answers) : State :=
  ngxHttpRunPostedRequests io 8
    (match io.refusal with
    | some refusal => ngxHttpFinalizeRequest io (initial keepalive) refusal.rc
    | none => ngxHttpFinalizeRequest io (ngxHttpSubrequest (initial keepalive)) ngxOk)

/-- The request after any number of further events. -/
def run (keepalive : Bool) (io : Answers) (events : List (Event × Answers)) : State :=
  events.foldl step (ngxHttpCoreContentPhase keepalive io)

end Lifecycle

end NginxNettyHls.Nginx
