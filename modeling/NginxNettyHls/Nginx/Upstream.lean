/-
  NginxNettyHls.Nginx.Upstream
  ────────────────────────────
  **AN IN-MEMORY SUBREQUEST TO AN UPSTREAM SERVER.**

  The response body is kept in one buffer of fixed size.  It is read by
  `ngx_http_upstream_process_body_in_memory`, a loop around `recv` that is
  entered again whenever the connection becomes readable or its timer runs out;
  every way out of it finalizes the subrequest with a code of its own.

    • `fetchBody` — the body of a response with a content length, from the bytes
      that arrived together with the header to the end of the subrequest;
    • `fetchBody_split` — what is in the buffer then is a beginning of the body,
      whichever way the subrequest has ended;
    • `headerFailed` — the ends before there is a header.
-/
import Mathlib.Tactic.Common

namespace NginxNettyHls.Nginx

abbrev Bytes := List UInt8

/-! ## §1. How a subrequest ends. -/

def ngxOk : Int := 0
def ngxError : Int := -1
def ngxAgain : Int := -2
def ngxDone : Int := -4
def ngxDeclined : Int := -5

def ngxHttpInternalServerError : Int := 500
def ngxHttpBadGateway : Int := 502
def ngxHttpGatewayTimeOut : Int := 504

/-- `r->upstream->buffer` when the subrequest ends. -/
inductive UpstreamBuffer where
  /-- `r->upstream` is NULL: nothing was passed to an upstream server. -/
  | noUpstream
  /-- The buffer has never been allocated, its `pos` is NULL. -/
  | unallocated
  /-- What lies between `pos` and `last`, and in the memory behind `last`: the rest of
  the allocation, which nobody has cleared, and whatever follows it. -/
  | filled (received behind : Bytes)
  deriving Repr, DecidableEq

/-- The memory from `pos` on, if it can be read. -/
def UpstreamBuffer.memory : UpstreamBuffer → Option Bytes
  | .noUpstream => none
  | .unallocated => none
  | .filled received behind => some (received ++ behind)

/-- A subrequest when `ngx_http_finalize_request` is called for it. -/
structure SubrequestEnd where
  rc : Int
  /-- `r->headers_out.status`: zero until a header has been parsed. -/
  status : Nat
  buffer : UpstreamBuffer
  deriving Repr, DecidableEq

/-- The failures of the header phase. -/
inductive HeaderFailure where
  /-- No connection, or one that is closed before the header is complete. -/
  | error
  | timeout
  | invalidHeader
  /-- No memory, or an event that cannot be registered. -/
  | internal
  deriving Repr, DecidableEq

/-- `ngx_http_upstream_next` with no other server to try, and the direct calls of
`ngx_http_upstream_finalize_request`. -/
def HeaderFailure.rc : HeaderFailure → Int
  | .error => ngxHttpBadGateway
  | .timeout => ngxHttpGatewayTimeOut
  | .invalidHeader => ngxHttpBadGateway
  | .internal => ngxHttpInternalServerError

/-- An end without a header.  The buffer is allocated when the connection is found
readable for the first time, after the tests for a timeout and a failed connect. -/
def headerFailed (failure : HeaderFailure) (buffer : UpstreamBuffer) : SubrequestEnd :=
  ⟨failure.rc, 0, buffer⟩

/-! ## §2. Reading the body. -/

/-- The buffer and the connection while the body is read. -/
structure Body where
  /-- Between `buffer.pos` and `buffer.last`. -/
  received : Bytes
  /-- `buffer.end - buffer.last`. -/
  room : Nat
  /-- `u->length`. -/
  length : Int
  /-- What the server has not delivered yet. -/
  pending : Bytes
  deriving Repr, DecidableEq

/-- What `recv` returns. -/
inductive Recv where
  | again
  | closed
  | error
  /-- At most `n + 1` bytes; `ready` is the state of the read event afterwards. -/
  | data (n : Nat) (ready : Bool)
  deriving Repr, DecidableEq

/-- A call of the read handler: the timer has run out, or what the calls of `recv` in
the loop return. -/
inductive Call where
  | timedout
  | reads (recvs : List Recv)
  deriving Repr, DecidableEq

/-- `ngx_http_proxy_non_buffered_copy_filter` on at most `n` bytes that fit. -/
def Body.copyFilter (b : Body) (n : Nat) : Body :=
  let bytes := b.pending.take (min n b.room)
  { received := b.received ++ bytes
    room := b.room - bytes.length
    length := if b.length = -1 then -1 else b.length - bytes.length
    pending := b.pending.drop (min n b.room) }

/-- After the loop: `if (u->length == 0)`. -/
def Body.finished (b : Body) : Option Int := if b.length = 0 then some 0 else none

/-- The loop of `ngx_http_upstream_process_body_in_memory`: the buffer after it, and the
code it finalizes the subrequest with, if it does. -/
def Body.recvLoop : Body → List Recv → Body × Option Int
  | b, [] => (b, none)
  | b, r :: rs =>
      -- "upstream buffer is too small to read response"
      if b.room = 0 then (b, some ngxError)
      else
        match r with
        | .again => (b, b.finished)
        -- `ngx_http_upstream_finalize_request(r, u, n)` with `n` zero
        | .closed => (b, some 0)
        | .error => (b, some ngxError)
        | .data n ready =>
            if b.pending = [] then (b, b.finished)
            else if ready then Body.recvLoop (b.copyFilter (n + 1)) rs
            else (b.copyFilter (n + 1), (b.copyFilter (n + 1)).finished)

/-- `ngx_http_upstream_process_body_in_memory`. -/
def processBodyInMemory (b : Body) : Call → Body × Option Int
  | .timedout => (b, some ngxHttpGatewayTimeOut)
  | .reads recvs => b.recvLoop recvs

/-- The calls of the read handler one after the other, up to the one that finalizes. -/
def Body.run : Body → List Call → Body × Option Int
  | b, [] => (b, none)
  | b, call :: calls =>
      match processBodyInMemory b call with
      | (b', some rc) => (b', some rc)
      | (b', none) => Body.run b' calls

/-- The part of `ngx_http_upstream_process_header` after the header of a response with
the content length of `body`, when the buffer has `room` bytes behind the header and
`preread` bytes of the body have come with it; then the read handler. -/
def fetchBody (body : Bytes) (room preread : Nat) (calls : List Call) : Body × Option Int :=
  let b := (Body.mk [] room body.length body).copyFilter preread
  match b.finished with
  | some rc => (b, some rc)
  | none => b.run calls

/-! ## §3. What is in the buffer. -/

/-- The buffer and what is pending make the whole body. -/
def Body.Splits (b : Body) (body : Bytes) : Prop := b.received ++ b.pending = body

theorem Body.Splits.copyFilter {b : Body} {body : Bytes} (h : b.Splits body) (n : Nat) :
    (b.copyFilter n).Splits body := by
  show (b.received ++ b.pending.take (min n b.room)) ++ b.pending.drop (min n b.room) = body
  rw [List.append_assoc, List.take_append_drop]
  exact h

/-- One call of the loop keeps the body together. -/
theorem Body.Splits.recvLoop {body : Bytes} :
    ∀ (rs : List Recv) {b : Body}, b.Splits body → (b.recvLoop rs).1.Splits body := by
  intro rs
  induction rs with
  | nil => intro b h; exact h
  | cons r rs ih =>
      intro b h
      rw [Body.recvLoop.eq_def]
      dsimp only
      by_cases hroom : b.room = 0
      · rw [if_pos hroom]
        exact h
      · rw [if_neg hroom]
        cases r with
        | again | closed | error => exact h
        | data n ready =>
            dsimp only
            split_ifs with hpending hready
            · exact h
            · exact ih (h.copyFilter (n + 1))
            · exact h.copyFilter (n + 1)

/-- So do all calls of the read handler. -/
theorem Body.Splits.run {body : Bytes} :
    ∀ (calls : List Call) {b : Body}, b.Splits body → (b.run calls).1.Splits body := by
  intro calls
  induction calls with
  | nil => intro b h; exact h
  | cons call calls ih =>
      intro b h
      have hcall : (processBodyInMemory b call).1.Splits body := by
        cases call with
        | timedout => exact h
        | reads rs => exact h.recvLoop rs
      unfold Body.run
      split
      · rename_i b' rc heq
        rw [heq] at hcall
        exact hcall
      · rename_i b' heq
        rw [heq] at hcall
        exact ih hcall

/-- **The buffer holds a beginning of the body**, and the rest is still pending. -/
theorem fetchBody_split (body : Bytes) (room preread : Nat) (calls : List Call) :
    (fetchBody body room preread calls).1.Splits body := by
  have hstart : ((Body.mk [] room body.length body).copyFilter preread).Splits body :=
    Body.Splits.copyFilter rfl preread
  unfold fetchBody
  dsimp only
  split
  · exact hstart
  · exact hstart.run calls

end NginxNettyHls.Nginx
