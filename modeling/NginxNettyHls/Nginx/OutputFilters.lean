/-
  NginxNettyHls.Nginx.OutputFilters
  ─────────────────────────────────
  **FROM THE CHAIN OF BUFFERS TO THE SOCKET.**

  A chain the renderer has built passes `ngx_http_copy_filter` (which is
  `ngx_output_chain`), `ngx_http_postpone_filter` and `ngx_http_write_filter`.  The
  last one keeps what the socket does not take in `r->out`, and `ngx_http_writer`
  calls it again, with nothing new, when the socket can be written.

    • `OutBuf`, `ngxChainUpdateSent`, `sendLoop` — buffers in memory, and what a
      sequence of `writev` calls takes of them;
    • `ngxHttpWriteFilter`, `ngxOutputChain`, `ngxHttpOutputFilter` — the filters;
    • `sendPlaylist`, `ngxHttpWriter` — a response from its header to its end;
    • `sent_sendChain` — a send takes a beginning of the chain and leaves the rest.

  Buffers in files, `limit_rate` and low-level buffering (TLS) are not modelled.
-/
import NginxNettyHls.Nginx.Hlsm3u8
import NginxNettyHls.Nginx.NotModified

namespace NginxNettyHls.Nginx

/-! ## §1. Buffers. -/

/-- A buffer of an output chain: its `[pos, last)` when it is in memory; without memory it
has flags only. -/
structure OutBuf where
  bytes : Bytes
  /-- `ngx_buf_in_memory`. -/
  inMemory : Bool
  flush : Bool
  lastBuf : Bool
  sync : Bool
  empty : inMemory = false → bytes = []
  deriving Repr, DecidableEq

namespace OutBuf

/-- `ngx_buf_special`. -/
def special (b : OutBuf) : Bool := (b.flush || b.lastBuf || b.sync) && !b.inMemory

/-- `ngx_buf_size`. -/
def size (b : OutBuf) : Nat := b.bytes.length

/-- A zero-size buffer that is not special: "zero size buf in writer". -/
def isZero (b : OutBuf) : Bool := b.size == 0 && !b.special

/-- `b->pos += sent`. -/
def advance (b : OutBuf) (sent : Nat) : OutBuf :=
  { b with
    bytes := b.bytes.drop sent
    empty := fun h => by rw [b.empty h, List.drop_nil] }

/-- A buffer in memory, as `ngx_create_temp_buf` makes it. -/
def temp (bytes : Bytes) (flush lastBuf : Bool) : OutBuf :=
  ⟨bytes, true, flush, lastBuf, false, by simp⟩

theorem bytes_of_special {b : OutBuf} (h : b.special = true) : b.bytes = [] := by
  apply b.empty
  unfold special at h
  simp only [Bool.and_eq_true, Bool.not_eq_true'] at h
  exact h.2

end OutBuf

/-- The bytes of a chain. -/
def flat (chain : List OutBuf) : Bytes := chain.flatMap OutBuf.bytes

@[simp] theorem flat_append (c d : List OutBuf) : flat (c ++ d) = flat c ++ flat d :=
  List.flatMap_append

@[simp] theorem flat_cons (b : OutBuf) (c : List OutBuf) : flat (b :: c) = b.bytes ++ flat c := rfl

@[simp] theorem flat_nil : flat [] = [] := rfl

/-! ## §2. Sending. -/

/-- `ngx_chain_update_sent`. -/
def ngxChainUpdateSent : Nat → List OutBuf → List OutBuf
  | _, [] => []
  | sent, b :: rest =>
      if b.special then ngxChainUpdateSent sent rest
      else if sent = 0 then b :: rest
      else if b.size ≤ sent then ngxChainUpdateSent (sent - b.size) rest
      else b.advance sent :: rest

/-- `ngx_output_chain_to_iovec`: the bytes gathered from the chain, with `iovs` places left
in the vector and at most `limit` bytes. -/
def ngxOutputChainToIovec : Nat → Nat → List OutBuf → Nat
  | _, _, [] => 0
  | iovs, limit, b :: rest =>
      if limit = 0 then 0
      else if b.special then ngxOutputChainToIovec iovs limit rest
      else
        match iovs with
        | 0 => 0
        | iovs + 1 =>
            min b.size limit + ngxOutputChainToIovec iovs (limit - min b.size limit) rest

/-- What a call of `ngx_writev` comes to. -/
inductive Writev where
  | error
  /-- At most `taken + 1` bytes are taken; `coalesced` of the buffers lie right behind the one
  before them and need no place of their own in the vector. -/
  | wrote (coalesced taken : Nat)
  deriving Repr, DecidableEq

/-- How the socket answers during one call of `c->send_chain`: after the last of `writes`
comes `NGX_EAGAIN`. -/
structure SendAnswer where
  /-- `c->write->ready` at the start. -/
  ready : Bool
  writes : List Writev
  deriving Repr, DecidableEq

/-- `NGX_IOVS_PREALLOCATE`. -/
def ngxIovsPreallocate : Nat := 64

/-- What `c->send_chain` leaves. -/
structure SendResult where
  /-- The chain that is returned, `none` for `NGX_CHAIN_ERROR`. -/
  chain : Option (List OutBuf)
  /-- The bytes the socket has taken. -/
  sent : Bytes
  /-- `c->write->ready` at the end. -/
  ready : Bool
  deriving Repr, DecidableEq

/-- The loop of `ngx_linux_sendfile_chain` over buffers in memory; `left` is `limit - send`. -/
def sendLoop : List Writev → Nat → List OutBuf → SendResult
  | [], _, chain => ⟨some (ngxChainUpdateSent 0 chain), [], false⟩
  | .error :: _, _, _ => ⟨none, [], true⟩
  | .wrote coalesced taken :: writes, left, chain =>
      let size := ngxOutputChainToIovec (ngxIovsPreallocate + coalesced) left chain
      let sent := min (taken + 1) size
      let rest := ngxChainUpdateSent sent chain
      if sent = size ∧ (left ≤ size ∨ rest = []) then ⟨some rest, (flat chain).take sent, true⟩
      else
        let more := sendLoop writes (left - sent) rest
        ⟨more.chain, (flat chain).take sent ++ more.sent, more.ready⟩

/-- The settings the filters read. -/
structure OutputConf where
  postponeOutput : Nat
  sendfileMaxChunk : Nat
  /-- `ngx_pagesize`. -/
  pagesize : Nat
  pagesize_small : pagesize < 2147483647
  deriving Repr, DecidableEq

/-- `NGX_SENDFILE_MAXSIZE - ngx_pagesize`. -/
def OutputConf.maxSend (conf : OutputConf) : Nat := 2147483647 - conf.pagesize

/-- `ngx_linux_sendfile_chain` with the limit `sendfile_max_chunk`. -/
def sendChain (conf : OutputConf) (answer : SendAnswer) (chain : List OutBuf) : SendResult :=
  let limit := conf.sendfileMaxChunk
  if answer.ready then
    sendLoop answer.writes
      (if limit = 0 ∨ conf.maxSend < limit then conf.maxSend else limit) chain
  else ⟨some chain, [], false⟩

/-! ## §3. The filters. -/

/-- What the filters keep of a response. -/
structure Sending where
  /-- `r->out`. -/
  out : List OutBuf
  /-- The bytes the socket has taken so far. -/
  wire : Bytes
  /-- `c->buffered & NGX_HTTP_WRITE_BUFFERED`. -/
  buffered : Bool
  /-- `c->write->delayed`. -/
  delayed : Bool
  /-- `c->error`. -/
  error : Bool
  deriving Repr, DecidableEq

/-- `ngx_http_write_filter` from `c->send_chain` on. -/
def writeFilterSend (conf : OutputConf) (answer : SendAnswer) (s : Sending) :
    Sending × FilterRc :=
  let r := sendChain conf answer s.out
  let wire := s.wire ++ r.sent
  match r.chain with
  -- `r->out` is not read again once `c->error` is set
  | none => ({ s with wire := wire, error := true }, .error)
  | some chain =>
      let delayed := s.delayed || (decide (conf.sendfileMaxChunk ≠ 0) && r.ready
        && decide (conf.sendfileMaxChunk ≤ r.sent.length + 2 * conf.pagesize))
      ({ s with out := chain, wire := wire, delayed := delayed, buffered := !chain.isEmpty },
        if chain.isEmpty then .ok else .again)

/-- `ngx_http_write_filter`. -/
def ngxHttpWriteFilter (conf : OutputConf) (answer : SendAnswer) (new : List OutBuf)
    (s : Sending) : Sending × FilterRc :=
  let out := s.out ++ new
  let last := out.any OutBuf.lastBuf
  let flush := out.any OutBuf.flush
  if s.error then (s, .error)
  else if s.out.any OutBuf.isZero then (s, .error)
  -- the new links are made up to the one with the zero-size buffer
  else if new.any OutBuf.isZero then
    ({ s with out := s.out ++ new.take (new.findIdx OutBuf.isZero + 1) }, .error)
  else if !last && !flush && !new.isEmpty && decide ((flat out).length < conf.postponeOutput) then
    ({ s with out := out }, .ok)
  else if s.delayed then ({ s with out := out, buffered := true }, .again)
  else if flat out = [] then
    if last || flush || out.any OutBuf.sync then ({ s with out := [], buffered := false }, .ok)
    -- "the http output chain is empty"
    else ({ s with out := out }, .error)
  else writeFilterSend conf answer { s with out := out }

/-- `ngx_http_postpone_filter` for the active request when nothing of it is postponed. -/
def ngxHttpPostponeFilter (conf : OutputConf) (answer : SendAnswer) (new : List OutBuf)
    (s : Sending) : Sending × FilterRc :=
  if new ≠ [] ∨ s.buffered then ngxHttpWriteFilter conf answer new s else (s, .ok)

/-- `ngx_output_chain` for buffers that are passed on as they are; `busy` says whether
`ctx->busy` holds buffers of an earlier call.  Outside the short path the zero-size buffers
are left out. -/
def ngxOutputChain (conf : OutputConf) (answer : SendAnswer) (busy : Bool) (new : List OutBuf)
    (s : Sending) : Sending × FilterRc :=
  if busy = false ∧ new.length ≤ 1 then ngxHttpPostponeFilter conf answer new s
  else ngxHttpPostponeFilter conf answer (new.filter (fun b => !b.isZero)) s

/-- `ngx_http_output_filter`. -/
def ngxHttpOutputFilter (conf : OutputConf) (answer : SendAnswer) (busy : Bool)
    (new : List OutBuf) (s : Sending) : Sending × FilterRc :=
  let r := ngxOutputChain conf answer busy new s
  if r.2 = .error then ({ r.1 with error := true }, .error) else r

/-! ## §4. A response from its start to its end. -/

/-- Where a response stands. -/
inductive Phase where
  /-- `ngx_http_writer` waits for the socket. -/
  | writing
  /-- Finalized with nothing left to send. -/
  | done
  /-- Terminated. -/
  | closed
  deriving Repr, DecidableEq

structure Response where
  sending : Sending
  phase : Phase
  deriving Repr, DecidableEq

/-- `ngx_http_finalize_request` with what `ngx_http_output_filter` has returned. -/
def finalizeWith (r : Sending × FilterRc) : Response :=
  ⟨r.1, if r.2 = .error then .closed else if r.1.buffered then .writing else .done⟩

/-- Before the header: `r->out = NULL`. -/
def unsent : Sending := ⟨[], [], false, false, false⟩

/-- The end of `ngx_http_header_filter`; for HTTP/0.9 there is no header. -/
def sendHeader (conf : OutputConf) (answer : SendAnswer) (header : Bytes) : Sending × FilterRc :=
  if header = [] then (unsent, .ok)
  else ngxHttpWriteFilter conf answer [OutBuf.temp header false false] unsent

/-- A buffer of the renderer; the last one is marked `last_buf` and `flush`. -/
def Buf.toOut (b : Buf) : OutBuf := OutBuf.temp b.bytes b.lastBuf b.lastBuf

/-- The end of `hlsm3u8_pr_post_handler` for a GET request whose header has come through the
filters as it was: `ngx_http_header_filter`, the chain, and `ngx_http_finalize_request`. -/
def sendResponse (conf : OutputConf) (first second : SendAnswer) (header : Bytes)
    (chain : List Buf) : Response :=
  let r := sendHeader conf first header
  if r.2 = .error then ⟨r.1, .closed⟩
  else finalizeWith (ngxHttpOutputFilter conf second false (chain.map Buf.toOut) r.1)

/-- The same from `ngx_http_send_header` on.  `none` is a request for which the first header
filter puts a 304 or a 412 in the place of the header of the playlist; what is sent then is
not modelled. -/
def sendPlaylist (conf : OutputConf) (c : Conditions) (first second : SendAnswer)
    (header : Bytes) (chain : List Buf) : Option Response :=
  match ngxHttpNotModifiedHeaderFilter c playlistValidators with
  | .unchanged => some (sendResponse conf first second header chain)
  | .notModified => none
  | .preconditionFailed => none

theorem sendPlaylist_eq {c : Conditions}
    (hpass : ngxHttpNotModifiedHeaderFilter c playlistValidators = .unchanged)
    (conf : OutputConf) (first second : SendAnswer) (header : Bytes) (chain : List Buf) :
    sendPlaylist conf c first second header chain
      = some (sendResponse conf first second header chain) := by
  unfold sendPlaylist
  rw [hpass]

theorem eq_of_sendPlaylist {conf : OutputConf} {c : Conditions} {first second : SendAnswer}
    {header : Bytes} {chain : List Buf} {r : Response}
    (h : sendPlaylist conf c first second header chain = some r) :
    r = sendResponse conf first second header chain := by
  unfold sendPlaylist at h
  split at h
  · exact (Option.some.inj h).symm
  · exact absurd h (by simp)
  · exact absurd h (by simp)

/-- The events of the write side; `busy` is whether `ctx->busy` holds buffers. -/
inductive WriteEvent where
  | writable (busy : Bool) (answer : SendAnswer)
  | timer (busy : Bool) (answer : SendAnswer)
  deriving Repr, DecidableEq

/-- `ngx_http_request_handler` and `ngx_http_writer`.  A timer ends a delay, or else the
request. -/
def ngxHttpWriter (conf : OutputConf) (r : Response) (ev : WriteEvent) : Response :=
  if r.phase ≠ .writing then r
  else
    match ev with
    | .writable busy answer =>
        if r.sending.delayed then r
        else finalizeWith (ngxHttpOutputFilter conf answer busy [] r.sending)
    | .timer busy answer =>
        if r.sending.delayed then
          finalizeWith (ngxHttpOutputFilter conf answer busy [] { r.sending with delayed := false })
        else { r with phase := .closed }

/-! ## §5. What is sent of a chain. -/

/-- The rest of the chain is the bytes that were not sent. -/
theorem flat_updateSent :
    ∀ (chain : List OutBuf) (sent : Nat), sent ≤ (flat chain).length →
      flat (ngxChainUpdateSent sent chain) = (flat chain).drop sent := by
  intro chain
  induction chain with
  | nil => intro sent _; simp [ngxChainUpdateSent]
  | cons b rest ih =>
      intro sent hle
      rw [flat_cons, List.length_append] at hle
      unfold ngxChainUpdateSent
      split_ifs with hspecial hzero hsize
      · have hb := OutBuf.bytes_of_special hspecial
        rw [hb, List.length_nil] at hle
        rw [ih sent (by omega), flat_cons, hb, List.nil_append]
      · rw [hzero, List.drop_zero]
      · have hsize' : b.bytes.length ≤ sent := hsize
        rw [ih (sent - b.size) (by unfold OutBuf.size; omega), flat_cons,
          List.drop_append, List.drop_eq_nil_of_le hsize', List.nil_append]
        rfl
      · have hsize' : sent ≤ b.bytes.length := by
          unfold OutBuf.size at hsize
          omega
        rw [flat_cons, flat_cons, List.drop_append_of_le_length hsize']
        rfl

/-- No buffer of the chain is a zero-size one. -/
def Clean (chain : List OutBuf) : Prop := ∀ b ∈ chain, b.isZero = false

theorem clean_nil : Clean [] := fun _ hb => absurd hb List.not_mem_nil

theorem Clean.append {c d : List OutBuf} (hc : Clean c) (hd : Clean d) : Clean (c ++ d) := by
  intro b hb
  rcases List.mem_append.mp hb with hb | hb
  · exact hc b hb
  · exact hd b hb

theorem clean_filter (chain : List OutBuf) : Clean (chain.filter (fun b => !b.isZero)) := by
  intro b hb
  have h := (List.mem_filter.mp hb).2
  simpa using h

theorem Clean.any_isZero {chain : List OutBuf} (h : Clean chain) :
    chain.any OutBuf.isZero = false := by
  rw [List.any_eq_false]
  intro b hb
  rw [h b hb]
  decide

/-- A buffer that is neither special nor zero-size has bytes. -/
theorem OutBuf.size_pos {b : OutBuf} (hzero : b.isZero = false) (hspecial : ¬ b.special = true) :
    0 < b.bytes.length := by
  unfold OutBuf.isZero OutBuf.size at hzero
  rw [Bool.not_eq_true] at hspecial
  rw [hspecial] at hzero
  simp only [Bool.not_false, Bool.and_true, beq_eq_false_iff_ne] at hzero
  omega

/-- Leaving zero-size buffers out takes no byte away. -/
theorem flat_filter (chain : List OutBuf) :
    flat (chain.filter (fun b => !b.isZero)) = flat chain := by
  induction chain with
  | nil => rfl
  | cons b rest ih =>
      rw [List.filter_cons]
      by_cases hzero : b.isZero = true
      · have hb : b.bytes = [] := by
          unfold OutBuf.isZero OutBuf.size at hzero
          simp only [Bool.and_eq_true, beq_iff_eq, List.length_eq_zero_iff] at hzero
          exact hzero.1
        rw [if_neg (by rw [hzero]; decide), ih, flat_cons, hb, List.nil_append]
      · rw [Bool.not_eq_true] at hzero
        rw [if_pos (by rw [hzero]; decide), flat_cons, ih, flat_cons]

theorem clean_updateSent :
    ∀ (chain : List OutBuf) (sent : Nat), Clean chain → Clean (ngxChainUpdateSent sent chain) := by
  intro chain
  induction chain with
  | nil => intro sent h; exact h
  | cons b rest ih =>
      intro sent h
      have hrest : Clean rest := fun d hd => h d (List.mem_cons_of_mem _ hd)
      unfold ngxChainUpdateSent
      split_ifs with hspecial hzero hsize
      · exact ih sent hrest
      · exact h
      · exact ih _ hrest
      · intro d hd
        rcases List.mem_cons.mp hd with hd | hd
        · -- what is left of the buffer is not empty
          rw [hd]
          unfold OutBuf.isZero OutBuf.size OutBuf.advance
          unfold OutBuf.size at hsize
          have hleft : ((b.bytes.drop sent).length == 0) = false := by
            rw [List.length_drop, beq_eq_false_iff_ne]
            omega
          dsimp only
          rw [hleft, Bool.false_and]
        · exact hrest d hd

/-- What is left begins with a buffer that has bytes, or is nothing. -/
theorem updateSent_eq_nil :
    ∀ (chain : List OutBuf) (sent : Nat), Clean chain →
      flat (ngxChainUpdateSent sent chain) = [] → ngxChainUpdateSent sent chain = [] := by
  intro chain
  induction chain with
  | nil => intro sent _ _; rfl
  | cons b rest ih =>
      intro sent h hflat
      have hrest : Clean rest := fun d hd => h d (List.mem_cons_of_mem _ hd)
      unfold ngxChainUpdateSent at hflat ⊢
      split_ifs at hflat ⊢ with hspecial hzero hsize
      · exact ih sent hrest hflat
      · have hpos := OutBuf.size_pos (h b List.mem_cons_self) hspecial
        rw [flat_cons, List.append_eq_nil_iff] at hflat
        rw [hflat.1] at hpos
        exact absurd hpos (by decide)
      · exact ih _ hrest hflat
      · rw [flat_cons, List.append_eq_nil_iff] at hflat
        have hdrop : (b.bytes.drop sent).length = 0 := by
          rw [show b.bytes.drop sent = [] from hflat.1]
          rfl
        unfold OutBuf.size at hsize
        rw [List.length_drop] at hdrop
        omega

/-- The vector is never filled beyond the chain. -/
theorem toIovec_le :
    ∀ (chain : List OutBuf) (iovs limit : Nat),
      ngxOutputChainToIovec iovs limit chain ≤ (flat chain).length := by
  intro chain
  induction chain with
  | nil => intro iovs limit; exact Nat.zero_le _
  | cons b rest ih =>
      intro iovs limit
      unfold ngxOutputChainToIovec
      rw [flat_cons, List.length_append]
      split_ifs with hlimit hspecial
      · omega
      · have h := ih iovs limit
        omega
      · cases iovs with
        | zero => exact Nat.zero_le _
        | succ iovs =>
            dsimp only
            have h := ih iovs (limit - min b.size limit)
            unfold OutBuf.size at h ⊢
            omega

/-- Something is put into it when there are bytes, places and room. -/
theorem toIovec_pos :
    ∀ (chain : List OutBuf) (iovs limit : Nat), Clean chain → flat chain ≠ [] → 0 < iovs →
      0 < limit → 0 < ngxOutputChainToIovec iovs limit chain := by
  intro chain
  induction chain with
  | nil => intro iovs limit _ hflat; exact absurd rfl hflat
  | cons b rest ih =>
      intro iovs limit h hflat hiovs hlimit
      have hrest : Clean rest := fun d hd => h d (List.mem_cons_of_mem _ hd)
      unfold ngxOutputChainToIovec
      rw [if_neg (by omega)]
      split_ifs with hspecial
      · rw [flat_cons, OutBuf.bytes_of_special hspecial, List.nil_append] at hflat
        exact ih iovs limit hrest hflat hiovs hlimit
      · have hpos := OutBuf.size_pos (h b List.mem_cons_self) hspecial
        obtain ⟨iovs, rfl⟩ := Nat.exists_eq_succ_of_ne_zero (Nat.ne_of_gt hiovs)
        dsimp only
        unfold OutBuf.size
        omega

/-- What a send has done to the chain: the bytes sent and the bytes left are those of the
chain, and a chain is returned only for bytes that are left. -/
structure SentPart (chain : List OutBuf) (r : SendResult) : Prop where
  beginning : r.sent <+: flat chain
  split : ∀ c, r.chain = some c → r.sent ++ flat c = flat chain
  clean : ∀ c, r.chain = some c → Clean c
  rest : ∀ c, r.chain = some c → flat c = [] → c = []

/-- One `writev` takes a beginning of the chain away. -/
theorem flat_step (chain : List OutBuf) (taken coalesced left : Nat) :
    (flat chain).take (min (taken + 1)
        (ngxOutputChainToIovec (ngxIovsPreallocate + coalesced) left chain))
      ++ flat (ngxChainUpdateSent (min (taken + 1)
        (ngxOutputChainToIovec (ngxIovsPreallocate + coalesced) left chain)) chain)
      = flat chain := by
  have hle := toIovec_le chain (ngxIovsPreallocate + coalesced) left
  rw [flat_updateSent chain _ (by omega), List.take_append_drop]

theorem sent_sendLoop :
    ∀ (writes : List Writev) (left : Nat) (chain : List OutBuf), Clean chain →
      SentPart chain (sendLoop writes left chain) := by
  intro writes
  induction writes with
  | nil =>
      intro left chain h
      refine ⟨List.nil_prefix, ?_, ?_, ?_⟩
      · rintro c ⟨⟩
        rw [flat_updateSent chain 0 (Nat.zero_le _)]
        rfl
      · rintro c ⟨⟩
        exact clean_updateSent chain 0 h
      · rintro c ⟨⟩ hc
        exact updateSent_eq_nil chain 0 h hc
  | cons w writes ih =>
      intro left chain h
      cases w with
      | error => exact ⟨List.nil_prefix, by rintro c ⟨⟩, by rintro c ⟨⟩, by rintro c ⟨⟩⟩
      | wrote coalesced taken =>
          have hstep := flat_step chain taken coalesced left
          unfold sendLoop
          dsimp only
          split_ifs with hall
          · refine ⟨List.take_prefix _ _, ?_, ?_, ?_⟩
            · rintro c ⟨⟩
              exact hstep
            · rintro c ⟨⟩
              exact clean_updateSent chain _ h
            · rintro c ⟨⟩ hc
              exact updateSent_eq_nil chain _ h hc
          · -- the rest of the chain is sent by the rest of the answers
            have hmore := ih (left - min (taken + 1)
              (ngxOutputChainToIovec (ngxIovsPreallocate + coalesced) left chain))
              _ (clean_updateSent chain (min (taken + 1)
                (ngxOutputChainToIovec (ngxIovsPreallocate + coalesced) left chain)) h)
            refine ⟨?_, ?_, hmore.clean, hmore.rest⟩
            · dsimp only
              conv_rhs => rw [← hstep]
              exact (List.prefix_append_right_inj _).mpr hmore.beginning
            · intro c hc
              dsimp only at hc ⊢
              rw [List.append_assoc, hmore.split c hc, hstep]

theorem sent_sendChain (conf : OutputConf) (answer : SendAnswer) {chain : List OutBuf}
    (h : Clean chain) (hne : flat chain ≠ []) : SentPart chain (sendChain conf answer chain) := by
  unfold sendChain
  dsimp only
  split_ifs with hready hlimit
  · exact sent_sendLoop _ _ chain h
  · exact sent_sendLoop _ _ chain h
  · refine ⟨List.nil_prefix, ?_, ?_, ?_⟩
    · rintro c ⟨⟩
      rfl
    · rintro c ⟨⟩
      exact h
    · rintro c ⟨⟩ hc
      exact absurd hc hne

end NginxNettyHls.Nginx
