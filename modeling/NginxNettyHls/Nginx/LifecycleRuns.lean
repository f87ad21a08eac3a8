/-
  NginxNettyHls.Nginx.LifecycleRuns
  ─────────────────────────────────
  **EVERY RUN OF A PLAYSEEK REQUEST.**

  Between two events a request is in one of five states of rest: it waits for the
  upstream server, it is writing to the client, it is closed lingeringly, it has
  been freed, or the worker has crashed in `hlsm3u8_pr_post_handler`.  Every event
  leads from one of them to one of them (`rest_step`), so over any sequence of
  events

    • the reference counter is the number of requests that are not done, nothing is
      freed twice or used after it was freed, and the main request is woken once
      (`lifecycle_safe`);
    • three timers are enough to end any request (`timers_end`);
    • an event that cannot be registered is the exception: the request is used after
      it was freed (`unregistered_used_after_free`).
-/
import NginxNettyHls.Nginx.Lifecycle

namespace NginxNettyHls.Nginx

namespace Lifecycle

/-! ## §1. States of rest. -/

/-- Of the alerts only the one of a header that is sent again. -/
def OnlyResent (alerts : List Alert) : Prop := ∀ a ∈ alerts, a = .headerAlreadySent

theorem onlyResent_nil : OnlyResent [] := by
  intro a ha
  simp at ha

theorem OnlyResent.alert {s : State} (h : OnlyResent s.alerts) :
    OnlyResent (alert .headerAlreadySent s).alerts := by
  intro a ha
  rcases List.mem_append.mp ha with hold | hnew
  · exact h a hold
  · exact List.mem_singleton.mp hnew

/-- What holds until the request is freed, once the upstream request is finalized. -/
structure Held (s : State) : Prop where
  destroyed : s.destroyed = false
  crashed : s.crashed = false
  cleanup : s.cleanup = false
  frees : s.frees = 0
  alerts : OnlyResent s.alerts

/-- The main request alone, with `n` references to it. -/
structure Alive (n : Nat) (s : State) : Prop extends Held s where
  count : s.count = n
  active : s.active = .main
  postponed : s.postponed = false
  lingering : s.lingering = false
  /-- It has been woken if there was a subrequest. -/
  entered : s.entered = if s.subDone then 1 else 0

/-- It waits for the upstream server. -/
structure Waiting (s : State) : Prop where
  count : s.count = 2
  active : s.active = .sub
  posted : s.posted = []
  postponed : s.postponed = true
  mainHandler : s.mainHandler = .writer
  subHandler : s.subHandler = .checkBroken
  error : s.error = false
  destroyed : s.destroyed = false
  subDone : s.subDone = false
  subLogged : s.subLogged = false
  cleanup : s.cleanup = true
  lingering : s.lingering = false
  crashed : s.crashed = false
  frees : s.frees = 0
  entered : s.entered = 0
  alerts : OnlyResent s.alerts

/-- It is writing to the client. -/
structure Writing (s : State) : Prop extends Alive 1 s where
  mainHandler : s.mainHandler = .writer
  posted : s.posted = []

/-- It is closed lingeringly. -/
structure Lingering (s : State) : Prop extends Held s where
  count : s.count = 1
  postponed : s.postponed = false
  lingers : s.lingering = true
  posted : s.posted = []
  entered : s.entered = if s.subDone then 1 else 0

/-- It has been freed. -/
structure Gone (s : State) : Prop where
  destroyed : s.destroyed = true
  crashed : s.crashed = false
  frees : s.frees = 1
  alerts : OnlyResent s.alerts
  entered : s.entered ≤ 1

/-- The worker has crashed. -/
structure Crashed (s : State) : Prop where
  crashed : s.crashed = true
  destroyed : s.destroyed = false
  frees : s.frees = 0
  alerts : OnlyResent s.alerts
  entered : s.entered = 1

/-- A state of rest without a subrequest. -/
inductive Settled (s : State) : Prop
  | writing (h : Writing s)
  | lingering (h : Lingering s)
  | gone (h : Gone s)
  | crashed (h : Crashed s)

/-- A state of rest. -/
inductive Rest (s : State) : Prop
  | waiting (h : Waiting s)
  | settled (h : Settled s)

/-- It has been posted to be closed. -/
structure Terminating (s : State) : Prop extends Held s where
  posted : s.posted = [.main]
  mainHandler : s.mainHandler = .terminate
  entered : s.entered ≤ 1

/-! ## §2. Closing. -/

theorem touch_eq {s : State} (h : s.destroyed = false) : touch s = s := by
  unfold touch
  rw [h]
  rfl

theorem upstreamCleanup_eq (io : Answers) {s : State} (h : s.cleanup = false) :
    ngxHttpUpstreamCleanup io s = s := by
  unfold ngxHttpUpstreamCleanup
  rw [if_neg (by simp [h])]

theorem Alive.entered_le {n : Nat} {s : State} (h : Alive n s) : s.entered ≤ 1 := by
  rw [h.entered]
  split_ifs <;> omega

/-- Freeing a request whose upstream request is finalized. -/
theorem ngxHttpFreeRequest_eq (io : Answers) {s : State} (h : Held s) :
    ngxHttpFreeRequest io s = { s with frees := 1, destroyed := true } := by
  simp [ngxHttpFreeRequest, ngxHttpUpstreamCleanup, freeRequest, h.destroyed, h.cleanup, h.frees]

/-- The last reference is given back. -/
theorem closeRequest_last (io : Answers) {s : State} (h : Held s) (hcount : s.count = 1) :
    ngxHttpCloseRequest io s = { s with count := 0, frees := 1, destroyed := true } := by
  have hfree := ngxHttpFreeRequest_eq io (s := { s with count := 0 })
    ⟨h.destroyed, h.crashed, h.cleanup, h.frees, h.alerts⟩
  have hclose : ngxHttpCloseRequest io s = ngxHttpFreeRequest io { s with count := 0 } := by
    simp [ngxHttpCloseRequest, closeRequestWith, touch_eq h.destroyed, hcount]
  rw [hclose, hfree]

theorem gone_closeRequest (io : Answers) {s : State} (h : Held s) (hcount : s.count = 1)
    (hentered : s.entered ≤ 1) : Gone (ngxHttpCloseRequest io s) := by
  rw [closeRequest_last io h hcount]
  exact ⟨rfl, h.crashed, rfl, h.alerts, hentered⟩

/-- One of several references is given back. -/
theorem closeRequest_lower (free : State → State) {s : State} {n : Nat}
    (h : s.destroyed = false) (hcount : s.count = n + 2) (hn : n + 2 < 65536) :
    closeRequestWith free s = { s with count := n + 1 } := by
  have hmod : (n + 2 + 65535) % 65536 = n + 1 := by omega
  simp [closeRequestWith, touch_eq h, hcount, hmod]

theorem finalizeConnection_lower (free : State → State) (io : Answers) {s : State} {n : Nat}
    (h : s.destroyed = false) (hcount : s.count = n + 2) (hn : n + 2 < 65536) :
    finalizeConnectionWith free io s = { s with count := n + 1 } := by
  have hne : s.count ≠ 1 := by omega
  unfold finalizeConnectionWith
  rw [touch_eq h]
  simp only [if_pos hne]
  exact closeRequest_lower free h hcount hn

/-- The end of the connection when the last reference is held. -/
theorem finalizeConnection_last (io : Answers) {s : State} (h : Held s) (hcount : s.count = 1)
    (hpostponed : s.postponed = false) (hposted : s.posted = [])
    (hentered : s.entered = if s.subDone then 1 else 0) :
    Lingering (ngxHttpFinalizeConnection io s) ∨ Gone (ngxHttpFinalizeConnection io s) := by
  have hle : s.entered ≤ 1 := by
    rw [hentered]
    split_ifs <;> omega
  unfold ngxHttpFinalizeConnection finalizeConnectionWith
  rw [touch_eq h.destroyed]
  dsimp only
  split_ifs with hcount' hkeep hlinger
  · exact absurd hcount hcount'
  · have hfree := ngxHttpFreeRequest_eq io (s := { s with keepalive := false })
      ⟨h.destroyed, h.crashed, h.cleanup, h.frees, h.alerts⟩
    rw [hfree]
    exact Or.inr ⟨rfl, h.crashed, rfl, h.alerts, hle⟩
  · exact Or.inl ⟨⟨h.destroyed, h.crashed, h.cleanup, h.frees, h.alerts⟩, hcount, hpostponed, rfl,
      hposted, hentered⟩
  · exact Or.inr (gone_closeRequest io h hcount hle)

/-- Terminating a request that has no upstream request left. -/
theorem terminating_terminateRequest (io : Answers) {s : State} (h : Held s)
    (hentered : s.entered ≤ 1) :
    Terminating (ngxHttpTerminateRequest io s)
      ∧ (ngxHttpTerminateRequest io s).count = s.count := by
  have heq : ngxHttpTerminateRequest io s
      = { s with posted := [.main], mainHandler := .terminate } := by
    unfold ngxHttpTerminateRequest
    rw [touch_eq h.destroyed, upstreamCleanup_eq io h.cleanup]
  rw [heq]
  exact ⟨⟨⟨h.destroyed, h.crashed, h.cleanup, h.frees, h.alerts⟩, rfl, rfl, hentered⟩, rfl⟩

/-! ## §3. Finalizing the main request. -/

/-- What finalizing a request with `n` references leaves. -/
inductive Finalized : Nat → State → Prop
  | writing {n : Nat} {s : State} (h : Alive n s) (hw : s.mainHandler = .writer)
      (hp : s.posted = []) : Finalized n s
  | lowered {n : Nat} {s : State} (h : Alive (n + 1) s) (hp : s.posted = []) :
      Finalized (n + 2) s
  | lingering {s : State} (h : Lingering s) : Finalized 1 s
  | gone {s : State} (h : Gone s) : Finalized 1 s
  | terminating {n : Nat} {s : State} (h : Terminating s) (hcount : s.count = n) : Finalized n s

/-- The main request alone, in the middle of an event. -/
structure Running (n : Nat) (s : State) : Prop extends Alive n s where
  posted : s.posted = []

variable {io : Answers}

/-- Finalizing an event leaves a request with `n + 1` references. -/
theorem finalized_connection {n : Nat} {s : State} (h : Running (n + 1) s) (hn : n < 65535) :
    Finalized (n + 1) (ngxHttpFinalizeConnection io s) := by
  cases n with
  | zero =>
      rcases finalizeConnection_last io h.toHeld h.count h.postponed h.posted h.entered
        with hl | hg
      · exact .lingering hl
      · exact .gone hg
  | succ n =>
      have heq : ngxHttpFinalizeConnection io s = { s with count := n + 1 } :=
        finalizeConnection_lower _ io h.destroyed h.count (by omega)
      rw [heq]
      exact .lowered ⟨⟨h.destroyed, h.crashed, h.cleanup, h.frees, h.alerts⟩, rfl, h.active,
        h.postponed, h.lingering, h.entered⟩ h.posted

theorem finalized_close {n : Nat} {s : State} (h : Running (n + 1) s) (hn : n < 65535) :
    Finalized (n + 1) (ngxHttpCloseRequest io s) := by
  cases n with
  | zero => exact .gone (gone_closeRequest io h.toHeld h.count h.entered_le)
  | succ n =>
      have heq : ngxHttpCloseRequest io s = { s with count := n + 1 } :=
        closeRequest_lower _ h.destroyed h.count (by omega)
      rw [heq]
      exact .lowered ⟨⟨h.destroyed, h.crashed, h.cleanup, h.frees, h.alerts⟩, rfl, h.active,
        h.postponed, h.lingering, h.entered⟩ h.posted

theorem Running.withHandler {n : Nat} {s : State} (h : Running n s) (w : EventHandler) :
    Running n { s with mainHandler := w } :=
  ⟨⟨⟨h.destroyed, h.crashed, h.cleanup, h.frees, h.alerts⟩, h.count, h.active, h.postponed,
    h.lingering, h.entered⟩, h.posted⟩

theorem finalized_sent (hreg : io.registers = true) {n : Nat} {s : State}
    (h : Running (n + 1) s) (hn : n < 65535) : Finalized (n + 1) (finalizeSent io s) := by
  unfold finalizeSent ngxHttpSetWriteHandler
  simp only [hreg, if_true]
  split_ifs with hbuffered hactive heof
  · exact .writing (h.withHandler .writer).toAlive rfl h.posted
  · exact absurd h.active hactive
  · exact finalized_close (h.withHandler .empty) hn
  · exact finalized_connection (h.withHandler .empty) hn

theorem finalized_terminate {n : Nat} {s : State} (h : Running n s) :
    Finalized n (ngxHttpTerminateRequest io s) := by
  obtain ⟨ht, hcount⟩ := terminating_terminateRequest io h.toHeld h.entered_le
  exact .terminating ht (hcount.trans h.count)

theorem finalized_plain (hreg : io.registers = true) {n : Nat} {s : State}
    (h : Running (n + 1) s) (hn : n < 65535) (rc : Int) :
    Finalized (n + 1) (finalizePlain io s rc) := by
  unfold finalizePlain
  rw [touch_eq h.destroyed]
  split_ifs with hdone hterm
  · exact finalized_connection h hn
  · exact finalized_terminate h
  · exact finalized_sent hreg h hn

theorem Running.filtered {n : Nat} {s : State} (h : Running n s) (failed : Bool) :
    Running n (filtered io failed s) :=
  ⟨⟨⟨h.destroyed, h.crashed, h.cleanup, h.frees, h.alerts⟩, h.count, h.active, h.postponed,
    h.lingering, h.entered⟩, h.posted⟩

theorem Running.specialResponse {n : Nat} {s : State} (h : Running n s) :
    Running n (specialResponse io s).1 := by
  unfold Lifecycle.specialResponse
  split_ifs
  · exact ⟨⟨⟨h.destroyed, h.crashed, h.cleanup, h.frees, h.alerts.alert⟩, h.count, h.active,
      h.postponed, h.lingering, h.entered⟩, h.posted⟩
  · exact ⟨⟨⟨h.destroyed, h.crashed, h.cleanup, h.frees, h.alerts⟩, h.count, h.active,
      h.postponed, h.lingering, h.entered⟩, h.posted⟩

theorem finalized_once (hreg : io.registers = true) {n : Nat} {s : State}
    (h : Running (n + 1) s) (hn : n < 65535) (rc : Int) :
    Finalized (n + 1) (finalizeOnce io s rc) := by
  unfold finalizeOnce
  split_ifs
  · exact finalized_terminate h
  · exact finalized_plain hreg h.specialResponse hn _
  · exact finalized_plain hreg h hn rc

/-- The `NGX_DONE` after an error page gives back the reference it has taken. -/
theorem finalized_done {s : State} (h : Finalized 2 s) :
    Finalized 1 (finalizePlain io s ngxDone) := by
  have hplain : finalizePlain io s ngxDone = ngxHttpFinalizeConnection io s := rfl
  rw [hplain]
  cases h with
  | writing ha hw hp =>
      have heq : ngxHttpFinalizeConnection io s = { s with count := 0 + 1 } :=
        finalizeConnection_lower _ io ha.destroyed ha.count (by omega)
      rw [heq]
      exact .writing ⟨⟨ha.destroyed, ha.crashed, ha.cleanup, ha.frees, ha.alerts⟩, rfl, ha.active,
        ha.postponed, ha.lingering, ha.entered⟩ hw hp
  | lowered ha hp => exact finalized_connection ⟨ha, hp⟩ (by omega)
  | terminating ht hcount =>
      have heq : ngxHttpFinalizeConnection io s = { s with count := 0 + 1 } :=
        finalizeConnection_lower _ io ht.destroyed hcount (by omega)
      rw [heq]
      exact .terminating ⟨⟨ht.destroyed, ht.crashed, ht.cleanup, ht.frees, ht.alerts⟩, ht.posted,
        ht.mainHandler, ht.entered⟩ rfl

/-- **Finalizing the main request**, with any code and with or without an error page. -/
theorem finalized_request (hreg : io.registers = true) {s : State} (h : Running 1 s) (rc : Int) :
    Finalized 1 (ngxHttpFinalizeRequest io s rc) := by
  unfold ngxHttpFinalizeRequest
  cases io.errorPage with
  | none => exact finalized_once hreg h (by omega) rc
  | some page =>
      dsimp only
      split_ifs
      · apply finalized_done
        apply finalized_once hreg (n := 1) _ (by omega)
        apply Running.filtered
        exact ⟨⟨⟨h.destroyed, h.crashed, h.cleanup, h.frees, h.alerts⟩,
          by rw [h.count], h.active, h.postponed, h.lingering, h.entered⟩, h.posted⟩
      · exact finalized_once hreg h (by omega) rc

/-! ## §4. The posted requests. -/

theorem runPosted_nil {s : State} (h : s.posted = []) :
    ∀ n, ngxHttpRunPostedRequests io n s = s := by
  intro n
  cases n with
  | zero => rfl
  | succ n =>
      unfold ngxHttpRunPostedRequests
      rw [h]
      split_ifs <;> rfl

theorem runPosted_over {s : State} (h : s.destroyed ∨ s.crashed) :
    ∀ n, ngxHttpRunPostedRequests io n s = s := by
  intro n
  cases n with
  | zero => rfl
  | succ n =>
      unfold ngxHttpRunPostedRequests
      rw [if_pos h]

theorem runPosted_cons {s : State} (hd : s.destroyed = false) (hc : s.crashed = false)
    {r : Req} {rest : List Req} (h : s.posted = r :: rest) (n : Nat) :
    ngxHttpRunPostedRequests io (n + 1) s
      = ngxHttpRunPostedRequests io n (writeEventHandler io r { s with posted := rest }) := by
  rw [ngxHttpRunPostedRequests, if_neg (by simp [hd, hc]), h]

theorem writeEventHandler_terminate {s : State} (h : s.mainHandler = .terminate) :
    writeEventHandler io .main s = ngxHttpTerminateHandler io s := by
  unfold writeEventHandler
  rw [h]

theorem writeEventHandler_prPost {s : State} (h : s.mainHandler = .prPost) :
    writeEventHandler io .main s = hlsm3u8PrPost io s := by
  unfold writeEventHandler
  rw [h]

theorem writeEventHandler_writer {s : State} (h : s.mainHandler = .writer) :
    writeEventHandler io .main s = ngxHttpWriter io s := by
  unfold writeEventHandler
  rw [h]

theorem writeEventHandler_handler {s : State} (h : s.subHandler = .handler) :
    writeEventHandler io .sub s = subContentPhase io s := by
  unfold writeEventHandler
  rw [h]

theorem writeEventHandler_checkBroken {s : State} (h : s.subHandler = .checkBroken) :
    writeEventHandler io .sub s = checkBrokenConnection io s := by
  unfold writeEventHandler
  rw [h]

/-- A request that is posted to be closed is closed. -/
theorem gone_terminating {s : State} (h : Terminating s) (n : Nat) :
    Gone (ngxHttpRunPostedRequests io (n + 1) s) := by
  rw [runPosted_cons h.destroyed h.crashed h.posted]
  have hgone : Gone (writeEventHandler io .main { s with posted := [] }) := by
    rw [writeEventHandler_terminate (s := { s with posted := [] }) h.mainHandler]
    unfold ngxHttpTerminateHandler
    exact gone_closeRequest io ⟨h.destroyed, h.crashed, h.cleanup, h.frees, h.alerts⟩ rfl
      h.entered
  rw [runPosted_over (Or.inl hgone.destroyed)]
  exact hgone

/-- What finalizing leaves comes to rest. -/
theorem Finalized.settled {s : State} (h : Finalized 1 s) (n : Nat) :
    Settled (ngxHttpRunPostedRequests io (n + 1) s) := by
  cases h with
  | writing ha hw hp =>
      rw [runPosted_nil hp]
      exact .writing ⟨ha, hw, hp⟩
  | lingering hl =>
      rw [runPosted_nil hl.posted]
      exact .lingering hl
  | gone hg =>
      rw [runPosted_over (Or.inl hg.destroyed)]
      exact .gone hg
  | terminating ht _ => exact .gone (gone_terminating ht n)

/-! ## §5. The end of the subrequest. -/

/-- The subrequest is about to end; `n` further references are held. -/
structure Ending (n : Nat) (s : State) : Prop extends Held s where
  count : s.count = n + 2
  active : s.active = .sub
  posted : s.posted = []
  subLogged : s.subLogged = false
  lingering : s.lingering = false
  entered : s.entered = 0

/-- The main request has been posted to be woken. -/
structure Woken (n : Nat) (s : State) : Prop extends Held s where
  count : s.count = n + 1
  active : s.active = .main
  posted : s.posted = [.main]
  postponed : s.postponed = false
  mainHandler : s.mainHandler = .prPost
  lingering : s.lingering = false
  subDone : s.subDone = true
  entered : s.entered = 0

theorem detachSub_eq {s : State} (hlogged : s.subLogged = false) :
    detachSub s = { s with count := (s.count + 65535) % 65536, subDone := true,
                           postponed := false, active := .main, subLogged := true } :=
  if_neg (by simp [hlogged])

theorem finalizeSub_eq {s : State} (hactive : s.active = .sub) (herror : s.error = false) :
    finalizeSub io s
      = if io.posts then ngxHttpPostRequest .main (detachSub s)
        else ngxHttpTerminateRequest io
          { detachSub s with count := (detachSub s).count + 1 } := by
  unfold finalizeSub
  rw [if_neg (by simp [herror])]
  simp only [if_pos hactive]

theorem finalizeSub_error {s : State} (herror : s.error = true) :
    finalizeSub io s = ngxHttpTerminateRequest io s :=
  if_pos herror

/-- **The subrequest wakes the main request** once, unless the connection has failed or
there is no memory to post it. -/
theorem woken_finalizeSub {n : Nat} (hn : n < 65534) {s : State} (h : Ending n s)
    (hhandler : s.mainHandler = .prPost) :
    Woken n (finalizeSub io s)
      ∨ (Terminating (finalizeSub io s) ∧ (finalizeSub io s).count = n + 2) := by
  have hcount : (s.count + 65535) % 65536 = n + 1 := by
    have := h.count
    omega
  have hentered : s.entered ≤ 1 := by
    rw [h.entered]
    omega
  cases herror : s.error with
  | true =>
      rw [finalizeSub_error herror]
      obtain ⟨ht, hsame⟩ := terminating_terminateRequest io h.toHeld hentered
      exact Or.inr ⟨ht, hsame.trans h.count⟩
  | false =>
      rw [finalizeSub_eq h.active herror, detachSub_eq h.subLogged, hcount]
      split_ifs with hposts
      · unfold ngxHttpPostRequest
        refine Or.inl ⟨⟨h.destroyed, h.crashed, h.cleanup, h.frees, h.alerts⟩, rfl, rfl, ?_,
          rfl, hhandler, h.lingering, rfl, h.entered⟩
        show s.posted ++ [.main] = [.main]
        rw [h.posted]
        rfl
      · obtain ⟨ht, hsame⟩ := terminating_terminateRequest io (s := { s with
          count := n + 1 + 1, subDone := true, postponed := false, active := .main,
          subLogged := true })
          ⟨h.destroyed, h.crashed, h.cleanup, h.frees, h.alerts⟩ hentered
        exact Or.inr ⟨ht, hsame⟩

/-- So it does whatever it has ended with. -/
theorem woken_finalizeSubrequest {n : Nat} (hn : n < 65534) {s : State} (h : Ending n s)
    {fin : SubrequestEnd} (hfin : fin.rc ≠ ngxDone) :
    Woken n (ngxHttpFinalizeSubrequest io s fin)
      ∨ (Terminating (ngxHttpFinalizeSubrequest io s fin)
          ∧ (ngxHttpFinalizeSubrequest io s fin).count = n + 2) := by
  unfold ngxHttpFinalizeSubrequest
  rw [if_neg hfin, touch_eq h.destroyed]
  apply woken_finalizeSub hn _ rfl
  exact ⟨⟨h.destroyed, h.crashed, h.cleanup, h.frees, h.alerts⟩, h.count, h.active, h.posted,
    h.subLogged, h.lingering, h.entered⟩

/-- `hlsm3u8_pr_post_handler` on the main request that has been woken. -/
theorem prPost_finalized (hreg : io.registers = true) {s : State} (h : Woken 0 s) :
    Crashed (hlsm3u8PrPost io { s with posted := [] })
      ∨ Finalized 1 (hlsm3u8PrPost io { s with posted := [] }) := by
  have hrun : ∀ s' : State, s'.destroyed = s.destroyed → s'.crashed = s.crashed →
      s'.cleanup = s.cleanup → s'.frees = s.frees → s'.alerts = s.alerts → s'.count = s.count →
      s'.active = s.active → s'.postponed = s.postponed → s'.lingering = s.lingering →
      s'.subDone = s.subDone → s'.entered = s.entered + 1 → s'.posted = [] → Running 1 s' := by
    intro s' h1 h2 h3 h4 h5 h6 h7 h8 h9 h10 h11 h12
    refine ⟨⟨⟨h1.trans h.destroyed, h2.trans h.crashed, h3.trans h.cleanup, h4.trans h.frees,
      h5 ▸ h.alerts⟩, h6.trans h.count, h7.trans h.active, h8.trans h.postponed,
      h9.trans h.lingering, ?_⟩, h12⟩
    rw [h11, h10, h.entered, h.subDone]
    rfl
  unfold hlsm3u8PrPost
  dsimp only
  cases hlsm3u8PrPostHandler io.lib io.out s.answer with
  | nullRead => exact Or.inl ⟨rfl, h.destroyed, h.frees, h.alerts, by simp [h.entered]⟩
  | fault f => exact Or.inl ⟨rfl, h.destroyed, h.frees, h.alerts, by simp [h.entered]⟩
  | finalized rc =>
      right
      dsimp only
      split_ifs
      · apply finalized_request hreg
        exact hrun _ rfl rfl rfl rfl rfl rfl rfl rfl rfl rfl rfl rfl
      · apply finalized_request hreg
        exact hrun _ rfl rfl rfl rfl rfl rfl rfl rfl rfl rfl rfl rfl

/-- The main request that has been woken comes to rest. -/
theorem Woken.settled (hreg : io.registers = true) {s : State} (h : Woken 0 s) (n : Nat) :
    Settled (ngxHttpRunPostedRequests io (n + 2) s) := by
  rw [runPosted_cons h.destroyed h.crashed h.posted]
  rw [writeEventHandler_prPost (s := { s with posted := [] }) h.mainHandler]
  rcases prPost_finalized hreg h with hc | hf
  · rw [runPosted_over (Or.inr hc.crashed)]
    exact .crashed hc
  · exact hf.settled n

/-- The end of the subrequest comes to rest. -/
theorem settled_of_woken (hreg : io.registers = true) {s : State} {m : Nat}
    (h : Woken 0 s ∨ (Terminating s ∧ s.count = m)) (n : Nat) :
    Settled (ngxHttpRunPostedRequests io (n + 2) s) := by
  rcases h with hw | ⟨ht, _⟩
  · exact hw.settled hreg n
  · exact .gone (gone_terminating ht (n + 1))

/-- `NGX_DONE` after the end of the subrequest gives back one reference. -/
theorem woken_done {s : State}
    (h : Woken 1 s ∨ (Terminating s ∧ s.count = 3)) :
    Woken 0 (ngxHttpFinalizeConnection io s)
      ∨ (Terminating (ngxHttpFinalizeConnection io s)
          ∧ (ngxHttpFinalizeConnection io s).count = 2) := by
  rcases h with hw | ⟨ht, hcount⟩
  · have heq : ngxHttpFinalizeConnection io s = { s with count := 0 + 1 } :=
      finalizeConnection_lower _ io hw.destroyed hw.count (by omega)
    rw [heq]
    exact Or.inl ⟨⟨hw.destroyed, hw.crashed, hw.cleanup, hw.frees, hw.alerts⟩, rfl, hw.active,
      hw.posted, hw.postponed, hw.mainHandler, hw.lingering, hw.subDone, hw.entered⟩
  · have heq : ngxHttpFinalizeConnection io s = { s with count := 1 + 1 } :=
      finalizeConnection_lower _ io ht.destroyed hcount (by omega)
    rw [heq]
    exact Or.inr ⟨⟨⟨ht.destroyed, ht.crashed, ht.cleanup, ht.frees, ht.alerts⟩, ht.posted,
      ht.mainHandler, ht.entered⟩, rfl⟩

/-! ## §6. The first event. -/

/-- The codes a subrequest can end with when the upstream server does not redirect. -/
def EndCode (rc : Int) : Prop := rc ≠ ngxDone ∧ rc ≠ ngxDeclined

/-- Events can be registered, and subrequests end with codes of their own. -/
structure Answers.Ordinary (io : Answers) : Prop where
  registers : io.registers = true
  started : ∀ fin, io.proxy = .ended fin → EndCode fin.rc
  finished : ∀ fin, io.upstream = some fin → EndCode fin.rc

/-- The handler has returned, and the subrequest has not run yet. -/
structure Started (s : State) : Prop extends Held s where
  count : s.count = 2
  active : s.active = .sub
  posted : s.posted = [.sub]
  postponed : s.postponed = true
  mainHandler : s.mainHandler = .writer
  subHandler : s.subHandler = .handler
  error : s.error = false
  subDone : s.subDone = false
  subLogged : s.subLogged = false
  lingering : s.lingering = false
  entered : s.entered = 0

/-- `ngx_http_finalize_request` with a code that is neither an end nor a response of its
own. -/
theorem finalizeRequest_sent {s : State} (hd : s.destroyed = false) (he : s.error = false)
    {rc : Int} (hspecial : ¬ Special rc) (hterm : ¬ Terminates rc) (hdone : rc ≠ ngxDone) :
    ngxHttpFinalizeRequest io s rc = finalizeSent io s := by
  have honce : finalizeOnce io s rc = finalizeSent io s := by
    unfold finalizeOnce finalizePlain
    rw [if_neg (fun h => hspecial h.1), if_neg hdone, if_neg (by simp [hterm, he]), touch_eq hd]
  unfold ngxHttpFinalizeRequest
  cases io.errorPage with
  | none => exact honce
  | some page =>
      dsimp only
      rw [if_neg (fun h => hspecial h.1), honce]

theorem finalizeSent_postponed (hreg : io.registers = true) {s : State}
    (h : s.postponed = true) : finalizeSent io s = { s with mainHandler := .writer } := by
  unfold finalizeSent ngxHttpSetWriteHandler
  simp only [hreg, if_true, h, or_true]

/-- `ngx_http_finalize_request` with `NGX_OK` finds the subrequest postponed. -/
theorem started (hreg : io.registers = true) (keepalive : Bool) :
    Started (ngxHttpFinalizeRequest io (ngxHttpSubrequest (initial keepalive)) ngxOk) := by
  have hsub : ngxHttpSubrequest (initial keepalive) = { initial keepalive with
      active := .sub, posted := [.sub], postponed := true, subHandler := .handler,
      count := 2 } := rfl
  rw [hsub, finalizeRequest_sent rfl rfl (by decide) (by decide) (by decide),
    finalizeSent_postponed hreg rfl]
  exact ⟨⟨rfl, rfl, rfl, rfl, onlyResent_nil⟩, rfl, rfl, rfl, rfl, rfl, rfl, rfl, rfl, rfl, rfl,
    rfl⟩

/-- The content phase of the subrequest. -/
theorem contentPhase_cases (hio : io.Ordinary) {s : State} (h : Started s) :
    (∃ m, Woken 0 (subContentPhase io { s with posted := [] })
        ∨ (Terminating (subContentPhase io { s with posted := [] })
            ∧ (subContentPhase io { s with posted := [] }).count = m))
      ∨ Waiting (subContentPhase io { s with posted := [] }) := by
  have hinternal : ngxHttpInternalServerError ≠ ngxDone := by decide
  have hending : ∀ (n : Nat) (w : EventHandler), Ending n { s with
      posted := [], subHandler := w, count := n + 2 } := by
    intro n w
    exact ⟨⟨h.destroyed, h.crashed, h.cleanup, h.frees, h.alerts⟩, rfl, h.active, rfl,
      h.subLogged, h.lingering, h.entered⟩
  unfold subContentPhase
  rw [h.count]
  cases hproxy : io.proxy with
  | refused =>
      exact Or.inl ⟨_, woken_finalizeSubrequest (by omega) (hending 0 .empty) hinternal⟩
  | early =>
      exact Or.inl ⟨_, woken_done
        (woken_finalizeSubrequest (by omega) (hending 1 .empty) hinternal)⟩
  | ended fin =>
      refine Or.inl ⟨_, woken_done ?_⟩
      have hfin := hio.started fin hproxy
      have hcleanup : s.cleanup = false := h.cleanup
      unfold ngxHttpUpstreamFinalizeRequest
      rw [if_pos rfl]
      have hend := hending 1 .checkBroken
      rw [hcleanup] at hend
      exact woken_finalizeSubrequest (by omega) hend hfin.1
  | pending =>
      right
      have hlower := finalizeConnection_lower (ngxHttpFreeRequest io) io (n := 1) (s := { s with
        posted := [], subHandler := .checkBroken, count := 2 + 1, cleanup := true })
        h.destroyed rfl (by omega)
      unfold ngxHttpFinalizeConnection
      dsimp only
      rw [hlower]
      exact ⟨rfl, h.active, rfl, h.postponed, h.mainHandler, rfl, h.error, h.destroyed, h.subDone,
        h.subLogged, rfl, h.lingering, h.crashed, h.frees, h.entered, h.alerts⟩

/-- The main request before its handler has run. -/
theorem running_initial (keepalive : Bool) : Running 1 (initial keepalive) :=
  ⟨⟨⟨rfl, rfl, rfl, rfl, onlyResent_nil⟩, rfl, rfl, rfl, rfl, rfl⟩, rfl⟩

/-- **After the event the handler is called in** the request is at rest. -/
theorem rest_contentPhase (hio : io.Ordinary) (keepalive : Bool) :
    Rest (ngxHttpCoreContentPhase keepalive io) := by
  unfold ngxHttpCoreContentPhase
  cases io.refusal with
  | some refusal =>
      exact .settled ((finalized_request hio.registers (running_initial keepalive) _).settled 7)
  | none =>
      have hstart := started hio.registers keepalive
      dsimp only
      generalize ngxHttpFinalizeRequest io (ngxHttpSubrequest (initial keepalive)) ngxOk = s
        at hstart ⊢
      rw [runPosted_cons hstart.destroyed hstart.crashed hstart.posted,
        writeEventHandler_handler (s := { s with posted := [] }) hstart.subHandler]
      rcases contentPhase_cases hio hstart with ⟨m, hw⟩ | hw
      · exact .settled (settled_of_woken hio.registers hw 5)
      · rw [runPosted_nil hw.posted]
        exact .waiting hw

/-! ## §7. Every later event. -/

theorem Answers.Ordinary.resume (h : io.Ordinary) : io.resume.Ordinary := by
  unfold Answers.resume
  split_ifs
  · exact ⟨h.registers, h.started, h.finished⟩
  · exact h

/-- Waiting, the upstream request is finalized. -/
theorem settled_upstreamFinalize (hreg : io.registers = true) {s : State} (h : Waiting s)
    (error : Bool) {fin : SubrequestEnd} (hfin : fin.rc ≠ ngxDone) :
    Settled (ngxHttpRunPostedRequests io 8
      (ngxHttpUpstreamFinalizeRequest io { s with error := error } fin)) := by
  have heq : ngxHttpUpstreamFinalizeRequest io { s with error := error } fin
      = ngxHttpFinalizeSubrequest io { s with error := error, cleanup := false } fin := by
    unfold ngxHttpUpstreamFinalizeRequest
    rw [if_pos h.cleanup]
  rw [heq]
  apply settled_of_woken hreg
  apply woken_finalizeSubrequest (by omega) _ hfin
  exact ⟨⟨h.destroyed, h.crashed, rfl, h.frees, h.alerts⟩, h.count, h.active, h.posted,
    h.subLogged, h.lingering, h.entered⟩

/-- Waiting, the client's connection is looked at. -/
theorem rest_checkBroken (hreg : io.registers = true) {s : State} (h : Waiting s) :
    Rest (ngxHttpRunPostedRequests io 8 (checkBrokenConnection io s)) := by
  unfold checkBrokenConnection
  split_ifs
  · have hcode : (499 : Int) ≠ ngxDone := by decide
    exact .settled (settled_upstreamFinalize hreg h true hcode)
  · rw [runPosted_nil h.posted]
    exact .waiting h

theorem rest_waiting (hio : io.Ordinary) {s : State} (h : Waiting s) (e : Event) :
    Rest (ngxHttpRunPostedRequests io 8 (dispatch e io s)) := by
  cases e with
  | upstream =>
      unfold dispatch
      rw [h.cleanup]
      cases hup : io.upstream with
      | none =>
          dsimp only
          rw [runPosted_nil h.posted]
          exact .waiting h
      | some fin =>
          have hsettled := settled_upstreamFinalize hio.registers h s.error
            (hio.finished fin hup).1
          exact .settled hsettled
  | clientWrite =>
      unfold dispatch
      dsimp only
      rw [if_neg (by simp [h.lingering]), h.active,
        writeEventHandler_checkBroken h.subHandler]
      exact rest_checkBroken hio.registers h
  | clientRead =>
      unfold dispatch readEventHandler
      dsimp only
      rw [if_neg (by simp [h.lingering]), h.active]
      dsimp only
      rw [if_pos h.subHandler]
      exact rest_checkBroken hio.registers h

theorem Writing.running {s : State} (h : Writing s) : Running 1 s := ⟨h.toAlive, h.posted⟩

/-- Writing, the client's connection can be written or has timed out. -/
theorem finalized_writer (hreg : io.registers = true) {s : State} (h : Writing s) :
    Finalized 1 (ngxHttpWriter io s) := by
  have hout : outputRest io s = (filtered io (decide (io.out.outputFilter = .error)) s,
      io.out.outputFilter) := by
    unfold outputRest
    rw [if_neg (by simp [h.active]), if_neg (by simp [h.postponed])]
  have hrun : Running 1 (filtered io (decide (io.out.outputFilter = .error)) s) :=
    h.running.filtered _
  unfold ngxHttpWriter
  rw [hout]
  simp only [hreg, if_true]
  split_ifs
  · exact finalized_request hreg h.running 408
  · exact .writing h.toAlive h.mainHandler h.posted
  · exact finalized_request hreg hrun ngxError
  · exact .writing hrun.toAlive h.mainHandler h.posted
  · exact finalized_request hreg (hrun.withHandler .empty) _

theorem settled_writing (hio : io.Ordinary) {s : State} (h : Writing s) (e : Event) :
    Settled (ngxHttpRunPostedRequests io 8 (dispatch e io s)) := by
  cases e with
  | upstream =>
      unfold dispatch
      rw [h.cleanup]
      dsimp only
      rw [runPosted_nil h.posted]
      exact .writing h
  | clientWrite =>
      unfold dispatch
      dsimp only
      rw [if_neg (by simp [h.lingering]), h.active, writeEventHandler_writer h.mainHandler]
      exact (finalized_writer hio.registers h).settled 7
  | clientRead =>
      unfold dispatch readEventHandler
      dsimp only
      rw [if_neg (by simp [h.lingering]), h.active]
      dsimp only
      split_ifs
      · refine (finalized_request hio.registers ?_ 499).settled 7
        exact ⟨⟨⟨h.destroyed, h.crashed, h.cleanup, h.frees, h.alerts⟩, h.count, rfl,
          h.postponed, h.lingering, h.entered⟩, h.posted⟩
      · rw [runPosted_nil h.posted]
        exact .writing h

theorem Lingering.entered_le {s : State} (h : Lingering s) : s.entered ≤ 1 := by
  rw [h.entered]
  split_ifs <;> omega

theorem settled_lingering {s : State} (h : Lingering s) (e : Event) :
    Settled (ngxHttpRunPostedRequests io 8 (dispatch e io s)) := by
  have hstay : Settled (ngxHttpRunPostedRequests io 8 s) := by
    rw [runPosted_nil h.posted]
    exact .lingering h
  cases e with
  | upstream =>
      unfold dispatch
      rw [h.cleanup]
      exact hstay
  | clientWrite =>
      unfold dispatch
      dsimp only
      rw [if_pos h.lingers]
      exact hstay
  | clientRead =>
      unfold dispatch lingeringCloseHandler
      dsimp only
      rw [if_pos h.lingers]
      split_ifs
      · have hgone := gone_closeRequest io h.toHeld h.count h.entered_le
        rw [runPosted_over (Or.inl hgone.destroyed)]
        exact .gone hgone
      · exact hstay

/-- What an event is handled with. -/
def handledWith (e : Event) (io : Answers) : Answers :=
  match e with
  | .clientWrite => io.resume
  | _ => io

theorem step_over {s : State} (h : s.destroyed ∨ s.crashed) (e : Event × Answers) :
    step s e = s :=
  if_pos h

theorem step_live {s : State} (hd : s.destroyed = false) (hc : s.crashed = false) (e : Event)
    (io : Answers) :
    step s (e, io)
      = ngxHttpRunPostedRequests (handledWith e io) 8 (dispatch e (handledWith e io) s) := by
  unfold step
  rw [if_neg (by simp [hd, hc])]
  rfl

theorem Answers.Ordinary.handledWith (h : io.Ordinary) (e : Event) :
    (handledWith e io).Ordinary := by
  cases e with
  | clientWrite => exact h.resume
  | upstream | clientRead => exact h

/-- Without a subrequest a request stays without one. -/
theorem settled_step {s : State} (h : Settled s) (e : Event) (hio : io.Ordinary) :
    Settled (step s (e, io)) := by
  cases h with
  | writing hw =>
      rw [step_live hw.destroyed hw.crashed]
      exact settled_writing (hio.handledWith e) hw e
  | lingering hl =>
      rw [step_live hl.destroyed hl.crashed]
      exact settled_lingering hl e
  | gone hg =>
      rw [step_over (Or.inl hg.destroyed)]
      exact .gone hg
  | crashed hc =>
      rw [step_over (Or.inr hc.crashed)]
      exact .crashed hc

/-- **Step lemma**: every event leads from rest to rest. -/
theorem rest_step {s : State} (h : Rest s) (e : Event × Answers) (he : e.2.Ordinary) :
    Rest (step s e) := by
  obtain ⟨ev, io⟩ := e
  cases h with
  | waiting hw =>
      rw [step_live hw.destroyed hw.crashed]
      exact rest_waiting (he.handledWith ev) hw ev
  | settled hs => exact .settled (settled_step hs ev he)

/-- **Run lemma**. -/
theorem rest_foldl :
    ∀ (events : List (Event × Answers)) {s : State}, Rest s →
      (∀ e ∈ events, e.2.Ordinary) → Rest (events.foldl step s) := by
  intro events
  induction events with
  | nil => intro s h _; exact h
  | cons e events ih =>
      intro s h hall
      exact ih (rest_step h e (hall e List.mem_cons_self))
        (fun e' he' => hall e' (List.mem_cons_of_mem e he'))

/-! ## §8. Whole runs. -/

/-- What nginx guarantees of a request between two events. -/
structure Safe (s : State) : Prop where
  /-- Of the alerts of `Alert` only "header already sent" was logged, and nothing was used
  after it was freed. -/
  alerts : OnlyResent s.alerts
  /-- Freed at most once, and never before it is over. -/
  freed : s.frees = if s.destroyed then 1 else 0
  /-- The main request is woken at most once. -/
  woken : s.entered ≤ 1
  /-- While it goes on, every request that is not done holds one reference, and no posted
  request has been left behind. -/
  held : s.destroyed = false → s.crashed = false →
    s.count = (if s.postponed then 2 else 1) ∧ s.posted = []
  /-- Once the subrequest is done, the main request has been woken. -/
  done : s.destroyed = false → s.subDone = true → s.entered = 1

theorem Waiting.safe {s : State} (h : Waiting s) : Safe s := by
  refine ⟨h.alerts, by simp [h.frees, h.destroyed], by simp [h.entered], fun _ _ => ?_, ?_⟩
  · exact ⟨by simp [h.count, h.postponed], h.posted⟩
  · intro _ hdone
    exact absurd hdone (by simp [h.subDone])

theorem Settled.safe {s : State} (h : Settled s) : Safe s := by
  cases h with
  | writing h =>
      refine ⟨h.alerts, by simp [h.frees, h.destroyed], h.entered_le, fun _ _ => ?_, ?_⟩
      · exact ⟨by simp [h.count, h.postponed], h.posted⟩
      · intro _ hdone
        rw [h.entered, if_pos hdone]
  | lingering h =>
      refine ⟨h.alerts, by simp [h.frees, h.destroyed], h.entered_le, fun _ _ => ?_, ?_⟩
      · exact ⟨by simp [h.count, h.postponed], h.posted⟩
      · intro _ hdone
        rw [h.entered, if_pos hdone]
  | gone h =>
      have hover : s.destroyed ≠ false := by simp [h.destroyed]
      exact ⟨h.alerts, by simp [h.frees, h.destroyed], h.entered, fun hd => absurd hd hover,
        fun hd => absurd hd hover⟩
  | crashed h =>
      have hover : s.crashed ≠ false := by simp [h.crashed]
      exact ⟨h.alerts, by simp [h.frees, h.destroyed], h.entered.le,
        fun _ hc => absurd hc hover, fun _ _ => h.entered⟩

theorem Rest.safe {s : State} (h : Rest s) : Safe s := by
  cases h with
  | waiting hw => exact hw.safe
  | settled hs => exact hs.safe

theorem rest_run (keepalive : Bool) (hio : io.Ordinary) {events : List (Event × Answers)}
    (hevents : ∀ e ∈ events, e.2.Ordinary) : Rest (run keepalive io events) :=
  rest_foldl events (rest_contentPhase hio keepalive) hevents

/-- **A request is safe in every run**: whatever the client, the upstream server, the
output filters and the timers do, and in whatever order. -/
theorem lifecycle_safe (keepalive : Bool) (io : Answers) (hio : io.Ordinary)
    (events : List (Event × Answers)) (hevents : ∀ e ∈ events, e.2.Ordinary) :
    Safe (run keepalive io events) :=
  (rest_run keepalive hio hevents).safe

/-- The end of an upstream request that has timed out, a filter chain that has nothing left
to do, and a client that is still there. -/
def quietAnswers (proxy : ProxyStart) (upstream : Option SubrequestEnd) (timedout : Bool) :
    Answers where
  lib := printedJson
  refusal := none
  proxy := proxy
  upstream := upstream
  left := ⟨0, .unallocated⟩
  broken := false
  timedout := timedout
  delayed := false
  posts := true
  registers := true
  out := ⟨0, false, 200, .ok⟩
  buffered := 0
  connBuffered := false
  outError := false
  special := .ok
  errorPage := none
  eof := false
  keepalives := true
  lingers := false

theorem ordinary_quiet {proxy : ProxyStart} {upstream : Option SubrequestEnd} (timedout : Bool)
    (hp : ∀ fin, proxy = .ended fin → EndCode fin.rc)
    (hu : ∀ fin, upstream = some fin → EndCode fin.rc) :
    (quietAnswers proxy upstream timedout).Ordinary :=
  ⟨rfl, hp, hu⟩

/-- A 404 of m3u8-filter. -/
def missingEnd : SubrequestEnd := ⟨0, 404, .filled [] [0]⟩

theorem ordinary_pending : (quietAnswers .pending none false).Ordinary :=
  ordinary_quiet false (by simp) (by simp)

theorem ordinary_missing : (quietAnswers .pending (some missingEnd) false).Ordinary :=
  ordinary_quiet false (by simp) (by simp [EndCode, missingEnd, ngxDone, ngxDeclined])

/-- It is passed on and the request is freed. -/
theorem lifecycle_safe_missing :
    Safe (run true (quietAnswers .pending none false)
        [(.upstream, quietAnswers .pending (some missingEnd) false)])
      ∧ (run true (quietAnswers .pending none false)
        [(.upstream, quietAnswers .pending (some missingEnd) false)]).frees = 1 :=
  ⟨lifecycle_safe true _ ordinary_pending _ (by simp [ordinary_missing]), by decide +kernel⟩

/-! ## §9. Timers. -/

/-- The request is over. -/
def Over (s : State) : Prop := s.destroyed = true ∨ s.crashed = true

/-- The end of the upstream request ends the waiting. -/
theorem settled_upstream {s : State} (h : Rest s) (hio : io.Ordinary)
    (hup : io.upstream ≠ none) : Settled (step s (.upstream, io)) := by
  cases h with
  | settled hs => exact settled_step hs .upstream hio
  | waiting hw =>
      obtain ⟨fin, hfin⟩ := Option.ne_none_iff_exists'.mp hup
      have hsettled := settled_upstreamFinalize hio.registers hw s.error (hio.finished fin hfin).1
      rw [step_live hw.destroyed hw.crashed]
      unfold handledWith dispatch
      rw [hw.cleanup, hfin]
      exact hsettled

/-- A client that does not read ends the writing. -/
theorem gone_writer_timedout {s : State} (h : Writing s) (htimer : io.timedout = true) :
    Gone (ngxHttpRunPostedRequests io 8 (ngxHttpWriter io s)) := by
  have hterm : Terminates 408 := by decide
  have heq : ngxHttpWriter io s = ngxHttpTerminateRequest io s := by
    have honce : finalizeOnce io s 408 = ngxHttpTerminateRequest io s := by
      unfold finalizeOnce finalizePlain
      rw [if_neg (fun hs => hs.2.1 hterm), if_neg (by decide), if_pos (Or.inl hterm)]
    unfold ngxHttpWriter ngxHttpFinalizeRequest
    rw [if_pos htimer]
    cases io.errorPage with
    | none => exact honce
    | some page =>
        dsimp only
        rw [if_neg (fun hs => hs.2.1 hterm), honce]
  rw [heq]
  exact gone_terminating (terminating_terminateRequest io h.toHeld h.entered_le).1 7

/-- What is left after the timer of the writing. -/
theorem settled_timedout {s : State} (h : Settled s) (htimer : io.timedout = true)
    (hdelay : io.delayed = false) :
    Lingering (step s (.clientWrite, io)) ∨ Over (step s (.clientWrite, io)) := by
  have hresume : handledWith .clientWrite io = io := by
    unfold handledWith Answers.resume
    dsimp only
    rw [if_neg (by simp [hdelay])]
  cases h with
  | writing hw =>
      rw [step_live hw.destroyed hw.crashed, hresume]
      unfold dispatch
      dsimp only
      rw [if_neg (by simp [hw.lingering]), hw.active, writeEventHandler_writer hw.mainHandler]
      exact Or.inr (Or.inl (gone_writer_timedout hw htimer).destroyed)
  | lingering hl =>
      rw [step_live hl.destroyed hl.crashed, hresume]
      unfold dispatch
      dsimp only
      rw [if_pos hl.lingers, runPosted_nil hl.posted]
      exact Or.inl hl
  | gone hg =>
      rw [step_over (Or.inl hg.destroyed)]
      exact Or.inr (Or.inl hg.destroyed)
  | crashed hc =>
      rw [step_over (Or.inr hc.crashed)]
      exact Or.inr (Or.inr hc.crashed)

/-- The timer of the lingering close. -/
theorem over_lingering_timedout {s : State} (h : Lingering s) (htimer : io.timedout = true) :
    Over (step s (.clientRead, io)) := by
  have hgone := gone_closeRequest io h.toHeld h.count h.entered_le
  rw [step_live h.destroyed h.crashed]
  unfold handledWith dispatch lingeringCloseHandler
  dsimp only
  rw [if_pos h.lingers, if_pos (Or.inl htimer), runPosted_over (Or.inl hgone.destroyed)]
  exact Or.inl hgone.destroyed

/-- **Three timers end any request**: after any run of ordinary answers, the end of the upstream
request, the timer of the client's write event and that of its read event leave nothing of
it. -/
theorem timers_end (keepalive : Bool) (io : Answers) (hio : io.Ordinary)
    (events : List (Event × Answers)) (hevents : ∀ e ∈ events, e.2.Ordinary)
    (upstream write read : Answers) (hup : upstream.Ordinary) (hfin : upstream.upstream ≠ none)
    (hwrite : write.timedout = true) (hdelay : write.delayed = false)
    (hread : read.timedout = true) :
    Over (run keepalive io
      (events ++ [(.upstream, upstream), (.clientWrite, write), (.clientRead, read)])) := by
  unfold run
  rw [List.foldl_append]
  have hsettled := settled_upstream (rest_run keepalive hio hevents) hup hfin
  show Over (step (step (step (run keepalive io events) _) _) _)
  rcases settled_timedout hsettled hwrite hdelay with hl | hover
  · exact over_lingering_timedout hl hread
  · rw [step_over hover]
    exact hover

/-- A 404 of which the client has not taken everything. -/
def stalledAnswers : Answers :=
  { quietAnswers .pending (some missingEnd) false with connBuffered := true }

theorem ordinary_stalled : stalledAnswers.Ordinary :=
  ⟨rfl, ordinary_missing.started, ordinary_missing.finished⟩

/-- A client that stops reading in the middle of a 404: the request goes on when the upstream
request is over, and the timers end it. -/
theorem timers_end_missing :
    ¬ Over (run true (quietAnswers .pending none false) [(.upstream, stalledAnswers)])
      ∧ Over (run true (quietAnswers .pending none false)
        ([] ++ [(.upstream, stalledAnswers), (.clientWrite, quietAnswers .pending none true),
          (.clientRead, quietAnswers .pending none true)])) :=
  ⟨by unfold Over; decide +kernel,
    timers_end true _ ordinary_pending [] (by simp) _ _ _ ordinary_stalled
      (by simp [stalledAnswers, quietAnswers]) rfl rfl rfl⟩

/-! ## §10. An event that cannot be registered. -/

/-- **Used after it was freed**: when a response is still buffered and the write event
cannot be registered, `ngx_http_set_write_handler` closes the request and
`ngx_http_finalize_request` goes on to terminate it. -/
theorem unregistered_used_after_free (hreg : io.registers = false) {s : State}
    (h : Running 1 s) (hbuffered : s.buffered ≠ 0 ∨ s.connBuffered) :
    (finalizeSent io s).frees = 1 ∧ Alert.afterFree ∈ (finalizeSent io s).alerts := by
  have hcond : s.buffered ≠ 0 ∨ s.connBuffered ∨ s.postponed := by
    rcases hbuffered with hb | hc
    · exact Or.inl hb
    · exact Or.inr (Or.inl hc)
  have heq : finalizeSent io s
      = ngxHttpTerminateRequest io (ngxHttpCloseRequest io { s with mainHandler := .writer }) := by
    unfold finalizeSent ngxHttpSetWriteHandler
    rw [if_pos hcond]
    simp only [hreg, Bool.false_eq_true, if_false]
  rw [heq, closeRequest_last io (h.withHandler .writer).toHeld h.count]
  unfold ngxHttpTerminateRequest touch
  rw [if_pos rfl, upstreamCleanup_eq io (by exact h.cleanup)]
  exact ⟨rfl, List.mem_append_right _ List.mem_cons_self⟩

end Lifecycle

end NginxNettyHls.Nginx
