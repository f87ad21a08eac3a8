/-
  NginxNettyHls.Nginx.BodyInMemory
  ────────────────────────────────
  **THE BODY OF A SUBREQUEST, HOWEVER IT IS CUT INTO PIECES.**

  A server that sends all of its response, without a pause long enough for the
  timer, may still deliver it in any pieces and over any number of read events.
  `ngx_http_upstream_process_body_in_memory` looks whether there is room left
  before it looks whether the body is complete, so a body that fills the buffer
  to its last byte is taken for one that does not fit:

    • `Reading.recvLoop` — one read event: the loop gets on by what it is offered,
      or ends with the whole body;
    • `body_fetched_iff` — every way of cutting the body ends with all of it
      exactly when a byte of room is left, or there is no body.
-/
import NginxNettyHls.Nginx.Upstream

namespace NginxNettyHls.Nginx

/-! ## §1. Read events without a failure. -/

/-- What the calls of `recv` in one read event return: data while the connection is
ready, and at the end no more for now. -/
def Benign : List Recv → Prop
  | [] => False
  | [.again] => True
  | [.data _ ready] => ready = false
  | .data _ ready :: rs => ready = true ∧ Benign rs
  | _ => False

/-- A read event that is no failure. -/
def Call.Benign : Call → Prop
  | .timedout => False
  | .reads recvs => Nginx.Benign recvs

/-- The bytes a read event offers. -/
def offered : List Recv → Nat
  | [] => 0
  | .data n _ :: rs => n + 1 + offered rs
  | _ :: rs => offered rs

def Call.offered : Call → Nat
  | .timedout => 0
  | .reads recvs => Nginx.offered recvs

/-- The bytes a sequence of read events offers. -/
def allOffered : List Call → Nat
  | [] => 0
  | call :: calls => call.offered + allOffered calls

/-! ## §2. A buffer with a byte to spare. -/

/-- Reading `body` into a buffer that will not be full. -/
structure Reading (body : Bytes) (b : Body) : Prop where
  splits : b.Splits body
  room : b.pending.length < b.room
  length : b.length = b.pending.length

/-- The filter takes what is offered, as far as there is something. -/
theorem Reading.copyFilter {body : Bytes} {b : Body} (h : Reading body b) (n : Nat) :
    Reading body (b.copyFilter n)
      ∧ (b.copyFilter n).pending.length = b.pending.length - n := by
  have hroom := h.room
  have hknown : b.length ≠ -1 := by
    rw [h.length]
    omega
  have hdrop : (b.copyFilter n).pending.length = b.pending.length - n := by
    show (b.pending.drop (min n b.room)).length = _
    rw [List.length_drop]
    omega
  have htake : (b.pending.take (min n b.room)).length = min n b.pending.length := by
    rw [List.length_take]
    omega
  refine ⟨⟨h.splits.copyFilter n, ?_, ?_⟩, hdrop⟩
  · show (b.copyFilter n).pending.length < b.room - (b.pending.take (min n b.room)).length
    rw [hdrop, htake]
    omega
  · rw [hdrop]
    show (if b.length = -1 then -1 else b.length - (b.pending.take (min n b.room)).length) = _
    rw [if_neg hknown, htake, h.length]
    omega

/-- Where a read event leaves the body: it is there in full and the subrequest ends, or at
least what was offered has come off what is pending. -/
def Advanced (body : Bytes) (before offer : Nat) (out : Body × Option Int) : Prop :=
  Reading body out.1
    ∧ ((out.2 = some 0 ∧ out.1.pending = [])
      ∨ (out.2 = none ∧ out.1.pending ≠ [] ∧ out.1.pending.length + offer ≤ before))

/-- The test behind the loop. -/
theorem Reading.finished {body : Bytes} {b : Body} (h : Reading body b) {before offer : Nat}
    (hle : b.pending.length = before - offer) :
    Advanced body before offer (b, b.finished) := by
  refine ⟨h, ?_⟩
  unfold Body.finished
  rw [h.length]
  cases hp : b.pending with
  | nil => exact Or.inl ⟨rfl, rfl⟩
  | cons x xs =>
      rw [hp, List.length_cons] at hle
      have hleft : ((x :: xs).length : Int) ≠ 0 := by
        rw [List.length_cons]
        omega
      rw [if_neg hleft]
      refine Or.inr ⟨rfl, by simp, ?_⟩
      rw [List.length_cons]
      omega

theorem Advanced.offer_more {body : Bytes} {before before' offer n : Nat}
    {out : Body × Option Int} (h : Advanced body before' offer out)
    (hle : before' = before - n) (hpos : 0 < before') :
    Advanced body before (n + offer) out := by
  refine ⟨h.1, ?_⟩
  rcases h.2 with hdone | ⟨hnone, hne, hlen⟩
  · exact Or.inl hdone
  · exact Or.inr ⟨hnone, hne, by omega⟩

/-- Nothing is pending any more: whatever is offered, the subrequest ends. -/
theorem Reading.recvLoop_complete {body : Bytes} {b : Body} (h : Reading body b)
    (hp : b.pending = []) {rs : List Recv} (hrs : Benign rs) :
    b.recvLoop rs = (b, some 0) := by
  have hroom : b.room ≠ 0 := by
    have := h.room
    omega
  have hfin : b.finished = some 0 := by
    unfold Body.finished
    rw [h.length, hp]
    rfl
  match rs, hrs with
  | [.again], _ => rw [Body.recvLoop, if_neg hroom, hfin]
  | .data n ready :: rs, _ => rw [Body.recvLoop, if_neg hroom]; simp [hp, hfin]

/-- **Step lemma**: one read event. -/
theorem Reading.recvLoop {body : Bytes} :
    ∀ (rs : List Recv), Benign rs → ∀ {b : Body}, Reading body b →
      Advanced body b.pending.length (offered rs) (b.recvLoop rs) := by
  intro rs
  induction rs with
  | nil => intro hrs; exact absurd hrs (by simp [Benign])
  | cons r rs ih =>
      intro hrs b h
      have hroom : b.room ≠ 0 := by
        have := h.room
        omega
      by_cases hp : b.pending = []
      · rw [h.recvLoop_complete hp hrs]
        exact ⟨h, Or.inl ⟨rfl, hp⟩⟩
      · rw [Body.recvLoop.eq_def]
        dsimp only
        rw [if_neg hroom]
        cases r with
        | again =>
            obtain rfl : rs = [] := by
              cases rs with
              | nil => rfl
              | cons r' rs' => exact absurd hrs (by simp [Benign])
            exact h.finished (by simp [offered])
        | closed | error => exact absurd hrs (by simp [Benign])
        | data n ready =>
            dsimp only
            rw [if_neg hp]
            obtain ⟨hread, hlen⟩ := h.copyFilter (n + 1)
            cases rs with
            | nil =>
                obtain rfl : ready = false := hrs
                exact hread.finished (by simpa [offered] using hlen)
            | cons r' rs' =>
                obtain ⟨rfl, hrs'⟩ : ready = true ∧ Benign (r' :: rs') := hrs
                rw [if_pos rfl]
                by_cases hpos : 0 < (b.copyFilter (n + 1)).pending.length
                · exact (ih hrs' hread).offer_more hlen hpos
                · have hnil : (b.copyFilter (n + 1)).pending = [] :=
                    List.length_eq_zero_iff.mp (by omega)
                  rw [hread.recvLoop_complete hnil hrs']
                  exact ⟨hread, Or.inl ⟨rfl, hnil⟩⟩

/-- **Run lemma**: read events that offer what is pending end with the whole body. -/
theorem Reading.run {body : Bytes} :
    ∀ (calls : List Call), (∀ call ∈ calls, call.Benign) → ∀ {b : Body}, Reading body b →
      b.pending ≠ [] → b.pending.length ≤ allOffered calls →
      (b.run calls).1.received = body ∧ (b.run calls).2 = some 0 := by
  intro calls
  induction calls with
  | nil =>
      intro _ b _ hne hle
      exact absurd (List.length_eq_zero_iff.mp (Nat.le_zero.mp hle)) hne
  | cons call calls ih =>
      intro hall b h hne hle
      cases call with
      | timedout => exact absurd (hall _ List.mem_cons_self) (by simp [Call.Benign])
      | reads recvs =>
          have hstep := Reading.recvLoop recvs (hall _ List.mem_cons_self) h
          have hsum : allOffered (.reads recvs :: calls) = offered recvs + allOffered calls := rfl
          cases hout : b.recvLoop recvs with
          | mk b' rc =>
              rw [hout] at hstep
              obtain ⟨hread, hdone | ⟨hrc, hne', hlen⟩⟩ := hstep
              · obtain ⟨hrc, hp⟩ := hdone
                dsimp only at hrc hp hread
                have hsplit : b'.received ++ b'.pending = body := hread.splits
                rw [hp, List.append_nil] at hsplit
                simp only [Body.run, processBodyInMemory, hout, hrc]
                exact ⟨hsplit, trivial⟩
              · dsimp only at hrc hne' hlen hread
                simp only [Body.run, processBodyInMemory, hout, hrc]
                exact ih (fun c hc => hall c (List.mem_cons_of_mem _ hc)) hread hne' (by omega)

/-! ## §3. Every fragmentation. -/

/-- The whole body has been read and the subrequest has ended well. -/
def Fetched (body : Bytes) (out : Body × Option Int) : Prop :=
  out.1.received = body ∧ out.2 = some 0

theorem fetched_of_room {body : Bytes} {room : Nat} (hroom : body.length < room)
    (preread : Nat) {calls : List Call} (hall : ∀ call ∈ calls, call.Benign)
    (hoffer : body.length ≤ preread + allOffered calls) :
    Fetched body (fetchBody body room preread calls) := by
  have hstart : Reading body ⟨[], room, body.length, body⟩ := ⟨rfl, hroom, rfl⟩
  obtain ⟨hread, hlen⟩ := hstart.copyFilter preread
  unfold fetchBody
  dsimp only at hlen ⊢
  generalize (Body.mk [] room body.length body).copyFilter preread = b at hread hlen ⊢
  unfold Body.finished
  rw [hread.length]
  by_cases hp : b.pending = []
  · have hsplit : b.received ++ b.pending = body := hread.splits
    rw [hp, List.append_nil] at hsplit
    rw [hp]
    exact ⟨hsplit, rfl⟩
  · have hpos : (b.pending.length : Int) ≠ 0 := by
      have := List.length_pos_iff.mpr hp
      omega
    rw [if_neg hpos]
    exact hread.run calls hall hp (by omega)

/-- There is nothing to read. -/
theorem fetched_nil (room preread : Nat) (calls : List Call) :
    Fetched [] (fetchBody [] room preread calls) := by
  unfold fetchBody Body.copyFilter Body.finished
  simp [Fetched]

/-- The pieces that show that a buffer is too small: all of the body at once, the connection
still ready afterwards. -/
theorem not_fetched_of_full {body : Bytes} {room : Nat} (hne : body ≠ [])
    (hroom : room ≤ body.length) :
    ¬ Fetched body (fetchBody body room 0 [.reads [.data body.length true, .again]]) := by
  have hstart : (Body.mk [] room body.length body).copyFilter 0
      = ⟨[], room, body.length, body⟩ := by
    simp [Body.copyFilter]
  have hpos : (body.length : Int) ≠ 0 := by
    have := List.length_pos_iff.mpr hne
    omega
  have hfull : ((Body.mk [] room body.length body).copyFilter (body.length + 1)).room = 0 := by
    show room - (body.take (min (body.length + 1) room)).length = 0
    rw [List.length_take]
    omega
  -- the loop comes back to its first test with no room left
  have hloop : ((Body.mk [] room body.length body).recvLoop
      [.data body.length true, .again]).2 = some ngxError := by
    rw [Body.recvLoop.eq_def]
    dsimp only
    by_cases hzero : room = 0
    · rw [if_pos hzero]
    · rw [if_neg hzero, if_neg hne, if_pos rfl, Body.recvLoop.eq_def]
      dsimp only
      rw [if_pos hfull]
  intro h
  have hrc := h.2
  unfold fetchBody at hrc
  rw [hstart] at hrc
  simp only [Body.finished, if_neg hpos, Body.run, processBodyInMemory] at hrc
  generalize (Body.mk [] room body.length body).recvLoop [.data body.length true, .again] = out
    at hloop hrc
  obtain ⟨b, rc⟩ := out
  dsimp only at hloop
  subst hloop
  have hcode : some ngxError = some 0 := hrc
  exact absurd hcode (by decide)

/-- **A body is fetched in full however it is cut** exactly when it leaves a byte of the
buffer free, or is empty. -/
theorem body_fetched_iff (body : Bytes) (room : Nat) :
    (∀ (preread : Nat) (calls : List Call), (∀ call ∈ calls, call.Benign) →
        body.length ≤ preread + allOffered calls →
        Fetched body (fetchBody body room preread calls))
      ↔ body.length < room ∨ body = [] := by
  constructor
  · intro h
    by_contra hcon
    rw [not_or, Nat.not_lt] at hcon
    obtain ⟨hroom, hne⟩ := hcon
    apply not_fetched_of_full hne hroom
    apply h
    · intro call hcall
      rw [List.mem_singleton.mp hcall]
      exact ⟨rfl, trivial⟩
    · show body.length ≤ 0 + (body.length + 1 + 0 + 0)
      omega
  · intro h preread calls hall hoffer
    rcases h with hroom | rfl
    · exact fetched_of_room hroom preread hall hoffer
    · exact fetched_nil room preread calls

end NginxNettyHls.Nginx
