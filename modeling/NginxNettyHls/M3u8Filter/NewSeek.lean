/-
  NginxNettyHls.M3u8Filter.NewSeek
  ────────────────────────────────
  **A NEW SEEK WHILE OLD REQUESTS ARE STILL RUNNING.**

  A request with a changed timestamp deletes the session and stores one of its
  own.  A follow-up of the old timestamp that has read its session before knows
  nothing of this: the timestamp is checked on the value read at the start, and
  the write at the end is unconditional and carries the old timestamp.  So it
  can undo the new seek.  It does so only when the playlist it reads has a
  segment newer than the `last_time` it had read, since only then it writes at
  all (`OldRequest.writes`); where no old request has one, the new seek stays
  (`new_seek_stays`).

  An old request is caught at any point of its work after the read
  (`Prog.Residual`), with any clock, any file, and any other clients at the
  store.
-/
import NginxNettyHls.M3u8Filter.Concurrent
import NginxNettyHls.M3u8Filter.Operations

namespace NginxNettyHls.M3u8Filter

open NginxNettyHls.Java
open KeyValue

/-! ## §1. A request of the old timestamp. -/

/-- A playseek request of the viewer with `oldTimestamp` that has read `session`. -/
structure OldRequest (c : ConfigControl) (mtvSession oldTimestamp : JString) where
  env : ∀ q : Query, q.Answer
  path : JString
  seekTime : JString
  query : Option JString
  session : SessionDef
  session_timestamp : session.timestamp = some oldTimestamp
  session_written : Written (some (.session session))

variable {c : ConfigControl} {mtvSession oldTimestamp newTimestamp : JString}

namespace OldRequest

/-- What it does once `get_session` has answered. -/
def afterRead (r : OldRequest c mtvSession oldTimestamp) : Client PlayseekReply :=
  playSeekWith c r.path r.seekTime (sessionKey mtvSession) oldTimestamp r.query (some r.session)

/-- The playlist it reads. -/
def snapshot (r : OldRequest c mtvSession oldTimestamp) : FileRead := r.env (.readFile r.path)

/-- The session has the time of a segment the request finds newer than the
`last_time` it had read. -/
def Moved (r : OldRequest c mtvSession oldTimestamp) (s : SessionDef) : Prop :=
  ∃ g ∈ r.snapshot.segments, r.session.lastTime < g.time ∧ s.lastTime = g.time

theorem writes_putSessions {env : ∀ q : Query, q.Answer} {Φ : JString → Option Stored → Prop}
    {key : JString} {r : PlayseekReply} :
    ∀ (puts : List SessionDef), (∀ s ∈ puts, Φ key (some (.session s))) →
      (putSessions c key puts (.ret r)).Writes env Φ := by
  intro puts
  induction puts with
  | nil => intro _; trivial
  | cons s puts ih =>
      intro h
      exact ⟨h s List.mem_cons_self, ih (fun s' hs' => h s' (List.mem_cons_of_mem s hs'))⟩

/-- **All it writes** are sessions its newer segments have moved. -/
theorem writes (r : OldRequest c mtvSession oldTimestamp) :
    r.afterRead.Writes r.env (fun _ v => ∀ s, v = some (.session s) → r.Moved s) := by
  unfold afterRead
  -- the session read has the request's timestamp, so it is followed up
  rw [playSeekWith_kept c _ _ _ _ r.session_timestamp]
  apply writes_putSessions
  intro s' hs' s hs
  obtain rfl : s' = s := by simpa using hs
  obtain ⟨hl, hl'⟩ := r.session_written _ rfl
  obtain ⟨_, g, hg, ht, hlater⟩ := playseekFilterSession_puts_mem hs'
  exact ⟨g, hg, hlater hl hl', ht⟩

variable {ι : Type} [DecidableEq ι]

/-- **Only a newer segment undoes a new seek**: among any other clients of the store
and after any schedule, when the key holds no session of the old timestamp and an
operation of the old request makes it hold one, that request has read a playlist with
a segment newer than the `last_time` it had read, and the session is at such a
segment. -/
theorem old_timestamp_again (r : OldRequest c mtvSession oldTimestamp)
    {env : ι → ∀ q : Query, q.Answer} {i : ι} (henv : env i = r.env)
    {sys : Sys ι Unit JString Stored Query Query.Answer PlayseekReply}
    (h : Prog.Residual r.env r.afterRead (sys.threads i)) (sched : List ι)
    (hbefore : ∀ s, (sys.exec (fun _ => env) sched).store (sessionKey mtvSession)
      = some (.session s) → s.timestamp ≠ some oldTimestamp) {s : SessionDef}
    (hafter : ((sys.exec (fun _ => env) sched).act (fun _ => env) i).store
      (sessionKey mtvSession) = some (.session s))
    (hts : s.timestamp = some oldTimestamp) : r.Moved s := by
  rw [← henv] at h
  have hleft := residual_exec sched sys h
  have hwrites := hleft.writes (henv ▸ r.writes)
  have hstep : ((sys.exec (fun _ => env) sched).act (fun _ => env) i).store
      = (((sys.exec (fun _ => env) sched).threads i).step (env i)
          (sys.exec (fun _ => env) sched).store).1 := rfl
  rcases Prog.step_eq_or_writes hwrites (sys.exec (fun _ => env) sched).store
      (sessionKey mtvSession) with e | hnew
  · -- the operation did not touch the key, so the session was there before
    rw [hstep, e] at hafter
    exact absurd hts (hbefore s hafter)
  · rw [hstep] at hafter
    exact hnew s hafter

end OldRequest

/-! ## §2. A new seek that stays. -/

/-- What the key may hold: no session of the old timestamp. -/
def NotOld (oldTimestamp : JString) (key k : JString) (v : Option Stored) : Prop :=
  k = key → ∀ s, v = some (.session s) → s.timestamp ≠ some oldTimestamp

/-- A playseek request of another timestamp, whatever it reads, writes no session of
the old one. -/
theorem writes_notOld {request : HttpRequest} {seekTime : JString} {uri : Uri}
    (h : request.IsPlayseek seekTime mtvSession newTimestamp uri)
    (hne : newTimestamp ≠ oldTimestamp) (env : ∀ q : Query, q.Answer) :
    (playSeekHandler c request).Writes env (NotOld oldTimestamp (sessionKey mtvSession)) := by
  apply Prog.writes_of_each
  apply each_playSeekHandler
  intro m timestamp _ hts
  have hnew : timestamp = newTimestamp := by
    rw [h.timestamp, Option.some.injEq] at hts
    exact hts.symm
  refine ⟨trivial, ?_, ?_⟩
  · intro s hs _ s' hs' hold
    obtain rfl : s = s' := by simpa using hs'
    rw [hs, hnew, Option.some.injEq] at hold
    exact hne hold
  · intro _ s hs
    exact absurd hs (by simp)

/-- **A new seek stays**: with old requests past their read that find no newer segment,
and requests of other timestamps anywhere in their work, the key never holds a session
of the old timestamp again, whatever the interleaving. -/
theorem new_seek_stays {ι₁ ι₂ : Type} [DecidableEq ι₁] [DecidableEq ι₂]
    (old : ι₁ → OldRequest c mtvSession oldTimestamp)
    (hnone : ∀ i, ∀ g ∈ (old i).snapshot.segments, g.time ≤ (old i).session.lastTime)
    {request : ι₂ → HttpRequest} {seekTime timestamp : ι₂ → JString} {uri : ι₂ → Uri}
    (hplay : ∀ j, (request j).IsPlayseek (seekTime j) mtvSession (timestamp j) (uri j))
    (hne : ∀ j, timestamp j ≠ oldTimestamp) {env : ι₁ ⊕ ι₂ → ∀ q : Query, q.Answer}
    (henv : ∀ i, env (.inl i) = (old i).env)
    {sys : Sys (ι₁ ⊕ ι₂) Unit JString Stored Query Query.Answer PlayseekReply}
    (hold : ∀ i, Prog.Residual (old i).env (old i).afterRead (sys.threads (.inl i)))
    (hnew : ∀ j, Prog.Residual (env (.inr j)) (playSeekHandler c (request j))
      (sys.threads (.inr j)))
    (hstart : NotOld oldTimestamp (sessionKey mtvSession) (sessionKey mtvSession)
      (sys.store (sessionKey mtvSession))) (sched : List (ι₁ ⊕ ι₂)) :
    NotOld oldTimestamp (sessionKey mtvSession) (sessionKey mtvSession)
      ((sys.exec (fun _ => env) sched).store (sessionKey mtvSession)) := by
  refine exec_writes sched sys ?_ ?_ _
  · intro k
    cases k with
    | inl i =>
        rw [henv i]
        -- an old request without a newer segment writes no session at all
        refine ((hold i).writes (old i).writes).mono (fun k v hv _ s hs _ => ?_)
        obtain ⟨g, hg, hlater, _⟩ := hv s hs
        have hle := hnone i g hg
        omega
    | inr j => exact (hnew j).writes (writes_notOld (hplay j) (hne j) _)
  · intro k hk
    rw [hk]
    exact hstart rfl

/-! ## §3. A new seek undone. -/

/-- A request that has read the session of segment 1508153098, over a playlist with
newer ones. -/
def overtakenRequest : OldRequest shippedConfig "viewer".toList "1".toList where
  env := machine (shippedConfig.rootPath ++ "/cctv.m3u8".toList) minuteFeed.file 1508153152000
  path := shippedConfig.rootPath ++ "/cctv.m3u8".toList
  seekTime := "000100".toList
  query := none
  session := ⟨some "1".toList, 1508153098, 0⟩
  session_timestamp := rfl
  session_written := fun s hs => by
    obtain rfl : (⟨some "1".toList, 1508153098, 0⟩ : SessionDef) = s := by simpa using hs
    decide

/-- A new session is stored, the old request has yet to read its playlist. -/
def overtakenStart : Sys (Fin 1) Unit JString Stored Query Query.Answer PlayseekReply where
  world := ()
  store := fun _ => some (.session ⟨some "2".toList, 1508153098, 0⟩)
  threads := fun _ => overtakenRequest.afterRead
  seen := fun _ => none

def overtakenEnv : Fin 1 → ∀ q : Query, q.Answer := fun _ => overtakenRequest.env

theorem old_timestamp_again_undone :
    overtakenRequest.Moved ⟨some "1".toList, 1508153104, 1⟩ := by
  have hbefore : (overtakenStart.exec (fun _ => overtakenEnv) [0]).store
      (sessionKey "viewer".toList) = some (.session ⟨some "2".toList, 1508153098, 0⟩) := rfl
  refine OldRequest.old_timestamp_again overtakenRequest
    (show overtakenEnv 0 = overtakenRequest.env from rfl)
    (show Prog.Residual _ _ (overtakenStart.threads 0) from .refl) [0] ?_ (by decide +kernel) rfl
  intro s hs
  rw [hbefore] at hs
  obtain rfl : (⟨some "2".toList, 1508153098, 0⟩ : SessionDef) = s := by simpa using hs
  decide

/-- Both requests from their beginning, over the session of the old timestamp. -/
def raceStart : Sys (Fin 2) Unit JString Stored Query Query.Answer PlayseekReply where
  world := ()
  store := fun _ => some (.session ⟨some "1".toList, 1508153098, 0⟩)
  threads := fun i => playSeekHandler shippedConfig
    (if i.val = 0 then playseekRequest "000100".toList "viewer".toList "1".toList
        "/cctv.m3u8".toList none
     else playseekRequest "000110".toList "viewer".toList "2".toList "/cctv.m3u8".toList none)
  seen := fun _ => none

/-- The old request reads its session, then the new one runs to its end. -/
def raceStored : Sys (Fin 2) Unit JString Stored Query Query.Answer PlayseekReply :=
  raceStart.exec (fun _ _ => machine (shippedConfig.rootPath ++ "/cctv.m3u8".toList)
    minuteFeed.file 1508153152000)
    (List.replicate 3 ⟨0, Nat.zero_lt_two⟩ ++ List.replicate 8 ⟨1, Nat.one_lt_two⟩)

/-- **A new seek is undone**: the new timestamp is stored, the old request takes its
last two steps, and the old timestamp is stored again. -/
theorem new_seek_undone :
    raceStored.seen 0 = some (.session ⟨some "1".toList, 1508153098, 0⟩)
      ∧ raceStored.store (sessionKey "viewer".toList)
          = some (.session ⟨some "2".toList, 1508153098, 0⟩)
      ∧ (raceStored.exec (fun _ _ => machine (shippedConfig.rootPath ++ "/cctv.m3u8".toList)
            minuteFeed.file 1508153152000) [0, 0]).store (sessionKey "viewer".toList)
          = some (.session ⟨some "1".toList, 1508153104, 1⟩) := by
  decide +kernel

end NginxNettyHls.M3u8Filter
