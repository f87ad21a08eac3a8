/-
  NginxNettyHls.M3u8Filter.Failure
  ────────────────────────────────
  **WHAT A FAILED REQUEST LEAVES IN THE STORE.**

  Nothing is rolled back: a session with another timestamp is deleted before the
  filter starts, and a session is written in the middle of the line loop, while
  every later line can still throw.  So an entry survives a request exactly when
  the request neither deletes nor writes (`PlayseekVisit.Quiet`), whether or not
  it fails in the end:

    • seeking anew, no segment before the first bad line passes the comparison
      with the start point (`seekFilter_puts_eq_nil`);
    • following up, the segment lines that are at or past `last_time` have no
      newer one in second place (`sessionFilter_puts_eq_nil`): `index` starts at
      -1, each of them counts one up, and the write is for a newer one at 0.
-/
import NginxNettyHls.M3u8Filter.MediaSequence

namespace NginxNettyHls.M3u8Filter

open NginxNettyHls.Java
open KeyValue

/-! ## §1. When a filter writes nothing. -/

/-- A first response writes nothing exactly when no segment is selected. -/
theorem seekFilter_puts_eq_nil (timestamp : JString) (query : Option JString) (a : Int) :
    ∀ (gs : List Segment), ((seekFilter timestamp query a).over (0 : Int) gs).puts = []
      ↔ ∀ g ∈ gs, ¬ 0 < toInt32 (g.time - a) := by
  intro gs
  induction gs with
  | nil => simp [Filter.over]
  | cons g gs ih =>
      by_cases hg : 0 < toInt32 (g.time - a)
      · have hturn : ((seekFilter timestamp query a).onSegment (0 : Int) g).put
            = some (newSession timestamp g) := by
          show (seekSegment timestamp query a 0 g).put = _
          unfold seekSegment
          rw [if_pos hg]
          rfl
        simp [Filter.over, hturn, hg]
      · have hturn : (seekFilter timestamp query a).onSegment (0 : Int) g = ⟨0, none, []⟩ := by
          show seekSegment timestamp query a 0 g = _
          unfold seekSegment
          rw [if_neg hg]
        simp only [Filter.over, hturn, Option.toList_none, List.nil_append, List.forall_mem_cons]
        rw [ih]
        exact ⟨fun h => ⟨hg, h⟩, fun h => h.2⟩

/-- The segment lines that count for a follow-up: those with `last_time` itself and
those that pass the comparison with it. -/
def counted (t : Int) (gs : List Segment) : List Segment :=
  gs.filter (fun g => g.time = t ∨ 0 < toInt32 (g.time - t))

/-- After `n` lines that counted, no segment passes the comparison while `index`,
which is `n - 1` in 32 bits, is 0. -/
def NoneInPlace (t : Int) (n : Nat) (gs : List Segment) : Prop :=
  ∀ (k : Nat) (g : Segment), (n + k) % 2 ^ 32 = 1 → (counted t gs)[k]? = some g → g.time = t

theorem counted_cons_of_pos {t : Int} {g : Segment} {gs : List Segment}
    (hg : g.time = t ∨ 0 < toInt32 (g.time - t)) :
    counted t (g :: gs) = g :: counted t gs :=
  List.filter_cons_of_pos (by simpa using hg)

theorem counted_cons_of_neg {t : Int} {g : Segment} {gs : List Segment}
    (hg : ¬ (g.time = t ∨ 0 < toInt32 (g.time - t))) :
    counted t (g :: gs) = counted t gs :=
  List.filter_cons_of_neg (by simpa using hg)

/-- A line that counts moves every later one by a place. -/
theorem noneInPlace_cons {t : Int} {n : Nat} {g : Segment} {gs : List Segment}
    (hg : g.time = t ∨ 0 < toInt32 (g.time - t)) :
    NoneInPlace t n (g :: gs) ↔ (n % 2 ^ 32 = 1 → g.time = t) ∧ NoneInPlace t (n + 1) gs := by
  unfold NoneInPlace
  rw [counted_cons_of_pos hg]
  constructor
  · intro h
    refine ⟨fun hn => h 0 g (by simpa using hn) rfl, ?_⟩
    intro k x hk hx
    exact h (k + 1) x (by rw [← hk]; congr 1; omega) hx
  · rintro ⟨h0, hrest⟩ k x hk hx
    cases k with
    | zero =>
        simp only [List.getElem?_cons_zero, Option.some.injEq] at hx
        rw [← hx]
        exact h0 hk
    | succ k => exact hrest k x (by rw [← hk]; congr 1; omega) hx

/-- Other lines do not matter. -/
theorem noneInPlace_cons_skipped {t : Int} {n : Nat} {g : Segment} {gs : List Segment}
    (hg : ¬ (g.time = t ∨ 0 < toInt32 (g.time - t))) :
    NoneInPlace t n (g :: gs) ↔ NoneInPlace t n gs := by
  unfold NoneInPlace
  rw [counted_cons_of_neg hg]

/-! A follow-up's `index` after `n` lines that counted is `n - 1` in 32 bits.  The three
things a segment line can do to it: -/

/-- A line that does not count leaves the variables alone. -/
theorem sessionSegment_skipped (query : Option JString) (v : SessionVars) {g : Segment}
    (hg : ¬ (g.time = v.session.lastTime ∨ 0 < toInt32 (g.time - v.session.lastTime))) :
    sessionSegment query v g = ⟨v, none, []⟩ := by
  unfold sessionSegment
  rw [if_neg (fun h => hg (Or.inl h)), if_neg (fun h => hg (Or.inr h))]

/-- A newer line met with `index` 0 moves the session. -/
theorem sessionSegment_moves (query : Option JString) (s : SessionDef) {n : Nat} {g : Segment}
    (hne : g.time ≠ s.lastTime) (hpass : 0 < toInt32 (g.time - s.lastTime))
    (hn : n % 2 ^ 32 = 1) :
    sessionSegment query ⟨toInt32 ((n : Int) - 1), s⟩ g
      = ⟨⟨1, s.advance g.time⟩, some (s.advance g.time),
         [.number (s.advance g.time).sequence, .entry g query]⟩ := by
  have hzero : toInt32 ((n : Int) - 1) = 0 := by
    rw [toInt32_eq_zero_iff]
    omega
  rw [hzero]
  unfold sessionSegment
  rw [if_neg hne, if_pos hpass]
  rfl

/-- Every other line that counts only counts. -/
theorem sessionSegment_counts (query : Option JString) (s : SessionDef) {n : Nat} {g : Segment}
    (hg : g.time = s.lastTime ∨ 0 < toInt32 (g.time - s.lastTime))
    (hn : n % 2 ^ 32 = 1 → g.time = s.lastTime) :
    (sessionSegment query ⟨toInt32 ((n : Int) - 1), s⟩ g).put = none
      ∧ (sessionSegment query ⟨toInt32 ((n : Int) - 1), s⟩ g).vars
          = ⟨toInt32 (((n + 1 : Nat) : Int) - 1), s⟩ := by
  have hindex : toInt32 (toInt32 ((n : Int) - 1) + 1) = toInt32 (((n + 1 : Nat) : Int) - 1) := by
    rw [toInt32_toInt32_add]
    congr 1
    push_cast
    omega
  by_cases heq : g.time = s.lastTime
  · rw [sessionSegment_at query _ heq, hindex]
    exact ⟨rfl, rfl⟩
  · have hne : toInt32 ((n : Int) - 1) ≠ 0 := by
      intro h0
      rw [toInt32_eq_zero_iff] at h0
      exact heq (hn (by omega))
    unfold sessionSegment
    rw [if_neg heq, if_pos (hg.resolve_left heq)]
    simp only [if_neg hne, hindex, and_self]

/-- **A follow-up writes nothing** exactly when no newer segment is met with
`index` 0. -/
theorem sessionFilter_puts_eq_nil (query : Option JString) (s : SessionDef) :
    ∀ (gs : List Segment) (n : Nat),
      ((sessionFilter query).over ⟨toInt32 ((n : Int) - 1), s⟩ gs).puts = []
        ↔ NoneInPlace s.lastTime n gs := by
  intro gs
  induction gs with
  | nil => intro n; simp [Filter.over, NoneInPlace, counted]
  | cons g gs ih =>
      intro n
      show ((sessionSegment query ⟨toInt32 ((n : Int) - 1), s⟩ g).put.toList
        ++ ((sessionFilter query).over
            (sessionSegment query ⟨toInt32 ((n : Int) - 1), s⟩ g).vars gs).puts) = [] ↔ _
      by_cases hg : g.time = s.lastTime ∨ 0 < toInt32 (g.time - s.lastTime)
      · rw [noneInPlace_cons hg]
        by_cases hn : n % 2 ^ 32 = 1 → g.time = s.lastTime
        · obtain ⟨hput, hvars⟩ := sessionSegment_counts query s hg hn
          rw [hput, hvars]
          exact ⟨fun h => ⟨hn, (ih (n + 1)).mp h⟩, fun h => (ih (n + 1)).mpr h.2⟩
        · obtain ⟨h1, hne⟩ := Classical.not_imp.mp hn
          rw [sessionSegment_moves query s hne (hg.resolve_left hne) h1]
          exact ⟨fun h => absurd h (by simp), fun h => absurd h.1 hn⟩
      · rw [noneInPlace_cons_skipped hg, sessionSegment_skipped query _ hg]
        exact ih n

/-- What a follow-up writes differs from the session it started from. -/
theorem playseekFilterSession_puts_ne {session : SessionDef} {query : Option JString}
    {file : FileRead} {s : SessionDef}
    (h : s ∈ (m3u8PlayseekFilterSession session query file).puts) : s ≠ session := by
  intro heq
  obtain ⟨_, g, hg, ht, hlater⟩ := playseekFilterSession_puts_mem h
  have hr := file.inRange g hg
  rw [heq] at ht
  have hlt := hlater (by rw [ht]; exact hr.1) (by rw [ht]; exact hr.2)
  omega

/-! ## §2. When a request leaves the entry alone. -/

namespace PlayseekVisit

variable {c : ConfigControl} {mtvSession timestamp : JString}

/-- The request meets nothing to write for: it goes on from a session and no newer
segment before the first bad line is met with `index` 0, or it seeks anew and no
segment before the first bad line passes the comparison with the start point. -/
def NothingToWrite (v : PlayseekVisit c mtvSession timestamp) (stored : Option Stored) : Prop :=
  match keptSession timestamp stored with
  | some s => NoneInPlace s.lastTime 0 v.file.segments
  | none => ∀ a, v.absoluteTime = .ok a → ∀ g ∈ v.file.segments, ¬ 0 < toInt32 (g.time - a)

/-- The request finds no session of another timestamp and nothing to write for. -/
def Quiet (v : PlayseekVisit c mtvSession timestamp) (stored : Option Stored) : Prop :=
  (keptSession timestamp stored = none → getSession stored = none) ∧ v.NothingToWrite stored

theorem run_puts_eq_nil (v : PlayseekVisit c mtvSession timestamp) (stored : Option Stored) :
    (v.run stored).puts = [] ↔ v.NothingToWrite stored := by
  unfold NothingToWrite
  cases hk : keptSession timestamp stored with
  | some s =>
      rw [v.run_kept hk]
      cases hf : v.file with
      | notFound => simp [m3u8PlayseekFilterSession, FileRead.segments, NoneInPlace, counted]
      | opened lines fin =>
          simp only [m3u8PlayseekFilterSession, Filter.loop_puts, FileRead.segments]
          exact sessionFilter_puts_eq_nil v.uri.query s _ 0
  | none =>
      cases ha : v.absoluteTime with
      | error e => rw [v.run_rejected hk ha]; simp
      | ok a =>
          rw [v.run_anew hk ha]
          simp only [Except.ok.injEq, forall_eq']
          cases hf : v.file with
          | notFound => simp [m3u8PlayseekFilter, FileRead.segments]
          | opened lines fin =>
              simp only [m3u8PlayseekFilter, Filter.loop_puts, FileRead.segments]
              exact seekFilter_puts_eq_nil timestamp v.uri.query a _

/-- A write always shows: the entry is not what it was. -/
theorem serve_of_put (v : PlayseekVisit c mtvSession timestamp) {store : SessionStore}
    (h : (v.run (store (sessionKey mtvSession))).puts ≠ []) :
    (v.serve store).1 (sessionKey mtvSession) ≠ store (sessionKey mtvSession) := by
  rw [v.serve_eq]
  obtain ⟨puts, s, hputs⟩ := (List.eq_nil_or_concat' _).resolve_left h
  have hmem : s ∈ (v.run (store (sessionKey mtvSession))).puts := by rw [hputs]; simp
  dsimp only
  rw [hputs, putAll_append_singleton, Function.update_self]
  intro heq
  cases hk : keptSession timestamp (store (sessionKey mtvSession)) with
  | some s₀ =>
      rw [v.run_kept hk] at hmem
      have hstored := (keptSession_eq_some hk).1
      rw [hstored] at heq
      exact playseekFilterSession_puts_ne hmem (by simpa using heq)
  | none =>
      cases ha : v.absoluteTime with
      | error e => rw [v.run_rejected hk ha] at hmem; simp at hmem
      | ok a =>
          rw [v.run_anew hk ha] at hmem
          obtain ⟨g, _, rfl⟩ := playseekFilter_puts_mem hmem
          rw [← heq, keptSession_session rfl] at hk
          exact absurd hk (by simp)

/-- A request that writes nothing deletes what is a session of another timestamp. -/
theorem clearChanged_eq_iff (store : SessionStore) (key : JString) :
    clearChanged timestamp key store key = store key
      ↔ (keptSession timestamp (store key) = none → getSession (store key) = none) := by
  unfold clearChanged
  cases hv : store key with
  | none => simp [getSession, hv]
  | some stored =>
      cases stored with
      | unreadable raw => simp [getSession, hv]
      | session s =>
          by_cases hchange : checkTimestampChange timestamp s = true
          · simp [getSession, keptSession, hchange]
          · simp [getSession, keptSession, hchange, hv]

/-- **A request leaves the entry alone exactly when it is quiet.** -/
theorem serve_unchanged_iff (v : PlayseekVisit c mtvSession timestamp) (store : SessionStore) :
    (v.serve store).1 (sessionKey mtvSession) = store (sessionKey mtvSession)
      ↔ v.Quiet (store (sessionKey mtvSession)) := by
  have hnil := v.run_puts_eq_nil (store (sessionKey mtvSession))
  unfold Quiet
  by_cases hputs : (v.run (store (sessionKey mtvSession))).puts = []
  · have hserve : (v.serve store).1 = clearChanged timestamp (sessionKey mtvSession) store := by
      rw [v.serve_eq, hputs]
      rfl
    rw [hserve, clearChanged_eq_iff]
    exact ⟨fun h => ⟨h, hnil.mp hputs⟩, fun h => h.1⟩
  · exact ⟨fun h => absurd h (v.serve_of_put hputs), fun h => absurd (hnil.mpr h.2) hputs⟩

end PlayseekVisit

/-! ## §3. Every request, failed or not. -/

/-- **What survives a request**: for every request, every machine and every store,
the entry of the viewer is what it was before exactly when the request, if it gets as
far as its playlist, is quiet there.  Whether it fails makes no difference. -/
theorem entry_unchanged_iff (c : ConfigControl) (request : HttpRequest)
    (env : ∀ q : Query, q.Answer) (store : SessionStore) {mtvSession : JString}
    (hm : request.params "mtv_session".toList = some mtvSession) :
    ((playSeekHandler c request).exec env store).1 (sessionKey mtvSession)
        = store (sessionKey mtvSession)
      ↔ ∀ (timestamp : JString) (v : PlayseekVisit c mtvSession timestamp),
          v.request = request → v.env = env → v.Quiet (store (sessionKey mtvSession)) := by
  constructor
  · intro h timestamp v hv henv
    subst hv henv
    exact (v.serve_unchanged_iff store).mp h
  · intro h
    -- a request that does not get to its playlist does not touch the store
    cases hseek : request.params "playseek".toList with
    | none => unfold playSeekHandler; rw [hseek]; rfl
    | some seekTime =>
        cases hts : request.params "timestamp".toList with
        | none => unfold playSeekHandler; rw [hseek, hm, hts]; rfl
        | some timestamp =>
            cases huri : request.uri with
            | none => unfold playSeekHandler; rw [hseek, hm, hts, huri]; rfl
            | some uri =>
                have hplay : request.IsPlayseek seekTime mtvSession timestamp uri :=
                  ⟨hseek, hm, hts, huri⟩
                cases hpath : playlistPath c env uri with
                | none => rw [playSeekHandler_eq hplay, exec_withPlaylist, hpath]
                | some path =>
                    let v : PlayseekVisit c mtvSession timestamp :=
                      ⟨request, env, seekTime, uri, path, hplay, hpath⟩
                    exact (v.serve_unchanged_iff store).mpr (h timestamp v rfl rfl)

/-- A request with a seek time of three characters. -/
def shortSeek : HttpRequest :=
  playseekRequest "100".toList "viewer".toList "1".toList "/cctv.m3u8".toList none

/-- The machine of these requests, its playlist consisting of `lines`. -/
def machineOf (lines : List JString) : ∀ q : Query, q.Answer :=
  machine (shippedConfig.rootPath ++ "/cctv.m3u8".toList) (.opened lines .eof) 1508153152000

/-- It is rejected before anything is written. -/
theorem entry_unchanged_iff_short :
    ((playSeekHandler shippedConfig shortSeek).exec (machineOf (liveBody [1508153098]))
        emptyStore).1 (sessionKey "viewer".toList) = emptyStore (sessionKey "viewer".toList) := by
  refine (entry_unchanged_iff shippedConfig shortSeek (machineOf (liveBody [1508153098]))
    emptyStore (playseekRequest_isPlayseek _ _ _ _ _).mtv_session).mpr ?_
  intro timestamp v hv _
  refine ⟨fun _ => rfl, ?_⟩
  intro a ha
  have hseek : v.seekTime = "100".toList := by
    have h := v.isPlayseek.playseek
    rw [hv, show shortSeek.params "playseek".toList = some "100".toList from
      (playseekRequest_isPlayseek _ _ _ _ _).playseek] at h
    exact (Option.some.inj h).symm
  have hbad : transform2TimeOffset "100".toList = .error .illegalArgument := by decide
  unfold PlayseekVisit.absoluteTime transformAbsoluteTime at ha
  rw [hseek, hbad] at ha
  exact absurd ha (by simp [Except.map])

/-- A playlist whose second segment line has no dash. -/
def brokenLines : List JString :=
  liveHeader ++ liveTag :: liveBody [1508153098] ++ ["#EXTINF:6,".toList, "cctv.ts".toList]

/-- **A failed request leaves a session behind**: the handler throws on the second
segment line, and the session of the first is stored. -/
theorem failed_request_writes :
    ((playSeekHandler shippedConfig
          (playseekRequest "000100".toList "viewer".toList "1".toList "/cctv.m3u8".toList
            none)).exec
        (machineOf brokenLines) emptyStore).2 = .error .arrayIndexOutOfBounds
      ∧ emptyStore (sessionKey "viewer".toList) = none
      ∧ ((playSeekHandler shippedConfig
          (playseekRequest "000100".toList "viewer".toList "1".toList "/cctv.m3u8".toList
            none)).exec
        (machineOf brokenLines) emptyStore).1 (sessionKey "viewer".toList)
          = some (.session ⟨some "1".toList, 1508153098, 0⟩) := by
  decide +kernel

end NginxNettyHls.M3u8Filter
