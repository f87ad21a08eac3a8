/-
  NginxNettyHls.M3u8Filter.Isolation
  ──────────────────────────────────
  **WHO CAN NOTICE WHOM.**

    • Viewers: every store operation of a request, on every path through the
      handlers, is on the key of its own `mtv_session` (`each_handleGet`), and
      that key determines the `mtv_session`.  So viewers are isolated, operation
      by operation, whatever the interleaving.
    • Playlists of one viewer: the key names the viewer only, so requests for two
      playlists share one session and interfere, except where one of them is
      quiet, that is, leaves the session alone.
-/
import NginxNettyHls.KeyValue.Interleaving
import NginxNettyHls.M3u8Filter.Failure
import NginxNettyHls.M3u8Filter.Operations

namespace NginxNettyHls.M3u8Filter

open NginxNettyHls.Java
open KeyValue

/-! ## §1. Viewers. -/

/-- GET requests, each with its own clock reading and snapshots, and the viewer it
belongs to: the one its `mtv_session` names, if it has one. -/
structure Viewers (ι : Type) where
  request : ι → HttpRequest
  env : ι → ∀ q : Query, q.Answer
  viewer : ι → JString
  viewer_eq : ∀ i m, (request i).params "mtv_session".toList = some m → viewer i = m

namespace Viewers

variable {ι : Type} {c : ConfigControl}

/-- Requests with the viewers they name themselves. -/
def ofRequests (request : ι → HttpRequest) (env : ι → ∀ q : Query, q.Answer) : Viewers ι where
  request := request
  env := env
  viewer := fun i => ((request i).params "mtv_session".toList).getD []
  viewer_eq := by
    intro i m hm
    rw [hm]
    rfl

/-- All requests at their beginning. -/
def start (N : Viewers ι) (c : ConfigControl) (store : SessionStore) :
    Sys ι Unit JString Stored Query Query.Answer Reply where
  world := ()
  store := store
  threads := fun i => handleGet c (N.request i)
  seen := fun _ => none

/-- Only the requests of `viewer` at their beginning; nobody else has any. -/
def startAlone (N : Viewers ι) (c : ConfigControl) (viewer : JString) (store : SessionStore) :
    Sys ι Unit JString Stored Query Query.Answer Reply where
  world := ()
  store := store
  threads := fun i => if N.viewer i = viewer then handleGet c (N.request i) else .ret .unexpected
  seen := fun _ => none

variable [DecidableEq ι]

/-- **Viewers are isolated**: after any interleaving of the operations of all
requests, what is left of each request of a viewer, so also its reply, and what the
viewer's key holds are the same as after the run of that viewer's operations alone. -/
theorem viewers_isolated (N : Viewers ι) (c : ConfigControl) (store : SessionStore)
    (sched : List ι) (viewer : JString) :
    (∀ i, N.viewer i = viewer →
        ((N.start c store).exec (fun _ => N.env) sched).threads i
          = ((N.startAlone c viewer store).exec (fun _ => N.env)
              (sched.filter (fun i => N.viewer i = viewer))).threads i)
      ∧ ((N.start c store).exec (fun _ => N.env) sched).store (sessionKey viewer)
          = ((N.startAlone c viewer store).exec (fun _ => N.env)
              (sched.filter (fun i => N.viewer i = viewer))).store (sessionKey viewer) := by
  have hdisj : ∀ o o' k, k = sessionKey o → k = sessionKey o' → o = o' := by
    intro o o' k h h'
    exact sessionKey_injective (h.symm.trans h')
  have hconf : Confined N.viewer (fun o k => k = sessionKey o) (N.start c store) := by
    intro i
    refine each_handleGet (fun m timestamp hm _ => ?_)
    rw [N.viewer_eq i m hm]
    exact ⟨rfl, fun _ _ => rfl, rfl⟩
  have hagree : Agree N.viewer (fun o k => k = sessionKey o) viewer (N.start c store)
      (N.startAlone c viewer store) := by
    refine ⟨rfl, fun i hi => ?_, fun k _ => rfl⟩
    exact (if_pos hi).symm
  have h := exec_isolated hdisj (fun _ => N.env) viewer sched _ _ hconf hagree
  exact ⟨h.threads, h.store _ rfl⟩

end Viewers

/-- Two viewers who seek in the same playlist, to different start points. -/
def seekPair : Viewers Bool :=
  Viewers.ofRequests
    (fun late => playseekRequest (if late then "000050".toList else "000100".toList)
      (if late then "late".toList else "early".toList) "1".toList "/cctv.m3u8".toList none)
    (fun _ => (liveVisit "000100".toList _ liveTimes_first).env)

/-- Their operations in turn, more than the two requests have. -/
def inTurn : List Bool := (List.replicate 12 [false, true]).flatten

/-- Each of the two gets a session of their own, the one it gets alone. -/
theorem viewers_isolated_pair :
    ((seekPair.startAlone shippedConfig "early".toList emptyStore).exec (fun _ => seekPair.env)
        (inTurn.filter (fun i => seekPair.viewer i = "early".toList))).store
          (sessionKey "early".toList)
        = some (.session ⟨some "1".toList, 1508153098, 0⟩)
      ∧ ((seekPair.startAlone shippedConfig "late".toList emptyStore).exec (fun _ => seekPair.env)
        (inTurn.filter (fun i => seekPair.viewer i = "late".toList))).store
          (sessionKey "late".toList)
        = some (.session ⟨some "1".toList, 1508153104, 0⟩) := by
  constructor
  · rw [← (seekPair.viewers_isolated shippedConfig emptyStore inTurn "early".toList).2]
    decide +kernel
  · rw [← (seekPair.viewers_isolated shippedConfig emptyStore inTurn "late".toList).2]
    decide +kernel

/-! ## §2. Playlists of one viewer. -/

section Playlists

variable {c : ConfigControl} {mtvSession timestamp : JString}

/-- A request touches no key but its own. -/
theorem PlayseekVisit.serve_frame (v : PlayseekVisit c mtvSession timestamp)
    (store : SessionStore) {k : JString} (hk : k ≠ sessionKey mtvSession) :
    (v.serve store).1 k = store k := by
  have hput : ∀ (puts : List SessionDef) (σ : SessionStore),
      putAll (sessionKey mtvSession) puts σ k = σ k := by
    intro puts
    induction puts with
    | nil => intro σ; rfl
    | cons s puts ih => intro σ; exact (ih _).trans (Function.update_of_ne hk _ _)
  rw [v.serve_eq]
  dsimp only
  rw [hput]
  unfold clearChanged
  cases getSession (store (sessionKey mtvSession)) with
  | none => rfl
  | some s =>
      dsimp only
      split_ifs
      · exact Function.update_of_ne hk _ _
      · rfl

/-- A quiet request leaves the whole store alone. -/
theorem PlayseekVisit.serve_quiet (v : PlayseekVisit c mtvSession timestamp)
    {store : SessionStore} (h : v.Quiet (store (sessionKey mtvSession))) :
    (v.serve store).1 = store := by
  funext k
  by_cases hk : k = sessionKey mtvSession
  · subst hk
    exact (v.serve_unchanged_iff store).mpr h
  · exact v.serve_frame store hk

/-- The run of a list of requests of one viewer. -/
abbrev visitTrace (visits : List (PlayseekVisit c mtvSession timestamp))
    (store : SessionStore) : List (Handled SessionStore (PlayseekVisit c mtvSession timestamp)) :=
  trace (fun v store => v.serve store) visits store

/-- The replies to the requests for the playlist at `path`. -/
def repliesTo (path : JString)
    (es : List (Handled SessionStore (PlayseekVisit c mtvSession timestamp))) :
    List PlayseekReply :=
  (es.filter (fun e => e.visit.path = path)).map Handled.reply

/-- **Quiet requests for another playlist go unnoticed**: in any run of requests of one
viewer and one timestamp in which every request for another playlist than `path` is
quiet where it comes, the replies to the requests for `path` are those of the run
without the others. -/
theorem quiet_playlists_isolated (path : JString)
    (visits : List (PlayseekVisit c mtvSession timestamp)) (store : SessionStore)
    (hquiet : ∀ e ∈ visitTrace visits store, e.visit.path ≠ path →
      e.visit.Quiet (e.before (sessionKey mtvSession))) :
    repliesTo path (visitTrace visits store)
      = repliesTo path (visitTrace (visits.filter (fun v => v.path = path)) store) := by
  induction visits generalizing store with
  | nil => rfl
  | cons v visits ih =>
      have hrest := ih (v.serve store).1 (fun e he => hquiet e (List.mem_cons_of_mem _ he))
      by_cases hv : v.path = path
      · -- both runs handle `v` from the same store
        rw [List.filter_cons_of_pos (by simpa using hv)]
        show repliesTo path (⟨store, v, (v.serve store).2⟩ :: visitTrace visits (v.serve store).1)
          = repliesTo path (⟨store, v, (v.serve store).2⟩ :: visitTrace _ (v.serve store).1)
        unfold repliesTo at hrest ⊢
        rw [List.filter_cons_of_pos (by simpa using hv),
          List.filter_cons_of_pos (by simpa using hv), List.map_cons, List.map_cons, hrest]
      · rw [List.filter_cons_of_neg (by simpa using hv)]
        have hq := hquiet ⟨store, v, (v.serve store).2⟩ List.mem_cons_self hv
        rw [v.serve_quiet hq] at hrest
        show repliesTo path
          (⟨store, v, (v.serve store).2⟩ :: visitTrace visits (v.serve store).1) = _
        rw [v.serve_quiet hq, ← hrest]
        unfold repliesTo
        rw [List.filter_cons_of_neg (by simpa using hv)]

end Playlists

/-- A request of the same viewer for a second playlist. -/
def secondVisit (times : List Int) (h : LiveTimes times) :
    PlayseekVisit shippedConfig "viewer".toList "1".toList :=
  PlayseekVisit.single shippedConfig _ _ "000100".toList "/cctv2.m3u8".toList none
    (Playlist.live times h).file 1508153152000

/-- Two requests for the first playlist with one for the second in between. -/
def mixedVisits (times : List Int) (h : LiveTimes times) :
    List (PlayseekVisit shippedConfig "viewer".toList "1".toList) :=
  [liveVisit "000100".toList _ liveTimes_first, secondVisit times h,
   liveVisit "000100".toList _ liveTimes_dropped]

theorem liveTimes_old : LiveTimes [1508153080] :=
  ⟨by decide +kernel, by decide, by decide +kernel⟩

/-- The second playlist has nothing newer than the session. -/
theorem quiet_playlists_isolated_old :
    repliesTo (shippedConfig.rootPath ++ "/cctv.m3u8".toList)
        (visitTrace (mixedVisits _ liveTimes_old) emptyStore)
      = repliesTo (shippedConfig.rootPath ++ "/cctv.m3u8".toList)
          (visitTrace ((mixedVisits _ liveTimes_old).filter
            (fun v => v.path = shippedConfig.rootPath ++ "/cctv.m3u8".toList)) emptyStore) := by
  refine quiet_playlists_isolated _ _ _ ?_
  have hstored : ((liveVisit "000100".toList _ liveTimes_first).serve emptyStore).1
      (sessionKey "viewer".toList)
        = some (.session ⟨some "1".toList, 1508153098, 0⟩) := by decide +kernel
  intro e he hpath
  simp only [visitTrace, mixedVisits, trace, List.mem_cons, List.not_mem_nil, or_false] at he
  rcases he with rfl | rfl | rfl
  · exact absurd rfl hpath
  · show (secondVisit _ liveTimes_old).Quiet
      (((liveVisit "000100".toList _ liveTimes_first).serve emptyStore).1
        (sessionKey "viewer".toList))
    rw [hstored]
    refine ⟨fun h => absurd h (by simp [keptSession, checkTimestampChange]), ?_⟩
    show NoneInPlace 1508153098 0 (secondVisit _ liveTimes_old).file.segments
    have hcounted : counted 1508153098 (secondVisit _ liveTimes_old).file.segments = [] := by
      decide +kernel
    intro k g _ hg
    rw [hcounted] at hg
    simp at hg
  · exact absurd rfl hpath

theorem liveTimes_second : LiveTimes [1508153101, 1508153107, 1508153113] :=
  ⟨by decide +kernel, by decide, by decide +kernel⟩

/-- **The two playlists share one session**: a request for the second moves the
session, and the next response for the first is another one. -/
theorem mixed_playlists_interfere :
    repliesTo (shippedConfig.rootPath ++ "/cctv.m3u8".toList)
        (visitTrace (mixedVisits _ liveTimes_second) emptyStore)
      ≠ repliesTo (shippedConfig.rootPath ++ "/cctv.m3u8".toList)
          (visitTrace ((mixedVisits _ liveTimes_second).filter
            (fun v => v.path = shippedConfig.rootPath ++ "/cctv.m3u8".toList)) emptyStore) := by
  decide +kernel

end NginxNettyHls.M3u8Filter
