/-
  NginxNettyHls.M3u8Filter.Polling
  ────────────────────────────────
  **A POLLING VIEWER AND THE EXPIRY OF ITS SESSION.**

  The session is stored with `SETEX` and lives for `keyAliveTimeout`; reading it
  does not renew it.  A follow-up writes the session only when it moves it, that
  is, when it has a newer segment to list.  So polling keeps a session alive
  exactly as long as the playlist keeps growing: each request has to come within
  `keyAliveTimeout` of the last one that LISTED A SEGMENT (`Renewed`), not of the
  last one.

    • `serveAt_visible` — at one instant the expiring store is the plain one;
    • `TimedVisit.step` — what one request does to the entry and its deadline.
-/
import NginxNettyHls.KeyValue.Expiry
import NginxNettyHls.M3u8Filter.Concurrent
import NginxNettyHls.M3u8Filter.Operations

namespace NginxNettyHls.M3u8Filter

open NginxNettyHls.Java
open KeyValue
open Order

/-! ## §1. Requests at instants. -/

/-- A playseek request handled at the instant `now` of the store's clock, over a feed. -/
structure TimedVisit (c : ConfigControl) (mtvSession timestamp : JString)
    extends PlayseekVisit c mtvSession timestamp where
  now : Int
  feed : Feed
  file_eq : toPlayseekVisit.file = feed.file

/-- The session store with deadlines. -/
abbrev ExpiringStore := Expiring JString Stored

namespace TimedVisit

variable {c : ConfigControl} {mtvSession timestamp : JString}

/-- The request handled alone on the expiring store. -/
def serveAt (v : TimedVisit c mtvSession timestamp) (σ : ExpiringStore) :
    ExpiringStore × PlayseekReply :=
  (playSeekHandler c v.request).execAt v.now v.env σ

/-- Every write of a request is for `keyAliveTimeout`. -/
theorem livesFor (v : TimedVisit c mtvSession timestamp) :
    (playSeekHandler c v.request).Each (Prog.Op.LivesFor c.keyAliveTimeout) :=
  each_playSeekHandler (fun _ _ _ _ => ⟨trivial, fun _ _ => rfl, trivial⟩)

/-- At one instant the request sees and leaves the store of the visible entries. -/
theorem serveAt_visible (v : TimedVisit c mtvSession timestamp) (h : 0 ≤ c.keyAliveTimeout)
    (σ : ExpiringStore) :
    (visible v.now (v.serveAt σ).1, (v.serveAt σ).2) = v.serve (visible v.now σ) :=
  execAt_visible v.now v.env h _ v.livesFor σ

/-- What the request leaves of the viewer's entry. -/
theorem serveAt_entry (v : TimedVisit c mtvSession timestamp) (σ : ExpiringStore) :
    (v.serveAt σ).1 (sessionKey mtvSession) = σ (sessionKey mtvSession)
      ∨ (v.serveAt σ).1 (sessionKey mtvSession) = none
      ∨ ∃ stored, (v.serveAt σ).1 (sessionKey mtvSession)
          = some ⟨stored, v.now + c.keyAliveTimeout⟩ :=
  execAt_entry v.now v.env _ v.livesFor σ _

end TimedVisit

/-- The reply has a playlist with a segment. -/
def listsSegment : PlayseekReply → Bool
  | .ok (_, ⟨_, some sb⟩) => !(listed sb).isEmpty
  | _ => false

/-- The entry holds the session `s` until `r + keyAliveTimeout` at least. -/
def AliveFrom (c : ConfigControl) (r : Int) (s : SessionDef) (e : Option (Entry Stored)) : Prop :=
  ∃ deadline, e = some ⟨.session s, deadline⟩ ∧ r + c.keyAliveTimeout ≤ deadline

/-- Such an entry is visible until then. -/
theorem AliveFrom.visible {c : ConfigControl} {r now : Int} {s : SessionDef} {key : JString}
    {σ : ExpiringStore} (h : AliveFrom c r s (σ key)) (hnow : now < r + c.keyAliveTimeout) :
    KeyValue.visible now σ key = some (.session s) := by
  obtain ⟨deadline, he, hd⟩ := h
  unfold KeyValue.visible
  rw [he]
  exact if_neg (show ¬ deadline < now by omega)

/-! ## §2. One request. -/

namespace TimedVisit

variable {c : ConfigControl} {mtvSession timestamp : JString} {σ : ExpiringStore}
  {s : SessionDef}

/-- A session visible after the request is in the entry as it was, or in a new one. -/
theorem alive_of_visible (v : TimedVisit c mtvSession timestamp)
    (h : visible v.now (v.serveAt σ).1 (sessionKey mtvSession) = some (.session s)) :
    visible v.now σ (sessionKey mtvSession) = some (.session s)
        ∧ (v.serveAt σ).1 (sessionKey mtvSession) = σ (sessionKey mtvSession)
      ∨ AliveFrom c v.now s ((v.serveAt σ).1 (sessionKey mtvSession)) := by
  rcases v.serveAt_entry σ with e | e | ⟨stored, e⟩
  · unfold visible at h ⊢
    rw [e] at h
    exact Or.inl ⟨h, e⟩
  · unfold visible at h
    rw [e] at h
    exact absurd h (by simp)
  · refine Or.inr ⟨_, ?_, le_rfl⟩
    unfold visible at h
    rw [e] at h ⊢
    dsimp only at h
    split_ifs at h
    rw [Option.some.injEq] at h
    rw [h]

/-- **A request that creates the session** leaves it alive from now on, at a segment
of its playlist. -/
theorem created (v : TimedVisit c mtvSession timestamp) (httl : 0 ≤ c.keyAliveTimeout)
    (hbefore : keptSession timestamp (visible v.now σ (sessionKey mtvSession)) = none)
    (hafter : keptSession timestamp
      (visible v.now (v.serveAt σ).1 (sessionKey mtvSession)) = some s) :
    AliveFrom c v.now s ((v.serveAt σ).1 (sessionKey mtvSession))
      ∧ s.timestamp = some timestamp ∧ ∃ f, At v.feed.segments f s := by
  obtain ⟨hvis, hts⟩ := keptSession_eq_some hafter
  have hnew : AliveFrom c v.now s ((v.serveAt σ).1 (sessionKey mtvSession)) := by
    rcases v.alive_of_visible hvis with ⟨hold, _⟩ | h
    · rw [hold, keptSession_session hts] at hbefore
      exact absurd hbefore (by simp)
    · exact h
  refine ⟨hnew, hts, ?_⟩
  -- on the visible store the request seeks anew, and writes one session or none
  have hcleared := keptSession_clearChanged hbefore
  have hkey := congrFun (congrArg Prod.fst (v.serveAt_visible httl σ)) (sessionKey mtvSession)
  dsimp only at hkey
  cases ha : v.absoluteTime with
  | error e =>
      rw [v.serve_rejected hbefore ha] at hkey
      rw [hkey, hcleared] at hafter
      exact absurd hafter (by simp)
  | ok a =>
      rw [v.serve_eq, v.run_anew hbefore ha, v.file_eq] at hkey
      have hint := v.isInt32_absoluteTime ha
      rcases putAll_cases (sessionKey mtvSession)
          (m3u8PlayseekFilter timestamp v.uri.query a v.feed.file).puts
          (clearChanged timestamp (sessionKey mtvSession) (visible v.now σ)) with e | ⟨s', hs', e⟩
      · rw [hkey.trans e, hcleared] at hafter
        exact absurd hafter (by simp)
      · rw [hkey.trans e, Option.some.injEq, Stored.session.injEq] at hvis
        rw [hvis] at hs'
        exact (at_created hint hs').2

/-- What a follow-up does to the visible store, and its reply. -/
theorem followUp_visible (v : TimedVisit c mtvSession timestamp) (httl : 0 ≤ c.keyAliveTimeout)
    (hvis : visible v.now σ (sessionKey mtvSession) = some (.session s))
    (hts : s.timestamp = some timestamp) {f : Nat} (hat : At v.feed.segments f s) :
    visible v.now (v.serveAt σ).1
        = putAll (sessionKey mtvSession) (followPuts s (newer s.lastTime v.feed.segments))
            (visible v.now σ)
      ∧ ∃ sb, (m3u8PlayseekFilterSession s v.uri.query v.feed.file).result = .ok sb
          ∧ (v.serveAt σ).2 = playseekReply (.ok sb)
          ∧ listed sb = (newer s.lastTime v.feed.segments).take 3 := by
  have hkept : keptSession timestamp (visible v.now σ (sessionKey mtvSession)) = some s := by
    rw [hvis]
    exact keptSession_session hts
  obtain ⟨hputs, sb, hresult, hlisted, _⟩ :=
    v.feed.session_run_present s v.uri.query hat.present
  have h := v.serveAt_visible httl σ
  rw [v.serve_eq, v.run_kept hkept, v.file_eq, hputs, hresult, clearChanged_of_kept hkept,
    Prod.mk.injEq] at h
  exact ⟨h.1, sb, hresult, h.2, hlisted.trans (listed_followOut _ _ _)⟩

/-- Nothing newer: the response lists nothing and the session stays as it is, with
a deadline that has not moved back. -/
theorem step_idle (v : TimedVisit c mtvSession timestamp) {r : Int}
    (halive : AliveFrom c r s (σ (sessionKey mtvSession)))
    (hts : s.timestamp = some timestamp) {f : Nat} (hat : At v.feed.segments f s)
    (hr : r ≤ v.now) (hnow : v.now < r + c.keyAliveTimeout)
    (hnone : newer s.lastTime v.feed.segments = []) :
    listsSegment (v.serveAt σ).2 = false
      ∧ AliveFrom c r s ((v.serveAt σ).1 (sessionKey mtvSession)) := by
  have hvis := halive.visible hnow
  obtain ⟨hstore, sb, _, hreply, hlisted⟩ := v.followUp_visible (by omega) hvis hts hat
  rw [hnone] at hstore hlisted
  constructor
  · rw [hreply]
    show (!(listed sb).isEmpty) = false
    rw [hlisted]
    rfl
  · have hsame := (congrFun hstore (sessionKey mtvSession)).trans hvis
    rcases v.alive_of_visible hsame with ⟨_, e⟩ | ⟨deadline, e, hd⟩
    · rw [e]
      exact halive
    · exact ⟨deadline, e, by omega⟩

/-- Something newer: the response lists it and the session is stored again, one
segment further on, for `keyAliveTimeout` from now. -/
theorem step_moved (v : TimedVisit c mtvSession timestamp) {r : Int}
    (halive : AliveFrom c r s (σ (sessionKey mtvSession)))
    (hts : s.timestamp = some timestamp) {f : Nat} (hat : At v.feed.segments f s)
    (hr : r ≤ v.now) (hnow : v.now < r + c.keyAliveTimeout) {g : Segment} {rest : List Segment}
    (hsome : newer s.lastTime v.feed.segments = g :: rest) :
    listsSegment (v.serveAt σ).2 = true
      ∧ AliveFrom c v.now (s.advance g.time) ((v.serveAt σ).1 (sessionKey mtvSession)) := by
  have hvis := halive.visible hnow
  obtain ⟨hstore, sb, _, hreply, hlisted⟩ := v.followUp_visible (by omega) hvis hts hat
  rw [hsome] at hstore hlisted
  constructor
  · rw [hreply]
    show (!(listed sb).isEmpty) = true
    rw [hlisted]
    rfl
  · have hkey := congrFun hstore (sessionKey mtvSession)
    rw [followPuts_cons, putAll_singleton] at hkey
    rcases v.alive_of_visible hkey with ⟨hold, _⟩ | h
    · -- the entry cannot be the old one: its `last_time` is an older one
      rw [hvis, Option.some.injEq, Stored.session.injEq] at hold
      have hlater : s.lastTime < g.time := (head_above hsome).2
      have hsame : s.lastTime = g.time := congrArg SessionDef.lastTime hold
      omega
    · exact h

/-- **Step lemma**: a request within `keyAliveTimeout` of `r` leaves a session of the
same numbering, alive from `r` on, and from now on if the response lists a segment. -/
theorem step (v : TimedVisit c mtvSession timestamp) {r : Int}
    (halive : AliveFrom c r s (σ (sessionKey mtvSession)))
    (hts : s.timestamp = some timestamp) {f : Nat} (hat : At v.feed.segments f s)
    (hr : r ≤ v.now) (hnow : v.now < r + c.keyAliveTimeout) :
    ∃ s', AliveFrom c (if listsSegment (v.serveAt σ).2 then v.now else r) s'
          ((v.serveAt σ).1 (sessionKey mtvSession))
      ∧ s'.timestamp = some timestamp ∧ At v.feed.segments f s' := by
  cases hw : newer s.lastTime v.feed.segments with
  | nil =>
      obtain ⟨hlists, h⟩ := v.step_idle halive hts hat hr hnow hw
      rw [hlists]
      exact ⟨s, h, hts, hat⟩
  | cons g rest =>
      obtain ⟨hlists, h⟩ := v.step_moved halive hts hat hr hnow hw
      obtain ⟨_, _, hnext⟩ := hat.follow_feed v.feed
      rw [hlists]
      exact ⟨s.advance g.time, h, hts, (hnext g rest hw).2⟩

/-- A follow-up that lists a segment announces more than 0. -/
theorem number_pos (v : TimedVisit c mtvSession timestamp) (httl : 0 ≤ c.keyAliveTimeout)
    (hvis : visible v.now σ (sessionKey mtvSession) = some (.session s))
    (hts : s.timestamp = some timestamp) {f : Nat} (hat : At v.feed.segments f s)
    {sb : List Piece} (hreply : (v.serveAt σ).2 = playseekReply (.ok sb))
    (hne : listed sb ≠ []) {n : Int} (hn : announced sb = some n) : 0 < n := by
  obtain ⟨_, sb', hresult, hreply', _⟩ := v.followUp_visible httl hvis hts hat
  rw [hreply] at hreply'
  obtain rfl := playseekReply_ok_inj hreply'
  have hanswer : Answered (fun _ => True) False (.ok 0) v.feed.segments sb :=
    answered_followUp trivial hat hresult
  cases hanswer with
  | followed f q _ number _ =>
      have h := number hne n hn
      omega
  | created hfresh => exact absurd hfresh id

end TimedVisit

/-! ## §3. Runs. -/

section Runs

variable {c : ConfigControl} {mtvSession timestamp : JString}

/-- The playlist is only appended to, from request to request. -/
def Growing : Feed → List (TimedVisit c mtvSession timestamp) → Prop
  | _, [] => True
  | P, v :: vs => P ≤ v.feed ∧ Growing v.feed vs

/-- Each request comes less than `keyAliveTimeout` after the last one whose response
listed a segment; the first of these came at `r`. -/
def Renewed (c : ConfigControl) {mtvSession timestamp : JString} :
    Int → List (Handled ExpiringStore (TimedVisit c mtvSession timestamp)) → Prop
  | _, [] => True
  | r, e :: es =>
      r ≤ e.visit.now ∧ e.visit.now < r + c.keyAliveTimeout
        ∧ Renewed c (if listsSegment e.reply then e.visit.now else r) es

instance Renewed.decidable : ∀ (r : Int)
    (es : List (Handled ExpiringStore (TimedVisit c mtvSession timestamp))),
    Decidable (Renewed c r es)
  | _, [] => inferInstanceAs (Decidable True)
  | r, e :: es =>
      have := Renewed.decidable (if listsSegment e.reply then e.visit.now else r) es
      inferInstanceAs (Decidable (r ≤ e.visit.now ∧ e.visit.now < r + c.keyAliveTimeout
        ∧ Renewed c (if listsSegment e.reply then e.visit.now else r) es))

/-- The request finds its session, and does not start the numbering again. -/
def GoesOn (e : Handled ExpiringStore (TimedVisit c mtvSession timestamp)) : Prop :=
  getSession (visible e.visit.now e.before (sessionKey mtvSession)) ≠ none
    ∧ ∀ sb, e.reply = playseekReply (.ok sb) → listed sb ≠ [] → announced sb ≠ some 0

/-- **Run lemma**: a session that is renewed in time is found by every request. -/
theorem goesOn_run :
    ∀ (vs : List (TimedVisit c mtvSession timestamp)) {σ : ExpiringStore} {P : Feed} {r : Int}
      {s : SessionDef} {f : Nat}, AliveFrom c r s (σ (sessionKey mtvSession)) →
      s.timestamp = some timestamp → At P.segments f s → Growing P vs →
      Renewed c r (trace TimedVisit.serveAt vs σ) →
      ∀ e ∈ trace TimedVisit.serveAt vs σ, GoesOn e := by
  intro vs
  induction vs with
  | nil => intro σ P r s f _ _ _ _ _ e he; simp [trace] at he
  | cons v vs ih =>
      intro σ P r s f halive hts hat hgrow hrenewed e he
      obtain ⟨hle, hgrow'⟩ := hgrow
      obtain ⟨hr, hnow, hrest⟩ := hrenewed
      have hat' := hat.mono hle
      rcases List.mem_cons.mp he with rfl | he
      · have hvis := halive.visible hnow
        refine ⟨by rw [hvis]; simp [getSession], ?_⟩
        intro sb hreply hne h0
        exact absurd (v.number_pos (by omega) hvis hts hat' hreply hne h0) (by omega)
      · obtain ⟨s', halive', hts', hat''⟩ := v.step halive hts hat' hr hnow
        exact ih halive' hts' hat'' hgrow' hrest e he

/-- **A session lives on as long as polling finds something new in time**: after the
request that creates it, `get_session` never returns null while each request comes
less than `keyAliveTimeout` after the last one that listed a segment. -/
theorem polling_keeps_session (v : TimedVisit c mtvSession timestamp) {σ : ExpiringStore}
    (hbefore : keptSession timestamp (visible v.now σ (sessionKey mtvSession)) = none)
    (hafter : keptSession timestamp
      (visible v.now (v.serveAt σ).1 (sessionKey mtvSession)) ≠ none)
    (vs : List (TimedVisit c mtvSession timestamp)) (hgrow : Growing v.feed vs)
    (hrenewed : Renewed c v.now (trace TimedVisit.serveAt vs (v.serveAt σ).1)) :
    ∀ e ∈ trace TimedVisit.serveAt vs (v.serveAt σ).1, GoesOn e := by
  intro e he
  obtain ⟨s, hs⟩ := Option.ne_none_iff_exists'.mp hafter
  have httl : 0 ≤ c.keyAliveTimeout := by
    cases vs with
    | nil => simp [trace] at he
    | cons v' vs =>
        obtain ⟨hr, hnow, _⟩ := hrenewed
        omega
  obtain ⟨halive, hts, f, hat⟩ := v.created httl hbefore hs
  exact goesOn_run vs halive hts hat hgrow hrenewed e he

end Runs

/-- A request for the last minute at the instant `now`, over the segments of `times`. -/
def minutePoll (now : Int) (times : List Int) (h : LiveTimes times) :
    TimedVisit shippedConfig "viewer".toList "1".toList where
  toPlayseekVisit := PlayseekVisit.single shippedConfig _ _ "000100".toList
    "/cctv.m3u8".toList none (Playlist.live times h).file (now * 1000)
  now := now
  feed := (Playlist.live times h).toFeed
  file_eq := PlayseekVisit.single_file _ _ _ _ _ _ _ _

/-- The first request of the runs below: one segment is new enough. -/
def openingPoll : TimedVisit shippedConfig "viewer".toList "1".toList :=
  minutePoll 1508153152 [1508153098] ⟨by decide +kernel, by decide, by decide +kernel⟩

/-- An expiring store without any entry. -/
def emptyExpiring : ExpiringStore := fun _ => none

theorem openingPoll_creates :
    keptSession "1".toList
        (visible openingPoll.now emptyExpiring (sessionKey "viewer".toList)) = none
      ∧ keptSession "1".toList (visible openingPoll.now (openingPoll.serveAt emptyExpiring).1
          (sessionKey "viewer".toList)) ≠ none := by
  decide +kernel

/-- Two follow-ups, 100 seconds apart, with a new segment each. -/
def busyPolls : List (TimedVisit shippedConfig "viewer".toList "1".toList) :=
  [minutePoll 1508153252 [1508153098, 1508153104]
     ⟨by decide +kernel, by decide, by decide +kernel⟩,
   minutePoll 1508153352 [1508153098, 1508153104, 1508153110]
     ⟨by decide +kernel, by decide, by decide +kernel⟩]

theorem polling_keeps_session_busy :
    Renewed shippedConfig openingPoll.now
        (trace TimedVisit.serveAt busyPolls (openingPoll.serveAt emptyExpiring).1)
      ∧ ∀ e ∈ trace TimedVisit.serveAt busyPolls (openingPoll.serveAt emptyExpiring).1,
          GoesOn e := by
  have hrenewed : Renewed shippedConfig openingPoll.now
      (trace TimedVisit.serveAt busyPolls (openingPoll.serveAt emptyExpiring).1) := by
    decide +kernel
  exact ⟨hrenewed, polling_keeps_session openingPoll openingPoll_creates.1 openingPoll_creates.2
    busyPolls ⟨⟨[liveSegment 1508153104], rfl⟩, ⟨[liveSegment 1508153110], rfl⟩, trivial⟩
    hrenewed⟩

/-- Two follow-ups, 100 seconds apart, the first of them without a new segment. -/
def idlePolls : List (TimedVisit shippedConfig "viewer".toList "1".toList) :=
  [minutePoll 1508153252 [1508153098] ⟨by decide +kernel, by decide, by decide +kernel⟩,
   minutePoll 1508153352 [1508153098, 1508153300]
     ⟨by decide +kernel, by decide, by decide +kernel⟩]

/-- **A polling viewer loses its session**: requests come every 100 seconds, with a
`keyAliveTimeout` of 120; the second has nothing to list and does not renew the
session, the third finds none and lists its segment under the number 0 again. -/
theorem polling_loses_session :
    (keptSession "1".toList
          (visible openingPoll.now emptyExpiring (sessionKey "viewer".toList)) = none
        ∧ keptSession "1".toList (visible openingPoll.now (openingPoll.serveAt emptyExpiring).1
            (sessionKey "viewer".toList)) ≠ none)
      ∧ Growing openingPoll.feed idlePolls
      ∧ (openingPoll.now :: idlePolls.map TimedVisit.now).IsChain
          (fun t t' => t ≤ t' ∧ t' < t + shippedConfig.keyAliveTimeout)
      ∧ ∃ e ∈ trace TimedVisit.serveAt idlePolls (openingPoll.serveAt emptyExpiring).1,
          getSession (visible e.visit.now e.before (sessionKey "viewer".toList)) = none
            ∧ ∃ sb, e.reply = playseekReply (.ok sb) ∧ announced sb = some 0
              ∧ listed sb = [liveSegment 1508153300] := by
  refine ⟨openingPoll_creates, ⟨⟨[], rfl⟩, ⟨[liveSegment 1508153300], rfl⟩, trivial⟩,
    by decide, ?_⟩
  exact ⟨_, List.mem_cons_of_mem _ List.mem_cons_self, by decide +kernel,
    [.title "#EXTM3U".toList, .mediaSequence, .number 0, .entry (liveSegment 1508153300) none],
    by decide +kernel⟩

end NginxNettyHls.M3u8Filter
