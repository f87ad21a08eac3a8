/-
  NginxNettyHls.M3u8Filter.MediaSequence
  ──────────────────────────────────────
  **THE MEDIA SEQUENCE OVER A RUN OF REQUESTS.**

  The segments a viewer can ever be shown form one TIMELINE; every playlist of
  the run is a window of it.  A session stands AT `f + q` (`At`): its number is
  `q` and its `last_time` is the time of segment `f + q`.  The response that
  creates the session fixes `f` (`Poll.create_step`), every follow-up moves the
  session one segment on and shows, under the number `q`, the timeline from
  `f + q` on (`Poll.follow_step`, `consistent_follow`).

  Two things can come in between, and both are exhibited:

    • the 32-bit comparison `ts_time - absolute_time > 0` wraps around and cuts
      the first window short; `SeekExact` excludes it;
    • the segment with `last_time` has left the playlist (`LeftBehind`): the
      response lists its first segment before any number, and the session moves
      past it (`disagrees_leftBehind`).  Otherwise the response and the stored
      session agree (`agrees_anew`, `agrees_present`).
-/
import NginxNettyHls.M3u8Filter.Serial

namespace NginxNettyHls.M3u8Filter

open NginxNettyHls.Java
open Order

/-! ## §1. The timeline. -/

/-- The segments of a file in which every segment line has its own EXTINF line,
one that follows the segment before it. -/
def ownSegments : Option JString → List JString → Option (List Segment)
  | _, [] => some []
  | own, s :: rest =>
      match lineKind s with
      | .extinf => ownSegments (some s) rest
      | .segment =>
          match own, getTsTime s with
          | some ei, .ok t => (ownSegments none rest).map (⟨some ei, s, t⟩ :: ·)
          | _, _ => none
      | _ => ownSegments own rest

/-- With an EXTINF line each, the segments are what the filters read. -/
theorem tsSegments_of_own :
    ∀ (lines : List JString) (own ei : Option JString) (gs : List Segment),
      ownSegments own lines = some gs → (own = none ∨ own = ei) →
      tsSegments ei lines = (gs, none) := by
  intro lines
  induction lines with
  | nil =>
      intro own ei gs h _
      simp only [ownSegments, Option.some.injEq] at h
      rw [← h]
      rfl
  | cons s rest ih =>
      intro own ei gs h hown
      simp only [ownSegments] at h
      simp only [tsSegments]
      cases hk : lineKind s with
      | extinf =>
          simp only [hk] at h
          exact ih (some s) (some s) gs h (Or.inr rfl)
      | segment =>
          simp only [hk] at h
          cases own with
          | none => simp at h
          | some o =>
              cases ht : getTsTime s with
              | error e => simp [ht] at h
              | ok t =>
                  simp only [ht, Option.map_eq_some_iff] at h
                  obtain ⟨rest', hrest, hgs⟩ := h
                  obtain rfl : ei = some o := (hown.resolve_left (by simp)).symm
                  simp only [ih none (some o) rest' hrest (Or.inl rfl), ← hgs]
      | title | mediaSequence | other =>
          simp only [hk] at h
          exact ih own ei gs h hown

/-- One request of the viewer: its playlist is the window `[lo, hi)` of the
timeline. -/
structure Poll (c : ConfigControl) (mtvSession timestamp : JString)
    (timeline : List Segment) extends PlayseekVisit c mtvSession timestamp where
  playlist : Playlist
  file_eq : toPlayseekVisit.file = playlist.file
  lo : Nat
  hi : Nat
  window : ownSegments none playlist.lines = some ((timeline.take hi).drop lo)

namespace Poll

variable {c : ConfigControl} {mtvSession timestamp : JString} {timeline : List Segment}

theorem segments_eq (p : Poll c mtvSession timestamp timeline) :
    p.playlist.segments = (timeline.take p.hi).drop p.lo := by
  have h := tsSegments_of_own p.playlist.lines none none _ p.window (Or.inl rfl)
  rw [p.playlist.reads] at h
  exact congrArg Prod.fst h

/-- The first segment shown from place `i` of the playlist on. -/
theorem head_getElem (p : Poll c mtvSession timestamp timeline) {i : Nat} {g : Segment}
    (h : ((p.playlist.segments.drop i).take 3).head? = some g) :
    timeline[p.lo + i]? = some g := by
  rw [List.head?_take, if_neg (by omega), List.head?_drop, p.segments_eq,
    List.getElem?_drop, List.getElem?_take] at h
  split_ifs at h
  exact h

/-- The response is the tags of the file, a number `q`, and up to three segments
from `f + q` on: as many as the playlist has. -/
def Shows (p : Poll c mtvSession timestamp timeline) (f : Nat) (sb : List Piece) : Prop :=
  ∃ q : Nat, sb = p.playlist.titles ++ .mediaSequence :: .number q
    :: entries p.uri.query (((timeline.take p.hi).drop (f + q)).take 3)

end Poll

/-- The session is at segment `f + q` of the timeline and has number `q`. -/
def At (timeline : List Segment) (f : Nat) (s : SessionDef) : Prop :=
  ∃ (q : Nat) (g : Segment), s.sequence = q ∧ timeline[f + q]? = some g
    ∧ g.time = s.lastTime ∧ (q : Int) ≤ s.lastTime ∧ s.lastTime < 2 ^ 31

/-- A segment of a window is a segment of the timeline. -/
theorem window_getElem {lo hi i : Nat} {timeline : List Segment} {g : Segment}
    (h : ((timeline.take hi).drop lo)[i]? = some g) : timeline[lo + i]? = some g := by
  rw [List.getElem?_drop, List.getElem?_take] at h
  split_ifs at h
  exact h

/-- **A session keeps its offset**: in a window that has its segment, what is newer
than its `last_time` is the timeline from `f + (q + 1)` on, and moving the session
to the first of these leaves it at `f`. -/
theorem At.follow {timeline : List Segment} (hinc : Increasing Segment.time timeline)
    {lo hi : Nat} {gs : List Segment} (hgs : gs = (timeline.take hi).drop lo)
    (hr : ∀ g ∈ gs, g.InRange) {f : Nat} {s : SessionDef} (hat : At timeline f s)
    (hp : ∃ g ∈ gs, g.time = s.lastTime) :
    ∃ q : Nat, newer s.lastTime gs = (timeline.take hi).drop (f + (q + 1))
      ∧ ∀ g rest, newer s.lastTime gs = g :: rest →
          (s.advance g.time).sequence = ((q + 1 : Nat) : Int)
            ∧ At timeline f (s.advance g.time) := by
  obtain ⟨q, g₀, hseq, hg₀, ht₀, hq, hlt⟩ := hat
  obtain ⟨g, hg, hgt⟩ := hp
  obtain ⟨i, hi'⟩ := List.getElem?_of_mem hg
  have hpos : lo + i = f + q :=
    hinc.position_unique (window_getElem (hgs ▸ hi')) hg₀ (hgt.trans ht₀.symm)
  have hincgs : Increasing Segment.time gs :=
    hinc.sublist (hgs ▸ (List.drop_sublist lo _).trans (List.take_sublist hi timeline))
  have hnewer : newer s.lastTime gs = (timeline.take hi).drop (f + (q + 1)) := by
    have h := hincgs.above_getElem hi'
    rw [hgt] at h
    show above Segment.time s.lastTime gs = _
    rw [h, hgs, List.drop_drop, ← Nat.add_assoc, hpos, Nat.add_assoc]
  refine ⟨q, hnewer, ?_⟩
  intro g₁ rest hw
  obtain ⟨hmem, hlater⟩ := head_above hw
  have hrange := hr g₁ hmem
  have hnum : (s.advance g₁.time).sequence = ((q + 1 : Nat) : Int) := by
    show toInt64 (s.sequence + 1) = _
    rw [hseq, toInt64_of_range (by omega) (by have := hrange.2; omega)]
    rfl
  have hg₁ : timeline[f + (q + 1)]? = some g₁ := by
    have h : ((timeline.take hi).drop (f + (q + 1)))[0]? = some g₁ := by
      rw [← hnewer, hw]
      rfl
    have h' := window_getElem h
    exact h'
  refine ⟨hnum, q + 1, g₁, hnum, hg₁, rfl, ?_, hrange.2⟩
  show ((q + 1 : Nat) : Int) ≤ g₁.time
  push_cast
  omega

/-! ## §2. The first window. -/

/-- The comparison of the first three segments with the start point does not wrap
around, or it does for all segments. -/
def SeekExact (gs : List Segment) : Except Exn Int → Prop
  | .error _ => True
  | .ok a => (∀ g ∈ gs.take 3, g.time - a < 2 ^ 31) ∨ (∀ g ∈ gs, 2 ^ 31 ≤ g.time - a)

instance (gs : List Segment) : ∀ r : Except Exn Int, Decidable (SeekExact gs r)
  | .error _ => inferInstanceAs (Decidable True)
  | .ok a => inferInstanceAs
      (Decidable ((∀ g ∈ gs.take 3, g.time - a < 2 ^ 31) ∨ (∀ g ∈ gs, 2 ^ 31 ≤ g.time - a)))

/-- From a non-negative start point on, the comparison is exact. -/
theorem selected_eq_newer {a : Int} (ha : IsInt32 a) (ha0 : 0 ≤ a) {gs : List Segment}
    (hr : ∀ g ∈ gs, g.InRange) : selected a gs = newer a gs := by
  unfold selected newer above
  apply List.filter_congr
  intro g hg
  have hgr := hr g hg
  rw [decide_eq_decide, toInt32_sub_pos_iff_lt hgr.1 hgr.2 ha0 ha.2]

/-- The segments newer than `t` are what follows some place. -/
theorem newer_eq_drop (t : Int) {gs : List Segment} (hinc : Increasing Segment.time gs) :
    ∃ p, newer t gs = gs.drop p := by
  obtain ⟨old, new, _, hnew, _, hsplit⟩ := Increasing.eq_below_at_above t gs hinc
  rcases hsplit with ⟨hgs, _⟩ | ⟨g, _, hgs⟩
  · refine ⟨old.length, ?_⟩
    rw [show newer t gs = new from hnew.symm]
    conv_rhs => rw [hgs]
    exact List.drop_left.symm
  · refine ⟨old.length + 1, ?_⟩
    rw [show newer t gs = new from hnew.symm]
    conv_rhs => rw [hgs]
    rw [← List.drop_drop, List.drop_left]
    rfl

/-- Every time is above a negative start point: only the upper end of the comparison
can fail. -/
theorem passes_iff_of_neg {a : Int} (ha : IsInt32 a) (ha0 : a < 0) {g : Segment}
    (hg : g.InRange) : 0 < toInt32 (g.time - a) ↔ g.time - a < 2 ^ 31 := by
  have hlt : a < g.time := lt_of_lt_of_le ha0 hg.1
  rw [toInt32_sub_pos_iff hg.1 hg.2 ha]
  exact ⟨fun h => h.2, fun h => ⟨hlt, h⟩⟩

/-- If the first three segments pass, they are the first three selected. -/
theorem selected_take_of_first {a : Int} {gs : List Segment}
    (h : ∀ g ∈ gs.take 3, 0 < toInt32 (g.time - a)) : (selected a gs).take 3 = gs.take 3 := by
  have htake : selected a (gs.take 3) = gs.take 3 := by
    unfold selected
    rw [List.filter_eq_self]
    intro g hg
    simpa using h g hg
  have hsplit : selected a gs = gs.take 3 ++ selected a (gs.drop 3) := by
    conv_lhs => rw [← List.take_append_drop 3 gs]
    show (gs.take 3 ++ gs.drop 3).filter _ = _
    rw [List.filter_append]
    exact congrArg (· ++ selected a (gs.drop 3)) htake
  rw [hsplit]
  by_cases hlen : gs.length ≤ 3
  · rw [List.drop_eq_nil_of_le hlen]
    simp [selected]
  · rw [List.take_append_of_le_length (by rw [List.length_take]; omega), List.take_take]
    rfl

/-- **The first window is a piece of the playlist**, as long as three segments
or as what is left. -/
theorem selected_take_three {a : Int} (ha : IsInt32 a) {gs : List Segment}
    (hinc : Increasing Segment.time gs) (hr : ∀ g ∈ gs, g.InRange)
    (hexact : SeekExact gs (.ok a)) :
    ∃ p, (selected a gs).take 3 = (gs.drop p).take 3 := by
  by_cases ha0 : 0 ≤ a
  · obtain ⟨p, hp⟩ := newer_eq_drop a hinc
    exact ⟨p, by rw [selected_eq_newer ha ha0 hr, hp]⟩
  · have hpass : ∀ g ∈ gs, 0 < toInt32 (g.time - a) ↔ g.time - a < 2 ^ 31 :=
      fun g hg => passes_iff_of_neg ha (by omega) (hr g hg)
    rcases hexact with hfirst | hnone
    · -- the first three pass: the window starts at the beginning
      refine ⟨0, selected_take_of_first (fun g hg => ?_)⟩
      exact (hpass g (List.mem_of_mem_take hg)).mpr (hfirst g hg)
    · -- none passes: the window is empty
      refine ⟨gs.length, ?_⟩
      have hempty : selected a gs = [] := by
        unfold selected
        rw [List.filter_eq_nil_iff]
        intro g hg
        have h := hnone g hg
        have hp := hpass g hg
        simp only [decide_eq_true_eq, hp]
        omega
      rw [hempty, List.drop_length]

/-! ## §3. One request. -/

namespace Poll

variable {c : ConfigControl} {mtvSession timestamp : JString} {timeline : List Segment}

/-- **Step lemma, session at `f`**: a follow-up shows the timeline from its
number on and leaves the session at `f`. -/
theorem follow_step (hinc : Increasing Segment.time timeline)
    (p : Poll c mtvSession timestamp timeline) {store : SessionStore} {s : SessionDef}
    {f : Nat} (hk : keptSession timestamp (store (sessionKey mtvSession)) = some s)
    (hat : At timeline f s) (hp : ∃ g ∈ p.playlist.segments, g.time = s.lastTime) :
    (∃ s', keptSession timestamp ((p.serve store).1 (sessionKey mtvSession)) = some s'
        ∧ At timeline f s')
      ∧ ∀ sb, (p.serve store).2 = playseekReply (.ok sb) → listed sb ≠ [] → p.Shows f sb := by
  rw [p.serve_present p.file_eq hk hp]
  dsimp only
  have hts := (keptSession_eq_some hk).2
  obtain ⟨q, hnewer, hnext⟩ := hat.follow hinc p.segments_eq p.playlist.inRange hp
  cases hw : newer s.lastTime p.playlist.segments with
  | nil =>
      refine ⟨⟨s, hk, hat⟩, ?_⟩
      intro sb hsb hne
      obtain rfl := playseekReply_ok_inj hsb
      exact absurd (by simp) hne
  | cons g₁ rest =>
      obtain ⟨hnum, hat'⟩ := hnext g₁ rest hw
      refine ⟨⟨s.advance g₁.time, ?_, hat'⟩, ?_⟩
      · rw [followPuts_cons, putAll_singleton]
        exact keptSession_session hts
      · intro sb hsb _
        have hsb' := playseekReply_ok_inj hsb
        refine ⟨q + 1, ?_⟩
        rw [← hsb', ← hnewer, hw, ← hnum]
        rfl

/-- **Step lemma, no session yet**: a request that seeks anew lists nothing and
leaves no session, or it fixes `f`. -/
theorem create_step (p : Poll c mtvSession timestamp timeline) {store : SessionStore}
    (hk : keptSession timestamp (store (sessionKey mtvSession)) = none)
    (hexact : SeekExact p.playlist.segments p.absoluteTime) :
    (keptSession timestamp ((p.serve store).1 (sessionKey mtvSession)) = none
        ∧ ∀ sb, (p.serve store).2 = playseekReply (.ok sb) → listed sb = [])
      ∨ ∃ f, (∃ s', keptSession timestamp ((p.serve store).1 (sessionKey mtvSession)) = some s'
            ∧ At timeline f s')
          ∧ ∀ sb, (p.serve store).2 = playseekReply (.ok sb) → p.Shows f sb := by
  cases ha : p.absoluteTime with
  | error e =>
      rw [p.serve_rejected hk ha]
      refine Or.inl ⟨keptSession_clearChanged hk, fun sb hsb => ?_⟩
      exact absurd (playseekReply_ok hsb) (by simp)
  | ok a =>
      rw [ha] at hexact
      rw [p.serve_anew p.file_eq hk ha]
      dsimp only
      obtain ⟨i, hi⟩ := selected_take_three (p.isInt32_absoluteTime ha) p.playlist.increasing
        p.playlist.inRange hexact
      cases hsel : selected a p.playlist.segments with
      | nil =>
          refine Or.inl ⟨keptSession_clearChanged hk, fun sb hsb => ?_⟩
          obtain rfl := playseekReply_ok_inj hsb
          simp [listed]
      | cons g rest =>
          have hmem : g ∈ p.playlist.segments :=
            List.mem_of_mem_filter (show g ∈ selected a p.playlist.segments by rw [hsel]; simp)
          have hrange := p.playlist.inRange g hmem
          have hg : timeline[p.lo + i]? = some g := by
            apply p.head_getElem
            rw [← hi, hsel]
            rfl
          refine Or.inr ⟨p.lo + i, ⟨newSession timestamp g, ?_, 0, g, rfl, hg, rfl,
            hrange.1, hrange.2⟩, ?_⟩
          · rw [show (g :: rest).head?.toList.map (newSession timestamp)
                = [newSession timestamp g] from rfl, putAll_singleton]
            exact keptSession_session rfl
          · intro sb hsb
            have hsb' := playseekReply_ok_inj hsb
            refine ⟨0, ?_⟩
            rw [← hsb', ← hsel, hi, p.segments_eq, List.drop_drop]
            rfl

end Poll

/-! ## §4. Runs. -/

section Runs

variable {c : ConfigControl} {mtvSession timestamp : JString} {timeline : List Segment}

/-- The run of a list of polls. -/
abbrev pollTrace (polls : List (Poll c mtvSession timestamp timeline)) (store : SessionStore) :
    List (Handled SessionStore (Poll c mtvSession timestamp timeline)) :=
  trace (fun p store => p.serve store) polls store

/-- The session a request of a run finds. -/
def found (e : Handled SessionStore (Poll c mtvSession timestamp timeline)) : Option SessionDef :=
  keptSession timestamp (e.before (sessionKey mtvSession))

/-- Every response with a segment shows the timeline from `f` plus its number on. -/
def Consistent (f : Nat)
    (es : List (Handled SessionStore (Poll c mtvSession timestamp timeline))) : Prop :=
  ∀ e ∈ es, ∀ sb, e.reply = playseekReply (.ok sb) → listed sb ≠ [] → e.visit.Shows f sb

/-- **Run lemma, session at `f`.** -/
theorem consistent_follow (hinc : Increasing Segment.time timeline) {f : Nat} :
    ∀ (polls : List (Poll c mtvSession timestamp timeline)) (store : SessionStore)
      (s : SessionDef), keptSession timestamp (store (sessionKey mtvSession)) = some s →
      At timeline f s →
      (∀ e ∈ pollTrace polls store, ∀ s ∈ found e,
        ∃ g ∈ e.visit.playlist.segments, g.time = s.lastTime) →
      Consistent f (pollTrace polls store) := by
  intro polls
  induction polls with
  | nil => intro store s _ _ _ e he; simp [pollTrace, trace] at he
  | cons p polls ih =>
      intro store s hk hat hpresent
      obtain ⟨⟨s', hk', hat'⟩, hshows⟩ := p.follow_step hinc hk hat
        (hpresent _ List.mem_cons_self s hk)
      intro e he
      rcases List.mem_cons.mp he with rfl | he
      · exact hshows
      · exact ih _ s' hk' hat' (fun e he => hpresent e (List.mem_cons_of_mem _ he)) e he

/-- **Media-sequence consistency**: in a run that starts without a session, where
every playlist still has the segment of the session it meets and no first window
is cut by the wrap-around, there is an `f` such that every response that lists a
segment shows, under the number `q` it announces, the segments `f + q`,
`f + q + 1`, … of the timeline, three of them or as many as there are. -/
theorem media_sequence_consistent (hinc : Increasing Segment.time timeline)
    (polls : List (Poll c mtvSession timestamp timeline)) (store : SessionStore)
    (hnew : keptSession timestamp (store (sessionKey mtvSession)) = none)
    (hpresent : ∀ e ∈ pollTrace polls store, ∀ s ∈ found e,
      ∃ g ∈ e.visit.playlist.segments, g.time = s.lastTime)
    (hexact : ∀ e ∈ pollTrace polls store, found e = none →
      SeekExact e.visit.playlist.segments e.visit.absoluteTime) :
    ∃ f, Consistent f (pollTrace polls store) := by
  induction polls generalizing store with
  | nil => exact ⟨0, fun e he => by simp [pollTrace, trace] at he⟩
  | cons p polls ih =>
      have hpresent' : ∀ e ∈ pollTrace polls (p.serve store).1, ∀ s ∈ found e,
          ∃ g ∈ e.visit.playlist.segments, g.time = s.lastTime :=
        fun e he => hpresent e (List.mem_cons_of_mem _ he)
      have hexact₀ : SeekExact p.playlist.segments p.absoluteTime :=
        hexact ⟨store, p, (p.serve store).2⟩ List.mem_cons_self hnew
      rcases p.create_step hnew hexact₀ with
        ⟨hk', hlist⟩ | ⟨f, ⟨s', hk', hat⟩, hshows⟩
      · -- still no session: the rest of the run decides
        obtain ⟨f, hf⟩ := ih (p.serve store).1 hk' hpresent'
          (fun e he => hexact e (List.mem_cons_of_mem _ he))
        refine ⟨f, fun e he => ?_⟩
        rcases List.mem_cons.mp he with rfl | he
        · intro sb hsb hne
          exact absurd (hlist sb hsb) hne
        · exact hf e he
      · refine ⟨f, fun e he => ?_⟩
        rcases List.mem_cons.mp he with rfl | he
        · exact fun sb hsb _ => hshows sb hsb
        · exact consistent_follow hinc polls _ s' hk' hat hpresent' e he

end Runs

/-! ## §5. Two runs. -/

/-- A request at 1508153152 for the playlist with the segments of `times`. -/
def liveVisit (seekTime : JString) (times : List Int) (h : LiveTimes times) :
    PlayseekVisit shippedConfig "viewer".toList "1".toList :=
  PlayseekVisit.single shippedConfig _ _ seekTime "/cctv.m3u8".toList none
    (Playlist.live times h).file 1508153152000

theorem liveVisit_file (seekTime : JString) (times : List Int) (h : LiveTimes times) :
    (liveVisit seekTime times h).file = (Playlist.live times h).file :=
  PlayseekVisit.single_file _ _ _ _ _ _ _ _

/-- The same request, its playlist a window of `timeline`. -/
def livePoll (timeline : List Segment) (seekTime : JString) (times : List Int)
    (h : LiveTimes times) (lo hi : Nat)
    (window : ownSegments none (Playlist.live times h).lines
      = some ((timeline.take hi).drop lo)) :
    Poll shippedConfig "viewer".toList "1".toList timeline where
  toPlayseekVisit := liveVisit seekTime times h
  playlist := Playlist.live times h
  file_eq := liveVisit_file seekTime times h
  lo := lo
  hi := hi
  window := window

theorem liveTimes_first : LiveTimes [1508153086, 1508153098, 1508153104] :=
  ⟨by decide +kernel, by decide, by decide +kernel⟩

theorem liveTimes_dropped : LiveTimes [1508153098, 1508153104, 1508153110, 1508153116] :=
  ⟨by decide +kernel, by decide, by decide +kernel⟩

/-- Five segments around the start point one minute ago. -/
def minuteTimeline : List Segment :=
  [1508153086, 1508153098, 1508153104, 1508153110, 1508153116].map liveSegment

/-- Three requests that seek one minute back, while segments are appended and the
oldest is dropped. -/
def minutePolls : List (Poll shippedConfig "viewer".toList "1".toList minuteTimeline) :=
  [livePoll minuteTimeline "000100".toList _ liveTimes_first 0 3 (by decide +kernel),
   livePoll minuteTimeline "000100".toList
     [1508153086, 1508153098, 1508153104, 1508153110, 1508153116]
     ⟨by decide +kernel, by decide, by decide +kernel⟩ 0 5 (by decide +kernel),
   livePoll minuteTimeline "000100".toList _ liveTimes_dropped 1 5 (by decide +kernel)]

theorem media_sequence_consistent_minute :
    ∃ f, Consistent f (pollTrace minutePolls emptyStore) :=
  media_sequence_consistent (by decide +kernel) minutePolls _ rfl (by decide +kernel)
    (by decide +kernel)

/-- Three segments, the last of them 98 seconds old. -/
def cutTimeline : List Segment := [1508153042, 1508153048, 1508153054].map liveSegment

/-- A first request whose six characters sum up to `2 ^ 31 + 100` seconds: the
`int` wraps around, and exactly the segments more than 100 seconds old pass the
comparison. -/
def cutPoll : Poll shippedConfig "viewer".toList "1".toList cutTimeline :=
  livePoll cutTimeline ('\ue934' :: "31548".toList) [1508153042, 1508153048, 1508153054]
    ⟨by decide +kernel, by decide, by decide +kernel⟩ 0 3 (by decide +kernel)

/-- What the request is answered. -/
theorem cutPoll_reply :
    (cutPoll.serve emptyStore).2
      = playseekReply (.ok (cutPoll.playlist.titles ++ .mediaSequence :: .number 0
          :: entries none ([1508153042, 1508153048].map liveSegment))) := by
  have ha : cutPoll.absoluteTime = .ok (-639330596) := by decide +kernel
  have hsel : selected (-639330596) cutPoll.playlist.segments
      = [1508153042, 1508153048].map liveSegment := by decide +kernel
  rw [cutPoll.serve_anew cutPoll.file_eq rfl ha, hsel]
  rfl

/-- **The first window can be cut**: two of three consecutive segments are listed,
so no `f` fits. -/
theorem first_window_cut :
    Increasing Segment.time cutTimeline
      ∧ keptSession "1".toList (emptyStore (sessionKey "viewer".toList)) = none
      ∧ (∀ e ∈ pollTrace [cutPoll] emptyStore, ∀ s ∈ found e,
          ∃ g ∈ e.visit.playlist.segments, g.time = s.lastTime)
      ∧ ¬ ∃ f, Consistent f (pollTrace [cutPoll] emptyStore) := by
  refine ⟨by decide +kernel, rfl, by decide +kernel, ?_⟩
  rintro ⟨f, hf⟩
  obtain ⟨q, hq⟩ := hf ⟨emptyStore, cutPoll, _⟩ List.mem_cons_self _ cutPoll_reply
    (by simp [Playlist.titles, listed])
  have hlisted := congrArg listed hq
  simp only [listed_append, listed, listed_map_entry, Playlist.titles, listed_map_title,
    List.nil_append] at hlisted
  -- two segments from place 0 on would be three, and from place 1 on others
  have hlen := congrArg List.length hlisted
  have hfq : f + q = 1 := by
    simp only [List.length_take, List.length_drop, List.length_map, List.length_cons,
      List.length_nil] at hlen
    have hlong : cutTimeline.length = 3 := rfl
    have hhi : cutPoll.hi = 3 := rfl
    rw [hlong, hhi] at hlen
    omega
  rw [hfq] at hlisted
  exact absurd hlisted (by decide +kernel)

/-! ## §6. The response and the stored session. -/

/-- The stored session is that of the response: its time is the time of the first
segment listed, its number the one announced. -/
def Agrees (stored : Option Stored) (sb : List Piece) : Prop :=
  ∃ s g, stored = some (.session s) ∧ (listed sb).head? = some g
    ∧ s.lastTime = g.time ∧ announced sb = some s.sequence

/-- The session a request goes on from has left the playlist, and newer segments
are there. -/
def LeftBehind (timestamp : JString) (gs : List Segment) (stored : Option Stored) : Prop :=
  ∃ s, keptSession timestamp stored = some s ∧ (∀ g ∈ gs, g.time ≠ s.lastTime)
    ∧ ∃ g ∈ gs, s.lastTime < g.time

theorem mediaSequence_not_mem_followOut (query : Option JString) (s : SessionDef)
    (new : List Segment) : Piece.mediaSequence ∉ followOut query s new := by
  cases new with
  | nil => simp [followOut]
  | cons g rest =>
      intro h
      rcases List.mem_cons.mp h with h | h
      · exact absurd h (by simp)
      · obtain ⟨g', _, h⟩ := List.mem_map.mp h
        exact absurd h (by simp)

section Agreement

variable {c : ConfigControl} {mtvSession timestamp : JString}

/-- A follow-up that has not lost its place agrees with what it stores. -/
theorem agrees_present {v : PlayseekVisit c mtvSession timestamp} {P : Playlist}
    (hfile : v.file = P.file) {store : SessionStore} {s : SessionDef}
    (hk : keptSession timestamp (store (sessionKey mtvSession)) = some s)
    (hp : ∃ g ∈ P.segments, g.time = s.lastTime) {sb : List Piece}
    (hsb : (v.serve store).2 = playseekReply (.ok sb)) (hne : listed sb ≠ []) :
    Agrees ((v.serve store).1 (sessionKey mtvSession)) sb := by
  rw [v.serve_present hfile hk hp] at hsb ⊢
  obtain rfl := playseekReply_ok_inj hsb
  cases hw : newer s.lastTime P.segments with
  | nil =>
      rw [hw] at hne
      exact absurd (by simp [Playlist.titles, listed, followOut]) hne
  | cons g rest =>
      refine ⟨s.advance g.time, g, putAll_singleton _ _ _, ?_, rfl, ?_⟩
      · simp [Playlist.titles, listed]
      · exact P.announced_number _ _

/-- A first response agrees with what it stores. -/
theorem agrees_anew {v : PlayseekVisit c mtvSession timestamp} {P : Playlist}
    (hfile : v.file = P.file) {store : SessionStore}
    (hk : keptSession timestamp (store (sessionKey mtvSession)) = none) {sb : List Piece}
    (hsb : (v.serve store).2 = playseekReply (.ok sb)) (hne : listed sb ≠ []) :
    Agrees ((v.serve store).1 (sessionKey mtvSession)) sb := by
  cases ha : v.absoluteTime with
  | error e =>
      rw [v.serve_rejected hk ha] at hsb
      exact absurd (playseekReply_ok hsb) (by simp)
  | ok a =>
      rw [v.serve_anew hfile hk ha] at hsb ⊢
      obtain rfl := playseekReply_ok_inj hsb
      cases hsel : selected a P.segments with
      | nil =>
          rw [hsel] at hne
          exact absurd (by simp [Playlist.titles, listed]) hne
      | cons g rest =>
          refine ⟨newSession timestamp g, g, putAll_singleton _ _ _, ?_, rfl, ?_⟩
          · simp [Playlist.titles, listed]
          · exact P.announced_number _ _

/-- A follow-up that has lost its place lists its first segment before any number,
so it announces nothing. -/
theorem disagrees_leftBehind {v : PlayseekVisit c mtvSession timestamp} {P : Playlist}
    (hfile : v.file = P.file) {store : SessionStore}
    (hw : Written (store (sessionKey mtvSession)))
    (hleft : LeftBehind timestamp P.segments (store (sessionKey mtvSession))) :
    ∃ sb, (v.serve store).2 = playseekReply (.ok sb) ∧ listed sb ≠ []
      ∧ ¬ Agrees ((v.serve store).1 (sessionKey mtvSession)) sb := by
  obtain ⟨s, hk, habs, g, hg, hlt⟩ := hleft
  obtain ⟨hl, hl'⟩ := hw s (keptSession_eq_some hk).1
  have hserve := v.serve_absent hfile hk hl hl' habs
  have hmem : g ∈ newer s.lastTime P.segments :=
    mem_above.mpr ⟨hg, hlt⟩
  cases hnew : newer s.lastTime P.segments with
  | nil => rw [hnew] at hmem; simp at hmem
  | cons g₁ rest =>
      rw [hnew] at hserve
      refine ⟨_, by rw [hserve], by simp [Playlist.titles, listed, staleOut], ?_⟩
      rintro ⟨s', _, _, _, _, hann⟩
      rw [show staleOut v.uri.query s (g₁ :: rest)
            = .entry g₁ v.uri.query :: followOut v.uri.query s rest from rfl,
          P.announced_entry g₁ _ _ (mediaSequence_not_mem_followOut _ s rest)] at hann
      exact absurd hann (by simp)

/-- **When the response and the stored session agree**: exactly when the session
has not been left behind. -/
theorem response_agrees_iff (v : PlayseekVisit c mtvSession timestamp) (P : Playlist)
    (hfile : v.file = P.file) (store : SessionStore)
    (hw : Written (store (sessionKey mtvSession))) :
    (∀ sb, (v.serve store).2 = playseekReply (.ok sb) → listed sb ≠ [] →
        Agrees ((v.serve store).1 (sessionKey mtvSession)) sb)
      ↔ ¬ LeftBehind timestamp P.segments (store (sessionKey mtvSession)) := by
  constructor
  · intro hagree hleft
    obtain ⟨sb, hsb, hne, hnot⟩ := disagrees_leftBehind hfile hw hleft
    exact hnot (hagree sb hsb hne)
  · intro hnot sb hsb hne
    cases hk : keptSession timestamp (store (sessionKey mtvSession)) with
    | none => exact agrees_anew hfile hk hsb hne
    | some s =>
        by_cases hp : ∃ g ∈ P.segments, g.time = s.lastTime
        · exact agrees_present hfile hk hp hsb hne
        · have habs : ∀ g ∈ P.segments, g.time ≠ s.lastTime :=
            fun g hg ht => hp ⟨g, hg, ht⟩
          obtain ⟨hl, hl'⟩ := hw s (keptSession_eq_some hk).1
          -- nothing newer: the response has no segment
          have hnil : newer s.lastTime P.segments = [] := by
            unfold newer above
            rw [List.filter_eq_nil_iff]
            intro g hg hlt
            exact hnot ⟨s, hk, habs, g, hg, by simpa using hlt⟩
          rw [v.serve_absent hfile hk hl hl' habs, hnil] at hsb
          have hsb' := playseekReply_ok_inj hsb
          rw [← hsb'] at hne
          exact absurd (by simp [Playlist.titles, listed, staleOut]) hne

end Agreement

/-- The first response to a request for the last minute. -/
def minuteReply : List Piece :=
  [.title "#EXTM3U".toList, .mediaSequence, .number 0, .entry (liveSegment 1508153098) none,
   .entry (liveSegment 1508153104) none]

theorem response_agrees_iff_minute :
    ((liveVisit "000100".toList _ liveTimes_first).serve emptyStore).2
        = playseekReply (.ok minuteReply)
      ∧ Agrees (((liveVisit "000100".toList _ liveTimes_first).serve emptyStore).1
          (sessionKey "viewer".toList)) minuteReply := by
  have hreply : ((liveVisit "000100".toList _ liveTimes_first).serve emptyStore).2
      = playseekReply (.ok minuteReply) := by decide +kernel
  have hnot : ¬ LeftBehind "1".toList (Playlist.live _ liveTimes_first).segments
      (emptyStore (sessionKey "viewer".toList)) := by
    rintro ⟨s, hk, _⟩
    exact absurd hk (by simp [keptSession, emptyStore])
  exact ⟨hreply, (response_agrees_iff _ (Playlist.live _ liveTimes_first) (liveVisit_file _ _ _) _
    (fun s hs => by simp [emptyStore] at hs)).mpr hnot minuteReply hreply
    (by simp [minuteReply, listed])⟩

/-- The store after a first request that seeks 67 seconds back and is shown the
segment 1508153086, then 1508153098, … -/
def pausedStore : SessionStore :=
  ((liveVisit "000107".toList _ liveTimes_first).serve emptyStore).1

theorem pausedStore_session :
    pausedStore (sessionKey "viewer".toList)
      = some (.session ⟨some "1".toList, 1508153086, 0⟩) := by decide +kernel

/-- **A paused viewer**: the segment of the session is dropped before the next
request, and that response announces no number. -/
theorem response_disagrees_paused :
    ∃ sb, ((liveVisit "000107".toList _ liveTimes_dropped).serve pausedStore).2
          = playseekReply (.ok sb)
      ∧ listed sb ≠ []
      ∧ ¬ Agrees (((liveVisit "000107".toList _ liveTimes_dropped).serve pausedStore).1
            (sessionKey "viewer".toList)) sb := by
  apply disagrees_leftBehind (P := Playlist.live _ liveTimes_dropped) (liveVisit_file _ _ _)
  · exact PlayseekVisit.written_serve _ (fun s hs => by simp [emptyStore] at hs)
  · refine ⟨⟨some "1".toList, 1508153086, 0⟩, ?_, by decide, by decide⟩
    rw [pausedStore_session]
    rfl

end NginxNettyHls.M3u8Filter
