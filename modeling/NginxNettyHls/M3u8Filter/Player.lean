/-
  NginxNettyHls.M3u8Filter.Player
  ───────────────────────────────
  **WHAT A PLAYER PLAYS**, polling one playseek session.

  A player knows a segment by its media sequence number.  It reads the number
  and the segments of each response and plays those it has not played yet
  (`Order.Reader`).  A poll moves the session by at most one segment and lists up
  to three, so what a player wants next is never behind the window it is shown:

    • `Poll.follow_play` — one follow-up, the number wanted staying above the
      number of the session and at most three above it;
    • `played_exactly_once` — over a whole run the player plays one unbroken
      piece of the timeline, and at most two segments more than it has polled.
-/
import NginxNettyHls.M3u8Filter.FollowUp
import NginxNettyHls.M3u8Filter.MediaSequence
import NginxNettyHls.Order.Reader

namespace NginxNettyHls.M3u8Filter

open NginxNettyHls.Java
open Order

/-- A player of HLS segments. -/
abbrev Player := Reader Segment

/-- The player reads a reply: a response without a playlist, or with one that
announces no number, gives it nothing. -/
def Player.receive (player : Player) : PlayseekReply → Player
  | .ok (.ok, ⟨_, some sb⟩) =>
      match announced sb with
      | some n => player.load n (listed sb)
      | none => player
  | _ => player

/-- The player after the replies of a run. -/
def Player.playAll {σ α : Type} (player : Player) (es : List (Handled σ α)) : Player :=
  es.foldl (fun player e => player.receive e.reply) player

/-! ## §1. One reply. -/

/-- Of a response in the usual order the player reads the number and the entries. -/
theorem Player.receive_content (player : Player) (titles : List JString) (n : Int)
    (query : Option JString) (gs : List Segment) :
    player.receive (playseekReply (.ok (content titles n query gs))) = player.load n gs := by
  have hlisted : listed (content titles n query gs) = gs := by
    unfold content
    rw [listed_append, listed_map_title, List.nil_append]
    exact listed_map_entry gs query
  have hannounced : announced (content titles n query gs) = some n := by
    unfold content
    rw [announced_title_append]
    rfl
  simp only [playseekReply, Player.receive, hannounced, hlisted]

/-- A rejected seek time is not answered with a playlist. -/
theorem Player.receive_error (player : Player) (e : Exn) :
    player.receive (playseekReply (.error e)) = player := by
  cases e <;> rfl

namespace Poll

variable {c : ConfigControl} {mtvSession timestamp : JString} {timeline : List Segment}

/-- The player is in step with session `s`: it has played the timeline from `f` on, up
to a segment after that of the session, but not further than its window. -/
def InStep (timeline : List Segment) (f : Nat) (s : SessionDef) (player : Player) : Prop :=
  ∃ k : Nat, Reader.Reads timeline f k player ∧ s.sequence < k ∧ k ≤ s.sequence + 3

/-- **Step lemma, session at `f`**: the player stays in step, and the session moves by
at most one. -/
theorem follow_play (hinc : Increasing Segment.time timeline)
    (p : Poll c mtvSession timestamp timeline) {store : SessionStore} {s : SessionDef}
    {f : Nat} (hk : keptSession timestamp (store (sessionKey mtvSession)) = some s)
    (hat : At timeline f s) (hp : ∃ g ∈ p.playlist.segments, g.time = s.lastTime)
    {player : Player} (hplay : InStep timeline f s player) :
    ∃ s', keptSession timestamp ((p.serve store).1 (sessionKey mtvSession)) = some s'
      ∧ At timeline f s' ∧ s'.sequence ≤ s.sequence + 1
      ∧ InStep timeline f s' (player.receive (p.serve store).2) := by
  rw [p.serve_present p.file_eq hk hp]
  dsimp only
  obtain ⟨q, hnewer, hnext⟩ := hat.follow hinc p.segments_eq p.playlist.inRange hp
  cases hw : newer s.lastTime p.playlist.segments with
  | nil =>
      refine ⟨s, hk, hat, by omega, ?_⟩
      have hnone := player.receive_content p.playlist.titleLines s.sequence p.uri.query []
      rw [player.load_nil] at hnone
      exact hnone.symm ▸ hplay
  | cons g₁ rest =>
      obtain ⟨hnum, hat'⟩ := hnext g₁ rest hw
      have hnumber : (s.advance g₁.time).sequence = s.sequence + 1 := by
        obtain ⟨q', _, hseq, _, _, hq', hlt⟩ := hat
        show toInt64 (s.sequence + 1) = _
        exact toInt64_of_range (by omega) (by omega)
      refine ⟨s.advance g₁.time, ?_, hat', hnumber.le, ?_⟩
      · rw [followPuts_cons, putAll_singleton]
        exact keptSession_session (keptSession_eq_some hk).2
      · obtain ⟨k, hreads, hlow, hhigh⟩ := hplay
        have hwindow : (g₁ :: rest).take 3
            = ((timeline.take p.hi).drop (f + (q + 1))).take 3 := by rw [← hw, hnewer]
        have hload := hreads.load hwindow (by omega) (by simp)
        have hreceive := player.receive_content p.playlist.titleLines
          (s.advance g₁.time).sequence p.uri.query ((g₁ :: rest).take 3)
        rw [← hnum, ← hreceive] at hload
        refine ⟨_, hload, ?_, ?_⟩
        · rw [List.length_take, List.length_cons]
          omega
        · rw [List.length_take]
          omega

/-- **Step lemma, no session yet**: the player gets nothing and there is still no
session, or the first segment listed is where it begins. -/
theorem create_play (p : Poll c mtvSession timestamp timeline) {store : SessionStore}
    (hk : keptSession timestamp (store (sessionKey mtvSession)) = none)
    (hexact : SeekExact p.playlist.segments p.absoluteTime) :
    (keptSession timestamp ((p.serve store).1 (sessionKey mtvSession)) = none
        ∧ Player.receive Reader.start (p.serve store).2 = Reader.start)
      ∨ ∃ f s', keptSession timestamp ((p.serve store).1 (sessionKey mtvSession)) = some s'
          ∧ At timeline f s' ∧ s'.sequence = 0
          ∧ InStep timeline f s' (Player.receive Reader.start (p.serve store).2) := by
  cases ha : p.absoluteTime with
  | error e =>
      rw [p.serve_rejected hk ha]
      exact Or.inl ⟨keptSession_clearChanged hk, Player.receive_error _ e⟩
  | ok a =>
      rw [ha] at hexact
      rw [p.serve_anew p.file_eq hk ha]
      dsimp only
      obtain ⟨i, hi⟩ := selected_take_three (p.isInt32_absoluteTime ha) p.playlist.increasing
        p.playlist.inRange hexact
      have hreceive := Player.receive_content Reader.start p.playlist.titleLines 0 p.uri.query
        ((selected a p.playlist.segments).take 3)
      cases hsel : selected a p.playlist.segments with
      | nil =>
          rw [hsel] at hreceive
          exact Or.inl ⟨keptSession_clearChanged hk, hreceive⟩
      | cons g rest =>
          have hmem : g ∈ p.playlist.segments :=
            List.mem_of_mem_filter (show g ∈ selected a p.playlist.segments by rw [hsel]; simp)
          have hrange := p.playlist.inRange g hmem
          have hwindow : (g :: rest).take 3
              = ((timeline.take p.hi).drop (p.lo + i)).take 3 := by
            rw [← hsel, hi, p.segments_eq, List.drop_drop]
          have hg : timeline[p.lo + i]? = some g := by
            apply p.head_getElem
            rw [← hi, hsel]
            rfl
          have hreads := Reader.reads_first hwindow (by simp)
          rw [hsel] at hreceive
          rw [← hreceive] at hreads
          refine Or.inr ⟨p.lo + i, newSession timestamp g, ?_, ⟨0, g, rfl, hg, rfl, hrange⟩,
            rfl, _, hreads, ?_, ?_⟩
          · rw [show (g :: rest).head?.toList.map (newSession timestamp)
                = [newSession timestamp g] from rfl, putAll_singleton]
            exact keptSession_session rfl
          · show (0 : Int) < _
            rw [List.length_take, List.length_cons]
            omega
          · show _ ≤ (0 : Int) + 3
            rw [List.length_take]
            omega

end Poll

/-! ## §2. Runs. -/

section Runs

variable {c : ConfigControl} {mtvSession timestamp : JString} {timeline : List Segment}

/-- **Run lemma, session at `f`**: the player has played one piece of the timeline, no
further than the session has moved. -/
theorem plays_follow (hinc : Increasing Segment.time timeline) {f : Nat} :
    ∀ (polls : List (Poll c mtvSession timestamp timeline)) (store : SessionStore)
      (s : SessionDef) (player : Player),
      keptSession timestamp (store (sessionKey mtvSession)) = some s → At timeline f s →
      Poll.InStep timeline f s player →
      (∀ e ∈ pollTrace polls store, ∀ s ∈ found e,
        ∃ g ∈ e.visit.playlist.segments, g.time = s.lastTime) →
      ∃ k : Nat, Reader.Reads timeline f k (player.playAll (pollTrace polls store))
        ∧ k ≤ s.sequence + polls.length + 3 := by
  intro polls
  induction polls with
  | nil =>
      intro store s player _ _ hplay _
      obtain ⟨k, hreads, _, hhigh⟩ := hplay
      exact ⟨k, hreads, by simpa using hhigh⟩
  | cons p polls ih =>
      intro store s player hk hat hplay hpresent
      obtain ⟨s', hk', hat', hmove, hplay'⟩ := p.follow_play hinc hk hat
        (hpresent _ List.mem_cons_self s hk) hplay
      obtain ⟨k, hreads, hle⟩ := ih _ s' _ hk' hat' hplay'
        (fun e he => hpresent e (List.mem_cons_of_mem _ he))
      refine ⟨k, hreads, ?_⟩
      rw [List.length_cons]
      push_cast
      omega

/-- **A player plays every segment once, in order**: in a run that starts without a
session, where every playlist still has the segment of the session it meets and no
first window is cut by the wrap-around, what has been played is one unbroken piece of
the timeline, of at most two segments more than there were polls. -/
theorem played_exactly_once (hinc : Increasing Segment.time timeline)
    (polls : List (Poll c mtvSession timestamp timeline)) (store : SessionStore)
    (hnew : keptSession timestamp (store (sessionKey mtvSession)) = none)
    (hpresent : ∀ e ∈ pollTrace polls store, ∀ s ∈ found e,
      ∃ g ∈ e.visit.playlist.segments, g.time = s.lastTime)
    (hexact : ∀ e ∈ pollTrace polls store, found e = none →
      SeekExact e.visit.playlist.segments e.visit.absoluteTime) :
    ∃ f k : Nat, (Player.playAll Reader.start (pollTrace polls store)).taken
        = (timeline.drop f).take k
      ∧ f + k ≤ timeline.length ∧ k ≤ polls.length + 2 := by
  induction polls generalizing store with
  | nil => exact ⟨0, 0, rfl, by omega, by omega⟩
  | cons p polls ih =>
      have hpresent' : ∀ e ∈ pollTrace polls (p.serve store).1, ∀ s ∈ found e,
          ∃ g ∈ e.visit.playlist.segments, g.time = s.lastTime :=
        fun e he => hpresent e (List.mem_cons_of_mem _ he)
      have hexact₀ : SeekExact p.playlist.segments p.absoluteTime :=
        hexact ⟨store, p, (p.serve store).2⟩ List.mem_cons_self hnew
      rcases p.create_play hnew hexact₀ with ⟨hk', hsame⟩ | ⟨f, s', hk', hat, hzero, hplay⟩
      · -- still no session, and nothing to play
        obtain ⟨f, k, htaken, hle, hbound⟩ := ih (p.serve store).1 hk' hpresent'
          (fun e he => hexact e (List.mem_cons_of_mem _ he))
        refine ⟨f, k, ?_, hle, by rw [List.length_cons]; omega⟩
        show (Player.playAll (Player.receive Reader.start (p.serve store).2)
          (pollTrace polls (p.serve store).1)).taken = _
        rw [hsame, htaken]
      · obtain ⟨k, hreads, hbound⟩ := plays_follow hinc polls _ s' _ hk' hat hplay hpresent'
        refine ⟨f, k, hreads.taken, hreads.le, ?_⟩
        rw [List.length_cons]
        omega

/-- The three polls of a minute ago: the player has played four segments. -/
theorem played_exactly_once_minute :
    (∃ f k : Nat, (Player.playAll Reader.start (pollTrace minutePolls emptyStore)).taken
        = (minuteTimeline.drop f).take k
      ∧ f + k ≤ minuteTimeline.length ∧ k ≤ minutePolls.length + 2)
      ∧ (Player.playAll Reader.start (pollTrace minutePolls emptyStore)).next = some 4 :=
  ⟨played_exactly_once (by decide +kernel) minutePolls _ rfl (by decide +kernel)
    (by decide +kernel), by decide +kernel⟩

end Runs

end NginxNettyHls.M3u8Filter
