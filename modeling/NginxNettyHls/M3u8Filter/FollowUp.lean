/-
  NginxNettyHls.M3u8Filter.FollowUp
  ─────────────────────────────────
  **ONE FOLLOW-UP REQUEST, COMPARED WITH A FIRST ONE AND ON ITS OWN.**

  `m3u8_playseek_filter_session` is a copy of `m3u8_playseek_filter` with
  another initial index, an extra branch for the segment at `last_time`, a
  comparison point that moves during the loop and a number after the loop.

    • Over a playlist that still has the segment at `last_time`, the two give the
      same response but for the number (`follow_up_agrees_iff`);
    • over any lines at all, a follow-up writes the session at most once, one
      number further and to a newer segment (`one_move_iff`).

  Both hold as long as the counters do not wrap around: `sequence` is a `long`
  that is incremented without a test, `index` an `int` that counts lines.  In a
  session that was ever stored the first one never does (`storable_of_reaches`).
-/
import NginxNettyHls.M3u8Filter.Failure

namespace NginxNettyHls.M3u8Filter

open NginxNettyHls.Java
open Order

/-! ## §1. The two filters on one playlist. -/

/-- A response in the usual order: the copied tags, the media-sequence tag with its
number, the entries. -/
def content (titles : List JString) (n : Int) (query : Option JString)
    (gs : List Segment) : List Piece :=
  titles.map Piece.title ++ .mediaSequence :: .number n :: entries query gs

/-- A follow-up from a session with number `q` agrees with a first response: the same
tags and the same entries, of which neither or both write the store, with the same
`last_time`; the numbers are `0` and the next one, or `q` again without entries. -/
def PathsAgree (query : Option JString) (q : Int) (followUp first : FilterRun) : Prop :=
  ∃ (titles : List JString) (gs : List Segment) (n : Int),
    followUp.result = .ok (content titles n query gs)
      ∧ first.result = .ok (content titles 0 query gs)
      ∧ (gs ≠ [] → n = q + 1
          ∧ ∃ s s', followUp.puts = [s] ∧ first.puts = [s'] ∧ s.lastTime = s'.lastTime)
      ∧ (gs = [] → n = q ∧ followUp.puts = [] ∧ first.puts = [])

/-- The tags `Playlist.titles` copies, as lines. -/
def Playlist.titleLines (P : Playlist) : List JString :=
  P.pre.filter (fun s => lineKind s = .title)

/-- A response determines its tags, its number and its entries. -/
theorem content_inj {ts ts' : List JString} {n n' : Int} {query : Option JString}
    {gs gs' : List Segment} (h : content ts n query gs = content ts' n' query gs') :
    n = n' ∧ gs = gs' := by
  have hn := congrArg announced h
  have hgs := congrArg listed h
  unfold content at hn hgs
  rw [announced_title_append, announced_title_append] at hn
  simp only [listed_append, listed_map_title, List.nil_append, listed_mediaSequence] at hgs
  have hlisted : ∀ (m : Int) (l : List Segment),
      listed (.number m :: entries query l) = l := fun m l => listed_map_entry l query
  rw [hlisted, hlisted] at hgs
  exact ⟨by simpa [announced] using hn, hgs⟩

/-- With the segment at `last_time` still there, a follow-up is in the usual order. -/
theorem Playlist.session_content (P : Playlist) (s : SessionDef) (query : Option JString)
    (h : ∃ g ∈ P.segments, g.time = s.lastTime) :
    ∃ n, (m3u8PlayseekFilterSession s query P.file).result
      = .ok (content P.titleLines n query ((newer s.lastTime P.segments).take 3)) := by
  rw [P.session_run_present s query h]
  cases newer s.lastTime P.segments with
  | nil => exact ⟨s.sequence, rfl⟩
  | cons g rest => exact ⟨(s.advance g.time).sequence, rfl⟩

variable (P : Playlist) (timestamp : JString) (query : Option JString) (s : SessionDef)

/-- The first response from the time of one of the segments on. -/
theorem Playlist.seek_run_at (h : ∃ g ∈ P.segments, g.time = s.lastTime) :
    m3u8PlayseekFilter timestamp query s.lastTime P.file
      = ⟨(newer s.lastTime P.segments).head?.toList.map (newSession timestamp),
         .ok (content P.titleLines 0 query ((newer s.lastTime P.segments).take 3))⟩ := by
  obtain ⟨g, hg, ht⟩ := h
  have hr := P.inRange g hg
  unfold Segment.InRange at hr
  rw [ht] at hr
  have ha : IsInt32 s.lastTime := ⟨by omega, hr.2⟩
  rw [P.seek_run timestamp query ha, selected_eq_newer ha hr.1 P.inRange]
  rfl

/-- With something newer in the playlist, the filters can only agree if the increment
is exact. -/
theorem PathsAgree.increment_exact {P : Playlist} {timestamp : JString}
    {query : Option JString} {s : SessionDef} (h : ∃ g ∈ P.segments, g.time = s.lastTime)
    (hnew : newer s.lastTime P.segments ≠ [])
    (hagree : PathsAgree query s.sequence (m3u8PlayseekFilterSession s query P.file)
      (m3u8PlayseekFilter timestamp query s.lastTime P.file)) :
    toInt64 (s.sequence + 1) = s.sequence + 1 := by
  rw [P.session_run_present s query h, P.seek_run_at timestamp query s h] at hagree
  obtain ⟨titles, gs, n, hfollow, hfirst, hsome, _⟩ := hagree
  cases hlist : newer s.lastTime P.segments with
  | nil => exact absurd hlist hnew
  | cons g rest =>
      rw [hlist] at hfollow hfirst
      have hf := content_inj (Except.ok.inj hfirst)
      have hs := content_inj (n := (s.advance g.time).sequence) (Except.ok.inj hfollow)
      have hne : gs ≠ [] := by
        rw [← hf.2]
        simp
      show (s.advance g.time).sequence = s.sequence + 1
      rw [hs.1]
      exact (hsome hne).1

/-- **The follow-up path agrees with the first-response path** over a playlist with
the segment at `last_time`, exactly when the number can still be incremented or need
not be. -/
theorem follow_up_agrees_iff (hq : IsInt64 s.sequence)
    (h : ∃ g ∈ P.segments, g.time = s.lastTime) :
    PathsAgree query s.sequence (m3u8PlayseekFilterSession s query P.file)
        (m3u8PlayseekFilter timestamp query s.lastTime P.file)
      ↔ s.sequence < 2 ^ 63 - 1 ∨ ∀ g ∈ P.segments, g.time ≤ s.lastTime := by
  have hempty : newer s.lastTime P.segments = []
      ↔ ∀ g ∈ P.segments, g.time ≤ s.lastTime := by
    simp [newer, above, List.filter_eq_nil_iff]
  rw [← hempty, ← toInt64_succ_eq_iff hq]
  constructor
  · intro hagree
    by_cases hnew : newer s.lastTime P.segments = []
    · exact Or.inr hnew
    · exact Or.inl (hagree.increment_exact h hnew)
  · intro hor
    rw [P.session_run_present s query h, P.seek_run_at timestamp query s h]
    cases hnew : newer s.lastTime P.segments with
    | nil =>
        -- nothing newer: the old number again, no write on either side
        refine ⟨P.titleLines, [], s.sequence, rfl, rfl, ?_, ?_⟩
        · intro hne
          exact absurd rfl hne
        · intro _
          exact ⟨rfl, rfl, rfl⟩
    | cons g rest =>
        have hsucc : toInt64 (s.sequence + 1) = s.sequence + 1 :=
          hor.resolve_right (by simp [hnew])
        refine ⟨P.titleLines, (g :: rest).take 3, (s.advance g.time).sequence, rfl, rfl, ?_, ?_⟩
        · intro _
          exact ⟨hsucc, s.advance g.time, newSession timestamp g, rfl, rfl, rfl⟩
        · intro hnil
          exact absurd hnil (by simp)

/-! ## §2. One move of the session. -/

/-- What one follow-up may do to the session `s`: write once, to the next number and
to the time of a later segment line of the file. -/
def OneMove (s : SessionDef) (lines : List JString) (puts : List SessionDef) : Prop :=
  puts.length ≤ 1
    ∧ ∀ w ∈ puts, w.timestamp = s.timestamp
        ∧ w.sequence = s.sequence + 1
        ∧ s.lastTime < w.lastTime
        ∧ ∃ line ∈ lines, lineKind line = .segment ∧ getTsTime line = .ok w.lastTime

/-- `g` comes after `pre` as the first segment that moves the session: it passes the
comparison, and exactly one line before it counted, so `index` is 0. -/
structure FirstMove (t : Int) (pre : List Segment) (g : Segment) : Prop where
  before : NoneInPlace t 0 pre
  newer : g.time ≠ t ∧ 0 < toInt32 (g.time - t)
  place : (counted t pre).length % 2 ^ 32 = 1

/-- Neither counter wraps around: the number can be incremented if it has to be, and
after the line that moves the session no later one is met with `index` back at 0. -/
def NoWrap (s : SessionDef) (gs : List Segment) : Prop :=
  ∀ pre g rest, gs = pre ++ g :: rest → FirstMove s.lastTime pre g →
    s.sequence < 2 ^ 63 - 1 ∧ NoneInPlace g.time 2 rest

/-- Fewer lines than an `int` has values cannot bring `index` back to 0. -/
theorem noWrap_of_length_lt {s : SessionDef} {gs : List Segment}
    (hq : s.sequence < 2 ^ 63 - 1) (hlen : gs.length < 2 ^ 32) : NoWrap s gs := by
  intro pre g rest hgs _
  refine ⟨hq, ?_⟩
  intro k x hk hx
  have hklt : k < (counted g.time rest).length := (List.getElem?_eq_some_iff.mp hx).1
  have hle : (counted g.time rest).length ≤ rest.length := List.length_filter_le _ _
  have htotal : gs.length = pre.length + (rest.length + 1) := by
    rw [hgs, List.length_append, List.length_cons]
  omega

/-- **The run at a first move**: the session is written for it, and the rest goes on
from there. -/
theorem sessionFilter_firstMove (query : Option JString) (s : SessionDef) (g : Segment)
    (rest : List Segment) (hne : g.time ≠ s.lastTime)
    (hpass : 0 < toInt32 (g.time - s.lastTime)) :
    ∀ (pre : List Segment) (n : Nat), NoneInPlace s.lastTime n pre →
      (n + (counted s.lastTime pre).length) % 2 ^ 32 = 1 →
      ((sessionFilter query).over ⟨toInt32 ((n : Int) - 1), s⟩ (pre ++ g :: rest)).puts
        = s.advance g.time :: ((sessionFilter query).over ⟨1, s.advance g.time⟩ rest).puts := by
  intro pre
  induction pre with
  | nil =>
      intro n _ hplace
      show ((sessionSegment query ⟨toInt32 ((n : Int) - 1), s⟩ g).put.toList
        ++ ((sessionFilter query).over
            (sessionSegment query ⟨toInt32 ((n : Int) - 1), s⟩ g).vars rest).puts) = _
      rw [sessionSegment_moves query s hne hpass (by simpa [counted] using hplace)]
      rfl
  | cons x pre ih =>
      intro n hnone hplace
      show ((sessionSegment query ⟨toInt32 ((n : Int) - 1), s⟩ x).put.toList
        ++ ((sessionFilter query).over
            (sessionSegment query ⟨toInt32 ((n : Int) - 1), s⟩ x).vars
            (pre ++ g :: rest)).puts) = _
      by_cases hx : x.time = s.lastTime ∨ 0 < toInt32 (x.time - s.lastTime)
      · rw [noneInPlace_cons hx] at hnone
        obtain ⟨hput, hvars⟩ := sessionSegment_counts query s hx hnone.1
        rw [hput, hvars]
        rw [counted_cons_of_pos hx, List.length_cons] at hplace
        exact ih (n + 1) hnone.2 (by rw [← hplace]; congr 1; omega)
      · rw [noneInPlace_cons_skipped hx] at hnone
        rw [sessionSegment_skipped query _ hx]
        rw [counted_cons_of_neg hx] at hplace
        exact ih n hnone hplace

/-- If some segment moves the session, there is a first one that does. -/
theorem exists_firstMove {t : Int} :
    ∀ (gs : List Segment) (n : Nat), ¬ NoneInPlace t n gs →
      ∃ pre g rest, gs = pre ++ g :: rest ∧ NoneInPlace t n pre
        ∧ (g.time ≠ t ∧ 0 < toInt32 (g.time - t))
        ∧ (n + (counted t pre).length) % 2 ^ 32 = 1 := by
  intro gs
  induction gs with
  | nil =>
      intro n h
      exact absurd (fun k g _ hg => by simp [counted] at hg) h
  | cons x gs ih =>
      intro n h
      by_cases hx : x.time = t ∨ 0 < toInt32 (x.time - t)
      · by_cases hn : n % 2 ^ 32 = 1 → x.time = t
        · -- `x` counts without moving the session
          rw [noneInPlace_cons hx] at h
          obtain ⟨pre, g, rest, hgs, hpre, hg, hplace⟩ :=
            ih (n + 1) (fun hrest => h ⟨hn, hrest⟩)
          refine ⟨x :: pre, g, rest, by rw [hgs]; rfl, ?_, hg, ?_⟩
          · rw [noneInPlace_cons hx]
            exact ⟨hn, hpre⟩
          · rw [counted_cons_of_pos hx, List.length_cons, ← hplace]
            congr 1
            omega
        · obtain ⟨h1, hne⟩ := Classical.not_imp.mp hn
          refine ⟨[], x, gs, rfl, ?_, ⟨hne, hx.resolve_left hne⟩, by simpa [counted] using h1⟩
          intro k g _ hg
          simp [counted] at hg
      · rw [noneInPlace_cons_skipped hx] at h
        obtain ⟨pre, g, rest, hgs, hpre, hg, hplace⟩ := ih n h
        refine ⟨x :: pre, g, rest, by rw [hgs]; rfl, ?_, hg, ?_⟩
        · rw [noneInPlace_cons_skipped hx]
          exact hpre
        · rw [counted_cons_of_neg hx]
          exact hplace

/-- The lines a file delivers. -/
def FileRead.lines : FileRead → List JString
  | .notFound => []
  | .opened lines _ => lines

theorem FileRead.segments_mem (file : FileRead) :
    ∀ g ∈ file.segments, ∃ line ∈ file.lines, lineKind line = .segment
      ∧ getTsTime line = .ok g.time := by
  intro g hg
  cases file with
  | notFound => simp [FileRead.segments] at hg
  | opened lines fin =>
      obtain ⟨⟨hline, hkind, htime⟩, _⟩ := tsSegments_mem lines none g hg
      exact ⟨g.line, hline, hkind, htime⟩

/-- The writes of a follow-up are those of the segments before the first bad line. -/
theorem playseekFilterSession_puts (s : SessionDef) (query : Option JString) (file : FileRead) :
    (m3u8PlayseekFilterSession s query file).puts
      = ((sessionFilter query).over ⟨toInt32 (((0 : Nat) : Int) - 1), s⟩ file.segments).puts := by
  cases file with
  | notFound => rfl
  | opened lines fin =>
      simp only [m3u8PlayseekFilterSession, Filter.loop_puts]
      rfl

/-- **One follow-up makes at most one step forward**, over any lines whatever and
whether it ends well or not, exactly when the counters do not wrap around. -/
theorem one_move_iff (s : SessionDef) (query : Option JString) (file : FileRead)
    (hl : 0 ≤ s.lastTime) (hl' : IsInt32 s.lastTime) (hq : IsInt64 s.sequence) :
    OneMove s file.lines (m3u8PlayseekFilterSession s query file).puts
      ↔ NoWrap s file.segments := by
  -- after the move `index` is 1, as after two lines that counted
  have hrest : ∀ (g : Segment) (rest : List Segment),
      ((sessionFilter query).over ⟨1, s.advance g.time⟩ rest).puts = []
        ↔ NoneInPlace g.time 2 rest :=
    fun g rest => sessionFilter_puts_eq_nil query (s.advance g.time) rest 2
  constructor
  · rintro ⟨hlen, hw⟩ pre g rest hgs hfirst
    have hputs := sessionFilter_firstMove query s g rest hfirst.newer.1 hfirst.newer.2 pre 0
      hfirst.before (by simpa using hfirst.place)
    rw [← hgs, ← playseekFilterSession_puts] at hputs
    rw [hputs] at hlen hw
    constructor
    · have hseq := (hw (s.advance g.time) List.mem_cons_self).2.1
      exact (toInt64_succ_eq_iff hq).mp hseq
    · rw [← hrest]
      simpa using hlen
  · intro hwrap
    by_cases hnone : NoneInPlace s.lastTime 0 file.segments
    · have hputs : (m3u8PlayseekFilterSession s query file).puts = [] := by
        rw [playseekFilterSession_puts]
        exact (sessionFilter_puts_eq_nil query s file.segments 0).mpr hnone
      rw [hputs]
      exact ⟨by simp, by simp⟩
    · obtain ⟨pre, g, rest, hgs, hpre, hnew, hplace⟩ := exists_firstMove file.segments 0 hnone
      obtain ⟨hmax, hafter⟩ :=
        hwrap pre g rest hgs ⟨hpre, hnew, by simpa using hplace⟩
      have hputs := sessionFilter_firstMove query s g rest hnew.1 hnew.2 pre 0 hpre hplace
      rw [← hgs, ← playseekFilterSession_puts, (hrest g rest).mpr hafter] at hputs
      refine ⟨by rw [hputs]; simp, ?_⟩
      intro w hw
      -- timestamp and time are those of every write, the number is that of the only one
      obtain ⟨hts, g', hg', hlast, hlater⟩ := playseekFilterSession_puts_mem hw
      refine ⟨hts, ?_, ?_, ?_⟩
      · rw [hputs, List.mem_singleton] at hw
        rw [hw]
        exact (toInt64_succ_eq_iff hq).mpr hmax
      · rw [hlast]
        exact hlater hl hl'.2
      · rw [hlast]
        exact file.segments_mem g' hg'

theorem Feed.file_segments (P : Feed) : P.file.segments = P.segments :=
  congrArg Prod.fst P.reads

/-- The session of the first segment of `liveTimes_first`, with number `q`. -/
def firstSession (q : Int) : SessionDef := ⟨some "1".toList, 1508153086, q⟩

theorem one_move_third :
    OneMove (firstSession 3) (Playlist.live _ liveTimes_first).lines
      (m3u8PlayseekFilterSession (firstSession 3) none
        (Playlist.live _ liveTimes_first).file).puts :=
  (one_move_iff (firstSession 3) none (Playlist.live _ liveTimes_first).file (by decide)
    ⟨by decide, by decide⟩ ⟨by decide, by decide⟩).mpr
      (noWrap_of_length_lt (by decide) (by rw [Feed.file_segments]; decide))

end NginxNettyHls.M3u8Filter
