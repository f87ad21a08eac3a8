/-
  NginxNettyHls.M3u8Filter.Responses
  ──────────────────────────────────
  **WHOLE RESPONSES over playlists that are in order.**

  A `Feed` is a file whose segment times can be read and increase; a `Playlist`
  is a feed with a header: the media-sequence tag stands once, after the other
  tags and before the first segment.  Both carry their well-formedness, so a
  result about one needs no side conditions on the file.

    • `Feed.seek_run`, `Feed.session_run` — what the playseek filters write to
      the store and list, wherever the tags stand;
    • `Playlist.seek_run`, `Playlist.session_run` — the response piece by piece:
      the copied tags, the media-sequence tag, then exactly what the segments
      produce.
-/
import NginxNettyHls.M3u8Filter.Window

namespace NginxNettyHls.M3u8Filter

open NginxNettyHls.Java
open Order

/-! ## §1. Feeds and playlists. -/

/-- A file with readable, increasing segment times. -/
structure Feed where
  lines : List JString
  segments : List Segment
  reads : tsSegments none lines = (segments, none)
  increasing : Increasing Segment.time segments

/-- A feed whose single media-sequence tag is the last header line. -/
structure Playlist extends Feed where
  pre : List JString
  tag : JString
  body : List JString
  lines_eq : lines = pre ++ tag :: body
  pre_kinds : ∀ s ∈ pre, lineKind s ≠ .segment ∧ lineKind s ≠ .mediaSequence
  tag_kind : lineKind tag = .mediaSequence
  body_kinds : ∀ s ∈ body, lineKind s ≠ .title ∧ lineKind s ≠ .mediaSequence

/-- The file as it is read without an error. -/
def Feed.file (P : Feed) : FileRead := .opened P.lines .eof

/-- The tags a filter copies. -/
def Playlist.titles (P : Playlist) : List Piece :=
  (P.pre.filter (fun s => lineKind s = .title)).map Piece.title

theorem Feed.inRange (P : Feed) : ∀ g ∈ P.segments, g.InRange := by
  intro g hg
  have h := tsSegments_range P.lines none g
  rw [P.reads] at h
  exact h hg

/-! ## §2. The loop over a feed. -/

variable {σ : Type}

/-- The loop over two pieces of a file. -/
theorem Filter.loop_append (F : Filter σ) :
    ∀ (ls ms : List JString) (st st' : LoopState σ) (puts : List SessionDef),
      F.loop st ls = (puts, .ok st') →
      F.loop st (ls ++ ms) = (puts ++ (F.loop st' ms).1, (F.loop st' ms).2) := by
  intro ls
  induction ls with
  | nil =>
      intro ms st st' puts h
      simp only [Filter.loop, Prod.mk.injEq, Except.ok.injEq] at h
      rw [← h.1, ← h.2]
      rfl
  | cons s ls ih =>
      intro ms st st' puts h
      simp only [List.cons_append, Filter.loop] at h ⊢
      cases hline : F.line st s with
      | error e => simp [hline] at h
      | ok r =>
          simp only [hline, Prod.mk.injEq] at h ⊢
          have hrest := ih ms r.1 st' (F.loop r.1 ls).1 (Prod.ext rfl h.2)
          rw [hrest, ← h.1]
          exact ⟨(List.append_assoc _ _ _).symm, rfl⟩

/-- What a line that is no segment line makes a filter append. -/
def Filter.tagPieces (F : Filter σ) (s : JString) : List Piece :=
  match lineKind s with
  | .title => [.title s]
  | .mediaSequence => F.onMediaSequence
  | _ => []

/-- Lines before the first segment: the tags are written in their order, and the last
EXTINF line, if any, stays in force. -/
theorem Filter.loop_tags (F : Filter σ) :
    ∀ (ls : List JString) (st : LoopState σ), (∀ s ∈ ls, lineKind s ≠ .segment) →
      ∃ ei, F.loop st ls = ([], .ok ⟨ei, st.vars, st.sb ++ ls.flatMap F.tagPieces⟩)
        ∧ ∀ ms, tsSegments st.extInfo (ls ++ ms) = tsSegments ei ms := by
  intro ls
  induction ls with
  | nil => intro st _; exact ⟨st.extInfo, by simp [Filter.loop], fun ms => rfl⟩
  | cons s ls ih =>
      intro st h
      have hrest : ∀ s' ∈ ls, lineKind s' ≠ .segment :=
        fun s' hs' => h s' (List.mem_cons_of_mem s hs')
      simp only [Filter.loop, Filter.line, List.cons_append, tsSegments, List.flatMap_cons]
      cases hk : lineKind s with
      | segment => exact absurd hk (h s List.mem_cons_self)
      | extinf =>
          obtain ⟨ei, h1, h2⟩ := ih ⟨some s, st.vars, st.sb⟩ hrest
          exact ⟨ei, by simp only [h1, Filter.tagPieces, hk]; rfl, h2⟩
      | other =>
          obtain ⟨ei, h1, h2⟩ := ih st hrest
          exact ⟨ei, by simp only [h1, Filter.tagPieces, hk]; rfl, h2⟩
      | title =>
          obtain ⟨ei, h1, h2⟩ := ih ⟨st.extInfo, st.vars, st.sb ++ [.title s]⟩ hrest
          refine ⟨ei, ?_, h2⟩
          simp only [h1, Filter.tagPieces, hk, List.append_assoc]
          rfl
      | mediaSequence =>
          obtain ⟨ei, h1, h2⟩ := ih ⟨st.extInfo, st.vars, st.sb ++ F.onMediaSequence⟩ hrest
          refine ⟨ei, ?_, h2⟩
          simp only [h1, Filter.tagPieces, hk, List.append_assoc]
          rfl

/-- Without the media-sequence tag among them, the tags are copied. -/
theorem Filter.tagPieces_titles (F : Filter σ) :
    ∀ (ls : List JString), (∀ s ∈ ls, lineKind s ≠ .mediaSequence) →
      ls.flatMap F.tagPieces = (ls.filter (fun s => lineKind s = .title)).map Piece.title := by
  intro ls
  induction ls with
  | nil => intro _; rfl
  | cons s ls ih =>
      intro h
      have hrest := ih (fun s' hs' => h s' (List.mem_cons_of_mem s hs'))
      rw [List.flatMap_cons, hrest]
      by_cases hk : lineKind s = .title
      · rw [List.filter_cons_of_pos (by simp [hk])]
        simp only [Filter.tagPieces, hk]
        rfl
      · rw [List.filter_cons_of_neg (by simp [hk])]
        have hms := h s List.mem_cons_self
        unfold Filter.tagPieces
        cases hk' : lineKind s with
        | title => exact absurd hk' hk
        | mediaSequence => exact absurd hk' hms
        | extinf | segment | other => rfl

/-- **A filter over a feed**: its sessions and variables are those of the
segments, it lists what the segments list, and the only other pieces are those
of the tags. -/
theorem Feed.loop (P : Feed) (F : Filter σ) (hF : listed F.onMediaSequence = []) (v : σ) :
    ∃ ei sb,
      F.loop ⟨none, v, []⟩ P.lines
          = ((F.over v P.segments).puts, .ok ⟨ei, (F.over v P.segments).vars, sb⟩)
        ∧ listed sb = listed (F.over v P.segments).out
        ∧ ∀ p ∈ sb, p ∈ (F.over v P.segments).out ∨ p ∈ F.onMediaSequence
            ∨ ∃ s, p = .title s := by
  have hputs := F.loop_puts P.lines ⟨none, v, []⟩
  have hok := F.loop_ok hF P.lines ⟨none, v, []⟩
  simp only [P.reads] at hputs hok
  obtain ⟨ei, sb, h1, h2, h3, _⟩ := hok trivial
  exact ⟨ei, sb, Prod.ext hputs h1, h2, h3⟩

/-- **A filter over a header and a body**: what the tags of the header make it append,
then the pieces of the segments. -/
theorem Filter.loop_split (F : Filter σ) (hF : listed F.onMediaSequence = []) (v : σ)
    {pre body : List JString} {gs : List Segment} (hpre : ∀ s ∈ pre, lineKind s ≠ .segment)
    (hbody : ∀ s ∈ body, lineKind s ≠ .title ∧ lineKind s ≠ .mediaSequence)
    (hreads : tsSegments none (pre ++ body) = (gs, none)) :
    ∃ ei, F.loop ⟨none, v, []⟩ (pre ++ body)
      = ((F.over v gs).puts,
         .ok ⟨ei, (F.over v gs).vars, pre.flatMap F.tagPieces ++ (F.over v gs).out⟩) := by
  obtain ⟨ei, hhead, hsegs⟩ := F.loop_tags pre ⟨none, v, []⟩ hpre
  -- past the header the segments are those of the body
  have hbodySegs : tsSegments ei body = (gs, none) := (hsegs body).symm.trans hreads
  have hputs := F.loop_puts body ⟨ei, v, [] ++ pre.flatMap F.tagPieces⟩
  have hok := F.loop_ok hF body ⟨ei, v, [] ++ pre.flatMap F.tagPieces⟩
  simp only [hbodySegs] at hputs hok
  obtain ⟨ei', sb, hloop, _, _, hsb⟩ := hok trivial
  rw [hsb hbody] at hloop
  refine ⟨ei', ?_⟩
  rw [F.loop_append pre body _ _ _ hhead, hputs, hloop]
  rfl

/-- **A filter over a playlist**: the copied tags, the media-sequence tag, the
pieces of the segments. -/
theorem Playlist.loop (P : Playlist) (F : Filter σ) (hF : listed F.onMediaSequence = [])
    (v : σ) :
    ∃ ei, F.loop ⟨none, v, []⟩ P.lines
      = ((F.over v P.segments).puts,
         .ok ⟨ei, (F.over v P.segments).vars,
              P.titles ++ F.onMediaSequence ++ (F.over v P.segments).out⟩) := by
  have hlines : P.lines = (P.pre ++ [P.tag]) ++ P.body := by
    rw [P.lines_eq, List.append_assoc]
    rfl
  have hpre : ∀ s ∈ P.pre ++ [P.tag], lineKind s ≠ .segment := by
    intro s hs
    rcases List.mem_append.mp hs with hs | hs
    · exact (P.pre_kinds s hs).1
    · rw [List.mem_singleton.mp hs, P.tag_kind]
      decide
  have htags : (P.pre ++ [P.tag]).flatMap F.tagPieces = P.titles ++ F.onMediaSequence := by
    rw [List.flatMap_append, F.tagPieces_titles P.pre (fun s hs => (P.pre_kinds s hs).2),
      List.flatMap_singleton]
    simp only [Filter.tagPieces, P.tag_kind]
    rfl
  have hreads := P.reads
  rw [hlines] at hreads ⊢
  rw [← htags]
  exact F.loop_split hF v hpre P.body_kinds hreads

/-! ## §3. The first response over a feed. -/

/-- The segments of a feed as `m3u8_playseek_filter` sees them, from its first index
on. -/
theorem Feed.seekFilter_over (P : Feed) (timestamp : JString) (query : Option JString) {a : Int}
    (ha : IsInt32 a) :
    ((seekFilter timestamp query a).over (0 : Int) P.segments).out
        = entries query ((selected a P.segments).take 3)
      ∧ ((seekFilter timestamp query a).over (0 : Int) P.segments).puts
        = (selected a P.segments).head?.toList.map (newSession timestamp) := by
  have hlen := length_selected_lt ha P.increasing P.inRange
  exact M3u8Filter.seekFilter_over timestamp query a P.segments 0 (by simpa using hlen)

/-- What `m3u8_playseek_filter` writes and lists. -/
theorem Feed.seek_run (P : Feed) (timestamp : JString) (query : Option JString) {a : Int}
    (ha : IsInt32 a) :
    (m3u8PlayseekFilter timestamp query a P.file).puts
        = (selected a P.segments).head?.toList.map (newSession timestamp)
      ∧ ∃ sb, (m3u8PlayseekFilter timestamp query a P.file).result = .ok sb
          ∧ listed sb = (selected a P.segments).take 3
          ∧ ∀ n, .number n ∈ sb → n = 0 := by
  obtain ⟨hout, hputs⟩ := P.seekFilter_over timestamp query ha
  obtain ⟨ei, sb, h1, h2, h3⟩ := P.loop (seekFilter timestamp query a) rfl (0 : Int)
  simp only [m3u8PlayseekFilter, Feed.file, h1]
  refine ⟨hputs, sb, rfl, ?_, ?_⟩
  · rw [h2, hout]
    exact listed_map_entry _ _
  · intro n hn
    -- a number comes from the entries, from the tag, or from a copied line
    rcases h3 _ hn with h | h | ⟨t, h⟩
    · rw [hout] at h
      obtain ⟨g, _, hg⟩ := List.mem_map.mp h
      exact absurd hg (by simp)
    · simpa [seekFilter] using h
    · exact absurd h (by simp)

/-- The first response over a playlist. -/
theorem Playlist.seek_run (P : Playlist) (timestamp : JString) (query : Option JString)
    {a : Int} (ha : IsInt32 a) :
    m3u8PlayseekFilter timestamp query a P.file
      = ⟨(selected a P.segments).head?.toList.map (newSession timestamp),
         .ok (P.titles ++ .mediaSequence :: .number 0
            :: entries query ((selected a P.segments).take 3))⟩ := by
  obtain ⟨hout, hputs⟩ := P.seekFilter_over timestamp query ha
  obtain ⟨ei, h⟩ := P.loop (seekFilter timestamp query a) rfl (0 : Int)
  simp only [m3u8PlayseekFilter, Feed.file, h]
  rw [hout, hputs]
  simp only [seekFilter, Except.map, ReadEnd.raise, List.append_assoc, List.cons_append,
    List.nil_append]

/-! ## §4. The follow-up over a feed. -/

/-- What the segments make a follow-up append, the number after the loop
included. -/
def sessionOut (query : Option JString) (s : SessionDef) (gs : List Segment) : List Piece :=
  ((sessionFilter query).over ⟨-1, s⟩ gs).out
    ++ closingNumber ((sessionFilter query).over ⟨-1, s⟩ gs).vars

/-- What `m3u8_playseek_filter_session` writes and lists; every number it
appends comes from the segments. -/
theorem Feed.session_run (P : Feed) (s : SessionDef) (query : Option JString) :
    (m3u8PlayseekFilterSession s query P.file).puts
        = ((sessionFilter query).over ⟨-1, s⟩ P.segments).puts
      ∧ ∃ sb, (m3u8PlayseekFilterSession s query P.file).result = .ok sb
          ∧ listed sb = listed (sessionOut query s P.segments)
          ∧ ∀ n, .number n ∈ sb → .number n ∈ sessionOut query s P.segments := by
  obtain ⟨ei, sb, h1, h2, h3⟩ := P.loop (sessionFilter query) rfl ⟨-1, s⟩
  simp only [m3u8PlayseekFilterSession, Feed.file, h1]
  refine ⟨trivial, _, rfl, ?_, ?_⟩
  · rw [listed_append, h2]
    exact (listed_append _ _).symm
  · intro n hn
    rcases List.mem_append.mp hn with hn | hn
    · rcases h3 _ hn with h | h | ⟨t, h⟩
      · exact List.mem_append_left _ h
      · simp [sessionFilter] at h
      · exact absurd h (by simp)
    · exact List.mem_append_right _ hn

/-- What a follow-up writes and lists over a feed that still has the segment with
`last_time`; the one number it appends is that of `followOut`. -/
theorem Feed.session_run_present (P : Feed) (s : SessionDef) (query : Option JString)
    (h : ∃ g ∈ P.segments, g.time = s.lastTime) :
    (m3u8PlayseekFilterSession s query P.file).puts = followPuts s (newer s.lastTime P.segments)
      ∧ ∃ sb, (m3u8PlayseekFilterSession s query P.file).result = .ok sb
          ∧ listed sb = listed (followOut query s (newer s.lastTime P.segments))
          ∧ ∀ n, .number n ∈ sb →
              .number n ∈ followOut query s (newer s.lastTime P.segments) := by
  obtain ⟨g, hg, ht⟩ := h
  obtain ⟨hputs, hout⟩ := sessionFilter_present query s P.increasing P.inRange hg ht
  obtain ⟨hrun, sb, hsb, hlisted, hnum⟩ := P.session_run s query
  rw [show sessionOut query s P.segments = _ from hout] at hlisted hnum
  exact ⟨hrun.trans hputs, sb, hsb, hlisted, hnum⟩

/-- The follow-up over a playlist. -/
theorem Playlist.session_run (P : Playlist) (s : SessionDef) (query : Option JString) :
    m3u8PlayseekFilterSession s query P.file
      = ⟨((sessionFilter query).over ⟨-1, s⟩ P.segments).puts,
         .ok (P.titles ++ .mediaSequence :: sessionOut query s P.segments)⟩ := by
  obtain ⟨ei, h⟩ := P.loop (sessionFilter query) rfl ⟨-1, s⟩
  simp only [m3u8PlayseekFilterSession, Feed.file, h]
  unfold sessionOut
  simp only [sessionFilter, Except.map, ReadEnd.raise, List.append_assoc, List.cons_append,
    List.nil_append]

/-- The follow-up over a playlist that still has the segment with `last_time`. -/
theorem Playlist.session_run_present (P : Playlist) (s : SessionDef) (query : Option JString)
    (h : ∃ g ∈ P.segments, g.time = s.lastTime) :
    m3u8PlayseekFilterSession s query P.file
      = ⟨followPuts s (newer s.lastTime P.segments),
         .ok (P.titles ++ .mediaSequence
            :: followOut query s (newer s.lastTime P.segments))⟩ := by
  obtain ⟨g, hg, ht⟩ := h
  obtain ⟨hputs, hout⟩ := sessionFilter_present query s P.increasing P.inRange hg ht
  rw [P.session_run, hputs, show sessionOut query s P.segments = _ from hout]

/-- The follow-up over a playlist that the segment with `last_time` has left. -/
theorem Playlist.session_run_absent (P : Playlist) (s : SessionDef) (query : Option JString)
    (hl : 0 ≤ s.lastTime) (hl' : s.lastTime < 2 ^ 31)
    (h : ∀ g ∈ P.segments, g.time ≠ s.lastTime) :
    m3u8PlayseekFilterSession s query P.file
      = ⟨followPuts s (newer s.lastTime P.segments).tail,
         .ok (P.titles ++ .mediaSequence
            :: staleOut query s (newer s.lastTime P.segments))⟩ := by
  obtain ⟨hputs, hout⟩ := sessionFilter_absent query s hl hl' P.increasing P.inRange h
  rw [P.session_run, hputs, show sessionOut query s P.segments = _ from hout]

/-! ## §5. Reading a response back. -/

@[simp] theorem listed_followOut (query : Option JString) (s : SessionDef)
    (new : List Segment) : listed (followOut query s new) = new.take 3 := by
  cases new with
  | nil => rfl
  | cons g rest =>
      show listed (entries query ((g :: rest).take 3)) = _
      exact listed_map_entry _ _

/-- The copied tags list nothing. -/
@[simp] theorem Playlist.listed_titles (P : Playlist) : listed P.titles = [] := by
  unfold Playlist.titles
  exact listed_map_title _

@[simp] theorem listed_mediaSequence (ps : List Piece) :
    listed (.mediaSequence :: ps) = listed ps := rfl

/-- What is announced is one of the numbers of the response. -/
theorem number_mem_of_announced :
    ∀ {sb : List Piece} {n : Int}, announced sb = some n → .number n ∈ sb := by
  intro sb
  induction sb with
  | nil => intro n h; simp [announced] at h
  | cons p ps ih =>
      intro n h
      cases p with
      | mediaSequence =>
          cases ps with
          | nil => simp [announced] at h
          | cons p' ps' =>
              cases p' with
              | number m =>
                  simp only [announced, Option.some.injEq] at h
                  simp [h]
              | _ => exact List.mem_cons_of_mem _ (ih h)
      | _ => exact List.mem_cons_of_mem _ (ih h)

/-- The number a playlist response announces stands right after the tags. -/
theorem Playlist.announced_number (P : Playlist) (n : Int) (ps : List Piece) :
    announced (P.titles ++ .mediaSequence :: .number n :: ps) = some n :=
  announced_title_append _ _

/-- A response that continues with an entry right after the media-sequence tag
announces nothing, when all its numbers come later. -/
theorem Playlist.announced_entry (P : Playlist) (g : Segment) (query : Option JString)
    (ps : List Piece) (hps : .mediaSequence ∉ ps) :
    announced (P.titles ++ .mediaSequence :: .entry g query :: ps) = none := by
  unfold Playlist.titles
  rw [announced_title_append]
  show announced ps = none
  induction ps with
  | nil => rfl
  | cons p ps ih =>
      have hp : p ≠ .mediaSequence := fun e => hps (by simp [e])
      have hrest := ih (fun h => hps (List.mem_cons_of_mem p h))
      cases p with
      | mediaSequence => exact absurd rfl hp
      | title s => exact hrest
      | number n => exact hrest
      | entry g q => exact hrest

/-! ## §6. Playlists of the usual form. -/

/-- A segment of six seconds named after its time. -/
def liveSegment (t : Int) : Segment :=
  ⟨some "#EXTINF:6,".toList, "cctv-".toList ++ valueOf t ++ ".ts".toList, t⟩

def liveHeader : List JString := ["#EXTM3U".toList]

def liveTag : JString := "#EXT-X-MEDIA-SEQUENCE:0".toList

def liveBody (times : List Int) : List JString :=
  times.flatMap (fun t => ["#EXTINF:6,".toList, (liveSegment t).line])

theorem liveHeader_kind : ∀ s ∈ liveHeader, lineKind s = .title := by decide +kernel

theorem liveTag_kind : lineKind liveTag = .mediaSequence := by decide +kernel

/-- The times can be read back and increase. -/
structure LiveTimes (times : List Int) : Prop where
  reads : tsSegments none (liveBody times) = (times.map liveSegment, none)
  increasing : Increasing Segment.time (times.map liveSegment)
  body : ∀ s ∈ liveBody times, lineKind s ≠ .title ∧ lineKind s ≠ .mediaSequence

/-- The playlist with a segment for each of `times`. -/
def Playlist.live (times : List Int) (h : LiveTimes times) : Playlist where
  lines := liveHeader ++ liveTag :: liveBody times
  segments := times.map liveSegment
  reads := by
    have hhead := liveHeader_kind _ List.mem_cons_self
    simp only [liveHeader, List.cons_append, List.nil_append, tsSegments, hhead, liveTag_kind]
    exact h.reads
  increasing := h.increasing
  pre := liveHeader
  tag := liveTag
  body := liveBody times
  lines_eq := rfl
  pre_kinds := fun s hs => by simp [liveHeader_kind s hs]
  tag_kind := liveTag_kind
  body_kinds := h.body

end NginxNettyHls.M3u8Filter
