/-
  NginxNettyHls.M3u8Filter.WellFormed
  ───────────────────────────────────
  **THE TEXT OF A PLAYSEEK RESPONSE, LINE BY LINE.**

  The filters append pieces without a common rule for line ends: a copied tag
  brings its CRLF after it, an entry brings one before it, the media-sequence tag
  and its number bring none.  Cut at CRLF, the text is the lines the pieces stand
  for only where an end is always next to a beginning:

    • `crlfLines_content` — a response in the usual order (`content`) is the
      tags, the numbered tag and the lines of the entries;
    • a follow-up is well formed exactly when the segment at `last_time` is in
      the playlist: otherwise the number is not behind the tag;
    • a first response is well formed exactly when the media-sequence tag is the
      last of the header: otherwise the next tag is glued to it.
-/
import NginxNettyHls.M3u8Filter.FollowUp
import NginxNettyHls.Text.Lines

namespace NginxNettyHls.M3u8Filter

open NginxNettyHls.Java
open Text

/-! ## §1. The lines pieces stand for. -/

/-- A text cut at CRLF. -/
def crlfLines (text : JString) : List JString := splitPair '\r' '\n' text

/-- The tag as both filters write it. -/
def mediaSequenceTag : JString := "#EXT-X-MEDIA-SEQUENCE:".toList

/-- A media-sequence line. -/
def numberedTag (n : Int) : JString := mediaSequenceTag ++ valueOf n

/-- A segment line with the query after it. -/
def withQuery (query : Option JString) (line : JString) : JString :=
  line ++ (match query with
    | none => []
    | some q => '?' :: q)

/-- The two lines of an entry. -/
def entryLines (query : Option JString) (g : Segment) : List JString :=
  [orNull g.extInfo, withQuery query g.line]

/-- No CRLF inside. -/
def NoCRLF (s : JString) : Prop := ¬ HasPair '\r' '\n' s

theorem noCRLF_of_unbroken {s : JString} (h : Unbroken s) : NoCRLF s :=
  not_hasPair_of_not_mem h.1

theorem toText_cons (p : Piece) (ps : List Piece) : toText (p :: ps) = p.text ++ toText ps := rfl

theorem toText_append (ps qs : List Piece) : toText (ps ++ qs) = toText ps ++ toText qs :=
  List.flatMap_append

theorem text_title (s : JString) : (Piece.title s).text = s ++ ['\r', '\n'] := rfl

theorem text_entry (g : Segment) (query : Option JString) :
    (Piece.entry g query).text
      = '\r' :: '\n' :: (orNull g.extInfo ++ '\r' :: '\n' :: withQuery query g.line) := by
  show ['\r', '\n'] ++ orNull g.extInfo ++ ['\r', '\n'] ++ g.line ++ _ = _
  rw [List.append_assoc, List.append_assoc, List.append_assoc]
  rfl

/-- Copied tags are lines of their own. -/
theorem crlfLines_titles (text : JString) :
    ∀ (ts : List JString), (∀ t ∈ ts, NoCRLF t) →
      crlfLines (toText (ts.map Piece.title) ++ text) = ts ++ crlfLines text := by
  intro ts
  induction ts with
  | nil => intro _; rfl
  | cons t ts ih =>
      intro h
      have hrest := ih (fun t' ht' => h t' (List.mem_cons_of_mem t ht'))
      have hcut := splitPair_append (a := '\r') (b := '\n') (by decide)
        (toText (ts.map Piece.title) ++ text) t (h t List.mem_cons_self)
      show splitPair '\r' '\n' (toText (.title t :: ts.map Piece.title) ++ text) = _
      rw [toText_cons, text_title]
      simp only [List.append_assoc, List.cons_append, List.nil_append] at hcut ⊢
      rw [hcut]
      exact congrArg (t :: ·) hrest

/-- Entries end the line before them and add two lines each. -/
theorem crlfLines_entries (query : Option JString) :
    ∀ (gs : List Segment) (l : JString), NoCRLF l →
      (∀ g ∈ gs, NoCRLF (orNull g.extInfo) ∧ NoCRLF (withQuery query g.line)) →
      crlfLines (l ++ toText (entries query gs)) = l :: gs.flatMap (entryLines query) := by
  intro gs
  induction gs with
  | nil =>
      intro l hl _
      show splitPair '\r' '\n' (l ++ []) = _
      rw [List.append_nil]
      exact splitPair_eq_singleton l hl
  | cons g gs ih =>
      intro l hl h
      have hg := h g List.mem_cons_self
      -- the segment line is still open when the next entry begins
      have hrest := ih (withQuery query g.line) hg.2
        (fun g' hg' => h g' (List.mem_cons_of_mem g hg'))
      unfold crlfLines at hrest
      show splitPair '\r' '\n' (l ++ toText (.entry g query :: entries query gs)) = _
      rw [toText_cons, text_entry, List.cons_append, List.cons_append,
        splitPair_append (by decide) _ l hl, List.append_assoc, List.cons_append,
        List.cons_append, splitPair_append (by decide) _ _ hg.1, hrest]
      rfl

/-- **A response in the usual order, line by line.** -/
theorem crlfLines_content {titles : List JString} (n : Int) {query : Option JString}
    {gs : List Segment} (ht : ∀ t ∈ titles, NoCRLF t)
    (hg : ∀ g ∈ gs, NoCRLF (orNull g.extInfo) ∧ NoCRLF (withQuery query g.line))
    (hn : NoCRLF (numberedTag n)) :
    crlfLines (toText (content titles n query gs))
      = titles ++ numberedTag n :: gs.flatMap (entryLines query) := by
  unfold content
  rw [toText_append, crlfLines_titles _ titles ht, toText_cons, toText_cons, ← List.append_assoc]
  exact congrArg (titles ++ ·) (crlfLines_entries query gs (numberedTag n) hn hg)

/-! ## §2. The numbered tag among other lines. -/

/-- Its characters: none of those that end lines, none of a file name, `#` in front
only. -/
theorem mem_numberedTag_tail {n : Int} {c : Char}
    (h : c ∈ "EXT-X-MEDIA-SEQUENCE:".toList ++ valueOf n) :
    c ≠ '\r' ∧ c ≠ '\n' ∧ c ≠ '.' ∧ c ≠ '#' := by
  rcases List.mem_append.mp h with h | h
  · have hall : ∀ c ∈ "EXT-X-MEDIA-SEQUENCE:".toList,
        c ≠ '\r' ∧ c ≠ '\n' ∧ c ≠ '.' ∧ c ≠ '#' := by simp
    exact hall c h
  · rcases mem_valueOf h with rfl | hdigit
    · decide
    · refine ⟨?_, ?_, ?_, ?_⟩ <;>
      · rintro rfl
        exact absurd hdigit (by decide)

theorem numberedTag_eq (n : Int) :
    numberedTag n = '#' :: ("EXT-X-MEDIA-SEQUENCE:".toList ++ valueOf n) := rfl

theorem unbroken_numberedTag (n : Int) : Unbroken (numberedTag n) := by
  rw [numberedTag_eq]
  constructor
  · intro h
    rcases List.mem_cons.mp h with h | h
    · exact absurd h (by decide)
    · exact (mem_numberedTag_tail h).1 rfl
  · intro h
    rcases List.mem_cons.mp h with h | h
    · exact absurd h (by decide)
    · exact (mem_numberedTag_tail h).2.1 rfl

theorem unbroken_valueOf (n : Int) : Unbroken (valueOf n) :=
  (unbroken_append.mp (unbroken_numberedTag n)).2

theorem dot_not_mem_numberedTag (n : Int) : '.' ∉ numberedTag n := by
  rw [numberedTag_eq]
  intro h
  rcases List.mem_cons.mp h with h | h
  · exact absurd h (by decide)
  · exact (mem_numberedTag_tail h).2.2.1 rfl

/-- The only tag it contains is its own: another one would have to stand at its
beginning, where the `#` is. -/
theorem contains_numberedTag {m : JString} (n : Int) (hlen : m.length ≤ 21)
    (hpre : ¬ ('#' :: m) <+: mediaSequenceTag) : contains (numberedTag n) ('#' :: m) = false := by
  unfold contains
  rw [decide_eq_false_iff_not]
  intro hinf
  rw [numberedTag_eq, List.infix_cons_iff] at hinf
  rcases hinf with h | h
  · have hlong : ('#' :: m).length ≤ mediaSequenceTag.length := by
      show m.length + 1 ≤ 22
      omega
    have htag : mediaSequenceTag <+: numberedTag n := List.prefix_append _ _
    exact hpre (List.prefix_of_prefix_length_le h htag hlong)
  · exact (mem_numberedTag_tail (h.subset List.mem_cons_self)).2.2.2 rfl

theorem lineKind_numberedTag (n : Int) : lineKind (numberedTag n) = .mediaSequence := by
  have hts : contains (numberedTag n) ".ts".toList = false := by
    unfold contains
    rw [decide_eq_false_iff_not]
    intro h
    exact dot_not_mem_numberedTag n (h.subset List.mem_cons_self)
  have hself : contains (numberedTag n) "#EXT-X-MEDIA-SEQUENCE".toList = true := by
    unfold contains
    rw [decide_eq_true_eq]
    exact ⟨[], ':' :: valueOf n, rfl⟩
  unfold lineKind
  rw [hts, hself, show contains (numberedTag n) "#EXTINF:".toList = false from
      contains_numberedTag n (by decide) (by decide),
    show contains (numberedTag n) "#EXTM3U".toList = false from
      contains_numberedTag n (by decide) (by decide),
    show contains (numberedTag n) "#EXT-X-VERSION".toList = false from
      contains_numberedTag n (by decide) (by decide),
    show contains (numberedTag n) "#EXT-X-TARGETDURATION".toList = false from
      contains_numberedTag n (by decide) (by decide)]
  rfl

/-- A segment line has a dot. -/
theorem dot_mem_of_segment {s : JString} (h : lineKind s = .segment) : '.' ∈ s := by
  by_contra hdot
  have hts : contains s ".ts".toList = false := by
    unfold contains
    rw [decide_eq_false_iff_not]
    intro hinf
    exact hdot (hinf.subset List.mem_cons_self)
  unfold lineKind at h
  rw [hts] at h
  split_ifs at h
  all_goals simp_all

/-! ## §3. Playlists read from a text. -/

/-- A playlist whose lines are those `readLine` delivers from a text. -/
structure TextPlaylist extends Playlist where
  text : JString
  delivered : lines = readLines text

theorem TextPlaylist.unbroken (P : TextPlaylist) : ∀ l ∈ P.lines, Unbroken l := by
  intro l hl
  rw [P.delivered] at hl
  exact unbroken_of_mem_readLines hl

theorem Feed.segments_mem (P : Feed) {g : Segment} (hg : g ∈ P.segments) :
    (g.line ∈ P.lines ∧ lineKind g.line = .segment)
      ∧ ∀ e, g.extInfo = some e → e ∈ P.lines ∧ lineKind e = .extinf := by
  have h := tsSegments_mem P.lines none g
  rw [P.reads] at h
  obtain ⟨⟨hline, hkind, _⟩, hei⟩ := h hg
  exact ⟨⟨hline, hkind⟩, fun e he => (hei e he).resolve_right (by simp)⟩

theorem unbroken_extInfo {lines : List JString} (hlines : ∀ l ∈ lines, Unbroken l)
    {g : Segment} (hei : ∀ e, g.extInfo = some e → e ∈ lines) :
    Unbroken (orNull g.extInfo) := by
  cases he : g.extInfo with
  | none => exact ⟨by decide, by decide⟩
  | some e => exact hlines e (hei e he)

/-- What a segment contributes has no line break of its own if the query has none. -/
theorem unbroken_entry {lines : List JString} (hlines : ∀ l ∈ lines, Unbroken l)
    {query : Option JString} (hq : ∀ q, query = some q → Unbroken q) {g : Segment}
    (hline : g.line ∈ lines) (hei : ∀ e, g.extInfo = some e → e ∈ lines) :
    Unbroken (orNull g.extInfo) ∧ Unbroken (withQuery query g.line) := by
  constructor
  · exact unbroken_extInfo hlines hei
  · unfold withQuery
    rw [unbroken_append]
    refine ⟨hlines _ hline, ?_⟩
    cases query with
    | none => exact ⟨by simp, by simp⟩
    | some q =>
        have h := hq q rfl
        exact ⟨by simp [h.1], by simp [h.2]⟩

/-! ## §4. Follow-ups. -/

/-- A follow-up response a player can read: one numbered tag, behind the copied tags
and before the lines of at most three segments of the playlist. -/
structure WellFormed (P : Playlist) (query : Option JString) (text : JString) : Prop where
  one_number : ∃! i : Nat, ∃ n : Int, (crlfLines text)[i]? = some (numberedTag n)
  in_order : ∃ (n : Int) (gs : List Segment), gs.length ≤ 3 ∧ gs.Sublist P.segments
    ∧ crlfLines text = P.titleLines ++ numberedTag n :: gs.flatMap (entryLines query)

theorem Playlist.titleLines_mem (P : Playlist) {t : JString} (ht : t ∈ P.titleLines) :
    t ∈ P.lines ∧ lineKind t = .title := by
  obtain ⟨hmem, hkind⟩ := List.mem_filter.mp ht
  refine ⟨?_, by simpa using hkind⟩
  rw [P.lines_eq]
  exact List.mem_append_left _ hmem

/-- The lines of an entry are not numbered tags. -/
theorem Feed.entryLines_ne_numberedTag (P : Feed) {query : Option JString} {g : Segment}
    (hg : g ∈ P.segments) {l : JString} (hl : l ∈ entryLines query g) (n : Int) :
    l ≠ numberedTag n := by
  obtain ⟨⟨_, hkind⟩, hei⟩ := P.segments_mem hg
  have hn := lineKind_numberedTag n
  simp only [entryLines, List.mem_cons, List.not_mem_nil, or_false] at hl
  rcases hl with rfl | rfl
  · intro heq
    cases he : g.extInfo with
    | none =>
        rw [← heq, he] at hn
        exact absurd hn (by decide +kernel)
    | some e =>
        rw [← heq, he, show orNull (some e) = e from rfl, (hei e he).2] at hn
        exact absurd hn (by decide)
  · intro heq
    have hdot : '.' ∈ withQuery query g.line :=
      List.mem_append_left _ (dot_mem_of_segment hkind)
    rw [heq] at hdot
    exact dot_not_mem_numberedTag n hdot

/-- The response in the usual order is well formed. -/
theorem TextPlaylist.wellFormed_content (P : TextPlaylist) (n : Int) {query : Option JString}
    (hq : ∀ q, query = some q → Unbroken q) {gs : List Segment} (hlen : gs.length ≤ 3)
    (hgs : gs.Sublist P.segments) :
    WellFormed P.toPlaylist query (toText (content P.titleLines n query gs)) := by
  have hlines : crlfLines (toText (content P.titleLines n query gs))
      = P.titleLines ++ numberedTag n :: gs.flatMap (entryLines query) := by
    apply crlfLines_content
    · intro t ht
      exact noCRLF_of_unbroken (P.unbroken t (P.titleLines_mem ht).1)
    · intro g hg
      obtain ⟨⟨hline, _⟩, hei⟩ := P.segments_mem (hgs.subset hg)
      have h := unbroken_entry P.unbroken hq hline (fun e he => (hei e he).1)
      exact ⟨noCRLF_of_unbroken h.1, noCRLF_of_unbroken h.2⟩
    · exact noCRLF_of_unbroken (unbroken_numberedTag n)
  refine ⟨⟨P.titleLines.length, ⟨n, by simp [hlines]⟩, ?_⟩, n, gs, hlen, hgs, hlines⟩
  rintro i ⟨m, hm⟩
  rw [hlines, List.getElem?_append] at hm
  split_ifs at hm with hi
  · -- a copied tag is of another kind
    have hkind := (P.titleLines_mem (List.mem_of_getElem? hm)).2
    rw [lineKind_numberedTag] at hkind
    exact absurd hkind (by decide)
  · cases hk : i - P.titleLines.length with
    | zero => omega
    | succ k =>
        rw [hk, List.getElem?_cons_succ] at hm
        obtain ⟨g, hg, hl⟩ := List.mem_flatMap.mp (List.mem_of_getElem? hm)
        exact absurd rfl (P.entryLines_ne_numberedTag (hgs.subset hg) hl m)

/-- Without the segment at `last_time` nothing comes behind the tag, or an entry does:
`index` is still -1 when the first newer segment is met. -/
theorem sessionOut_absent (query : Option JString) (s : SessionDef) :
    ∀ (gs : List Segment), (∀ g ∈ gs, g.time ≠ s.lastTime) →
      sessionOut query s gs = [] ∨ ∃ g ps, sessionOut query s gs = .entry g query :: ps := by
  intro gs
  induction gs with
  | nil => intro _; exact Or.inl rfl
  | cons g gs ih =>
      intro h
      by_cases hpass : 0 < toInt32 (g.time - s.lastTime)
      · right
        have hturn : (sessionFilter query).onSegment ⟨-1, s⟩ g
            = ⟨⟨0, s⟩, none, [.entry g query]⟩ := by
          show sessionSegment query ⟨-1, s⟩ g = _
          unfold sessionSegment
          rw [if_neg (h g List.mem_cons_self), if_pos hpass]
          rfl
        refine ⟨g, ((sessionFilter query).over ⟨0, s⟩ gs).out
          ++ closingNumber ((sessionFilter query).over ⟨0, s⟩ gs).vars, ?_⟩
        unfold sessionOut
        simp only [Filter.over, hturn, List.cons_append, List.nil_append]
      · have hturn : (sessionFilter query).onSegment ⟨-1, s⟩ g = ⟨⟨-1, s⟩, none, []⟩ :=
          sessionSegment_skipped query ⟨-1, s⟩ (by simp [h g List.mem_cons_self, hpass])
        have hskip : sessionOut query s (g :: gs) = sessionOut query s gs := by
          unfold sessionOut
          simp only [Filter.over, hturn, List.nil_append]
        rw [hskip]
        exact ih (fun g' hg' => h g' (List.mem_cons_of_mem g hg'))

/-- Entries of the segments `gs` and numbers. -/
def FollowPieces (query : Option JString) (gs : List Segment) (ps : List Piece) : Prop :=
  ∀ p ∈ ps, (∃ n, p = .number n) ∨ ∃ g ∈ gs, p = .entry g query

theorem sessionSegment_pieces (query : Option JString) (v : SessionVars) (g : Segment) :
    FollowPieces query [g] (sessionSegment query v g).out := by
  intro p hp
  unfold sessionSegment at hp
  split_ifs at hp with hsame hpass hplace hthree hthree
  · exact absurd hp List.not_mem_nil
  · rcases List.mem_cons.mp hp with rfl | hentry
    · exact Or.inl ⟨_, rfl⟩
    · exact Or.inr ⟨g, List.mem_singleton.mpr rfl, List.mem_singleton.mp hentry⟩
  · exact Or.inr ⟨g, List.mem_singleton.mpr rfl, List.mem_singleton.mp hp⟩
  · exact Or.inl ⟨_, List.mem_singleton.mp hp⟩
  · exact absurd hp List.not_mem_nil
  · exact absurd hp List.not_mem_nil

theorem over_pieces (query : Option JString) :
    ∀ (gs : List Segment) (v : SessionVars),
      FollowPieces query gs ((sessionFilter query).over v gs).out := by
  intro gs
  induction gs with
  | nil => intro v p hp; exact absurd hp List.not_mem_nil
  | cons g gs ih =>
      intro v p hp
      rcases List.mem_append.mp hp with hfirst | hrest
      · rcases sessionSegment_pieces query v g p hfirst with hn | ⟨x, hx, hentry⟩
        · exact Or.inl hn
        · rw [List.mem_singleton.mp hx] at hentry
          exact Or.inr ⟨g, List.mem_cons_self, hentry⟩
      · rcases ih _ p hrest with hn | ⟨x, hx, hentry⟩
        · exact Or.inl hn
        · exact Or.inr ⟨x, List.mem_cons_of_mem g hx, hentry⟩

theorem sessionOut_pieces (query : Option JString) (s : SessionDef) (gs : List Segment) :
    FollowPieces query gs (sessionOut query s gs) := by
  intro p hp
  rcases List.mem_append.mp hp with hout | hclosing
  · exact over_pieces query gs _ p hout
  · unfold closingNumber at hclosing
    split_ifs at hclosing
    · exact Or.inl ⟨_, List.mem_singleton.mp hclosing⟩
    · exact absurd hclosing List.not_mem_nil

/-- Behind a segment line that is still open, numbers are glued to segment lines, so there are
only EXTINF lines and lines with a dot in them. -/
theorem TextPlaylist.lines_behind_segment (P : TextPlaylist) {query : Option JString}
    (hq : ∀ q, query = some q → Unbroken q) :
    ∀ (ps : List Piece), FollowPieces query P.segments ps →
      ∀ (l : JString), Unbroken l → '.' ∈ l →
      ∀ x ∈ crlfLines (l ++ toText ps),
        '.' ∈ x ∨ ∃ g ∈ P.segments, x = orNull g.extInfo := by
  intro ps
  induction ps with
  | nil =>
      intro _ l hl hdot x hx
      have hone : crlfLines (l ++ toText []) = [l] := by
        show splitPair '\r' '\n' (l ++ []) = [l]
        rw [List.append_nil, splitPair_eq_singleton _ (noCRLF_of_unbroken hl)]
      rw [hone] at hx
      rw [List.mem_singleton.mp hx]
      exact Or.inl hdot
  | cons p ps ih =>
      intro hps l hl hdot x hx
      have hrest : FollowPieces query P.segments ps := fun y hy => hps y (List.mem_cons_of_mem p hy)
      rw [toText_cons, ← List.append_assoc] at hx
      rcases hps p List.mem_cons_self with ⟨n, rfl⟩ | ⟨g, hg, rfl⟩
      · exact ih hrest (l ++ valueOf n) (unbroken_append.mpr ⟨hl, unbroken_valueOf n⟩)
          (List.mem_append_left _ hdot) x hx
      · obtain ⟨⟨hline, hkind⟩, hei⟩ := P.segments_mem hg
        obtain ⟨hext, hsegment⟩ := unbroken_entry P.unbroken hq hline (fun e he => (hei e he).1)
        have hcut : crlfLines (l ++ (Piece.entry g query).text ++ toText ps)
            = l :: orNull g.extInfo :: crlfLines (withQuery query g.line ++ toText ps) := by
          rw [text_entry]
          unfold crlfLines
          simp only [List.append_assoc, List.cons_append]
          rw [splitPair_append (by decide) _ _ (noCRLF_of_unbroken hl),
            splitPair_append (by decide) _ _ (noCRLF_of_unbroken hext)]
        rw [hcut] at hx
        rcases List.mem_cons.mp hx with rfl | hx
        · exact Or.inl hdot
        · rcases List.mem_cons.mp hx with rfl | hx
          · exact Or.inr ⟨g, hg, rfl⟩
          · exact ih hrest _ hsegment
              (List.mem_append_left _ (dot_mem_of_segment hkind)) x hx

/-- Without the segment at `last_time` the line of the tag has no number, and the first entry
comes behind it. -/
theorem TextPlaylist.lines_absent (P : TextPlaylist) {query : Option JString}
    (hq : ∀ q, query = some q → Unbroken q) {s : SessionDef}
    (habs : ∀ g ∈ P.segments, g.time ≠ s.lastTime) :
    ∀ x ∈ splitPair '\r' '\n' (mediaSequenceTag ++ toText (sessionOut query s P.segments)),
      x = mediaSequenceTag ∨ '.' ∈ x ∨ ∃ g ∈ P.segments, x = orNull g.extInfo := by
  have htag : NoCRLF mediaSequenceTag := noCRLF_of_unbroken ⟨by decide, by decide⟩
  have hpieces := sessionOut_pieces query s P.segments
  intro x hx
  rcases sessionOut_absent query s P.segments habs with hout | ⟨g, ps, hout⟩
  · rw [hout] at hx
    rw [show mediaSequenceTag ++ toText [] = mediaSequenceTag from List.append_nil _,
      splitPair_eq_singleton _ htag] at hx
    exact Or.inl (List.mem_singleton.mp hx)
  · rw [hout] at hx hpieces
    obtain ⟨y, hy, hentry⟩ := (hpieces (.entry g query) List.mem_cons_self).resolve_left
      (by simp)
    obtain rfl : g = y := by simpa using hentry
    have hrest : FollowPieces query P.segments ps :=
      fun p hp => hpieces p (List.mem_cons_of_mem _ hp)
    obtain ⟨⟨hline, hkind⟩, hei⟩ := P.segments_mem hy
    obtain ⟨hext, hsegment⟩ := unbroken_entry P.unbroken hq hline (fun e he => (hei e he).1)
    rw [toText_cons, text_entry] at hx
    simp only [List.append_assoc, List.cons_append] at hx
    rw [splitPair_append (by decide) _ _ htag,
      splitPair_append (by decide) _ _ (noCRLF_of_unbroken hext)] at hx
    rcases List.mem_cons.mp hx with rfl | hx
    · exact Or.inl rfl
    · rcases List.mem_cons.mp hx with rfl | hx
      · exact Or.inr (Or.inr ⟨g, hy, rfl⟩)
      · exact Or.inr (P.lines_behind_segment hq ps hrest _ hsegment
          (List.mem_append_left _ (dot_mem_of_segment hkind)) x hx)

/-- So no line is a numbered tag. -/
theorem TextPlaylist.no_number_absent (P : TextPlaylist) {query : Option JString}
    (hq : ∀ q, query = some q → Unbroken q) {s : SessionDef}
    (habs : ∀ g ∈ P.segments, g.time ≠ s.lastTime) (n : Int) :
    numberedTag n ∉ crlfLines
      (toText (P.titles ++ .mediaSequence :: sessionOut query s P.segments)) := by
  have htitles : ∀ t ∈ P.titleLines, NoCRLF t :=
    fun t ht => noCRLF_of_unbroken (P.unbroken t (P.titleLines_mem ht).1)
  have hcut : crlfLines (toText (P.titles ++ .mediaSequence :: sessionOut query s P.segments))
      = P.titleLines
        ++ splitPair '\r' '\n' (mediaSequenceTag ++ toText (sessionOut query s P.segments)) := by
    show crlfLines (toText (P.titleLines.map Piece.title ++ _)) = _
    rw [toText_append, crlfLines_titles _ _ htitles, toText_cons]
    rfl
  intro hmem
  rw [hcut] at hmem
  rcases List.mem_append.mp hmem with htitle | hmem
  · -- a copied tag is of another kind
    have hkind := (P.titleLines_mem htitle).2
    rw [lineKind_numberedTag] at hkind
    exact absurd hkind (by decide)
  · rcases P.lines_absent hq habs _ hmem with hbare | hdot | ⟨g, hg, hext⟩
    · exact valueOf_ne_nil n (List.append_right_eq_self.mp hbare)
    · exact dot_not_mem_numberedTag n hdot
    · have hfirst : orNull g.extInfo ∈ entryLines query g := List.mem_cons_self
      exact P.entryLines_ne_numberedTag hg hfirst n hext.symm

/-- And a follow-up without that segment does not have its one number. -/
theorem TextPlaylist.not_one_number_absent (P : TextPlaylist) {query : Option JString}
    (hq : ∀ q, query = some q → Unbroken q) {s : SessionDef}
    (habs : ∀ g ∈ P.segments, g.time ≠ s.lastTime) :
    ¬ ∃! i : Nat, ∃ n : Int, (crlfLines (toText (P.titles
        ++ .mediaSequence :: sessionOut query s P.segments)))[i]? = some (numberedTag n) := by
  rintro ⟨i, ⟨n, hn⟩, _⟩
  exact P.no_number_absent hq habs n (List.mem_of_getElem? hn)

/-- **Follow-up playlists are well formed exactly when the segment at `last_time` is
still in the playlist**; without it there is not even the one numbered tag. -/
theorem follow_up_well_formed_iff (P : TextPlaylist) (s : SessionDef) (query : Option JString)
    (hq : ∀ q, query = some q → Unbroken q) :
    ((∃ sb, (m3u8PlayseekFilterSession s query P.file).result = .ok sb
        ∧ WellFormed P.toPlaylist query (toText sb))
      ↔ ∃ g ∈ P.segments, g.time = s.lastTime)
    ∧ ∀ sb, (m3u8PlayseekFilterSession s query P.file).result = .ok sb →
        (∃! i : Nat, ∃ n : Int, (crlfLines (toText sb))[i]? = some (numberedTag n)) →
        ∃ g ∈ P.segments, g.time = s.lastTime := by
  have hnumber : ∀ sb, (m3u8PlayseekFilterSession s query P.file).result = .ok sb →
      (∃! i : Nat, ∃ n : Int, (crlfLines (toText sb))[i]? = some (numberedTag n)) →
      ∃ g ∈ P.segments, g.time = s.lastTime := by
    intro sb hsb hone
    by_contra habs
    rw [P.session_run] at hsb
    obtain rfl := Except.ok.inj hsb
    exact P.not_one_number_absent hq (fun g hg ht => habs ⟨g, hg, ht⟩) hone
  refine ⟨⟨?_, ?_⟩, hnumber⟩
  · rintro ⟨sb, hsb, hwell⟩
    exact hnumber sb hsb hwell.one_number
  · intro hpresent
    obtain ⟨n, hn⟩ := P.session_content s query hpresent
    have hsub : ((newer s.lastTime P.segments).take 3).Sublist P.segments :=
      (List.take_sublist 3 _).trans List.filter_sublist
    exact ⟨_, hn, P.wellFormed_content n hq (List.length_take_le 3 _) hsub⟩

/-- A text with these lines. -/
def lfText (lines : List JString) : JString := lines.flatMap (· ++ ['\n'])

/-- The live playlist as a text. -/
def TextPlaylist.live (times : List Int) (h : LiveTimes times)
    (hread : readLines (lfText (liveHeader ++ liveTag :: liveBody times))
      = liveHeader ++ liveTag :: liveBody times) : TextPlaylist where
  toPlaylist := Playlist.live times h
  text := lfText (liveHeader ++ liveTag :: liveBody times)
  delivered := hread.symm

def textFirst : TextPlaylist := TextPlaylist.live _ liveTimes_first (by decide +kernel)

def textDropped : TextPlaylist := TextPlaylist.live _ liveTimes_dropped (by decide +kernel)

theorem unbroken_shortQuery : ∀ q, some "a=1".toList = some q → Unbroken q := by
  rintro q ⟨⟩
  exact ⟨by decide, by decide⟩

theorem follow_up_well_formed_first :
    ∃ sb, (m3u8PlayseekFilterSession (firstSession 0) (some "a=1".toList) textFirst.file).result
        = .ok sb
      ∧ WellFormed textFirst.toPlaylist (some "a=1".toList) (toText sb) :=
  (follow_up_well_formed_iff textFirst (firstSession 0) (some "a=1".toList)
    unbroken_shortQuery).1.mpr ⟨liveSegment 1508153086, List.mem_cons_self, rfl⟩

/-- Once the segment at `last_time` has left the playlist, the response is none a
player can read: it has no numbered tag. -/
theorem follow_up_not_well_formed_dropped :
    ∃ sb, (m3u8PlayseekFilterSession (firstSession 0) (some "a=1".toList) textDropped.file).result
        = .ok sb
      ∧ ¬ ∃! i : Nat, ∃ n : Int, (crlfLines (toText sb))[i]? = some (numberedTag n) := by
  refine ⟨_, congrArg FilterRun.result
    (textDropped.session_run (firstSession 0) (some "a=1".toList)), ?_⟩
  apply textDropped.not_one_number_absent unbroken_shortQuery
  decide

end NginxNettyHls.M3u8Filter
