/-
  NginxNettyHls.M3u8Filter.TagOrder
  ─────────────────────────────────
  **FIRST RESPONSES FOR EVERY ORDER OF THE HEADER TAGS.**

  `m3u8_playseek_filter` ends a copied tag with CRLF, but not the media-sequence
  tag, for which it counts on the CRLF of the first entry.  So a tag that comes
  after it is glued to its number.

    • `seekFilter_out` — which of the selected segments are shown, for any lines:
      those met while `index < 3`, an `int` that wraps around after `2 ^ 31` of
      them;
    • `Headed.run` — the pieces of the response, with the tags in file order;
    • `first_well_formed_iff` — the response is the header with the number 0 and
      the lines of at most three segments, exactly when the media-sequence tag is
      the last one and neither the query nor the counter gets in the way.
-/
import NginxNettyHls.M3u8Filter.WellFormed

namespace NginxNettyHls.M3u8Filter

open NginxNettyHls.Java
open Text

/-! ## §1. What a first response shows of any list of segments. -/

/-- The segments met with `index < 3`, the first of them at index `n` in 32 bits. -/
def shown : Nat → List Segment → List Segment
  | _, [] => []
  | n, g :: gs => (if toInt32 n < 3 then [g] else []) ++ shown (n + 1) gs

/-- Below 3 the index is exact. -/
theorem shown_cons_of_lt {n : Nat} (hn : n < 3) (g : Segment) (gs : List Segment) :
    shown n (g :: gs) = g :: shown (n + 1) gs := by
  have hrange : toInt32 n = n := toInt32_of_range (by omega) (by omega)
  rw [shown, hrange, if_pos (by omega)]
  rfl

/-- The branch of `m3u8_playseek_filter` at the `n`-th segment that passes. -/
theorem seekSegment_passes (timestamp : JString) (query : Option JString) {a : Int} (n : Nat)
    {g : Segment} (hpass : 0 < toInt32 (g.time - a)) :
    (seekSegment timestamp query a (toInt32 n) g).vars = toInt32 ((n + 1 : Nat) : Int)
      ∧ (seekSegment timestamp query a (toInt32 n) g).out
          = entries query (if toInt32 n < 3 then [g] else []) := by
  unfold seekSegment
  rw [if_pos hpass]
  dsimp only
  refine ⟨?_, ?_⟩
  · rw [toInt32_toInt32_add, Nat.cast_succ]
  · by_cases h3 : toInt32 n < 3
    · rw [if_pos h3, if_pos h3]
      rfl
    · rw [if_neg h3, if_neg h3]
      rfl

theorem seekFilter_out (timestamp : JString) (query : Option JString) (a : Int) :
    ∀ (gs : List Segment) (n : Nat),
      ((seekFilter timestamp query a).over (toInt32 n) gs).out
        = entries query (shown n (selected a gs)) := by
  intro gs
  induction gs with
  | nil => intro n; rfl
  | cons g gs ih =>
      intro n
      show (seekSegment timestamp query a (toInt32 n) g).out
        ++ ((seekFilter timestamp query a).over
            (seekSegment timestamp query a (toInt32 n) g).vars gs).out = _
      by_cases hpass : 0 < toInt32 (g.time - a)
      · obtain ⟨hvars, hout⟩ := seekSegment_passes timestamp query n hpass
        rw [hvars, hout, ih (n + 1), selected_cons_of_pass hpass, shown]
        exact List.map_append.symm
      · rw [seekSegment_of_fail timestamp query _ hpass, selected_cons_of_fail hpass]
        dsimp only
        rw [List.nil_append, ih n]

theorem shown_sublist : ∀ (gs : List Segment) (n : Nat), (shown n gs).Sublist gs := by
  intro gs
  induction gs with
  | nil => intro n; exact List.Sublist.slnil
  | cons g gs ih =>
      intro n
      unfold shown
      split_ifs with h
      · exact (ih (n + 1)).cons_cons g
      · exact (ih (n + 1)).cons g

/-- Before the index wraps around, those are the first three. -/
theorem shown_eq_take :
    ∀ (gs : List Segment) (n : Nat), n + gs.length ≤ 2 ^ 31 → shown n gs = gs.take (3 - n) := by
  intro gs
  induction gs with
  | nil => intro n _; simp [shown]
  | cons g gs ih =>
      intro n hn
      rw [List.length_cons] at hn
      have hrest := ih (n + 1) (by omega)
      by_cases h3 : n < 3
      · rw [shown_cons_of_lt h3, hrest, show 3 - n = (3 - (n + 1)) + 1 by omega]
        rfl
      · have hrange : toInt32 n = n := toInt32_of_range (by omega) (by omega)
        unfold shown
        rw [hrest, hrange, if_neg (by omega), show 3 - n = 0 by omega,
          show 3 - (n + 1) = 0 by omega]
        rfl

/-- At `2 ^ 31` the index is negative, so one more segment is shown. -/
theorem shown_after_wrap :
    ∀ (gs : List Segment) (n : Nat), n ≤ 2 ^ 31 → 2 ^ 31 < n + gs.length →
      0 < (shown n gs).length := by
  intro gs
  induction gs with
  | nil =>
      intro n hn hlen
      simp only [List.length_nil, Nat.add_zero] at hlen
      omega
  | cons g gs ih =>
      intro n hn hlen
      rw [List.length_cons] at hlen
      unfold shown
      rw [List.length_append]
      by_cases hwrap : n = 2 ^ 31
      · rw [hwrap, if_pos (by decide)]
        simp
      · have hrest := ih (n + 1) (by omega) (by omega)
        omega

/-- **At most three are shown exactly when the index does not wrap around.** -/
theorem length_shown_le_iff (gs : List Segment) :
    (shown 0 gs).length ≤ 3 ↔ gs.length ≤ 2 ^ 31 := by
  constructor
  · intro h
    by_contra hlen
    -- the first three, and the one met at `2 ^ 31`
    match gs, hlen, h with
    | g₀ :: g₁ :: g₂ :: rest, hlen, h =>
        simp only [List.length_cons] at hlen
        have hrest := shown_after_wrap rest 3 (by omega) (by omega)
        have hthree : shown 0 (g₀ :: g₁ :: g₂ :: rest) = g₀ :: g₁ :: g₂ :: shown 3 rest := by
          rw [shown_cons_of_lt (by omega), shown_cons_of_lt (by omega),
            shown_cons_of_lt (by omega)]
        have hlength := congrArg List.length hthree
        rw [List.length_cons, List.length_cons, List.length_cons] at hlength
        omega
    | [], hlen, _ => simp at hlen
    | [_], hlen, _ => simp at hlen
    | [_, _], hlen, _ => simp at hlen
  · intro h
    rw [shown_eq_take gs 0 (by omega)]
    exact List.length_take_le 3 gs

/-! ## §2. Playlists with their tags in any order. -/

/-- A line both filters write something for before the first segment. -/
def isTag (s : JString) : Bool := lineKind s = .title || lineKind s = .mediaSequence

/-- The segment lines, each with the EXTINF line of its own that stands before it;
`none` when one has none. -/
def ownPairs : Option JString → List JString → Option (List (JString × JString))
  | _, [] => some []
  | own, s :: rest =>
      match lineKind s with
      | .extinf => ownPairs (some s) rest
      | .segment =>
          match own with
          | some ei => (ownPairs none rest).map ((ei, s) :: ·)
          | none => none
      | _ => ownPairs own rest

/-- A playlist text whose header has each of the four tags once, `#EXTM3U` on the first
line and the others in any order before the first segment; every segment has an EXTINF
line. -/
structure Headed where
  text : JString
  m3u : JString
  version : JString
  target : JString
  tag : JString
  head : List JString
  body : List JString
  pairs : List (JString × JString)
  lines_eq : readLines text = m3u :: (head ++ body)
  m3u_tag : lineKind m3u = .title ∧ contains m3u "#EXTM3U".toList
  version_tag : lineKind version = .title ∧ contains version "#EXT-X-VERSION".toList
  target_tag : lineKind target = .title ∧ contains target "#EXT-X-TARGETDURATION".toList
  tag_kind : lineKind tag = .mediaSequence
  tags : (head.filter isTag).Perm [version, target, tag]
  head_kinds : ∀ s ∈ head, lineKind s ≠ .segment
  body_kinds : ∀ s ∈ body, lineKind s ≠ .title ∧ lineKind s ≠ .mediaSequence
  own : ownPairs none (readLines text) = some pairs

/-- With an EXTINF line each, these are the segments the filters read. -/
theorem ownPairs_eq :
    ∀ (lines : List JString) (own ei : Option JString) (gs : List Segment)
      (pairs : List (JString × JString)), tsSegments ei lines = (gs, none) →
      ownPairs own lines = some pairs → (own = none ∨ own = ei) →
      pairs = gs.map (fun g => (orNull g.extInfo, g.line)) := by
  intro lines
  induction lines with
  | nil =>
      intro own ei gs pairs hts hown _
      simp only [tsSegments, Prod.mk.injEq] at hts
      simp only [ownPairs, Option.some.injEq] at hown
      rw [← hts.1, ← hown]
      rfl
  | cons s rest ih =>
      intro own ei gs pairs hts hown hor
      simp only [tsSegments] at hts
      simp only [ownPairs] at hown
      cases hk : lineKind s with
      | extinf =>
          simp only [hk] at hts hown
          exact ih (some s) (some s) gs pairs hts hown (Or.inr rfl)
      | segment =>
          simp only [hk] at hts hown
          cases own with
          | none => simp at hown
          | some o =>
              obtain rfl : ei = some o := (hor.resolve_left (by simp)).symm
              cases ht : getTsTime s with
              | error e => simp [ht] at hts
              | ok t =>
                  simp only [ht, Prod.mk.injEq] at hts
                  simp only [Option.map_eq_some_iff] at hown
                  obtain ⟨rest', hrest, rfl⟩ := hown
                  rw [← hts.1, ih none (some o) _ rest' (Prod.ext rfl hts.2) hrest (Or.inl rfl)]
                  rfl
      | title | mediaSequence | other =>
          simp only [hk] at hts hown
          exact ih own ei gs pairs hts hown hor

/-- Lines that are no tags add nothing. -/
theorem tagPieces_filter {σ : Type} (F : Filter σ) :
    ∀ (ls : List JString), (∀ s ∈ ls, lineKind s ≠ .segment) →
      ls.flatMap F.tagPieces = (ls.filter isTag).flatMap F.tagPieces := by
  intro ls
  induction ls with
  | nil => intro _; rfl
  | cons s ls ih =>
      intro h
      have hrest := ih (fun s' hs' => h s' (List.mem_cons_of_mem s hs'))
      rw [List.flatMap_cons, hrest]
      by_cases ht : isTag s
      · rw [List.filter_cons_of_pos ht, List.flatMap_cons]
      · have hnil : F.tagPieces s = [] := by
          unfold isTag at ht
          unfold Filter.tagPieces
          cases hk : lineKind s with
          | title | mediaSequence => simp [hk] at ht
          | extinf | segment | other => rfl
        rw [List.filter_cons_of_neg ht, hnil, List.nil_append]

theorem tagPieces_map_title {σ : Type} (F : Filter σ) :
    ∀ (ts : List JString), (∀ t ∈ ts, lineKind t = .title) →
      ts.flatMap F.tagPieces = ts.map Piece.title := by
  intro ts
  induction ts with
  | nil => intro _; rfl
  | cons t ts ih =>
      intro h
      rw [List.flatMap_cons, ih (fun t' ht' => h t' (List.mem_cons_of_mem t ht'))]
      simp only [Filter.tagPieces, h t List.mem_cons_self]
      rfl

namespace Headed

/-- The file, read without an error. -/
def file (H : Headed) : FileRead := .opened (readLines H.text) .eof

/-- The segments up to the first one whose time cannot be read. -/
def segments (H : Headed) : List Segment := (tsSegments none (readLines H.text)).1

/-- The header lines in file order, with the number 0. -/
def header (H : Headed) : List JString :=
  H.m3u :: (H.head.filter isTag).map
    (fun s => if lineKind s = .mediaSequence then numberedTag 0 else s)

/-- The media-sequence line comes after the other tags. -/
def TagLast (H : Headed) : Prop := (H.head.filter isTag).getLast? = some H.tag

instance (H : Headed) : Decidable H.TagLast := inferInstanceAs (Decidable (_ = _))

/-- The tags before and after the media-sequence line. -/
theorem exists_split (H : Headed) :
    ∃ l₁ l₂, H.head.filter isTag = l₁ ++ H.tag :: l₂
      ∧ (∀ t ∈ l₁, lineKind t = .title) ∧ (∀ t ∈ l₂, lineKind t = .title)
      ∧ (H.TagLast ↔ l₂ = []) := by
  have hmem : H.tag ∈ H.head.filter isTag := H.tags.mem_iff.mpr (by simp)
  obtain ⟨l₁, l₂, hsplit⟩ := List.append_of_mem hmem
  -- taking the tag out on both sides leaves the two copied tags
  have hperm : (l₁ ++ l₂).Perm [H.version, H.target] := by
    have h := H.tags
    rw [hsplit] at h
    have hlast : ([H.version, H.target] ++ [H.tag]).Perm ([H.tag] ++ [H.version, H.target]) :=
      List.perm_append_comm
    have h' : (H.tag :: (l₁ ++ l₂)).Perm (H.tag :: [H.version, H.target]) :=
      List.perm_middle.symm.trans (h.trans hlast)
    exact h'.cons_inv
  have hkind : ∀ t ∈ l₁ ++ l₂, lineKind t = .title := by
    intro t ht
    have h := hperm.mem_iff.mp ht
    simp only [List.mem_cons, List.not_mem_nil, or_false] at h
    rcases h with rfl | rfl
    · exact H.version_tag.1
    · exact H.target_tag.1
  refine ⟨l₁, l₂, hsplit, fun t ht => hkind t (List.mem_append_left _ ht),
    fun t ht => hkind t (List.mem_append_right _ ht), ?_⟩
  unfold TagLast
  rw [hsplit]
  constructor
  · intro hlast
    by_contra hne
    -- the last one would be a copied tag
    have htag : H.tag ∈ l₂ := by
      rw [List.getLast?_append, List.getLast?_cons,
        List.getLast?_eq_some_getLast hne] at hlast
      simp only [Option.getD_some, Option.some_or, Option.some.injEq] at hlast
      rw [← hlast]
      exact List.getLast_mem hne
    have h := hkind H.tag (List.mem_append_right _ htag)
    rw [H.tag_kind] at h
    exact absurd h (by decide)
  · rintro rfl
    simp

/-- **The pieces of the first response**: the tags in file order, then what is shown. -/
theorem result (H : Headed) (timestamp : JString) (query : Option JString) (a : Int)
    (hread : (tsSegments none (readLines H.text)).2 = none) {l₁ l₂ : List JString}
    (hsplit : H.head.filter isTag = l₁ ++ H.tag :: l₂)
    (h₁ : ∀ t ∈ l₁, lineKind t = .title) (h₂ : ∀ t ∈ l₂, lineKind t = .title) :
    (m3u8PlayseekFilter timestamp query a H.file).result
      = .ok ((H.m3u :: l₁).map Piece.title ++ .mediaSequence :: .number 0
          :: (l₂.map Piece.title ++ entries query (shown 0 (selected a H.segments)))) := by
  let F := seekFilter timestamp query a
  have hlines : readLines H.text = (H.m3u :: H.head) ++ H.body := H.lines_eq
  have hkinds : ∀ s ∈ H.m3u :: H.head, lineKind s ≠ .segment := by
    intro s hs
    rcases List.mem_cons.mp hs with rfl | hs
    · rw [H.m3u_tag.1]
      decide
    · exact H.head_kinds s hs
  -- the header
  have htags : (H.m3u :: H.head).flatMap F.tagPieces
      = (H.m3u :: l₁).map Piece.title ++ .mediaSequence :: .number 0 :: l₂.map Piece.title := by
    have htag : F.tagPieces H.tag = [.mediaSequence, .number 0] := by
      simp only [Filter.tagPieces, H.tag_kind]
      rfl
    have hm3u : F.tagPieces H.m3u = [.title H.m3u] := by
      simp only [Filter.tagPieces, H.m3u_tag.1]
    rw [List.flatMap_cons, tagPieces_filter F H.head H.head_kinds, hsplit, List.flatMap_append,
      List.flatMap_cons, tagPieces_map_title F l₁ h₁, tagPieces_map_title F l₂ h₂, htag, hm3u]
    rfl
  have hreads : tsSegments none ((H.m3u :: H.head) ++ H.body) = (H.segments, none) := by
    rw [← hlines]
    exact Prod.ext rfl hread
  obtain ⟨ei, hrun⟩ := F.loop_split rfl (0 : Int) hkinds H.body_kinds hreads
  have hout : (F.over (0 : Int) H.segments).out
      = entries query (shown 0 (selected a H.segments)) :=
    seekFilter_out timestamp query a H.segments 0
  simp only [m3u8PlayseekFilter, file]
  rw [hlines, hrun, hout, htags]
  simp only [Except.map, ReadEnd.raise, List.append_assoc, List.cons_append]

/-- Without a readable time there is no response. -/
theorem result_error (H : Headed) (timestamp : JString) (query : Option JString) (a : Int)
    {e : Exn} (hread : (tsSegments none (readLines H.text)).2 = some e) :
    (m3u8PlayseekFilter timestamp query a H.file).result = .error e := by
  have herr := ((seekFilter timestamp query a).loop_error (readLines H.text)
    ⟨none, (0 : Int), []⟩ e).mpr hread
  simp only [m3u8PlayseekFilter, file, herr]
  rfl

theorem unbroken (H : Headed) : ∀ l ∈ readLines H.text, Unbroken l :=
  fun _ hl => unbroken_of_mem_readLines hl

theorem segments_mem (H : Headed) {g : Segment} (hg : g ∈ H.segments) :
    (g.line ∈ readLines H.text ∧ lineKind g.line = .segment)
      ∧ ∀ e, g.extInfo = some e → e ∈ readLines H.text ∧ lineKind e = .extinf := by
  obtain ⟨⟨hline, hkind, _⟩, hei⟩ := tsSegments_mem (readLines H.text) none g hg
  exact ⟨⟨hline, hkind⟩, fun e he => (hei e he).resolve_right (by simp)⟩

/-- The tags are lines of the file. -/
theorem tag_mem (H : Headed) {l₁ l₂ : List JString}
    (hsplit : H.head.filter isTag = l₁ ++ H.tag :: l₂) {t : JString}
    (ht : t ∈ H.m3u :: l₁ ∨ t ∈ l₂) : t ∈ readLines H.text := by
  have hhead : ∀ t ∈ l₁ ++ H.tag :: l₂, t ∈ readLines H.text := by
    intro t ht
    rw [← hsplit] at ht
    rw [H.lines_eq]
    exact List.mem_cons_of_mem _ (List.mem_append_left _ (List.mem_filter.mp ht).1)
  rcases ht with ht | ht
  · rcases List.mem_cons.mp ht with rfl | ht
    · rw [H.lines_eq]
      exact List.mem_cons_self
    · exact hhead t (List.mem_append_left _ ht)
  · exact hhead t (List.mem_append_right _ (List.mem_cons_of_mem _ ht))

/-- The header around the media-sequence line. -/
theorem header_eq (H : Headed) {l₁ l₂ : List JString}
    (hsplit : H.head.filter isTag = l₁ ++ H.tag :: l₂)
    (h₁ : ∀ t ∈ l₁, lineKind t = .title) (h₂ : ∀ t ∈ l₂, lineKind t = .title) :
    H.header = (H.m3u :: l₁) ++ numberedTag 0 :: l₂ := by
  have hcopy : ∀ l : List JString, (∀ t ∈ l, lineKind t = .title) →
      l.map (fun s => if lineKind s = .mediaSequence then numberedTag 0 else s) = l := by
    intro l hl
    conv_rhs => rw [← List.map_id l]
    apply List.map_congr_left
    intro t ht
    rw [hl t ht]
    rfl
  unfold header
  rw [hsplit, List.map_append, List.map_cons, hcopy l₁ h₁, hcopy l₂ h₂, if_pos H.tag_kind]
  rfl

/-- No line of the header is empty. -/
theorem header_ne_nil (H : Headed) {l₁ : List JString} (h₁ : ∀ t ∈ l₁, lineKind t = .title) :
    ∀ t ∈ H.m3u :: l₁, t ≠ [] := by
  intro t ht
  have hkind : lineKind t = .title := by
    rcases List.mem_cons.mp ht with rfl | ht
    · exact H.m3u_tag.1
    · exact h₁ t ht
  rintro rfl
  exact absurd hkind (by decide +kernel)

/-- No line of an entry is empty. -/
theorem entryLines_ne_nil (H : Headed) (query : Option JString) {g : Segment}
    (hg : g ∈ H.segments) : ∀ l ∈ entryLines query g, l ≠ [] := by
  obtain ⟨⟨_, hkind⟩, hei⟩ := H.segments_mem hg
  intro l hl
  simp only [entryLines, List.mem_cons, List.not_mem_nil, or_false] at hl
  rcases hl with rfl | rfl
  · cases he : g.extInfo with
    | none => exact (by decide : orNull none ≠ [])
    | some e =>
        rintro heq
        have h := (hei e he).2
        rw [show e = [] from heq] at h
        exact absurd h (by decide +kernel)
  · have hdot := dot_mem_of_segment hkind
    exact List.ne_nil_of_mem (List.mem_append_left _ hdot)

/-- What is shown as pairs of lines of the file. -/
theorem pairs_eq (H : Headed) (hread : (tsSegments none (readLines H.text)).2 = none) :
    H.pairs = H.segments.map (fun g => (orNull g.extInfo, g.line)) :=
  ownPairs_eq (readLines H.text) none none H.segments H.pairs (Prod.ext rfl hread) H.own
    (Or.inl rfl)

end Headed

/-- A first response a player can read: the header lines in file order with the number
0, then the lines of at most three segments of the file; empty lines do not count. -/
def FirstWellFormed (H : Headed) (query : Option JString) (text : JString) : Prop :=
  ∃ ps : List (JString × JString), ps.Sublist H.pairs ∧ ps.length ≤ 3
    ∧ (crlfLines text).filter (fun l => l ≠ [])
        = H.header ++ ps.flatMap (fun p => [p.1, withQuery query p.2])

namespace Headed

variable {H : Headed} {query : Option JString} {l₁ l₂ : List JString}

/-- **A tag after the media-sequence line is glued to it.** -/
theorem not_wellFormed_of_tag_after (hsplit : H.head.filter isTag = l₁ ++ H.tag :: l₂)
    (h₁ : ∀ t ∈ l₁, lineKind t = .title) (h₂ : ∀ t ∈ l₂, lineKind t = .title) (hne : l₂ ≠ [])
    (ps : List Piece) :
    ¬ FirstWellFormed H query (toText ((H.m3u :: l₁).map Piece.title ++ .mediaSequence
        :: .number 0 :: (l₂.map Piece.title ++ ps))) := by
  rintro ⟨pairs, _, _, hlines⟩
  cases l₂ with
  | nil => exact absurd rfl hne
  | cons t l₂ =>
      have htitles : ∀ t ∈ H.m3u :: l₁, NoCRLF t := fun t ht =>
        noCRLF_of_unbroken (H.unbroken t (H.tag_mem hsplit (Or.inl ht)))
      have hglued : NoCRLF (numberedTag 0 ++ t) :=
        noCRLF_of_unbroken (unbroken_append.mpr
          ⟨unbroken_numberedTag 0, H.unbroken t (H.tag_mem hsplit (Or.inr List.mem_cons_self))⟩)
      have htext : toText (.mediaSequence :: .number 0 :: ((t :: l₂).map Piece.title ++ ps))
          = (numberedTag 0 ++ t) ++ '\r' :: '\n' :: toText (l₂.map Piece.title ++ ps) := by
        rw [toText_cons, toText_cons, List.map_cons, List.cons_append, toText_cons, text_title]
        show mediaSequenceTag ++ (valueOf 0 ++ _) = _
        simp only [numberedTag, List.append_assoc, List.cons_append, List.nil_append]
      rw [toText_append, crlfLines_titles _ _ htitles, htext] at hlines
      unfold crlfLines at hlines
      rw [splitPair_append (by decide) _ _ hglued, List.filter_append,
        List.filter_eq_self.mpr (by simpa using H.header_ne_nil h₁),
        List.filter_cons_of_pos (by simp [numberedTag_eq]), H.header_eq hsplit h₁ h₂,
        List.append_assoc] at hlines
      -- where the header has the tag alone, the text has more
      have heq := (List.cons.inj (List.append_cancel_left hlines)).1
      have hnil : t = [] := List.append_right_eq_self.mp heq
      have hkind := h₂ t List.mem_cons_self
      rw [hnil] at hkind
      exact absurd hkind (by decide +kernel)

/-- With the media-sequence line last and no CRLF in the query, the lines are those of
what is shown. -/
theorem lines_of_last (hsplit : H.head.filter isTag = l₁ ++ [H.tag])
    (h₁ : ∀ t ∈ l₁, lineKind t = .title) {gs : List Segment} (hgs : gs.Sublist H.segments)
    (hq : gs = [] ∨ ∀ q, query = some q → NoCRLF q) :
    (crlfLines (toText (content (H.m3u :: l₁) 0 query gs))).filter (fun l => l ≠ [])
      = H.header ++ gs.flatMap (entryLines query) := by
  have htitles : ∀ t ∈ H.m3u :: l₁, NoCRLF t := fun t ht =>
    noCRLF_of_unbroken (H.unbroken t (H.tag_mem hsplit (Or.inl ht)))
  have hentries : ∀ g ∈ gs, NoCRLF (orNull g.extInfo) ∧ NoCRLF (withQuery query g.line) := by
    intro g hg
    obtain ⟨⟨hline, _⟩, hei⟩ := H.segments_mem (hgs.subset hg)
    refine ⟨noCRLF_of_unbroken (unbroken_extInfo H.unbroken (fun e he => (hei e he).1)), ?_⟩
    have hclean := hq.resolve_left (List.ne_nil_of_mem hg)
    unfold NoCRLF withQuery
    rw [hasPair_append_iff (H.unbroken _ hline).1]
    cases query with
    | none => exact not_hasPair_of_not_mem (by simp)
    | some q =>
        rw [hasPair_cons_iff (by decide)]
        exact hclean q rfl
  rw [crlfLines_content 0 htitles hentries (noCRLF_of_unbroken (unbroken_numberedTag 0)),
    H.header_eq hsplit h₁ (by simp), List.append_assoc]
  apply List.filter_eq_self.mpr
  intro l hl
  rw [decide_eq_true_eq]
  simp only [List.mem_append, List.mem_cons] at hl
  rcases hl with hl | hl | hl
  · exact H.header_ne_nil h₁ l (by simpa using hl)
  · rw [hl, numberedTag_eq]
    simp
  · obtain ⟨g, hg, hlg⟩ := List.mem_flatMap.mp hl
    exact H.entryLines_ne_nil query (hgs.subset hg) l hlg

/-- A CRLF in the query breaks the line of the first segment shown. -/
theorem not_wellFormed_of_broken_query (hsplit : H.head.filter isTag = l₁ ++ [H.tag])
    (h₁ : ∀ t ∈ l₁, lineKind t = .title) {g : Segment} (hg : g ∈ H.segments)
    (gs : List Segment) {q : JString} (hq : HasPair '\r' '\n' q) :
    ¬ FirstWellFormed H (some q) (toText (content (H.m3u :: l₁) 0 (some q) (g :: gs))) := by
  rintro ⟨ps, _, _, hlines⟩
  obtain ⟨⟨hline, _⟩, hei⟩ := H.segments_mem hg
  have htitles : ∀ t ∈ H.m3u :: l₁, NoCRLF t := fun t ht =>
    noCRLF_of_unbroken (H.unbroken t (H.tag_mem hsplit (Or.inl ht)))
  cases ps with
  | nil =>
      -- nothing would be shown, but the EXTINF line is there
      have hext : NoCRLF (orNull g.extInfo) :=
        noCRLF_of_unbroken (unbroken_extInfo H.unbroken (fun e he => (hei e he).1))
      have htext : toText (.mediaSequence :: .number 0 :: entries (some q) (g :: gs))
          = numberedTag 0 ++ '\r' :: '\n' :: (orNull g.extInfo ++ '\r' :: '\n'
            :: (withQuery (some q) g.line ++ toText (entries (some q) gs))) := by
        rw [toText_cons, toText_cons, show entries (some q) (g :: gs)
          = .entry g (some q) :: entries (some q) gs from rfl, toText_cons, text_entry]
        show mediaSequenceTag ++ (valueOf 0 ++ _) = _
        simp only [numberedTag, List.append_assoc, List.cons_append]
      have hnumber : NoCRLF (numberedTag 0) := noCRLF_of_unbroken (unbroken_numberedTag 0)
      have hne := H.entryLines_ne_nil (some q) hg (orNull g.extInfo) List.mem_cons_self
      unfold content at hlines
      rw [toText_append, crlfLines_titles _ _ htitles, htext] at hlines
      unfold crlfLines at hlines
      rw [splitPair_append (by decide) _ _ hnumber, splitPair_append (by decide) _ _ hext,
        List.filter_append, List.filter_eq_self.mpr (by simpa using H.header_ne_nil h₁),
        List.filter_cons_of_pos (by simp [numberedTag_eq]),
        List.filter_cons_of_pos (by simpa using hne), H.header_eq hsplit h₁ (by simp),
        List.flatMap_nil, List.append_nil] at hlines
      have heq := (List.cons.inj (List.append_cancel_left hlines)).2
      exact absurd heq (by simp)
  | cons p ps =>
      have hmem : withQuery (some q) p.2 ∈ crlfLines (toText (content (H.m3u :: l₁) 0 (some q)
          (g :: gs))) := by
        apply List.mem_of_mem_filter (p := fun l => l ≠ [])
        rw [hlines]
        simp
      refine not_pair_of_mem_splitPair _ _ hmem ?_
      obtain ⟨x, y, hxy⟩ := hq
      exact ⟨p.2 ++ '?' :: x, y, by simp [withQuery, ← hxy]⟩

end Headed

theorem length_flatMap_two {β : Type} (f : β → List JString) (hf : ∀ x, (f x).length = 2) :
    ∀ (l : List β), (l.flatMap f).length = 2 * l.length := by
  intro l
  induction l with
  | nil => rfl
  | cons x l ih =>
      rw [List.flatMap_cons, List.length_append, hf, ih, List.length_cons]
      omega

/-- **First responses are well formed exactly when the media-sequence line is the last
tag**, nothing being shown or the query having no CRLF and the counter no overflow.  A
response is produced exactly when every segment time can be read. -/
theorem first_well_formed_iff (H : Headed) (timestamp : JString) (query : Option JString)
    (a : Int) :
    ((∃ sb, (m3u8PlayseekFilter timestamp query a H.file).result = .ok sb)
        ↔ (tsSegments none (readLines H.text)).2 = none)
      ∧ ∀ sb, (m3u8PlayseekFilter timestamp query a H.file).result = .ok sb →
          (FirstWellFormed H query (toText sb)
            ↔ H.TagLast ∧ (selected a H.segments = []
                ∨ (∀ q, query = some q → NoCRLF q)
                  ∧ (selected a H.segments).length ≤ 2 ^ 31)) := by
  obtain ⟨l₁, l₂, hsplit, h₁, h₂, hlast⟩ := H.exists_split
  cases hread : (tsSegments none (readLines H.text)).2 with
  | some e =>
      have herr := H.result_error timestamp query a hread
      rw [herr]
      exact ⟨by simp, by simp⟩
  | none =>
      have hok := H.result timestamp query a hread hsplit h₁ h₂
      rw [hok]
      refine ⟨by simp, ?_⟩
      rintro sb ⟨⟩
      rw [hlast]
      by_cases hl₂ : l₂ = []
      · subst hl₂
        have hsub : (shown 0 (selected a H.segments)).Sublist H.segments :=
          (shown_sublist _ 0).trans List.filter_sublist
        rw [and_iff_right rfl]
        show FirstWellFormed H query (toText (content (H.m3u :: l₁) 0 query
          (shown 0 (selected a H.segments)))) ↔ _
        constructor
        · intro hwell
          by_cases hsel : selected a H.segments = []
          · exact Or.inl hsel
          · right
            obtain ⟨g, rest, hcons⟩ := List.exists_cons_of_ne_nil hsel
            have hshown : shown 0 (selected a H.segments) = g :: shown 1 rest := by
              rw [hcons, shown_cons_of_lt (by omega)]
            have hclean : ∀ q, query = some q → NoCRLF q := by
              rintro q rfl hpair
              rw [hshown] at hwell hsub
              exact Headed.not_wellFormed_of_broken_query hsplit h₁
                (hsub.subset List.mem_cons_self) _ hpair hwell
            refine ⟨hclean, ?_⟩
            -- two lines for each segment shown, and at most six of them
            obtain ⟨ps, _, hps, hlines⟩ := hwell
            rw [Headed.lines_of_last hsplit h₁ hsub (Or.inr hclean)] at hlines
            have hlen := congrArg List.length (List.append_cancel_left hlines)
            rw [length_flatMap_two _ (fun _ => rfl), length_flatMap_two _ (fun _ => rfl)] at hlen
            exact (length_shown_le_iff _).mp (by omega)
        · intro hcond
          have hcond' : shown 0 (selected a H.segments) = []
              ∨ ∀ q, query = some q → NoCRLF q := by
            rcases hcond with hsel | ⟨hclean, _⟩
            · left
              rw [hsel]
              rfl
            · exact Or.inr hclean
          refine ⟨(shown 0 (selected a H.segments)).map (fun g => (orNull g.extInfo, g.line)),
            ?_, ?_, ?_⟩
          · rw [H.pairs_eq hread]
            exact hsub.map _
          · rw [List.length_map, length_shown_le_iff]
            rcases hcond with hsel | ⟨_, hlen⟩
            · rw [hsel]
              simp
            · exact hlen
          · rw [Headed.lines_of_last hsplit h₁ hsub hcond', List.flatMap_map]
            rfl
      · constructor
        · intro hwell
          exact absurd hwell (Headed.not_wellFormed_of_tag_after hsplit h₁ h₂ hl₂ _)
        · intro h
          exact absurd h.1 hl₂

/-- A playlist with the media-sequence line right behind `#EXTM3U`. -/
def tagSecond : Headed where
  text := "#EXTM3U\n#EXT-X-MEDIA-SEQUENCE:7\n#EXT-X-VERSION:3\n".toList
    ++ "#EXT-X-TARGETDURATION:6\n#EXTINF:6,\ncctv-1508153098.ts\n".toList
  m3u := "#EXTM3U".toList
  version := "#EXT-X-VERSION:3".toList
  target := "#EXT-X-TARGETDURATION:6".toList
  tag := "#EXT-X-MEDIA-SEQUENCE:7".toList
  head := ["#EXT-X-MEDIA-SEQUENCE:7".toList, "#EXT-X-VERSION:3".toList,
    "#EXT-X-TARGETDURATION:6".toList]
  body := ["#EXTINF:6,".toList, "cctv-1508153098.ts".toList]
  pairs := [("#EXTINF:6,".toList, "cctv-1508153098.ts".toList)]
  lines_eq := by decide +kernel
  m3u_tag := by decide +kernel
  version_tag := by decide +kernel
  target_tag := by decide +kernel
  tag_kind := by decide +kernel
  tags := by decide +kernel
  head_kinds := by decide +kernel
  body_kinds := by decide +kernel
  own := by decide +kernel

/-- Its first response has the line `#EXT-X-MEDIA-SEQUENCE:0#EXT-X-VERSION:3`. -/
theorem first_not_well_formed_tag_second :
    ∃ sb, (m3u8PlayseekFilter "1".toList none 1508153092 tagSecond.file).result = .ok sb
      ∧ ¬ FirstWellFormed tagSecond none (toText sb) := by
  have hkinds : ∀ t ∈ ["#EXT-X-VERSION:3".toList, "#EXT-X-TARGETDURATION:6".toList],
      lineKind t = .title := by decide +kernel
  have hsplit : tagSecond.head.filter isTag
      = [] ++ tagSecond.tag :: ["#EXT-X-VERSION:3".toList, "#EXT-X-TARGETDURATION:6".toList] := by
    decide +kernel
  refine ⟨_, tagSecond.result "1".toList none 1508153092 (by decide +kernel) hsplit (by simp)
    hkinds, ?_⟩
  exact Headed.not_wellFormed_of_tag_after hsplit (by simp) hkinds (by simp) _

end NginxNettyHls.M3u8Filter
