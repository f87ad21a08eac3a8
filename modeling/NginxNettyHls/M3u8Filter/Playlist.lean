/-
  NginxNettyHls.M3u8Filter.Playlist
  ─────────────────────────────────
  **THE PLAYLIST AS `m3u8Capture` READS AND WRITES IT.**

  Reading: a file is the lines `readLine` returns and the way it ends; every
  line falls into one of the kinds the filters tell apart (`lineKind`), and the
  time of a segment line is cut out of its name by `getTsTime`.

  Writing: the filters fill a `StringBuffer`.  It is kept here as the list of
  the pieces appended, so that "the segments listed" and "the number announced"
  of a response are functions of it; its text is `toText`.

  `tsSegments` is the playlist as a list of segments, each with the EXTINF line
  in force at its line, and `getTsTime_range` bounds every segment time.
-/
import NginxNettyHls.Java.Lang

namespace NginxNettyHls.M3u8Filter

open NginxNettyHls.Java

/-! ## §1. Lines. -/

/-- The exceptions the modelled code can raise. -/
inductive Exn where
  | arrayIndexOutOfBounds
  | numberFormat
  | illegalArgument
  | uriSyntax
  | io
  deriving Repr, DecidableEq

/-- What a filter takes a line for. -/
inductive LineKind where
  | extinf
  | segment
  /-- One of the three tags that are copied through. -/
  | title
  | mediaSequence
  | other
  deriving Repr, DecidableEq

/-- The chain of `contains` tests all three filters start a line with. -/
def lineKind (s : JString) : LineKind :=
  -- the first test that succeeds decides: a tag line that contains ".ts" is a segment
  if contains s "#EXTINF:".toList then .extinf
  else if contains s ".ts".toList then .segment
  else if contains s "#EXTM3U".toList then .title
  else if contains s "#EXT-X-VERSION".toList then .title
  else if contains s "#EXT-X-TARGETDURATION".toList then .title
  else if contains s "#EXT-X-MEDIA-SEQUENCE".toList then .mediaSequence
  else .other

/-- `get_ts_time`: the number between the first dash and the next dot. -/
def getTsTime (tsStr : JString) : Except Exn Int :=
  match (split '-' tsStr)[1]? with
  -- `a[1]` of a name without a dash, or with nothing after it
  | none => .error .arrayIndexOutOfBounds
  | some a1 =>
      match (split '.' a1)[0]? with
      -- a string of dots splits into no pieces at all
      | none => .error .arrayIndexOutOfBounds
      | some b0 =>
          match parseInt b0 with
          | none => .error .numberFormat
          | some t => .ok t

/-- How reading a file ends: at its end, or with an `IOException` of
`readLine` or of `close`. -/
inductive ReadEnd where
  | eof
  | readError
  | closeError
  deriving Repr, DecidableEq

/-- A file as the `BufferedReader` over it delivers it. -/
inductive FileRead where
  /-- `new FileReader` throws. -/
  | notFound
  | opened (lines : List JString) (fin : ReadEnd)
  deriving Repr, DecidableEq

/-- **Segment times are non-negative `int`s**: the piece that is parsed lies
between two dashes, so it has no minus sign. -/
theorem getTsTime_range {s : JString} {t : Int} (h : getTsTime s = .ok t) :
    0 ≤ t ∧ t < 2 ^ 31 := by
  unfold getTsTime at h
  cases ha : (split '-' s)[1]? with
  | none => simp [ha] at h
  | some a1 =>
      cases hb : (split '.' a1)[0]? with
      | none => simp [ha, hb] at h
      | some b0 =>
          cases hp : parseInt b0 with
          | none => simp [ha, hb, hp] at h
          | some t' =>
              simp only [ha, hb, hp, Except.ok.injEq] at h
              subst h
              -- `b0` is a piece of a piece of `s` cut at the dashes
              have ha1 := mem_of_mem_split (List.mem_of_getElem? ha)
              have hb0 := mem_of_mem_split (List.mem_of_getElem? hb)
              have hdash : '-' ∉ b0 := by
                intro hmem
                exact (ha1 '-' (hb0 '-' hmem).1).2 rfl
              exact ⟨parseInt_nonneg hp hdash, (parseInt_range hp).2⟩

/-! ## §2. Segments. -/

/-- A segment line with its time and the value `ext_info` has when the line is
reached (`none` for `null`). -/
structure Segment where
  extInfo : Option JString
  line : JString
  time : Int
  deriving Repr, DecidableEq

/-- The segments of a list of lines, read after an `ext_info` of `ext`: those
before the first segment line whose time cannot be read, and the exception that
line raises. -/
def tsSegments : Option JString → List JString → List Segment × Option Exn
  | _, [] => ([], none)
  | ext, s :: rest =>
      match lineKind s with
      | .extinf => tsSegments (some s) rest
      | .segment =>
          match getTsTime s with
          -- the exception leaves the loop: later lines are not read
          | .error e => ([], some e)
          | .ok t =>
              let r := tsSegments ext rest
              (⟨ext, s, t⟩ :: r.1, r.2)
      | _ => tsSegments ext rest

/-- Every segment time read from a file is a non-negative `int`. -/
theorem tsSegments_range :
    ∀ (lines : List JString) (ext : Option JString),
      ∀ g ∈ (tsSegments ext lines).1, 0 ≤ g.time ∧ g.time < 2 ^ 31 := by
  intro lines
  induction lines with
  | nil => intro ext g hg; simp [tsSegments] at hg
  | cons s rest ih =>
      intro ext g hg
      simp only [tsSegments] at hg
      cases hk : lineKind s with
      | segment =>
          simp only [hk] at hg
          cases ht : getTsTime s with
          | error e => simp [ht] at hg
          | ok t =>
              simp only [ht] at hg
              rcases List.mem_cons.mp hg with hg | hg
              · subst hg
                exact getTsTime_range ht
              · exact ih ext g hg
      | extinf =>
          simp only [hk] at hg
          exact ih (some s) g hg
      | title | mediaSequence | other =>
          simp only [hk] at hg
          exact ih ext g hg

/-- A segment read from a file stands on a segment line of it, under an EXTINF line of
the file or the one in force at the beginning. -/
theorem tsSegments_mem :
    ∀ (lines : List JString) (ext : Option JString), ∀ g ∈ (tsSegments ext lines).1,
      (g.line ∈ lines ∧ lineKind g.line = .segment ∧ getTsTime g.line = .ok g.time)
        ∧ ∀ e, g.extInfo = some e → (e ∈ lines ∧ lineKind e = .extinf) ∨ ext = some e := by
  intro lines
  induction lines with
  | nil => intro ext g hg; simp [tsSegments] at hg
  | cons s rest ih =>
      intro ext g hg
      simp only [tsSegments] at hg
      -- what holds in the rest of the file holds in the file
      have hlater : ∀ ext', g ∈ (tsSegments ext' rest).1 →
          (ext' = ext ∨ (ext' = some s ∧ lineKind s = .extinf)) →
          (g.line ∈ s :: rest ∧ lineKind g.line = .segment ∧ getTsTime g.line = .ok g.time)
            ∧ ∀ e, g.extInfo = some e → (e ∈ s :: rest ∧ lineKind e = .extinf) ∨ ext = some e := by
        intro ext' hmem hext
        obtain ⟨⟨hline, hkind, htime⟩, hei⟩ := ih ext' g hmem
        refine ⟨⟨List.mem_cons_of_mem s hline, hkind, htime⟩, ?_⟩
        intro e he
        rcases hei e he with ⟨h1, h2⟩ | h
        · exact Or.inl ⟨List.mem_cons_of_mem s h1, h2⟩
        · rcases hext with rfl | ⟨hs, hk⟩
          · exact Or.inr h
          · obtain rfl : s = e := Option.some.inj (hs.symm.trans h)
            exact Or.inl ⟨List.mem_cons_self, hk⟩
      cases hk : lineKind s with
      | segment =>
          simp only [hk] at hg
          cases ht : getTsTime s with
          | error e => simp [ht] at hg
          | ok t =>
              simp only [ht] at hg
              rcases List.mem_cons.mp hg with hg | hg
              · subst hg
                exact ⟨⟨List.mem_cons_self, hk, ht⟩, fun e he => Or.inr he⟩
              · exact hlater ext hg (Or.inl rfl)
      | extinf =>
          simp only [hk] at hg
          exact hlater (some s) hg (Or.inr ⟨rfl, hk⟩)
      | title | mediaSequence | other =>
          simp only [hk] at hg
          exact hlater ext hg (Or.inl rfl)

/-! ## §3. The response under construction. -/

/-- One group of `append` calls of the playseek filters. -/
inductive Piece where
  /-- A copied tag line and its CRLF. -/
  | title (s : JString)
  | mediaSequence
  /-- `sb.append` of a sequence number. -/
  | number (n : Int)
  /-- CRLF, the EXTINF line, CRLF, the segment line and `?query`. -/
  | entry (g : Segment) (query : Option JString)
  deriving Repr, DecidableEq

/-- The characters a piece adds. -/
def Piece.text : Piece → JString
  | .title s => s ++ "\r\n".toList
  | .mediaSequence => "#EXT-X-MEDIA-SEQUENCE:".toList
  | .number n => valueOf n
  | .entry g query =>
      "\r\n".toList ++ orNull g.extInfo ++ "\r\n".toList ++ g.line
        ++ (match query with
            | none => []
            | some q => '?' :: q)

/-- `sb.toString()`. -/
def toText (sb : List Piece) : JString := sb.flatMap Piece.text

/-- The segments a response lists, in order. -/
def listed : List Piece → List Segment
  | [] => []
  | .entry g _ :: ps => g :: listed ps
  | _ :: ps => listed ps

/-- The number a response announces: what stands right after the media-sequence
tag, when that is a number. -/
def announced : List Piece → Option Int
  | [] => none
  | .mediaSequence :: .number n :: _ => some n
  | _ :: ps => announced ps

@[simp] theorem listed_append (ps qs : List Piece) :
    listed (ps ++ qs) = listed ps ++ listed qs := by
  induction ps with
  | nil => rfl
  | cons p ps ih => cases p <;> simp [listed, ih]

@[simp] theorem listed_map_entry (gs : List Segment) (query : Option JString) :
    listed (gs.map (Piece.entry · query)) = gs := by
  induction gs with
  | nil => rfl
  | cons g gs ih => simp [listed, ih]

@[simp] theorem listed_map_title (ls : List JString) : listed (ls.map Piece.title) = [] := by
  induction ls with
  | nil => rfl
  | cons l ls ih => simpa [listed] using ih

/-- Copied tag lines announce nothing. -/
theorem announced_title_append (ls : List JString) (ps : List Piece) :
    announced (ls.map Piece.title ++ ps) = announced ps := by
  induction ls with
  | nil => rfl
  | cons l ls ih => simpa [announced] using ih

end NginxNettyHls.M3u8Filter
