/-
  NginxNettyHls.Nginx.ReadBack
  ────────────────────────────
  **READING A RENDERED REVIEW BACK.**

  The title, the entries and the end tag of a review are put together by two
  programs: m3u8-filter ends each header line with a CRLF, the renderer puts one
  inside each entry, before all entries but the first and before the end tag, and
  counts the bytes in an `int` beside the chain.

    • `readLines_reviewText` — the lines of the text;
    • `entriesBack_rendered`, `isTag_rendered` — what the classification of
      `m3u8_playback_filter` finds in them;
    • `headSize_eq` — the running length is the length of the chain in 32 bits;
    • `review_faithful_iff` — the review is read back exactly when its length is an
      `int`.
-/
import NginxNettyHls.M3u8Filter.SegmentNames
import NginxNettyHls.Nginx.EntryBuffers

namespace NginxNettyHls.Nginx

open NginxNettyHls.Java
open NginxNettyHls.M3u8Filter
open Text

/-! ## §1. The chain. -/

/-- `head_size`, an `int` that every buffer is added to. -/
def headSize (chain : List Buf) : Int :=
  chain.foldl (fun headSize buf => toInt32 (headSize + buf.bytes.length)) 0

theorem headSize_from :
    ∀ (chain : List Buf) (n : Int),
      chain.foldl (fun headSize buf => toInt32 (headSize + buf.bytes.length)) (toInt32 n)
        = toInt32 (n + (chain.flatMap Buf.bytes).length) := by
  intro chain
  induction chain with
  | nil => intro n; simp
  | cons buf chain ih =>
      intro n
      rw [List.foldl_cons, toInt32_toInt32_add, ih, List.flatMap_cons, List.length_append,
        Nat.cast_add, Int.add_assoc]

/-- **The running length** is the length of the chain in 32 bits. -/
theorem headSize_eq (chain : List Buf) :
    headSize chain = toInt32 ((chain.flatMap Buf.bytes).length : Int) := by
  have h := headSize_from chain 0
  rw [Int.zero_add] at h
  exact h

theorem toInt32_natCast_eq_iff (n : Nat) : (n : Int) = toInt32 n ↔ n < 2 ^ 31 := by
  constructor
  · intro h
    have hrange := (isInt32_toInt32 (n : Int)).2
    omega
  · intro h
    rw [toInt32_of_range (by omega) (by omega)]

/-- The buffers of the entries do not end the response. -/
theorem lastBuf_writtenEntries (argument : Option JString) :
    ∀ (list : List TsInfo) (ii : Nat), ∀ b ∈ writtenEntries argument ii list,
      b.lastBuf = false := by
  intro list
  induction list with
  | nil => intro ii b hb; exact absurd hb List.not_mem_nil
  | cons t list ih =>
      intro ii
      rw [writtenEntries, List.forall_mem_cons]
      exact ⟨rfl, ih (ii + 1)⟩

/-! ## §2. The lines of the text. -/

/-- The lines of an entry. -/
def entryLines (argument : JString) (t : TsInfo) : List JString :=
  [t.ext.getD "(null)".toList, t.ts ++ '?' :: argument]

/-- The lines of a review: an empty one stands in for the entries when there are none. -/
def renderedLines (headers : List JString) (argument : JString) (list : List TsInfo) :
    List JString :=
  headers ++ (list.flatMap (entryLines argument) ++ ((if list = [] then [[]] else [])
    ++ ["#EXT-X-ENDLIST".toList]))

/-- The strings of an entry are lines without a NUL. -/
def PlainEntry (t : TsInfo) : Prop :=
  (∀ e, t.ext = some e → Unbroken e ∧ '\x00' ∉ e) ∧ Unbroken t.ts ∧ '\x00' ∉ t.ts

theorem PlainEntry.formatted_ext {t : TsInfo} (h : PlainEntry t) :
    formattedChars t.ext = t.ext.getD "(null)".toList
      ∧ Unbroken (t.ext.getD "(null)".toList) := by
  cases he : t.ext with
  | none => exact ⟨rfl, by decide, by decide⟩
  | some e =>
      obtain ⟨hunbroken, hnul⟩ := h.1 e he
      exact ⟨formattedChars_some hnul, hunbroken⟩

theorem unbroken_entryLines {t : TsInfo} (ht : PlainEntry t) {argument : JString}
    (harg : Unbroken argument) : ∀ l ∈ entryLines argument t, Unbroken l := by
  intro l hl
  simp only [entryLines, List.mem_cons, List.not_mem_nil, or_false] at hl
  rcases hl with rfl | rfl
  · exact ht.formatted_ext.2
  · rw [unbroken_append]
    exact ⟨ht.2.1, by simp [harg.1], by simp [harg.2]⟩

/-- Behind another entry, each entry is two lines. -/
theorem entriesChars_lines {argument : JString} (harg : '\x00' ∉ argument) (rest : JString) :
    ∀ (list : List TsInfo) (ii : Nat), (∀ t ∈ list, PlainEntry t) →
      entriesChars (some argument) (ii + 1) list ++ '\r' :: '\n' :: rest
        = '\r' :: '\n' :: ((list.flatMap (entryLines argument)).flatMap (· ++ "\r\n".toList)
            ++ rest) := by
  intro list
  induction list with
  | nil => intro ii _; rfl
  | cons t list ih =>
      intro ii h
      have ht := h t List.mem_cons_self
      rw [entriesChars, List.append_assoc,
        ih (ii + 1) (fun t' ht' => h t' (List.mem_cons_of_mem t ht'))]
      unfold entryChars
      rw [if_neg (by omega), ht.formatted_ext.1, beforeNul_eq_self ht.2.2,
        formattedChars_some harg]
      simp [entryLines]

/-- Lines with CRLFs are read back before anything else. -/
theorem readLines_flatMap_crlf (rest : JString) :
    ∀ (ls : List JString), (∀ l ∈ ls, Unbroken l) →
      readLines (ls.flatMap (· ++ "\r\n".toList) ++ rest) = ls ++ readLines rest := by
  intro ls
  induction ls with
  | nil => intro _; rfl
  | cons l ls ih =>
      intro h
      have hshape : (l :: ls).flatMap (· ++ "\r\n".toList) ++ rest
          = l ++ '\r' :: '\n' :: (ls.flatMap (· ++ "\r\n".toList) ++ rest) := by simp
      rw [hshape, readLines_crlf (h l List.mem_cons_self),
        ih (fun l' hl' => h l' (List.mem_cons_of_mem l hl'))]
      rfl

/-- **The lines of a rendered review.** -/
theorem readLines_reviewText {headers : List JString} (hheaders : ∀ l ∈ headers, Unbroken l)
    {argument : JString} (harg : Unbroken argument ∧ '\x00' ∉ argument) {list : List TsInfo}
    (hlist : ∀ t ∈ list, PlainEntry t) :
    readLines (reviewText (headers.flatMap (· ++ "\r\n".toList)) (some argument) list)
      = renderedLines headers argument list := by
  have hend : readLines "#EXT-X-ENDLIST".toList = ["#EXT-X-ENDLIST".toList] :=
    readLines_last ⟨by decide, by decide⟩ (by decide)
  unfold reviewText renderedLines
  rw [readLines_flatMap_crlf _ headers hheaders]
  congr 1
  cases list with
  | nil =>
      show readLines ([] ++ '\r' :: '\n' :: "#EXT-X-ENDLIST".toList) = _
      rw [readLines_crlf ⟨by simp, by simp⟩, hend]
      rfl
  | cons t list =>
      have ht := hlist t List.mem_cons_self
      have hlines : ∀ l ∈ (t :: list).flatMap (entryLines argument), Unbroken l := by
        intro l hl
        obtain ⟨t', ht', hl⟩ := List.mem_flatMap.mp hl
        exact unbroken_entryLines (hlist t' ht') harg.1 l hl
      rw [entriesChars, List.append_assoc, entriesChars_lines harg.2 _ list 0
        (fun t' ht' => hlist t' (List.mem_cons_of_mem t ht'))]
      have hshape : entryChars 0 t.ext t.ts (some argument)
            ++ '\r' :: '\n' :: ((list.flatMap (entryLines argument)).flatMap (· ++ "\r\n".toList)
              ++ "#EXT-X-ENDLIST".toList)
          = ((t :: list).flatMap (entryLines argument)).flatMap (· ++ "\r\n".toList)
              ++ "#EXT-X-ENDLIST".toList := by
        unfold entryChars
        rw [if_pos rfl, ht.formatted_ext.1, beforeNul_eq_self ht.2.2, formattedChars_some harg.2]
        simp [entryLines]
      rw [hshape, readLines_flatMap_crlf _ _ hlines, hend]
      rfl

/-! ## §3. What the filter finds in them. -/

/-- The entries of some lines, as `m3u8_playback_filter` classifies them: each segment line
with the EXTINF line in force. -/
def entriesBack : Option JString → List JString → List TsInfo
  | _, [] => []
  | ext, s :: rest =>
      match lineKind s with
      | .extinf => entriesBack (some s) rest
      | .segment => ⟨ext, s⟩ :: entriesBack ext rest
      | _ => entriesBack ext rest

/-- The strings of an entry are an EXTINF line, if it has one, and a segment line. -/
def KindedEntry (t : TsInfo) : Prop :=
  (∀ e, t.ext = some e → lineKind e = .extinf) ∧ lineKind t.ts = .segment

/-- Entries without an EXTINF line come before all others: once there is one, it stays in
force. -/
def NullsFirst (list : List TsInfo) : Prop :=
  list.Pairwise (fun t t' => t'.ext = none → t.ext = none)

/-- An entry with the query behind its segment line. -/
def TsInfo.withQuery (argument : JString) (t : TsInfo) : TsInfo :=
  ⟨t.ext, t.ts ++ '?' :: argument⟩

/-- A query without a hash leaves a segment line one. -/
theorem lineKind_withQuery {ts argument : JString} (hts : lineKind ts = .segment)
    (harg : '#' ∉ argument) : lineKind (ts ++ '?' :: argument) = .segment := by
  rw [← isSegmentLine_iff] at hts ⊢
  unfold isSegmentLine isExtinfLine contains at hts ⊢
  rw [Bool.and_eq_true, Bool.not_eq_true', decide_eq_true_eq, decide_eq_false_iff_not] at hts ⊢
  refine ⟨hts.1.trans (List.prefix_append _ _).isInfix, ?_⟩
  intro hmark
  rcases List.infix_append_iff.mp hmark with h | h | ⟨u, v, huv, hu, hv⟩
  · exact hts.2 h
  · -- the tag has a hash, and neither the mark nor the query has one
    have hhash : '#' ∈ '?' :: argument := h.subset (by decide)
    exact absurd hhash (by simp [harg])
  · cases v with
    | nil =>
        rw [List.append_nil] at huv
        exact hts.2 (huv ▸ hu.isInfix)
    | cons c v =>
        obtain rfl : c = '?' := by
          obtain ⟨w, hw⟩ := hv
          exact (List.cons.inj hw).1
        have hmark : '?' ∈ "#EXTINF:".toList := by
          rw [huv]
          simp
        exact absurd hmark (by decide)

theorem entriesBack_headers (rest : List JString) :
    ∀ (headers : List JString) (ext : Option JString), (∀ l ∈ headers, isTag l = true) →
      entriesBack ext (headers ++ rest) = entriesBack ext rest := by
  intro headers
  induction headers with
  | nil => intro ext _; rfl
  | cons l headers ih =>
      intro ext h
      have htag := h l List.mem_cons_self
      have hrest := ih ext (fun l' hl' => h l' (List.mem_cons_of_mem l hl'))
      rw [List.cons_append, entriesBack]
      cases hk : lineKind l with
      | title | mediaSequence => exact hrest
      | extinf | segment | other => simp [isTag, hk] at htag

theorem entriesBack_entries {argument : JString} (harg : '#' ∉ argument) (rest : List JString)
    (hrest : ∀ ext, entriesBack ext rest = []) :
    ∀ (list : List TsInfo) (ext : Option JString), (∀ t ∈ list, KindedEntry t) →
      NullsFirst list → (ext ≠ none → ∀ t ∈ list, t.ext ≠ none) →
      entriesBack ext (list.flatMap (entryLines argument) ++ rest)
        = list.map (TsInfo.withQuery argument) := by
  have hnull : lineKind "(null)".toList = .other := by decide +kernel
  intro list
  induction list with
  | nil => intro ext _ _ _; exact hrest ext
  | cons t list ih =>
      intro ext h hnulls hforce
      obtain ⟨hext, hts⟩ := h t List.mem_cons_self
      obtain ⟨hfirst, hnulls⟩ := List.pairwise_cons.mp hnulls
      have hkinds := fun t' ht' => h t' (List.mem_cons_of_mem t ht')
      rw [List.flatMap_cons, List.append_assoc]
      show entriesBack ext (t.ext.getD "(null)".toList :: (t.ts ++ '?' :: argument)
        :: (list.flatMap (entryLines argument) ++ rest)) = _
      cases hei : t.ext with
      | some e =>
          -- the entry has an EXTINF line, and so have those behind it
          have hnext := ih (some e) hkinds hnulls (fun _ t' ht' hnone =>
            absurd (hfirst t' ht' hnone) (by simp [hei]))
          rw [Option.getD_some, entriesBack, hext e hei, entriesBack,
            lineKind_withQuery hts harg]
          dsimp only
          rw [hnext, List.map_cons]
          simp [TsInfo.withQuery, hei]
      | none =>
          -- no EXTINF line is in force yet, and the line `(null)` is of no kind
          obtain rfl : ext = none := by
            by_contra hne
            exact hforce hne t List.mem_cons_self hei
          have hnext := ih none hkinds hnulls (fun h => absurd rfl h)
          rw [Option.getD_none, entriesBack, hnull]
          dsimp only
          rw [entriesBack, lineKind_withQuery hts harg]
          dsimp only
          rw [hnext, List.map_cons]
          simp [TsInfo.withQuery, hei]

/-- **The entries are read back**, each with the query. -/
theorem entriesBack_rendered {headers : List JString} (hheaders : ∀ l ∈ headers, isTag l = true)
    {argument : JString} (harg : '#' ∉ argument) {list : List TsInfo}
    (hlist : ∀ t ∈ list, KindedEntry t) (hnulls : NullsFirst list) :
    entriesBack none (renderedLines headers argument list)
      = list.map (TsInfo.withQuery argument) := by
  have hend : lineKind "#EXT-X-ENDLIST".toList = .other := by decide +kernel
  have hempty : lineKind [] = .other := by decide +kernel
  unfold renderedLines
  rw [entriesBack_headers _ headers none hheaders]
  apply entriesBack_entries harg _ _ list none hlist hnulls (fun h => absurd rfl h)
  intro ext
  split_ifs <;> simp only [List.nil_append, List.cons_append, entriesBack, hend, hempty]

/-- **The header lines are read back.** -/
theorem isTag_rendered {headers : List JString} (hheaders : ∀ l ∈ headers, isTag l = true)
    {argument : JString} (harg : '#' ∉ argument) {list : List TsInfo}
    (hlist : ∀ t ∈ list, KindedEntry t) :
    (renderedLines headers argument list).filter isTag = headers := by
  have hrest : ∀ l ∈ list.flatMap (entryLines argument) ++ ((if list = [] then [[]] else [])
      ++ ["#EXT-X-ENDLIST".toList]), ¬ isTag l = true := by
    intro l hl
    rcases List.mem_append.mp hl with hl | hl
    · obtain ⟨t, ht, hl⟩ := List.mem_flatMap.mp hl
      obtain ⟨hext, hts⟩ := hlist t ht
      simp only [entryLines, List.mem_cons, List.not_mem_nil, or_false] at hl
      rcases hl with rfl | rfl
      · cases hei : t.ext with
        | none => decide +kernel
        | some e => simp [isTag, hext e hei]
      · simp [isTag, lineKind_withQuery hts harg]
    · rcases List.mem_append.mp hl with hl | hl
      · split_ifs at hl
        · rw [List.mem_singleton.mp hl]
          decide +kernel
        · simp at hl
      · rw [List.mem_singleton.mp hl]
        decide +kernel
  unfold renderedLines
  rw [List.filter_append, List.filter_eq_self.mpr hheaders, List.filter_eq_nil_iff.mpr hrest,
    List.append_nil]

/-! ## §4. The whole review. -/

/-- The bytes of the entries from place `ii` on. -/
def entriesSize (argument : JString) : Nat → List TsInfo → Nat
  | _, [] => 0
  | ii, t :: ts =>
      (if ii = 0 then 0 else 2) + sizeOfString t.ext + 2 + sizeOfString (some t.ts) + 1
        + sizeOfString (some argument) + entriesSize argument (ii + 1) ts

/-- The bytes of a review: the title, the entries and the end tag. -/
def reviewSize (title argument : JString) (list : List TsInfo) : Nat :=
  (utf8 title).length + entriesSize argument 0 list + 16

theorem length_entriesChars (argument : JString) :
    ∀ (list : List TsInfo) (ii : Nat),
      (utf8 (entriesChars (some argument) ii list)).length = entriesSize argument ii list := by
  intro list
  induction list with
  | nil => intro ii; rfl
  | cons t list ih =>
      intro ii
      rw [entriesChars, utf8_append, List.length_append, ih, ← entryText_utf8, length_entryText,
        entriesSize]

theorem length_reviewText (title argument : JString) (list : List TsInfo) :
    (utf8 (reviewText title (some argument) list)).length = reviewSize title argument list := by
  have hend : (utf8 ('\r' :: '\n' :: "#EXT-X-ENDLIST".toList)).length = 16 := by decide +kernel
  unfold reviewText reviewSize
  rw [utf8_append, utf8_append, List.length_append, List.length_append, hend, length_entriesChars]
  omega

/-- The chain built for a review has the length it announces, ends with its last buffer,
and is read back. -/
def FaithfullyRendered (lib : JsonLib) (title argument : JString) (list : List TsInfo) : Prop :=
  let info : RespInfo := .review ⟨.review, some title, some argument, some list⟩
  RespInfo.fits info = true ∧ ∃ chain,
    render lib (lib.jsonTokenerParse (lib.writeValueAsString
        (CommonResp.toJson ⟨ErrorCode.ok.value, "OK".toList, some info⟩))) = .ok chain
      ∧ ((chain.flatMap Buf.bytes).length : Int) = headSize chain
      ∧ (∃ front last, chain = front ++ [last] ∧ last.lastBuf = true
          ∧ ∀ b ∈ front, b.lastBuf = false)
      ∧ ∃ sent, chain.flatMap Buf.bytes = utf8 sent
          ∧ (readLines sent).filter isTag = readLines title
          ∧ entriesBack none (readLines sent) = list.map (TsInfo.withQuery argument)
          ∧ (readLines sent).getLast? = some "#EXT-X-ENDLIST".toList

/-- The chain of a review. -/
theorem render_chain (lib : JsonLib) (title argument : JString) (list : List TsInfo) :
    render lib (lib.jsonTokenerParse (lib.writeValueAsString (CommonResp.toJson
        ⟨ErrorCode.ok.value, "OK".toList,
          some (.review ⟨.review, some title, some argument, some list⟩)⟩)))
      = .ok (⟨utf8 title, false⟩
          :: (writtenEntries (some argument) 0 list ++ [⟨endList, true⟩])) := by
  rw [parse_written, render_review lib rfl rfl rfl rfl]

theorem bytes_chain (title argument : JString) (list : List TsInfo) :
    (Buf.mk (utf8 title) false
        :: (writtenEntries (some argument) 0 list ++ [⟨endList, true⟩])).flatMap Buf.bytes
      = utf8 (reviewText title (some argument) list) := by
  have hend : utf8 ('\r' :: '\n' :: "#EXT-X-ENDLIST".toList) = endList := by decide +kernel
  unfold reviewText
  rw [List.flatMap_cons, List.flatMap_append, writtenEntries_text, utf8_append, utf8_append, hend]
  simp

/-- Only a length that is an `int` is announced. -/
theorem FaithfullyRendered.size_lt {lib : JsonLib} {title argument : JString}
    {list : List TsInfo} (h : FaithfullyRendered lib title argument list) :
    reviewSize title argument list < 2 ^ 31 := by
  obtain ⟨-, chain, hrender, hlength, -⟩ := h
  obtain rfl := Except.ok.inj ((render_chain lib title argument list).symm.trans hrender)
  rwa [headSize_eq, bytes_chain, length_reviewText, toInt32_natCast_eq_iff] at hlength

/-- The entries fit when the EXTINF lines have at most 27 bytes. -/
theorem entriesFit_of_short {argument : Option JString} :
    ∀ (list : List TsInfo) (ii : Nat),
      (∀ t ∈ list, sizeOfString t.ext ≤ 27) →
      (∀ (j : Nat) (t : TsInfo), list[j]? = some t →
        (entryText (ii + j) (t.ext.map utf8) (some (utf8 t.ts)) (argument.map utf8)).length
          < 2048) →
      entriesFit argument ii list = true := by
  intro list
  induction list with
  | nil => intro ii _ _; rfl
  | cons t list ih =>
      intro ii hext hentry
      have hpre := length_tspre ii t.ext
      have hshort := hext t List.mem_cons_self
      have hfirst := hentry 0 t rfl
      rw [Nat.add_zero, entryText_utf8] at hfirst
      have hrest := ih (ii + 1) (fun t' ht' => hext t' (List.mem_cons_of_mem t ht'))
        (fun j t' ht' => by
          have h := hentry (j + 1) t' (by simpa using ht')
          rwa [show ii + (j + 1) = ii + 1 + j by omega] at h)
      rw [entriesFit, hrest, decide_eq_true hfirst, Bool.and_true, Bool.and_true,
        decide_eq_true_eq]
      split_ifs at hpre <;> omega

/-- An entry of a review stands on lines of the file. -/
theorem entry_of_review {lines : List JString} {gs : List Segment}
    (hgs : tsSegments none lines = (gs, none)) {startTime endTime : Int} {t : TsInfo}
    (ht : t ∈ (reviewed startTime endTime gs).map Segment.tsInfo) :
    (t.ts ∈ lines ∧ lineKind t.ts = .segment)
      ∧ ∀ e, t.ext = some e → e ∈ lines ∧ lineKind e = .extinf := by
  obtain ⟨g, hg, rfl⟩ := List.mem_map.mp ht
  have hmem : g ∈ (tsSegments none lines).1 := by
    rw [hgs]
    exact List.mem_of_mem_filter hg
  obtain ⟨⟨hline, hkind, -⟩, hext⟩ := tsSegments_mem lines none g hmem
  exact ⟨⟨hline, hkind⟩, fun e he => (hext e he).resolve_right (by simp)⟩

/-- Once there is an EXTINF line, every later segment has one. -/
theorem tsSegments_pairwise :
    ∀ (lines : List JString) (ext : Option JString),
      (tsSegments ext lines).1.Pairwise (fun g g' => g'.extInfo = none → g.extInfo = none)
        ∧ (ext ≠ none → ∀ g ∈ (tsSegments ext lines).1, g.extInfo ≠ none) := by
  intro lines
  induction lines with
  | nil => intro ext; simp [tsSegments]
  | cons s rest ih =>
      intro ext
      rw [tsSegments]
      cases hk : lineKind s with
      | extinf => exact ⟨(ih (some s)).1, fun _ => (ih (some s)).2 (by simp)⟩
      | title | mediaSequence | other => exact ih ext
      | segment =>
          dsimp only
          cases getTsTime s with
          | error e => simp
          | ok time =>
              obtain ⟨hpairs, hforce⟩ := ih ext
              refine ⟨List.pairwise_cons.mpr ⟨fun g hg hnone => ?_, hpairs⟩, fun hext => ?_⟩
              · by_contra hne
                exact hforce hne g hg hnone
              · rw [List.forall_mem_cons]
                exact ⟨hext, hforce hext⟩

theorem nullsFirst_reviewed {lines : List JString} {gs : List Segment}
    (hgs : tsSegments none lines = (gs, none)) (startTime endTime : Int) :
    NullsFirst ((reviewed startTime endTime gs).map Segment.tsInfo) := by
  have hpairs := (tsSegments_pairwise lines none).1
  rw [hgs] at hpairs
  unfold NullsFirst
  rw [List.pairwise_map]
  exact hpairs.filter _

/-- **When a rendered review is read back.**  For every review of a playlist without NULs,
with short EXTINF lines and entries, and a query without line breaks, NULs and hashes:
exactly when its bytes can be counted in an `int`. -/
theorem review_faithful_iff (lib : JsonLib) {startTime endTime : Int}
    {text argument title : JString} {list : List TsInfo}
    (hinfo : (FilterCall.review startTime endTime).info (some argument) (textFile text)
      = .ok (.review ⟨.review, some title, some argument, some list⟩))
    (hnul : '\x00' ∉ text)
    (hshort : ∀ l ∈ readLines text, lineKind l = .extinf → (utf8 l).length ≤ 27)
    (hentry : ∀ (ii : Nat) (t : TsInfo), list[ii]? = some t →
      (entryText ii (t.ext.map utf8) (some (utf8 t.ts)) (some (utf8 argument))).length < 2048)
    (hquery : Unbroken argument ∧ '\x00' ∉ argument ∧ '#' ∉ argument) :
    FaithfullyRendered lib title argument list ↔ reviewSize title argument list < 2 ^ 31 := by
  have hgs : tsSegments none (readLines text) = ((tsSegments none (readLines text)).1, none) :=
    Prod.ext rfl (times_of_info hinfo)
  have hreview := hinfo.symm.trans (review_info startTime endTime (some argument) hgs)
  simp only [Except.ok.injEq, RespInfo.review.injEq, M3u8ReviewInfo.mk.injEq, Option.some.injEq,
    true_and] at hreview
  obtain ⟨rfl, rfl⟩ := hreview
  have hheaders : ∀ l ∈ (readLines text).filter isTag, Unbroken l :=
    fun l hl => unbroken_of_mem_readLines (List.mem_of_mem_filter hl)
  have htitle : readLines (titleText (readLines text)) = (readLines text).filter isTag := by
    have h := readLines_flatMap_crlf [] _ hheaders
    rw [List.append_nil] at h
    exact h.trans (List.append_nil _)
  have hline : ∀ l ∈ readLines text, Unbroken l ∧ '\x00' ∉ l :=
    fun l hl => ⟨unbroken_of_mem_readLines hl, fun h => hnul (mem_of_mem_readLines hl h)⟩
  refine ⟨FaithfullyRendered.size_lt, fun hsize => ?_⟩
  have hplain : ∀ t ∈ (reviewed startTime endTime (tsSegments none (readLines text)).1).map
      Segment.tsInfo, PlainEntry t ∧ KindedEntry t ∧ sizeOfString t.ext ≤ 27 := by
    intro t ht
    obtain ⟨⟨hts, hkind⟩, hei⟩ := entry_of_review hgs ht
    refine ⟨⟨fun e he => hline e (hei e he).1, hline t.ts hts⟩,
      ⟨fun e he => (hei e he).2, hkind⟩, ?_⟩
    cases he : t.ext with
    | none => decide +kernel
    | some e =>
        obtain ⟨hmem, hek⟩ := hei e he
        rw [sizeOfString, formattedChars_some (hline e hmem).2]
        exact hshort e hmem hek
  refine ⟨?_, _, render_chain lib _ argument _, ?_, ⟨_ :: writtenEntries (some argument) 0 _,
    ⟨endList, true⟩, rfl, rfl, ?_⟩, reviewText (titleText (readLines text)) (some argument) _,
    bytes_chain _ argument _, ?_⟩
  · exact entriesFit_of_short _ 0 (fun t ht => (hplain t ht).2.2)
      (fun j t ht => by rw [Nat.zero_add]; exact hentry j t ht)
  · rw [headSize_eq, bytes_chain, length_reviewText]
    exact (toInt32_natCast_eq_iff _).mpr hsize
  · rw [List.forall_mem_cons]
    exact ⟨rfl, lastBuf_writtenEntries _ _ _⟩
  · have hlines := readLines_reviewText hheaders ⟨hquery.1, hquery.2.1⟩
      (fun t ht => (hplain t ht).1)
    have htags : ∀ l ∈ (readLines text).filter isTag, isTag l = true :=
      fun l hl => (List.mem_filter.mp hl).2
    have hkinds : ∀ t ∈ (reviewed startTime endTime (tsSegments none (readLines text)).1).map
        Segment.tsInfo, KindedEntry t := fun t ht => (hplain t ht).2.1
    unfold titleText at htitle ⊢
    rw [hlines, htitle]
    refine ⟨isTag_rendered htags hquery.2.2 hkinds,
      entriesBack_rendered htags hquery.2.2 hkinds (nullsFirst_reviewed hgs startTime endTime),
      ?_⟩
    unfold renderedLines
    rw [← List.append_assoc, ← List.append_assoc, List.getLast?_concat]

/-- Two segments, the first without an EXTINF line. -/
def shortText : JString :=
  "#EXTM3U\r\ncctv-1508151602.ts\r\n#EXTINF:6.0,\r\ncctv-1508151606.ts\r\n".toList

theorem review_faithful_short :
    FaithfullyRendered printedJson "#EXTM3U\r\n".toList "x=1".toList
      [⟨none, "cctv-1508151602.ts".toList⟩,
       ⟨some "#EXTINF:6.0,".toList, "cctv-1508151606.ts".toList⟩] := by
  refine (@review_faithful_iff printedJson 1508151600 1508151610 shortText _ _ _
    (by decide +kernel) (by decide +kernel) (by decide +kernel) ?_
    ⟨⟨by decide, by decide⟩, by decide, by decide⟩).mpr (by decide +kernel)
  intro ii t ht
  match ii with
  | 0 =>
      obtain rfl := Option.some.inj ht
      decide +kernel
  | 1 =>
      obtain rfl := Option.some.inj ht
      decide +kernel
  | ii + 2 => simp at ht

/-! ## §5. A review of more than 2 ^ 31 bytes. -/

section Repeated

/-- An entry with short lines. -/
def shortEntry : TsInfo := ⟨some "#EXTINF:6.0,".toList, "cctv-1508151606.ts".toList⟩

/-- Its two lines, `n` times. -/
def repeatedLines (n : Nat) : List JString :=
  (List.replicate n ["#EXTINF:6.0,".toList, "cctv-1508151606.ts".toList]).flatten

/-- A playlist with the same segment `n` times. -/
def repeatedText (n : Nat) : JString :=
  ("#EXTM3U".toList :: repeatedLines n).flatMap (· ++ "\r\n".toList)

def longQuery : JString := List.replicate 1024 'a'

variable (n : Nat)

theorem mem_repeatedLines {l : JString} (h : l ∈ repeatedLines n) :
    l = "#EXTINF:6.0,".toList ∨ l = "cctv-1508151606.ts".toList := by
  obtain ⟨ls, hls, hl⟩ := List.mem_flatten.mp h
  rw [List.eq_of_mem_replicate hls] at hl
  simpa using hl

theorem readLines_repeatedText :
    readLines (repeatedText n) = "#EXTM3U".toList :: repeatedLines n := by
  have h := readLines_flatMap_crlf [] ("#EXTM3U".toList :: repeatedLines n) (by
    intro l hl
    rcases List.mem_cons.mp hl with rfl | hl
    · exact ⟨by decide, by decide⟩
    · rcases mem_repeatedLines n hl with rfl | rfl <;> exact ⟨by decide, by decide⟩)
  rw [List.append_nil] at h
  exact h.trans (List.append_nil _)

theorem tsSegments_repeatedLines :
    ∀ (n : Nat) (ext : Option JString), tsSegments ext (repeatedLines n)
      = (List.replicate n ⟨shortEntry.ext, shortEntry.ts, 1508151606⟩, none) := by
  have hext : lineKind "#EXTINF:6.0,".toList = .extinf := by decide +kernel
  have hts : lineKind "cctv-1508151606.ts".toList = .segment := by decide +kernel
  have htime : getTsTime "cctv-1508151606.ts".toList = .ok 1508151606 := by decide +kernel
  intro n
  induction n with
  | zero => intro ext; rfl
  | succ n ih =>
      intro ext
      show tsSegments ext ("#EXTINF:6.0,".toList :: "cctv-1508151606.ts".toList
        :: repeatedLines n) = _
      rw [tsSegments, hext]
      dsimp only
      rw [tsSegments, hts, htime]
      dsimp only
      rw [ih]
      rfl

theorem titleText_repeated :
    titleText ("#EXTM3U".toList :: repeatedLines n) = "#EXTM3U\r\n".toList := by
  have hnone : (repeatedLines n).filter isTag = [] := by
    rw [List.filter_eq_nil_iff]
    intro l hl
    rcases mem_repeatedLines n hl with rfl | rfl <;> decide +kernel
  rw [titleText_cons_tag (by decide +kernel), titleText, hnone]
  rfl

/-- Its review lists the entry `n` times. -/
theorem repeated_info :
    (FilterCall.review 1508151600 1508151610).info (some longQuery) (textFile (repeatedText n))
      = .ok (.review ⟨.review, some "#EXTM3U\r\n".toList, some longQuery,
          some (List.replicate n shortEntry)⟩) := by
  have hkind : lineKind "#EXTM3U".toList = .title := by decide +kernel
  have hgs : tsSegments none (readLines (repeatedText n))
      = (List.replicate n ⟨shortEntry.ext, shortEntry.ts, 1508151606⟩, none) := by
    rw [readLines_repeatedText, tsSegments, hkind]
    exact tsSegments_repeatedLines n none
  have hreviewed : reviewed 1508151600 1508151610
      (List.replicate n ⟨shortEntry.ext, shortEntry.ts, 1508151606⟩)
      = List.replicate n ⟨shortEntry.ext, shortEntry.ts, 1508151606⟩ :=
    List.filter_eq_self.mpr (fun g hg => by rw [List.eq_of_mem_replicate hg]; decide)
  rw [review_info 1508151600 1508151610 (some longQuery) hgs, readLines_repeatedText,
    titleText_repeated, hreviewed, List.map_replicate]
  rfl

theorem entriesSize_replicate :
    ∀ n ii, n * 1057 ≤ entriesSize longQuery ii (List.replicate n shortEntry) := by
  have harith : ∀ n first rest : Nat, n * 1057 ≤ rest →
      (n + 1) * 1057 ≤ first + 12 + 2 + 18 + 1 + 1024 + rest := by
    grind
  have hext : sizeOfString shortEntry.ext = 12 := by decide +kernel
  have hts : sizeOfString (some shortEntry.ts) = 18 := by decide +kernel
  have hquery : sizeOfString (some longQuery) = 1024 := by decide +kernel
  intro n
  induction n with
  | zero => intro ii; rw [Nat.zero_mul]; exact Nat.zero_le _
  | succ n ih =>
      intro ii
      have h := ih (ii + 1)
      rw [List.replicate_succ, entriesSize, hext, hts, hquery]
      exact harith n _ _ h

/-- The entries with the query are short. -/
theorem repeated_short (ii : Nat) {t : TsInfo} (ht : (List.replicate n shortEntry)[ii]? = some t) :
    (entryText ii (t.ext.map utf8) (some (utf8 t.ts)) (some (utf8 longQuery))).length < 2048 := by
  obtain rfl := List.eq_of_mem_replicate (List.mem_of_getElem? ht)
  have hlength := length_entryText ii shortEntry.ext shortEntry.ts (some longQuery)
  have hext : sizeOfString shortEntry.ext = 12 := by decide +kernel
  have hts : sizeOfString (some shortEntry.ts) = 18 := by decide +kernel
  have hquery : sizeOfString (some longQuery) = 1024 := by decide +kernel
  rw [hext, hts, hquery] at hlength
  rw [show some (utf8 longQuery) = (some longQuery).map utf8 from rfl, hlength]
  split_ifs <;> omega

theorem repeated_lines :
    '\x00' ∉ repeatedText n
      ∧ ∀ l ∈ readLines (repeatedText n), lineKind l = .extinf → (utf8 l).length ≤ 27 := by
  constructor
  · intro hmem
    obtain ⟨l, hl, hc⟩ := List.mem_flatMap.mp hmem
    rcases List.mem_cons.mp hl with rfl | hl
    · exact absurd hc (by decide)
    · rcases mem_repeatedLines n hl with rfl | rfl <;> exact absurd hc (by decide)
  · rw [readLines_repeatedText]
    intro l hl _
    rcases List.mem_cons.mp hl with rfl | hl
    · decide +kernel
    · rcases mem_repeatedLines n hl with rfl | rfl <;> decide +kernel

theorem repeated_not_faithful (hn : 2097152 ≤ n) :
    ¬ FaithfullyRendered printedJson "#EXTM3U\r\n".toList longQuery
      (List.replicate n shortEntry) := by
  intro h
  have hlt := h.size_lt
  have hsize := entriesSize_replicate n 0
  unfold reviewSize at hlt
  omega

end Repeated

/-- **More than 2 ^ 31 bytes** of playlist, from 2 ^ 21 segments with a query of 1024 bytes:
the length that is announced is not the length of the chain. -/
theorem review_length_wraps :
    (FilterCall.review 1508151600 1508151610).info (some longQuery)
        (textFile (repeatedText 2097152))
      = .ok (.review ⟨.review, some "#EXTM3U\r\n".toList, some longQuery,
          some (List.replicate 2097152 shortEntry)⟩)
    ∧ ('\x00' ∉ repeatedText 2097152
      ∧ ∀ l ∈ readLines (repeatedText 2097152), lineKind l = .extinf → (utf8 l).length ≤ 27)
    ∧ (∀ (ii : Nat) (t : TsInfo), (List.replicate 2097152 shortEntry)[ii]? = some t →
        (entryText ii (t.ext.map utf8) (some (utf8 t.ts)) (some (utf8 longQuery))).length < 2048)
    ∧ (Unbroken longQuery ∧ '\x00' ∉ longQuery ∧ '#' ∉ longQuery)
    ∧ ¬ FaithfullyRendered printedJson "#EXTM3U\r\n".toList longQuery
        (List.replicate 2097152 shortEntry) := by
  have hquery : Unbroken longQuery ∧ '\x00' ∉ longQuery ∧ '#' ∉ longQuery :=
    ⟨⟨by decide +kernel, by decide +kernel⟩, by decide +kernel, by decide +kernel⟩
  -- the general facts at one number of segments, without unfolding the list
  exact ⟨repeated_info 2097152, repeated_lines 2097152, fun ii t => repeated_short 2097152 ii,
    hquery, repeated_not_faithful 2097152 (Nat.le_refl _)⟩

end NginxNettyHls.Nginx
