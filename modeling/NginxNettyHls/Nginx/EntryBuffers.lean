/-
  NginxNettyHls.Nginx.EntryBuffers
  ────────────────────────────────
  **THE TWO BUFFERS OF AN ENTRY** in the review loop of the renderer.

  An entry is formatted by `sprintf` into `tspre[32]` and then by `snprintf` into
  an allocation of 2048 bytes.  The second returns the length of the whole text,
  stored or not, and the end of the buffer that is sent is computed from it.

    • `entryWrite` — what an iteration writes;
    • `inside_iff` — it stays inside both buffers exactly when two lengths are
      small enough, the first of them smaller for all entries but the first;
    • `review_inside_iff` — for every playlist and query, from the file on.
-/
import NginxNettyHls.Nginx.Delivered

namespace NginxNettyHls.Nginx

open NginxNettyHls.Java
open NginxNettyHls.M3u8Filter
open Text

/-! ## §1. One iteration. -/

/-- What an iteration of the loop over `ts_list` formats and computes. -/
structure EntryWrite where
  /-- The string in `tspre`, without its terminator. -/
  tspre : Bytes
  /-- The text given to `snprintf`. -/
  text : Bytes
  offset : Int
  deriving Repr, DecidableEq

/-- The value of `snprintf`: the length of the text, stored or not; a negative number when
that is no `int`. -/
def snprintfValue (text : Bytes) : Int := if text.length < 2 ^ 31 then text.length else -1

/-- The bytes `snprintf` has stored in an allocation of 2048. -/
def EntryWrite.stored (w : EntryWrite) : Bytes := w.text.take 2047 ++ [0]

/-- One iteration on its three strings. -/
def entryWrite (ii : Nat) (ext ts argument : Option Bytes) : EntryWrite :=
  ⟨Nginx.tspre ii ext, entryText ii ext ts argument, snprintfValue (entryText ii ext ts argument)⟩

/-- Both strings are in their buffers with their terminators, and `[pos, last)` is the
formatted text. -/
structure EntryWrite.Inside (w : EntryWrite) : Prop where
  tspre : w.tspre.length + 1 ≤ 32
  offset : 0 ≤ w.offset ∧ w.offset < 2048
  sent : w.stored.take w.offset.toNat = w.text

/-- Every iteration of the loop on a parsed answer stays inside. -/
def StaysInside (lib : JsonLib) (root : Option lib.Object) : Prop :=
  let get := fun object key => lib.jsonObjectGetString (lib.jsonObjectObjectGetEx object key)
  let info := respInfo lib root
  ∀ ii item,
    (lib.jsonObjectArrayItems (lib.jsonObjectObjectGetEx info "ts_list"))[ii]? = some item →
      (entryWrite ii (get item "ext") (get item "ts") (get info "argus")).Inside

/-! ## §2. The lengths. -/

/-- The bytes `%s` writes for a text. -/
def sizeOfString (s : Option JString) : Nat := (utf8 (formattedChars s)).length

/-- The EXTINF line leaves room for one or two line breaks and the terminator in 32 bytes,
and the entry for its terminator in 2048.  A string that is not there counts as `(null)`. -/
def FitsAt (ii : Nat) (ext : Option JString) (ts : JString) (argument : Option JString) : Prop :=
  sizeOfString ext ≤ (if ii = 0 then 29 else 27)
    ∧ (if ii = 0 then 0 else 2) + sizeOfString ext + 2 + sizeOfString (some ts) + 1
        + sizeOfString argument < 2048

theorem length_tspre (ii : Nat) (ext : Option JString) :
    (tspre ii (ext.map utf8)).length = (if ii = 0 then 0 else 2) + sizeOfString ext + 2 := by
  unfold tspre sizeOfString
  rw [formatted_utf8]
  simp only [List.length_append]
  split_ifs <;> rfl

theorem length_entryText (ii : Nat) (ext : Option JString) (ts : JString)
    (argument : Option JString) :
    (entryText ii (ext.map utf8) (some (utf8 ts)) (argument.map utf8)).length
      = (if ii = 0 then 0 else 2) + sizeOfString ext + 2 + sizeOfString (some ts) + 1
          + sizeOfString argument := by
  have hts : formatted (some (utf8 ts)) = utf8 (formattedChars (some ts)) :=
    formatted_utf8 (some ts)
  unfold entryText
  rw [List.length_append, List.length_append, List.length_cons, length_tspre, hts,
    formatted_utf8]
  unfold sizeOfString
  omega

/-- **An iteration stays inside its buffers** exactly when the two lengths are small
enough. -/
theorem inside_iff (ii : Nat) (ext : Option JString) (ts : JString) (argument : Option JString) :
    (entryWrite ii (ext.map utf8) (some (utf8 ts)) (argument.map utf8)).Inside
      ↔ FitsAt ii ext ts argument := by
  have hpre := length_tspre ii ext
  have htext := length_entryText ii ext ts argument
  unfold entryWrite
  generalize entryText ii (ext.map utf8) (some (utf8 ts)) (argument.map utf8) = text at htext ⊢
  unfold FitsAt
  rw [← htext]
  constructor
  · intro ⟨htspre, hoffset, _⟩
    dsimp only at htspre hoffset
    unfold snprintfValue at hoffset
    constructor
    · split_ifs at hpre ⊢ <;> omega
    · split_ifs at hoffset <;> omega
  · intro ⟨hext, hlen⟩
    have hvalue : snprintfValue text = text.length := if_pos (by omega)
    refine ⟨?_, ?_, ?_⟩
    · dsimp only
      split_ifs at hpre hext <;> omega
    · dsimp only
      rw [hvalue]
      omega
    · -- the terminator is behind the last byte that is sent
      dsimp only [EntryWrite.stored]
      rw [hvalue, Int.toNat_natCast, List.take_of_length_le (by omega : text.length ≤ 2047),
        List.take_left]

/-! ## §3. From the file on. -/

/-- The loop on a review m3u8-filter has written. -/
theorem staysInside_iff (lib : JsonLib) {r : CommonResp} {review : M3u8ReviewInfo}
    (hinfo : r.respInfo = some (.review review)) {title : JString}
    (htitle : review.m3u8Title = some title) {list : List TsInfo}
    (hlist : review.tsList = some list) :
    StaysInside lib (lib.object r.toJson)
      ↔ ∀ (ii : Nat) (t : TsInfo), list[ii]? = some t →
          FitsAt ii t.ext t.ts review.argus := by
  have hfields := reviewFields lib htitle hlist
  unfold StaysInside
  rw [respInfo_written lib hinfo]
  dsimp only
  rw [hfields.argus, hfields.tsList, lib.string_jsonString, lib.items_arr, List.map_map]
  simp only [List.getElem?_map]
  constructor
  · intro h ii t ht
    rw [← inside_iff]
    have hinside := h ii (lib.object t.toJson) (by rw [ht]; rfl)
    rwa [get_ext, get_ts] at hinside
  · intro h ii item hitem
    obtain ⟨t, ht, rfl⟩ := Option.map_eq_some_iff.mp hitem
    rw [Function.comp_apply, get_ext, get_ts, inside_iff]
    exact h ii t ht

/-- **When a review stays inside its buffers**: for every file, window and query, and
whatever lies behind the body in memory, exactly when every listed segment fits at its
place. -/
theorem review_inside_iff (lib : JsonLib) (startTime endTime : Int) (query : Option JString)
    (text : JString) (behind : Bytes) :
    (∀ info, (FilterCall.review startTime endTime).info query (textFile text) = .ok info →
        StaysInside lib (lib.jsonTokenerParse (lib.writeValueAsString
          (CommonResp.toJson ⟨ErrorCode.ok.value, "OK".toList, some info⟩) ++ behind)))
      ↔ ∀ gs, tsSegments none (readLines text) = (gs, none) →
          ∀ (ii : Nat) (g : Segment), (reviewed startTime endTime gs)[ii]? = some g →
            FitsAt ii g.extInfo g.line query := by
  constructor
  · intro h gs hgs ii g hg
    have hinside := h _ (review_info startTime endTime query hgs)
    rw [lib.parse_write] at hinside
    refine (staysInside_iff lib rfl rfl rfl).mp hinside ii g.tsInfo ?_
    rw [List.getElem?_map, hg]
    rfl
  · intro h info hinfo
    have hgs : tsSegments none (readLines text) = ((tsSegments none (readLines text)).1, none) :=
      Prod.ext rfl (times_of_info hinfo)
    obtain rfl := Except.ok.inj (hinfo.symm.trans (review_info startTime endTime query hgs))
    rw [lib.parse_write, staysInside_iff lib rfl rfl rfl]
    intro ii t ht
    rw [List.getElem?_map] at ht
    obtain ⟨g, hg, rfl⟩ := Option.map_eq_some_iff.mp ht
    exact h _ hgs ii g hg

/-- A playlist whose EXTINF lines name the channel. -/
def namedText : JString :=
  "#EXTM3U\r\n#EXTINF:6.000,Channel One HD (live)\r\ncctv-1508151606.ts\r\n".toList

/-- Its review. -/
def namedReview : M3u8ReviewInfo where
  playMode := .review
  m3u8Title := some "#EXTM3U\r\n".toList
  argus := some "x=1".toList
  tsList := some [⟨some "#EXTINF:6.000,Channel One HD (live)".toList, "cctv-1508151606.ts".toList⟩]

/-- **An EXTINF line of 35 bytes** is formatted into `tspre` with 38. -/
theorem review_outside_buffers :
    (FilterCall.review 1508151600 1508151610).info (some "x=1".toList) (textFile namedText)
        = .ok (.review namedReview)
      ∧ (tspre 0 (some (utf8 "#EXTINF:6.000,Channel One HD (live)".toList))).length + 1 = 38
      ∧ ¬ StaysInside printedJson (printedJson.jsonTokenerParse (printedJson.writeValueAsString
          (CommonResp.toJson ⟨ErrorCode.ok.value, "OK".toList, some (.review namedReview)⟩))) := by
  refine ⟨by decide +kernel, by decide +kernel, ?_⟩
  rw [parse_written, staysInside_iff printedJson rfl rfl rfl]
  intro h
  have hfits := (h 0 _ rfl).1
  exact absurd hfits (by decide +kernel)

end NginxNettyHls.Nginx
