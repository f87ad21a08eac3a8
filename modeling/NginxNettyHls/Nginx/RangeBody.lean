/-
  NginxNettyHls.Nginx.RangeBody
  ─────────────────────────────
  **WHAT IS SENT OF A SEGMENT FOR A `Range` HEADER.**

  The header filter of `ngx_http_range_filter_module` announces a length, and its
  body filter cuts the body to the ranges, however the body comes in buffers and
  calls; for several ranges it puts a part with a header of its own around each.

    • `singlepart_exact` — one range: exactly its bytes, for every cut of the body;
    • `ts_announced_length` — a `.ts` request: where the header of the file is sent, as
      many bytes follow as it announces; where the range is not satisfiable, the handler
      does not notice, and the whole file is sent without any header; and so it is behind
      a 304 or a 412.
-/
import NginxNettyHls.Nginx.NotModified
import NginxNettyHls.Nginx.RangeParse

namespace NginxNettyHls.Nginx

open NginxNettyHls.M3u8Filter

/-! ## §1. One range. -/

/-- A buffer of the body, in memory or in a file, by what it holds. -/
structure BodyBuf where
  bytes : Bytes
  /-- `ngx_buf_special` -/
  special : Bool
  lastBuf : Bool
  empty : special = true → bytes = []
  deriving Repr, DecidableEq

namespace BodyBuf

def size (b : BodyBuf) : Int := b.bytes.length

/-- A buffer with bytes. -/
def plain (bytes : Bytes) (lastBuf : Bool) : BodyBuf := ⟨bytes, false, lastBuf, by simp⟩

end BodyBuf

/-- The bytes of a chain of them. -/
def bodyBytes (chain : List BodyBuf) : Bytes := chain.flatMap BodyBuf.bytes

/-- `file_pos += range->start - start` when the range begins inside the buffer. -/
def Range.skipped (range : Range) (start : Int) : Nat := (range.start - start).toNat

/-- The loop of `ngx_http_range_singlepart_body`: `ctx->offset` after it, and `out`. -/
def ngxHttpRangeSinglepartBody (range : Range) : Int → List BodyBuf → Int × List BodyBuf
  | offset, [] => (offset, [])
  | offset, buf :: rest =>
      let start := offset
      let last := offset + buf.size
      if buf.special then
        let more := ngxHttpRangeSinglepartBody range last rest
        (more.1, buf :: more.2)
      else if range.stop ≤ start ∨ last ≤ range.start then
        -- emptied; behind a special buffer it stays in the chain, without bytes
        ngxHttpRangeSinglepartBody range last rest
      else if range.stop ≤ last then
        -- the rest of the chain is dropped
        (last, [.plain ((buf.bytes.take (range.stop - start).toNat).drop (range.skipped start))
          true])
      else
        let more := ngxHttpRangeSinglepartBody range last rest
        (more.1, .plain (buf.bytes.drop (range.skipped start)) buf.lastBuf :: more.2)

/-- The calls of the body filter, one chain each; a call with `NULL` is passed on as it is. -/
def singlepartCalls (range : Range) : Int → List (List BodyBuf) → List BodyBuf
  | _, [] => []
  | offset, chain :: calls =>
      let out := ngxHttpRangeSinglepartBody range offset chain
      out.2 ++ singlepartCalls range out.1 calls

/-- The bytes from `start` up to `stop`. -/
def slice (start stop : Int) (bytes : Bytes) : Bytes :=
  (bytes.take stop.toNat).drop start.toNat

theorem slice_nil_of_le {start stop : Int} (h : stop ≤ 0) (bytes : Bytes) :
    slice start stop bytes = [] := by
  unfold slice
  rw [Int.toNat_of_nonpos h, List.take_zero, List.drop_nil]

theorem slice_nil_of_length_le {start stop : Int} {bytes : Bytes}
    (h : (bytes.length : Int) ≤ start) : slice start stop bytes = [] := by
  unfold slice
  apply List.drop_eq_nil_of_le
  rw [List.length_take]
  omega

/-- A slice of two parts. -/
theorem slice_append (start stop : Int) (first rest : Bytes) :
    slice start stop (first ++ rest) = slice start stop first
      ++ slice (start - first.length) (stop - first.length) rest := by
  unfold slice
  rw [List.take_append, List.drop_append, List.length_take]
  by_cases hstop : stop ≤ first.length
  · have hnone : stop.toNat - first.length = 0 := by omega
    have hnone' : (stop - first.length).toNat = 0 := by omega
    rw [hnone, hnone', List.take_zero, List.drop_nil, List.drop_nil]
  · have htake : stop.toNat - first.length = (stop - first.length).toNat := by omega
    have hdrop : start.toNat - min stop.toNat first.length = (start - first.length).toNat := by
      omega
    rw [htake, hdrop]

/-- A range inside the content has all its bytes. -/
theorem length_slice {bytes : Bytes} {range : Range} (h : range.Inside bytes.length) :
    ((slice range.start range.stop bytes).length : Int) = range.stop - range.start := by
  have hstart := h.start
  have hnonempty := h.nonempty
  have hstop := h.stop
  unfold slice
  rw [List.length_drop, List.length_take]
  omega

/-- **One call** passes on what of its chain is in the range. -/
theorem singlepart_bytes (range : Range) :
    ∀ (chain : List BodyBuf) (offset : Int),
      bodyBytes (ngxHttpRangeSinglepartBody range offset chain).2
        = slice (range.start - offset) (range.stop - offset) (bodyBytes chain) := by
  intro chain
  induction chain with
  | nil => intro offset; simp [ngxHttpRangeSinglepartBody, bodyBytes, slice]
  | cons buf rest ih =>
      intro offset
      have hcons : bodyBytes (buf :: rest) = buf.bytes ++ bodyBytes rest := rfl
      have hnext : ∀ x : Int, x - (offset + buf.size) = x - offset - (buf.bytes.length : Int) := by
        intro x
        unfold BodyBuf.size
        omega
      have hrest := ih (offset + buf.size)
      rw [hnext, hnext] at hrest
      unfold ngxHttpRangeSinglepartBody
      dsimp only
      unfold BodyBuf.size at hrest ⊢
      rw [hcons, slice_append, ← hrest]
      split_ifs with hspecial hskip hstop
      · -- a buffer of flags is passed on
        have hnone : slice (range.start - offset) (range.stop - offset) buf.bytes = buf.bytes := by
          rw [buf.empty hspecial]
          simp [slice]
        rw [hnone]
        rfl
      · -- a buffer before or behind the range
        have hnone : slice (range.start - offset) (range.stop - offset) buf.bytes = [] := by
          rcases hskip with hbehind | hbefore
          · exact slice_nil_of_le (by omega) _
          · exact slice_nil_of_length_le (by omega)
        rw [hnone, List.nil_append]
      · -- the range ends here
        rw [hrest, slice_nil_of_le (by omega) (bodyBytes rest)]
        rfl
      · have hrest' : slice (range.start - offset) (range.stop - offset) buf.bytes
            = buf.bytes.drop (range.skipped offset) := by
          unfold slice Range.skipped
          rw [List.take_of_length_le (by omega)]
        rw [hrest']
        rfl

/-- `ctx->offset` after a call: behind the chain, or not before the end of the range. -/
theorem singlepart_offset (range : Range) :
    ∀ (chain : List BodyBuf) (offset : Int),
      (ngxHttpRangeSinglepartBody range offset chain).1 = offset + (bodyBytes chain).length
        ∨ (range.stop ≤ (ngxHttpRangeSinglepartBody range offset chain).1
          ∧ (ngxHttpRangeSinglepartBody range offset chain).1
            ≤ offset + (bodyBytes chain).length) := by
  intro chain
  induction chain with
  | nil => intro offset; exact .inl (by simp [ngxHttpRangeSinglepartBody, bodyBytes])
  | cons buf rest ih =>
      intro offset
      have hlength : offset + (bodyBytes (buf :: rest)).length
          = offset + buf.size + (bodyBytes rest).length := by
        show offset + ((buf.bytes ++ bodyBytes rest).length : Int) = _
        rw [List.length_append]
        unfold BodyBuf.size
        push_cast
        omega
      unfold ngxHttpRangeSinglepartBody
      dsimp only
      rw [hlength]
      split_ifs with hspecial hskip hstop
      · exact ih _
      · exact ih _
      · exact .inr ⟨hstop, by dsimp only; omega⟩
      · exact ih _

/-- **Any number of calls** pass on what is in the range. -/
theorem singlepartCalls_bytes (range : Range) :
    ∀ (calls : List (List BodyBuf)) (offset : Int),
      bodyBytes (singlepartCalls range offset calls)
        = slice (range.start - offset) (range.stop - offset) (calls.flatMap bodyBytes) := by
  intro calls
  induction calls with
  | nil => intro offset; simp [singlepartCalls, bodyBytes, slice]
  | cons chain calls ih =>
      intro offset
      have hfirst := singlepart_bytes range chain offset
      have hrest := ih (ngxHttpRangeSinglepartBody range offset chain).1
      have hbytes : bodyBytes (singlepartCalls range offset (chain :: calls))
          = bodyBytes (ngxHttpRangeSinglepartBody range offset chain).2
            ++ bodyBytes (singlepartCalls range (ngxHttpRangeSinglepartBody range offset chain).1
              calls) := List.flatMap_append
      rw [hbytes, hfirst, hrest, List.flatMap_cons, slice_append]
      congr 1
      rcases singlepart_offset range chain offset with hbehind | ⟨hstop, hle⟩
      · rw [hbehind]
        congr 1 <;> omega
      · rw [slice_nil_of_le (by omega), slice_nil_of_le (by omega)]

/-- **Exactly the range**: however the content comes, in any number of calls, chains and
buffers, what is passed on for an accepted single range is its bytes, as many as announced. -/
theorem singlepart_exact (max : Nat) (value content : Bytes) (range : Range)
    (hparse : ngxHttpRangeParse content.length max value = .ok [range])
    (calls : List (List BodyBuf)) (hcontent : calls.flatMap bodyBytes = content) :
    bodyBytes (singlepartCalls range 0 calls) = slice range.start range.stop content
      ∧ ((bodyBytes (singlepartCalls range 0 calls)).length : Int) = range.stop - range.start := by
  have hinside := (accepted_of_parse hparse).inside range (List.mem_singleton.mpr rfl)
  have hbytes := singlepartCalls_bytes range calls 0
  rw [Int.sub_zero, Int.sub_zero, hcontent] at hbytes
  exact ⟨hbytes, by rw [hbytes]; exact length_slice hinside⟩

/-- The four bytes in the middle of a segment of eight, in two calls. -/
theorem singlepart_exact_half :
    bodyBytes (singlepartCalls ⟨2, 6⟩ 0
        [[.plain [0, 1, 2] false], [.plain [3, 4] false, .plain [5, 6, 7] true]])
      = [2, 3, 4, 5] :=
  (singlepart_exact 1 [50, 45, 53] [0, 1, 2, 3, 4, 5, 6, 7] ⟨2, 6⟩ (by decide +kernel)
    [[.plain [0, 1, 2] false], [.plain [3, 4] false, .plain [5, 6, 7] true]] (by decide)).1

/-! ## §2. Several ranges. -/

/-- `NGX_ATOMIC_T_LEN`. -/
def ngxAtomicTLen : Nat := 20

/-- A temporary number as `%0muA` prints it. -/
abbrev Boundary := { text : Bytes // text.length = ngxAtomicTLen }

/-- `CRLF "--"` and the boundary. -/
def boundaryStart (boundary : Boundary) : Bytes := crlf ++ [45, 45] ++ boundary.val

/-- `ctx->boundary_header`, with the content type if there is one. -/
def boundaryHeader (boundary : Boundary) (contentType : Bytes) : Bytes :=
  boundaryStart boundary
    ++ (if contentType = [] then [] else crlf ++ fieldName "Content-Type: " ++ contentType)
    ++ crlf ++ fieldName "Content-Range: bytes "

/-- An `off_t` as `%O` prints it. -/
def offText (n : Int) : Bytes := (Nat.toDigits 10 n.toNat).map charByte

/-- `"%O-%O/%O" CRLF CRLF`. -/
def contentRange (contentLength : Int) (range : Range) : Bytes :=
  offText range.start ++ [45] ++ offText (range.stop - 1) ++ [47] ++ offText contentLength
    ++ crlf ++ crlf

/-- The size of the last boundary, `CRLF "--0123456789--" CRLF`. -/
def lastBoundarySize : Nat := 4 + ngxAtomicTLen + 4

/-- `content_length_n` after `ngx_http_range_multipart_header`. -/
def multipartLength (contentLength : Int) (header : Bytes) (ranges : List Range) : Int :=
  ranges.foldl (fun len range => len + (header.length + (contentRange contentLength range).length
    + (range.stop - range.start))) lastBoundarySize

/-- The three buffers of a part. -/
def rangePart (header : Bytes) (buf : BodyBuf) (range : Range) : List BodyBuf :=
  [.plain header false, .plain (contentRange buf.size range) false,
    .plain (slice range.start range.stop buf.bytes) false]

/-- `ngx_http_range_multipart_body` on the buffer with the whole content. -/
def ngxHttpRangeMultipartBody (header : Bytes) (ranges : List Range) (buf : BodyBuf) :
    List BodyBuf :=
  ranges.flatMap (rangePart header buf)
    ++ [.plain (header.take (4 + ngxAtomicTLen) ++ [45, 45] ++ crlf) true]

theorem length_boundaryHeader_le (boundary : Boundary) (contentType : Bytes) :
    4 + ngxAtomicTLen ≤ (boundaryHeader boundary contentType).length := by
  have hstart : (boundaryStart boundary).length = 4 + ngxAtomicTLen := by
    unfold boundaryStart
    rw [List.length_append, boundary.property]
    rfl
  unfold boundaryHeader
  simp only [List.length_append]
  omega

theorem multipartLength_append (contentLength : Int) (header : Bytes) (ranges : List Range)
    (range : Range) :
    multipartLength contentLength header (ranges ++ [range])
      = multipartLength contentLength header ranges
        + (header.length + (contentRange contentLength range).length
          + (range.stop - range.start)) := by
  unfold multipartLength
  rw [List.foldl_append]
  rfl

/-- **As many bytes as announced** for several ranges. -/
theorem length_multipart {header : Bytes} (hheader : 4 + ngxAtomicTLen ≤ header.length)
    (buf : BodyBuf) (ranges : List Range) (hinside : ∀ range ∈ ranges, range.Inside buf.size) :
    ((bodyBytes (ngxHttpRangeMultipartBody header ranges buf)).length : Int)
      = multipartLength buf.size header ranges := by
  -- the sum is taken from the left, so the last part is split off
  induction ranges using List.reverseRecOn with
  | nil =>
      show (((header.take (4 + ngxAtomicTLen) ++ [45, 45] ++ crlf) ++ []).length : Int)
        = lastBoundarySize
      rw [List.append_nil, List.length_append, List.length_append, List.length_take,
        Nat.min_eq_left hheader]
      rfl
  | append_singleton ranges range ih =>
      have hlast : range.Inside buf.size :=
        hinside range (List.mem_append_right _ (List.mem_singleton.mpr rfl))
      have hprevious := ih (fun x hx => hinside x (List.mem_append_left _ hx))
      have hslice := length_slice hlast
      have hpart : bodyBytes (rangePart header buf range)
          = header ++ (contentRange buf.size range
            ++ (slice range.start range.stop buf.bytes ++ [])) := rfl
      unfold ngxHttpRangeMultipartBody bodyBytes at hprevious ⊢
      unfold bodyBytes at hpart
      rw [multipartLength_append, ← hprevious]
      simp only [List.flatMap_append, List.flatMap_cons, List.flatMap_nil, List.append_nil,
        List.length_append, hpart]
      push_cast
      omega

/-! ## §3. The filters. -/

/-- What the header filter reads besides the header. -/
structure RangeEnv where
  /-- `r->http_version >= NGX_HTTP_VERSION_10` -/
  http10 : Bool
  range : Option Bytes
  ifRange : Option Bytes
  /-- `ngx_parse_http_time` -/
  parseHttpTime : Bytes → Int
  maxRanges : Nat
  singleRange : Bool
  boundary : Boundary

/-- The `If-Range` header, if there is one, names the content as it is. -/
def RangeEnv.unchanged (env : RangeEnv) (header : HeadersOut) : Bool :=
  match env.ifRange with
  | none => true
  | some v =>
      if 2 ≤ v.length ∧ v.getLast? = some 34 then decide (header.etag = some v)
      else decide (header.lastModifiedTime ≠ -1
        ∧ env.parseHttpTime v = header.lastModifiedTime)

/-- What the header filter does for a main request. -/
structure Ranged where
  rc : Int
  /-- The header that is given to the next filter, and so sent. -/
  sent : Option HeadersOut
  /-- The context for the body filter. -/
  ranges : Option (List Range)

/-- `ngx_http_next_header_filter(r)`. -/
def Ranged.pass (next : HeadersOut → Int) (ranges : Option (List Range)) (header : HeadersOut) :
    Ranged :=
  ⟨next header, some header, ranges⟩

/-- `ngx_http_range_singlepart_header`. -/
def singlepartHeader (range : Range) (header : HeadersOut) : HeadersOut :=
  { header with status := 206, contentLengthN := (range.stop - range.start).toNat }

/-- `ngx_http_range_multipart_header`. -/
def multipartHeader (boundary : Boundary) (ranges : List Range) (header : HeadersOut) :
    HeadersOut :=
  let contentType := fieldName "multipart/byteranges; boundary=" ++ boundary.val
  { header with
    status := 206
    contentLengthN := (multipartLength header.contentLengthN
      (boundaryHeader boundary header.contentType) ranges).toNat
    contentType := contentType
    contentTypeLen := contentType.length }

/-- `ngx_http_range_header_filter` from `parse` on. -/
def rangeHeader (env : RangeEnv) (next : HeadersOut → Int) (header : HeadersOut)
    (value : Bytes) : Ranged :=
  match ngxHttpRangeParse header.contentLengthN
      (if env.singleRange then 1 else env.maxRanges) (value.drop 6) with
  | .ok [range] => .pass next (some [range]) (singlepartHeader range header)
  | .ok ranges => .pass next (some ranges) (multipartHeader env.boundary ranges header)
  -- no header is sent
  | .error .notSatisfiable => ⟨416, none, none⟩
  | .error .declined => .pass next none header

/-- `ngx_http_range_header_filter`. -/
def ngxHttpRangeHeaderFilter (env : RangeEnv) (next : HeadersOut → Int) (header : HeadersOut) :
    Ranged :=
  if !env.http10 || decide (header.status ≠ 200) || !header.allowRanges
      || decide (env.maxRanges = 0) then .pass next none header
  else
    match env.range with
    | none => .pass next none header
    | some value =>
        if value.length < 7 ∨ ngxStrncasecmp 6 value (fieldName "bytes=") ≠ 0
            ∨ env.unchanged header = false then .pass next none header
        else rangeHeader env next header value

/-- What the header filter can do. -/
inductive RangeOutcome (env : RangeEnv) (next : HeadersOut → Int) (header : HeadersOut) :
    Ranged → Prop where
  | whole : RangeOutcome env next header (.pass next none header)
  | notSatisfiable : RangeOutcome env next header ⟨416, none, none⟩
  | single (range : Range) (inside : range.Inside header.contentLengthN) :
      RangeOutcome env next header (.pass next (some [range]) (singlepartHeader range header))
  | several (first second : Range) (rest : List Range)
      (inside : ∀ range ∈ first :: second :: rest, range.Inside header.contentLengthN) :
      RangeOutcome env next header (.pass next (some (first :: second :: rest))
        (multipartHeader env.boundary (first :: second :: rest) header))

theorem rangeHeader_outcome (env : RangeEnv) (next : HeadersOut → Int) (header : HeadersOut)
    (value : Bytes) : RangeOutcome env next header (rangeHeader env next header value) := by
  unfold rangeHeader
  cases hparse : ngxHttpRangeParse header.contentLengthN
      (if env.singleRange then 1 else env.maxRanges) (value.drop 6) with
  | error refusal =>
      cases refusal with
      | notSatisfiable => exact .notSatisfiable
      | declined => exact .whole
  | ok ranges =>
      have haccepted := accepted_of_parse hparse
      match ranges, haccepted with
      | [], h => exact absurd rfl h.nonempty
      | [range], h => exact .single range (h.inside range (List.mem_singleton.mpr rfl))
      | first :: second :: rest, h => exact .several first second rest h.inside

theorem rangeHeaderFilter_outcome (env : RangeEnv) (next : HeadersOut → Int)
    (header : HeadersOut) :
    RangeOutcome env next header (ngxHttpRangeHeaderFilter env next header) := by
  unfold ngxHttpRangeHeaderFilter
  split_ifs with hpass
  · exact .whole
  · cases env.range with
    | none => exact .whole
    | some value =>
        dsimp only
        split_ifs with hvalue
        · exact .whole
        · exact rangeHeader_outcome env next header value

/-- `ngx_http_range_test_overlapped` at offset 0: several ranges have to be in one buffer. -/
def overlapped (ranges : List Range) (buf : BodyBuf) : Bool :=
  !buf.lastBuf
    && ranges.any (fun range => decide (range.start < 0) || decide (buf.size < range.stop))

/-- `ngx_http_range_body_filter` on the first chain; `none` is `NGX_ERROR`. -/
def ngxHttpRangeBodyFilter (ranges : Option (List Range)) (header : Bytes)
    (chain : List BodyBuf) : Option (List BodyBuf) :=
  match ranges with
  | none => some chain
  | some [range] => some (ngxHttpRangeSinglepartBody range 0 chain).2
  | some ranges =>
      match chain with
      | [] => some []
      | buf :: rest =>
          if buf.special then some (buf :: rest)
          else if overlapped ranges buf then none
          else some (ngxHttpRangeMultipartBody header ranges buf)

/-! ## §4. The `.ts` handler. -/

/-- What the header filters make of the header of a file. -/
inductive FilteredHeader where
  | ranged (out : Ranged)
  /-- A 304 without a length, which the range filter passes on. -/
  | notModified
  /-- A 412 and its page. -/
  | preconditionFailed

/-- `ngx_http_top_header_filter`: the conditions of a request come before its ranges. -/
def ngxHttpTopHeaderFilter (c : Conditions) (env : RangeEnv) (next : HeadersOut → Int)
    (header : HeadersOut) : FilteredHeader :=
  match ngxHttpNotModifiedHeaderFilter c
      ⟨header.status, header.lastModifiedTime, header.etag⟩ with
  | .unchanged => .ranged (ngxHttpRangeHeaderFilter env next header)
  | .notModified => .notModified
  | .preconditionFailed => .preconditionFailed

/-- The context the range body filter finds. -/
def FilteredHeader.ranges : FilteredHeader → Option (List Range)
  | .ranged out => out.ranges
  -- for a status other than 200 there is none, and for a 412 all of them have been cleared
  | .notModified => none
  | .preconditionFailed => none

/-- The chain of the buffer a handler hands over, for a file with the content `file`. -/
def FileBuf.chain (b : FileBuf) (file : Bytes) : List BodyBuf :=
  if b.inFile then [.plain (slice b.filePos b.fileLast file) b.lastBuf]
  else [⟨[], b.lastBuf, b.lastBuf, fun _ => rfl⟩]

/-- `r->err_status` changes the status only. -/
theorem sendHeader_contentLengthN {env : FileEnv} {r : FileRequest} {header given : HeadersOut}
    (h : (ngxHttpSendHeader env r header).given = some given) :
    given.contentLengthN = header.contentLengthN := by
  unfold ngxHttpSendHeader at h
  dsimp only at h
  split_ifs at h with haction hsent herr
  · obtain rfl := Option.some.inj h
    rfl
  · obtain rfl := Option.some.inj h
    rfl

/-- What the `.ts` handler hands over: the whole file, with its length in the header. -/
structure WholeFile (header : HeadersOut) (buf : FileBuf) : Prop where
  length : header.contentLengthN = buf.fileLast
  filePos : buf.filePos = 0
  lastBuf : buf.lastBuf = true
  inFile : buf.inFile = decide (buf.fileLast ≠ 0)

theorem ts_served {env : FileEnv} {r : FileRequest} {header : HeadersOut} {buf : FileBuf}
    (hheader : (ngxHttpHlstsHandler env r).header = some header)
    (hbody : (ngxHttpHlstsHandler env r).body = some buf) : WholeFile header buf := by
  have hexit : ∀ rc, (Served.exit rc).header ≠ some header := by simp [Served.exit]
  unfold ngxHttpHlstsHandler at hheader hbody
  split_ifs at hheader hbody with hmethod huri hdiscard
  · exact absurd hheader (hexit _)
  · exact absurd hheader (hexit _)
  · exact absurd hheader (hexit _)
  · cases hopen : openPath env with
    | error rc =>
        rw [hopen] at hheader
        exact absurd hheader (hexit _)
    | ok opened =>
        obtain ⟨path, f⟩ := opened
        rw [hopen] at hheader hbody
        unfold serveTs at hheader hbody
        dsimp only at hheader hbody
        split_ifs at hheader hbody with hfile hbuf hbufFile
        · exact absurd hheader (hexit _)
        · exact absurd hheader (hexit _)
        · exact absurd hheader (hexit _)
        · obtain rfl := Option.some.inj hbody
          exact ⟨sendHeader_contentLengthN hheader, rfl, rfl, rfl⟩

/-- The chain of the whole file. -/
theorem WholeFile.chain {header : HeadersOut} {buf : FileBuf} (h : WholeFile header buf)
    {file : Bytes} (hlength : file.length = buf.fileLast) :
    bodyBytes (buf.chain file) = file
      ∧ (file ≠ [] → buf.chain file = [.plain file true]) := by
  have hslice : slice buf.filePos buf.fileLast file = file := by
    unfold slice
    rw [h.filePos, ← hlength]
    simp
  unfold FileBuf.chain
  simp only [h.inFile, h.lastBuf, hslice]
  by_cases hempty : file = []
  · have hzero : buf.fileLast = 0 := by rw [← hlength, hempty]; rfl
    rw [if_neg (by simp [hzero])]
    exact ⟨hempty.symm, fun hne => absurd hempty hne⟩
  · have hne : buf.fileLast ≠ 0 := by
      rw [← hlength]
      exact fun hzero => hempty (List.length_eq_zero_iff.mp hzero)
    rw [if_pos (by simp [hne])]
    exact ⟨List.append_nil file, fun _ => rfl⟩

/-- What is sent of `file`: the header, and the bytes the body filter passes on. -/
structure SegmentSent (file : Bytes) (header : FilteredHeader) (body : Option (List BodyBuf)) :
    Prop where
  /-- Where the header of the file is sent, as many bytes follow as it announces. -/
  announced : ∀ out sent, header = .ranged out → out.sent = some sent →
    ∃ chain, body = some chain ∧ (bodyBytes chain).length = sent.contentLengthN
  /-- Where none is sent, the whole file is. -/
  raw : ∀ out, header = .ranged out → out.sent = none →
    out.rc = 416 ∧ ∃ chain, body = some chain ∧ bodyBytes chain = file
  /-- Behind another header, which does not announce it, the whole file is sent as well. -/
  unannounced : (header = .notModified ∨ header = .preconditionFailed) →
    ∃ chain, body = some chain ∧ bodyBytes chain = file

/-- A header that is sent leaves one thing to show. -/
theorem sent_of_announced {file : Bytes} {next : HeadersOut → Int} {ranges : Option (List Range)}
    {header : HeadersOut} {body : Option (List BodyBuf)}
    (h : ∀ sent, (Ranged.pass next ranges header).sent = some sent →
      ∃ chain, body = some chain ∧ (bodyBytes chain).length = sent.contentLengthN) :
    SegmentSent file (.ranged (.pass next ranges header)) body := by
  refine ⟨?_, ?_, by simp⟩
  · rintro out sent ⟨⟩ hsent
    exact h sent hsent
  · rintro out ⟨⟩ hnone
    exact nomatch hnone

/-- What the range filters send of a file that is passed to them. -/
theorem ranged_announced {header : HeadersOut} {buf : FileBuf} (hwhole : WholeFile header buf)
    {file : Bytes} (hlength : file.length = buf.fileLast) (renv : RangeEnv)
    (next : HeadersOut → Int) :
    SegmentSent file (.ranged (ngxHttpRangeHeaderFilter renv next header))
      (ngxHttpRangeBodyFilter (ngxHttpRangeHeaderFilter renv next header).ranges
        (boundaryHeader renv.boundary header.contentType) (buf.chain file)) := by
  obtain ⟨hbytes, hchain⟩ := hwhole.chain hlength
  have hannounced : header.contentLengthN = file.length := by rw [hwhole.length, hlength]
  -- a range that is accepted is not empty, so the file is not
  have hplain : ∀ range : Range, range.Inside header.contentLengthN →
      buf.chain file = [.plain file true] := by
    intro range hinside
    apply hchain
    rintro rfl
    have hstart := hinside.start
    have hnonempty := hinside.nonempty
    have hstop := hinside.stop
    rw [hannounced] at hstop
    simp only [List.length_nil] at hstop
    omega
  generalize hout : ngxHttpRangeHeaderFilter renv next header = out
  have houtcome := rangeHeaderFilter_outcome renv next header
  rw [hout] at houtcome
  cases houtcome with
  | whole =>
      refine sent_of_announced fun sent hsent => ?_
      obtain rfl := Option.some.inj hsent
      exact ⟨_, rfl, by rw [hbytes, hannounced]⟩
  | notSatisfiable =>
      refine ⟨?_, ?_, by simp⟩
      · rintro out sent ⟨⟩ ⟨⟩
      · rintro out ⟨⟩ -
        exact ⟨rfl, _, rfl, hbytes⟩
  | single range hinside =>
      refine sent_of_announced fun sent hsent => ?_
      obtain rfl := Option.some.inj hsent
      refine ⟨_, rfl, ?_⟩
      have hslice := length_slice (hannounced ▸ hinside)
      have hpart := singlepart_bytes range (buf.chain file) 0
      rw [Int.sub_zero, Int.sub_zero, hbytes] at hpart
      rw [hpart]
      show (slice range.start range.stop file).length = (range.stop - range.start).toNat
      omega
  | several first second rest hinside =>
      refine sent_of_announced fun sent hsent => ?_
      obtain rfl := Option.some.inj hsent
      rw [hplain first (hinside first List.mem_cons_self)]
      refine ⟨_, rfl, ?_⟩
      have hsize : (BodyBuf.plain file true).size = header.contentLengthN := by
        rw [hannounced]; rfl
      have hlen := length_multipart (length_boundaryHeader_le renv.boundary header.contentType)
        (.plain file true) (first :: second :: rest) (hsize ▸ hinside)
      rw [hsize] at hlen
      show _ = (multipartLength header.contentLengthN _ _).toNat
      rw [← hlen]
      rfl

/-- **As many bytes as announced, or a file without a length**: for every `.ts` request that is
served, all its conditions, every `Range` and `If-Range` header and every chain of further header
filters. -/
theorem ts_announced_length (env : FileEnv) (r : FileRequest) (header : HeadersOut)
    (buf : FileBuf) (hheader : (ngxHttpHlstsHandler env r).header = some header)
    (hbody : (ngxHttpHlstsHandler env r).body = some buf) (file : Bytes)
    (hlength : file.length = buf.fileLast) (c : Conditions) (renv : RangeEnv)
    (next : HeadersOut → Int) :
    SegmentSent file (ngxHttpTopHeaderFilter c renv next header)
      (ngxHttpRangeBodyFilter (ngxHttpTopHeaderFilter c renv next header).ranges
        (boundaryHeader renv.boundary header.contentType) (buf.chain file)) := by
  have hwhole := ts_served hheader hbody
  obtain ⟨hbytes, -⟩ := hwhole.chain hlength
  unfold ngxHttpTopHeaderFilter
  cases ngxHttpNotModifiedHeaderFilter c
      ⟨header.status, header.lastModifiedTime, header.etag⟩ with
  | unchanged => exact ranged_announced hwhole hlength renv next
  | notModified => exact ⟨by simp, by simp, fun _ => ⟨_, rfl, hbytes⟩⟩
  | preconditionFailed => exact ⟨by simp, by simp, fun _ => ⟨_, rfl, hbytes⟩⟩

/-- A request with a `Range` header. -/
def segmentRange (value : Bytes) : RangeEnv where
  http10 := true
  range := some value
  ifRange := none
  parseHttpTime := fun _ => -1
  maxRanges := 100
  singleRange := false
  boundary := ⟨List.replicate ngxAtomicTLen 48, rfl⟩

/-- A segment of 1024 bytes. -/
def segmentFile : OpenFile := ⟨7, 1024, 1508153098, false, true⟩

/-- A client that has it already. -/
def revalidation : Conditions :=
  { unconditional with ifModifiedSince := some [], parseHttpTime := fun _ => 1508153098 }

/-- `bytes=0-99` of a segment of 1024 bytes, `bytes=2000-`, which it does not have, and a client
that has it already: a 304 and the whole segment. -/
theorem ts_announced_length_segment :
    (∃ chain, ngxHttpRangeBodyFilter (some [⟨0, 100⟩])
        (boundaryHeader (segmentRange []).boundary (fieldName "application/octet-stream"))
        ((tsBuf (segmentEnv headerOnlyForHead) [] segmentFile).chain (List.replicate 1024 0))
          = some chain
      ∧ (bodyBytes chain).length = 100)
    ∧ (ngxHttpRangeHeaderFilter (segmentRange (fieldName "bytes=2000-")) (fun _ => ngxOk)
        (tsHeader (segmentRequest .get) segmentFile)).rc = 416
    ∧ ngxHttpTopHeaderFilter revalidation (segmentRange (fieldName "bytes=0-99"))
        (fun _ => ngxOk) (tsHeader (segmentRequest .get) segmentFile) = .notModified
    ∧ ∃ chain, ngxHttpRangeBodyFilter none
        (boundaryHeader (segmentRange []).boundary (fieldName "application/octet-stream"))
        ((tsBuf (segmentEnv headerOnlyForHead) [] segmentFile).chain (List.replicate 1024 0))
          = some chain
      ∧ bodyBytes chain = List.replicate 1024 0 :=
  ⟨(ts_announced_length (segmentEnv headerOnlyForHead) (segmentRequest .get) _ _ rfl rfl
      (List.replicate 1024 0) List.length_replicate unconditional
      (segmentRange (fieldName "bytes=0-99")) (fun _ => ngxOk)).announced _ _ rfl rfl,
    ((ts_announced_length (segmentEnv headerOnlyForHead) (segmentRequest .get) _ _ rfl rfl
      (List.replicate 1024 0) List.length_replicate unconditional
      (segmentRange (fieldName "bytes=2000-")) (fun _ => ngxOk)).raw _ rfl rfl).1,
    rfl,
    (ts_announced_length (segmentEnv headerOnlyForHead) (segmentRequest .get) _ _ rfl rfl
      (List.replicate 1024 0) List.length_replicate revalidation
      (segmentRange (fieldName "bytes=0-99")) (fun _ => ngxOk)).unannounced (Or.inl rfl)⟩

end NginxNettyHls.Nginx
