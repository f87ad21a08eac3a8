/-
  NginxNettyHls.Nginx.UpstreamAnswer
  ──────────────────────────────────
  **THE HEAD OF AN ANSWER, WRITTEN AND READ BACK.**

  `channel_response` hands a status, its headers and a body to Netty's encoder, of which
  only the layout of HTTP/1.1 is assumed; nginx reads the head back with the machines of
  `ngx_http_parse.c`.

    • `header_read_back` — what is written as status line and header lines is read back,
      for every cut, and nothing of the body is touched;
    • `channelResponse_layout` — what nginx makes of the answers of m3u8-filter: the
      status and the length of the body.
-/
import Mathlib.Data.Nat.Digits.Lemmas
import NginxNettyHls.Nginx.UpstreamHeader

namespace NginxNettyHls.Nginx

open NginxNettyHls.M3u8Filter
open Text

/-! ## §1. What an encoder writes. -/

/-- A byte of a header name. -/
def NameByte (b : UInt8) : Prop := lowcase b ≠ 0 ∨ b = 95

structure IsName (name : Bytes) : Prop where
  nonempty : name ≠ []
  bytes : ∀ b ∈ name, NameByte b

/-- A header value: no control of a line in it, and no space at its ends. -/
structure IsValue (value : Bytes) : Prop where
  bytes : ∀ b ∈ value, b ≠ 0 ∧ b ≠ 10 ∧ b ≠ 13
  head : value.head? ≠ some 32
  last : value.getLast? ≠ some 32

instance (b : UInt8) : Decidable (NameByte b) := inferInstanceAs (Decidable (_ ∨ _))

instance (name : Bytes) : Decidable (IsName name) :=
  decidable_of_iff (name ≠ [] ∧ (name.all fun b => decide (NameByte b)) = true)
    ⟨fun h => ⟨h.1, by simpa using h.2⟩, fun h => ⟨h.nonempty, by simpa using h.bytes⟩⟩

instance (value : Bytes) : Decidable (IsValue value) :=
  decidable_of_iff ((value.all fun b => decide (b ≠ 0 ∧ b ≠ 10 ∧ b ≠ 13)) = true
      ∧ value.head? ≠ some 32 ∧ value.getLast? ≠ some 32)
    ⟨fun h => ⟨by simpa using h.1, h.2.1, h.2.2⟩,
      fun h => ⟨by simpa using h.bytes, h.head, h.last⟩⟩

/-- The head of an answer. -/
structure HttpHead where
  code : Nat
  reason : Bytes
  headers : List (Bytes × Bytes)
  three_digits : 100 ≤ code ∧ code ≤ 999
  reason_line : ∀ b ∈ reason, b ≠ 10 ∧ b ≠ 13
  names : ∀ h ∈ headers, IsName h.1
  values : ∀ h ∈ headers, IsValue h.2

def headerText (h : Bytes × Bytes) : Bytes := h.1 ++ (58 :: 32 :: (h.2 ++ crlf))

namespace HttpHead

/-- `200 OK` -/
def status (h : HttpHead) : Bytes :=
  digitsText [h.code / 100, h.code / 10 % 10, h.code % 10] ++ 32 :: h.reason

def statusText (h : HttpHead) : Bytes := fieldName "HTTP/1.1 " ++ (h.status ++ crlf)

/-- The layout of HTTP/1.1: the status line, a line for each header, and an empty line. -/
def text (h : HttpHead) : Bytes := h.statusText ++ (h.headers.flatMap headerText ++ crlf)

end HttpHead

/-! ## §2. A header line is read back. -/

theorem nameByte_cases {b : UInt8} (h : NameByte b) :
    (lowcase b ≠ 0 ∧ lowcase b = ngxTolower b)
      ∨ (lowcase b = 0 ∧ b = 95 ∧ ngxTolower b = b) := by
  have hall : ∀ n < 256, NameByte (UInt8.ofNat n) →
      (lowcase (UInt8.ofNat n) ≠ 0 ∧ lowcase (UInt8.ofNat n) = ngxTolower (UInt8.ofNat n))
        ∨ (lowcase (UInt8.ofNat n) = 0 ∧ UInt8.ofNat n = 95
          ∧ ngxTolower (UInt8.ofNat n) = UInt8.ofNat n) := by
    unfold NameByte
    decide +kernel
  have hb : UInt8.ofNat b.toNat = b := UInt8.ofNat_toNat
  have := hall b.toNat b.toNat_lt
  rw [hb] at this
  exact this h

/-- The positions of a text in the buffer. -/
theorem between_append (seen text rest : Bytes) :
    between seen.length (seen.length + text.length) (seen ++ (text ++ rest)) = text := by
  unfold between
  rw [← List.append_assoc, List.take_left' (by rw [List.length_append]), List.drop_left]

/-- The machine in the middle of a name that began at `p`. -/
structure NameRead (line : HeaderLine) (p : Nat) (name : Bytes) : Prop where
  state : line.state = .name
  nameStart : line.nameStart = p
  hash : line.hash = ngxHashKey (name.map ngxTolower)
  index : line.lowcaseIndex = name.length % ngxHttpLcHeaderLen
  room : line.lowcaseHeader.length = ngxHttpLcHeaderLen
  low : name.length < ngxHttpLcHeaderLen →
    line.lowcaseHeader.take name.length = name.map ngxTolower

theorem take_succ_set (l : Bytes) {i : Nat} (h : i < l.length) (c : UInt8) :
    (l.set i c).take (i + 1) = l.take i ++ [c] := by
  rw [List.take_add_one, List.getElem?_set_self h, List.take_set_of_le (Nat.le_refl i)]
  rfl

theorem nameByte_ne {b : UInt8} (h : NameByte b) : b ≠ 13 ∧ b ≠ 10 := by
  constructor
  · intro hb
    rw [hb] at h
    exact absurd h (by unfold NameByte; decide)
  · intro hb
    rw [hb] at h
    exact absurd h (by unfold NameByte; decide)

/-- The first byte of a name. -/
theorem NameRead.first {line : HeaderLine} (hroom : line.lowcaseHeader.length = ngxHttpLcHeaderLen)
    (p : Nat) {b : UInt8} (hb : NameByte b) :
    ∃ line', nameStartStep line p b = .go line' ∧ NameRead line' p [b] := by
  obtain ⟨hcr, hlf⟩ := nameByte_ne hb
  have htake : (line.lowcaseHeader.set 0 (ngxTolower b)).take 1 = [ngxTolower b] := by
    rw [take_succ_set _ (by rw [hroom]; decide), List.take_zero, List.nil_append]
  refine ⟨{ line with
      nameStart := p, invalidHeader := false, state := .name : HeaderLine }.first (ngxTolower b),
    ?_, rfl, rfl, rfl, rfl, (List.length_set).trans hroom, fun _ => htake⟩
  unfold nameStartStep
  dsimp only
  rw [if_neg hcr, if_neg hlf]
  rcases nameByte_cases hb with ⟨hne, hlow⟩ | ⟨hzero, h95, hlow⟩
  · rw [if_pos hne, hlow]
  · rw [if_neg (not_not.mpr hzero), if_pos h95, hlow]

/-- A further byte. -/
theorem NameRead.push {line : HeaderLine} {p : Nat} {name : Bytes} (h : NameRead line p name)
    (seen : Bytes) {b : UInt8} (hb : NameByte b) :
    ∃ line', headerLineStep seen line b = .go line' ∧ NameRead line' p (name ++ [b]) := by
  have hindex : line.lowcaseIndex < line.lowcaseHeader.length := by
    rw [h.index, h.room]
    exact Nat.mod_lt _ (by decide)
  refine ⟨line.push (ngxTolower b), ?_, h.state, h.nameStart, ?_, ?_,
    (List.length_set).trans h.room, ?_⟩
  · unfold headerLineStep nameStep
    rw [h.state]
    dsimp only
    rcases nameByte_cases hb with ⟨hne, hlow⟩ | ⟨hzero, h95, hlow⟩
    · rw [if_pos hne, hlow]
    · rw [if_neg (not_not.mpr hzero), if_pos h95, hlow]
  · show ngxHash line.hash (ngxTolower b) = _
    rw [h.hash, List.map_append]
    unfold ngxHashKey
    rw [List.foldl_append]
    rfl
  · show (line.lowcaseIndex + 1) % ngxHttpLcHeaderLen = _
    rw [h.index, List.length_append, Nat.mod_add_mod]
    rfl
  · intro hlt
    rw [List.length_append, List.length_singleton] at hlt ⊢
    have hsame : line.lowcaseIndex = name.length := by
      rw [h.index]
      exact Nat.mod_eq_of_lt (by omega)
    show (line.lowcaseHeader.set line.lowcaseIndex (ngxTolower b)).take (name.length + 1) = _
    rw [← hsame, take_succ_set _ hindex, hsame, h.low (by omega), List.map_append]
    rfl

/-- The rest of a name. -/
theorem NameRead.bytes {p : Nat} :
    ∀ (more : Bytes), (∀ b ∈ more, NameByte b) → ∀ {line : HeaderLine} {name : Bytes},
      NameRead line p name → ∀ (seen : Bytes),
      ∃ line', NameRead line' p (name ++ more) ∧ ∀ rest,
        scanWith headerLineStep seen line (more ++ rest)
          = scanWith headerLineStep (seen ++ more) line' rest := by
  intro more
  induction more with
  | nil =>
      intro _ line name h seen
      refine ⟨line, by rwa [List.append_nil], fun rest => ?_⟩
      rw [List.append_nil, List.nil_append]
  | cons b more ih =>
      intro hbytes line name h seen
      obtain ⟨line', hstep, hread⟩ := h.push seen (hbytes b List.mem_cons_self)
      obtain ⟨line'', hread', hscan⟩ :=
        ih (fun x hx => hbytes x (List.mem_cons_of_mem _ hx)) hread (seen ++ [b])
      refine ⟨line'', ?_, fun rest => ?_⟩
      · rw [List.append_assoc] at hread'
        exact hread'
      · rw [List.cons_append, scanWith_go hstep, hscan, List.append_assoc]
        rfl

/-- The whole name of a line, up to its colon. -/
theorem name_text {name : Bytes} (hname : IsName name) {line : HeaderLine}
    (hstart : line.state = .start) (hroom : line.lowcaseHeader.length = ngxHttpLcHeaderLen)
    (seen : Bytes) :
    ∃ line', NameRead line' seen.length name ∧ ∀ rest,
      scanWith headerLineStep seen line (name ++ rest)
        = scanWith headerLineStep (seen ++ name) line' rest := by
  cases name with
  | nil => exact absurd rfl hname.nonempty
  | cons b more =>
      obtain ⟨line', hstep, hread⟩ :=
        NameRead.first hroom seen.length (hname.bytes b List.mem_cons_self)
      obtain ⟨line'', hread', hscan⟩ := NameRead.bytes more
        (fun x hx => hname.bytes x (List.mem_cons_of_mem _ hx)) hread (seen ++ [b])
      have hstep' : headerLineStep seen line b = .go line' := by
        unfold headerLineStep
        rw [hstart]
        exact hstep
      refine ⟨line'', hread', fun rest => ?_⟩
      rw [List.cons_append, scanWith_go hstep', hscan, List.append_assoc]
      rfl

/-- The state behind some bytes of a value. -/
def valueState (state : HeaderSw) (bytes : Bytes) : HeaderSw :=
  match bytes.getLast? with
  | none => state
  | some b => if b = 32 then .spaceAfterValue else .value

/-- One byte of a value. -/
theorem value_step {line : HeaderLine}
    (hstate : line.state = .value ∨ line.state = .spaceAfterValue) (seen : Bytes) {b : UInt8}
    (hb : b ≠ 0 ∧ b ≠ 10 ∧ b ≠ 13) :
    ∃ stop, headerLineStep seen line b
      = .go { line with state := if b = 32 then .spaceAfterValue else .value, stop := stop } := by
  obtain ⟨h0, hlf, hcr⟩ := hb
  unfold headerLineStep
  rcases hstate with hvalue | hspace
  · rw [hvalue]
    dsimp only
    by_cases h32 : b = 32
    · exact ⟨seen.length, by rw [if_pos h32, if_pos h32]⟩
    · refine ⟨line.stop, ?_⟩
      rw [if_neg h32, if_neg hcr, if_neg hlf, if_neg h0, if_neg h32, ← hvalue]
  · rw [hspace]
    dsimp only
    by_cases h32 : b = 32
    · exact ⟨line.stop, by rw [if_pos h32, if_pos h32, ← hspace]⟩
    · exact ⟨line.stop, by rw [if_neg h32, if_neg hcr, if_neg hlf, if_neg h0, if_neg h32]⟩

/-- The bytes of a value; spaces among them set `r->header_end`, but not for good. -/
theorem value_bytes :
    ∀ (bytes : Bytes), (∀ b ∈ bytes, b ≠ 0 ∧ b ≠ 10 ∧ b ≠ 13) →
      ∀ (line : HeaderLine), line.state = .value ∨ line.state = .spaceAfterValue →
      ∀ (seen : Bytes), ∃ stop, ∀ rest,
        scanWith headerLineStep seen line (bytes ++ rest)
          = scanWith headerLineStep (seen ++ bytes)
            { line with state := valueState line.state bytes, stop := stop } rest := by
  intro bytes
  induction bytes with
  | nil =>
      intro _ line _ seen
      refine ⟨line.stop, fun rest => ?_⟩
      rw [List.append_nil]
      rfl
  | cons b bytes ih =>
      intro hbytes line hstate seen
      obtain ⟨stop, hstep⟩ := value_step hstate seen (hbytes b List.mem_cons_self)
      have hnext : (if b = 32 then HeaderSw.spaceAfterValue else .value) = .value
          ∨ (if b = 32 then HeaderSw.spaceAfterValue else .value) = .spaceAfterValue := by
        by_cases h32 : b = 32
        · exact Or.inr (if_pos h32)
        · exact Or.inl (if_neg h32)
      obtain ⟨stop', hscan⟩ := ih (fun x hx => hbytes x (List.mem_cons_of_mem _ hx))
        { line with state := if b = 32 then .spaceAfterValue else .value, stop := stop } hnext
        (seen ++ [b])
      refine ⟨stop', fun rest => ?_⟩
      have hlast : valueState (if b = 32 then .spaceAfterValue else .value) bytes
          = valueState line.state (b :: bytes) := by
        unfold valueState
        cases bytes with
        | nil => rfl
        | cons c bytes => rw [List.getLast?_cons_cons, List.getLast?_eq_some_getLast (by simp)]
      rw [List.cons_append, scanWith_go hstep, hscan, List.append_assoc]
      dsimp only
      rw [hlast]
      rfl

/-- The end of a line. -/
theorem scan_lf {line : HeaderLine} (hstate : line.state = .almostDone) (seen rest : Bytes) :
    scanWith headerLineStep seen line (10 :: rest)
      = .stop (.ok { line with state := .start }) (seen ++ [10]) rest := by
  apply scanWith_stop
  unfold headerLineStep
  rw [hstate]
  rfl

theorem scan_value_crlf {line : HeaderLine} (hstate : line.state = .value) (seen rest : Bytes) :
    scanWith headerLineStep seen line (crlf ++ rest)
      = .stop (.ok { line with state := .start, stop := seen.length }) (seen ++ crlf) rest := by
  have hcr : headerLineStep seen line 13
      = .go { line with state := .almostDone, stop := seen.length } := by
    unfold headerLineStep
    rw [hstate]
    rfl
  show scanWith headerLineStep seen line (13 :: 10 :: rest) = _
  rw [scanWith_go hcr, scan_lf rfl, List.append_assoc]
  rfl

/-- The value of a line, from the space behind the colon. -/
theorem value_text {value : Bytes} (hvalue : IsValue value) (line : HeaderLine)
    (hstate : line.state = .spaceBeforeValue) (seen rest : Bytes) :
    scanWith headerLineStep seen line (32 :: (value ++ crlf) ++ rest)
      = .stop (.ok { line with
          state := .start, start := seen.length + 1, stop := seen.length + 1 + value.length })
        (seen ++ 32 :: (value ++ crlf)) rest := by
  have hspace : headerLineStep seen line 32 = .go line := by
    unfold headerLineStep
    rw [hstate]
    rfl
  have hlength : (seen ++ [32]).length = seen.length + 1 := List.length_append
  rw [List.cons_append, scanWith_go hspace, List.append_assoc]
  cases value with
  | nil =>
      have hcr : headerLineStep (seen ++ [32]) line 13
          = .go { line with
              state := .almostDone, start := seen.length + 1, stop := seen.length + 1 } := by
        unfold headerLineStep
        rw [hstate, hlength]
        rfl
      show scanWith headerLineStep (seen ++ [32]) line (13 :: 10 :: rest) = _
      rw [scanWith_go hcr, scan_lf rfl, List.append_assoc, List.append_assoc]
      rfl
  | cons c bytes =>
      obtain ⟨h0, hlf, hcr⟩ := hvalue.bytes c List.mem_cons_self
      have h32 : c ≠ 32 := fun h => hvalue.head (by rw [h]; rfl)
      have hfirst : headerLineStep (seen ++ [32]) line c
          = .go { line with state := .value, start := seen.length + 1 } := by
        unfold headerLineStep
        rw [hstate, hlength]
        dsimp only
        rw [if_neg h32, if_neg hcr, if_neg hlf, if_neg h0]
      obtain ⟨stop, hscan⟩ := value_bytes bytes
        (fun b hb => hvalue.bytes b (List.mem_cons_of_mem _ hb))
        { line with state := .value, start := seen.length + 1 } (Or.inl rfl) (seen ++ [32] ++ [c])
      have hend : valueState .value bytes = .value := by
        have hlast := hvalue.last
        unfold valueState
        cases bytes with
        | nil => rfl
        | cons d bytes =>
            rw [List.getLast?_cons_cons] at hlast
            rw [List.getLast?_eq_some_getLast (by simp)] at hlast ⊢
            exact if_neg (fun h => hlast (congrArg some h))
      dsimp only at hscan
      rw [hend] at hscan
      rw [List.cons_append, scanWith_go hfirst, hscan, scan_value_crlf rfl]
      have hstop : (seen ++ [32] ++ [c] ++ bytes).length
          = seen.length + 1 + (c :: bytes).length := by
        simp only [List.length_append, List.length_cons, List.length_nil]
        omega
      rw [hstop]
      simp only [List.append_assoc, List.cons_append, List.nil_append]

/-- The entry for a header that has been written. -/
def headerElt (h : Bytes × Bytes) : TableElt :=
  ⟨ngxHashKey (h.1.map ngxTolower), h.1, h.2, h.1.map ngxTolower⟩

/-- **A header line is read back**: its name, its value, and the hash and the name in lower case
it is looked up with. -/
theorem headerLine_text {h : Bytes × Bytes} (hname : IsName h.1) (hvalue : IsValue h.2)
    {line : HeaderLine} (hstart : line.state = .start)
    (hroom : line.lowcaseHeader.length = ngxHttpLcHeaderLen) (seen : Bytes) :
    ∃ line', line'.state = .start ∧ line'.lowcaseHeader.length = ngxHttpLcHeaderLen
      ∧ line'.elt (seen ++ headerText h) = headerElt h
      ∧ ∀ rest, scanWith headerLineStep seen line (headerText h ++ rest)
        = .stop (.ok line') (seen ++ headerText h) rest := by
  obtain ⟨name, value⟩ := h
  obtain ⟨line', hread, hscan⟩ := name_text hname hstart hroom seen
  have hcolon : headerLineStep (seen ++ name) line' 58
      = .go { line' with
          state := .spaceBeforeValue, nameEnd := seen.length + name.length } := by
    unfold headerLineStep nameStep
    rw [hread.state, List.length_append]
    rfl
  have hlength : (seen ++ name ++ [58]).length = seen.length + name.length + 1 := by
    rw [List.length_append, List.length_append]
    rfl
  refine ⟨{ line' with
      state := .start
      nameEnd := seen.length + name.length
      start := seen.length + name.length + 1 + 1
      stop := seen.length + name.length + 1 + 1 + value.length },
    rfl, hread.room, ?_, fun rest => ?_⟩
  · have hkey : between line'.nameStart (seen.length + name.length)
        (seen ++ headerText (name, value)) = name := by
      rw [hread.nameStart]
      exact between_append seen name _
    have hval : between (seen.length + name.length + 1 + 1)
        (seen.length + name.length + 1 + 1 + value.length) (seen ++ headerText (name, value))
          = value := by
      have hsplit := between_append (seen ++ (name ++ [58, 32])) value crlf
      simp only [List.length_append, List.length_cons, List.length_nil, List.append_assoc,
        List.cons_append, List.nil_append] at hsplit
      exact hsplit
    have hlow : (if name.length = line'.lowcaseIndex then line'.lowcaseHeader.take name.length
        else name.map ngxTolower) = name.map ngxTolower := by
      by_cases hshort : name.length < ngxHttpLcHeaderLen
      · rw [hread.low hshort, ite_self]
      · -- the index has wrapped round
        have hlt : line'.lowcaseIndex < ngxHttpLcHeaderLen := by
          rw [hread.index]
          exact Nat.mod_lt _ (by decide)
        rw [if_neg (by omega)]
    unfold HeaderLine.elt headerElt
    dsimp only
    rw [hkey, hval, hlow, hread.hash]
  · have hvalueText := value_text hvalue
      { line' with state := .spaceBeforeValue, nameEnd := seen.length + name.length } rfl
      (seen ++ name ++ [58]) rest
    rw [hlength] at hvalueText
    unfold headerText
    rw [List.append_assoc, hscan, List.cons_append, scanWith_go hcolon, hvalueText]
    simp only [List.append_assoc, List.cons_append, List.nil_append]

/-- **All header lines are read back.** -/
theorem lines_text (size : Nat) :
    ∀ (headers : List (Bytes × Bytes)), (∀ h ∈ headers, IsName h.1) →
      (∀ h ∈ headers, IsValue h.2) → ∀ (line : HeaderLine), line.state = .start →
      line.lowcaseHeader.length = ngxHttpLcHeaderLen → ∀ (seen : Bytes) (h : HeadersIn)
      (rest : Bytes),
      scanWith (loopStep headerLineStep (nextLine size)) seen (line, h)
          (headers.flatMap headerText ++ (crlf ++ rest))
        = .stop (some (headers.foldl (fun h x => h.push size (headerElt x)) h).finish)
          (seen ++ (headers.flatMap headerText ++ crlf)) rest := by
  intro headers
  induction headers with
  | nil =>
      intro _ _ line hstart _ seen h rest
      have hcr : headerLineStep seen line 13 = .go { line with
          nameStart := seen.length, invalidHeader := false, state := .headerAlmostDone,
          stop := seen.length } := by
        unfold headerLineStep
        rw [hstart]
        rfl
      have hscan : scanWith headerLineStep seen line (13 :: 10 :: rest)
          = .stop .headerDone (seen ++ [13] ++ [10]) rest := by
        rw [scanWith_go hcr]
        exact scanWith_stop rfl rest
      show scanWith (loopStep headerLineStep (nextLine size)) seen (line, h) (13 :: 10 :: rest) = _
      rw [scanWith_loopStep, hscan, List.append_assoc]
      rfl
  | cons x headers ih =>
      intro hnames hvalues line hstart hroom seen h rest
      obtain ⟨line', hstart', hroom', helt, hscan⟩ := headerLine_text (hnames x List.mem_cons_self)
        (hvalues x List.mem_cons_self) hstart hroom seen
      have hrest := ih (fun y hy => hnames y (List.mem_cons_of_mem _ hy))
        (fun y hy => hvalues y (List.mem_cons_of_mem _ hy)) line' hstart' hroom'
        (seen ++ headerText x) (h.push size (headerElt x)) rest
      rw [List.flatMap_cons, List.append_assoc, scanWith_loopStep, hscan]
      show scanWith (loopStep headerLineStep (nextLine size)) (seen ++ headerText x)
        (line', h.push size (line'.elt (seen ++ headerText x))) _ = _
      rw [helt, hrest, List.append_assoc, List.append_assoc]
      rfl

/-! ## §3. The head is read back. -/

/-- A digit of the status. -/
theorem status_digit {s : StatusLine} (hstate : s.state = .status) (seen : Bytes) {d : Nat}
    (hd : d < 10) :
    statusLineStep seen s (UInt8.ofNat (48 + d))
      = if s.count + 1 = 3 then
          .go { s with
            state := .spaceAfterStatus, code := s.code * 10 + d, count := s.count + 1,
            start := seen.length - 2 }
        else .go { s with code := s.code * 10 + d, count := s.count + 1 } := by
  obtain ⟨hdigit, hvalue⟩ := digitByte hd
  have h32 : UInt8.ofNat (48 + d) ≠ 32 := by
    intro h
    rw [h] at hdigit
    exact absurd hdigit (by decide)
  unfold statusLineStep
  rw [hstate]
  dsimp only
  rw [if_neg h32, hdigit, hvalue]
  rfl

/-- The text behind the status. -/
theorem reason_bytes :
    ∀ (reason : Bytes), (∀ b ∈ reason, b ≠ 10 ∧ b ≠ 13) → ∀ {s : StatusLine},
      s.state = .statusText → ∀ (seen rest : Bytes),
      scanWith statusLineStep seen s (reason ++ rest)
        = scanWith statusLineStep (seen ++ reason) s rest := by
  intro reason
  induction reason with
  | nil => intro _ s _ seen rest; rw [List.append_nil]; rfl
  | cons b reason ih =>
      intro hbytes s hstate seen rest
      obtain ⟨hlf, hcr⟩ := hbytes b List.mem_cons_self
      have hstep : statusLineStep seen s b = .go s := by
        unfold statusLineStep
        rw [hstate]
        dsimp only
        rw [if_neg hcr, if_neg hlf]
      rw [List.cons_append, scanWith_go hstep,
        ih (fun x hx => hbytes x (List.mem_cons_of_mem _ hx)) hstate, List.append_assoc]
      rfl

/-- The machine behind the status line of `h`. -/
def HttpHead.read (h : HttpHead) : StatusLine :=
  ⟨.start, 1, 1, h.code, 3, 9, some (9 + h.status.length)⟩

theorem length_version : (fieldName "HTTP/1.1 ").length = 9 := by decide +kernel

theorem scan_version (more : Bytes) :
    scanWith statusLineStep [] .init (fieldName "HTTP/1.1 " ++ more)
      = scanWith statusLineStep (fieldName "HTTP/1.1 ") ⟨.status, 1, 1, 0, 0, 0, none⟩ more := by
  have htext : fieldName "HTTP/1.1 " = [72, 84, 84, 80, 47, 49, 46, 49, 32] := by
    decide +kernel
  rw [htext]
  rfl

/-- The three digits of a status. -/
theorem scan_code (h : HttpHead) (seen more : Bytes) :
    scanWith statusLineStep seen ⟨.status, 1, 1, 0, 0, 0, none⟩
        (digitsText [h.code / 100, h.code / 10 % 10, h.code % 10] ++ more)
      = scanWith statusLineStep (seen ++ digitsText [h.code / 100, h.code / 10 % 10, h.code % 10])
        ⟨.spaceAfterStatus, 1, 1, h.code, 3, seen.length, none⟩ more := by
  obtain ⟨_, hhigh⟩ := h.three_digits
  have h1 := status_digit (s := ⟨.status, 1, 1, 0, 0, 0, none⟩) rfl seen
    (d := h.code / 100) (by omega)
  have h2 := status_digit (s := ⟨.status, 1, 1, h.code / 100, 1, 0, none⟩) rfl
    (seen ++ [UInt8.ofNat (48 + h.code / 100)]) (d := h.code / 10 % 10) (by omega)
  have h3 := status_digit
    (s := ⟨.status, 1, 1, h.code / 100 * 10 + h.code / 10 % 10, 2, 0, none⟩) rfl
    (seen ++ [UInt8.ofNat (48 + h.code / 100)] ++ [UInt8.ofNat (48 + h.code / 10 % 10)])
    (d := h.code % 10) (by omega)
  have hcode : (h.code / 100 * 10 + h.code / 10 % 10) * 10 + h.code % 10 = h.code := by omega
  have hfirst : 0 * 10 + h.code / 100 = h.code / 100 := by omega
  have hstart : (seen ++ [UInt8.ofNat (48 + h.code / 100)]
      ++ [UInt8.ofNat (48 + h.code / 10 % 10)]).length - 2 = seen.length := by
    rw [List.length_append, List.length_append]
    simp only [List.length_singleton]
    omega
  dsimp only at h1 h2 h3
  rw [if_neg (by decide)] at h1 h2
  rw [if_pos rfl, hcode, hstart] at h3
  rw [hfirst] at h1
  show scanWith statusLineStep seen _ (UInt8.ofNat (48 + h.code / 100)
    :: UInt8.ofNat (48 + h.code / 10 % 10) :: UInt8.ofNat (48 + h.code % 10) :: more) = _
  rw [scanWith_go h1, scanWith_go h2, scanWith_go h3, List.append_assoc, List.append_assoc]
  rfl

/-- **The status line is read back.** -/
theorem statusLine_text (h : HttpHead) (rest : Bytes) :
    scanWith statusLineStep [] .init (h.statusText ++ rest)
      = .stop (.ok h.read) h.statusText rest := by
  have hcr : ∀ seen : Bytes, statusLineStep seen
      ⟨.statusText, 1, 1, h.code, 3, 9, none⟩ 13
        = .go ⟨.almostDone, 1, 1, h.code, 3, 9, none⟩ := fun _ => rfl
  have hlf : ∀ seen : Bytes, statusLineStep seen ⟨.almostDone, 1, 1, h.code, 3, 9, none⟩ 10
      = .stop (.ok ⟨.start, 1, 1, h.code, 3, 9, some (seen.length - 1)⟩) := fun _ => rfl
  have hspace : ∀ seen : Bytes, statusLineStep seen
      ⟨.spaceAfterStatus, 1, 1, h.code, 3, 9, none⟩ 32
        = .go ⟨.statusText, 1, 1, h.code, 3, 9, none⟩ := fun _ => rfl
  unfold HttpHead.statusText HttpHead.status
  simp only [List.append_assoc, List.cons_append]
  rw [scan_version, scan_code, length_version, scanWith_go (hspace _),
    reason_bytes _ h.reason_line rfl]
  show scanWith statusLineStep _ _ (13 :: 10 :: rest) = _
  rw [scanWith_go (hcr _), scanWith_stop (hlf _)]
  have hstop : (fieldName "HTTP/1.1 "
      ++ digitsText [h.code / 100, h.code / 10 % 10, h.code % 10] ++ [32] ++ h.reason
      ++ [13]).length - 1 = 9 + h.status.length := by
    unfold HttpHead.status
    simp only [List.length_append, List.length_cons, List.length_nil, length_version]
    omega
  rw [hstop]
  simp only [List.append_assoc, List.cons_append, List.nil_append]
  rfl

namespace HttpHead

/-- What `u->headers_in` holds after the header lines. -/
def pushed (size : Nat) (h : HttpHead) : HeadersIn :=
  h.headers.foldl (fun hin x => hin.push size (headerElt x))
    { HeadersIn.init with statusN := h.code, statusLine := h.status }

/-- What it holds after the head. -/
def headersIn (size : Nat) (h : HttpHead) : HeadersIn := (h.pushed size).finish

/-- **The head is read back**, and the machine stops right behind it. -/
theorem scan_text (size : Nat) (h : HttpHead) (rest : Bytes) :
    scanWith (answerStep size) [] (.statusLine .init) (h.text ++ rest)
      = .stop (.lines (some (h.headersIn size))) h.text rest := by
  have hstatus : HeadersIn.ofStatus h.read h.statusText
      = { HeadersIn.init with statusN := h.code, statusLine := h.status } := by
    have hline := between_append (fieldName "HTTP/1.1 ") h.status crlf
    rw [length_version] at hline
    have hclose : decide (h.read.httpVersion < 1001) = false :=
      decide_eq_false (by unfold StatusLine.httpVersion read; dsimp only; omega)
    unfold HeadersIn.ofStatus
    rw [hclose]
    unfold read statusText
    dsimp only [Option.getD_some]
    rw [hline]
    rfl
  have hlines := lines_text size h.headers h.names h.values .init rfl rfl
    h.statusText (.ofStatus h.read h.statusText) rest
  unfold text
  rw [List.append_assoc, List.append_assoc, scan_statusLine, statusLine_text]
  show scanWith (answerStep size) h.statusText (.headers .init (.ofStatus h.read h.statusText)) _
    = _
  rw [scan_headers, hlines, hstatus]
  rfl

/-- **Of a beginning of an answer**: a part of the head is not enough for a verdict, and
behind the head there is a beginning of the body. -/
theorem scan_beginning (size : Nat) (h : HttpHead) {body seen pending : Bytes}
    (hsplits : seen ++ pending = h.text ++ body) :
    (seen.length < h.text.length
        ∧ ∃ phase, scanWith (answerStep size) [] (.statusLine .init) seen = .again phase)
      ∨ ∃ preread, preread ++ pending = body
        ∧ scanWith (answerStep size) [] (.statusLine .init) seen
          = .stop (.lines (some (h.headersIn size))) h.text preread := by
  by_cases hshort : seen.length < h.text.length
  · refine Or.inl ⟨hshort, ?_⟩
    have hall := h.scan_text size body
    rw [← hsplits, scanWith_append] at hall
    cases hscan : scanWith (answerStep size) [] (.statusLine .init) seen with
    | again phase => exact ⟨phase, rfl⟩
    | stop r seen' rest =>
        rw [hscan] at hall
        obtain ⟨_, hseen, _⟩ := Scanned.stop.inj hall
        have hcut := (scanWith_cut seen hscan).1
        rw [hseen, List.nil_append] at hcut
        have hlength := congrArg List.length hcut
        rw [List.length_append] at hlength
        omega
  · obtain ⟨preread, rfl⟩ : h.text <+: seen :=
      List.prefix_of_prefix_length_le (List.prefix_append _ body) ⟨pending, hsplits⟩
        (Nat.le_of_not_lt hshort)
    rw [List.append_assoc] at hsplits
    exact Or.inr ⟨preread, List.append_cancel_left hsplits, h.scan_text size preread⟩

end HttpHead

/-- What the handlers leave as it is. -/
structure HeadersIn.Same (h h' : HeadersIn) : Prop where
  statusN : h'.statusN = h.statusN
  statusLine : h'.statusLine = h.statusLine
  headers : h'.headers = h.headers

theorem HeadersIn.handle_same (h : HeadersIn) (elt : TableElt) (hh : UpstreamHeader) :
    h.Same (h.handle elt hh) := by
  cases hh with
  | contentLength | server | date => exact ⟨rfl, rfl, rfl⟩
  | connection | transferEncoding =>
      unfold HeadersIn.handle
      dsimp only
      split_ifs
      · exact ⟨rfl, rfl, rfl⟩
      · exact ⟨rfl, rfl, rfl⟩

theorem HeadersIn.push_same (size : Nat) (h : HeadersIn) (elt : TableElt) :
    { h with headers := h.headers ++ [elt] : HeadersIn }.Same (h.push size elt) := by
  unfold HeadersIn.push
  dsimp only
  cases ngxHashFind size elt.hash elt.lowcaseKey with
  | none => exact ⟨rfl, rfl, rfl⟩
  | some hh => exact HeadersIn.handle_same _ elt hh

/-- Every header that is written is kept, in its order. -/
theorem HeadersIn.foldl_push (size : Nat) :
    ∀ (headers : List (Bytes × Bytes)) (h : HeadersIn),
      { h with headers := h.headers ++ headers.map headerElt : HeadersIn }.Same
        (headers.foldl (fun (hin : HeadersIn) x => hin.push size (headerElt x)) h) := by
  intro headers
  induction headers with
  | nil => intro h; exact ⟨rfl, rfl, (List.append_nil _).symm⟩
  | cons x headers ih =>
      intro h
      have hfirst := HeadersIn.push_same size h (headerElt x)
      have hrest := ih (h.push size (headerElt x))
      refine ⟨hrest.statusN.trans hfirst.statusN, hrest.statusLine.trans hfirst.statusLine, ?_⟩
      rw [List.foldl_cons, hrest.headers, hfirst.headers]
      dsimp only
      rw [List.append_assoc]
      rfl

theorem HttpHead.pushed_same (size : Nat) (h : HttpHead) :
    { HeadersIn.init with
      statusN := h.code
      statusLine := h.status
      headers := h.headers.map headerElt : HeadersIn }.Same (h.pushed size) :=
  HeadersIn.foldl_push size h.headers
    { HeadersIn.init with statusN := h.code, statusLine := h.status }

/-- The special headers. -/
def specialHeaders : List (Bytes × Bytes) := [(fieldName "Server", []), (fieldName "Date", [])]

/-- At the end of the header at most the special ones are added. -/
theorem HeadersIn.finish_headers (h : HeadersIn) :
    h.finish.statusN = h.statusN ∧ h.finish.statusLine = h.statusLine
      ∧ ∃ special : List (Bytes × Bytes), special.Sublist specialHeaders
        ∧ h.finish.headers.map (fun elt => (elt.key, elt.value))
          = h.headers.map (fun elt => (elt.key, elt.value)) ++ special := by
  unfold HeadersIn.finish HeadersIn.special
  cases hserver : h.server <;> cases hdate : h.date <;> cases hchunked : h.chunked <;>
    simp [hserver, hdate, hchunked, specialHeaders]

/-- What is read of a beginning of an answer, for every cut of it. -/
theorem HttpHead.receive_beginning (size : Nat) (h : HttpHead) {body pending : Bytes}
    {pieces : List Bytes} (hpieces : pieces.flatten ++ pending = h.text ++ body) :
    (pieces.flatten.length < h.text.length
        ∧ ∃ phase, receivePieces size [] (.statusLine .init) pieces = .again phase)
      ∨ ∃ preread, preread ++ pending = body
        ∧ receivePieces size [] (.statusLine .init) pieces
          = .ok (h.headersIn size) h.text preread := by
  rcases h.scan_beginning size hpieces with ⟨hshort, phase, hscan⟩ | ⟨preread, hbody, hscan⟩
  · have hread := receivePieces_eq size pieces [] (.statusLine .init)
      (fun seen' rest hno => by rw [hscan] at hno; exact absurd hno (by simp))
    rw [hscan] at hread
    exact Or.inl ⟨hshort, phase, hread⟩
  · have hread := receivePieces_eq size pieces [] (.statusLine .init)
      (fun seen' rest hno => by rw [hscan] at hno; exact absurd hno (by simp))
    rw [hscan] at hread
    exact Or.inr ⟨preread, hbody, hread⟩

/-- A head that was written is read, for every cut of the answer. -/
theorem HttpHead.receive (size : Nat) (h : HttpHead) {body : Bytes} {pieces : List Bytes}
    (hpieces : pieces.flatten = h.text ++ body) :
    receivePieces size [] (.statusLine .init) pieces = .ok (h.headersIn size) h.text body := by
  have hall : pieces.flatten ++ [] = h.text ++ body := by rw [List.append_nil, hpieces]
  rcases h.receive_beginning size hall with ⟨hshort, _⟩ | ⟨preread, hbody, hread⟩
  · rw [hpieces, List.length_append] at hshort
    omega
  · rw [hread, ← hbody, List.append_nil]

/-- What is kept of a head: its status, its status line and its headers, at most followed by an
empty `Server` and `Date`. -/
theorem HttpHead.headersIn_kept (size : Nat) (h : HttpHead) :
    (h.headersIn size).statusN = h.code ∧ (h.headersIn size).statusLine = h.status
      ∧ ∃ special : List (Bytes × Bytes), special.Sublist specialHeaders
        ∧ (h.headersIn size).headers.map (fun elt => (elt.key, elt.value))
          = h.headers ++ special := by
  have hpush := h.pushed_same size
  obtain ⟨hcode, hline, special, hspecial, hheaders⟩ := (h.pushed size).finish_headers
  refine ⟨hcode.trans hpush.statusN, hline.trans hpush.statusLine, special, hspecial,
    hheaders.trans ?_⟩
  rw [hpush.headers]
  show ((h.headers.map headerElt).map _) ++ special = _
  rw [List.map_map]
  congr 1
  exact List.map_id _

/-- **What is written is read back**: for every status, reason and list of headers, and every
cut of the answer into pieces, nginx has the status, the status line, and all headers in their
order, at most followed by an empty `Server` and `Date`, and what it leaves is the body. -/
theorem header_read_back (size : Nat) (h : HttpHead) (body : Bytes) (pieces : List Bytes)
    (hpieces : pieces.flatten = h.text ++ body) :
    ∃ hin special, receivePieces size [] (.statusLine .init) pieces = .ok hin h.text body
      ∧ hin.statusN = h.code ∧ hin.statusLine = h.status
      ∧ special.Sublist specialHeaders
      ∧ hin.headers.map (fun elt => (elt.key, elt.value)) = h.headers ++ special := by
  obtain ⟨hcode, hline, special, hspecial, hheaders⟩ := h.headersIn_kept size
  exact ⟨h.headersIn size, special, h.receive size hpieces, hcode, hline, hspecial, hheaders⟩

/-! ## §4. The answers of `channel_response`. -/

/-- A header that was written is looked up by its name. -/
theorem find_headerElt (size : Nat) (x : Bytes × Bytes) :
    ngxHashFind size (headerElt x).hash (headerElt x).lowcaseKey
      = ngxHttpUpstreamHeadersIn (x.1.map ngxTolower) :=
  if_pos rfl

theorem HeadersIn.push_known {name : Bytes} {hh : UpstreamHeader}
    (hfind : ngxHttpUpstreamHeadersIn (name.map ngxTolower) = some hh) (size : Nat)
    (h : HeadersIn) (value : Bytes) :
    h.push size (headerElt (name, value))
      = { h with headers := h.headers ++ [headerElt (name, value)] : HeadersIn }.handle
        (headerElt (name, value)) hh := by
  unfold HeadersIn.push
  rw [find_headerElt, hfind]

/-- The digits of a number as Java writes it. -/
def decimals (n : Nat) : List Nat := if n = 0 then [0] else (Nat.digits 10 n).reverse

theorem digitsValue_decimals (n : Nat) : digitsValue 0 (decimals n) = n := by
  unfold decimals
  split_ifs with hzero
  · rw [hzero]; rfl
  · have hdigits := Nat.ofDigits_digits 10 n
    rw [Nat.ofDigits_eq_foldr] at hdigits
    unfold digitsValue
    rw [List.foldl_reverse]
    refine Eq.trans ?_ hdigits
    congr 1
    funext d m
    show m * 10 + d = d + 10 * m
    omega

theorem isOff_decimals {n : Nat} (h : n ≤ ngxMaxOffTValue) : IsOff (decimals n) := by
  refine ⟨?_, ?_, by rw [digitsValue_decimals]; exact h⟩
  · unfold decimals
    split_ifs with hzero
    · simp
    · rw [List.reverse_ne_nil_iff]
      exact Nat.digits_ne_nil_iff_ne_zero.mpr hzero
  · intro d hd
    unfold decimals at hd
    split_ifs at hd with hzero
    · rw [List.mem_singleton.mp hd]; decide
    · exact Nat.digits_lt_base (by decide) (List.mem_reverse.mp hd)

/-- `ngx_atoof` reads it. -/
theorem ngxAtoof_decimals {n : Nat} (h : n ≤ ngxMaxOffTValue) :
    ngxAtoof (digitsText (decimals n)) = n := by
  have hoff := isOff_decimals h
  have hread := readOff_digits (show NoDigit [] from rfl) (decimals n) 0 hoff.small hoff.fits
  rw [List.append_nil, digitsValue_decimals] at hread
  unfold ngxAtoof
  rw [if_neg (by unfold digitsText; simpa using hoff.nonempty), hread]

theorem isValue_digitsText {digits : List Nat} (h : ∀ d ∈ digits, d < 10) :
    IsValue (digitsText digits) := by
  have hbyte : ∀ b ∈ digitsText digits, isDigitByte b = true := by
    intro b hb
    obtain ⟨d, hd, rfl⟩ := List.mem_map.mp hb
    exact (digitByte (h d hd)).1
  have hne : ∀ c : UInt8, isDigitByte c = false → ∀ b ∈ digitsText digits, b ≠ c := by
    intro c hc b hb hbc
    rw [hbc] at hb
    exact absurd (hbyte c hb) (by rw [hc]; decide)
  refine ⟨fun b hb => ⟨hne 0 rfl b hb, hne 10 rfl b hb, hne 13 rfl b hb⟩, ?_, ?_⟩
  · intro hhead
    exact hne 32 rfl 32 (List.mem_of_mem_head? hhead) rfl
  · intro hlast
    exact hne 32 rfl 32 (List.mem_of_getLast? hlast) rfl

/-- The constants of `HttpResponseStatus` the handler uses. -/
inductive ResponseStatus where
  | ok
  | forbidden
  | notFound
  deriving Repr, DecidableEq

namespace ResponseStatus

def code : ResponseStatus → Nat
  | ok => 200
  | forbidden => 403
  | notFound => 404

theorem three_digits (status : ResponseStatus) : 100 ≤ status.code ∧ status.code ≤ 999 := by
  cases status <;> decide

end ResponseStatus

/-- The headers `channel_response` sets; the last one is what `HttpUtil.setKeepAlive` sets for
HTTP/1.1. -/
def responseHeaders (keepAlive : Bool) (length : Nat) : List (Bytes × Bytes) :=
  [(fieldName "content-type", fieldName "application/json; charset=UTF-8"),
    (fieldName "content-length", digitsText (decimals length))]
    ++ if keepAlive then [] else [(fieldName "connection", fieldName "close")]

theorem responseHeaders_valid (keepAlive : Bool) {length : Nat}
    (hlength : length ≤ ngxMaxOffTValue) :
    ∀ h ∈ responseHeaders keepAlive length, IsName h.1 ∧ IsValue h.2 := by
  have htype : IsName (fieldName "content-type")
      ∧ IsValue (fieldName "application/json; charset=UTF-8") := by decide +kernel
  have hnumber : IsName (fieldName "content-length") ∧ IsValue (digitsText (decimals length)) :=
    ⟨by decide +kernel, isValue_digitsText (isOff_decimals hlength).small⟩
  have hclose : IsName (fieldName "connection") ∧ IsValue (fieldName "close") := by
    decide +kernel
  intro h hh
  unfold responseHeaders at hh
  cases keepAlive with
  | true =>
      rcases List.mem_cons.mp hh with rfl | hh
      · exact htype
      · rw [List.mem_singleton.mp hh]
        exact hnumber
  | false =>
      rcases List.mem_cons.mp hh with rfl | hh
      · exact htype
      · rcases List.mem_cons.mp hh with rfl | hh
        · exact hnumber
        · rw [List.mem_singleton.mp hh]
          exact hclose

/-- Netty's `HttpResponseEncoder`: what it writes for a status code, the headers that were set
and a body.  Its reason phrases are its own. -/
structure HttpResponseEncoder where
  encode : Nat → List (Bytes × Bytes) → Bytes → Bytes
  layout : ∀ (code : Nat) (headers : List (Bytes × Bytes)) (body : Bytes),
    100 ≤ code ∧ code ≤ 999 → (∀ h ∈ headers, IsName h.1 ∧ IsValue h.2) →
    ∃ head : HttpHead, head.code = code ∧ head.headers = headers
      ∧ encode code headers body = head.text ++ body

/-- The bytes of an answer of `channel_response`. -/
def channelResponse (encoder : HttpResponseEncoder) (status : ResponseStatus) (keepAlive : Bool)
    (body : Bytes) : Bytes :=
  encoder.encode status.code (responseHeaders keepAlive body.length) body

/-- `u->length` after `ngx_http_proxy_input_filter_init`; `none` for the chunked filter. -/
def HeadersIn.bodyLength (h : HeadersIn) : Option Int :=
  if h.statusN = 204 ∨ h.statusN = 304 then some 0
  else if h.chunked then none
  else some h.contentLengthN

theorem HeadersIn.finish_bodyLength {h : HeadersIn} (hchunked : h.chunked = false) :
    h.finish.bodyLength = h.bodyLength := by
  unfold HeadersIn.finish HeadersIn.special HeadersIn.bodyLength
  cases hserver : h.server <;> cases hdate : h.date <;> simp [hserver, hdate, hchunked]

/-- A header line that says nothing about the length of a body. -/
def NoLength (x : Bytes × Bytes) : Prop :=
  ngxHttpUpstreamHeadersIn (x.1.map ngxTolower) ≠ some .contentLength
    ∧ ngxHttpUpstreamHeadersIn (x.1.map ngxTolower) ≠ some .transferEncoding

instance (x : Bytes × Bytes) : Decidable (NoLength x) := inferInstanceAs (Decidable (_ ∧ _))

theorem HeadersIn.push_noLength {x : Bytes × Bytes} (hx : NoLength x) (size : Nat)
    (h : HeadersIn) :
    (h.push size (headerElt x)).chunked = h.chunked
      ∧ (h.push size (headerElt x)).bodyLength = h.bodyLength := by
  unfold HeadersIn.push
  rw [find_headerElt]
  cases hfind : ngxHttpUpstreamHeadersIn (x.1.map ngxTolower) with
  | none => exact ⟨rfl, rfl⟩
  | some hh =>
      cases hh with
      | contentLength => exact absurd hfind hx.1
      | transferEncoding => exact absurd hfind hx.2
      | server | date => exact ⟨rfl, rfl⟩
      | connection =>
          show (HeadersIn.handle _ _ .connection).chunked = _
            ∧ (HeadersIn.handle _ _ .connection).bodyLength = _
          unfold HeadersIn.handle
          dsimp only
          split_ifs
          · exact ⟨rfl, rfl⟩
          · exact ⟨rfl, rfl⟩

theorem HeadersIn.foldl_noLength (size : Nat) {headers : List (Bytes × Bytes)}
    (hheaders : ∀ x ∈ headers, NoLength x) (h : HeadersIn) :
    (headers.foldl (fun (hin : HeadersIn) x => hin.push size (headerElt x)) h).chunked = h.chunked
      ∧ (headers.foldl (fun (hin : HeadersIn) x => hin.push size (headerElt x)) h).bodyLength
        = h.bodyLength := by
  induction headers generalizing h with
  | nil => exact ⟨rfl, rfl⟩
  | cons x headers ih =>
      obtain ⟨hchunked, hlength⟩ := HeadersIn.push_noLength
        (hheaders x List.mem_cons_self) size h
      obtain ⟨hchunked', hlength'⟩ := ih (fun y hy => hheaders y (List.mem_cons_of_mem x hy))
        (h.push size (headerElt x))
      exact ⟨hchunked'.trans hchunked, hlength'.trans hlength⟩

/-- `Content-Length` decides over the body. -/
theorem HeadersIn.handle_contentLength {h : HeadersIn} (hchunked : h.chunked = false)
    (hstatus : ¬ (h.statusN = 204 ∨ h.statusN = 304)) (name : Bytes) {length : Nat}
    (hlength : length ≤ ngxMaxOffTValue) :
    (h.handle (headerElt (name, digitsText (decimals length))) .contentLength).bodyLength
      = some length := by
  show (if h.statusN = 204 ∨ h.statusN = 304 then some 0
    else if h.chunked then none
    else some (ngxAtoof (digitsText (decimals length)))) = some (length : Int)
  rw [if_neg hstatus, hchunked, ngxAtoof_decimals hlength]
  rfl

/-- **The one line that announces a length decides**, whatever stands around it. -/
theorem HttpHead.bodyLength_headersIn (size : Nat) (h : HttpHead)
    {before after : List (Bytes × Bytes)} {name : Bytes} {length : Nat}
    (hheaders : h.headers = before ++ (name, digitsText (decimals length)) :: after)
    (hname : ngxHttpUpstreamHeadersIn (name.map ngxTolower) = some .contentLength)
    (hbefore : ∀ x ∈ before, NoLength x) (hafter : ∀ x ∈ after, NoLength x)
    (hcode : ¬ (h.code = 204 ∨ h.code = 304)) (hlength : length ≤ ngxMaxOffTValue) :
    (h.headersIn size).bodyLength = some length := by
  unfold headersIn pushed
  rw [hheaders, List.foldl_append, List.foldl_cons]
  have hsame := HeadersIn.foldl_push size before
    { HeadersIn.init with statusN := h.code, statusLine := h.status }
  obtain ⟨hchunked, -⟩ := HeadersIn.foldl_noLength size hbefore
    { HeadersIn.init with statusN := h.code, statusLine := h.status }
  generalize before.foldl (fun (hin : HeadersIn) x => hin.push size (headerElt x))
    { HeadersIn.init with statusN := h.code, statusLine := h.status } = hin at hsame hchunked ⊢
  rw [HeadersIn.push_known hname]
  have hcode' : ¬ (hin.statusN = 204 ∨ hin.statusN = 304) := by
    rw [hsame.statusN]
    exact hcode
  obtain ⟨hchunked', hlength'⟩ := HeadersIn.foldl_noLength size hafter
    ({ hin with headers := hin.headers ++ [headerElt (name, digitsText (decimals length))] :
      HeadersIn }.handle (headerElt (name, digitsText (decimals length))) .contentLength)
  rw [HeadersIn.finish_bodyLength (hchunked'.trans hchunked), hlength']
  exact HeadersIn.handle_contentLength hchunked hcode' name hlength

/-- **An answer of m3u8-filter** is a head and its body, and nginx finds the status and the
length of the body in the head. -/
theorem channelResponse_layout (encoder : HttpResponseEncoder) (status : ResponseStatus)
    (keepAlive : Bool) {body : Bytes} (hbody : body.length ≤ ngxMaxOffTValue) :
    ∃ head : HttpHead, channelResponse encoder status keepAlive body = head.text ++ body
      ∧ ∀ size, (head.headersIn size).statusN = status.code
        ∧ (head.headersIn size).bodyLength = some (body.length : Int) := by
  obtain ⟨head, hcode, hheaders, htext⟩ := encoder.layout status.code
    (responseHeaders keepAlive body.length) body status.three_digits
    (responseHeaders_valid keepAlive hbody)
  refine ⟨head, htext, fun size => ⟨?_, ?_⟩⟩
  · rw [(head.headersIn_kept size).1, hcode]
  · have hstatus : ¬ (head.code = 204 ∨ head.code = 304) := by
      rw [hcode]
      cases status <;> decide
    have hbefore : ∀ x ∈ [(fieldName "content-type",
        fieldName "application/json; charset=UTF-8")], NoLength x := by decide +kernel
    have hafter : ∀ x ∈ (if keepAlive then [] else [(fieldName "connection", fieldName "close")]),
        NoLength x := by cases keepAlive <;> decide +kernel
    exact HttpHead.bodyLength_headersIn size head hheaders (by decide +kernel) hbefore hafter
      hstatus hbody

/-- A head with the reason `OK`. -/
def plainHead (code : Nat) (headers : List (Bytes × Bytes)) (hcode : 100 ≤ code ∧ code ≤ 999)
    (hheaders : ∀ h ∈ headers, IsName h.1 ∧ IsValue h.2) : HttpHead where
  code := code
  reason := fieldName "OK"
  headers := headers
  three_digits := hcode
  reason_line := by decide +kernel
  names := fun h hh => (hheaders h hh).1
  values := fun h hh => (hheaders h hh).2

/-- An encoder that knows no other. -/
def plainEncoder : HttpResponseEncoder where
  encode code headers body :=
    (fieldName "HTTP/1.1 " ++ (digitsText [code / 100, code / 10 % 10, code % 10]
      ++ 32 :: fieldName "OK" ++ crlf) ++ (headers.flatMap headerText ++ crlf)) ++ body
  layout code headers _ hcode hheaders := ⟨plainHead code headers hcode hheaders, rfl, rfl, rfl⟩

/-- The head of an answer of two bytes. -/
def twoBytesHead : HttpHead :=
  plainHead 200 (responseHeaders false 2) (by decide) (responseHeaders_valid false (by decide))

/-- Such an answer, in two pieces. -/
theorem header_read_back_pieces :
    ∃ hin, receivePieces 2039 [] (.statusLine .init)
        [twoBytesHead.text.take 20, twoBytesHead.text.drop 20 ++ fieldName "\x7b\x7d"]
        = .ok hin twoBytesHead.text (fieldName "\x7b\x7d")
      ∧ hin.statusN = 200 := by
  obtain ⟨hin, _, hread, hcode, _⟩ := header_read_back 2039 twoBytesHead
    (fieldName "\x7b\x7d")
    [twoBytesHead.text.take 20, twoBytesHead.text.drop 20 ++ fieldName "\x7b\x7d"] (by
      rw [List.flatten_cons, List.flatten_cons, List.flatten_nil, List.append_nil,
        ← List.append_assoc, List.take_append_drop])
  exact ⟨hin, hread, hcode⟩

end NginxNettyHls.Nginx
