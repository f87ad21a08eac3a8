/-
  NginxNettyHls.Nginx.RangeParse
  ──────────────────────────────
  **THE `Range` HEADER OF A SEGMENT REQUEST.**

  The `.ts` handler allows ranges, so that `ngx_http_range_parse` decides which parts
  of a segment are sent.  It reads the value behind `bytes=` with a pointer, adds
  up digits in an `off_t` with a test for overflow, cuts each range to the content
  and gives up where more would be sent than there is.

    • `ngxHttpRangeParse` — the parser, `rangeLoop` its loop over the commas;
    • `accepted_ranges` — what it accepts is well formed: non-empty ranges inside the
      content, not too many, and not more bytes than the content has;
    • `parse_rangeText` — and it reads what was written: on the text of a list of
      ranges, with any spaces and leading zeros, it is `collect`, the same decisions
      over the ranges themselves.
-/
import NginxNettyHls.Nginx.TsHandler

namespace NginxNettyHls.Nginx

/-! ## §1. The parser. -/

/-- `*p`: behind the value stands a zero byte. -/
def peek (p : Bytes) : UInt8 := p.headD 0

@[simp] theorem peek_cons (b : UInt8) (p : Bytes) : peek (b :: p) = b := rfl

/-- `*p >= '0' && *p <= '9'`. -/
def isDigitByte (b : UInt8) : Bool := decide (48 ≤ b) && decide (b ≤ 57)

/-- `while (*p == ' ') { p++; }`. -/
def skipSpaces (p : Bytes) : Bytes := p.dropWhile (fun b => b == 32)

/-- The loop over the digits of a number, from `n` on; `none` where `cutoff` and `cutlim`
say that the next digit would overflow. -/
def readOff : Nat → Bytes → Option (Nat × Bytes)
  | n, [] => some (n, [])
  | n, b :: p =>
      if isDigitByte b then
        if ngxMaxOffTValue / 10 ≤ n
            ∧ (ngxMaxOffTValue / 10 < n ∨ ngxMaxOffTValue % 10 < b.toNat - 48) then none
        else readOff (n * 10 + (b.toNat - 48)) p
      else some (n, b :: p)

/-- A range of the content, `[start, stop)`. -/
structure Range where
  start : Int
  stop : Int
  deriving Repr, DecidableEq

/-- What one iteration reads: `START-`, `START-END` or `-SUFFIX`. -/
inductive RangeSpec where
  | onward (start : Nat)
  | span (start last : Nat)
  | suffix (length : Nat)
  deriving Repr, DecidableEq

/-- The digits up to the comma or the end. -/
def readLast (p : Bytes) : Option (Nat × Bytes) :=
  if isDigitByte (peek p) then
    match readOff 0 p with
    | none => none
    | some (last, p) =>
        let p := skipSpaces p
        if peek p ≠ 44 ∧ peek p ≠ 0 then none else some (last, p)
  else none

/-- One iteration up to the end of its digits; `none` is 416. -/
def readSpec (p : Bytes) : Option (RangeSpec × Bytes) :=
  let p := skipSpaces p
  if peek p = 45 then (readLast (p.drop 1)).map (fun r => (.suffix r.1, r.2))
  else if isDigitByte (peek p) then
    match readOff 0 p with
    | none => none
    | some (start, p) =>
        let p := skipSpaces p
        if peek p = 45 then
          let p := skipSpaces (p.drop 1)
          if peek p = 44 ∨ peek p = 0 then some (.onward start, p)
          else (readLast p).map (fun r => (.span start r.1, r.2))
        else none
  else none

/-- `if (end >= content_length) { end = content_length; } else { end++; }`. -/
def clip (contentLength last : Int) : Int :=
  if contentLength ≤ last then contentLength else last + 1

/-- `start` and `end` at `found`. -/
def RangeSpec.range (contentLength : Int) : RangeSpec → Range
  | .onward start => ⟨start, contentLength⟩
  | .span start last => ⟨start, clip contentLength last⟩
  | .suffix length =>
      ⟨if length < contentLength then contentLength - length else 0,
        clip contentLength (contentLength - 1)⟩

/-- What `ngx_http_range_parse` returns besides `NGX_OK`. -/
inductive RangeRefusal where
  /-- `NGX_HTTP_RANGE_NOT_SATISFIABLE`. -/
  | notSatisfiable
  /-- `NGX_DECLINED`: the header is ignored. -/
  | declined
  deriving Repr, DecidableEq

/-- Behind the loop. -/
def rangeDone (contentLength size : Int) (ranges : List Range) :
    Except RangeRefusal (List Range) :=
  if ranges = [] then .error .notSatisfiable
  else if contentLength < size then .error .declined
  else .ok ranges

/-- What is kept of a range: the number of ranges that are still allowed, the size and the
ranges after it, or a return. -/
def keepRange (left : Nat) (size : Int) (ranges : List Range) (range : Range) :
    Except RangeRefusal (Nat × Int × List Range) :=
  if range.start < range.stop then
    if ngxMaxOffTValue - (range.stop - range.start) < size then .error .notSatisfiable
    -- `ranges-- == 0`
    else if left = 0 then .error .declined
    else .ok (left - 1, size + (range.stop - range.start), ranges ++ [range])
  else if range.start = 0 then .error .declined
  else .ok (left, size, ranges)

/-- The loop; each iteration but the last consumes a comma. -/
def rangeLoop (contentLength : Int) :
    Nat → Nat → Int → List Range → Bytes → Except RangeRefusal (List Range)
  | 0, _, _, _, _ => .error .notSatisfiable
  | fuel + 1, left, size, ranges, p =>
      match readSpec p with
      | none => .error .notSatisfiable
      | some (spec, p) =>
          match keepRange left size ranges (spec.range contentLength) with
          | .error refusal => .error refusal
          | .ok (left, size, ranges) =>
              if peek p = 44 then rangeLoop contentLength fuel left size ranges (p.drop 1)
              else rangeDone contentLength size ranges

/-- `ngx_http_range_parse` on the value behind `bytes=`. -/
def ngxHttpRangeParse (contentLength : Int) (ranges : Nat) (value : Bytes) :
    Except RangeRefusal (List Range) :=
  rangeLoop contentLength (value.length + 1) ranges 0 [] value

/-! ## §2. What is accepted is well formed. -/

/-- The bytes of a list of ranges. -/
def totalSize (ranges : List Range) : Int :=
  ranges.foldl (fun size range => size + (range.stop - range.start)) 0

theorem totalSize_append (ranges : List Range) (range : Range) :
    totalSize (ranges ++ [range]) = totalSize ranges + (range.stop - range.start) := by
  unfold totalSize
  rw [List.foldl_append]
  rfl

/-- A range inside the content. -/
structure Range.Inside (contentLength : Int) (range : Range) : Prop where
  start : 0 ≤ range.start
  nonempty : range.start < range.stop
  stop : range.stop ≤ contentLength

theorem clip_le (contentLength last : Int) : clip contentLength last ≤ contentLength := by
  unfold clip
  split_ifs with hlast <;> omega

/-- A range that is found begins and ends inside. -/
theorem RangeSpec.range_bounds (contentLength : Int) (spec : RangeSpec) :
    0 ≤ (spec.range contentLength).start ∧ (spec.range contentLength).stop ≤ contentLength := by
  cases spec with
  | onward start => exact ⟨Int.natCast_nonneg start, le_rfl⟩
  | span start last => exact ⟨Int.natCast_nonneg start, clip_le _ _⟩
  | suffix length =>
      refine ⟨?_, clip_le _ _⟩
      show 0 ≤ if (length : Int) < contentLength then contentLength - length else 0
      split_ifs with hlength <;> omega

/-- What has been kept after some iterations, when `max` ranges are allowed. -/
structure Kept (contentLength : Int) (max left : Nat) (size : Int) (ranges : List Range) :
    Prop where
  inside : ∀ range ∈ ranges, range.Inside contentLength
  size : size = totalSize ranges
  left : ranges.length + left = max

theorem Kept.keepRange {contentLength : Int} {max left left' : Nat} {size size' : Int}
    {ranges ranges' : List Range} (h : Kept contentLength max left size ranges) (spec : RangeSpec)
    (hkeep : keepRange left size ranges (spec.range contentLength)
      = .ok (left', size', ranges')) : Kept contentLength max left' size' ranges' := by
  obtain ⟨hstart, hstop⟩ := spec.range_bounds contentLength
  unfold Nginx.keepRange at hkeep
  split_ifs at hkeep with hlt hsize hleft hzero
  · obtain ⟨rfl, rfl, rfl⟩ : left - 1 = left' ∧ _ = size' ∧ _ = ranges' := by
      simpa using Except.ok.inj hkeep
    refine ⟨?_, ?_, ?_⟩
    · intro range hrange
      rcases List.mem_append.mp hrange with hold | hnew
      · exact h.inside range hold
      · rw [List.mem_singleton.mp hnew]
        exact ⟨hstart, hlt, hstop⟩
    · rw [totalSize_append, h.size]
    · have hcount := h.left
      rw [List.length_append, List.length_singleton]
      omega
  · obtain ⟨rfl, rfl, rfl⟩ : left = left' ∧ size = size' ∧ ranges = ranges' := by
      simpa using Except.ok.inj hkeep
    exact h

/-- What the parser accepts. -/
structure Accepted (contentLength : Int) (max : Nat) (ranges : List Range) : Prop where
  nonempty : ranges ≠ []
  few : ranges.length ≤ max
  inside : ∀ range ∈ ranges, range.Inside contentLength
  total : totalSize ranges ≤ contentLength

theorem Kept.rangeDone {contentLength : Int} {max left : Nat} {size : Int}
    {ranges ranges' : List Range} (h : Kept contentLength max left size ranges)
    (hdone : rangeDone contentLength size ranges = .ok ranges') :
    Accepted contentLength max ranges' := by
  unfold Nginx.rangeDone at hdone
  split_ifs at hdone with hnil hsize
  obtain rfl := Except.ok.inj hdone
  have hcount := h.left
  refine ⟨hnil, by omega, h.inside, ?_⟩
  rw [← h.size]
  omega

theorem Kept.rangeLoop {contentLength : Int} {max : Nat} :
    ∀ (fuel left : Nat) (size : Int) (ranges : List Range) (p : Bytes) {ranges' : List Range},
      Kept contentLength max left size ranges →
      rangeLoop contentLength fuel left size ranges p = .ok ranges' →
      Accepted contentLength max ranges' := by
  intro fuel
  induction fuel with
  | zero => intro left size ranges p ranges' _ h; exact absurd h (by simp [Nginx.rangeLoop])
  | succ fuel ih =>
      intro left size ranges p ranges' hkept h
      unfold Nginx.rangeLoop at h
      cases hread : readSpec p with
      | none =>
          rw [hread] at h
          exact absurd h (by simp)
      | some read =>
          obtain ⟨spec, q⟩ := read
          rw [hread] at h
          dsimp only at h
          cases hkeep : Nginx.keepRange left size ranges (spec.range contentLength) with
          | error refusal =>
              rw [hkeep] at h
              exact absurd h (by simp)
          | ok next =>
              obtain ⟨left', size', ranges''⟩ := next
              rw [hkeep] at h
              dsimp only at h
              have hkept' := hkept.keepRange spec hkeep
              split_ifs at h with hcomma
              · exact ih left' size' ranges'' _ hkept' h
              · exact hkept'.rangeDone h

theorem accepted_of_parse {contentLength : Int} {max : Nat} {value : Bytes} {ranges : List Range}
    (h : ngxHttpRangeParse contentLength max value = .ok ranges) :
    Accepted contentLength max ranges :=
  Kept.rangeLoop _ max 0 [] value ⟨by simp, rfl, by simp⟩ h

/-- **What is accepted is well formed**: for every header value and every content, the ranges
that are accepted are not more than allowed, none is empty or leaves the content, and together
they have no more bytes than the content. -/
theorem accepted_ranges (contentLength : Int) (max : Nat) (value : Bytes) (ranges : List Range)
    (h : ngxHttpRangeParse contentLength max value = .ok ranges) :
    ranges ≠ [] ∧ ranges.length ≤ max
      ∧ (∀ range ∈ ranges, 0 ≤ range.start ∧ range.start < range.stop
          ∧ range.stop ≤ contentLength)
      ∧ totalSize ranges ≤ contentLength := by
  obtain ⟨hnonempty, hfew, hinside, htotal⟩ := accepted_of_parse h
  refine ⟨hnonempty, hfew, ?_, htotal⟩
  intro range hrange
  obtain ⟨hstart, hlt, hstop⟩ := hinside range hrange
  exact ⟨hstart, hlt, hstop⟩

/-- Two ranges of a segment of 1504 bytes, `0-499,-500`. -/
theorem accepted_ranges_parts : totalSize [⟨0, 500⟩, ⟨1004, 1504⟩] ≤ 1504 :=
  (accepted_ranges 1504 2 [48, 45, 52, 57, 57, 44, 45, 53, 48, 48] [⟨0, 500⟩, ⟨1004, 1504⟩]
    (by decide +kernel)).2.2.2

/-! ## §3. It reads what was written. -/

/-- The digits of a number, most significant first; leading zeros are allowed. -/
def digitsText (digits : List Nat) : Bytes := digits.map (fun d => UInt8.ofNat (48 + d))

def digitsValue (n : Nat) (digits : List Nat) : Nat := digits.foldl (fun n d => n * 10 + d) n

/-- A number that fits into an `off_t`. -/
structure IsOff (digits : List Nat) : Prop where
  nonempty : digits ≠ []
  small : ∀ d ∈ digits, d < 10
  fits : digitsValue 0 digits ≤ ngxMaxOffTValue

/-- What follows does not go on with a digit. -/
def NoDigit (p : Bytes) : Prop := isDigitByte (peek p) = false

theorem le_digitsValue (digits : List Nat) : ∀ n, n ≤ digitsValue n digits := by
  induction digits with
  | nil => intro n; exact le_rfl
  | cons d digits ih =>
      intro n
      have h := ih (n * 10 + d)
      show n ≤ digitsValue (n * 10 + d) digits
      omega

theorem digitByte {d : Nat} (hd : d < 10) :
    isDigitByte (UInt8.ofNat (48 + d)) = true ∧ (UInt8.ofNat (48 + d)).toNat - 48 = d := by
  have hall : ∀ d < 10, isDigitByte (UInt8.ofNat (48 + d)) = true
      ∧ (UInt8.ofNat (48 + d)).toNat - 48 = d := by decide
  exact hall d hd

/-- The loop over the digits reads a number that fits. -/
theorem readOff_digits {rest : Bytes} (hrest : NoDigit rest) :
    ∀ (digits : List Nat) (n : Nat), (∀ d ∈ digits, d < 10) →
      digitsValue n digits ≤ ngxMaxOffTValue →
      readOff n (digitsText digits ++ rest) = some (digitsValue n digits, rest) := by
  intro digits
  induction digits with
  | nil =>
      intro n _ _
      cases rest with
      | nil => rfl
      | cons b rest =>
          show readOff n (b :: rest) = some (n, b :: rest)
          unfold readOff
          rw [if_neg (by rw [show isDigitByte b = false from hrest]; decide)]
  | cons d digits ih =>
      intro n hsmall hfits
      obtain ⟨hdigit, hvalue⟩ := digitByte (hsmall d List.mem_cons_self)
      have hnext : n * 10 + d ≤ ngxMaxOffTValue :=
        (le_digitsValue digits (n * 10 + d)).trans hfits
      show readOff n (UInt8.ofNat (48 + d) :: (digitsText digits ++ rest)) = _
      unfold readOff
      rw [if_pos hdigit, hvalue, if_neg (by unfold ngxMaxOffTValue at *; omega)]
      exact ih (n * 10 + d) (fun e he => hsmall e (List.mem_cons_of_mem _ he)) hfits

def spaces (n : Nat) : Bytes := List.replicate n 32

theorem skipSpaces_spaces (n : Nat) {p : Bytes} (h : peek p ≠ 32) :
    skipSpaces (spaces n ++ p) = p := by
  induction n with
  | zero =>
      cases p with
      | nil => rfl
      | cons b p =>
          show List.dropWhile (fun b => b == 32) (b :: p) = b :: p
          rw [peek_cons] at h
          rw [List.dropWhile_cons_of_neg (by simpa using h)]
  | succ n ih => exact ih

/-- A range as it is written, with the spaces `ngx_http_range_parse` skips. -/
inductive RangeText where
  | onward (before : Nat) (start : List Nat) (mid after : Nat)
  | span (before : Nat) (start : List Nat) (mid after : Nat) (last : List Nat) (behind : Nat)
  | suffix (before : Nat) (length : List Nat) (behind : Nat)
  deriving Repr, DecidableEq

namespace RangeText

def text : RangeText → Bytes
  | onward before start mid after =>
      spaces before ++ (digitsText start ++ (spaces mid ++ 45 :: spaces after))
  | span before start mid after last behind =>
      spaces before ++ (digitsText start ++ (spaces mid ++ 45 :: (spaces after
        ++ (digitsText last ++ spaces behind))))
  | suffix before length behind => spaces before ++ 45 :: (digitsText length ++ spaces behind)

def spec : RangeText → RangeSpec
  | onward _ start _ _ => .onward (digitsValue 0 start)
  | span _ start _ _ last _ => .span (digitsValue 0 start) (digitsValue 0 last)
  | suffix _ length _ => .suffix (digitsValue 0 length)

/-- Its numbers fit into an `off_t`. -/
def Fits : RangeText → Prop
  | onward _ start _ _ => IsOff start
  | span _ start _ _ last _ => IsOff start ∧ IsOff last
  | suffix _ length _ => IsOff length

end RangeText

/-- A comma or the end. -/
def AtEnd (p : Bytes) : Prop := peek p = 44 ∨ peek p = 0

instance (p : Bytes) : Decidable (AtEnd p) := inferInstanceAs (Decidable (_ ∨ _))

theorem AtEnd.not_space {p : Bytes} (h : AtEnd p) : peek p ≠ 32 := by
  rcases h with h | h <;> rw [h] <;> decide

/-- A number begins with a digit. -/
theorem peek_digits {digits : List Nat} (h : IsOff digits) (p : Bytes) :
    isDigitByte (peek (digitsText digits ++ p)) = true := by
  obtain ⟨d, ds, rfl⟩ := List.exists_cons_of_ne_nil h.nonempty
  exact (digitByte (h.small d List.mem_cons_self)).1

theorem isDigitByte_ne {b c : UInt8} (h : isDigitByte b = true) (hc : isDigitByte c = false) :
    b ≠ c := by
  intro heq
  rw [heq, hc] at h
  exact absurd h (by decide)

/-- Behind spaces stands no digit unless one follows them. -/
theorem noDigit_spaces (n : Nat) {p : Bytes} (h : NoDigit p) : NoDigit (spaces n ++ p) := by
  cases n with
  | zero => exact h
  | succ n => rfl

theorem AtEnd.noDigit {p : Bytes} (h : AtEnd p) : NoDigit p := by
  unfold NoDigit
  rcases h with h | h <;> rw [h] <;> decide

theorem readOff_isOff {digits : List Nat} (h : IsOff digits) {p : Bytes} (hp : NoDigit p) :
    readOff 0 (digitsText digits ++ p) = some (digitsValue 0 digits, p) :=
  readOff_digits hp digits 0 h.small h.fits

theorem readLast_text {digits : List Nat} (h : IsOff digits) (behind : Nat) {rest : Bytes}
    (hrest : AtEnd rest) :
    readLast (digitsText digits ++ (spaces behind ++ rest))
      = some (digitsValue 0 digits, rest) := by
  have hstop : ¬ (peek rest ≠ 44 ∧ peek rest ≠ 0) := by
    rintro ⟨hcomma, hend⟩
    rcases hrest with h | h
    · exact hcomma h
    · exact hend h
  unfold readLast
  rw [if_pos (peek_digits h _), readOff_isOff h (noDigit_spaces behind hrest.noDigit)]
  dsimp only
  rw [skipSpaces_spaces behind hrest.not_space, if_neg hstop]

/-- What is read when a number and a hyphen are there. -/
theorem readSpec_start {start : List Nat} (h : IsOff start) (before mid : Nat) (p : Bytes) :
    readSpec (spaces before ++ (digitsText start ++ (spaces mid ++ 45 :: p)))
      = if AtEnd (skipSpaces p) then some (.onward (digitsValue 0 start), skipSpaces p)
        else (readLast (skipSpaces p)).map (fun r => (.span (digitsValue 0 start) r.1, r.2)) := by
  have hdigit := peek_digits h (spaces mid ++ 45 :: p)
  have hhyphen : NoDigit (45 :: p) := by
    unfold NoDigit
    rw [peek_cons]
    decide
  unfold readSpec
  rw [skipSpaces_spaces before (isDigitByte_ne hdigit (by decide))]
  dsimp only
  rw [if_neg (isDigitByte_ne hdigit (by decide)), if_pos hdigit,
    readOff_isOff h (noDigit_spaces mid hhyphen)]
  dsimp only
  rw [skipSpaces_spaces mid (by rw [peek_cons]; decide), peek_cons, if_pos rfl]
  rfl

/-- **One range is read** as it was written. -/
theorem readSpec_text {t : RangeText} (h : t.Fits) {rest : Bytes} (hrest : AtEnd rest) :
    readSpec (t.text ++ rest) = some (t.spec, rest) := by
  cases t with
  | onward before start mid after =>
      have hstart : IsOff start := h
      show readSpec ((spaces before ++ (digitsText start ++ (spaces mid ++ 45 :: spaces after)))
        ++ rest) = _
      simp only [List.append_assoc, List.cons_append]
      rw [readSpec_start hstart, skipSpaces_spaces after hrest.not_space, if_pos hrest]
      rfl
  | span before start mid after last behind =>
      obtain ⟨hstart, hlast⟩ : IsOff start ∧ IsOff last := h
      have hdigit := peek_digits hlast (spaces behind ++ rest)
      have hgoes : ¬ AtEnd (digitsText last ++ (spaces behind ++ rest)) := by
        intro hend
        have hno : isDigitByte (peek (digitsText last ++ (spaces behind ++ rest))) = false :=
          hend.noDigit
        rw [hdigit] at hno
        exact absurd hno (by decide)
      show readSpec ((spaces before ++ (digitsText start ++ (spaces mid ++ 45 :: (spaces after
        ++ (digitsText last ++ spaces behind))))) ++ rest) = _
      simp only [List.append_assoc, List.cons_append]
      rw [readSpec_start hstart,
        skipSpaces_spaces after (isDigitByte_ne hdigit (by decide)), if_neg hgoes,
        readLast_text hlast behind hrest]
      rfl
  | suffix before length behind =>
      have hlength : IsOff length := h
      show readSpec ((spaces before ++ 45 :: (digitsText length ++ spaces behind)) ++ rest) = _
      simp only [List.append_assoc, List.cons_append]
      unfold readSpec
      rw [skipSpaces_spaces before (by rw [peek_cons]; decide)]
      dsimp only
      rw [peek_cons, if_pos rfl, List.drop_one, List.tail_cons,
        readLast_text hlength behind hrest]
      rfl

/-- The value behind `bytes=`. -/
def rangeText : RangeText → List RangeText → Bytes
  | t, [] => t.text
  | t, t' :: ts => t.text ++ 44 :: rangeText t' ts

/-- The decisions of `ngx_http_range_parse` over the ranges themselves. -/
def collect (contentLength : Int) :
    Nat → Int → List Range → List RangeSpec → Except RangeRefusal (List Range)
  | _, size, ranges, [] => rangeDone contentLength size ranges
  | left, size, ranges, spec :: specs =>
      match keepRange left size ranges (spec.range contentLength) with
      | .error refusal => .error refusal
      | .ok (left, size, ranges) => collect contentLength left size ranges specs

theorem length_text_lt (t : RangeText) (ts : List RangeText) :
    ts.length < (rangeText t ts).length + 1 := by
  induction ts generalizing t with
  | nil => exact Nat.succ_pos _
  | cons t' ts ih =>
      have h := ih t'
      show ts.length + 1 < (t.text ++ 44 :: rangeText t' ts).length + 1
      rw [List.length_append, List.length_cons]
      omega

/-- The loop over the commas is the loop over the ranges. -/
theorem rangeLoop_text (contentLength : Int) :
    ∀ (ts : List RangeText) (t : RangeText) (fuel left : Nat) (size : Int) (ranges : List Range),
      (∀ x ∈ t :: ts, x.Fits) → ts.length < fuel →
      rangeLoop contentLength fuel left size ranges (rangeText t ts)
        = collect contentLength left size ranges ((t :: ts).map RangeText.spec) := by
  intro ts
  induction ts with
  | nil =>
      intro t fuel left size ranges hfits hfuel
      obtain ⟨fuel, rfl⟩ := Nat.exists_eq_succ_of_ne_zero (Nat.ne_of_gt hfuel)
      have hread : readSpec (t.text ++ []) = some (t.spec, []) :=
        readSpec_text (hfits t List.mem_cons_self) (.inr rfl)
      rw [List.append_nil] at hread
      show rangeLoop contentLength (fuel + 1) left size ranges t.text = _
      unfold rangeLoop
      rw [hread, List.map_cons, collect]
      dsimp only
      cases keepRange left size ranges (t.spec.range contentLength) with
      | error refusal => rfl
      | ok next => rfl
  | cons t' ts ih =>
      intro t fuel left size ranges hfits hfuel
      obtain ⟨fuel, rfl⟩ := Nat.exists_eq_succ_of_ne_zero (Nat.ne_of_gt (Nat.zero_lt_of_lt hfuel))
      have hread : readSpec (t.text ++ 44 :: rangeText t' ts)
          = some (t.spec, 44 :: rangeText t' ts) :=
        readSpec_text (hfits t List.mem_cons_self) (.inl rfl)
      show rangeLoop contentLength (fuel + 1) left size ranges (t.text ++ 44 :: rangeText t' ts) = _
      unfold rangeLoop
      rw [hread, List.map_cons, collect]
      dsimp only
      cases keepRange left size ranges (t.spec.range contentLength) with
      | error refusal => rfl
      | ok next =>
          obtain ⟨left', size', ranges'⟩ := next
          dsimp only
          rw [peek_cons, if_pos rfl, List.drop_one, List.tail_cons]
          exact ih t' fuel left' size' ranges'
            (fun x hx => hfits x (List.mem_cons_of_mem _ hx)) (Nat.lt_of_succ_lt_succ hfuel)

/-- **The parser reads what was written**: on the text of any list of ranges whose numbers fit
into an `off_t`, with spaces wherever they are allowed and any number of leading zeros, it
decides over exactly these ranges. -/
theorem parse_rangeText (contentLength : Int) (max : Nat) (t : RangeText) (ts : List RangeText)
    (hfits : ∀ x ∈ t :: ts, x.Fits) :
    ngxHttpRangeParse contentLength max (rangeText t ts)
      = collect contentLength max 0 [] ((t :: ts).map RangeText.spec) :=
  rangeLoop_text contentLength ts t _ max 0 [] hfits (length_text_lt t ts)

/-- `bytes= 0-499, -500` of a segment of 1504 bytes. -/
theorem parse_rangeText_parts :
    ngxHttpRangeParse 1504 2147483647
        (rangeText (.span 1 [0] 0 0 [4, 9, 9] 0) [.suffix 1 [5, 0, 0] 0])
      = .ok [⟨0, 500⟩, ⟨1004, 1504⟩] := by
  have hoff : ∀ ds : List Nat, ds ≠ [] → (∀ d ∈ ds, d < 10) →
      digitsValue 0 ds ≤ ngxMaxOffTValue → IsOff ds := fun ds h₁ h₂ h₃ => ⟨h₁, h₂, h₃⟩
  rw [parse_rangeText 1504 2147483647 (.span 1 [0] 0 0 [4, 9, 9] 0) [.suffix 1 [5, 0, 0] 0] ?_]
  · decide +kernel
  · intro x hx
    rcases List.mem_cons.mp hx with rfl | hx
    · exact ⟨hoff [0] (by decide) (by decide) (by decide), hoff [4, 9, 9] (by decide) (by decide)
        (by decide)⟩
    · rw [List.mem_singleton.mp hx]
      exact hoff [5, 0, 0] (by decide) (by decide) (by decide)

end NginxNettyHls.Nginx
