/-
  NginxNettyHls.Nginx.Sprintf
  ───────────────────────────
  **`ngx_vslprintf`, THE FORMATTER WITH A LAST BYTE.**

  The loop runs `while (*fmt && buf < last)`, and every conversion limits what it
  copies to the room there is: nothing is ever written past `last`, and nothing
  tells the caller that something was left out.  `ngxVslprintf` is that loop on
  the room that is left, with the scanner of the flags, the copies and
  `ngx_sprintf_num` as the source has them; `%f` is not in it.

  `formatText` is the text a format stands for, without any buffer.  The two are
  compared once and for all formats:

      formatText fmt args = some text
        →  ngxSnprintf max fmt args = some (text.take max)
-/
import Mathlib.Data.List.TakeDrop
import Mathlib.Tactic.Common
import Mathlib.Tactic.NormNum
import NginxNettyHls.Nginx.Upstream

namespace NginxNettyHls.Nginx

/-! ## §1. Arguments and flags. -/

/-- An argument of the variable list. -/
inductive FmtArg where
  /-- `ngx_str_t *` or `ngx_variable_value_t *`: the `len` bytes at `data`. -/
  | str (v : Bytes)
  /-- `u_char *`: the bytes that may be read there. -/
  | ptr (p : Bytes)
  /-- An integer or an address, in the 64 bits it is passed in. -/
  | word (w : BitVec 64)

/-- `hex`: 0, 1 and 2. -/
inductive Radix where
  | decimal
  | lower
  | upper
  deriving DecidableEq

/-- The variables a conversion begins with. -/
structure Directive where
  zero : UInt8
  width : Nat
  sign : Bool
  hex : Radix
  maxWidth : Bool
  slen : Nat
  deriving DecidableEq

/-- `(size_t) -1`. -/
def noLength : Nat := 2 ^ 64 - 1

/-- `%` has been read and the next character is `c`. -/
def Directive.start (c : Char) : Directive where
  zero := if c = '0' then 48 else 32
  width := 0
  sign := true
  hex := .decimal
  maxWidth := false
  slen := noLength

/-- What the bytes of a character literal are. -/
def charByte (c : Char) : UInt8 := UInt8.ofNat c.toNat

/-- Where the scanner stands. -/
inductive FmtScan where
  /-- At the head of the loop. -/
  | text
  /-- Behind a `%`. -/
  | percent
  | width (d : Directive)
  | flags (d : Directive)
  /-- Behind a `.`; the digits matter to `%f` only. -/
  | frac (d : Directive)

/-- What the scanner makes of a character. -/
inductive FmtToken where
  | scanning (scan : FmtScan) (args : List FmtArg)
  /-- The character is the conversion itself. -/
  | convert (d : Directive)

/-- The `switch` over the flags; `none` where the list lacks the length of `*`. -/
def scanFlag (d : Directive) (c : Char) (args : List FmtArg) : Option FmtToken :=
  match c with
  | 'u' => some (.scanning (.flags { d with sign := false }) args)
  | 'm' => some (.scanning (.flags { d with maxWidth := true }) args)
  | 'X' => some (.scanning (.flags { d with hex := .upper, sign := false }) args)
  | 'x' => some (.scanning (.flags { d with hex := .lower, sign := false }) args)
  | '.' => some (.scanning (.frac d) args)
  | '*' =>
      match args with
      | .word w :: rest => some (.scanning (.flags { d with slen := w.toNat }) rest)
      | _ => none
  | _ => some (.convert d)

/-- The loop over the digits of the width, then the flags. -/
def scanWidth (d : Directive) (c : Char) (args : List FmtArg) : Option FmtToken :=
  if c.isDigit then
    some (.scanning (.width { d with width := (d.width * 10 + (c.toNat - 48)) % 2 ^ 64 }) args)
  else scanFlag d c args

/-- One character of a conversion. -/
def FmtScan.next (c : Char) (args : List FmtArg) : FmtScan → Option FmtToken
  | .text => none
  -- a leading `0` chooses the padding and is a digit of the width as well
  | .percent => scanWidth (Directive.start c) c args
  | .width d => scanWidth d c args
  | .flags d => scanFlag d c args
  | .frac d => if c.isDigit then some (.scanning (.frac d) args) else some (.convert d)

/-! ## §2. Conversions. -/

/-- What a conversion writes, by the way it is written. -/
inductive Emit where
  /-- `ngx_cpymem` of `ngx_min(last - buf, len)` bytes. -/
  | copy (v : Bytes)
  /-- `while (*p && buf < last) *buf++ = *p++`. -/
  | chars (p : Bytes)
  /-- `*buf++ = b` without a check. -/
  | one (b : UInt8)
  /-- A minus sign without a check, then `ngx_sprintf_num`. -/
  | num (minus : Bool) (ui64 : Nat) (zero : UInt8) (hex : Radix) (width : Nat)

/-- `NGX_INT_T_LEN` and `NGX_ATOMIC_T_LEN`. -/
def ngxIntTLen : Nat := 20

/-- A signed number. -/
def Directive.signed (d : Directive) (i64 : Int) : Emit :=
  .num (decide (i64 < 0)) i64.natAbs d.zero d.hex d.width

/-- A number of `bits` bits, signed or not as the flags say. -/
def Directive.integer (d : Directive) (bits : Nat) (w : BitVec 64) : Emit :=
  if d.sign then d.signed (w.setWidth bits).toInt
  else .num false (w.setWidth bits).toNat d.zero d.hex d.width

/-- `max_width`. -/
def Directive.widest (d : Directive) : Directive :=
  if d.maxWidth then { d with width := ngxIntTLen } else d

/-- The `switch` over the conversions that take a number. -/
def convertNumber (d : Directive) (c : Char) (w : BitVec 64) : Option Emit :=
  match c with
  | 'O' | 'T' | 'r' => some (d.signed w.toInt)
  | 'P' => some (d.signed (w.setWidth 32).toInt)
  | 'M' =>
      if w.toInt = -1 then some (d.signed (-1))
      else some (.num false w.toNat d.zero d.hex d.width)
  | 'z' | 'l' | 'L' => some (d.integer 64 w)
  | 'i' | 'A' => some (d.widest.integer 64 w)
  | 'd' | 'D' => some (d.integer 32 w)
  | 'p' => some (.num false w.toNat 48 .upper 16)
  | 'c' => some (.one (UInt8.ofNat w.toNat))
  | _ => none

/-- `%s`: up to the NUL, or the given number of bytes. -/
def convertString (d : Directive) (p : Bytes) : Option Emit :=
  if d.slen = noLength then
    if (0 : UInt8) ∈ p then some (.chars (p.takeWhile (fun b => b ≠ 0))) else none
  else if d.slen ≤ p.length then some (.copy (p.take d.slen))
  else none

/-- The `switch` over the conversions: what is written and the arguments left;
`none` where the list does not hold what the conversion takes. -/
def convert (d : Directive) (c : Char) (args : List FmtArg) : Option (Emit × List FmtArg) :=
  match c with
  | 'Z' => some (.one 0, args)
  | 'N' => some (.one 10, args)
  | 'f' => none
  | 'V' | 'v' =>
      match args with
      | .str v :: rest => some (.copy v, rest)
      | _ => none
  | 's' =>
      match args with
      | .ptr p :: rest => (convertString d p).map (fun e => (e, rest))
      | _ => none
  | 'O' | 'P' | 'T' | 'M' | 'z' | 'i' | 'd' | 'l' | 'D' | 'L' | 'A' | 'r' | 'p' | 'c' =>
      match args with
      | .word w :: rest => (convertNumber d c w).map (fun e => (e, rest))
      | _ => none
  -- also `%%`
  | _ => some (.one (charByte c), args)

/-! ## §3. Writing into the room there is. -/

/-- The digits `temp` holds. -/
def numDigits (hex : Radix) (ui64 : Nat) : Bytes :=
  match hex with
  | .decimal => (Nat.toDigits 10 ui64).map charByte
  | .lower => (Nat.toDigits 16 ui64).map charByte
  | .upper => (Nat.toDigits 16 ui64).map (fun c => charByte c.toUpper)

/-- `ngx_sprintf_num` with `room` bytes before `last`. -/
def ngxSprintfNum (room ui64 : Nat) (zero : UInt8) (hex : Radix) (width : Nat) : Bytes :=
  let digits := numDigits hex ui64
  -- `while (len++ < width && buf < last)`
  let padding := List.replicate (min (width - digits.length) room) zero
  -- `if (buf + len > last) len = last - buf`
  padding ++ digits.take (min digits.length (room - padding.length))

/-- What is written when there are `room` bytes, at least one. -/
def Emit.put (room : Nat) : Emit → Bytes
  | .copy v => v.take (min room v.length)
  | .chars p => p.take room
  | .one b => [b]
  | .num minus ui64 zero hex width =>
      if minus then 45 :: ngxSprintfNum (room - 1) ui64 zero hex width
      else ngxSprintfNum room ui64 zero hex width

/-- `ngx_vslprintf` with `room` bytes between `buf` and `last`: the bytes between `buf`
and the pointer it returns.  `none` where a conversion does not find its argument or
the format ends inside a conversion. -/
def ngxVslprintf : FmtScan → Nat → List Char → List FmtArg → Option Bytes
  | .text, _, [], _ => some []
  | _, _, [], _ => none
  | .text, room, c :: fmt, args =>
      if room = 0 then some []
      else if c = '%' then ngxVslprintf .percent room fmt args
      else (ngxVslprintf .text (room - 1) fmt args).map (fun out => charByte c :: out)
  | scan, room, c :: fmt, args =>
      match scan.next c args with
      | none => none
      | some (.scanning scan' args') => ngxVslprintf scan' room fmt args'
      | some (.convert d) =>
          match convert d c args with
          | none => none
          | some (e, args') =>
              (ngxVslprintf .text (room - (e.put room).length) fmt args').map
                (fun out => e.put room ++ out)

/-- `ngx_snprintf(buf, max, fmt, ...)`. -/
def ngxSnprintf (max : Nat) (fmt : String) (args : List FmtArg) : Option Bytes :=
  ngxVslprintf .text max fmt.toList args

/-! ## §4. The text of a format. -/

/-- What a conversion stands for. -/
def Emit.text : Emit → Bytes
  | .copy v => v
  | .chars p => p
  | .one b => [b]
  | .num minus ui64 zero hex width =>
      (if minus then [45] else [])
        ++ (List.replicate (width - (numDigits hex ui64).length) zero ++ numDigits hex ui64)

/-- The text a format stands for, from where the scanner is. -/
def formatText : FmtScan → List Char → List FmtArg → Option Bytes
  | .text, [], _ => some []
  | _, [], _ => none
  | .text, c :: fmt, args =>
      if c = '%' then formatText .percent fmt args
      else (formatText .text fmt args).map (fun out => charByte c :: out)
  | scan, c :: fmt, args =>
      match scan.next c args with
      | none => none
      | some (.scanning scan' args') => formatText scan' fmt args'
      | some (.convert d) =>
          match convert d c args with
          | none => none
          | some (e, args') => (formatText .text fmt args').map (fun out => e.text ++ out)

/-! ## §5. What is left of the text. -/

theorem sprintfNum_eq_take (room ui64 : Nat) (zero : UInt8) (hex : Radix) (width : Nat) :
    ngxSprintfNum room ui64 zero hex width
      = (List.replicate (width - (numDigits hex ui64).length) zero
          ++ numDigits hex ui64).take room := by
  unfold ngxSprintfNum
  generalize numDigits hex ui64 = digits
  simp only [List.length_replicate]
  rw [List.take_append, List.take_replicate, List.length_replicate, Nat.min_comm room]
  congr 1
  -- either the padding fills the room, or the digits have what it leaves
  rw [Nat.min_comm, ← List.take_eq_take_min]
  congr 1
  omega

/-- **Every conversion is cut where the room ends.** -/
theorem Emit.put_eq_take {room : Nat} (hroom : 0 < room) (e : Emit) :
    e.put room = e.text.take room := by
  cases e with
  | copy v => exact (List.take_eq_take_min).symm
  | chars p => rfl
  | one b =>
      show [b] = [b].take room
      exact (List.take_of_length_le hroom).symm
  | num minus ui64 zero hex width =>
      cases minus with
      | false => exact sprintfNum_eq_take room ui64 zero hex width
      | true =>
          obtain ⟨n, rfl⟩ : ∃ n, room = n + 1 := ⟨room - 1, by omega⟩
          show 45 :: ngxSprintfNum n ui64 zero hex width = _
          rw [sprintfNum_eq_take]
          rfl

/-- The text of a format from inside a conversion. -/
theorem formatText_conv {scan : FmtScan} (hscan : scan ≠ .text) (c : Char) (fmt : List Char)
    (args : List FmtArg) :
    formatText scan (c :: fmt) args
      = match scan.next c args with
        | none => none
        | some (.scanning scan' args') => formatText scan' fmt args'
        | some (.convert d) =>
            match convert d c args with
            | none => none
            | some (e, args') => (formatText .text fmt args').map (fun out => e.text ++ out) := by
  rw [formatText]
  exact hscan

/-- **The formatter writes the text of the format up to the end of the buffer**, from
wherever the scanner is; inside a conversion there is room for a byte at least. -/
theorem vslprintf_eq_take (scan : FmtScan) (room : Nat) (fmt : List Char) (args : List FmtArg) :
    ∀ text : Bytes, (scan = .text ∨ 0 < room) → formatText scan fmt args = some text →
      ngxVslprintf scan room fmt args = some (text.take room) := by
  fun_induction ngxVslprintf scan room fmt args with
  | case1 room args =>
      -- the format has ended
      intro text _ h
      obtain rfl : [] = text := Option.some.inj h
      rw [List.take_nil]
  | case2 scan room args hscan =>
      intro text _ h
      rw [formatText] at h
      · exact absurd h (by simp)
      · exact hscan
  | case3 c fmt args =>
      intro text _ _
      rw [List.take_zero]
  | case4 room fmt args hzero ih =>
      intro text _ h
      rw [formatText, if_pos rfl] at h
      exact ih text (Or.inr (Nat.pos_of_ne_zero hzero)) h
  | case5 room c fmt args hzero hc ih =>
      intro text _ h
      rw [formatText, if_neg hc] at h
      obtain ⟨rest, hrest, rfl⟩ := Option.map_eq_some_iff.mp h
      obtain ⟨n, rfl⟩ : ∃ n, room = n + 1 := ⟨room - 1, by omega⟩
      rw [ih rest (Or.inl rfl) hrest]
      rfl
  | case6 scan room c fmt args hscan hnext =>
      intro text _ h
      rw [formatText_conv hscan, hnext] at h
      exact absurd h (by simp)
  | case7 scan room c fmt args hscan scan' args' hnext ih =>
      intro text hroom h
      rw [formatText_conv hscan, hnext] at h
      exact ih text (Or.inr (hroom.resolve_left hscan)) h
  | case8 scan room c fmt args hscan d hnext hconv =>
      intro text _ h
      simp only [formatText_conv hscan, hnext, hconv] at h
      exact absurd h (by simp)
  | case9 scan room c fmt args hscan d hnext e args' hconv ih =>
      intro text hroom h
      simp only [formatText_conv hscan, hnext, hconv] at h
      obtain ⟨rest, hrest, rfl⟩ := Option.map_eq_some_iff.mp h
      rw [ih rest (Or.inl rfl) hrest, e.put_eq_take (hroom.resolve_left hscan),
        List.take_append, List.length_take]
      -- the rest goes into what the conversion leaves of the room
      have hleft : room - min room e.text.length = room - e.text.length := by omega
      rw [hleft]
      rfl

theorem snprintf_eq_take (max : Nat) {fmt : String} {args : List FmtArg} {text : Bytes}
    (h : formatText .text fmt.toList args = some text) :
    ngxSnprintf max fmt args = some (text.take max) :=
  vslprintf_eq_take .text max fmt.toList args text (Or.inl rfl) h

/-- A text that does not fit is cut without any sign of it. -/
example : ngxSnprintf 4 "%V?%V" [.str [97, 98], .str [99, 100]] = some [97, 98, 63, 99] := by
  decide

end NginxNettyHls.Nginx
