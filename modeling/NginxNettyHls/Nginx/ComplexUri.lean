/-
  NginxNettyHls.Nginx.ComplexUri
  ──────────────────────────────
  **`ngx_http_parse_complex_uri`.**

  The scanner reads a request target byte by byte and writes `r->uri`: it merges
  slashes, takes `.` and `..` segments away once the slash behind them is read, and
  undoes escapes on the way.  What a byte does depends on the segment before it
  alone, so the scanner is a walk:

    • `Scan.Holds` — what is written is the position reached and the segment begun;
    • `scan_raw`, `scan_escape` — one character of the target, escaped or not, extends
      the segment or, a slash, makes the step of the segment;
    • `parsed_uri` — `r->uri` is the position all segments but the last lead to,
      without ever going up from the top, and behind it the last segment as it is.

  The bookkeeping of `uri_ext`, `exten` and the flags is left out.
-/
import NginxNettyHls.Text.Paths
import NginxNettyHls.Nginx.Upstream

namespace NginxNettyHls.Nginx

open Text

/-! ## §1. The scanner. -/

inductive UriState where
  | usual
  | slash
  | dot
  | dotDot
  | quoted
  | quotedSecond
  deriving Repr, DecidableEq

/-- The variables of the loop. -/
structure Scan where
  state : UriState
  quotedState : UriState
  decoded : UInt8
  /-- What lies between `r->uri.data` and `u`. -/
  u : Bytes
  deriving Repr, DecidableEq

/-- `*u++ = ch`, with the next state. -/
def Scan.put (s : Scan) (ch : UInt8) (state : UriState) : Scan :=
  { s with state := state, u := s.u ++ [ch] }

inductive ScanStep where
  | next (s : Scan)
  /-- `goto args` -/
  | args
  /-- `goto done` -/
  | done
  /-- `return NGX_HTTP_PARSE_INVALID_REQUEST` -/
  | invalid
  deriving Repr, DecidableEq

/-- The table `usual[]`. -/
def usualTable : List Nat :=
  [0xffffdbfe, 0x7fff37d6, 0xffffffff, 0xffffffff,
   0xffffffff, 0xffffffff, 0xffffffff, 0xffffffff]

def isUsual (ch : UInt8) : Bool :=
  (usualTable.getD (ch.toNat / 32) 0).testBit (ch.toNat % 32)

/-- The search of `sw_dot_dot`: back from the byte before the first `n` ones, to behind a
slash. -/
def backToSlash (u : Bytes) : Nat → Option Bytes
  | 0 => none
  | n + 1 => if u[n]? = some 47 then some (u.take (n + 1)) else backToSlash u n

/-- What the first four states have in common; they differ in what a slash and a dot do. -/
def switchOn (s : Scan) (ch : UInt8) (onSlash onDot : ScanStep) : ScanStep :=
  if isUsual ch then .next (s.put ch .usual)
  else if ch = 47 then onSlash
  else if ch = 37 then .next { s with quotedState := s.state, state := .quoted }
  else if ch = 63 then .args
  else if ch = 35 then .done
  else if ch = 46 then onDot
  else .next (s.put ch .usual)

/-- The states `sw_usual` to `sw_dot_dot`. -/
def switchState (mergeSlashes : Bool) (s : Scan) (ch : UInt8) : ScanStep :=
  match s.state with
  | .usual => switchOn s ch (.next (s.put ch .slash)) (.next (s.put ch .usual))
  | .slash =>
      switchOn s ch (.next { s with u := if mergeSlashes then s.u else s.u ++ [ch] })
        (.next (s.put ch .dot))
  | .dot =>
      switchOn s ch (.next { s with state := .slash, u := s.u.dropLast })
        (.next (s.put ch .dotDot))
  | .dotDot =>
      -- `u -= 5`: the byte in front of the slash before the two dots is not looked at
      switchOn s ch
        (match backToSlash s.u (s.u.length - 4) with
          | none => .invalid
          | some u => .next { s with state := .slash, u := u })
        (.next (s.put ch .usual))
  -- not reached: `quoted_state` is one of the states above
  | .quoted => .invalid
  | .quotedSecond => .invalid

/-- One iteration of the loop; after the second digit of an escape, two. -/
def scanByte (mergeSlashes : Bool) (s : Scan) (ch : UInt8) : ScanStep :=
  match s.state with
  | .quoted =>
      let c := ch ||| 0x20
      if 48 ≤ ch ∧ ch ≤ 57 then .next { s with state := .quotedSecond, decoded := ch - 48 }
      else if 97 ≤ c ∧ c ≤ 102 then
        .next { s with state := .quotedSecond, decoded := c - 97 + 10 }
      else .invalid
  | .quotedSecond =>
      let c := ch ||| 0x20
      if 48 ≤ ch ∧ ch ≤ 57 then
        let ch := (s.decoded <<< 4) + ch - 48
        if ch = 37 ∨ ch = 35 then .next (s.put ch .usual)
        else if ch = 0 then .invalid
        else switchState mergeSlashes { s with state := s.quotedState } ch
      else if 97 ≤ c ∧ c ≤ 102 then
        let ch := (s.decoded <<< 4) + c - 97 + 10
        if ch = 63 then .next (s.put ch .usual)
        else switchState mergeSlashes { s with state := s.quotedState } ch
      else .invalid
  | _ => switchState mergeSlashes s ch

/-- `r->uri` and `r->args`, the latter as the caller completes it from `args_start`. -/
structure ParsedUri where
  uri : Bytes
  args : Bytes
  deriving Repr, DecidableEq

/-- The loop. -/
def scan (mergeSlashes : Bool) : Scan → Bytes → Option ParsedUri
  | s, [] => some ⟨s.u, []⟩
  | s, ch :: rest =>
      match scanByte mergeSlashes s ch with
      | .next s' => scan mergeSlashes s' rest
      | .args => some ⟨s.u, rest.takeWhile (fun b => b ≠ 35)⟩
      | .done => some ⟨s.u, []⟩
      | .invalid => none

/-- `ngx_http_parse_complex_uri` on the bytes from `r->uri_start` to `r->uri_end`. -/
def ngxHttpParseComplexUri (mergeSlashes : Bool) (target : Bytes) : Option ParsedUri :=
  scan mergeSlashes ⟨.usual, .usual, 0, []⟩ target

/-! ## §2. A byte of the path. -/

/-- The state behind a segment that has begun with `cur`. -/
def stateOf (cur : Bytes) : UriState :=
  if cur = [] then .slash else if cur = [46] then .dot
  else if cur = [46, 46] then .dotDot else .usual

/-- **The invariant**: the scanner is at `stack`, in a segment that begins with `cur`. -/
structure Scan.Holds (s : Scan) (stack : List Bytes) (cur : Bytes) : Prop where
  state : s.state = stateOf cur
  u : s.u = joinNames 47 stack ++ 47 :: cur
  names : ∀ name ∈ stack, IsName 47 46 name
  cur : 47 ∉ cur

/-- What a byte of the path amounts to. -/
def follow (stack : List Bytes) (cur : Bytes) (b : UInt8) : Option (List Bytes × Bytes) :=
  if b = 47 then (tryClimb stack (pathStep 46 cur)).map (fun stack => (stack, []))
  else some (stack, cur ++ [b])

theorem not_special_of_isUsual {b : UInt8} (h : isUsual b = true) : b ≠ 47 ∧ b ≠ 46 := by
  constructor
  · intro hb
    rw [hb] at h
    exact absurd h (by decide)
  · intro hb
    rw [hb] at h
    exact absurd h (by decide)

/-- A byte other than `%`, `?` and `#`. -/
theorem switchOn_data {b : UInt8} (hb : b ≠ 37 ∧ b ≠ 63 ∧ b ≠ 35) (s : Scan)
    (onSlash onDot : ScanStep) :
    switchOn s b onSlash onDot
      = if b = 47 then onSlash else if b = 46 then onDot else .next (s.put b .usual) := by
  unfold switchOn
  rw [if_neg hb.1, if_neg hb.2.1, if_neg hb.2.2]
  by_cases husual : isUsual b = true
  · obtain ⟨hslash, hdot⟩ := not_special_of_isUsual husual
    rw [if_pos husual, if_neg hslash, if_neg hdot]
  · rw [if_neg husual]

/-- The search back stops behind the last slash. -/
theorem backToSlash_append {w : Bytes} (hw : 47 ∉ w) (v : Bytes) :
    ∀ (rest : Bytes),
      backToSlash (v ++ 47 :: (w ++ rest)) (v.length + 1 + w.length) = some (v ++ [47]) := by
  induction w using List.reverseRecOn with
  | nil =>
      intro rest
      show (if (v ++ 47 :: rest)[v.length]? = some 47 then _ else _) = _
      rw [if_pos (by simp)]
      simp [List.take_append]
  | append_singleton w c ih =>
      intro rest
      have hc : c ≠ 47 := by
        intro h
        exact hw (by rw [h]; simp)
      have hget : (v ++ 47 :: (w ++ [c] ++ rest))[v.length + 1 + w.length]? = some c := by
        rw [List.getElem?_append_right (by omega),
          show v.length + 1 + w.length - v.length = w.length + 1 by omega,
          List.getElem?_cons_succ, List.append_assoc, List.getElem?_append_right (Nat.le_refl _),
          Nat.sub_self]
        rfl
      rw [List.length_append, List.length_singleton, ← Nat.add_assoc]
      show (if (v ++ 47 :: (w ++ [c] ++ rest))[v.length + 1 + w.length]? = some 47 then _
        else _) = _
      rw [hget, if_neg (fun h => hc (Option.some.inj h)), List.append_assoc]
      exact ih (fun h => hw (List.mem_append_left _ h)) ([c] ++ rest)

/-- `..` and a slash take the last name away. -/
theorem backToSlash_joinNames {stack : List Bytes} (h : ∀ name ∈ stack, IsName 47 46 name) :
    backToSlash (joinNames 47 stack ++ [47, 46, 46])
        ((joinNames 47 stack ++ [47, 46, 46]).length - 4)
      = if stack.length = 0 then none else some (joinNames 47 stack.dropLast ++ [47]) := by
  cases stack using List.reverseRecOn with
  | nil => rfl
  | append_singleton stack name =>
      have hname := h name (List.mem_append_right _ List.mem_cons_self)
      rw [if_neg (by simp), List.dropLast_concat, joinNames_concat]
      cases name using List.reverseRecOn with
      | nil => exact absurd hname.step (by decide)
      | append_singleton w c =>
          -- the search begins in front of the last byte of the name
          have hlen : (joinNames 47 stack ++ 47 :: (w ++ [c]) ++ [47, 46, 46]).length - 4
              = (joinNames 47 stack).length + 1 + w.length := by
            simp only [List.length_append, List.length_cons, List.length_nil]
            omega
          have hw : 47 ∉ w := fun hmem => hname.sep (List.mem_append_left _ hmem)
          rw [hlen, List.append_assoc, List.cons_append, List.append_assoc]
          exact backToSlash_append hw _ _

theorem stateOf_concat {b : UInt8} (hb : b ≠ 46) (cur : Bytes) :
    stateOf (cur ++ [b]) = .usual := by
  have hne : ∀ l : Bytes, l.getLast? = some 46 → cur ++ [b] ≠ l := by
    intro l hl h
    rw [← h, List.getLast?_concat] at hl
    exact hb (Option.some.inj hl)
  unfold stateOf
  rw [if_neg (by simp), if_neg (hne _ rfl), if_neg (hne _ rfl)]

/-- A segment that is neither empty nor dots only. -/
theorem segment_cases (cur : Bytes) :
    cur = [] ∨ cur = [46] ∨ cur = [46, 46]
      ∨ (stateOf cur = .usual ∧ pathStep 46 cur = .down cur
          ∧ stateOf (cur ++ [46]) = .usual) := by
  by_cases h0 : cur = []
  · exact Or.inl h0
  by_cases h1 : cur = [46]
  · exact Or.inr (Or.inl h1)
  by_cases h2 : cur = [46, 46]
  · exact Or.inr (Or.inr (Or.inl h2))
  right; right; right
  have h1' : cur ++ [46] ≠ [46] :=
    fun h => h0 (List.append_cancel_right (show _ = [] ++ [46] from h))
  have h2' : cur ++ [46] ≠ [46, 46] :=
    fun h => h1 (List.append_cancel_right (show _ = [46] ++ [46] from h))
  refine ⟨?_, ?_, ?_⟩
  · unfold stateOf
    rw [if_neg h0, if_neg h1, if_neg h2]
  · unfold pathStep
    rw [if_neg (by rintro (h | h) <;> contradiction), if_neg h2]
  · unfold stateOf
    rw [if_neg (by simp), if_neg h1', if_neg h2']

section Invariant

variable {s : Scan} {stack : List Bytes} {cur : Bytes} {b : UInt8}

theorem Scan.Holds.put (h : s.Holds stack cur) (hb : b ≠ 47) {state : UriState}
    (hstate : stateOf (cur ++ [b]) = state) : (s.put b state).Holds stack (cur ++ [b]) where
  state := hstate.symm
  u := by
    show s.u ++ [b] = _
    rw [h.u, List.append_assoc]
    rfl
  names := h.names
  cur := by
    intro hmem
    rcases List.mem_append.mp hmem with hmem | hmem
    · exact h.cur hmem
    · exact hb (List.mem_singleton.mp hmem).symm

/-- Behind a slash. -/
theorem Scan.Holds.slash {u : Bytes} {quotedState : UriState} {decoded : UInt8}
    (hu : u = joinNames 47 stack ++ [47]) (hnames : ∀ name ∈ stack, IsName 47 46 name) :
    (Scan.mk .slash quotedState decoded u).Holds stack [] where
  state := rfl
  u := hu
  names := hnames
  cur := List.not_mem_nil

/-- The outcome of a step that `follow` describes. -/
def Follows (stack : List Bytes) (cur : Bytes) (b : UInt8) (step : ScanStep) : Prop :=
  match follow stack cur b with
  | none => step = .invalid
  | some (stack', cur') => ∃ s', step = .next s' ∧ s'.Holds stack' cur'

theorem follows_put (h : s.Holds stack cur) (hb : b ≠ 47) {state : UriState}
    (hstate : stateOf (cur ++ [b]) = state) :
    Follows stack cur b (.next (s.put b state)) := by
  unfold Follows follow
  rw [if_neg hb]
  exact ⟨_, rfl, h.put hb hstate⟩

theorem follows_switchOn (h : s.Holds stack cur) (hb : b ≠ 37 ∧ b ≠ 63 ∧ b ≠ 35)
    {onSlash onDot : ScanStep} (hslash : b = 47 → Follows stack cur 47 onSlash)
    (hdot : b = 46 → Follows stack cur 46 onDot) :
    Follows stack cur b (switchOn s b onSlash onDot) := by
  rw [switchOn_data hb]
  by_cases h47 : b = 47
  · rw [if_pos h47]
    have hfollows := hslash h47
    rwa [← h47] at hfollows
  · rw [if_neg h47]
    by_cases h46 : b = 46
    · rw [if_pos h46]
      have hfollows := hdot h46
      rwa [← h46] at hfollows
    · rw [if_neg h46]
      exact follows_put h h47 (stateOf_concat h46 cur)

/-- A slash makes the step of the segment before it. -/
theorem follows_slash {step : ScanStep} {stack' : List Bytes}
    (hclimb : tryClimb stack (pathStep 46 cur) = some stack')
    (hstep : ∃ s', step = .next s' ∧ s'.Holds stack' []) : Follows stack cur 47 step := by
  unfold Follows follow
  rw [if_pos rfl, hclimb]
  exact hstep

/-- **A byte in one of the first four states.** -/
theorem Scan.Holds.switchState (h : s.Holds stack cur) (hb : b ≠ 37 ∧ b ≠ 63 ∧ b ≠ 35) :
    Follows stack cur b (switchState true s b) := by
  unfold Nginx.switchState
  rw [h.state]
  rcases segment_cases cur with rfl | rfl | rfl | ⟨hstate, hdown, hdot⟩
  · -- `sw_slash`: another slash changes nothing
    refine follows_switchOn h hb
      (fun _ => follows_slash rfl ⟨_, rfl, .slash h.u h.names⟩) (fun h46 => ?_)
    rw [h46]
    exact follows_put h (by decide) rfl
  · -- `sw_dot`: the dot is taken back
    refine follows_switchOn h hb (fun _ => follows_slash rfl ⟨_, rfl, ?_⟩) (fun h46 => ?_)
    · apply Scan.Holds.slash _ h.names
      rw [h.u, show joinNames 47 stack ++ [47, 46] = joinNames 47 stack ++ [47] ++ [46] by simp,
        List.dropLast_concat]
    · rw [h46]
      exact follows_put h (by decide) rfl
  · -- `sw_dot_dot`: so is the name before the dots
    refine follows_switchOn h hb (fun _ => ?_) (fun h46 => ?_)
    · rw [h.u, backToSlash_joinNames h.names]
      by_cases hempty : stack.length = 0
      · rw [if_pos hempty]
        unfold Follows follow
        rw [if_pos rfl, show tryClimb stack (pathStep 46 [46, 46]) = none from if_pos hempty]
        rfl
      · rw [if_neg hempty]
        refine follows_slash (if_neg hempty) ⟨_, rfl, Scan.Holds.slash rfl ?_⟩
        intro name hname
        exact h.names name (List.mem_of_mem_dropLast hname)
    · rw [h46]
      exact follows_put h (by decide) rfl
  · -- `sw_usual`: the segment is a name
    rw [hstate]
    refine follows_switchOn h hb (fun h47 => ?_) (fun h46 => ?_)
    · rw [h47]
      refine follows_slash (by rw [hdown]; rfl) ⟨_, rfl, Scan.Holds.slash ?_ ?_⟩
      · rw [h.u, joinNames_concat]
      · intro name hname
        rcases List.mem_append.mp hname with hname | hname
        · exact h.names name hname
        · rw [List.mem_singleton.mp hname]
          exact ⟨hdown, h.cur⟩
    · rw [h46]
      exact follows_put h (by decide) hdot

theorem Follows.next {step : ScanStep} (h : Follows stack cur b step) (hne : step ≠ .invalid) :
    ∃ stack' cur' s', follow stack cur b = some (stack', cur') ∧ step = .next s'
      ∧ s'.Holds stack' cur' := by
  unfold Follows at h
  cases hfollow : follow stack cur b with
  | none =>
      rw [hfollow] at h
      exact absurd h hne
  | some p =>
      rw [hfollow] at h
      obtain ⟨s', hstep, hholds⟩ := h
      exact ⟨p.1, p.2, s', rfl, hstep, hholds⟩

/-- Between two characters the scanner is in one of the first four states. -/
theorem Scan.Holds.scanByte_eq (h : s.Holds stack cur) :
    scanByte true s b = Nginx.switchState true s b := by
  unfold scanByte
  rw [h.state]
  unfold stateOf
  split_ifs <;> rfl

theorem Scan.Holds.switchState_eq (h : s.Holds stack cur) :
    ∃ onSlash onDot, Nginx.switchState true s b = switchOn s b onSlash onDot := by
  unfold Nginx.switchState
  rw [h.state]
  unfold stateOf
  split_ifs <;> exact ⟨_, _, rfl⟩

end Invariant

/-! ## §3. Escapes. -/

/-- The value of a hexadecimal digit, of either case. -/
def hexValue (ch : UInt8) : Option UInt8 :=
  if 48 ≤ ch ∧ ch ≤ 57 then some (ch - 48)
  else if 97 ≤ ch ||| 0x20 ∧ ch ||| 0x20 ≤ 102 then some ((ch ||| 0x20) - 97 + 10)
  else none

/-- A character of a target: a byte that is written as it is or as an escape. -/
structure Token where
  byte : UInt8
  escaped : Bool
  deriving Repr, DecidableEq

/-- The characters of a target, `none` where a `%` is not followed by two digits. -/
def tokens : Bytes → Option (List Token)
  | [] => some []
  | b :: rest =>
      if b = 37 then
        match rest with
        | h1 :: h2 :: rest =>
            match hexValue h1, hexValue h2 with
            | some x, some y => (tokens rest).map (⟨(x <<< 4) + y, true⟩ :: ·)
            | _, _ => none
        | _ => none
      else (tokens rest).map (⟨b, false⟩ :: ·)

theorem tokens_raw {b : UInt8} (hb : b ≠ 37) (rest : Bytes) :
    tokens (b :: rest) = (tokens rest).map (⟨b, false⟩ :: ·) := by
  rw [tokens.eq_def]
  exact if_neg hb

/-- The first character of a target. -/
theorem tokens_cons {target : Bytes} {t : Token} {toks : List Token}
    (h : tokens target = some (t :: toks)) :
    (∃ b rest, target = b :: rest ∧ b ≠ 37 ∧ t = ⟨b, false⟩ ∧ tokens rest = some toks)
      ∨ ∃ h1 h2 x y rest, target = 37 :: h1 :: h2 :: rest ∧ hexValue h1 = some x
          ∧ hexValue h2 = some y ∧ t = ⟨(x <<< 4) + y, true⟩ ∧ tokens rest = some toks := by
  cases target with
  | nil => exact absurd h (by simp [tokens])
  | cons b rest =>
      rw [tokens.eq_def] at h
      dsimp only at h
      by_cases hb : b = 37
      · right
        rw [if_pos hb] at h
        split at h
        · rename_i h1 h2 rest'
          split at h
          · rename_i x y hx hy
            obtain ⟨toks', htoks, heq⟩ := Option.map_eq_some_iff.mp h
            obtain ⟨ht, hrest⟩ := List.cons.inj heq
            exact ⟨h1, h2, x, y, rest', by rw [hb], hx, hy, ht.symm, by rw [htoks, hrest]⟩
          · exact absurd h (by simp)
        · exact absurd h (by simp)
      · left
        rw [if_neg hb] at h
        obtain ⟨toks', htoks, heq⟩ := Option.map_eq_some_iff.mp h
        obtain ⟨ht, hrest⟩ := List.cons.inj heq
        exact ⟨b, rest, rfl, hb, ht.symm, by rw [htoks, hrest]⟩

theorem tokens_nil {target : Bytes} (h : tokens target = some []) : target = [] := by
  cases target with
  | nil => rfl
  | cons b rest =>
      rw [tokens.eq_def] at h
      dsimp only at h
      split_ifs at h with hb
      · split at h
        · split at h
          · exact absurd h (by simp)
          · exact absurd h (by simp)
        · exact absurd h (by simp)
      · exact absurd h (by simp)

/-- The two ranges of digits. -/
theorem hexValue_cases {ch y : UInt8} (h : hexValue ch = some y) :
    ((48 ≤ ch ∧ ch ≤ 57) ∧ y = ch - 48 ∧ y.toNat < 10)
      ∨ (¬ (48 ≤ ch ∧ ch ≤ 57) ∧ (97 ≤ ch ||| 0x20 ∧ ch ||| 0x20 ≤ 102)
          ∧ y = (ch ||| 0x20) - 97 + 10 ∧ 10 ≤ y.toNat ∧ y.toNat < 16) := by
  unfold hexValue at h
  split_ifs at h with hdigit hletter
  · left
    have hy := (Option.some.inj h).symm
    refine ⟨hdigit, hy, ?_⟩
    rw [hy, UInt8.toNat_sub_of_le _ _ hdigit.1]
    have h57 : ch.toNat ≤ 57 := hdigit.2
    show ch.toNat - 48 < 10
    omega
  · right
    have hy := (Option.some.inj h).symm
    have hlo : 97 ≤ (ch ||| 0x20).toNat := hletter.1
    have hhi : (ch ||| 0x20).toNat ≤ 102 := hletter.2
    have hval : y.toNat = (ch ||| 0x20).toNat - 97 + 10 := by
      rw [hy, UInt8.toNat_add, UInt8.toNat_sub_of_le _ _ hletter.1]
      show ((ch ||| 0x20).toNat - 97 + 10) % 256 = _
      omega
    exact ⟨hdigit, hletter, hy, by omega, by omega⟩

theorem toNat_escape {x y : UInt8} (hx : x.toNat < 16) (hy : y.toNat < 16) :
    ((x <<< 4) + y).toNat = 16 * x.toNat + y.toNat := by
  rw [UInt8.toNat_add, UInt8.toNat_shiftLeft]
  show (x.toNat <<< 4 % 256 + y.toNat) % 256 = _
  rw [Nat.shiftLeft_eq]
  omega

theorem hexValue_lt {ch y : UInt8} (h : hexValue ch = some y) : y.toNat < 16 := by
  rcases hexValue_cases h with ⟨_, _, hlt⟩ | ⟨_, _, _, _, hlt⟩
  · omega
  · exact hlt

theorem scanByte_quoted {s : Scan} {ch x : UInt8} (hs : s.state = .quoted)
    (hx : hexValue ch = some x) :
    scanByte true s ch = .next { s with state := .quotedSecond, decoded := x } := by
  unfold scanByte
  rw [hs]
  dsimp only
  rcases hexValue_cases hx with ⟨hdigit, hval, _⟩ | ⟨hdigit, hletter, hval, _⟩
  · rw [if_pos hdigit, hval]
  · rw [if_neg hdigit, if_pos hletter, hval]

/-- **The second digit.**  An escaped `%`, `#` or `?` is data, and an escaped zero byte
is refused. -/
theorem scanByte_quotedSecond {s : Scan} {ch y : UInt8} (hs : s.state = .quotedSecond)
    (hdecoded : s.decoded.toNat < 16) (hy : hexValue ch = some y) :
    scanByte true s ch
      = if (s.decoded <<< 4) + y = 37 ∨ (s.decoded <<< 4) + y = 63 ∨ (s.decoded <<< 4) + y = 35
        then .next (s.put ((s.decoded <<< 4) + y) .usual)
        else if (s.decoded <<< 4) + y = 0 then .invalid
        else switchState true { s with state := s.quotedState } ((s.decoded <<< 4) + y) := by
  have hb := toNat_escape hdecoded (hexValue_lt hy)
  -- the last digit of a byte is that of its escape
  have hne : ∀ k : UInt8, k.toNat % 16 ≠ y.toNat → (s.decoded <<< 4) + y ≠ k := by
    intro k hk heq
    rw [heq] at hb
    have := hexValue_lt hy
    omega
  unfold scanByte
  rw [hs]
  dsimp only
  rcases hexValue_cases hy with ⟨hdigit, hval, hlt⟩ | ⟨hdigit, hletter, hval, hge, _⟩
  · have hbyte : (s.decoded <<< 4) + ch - (48 : UInt8) = (s.decoded <<< 4) + y := by
      rw [hval]
      grind
    have h63 := hne 63 (show 15 ≠ y.toNat by omega)
    rw [if_pos hdigit, hbyte]
    simp only [h63, false_or]
  · have hbyte : (s.decoded <<< 4) + (ch ||| (0x20 : UInt8)) - (97 : UInt8) + (10 : UInt8)
        = (s.decoded <<< 4) + y := by
      rw [hval]
      grind
    have h37 := hne 37 (show 5 ≠ y.toNat by omega)
    have h35 := hne 35 (show 3 ≠ y.toNat by omega)
    have h0 := hne 0 (show 0 ≠ y.toNat by omega)
    rw [if_neg hdigit, if_pos hletter, hbyte]
    simp only [h37, h35, h0, false_or, or_false, if_false]

/-! ## §4. The whole target. -/

section Run

variable {s : Scan} {stack : List Bytes} {cur : Bytes} {parsed : ParsedUri}

/-- A byte that stands for itself. -/
theorem scan_raw {b : UInt8} {rest : Bytes} (h : s.Holds stack cur)
    (hb : b ≠ 37 ∧ b ≠ 63 ∧ b ≠ 35) (hscan : scan true s (b :: rest) = some parsed) :
    ∃ stack' cur' s', follow stack cur b = some (stack', cur') ∧ s'.Holds stack' cur'
      ∧ scan true s' rest = some parsed := by
  unfold scan at hscan
  have hfollows := h.switchState hb
  rw [← h.scanByte_eq] at hfollows
  have hne : scanByte true s b ≠ .invalid := by
    intro heq
    rw [heq] at hscan
    exact absurd hscan (by simp)
  obtain ⟨stack', cur', s', hfollow, hstep, hholds⟩ := hfollows.next hne
  rw [hstep] at hscan
  exact ⟨stack', cur', s', hfollow, hholds, hscan⟩

/-- The other fields do not matter. -/
theorem Scan.Holds.fields (h : s.Holds stack cur) (quotedState : UriState) (decoded : UInt8) :
    (Scan.mk s.state quotedState decoded s.u).Holds stack cur :=
  ⟨h.state, h.u, h.names, h.cur⟩

/-- The three bytes of an escape. -/
theorem scan_percent {h1 h2 x y : UInt8} (h : s.Holds stack cur) (hx : hexValue h1 = some x)
    (hy : hexValue h2 = some y) (rest : Bytes) :
    scan true s (37 :: h1 :: h2 :: rest)
      = if (x <<< 4) + y = 37 ∨ (x <<< 4) + y = 63 ∨ (x <<< 4) + y = 35
        then scan true (Scan.put ⟨s.state, s.state, x, s.u⟩ ((x <<< 4) + y) .usual) rest
        else if (x <<< 4) + y = 0 then none
        else scan true ⟨s.state, s.state, x, s.u⟩ (((x <<< 4) + y) :: rest) := by
  have hfirst : scanByte true s 37 = .next ⟨.quoted, s.state, s.decoded, s.u⟩ := by
    obtain ⟨onSlash, onDot, hswitch⟩ := @Scan.Holds.switchState_eq s stack cur 37 h
    rw [h.scanByte_eq, hswitch]
    rfl
  have hsecond := @scanByte_quoted ⟨.quoted, s.state, s.decoded, s.u⟩ h1 x rfl hx
  have hthird := @scanByte_quotedSecond ⟨.quotedSecond, s.state, x, s.u⟩ h2 y rfl
    (hexValue_lt hx) hy
  rw [scan, hfirst]
  dsimp only
  rw [scan, hsecond]
  dsimp only
  rw [scan, hthird]
  split_ifs with hdata hzero
  · rfl
  · rfl
  · rw [scan, (h.fields s.state x).scanByte_eq]

/-- An escape. -/
theorem scan_escape {h1 h2 x y : UInt8} {rest : Bytes} (h : s.Holds stack cur)
    (hx : hexValue h1 = some x) (hy : hexValue h2 = some y)
    (hscan : scan true s (37 :: h1 :: h2 :: rest) = some parsed) :
    ∃ stack' cur' s', follow stack cur ((x <<< 4) + y) = some (stack', cur')
      ∧ s'.Holds stack' cur' ∧ scan true s' rest = some parsed := by
  have hfields := h.fields s.state x
  rw [scan_percent h hx hy] at hscan
  split_ifs at hscan with hdata hzero
  · -- an escaped `%`, `?` or `#`
    have h47 : (x <<< 4) + y ≠ 47 := by
      intro heq
      rw [heq] at hdata
      exact absurd hdata (by decide)
    have h46 : (x <<< 4) + y ≠ 46 := by
      intro heq
      rw [heq] at hdata
      exact absurd hdata (by decide)
    exact ⟨stack, cur ++ [(x <<< 4) + y], _, if_neg h47,
      hfields.put h47 (stateOf_concat h46 cur), hscan⟩
  · obtain ⟨h37, h63, h35⟩ := not_or.mp hdata |>.imp_right not_or.mp
    exact scan_raw hfields ⟨h37, h63, h35⟩ hscan

/-- The bytes of the characters, one after the other. -/
def resolve : List Bytes → Bytes → Bytes → Option (List Bytes × Bytes)
  | stack, cur, [] => some (stack, cur)
  | stack, cur, b :: rest => (follow stack cur b).bind (fun p => resolve p.1 p.2 rest)

/-- A `?` or `#` ends the path. -/
def endsPath (b : UInt8) : Bool := b == 63 || b == 35

/-- The scanner stops at the end of the path. -/
theorem uri_at_end (h : s.Holds stack cur) {tail : Bytes}
    (htail : ∀ b ∈ tail.head?, endsPath b = true) (hscan : scan true s tail = some parsed) :
    parsed.uri = s.u := by
  cases tail with
  | nil => exact congrArg ParsedUri.uri (Option.some.inj hscan).symm
  | cons b tail =>
      have hb : b = 63 ∨ b = 35 := by
        have hends := htail b rfl
        unfold endsPath at hends
        rwa [Bool.or_eq_true, beq_iff_eq, beq_iff_eq] at hends
      obtain ⟨onSlash, onDot, hswitch⟩ := @Scan.Holds.switchState_eq s stack cur b h
      rw [scan, h.scanByte_eq, hswitch] at hscan
      rcases hb with rfl | rfl
      · exact congrArg ParsedUri.uri (Option.some.inj hscan).symm
      · exact congrArg ParsedUri.uri (Option.some.inj hscan).symm

/-- **Scanning a path**, character by character. -/
theorem scan_tokens :
    ∀ {toks : List Token} {path tail : Bytes} {s : Scan} {stack : List Bytes} {cur : Bytes},
      tokens path = some toks → (∀ b ∈ path, endsPath b = false) →
      (∀ b ∈ tail.head?, endsPath b = true) → s.Holds stack cur →
      scan true s (path ++ tail) = some parsed →
      ∃ stack' last, resolve stack cur (toks.map Token.byte) = some (stack', last)
        ∧ parsed.uri = joinNames 47 stack' ++ 47 :: last
        ∧ ∀ name ∈ stack', IsName 47 46 name := by
  intro toks
  induction toks with
  | nil =>
      intro path tail s stack cur htoks _ htail h hscan
      rw [tokens_nil htoks, List.nil_append] at hscan
      exact ⟨stack, cur, rfl, by rw [uri_at_end h htail hscan, h.u], h.names⟩
  | cons t toks ih =>
      intro path tail s stack cur htoks hpath htail h hscan
      -- behind the first character the scanner is where `follow` says
      have hnext : ∃ rest, tokens rest = some toks ∧ (∀ b ∈ rest, endsPath b = false)
          ∧ ∃ stack' cur' s', follow stack cur t.byte = some (stack', cur')
            ∧ s'.Holds stack' cur' ∧ scan true s' (rest ++ tail) = some parsed := by
        rcases tokens_cons htoks with ⟨b, rest, rfl, h37, rfl, hrest⟩
          | ⟨h1, h2, x, y, rest, rfl, hx, hy, rfl, hrest⟩
        · have hb := hpath b List.mem_cons_self
          unfold endsPath at hb
          rw [Bool.or_eq_false_iff, beq_eq_false_iff_ne, beq_eq_false_iff_ne] at hb
          exact ⟨rest, hrest, fun c hc => hpath c (List.mem_cons_of_mem _ hc),
            scan_raw h ⟨h37, hb.1, hb.2⟩ hscan⟩
        · exact ⟨rest, hrest, fun c hc => hpath c (by simp [hc]), scan_escape h hx hy hscan⟩
      obtain ⟨rest, hrest, hpath', stack', cur', s', hfollow, hholds, hscan'⟩ := hnext
      obtain ⟨stack'', last, hresolve, huri⟩ := ih hrest hpath' htail hholds hscan'
      refine ⟨stack'', last, ?_, huri⟩
      rw [List.map_cons, resolve, hfollow]
      exact hresolve

end Run

/-- Byte by byte or segment by segment. -/
theorem resolve_eq :
    ∀ {bytes : Bytes} {stack stack' : List Bytes} {cur last : Bytes}, 47 ∉ cur →
      resolve stack cur bytes = some (stack', last) →
      ∃ front, segments 47 (cur ++ bytes) = front ++ [last]
        ∧ tryWalk stack (front.map (pathStep 46)) = some stack' := by
  intro bytes
  induction bytes with
  | nil =>
      intro stack stack' cur last hcur h
      obtain ⟨rfl, rfl⟩ := Prod.mk.inj (Option.some.inj h)
      exact ⟨[], by rw [List.append_nil, segments_of_not_mem hcur]; rfl, rfl⟩
  | cons b bytes ih =>
      intro stack stack' cur last hcur h
      rw [resolve, follow] at h
      by_cases hb : b = 47
      · rw [if_pos hb] at h
        rw [hb]
        cases hclimb : tryClimb stack (pathStep 46 cur) with
        | none =>
            rw [hclimb] at h
            exact absurd h (by simp)
        | some stack1 =>
            rw [hclimb] at h
            obtain ⟨front, hfront, hwalk⟩ := ih List.not_mem_nil h
            refine ⟨cur :: front, ?_, ?_⟩
            · rw [segments_append_cons, segments_of_not_mem hcur, ← List.nil_append bytes, hfront]
              rfl
            · show (tryClimb stack (pathStep 46 cur)).bind _ = _
              rw [hclimb]
              exact hwalk
      · rw [if_neg hb] at h
        have hcur' : 47 ∉ cur ++ [b] := by
          intro hmem
          rcases List.mem_append.mp hmem with hmem | hmem
          · exact hcur hmem
          · exact hb (List.mem_singleton.mp hmem).symm
        obtain ⟨front, hfront, hwalk⟩ := ih hcur' h
        refine ⟨front, ?_, hwalk⟩
        rw [← hfront, List.append_assoc]
        rfl

/-- The target up to the query. -/
def hierPart (target : Bytes) : Bytes := target.takeWhile (fun b => !endsPath b)

/-- **What the scanner accepts.**  A target begins with a slash. -/
theorem parsed_uri {rest : Bytes} {toks : List Token} {parsed : ParsedUri}
    (htoks : tokens (hierPart (47 :: rest)) = some toks)
    (hparse : ngxHttpParseComplexUri true (47 :: rest) = some parsed) :
    ∃ toks', toks = ⟨47, false⟩ :: toks'
      ∧ ∃ front last stack, segments 47 (toks'.map Token.byte) = front ++ [last]
        ∧ tryWalk [] (front.map (pathStep 46)) = some stack
        ∧ parsed.uri = joinNames 47 stack ++ 47 :: last
        ∧ ∀ name ∈ stack, IsName 47 46 name := by
  rw [show hierPart (47 :: rest) = 47 :: hierPart rest from rfl, tokens_raw (by decide)] at htoks
  obtain ⟨toks', htoks', rfl⟩ := Option.map_eq_some_iff.mp htoks
  refine ⟨toks', rfl, ?_⟩
  have hscan : scan true ⟨.slash, .usual, 0, [47]⟩
      (hierPart rest ++ rest.dropWhile (fun b => !endsPath b)) = some parsed := by
    rw [hierPart, List.takeWhile_append_dropWhile]
    exact hparse
  have hpath : ∀ b ∈ hierPart rest, endsPath b = false := by
    intro b hb
    have hall := List.all_eq_true.mp List.all_takeWhile b hb
    rwa [Bool.not_eq_true'] at hall
  have htail : ∀ b ∈ (rest.dropWhile (fun b => !endsPath b)).head?, endsPath b = true := by
    intro b hb
    have hhead := List.head?_dropWhile_not (fun b => !endsPath b) rest
    rw [Option.mem_def.mp hb] at hhead
    simpa using hhead
  have hstart : (Scan.mk .slash .usual 0 [47]).Holds [] [] :=
    .slash rfl (fun _ h => absurd h List.not_mem_nil)
  obtain ⟨stack, last, hresolve, huri, hnames⟩ := scan_tokens htoks' hpath htail hstart hscan
  obtain ⟨front, hfront, hwalk⟩ := resolve_eq List.not_mem_nil hresolve
  exact ⟨front, last, stack, hfront, hwalk, huri, hnames⟩

end NginxNettyHls.Nginx
