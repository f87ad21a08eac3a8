/-
  NginxNettyHls.Nginx.Gate
  ────────────────────────
  **WHICH REQUESTS `ngx_http_hlsm3u8_handler` FORWARDS.**

  The handler looks for its arguments with `ngx_http_arg`, a case-insensitive scan
  of the raw bytes that wants the beginning or a `&` in front of the name and a
  `=` behind it.  A pointer into `r->args` is an index here.

    • `ngxHttpArg_iff` — the scan finds a name exactly when a part between two `&`
      begins with it and a `=`, whatever the case of its letters;
    • `gate_and_dispatcher` — the requests the handler forwards, those in which
      `get_play_mode` finds a mode, and where the two are the same.
-/
import NginxNettyHls.M3u8Filter.QueryString
import NginxNettyHls.Nginx.Hlsm3u8

namespace NginxNettyHls.Nginx

open NginxNettyHls.Java
open NginxNettyHls.M3u8Filter
open Text

/-! ## §1. Searching without regard to case. -/

/-- The comparison's `(c >= 'A' && c <= 'Z') ? (c | 0x20) : c`. -/
def ngxTolower (c : UInt8) : UInt8 := if 65 ≤ c ∧ c ≤ 90 then c ||| 32 else c

/-- `ngx_strncasecmp`. -/
def ngxStrncasecmp : Nat → Bytes → Bytes → Int
  | 0, _, _ => 0
  | n + 1, s1, s2 =>
      match s1, s2 with
      | c1 :: s1, c2 :: s2 =>
          if ngxTolower c1 = ngxTolower c2 then
            if ngxTolower c1 ≠ 0 then ngxStrncasecmp n s1 s2 else 0
          else (ngxTolower c1).toNat - (ngxTolower c2).toNat
      -- not reached: the callers stop `n` bytes before the end
      | _, _ => 1

/-- The test of `ngx_strlcasestrn` at `s1`. -/
def matchAt (str s2 : Bytes) (n s1 : Nat) : Bool :=
  match str.drop s1, s2 with
  | c1 :: rest, c2 :: s2 =>
      decide (ngxTolower c1 = ngxTolower c2) && decide (ngxStrncasecmp n rest s2 = 0)
  | _, _ => false

/-- Its two loops, for `count` more places. -/
def strlcasestrnFrom (str s2 : Bytes) (n : Nat) : Nat → Nat → Option Nat
  | 0, _ => none
  | count + 1, s1 =>
      if matchAt str s2 n s1 then some s1 else strlcasestrnFrom str s2 n count (s1 + 1)

/-- `ngx_strlcasestrn`: the first match from `s1` on, `n + 1` bytes long, before `last`. -/
def ngxStrlcasestrn (str : Bytes) (s1 last : Nat) (s2 : Bytes) (n : Nat) : Option Nat :=
  strlcasestrnFrom str s2 n (last - n - s1) s1

/-- The loop of `ngx_http_arg` from `p` on; `p` moves on in every iteration, so as many
iterations as there are bytes are enough. -/
def ngxHttpArgFrom (args name : Bytes) : Nat → Nat → Option Bytes
  | 0, _ => none
  | fuel + 1, p =>
      if p < args.length then
        match ngxStrlcasestrn args p (args.length - 1) name (name.length - 1) with
        | none => none
        | some p =>
            if (p = 0 ∨ args[p - 1]? = some 38) ∧ args[p + name.length]? = some 61 then
              let stop := p + ((args.drop p).takeWhile (fun b => b ≠ 38)).length
              some ((args.take stop).drop (p + name.length + 1))
            else ngxHttpArgFrom args name fuel (p + 1)
      else none

/-- `ngx_http_arg`: the value, or `none` for `NGX_DECLINED`. -/
def ngxHttpArg (args name : Bytes) : Option Bytes :=
  if args.length = 0 then none else ngxHttpArgFrom args name args.length 0

/-! ## §2. What the scan finds. -/

/-- A name the handler looks for: in lower case, without `=`, `&` and NUL. -/
structure ArgName (name : Bytes) : Prop where
  nonempty : name ≠ []
  lower : ∀ b ∈ name, ngxTolower b = b
  plain : ∀ b ∈ name, b ≠ 0 ∧ b ≠ 38 ∧ b ≠ 61

/-- The name stands at `p`, with a `=` behind it. -/
def ArgAt (args name : Bytes) (p : Nat) : Prop :=
  (p = 0 ∨ args[p - 1]? = some 38) ∧ args[p + name.length]? = some 61
    ∧ ((args.drop p).take name.length).map ngxTolower = name

theorem ngxStrncasecmp_eq_zero_iff :
    ∀ (s2 s1 : Bytes), s2.length ≤ s1.length → (∀ b ∈ s2, ngxTolower b = b ∧ b ≠ 0) →
      (ngxStrncasecmp s2.length s1 s2 = 0
        ↔ (s1.take s2.length).map ngxTolower = s2) := by
  intro s2
  induction s2 with
  | nil => intro s1 _ _; simp [ngxStrncasecmp]
  | cons c2 s2 ih =>
      intro s1 hlen h
      obtain ⟨hlower, hzero⟩ := h c2 List.mem_cons_self
      cases s1 with
      | nil => simp at hlen
      | cons c1 s1 =>
          have hrest := ih s1 (by simpa using hlen)
            (fun b hb => h b (List.mem_cons_of_mem c2 hb))
          simp only [List.length_cons, ngxStrncasecmp, List.take_succ_cons, List.map_cons,
            List.cons.injEq, hlower]
          by_cases hc : ngxTolower c1 = c2
          · rw [if_pos hc, if_pos (by rw [hc]; exact hzero), hrest]
            simp [hc]
          · rw [if_neg hc]
            have hne : (ngxTolower c1).toNat ≠ c2.toNat := fun heq => hc (UInt8.toNat_inj.mp heq)
            constructor
            · intro h
              omega
            · intro h
              exact absurd h.1 hc

theorem matchAt_iff {args name : Bytes} (hname : ArgName name) {p : Nat}
    (hp : p + name.length ≤ args.length) :
    matchAt args name (name.length - 1) p = true
      ↔ ((args.drop p).take name.length).map ngxTolower = name := by
  have hlen : name.length ≤ (args.drop p).length := by
    rw [List.length_drop]
    omega
  cases name with
  | nil => exact absurd rfl hname.nonempty
  | cons c2 s2 =>
      unfold matchAt
      cases hdrop : args.drop p with
      | nil =>
          rw [hdrop] at hlen
          simp at hlen
      | cons c1 rest =>
          rw [hdrop] at hlen
          have hcmp := ngxStrncasecmp_eq_zero_iff s2 rest (by simpa using hlen) (by
            intro b hb
            have hmem := List.mem_cons_of_mem c2 hb
            exact ⟨hname.lower b hmem, (hname.plain b hmem).1⟩)
          simp only [List.length_cons, Nat.add_sub_cancel, Bool.and_eq_true, decide_eq_true_eq,
            List.take_succ_cons, List.map_cons, List.cons.injEq, hcmp,
            hname.lower c2 List.mem_cons_self]

/-- The first match, and none before it. -/
theorem strlcasestrnFrom_spec (str s2 : Bytes) (n : Nat) :
    ∀ (count s1 : Nat),
      match strlcasestrnFrom str s2 n count s1 with
      | none => ∀ p, s1 ≤ p → p < s1 + count → matchAt str s2 n p = false
      | some q => s1 ≤ q ∧ q < s1 + count ∧ matchAt str s2 n q = true
          ∧ ∀ p, s1 ≤ p → p < q → matchAt str s2 n p = false := by
  intro count
  induction count with
  | zero =>
      intro s1 p hp hp'
      omega
  | succ count ih =>
      intro s1
      unfold strlcasestrnFrom
      cases hm : matchAt str s2 n s1 with
      | true =>
          simp only [if_true]
          exact ⟨Nat.le_refl s1, by omega, hm, fun p hp hp' => by omega⟩
      | false =>
          simp only [Bool.false_eq_true, if_false]
          have h := ih (s1 + 1)
          -- `s1` itself does not match
          have hfirst : ∀ p, s1 ≤ p → ¬ s1 + 1 ≤ p → matchAt str s2 n p = false := by
            intro p hp hp'
            obtain rfl : p = s1 := by omega
            exact hm
          cases hrun : strlcasestrnFrom str s2 n count (s1 + 1) with
          | none =>
              rw [hrun] at h
              intro p hp hp'
              by_cases hlater : s1 + 1 ≤ p
              · exact h p hlater (by omega)
              · exact hfirst p hp hlater
          | some q =>
              rw [hrun] at h
              obtain ⟨hq, hq', hmatch, hbefore⟩ := h
              refine ⟨by omega, by omega, hmatch, ?_⟩
              intro p hp hp'
              by_cases hlater : s1 + 1 ≤ p
              · exact hbefore p hlater hp'
              · exact hfirst p hp hlater

/-- The places `ngx_strlcasestrn` looks at are those with room for the name and a `=`. -/
theorem ArgAt.lt {args name : Bytes} {p : Nat} (h : ArgAt args name p) :
    p + name.length < args.length :=
  (List.getElem?_eq_some_iff.mp h.2.1).1

/-- **The loop of `ngx_http_arg`**: from `p` on it finds what there is. -/
theorem ngxHttpArgFrom_isSome_iff {args name : Bytes} (hname : ArgName name) :
    ∀ (fuel p : Nat), args.length ≤ fuel + p →
      ((ngxHttpArgFrom args name fuel p).isSome ↔ ∃ q, p ≤ q ∧ ArgAt args name q) := by
  have hlen : 0 < name.length := List.length_pos_of_ne_nil hname.nonempty
  -- past the end there is nothing to find
  have hend : ∀ p, args.length ≤ p → ¬ ∃ q, p ≤ q ∧ ArgAt args name q := by
    intro p hp h
    obtain ⟨q, hq, hat⟩ := h
    have hlt := hat.lt
    omega
  intro fuel
  induction fuel with
  | zero =>
      intro p hp
      exact iff_of_false (by simp [ngxHttpArgFrom]) (hend p (by omega))
  | succ fuel ih =>
      intro p hp
      by_cases hlt : p < args.length
      · have hspec := strlcasestrnFrom_spec args name (name.length - 1)
          (args.length - 1 - (name.length - 1) - p) p
        -- a place that is looked at and has no match is none of the name
        have hnot : ∀ q, matchAt args name (name.length - 1) q = false →
            ¬ ArgAt args name q := by
          intro q hq hat
          have hmatch := (matchAt_iff hname (Nat.le_of_lt hat.lt)).mpr hat.2.2
          rw [hq] at hmatch
          exact absurd hmatch (by simp)
        simp only [ngxHttpArgFrom, if_pos hlt, ngxStrlcasestrn]
        cases hrun : strlcasestrnFrom args name (name.length - 1)
            (args.length - 1 - (name.length - 1) - p) p with
        | none =>
            rw [hrun] at hspec
            dsimp only at hspec ⊢
            refine iff_of_false (by simp) ?_
            intro h
            obtain ⟨q, hq, hat⟩ := h
            have hq' := hat.lt
            exact hnot q (hspec q hq (by omega)) hat
        | some q =>
            rw [hrun] at hspec
            dsimp only at hspec ⊢
            obtain ⟨hpq, hq, hmatch, hbefore⟩ := hspec
            by_cases hbound : (q = 0 ∨ args[q - 1]? = some 38)
                ∧ args[q + name.length]? = some 61
            · rw [if_pos hbound]
              have htext := (matchAt_iff hname (by omega)).mp hmatch
              exact iff_of_true (by simp) ⟨q, hpq, hbound.1, hbound.2, htext⟩
            · rw [if_neg hbound, ih (q + 1) (by omega)]
              constructor
              · intro h
                obtain ⟨r, hr, hat⟩ := h
                exact ⟨r, by omega, hat⟩
              · intro h
                obtain ⟨r, hr, hat⟩ := h
                refine ⟨r, ?_, hat⟩
                by_contra hle
                by_cases heq : r = q
                · subst heq
                  exact hbound ⟨hat.1, hat.2.1⟩
                · exact hnot r (hbefore r hr (by omega)) hat
      · simp only [ngxHttpArgFrom, if_neg hlt]
        exact iff_of_false (by simp) (hend p (by omega))

/-- The parts of `r->args`. -/
def argParts (args : Bytes) : List Bytes := args.splitOnP (fun b => b == 38)

/-- A part begins with the name and a `=`, whatever the case of its letters. -/
def NamedArg (args name : Bytes) : Prop :=
  ∃ part ∈ argParts args, ∃ w v, part = w ++ 61 :: v ∧ w.map ngxTolower = name

/-- Letters of another case do not make a `&`. -/
theorem not_mem_of_map_ngxTolower {w name : Bytes} (hname : ArgName name)
    (h : w.map ngxTolower = name) : 38 ∉ w := by
  intro hmem
  have hmem' : ngxTolower 38 ∈ name := by
    rw [← h]
    exact List.mem_map_of_mem hmem
  exact (hname.plain _ hmem').2.1 rfl

/-- The same place as a decomposition of the arguments. -/
theorem exists_argAt_iff_append {args name : Bytes} :
    (∃ p, ArgAt args name p)
      ↔ ∃ pre w v, args = pre ++ (w ++ 61 :: v) ∧ (pre = [] ∨ ∃ pre', pre = pre' ++ [38])
          ∧ w.map ngxTolower = name := by
  constructor
  · intro h
    obtain ⟨p, hp, heq, htext⟩ := h
    obtain ⟨hlt, hbyte⟩ := List.getElem?_eq_some_iff.mp heq
    refine ⟨args.take p, (args.drop p).take name.length, args.drop (p + name.length + 1),
      ?_, ?_, htext⟩
    · have hcons : 61 :: args.drop (p + name.length + 1) = (args.drop p).drop name.length := by
        rw [List.drop_drop, List.drop_eq_getElem_cons hlt, hbyte]
      rw [hcons, List.take_append_drop, List.take_append_drop]
    · cases p with
      | zero => exact Or.inl rfl
      | succ p =>
          right
          have hand : args[p]? = some 38 := hp.resolve_left (by omega)
          exact ⟨args.take p, by rw [List.take_add_one, hand]; rfl⟩
  · intro h
    obtain ⟨pre, w, v, rfl, hpre, rfl⟩ := h
    have hlen : (w.map ngxTolower).length = w.length := List.length_map _
    refine ⟨pre.length, ?_, ?_, ?_⟩
    · rcases hpre with rfl | ⟨pre', rfl⟩
      · exact Or.inl rfl
      · right
        rw [List.append_assoc, List.length_append, List.length_singleton, Nat.add_sub_cancel,
          List.getElem?_append_right (Nat.le_refl _), Nat.sub_self]
        rfl
    · rw [hlen, List.getElem?_append_right (by omega),
        show pre.length + w.length - pre.length = w.length by omega,
        List.getElem?_append_right (Nat.le_refl _), Nat.sub_self]
      rfl
    · rw [List.drop_left, hlen, List.take_left]

/-- That is the beginning of a part. -/
theorem namedArg_iff {args name : Bytes} (hname : ArgName name) :
    NamedArg args name ↔ ∃ p, ArgAt args name p := by
  rw [exists_argAt_iff_append]
  constructor
  · intro h
    obtain ⟨part, hpart, w, v, rfl, hw⟩ := h
    obtain ⟨pre, post, hargs, hpre⟩ := mem_splitOnP hpart
    refine ⟨pre, w, v ++ post, by rw [hargs, List.append_assoc]; rfl, ?_, hw⟩
    rcases hpre with hpre | ⟨pre', c, hc, hpre⟩
    · exact Or.inl hpre
    · exact Or.inr ⟨pre', by rw [hpre, beq_iff_eq.mp hc]⟩
  · intro h
    obtain ⟨pre, w, v, hargs, hpre, hw⟩ := h
    have hand : ∀ c ∈ w ++ [61], (c == (38 : UInt8)) = false := by
      intro c hc
      rw [beq_eq_false_iff_ne]
      rintro rfl
      rcases List.mem_append.mp hc with hc | hc
      · exact not_mem_of_map_ngxTolower hname hw hc
      · exact absurd (List.mem_singleton.mp hc) (by decide)
    -- no `&` in the name: the part goes on behind the `=`
    obtain ⟨q, hq⟩ : ∃ q, w ++ 61 :: q ∈ argParts (w ++ 61 :: v) := by
      unfold argParts
      rw [List.append_cons, splitOnP_append_of_forall hand]
      cases hs : v.splitOnP (fun b => b == 38) with
      | nil => exact absurd hs (List.splitOnP_ne_nil _ _)
      | cons q qs =>
          refine ⟨q, ?_⟩
          rw [List.modifyHead_cons, List.append_assoc w [61] q]
          exact List.mem_cons_self
    refine ⟨w ++ 61 :: q, ?_, w, q, rfl, hw⟩
    rw [hargs]
    rcases hpre with rfl | ⟨pre', rfl⟩
    · exact hq
    · unfold argParts
      rw [List.append_assoc, List.singleton_append,
        List.splitOnP_append_cons pre' (w ++ 61 :: v) (by decide)]
      exact List.mem_append_right _ hq

/-- **What `ngx_http_arg` finds.** -/
theorem ngxHttpArg_iff {name : Bytes} (hname : ArgName name) (args : Bytes) :
    (ngxHttpArg args name).isSome ↔ NamedArg args name := by
  rw [namedArg_iff hname]
  unfold ngxHttpArg
  split_ifs with hempty
  · refine iff_of_false (by simp) ?_
    intro h
    obtain ⟨p, hat⟩ := h
    have hlt := hat.lt
    omega
  · rw [ngxHttpArgFrom_isSome_iff hname args.length 0 (by omega)]
    simp

/-! ## §3. The handler. -/

def uriNameMaxlen : Nat := 2048

/-- The arguments the handler looks for. -/
def playbackbegin : Bytes := fieldName "playbackbegin"

def playbackend : Bytes := fieldName "playbackend"

def playseek : Bytes := fieldName "playseek"

/-- The test of the handler. -/
def playArgs (args : Bytes) : Bool :=
  ((ngxHttpArg args playbackbegin).isSome && (ngxHttpArg args playbackend).isSome)
    || (ngxHttpArg args playseek).isSome

/-- What the handler reads of a request. -/
structure NgxRequest where
  getOrHead : Bool
  uri : Bytes
  args : Bytes
  deriving Repr, DecidableEq

theorem argName_playbackbegin : ArgName playbackbegin :=
  ⟨by decide +kernel, by decide +kernel, by decide +kernel⟩

theorem argName_playbackend : ArgName playbackend :=
  ⟨by decide +kernel, by decide +kernel, by decide +kernel⟩

theorem argName_playseek : ArgName playseek :=
  ⟨by decide +kernel, by decide +kernel, by decide +kernel⟩

/-- **The requests the handler forwards.** -/
theorem playArgs_iff (args : Bytes) :
    playArgs args = true
      ↔ (NamedArg args playbackbegin ∧ NamedArg args playbackend) ∨ NamedArg args playseek := by
  unfold playArgs
  rw [Bool.or_eq_true, Bool.and_eq_true, ngxHttpArg_iff argName_playbackbegin,
    ngxHttpArg_iff argName_playbackend, ngxHttpArg_iff argName_playseek]

/-! ## §4. The handler and the dispatcher. -/

/-- The bytes of a request line as Netty makes characters of them. -/
def latin1 (bytes : Bytes) : JString := bytes.map (fun b => Char.ofNat b.toNat)

theorem ofNat_toNat_inj {b c : UInt8} : Char.ofNat b.toNat = Char.ofNat c.toNat ↔ b = c := by
  constructor
  · intro h
    have h' := congrArg Char.toNat h
    rw [toNat_ofNat_byte, toNat_ofNat_byte] at h'
    exact UInt8.toNat_inj.mp h'
  · intro h
    rw [h]

theorem latin1_injective : Function.Injective latin1 :=
  List.map_injective_iff.mpr (fun _ _ h => ofNat_toNat_inj.mp h)

/-- A byte and the character made of it. -/
theorem beq_latin1 (b c : UInt8) : (Char.ofNat b.toNat == Char.ofNat c.toNat) = (b == c) := by
  rw [Bool.eq_iff_iff, beq_iff_eq, beq_iff_eq]
  exact ofNat_toNat_inj

theorem mem_latin1 {b : UInt8} {bytes : Bytes} :
    Char.ofNat b.toNat ∈ latin1 bytes ↔ b ∈ bytes := by
  unfold latin1
  rw [List.mem_map]
  constructor
  · intro h
    obtain ⟨c, hc, heq⟩ := h
    rw [← ofNat_toNat_inj.mp heq]
    exact hc
  · intro h
    exact ⟨b, h, rfl⟩

/-- A query spelt as both sides read it: within the decoder's limit, no `;`, escapes that are
well formed, and every part begins with a name in lower case without escapes, followed by `=`. -/
structure Plain (decoder : QueryStringDecoder) (query : Bytes) : Prop where
  few : WithinLimit (latin1 query)
  separator : 59 ∉ query
  decodable : Decodable decoder (latin1 query)
  begins : ∀ part ∈ argParts query, part.head? ≠ some 61
  names : ∀ part ∈ argParts query, part ≠ [] →
    61 ∈ part ∧ ∀ b ∈ part.takeWhile (fun b => b ≠ 61),
      b ≠ 37 ∧ b ≠ 43 ∧ ngxTolower b = b

/-- Without `;` both sides cut the query into the same parts, and a part that does not begin
with `=` is left as it is. -/
theorem queryParts_latin1 {query : Bytes} (h : 59 ∉ query)
    (hbegins : ∀ part ∈ argParts query, part.head? ≠ some 61) :
    queryParts (latin1 query) = (argParts query).map latin1 := by
  have hcut : (latin1 query).splitOnP (fun c => c == '&' || c == ';')
      = (argParts query).map latin1 := by
    unfold argParts latin1
    rw [splitOnP_map]
    congr 1
    apply splitOnP_congr
    intro b hb
    show ((Char.ofNat b.toNat == Char.ofNat (38 : UInt8).toNat)
      || (Char.ofNat b.toNat == Char.ofNat (59 : UInt8).toNat)) = (b == 38)
    have hne : (b == (59 : UInt8)) = false := by
      rw [beq_eq_false_iff_ne]
      rintro rfl
      exact h hb
    rw [beq_latin1, beq_latin1, hne, Bool.or_false]
  unfold queryParts
  rw [hcut, List.map_map]
  apply List.map_congr_left
  intro part hpart
  cases part with
  | nil => rfl
  | cons b part =>
      have hb : ¬ (Char.ofNat b.toNat == Char.ofNat (61 : UInt8).toNat) = true := by
        rw [beq_latin1, beq_iff_eq]
        rintro rfl
        exact hbegins _ hpart rfl
      exact List.dropWhile_cons_of_neg hb

theorem partName_latin1 (part : Bytes) :
    partName (latin1 part) = latin1 (part.takeWhile (fun b => b ≠ 61)) := by
  unfold partName latin1
  rw [List.takeWhile_map]
  congr 2
  funext b
  show (!(Char.ofNat b.toNat == Char.ofNat (61 : UInt8).toNat)) = decide (b ≠ 61)
  rw [beq_latin1, decide_not]
  rfl

/-- **In a plain query both sides see the same names.** -/
theorem hasName_iff_namedArg {decoder : QueryStringDecoder} {query : Bytes}
    (hplain : Plain decoder query) {name : Bytes} (hname : ArgName name) :
    HasName decoder (latin1 query) (latin1 name) ↔ NamedArg query name := by
  -- the name of a part is decoded to itself
  have hdecode : ∀ part ∈ argParts query,
      decoder.decodeComponent (partName (latin1 part))
        = some (latin1 (part.takeWhile (fun b => b ≠ 61))) := by
    intro part hpart
    rw [partName_latin1]
    have hbytes : ∀ b ∈ part.takeWhile (fun b => b ≠ 61), b ≠ 37 ∧ b ≠ 43 := by
      intro b hb
      have hne : part ≠ [] := by
        rintro rfl
        simp at hb
      have h := (hplain.names part hpart hne).2 b hb
      exact ⟨h.1, h.2.1⟩
    apply decoder.decode_plain
    · intro h
      exact (hbytes 37 (mem_latin1.mp h)).1 rfl
    · intro h
      exact (hbytes 43 (mem_latin1.mp h)).2 rfl
  unfold HasName
  rw [queryParts_latin1 hplain.separator hplain.begins]
  constructor
  · intro h
    obtain ⟨_, hmem, hdec⟩ := h
    obtain ⟨part, hpart, rfl⟩ := List.mem_map.mp hmem
    rw [hdecode part hpart, Option.some.injEq] at hdec
    have heq : part.takeWhile (fun b => b ≠ 61) = name := latin1_injective hdec
    have hne : part ≠ [] := by
      rintro rfl
      exact hname.nonempty heq.symm
    -- behind the name comes the `=`
    have hmem61 := (hplain.names part hpart hne).1
    have hsplit := List.takeWhile_append_dropWhile (p := fun b : UInt8 => b ≠ 61) (l := part)
    cases hdrop : part.dropWhile (fun b => b ≠ 61) with
    | nil =>
        have hall := List.dropWhile_eq_nil_iff.mp hdrop 61 hmem61
        exact absurd hall (by decide)
    | cons c v =>
        have hc : c = 61 := by
          have hne : part.dropWhile (fun b => b ≠ 61) ≠ [] := by
            rw [hdrop]
            exact List.cons_ne_nil c v
          have hhead := List.head_dropWhile_not (fun b : UInt8 => b ≠ 61) hne
          simp only [hdrop, List.head_cons] at hhead
          simpa using hhead
        refine ⟨part, hpart, name, v, ?_, ?_⟩
        · rw [hdrop, heq, hc] at hsplit
          exact hsplit.symm
        · exact (List.map_congr_left hname.lower).trans (List.map_id' name)
  · intro h
    obtain ⟨part, hpart, w, v, hsplit, hw⟩ := h
    have h61 : 61 ∉ w := by
      intro hmem
      have hmem' : ngxTolower 61 ∈ name := by
        rw [← hw]
        exact List.mem_map_of_mem hmem
      exact (hname.plain _ hmem').2.2 rfl
    have htake : part.takeWhile (fun b => b ≠ 61) = w := by
      rw [hsplit, List.takeWhile_append_of_pos (by
        intro b hb
        rw [decide_eq_true_eq]
        rintro rfl
        exact h61 hb)]
      simp
    have hne : part ≠ [] := by
      rw [hsplit]
      simp
    have hlower : w.map ngxTolower = w := by
      refine (List.map_congr_left ?_).trans (List.map_id' w)
      intro b hb
      rw [← htake] at hb
      exact ((hplain.names part hpart hne).2 b hb).2.2
    refine ⟨latin1 part, List.mem_map_of_mem hpart, ?_⟩
    rw [hdecode part hpart, htake, ← hw, hlower]

/-- **The gate and the dispatcher.**  The handler forwards what has the arguments written as
such, in any case, between `&` and `=`; the dispatcher finds a mode, within the limit of its
decoder, where all escapes are well formed and the names are there after decoding, at `;` as
well as at `&` and also without `=`.  On plain queries the two are the same. -/
theorem gate_and_dispatcher (decoder : QueryStringDecoder) (query : Bytes) :
    (playArgs query = true
        ↔ (NamedArg query playbackbegin ∧ NamedArg query playbackend) ∨ NamedArg query playseek)
    ∧ (WithinLimit (latin1 query) →
        (Dispatches decoder (latin1 query)
          ↔ Decodable decoder (latin1 query)
            ∧ (HasName decoder (latin1 query) "playseek".toList
              ∨ (HasName decoder (latin1 query) "playbackbegin".toList
                  ∧ HasName decoder (latin1 query) "playbackend".toList))))
    ∧ (Plain decoder query → (playArgs query = true ↔ Dispatches decoder (latin1 query))) := by
  refine ⟨playArgs_iff query, dispatches_iff decoder, ?_⟩
  intro hplain
  rw [playArgs_iff, dispatches_iff decoder hplain.few, and_iff_right hplain.decodable,
    show "playseek".toList = latin1 playseek by decide,
    show "playbackbegin".toList = latin1 playbackbegin by decide,
    show "playbackend".toList = latin1 playbackend by decide,
    hasName_iff_namedArg hplain argName_playseek,
    hasName_iff_namedArg hplain argName_playbackbegin,
    hasName_iff_namedArg hplain argName_playbackend]
  exact or_comm

/-- An argument in upper case is forwarded, but is no play mode. -/
theorem upper_case_forwarded :
    ¬ (playArgs (fieldName "PLAYSEEK=000010") = true
        ↔ Dispatches urlDecoder (latin1 (fieldName "PLAYSEEK=000010"))) := by
  have hforward : playArgs (fieldName "PLAYSEEK=000010") = true := by decide +kernel
  have hparts : queryParts (latin1 (fieldName "PLAYSEEK=000010"))
      = ["PLAYSEEK=000010".toList] := by decide +kernel
  have hname : ∀ name : JString, HasName urlDecoder (latin1 (fieldName "PLAYSEEK=000010")) name →
      name = "PLAYSEEK".toList := by
    intro name h
    obtain ⟨part, hpart, hdec⟩ := h
    rw [hparts, List.mem_singleton] at hpart
    rw [hpart, show partName "PLAYSEEK=000010".toList = "PLAYSEEK".toList by decide +kernel,
      urlDecoder.decode_plain _ (by decide) (by decide)] at hdec
    exact (Option.some.inj hdec).symm
  intro h
  have hfew : WithinLimit (latin1 (fieldName "PLAYSEEK=000010")) := by
    unfold WithinLimit
    rw [hparts]
    decide
  have hmode := ((dispatches_iff _ hfew).mp (h.mp hforward)).2
  rcases hmode with hseek | ⟨hbegin, _⟩
  · exact absurd (hname _ hseek) (by decide)
  · exact absurd (hname _ hbegin) (by decide)

end NginxNettyHls.Nginx
