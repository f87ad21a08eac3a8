/-
  NginxNettyHls.Nginx.SameFile
  ────────────────────────────
  **WHICH FILE A TARGET NAMES.**

  nginx matches its locations against `r->uri`, what its scanner makes of a target;
  m3u8-filter gets the target itself and opens `root_path` with `URI.getPath`
  behind it.  `java.net.URI` takes what stands behind two leading slashes for an
  authority, and resolves nothing.

    • `JavaUri` — what is assumed of `java.net.URI`;
    • `EscapeDecoder.segments_text` — an escaped slash ends a segment on both sides,
      and the same segments stay or go up;
    • `textual_iff` — a name is the same bytes on both sides when it is UTF-8 text
      and its bytes from 128 on are escaped;
    • `same_file_iff` — the targets that name one file.
-/
import NginxNettyHls.Nginx.ComplexUri
import NginxNettyHls.Nginx.Gate

namespace NginxNettyHls.Nginx

open NginxNettyHls.Java
open NginxNettyHls.M3u8Filter
open Text

/-! ## §1. `java.net.URI`. -/

/-- How `URI.getPath` decodes a sequence of escaped octets: as UTF-8, with U+FFFD in the place
of erroneous octets, of which its decoder takes no more together than the three bytes U+FFFD
has. -/
structure EscapeDecoder where
  decode : Bytes → JString
  decode_utf8 : ∀ s, decode (utf8 s) = s
  decode_ascii : ∀ u b v, b.toNat < 128 →
    decode (u ++ b :: v) = decode u ++ Char.ofNat b.toNat :: decode v
  decode_wide : ∀ u, (∀ b ∈ u, 128 ≤ b.toNat) → ∀ c ∈ decode u, 128 ≤ c.toNat
  decode_length : ∀ u, u.length ≤ (utf8 (decode u)).length

/-- The text of a component behind the escapes `run`; a byte that is not escaped is the
character Netty has made of it. -/
def EscapeDecoder.text (d : EscapeDecoder) : Bytes → List Token → JString
  | run, [] => d.decode run
  | run, t :: toks =>
      if t.escaped then d.text (run ++ [t.byte]) toks
      else d.decode run ++ Char.ofNat t.byte.toNat :: d.text [] toks

def slashToken : Token := ⟨47, false⟩

/-- The authority and the path of a target: two slashes introduce an authority, which ends
at the next slash. -/
def components : List Token → Option (List Token) × List Token
  | s :: s' :: rest =>
      if s = slashToken ∧ s' = slashToken then
        (some (rest.takeWhile (· ≠ slashToken)), rest.dropWhile (· ≠ slashToken))
      else (none, s :: s' :: rest)
  | toks => (none, toks)

/-- `new URI(request.uri())` for a target that begins with a slash: escapes are well formed,
or it throws, and `getPath` is the decoded path. -/
structure JavaUri extends EscapeDecoder where
  parse : JString → Option Uri
  parse_path : ∀ {rest : Bytes} {uri : Uri}, parse (latin1 (47 :: rest)) = some uri →
    ∃ toks, tokens (hierPart (47 :: rest)) = some toks
      ∧ uri.path = some (toEscapeDecoder.text [] (components toks).2)

/-! ## §2. The text of a path. -/

section Texts

variable (d : EscapeDecoder)

theorem EscapeDecoder.decode_nil : d.decode [] = [] := d.decode_utf8 []

theorem EscapeDecoder.text_run {b : UInt8} (hb : b.toNat < 128) (run : Bytes) :
    ∀ (toks : List Token) (run' : Bytes), d.text (run ++ b :: run') toks
      = d.decode run ++ Char.ofNat b.toNat :: d.text run' toks := by
  intro toks
  induction toks with
  | nil => intro run'; exact d.decode_ascii run b run' hb
  | cons t toks ih =>
      intro run'
      rw [text, text]
      by_cases ht : t.escaped = true
      · rw [if_pos ht, if_pos ht, List.append_assoc, List.cons_append, ih]
      · rw [if_neg ht, if_neg ht, d.decode_ascii run b run' hb, List.append_assoc]
        rfl

/-- **An ASCII character is a character of the text**, escaped or not. -/
theorem EscapeDecoder.text_ascii {t : Token} (ht : t.byte.toNat < 128) (toks' : List Token) :
    ∀ (toks : List Token) (run : Bytes), d.text run (toks ++ t :: toks')
      = d.text run toks ++ Char.ofNat t.byte.toNat :: d.text [] toks' := by
  intro toks
  induction toks with
  | nil =>
      intro run
      rw [List.nil_append, text, text]
      by_cases hesc : t.escaped = true
      · rw [if_pos hesc]
        exact d.text_run ht run toks' []
      · rw [if_neg hesc]
  | cons t' toks ih =>
      intro run
      rw [List.cons_append, text, text]
      by_cases hesc : t'.escaped = true
      · rw [if_pos hesc, if_pos hesc, ih]
      · rw [if_neg hesc, if_neg hesc, ih, List.append_assoc]
        rfl

theorem EscapeDecoder.text_cons {t : Token} (ht : t.byte.toNat < 128) (toks : List Token) :
    d.text [] (t :: toks) = Char.ofNat t.byte.toNat :: d.text [] toks := by
  have h := d.text_ascii ht toks [] []
  rw [text, d.decode_nil] at h
  exact h

/-- A byte is ASCII. -/
def isAscii (t : Token) : Bool := decide (t.byte.toNat < 128)

/-- Other characters give no ASCII character. -/
theorem EscapeDecoder.text_wide :
    ∀ {toks : List Token} {run : Bytes}, (∀ t ∈ toks, isAscii t = false) →
      (∀ b ∈ run, 128 ≤ b.toNat) → ∀ c ∈ d.text run toks, 128 ≤ c.toNat := by
  intro toks
  induction toks with
  | nil => intro run _ hrun; exact d.decode_wide run hrun
  | cons t toks ih =>
      intro run htoks hrun c hc
      have ht : 128 ≤ t.byte.toNat := by
        have := htoks t List.mem_cons_self
        unfold isAscii at this
        rw [decide_eq_false_iff_not] at this
        omega
      have htoks' : ∀ t ∈ toks, isAscii t = false :=
        fun t' ht' => htoks t' (List.mem_cons_of_mem t ht')
      rw [text] at hc
      by_cases hesc : t.escaped = true
      · rw [if_pos hesc] at hc
        apply ih htoks' _ c hc
        intro b hb
        rcases List.mem_append.mp hb with hb | hb
        · exact hrun b hb
        · rw [List.mem_singleton.mp hb]
          exact ht
      · rw [if_neg hesc] at hc
        rcases List.mem_append.mp hc with hc | hc
        · exact d.decode_wide run hrun c hc
        · rcases List.mem_cons.mp hc with rfl | hc
          · rw [toNat_ofNat_byte]
            exact ht
          · exact ih htoks' (fun b hb => absurd hb List.not_mem_nil) c hc

/-- A byte from 128 on that is not escaped. -/
def rawWide (t : Token) : Bool := !t.escaped && decide (128 ≤ t.byte.toNat)

/-- **The text has no fewer bytes than the path**, and one more for every byte from 128 on
that is not escaped. -/
theorem EscapeDecoder.length_text :
    ∀ (toks : List Token) (run : Bytes),
      run.length + toks.length + toks.countP rawWide ≤ (utf8 (d.text run toks)).length := by
  intro toks
  induction toks with
  | nil => intro run; exact d.decode_length run
  | cons t toks ih =>
      intro run
      rw [text, List.length_cons, List.countP_cons]
      by_cases hesc : t.escaped = true
      · have hraw : rawWide t = false := by
          unfold rawWide
          rw [hesc]
          rfl
        have hlen := ih (run ++ [t.byte])
        rw [List.length_append, List.length_singleton] at hlen
        rw [if_pos hesc, hraw, if_neg (by decide)]
        omega
      · have hrun := d.decode_length run
        have hlen := ih []
        rw [List.length_nil] at hlen
        rw [if_neg hesc, utf8_append, utf8_cons, List.length_append, List.length_append,
          String.length_utf8EncodeChar]
        cases hraw : rawWide t with
        | false =>
            have hpos := (Char.ofNat t.byte.toNat).utf8Size_pos
            rw [if_neg (by decide)]
            omega
        | true =>
            unfold rawWide at hraw
            rw [Bool.and_eq_true, decide_eq_true_eq] at hraw
            have hsize := @two_le_utf8Size (Char.ofNat t.byte.toNat)
              (by rw [toNat_ofNat_byte]; exact hraw.2)
            rw [if_pos rfl]
            omega

/-- The bytes of a component with its escapes undone, as nginx writes them. -/
def byteText (toks : List Token) : Bytes := toks.map Token.byte

/-- A component of ASCII characters is the same bytes on both sides. -/
theorem EscapeDecoder.utf8_text_ascii :
    ∀ {toks : List Token}, (∀ t ∈ toks, isAscii t = true) →
      utf8 (d.text [] toks) = byteText toks := by
  intro toks
  induction toks with
  | nil =>
      intro _
      rw [text, d.decode_nil]
      rfl
  | cons t toks ih =>
      intro h
      have ht : t.byte.toNat < 128 := of_decide_eq_true (h t List.mem_cons_self)
      rw [d.text_cons ht, utf8_cons, utf8EncodeChar_ofNat ht,
        ih (fun t' ht' => h t' (List.mem_cons_of_mem t ht'))]
      rfl

/-- An ASCII character of the text is one of the component. -/
theorem EscapeDecoder.exists_token {c : Char} (hc : c.toNat < 128) :
    ∀ (toks : List Token), c ∈ d.text [] toks → ∃ t ∈ toks, t.byte.toNat = c.toNat := by
  intro toks
  induction toks using induction_at isAscii with
  | line toks htoks =>
      intro hmem
      have hge := d.text_wide htoks (fun b hb => absurd hb List.not_mem_nil) c hmem
      omega
  | cut u t toks hu ht ih =>
      intro hmem
      have hascii : t.byte.toNat < 128 := of_decide_eq_true ht
      rw [d.text_ascii hascii, List.mem_append, List.mem_cons] at hmem
      rcases hmem with hmem | rfl | hmem
      · have hge := d.text_wide hu (fun b hb => absurd hb List.not_mem_nil) c hmem
        omega
      · exact ⟨t, List.mem_append_right _ List.mem_cons_self, (toNat_ofNat_byte t.byte).symm⟩
      · obtain ⟨t', ht', heq⟩ := ih hmem
        exact ⟨t', List.mem_append_right _ (List.mem_cons_of_mem t ht'), heq⟩

/-- A character of another kind leaves one in the text. -/
theorem EscapeDecoder.exists_wide :
    ∀ (toks : List Token), (∃ t ∈ toks, isAscii t = false) →
      ∃ c ∈ d.text [] toks, 128 ≤ c.toNat := by
  -- a stretch without ASCII characters is not lost
  have hstretch : ∀ toks : List Token, (∀ t ∈ toks, isAscii t = false) → toks ≠ [] →
      ∃ c ∈ d.text [] toks, 128 ≤ c.toNat := by
    intro toks htoks hne
    have hlen := d.length_text toks []
    have hpos := List.length_pos_iff.mpr hne
    cases htext : d.text [] toks with
    | nil =>
        rw [htext] at hlen
        simp only [utf8, List.flatMap_nil, List.length_nil] at hlen
        omega
    | cons c cs =>
        refine ⟨c, List.mem_cons_self, ?_⟩
        apply d.text_wide htoks (fun b hb => absurd hb List.not_mem_nil)
        rw [htext]
        exact List.mem_cons_self
  intro toks
  induction toks using induction_at isAscii with
  | line toks htoks =>
      intro h
      obtain ⟨t, ht, _⟩ := h
      exact hstretch toks htoks (List.ne_nil_of_mem ht)
  | cut u t toks hu ht ih =>
      intro h
      obtain ⟨t', ht', hwide⟩ := h
      rw [d.text_ascii (of_decide_eq_true ht)]
      rcases List.mem_append.mp ht' with ht' | ht'
      · obtain ⟨c, hc, hge⟩ := hstretch u hu (List.ne_nil_of_mem ht')
        exact ⟨c, List.mem_append_left _ hc, hge⟩
      · rcases List.mem_cons.mp ht' with rfl | ht'
        · exact absurd (hwide.symm.trans ht) (by decide)
        · obtain ⟨c, hc, hge⟩ := ih ⟨t', ht', hwide⟩
          exact ⟨c, List.mem_append_right _ (List.mem_cons_of_mem _ hc), hge⟩

/-! ## §3. Segments. -/

/-- The segments of a component; an escaped slash ends one, too. -/
def tokenSegments (toks : List Token) : List (List Token) := toks.splitOnP (fun t => t.byte == 47)

theorem tokenSegments_append_cons {t : Token} (ht : t.byte = 47) (u toks : List Token) :
    tokenSegments (u ++ t :: toks) = tokenSegments u ++ tokenSegments toks := by
  unfold tokenSegments
  rw [List.splitOnP_append_cons _ _ (by rw [ht]; rfl)]

theorem tokenSegments_slash (toks : List Token) :
    tokenSegments (slashToken :: toks) = [] :: tokenSegments toks :=
  tokenSegments_append_cons (t := slashToken) rfl [] toks

theorem segments_byteText (toks : List Token) :
    segments 47 (byteText toks) = (tokenSegments toks).map byteText :=
  splitOnP_map Token.byte (fun b => b == 47) toks

theorem EscapeDecoder.not_mem_utf8_text {toks : List Token} {b : UInt8} (hb : b.toNat < 128)
    (h : ∀ t ∈ toks, t.byte ≠ b) : b ∉ utf8 (d.text [] toks) := by
  intro hmem
  obtain ⟨c, hc, hbc⟩ := List.mem_flatMap.mp hmem
  by_cases hascii : c.toNat < 128
  · rw [utf8EncodeChar_ascii hascii, List.mem_singleton] at hbc
    obtain ⟨t, ht, heq⟩ := d.exists_token hascii toks hc
    apply h t ht
    rw [hbc, ← heq, UInt8.ofNat_toNat]
  · have hge := le_of_mem_utf8EncodeChar (by omega) hbc
    omega

/-- **The segments of the text.** -/
theorem EscapeDecoder.segments_text (toks : List Token) :
    segments 47 (utf8 (d.text [] toks))
      = (tokenSegments toks).map (fun seg => utf8 (d.text [] seg)) := by
  induction toks using induction_at (fun t : Token => t.byte == 47) with
  | line toks htoks =>
      have hone : tokenSegments toks = [toks] := List.splitOnP_eq_singleton htoks
      have hslash : ∀ t ∈ toks, t.byte ≠ 47 := fun t ht => ne_of_beq_false (htoks t ht)
      rw [hone, segments_of_not_mem (d.not_mem_utf8_text (by decide) hslash)]
      rfl
  | cut u t toks hu ht ih =>
      have hbyte : t.byte = 47 := eq_of_beq ht
      have hascii : t.byte.toNat < 128 := by
        rw [hbyte]
        decide
      have hone : tokenSegments u = [u] := List.splitOnP_eq_singleton hu
      have hslash : ∀ t ∈ u, t.byte ≠ 47 := fun t ht => ne_of_beq_false (hu t ht)
      rw [tokenSegments_append_cons hbyte, hone, d.text_ascii hascii, utf8_append, utf8_cons,
        utf8EncodeChar_ofNat hascii, List.singleton_append, hbyte, segments_append_cons, ih,
        segments_of_not_mem (d.not_mem_utf8_text (by decide) hslash)]
      rfl

/-- What a segment does, on both sides. -/
def tokenStep (seg : List Token) : PathStep (List Token) :=
  if byteText seg = [] ∨ byteText seg = [46] then .stay
  else if byteText seg = [46, 46] then .up else .down seg

theorem pathStep_byteText (seg : List Token) :
    pathStep 46 (byteText seg) = (tokenStep seg).map byteText := by
  unfold pathStep tokenStep
  split_ifs <;> rfl

theorem ne_dots_of_wide {l : Bytes} (h : ∃ b ∈ l, 128 ≤ b.toNat) :
    ¬ (l = [] ∨ l = [46]) ∧ l ≠ [46, 46] := by
  obtain ⟨b, hb, hge⟩ := h
  have hne : ∀ l' : Bytes, (∀ b ∈ l', b.toNat < 128) → l ≠ l' := by
    intro l' hl' heq
    rw [heq] at hb
    have hlt := hl' b hb
    omega
  exact ⟨not_or.mpr ⟨hne [] (by simp), hne [46] (by simp)⟩, hne [46, 46] (by simp)⟩

/-- **The same segments are dots.** -/
theorem EscapeDecoder.pathStep_text (seg : List Token) :
    pathStep 46 (utf8 (d.text [] seg))
      = (tokenStep seg).map (fun seg => utf8 (d.text [] seg)) := by
  by_cases hascii : ∀ t ∈ seg, isAscii t = true
  · unfold pathStep tokenStep
    rw [d.utf8_text_ascii hascii]
    split_ifs with h1 h2
    · rfl
    · rfl
    · exact congrArg PathStep.down (d.utf8_text_ascii hascii).symm
  · -- a character from 128 on makes it a name
    simp only [not_forall, Bool.not_eq_true] at hascii
    obtain ⟨t, ht, hwide⟩ := hascii
    obtain ⟨c, hc, hge⟩ := d.exists_wide seg ⟨t, ht, hwide⟩
    have hbyte : 128 ≤ t.byte.toNat := by
      have hlt := of_decide_eq_false hwide
      omega
    have hbytes := ne_dots_of_wide (l := byteText seg) ⟨t.byte, List.mem_map_of_mem ht, hbyte⟩
    have hencode : String.utf8EncodeChar c ≠ [] := by
      rw [← List.length_pos_iff, String.length_utf8EncodeChar]
      exact c.utf8Size_pos
    obtain ⟨b, hb⟩ := List.exists_mem_of_ne_nil _ hencode
    have htext := ne_dots_of_wide (l := utf8 (d.text [] seg))
      ⟨b, List.mem_flatMap.mpr ⟨c, hc, hb⟩, le_of_mem_utf8EncodeChar hge hb⟩
    unfold pathStep tokenStep
    rw [if_neg htext.1, if_neg htext.2, if_neg hbytes.1, if_neg hbytes.2]
    rfl

/-- A segment that is UTF-8 text, its bytes from 128 on escaped. -/
structure Textual (seg : List Token) : Prop where
  text : ∃ s, utf8 s = byteText seg
  escaped : ∀ t ∈ seg, 128 ≤ t.byte.toNat → t.escaped = true

theorem EscapeDecoder.text_escaped :
    ∀ {toks : List Token} {run : Bytes}, (∀ t ∈ toks, t.escaped = true) →
      d.text run toks = d.decode (run ++ byteText toks) := by
  intro toks
  induction toks with
  | nil =>
      intro run _
      show d.decode run = d.decode (run ++ [])
      rw [List.append_nil]
  | cons t toks ih =>
      intro run h
      rw [text, if_pos (h t List.mem_cons_self),
        ih (fun t' ht' => h t' (List.mem_cons_of_mem t ht')), List.append_assoc]
      rfl

/-- A stretch of characters from 128 on. -/
theorem EscapeDecoder.text_stretch {s : List Char} {seg : List Token}
    (hs : ∀ c ∈ s, 128 ≤ c.toNat) (hseg : utf8 s = byteText seg)
    (hescaped : ∀ t ∈ seg, 128 ≤ t.byte.toNat → t.escaped = true) : d.text [] seg = s := by
  have hall : ∀ t ∈ seg, t.escaped = true := by
    intro t ht
    apply hescaped t ht
    have hmem : t.byte ∈ utf8 s := by
      rw [hseg]
      exact List.mem_map_of_mem ht
    obtain ⟨c, hc, hbyte⟩ := List.mem_flatMap.mp hmem
    exact le_of_mem_utf8EncodeChar (hs c hc) hbyte
  rw [d.text_escaped hall, List.nil_append, ← hseg, d.decode_utf8]

theorem EscapeDecoder.text_of_utf8 (s : List Char) :
    ∀ {seg : List Token}, utf8 s = byteText seg →
      (∀ t ∈ seg, 128 ≤ t.byte.toNat → t.escaped = true) → d.text [] seg = s := by
  induction s using induction_at (fun c : Char => decide (c.toNat < 128)) with
  | line s hs =>
      intro seg hseg hescaped
      apply d.text_stretch _ hseg hescaped
      intro c hc
      exact Nat.not_lt.mp (of_decide_eq_false (hs c hc))
  | cut u c s hu hc ih =>
      intro seg hseg hescaped
      have hascii : c.toNat < 128 := of_decide_eq_true hc
      have hu' : ∀ c ∈ u, 128 ≤ c.toNat :=
        fun c hc => Nat.not_lt.mp (of_decide_eq_false (hu c hc))
      rw [utf8_append, utf8_cons, utf8EncodeChar_ascii hascii, List.singleton_append] at hseg
      obtain ⟨front, back, rfl, hfront, hback⟩ := List.map_eq_append_iff.mp hseg.symm
      obtain ⟨t, toks, rfl, ht, htoks⟩ := List.map_eq_cons_iff.mp hback
      have htoNat : t.byte.toNat = c.toNat := by
        rw [ht, UInt8.toNat_ofNat']
        omega
      have hfront' := d.text_stretch hu' hfront.symm
        (fun t' ht' => hescaped t' (List.mem_append_left _ ht'))
      have hback' := ih htoks.symm
        (fun t' ht' => hescaped t' (List.mem_append_right _ (List.mem_cons_of_mem t ht')))
      rw [d.text_ascii (by omega), hfront', hback', htoNat, Char.ofNat_toNat]

/-- **When a name is the same bytes on both sides.** -/
theorem EscapeDecoder.textual_iff (seg : List Token) :
    utf8 (d.text [] seg) = byteText seg ↔ Textual seg := by
  constructor
  · intro h
    refine ⟨⟨_, h⟩, ?_⟩
    intro t ht hwide
    by_contra hesc
    -- a byte that is not escaped would make the text longer
    have hraw : rawWide t = true := by
      unfold rawWide
      rw [Bool.eq_false_iff.mpr hesc, decide_eq_true hwide]
      rfl
    have hpos : 0 < seg.countP rawWide := List.countP_pos_iff.mpr ⟨t, ht, hraw⟩
    have hlen := d.length_text seg []
    rw [h, byteText, List.length_map, List.length_nil] at hlen
    omega
  · intro h
    obtain ⟨s, hs⟩ := h.text
    rw [d.text_of_utf8 s hs h.escaped, hs]

/-! ## §4. Resolving on both sides. -/

/-- Where the segments of a component lead. -/
def segEffect (segs : List (List Token)) : PathEffect (List Token) :=
  effect (segs.map tokenStep)

theorem effect_byteText (segs : List (List Token)) :
    effect ((segs.map byteText).map (pathStep 46))
      = ⟨(segEffect segs).ups, (segEffect segs).downs.map byteText⟩ := by
  have hsteps : (segs.map byteText).map (pathStep 46)
      = (segs.map tokenStep).map (PathStep.map byteText) := by
    rw [List.map_map, List.map_map]
    exact List.map_congr_left (fun seg _ => pathStep_byteText seg)
  rw [hsteps, effect_map]
  rfl

theorem EscapeDecoder.effect_text (segs : List (List Token)) :
    effect ((segs.map (fun seg => utf8 (d.text [] seg))).map (pathStep 46))
      = ⟨(segEffect segs).ups, (segEffect segs).downs.map (fun seg => utf8 (d.text [] seg))⟩ := by
  have hsteps : (segs.map (fun seg => utf8 (d.text [] seg))).map (pathStep 46)
      = (segs.map tokenStep).map (PathStep.map (fun seg => utf8 (d.text [] seg))) := by
    rw [List.map_map, List.map_map]
    exact List.map_congr_left (fun seg _ => d.pathStep_text seg)
  rw [hsteps, effect_map]
  rfl

/-- The last segment of a path that has been resolved: nothing, or a name. -/
theorem segEffect_concat {front : List (List Token)} {last : List Token}
    (h1 : byteText last ≠ [46]) (h2 : byteText last ≠ [46, 46]) :
    segEffect (front ++ [last])
      = ⟨(segEffect front).ups, (segEffect front).downs ++ if last = [] then [] else [last]⟩ := by
  unfold segEffect
  rw [List.map_append, List.map_singleton]
  by_cases hempty : last = []
  · rw [if_pos hempty, hempty, show tokenStep [] = .stay from rfl, effect_concat_stay,
      List.append_nil]
  · have hne : byteText last ≠ [] := fun h => hempty (List.map_eq_nil_iff.mp h)
    have hstep : tokenStep last = .down last := by
      unfold tokenStep
      rw [if_neg (not_or.mpr ⟨hne, h1⟩), if_neg h2]
    rw [if_neg hempty, hstep, effect_concat_down]

theorem EscapeDecoder.utf8_text_eq_nil_iff (seg : List Token) :
    utf8 (d.text [] seg) = [] ↔ seg = [] := by
  constructor
  · intro h
    have hlen := d.length_text seg []
    rw [h, List.length_nil] at hlen
    exact List.length_eq_zero_iff.mp (by omega)
  · intro h
    rw [h, text, d.decode_nil]
    rfl

/-- Dots that are not resolved are no name. -/
theorem not_isName_dots {seg : Bytes} (h : seg = [46] ∨ seg = [46, 46]) :
    ¬ IsName 47 46 seg := by
  intro hname
  rcases h with rfl | rfl
  · exact absurd hname.step (by decide)
  · exact absurd hname.step (by decide)

section Resolutions

variable {root : List Bytes} {extra front : List (List Token)} {last : List Token}

/-- Both sides take the same names behind what they start with. -/
theorem EscapeDecoder.agree_iff_names {segs : List (List Token)}
    (hups : (segEffect segs).ups ≤ extra.length) :
    root.take (root.length - (segEffect segs).ups)
          ++ (segEffect segs).downs.map (fun seg => utf8 (d.text [] seg))
        = root ++ ((extra.map byteText).take (extra.length - (segEffect segs).ups)
            ++ (segEffect segs).downs.map byteText)
      ↔ (extra = [] ∨ root = [] ∧ (segEffect segs).ups = extra.length)
        ∧ ∀ seg ∈ (segEffect segs).downs, Textual seg := by
  have hextra : (extra.map byteText).length = extra.length := List.length_map _
  rw [← hextra, take_append_eq_iff (by rw [hextra]; exact hups)
    (by rw [List.length_map, List.length_map]), hextra, List.map_eq_nil_iff, List.map_inj_left]
  simp only [d.textual_iff]
  constructor
  · intro h
    obtain ⟨hall, hempty, htext⟩ := h
    refine ⟨?_, htext⟩
    rcases hempty with hempty | hempty
    · exact Or.inl hempty
    · exact Or.inr ⟨hempty, hall⟩
  · intro h
    obtain ⟨hempty, htext⟩ := h
    rcases hempty with hempty | ⟨hempty, hall⟩
    · rw [hempty, List.length_nil] at hups
      rw [hempty, List.length_nil]
      exact ⟨by omega, Or.inl rfl, htext⟩
    · exact ⟨hall, Or.inr hempty, htext⟩

/-- **Both resolutions of one path**, nginx's behind the names `extra` of the authority and
with the last segment as it is. -/
theorem EscapeDecoder.resolutions_agree_iff (hroot : ∀ name ∈ root, IsName 47 46 name)
    (hups : (segEffect front).ups ≤ extra.length)
    (hsegs : ∀ seg ∈ front ++ [last], 47 ∉ utf8 (d.text [] seg)) :
    walk root (((front ++ [last]).map (fun seg => utf8 (d.text [] seg))).map (pathStep 46))
          ++ (if utf8 (d.text [] last) = [] then [[]] else [])
        = root ++ ((extra.map byteText).take (extra.length - (segEffect front).ups)
            ++ (segEffect front).downs.map byteText ++ [byteText last])
      ↔ (byteText last ≠ [46] ∧ byteText last ≠ [46, 46])
        ∧ (extra = [] ∨ root = [] ∧ (segEffect (front ++ [last])).ups = extra.length)
        ∧ ∀ seg ∈ (segEffect (front ++ [last])).downs, Textual seg := by
  by_cases hdots : byteText last = [46] ∨ byteText last = [46, 46]
  · -- dots at the end stay in `r->uri`, and no resolution leaves any
    apply iff_of_false
    · intro heq
      have hmem : byteText last ∈ root ++ ((extra.map byteText).take
          (extra.length - (segEffect front).ups)
            ++ (segEffect front).downs.map byteText ++ [byteText last]) := by simp
      rw [← heq, List.mem_append] at hmem
      rcases hmem with hmem | hmem
      · apply not_isName_dots hdots
        rcases mem_walk hmem with hmem | hmem
        · exact hroot _ hmem
        · apply isName_of_mem_map _ hmem
          intro seg hseg
          obtain ⟨toks, htoks, rfl⟩ := List.mem_map.mp hseg
          exact hsegs toks htoks
      · split_ifs at hmem
        · rw [List.mem_singleton.mp hmem] at hdots
          exact absurd hdots (by simp)
        · exact absurd hmem List.not_mem_nil
    · intro h
      rcases hdots with hdots | hdots
      · exact h.1.1 hdots
      · exact h.1.2 hdots
  · have hne := not_or.mp hdots
    have heffect := @segEffect_concat front last hne.1 hne.2
    have hups' : (segEffect (front ++ [last])).ups = (segEffect front).ups := by rw [heffect]
    rw [and_iff_right hne, ← d.agree_iff_names (by rw [hups']; exact hups), walk_eq,
      d.effect_text, hups', heffect]
    dsimp only
    simp only [d.utf8_text_eq_nil_iff]
    by_cases hempty : last = []
    · rw [if_pos hempty, if_pos hempty, hempty, show byteText [] = [] from rfl,
        List.append_nil, ← List.append_assoc, List.append_left_inj]
    · rw [if_neg hempty, if_neg hempty, List.append_nil, List.map_append (f := byteText),
        List.append_assoc _ _ [byteText last]]
      rfl

end Resolutions

end Texts

/-! ## §5. Targets. -/

/-- What nginx reads in front of the path: the empty segment between two slashes, and the
authority. -/
def authoritySegments : Option (List Token) → List (List Token)
  | none => []
  | some authority => [] :: tokenSegments authority

/-- The components of a target that begins with a slash, as nginx reads them. -/
theorem components_cases (toks : List Token) :
    (components (slashToken :: toks)).2 = []
      ∨ ∃ path, (components (slashToken :: toks)).2 = slashToken :: path
          ∧ tokenSegments toks
            = authoritySegments (components (slashToken :: toks)).1 ++ tokenSegments path := by
  cases toks with
  | nil => exact Or.inr ⟨[], rfl, rfl⟩
  | cons t rest =>
      rw [components]
      by_cases ht : t = slashToken
      · rw [if_pos ⟨rfl, ht⟩, ht]
        dsimp only
        have hrest : rest.takeWhile (· ≠ slashToken) ++ rest.dropWhile (· ≠ slashToken) = rest :=
          List.takeWhile_append_dropWhile
        cases hdrop : rest.dropWhile (· ≠ slashToken) with
        | nil => exact Or.inl rfl
        | cons t' path =>
            have hhead := List.head?_dropWhile_not (· ≠ slashToken) rest
            rw [hdrop] at hhead
            have ht' : t' = slashToken := by simpa using hhead
            refine Or.inr ⟨path, by rw [ht'], ?_⟩
            rw [hdrop, ht'] at hrest
            rw [tokenSegments_slash]
            nth_rewrite 1 [← hrest]
            rw [tokenSegments_append_cons rfl]
            rfl
      · rw [if_neg (fun h => ht h.2)]
        exact Or.inr ⟨t :: rest, rfl, rfl⟩

/-- nginx behind the authority. -/
theorem nginx_walk {auth front : List (List Token)} {stack : List Bytes}
    (h : tryWalk [] (((auth ++ front).map byteText).map (pathStep 46)) = some stack) :
    (segEffect front).ups ≤ (segEffect auth).downs.length
      ∧ stack = ((segEffect auth).downs.map byteText).take
            ((segEffect auth).downs.length - (segEffect front).ups)
          ++ (segEffect front).downs.map byteText := by
  rw [List.map_append, List.map_append, tryWalk_append] at h
  obtain ⟨names, hauth, hfront⟩ := Option.bind_eq_some_iff.mp h
  have hnames := (of_tryWalk hauth).2
  have hstack := of_tryWalk hfront
  rw [effect_byteText, List.take_nil, List.nil_append] at hnames
  rw [effect_byteText, hnames, List.length_map] at hstack
  exact hstack

/-- A `root_path` that needs no resolution, as `/mnt1/cloud/rec_distribute/playseek`. -/
structure RootPath (c : ConfigControl) where
  names : List Bytes
  text : utf8 c.rootPath = joinNames 47 names
  isName : ∀ name ∈ names, IsName 47 46 name

/-- **One file**: what m3u8-filter opens for the target, resolved, and what nginx has read. -/
def SameFile (c : ConfigControl) (uri : Uri) (parsed : ParsedUri) : Prop :=
  lexical 47 46 (utf8 (c.rootPath ++ orNull uri.path)) = utf8 c.rootPath ++ parsed.uri

/-- The characters of a target up to its query. -/
def characters (target : Bytes) : List Token := (tokens (hierPart target)).getD []

/-- A target both sides read alike. -/
structure ReadAlike (root : List Bytes) (toks : List Token) : Prop where
  /-- There is something behind the authority. -/
  path : (components toks).2 ≠ []
  /-- The path does not end in `.` or `..`. -/
  last : ∀ seg ∈ (tokenSegments (components toks).2).getLast?,
    byteText seg ≠ [46] ∧ byteText seg ≠ [46, 46]
  /-- Taken for a path, the authority leads nowhere; or the path leads out of it again, and
  there is no directory to leave. -/
  authority : (segEffect (authoritySegments (components toks).1)).downs = []
    ∨ root = [] ∧ (segEffect (tokenSegments (components toks).2)).ups
        = (segEffect (authoritySegments (components toks).1)).downs.length
  /-- The names that are left are UTF-8 text, escaped where it has to be. -/
  names : ∀ seg ∈ (segEffect (tokenSegments (components toks).2)).downs, Textual seg

section Targets

variable {c : ConfigControl} (d : EscapeDecoder) (root : RootPath c)

/-- The path m3u8-filter opens, by segments. -/
theorem opened_path (path : List Token) :
    utf8 (c.rootPath ++ d.text [] (slashToken :: path))
      = joinNames 47 (root.names
          ++ (tokenSegments path).map (fun seg => utf8 (d.text [] seg))) := by
  have hslash : slashToken.byte.toNat < 128 := by decide
  rw [utf8_append, root.text, joinNames_append, d.text_cons hslash, utf8_cons,
    utf8EncodeChar_ofNat hslash, ← d.segments_text, joinNames_segments]
  rfl

theorem not_mem_text_segments {path : List Token} :
    ∀ seg ∈ (tokenSegments path).map (fun seg => utf8 (d.text [] seg)), 47 ∉ seg := by
  intro seg hseg
  rw [← d.segments_text] at hseg
  exact not_mem_of_mem_segments hseg

/-- Its resolution. -/
theorem lexical_opened_path {path last : List Token} {front : List (List Token)}
    (hpath : tokenSegments path = front ++ [last]) :
    lexical 47 46 (utf8 (c.rootPath ++ d.text [] (slashToken :: path)))
      = joinNames 47
          (walk root.names
              (((front ++ [last]).map (fun seg => utf8 (d.text [] seg))).map (pathStep 46))
            ++ if utf8 (d.text [] last) = [] then [[]] else []) := by
  have hsep : ∀ seg ∈ root.names
      ++ (tokenSegments path).map (fun seg => utf8 (d.text [] seg)), 47 ∉ seg := by
    intro seg hseg
    rcases List.mem_append.mp hseg with hseg | hseg
    · exact (root.isName seg hseg).sep
    · exact not_mem_text_segments d seg hseg
  have hlast : (root.names
      ++ (front ++ [last]).map (fun seg => utf8 (d.text [] seg))).getLast?
        = some (utf8 (d.text [] last)) := by
    rw [List.map_append, List.map_singleton, ← List.append_assoc, List.getLast?_concat]
  rw [opened_path d root, lexical_joinNames hsep, List.map_append, walk_append,
    walk_names root.isName, hpath, hlast]
  simp only [Option.some.injEq]

/-- Names and an empty segment behind them have no slash in them. -/
theorem not_mem_resolved {path : List Token} {names : List Bytes} {trailing : List Bytes}
    (hnames : names = walk root.names
      (((tokenSegments path).map (fun seg => utf8 (d.text [] seg))).map (pathStep 46)))
    (htrailing : ∀ seg ∈ trailing, seg = []) : ∀ seg ∈ names ++ trailing, 47 ∉ seg := by
  intro seg hseg
  rcases List.mem_append.mp hseg with hseg | hseg
  · rw [hnames] at hseg
    rcases mem_walk hseg with hseg | hseg
    · exact (root.isName seg hseg).sep
    · exact (isName_of_mem_map (not_mem_text_segments d) hseg).sep
  · rw [htrailing seg hseg]
    exact List.not_mem_nil

/-- **The two readings of a target with a path.** -/
theorem sameFile_path_iff {path : List Token} {auth : List (List Token)} {stack : List Bytes}
    {front : List (List Token)} {last : List Token} {parsed : ParsedUri} {uri : Uri}
    (hpath : tokenSegments path = front ++ [last])
    (huri : uri.path = some (d.text [] (slashToken :: path)))
    (hwalk : tryWalk [] (((auth ++ front).map byteText).map (pathStep 46)) = some stack)
    (hstack : ∀ name ∈ stack, IsName 47 46 name) (hlast : 47 ∉ byteText last)
    (hparsed : parsed.uri = joinNames 47 stack ++ 47 :: byteText last) :
    SameFile c uri parsed
      ↔ (byteText last ≠ [46] ∧ byteText last ≠ [46, 46])
        ∧ ((segEffect auth).downs = []
            ∨ root.names = []
              ∧ (segEffect (front ++ [last])).ups = (segEffect auth).downs.length)
        ∧ ∀ seg ∈ (segEffect (front ++ [last])).downs, Textual seg := by
  obtain ⟨hups, hnames⟩ := nginx_walk hwalk
  have hleft := @not_mem_resolved c d root path _
    (if utf8 (d.text [] last) = [] then [[]] else []) rfl (by
      intro seg hseg
      split_ifs at hseg
      · exact List.mem_singleton.mp hseg
      · exact absurd hseg List.not_mem_nil)
  have hright : ∀ seg ∈ root.names ++ (stack ++ [byteText last]), 47 ∉ seg := by
    intro seg hseg
    rcases List.mem_append.mp hseg with hseg | hseg
    · exact (root.isName seg hseg).sep
    · rcases List.mem_append.mp hseg with hseg | hseg
      · exact (hstack seg hseg).sep
      · rw [List.mem_singleton.mp hseg]
        exact hlast
  have hsegs : ∀ seg ∈ front ++ [last], 47 ∉ utf8 (d.text [] seg) := by
    intro seg hseg
    rw [← hpath] at hseg
    exact not_mem_text_segments d _ (List.mem_map_of_mem hseg)
  unfold SameFile
  rw [huri, show orNull (some (d.text [] (slashToken :: path))) = d.text [] (slashToken :: path)
    from rfl, lexical_opened_path d root hpath, root.text, hparsed, ← joinNames_concat,
    ← joinNames_append, joinNames_inj (by rw [← hpath]; exact hleft) hright, hnames]
  exact d.resolutions_agree_iff root.isName hups hsegs

/-- With nothing behind the authority m3u8-filter opens the directory itself. -/
theorem not_sameFile_nil (root : RootPath c) {stack : List Bytes} {last : Bytes}
    {parsed : ParsedUri} {uri : Uri}
    (huri : uri.path = some (d.text [] []))
    (hparsed : parsed.uri = joinNames 47 stack ++ 47 :: last) : ¬ SameFile c uri parsed := by
  intro h
  unfold SameFile at h
  rw [huri, EscapeDecoder.text, d.decode_nil, show orNull (some []) = [] from rfl,
    List.append_nil, root.text, lexical_names root.isName, List.self_eq_append_right,
    hparsed] at h
  exact absurd h (by simp)

end Targets

/-! ## §6. A decoder and a parser. -/

def jdkDecoder : EscapeDecoder where
  decode := decodeLossy
  decode_utf8 := decodeLossy_utf8
  decode_ascii := fun u _ v hb => decodeFrom_ascii hb v u []
  decode_wide := fun _ h => decodeLossy_wide h
  decode_length := by
    intro u
    have hlen := length_decodeFrom u []
    rwa [List.length_nil, Nat.zero_add] at hlen

/-- The bytes between `?` and `#`. -/
def queryPart (target : Bytes) : Option Bytes :=
  match target.dropWhile (fun b => !endsPath b) with
  | [] => none
  | b :: rest => if b = 63 then some (rest.takeWhile (· ≠ 35)) else none

/-- `new URI` for a target that begins with a slash, without the check of the characters that
are not escaped. -/
def jdkParse (target : JString) : Option Uri :=
  let bytes := target.map (fun c => UInt8.ofNat c.toNat)
  (tokens (hierPart bytes)).bind (fun toks =>
    let path := some (jdkDecoder.text [] (components toks).2)
    match queryPart bytes with
    | none => some ⟨path, none⟩
    | some query => (tokens query).map (fun toks => ⟨path, some (jdkDecoder.text [] toks)⟩))

/-- The bytes behind the characters Netty has made of them. -/
theorem bytes_latin1 (target : Bytes) :
    (latin1 target).map (fun c => UInt8.ofNat c.toNat) = target := by
  unfold latin1
  rw [List.map_map]
  apply List.map_id''
  intro b
  show UInt8.ofNat (Char.ofNat b.toNat).toNat = b
  rw [toNat_ofNat_byte, UInt8.ofNat_toNat]

theorem jdkParse_path {target : Bytes} {uri : Uri} (h : jdkParse (latin1 target) = some uri) :
    ∃ toks, tokens (hierPart target) = some toks
      ∧ uri.path = some (jdkDecoder.text [] (components toks).2) := by
  unfold jdkParse at h
  dsimp only at h
  rw [bytes_latin1] at h
  obtain ⟨toks, htoks, huri⟩ := Option.bind_eq_some_iff.mp h
  refine ⟨toks, htoks, ?_⟩
  cases hquery : queryPart target with
  | none =>
      rw [hquery] at huri
      rw [← Option.some.inj huri]
  | some query =>
      rw [hquery] at huri
      obtain ⟨_, _, heq⟩ := Option.map_eq_some_iff.mp huri
      rw [← heq]

/-- A target without a query whose path is UTF-8 text. -/
theorem jdkParse_eq {target : Bytes} {toks : List Token} {path : JString}
    (htoks : tokens (hierPart target) = some toks) (hquery : queryPart target = none)
    (htext : utf8 path = byteText (components toks).2)
    (hescaped : ∀ t ∈ (components toks).2, 128 ≤ t.byte.toNat → t.escaped = true) :
    jdkParse (latin1 target) = some ⟨some path, none⟩ := by
  unfold jdkParse
  dsimp only
  rw [bytes_latin1, htoks, hquery, Option.bind_some, jdkDecoder.text_of_utf8 path htext hescaped]

def jdkUri : JavaUri where
  toEscapeDecoder := jdkDecoder
  parse := jdkParse
  parse_path := fun h => jdkParse_path h

theorem jdkUri_parse (target : JString) : jdkUri.parse target = jdkParse target := rfl

/-- The names of the `root_path` of `config.properties`. -/
def playseekNames : List Bytes :=
  ["mnt1", "cloud", "rec_distribute", "playseek"].map (fun name => utf8 name.toList)

theorem isName_playseekNames : ∀ name ∈ playseekNames, IsName 47 46 name := by
  intro name hname
  simp only [playseekNames, List.map_cons, List.map_nil, List.mem_cons, List.not_mem_nil,
    or_false] at hname
  rcases hname with rfl | rfl | rfl | rfl
  · exact ⟨by decide +kernel, by decide +kernel⟩
  · exact ⟨by decide +kernel, by decide +kernel⟩
  · exact ⟨by decide +kernel, by decide +kernel⟩
  · exact ⟨by decide +kernel, by decide +kernel⟩

theorem playseekNames_text : utf8 shippedConfig.rootPath = joinNames 47 playseekNames := by
  decide +kernel

def playseekRoot : RootPath shippedConfig where
  names := playseekNames
  text := playseekNames_text
  isName := isName_playseekNames

/-! ## §7. The file of a target. -/

/-- **The targets that name one file.** -/
theorem same_file_iff (java : JavaUri) (c : ConfigControl) (root : RootPath c) (rest : Bytes)
    (parsed : ParsedUri) (uri : Uri)
    (hnginx : ngxHttpParseComplexUri true (47 :: rest) = some parsed)
    (hjava : java.parse (latin1 (47 :: rest)) = some uri) :
    SameFile c uri parsed ↔ ReadAlike root.names (characters (47 :: rest)) := by
  obtain ⟨toks, htoks, huri⟩ := java.parse_path hjava
  obtain ⟨toks', rfl, frontBytes, lastBytes, stack, hsegs, hwalk, hparsed, hstack⟩ :=
    parsed_uri htoks hnginx
  have hchars : characters (47 :: rest) = slashToken :: toks' := by
    unfold characters
    rw [htoks]
    rfl
  rw [hchars]
  have huri' : uri.path = some (java.text [] (components (slashToken :: toks')).2) := huri
  rcases components_cases toks' with hempty | ⟨path, hpath, hauth⟩
  · rw [hempty] at huri'
    exact iff_of_false (not_sameFile_nil _ root huri' hparsed) (fun h => h.path hempty)
  · obtain ⟨front, last, hlast⟩ :=
      (List.eq_nil_or_concat' (tokenSegments path)).resolve_left (List.splitOnP_ne_nil _ _)
    rw [hpath] at huri'
    -- the segments of the scanner are those of the components
    have hsplit : frontBytes ++ [lastBytes]
        = (authoritySegments (components (slashToken :: toks')).1 ++ front).map byteText
          ++ [byteText last] := by
      rw [← hsegs, ← List.map_singleton, ← List.map_append, List.append_assoc, ← hlast, ← hauth]
      exact segments_byteText toks'
    obtain ⟨rfl, hlastBytes⟩ := List.append_inj' hsplit rfl
    obtain rfl : lastBytes = byteText last := (List.cons.inj hlastBytes).1
    have hsep : 47 ∉ byteText last := by
      have hmem : byteText last ∈ segments 47 (toks'.map Token.byte) := by
        rw [hsegs]
        exact List.mem_append_right _ List.mem_cons_self
      exact not_mem_of_mem_segments hmem
    rw [sameFile_path_iff _ root hlast huri' hwalk hstack hsep hparsed]
    have hpathSegs : tokenSegments (components (slashToken :: toks')).2
        = [] :: (front ++ [last]) := by
      rw [hpath, tokenSegments_slash, hlast]
    have hgetLast : (tokenSegments (components (slashToken :: toks')).2).getLast?
        = some last := by
      rw [hpathSegs, ← List.cons_append, List.getLast?_concat]
    have heffect : segEffect (tokenSegments (components (slashToken :: toks')).2)
        = segEffect (front ++ [last]) := by
      rw [hpathSegs]
      rfl
    constructor
    · intro h
      obtain ⟨hdots, hextra, hnames⟩ := h
      refine ⟨by rw [hpath]; simp, ?_, by rw [heffect]; exact hextra,
        by rw [heffect]; exact hnames⟩
      intro seg hseg
      rw [hgetLast, Option.mem_some_iff] at hseg
      rw [← hseg]
      exact hdots
    · intro h
      refine ⟨h.last last (by rw [hgetLast]; rfl), ?_, ?_⟩
      · rw [← heffect]
        exact h.authority
      · rw [← heffect]
        exact h.names

/-- A directory that is left again, and an escaped name. -/
theorem same_file_escaped :
    SameFile shippedConfig ⟨some "/a/../中.m3u8".toList, none⟩ ⟨utf8 "/中.m3u8".toList, []⟩ := by
  have hjava : jdkUri.parse (latin1 (47 :: utf8 "a/../%E4%B8%AD.m3u8".toList))
      = some ⟨some "/a/../中.m3u8".toList, none⟩ := by
    rw [jdkUri_parse]
    exact @jdkParse_eq (47 :: utf8 "a/../%E4%B8%AD.m3u8".toList)
      (characters (47 :: utf8 "a/../%E4%B8%AD.m3u8".toList)) "/a/../中.m3u8".toList
      (by decide +kernel) (by decide +kernel) (by decide +kernel) (by decide +kernel)
  have hnames : (segEffect (tokenSegments (components
        (characters (47 :: utf8 "a/../%E4%B8%AD.m3u8".toList))).2)).downs
      = [[⟨0xE4, true⟩, ⟨0xB8, true⟩, ⟨0xAD, true⟩]
          ++ (utf8 ".m3u8".toList).map (⟨·, false⟩)] := by decide +kernel
  have hnginx : ngxHttpParseComplexUri true (47 :: utf8 "a/../%E4%B8%AD.m3u8".toList)
      = some ⟨utf8 "/中.m3u8".toList, []⟩ := by decide +kernel
  refine (same_file_iff jdkUri shippedConfig playseekRoot _ _ _ hnginx hjava).mpr
    ⟨by decide +kernel, by decide +kernel, Or.inl (by decide +kernel), ?_⟩
  rw [hnames]
  intro seg hseg
  rw [List.mem_singleton.mp hseg]
  exact ⟨⟨"中.m3u8".toList, by decide +kernel⟩, by decide +kernel⟩

/-- For `//h/../x.m3u8` nginx reads `/x.m3u8`, and m3u8-filter leaves its directory. -/
theorem authority_leaves_root :
    ngxHttpParseComplexUri true (utf8 "//h/../x.m3u8".toList) = some ⟨utf8 "/x.m3u8".toList, []⟩
      ∧ jdkUri.parse (latin1 (utf8 "//h/../x.m3u8".toList))
        = some ⟨some "/../x.m3u8".toList, none⟩
      ∧ lexical 47 46 (utf8 (shippedConfig.rootPath ++ "/../x.m3u8".toList))
        = utf8 "/mnt1/cloud/rec_distribute/x.m3u8".toList
      ∧ ¬ SameFile shippedConfig ⟨some "/../x.m3u8".toList, none⟩
          ⟨utf8 "/x.m3u8".toList, []⟩ := by
  have hjava : jdkUri.parse (latin1 (utf8 "//h/../x.m3u8".toList))
      = some ⟨some "/../x.m3u8".toList, none⟩ := by
    rw [jdkUri_parse]
    exact @jdkParse_eq (utf8 "//h/../x.m3u8".toList)
      (characters (utf8 "//h/../x.m3u8".toList)) "/../x.m3u8".toList
      (by decide +kernel) (by decide +kernel) (by decide +kernel) (by decide +kernel)
  refine ⟨by decide +kernel, hjava, by decide +kernel, ?_⟩
  unfold SameFile
  decide +kernel

end NginxNettyHls.Nginx
