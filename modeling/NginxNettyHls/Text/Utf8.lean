/-
  NginxNettyHls.Text.Utf8
  ───────────────────────
  **TEXTS AND THEIR BYTES.**

  A character below 128 is one byte of the same value, every other character is
  bytes from 128 on.  So what is done to a text at ASCII characters (cutting it,
  stopping at one) can be done to its bytes:

    • `splitOnP_utf8`, `takeWhile_utf8`.

  Bytes that are no text are decoded with U+FFFD in the place of what is wrong
  (`decodeLossy`).
-/
import NginxNettyHls.Text.Lines

namespace Text

/-- The bytes of a text. -/
def utf8 (s : List Char) : List UInt8 := s.flatMap String.utf8EncodeChar

theorem utf8_cons (c : Char) (s : List Char) :
    utf8 (c :: s) = String.utf8EncodeChar c ++ utf8 s := rfl

theorem utf8_append (s t : List Char) : utf8 (s ++ t) = utf8 s ++ utf8 t :=
  List.flatMap_append

theorem utf8EncodeChar_ascii {c : Char} (h : c.toNat < 128) :
    String.utf8EncodeChar c = [UInt8.ofNat c.toNat] := by
  unfold String.utf8EncodeChar
  exact if_pos (show c.toNat ≤ 127 by omega)

/-- Every other character has bytes from 128 on only. -/
theorem le_of_mem_utf8EncodeChar {c : Char} {b : UInt8} (h : 128 ≤ c.toNat)
    (hb : b ∈ String.utf8EncodeChar c) : 128 ≤ b.toNat := by
  have hbyte : ∀ n, n < 64 → ∀ k, 128 ≤ k → k ≤ 192 → 128 ≤ (UInt8.ofNat (n + k)).toNat := by
    intro n hn k hk hk'
    rw [UInt8.toNat_ofNat']
    omega
  unfold String.utf8EncodeChar at hb
  dsimp only at hb
  have h127 : ¬ c.val.toNat ≤ 127 := by
    have : 128 ≤ c.val.toNat := h
    omega
  rw [if_neg h127] at hb
  split_ifs at hb with h2 h3
  · simp only [List.mem_cons, List.not_mem_nil, or_false] at hb
    rcases hb with rfl | rfl
    · exact hbyte _ (by omega) _ (by omega) (by omega)
    · exact hbyte _ (by omega) _ (by omega) (by omega)
  · simp only [List.mem_cons, List.not_mem_nil, or_false] at hb
    rcases hb with rfl | rfl | rfl
    · rw [UInt8.toNat_ofNat']
      omega
    · exact hbyte _ (by omega) _ (by omega) (by omega)
    · exact hbyte _ (by omega) _ (by omega) (by omega)
  · simp only [List.mem_cons, List.not_mem_nil, or_false] at hb
    rcases hb with rfl | rfl | rfl | rfl
    · rw [UInt8.toNat_ofNat']
      omega
    · exact hbyte _ (by omega) _ (by omega) (by omega)
    · exact hbyte _ (by omega) _ (by omega) (by omega)
    · exact hbyte _ (by omega) _ (by omega) (by omega)

/-- A byte is the number of a character. -/
theorem toNat_ofNat_byte (b : UInt8) : (Char.ofNat b.toNat).toNat = b.toNat := by
  have hlt := b.toNat_lt
  have hvalid : b.toNat.isValidChar := Or.inl (by omega)
  unfold Char.ofNat
  rw [dif_pos hvalid]
  show UInt32.toNat (UInt32.ofNatLT b.toNat _) = b.toNat
  rfl

theorem utf8EncodeChar_ofNat {b : UInt8} (hb : b.toNat < 128) :
    String.utf8EncodeChar (Char.ofNat b.toNat) = [b] := by
  have hc := toNat_ofNat_byte b
  rw [utf8EncodeChar_ascii (by omega), hc, UInt8.ofNat_toNat]

theorem two_le_utf8Size {c : Char} (hc : 128 ≤ c.toNat) : 2 ≤ c.utf8Size := by
  unfold Char.utf8Size
  dsimp only
  split_ifs with h127
  · have hle : c.val.toNat ≤ 127 := h127
    have hge : 128 ≤ c.val.toNat := hc
    omega
  · exact Nat.le_refl 2
  · exact Nat.le_succ 2
  · exact Nat.le_add_left 2 2

/-! ## §2. Classes of ASCII characters. -/

/-- The class holds of ASCII bytes only. -/
def Ascii (p : UInt8 → Bool) : Prop := ∀ b, p b = true → b.toNat < 128

/-- The characters of a class. -/
def onChar (p : UInt8 → Bool) (c : Char) : Bool :=
  decide (c.toNat < 128) && p (UInt8.ofNat c.toNat)

/-- The class of one ASCII character. -/
theorem onChar_beq {k : Char} (hk : k.toNat < 128) (c : Char) :
    onChar (fun b => b == UInt8.ofNat k.toNat) c = (c == k) := by
  rw [Bool.eq_iff_iff]
  simp only [onChar, Bool.and_eq_true, decide_eq_true_eq, beq_iff_eq]
  constructor
  · rintro ⟨hc, heq⟩
    have htoNat := congrArg UInt8.toNat heq
    rw [UInt8.toNat_ofNat', UInt8.toNat_ofNat'] at htoNat
    apply Char.toNat_inj.mp
    omega
  · rintro rfl
    exact ⟨hk, rfl⟩

/-- A character of the class is one byte of it; of another one no byte is in the class. -/
theorem encode_cases {p : UInt8 → Bool} (hp : Ascii p) (c : Char) :
    (onChar p c = true ∧ String.utf8EncodeChar c = [UInt8.ofNat c.toNat]
        ∧ p (UInt8.ofNat c.toNat) = true)
      ∨ (onChar p c = false ∧ ∀ b ∈ String.utf8EncodeChar c, p b = false) := by
  unfold onChar
  by_cases h : c.toNat < 128
  · rw [utf8EncodeChar_ascii h]
    cases hc : p (UInt8.ofNat c.toNat) with
    | true => exact Or.inl ⟨by simp [h], rfl, rfl⟩
    | false => exact Or.inr ⟨by simp, by simpa using hc⟩
  · right
    refine ⟨by simp [h], ?_⟩
    intro b hb
    have hge := le_of_mem_utf8EncodeChar (by omega) hb
    cases hpb : p b with
    | false => rfl
    | true => exact absurd (hp b hpb) (by omega)

/-- **Stopping at a character of a class.** -/
theorem takeWhile_utf8 {p : UInt8 → Bool} (hp : Ascii p) :
    ∀ (s : List Char),
      (utf8 s).takeWhile (fun b => !p b) = utf8 (s.takeWhile (fun c => !onChar p c)) := by
  intro s
  induction s with
  | nil => rfl
  | cons c s ih =>
      rw [utf8_cons, List.takeWhile_cons]
      rcases encode_cases hp c with ⟨hc, henc, hb⟩ | ⟨hc, hb⟩
      · rw [hc, henc, List.singleton_append, List.takeWhile_cons, hb]
        rfl
      · have hall : ∀ b ∈ String.utf8EncodeChar c, (!p b) = true := by
          intro b hbm
          rw [hb b hbm]
          rfl
        rw [hc, List.takeWhile_append_of_pos hall, ih]
        rfl

/-! ## §3. Decoding. -/

/-- The text whose bytes these are. -/
def utf8Text (bytes : List UInt8) : Option (List Char) :=
  bytes.toByteArray.utf8Decode?.map Array.toList

theorem utf8Text_utf8 (s : List Char) : utf8Text (utf8 s) = some s := by
  show (s.utf8Encode.utf8Decode?).map Array.toList = some s
  rw [List.utf8Decode?_utf8Encode]
  rfl

theorem utf8_of_utf8Text {bytes : List UInt8} {s : List Char} (h : utf8Text bytes = some s) :
    utf8 s = bytes := by
  obtain ⟨chars, hchars, hs⟩ := Option.map_eq_some_iff.mp h
  have hsome : bytes.toByteArray.utf8Decode?.isSome := by
    rw [hchars]
    rfl
  have hencode : (bytes.toByteArray.utf8Decode?.get hsome).toList.utf8Encode
      = bytes.toByteArray := ByteArray.utf8Encode_get_utf8Decode?
  have hbytes : s.utf8Encode = bytes.toByteArray := by
    rw [← hencode, ← hs]
    simp only [hchars, Option.get_some]
  have hdata := congrArg (fun b : ByteArray => b.data.toList) hbytes
  simp only [List.toList_data_toByteArray] at hdata
  rw [← hdata]
  exact List.toList_data_toByteArray.symm

/-- A stretch of bytes from 128 on: its text, or U+FFFD for each byte. -/
def lossyText (run : List UInt8) : List Char :=
  (utf8Text run).getD (run.map (fun _ => Char.ofNat 0xFFFD))

/-- Decoding behind the stretch `run`. -/
def decodeFrom : List UInt8 → List UInt8 → List Char
  | run, [] => lossyText run
  | run, b :: bytes =>
      if b.toNat < 128 then lossyText run ++ Char.ofNat b.toNat :: decodeFrom [] bytes
      else decodeFrom (run ++ [b]) bytes

def decodeLossy (bytes : List UInt8) : List Char := decodeFrom [] bytes

theorem lossyText_utf8 (s : List Char) : lossyText (utf8 s) = s := by
  unfold lossyText
  rw [utf8Text_utf8]
  rfl

theorem decodeFrom_ascii {b : UInt8} (hb : b.toNat < 128) (bytes' : List UInt8) :
    ∀ (bytes run : List UInt8), decodeFrom run (bytes ++ b :: bytes')
      = decodeFrom run bytes ++ Char.ofNat b.toNat :: decodeFrom [] bytes' := by
  intro bytes
  induction bytes with
  | nil => intro run; exact if_pos hb
  | cons c bytes ih =>
      intro run
      rw [List.cons_append, decodeFrom, decodeFrom]
      by_cases hc : c.toNat < 128
      · rw [if_pos hc, if_pos hc, ih, List.append_assoc]
        rfl
      · rw [if_neg hc, if_neg hc, ih]

/-- Bytes from 128 on join the stretch. -/
theorem decodeFrom_wide (bytes : List UInt8) :
    ∀ {w run : List UInt8}, (∀ b ∈ w, 128 ≤ b.toNat) →
      decodeFrom run (w ++ bytes) = decodeFrom (run ++ w) bytes := by
  intro w
  induction w with
  | nil => intro run _; rw [List.append_nil]; rfl
  | cons b w ih =>
      intro run h
      have hb := h b List.mem_cons_self
      rw [List.cons_append, decodeFrom, if_neg (by omega),
        ih (fun c hc => h c (List.mem_cons_of_mem b hc)), List.append_assoc]
      rfl

/-- **A text is decoded as it is.** -/
theorem decodeLossy_utf8 (s : List Char) : decodeLossy (utf8 s) = s := by
  have hfrom : ∀ (s front : List Char), decodeFrom (utf8 front) (utf8 s) = front ++ s := by
    intro s
    induction s with
    | nil =>
        intro front
        show lossyText (utf8 front) = front ++ []
        rw [lossyText_utf8, List.append_nil]
    | cons c s ih =>
        intro front
        rw [utf8_cons]
        by_cases hc : c.toNat < 128
        · have hb : (UInt8.ofNat c.toNat).toNat = c.toNat := by
            rw [UInt8.toNat_ofNat']
            omega
          rw [utf8EncodeChar_ascii hc, List.singleton_append, decodeFrom, hb, if_pos hc,
            lossyText_utf8, Char.ofNat_toNat, show ([] : List UInt8) = utf8 [] from rfl, ih]
          rfl
        · have hfront : utf8 front ++ String.utf8EncodeChar c = utf8 (front ++ [c]) := by
            rw [utf8_append, utf8_cons]
            exact congrArg (utf8 front ++ ·) (List.append_nil _).symm
          rw [decodeFrom_wide _ (fun b hb => le_of_mem_utf8EncodeChar (by omega) hb), hfront, ih,
            List.append_assoc]
          rfl
  exact hfrom s []

theorem lossyText_wide {run : List UInt8} (h : ∀ b ∈ run, 128 ≤ b.toNat) :
    ∀ c ∈ lossyText run, 128 ≤ c.toNat := by
  intro c hc
  unfold lossyText at hc
  cases htext : utf8Text run with
  | none =>
      rw [htext] at hc
      obtain ⟨_, _, rfl⟩ := List.mem_map.mp hc
      decide
  | some s =>
      rw [htext] at hc
      by_contra hlt
      have hbyte : UInt8.ofNat c.toNat ∈ run := by
        rw [← utf8_of_utf8Text htext]
        refine List.mem_flatMap.mpr ⟨c, hc, ?_⟩
        rw [utf8EncodeChar_ascii (by omega)]
        exact List.mem_cons_self
      have hge := h _ hbyte
      rw [UInt8.toNat_ofNat'] at hge
      omega

theorem decodeLossy_wide {bytes : List UInt8} (h : ∀ b ∈ bytes, 128 ≤ b.toNat) :
    ∀ c ∈ decodeLossy bytes, 128 ≤ c.toNat := by
  intro c hc
  unfold decodeLossy at hc
  rw [← List.append_nil bytes, decodeFrom_wide [] h] at hc
  exact lossyText_wide h c hc

/-- A character has at least one byte. -/
theorem length_le_utf8 (s : List Char) : s.length ≤ (utf8 s).length := by
  induction s with
  | nil => exact Nat.le_refl 0
  | cons c s ih =>
      have hc := c.utf8Size_pos
      rw [utf8_cons, List.length_append, String.length_utf8EncodeChar, List.length_cons]
      omega

theorem length_lossyText (run : List UInt8) : run.length ≤ (utf8 (lossyText run)).length := by
  unfold lossyText
  cases htext : utf8Text run with
  | none =>
      have hle := length_le_utf8 (run.map (fun _ => Char.ofNat 0xFFFD))
      rwa [List.length_map] at hle
  | some s =>
      rw [Option.getD_some, utf8_of_utf8Text htext]

/-- **Decoding loses no bytes.** -/
theorem length_decodeFrom :
    ∀ (bytes run : List UInt8),
      run.length + bytes.length ≤ (utf8 (decodeFrom run bytes)).length := by
  intro bytes
  induction bytes with
  | nil => intro run; exact length_lossyText run
  | cons b bytes ih =>
      intro run
      rw [decodeFrom, List.length_cons]
      by_cases hb : b.toNat < 128
      · have hrun := length_lossyText run
        have hbytes := ih []
        have hpos := (Char.ofNat b.toNat).utf8Size_pos
        rw [if_pos hb, utf8_append, utf8_cons, List.length_append, List.length_append,
          String.length_utf8EncodeChar]
        rw [List.length_nil] at hbytes
        omega
      · have hbytes := ih (run ++ [b])
        rw [List.length_append, List.length_singleton] at hbytes
        rw [if_neg hb]
        omega

theorem length_lossyText_le (run : List UInt8) : (lossyText run).length ≤ run.length := by
  unfold lossyText
  cases htext : utf8Text run with
  | none => rw [Option.getD_none, List.length_map]
  | some s =>
      rw [Option.getD_some, ← utf8_of_utf8Text htext]
      exact length_le_utf8 s

/-- **No byte becomes two characters.** -/
theorem length_decodeFrom_le :
    ∀ (bytes run : List UInt8), (decodeFrom run bytes).length ≤ run.length + bytes.length := by
  intro bytes
  induction bytes with
  | nil => intro run; exact length_lossyText_le run
  | cons b bytes ih =>
      intro run
      rw [decodeFrom, List.length_cons]
      by_cases hb : b.toNat < 128
      · have hrun := length_lossyText_le run
        have hbytes := ih []
        rw [if_pos hb, List.length_append, List.length_cons]
        rw [List.length_nil] at hbytes
        omega
      · have hbytes := ih (run ++ [b])
        rw [List.length_append, List.length_singleton] at hbytes
        rw [if_neg hb]
        omega

end Text
