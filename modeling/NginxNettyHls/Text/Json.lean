/-
  NginxNettyHls.Text.Json
  ───────────────────────
  **JSON AS BYTES.**

  A printer without blanks and a parser for what it prints.  Strings are kept as
  the bytes of their UTF-8 form; only ASCII bytes are ever escaped.

    • `parse_print` — an object is read back from its text, whatever follows it;
    • `parse_incomplete` — nothing is read from a text that is cut off;
    • `print_ne_zero` — a printed text holds no NUL, so that it is a C string.
-/
import Mathlib.Data.Nat.Digits.Defs
import Mathlib.Tactic.Common

namespace Text

/-- A JSON value. -/
inductive Json where
  | null
  | num (n : Nat)
  | str (s : List UInt8)
  | arr (items : List Json)
  | obj (fields : List (List UInt8 × Json))

namespace Json

/-- No object has two fields of one name. -/
inductive Distinct : Json → Prop
  | null : Distinct null
  | num (n : Nat) : Distinct (num n)
  | str (s : List UInt8) : Distinct (str s)
  | arr {items : List Json} (each : ∀ j ∈ items, Distinct j) : Distinct (arr items)
  | obj {fields : List (List UInt8 × Json)} (names : (fields.map Prod.fst).Nodup)
      (each : ∀ f ∈ fields, Distinct f.2) : Distinct (obj fields)

/-! ## §1. Printing. -/

/-- The digit `0`..`F` for a value below 16. -/
def hexDigit (d : UInt8) : UInt8 := if d < 10 then 48 + d else 55 + d

/-- The bytes with an escape of two characters, and its second one: the quote, the
backslash, and `\b`, `\t`, `\n`, `\f` and `\r`. -/
def shortEscapes : List (UInt8 × UInt8) :=
  [(34, 34), (92, 92), (8, 98), (9, 116), (10, 110), (12, 102), (13, 114)]

/-- A byte of a string; a control character without a short escape is `\u00XX`. -/
def escape (b : UInt8) : List UInt8 :=
  match shortEscapes.lookup b with
  | some e => [92, e]
  | none =>
      if b < 32 then [92, 117, 48, 48, hexDigit (b / 16), hexDigit (b % 16)] else [b]

def quote (s : List UInt8) : List UInt8 := 34 :: (s.flatMap escape ++ [34])

/-- Decimal digits, the leading one first. -/
def decimal (n : Nat) : List Nat := if n = 0 then [0] else (Nat.digits 10 n).reverse

def printNat (n : Nat) : List UInt8 := (decimal n).map (fun d => UInt8.ofNat (48 + d))

mutual

def print : Json → List UInt8
  | null => [110, 117, 108, 108]
  | num n => printNat n
  | str s => quote s
  | arr items => 91 :: (printItems items ++ [93])
  | obj fields => 123 :: (printFields fields ++ [125])

def printItems : List Json → List UInt8
  | [] => []
  | j :: js => print j ++ printMoreItems js

def printMoreItems : List Json → List UInt8
  | [] => []
  | j :: js => 44 :: (print j ++ printMoreItems js)

def printFields : List (List UInt8 × Json) → List UInt8
  | [] => []
  | (k, j) :: fs => quote k ++ 58 :: (print j ++ printMoreFields fs)

def printMoreFields : List (List UInt8 × Json) → List UInt8
  | [] => []
  | (k, j) :: fs => 44 :: (quote k ++ 58 :: (print j ++ printMoreFields fs))

end

/-! ## §2. Parsing.

Every function returns what it has read and what is left. -/

def hexValue (b : UInt8) : UInt8 := if b < 58 then b - 48 else b - 55

/-- The byte a short escape stands for. -/
def unescape (e : UInt8) : Option UInt8 := (shortEscapes.map Prod.swap).lookup e

/-- The rest of a string after its opening quote. -/
def readString : List UInt8 → Option (List UInt8 × List UInt8)
  | [] => none
  | b :: rest =>
      if b = 34 then some ([], rest)
      else if b = 92 then
        match rest with
        | [] => none
        | e :: rest =>
            match unescape e with
            | some c => (readString rest).map (fun r => (c :: r.1, r.2))
            | none =>
                if e = 117 then
                  match rest with
                  -- the first two digits of a control character are zeros
                  | _ :: _ :: h :: l :: rest =>
                      (readString rest).map
                        (fun r => ((16 * hexValue h + hexValue l) :: r.1, r.2))
                  | _ => none
                else none
      else (readString rest).map (fun r => (b :: r.1, r.2))

def isDigit (b : UInt8) : Bool := 48 ≤ b && b ≤ 57

/-- A number after the digits that make `acc`.  At the end of the text it is not known
to be finished. -/
def readDigits : Nat → List UInt8 → Option (Nat × List UInt8)
  | _, [] => none
  | acc, b :: rest =>
      if isDigit b then readDigits (10 * acc + (b.toNat - 48)) rest else some (acc, b :: rest)

/-- `null` after its first letter. -/
def readNull : List UInt8 → Option (Json × List UInt8)
  | 117 :: 108 :: 108 :: rest => some (null, rest)
  | _ => none

/-- What follows an item: a comma and more items, or the closing byte. -/
def andMore {α : Type} (close : UInt8) (item : Json → α)
    (more : List UInt8 → Option (List α × List UInt8)) :
    Option (Json × List UInt8) → Option (List α × List UInt8)
  | some (j, b :: rest) =>
      if b = 44 then (more rest).map (fun r => (item j :: r.1, r.2))
      else if b = close then some ([item j], rest)
      else none
  | _ => none

mutual

/-- A value; the first argument bounds the depth of the calls. -/
def parseValue : Nat → List UInt8 → Option (Json × List UInt8)
  | 0, _ => none
  | _ + 1, [] => none
  | n + 1, b :: rest =>
      if b = 110 then readNull rest
      else if b = 34 then (readString rest).map (fun r => (str r.1, r.2))
      else if b = 91 then
        match rest with
        | [] => none
        | e :: rest =>
            if e = 93 then some (arr [], rest)
            else (parseItems n (e :: rest)).map (fun r => (arr r.1, r.2))
      else if b = 123 then
        match rest with
        | [] => none
        | e :: rest =>
            if e = 125 then some (obj [], rest)
            else (parseFields n (e :: rest)).map (fun r => (obj r.1, r.2))
      else if isDigit b then (readDigits 0 (b :: rest)).map (fun r => (num r.1, r.2))
      else none

/-- The items of an array that is not empty, up to its bracket. -/
def parseItems : Nat → List UInt8 → Option (List Json × List UInt8)
  | 0, _ => none
  | n + 1, text => andMore 93 id (parseItems n) (parseValue n text)

/-- The fields of an object that is not empty, up to its brace. -/
def parseFields : Nat → List UInt8 → Option (List (List UInt8 × Json) × List UInt8)
  | 0, _ => none
  | _ + 1, [] => none
  | n + 1, b :: text =>
      if b = 34 then
        match readString text with
        | some (k, e :: rest) =>
            if e = 58 then andMore 125 (fun j => (k, j)) (parseFields n) (parseValue n rest)
            else none
        | _ => none
      else none

end

/-- The value at the beginning of the text. -/
def parse (text : List UInt8) : Option Json := (parseValue text.length text).map (fun r => r.1)

/-! ## §3. Strings and numbers. -/

theorem hexValue_hexDigit (b : UInt8) :
    16 * hexValue (hexDigit (b / 16)) + hexValue (hexDigit (b % 16)) = b := by
  have hall : ∀ n < 256, 16 * hexValue (hexDigit (UInt8.ofNat n / 16))
      + hexValue (hexDigit (UInt8.ofNat n % 16)) = UInt8.ofNat n := by decide +kernel
  have h := hall b.toNat b.toNat_lt
  rwa [UInt8.ofNat_toNat] at h

/-- A short escape stands for its byte. -/
theorem unescape_lookup {b e : UInt8} (h : shortEscapes.lookup b = some e) :
    unescape e = some b := by
  have hall : shortEscapes.all (fun p => unescape p.2 == some p.1) = true := by decide +kernel
  obtain ⟨front, back, heq, _⟩ := List.lookup_eq_some_iff.mp h
  have hmem : (b, e) ∈ shortEscapes := by
    rw [heq]
    exact List.mem_append_right front List.mem_cons_self
  exact eq_of_beq (List.all_eq_true.mp hall (b, e) hmem)

/-- An escaped byte is read back. -/
theorem readString_escape (b : UInt8) (rest : List UInt8) :
    readString (escape b ++ rest) = (readString rest).map (fun r => (b :: r.1, r.2)) := by
  unfold escape
  cases hshort : shortEscapes.lookup b with
  | some e =>
      show readString (92 :: e :: rest) = _
      rw [readString.eq_def]
      simp [unescape_lookup hshort]
  | none =>
      dsimp only
      split_ifs with hcontrol
      · show readString (92 :: 117 :: _ :: _ :: _ :: _ :: rest) = _
        rw [readString.eq_def]
        have hu : unescape 117 = none := by decide +kernel
        simp [hu, hexValue_hexDigit]
      · have hplain : b ≠ 34 ∧ b ≠ 92 := by
          constructor <;> rintro rfl <;> exact absurd hshort (by decide +kernel)
        rw [List.singleton_append, readString.eq_def]
        simp only [if_neg hplain.1, if_neg hplain.2]

/-- A string is read back up to its closing quote. -/
theorem readString_quoted (s rest : List UInt8) :
    readString (s.flatMap escape ++ 34 :: rest) = some (s, rest) := by
  induction s with
  | nil => rw [List.flatMap_nil, List.nil_append, readString.eq_def]; rfl
  | cons b s ih => rw [List.flatMap_cons, List.append_assoc, readString_escape, ih]; rfl

/-- What `x` reads, `y` reads too, and `q` is left behind its rest. -/
def Extends {α : Type} (q : List UInt8) (x y : Option (α × List UInt8)) : Prop :=
  ∀ a r, x = some (a, r) → y = some (a, r ++ q)

theorem extends_none {α : Type} (q : List UInt8) (y : Option (α × List UInt8)) :
    Extends q none y := by
  intro a r h
  exact absurd h (by simp)

theorem extends_some {α : Type} (q : List UInt8) (a : α) (r : List UInt8) :
    Extends q (some (a, r)) (some (a, r ++ q)) := by
  intro a' r' h
  cases h
  rfl

theorem Extends.map {α β : Type} {q : List UInt8} {x y : Option (α × List UInt8)}
    (h : Extends q x y) (f : α → β) :
    Extends q (x.map (fun r => (f r.1, r.2))) (y.map (fun r => (f r.1, r.2))) := by
  intro b r hb
  cases hx : x with
  | none => rw [hx] at hb; exact absurd hb (by simp)
  | some v =>
      obtain ⟨a, r'⟩ := v
      rw [hx] at hb
      cases hb
      rw [h a r' hx]
      rfl

/-- Reading a string does not depend on what follows it. -/
theorem readString_append (q : List UInt8) :
    ∀ p, Extends q (readString p) (readString (p ++ q)) := by
  intro p
  fun_induction readString p with
  | case1 => exact extends_none q _
  | case2 rest =>
      rw [List.cons_append, readString.eq_def (34 :: (rest ++ q))]
      exact extends_some q _ _
  | case3 => exact extends_none q _
  | case4 e rest c hc _ ih =>
      rw [List.cons_append, List.cons_append, readString.eq_def (92 :: _)]
      simp only [hc]
      exact ih.map (fun s => c :: s)
  | case5 z₁ z₂ h l rest _ hu ih =>
      simp only [List.cons_append]
      rw [readString.eq_def (92 :: _)]
      simp only [hu]
      exact ih.map (fun s => (16 * hexValue h + hexValue l) :: s)
  | case6 => exact extends_none q _
  | case7 => exact extends_none q _
  | case8 b rest h34 h92 ih =>
      rw [List.cons_append, readString.eq_def (b :: _)]
      simp only [if_neg h34, if_neg h92]
      exact ih.map (fun s => b :: s)

theorem readDigits_append (q : List UInt8) :
    ∀ (p : List UInt8) (acc : Nat), Extends q (readDigits acc p) (readDigits acc (p ++ q)) := by
  intro p
  induction p with
  | nil => intro acc; exact extends_none q _
  | cons b rest ih =>
      intro acc
      rw [List.cons_append]
      unfold readDigits
      split_ifs with hb
      · exact ih _
      · exact extends_some q acc (b :: rest)

theorem readNull_append (q : List UInt8) :
    ∀ p, Extends q (readNull p) (readNull (p ++ q)) := by
  intro p
  unfold readNull
  split
  · exact extends_some q _ _
  · exact extends_none q _

/-- Digits are read on to the end of the number. -/
theorem readDigits_map (rest : List UInt8) :
    ∀ (ds : List Nat), (∀ d ∈ ds, d < 10) → ∀ acc,
      readDigits acc (ds.map (fun d => UInt8.ofNat (48 + d)) ++ rest)
        = readDigits (ds.foldl (fun a d => 10 * a + d) acc) rest := by
  intro ds
  induction ds with
  | nil => intro _ acc; rfl
  | cons d ds ih =>
      intro hds acc
      have hd : d < 10 := hds d List.mem_cons_self
      have hdigit : ∀ d < 10, isDigit (UInt8.ofNat (48 + d)) = true
          ∧ (UInt8.ofNat (48 + d)).toNat - 48 = d := by decide
      rw [List.map_cons, List.cons_append, readDigits, if_pos (hdigit d hd).1, (hdigit d hd).2]
      exact ih (fun d' hd' => hds d' (List.mem_cons_of_mem d hd')) _

theorem decimal_lt (n : Nat) : ∀ d ∈ decimal n, d < 10 := by
  intro d hd
  unfold decimal at hd
  split_ifs at hd with hn
  · simp only [List.mem_singleton] at hd
    omega
  · exact Nat.digits_lt_base (by omega) (List.mem_reverse.mp hd)

theorem foldl_decimal (n : Nat) : (decimal n).foldl (fun a d => 10 * a + d) 0 = n := by
  unfold decimal
  split_ifs with hn
  · simp [hn]
  · rw [List.foldl_reverse]
    have h := Nat.ofDigits_digits 10 n
    rw [Nat.ofDigits_eq_foldr] at h
    simpa [add_comm] using h

/-- A number is read back when something else follows it. -/
theorem readDigits_printNat (n : Nat) {b : UInt8} (hb : isDigit b = false) (rest : List UInt8) :
    readDigits 0 (printNat n ++ b :: rest) = some (n, b :: rest) := by
  unfold printNat
  rw [readDigits_map _ _ (decimal_lt n), foldl_decimal, readDigits, hb]
  rfl

/-! ## §4. Values. -/

theorem andMore_append {α : Type} {q : List UInt8} (close : UInt8) (item : Json → α)
    {x y : Option (Json × List UInt8)} (hxy : Extends q x y)
    {f g : List UInt8 → Option (List α × List UInt8)} (hfg : ∀ r, Extends q (f r) (g (r ++ q))) :
    Extends q (andMore close item f x) (andMore close item g y) := by
  match x with
  | none => exact extends_none q _
  | some (j, []) => exact extends_none q _
  | some (j, b :: rest) =>
      rw [hxy j (b :: rest) rfl]
      unfold andMore
      dsimp only [List.cons_append]
      split_ifs with hcomma hclose
      · exact (hfg rest).map (fun s => item j :: s)
      · exact extends_some q _ _
      · exact extends_none q _

/-- **Reading does not depend on what follows**, nor on a larger bound. -/
theorem parse_append (q : List UInt8) :
    ∀ n,
      (∀ p m, n ≤ m → Extends q (parseValue n p) (parseValue m (p ++ q)))
        ∧ (∀ p m, n ≤ m → Extends q (parseItems n p) (parseItems m (p ++ q)))
        ∧ (∀ p m, n ≤ m → Extends q (parseFields n p) (parseFields m (p ++ q))) := by
  intro n
  -- induction on the bound, the three functions together
  induction n with
  | zero =>
      refine ⟨fun p m _ => ?_, fun p m _ => ?_, fun p m _ => ?_⟩
      · rw [parseValue]; exact extends_none q _
      · rw [parseItems]; exact extends_none q _
      · rw [parseFields]; exact extends_none q _
  | succ n ih =>
      obtain ⟨ihValue, ihItems, ihFields⟩ := ih
      refine ⟨?_, ?_, ?_⟩
      · intro p m hm
        obtain ⟨m, rfl⟩ : ∃ m', m = m' + 1 := ⟨m - 1, by omega⟩
        have hm' : n ≤ m := by omega
        cases p with
        | nil => rw [parseValue]; exact extends_none q _
        | cons b rest =>
            rw [List.cons_append, parseValue.eq_def, parseValue.eq_def (m + 1)]
            dsimp only
            split_ifs with h110 h34 h91 h123 hdigit
            · exact readNull_append q rest
            · exact (readString_append q rest).map str
            · cases rest with
              | nil => exact extends_none q _
              | cons e rest =>
                  dsimp only [List.cons_append]
                  split_ifs with he
                  · exact extends_some q _ _
                  · exact (ihItems (e :: rest) m hm').map arr
            · cases rest with
              | nil => exact extends_none q _
              | cons e rest =>
                  dsimp only [List.cons_append]
                  split_ifs with he
                  · exact extends_some q _ _
                  · exact (ihFields (e :: rest) m hm').map obj
            · exact (readDigits_append q (b :: rest) 0).map num
            · exact extends_none q _
      · intro p m hm
        obtain ⟨m, rfl⟩ : ∃ m', m = m' + 1 := ⟨m - 1, by omega⟩
        have hm' : n ≤ m := by omega
        rw [parseItems, parseItems]
        exact andMore_append 93 id (ihValue p m hm') (fun r => ihItems r m hm')
      · intro p m hm
        obtain ⟨m, rfl⟩ : ∃ m', m = m' + 1 := ⟨m - 1, by omega⟩
        have hm' : n ≤ m := by omega
        cases p with
        | nil => rw [parseFields]; exact extends_none q _
        | cons b text =>
            rw [List.cons_append, parseFields, parseFields]
            split_ifs with h34
            · have hkey := readString_append q text
              match hread : readString text with
              | none => exact extends_none q _
              | some (k, []) => exact extends_none q _
              | some (k, e :: rest) =>
                  rw [hkey k (e :: rest) hread]
                  dsimp only [List.cons_append]
                  split_ifs with he
                  · exact andMore_append 125 _ (ihValue rest m hm') (fun r => ihFields r m hm')
                  · exact extends_none q _
            · exact extends_none q _

theorem printNat_head (n : Nat) : ∃ b t, printNat n = b :: t ∧ isDigit b = true := by
  unfold printNat
  cases hd : decimal n with
  | nil =>
      unfold decimal at hd
      split_ifs at hd with hn
      exact absurd (List.reverse_eq_nil_iff.mp hd) (Nat.digits_ne_nil_iff_ne_zero.mpr hn)
  | cons d ds =>
      have hlt : d < 10 := decimal_lt n d (hd ▸ List.mem_cons_self)
      have hdigit : ∀ d < 10, isDigit (UInt8.ofNat (48 + d)) = true := by decide
      exact ⟨_, _, rfl, hdigit d hlt⟩

/-- The first byte of a value is none that closes an array. -/
theorem print_head (j : Json) : ∃ b t, print j = b :: t ∧ b ≠ 93 := by
  cases j with
  | null => exact ⟨_, _, by rw [print], by decide⟩
  | num n =>
      obtain ⟨b, t, h, hb⟩ := printNat_head n
      refine ⟨b, t, by rw [print, h], ?_⟩
      rintro rfl
      exact absurd hb (by decide)
  | str s => exact ⟨_, _, by rw [print, quote], by decide⟩
  | arr items => exact ⟨_, _, by rw [print], by decide⟩
  | obj fields => exact ⟨_, _, by rw [print], by decide⟩

/-- What may stand behind a value: after a number, something that is not a digit. -/
def Follows (j : Json) (rest : List UInt8) : Prop :=
  ∀ n, j = num n → ∃ b r, rest = b :: r ∧ isDigit b = false

theorem follows_cons (j : Json) {b : UInt8} (hb : isDigit b = false) (r : List UInt8) :
    Follows j (b :: r) :=
  fun _ _ => ⟨b, r, rfl, hb⟩

theorem andMore_comma {α : Type} (close : UInt8) (item : Json → α)
    (more : List UInt8 → Option (List α × List UInt8)) (j : Json) (rest : List UInt8) :
    andMore close item more (some (j, 44 :: rest))
      = (more rest).map (fun r => (item j :: r.1, r.2)) := rfl

theorem andMore_close {α : Type} {close : UInt8} (hclose : close ≠ 44) (item : Json → α)
    (more : List UInt8 → Option (List α × List UInt8)) (j : Json) (rest : List UInt8) :
    andMore close item more (some (j, close :: rest)) = some ([item j], rest) := by
  simp [andMore, hclose]

/-- **What is printed is read back**, with a bound that is at least its length. -/
theorem parse_printed :
    ∀ n,
      (∀ j rest, (print j).length ≤ n → Follows j rest →
          parseValue n (print j ++ rest) = some (j, rest))
        ∧ (∀ items rest, items ≠ [] → (printItems items).length < n →
          parseItems n (printItems items ++ 93 :: rest) = some (items, rest))
        ∧ (∀ fields rest, fields ≠ [] → (printFields fields).length < n →
          parseFields n (printFields fields ++ 125 :: rest) = some (fields, rest)) := by
  intro n
  induction n with
  | zero =>
      refine ⟨?_, fun _ _ _ h => absurd h (by omega), fun _ _ _ h => absurd h (by omega)⟩
      intro j rest hlen
      obtain ⟨b, t, h, _⟩ := print_head j
      rw [h] at hlen
      exact absurd hlen (by simp)
  | succ n ih =>
      obtain ⟨ihValue, ihItems, ihFields⟩ := ih
      refine ⟨?_, ?_, ?_⟩
      · intro j rest hlen hfollows
        cases j with
        | null => rw [print]; rfl
        | num k =>
            obtain ⟨b, t, hprint, hb⟩ := printNat_head k
            obtain ⟨e, r, rfl, he⟩ := hfollows k rfl
            have hread := readDigits_printNat k he r
            rw [hprint] at hread
            have hother : b ≠ 110 ∧ b ≠ 34 ∧ b ≠ 91 ∧ b ≠ 123 := by
              refine ⟨?_, ?_, ?_, ?_⟩ <;> rintro rfl <;> exact absurd hb (by decide)
            rw [print, hprint, List.cons_append, parseValue.eq_def]
            rw [List.cons_append] at hread
            simp only [hother, if_false, hb, if_true, hread]
            rfl
        | str s =>
            rw [print, quote, List.cons_append, List.append_assoc, parseValue.eq_def]
            have hread := readString_quoted s rest
            simp only [List.singleton_append, hread]
            rfl
        | arr items =>
            rw [print] at hlen ⊢
            cases items with
            | nil => rw [printItems]; rfl
            | cons j js =>
                have hitems := ihItems (j :: js) rest (by simp)
                  (by simp only [List.length_cons, List.length_append] at hlen; omega)
                -- the array is not empty: its first byte is that of its first item
                obtain ⟨b, t, hprint, hb⟩ := print_head j
                rw [printItems, hprint] at hitems ⊢
                simp only [List.cons_append, List.append_assoc, List.nil_append] at hitems ⊢
                rw [parseValue.eq_def]
                simp only [hb, if_false, hitems]
                rfl
        | obj fields =>
            rw [print] at hlen ⊢
            cases fields with
            | nil => rw [printFields]; rfl
            | cons f fs =>
                have hfields := ihFields (f :: fs) rest (by simp)
                  (by simp only [List.length_cons, List.length_append] at hlen; omega)
                obtain ⟨k, j⟩ := f
                rw [printFields, quote] at hfields ⊢
                simp only [List.cons_append, List.append_assoc, List.nil_append] at hfields ⊢
                rw [parseValue.eq_def]
                simp only [hfields]
                rfl
      · intro items rest hne hlen
        obtain ⟨j, js, rfl⟩ := List.exists_cons_of_ne_nil hne
        rw [printItems] at hlen ⊢
        rw [List.length_append] at hlen
        rw [parseItems, List.append_assoc]
        cases js with
        | nil =>
            rw [printMoreItems, List.nil_append,
              ihValue j _ (by omega) (follows_cons j (by decide) _),
              andMore_close (by decide)]
            rfl
        | cons j' js =>
            rw [printMoreItems, List.length_cons] at hlen
            have hrest := ihItems (j' :: js) rest (by simp) (by rw [printItems]; omega)
            rw [printItems] at hrest
            rw [printMoreItems, List.cons_append,
              ihValue j _ (by omega) (follows_cons j (by decide) _), andMore_comma, hrest]
            rfl
      · intro fields rest hne hlen
        obtain ⟨⟨k, j⟩, fs, rfl⟩ := List.exists_cons_of_ne_nil hne
        have hkey := fun r => readString_quoted k (58 :: r)
        rw [printFields, quote] at hlen ⊢
        simp only [List.cons_append, List.append_assoc, List.nil_append, List.length_cons,
          List.length_append] at hlen ⊢
        rw [parseFields, if_pos rfl, hkey]
        simp only [if_true]
        cases fs with
        | nil =>
            rw [printMoreFields, List.nil_append,
              ihValue j _ (by omega) (follows_cons j (by decide) _),
              andMore_close (by decide)]
        | cons f fs =>
            obtain ⟨k', j'⟩ := f
            have hrest := ihFields ((k', j') :: fs) rest (by simp) (by
              rw [printMoreFields] at hlen
              rw [printFields]
              simp only [List.length_cons, List.length_append] at hlen ⊢
              omega)
            rw [printFields] at hrest
            rw [printMoreFields, List.cons_append,
              ihValue j _ (by omega) (follows_cons j (by decide) _), andMore_comma, hrest]
            rfl

/-- An object is read back from its text, whatever follows it. -/
theorem parse_print (fields : List (List UInt8 × Json)) (rest : List UInt8) :
    parse (print (obj fields) ++ rest) = some (obj fields) := by
  have h := (parse_printed (print (obj fields) ++ rest).length).1 (obj fields) rest
    (by simp) (fun n hn => absurd hn (by simp))
  unfold parse
  rw [h]
  rfl

/-- **Nothing is read from an object that is cut off**: whatever was read would be read
from the whole text as well, and leave the part that was cut off. -/
theorem parse_incomplete (fields : List (List UInt8 × Json)) {p q : List UInt8}
    (hpq : p ++ q = print (obj fields)) (hq : q ≠ []) : parse p = none := by
  unfold parse
  cases hp : parseValue p.length p with
  | none => rfl
  | some r =>
      obtain ⟨j, rest⟩ := r
      have hlen : p.length ≤ (print (obj fields)).length := by rw [← hpq]; simp
      have hwhole := (parse_append q p.length).1 p _ hlen j rest hp
      have hprinted := (parse_printed (print (obj fields)).length).1 (obj fields) [] le_rfl
        (fun n hn => absurd hn (by simp))
      rw [List.append_nil] at hprinted
      rw [hpq, hprinted] at hwhole
      simp only [Option.some.injEq, Prod.mk.injEq, List.nil_eq, List.append_eq_nil_iff] at hwhole
      exact absurd hwhole.2.2 hq

/-! ## §5. No NUL. -/

theorem escape_ne_zero (b : UInt8) : ∀ e ∈ escape b, e ≠ 0 := by
  have hall : ∀ n < 256, (escape (UInt8.ofNat n)).all (· != 0) = true := by decide +kernel
  have hb := hall b.toNat b.toNat_lt
  rw [UInt8.ofNat_toNat] at hb
  intro e he
  simpa using List.all_eq_true.mp hb e he

theorem quote_ne_zero (s : List UInt8) : ∀ e ∈ quote s, e ≠ 0 := by
  intro e he
  simp only [quote, List.mem_cons, List.mem_append, List.mem_flatMap, List.not_mem_nil,
    or_false] at he
  rcases he with rfl | ⟨b, _, hb⟩ | rfl
  · decide
  · exact escape_ne_zero b e hb
  · decide

theorem printNat_ne_zero (n : Nat) : ∀ e ∈ printNat n, e ≠ 0 := by
  intro e he
  obtain ⟨d, hd, rfl⟩ := List.mem_map.mp he
  have hall : ∀ d < 10, UInt8.ofNat (48 + d) ≠ 0 := by decide
  exact hall d (decimal_lt n d hd)

mutual

/-- **A printed text holds no NUL.** -/
theorem print_ne_zero : ∀ (j : Json), ∀ e ∈ print j, e ≠ 0
  | null => by rw [print]; simp
  | num n => by rw [print]; exact printNat_ne_zero n
  | str s => by rw [print]; exact quote_ne_zero s
  | arr items => by
      rw [print]
      intro e he
      simp only [List.mem_cons, List.mem_append, List.not_mem_nil, or_false] at he
      rcases he with rfl | he | rfl
      · decide
      · exact printItems_ne_zero items e he
      · decide
  | obj fields => by
      rw [print]
      intro e he
      simp only [List.mem_cons, List.mem_append, List.not_mem_nil, or_false] at he
      rcases he with rfl | he | rfl
      · decide
      · exact printFields_ne_zero fields e he
      · decide

theorem printItems_ne_zero : ∀ (items : List Json), ∀ e ∈ printItems items, e ≠ 0
  | [] => by rw [printItems]; intro e he; exact absurd he List.not_mem_nil
  | j :: js => by
      rw [printItems]
      intro e he
      rcases List.mem_append.mp he with he | he
      · exact print_ne_zero j e he
      · exact printMoreItems_ne_zero js e he

theorem printMoreItems_ne_zero : ∀ (items : List Json), ∀ e ∈ printMoreItems items, e ≠ 0
  | [] => by rw [printMoreItems]; intro e he; exact absurd he List.not_mem_nil
  | j :: js => by
      rw [printMoreItems]
      intro e he
      simp only [List.mem_cons, List.mem_append] at he
      rcases he with rfl | he | he
      · decide
      · exact print_ne_zero j e he
      · exact printMoreItems_ne_zero js e he

theorem printFields_ne_zero :
    ∀ (fields : List (List UInt8 × Json)), ∀ e ∈ printFields fields, e ≠ 0
  | [] => by rw [printFields]; intro e he; exact absurd he List.not_mem_nil
  | (k, j) :: fs => by
      rw [printFields]
      intro e he
      simp only [List.mem_cons, List.mem_append] at he
      rcases he with he | rfl | he | he
      · exact quote_ne_zero k e he
      · decide
      · exact print_ne_zero j e he
      · exact printMoreFields_ne_zero fs e he

theorem printMoreFields_ne_zero :
    ∀ (fields : List (List UInt8 × Json)), ∀ e ∈ printMoreFields fields, e ≠ 0
  | [] => by rw [printMoreFields]; intro e he; exact absurd he List.not_mem_nil
  | (k, j) :: fs => by
      rw [printMoreFields]
      intro e he
      simp only [List.mem_cons, List.mem_append] at he
      rcases he with rfl | he | rfl | he | he
      · decide
      · exact quote_ne_zero k e he
      · decide
      · exact print_ne_zero j e he
      · exact printMoreFields_ne_zero fs e he

end

end Json

end Text
