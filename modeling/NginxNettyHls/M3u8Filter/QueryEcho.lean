/-
  NginxNettyHls.M3u8Filter.QueryEcho
  ──────────────────────────────────
  **WHAT THE QUERY BEHIND A SEGMENT MEANS.**

  The filters put a query behind every segment (`withQuery`): the one `URI.getQuery`
  returns, which is decoded.  In the new URL it is decoded once more, and what was an
  escaped character of a name or a value is a mark there.

    • `decodeParams_echo` — a query without such escapes means the same again;
    • `unambiguous_of_echo` — with one of them something is lost: a character, a plus
      sign or the end of a name;
    • `echo_iff` — which requests get their own query back.
-/
import Mathlib.Algebra.Order.BigOperators.Group.List
import NginxNettyHls.M3u8Filter.EncodedQuery
import NginxNettyHls.M3u8Filter.WellFormed

namespace NginxNettyHls.M3u8Filter

open NginxNettyHls.Java
open NginxNettyHls.Nginx (EscapeDecoder jdkDecoder)
open Text

section Fields

variable (d : EscapeDecoder)

/-! ## §1. A query without such escapes. -/

/-- The escape of an ASCII character. -/
def Encoded.escape (c : Char) : Encoded := .octet (UInt8.ofNat c.toNat)

/-- No escape stands for a mark of a URL, for a plus sign or, in a name, for an equals sign. -/
structure Unambiguous (syms : List Encoded) : Prop where
  marks : ∀ c ∈ ['%', '&', ';', '#', '+'], Encoded.escape c ∉ syms
  names : ∀ part ∈ syms.splitOnP encodedMarks.sep,
    Encoded.escape '=' ∉ encodedMarks.name (encodedMarks.skip part)

instance (syms : List Encoded) : Decidable (Unambiguous syms) :=
  decidable_of_iff
    (['%', '&', ';', '#', '+'].all (fun c => !syms.contains (Encoded.escape c)) = true
      ∧ (syms.splitOnP encodedMarks.sep).all
        (fun part => !(encodedMarks.name (encodedMarks.skip part)).contains
          (Encoded.escape '=')) = true) <| by
    rw [List.all_eq_true, List.all_eq_true]
    simp only [Bool.not_eq_true', List.contains_eq_mem, decide_eq_false_iff_not]
    exact ⟨fun h => ⟨h.1, h.2⟩, fun h => ⟨h.marks, h.names⟩⟩

/-- The marks of a text that is decoded for good. -/
def anyMarks : FormMarks (Char × Bool) := charMarks.comap Prod.fst

theorem finer_any : FormMarks.Finer rawMarks anyMarks where
  sep := fun _ hx => (Bool.and_eq_true _ _ ▸ hx).2
  eq := fun _ hx => (Bool.and_eq_true _ _ ▸ hx).2

theorem escaped_not_mem {c : Char} (hc : c.toNat < 128) {syms : List Encoded}
    (h : Encoded.escape c ∉ syms) : (c, true) ∉ marked d [] syms := by
  intro hmem
  rcases (escaped_mem_marked_iff d hc syms []).mp hmem with hrun | hsyms
  · exact absurd hrun List.not_mem_nil
  · exact h hsyms

variable {query : JString} {syms : List Encoded}

theorem takeWhile_of_hash_not_mem {t : JString} (h : '#' ∉ t) :
    t.takeWhile (· != '#') = t := by
  refine List.takeWhile_eq_self_iff.mpr (fun c hc => ?_)
  rw [bne_iff_ne]
  rintro rfl
  exact h hc

/-- The second reading of a text whose escapes are no escapes of `%`. -/
theorem decodeParams_text {l : List (Char × Bool)} (hpercent : '%' ∉ l.map Prod.fst) :
    decodeParams d (l.map Prod.fst) = some ((anyMarks.fields l).map
      (Prod.map (List.map (fun x => readPlus (x.1, false)))
        (List.map (fun x => readPlus (x.1, false))))) := by
  have htext : ∀ part : List (Char × Bool),
      componentText d (part.map (fun x => Encoded.char x.1))
        = part.map (fun x => readPlus (x.1, false)) := by
    intro part
    have hchars : part.map (fun x => Encoded.char x.1) = (part.map Prod.fst).map Encoded.char := by
      rw [List.map_map]
      rfl
    rw [componentText, hchars, marked_plain, List.map_map, List.map_map]
    rfl
  rw [decodeParams_eq, encoded_plain hpercent, Option.map_some, List.map_map,
    FormMarks.fields_map, List.map_map]
  congr 1
  apply List.map_congr_left
  intro p _
  exact Prod.ext (htext p.1) (htext p.2)

/-- The first reading of a query. -/
theorem decodeParams_query (h : encoded query = some syms) :
    decodeParams d query = some ((rawMarks.fields (marked d [] syms)).map
      (Prod.map (List.map readPlus) (List.map readPlus))) := by
  rw [decodeParams_eq, h, Option.map_some, fields_marked, List.map_map]
  rfl

/-- **Such a query means the same again.** -/
theorem decodeParams_echo (h : encoded query = some syms) (hhash : '#' ∉ query)
    (hsafe : Unambiguous syms) :
    decodeParams d (((marked d [] syms).map Prod.fst).takeWhile (· != '#'))
      = decodeParams d query := by
  have hescaped : ∀ c ∈ ['%', '&', ';', '#', '+'], (c, true) ∉ marked d [] syms := by
    intro c hc
    refine escaped_not_mem d ?_ (hsafe.marks c hc)
    simp only [List.mem_cons, List.not_mem_nil, or_false] at hc
    rcases hc with rfl | rfl | rfl | rfl | rfl <;> decide
  have hraw : ∀ {c : Char}, (c, false) ∈ marked d [] syms → c ∈ query ∧ c ≠ '%' :=
    fun hc => mem_of_char_mem_encoded h (char_mem_of_mem_marked d hc)
  have htext : '#' ∉ (marked d [] syms).map Prod.fst ∧ '%' ∉ (marked d [] syms).map Prod.fst := by
    constructor
    · intro hmem
      obtain ⟨⟨c, e⟩, hx, rfl⟩ := List.mem_map.mp hmem
      cases e with
      | true => exact hescaped _ (by simp) hx
      | false => exact hhash (hraw hx).1
    · intro hmem
      obtain ⟨⟨c, e⟩, hx, heq⟩ := List.mem_map.mp hmem
      cases e with
      | true => exact hescaped '%' (by simp) (heq ▸ hx)
      | false => exact (hraw hx).2 heq
  have hsep : ∀ x ∈ marked d [] syms, anyMarks.sep x = rawMarks.sep x := by
    rintro ⟨c, e⟩ hx
    cases e with
    | false => rfl
    | true =>
        show charMarks.sep c = false
        by_contra hc
        rw [Bool.not_eq_false] at hc
        simp only [charMarks, Bool.or_eq_true, beq_iff_eq] at hc
        rcases hc with rfl | rfl
        · exact hescaped '&' (by simp) hx
        · exact hescaped ';' (by simp) hx
  have hname : ∀ part ∈ (marked d [] syms).splitOnP rawMarks.sep,
      ∀ x ∈ rawMarks.name (rawMarks.skip part), anyMarks.eq x = false := by
    intro part hpart
    rintro ⟨c, e⟩ hx
    rw [splitOnP_marked] at hpart
    obtain ⟨p, hp, rfl⟩ := List.mem_map.mp hpart
    cases e with
    | false =>
        have heq : rawMarks.eq (c, false) = false := by simpa using List.mem_takeWhile_imp hx
        exact heq
    | true =>
        rw [skip_marked, (name_value_marked d _).1] at hx
        by_contra hc
        rw [Bool.not_eq_false] at hc
        have heq : c = '=' := beq_iff_eq.mp hc
        rw [heq] at hx
        exact escaped_not_mem d (by decide) (hsafe.names p hp) hx
  rw [takeWhile_of_hash_not_mem htext.1, decodeParams_text d htext.2, decodeParams_query d h,
    FormMarks.fields_congr finer_any hsep hname]
  -- an unescaped plus sign is a space both times
  have hplus : ∀ x ∈ marked d [] syms, readPlus (x.1, false) = readPlus x := by
    rintro ⟨c, e⟩ hx
    cases e with
    | false => rfl
    | true =>
        have hc : c ≠ '+' := by
          rintro rfl
          exact hescaped '+' (by simp) hx
        simp [readPlus, hc]
  congr 1
  apply List.map_congr_left
  intro p hp
  refine Prod.ext ?_ ?_
  · exact List.map_congr_left (fun x hx =>
      hplus x (FormMarks.mem_of_mem_fields hp (Or.inl hx)))
  · exact List.map_congr_left (fun x hx =>
      hplus x (FormMarks.mem_of_mem_fields hp (Or.inr hx)))

/-! ## §2. What is lost otherwise. -/

/-- The characters of all names and values together. -/
def totalLength (fields : List (JString × JString)) : Nat :=
  (fields.map (fun p => p.1.length + p.2.length)).sum

def Encoded.isOctet : Encoded → Bool
  | .char _ => false
  | .octet _ => true

theorem no_mark_of_hexDigit {c : Char} (h : hexDigit c ≠ none) :
    charMarks.sep c = false ∧ charMarks.eq c = false := by
  constructor
  · by_contra hc
    rw [Bool.not_eq_false] at hc
    exact h (hexDigit_of_mark (Or.inl hc)).2
  · by_contra hc
    rw [Bool.not_eq_false] at hc
    exact h (hexDigit_of_mark (Or.inr hc)).2

/-- An escape is three characters for one octet. -/
theorem weigh_encoded :
    ∀ {s : JString} {syms : List Encoded} (b : FormMarks.Place), encoded s = some syms →
      charMarks.weigh ⟨fun _ => 0, fun _ => 1, fun _ => 1⟩ b s
        = encodedMarks.weigh ⟨fun _ => 0, fun _ => 1, fun _ => 1⟩ b syms
          + 2 * syms.countP Encoded.isOctet := by
  intro s
  induction s using encoded.induct with
  | case1 =>
      intro syms b h
      rw [← Option.some.inj h, FormMarks.weigh_nil, FormMarks.weigh_nil]
      rfl
  | case2 x y rest ih =>
      intro syms b h
      rw [encoded_escape] at h
      obtain ⟨o, ho, h⟩ := Option.bind_eq_some_iff.mp h
      obtain ⟨syms', hrest, rfl⟩ := Option.map_eq_some_iff.mp h
      have hx := no_mark_of_hexDigit (c := x) (fun hx => by
        rw [octetOf_left hx] at ho
        exact absurd ho (by simp))
      have hy := no_mark_of_hexDigit (c := y) (fun hy => by
        rw [octetOf_right x hy] at ho
        exact absurd ho (by simp))
      have hoctet : encodedMarks.sep (.octet o) = false ∧ encodedMarks.eq (.octet o) = false :=
        ⟨rfl, rfl⟩
      have hpercent : charMarks.sep '%' = false ∧ charMarks.eq '%' = false := by decide
      have hcount : (Encoded.octet o :: syms').countP Encoded.isOctet
          = syms'.countP Encoded.isOctet + 1 := List.countP_cons_of_pos rfl
      rw [hcount]
      by_cases hb : b = .value
      · have hrest' := ih .value hrest
        rw [hb, FormMarks.weigh_value hpercent.1, FormMarks.weigh_value hx.1,
          FormMarks.weigh_value hy.1, FormMarks.weigh_value hoctet.1]
        dsimp only
        omega
      · have hrest' := ih .name hrest
        rw [FormMarks.weigh_name hpercent.1 hpercent.2 hb,
          FormMarks.weigh_name hx.1 hx.2 (by simp), FormMarks.weigh_name hy.1 hy.2 (by simp),
          FormMarks.weigh_name hoctet.1 hoctet.2 hb]
        dsimp only
        omega
  | case3 rest hshort =>
      intro syms b h
      rw [encoded_short hshort] at h
      exact absurd h (by simp)
  | case4 c rest hc ih =>
      intro syms b h
      rw [encoded_char hc] at h
      obtain ⟨syms', hrest, rfl⟩ := Option.map_eq_some_iff.mp h
      have hcount : (Encoded.char c :: syms').countP Encoded.isOctet
          = syms'.countP Encoded.isOctet := List.countP_cons_of_neg (by simp [Encoded.isOctet])
      -- a character is the same mark in both
      have hnext : encodedMarks.next b (.char c) = charMarks.next b c := rfl
      rw [FormMarks.weigh_cons, FormMarks.weigh_cons, hcount, hnext, ih _ hrest, ← Nat.add_assoc]
      rfl

theorem length_marked_le (hle : ∀ u, (d.decode u).length ≤ u.length) :
    ∀ (syms : List Encoded) (run : List UInt8),
      (marked d run syms).length ≤ run.length + syms.length := by
  intro syms
  induction syms with
  | nil =>
      intro run
      rw [marked, List.length_map]
      exact hle run
  | cons x syms ih =>
      intro run
      cases x with
      | octet b =>
          have h := ih (run ++ [b])
          rw [List.length_append, List.length_singleton] at h
          rw [marked, List.length_cons]
          omega
      | char c =>
          have h := ih []
          have hrun := hle run
          rw [List.length_nil] at h
          rw [marked, List.length_append, List.length_map, List.length_cons, List.length_cons]
          omega

theorem octet_of_percent :
    ∀ {s : JString} {syms : List Encoded}, encoded s = some syms → '%' ∈ s →
      0 < syms.countP Encoded.isOctet := by
  intro s
  induction s using encoded.induct with
  | case1 => intro syms _ hmem; exact absurd hmem List.not_mem_nil
  | case2 x y rest ih =>
      intro syms h _
      rw [encoded_escape] at h
      obtain ⟨o, _, h⟩ := Option.bind_eq_some_iff.mp h
      obtain ⟨syms', _, rfl⟩ := Option.map_eq_some_iff.mp h
      rw [List.countP_cons_of_pos rfl]
      omega
  | case3 rest hshort =>
      intro syms h
      rw [encoded_short hshort] at h
      exact absurd h (by simp)
  | case4 c rest hc ih =>
      intro syms h hmem
      rw [encoded_char hc] at h
      obtain ⟨syms', hrest, rfl⟩ := Option.map_eq_some_iff.mp h
      rw [List.countP_cons_of_neg (by simp [Encoded.isOctet])]
      exact ih hrest ((List.mem_cons.mp hmem).resolve_left (fun heq => hc heq.symm))

/-- The first reading keeps every character that is no mark. -/
theorem totalLength_first (l : List (Char × Bool)) :
    totalLength ((rawMarks.fields l).map (Prod.map (List.map readPlus) (List.map readPlus)))
      = rawMarks.weigh ⟨fun _ => 0, fun _ => 1, fun _ => 1⟩ .start l := by
  rw [totalLength, List.map_map, ← FormMarks.sum_fields]
  congr 2
  funext p
  simp [FormMarks.weight_one]

/-- The second reading makes at most one character of an escape. -/
theorem totalLength_second (hle : ∀ u, (d.decode u).length ≤ u.length) (syms : List Encoded) :
    totalLength ((encodedMarks.fields syms).map (Prod.map (componentText d) (componentText d)))
      ≤ encodedMarks.weigh ⟨fun _ => 0, fun _ => 1, fun _ => 1⟩ .start syms := by
  have hcomponent : ∀ part : List Encoded, (componentText d part).length ≤ part.length := by
    intro part
    have h := length_marked_le d hle part []
    rw [List.length_nil, Nat.zero_add] at h
    rwa [componentText, List.length_map]
  rw [totalLength, List.map_map, ← FormMarks.sum_fields]
  apply List.sum_le_sum
  intro p _
  rw [FormMarks.weight_one, FormMarks.weight_one]
  exact Nat.add_le_add (hcomponent p.1) (hcomponent p.2)

/-- **No character is lost** only where none was an escaped separator, percent sign or `#`. -/
theorem nothing_lost (hle : ∀ u, (d.decode u).length ≤ u.length) (h : encoded query = some syms)
    (hhash : '#' ∉ query) {fields : List (JString × JString)}
    (hecho : decodeParams d (((marked d [] syms).map Prod.fst).takeWhile (· != '#'))
      = some fields)
    (htotal : totalLength fields
      = rawMarks.weigh ⟨fun _ => 0, fun _ => 1, fun _ => 1⟩ .start (marked d [] syms)) :
    '#' ∉ (marked d [] syms).map Prod.fst ∧ '%' ∉ (marked d [] syms).map Prod.fst
      ∧ (∀ x ∈ marked d [] syms, anyMarks.sep x = rawMarks.sep x)
      ∧ anyMarks.weigh ⟨fun x => if FormMarks.newEq rawMarks anyMarks x then 1 else 0,
          fun _ => 0, fun _ => 0⟩ .start (marked d [] syms) = 0 := by
  have hraw : ∀ {c : Char}, (c, false) ∈ marked d [] syms → c ∈ query :=
    fun hc => (mem_of_char_mem_encoded h (char_mem_of_mem_marked d hc)).1
  generalize marked d [] syms = l at *
  have hfront : (l.map Prod.fst).takeWhile (· != '#')
      = (l.takeWhile (fun x => x.1 != '#')).map Prod.fst := List.takeWhile_map
  rw [hfront, decodeParams_eq] at hecho
  obtain ⟨syms', hsyms', rfl⟩ := Option.map_eq_some_iff.mp hecho
  -- what the second reading keeps is at most what the marks leave of the text, less two
  -- characters for every escape it finds in there
  have hsecond := totalLength_second d hle syms'
  have hthree := weigh_encoded .start hsyms'
  rw [FormMarks.weigh_map] at hthree
  change anyMarks.weigh ⟨fun _ => 0, fun _ => 1, fun _ => 1⟩ _ _ = _ at hthree
  have hmarks := FormMarks.weigh_finer_add_le finer_any (l.takeWhile (fun x => x.1 != '#'))
    .start .start (fun h => h)
  have hslack : FormMarks.slack .start .start = 0 := rfl
  rw [FormMarks.weigh_split, hslack, Nat.add_zero] at hmarks
  dsimp only at hmarks
  have hl : l.takeWhile (fun x => x.1 != '#') ++ l.dropWhile (fun x => x.1 != '#') = l :=
    List.takeWhile_append_dropWhile
  cases hrest : l.dropWhile (fun x => x.1 != '#') with
  | cons x rest =>
      -- the `#` was escaped, and its character is lost
      exfalso
      have hx : x.1 = '#' := by
        have hne := List.head?_dropWhile_not (fun x : Char × Bool => x.1 != '#') l
        rw [hrest] at hne
        simpa using hne
      have hmem : x ∈ l := by
        rw [← hl, hrest]
        exact List.mem_append_right _ List.mem_cons_self
      obtain ⟨c, e⟩ := x
      cases e with
      | false => exact hhash (hx ▸ hraw hmem)
      | true =>
          have hno : rawMarks.sep (c, true) = false ∧ rawMarks.eq (c, true) = false := ⟨rfl, rfl⟩
          have hlt := FormMarks.weigh_lt_append (w := ⟨fun _ => 0, fun _ => 1, fun _ => 1⟩)
            hno.1 hno.2 Nat.one_pos Nat.one_pos (l.takeWhile (fun x => x.1 != '#')) rest .start
          rw [← hrest, hl] at hlt
          omega
  | nil =>
      rw [hrest, List.append_nil] at hl
      rw [hl] at hsyms' hthree hmarks
      -- nothing is cut off, so all the inequalities are equations
      have hoctets : syms'.countP Encoded.isOctet = 0 := by omega
      have hseps : l.countP (FormMarks.newSep rawMarks anyMarks) = 0 := by omega
      refine ⟨?_, ?_, ?_, by omega⟩
      · intro hmem
        obtain ⟨x, hx, heq⟩ := List.mem_map.mp hmem
        have hne := List.takeWhile_eq_self_iff.mp hl x hx
        rw [heq] at hne
        exact absurd hne (by decide)
      · intro hmem
        have hpos := octet_of_percent hsyms' hmem
        omega
      · intro x hx
        have hnew := List.countP_eq_zero.mp hseps x hx
        rw [FormMarks.newSep, Bool.and_eq_true, not_and, Bool.not_eq_true', Bool.not_eq_false]
          at hnew
        cases hs : rawMarks.sep x with
        | true => exact finer_any.sep x hs
        | false =>
            by_contra hany
            rw [Bool.not_eq_false] at hany
            rw [hnew hany] at hs
            exact absurd hs (by decide)

/-- Where an escaped plus sign becomes a space. -/
theorem plus_lost {l : List (Char × Bool)} {fields : List (JString × JString)}
    (hfields : fields = (anyMarks.fields l).map
      (Prod.map (List.map (fun x => readPlus (x.1, false)))
        (List.map (fun x => readPlus (x.1, false)))))
    (hperm : fields.Perm
      ((rawMarks.fields l).map (Prod.map (List.map readPlus) (List.map readPlus)))) :
    ('+', true) ∉ l := by
  intro hmem
  -- the second reading has no plus sign at all
  have hnone : ∀ part : List (Char × Bool),
      '+' ∉ part.map (fun x => readPlus (x.1, false)) := by
    intro part h
    obtain ⟨x, _, hx⟩ := List.mem_map.mp h
    by_cases hplus : x.1 = '+'
    · rw [readPlus, hplus, if_pos rfl] at hx
      exact absurd hx (by decide)
    · rw [readPlus, if_neg (fun heq => hplus (Prod.mk.inj heq).1)] at hx
      exact hplus hx
  have hweigh : (((rawMarks.fields l).map
      (Prod.map (List.map readPlus) (List.map readPlus))).map
        (fun p => p.1.count '+' + p.2.count '+')).sum
      = rawMarks.weigh ⟨fun _ => 0, fun x => if readPlus x = '+' then 1 else 0,
          fun x => if readPlus x = '+' then 1 else 0⟩ .start l := by
    have hcount : ∀ part : List (Char × Bool), (part.map readPlus).count '+'
        = FormMarks.weight (fun x => if readPlus x = '+' then 1 else 0) part := by
      intro part
      induction part with
      | nil => rfl
      | cons x part ih =>
          rw [List.map_cons, List.count_cons, ih, Nat.add_comm]
          simp [FormMarks.weight]
    rw [List.map_map, ← FormMarks.sum_fields]
    congr 2
    funext p
    exact congrArg₂ (· + ·) (hcount p.1) (hcount p.2)
  have hzero : (fields.map (fun p => p.1.count '+' + p.2.count '+')).sum = 0 := by
    rw [hfields, List.map_map]
    apply List.sum_eq_zero
    intro n hn
    obtain ⟨p, _, rfl⟩ := List.mem_map.mp hn
    show (p.1.map _).count '+' + (p.2.map _).count '+' = 0
    rw [List.count_eq_zero_of_not_mem (hnone p.1), List.count_eq_zero_of_not_mem (hnone p.2)]
  obtain ⟨u, rest, rfl⟩ := List.append_of_mem hmem
  have hno : rawMarks.sep ('+', true) = false ∧ rawMarks.eq ('+', true) = false := ⟨rfl, rfl⟩
  have hpos := FormMarks.weigh_lt_append (w := ⟨fun _ => 0,
    fun x => if readPlus x = '+' then 1 else 0, fun x => if readPlus x = '+' then 1 else 0⟩)
    hno.1 hno.2 (by decide) (by decide) u rest .start
  rw [← hweigh, ← (hperm.map _).sum_eq, hzero] at hpos
  exact absurd hpos (Nat.not_lt_zero _)

/-- Where an escaped equals sign ends a name. -/
theorem name_lost {l : List (Char × Bool)} (hsep : ∀ x ∈ l, anyMarks.sep x = rawMarks.sep x)
    (hskip : anyMarks.weigh ⟨fun x => if FormMarks.newEq rawMarks anyMarks x then 1 else 0,
      fun _ => 0, fun _ => 0⟩ .start l = 0) {fields : List (JString × JString)}
    (hfields : fields = (anyMarks.fields l).map
      (Prod.map (List.map (fun x => readPlus (x.1, false)))
        (List.map (fun x => readPlus (x.1, false)))))
    (hperm : fields.Perm
      ((rawMarks.fields l).map (Prod.map (List.map readPlus) (List.map readPlus)))) :
    ∀ p ∈ rawMarks.fields l, ('=', true) ∉ p.1 := by
  -- the names are as long as before
  have hlength : ∀ (m : FormMarks (Char × Bool)) (f : Char × Bool → Char),
      (((m.fields l).map (Prod.map (List.map f) (List.map f))).map (fun p => p.1.length)).sum
        = m.weigh ⟨fun _ => 0, fun _ => 1, fun _ => 0⟩ .start l := by
    intro m f
    rw [List.map_map, ← FormMarks.sum_fields]
    congr 2
    funext p
    simp [FormMarks.weight_one, FormMarks.weight_zero]
  have hnames := (hperm.map (fun p => p.1.length)).sum_eq
  rw [hfields, hlength, hlength] at hnames
  have hle := FormMarks.weigh_names_add_le finer_any (Or.inl rfl) hsep hskip
  have hzero : ((rawMarks.fields l).map (fun p =>
      FormMarks.weight (fun x => if FormMarks.newEq rawMarks anyMarks x then 1 else 0) p.1
        + FormMarks.weight (fun _ => 0) p.2)).sum = 0 := by
    rw [FormMarks.sum_fields]
    omega
  -- an escaped equals sign in a name would weigh something
  intro p hp hmem
  have hp0 := List.sum_eq_zero_iff.mp hzero _ (List.mem_map_of_mem hp)
  have hone : (1 : Nat) ∈ p.1.map
      (fun x => if FormMarks.newEq rawMarks anyMarks x then 1 else 0) :=
    List.mem_map.mpr ⟨('=', true), hmem, by decide⟩
  have hge := List.single_le_sum (fun _ _ => Nat.zero_le _) _ hone
  have hw : FormMarks.weight (fun x => if FormMarks.newEq rawMarks anyMarks x then 1 else 0) p.1
      = 0 := (Nat.add_eq_zero_iff.mp hp0).1
  rw [FormMarks.weight] at hw
  omega

/-- **A query that means the same again has no such escape.** -/
theorem unambiguous_of_echo (hle : ∀ u, (d.decode u).length ≤ u.length)
    (h : encoded query = some syms) (hhash : '#' ∉ query) {fields : List (JString × JString)}
    (hecho : decodeParams d (((marked d [] syms).map Prod.fst).takeWhile (· != '#'))
      = some fields)
    (hperm : fields.Perm ((rawMarks.fields (marked d [] syms)).map
      (Prod.map (List.map readPlus) (List.map readPlus)))) :
    Unambiguous syms := by
  have htotal : totalLength fields
      = rawMarks.weigh ⟨fun _ => 0, fun _ => 1, fun _ => 1⟩ .start (marked d [] syms) := by
    rw [← totalLength_first]
    exact (hperm.map _).sum_eq
  obtain ⟨hno, hpercent, hsep, hskip⟩ := nothing_lost d hle h hhash hecho htotal
  rw [takeWhile_of_hash_not_mem hno, decodeParams_text d hpercent] at hecho
  have hfields := (Option.some.inj hecho).symm
  have hmem : ∀ {c : Char}, c.toNat < 128 → ∀ {syms : List Encoded}, Encoded.escape c ∈ syms →
      (c, true) ∈ marked d [] syms :=
    fun hc syms hsyms => (escaped_mem_marked_iff d hc syms []).mpr (Or.inr hsyms)
  constructor
  · -- each of these escapes is a character of the decoded text
    intro c hc hsyms
    simp only [List.mem_cons, List.not_mem_nil, or_false] at hc
    rcases hc with rfl | rfl | rfl | rfl | rfl
    · exact hpercent (List.mem_map.mpr ⟨_, hmem (by decide) hsyms, rfl⟩)
    · exact absurd (hsep _ (hmem (by decide) hsyms)) (by decide)
    · exact absurd (hsep _ (hmem (by decide) hsyms)) (by decide)
    · exact hno (List.mem_map.mpr ⟨_, hmem (by decide) hsyms, rfl⟩)
    · exact plus_lost hfields hperm (hmem (by decide) hsyms)
  · intro part hpart hname
    have hne : encodedMarks.skip part ≠ [] := by
      intro hnil
      rw [hnil] at hname
      exact absurd hname List.not_mem_nil
    have hfield : (encodedMarks.name (encodedMarks.skip part),
        encodedMarks.value (encodedMarks.skip part)) ∈ encodedMarks.fields syms :=
      List.mem_map.mpr ⟨_, List.mem_filter.mpr ⟨List.mem_map_of_mem hpart, by simpa using hne⟩,
        rfl⟩
    have hmarked := List.mem_map_of_mem (f := Prod.map (marked d []) (marked d [])) hfield
    rw [← fields_marked] at hmarked
    exact name_lost hsep hskip hfields hperm _ hmarked (hmem (by decide) hname)

/-- There are no parameters where all parts are empty. -/
theorem decodeParams_eq_nil_iff (query : JString) :
    decodeParams d query = some [] ↔ ∀ part ∈ queryParts query, part = [] := by
  unfold decodeParams
  cases hparts : (queryParts query).filter (fun part => !part.isEmpty) with
  | nil =>
      refine iff_of_true rfl (fun part hpart => ?_)
      have h := List.filter_eq_nil_iff.mp hparts part hpart
      simpa using h
  | cons part parts =>
      refine iff_of_false ?_ ?_
      · rw [List.mapM_cons]
        cases decodeField d part with
        | none => simp
        | some field => cases List.mapM (decodeField d) parts <;> simp
      · intro h
        have hmem : part ∈ (queryParts query).filter (fun part => !part.isEmpty) := by
          rw [hparts]
          exact List.mem_cons_self
        obtain ⟨hpart, hne⟩ := List.mem_filter.mp hmem
        rw [h part hpart] at hne
        exact absurd hne (by decide)

end Fields

/-! ## §3. The URL of a segment. -/

theorem hash_not_mem_urlQuery (url : JString) : '#' ∉ urlQuery url := by
  intro h
  have hmem := (List.dropWhile_sublist _).subset (List.mem_of_mem_drop h)
  exact absurd (List.mem_takeWhile_imp hmem) (by decide)

theorem urlQuery_echo {s : JString} (hs : '?' ∉ s) (query : JString) :
    urlQuery (withQuery (some query) s)
      = if '#' ∈ s then [] else query.takeWhile (· != '#') := by
  have hmark : ∀ {t : JString}, '?' ∉ t → ∀ c ∈ t, (c != '?') = true := by
    intro t ht c hc
    rw [bne_iff_ne]
    rintro rfl
    exact ht hc
  unfold urlQuery
  show (((s ++ '?' :: query).takeWhile (· != '#')).dropWhile (· != '?')).drop 1 = _
  split_ifs with hhash
  · have hfront : (s ++ '?' :: query).takeWhile (· != '#') = s.takeWhile (· != '#') := by
      rw [List.takeWhile_append, if_neg]
      intro hlen
      have hself := List.takeWhile_eq_self_iff.mp
        ((List.takeWhile_sublist (· != '#')).eq_of_length hlen) '#' hhash
      exact absurd hself (by decide)
    have hno : '?' ∉ s.takeWhile (· != '#') := fun h =>
      hs ((List.takeWhile_sublist _).subset h)
    rw [hfront, List.dropWhile_eq_nil_iff.mpr (hmark hno)]
    rfl
  · have hall : ∀ c ∈ s, (c != '#') = true := by
      intro c hc
      rw [bne_iff_ne]
      rintro rfl
      exact hhash hc
    rw [List.takeWhile_append_of_pos hall, List.takeWhile_cons_of_pos (by decide),
      List.dropWhile_append_of_pos (hmark hs), List.dropWhile_cons_of_neg (by decide)]
    rfl

/-- The line of a segment, as the filters write it, has the parameters of the request. -/
def MeansTheSame (lib : UrlLibrary) (target query line : JString) : Prop :=
  lib.parameters (withQuery (some query) line) = lib.parameters target

section Echo

variable (lib : UrlLibrary) {target query line : JString} {uri : Uri}
  (hparse : lib.parse target = some uri) (hquery : uri.query = some query)
  (hline : '?' ∉ line) (hfew : WithinLimit (urlQuery target))
  (hecho : WithinLimit (urlQuery (withQuery (some query) line)))

include hparse hquery hline hfew hecho

/-- Behind a `#` there is no query. -/
theorem meansTheSame_fragment (hhash : '#' ∈ line) :
    MeansTheSame lib target query line ↔ ∀ part ∈ queryParts (urlQuery target), part = [] := by
  obtain ⟨syms, hsyms, _⟩ := lib.parse_query hparse hquery
  have hnone : decodeParams lib.toEscapeDecoder [] = some [] := rfl
  unfold MeansTheSame
  rw [lib.decodes_once _ hecho, lib.decodes_once _ hfew, urlQuery_echo hline, if_pos hhash, hnone,
    ← decodeParams_eq_nil_iff lib.toEscapeDecoder]
  constructor
  · intro h
    rw [decodeParams_query lib.toEscapeDecoder hsyms] at h ⊢
    rw [← (perm_of_valuesOf (Option.some.inj h)).nil_eq]
  · intro h
    rw [h]

theorem meansTheSame_query (hhash : '#' ∉ line) :
    MeansTheSame lib target query line
      ↔ ∃ syms, encoded (urlQuery target) = some syms ∧ Unambiguous syms := by
  obtain ⟨syms, hsyms, rfl⟩ := lib.parse_query hparse hquery
  have hno := hash_not_mem_urlQuery target
  unfold MeansTheSame
  rw [lib.decodes_once _ hecho, lib.decodes_once _ hfew, urlQuery_echo hline, if_neg hhash]
  constructor
  · intro h
    refine ⟨syms, hsyms, ?_⟩
    rw [decodeParams_query lib.toEscapeDecoder hsyms, Option.map_some] at h
    obtain ⟨fields, hfields, hvalues⟩ := Option.map_eq_some_iff.mp h
    exact unambiguous_of_echo lib.toEscapeDecoder lib.decode_le hsyms hno hfields
      (perm_of_valuesOf hvalues)
  · rintro ⟨syms', hsyms', hsafe⟩
    rw [hsyms] at hsyms'
    rw [← Option.some.inj hsyms'] at hsafe
    rw [decodeParams_echo lib.toEscapeDecoder hsyms hno hsafe]

/-- **Which requests get their own query back**, within the limit of the decoder. -/
theorem echo_iff :
    MeansTheSame lib target query line
      ↔ ('#' ∈ line ∧ ∀ part ∈ queryParts (urlQuery target), part = [])
        ∨ ('#' ∉ line ∧ ∃ syms, encoded (urlQuery target) = some syms ∧ Unambiguous syms) := by
  by_cases hhash : '#' ∈ line
  · rw [meansTheSame_fragment lib hparse hquery hline hfew hecho hhash]
    simp [hhash]
  · rw [meansTheSame_query lib hparse hquery hline hfew hecho hhash]
    simp [hhash]

end Echo

/-! ## §4. A library that decodes as UTF-8. -/

/-- `new URI` for a target without an authority, and without the check of the characters that
are not escaped. -/
def queryParse (target : JString) : Option Uri :=
  (encoded ((target.takeWhile (· != '#')).takeWhile (· != '?'))).bind (fun path =>
    (encoded (urlQuery target)).map (fun query =>
      { path := some ((marked jdkDecoder [] path).map Prod.fst)
        query := if '?' ∈ target.takeWhile (· != '#')
          then some ((marked jdkDecoder [] query).map Prod.fst) else none }))

def utf8Library : UrlLibrary where
  toEscapeDecoder := jdkDecoder
  decode_le := by
    intro u
    have h := length_decodeFrom_le u []
    rwa [List.length_nil, Nat.zero_add] at h
  parse := queryParse
  parse_query := by
    intro target uri query hparse hquery
    obtain ⟨path, _, h⟩ := Option.bind_eq_some_iff.mp hparse
    obtain ⟨syms, hsyms, rfl⟩ := Option.map_eq_some_iff.mp h
    refine ⟨syms, hsyms, ?_⟩
    dsimp only at hquery
    split_ifs at hquery
    exact (Option.some.inj hquery).symm
  parameters := fun url => (decodeParams jdkDecoder (urlQuery url)).map valuesOf
  decodes_once := fun _ _ => rfl

/-- An escaped space comes back. -/
theorem echo_space :
    MeansTheSame utf8Library "/live/a.m3u8?playseek=000030&t=x%20y".toList
      "playseek=000030&t=x y".toList "a-1508153100-10.ts".toList := by
  have hparse : utf8Library.parse "/live/a.m3u8?playseek=000030&t=x%20y".toList
      = some ⟨some "/live/a.m3u8".toList, some "playseek=000030&t=x y".toList⟩ := by
    decide +kernel
  refine (echo_iff utf8Library hparse rfl (by decide +kernel) (by decide +kernel)
    (by decide +kernel)).mpr (Or.inr ⟨by decide +kernel, ?_⟩)
  exact ⟨(encoded "playseek=000030&t=x%20y".toList).getD [], by decide +kernel, by decide +kernel⟩

/-- A token with an escaped plus sign is another token behind the segments. -/
theorem echo_plus_lost :
    utf8Library.parse "/live/a.m3u8?playseek=000030&token=a%2Bb".toList
        = some ⟨some "/live/a.m3u8".toList, some "playseek=000030&token=a+b".toList⟩
      ∧ '?' ∉ "a-1508153100-10.ts".toList
      ∧ (utf8Library.parameters "/live/a.m3u8?playseek=000030&token=a%2Bb".toList).map
          (fun values => values "token".toList) = some ["a+b".toList]
      ∧ (utf8Library.parameters (withQuery (some "playseek=000030&token=a+b".toList)
          "a-1508153100-10.ts".toList)).map
          (fun values => values "token".toList) = some ["a b".toList]
      ∧ ¬ MeansTheSame utf8Library "/live/a.m3u8?playseek=000030&token=a%2Bb".toList
          "playseek=000030&token=a+b".toList "a-1508153100-10.ts".toList := by
  have hrequest : (utf8Library.parameters
      "/live/a.m3u8?playseek=000030&token=a%2Bb".toList).map
        (fun values => values "token".toList) = some ["a+b".toList] := by decide +kernel
  have hsegment : (utf8Library.parameters (withQuery (some "playseek=000030&token=a+b".toList)
      "a-1508153100-10.ts".toList)).map
        (fun values => values "token".toList) = some ["a b".toList] := by decide +kernel
  refine ⟨by decide +kernel, by decide +kernel, hrequest, hsegment, ?_⟩
  intro h
  unfold MeansTheSame at h
  rw [h, hrequest] at hsegment
  exact absurd hsegment (by decide +kernel)

end NginxNettyHls.M3u8Filter
