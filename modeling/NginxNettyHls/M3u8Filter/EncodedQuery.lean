/-
  NginxNettyHls.M3u8Filter.EncodedQuery
  ─────────────────────────────────────
  **A QUERY, ITS ESCAPES AND ITS PARAMETERS.**

  What `java.net.URI` and Netty's `QueryStringDecoder` make of a query.  Both decode
  a run of escaped octets as UTF-8; the decoder first cuts the query, so that what
  is escaped is never a mark.  They are a parameter (`UrlLibrary`), with what is
  assumed of them.

    • `decodeParams_eq` — the parameters are read off the query once its escapes are
      found;
    • `escaped_mem_marked_iff` — an ASCII character is escaped in the decoded text
      exactly where its octet is in the query;
    • `fields_marked` — cutting and decoding commute, as long as one knows which
      characters were escaped;
    • `dispatches_iff_parameters` — the decoder has what `QueryString` assumes of one
      (`queryStringDecoder`), and its map decides whether there is a play mode.
-/
import NginxNettyHls.M3u8Filter.QueryString
import NginxNettyHls.Nginx.SameFile
import NginxNettyHls.Text.Form

namespace NginxNettyHls.M3u8Filter

open NginxNettyHls.Java
open NginxNettyHls.Nginx (EscapeDecoder)
open Text

/-! ## §1. Encoded texts. -/

/-- A character that stands for itself, or an escaped octet. -/
inductive Encoded where
  | char (c : Char)
  | octet (b : UInt8)
  deriving DecidableEq

/-- The octet two hexadecimal digits stand for. -/
def octetOf (h l : Char) : Option UInt8 :=
  (hexDigit h).bind (fun h => (hexDigit l).map (fun l => UInt8.ofNat (16 * h + l)))

/-- What an encoded text consists of; `none` where an escape is malformed. -/
def encoded : JString → Option (List Encoded)
  | [] => some []
  | c :: rest =>
      if c = '%' then
        match rest with
        | h :: l :: rest' => (octetOf h l).bind (fun b => (encoded rest').map (.octet b :: ·))
        | _ => none
      else (encoded rest).map (.char c :: ·)

theorem octetOf_left {h : Char} (hh : hexDigit h = none) (l : Char) : octetOf h l = none := by
  rw [octetOf, hh]
  rfl

theorem octetOf_right (h : Char) {l : Char} (hl : hexDigit l = none) : octetOf h l = none := by
  rw [octetOf, hl]
  cases hexDigit h <;> rfl

theorem encoded_char {c : Char} (hc : c ≠ '%') (rest : JString) :
    encoded (c :: rest) = (encoded rest).map (.char c :: ·) := by
  rw [encoded.eq_def]
  exact if_neg hc

theorem encoded_escape (h l : Char) (rest : JString) :
    encoded ('%' :: h :: l :: rest)
      = (octetOf h l).bind (fun b => (encoded rest).map (.octet b :: ·)) := by
  rw [encoded.eq_def]
  exact if_pos rfl

/-- An escape that is cut short. -/
theorem encoded_short {rest : JString} (h : ∀ x y rest', rest = x :: y :: rest' → False) :
    encoded ('%' :: rest) = none := by
  match rest with
  | [] => rfl
  | [x] => rfl
  | x :: y :: rest => exact absurd rfl (h x y rest)

/-- A character that belongs to no escape separates what is around it. -/
theorem encoded_append_cons {c : Char} (hc : c ≠ '%') (hhex : hexDigit c = none) (v : JString) :
    ∀ (u : JString), encoded (u ++ c :: v)
      = (encoded u).bind (fun su => (encoded v).map (fun sv => su ++ .char c :: sv)) := by
  intro u
  induction u using encoded.induct with
  | case1 =>
      rw [List.nil_append, encoded_char hc]
      rfl
  | case2 h l rest ih =>
      rw [List.cons_append, List.cons_append, List.cons_append, encoded_escape, encoded_escape, ih]
      cases octetOf h l with
      | none => rfl
      | some b =>
          cases encoded rest with
          | none => rfl
          | some su => cases encoded v <;> rfl
  | case3 rest hshort =>
      -- the escape is cut short, and `c` does not complete it
      rw [encoded_short hshort, Option.bind_none]
      match rest with
      | [] =>
          match v with
          | [] => rfl
          | l :: v =>
              rw [List.cons_append, List.nil_append, encoded_escape, octetOf_left hhex]
              rfl
      | [h] =>
          rw [List.cons_append, List.cons_append, List.nil_append, encoded_escape,
            octetOf_right h hhex]
          rfl
      | h :: l :: rest => exact absurd rfl (hshort h l rest)
  | case4 d rest hd ih =>
      rw [List.cons_append, encoded_char hd, ih, encoded_char hd]
      cases encoded rest with
      | none => rfl
      | some su => cases encoded v <;> rfl

/-- A text without escapes. -/
theorem encoded_plain : ∀ {s : JString}, '%' ∉ s → encoded s = some (s.map .char) := by
  intro s
  induction s with
  | nil => intro _; rfl
  | cons c s ih =>
      intro h
      rw [List.mem_cons, not_or] at h
      rw [encoded_char (fun hc => h.1 hc.symm), ih h.2]
      rfl

/-- What is not escaped is a character of the text, and begins no escape. -/
theorem mem_of_char_mem_encoded {c : Char} :
    ∀ {s : JString} {syms : List Encoded}, encoded s = some syms → .char c ∈ syms →
      c ∈ s ∧ c ≠ '%' := by
  intro s
  induction s using encoded.induct with
  | case1 =>
      intro syms h hc
      rw [← Option.some.inj h] at hc
      exact absurd hc List.not_mem_nil
  | case2 x y rest ih =>
      intro syms h hc
      rw [encoded_escape] at h
      obtain ⟨b, _, h⟩ := Option.bind_eq_some_iff.mp h
      obtain ⟨syms', hrest, rfl⟩ := Option.map_eq_some_iff.mp h
      obtain ⟨hmem, hne⟩ := ih hrest ((List.mem_cons.mp hc).resolve_left (by simp))
      exact ⟨List.mem_cons_of_mem _ (List.mem_cons_of_mem x (List.mem_cons_of_mem y hmem)), hne⟩
  | case3 rest hshort =>
      intro syms h
      rw [encoded_short hshort] at h
      exact absurd h (by simp)
  | case4 d rest hd ih =>
      intro syms h hc
      rw [encoded_char hd] at h
      obtain ⟨syms', hrest, rfl⟩ := Option.map_eq_some_iff.mp h
      rcases List.mem_cons.mp hc with heq | hc
      · rw [Encoded.char.inj heq]
        exact ⟨List.mem_cons_self, hd⟩
      · obtain ⟨hmem, hne⟩ := ih hrest hc
        exact ⟨List.mem_cons_of_mem d hmem, hne⟩

/-- A text that begins with a character is an octet or that character, and more. -/
theorem encoded_cons {c : Char} {rest : JString} {syms : List Encoded}
    (h : encoded (c :: rest) = some syms) :
    ∃ x syms', syms = x :: syms' ∧ ((∃ b, x = .octet b) ∨ x = .char c) := by
  by_cases hc : c = '%'
  · subst hc
    match rest with
    | [] => exact absurd h (by simp [encoded])
    | [x] => exact absurd h (by simp [encoded])
    | x :: y :: rest =>
        rw [encoded_escape] at h
        obtain ⟨b, _, h⟩ := Option.bind_eq_some_iff.mp h
        obtain ⟨syms', _, rfl⟩ := Option.map_eq_some_iff.mp h
        exact ⟨.octet b, syms', rfl, Or.inl ⟨b, rfl⟩⟩
  · rw [encoded_char hc] at h
    obtain ⟨syms', _, rfl⟩ := Option.map_eq_some_iff.mp h
    exact ⟨.char c, syms', rfl, Or.inr rfl⟩

/-! ## §2. The decoder. -/

/-- `&` and `;` separate the parts of a query, `=` ends a name. -/
def charMarks : FormMarks Char where
  sep := fun c => c == '&' || c == ';'
  eq := fun c => c == '='
  disjoint := by
    intro c hc
    rw [Bool.or_eq_true, beq_iff_eq, beq_iff_eq] at hc
    rcases hc with rfl | rfl <;> rfl

/-- An octet is no mark. -/
def encodedMarks : FormMarks Encoded where
  sep := fun
    | .char c => charMarks.sep c
    | .octet _ => false
  eq := fun
    | .char c => charMarks.eq c
    | .octet _ => false
  disjoint := fun
    | .char c => charMarks.disjoint c
    | .octet _ => fun _ => rfl

/-- The marks of a text of whose characters one knows which were escaped: those were not. -/
def rawMarks : FormMarks (Char × Bool) where
  sep := fun x => !x.2 && charMarks.sep x.1
  eq := fun x => !x.2 && charMarks.eq x.1
  disjoint := by
    intro x hx
    rw [Bool.and_eq_true] at hx
    rw [charMarks.disjoint x.1 hx.2, Bool.and_false]

/-- The query of a URL: behind its first `?` and before its first `#`. -/
def urlQuery (url : JString) : JString :=
  ((url.takeWhile (· != '#')).dropWhile (· != '?')).drop 1

section Decoder

variable (d : EscapeDecoder)

/-- The characters of an encoded text behind the escapes `run`, and which were escaped. -/
def marked : List UInt8 → List Encoded → List (Char × Bool)
  | run, [] => (d.decode run).map (fun c => (c, true))
  | run, .octet b :: syms => marked (run ++ [b]) syms
  | run, .char c :: syms => (d.decode run).map (fun c => (c, true)) ++ (c, false) :: marked [] syms

/-- A `+` that is not escaped is a space. -/
def readPlus (x : Char × Bool) : Char := if x = ('+', false) then ' ' else x.1

/-- One name or value; `none` where the decoder throws. -/
def decodeComponent (s : JString) : Option JString :=
  (encoded s).map (fun syms => (marked d [] syms).map readPlus)

def decodeField (part : JString) : Option (JString × JString) :=
  (decodeComponent d (partName part)).bind (fun name =>
    (decodeComponent d (partValue part)).map (fun value => (name, value)))

/-- The parameters of a query in their order; a part of which nothing is left has none. -/
def decodeParams (query : JString) : Option (List (JString × JString)) :=
  ((queryParts query).filter (fun part => !part.isEmpty)).mapM (decodeField d)

end Decoder

/-- `java.net.URI` and Netty's `QueryStringDecoder`.  `getQuery` is the query with its escapes
decoded, and the decoder decodes every name and every value once, up to its limit. -/
structure UrlLibrary extends EscapeDecoder where
  decode_le : ∀ u, (decode u).length ≤ u.length
  parse : JString → Option Uri
  parse_query : ∀ {target : JString} {uri : Uri} {query : JString}, parse target = some uri →
    uri.query = some query → ∃ syms, encoded (urlQuery target) = some syms
      ∧ query = (marked toEscapeDecoder [] syms).map Prod.fst
  parameters : JString → Option (JString → List JString)
  decodes_once : ∀ url, WithinLimit (urlQuery url) →
    parameters url = (decodeParams toEscapeDecoder (urlQuery url)).map valuesOf

/-! ## §3. The parameters, once the escapes are found. -/

section Fields

variable (d : EscapeDecoder)

/-- A name or a value read. -/
def componentText (syms : List Encoded) : JString := (marked d [] syms).map readPlus

theorem hexDigit_of_mark {c : Char} (hc : charMarks.sep c = true ∨ charMarks.eq c = true) :
    c ≠ '%' ∧ hexDigit c = none := by
  simp only [charMarks, Bool.or_eq_true, beq_iff_eq, or_assoc] at hc
  rcases hc with rfl | rfl | rfl <;> decide

theorem encodedMarks_sep_eq_false {s : JString} {syms : List Encoded} (h : encoded s = some syms)
    (hs : ∀ c ∈ s, charMarks.sep c = false) : ∀ x ∈ syms, encodedMarks.sep x = false := by
  intro x hx
  cases x with
  | octet b => rfl
  | char c => exact hs c (mem_of_char_mem_encoded h hx).1

/-- The equals signs a part begins with are skipped before or after the escapes are found. -/
theorem encoded_skip (part : JString) :
    encoded (charMarks.skip part) = (encoded part).map encodedMarks.skip := by
  induction part with
  | nil => rfl
  | cons c part ih =>
      cases hq : charMarks.eq c with
      | true =>
          have hc : c ≠ '%' := (hexDigit_of_mark (Or.inr hq)).1
          have hq' : encodedMarks.eq (.char c) = true := hq
          rw [FormMarks.skip_cons_eq hq, ih, encoded_char hc, Option.map_map]
          congr 1
          funext syms
          exact (FormMarks.skip_cons_eq hq' syms).symm
      | false =>
          rw [FormMarks.skip_cons hq]
          cases hsyms : encoded (c :: part) with
          | none => rfl
          | some syms =>
              obtain ⟨x, syms', rfl, hx⟩ := encoded_cons hsyms
              have hno : encodedMarks.eq x = false := by
                rcases hx with ⟨b, rfl⟩ | rfl
                · rfl
                · exact hq
              rw [Option.map_some, FormMarks.skip_cons hno]

theorem encodedMarks_eq_eq_false {s : JString} {syms : List Encoded} (h : encoded s = some syms)
    (hs : ∀ c ∈ s, charMarks.eq c = false) : ∀ x ∈ syms, encodedMarks.eq x = false := by
  intro x hx
  cases x with
  | octet b => rfl
  | char c => exact hs c (mem_of_char_mem_encoded h hx).1

/-- **One part.** -/
theorem decodeField_eq (part : JString) :
    decodeField d part = (encoded part).map (fun syms =>
      (componentText d (encodedMarks.name syms), componentText d (encodedMarks.value syms))) := by
  unfold decodeField decodeComponent
  have hname : partName part = charMarks.name part := rfl
  have hvalue : partValue part = charMarks.value part := rfl
  rw [hname, hvalue]
  rcases FormMarks.part_cases charMarks part with hnone | ⟨u, x, v, rfl, hu, hx⟩
  · rw [FormMarks.name_of_forall hnone, FormMarks.value_of_forall hnone]
    cases hsyms : encoded part with
    | none => rfl
    | some syms =>
        have hno := encodedMarks_eq_eq_false hsyms hnone
        rw [Option.map_some, Option.map_some, FormMarks.name_of_forall hno,
          FormMarks.value_of_forall hno]
        rfl
  · -- the first `=` is no part of an escape, so the escapes are found on either side of it
    obtain ⟨hpercent, hhex⟩ := hexDigit_of_mark (Or.inr hx)
    rw [FormMarks.name_append_cons hu hx, FormMarks.value_append_cons hu hx,
      encoded_append_cons hpercent hhex]
    cases hsu : encoded u with
    | none => rfl
    | some su =>
        have hno := encodedMarks_eq_eq_false hsu hu
        have heq : encodedMarks.eq (.char x) = true := hx
        cases encoded v with
        | none => rfl
        | some sv =>
            rw [Option.bind_some, Option.map_some, Option.map_some, Option.map_some,
              Option.map_some, FormMarks.name_append_cons hno heq,
              FormMarks.value_append_cons hno heq]
            rfl

theorem decodeParams_line {query : JString} (h : ∀ c ∈ query, charMarks.sep c = false) :
    decodeParams d query = (encoded query).map (fun syms =>
      (encodedMarks.fields syms).map (Prod.map (componentText d) (componentText d))) := by
  have hparts : queryParts query = [charMarks.skip query] :=
    congrArg (List.map charMarks.skip) (List.splitOnP_eq_singleton h)
  have hskip := encoded_skip query
  unfold decodeParams
  rw [hparts]
  cases hquery : charMarks.skip query with
  | nil =>
      -- nothing is left
      rw [hquery] at hskip
      obtain ⟨syms, hsyms, hnil⟩ := Option.map_eq_some_iff.mp hskip.symm
      rw [hsyms, Option.map_some,
        FormMarks.fields_skipped hnil (encodedMarks_sep_eq_false hsyms h)]
      rfl
  | cons c part =>
      rw [hquery] at hskip
      rw [List.filter_cons_of_pos (by rfl), List.filter_nil, List.mapM_cons, List.mapM_nil,
        decodeField_eq, hskip]
      cases hsyms : encoded query with
      | none => rfl
      | some syms =>
          rw [hsyms] at hskip
          have hne : encodedMarks.skip syms ≠ [] := by
            obtain ⟨x, syms', hcons, _⟩ := encoded_cons hskip
            rw [hcons]
            exact List.cons_ne_nil x syms'
          rw [Option.map_some, Option.map_some, Option.map_some, FormMarks.fields_line hne
            (encodedMarks_sep_eq_false hsyms h)]
          rfl

/-- **The parameters of a query.** -/
theorem decodeParams_eq (query : JString) :
    decodeParams d query = (encoded query).map (fun syms =>
      (encodedMarks.fields syms).map (Prod.map (componentText d) (componentText d))) := by
  induction query using induction_at charMarks.sep with
  | line query h => exact decodeParams_line d h
  | cut u c l hu hc ih =>
      have hcut : decodeParams d (u ++ c :: l)
          = (decodeParams d u).bind (fun a => (decodeParams d l).map (a ++ ·)) := by
        have hparts : queryParts (u ++ c :: l) = queryParts u ++ queryParts l := by
          show ((u ++ c :: l).splitOnP charMarks.sep).map charMarks.skip
            = (u.splitOnP charMarks.sep).map charMarks.skip ++ queryParts l
          rw [List.splitOnP_append_cons_of_forall_mem hu c hc l, List.splitOnP_eq_singleton hu]
          rfl
        unfold decodeParams
        rw [hparts, List.filter_append, List.mapM_append]
        cases ((queryParts u).filter (fun part => !part.isEmpty)).mapM (decodeField d) with
        | none => rfl
        | some a =>
            cases ((queryParts l).filter (fun part => !part.isEmpty)).mapM (decodeField d) <;> rfl
      -- neither is a separator
      obtain ⟨hpercent, hhex⟩ := hexDigit_of_mark (Or.inl hc)
      rw [hcut, decodeParams_line d hu, ih, encoded_append_cons hpercent hhex]
      cases hsu : encoded u with
      | none => rfl
      | some su =>
          cases encoded l with
          | none => rfl
          | some sl =>
              have hsep : encodedMarks.sep (.char c) = true := hc
              rw [Option.map_some, Option.map_some, Option.bind_some, Option.bind_some,
                Option.map_some, Option.map_some, Option.map_some,
                FormMarks.fields_cut (encodedMarks_sep_eq_false hsu hu) hsep, List.map_append]

/-! ## §4. Characters, and which were escaped. -/

theorem marked_nil : marked d [] [] = [] := by
  rw [marked, d.decode_nil]
  rfl

theorem marked_char (c : Char) (syms : List Encoded) :
    marked d [] (.char c :: syms) = (c, false) :: marked d [] syms := by
  rw [marked, d.decode_nil]
  rfl

theorem marked_plain (l : JString) :
    marked d [] (l.map .char) = l.map (fun c => (c, false)) := by
  induction l with
  | nil => exact marked_nil d
  | cons c l ih =>
      rw [List.map_cons, marked_char, ih]
      rfl

theorem marked_append_char (c : Char) (syms' : List Encoded) :
    ∀ (syms : List Encoded) (run : List UInt8), marked d run (syms ++ .char c :: syms')
      = marked d run syms ++ (c, false) :: marked d [] syms' := by
  intro syms
  induction syms with
  | nil => intro run; rfl
  | cons x syms ih =>
      intro run
      cases x with
      | octet b => exact ih (run ++ [b])
      | char c' =>
          rw [List.cons_append, marked, marked, ih, List.append_assoc]
          rfl

theorem char_mem_of_mem_marked {c : Char} :
    ∀ {syms : List Encoded} {run : List UInt8}, (c, false) ∈ marked d run syms →
      .char c ∈ syms := by
  have hdecode : ∀ run, (c, false) ∉ (d.decode run).map (fun c => (c, true)) := by
    intro run h
    obtain ⟨_, _, heq⟩ := List.mem_map.mp h
    exact absurd (Prod.mk.inj heq).2 (by decide)
  intro syms
  induction syms with
  | nil => intro run h; exact absurd h (hdecode run)
  | cons x syms ih =>
      intro run h
      cases x with
      | octet b => exact List.mem_cons_of_mem _ (ih h)
      | char c' =>
          rcases List.mem_append.mp h with h | h
          · exact absurd h (hdecode run)
          · rcases List.mem_cons.mp h with heq | h
            · rw [(Prod.mk.inj heq).1]
              exact List.mem_cons_self
            · exact List.mem_cons_of_mem _ (ih h)

/-- ASCII characters are decoded from their own octets. -/
theorem mem_decode_iff {c : Char} (hc : c.toNat < 128) (u : List UInt8) :
    c ∈ d.decode u ↔ UInt8.ofNat c.toNat ∈ u := by
  have hbyte : (UInt8.ofNat c.toNat).toNat = c.toNat := by
    rw [UInt8.toNat_ofNat']
    omega
  have hwide : ∀ u : List UInt8, (∀ b ∈ u, decide (b.toNat < 128) = false) →
      (c ∈ d.decode u ↔ UInt8.ofNat c.toNat ∈ u) := by
    intro u hu
    have hge : ∀ b ∈ u, 128 ≤ b.toNat := fun b hb => by
      have h := of_decide_eq_false (hu b hb)
      omega
    refine iff_of_false (fun h => ?_) (fun h => ?_)
    · have h128 := d.decode_wide u hge c h
      omega
    · have h128 := hge _ h
      omega
  induction u using induction_at (fun b : UInt8 => decide (b.toNat < 128)) with
  | line u hu => exact hwide u hu
  | cut u b l hu hb ih =>
      have hhere : c = Char.ofNat b.toNat ↔ UInt8.ofNat c.toNat = b := by
        constructor
        · rintro rfl
          rw [toNat_ofNat_byte, UInt8.ofNat_toNat]
        · rintro rfl
          rw [hbyte, Char.ofNat_toNat]
      rw [d.decode_ascii u b l (of_decide_eq_true hb), List.mem_append, List.mem_append,
        List.mem_cons, List.mem_cons]
      exact or_congr (hwide u hu) (or_congr hhere ih)

/-- **Which escapes** there are for an ASCII character. -/
theorem escaped_mem_marked_iff {c : Char} (hc : c.toNat < 128) :
    ∀ (syms : List Encoded) (run : List UInt8), (c, true) ∈ marked d run syms
      ↔ UInt8.ofNat c.toNat ∈ run ∨ .octet (UInt8.ofNat c.toNat) ∈ syms := by
  have hdecode : ∀ run, (c, true) ∈ (d.decode run).map (fun c => (c, true))
      ↔ UInt8.ofNat c.toNat ∈ run := by
    intro run
    rw [← mem_decode_iff d hc]
    simp
  intro syms
  induction syms with
  | nil =>
      intro run
      rw [marked, hdecode]
      simp
  | cons x syms ih =>
      intro run
      cases x with
      | octet b =>
          rw [marked, ih, List.mem_append, List.mem_singleton, List.mem_cons, or_assoc]
          simp
      | char c' =>
          rw [marked, List.mem_append, hdecode, List.mem_cons, ih, List.mem_cons]
          simp

theorem rawMarks_sep_eq_false {syms : List Encoded} (h : ∀ x ∈ syms, encodedMarks.sep x = false) :
    ∀ x ∈ marked d [] syms, rawMarks.sep x = false := by
  rintro ⟨c, e⟩ hx
  cases e with
  | true => rfl
  | false => exact h _ (char_mem_of_mem_marked d hx)

theorem rawMarks_eq_eq_false {syms : List Encoded} (h : ∀ x ∈ syms, encodedMarks.eq x = false) :
    ∀ x ∈ marked d [] syms, rawMarks.eq x = false := by
  rintro ⟨c, e⟩ hx
  cases e with
  | true => rfl
  | false => exact h _ (char_mem_of_mem_marked d hx)

/-- A name and a value end where they did in the encoded text. -/
theorem name_value_marked (syms : List Encoded) :
    rawMarks.name (marked d [] syms) = marked d [] (encodedMarks.name syms)
      ∧ rawMarks.value (marked d [] syms) = marked d [] (encodedMarks.value syms) := by
  rcases FormMarks.part_cases encodedMarks syms with hnone | ⟨u, x, v, rfl, hu, hx⟩
  · have hno := rawMarks_eq_eq_false d hnone
    rw [FormMarks.name_of_forall hnone, FormMarks.value_of_forall hnone,
      FormMarks.name_of_forall hno, FormMarks.value_of_forall hno, marked_nil]
    exact ⟨rfl, rfl⟩
  · cases x with
    | octet b => exact absurd hx Bool.false_ne_true
    | char c =>
        have hno := rawMarks_eq_eq_false d hu
        have heq : rawMarks.eq (c, false) = true := hx
        rw [marked_append_char, FormMarks.name_append_cons hu hx,
          FormMarks.value_append_cons hu hx, FormMarks.name_append_cons hno heq,
          FormMarks.value_append_cons hno heq]
        exact ⟨rfl, rfl⟩

/-- A run of escapes begins with an escaped character. -/
theorem marked_run {run : List UInt8} (hrun : run ≠ []) :
    ∀ (syms : List Encoded), ∃ c l, marked d run syms = (c, true) :: l := by
  have hdecode : ∀ {run : List UInt8}, run ≠ [] → ∃ c l, d.decode run = c :: l := by
    intro run hrun
    have hlen := d.decode_length run
    cases h : d.decode run with
    | nil =>
        rw [h] at hlen
        exact absurd (List.eq_nil_of_length_eq_zero (Nat.le_zero.mp hlen)) hrun
    | cons c l => exact ⟨c, l, rfl⟩
  intro syms
  induction syms generalizing run with
  | nil =>
      obtain ⟨c, l, h⟩ := hdecode hrun
      exact ⟨c, _, by rw [marked, h, List.map_cons]⟩
  | cons x syms ih =>
      cases x with
      | octet b => exact ih (by simp)
      | char c' =>
          obtain ⟨c, l, h⟩ := hdecode hrun
          exact ⟨c, _, by rw [marked, h, List.map_cons, List.cons_append]⟩

theorem marked_octet (b : UInt8) (syms : List Encoded) :
    ∃ c l, marked d [] (.octet b :: syms) = (c, true) :: l :=
  marked_run d (List.cons_ne_nil b []) syms

/-- Skipping and decoding commute: what is escaped is not skipped. -/
theorem skip_marked (syms : List Encoded) :
    rawMarks.skip (marked d [] syms) = marked d [] (encodedMarks.skip syms) := by
  induction syms with
  | nil =>
      have hnil : encodedMarks.skip [] = [] := rfl
      rw [hnil, marked_nil]
      rfl
  | cons x syms ih =>
      cases x with
      | octet b =>
          have hno : encodedMarks.eq (.octet b) = false := rfl
          obtain ⟨c, l, h⟩ := marked_octet d b syms
          rw [FormMarks.skip_cons hno, h, FormMarks.skip_cons rfl]
      | char c =>
          cases hq : charMarks.eq c with
          | true =>
              have hq' : encodedMarks.eq (.char c) = true := hq
              have hraw : rawMarks.eq (c, false) = true := hq
              rw [marked_char, FormMarks.skip_cons_eq hraw, FormMarks.skip_cons_eq hq', ih]
          | false =>
              have hq' : encodedMarks.eq (.char c) = false := hq
              have hraw : rawMarks.eq (c, false) = false := hq
              rw [FormMarks.skip_cons hq', marked_char, FormMarks.skip_cons hraw]

theorem splitOnP_marked (syms : List Encoded) :
    (marked d [] syms).splitOnP rawMarks.sep
      = (syms.splitOnP encodedMarks.sep).map (marked d []) := by
  induction syms using induction_at encodedMarks.sep with
  | line syms h =>
      rw [List.splitOnP_eq_singleton h,
        List.splitOnP_eq_singleton (rawMarks_sep_eq_false d h)]
      rfl
  | cut u x l hu hx ih =>
      cases x with
      | octet b => exact absurd hx Bool.false_ne_true
      | char c =>
          rw [marked_append_char, List.splitOnP_append_cons_of_forall_mem hu _ hx,
            List.splitOnP_append_cons_of_forall_mem (rawMarks_sep_eq_false d hu) (c, false) hx, ih]
          rfl

/-- **The fields of the decoded text** are those of the encoded one, decoded. -/
theorem fields_marked (syms : List Encoded) :
    rawMarks.fields (marked d [] syms)
      = (encodedMarks.fields syms).map (Prod.map (marked d []) (marked d [])) := by
  have hempty : ((fun part : List (Char × Bool) => !part.isEmpty) ∘ marked d [])
      = fun part => !part.isEmpty := by
    funext part
    rw [Function.comp_apply]
    cases part with
    | nil => rw [marked_nil]; rfl
    | cons x part =>
        cases x with
        | char c => rw [marked_char]; rfl
        | octet b =>
            obtain ⟨c, l, h⟩ := marked_octet d b part
            rw [h]
            rfl
  have hskip : rawMarks.skip ∘ marked d [] = marked d [] ∘ encodedMarks.skip :=
    funext (skip_marked d)
  unfold FormMarks.fields FormMarks.parts
  rw [splitOnP_marked, List.map_map, hskip, ← List.map_map, List.filter_map, hempty,
    List.map_map, List.map_map]
  apply List.map_congr_left
  intro part _
  exact Prod.ext (name_value_marked d part).1 (name_value_marked d part).2

/-! ## §5. What is assumed of the decoder elsewhere. -/

theorem decodeComponent_plain {s : JString} (hpercent : '%' ∉ s) (hplus : '+' ∉ s) :
    decodeComponent d s = some s := by
  unfold decodeComponent
  rw [encoded_plain hpercent, Option.map_some, marked_plain, List.map_map]
  congr 1
  refine (List.map_congr_left (fun c hc => ?_)).trans (List.map_id s)
  have hc' : c ≠ '+' := by
    rintro rfl
    exact hplus hc
  simp [readPlus, hc']

theorem decodeField_eq_some_iff (part : JString) (field : JString × JString) :
    decodeField d part = some field
      ↔ decodeComponent d (partName part) = some field.1
        ∧ decodeComponent d (partValue part) = some field.2 := by
  unfold decodeField
  cases decodeComponent d (partName part) with
  | none => simp
  | some name =>
      cases decodeComponent d (partValue part) with
      | none => simp
      | some value => simp [Prod.ext_iff]

/-- The parameters are those of the parts of which something is left. -/
theorem mem_decodeParams_iff {query : JString} {fields : List (JString × JString)}
    (h : decodeParams d query = some fields) (field : JString × JString) :
    field ∈ fields ↔ ∃ part ∈ queryParts query, part ≠ [] ∧ decodeField d part = some field := by
  have hmap := (mapM_eq_some_iff _ _ _).mp h
  have hmem : field ∈ fields ↔ some field ∈ fields.map some := by simp
  rw [hmem, ← hmap, List.mem_map]
  constructor
  · rintro ⟨part, hpart, hfield⟩
    obtain ⟨hpart, hne⟩ := List.mem_filter.mp hpart
    exact ⟨part, hpart, by simpa using hne, hfield⟩
  · rintro ⟨part, hpart, hne, hfield⟩
    exact ⟨part, List.mem_filter.mpr ⟨hpart, by simpa using hne⟩, hfield⟩

theorem decodeParams_isSome_iff (query : JString) :
    (decodeParams d query).isSome ↔ ∀ part ∈ queryParts query, (decodeField d part).isSome := by
  constructor
  · intro h part hpart
    obtain ⟨fields, hfields⟩ := Option.isSome_iff_exists.mp h
    by_cases hne : part = []
    · have hnil : decodeComponent d [] = some [] := decodeComponent_plain d (by simp) (by simp)
      rw [hne, (decodeField_eq_some_iff d [] ([], [])).mpr ⟨hnil, hnil⟩]
      rfl
    · have hmem : decodeField d part ∈ fields.map some := by
        rw [← (mapM_eq_some_iff _ _ _).mp hfields]
        exact List.mem_map_of_mem (List.mem_filter.mpr ⟨hpart, by simpa using hne⟩)
      obtain ⟨field, _, hfield⟩ := List.mem_map.mp hmem
      rw [← hfield]
      rfl
  · intro h
    have hall : decodeParams d query
        = some (((queryParts query).filter (fun part => !part.isEmpty)).map
          (fun part => (decodeField d part).getD ([], []))) := by
      refine (mapM_eq_some_iff _ _ _).mpr ?_
      rw [List.map_map]
      apply List.map_congr_left
      intro part hpart
      obtain ⟨field, hfield⟩ := Option.isSome_iff_exists.mp (h part (List.mem_of_mem_filter hpart))
      rw [Function.comp_apply, hfield, Option.getD_some]
    rw [hall]
    rfl

theorem decodeField_isSome_iff (part : JString) :
    (decodeField d part).isSome
      ↔ decodeComponent d (partName part) ≠ none ∧ decodeComponent d (partValue part) ≠ none := by
  unfold decodeField
  cases decodeComponent d (partName part) with
  | none => simp
  | some name => cases decodeComponent d (partValue part) <;> simp

/-- The decoder is one `get_play_mode` can be asked with. -/
def queryStringDecoder : QueryStringDecoder where
  parameters := fun query =>
    match decodeParams d query with
    | none => .error .illegalArgument
    | some fields => .ok (fields.map (fun field => (field.1, [field.2])))
  decodeComponent := decodeComponent d
  decode_plain := fun _ => decodeComponent_plain d
  returns := by
    intro query _
    have hall := decodeParams_isSome_iff d query
    simp only [decodeField_isSome_iff] at hall
    rw [← hall]
    cases decodeParams d query <;> simp
  names := by
    intro query attributes _ hattributes name hname
    cases hfields : decodeParams d query with
    | none =>
        rw [hfields] at hattributes
        exact absurd hattributes (by simp)
    | some fields =>
        rw [hfields] at hattributes
        rw [← Except.ok.inj hattributes]
        constructor
        · rintro ⟨values, hmem, _⟩
          obtain ⟨field, hfield, heq⟩ := List.mem_map.mp hmem
          obtain ⟨part, hpart, _, hdecode⟩ := (mem_decodeParams_iff d hfields field).mp hfield
          refine ⟨part, hpart, ?_⟩
          rw [((decodeField_eq_some_iff d part field).mp hdecode).1, (Prod.mk.inj heq).1]
        · rintro ⟨part, hpart, hdecode⟩
          have hne : part ≠ [] := by
            rintro rfl
            have hnil : decodeComponent d [] = some [] :=
              decodeComponent_plain d (by simp) (by simp)
            exact hname (Option.some.inj (hdecode.symm.trans hnil))
          have hsome : (decodeParams d query).isSome := by rw [hfields]; rfl
          obtain ⟨field, hfield⟩ := Option.isSome_iff_exists.mp
            ((decodeParams_isSome_iff d query).mp hsome part hpart)
          have hfirst := ((decodeField_eq_some_iff d part field).mp hfield).1
          refine ⟨[field.2], List.mem_map.mpr ⟨field, ?_, ?_⟩, List.cons_ne_nil _ _⟩
          · exact (mem_decodeParams_iff d hfields field).mpr ⟨part, hpart, hne, hfield⟩
          · rw [Option.some.inj (hdecode.symm.trans hfirst)]

/-- A name that is not empty is there when it has values. -/
theorem hasName_iff_valuesOf {query : JString} {fields : List (JString × JString)}
    (hfew : WithinLimit query) (h : decodeParams d query = some fields) {name : JString}
    (hname : name ≠ []) :
    HasName (queryStringDecoder d) query name ↔ valuesOf fields name ≠ [] := by
  have hparameters : (queryStringDecoder d).parameters query
      = .ok (fields.map (fun field => (field.1, [field.2]))) := by
    show (match decodeParams d query with
      | none => _
      | some fields => _) = _
    rw [h]
  unfold HasName
  rw [← (queryStringDecoder d).names query _ hfew hparameters name hname, valuesOf_ne_nil_iff]
  constructor
  · rintro ⟨values, hmem, _⟩
    obtain ⟨field, hfield, heq⟩ := List.mem_map.mp hmem
    exact ⟨field, hfield, (Prod.mk.inj heq).1⟩
  · rintro ⟨field, hfield, rfl⟩
    exact ⟨[field.2], List.mem_map.mpr ⟨field, hfield, rfl⟩, List.cons_ne_nil _ _⟩

end Fields

/-- **The parameter map decides** whether `get_play_mode` finds a play mode. -/
theorem dispatches_iff_parameters (lib : UrlLibrary) {url : JString}
    (hfew : WithinLimit (urlQuery url)) :
    Dispatches (queryStringDecoder lib.toEscapeDecoder) (urlQuery url)
      ↔ ∃ values, lib.parameters url = some values
          ∧ (values "playseek".toList ≠ []
            ∨ (values "playbackbegin".toList ≠ [] ∧ values "playbackend".toList ≠ [])) := by
  have hdecodable : Decodable (queryStringDecoder lib.toEscapeDecoder) (urlQuery url)
      ↔ (decodeParams lib.toEscapeDecoder (urlQuery url)).isSome := by
    rw [decodeParams_isSome_iff]
    simp only [decodeField_isSome_iff]
    rfl
  rw [dispatches_iff _ hfew, hdecodable, lib.decodes_once url hfew]
  cases hfields : decodeParams lib.toEscapeDecoder (urlQuery url) with
  | none => simp
  | some fields =>
      have hname : ∀ name : JString, name ≠ [] →
          (HasName (queryStringDecoder lib.toEscapeDecoder) (urlQuery url) name
            ↔ valuesOf fields name ≠ []) :=
        fun name hne => hasName_iff_valuesOf _ hfew hfields hne
      rw [hname _ (by decide), hname _ (by decide), hname _ (by decide)]
      simp only [Option.map_some, Option.isSome_some, true_and, Option.some.injEq,
        exists_eq_left']

end NginxNettyHls.M3u8Filter
