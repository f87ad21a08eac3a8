/-
  NginxNettyHls.M3u8Filter.QueryString
  ────────────────────────────────────
  **WHICH REQUESTS `get_play_mode` RECOGNISES.**

  The parameters come from Netty's `QueryStringDecoder`.  It is a parameter here
  (`QueryStringDecoder`), with what is assumed of it: the query is cut at `&` and
  at `;`, a `=` at the beginning of a part is skipped, what stands before the next
  one is the name, names and values are percent-decoded and a malformed escape
  throws.  It stops after 1024 parameters, so this is assumed of queries with at
  most as many parts.

    • `urlDecoder` — such a decoder;
    • `dispatches_iff` — a play mode is found exactly when every part can be
      decoded and `playseek`, or both review bounds, are among the names.
-/
import NginxNettyHls.M3u8Filter.Channel
import NginxNettyHls.Text.Utf8

namespace NginxNettyHls.M3u8Filter

open NginxNettyHls.Java
open Text

/-! ## §1. The decoder. -/

/-- The parts of a query, without the `=` they begin with. -/
def queryParts (query : JString) : List JString :=
  (query.splitOnP (fun c => c == '&' || c == ';')).map (List.dropWhile (fun c => c == '='))

def partName (part : JString) : JString := part.takeWhile (fun c => c != '=')

/-- What follows the first `=`; empty for a part that has none. -/
def partValue (part : JString) : JString := (part.dropWhile (fun c => c != '=')).drop 1

/-- The parameters a `QueryStringDecoder` reads at most: its `DEFAULT_MAX_PARAMS`. -/
def defaultMaxParams : Nat := 1024

/-- The decoder comes to the end of the query. -/
def WithinLimit (query : JString) : Prop := (queryParts query).length ≤ defaultMaxParams

instance (query : JString) : Decidable (WithinLimit query) :=
  inferInstanceAs (Decidable ((queryParts query).length ≤ defaultMaxParams))

/-- `QueryStringDecoder`: its `parameters`, its decoding of one name or value (`none` where
it throws), and what is assumed of them for the queries it reads to their end. -/
structure QueryStringDecoder where
  parameters : JString → Except Exn (List (JString × List JString))
  decodeComponent : JString → Option JString
  decode_plain : ∀ s, '%' ∉ s → '+' ∉ s → decodeComponent s = some s
  returns : ∀ query, WithinLimit query →
    ((∃ attributes, parameters query = .ok attributes)
      ↔ ∀ part ∈ queryParts query,
          decodeComponent (partName part) ≠ none ∧ decodeComponent (partValue part) ≠ none)
  names : ∀ query attributes, WithinLimit query → parameters query = .ok attributes →
    ∀ name, name ≠ [] →
    ((∃ values, (name, values) ∈ attributes ∧ values ≠ [])
      ↔ ∃ part ∈ queryParts query, decodeComponent (partName part) = some name)

/-! ## §2. One that decodes as UTF-8. -/

def hexDigit (c : Char) : Option Nat :=
  if '0' ≤ c ∧ c ≤ '9' then some (c.toNat - 48)
  else if 'a' ≤ c ∧ c ≤ 'f' then some (c.toNat - 87)
  else if 'A' ≤ c ∧ c ≤ 'F' then some (c.toNat - 55)
  else none

/-- The bytes behind an encoded text; `none` where an escape is malformed. -/
def unescape : JString → Option (List UInt8)
  | [] => some []
  | c :: rest =>
      if c = '%' then
        match rest with
        | h :: l :: rest' =>
            match hexDigit h, hexDigit l, unescape rest' with
            | some h, some l, some bytes => some (UInt8.ofNat (16 * h + l) :: bytes)
            | _, _, _ => none
        | _ => none
      else (unescape rest).map
        (fun bytes => (if c = '+' then [32] else String.utf8EncodeChar c) ++ bytes)

def urlDecode (s : JString) : Option JString :=
  (unescape s).bind (fun bytes => bytes.toByteArray.utf8Decode?.map Array.toList)

theorem unescape_plain :
    ∀ (s : JString), '%' ∉ s → '+' ∉ s → unescape s = some (utf8 s) := by
  intro s
  induction s with
  | nil => intro _ _; rfl
  | cons c s ih =>
      intro hpercent hplus
      rw [List.mem_cons, not_or] at hpercent hplus
      unfold unescape
      rw [if_neg (fun h => hpercent.1 h.symm), if_neg (fun h => hplus.1 h.symm),
        ih hpercent.2 hplus.2]
      rfl

theorem urlDecode_plain {s : JString} (hpercent : '%' ∉ s) (hplus : '+' ∉ s) :
    urlDecode s = some s := by
  unfold urlDecode
  rw [unescape_plain s hpercent hplus]
  show (List.utf8Encode s).utf8Decode?.map Array.toList = some s
  rw [List.utf8Decode?_utf8Encode]
  rfl

/-- Name and value of the part decode. -/
def decodes (part : JString) : Bool :=
  (urlDecode (partName part)).isSome && (urlDecode (partValue part)).isSome

/-- The parameters of the parts, in their order. -/
def urlParameters (query : JString) : Except Exn (List (JString × List JString)) :=
  if (queryParts query).all decodes then
    .ok ((queryParts query).map (fun part =>
      ((urlDecode (partName part)).getD [], [(urlDecode (partValue part)).getD []])))
  else .error .illegalArgument

def urlDecoder : QueryStringDecoder where
  parameters := urlParameters
  decodeComponent := urlDecode
  decode_plain := fun _ => urlDecode_plain
  returns := by
    intro query _
    unfold urlParameters
    rw [← show (queryParts query).all decodes = true
        ↔ ∀ part ∈ queryParts query,
            urlDecode (partName part) ≠ none ∧ urlDecode (partValue part) ≠ none by
      simp [decodes, Option.isSome_iff_ne_none]]
    split_ifs with h <;> simp [h]
  names := by
    intro query attributes _ hattributes name hname
    unfold urlParameters at hattributes
    split_ifs at hattributes with hall
    rw [← Except.ok.inj hattributes]
    have hsome : ∀ part ∈ queryParts query, ∃ n, urlDecode (partName part) = some n := by
      intro part hpart
      have h := List.all_eq_true.mp hall part hpart
      simp only [decodes, Bool.and_eq_true] at h
      exact Option.isSome_iff_exists.mp h.1
    constructor
    · rintro ⟨values, hmem, _⟩
      obtain ⟨part, hpart, heq⟩ := List.mem_map.mp hmem
      obtain ⟨n, hn⟩ := hsome part hpart
      refine ⟨part, hpart, ?_⟩
      rw [hn, Option.getD_some] at heq
      rw [hn, (Prod.mk.inj heq).1]
    · rintro ⟨part, hpart, hn⟩
      refine ⟨[(urlDecode (partValue part)).getD []], ?_, by simp⟩
      refine List.mem_map.mpr ⟨part, hpart, ?_⟩
      rw [hn]
      rfl

/-! ## §3. The play mode. -/

/-- After `parser` a name has a value exactly when the decoder has one for it. -/
theorem parser_isSome_iff (name : JString) (attributes : List (JString × List JString)) :
    (parser attributes name).isSome
      ↔ ∃ values, (name, values) ∈ attributes ∧ values ≠ [] := by
  -- the values of one name
  have hvalues : ∀ (values : List JString) (key : JString) (params : JString → Option JString),
      (values.foldl (fun params value => Function.update params key (some value)) params
          name).isSome
        ↔ (params name).isSome ∨ (key = name ∧ values ≠ []) := by
    intro values
    induction values with
    | nil => intro key params; simp
    | cons v values ih =>
        intro key params
        rw [List.foldl_cons, ih]
        by_cases hkey : key = name
        · rw [hkey, Function.update_self]
          simp
        · rw [Function.update_of_ne (fun h => hkey h.symm)]
          simp [hkey]
  -- the names one after the other
  have hnames : ∀ (attributes : List (JString × List JString)) (params : JString → Option JString),
      (attributes.foldl (fun params attr =>
          attr.2.foldl (fun params value => Function.update params attr.1 (some value)) params)
          params name).isSome
        ↔ (params name).isSome ∨ ∃ values, (name, values) ∈ attributes ∧ values ≠ [] := by
    intro attributes
    induction attributes with
    | nil => intro params; simp
    | cons attr attributes ih =>
        intro params
        rw [List.foldl_cons, ih, hvalues, or_assoc]
        apply or_congr_right
        constructor
        · intro h
          rcases h with ⟨hkey, hne⟩ | ⟨values, hmem, hne⟩
          · exact ⟨attr.2, by rw [← hkey]; exact List.mem_cons_self, hne⟩
          · exact ⟨values, List.mem_cons_of_mem attr hmem, hne⟩
        · rintro ⟨values, hmem, hne⟩
          rcases List.mem_cons.mp hmem with heq | hmem
          · left
            rw [← heq]
            exact ⟨rfl, hne⟩
          · exact Or.inr ⟨values, hmem, hne⟩
  unfold parser
  rw [hnames]
  simp

/-- `get_play_mode`, or what the decoder throws. -/
def getPlayModeOf (decoder : QueryStringDecoder) (query : JString) : Except Exn ServiceType :=
  (decoder.parameters query).map (fun attributes => getPlayMode ⟨none, parser attributes⟩)

/-- A play mode is found. -/
def Dispatches (decoder : QueryStringDecoder) (query : JString) : Prop :=
  getPlayModeOf decoder query = .ok .seek ∨ getPlayModeOf decoder query = .ok .review

/-- Every escape of the query is well formed. -/
def Decodable (decoder : QueryStringDecoder) (query : JString) : Prop :=
  ∀ part ∈ queryParts query,
    decoder.decodeComponent (partName part) ≠ none
      ∧ decoder.decodeComponent (partValue part) ≠ none

/-- A part has this name. -/
def HasName (decoder : QueryStringDecoder) (query name : JString) : Prop :=
  ∃ part ∈ queryParts query, decoder.decodeComponent (partName part) = some name

theorem getPlayMode_ne_none_iff (request : HttpRequest) :
    (getPlayMode request = .seek ∨ getPlayMode request = .review)
      ↔ (request.params "playseek".toList).isSome
        ∨ ((request.params "playbackbegin".toList).isSome
            ∧ (request.params "playbackend".toList).isSome) := by
  unfold getPlayMode
  split_ifs with hseek hreview
  · exact iff_of_true (Or.inl rfl) (Or.inl hseek)
  · rw [Bool.and_eq_true] at hreview
    exact iff_of_true (Or.inr rfl) (Or.inr hreview)
  · rw [Bool.and_eq_true] at hreview
    exact iff_of_false (by simp) (not_or.mpr ⟨hseek, hreview⟩)

/-- **When a play mode is found.** -/
theorem dispatches_iff (decoder : QueryStringDecoder) {query : JString}
    (hfew : WithinLimit query) :
    Dispatches decoder query
      ↔ Decodable decoder query
        ∧ (HasName decoder query "playseek".toList
          ∨ (HasName decoder query "playbackbegin".toList
              ∧ HasName decoder query "playbackend".toList)) := by
  have hreturns := decoder.returns query hfew
  unfold Dispatches getPlayModeOf
  cases hparams : decoder.parameters query with
  | error e =>
      rw [hparams] at hreturns
      have hbad : ¬ Decodable decoder query := fun h => by
        obtain ⟨attributes, hok⟩ := hreturns.mpr h
        exact absurd hok (by simp)
      simp [Except.map, hbad]
  | ok attributes =>
      have hgood : Decodable decoder query := hreturns.mp ⟨attributes, hparams⟩
      have hname := fun name hne =>
        (parser_isSome_iff name attributes).trans
          (decoder.names query attributes hfew hparams name hne)
      simp only [Except.map, Except.ok.injEq, hgood, true_and]
      rw [getPlayMode_ne_none_iff]
      dsimp only
      rw [hname _ (by decide), hname _ (by decide), hname _ (by decide)]
      rfl

end NginxNettyHls.M3u8Filter
