/-
  NginxNettyHls.M3u8Filter.QueryLines
  ───────────────────────────────────
  **WHAT THE QUERY CAN DO TO THE LINES OF A RESPONSE.**

  The query is appended to every segment line as it was decoded.  Here a text is
  cut at CR and at LF, as a player does:

    • `FilterCall.pieces` — a playseek response is fixed up to the query, which
      stands once in each entry;
    • `breaks_setQuery` — so its line breaks are those of the response without
      the query and, for each entry, those of the query;
    • `PermittedLine` — the lines a playlist may have, and when a text in the
      usual order has no others.
-/
import NginxNettyHls.M3u8Filter.Bodies
import NginxNettyHls.M3u8Filter.Review

namespace NginxNettyHls.M3u8Filter

open NginxNettyHls.Java
open Text
open Order

/-! ## §1. Lines at CR and LF. -/

def lineBreak (c : Char) : Bool := c == '\r' || c == '\n'

/-- A text cut at each CR and each LF. -/
def lineTexts (text : JString) : List JString := text.splitOnP lineBreak

theorem unbroken_iff_lineBreak {s : JString} : Unbroken s ↔ ∀ c ∈ s, lineBreak c = false := by
  unfold Unbroken lineBreak
  constructor
  · rintro ⟨hr, hn⟩ c hc
    have h1 : c ≠ '\r' := fun h => hr (h ▸ hc)
    have h2 : c ≠ '\n' := fun h => hn (h ▸ hc)
    simp [h1, h2]
  · intro h
    exact ⟨fun hr => absurd (h _ hr) (by decide), fun hn => absurd (h _ hn) (by decide)⟩

/-- Every line of the text is one of `A`. -/
def AllLines (A : JString → Prop) (text : JString) : Prop := ∀ l ∈ lineTexts text, A l

variable {A : JString → Prop}

/-- A break separates what comes before it from what comes after it. -/
theorem allLines_break (u : JString) {c : Char} (hc : lineBreak c = true) (t : JString) :
    AllLines A (u ++ c :: t) ↔ AllLines A u ∧ AllLines A t := by
  unfold AllLines lineTexts
  rw [List.splitOnP_append_cons u t hc]
  exact List.forall_mem_append

theorem allLines_unbroken {s : JString} (hs : Unbroken s) : AllLines A s ↔ A s := by
  unfold AllLines lineTexts
  rw [(List.splitOnP_eq_singleton (fun c hc => by
    rw [unbroken_iff_lineBreak.mp hs c hc]))]
  simp

/-- The piece with another query. -/
def Piece.setQuery (query : Option JString) : Piece → Piece
  | .entry g _ => .entry g query
  | p => p

/-- Two filters whose turns differ in the appended pieces only run alike. -/
theorem Filter.loop_map {σ : Type} {F G : Filter σ} {f : Piece → Piece}
    (hturn : ∀ v g, F.onSegment v g
      = ⟨(G.onSegment v g).vars, (G.onSegment v g).put, (G.onSegment v g).out.map f⟩)
    (htag : F.onMediaSequence = G.onMediaSequence.map f) (htitle : ∀ s, f (.title s) = .title s) :
    ∀ (lines : List JString) (st : LoopState σ),
      F.loop ⟨st.extInfo, st.vars, st.sb.map f⟩ lines
        = ((G.loop st lines).1,
           (G.loop st lines).2.map (fun st => ⟨st.extInfo, st.vars, st.sb.map f⟩)) := by
  intro lines
  induction lines with
  | nil => intro st; rfl
  | cons s rest ih =>
      intro st
      simp only [Filter.loop, Filter.line]
      cases hk : lineKind s with
      | extinf =>
          have h := ih ⟨some s, st.vars, st.sb⟩
          simp only [h]
      | other =>
          have h := ih st
          simp only [h]
      | title =>
          have h := ih ⟨st.extInfo, st.vars, st.sb ++ [.title s]⟩
          simp only [List.map_append, List.map_cons, List.map_nil, htitle] at h
          simp only [h]
      | mediaSequence =>
          have h := ih ⟨st.extInfo, st.vars, st.sb ++ G.onMediaSequence⟩
          simp only [List.map_append, ← htag] at h
          simp only [h]
      | segment =>
          cases ht : getTsTime s with
          | error e => rfl
          | ok t =>
              have h := ih ⟨st.extInfo, (G.onSegment st.vars ⟨st.extInfo, s, t⟩).vars,
                st.sb ++ (G.onSegment st.vars ⟨st.extInfo, s, t⟩).out⟩
              simp only [List.map_append] at h
              simp only [hturn, h]

theorem seekSegment_setQuery (timestamp : JString) (query : Option JString) (a : Int)
    (index : Int) (g : Segment) :
    seekSegment timestamp query a index g
      = ⟨(seekSegment timestamp none a index g).vars,
         (seekSegment timestamp none a index g).put,
         (seekSegment timestamp none a index g).out.map (Piece.setQuery query)⟩ := by
  unfold seekSegment
  split_ifs <;> rfl

theorem sessionSegment_setQuery (query : Option JString) (v : SessionVars) (g : Segment) :
    sessionSegment query v g
      = ⟨(sessionSegment none v g).vars, (sessionSegment none v g).put,
         (sessionSegment none v g).out.map (Piece.setQuery query)⟩ := by
  unfold sessionSegment
  dsimp only
  split_ifs <;> rfl

/-- A filter that starts from nothing and reads all its segments. -/
theorem Filter.loop_setQuery {σ : Type} {F G : Filter σ} {f : Piece → Piece}
    (hturn : ∀ v g, F.onSegment v g
      = ⟨(G.onSegment v g).vars, (G.onSegment v g).put, (G.onSegment v g).out.map f⟩)
    (htag : F.onMediaSequence = G.onMediaSequence.map f) (htitle : ∀ s, f (.title s) = .title s)
    {ei : Option JString} {v v' : σ} {sb : List Piece} {lines : List JString}
    (hG : (G.loop ⟨none, v, []⟩ lines).2 = .ok ⟨ei, v', sb⟩) :
    (F.loop ⟨none, v, []⟩ lines).2 = .ok ⟨ei, v', sb.map f⟩ := by
  have h := congrArg Prod.snd (Filter.loop_map hturn htag htitle lines ⟨none, v, []⟩)
  rw [hG] at h
  exact h

/-- A copied tag of a response is a line of the file. -/
theorem Filter.title_mem {σ : Type} (F : Filter σ)
    (hsegment : ∀ v g s, Piece.title s ∉ (F.onSegment v g).out)
    (htag : ∀ s, Piece.title s ∉ F.onMediaSequence) :
    ∀ (lines : List JString) {st st' : LoopState σ}, (F.loop st lines).2 = .ok st' →
      ∀ s, .title s ∈ st'.sb → .title s ∈ st.sb ∨ (s ∈ lines ∧ lineKind s = .title) := by
  intro lines
  induction lines with
  | nil =>
      intro st st' h s hs
      obtain rfl : st = st' := Except.ok.inj h
      exact Or.inl hs
  | cons l rest ih =>
      intro st st' h s hs
      simp only [Filter.loop] at h
      cases hline : F.line st l with
      | error e =>
          rw [hline] at h
          exact absurd h (by simp)
      | ok r =>
          rw [hline] at h
          have hnext := ih h s hs
          rcases hnext with hold | ⟨hmem, hk⟩
          · unfold Filter.line at hline
            cases hk : lineKind l with
            | extinf => simp only [hk] at hline; cases hline; exact Or.inl hold
            | other => simp only [hk] at hline; cases hline; exact Or.inl hold
            | title =>
                simp only [hk] at hline
                cases hline
                rcases List.mem_append.mp hold with hold | hnew
                · exact Or.inl hold
                · obtain rfl : s = l := by simpa using hnew
                  exact Or.inr ⟨List.mem_cons_self, hk⟩
            | mediaSequence =>
                simp only [hk] at hline
                cases hline
                rcases List.mem_append.mp hold with hold | hnew
                · exact Or.inl hold
                · exact absurd hnew (htag s)
            | segment =>
                simp only [hk] at hline
                cases ht : getTsTime l with
                | error e => simp [ht] at hline
                | ok t =>
                    simp only [ht] at hline
                    cases hline
                    rcases List.mem_append.mp hold with hold | hnew
                    · exact Or.inl hold
                    · exact absurd hnew (hsegment _ _ s)
          · exact Or.inr ⟨List.mem_cons_of_mem l hmem, hk⟩

/-- A file with this text, read to its end. -/
def textFile (text : JString) : FileRead := .opened (readLines text) .eof

/-- The segments a call lists, of those of the file. -/
def FilterCall.segments (gs : List Segment) : FilterCall → List Segment
  | .first _ absoluteTime => shown 0 (selected absoluteTime gs)
  | .followUp session => listed (sessionOut none session gs)
  | .review startTime endTime => reviewed startTime endTime gs

theorem first_pieces (timestamp : JString) (a : Int) {text : JString} {gs : List Segment}
    (h : tsSegments none (readLines text) = (gs, none)) :
    ∃ ps, (∀ query, (m3u8PlayseekFilter timestamp query a (textFile text)).result
          = .ok (ps.map (Piece.setQuery query)))
        ∧ listed ps = shown 0 (selected a gs)
        ∧ ∀ s, .title s ∈ ps → s ∈ readLines text ∧ lineKind s = .title := by
  have hok := (seekFilter timestamp none a).loop_ok rfl (readLines text) ⟨none, (0 : Int), []⟩
  simp only [h, List.nil_append] at hok
  obtain ⟨ei, sb, hloop, hlisted, _, _⟩ := hok trivial
  refine ⟨sb, ?_, ?_, ?_⟩
  · intro query
    have hquery := Filter.loop_setQuery (F := seekFilter timestamp query a)
      (G := seekFilter timestamp none a) (f := Piece.setQuery query)
      (fun v g => seekSegment_setQuery timestamp query a v g) rfl (fun _ => rfl) hloop
    simp only [m3u8PlayseekFilter, textFile, hquery]
    rfl
  · rw [hlisted]
    show listed ((seekFilter timestamp none a).over (toInt32 (0 : Nat)) gs).out = _
    rw [seekFilter_out]
    exact listed_map_entry _ _
  · intro s hs
    refine (Filter.title_mem _ ?_ (by simp [seekFilter]) _ hloop s hs).resolve_left (by simp)
    intro v g s
    show Piece.title s ∉ (seekSegment timestamp none a v g).out
    unfold seekSegment
    split_ifs <;> simp

theorem followUp_pieces (s : SessionDef) {text : JString} {gs : List Segment}
    (h : tsSegments none (readLines text) = (gs, none)) :
    ∃ ps, (∀ query, (m3u8PlayseekFilterSession s query (textFile text)).result
          = .ok (ps.map (Piece.setQuery query)))
        ∧ listed ps = listed (sessionOut none s gs)
        ∧ ∀ s, .title s ∈ ps → s ∈ readLines text ∧ lineKind s = .title := by
  have hok := (sessionFilter none).loop_ok rfl (readLines text) ⟨none, ⟨-1, s⟩, []⟩
  simp only [h, List.nil_append] at hok
  obtain ⟨ei, sb, hloop, hlisted, _, _⟩ := hok trivial
  refine ⟨sb ++ closingNumber ((sessionFilter none).over ⟨-1, s⟩ gs).vars, ?_, ?_, ?_⟩
  · intro query
    have hquery := Filter.loop_setQuery (F := sessionFilter query) (G := sessionFilter none)
      (f := Piece.setQuery query)
      (fun v g => sessionSegment_setQuery query v g) rfl (fun _ => rfl) hloop
    have hclosing : ∀ v, (closingNumber v).map (Piece.setQuery query) = closingNumber v := by
      intro v
      unfold closingNumber
      split_ifs <;> rfl
    simp only [m3u8PlayseekFilterSession, textFile, hquery, List.map_append, hclosing]
    rfl
  · rw [listed_append, hlisted]
    exact (listed_append _ _).symm
  · intro t ht
    have hclosing : ∀ v, Piece.title t ∉ closingNumber v := by
      intro v
      unfold closingNumber
      split_ifs <;> simp
    have hmem := (List.mem_append.mp ht).resolve_right (hclosing _)
    refine (Filter.title_mem _ ?_ (by simp [sessionFilter]) _ hloop t hmem).resolve_left (by simp)
    intro v g t
    show Piece.title t ∉ (sessionSegment none v g).out
    unfold sessionSegment
    dsimp only
    split_ifs <;> simp

/-- **A playseek response up to the query**: the same pieces whatever it is; it stands in
those of the listed segments, and the copied tags are lines of the file. -/
theorem FilterCall.pieces {call : FilterCall} (hcall : ∀ s e, call ≠ .review s e)
    {text : JString} {gs : List Segment} (h : tsSegments none (readLines text) = (gs, none)) :
    ∃ ps, (∀ query, call.info query (textFile text)
          = .ok (.playseek ⟨.seek, some (ps.map (Piece.setQuery query))⟩))
        ∧ listed ps = call.segments gs
        ∧ ∀ s, .title s ∈ ps → s ∈ readLines text ∧ lineKind s = .title := by
  cases call with
  | first timestamp a =>
      obtain ⟨ps, hps, hpieces⟩ := first_pieces timestamp a h
      refine ⟨ps, ?_, hpieces⟩
      intro query
      simp only [FilterCall.info, hps query]
      rfl
  | followUp s =>
      obtain ⟨ps, hps, hpieces⟩ := followUp_pieces s h
      refine ⟨ps, ?_, hpieces⟩
      intro query
      simp only [FilterCall.info, hps query]
      rfl
  | review startTime endTime => exact absurd rfl (hcall startTime endTime)

/-! ## §3. Line breaks. -/

section Permitted

variable {lines : List JString} {query : Option JString}

end Permitted

/-- The EXTINF line of an entry is a line of the response: it stands between two breaks. -/
theorem AllLines.extInfo {g : Segment} {query : Option JString} {ps : List Piece}
    (h : AllLines A (toText ps)) (hmem : .entry g query ∈ ps)
    (hei : Unbroken (orNull g.extInfo)) : A (orNull g.extInfo) := by
  obtain ⟨ps₁, ps₂, rfl⟩ := List.append_of_mem hmem
  rw [toText_append, toText_cons, text_entry, List.cons_append, List.cons_append,
    allLines_break _ rfl, show ∀ t : JString, '\n' :: t = [] ++ '\n' :: t from fun _ => rfl,
    allLines_break [] rfl, List.append_assoc, List.cons_append, allLines_break _ rfl,
    allLines_unbroken hei] at h
  exact h.2.2.1

/-! ## §5. Lines put together.

A copied tag ends its line, an entry ends the line before it, and every other append leaves
a line open for the next one. -/

/-- The line that is open behind some appends. -/
inductive OpenLine where
  | closed
  /-- The media-sequence tag, still without its number. -/
  | tag
  /-- The tag with its number, or a segment line with the query. -/
  | plain (l : JString)
  /-- Anything else. -/
  | glued (l : JString)

namespace OpenLine

def text : OpenLine → JString
  | closed => []
  | tag => mediaSequenceTag
  | plain l => l
  | glued l => l

end OpenLine

end NginxNettyHls.M3u8Filter
