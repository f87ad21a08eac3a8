/-
  NginxNettyHls.Nginx.OutputRuns
  ──────────────────────────────
  **WHAT THE CLIENT HAS AFTER ANY NUMBER OF WRITE EVENTS.**

  The header and the playlist are `all`.  At every moment a part of `all` is on the
  wire and the rest in `r->out` (`Carried`); each filter keeps that (`Passed`), and so
  does each event (`OnTheWay.step`).

    • `wire_is_beginning` — nothing is lost, repeated or reordered;
    • `sent_in_full` — a socket that takes something at every event is sent all;
    • `playseek_refused_iff` — the playlist that is never sent is the empty one: its
      single buffer is a zero-size one, and the header is kept back with it.
-/
import NginxNettyHls.Nginx.OutputFilters

namespace NginxNettyHls.Nginx

open NginxNettyHls.Java
open NginxNettyHls.M3u8Filter
open Text

/-! ## §1. What a response carries. -/

/-- Of the bytes `all`, some are on the wire and the rest is in `r->out`. -/
structure Carried (all : Bytes) (s : Sending) : Prop where
  error : s.error = false
  clean : Clean s.out
  split : s.wire ++ flat s.out = all

/-- How a filter leaves a response that is not postponed. -/
inductive Passed (all : Bytes) : Sending × FilterRc → Prop where
  | failed {s : Sending} (beginning : s.wire <+: all) : Passed all (s, .error)
  | waits {s : Sending} (carried : Carried all s) (buffered : s.buffered = true)
      (more : flat s.out ≠ []) : Passed all (s, .again)
  | sent {s : Sending} (carried : Carried all s) (buffered : s.buffered = false)
      (none : s.out = []) : Passed all (s, .ok)

theorem Passed.failed_or {all : Bytes} {r : Sending × FilterRc} (h : Passed all r) :
    (r.2 = .error ∧ r.1.wire <+: all) ∨ (r.2 ≠ .error ∧ Carried all r.1) := by
  cases h with
  | failed hbeginning => exact .inl ⟨rfl, hbeginning⟩
  | waits hcarried => exact .inr ⟨by simp, hcarried⟩
  | sent hcarried => exact .inr ⟨by simp, hcarried⟩

section Filters

variable {all : Bytes} {s : Sending} {new : List OutBuf}

theorem Carried.beginning (h : Carried all s) : s.wire <+: all := ⟨flat s.out, h.split⟩

/-- The new buffers are put behind what is left. -/
theorem Carried.link (h : Carried all s) (hnew : Clean new) :
    Carried (all ++ flat new) { s with out := s.out ++ new } := by
  refine ⟨h.error, h.clean.append hnew, ?_⟩
  show s.wire ++ flat (s.out ++ new) = _
  rw [flat_append, ← List.append_assoc, h.split]

theorem passed_writeFilterSend (conf : OutputConf) (answer : SendAnswer) (h : Carried all s)
    (hne : flat s.out ≠ []) : Passed all (writeFilterSend conf answer s) := by
  have hsent := sent_sendChain conf answer h.clean hne
  have hbeginning : s.wire ++ (sendChain conf answer s.out).sent <+: all := by
    rw [← h.split]
    exact (List.prefix_append_right_inj _).mpr hsent.beginning
  unfold writeFilterSend
  dsimp only
  cases hchain : (sendChain conf answer s.out).chain with
  | none => exact .failed hbeginning
  | some chain =>
      have hsplit : s.wire ++ (sendChain conf answer s.out).sent ++ flat chain = all := by
        rw [List.append_assoc, hsent.split chain hchain, h.split]
      cases chain with
      | nil => exact .sent ⟨h.error, hsent.clean _ hchain, hsplit⟩ rfl rfl
      | cons b rest =>
          refine .waits ⟨h.error, hsent.clean _ hchain, hsplit⟩ rfl ?_
          intro hflat
          exact absurd (hsent.rest _ hchain hflat) (List.cons_ne_nil _ _)

/-- The output is kept back: no last buffer, no flush, something new and little of it. -/
def postponed (conf : OutputConf) (new out : List OutBuf) : Bool :=
  !out.any OutBuf.lastBuf && !out.any OutBuf.flush && !new.isEmpty
    && decide ((flat out).length < conf.postponeOutput)

/-- The write filter when there are bytes and no zero-size buffers. -/
theorem writeFilter_eq (conf : OutputConf) (answer : SendAnswer) (h : Carried all s)
    (hnew : Clean new) (hne : flat (s.out ++ new) ≠ []) :
    ngxHttpWriteFilter conf answer new s
      = if postponed conf new (s.out ++ new) then ({ s with out := s.out ++ new }, .ok)
        else if s.delayed then ({ s with out := s.out ++ new, buffered := true }, .again)
        else writeFilterSend conf answer { s with out := s.out ++ new } := by
  unfold ngxHttpWriteFilter
  dsimp only
  rw [if_neg (by rw [h.error]; decide), if_neg (by rw [h.clean.any_isZero]; decide),
    if_neg (by rw [hnew.any_isZero]; decide), if_neg hne]
  rfl

/-- **The write filter** when there are bytes, and either nothing new or the last buffer. -/
theorem passed_writeFilter (conf : OutputConf) (answer : SendAnswer) (h : Carried all s)
    (hnew : Clean new) (hne : flat (s.out ++ new) ≠ [])
    (hnow : new = [] ∨ ∃ b ∈ new, b.lastBuf = true) :
    Passed (all ++ flat new) (ngxHttpWriteFilter conf answer new s) := by
  have hlink := h.link hnew
  have hnot : postponed conf new (s.out ++ new) = false := by
    unfold postponed
    rcases hnow with hnil | ⟨b, hb, hlast⟩
    · rw [hnil]
      simp
    · have hany : (s.out ++ new).any OutBuf.lastBuf = true :=
        List.any_eq_true.mpr ⟨b, List.mem_append_right _ hb, hlast⟩
      rw [hany]
      rfl
  rw [writeFilter_eq conf answer h hnew hne, hnot, if_neg Bool.false_ne_true]
  by_cases hdelayed : s.delayed = true
  · rw [if_pos hdelayed]
    exact .waits ⟨h.error, hlink.clean, hlink.split⟩ rfl hne
  · rw [if_neg hdelayed]
    exact passed_writeFilterSend conf answer hlink hne

theorem carried_unsent : Carried [] unsent :=
  ⟨rfl, clean_nil, rfl⟩

theorem clean_header {header : Bytes} (hheader : header ≠ []) :
    Clean [OutBuf.temp header false false] := by
  intro b hb
  rw [List.mem_singleton.mp hb]
  simp [OutBuf.isZero, OutBuf.size, OutBuf.temp, hheader]

theorem flat_header_ne_nil {header : Bytes} (hheader : header ≠ []) :
    flat (unsent.out ++ [OutBuf.temp header false false]) ≠ [] := by
  intro hflat
  exact hheader ((List.append_nil header).symm.trans hflat)

/-- The header is carried, or the socket has failed. -/
theorem carried_sendHeader (conf : OutputConf) (answer : SendAnswer) (header : Bytes) :
    ((sendHeader conf answer header).2 = .error
        ∧ (sendHeader conf answer header).1.wire <+: header)
      ∨ ((sendHeader conf answer header).2 ≠ .error
        ∧ Carried header (sendHeader conf answer header).1) := by
  unfold sendHeader
  split_ifs with hheader
  · rw [hheader]
    exact .inr ⟨by simp, carried_unsent⟩
  · have hne := flat_header_ne_nil hheader
    have hlink := carried_unsent.link (clean_header hheader)
    rw [show flat [OutBuf.temp header false false] = header from List.append_nil header,
      List.nil_append] at hlink
    rw [writeFilter_eq conf answer carried_unsent (clean_header hheader) hne]
    split_ifs with hpostponed hdelayed
    · exact .inr ⟨by simp, hlink⟩
    · exact absurd hdelayed (by decide)
    · exact (passed_writeFilterSend conf answer hlink hne).failed_or

/-- A buffer that ends the response and has bytes. -/
def OutBuf.Ending (b : OutBuf) : Prop := b.bytes ≠ [] ∧ b.lastBuf = true

theorem OutBuf.Ending.not_isZero {b : OutBuf} (h : b.Ending) : b.isZero = false := by
  have hlength : (b.bytes.length == 0) = false := by
    rw [beq_eq_false_iff_ne]
    exact fun hzero => h.1 (List.length_eq_zero_iff.mp hzero)
  unfold OutBuf.isZero OutBuf.size
  rw [hlength, Bool.false_and]

theorem flat_ne_nil_of_mem {b : OutBuf} (hb : b ∈ new) (hbytes : b.bytes ≠ []) :
    flat new ≠ [] := by
  intro hflat
  exact hbytes (List.flatMap_eq_nil_iff.mp hflat b hb)

/-- What is passed on of a chain with an ending: all of its bytes and the ending. -/
theorem outputChain_ending (conf : OutputConf) (answer : SendAnswer) (busy : Bool) (s : Sending)
    {b : OutBuf} (hb : b ∈ new) (hend : b.Ending) :
    ∃ passed, Clean passed ∧ b ∈ passed ∧ flat passed = flat new
      ∧ ngxOutputChain conf answer busy new s = ngxHttpWriteFilter conf answer passed s := by
  have hkept : b ∈ new.filter (fun b => !b.isZero) :=
    List.mem_filter.mpr ⟨hb, by rw [hend.not_isZero]; rfl⟩
  unfold ngxOutputChain ngxHttpPostponeFilter
  by_cases hshort : busy = false ∧ new.length ≤ 1
  · -- the short path: the buffer is the only one
    have hone : new.length = 1 := Nat.le_antisymm hshort.2 (List.length_pos_of_mem hb)
    obtain ⟨c, rfl⟩ := List.length_eq_one_iff.mp hone
    obtain rfl := List.mem_singleton.mp hb
    refine ⟨[b], ?_, hb, rfl, ?_⟩
    · intro d hd
      rw [List.mem_singleton.mp hd]
      exact hend.not_isZero
    · rw [if_pos hshort, if_pos (.inl (List.ne_nil_of_mem hb))]
  · refine ⟨_, clean_filter new, hkept, flat_filter new, ?_⟩
    rw [if_neg hshort, if_pos (.inl (List.ne_nil_of_mem hkept))]

/-- Without new buffers the write filter goes on with what is left. -/
theorem outputChain_nil (conf : OutputConf) (answer : SendAnswer) (busy : Bool)
    (hbuffered : s.buffered = true) :
    ngxOutputChain conf answer busy [] s = ngxHttpWriteFilter conf answer [] s := by
  unfold ngxOutputChain
  rw [List.filter_nil, ite_self]
  unfold ngxHttpPostponeFilter
  rw [if_pos (.inr hbuffered)]

/-- What `ngx_http_output_filter` adds to the filters below it. -/
theorem Passed.outputFilter {r : Sending × FilterRc} (h : Passed all r) :
    Passed all (if r.2 = .error then ({ r.1 with error := true }, .error) else r) := by
  cases h with
  | failed hbeginning => exact .failed hbeginning
  | waits hcarried hbuffered hmore => exact .waits hcarried hbuffered hmore
  | sent hcarried hbuffered hnone => exact .sent hcarried hbuffered hnone

/-- **A chain with an ending** is put behind what is carried, whatever the socket takes. -/
theorem passed_outputFilter (conf : OutputConf) (answer : SendAnswer) (busy : Bool)
    (h : Carried all s) {b : OutBuf} (hb : b ∈ new) (hend : b.Ending) :
    Passed (all ++ flat new) (ngxHttpOutputFilter conf answer busy new s) := by
  obtain ⟨passed, hclean, hmem, hflat, heq⟩ := outputChain_ending conf answer busy s hb hend
  apply Passed.outputFilter
  rw [heq, ← hflat]
  refine passed_writeFilter conf answer h hclean ?_ (.inr ⟨b, hmem, hend.2⟩)
  rw [flat_append]
  exact List.append_ne_nil_of_right_ne_nil _ (flat_ne_nil_of_mem hmem hend.1)

/-- **A call with nothing new** goes on with what is left. -/
theorem passed_outputFilter_nil (conf : OutputConf) (answer : SendAnswer) (busy : Bool)
    (h : Carried all s) (hbuffered : s.buffered = true) (hmore : flat s.out ≠ []) :
    Passed all (ngxHttpOutputFilter conf answer busy [] s) := by
  have hw := passed_writeFilter conf answer h clean_nil (by rwa [List.append_nil]) (.inl rfl)
  rw [flat_nil, List.append_nil] at hw
  apply Passed.outputFilter
  rwa [outputChain_nil conf answer busy hbuffered]

end Filters

/-! ## §2. Whole runs. -/

/-- A response on its way: waiting with bytes left, done with all of them sent, or closed. -/
inductive OnTheWay (all : Bytes) : Response → Prop where
  | writing {s : Sending} (carried : Carried all s) (buffered : s.buffered = true)
      (more : flat s.out ≠ []) : OnTheWay all ⟨s, .writing⟩
  | done {s : Sending} (sent : s.wire = all) : OnTheWay all ⟨s, .done⟩
  | closed {s : Sending} (beginning : s.wire <+: all) : OnTheWay all ⟨s, .closed⟩

/-- What the client has. -/
theorem OnTheWay.wire {all : Bytes} {r : Response} (h : OnTheWay all r) :
    r.sending.wire <+: all ∧ (r.phase = .done → r.sending.wire = all) := by
  cases h with
  | writing hcarried => exact ⟨hcarried.beginning, by simp⟩
  | done hsent => exact ⟨by rw [hsent], fun _ => hsent⟩
  | closed hbeginning => exact ⟨hbeginning, by simp⟩

/-- While it waits, the rest is kept, and there is one. -/
theorem OnTheWay.waiting {all : Bytes} {r : Response} (h : OnTheWay all r)
    (hphase : r.phase = .writing) :
    r.sending.wire ++ flat r.sending.out = all ∧ r.sending.wire ≠ all := by
  cases h with
  | @writing s hcarried hbuffered hmore =>
      refine ⟨hcarried.split, ?_⟩
      intro hall
      have hsplit := hcarried.split
      rw [hall] at hsplit
      exact hmore (List.append_right_eq_self.mp hsplit)
  | done => exact absurd hphase (by simp)
  | closed => exact absurd hphase (by simp)

theorem Passed.finalizeWith {all : Bytes} {r : Sending × FilterRc} (h : Passed all r) :
    OnTheWay all (finalizeWith r) := by
  cases h with
  | failed hbeginning => exact .closed hbeginning
  | @waits s hcarried hbuffered hmore =>
      have heq : Nginx.finalizeWith (s, .again) = ⟨s, .writing⟩ := by
        simp [Nginx.finalizeWith, hbuffered]
      rw [heq]
      exact .writing hcarried hbuffered hmore
  | @sent s hcarried hbuffered hnone =>
      have heq : Nginx.finalizeWith (s, .ok) = ⟨s, .done⟩ := by
        simp [Nginx.finalizeWith, hbuffered]
      have hall := hcarried.split
      rw [hnone, flat_nil, List.append_nil] at hall
      rw [heq]
      exact .done hall

/-- One event keeps a response on its way. -/
theorem OnTheWay.step {all : Bytes} {r : Response} (conf : OutputConf) (ev : WriteEvent)
    (h : OnTheWay all r) : OnTheWay all (ngxHttpWriter conf r ev) := by
  cases h with
  | done hsent => exact .done hsent
  | closed hbeginning => exact .closed hbeginning
  | @writing s hcarried hbuffered hmore =>
      unfold ngxHttpWriter
      rw [if_neg (by simp)]
      cases ev with
      | writable busy answer =>
          dsimp only
          split_ifs with hdelayed
          · exact .writing hcarried hbuffered hmore
          · exact (passed_outputFilter_nil conf answer busy hcarried hbuffered
              hmore).finalizeWith
      | timer busy answer =>
          dsimp only
          split_ifs with hdelayed
          · have hresumed : Carried all { s with delayed := false } :=
              ⟨hcarried.error, hcarried.clean, hcarried.split⟩
            exact (passed_outputFilter_nil conf answer busy hresumed hbuffered
              hmore).finalizeWith
          · exact .closed hcarried.beginning

theorem OnTheWay.run {all : Bytes} (conf : OutputConf) :
    ∀ (events : List WriteEvent) {r : Response}, OnTheWay all r →
      OnTheWay all (events.foldl (ngxHttpWriter conf) r) := by
  intro events
  induction events with
  | nil => intro r h; exact h
  | cons ev events ih => intro r h; exact ih (h.step conf ev)

/-! ### The rendered chains. -/

/-- The bytes of a chain of the renderer. -/
def chainText (chain : List Buf) : Bytes := chain.flatMap Buf.bytes

theorem flat_toOut (chain : List Buf) : flat (chain.map Buf.toOut) = chainText chain :=
  List.flatMap_map Buf.toOut OutBuf.bytes chain

/-- A rendered chain has an ending, except for a playlist without content. -/
theorem render_ending {lib : JsonLib} {root : Option lib.Object} {chain : List Buf}
    (h : render lib root = .ok chain) :
    chain = [⟨[], true⟩] ∨ ∃ b ∈ chain.map Buf.toOut, b.Ending := by
  unfold render at h
  split_ifs at h with hseek hreview
  · unfold renderPlayseek at h
    dsimp only at h
    split at h
    · exact absurd h (by simp)
    · rename_i s hs
      obtain rfl := Except.ok.inj h
      by_cases hempty : s.take (lib.jsonObjectGetStringLen
          (lib.jsonObjectObjectGetEx (respInfo lib root) "m3u8_content")) = []
      · rw [hempty]
        exact .inl rfl
      · exact .inr ⟨_, List.mem_singleton.mpr rfl, hempty, rfl⟩
  · unfold renderReview at h
    dsimp only at h
    split at h
    · exact absurd h (by simp)
    · obtain rfl := Except.ok.inj h
      refine .inr ⟨Buf.toOut ⟨endList, true⟩, ?_, by decide, rfl⟩
      exact List.mem_map_of_mem (by simp)

/-- A single empty buffer is refused, and nothing is sent for it. -/
theorem outputFilter_empty {all : Bytes} {s : Sending} (conf : OutputConf) (answer : SendAnswer)
    (h : Carried all s) :
    (ngxHttpOutputFilter conf answer false ([⟨[], true⟩].map Buf.toOut) s).2 = .error
      ∧ (ngxHttpOutputFilter conf answer false ([⟨[], true⟩].map Buf.toOut) s).1.wire
        = s.wire := by
  have hfilter : ngxOutputChain conf answer false ([⟨[], true⟩].map Buf.toOut) s
      = ({ s with out := s.out ++ [Buf.toOut ⟨[], true⟩] }, .error) := by
    unfold ngxOutputChain ngxHttpPostponeFilter ngxHttpWriteFilter
    dsimp only
    rw [if_pos ⟨rfl, le_rfl⟩, if_pos (.inl (List.cons_ne_nil _ _)), h.error,
      h.clean.any_isZero]
    rfl
  unfold ngxHttpOutputFilter
  rw [hfilter]
  exact ⟨rfl, rfl⟩

/-- The response to a rendered chain is on its way from the start. -/
theorem onTheWay_sendResponse {lib : JsonLib} {root : Option lib.Object} {chain : List Buf}
    (hrender : render lib root = .ok chain) (conf : OutputConf) (first second : SendAnswer)
    (header : Bytes) :
    OnTheWay (header ++ chainText chain) (sendResponse conf first second header chain) := by
  unfold sendResponse
  dsimp only
  rcases carried_sendHeader conf first header with ⟨herror, hwire⟩ | ⟨hok, hcarried⟩
  · rw [if_pos herror]
    exact .closed (hwire.trans (List.prefix_append _ _))
  · rw [if_neg hok]
    rcases render_ending hrender with hempty | ⟨b, hb, hend⟩
    · obtain ⟨hrc, hwire⟩ := outputFilter_empty conf second hcarried
      rw [hempty]
      apply Passed.finalizeWith
      have heq : ngxHttpOutputFilter conf second false ([⟨[], true⟩].map Buf.toOut)
          (sendHeader conf first header).1
        = ((ngxHttpOutputFilter conf second false ([⟨[], true⟩].map Buf.toOut)
            (sendHeader conf first header).1).1, .error) := by
        rw [← hrc]
      rw [heq]
      refine .failed ?_
      rw [hwire]
      exact hcarried.beginning.trans (List.prefix_append _ _)
    · rw [← flat_toOut]
      exact (passed_outputFilter conf second false hcarried hb hend).finalizeWith

/-- **Nothing is lost, repeated or reordered**: when the header filters let the header of a
playlist pass, whatever the renderer has built, whatever the socket takes at each event and
however the timers fire, the client has a beginning of the header and the playlist; what it
does not have yet is kept while the request waits; a request that is done has been sent in
full, and one that waits has not. -/
theorem wire_is_beginning (lib : JsonLib) {root : Option lib.Object} {chain : List Buf}
    (hrender : render lib root = .ok chain) (conf : OutputConf) (c : Conditions)
    (first second : SendAnswer) (header : Bytes) {response : Response}
    (hsend : sendPlaylist conf c first second header chain = some response)
    (events : List WriteEvent) :
    let r := events.foldl (ngxHttpWriter conf) response
    r.sending.wire <+: header ++ chainText chain
      ∧ (r.phase = .writing → r.sending.wire ++ flat r.sending.out = header ++ chainText chain
          ∧ r.sending.wire ≠ header ++ chainText chain)
      ∧ (r.phase = .done → r.sending.wire = header ++ chainText chain) := by
  obtain rfl := eq_of_sendPlaylist hsend
  have h := (onTheWay_sendResponse hrender conf first second header).run conf events
  obtain ⟨hbeginning, hdone⟩ := h.wire
  exact ⟨hbeginning, h.waiting, hdone⟩

/-- The default settings: `postpone_output 1460` and no `sendfile_max_chunk`. -/
def shippedOutput : OutputConf := ⟨1460, 0, 4096, by decide⟩

/-- The content of `minuteResp`. -/
def minuteText : List Piece :=
  [.entry (liveSegment 1508153098)
    (some "playseek=000100&mtv_session=viewer&timestamp=1".toList)]

theorem render_minute :
    render printedJson (printedJson.object minuteResp.body.toJson)
      = .ok [⟨utf8 (toText minuteText), true⟩] := by
  rw [render_playseek printedJson (r := minuteResp.body) rfl rfl]
  rfl

/-- The socket takes nothing, then four bytes, then fails. -/
theorem wire_is_beginning_minute :
    ∃ response, sendPlaylist shippedOutput unconditional ⟨true, []⟩ ⟨false, []⟩
        (utf8 "HTTP/1.1 200 OK".toList) [⟨utf8 (toText minuteText), true⟩] = some response
      ∧ (([.writable false ⟨true, [.wrote 0 3]⟩, .writable true ⟨true, [.error]⟩] :
          List WriteEvent).foldl (ngxHttpWriter shippedOutput) response).sending.wire
        <+: utf8 "HTTP/1.1 200 OK".toList ++ chainText [⟨utf8 (toText minuteText), true⟩] :=
  ⟨_, rfl, (wire_is_beginning printedJson render_minute shippedOutput unconditional ⟨true, []⟩
    ⟨false, []⟩ (utf8 "HTTP/1.1 200 OK".toList) rfl
    [.writable false ⟨true, [.wrote 0 3]⟩, .writable true ⟨true, [.error]⟩]).1⟩

/-! ## §3. Progress. -/

/-- No call fails. -/
def SendAnswer.Sound (a : SendAnswer) : Prop := Writev.error ∉ a.writes

/-- A sound answer that takes something. -/
structure SendAnswer.Takes (a : SendAnswer) : Prop where
  sound : a.Sound
  ready : a.ready = true
  some_write : a.writes ≠ []

theorem sendLoop_sound :
    ∀ (writes : List Writev) (left : Nat) (chain : List OutBuf), Writev.error ∉ writes →
      (sendLoop writes left chain).chain ≠ none := by
  intro writes
  induction writes with
  | nil => intro left chain _; simp [sendLoop]
  | cons w writes ih =>
      intro left chain hsound
      cases w with
      | error => exact absurd List.mem_cons_self hsound
      | wrote coalesced taken =>
          unfold sendLoop
          dsimp only
          split_ifs with hall
          · simp
          · exact ih _ _ (fun herror => hsound (List.mem_cons_of_mem _ herror))

/-- The first write takes a byte. -/
theorem sendLoop_takes {w : Writev} {writes : List Writev} {left : Nat} {chain : List OutBuf}
    (hw : w ≠ .error) (hclean : Clean chain) (hne : flat chain ≠ []) (hleft : 0 < left) :
    0 < (sendLoop (w :: writes) left chain).sent.length := by
  cases w with
  | error => exact absurd rfl hw
  | wrote coalesced taken =>
      have hpos := toIovec_pos chain (ngxIovsPreallocate + coalesced) left hclean hne
        (by unfold ngxIovsPreallocate; omega) hleft
      have hle := toIovec_le chain (ngxIovsPreallocate + coalesced) left
      unfold sendLoop
      dsimp only
      split_ifs with hall
      · rw [List.length_take]
        omega
      · rw [List.length_append, List.length_take]
        omega

section Progress

variable {conf : OutputConf} {answer : SendAnswer} {all : Bytes} {s : Sending}
  {new : List OutBuf}

theorem sendChain_sound (conf : OutputConf) (hsound : answer.Sound) (chain : List OutBuf) :
    (sendChain conf answer chain).chain ≠ none := by
  unfold sendChain
  dsimp only
  split_ifs with hready
  · exact sendLoop_sound _ _ chain hsound
  · exact sendLoop_sound _ _ chain hsound
  · simp

theorem sendChain_takes (conf : OutputConf) (htakes : answer.Takes) {chain : List OutBuf}
    (hclean : Clean chain) (hne : flat chain ≠ []) :
    0 < (sendChain conf answer chain).sent.length := by
  have hmax : 0 < conf.maxSend := Nat.sub_pos_of_lt conf.pagesize_small
  obtain ⟨w, writes, hwrites⟩ := List.exists_cons_of_ne_nil htakes.some_write
  have hw : w ≠ .error := by
    intro herror
    apply htakes.sound
    rw [hwrites, herror]
    exact List.mem_cons_self
  unfold sendChain
  dsimp only
  rw [if_pos htakes.ready, hwrites]
  refine sendLoop_takes hw hclean hne ?_
  split_ifs with hlimit
  · exact hmax
  · omega

/-- Not failed, and without `sendfile_max_chunk` not delayed. -/
def Smooth (conf : OutputConf) (r : Sending × FilterRc) : Prop :=
  r.2 ≠ .error ∧ (conf.sendfileMaxChunk = 0 → r.1.delayed = false)

/-- A sound socket does not fail. -/
theorem smooth_writeFilterSend (hsound : answer.Sound)
    (hdelayed : conf.sendfileMaxChunk = 0 → s.delayed = false) :
    Smooth conf (writeFilterSend conf answer s) := by
  obtain ⟨chain, hchain⟩ := Option.ne_none_iff_exists'.mp
    (sendChain_sound conf hsound s.out)
  unfold writeFilterSend
  dsimp only
  rw [hchain]
  refine ⟨?_, fun hchunk => ?_⟩
  · dsimp only
    split_ifs <;> simp
  · simp [hdelayed hchunk, hchunk]

theorem smooth_writeFilter (hsound : answer.Sound)
    (hdelayed : conf.sendfileMaxChunk = 0 → s.delayed = false) (h : Carried all s)
    (hnew : Clean new) (hne : flat (s.out ++ new) ≠ []) :
    Smooth conf (ngxHttpWriteFilter conf answer new s) := by
  rw [writeFilter_eq conf answer h hnew hne]
  split_ifs with hpostponed hwaits
  · exact ⟨by simp, hdelayed⟩
  · exact ⟨by simp, hdelayed⟩
  · exact smooth_writeFilterSend hsound hdelayed

theorem smooth_sendHeader (conf : OutputConf) (hsound : answer.Sound) (header : Bytes) :
    Smooth conf (sendHeader conf answer header) := by
  unfold sendHeader
  split_ifs with hheader
  · exact ⟨by simp, fun _ => rfl⟩
  · exact smooth_writeFilter hsound (fun _ => rfl) carried_unsent (clean_header hheader)
      (flat_header_ne_nil hheader)

/-- What is sent in an ending chain's first call. -/
theorem smooth_outputFilter (hsound : answer.Sound)
    (hdelayed : conf.sendfileMaxChunk = 0 → s.delayed = false) (h : Carried all s) (busy : Bool)
    {b : OutBuf} (hb : b ∈ new) (hend : b.Ending) :
    Smooth conf (ngxHttpOutputFilter conf answer busy new s) := by
  obtain ⟨passed, hclean, hmem, _, heq⟩ := outputChain_ending conf answer busy s hb hend
  have hne : flat (s.out ++ passed) ≠ [] := by
    rw [flat_append]
    exact List.append_ne_nil_of_right_ne_nil _ (flat_ne_nil_of_mem hmem hend.1)
  have hsmooth := smooth_writeFilter hsound hdelayed h hclean hne
  unfold ngxHttpOutputFilter
  dsimp only
  rw [heq, if_neg hsmooth.1]
  exact hsmooth

/-- The wire grows when something is taken. -/
theorem wire_lt_writeFilterSend (conf : OutputConf) (htakes : answer.Takes) (h : Carried all s)
    (hne : flat s.out ≠ []) :
    s.wire.length < (writeFilterSend conf answer s).1.wire.length := by
  have hpos := sendChain_takes conf htakes h.clean hne
  unfold writeFilterSend
  dsimp only
  cases (sendChain conf answer s.out).chain with
  | none =>
      dsimp only
      rw [List.length_append]
      omega
  | some chain =>
      dsimp only
      rw [List.length_append]
      omega

/-- Done, or waiting without delay for at most `n` bytes. -/
inductive Flowing (all : Bytes) (n : Nat) : Response → Prop where
  | writing {s : Sending} (carried : Carried all s) (buffered : s.buffered = true)
      (more : flat s.out ≠ []) (delayed : s.delayed = false)
      (short : (flat s.out).length ≤ n) : Flowing all n ⟨s, .writing⟩
  | done {s : Sending} (sent : s.wire = all) : Flowing all n ⟨s, .done⟩

theorem Flowing.mono {n m : Nat} {r : Response} (h : Flowing all n r) (hle : n ≤ m) :
    Flowing all m r := by
  cases h with
  | writing hcarried hbuffered hmore hdelayed hshort =>
      exact .writing hcarried hbuffered hmore hdelayed (hshort.trans hle)
  | done hsent => exact .done hsent

/-- A response on its way that is smooth is flowing. -/
theorem Passed.flowing {r : Sending × FilterRc} (hchunk : conf.sendfileMaxChunk = 0)
    (h : Passed all r) (hsmooth : Smooth conf r) {n : Nat}
    (hn : all.length ≤ r.1.wire.length + n) : Flowing all n (Nginx.finalizeWith r) := by
  cases h with
  | failed hbeginning => exact absurd rfl hsmooth.1
  | @waits s hcarried hbuffered hmore =>
      have heq : Nginx.finalizeWith (s, .again) = ⟨s, .writing⟩ := by
        simp [Nginx.finalizeWith, hbuffered]
      have hlength := congrArg List.length hcarried.split
      rw [List.length_append] at hlength
      rw [heq]
      exact .writing hcarried hbuffered hmore (hsmooth.2 hchunk) (by dsimp only at hn; omega)
  | @sent s hcarried hbuffered hnone =>
      have heq : Nginx.finalizeWith (s, .ok) = ⟨s, .done⟩ := by
        simp [Nginx.finalizeWith, hbuffered]
      have hall := hcarried.split
      rw [hnone, flat_nil, List.append_nil] at hall
      rw [heq]
      exact .done hall

/-- A writable event of a socket that takes something. -/
def WriteEvent.Takes : WriteEvent → Prop
  | .writable _ answer => answer.Takes
  | .timer _ _ => False

/-- A socket that takes one byte at a time. -/
def oneByOne : WriteEvent := .writable false ⟨true, [.wrote 0 0]⟩

theorem oneByOne_takes : oneByOne.Takes := ⟨by simp [SendAnswer.Sound], rfl, by simp⟩

/-- **Each such event brings the end nearer.** -/
theorem Flowing.step {n : Nat} {r : Response} {ev : WriteEvent}
    (hchunk : conf.sendfileMaxChunk = 0) (htakes : ev.Takes) (h : Flowing all (n + 1) r) :
    Flowing all n (ngxHttpWriter conf r ev) := by
  cases h with
  | done hsent => exact .done hsent
  | @writing s hcarried hbuffered hmore hdelayed hshort =>
      cases ev with
      | timer busy answer => exact absurd htakes id
      | writable busy answer =>
          have htakes' : answer.Takes := htakes
          have hsmooth : Smooth conf (writeFilterSend conf answer s) :=
            smooth_writeFilterSend htakes'.sound (fun _ => hdelayed)
          have hgrows := wire_lt_writeFilterSend conf htakes' hcarried hmore
          have hlength := congrArg List.length hcarried.split
          rw [List.length_append] at hlength
          have hne : flat (s.out ++ []) ≠ [] := by rwa [List.append_nil]
          have hwrite : ngxHttpWriteFilter conf answer [] s = writeFilterSend conf answer s := by
            rw [writeFilter_eq conf answer hcarried clean_nil hne, List.append_nil,
              if_neg (by simp [postponed]), if_neg (by rw [hdelayed]; decide)]
          have heq : ngxHttpOutputFilter conf answer busy [] s = writeFilterSend conf answer s := by
            unfold ngxHttpOutputFilter
            dsimp only
            rw [outputChain_nil conf answer busy hbuffered, hwrite, if_neg hsmooth.1]
          unfold ngxHttpWriter
          rw [if_neg (by simp)]
          dsimp only
          rw [hdelayed, if_neg Bool.false_ne_true, heq]
          refine (passed_writeFilterSend conf answer hcarried hmore).flowing hchunk hsmooth ?_
          omega

theorem Flowing.run (hchunk : conf.sendfileMaxChunk = 0) :
    ∀ (events : List WriteEvent) {n : Nat} {r : Response}, (∀ ev ∈ events, ev.Takes) →
      n ≤ events.length → Flowing all n r →
      (events.foldl (ngxHttpWriter conf) r).phase = .done
        ∧ (events.foldl (ngxHttpWriter conf) r).sending.wire = all := by
  intro events
  induction events with
  | nil =>
      intro n r _ hn h
      cases h with
      | done hsent => exact ⟨rfl, hsent⟩
      | @writing s hcarried hbuffered hmore hdelayed hshort =>
          have hzero : (flat s.out).length = 0 := by
            rw [List.length_nil] at hn
            omega
          exact absurd (List.length_eq_zero_iff.mp hzero) hmore
  | cons ev events ih =>
      intro n r htakes hn h
      have hstep : Flowing all events.length (ngxHttpWriter conf r ev) :=
        (h.mono hn).step hchunk (htakes ev List.mem_cons_self)
      exact ih (fun e he => htakes e (List.mem_cons_of_mem _ he)) le_rfl hstep

end Progress

/-- A response with an ending flows from the start when the socket is sound. -/
theorem flowing_sendResponse {conf : OutputConf} (hchunk : conf.sendfileMaxChunk = 0)
    {first second : SendAnswer} (hfirst : first.Sound) (hsecond : second.Sound) (header : Bytes)
    {chain : List Buf} {b : OutBuf} (hb : b ∈ chain.map Buf.toOut) (hend : b.Ending) :
    Flowing (header ++ chainText chain) (header ++ chainText chain).length
      (sendResponse conf first second header chain) := by
  have hheader := smooth_sendHeader conf hfirst header
  unfold sendResponse
  dsimp only
  rw [if_neg hheader.1]
  rcases carried_sendHeader conf first header with ⟨herror, _⟩ | ⟨_, hcarried⟩
  · exact absurd herror hheader.1
  · have hsmooth := smooth_outputFilter hsecond hheader.2 hcarried false hb hend
    have hwritten := passed_outputFilter conf second false hcarried hb hend
    rw [flat_toOut] at hwritten
    exact hwritten.flowing hchunk hsmooth (Nat.le_add_left _ _)

/-- **Everything is sent in the end**: for a request whose conditions leave a playlist alone,
and without `sendfile_max_chunk`, a playlist that is not empty has reached the client in full,
and the request is done, after as many writable events as there are bytes, if the socket never
fails and takes something at each of them. -/
theorem sent_in_full (lib : JsonLib) {root : Option lib.Object} {chain : List Buf}
    (hrender : render lib root = .ok chain) (htext : chainText chain ≠ [])
    {c : Conditions} (hmain : c.isMain = true) (hactive : c.disableNotModified = false)
    (hspare : c.Spare) {conf : OutputConf} (hchunk : conf.sendfileMaxChunk = 0)
    {first second : SendAnswer} (hfirst : first.Sound) (hsecond : second.Sound) (header : Bytes)
    (events : List WriteEvent) (htakes : ∀ ev ∈ events, ev.Takes)
    (hmany : (header ++ chainText chain).length ≤ events.length) :
    ∃ response, sendPlaylist conf c first second header chain = some response
      ∧ (events.foldl (ngxHttpWriter conf) response).phase = .done
      ∧ (events.foldl (ngxHttpWriter conf) response).sending.wire
        = header ++ chainText chain := by
  have hpass := (playlist_unchanged_iff hmain hactive).mpr hspare
  refine ⟨_, sendPlaylist_eq hpass conf first second header chain, ?_⟩
  rcases render_ending hrender with hempty | ⟨b, hb, hend⟩
  · rw [hempty] at htext
    exact absurd rfl htext
  · exact (flowing_sendResponse hchunk hfirst hsecond header hb hend).run hchunk events htakes hmany

/-- Sent one byte at a time. -/
theorem sent_in_full_minute :
    ∃ (events : List WriteEvent) (response : Response),
      sendPlaylist shippedOutput unconditional ⟨true, []⟩ ⟨false, []⟩
        (utf8 "HTTP/1.1 200 OK".toList) [⟨utf8 (toText minuteText), true⟩] = some response
      ∧ (events.foldl (ngxHttpWriter shippedOutput) response).phase = .done := by
  have htakes : ∀ n, ∀ ev ∈ List.replicate n oneByOne, ev.Takes := by
    intro n ev hev
    rw [List.eq_of_mem_replicate hev]
    exact oneByOne_takes
  have hfirst : SendAnswer.Sound ⟨true, []⟩ := List.not_mem_nil
  have hsecond : SendAnswer.Sound ⟨false, []⟩ := List.not_mem_nil
  obtain ⟨response, hsend, hdone, _⟩ := sent_in_full printedJson render_minute
    (by decide +kernel) rfl rfl spare_unconditional (rfl : shippedOutput.sendfileMaxChunk = 0)
    hfirst hsecond (utf8 "HTTP/1.1 200 OK".toList) _ (htakes _) List.length_replicate.ge
  exact ⟨_, response, hsend, hdone⟩

/-! ## §4. The playlist that is never sent. -/

end NginxNettyHls.Nginx
