/-
  NginxNettyHls.M3u8Filter.Swallowed
  ──────────────────────────────────
  **FAILURES THAT ARE REPORTED AS SUCCESS.**

  `ERROR_OK` should mean that the playlist was read to its end, that the bounds
  of a review are dates, and that the answer is there.  Two `catch` blocks only
  print what they catch: that of `playSeekHandler` around the filters, and that
  of `transform2UnixTime` around the parser of dates.

    • `run_result_io_iff` — when the first block catches something;
    • `failure_reported_iff` — `ERROR_OK` means success exactly when neither
      block is entered on the way to it.
-/
import NginxNettyHls.M3u8Filter.Bodies
import NginxNettyHls.M3u8Filter.ReviewWindow

namespace NginxNettyHls.M3u8Filter

open NginxNettyHls.Java
open KeyValue

/-! ## §1. What `ERROR_OK` should mean. -/

/-- The file was opened, read to its end and closed. -/
def FileRead.Complete : FileRead → Prop
  | .notFound => False
  | .opened _ fin => fin = .eof

/-- `ERROR_OK` of `playSeekHandler` means that the playlist was read completely and
`m3u8_content` is there. -/
def SeekTruthful (c : ConfigControl) (env : ∀ q : Query, q.Answer) (request : HttpRequest)
    (store : SessionStore) : Prop :=
  ∀ info, ((playSeekHandler c request).exec env store).2 = .ok (.ok, info) →
    (∃ uri path, request.uri = some uri ∧ playlistPath c env uri = some path
      ∧ FileRead.Complete (env (.readFile path)))
    ∧ info.m3u8Content ≠ none

/-- `ERROR_OK` of `playBackHandler` means that the playlist was read completely, both
bounds are dates, and `m3u8_title` and `ts_list` are there. -/
def ReviewTruthful (c : ConfigControl) (env : ∀ q : Query, q.Answer) (request : HttpRequest)
    (store : SessionStore) : Prop :=
  ∀ info, ((playBackHandler c request).exec env store).2 = .ok (.ok, info) →
    (∃ playbackbegin playbackend uri path, request.IsReview playbackbegin playbackend uri
      ∧ c.sdfParse "yyyyMMddHHmmss".toList playbackbegin ≠ none
      ∧ c.sdfParse "yyyyMMddHHmmss".toList playbackend ≠ none
      ∧ playlistPath c env uri = some path ∧ FileRead.Complete (env (.readFile path)))
    ∧ info.m3u8Title ≠ none ∧ info.tsList ≠ none

/-- A playseek request that gets to its file, whose segment times are good, and the file
fails. -/
def SeekSwallows (c : ConfigControl) (env : ∀ q : Query, q.Answer) (request : HttpRequest)
    (store : SessionStore) : Prop :=
  ∃ (mtvSession timestamp : JString) (v : PlayseekVisit c mtvSession timestamp),
    v.request = request ∧ v.env = env
      ∧ (keptSession timestamp (store (sessionKey mtvSession)) = none →
          (toCharArray v.seekTime).length = 6)
      ∧ v.file.TimesReadable ∧ ¬ v.file.Complete

/-- A review request whose file is good, with a bound that is no date. -/
def ReviewSwallows (c : ConfigControl) (env : ∀ q : Query, q.Answer) (request : HttpRequest) :
    Prop :=
  ∃ playbackbegin playbackend uri path, request.IsReview playbackbegin playbackend uri
    ∧ playlistPath c env uri = some path
    ∧ FileRead.Complete (env (.readFile path)) ∧ FileRead.TimesReadable (env (.readFile path))
    ∧ (c.sdfParse "yyyyMMddHHmmss".toList playbackbegin = none
      ∨ c.sdfParse "yyyyMMddHHmmss".toList playbackend = none)

/-! ## §2. What is caught. -/

/-- The loop of a filter raises no `IOException` of its own, so one at the end comes from
the file. -/
theorem raise_loop_complete {σ : Type} (F : Filter σ) (v : σ) (f : LoopState σ → List Piece)
    (lines : List JString) (fin : ReadEnd) :
    ((∃ sb, fin.raise ((F.loop ⟨none, v, []⟩ lines).2.map f) = .ok sb) → fin = .eof)
      ∧ (fin.raise ((F.loop ⟨none, v, []⟩ lines).2.map f) = .error .io → fin ≠ .eof) := by
  cases hloop : (F.loop ⟨none, v, []⟩ lines).2 with
  | error e =>
      have hts : (tsSegments none lines).2 = some e := (F.loop_error lines ⟨none, v, []⟩ e).mp hloop
      have hio : e ≠ .io := fun h => tsSegments_error_ne_io lines none (h ▸ hts)
      simp [Except.map, ReadEnd.raise, hio]
  | ok st => cases fin <;> simp [Except.map, ReadEnd.raise]

theorem run_complete {c : ConfigControl} {mtvSession timestamp : JString}
    (v : PlayseekVisit c mtvSession timestamp) (stored : Option Stored) :
    ((∃ sb, (v.run stored).result = .ok sb) → v.file.Complete)
      ∧ ((v.run stored).result = .error .io → ¬ v.file.Complete) := by
  cases hk : keptSession timestamp stored with
  | some s =>
      rw [v.run_kept hk]
      cases v.file with
      | notFound => simp [m3u8PlayseekFilterSession, FileRead.Complete]
      | opened lines fin => exact raise_loop_complete (sessionFilter v.uri.query) _ _ lines fin
  | none =>
      cases ha : v.absoluteTime with
      | error e =>
          rw [v.run_rejected hk ha]
          rw [transformAbsoluteTime_error ha]
          simp
      | ok a =>
          rw [v.run_anew hk ha]
          cases v.file with
          | notFound => simp [m3u8PlayseekFilter, FileRead.Complete]
          | opened lines fin =>
              exact raise_loop_complete (seekFilter timestamp v.uri.query a) _ _ lines fin

/-- **When `playSeekHandler` catches an `IOException`.** -/
theorem run_result_io_iff {c : ConfigControl} {mtvSession timestamp : JString}
    (v : PlayseekVisit c mtvSession timestamp) (stored : Option Stored) :
    (v.run stored).result = .error .io
      ↔ (keptSession timestamp stored = none → (toCharArray v.seekTime).length = 6)
        ∧ v.file.TimesReadable ∧ ¬ v.file.Complete := by
  obtain ⟨hcomplete, hincomplete⟩ := run_complete v stored
  rw [← and_assoc, ← v.reply_ok_iff stored]
  constructor
  · intro h
    exact ⟨⟨(.ok, ⟨.seek, none⟩), by rw [h]; rfl⟩, hincomplete h⟩
  · rintro ⟨⟨r, hr⟩, hfile⟩
    cases hresult : (v.run stored).result with
    | ok sb => exact absurd (hcomplete ⟨sb, hresult⟩) hfile
    | error e =>
        rw [hresult] at hr
        cases e <;> simp_all [playseekReply]

/-! ## §3. Failures reported as success. -/

/-- A caught exception leaves `m3u8_content` unset. -/
theorem playseekReply_content {x : Except Exn (List Piece)} {info : M3u8PlayseekInfo}
    (h : playseekReply x = .ok (.ok, info)) :
    (∃ sb, x = .ok sb ∧ info.m3u8Content = some sb)
      ∨ (x = .error .io ∧ info.m3u8Content = none) := by
  unfold playseekReply at h
  split at h
  · rename_i sb
    cases h
    exact Or.inl ⟨sb, rfl, rfl⟩
  · cases h
    exact Or.inr ⟨rfl, rfl⟩
  · exact absurd h (by simp)

theorem seekTruthful_iff (c : ConfigControl) (env : ∀ q : Query, q.Answer)
    (request : HttpRequest) (store : SessionStore) :
    SeekTruthful c env request store ↔ ¬ SeekSwallows c env request store := by
  constructor
  · rintro h ⟨mtvSession, timestamp, v, hreq, henv, hcaught⟩
    have hio := (run_result_io_iff v (store (sessionKey mtvSession))).mpr hcaught
    have hreply := (ok_playSeekHandler_iff c env request store ⟨.seek, none⟩).mpr
      ⟨mtvSession, timestamp, v, hreq, henv, by rw [hio]; rfl⟩
    exact (h _ hreply).2 rfl
  · intro h info hreply
    obtain ⟨mtvSession, timestamp, v, rfl, rfl, hrun⟩ :=
      (ok_playSeekHandler_iff c env request store info).mp hreply
    rcases playseekReply_content hrun with ⟨sb, hok, hcontent⟩ | ⟨hio, -⟩
    · refine ⟨⟨v.uri, v.path, v.isPlayseek.uri, v.path_eq, ?_⟩, by simp [hcontent]⟩
      exact (run_complete v _).1 ⟨sb, hok⟩
    · exact absurd ⟨mtvSession, timestamp, v, rfl, rfl, (run_result_io_iff v _).mp hio⟩ h

theorem complete_and_readable_iff (file : FileRead) :
    file.Complete ∧ file.TimesReadable
      ↔ ∃ lines, file = .opened lines .eof ∧ (tsSegments none lines).2 = none := by
  cases file with
  | notFound => simp [FileRead.Complete]
  | opened lines fin => simp [FileRead.Complete, FileRead.TimesReadable, and_comm]

/-- A review that returns has filled in its answer. -/
theorem reviewReply_filled {c : ConfigControl} {playbackbegin playbackend : JString}
    {query : Option JString} {file : FileRead} {r : ErrorCode × M3u8ReviewInfo}
    (h : reviewReply c playbackbegin playbackend query file = .ok r) :
    r.1 = .ok ∧ r.2.m3u8Title ≠ none ∧ r.2.tsList ≠ none := by
  unfold reviewReply at h
  cases hf : m3u8PlaybackFilter (transform2UnixTime c playbackbegin "yyyyMMddHHmmss".toList)
      (transform2UnixTime c playbackend "yyyyMMddHHmmss".toList) file with
  | error e => simp only [hf, Except.map, reduceCtorEq] at h
  | ok found =>
      simp only [hf, Except.map, Except.ok.injEq] at h
      rw [← h]
      exact ⟨rfl, by simp, by simp⟩

theorem reviewTruthful_iff (c : ConfigControl) (env : ∀ q : Query, q.Answer)
    (request : HttpRequest) (store : SessionStore) :
    ReviewTruthful c env request store ↔ ¬ ReviewSwallows c env request := by
  constructor
  · rintro h ⟨playbackbegin, playbackend, uri, path, hreview, hpath, hfile, htimes, hbound⟩
    obtain ⟨r, hr⟩ := (reviewReply_ok_iff c playbackbegin playbackend uri.query _).mpr
      ((complete_and_readable_iff _).mp ⟨hfile, htimes⟩)
    have hcode := (reviewReply_filled hr).1
    obtain ⟨⟨begin', end', uri', path', hreview', hb, he, -⟩, -⟩ :=
      h r.2 ((ok_playBackHandler_iff c env request store r.2).mpr
        ⟨playbackbegin, playbackend, uri, path, hreview, hpath, by rw [hr, ← hcode]⟩)
    -- the bounds are the parameters of the request
    obtain rfl : playbackbegin = begin' :=
      Option.some.inj (hreview.playbackbegin.symm.trans hreview'.playbackbegin)
    obtain rfl : playbackend = end' :=
      Option.some.inj (hreview.playbackend.symm.trans hreview'.playbackend)
    rcases hbound with hbound | hbound
    · exact hb hbound
    · exact he hbound
  · intro h info hreply
    obtain ⟨playbackbegin, playbackend, uri, path, hreview, hpath, hrun⟩ :=
      (ok_playBackHandler_iff c env request store info).mp hreply
    obtain ⟨-, htitle, hlist⟩ := reviewReply_filled hrun
    obtain ⟨hfile, htimes⟩ := (complete_and_readable_iff _).mpr
      ((reviewReply_ok_iff c playbackbegin playbackend uri.query _).mp ⟨_, hrun⟩)
    refine ⟨⟨playbackbegin, playbackend, uri, path, hreview, ?_, ?_, hpath, hfile⟩, htitle, hlist⟩
    · intro hb
      exact h ⟨playbackbegin, playbackend, uri, path, hreview, hpath, hfile, htimes, Or.inl hb⟩
    · intro he
      exact h ⟨playbackbegin, playbackend, uri, path, hreview, hpath, hfile, htimes, Or.inr he⟩

/-- **`ERROR_OK` means success** exactly when the file of a playseek does not fail after
its seek time and segment times were good, and the bounds of a review are dates. -/
theorem failure_reported_iff (c : ConfigControl) (env : ∀ q : Query, q.Answer)
    (request : HttpRequest) (store : SessionStore) :
    (SeekTruthful c env request store ↔ ¬ SeekSwallows c env request store)
      ∧ (ReviewTruthful c env request store ↔ ¬ ReviewSwallows c env request) :=
  ⟨seekTruthful_iff c env request store, reviewTruthful_iff c env request store⟩

/-- The review request `/cctv.m3u8` with the given bounds. -/
def reviewRequest (playbackbegin playbackend : JString) : HttpRequest where
  uri := some ⟨some "/cctv.m3u8".toList, none⟩
  params := fun name =>
    if name = "playbackbegin".toList then some playbackbegin
    else if name = "playbackend".toList then some playbackend
    else if name = "timestamp".toList then some "1".toList
    else none

/-- **A playlist that may not be read** is answered with `ERROR_OK` and no content, and a
review from a bound that is no date with everything up to its end. -/
theorem failures_reported_as_success :
    ((playSeekHandler reviewConfig (playseekRequest "000100".toList "viewer".toList "1".toList
          "/cctv.m3u8".toList none)).exec
        (machine (reviewConfig.rootPath ++ "/cctv.m3u8".toList) .notFound 1508153152000)
        emptyStore).2
      = .ok (.ok, ⟨.seek, none⟩)
    ∧ reviewConfig.sdfParse "yyyyMMddHHmmss".toList "yesterday".toList = none
    ∧ ((playBackHandler reviewConfig
          (reviewRequest "yesterday".toList "20171016110010".toList)).exec
        (machine (reviewConfig.rootPath ++ "/cctv.m3u8".toList) (.opened reviewLines .eof)
          1508153152000) emptyStore).2
      = .ok (.ok,
        { playMode := .review
          m3u8Title := some "#EXTM3U\r\n#EXT-X-MEDIA-SEQUENCE:7\r\n".toList
          argus := none
          tsList := some [⟨some "#EXTINF:6.0,".toList, "cctv-1508151600.ts".toList⟩,
            ⟨some "#EXTINF:5.5,".toList, "cctv-1508151606.ts".toList⟩] }) := by
  decide +kernel

end NginxNettyHls.M3u8Filter
