/-
  NginxNettyHls.M3u8Filter.Review
  ───────────────────────────────
  **WHAT `m3u8_playback_filter` COLLECTS.**

  Over a file whose segment times can all be read the loop of the review is two
  filters: the recognised tags, each with a CRLF, become the title
  (`titleText`); the segments strictly between the bounds become the list
  (`reviewed`).

    • `playback_loop` — both, from any state of the loop;
    • `playbackFilter_eq` — the outcome for the lines of a file.
-/
import NginxNettyHls.M3u8Filter.TagOrder

namespace NginxNettyHls.M3u8Filter

open NginxNettyHls.Java

/-- `m3u8_title`: the tags in file order. -/
def titleText (lines : List JString) : JString :=
  (lines.filter isTag).flatMap (· ++ "\r\n".toList)

/-- The segments between the bounds. -/
def reviewed (startTime endTime : Int) (gs : List Segment) : List Segment :=
  gs.filter (fun g => startTime < g.time ∧ g.time < endTime)

/-- The entry of `ts_list` for a segment. -/
def Segment.tsInfo (g : Segment) : TsInfo := ⟨g.extInfo, g.line⟩

theorem titleText_cons_tag {s : JString} (hs : isTag s = true) (lines : List JString) :
    titleText (s :: lines) = s ++ "\r\n".toList ++ titleText lines := by
  unfold titleText
  rw [List.filter_cons_of_pos hs, List.flatMap_cons]

theorem titleText_cons_other {s : JString} (hs : isTag s = false) (lines : List JString) :
    titleText (s :: lines) = titleText lines := by
  unfold titleText
  rw [List.filter_cons_of_neg (by simp [hs])]

/-- **The loop of the review.** -/
theorem playback_loop (startTime endTime : Int) :
    ∀ (lines : List JString) (st : PlaybackState) (gs : List Segment),
      tsSegments st.extInfo lines = (gs, none) →
      ∃ ei, lines.foldlM (playbackLine startTime endTime) st
        = .ok ⟨ei, st.title ++ titleText lines,
            st.tsList ++ (reviewed startTime endTime gs).map Segment.tsInfo⟩ := by
  intro lines
  induction lines with
  | nil =>
      intro st gs h
      simp only [tsSegments, Prod.mk.injEq, and_true] at h
      rw [← h]
      exact ⟨st.extInfo, by simp [titleText, reviewed, pure, Except.pure]⟩
  | cons s rest ih =>
      intro st gs h
      simp only [tsSegments] at h
      rw [List.foldlM_cons]
      cases hk : lineKind s with
      | extinf =>
          simp only [hk] at h
          rw [titleText_cons_other (by simp [isTag, hk])]
          simp only [playbackLine, hk]
          exact ih ⟨some s, st.title, st.tsList⟩ gs h
      | other =>
          simp only [hk] at h
          rw [titleText_cons_other (by simp [isTag, hk])]
          simp only [playbackLine, hk]
          exact ih st gs h
      | title | mediaSequence =>
          simp only [hk] at h
          obtain ⟨ei, hrest⟩ := ih ⟨st.extInfo, st.title ++ s ++ "\r\n".toList, st.tsList⟩ gs h
          refine ⟨ei, ?_⟩
          rw [titleText_cons_tag (by simp [isTag, hk]), ← List.append_assoc, ← List.append_assoc]
          simp only [playbackLine, hk]
          exact hrest
      | segment =>
          simp only [hk] at h
          rw [titleText_cons_other (by simp [isTag, hk])]
          cases ht : getTsTime s with
          | error e => simp [ht] at h
          | ok t =>
              simp only [ht, Prod.mk.injEq] at h
              simp only [playbackLine, hk, ht]
              rw [← h.1]
              by_cases hin : startTime < t ∧ t < endTime
              · obtain ⟨ei, hrest⟩ := ih ⟨st.extInfo, st.title, st.tsList ++ [⟨st.extInfo, s⟩]⟩
                  (tsSegments st.extInfo rest).1 (Prod.ext rfl h.2)
                refine ⟨ei, ?_⟩
                have hcons : reviewed startTime endTime
                      (⟨st.extInfo, s, t⟩ :: (tsSegments st.extInfo rest).1)
                    = ⟨st.extInfo, s, t⟩
                      :: reviewed startTime endTime (tsSegments st.extInfo rest).1 :=
                  List.filter_cons_of_pos (by simpa using hin)
                rw [List.append_assoc] at hrest
                rw [if_pos hin, hcons]
                exact hrest
              · have hcons : reviewed startTime endTime
                      (⟨st.extInfo, s, t⟩ :: (tsSegments st.extInfo rest).1)
                    = reviewed startTime endTime (tsSegments st.extInfo rest).1 :=
                  List.filter_cons_of_neg (by simpa using hin)
                rw [if_neg hin, hcons]
                exact ih st _ (Prod.ext rfl h.2)

/-- **The outcome of the review** of a file with readable times. -/
theorem playbackFilter_eq (startTime endTime : Int) {lines : List JString} {gs : List Segment}
    (h : tsSegments none lines = (gs, none)) :
    m3u8PlaybackFilter startTime endTime (.opened lines .eof)
      = .ok (titleText lines, (reviewed startTime endTime gs).map Segment.tsInfo) := by
  obtain ⟨ei, hloop⟩ := playback_loop startTime endTime lines ⟨none, [], []⟩ gs h
  simp only [m3u8PlaybackFilter, hloop, List.nil_append]
  rfl

end NginxNettyHls.M3u8Filter
