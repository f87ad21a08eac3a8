/-
  NginxNettyHls.Nginx.NotModified
  ───────────────────────────────
  **CONDITIONAL REQUESTS.**

  `ngx_http_not_modified_filter_module` has no directive and is always there.  Its
  header filter is the first one to see a header, and may put a 304 or a 412 in the
  place of a 200:

    • `ngxHttpTestIfUnmodified`, `ngxHttpTestIfModified`, `ngxHttpTestIfMatch` — the
      conditions;
    • `ngxHttpNotModifiedHeaderFilter` — the verdict over a header;
    • `playlist_unchanged_iff` — which requests for a playlist, whose header has neither
      `Last-Modified` nor `ETag`, it leaves alone.
-/
import NginxNettyHls.Nginx.Upstream

namespace NginxNettyHls.Nginx

/-! ## §1. The conditions. -/

/-- The values of the directive `if_modified_since`. -/
inductive IfModifiedSince where
  | off
  | exact
  | before
  deriving Repr, DecidableEq

/-- What the filter reads of a request and its location. -/
structure Conditions where
  /-- `r == r->main` -/
  isMain : Bool
  disableNotModified : Bool
  ifUnmodifiedSince : Option Bytes
  ifMatch : Option Bytes
  ifModifiedSince : Option Bytes
  ifNoneMatch : Option Bytes
  /-- `clcf->if_modified_since` -/
  mode : IfModifiedSince
  /-- `ngx_parse_http_time` -/
  parseHttpTime : Bytes → Int

/-- What it reads of the header. -/
structure Validators where
  status : Nat
  /-- -1 for none. -/
  lastModifiedTime : Int
  etag : Option Bytes
  deriving Repr, DecidableEq

/-- `ngx_http_test_if_unmodified` for the value `value`. -/
def ngxHttpTestIfUnmodified (c : Conditions) (header : Validators) (value : Bytes) : Bool :=
  if header.lastModifiedTime = -1 then false
  else decide (header.lastModifiedTime ≤ c.parseHttpTime value)

/-- `ngx_http_test_if_modified`. -/
def ngxHttpTestIfModified (c : Conditions) (header : Validators) (value : Bytes) : Bool :=
  if header.lastModifiedTime = -1 then true
  else if c.mode = .off then true
  else if c.parseHttpTime value = header.lastModifiedTime then false
  else decide (c.mode = .exact) || decide (c.parseHttpTime value < header.lastModifiedTime)

/-- A space or a tab. -/
def isBlank (b : UInt8) : Bool := b == 32 || b == 9

/-- `W/` in front of a tag, which a weak comparison leaves out. -/
def dropWeak (weak : Bool) (tag : Bytes) : Bytes :=
  if weak && decide (2 < tag.length) && decide (tag.take 2 = [87, 47]) then tag.drop 2 else tag

/-- The loop of `ngx_http_test_if_match` over the list of tags; it moves on by a byte at least,
so that the length of the list is fuel enough. -/
def matchLoop (weak : Bool) (etag : Bytes) : Nat → Bytes → Bool
  | 0, _ => false
  | fuel + 1, list =>
      if list = [] then false
      else
        let start := dropWeak weak list
        if start.length < etag.length then false
        else
          let isEqual := decide (start.take etag.length = etag)
          let behind := if isEqual then (start.drop etag.length).dropWhile isBlank else start
          if isEqual && (decide (behind = []) || decide (behind.head? = some 44)) then true
          else
            matchLoop weak etag fuel
              ((behind.dropWhile (fun b => b != 44)).dropWhile (fun b => isBlank b || b == 44))

/-- `ngx_http_test_if_match`. -/
def ngxHttpTestIfMatch (header : Validators) (list : Bytes) (weak : Bool) : Bool :=
  -- `*`
  if list = [42] then true
  else
    match header.etag with
    | none => false
    | some etag => matchLoop weak (dropWeak weak etag) list.length list

/-! ## §2. The filter. -/

/-- What becomes of a header. -/
inductive NotModifiedVerdict where
  /-- It goes to the next filter as it is. -/
  | unchanged
  /-- It goes there as a 304 without content type, length and ranges. -/
  | notModified
  /-- `ngx_http_filter_finalize_request`: the header and the page of a 412 take its place. -/
  | preconditionFailed
  deriving Repr, DecidableEq

/-- `ngx_http_not_modified_header_filter`. -/
def ngxHttpNotModifiedHeaderFilter (c : Conditions) (header : Validators) : NotModifiedVerdict :=
  if header.status ≠ 200 ∨ c.isMain = false ∨ c.disableNotModified then .unchanged
  else if c.ifUnmodifiedSince.any (fun v => !ngxHttpTestIfUnmodified c header v) then
    .preconditionFailed
  else if c.ifMatch.any (fun v => !ngxHttpTestIfMatch header v false) then .preconditionFailed
  else if c.ifModifiedSince.isSome || c.ifNoneMatch.isSome then
    if c.ifModifiedSince.any (fun v => ngxHttpTestIfModified c header v) then .unchanged
    else if c.ifNoneMatch.any (fun v => !ngxHttpTestIfMatch header v true) then .unchanged
    else .notModified
  else .unchanged

/-! ## §3. Playlists. -/

/-- The header of a playlist. -/
def playlistValidators : Validators := ⟨200, -1, none⟩

/-- The requests for a playlist that are answered as if they had no conditions. -/
structure Conditions.Spare (c : Conditions) : Prop where
  ifUnmodifiedSince : c.ifUnmodifiedSince = none
  ifMatch : ∀ v, c.ifMatch = some v → v = [42]
  /-- `If-Modified-Since` is enough to have a playlist, which counts as modified. -/
  ifNoneMatch : c.ifNoneMatch = some [42] → c.ifModifiedSince ≠ none

theorem testIfMatch_playlist (list : Bytes) (weak : Bool) :
    ngxHttpTestIfMatch playlistValidators list weak = decide (list = [42]) := by
  unfold ngxHttpTestIfMatch
  split_ifs with hstar
  · simp [hstar]
  · simp [hstar, playlistValidators]

/-- **Which requests are left alone**: those of a main request whose conditions ask for nothing
a playlist does not have. -/
theorem playlist_unchanged_iff {c : Conditions} (hmain : c.isMain = true)
    (hactive : c.disableNotModified = false) :
    ngxHttpNotModifiedHeaderFilter c playlistValidators = .unchanged ↔ c.Spare := by
  have hfirst : ¬ (playlistValidators.status ≠ 200 ∨ c.isMain = false
      ∨ c.disableNotModified = true) := by
    simp [playlistValidators, hmain, hactive]
  have hunmodified : ∀ v, ngxHttpTestIfUnmodified c playlistValidators v = false := fun _ => rfl
  have hmodified : ∀ v, ngxHttpTestIfModified c playlistValidators v = true := fun _ => rfl
  unfold ngxHttpNotModifiedHeaderFilter
  rw [if_neg hfirst]
  simp only [hunmodified, hmodified, testIfMatch_playlist]
  constructor
  · intro h
    split_ifs at h with hsince hmatch hconditional hims hinm
    · refine ⟨by simpa using hsince, ?_, fun _ => ?_⟩
      · intro v hv
        simpa [hv] using hmatch
      · intro hnone
        simp [hnone] at hims
    · refine ⟨by simpa using hsince, ?_, fun hstar => ?_⟩
      · intro v hv
        simpa [hv] using hmatch
      · simp [hstar] at hinm
    · refine ⟨by simpa using hsince, ?_, fun hstar => ?_⟩
      · intro v hv
        simpa [hv] using hmatch
      · simp [hstar] at hconditional
  · intro h
    have hsince := h.ifUnmodifiedSince
    have hmatch : ¬ c.ifMatch.any (fun v => !decide (v = [42])) = true := by
      cases hvalue : c.ifMatch with
      | none => simp
      | some v => simp [h.ifMatch v hvalue]
    rw [if_neg (by simp [hsince]), if_neg hmatch]
    split_ifs with hconditional hims hinm
    · rfl
    · rfl
    · -- a `*` that nothing stands beside
      exfalso
      have hno : c.ifModifiedSince = none := by simpa using hims
      have hsome : c.ifNoneMatch.isSome = true := by simpa [hno] using hconditional
      obtain ⟨v, hv⟩ := Option.isSome_iff_exists.mp hsome
      have hstar : v = [42] := by simpa [hv] using hinm
      exact h.ifNoneMatch (hstar ▸ hv) hno
    · rfl

/-- A main request without conditions. -/
def unconditional : Conditions where
  isMain := true
  disableNotModified := false
  ifUnmodifiedSince := none
  ifMatch := none
  ifModifiedSince := none
  ifNoneMatch := none
  mode := .exact
  parseHttpTime := fun _ => -1

theorem spare_unconditional : unconditional.Spare :=
  ⟨rfl, fun _ h => (nomatch h), fun h => (nomatch h)⟩

/-- `If-None-Match: *` is answered with a 304, `If-Match` with a tag with a 412. -/
example :
    ngxHttpNotModifiedHeaderFilter { unconditional with ifNoneMatch := some [42] }
        playlistValidators = .notModified
      ∧ ngxHttpNotModifiedHeaderFilter { unconditional with ifMatch := some [34, 97, 34] }
        playlistValidators = .preconditionFailed := by
  decide

end NginxNettyHls.Nginx
