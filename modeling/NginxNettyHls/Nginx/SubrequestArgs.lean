/-
  NginxNettyHls.Nginx.SubrequestArgs
  ──────────────────────────────────
  **WHAT THE TWO HANDLERS ASK THE BACK END.**

  `ngx_http_hlsm3u8_handler` and `ngx_http_hlsm3u8_index_module_handler` turn a
  request into a subrequest whose arguments are `uri?args`, written by
  `ngx_snprintf` into 2048 and 1024 bytes and measured by the pointer it returns.
  Both handlers are here with every early exit.

    • `subrequestArgs_eq` — the arguments are the first bytes of `uri?args`;
    • `hlsm3u8_fullArgs_iff`, `index_fullArgs_iff` — they are all of it exactly
      when it fits; nothing in the handlers looks at that, and the request line may
      be several times longer.
-/
import NginxNettyHls.Nginx.Gate
import NginxNettyHls.Nginx.Sprintf

namespace NginxNettyHls.Nginx

open NginxNettyHls.M3u8Filter

/-! ## §1. The handlers. -/

/-- What a handler meets besides the request: which lookups and allocations succeed, and
what `ngx_http_subrequest` returns. -/
structure HandlerEnv where
  localConf : Bool
  psr : Bool
  /-- The module's context is there or can be allocated. -/
  ctx : Bool
  /-- The buffer of the index module's callback. -/
  data : Bool
  argus : Bool
  subrequest : Bytes → Bytes → Int

/-- What a handler does: the subrequest it issues, and its return code. -/
structure HandlerRun where
  issued : Option (Bytes × Bytes)
  rc : Int
  deriving Repr, DecidableEq

/-- An early exit. -/
def HandlerRun.exit (rc : Int) : HandlerRun := ⟨none, rc⟩

/-- A subrequest; a refused one makes the handler return `failed`. -/
def HandlerRun.subrequest (env : HandlerEnv) (failed : Int) (uri args : Bytes) : HandlerRun :=
  ⟨some (uri, args), if env.subrequest uri args ≠ ngxOk then failed else ngxOk⟩

/-- `ngx_snprintf(argus.data, max, "%V?%V", &r->uri, &r->args)`. -/
def subrequestArgs (max : Nat) (r : NgxRequest) : Option Bytes :=
  ngxSnprintf max "%V?%V" [.str r.uri, .str r.args]

/-- `ngx_http_hlsm3u8_handler`. -/
def ngxHttpHlsm3u8Handler (env : HandlerEnv) (r : NgxRequest) : Option HandlerRun :=
  if !r.getOrHead then some (.exit 405)
  else if r.uri.getLast? = some 47 then some (.exit ngxDeclined)
  else if !env.localConf then some (.exit ngxHttpInternalServerError)
  else if !env.psr then some (.exit ngxHttpInternalServerError)
  else if !env.ctx then some (.exit ngxError)
  else if playArgs r.args then
    if !env.argus then some (.exit ngxHttpInternalServerError)
    else (subrequestArgs uriNameMaxlen r).map (.subrequest env 503 (fieldName "/upstream"))
  else some (.exit 403)

/-- `ngx_http_hlsm3u8_index_module_handler`. -/
def ngxHttpHlsm3u8IndexModuleHandler (env : HandlerEnv) (r : NgxRequest) : Option HandlerRun :=
  if !r.getOrHead then some (.exit 405)
  else if r.uri.getLast? = some 47 then some (.exit ngxDeclined)
  else if !env.localConf then some (.exit ngxHttpInternalServerError)
  else if !env.psr then some (.exit ngxHttpInternalServerError)
  else if !env.data then some (.exit ngxHttpInternalServerError)
  -- `argus.data` is used unchecked: nothing is defined after a failed allocation
  else if !env.argus then none
  else (subrequestArgs 1024 r).map (.subrequest env ngxError (fieldName "/query"))

/-! ## §2. The arguments. -/

theorem formatText_uri_args (uri args : Bytes) :
    formatText .text "%V?%V".toList [.str uri, .str args] = some (uri ++ 63 :: args) := by
  show some (uri ++ charByte '?' :: (args ++ [])) = _
  rw [List.append_nil]
  rfl

/-- **The arguments of a subrequest** are the first `max` bytes of `uri?args`. -/
theorem subrequestArgs_eq (max : Nat) (r : NgxRequest) :
    subrequestArgs max r = some ((r.uri ++ 63 :: r.args).take max) :=
  snprintf_eq_take max (formatText_uri_args r.uri r.args)

/-- They are all of it exactly when it fits. -/
theorem take_uri_args_iff (max : Nat) (r : NgxRequest) :
    (r.uri ++ 63 :: r.args).take max = r.uri ++ 63 :: r.args
      ↔ r.uri.length + 1 + r.args.length ≤ max := by
  rw [List.take_eq_self_iff, List.length_append, List.length_cons]
  omega

/-- The subrequest, if there is one, carries the whole of `uri?args`. -/
def FullArgs (r : NgxRequest) (run : Option HandlerRun) : Prop :=
  ∀ out, run = some out → ∀ uri args, out.issued = some (uri, args) →
    args = r.uri ++ 63 :: r.args

theorem fullArgs_exit (r : NgxRequest) (rc : Int) : FullArgs r (some (.exit rc)) := by
  intro out hout uri args hissued
  obtain rfl : HandlerRun.exit rc = out := Option.some.inj hout
  exact absurd hissued (by simp [HandlerRun.exit])

theorem fullArgs_none (r : NgxRequest) : FullArgs r none := by
  intro out hout
  exact absurd hout (by simp)

theorem fullArgs_subrequest_iff (env : HandlerEnv) (failed : Int) (uri : Bytes) (max : Nat)
    (r : NgxRequest) :
    FullArgs r ((subrequestArgs max r).map (.subrequest env failed uri))
      ↔ r.uri.length + 1 + r.args.length ≤ max := by
  rw [subrequestArgs_eq, ← take_uri_args_iff]
  constructor
  · intro h
    exact h _ rfl _ _ rfl
  · intro h out hout uri' args hissued
    obtain rfl : HandlerRun.subrequest env failed uri _ = out := Option.some.inj hout
    obtain ⟨_, rfl⟩ : uri = uri' ∧ (r.uri ++ 63 :: r.args).take max = args := by
      simpa [HandlerRun.subrequest] using hissued
    exact h

/-- The requests `ngx_http_hlsm3u8_handler` comes to ask the back end for. -/
structure ForwardsSeek (env : HandlerEnv) (r : NgxRequest) : Prop where
  method : r.getOrHead = true
  file : r.uri.getLast? ≠ some 47
  localConf : env.localConf = true
  psr : env.psr = true
  ctx : env.ctx = true
  mode : playArgs r.args = true
  argus : env.argus = true

/-- Those of the index module's handler: any file. -/
structure ForwardsIndex (env : HandlerEnv) (r : NgxRequest) : Prop where
  method : r.getOrHead = true
  file : r.uri.getLast? ≠ some 47
  localConf : env.localConf = true
  psr : env.psr = true
  data : env.data = true
  argus : env.argus = true

theorem ForwardsSeek.run {env : HandlerEnv} {r : NgxRequest} (h : ForwardsSeek env r) :
    ngxHttpHlsm3u8Handler env r
      = (subrequestArgs uriNameMaxlen r).map (.subrequest env 503 (fieldName "/upstream")) := by
  unfold ngxHttpHlsm3u8Handler
  simp only [h.method, h.file, h.localConf, h.psr, h.ctx, h.mode, h.argus, Bool.not_true,
    Bool.false_eq_true, if_false, if_true]

theorem ForwardsIndex.run {env : HandlerEnv} {r : NgxRequest} (h : ForwardsIndex env r) :
    ngxHttpHlsm3u8IndexModuleHandler env r
      = (subrequestArgs 1024 r).map (.subrequest env ngxError (fieldName "/query")) := by
  unfold ngxHttpHlsm3u8IndexModuleHandler
  simp only [h.method, h.file, h.localConf, h.psr, h.data, h.argus, Bool.not_true,
    Bool.false_eq_true, if_false]

theorem exits_of_not_forwardsSeek {env : HandlerEnv} {r : NgxRequest}
    (h : ¬ ForwardsSeek env r) : ∃ rc, ngxHttpHlsm3u8Handler env r = some (.exit rc) := by
  unfold ngxHttpHlsm3u8Handler
  split_ifs with hmethod hfile hconf hpsr hctx hmode hargus
  case neg =>
    refine absurd ?_ h
    simp only [Bool.not_eq_true', Bool.not_eq_false] at hmethod hconf hpsr hctx hargus
    exact ⟨hmethod, hfile, hconf, hpsr, hctx, hmode, hargus⟩
  all_goals exact ⟨_, rfl⟩

theorem fullArgs_of_not_forwardsIndex {env : HandlerEnv} {r : NgxRequest}
    (h : ¬ ForwardsIndex env r) : FullArgs r (ngxHttpHlsm3u8IndexModuleHandler env r) := by
  unfold ngxHttpHlsm3u8IndexModuleHandler
  split_ifs with hmethod hfile hconf hpsr hdata hargus
  case neg =>
    refine absurd ?_ h
    simp only [Bool.not_eq_true', Bool.not_eq_false] at hmethod hconf hpsr hdata hargus
    exact ⟨hmethod, hfile, hconf, hpsr, hdata, hargus⟩
  all_goals first
    | exact fullArgs_exit r _
    | exact fullArgs_none r

/-! ## §3. Whole or cut. -/

theorem hlsm3u8_fullArgs_iff (env : HandlerEnv) (r : NgxRequest) :
    FullArgs r (ngxHttpHlsm3u8Handler env r)
      ↔ (ForwardsSeek env r → r.uri.length + 1 + r.args.length ≤ 2048) := by
  by_cases hf : ForwardsSeek env r
  · rw [hf.run, fullArgs_subrequest_iff]
    exact ⟨fun h _ => h, fun h => h hf⟩
  · obtain ⟨rc, hrun⟩ := exits_of_not_forwardsSeek hf
    rw [hrun]
    exact ⟨fun _ h => absurd h hf, fun _ => fullArgs_exit r rc⟩

theorem index_fullArgs_iff (env : HandlerEnv) (r : NgxRequest) :
    FullArgs r (ngxHttpHlsm3u8IndexModuleHandler env r)
      ↔ (ForwardsIndex env r → r.uri.length + 1 + r.args.length ≤ 1024) := by
  by_cases hf : ForwardsIndex env r
  · rw [hf.run, fullArgs_subrequest_iff]
    exact ⟨fun h _ => h, fun h => h hf⟩
  · exact ⟨fun _ h => absurd h hf, fun _ => fullArgs_of_not_forwardsIndex hf⟩

/-- **When the back end is asked the whole question**: for every request and whatever
fails, the subrequest of each handler carries all of `uri?args` exactly when it does
not exceed the handler's buffer, where the handler issues one at all. -/
theorem subrequest_args_whole_iff (env : HandlerEnv) (r : NgxRequest) :
    (FullArgs r (ngxHttpHlsm3u8Handler env r)
        ↔ (ForwardsSeek env r → r.uri.length + 1 + r.args.length ≤ 2048))
      ∧ (FullArgs r (ngxHttpHlsm3u8IndexModuleHandler env r)
          ↔ (ForwardsIndex env r → r.uri.length + 1 + r.args.length ≤ 1024)) :=
  ⟨hlsm3u8_fullArgs_iff env r, index_fullArgs_iff env r⟩

/-- Arguments that begin with `playseek=` are forwarded. -/
theorem playArgs_playseek (value : Bytes) : playArgs (playseek ++ 61 :: value) = true := by
  rw [playArgs_iff, namedArg_iff argName_playseek, exists_argAt_iff_append]
  refine Or.inr ⟨[], playseek, value, rfl, Or.inl rfl, ?_⟩
  calc playseek.map ngxTolower = playseek.map id :=
        List.map_congr_left (fun b hb => argName_playseek.lower b hb)
    _ = playseek := List.map_id playseek

/-- A seek with a long token: less than a third of the 8192 bytes nginx reads a request
line into. -/
def longSeek : NgxRequest where
  getOrHead := true
  uri := fieldName "/cctv.m3u8"
  args := playseek ++ 61 :: (fieldName "000010&token=" ++ List.replicate 2048 97)

/-- Everything a handler asks for is there. -/
def plentyEnv : HandlerEnv where
  localConf := true
  psr := true
  ctx := true
  data := true
  argus := true
  subrequest := fun _ _ => ngxOk

theorem length_longSeek : longSeek.uri.length + 1 + longSeek.args.length = 2081 := by
  have huri : (fieldName "/cctv.m3u8").length = 10 := by decide
  have hname : playseek.length = 8 := by decide
  have hvalue : (fieldName "000010&token=").length = 13 := by decide
  unfold longSeek
  simp only [List.length_append, List.length_cons, List.length_replicate, huri, hname, hvalue]

theorem longSeek_file : longSeek.uri.getLast? ≠ some 47 := by decide

/-- **Both handlers cut it**, and ask the back end for something else. -/
theorem long_seek_cut :
    ¬ FullArgs longSeek (ngxHttpHlsm3u8Handler plentyEnv longSeek)
      ∧ ¬ FullArgs longSeek (ngxHttpHlsm3u8IndexModuleHandler plentyEnv longSeek)
      ∧ longSeek.uri.length + 1 + longSeek.args.length = 2081 := by
  have hlen := length_longSeek
  refine ⟨?_, ?_, hlen⟩
  · intro h
    have hle := (hlsm3u8_fullArgs_iff plentyEnv longSeek).mp h
      ⟨rfl, longSeek_file, rfl, rfl, rfl, playArgs_playseek _, rfl⟩
    omega
  · intro h
    have hle := (index_fullArgs_iff plentyEnv longSeek).mp h
      ⟨rfl, longSeek_file, rfl, rfl, rfl, rfl⟩
    omega

end NginxNettyHls.Nginx
