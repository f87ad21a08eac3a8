/-
  NginxNettyHls.M3u8Filter.Deployed
  ─────────────────────────────────
  **THE SESSION STORE AS IT IS DEPLOYED**: texts in Redis, under a clock.

  `applicationControl` writes a session as the text `ObjectMapper` makes of it, with
  SETEX, and reads it back with GET and `readValue`.  The handlers are models over
  sessions; with the operations of `applicationControl` in place of theirs they are
  clients of a store of texts with deadlines (`deployedGet`, `encode_getSession`).

    • `deployed_refines` — every run of that store, with any number of requests
      interleaved and entries expiring or lost at any moment, is a run of the
      session store of the handlers; no text in it is ever unreadable;
    • `idle_session_expires` — a viewer who is silent for longer than
      `keyAliveTimeout` has no session left, whatever the others do.
-/
import NginxNettyHls.KeyValue.Timed
import NginxNettyHls.M3u8Filter.Bodies
import NginxNettyHls.M3u8Filter.SegmentTimes

namespace NginxNettyHls.M3u8Filter

open NginxNettyHls.Java
open KeyValue

/-! ## §1. `applicationControl`. -/

/-- `ObjectMapper` for `sessionDef`, with what is assumed of it: what it has written it
reads back.  `readValue` is `none` where it throws. -/
structure ObjectMapper where
  writeValueAsString : SessionDef → JString
  readValue : JString → Option SessionDef
  read_write : ∀ s, readValue (writeValueAsString s) = some s

/-- A client of the store of texts. -/
abbrev TextClient (R : Type) := Prog JString JString Query Query.Answer R

namespace ApplicationControl

variable {R : Type} (mapper : ObjectMapper)

/-- `putSession`: `cluster_set` is SETEX. -/
def putSession (key : JString) (session : SessionDef) (timeout : Int) (next : TextClient R) :
    TextClient R :=
  .set key (mapper.writeValueAsString session) timeout next

/-- `remove_session`. -/
def removeSession (key : JString) (next : TextClient R) : TextClient R := .del key next

/-- `get_session`: an exception of `readValue` is printed, and `null` returned. -/
def getSession (key : JString) (next : Option SessionDef → TextClient R) : TextClient R :=
  .get key (fun value => next (value.bind mapper.readValue))

end ApplicationControl

/-- How the session store of the handlers is stored. -/
def sessionCodec (mapper : ObjectMapper) : Codec Stored JString where
  encode
    | .session s => mapper.writeValueAsString s
    | .unreadable raw => raw
  decode text := ((mapper.readValue text).map Stored.session).getD (.unreadable text)

section Encode

variable {R : Type} (mapper : ObjectMapper) (key : JString)

/-! The three operations of the handlers are those of `applicationControl`: -/

theorem encode_getSession (next : Option SessionDef → Client R) :
    (Prog.get key (fun v => next (getSession v))).encode (sessionCodec mapper)
      = ApplicationControl.getSession mapper key
          (fun s => (next s).encode (sessionCodec mapper)) := by
  have hread : ∀ text : Option JString,
      getSession (text.map (sessionCodec mapper).decode) = text.bind mapper.readValue := by
    intro text
    cases text with
    | none => rfl
    | some text =>
        show getSession (some (((mapper.readValue text).map Stored.session).getD
          (.unreadable text))) = mapper.readValue text
        cases mapper.readValue text <;> rfl
  show Prog.get key (fun text =>
    (next (getSession (text.map (sessionCodec mapper).decode))).encode (sessionCodec mapper)) = _
  simp only [hread]
  rfl

theorem encode_putSessions (c : ConfigControl) (puts : List SessionDef) (next : Client R) :
    (putSessions c key puts next).encode (sessionCodec mapper)
      = puts.foldr (fun s p => ApplicationControl.putSession mapper key s c.keyAliveTimeout p)
          (next.encode (sessionCodec mapper)) := by
  induction puts with
  | nil => rfl
  | cons s puts ih => exact congrArg (ApplicationControl.putSession mapper key s _) ih

theorem encode_removeSession (next : Client R) :
    (Prog.del key next).encode (sessionCodec mapper)
      = ApplicationControl.removeSession key (next.encode (sessionCodec mapper)) := rfl

end Encode

/-- A GET request at the store of texts. -/
def deployedGet (c : ConfigControl) (mapper : ObjectMapper) (request : HttpRequest) :
    TextClient Reply :=
  (handleGet c request).encode (sessionCodec mapper)

/-! ## §2. Any number of requests. -/

/-- The requests that come to the session store, those of the viewers in `viewers`. -/
def ArrivingGet (c : ConfigControl) (viewers : JString → Prop) (p : Client Reply) : Prop :=
  ∃ request, (∀ m, request.params "mtv_session".toList = some m → viewers m)
    ∧ p = handleGet c request

/-- The deployed store and the requests at work. -/
abbrev DeployedService := Timed JString JString Query Query.Answer Reply

/-- A run of the deployed store to which requests of the viewers in `viewers` come. -/
def DeployedService.Runs (c : ConfigControl) (mapper : ObjectMapper) (viewers : JString → Prop) :
    DeployedService → DeployedService → Prop :=
  Timed.Reaches (Timed.Encoded (sessionCodec mapper) (ArrivingGet c viewers))

/-- A state the deployed store reaches from the empty one. -/
def DeployedService.Reachable (c : ConfigControl) (mapper : ObjectMapper)
    (t : DeployedService) : Prop :=
  ∃ start, DeployedService.Runs c mapper (fun _ => True) ⟨start, fun _ => none, []⟩ t

variable {c : ConfigControl} {mapper : ObjectMapper}

/-- Every operation of a GET request, with the times of the sessions it sets. -/
theorem each_handleGet_timed {Φ : Prog.Op JString Stored → Prop} {request : HttpRequest}
    (h : ∀ m timestamp, request.params "mtv_session".toList = some m →
      request.params "timestamp".toList = some timestamp → TimedOps c m timestamp Φ) :
    (handleGet c request).Each Φ := by
  unfold handleGet
  cases getPlayMode request with
  | seek => exact Prog.each_map _ _ (each_playSeekHandler_timed h)
  | review => exact Prog.each_map _ _ (each_playBackHandler request)
  | none => trivial

/-- A value the handlers write: a session with the time of a segment. -/
def IsTimedSession (stored : Option Stored) : Prop :=
  ∀ v ∈ stored, ∃ s, v = .session s ∧ SegmentTime s.lastTime

theorem handleGet_leaves {viewers : JString → Prop} {p : Client Reply}
    (h : ArrivingGet c viewers p) : p.Each (Prog.Op.Leaves (fun _ v => IsTimedSession v)) := by
  obtain ⟨request, _, rfl⟩ := h
  apply each_handleGet_timed
  intro m timestamp _ _
  refine ⟨trivial, ?_, ?_⟩
  · intro s ⟨_, htime⟩ v hv
    obtain rfl : Stored.session s = v := Option.some.inj hv
    exact ⟨s, rfl, htime.1, by omega⟩
  · intro v hv
    exact absurd hv (by simp)

/-- A session that was written is read back. -/
theorem keeps_session (mapper : ObjectMapper) (s : SessionDef) :
    (sessionCodec mapper).Keeps (.session s) := by
  show ((mapper.readValue (mapper.writeValueAsString s)).map Stored.session).getD _ = .session s
  rw [mapper.read_write]
  rfl

theorem handleGet_faithful {viewers : JString → Prop} {p : Client Reply}
    (h : ArrivingGet c viewers p) : Timed.Faithful (sessionCodec mapper) p := by
  refine Prog.each_mono ?_ p (handleGet_leaves h)
  intro op hop
  cases op with
  | get k => trivial
  | del k => exact fun x hx => absurd hx (by simp)
  | set k v ttl =>
      intro x hx
      obtain ⟨s, rfl, _⟩ := hop x hx
      exact keeps_session mapper s

theorem isTimedSession_none : IsTimedSession none := fun _ hv => absurd hv (by simp)

/-- **The deployed store refines the session store**: each state it reaches, with requests
interleaved and entries expiring or lost in any way, is a state of the session store with the
same requests at the same point of their work.  A text that can be read under a key is always
readable, gives the session the other store holds there, and has the time of a segment. -/
theorem deployed_refines (c : ConfigControl) (mapper : ObjectMapper) (t : DeployedService)
    (h : DeployedService.Reachable c mapper t) :
    ∃ s, Service.Reaches (ArrivingGet c (fun _ => True)) ⟨emptyStore, []⟩ s
      ∧ t.running = s.running.map (Prog.encode (sessionCodec mapper))
      ∧ ∀ key text, visible t.now t.store key = some text →
          ∃ session, mapper.readValue text = some session
            ∧ s.store key = some (.session session) ∧ SegmentTime session.lastTime := by
  obtain ⟨start, hrun⟩ := h
  obtain ⟨s, hreach, hsim⟩ := Timed.simulates_reaches (fun p hp => handleGet_faithful hp) hrun
  refine ⟨s, hreach, hsim.running, ?_⟩
  intro key text hvisible
  have hstored : some ((sessionCodec mapper).decode text) = s.store key := by
    have hagree := hsim.store key
    rw [hvisible] at hagree
    exact hagree.resolve_left (by simp)
  have hwritten : IsTimedSession (s.store key) :=
    Service.store_of_reaches (fun _ => isTimedSession_none)
      (fun p hp => Prog.keeps_of_each p (handleGet_leaves hp))
      (fun _ => isTimedSession_none) hreach key
  obtain ⟨session, hsession, htime⟩ := hwritten _ hstored.symm
  refine ⟨session, ?_, by rw [← hstored, hsession], htime⟩
  have hdecode : ((mapper.readValue text).map Stored.session).getD (.unreadable text)
      = .session session := hsession
  cases hread : mapper.readValue text with
  | none =>
      rw [hread] at hdecode
      exact absurd hdecode (by simp)
  | some s' =>
      rw [hread] at hdecode
      exact congrArg some (Stored.session.inj hdecode)

/-! ## §3. Silence. -/

theorem handleGet_lives {viewers : JString → Prop} {q : TextClient Reply}
    (h : Timed.Encoded (sessionCodec mapper) (ArrivingGet c viewers) q) :
    q.Each (Prog.Op.LivesFor c.keyAliveTimeout) := by
  obtain ⟨p, ⟨request, _, rfl⟩, rfl⟩ := h
  apply Prog.each_encode
  apply each_handleGet
  intro m timestamp _ _
  exact ⟨trivial, fun _ _ => rfl, trivial⟩

/-- Requests of other viewers do not touch a viewer's key. -/
theorem handleGet_otherKey {m : JString} {q : TextClient Reply}
    (h : Timed.Encoded (sessionCodec mapper) (ArrivingGet c (fun m' => m' ≠ m)) q) :
    q.Each (fun op => op.key ≠ sessionKey m) := by
  obtain ⟨p, ⟨request, hviewer, rfl⟩, rfl⟩ := h
  apply Prog.each_encode
  apply each_handleGet
  intro m' timestamp hm' _
  have hne : sessionKey m' ≠ sessionKey m := fun hkey => hviewer m' hm' (sessionKey_injective hkey)
  exact ⟨hne, fun _ _ => hne, hne⟩

/-- **A silent viewer's session expires**: from any reachable state in which no request of the
viewer is at work, over any run to which only requests of others come and which takes longer
than `keyAliveTimeout`, nothing is left of the viewer's session. -/
theorem idle_session_expires (c : ConfigControl) (mapper : ObjectMapper) (m : JString)
    (t t' : DeployedService) (h : DeployedService.Reachable c mapper t)
    (hidle : ∀ p ∈ t.running, p.Each (fun op => op.key ≠ sessionKey m))
    (hrun : DeployedService.Runs c mapper (fun m' => m' ≠ m) t t')
    (hlong : t.now + c.keyAliveTimeout < t'.now) :
    visible t'.now t'.store (sessionKey m) = none := by
  obtain ⟨start, hstart⟩ := h
  have hbounded := Timed.bounded_of_reaches (fun q hq => handleGet_lives hq) hstart
  exact Timed.idle_invisible (fun q hq => handleGet_otherKey hq) hbounded hidle hrun hlong

/-! ## §4. One viewer. -/

section Printed

open Text

/-- An `int` or `long` as JSON; a negative one, which no session has, as a list. -/
def intJson : Int → Json
  | .ofNat n => .num n
  | .negSucc n => .arr [.num n]

def jsonInt : Json → Option Int
  | .num n => some n
  | .arr [.num n] => some (.negSucc n)
  | _ => none

theorem jsonInt_intJson (n : Int) : jsonInt (intJson n) = some n := by
  cases n <;> rfl

/-- A text whose characters are the bytes. -/
def ofBytes (bytes : List UInt8) : JString := bytes.map (fun b => Char.ofNat b.toNat)

def toBytes (text : JString) : List UInt8 := text.map (fun ch => UInt8.ofNat ch.toNat)

theorem toBytes_ofBytes (bytes : List UInt8) : toBytes (ofBytes bytes) = bytes := by
  have hall : ∀ n < 256, UInt8.ofNat (Char.ofNat n).toNat = UInt8.ofNat n := by decide +kernel
  have hbyte : ∀ b : UInt8, UInt8.ofNat (Char.ofNat b.toNat).toNat = b := by
    intro b
    rw [hall b.toNat b.toNat_lt]
    exact UInt8.ofNat_toNat
  unfold toBytes ofBytes
  rw [List.map_map]
  exact (List.map_congr_left (fun b _ => hbyte b)).trans (List.map_id bytes)

def SessionDef.toJson (s : SessionDef) : Json :=
  .obj [(fieldName "timestamp", jsonString s.timestamp),
    (fieldName "last_time", intJson s.lastTime), (fieldName "sequence", intJson s.sequence)]

/-- The `timestamp` of a printed session. -/
def jsonTimestamp : Json → Option (Option JString)
  | .null => some none
  | .str s => (utf8Text s).map some
  | _ => none

def SessionDef.ofJson : Json → Option SessionDef
  | .obj [(_, timestamp), (_, lastTime), (_, sequence)] =>
      match jsonTimestamp timestamp, jsonInt lastTime, jsonInt sequence with
      | some timestamp, some lastTime, some sequence => some ⟨timestamp, lastTime, sequence⟩
      | _, _, _ => none
  | _ => none

theorem SessionDef.ofJson_toJson (s : SessionDef) : SessionDef.ofJson s.toJson = some s := by
  have htimestamp : jsonTimestamp (jsonString s.timestamp) = some s.timestamp := by
    cases s.timestamp with
    | none => rfl
    | some ts =>
        show (utf8Text (utf8 ts)).map some = _
        rw [utf8Text_utf8]
        rfl
  unfold SessionDef.toJson SessionDef.ofJson
  dsimp only
  rw [htimestamp, jsonInt_intJson, jsonInt_intJson]

/-- The plain printer and its reader. -/
def printedMapper : ObjectMapper where
  writeValueAsString s := ofBytes s.toJson.print
  readValue text := (Json.parse (toBytes text)).bind SessionDef.ofJson
  read_write s := by
    rw [toBytes_ofBytes, ← List.append_nil s.toJson.print]
    show (Json.parse (Json.print (.obj _) ++ [])).bind _ = _
    rw [Json.parse_print]
    exact SessionDef.ofJson_toJson s

end Printed

/-- The first request of a viewer, at the store of texts. -/
def viewerGet : HttpRequest :=
  playseekRequest "000100".toList "viewer".toList "1".toList "/cctv.m3u8".toList none

/-- The deployed store after it. -/
def viewerServed : Expiring JString JString × Reply :=
  (deployedGet shippedConfig printedMapper viewerGet).execAt 1508153152
    (machineOf (liveBody [1508153098])) (fun _ => none)

def viewerState : DeployedService := ⟨1508153152, viewerServed.1, [.ret viewerServed.2]⟩

theorem viewerState_reachable :
    DeployedService.Reachable shippedConfig printedMapper viewerState := by
  refine ⟨1508153152, Relation.ReflTransGen.head (Timed.Step.arrive _ ?_)
    (Timed.reaches_execAt (machineOf (liveBody [1508153098])) 1508153152 [] _ _)⟩
  exact ⟨_, ⟨viewerGet, fun _ _ => trivial, rfl⟩, rfl⟩

/-- The text the request has left. -/
def viewerText : JString := printedMapper.writeValueAsString ⟨some "1".toList, 1508153098, 0⟩

theorem viewerText_visible :
    visible viewerState.now viewerState.store (sessionKey "viewer".toList) = some viewerText := by
  decide +kernel

/-- It is read back as the session of the first segment. -/
theorem deployed_refines_viewer :
    ∃ session, printedMapper.readValue viewerText = some session
      ∧ SegmentTime session.lastTime := by
  obtain ⟨s, _, _, hread⟩ := deployed_refines shippedConfig printedMapper viewerState
    viewerState_reachable
  obtain ⟨session, hsession, _, htime⟩ := hread _ _ viewerText_visible
  exact ⟨session, hsession, htime⟩

/-- One second after `keyAliveTimeout`. -/
def viewerLater : DeployedService :=
  { viewerState with now := viewerState.now + shippedConfig.keyAliveTimeout + 1 }

theorem idle_session_expires_viewer :
    visible viewerLater.now viewerLater.store (sessionKey "viewer".toList) = none := by
  refine idle_session_expires shippedConfig printedMapper "viewer".toList viewerState viewerLater
    viewerState_reachable ?_ ?_ ?_
  · intro p hp
    rw [List.mem_singleton.mp hp]
    trivial
  · exact Relation.ReflTransGen.single (Timed.Step.tick viewerState (by decide +kernel))
  · decide +kernel

end NginxNettyHls.M3u8Filter
