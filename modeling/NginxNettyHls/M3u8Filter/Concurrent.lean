/-
  NginxNettyHls.M3u8Filter.Concurrent
  ───────────────────────────────────
  **REQUESTS OF ONE VIEWER AND ONE TIMESTAMP, INTERLEAVED.**

  Any number of playseek requests run at once, operation by operation, over one
  playlist that is only appended to.  There is no lock and no compare-and-set:
  each handler holds a private copy of the session and writes it back when it
  gets there.  `seekProtocol` says what all of them keep nevertheless:

    • every session in the store, and every private copy, stands at a segment of
      the playlist (`Standing`), so it still does when the playlist has grown;
    • what a request writes is one step past its own read, not past what the
      store holds by then;
    • a follow-up shows the playlist from the segment its number stands for, a
      first response from its own start point (`Answered`).

  With the offset fixed (the session exists already) the numbering is one
  numbering, even under stale writes; without a session each first request can
  start one of its own.  What the store holds only moves forward where a request
  writes over the very value it has read.
-/
import NginxNettyHls.KeyValue.Interleaving
import NginxNettyHls.M3u8Filter.MediaSequence

namespace NginxNettyHls.M3u8Filter

open NginxNettyHls.Java
open KeyValue
open Order

/-! ## §1. A playlist that grows. -/

/-- The order of the world: segments are appended. -/
instance : Preorder Feed where
  le P P' := P.segments <+: P'.segments
  le_refl P := List.prefix_refl P.segments
  le_trans _ _ _ h h' := List.IsPrefix.trans h h'

theorem Feed.getElem_of_le {P P' : Feed} (h : P ≤ P') {i : Nat} {g : Segment}
    (hg : P.segments[i]? = some g) : P'.segments[i]? = some g := by
  obtain ⟨t, ht⟩ := (show P.segments <+: P'.segments from h)
  obtain ⟨hi, _⟩ := List.getElem?_eq_some_iff.mp hg
  rw [← ht, List.getElem?_append_left hi]
  exact hg

/-- The first selected segment stays the first when the playlist grows. -/
theorem Feed.head_selected_of_le {P P' : Feed} (h : P ≤ P') {a : Int} {g : Segment}
    (hg : (selected a P.segments).head? = some g) :
    (selected a P'.segments).head? = some g := by
  obtain ⟨t, ht⟩ := (show P.segments <+: P'.segments from h)
  unfold selected at hg ⊢
  rw [← ht, List.filter_append, List.head?_append, hg]
  rfl

theorem At.mono {P P' : Feed} (h : P ≤ P') {f : Nat} {s : SessionDef}
    (hat : At P.segments f s) : At P'.segments f s := by
  obtain ⟨q, g, hseq, hg, hrest⟩ := hat
  exact ⟨q, g, hseq, Feed.getElem_of_le h hg, hrest⟩

/-- The segment of a session is in the playlist. -/
theorem At.present {gs : List Segment} {f : Nat} {s : SessionDef} (hat : At gs f s) :
    ∃ g ∈ gs, g.time = s.lastTime := by
  obtain ⟨q, g, _, hg, ht, _⟩ := hat
  exact ⟨g, List.mem_of_getElem? hg, ht⟩

/-- A follow-up over the whole playlist. -/
theorem At.follow_feed (P : Feed) {f : Nat} {s : SessionDef} (hat : At P.segments f s) :
    ∃ q : Nat, newer s.lastTime P.segments = P.segments.drop (f + (q + 1))
      ∧ ∀ g rest, newer s.lastTime P.segments = g :: rest →
          (s.advance g.time).sequence = ((q + 1 : Nat) : Int)
            ∧ At P.segments f (s.advance g.time) := by
  have hwhole : P.segments = (P.segments.take P.segments.length).drop 0 := by
    rw [List.take_length, List.drop_zero]
  obtain ⟨q, hnewer, hnext⟩ := hat.follow P.increasing hwhole P.inRange hat.present
  rw [List.take_length] at hnewer
  exact ⟨q, hnewer, hnext⟩

/-- A session begun over a playlist: created by a first response over it, moved on
by follow-ups over it, while it grows. -/
inductive Begun (timestamp : JString) : Feed → SessionDef → Prop
  | created {P : Feed} {query : Option JString} {a : Int} {s : SessionDef} (ha : IsInt32 a)
      (h : s ∈ (m3u8PlayseekFilter timestamp query a P.file).puts) : Begun timestamp P s
  | followed {P : Feed} {query : Option JString} {s s' : SessionDef} (hs : Begun timestamp P s)
      (h : s' ∈ (m3u8PlayseekFilterSession s query P.file).puts) : Begun timestamp P s'
  | grown {P P' : Feed} {s : SessionDef} (hs : Begun timestamp P s) (h : P ≤ P') :
      Begun timestamp P' s

/-- A first response leaves its session at number 0. -/
theorem at_created {P : Feed} {timestamp : JString} {query : Option JString} {a : Int}
    (ha : IsInt32 a) {s : SessionDef}
    (h : s ∈ (m3u8PlayseekFilter timestamp query a P.file).puts) :
    s.timestamp = some timestamp ∧ ∃ f, At P.segments f s := by
  rw [(P.seek_run timestamp query ha).1] at h
  obtain ⟨g, hg, rfl⟩ := List.mem_map.mp h
  have hmem : g ∈ P.segments :=
    List.mem_of_mem_filter (List.mem_of_mem_head? (Option.mem_toList.mp hg))
  obtain ⟨f, hf⟩ := List.getElem?_of_mem hmem
  have hr := P.inRange g hmem
  exact ⟨rfl, f, 0, g, rfl, hf, rfl, hr.1, hr.2⟩

/-- A follow-up leaves its session at the same offset. -/
theorem at_followed {P : Feed} {query : Option JString} {f : Nat} {s s' : SessionDef}
    (hat : At P.segments f s)
    (h : s' ∈ (m3u8PlayseekFilterSession s query P.file).puts) :
    s'.timestamp = s.timestamp ∧ At P.segments f s'
      ∧ s.sequence ≤ s'.sequence ∧ s.lastTime ≤ s'.lastTime := by
  rw [(P.session_run_present s query hat.present).1] at h
  obtain ⟨g, hg, rfl⟩ := List.mem_map.mp h
  obtain ⟨q, _, hnext⟩ := hat.follow_feed P
  have hhead : (newer s.lastTime P.segments).head? = some g := Option.mem_toList.mp hg
  obtain ⟨rest, hrest⟩ := List.head?_eq_some_iff.mp hhead
  obtain ⟨hnum, hat'⟩ := hnext g rest hrest
  have hlater : s.lastTime < g.time := (head_above hrest).2
  obtain ⟨q₀, _, hseq, _, _, hq₀, hlt⟩ := hat
  refine ⟨rfl, hat', ?_, le_of_lt hlater⟩
  -- the number is the next one: `q₀ ≤ last_time` keeps it away from overflow
  show s.sequence ≤ toInt64 (s.sequence + 1)
  rw [hseq, toInt64_of_range (by omega) (by omega)]
  omega

/-- A session that has been begun stands at some offset. -/
theorem Begun.standing {timestamp : JString} {P : Feed} {s : SessionDef}
    (h : Begun timestamp P s) : s.timestamp = some timestamp ∧ ∃ f, At P.segments f s := by
  induction h with
  | created ha h => exact at_created ha h
  | followed _ h ih =>
      obtain ⟨hts, f, hat⟩ := ih
      obtain ⟨hts', hat', _⟩ := at_followed hat h
      exact ⟨hts'.trans hts, f, hat'⟩
  | grown _ hle ih =>
      obtain ⟨hts, f, hat⟩ := ih
      exact ⟨hts, f, hat.mono hle⟩

/-! ## §2. A request at work. -/

/-- The path of `uri` is answered from the file at `path`, its `.m3u8` or its
`.m3u8.index`. -/
def NamesFile (c : ConfigControl) (uri : Uri) (path : JString) : Prop :=
  c.rootPath ++ orNull uri.path = path
    ∨ c.rootPath ++ orNull uri.path ++ ".index".toList = path

/-- The time in seconds when the clock stands at `millis`. -/
def clockTime (c : ConfigControl) (millis : Int) : Int :=
  if c.isDebugMode then c.debugTimeCurrent else millis.tdiv 1000

section Keeping

variable {ι : Type} {c : ConfigControl} {path : JString} {clock : ι → Int}
  (P : Protocol ι Feed JString Stored Query Query.Answer PlayseekReply)
  (hans : ∀ w i, P.ans w i = machine path w.file (clock i))

/-- The writes at the end of a filter. -/
theorem keeps_putSessions {i : ι} {key : JString} {w : Feed} {u : Option Stored}
    {r : PlayseekReply} (hr : P.post w i r) :
    ∀ (puts : List SessionDef), (∀ s ∈ puts, P.guar w u key (some (.session s))) →
      P.Keeps i (putSessions c key puts (.ret r)) w u := by
  intro puts
  induction puts with
  | nil => intro _; exact hr
  | cons s puts ih =>
      intro h
      exact ⟨h s List.mem_cons_self, ih (fun s' hs' => h s' (List.mem_cons_of_mem s hs'))⟩

include hans in
/-- Reading the clock. -/
theorem keeps_withCurrentTime {i : ι} {next : Int → Client PlayseekReply} {w : Feed}
    {u : Option Stored} (h : P.Keeps i (next (clockTime c (clock i))) w u) :
    P.Keeps i (withCurrentTime c next) w u := by
  unfold withCurrentTime
  unfold clockTime at h
  split_ifs with hd
  · rwa [if_pos hd] at h
  · rw [if_neg hd] at h
    intro w' hw _
    rw [hans]
    exact P.keeps_mono i _ hw h

include hans in
/-- Taking a snapshot of the playlist. -/
theorem keeps_readFile {i : ι} {next : FileRead → Client PlayseekReply} {w : Feed}
    {u : Option Stored}
    (h : ∀ w', w ≤ w' → P.allowed w' → P.Keeps i (next w'.file) w' u) :
    P.Keeps i (.ask (.readFile path) next) w u := by
  intro w' hw ha
  rw [hans, show machine path w'.file (clock i) (.readFile path) = w'.file from if_pos rfl]
  exact h w' hw ha

include hans in
/-- The choice of the file. -/
theorem keeps_withPlaylist {i : ι} {uri : Uri} (hn : NamesFile c uri path)
    {found : JString → Client PlayseekReply} {missing : PlayseekReply} {w : Feed}
    {u : Option Stored} (h : P.Keeps i (found path) w u) :
    P.Keeps i (withPlaylist c uri found missing) w u := by
  intro w' hw _
  rw [hans]
  show P.Keeps i (if decide (c.rootPath ++ orNull uri.path ++ ".index".toList = path) = true
    then _ else _) w' u
  by_cases hindex : c.rootPath ++ orNull uri.path ++ ".index".toList = path
  · rw [if_pos (by simpa using hindex), hindex]
    exact P.keeps_mono i _ hw h
  · rw [if_neg (by simpa using hindex)]
    intro w'' hw' _
    rw [hans]
    -- no `.index`: the request names the `.m3u8` itself
    have hplain : c.rootPath ++ orNull uri.path = path := hn.resolve_right hindex
    show P.Keeps i (if decide (c.rootPath ++ orNull uri.path = path) = true
      then _ else _) w'' u
    rw [if_pos (by simpa using hplain), hplain]
    exact P.keeps_mono i _ (le_trans hw hw') h

include hans in
/-- A whole request. -/
theorem keeps_playSeekHandler {i : ι} {request : HttpRequest}
    {seekTime mtvSession timestamp : JString} {uri : Uri}
    (h : request.IsPlayseek seekTime mtvSession timestamp uri) (hn : NamesFile c uri path)
    {w : Feed} {u : Option Stored}
    (hk : P.Keeps i (playSeekFile c path seekTime mtvSession timestamp uri.query) w u) :
    P.Keeps i (playSeekHandler c request) w u := by
  rw [playSeekHandler_eq h]
  exact keeps_withPlaylist P hans hn hk

include hans in
/-- A request that seeks anew: it is enough to look at the snapshot it takes. -/
theorem keeps_seekAnew {i : ι} {seekTime key timestamp : JString} {query : Option JString}
    {w : Feed} {u : Option Stored}
    (herr : ∀ e, transformAbsoluteTime (clockTime c (clock i)) seekTime = .error e →
      P.post w i (playseekReply (.error e)))
    (hok : ∀ a, transformAbsoluteTime (clockTime c (clock i)) seekTime = .ok a →
      ∀ w', w ≤ w' → P.allowed w' →
        P.post w' i (playseekReply (m3u8PlayseekFilter timestamp query a w'.file).result)
          ∧ ∀ s ∈ (m3u8PlayseekFilter timestamp query a w'.file).puts,
              P.guar w' u key (some (.session s))) :
    P.Keeps i (seekAnew c path seekTime key timestamp query) w u := by
  refine keeps_withCurrentTime P hans ?_
  cases ha : transformAbsoluteTime (clockTime c (clock i)) seekTime with
  | error e => exact herr e ha
  | ok a =>
      refine keeps_readFile P hans (fun w' hw hall => ?_)
      obtain ⟨hpost, hguar⟩ := hok a ha w' hw hall
      exact keeps_putSessions P hpost _ hguar

include hans in
/-- A follow-up. -/
theorem keeps_followUp {i : ι} {key : JString} {s : SessionDef} {query : Option JString}
    {w : Feed} {u : Option Stored}
    (h : ∀ w', w ≤ w' → P.allowed w' →
      P.post w' i (playseekReply (m3u8PlayseekFilterSession s query w'.file).result)
        ∧ ∀ s' ∈ (m3u8PlayseekFilterSession s query w'.file).puts,
            P.guar w' u key (some (.session s'))) :
    P.Keeps i (followUp c path key s query) w u := by
  refine keeps_readFile P hans (fun w' hw hall => ?_)
  obtain ⟨hpost, hguar⟩ := h w' hw hall
  exact keeps_putSessions P hpost _ hguar

end Keeping

/-! ## §3. The protocol. -/

/-- Playseek requests of one viewer with one timestamp for one playlist, each with
its own clock reading. -/
structure Group (ι : Type) (c : ConfigControl) (mtvSession timestamp path : JString) where
  request : ι → HttpRequest
  seekTime : ι → JString
  uri : ι → Uri
  isPlayseek : ∀ i, (request i).IsPlayseek (seekTime i) mtvSession timestamp (uri i)
  names : ∀ i, NamesFile c (uri i) path
  clock : ι → Int

/-- The session stands at a segment of the playlist, at an offset from `F`. -/
def Standing (timestamp : JString) (F : Nat → Prop) (gs : List Segment) (s : SessionDef) :
    Prop :=
  s.timestamp = some timestamp ∧ ∃ f, F f ∧ At gs f s

/-- What a reply shows of the playlist `gs`. -/
inductive Answered (F : Nat → Prop) (fresh : Prop) (start : Except Exn Int)
    (gs : List Segment) (sb : List Piece) : Prop
  /-- A follow-up: the segments from its number on. -/
  | followed (f q : Nat) (hF : F f)
      (number : listed sb ≠ [] → ∀ n, announced sb = some n → n = ((q + 1 : Nat) : Int))
      (shown : ∀ (j : Nat) (g : Segment), (listed sb)[j]? = some g →
        gs[f + (q + 1) + j]? = some g)
  /-- A first response: number 0, from the first selected segment on. -/
  | created (hfresh : fresh) (a : Int) (ha : start = .ok a)
      (number : ∀ n, announced sb = some n → n = 0)
      (first : ∀ g, (listed sb).head? = some g → (selected a gs).head? = some g)

theorem Answered.mono {F : Nat → Prop} {fresh : Prop} {start : Except Exn Int} {P P' : Feed}
    {sb : List Piece} (hle : P ≤ P') (h : Answered F fresh start P.segments sb) :
    Answered F fresh start P'.segments sb := by
  cases h with
  | followed f q hF number shown =>
      exact .followed f q hF number (fun j g hg => Feed.getElem_of_le hle (shown j g hg))
  | created hfresh a ha number first =>
      exact .created hfresh a ha number (fun g hg => Feed.head_selected_of_le hle (first g hg))

/-- What a follow-up answers. -/
theorem answered_followUp {F : Nat → Prop} {fresh : Prop} {start : Except Exn Int} {P : Feed}
    {f : Nat} (hF : F f) {s : SessionDef} {query : Option JString} (hat : At P.segments f s)
    {sb : List Piece} (h : (m3u8PlayseekFilterSession s query P.file).result = .ok sb) :
    Answered F fresh start P.segments sb := by
  obtain ⟨_, sb', hsb', hlisted, hnum⟩ := P.session_run_present s query hat.present
  rw [h, Except.ok.injEq] at hsb'
  subst hsb'
  obtain ⟨q, hnewer, hnext⟩ := hat.follow_feed P
  rw [listed_followOut] at hlisted
  refine .followed f q hF ?_ ?_
  · intro hne n hn
    have hmem := hnum n (number_mem_of_announced hn)
    cases hw : newer s.lastTime P.segments with
    | nil => rw [hlisted, hw] at hne; simp at hne
    | cons g rest =>
        rw [hw] at hmem
        rcases List.mem_cons.mp hmem with hm | hm
        · simp only [Piece.number.injEq] at hm
          rw [hm, (hnext g rest hw).1]
        · obtain ⟨g', _, hg'⟩ := List.mem_map.mp hm
          exact absurd hg' (by simp)
  · intro j g hg
    rw [hlisted, hnewer, List.getElem?_take] at hg
    split_ifs at hg
    rw [List.getElem?_drop] at hg
    exact hg

/-- What a first response answers. -/
theorem answered_seekAnew {F : Nat → Prop} {fresh : Prop} (hfresh : fresh)
    {start : Except Exn Int} {P : Feed} {a : Int} (ha : start = .ok a) (hint : IsInt32 a)
    {timestamp : JString} {query : Option JString} {sb : List Piece}
    (h : (m3u8PlayseekFilter timestamp query a P.file).result = .ok sb) :
    Answered F fresh start P.segments sb := by
  obtain ⟨_, sb', hsb', hlisted, hnum⟩ := P.seek_run timestamp query hint
  rw [h, Except.ok.injEq] at hsb'
  subst hsb'
  refine .created hfresh a ha (fun n hn => hnum n (number_mem_of_announced hn)) ?_
  intro g hg
  rw [hlisted, List.head?_take] at hg
  simpa using hg

namespace Group

variable {ι : Type} {c : ConfigControl} {mtvSession timestamp path : JString}

/-- The start point of a first response to request `i`. -/
def startPoint (G : Group ι c mtvSession timestamp path) (i : ι) : Except Exn Int :=
  transformAbsoluteTime (clockTime c (G.clock i)) (G.seekTime i)

/-- How the machine answers request `i` while the playlist is `w`. -/
def answer (G : Group ι c mtvSession timestamp path) (w : Feed) (i : ι) :
    ∀ q : Query, q.Answer :=
  machine path w.file (G.clock i)

/-- **What the requests of a group keep.**  `F` are the offsets sessions stand at;
`fresh` says whether the key may hold no session. -/
def seekProtocol (G : Group ι c mtvSession timestamp path) (F : Nat → Prop) (fresh : Prop) :
    Protocol ι Feed JString Stored Query Query.Answer PlayseekReply where
  ans := G.answer
  allowed _ := True
  rely w k v := k = sessionKey mtvSession →
    (∃ s, v = some (.session s) ∧ Standing timestamp F w.segments s)
      ∨ (fresh ∧ getSession v = none)
  guar w u k v := k = sessionKey mtvSession →
    ∃ s', v = some (.session s') ∧ Standing timestamp F w.segments s'
      ∧ ∀ s, getSession u = some s → s.sequence ≤ s'.sequence ∧ s.lastTime ≤ s'.lastTime
  post w i r := ∀ sb, r = playseekReply (.ok sb) →
    Answered F fresh (G.startPoint i) w.segments sb
  rely_mono hle h hk := by
    rcases h hk with ⟨s, hv, hts, f, hF, hat⟩ | h
    · exact Or.inl ⟨s, hv, hts, f, hF, hat.mono hle⟩
    · exact Or.inr h
  guar_mono hle h hk := by
    obtain ⟨s', hv, ⟨hts, f, hF, hat⟩, hfwd⟩ := h hk
    exact ⟨s', hv, ⟨hts, f, hF, hat.mono hle⟩, hfwd⟩
  post_mono hle h sb hr := (h sb hr).mono hle
  guar_rely h hk := by
    obtain ⟨s', hv, hst, _⟩ := h hk
    exact Or.inl ⟨s', hv, hst⟩

/-- A request keeps the protocol. -/
theorem keeps (G : Group ι c mtvSession timestamp path) {F : Nat → Prop} {fresh : Prop}
    (hall : fresh → ∀ f, F f) (i : ι) (w : Feed) (u : Option Stored) :
    (G.seekProtocol F fresh).Keeps i (playSeekHandler c (G.request i)) w u := by
  have hans : ∀ w i, (G.seekProtocol F fresh).ans w i = machine path w.file (G.clock i) :=
    fun _ _ => rfl
  refine keeps_playSeekHandler _ hans (G.isPlayseek i) (G.names i) ?_
  intro w₁ _ _ v hv
  rcases hv rfl with ⟨s, rfl, hts, f, hF, hat⟩ | ⟨hfresh, hnone⟩
  · -- the session read goes on: it stands at a segment of every later snapshot
    show (G.seekProtocol F fresh).Keeps i (playSeekWith c path _ _ timestamp _ (some s)) w₁ _
    rw [playSeekWith_kept c path _ _ _ hts]
    refine keeps_followUp _ hans (fun w₂ hw _ => ⟨?_, ?_⟩)
    · intro sb hsb
      exact answered_followUp hF (hat.mono hw) (playseekReply_ok hsb)
    · intro s' hs' _
      obtain ⟨hts', hat', hfwd⟩ := at_followed (hat.mono hw) hs'
      refine ⟨s', rfl, ⟨hts'.trans hts, f, hF, hat'⟩, ?_⟩
      intro s₀ hs₀
      simp only [getSession, Option.some.injEq] at hs₀
      rw [← hs₀]
      exact hfwd
  · -- no session read: a first response
    show (G.seekProtocol F fresh).Keeps i
      (playSeekWith c path _ _ timestamp _ (getSession v)) w₁ v
    rw [hnone]
    refine keeps_seekAnew _ hans ?_ ?_
    · intro e _ sb hsb
      exact absurd (playseekReply_ok hsb) (by simp)
    · intro a ha w₂ hw _
      have hint : IsInt32 a := isInt32_transformAbsoluteTime ha
      refine ⟨fun sb hsb => answered_seekAnew hfresh ha hint (playseekReply_ok hsb), ?_⟩
      intro s' hs' _
      obtain ⟨hts', f, hat'⟩ := at_created hint hs'
      refine ⟨s', rfl, ⟨hts', f, hall hfresh f, hat'⟩, ?_⟩
      intro s₀ hs₀
      rw [hnone] at hs₀
      exact absurd hs₀ (by simp)

/-- The system at the beginning: nobody has done anything. -/
def start (G : Group ι c mtvSession timestamp path) (P : Feed) (store : SessionStore) :
    Sys ι Feed JString Stored Query Query.Answer PlayseekReply where
  world := P
  store := store
  threads := fun i => playSeekHandler c (G.request i)
  seen := fun _ => none

variable [DecidableEq ι]

/-- Some request does its next operation, or the playlist grows. -/
def Step (G : Group ι c mtvSession timestamp path) :
    Sys ι Feed JString Stored Query Query.Answer PlayseekReply →
      Sys ι Feed JString Stored Query Query.Answer PlayseekReply → Prop :=
  Sys.Step G.answer (fun _ => True)

/-- Any interleaving. -/
def Reaches (G : Group ι c mtvSession timestamp path) :
    Sys ι Feed JString Stored Query Query.Answer PlayseekReply →
      Sys ι Feed JString Stored Query Query.Answer PlayseekReply → Prop :=
  Relation.ReflTransGen G.Step

/-- **Every state of every interleaving keeps the protocol.** -/
theorem inv_reaches (G : Group ι c mtvSession timestamp path) {F : Nat → Prop} {fresh : Prop}
    (hall : fresh → ∀ f, F f) {P : Feed} {store : SessionStore}
    (hstore : (∃ s, store (sessionKey mtvSession) = some (.session s)
        ∧ Standing timestamp F P.segments s)
      ∨ (fresh ∧ getSession (store (sessionKey mtvSession)) = none))
    {sys : Sys ι Feed JString Stored Query Query.Answer PlayseekReply}
    (hrun : G.Reaches (G.start P store) sys) : (G.seekProtocol F fresh).Inv sys := by
  refine (G.seekProtocol F fresh).inv_run ⟨trivial, ?_, ?_⟩ hrun
  · intro k hk
    subst hk
    exact hstore
  · intro i
    exact G.keeps hall i P none

/-- A session of the group's timestamp begun over the playlist stands at an offset. -/
theorem standing_of_begun {P : Feed} {store : SessionStore} {s : SessionDef}
    (hstore : store (sessionKey mtvSession) = some (.session s))
    (hbegun : Begun timestamp P s) :
    ∃ f, ∃ s, store (sessionKey mtvSession) = some (.session s)
      ∧ Standing timestamp (fun f' => f' = f) P.segments s := by
  obtain ⟨hts, f, hat⟩ := hbegun.standing
  exact ⟨f, s, hstore, hts, f, rfl, hat⟩

/-! ## §4. One numbering, once there is a session. -/

/-- **Steady-state agreement**: from a session begun over the playlist on, whatever
the interleaving and however the playlist grows meanwhile, no two replies give one
segment two numbers (the `j`-th segment listed has number `n + j`). -/
theorem steady_state_agreement (G : Group ι c mtvSession timestamp path) {P : Feed}
    {store : SessionStore} {s : SessionDef}
    (hstore : store (sessionKey mtvSession) = some (.session s))
    (hbegun : Begun timestamp P s)
    {sys : Sys ι Feed JString Stored Query Query.Answer PlayseekReply}
    (hrun : G.Reaches (G.start P store) sys) {i i' : ι} {sb sb' : List Piece}
    (hi : (sys.threads i).result? = some (playseekReply (.ok sb)))
    (hi' : (sys.threads i').result? = some (playseekReply (.ok sb')))
    {n n' : Int} (hn : announced sb = some n) (hn' : announced sb' = some n')
    {j j' : Nat} {g g' : Segment} (hg : (listed sb)[j]? = some g)
    (hg' : (listed sb')[j']? = some g') (hsame : g.time = g'.time) :
    n + j = n' + j' := by
  obtain ⟨f, hstanding⟩ := standing_of_begun hstore hbegun
  have hinv := G.inv_reaches (fun h : False => h.elim) (Or.inl hstanding) hrun
  -- each number is the place of its segment, counted from the one offset `f`
  have hplace : ∀ {k : ι} {tb : List Piece} {m : Int} {l : Nat} {x : Segment},
      (sys.threads k).result? = some (playseekReply (.ok tb)) → announced tb = some m →
      (listed tb)[l]? = some x →
      ∃ q : Nat, m = q ∧ sys.world.segments[f + q + l]? = some x := by
    intro k tb m l x hk hm hx
    have hne : listed tb ≠ [] := fun h => by rw [h] at hx; simp at hx
    cases Protocol.post_of_inv _ hinv hk tb rfl with
    | followed f' q hF number shown =>
        subst hF
        exact ⟨q + 1, number hne m hm, shown l x hx⟩
    | created hfresh => exact hfresh.elim
  obtain ⟨q, hq, hpos⟩ := hplace hi hn hg
  obtain ⟨q', hq', hpos'⟩ := hplace hi' hn' hg'
  have heq := sys.world.increasing.position_unique hpos hpos' hsame
  omega

end Group

/-- Requests at the given times, each seeking one minute back. -/
def minuteGroup (n : Nat) (clock : Fin n → Int) :
    Group (Fin n) shippedConfig "viewer".toList "1".toList
      (shippedConfig.rootPath ++ "/cctv.m3u8".toList) where
  request := fun _ => playseekRequest "000100".toList "viewer".toList "1".toList
    "/cctv.m3u8".toList none
  seekTime := fun _ => "000100".toList
  uri := fun _ => ⟨some "/cctv.m3u8".toList, none⟩
  isPlayseek := fun _ => playseekRequest_isPlayseek _ _ _ _ _
  names := fun _ => Or.inl rfl
  clock := clock

/-- The playlist they share. -/
def minuteFeed : Feed := (Playlist.live _ liveTimes_dropped).toFeed

/-- The playlist text in the reply of a request that has ended with one. -/
def contentOf {ι : Type} (sys : Sys ι Feed JString Stored Query Query.Answer PlayseekReply)
    (i : ι) : List Piece :=
  match (sys.threads i).result? with
  | some (.ok (_, info)) => info.m3u8Content.getD []
  | _ => []

/-- The store with the session of segment 1508153098. -/
def steadyStore : SessionStore :=
  fun _ => some (.session ⟨some "1".toList, 1508153098, 0⟩)

/-- Two requests go through together and write the same; a third follows. -/
def steadyRun : Sys (Fin 3) Feed JString Stored Query Query.Answer PlayseekReply :=
  Sys.exec (minuteGroup 3 (fun _ => 1508153152000)).answer
    [0, 0, 0, 1, 1, 1, 0, 1, 0, 1, 2, 2, 2, 2, 2]
    ((minuteGroup 3 (fun _ => 1508153152000)).start minuteFeed steadyStore)

theorem steadyRun_begun :
    Begun "1".toList minuteFeed ⟨some "1".toList, 1508153098, 0⟩ :=
  .created (a := 1508153092) ⟨by decide, by decide⟩
    (show _ ∈ (m3u8PlayseekFilter "1".toList none 1508153092 minuteFeed.file).puts
      by decide +kernel)

/-- What the first and the third request are answered. -/
theorem steadyRun_replies :
    ((steadyRun.threads 0).result? = some (playseekReply (.ok (contentOf steadyRun 0)))
        ∧ announced (contentOf steadyRun 0) = some 1
        ∧ (listed (contentOf steadyRun 0))[1]? = some (liveSegment 1508153110))
      ∧ (steadyRun.threads 2).result? = some (playseekReply (.ok (contentOf steadyRun 2)))
        ∧ announced (contentOf steadyRun 2) = some 2
        ∧ (listed (contentOf steadyRun 2))[0]? = some (liveSegment 1508153110) := by
  decide +kernel

/-- Both list segment 1508153110, at places 1 and 0 under the numbers 1 and 2. -/
theorem steady_state_agreement_overlap :
    (listed (contentOf steadyRun 0))[1]? = (listed (contentOf steadyRun 2))[0]?
      ∧ announced (contentOf steadyRun 0) = some 1
      ∧ announced (contentOf steadyRun 2) = some 2
      ∧ (1 : Int) + (1 : Nat) = 2 + (0 : Nat) := by
  obtain ⟨⟨hi, hn, hg⟩, hi', hn', hg'⟩ := steadyRun_replies
  exact ⟨hg.trans hg'.symm, hn, hn',
    Group.steady_state_agreement (minuteGroup 3 (fun _ => 1508153152000))
      (show steadyStore _ = _ from rfl) steadyRun_begun (Sys.exec_reaches _ _ _ _)
      hi hi' hn hn' hg hg' rfl⟩

namespace Group

variable {ι : Type} {c : ConfigControl} {mtvSession timestamp path : JString} [DecidableEq ι]

/-! ## §5. What moves the stored session. -/

/-- What the key holds has not gone back. -/
def Forward (before after : Option Stored) : Prop :=
  ∀ s, getSession before = some s →
    ∃ s', getSession after = some s' ∧ s.sequence ≤ s'.sequence ∧ s.lastTime ≤ s'.lastTime

theorem Forward.refl (v : Option Stored) : Forward v v :=
  fun s hs => ⟨s, hs, le_rfl, le_rfl⟩

theorem Forward.trans {u v w : Option Stored} (h : Forward u v) (h' : Forward v w) :
    Forward u w := by
  intro s hs
  obtain ⟨s₁, hs₁, h1, h2⟩ := h s hs
  obtain ⟨s₂, hs₂, h3, h4⟩ := h' s₁ hs₁
  exact ⟨s₂, hs₂, le_trans h1 h3, le_trans h2 h4⟩

/-- A step in which a request writes only over the very value it has read. -/
inductive FreshStep (G : Group ι c mtvSession timestamp path) :
    Sys ι Feed JString Stored Query Query.Answer PlayseekReply →
      Sys ι Feed JString Stored Query Query.Answer PlayseekReply → Prop
  | act (sys : Sys ι Feed JString Stored Query Query.Answer PlayseekReply) (i : ι)
      (h : (sys.act G.answer i).store (sessionKey mtvSession)
          ≠ sys.store (sessionKey mtvSession) →
        sys.seen i = sys.store (sessionKey mtvSession)) :
      FreshStep G sys (sys.act G.answer i)
  | grow (sys : Sys ι Feed JString Stored Query Query.Answer PlayseekReply) (w : Feed)
      (hle : sys.world ≤ w) : FreshStep G sys { sys with world := w }

theorem FreshStep.step {G : Group ι c mtvSession timestamp path}
    {sys sys' : Sys ι Feed JString Stored Query Query.Answer PlayseekReply}
    (h : G.FreshStep sys sys') : G.Step sys sys' := by
  cases h with
  | act i _ => exact Sys.Step.act sys i
  | grow w hle => exact Sys.Step.grow sys w hle trivial

/-- **Step lemma**: a request that writes over what it has read moves the session
forward. -/
theorem forward_freshStep (G : Group ι c mtvSession timestamp path) {F : Nat → Prop}
    {fresh : Prop} {sys sys' : Sys ι Feed JString Stored Query Query.Answer PlayseekReply}
    (hinv : (G.seekProtocol F fresh).Inv sys) (h : G.FreshStep sys sys') :
    Forward (sys.store (sessionKey mtvSession)) (sys'.store (sessionKey mtvSession)) := by
  cases h with
  | grow w hle => exact Forward.refl _
  | act i hfresh =>
      by_cases hsame : (sys.act G.answer i).store (sessionKey mtvSession)
          = sys.store (sessionKey mtvSession)
      · rw [hsame]
        exact Forward.refl _
      · have hread := hfresh hsame
        rcases (G.seekProtocol F fresh).act_store hinv i with e | ⟨k, v, e, hguar⟩
        · exact absurd (congrFun e _) hsame
        · have e' : (sys.act G.answer i).store = Function.update sys.store k v := e
          by_cases hk : k = sessionKey mtvSession
          · obtain ⟨s', hv, _, hfwd⟩ := hguar hk
            rw [e', hk, Function.update_self, hv]
            intro s hs
            exact ⟨s', rfl, hfwd s (by rw [hread]; exact hs)⟩
          · rw [e', Function.update_of_ne (Ne.symm hk)] at hsame
            exact absurd rfl hsame

/-- **No backward move without a stale write**: in any interleaving of requests with
one timestamp, from any state on in which requests write only over the value they
have read, `sequence` and `last_time` in the store never decrease. -/
theorem stored_session_forward (G : Group ι c mtvSession timestamp path) {P : Feed}
    {store : SessionStore}
    (hstore : ∀ s, getSession (store (sessionKey mtvSession)) = some s →
      Begun timestamp P s)
    {sys sys' : Sys ι Feed JString Stored Query Query.Answer PlayseekReply}
    (hrun : G.Reaches (G.start P store) sys)
    (hfresh : Relation.ReflTransGen G.FreshStep sys sys') :
    Forward (sys.store (sessionKey mtvSession)) (sys'.store (sessionKey mtvSession)) := by
  have hstart : (∃ s, store (sessionKey mtvSession) = some (.session s)
        ∧ Standing timestamp (fun _ => True) P.segments s)
      ∨ (True ∧ getSession (store (sessionKey mtvSession)) = none) := by
    cases hv : store (sessionKey mtvSession) with
    | none => exact Or.inr ⟨trivial, rfl⟩
    | some v =>
        cases v with
        | unreadable raw => exact Or.inr ⟨trivial, rfl⟩
        | session s =>
            obtain ⟨hts, f, hat⟩ := (hstore s (by rw [hv]; rfl)).standing
            exact Or.inl ⟨s, rfl, hts, f, trivial, hat⟩
  have hinv := G.inv_reaches (fun _ _ => trivial) hstart hrun
  -- induction on the fresh run, carrying the invariant along with the order
  have hrun' : ∀ {sys''}, Relation.ReflTransGen G.FreshStep sys sys'' →
      (G.seekProtocol (fun _ => True) True).Inv sys''
        ∧ Forward (sys.store (sessionKey mtvSession)) (sys''.store (sessionKey mtvSession)) := by
    intro sys'' h
    induction h with
    | refl => exact ⟨hinv, Forward.refl _⟩
    | tail _ hstep ih =>
        exact ⟨Protocol.inv_step _ ih.1 hstep.step,
          ih.2.trans (G.forward_freshStep ih.1 hstep)⟩
  exact (hrun' hfresh).2

end Group

/-- One request creates the session and a second has read it and its playlist. -/
def creatingRun : Sys (Fin 4) Feed JString Stored Query Query.Answer PlayseekReply :=
  Sys.exec (minuteGroup 4 (fun _ => 1508153152000)).answer [0, 0, 0, 0, 0, 0, 1, 1, 1, 1]
    ((minuteGroup 4 (fun _ => 1508153152000)).start minuteFeed emptyStore)

theorem stored_session_forward_next :
    Group.Forward (creatingRun.store (sessionKey "viewer".toList))
      ((creatingRun.act (minuteGroup 4 (fun _ => 1508153152000)).answer 1).store
        (sessionKey "viewer".toList)) :=
  Group.stored_session_forward (minuteGroup 4 (fun _ => 1508153152000))
    (fun s hs => absurd hs (by simp [getSession, emptyStore])) (Sys.exec_reaches _ _ _ _)
    (Relation.ReflTransGen.single (.act creatingRun 1 (fun _ => by decide +kernel)))

/-- Two more requests overtake the second one. -/
def overtakenRun : Sys (Fin 4) Feed JString Stored Query Query.Answer PlayseekReply :=
  Sys.exec (minuteGroup 4 (fun _ => 1508153152000)).answer [2, 2, 2, 2, 2, 3, 3, 3, 3, 3]
    creatingRun

/-- **A stale write moves the session back**: the store goes from the third segment
with number 2 to the second with number 1. -/
theorem stored_session_moves_back :
    ∃ sys sys' : Sys (Fin 4) Feed JString Stored Query Query.Answer PlayseekReply,
      (minuteGroup 4 (fun _ => 1508153152000)).Reaches
          ((minuteGroup 4 (fun _ => 1508153152000)).start minuteFeed emptyStore) sys
        ∧ (minuteGroup 4 (fun _ => 1508153152000)).Reaches sys sys'
        ∧ sys.store (sessionKey "viewer".toList)
            = some (.session ⟨some "1".toList, 1508153110, 2⟩)
        ∧ sys'.store (sessionKey "viewer".toList)
            = some (.session ⟨some "1".toList, 1508153104, 1⟩) := by
  refine ⟨overtakenRun, Sys.exec (minuteGroup 4 (fun _ => 1508153152000)).answer [1] overtakenRun,
    ?_, Sys.exec_reaches _ _ _ _, by decide +kernel⟩
  exact (Sys.exec_reaches _ _ _ _).trans (Sys.exec_reaches _ _ _ _)

namespace Group

variable {ι : Type} {c : ConfigControl} {mtvSession timestamp path : JString} [DecidableEq ι]

/-! ## §6. First requests. -/

/-- **Where first responses start**: with no session at first, a reply that announces
0 and lists a segment starts with the first segment that passes the comparison with
that request's own start point; equal start points give equal first segments. -/
theorem first_replies_start (G : Group ι c mtvSession timestamp path) {P : Feed}
    {store : SessionStore} (hstore : getSession (store (sessionKey mtvSession)) = none)
    {sys : Sys ι Feed JString Stored Query Query.Answer PlayseekReply}
    (hrun : G.Reaches (G.start P store) sys) {i i' : ι} {sb sb' : List Piece}
    (hi : (sys.threads i).result? = some (playseekReply (.ok sb)))
    (hi' : (sys.threads i').result? = some (playseekReply (.ok sb')))
    (hn : announced sb = some 0) (hn' : announced sb' = some 0)
    (hne : listed sb ≠ []) (hne' : listed sb' ≠ []) :
    (∃ a, G.startPoint i = .ok a
        ∧ (listed sb).head? = (selected a sys.world.segments).head?)
      ∧ (G.startPoint i = G.startPoint i' → (listed sb).head? = (listed sb').head?) := by
  have hinv := G.inv_reaches (F := fun _ => True) (fun _ _ => trivial)
    (Or.inr ⟨trivial, hstore⟩) hrun
  have hfirst : ∀ {k : ι} {tb : List Piece},
      (sys.threads k).result? = some (playseekReply (.ok tb)) → announced tb = some 0 →
      listed tb ≠ [] →
      ∃ a, G.startPoint k = .ok a
        ∧ (listed tb).head? = (selected a sys.world.segments).head? := by
    intro k tb hk h0 hlist
    cases Protocol.post_of_inv _ hinv hk tb rfl with
    | followed f q _ number _ =>
        have h := number hlist 0 h0
        omega
    | created _ a ha _ first =>
        obtain ⟨g, rest, hg⟩ := List.exists_cons_of_ne_nil hlist
        refine ⟨a, ha, ?_⟩
        rw [hg] at first ⊢
        exact (first g rfl).symm
  obtain ⟨a, ha, hhead⟩ := hfirst hi hn hne
  obtain ⟨a', ha', hhead'⟩ := hfirst hi' hn' hne'
  refine ⟨⟨a, ha, hhead⟩, ?_⟩
  intro heq
  rw [ha, ha', Except.ok.injEq] at heq
  rw [hhead, hhead', heq]

end Group

/-- Two first requests that both find no session, at the given clock readings. -/
def firstRun (clock : Fin 2 → Int) :
    Sys (Fin 2) Feed JString Stored Query Query.Answer PlayseekReply :=
  Sys.exec (minuteGroup 2 clock).answer [0, 0, 0, 1, 1, 1, 0, 0, 0, 1, 1, 1]
    ((minuteGroup 2 clock).start minuteFeed emptyStore)

/-- What two first requests are answered at one time. -/
theorem firstRun_replies :
    (((firstRun (fun _ => 1508153152000)).threads 0).result?
          = some (playseekReply (.ok (contentOf (firstRun (fun _ => 1508153152000)) 0)))
        ∧ announced (contentOf (firstRun (fun _ => 1508153152000)) 0) = some 0
        ∧ listed (contentOf (firstRun (fun _ => 1508153152000)) 0) ≠ [])
      ∧ ((firstRun (fun _ => 1508153152000)).threads 1).result?
          = some (playseekReply (.ok (contentOf (firstRun (fun _ => 1508153152000)) 1)))
        ∧ announced (contentOf (firstRun (fun _ => 1508153152000)) 1) = some 0
        ∧ listed (contentOf (firstRun (fun _ => 1508153152000)) 1) ≠ [] := by
  decide +kernel

theorem first_replies_start_together :
    (listed (contentOf (firstRun (fun _ => 1508153152000)) 0)).head?
      = (listed (contentOf (firstRun (fun _ => 1508153152000)) 1)).head? := by
  obtain ⟨⟨hi, hn, hne⟩, hi', hn', hne'⟩ := firstRun_replies
  exact (Group.first_replies_start (minuteGroup 2 (fun _ => 1508153152000))
    (show getSession (emptyStore _) = none from rfl)
    (Sys.exec_reaches _ _ _ _) hi hi' hn hn' hne hne').2 rfl

/-- Two clock readings ten seconds apart. -/
def tenApart : Fin 2 → Int := fun i => if i = 0 then 1508153152000 else 1508153162000

/-- **Two sessions are created**: both replies announce 0 and start with different
segments. -/
theorem first_replies_differ :
    (minuteGroup 2 tenApart).Reaches
        ((minuteGroup 2 tenApart).start minuteFeed emptyStore) (firstRun tenApart)
      ∧ ((firstRun tenApart).threads 0).result?
          = some (playseekReply (.ok (contentOf (firstRun tenApart) 0)))
      ∧ ((firstRun tenApart).threads 1).result?
          = some (playseekReply (.ok (contentOf (firstRun tenApart) 1)))
      ∧ announced (contentOf (firstRun tenApart) 0) = some 0
      ∧ announced (contentOf (firstRun tenApart) 1) = some 0
      ∧ (listed (contentOf (firstRun tenApart) 0)).head? = some (liveSegment 1508153098)
      ∧ (listed (contentOf (firstRun tenApart) 1)).head? = some (liveSegment 1508153104) :=
  ⟨Sys.exec_reaches _ _ _ _, by decide +kernel⟩

end NginxNettyHls.M3u8Filter
