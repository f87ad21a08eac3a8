/-
  NginxNettyHls.KeyValue.Timed
  ────────────────────────────
  **A STORE OF ENCODED VALUES UNDER A CLOCK**, and what it refines.

  A `Timed` is the store as it is deployed: entries have deadlines, a clock moves
  on, entries may be lost, and the clients, which come at any time and in any
  number, store the values in an encoding.  It is compared with the `Service` of
  plain values, where a key may expire at any moment:

    • `Timed.simulates_reaches` — SIMULATION: every run of the deployed store is a
      run of the plain one, with the same clients at the same point of their work,
      and whatever can be read in the one is what the other holds.  A key expires
      in the plain store when a client next looks for it, not when its deadline
      passes, so that a tick of the clock is no step there;
    • `Timed.deadline_of_reaches` — no entry outlives the time to live of a write;
    • `Timed.idle_invisible` — a key no client touches is gone by then.
-/
import NginxNettyHls.KeyValue.Arrivals
import NginxNettyHls.KeyValue.Expiry

namespace KeyValue

variable {K V W Q : Type} {A : Q → Type} {R : Type}

/-! ## §1. Encoded values. -/

/-- How values are stored and read back. -/
structure Codec (V W : Type) where
  encode : V → W
  decode : W → V

/-- The value is read back as it was stored. -/
def Codec.Keeps (c : Codec V W) (v : V) : Prop := c.decode (c.encode v) = v

namespace Prog

/-- The client that stores its values encoded. -/
def encode (c : Codec V W) : Prog K V Q A R → Prog K W Q A R
  | ret r => ret r
  | get k next => get k (fun w => encode c (next (w.map c.decode)))
  | set k v ttl next => set k (c.encode v) ttl (encode c next)
  | del k next => del k (encode c next)
  | ask q next => ask q (fun a => encode c (next a))

def Op.encode (c : Codec V W) : Op K V → Op K W
  | .get k => .get k
  | .set k v ttl => .set k (c.encode v) ttl
  | .del k => .del k

theorem each_encode {c : Codec V W} {Φ : Op K W → Prop} :
    ∀ (p : Prog K V Q A R), p.Each (fun op => Φ (op.encode c)) → (p.encode c).Each Φ := by
  intro p
  induction p with
  | ret r => intro _; trivial
  | get k next ih => intro h; exact ⟨h.1, fun w => ih _ (h.2 _)⟩
  | set k v ttl next ih => intro h; exact ⟨h.1, ih h.2⟩
  | del k next ih => intro h; exact ⟨h.1, ih h.2⟩
  | ask q next ih => intro h a; exact ih a (h a)

theorem each_mono {Φ Ψ : Op K V → Prop} (hΦ : ∀ op, Φ op → Ψ op) :
    ∀ (p : Prog K V Q A R), p.Each Φ → p.Each Ψ := by
  intro p
  induction p with
  | ret r => intro _; trivial
  | get k next ih => intro h; exact ⟨hΦ _ h.1, fun v => ih v (h.2 v)⟩
  | set k v ttl next ih => intro h; exact ⟨hΦ _ h.1, ih h.2⟩
  | del k next ih => intro h; exact ⟨hΦ _ h.1, ih h.2⟩
  | ask q next ih => intro h a; exact ih a (h a)

variable [DecidableEq K]

/-- One operation at the instant `now`. -/
def stepAt (now : Int) (env : ∀ q, A q) :
    Prog K V Q A R → Expiring K V → Expiring K V × Prog K V Q A R
  | ret r, σ => (σ, ret r)
  | get k next, σ => (σ, next (visible now σ k))
  | set k v ttl next, σ => (Function.update σ k (some ⟨v, now + ttl⟩), next)
  | del k next, σ => (Function.update σ k none, next)
  | ask q next, σ => (σ, next (env q))

/-- What is left of a client has the operations it had. -/
theorem each_stepAt {Φ : Op K V → Prop} {now : Int} {env : ∀ q, A q} {σ : Expiring K V}
    {p : Prog K V Q A R} (h : p.Each Φ) : (p.stepAt now env σ).2.Each Φ := by
  cases p with
  | ret r => trivial
  | get k next => exact h.2 _
  | set k v ttl next => exact h.2
  | del k next => exact h.2
  | ask q next => exact h _

/-- A client that does not touch a key leaves its entry as it is. -/
theorem stepAt_frame {k : K} {now : Int} {env : ∀ q, A q} {σ : Expiring K V}
    {p : Prog K V Q A R} (h : p.Each (fun op => op.key ≠ k)) :
    (p.stepAt now env σ).1 k = σ k := by
  cases p with
  | ret r => rfl
  | get k' next => rfl
  | set k' v ttl next => exact Function.update_of_ne (Ne.symm h.1) _ _
  | del k' next => exact Function.update_of_ne (Ne.symm h.1) _ _
  | ask q next => rfl

end Prog

/-! ## §2. The deployed store. -/

/-- A clock, a store and the clients at work on it. -/
structure Timed (K V Q : Type) (A : Q → Type) (R : Type) where
  now : Int
  store : Expiring K V
  running : List (Prog K V Q A R)

namespace Timed

/-- What can be read in the deployed store is what the plain one holds. -/
def Agree (c : Codec V W) (now : Int) (σ : Expiring K W) (τ : Store K V) : Prop :=
  ∀ k, visible now σ k = none ∨ (visible now σ k).map c.decode = τ k

/-- What can be read later could be read before. -/
theorem Agree.later {c : Codec V W} {now later : Int} {σ : Expiring K W} {τ : Store K V}
    (h : Agree c now σ τ) (hle : now ≤ later) :
    Agree c later σ τ := by
  intro k
  have hk := h k
  unfold visible at hk ⊢
  cases hentry : σ k with
  | none => exact .inl rfl
  | some e =>
      rw [hentry] at hk
      dsimp only at hk ⊢
      by_cases hdead : e.deadline < later
      · rw [if_pos hdead]
        exact .inl rfl
      · rw [if_neg (by omega)] at hk
        rw [if_neg hdead]
        exact hk

/-- The clients that are left after one of them has acted. -/
theorem forall_mem_replace {α : Type} {Ψ : α → Prop} {left right : List α} {x x' : α}
    (h : ∀ y ∈ left ++ x :: right, Ψ y) (hx' : Ψ x') : ∀ y ∈ left ++ x' :: right, Ψ y := by
  intro y hy
  rcases List.mem_append.mp hy with hy | hy
  · exact h y (List.mem_append_left _ hy)
  · rcases List.mem_cons.mp hy with rfl | hy
    · exact hx'
    · exact h y (List.mem_append_right _ (List.mem_cons_of_mem _ hy))

variable [DecidableEq K]

/-- What is there after a key was cleared was there before. -/
theorem of_update_none {σ : Expiring K V} {k k' : K} {e : Entry V}
    (h : Function.update σ k' none k = some e) : σ k = some e := by
  by_cases hk : k = k'
  · subst hk
    rw [Function.update_self] at h
    exact absurd h (by simp)
  · rwa [Function.update_of_ne hk] at h

/-- One step of the deployed store. -/
inductive Step (arrives : Prog K V Q A R → Prop) :
    Timed K V Q A R → Timed K V Q A R → Prop
  | arrive (t : Timed K V Q A R) {p : Prog K V Q A R} (hp : arrives p) :
      Step arrives t { t with running := p :: t.running }
  /-- One operation of one client; the others wait. -/
  | operate (env : ∀ q, A q) (now : Int) (σ : Expiring K V) (left right : List (Prog K V Q A R))
      (p : Prog K V Q A R) :
      Step arrives ⟨now, σ, left ++ p :: right⟩
        ⟨now, (p.stepAt now env σ).1, left ++ (p.stepAt now env σ).2 :: right⟩
  | tick (t : Timed K V Q A R) {now : Int} (hle : t.now ≤ now) :
      Step arrives t { t with now := now }
  /-- An entry is evicted. -/
  | lose (t : Timed K V Q A R) (k : K) :
      Step arrives t { t with store := Function.update t.store k none }

/-- A run of the deployed store. -/
def Reaches (arrives : Prog K V Q A R → Prop) : Timed K V Q A R → Timed K V Q A R → Prop :=
  Relation.ReflTransGen (Step arrives)

/-- A client that is there can run to its end at one instant. -/
theorem reaches_execAt {arrives : Prog K V Q A R → Prop} (env : ∀ q, A q) (now : Int)
    (rest : List (Prog K V Q A R)) :
    ∀ (p : Prog K V Q A R) (σ : Expiring K V),
      Reaches arrives ⟨now, σ, p :: rest⟩
        ⟨now, (p.execAt now env σ).1, .ret (p.execAt now env σ).2 :: rest⟩ := by
  -- one operation, then what is left of the client
  have hstep : ∀ (p : Prog K V Q A R) (σ : Expiring K V) (t : Timed K V Q A R),
      Reaches arrives ⟨now, (p.stepAt now env σ).1, (p.stepAt now env σ).2 :: rest⟩ t →
      Reaches arrives ⟨now, σ, p :: rest⟩ t :=
    fun p σ t h => Relation.ReflTransGen.head (Step.operate env now σ [] rest p) h
  intro p
  induction p with
  | ret r => intro σ; exact Relation.ReflTransGen.refl
  | get k next ih => intro σ; exact hstep _ σ _ (ih (visible now σ k) σ)
  | set k v ttl next ih =>
      intro σ
      exact hstep _ σ _ (ih (Function.update σ k (some ⟨v, now + ttl⟩)))
  | del k next ih => intro σ; exact hstep _ σ _ (ih (Function.update σ k none))
  | ask q next ih => intro σ; exact hstep _ σ _ (ih (env q) σ)

/-! ## §3. Simulation. -/

/-- A client that stores only values that are read back. -/
abbrev Faithful (c : Codec V W) (p : Prog K V Q A R) : Prop :=
  p.Each (Prog.Op.Leaves (fun _ v => ∀ x ∈ v, c.Keeps x))

/-- The plain service `s` stands for the deployed store `t`. -/
structure Simulates (c : Codec V W) (t : Timed K W Q A R) (s : Service K V Q A R) : Prop where
  running : t.running = s.running.map (Prog.encode c)
  store : Agree c t.now t.store s.store
  faithful : ∀ p ∈ s.running, Faithful c p

section Agree

variable {c : Codec V W} {now : Int} {σ : Expiring K W} {τ : Store K V}

/-- An entry that is gone in the deployed store may expire in the plain one. -/
theorem Agree.expire (h : Agree c now σ τ) {k : K} (hk : visible now σ k = none) :
    Agree c now σ (Function.update τ k none) := by
  intro k'
  by_cases hkk : k' = k
  · subst hkk
    exact .inl hk
  · rw [Function.update_of_ne hkk]
    exact h k'

/-- A write of a value that is read back, whatever its time to live. -/
theorem Agree.set (h : Agree c now σ τ) (k : K) {v : V} (hv : c.Keeps v) (ttl : Int) :
    Agree c now (Function.update σ k (some ⟨c.encode v, now + ttl⟩))
      (Function.update τ k (some v)) := by
  intro k'
  by_cases hkk : k' = k
  · subst hkk
    unfold visible
    rw [Function.update_self, Function.update_self]
    dsimp only
    split_ifs with hdead
    · exact .inl rfl
    · exact .inr (congrArg some hv)
  · unfold visible
    rw [Function.update_of_ne hkk, Function.update_of_ne hkk]
    exact h k'

/-- A key that is cleared in the deployed store. -/
theorem Agree.clear (h : Agree c now σ τ) (k : K) : Agree c now (Function.update σ k none) τ := by
  intro k'
  by_cases hkk : k' = k
  · subst hkk
    unfold visible
    rw [Function.update_self]
    exact .inl rfl
  · unfold visible
    rw [Function.update_of_ne hkk]
    exact h k'

end Agree

variable {c : Codec V W} {arrives : Prog K V Q A R → Prop}

/-- **One operation of an encoded client** is one of the plain client, after the key it reads
has expired if it is gone. -/
theorem simulates_operate (arrives : Prog K V Q A R → Prop) (env : ∀ q, A q) {now : Int}
    {σ : Expiring K W} {τ : Store K V} (h : Agree c now σ τ)
    (left right : List (Prog K V Q A R)) {p : Prog K V Q A R} (hp : Faithful c p) :
    ∃ τ' p', Service.Reaches arrives ⟨τ, left ++ p :: right⟩ ⟨τ', left ++ p' :: right⟩
      ∧ (p.encode c).stepAt now env σ = (((p.encode c).stepAt now env σ).1, p'.encode c)
      ∧ Agree c now ((p.encode c).stepAt now env σ).1 τ' ∧ Faithful c p' := by
  have hoperate : ∀ τ' : Store K V, Service.Reaches arrives ⟨τ', left ++ p :: right⟩
      ⟨(p.step env τ').1, left ++ (p.step env τ').2 :: right⟩ :=
    fun τ' => Relation.ReflTransGen.single (Service.Step.operate env τ' left right p)
  have hleft : ∀ τ' : Store K V, Faithful c (p.step env τ').2 := fun τ' => Prog.each_step env τ' hp
  cases p with
  | ret r => exact ⟨_, _, hoperate τ, rfl, h, hleft τ⟩
  | get k next =>
      by_cases hgone : visible now σ k = none
      · -- the plain store may still hold the value: it expires first
        refine ⟨_, _, Relation.ReflTransGen.head (Service.Step.expire _ k)
          (hoperate (Function.update τ k none)), ?_, h.expire hgone, hleft _⟩
        show (σ, (next ((visible now σ k).map c.decode)).encode c)
          = (σ, (next (Function.update τ k none k)).encode c)
        rw [hgone, Function.update_self]
        rfl
      · have hread := (h k).resolve_left hgone
        refine ⟨_, _, hoperate τ, ?_, h, hleft τ⟩
        show (σ, (next ((visible now σ k).map c.decode)).encode c) = (σ, (next (τ k)).encode c)
        rw [hread]
  | set k v ttl next =>
      exact ⟨_, _, hoperate τ, rfl, h.set k (hp.1 v rfl) ttl, hleft τ⟩
  | del k next =>
      refine ⟨_, _, hoperate τ, rfl, ?_, hleft τ⟩
      have hgone : visible now (Function.update σ k none) k = none := by
        unfold visible
        rw [Function.update_self]
      exact (h.clear k).expire hgone
  | ask q next => exact ⟨_, _, hoperate τ, rfl, h, hleft τ⟩

/-- The encoded clients that may come. -/
def Encoded (c : Codec V W) (arrives : Prog K V Q A R → Prop) (q : Prog K W Q A R) : Prop :=
  ∃ p, arrives p ∧ q = p.encode c

/-- **Step lemma**. -/
theorem simulates_step (harr : ∀ p, arrives p → Faithful c p) {t t' : Timed K W Q A R}
    {s : Service K V Q A R} (h : Simulates c t s) (hstep : Step (Encoded c arrives) t t') :
    ∃ s', Service.Reaches arrives s s' ∧ Simulates c t' s' := by
  cases hstep with
  | arrive _ hp =>
      obtain ⟨p, hp, rfl⟩ := hp
      refine ⟨_, Relation.ReflTransGen.single (Service.Step.arrive s hp), ?_, h.store, ?_⟩
      · show _ :: t.running = _
        rw [h.running]
        rfl
      · exact List.forall_mem_cons.mpr ⟨harr p hp, h.faithful⟩
  | operate env now σ left right q =>
      obtain ⟨l, pr, hl, hleft, hpr⟩ := List.map_eq_append_iff.mp h.running.symm
      obtain ⟨p, r, rfl, rfl, hright⟩ := List.map_eq_cons_iff.mp hpr
      subst hleft
      subst hright
      have hp : Faithful c p := h.faithful p (by rw [hl]; simp)
      obtain ⟨τ', p', hreach, heq, hagree, hp'⟩ :=
        simulates_operate arrives env h.store l r hp
      refine ⟨⟨τ', l ++ p' :: r⟩, ?_, ?_, hagree, ?_⟩
      · obtain ⟨τ, running⟩ := s
        dsimp only at hl
        subst hl
        exact hreach
      · dsimp only
        rw [heq, List.map_append, List.map_cons]
      · have hall := h.faithful
        rw [hl] at hall
        exact forall_mem_replace hall hp'
  | tick _ hle => exact ⟨s, Relation.ReflTransGen.refl, h.running, h.store.later hle, h.faithful⟩
  | lose _ k => exact ⟨s, Relation.ReflTransGen.refl, h.running, h.store.clear k, h.faithful⟩

/-- **Run lemma**: every run of the deployed store from nothing is a run of the plain one. -/
theorem simulates_reaches (harr : ∀ p, arrives p → Faithful c p) {now : Int}
    {t : Timed K W Q A R} (h : Reaches (Encoded c arrives) ⟨now, fun _ => none, []⟩ t) :
    ∃ s, Service.Reaches arrives ⟨fun _ => none, []⟩ s ∧ Simulates c t s := by
  induction h with
  | refl =>
      exact ⟨_, Relation.ReflTransGen.refl, rfl, fun _ => .inl rfl,
        fun _ hp => absurd hp List.not_mem_nil⟩
  | tail _ hstep ih =>
      obtain ⟨s, hreach, hsim⟩ := ih
      obtain ⟨s', hreach', hsim'⟩ := simulates_step harr hsim hstep
      exact ⟨s', hreach.trans hreach', hsim'⟩

/-! ## §4. Deadlines. -/

section Deadlines

variable {arrives : Prog K V Q A R → Prop} {ttl : Int}

/-- No entry lasts longer than `ttl` from now, and no client will write one that does. -/
structure Bounded (ttl : Int) (t : Timed K V Q A R) : Prop where
  deadline : ∀ k e, t.store k = some e → e.deadline ≤ t.now + ttl
  running : ∀ p ∈ t.running, p.Each (Prog.Op.LivesFor ttl)

/-- An operation writes an entry that lasts for `ttl`, or none. -/
theorem stepAt_entry {now : Int} {env : ∀ q, A q} {σ : Expiring K V} {p : Prog K V Q A R}
    (h : p.Each (Prog.Op.LivesFor ttl)) {k : K} {e : Entry V}
    (he : (p.stepAt now env σ).1 k = some e) : σ k = some e ∨ e.deadline = now + ttl := by
  cases p with
  | ret r => exact .inl he
  | get k' next => exact .inl he
  | ask q next => exact .inl he
  | set k' v t next =>
      obtain rfl : t = ttl := h.1
      have he' : Function.update σ k' (some ⟨v, now + t⟩) k = some e := he
      by_cases hk : k = k'
      · subst hk
        rw [Function.update_self] at he'
        rw [← Option.some.inj he']
        exact .inr rfl
      · rw [Function.update_of_ne hk] at he'
        exact .inl he'
  | del k' next => exact .inl (of_update_none he)

theorem bounded_step (harr : ∀ p, arrives p → p.Each (Prog.Op.LivesFor ttl))
    {t t' : Timed K V Q A R} (h : Bounded ttl t) (hstep : Step arrives t t') :
    Bounded ttl t' := by
  cases hstep with
  | arrive _ hp => exact ⟨h.deadline, List.forall_mem_cons.mpr ⟨harr _ hp, h.running⟩⟩
  | operate env now σ left right p =>
      have hp := h.running p (by simp)
      refine ⟨?_, forall_mem_replace h.running (Prog.each_stepAt hp)⟩
      intro k e he
      rcases stepAt_entry hp he with hold | hnew
      · exact h.deadline k e hold
      · show e.deadline ≤ now + ttl
        omega
  | tick _ hle =>
      refine ⟨?_, h.running⟩
      intro k e he
      have hold := h.deadline k e he
      dsimp only
      omega
  | lose _ k =>
      refine ⟨?_, h.running⟩
      intro k' e he
      exact h.deadline k' e (of_update_none he)

/-- **No entry outlives a write** by more than its time to live. -/
theorem bounded_of_reaches (harr : ∀ p, arrives p → p.Each (Prog.Op.LivesFor ttl)) {now : Int}
    {t : Timed K V Q A R} (h : Reaches arrives ⟨now, fun _ => none, []⟩ t) : Bounded ttl t := by
  induction h with
  | refl =>
      exact ⟨fun _ _ he => absurd he (by simp), fun _ hp => absurd hp List.not_mem_nil⟩
  | tail _ hstep ih => exact bounded_step harr ih hstep

/-- Nobody at work touches `k`, and its entry is `e` or gone. -/
structure Idle (k : K) (entry : Option (Entry V)) (t : Timed K V Q A R) : Prop where
  running : ∀ p ∈ t.running, p.Each (fun op => op.key ≠ k)
  entry : t.store k = entry ∨ t.store k = none

theorem idle_step {k : K} {entry : Option (Entry V)}
    (harr : ∀ p, arrives p → p.Each (fun op => op.key ≠ k)) {t t' : Timed K V Q A R}
    (h : Idle k entry t) (hstep : Step arrives t t') : Idle k entry t' := by
  cases hstep with
  | arrive _ hp => exact ⟨List.forall_mem_cons.mpr ⟨harr _ hp, h.running⟩, h.entry⟩
  | operate env now σ left right p =>
      have hp := h.running p (by simp)
      refine ⟨forall_mem_replace h.running (Prog.each_stepAt hp), ?_⟩
      show (p.stepAt now env σ).1 k = _ ∨ (p.stepAt now env σ).1 k = _
      rw [Prog.stepAt_frame hp]
      exact h.entry
  | tick _ hle => exact ⟨h.running, h.entry⟩
  | lose _ k' =>
      refine ⟨h.running, ?_⟩
      by_cases hk : k = k'
      · subst hk
        exact .inr (Function.update_self _ _ _)
      · show Function.update t.store k' none k = _ ∨ Function.update t.store k' none k = _
        rw [Function.update_of_ne hk]
        exact h.entry

/-- **A key nobody touches is gone** after the time to live. -/
theorem idle_invisible {k : K} (harr : ∀ p, arrives p → p.Each (fun op => op.key ≠ k))
    {t t' : Timed K V Q A R} (hbounded : Bounded ttl t)
    (hrunning : ∀ p ∈ t.running, p.Each (fun op => op.key ≠ k)) (h : Reaches arrives t t')
    (hlong : t.now + ttl < t'.now) : visible t'.now t'.store k = none := by
  have hidle : Idle k (t.store k) t' := by
    clear hlong
    induction h with
    | refl => exact ⟨hrunning, .inl rfl⟩
    | tail _ hstep ih => exact idle_step harr ih hstep
  unfold visible
  cases hentry : t'.store k with
  | none => rfl
  | some e =>
      have hold : t.store k = some e := by
        rcases hidle.entry with hsame | hgone
        · rw [← hsame, hentry]
        · rw [hentry] at hgone
          exact absurd hgone (by simp)
      have hdeadline := hbounded.deadline k e hold
      dsimp only
      rw [if_pos (by omega)]

end Deadlines

end Timed

end KeyValue
