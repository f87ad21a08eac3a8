/-
  NginxNettyHls.KeyValue.Interleaving
  ───────────────────────────────────
  **MANY CLIENTS AT ONE STORE**, their operations interleaved in any order.

  A `Sys` is the store, the clients with what is left of each of them, and a
  `world` the environment answers from, which may only move upwards in a given
  order (a log that is appended to, a clock).  Nothing makes two operations of
  one client atomic.

  Three ways of reasoning about every interleaving at once:

    • `Protocol.inv_run` — RELY AND GUARANTEE: if each client, assuming of
      every value it reads what the protocol promises, promises the same of
      every value it writes, then in every reachable state the store keeps the
      promise and every result satisfies its postcondition.  What a client
      promises may refer to the value it has read last (`seen`), so that
      read-modify-write steps can be compared with their own read;
    • `exec_writes` — if all clients write only values of some kind, the store
      holds only such values;
    • `exec_isolated` — ISOLATION: clients with disjoint keys cannot notice
      each other; deleting all operations of the others from a schedule changes
      neither what a client does nor what its keys hold.
-/
import Mathlib.Logic.Relation
import Mathlib.Order.Defs.PartialOrder
import NginxNettyHls.KeyValue.Program

namespace KeyValue

variable {ι W K V Q : Type} {A : Q → Type} {R : Type}

/-! ## §1. The system and its steps. -/

/-- Clients `ι` at one store.  `seen i` records the answer to the last `get` of
client `i`; it is read by proofs only. -/
structure Sys (ι W K V Q : Type) (A : Q → Type) (R : Type) where
  world : W
  store : Store K V
  threads : ι → Prog K V Q A R
  seen : ι → Option V

namespace Sys

variable [DecidableEq ι] [DecidableEq K]

/-- Client `i` does its next operation; `ans w i` is how the environment
answers its questions in world `w`. -/
def act (ans : W → ι → ∀ q, A q) (i : ι) (s : Sys ι W K V Q A R) : Sys ι W K V Q A R :=
  { s with
    store := ((s.threads i).step (ans s.world i) s.store).1
    threads := Function.update s.threads i ((s.threads i).step (ans s.world i) s.store).2
    seen := match s.threads i with
      | .get k _ => Function.update s.seen i (s.store k)
      | _ => s.seen }

/-- One step of the system: some client acts, or the world grows to one of the
`allowed` worlds. -/
inductive Step [LE W] (ans : W → ι → ∀ q, A q) (allowed : W → Prop) :
    Sys ι W K V Q A R → Sys ι W K V Q A R → Prop
  | act (s : Sys ι W K V Q A R) (i : ι) : Step ans allowed s (s.act ans i)
  | grow (s : Sys ι W K V Q A R) (w : W) (hle : s.world ≤ w) (hw : allowed w) :
      Step ans allowed s { s with world := w }

/-- Run a schedule: the clients it names act one after the other. -/
def exec (ans : W → ι → ∀ q, A q) (sched : List ι) (s : Sys ι W K V Q A R) :
    Sys ι W K V Q A R :=
  sched.foldl (fun s i => s.act ans i) s

theorem act_threads_self (ans : W → ι → ∀ q, A q) (i : ι) (s : Sys ι W K V Q A R) :
    (s.act ans i).threads i = ((s.threads i).step (ans s.world i) s.store).2 :=
  Function.update_self i _ _

theorem act_threads_ne (ans : W → ι → ∀ q, A q) {i j : ι} (h : j ≠ i)
    (s : Sys ι W K V Q A R) : (s.act ans i).threads j = s.threads j :=
  Function.update_of_ne h _ _

/-- A property of every client survives if the acting client keeps it. -/
theorem forall_act_threads {Ψ : ι → Prog K V Q A R → Prop} (ans : W → ι → ∀ q, A q) {i : ι}
    {s : Sys ι W K V Q A R} (h : ∀ j, Ψ j (s.threads j))
    (hi : Ψ i ((s.threads i).step (ans s.world i) s.store).2) :
    ∀ j, Ψ j ((s.act ans i).threads j) :=
  (Function.forall_update_iff s.threads Ψ).mpr ⟨hi, fun j _ => h j⟩

theorem act_seen_ne (ans : W → ι → ∀ q, A q) {i j : ι} (h : j ≠ i)
    (s : Sys ι W K V Q A R) : (s.act ans i).seen j = s.seen j := by
  unfold act
  cases s.threads i with
  | get k next => exact Function.update_of_ne h _ _
  | _ => rfl

/-- A schedule is a run of steps. -/
theorem exec_reaches [LE W] (ans : W → ι → ∀ q, A q) (allowed : W → Prop) :
    ∀ (sched : List ι) (s : Sys ι W K V Q A R),
      Relation.ReflTransGen (Step ans allowed) s (s.exec ans sched) := by
  intro sched
  induction sched with
  | nil => intro s; exact Relation.ReflTransGen.refl
  | cons i sched ih =>
      intro s
      exact Relation.ReflTransGen.head (Step.act s i) (ih (s.act ans i))

end Sys

/-! ## §2. Rely and guarantee. -/

/-- What clients may assume of the values they read (`rely`), what they promise
of the values they write, given what they have read last (`guar`), and what
they promise of their results (`post`).  All of it survives the growth of the
world, and what is promised is what is relied on. -/
structure Protocol (ι W K V Q : Type) (A : Q → Type) (R : Type) [Preorder W] where
  ans : W → ι → ∀ q, A q
  allowed : W → Prop
  rely : W → K → Option V → Prop
  guar : W → Option V → K → Option V → Prop
  post : W → ι → R → Prop
  rely_mono : ∀ {w w' k v}, w ≤ w' → rely w k v → rely w' k v
  guar_mono : ∀ {w w' u k v}, w ≤ w' → guar w u k v → guar w' u k v
  post_mono : ∀ {w w' i r}, w ≤ w' → post w i r → post w' i r
  guar_rely : ∀ {w u k v}, guar w u k v → rely w k v

namespace Protocol

variable [Preorder W]

/-- What is left of client `i` follows the protocol, from world `w` on, when
the last value it read is `u`. -/
def Keeps (P : Protocol ι W K V Q A R) (i : ι) : Prog K V Q A R → W → Option V → Prop
  | .ret r, w, _ => P.post w i r
  | .get k next, w, _ =>
      ∀ w', w ≤ w' → P.allowed w' → ∀ v, P.rely w' k v → Keeps P i (next v) w' v
  | .set k v _ next, w, u => P.guar w u k (some v) ∧ Keeps P i next w u
  | .del k next, w, u => P.guar w u k none ∧ Keeps P i next w u
  | .ask q next, w, u =>
      ∀ w', w ≤ w' → P.allowed w' → Keeps P i (next (P.ans w' i q)) w' u

theorem keeps_mono (P : Protocol ι W K V Q A R) (i : ι) :
    ∀ (p : Prog K V Q A R) {w w' : W} {u : Option V},
      w ≤ w' → P.Keeps i p w u → P.Keeps i p w' u := by
  intro p
  induction p with
  | ret r => intro w w' u hw h; exact P.post_mono hw h
  | get k next ih =>
      intro w w' u hw h w'' hw' ha v hv
      exact h w'' (le_trans hw hw') ha v hv
  | set k v ttl next ih => intro w w' u hw h; exact ⟨P.guar_mono hw h.1, ih hw h.2⟩
  | del k next ih => intro w w' u hw h; exact ⟨P.guar_mono hw h.1, ih hw h.2⟩
  | ask q next ih =>
      intro w w' u hw h w'' hw' ha
      exact h w'' (le_trans hw hw') ha

/-- The store holds what the clients rely on, and every client follows the
protocol from here. -/
structure Inv (P : Protocol ι W K V Q A R) (s : Sys ι W K V Q A R) : Prop where
  world : P.allowed s.world
  store : ∀ k, P.rely s.world k (s.store k)
  threads : ∀ i, P.Keeps i (s.threads i) s.world (s.seen i)

/-- The growth of the world keeps the invariant. -/
theorem inv_grow (P : Protocol ι W K V Q A R) {s : Sys ι W K V Q A R} (h : P.Inv s)
    {w : W} (hle : s.world ≤ w) (hw : P.allowed w) : P.Inv { s with world := w } :=
  ⟨hw, fun k => P.rely_mono hle (h.store k),
    fun i => P.keeps_mono i (s.threads i) hle (h.threads i)⟩

/-- The result of every client that has ended satisfies the postcondition. -/
theorem post_of_inv (P : Protocol ι W K V Q A R) {s : Sys ι W K V Q A R} (h : P.Inv s)
    {i : ι} {r : R} (hr : (s.threads i).result? = some r) : P.post s.world i r := by
  have hi := h.threads i
  cases hp : s.threads i with
  | ret r' =>
      rw [hp] at hi hr
      simp only [Prog.result?, Option.some.injEq] at hr
      subst hr
      exact hi
  | _ =>
      rw [hp] at hr
      simp [Prog.result?] at hr

variable [DecidableEq ι] [DecidableEq K]

/-- What one operation of a client does to the store: nothing, or a write of
one key that its promise covers. -/
theorem act_store (P : Protocol ι W K V Q A R) {s : Sys ι W K V Q A R} (h : P.Inv s)
    (i : ι) :
    (s.act P.ans i).store = s.store
      ∨ ∃ k v, (s.act P.ans i).store = Function.update s.store k v
          ∧ P.guar s.world (s.seen i) k v := by
  have hi := h.threads i
  unfold Sys.act
  cases hp : s.threads i with
  | ret r => exact Or.inl rfl
  | get k next => exact Or.inl rfl
  | set k v ttl next =>
      rw [hp] at hi
      exact Or.inr ⟨k, some v, rfl, hi.1⟩
  | del k next =>
      rw [hp] at hi
      exact Or.inr ⟨k, none, rfl, hi.1⟩
  | ask q next => exact Or.inl rfl

/-- The acting client goes on following the protocol. -/
theorem act_keeps_self (P : Protocol ι W K V Q A R) {s : Sys ι W K V Q A R}
    (h : P.Inv s) (i : ι) :
    P.Keeps i ((s.act P.ans i).threads i) s.world ((s.act P.ans i).seen i) := by
  have hi := h.threads i
  rw [Sys.act_threads_self]
  unfold Sys.act
  cases hp : s.threads i with
  | ret r =>
      rw [hp] at hi
      exact hi
  | get k next =>
      rw [hp] at hi
      show P.Keeps i (next (s.store k)) s.world (Function.update s.seen i (s.store k) i)
      rw [Function.update_self]
      exact hi s.world le_rfl h.world _ (h.store k)
  | set k v ttl next =>
      rw [hp] at hi
      exact hi.2
  | del k next =>
      rw [hp] at hi
      exact hi.2
  | ask q next =>
      rw [hp] at hi
      exact hi s.world le_rfl h.world

/-- **Step lemma**: an operation of a client keeps the invariant. -/
theorem inv_act (P : Protocol ι W K V Q A R) {s : Sys ι W K V Q A R} (h : P.Inv s)
    (i : ι) : P.Inv (s.act P.ans i) := by
  refine ⟨h.world, ?_, ?_⟩
  · rcases P.act_store h i with e | ⟨k, v, e, hg⟩
    · rw [e]
      exact h.store
    · rw [e]
      -- the one key written holds what the client promises, so what others rely on
      exact (Function.forall_update_iff s.store (P.rely s.world)).mpr
        ⟨P.guar_rely hg, fun k' _ => h.store k'⟩
  · intro j
    by_cases hj : j = i
    · subst hj
      exact P.act_keeps_self h j
    · rw [Sys.act_threads_ne P.ans hj, Sys.act_seen_ne P.ans hj]
      exact h.threads j

theorem inv_step (P : Protocol ι W K V Q A R) {s s' : Sys ι W K V Q A R} (h : P.Inv s)
    (hs : Sys.Step P.ans P.allowed s s') : P.Inv s' := by
  cases hs with
  | act i => exact P.inv_act h i
  | grow w hle hw => exact P.inv_grow h hle hw

/-- **Run lemma**: the invariant holds in every state of every interleaving. -/
theorem inv_run (P : Protocol ι W K V Q A R) {s s' : Sys ι W K V Q A R} (h : P.Inv s)
    (hs : Relation.ReflTransGen (Sys.Step P.ans P.allowed) s s') : P.Inv s' := by
  induction hs with
  | refl => exact h
  | tail _ hstep ih => exact P.inv_step ih hstep

end Protocol

/-! ## §3. What everybody writes. -/

/-- **A property of all values written** is one of all values stored, for clients
with environments of their own. -/
theorem exec_writes [DecidableEq ι] [DecidableEq K] {env : ι → ∀ q, A q}
    {Φ : K → Option V → Prop} :
    ∀ (sched : List ι) (s : Sys ι W K V Q A R), (∀ i, (s.threads i).Writes (env i) Φ) →
      (∀ k, Φ k (s.store k)) → ∀ k, Φ k ((s.exec (fun _ => env) sched).store k) := by
  intro sched
  induction sched with
  | nil => intro s _ hs; exact hs
  | cons i sched ih =>
      intro s hw hs
      refine ih (s.act (fun _ => env) i) ?_ (Prog.step_of_writes (hw i) hs)
      exact Sys.forall_act_threads _ hw (Prog.writes_step (hw i) _)

/-- What a schedule leaves of a client comes from operations of its own. -/
theorem residual_exec [DecidableEq ι] [DecidableEq K] {env : ι → ∀ q, A q} {i : ι}
    {p : Prog K V Q A R} :
    ∀ (sched : List ι) (s : Sys ι W K V Q A R), Prog.Residual (env i) p (s.threads i) →
      Prog.Residual (env i) p ((s.exec (fun _ => env) sched).threads i) := by
  intro sched
  induction sched with
  | nil => intro s h; exact h
  | cons j sched ih =>
      intro s h
      apply ih (s.act (fun _ => env) j)
      by_cases hj : i = j
      · subst hj
        rw [Sys.act_threads_self]
        exact .step s.store h
      · rw [Sys.act_threads_ne _ hj]
        exact h

/-! ## §4. Isolation. -/

section Isolation

variable {O : Type} [DecidableEq ι] [DecidableEq K]

/-- Two systems look the same to the owner `o`: the same of its clients are left
and its keys hold the same. -/
structure Agree (owner : ι → O) (own : O → K → Prop) (o : O)
    (s s' : Sys ι W K V Q A R) : Prop where
  world : s.world = s'.world
  threads : ∀ i, owner i = o → s.threads i = s'.threads i
  store : ∀ k, own o k → s.store k = s'.store k

/-- Every client touches only keys of its owner. -/
def Confined (owner : ι → O) (own : O → K → Prop) (s : Sys ι W K V Q A R) : Prop :=
  ∀ i, (s.threads i).Touches (own (owner i))

theorem confined_act {owner : ι → O} {own : O → K → Prop} (ans : W → ι → ∀ q, A q)
    {s : Sys ι W K V Q A R} (h : Confined owner own s) (i : ι) :
    Confined owner own (s.act ans i) :=
  Sys.forall_act_threads ans h (Prog.touches_step _ _ (h i))

/-- An operation of somebody else is invisible to `o`. -/
theorem agree_act_other {owner : ι → O} {own : O → K → Prop}
    (disj : ∀ o o' k, own o k → own o' k → o = o') (ans : W → ι → ∀ q, A q)
    {o : O} {s s' : Sys ι W K V Q A R} (hc : Confined owner own s)
    (h : Agree owner own o s s') {i : ι} (hi : owner i ≠ o) :
    Agree owner own o (s.act ans i) s' := by
  refine ⟨h.world, ?_, ?_⟩
  · intro j hj
    have hne : j ≠ i := fun e => hi (e ▸ hj)
    rw [Sys.act_threads_ne ans hne]
    exact h.threads j hj
  · intro k hk
    have hnot : ¬ own (owner i) k := fun hk' => hi (disj _ _ k hk' hk)
    show ((s.threads i).step (ans s.world i) s.store).1 k = _
    rw [Prog.step_frame _ _ (hc i) hnot]
    exact h.store k hk

/-- An operation of `o` itself does the same in both systems. -/
theorem agree_act_self {owner : ι → O} {own : O → K → Prop} (ans : W → ι → ∀ q, A q)
    {o : O} {s s' : Sys ι W K V Q A R} (hc : Confined owner own s)
    (h : Agree owner own o s s') {i : ι} (hi : owner i = o) :
    Agree owner own o (s.act ans i) (s'.act ans i) := by
  subst hi
  have hstep := Prog.step_congr (ans s.world i) (hc i) h.store
  rw [h.threads i rfl] at hstep
  refine ⟨h.world, ?_, ?_⟩
  · intro j hj
    by_cases e : j = i
    · subst e
      rw [Sys.act_threads_self, Sys.act_threads_self, ← h.world, h.threads j rfl]
      exact hstep.1
    · rw [Sys.act_threads_ne ans e, Sys.act_threads_ne ans e]
      exact h.threads j hj
  · intro k hk
    show ((s.threads i).step (ans s.world i) s.store).1 k
      = ((s'.threads i).step (ans s'.world i) s'.store).1 k
    rw [← h.world, h.threads i rfl]
    exact hstep.2 k hk

/-- **Isolation**: to the owner `o`, a schedule looks like the same schedule
with everybody else's operations deleted, also when the others are other
clients altogether (`s'`). -/
theorem exec_isolated {owner : ι → O} {own : O → K → Prop} [DecidableEq O]
    (disj : ∀ o o' k, own o k → own o' k → o = o') (ans : W → ι → ∀ q, A q) (o : O) :
    ∀ (sched : List ι) (s s' : Sys ι W K V Q A R),
      Confined owner own s → Agree owner own o s s' →
      Agree owner own o (s.exec ans sched)
        (s'.exec ans (sched.filter (fun i => owner i = o))) := by
  intro sched
  induction sched with
  | nil => intro s s' _ h; exact h
  | cons i sched ih =>
      intro s s' hc h
      by_cases hi : owner i = o
      · rw [List.filter_cons_of_pos (by simpa using hi)]
        exact ih _ _ (confined_act ans hc i) (agree_act_self ans hc h hi)
      · rw [List.filter_cons_of_neg (by simpa using hi)]
        exact ih _ _ (confined_act ans hc i) (agree_act_other disj ans hc h hi)

end Isolation

end KeyValue
