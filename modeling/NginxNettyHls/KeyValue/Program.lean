/-
  NginxNettyHls.KeyValue.Program
  ──────────────────────────────
  **CLIENT PROGRAMS OF A KEY-VALUE STORE**, and what they do when they run alone.

  A `Prog` is one client as the store sees it: a tree of the operations it
  issues, each waiting for its answer.  Questions to anything other than the
  store (a clock, a file) are `ask` nodes, answered by the environment.

    • `Prog.exec` — the client runs to its end with nobody else at the store;
    • `Prog.step` — one operation of it;
    • `Prog.Each` — every operation, on every branch, is of a given kind;
      `Prog.Touches` — it is on a key of a given set, and `step_frame` — the keys
      outside it keep their content;
    • `Prog.Writes` — everything the client writes, with a given environment, is
      of a given kind, and so is what is left of it after any operations of its
      own (`Residual.writes`);
    • `Prog.Keeps` — the same for every environment, as long as everything the
      client reads is of that kind (`keeps_step`).
-/
import Mathlib.Logic.Function.Basic
import Mathlib.Tactic.Common

namespace KeyValue

/-- A client of a store with keys `K` and values `V` that ends with a result in
`R`.  `ask` puts the question `q` to the environment and reads an `A q`. -/
inductive Prog (K V Q : Type) (A : Q → Type) (R : Type) where
  | ret (r : R)
  | get (k : K) (next : Option V → Prog K V Q A R)
  /-- Store `v` under `k` for `ttl` units of time. -/
  | set (k : K) (v : V) (ttl : Int) (next : Prog K V Q A R)
  | del (k : K) (next : Prog K V Q A R)
  | ask (q : Q) (next : A q → Prog K V Q A R)

/-- The content of a store that forgets nothing. -/
abbrev Store (K V : Type) := K → Option V

namespace Prog

variable {K V Q : Type} {A : Q → Type} {R S : Type}

/-! ## §1. The operations of a client. -/

/-- The result of a client that has ended. -/
def result? : Prog K V Q A R → Option R
  | ret r => some r
  | _ => none

/-- Change the result. -/
def map (f : R → S) : Prog K V Q A R → Prog K V Q A S
  | ret r => ret (f r)
  | get k next => get k (fun v => map f (next v))
  | set k v ttl next => set k v ttl (map f next)
  | del k next => del k (map f next)
  | ask q next => ask q (fun a => map f (next a))

/-- An operation on the store. -/
inductive Op (K V : Type) where
  | get (k : K)
  | set (k : K) (v : V) (ttl : Int)
  | del (k : K)

def Op.key : Op K V → K
  | .get k => k
  | .set k _ _ => k
  | .del k => k

/-- Every store operation of the client, whatever it is answered, satisfies `Φ`. -/
def Each (Φ : Op K V → Prop) : Prog K V Q A R → Prop
  | ret _ => True
  | get k next => Φ (.get k) ∧ ∀ v, Each Φ (next v)
  | set k v ttl next => Φ (.set k v ttl) ∧ Each Φ next
  | del k next => Φ (.del k) ∧ Each Φ next
  | ask _ next => ∀ a, Each Φ (next a)

theorem each_map {Φ : Op K V → Prop} (f : R → S) :
    ∀ (p : Prog K V Q A R), Each Φ p → Each Φ (map f p) := by
  intro p
  induction p with
  | ret r => intro _; trivial
  | get k next ih => intro h; exact ⟨h.1, fun v => ih v (h.2 v)⟩
  | set k v ttl next ih => intro h; exact ⟨h.1, ih h.2⟩
  | del k next ih => intro h; exact ⟨h.1, ih h.2⟩
  | ask q next ih => intro h a; exact ih a (h a)

/-- Every operation is on a key of the set `own`. -/
abbrev Touches (own : K → Prop) : Prog K V Q A R → Prop := Each (fun op => own op.key)

/-- Everything the client writes or deletes when the environment answers `env`,
whatever it reads from the store, satisfies `Φ`. -/
def Writes (env : ∀ q, A q) (Φ : K → Option V → Prop) : Prog K V Q A R → Prop
  | ret _ => True
  | get _ next => ∀ v, Writes env Φ (next v)
  | set k v _ next => Φ k (some v) ∧ Writes env Φ next
  | del k next => Φ k none ∧ Writes env Φ next
  | ask q next => Writes env Φ (next (env q))

/-- What the operation, if it is a write or a deletion, leaves under its key satisfies
`Ψ`. -/
def Op.Leaves (Ψ : K → Option V → Prop) : Op K V → Prop
  | .get _ => True
  | .set k v _ => Ψ k (some v)
  | .del k => Ψ k none

/-- Everything the client writes or deletes satisfies `Ψ`, as long as everything it reads
does. -/
def Keeps (Ψ : K → Option V → Prop) : Prog K V Q A R → Prop
  | ret _ => True
  | get k next => ∀ v, Ψ k v → Keeps Ψ (next v)
  | set k v _ next => Ψ k (some v) ∧ Keeps Ψ next
  | del k next => Ψ k none ∧ Keeps Ψ next
  | ask _ next => ∀ a, Keeps Ψ (next a)

theorem keeps_of_each {Ψ : K → Option V → Prop} :
    ∀ (p : Prog K V Q A R), Each (Op.Leaves Ψ) p → Keeps Ψ p := by
  intro p
  induction p with
  | ret r => intro _; trivial
  | get k next ih => intro h v _; exact ih v (h.2 v)
  | set k v ttl next ih => intro h; exact ⟨h.1, ih h.2⟩
  | del k next ih => intro h; exact ⟨h.1, ih h.2⟩
  | ask q next ih => intro h a; exact ih a (h a)

/-- What holds of every operation holds with every environment. -/
theorem writes_of_each {Ψ : K → Option V → Prop} (env : ∀ q, A q) :
    ∀ (p : Prog K V Q A R), Each (Op.Leaves Ψ) p → Writes env Ψ p := by
  intro p
  induction p with
  | ret r => intro _; trivial
  | get k next ih => intro h v; exact ih v (h.2 v)
  | set k v ttl next ih => intro h; exact ⟨h.1, ih h.2⟩
  | del k next ih => intro h; exact ⟨h.1, ih h.2⟩
  | ask q next ih => intro h; exact ih (env q) (h (env q))

theorem Writes.mono {env : ∀ q, A q} {Φ Ψ : K → Option V → Prop} (hΦ : ∀ k v, Φ k v → Ψ k v) :
    ∀ {p : Prog K V Q A R}, Writes env Φ p → Writes env Ψ p := by
  intro p
  induction p with
  | ret r => intro _; trivial
  | get k next ih => intro h v; exact ih v (h v)
  | set k v ttl next ih => intro h; exact ⟨hΦ k _ h.1, ih h.2⟩
  | del k next ih => intro h; exact ⟨hΦ k _ h.1, ih h.2⟩
  | ask q next ih => intro h; exact ih (env q) h

/-! ## §2. Running alone. -/

variable [DecidableEq K]

/-- Run to the end: the final store and the result. -/
def exec (env : ∀ q, A q) : Prog K V Q A R → Store K V → Store K V × R
  | ret r, σ => (σ, r)
  | get k next, σ => exec env (next (σ k)) σ
  | set k v _ next, σ => exec env next (Function.update σ k (some v))
  | del k next, σ => exec env next (Function.update σ k none)
  | ask q next, σ => exec env (next (env q)) σ

/-- One operation; a client that has ended stays where it is. -/
def step (env : ∀ q, A q) : Prog K V Q A R → Store K V → Store K V × Prog K V Q A R
  | ret r, σ => (σ, ret r)
  | get k next, σ => (σ, next (σ k))
  | set k v _ next, σ => (Function.update σ k (some v), next)
  | del k next, σ => (Function.update σ k none, next)
  | ask q next, σ => (σ, next (env q))

/-- What is left of a client after an operation does only operations of the kind. -/
theorem each_step {Φ : Op K V → Prop} (env : ∀ q, A q) {p : Prog K V Q A R}
    (σ : Store K V) (h : Each Φ p) : Each Φ (step env p σ).2 := by
  cases p with
  | ret r => trivial
  | get k next => exact h.2 (σ k)
  | set k v ttl next => exact h.2
  | del k next => exact h.2
  | ask q next => exact h (env q)

/-! ## §3. Which keys a client touches. -/

theorem touches_step {own : K → Prop} (env : ∀ q, A q) {p : Prog K V Q A R}
    (σ : Store K V) (h : Touches own p) : Touches own (step env p σ).2 := each_step env σ h

/-- **Frame**: an operation leaves the keys the client does not touch alone. -/
theorem step_frame {own : K → Prop} (env : ∀ q, A q) {p : Prog K V Q A R}
    (σ : Store K V) (h : Touches own p) {k' : K} (hk : ¬ own k') :
    (step env p σ).1 k' = σ k' := by
  cases p with
  | ret r => rfl
  | get k next => rfl
  | set k v ttl next =>
      have hne : k' ≠ k := fun e => hk (e ▸ h.1)
      exact Function.update_of_ne hne _ _
  | del k next =>
      have hne : k' ≠ k := fun e => hk (e ▸ h.1)
      exact Function.update_of_ne hne _ _
  | ask q next => rfl

/-- An operation depends on the store only through the keys the client touches:
on two stores that agree there it goes on in the same way and the stores still
agree there. -/
theorem step_congr {own : K → Prop} (env : ∀ q, A q) {p : Prog K V Q A R}
    {σ τ : Store K V} (h : Touches own p) (hστ : ∀ k, own k → σ k = τ k) :
    (step env p σ).2 = (step env p τ).2
      ∧ ∀ k, own k → (step env p σ).1 k = (step env p τ).1 k := by
  -- both stores are updated at one key, with one value
  have hupd : ∀ (k : K) (v : Option V) (k' : K), own k' →
      Function.update σ k v k' = Function.update τ k v k' := by
    intro k v k' hk'
    by_cases e : k' = k
    · subst e
      rw [Function.update_self, Function.update_self]
    · rw [Function.update_of_ne e, Function.update_of_ne e, hστ k' hk']
  cases p with
  | ret r => exact ⟨rfl, hστ⟩
  | get k next =>
      constructor
      · show next (σ k) = next (τ k)
        rw [hστ k h.1]
      · exact hστ
  | set k v ttl next => exact ⟨rfl, hupd k (some v)⟩
  | del k next => exact ⟨rfl, hupd k none⟩
  | ask q next => exact ⟨rfl, hστ⟩

/-! ## §4. What a client writes. -/

theorem writes_step {env : ∀ q, A q} {Φ : K → Option V → Prop} {p : Prog K V Q A R}
    (h : Writes env Φ p) (σ : Store K V) : Writes env Φ (step env p σ).2 := by
  cases p with
  | ret r => trivial
  | get k next => exact h (σ k)
  | set k v ttl next => exact h.2
  | del k next => exact h.2
  | ask q next => exact h

/-- What one operation does to the store. -/
theorem step_of_writes {env : ∀ q, A q} {Φ : K → Option V → Prop} {p : Prog K V Q A R}
    (h : Writes env Φ p) {σ : Store K V} (hσ : ∀ k, Φ k (σ k)) :
    ∀ k, Φ k ((step env p σ).1 k) := by
  have hupd : ∀ {k' : K} {v : Option V}, Φ k' v → ∀ k, Φ k (Function.update σ k' v k) := by
    intro k' v hv
    exact (Function.forall_update_iff σ Φ).mpr ⟨hv, fun k _ => hσ k⟩
  cases p with
  | ret r => exact hσ
  | get k next => exact hσ
  | set k v ttl next => exact hupd h.1
  | del k next => exact hupd h.1
  | ask q next => exact hσ

/-- **One operation of a client that keeps `Ψ`**: the store keeps it, and so does what is left
of the client. -/
theorem keeps_step {Ψ : K → Option V → Prop} (env : ∀ q, A q) {p : Prog K V Q A R}
    (h : Keeps Ψ p) {σ : Store K V} (hσ : ∀ k, Ψ k (σ k)) :
    (∀ k, Ψ k ((step env p σ).1 k)) ∧ Keeps Ψ (step env p σ).2 := by
  have hupd : ∀ {k' : K} {v : Option V}, Ψ k' v → ∀ k, Ψ k (Function.update σ k' v k) := by
    intro k' v hv
    exact (Function.forall_update_iff σ Ψ).mpr ⟨hv, fun k _ => hσ k⟩
  cases p with
  | ret r => exact ⟨hσ, trivial⟩
  | get k next => exact ⟨hσ, h (σ k) (hσ k)⟩
  | set k v ttl next => exact ⟨hupd h.1, h.2⟩
  | del k next => exact ⟨hupd h.1, h.2⟩
  | ask q next => exact ⟨hσ, h (env q)⟩

/-- One operation leaves a key as it was or with a value of the kind written. -/
theorem step_eq_or_writes {env : ∀ q, A q} {Φ : K → Option V → Prop} {p : Prog K V Q A R}
    (h : Writes env Φ p) (σ : Store K V) (k : K) :
    (step env p σ).1 k = σ k ∨ Φ k ((step env p σ).1 k) :=
  step_of_writes (Φ := fun k v => v = σ k ∨ Φ k v) (h.mono (fun _ _ => Or.inr))
    (fun _ => Or.inl rfl) k

/-- What can be left of a client after some of its operations, the store changing
in any way in between. -/
inductive Residual (env : ∀ q, A q) (p : Prog K V Q A R) : Prog K V Q A R → Prop
  | refl : Residual env p p
  | step {p' : Prog K V Q A R} (σ : Store K V) (h : Residual env p p') :
      Residual env p (p'.step env σ).2

theorem Residual.writes {env : ∀ q, A q} {Φ : K → Option V → Prop} {p p' : Prog K V Q A R}
    (hp : Writes env Φ p) (h : Residual env p p') : Writes env Φ p' := by
  induction h with
  | refl => exact hp
  | step σ _ ih => exact writes_step ih σ

end Prog

end KeyValue
