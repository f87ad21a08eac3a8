/-
  NginxNettyHls.KeyValue.Arrivals
  ───────────────────────────────
  **A STORE THAT CLIENTS COME TO**, at any time and in any number.

  A `Service` is the store and the clients at work on it.  Its steps are the
  arrival of one more client, one operation of any client that is there, with
  the environment answering as it likes at that moment, and the expiry of any
  key.  Nothing orders the clients and nothing makes them end: a client that
  fails half-way is one that does not move any more.

    • `Service.inv_step` and `Service.store_of_reaches` — if every client that
      may arrive leaves only values of some kind as long as it reads only such,
      every reachable store holds only such values;
    • `Service.reaches_execAll` — clients handled one after the other, each to
      its end, are a run of the service.
-/
import Mathlib.Logic.Relation
import NginxNettyHls.KeyValue.Program

namespace KeyValue

variable {K V Q : Type} {A : Q → Type} {R : Type}

/-! ## §1. The service and its steps. -/

/-- A store and the clients at work on it. -/
structure Service (K V Q : Type) (A : Q → Type) (R : Type) where
  store : Store K V
  running : List (Prog K V Q A R)

namespace Service

variable [DecidableEq K]

/-- One step of the service, to which the clients `arrives` may come. -/
inductive Step (arrives : Prog K V Q A R → Prop) :
    Service K V Q A R → Service K V Q A R → Prop
  | arrive (s : Service K V Q A R) {p : Prog K V Q A R} (hp : arrives p) :
      Step arrives s { s with running := p :: s.running }
  /-- One operation of one client; the others wait. -/
  | operate (env : ∀ q, A q) (σ : Store K V) (left right : List (Prog K V Q A R))
      (p : Prog K V Q A R) :
      Step arrives ⟨σ, left ++ p :: right⟩
        ⟨(p.step env σ).1, left ++ (p.step env σ).2 :: right⟩
  | expire (s : Service K V Q A R) (k : K) :
      Step arrives s { s with store := Function.update s.store k none }

/-- A run of the service. -/
def Reaches (arrives : Prog K V Q A R → Prop) :
    Service K V Q A R → Service K V Q A R → Prop :=
  Relation.ReflTransGen (Step arrives)

/-! ## §2. What every client leaves behind. -/

section Leaves

variable {arrives : Prog K V Q A R → Prop} {Ψ : K → Option V → Prop}

/-- The store holds values of the kind `Ψ`, and every client at work keeps it that way. -/
structure Inv (Ψ : K → Option V → Prop) (s : Service K V Q A R) : Prop where
  store : ∀ k, Ψ k (s.store k)
  running : ∀ p ∈ s.running, p.Keeps Ψ

/-- **Step lemma**. -/
theorem inv_step (hnone : ∀ k, Ψ k none) (harr : ∀ p, arrives p → p.Keeps Ψ)
    {s s' : Service K V Q A R} (h : Inv Ψ s) (hs : Step arrives s s') : Inv Ψ s' := by
  cases hs with
  | arrive _ hp =>
      refine ⟨h.store, ?_⟩
      exact List.forall_mem_cons.mpr ⟨harr _ hp, h.running⟩
  | operate env σ left right p =>
      have hp : p.Keeps Ψ := h.running p (by simp)
      obtain ⟨hstore, hleft⟩ := Prog.keeps_step env hp h.store
      refine ⟨hstore, ?_⟩
      intro p' hp'
      rcases List.mem_append.mp hp' with hl | hr
      · exact h.running p' (List.mem_append_left _ hl)
      · rcases List.mem_cons.mp hr with rfl | hr
        · exact hleft
        · exact h.running p' (List.mem_append_right _ (List.mem_cons_of_mem p hr))
  | expire _ k =>
      refine ⟨?_, h.running⟩
      exact (Function.forall_update_iff s.store Ψ).mpr ⟨hnone k, fun k' _ => h.store k'⟩

/-- **Run lemma**: the store of every reachable state holds values of the kind `Ψ`. -/
theorem store_of_reaches (hnone : ∀ k, Ψ k none)
    (harr : ∀ p, arrives p → p.Keeps Ψ) {σ : Store K V}
    (hσ : ∀ k, Ψ k (σ k)) {s : Service K V Q A R} (h : Reaches arrives ⟨σ, []⟩ s) :
    ∀ k, Ψ k (s.store k) := by
  have hinv : Inv Ψ s := by
    induction h with
    | refl => exact ⟨hσ, by simp⟩
    | tail _ hstep ih => exact inv_step hnone harr ih hstep
  exact hinv.store

end Leaves

/-! ## §3. One client after the other. -/

variable {arrives : Prog K V Q A R → Prop}

/-- A client that is there can run to its end. -/
theorem reaches_exec (env : ∀ q, A q) (rest : List (Prog K V Q A R)) :
    ∀ (p : Prog K V Q A R) (σ : Store K V),
      Reaches arrives ⟨σ, p :: rest⟩ ⟨(p.exec env σ).1, .ret (p.exec env σ).2 :: rest⟩ := by
  -- one operation, then what is left of the client
  have hstep : ∀ (p : Prog K V Q A R) (σ : Store K V),
      Reaches arrives ⟨(p.step env σ).1, (p.step env σ).2 :: rest⟩
        ⟨(p.exec env σ).1, .ret (p.exec env σ).2 :: rest⟩ →
      Reaches arrives ⟨σ, p :: rest⟩ ⟨(p.exec env σ).1, .ret (p.exec env σ).2 :: rest⟩ := by
    intro p σ h
    exact Relation.ReflTransGen.head (Step.operate env σ [] rest p) h
  intro p
  induction p with
  | ret r => intro σ; exact Relation.ReflTransGen.refl
  | get k next ih => intro σ; exact hstep _ σ (ih (σ k) σ)
  | set k v ttl next ih => intro σ; exact hstep _ σ (ih (Function.update σ k (some v)))
  | del k next ih => intro σ; exact hstep _ σ (ih (Function.update σ k none))
  | ask q next ih => intro σ; exact hstep _ σ (ih (env q) σ)

/-- Clients handled one after the other, each with an environment of its own. -/
def execAll : List (Prog K V Q A R × ∀ q, A q) → Store K V → Store K V
  | [], σ => σ
  | (p, env) :: rest, σ => execAll rest (p.exec env σ).1

/-- **Any sequence of clients is a run of the service.** -/
theorem reaches_execAll :
    ∀ (clients : List (Prog K V Q A R × ∀ q, A q)) (s : Service K V Q A R),
      (∀ x ∈ clients, arrives x.1) →
      ∃ running, Reaches arrives s ⟨execAll clients s.store, running⟩ := by
  intro clients
  induction clients with
  | nil => intro s _; exact ⟨s.running, Relation.ReflTransGen.refl⟩
  | cons x clients ih =>
      intro s hall
      obtain ⟨p, env⟩ := x
      have hp : arrives p := hall (p, env) List.mem_cons_self
      obtain ⟨running, hrest⟩ :=
        ih ⟨(p.exec env s.store).1, .ret (p.exec env s.store).2 :: s.running⟩
          (fun x hx => hall x (List.mem_cons_of_mem _ hx))
      refine ⟨running, ?_⟩
      exact Relation.ReflTransGen.head (Step.arrive s hp)
        ((reaches_exec env s.running p s.store).trans hrest)

end Service

end KeyValue
