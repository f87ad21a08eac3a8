/-
  NginxNettyHls.KeyValue.Faults
  ─────────────────────────────
  **A STORE WHOSE OPERATIONS CAN FAIL.**

  A failed operation throws into the client, which does not catch: the client is
  gone, and what it has written before stays written.

    • `Prog.execFaulty` — the client run alone on such a store;
    • `Prog.Meets` — every operation the client really comes to is of a given kind;
    • `execFaulty_ok_iff` — the client gets to its end exactly when it meets no
      operation that fails, and its result is then that of `Prog.exec`.
-/
import NginxNettyHls.KeyValue.Program

namespace KeyValue

namespace Prog

variable {K V Q : Type} {A : Q → Type} {R S E : Type} [DecidableEq K]

/-- Run alone on a store where the operation `op` fails with `throws op`. -/
def execFaulty (throws : Op K V → Option E) (env : ∀ q, A q) :
    Prog K V Q A R → Store K V → Store K V × Except E R
  | ret r, σ => (σ, .ok r)
  | get k next, σ =>
      match throws (.get k) with
      | some e => (σ, .error e)
      | none => execFaulty throws env (next (σ k)) σ
  | set k v ttl next, σ =>
      match throws (.set k v ttl) with
      | some e => (σ, .error e)
      | none => execFaulty throws env next (Function.update σ k (some v))
  | del k next, σ =>
      match throws (.del k) with
      | some e => (σ, .error e)
      | none => execFaulty throws env next (Function.update σ k none)
  | ask q next, σ => execFaulty throws env (next (env q)) σ

/-- Every operation the client comes to, run alone from the store `σ`, satisfies `Φ`. -/
def Meets (Φ : Op K V → Prop) (env : ∀ q, A q) : Prog K V Q A R → Store K V → Prop
  | ret _, _ => True
  | get k next, σ => Φ (.get k) ∧ Meets Φ env (next (σ k)) σ
  | set k v ttl next, σ => Φ (.set k v ttl) ∧ Meets Φ env next (Function.update σ k (some v))
  | del k next, σ => Φ (.del k) ∧ Meets Φ env next (Function.update σ k none)
  | ask q next, σ => Meets Φ env (next (env q)) σ

/-- The operations do not depend on what is made of the result. -/
theorem meets_map (Φ : Op K V → Prop) (env : ∀ q, A q) (f : R → S) :
    ∀ (p : Prog K V Q A R) (σ : Store K V), Meets Φ env (map f p) σ ↔ Meets Φ env p σ := by
  intro p
  induction p with
  | ret r => intro σ; exact Iff.rfl
  | get k next ih => intro σ; exact and_congr_right fun _ => ih (σ k) σ
  | set k v ttl next ih => intro σ; exact and_congr_right fun _ => ih _
  | del k next ih => intro σ; exact and_congr_right fun _ => ih _
  | ask q next ih => intro σ; exact ih (env q) σ

/-- Changing the result changes nothing else. -/
theorem exec_map (env : ∀ q, A q) (f : R → S) :
    ∀ (p : Prog K V Q A R) (σ : Store K V),
      exec env (map f p) σ = ((exec env p σ).1, f (exec env p σ).2) := by
  intro p
  induction p with
  | ret r => intro σ; rfl
  | get k next ih => intro σ; exact ih (σ k) σ
  | set k v ttl next ih => intro σ; exact ih _
  | del k next ih => intro σ; exact ih _
  | ask q next ih => intro σ; exact ih (env q) σ

/-- **The client gets to its end** exactly when it meets no operation that fails. -/
theorem execFaulty_ok_iff (throws : Op K V → Option E) (env : ∀ q, A q) (r : R) :
    ∀ (p : Prog K V Q A R) (σ : Store K V),
      (execFaulty throws env p σ).2 = .ok r
        ↔ Meets (fun op => throws op = none) env p σ ∧ (exec env p σ).2 = r := by
  intro p
  -- one operation: it fails, or the rest decides
  have hstep : ∀ (o : Option E) (σ : Store K V) (out : Store K V × Except E R) (P T : Prop),
      (out.2 = .ok r ↔ P ∧ T) →
      ((match o with
        | some e => (σ, (Except.error e : Except E R))
        | none => out).2 = .ok r ↔ (o = none ∧ P) ∧ T) := by
    intro o σ out P T h
    cases o with
    | none => simpa using h
    | some e => simp
  induction p with
  | ret r' => intro σ; simp [execFaulty, Meets, exec]
  | get k next ih => intro σ; exact hstep _ _ _ _ _ (ih (σ k) σ)
  | set k v ttl next ih => intro σ; exact hstep _ _ _ _ _ (ih _)
  | del k next ih => intro σ; exact hstep _ _ _ _ _ (ih _)
  | ask q next ih => intro σ; exact ih (env q) σ

end Prog

end KeyValue
