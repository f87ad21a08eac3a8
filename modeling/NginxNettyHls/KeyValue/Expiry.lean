/-
  NginxNettyHls.KeyValue.Expiry
  ─────────────────────────────
  **A STORE WHOSE ENTRIES EXPIRE.**

  A write carries a time to live and gives its entry the deadline `now + ttl`;
  a read does not move the deadline, and an entry past its deadline reads as
  absent.  A client runs at one instant `now`.

  `execAt_visible`: at that instant the expiring store is indistinguishable
  from the plain one that holds just the entries still `visible`, so whatever
  is known of `Prog.exec` holds of `Prog.execAt` too.  `execAt_entry` says which
  deadlines a run leaves behind.
-/
import NginxNettyHls.KeyValue.Program

namespace KeyValue

variable {K V Q : Type} {A : Q → Type} {R : Type}

/-- A stored value with the last instant at which it can be read. -/
structure Entry (V : Type) where
  value : V
  deadline : Int
  deriving Repr, DecidableEq

/-- The content of an expiring store. -/
abbrev Expiring (K V : Type) := K → Option (Entry V)

/-- What a read of the store at `now` finds. -/
def visible (now : Int) (σ : Expiring K V) : Store K V := fun k =>
  match σ k with
  | none => none
  | some e => if e.deadline < now then none else some e.value

/-- The operation, if it is a write, gives its entry the time to live `ttl`. -/
def Prog.Op.LivesFor (ttl : Int) : Prog.Op K V → Prop
  | .set _ _ t => t = ttl
  | _ => True

variable [DecidableEq K]

/-- Run to the end at the instant `now`. -/
def Prog.execAt (now : Int) (env : ∀ q, A q) :
    Prog K V Q A R → Expiring K V → Expiring K V × R
  | .ret r, σ => (σ, r)
  | .get k next, σ => execAt now env (next (visible now σ k)) σ
  | .set k v ttl next, σ =>
      execAt now env next (Function.update σ k (some ⟨v, now + ttl⟩))
  | .del k next, σ => execAt now env next (Function.update σ k none)
  | .ask q next, σ => execAt now env (next (env q)) σ

theorem visible_update_some (now : Int) (σ : Expiring K V) (k : K) (v : V) {ttl : Int}
    (h : 0 ≤ ttl) :
    visible now (Function.update σ k (some ⟨v, now + ttl⟩))
      = Function.update (visible now σ) k (some v) := by
  funext k'
  unfold visible
  by_cases hk : k' = k
  · subst hk
    rw [Function.update_self, Function.update_self]
    exact if_neg (by simp only; omega)
  · rw [Function.update_of_ne hk, Function.update_of_ne hk]

theorem visible_update_none (now : Int) (σ : Expiring K V) (k : K) :
    visible now (Function.update σ k none) = Function.update (visible now σ) k none := by
  funext k'
  unfold visible
  by_cases hk : k' = k
  · subst hk
    rw [Function.update_self, Function.update_self]
  · rw [Function.update_of_ne hk, Function.update_of_ne hk]

/-- **At one instant, expiry is invisible**: running on the expiring store is
running on the plain store of its visible entries. -/
theorem execAt_visible (now : Int) (env : ∀ q, A q) {ttl : Int} (httl : 0 ≤ ttl) :
    ∀ (p : Prog K V Q A R), p.Each (Prog.Op.LivesFor ttl) → ∀ (σ : Expiring K V),
      (visible now (p.execAt now env σ).1, (p.execAt now env σ).2)
        = p.exec env (visible now σ) := by
  intro p
  induction p with
  | ret r => intro _ σ; rfl
  | get k next ih =>
      intro h σ
      exact ih (visible now σ k) (h.2 _) σ
  | set k v t next ih =>
      intro h σ
      have ht : t = ttl := h.1
      show _ = next.exec env (Function.update (visible now σ) k (some v))
      rw [← visible_update_some now σ k v (ht ▸ httl)]
      exact ih h.2 _
  | del k next ih =>
      intro h σ
      show _ = next.exec env (Function.update (visible now σ) k none)
      rw [← visible_update_none now σ k]
      exact ih h.2 _
  | ask q next ih =>
      intro h σ
      exact ih (env q) (h _) σ

/-- **What a run leaves of an entry**: the entry itself, nothing, or one that lasts
for `ttl` from now. -/
theorem execAt_entry (now : Int) (env : ∀ q, A q) {ttl : Int} :
    ∀ (p : Prog K V Q A R), p.Each (Prog.Op.LivesFor ttl) → ∀ (σ : Expiring K V) (k : K),
      (p.execAt now env σ).1 k = σ k ∨ (p.execAt now env σ).1 k = none
        ∨ ∃ v, (p.execAt now env σ).1 k = some ⟨v, now + ttl⟩ := by
  intro p
  induction p with
  | ret r => intro _ σ k; exact Or.inl rfl
  | get k' next ih => intro h σ k; exact ih _ (h.2 _) σ k
  | set k' v t next ih =>
      intro h σ k
      obtain rfl : t = ttl := h.1
      -- the rest of the run starts from the entry just written
      rcases ih h.2 (Function.update σ k' (some ⟨v, now + t⟩)) k with e | e
      · by_cases hk : k = k'
        · subst hk
          rw [Function.update_self] at e
          exact Or.inr (Or.inr ⟨v, e⟩)
        · rw [Function.update_of_ne hk] at e
          exact Or.inl e
      · exact Or.inr e
  | del k' next ih =>
      intro h σ k
      rcases ih h.2 (Function.update σ k' none) k with e | e
      · by_cases hk : k = k'
        · subst hk
          rw [Function.update_self] at e
          exact Or.inr (Or.inl e)
        · rw [Function.update_of_ne hk] at e
          exact Or.inl e
      · exact Or.inr e
  | ask q next ih => intro h σ k; exact ih _ (h _) σ k

end KeyValue
