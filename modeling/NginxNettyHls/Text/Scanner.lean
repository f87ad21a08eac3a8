/-
  NginxNettyHls.Text.Scanner
  ──────────────────────────
  **SCANNERS THAT ARE ENTERED AGAIN.**

  A scanner reads a text symbol by symbol.  When the text ends before there is a
  verdict it keeps its state, and is entered again with what has come since; it may
  look back at all it has seen.

    • `scanWith_append` — two calls are one call on both texts;
    • `scanWith_andThen`, `scanLoop_eq` — scanners one after the other, and a loop
      around a scanner, are scanners themselves.
-/
import Mathlib.Tactic.Common

namespace Text

variable {β σ σ' τ ρ ρ' : Type}

/-! ## §1. One call. -/

/-- What a scanner does on a symbol. -/
inductive Move (σ ρ : Type) where
  | go (s : σ)
  | stop (r : ρ)
  deriving Repr, DecidableEq

/-- What a call ends with: the state to be entered with again, or a verdict, with all that
has been seen up to its symbol and what is left behind it. -/
inductive Scanned (β σ ρ : Type) where
  | again (s : σ)
  | stop (r : ρ) (seen rest : List β)
  deriving Repr, DecidableEq

/-- A call on `text`, after `seen` has been read. -/
def scanWith (step : List β → σ → β → Move σ ρ) : List β → σ → List β → Scanned β σ ρ
  | _, s, [] => .again s
  | seen, s, b :: text =>
      match step seen s b with
      | .go s' => scanWith step (seen ++ [b]) s' text
      | .stop r => .stop r (seen ++ [b]) text

/-- Going on with `more`, as far as there is no verdict yet. -/
def Scanned.resume (enter : σ → List β → Scanned β σ ρ) (more : List β) :
    Scanned β σ ρ → Scanned β σ ρ
  | .again s => enter s more
  | .stop r seen rest => .stop r seen (rest ++ more)

theorem scanWith_go {step : List β → σ → β → Move σ ρ} {seen : List β} {s s' : σ} {b : β}
    (h : step seen s b = .go s') (text : List β) :
    scanWith step seen s (b :: text) = scanWith step (seen ++ [b]) s' text := by
  rw [scanWith, h]

theorem scanWith_stop {step : List β → σ → β → Move σ ρ} {seen : List β} {s : σ} {b : β} {r : ρ}
    (h : step seen s b = .stop r) (text : List β) :
    scanWith step seen s (b :: text) = .stop r (seen ++ [b]) text := by
  rw [scanWith, h]

/-- **Two calls are one.** -/
theorem scanWith_append (step : List β → σ → β → Move σ ρ) (more : List β) :
    ∀ (text seen : List β) (s : σ),
      scanWith step seen s (text ++ more)
        = (scanWith step seen s text).resume (scanWith step (seen ++ text)) more := by
  intro text
  induction text with
  | nil => intro seen s; rw [List.append_nil]; rfl
  | cons b text ih =>
      intro seen s
      rw [List.cons_append]
      cases hstep : step seen s b with
      | go s' =>
          rw [scanWith_go hstep, scanWith_go hstep, ih, List.append_assoc]
          rfl
      | stop r => rw [scanWith_stop hstep, scanWith_stop hstep]; rfl

/-- A verdict cuts the text behind its symbol. -/
theorem scanWith_cut {step : List β → σ → β → Move σ ρ} {r : ρ} :
    ∀ (text : List β) {seen : List β} {s : σ} {seen' rest : List β},
      scanWith step seen s text = .stop r seen' rest →
      seen' ++ rest = seen ++ text ∧ rest.length < text.length := by
  intro text
  induction text with
  | nil => intro seen s seen' rest h; exact absurd h (by simp [scanWith])
  | cons b text ih =>
      intro seen s seen' rest h
      cases hstep : step seen s b with
      | go s' =>
          rw [scanWith_go hstep] at h
          obtain ⟨hcut, hlt⟩ := ih h
          refine ⟨?_, Nat.lt_succ_of_lt hlt⟩
          rw [hcut, List.append_assoc]
          rfl
      | stop r' =>
          rw [scanWith_stop hstep] at h
          obtain ⟨rfl, rfl, rfl⟩ := Scanned.stop.inj h
          exact ⟨List.append_assoc seen [b] text, Nat.lt_succ_self _⟩

/-! ## §2. One scanner after the other. -/

/-- A step of the first scanner, as one of both. -/
def Move.andThen (f : σ → σ') (next : ρ → Move σ' ρ') : Move σ ρ → Move σ' ρ'
  | .go s => .go (f s)
  | .stop r => next r

/-- What a verdict of the first scanner has left is entered with `enter`. -/
def Scanned.andThen (f : σ → σ') (next : List β → ρ → Move σ' ρ')
    (enter : List β → σ' → List β → Scanned β σ' ρ') : Scanned β σ ρ → Scanned β σ' ρ'
  | .again s => .again (f s)
  | .stop r seen rest =>
      match next seen r with
      | .go s' => enter seen s' rest
      | .stop r' => .stop r' seen rest

/-- **One after the other is a scanner**: a scanner that does what the first one does, up to a
verdict, is the first one and then itself. -/
theorem scanWith_andThen {step : List β → σ → β → Move σ ρ} {step' : List β → σ' → β → Move σ' ρ'}
    {f : σ → σ'} {next : List β → ρ → Move σ' ρ'}
    (h : ∀ seen s b, step' seen (f s) b = (step seen s b).andThen f (next (seen ++ [b]))) :
    ∀ (text seen : List β) (s : σ),
      scanWith step' seen (f s) text
        = (scanWith step seen s text).andThen f next (scanWith step') := by
  intro text
  induction text with
  | nil => intro seen s; rfl
  | cons b text ih =>
      intro seen s
      have hboth := h seen s b
      cases hstep : step seen s b with
      | go s' =>
          rw [hstep] at hboth
          rw [scanWith_go hstep, scanWith_go hboth, ih]
      | stop r =>
          rw [hstep] at hboth
          rw [scanWith_stop hstep]
          unfold Scanned.andThen
          dsimp only
          cases hnext : next (seen ++ [b]) r with
          | go s' => exact scanWith_go (hboth.trans hnext) text
          | stop r' => exact scanWith_stop (hboth.trans hnext) text

/-- A loop around a scanner: it is called on what its last verdict has left, with a value `t`
that is carried along, until `next` stops; `fuel` bounds the number of calls. -/
def scanLoop (step : List β → σ → β → Move σ ρ)
    (next : List β → τ → ρ → Move (σ × τ) ρ') :
    Nat → List β → σ → τ → List β → Scanned β (σ × τ) ρ'
  | 0, _, s, t, _ => .again (s, t)
  | fuel + 1, seen, s, t, text =>
      (scanWith step seen s text).andThen (fun s' => (s', t)) (fun seen' r => next seen' t r)
        (fun seen' s' rest => scanLoop step next fuel seen' s'.1 s'.2 rest)

/-- The loop as a scanner. -/
def loopStep (step : List β → σ → β → Move σ ρ) (next : List β → τ → ρ → Move (σ × τ) ρ')
    (seen : List β) (s : σ × τ) (b : β) : Move (σ × τ) ρ' :=
  (step seen s.1 b).andThen (fun s' => (s', s.2)) (next (seen ++ [b]) s.2)

theorem scanWith_loopStep (step : List β → σ → β → Move σ ρ)
    (next : List β → τ → ρ → Move (σ × τ) ρ') (t : τ) (text seen : List β) (s : σ) :
    scanWith (loopStep step next) seen (s, t) text
      = (scanWith step seen s text).andThen (fun s' => (s', t)) (fun seen' r => next seen' t r)
        (scanWith (loopStep step next)) :=
  scanWith_andThen (f := fun s' => (s', t)) (fun _ _ _ => rfl) text seen s

/-- **The loop is a scanner**: there are no more verdicts than symbols. -/
theorem scanLoop_eq (step : List β → σ → β → Move σ ρ)
    (next : List β → τ → ρ → Move (σ × τ) ρ') :
    ∀ (fuel : Nat) (seen : List β) (s : σ) (t : τ) (text : List β), text.length < fuel →
      scanLoop step next fuel seen s t text = scanWith (loopStep step next) seen (s, t) text := by
  intro fuel
  induction fuel with
  | zero => intro seen s t text h; exact absurd h (Nat.not_lt_zero _)
  | succ fuel ih =>
      intro seen s t text h
      rw [scanLoop, scanWith_loopStep]
      cases hscan : scanWith step seen s text with
      | again s' => rfl
      | stop r seen' rest =>
          have hlt := (scanWith_cut text hscan).2
          unfold Scanned.andThen
          dsimp only
          cases hnext : next seen' t r with
          | go s' => exact ih seen' s'.1 s'.2 rest (by omega)
          | stop r' => rfl

end Text
