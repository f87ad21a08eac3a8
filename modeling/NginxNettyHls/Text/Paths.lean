/-
  NginxNettyHls.Text.Paths
  ────────────────────────
  **RESOLVING PATHS.**

  A segment of a path makes its reader stay, go up or go down to a name.  What a
  list of segments does to a position is independent of the position: it leads up
  some levels and down some names (`effect`).

    • `walk_eq` — walking on from any position, where going up from the top stays
      at the top;
    • `tryWalk_eq` — the same where going up from the top fails;
    • `take_append_eq_iff` — when two walks that start apart end at one position;
    • `joinNames_inj` — positions are recovered from their texts;
    • `lexical_joinNames`, `lexical_names` — the text of the position a path leads to.
-/
import NginxNettyHls.Text.Lines

namespace Text

/-! ## §1. Steps. -/

/-- What a segment does. -/
inductive PathStep (α : Type) where
  | stay
  | up
  | down (name : α)
  deriving Repr, DecidableEq

variable {α β : Type}

def PathStep.map (f : α → β) : PathStep α → PathStep β
  | .stay => .stay
  | .up => .up
  | .down a => .down (f a)

def climb (names : List α) : PathStep α → List α
  | .stay => names
  | .up => names.dropLast
  | .down a => names ++ [a]

/-- The position reached from `names`; above the top there is only the top. -/
def walk (names : List α) (steps : List (PathStep α)) : List α := steps.foldl climb names

/-- The same step, but there is no way up from the top. -/
def tryClimb (names : List α) : PathStep α → Option (List α)
  | .stay => some names
  | .up => if names.length = 0 then none else some names.dropLast
  | .down a => some (names ++ [a])

def tryWalk : List α → List (PathStep α) → Option (List α)
  | names, [] => some names
  | names, s :: steps => (tryClimb names s).bind (fun names => tryWalk names steps)

/-- Levels up, then names down. -/
structure PathEffect (α : Type) where
  ups : Nat
  downs : List α
  deriving Repr, DecidableEq

/-- The effect of a step and what follows it: a name that is left again does not
count. -/
def PathEffect.after (e : PathEffect α) : PathStep α → PathEffect α
  | .stay => e
  | .up => ⟨e.ups + 1, e.downs⟩
  | .down a => if e.ups = 0 then ⟨0, a :: e.downs⟩ else ⟨e.ups - 1, e.downs⟩

def effect : List (PathStep α) → PathEffect α
  | [] => ⟨0, []⟩
  | s :: steps => (effect steps).after s

/-! ## §2. Walking. -/

/-- **Walking on from any position.** -/
theorem walk_eq :
    ∀ (steps : List (PathStep α)) (names : List α),
      walk names steps
        = names.take (names.length - (effect steps).ups) ++ (effect steps).downs := by
  intro steps
  induction steps with
  | nil =>
      intro names
      show names = names.take (names.length - 0) ++ []
      rw [Nat.sub_zero, List.take_length, List.append_nil]
  | cons s steps ih =>
      intro names
      show walk (climb names s) steps
        = names.take (names.length - ((effect steps).after s).ups) ++ ((effect steps).after s).downs
      rw [ih]
      cases s with
      | stay => rfl
      | up =>
          show names.dropLast.take (names.dropLast.length - (effect steps).ups) ++ _
            = names.take (names.length - ((effect steps).ups + 1)) ++ _
          have htake : names.dropLast.take (names.dropLast.length - (effect steps).ups)
              = names.take (names.length - ((effect steps).ups + 1)) := by
            rw [List.dropLast_eq_take, List.take_take, List.length_take]
            congr 1
            omega
          rw [htake]
          rfl
      | down a =>
          show (names ++ [a]).take ((names ++ [a]).length - (effect steps).ups) ++ _ = _
          unfold PathEffect.after
          dsimp only
          rw [List.length_append, List.length_singleton]
          by_cases hups : (effect steps).ups = 0
          · rw [if_pos hups, hups, Nat.sub_zero, Nat.sub_zero, List.take_length,
              List.take_of_length_le (by simp), List.append_assoc]
            rfl
          · rw [if_neg hups, List.take_append_of_le_length (by omega)]
            have hlen : names.length + 1 - (effect steps).ups
                = names.length - ((effect steps).ups - 1) := by omega
            rw [hlen]

/-- **Walking where the top is a wall**: it fails exactly when it leads up further than
there are names. -/
theorem tryWalk_eq :
    ∀ (steps : List (PathStep α)) (names : List α),
      tryWalk names steps
        = if (effect steps).ups ≤ names.length then some (walk names steps) else none := by
  intro steps
  induction steps with
  | nil =>
      intro names
      show some names = if 0 ≤ names.length then some names else none
      rw [if_pos (Nat.zero_le _)]
  | cons s steps ih =>
      intro names
      show (tryClimb names s).bind (fun names => tryWalk names steps)
        = if ((effect steps).after s).ups ≤ names.length then some (walk (climb names s) steps)
          else none
      cases s with
      | stay => exact ih names
      | up =>
          show (if names.length = 0 then none else some names.dropLast).bind _
            = if (effect steps).ups + 1 ≤ names.length then _ else none
          by_cases hlen : names.length = 0
          · rw [if_pos hlen, if_neg (by omega)]
            rfl
          · rw [if_neg hlen]
            show tryWalk names.dropLast steps = _
            rw [ih, List.length_dropLast]
            have hiff : (effect steps).ups ≤ names.length - 1
                ↔ (effect steps).ups + 1 ≤ names.length := by omega
            simp only [hiff]
            rfl
      | down a =>
          show tryWalk (names ++ [a]) steps = _
          rw [ih, List.length_append, List.length_singleton]
          have hiff : (effect steps).ups ≤ names.length + 1
              ↔ ((effect steps).after (.down a)).ups ≤ names.length := by
            unfold PathEffect.after
            dsimp only
            split_ifs with hups
            · rw [hups]
              exact iff_of_true (Nat.zero_le _) (Nat.zero_le _)
            · show _ ↔ (effect steps).ups - 1 ≤ names.length
              omega
          simp only [hiff]
          rfl

theorem of_tryWalk {steps : List (PathStep α)} {names names' : List α}
    (h : tryWalk names steps = some names') :
    (effect steps).ups ≤ names.length
      ∧ names' = names.take (names.length - (effect steps).ups) ++ (effect steps).downs := by
  rw [tryWalk_eq] at h
  split_ifs at h with hups
  exact ⟨hups, by rw [← walk_eq]; exact (Option.some.inj h).symm⟩

theorem tryWalk_append (names : List α) (steps steps' : List (PathStep α)) :
    tryWalk names (steps ++ steps')
      = (tryWalk names steps).bind (fun names => tryWalk names steps') := by
  induction steps generalizing names with
  | nil => rfl
  | cons s steps ih =>
      show (tryClimb names s).bind (fun names => tryWalk names (steps ++ steps'))
        = ((tryClimb names s).bind (fun names => tryWalk names steps)).bind _
      cases tryClimb names s with
      | none => rfl
      | some names' => exact ih names'

/-- Other names for the same steps. -/
theorem effect_map (f : α → β) :
    ∀ (steps : List (PathStep α)),
      effect (steps.map (PathStep.map f))
        = ⟨(effect steps).ups, (effect steps).downs.map f⟩ := by
  intro steps
  induction steps with
  | nil => rfl
  | cons s steps ih =>
      show (effect (steps.map (PathStep.map f))).after (s.map f) = _
      rw [ih]
      cases s with
      | stay => rfl
      | up => rfl
      | down a =>
          show PathEffect.after _ (.down (f a))
            = ⟨((effect steps).after (.down a)).ups, ((effect steps).after (.down a)).downs.map f⟩
          unfold PathEffect.after
          dsimp only
          split_ifs <;> rfl

/-- A last step that stays or goes down. -/
theorem effect_concat_stay (steps : List (PathStep α)) :
    effect (steps ++ [.stay]) = effect steps := by
  induction steps with
  | nil => rfl
  | cons s steps ih => exact congrArg (PathEffect.after · s) ih

theorem effect_concat_down (a : α) :
    ∀ (steps : List (PathStep α)),
      effect (steps ++ [.down a]) = ⟨(effect steps).ups, (effect steps).downs ++ [a]⟩ := by
  intro steps
  induction steps with
  | nil => rfl
  | cons s steps ih =>
      show (effect (steps ++ [.down a])).after s = _
      rw [ih]
      cases s with
      | stay => rfl
      | up => rfl
      | down b =>
          show PathEffect.after _ (.down b)
            = ⟨((effect steps).after (.down b)).ups, ((effect steps).after (.down b)).downs ++ [a]⟩
          unfold PathEffect.after
          dsimp only
          split_ifs <;> rfl

theorem walk_append (names : List α) (steps steps' : List (PathStep α)) :
    walk names (steps ++ steps') = walk (walk names steps) steps' :=
  List.foldl_append

/-- Going down only. -/
theorem walk_down :
    ∀ (names' names : List α), walk names (names'.map .down) = names ++ names' := by
  intro names'
  induction names' with
  | nil => intro names; exact (List.append_nil names).symm
  | cons a names' ih =>
      intro names
      show walk (names ++ [a]) (names'.map .down) = names ++ a :: names'
      rw [ih, List.append_assoc]
      rfl

/-- What is reached consists of names passed on the way. -/
theorem mem_downs :
    ∀ {steps : List (PathStep α)} {a : α}, a ∈ (effect steps).downs → .down a ∈ steps := by
  intro steps
  induction steps with
  | nil => intro a h; exact absurd h List.not_mem_nil
  | cons s steps ih =>
      intro a h
      cases s with
      | stay => exact List.mem_cons_of_mem _ (ih h)
      | up => exact List.mem_cons_of_mem _ (ih h)
      | down b =>
          change a ∈ ((effect steps).after (.down b)).downs at h
          unfold PathEffect.after at h
          dsimp only at h
          split_ifs at h with hups
          · rcases List.mem_cons.mp h with rfl | h
            · exact List.mem_cons_self
            · exact List.mem_cons_of_mem _ (ih h)
          · exact List.mem_cons_of_mem _ (ih h)

theorem mem_walk {names : List α} {steps : List (PathStep α)} {a : α}
    (h : a ∈ walk names steps) : a ∈ names ∨ .down a ∈ steps := by
  rw [walk_eq, List.mem_append] at h
  rcases h with h | h
  · exact Or.inl (List.mem_of_mem_take h)
  · exact Or.inr (mem_downs h)

/-- **Two walks that differ in how they start.**  One goes up `u` levels from `root`, the
other from `root` with `extra` behind it; it never gets to `root`. -/
theorem take_append_eq_iff {root extra X Y : List α} {u : Nat} (hu : u ≤ extra.length)
    (hlen : X.length = Y.length) :
    root.take (root.length - u) ++ X = root ++ (extra.take (extra.length - u) ++ Y)
      ↔ u = extra.length ∧ (extra = [] ∨ root = []) ∧ X = Y := by
  constructor
  · intro h
    have hlength := congrArg List.length h
    simp only [List.length_append, List.length_take] at hlength
    have hcases : extra.length = 0 ∧ u = 0 ∨ root.length = 0 ∧ u = extra.length := by omega
    rcases hcases with ⟨hextra, hu0⟩ | ⟨hroot, huextra⟩
    · have hextra' := List.length_eq_zero_iff.mp hextra
      rw [hextra', hu0, Nat.sub_zero, List.take_length, List.take_nil, List.nil_append] at h
      exact ⟨by rw [hu0, hextra], Or.inl hextra', List.append_cancel_left h⟩
    · have hroot' := List.length_eq_zero_iff.mp hroot
      rw [hroot', huextra, Nat.sub_self, List.take_nil, List.take_zero, List.nil_append,
        List.nil_append, List.nil_append] at h
      exact ⟨huextra, Or.inr hroot', h⟩
  · rintro ⟨hu', hempty, rfl⟩
    rw [hu', Nat.sub_self, List.take_zero, List.nil_append]
    rcases hempty with hextra | hroot
    · rw [hextra, List.length_nil, Nat.sub_zero, List.take_length]
    · rw [hroot, List.take_nil]

/-! ## §3. Texts of paths. -/

/-- Every name with a separator in front. -/
def joinNames (sep : α) (names : List (List α)) : List α := names.flatMap (sep :: ·)

theorem joinNames_append (sep : α) (names names' : List (List α)) :
    joinNames sep (names ++ names') = joinNames sep names ++ joinNames sep names' :=
  List.flatMap_append

theorem joinNames_concat (sep : α) (names : List (List α)) (name : List α) :
    joinNames sep (names ++ [name]) = joinNames sep names ++ sep :: name := by
  rw [joinNames_append]
  exact congrArg (joinNames sep names ++ ·) (List.append_nil (sep :: name))

/-- A path ends in a separator when its last segment is empty. -/
theorem getLast?_joinNames_iff {sep : α} {segs : List (List α)} (h : ∀ seg ∈ segs, sep ∉ seg) :
    (joinNames sep segs).getLast? = some sep ↔ segs.getLast? = some [] := by
  induction segs using List.reverseRecOn with
  | nil => exact iff_of_false (by simp [joinNames]) (by simp)
  | append_singleton segs seg ih =>
      rw [joinNames_concat, List.getLast?_concat]
      cases seg using List.reverseRecOn with
      | nil => exact iff_of_true List.getLast?_concat rfl
      | append_singleton seg a =>
          have hsep := h (seg ++ [a]) (List.mem_append_right _ List.mem_cons_self)
          rw [← List.cons_append, ← List.append_assoc, List.getLast?_concat]
          apply iff_of_false
          · intro heq
            rw [← Option.some.inj heq] at hsep
            exact hsep (List.mem_append_right _ List.mem_cons_self)
          · intro heq
            exact absurd (Option.some.inj heq) (by simp)

variable [DecidableEq α]

/-- An empty segment and `.` stay, `..` goes up, any other segment is a name. -/
def pathStep (dot : α) (seg : List α) : PathStep (List α) :=
  if seg = [] ∨ seg = [dot] then .stay else if seg = [dot, dot] then .up else .down seg

/-- The segments of a path between its separators. -/
def segments (sep : α) (path : List α) : List (List α) := path.splitOnP (fun a => a == sep)

/-- **Lexical resolution** of an absolute path: no empty segment, `.` or `..` is left; a
separator at the end stays. -/
def lexical (sep dot : α) (path : List α) : List α :=
  joinNames sep (walk [] ((segments sep path).map (pathStep dot)))
    ++ if path.getLast? = some sep then [sep] else []

/-- A segment that names something. -/
structure IsName (sep dot : α) (seg : List α) : Prop where
  step : pathStep dot seg = .down seg
  sep : sep ∉ seg

theorem segments_append_cons (sep : α) (u v : List α) :
    segments sep (u ++ sep :: v) = segments sep u ++ segments sep v := by
  unfold segments
  rw [List.splitOnP_append_cons _ _ (by simp)]

theorem segments_ne_nil (sep : α) (path : List α) : segments sep path ≠ [] :=
  List.splitOnP_ne_nil _ _

/-- A text without separators is one segment. -/
theorem segments_of_not_mem {sep : α} {seg : List α} (h : sep ∉ seg) :
    segments sep seg = [seg] := by
  apply List.splitOnP_eq_singleton
  intro a ha
  rw [beq_eq_false_iff_ne]
  rintro rfl
  exact h ha

theorem not_mem_of_mem_segments {sep : α} :
    ∀ {path seg : List α}, seg ∈ segments sep path → sep ∉ seg := by
  intro path
  induction path with
  | nil =>
      intro seg h
      rw [segments_of_not_mem List.not_mem_nil, List.mem_singleton] at h
      rw [h]
      exact List.not_mem_nil
  | cons a path ih =>
      intro seg h
      unfold segments at h
      rw [List.splitOnP_cons_eq_if_modifyHead] at h
      change seg ∈ if (a == sep) = true then [] :: segments sep path
        else (segments sep path).modifyHead (a :: ·) at h
      split_ifs at h with ha
      · rcases List.mem_cons.mp h with rfl | h
        · exact List.not_mem_nil
        · exact ih h
      · cases hs : segments sep path with
        | nil => exact absurd hs (segments_ne_nil sep path)
        | cons q qs =>
            rw [hs, List.modifyHead_cons] at h
            rcases List.mem_cons.mp h with rfl | h
            · intro hmem
              rcases List.mem_cons.mp hmem with rfl | hmem
              · exact ha (by simp)
              · exact ih (by rw [hs]; exact List.mem_cons_self) hmem
            · exact ih (by rw [hs]; exact List.mem_cons_of_mem q h)

theorem segments_joinNames {sep : α} :
    ∀ {segs : List (List α)}, (∀ seg ∈ segs, sep ∉ seg) →
      segments sep (joinNames sep segs) = [] :: segs := by
  intro segs
  induction segs using List.reverseRecOn with
  | nil => intro _; rfl
  | append_singleton segs seg ih =>
      intro h
      rw [joinNames_concat, segments_append_cons,
        ih (fun t ht => h t (List.mem_append_left _ ht)),
        segments_of_not_mem (h seg (List.mem_append_right _ List.mem_cons_self))]
      rfl

/-- **A path is its segments.** -/
theorem joinNames_inj {sep : α} {segs segs' : List (List α)} (h : ∀ seg ∈ segs, sep ∉ seg)
    (h' : ∀ seg ∈ segs', sep ∉ seg) : joinNames sep segs = joinNames sep segs' ↔ segs = segs' := by
  constructor
  · intro heq
    have hsegs := congrArg (segments sep) heq
    rw [segments_joinNames h, segments_joinNames h'] at hsegs
    exact (List.cons.inj hsegs).2
  · intro heq
    rw [heq]

theorem joinNames_segments (sep : α) :
    ∀ (path : List α), joinNames sep (segments sep path) = sep :: path := by
  intro path
  induction path with
  | nil => rfl
  | cons a path ih =>
      unfold segments
      rw [List.splitOnP_cons_eq_if_modifyHead]
      change joinNames sep (if (a == sep) = true then [] :: segments sep path
        else (segments sep path).modifyHead (a :: ·)) = _
      split_ifs with ha
      · rw [eq_of_beq ha]
        show sep :: joinNames sep (segments sep path) = _
        rw [ih]
      · cases hs : segments sep path with
        | nil => exact absurd hs (segments_ne_nil sep path)
        | cons q qs =>
            rw [hs] at ih
            have hpath : q ++ joinNames sep qs = path := (List.cons.inj ih).2
            show sep :: a :: (q ++ joinNames sep qs) = _
            rw [hpath]

/-- **Resolving a path, segment by segment.** -/
theorem lexical_joinNames {sep dot : α} {segs : List (List α)} (h : ∀ seg ∈ segs, sep ∉ seg) :
    lexical sep dot (joinNames sep segs)
      = joinNames sep (walk [] (segs.map (pathStep dot))
          ++ if segs.getLast? = some [] then [[]] else []) := by
  unfold lexical
  rw [segments_joinNames h, joinNames_append]
  simp only [getLast?_joinNames_iff h]
  congr 1
  split_ifs <;> rfl

theorem pathStep_cases (dot : α) (seg : List α) :
    pathStep dot seg = .stay ∨ pathStep dot seg = .up ∨ pathStep dot seg = .down seg := by
  unfold pathStep
  split_ifs with h1 h2
  · exact Or.inl rfl
  · exact Or.inr (Or.inl rfl)
  · exact Or.inr (Or.inr rfl)

/-- The names among the segments of a path. -/
theorem isName_of_mem_map {sep dot : α} {segs : List (List α)} (h : ∀ seg ∈ segs, sep ∉ seg)
    {name : List α} (hname : .down name ∈ segs.map (pathStep dot)) : IsName sep dot name := by
  obtain ⟨seg, hseg, hstep⟩ := List.mem_map.mp hname
  have hdown : pathStep dot seg = .down seg := by
    rcases pathStep_cases dot seg with hstay | hup | hdown
    · exact absurd (hstay.symm.trans hstep) (by simp)
    · exact absurd (hup.symm.trans hstep) (by simp)
    · exact hdown
  obtain rfl := PathStep.down.inj (hdown.symm.trans hstep)
  exact ⟨hdown, h seg hseg⟩

theorem walk_names {sep dot : α} {names : List (List α)}
    (h : ∀ name ∈ names, IsName sep dot name) : walk [] (names.map (pathStep dot)) = names := by
  have hsteps : names.map (pathStep dot) = names.map .down :=
    List.map_congr_left (fun name hname => (h name hname).step)
  rw [hsteps, walk_down, List.nil_append]

/-- **Resolution leaves names alone.** -/
theorem lexical_names {sep dot : α} {names : List (List α)}
    (h : ∀ name ∈ names, IsName sep dot name) :
    lexical sep dot (joinNames sep names) = joinNames sep names := by
  have hlast : names.getLast? ≠ some [] := by
    intro heq
    have hstep := (h [] (List.mem_of_getLast? heq)).step
    unfold pathStep at hstep
    rw [if_pos (Or.inl rfl)] at hstep
    exact absurd hstep (by simp)
  rw [lexical_joinNames (fun name hname => (h name hname).sep), walk_names h, if_neg hlast,
    List.append_nil]

end Text
