import Mathlib.Tactic

namespace Mealy

variable {σ ι ο : Type*}

/-- A machine that answers each input with a list of outputs, fed a whole
list of inputs. The outputs are kept in the order they were produced. -/
def run (step : σ → ι → σ × List ο) : σ → List ι → σ × List ο
  | s, [] => (s, [])
  | s, i :: rest =>
    let now := step s i
    let later := run step now.1 rest
    (later.1, now.2 ++ later.2)

@[simp] theorem run_nil (step : σ → ι → σ × List ο) (s : σ) : run step s [] = (s, []) := rfl

theorem run_cons (step : σ → ι → σ × List ο) (s : σ) (i : ι) (rest : List ι) :
    run step s (i :: rest) =
      ((run step (step s i).1 rest).1, (step s i).2 ++ (run step (step s i).1 rest).2) := rfl

/-- A run over two stretches of input is a run over the first one followed
by a run over the second one from where the first one stopped. -/
theorem run_append (step : σ → ι → σ × List ο) (s : σ) (before after : List ι) :
    run step s (before ++ after) =
      ((run step (run step s before).1 after).1,
        (run step s before).2 ++ (run step (run step s before).1 after).2) := by
  induction before generalizing s with
  | nil => rfl
  | cons i rest ih => simp only [List.cons_append, run_cons, ih, List.append_assoc]

/-- A machine that refuses some inputs in some states, fed a whole list of inputs. There
is no result if one of them is refused. -/
def attempt (step : σ → ι → Option (σ × List ο)) : σ → List ι → Option (σ × List ο)
  | s, [] => some (s, [])
  | s, i :: rest => (step s i).bind fun now => (attempt step now.1 rest).map fun later => (later.1, now.2 ++ later.2)

theorem attempt_append (step : σ → ι → Option (σ × List ο)) (s : σ) (before after : List ι) :
    attempt step s (before ++ after) = (attempt step s before).bind fun first =>
      (attempt step first.1 after).map fun later => (later.1, first.2 ++ later.2) := by
  induction before generalizing s with
  | nil => simp [attempt]
  | cons i rest ih =>
    simp only [List.cons_append, attempt, Option.bind_assoc]
    refine congrArg _ (funext fun now => ?_)
    rw [ih]
    cases attempt step now.1 rest with
    | none => rfl
    | some first => simp [Function.comp_def]

theorem attempt_concat (step : σ → ι → Option (σ × List ο)) (s : σ) (before : List ι) (i : ι) :
    attempt step s (before ++ [i]) =
      (attempt step s before).bind fun first => (step first.1 i).map fun now => (now.1, first.2 ++ now.2) := by
  rw [attempt_append]
  refine congrArg _ (funext fun first => ?_)
  cases step_ : step first.1 i with
  | none => simp [attempt, step_]
  | some now => simp [attempt, step_]

/-- The last step of a run. -/
theorem attempt_concat_eq_some {step : σ → ι → Option (σ × List ο)} {s t : σ} {before : List ι} {i : ι} {out : List ο}
    (run : attempt step s (before ++ [i]) = some (t, out)) :
    ∃ u old new, attempt step s before = some (u, old) ∧ step u i = some (t, new) ∧ out = old ++ new := by
  rw [attempt_concat] at run
  obtain ⟨⟨u, old⟩, first, last⟩ := Option.bind_eq_some_iff.mp run
  obtain ⟨⟨t', new⟩, taken, same⟩ := Option.map_eq_some_iff.mp last
  cases same
  exact ⟨u, old, new, first, taken, rfl⟩

/-- What every step keeps up, of the inputs so far, the state and the outputs so far. -/
theorem attempt_invariant {step : σ → ι → Option (σ × List ο)} {P : List ι → σ → List ο → Prop} {s t : σ}
    {inputs : List ι} {out : List ο} (initial : P [] s [])
    (preserved : ∀ {before u old i v new}, P before u old → step u i = some (v, new) →
      P (before ++ [i]) v (old ++ new))
    (run : attempt step s inputs = some (t, out)) : P inputs t out := by
  induction inputs using List.reverseRecOn generalizing t out with
  | nil =>
    cases run
    exact initial
  | append_singleton before i ih =>
    obtain ⟨u, old, new, first, taken, rfl⟩ := attempt_concat_eq_some run
    exact preserved (ih first) taken

/-- Two machines whose steps agree under a view of the state agree in their runs: they
refuse the same inputs and give the same outputs. -/
theorem attempt_view {σ' : Type*} {step : σ → ι → Option (σ × List ο)} {step' : σ' → ι → Option (σ' × List ο)}
    (view : σ → σ') (agree : ∀ s i, (step s i).map (Prod.map view id) = step' (view s) i) (s : σ) (inputs : List ι) :
    (attempt step s inputs).map (Prod.map view id) = attempt step' (view s) inputs := by
  induction inputs generalizing s with
  | nil => rfl
  | cons i rest ih =>
    rw [attempt, attempt, ← agree]
    cases step s i with
    | none => rfl
    | some now =>
      simp only [Option.bind_some, Option.map_some, Prod.map_fst, Prod.map_snd, id_eq, ← ih, Option.map_map]
      rfl

end Mealy
