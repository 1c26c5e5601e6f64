import Mathlib.Tactic

/-- Runs of a labelled transition system in which every step taken meets a
condition on the state before it and on its label. -/
inductive LabelledReach {σ lab : Type*} (step : σ → lab → σ → Prop) (allowed : σ → lab → Prop)
    (start : σ) : σ → Prop
  | start : LabelledReach step allowed start start
  | next {s t : σ} {l : lab} : LabelledReach step allowed start s → allowed s l → step s l t →
      LabelledReach step allowed start t

namespace LabelledReach

variable {σ lab : Type*} {step : σ → lab → σ → Prop} {allowed : σ → lab → Prop} {start s : σ}

/-- What holds at the start and is preserved by every allowed step holds in
every state of a run. -/
theorem invariant {P : σ → Prop} (reach : LabelledReach step allowed start s) (initial : P start)
    (preserved : ∀ {s t l}, P s → allowed s l → step s l t → P t) : P s := by
  induction reach with
  | start => exact initial
  | next _ ok taken ih => exact preserved ih ok taken

theorem trans {t : σ} (first : LabelledReach step allowed start s) (second : LabelledReach step allowed s t) :
    LabelledReach step allowed start t := by
  induction second with
  | start => exact first
  | next _ ok taken ih => exact .next ih ok taken

theorem mono {weaker : σ → lab → Prop} (reach : LabelledReach step allowed start s)
    (weakens : ∀ {s l}, allowed s l → weaker s l) : LabelledReach step weaker start s := by
  induction reach with
  | start => exact .start
  | next _ ok taken ih => exact .next ih (weakens ok) taken

/-- Where every allowed step is matched by a run of another system, so is every run. -/
theorem simulate {τ lab' : Type*} {step' : τ → lab' → τ → Prop} {allowed' : τ → lab' → Prop} {start' : τ}
    {R : σ → τ → Prop} (reach : LabelledReach step allowed start s) (initial : R start start')
    (matched : ∀ {s t l u}, R s u → allowed s l → step s l t → ∃ v, LabelledReach step' allowed' u v ∧ R t v) :
    ∃ u, LabelledReach step' allowed' start' u ∧ R s u := by
  induction reach with
  | start => exact ⟨start', .start, initial⟩
  | next _ ok taken ih =>
    obtain ⟨u, run, related⟩ := ih
    obtain ⟨v, later, related'⟩ := matched related ok taken
    exact ⟨v, run.trans later, related'⟩

/-- Take the steps of a script one after the other, as far as they can be taken. -/
def follow (exec : σ → lab → Option σ) : σ → List lab → Option σ
  | s, [] => some s
  | s, l :: rest => (exec s l).bind fun t => follow exec t rest

theorem follow_append (exec : σ → lab → Option σ) (s : σ) (before after : List lab) :
    follow exec s (before ++ after) = (follow exec s before).bind fun t => follow exec t after := by
  induction before generalizing s with
  | nil => rfl
  | cons l rest ih =>
    rw [List.cons_append, follow, follow, Option.bind_assoc]
    exact congrArg _ (funext fun t => ih t)

theorem follow_concat (exec : σ → lab → Option σ) (s : σ) (before : List lab) (l : lab) :
    follow exec s (before ++ [l]) = (follow exec s before).bind fun t => exec t l := by
  rw [follow_append]
  simp [follow]

theorem follow_invariant {exec : σ → lab → Option σ} {P : σ → Prop} {script : List lab} {t : σ} (initial : P s)
    (preserved : ∀ {s t l}, P s → exec s l = some t → P t) (run : follow exec s script = some t) : P t := by
  induction script generalizing s with
  | nil =>
    cases Option.some.inj run
    exact initial
  | cons l rest ih =>
    obtain ⟨u, first, later⟩ := Option.bind_eq_some_iff.mp run
    exact ih (preserved initial first) later

/-- Where a step from a good state leads to a good state just if the step is good, a script
meets good states only if and only if it takes good steps only. -/
theorem follow_forall_iff {exec : σ → lab → Option σ} {P : σ → Prop} {good : σ → lab → Prop} {script : List lab}
    (initial : P start) (exact_ : ∀ {s t l}, P s → exec s l = some t → (P t ↔ good s l)) :
    (∀ before, before <+: script → ∀ s, follow exec start before = some s → P s) ↔
      ∀ before l, before ++ [l] <+: script → ∀ s t, follow exec start before = some s → exec s l = some t →
        good s l := by
  constructor
  · intro always before l inside s t reached taken
    have here : P s := always before ((List.prefix_append before [l]).trans inside) s reached
    refine (exact_ here taken).mp (always (before ++ [l]) inside t ?_)
    rw [follow_concat, reached]
    exact taken
  · intro careful before
    induction before using List.reverseRecOn with
    | nil =>
      intro _ s reached
      cases Option.some.inj reached
      exact initial
    | append_singleton before l ih =>
      intro inside t reached
      rw [follow_concat] at reached
      obtain ⟨s, earlier, taken⟩ := Option.bind_eq_some_iff.mp reached
      have here : P s := ih ((List.prefix_append before [l]).trans inside) s earlier
      exact (exact_ here taken).mpr (careful before l inside s t earlier taken)

/-- A script that can be followed to its end is a run. -/
theorem of_follow {exec : σ → lab → Option σ} (sound : ∀ {s l t}, exec s l = some t → allowed s l ∧ step s l t)
    {t : σ} {script : List lab} (reach : LabelledReach step allowed start s)
    (run : follow exec s script = some t) : LabelledReach step allowed start t := by
  induction script generalizing s with
  | nil =>
    cases Option.some.inj run
    exact reach
  | cons l rest ih =>
    obtain ⟨u, first, later⟩ := Option.bind_eq_some_iff.mp run
    obtain ⟨ok, taken⟩ := sound first
    exact ih (.next reach ok taken) later

/-- What is seen after a script has been followed is seen in some run. The condition on the
steps is checked along the way. -/
theorem exists_of_script (exec : σ → lab → Option σ) (check : σ → lab → Prop) [∀ s l, Decidable (check s l)]
    (sound : ∀ {s l}, check s l → allowed s l) (exec_step : ∀ {s l t}, exec s l = some t → step s l t)
    (start : σ) (script : List lab) (P : σ → Bool)
    (run : (follow (fun s l => if check s l then exec s l else none) start script).any P = true) :
    ∃ s, LabelledReach step allowed start s ∧ P s = true := by
  obtain ⟨t, end_, holds⟩ := (Option.any_eq_true _ _).mp run
  refine ⟨t, of_follow ?_ .start end_, holds⟩
  intro s l t taken
  split at taken
  · rename_i ok
    exact ⟨sound ok, exec_step taken⟩
  · cases taken

end LabelledReach

theorem Except.bind_eq_ok_iff.{u, v} {ε : Type u} {α β : Type v} {x : Except ε α} {f : α → Except ε β} {b : β} :
    x >>= f = .ok b ↔ ∃ a, x = .ok a ∧ f a = .ok b := by
  constructor
  · intro run
    cases x with
    | error => cases run
    | ok a => exact ⟨a, rfl, run⟩
  · rintro ⟨a, first, rest⟩
    rw [first]
    exact rest

theorem Except.bind_eq_error_iff.{u, v} {ε : Type u} {α β : Type v} {x : Except ε α} {f : α → Except ε β} {e : ε} :
    x >>= f = .error e ↔ x = .error e ∨ ∃ a, x = .ok a ∧ f a = .error e := by
  cases x with
  | error first =>
    constructor
    · intro run
      cases run
      exact Or.inl rfl
    · rintro (stop | ⟨_, impossible, _⟩)
      · cases stop
        rfl
      · cases impossible
  | ok a =>
    constructor
    · intro run
      exact Or.inr ⟨a, rfl, run⟩
    · rintro (impossible | ⟨b, same, rest⟩)
      · cases impossible
      · cases same
        exact rest
