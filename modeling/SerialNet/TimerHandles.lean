import SerialNet.Lib.History
import SerialNet.Lib.Reach
import SerialNet.TimeService

namespace SerialNet

/-- A timeout of the event loop. It holds a reference to itself from its start until it has
fired, so that it is never destroyed while it is running. `fired` and `cancelled` record
what has happened to it, the latter a call of `Timer::cancel`. -/
structure TimeWatcher where
  timeout : ℚ
  m_active : Bool
  m_tw : Bool
  fired : Bool
  cancelled : Bool
deriving DecidableEq

/-- The watchers and the handles of a program, each known by its number. A handle is `none`
once it has been destroyed; a live one refers to a watcher or to none. -/
structure TimeServiceEv where
  now : ℚ
  m_watchers : List TimeWatcher
  m_handles : List (Option (Option Nat))
deriving DecidableEq

namespace TimeServiceEv

/-- What a program does with handles, and what the event loop does meanwhile. -/
inductive Op
  | null
  | makeTimeout (timespan : ℚ)
  | makeTimeoutAbs (timepoint : ℚ)
  | copy (h : Nat)
  | copyAssign (h src : Nat)
  | moveAssign (h src : Nat)
  | swap (h k : Nat)
  | cancel (h : Nat)
  | destroy (h : Nat)
  | clock (now : ℚ)
  | cb (i : Nat)

def start (now : ℚ) : TimeServiceEv := ⟨now, [], []⟩

/-- The `m_timer` of a live handle. -/
def handle (w : TimeServiceEv) (h : Nat) : Option (Option Nat) := w.m_handles[h]?.join

/-- `TimerImpl::cancel`, unless the pointer is null. -/
def stop (w : TimeServiceEv) : Option Nat → TimeServiceEv
  | none => w
  | some i => { w with m_watchers := w.m_watchers.modify i ({ · with m_active := false }) }

/-- The result is a handle of its own, not a copy of one. -/
def makeTimeout (w : TimeServiceEv) (timespan : ℚ) : TimeServiceEv :=
  { w with
    m_watchers := w.m_watchers ++ [⟨w.now + timespan, true, true, false, false⟩]
    m_handles := w.m_handles ++ [some (some w.m_watchers.length)] }

def copy (w : TimeServiceEv) (h : Nat) : Option TimeServiceEv := do
  let t ← w.handle h
  some { w with m_handles := w.m_handles ++ [some t] }

/-- The copy that is made first is destroyed with the old pointer. -/
def copyAssign (w : TimeServiceEv) (h src : Nat) : Option TimeServiceEv := do
  let old ← w.handle h
  let t ← w.handle src
  some ({ w with m_handles := w.m_handles.set h (some t) }.stop old)

/-- The old pointer is swapped into the source and reset there. -/
def moveAssign (w : TimeServiceEv) (h src : Nat) : Option TimeServiceEv := do
  let _ ← w.handle h
  let t ← w.handle src
  some { w with m_handles := (w.m_handles.set h (some t)).set src (some none) }

def swap (w : TimeServiceEv) (h k : Nat) : Option TimeServiceEv := do
  let t ← w.handle h
  let u ← w.handle k
  some { w with m_handles := (w.m_handles.set h (some u)).set k (some t) }

def cancel (w : TimeServiceEv) (h : Nat) : Option TimeServiceEv := do
  let t ← w.handle h
  match t with
  | none => some w
  | some i => some { w with
      m_watchers := w.m_watchers.modify i ({ · with m_active := false, cancelled := true })
      m_handles := w.m_handles.set h (some none) }

def destroy (w : TimeServiceEv) (h : Nat) : Option TimeServiceEv := do
  let t ← w.handle h
  some ({ w with m_handles := w.m_handles.set h none }.stop t)

/-- The event loop calls a timer that is running and due. -/
def cb (w : TimeServiceEv) (i : Nat) : Option TimeServiceEv := do
  let x ← w.m_watchers[i]?
  if x.m_active ∧ x.timeout ≤ w.now then
    some { w with m_watchers := w.m_watchers.modify i ({ · with m_active := false, m_tw := false, fired := true }) }
  else
    none

/-- `none` is a handle that is not there, or a call that is not due. -/
def step (w : TimeServiceEv) : Op → Option TimeServiceEv
  | .null => some { w with m_handles := w.m_handles ++ [some none] }
  | .makeTimeout timespan => some (w.makeTimeout timespan)
  | .makeTimeoutAbs timepoint => some (w.makeTimeout (timepoint - w.now))
  | .copy h => w.copy h
  | .copyAssign h src => w.copyAssign h src
  | .moveAssign h src => w.moveAssign h src
  | .swap h k => w.swap h k
  | .cancel h => w.cancel h
  | .destroy h => w.destroy h
  | .clock now => if w.now ≤ now then some { w with now } else none
  | .cb i => w.cb i

/-- Everything that a step can do. -/
inductive Moves (w : TimeServiceEv) : Op → TimeServiceEv → Prop
  | null : Moves w .null { w with m_handles := w.m_handles ++ [some none] }
  | makeTimeout {timespan : ℚ} : Moves w (.makeTimeout timespan) (w.makeTimeout timespan)
  | makeTimeoutAbs {timepoint : ℚ} : Moves w (.makeTimeoutAbs timepoint) (w.makeTimeout (timepoint - w.now))
  | copy {h : Nat} {t : Option Nat} : w.handle h = some t →
      Moves w (.copy h) { w with m_handles := w.m_handles ++ [some t] }
  | copyAssign {h src : Nat} {old t : Option Nat} : w.handle h = some old → w.handle src = some t →
      Moves w (.copyAssign h src) ({ w with m_handles := w.m_handles.set h (some t) }.stop old)
  | moveAssign {h src : Nat} {old t : Option Nat} : w.handle h = some old → w.handle src = some t →
      Moves w (.moveAssign h src) { w with m_handles := (w.m_handles.set h (some t)).set src (some none) }
  | swap {h k : Nat} {t u : Option Nat} : w.handle h = some t → w.handle k = some u →
      Moves w (.swap h k) { w with m_handles := (w.m_handles.set h (some u)).set k (some t) }
  | cancelNull {h : Nat} : w.handle h = some none → Moves w (.cancel h) w
  | cancel {h j : Nat} : w.handle h = some (some j) →
      Moves w (.cancel h) { w with
        m_watchers := w.m_watchers.modify j ({ · with m_active := false, cancelled := true })
        m_handles := w.m_handles.set h (some none) }
  | destroy {h : Nat} {t : Option Nat} : w.handle h = some t →
      Moves w (.destroy h) ({ w with m_handles := w.m_handles.set h none }.stop t)
  | clock {now : ℚ} : w.now ≤ now → Moves w (.clock now) { w with now }
  | cb {j : Nat} {x : TimeWatcher} : w.m_watchers[j]? = some x → x.m_active = true ∧ x.timeout ≤ w.now →
      Moves w (.cb j) { w with
        m_watchers := w.m_watchers.modify j ({ · with m_active := false, m_tw := false, fired := true }) }

theorem step_moves {w w' : TimeServiceEv} {op : Op} (run : w.step op = some w') : Moves w op w' := by
  cases op with
  | null =>
    cases Option.some.inj run
    exact .null
  | makeTimeout timespan =>
    cases Option.some.inj run
    exact .makeTimeout
  | makeTimeoutAbs timepoint =>
    cases Option.some.inj run
    exact .makeTimeoutAbs
  | copy h =>
    obtain ⟨t, live, run⟩ := Option.bind_eq_some_iff.mp run
    cases Option.some.inj run
    exact .copy live
  | copyAssign h src =>
    obtain ⟨old, live, run⟩ := Option.bind_eq_some_iff.mp run
    obtain ⟨t, source, run⟩ := Option.bind_eq_some_iff.mp run
    cases Option.some.inj run
    exact .copyAssign live source
  | moveAssign h src =>
    obtain ⟨old, live, run⟩ := Option.bind_eq_some_iff.mp run
    obtain ⟨t, source, run⟩ := Option.bind_eq_some_iff.mp run
    cases Option.some.inj run
    exact .moveAssign live source
  | swap h k =>
    obtain ⟨t, first, run⟩ := Option.bind_eq_some_iff.mp run
    obtain ⟨u, second, run⟩ := Option.bind_eq_some_iff.mp run
    cases Option.some.inj run
    exact .swap first second
  | cancel h =>
    obtain ⟨t, live, run⟩ := Option.bind_eq_some_iff.mp run
    cases t with
    | none =>
      cases Option.some.inj run
      exact .cancelNull live
    | some j =>
      cases Option.some.inj run
      exact .cancel live
  | destroy h =>
    obtain ⟨t, live, run⟩ := Option.bind_eq_some_iff.mp run
    cases Option.some.inj run
    exact .destroy live
  | clock now =>
    simp only [step] at run
    split at run
    · rename_i later
      cases Option.some.inj run
      exact .clock later
    · cases run
  | cb j =>
    obtain ⟨x, there, run⟩ := Option.bind_eq_some_iff.mp run
    split at run
    · rename_i due
      cases Option.some.inj run
      exact .cb there due
    · cases run

/-- The timeout has neither fired nor been cancelled through a handle. -/
def Open (w : TimeServiceEv) (i : Nat) : Prop :=
  ∃ x, w.m_watchers[i]? = some x ∧ x.fired = false ∧ x.cancelled = false

def Armed (w : TimeServiceEv) (i : Nat) : Prop := ∃ x, w.m_watchers[i]? = some x ∧ x.m_active = true

/-- A live handle refers to the timeout. -/
def Owned (w : TimeServiceEv) (i : Nat) : Prop := ∃ h, w.handle h = some (some i)

/-- A live handle other than `h` does. -/
def OwnedBeside (w : TimeServiceEv) (h i : Nat) : Prop := ∃ k, k ≠ h ∧ w.handle k = some (some i)

/-- A timeout that is still open is registered exactly while it is owned. -/
def ArmedWhileOwned (w : TimeServiceEv) : Prop := ∀ i, w.Open i → (w.Armed i ↔ w.Owned i)

/-- A handle to an open timeout is destroyed or copied to only if it is the last one, and
not copied to itself; it is moved to only if it is not the last one. -/
def Safe (w : TimeServiceEv) : Op → Prop
  | .copyAssign h src => ∀ i, w.handle h = some (some i) → w.Open i → src ≠ h ∧ ¬ w.OwnedBeside h i
  | .moveAssign h _ => ∀ i, w.handle h = some (some i) → w.Open i → w.OwnedBeside h i
  | .destroy h => ∀ i, w.handle h = some (some i) → w.Open i → ¬ w.OwnedBeside h i
  | _ => True

section Handles

variable {w w' : TimeServiceEv} {h k i : Nat} {t v : Option (Option Nat)}

theorem lt_of_handle {t : Option Nat} (live : w.handle h = some t) : h < w.m_handles.length := by
  by_contra outside
  rw [handle, List.getElem?_eq_none (by omega)] at live
  cases live

theorem handle_set {t : Option Nat} (live : w.handle h = some t) (v : Option (Option Nat)) (k : Nat) :
    handle { w with m_handles := w.m_handles.set h v } k = if k = h then v else w.handle k := by
  simp only [handle, List.getElem?_set, lt_of_handle live, if_true]
  by_cases same : k = h
  · simp [same]
  · simp [same, Ne.symm same]

theorem handle_append (v : Option Nat) (k : Nat) :
    handle { w with m_handles := w.m_handles ++ [some v] } k =
      if k = w.m_handles.length then some v else w.handle k := by
  simp only [handle, List.getElem?_append, List.getElem?_singleton]
  by_cases inside : k < w.m_handles.length
  · simp [inside, Nat.ne_of_lt inside]
  · by_cases last : k = w.m_handles.length
    · simp [last]
    · simp only [inside, if_false, last]
      rw [if_neg (by omega), List.getElem?_eq_none (by omega)]

@[simp] theorem stop_handle (w : TimeServiceEv) (t : Option Nat) (k : Nat) : (w.stop t).handle k = w.handle k := by
  cases t <;> rfl

theorem armed_modify (w : TimeServiceEv) (f : TimeWatcher → TimeWatcher) (off : ∀ x, (f x).m_active = false)
    (j i : Nat) : Armed { w with m_watchers := w.m_watchers.modify j f } i ↔ w.Armed i ∧ j ≠ i := by
  simp only [Armed, List.getElem?_modify, Option.map_eq_map, Option.map_eq_some_iff]
  by_cases same : j = i
  · simp [same, off]
  · simp [same]

theorem stop_armed_iff (w : TimeServiceEv) (t : Option Nat) (i : Nat) :
    (w.stop t).Armed i ↔ w.Armed i ∧ t ≠ some i := by
  cases t with
  | none => simp [stop]
  | some j =>
    rw [ne_eq, Option.some.injEq]
    exact armed_modify w _ (fun _ => rfl) j i

theorem stop_open_iff (w : TimeServiceEv) (t : Option Nat) (i : Nat) : (w.stop t).Open i ↔ w.Open i := by
  cases t with
  | none => rfl
  | some j =>
    simp only [Open, stop, List.getElem?_modify, Option.map_eq_map, Option.map_eq_some_iff]
    by_cases same : j = i
    · simp [same]
    · simp [same]

/-- An owner is the handle itself or another one. -/
theorem owned_iff (h : Nat) : w.Owned i ↔ w.handle h = some (some i) ∨ w.OwnedBeside h i := by
  constructor
  · rintro ⟨k, refers⟩
    by_cases same : k = h
    · exact Or.inl (same ▸ refers)
    · exact Or.inr ⟨k, same, refers⟩
  · rintro (refers | ⟨k, _, refers⟩)
    · exact ⟨h, refers⟩
    · exact ⟨k, refers⟩

/-- Ownership, as a test over the handles. -/
theorem owned_iff_mem : w.Owned i ↔ some (some i) ∈ w.m_handles := by
  simp only [Owned, handle, Option.join_eq_some_iff, List.mem_iff_getElem?]

instance (w : TimeServiceEv) (i : Nat) : Decidable (w.Owned i) := decidable_of_iff _ owned_iff_mem.symm

instance (w : TimeServiceEv) (i : Nat) : Decidable (w.Armed i) :=
  decidable_of_iff (∃ x ∈ w.m_watchers[i]?, x.m_active = true) Iff.rfl

instance (w : TimeServiceEv) (i : Nat) : Decidable (w.Open i) :=
  decidable_of_iff (∃ x ∈ w.m_watchers[i]?, x.fired = false ∧ x.cancelled = false) Iff.rfl

theorem owned_set {t : Option Nat} (live : w.handle h = some t) (v : Option (Option Nat)) :
    Owned { w with m_handles := w.m_handles.set h v } i ↔ v = some (some i) ∨ w.OwnedBeside h i := by
  rw [owned_iff h, handle_set live, if_pos rfl]
  refine or_congr_right (exists_congr fun k => and_congr_right fun other => ?_)
  rw [handle_set live, if_neg other]

theorem owned_append (v : Option Nat) :
    Owned { w with m_handles := w.m_handles ++ [some v] } i ↔ v = some i ∨ w.Owned i := by
  simp only [Owned, handle_append]
  constructor
  · rintro ⟨k, refers⟩
    split at refers
    · exact Or.inl (Option.some.inj refers)
    · exact Or.inr ⟨k, refers⟩
  · rintro (same | ⟨k, refers⟩)
    · exact ⟨w.m_handles.length, by rw [if_pos rfl, same]⟩
    · exact ⟨k, by rw [if_neg (Nat.ne_of_lt (lt_of_handle refers)), refers]⟩

/-- After a move the owners are those beside the handle moved to: the source has passed its
reference on. -/
theorem owned_move {src : Nat} {old t : Option Nat} (live : w.handle h = some old) (source : w.handle src = some t) :
    Owned { w with m_handles := (w.m_handles.set h (some t)).set src (some none) } i ↔ w.OwnedBeside h i := by
  have live₁ : handle { w with m_handles := w.m_handles.set h (some t) } src = some t := by
    rw [handle_set live]
    split
    · rfl
    · exact source
  rw [owned_set live₁]
  simp only [OwnedBeside, handle_set live, Option.some.injEq, reduceCtorEq, false_or]
  constructor
  · rintro ⟨k, other, refers⟩
    split at refers
    · rename_i same
      exact ⟨src, fun equal => other (same.trans equal.symm), by rw [source, Option.some.inj refers]⟩
    · rename_i apart
      exact ⟨k, apart, refers⟩
  · rintro ⟨k, apart, refers⟩
    by_cases moved : k = src
    · rw [moved, source] at refers
      exact ⟨h, fun equal => apart (moved.trans equal.symm), by rw [if_pos rfl, refers]⟩
    · exact ⟨k, moved, by rw [if_neg apart, refers]⟩

theorem owned_swap {t u : Option Nat} (first : w.handle h = some t) (second : w.handle k = some u) :
    Owned { w with m_handles := (w.m_handles.set h (some u)).set k (some t) } i ↔ w.Owned i := by
  have second₁ : handle { w with m_handles := w.m_handles.set h (some u) } k = some u := by
    rw [handle_set first]
    split
    · rfl
    · exact second
  rw [owned_set second₁]
  simp only [OwnedBeside, handle_set first, Option.some.injEq]
  constructor
  · rintro (same | ⟨j, other, refers⟩)
    · exact ⟨h, by rw [first, same]⟩
    · split at refers
      · exact ⟨k, by rw [second, Option.some.inj refers]⟩
      · exact ⟨j, refers⟩
  · rintro ⟨j, refers⟩
    by_cases atH : j = h
    · left
      rw [atH, first] at refers
      exact Option.some.inj refers
    · by_cases atK : j = k
      · rw [atK, second] at refers
        by_cases same : h = k
        · exact absurd (atK.trans same.symm) atH
        · exact Or.inr ⟨h, same, by rw [if_pos rfl, Option.some.inj refers]⟩
      · exact Or.inr ⟨j, atK, by rw [if_neg atH, refers]⟩

end Handles

section Steps

variable {w w' : TimeServiceEv}

theorem open_modify (w : TimeServiceEv) (f : TimeWatcher → TimeWatcher)
    (ended : ∀ x, (f x).fired = true ∨ (f x).cancelled = true) (j i : Nat) :
    Open { w with m_watchers := w.m_watchers.modify j f } i ↔ w.Open i ∧ j ≠ i := by
  simp only [Open, List.getElem?_modify, Option.map_eq_map, Option.map_eq_some_iff]
  by_cases same : j = i
  · simp only [same, if_true, ne_eq, not_true_eq_false, and_false, iff_false]
    rintro ⟨_, ⟨x, _, rfl⟩, unfired, uncancelled⟩
    rcases ended x with fired | cancelled
    · rw [unfired] at fired
      cases fired
    · rw [uncancelled] at cancelled
      cases cancelled
  · simp [same]

/-- Steps that leave the watchers and the owners alone. -/
theorem ArmedWhileOwned.congr (before : w.ArmedWhileOwned) (watchers : w'.m_watchers = w.m_watchers)
    (owned : ∀ i, w'.Owned i ↔ w.Owned i) : w'.ArmedWhileOwned := by
  intro i isOpen
  rw [Open, watchers] at isOpen
  rw [Armed, watchers, owned]
  exact before i isOpen

theorem getElem?_makeTimeout (w : TimeServiceEv) (timespan : ℚ) (i : Nat) :
    (w.makeTimeout timespan).m_watchers[i]? =
      if i = w.m_watchers.length then some ⟨w.now + timespan, true, true, false, false⟩ else w.m_watchers[i]? := by
  simp only [makeTimeout, List.getElem?_append, List.getElem?_singleton]
  by_cases inside : i < w.m_watchers.length
  · rw [if_pos inside, if_neg (Nat.ne_of_lt inside)]
  · by_cases new : i = w.m_watchers.length
    · simp [new]
    · rw [if_neg inside, if_neg new, if_neg (by omega), List.getElem?_eq_none (by omega)]

theorem armed_makeTimeout (w : TimeServiceEv) (timespan : ℚ) (i : Nat) :
    (w.makeTimeout timespan).Armed i ↔ i = w.m_watchers.length ∨ w.Armed i := by
  rw [Armed, getElem?_makeTimeout]
  by_cases new : i = w.m_watchers.length
  · simp [new]
  · simp [new, Armed]

theorem makeTimeout_armedWhileOwned (before : w.ArmedWhileOwned) (timespan : ℚ) :
    (w.makeTimeout timespan).ArmedWhileOwned := by
  intro i isOpen
  have owned : (w.makeTimeout timespan).Owned i ↔ some w.m_watchers.length = some i ∨ w.Owned i := owned_append _
  rw [armed_makeTimeout, owned, Option.some.injEq]
  by_cases new : i = w.m_watchers.length
  · simp [new]
  · rw [Open, getElem?_makeTimeout, if_neg new] at isOpen
    simp only [new, Ne.symm new, false_or]
    exact before i isOpen

/-- The watcher `j` is over and done with, and nobody else loses an owner. -/
theorem ArmedWhileOwned.ended {j : Nat} (before : w.ArmedWhileOwned) (armed : ∀ i, w'.Armed i ↔ w.Armed i ∧ j ≠ i)
    (opened : ∀ i, w'.Open i ↔ w.Open i ∧ j ≠ i) (owned : ∀ i, j ≠ i → (w'.Owned i ↔ w.Owned i)) :
    w'.ArmedWhileOwned := by
  intro i isOpen
  obtain ⟨isOpen, other⟩ := (opened i).mp isOpen
  rw [armed, owned i other, before i isOpen]
  exact and_iff_left other

theorem destroy_iff {h : Nat} {t : Option Nat} (before : w.ArmedWhileOwned) (live : w.handle h = some t) :
    (stop { w with m_handles := w.m_handles.set h none } t).ArmedWhileOwned ↔ w.Safe (.destroy h) := by
  have owned : ∀ i, (stop { w with m_handles := w.m_handles.set h none } t).Owned i ↔ w.OwnedBeside h i := by
    intro i
    have left := owned_set (i := i) live none
    simpa [Owned] using left
  constructor
  · intro after i refers isOpen beside
    rw [live] at refers
    have armed := (after i ((stop_open_iff _ t i).mpr isOpen)).mpr ((owned i).mpr beside)
    exact ((stop_armed_iff _ t i).mp armed).2 (Option.some.inj refers)
  · intro safe i isOpen
    rw [stop_open_iff] at isOpen
    rw [stop_armed_iff, owned]
    have was := before i isOpen
    rw [owned_iff h, live] at was
    by_cases mine : t = some i
    · simp only [mine, ne_eq, not_true_eq_false, and_false, false_iff]
      exact safe i (by rw [live, mine]) isOpen
    · simp only [Option.some.injEq, mine, false_or] at was
      simp only [ne_eq, mine, not_false_eq_true, and_true]
      exact was

theorem copyAssign_iff {h src : Nat} {old t : Option Nat} (before : w.ArmedWhileOwned) (live : w.handle h = some old)
    (source : w.handle src = some t) :
    (stop { w with m_handles := w.m_handles.set h (some t) } old).ArmedWhileOwned ↔ w.Safe (.copyAssign h src) := by
  have owned : ∀ i, (stop { w with m_handles := w.m_handles.set h (some t) } old).Owned i ↔
      t = some i ∨ w.OwnedBeside h i := by
    intro i
    have left := owned_set (i := i) live (some t)
    simpa [Owned] using left
  constructor
  · intro after i refers isOpen
    rw [live] at refers
    have unowned : ¬ (t = some i ∨ w.OwnedBeside h i) := by
      intro still
      have armed := (after i ((stop_open_iff _ old i).mpr isOpen)).mpr ((owned i).mpr still)
      exact ((stop_armed_iff _ old i).mp armed).2 (Option.some.inj refers)
    refine ⟨?_, fun beside => unowned (Or.inr beside)⟩
    rintro rfl
    rw [live] at source
    exact unowned (Or.inl ((Option.some.inj source).symm.trans (Option.some.inj refers)))
  · intro safe i isOpen
    rw [stop_open_iff] at isOpen
    rw [stop_armed_iff, owned]
    have was := before i isOpen
    rw [owned_iff h, live] at was
    by_cases mine : old = some i
    · obtain ⟨other, last⟩ := safe i (by rw [live, mine]) isOpen
      simp only [mine, ne_eq, not_true_eq_false, and_false, false_iff]
      rintro (copied | beside)
      · exact last ⟨src, other, by rw [source, copied]⟩
      · exact last beside
    · simp only [Option.some.injEq, mine, false_or] at was
      simp only [ne_eq, mine, not_false_eq_true, and_true]
      change w.Armed i ↔ _
      rw [was]
      refine ⟨Or.inr, ?_⟩
      rintro (copied | beside)
      · refine ⟨src, ?_, by rw [source, copied]⟩
        rintro rfl
        rw [live] at source
        exact mine ((Option.some.inj source).trans copied)
      · exact beside

theorem moveAssign_iff {h src : Nat} {old t : Option Nat} (before : w.ArmedWhileOwned) (live : w.handle h = some old)
    (source : w.handle src = some t) :
    ArmedWhileOwned { w with m_handles := (w.m_handles.set h (some t)).set src (some none) } ↔
      w.Safe (.moveAssign h src) := by
  constructor
  · intro after i refers isOpen
    have armed : w.Armed i := (before i isOpen).mpr ⟨h, refers⟩
    exact (owned_move live source).mp ((after i isOpen).mp armed)
  · intro safe i isOpen
    rw [owned_move live source]
    have was : w.Armed i ↔ w.Owned i := before i isOpen
    change w.Armed i ↔ _
    rw [was, owned_iff h]
    constructor
    · rintro (refers | beside)
      · exact safe i refers isOpen
      · exact beside
    · exact Or.inr

/-- From a state in which the timeouts are armed just while they are owned, a step leads to
another such state if and only if it is safe. -/
theorem step_iff (before : w.ArmedWhileOwned) {op : Op} (run : w.step op = some w') :
    w'.ArmedWhileOwned ↔ w.Safe op := by
  cases step_moves run with
  | null =>
    refine iff_of_true (before.congr rfl fun i => ?_) trivial
    rw [owned_append]
    simp
  | makeTimeout => exact iff_of_true (makeTimeout_armedWhileOwned before _) trivial
  | makeTimeoutAbs => exact iff_of_true (makeTimeout_armedWhileOwned before _) trivial
  | @copy h t live =>
    refine iff_of_true (before.congr rfl fun i => ?_) trivial
    rw [owned_append, or_iff_right_iff_imp]
    rintro rfl
    exact ⟨h, live⟩
  | copyAssign live source => exact copyAssign_iff before live source
  | moveAssign live source => exact moveAssign_iff before live source
  | swap first second => exact iff_of_true (before.congr rfl fun i => owned_swap first second) trivial
  | cancelNull => exact iff_of_true before trivial
  | @cancel h j live =>
    refine iff_of_true (before.ended (armed_modify w _ (fun _ => rfl) j) (open_modify w _ (fun _ => Or.inr rfl) j) ?_)
      trivial
    intro i other
    have was : w.Owned i ↔ w.OwnedBeside h i := by
      rw [owned_iff h, live]
      simp [other]
    change Owned { w with m_handles := w.m_handles.set h (some none) } i ↔ _
    rw [was, owned_set live]
    simp
  | destroy live => exact destroy_iff before live
  | clock => exact iff_of_true (before.congr rfl fun i => Iff.rfl) trivial
  | @cb j =>
    exact iff_of_true (before.ended (armed_modify w _ (fun _ => rfl) j) (open_modify w _ (fun _ => Or.inl rfl) j)
      fun _ _ => Iff.rfl) trivial

/-- A timeout that is running holds itself, so that it is there when its time comes, whatever
has become of its handles. -/
def HeldWhileRunning (w : TimeServiceEv) : Prop := ∀ x ∈ w.m_watchers, x.m_active = true → x.m_tw = true

theorem heldWhileRunning_modify (before : w.HeldWhileRunning) (f : TimeWatcher → TimeWatcher)
    (off : ∀ x, (f x).m_active = false) (j : Nat) :
    HeldWhileRunning { w with m_watchers := w.m_watchers.modify j f } := by
  intro x member running
  obtain ⟨i, found⟩ := List.mem_iff_getElem?.mp member
  simp only [List.getElem?_modify, Option.map_eq_map, Option.map_eq_some_iff] at found
  obtain ⟨y, there, rfl⟩ := found
  by_cases same : j = i
  · simp only [same, if_true, off, Bool.false_eq_true] at running
  · simp only [same, if_false] at running ⊢
    exact before y (List.mem_of_getElem? there) running

theorem heldWhileRunning_stop (before : w.HeldWhileRunning) (t : Option Nat) : (w.stop t).HeldWhileRunning := by
  cases t with
  | none => exact before
  | some j => exact heldWhileRunning_modify before _ (fun _ => rfl) j

theorem heldWhileRunning_makeTimeout (before : w.HeldWhileRunning) (timespan : ℚ) :
    (w.makeTimeout timespan).HeldWhileRunning := by
  intro x member running
  rcases List.mem_append.mp member with old | new
  · exact before x old running
  · rw [List.mem_singleton.mp new]

theorem step_heldWhileRunning (before : w.HeldWhileRunning) {op : Op} (run : w.step op = some w') :
    w'.HeldWhileRunning := by
  cases step_moves run with
  | makeTimeout => exact heldWhileRunning_makeTimeout before _
  | makeTimeoutAbs => exact heldWhileRunning_makeTimeout before _
  | copyAssign =>
    refine heldWhileRunning_stop ?_ _
    exact before
  | destroy =>
    refine heldWhileRunning_stop ?_ _
    exact before
  | cancel => exact heldWhileRunning_modify before _ (fun _ => rfl) _
  | cb => exact heldWhileRunning_modify before _ (fun _ => rfl) _
  | _ => exact before

end Steps

section Runs

variable {now : ℚ} {w : TimeServiceEv} {ops : List Op}

theorem start_armedWhileOwned (now : ℚ) : (start now).ArmedWhileOwned := by
  rintro i ⟨x, there, _⟩
  cases there

theorem run_heldWhileRunning (run : LabelledReach.follow step (start now) ops = some w) : w.HeldWhileRunning := by
  refine LabelledReach.follow_invariant ?_ (fun before taken => step_heldWhileRunning before taken) run
  intro x member
  cases member

/-- Whatever a program does with its handles: every timeout is armed just while it is owned,
until it has fired or is cancelled, if and only if no handle to an open timeout is destroyed
or overwritten unsafely. -/
theorem armed_while_owned_iff (now : ℚ) (ops : List Op) :
    (∀ before, before <+: ops → ∀ w, LabelledReach.follow step (start now) before = some w →
      ∀ i, w.Open i → (w.Armed i ↔ w.Owned i)) ↔
    ∀ before op, before ++ [op] <+: ops → ∀ w w', LabelledReach.follow step (start now) before = some w →
      w.step op = some w' → w.Safe op :=
  LabelledReach.follow_forall_iff (start_armedWhileOwned now) fun before taken => step_iff before taken

/-- Destroying a copy disarms the timeout its owner still waits for, and a timeout that is
moved over goes off although nobody owns it. -/
theorem copy_destroyed_and_moved_over :
    (∃ w, LabelledReach.follow step (start 0) [.makeTimeout 1, .copy 0, .destroy 1] = some w ∧
      w.Open 0 ∧ w.Owned 0 ∧ ¬ w.Armed 0) ∧
    ∃ w w', LabelledReach.follow step (start 0) [.makeTimeout 1, .makeTimeout 2, .moveAssign 0 1] = some w ∧
      w.Open 0 ∧ w.Armed 0 ∧ ¬ w.Owned 0 ∧
      LabelledReach.follow step w [.clock 1, .cb 0] = some w' ∧ ¬ w'.Open 0 := by
  refine ⟨⟨⟨0, [⟨1, false, true, false, false⟩], [some (some 0), none]⟩, ?_⟩,
    ⟨0, [⟨1, true, true, false, false⟩, ⟨2, true, true, false, false⟩], [some (some 1), some none]⟩,
    ⟨1, [⟨1, false, false, true, false⟩, ⟨2, true, true, false, false⟩], [some (some 1), some none]⟩, ?_⟩
  · decide +kernel
  · decide +kernel

end Runs

/-! A handle that is only assigned to, cancelled and left to expire, as the master's is -/

/-- The timer that a program sees through one of its handles. -/
structure Shows (w : TimeServiceEv) (h : Nat) (t : Timer Nat) : Prop where
  live : ∃ p, w.handle h = some p ∧ ∀ i, t.m_timer = some i ↔ p = some i ∧ w.Armed i
  pending : ∀ i, i ∈ t.pending ↔ w.Armed i
  nodup : t.pending.Nodup

section Shows

variable {w w' : TimeServiceEv} {h : Nat} {t : Timer Nat}

theorem not_armed_length (w : TimeServiceEv) : ¬ w.Armed w.m_watchers.length := by
  rintro ⟨x, there, _⟩
  rw [List.getElem?_eq_none (Nat.le_refl _)] at there
  cases there

theorem mem_pending {i : Nat} : i ∈ t.pending ↔ t.m_timer = some i ∨ i ∈ t.dropped := by
  rw [Timer.pending, List.mem_append, Option.mem_toList]

theorem Shows.mem_dropped (shows_ : w.Shows h t) {i : Nat} : i ∈ t.dropped ↔ w.Armed i ∧ t.m_timer ≠ some i := by
  rw [← shows_.pending, mem_pending]
  constructor
  · intro dropped
    refine ⟨Or.inr dropped, fun handled => ?_⟩
    have apart := List.disjoint_of_nodup_append shows_.nodup
    exact apart (Option.mem_toList.mpr handled) dropped
  · rintro ⟨handled | dropped, other⟩
    · exact absurd handled other
    · exact dropped

theorem Shows.nodup_dropped (shows_ : w.Shows h t) : t.dropped.Nodup := (List.nodup_append.mp shows_.nodup).2.1

/-- A new timeout is moved to the handle, and what is left of the temporary is destroyed. The
timeout that was there before stays armed. -/
theorem Shows.assign (shows_ : w.Shows h t) {timespan : ℚ}
    (run : LabelledReach.follow step w [.makeTimeout timespan, .moveAssign h w.m_handles.length,
      .destroy w.m_handles.length] = some w') : w'.Shows h (t.assign w.m_watchers.length) := by
  obtain ⟨p, live, _⟩ := shows_.live
  have apart : h ≠ w.m_handles.length := Nat.ne_of_lt (lt_of_handle live)
  obtain ⟨w₁, made, run⟩ := Option.bind_eq_some_iff.mp run
  obtain ⟨w₂, moved, run⟩ := Option.bind_eq_some_iff.mp run
  obtain ⟨w₃, dropped, run⟩ := Option.bind_eq_some_iff.mp run
  cases Option.some.inj run
  cases Option.some.inj made
  cases step_moves moved with
  | moveAssign live₁ source =>
    have temporary : (w.makeTimeout timespan).handle w.m_handles.length = some (some w.m_watchers.length) :=
      (handle_append _ _).trans (if_pos rfl)
    cases temporary.symm.trans source
    have taken := handle_set live₁ (some (some w.m_watchers.length))
    have source₁ := (taken w.m_handles.length).trans ((if_neg apart.symm).trans source)
    have passed := handle_set source₁ (some none)
    cases step_moves dropped with
    | destroy live₂ =>
      cases live₂.symm.trans ((passed w.m_handles.length).trans (if_pos rfl))
      have holds := (handle_set live₂ none h).trans
        ((if_neg apart).trans ((passed h).trans ((if_neg apart).trans ((taken h).trans (if_pos rfl)))))
      refine ⟨⟨some w.m_watchers.length, holds, ?_⟩, ?_, ?_⟩
      · intro i
        change some w.m_watchers.length = some i ↔
          some w.m_watchers.length = some i ∧ (w.makeTimeout timespan).Armed i
        rw [armed_makeTimeout, Option.some.injEq]
        exact ⟨fun new => ⟨new, Or.inl new.symm⟩, fun both => both.1⟩
      · intro i
        change i ∈ w.m_watchers.length :: t.pending ↔ (w.makeTimeout timespan).Armed i
        rw [List.mem_cons, shows_.pending, armed_makeTimeout]
      · change (w.m_watchers.length :: t.pending).Nodup
        rw [List.nodup_cons, shows_.pending]
        exact ⟨not_armed_length w, shows_.nodup⟩

theorem Shows.cancel (shows_ : w.Shows h t) (run : w.step (.cancel h) = some w') : w'.Shows h t.cancel := by
  obtain ⟨p, live, same⟩ := shows_.live
  cases step_moves run with
  | cancelNull null =>
    cases live.symm.trans null
    have unset : t.cancel = t := by
      cases timer : t.m_timer with
      | none => rw [Timer.cancel, ← timer]
      | some i => cases ((same i).mp timer).1
    rw [unset]
    exact shows_
  | @cancel _ j set =>
    cases live.symm.trans set
    refine ⟨⟨none, (handle_set live (some none) h).trans (if_pos rfl), ?_⟩, ?_, shows_.nodup_dropped⟩
    · intro i
      simp [Timer.cancel]
    · intro i
      refine Iff.trans ?_ (armed_modify w _ (fun _ => rfl) j i).symm
      change i ∈ t.dropped ↔ _
      rw [shows_.mem_dropped, ne_eq, same, Option.some.injEq]
      tauto

theorem Shows.expire (shows_ : w.Shows h t) {j : Nat} (run : w.step (.cb j) = some w') :
    w'.Shows h (t.expire j) := by
  obtain ⟨p, live, same⟩ := shows_.live
  have armed : ∀ i, w'.Armed i ↔ w.Armed i ∧ j ≠ i := by
    cases step_moves run with
    | cb => exact armed_modify w _ (fun _ => rfl) j
  have live : w'.handle h = some p := by
    cases step_moves run with
    | cb => exact live
  rw [Timer.expire]
  split
  · rename_i handled
    have mine := ((same j).mp handled).1
    refine ⟨⟨p, live, ?_⟩, ?_, shows_.nodup_dropped⟩
    · intro i
      rw [armed, mine]
      simp only [reduceCtorEq, Option.some.injEq, false_iff]
      tauto
    · intro i
      rw [armed]
      change i ∈ t.dropped ↔ _
      rw [shows_.mem_dropped, handled, ne_eq, Option.some.injEq]
  · rename_i unhandled
    refine ⟨⟨p, live, ?_⟩, ?_, ?_⟩
    · intro i
      rw [armed, same i]
      constructor
      · rintro ⟨mine, running⟩
        refine ⟨mine, running, ?_⟩
        rintro rfl
        exact unhandled ((same j).mpr ⟨mine, running⟩)
      · rintro ⟨mine, running, _⟩
        exact ⟨mine, running⟩
    · intro i
      rw [armed, mem_pending, shows_.nodup_dropped.mem_erase_iff, shows_.mem_dropped]
      constructor
      · rintro (handled | ⟨other, running, _⟩)
        · refine ⟨((same i).mp handled).2, ?_⟩
          rintro rfl
          exact unhandled handled
        · exact ⟨running, Ne.symm other⟩
      · rintro ⟨running, other⟩
        by_cases handled : t.m_timer = some i
        · exact Or.inl handled
        · exact Or.inr ⟨Ne.symm other, running, handled⟩
    · exact shows_.nodup.sublist ((List.erase_sublist).append_left _)

/-- What a program with a single handle does, and what the event loop does meanwhile. -/
inductive Use (h : Nat) : TimeServiceEv × Timer Nat → TimeServiceEv × Timer Nat → Prop
  | assign {w w' : TimeServiceEv} {t : Timer Nat} {timespan : ℚ} :
      LabelledReach.follow step w [.makeTimeout timespan, .moveAssign h w.m_handles.length,
        .destroy w.m_handles.length] = some w' → Use h (w, t) (w', t.assign w.m_watchers.length)
  | cancel {w w' : TimeServiceEv} {t : Timer Nat} : w.step (.cancel h) = some w' → Use h (w, t) (w', t.cancel)
  | expire {w w' : TimeServiceEv} {t : Timer Nat} {j : Nat} :
      w.step (.cb j) = some w' → Use h (w, t) (w', t.expire j)
  | clock {w w' : TimeServiceEv} {t : Timer Nat} {now : ℚ} : w.step (.clock now) = some w' → Use h (w, t) (w', t)

theorem Shows.use {s s' : TimeServiceEv × Timer Nat} (shows_ : s.1.Shows h s.2) (used : Use h s s') :
    s'.1.Shows h s'.2 := by
  cases used with
  | assign run => exact shows_.assign run
  | cancel run => exact shows_.cancel run
  | expire run => exact shows_.expire run
  | clock run =>
    cases step_moves run with
    | clock => exact ⟨shows_.live, shows_.pending, shows_.nodup⟩

/-- The timer that the master's states work on shows what becomes of its handle: the
timeouts that may still fire are those the event loop has armed, in every run. -/
theorem pending_iff_armed {now : ℚ} {s : TimeServiceEv × Timer Nat}
    (run : Relation.ReflTransGen (Use 0) (⟨now, [], [some none]⟩, Timer.unset) s) (i : Nat) :
    i ∈ s.2.pending ↔ s.1.Armed i := by
  have shows_ : s.1.Shows 0 s.2 := by
    induction run with
    | refl =>
      refine ⟨⟨none, rfl, ?_⟩, ?_, List.nodup_nil⟩
      · intro i
        simp [Timer.unset]
      · intro i
        simp [Timer.pending, Timer.unset, Armed]
    | tail _ used ih => exact ih.use used
  exact shows_.pending i

end Shows

end TimeServiceEv

end SerialNet
