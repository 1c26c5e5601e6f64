import SerialNet.StateChart.Trace

namespace SerialNet

namespace StateChart

variable {σ Event α β : Type}

/-- From `m` to `m'` the entries `new` are seen. Events are only posted, and not at all when
none is being processed. -/
structure Extends (m : FsmBase σ Event) (new : List (Entry Event)) (m' : FsmBase σ Event) : Prop where
  setup : m'.m_setup = m.m_setup
  trace : m'.m_trace = m.m_trace ++ new
  next : m'.m_nextState = (requests new).getLastD m.m_nextState
  queue : m'.m_eventQueue = (posts new).foldl VecQueue.push m.m_eventQueue
  quiet : m.m_eventQueue.empty = true → posts new = []
  legal : Legal m → Legal m'

namespace Extends

variable {m m' m'' : FsmBase σ Event} {new new' : List (Entry Event)}

theorem refl (m : FsmBase σ Event) : Extends m [] m :=
  ⟨rfl, (List.append_nil _).symm, rfl, rfl, fun _ => rfl, id⟩

theorem empty (extend : Extends m new m') : m'.m_eventQueue.empty = m.m_eventQueue.empty := by
  cases busy : m.m_eventQueue.empty with
  | true => rw [extend.queue, extend.quiet busy, List.foldl_nil, busy]
  | false =>
    rw [extend.queue]
    have pushed : ∀ (evs : List Event) (q : VecQueue Event), q.empty = false →
        (evs.foldl VecQueue.push q).empty = false := by
      intro evs
      induction evs with
      | nil => exact fun _ some => some
      | cons ev evs ih => exact fun q _ => ih (q.push ev) (q.empty_push ev)
    exact pushed _ _ busy

theorem trans (first : Extends m new m') (second : Extends m' new' m'') : Extends m (new ++ new') m'' := by
  refine ⟨second.setup.trans first.setup, ?_, ?_, ?_, ?_, fun legal => second.legal (first.legal legal)⟩
  · rw [second.trace, first.trace, List.append_assoc]
  · rw [second.next, first.next, requests_append, List.getLastD_eq_getLast?, List.getLastD_eq_getLast?,
      List.getLastD_eq_getLast?, List.getLast?_append, Option.getD_or]
  · rw [second.queue, first.queue, posts_append, List.foldl_append]
  · intro quiet
    rw [posts_append, first.quiet quiet, second.quiet (first.empty.trans quiet)]
    rfl

/-- The event at the front stays there. -/
theorem toList (extend : Extends m new m') :
    m'.m_eventQueue.toList = m.m_eventQueue.toList ++ posts new := by
  rw [extend.queue]
  generalize posts new = evs
  generalize m.m_eventQueue = q
  induction evs generalizing q with
  | nil => exact (List.append_nil _).symm
  | cons ev evs ih => rw [List.foldl_cons, ih, VecQueue.toList_push, List.append_assoc, List.singleton_append]

/-- The state asked for last. -/
theorem told (extend : Extends m new m') (told : (requests m.m_trace).getLast? = some m.m_nextState) :
    (requests m'.m_trace).getLast? = some m'.m_nextState := by
  rw [extend.trace, extend.next, requests_append, List.getLast?_append, told, List.getLastD_eq_getLast?]
  cases (requests new).getLast? with
  | none => rfl
  | some id => rfl

end Extends

/-- A machine stops when its rounds are used up, or when an event is posted while none is
being processed. -/
structure Stops (m : FsmBase σ Event) (fault : Fault) (m' : FsmBase σ Event) : Prop where
  setup : m'.m_setup = m.m_setup
  legal : Legal m → Legal m'
  reason : ∃ new, m'.m_trace = m.m_trace ++ new ∧
    (fault = .outOfFuel ∧ (m.m_eventQueue.empty = true → posts new = []) ∨
      fault = .nullState ∧ m.m_eventQueue.empty = true ∧ posts new ≠ [])

theorem Stops.of_extends {m m' m'' : FsmBase σ Event} {new : List (Entry Event)} {fault : Fault}
    (extend : Extends m new m') (stops : Stops m' fault m'') : Stops m fault m'' := by
  obtain ⟨setup, legal, later, trace, reason⟩ := stops
  refine ⟨setup.trans extend.setup, fun before => legal (extend.legal before), new ++ later, ?_, ?_⟩
  · rw [trace, extend.trace, List.append_assoc]
  · rcases reason with ⟨fuel, quiet⟩ | ⟨null, idle, posted⟩
    · refine Or.inl ⟨fuel, fun idle => ?_⟩
      rw [posts_append, extend.quiet idle, quiet (extend.empty.trans idle)]
      rfl
    · refine Or.inr ⟨null, extend.empty.symm.trans idle, ?_⟩
      rw [posts_append]
      exact List.append_ne_nil_of_right_ne_nil _ posted

/-- From `m` the program ends with `Q`, or stops for one of these reasons. -/
def Runs (x : Exec σ Event α) (m : FsmBase σ Event) (Q : α → List (Entry Event) → FsmBase σ Event → Prop) : Prop :=
  EStateM.Wp x (fun a m' => ∃ new, Extends m new m' ∧ Q a new m') (Stops m) m

namespace Runs

variable {m m' : FsmBase σ Event} {x : Exec σ Event α} {f : α → Exec σ Event β}
  {Q : α → List (Entry Event) → FsmBase σ Event → Prop} {R : β → List (Entry Event) → FsmBase σ Event → Prop}

theorem bind (first : Runs x m Q)
    (second : ∀ a new m', Extends m new m' → Q a new m' → Runs (f a) m' fun c later => R c (new ++ later)) :
    Runs (x >>= f) m R := by
  refine EStateM.Wp.bind_iff.mpr (EStateM.Wp.mono first ?_ fun _ _ stops => stops)
  rintro a m' ⟨new, extend, holds⟩
  refine EStateM.Wp.mono (second a new m' extend holds) ?_ fun _ _ stops => stops.of_extends extend
  rintro c m'' ⟨later, extend', holds'⟩
  exact ⟨new ++ later, extend.trans extend', holds'⟩

theorem mono {Q' : α → List (Entry Event) → FsmBase σ Event → Prop} (runs : Runs x m Q)
    (weaker : ∀ a new m', Extends m new m' → Q a new m' → Q' a new m') : Runs x m Q' := by
  refine EStateM.Wp.mono runs ?_ fun _ _ stops => stops
  rintro a m' ⟨new, extend, holds⟩
  exact ⟨new, extend, weaker a new m' extend holds⟩

theorem pure {a : α} (holds : Q a [] m) : Runs (pure a) m Q := ⟨[], .refl m, holds⟩

theorem get_bind {f : FsmBase σ Event → Exec σ Event β} (runs : Runs (f m) m R) : Runs (get >>= f) m R := runs

theorem set {Q : PUnit → List (Entry Event) → FsmBase σ Event → Prop} {new : List (Entry Event)}
    (extend : Extends m new m') (holds : Q .unit new m') : Runs (set m') m Q := ⟨new, extend, holds⟩

theorem set_bind {f : PUnit → Exec σ Event β} {new : List (Entry Event)} (extend : Extends m new m')
    (runs : Runs (f .unit) m' fun c later => R c (new ++ later)) : Runs (MonadStateOf.set m' >>= f) m R :=
  .bind (Q := fun _ seen t => seen = new ∧ t = m') (.set extend ⟨rfl, rfl⟩) (by
    rintro _ _ _ _ ⟨rfl, rfl⟩
    exact runs)

theorem modify_bind {g : FsmBase σ Event → FsmBase σ Event} {f : PUnit → Exec σ Event β} {new : List (Entry Event)}
    (extend : Extends m new (g m)) (runs : Runs (f .unit) (g m) fun c later => R c (new ++ later)) :
    Runs (modify g >>= f) m R := set_bind extend runs

theorem modify {Q : PUnit → List (Entry Event) → FsmBase σ Event → Prop} {new : List (Entry Event)}
    {g : FsmBase σ Event → FsmBase σ Event} (extend : Extends m new (g m)) (holds : Q .unit new (g m)) :
    Runs (modify g) m Q := ⟨new, extend, holds⟩

theorem of_ok {a : α} {new : List (Entry Event)} (run : x m = .ok a m') (extend : Extends m new m')
    (holds : Q a new m') : Runs x m Q := by
  unfold Runs EStateM.Wp
  rw [run]
  exact ⟨new, extend, holds⟩

theorem of_error {fault : Fault} (run : x m = .error fault m') (stops : Stops m fault m') : Runs x m Q := by
  unfold Runs EStateM.Wp
  rw [run]
  exact stops

theorem outOfFuel : Runs (throw .outOfFuel) m Q :=
  ⟨rfl, id, [], (List.append_nil _).symm, Or.inl ⟨rfl, fun _ => rfl⟩⟩

end Runs

/-! The user's code -/

/-- The level in front has no state object: its state is being constructed or destroyed. -/
def Exposed (m : FsmBase σ Event) : Prop :=
  ∃ level frame, m.m_currentInfos.length = level + 1 ∧ m.m_stackFrames[level]? = some frame ∧
    frame.m_activeState = none

/-- While an event is processed, another one is only queued. -/
def Queues (post : Event → Exec σ Event Unit) : Prop :=
  ∀ (m : FsmBase σ Event) (ev : Event), m.m_eventQueue.empty = false → post ev m = .ok () (m.push ev)

/-- Otherwise it is emitted at once, to a state that is not there. -/
def Emits (post : Event → Exec σ Event Unit) : Prop :=
  ∀ (m : FsmBase σ Event) (ev : Event), m.m_eventQueue.empty = true → Exposed m →
    ∃ m', post ev m = .error .nullState m' ∧ m'.m_setup = m.m_setup ∧
      m'.m_trace = m.m_trace ++ [.posted ev, .begins ev]

structure Hosts (post : Event → Exec σ Event Unit) (m : FsmBase σ Event) : Prop where
  busy : m.m_eventQueue.empty = false → Queues post
  idle : m.m_eventQueue.empty = true → Emits post

theorem Hosts.of_extends {post : Event → Exec σ Event Unit} {m m' : FsmBase σ Event} {new : List (Entry Event)}
    (hosts : Hosts post m) (extend : Extends m new m') : Hosts post m' :=
  ⟨fun busy => hosts.busy (extend.empty.symm.trans busy), fun idle => hosts.idle (extend.empty.symm.trans idle)⟩

/-- The user's code leaves the states alone. -/
structure SameLevels (m m' : FsmBase σ Event) : Prop where
  frames : m'.m_stackFrames = m.m_stackFrames
  current : m'.m_currentInfos = m.m_currentInfos
  next : m'.m_nextInfos = m.m_nextInfos

theorem SameLevels.refl (m : FsmBase σ Event) : SameLevels m m := ⟨rfl, rfl, rfl⟩

theorem SameLevels.trans {m m' m'' : FsmBase σ Event} (first : SameLevels m m') (second : SameLevels m' m'') :
    SameLevels m m'' :=
  ⟨second.frames.trans first.frames, second.current.trans first.current, second.next.trans first.next⟩

theorem Exposed.of_same {m m' : FsmBase σ Event} (exposed : Exposed m) (same : SameLevels m m') : Exposed m' := by
  obtain ⟨level, frame, length, atLevel, none⟩ := exposed
  exact ⟨level, frame, by rw [same.current, length], by rw [same.frames, atLevel], none⟩

/-- A state that has been asked for is not forgotten. -/
def Remembers (m m' : FsmBase σ Event) : Prop :=
  m'.m_stateUpdate = false → m.m_stateUpdate = false ∧ m'.m_nextState = m.m_nextState

theorem Remembers.refl (m : FsmBase σ Event) : Remembers m m := fun none => ⟨none, rfl⟩

theorem Remembers.trans {m m' m'' : FsmBase σ Event} (first : Remembers m m') (second : Remembers m' m'') :
    Remembers m m'' := by
  intro none
  obtain ⟨none', same'⟩ := second none
  obtain ⟨none'', same''⟩ := first none'
  exact ⟨none'', same'.trans same''⟩

/-- What the user's code does, between two visible entries. -/
structure Acts (m : FsmBase σ Event) (new : List (Entry Event)) (m' : FsmBase σ Event) : Prop where
  hidden : ∀ entry ∈ new, visible entry = false
  same : SameLevels m m'
  remembers : Remembers m m'

theorem Acts.filter_visible {m m' : FsmBase σ Event} {new : List (Entry Event)} (acts : Acts m new m') :
    new.filter visible = [] := by
  rw [List.filter_eq_nil_iff]
  intro entry member
  rw [acts.hidden entry member]
  decide

theorem Acts.trans {m m' m'' : FsmBase σ Event} {new new' : List (Entry Event)} (first : Acts m new m')
    (second : Acts m' new' m'') : Acts m (new ++ new') m'' := by
  refine ⟨?_, first.same.trans second.same, first.remembers.trans second.remembers⟩
  intro entry member
  rcases List.mem_append.mp member with early | late
  · exact first.hidden entry early
  · exact second.hidden entry late

theorem Extends.user (m : FsmBase σ Event) (user : σ) :
    Extends m [] { m with m_user := user } ∧ Acts m [] { m with m_user := user } :=
  ⟨⟨rfl, (List.append_nil _).symm, rfl, rfl, fun _ => rfl, id⟩, by simp, ⟨rfl, rfl, rfl⟩, .refl m⟩

theorem Extends.transition (m : FsmBase σ Event) (id : Int) : Extends m [.requested id] (m.transition id) :=
  ⟨rfl, rfl, rfl, rfl, fun _ => rfl, fun legal => legal.concat trivial⟩

theorem Extends.push {m : FsmBase σ Event} (busy : m.m_eventQueue.empty = false) (ev : Event) :
    Extends m [.posted ev] (m.push ev) :=
  ⟨rfl, rfl, rfl, rfl, fun idle => absurd (busy.symm.trans idle) (by decide), fun legal => legal.concat trivial⟩

theorem Program.runs {post : Event → Exec σ Event Unit} (p : Program σ Event α) {m : FsmBase σ Event}
    (hosts : Hosts post m) (exposed : m.m_eventQueue.empty = true → Exposed m) :
    Runs (p.run post) m fun _ new m' => Acts m new m' := by
  induction p generalizing m with
  | done user value =>
    have changed := Extends.user m user
    exact .modify_bind changed.1 (.pure changed.2)
  | transition id rest ih =>
    have asked : Acts m [.requested id] (m.transition id) := ⟨by simp [visible], ⟨rfl, rfl, rfl⟩, by rintro ⟨⟩⟩
    have extend := Extends.transition m id
    refine .modify_bind extend ((ih (hosts.of_extends extend) ?_).mono fun _ _ _ _ acts => asked.trans acts)
    exact fun idle => (exposed (extend.empty.symm.trans idle)).of_same asked.same
  | postEvent user ev rest ih =>
    obtain ⟨extend₁, acts₁⟩ := Extends.user m user
    refine .modify_bind extend₁ ?_
    generalize { m with m_user := user } = m₁ at extend₁ acts₁ ⊢
    have posted : Runs (post ev) m₁ fun _ new m' => Acts m₁ new m' := by
      cases busy : m₁.m_eventQueue.empty with
      | false =>
        refine .of_ok ((hosts.of_extends extend₁).busy busy m₁ ev busy) (.push busy ev) ?_
        exact ⟨by simp [visible], ⟨rfl, rfl, rfl⟩, .refl m₁⟩
      | true =>
        obtain ⟨m', run, setup, trace⟩ := (hosts.of_extends extend₁).idle busy m₁ ev busy
          ((exposed (extend₁.empty.symm.trans busy)).of_same acts₁.same)
        refine .of_error run ⟨setup, ?_, _, trace, Or.inr ⟨rfl, busy, by simp [posts]⟩⟩
        intro legal
        unfold Legal
        rw [setup, trace]
        exact legal.append (by simp [Observes])
    refine .bind posted ?_
    intro _ new' m₂ extend₂ acts₂
    have both := extend₁.trans extend₂
    have acts := acts₁.trans acts₂
    refine .get_bind ((ih m₂.m_user (hosts.of_extends both) ?_).mono ?_)
    · exact fun idle => (exposed (both.empty.symm.trans idle)).of_same acts.same
    · intro _ _ _ _ acts₃
      rw [← List.append_assoc]
      exact acts.trans acts₃

end StateChart

end SerialNet
