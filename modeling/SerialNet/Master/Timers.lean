import SerialNet.Master.StateMachine

namespace SerialNet.MasterFSM

/-! Runs -/

/-- The events made of received packets. -/
def isRx : Event → Bool
  | .timer_timeout => false
  | .check_new_command => false
  | _ => true

inductive Input
  | startAction (action : Action)
  | packet (ev : Event)
  | timer (timeout : FsmTimeout)
  | turn (env : Surroundings)

/-- The state machine in any surroundings, with the timeout that has fired and whose
event has not been processed yet. Each stimulus is processed to its end before the
next one comes. -/
inductive Step : MasterFSM × Option FsmTimeout → Input → MasterFSM × Option FsmTimeout → Prop
  | startAction {f f' : MasterFSM} {fired : Option FsmTimeout} {action : Action} : f.m_eventQueue = [] →
      f.startAction action = .ok f' → Step (f, fired) (.startAction action) (f', fired)
  | packet {f : MasterFSM} {fired : Option FsmTimeout} {ev : Event} : f.m_eventQueue = [] → isRx ev = true →
      Step (f, fired) (.packet ev) (f.postEvent ev, fired)
  | timer {f : MasterFSM} {fired : Option FsmTimeout} {timeout : FsmTimeout} : f.m_eventQueue = [] →
      timeout ∈ f.m_timer.pending →
      Step (f, fired) (.timer timeout)
        ({ f with m_timer := f.m_timer.expire timeout }.postEvent .timer_timeout, some timeout)
  | turn {f f' : MasterFSM} {fired : Option FsmTimeout} {ev : Event} {rest : List Event} {env : Surroundings} :
      f.m_eventQueue = ev :: rest → f.turn env = .ok f' →
      Step (f, fired) (.turn env) (f', if ev = .timer_timeout then none else fired)

/-- In idle, with nothing to do. -/
def initial : MasterFSM := ⟨.idle, 1, none, [], .unset, Action.makeDoNothingAction⟩

def Reach (r : MasterFSM × Option FsmTimeout) : Prop := LabelledReach Step (fun _ _ => True) (initial, none) r

/-! The timer -/

/-- The timer runs exactly while a state waits, and the active state object has started
it. -/
structure OnTime (f : MasterFSM) : Prop where
  single : f.m_timer.dropped = []
  idle : f.m_state = .idle → f.m_timer.m_timer = none
  busy : f.m_state ≠ .idle → ∃ timeout, f.m_timer.m_timer = some timeout ∧ timeout.armedBy = f.m_object

/-- The timer has fired, and the state object that started it is about to be told. -/
structure Fired (f : MasterFSM) (timeout : FsmTimeout) : Prop where
  stopped : f.m_timer = .unset
  busy : f.m_state ≠ .idle
  active : timeout.armedBy = f.m_object
  next : f.m_eventQueue.head? = some .timer_timeout
  once : .timer_timeout ∉ f.m_eventQueue.tail

theorem Fired.queue_ne {f : MasterFSM} {timeout : FsmTimeout} (fired : Fired f timeout) : f.m_eventQueue ≠ [] := by
  intro queue
  have next := fired.next
  rw [queue] at next
  cases next

/-- The timer does what it is meant for, also while an event is being processed. -/
inductive Disciplined : MasterFSM × Option FsmTimeout → Prop
  | running {f} : f.m_nextState = none → OnTime f → .timer_timeout ∉ f.m_eventQueue → Disciplined (f, none)
  | fired {f timeout} : f.m_nextState = none → Fired f timeout → Disciplined (f, some timeout)

namespace OnTime

variable {f f' : MasterFSM}

theorem congr (onTime : OnTime f) (timer : f'.m_timer = f.m_timer) (state : f'.m_state = f.m_state)
    (object : f'.m_object = f.m_object) : OnTime f' := by
  refine ⟨by rw [timer]; exact onTime.single, ?_, ?_⟩
  · rw [state, timer]
    exact onTime.idle
  · rw [state, timer, object]
    exact onTime.busy

/-- The only timeout that can fire is the one of the active state. -/
theorem of_pending (onTime : OnTime f) {timeout : FsmTimeout} (pending : timeout ∈ f.m_timer.pending) :
    f.m_timer = ⟨some timeout, []⟩ ∧ f.m_state ≠ .idle ∧ timeout.armedBy = f.m_object := by
  have single := onTime.single
  rw [Timer.pending, single, List.append_nil, Option.mem_toList] at pending
  have busy : f.m_state ≠ .idle := by
    intro idle
    rw [onTime.idle idle] at pending
    cases pending
  obtain ⟨armed, running, active⟩ := onTime.busy busy
  have same : armed = timeout := Option.some.inj (running.symm.trans pending)
  refine ⟨?_, busy, same ▸ active⟩
  rw [← single, ← pending]

/-- A state that is entered with the timer stopped. -/
theorem enterState (stopped : f.m_timer = .unset) (now : ℚ) (s : StateId) : OnTime (f.enterState now s) := by
  obtain ⟨state, object, next, events, timer, action⟩ := f
  cases stopped
  cases s with
  | idle => exact ⟨rfl, fun _ => rfl, fun busy => absurd rfl busy⟩
  | _ => exact ⟨rfl, by rintro ⟨⟩, fun _ => ⟨_, rfl, rfl⟩⟩

end OnTime

theorem prepareTransition_stay {f p : MasterFSM} {env : Surroundings} (settled : f.m_nextState = none)
    (run : f.prepareTransition env = .ok p) : p = f := by
  unfold prepareTransition at run
  rw [settled] at run
  exact (Except.ok.inj run).symm

/-- Whatever the state, it leaves with the timer stopped. -/
theorem prepareTransition_move {f p : MasterFSM} {env : Surroundings} {s : StateId}
    (settled : f.m_nextState = none) (single : f.m_timer.dropped = [])
    (idle : f.m_state = .idle → f.m_timer.m_timer = none)
    (run : (f.transition s).prepareTransition env = .ok p) :
    ∃ left : MasterFSM, left.m_timer = .unset ∧ left.m_nextState = none ∧
      (∃ n, left.m_eventQueue = f.m_eventQueue ++ List.replicate n .check_new_command) ∧
      p = left.enterState env.now s := by
  obtain ⟨state, object, next, events, ⟨timer, dropped⟩, action⟩ := f
  cases settled
  cases single
  obtain ⟨left, exit, entered⟩ := Except.bind_eq_ok_iff.mp run
  cases entered
  have cleaned : ∀ {f' : MasterFSM}, Acts ⟨state, object, none, events, .unset, action⟩ f' →
      f'.m_timer = .unset ∧ f'.m_nextState = none ∧
        ∃ n, f'.m_eventQueue = events ++ List.replicate n .check_new_command := by
    rintro _ ⟨_, n, rfl⟩
    exact ⟨rfl, rfl, n, rfl⟩
  cases state with
  | idle =>
    have off : timer = none := idle rfl
    subst off
    cases exit
    obtain ⟨stopped, next, queue⟩ := cleaned (.refl _)
    exact ⟨_, stopped, next, queue, rfl⟩
  | waitAddressReply =>
    obtain ⟨stopped, next, queue⟩ := cleaned (.reportActionResult exit)
    exact ⟨_, stopped, next, queue, rfl⟩
  | _ =>
    cases exit
    obtain ⟨stopped, next, queue⟩ := cleaned (.refl _)
    exact ⟨_, stopped, next, queue, rfl⟩

/-- Nothing but new actions is added to the queue behind the event that is processed. -/
theorem timeout_not_mem {rest : List Event} {n : Nat} (once : .timer_timeout ∉ rest) :
    Event.timer_timeout ∉ rest ++ List.replicate n .check_new_command := by
  intro member
  rcases List.mem_append.mp member with old | new
  · exact once old
  · cases List.eq_of_mem_replicate new

theorem enterState_nextState (f : MasterFSM) (now : ℚ) (s : StateId) :
    (f.enterState now s).m_nextState = f.m_nextState := by
  cases s <;> rfl

theorem enterState_eventQueue (f : MasterFSM) (now : ℚ) (s : StateId) :
    (f.enterState now s).m_eventQueue = f.m_eventQueue := by
  cases s <;> rfl

namespace Disciplined

variable {f f' : MasterFSM} {fired : Option FsmTimeout} {env : Surroundings} {ev : Event} {rest : List Event}

/-- What is known when an event comes to be processed. A timeout is an event for the
state that waits. -/
theorem before_turn (disciplined : Disciplined (f, fired)) (queue : f.m_eventQueue = ev :: rest) :
    f.m_nextState = none ∧ .timer_timeout ∉ rest ∧
      (ev ≠ .timer_timeout ∧ fired = none ∧ OnTime f ∨
        ev = .timer_timeout ∧ f.m_timer = .unset ∧ f.m_state ≠ .idle) := by
  cases disciplined with
  | running settled onTime absent =>
    rw [queue, List.mem_cons, not_or] at absent
    exact ⟨settled, absent.2, Or.inl ⟨Ne.symm absent.1, rfl, onTime⟩⟩
  | fired settled fired =>
    have next := fired.next
    have once := fired.once
    rw [queue] at next once
    exact ⟨settled, once, Or.inr ⟨Option.some.inj next, fired.stopped, fired.busy⟩⟩

/-- After a turn no timeout is on its way, so that it is enough to look at the timer. -/
theorem after_turn {processed : MasterFSM} {n : Nat} (settled : processed.m_nextState = none)
    (onTime : OnTime processed) (once : .timer_timeout ∉ rest)
    (queue : processed.m_eventQueue = ev :: rest ++ List.replicate n .check_new_command) :
    Disciplined ({ processed with m_eventQueue := processed.m_eventQueue.tail }, none) := by
  refine .running settled (onTime.congr rfl rfl rfl) ?_
  rw [queue]
  exact timeout_not_mem once

theorem turn (disciplined : Disciplined (f, fired)) (queue : f.m_eventQueue = ev :: rest)
    (run : f.turn env = .ok f') : Disciplined (f', if ev = .timer_timeout then none else fired) := by
  obtain ⟨settled, once, timing⟩ := disciplined.before_turn queue
  have none : (if ev = .timer_timeout then none else fired) = none := by
    rcases timing with ⟨_, nothing, _⟩ | ⟨timeout, _, _⟩
    · rw [nothing, ite_self]
    · rw [if_pos timeout]
  have single : f.m_timer.dropped = [] := by
    rcases timing with ⟨_, _, onTime⟩ | ⟨_, stopped, _⟩
    · exact onTime.single
    · rw [stopped]
      rfl
  have idle : f.m_state = .idle → f.m_timer.m_timer = .none := by
    rcases timing with ⟨_, _, onTime⟩ | ⟨_, stopped, _⟩
    · exact onTime.idle
    · intro _
      rw [stopped]
      rfl
  rw [none]
  simp only [MasterFSM.turn, queue] at run
  obtain ⟨emitted, emit, run⟩ := Except.bind_eq_ok_iff.mp run
  obtain ⟨processed, prepare, popped⟩ := Except.bind_eq_ok_iff.mp run
  cases popped
  cases emitEvent_cases emit with
  | stays acts waits =>
    obtain ⟨action, n, rfl⟩ := acts
    have same := prepareTransition_stay (f := { f with m_currentAction := action, m_eventQueue := _ }) settled prepare
    rcases timing with ⟨_, _, onTime⟩ | ⟨timeout, _, busy⟩
    · subst same
      exact after_turn settled (onTime.congr rfl rfl rfl) once (by rw [queue])
    · exact absurd (waits timeout) busy
  | rearms timeout busy =>
    have same := prepareTransition_stay (f := f.startTimer env.now _) settled prepare
    rcases timing with ⟨other, _, _⟩ | ⟨_, stopped, _⟩
    · exact absurd timeout other
    · subst same
      have unchanged : f.m_eventQueue = ev :: rest ++ List.replicate 0 .check_new_command := by
        rw [queue, List.replicate_zero, List.append_nil]
      refine after_turn settled ⟨?_, fun idle => absurd idle busy, fun _ => ⟨_, rfl, rfl⟩⟩ once unchanged
      simp only [startTimer, stopped]
      rfl
  | moves acts _ =>
    obtain ⟨action, n, rfl⟩ := acts
    obtain ⟨left, stopped, next, ⟨k, events⟩, rfl⟩ := prepareTransition_move (f := { f with
      m_currentAction := action, m_eventQueue := f.m_eventQueue ++ List.replicate n .check_new_command })
      settled single idle prepare
    have added : left.m_eventQueue = ev :: rest ++ List.replicate (n + k) .check_new_command := by
      rw [events, queue, List.append_assoc, List.replicate_append_replicate]
    exact after_turn (by rw [enterState_nextState, next]) (.enterState stopped _ _) once
      (by rw [enterState_eventQueue, added])

theorem step {r r' : MasterFSM × Option FsmTimeout} (disciplined : Disciplined r) {l : Input} (step : Step r l r') :
    Disciplined r' := by
  cases step with
  | turn queue run => exact disciplined.turn queue run
  | @startAction f f' _ action queue run =>
    obtain ⟨_, n, rfl⟩ := Acts.startAction run
    cases disciplined with
    | running settled onTime absent =>
      exact .running settled (onTime.congr rfl rfl rfl) (timeout_not_mem absent)
    | fired _ fired => exact absurd queue fired.queue_ne
  | @packet f _ ev queue rx =>
    cases disciplined with
    | running settled onTime absent =>
      refine .running settled (onTime.congr rfl rfl rfl) ?_
      rw [postEvent, queue, List.nil_append, List.mem_singleton]
      rintro rfl
      cases rx
    | fired _ fired => exact absurd queue fired.queue_ne
  | @timer f _ timeout queue pending =>
    cases disciplined with
    | running settled onTime absent =>
      obtain ⟨running, busy, active⟩ := onTime.of_pending pending
      refine .fired settled ⟨?_, busy, active, ?_, ?_⟩
      · simp only [postEvent, running, Timer.expire, if_true]
        rfl
      · rw [postEvent, queue]
        rfl
      · rw [postEvent, queue]
        exact List.not_mem_nil
    | fired _ fired => exact absurd queue fired.queue_ne

end Disciplined

theorem Reach.disciplined {r : MasterFSM × Option FsmTimeout} (reach : Reach r) : Disciplined r :=
  reach.invariant (.running rfl ⟨rfl, fun _ => rfl, fun busy => absurd rfl busy⟩ List.not_mem_nil)
    fun disciplined _ step => disciplined.step step

/-- Between stimuli the timer runs exactly while the state machine is not in idle, and
every timeout that can fire was started by the active state object. A timeout that has
fired is processed by that object, which is not idle and reacts to it. -/
theorem timer_discipline {f : MasterFSM} {fired : Option FsmTimeout} (reach : Reach (f, fired)) :
    (f.m_eventQueue = [] → (f.m_timer.m_timer ≠ none ↔ f.m_state ≠ .idle) ∧
      ∀ timeout ∈ f.m_timer.pending, f.m_timer.m_timer = some timeout ∧ timeout.armedBy = f.m_object) ∧
    (.timer_timeout ∈ f.m_eventQueue → f.m_eventQueue.head? = some .timer_timeout) ∧
    (f.m_eventQueue.head? = some .timer_timeout → ∃ timeout, fired = some timeout ∧
      timeout.armedBy = f.m_object ∧ f.m_state ≠ .idle ∧ Master.handles f.m_state .timer_timeout = true) := by
  cases reach.disciplined with
  | running settled onTime absent =>
    refine ⟨fun _ => ⟨⟨?_, ?_⟩, ?_⟩, fun timeout => absurd timeout absent, ?_⟩
    · intro running idle
      exact running (onTime.idle idle)
    · intro busy
      obtain ⟨timeout, running, _⟩ := onTime.busy busy
      rw [running]
      rintro ⟨⟩
    · intro timeout pending
      obtain ⟨running, _, active⟩ := onTime.of_pending pending
      exact ⟨by rw [running], active⟩
    · intro next
      exact absurd (List.mem_of_mem_head? next) absent
  | @fired _ timeout settled fired =>
    refine ⟨?_, fun _ => fired.next, fun _ => ⟨timeout, rfl, fired.active, fired.busy, ?_⟩⟩
    · intro queue
      exact absurd queue fired.queue_ne
    · cases state : f.m_state with
      | idle => exact absurd state fired.busy
      | _ => rfl

/-- Nothing is going on around the state machine, and nobody wants its results. -/
def quiet : Surroundings := ⟨1000, false, 9, true, fun _ => []⟩

/-- A token is sent: the wait for its echo is timed by the state that waits. -/
theorem timer_discipline_sendingToken :
    ∃ f, Reach (f, none) ∧ f.m_eventQueue = [] ∧ f.m_state = .sendingToken ∧ f.m_timer.m_timer ≠ none := by
  have call : initial.startAction (Action.makeSendTokenAction 1) =
      .ok ({ initial with m_currentAction := Action.makeSendTokenAction 1 }.postEvent .check_new_command) := rfl
  obtain ⟨f, turn, queue, state⟩ : ∃ f, ({ initial with
      m_currentAction := Action.makeSendTokenAction 1 }.postEvent .check_new_command).turn quiet = .ok f ∧
      f.m_eventQueue = [] ∧ f.m_state = .sendingToken := ⟨_, rfl, rfl, rfl⟩
  have started : Reach (_, none) := .next .start trivial (.startAction rfl call)
  have sent : Reach (f, none) := .next started trivial (.turn rfl turn)
  refine ⟨f, sent, queue, state, ((timer_discipline sent).1 queue).1.mpr ?_⟩
  rw [state]
  rintro ⟨⟩

end SerialNet.MasterFSM
