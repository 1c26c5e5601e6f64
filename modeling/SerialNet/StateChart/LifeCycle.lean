import SerialNet.StateChart.Events

namespace SerialNet

namespace StateChart

variable {σ Event : Type} {b : Behaviour σ Event} {m m' : FsmBase σ Event}

/-! Posting an event -/

theorem postEvent_queues (fuel : Nat) : Queues (postEvent b fuel) := by
  intro m ev busy
  cases fuel with
  | zero =>
    rw [postEvent, EStateM.get_bind, EStateM.set_bind, busy]
    rfl
  | succ fuel =>
    rw [postEvent, EStateM.get_bind, EStateM.set_bind, busy]
    rfl

theorem push_front (idle : m.m_eventQueue.empty = true) (ev : Event) : (m.push ev).m_eventQueue.toList = [ev] := by
  change (m.m_eventQueue.push ev).toList = [ev]
  rw [VecQueue.toList_push, VecQueue.empty_iff.mp idle]
  rfl

theorem postEvent_idle (fuel : Nat) (idle : m.m_eventQueue.empty = true) (ev : Event) :
    postEvent b (fuel + 1) ev m = processEvents b (postEvent b fuel) (fuel + 1) (m.push ev) := by
  rw [postEvent, EStateM.get_bind, EStateM.set_bind, idle]
  rfl

theorem processEvent_exposed {post : Event → Exec σ Event Unit} (exposed : Exposed m) (ev : Event) (fuel : Nat) :
    processEvent b post ev fuel m = .error .nullState m := by
  obtain ⟨level, frame, length, atLevel, nothing⟩ := exposed
  have emits : emitEvents b post ev (level + 1) m = .error .nullState m := by
    rw [emitEvents, EStateM.get_bind]
    simp only [atLevel, nothing]
    rfl
  rw [processEvent, EStateM.get_bind, length, if_neg (Nat.succ_ne_zero level)]
  exact EStateM.bind_of_error emits

/-- While no event is processed, a constructor or destructor that posts one has it emitted to
the state that is being made or is already gone. -/
theorem postEvent_emits (fuel : Nat) : Emits (postEvent b (fuel + 1)) := by
  intro m ev idle exposed
  have front : (m.push ev).m_eventQueue.front = some ev := by rw [VecQueue.front_eq, push_front idle]; rfl
  have busy : (m.push ev).m_eventQueue.empty = false := VecQueue.empty_push _ _
  refine ⟨(m.push ev).log (.begins ev), ?_, rfl, ?_⟩
  · rw [postEvent_idle fuel idle]
    rw [processEvents, EStateM.get_bind, busy, if_neg (by decide)]
    simp only [front]
    rw [EStateM.set_bind]
    have exposed' : Exposed ((m.push ev).log (.begins ev)) := exposed.of_same ⟨rfl, rfl, rfl⟩
    exact EStateM.bind_of_error (processEvent_exposed exposed' ev fuel)
  · change m.m_trace ++ [.posted ev] ++ [.begins ev] = _
    rw [List.append_assoc]
    rfl

/-- What the outermost call of `postEvent` has done when it returns. -/
structure Completes (m : FsmBase σ Event) (ev : Event) (blocks : List (Block Event)) (m' : FsmBase σ Event) : Prop where
  resting : Resting m'
  setup : m'.m_setup = m.m_setup
  legal : Legal m → Legal m'
  trace : m'.m_trace = m.m_trace ++ .posted ev :: allEntries blocks
  order : blocks.map Block.event = ev :: posts (allEntries blocks)
  complete : RunsToCompletion m.m_setup m.m_currentInfos blocks

theorem postEvent_wp (fuel : Nat) (ev : Event) (resting : Resting m) :
    EStateM.Wp (postEvent b fuel ev) (fun _ m' => ∃ blocks, Completes m ev blocks m') (Exhausted m) m := by
  have pushed : Settled (m.push ev) := by
    have longer := resting.toSettled.requeue (m.m_eventQueue.push ev)
    exact longer.log (.posted ev) rfl
  have legal : Legal m → Legal (m.push ev) := fun legal => legal.concat trivial
  cases fuel with
  | zero =>
    unfold EStateM.Wp
    rw [postEvent, EStateM.get_bind, EStateM.set_bind, resting.idle]
    exact ⟨rfl, rfl, legal⟩
  | succ fuel =>
    have loop := processEvents_wp (b := b) (fuel + 1) (postEvent_queues (b := b) fuel) pushed
    unfold EStateM.Wp at loop ⊢
    rw [postEvent_idle fuel resting.idle]
    cases run : processEvents b (postEvent b fuel) (fuel + 1) (m.push ev) with
    | error fault m' =>
      rw [run] at loop
      exact Exhausted.of_later loop rfl legal
    | ok _ m' =>
      rw [run] at loop
      obtain ⟨blocks, resting', setup, legal', trace, order, complete⟩ := loop
      refine ⟨blocks, resting', setup, fun before => legal' (legal before), ?_, ?_, complete⟩
      · rw [trace]
        change m.m_trace ++ [.posted ev] ++ _ = _
        rw [List.append_assoc]
        rfl
      · rw [order, push_front resting.idle]
        rfl

/-! The beginning and the end -/

theorem Stops.posts_iff {fault : Fault} (stops : Stops m fault m') (idle : m.m_eventQueue.empty = true) :
    ∃ new, m'.m_trace = m.m_trace ++ new ∧
      (fault = .outOfFuel ∧ posts new = [] ∨ fault = .nullState ∧ posts new ≠ []) := by
  obtain ⟨new, trace, reason⟩ := stops.reason
  refine ⟨new, trace, ?_⟩
  rcases reason with ⟨fuel, quiet⟩ | ⟨null, _, posted⟩
  · exact Or.inl ⟨fuel, quiet idle⟩
  · exact Or.inr ⟨null, posted⟩

theorem hosts_of_idle (fuel : Nat) (idle : m.m_eventQueue.empty = true) : Hosts (postEvent b (fuel + 1)) m :=
  ⟨fun busy => absurd (busy.symm.trans idle) (by decide), fun _ => postEvent_emits fuel⟩

/-- The machine as `setStartState` hands it to `prepareTransition`. -/
def prepared (setup : FsmSetupBase) (user : σ) (id : Int) : FsmBase σ Event :=
  { FsmBase.make setup user with m_stackFrames := resize [] (setup.m_maxLevel + 1) ⟨none, 0⟩ }.transition id

theorem prepared_between {setup : FsmSetupBase} (registered : setup.Registered) (user : σ) (id : Int) :
    Between (prepared setup user id : FsmBase σ Event) := by
  refine ⟨registered, ⟨rfl, length_resize _ _ _, Nat.zero_le _, ?_⟩, Or.inl rfl, rfl, by rintro ⟨⟩⟩
  intro level frame found
  have member : frame ∈ resize ([] : List LevelData) (setup.m_maxLevel + 1) ⟨none, 0⟩ := List.mem_of_getElem? found
  rw [resize, List.take_nil, List.nil_append] at member
  have fresh : frame = ⟨none, 0⟩ := List.eq_of_mem_replicate member
  rw [fresh]
  rfl

theorem setStartState_wp {setup : FsmSetupBase} (registered : setup.Registered) (user : σ) (id : Int) (fuel : Nat) :
    EStateM.Wp (setStartState b id fuel)
      (fun _ m => Resting m ∧ m.m_setup = setup ∧ Legal m ∧ posts m.m_trace = [])
      (fun fault m => m.m_setup = setup ∧ Legal m ∧
        (fault = .outOfFuel ∧ posts m.m_trace = [] ∨ fault = .nullState ∧ posts m.m_trace ≠ []))
      (FsmBase.make setup user : FsmBase σ Event) := by
  have legal : Legal (prepared setup user id : FsmBase σ Event) := Always.concat .nil trivial
  have between : Between (prepared setup user id : FsmBase σ Event) := prepared_between registered user id
  have loop := prepareTransition_runs (b := b) fuel (hosts_of_idle (b := b) fuel rfl) between
  refine EStateM.Wp.mono loop ?_ ?_
  · rintro _ m ⟨new, extend, between, still, _⟩
    refine ⟨⟨⟨between, still⟩, extend.empty⟩, extend.setup, extend.legal legal, ?_⟩
    rw [extend.trace, posts_append, extend.quiet rfl]
    rfl
  · intro fault m stops
    obtain ⟨new, trace, reason⟩ := stops.posts_iff rfl
    refine ⟨stops.setup, stops.legal legal, ?_⟩
    rw [trace, posts_append]
    exact reason

theorem popFrames_runs {post : Event → Exec σ Event Unit} (fuel : Nat)
    (gone : ∀ frame ∈ m.m_stackFrames, frame.m_activeState = none) :
    Runs (popFrames b post fuel) m fun _ new _ => new = [] := by
  induction fuel generalizing m with
  | zero => exact .outOfFuel
  | succ fuel ih =>
    refine .get_bind ?_
    cases last : m.m_stackFrames.getLast? with
    | none => exact .pure rfl
    | some frame =>
      refine .set_bind (.silent m _ rfl rfl rfl rfl) ?_
      rw [gone frame (List.mem_of_getLast? last)]
      refine ih ?_
      intro other member
      exact gone other (List.mem_of_mem_dropLast member)

theorem cleanup_wp (fuel : Nat) (resting : Resting m) :
    EStateM.Wp (cleanup b fuel)
      (fun _ m' => (Legal m → Legal m') ∧ ∃ new, m'.m_trace = m.m_trace ++ new ∧ posts new = [])
      (fun fault m' => (Legal m → Legal m') ∧ ∃ new, m'.m_trace = m.m_trace ++ new ∧
        (fault = .outOfFuel ∧ posts new = [] ∨ fault = .nullState ∧ posts new ≠ [])) m := by
  have hosts := hosts_of_idle (b := b) fuel resting.idle
  have exits := doExit_runs (b := b) fuel hosts resting.between.stands (Nat.zero_le _)
  have all : Runs (cleanup b fuel) m fun _ _ _ => True := by
    refine .bind exits ?_
    rintro _ new m₁ _ ⟨_, stands, _⟩
    refine (popFrames_runs fuel ?_).mono fun _ _ _ _ _ => trivial
    intro frame member
    obtain ⟨level, found⟩ := List.mem_iff_getElem?.mp member
    exact stands.alive level frame found
  refine EStateM.Wp.mono all ?_ ?_
  · rintro _ m' ⟨new, extend, _⟩
    exact ⟨extend.legal, new, extend.trace, extend.quiet resting.idle⟩
  · intro fault m' stops
    exact ⟨stops.legal, stops.posts_iff resting.idle⟩

/-! A machine that has been started -/

/-- The machine after `setStartState` and some events. -/
inductive Started (b : Behaviour σ Event) (setup : FsmSetupBase) (user : σ) : FsmBase σ Event → Prop
  | start {id : Int} {fuel : Nat} {m : FsmBase σ Event} :
      setStartState b id fuel (FsmBase.make setup user) = .ok () m → Started b setup user m
  | event {ev : Event} {fuel : Nat} {m m' : FsmBase σ Event} : Started b setup user m →
      postEvent b fuel ev m = .ok () m' → Started b setup user m'

theorem Started.resting {setup : FsmSetupBase} {user : σ} (registered : setup.Registered)
    (started : Started b setup user m) : Resting m ∧ m.m_setup = setup ∧ Legal m := by
  induction started with
  | start run =>
    obtain ⟨resting, setup, legal, _⟩ := (setStartState_wp registered _ _ _).of_ok run
    exact ⟨resting, setup, legal⟩
  | event _ run ih =>
    obtain ⟨resting, setup, legal⟩ := ih
    obtain ⟨_, done⟩ := (postEvent_wp _ _ resting).of_ok run
    exact ⟨done.resting, done.setup.trans setup, done.legal legal⟩

/-! The machine of the unit test -/

inductive TestEvent
  | testEvent1
  | testEvent2
  | testEvent3
deriving DecidableEq

def state1 : Int := 0
def state2 : Int := 1
def state3 : Int := 2

structure TestData where
  testData : Int
  testD2 : Int
  testD3 : Int
deriving DecidableEq

def testSetup : FsmSetupBase := ⟨[⟨state1, state1, 0, 16⟩, ⟨state2, state2, 0, 16⟩, ⟨state3, state1, 1, 16⟩], 1⟩

theorem testSetup_registered : testSetup.Registered := by
  have first : FsmSetupBase.make.addStateBase state1 state1 16 = some ⟨[⟨state1, state1, 0, 16⟩], 0⟩ := rfl
  have second : FsmSetupBase.addStateBase ⟨[⟨state1, state1, 0, 16⟩], 0⟩ state2 state2 16 =
      some ⟨[⟨state1, state1, 0, 16⟩, ⟨state2, state2, 0, 16⟩], 0⟩ := rfl
  have third : FsmSetupBase.addStateBase ⟨[⟨state1, state1, 0, 16⟩, ⟨state2, state2, 0, 16⟩], 0⟩ state3 state1 16 =
      some testSetup := rfl
  exact .add (.add (.add .make first) second) third

def testHandler (state : Int) (ev : TestEvent) (d : TestData) : Program TestData TestEvent Bool :=
  if state = state1 then
    match ev with
    | .testEvent1 => .transition state2 (.done { d with testData := 1 } false)
    | .testEvent2 => .done { d with testData := 1 } false
    | .testEvent3 => .transition state3 (.done { d with testData := 1 } false)
  else if state = state2 then
    match ev with
    | .testEvent1 => .transition state1 (.done { d with testData := 9 } false)
    | .testEvent2 => .done { d with testData := 15, testD2 := 2 } false
    | .testEvent3 => .transition state3 (.done { d with testData := 9 } false)
  else
    match ev with
    | .testEvent1 => .transition state1 (.done { d with testData := 19 } false)
    | .testEvent2 => .done { d with testData := 115, testD3 := 3 } false
    | .testEvent3 => .done { d with testData := 19 } false

def myTestFsm : Behaviour TestData TestEvent where
  construct state d :=
    .done { d with testData := if state = state1 then 0 else if state = state2 then 5 else 15 } ()
  destroy state d :=
    .done { d with testData := if state = state1 then 10 else if state = state2 then 11 else 111 } ()
  event := testHandler

def testMade : FsmBase TestData TestEvent := FsmBase.make testSetup ⟨-1, -2, -3⟩

def testStart : FsmBase TestData TestEvent := (setStartState myTestFsm state1 5).final testMade

theorem testStart_started : Started myTestFsm testSetup ⟨-1, -2, -3⟩ testStart :=
  .start (EStateM.eq_ok_of_succeeds (by decide +kernel))

/-- Whatever the user's code asks for, and also in a run that never comes to its end: each
time `prepareTransition` returns the machine is in the state that was asked for last, with
just the states on the way to it constructed, and each transition destroys and constructs
just the states it should, in the right order. -/
theorem transition_semantics {setup : FsmSetupBase} (registered : setup.Registered) (b : Behaviour σ Event)
    (user : σ) :
    (∀ id fuel, Always (Observes setup) ((setStartState b id fuel).final (FsmBase.make setup user)).m_trace) ∧
      ∀ m, Started b setup user m → ∀ ev fuel, Always (Observes setup) ((postEvent b fuel ev).final m).m_trace := by
  constructor
  · intro id fuel
    refine EStateM.Wp.final (fun m => Always (Observes setup) m.m_trace)
      ((setStartState_wp registered user id fuel).mono ?_ ?_)
    · rintro _ m ⟨_, same, legal, _⟩
      exact same ▸ legal
    · rintro _ m ⟨same, legal, _⟩
      exact same ▸ legal
  · intro m started ev fuel
    obtain ⟨resting, same, legal⟩ := started.resting registered
    refine EStateM.Wp.final (fun m => Always (Observes setup) m.m_trace) ((postEvent_wp fuel ev resting).mono ?_ ?_)
    · rintro _ m' ⟨_, done⟩
      rw [← same, ← done.setup]
      exact done.legal legal
    · intro _ m' stops
      rw [← same, ← stops.setup]
      exact stops.legal legal

/-- From `state1` into its sub state. -/
theorem transition_semantics_test :
    Always (Observes testSetup) ((postEvent myTestFsm 9 .testEvent3).final testStart).m_trace ∧
      .performed (some state1) state3 ∈ ((postEvent myTestFsm 9 .testEvent3).final testStart).m_trace :=
  ⟨(transition_semantics testSetup_registered myTestFsm _).2 _ testStart_started _ _, by decide +kernel⟩

/-- What the unit test expects after its start and after its first transition. -/
example : testStart.m_user.testData = 0 ∧
    ((postEvent myTestFsm 9 .testEvent1).final testStart).m_user = ⟨5, -2, -3⟩ := by decide +kernel

/-- Every event posted during an outermost call of `postEvent` is processed, once, in the
order in which they were posted, and each to its end before the next one. -/
theorem run_to_completion {setup : FsmSetupBase} (registered : setup.Registered) {user : σ}
    (started : Started b setup user m) {ev : Event} {fuel : Nat} (run : postEvent b fuel ev m = .ok () m') :
    ∃ blocks, m'.m_trace = m.m_trace ++ .posted ev :: allEntries blocks ∧
      blocks.map Block.event = ev :: posts (allEntries blocks) ∧
      RunsToCompletion setup m.m_currentInfos blocks := by
  obtain ⟨resting, same, _⟩ := started.resting registered
  obtain ⟨blocks, done⟩ := (postEvent_wp fuel ev resting).of_ok run
  exact ⟨blocks, done.trace, done.order, same ▸ done.complete⟩

/-- A machine that posts an event from a handler, a destructor and a constructor. -/
def chattyFsm : Behaviour TestData TestEvent where
  construct state d := if state = state2 then .postEvent d .testEvent2 fun d => .done d () else .done d ()
  destroy state d := if state = state1 then .postEvent d .testEvent3 fun d => .done d () else .done d ()
  event state ev d :=
    if state = state1 ∧ ev = .testEvent1 then .postEvent d .testEvent2 fun d => .transition state2 (.done d true)
    else .done d true

def chattyStart : FsmBase TestData TestEvent := (setStartState chattyFsm state1 5).final testMade

theorem chattyStart_started : Started chattyFsm testSetup ⟨-1, -2, -3⟩ chattyStart :=
  .start (EStateM.eq_ok_of_succeeds (by decide +kernel))

theorem run_to_completion_test :
    ∃ blocks, ((postEvent chattyFsm 20 .testEvent1).final chattyStart).m_trace =
        chattyStart.m_trace ++ .posted .testEvent1 :: allEntries blocks ∧
      blocks.map Block.event = [.testEvent1, .testEvent2, .testEvent3, .testEvent2] ∧
      RunsToCompletion testSetup chattyStart.m_currentInfos blocks := by
  have run : postEvent chattyFsm 20 .testEvent1 chattyStart =
      .ok () ((postEvent chattyFsm 20 .testEvent1).final chattyStart) :=
    EStateM.eq_ok_of_succeeds (by decide +kernel)
  obtain ⟨blocks, trace, order, complete⟩ := run_to_completion testSetup_registered chattyStart_started run
  have posted : posts (((postEvent chattyFsm 20 .testEvent1).final chattyStart).m_trace.drop
      chattyStart.m_trace.length) = [.testEvent1, .testEvent2, .testEvent3, .testEvent2] := by decide +kernel
  rw [trace, List.drop_left] at posted
  exact ⟨blocks, trace, order.trans posted, complete⟩

def faultOf {σ Event α : Type} (x : Exec σ Event α) (m : FsmBase σ Event) : Option Fault :=
  match x m with
  | .ok _ _ => none
  | .error fault _ => some fault

theorem error_of_faultOf {x : Exec σ Event α} {fault : Fault} (stopped : faultOf x m = some fault) :
    ∃ m', x m = .error fault m' := by
  unfold faultOf at stopped
  split at stopped
  · cases stopped
  · rename_i m' run
    cases stopped
    exact ⟨m', run⟩

/-- Events are emitted to constructed states only, unless a constructor or destructor posts
one while `setStartState` or `cleanup` runs it: the machine then always calls a state that is
not there. -/
theorem events_reach_constructed {setup : FsmSetupBase} (registered : setup.Registered) (b : Behaviour σ Event)
    (user : σ) :
    (∀ id fuel, EStateM.Wp (setStartState b id fuel) (fun _ m => posts m.m_trace = [])
      (fun fault m => fault = .nullState ↔ posts m.m_trace ≠ []) (FsmBase.make setup user)) ∧
    (∀ m, Started b setup user m → ∀ ev fuel,
      EStateM.Wp (postEvent b fuel ev) (fun _ _ => True) (fun fault _ => fault ≠ .nullState) m) ∧
    ∀ m, Started b setup user m → ∀ fuel,
      EStateM.Wp (cleanup b fuel) (fun _ m' => posts (m'.m_trace.drop m.m_trace.length) = [])
        (fun fault m' => fault = .nullState ↔ posts (m'.m_trace.drop m.m_trace.length) ≠ []) m := by
  have either : ∀ {fault : Fault} {evs : List Event}, fault = .outOfFuel ∧ evs = [] ∨ fault = .nullState ∧ evs ≠ [] →
      (fault = .nullState ↔ evs ≠ []) := by
    rintro fault evs (⟨rfl, none⟩ | ⟨rfl, some⟩)
    · exact ⟨by rintro ⟨⟩, fun some => absurd none some⟩
    · exact ⟨fun _ => some, fun _ => rfl⟩
  refine ⟨?_, ?_, ?_⟩
  · intro id fuel
    refine (setStartState_wp registered user id fuel).mono ?_ ?_
    · rintro _ m ⟨_, _, _, quiet⟩
      exact quiet
    · rintro fault m ⟨_, _, reason⟩
      exact either reason
  · intro m started ev fuel
    refine (postEvent_wp fuel ev (started.resting registered).1).mono (fun _ _ _ => trivial) ?_
    intro fault m' stops
    rw [stops.fuel]
    rintro ⟨⟩
  · intro m started fuel
    refine (cleanup_wp fuel (started.resting registered).1).mono ?_ ?_
    · rintro _ m' ⟨_, new, trace, quiet⟩
      rw [trace, List.drop_left]
      exact quiet
    · rintro fault m' ⟨_, new, trace, reason⟩
      rw [trace, List.drop_left]
      exact either reason

/-- The machine posts from a constructor in `setStartState`, from all three while it processes an
event, and from a destructor in `cleanup`. -/
theorem events_reach_constructed_test :
    (∃ m, setStartState chattyFsm state2 5 testMade = .error .nullState m ∧ posts m.m_trace ≠ []) ∧
    (∀ ev fuel fault m, postEvent chattyFsm fuel ev chattyStart = .error fault m → fault ≠ .nullState) ∧
    ∃ m, cleanup chattyFsm 20 chattyStart = .error .nullState m ∧
      posts (m.m_trace.drop chattyStart.m_trace.length) ≠ [] := by
  obtain ⟨starts, processes, ends⟩ := events_reach_constructed testSetup_registered chattyFsm ⟨-1, -2, -3⟩
  have entered : faultOf (setStartState chattyFsm state2 5) testMade = some .nullState := by decide +kernel
  have left : faultOf (cleanup chattyFsm 20) chattyStart = some .nullState := by decide +kernel
  obtain ⟨m, entered⟩ := error_of_faultOf entered
  obtain ⟨m', left⟩ := error_of_faultOf left
  refine ⟨⟨m, entered, ?_⟩, ?_, m', left, ?_⟩
  · have reason := EStateM.Wp.of_error (s := testMade) (starts state2 5) entered
    exact reason.mp rfl
  · intro ev fuel fault m stopped
    have present := EStateM.Wp.of_error (processes chattyStart chattyStart_started ev fuel) stopped
    exact present
  · have reason := EStateM.Wp.of_error (ends chattyStart chattyStart_started 20) left
    exact reason.mp rfl

/-- A machine with one state, which posts an event when it is made or when it is left. -/
def postingFsm (onEntry onExit : Bool) : Behaviour Unit Unit where
  construct _ _ := if onEntry then .postEvent () () fun _ => .done () () else .done () ()
  destroy _ _ := if onExit then .postEvent () () fun _ => .done () () else .done () ()
  event _ _ _ := .done () true

def postingMade : FsmBase Unit Unit := FsmBase.make ⟨[⟨0, 0, 0, 16⟩], 0⟩ ()

/-- Such events reach a state that is not there: the first one in `setStartState`, the other
one in `cleanup`. -/
theorem postingState_hits_null :
    faultOf (setStartState (postingFsm true false) 0 5) postingMade = some .nullState ∧
      faultOf (setStartState (postingFsm false true) 0 5) postingMade = none ∧
      faultOf (cleanup (postingFsm false true) 5) ((setStartState (postingFsm false true) 0 5).final postingMade) =
        some .nullState := by
  decide +kernel

end StateChart

end SerialNet
