import SerialNet.Master.Timers

namespace SerialNet.Master

/-! The state machine of a master is the state machine on its own, in surroundings that
are made of the rest of the master. -/

/-- The rest of the master, as the state machine sees it. -/
def surroundings (m : Master) (rxInProgress : Bool) (started : List Action) : Surroundings :=
  ⟨m.m_now, rxInProgress, m.m_node.m_txQueue.clientAddress, m.m_node.m_txQueue.txQueueEmpty, fun _ => started⟩

/-- The action handler answers a result by starting one action or none. -/
theorem conclude_fsm (m : Master) (posted : m.m_fsm.m_currentAction.m_reportCB = true) (rv : ReturnValue)
    (dh : DynamicHandler) (again : Option ℚ) :
    ∃ started, ∀ env : Surroundings, env.starts rv = started →
      m.m_fsm.reportActionResult env rv = .ok (m.conclude rv dh again).m_fsm := by
  obtain ⟨_, _, ⟨front, _, fsm, _, _⟩ | ⟨_, fsm, _, _⟩⟩ := m.conclude_cases rv dh again
  · refine ⟨[front], fun env starts => ?_⟩
    simp only [MasterFSM.reportActionResult, posted, if_true, starts, fsm]
    rfl
  · refine ⟨[], fun env starts => ?_⟩
    simp only [MasterFSM.reportActionResult, posted, if_true, starts, fsm]
    rfl

section Parts

variable {m m' e : Master} {rxInProgress : Bool} {ev : Event} {rv : ReturnValue}

theorem reportActionResult_fsm (run : m.reportActionResult rv = .ok m') :
    m'.m_now = m.m_now ∧ m'.m_fsm.m_state = m.m_fsm.m_state ∧
      ∃ started, ∀ env : Surroundings, env.starts rv = started →
        m.m_fsm.reportActionResult env rv = .ok m'.m_fsm := by
  by_cases posted : m.m_fsm.m_currentAction.m_reportCB = true
  · obtain ⟨dh, again, _, rfl⟩ := reportActionResult_ok posted run
    exact ⟨conclude_now .., conclude_state .., conclude_fsm m posted rv dh again⟩
  · simp only [reportActionResult, posted, Bool.false_eq_true, if_false] at run
    cases run
    refine ⟨rfl, rfl, [], fun env _ => ?_⟩
    simp only [MasterFSM.reportActionResult, posted, Bool.false_eq_true, if_false]

theorem reportAndIdle_fsm (run : m.reportAndIdle rv = .ok m') :
    m'.m_now = m.m_now ∧ m'.m_fsm.m_state = m.m_fsm.m_state ∧
      ∃ started, ∀ env : Surroundings, env.starts rv = started → m.m_fsm.reportAndIdle env rv = .ok m'.m_fsm := by
  obtain ⟨reported, report, idle⟩ := Except.bind_eq_ok_iff.mp run
  cases idle
  obtain ⟨now, state, started, same⟩ := reportActionResult_fsm report
  refine ⟨now, state, started, fun env starts => ?_⟩
  rw [MasterFSM.reportAndIdle, same env starts]
  rfl

theorem enterState_fsm (m : Master) (s : StateId) : (m.enterState s).m_fsm = m.m_fsm.enterState m.m_now s := by
  cases s <;> rfl

/-- The state machine on its own handles the event as it does inside the master, if the
right actions are started meanwhile. The one state that reports on leaving reports
nothing before. -/
def HandlesAlike (m : Master) (rxInProgress : Bool) (ev : Event) (e : Master) : Prop :=
  e.m_now = m.m_now ∧ e.m_fsm.m_state = m.m_fsm.m_state ∧
    ∃ started, ∀ actions, (m.m_fsm.m_state ≠ .waitAddressReply → actions = started) →
      m.m_fsm.emitEvent (m.surroundings rxInProgress actions) ev = .ok e.m_fsm

namespace HandlesAlike

theorem of_quiet (now : e.m_now = m.m_now) (state : e.m_fsm.m_state = m.m_fsm.m_state)
    (emit : ∀ actions, m.m_fsm.emitEvent (m.surroundings rxInProgress actions) ev = .ok e.m_fsm) :
    HandlesAlike m rxInProgress ev e :=
  ⟨now, state, [], fun actions _ => emit actions⟩

theorem of_report (silent : m.m_fsm.m_state ≠ .waitAddressReply) (report : m.reportAndIdle rv = .ok e)
    (emit : ∀ actions, m.m_fsm.emitEvent (m.surroundings rxInProgress actions) ev =
      m.m_fsm.reportAndIdle (m.surroundings rxInProgress actions) rv) : HandlesAlike m rxInProgress ev e := by
  obtain ⟨now, state, started, same⟩ := reportAndIdle_fsm report
  exact ⟨now, state, started, fun actions starts => (emit actions).trans (same _ (starts silent))⟩

theorem idle (state : m.m_fsm.m_state = .idle) (run : m.idleEvent ev = .ok e) : HandlesAlike m rxInProgress ev e := by
  cases ev with
  | check_new_command =>
    have emit : ∀ actions, m.m_fsm.emitEvent (m.surroundings rxInProgress actions) .check_new_command =
        m.m_fsm.decodeAction (m.surroundings rxInProgress actions) m.m_fsm.m_currentAction := by
      intro actions
      simp only [MasterFSM.emitEvent, state]
    simp only [idleEvent, decodeAction] at run
    split at run
    · rename_i action
      cases run
      exact of_quiet rfl rfl fun actions => by simp only [emit, MasterFSM.decodeAction, action]
    · rename_i action
      split at run
      · rename_i own
        split at run
        · rename_i empty
          obtain ⟨now, same, started, reports⟩ := reportActionResult_fsm run
          refine ⟨now, same, started, fun actions starts => ?_⟩
          have silent : m.m_fsm.m_state ≠ .waitAddressReply := by rw [state]; rintro ⟨⟩
          rw [emit, ← reports (m.surroundings rxInProgress actions) (starts silent)]
          simp only [MasterFSM.decodeAction, action, surroundings, own, empty, if_true]
        · rename_i packets
          cases run
          refine of_quiet rfl rfl fun actions => ?_
          rw [emit]
          simp only [MasterFSM.decodeAction, action, surroundings, own, packets, if_true, if_false,
            Bool.false_eq_true]
          rfl
      · rename_i other
        cases run
        refine of_quiet rfl rfl fun actions => ?_
        rw [emit]
        simp only [MasterFSM.decodeAction, action, surroundings, other, if_false]
        rfl
    · rename_i action
      cases run
      exact of_quiet rfl rfl fun actions => by simp only [emit, MasterFSM.decodeAction, action]; rfl
    · rename_i action
      cases run
      exact of_quiet rfl rfl fun actions => by simp only [emit, MasterFSM.decodeAction, action]; rfl
  | _ =>
    cases run
    exact of_quiet rfl rfl fun actions => by simp only [MasterFSM.emitEvent, state]

theorem startMaster (state : m.m_fsm.m_state = .startMaster) (run : m.masterStartEvent ev = .ok e) :
    HandlesAlike m rxInProgress ev e := by
  have silent : m.m_fsm.m_state ≠ .waitAddressReply := by rw [state]; rintro ⟨⟩
  cases ev with
  | rx_pkt_master_start_stop =>
    exact of_report silent run fun actions => by simp only [MasterFSM.emitEvent, state]
  | timer_timeout => exact of_report silent run fun actions => by simp only [MasterFSM.emitEvent, state]
  | _ =>
    cases run
    exact of_quiet rfl rfl fun actions => by simp only [MasterFSM.emitEvent, state]

theorem sendingToken (state : m.m_fsm.m_state = .sendingToken) (run : m.sendingTokenEvent ev = .ok e) :
    HandlesAlike m rxInProgress ev e := by
  cases ev with
  | rx_pkt_grant_token =>
    cases run
    exact of_quiet rfl rfl fun actions => by simp only [MasterFSM.emitEvent, state]; rfl
  | timer_timeout =>
    cases run
    exact of_quiet rfl rfl fun actions => by simp only [MasterFSM.emitEvent, state]; rfl
  | _ =>
    cases run
    exact of_quiet rfl rfl fun actions => by simp only [MasterFSM.emitEvent, state]

theorem waitClientPacketDone (state : m.m_fsm.m_state = .waitClientPacketDone)
    (run : m.waitClientPacketDoneEvent rxInProgress ev = .ok e) : HandlesAlike m rxInProgress ev e := by
  have silent : m.m_fsm.m_state ≠ .waitAddressReply := by rw [state]; rintro ⟨⟩
  cases ev with
  | rx_pkt_client_packet => exact of_report silent run fun actions => by simp only [MasterFSM.emitEvent, state]
  | rx_return_token => exact of_report silent run fun actions => by simp only [MasterFSM.emitEvent, state]
  | timer_timeout =>
    cases rxInProgress with
    | true =>
      cases run
      exact of_quiet rfl rfl fun actions => by simp only [MasterFSM.emitEvent, state]; rfl
    | false => exact of_report silent run fun actions => by simp only [MasterFSM.emitEvent, state]; rfl
  | _ =>
    cases run
    exact of_quiet rfl rfl fun actions => by simp only [MasterFSM.emitEvent, state]

theorem queryAddress (state : m.m_fsm.m_state = .queryAddress)
    (run : m.queryAddressEvent rxInProgress ev = .ok e) : HandlesAlike m rxInProgress ev e := by
  have silent : m.m_fsm.m_state ≠ .waitAddressReply := by rw [state]; rintro ⟨⟩
  cases ev with
  | rx_pkt_address_request aReq =>
    cases run
    have fsm : ((m.receivedAddressRequest aReq).transition .waitAddressReply).m_fsm =
        m.m_fsm.transition .waitAddressReply := by
      rw [transition, receivedAddressRequest_fsm]
      rfl
    exact of_quiet (receivedAddressRequest_now ..) (by rw [fsm]; rfl) fun actions => by
      rw [fsm]
      simp only [MasterFSM.emitEvent, state]
  | timer_timeout =>
    cases rxInProgress with
    | true =>
      cases run
      exact of_quiet rfl rfl fun actions => by simp only [MasterFSM.emitEvent, state]; rfl
    | false => exact of_report silent run fun actions => by simp only [MasterFSM.emitEvent, state]; rfl
  | _ =>
    cases run
    exact of_quiet rfl rfl fun actions => by simp only [MasterFSM.emitEvent, state]

theorem waitAddressReply (state : m.m_fsm.m_state = .waitAddressReply)
    (run : m.waitAddressReplyEvent rxInProgress ev = .ok e) : HandlesAlike m rxInProgress ev e := by
  cases ev with
  | timer_timeout =>
    cases rxInProgress with
    | true =>
      cases run
      exact of_quiet rfl rfl fun actions => by simp only [MasterFSM.emitEvent, state]; rfl
    | false =>
      cases run
      exact of_quiet rfl rfl fun actions => by simp only [MasterFSM.emitEvent, state]; rfl
  | _ =>
    cases run
    exact of_quiet rfl rfl fun actions => by simp only [MasterFSM.emitEvent, state]

theorem emitEvent (run : m.emitEvent rxInProgress ev = .ok e) : HandlesAlike m rxInProgress ev e := by
  unfold Master.emitEvent at run
  cases state : m.m_fsm.m_state with
  | idle => exact idle state (by rw [state] at run; exact run)
  | startMaster => exact startMaster state (by rw [state] at run; exact run)
  | sendingToken => exact sendingToken state (by rw [state] at run; exact run)
  | waitClientPacketDone => exact waitClientPacketDone state (by rw [state] at run; exact run)
  | queryAddress => exact queryAddress state (by rw [state] at run; exact run)
  | waitAddressReply => exact waitAddressReply state (by rw [state] at run; exact run)

end HandlesAlike

theorem prepareTransition_fsm (run : m.prepareTransition = .ok m') :
    ∃ started, ∀ env : Surroundings, env.now = m.m_now →
      (m.m_fsm.m_state = .waitAddressReply → env.starts .address_query_done = started) →
      m.m_fsm.prepareTransition env = .ok m'.m_fsm := by
  unfold prepareTransition at run
  split at run
  · rename_i settled
    cases run
    refine ⟨[], fun env _ _ => ?_⟩
    rw [MasterFSM.prepareTransition, settled]
  · rename_i s requested
    obtain ⟨left, exit, entered⟩ := Except.bind_eq_ok_iff.mp run
    cases entered
    have exited : left.m_now = m.m_now ∧ ∃ started, ∀ env : Surroundings,
        (m.m_fsm.m_state = .waitAddressReply → env.starts .address_query_done = started) →
        MasterFSM.exitState { m.m_fsm with m_nextState := none } env = .ok left.m_fsm := by
      unfold exitState at exit
      cases state : m.m_fsm.m_state with
      | idle =>
        simp only [state] at exit
        cases exit
        exact ⟨rfl, [], fun env _ => by simp only [MasterFSM.exitState, state]⟩
      | waitAddressReply =>
        simp only [state] at exit
        obtain ⟨now, _, started, same⟩ := reportActionResult_fsm exit
        refine ⟨now, started, fun env starts => ?_⟩
        rw [← same env (starts rfl)]
        simp only [MasterFSM.exitState, state]
        rfl
      | _ =>
        simp only [state] at exit
        cases exit
        exact ⟨rfl, [], fun env _ => by simp only [MasterFSM.exitState, state]; rfl⟩
    obtain ⟨now, started, same⟩ := exited
    refine ⟨started, fun env clock starts => ?_⟩
    simp only [MasterFSM.prepareTransition, requested, same env starts, bind, Except.bind]
    rw [enterState_fsm, clock, now]

theorem turn_fsm (waiting : m.m_fsm.m_eventQueue ≠ []) (run : m.turn rxInProgress = .ok m') :
    ∃ env, m.m_fsm.turn env = .ok m'.m_fsm := by
  unfold turn at run
  split at run
  · rename_i empty
    exact absurd empty waiting
  · rename_i ev rest queue
    obtain ⟨processed, process, popped⟩ := Except.bind_eq_ok_iff.mp run
    obtain ⟨emitted, emit, prepare⟩ := Except.bind_eq_ok_iff.mp process
    cases popped
    obtain ⟨now, state, started, handled⟩ := HandlesAlike.emitEvent emit
    obtain ⟨left, prepared⟩ := prepareTransition_fsm prepare
    -- only one of the two can have something to report
    obtain ⟨actions, silent, reply⟩ : ∃ actions, (m.m_fsm.m_state ≠ .waitAddressReply → actions = started) ∧
        (m.m_fsm.m_state = .waitAddressReply → actions = left) :=
      ⟨if m.m_fsm.m_state = .waitAddressReply then left else started, fun other => if_neg other,
        fun same => if_pos same⟩
    have first := handled actions silent
    have second := prepared (m.surroundings rxInProgress actions) now.symm
      fun waits => reply (state.symm.trans waits)
    refine ⟨m.surroundings rxInProgress actions, ?_⟩
    simp only [MasterFSM.turn, queue]
    exact Except.bind_eq_ok_iff.mpr ⟨_, first, Except.bind_eq_ok_iff.mpr ⟨_, second, rfl⟩⟩

end Parts

/-! Runs -/

theorem packetEvent_isRx {bb : ByteVec} {ev : Event} (event : packetEvent bb = some ev) :
    MasterFSM.isRx ev = true := by
  unfold packetEvent at event
  split at event
  · obtain ⟨type, _, event⟩ := Option.bind_eq_some_iff.mp event
    cases type with
    | address_request =>
      obtain ⟨_, _, rfl⟩ := Option.map_eq_some_iff.mp event
      rfl
    | address_discovery => cases event
    | address_reply => cases event
    | _ =>
      cases event
      rfl
  · cases event

section Runs

variable {cfg : Config} {node : PacketTypeCodec} {uninitialised : Nat → UniqueId} {now : ℚ} {m m' : Master}

/-- A step of the master is a step of its state machine, or leaves it alone. -/
theorem Synced.step_fsm (synced : Synced m) {l : Label} (step : Step m l m') (fired : Option FsmTimeout) :
    m'.m_fsm = m.m_fsm ∨ ∃ input fired', MasterFSM.Step (m.m_fsm, fired) input (m'.m_fsm, fired') := by
  cases step with
  | turn waiting run =>
    obtain ⟨env, turn⟩ := turn_fsm waiting run
    obtain ⟨ev, rest, queue⟩ := List.exists_cons_of_ne_nil waiting
    exact Or.inr ⟨_, _, .turn queue turn⟩
  | @stimulus _ now' s queue later enabled run =>
    cases stimulate_cases queue enabled synced.sameAction run with
    | @packet bb _ _ effects received =>
      obtain ⟨_, _, _, told⟩ := PacketTypeCodec.rxRawPacket_reaction received
      have events := filterMap_masterEvent synced.registered told
      cases event : packetEvent bb with
      | none =>
        refine Or.inl ?_
        simp only [events, event, Option.toList_none, ← queue]
      | some ev =>
        have posted : MasterFSM.postEvent m.m_fsm ev =
            { m.m_fsm with m_eventQueue := effects.filterMap masterEvent } := by
          rw [MasterFSM.postEvent, events, event, queue]
          rfl
        exact Or.inr ⟨_, fired, by rw [← posted]; exact .packet queue (packetEvent_isRx event)⟩
    | sendPacket => exact Or.inl rfl
    | sendMacUpdate => exact Or.inl rfl
    | @timer timeout =>
      have posted : MasterFSM.postEvent { m.m_fsm with m_timer := m.m_fsm.m_timer.expire timeout } .timer_timeout =
          { m.m_fsm with m_timer := m.m_fsm.m_timer.expire timeout, m_eventQueue := [.timer_timeout] } := by
        rw [MasterFSM.postEvent, queue]
        rfl
      exact Or.inr ⟨_, _, by rw [← posted]; exact .timer queue enabled⟩
    | delayBusy _ => exact Or.inl rfl
    | @delayIdle timeout nothing =>
      rcases startNext_cases { m.wake now' with m_actionHandler := { m.m_actionHandler with
        m_delayAction := m.m_actionHandler.m_delayAction.expire timeout } } with
        ⟨front, _, fsm, _, _⟩ | ⟨_, fsm, _, _⟩
      · have inactive : m.m_fsm.m_currentAction.m_action = .do_nothing := by
          rw [synced.sameAction] at nothing
          exact of_decide_eq_true nothing
        have call : m.m_fsm.startAction front = .ok { m.m_fsm with
            m_currentAction := front, m_eventQueue := m.m_fsm.m_eventQueue ++ [.check_new_command] } := by
          simp [MasterFSM.startAction, MasterFSM.actionActive, inactive, MasterFSM.postEvent]
        exact Or.inr ⟨_, fired, by rw [fsm]; exact .startAction queue call⟩
      · exact Or.inl fsm
    | discovery => exact Or.inl rfl
    | reordered _ => exact Or.inl rfl

theorem Reach.fsm {allowed : Master → Label → Prop} (reach : Reach allowed cfg node uninitialised now m) :
    ∃ fired, MasterFSM.Reach (m.m_fsm, fired) := by
  refine reach.invariant (P := fun m => ∃ fired, MasterFSM.Reach (m.m_fsm, fired)) ⟨none, ?_⟩ ?_
  · have call : MasterFSM.initial.startAction Action.makeMasterStartAction.withReport =
        .ok (started cfg node uninitialised now).m_fsm := rfl
    exact .next .start trivial (.startAction rfl call)
  · intro m m' l synced run _ step
    obtain ⟨fired, run⟩ := run
    rcases synced.step_fsm step fired with same | ⟨input, fired', taken⟩
    · exact ⟨fired, by rw [same]; exact run⟩
    · exact ⟨fired', .next run trivial taken⟩

end Runs

end SerialNet.Master
