import SerialNet.Master.Phases

namespace SerialNet

/-- What the state machine is told by the objects around it while it processes one
event, and the actions that are started in answer to each result it reports. -/
structure Surroundings where
  now : ℚ
  rxInProgress : Bool
  clientAddress : LocalAddress
  txQueueEmpty : Bool
  starts : ReturnValue → List Action

/-! The state machine on its own. Here nothing is assumed about who starts its actions
and who receives its results; what it sends is left out. -/

namespace MasterFSM

def postEvent (f : MasterFSM) (ev : Event) : MasterFSM := { f with m_eventQueue := f.m_eventQueue ++ [ev] }

def transition (f : MasterFSM) (id : StateId) : MasterFSM := { f with m_nextState := some id }

def startTimer (f : MasterFSM) (now interval : ℚ) : MasterFSM :=
  { f with m_timer := f.m_timer.assign ⟨now + interval, f.m_object⟩ }

def cleanTimer (f : MasterFSM) : MasterFSM := { f with m_timer := f.m_timer.cancel }

def actionActive (f : MasterFSM) : Bool := f.m_currentAction.m_action ≠ .do_nothing

def startAction (f : MasterFSM) (action : Action) : Except Fault MasterFSM :=
  if f.actionActive then .error .actionActive
  else .ok ({ f with m_currentAction := action }.postEvent .check_new_command)

def reportActionResult (f : MasterFSM) (env : Surroundings) (rv : ReturnValue) : Except Fault MasterFSM :=
  let cb := f.m_currentAction.m_reportCB
  let f := { f with m_currentAction := Action.makeDoNothingAction }
  if cb then (env.starts rv).foldlM startAction f else .ok f

def enterState (f : MasterFSM) (now : ℚ) (s : StateId) : MasterFSM :=
  let f := { f with m_state := s, m_object := f.m_object + 1 }
  match s with
  | .idle => f
  | .startMaster => f.startTimer now (1 / 10)
  | .sendingToken => f.startTimer now Config.masterTokenGrantTx2RxTime
  | .waitClientPacketDone => f.startTimer now Config.masterTokenClientTimeout
  | .queryAddress => f.startTimer now Config.masterTokenClientTimeout
  | .waitAddressReply => f.startTimer now Config.masterTokenClientTimeout

def exitState (f : MasterFSM) (env : Surroundings) : Except Fault MasterFSM :=
  match f.m_state with
  | .idle => .ok f
  | .waitAddressReply => f.cleanTimer.reportActionResult env .address_query_done
  | _ => .ok f.cleanTimer

def prepareTransition (f : MasterFSM) (env : Surroundings) : Except Fault MasterFSM :=
  match f.m_nextState with
  | none => .ok f
  | some s => do
    let left ← { f with m_nextState := none }.exitState env
    .ok (left.enterState env.now s)

def decodeAction (f : MasterFSM) (env : Surroundings) (action : Action) : Except Fault MasterFSM :=
  match action.m_action with
  | .do_nothing => .ok f
  | .send_token =>
    if action.m_address = env.clientAddress then
      if env.txQueueEmpty then f.reportActionResult env .rx_token_no_packet
      else .ok (f.transition .waitClientPacketDone)
    else
      .ok (f.transition .sendingToken)
  | .query_address => .ok (f.transition .queryAddress)
  | .send_master_start => .ok (f.transition .startMaster)

def reportAndIdle (f : MasterFSM) (env : Surroundings) (rv : ReturnValue) : Except Fault MasterFSM := do
  let reported ← f.reportActionResult env rv
  .ok (reported.transition .idle)

/-- A wait is over, unless a packet is just coming in. -/
def timeout (f : MasterFSM) (env : Surroundings) (expired : Except Fault MasterFSM) : Except Fault MasterFSM :=
  if env.rxInProgress then .ok (f.startTimer env.now Config.masterTokenClientTimeout) else expired

def emitEvent (f : MasterFSM) (env : Surroundings) (ev : Event) : Except Fault MasterFSM :=
  match f.m_state, ev with
  | .idle, .check_new_command => f.decodeAction env f.m_currentAction
  | .startMaster, .rx_pkt_master_start_stop => f.reportAndIdle env .ok
  | .startMaster, .timer_timeout => f.reportAndIdle env .timeout
  | .sendingToken, .rx_pkt_grant_token => .ok (f.transition .waitClientPacketDone)
  | .sendingToken, .timer_timeout => .ok (f.transition .idle)
  | .waitClientPacketDone, .rx_pkt_client_packet => f.reportAndIdle env .client_packet_started
  | .waitClientPacketDone, .rx_return_token => f.reportAndIdle env .rx_token_no_packet
  | .waitClientPacketDone, .timer_timeout => f.timeout env (f.reportAndIdle env .token_timeout)
  | .queryAddress, .timer_timeout => f.timeout env (f.reportAndIdle env .address_query_done)
  | .queryAddress, .rx_pkt_address_request _ => .ok (f.transition .waitAddressReply)
  | .waitAddressReply, .timer_timeout => f.timeout env (.ok (f.transition .idle))
  | _, _ => .ok f

def turn (f : MasterFSM) (env : Surroundings) : Except Fault MasterFSM :=
  match f.m_eventQueue with
  | [] => .ok f
  | ev :: _ => do
    let emitted ← f.emitEvent env ev
    let processed ← emitted.prepareTransition env
    .ok { processed with m_eventQueue := processed.m_eventQueue.tail }

/-! What a turn does -/

/-- Actions may have been started on the way, which nothing else tells. -/
def Acts (f f' : MasterFSM) : Prop :=
  ∃ action n, f' = { f with
    m_currentAction := action, m_eventQueue := f.m_eventQueue ++ List.replicate n .check_new_command }

namespace Acts

variable {f f' f'' : MasterFSM}

theorem refl (f : MasterFSM) : Acts f f := ⟨f.m_currentAction, 0, by simp⟩

theorem trans (first : Acts f f') (second : Acts f' f'') : Acts f f'' := by
  obtain ⟨_, n, rfl⟩ := first
  obtain ⟨action, k, rfl⟩ := second
  refine ⟨action, n + k, ?_⟩
  simp only [List.append_assoc, List.replicate_append_replicate]

theorem startAction {action : Action} (run : f.startAction action = .ok f') : Acts f f' := by
  unfold MasterFSM.startAction at run
  split at run
  · cases run
  · cases run
    exact ⟨action, 1, rfl⟩

theorem foldlM {actions : List Action} (run : actions.foldlM MasterFSM.startAction f = .ok f') : Acts f f' := by
  induction actions generalizing f with
  | nil =>
    cases run
    exact refl _
  | cons action rest ih =>
    rw [List.foldlM_cons] at run
    obtain ⟨started, first, later⟩ := Except.bind_eq_ok_iff.mp run
    exact (startAction first).trans (ih later)

theorem reportActionResult {env : Surroundings} {rv : ReturnValue} (run : f.reportActionResult env rv = .ok f') :
    Acts f f' := by
  have cleared : Acts f { f with m_currentAction := Action.makeDoNothingAction } :=
    ⟨Action.makeDoNothingAction, 0, by simp⟩
  simp only [MasterFSM.reportActionResult] at run
  split at run
  · exact cleared.trans (foldlM run)
  · cases run
    exact cleared

end Acts

/-- What the handler of an event leaves to be done. -/
inductive Emitted (f : MasterFSM) (env : Surroundings) (ev : Event) : MasterFSM → Prop
  | stays {f'} : Acts f f' → (ev = .timer_timeout → f.m_state = .idle) → Emitted f env ev f'
  | rearms {interval} : ev = .timer_timeout → f.m_state ≠ .idle → Emitted f env ev (f.startTimer env.now interval)
  | moves {f' s} : Acts f f' → (f.m_state = .idle → ev = .check_new_command) → Emitted f env ev (f'.transition s)

theorem Emitted.of_reportAndIdle {f e : MasterFSM} {env : Surroundings} {ev : Event} {rv : ReturnValue}
    (busy : f.m_state ≠ .idle) (run : f.reportAndIdle env rv = .ok e) : Emitted f env ev e := by
  obtain ⟨reported, report, idle⟩ := Except.bind_eq_ok_iff.mp run
  cases idle
  exact .moves (.reportActionResult report) fun idle => absurd idle busy

theorem emitEvent_cases {f e : MasterFSM} {env : Surroundings} {ev : Event} (run : f.emitEvent env ev = .ok e) :
    Emitted f env ev e := by
  unfold emitEvent at run
  split at run
  case h_1 state =>
    -- an action is looked at
    unfold decodeAction at run
    split at run
    · cases run
      exact .stays (.refl f) (by rintro ⟨⟩)
    · split at run
      · split at run
        · exact .stays (.reportActionResult run) (by rintro ⟨⟩)
        · cases run
          exact .moves (.refl f) fun _ => rfl
      · cases run
        exact .moves (.refl f) fun _ => rfl
    · cases run
      exact .moves (.refl f) fun _ => rfl
    · cases run
      exact .moves (.refl f) fun _ => rfl
  case h_2 state => exact .of_reportAndIdle (by rw [state]; rintro ⟨⟩) run
  case h_3 state => exact .of_reportAndIdle (by rw [state]; rintro ⟨⟩) run
  case h_4 state =>
    cases run
    exact .moves (.refl f) fun idle => by rw [state] at idle; cases idle
  case h_5 state =>
    cases run
    exact .moves (.refl f) fun idle => by rw [state] at idle; cases idle
  case h_6 state => exact .of_reportAndIdle (by rw [state]; rintro ⟨⟩) run
  case h_7 state => exact .of_reportAndIdle (by rw [state]; rintro ⟨⟩) run
  case h_8 state =>
    have busy : f.m_state ≠ .idle := by rw [state]; rintro ⟨⟩
    unfold timeout at run
    split at run
    · cases run
      exact .rearms rfl busy
    · exact .of_reportAndIdle busy run
  case h_9 state =>
    have busy : f.m_state ≠ .idle := by rw [state]; rintro ⟨⟩
    unfold timeout at run
    split at run
    · cases run
      exact .rearms rfl busy
    · exact .of_reportAndIdle busy run
  case h_10 state =>
    cases run
    exact .moves (.refl f) fun idle => by rw [state] at idle; cases idle
  case h_11 state =>
    have busy : f.m_state ≠ .idle := by rw [state]; rintro ⟨⟩
    unfold timeout at run
    split at run
    · cases run
      exact .rearms rfl busy
    · cases run
      exact .moves (.refl f) fun idle => absurd idle busy
  case h_12 notCheck _ start _ sending _ _ waiting query _ reply =>
    cases run
    refine .stays (.refl f) ?_
    intro ev
    subst ev
    cases state : f.m_state with
    | idle => rfl
    | startMaster => exact absurd rfl (start state)
    | sendingToken => exact absurd rfl (sending state)
    | waitClientPacketDone => exact absurd rfl (waiting state)
    | queryAddress => exact absurd rfl (query state)
    | waitAddressReply => exact absurd rfl (reply state)

end MasterFSM

end SerialNet
