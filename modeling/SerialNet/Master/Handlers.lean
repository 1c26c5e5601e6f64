import SerialNet.Master.EventLoop

namespace SerialNet.Master

/-! What the states' code reads and what it leaves alone: the state it runs in, the events
that are already waiting and the packets that are already sent are nothing to it. -/

/-- The master in some state, with events that wait before its own and packets sent before
its own. -/
def amid (m : Master) (s : StateId) (waiting : List Event) (sent : List Effect) : Master :=
  { m with
    m_fsm := { m.m_fsm with m_state := s, m_eventQueue := waiting ++ m.m_fsm.m_eventQueue }
    m_out := sent ++ m.m_out }

variable (m : Master) (s : StateId) (waiting : List Event) (sent : List Effect)

theorem amid_self : m.amid m.m_fsm.m_state [] [] = m := rfl

theorem sendMasterPacket_amid (bb : ByteVec) :
    (m.amid s waiting sent).sendMasterPacket bb = (m.sendMasterPacket bb).amid s waiting sent := by
  simp only [amid, sendMasterPacket, List.append_assoc]

theorem sendClientPacket_amid :
    (m.amid s waiting sent).sendClientPacket = m.sendClientPacket.amid s waiting sent := by
  simp only [amid, sendClientPacket, List.append_assoc]

theorem startAction_amid (action : Action) :
    (m.amid s waiting sent).startAction action = (m.startAction action).map (·.amid s waiting sent) := by
  have same : (m.amid s waiting sent).actionActive = m.actionActive := rfl
  unfold startAction
  rw [same]
  split
  · rfl
  · refine congrArg Except.ok ?_
    simp only [amid, postEvent, List.append_assoc]

theorem checkNewAction_amid :
    (m.amid s waiting sent).checkNewAction = m.checkNewAction.map (·.amid s waiting sent) := by
  have same : (m.amid s waiting sent).m_actionHandler = m.m_actionHandler := rfl
  have now : (m.amid s waiting sent).m_now = m.m_now := rfl
  unfold checkNewAction
  simp only [same, now]
  split
  · generalize m.m_actionHandler.m_scheduler.release m.m_now = scheduler
    obtain ⟨waitingActions, ready⟩ := scheduler
    cases ready with
    | nil =>
      dsimp only
      split
      · rfl
      · rfl
    | cons front rest =>
      exact startAction_amid
        { m with m_actionHandler := ⟨⟨waitingActions, rest⟩, m.m_actionHandler.m_delayAction, front⟩ } s waiting sent
        front
  · rfl

theorem dynamicCall_amid (call : DynamicCall) :
    (m.amid s waiting sent).dynamicCall call = (m.dynamicCall call).amid s waiting sent := by
  cases call with
  | postActionNow a => rfl
  | postAction a time => rfl
  | sendAddressReply addr id => exact sendMasterPacket_amid m s waiting sent _

theorem foldl_dynamicCall_amid (calls : List DynamicCall) :
    calls.foldl dynamicCall (m.amid s waiting sent) = (calls.foldl dynamicCall m).amid s waiting sent :=
  List.foldl_hom (·.amid s waiting sent) fun m call => dynamicCall_amid m s waiting sent call

theorem updateAddressLine_amid (addr : LocalAddress) (newState : AddressLine.State) :
    (m.amid s waiting sent).updateAddressLine addr newState =
      (m.updateAddressLine addr newState).map (·.amid s waiting sent) := by
  have same : (m.amid s waiting sent).m_dynamicHandler = m.m_dynamicHandler := rfl
  have now : (m.amid s waiting sent).m_now = m.m_now := rfl
  unfold updateAddressLine
  rw [same, now]
  cases m.m_dynamicHandler.updateAddressLine m.m_now addr newState with
  | none => rfl
  | some result =>
    obtain ⟨m_dynamicHandler, calls⟩ := result
    exact congrArg Except.ok (foldl_dynamicCall_amid { m with m_dynamicHandler } s waiting sent calls)

theorem receivedAddressRequest_amid (aReq : packet.AddressRequest) :
    (m.amid s waiting sent).receivedAddressRequest aReq = (m.receivedAddressRequest aReq).amid s waiting sent :=
  foldl_dynamicCall_amid
    { m with m_dynamicHandler := (m.m_dynamicHandler.receivedAddressRequest aReq).1 } s waiting sent _

theorem handleActionResult_amid (rv : ReturnValue) :
    (m.amid s waiting sent).handleActionResult rv = (m.handleActionResult rv).map (·.amid s waiting sent) := by
  have check : ∀ x : Except Fault Master, (x.map (·.amid s waiting sent) >>= checkNewAction) =
      (x >>= checkNewAction).map (·.amid s waiting sent) := by
    intro x
    cases x with
    | error fault => rfl
    | ok m' => exact checkNewAction_amid m' s waiting sent
  let cleared : Master := { m with m_actionHandler :=
    { m.m_actionHandler with m_currentAction := Action.makeDoNothingAction } }
  have token : ∀ newState, ((cleared.amid s waiting sent).updateAddressLine
      m.m_actionHandler.m_currentAction.m_address newState >>= checkNewAction) =
        (cleared.updateAddressLine m.m_actionHandler.m_currentAction.m_address newState >>= checkNewAction).map
          (·.amid s waiting sent) := by
    intro newState
    rw [updateAddressLine_amid, check]
  cases rv with
  | client_packet_started => exact token .active
  | rx_token_no_packet => exact token .idle
  | token_timeout => exact token .badClient
  | address_query_done => exact checkNewAction_amid cleared.addressDiscoveryIsDone s waiting sent
  | ok => exact checkNewAction_amid cleared s waiting sent
  | timeout => rfl
  | not_set => rfl

theorem reportActionResult_amid (rv : ReturnValue) :
    (m.amid s waiting sent).reportActionResult rv = (m.reportActionResult rv).map (·.amid s waiting sent) := by
  have same : (m.amid s waiting sent).m_fsm.m_currentAction = m.m_fsm.m_currentAction := rfl
  simp only [reportActionResult, same]
  split
  · exact handleActionResult_amid
      { m with
        m_fsm := { m.m_fsm with m_currentAction := Action.makeDoNothingAction }
        m_log := { m.m_log with reports := m.m_log.reports ++ [(m.m_log.ticket, rv)] } } s waiting sent rv
  · rfl

/-! The states -/

theorem reportAndIdle_amid (rv : ReturnValue) :
    (m.amid s waiting sent).reportAndIdle rv = (m.reportAndIdle rv).map (·.amid s waiting sent) := by
  unfold reportAndIdle
  rw [reportActionResult_amid]
  cases m.reportActionResult rv with
  | error fault => rfl
  | ok reported => rfl

theorem decodeAction_amid (action : Action) :
    (m.amid s waiting sent).decodeAction action = (m.decodeAction action).map (·.amid s waiting sent) := by
  have same : (m.amid s waiting sent).m_node = m.m_node := rfl
  unfold decodeAction
  cases action.m_action with
  | do_nothing => rfl
  | send_token =>
    dsimp only
    rw [same]
    split
    · split
      · exact reportActionResult_amid m s waiting sent _
      · rw [sendClientPacket_amid]
        rfl
    · exact congrArg (fun m : Master => Except.ok (m.transition .sendingToken))
        (sendMasterPacket_amid m s waiting sent _)
  | query_address => rfl
  | send_master_start => rfl

/-- A wait that goes on while a packet is coming in. -/
theorem ite_amid {rxInProgress : Bool} {x y x' y' : Except Fault Master} (first : x = x'.map (·.amid s waiting sent))
    (second : y = y'.map (·.amid s waiting sent)) :
    (if rxInProgress then x else y) = (if rxInProgress then x' else y').map (·.amid s waiting sent) := by
  cases rxInProgress with
  | true => exact first
  | false => exact second

/-- The handler of an event does not see which state object it is run for, once it has
been chosen. -/
theorem emitEvent_amid (rxInProgress : Bool) (ev : Event) :
    (m.amid m.m_fsm.m_state waiting sent).emitEvent rxInProgress ev =
      (m.emitEvent rxInProgress ev).map (·.amid m.m_fsm.m_state waiting sent) := by
  have same : (m.amid m.m_fsm.m_state waiting sent).m_fsm.m_state = m.m_fsm.m_state := rfl
  unfold emitEvent
  rw [same]
  generalize m.m_fsm.m_state = s
  cases s with
  | idle =>
    cases ev with
    | check_new_command => exact decodeAction_amid m _ waiting sent _
    | _ => rfl
  | startMaster =>
    cases ev with
    | rx_pkt_master_start_stop => exact reportAndIdle_amid m _ waiting sent _
    | timer_timeout => exact reportAndIdle_amid m _ waiting sent _
    | _ => rfl
  | sendingToken => cases ev <;> rfl
  | waitClientPacketDone =>
    cases ev with
    | rx_pkt_client_packet => exact reportAndIdle_amid m _ waiting sent _
    | rx_return_token => exact reportAndIdle_amid m _ waiting sent _
    | timer_timeout => exact ite_amid _ waiting sent rfl (reportAndIdle_amid m _ waiting sent _)
    | _ => rfl
  | queryAddress =>
    cases ev with
    | timer_timeout => exact ite_amid _ waiting sent rfl (reportAndIdle_amid m _ waiting sent _)
    | rx_pkt_address_request aReq =>
      exact congrArg (fun m : Master => Except.ok (m.transition .waitAddressReply))
        (receivedAddressRequest_amid m _ waiting sent aReq)
    | _ => rfl
  | waitAddressReply =>
    cases ev with
    | timer_timeout => exact ite_amid _ waiting sent rfl rfl
    | _ => rfl

theorem exitState_amid :
    (m.amid m.m_fsm.m_state waiting sent).exitState = m.exitState.map (·.amid m.m_fsm.m_state waiting sent) := by
  have same : (m.amid m.m_fsm.m_state waiting sent).m_fsm.m_state = m.m_fsm.m_state := rfl
  unfold exitState
  rw [same]
  generalize m.m_fsm.m_state = s
  cases s with
  | waitAddressReply => exact reportActionResult_amid m.cleanTimer _ waiting sent _
  | _ => rfl

/-- The constructor of a state does not see which state was there before. -/
theorem enterState_amid (t : StateId) :
    (m.amid s waiting sent).enterState t = (m.enterState t).amid t waiting sent := by
  cases t with
  | startMaster => simp only [amid, enterState, sendMasterStart, sendMasterPacket, startTimer, List.append_assoc]
  | queryAddress => simp only [amid, enterState, sendAddressDiscovery, sendMasterPacket, startTimer, List.append_assoc]
  | _ => rfl

/-- A callback begins with nothing sent. -/
theorem stimulate_amid (now : ℚ) (stimulus : Stimulus) :
    (m.amid s waiting sent).stimulate now stimulus = (m.stimulate now stimulus).map (·.amid s waiting []) := by
  cases stimulus with
  | rxRawPacket bb stack =>
    have same : (m.amid s waiting sent).m_node = m.m_node := rfl
    simp only [stimulate, same]
    cases m.m_node.rxRawPacket bb stack with
    | none => rfl
    | some result =>
      obtain ⟨m_node, effects⟩ := result
      refine congrArg Except.ok ?_
      rw [foldl_nodeEffect, foldl_nodeEffect]
      simp only [amid, List.append_assoc, List.nil_append]
  | msgHostTx_sendPacket data destAddr chType => rfl
  | msgHostTx_sendMacUpdate mac => rfl
  | timer timeout =>
    refine congrArg Except.ok ?_
    simp only [amid, postEvent, List.append_assoc, List.nil_append]
  | delayAction timeout =>
    exact checkNewAction_amid
      { m with
        m_now := now
        m_out := []
        m_actionHandler := { m.m_actionHandler with
          m_delayAction := m.m_actionHandler.m_delayAction.expire timeout } } s waiting []
  | discovery timeout => rfl
  | reordered ties => rfl

end SerialNet.Master
