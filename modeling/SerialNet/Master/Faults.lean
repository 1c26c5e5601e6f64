import SerialNet.Master.Turns

namespace SerialNet.Master

/-! Reports -/

/-- No line of the table has the address of the action in progress. -/
def Unlisted (m : Master) : Prop :=
  m.m_actionHandler.m_currentAction.m_address ∉ m.m_dynamicHandler.m_table.map (·.m_address)

/-- The results whose report does not come to an end. -/
inductive ReportFault (m : Master) (rv : ReturnValue) : Fault → Prop
  | unhandled : rv = .timeout ∨ rv = .not_set → ReportFault m rv .badReturnValue
  | missing : (lineState rv).isSome = true → m.Unlisted → ReportFault m rv .noLine

/-- The dynamic handler does not touch the action in progress. -/
theorem foldl_dynamicCall_frame (calls : List DynamicCall) (m : Master) :
    (calls.foldl dynamicCall m).m_fsm = m.m_fsm ∧
      (calls.foldl dynamicCall m).m_actionHandler.m_currentAction = m.m_actionHandler.m_currentAction := by
  induction calls generalizing m with
  | nil => exact ⟨rfl, rfl⟩
  | cons call rest ih =>
    obtain ⟨fsm, action⟩ := ih (m.dynamicCall call)
    rw [List.foldl_cons, fsm, action]
    cases call <;> exact ⟨rfl, rfl⟩

theorem tokenResult_error {m : Master} {rv : ReturnValue} {newState : AddressLine.State} {f : Fault}
    (state : lineState rv = some newState)
    (run : (m.clear rv).updateAddressLine m.m_actionHandler.m_currentAction.m_address newState >>=
      checkNewAction = .error f) : ReportFault m rv f := by
  unfold Master.updateAddressLine at run
  rcases Except.bind_eq_error_iff.mp run with update | ⟨updated, update, check⟩
  · split at update
    · rename_i missing
      cases update
      refine .missing (by rw [state]; rfl) ?_
      intro present
      obtain ⟨dh, calls, found⟩ := DynamicHandler.updateAddressLine_total present m.m_now newState
      have nothing : m.m_dynamicHandler.updateAddressLine m.m_now
        m.m_actionHandler.m_currentAction.m_address newState = none := missing
      rw [nothing] at found
      cases found
    · cases update
  · -- the action is cleared at both ends by now, so that another one can be started
    split at update
    · cases update
    · rename_i dh calls _
      cases update
      obtain ⟨fsm, action⟩ := foldl_dynamicCall_frame calls { m.clear rv with m_dynamicHandler := dh }
      rw [checkNewAction_idle (by rw [action]; rfl) (by rw [actionActive, fsm]; rfl)] at check
      cases check

theorem reportActionResult_error {m : Master} {rv : ReturnValue} {f : Fault}
    (run : m.reportActionResult rv = .error f) : ReportFault m rv f := by
  simp only [reportActionResult] at run
  split at run
  · cases rv with
    | client_packet_started => exact tokenResult_error rfl run
    | rx_token_no_packet => exact tokenResult_error rfl run
    | token_timeout => exact tokenResult_error rfl run
    | address_query_done =>
      have next : (m.clear .address_query_done).addressDiscoveryIsDone.checkNewAction = .error f := run
      rw [checkNewAction_idle rfl rfl] at next
      cases next
    | ok =>
      have next : (m.clear .ok).checkNewAction = .error f := run
      rw [checkNewAction_idle rfl rfl] at next
      cases next
    | timeout =>
      cases run
      exact .unhandled (Or.inl rfl)
    | not_set =>
      cases run
      exact .unhandled (Or.inr rfl)
  · cases run

theorem reportAndIdle_error {m : Master} {rv : ReturnValue} {f : Fault} (run : m.reportAndIdle rv = .error f) :
    ReportFault m rv f := by
  rcases Except.bind_eq_error_iff.mp run with report | ⟨_, _, idle⟩
  · exact reportActionResult_error report
  · cases idle

/-- The end of a token action fails only where the address has no line. -/
theorem ReportFault.of_token {m : Master} {rv : ReturnValue} {f : Fault} (fault : ReportFault m rv f)
    (token : (lineState rv).isSome = true) : f = .noLine ∧ m.Unlisted := by
  cases fault with
  | unhandled other => rcases other with rfl | rfl <;> cases token
  | missing _ unlisted => exact ⟨rfl, unlisted⟩

/-- The end of a search for clients does not fail. -/
theorem ReportFault.not_query {m : Master} {f : Fault} : ¬ ReportFault m .address_query_done f := by
  intro fault
  cases fault with
  | unhandled other => rcases other with other | other <;> cases other
  | missing token _ => cases token

/-! Turns -/

/-- Everything that stops a turn of the event loop. -/
inductive TurnFault (m : Master) : Event → Fault → Prop
  | unhandled : m.m_fsm.m_state = .startMaster → TurnFault m .timer_timeout .badReturnValue
  | missing {ev} : m.Unlisted → (m.m_fsm.m_state = .idle ∧ m.m_fsm.m_currentAction.m_action = .send_token ∨
      m.m_fsm.m_state = .waitClientPacketDone) → TurnFault m ev .noLine

theorem prepareTransition_error {m : Master} {f : Fault} : m.prepareTransition ≠ .error f := by
  intro run
  unfold prepareTransition at run
  split at run
  · cases run
  · rcases Except.bind_eq_error_iff.mp run with left | ⟨_, _, entered⟩
    · unfold exitState at left
      split at left
      · cases left
      · exact ReportFault.not_query (reportActionResult_error left)
      · cases left
    · cases entered

theorem emitEvent_error {m : Master} {rxInProgress : Bool} {ev : Event} {f : Fault}
    (run : m.emitEvent rxInProgress ev = .error f) : TurnFault m ev f := by
  unfold emitEvent at run
  cases state : m.m_fsm.m_state with
  | idle =>
    rw [state] at run
    cases ev <;> try cases run
    simp only [idleEvent, decodeAction] at run
    split at run
    · cases run
    · rename_i action
      split at run
      · split at run
        · obtain ⟨rfl, unlisted⟩ := (reportActionResult_error run).of_token rfl
          exact .missing unlisted (Or.inl ⟨state, action⟩)
        · cases run
      · cases run
    · cases run
    · cases run
  | startMaster =>
    rw [state] at run
    cases ev <;> try cases run
    · cases reportAndIdle_error run with
      | unhandled other => rcases other with other | other <;> cases other
      | missing token _ => cases token
    · cases reportAndIdle_error run with
      | unhandled _ => exact .unhandled state
      | missing token _ => cases token
  | sendingToken =>
    rw [state] at run
    cases ev <;> cases run
  | waitClientPacketDone =>
    rw [state] at run
    have token : ∀ {rv}, (lineState rv).isSome = true → m.reportAndIdle rv = .error f → TurnFault m ev f := by
      intro rv token report
      obtain ⟨rfl, unlisted⟩ := (reportAndIdle_error report).of_token token
      exact .missing unlisted (Or.inr state)
    cases ev with
    | rx_pkt_client_packet => exact token rfl run
    | rx_return_token => exact token rfl run
    | timer_timeout =>
      cases rxInProgress with
      | true => cases run
      | false => exact token rfl run
    | _ => cases run
  | queryAddress =>
    rw [state] at run
    cases ev with
    | timer_timeout =>
      cases rxInProgress with
      | true => cases run
      | false => exact absurd (reportAndIdle_error run) ReportFault.not_query
    | _ => cases run
  | waitAddressReply =>
    rw [state] at run
    cases ev with
    | timer_timeout => cases rxInProgress <;> cases run
    | _ => cases run

theorem turn_error {m : Master} {rxInProgress : Bool} {f : Fault} (run : m.turn rxInProgress = .error f) :
    ∃ ev rest, m.m_fsm.m_eventQueue = ev :: rest ∧ TurnFault m ev f := by
  unfold turn at run
  split at run
  · cases run
  · rename_i ev rest queue
    refine ⟨ev, rest, queue, ?_⟩
    rcases Except.bind_eq_error_iff.mp run with process | ⟨_, _, popped⟩
    · rcases Except.bind_eq_error_iff.mp process with emit | ⟨_, _, prepare⟩
      · cases emitEvent_error emit with
        | unhandled state => exact .unhandled state
        | missing unlisted where_ => exact .missing unlisted where_
      · exact absurd prepare prepareTransition_error
    · cases popped

/-! Callbacks -/

theorem checkNewAction_error {m : Master} {f : Fault} (run : m.checkNewAction = .error f) :
    m.m_actionHandler.m_currentAction.doNothing = true ∧ m.actionActive = true ∧ f = .actionActive := by
  by_cases nothing : m.m_actionHandler.m_currentAction.doNothing = true
  · by_cases active : m.actionActive = true
    · refine ⟨nothing, active, ?_⟩
      simp only [checkNewAction, nothing, if_true] at run
      split at run
      · unfold startAction at run
        split at run
        · exact (Except.error.inj run).symm
        · cases run
      · split at run <;> cases run
    · rw [checkNewAction_idle nothing (Bool.eq_false_iff.mpr active)] at run
      cases run
  · rw [checkNewAction_busy (Bool.eq_false_iff.mpr nothing)] at run
    cases run

/-- A callback stops at a packet that is too short, or when an action is to be
started while the state machine has one. -/
theorem stimulate_error {m : Master} {now : ℚ} {s : Stimulus} {f : Fault} (run : m.stimulate now s = .error f) :
    f = .shortPacket ∨
      (m.m_actionHandler.m_currentAction.doNothing = true ∧ m.actionActive = true ∧ f = .actionActive) := by
  cases s with
  | rxRawPacket bb stack =>
    simp only [stimulate] at run
    split at run
    · exact Or.inl (Except.error.inj run).symm
    · cases run
  | delayAction timeout =>
    have stopped := checkNewAction_error run
    exact Or.inr stopped
  | _ => cases run

end SerialNet.Master
