import SerialNet.Master.Machine

namespace SerialNet.Master

/-! Starting the next action -/

/-- The first ready action is started. -/
def launch (m : Master) (front : Action) (rest : List Action) : Master :=
  { m with
    m_actionHandler := { m.m_actionHandler with
      m_scheduler := { m.m_actionHandler.m_scheduler.release m.m_now with m_ready := rest }
      m_currentAction := front }
    m_fsm := { m.m_fsm with
      m_currentAction := front, m_eventQueue := m.m_fsm.m_eventQueue ++ [.check_new_command] }
    m_log := { m.m_log with started := m.m_log.started + 1, ticket := m.m_log.started } }

/-- Nothing is ready; the timer is set for the first waiting action. -/
def await (m : Master) : Master :=
  let scheduler := m.m_actionHandler.m_scheduler.release m.m_now
  { m with m_actionHandler := { m.m_actionHandler with
      m_scheduler := scheduler
      m_delayAction := if scheduler.readyTime < 1 then m.m_actionHandler.m_delayAction
        else m.m_actionHandler.m_delayAction.assign scheduler.readyTime } }

/-- What `checkNewAction` does when no action is going on. -/
def startNext (m : Master) : Master :=
  match (m.m_actionHandler.m_scheduler.release m.m_now).m_ready with
  | front :: rest => m.launch front rest
  | [] => m.await

theorem checkNewAction_idle {m : Master} (nothing : m.m_actionHandler.m_currentAction.doNothing = true)
    (inactive : m.actionActive = false) : m.checkNewAction = .ok m.startNext := by
  have inactive' : m.m_fsm.m_currentAction.m_action = .do_nothing := by
    simpa [actionActive] using inactive
  simp only [checkNewAction, startNext, nothing, if_true]
  cases (m.m_actionHandler.m_scheduler.release m.m_now).m_ready with
  | cons front rest => simp [startAction, actionActive, inactive', postEvent, launch]
  | nil =>
    simp only [await, setScheduler]
    split <;> rfl

theorem checkNewAction_busy {m : Master} (busy : m.m_actionHandler.m_currentAction.doNothing = false) :
    m.checkNewAction = .ok m := by
  simp [checkNewAction, busy]

section Frame

variable (m : Master)

@[simp] theorem startNext_now : m.startNext.m_now = m.m_now := by unfold startNext; split <;> rfl
@[simp] theorem startNext_node : m.startNext.m_node = m.m_node := by unfold startNext; split <;> rfl
@[simp] theorem startNext_out : m.startNext.m_out = m.m_out := by unfold startNext; split <;> rfl
@[simp] theorem startNext_dynamicHandler : m.startNext.m_dynamicHandler = m.m_dynamicHandler := by
  unfold startNext; split <;> rfl
@[simp] theorem startNext_state : m.startNext.m_fsm.m_state = m.m_fsm.m_state := by
  unfold startNext; split <;> rfl
@[simp] theorem startNext_nextState : m.startNext.m_fsm.m_nextState = m.m_fsm.m_nextState := by
  unfold startNext; split <;> rfl

theorem startNext_cleanTimer : m.cleanTimer.startNext = m.startNext.cleanTimer := by
  simp only [startNext, cleanTimer]
  cases (m.m_actionHandler.m_scheduler.release m.m_now).m_ready <;> rfl

theorem startNext_popEvent (waiting : m.m_fsm.m_eventQueue ≠ []) :
    m.startNext.popEvent = m.popEvent.startNext := by
  simp only [startNext, popEvent]
  cases (m.m_actionHandler.m_scheduler.release m.m_now).m_ready with
  | cons front rest => simp [launch, List.tail_append_of_ne_nil waiting]
  | nil => rfl

end Frame

/-- All actions the action handler keeps for later. -/
def queued (m : Master) : List Action := m.m_actionHandler.m_scheduler.queued

/-- An action has been started, or there is none to start. -/
theorem startNext_cases (m : Master) :
    (∃ front, m.startNext.m_actionHandler.m_currentAction = front ∧
      m.startNext.m_fsm = { m.m_fsm with
        m_currentAction := front, m_eventQueue := m.m_fsm.m_eventQueue ++ [.check_new_command] } ∧
      m.startNext.m_log = { m.m_log with started := m.m_log.started + 1, ticket := m.m_log.started } ∧
      m.queued = front :: m.startNext.queued) ∨
    (m.startNext.m_actionHandler.m_currentAction = m.m_actionHandler.m_currentAction ∧
      m.startNext.m_fsm = m.m_fsm ∧ m.startNext.m_log = m.m_log ∧ m.queued = m.startNext.queued) := by
  have released := MasterScheduler.queued_release m.m_actionHandler.m_scheduler m.m_now
  unfold startNext
  split
  · rename_i front rest ready
    refine Or.inl ⟨front, rfl, rfl, rfl, ?_⟩
    rw [queued, ← released, MasterScheduler.queued, ready]
    rfl
  · refine Or.inr ⟨rfl, rfl, rfl, ?_⟩
    rw [queued, ← released]
    rfl

/-! Changing state -/

/-- Leave the present state, whose destructor only stops the timer, and enter
another one. -/
def goto (m : Master) (s : StateId) : Master :=
  (if m.m_fsm.m_state = .idle then m else m.cleanTimer).enterState s

/-- What the constructor of a state sends. -/
def entrySends : StateId → List Effect
  | .startMaster => [.sendMsg packet.masterStarted]
  | .queryAddress => [.sendMsg (packet.AddressDiscovery.fromHeader ⟨0, 0⟩)]
  | _ => []

section Frame

variable (m : Master) (s : StateId)

@[simp] theorem goto_now : (m.goto s).m_now = m.m_now := by
  unfold goto; split <;> cases s <;> rfl
@[simp] theorem goto_node : (m.goto s).m_node = m.m_node := by
  unfold goto; split <;> cases s <;> rfl
@[simp] theorem goto_actionHandler : (m.goto s).m_actionHandler = m.m_actionHandler := by
  unfold goto; split <;> cases s <;> rfl
@[simp] theorem goto_dynamicHandler : (m.goto s).m_dynamicHandler = m.m_dynamicHandler := by
  unfold goto; split <;> cases s <;> rfl
@[simp] theorem goto_log : (m.goto s).m_log = m.m_log := by
  unfold goto; split <;> cases s <;> rfl
@[simp] theorem goto_state : (m.goto s).m_fsm.m_state = s := by
  unfold goto; split <;> cases s <;> rfl
@[simp] theorem goto_nextState : (m.goto s).m_fsm.m_nextState = m.m_fsm.m_nextState := by
  unfold goto; split <;> cases s <;> rfl
@[simp] theorem goto_eventQueue : (m.goto s).m_fsm.m_eventQueue = m.m_fsm.m_eventQueue := by
  unfold goto; split <;> cases s <;> rfl
@[simp] theorem goto_currentAction : (m.goto s).m_fsm.m_currentAction = m.m_fsm.m_currentAction := by
  unfold goto; split <;> cases s <;> rfl
@[simp] theorem goto_out : (m.goto s).m_out = m.m_out ++ entrySends s := by
  unfold goto
  split <;> cases s <;> simp [enterState, entrySends, cleanTimer, startTimer, sendMasterStart,
    sendAddressDiscovery, sendMasterPacket]

theorem goto_popEvent : (m.goto s).popEvent = m.popEvent.goto s := by
  obtain ⟨now, node, ⟨state, object, next, events, timer, action⟩, handler, dynamic, log, out⟩ := m
  cases state <;> cases s <;> rfl

end Frame

/-! Concluding an action -/

/-- The line state for a result of a token action. -/
def lineState : ReturnValue → Option AddressLine.State
  | .client_packet_started => some .active
  | .rx_token_no_packet => some .idle
  | .token_timeout => some .badClient
  | _ => none

/-- What a result for `addr` does to the dynamic handler, and when the address is
to be polled again. The line in question is the first one with the address. -/
inductive Settles (dh : DynamicHandler) (now : ℚ) (addr : LocalAddress) :
    ReturnValue → DynamicHandler → Option ℚ → Prop
  | started : Settles dh now addr .ok dh none
  | queried : Settles dh now addr .address_query_done (dh.addressDiscoveryIsDone now) none
  | evicted {rv newState before line after} : lineState rv = some newState →
      dh.m_table = before ++ line :: after → line.m_address = addr → (∀ l ∈ before, l.m_address ≠ addr) →
      (line.setState newState).removeDynamic = true →
      dh.updateAddressLine now addr newState = some
        ({ dh with m_freeAddresses := dh.m_freeAddresses ++ [addr], m_table := before ++ after }, []) →
      Settles dh now addr rv
        { dh with m_freeAddresses := dh.m_freeAddresses ++ [addr], m_table := before ++ after } none
  | kept {rv newState before line after calls} : lineState rv = some newState →
      dh.m_table = before ++ line :: after → line.m_address = addr → (∀ l ∈ before, l.m_address ≠ addr) →
      (line.setState newState).removeDynamic = false →
      dh.updateAddressLine now addr newState = some
        ({ dh with m_table := before ++ line.setState newState :: after }, calls) →
      Settles dh now addr rv { dh with m_table := before ++ line.setState newState :: after }
        (some (DynamicHandler.nextTime now (line.setState newState).m_state))

/-- The action in progress is reported and cleared at both ends. -/
def clear (m : Master) (rv : ReturnValue) : Master :=
  { m with
    m_fsm := { m.m_fsm with m_currentAction := Action.makeDoNothingAction }
    m_actionHandler := { m.m_actionHandler with m_currentAction := Action.makeDoNothingAction }
    m_log := { m.m_log with reports := m.m_log.reports ++ [(m.m_log.ticket, rv)] } }

/-- After a result the address is posted again if it is to be polled again, and
the next action is started. -/
def conclude (m : Master) (rv : ReturnValue) (dh : DynamicHandler) (again : Option ℚ) : Master :=
  let addr := m.m_actionHandler.m_currentAction.m_address
  (again.elim { m.clear rv with m_dynamicHandler := dh }
    (postAction { m.clear rv with m_dynamicHandler := dh } (.makeSendTokenAction addr))).startNext

theorem Settles.of_updateAddressLine {dh dh' : DynamicHandler} {now : ℚ} {addr : LocalAddress}
    {rv : ReturnValue} {newState : AddressLine.State} {calls : List DynamicCall}
    (state : lineState rv = some newState) (run : dh.updateAddressLine now addr newState = some (dh', calls)) :
    ∃ again : Option ℚ, Settles dh now addr rv dh' again ∧
      calls = again.toList.map (.postAction (.makeSendTokenAction addr)) := by
  obtain ⟨before, line, after, table, found, first, evicted | kept⟩ :=
    DynamicHandler.updateAddressLine_cases run
  · obtain ⟨removed, none, result⟩ := evicted
    subst result none
    exact ⟨_, .evicted state table found first removed run, rfl⟩
  · obtain ⟨stays, again, result⟩ := kept
    subst result again
    exact ⟨_, .kept state table found first stays run, rfl⟩

/-- A result is a step of the dynamic handler. -/
theorem Settles.reach {cfg : Config} {uninitialised : Nat → UniqueId} {dh dh' : DynamicHandler} {now : ℚ}
    {addr : LocalAddress} {rv : ReturnValue} {again : Option ℚ} (settles : Settles dh now addr rv dh' again)
    (reach : DynamicHandler.Reach cfg uninitialised dh) : DynamicHandler.Reach cfg uninitialised dh' := by
  cases settles with
  | started => exact reach
  | queried => exact .discoveryDone now reach
  | evicted _ _ _ _ _ run => exact .result reach run
  | kept _ _ _ _ _ run => exact .result reach run

/-- A result for the action in progress, as above. -/
def SettlesAction (m : Master) : ReturnValue → DynamicHandler → Option ℚ → Prop :=
  Settles m.m_dynamicHandler m.m_now m.m_actionHandler.m_currentAction.m_address

theorem conclude_of_tokenResult {m m' : Master} {rv : ReturnValue} {newState : AddressLine.State}
    (state : lineState rv = some newState)
    (run : (m.clear rv).updateAddressLine m.m_actionHandler.m_currentAction.m_address newState >>=
      checkNewAction = .ok m') :
    ∃ dh again, m.SettlesAction rv dh again ∧ m' = m.conclude rv dh again := by
  obtain ⟨updated, update, next⟩ := Except.bind_eq_ok_iff.mp run
  unfold Master.updateAddressLine at update
  split at update
  · cases update
  · rename_i dh calls found
    obtain ⟨again, settles, rfl⟩ := Settles.of_updateAddressLine state found
    cases update
    refine ⟨dh, again, settles, ?_⟩
    cases again with
    | none =>
      rw [checkNewAction_idle rfl rfl] at next
      exact (Except.ok.inj next).symm
    | some t =>
      rw [checkNewAction_idle rfl rfl] at next
      exact (Except.ok.inj next).symm

theorem reportActionResult_ok {m m' : Master} {rv : ReturnValue}
    (posted : m.m_fsm.m_currentAction.m_reportCB = true) (run : m.reportActionResult rv = .ok m') :
    ∃ dh again, m.SettlesAction rv dh again ∧ m' = m.conclude rv dh again := by
  simp only [reportActionResult, posted, if_true] at run
  cases rv with
  | client_packet_started => exact conclude_of_tokenResult rfl run
  | rx_token_no_packet => exact conclude_of_tokenResult rfl run
  | token_timeout => exact conclude_of_tokenResult rfl run
  | address_query_done =>
    have next : (m.clear .address_query_done).addressDiscoveryIsDone.checkNewAction = .ok m' := run
    rw [checkNewAction_idle rfl rfl] at next
    exact ⟨_, _, .queried, (Except.ok.inj next).symm⟩
  | ok =>
    have next : (m.clear .ok).checkNewAction = .ok m' := run
    rw [checkNewAction_idle rfl rfl] at next
    exact ⟨_, _, .started, (Except.ok.inj next).symm⟩
  | timeout => cases run
  | not_set => cases run

section Frame

variable (m : Master) (rv : ReturnValue) (dh : DynamicHandler) (again : Option ℚ)

@[simp] theorem conclude_now : (m.conclude rv dh again).m_now = m.m_now := by
  cases again <;> simp [conclude, postAction, setScheduler, clear]
@[simp] theorem conclude_node : (m.conclude rv dh again).m_node = m.m_node := by
  cases again <;> simp [conclude, postAction, setScheduler, clear]
@[simp] theorem conclude_out : (m.conclude rv dh again).m_out = m.m_out := by
  cases again <;> simp [conclude, postAction, setScheduler, clear]
@[simp] theorem conclude_dynamicHandler : (m.conclude rv dh again).m_dynamicHandler = dh := by
  cases again <;> simp [conclude, postAction, setScheduler]
@[simp] theorem conclude_state : (m.conclude rv dh again).m_fsm.m_state = m.m_fsm.m_state := by
  cases again <;> simp [conclude, postAction, setScheduler, clear]
@[simp] theorem conclude_nextState : (m.conclude rv dh again).m_fsm.m_nextState = m.m_fsm.m_nextState := by
  cases again <;> simp [conclude, postAction, setScheduler, clear]

theorem conclude_cleanTimer : m.cleanTimer.conclude rv dh again = (m.conclude rv dh again).cleanTimer := by
  cases again with
  | none => exact startNext_cleanTimer { m.clear rv with m_dynamicHandler := dh }
  | some t => exact startNext_cleanTimer (postAction { m.clear rv with m_dynamicHandler := dh } _ t)

theorem conclude_popEvent (waiting : m.m_fsm.m_eventQueue ≠ []) :
    (m.conclude rv dh again).popEvent = m.popEvent.conclude rv dh again := by
  cases again <;> exact startNext_popEvent _ waiting

end Frame

/-- The action in progress is reported, and an action has been started or there
is none to start. -/
theorem conclude_cases (m : Master) (rv : ReturnValue) (dh : DynamicHandler) (again : Option ℚ) :
    ∃ later : List Action, later.Perm (again.toList.map (fun _ =>
        (Action.makeSendTokenAction m.m_actionHandler.m_currentAction.m_address).withReport) ++ m.queued) ∧
    ((∃ front, (m.conclude rv dh again).m_actionHandler.m_currentAction = front ∧
      (m.conclude rv dh again).m_fsm = { m.m_fsm with
        m_currentAction := front, m_eventQueue := m.m_fsm.m_eventQueue ++ [.check_new_command] } ∧
      (m.conclude rv dh again).m_log =
        ⟨m.m_log.started + 1, m.m_log.started, m.m_log.reports ++ [(m.m_log.ticket, rv)]⟩ ∧
      later = front :: (m.conclude rv dh again).queued) ∨
    ((m.conclude rv dh again).m_actionHandler.m_currentAction = Action.makeDoNothingAction ∧
      (m.conclude rv dh again).m_fsm = { m.m_fsm with m_currentAction := Action.makeDoNothingAction } ∧
      (m.conclude rv dh again).m_log =
        ⟨m.m_log.started, m.m_log.ticket, m.m_log.reports ++ [(m.m_log.ticket, rv)]⟩ ∧
      later = (m.conclude rv dh again).queued)) := by
  cases again with
  | none => exact ⟨m.queued, List.Perm.refl _, startNext_cases { m.clear rv with m_dynamicHandler := dh }⟩
  | some t =>
    have posted := MasterScheduler.queued_addAction m.m_actionHandler.m_scheduler
      (Action.makeSendTokenAction m.m_actionHandler.m_currentAction.m_address).withReport t
    exact ⟨_, posted, startNext_cases (postAction { m.clear rv with m_dynamicHandler := dh } _ t)⟩

/-- What holds of every action kept for later and of the token that may be posted
again holds of all that are kept now. -/
theorem forall_later {P : Action → Prop} {m : Master} {again : Option ℚ} {addr : LocalAddress} {later : List Action}
    (perm : later.Perm (again.toList.map (fun _ => (Action.makeSendTokenAction addr).withReport) ++ m.queued))
    (token : P (Action.makeSendTokenAction addr).withReport) (queued : ∀ a ∈ m.queued, P a) : ∀ a ∈ later, P a := by
  intro a member
  rcases List.mem_append.mp (perm.mem_iff.mp member) with new | old
  · obtain ⟨_, _, rfl⟩ := List.mem_map.mp new
    exact token
  · exact queued a old

/-! Address requests -/

/-- A new line for the sender of a request, with the first token for it. -/
def enlist (m : Master) (aReq : packet.AddressRequest) (rest : List LocalAddress) (localAddr : LocalAddress) :
    Master :=
  postActionNow { m with m_dynamicHandler := { m.m_dynamicHandler with
    m_freeAddresses := rest
    m_table := m.m_dynamicHandler.m_table ++ [.dynamic localAddr aReq.m_uniqueId aReq.m_channelType] } }
    (.makeSendTokenAction localAddr)

theorem receivedAddressRequest_cases (m : Master) (aReq : packet.AddressRequest) :
    (∃ line ∈ m.m_dynamicHandler.m_table, line.m_uniqueId = aReq.m_uniqueId ∧
      m.receivedAddressRequest aReq = m.sendAddressReply line.m_address aReq.m_uniqueId) ∨
    ((∀ line ∈ m.m_dynamicHandler.m_table, line.m_uniqueId ≠ aReq.m_uniqueId) ∧
      m.m_dynamicHandler.m_freeAddresses = [] ∧ m.receivedAddressRequest aReq = m) ∨
    ((∀ line ∈ m.m_dynamicHandler.m_table, line.m_uniqueId ≠ aReq.m_uniqueId) ∧
      ∃ rest localAddr, m.m_dynamicHandler.m_freeAddresses = rest ++ [localAddr] ∧
        m.receivedAddressRequest aReq =
          (m.enlist aReq rest localAddr).sendAddressReply localAddr aReq.m_uniqueId) := by
  rcases m.m_dynamicHandler.receivedAddressRequest_cases aReq with ⟨line, member, id, known⟩ |
    ⟨unknown, empty, nothing⟩ | ⟨unknown, rest, localAddr, stack, allocated⟩
  · exact Or.inl ⟨line, member, id, by rw [receivedAddressRequest, known]; rfl⟩
  · exact Or.inr (Or.inl ⟨unknown, empty, by rw [receivedAddressRequest, nothing]; rfl⟩)
  · exact Or.inr (Or.inr ⟨unknown, rest, localAddr, stack, by rw [receivedAddressRequest, allocated]; rfl⟩)

section Frame

variable (m : Master) (aReq : packet.AddressRequest)

theorem receivedAddressRequest_frame : (m.receivedAddressRequest aReq).m_fsm = m.m_fsm ∧
    (m.receivedAddressRequest aReq).m_node = m.m_node ∧ (m.receivedAddressRequest aReq).m_now = m.m_now ∧
    (m.receivedAddressRequest aReq).m_log = m.m_log ∧
    (m.receivedAddressRequest aReq).m_actionHandler.m_currentAction = m.m_actionHandler.m_currentAction := by
  rcases m.receivedAddressRequest_cases aReq with ⟨_, _, _, known⟩ | ⟨_, _, nothing⟩ | ⟨_, _, _, _, allocated⟩
  · rw [known]
    exact ⟨rfl, rfl, rfl, rfl, rfl⟩
  · rw [nothing]
    exact ⟨rfl, rfl, rfl, rfl, rfl⟩
  · rw [allocated]
    exact ⟨rfl, rfl, rfl, rfl, rfl⟩

@[simp] theorem receivedAddressRequest_fsm : (m.receivedAddressRequest aReq).m_fsm = m.m_fsm :=
  (m.receivedAddressRequest_frame aReq).1
@[simp] theorem receivedAddressRequest_node : (m.receivedAddressRequest aReq).m_node = m.m_node :=
  (m.receivedAddressRequest_frame aReq).2.1
@[simp] theorem receivedAddressRequest_now : (m.receivedAddressRequest aReq).m_now = m.m_now :=
  (m.receivedAddressRequest_frame aReq).2.2.1
@[simp] theorem receivedAddressRequest_log : (m.receivedAddressRequest aReq).m_log = m.m_log :=
  (m.receivedAddressRequest_frame aReq).2.2.2.1
@[simp] theorem receivedAddressRequest_currentAction :
    (m.receivedAddressRequest aReq).m_actionHandler.m_currentAction = m.m_actionHandler.m_currentAction :=
  (m.receivedAddressRequest_frame aReq).2.2.2.2

/-- The only action a request can bring is the first token for a new line. -/
theorem mem_queued_receivedAddressRequest {a : Action} (member : a ∈ (m.receivedAddressRequest aReq).queued) :
    a ∈ m.queued ∨ ∃ localAddr, a = (Action.makeSendTokenAction localAddr).withReport := by
  rcases m.receivedAddressRequest_cases aReq with ⟨_, _, _, known⟩ | ⟨_, _, nothing⟩ | ⟨_, rest, localAddr, _, new⟩
  · rw [known] at member
    exact Or.inl member
  · rw [nothing] at member
    exact Or.inl member
  · rw [new] at member
    have perm := MasterScheduler.queued_addActionNow m.m_actionHandler.m_scheduler
      (Action.makeSendTokenAction localAddr).withReport
    rcases List.mem_cons.mp (perm.mem_iff.mp member) with first | old
    · exact Or.inr ⟨localAddr, first⟩
    · exact Or.inl old

theorem receivedAddressRequest_popEvent :
    (m.receivedAddressRequest aReq).popEvent = m.popEvent.receivedAddressRequest aReq := by
  have dynamic : m.popEvent.m_dynamicHandler = m.m_dynamicHandler := rfl
  rcases m.m_dynamicHandler.receivedAddressRequest_cases aReq with ⟨_, _, _, known⟩ | ⟨_, _, nothing⟩ |
    ⟨_, _, _, _, allocated⟩
  · simp only [receivedAddressRequest, dynamic, known]
    rfl
  · simp only [receivedAddressRequest, dynamic, nothing]
    rfl
  · simp only [receivedAddressRequest, dynamic, allocated]
    rfl

end Frame

/-! Turns -/

/-- The event is taken from the queue, which held nothing else. -/
def consume (m : Master) : Master := { m with m_out := [] }.popEvent

section Frame

variable (m : Master)

@[simp] theorem consume_now : m.consume.m_now = m.m_now := rfl
@[simp] theorem consume_node : m.consume.m_node = m.m_node := rfl
@[simp] theorem consume_actionHandler : m.consume.m_actionHandler = m.m_actionHandler := rfl
@[simp] theorem consume_dynamicHandler : m.consume.m_dynamicHandler = m.m_dynamicHandler := rfl
@[simp] theorem consume_log : m.consume.m_log = m.m_log := rfl
@[simp] theorem consume_out : m.consume.m_out = [] := rfl
@[simp] theorem consume_state : m.consume.m_fsm.m_state = m.m_fsm.m_state := rfl
@[simp] theorem consume_nextState : m.consume.m_fsm.m_nextState = m.m_fsm.m_nextState := rfl
@[simp] theorem consume_currentAction : m.consume.m_fsm.m_currentAction = m.m_fsm.m_currentAction := rfl

theorem consume_eventQueue {ev : Event} (queue : m.m_fsm.m_eventQueue = [ev]) :
    m.consume.m_fsm.m_eventQueue = [] := by
  simp [consume, popEvent, queue]

@[simp] theorem sendToken_now (a : LocalAddress) : (m.sendToken a).m_now = m.m_now := rfl
@[simp] theorem sendToken_node (a : LocalAddress) : (m.sendToken a).m_node = m.m_node := rfl
@[simp] theorem sendToken_fsm (a : LocalAddress) : (m.sendToken a).m_fsm = m.m_fsm := rfl
@[simp] theorem sendToken_actionHandler (a : LocalAddress) :
    (m.sendToken a).m_actionHandler = m.m_actionHandler := rfl
@[simp] theorem sendToken_dynamicHandler (a : LocalAddress) :
    (m.sendToken a).m_dynamicHandler = m.m_dynamicHandler := rfl
@[simp] theorem sendToken_log (a : LocalAddress) : (m.sendToken a).m_log = m.m_log := rfl
@[simp] theorem sendToken_out (a : LocalAddress) :
    (m.sendToken a).m_out = m.m_out ++ [.sendMsg (packet.GrantToken.fromHeader ⟨a⟩)] := rfl

@[simp] theorem sendClientPacket_now : m.sendClientPacket.m_now = m.m_now := rfl
@[simp] theorem sendClientPacket_fsm : m.sendClientPacket.m_fsm = m.m_fsm := rfl
@[simp] theorem sendClientPacket_actionHandler : m.sendClientPacket.m_actionHandler = m.m_actionHandler := rfl
@[simp] theorem sendClientPacket_dynamicHandler : m.sendClientPacket.m_dynamicHandler = m.m_dynamicHandler := rfl
@[simp] theorem sendClientPacket_log : m.sendClientPacket.m_log = m.m_log := rfl
@[simp] theorem sendClientPacket_master : m.sendClientPacket.m_node.m_master = m.m_node.m_master := rfl

end Frame

/-- The events a state reacts to. -/
def handles : StateId → Event → Bool
  | .idle, .check_new_command => true
  | .startMaster, .rx_pkt_master_start_stop => true
  | .startMaster, .timer_timeout => true
  | .sendingToken, .rx_pkt_grant_token => true
  | .sendingToken, .timer_timeout => true
  | .waitClientPacketDone, .rx_pkt_client_packet => true
  | .waitClientPacketDone, .rx_return_token => true
  | .waitClientPacketDone, .timer_timeout => true
  | .queryAddress, .timer_timeout => true
  | .queryAddress, .rx_pkt_address_request _ => true
  | .waitAddressReply, .timer_timeout => true
  | _, _ => false

/-- The results reported on the way back to idle. -/
def resultOf (rxInProgress : Bool) : StateId → Event → Option ReturnValue
  | .startMaster, .rx_pkt_master_start_stop => some .ok
  | .waitClientPacketDone, .rx_pkt_client_packet => some .client_packet_started
  | .waitClientPacketDone, .rx_return_token => some .rx_token_no_packet
  | .waitClientPacketDone, .timer_timeout => if rxInProgress then none else some .token_timeout
  | .queryAddress, .timer_timeout => if rxInProgress then none else some .address_query_done
  | .waitAddressReply, .timer_timeout => if rxInProgress then none else some .address_query_done
  | _, _ => none

/-- Everything one turn of the event loop can do. -/
inductive TurnCase (m : Master) (rxInProgress : Bool) : Event → Master → Prop
  | ignored {ev} : handles m.m_fsm.m_state ev = false → TurnCase m rxInProgress ev m.consume
  | ownIdle {dh again} : m.m_fsm.m_state = .idle → m.m_fsm.m_currentAction.m_action = .send_token →
      m.m_fsm.m_currentAction.m_address = m.m_node.m_txQueue.clientAddress →
      m.SettlesAction .rx_token_no_packet dh again →
      TurnCase m rxInProgress .check_new_command (m.consume.conclude .rx_token_no_packet dh again)
  | ownSends : m.m_fsm.m_state = .idle → m.m_fsm.m_currentAction.m_action = .send_token →
      m.m_fsm.m_currentAction.m_address = m.m_node.m_txQueue.clientAddress →
      m.m_node.m_txQueue.txQueueEmpty = false →
      TurnCase m rxInProgress .check_new_command (m.consume.sendClientPacket.goto .waitClientPacketDone)
  | grants : m.m_fsm.m_state = .idle → m.m_fsm.m_currentAction.m_action = .send_token →
      m.m_fsm.m_currentAction.m_address ≠ m.m_node.m_txQueue.clientAddress →
      TurnCase m rxInProgress .check_new_command
        ((m.consume.sendToken m.m_fsm.m_currentAction.m_address).goto .sendingToken)
  | queries : m.m_fsm.m_state = .idle → m.m_fsm.m_currentAction.m_action = .query_address →
      TurnCase m rxInProgress .check_new_command (m.consume.goto .queryAddress)
  | starts : m.m_fsm.m_state = .idle → m.m_fsm.m_currentAction.m_action = .send_master_start →
      TurnCase m rxInProgress .check_new_command (m.consume.goto .startMaster)
  | grantSeen : m.m_fsm.m_state = .sendingToken →
      TurnCase m rxInProgress .rx_pkt_grant_token (m.consume.goto .waitClientPacketDone)
  | grantLost : m.m_fsm.m_state = .sendingToken →
      TurnCase m rxInProgress .timer_timeout (m.consume.goto .idle)
  | requested {aReq} : m.m_fsm.m_state = .queryAddress →
      TurnCase m rxInProgress (.rx_pkt_address_request aReq)
        ((m.consume.receivedAddressRequest aReq).goto .waitAddressReply)
  | rearmed : rxInProgress = true →
      TurnCase m rxInProgress .timer_timeout (m.consume.startTimer Config.masterTokenClientTimeout)
  | reported {ev rv dh again} : resultOf rxInProgress m.m_fsm.m_state ev = some rv →
      m.SettlesAction rv dh again →
      TurnCase m rxInProgress ev ((m.consume.conclude rv dh again).goto .idle)

/-- An action as the action handler hands it to the state machine. -/
def Posted (a : Action) : Prop := a.m_reportCB = true ∧ a.m_action ≠ .do_nothing

/-- No transition is asked for. -/
theorem turn_stay {m m' e : Master} {rxInProgress : Bool} {ev : Event} (queue : m.m_fsm.m_eventQueue = [ev])
    (run : m.turn rxInProgress = .ok m') (emit : emitEvent { m with m_out := [] } rxInProgress ev = .ok e)
    (settled : e.m_fsm.m_nextState = none) : m' = e.popEvent := by
  simp only [turn, queue, processEvent, emit] at run
  obtain ⟨p, prepared, popped⟩ := Except.bind_eq_ok_iff.mp run
  simp only [bind, Except.bind, prepareTransition, settled] at prepared
  cases prepared
  exact (Except.ok.inj popped).symm

/-- A transition is asked for. -/
theorem turn_transition {m m' e : Master} {rxInProgress : Bool} {ev : Event} {s : StateId}
    (queue : m.m_fsm.m_eventQueue = [ev]) (run : m.turn rxInProgress = .ok m')
    (emit : emitEvent { m with m_out := [] } rxInProgress ev = .ok (e.transition s))
    (settled : e.m_fsm.m_nextState = none) :
    ∃ left, e.exitState = .ok left ∧ m' = (left.enterState s).popEvent := by
  simp only [turn, queue, processEvent, emit] at run
  obtain ⟨p, prepared, popped⟩ := Except.bind_eq_ok_iff.mp run
  have back : { e.transition s with m_fsm := { (e.transition s).m_fsm with m_nextState := none } } = e := by
    obtain ⟨now, node, ⟨state, object, next, events, timer, action⟩, handler, dynamic, log, out⟩ := e
    cases settled
    rfl
  have requested : (e.transition s).prepareTransition = .ok p := prepared
  simp only [prepareTransition, transition] at requested
  simp only [transition] at back
  rw [back] at requested
  obtain ⟨left, exit, entered⟩ := Except.bind_eq_ok_iff.mp requested
  exact ⟨left, exit, by rw [← Except.ok.inj popped, ← Except.ok.inj entered]⟩

/-- The state left has nothing to report. -/
theorem turn_move {m m' e : Master} {rxInProgress : Bool} {ev : Event} {s : StateId}
    (queue : m.m_fsm.m_eventQueue = [ev]) (run : m.turn rxInProgress = .ok m')
    (emit : emitEvent { m with m_out := [] } rxInProgress ev = .ok (e.transition s))
    (settled : e.m_fsm.m_nextState = none) (silent : e.m_fsm.m_state ≠ .waitAddressReply) :
    m' = e.popEvent.goto s := by
  obtain ⟨left, exit, rfl⟩ := turn_transition queue run emit settled
  have stopped : left = if e.m_fsm.m_state = .idle then e else e.cleanTimer := by
    unfold exitState at exit
    cases state : e.m_fsm.m_state <;> simp only [state] at exit <;>
      first | exact (Except.ok.inj exit).symm | exact absurd state silent
  rw [stopped, ← goto_popEvent, goto]

/-- What a turn has emitted before it changes state. -/
theorem turn_emitted {m m' : Master} {rxInProgress : Bool} {ev : Event} (queue : m.m_fsm.m_eventQueue = [ev])
    (run : m.turn rxInProgress = .ok m') : ∃ e, emitEvent { m with m_out := [] } rxInProgress ev = .ok e := by
  simp only [turn, queue, processEvent] at run
  obtain ⟨p, prepared, _⟩ := Except.bind_eq_ok_iff.mp run
  obtain ⟨e, emit, _⟩ := Except.bind_eq_ok_iff.mp prepared
  exact ⟨e, emit⟩

/-- A handler reports a result and asks for idle. -/
theorem turn_report {m m' : Master} {rxInProgress : Bool} {ev : Event} {rv : ReturnValue}
    (queue : m.m_fsm.m_eventQueue = [ev]) (next : m.m_fsm.m_nextState = none)
    (posted : m.m_fsm.m_currentAction.m_reportCB = true) (run : m.turn rxInProgress = .ok m')
    (emit : emitEvent { m with m_out := [] } rxInProgress ev = reportAndIdle { m with m_out := [] } rv)
    (silent : m.m_fsm.m_state ≠ .waitAddressReply) :
    ∃ dh again, m.SettlesAction rv dh again ∧ m' = (m.consume.conclude rv dh again).goto .idle := by
  obtain ⟨e, first⟩ := turn_emitted queue run
  obtain ⟨r, report, idle⟩ := Except.bind_eq_ok_iff.mp (emit ▸ first)
  cases idle
  obtain ⟨dh, again, settles, rfl⟩ := reportActionResult_ok (m := { m with m_out := [] }) posted report
  refine ⟨dh, again, settles, ?_⟩
  rw [turn_move queue run first (by simpa using next) (by simpa using silent),
    conclude_popEvent _ _ _ _ (by simp [queue]), consume]

section States

variable {m m' : Master} {rxInProgress : Bool} {ev : Event}

theorem turn_reported {rv : ReturnValue} (queue : m.m_fsm.m_eventQueue = [ev]) (next : m.m_fsm.m_nextState = none)
    (posted : Posted m.m_fsm.m_currentAction) (run : m.turn rxInProgress = .ok m')
    (emit : emitEvent { m with m_out := [] } rxInProgress ev = reportAndIdle { m with m_out := [] } rv)
    (silent : m.m_fsm.m_state ≠ .waitAddressReply) (result : resultOf rxInProgress m.m_fsm.m_state ev = some rv) :
    TurnCase m rxInProgress ev m' := by
  obtain ⟨dh, again, settles, rfl⟩ := turn_report queue next posted.1 run emit silent
  exact .reported result settles

theorem turn_idle (state : m.m_fsm.m_state = .idle) (queue : m.m_fsm.m_eventQueue = [.check_new_command])
    (next : m.m_fsm.m_nextState = none) (posted : Posted m.m_fsm.m_currentAction)
    (run : m.turn rxInProgress = .ok m') : TurnCase m rxInProgress .check_new_command m' := by
  have emit : emitEvent { m with m_out := [] } rxInProgress .check_new_command =
      decodeAction { m with m_out := [] } m.m_fsm.m_currentAction := by
    simp only [emitEvent, state, idleEvent]
  unfold decodeAction at emit
  split at emit
  · rename_i action
    exact absurd action posted.2
  · rename_i action
    split at emit
    · rename_i own
      split at emit
      · obtain ⟨e, first⟩ := turn_emitted queue run
        obtain ⟨dh, again, settles, rfl⟩ :=
          reportActionResult_ok (m := { m with m_out := [] }) posted.1 (emit ▸ first)
        rw [turn_stay queue run first (by simpa using next), conclude_popEvent _ _ _ _ (by simp [queue])]
        exact .ownIdle state action own settles
      · rename_i packets
        rw [turn_move queue run emit next (by simp [sendClientPacket, state])]
        exact .ownSends state action own (Bool.eq_false_iff.mpr packets)
    · rename_i other
      rw [turn_move queue run emit next (by simp [sendToken, sendMasterPacket, state])]
      exact .grants state action other
  · rename_i action
    rw [turn_move queue run emit next (by simp [state])]
    exact .queries state action
  · rename_i action
    rw [turn_move queue run emit next (by simp [state])]
    exact .starts state action

theorem turn_startMaster (state : m.m_fsm.m_state = .startMaster) (queue : m.m_fsm.m_eventQueue = [ev])
    (next : m.m_fsm.m_nextState = none) (posted : Posted m.m_fsm.m_currentAction)
    (handled : handles .startMaster ev = true) (run : m.turn rxInProgress = .ok m') :
    TurnCase m rxInProgress ev m' := by
  have emit : emitEvent { m with m_out := [] } rxInProgress ev = masterStartEvent { m with m_out := [] } ev := by
    simp only [emitEvent, state]
  cases ev <;> simp only [handles, Bool.false_eq_true] at handled
  case rx_pkt_master_start_stop =>
    exact turn_reported queue next posted run emit (by simp [state]) (by rw [state]; rfl)
  case timer_timeout =>
    obtain ⟨dh, again, settles, _⟩ := turn_report queue next posted.1 run emit (by simp [state])
    rcases settles with _ | _ | impossible | impossible
    · cases impossible
    · cases impossible

theorem turn_sendingToken (state : m.m_fsm.m_state = .sendingToken) (queue : m.m_fsm.m_eventQueue = [ev])
    (next : m.m_fsm.m_nextState = none) (handled : handles .sendingToken ev = true)
    (run : m.turn rxInProgress = .ok m') : TurnCase m rxInProgress ev m' := by
  have emit : emitEvent { m with m_out := [] } rxInProgress ev = sendingTokenEvent { m with m_out := [] } ev := by
    simp only [emitEvent, state]
  cases ev <;> simp only [handles, Bool.false_eq_true] at handled
  case rx_pkt_grant_token =>
    rw [turn_move queue run emit next (by simp [state])]
    exact .grantSeen state
  case timer_timeout =>
    rw [turn_move queue run emit next (by simp [state])]
    exact .grantLost state

theorem turn_waitClientPacketDone (state : m.m_fsm.m_state = .waitClientPacketDone)
    (queue : m.m_fsm.m_eventQueue = [ev]) (next : m.m_fsm.m_nextState = none)
    (posted : Posted m.m_fsm.m_currentAction) (handled : handles .waitClientPacketDone ev = true)
    (run : m.turn rxInProgress = .ok m') : TurnCase m rxInProgress ev m' := by
  have emit : emitEvent { m with m_out := [] } rxInProgress ev =
      waitClientPacketDoneEvent { m with m_out := [] } rxInProgress ev := by
    simp only [emitEvent, state]
  cases ev <;> simp only [handles, Bool.false_eq_true] at handled
  case rx_pkt_client_packet =>
    exact turn_reported queue next posted run emit (by simp [state]) (by rw [state]; rfl)
  case rx_return_token =>
    exact turn_reported queue next posted run emit (by simp [state]) (by rw [state]; rfl)
  case timer_timeout =>
    cases rxInProgress with
    | true =>
      rw [turn_stay queue run emit next]
      exact .rearmed rfl
    | false =>
      exact turn_reported queue next posted run emit (by simp [state]) (by rw [state]; rfl)

theorem turn_queryAddress (state : m.m_fsm.m_state = .queryAddress) (queue : m.m_fsm.m_eventQueue = [ev])
    (next : m.m_fsm.m_nextState = none) (posted : Posted m.m_fsm.m_currentAction)
    (handled : handles .queryAddress ev = true) (run : m.turn rxInProgress = .ok m') :
    TurnCase m rxInProgress ev m' := by
  have emit : emitEvent { m with m_out := [] } rxInProgress ev =
      queryAddressEvent { m with m_out := [] } rxInProgress ev := by
    simp only [emitEvent, state]
  cases ev <;> simp only [handles, Bool.false_eq_true] at handled
  case rx_pkt_address_request aReq =>
    rw [turn_move queue run emit (by simpa using next) (by simp [state]), receivedAddressRequest_popEvent]
    exact .requested state
  case timer_timeout =>
    cases rxInProgress with
    | true =>
      rw [turn_stay queue run emit next]
      exact .rearmed rfl
    | false =>
      exact turn_reported queue next posted run emit (by simp [state]) (by rw [state]; rfl)

theorem turn_waitAddressReply (state : m.m_fsm.m_state = .waitAddressReply)
    (queue : m.m_fsm.m_eventQueue = [ev]) (next : m.m_fsm.m_nextState = none)
    (posted : Posted m.m_fsm.m_currentAction) (handled : handles .waitAddressReply ev = true)
    (run : m.turn rxInProgress = .ok m') : TurnCase m rxInProgress ev m' := by
  have emit : emitEvent { m with m_out := [] } rxInProgress ev =
      waitAddressReplyEvent { m with m_out := [] } rxInProgress ev := by
    simp only [emitEvent, state]
  cases ev <;> simp only [handles, Bool.false_eq_true] at handled
  case timer_timeout =>
    cases rxInProgress with
    | true =>
      rw [turn_stay queue run emit next]
      exact .rearmed rfl
    | false =>
      -- the destructor reports, between stopping the timer and entering idle
      obtain ⟨left, exit, rfl⟩ := turn_transition queue run emit next
      simp only [exitState, state] at exit
      obtain ⟨dh, again, settles, rfl⟩ :=
        reportActionResult_ok (m := { m with m_out := [] }.cleanTimer) posted.1 exit
      have left : ((m.consume.conclude .address_query_done dh again).goto .idle) =
          ((conclude { m with m_out := [] }.cleanTimer .address_query_done dh again).enterState .idle).popEvent := by
        rw [consume, ← conclude_popEvent _ _ _ _ (by simp [queue]), ← goto_popEvent, goto, conclude_state,
          conclude_cleanTimer]
        simp [state]
      rw [← left]
      exact .reported (by rw [state]; rfl) settles

end States

theorem turn_cases {m m' : Master} {rxInProgress : Bool} {ev : Event} (queue : m.m_fsm.m_eventQueue = [ev])
    (next : m.m_fsm.m_nextState = none)
    (active : handles m.m_fsm.m_state ev = true → Posted m.m_fsm.m_currentAction)
    (run : m.turn rxInProgress = .ok m') : TurnCase m rxInProgress ev m' := by
  by_cases handled : handles m.m_fsm.m_state ev = true
  · have posted := active handled
    cases state : m.m_fsm.m_state with
    | idle =>
      rw [state] at handled
      cases ev <;> simp only [handles, Bool.false_eq_true] at handled
      exact turn_idle state queue next posted run
    | startMaster => exact turn_startMaster state queue next posted (state ▸ handled) run
    | sendingToken => exact turn_sendingToken state queue next (state ▸ handled) run
    | waitClientPacketDone => exact turn_waitClientPacketDone state queue next posted (state ▸ handled) run
    | queryAddress => exact turn_queryAddress state queue next posted (state ▸ handled) run
    | waitAddressReply => exact turn_waitAddressReply state queue next posted (state ▸ handled) run
  · have emit : emitEvent { m with m_out := [] } rxInProgress ev = .ok { m with m_out := [] } := by
      simp only [emitEvent]
      cases state : m.m_fsm.m_state <;> cases ev <;> rw [state] at handled <;>
        first | rfl | exact absurd rfl handled
    rw [turn_stay queue run emit next]
    exact .ignored (Bool.eq_false_iff.mpr handled)

end SerialNet.Master
