import SerialNet.Master.Turns

namespace SerialNet.Master

/-! Stimuli -/

/-- The event the master makes of a packet. -/
def eventOf (type : MessageType) (bb : ByteVec) : Option Event :=
  match type with
  | .grant_token => some .rx_pkt_grant_token
  | .return_token => some .rx_return_token
  | .send_packet => some .rx_pkt_client_packet
  | .master_started => some .rx_pkt_master_start_stop
  | .master_ended => some .rx_pkt_master_start_stop
  | .mac_update => some .rx_pkt_client_packet
  | .address_request => (packet.AddressRequest.toHeader bb).map .rx_pkt_address_request
  | _ => none

/-- What an effect of the own node means to the master. -/
def masterEvent : Effect → Option Event
  | .masterPacketReceived type bb => eventOf type bb
  | _ => none

theorem masterPacketReceived_eq (m : Master) (type : MessageType) (bb : ByteVec) :
    m.masterPacketReceived type bb = { m with m_fsm := { m.m_fsm with
      m_eventQueue := m.m_fsm.m_eventQueue ++ (eventOf type bb).toList } } := by
  cases type
  case address_request =>
    simp only [masterPacketReceived, eventOf]
    cases packet.AddressRequest.toHeader bb <;> simp [postEvent]
  all_goals simp [masterPacketReceived, eventOf, postEvent]

theorem foldl_nodeEffect (effects : List Effect) (m : Master) :
    effects.foldl nodeEffect m = { m with
      m_out := m.m_out ++ effects.filter outward
      m_fsm := { m.m_fsm with m_eventQueue := m.m_fsm.m_eventQueue ++ effects.filterMap masterEvent } } := by
  induction effects generalizing m with
  | nil => simp
  | cons effect rest ih =>
    rw [List.foldl_cons, ih]
    cases effect with
    | masterPacketReceived type bb =>
      rw [nodeEffect, masterPacketReceived_eq]
      cases event : eventOf type bb <;> simp [outward, masterEvent, event]
    | _ => simp [nodeEffect, outward, masterEvent, List.filterMap_cons, List.filter_cons]

/-- The event a packet on the bus leads to. -/
def packetEvent (bb : ByteVec) : Option Event :=
  if longEnough bb then (kind bb).bind (eventOf · bb) else none

theorem eventOf_ne_check (type : MessageType) (bb : ByteVec) : eventOf type bb ≠ some .check_new_command := by
  cases type <;> simp [eventOf]

theorem packetEvent_ne_check (bb : ByteVec) : packetEvent bb ≠ some .check_new_command := by
  unfold packetEvent
  split
  · intro check
    obtain ⟨type, _, event⟩ := Option.bind_eq_some_iff.mp check
    exact eventOf_ne_check type bb event
  · rintro ⟨⟩

/-- Of the effects of the own node, those for the master are at most one event. -/
theorem filterMap_masterEvent {n : PacketTypeCodec} (registered : n.m_master = true) {bb : ByteVec}
    {effects : List Effect} (told : effects.filter (!outward ·) = n.notified bb) :
    effects.filterMap masterEvent = (packetEvent bb).toList := by
  have others : effects.filterMap masterEvent = (effects.filter (!outward ·)).filterMap masterEvent := by
    rw [List.filterMap_filter]
    congr 1
    funext e
    cases e <;> rfl
  rw [others, told, PacketTypeCodec.notified, packetEvent]
  by_cases long : longEnough bb = true
  · cases type : kind bb with
    | none => simp [long]
    | some cmd => cases event : eventOf cmd bb <;> simp [registered, long, masterEvent, event]
  · simp [long]

/-- A callback of the event loop begins. -/
def wake (m : Master) (now : ℚ) : Master := { m with m_now := now, m_out := [] }

/-- Everything a callback of the event loop can do. -/
inductive StimulusCase (m : Master) (now : ℚ) : Stimulus → Master → Prop
  | packet {bb stack node effects} : m.m_node.rxRawPacket bb stack = some (node, effects) →
      StimulusCase m now (.rxRawPacket bb stack) { m.wake now with
        m_node := node
        m_out := effects.filter outward
        m_fsm := { m.m_fsm with m_eventQueue := effects.filterMap masterEvent } }
  | sendPacket {data destAddr chType} :
      StimulusCase m now (.msgHostTx_sendPacket data destAddr chType)
        ((m.wake now).setTxQueue (m.m_node.m_txQueue.msgHostTx_sendPacket data destAddr chType))
  | sendMacUpdate {mac} :
      StimulusCase m now (.msgHostTx_sendMacUpdate mac)
        ((m.wake now).setTxQueue (m.m_node.m_txQueue.msgHostTx_sendMacUpdate mac))
  | timer {timeout} :
      StimulusCase m now (.timer timeout) { m.wake now with m_fsm := { m.m_fsm with
        m_timer := m.m_fsm.m_timer.expire timeout, m_eventQueue := [.timer_timeout] } }
  | delayBusy {timeout} : m.m_actionHandler.m_currentAction.doNothing = false →
      StimulusCase m now (.delayAction timeout) { m.wake now with m_actionHandler := { m.m_actionHandler with
        m_delayAction := m.m_actionHandler.m_delayAction.expire timeout } }
  | delayIdle {timeout} : m.m_actionHandler.m_currentAction.doNothing = true →
      StimulusCase m now (.delayAction timeout) (startNext { m.wake now with
        m_actionHandler := { m.m_actionHandler with
          m_delayAction := m.m_actionHandler.m_delayAction.expire timeout } })
  | discovery {timeout} :
      StimulusCase m now (.discovery timeout) (postActionNow { m.wake now with
        m_dynamicHandler := { m.m_dynamicHandler with
          m_timer := m.m_dynamicHandler.m_timer.expire timeout } } Action.makeQueryAddressAction)
  | reordered {waiting} : m.m_actionHandler.m_scheduler.Reorders waiting →
      StimulusCase m now (.reordered waiting)
        ((m.wake now).setScheduler (m.m_actionHandler.m_scheduler.reorder waiting))

theorem stimulate_cases {m m' : Master} {now : ℚ} {s : Stimulus} (queue : m.m_fsm.m_eventQueue = [])
    (enabled : m.Enabled s) (same : m.m_actionHandler.m_currentAction = m.m_fsm.m_currentAction)
    (run : m.stimulate now s = .ok m') :
    StimulusCase m now s m' := by
  cases s with
  | rxRawPacket bb stack =>
    simp only [stimulate] at run
    split at run
    · cases run
    · rename_i node effects received
      rw [← Except.ok.inj run, foldl_nodeEffect]
      simp only [queue, List.nil_append]
      exact .packet received
  | msgHostTx_sendPacket data destAddr chType =>
    rw [← Except.ok.inj run]
    exact .sendPacket
  | msgHostTx_sendMacUpdate mac =>
    rw [← Except.ok.inj run]
    exact .sendMacUpdate
  | timer timeout =>
    rw [← Except.ok.inj run]
    simp only [postEvent, queue, List.nil_append]
    exact .timer
  | delayAction timeout =>
    simp only [stimulate] at run
    by_cases nothing : m.m_actionHandler.m_currentAction.doNothing = true
    · have inactive : m.actionActive = false := by
        rw [actionActive, ← same]
        simpa [Action.doNothing] using nothing
      have started := (checkNewAction_idle (m := { m.wake now with m_actionHandler := { m.m_actionHandler with
        m_delayAction := m.m_actionHandler.m_delayAction.expire timeout } }) nothing inactive).symm.trans run
      rw [← Except.ok.inj started]
      exact .delayIdle nothing
    · have busy := Bool.eq_false_iff.mpr nothing
      have left := (checkNewAction_busy (m := { m.wake now with m_actionHandler := { m.m_actionHandler with
        m_delayAction := m.m_actionHandler.m_delayAction.expire timeout } }) busy).symm.trans run
      rw [← Except.ok.inj left]
      exact .delayBusy busy
  | discovery timeout =>
    rw [← Except.ok.inj run]
    exact .discovery
  | reordered waiting =>
    rw [← Except.ok.inj run]
    exact .reordered enabled

section Handler

variable {cfg : Config} {uninitialised : Nat → UniqueId} {m m' : Master}

theorem receivedAddressRequest_handler (m : Master) (aReq : packet.AddressRequest) :
    (m.receivedAddressRequest aReq).m_dynamicHandler = (m.m_dynamicHandler.receivedAddressRequest aReq).1 := by
  rcases m.m_dynamicHandler.receivedAddressRequest_cases aReq with ⟨_, _, _, known⟩ | ⟨_, _, nothing⟩ |
    ⟨_, _, _, _, allocated⟩
  · rw [receivedAddressRequest, known]
    rfl
  · rw [receivedAddressRequest, nothing]
    rfl
  · rw [receivedAddressRequest, allocated]
    rfl

/-- The master asks nothing of its dynamic handler that was not allowed for. -/
theorem TurnCase.handler {rxInProgress : Bool} {ev : Event} (taken : TurnCase m rxInProgress ev m')
    (reach : DynamicHandler.Reach cfg uninitialised m.m_dynamicHandler) :
    DynamicHandler.Reach cfg uninitialised m'.m_dynamicHandler := by
  cases taken with
  | ownIdle _ _ _ settles =>
    rw [conclude_dynamicHandler]
    exact Settles.reach settles reach
  | reported _ settles =>
    rw [goto_dynamicHandler, conclude_dynamicHandler]
    exact Settles.reach settles reach
  | @requested aReq _ =>
    rw [goto_dynamicHandler, receivedAddressRequest_handler]
    exact .request aReq reach
  | _ => simpa [startTimer] using reach

/-- A turn leaves nothing in the event queue but word of a new action. -/
theorem TurnCase.eventQueue {rxInProgress : Bool} {ev : Event} (taken : TurnCase m rxInProgress ev m')
    (queue : m.m_fsm.m_eventQueue = [ev]) :
    m'.m_fsm.m_eventQueue = [] ∨ m'.m_fsm.m_eventQueue = [.check_new_command] := by
  have empty := m.consume_eventQueue queue
  have concluded : ∀ rv dh again, (m.consume.conclude rv dh again).m_fsm.m_eventQueue = [] ∨
      (m.consume.conclude rv dh again).m_fsm.m_eventQueue = [.check_new_command] := by
    intro rv dh again
    obtain ⟨later, _, ⟨front, _, fsm, _, _⟩ | ⟨_, fsm, _, _⟩⟩ := m.consume.conclude_cases rv dh again
    · exact Or.inr (by rw [fsm, empty]; rfl)
    · exact Or.inl (by rw [fsm, ← empty])
  cases taken with
  | ownIdle _ _ _ _ => exact concluded _ _ _
  | reported _ _ =>
    rw [goto_eventQueue]
    exact concluded _ _ _
  | _ => exact Or.inl (by simpa [startTimer] using empty)

theorem StimulusCase.handler {now : ℚ} {s : Stimulus} (taken : StimulusCase m now s m')
    (reach : DynamicHandler.Reach cfg uninitialised m.m_dynamicHandler) :
    DynamicHandler.Reach cfg uninitialised m'.m_dynamicHandler := by
  cases taken with
  | discovery => exact .discoveryDue _ reach
  | delayIdle _ =>
    rw [startNext_dynamicHandler]
    exact reach
  | _ => exact reach

end Handler

/-! Phases -/

/-- The command a state carries out. -/
def Fits : StateId → Cmd → Prop
  | .idle, _ => True
  | .startMaster, cmd => cmd = .send_master_start
  | .sendingToken, cmd => cmd = .send_token
  | .waitClientPacketDone, cmd => cmd = .send_token
  | .queryAddress, cmd => cmd = .query_address
  | .waitAddressReply, cmd => cmd = .query_address

/-- The state machine and the action handler agree on what is going on, and the
event queue never holds more than the event being processed. -/
structure Synced (m : Master) : Prop where
  registered : m.m_node.m_master = true
  settled : m.m_fsm.m_nextState = none
  sameAction : m.m_actionHandler.m_currentAction = m.m_fsm.m_currentAction
  queuedPosted : ∀ a ∈ m.queued, Posted a
  currentPosted : m.m_fsm.m_currentAction = Action.makeDoNothingAction ∨ Posted m.m_fsm.m_currentAction
  single : m.m_fsm.m_eventQueue.length ≤ 1
  fresh : .check_new_command ∈ m.m_fsm.m_eventQueue → m.m_fsm.m_state = .idle ∧ Posted m.m_fsm.m_currentAction
  fits : Fits m.m_fsm.m_state m.m_fsm.m_currentAction.m_action

namespace Synced

variable {m m' : Master}

/-- A state other than idle carries out a posted action. -/
theorem posted (synced : Synced m) (busy : m.m_fsm.m_state ≠ .idle) : Posted m.m_fsm.m_currentAction := by
  rcases synced.currentPosted with nothing | posted
  · have fits := synced.fits
    rw [nothing] at fits
    cases state : m.m_fsm.m_state <;> rw [state] at fits <;>
      first | exact absurd state busy | cases fits
  · exact posted

theorem idle_of_doNothing (synced : Synced m) (nothing : m.m_actionHandler.m_currentAction.doNothing = true) :
    m.m_fsm.m_state = .idle := by
  by_contra busy
  have posted := synced.posted busy
  rw [synced.sameAction] at nothing
  exact posted.2 (of_decide_eq_true nothing)

theorem posted_of_handles (synced : Synced m) {ev : Event} (queue : m.m_fsm.m_eventQueue = [ev])
    (handled : handles m.m_fsm.m_state ev = true) : Posted m.m_fsm.m_currentAction := by
  by_cases idle : m.m_fsm.m_state = .idle
  · rw [idle] at handled
    cases ev <;> simp only [handles, Bool.false_eq_true] at handled
    exact (synced.fresh (by simp [queue])).2
  · exact synced.posted idle

/-- A step of the master is one of the turns or of the stimuli listed above. -/
theorem step_cases (synced : Synced m) {l : Label} (step : Step m l m') :
    (∃ rxInProgress ev, l = .turn rxInProgress ∧ m.m_fsm.m_eventQueue = [ev] ∧ TurnCase m rxInProgress ev m') ∨
    (∃ now s, l = .stimulus now s ∧ m.m_fsm.m_eventQueue = [] ∧ m.m_now ≤ now ∧ m.Enabled s ∧
      StimulusCase m now s m') := by
  cases step with
  | @stimulus _ now s queue later enabled run =>
    exact Or.inr ⟨now, s, rfl, queue, later, enabled,
      stimulate_cases queue enabled synced.sameAction run⟩
  | @turn _ rxInProgress waiting run =>
    have single := synced.single
    match queue : m.m_fsm.m_eventQueue, waiting, single with
    | [ev], _, _ =>
      exact Or.inl ⟨rxInProgress, ev, rfl, rfl,
        turn_cases queue synced.settled (synced.posted_of_handles queue) run⟩

theorem posted_later (synced : Synced m) {again : Option ℚ} {addr : LocalAddress} {later : List Action}
    (perm : later.Perm (again.toList.map (fun _ => (Action.makeSendTokenAction addr).withReport) ++ m.queued)) :
    ∀ a ∈ later, Posted a :=
  forall_later perm ⟨rfl, by rintro ⟨⟩⟩ synced.queuedPosted

/-- The end of an action. The state machine is in idle by then or goes there. -/
theorem of_conclude (synced : Synced m) {ev : Event} (queue : m.m_fsm.m_eventQueue = [ev])
    {rv : ReturnValue} {dh : DynamicHandler} {again : Option ℚ} (idle : m'.m_fsm.m_state = .idle)
    (node : m'.m_node = m.m_node) (next : m'.m_fsm.m_nextState = none)
    (handler : m'.m_actionHandler = (m.consume.conclude rv dh again).m_actionHandler)
    (action : m'.m_fsm.m_currentAction = (m.consume.conclude rv dh again).m_fsm.m_currentAction)
    (events : m'.m_fsm.m_eventQueue = (m.consume.conclude rv dh again).m_fsm.m_eventQueue) : Synced m' := by
  have empty : m.consume.m_fsm.m_eventQueue = [] := by simp [consume, popEvent, queue]
  obtain ⟨later, perm, started⟩ := m.consume.conclude_cases rv dh again
  have laterPosted := synced.posted_later perm
  rcases started with ⟨front, front', fsm, _, rest⟩ | ⟨nothing, fsm, _, rest⟩
  · have frontPosted := laterPosted front (by simp [rest])
    have current : m'.m_fsm.m_currentAction = front := by rw [action, fsm]
    exact {
      registered := node ▸ synced.registered
      settled := next
      sameAction := by rw [handler, front', current]
      queuedPosted := fun a member => laterPosted a (by rw [queued, handler] at member; simp [rest, queued, member])
      currentPosted := Or.inr (current ▸ frontPosted)
      single := by simp [events, fsm, empty]
      fresh := fun _ => ⟨idle, current ▸ frontPosted⟩
      fits := by rw [idle]; trivial }
  · have current : m'.m_fsm.m_currentAction = Action.makeDoNothingAction := by rw [action, fsm]
    have none : m'.m_fsm.m_eventQueue = [] := by rw [events, fsm, ← empty]
    exact {
      registered := node ▸ synced.registered
      settled := next
      sameAction := by rw [handler, nothing, current]
      queuedPosted := fun a member => laterPosted a (by rw [queued, handler] at member; simp [rest, queued, member])
      currentPosted := Or.inl current
      single := by simp [none]
      fresh := by simp [none]
      fits := by rw [idle]; trivial }

/-- A turn that keeps the action in progress and moves to a state that fits it. -/
theorem of_sameAction (synced : Synced m) (registered : m'.m_node.m_master = m.m_node.m_master)
    (next : m'.m_fsm.m_nextState = m.m_fsm.m_nextState)
    (handler : m'.m_actionHandler.m_currentAction = m.m_actionHandler.m_currentAction)
    (action : m'.m_fsm.m_currentAction = m.m_fsm.m_currentAction) (empty : m'.m_fsm.m_eventQueue = [])
    (later : ∀ a ∈ m'.queued, Posted a) (fits : Fits m'.m_fsm.m_state m.m_fsm.m_currentAction.m_action) :
    Synced m' where
  registered := registered ▸ synced.registered
  settled := next ▸ synced.settled
  sameAction := by rw [handler, action, synced.sameAction]
  queuedPosted := later
  currentPosted := action ▸ synced.currentPosted
  single := by simp [empty]
  fresh := by simp [empty]
  fits := action ▸ fits

theorem turn (synced : Synced m) {rxInProgress : Bool} {ev : Event} (queue : m.m_fsm.m_eventQueue = [ev])
    (taken : TurnCase m rxInProgress ev m') : Synced m' := by
  have empty := m.consume_eventQueue queue
  have later := synced.queuedPosted
  have fits := synced.fits
  cases taken with
  | ignored _ => exact synced.of_sameAction rfl rfl rfl rfl empty later fits
  | ownIdle state _ _ settles =>
    exact synced.of_conclude queue (by simpa using state) (by simp) (by simpa using synced.settled) rfl rfl rfl
  | ownSends state action _ _ =>
    exact synced.of_sameAction (by simp) (by simp) (by simp) (by simp) (by simpa using empty)
      (by simpa [queued] using later) (by simpa [Fits] using action)
  | grants state action _ =>
    exact synced.of_sameAction (by simp) (by simp) (by simp) (by simp) (by simpa using empty)
      (by simpa [queued] using later) (by simpa [Fits] using action)
  | queries state action =>
    exact synced.of_sameAction (by simp) (by simp) (by simp) (by simp) (by simpa using empty)
      (by simpa [queued] using later) (by simpa [Fits] using action)
  | starts state action =>
    exact synced.of_sameAction (by simp) (by simp) (by simp) (by simp) (by simpa using empty)
      (by simpa [queued] using later) (by simpa [Fits] using action)
  | grantSeen state =>
    rw [state] at fits
    exact synced.of_sameAction (by simp) (by simp) (by simp) (by simp) (by simpa using empty)
      (by simpa [queued] using later) (by simpa [Fits] using fits)
  | grantLost state =>
    exact synced.of_sameAction (by simp) (by simp) (by simp) (by simp) (by simpa using empty)
      (by simpa [queued] using later) (by simp [Fits])
  | @requested aReq state =>
    rw [state] at fits
    have posted : ∀ a ∈ (m.consume.receivedAddressRequest aReq).queued, Posted a := by
      intro a member
      rcases m.consume.mem_queued_receivedAddressRequest aReq member with old | ⟨_, rfl⟩
      · exact later a old
      · exact ⟨rfl, by rintro ⟨⟩⟩
    exact synced.of_sameAction (by simp) (by simp) (by simp) (by simp) (by simpa using empty)
      (by simpa [queued] using posted) (by simpa [Fits] using fits)
  | rearmed _ => exact synced.of_sameAction rfl rfl rfl rfl empty later fits
  | reported result settles =>
    exact synced.of_conclude queue (by simp) (by simp) (by simpa using synced.settled)
      (goto_actionHandler _ _) (goto_currentAction _ _) (goto_eventQueue _ _)

theorem stimulus (synced : Synced m) {now : ℚ} {s : Stimulus} (queue : m.m_fsm.m_eventQueue = [])
    (taken : StimulusCase m now s m') : Synced m' := by
  have none : ∀ q : TxQueue, Synced ((m.wake now).setTxQueue q) := fun q =>
    ⟨synced.registered, synced.settled, synced.sameAction, synced.queuedPosted, synced.currentPosted,
      synced.single, synced.fresh, synced.fits⟩
  cases taken with
  | @packet bb _ node effects received =>
    obtain ⟨_, _, master, told⟩ := PacketTypeCodec.rxRawPacket_reaction received
    have events := filterMap_masterEvent synced.registered told
    have noCheck := packetEvent_ne_check bb
    refine ⟨master.trans synced.registered, synced.settled, synced.sameAction, synced.queuedPosted,
      synced.currentPosted, ?_, ?_, synced.fits⟩
    · dsimp only
      rw [events]
      cases packetEvent bb <;> simp
    · intro check
      dsimp only at check
      rw [events, Option.mem_toList] at check
      exact absurd check noCheck
  | sendPacket => exact none _
  | sendMacUpdate => exact none _
  | timer =>
    exact ⟨synced.registered, synced.settled, synced.sameAction, synced.queuedPosted, synced.currentPosted,
      by simp, by simp, synced.fits⟩
  | delayBusy _ =>
    exact ⟨synced.registered, synced.settled, synced.sameAction, synced.queuedPosted, synced.currentPosted,
      synced.single, synced.fresh, synced.fits⟩
  | @delayIdle timeout nothing =>
    have idle := synced.idle_of_doNothing nothing
    rcases startNext_cases { m.wake now with m_actionHandler := { m.m_actionHandler with
      m_delayAction := m.m_actionHandler.m_delayAction.expire timeout } } with
      ⟨front, action, fsm, _, rest⟩ | ⟨action, fsm, _, rest⟩
    · have all : ∀ a ∈ m.queued, Posted a := synced.queuedPosted
      have frontPosted := all front (rest ▸ List.mem_cons_self)
      refine ⟨by simpa [wake] using synced.registered, by simpa [wake] using synced.settled, by rw [action, fsm],
        fun a member => all a (rest ▸ List.mem_cons_of_mem _ member), by rw [fsm]; exact Or.inr frontPosted,
        by rw [fsm]; simp [wake, queue], ?_, ?_⟩
      · intro _
        rw [fsm]
        exact ⟨idle, frontPosted⟩
      · rw [fsm]
        dsimp only [wake]
        rw [idle]
        trivial
    · refine ⟨by simpa [wake] using synced.registered, by simpa [wake] using synced.settled, ?_,
        fun a member => synced.queuedPosted a (rest ▸ member), ?_, ?_, ?_, ?_⟩
      · rw [action, fsm]
        exact synced.sameAction
      · rw [fsm]
        exact synced.currentPosted
      · rw [fsm]
        exact synced.single
      · rw [fsm]
        exact synced.fresh
      · rw [fsm]
        exact synced.fits
  | discovery =>
    refine ⟨synced.registered, synced.settled, synced.sameAction, ?_, synced.currentPosted, synced.single,
      synced.fresh, synced.fits⟩
    intro a member
    have perm := MasterScheduler.queued_addActionNow m.m_actionHandler.m_scheduler
      Action.makeQueryAddressAction.withReport
    rcases List.mem_cons.mp (perm.mem_iff.mp member) with rfl | old
    · exact ⟨rfl, by rintro ⟨⟩⟩
    · exact synced.queuedPosted a old
  | reordered reorders =>
    exact ⟨synced.registered, synced.settled, synced.sameAction,
      fun a member => synced.queuedPosted a (reorders.queued.mem_iff.mp member), synced.currentPosted, synced.single,
      synced.fresh, synced.fits⟩

theorem step (synced : Synced m) {l : Label} (step : Step m l m') : Synced m' := by
  rcases synced.step_cases step with ⟨_, _, _, queue, taken⟩ | ⟨_, _, _, queue, _, _, taken⟩
  · exact synced.turn queue taken
  · exact synced.stimulus queue taken

end Synced

/-! The start -/

/-- What a master that has just been constructed has to do after the start
message: a token for every static address, then a search for dynamic clients. -/
def startActions (cfg : Config) : List Action :=
  (cfg.staticAddresses.map fun i => (Action.makeSendTokenAction (toLocalAddress i)).withReport) ++
    [Action.makeQueryAddressAction.withReport]

/-- The master after its constructor. -/
def started (cfg : Config) (node : PacketTypeCodec) (uninitialised : Nat → UniqueId) (now : ℚ) : Master where
  m_now := now
  m_node := { node with m_master := true }
  m_fsm := ⟨.idle, 1, none, [.check_new_command], .unset, Action.makeMasterStartAction.withReport⟩
  m_actionHandler := ⟨⟨[], startActions cfg⟩, .unset, Action.makeMasterStartAction.withReport⟩
  m_dynamicHandler := (DynamicHandler.start cfg uninitialised).1
  m_log := ⟨1, 0, []⟩
  m_out := []

theorem foldl_postActionNow (actions : List Action) (m : Master) :
    (actions.map DynamicCall.postActionNow).foldl dynamicCall m =
      m.setScheduler { m.m_actionHandler.m_scheduler with
        m_ready := m.m_actionHandler.m_scheduler.m_ready ++ actions.map Action.withReport } := by
  induction actions generalizing m with
  | nil => simp [setScheduler]
  | cons a rest ih =>
    rw [List.map_cons, List.foldl_cons, ih]
    simp [dynamicCall, postActionNow, setScheduler, MasterScheduler.addActionNow]

theorem start_eq (cfg : Config) (node : PacketTypeCodec) (uninitialised : Nat → UniqueId) (now : ℚ) :
    start cfg node uninitialised now = .ok (started cfg node uninitialised now) := by
  have calls : (DynamicHandler.start cfg uninitialised).2 =
      ((cfg.staticAddresses.map fun i => Action.makeSendTokenAction (toLocalAddress i)) ++
        [Action.makeQueryAddressAction]).map DynamicCall.postActionNow := by
    simp [DynamicHandler.start, Function.comp_def]
  rw [start, setup, calls, foldl_postActionNow, checkNewAction_idle rfl rfl]
  simp [startNext, launch, setScheduler, postActionNow, MasterScheduler.addActionNow, MasterScheduler.release,
    started, startActions, Function.comp_def]

theorem started_synced (cfg : Config) (node : PacketTypeCodec) (uninitialised : Nat → UniqueId) (now : ℚ) :
    Synced (started cfg node uninitialised now) := by
  have first : Posted Action.makeMasterStartAction.withReport := ⟨rfl, by rintro ⟨⟩⟩
  refine ⟨rfl, rfl, rfl, ?_, Or.inr first, Nat.le_refl 1, fun _ => ⟨rfl, first⟩, trivial⟩
  intro a member
  simp only [queued, MasterScheduler.queued, started, startActions, List.map_nil, List.append_nil,
    List.mem_append, List.mem_map, List.mem_singleton] at member
  rcases member with ⟨i, _, rfl⟩ | rfl
  · exact ⟨rfl, by rintro ⟨⟩⟩
  · exact ⟨rfl, by rintro ⟨⟩⟩

/-- The runs of a master whose steps meet a condition. -/
def Reach (allowed : Master → Label → Prop) (cfg : Config) (node : PacketTypeCodec)
    (uninitialised : Nat → UniqueId) (now : ℚ) (m : Master) : Prop :=
  ∃ m₀, start cfg node uninitialised now = .ok m₀ ∧ LabelledReach Step allowed m₀ m

section Runs

variable {allowed : Master → Label → Prop} {cfg : Config} {node : PacketTypeCodec}
  {uninitialised : Nat → UniqueId} {now : ℚ} {m : Master}

theorem Reach.of_started (reach : LabelledReach Step allowed (started cfg node uninitialised now) m) :
    Reach allowed cfg node uninitialised now m :=
  ⟨_, start_eq cfg node uninitialised now, reach⟩

theorem Reach.from_started (reach : Reach allowed cfg node uninitialised now m) :
    LabelledReach Step allowed (started cfg node uninitialised now) m := by
  obtain ⟨m₀, constructed, run⟩ := reach
  rw [start_eq] at constructed
  cases constructed
  exact run

theorem Reach.synced (reach : Reach allowed cfg node uninitialised now m) : Synced m :=
  reach.from_started.invariant (started_synced cfg node uninitialised now) fun synced _ step => synced.step step

/-- The invariant rule for masters, whose states are known to be synced. -/
theorem Reach.invariant {P : Master → Prop} (reach : Reach allowed cfg node uninitialised now m)
    (initial : P (started cfg node uninitialised now))
    (preserved : ∀ {m m' l}, Synced m → P m → allowed m l → Step m l m' → P m') : P m := by
  have both : Synced m ∧ P m := reach.from_started.invariant (P := fun m => Synced m ∧ P m)
    ⟨started_synced cfg node uninitialised now, initial⟩
    fun held ok step => ⟨held.1.step step, preserved held.1 held.2 ok step⟩
  exact both.2

end Runs

instance (m : Master) (s : Stimulus) : Decidable (m.Enabled s) :=
  match s with
  | .timer timeout => inferInstanceAs (Decidable (timeout ∈ m.m_fsm.m_timer.pending))
  | .delayAction timeout => inferInstanceAs (Decidable (timeout ∈ m.m_actionHandler.m_delayAction.pending))
  | .discovery timeout => inferInstanceAs (Decidable (timeout ∈ m.m_dynamicHandler.m_timer.pending))
  | .reordered waiting => inferInstanceAs (Decidable (m.m_actionHandler.m_scheduler.Reorders waiting))
  | .rxRawPacket .. => inferInstanceAs (Decidable True)
  | .msgHostTx_sendPacket .. => inferInstanceAs (Decidable True)
  | .msgHostTx_sendMacUpdate .. => inferInstanceAs (Decidable True)

/-- A step as a function. -/
def exec (m : Master) : Label → Option Master
  | .stimulus now s =>
    if m.m_fsm.m_eventQueue = [] ∧ m.m_now ≤ now ∧ m.Enabled s then (m.stimulate now s).toOption else none
  | .turn rxInProgress => if m.m_fsm.m_eventQueue ≠ [] then (m.turn rxInProgress).toOption else none

theorem toOption_eq_some {x : Except Fault Master} {m : Master} (ok : x.toOption = some m) : x = .ok m := by
  cases x with
  | error => cases ok
  | ok a => rw [Option.some.inj ok]

theorem exec_step {m m' : Master} {l : Label} (run : m.exec l = some m') : Step m l m' := by
  cases l with
  | stimulus now s =>
    simp only [exec] at run
    split at run
    · rename_i able
      exact .stimulus able.1 able.2.1 able.2.2 (toOption_eq_some run)
    · cases run
  | turn rxInProgress =>
    simp only [exec] at run
    split at run
    · rename_i waiting
      exact .turn waiting (toOption_eq_some run)
    · cases run

/-- What a master shows after a script has been followed, it shows in some run. -/
theorem reach_of_script (allowed : Master → Label → Prop) [∀ m l, Decidable (allowed m l)] (cfg : Config)
    (node : PacketTypeCodec) (uninitialised : Nat → UniqueId) (now : ℚ) (script : List Label) (P : Master → Bool)
    (run : (LabelledReach.follow (fun m l => if allowed m l then exec m l else none)
      (started cfg node uninitialised now) script).any P = true) :
    ∃ m, Reach allowed cfg node uninitialised now m ∧ P m = true := by
  obtain ⟨m, reach, holds⟩ := LabelledReach.exists_of_script exec allowed id exec_step _ script P run
  exact ⟨m, .of_started reach, holds⟩

/-! A small network to try things out on -/

def sampleId : UniqueId := ⟨[0, 0, 0, 0, 0, 0, 0, 1], rfl⟩

/-- The own node of a master, with an address that is not polled. -/
def sampleNode : PacketTypeCodec := .make (.make 9 false) sampleId none false

def sampleStack : ChannelType × Crc32 := (.illegal_type, ⟨[0, 0, 0, 0], rfl⟩)

/-- The master starts and hears its start message. -/
def startScript : List Label :=
  [.turn false, .stimulus 1000 (.rxRawPacket packet.masterStarted sampleStack), .turn false]

/-- The token is offered to address `k + 1`, heard on the bus, and not answered. -/
def missedPoll (k : Nat) : List Label :=
  [.turn false,
    .stimulus (1000 + 2 * k / 25) (.rxRawPacket (packet.GrantToken.fromHeader ⟨toLocalAddress (k + 1)⟩) sampleStack),
    .turn false, .stimulus (1000 + 2 * (k + 1) / 25) (.timer ⟨1000 + 2 * (k + 1) / 25, 5 + 3 * k⟩), .turn false]

/-- The three static addresses are polled in vain, and the search for clients
begins. -/
def pollScript : List Label := startScript ++ missedPoll 0 ++ missedPoll 1 ++ missedPoll 2 ++ [.turn false]

/-- Nobody answers the search. -/
def missedSearch : List Label := [.stimulus (1000 + 8 / 25) (.timer ⟨1000 + 8 / 25, 13⟩), .turn false]

end SerialNet.Master
