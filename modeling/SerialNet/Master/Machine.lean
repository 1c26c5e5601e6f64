import SerialNet.Lib.Reach
import SerialNet.Reaction
import SerialNet.Master.AddressPool

namespace SerialNet

inductive StateId
  | idle
  | startMaster
  | sendingToken
  | waitClientPacketDone
  | queryAddress
  | waitAddressReply
deriving DecidableEq, Repr

inductive Event
  | rx_pkt_master_start_stop
  | rx_pkt_grant_token
  | rx_pkt_client_packet
  | rx_return_token
  | rx_pkt_address_request (eventData : packet.AddressRequest)
  | timer_timeout
  | check_new_command
deriving DecidableEq

/-- A timeout of the state machine, with the number of the state object that
started it. -/
structure FsmTimeout where
  deadline : ℚ
  armedBy : Nat
deriving DecidableEq

/-- All states are roots, so that one of them is active. `m_object` numbers the
state objects as they are constructed, `m_nextState` is a requested transition
that has not been performed yet. -/
structure MasterFSM where
  m_state : StateId
  m_object : Nat
  m_nextState : Option StateId
  m_eventQueue : List Event
  m_timer : Timer FsmTimeout
  m_currentAction : Action
deriving DecidableEq

structure ActionHandler where
  m_scheduler : MasterScheduler
  m_delayAction : Timer ℚ
  m_currentAction : Action
deriving DecidableEq

/-- Book-keeping for the actions passed to `startAction`, numbered in the order
of the calls: how many there were, which of them `m_currentAction` is a copy of,
and the callbacks made so far. -/
structure ActionLog where
  started : Nat
  ticket : Nat
  reports : List (Nat × ReturnValue)
deriving DecidableEq

/-- Where the program stops: an assertion fails or a null pointer is used. -/
inductive Fault
  | actionActive
  | badReturnValue
  | noLine
  | shortPacket
deriving DecidableEq, Repr

/-- The master together with its own node. `m_now` is the time of the callback
being run, `m_out` what it has sent and handed to the host. -/
structure Master where
  m_now : ℚ
  m_node : PacketTypeCodec
  m_fsm : MasterFSM
  m_actionHandler : ActionHandler
  m_dynamicHandler : DynamicHandler
  m_log : ActionLog
  m_out : List Effect
deriving DecidableEq

namespace Master

/-! Transmission -/

def sendMasterPacket (m : Master) (bb : ByteVec) : Master :=
  { m with m_out := m.m_out ++ [.sendMsg bb] }

def sendToken (m : Master) (destAddr : LocalAddress) : Master :=
  m.sendMasterPacket (packet.GrantToken.fromHeader ⟨destAddr⟩)

def sendMasterStart (m : Master) : Master := m.sendMasterPacket packet.masterStarted

def sendAddressDiscovery (m : Master) : Master :=
  m.sendMasterPacket (packet.AddressDiscovery.fromHeader ⟨0, 0⟩)

def sendAddressReply (m : Master) (addr : LocalAddress) (id : UniqueId) : Master :=
  m.sendMasterPacket (packet.AddressReply.fromHeader ⟨addr, id⟩)

/-- The own client has the token. -/
def sendClientPacket (m : Master) : Master :=
  let sent := m.m_node.m_txQueue.sendClientPacket
  { m with m_node := { m.m_node with m_txQueue := sent.1 }, m_out := m.m_out ++ sent.2 }

/-! The state machine as seen by its states -/

/-- Callers run the event loop afterwards, or are run by it. -/
def postEvent (m : Master) (ev : Event) : Master :=
  { m with m_fsm := { m.m_fsm with m_eventQueue := m.m_fsm.m_eventQueue ++ [ev] } }

def transition (m : Master) (id : StateId) : Master :=
  { m with m_fsm := { m.m_fsm with m_nextState := some id } }

def startTimer (m : Master) (interval : ℚ) : Master :=
  { m with m_fsm := { m.m_fsm with
      m_timer := m.m_fsm.m_timer.assign ⟨m.m_now + interval, m.m_fsm.m_object⟩ } }

def cleanTimer (m : Master) : Master :=
  { m with m_fsm := { m.m_fsm with m_timer := m.m_fsm.m_timer.cancel } }

def actionActive (m : Master) : Bool := m.m_fsm.m_currentAction.m_action ≠ .do_nothing

def startAction (m : Master) (action : Action) : Except Fault Master :=
  if m.actionActive then
    .error .actionActive
  else
    let m_log := { m.m_log with started := m.m_log.started + 1, ticket := m.m_log.started }
    .ok ({ m with m_fsm := { m.m_fsm with m_currentAction := action }, m_log }.postEvent .check_new_command)

/-! The action handler -/

def setScheduler (m : Master) (s : MasterScheduler) : Master :=
  { m with m_actionHandler := { m.m_actionHandler with m_scheduler := s } }

def postActionNow (m : Master) (a : Action) : Master :=
  m.setScheduler (m.m_actionHandler.m_scheduler.addActionNow a.withReport)

def postAction (m : Master) (a : Action) (time : ℚ) : Master :=
  m.setScheduler (m.m_actionHandler.m_scheduler.addAction a.withReport time)

def checkNewAction (m : Master) : Except Fault Master :=
  if m.m_actionHandler.m_currentAction.doNothing then
    let scheduler := m.m_actionHandler.m_scheduler.release m.m_now
    match scheduler.m_ready with
    | front :: rest =>
      { m with m_actionHandler := { m.m_actionHandler with
          m_scheduler := { scheduler with m_ready := rest }
          m_currentAction := front } }.startAction front
    | [] =>
      if scheduler.readyTime < 1 then
        .ok (m.setScheduler scheduler)
      else
        .ok { m with m_actionHandler := { m.m_actionHandler with
          m_scheduler := scheduler
          m_delayAction := m.m_actionHandler.m_delayAction.assign scheduler.readyTime } }
  else
    .ok m

def dynamicCall (m : Master) : DynamicCall → Master
  | .postActionNow a => m.postActionNow a
  | .postAction a time => m.postAction a time
  | .sendAddressReply addr id => m.sendAddressReply addr id

def updateAddressLine (m : Master) (addr : LocalAddress) (newState : AddressLine.State) :
    Except Fault Master :=
  match m.m_dynamicHandler.updateAddressLine m.m_now addr newState with
  | none => .error .noLine
  | some (m_dynamicHandler, calls) => .ok (calls.foldl dynamicCall { m with m_dynamicHandler })

def receivedAddressRequest (m : Master) (aReq : packet.AddressRequest) : Master :=
  let handled := m.m_dynamicHandler.receivedAddressRequest aReq
  handled.2.foldl dynamicCall { m with m_dynamicHandler := handled.1 }

def addressDiscoveryIsDone (m : Master) : Master :=
  { m with m_dynamicHandler := m.m_dynamicHandler.addressDiscoveryIsDone m.m_now }

/-- `ActionHandler::reportActionResult` -/
def handleActionResult (m : Master) (rv : ReturnValue) : Except Fault Master := do
  let addr := m.m_actionHandler.m_currentAction.m_address
  let m := { m with m_actionHandler :=
    { m.m_actionHandler with m_currentAction := Action.makeDoNothingAction } }
  let m ← match rv with
    | .client_packet_started => m.updateAddressLine addr .active
    | .rx_token_no_packet => m.updateAddressLine addr .idle
    | .token_timeout => m.updateAddressLine addr .badClient
    | .address_query_done => .ok m.addressDiscoveryIsDone
    | .ok => .ok m
    | .timeout => .error .badReturnValue
    | .not_set => .error .badReturnValue
  m.checkNewAction

/-- `MasterFSM::reportActionResult` -/
def reportActionResult (m : Master) (rv : ReturnValue) : Except Fault Master :=
  let cb := m.m_fsm.m_currentAction.m_reportCB
  let m := { m with m_fsm := { m.m_fsm with m_currentAction := Action.makeDoNothingAction } }
  if cb then
    { m with m_log := { m.m_log with
        reports := m.m_log.reports ++ [(m.m_log.ticket, rv)] } }.handleActionResult rv
  else
    .ok m

/-! The states. What their constructors and destructors do comes first. -/

def enterState (m : Master) (s : StateId) : Master :=
  let m := { m with m_fsm := { m.m_fsm with m_state := s, m_object := m.m_fsm.m_object + 1 } }
  match s with
  | .idle => m
  | .startMaster => m.sendMasterStart.startTimer (1 / 10)
  | .sendingToken => m.startTimer Config.masterTokenGrantTx2RxTime
  | .waitClientPacketDone => m.startTimer Config.masterTokenClientTimeout
  | .queryAddress => (m.startTimer Config.masterTokenClientTimeout).sendAddressDiscovery
  | .waitAddressReply => m.startTimer Config.masterTokenClientTimeout

def exitState (m : Master) : Except Fault Master :=
  match m.m_fsm.m_state with
  | .idle => .ok m
  | .waitAddressReply => m.cleanTimer.reportActionResult .address_query_done
  | _ => .ok m.cleanTimer

/-- No constructor or destructor asks for another transition, so that one round of
the loop is all there is. -/
def prepareTransition (m : Master) : Except Fault Master :=
  match m.m_fsm.m_nextState with
  | none => .ok m
  | some s => do
    let left ← { m with m_fsm := { m.m_fsm with m_nextState := none } }.exitState
    .ok (left.enterState s)

def decodeAction (m : Master) (action : Action) : Except Fault Master :=
  match action.m_action with
  | .do_nothing => .ok m
  | .send_token =>
    if action.m_address = m.m_node.m_txQueue.clientAddress then
      if m.m_node.m_txQueue.txQueueEmpty then
        m.reportActionResult .rx_token_no_packet
      else
        .ok (m.sendClientPacket.transition .waitClientPacketDone)
    else
      .ok ((m.sendToken action.m_address).transition .sendingToken)
  | .query_address => .ok (m.transition .queryAddress)
  | .send_master_start => .ok (m.transition .startMaster)

def idleEvent (m : Master) : Event → Except Fault Master
  | .check_new_command => m.decodeAction m.m_fsm.m_currentAction
  | _ => .ok m

/-- Report a result and leave for idle. -/
def reportAndIdle (m : Master) (rv : ReturnValue) : Except Fault Master := do
  let reported ← m.reportActionResult rv
  .ok (reported.transition .idle)

def masterStartEvent (m : Master) : Event → Except Fault Master
  | .rx_pkt_master_start_stop => m.reportAndIdle .ok
  | .timer_timeout => m.reportAndIdle .timeout
  | _ => .ok m

def sendingTokenEvent (m : Master) : Event → Except Fault Master
  | .rx_pkt_grant_token => .ok (m.transition .waitClientPacketDone)
  | .timer_timeout => .ok (m.transition .idle)
  | _ => .ok m

def waitClientPacketDoneEvent (m : Master) (rxInProgress : Bool) : Event → Except Fault Master
  | .rx_pkt_client_packet => m.reportAndIdle .client_packet_started
  | .rx_return_token => m.reportAndIdle .rx_token_no_packet
  | .timer_timeout =>
    if rxInProgress then .ok (m.startTimer Config.masterTokenClientTimeout)
    else m.reportAndIdle .token_timeout
  | _ => .ok m

def queryAddressEvent (m : Master) (rxInProgress : Bool) : Event → Except Fault Master
  | .timer_timeout =>
    if rxInProgress then .ok (m.startTimer Config.masterTokenClientTimeout)
    else m.reportAndIdle .address_query_done
  | .rx_pkt_address_request aReq => .ok ((m.receivedAddressRequest aReq).transition .waitAddressReply)
  | _ => .ok m

/-- The result is reported by the destructor. -/
def waitAddressReplyEvent (m : Master) (rxInProgress : Bool) : Event → Except Fault Master
  | .timer_timeout =>
    if rxInProgress then .ok (m.startTimer Config.masterTokenClientTimeout)
    else .ok (m.transition .idle)
  | _ => .ok m

def emitEvent (m : Master) (rxInProgress : Bool) (ev : Event) : Except Fault Master :=
  match m.m_fsm.m_state with
  | .idle => m.idleEvent ev
  | .startMaster => m.masterStartEvent ev
  | .sendingToken => m.sendingTokenEvent ev
  | .waitClientPacketDone => m.waitClientPacketDoneEvent rxInProgress ev
  | .queryAddress => m.queryAddressEvent rxInProgress ev
  | .waitAddressReply => m.waitAddressReplyEvent rxInProgress ev

def processEvent (m : Master) (rxInProgress : Bool) (ev : Event) : Except Fault Master := do
  let emitted ← m.emitEvent rxInProgress ev
  emitted.prepareTransition

def popEvent (m : Master) : Master :=
  { m with m_fsm := { m.m_fsm with m_eventQueue := m.m_fsm.m_eventQueue.tail } }

/-- One turn of the loop in `postEvent`. The event stays at the front of the queue
while it is processed; `rxInProgress` is what the frame layer answers meanwhile. -/
def turn (m : Master) (rxInProgress : Bool) : Except Fault Master :=
  match m.m_fsm.m_eventQueue with
  | [] => .ok m
  | ev :: _ => do
    let processed ← { m with m_out := [] }.processEvent rxInProgress ev
    .ok processed.popEvent

/-! What reaches the master from outside -/

def masterPacketReceived (m : Master) (type : MessageType) (bb : ByteVec) : Master :=
  match type with
  | .grant_token => m.postEvent .rx_pkt_grant_token
  | .return_token => m.postEvent .rx_return_token
  | .send_packet => m.postEvent .rx_pkt_client_packet
  | .master_started => m.postEvent .rx_pkt_master_start_stop
  | .master_ended => m.postEvent .rx_pkt_master_start_stop
  | .mac_update => m.postEvent .rx_pkt_client_packet
  | .address_discovery => m
  | .address_request =>
    match packet.AddressRequest.toHeader bb with
    | some aReq => m.postEvent (.rx_pkt_address_request aReq)
    | none => m
  | .address_reply => m

/-- The effects of the own node: some are for the master, the others go out. -/
def nodeEffect (m : Master) : Effect → Master
  | .masterPacketReceived type bb => m.masterPacketReceived type bb
  | effect => { m with m_out := m.m_out ++ [effect] }

inductive Stimulus
  | rxRawPacket (bb : ByteVec) (stack : ChannelType × Crc32)
  | msgHostTx_sendPacket (data : ByteVec) (destAddr : LocalAddress) (chType : ChannelType)
  | msgHostTx_sendMacUpdate (mac : MacAddr)
  | timer (timeout : FsmTimeout)
  | delayAction (timeout : ℚ)
  | discovery (timeout : ℚ)
  | reordered (waiting : List QueueEl)

/-- A timer can only expire while it is running. Between two callbacks waiting actions that
compare equal may change places. -/
def Enabled (m : Master) : Stimulus → Prop
  | .timer timeout => timeout ∈ m.m_fsm.m_timer.pending
  | .delayAction timeout => timeout ∈ m.m_actionHandler.m_delayAction.pending
  | .discovery timeout => timeout ∈ m.m_dynamicHandler.m_timer.pending
  | .reordered waiting => m.m_actionHandler.m_scheduler.Reorders waiting
  | _ => True

def setTxQueue (m : Master) (q : TxQueue) : Master := { m with m_node := { m.m_node with m_txQueue := q } }

/-- A callback of the event loop at time `now`. What it posts to the state machine
is processed by the turns that follow. The last one stands for the choice of the priority
queue. -/
def stimulate (m : Master) (now : ℚ) (s : Stimulus) : Except Fault Master :=
  let m := { m with m_now := now, m_out := [] }
  match s with
  | .rxRawPacket bb stack =>
    match m.m_node.rxRawPacket bb stack with
    | none => .error .shortPacket
    | some (m_node, effects) => .ok (effects.foldl nodeEffect { m with m_node })
  | .msgHostTx_sendPacket data destAddr chType =>
    .ok (m.setTxQueue (m.m_node.m_txQueue.msgHostTx_sendPacket data destAddr chType))
  | .msgHostTx_sendMacUpdate mac => .ok (m.setTxQueue (m.m_node.m_txQueue.msgHostTx_sendMacUpdate mac))
  | .timer timeout =>
    .ok ({ m with m_fsm := { m.m_fsm with
      m_timer := m.m_fsm.m_timer.expire timeout } }.postEvent .timer_timeout)
  | .delayAction timeout =>
    { m with m_actionHandler := { m.m_actionHandler with
      m_delayAction := m.m_actionHandler.m_delayAction.expire timeout } }.checkNewAction
  | .discovery timeout =>
    .ok ({ m with m_dynamicHandler := { m.m_dynamicHandler with
      m_timer := m.m_dynamicHandler.m_timer.expire timeout } }.postActionNow Action.makeQueryAddressAction)
  | .reordered waiting => .ok (m.setScheduler (m.m_actionHandler.m_scheduler.reorder waiting))

/-- Construction of the parts, before the first action is started. -/
def setup (cfg : Config) (node : PacketTypeCodec) (uninitialised : Nat → UniqueId) (now : ℚ) : Master :=
  let started := DynamicHandler.start cfg uninitialised
  let m : Master :=
    { m_now := now
      m_node := { node with m_master := true }
      m_fsm := ⟨.idle, 1, none, [], .unset, Action.makeDoNothingAction⟩
      m_actionHandler := ⟨⟨[], []⟩, .unset, Action.makeDoNothingAction⟩
      m_dynamicHandler := started.1
      m_log := ⟨0, 0, []⟩
      m_out := [] }
  started.2.foldl dynamicCall (m.postActionNow Action.makeMasterStartAction)

/-- The constructor of `Master`. -/
def start (cfg : Config) (node : PacketTypeCodec) (uninitialised : Nat → UniqueId) (now : ℚ) :
    Except Fault Master :=
  (setup cfg node uninitialised now).checkNewAction

inductive Label
  | stimulus (now : ℚ) (s : Stimulus)
  | turn (rxInProgress : Bool)

/-- Callbacks run one after the other, at times that do not decrease, and each
only after the event queue has been emptied. -/
inductive Step : Master → Label → Master → Prop
  | stimulus {m m' : Master} {now : ℚ} {s : Stimulus} : m.m_fsm.m_eventQueue = [] → m.m_now ≤ now →
      m.Enabled s → m.stimulate now s = .ok m' → Step m (.stimulus now s) m'
  | turn {m m' : Master} {rxInProgress : Bool} : m.m_fsm.m_eventQueue ≠ [] →
      m.turn rxInProgress = .ok m' → Step m (.turn rxInProgress) m'

end Master

end SerialNet
