import SerialNet.Bus.Arbitration

namespace SerialNet.Bus

open PacketTypeCodec Master

/-! What the own node sends with the token -/

theorem sendClientPacket_spec {m : Master} (dataOnly : DataOnly m.m_node.m_txQueue)
    (packets : m.m_node.m_txQueue.txQueueEmpty = false) :
    (∃ r, m.sendClientPacket.m_out = m.m_out ++ [.sendMsg r] ∧ isData r = true) ∧
      DataOnly m.sendClientPacket.m_node.m_txQueue ∧ face m.sendClientPacket.m_node = face m.m_node := by
  unfold Master.sendClientPacket TxQueue.sendClientPacket
  split
  · rename_i none
    rw [TxQueue.txQueueEmpty, none] at packets
    cases packets
  · rename_i r rest queue
    refine ⟨⟨r, rfl, dataOnly r (by simp [queue])⟩, ?_, rfl⟩
    intro msg member
    exact dataOnly msg (by rw [queue]; exact List.mem_cons_of_mem _ member)

theorem receivedAddressRequest_out (m : Master) (aReq : packet.AddressRequest) :
    (m.receivedAddressRequest aReq).m_out = m.m_out ∨
      ∃ d, (m.receivedAddressRequest aReq).m_out = m.m_out ++ [.sendMsg (reply d aReq.m_uniqueId)] := by
  rcases m.receivedAddressRequest_cases aReq with ⟨line, _, _, known⟩ | ⟨_, _, nothing⟩ | ⟨_, _, d, _, new⟩
  · rw [known]
    exact Or.inr ⟨line.m_address, rfl⟩
  · rw [nothing]
    exact Or.inl rfl
  · rw [new]
    exact Or.inr ⟨d, rfl⟩

/-- Its own node only ever sends a packet that the master's host has queued. -/
theorem face_turn {m m' : Master} {rxInProgress : Bool} {ev : Event} (taken : TurnCase m rxInProgress ev m')
    (dataOnly : DataOnly m.m_node.m_txQueue) : face m'.m_node = face m.m_node ∧ DataOnly m'.m_node.m_txQueue := by
  cases taken with
  | ownSends _ _ _ packets =>
    obtain ⟨_, less, same⟩ := sendClientPacket_spec (m := m.consume) dataOnly packets
    rw [goto_node]
    exact ⟨same, less⟩
  | _ => simpa [startTimer] using dataOnly

/-- Apart from packets, nothing that happens to the master is for the others to
see. -/
theorem stimulus_frame {m m' : Master} {now : ℚ} {s : Stimulus} (local_ : Local (.stimulus now s))
    (taken : StimulusCase m now s m') (dataOnly : DataOnly m.m_node.m_txQueue) :
    face m'.m_node = face m.m_node ∧ DataOnly m'.m_node.m_txQueue ∧
      m'.m_dynamicHandler.keys = m.m_dynamicHandler.keys ∧ sentBy m'.m_out = [] := by
  have submitted : ∀ {q : TxQueue}, Submits m.m_node.m_txQueue q →
      face ((m.wake now).setTxQueue q).m_node = face m.m_node ∧ DataOnly q := by
    intro q submits
    refine ⟨?_, submits.dataOnly dataOnly⟩
    simp only [face, identity, address, dynamic, TxQueue.clientAddress, setTxQueue, wake, submits.ownAddress]
  cases taken with
  | packet _ => cases local_
  | sendPacket =>
    obtain ⟨same, less⟩ := submitted (.packet _ _ _)
    exact ⟨same, less, rfl, rfl⟩
  | sendMacUpdate =>
    obtain ⟨same, less⟩ := submitted (.macUpdate _)
    exact ⟨same, less, rfl, rfl⟩
  | timer => exact ⟨rfl, dataOnly, rfl, rfl⟩
  | delayBusy _ => exact ⟨rfl, dataOnly, rfl, rfl⟩
  | delayIdle _ =>
    rw [startNext_node, startNext_dynamicHandler, startNext_out]
    exact ⟨rfl, dataOnly, rfl, rfl⟩
  | discovery => exact ⟨rfl, dataOnly, rfl, rfl⟩
  | reordered _ => exact ⟨rfl, dataOnly, rfl, rfl⟩

/-- Nor is the master told of a request in any other way than by a packet. -/
theorem stimulus_no_request {m m' : Master} {now : ℚ} {s : Stimulus} (local_ : Local (.stimulus now s))
    (queue : m.m_fsm.m_eventQueue = []) (taken : StimulusCase m now s m') (aReq : packet.AddressRequest) :
    .rx_pkt_address_request aReq ∉ m'.m_fsm.m_eventQueue := by
  intro request
  cases taken with
  | packet _ => cases local_
  | timer => cases List.mem_singleton.mp request
  | delayIdle _ =>
    rcases startNext_cases { m.wake now with m_actionHandler := { m.m_actionHandler with
      m_delayAction := m.m_actionHandler.m_delayAction.expire _ } } with ⟨_, _, fsm, _, _⟩ | ⟨_, fsm, _, _⟩
    · rw [fsm] at request
      simp [wake, queue] at request
    · rw [fsm] at request
      simp [wake, queue] at request
  | _ => simp [wake, setTxQueue, postActionNow, setScheduler, queue] at request

/-- What a turn puts on the wire. A reply is to the request that the turn is about. -/
theorem sent_turn {m m' : Master} {rxInProgress : Bool} {ev : Event} (dataOnly : DataOnly m.m_node.m_txQueue)
    (taken : TurnCase m rxInProgress ev m') {x : ByteVec} (sent : x ∈ sentBy m'.m_out) :
    isResponse x = true ∨ (∃ a, x = packet.GrantToken.fromHeader ⟨a⟩) ∨ kind x = some .address_discovery ∨
      x = packet.masterStarted ∨ ∃ aReq d, ev = .rx_pkt_address_request aReq ∧ x = reply d aReq.m_uniqueId := by
  cases taken with
  | ignored _ => cases sent
  | rearmed _ => cases sent
  | ownIdle _ _ _ _ =>
    rw [conclude_out] at sent
    cases sent
  | ownSends _ _ _ packets =>
    obtain ⟨⟨r, out, data⟩, _, _⟩ := sendClientPacket_spec (m := m.consume) dataOnly packets
    have same : x = r := by simpa [out, entrySends] using sent
    rw [same]
    exact Or.inl (isResponse_of_isData data)
  | grants _ _ _ => exact Or.inr (Or.inl ⟨_, by simpa [entrySends] using sent⟩)
  | queries _ _ =>
    have same : x = packet.AddressDiscovery.fromHeader ⟨0, 0⟩ := by simpa [entrySends] using sent
    rw [same]
    exact Or.inr (Or.inr (Or.inl rfl))
  | starts _ _ => exact Or.inr (Or.inr (Or.inr (Or.inl (by simpa [entrySends] using sent))))
  | grantSeen _ => simp [entrySends] at sent
  | grantLost _ => simp [entrySends] at sent
  | @requested aReq _ =>
    rcases receivedAddressRequest_out m.consume aReq with none | ⟨d, one⟩
    · simp [none, entrySends] at sent
    · exact Or.inr (Or.inr (Or.inr (Or.inr ⟨aReq, d, rfl, by simpa [one, entrySends] using sent⟩)))
  | reported _ _ => simp [entrySends] at sent

theorem Carried.turn {m m' : Master} {rxInProgress : Bool} {ev : Event} (dataOnly : DataOnly m.m_node.m_txQueue)
    (taken : TurnCase m rxInProgress ev m') : ∀ x ∈ sentBy m'.m_out, Carried x := by
  intro x sent
  rcases sent_turn dataOnly taken sent with response | ⟨a, rfl⟩ | discovery | rfl | ⟨aReq, d, _, rfl⟩
  · exact .response response
  · exact .grant a
  · exact .discovery discovery
  · exact .started
  · exact .reply d aReq.m_uniqueId

/-! The token through the turns of the master -/

theorem Phase.turn {m m' : Master} {rxInProgress : Bool} {ev : Event} {clients : List PacketTypeCodec}
    {wire : List ByteVec} (queue : m.m_fsm.m_eventQueue = [ev]) (taken : TurnCase m rxInProgress ev m')
    (dataOnly : DataOnly m.m_node.m_txQueue)
    (phase : Phase m.m_fsm.m_state [ev] m.m_fsm.m_currentAction.m_address (m.m_node :: clients) wire) :
    Phase m'.m_fsm.m_state m'.m_fsm.m_eventQueue m'.m_fsm.m_currentAction.m_address (m'.m_node :: clients)
      (wire ++ sentBy m'.m_out) := by
  have empty := m.consume_eventQueue queue
  cases taken with
  | ignored unhandled =>
    rw [consume_state, empty, consume_currentAction, consume_node, consume_out, sentBy_nil, List.append_nil]
    exact phase.ignore unhandled
  | rearmed _ =>
    have rearmed := phase.rearm
    simpa [startTimer, empty] using rearmed
  | ownIdle state _ _ _ =>
    rw [state] at phase
    simpa [Phase, state] using phase
  | ownSends state _ _ packets =>
    rw [state] at phase
    obtain ⟨⟨r, out, data⟩, _, _⟩ := sendClientPacket_spec (m := m.consume) dataOnly packets
    have answered : Answered m.m_fsm.m_currentAction.m_address (m.consume.sendClientPacket.m_node :: clients)
        (wire ++ [r]) := Or.inl ⟨wire, r, [], rfl, isResponse_of_isData data, phase, by rintro _ ⟨⟩⟩
    simpa [Phase, out, empty, entrySends] using answered
  | grants state _ _ =>
    rw [state] at phase
    have granted : Granted m.m_fsm.m_currentAction.m_address
        (wire ++ [packet.GrantToken.fromHeader ⟨m.m_fsm.m_currentAction.m_address⟩]) :=
      ⟨wire, [], rfl, phase, by rintro _ ⟨⟩, by rintro _ ⟨⟩⟩
    simpa [Phase, empty, entrySends] using granted
  | queries state _ =>
    rw [state] at phase
    have silent : Silent (wire ++ [packet.AddressDiscovery.fromHeader ⟨0, 0⟩]) :=
      Silent.append phase (by simp [Silent, isToken])
    simpa [Phase, entrySends] using silent
  | starts state _ =>
    rw [state] at phase
    have silent : Silent (wire ++ [packet.masterStarted]) := Silent.append phase (by simp [Silent, isToken])
    simpa [Phase, entrySends] using silent
  | grantSeen state =>
    rw [state] at phase
    simp only [Phase, if_true] at phase
    simpa [Phase, empty, entrySends] using phase
  | grantLost state =>
    rw [state] at phase
    simp [Phase] at phase
  | @requested aReq state =>
    rw [state] at phase
    have quiet : Silent (sentBy (m.consume.receivedAddressRequest aReq).m_out) := by
      rcases receivedAddressRequest_out m.consume aReq with none | ⟨d, one⟩
      · rw [none]
        rintro _ ⟨⟩
      · rw [one]
        simp [Silent, isToken, reply]
    have silent : Silent (wire ++ sentBy (m.consume.receivedAddressRequest aReq).m_out) := Silent.append phase quiet
    simpa [Phase, entrySends] using silent
  | reported result _ =>
    have silent := phase.silent_of_result result
    simpa [Phase, entrySends] using silent

/-! The start message -/

/-- The master starts once, before it has any dynamic line. -/
structure Starting (m : Master) (wire : List ByteVec) : Prop where
  queued : ∀ a ∈ m.queued, a.m_action ≠ .send_master_start
  noLines : m.m_fsm.m_currentAction.m_action = .send_master_start →
    ∀ d u, (d, true, u) ∉ m.m_dynamicHandler.keys
  absent : m.m_fsm.m_state ≠ .startMaster ∨ m.m_fsm.m_eventQueue = [.rx_pkt_master_start_stop] →
    packet.masterStarted ∉ wire
  single : wire.count packet.masterStarted ≤ 1

namespace Starting

variable {m m' : Master} {wire sent : List ByteVec}

/-- The start message is neither on the wire nor sent again. -/
theorem of_absent (queued : ∀ a ∈ m'.queued, a.m_action ≠ .send_master_start)
    (noLines : m'.m_fsm.m_currentAction.m_action = .send_master_start →
      ∀ d u, (d, true, u) ∉ m'.m_dynamicHandler.keys)
    (absent : packet.masterStarted ∉ wire) (unsent : packet.masterStarted ∉ sent) : Starting m' (wire ++ sent) := by
  have nowhere : packet.masterStarted ∉ wire ++ sent := by
    rw [List.mem_append]
    rintro (old | new)
    · exact absent old
    · exact unsent new
  exact ⟨queued, noLines, fun _ => nowhere, by rw [List.count_eq_zero_of_not_mem nowhere]; exact Nat.zero_le 1⟩

theorem of_conclude (starting : Starting m wire) {rv : ReturnValue} {dh : DynamicHandler} {again : Option ℚ}
    (absent : packet.masterStarted ∉ wire)
    (handler : m'.m_actionHandler = (m.consume.conclude rv dh again).m_actionHandler)
    (action : m'.m_fsm.m_currentAction = (m.consume.conclude rv dh again).m_fsm.m_currentAction) :
    Starting m' (wire ++ []) := by
  obtain ⟨later, perm, started⟩ := m.consume.conclude_cases rv dh again
  have all : ∀ a ∈ later, a.m_action ≠ .send_master_start := forall_later perm (by rintro ⟨⟩) starting.queued
  rcases started with ⟨front, _, fsm, _, rest⟩ | ⟨_, fsm, _, rest⟩
  · refine of_absent ?_ ?_ absent (by rintro ⟨⟩)
    · intro a member
      rw [Master.queued, handler] at member
      exact all a (by rw [rest]; exact List.mem_cons_of_mem _ member)
    · intro start
      rw [action, fsm] at start
      exact absurd start (all front (by rw [rest]; exact List.mem_cons_self))
  · refine of_absent ?_ ?_ absent (by rintro ⟨⟩)
    · intro a member
      rw [Master.queued, handler] at member
      exact all a (by rw [rest]; exact member)
    · intro start
      rw [action, fsm] at start
      cases start

theorem turn (starting : Starting m wire) (synced : Synced m) {rxInProgress : Bool} {ev : Event}
    (dataOnly : DataOnly m.m_node.m_txQueue) (queue : m.m_fsm.m_eventQueue = [ev])
    (taken : TurnCase m rxInProgress ev m') : Starting m' (wire ++ sentBy m'.m_out) := by
  have empty := m.consume_eventQueue queue
  have elsewhere : m.m_fsm.m_state ≠ .startMaster → packet.masterStarted ∉ wire := fun other =>
    starting.absent (Or.inl other)
  cases taken with
  | ignored _ =>
    rw [consume_out, sentBy_nil, List.append_nil]
    refine ⟨starting.queued, starting.noLines, ?_, starting.single⟩
    rintro (other | impossible)
    · exact elsewhere other
    · rw [empty] at impossible
      cases impossible
  | rearmed _ =>
    rw [show (m.consume.startTimer Config.masterTokenClientTimeout).m_out = [] from rfl, sentBy_nil,
      List.append_nil]
    refine ⟨starting.queued, starting.noLines, ?_, starting.single⟩
    rintro (other | impossible)
    · exact elsewhere other
    · rw [show (m.consume.startTimer Config.masterTokenClientTimeout).m_fsm.m_eventQueue = [] from empty]
        at impossible
      cases impossible
  | ownIdle state _ _ _ =>
    rw [conclude_out, consume_out, sentBy_nil]
    exact starting.of_conclude (elsewhere (by simp [state])) rfl rfl
  | ownSends state _ _ packets =>
    obtain ⟨⟨r, out, data⟩, _, _⟩ := sendClientPacket_spec (m := m.consume) dataOnly packets
    refine of_absent (by simpa [Master.queued] using starting.queued) (by simpa using starting.noLines)
      (elsewhere (by simp [state])) ?_
    have other := (kind_isResponse (isResponse_of_isData data)).2.2.2.1
    simp only [goto_out, out, consume_out, entrySends, List.nil_append, List.append_nil, sentBy_sendMsg,
      List.mem_singleton]
    rintro rfl
    exact other rfl
  | grants state _ _ =>
    refine of_absent (by simpa [Master.queued] using starting.queued) (by simpa using starting.noLines)
      (elsewhere (by simp [state])) ?_
    simp [entrySends, packet.masterStarted, packet.GrantToken.fromHeader, messageType2Byte]
  | queries state _ =>
    refine of_absent (by simpa [Master.queued] using starting.queued) (by simpa using starting.noLines)
      (elsewhere (by simp [state])) ?_
    simp [entrySends, packet.masterStarted, packet.AddressDiscovery.fromHeader, messageType2Byte]
  | starts state _ =>
    have before := elsewhere (by simp [state])
    refine ⟨by simpa [Master.queued] using starting.queued, by simpa using starting.noLines, ?_, ?_⟩
    · rw [goto_state, goto_eventQueue, empty]
      rintro (other | impossible)
      · exact absurd rfl other
      · cases impossible
    · simp [entrySends, List.count_append, List.count_eq_zero_of_not_mem before]
  | grantSeen state =>
    refine of_absent (by simpa [Master.queued] using starting.queued) (by simpa using starting.noLines)
      (elsewhere (by simp [state])) ?_
    simp [entrySends]
  | grantLost state =>
    refine of_absent (by simpa [Master.queued] using starting.queued) (by simpa using starting.noLines)
      (elsewhere (by simp [state])) ?_
    simp [entrySends]
  | @requested aReq state =>
    have fits := synced.fits
    rw [state] at fits
    refine of_absent ?_ ?_ (elsewhere (by simp [state])) ?_
    · intro a member
      rw [Master.queued, goto_actionHandler] at member
      rcases m.consume.mem_queued_receivedAddressRequest aReq member with old | ⟨_, rfl⟩
      · exact starting.queued a old
      · rintro ⟨⟩
    · intro start
      rw [goto_currentAction, receivedAddressRequest_fsm, consume_currentAction, fits] at start
      cases start
    · rcases receivedAddressRequest_out m.consume aReq with none | ⟨d, one⟩
      · simp [none, entrySends]
      · simp [one, entrySends, packet.masterStarted, reply, packet.AddressReply.fromHeader, messageType2Byte]
  | @reported ev rv dh again result _ =>
    have before : packet.masterStarted ∉ wire := by
      by_cases state : m.m_fsm.m_state = .startMaster
      · rw [state] at result
        cases ev <;> simp only [resultOf, reduceCtorEq] at result
        exact starting.absent (Or.inr queue)
      · exact elsewhere state
    rw [goto_out, conclude_out, consume_out]
    exact starting.of_conclude before (goto_actionHandler _ _) (goto_currentAction _ _)

end Starting

/-! The address table through the turns of the master -/

/-- Only a missed token can cost a dynamic line its place. -/
theorem keys_of_settles {dh dh' : DynamicHandler} {now : ℚ} {addr : LocalAddress} {rv : ReturnValue}
    {again : Option ℚ} (settles : Settles dh now addr rv dh' again)
    (kept : rv = .token_timeout → ∀ u, (addr, true, u) ∉ dh.keys) : dh'.keys = dh.keys := by
  rcases settles.keys with same | ⟨timeout, before, line, after, table, address, isDynamic, _⟩
  · exact same
  · refine absurd ?_ (kept timeout line.m_uniqueId)
    have member : line.key ∈ dh.keys := by
      rw [DynamicHandler.keys, table]
      exact List.mem_map_of_mem (List.mem_append_right _ List.mem_cons_self)
    rw [AddressLine.key, address, isDynamic] at member
    exact member

/-- A node asks for an address. -/
theorem Agreement.requested {m : Master} {ns : List PacketTypeCodec} {wire : List ByteVec}
    (agreement : Agreement m.m_dynamicHandler.keys ns wire) {aReq : packet.AddressRequest} (quiet : m.m_out = [])
    (asked : ∃ n ∈ ns, n.m_uniqueId = aReq.m_uniqueId ∧ n.dynamic = true) :
    Agreement (m.receivedAddressRequest aReq).m_dynamicHandler.keys ns
      (wire ++ sentBy (m.receivedAddressRequest aReq).m_out) := by
  obtain ⟨n, found, id, dynamic⟩ := asked
  rcases m.receivedAddressRequest_cases aReq with ⟨line, member, lineId, known⟩ | ⟨_, _, nothing⟩ |
    ⟨unknown, rest, d, _, new⟩
  · -- the ids of static lines belong to nobody
    have isDynamic : line.m_isDynamic = true := by
      by_contra static
      have key : line.key ∈ m.m_dynamicHandler.keys := List.mem_map_of_mem member
      rw [AddressLine.key, Bool.eq_false_iff.mpr static, lineId] at key
      exact agreement.unset key n found id
    have key : line.key ∈ m.m_dynamicHandler.keys := List.mem_map_of_mem member
    rw [AddressLine.key, isDynamic, lineId] at key
    rw [known]
    have answered := agreement.answer key
    simpa [sendAddressReply, sendMasterPacket, quiet, reply] using answered
  · rw [nothing, quiet, sentBy_nil, List.append_nil]
    exact agreement
  · have none : ∀ k ∈ m.m_dynamicHandler.keys, k.2.2 ≠ n.m_uniqueId := by
      intro k member
      obtain ⟨line, inside, rfl⟩ := List.mem_map.mp member
      rw [id]
      exact unknown line inside
    have joined := agreement.join (d := d) found dynamic none
    rw [id] at joined
    rw [new]
    simpa [DynamicHandler.keys, enlist, sendAddressReply, sendMasterPacket, postActionNow, setScheduler, quiet, reply,
      AddressLine.key, AddressLine.dynamic] using joined

/-- The master has not given up a line, and so the table and the nodes still fit
together. -/
theorem Agreement.turn {m m' : Master} {clients : List PacketTypeCodec} {wire : List ByteVec} {rxInProgress : Bool}
    {ev : Event} (agreement : Agreement m.m_dynamicHandler.keys (m.m_node :: clients) wire)
    (synced : Synced m) (taken : TurnCase m rxInProgress ev m') (dataOnly : DataOnly m.m_node.m_txQueue)
    (asked : ∀ aReq, ev = .rx_pkt_address_request aReq →
      ∃ n ∈ m.m_node :: clients, n.m_uniqueId = aReq.m_uniqueId ∧ n.dynamic = true)
    (kept : m.m_fsm.m_state = .waitClientPacketDone → ev = .timer_timeout →
      ∀ u, (m.m_fsm.m_currentAction.m_address, true, u) ∉ m.m_dynamicHandler.keys) :
    Agreement m'.m_dynamicHandler.keys (m'.m_node :: clients) (wire ++ sentBy m'.m_out) := by
  have plain : ∀ {sent : List ByteVec},
      (∀ x ∈ sent, kind x ≠ some .address_reply ∧ kind x ≠ some .address_request) →
      Agreement m.m_dynamicHandler.keys (m.m_node :: clients) (wire ++ sent) := agreement.send
  have none : Agreement m.m_dynamicHandler.keys (m.m_node :: clients) (wire ++ []) := plain (by rintro _ ⟨⟩)
  cases taken with
  | ignored _ => exact none
  | rearmed _ => exact none
  | ownIdle _ _ _ settles =>
    rw [conclude_dynamicHandler, keys_of_settles settles (by rintro ⟨⟩), conclude_node, conclude_out]
    exact none
  | ownSends _ _ _ packets =>
    obtain ⟨⟨r, out, data⟩, _, same⟩ := sendClientPacket_spec (m := m.consume) dataOnly packets
    obtain ⟨_, noReply, noRequest, _, _⟩ := kind_isResponse (isResponse_of_isData data)
    have sent : Agreement m.m_dynamicHandler.keys (m.m_node :: clients) (wire ++ [r]) := by
      refine plain ?_
      intro x member
      rw [List.mem_singleton.mp member]
      exact ⟨noReply, noRequest⟩
    have faces : (m.consume.sendClientPacket.m_node :: clients).map face = (m.m_node :: clients).map face := by
      rw [List.map_cons, List.map_cons, same, consume_node]
    have moved := sent.congr faces (fun _ _ => Iff.rfl) sent.requests
    simpa [out, entrySends] using moved
  | grants _ _ _ =>
    have sent : Agreement m.m_dynamicHandler.keys (m.m_node :: clients)
        (wire ++ [packet.GrantToken.fromHeader ⟨m.m_fsm.m_currentAction.m_address⟩]) := plain (by simp)
    simpa [entrySends] using sent
  | queries _ _ =>
    have sent : Agreement m.m_dynamicHandler.keys (m.m_node :: clients)
        (wire ++ [packet.AddressDiscovery.fromHeader ⟨0, 0⟩]) := plain (by simp)
    simpa [entrySends] using sent
  | starts _ _ =>
    have sent : Agreement m.m_dynamicHandler.keys (m.m_node :: clients)
        (wire ++ [packet.masterStarted]) := plain (by simp)
    simpa [entrySends] using sent
  | grantSeen _ => simpa [entrySends] using agreement
  | grantLost _ => simpa [entrySends] using agreement
  | @requested aReq _ =>
    have told := Agreement.requested (m := m.consume) agreement rfl (asked aReq rfl)
    simpa [entrySends] using told
  | @reported ev rv dh again result settles =>
    have same : dh.keys = m.m_dynamicHandler.keys := by
      refine keys_of_settles settles ?_
      rintro rfl
      rw [synced.sameAction]
      cases state : m.m_fsm.m_state <;> cases ev <;>
        simp only [state, resultOf, reduceCtorEq, Option.ite_none_left_eq_some, Option.some.injEq, and_false] at result
      exact kept state rfl
    simpa [entrySends, same] using agreement

end SerialNet.Bus
