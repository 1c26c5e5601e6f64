import SerialNet.PacketTypeCodec

namespace SerialNet

/-- `n` tokens in a row, each answered with the front packet. -/
def TxQueue.serve (q : TxQueue) : Nat → List Effect
  | 0 => []
  | n + 1 => q.sendClientPacket.2 ++ q.sendClientPacket.1.serve n

theorem TxQueue.serve_length (q : TxQueue) : q.serve q.m_txMsg.length = q.m_txMsg.map .sendMsg := by
  generalize pending : q.m_txMsg = msgs
  induction msgs generalizing q with
  | nil => rfl
  | cons msg rest ih =>
    have sent : q.sendClientPacket = ({ q with m_txMsg := rest }, [.sendMsg msg]) := by
      simp [sendClientPacket, pending]
    simp only [List.length_cons, serve, sent, ih { q with m_txMsg := rest } rfl, List.map_cons,
      List.singleton_append]

/-- What a submission puts on the wire: once the packets before it are out, the
next token sends `msg`. -/
def TxQueue.Emits (before after : TxQueue) (msg : ByteVec) : Prop :=
  after.serve (before.m_txMsg.length + 1) = before.m_txMsg.map .sendMsg ++ [.sendMsg msg]

theorem TxQueue.emits_of_append {before after : TxQueue} {msg : ByteVec}
    (queued : after.m_txMsg = before.m_txMsg ++ [msg]) : before.Emits after msg := by
  have all := after.serve_length
  rw [queued, List.length_append, List.map_append] at all
  exact all

/-- A node with its frame decoder. -/
structure Station where
  m_codec : FrameCodec
  m_node : PacketTypeCodec

namespace Station

/-- Decoded packets go to the node one after the other. -/
def rxPackets (n : PacketTypeCodec) (stack : ChannelType × Crc32) :
    List ByteVec → Option (PacketTypeCodec × List Effect)
  | [] => some (n, [])
  | bb :: rest => do
    let first ← n.rxRawPacket bb stack
    let later ← rxPackets first.1 stack rest
    some (later.1, first.2 ++ later.2)

def receiveBytes (s : Station) (stack : ChannelType × Crc32) (bytes : ByteVec) :
    Option (Station × List Effect) := do
  let decoded := s.m_codec.receiveData bytes
  let handled ← rxPackets s.m_node stack decoded.2
  some (⟨decoded.1, handled.1⟩, handled.2)

/-- A station in operation: bytes arrive, the decoder is reset, the host and the
master use the transmit queue, and the setup calls register what they register. -/
inductive Reach : Station → Prop
  | start (decodeCB : Bool) (q : TxQueue) (id : UniqueId) (cache : Option AddressCache) (ended : Bool) :
      Reach ⟨.initial decodeCB, .make q id cache ended⟩
  | receiveBytes {s s' : Station} {stack bytes effects} :
      Reach s → s.receiveBytes stack bytes = some (s', effects) → Reach s'
  | reset {s : Station} : Reach s → Reach { s with m_codec := s.m_codec.reset }
  | setRxCB {s : Station} (decodeCB : Bool) :
      Reach s → Reach { s with m_codec := { s.m_codec with m_decodeCB := decodeCB } }
  | txQueue {s : Station} (q : TxQueue) : Reach s → Reach { s with m_node := { s.m_node with m_txQueue := q } }
  | regMasterRx {s : Station} (master : Bool) :
      Reach s → Reach { s with m_node := { s.m_node with m_master := master } }
  | setAddressCache {s : Station} (cache : Option AddressCache) :
      Reach s → Reach { s with m_node := { s.m_node with m_cache := cache } }

theorem rxRawPacket_rxMsg {n n' : PacketTypeCodec} {bb : ByteVec} {stack : ChannelType × Crc32}
    {effects : List Effect} (empty : n.m_rxMsg = []) (run : n.rxRawPacket bb stack = some (n', effects)) :
    n'.m_rxMsg = [] := by
  rcases PacketTypeCodec.rxRawPacket_cases run with ⟨rfl, _⟩ | ⟨_, _, _, _, _, _, _, rfl, _⟩
  · exact empty
  · rfl

theorem rxPackets_rxMsg {stack : ChannelType × Crc32} {packets : List ByteVec}
    {n n' : PacketTypeCodec} {effects : List Effect} (empty : n.m_rxMsg = [])
    (run : rxPackets n stack packets = some (n', effects)) : n'.m_rxMsg = [] := by
  induction packets generalizing n effects with
  | nil =>
    cases Option.some.inj run
    exact empty
  | cons bb rest ih =>
    obtain ⟨first, head, run⟩ := Option.bind_eq_some_iff.mp run
    obtain ⟨later, tail, run⟩ := Option.bind_eq_some_iff.mp run
    cases Option.some.inj run
    exact ih (rxRawPacket_rxMsg empty head) tail

/-- Between two calls nothing waits for delivery to the host. -/
theorem Reach.rxMsg_empty {s : Station} (reach : Reach s) : s.m_node.m_rxMsg = [] := by
  induction reach with
  | start => rfl
  | @receiveBytes s s' stack bytes effects _ run ih =>
    obtain ⟨handled, packets, run⟩ := Option.bind_eq_some_iff.mp run
    cases Option.some.inj run
    exact rxPackets_rxMsg ih packets
  | reset _ ih => exact ih
  | setRxCB _ _ ih => exact ih
  | txQueue _ _ ih => exact ih
  | regMasterRx _ _ ih => exact ih
  | setAddressCache _ _ ih => exact ih

/-- One intact frame hands the node one packet and nothing else. -/
theorem receiveBytes_frame {s : Station} (waiting : s.m_codec.m_state = .getKW)
    (listening : s.m_codec.m_decodeCB = true) {msg : ByteVec} (nonempty : msg ≠ [])
    (upper : msg.length ≤ 16383) {stack : ChannelType × Crc32} {n' : PacketTypeCodec}
    {effects : List Effect} (handled : s.m_node.rxRawPacket msg stack = some (n', effects)) :
    ∃ s', s.receiveBytes stack (MsgToByteAdapter.sendMsg msg) = some (s', effects) ∧
      s'.m_node = n' ∧ s'.m_codec.m_state = .getKW := by
  obtain ⟨c', again, _, decoded⟩ := FrameCodec.receiveData_encodePacket waiting listening nonempty upper
  refine ⟨⟨c', n'⟩, ?_, rfl, again⟩
  simp [receiveBytes, MsgToByteAdapter.sendMsg, decoded, rxPackets, handled]

/-- A driver is called with data from the net. -/
def isHostCall : Effect → Bool
  | .packetReceivedFromNet .. => true
  | _ => false

/-- What the host of a receiver is to see of a data packet. -/
def expectedCalls (q : TxQueue) (payload : ByteVec) (src dest : LocalAddress) (ch : ChannelType) :
    List Effect :=
  if (dest = q.clientAddress ∧ q.clientAddress ≠ LocalAddress.null_addr) ∨
      q.clientAddress = LocalAddress.broadcast ∨ dest = LocalAddress.broadcast then
    match q.getRxIf ch with
    | some rxIf => [.packetReceivedFromNet rxIf payload src dest ch]
    | none => []
  else
    []

theorem deliverRxQueue_single {n : PacketTypeCodec} {header : packet.SendPacket} {payload : ByteVec}
    (queued : n.m_rxMsg = [header.fromHeader ++ payload]) :
    n.deliverRxQueue = some ({ n with m_rxMsg := [] },
      match n.m_txQueue.getRxIf header.m_chType with
      | some rxIf => [.packetReceivedFromNet rxIf payload header.m_srcAddr header.m_destAddr header.m_chType]
      | none => []) := by
  have body : (header.fromHeader ++ payload).drop (packet.sizeof .send_packet) = payload := rfl
  cases driver : n.m_txQueue.getRxIf header.m_chType <;>
    simp [PacketTypeCodec.deliverRxQueue, queued, PacketTypeCodec.deliver, driver, body]

theorem filter_masterPacketReceived (master : Bool) (cmd : MessageType) (bb : ByteVec) :
    (if master then [Effect.masterPacketReceived cmd bb] else []).filter isHostCall = [] := by
  split <;> rfl

theorem rxRawPacket_sendPacket {n : PacketTypeCodec} (empty : n.m_rxMsg = [])
    (header : packet.SendPacket) (payload : ByteVec) (stack : ChannelType × Crc32) :
    ∃ effects, n.rxRawPacket (header.fromHeader ++ payload) stack = some (n, effects) ∧
      effects.filter isHostCall =
        expectedCalls n.m_txQueue payload header.m_srcAddr header.m_destAddr header.m_chType := by
  have type : (header.fromHeader ++ payload).head?.bind byte2MessageType = some .send_packet := rfl
  have long : longEnough (header.fromHeader ++ payload) = true := by
    simp [longEnough, packet.SendPacket.fromHeader, packet.sizeof]
  by_cases mine : PacketTypeCodec.accepts n.m_txQueue.clientAddress header.m_destAddr = true
  · have command : n.rxCommand .send_packet (header.fromHeader ++ payload) stack =
        some ({ n with m_rxMsg := [header.fromHeader ++ payload] }, []) := by
      simp [PacketTypeCodec.rxCommand, mine, empty]
    have emptied : ({ n with m_rxMsg := [] } : PacketTypeCodec) = n := by rw [← empty]
    have received := PacketTypeCodec.rxRawPacket_eq type long command (deliverRxQueue_single rfl)
    rw [emptied] at received
    refine ⟨_, received, ?_⟩
    simp only [List.nil_append, List.filter_append, filter_masterPacketReceived, expectedCalls,
      if_pos (of_decide_eq_true mine)]
    split <;> rfl
  · have command : n.rxCommand .send_packet (header.fromHeader ++ payload) stack = some (n, []) := by
      simp [PacketTypeCodec.rxCommand, mine]
    refine ⟨_, PacketTypeCodec.rxRawPacket_eq type long command (PacketTypeCodec.deliverRxQueue_empty empty), ?_⟩
    rw [List.nil_append, List.append_nil, filter_masterPacketReceived, expectedCalls,
      if_neg (mt decide_eq_true mine)]

/-- The writer lays a MAC update out as a struct, the reader picks it apart by
offsets. They agree. -/
theorem macUpdate_fields (p : packet.MacUpdate) :
    longEnough p.fromHeader = true ∧ p.fromHeader[3]? = some p.m_hintAddr ∧
      slice p.fromHeader 4 6 = some p.m_mac := by
  obtain ⟨dest, src, hint, mac, length⟩ := p
  match mac, length with
  | [_, _, _, _, _, _], _ => exact ⟨rfl, rfl, rfl⟩

theorem rxRawPacket_macUpdate {n : PacketTypeCodec} (empty : n.m_rxMsg = []) {cache : AddressCache}
    (cached : n.m_cache = some cache) {bb : ByteVec} {hint : LocalAddress} {mac : MacAddr}
    (type : bb.head?.bind byte2MessageType = some .mac_update) (long : longEnough bb = true)
    (atHint : bb[3]? = some hint) (atMac : slice bb 4 6 = some mac) (stack : ChannelType × Crc32) :
    ∃ effects, n.rxRawPacket bb stack = some ({ n with m_cache := some (cache.setAddress hint mac) }, effects) ∧
      effects.filter isHostCall = [] := by
  have command : n.rxCommand .mac_update bb stack =
      some ({ n with m_cache := some (cache.setAddress hint mac) }, []) := by
    simp [PacketTypeCodec.rxCommand, cached, atHint, atMac]
  refine ⟨_, PacketTypeCodec.rxRawPacket_eq type long command (PacketTypeCodec.deliverRxQueue_empty empty), ?_⟩
  rw [List.nil_append, List.append_nil, filter_masterPacketReceived]

theorem msgHostTx_sendPacket_emits {q : TxQueue} (valid : q.clientAddress ≠ LocalAddress.null_addr)
    (payload : ByteVec) (dest : LocalAddress) (ch : ChannelType) :
    q.Emits (q.msgHostTx_sendPacket payload dest ch)
      (packet.SendPacket.fromHeader ⟨ch, dest, q.clientAddress⟩ ++ payload) := by
  have accepted : q.m_ownAddress.valid = true := decide_eq_true valid
  apply TxQueue.emits_of_append
  rw [TxQueue.msgHostTx_sendPacket, if_pos accepted, TxQueue.sendPacket]

theorem msgHostTx_sendMacUpdate_emits {q : TxQueue} (valid : q.clientAddress ≠ LocalAddress.null_addr)
    (mac : MacAddr) :
    q.Emits (q.msgHostTx_sendMacUpdate mac)
      (packet.MacUpdate.fromHeader ⟨LocalAddress.broadcast, q.clientAddress, q.clientAddress, mac⟩) := by
  have accepted : q.m_ownAddress.valid = true := decide_eq_true valid
  apply TxQueue.emits_of_append
  rw [TxQueue.msgHostTx_sendMacUpdate, if_neg (by simp [accepted])]

/-- From the host of one node to the host of another. The receiver is any station
in operation whose decoder is between two frames. -/
theorem end_to_end_delivery (sender : TxQueue) (valid : sender.clientAddress ≠ LocalAddress.null_addr)
    (receiver : Station) (reach : Reach receiver) (waiting : receiver.m_codec.m_state = .getKW)
    (listening : receiver.m_codec.m_decodeCB = true) (stack : ChannelType × Crc32) :
    (∀ (payload : ByteVec) (dest : LocalAddress) (ch : ChannelType), payload.length + 4 ≤ 16383 →
      ∃ msg, sender.Emits (sender.msgHostTx_sendPacket payload dest ch) msg ∧
        ∃ receiver' effects,
          receiver.receiveBytes stack (MsgToByteAdapter.sendMsg msg) = some (receiver', effects) ∧
          effects.filter isHostCall =
            expectedCalls receiver.m_node.m_txQueue payload sender.clientAddress dest ch) ∧
    (∀ (mac : MacAddr) (cache : AddressCache), receiver.m_node.m_cache = some cache →
      ∃ msg, sender.Emits (sender.msgHostTx_sendMacUpdate mac) msg ∧
        ∃ receiver' effects,
          receiver.receiveBytes stack (MsgToByteAdapter.sendMsg msg) = some (receiver', effects) ∧
          receiver'.m_node =
            { receiver.m_node with m_cache := some (cache.setAddress sender.clientAddress mac) } ∧
          effects.filter isHostCall = []) := by
  have empty := reach.rxMsg_empty
  constructor
  · intro payload dest ch size
    refine ⟨_, msgHostTx_sendPacket_emits valid payload dest ch, ?_⟩
    obtain ⟨effects, handled, calls⟩ :=
      rxRawPacket_sendPacket empty ⟨ch, dest, sender.clientAddress⟩ payload stack
    obtain ⟨receiver', received, _, _⟩ := receiveBytes_frame waiting listening (List.cons_ne_nil _ _)
      (by simp; omega) handled
    exact ⟨receiver', effects, received, calls⟩
  · intro mac cache cached
    refine ⟨_, msgHostTx_sendMacUpdate_emits valid mac, ?_⟩
    obtain ⟨long, hint, atMac⟩ := macUpdate_fields
      ⟨LocalAddress.broadcast, sender.clientAddress, sender.clientAddress, mac⟩
    obtain ⟨effects, handled, calls⟩ := rxRawPacket_macUpdate empty cached rfl long hint atMac stack
    obtain ⟨receiver', received, node, _⟩ := receiveBytes_frame waiting listening (List.cons_ne_nil _ _)
      (by simp [mac.2]) handled
    exact ⟨receiver', effects, received, node, calls⟩

/-- Three bytes on the raw channel, from node 7 to node 9. -/
theorem end_to_end_delivery_raw :
    let sender := TxQueue.make 7 false
    let id : UniqueId := ⟨[1, 2, 3, 4, 5, 6, 7, 8], rfl⟩
    let receiver : Station :=
      ⟨.initial true, .make ((TxQueue.make 9 false).setRxHandler (some 5) .raw_stream) id none false⟩
    ∃ msg, sender.Emits (sender.msgHostTx_sendPacket [1, 2, 3] 9 .raw_stream) msg ∧
      ∃ receiver' effects, receiver.receiveBytes (.illegal_type, ⟨[0, 0, 0, 0], rfl⟩)
          (MsgToByteAdapter.sendMsg msg) = some (receiver', effects) ∧
        effects.filter isHostCall = [.packetReceivedFromNet 5 [1, 2, 3] 7 9 .raw_stream] := by
  intro sender id receiver
  obtain ⟨msg, emits, receiver', effects, received, calls⟩ :=
    (end_to_end_delivery sender (by decide) receiver (.start _ _ _ _ _) rfl rfl _).1 [1, 2, 3] 9 .raw_stream
      (by decide)
  exact ⟨msg, emits, receiver', effects, received, calls.trans (by decide)⟩

end Station

end SerialNet
