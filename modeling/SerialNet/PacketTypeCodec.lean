import SerialNet.TxQueue

namespace SerialNet

/-- A node above the frame layer: the packet decoder with the transmit queue, the
address negotiation and the address cache it works on. -/
structure PacketTypeCodec where
  m_txQueue : TxQueue
  m_uniqueId : UniqueId
  m_rxMsg : List ByteVec
  m_cache : Option AddressCache
  m_master : Bool
  m_masterEndedCB : Bool
deriving DecidableEq

namespace PacketTypeCodec

def make (txQueue : TxQueue) (uniqueId : UniqueId) (cache : Option AddressCache)
    (masterEndedCB : Bool) : PacketTypeCodec :=
  ⟨txQueue, uniqueId, [], cache, false, masterEndedCB⟩

/-- An address request leaves channel type and checksum as they were on the
stack; these bytes are the second argument. -/
def rxDiscoveryPacket (n : PacketTypeCodec) (stack : ChannelType × Crc32) : List Effect :=
  if n.m_txQueue.clientAddress ≠ LocalAddress.null_addr then []
  else [.sendMsg (packet.AddressRequest.fromHeader ⟨n.m_uniqueId, stack.1, stack.2⟩)]

def rxAddrReplyPacket (n : PacketTypeCodec) (p : packet.AddressReply) : PacketTypeCodec × List Effect :=
  if p.m_uniqueId = n.m_uniqueId then
    let changed := n.m_txQueue.setAddress p.m_assigned
    ({ n with m_txQueue := changed.1 }, changed.2)
  else
    (n, [])

/-- A data packet is for this node. -/
def accepts (ownAddress destAddr : LocalAddress) : Bool :=
  (destAddr = ownAddress ∧ ownAddress ≠ LocalAddress.null_addr) ∨
    ownAddress = LocalAddress.broadcast ∨ destAddr = LocalAddress.broadcast

/-- The `switch` of `rxRawPacket`. `none` is a failed size assertion. -/
def rxCommand (n : PacketTypeCodec) (cmd : MessageType) (bb : ByteVec)
    (stack : ChannelType × Crc32) : Option (PacketTypeCodec × List Effect) :=
  match cmd with
  | .grant_token => do
    let p ← packet.GrantToken.toHeader bb
    if p.m_tokenReceiver = n.m_txQueue.clientAddress then
      let sent := n.m_txQueue.sendClientPacketOrReturnToken
      some ({ n with m_txQueue := sent.1 }, sent.2)
    else
      some (n, [])
  | .send_packet => do
    let p ← packet.SendPacket.toHeader bb
    if accepts n.m_txQueue.clientAddress p.m_destAddr then
      some ({ n with m_rxMsg := n.m_rxMsg ++ [bb] }, [])
    else
      some (n, [])
  | .address_discovery => do
    let _ ← packet.AddressDiscovery.toHeader bb
    some (n, n.rxDiscoveryPacket stack)
  | .address_reply => do
    let p ← packet.AddressReply.toHeader bb
    some (n.rxAddrReplyPacket p)
  | .master_started =>
    let changed := n.m_txQueue.masterStarted
    some ({ n with m_txQueue := changed.1 }, changed.2)
  | .master_ended => some (n, if n.m_masterEndedCB then [.masterEnded] else [])
  | .mac_update =>
    match n.m_cache with
    | none => some (n, [])
    | some cache => do
      let localAddr ← bb[3]?
      let mac ← slice bb 4 6
      some ({ n with m_cache := some (cache.setAddress localAddr mac) }, [])
  | .address_request => some (n, [])
  | .return_token => some (n, [])

/-- Hand one queued packet to the driver registered for its channel. -/
def deliver (q : TxQueue) (bb : ByteVec) : Option (List Effect) := do
  let p ← packet.SendPacket.toHeader bb
  let res := bb.drop (packet.sizeof .send_packet)
  match q.getRxIf p.m_chType with
  | none => some []
  | some rxIf => some [.packetReceivedFromNet rxIf res p.m_srcAddr p.m_destAddr p.m_chType]

def deliverRxQueue (n : PacketTypeCodec) : Option (PacketTypeCodec × List Effect) := do
  let delivered ← n.m_rxMsg.mapM (deliver n.m_txQueue)
  some ({ n with m_rxMsg := [] }, delivered.flatten)

/-- A packet from the frame layer. The master, when there is one, sees it after
the node itself and before anything is delivered to the host. -/
def rxRawPacket (n : PacketTypeCodec) (bb : ByteVec) (stack : ChannelType × Crc32) :
    Option (PacketTypeCodec × List Effect) :=
  match bb.head?.bind byte2MessageType with
  | none => some (n, [])
  | some cmd =>
    if longEnough bb then do
      let handled ← n.rxCommand cmd bb stack
      let delivered ← handled.1.deliverRxQueue
      some (delivered.1, handled.2 ++
        (if n.m_master then [.masterPacketReceived cmd bb] else []) ++ delivered.2)
    else
      some (n, [])

theorem rxRawPacket_eq {n : PacketTypeCodec} {bb : ByteVec} {stack : ChannelType × Crc32}
    {cmd : MessageType} {handled delivered : PacketTypeCodec × List Effect}
    (type : bb.head?.bind byte2MessageType = some cmd) (long : longEnough bb = true)
    (command : n.rxCommand cmd bb stack = some handled)
    (delivery : handled.1.deliverRxQueue = some delivered) :
    n.rxRawPacket bb stack = some (delivered.1, handled.2 ++
      (if n.m_master then [.masterPacketReceived cmd bb] else []) ++ delivered.2) := by
  unfold rxRawPacket
  rw [type]
  simp only [long, if_true, command, delivery, Option.bind_eq_bind, Option.bind_some]

/-- Everything that the handlers of a packet can do. -/
inductive Handled (n : PacketTypeCodec) (bb : ByteVec) (stack : ChannelType × Crc32) :
    PacketTypeCodec → List Effect → Prop
  | granted {p : packet.GrantToken} : packet.GrantToken.toHeader bb = some p →
      p.m_tokenReceiver = n.m_txQueue.clientAddress →
      Handled n bb stack { n with m_txQueue := n.m_txQueue.sendClientPacketOrReturnToken.1 }
        n.m_txQueue.sendClientPacketOrReturnToken.2
  | kept {p : packet.SendPacket} : packet.SendPacket.toHeader bb = some p →
      accepts n.m_txQueue.clientAddress p.m_destAddr = true →
      Handled n bb stack { n with m_rxMsg := n.m_rxMsg ++ [bb] } []
  | asked : Handled n bb stack n (n.rxDiscoveryPacket stack)
  | assigned {p : packet.AddressReply} : packet.AddressReply.toHeader bb = some p → p.m_uniqueId = n.m_uniqueId →
      Handled n bb stack { n with m_txQueue := (n.m_txQueue.setAddress p.m_assigned).1 }
        (n.m_txQueue.setAddress p.m_assigned).2
  | started : Handled n bb stack { n with m_txQueue := n.m_txQueue.masterStarted.1 } n.m_txQueue.masterStarted.2
  | ended : Handled n bb stack n (if n.m_masterEndedCB then [.masterEnded] else [])
  | learned {cache : AddressCache} {localAddr : LocalAddress} {mac : MacAddr} :
      n.m_cache = some cache → slice bb 4 6 = some mac →
      Handled n bb stack { n with m_cache := some (cache.setAddress localAddr mac) } []
  | ignored : Handled n bb stack n []

theorem rxCommand_handled {n n' : PacketTypeCodec} {cmd : MessageType} {bb : ByteVec} {stack : ChannelType × Crc32}
    {effects : List Effect} (run : n.rxCommand cmd bb stack = some (n', effects)) : Handled n bb stack n' effects := by
  cases cmd with
  | grant_token =>
    obtain ⟨p, header, run⟩ := Option.bind_eq_some_iff.mp run
    split at run
    · rename_i mine
      cases Option.some.inj run
      exact .granted header mine
    · cases Option.some.inj run
      exact .ignored
  | send_packet =>
    obtain ⟨p, header, run⟩ := Option.bind_eq_some_iff.mp run
    split at run
    · rename_i mine
      cases Option.some.inj run
      exact .kept header mine
    · cases Option.some.inj run
      exact .ignored
  | address_discovery =>
    obtain ⟨p, _, run⟩ := Option.bind_eq_some_iff.mp run
    cases Option.some.inj run
    exact .asked
  | address_reply =>
    obtain ⟨p, header, run⟩ := Option.bind_eq_some_iff.mp run
    unfold rxAddrReplyPacket at run
    split at run
    · rename_i mine
      cases Option.some.inj run
      exact .assigned header mine
    · cases Option.some.inj run
      exact .ignored
  | master_started =>
    cases Option.some.inj run
    exact .started
  | master_ended =>
    cases Option.some.inj run
    exact .ended
  | mac_update =>
    simp only [rxCommand] at run
    split at run
    · cases Option.some.inj run
      exact .ignored
    · rename_i cache present
      obtain ⟨localAddr, _, run⟩ := Option.bind_eq_some_iff.mp run
      obtain ⟨mac, atMac, run⟩ := Option.bind_eq_some_iff.mp run
      cases Option.some.inj run
      exact .learned present atMac
  | address_request =>
    cases Option.some.inj run
    exact .ignored
  | return_token =>
    cases Option.some.inj run
    exact .ignored

/-- A packet is dropped, or handled and what was kept for the host is delivered. -/
theorem rxRawPacket_cases {n n' : PacketTypeCodec} {bb : ByteVec} {stack : ChannelType × Crc32} {effects : List Effect}
    (run : n.rxRawPacket bb stack = some (n', effects)) :
    (n' = n ∧ effects = [] ∧ (bb.head?.bind byte2MessageType = none ∨ longEnough bb = false)) ∨
    ∃ cmd n₁ own parts, (bb.head?.bind byte2MessageType = some cmd ∧ longEnough bb = true) ∧
      n.rxCommand cmd bb stack = some (n₁, own) ∧ n₁.m_rxMsg.mapM (deliver n₁.m_txQueue) = some parts ∧
      n' = { n₁ with m_rxMsg := [] } ∧
      effects = own ++ (if n.m_master then [.masterPacketReceived cmd bb] else []) ++ parts.flatten := by
  unfold rxRawPacket at run
  split at run
  · rename_i unknown
    cases Option.some.inj run
    exact Or.inl ⟨rfl, rfl, Or.inl unknown⟩
  · rename_i cmd type
    split at run
    · rename_i long
      obtain ⟨⟨n₁, own⟩, command, run⟩ := Option.bind_eq_some_iff.mp run
      obtain ⟨delivered, delivery, run⟩ := Option.bind_eq_some_iff.mp run
      obtain ⟨parts, all, drained⟩ := Option.bind_eq_some_iff.mp delivery
      cases Option.some.inj drained
      cases Option.some.inj run
      exact Or.inr ⟨cmd, n₁, own, parts, ⟨type, long⟩, command, all, rfl, rfl⟩
    · rename_i short
      cases Option.some.inj run
      exact Or.inl ⟨rfl, rfl, Or.inr (Bool.eq_false_iff.mpr short)⟩

theorem deliverRxQueue_empty {n : PacketTypeCodec} (empty : n.m_rxMsg = []) :
    n.deliverRxQueue = some (n, []) := by
  obtain ⟨q, id, rx, cache, master, ended⟩ := n
  cases empty
  rfl

end PacketTypeCodec

end SerialNet
