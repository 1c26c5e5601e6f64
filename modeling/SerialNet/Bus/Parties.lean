import SerialNet.Reaction

namespace SerialNet

/-- A packet a node may have queued for its token. -/
def isData (bb : ByteVec) : Bool :=
  longEnough bb ∧ (kind bb = some .send_packet ∨ kind bb = some .mac_update)

/-- What a node may answer a token with. -/
def isResponse (bb : ByteVec) : Bool :=
  longEnough bb ∧ (kind bb = some .return_token ∨ kind bb = some .send_packet ∨ kind bb = some .mac_update)

theorem isResponse_of_isData {bb : ByteVec} (data : isData bb = true) : isResponse bb = true := by
  obtain ⟨long, type⟩ := of_decide_eq_true data
  exact decide_eq_true ⟨long, Or.inr type⟩

@[simp] theorem kind_grantToken (p : packet.GrantToken) : kind p.fromHeader = some .grant_token := rfl
@[simp] theorem kind_returnToken (p : packet.ReturnToken) : kind p.fromHeader = some .return_token := rfl
@[simp] theorem kind_addressReply (p : packet.AddressReply) : kind p.fromHeader = some .address_reply := rfl
@[simp] theorem kind_addressRequest (p : packet.AddressRequest) : kind p.fromHeader = some .address_request := rfl
@[simp] theorem kind_addressDiscovery (p : packet.AddressDiscovery) :
    kind p.fromHeader = some .address_discovery := rfl
@[simp] theorem kind_masterStarted : kind packet.masterStarted = some .master_started := rfl

theorem longEnough_addressReply (p : packet.AddressReply) : longEnough p.fromHeader = true := by
  obtain ⟨assigned, id, length⟩ := p
  match id, length with
  | [_, _, _, _, _, _, _, _], _ => rfl

theorem longEnough_addressRequest (p : packet.AddressRequest) : longEnough p.fromHeader = true := by
  obtain ⟨⟨id, length⟩, channel, ⟨crc, crcLength⟩⟩ := p
  match id, length, crc, crcLength with
  | [_, _, _, _, _, _, _, _], _, [_, _, _, _], _ => rfl

namespace PacketTypeCodec

def address (n : PacketTypeCodec) : LocalAddress := n.m_txQueue.clientAddress

def dynamic (n : PacketTypeCodec) : Bool := n.m_txQueue.m_ownAddress.m_dynamic

/-- The transmit queue holds data packets and MAC updates only. -/
def DataOnly (q : TxQueue) : Prop := ∀ msg ∈ q.m_txMsg, isData msg = true

/-- A node has heard a packet, and what it sends then. -/
def Hears (bb : ByteVec) (n n' : PacketTypeCodec) (sent : List ByteVec) : Prop :=
  ∃ stack effects, n.rxRawPacket bb stack = some (n', effects) ∧ sent = sentBy effects

theorem isData_sendPacket (p : packet.SendPacket) (data : ByteVec) : isData (p.fromHeader ++ data) = true := by
  have long : longEnough (p.fromHeader ++ data) = true := by
    simp [longEnough, packet.SendPacket.fromHeader, packet.sizeof]
  exact decide_eq_true ⟨long, Or.inl rfl⟩

theorem isData_macUpdate (p : packet.MacUpdate) : isData p.fromHeader = true := by
  obtain ⟨dest, src, hint, mac, length⟩ := p
  match mac, length with
  | [_, _, _, _, _, _], _ => rfl

/-- A host submits a packet. -/
inductive Submits (q : TxQueue) : TxQueue → Prop
  | packet (data : ByteVec) (destAddr : LocalAddress) (chType : ChannelType) :
      Submits q (q.msgHostTx_sendPacket data destAddr chType)
  | macUpdate (mac : MacAddr) : Submits q (q.msgHostTx_sendMacUpdate mac)

theorem Submits.ownAddress {q q' : TxQueue} (submits : Submits q q') : q'.m_ownAddress = q.m_ownAddress := by
  cases submits with
  | packet data destAddr chType =>
    unfold TxQueue.msgHostTx_sendPacket
    split <;> rfl
  | macUpdate mac =>
    unfold TxQueue.msgHostTx_sendMacUpdate
    split <;> rfl

theorem Submits.dataOnly {q q' : TxQueue} (submits : Submits q q') (dataOnly : DataOnly q) : DataOnly q' := by
  cases submits with
  | packet data destAddr chType =>
    unfold TxQueue.msgHostTx_sendPacket
    split
    · intro msg member
      rcases List.mem_append.mp member with old | new
      · exact dataOnly msg old
      · rw [List.mem_singleton.mp new]
        exact isData_sendPacket _ _
    · exact dataOnly
  | macUpdate mac =>
    unfold TxQueue.msgHostTx_sendMacUpdate
    split
    · exact dataOnly
    · intro msg member
      rcases List.mem_append.mp member with old | new
      · exact dataOnly msg old
      · rw [List.mem_singleton.mp new]
        exact isData_macUpdate _

section Tokens

variable {q : TxQueue}

/-- A token is answered with one packet. -/
theorem sendClientPacketOrReturnToken_response (dataOnly : DataOnly q) :
    ∃ r, sentBy q.sendClientPacketOrReturnToken.2 = [r] ∧ isResponse r = true := by
  unfold TxQueue.sendClientPacketOrReturnToken TxQueue.sendClientPacket
  split
  · exact ⟨_, rfl, rfl⟩
  · rename_i some_
    split
    · rename_i none
      exact absurd (by rw [TxQueue.txQueueEmpty, none]; rfl) some_
    · rename_i msg rest queue
      exact ⟨msg, rfl, isResponse_of_isData (dataOnly msg (by simp [queue]))⟩

theorem sendClientPacketOrReturnToken_queue (q : TxQueue) :
    q.sendClientPacketOrReturnToken.1.m_ownAddress = q.m_ownAddress ∧
      ∀ msg ∈ q.sendClientPacketOrReturnToken.1.m_txMsg, msg ∈ q.m_txMsg := by
  unfold TxQueue.sendClientPacketOrReturnToken TxQueue.sendClientPacket
  split
  · exact ⟨rfl, fun _ member => member⟩
  · split
    · exact ⟨rfl, fun _ member => member⟩
    · rename_i msg rest queue
      exact ⟨rfl, fun _ member => by rw [queue]; exact List.mem_cons_of_mem _ member⟩

end Tokens

namespace Hears

variable {bb : ByteVec} {n n' : PacketTypeCodec} {sent : List ByteVec}

theorem reaction (hears : Hears bb n n' sent) :
    (∃ stack q, n'.m_txQueue = q ∧ Reaction n bb stack q sent) ∧ n'.m_uniqueId = n.m_uniqueId := by
  obtain ⟨stack, effects, run, rfl⟩ := hears
  obtain ⟨reaction, id, _, _⟩ := rxRawPacket_reaction run
  exact ⟨⟨stack, _, rfl, reaction⟩, id⟩

theorem uniqueId (hears : Hears bb n n' sent) : n'.m_uniqueId = n.m_uniqueId := hears.reaction.2

/-- No packet turns a static node into a dynamic one or the other way round. -/
theorem dynamic (hears : Hears bb n n' sent) : n'.dynamic = n.dynamic := by
  obtain ⟨⟨stack, q, queue, reaction⟩, _⟩ := hears.reaction
  rw [PacketTypeCodec.dynamic, PacketTypeCodec.dynamic, queue]
  cases reaction with
  | granted => rw [(sendClientPacketOrReturnToken_queue _).1]
  | assigned => rfl
  | started =>
    simp only [TxQueue.masterStarted, OwnAddress.masterStarted]
    split <;> rfl
  | asked => rfl
  | ignored => rfl

theorem dataOnly (hears : Hears bb n n' sent) (dataOnly : DataOnly n.m_txQueue) : DataOnly n'.m_txQueue := by
  obtain ⟨⟨stack, q, queue, reaction⟩, _⟩ := hears.reaction
  rw [queue]
  cases reaction with
  | granted =>
    intro msg member
    exact dataOnly msg ((sendClientPacketOrReturnToken_queue _).2 msg member)
  | assigned => exact dataOnly
  | started => exact dataOnly
  | asked => exact dataOnly
  | ignored => exact dataOnly

/-- Only the node that holds the address answers a token. -/
theorem grant {a : LocalAddress} (hears : Hears (packet.GrantToken.fromHeader ⟨a⟩) n n' sent)
    (dataOnly : DataOnly n.m_txQueue) :
    (n.address = a → ∃ r, sent = [r] ∧ isResponse r = true) ∧ (n.address ≠ a → sent = []) := by
  obtain ⟨⟨stack, q, queue, reaction⟩, _⟩ := hears.reaction
  cases reaction with
  | granted _ header mine =>
    cases Option.some.inj header
    refine ⟨fun _ => sendClientPacketOrReturnToken_response dataOnly, ?_⟩
    intro other
    exact absurd mine.symm other
  | assigned type => cases type
  | started type => cases type
  | asked type => cases type
  | ignored other _ => exact ⟨fun mine => absurd mine.symm (other ⟨a⟩ rfl rfl rfl), fun _ => rfl⟩

/-- A node takes the address of a reply with its own id, and of no other. -/
theorem reply {p : packet.AddressReply} (hears : Hears p.fromHeader n n' sent) :
    (p.m_uniqueId = n.m_uniqueId → n'.address = p.m_assigned) ∧
      (p.m_uniqueId ≠ n.m_uniqueId → n'.address = n.address) := by
  obtain ⟨⟨stack, q, queue, reaction⟩, _⟩ := hears.reaction
  simp only [address, queue, TxQueue.clientAddress]
  cases reaction with
  | granted type => cases type
  | assigned _ header mine =>
    rw [packet.AddressReply.toHeader_fromHeader] at header
    cases header
    exact ⟨fun _ => rfl, fun other => absurd mine other⟩
  | started type => cases type
  | asked type => cases type
  | ignored _ other =>
    refine ⟨?_, fun _ => rfl⟩
    intro mine
    exact absurd mine (other p rfl (longEnough_addressReply p) (packet.AddressReply.toHeader_fromHeader p))

/-- Nodes send answers to a token, and requests for an address while they have
none. -/
theorem sends (hears : Hears bb n n' sent) (dataOnly : DataOnly n.m_txQueue) {x : ByteVec} (member : x ∈ sent) :
    isResponse x = true ∨ n.address = LocalAddress.null_addr ∧
      ∃ r : packet.AddressRequest, r.m_uniqueId = n.m_uniqueId ∧ x = r.fromHeader := by
  obtain ⟨⟨stack, q, queue, reaction⟩, _⟩ := hears.reaction
  cases reaction with
  | granted =>
    obtain ⟨r, answer, response⟩ := sendClientPacketOrReturnToken_response dataOnly
    rw [answer] at member
    rw [List.mem_singleton.mp member]
    exact Or.inl response
  | assigned => cases member
  | started => cases member
  | asked _ null => exact Or.inr ⟨null, _, rfl, List.mem_singleton.mp member⟩
  | ignored => cases member

/-- Without a token there are only requests. -/
theorem sends_request (hears : Hears bb n n' sent) (noGrant : kind bb ≠ some .grant_token) {x : ByteVec}
    (member : x ∈ sent) : ∃ r : packet.AddressRequest, x = r.fromHeader := by
  obtain ⟨⟨stack, q, queue, reaction⟩, _⟩ := hears.reaction
  cases reaction with
  | granted type => exact absurd type noGrant
  | assigned => cases member
  | started => cases member
  | asked _ null => exact ⟨_, List.mem_singleton.mp member⟩
  | ignored => cases member

/-- The start of the master makes dynamic nodes forget their address. -/
theorem started (hears : Hears bb n n' sent) (type : kind bb = some .master_started) :
    n'.address = n.address ∨ n.dynamic = true ∧ n'.address = LocalAddress.null_addr := by
  obtain ⟨⟨stack, q, queue, reaction⟩, _⟩ := hears.reaction
  simp only [address, queue, TxQueue.clientAddress, PacketTypeCodec.dynamic]
  cases reaction with
  | granted other => rw [type] at other; cases other
  | assigned other => rw [type] at other; cases other
  | started =>
    simp only [TxQueue.masterStarted, OwnAddress.masterStarted]
    split
    · rename_i dynamic
      exact Or.inr ⟨dynamic, rfl⟩
    · exact Or.inl rfl
  | asked other => rw [type] at other; cases other
  | ignored => exact Or.inl rfl

/-- Any other packet leaves the address alone. -/
theorem address_eq (hears : Hears bb n n' sent) (noReply : kind bb ≠ some .address_reply)
    (noStart : kind bb ≠ some .master_started) : n'.address = n.address := by
  obtain ⟨⟨stack, q, queue, reaction⟩, _⟩ := hears.reaction
  simp only [address, queue]
  cases reaction with
  | granted => simp only [TxQueue.clientAddress, (sendClientPacketOrReturnToken_queue _).1]
  | assigned type => exact absurd type noReply
  | started type => exact absurd type noStart
  | asked => rfl
  | ignored => rfl

/-- A node changes its address when the master starts, and when a reply carries its id. -/
theorem address_cases (hears : Hears bb n n' sent) :
    n'.address = n.address ∨ n.dynamic = true ∧ n'.address = LocalAddress.null_addr ∨
      kind bb = some .address_reply ∧ ∃ p, packet.AddressReply.toHeader bb = some p ∧
        p.m_uniqueId = n.m_uniqueId ∧ n'.address = p.m_assigned := by
  by_cases start : kind bb = some .master_started
  · rcases hears.started start with same | forgotten
    · exact Or.inl same
    · exact Or.inr (Or.inl forgotten)
  · by_cases type : kind bb = some .address_reply
    · obtain ⟨⟨stack, q, queue, reaction⟩, _⟩ := hears.reaction
      simp only [address, queue]
      cases reaction with
      | granted other => rw [type] at other; cases other
      | assigned _ header mine => exact Or.inr (Or.inr ⟨type, _, header, mine, rfl⟩)
      | started other => exact absurd other start
      | asked other => rw [type] at other; cases other
      | ignored => exact Or.inl rfl
    · exact Or.inl (hears.address_eq type start)

/-- Only tokens and searches are answered. -/
theorem silent (hears : Hears bb n n' sent) (noGrant : kind bb ≠ some .grant_token)
    (noDiscovery : kind bb ≠ some .address_discovery) : sent = [] := by
  obtain ⟨⟨stack, q, queue, reaction⟩, _⟩ := hears.reaction
  cases reaction with
  | granted type => exact absurd type noGrant
  | assigned => rfl
  | started => rfl
  | asked type => exact absurd type noDiscovery
  | ignored => rfl

end Hears

end PacketTypeCodec

end SerialNet
