import SerialNet.PacketTypeCodec

namespace SerialNet

/-- The type of a packet, if its first byte is one. -/
def kind (bb : ByteVec) : Option MessageType := bb.head?.bind byte2MessageType

/-- The sender a packet of a client names: `m_srcAddr`, or `m_src` of a returned
token. -/
def sourceAddress (bb : ByteVec) : Option LocalAddress :=
  match kind bb with
  | some .send_packet => bb[3]?
  | some .mac_update => bb[2]?
  | some .return_token => bb[1]?
  | _ => none

/-- The packets handed to the transmitter. -/
def sentBy (effects : List Effect) : List ByteVec :=
  effects.filterMap fun
    | .sendMsg msg => some msg
    | _ => none

@[simp] theorem sentBy_append (first second : List Effect) :
    sentBy (first ++ second) = sentBy first ++ sentBy second := List.filterMap_append

@[simp] theorem sentBy_nil : sentBy [] = [] := rfl

@[simp] theorem sentBy_sendMsg (msg : ByteVec) : sentBy [.sendMsg msg] = [msg] := rfl

/-- The effects that are not for a master. -/
def outward : Effect → Bool
  | .masterPacketReceived .. => false
  | _ => true

theorem sentBy_outward (effects : List Effect) : sentBy (effects.filter outward) = sentBy effects := by
  rw [sentBy, List.filterMap_filter, sentBy]
  congr 1
  funext e
  cases e <;> rfl

namespace PacketTypeCodec

/-- Everything a packet can make a node do to its transmit queue, and what it makes
it send. -/
inductive Reaction (n : PacketTypeCodec) (bb : ByteVec) (stack : ChannelType × Crc32) :
    TxQueue → List ByteVec → Prop
  | granted {p} : kind bb = some .grant_token → packet.GrantToken.toHeader bb = some p →
      p.m_tokenReceiver = n.m_txQueue.clientAddress →
      Reaction n bb stack n.m_txQueue.sendClientPacketOrReturnToken.1
        (sentBy n.m_txQueue.sendClientPacketOrReturnToken.2)
  | assigned {p} : kind bb = some .address_reply → packet.AddressReply.toHeader bb = some p →
      p.m_uniqueId = n.m_uniqueId → Reaction n bb stack (n.m_txQueue.setAddress p.m_assigned).1 []
  | started : kind bb = some .master_started → Reaction n bb stack n.m_txQueue.masterStarted.1 []
  | asked : kind bb = some .address_discovery → n.m_txQueue.clientAddress = LocalAddress.null_addr →
      Reaction n bb stack n.m_txQueue [packet.AddressRequest.fromHeader ⟨n.m_uniqueId, stack.1, stack.2⟩]
  | ignored :
      (∀ p, kind bb = some .grant_token → longEnough bb = true → packet.GrantToken.toHeader bb = some p →
        p.m_tokenReceiver ≠ n.m_txQueue.clientAddress) →
      (∀ p, kind bb = some .address_reply → longEnough bb = true → packet.AddressReply.toHeader bb = some p →
        p.m_uniqueId ≠ n.m_uniqueId) →
      Reaction n bb stack n.m_txQueue []

/-- What a packet leaves alone, and whom its effects are for. -/
structure Contained (n n' : PacketTypeCodec) (effects : List Effect) : Prop where
  uniqueId : n'.m_uniqueId = n.m_uniqueId
  master : n'.m_master = n.m_master
  outward : ∀ e ∈ effects, outward e = true

/-- A change of address is at most announced to the host. -/
theorem set_effects (o : OwnAddress) (addr : LocalAddress) :
    sentBy (o.set addr).2 = [] ∧ ∀ e ∈ (o.set addr).2, SerialNet.outward e = true := by
  simp only [OwnAddress.set]
  split
  · exact ⟨rfl, by simp [SerialNet.outward]⟩
  · exact ⟨rfl, by simp⟩

theorem masterStarted_effects (o : OwnAddress) :
    sentBy o.masterStarted.2 = [] ∧ ∀ e ∈ o.masterStarted.2, SerialNet.outward e = true := by
  unfold OwnAddress.masterStarted
  split
  · exact set_effects _ _
  · exact ⟨rfl, by simp⟩

theorem sendClientPacketOrReturnToken_outward (q : TxQueue) :
    ∀ e ∈ q.sendClientPacketOrReturnToken.2, SerialNet.outward e = true := by
  unfold TxQueue.sendClientPacketOrReturnToken TxQueue.sendClientPacket
  split
  · simp [TxQueue.sendReturnToken, SerialNet.outward]
  · split <;> simp [SerialNet.outward]

theorem rxCommand_reaction {n n' : PacketTypeCodec} {cmd : MessageType} {bb : ByteVec}
    {stack : ChannelType × Crc32} {effects : List Effect} (type : kind bb = some cmd)
    (run : n.rxCommand cmd bb stack = some (n', effects)) :
    Reaction n bb stack n'.m_txQueue (sentBy effects) ∧ Contained n n' effects := by
  have noGrant : cmd ≠ .grant_token → ∀ p, kind bb = some .grant_token → longEnough bb = true →
      packet.GrantToken.toHeader bb = some p → p.m_tokenReceiver ≠ n.m_txQueue.clientAddress := by
    intro other p grant
    exact absurd (Option.some.inj (type.symm.trans grant)) other
  have noReply : cmd ≠ .address_reply → ∀ p, kind bb = some .address_reply → longEnough bb = true →
      packet.AddressReply.toHeader bb = some p → p.m_uniqueId ≠ n.m_uniqueId := by
    intro other p reply
    exact absurd (Option.some.inj (type.symm.trans reply)) other
  cases cmd with
  | grant_token =>
    obtain ⟨p, header, run⟩ := Option.bind_eq_some_iff.mp run
    split at run
    · rename_i mine
      cases Option.some.inj run
      exact ⟨.granted type header mine, rfl, rfl, sendClientPacketOrReturnToken_outward _⟩
    · rename_i other
      cases Option.some.inj run
      refine ⟨.ignored ?_ (noReply (by simp)), rfl, rfl, by simp⟩
      intro p' _ _ header'
      rw [header] at header'
      cases header'
      exact other
  | send_packet =>
    obtain ⟨p, header, run⟩ := Option.bind_eq_some_iff.mp run
    split at run <;> cases Option.some.inj run <;>
      exact ⟨.ignored (noGrant (by simp)) (noReply (by simp)), rfl, rfl, by simp⟩
  | address_discovery =>
    obtain ⟨p, header, run⟩ := Option.bind_eq_some_iff.mp run
    cases Option.some.inj run
    unfold rxDiscoveryPacket
    split
    · exact ⟨.ignored (noGrant (by simp)) (noReply (by simp)), rfl, rfl, by simp⟩
    · rename_i null
      exact ⟨.asked type (not_not.mp null), rfl, rfl, by simp [SerialNet.outward]⟩
  | address_reply =>
    obtain ⟨p, header, run⟩ := Option.bind_eq_some_iff.mp run
    simp only [rxAddrReplyPacket] at run
    split at run
    · rename_i mine
      cases Option.some.inj run
      have quiet := set_effects n.m_txQueue.m_ownAddress p.m_assigned
      refine ⟨?_, rfl, rfl, quiet.2⟩
      have none : sentBy (n.m_txQueue.setAddress p.m_assigned).2 = [] := quiet.1
      rw [none]
      exact .assigned type header mine
    · rename_i other
      cases Option.some.inj run
      refine ⟨.ignored (noGrant (by simp)) ?_, rfl, rfl, by simp⟩
      intro p' _ _ header'
      rw [header] at header'
      cases header'
      exact other
  | master_started =>
    cases Option.some.inj run
    have quiet := masterStarted_effects n.m_txQueue.m_ownAddress
    refine ⟨?_, rfl, rfl, quiet.2⟩
    have none : sentBy n.m_txQueue.masterStarted.2 = [] := quiet.1
    rw [none]
    exact .started type
  | master_ended =>
    cases Option.some.inj run
    have quiet : sentBy (if n.m_masterEndedCB then [Effect.masterEnded] else []) = [] := by split <;> rfl
    rw [quiet]
    refine ⟨.ignored (noGrant (by simp)) (noReply (by simp)), rfl, rfl, ?_⟩
    split <;> simp [SerialNet.outward]
  | mac_update =>
    simp only [rxCommand] at run
    split at run
    · cases Option.some.inj run
      exact ⟨.ignored (noGrant (by simp)) (noReply (by simp)), rfl, rfl, by simp⟩
    · obtain ⟨localAddr, _, run⟩ := Option.bind_eq_some_iff.mp run
      obtain ⟨mac, _, run⟩ := Option.bind_eq_some_iff.mp run
      cases Option.some.inj run
      exact ⟨.ignored (noGrant (by simp)) (noReply (by simp)), rfl, rfl, by simp⟩
  | address_request =>
    cases Option.some.inj run
    exact ⟨.ignored (noGrant (by simp)) (noReply (by simp)), rfl, rfl, by simp⟩
  | return_token =>
    cases Option.some.inj run
    exact ⟨.ignored (noGrant (by simp)) (noReply (by simp)), rfl, rfl, by simp⟩

theorem deliver_effects {q : TxQueue} {bb : ByteVec} {effects : List Effect}
    (run : deliver q bb = some effects) :
    sentBy effects = [] ∧ ∀ e ∈ effects, SerialNet.outward e = true := by
  obtain ⟨p, _, run⟩ := Option.bind_eq_some_iff.mp run
  dsimp only at run
  split at run
  · cases Option.some.inj run
    exact ⟨rfl, by simp⟩
  · cases Option.some.inj run
    exact ⟨rfl, by simp [SerialNet.outward]⟩

theorem mapM_deliver_effects {q : TxQueue} {queued : List ByteVec} {parts : List (List Effect)}
    (run : queued.mapM (deliver q) = some parts) :
    sentBy parts.flatten = [] ∧ ∀ e ∈ parts.flatten, SerialNet.outward e = true := by
  induction queued generalizing parts with
  | nil =>
    cases Option.some.inj run
    exact ⟨rfl, by simp⟩
  | cons bb rest ih =>
    rw [List.mapM_cons] at run
    obtain ⟨first, head, run⟩ := Option.bind_eq_some_iff.mp run
    obtain ⟨later, tail, run⟩ := Option.bind_eq_some_iff.mp run
    cases Option.some.inj run
    have here := deliver_effects head
    have there := ih tail
    refine ⟨by rw [List.flatten_cons, sentBy_append, here.1, there.1, List.append_nil], ?_⟩
    intro e member
    rw [List.flatten_cons, List.mem_append] at member
    rcases member with now | later
    · exact here.2 e now
    · exact there.2 e later

/-- The master, if there is one, is told once about every packet that is long
enough. -/
def notified (n : PacketTypeCodec) (bb : ByteVec) : List Effect :=
  if n.m_master ∧ longEnough bb then ((kind bb).map (Effect.masterPacketReceived · bb)).toList else []

theorem rxRawPacket_reaction {n n' : PacketTypeCodec} {bb : ByteVec} {stack : ChannelType × Crc32}
    {effects : List Effect} (run : n.rxRawPacket bb stack = some (n', effects)) :
    Reaction n bb stack n'.m_txQueue (sentBy effects) ∧ n'.m_uniqueId = n.m_uniqueId ∧
      n'.m_master = n.m_master ∧ effects.filter (!SerialNet.outward ·) = n.notified bb := by
  rcases rxRawPacket_cases run with ⟨rfl, rfl, dropped⟩ | ⟨cmd, n₁, own, parts, ⟨type, long⟩, command, all, rfl, rfl⟩
  · have unheard : ∀ cmd, kind bb = some cmd → longEnough bb ≠ true := by
      intro cmd type long
      rcases dropped with unknown | short
      · cases type.symm.trans unknown
      · cases long.symm.trans short
    refine ⟨.ignored ?_ ?_, rfl, rfl, ?_⟩
    · intro p type long
      exact absurd long (unheard _ type)
    · intro p type long
      exact absurd long (unheard _ type)
    · rcases dropped with unknown | short
      · have none : kind bb = none := unknown
        simp [notified, none]
      · simp [notified, short]
  · have known : kind bb = some cmd := type
    obtain ⟨reaction, contained⟩ := rxCommand_reaction known command
    have quiet := mapM_deliver_effects all
    have ownOut : own.filter (!SerialNet.outward ·) = [] := by simpa using contained.outward
    have hostOut : parts.flatten.filter (!SerialNet.outward ·) = [] := by
      rw [List.filter_eq_nil_iff]
      intro e member
      simp [quiet.2 e member]
    refine ⟨?_, contained.uniqueId, contained.master, ?_⟩
    · have sent : sentBy (own ++ (if n.m_master then [Effect.masterPacketReceived cmd bb] else []) ++
          parts.flatten) = sentBy own := by
        rw [sentBy_append, sentBy_append, quiet.1]
        split <;> simp [sentBy]
      rw [sent]
      exact reaction
    · simp only [List.filter_append, ownOut, hostOut, notified, long, and_true, known]
      split <;> simp [SerialNet.outward]

end PacketTypeCodec

end SerialNet
