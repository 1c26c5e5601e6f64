import SerialNet.Delivery
import SerialNet.Reaction

namespace SerialNet

namespace PacketTypeCodec

/-! No packet stops a node: what is too short is not looked at. -/

theorem longEnough_iff {bb : ByteVec} {cmd : MessageType} (type : kind bb = some cmd) :
    longEnough bb = true ↔ packet.sizeof cmd ≤ bb.length := by
  cases bb with
  | nil => cases type
  | cons b rest =>
    have known : byte2MessageType b = some cmd := type
    simp only [longEnough, known]
    exact decide_eq_true_iff

/-- The start of the master is one byte, and so it is never too short to be heard. -/
theorem rxRawPacket_started {n n' : PacketTypeCodec} {bb : ByteVec} {stack : ChannelType × Crc32}
    {effects : List Effect} (type : kind bb = some .master_started)
    (run : n.rxRawPacket bb stack = some (n', effects)) :
    n'.m_txQueue = n.m_txQueue.masterStarted.1 ∧ sentBy effects = [] := by
  have named : bb.head?.bind byte2MessageType = some .master_started := type
  have long : longEnough bb = true := by
    rw [longEnough_iff type]
    cases bb with
    | nil => cases type
    | cons b rest => exact Nat.succ_le_succ (Nat.zero_le _)
  refine ⟨?_, ?_⟩
  · rcases rxRawPacket_cases run with ⟨_, _, unknown | short⟩ | ⟨_, _, _, _, ⟨type', _⟩, command, _, rfl, _⟩
    · cases named.symm.trans unknown
    · cases long.symm.trans short
    · cases named.symm.trans type'
      cases Option.some.inj command
      rfl
  · have reaction := (rxRawPacket_reaction run).1
    generalize n'.m_txQueue = q, sentBy effects = sent at reaction
    cases reaction with
    | granted other => rw [type] at other; cases other
    | assigned => rfl
    | started => rfl
    | asked other => rw [type] at other; cases other
    | ignored => rfl

theorem slice_isSome {bb : ByteVec} {offset n : Nat} (inside : offset + n ≤ bb.length) :
    ∃ bytes, slice bb offset n = some bytes := by
  have length : ((bb.drop offset).take n).length = n := by
    rw [List.length_take, List.length_drop]
    omega
  exact ⟨_, dif_pos length⟩

theorem rxCommand_total {n : PacketTypeCodec} {cmd : MessageType} {bb : ByteVec} (stack : ChannelType × Crc32)
    (long : packet.sizeof cmd ≤ bb.length) : ∃ n' effects, n.rxCommand cmd bb stack = some (n', effects) := by
  have at_ : ∀ {i}, i < bb.length → bb[i]? = some (bb.getD i 0) := by
    intro i inside
    rw [List.getD_eq_getElem?_getD, List.getElem?_eq_getElem inside]
    rfl
  cases cmd with
  | grant_token =>
    have two : 2 ≤ bb.length := long
    simp only [rxCommand, packet.GrantToken.toHeader, at_ (show 1 < bb.length by omega), Option.bind_eq_bind,
      Option.bind_some]
    split <;> exact ⟨_, _, rfl⟩
  | send_packet =>
    have four : 4 ≤ bb.length := long
    simp only [rxCommand, packet.SendPacket.toHeader, at_ (show 1 < bb.length by omega),
      at_ (show 2 < bb.length by omega), at_ (show 3 < bb.length by omega), Option.bind_eq_bind, Option.bind_some]
    split <;> exact ⟨_, _, rfl⟩
  | address_discovery =>
    have three : 3 ≤ bb.length := long
    simp only [rxCommand, packet.AddressDiscovery.toHeader, at_ (show 1 < bb.length by omega),
      at_ (show 2 < bb.length by omega), Option.bind_eq_bind, Option.bind_some]
    exact ⟨_, _, rfl⟩
  | address_reply =>
    have ten : 10 ≤ bb.length := long
    obtain ⟨id, atId⟩ := slice_isSome (n := 8) (show 2 + 8 ≤ bb.length by omega)
    simp only [rxCommand, packet.AddressReply.toHeader, at_ (show 1 < bb.length by omega), atId,
      Option.bind_eq_bind, Option.bind_some]
    exact ⟨_, _, rfl⟩
  | mac_update =>
    have ten : 10 ≤ bb.length := long
    obtain ⟨mac, atMac⟩ := slice_isSome (n := 6) (show 4 + 6 ≤ bb.length by omega)
    simp only [rxCommand]
    split
    · exact ⟨_, _, rfl⟩
    · simp only [at_ (show 3 < bb.length by omega), atMac, Option.bind_eq_bind, Option.bind_some]
      exact ⟨_, _, rfl⟩
  | _ => exact ⟨_, _, rfl⟩

/-- Only a data packet for this node is kept for the host, and it is long enough to be
delivered. -/
theorem rxCommand_rxMsg {n n' : PacketTypeCodec} {cmd : MessageType} {bb : ByteVec} {stack : ChannelType × Crc32}
    {effects : List Effect} (empty : n.m_rxMsg = []) (run : n.rxCommand cmd bb stack = some (n', effects)) :
    ∀ queued ∈ n'.m_rxMsg, 4 ≤ queued.length := by
  have unchanged : ∀ queued ∈ n.m_rxMsg, 4 ≤ queued.length := by
    rw [empty]
    rintro queued ⟨⟩
  cases rxCommand_handled run with
  | kept header =>
    intro queued member
    rw [empty, List.nil_append, List.mem_singleton] at member
    rw [member]
    match bb, header with
    | _ :: _ :: _ :: _ :: _, _ => exact Nat.le_add_left 4 _
  | _ => exact unchanged

theorem mapM_deliver_total {q : TxQueue} {queued : List ByteVec} (long : ∀ bb ∈ queued, 4 ≤ bb.length) :
    ∃ parts, queued.mapM (deliver q) = some parts := by
  induction queued with
  | nil => exact ⟨[], rfl⟩
  | cons bb rest ih =>
    have four := long bb List.mem_cons_self
    obtain ⟨parts, later⟩ := ih fun b member => long b (List.mem_cons_of_mem _ member)
    have first : ∃ effects, deliver q bb = some effects := by
      match bb, four with
      | _ :: _ :: _ :: _ :: _, _ =>
        unfold deliver
        simp only [packet.SendPacket.toHeader, List.getElem?_cons_succ, List.getElem?_cons_zero, Option.bind_eq_bind,
          Option.bind_some]
        split <;> exact ⟨_, rfl⟩
    obtain ⟨effects, here⟩ := first
    exact ⟨effects :: parts, by rw [List.mapM_cons, here, later]; rfl⟩

theorem rxRawPacket_total {n : PacketTypeCodec} (empty : n.m_rxMsg = []) (bb : ByteVec) (stack : ChannelType × Crc32) :
    ∃ n' effects, n.rxRawPacket bb stack = some (n', effects) := by
  unfold rxRawPacket
  split
  · exact ⟨_, _, rfl⟩
  · rename_i cmd type
    split
    · rename_i long
      have size := (longEnough_iff type).mp long
      obtain ⟨handled, own, command⟩ := rxCommand_total (n := n) stack size
      obtain ⟨parts, all⟩ := mapM_deliver_total (q := handled.m_txQueue) (rxCommand_rxMsg empty command)
      simp only [command, deliverRxQueue, all, Option.bind_eq_bind, Option.bind_some]
      exact ⟨_, _, rfl⟩
    · exact ⟨_, _, rfl⟩

end PacketTypeCodec

end SerialNet
