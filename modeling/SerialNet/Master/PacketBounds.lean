import SerialNet.Client
import SerialNet.Master.Phases

namespace SerialNet

/-! Received packets of any length -/

theorem slice_isSome_iff {bb : ByteVec} {offset n : Nat} (some_ : 0 < n) :
    (slice bb offset n).isSome = true ↔ offset + n ≤ bb.length := by
  unfold slice
  split
  · rename_i inside
    rw [List.length_take, List.length_drop] at inside
    simp only [Option.isSome_some, true_iff]
    omega
  · rename_i outside
    rw [List.length_take, List.length_drop] at outside
    simp only [Option.isSome_none, Bool.false_eq_true, false_iff]
    omega

/-- The header of a request is read where its size assertion holds, and nowhere else. -/
theorem packet.AddressRequest.toHeader_isSome_iff (bb : ByteVec) :
    (packet.AddressRequest.toHeader bb).isSome = true ↔ packet.sizeof .address_request ≤ bb.length := by
  constructor
  · intro read
    obtain ⟨_, read⟩ := Option.isSome_iff_exists.mp read
    obtain ⟨_, _, read⟩ := Option.bind_eq_some_iff.mp read
    obtain ⟨_, _, read⟩ := Option.bind_eq_some_iff.mp read
    obtain ⟨_, crc, _⟩ := Option.bind_eq_some_iff.mp read
    exact (slice_isSome_iff (by decide)).mp (Option.isSome_iff_exists.mpr ⟨_, crc⟩)
  · intro long
    have size : 14 ≤ bb.length := long
    obtain ⟨id, atId⟩ := PacketTypeCodec.slice_isSome (n := 8) (show 1 + 8 ≤ bb.length by omega)
    obtain ⟨crc, atCrc⟩ := PacketTypeCodec.slice_isSome (n := 4) (show 10 + 4 ≤ bb.length by omega)
    have channel : bb[9]? = some (bb[9]) := List.getElem?_eq_getElem (by omega)
    simp only [toHeader, atId, atCrc, channel, Option.bind_eq_bind, Option.bind_some, Option.isSome_some]

/-- A packet that is empty, of no known type, or shorter than the header of its type. -/
def Malformed (bb : ByteVec) : Prop :=
  bb = [] ∨ kind bb = none ∨ ∃ cmd, kind bb = some cmd ∧ bb.length < packet.sizeof cmd

theorem longEnough_of_malformed {bb : ByteVec} (malformed : Malformed bb) : longEnough bb = false := by
  rcases malformed with rfl | unknown | ⟨cmd, type, short⟩
  · rfl
  · cases bb with
    | nil => rfl
    | cons b rest =>
      have none : byte2MessageType b = none := unknown
      simp only [longEnough, none]
  · rw [Bool.eq_false_iff]
    intro long
    have size := (PacketTypeCodec.longEnough_iff type).mp long
    omega

namespace PacketTypeCodec

theorem rxRawPacket_malformed (n : PacketTypeCodec) {bb : ByteVec} (malformed : Malformed bb)
    (stack : ChannelType × Crc32) : n.rxRawPacket bb stack = some (n, []) := by
  unfold rxRawPacket
  split
  · rfl
  · rw [longEnough_of_malformed malformed]
    rfl

/-- Nothing outside the packet is read, neither by the node nor by the master it tells. -/
structure ReadsInside (n : PacketTypeCodec) (bb : ByteVec) (stack : ChannelType × Crc32) : Prop where
  node : ∃ n' effects, n.rxRawPacket bb stack = some (n', effects) ∧ n'.m_rxMsg = [] ∧
    ∀ type bb', .masterPacketReceived type bb' ∈ effects → bb' = bb ∧ kind bb = some type ∧
      packet.sizeof type ≤ bb.length ∧
      (type = .address_request → (packet.AddressRequest.toHeader bb).isSome = true)
  malformed : Malformed bb → n.rxRawPacket bb stack = some (n, [])

theorem readsInside {n : PacketTypeCodec} (empty : n.m_rxMsg = []) (bb : ByteVec) (stack : ChannelType × Crc32) :
    n.ReadsInside bb stack := by
  obtain ⟨n', effects, run⟩ := rxRawPacket_total empty bb stack
  refine ⟨⟨n', effects, run, Station.rxRawPacket_rxMsg empty run, ?_⟩, fun bad => n.rxRawPacket_malformed bad stack⟩
  intro type bb' told
  obtain ⟨_, _, _, notified⟩ := rxRawPacket_reaction run
  have member : Effect.masterPacketReceived type bb' ∈ n.notified bb := by
    rw [← notified, List.mem_filter]
    exact ⟨told, rfl⟩
  unfold PacketTypeCodec.notified at member
  split at member
  · rename_i heard
    obtain ⟨cmd, here, same⟩ := Option.map_eq_some_iff.mp (Option.mem_toList.mp member)
    cases same
    have size := (longEnough_iff here).mp heard.2
    refine ⟨rfl, here, size, ?_⟩
    rintro rfl
    exact (packet.AddressRequest.toHeader_isSome_iff bb).mpr size
  · cases member

end PacketTypeCodec

namespace Master

/-- Between two packets the node of a master has delivered all it received. -/
theorem Reach.rxMsg_empty {allowed : Master → Label → Prop} {cfg : Config} {node : PacketTypeCodec}
    {uninitialised : Nat → UniqueId} {now : ℚ} {m : Master} (reach : Reach allowed cfg node uninitialised now m)
    (empty : node.m_rxMsg = []) : m.m_node.m_rxMsg = [] := by
  refine reach.invariant (P := fun m => m.m_node.m_rxMsg = []) empty ?_
  intro m m' l synced delivered _ step
  rcases synced.step_cases step with ⟨_, _, _, _, taken⟩ | ⟨_, _, _, _, _, _, taken⟩
  · cases taken with
    | ownSends _ _ _ _ =>
      rw [goto_node]
      exact delivered
    | _ => simpa [startTimer] using delivered
  · cases taken with
    | packet run => exact Station.rxRawPacket_rxMsg delivered run
    | delayIdle _ =>
      rw [startNext_node]
      exact delivered
    | _ => exact delivered

end Master

/-- No packet, whatever its length and its type, makes a node or a master read behind
its end, and a malformed one changes neither of them and is not answered. -/
theorem packets_read_inside :
    (∀ s, Station.Reach s → ∀ bb stack, s.m_node.ReadsInside bb stack) ∧
    ∀ cfg q id cache ended uninitialised now m,
      Master.Reach (fun _ _ => True) cfg (.make q id cache ended) uninitialised now m →
      ∀ bb stack now', m.m_node.ReadsInside bb stack ∧
        (∀ fault, m.stimulate now' (.rxRawPacket bb stack) ≠ .error fault) ∧
        (Malformed bb → m.stimulate now' (.rxRawPacket bb stack) = .ok { m with m_now := now', m_out := [] }) := by
  refine ⟨fun s reach bb stack => PacketTypeCodec.readsInside reach.rxMsg_empty bb stack, ?_⟩
  intro cfg q id cache ended uninitialised now m reach bb stack now'
  have inside := PacketTypeCodec.readsInside (reach.rxMsg_empty rfl) bb stack
  refine ⟨inside, ?_, ?_⟩
  · intro fault run
    obtain ⟨n', effects, received, _⟩ := inside.node
    simp only [Master.stimulate, received] at run
    cases run
  · intro malformed
    simp only [Master.stimulate, inside.malformed malformed]
    rfl

/-- A request that lacks its last byte. -/
def shortRequest : ByteVec := messageType2Byte .address_request :: List.replicate 12 0

theorem packets_read_inside_short :
    Master.sampleNode.rxRawPacket shortRequest Master.sampleStack = some (Master.sampleNode, []) ∧
      ∃ m, Master.start {} Master.sampleNode (fun _ => Master.sampleId) 1000 = .ok m ∧
        m.stimulate 1001 (.rxRawPacket shortRequest Master.sampleStack) =
          .ok { m with m_now := 1001, m_out := [] } := by
  have short : Malformed shortRequest := Or.inr (Or.inr ⟨.address_request, rfl, by decide⟩)
  have started := Master.start_eq {} Master.sampleNode (fun _ => Master.sampleId) 1000
  have operating := Station.Reach.start true (.make 9 false) Master.sampleId none false
  have client := packets_read_inside.1 _ operating shortRequest Master.sampleStack
  have master := packets_read_inside.2 _ _ _ _ _ _ _ _ ⟨_, started, .start⟩ shortRequest Master.sampleStack 1001
  exact ⟨client.malformed short, _, started, master.2.2 short⟩

end SerialNet
