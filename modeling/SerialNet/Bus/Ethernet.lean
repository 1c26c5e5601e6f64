import SerialNet.Bus.AddressRange
import SerialNet.Bus.Traffic
import SerialNet.Master.PacketBounds

namespace SerialNet

open PacketTypeCodec TapProtocol

/-! What one node does -/

/-- A frame for the host has been through `packetReceived`, or the driver has not been called. -/
theorem TapHostDriver.rxRawPacket_frame {n n' : PacketTypeCodec} (rested : n.m_rxMsg = []) {src dest : LocalAddress}
    {data : ByteVec} {stack : ChannelType × Crc32} {writeLen : Int} {outcomes : List Outcome}
    (run : TapHostDriver.rxRawPacket n (packet.SendPacket.fromHeader ⟨.tap_format, dest, src⟩ ++ data) stack writeLen =
      some (n', outcomes)) :
    n' = n ∧ outcomes = [] ∨ accepts n.address dest = true ∧ ∃ m_cache outcome,
      packetReceived n.m_cache writeLen data src dest = some (m_cache, outcome) ∧
        n' = { n with m_cache := m_cache } ∧ outcomes = [outcome] := by
  obtain ⟨effects, received, calls⟩ := Station.rxRawPacket_sendPacket rested ⟨.tap_format, dest, src⟩ data stack
  obtain ⟨_, received', delivered⟩ := Option.bind_eq_some_iff.mp run
  cases received.symm.trans received'
  dsimp only at delivered
  rw [foldlM_hostEffect, calls, Station.expectedCalls] at delivered
  split at delivered
  · rename_i mine
    split at delivered
    · obtain ⟨s, one, rest⟩ := Option.bind_eq_some_iff.mp delivered
      cases Option.some.inj rest
      simp only [hostEffect] at one
      split at one
      · obtain ⟨⟨m_cache, outcome⟩, run', one⟩ := Option.bind_eq_some_iff.mp one
        cases Option.some.inj one
        exact Or.inr ⟨decide_eq_true mine, m_cache, outcome, run', rfl, rfl⟩
      · cases Option.some.inj one
        exact Or.inl ⟨rfl, rfl⟩
    · cases Option.some.inj delivered
      exact Or.inl ⟨rfl, rfl⟩
  · cases Option.some.inj delivered
    exact Or.inl ⟨rfl, rfl⟩

/-- What carries no data neither reaches the driver nor changes the cache. -/
theorem rxRawPacket_control {n n' : PacketTypeCodec} (rested : n.m_rxMsg = []) {bb : ByteVec}
    (control : isData bb = false) {stack : ChannelType × Crc32} {effects : List Effect}
    (run : n.rxRawPacket bb stack = some (n', effects)) :
    n'.m_cache = n.m_cache ∧ effects.filter Station.isHostCall = [] := by
  rcases rxRawPacket_cases run with ⟨rfl, rfl, _⟩ | ⟨cmd, n₁, own, parts, ⟨type, long⟩, command, _, rfl, _⟩
  · exact ⟨rfl, rfl⟩
  · have other : cmd ≠ .send_packet ∧ cmd ≠ .mac_update := by
      have kind_ : kind bb = some cmd := type
      constructor
      · rintro rfl
        simp [isData, long, kind_] at control
      · rintro rfl
        simp [isData, long, kind_] at control
    refine ⟨(rxCommand_control other.1 other.2 command).2, rxRawPacket_hostless rested ?_ run⟩
    intro data
    exact other.1 (Option.some.inj (type.symm.trans data))

/-- A field of a frame is found where it is in the buffer. -/
theorem slice_buffer_of_slice {frame : ByteVec} {offset : Nat} {m : MacAddr} (field : slice frame offset 6 = some m) :
    slice (buffer frame) offset 6 = some m := by
  have inside := (slice_isSome_iff (by decide)).mp (Option.isSome_iff_exists.mpr ⟨m, field⟩)
  rw [buffer, slice_append_left inside, field]

/-- What `checkArp` submits, if anything, is the MAC address of the sender. -/
theorem checkArp_cases {q q' : TxQueue} {tap : ByteVec} {mac : MacAddr} (src : TapHeader.srcMAC tap = some mac)
    (run : checkArp q tap = some q') : q' = q ∨ q' = (Submission.sendMacUpdate mac).submit q := by
  obtain ⟨type, _, run⟩ := Option.bind_eq_some_iff.mp run
  split at run
  · obtain ⟨ptype, _, run⟩ := Option.bind_eq_some_iff.mp run
    obtain ⟨oper, _, run⟩ := Option.bind_eq_some_iff.mp run
    split at run
    · obtain ⟨mac', same, run⟩ := Option.bind_eq_some_iff.mp run
      cases src.symm.trans same
      exact Or.inr (Option.some.inj run).symm
    · exact Or.inl (Option.some.inj run).symm
  · exact Or.inl (Option.some.inj run).symm

/-- The driver takes the sender of a frame for the node's own MAC address, and submits the
frame, after what `checkArp` submits, if it knows where to. -/
theorem doRead_cases {n n' : PacketTypeCodec} {frame : ByteVec} {mac : MacAddr}
    (src : TapHeader.srcMAC frame = some mac) (run : doRead n frame = some n') :
    ∃ c submissions, n.m_cache = some c ∧
      n' = { n with
        m_cache := some (c.updateMyMAC n.address mac)
        m_txQueue := List.foldl Submission.submit n.m_txQueue submissions } ∧
      ∀ s ∈ submissions, s = .sendMacUpdate mac ∨ ∃ dest, s = .sendPacket frame dest .tap_format ∧
        dest ≠ LocalAddress.null_addr ∧ ∀ m, TapHeader.destMAC frame = some m →
          dest = (c.updateMyMAC n.address mac).getLocalAddress m := by
  have atSrc : TapHeader.srcMAC (buffer frame) = some mac := slice_buffer_of_slice src
  obtain ⟨c, cache, run⟩ := Option.bind_eq_some_iff.mp run
  obtain ⟨sender, same, run⟩ := Option.bind_eq_some_iff.mp run
  cases atSrc.symm.trans same
  obtain ⟨m, dest, run⟩ := Option.bind_eq_some_iff.mp run
  dsimp only at run
  have routed : ∀ m', TapHeader.destMAC frame = some m' →
      (c.updateMyMAC n.address mac).getLocalAddress m = (c.updateMyMAC n.address mac).getLocalAddress m' := by
    intro m' field
    have atDest : TapHeader.destMAC (buffer frame) = some m' := slice_buffer_of_slice field
    cases dest.symm.trans atDest
    rfl
  split at run
  · cases Option.some.inj run
    exact ⟨c, [], cache, rfl, by rintro _ ⟨⟩⟩
  · rename_i proper
    obtain ⟨q, arp, run⟩ := Option.bind_eq_some_iff.mp run
    cases Option.some.inj run
    rcases checkArp_cases atSrc arp with rfl | rfl
    · refine ⟨c, [.sendPacket frame ((c.updateMyMAC n.address mac).getLocalAddress m) .tap_format], cache, rfl, ?_⟩
      intro s member
      rw [List.mem_singleton.mp member]
      exact Or.inr ⟨_, rfl, proper, routed⟩
    · refine ⟨c, [.sendMacUpdate mac, .sendPacket frame ((c.updateMyMAC n.address mac).getLocalAddress m) .tap_format],
        cache, rfl, ?_⟩
      intro s member
      rcases List.mem_cons.mp member with rfl | last
      · exact Or.inl rfl
      · rw [List.mem_singleton.mp last]
        exact Or.inr ⟨_, rfl, proper, routed⟩

theorem Submission.mem_submit {s : Submission} {q : TxQueue} {msg : ByteVec} (member : msg ∈ (s.submit q).m_txMsg) :
    msg ∈ q.m_txMsg ∨ q.clientAddress ≠ LocalAddress.null_addr ∧ msg = Sent.bytes ⟨q.clientAddress, s⟩ := by
  have queue := submit_queue (.make q ⟨[0, 0, 0, 0, 0, 0, 0, 0], rfl⟩ none false) s
  change (s.submit q).m_txMsg = q.m_txMsg ++ _ at queue
  rw [queue] at member
  rcases List.mem_append.mp member with old | new
  · exact Or.inl old
  · obtain ⟨sent, accepted, rfl⟩ := List.mem_map.mp new
    unfold Submission.accepted at accepted
    split at accepted
    · rename_i valid
      rw [List.mem_singleton.mp accepted]
      exact Or.inr ⟨of_decide_eq_true valid, rfl⟩
    · cases accepted

/-- A node takes submissions only while it has an address, and keeps the address. -/
theorem foldl_submit (submissions : List Submission) (q : TxQueue) :
    (List.foldl Submission.submit q submissions).m_ownAddress = q.m_ownAddress ∧
      ∀ msg ∈ (List.foldl Submission.submit q submissions).m_txMsg, msg ∈ q.m_txMsg ∨
        q.clientAddress ≠ LocalAddress.null_addr ∧ ∃ s ∈ submissions, msg = Sent.bytes ⟨q.clientAddress, s⟩ := by
  induction submissions generalizing q with
  | nil => exact ⟨rfl, fun msg member => Or.inl member⟩
  | cons s rest ih =>
    obtain ⟨own, queue⟩ := ih (s.submit q)
    have kept := (s.submits q).ownAddress
    have address : (s.submit q).clientAddress = q.clientAddress := congrArg OwnAddress.m_addr kept
    refine ⟨own.trans kept, ?_⟩
    intro msg member
    rcases queue msg member with before | ⟨proper, s', later, rfl⟩
    · rcases Submission.mem_submit before with old | ⟨proper, rfl⟩
      · exact Or.inl old
      · exact Or.inr ⟨proper, s, List.mem_cons_self, rfl⟩
    · rw [address] at proper ⊢
      exact Or.inr ⟨proper, s', List.mem_cons_of_mem _ later, rfl⟩

/-! What is true of frames, caches and nodes -/

section Definitions

variable (cfg : Config) (ns : List PacketTypeCodec) (macs : Nat → MacAddr)

/-- A frame for the MAC address of a static node is sent to the address of the node. -/
def Routed (frame : ByteVec) (dest : LocalAddress) : Prop :=
  ∀ i n, ns[i]? = some n → n.dynamic = false → TapHeader.destMAC frame = some (macs i) → dest = n.address

/-- The packet has come from a driver that has read a frame of its own device. -/
inductive Genuine (read : List (Nat × ByteVec)) : ByteVec → Prop
  | frame {i src data dest} : Sender cfg ns i src → (i, data) ∈ read → TapHeader.srcMAC data = some (macs i) →
      Routed ns macs data dest → Genuine read (Sent.bytes ⟨src, .sendPacket data dest .tap_format⟩)
  | update {i src} : Sender cfg ns i src → Genuine read (Sent.bytes ⟨src, .sendMacUpdate (macs i)⟩)

/-- Each entry ties the MAC address of a node to an address that it can have. -/
structure Truthful (i : Nat) (c : AddressCache) : Prop where
  entries : ∀ e ∈ c.m_table, ∃ j, e.2 = macs j ∧ Sender cfg ns j e.1
  own : c.m_myLocalAddr ≠ LocalAddress.null_addr → c.m_myMac = macs i ∧ Sender cfg ns i c.m_myLocalAddr

/-- The node at a place. -/
structure Honest (read : List (Nat × ByteVec)) (i : Nat) (n : PacketTypeCodec) : Prop where
  rested : n.m_rxMsg = []
  cache : ∃ c, n.m_cache = some c ∧ Truthful cfg ns macs i c
  queue : ∀ msg ∈ n.m_txQueue.m_txMsg, Genuine cfg ns macs read msg

end Definitions

/-- How a network of Ethernet devices is put together. No two devices have the same MAC
address. -/
structure EtherSetup (cfg : Config) (uninitialised : Nat → UniqueId) (ns : List PacketTypeCodec)
    (macs : Nat → MacAddr) : Prop where
  bus : Bus.Setup cfg uninitialised ns
  tap : ∀ n ∈ ns, TapMode n
  apart : Set.InjOn macs (Set.Iio ns.length)
  unicast : ∀ i, macs i ≠ AddressCache.broadcastMac
  listening : ∀ n ∈ ns, n.address ≠ LocalAddress.broadcast
  range : LocalAddress.broadcast ∉ cfg.dynamicAddresses.map toLocalAddress

section Facts

variable {cfg : Config} {uninitialised : Nat → UniqueId} {ns : List PacketTypeCodec} {macs : Nat → MacAddr}
  {read : List (Nat × ByteVec)} {i j : Nat}

theorem Genuine.mono {read' : List (Nat × ByteVec)} {bb : ByteVec} (genuine : Genuine cfg ns macs read bb)
    (more : read ⊆ read') : Genuine cfg ns macs read' bb := by
  cases genuine with
  | frame sender known src routed => exact .frame sender (more known) src routed
  | update sender => exact .update sender

namespace Truthful

variable {c : AddressCache}

theorem setAddress (truthful : Truthful cfg ns macs i c) {l : LocalAddress} (sender : Sender cfg ns j l) :
    Truthful cfg ns macs i (c.setAddress l (macs j)) := by
  by_cases all : l = LocalAddress.broadcast
  · rw [AddressCache.setAddress, if_pos all]
    exact truthful
  · rw [AddressCache.setAddress_eq all]
    refine ⟨?_, truthful.own⟩
    intro e member
    rcases Association.mem_assign member with rfl | old
    · exact ⟨j, rfl, sender⟩
    · exact truthful.entries e old

theorem updateMyMAC (truthful : Truthful cfg ns macs i c) {l : LocalAddress}
    (sender : l ≠ LocalAddress.null_addr → Sender cfg ns i l) : Truthful cfg ns macs i (c.updateMyMAC l (macs i)) := by
  unfold AddressCache.updateMyMAC
  split
  · exact truthful
  · exact ⟨truthful.entries, fun proper => ⟨rfl, sender proper⟩⟩

/-- The MAC address of a static node leads to it, or nowhere. -/
theorem getLocalAddress (truthful : Truthful cfg ns macs i c) (apart : Set.InjOn macs (Set.Iio ns.length))
    (unicast : macs j ≠ AddressCache.broadcastMac) {n : PacketTypeCodec} (here : ns[j]? = some n)
    (static : n.dynamic = false) :
    c.getLocalAddress (macs j) = n.address ∨ c.getLocalAddress (macs j) = LocalAddress.null_addr := by
  have inside : j < ns.length := (List.getElem?_eq_some_iff.mp here).1
  unfold AddressCache.getLocalAddress
  rw [if_neg unicast]
  split
  · rename_i mine
    obtain ⟨mac, sender⟩ := truthful.own mine.1
    cases apart sender.inside inside (mac.symm.trans mine.2)
    exact Or.inl (sender.eq_address here static)
  · split
    · exact Or.inr rfl
    · rename_i e found
      obtain ⟨k, mac, sender⟩ := truthful.entries e (List.mem_of_find?_eq_some found)
      have same : macs j = e.2 := by simpa using List.find?_some found
      cases apart inside sender.inside (same.trans mac)
      exact Or.inl (sender.eq_address here static)

end Truthful

/-- The device of a node has a frame for it. -/
theorem Honest.doRead (setup : EtherSetup cfg uninitialised ns macs) {n n' : PacketTypeCodec}
    (honest : Honest cfg ns macs read i n) (sender : n.address ≠ LocalAddress.null_addr → Sender cfg ns i n.address)
    {frame : ByteVec} (src : TapHeader.srcMAC frame = some (macs i)) (run : TapProtocol.doRead n frame = some n') :
    Honest cfg ns macs (read ++ [(i, frame)]) i n' ∧ Bus.face n' = Bus.face n ∧ n'.m_master = n.m_master := by
  obtain ⟨c, submissions, cache, rfl, submitted⟩ := doRead_cases src run
  obtain ⟨c', here, truthful⟩ := honest.cache
  cases cache.symm.trans here
  obtain ⟨own, queue⟩ := foldl_submit submissions n.m_txQueue
  have knows := truthful.updateMyMAC sender
  refine ⟨⟨honest.rested, ⟨_, rfl, knows⟩, ?_⟩, ?_, rfl⟩
  · intro msg member
    rcases queue msg member with old | ⟨proper, s, asked, rfl⟩
    · exact (honest.queue msg old).mono (List.subset_append_left _ _)
    · rcases submitted s asked with rfl | ⟨dest, rfl, found, routed⟩
      · exact .update (sender proper)
      · refine .frame (sender proper) (List.mem_append_right _ (List.mem_singleton_self _)) src ?_
        intro j nⱼ there static field
        rw [routed _ field] at found ⊢
        exact (knows.getLocalAddress setup.apart (setup.unicast j) there static).resolve_right found
  · simp only [Bus.face, Bus.identity, address, dynamic, TxQueue.clientAddress, own]

theorem Genuine.isData {bb : ByteVec} (genuine : Genuine cfg ns macs read bb) : isData bb = true := by
  cases genuine with
  | frame => exact isData_sendPacket _ _
  | update => exact isData_macUpdate _

theorem Genuine.flows {bb : ByteVec} (genuine : Genuine cfg ns macs read bb) : Client.isData bb = true := by
  cases genuine with
  | frame => exact isData_bytes _
  | update => exact isData_bytes _

theorem EtherSetup.ne_broadcast (setup : EtherSetup cfg uninitialised ns macs) {a : LocalAddress}
    (sender : Sender cfg ns i a) : a ≠ LocalAddress.broadcast := by
  obtain ⟨n, here, fixed, given⟩ := sender
  by_cases dynamic : n.dynamic = true
  · rintro rfl
    exact setup.range (given dynamic)
  · rw [fixed (Bool.eq_false_iff.mpr dynamic)]
    exact setup.listening n (List.mem_of_getElem? here)

theorem packetReceived_written {cache cache' : Option AddressCache} {writeLen : Int} {data written : ByteVec}
    {src dest : LocalAddress} (run : packetReceived cache writeLen data src dest = some (cache', .written written)) :
    written = data := by
  unfold packetReceived at run
  split at run
  · cases Option.some.inj run
  · obtain ⟨c, _, run⟩ := Option.bind_eq_some_iff.mp run
    split at run
    · cases Option.some.inj run
    · split at run
      · cases Option.some.inj run
        rfl
      · cases Option.some.inj run

/-- A frame may be written to the device at a place: it was read from a device, and if its
MAC address is that of a static node, this is the place. -/
def Destined (ns : List PacketTypeCodec) (macs : Nat → MacAddr) (read : List (Nat × ByteVec)) (i : Nat)
    (data : ByteVec) : Prop :=
  (∃ j, (j, data) ∈ read) ∧
    ∀ k n, ns[k]? = some n → n.dynamic = false → TapHeader.destMAC data = some (macs k) → i = k

namespace Honest

variable {n n₁ n' : PacketTypeCodec} {bb : ByteVec} {stack : ChannelType × Crc32} {effects : List Effect}
  {writeLen : Int} {outcomes : List Outcome}

/-- A frame that another node, or this one, has sent. -/
theorem hearFrame (setup : EtherSetup cfg uninitialised ns macs) (honest : Honest cfg ns macs read i n)
    (own : n.address ≠ LocalAddress.null_addr → Sender cfg ns i n.address) {src dest : LocalAddress}
    {data : ByteVec} (sender : Sender cfg ns j src) (known : (j, data) ∈ read)
    (mac : TapHeader.srcMAC data = some (macs j)) (routed : Routed ns macs data dest)
    (run : TapHostDriver.rxRawPacket n (packet.SendPacket.fromHeader ⟨.tap_format, dest, src⟩ ++ data) stack writeLen =
      some (n', outcomes)) :
    Honest cfg ns macs read i n' ∧ n' = { n with m_cache := n'.m_cache } ∧
      ∀ written, .written written ∈ outcomes → Destined ns macs read i written := by
  rcases TapHostDriver.rxRawPacket_frame honest.rested run with ⟨rfl, rfl⟩ |
    ⟨accepted, m_cache, outcome, received, rfl, rfl⟩
  · exact ⟨honest, rfl, by rintro _ ⟨⟩⟩
  · refine ⟨⟨honest.rested, ?_, honest.queue⟩, rfl, ?_⟩
    · obtain ⟨c, cache, truthful⟩ := honest.cache
      rcases packetReceived_cases received with ⟨same, _⟩ | ⟨c', m, cache', _, _, field, learned⟩
      · exact ⟨c, same.trans cache, truthful⟩
      · cases cache.symm.trans cache'
        cases mac.symm.trans field
        exact ⟨_, learned, truthful.setAddress sender⟩
    · intro written member
      rw [← List.mem_singleton.mp member] at received
      rw [packetReceived_written received]
      refine ⟨⟨j, known⟩, ?_⟩
      intro k nₖ there static field
      have goal := routed k nₖ there static field
      have here : n.address = nₖ.address ∧ n.address ≠ LocalAddress.null_addr := by
        rcases of_decide_eq_true accepted with ⟨same, proper⟩ | all | all
        · exact ⟨same.symm.trans goal, proper⟩
        · refine absurd all (setup.ne_broadcast (own ?_))
          rw [all]
          decide
        · exact absurd (goal.symm.trans all) (setup.listening nₖ (List.mem_of_getElem? there))
      have mine := own here.2
      rw [here.1] at mine
      exact mine.eq_place setup.bus there static

/-- What a node sends and what it keeps was in its queue. -/
theorem flow (honest : Honest cfg ns macs read i n) (run : n.rxRawPacket bb stack = some (n₁, effects)) :
    (∀ msg ∈ n₁.m_txQueue.m_txMsg, Genuine cfg ns macs read msg) ∧
      ∀ x ∈ sentBy effects, isData x = true → Genuine cfg ns macs read x := by
  have flow := (rxRawPacket_flow (fun msg member => (honest.queue msg member).flows) run).1
  refine ⟨?_, ?_⟩
  · intro msg member
    refine honest.queue msg ?_
    rw [flow]
    exact List.mem_append_right _ member
  · intro x sent data
    refine honest.queue x ?_
    rw [flow]
    refine List.mem_append_left _ (List.mem_filter.mpr ⟨sent, ?_⟩)
    exact decide_eq_true (of_decide_eq_true data).2

/-- Whatever a node hears, data or not. -/
theorem hear (setup : EtherSetup cfg uninitialised ns macs) (honest : Honest cfg ns macs read i n)
    (own : n.address ≠ LocalAddress.null_addr → Sender cfg ns i n.address)
    (genuine : isData bb = true → Genuine cfg ns macs read bb) (run : n.rxRawPacket bb stack = some (n₁, effects))
    (host : effects.foldlM (TapHostDriver.hostEffect writeLen) (n₁, []) = some (n', outcomes)) :
    Honest cfg ns macs read i n' ∧ n' = { n₁ with m_cache := n'.m_cache } ∧
      ∀ written, .written written ∈ outcomes → Destined ns macs read i written := by
  have whole : TapHostDriver.rxRawPacket n bb stack writeLen = some (n', outcomes) := by
    rw [TapHostDriver.rxRawPacket, run]
    exact host
  have quiet : effects.filter Station.isHostCall = [] → n' = n₁ ∧ outcomes = [] := by
    intro none
    rw [foldlM_hostEffect, none] at host
    cases Option.some.inj host
    exact ⟨rfl, rfl⟩
  by_cases data : isData bb = true
  · cases genuine data with
    | @frame j src payload dest sender known mac routed =>
      obtain ⟨effects', received, _⟩ :=
        Station.rxRawPacket_sendPacket honest.rested ⟨.tap_format, dest, src⟩ payload stack
      have same : n₁ = n := congrArg Prod.fst (Option.some.inj (run.symm.trans received))
      rw [same]
      exact honest.hearFrame setup own sender known mac routed whole
    | @update j src sender =>
      obtain ⟨c, cache, truthful⟩ := honest.cache
      obtain ⟨long, hint, mac⟩ := Station.macUpdate_fields ⟨LocalAddress.broadcast, src, src, macs j⟩
      obtain ⟨effects', received, none⟩ :=
        Station.rxRawPacket_macUpdate honest.rested cache rfl long hint mac stack
      cases received.symm.trans run
      obtain ⟨rfl, rfl⟩ := quiet none
      exact ⟨⟨honest.rested, ⟨_, rfl, truthful.setAddress sender⟩, honest.queue⟩, rfl, by rintro _ ⟨⟩⟩
  · have control : isData bb = false := Bool.eq_false_iff.mpr data
    obtain ⟨cache, none⟩ := rxRawPacket_control honest.rested control run
    obtain ⟨rfl, rfl⟩ := quiet none
    exact ⟨⟨Station.rxRawPacket_rxMsg honest.rested run, cache ▸ honest.cache, (honest.flow run).1⟩, rfl,
      by rintro _ ⟨⟩⟩

end Honest

end Facts

namespace Master

variable {m m' : Master}

/-- A turn of the master changes nothing about its node but the queue. -/
theorem turn_node {rxInProgress : Bool} {ev : Event} (taken : TurnCase m rxInProgress ev m') :
    ∃ q, m'.m_node = { m.m_node with m_txQueue := q } := by
  cases taken with
  | ownSends _ _ _ _ =>
    rw [goto_node]
    exact ⟨_, rfl⟩
  | _ => exact ⟨m.m_node.m_txQueue, by simp [startTimer]⟩

end Master

/-! The network -/

/-- The nodes of a bus, each of them with an Ethernet device. Beside the bus stand the frames
that were read from the devices and those that were written to them, with the places. -/
structure EtherNet where
  m_bus : LossyBus
  read : List (Nat × ByteVec)
  written : List (Nat × ByteVec)

namespace EtherNet

open LossyBus

def writes (i : Nat) (outcomes : List Outcome) : List (Nat × ByteVec) :=
  outcomes.filterMap fun
    | .written data => some (i, data)
    | _ => none

inductive Move
  | bus (move : LossyBus.Move)
  | receive (now : ℚ) (bb : ByteVec) (stack : ChannelType × Crc32) (writeLen : Int)
  | hear (i : Nat) (bb : ByteVec) (stack : ChannelType × Crc32) (writeLen : Int)
  | doRead (i : Nat) (frame : ByteVec)

/-- No packet is heard, and no host submits anything. -/
def Quiet : LossyBus.Move → Prop
  | .master l => Bus.Local l ∧ Submission.ofLabel l = none
  | .lose _ _ => True
  | _ => False

/-- The steps of the bus, with the drivers that are called when a packet is heard and that
read a frame from their device. A device sends with its own MAC address only. -/
inductive Step (macs : Nat → MacAddr) : EtherNet → Move → EtherNet → Prop
  | bus {s : EtherNet} {move b} : Quiet move → LossyBus.Step s.m_bus move b →
      Step macs s (.bus move) { s with m_bus := b }
  | receive {s : EtherNet} {now bb stack writeLen master node outcomes} : (0, bb) ∈ s.m_bus.m_copies →
      s.m_bus.m_master.Step (.stimulus now (.rxRawPacket bb stack)) master →
      master.m_out.foldlM (TapHostDriver.hostEffect writeLen) (master.m_node, []) = some (node, outcomes) →
      Step macs s (.receive now bb stack writeLen) { s with
        m_bus := { s.m_bus with
          m_master := { master with m_node := node }
          m_copies := s.m_bus.m_copies.erase (0, bb) ++ broadcast s.m_bus.nodes.length (sentBy master.m_out) }
        written := s.written ++ writes 0 outcomes }
  | hear {s : EtherNet} {i bb stack writeLen n n₁ n' effects outcomes} : s.m_bus.m_clients[i]? = some n →
      (i + 1, bb) ∈ s.m_bus.m_copies → n.rxRawPacket bb stack = some (n₁, effects) →
      effects.foldlM (TapHostDriver.hostEffect writeLen) (n₁, []) = some (n', outcomes) →
      Step macs s (.hear i bb stack writeLen) { s with
        m_bus := { s.m_bus with
          m_clients := s.m_bus.m_clients.set i n'
          m_copies := s.m_bus.m_copies.erase (i + 1, bb) ++ broadcast s.m_bus.nodes.length (sentBy effects) }
        written := s.written ++ writes (i + 1) outcomes }
  | doRead {s : EtherNet} {i frame n n'} : s.m_bus.nodes[i]? = some n →
      (i = 0 → s.m_bus.m_master.m_fsm.m_eventQueue = []) → TapHeader.srcMAC frame = some (macs i) →
      TapProtocol.doRead n frame = some n' →
      Step macs s (.doRead i frame) ⟨s.m_bus.setNode n' i, s.read ++ [(i, frame)], s.written⟩

theorem mem_writes {i : Nat} {outcomes : List Outcome} {e : Nat × ByteVec} (member : e ∈ writes i outcomes) :
    e.1 = i ∧ .written e.2 ∈ outcomes := by
  obtain ⟨outcome, inside, same⟩ := List.mem_filterMap.mp member
  cases outcome with
  | written data =>
    cases same
    exact ⟨rfl, inside⟩
  | dropped => cases same
  | unexpectedWriteLength => cases same

/-- What holds of the network at all times. -/
structure Switched (cfg : Config) (uninitialised : Nat → UniqueId) (ns : List PacketTypeCodec) (macs : Nat → MacAddr)
    (s : EtherNet) : Prop where
  ranged : Ranged cfg uninitialised ns s.m_bus
  nodes : ∀ {i n}, s.m_bus.nodes[i]? = some n → Honest cfg ns macs s.read i n
  copies : ∀ c ∈ s.m_bus.m_copies, isData c.2 = true → Genuine cfg ns macs s.read c.2
  written : ∀ e ∈ s.written, Destined ns macs s.read e.1 e.2

namespace Switched

variable {cfg : Config} {uninitialised : Nat → UniqueId} {ns : List PacketTypeCodec} {macs : Nat → MacAddr}
  {s s' : EtherNet}

theorem own (switched : Switched cfg uninitialised ns macs s) {i : Nat} {n : PacketTypeCodec}
    (here : s.m_bus.nodes[i]? = some n) : n.address ≠ LocalAddress.null_addr → Sender cfg ns i n.address :=
  fun proper => switched.ranged.sender here proper

/-- One node takes part in a step, and no frame is read. -/
theorem of_set (switched : Switched cfg uninitialised ns macs s) (ranged : Ranged cfg uninitialised ns s'.m_bus)
    (read : s'.read = s.read) {i : Nat} {n n' : PacketTypeCodec} (present : s.m_bus.nodes[i]? = some n)
    (nodes : s'.m_bus.nodes = s.m_bus.nodes.set i n') (honest : Honest cfg ns macs s.read i n')
    (copies : ∀ c ∈ s'.m_bus.m_copies, c ∈ s.m_bus.m_copies ∨ (isData c.2 = true → Genuine cfg ns macs s.read c.2))
    (written : ∀ e ∈ s'.written, e ∈ s.written ∨ Destined ns macs s.read e.1 e.2) :
    Switched cfg uninitialised ns macs s' := by
  refine ⟨ranged, ?_, ?_, ?_⟩
  · intro j m here
    rw [read]
    rw [nodes] at here
    by_cases at_ : i = j
    · subst at_
      rw [List.getElem?_set_self (List.getElem?_eq_some_iff.mp present).1] at here
      cases here
      exact honest
    · rw [List.getElem?_set_ne at_] at here
      exact switched.nodes here
  · intro c member data
    rw [read]
    rcases copies c member with old | new
    · exact switched.copies c old data
    · exact new data
  · intro e member
    rw [read]
    rcases written e member with old | new
    · exact switched.written e old
    · exact new

/-- What a driver changes about its node, the bus does not see. -/
theorem setNode_cache {b : LossyBus} {i : Nat} {n n' : PacketTypeCodec} (ranged : Ranged cfg uninitialised ns b)
    (here : b.nodes[i]? = some n) (same : n' = { n with m_cache := n'.m_cache }) :
    Ranged cfg uninitialised ns (b.setNode n' i) := by
  have queue := ranged.kept.dataOnly n (List.mem_of_getElem? here)
  rw [same]
  exact ranged.setNode here rfl rfl queue

/-- A node has heard a packet, and its driver what it is to be told. -/
theorem heard (switched : Switched cfg uninitialised ns macs s) (setup : EtherSetup cfg uninitialised ns macs)
    {i : Nat} {bb : ByteVec} {stack : ChannelType × Crc32} {writeLen : Int} {n n₁ n' : PacketTypeCodec}
    {effects : List Effect} {outcomes : List Outcome} (present : s.m_bus.nodes[i]? = some n)
    (copy : (i, bb) ∈ s.m_bus.m_copies) (run : n.rxRawPacket bb stack = some (n₁, effects))
    (host : effects.foldlM (TapHostDriver.hostEffect writeLen) (n₁, []) = some (n', outcomes))
    (ranged : Ranged cfg uninitialised ns s'.m_bus) (read : s'.read = s.read)
    (nodes : s'.m_bus.nodes = s.m_bus.nodes.set i n')
    (copies : s'.m_bus.m_copies =
      s.m_bus.m_copies.erase (i, bb) ++ broadcast s.m_bus.nodes.length (sentBy effects))
    (written : s'.written = s.written ++ writes i outcomes) : Switched cfg uninitialised ns macs s' := by
  have honest := switched.nodes present
  obtain ⟨honest', _, destined⟩ := honest.hear setup (switched.own present) (switched.copies _ copy) run host
  refine switched.of_set ranged read present nodes honest' ?_ ?_
  · intro c member
    rw [copies] at member
    exact (mem_copies member).imp_right fun sent data => (honest.flow run).2 c.2 sent data
  · intro e member
    rw [written] at member
    refine (List.mem_append.mp member).imp_right fun new => ?_
    obtain ⟨at_, inside⟩ := mem_writes new
    rw [at_]
    exact destined e.2 inside

/-- The master, or the bus, does something by itself. -/
theorem quiet (switched : Switched cfg uninitialised ns macs s) (setup : EtherSetup cfg uninitialised ns macs)
    (distinct : Distinct (ns.map part)) {move : LossyBus.Move} {b : LossyBus} (quiet : Quiet move)
    (step : LossyBus.Step s.m_bus move b) : Switched cfg uninitialised ns macs { s with m_bus := b } := by
  have ranged := switched.ranged.step setup.bus distinct step
  have present : s.m_bus.nodes[0]? = some s.m_bus.m_master.m_node := rfl
  have honest := switched.nodes present
  cases step with
  | receive => exact absurd quiet.1 id
  | @master l master _ moved =>
    rcases switched.ranged.kept.synced.step_cases moved with ⟨_, _, rfl, _, taken⟩ | ⟨_, _, rfl, _, _, _, taken⟩
    · have flow := (Passes.of_turn (fun msg member => (honest.queue msg member).flows) taken).flow
      obtain ⟨q, node⟩ := Master.turn_node taken
      refine switched.of_set ranged rfl present rfl ?_ ?_ fun e member => Or.inl member
      · refine ⟨?_, ?_, ?_⟩
        · rw [node]
          exact honest.rested
        · rw [node]
          exact honest.cache
        · intro msg member
          refine honest.queue msg ?_
          rw [flow]
          exact List.mem_append_right _ member
      · intro c member
        refine (List.mem_append.mp member).imp_right fun new data => honest.queue c.2 ?_
        rw [flow]
        refine List.mem_append_left _ (List.mem_filter.mpr ⟨mem_broadcast new, ?_⟩)
        exact decide_eq_true (of_decide_eq_true data).2
    · have node := Master.stimulus_node quiet.1 quiet.2 taken
      obtain ⟨_, _, _, silent⟩ := Bus.stimulus_frame quiet.1 taken
        (switched.ranged.kept.dataOnly _ List.mem_cons_self)
      refine switched.of_set ranged rfl present rfl (node ▸ honest) ?_ fun e member => Or.inl member
      intro c member
      rw [silent] at member
      exact Or.inl (by simpa [broadcast] using member)
  | hear => cases quiet
  | lose =>
    refine switched.of_set ranged rfl present rfl honest ?_ fun e member => Or.inl member
    intro c member
    exact Or.inl (List.mem_of_mem_erase member)
  | submit => cases quiet

theorem step (switched : Switched cfg uninitialised ns macs s) (setup : EtherSetup cfg uninitialised ns macs)
    (distinct : Distinct (ns.map part)) {move : Move} (step : Step macs s move s') :
    Switched cfg uninitialised ns macs s' := by
  cases step with
  | bus quiet moved => exact switched.quiet setup distinct quiet moved
  | @receive now bb stack writeLen master node outcomes copy received host =>
    have ranged := switched.ranged.step setup.bus distinct (.receive copy received)
    have synced := switched.ranged.kept.synced
    rcases synced.step_cases received with ⟨_, _, turn, _⟩ | ⟨_, _, label, _, _, _, taken⟩
    · cases turn
    · cases label
      cases taken with
      | @packet _ _ n₁ effects run =>
        have present : s.m_bus.nodes[0]? = some s.m_bus.m_master.m_node := rfl
        have host' : effects.foldlM (TapHostDriver.hostEffect writeLen) (n₁, []) = some (node, outcomes) := by
          rw [foldlM_hostEffect] at host ⊢
          rw [← filter_isHostCall_outward effects]
          exact host
        obtain ⟨_, same, _⟩ := (switched.nodes present).hear setup (switched.own present)
          (switched.copies _ copy) run host'
        have ranged' := setNode_cache (i := 0) ranged rfl same
        refine switched.heard setup present copy run host' ranged' rfl rfl ?_ rfl
        dsimp only
        rw [sentBy_outward]
  | @hear i bb stack writeLen n n₁ n' effects outcomes client copy run host =>
    have present : s.m_bus.nodes[i + 1]? = some n := client
    have ranged := switched.ranged.step setup.bus distinct (.hear client copy ⟨stack, effects, run, rfl⟩)
    obtain ⟨_, same, _⟩ := (switched.nodes present).hear setup (switched.own present) (switched.copies _ copy) run host
    have ranged' := setNode_cache (i := i + 1) ranged
      (List.getElem?_set_self (List.getElem?_eq_some_iff.mp client).1) same
    simp only [setNode, List.set_set] at ranged'
    exact switched.heard setup present copy run host ranged' rfl rfl rfl rfl
  | @doRead i frame n n' here _ src run =>
    obtain ⟨honest, face, registered⟩ := (switched.nodes here).doRead setup (switched.own here) src run
    have more : s.read ⊆ s.read ++ [(i, frame)] := List.subset_append_left _ _
    have dataOnly : DataOnly n'.m_txQueue := fun msg member => (honest.queue msg member).isData
    refine ⟨switched.ranged.setNode here face registered dataOnly, ?_, ?_, ?_⟩
    · intro j m there
      rw [setNode_nodes] at there
      by_cases at_ : i = j
      · subst at_
        rw [List.getElem?_set_self (List.getElem?_eq_some_iff.mp here).1] at there
        cases there
        exact honest
      · rw [List.getElem?_set_ne at_] at there
        obtain ⟨rested, cache, queue⟩ := switched.nodes there
        exact ⟨rested, cache, fun msg member => (queue msg member).mono more⟩
    · intro c member data
      rw [setNode_copies] at member
      exact (switched.copies c member data).mono more
    · intro e member
      obtain ⟨⟨k, known⟩, only⟩ := switched.written e member
      exact ⟨⟨k, more known⟩, only⟩

theorem start {own : PacketTypeCodec} {clients : List PacketTypeCodec}
    (setup : EtherSetup cfg uninitialised (own :: clients) macs) (now : ℚ) :
    Switched cfg uninitialised (own :: clients) macs
      ⟨⟨Master.started cfg own uninitialised now, clients, []⟩, [], []⟩ := by
  refine ⟨.start setup.bus now, ?_, by rintro _ ⟨⟩, by rintro _ ⟨⟩⟩
  have fresh : ∀ {i n}, n ∈ own :: clients → Honest cfg (own :: clients) macs [] i n := by
    intro i n member
    obtain ⟨⟨m_myMac, cache⟩, _, rested⟩ := setup.tap n member
    refine ⟨rested, ⟨_, cache, by rintro _ ⟨⟩, fun proper => absurd rfl proper⟩, ?_⟩
    intro msg waiting
    rw [(setup.bus.fresh n member).1] at waiting
    cases waiting
  intro i n here
  rcases List.mem_cons.mp (List.mem_of_getElem? here) with rfl | client
  · obtain ⟨rested, cache, queue⟩ := fresh (i := i) (List.mem_cons_self (a := own) (l := clients))
    exact ⟨rested, cache, queue⟩
  · exact fresh (List.mem_cons_of_mem _ client)

end Switched

/-! Runs that can be computed -/

/-- Some of the steps as a function. -/
def exec (macs : Nat → MacAddr) (s : EtherNet) : Move → Option EtherNet
  | .bus (.master (.turn rxInProgress)) =>
    (s.m_bus.exec (.master (.turn rxInProgress))).map fun b => { s with m_bus := b }
  | .receive now bb stack writeLen =>
    if s.m_bus.m_copies.contains (0, bb) then do
      let master ← s.m_bus.m_master.exec (.stimulus now (.rxRawPacket bb stack))
      let (node, outcomes) ← master.m_out.foldlM (TapHostDriver.hostEffect writeLen) (master.m_node, [])
      some { s with
        m_bus := { s.m_bus with
          m_master := { master with m_node := node }
          m_copies := s.m_bus.m_copies.erase (0, bb) ++ broadcast s.m_bus.nodes.length (sentBy master.m_out) }
        written := s.written ++ writes 0 outcomes }
    else none
  | .hear i bb stack writeLen =>
    if s.m_bus.m_copies.contains (i + 1, bb) then do
      let n ← s.m_bus.m_clients[i]?
      let (n₁, effects) ← n.rxRawPacket bb stack
      let (n', outcomes) ← effects.foldlM (TapHostDriver.hostEffect writeLen) (n₁, [])
      some { s with
        m_bus := { s.m_bus with
          m_clients := s.m_bus.m_clients.set i n'
          m_copies := s.m_bus.m_copies.erase (i + 1, bb) ++ broadcast s.m_bus.nodes.length (sentBy effects) }
        written := s.written ++ writes (i + 1) outcomes }
    else none
  | .doRead (i + 1) frame =>
    if TapHeader.srcMAC frame = some (macs (i + 1)) then do
      let n ← s.m_bus.nodes[i + 1]?
      let n' ← TapProtocol.doRead n frame
      some ⟨s.m_bus.setNode n' (i + 1), s.read ++ [(i + 1, frame)], s.written⟩
    else none
  | _ => none

theorem exec_step {macs : Nat → MacAddr} {s s' : EtherNet} {move : Move} (run : s.exec macs move = some s') :
    Step macs s move s' := by
  unfold exec at run
  split at run
  · obtain ⟨b, moved, rfl⟩ := Option.map_eq_some_iff.mp run
    exact .bus ⟨trivial, rfl⟩ (LossyBus.exec_step moved)
  · split at run
    · rename_i copy
      obtain ⟨master, received, run⟩ := Option.bind_eq_some_iff.mp run
      obtain ⟨⟨node, outcomes⟩, host, run⟩ := Option.bind_eq_some_iff.mp run
      cases Option.some.inj run
      exact .receive (List.contains_iff_mem.mp copy) (Master.exec_step received) host
    · cases run
  · split at run
    · rename_i copy
      obtain ⟨n, client, run⟩ := Option.bind_eq_some_iff.mp run
      obtain ⟨⟨n₁, effects⟩, received, run⟩ := Option.bind_eq_some_iff.mp run
      obtain ⟨⟨n', outcomes⟩, host, run⟩ := Option.bind_eq_some_iff.mp run
      cases Option.some.inj run
      exact .hear client (List.contains_iff_mem.mp copy) received host
    · cases run
  · split at run
    · rename_i src
      obtain ⟨n, here, run⟩ := Option.bind_eq_some_iff.mp run
      obtain ⟨n', read, run⟩ := Option.bind_eq_some_iff.mp run
      cases Option.some.inj run
      exact .doRead here (by rintro ⟨⟩) src read
    · cases run
  · cases run

end EtherNet

end SerialNet
