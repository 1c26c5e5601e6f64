import SerialNet.Client
import SerialNet.Drivers.TapProtocol
import SerialNet.Lib.Association
import SerialNet.Lib.Reach

namespace SerialNet

open Association

/-! The cache as an association of local addresses with MAC addresses -/

namespace AddressCache

variable {c : AddressCache} {l : LocalAddress} {m : MacAddr}

/-- The node takes the MAC address for its own. -/
def Own (c : AddressCache) (m : MacAddr) : Prop := c.m_myLocalAddr ≠ LocalAddress.null_addr ∧ c.m_myMac = m

/-- The entries that are found before that of an address. -/
def earlier (c : AddressCache) (l : LocalAddress) : List (LocalAddress × MacAddr) := before c.m_table l

theorem setAddress_eq (proper : l ≠ LocalAddress.broadcast) (m : MacAddr) :
    c.setAddress l m = { c with m_table := assign c.m_table l m } := by
  rw [setAddress, if_neg proper, assign]
  cases c.m_table.findIdx? (fun el => l = el.1) with
  | none => rfl
  | some i => rfl

theorem getLocalAddress_eq_iff (unicast : m ≠ broadcastMac) (other : ¬ c.Own m) (proper : l ≠ LocalAddress.null_addr) :
    c.getLocalAddress m = l ↔ keyOf c.m_table m = some l := by
  have notOwn : ¬ (c.m_myLocalAddr ≠ LocalAddress.null_addr ∧ c.m_myMac = m) := other
  rw [getLocalAddress, if_neg unicast, if_neg notOwn, keyOf]
  cases c.m_table.find? (fun el => m = el.2) with
  | none => simpa using proper.symm
  | some el => simp

theorem getMac_known (proper : l ≠ LocalAddress.broadcast) (known : (c.getMac l).1 = true) :
    c.m_table.find? (fun el => l = el.1) = some (l, (c.getMac l).2) := by
  unfold getMac at known ⊢
  rw [if_neg proper] at known ⊢
  split at known
  · rename_i el found
    rw [found]
    have key : l = el.1 := by simpa using List.find?_some found
    exact congrArg some (Prod.ext key.symm rfl)
  · cases known

/-- Every address has at most one entry. -/
def Keyed (c : AddressCache) : Prop := (c.m_table.map Prod.fst).Nodup

theorem Keyed.setAddress (keyed : c.Keyed) (l : LocalAddress) (m : MacAddr) : (c.setAddress l m).Keyed := by
  by_cases all : l = LocalAddress.broadcast
  · rw [AddressCache.setAddress, if_pos all]
    exact keyed
  · rw [setAddress_eq all, Keyed]
    exact nodup_assign keyed l m

theorem updateMyMAC_table (c : AddressCache) (l : LocalAddress) (m : MacAddr) :
    (c.updateMyMAC l m).m_table = c.m_table := by
  unfold updateMyMAC
  split <;> rfl

/-- A frame from another sender does not make a MAC address the node's own. -/
theorem not_own_updateMyMAC (other : ¬ c.Own m) (l : LocalAddress) {sender : MacAddr} (foreign : sender ≠ m) :
    ¬ (c.updateMyMAC l sender).Own m := by
  unfold updateMyMAC
  split
  · exact other
  · rintro ⟨_, same⟩
    exact foreign same

end AddressCache

open AddressCache TapProtocol TapHostDriver

/-! A frame is read -/

/-- The frame is handed to the transmit queue with the address as its destination. -/
def Forwards (n : PacketTypeCodec) (frame : ByteVec) (l : LocalAddress) : Prop :=
  ∃ q n', checkArp n.m_txQueue (buffer frame) = some q ∧ doRead n frame = some n' ∧
    n'.m_txQueue = q.msgHostTx_sendPacket frame l .tap_format

theorem le_length_buffer (frame : ByteVec) : 1600 ≤ (buffer frame).length := by
  rw [buffer, List.length_append, List.length_replicate, bufSize]
  omega

theorem checkArp_total (q : TxQueue) (frame : ByteVec) : ∃ q', checkArp q (buffer frame) = some q' := by
  have room := le_length_buffer frame
  obtain ⟨type, atType⟩ := PacketTypeCodec.slice_isSome (n := 2) (show 16 + 2 ≤ (buffer frame).length by omega)
  obtain ⟨ptype, atPtype⟩ := PacketTypeCodec.slice_isSome (n := 2) (show 20 + 2 ≤ (buffer frame).length by omega)
  obtain ⟨oper, atOper⟩ := PacketTypeCodec.slice_isSome (n := 2) (show 24 + 2 ≤ (buffer frame).length by omega)
  obtain ⟨mac, atMac⟩ := PacketTypeCodec.slice_isSome (n := 6) (show 10 + 6 ≤ (buffer frame).length by omega)
  simp only [checkArp, TapHeader.type, TapHeader.ptype, TapHeader.oper, TapHeader.srcMAC, atType, atPtype, atOper,
    atMac, Option.bind_eq_bind, Option.bind_some]
  split
  · split <;> exact ⟨_, rfl⟩
  · exact ⟨_, rfl⟩

theorem forwards {n : PacketTypeCodec} {c : AddressCache} (cache : n.m_cache = some c) {m : MacAddr}
    (unicast : m ≠ broadcastMac) (other : ¬ c.Own m) {l : LocalAddress} (proper : l ≠ LocalAddress.null_addr)
    (routed : c.getLocalAddress m = l) {frame : ByteVec} (dest : TapHeader.destMAC (buffer frame) = some m)
    (foreign : TapHeader.srcMAC (buffer frame) ≠ some m) : Forwards n frame l := by
  have room := le_length_buffer frame
  obtain ⟨sender, atSender⟩ := PacketTypeCodec.slice_isSome (n := 6) (show 10 + 6 ≤ (buffer frame).length by omega)
  have src : TapHeader.srcMAC (buffer frame) = some sender := atSender
  have different : sender ≠ m := by
    rintro rfl
    exact foreign src
  obtain ⟨q, arp⟩ := checkArp_total n.m_txQueue frame
  have still : (c.updateMyMAC n.m_txQueue.clientAddress sender).getLocalAddress m = l := by
    rw [getLocalAddress_eq_iff unicast (not_own_updateMyMAC other _ different) proper, updateMyMAC_table,
      ← getLocalAddress_eq_iff unicast other proper]
    exact routed
  refine ⟨q, { n with
    m_cache := some (c.updateMyMAC n.m_txQueue.clientAddress sender)
    m_txQueue := q.msgHostTx_sendPacket frame l .tap_format }, arp, ?_, rfl⟩
  simp only [doRead, cache, src, dest, arp, still, if_neg proper, Option.bind_eq_bind, Option.bind_some]

/-! A packet is received -/

/-- The sender of a frame for the host is learned exactly when it is unknown. -/
theorem packetReceived_cases {cache cache' : Option AddressCache} {writeLen : Int} {data : ByteVec}
    {src dest : LocalAddress} {outcome : Outcome}
    (run : packetReceived cache writeLen data src dest = some (cache', outcome)) :
    cache' = cache ∧ (∀ c, cache = some c → src ≠ LocalAddress.broadcast → (c.getMac src).1 = true) ∨
    ∃ c m, cache = some c ∧ src ≠ LocalAddress.broadcast ∧ (c.getMac src).1 = false ∧
      TapHeader.srcMAC data = some m ∧ cache' = some (c.setAddress src m) := by
  unfold packetReceived at run
  split at run
  · cases Option.some.inj run
    exact Or.inl ⟨rfl, by rintro _ ⟨⟩⟩
  · rename_i c
    obtain ⟨c', learned, run⟩ := Option.bind_eq_some_iff.mp run
    have after : cache' = some c' := by
      split at run
      · cases Option.some.inj run
        rfl
      · split at run <;> cases Option.some.inj run <;> rfl
    unfold learnSource at learned
    split at learned
    · rename_i unknown
      obtain ⟨m, mac, rfl⟩ := Option.map_eq_some_iff.mp learned
      exact Or.inr ⟨c, m, rfl, unknown.1, unknown.2, mac, after⟩
    · rename_i known
      cases Option.some.inj learned
      refine Or.inl ⟨after, ?_⟩
      rintro _ ⟨⟩ proper
      by_contra unknown
      exact known ⟨proper, Bool.eq_false_iff.mpr unknown⟩

/-- Only a MAC update changes the cache. -/
theorem PacketTypeCodec.rxCommand_cache {n n' : PacketTypeCodec} {cmd : MessageType} {bb : ByteVec}
    {stack : ChannelType × Crc32} {effects : List Effect} (run : n.rxCommand cmd bb stack = some (n', effects)) :
    n'.m_cache = n.m_cache ∨
      ∃ c l m, n.m_cache = some c ∧ slice bb 4 6 = some m ∧ n'.m_cache = some (c.setAddress l m) := by
  cases PacketTypeCodec.rxCommand_handled run with
  | learned cache mac => exact Or.inr ⟨_, _, _, cache, mac, rfl⟩
  | _ => exact Or.inl rfl

/-- Nothing waits for the host, and every address has at most one entry. -/
structure Learning (n : PacketTypeCodec) : Prop where
  delivered : n.m_rxMsg = []
  keyed : ∀ c, n.m_cache = some c → c.Keyed

namespace Learning

variable {n n' : PacketTypeCodec}

theorem hostEffect {writeLen : Int} {s s' : PacketTypeCodec × List Outcome} {e : Effect} (learning : Learning s.1)
    (run : TapHostDriver.hostEffect writeLen s e = some s') : Learning s'.1 := by
  unfold TapHostDriver.hostEffect at run
  split at run
  · split at run
    · obtain ⟨⟨cache', outcome⟩, received, run⟩ := Option.bind_eq_some_iff.mp run
      cases Option.some.inj run
      refine ⟨learning.delivered, ?_⟩
      intro c' here
      rcases packetReceived_cases received with ⟨same, _⟩ | ⟨c, m, cache, _, _, _, learned⟩
      · exact learning.keyed c' (same.symm.trans here)
      · cases learned.symm.trans here
        exact (learning.keyed c cache).setAddress _ m
    · cases Option.some.inj run
      exact learning
  · cases Option.some.inj run
    exact learning

theorem hostEffects {writeLen : Int} {effects : List Effect} {s s' : PacketTypeCodec × List Outcome}
    (learning : Learning s.1) (run : effects.foldlM (TapHostDriver.hostEffect writeLen) s = some s') :
    Learning s'.1 := by
  induction effects generalizing s with
  | nil =>
    cases Option.some.inj run
    exact learning
  | cons e rest ih =>
    obtain ⟨t, first, later⟩ := Option.bind_eq_some_iff.mp run
    exact ih (learning.hostEffect first) later

theorem rxRawPacket {bb : ByteVec} {stack : ChannelType × Crc32} {effects : List Effect} (learning : Learning n)
    (run : n.rxRawPacket bb stack = some (n', effects)) : Learning n' := by
  rcases PacketTypeCodec.rxRawPacket_cases run with ⟨rfl, _⟩ | ⟨_, n₁, _, _, _, command, _, rfl, _⟩
  · exact learning
  · refine ⟨rfl, ?_⟩
    intro c' here
    rcases PacketTypeCodec.rxCommand_cache command with same | ⟨c, l, m, cache, _, learned⟩
    · exact learning.keyed c' (same.symm.trans here)
    · cases learned.symm.trans here
      exact (learning.keyed c cache).setAddress l m

theorem doRead {frame : ByteVec} (learning : Learning n) (run : TapProtocol.doRead n frame = some n') :
    Learning n' := by
  obtain ⟨c, cache, run⟩ := Option.bind_eq_some_iff.mp run
  obtain ⟨sender, _, run⟩ := Option.bind_eq_some_iff.mp run
  obtain ⟨dest, _, run⟩ := Option.bind_eq_some_iff.mp run
  have keyed : (c.updateMyMAC n.m_txQueue.clientAddress sender).Keyed := by
    rw [Keyed, updateMyMAC_table]
    exact learning.keyed c cache
  dsimp only at run
  split at run
  · cases Option.some.inj run
    refine ⟨learning.delivered, ?_⟩
    rintro _ ⟨⟩
    exact keyed
  · obtain ⟨q, _, run⟩ := Option.bind_eq_some_iff.mp run
    cases Option.some.inj run
    refine ⟨learning.delivered, ?_⟩
    rintro _ ⟨⟩
    exact keyed

theorem step {input : Input} (learning : Learning n) (taken : TapHostDriver.step n input = some n') :
    Learning n' := by
  cases input with
  | rxRawPacket bb stack writeLen =>
    obtain ⟨s, run, rfl⟩ := Option.map_eq_some_iff.mp taken
    obtain ⟨⟨n₁, effects⟩, received, delivered⟩ := Option.bind_eq_some_iff.mp run
    exact (learning.rxRawPacket received).hostEffects delivered
  | doRead frame => exact learning.doRead taken

end Learning

/-! What a packet from the net teaches a node -/

/-- The driver sees the packets for the host and nothing else. -/
theorem foldlM_hostEffect (writeLen : Int) (effects : List Effect) (s : PacketTypeCodec × List Outcome) :
    effects.foldlM (hostEffect writeLen) s = (effects.filter Station.isHostCall).foldlM (hostEffect writeLen) s := by
  induction effects generalizing s with
  | nil => rfl
  | cons e rest ih =>
    cases e with
    | packetReceivedFromNet =>
      rw [List.filter_cons_of_pos rfl, List.foldlM_cons, List.foldlM_cons]
      simp only [ih]
    | _ =>
      rw [List.filter_cons_of_neg (by simp [Station.isHostCall]), List.foldlM_cons, ← ih]
      rfl

section Received

variable {n n' : PacketTypeCodec} {c : AddressCache} {outcomes : List Outcome} {stack : ChannelType × Crc32}
  {writeLen : Int} {l : LocalAddress} {m : MacAddr}

theorem rxRawPacket_macUpdate (learning : Learning n) (cache : n.m_cache = some c) {bb : ByteVec}
    (type : kind bb = some .mac_update) (long : longEnough bb = true) (hint : bb[3]? = some l)
    (mac : slice bb 4 6 = some m) (run : TapHostDriver.rxRawPacket n bb stack writeLen = some (n', outcomes)) :
    n'.m_cache = some (c.setAddress l m) := by
  obtain ⟨effects, received, quiet⟩ :=
    Station.rxRawPacket_macUpdate learning.delivered cache type long hint mac stack
  obtain ⟨_, received', delivered⟩ := Option.bind_eq_some_iff.mp run
  cases received.symm.trans received'
  dsimp only at delivered
  rw [foldlM_hostEffect, quiet] at delivered
  cases Option.some.inj delivered
  rfl

/-- A frame that was written has been through `packetReceived`. -/
theorem rxRawPacket_written (learning : Learning n) {dest : LocalAddress} {data written : ByteVec}
    (run : TapHostDriver.rxRawPacket n (packet.SendPacket.fromHeader ⟨.tap_format, dest, l⟩ ++ data) stack writeLen =
      some (n', outcomes))
    (accepted : .written written ∈ outcomes) :
    ∃ outcome, packetReceived n.m_cache writeLen data l dest = some (n'.m_cache, outcome) := by
  obtain ⟨effects, received, calls⟩ :=
    Station.rxRawPacket_sendPacket learning.delivered ⟨.tap_format, dest, l⟩ data stack
  obtain ⟨_, received', delivered⟩ := Option.bind_eq_some_iff.mp run
  cases received.symm.trans received'
  dsimp only at delivered
  rw [foldlM_hostEffect, calls, Station.expectedCalls] at delivered
  split at delivered
  · split at delivered
    · obtain ⟨s, one, rest⟩ := Option.bind_eq_some_iff.mp delivered
      cases Option.some.inj rest
      simp only [hostEffect] at one
      split at one
      · obtain ⟨⟨cache', outcome⟩, run', one⟩ := Option.bind_eq_some_iff.mp one
        cases Option.some.inj one
        exact ⟨outcome, run'⟩
      · cases Option.some.inj one
        cases accepted
    · cases Option.some.inj delivered
      cases accepted
  · cases Option.some.inj delivered
    cases accepted

end Received

/-- A node in TAP mode with its driver registered and its cache empty. -/
structure TapMode (n : PacketTypeCodec) : Prop where
  cache : ∃ m_myMac, n.m_cache = some (.initial m_myMac)
  driver : n.m_txQueue.m_rxIfTap.isSome = true
  delivered : n.m_rxMsg = []

/-- A MAC address is found under a local address, and the next frame for it that comes
from somebody else is sent there. -/
def RoutesTo (n : PacketTypeCodec) (m : MacAddr) (l : LocalAddress) : Prop :=
  (∃ c, n.m_cache = some c ∧ c.getLocalAddress m = l) ∧
    ∀ frame, TapHeader.destMAC (buffer frame) = some m → TapHeader.srcMAC (buffer frame) ≠ some m → Forwards n frame l

theorem learning_of_run {n₀ n : PacketTypeCodec} (tap : TapMode n₀)
    (run : LabelledReach (fun n input n' => step n input = some n') (fun _ _ => True) n₀ n) : Learning n := by
  refine run.invariant ⟨tap.delivered, ?_⟩ fun learning _ taken => learning.step taken
  intro c here
  obtain ⟨m_myMac, cache⟩ := tap.cache
  cases cache.symm.trans here
  exact List.nodup_nil

theorem routesTo_iff {n : PacketTypeCodec} {c : AddressCache} (cache : n.m_cache = some c) {m : MacAddr}
    (unicast : m ≠ broadcastMac) (other : ¬ c.Own m) {l : LocalAddress} (proper : l ≠ LocalAddress.null_addr) :
    RoutesTo n m l ↔ keyOf c.m_table m = some l := by
  rw [← getLocalAddress_eq_iff unicast other proper]
  constructor
  · rintro ⟨⟨c', here, routed⟩, _⟩
    cases cache.symm.trans here
    exact routed
  · intro routed
    exact ⟨⟨c, cache, routed⟩, fun frame dest foreign => forwards cache unicast other proper routed dest foreign⟩

/-- A MAC address that a packet has just tied to a local address is routed there exactly
when no entry in front of that of the address has the same MAC address and, if the packet
was a frame, the address was not known with another one. -/
theorem learned_mac_routed_iff (n₀ : PacketTypeCodec) (tap : TapMode n₀) (n : PacketTypeCodec)
    (run : LabelledReach (fun n input n' => step n input = some n') (fun _ _ => True) n₀ n) (c : AddressCache)
    (cache : n.m_cache = some c) (l : LocalAddress) (unicastAddr : l ≠ LocalAddress.broadcast)
    (proper : l ≠ LocalAddress.null_addr) (m : MacAddr) (unicast : m ≠ broadcastMac) (other : ¬ c.Own m)
    (stack : ChannelType × Crc32) (writeLen : Int) (n' : PacketTypeCodec) (outcomes : List Outcome) :
    (∀ bb, kind bb = some .mac_update → longEnough bb = true → bb[3]? = some l → slice bb 4 6 = some m →
      TapHostDriver.rxRawPacket n bb stack writeLen = some (n', outcomes) →
      (RoutesTo n' m l ↔ ∀ e ∈ c.earlier l, e.2 ≠ m)) ∧
    (∀ dest data, TapHeader.srcMAC data = some m →
      TapHostDriver.rxRawPacket n (packet.SendPacket.fromHeader ⟨.tap_format, dest, l⟩ ++ data) stack writeLen =
        some (n', outcomes) → .written data ∈ outcomes →
      (RoutesTo n' m l ↔ (∀ e ∈ c.earlier l, e.2 ≠ m) ∧ ((c.getMac l).1 = true → (c.getMac l).2 = m))) := by
  have learning := learning_of_run tap run
  have assigned : n'.m_cache = some (c.setAddress l m) → (RoutesTo n' m l ↔ ∀ e ∈ c.earlier l, e.2 ≠ m) := by
    intro after
    rw [setAddress_eq unicastAddr] at after
    rw [routesTo_iff after unicast other proper]
    exact keyOf_assign c.m_table l m
  refine ⟨?_, ?_⟩
  · intro bb type long hint mac received
    exact assigned (rxRawPacket_macUpdate learning cache type long hint mac received)
  · intro dest data mac received accepted
    obtain ⟨outcome, run⟩ := rxRawPacket_written learning received accepted
    rw [cache] at run
    rcases packetReceived_cases run with ⟨same, known⟩ | ⟨_, _, ⟨⟩, _, unknown, mac', after⟩
    · have entry := getMac_known unicastAddr (known c rfl unicastAddr)
      rw [routesTo_iff same unicast other proper, keyOf_iff (learning.keyed c cache) entry]
      refine and_congr Iff.rfl ⟨fun held _ => held, fun held => held (known c rfl unicastAddr)⟩
    · rw [mac] at mac'
      cases mac'
      rw [assigned after]
      refine ⟨fun free => ⟨free, fun known => ?_⟩, fun free => free.1⟩
      rw [unknown] at known
      cases known

/-! A client moves to another address -/

/-- A node in TAP mode with address 1. -/
def sampleTap : PacketTypeCodec :=
  .make ((TxQueue.make 1 false).setRxHandler (some 5) .tap_format) ⟨[9, 8, 7, 6, 5, 4, 3, 2], rfl⟩
    (some (.initial illegalMac)) false

def sampleMac (last : Byte) : MacAddr := ⟨[2, 0, 0, 0, 0, last], rfl⟩

def sampleUpdate (l : LocalAddress) (m : MacAddr) : ByteVec :=
  packet.MacUpdate.fromHeader ⟨LocalAddress.broadcast, l, l, m⟩

/-- An IPv4 frame, without the packet in it. -/
def sampleFrame (dest src : MacAddr) : ByteVec := [0, 0, 8, 0] ++ dest.1 ++ src.1 ++ [8, 0]

def unusedStack : ChannelType × Crc32 := (.illegal_type, ⟨[7, 7, 7, 7], rfl⟩)

/-- The node has learned the entries of a table. -/
def tapWith (table : List (LocalAddress × MacAddr)) : PacketTypeCodec :=
  { sampleTap with m_cache := some ⟨table, illegalMac, LocalAddress.null_addr⟩ }

theorem tapMode_sampleTap : TapMode sampleTap := ⟨⟨illegalMac, rfl⟩, rfl, rfl⟩

theorem run_tapWith_one :
    LabelledReach (fun n input n' => step n input = some n') (fun _ _ => True) sampleTap
      (tapWith [(33, sampleMac 1)]) :=
  .next (l := .rxRawPacket (sampleUpdate 33 (sampleMac 1)) unusedStack 0) .start trivial rfl

/-- A frame from another client teaches the node its address. -/
theorem learned_mac_routed_second :
    TapHostDriver.rxRawPacket (tapWith [(33, sampleMac 1)]) (packet.SendPacket.fromHeader
        ⟨.tap_format, LocalAddress.broadcast, 34⟩ ++ sampleFrame broadcastMac (sampleMac 2)) unusedStack 18 =
      some (tapWith [(33, sampleMac 1), (34, sampleMac 2)], [.written (sampleFrame broadcastMac (sampleMac 2))]) ∧
    RoutesTo (tapWith [(33, sampleMac 1), (34, sampleMac 2)]) (sampleMac 2) 34 := by
  have received : TapHostDriver.rxRawPacket (tapWith [(33, sampleMac 1)]) (packet.SendPacket.fromHeader
        ⟨.tap_format, LocalAddress.broadcast, 34⟩ ++ sampleFrame broadcastMac (sampleMac 2)) unusedStack 18 =
      some (tapWith [(33, sampleMac 1), (34, sampleMac 2)], [.written (sampleFrame broadcastMac (sampleMac 2))]) := by
    decide +kernel
  have other : ¬ AddressCache.Own ⟨[(33, sampleMac 1)], illegalMac, LocalAddress.null_addr⟩ (sampleMac 2) := by
    rintro ⟨known, _⟩
    exact known rfl
  refine ⟨received, ((learned_mac_routed_iff sampleTap tapMode_sampleTap _ run_tapWith_one _ rfl 34 (by decide)
    (by decide) (sampleMac 2) (by decide) other unusedStack 18 _ _).2 LocalAddress.broadcast
    (sampleFrame broadcastMac (sampleMac 2)) rfl received (List.mem_singleton_self _)).mpr ?_⟩
  decide

/-- The client of address 33 gets address 34 instead and says so. Frames for it are still
sent to 33. -/
theorem moved_mac_routed_to_old_address :
    TapMode sampleTap ∧
    LabelledReach (fun n input n' => step n input = some n') (fun _ _ => True) sampleTap
      (tapWith [(33, sampleMac 1)]) ∧
    TapHostDriver.rxRawPacket (tapWith [(33, sampleMac 1)]) (sampleUpdate 34 (sampleMac 1)) unusedStack 0 =
      some (tapWith [(33, sampleMac 1), (34, sampleMac 1)], []) ∧
    (TapProtocol.doRead (tapWith [(33, sampleMac 1), (34, sampleMac 1)])
        (sampleFrame (sampleMac 1) (sampleMac 9))).map (·.m_txQueue.m_txMsg) =
      some [packet.SendPacket.fromHeader ⟨.tap_format, 33, 1⟩ ++ sampleFrame (sampleMac 1) (sampleMac 9)] ∧
    ¬ RoutesTo (tapWith [(33, sampleMac 1), (34, sampleMac 1)]) (sampleMac 1) 34 := by
  refine ⟨tapMode_sampleTap, run_tapWith_one, by decide +kernel, by decide +kernel, ?_⟩
  rintro ⟨⟨c, here, routed⟩, _⟩
  cases here
  have kept : AddressCache.getLocalAddress ⟨[(33, sampleMac 1), (34, sampleMac 1)], illegalMac, LocalAddress.null_addr⟩
      (sampleMac 1) = 33 := by decide
  rw [kept] at routed
  cases routed

end SerialNet
