import SerialNet.Bus.Broadcast
import SerialNet.Drivers.TunProtocol

namespace SerialNet

open PacketTypeCodec SocatTunHostDriver

inductive WriteFault
  | unexpectedLength
deriving DecidableEq

/-- The bytes that are written to the device, unless `write` takes no all of them. -/
def TunProtocol.packetReceivedFromNet (write : ByteVec → Int) (data : ByteVec) : Except WriteFault ByteVec :=
  if write data ≠ data.length then .error .unexpectedLength else .ok data

/-- What a driver submits for a packet it has read. -/
def HostPkt.submission (p : HostPkt) : Submission := .sendPacket p.data p.destAddr .tun_format

namespace Traffic

/-! Whom a packet comes from -/

/-- What a node has sent bears an address that was its own: the one it keeps, or one that the
master gives out. -/
def Attributed (cfg : Config) (ns : List PacketTypeCodec) (hosts : Nat → HostLog) : Prop :=
  ∀ i, ∀ s ∈ (hosts i).accepted, ∃ n, ns[i]? = some n ∧ (n.dynamic = false → s.srcAddr = n.address) ∧
    (n.dynamic = true → s.srcAddr ∈ cfg.dynamicAddresses.map toLocalAddress)

variable {cfg : Config} {uninitialised : Nat → UniqueId} {ns : List PacketTypeCodec} {t t' : Traffic}
  {heard line : List (Nat × Sent)} {waiting : Nat → List Sent}

/-- An address a node can send with. -/
theorem Logged.attributes (logged : Logged cfg uninitialised ns t heard line waiting) {i : Nat} {n : PacketTypeCodec}
    (here : t.m_bus.nodes[i]? = some n) {submission : Submission} {s : Sent} (accepted : s ∈ submission.accepted n) :
    ∃ n₀, ns[i]? = some n₀ ∧ (n₀.dynamic = false → s.srcAddr = n₀.address) ∧
      (n₀.dynamic = true → s.srcAddr ∈ cfg.dynamicAddresses.map toLocalAddress) := by
  have fixed := congrArg (fun l => l[i]?) logged.kept.fixed
  simp only [List.getElem?_map, here, Option.map_some] at fixed
  obtain ⟨n₀, there, same⟩ := Option.map_eq_some_iff.mp fixed.symm
  have valid : n.m_txQueue.m_ownAddress.valid = true ∧ s.srcAddr = n.address := by
    unfold Submission.accepted at accepted
    split at accepted
    · rename_i valid
      rw [List.mem_singleton.mp accepted]
      exact ⟨valid, rfl⟩
    · cases accepted
  refine ⟨n₀, there, ?_, ?_⟩
  · intro static
    rw [Bus.fixed_static static] at same
    rw [valid.2]
    unfold Bus.fixed at same
    split at same
    · cases same
    · exact (Option.some.inj same).symm
  · intro dynamic
    rw [Bus.fixed_dynamic dynamic] at same
    have dynamic' : n.dynamic = true := by
      by_contra static
      rw [Bus.fixed_static (Bool.eq_false_iff.mpr static)] at same
      cases same
    rcases logged.inv.agreement.holds n (List.mem_of_getElem? here) dynamic' with null | key
    · exact absurd null (of_decide_eq_true valid.1)
    · rw [valid.2]
      exact Bus.mem_dynamicAddresses logged.inv.handler key

theorem Attributed.accept (attributed : Attributed cfg ns t.hosts)
    (logged : Logged cfg uninitialised ns t heard line waiting) {i : Nat} {n : PacketTypeCodec}
    (here : t.m_bus.nodes[i]? = some n) (s : Submission) : Attributed cfg ns (accept t.hosts i n s) := by
  intro j sent member
  rw [Traffic.accept] at member
  by_cases same : j = i
  · subst same
    rw [Function.update_self] at member
    rcases List.mem_append.mp member with old | new
    · exact attributed j sent old
    · exact logged.attributes here new
  · rw [Function.update_of_ne same] at member
    exact attributed j sent member

theorem Attributed.step (attributed : Attributed cfg ns t.hosts)
    (logged : Logged cfg uninitialised ns t heard line waiting) (step : Step t t') : Attributed cfg ns t'.hosts := by
  cases step with
  | deliver _ _ _ _ => exact attributed
  | @submit b hosts before n after s clients =>
    exact attributed.accept logged (i := before.length + 1) (by simp [Bus.nodes, clients]) s
  | @master b hosts l master _ _ _ =>
    cases Submission.ofLabel l with
    | none => exact attributed
    | some s => exact attributed.accept logged (i := 0) rfl s

theorem logged_of_run {own : PacketTypeCodec} {clients : List PacketTypeCodec}
    (setup : Bus.Setup cfg uninitialised (own :: clients)) (rested : ∀ n ∈ own :: clients, n.m_rxMsg = []) {now : ℚ}
    (run : Relation.ReflTransGen Step
      ⟨⟨Master.started cfg own uninitialised now, clients, []⟩, fun _ => ⟨[], []⟩⟩ t) :
    Attributed cfg (own :: clients) t.hosts ∧
      ∃ heard line waiting, Logged cfg uninitialised (own :: clients) t heard line waiting := by
  induction run with
  | refl =>
    refine ⟨?_, _, _, _, Logged.start setup rested now⟩
    rintro i s ⟨⟩
  | tail _ step ih =>
    obtain ⟨attributed, heard, line, waiting, logged⟩ := ih
    exact ⟨attributed.step logged step, logged.step setup.separate step⟩

/-- The packets of a static node are those that bear its address. -/
theorem Attributed.fromPlace (attributed : Attributed cfg ns t.hosts) (setup : Bus.Setup cfg uninitialised ns)
    (accounts : Accounts t heard line waiting) {i : Nat} {n : PacketTypeCodec} (here : ns[i]? = some n)
    (static : n.dynamic = false) {e : Nat × Sent} (member : e ∈ heard) : e.2.srcAddr = n.address ↔ e.1 = i := by
  have own : e.2 ∈ (t.hosts e.1).accepted := by
    rw [accounts.accepted]
    refine List.mem_append_left _ (List.mem_append_left _ ?_)
    exact List.mem_map_of_mem (List.mem_filter.mpr ⟨member, decide_eq_true rfl⟩)
  have sender : Sender cfg ns e.1 e.2.srcAddr := attributed e.1 e.2 own
  constructor
  · intro mine
    rw [mine] at sender
    exact sender.eq_place setup here static
  · rintro rfl
    exact sender.eq_address here static

/-- A driver is called with data that bears the address. -/
def callFrom (a : LocalAddress) : Effect → Bool
  | .packetReceivedFromNet _ _ srcAddr _ _ => srcAddr = a
  | _ => false

theorem calls_from (s : Sent) (q : TxQueue) (a : LocalAddress) :
    (s.calls q).filter (callFrom a) = if s.srcAddr = a then s.calls q else [] := by
  obtain ⟨src, submission⟩ := s
  cases submission with
  | sendPacket data dest ch =>
    unfold Sent.calls Station.expectedCalls
    dsimp only
    split
    · split
      · by_cases same : src = a <;> simp [callFrom, same]
      · simp
    · simp
  | sendMacUpdate mac => simp [Sent.calls]

/-- What bears the address of a static node is what has been heard of it. -/
theorem Attributed.handed (attributed : Attributed cfg ns t.hosts) (setup : Bus.Setup cfg uninitialised ns)
    (logged : Logged cfg uninitialised ns t heard line waiting) {i j : Nat} {nᵢ nⱼ : PacketTypeCodec}
    (sender : ns[i]? = some nᵢ) (staticSender : nᵢ.dynamic = false) (receiver : ns[j]? = some nⱼ)
    (staticReceiver : nⱼ.dynamic = false) :
    (t.hosts j).handed.filter (callFrom nᵢ.address) = (heard.fromPlace i).flatMap fun s => s.calls nⱼ.m_txQueue := by
  rw [logged.handed j nⱼ receiver staticReceiver]
  have owned : ∀ e ∈ heard, (e.2.srcAddr = nᵢ.address ↔ e.1 = i) := fun e member =>
    attributed.fromPlace setup logged.accounts sender staticSender member
  clear logged
  induction heard with
  | nil => rfl
  | cons e rest ih =>
    have first := owned e List.mem_cons_self
    rw [List.flatMap_cons, List.filter_append, calls_from, ih fun e member => owned e (List.mem_cons_of_mem _ member),
      List.fromPlace_cons, List.flatMap_append]
    by_cases mine : e.1 = i
    · rw [if_pos mine, if_pos (first.mpr mine), List.flatMap_singleton]
    · rw [if_neg mine, if_neg (mt first.mp mine), List.flatMap_nil]

/-! IP packets from one TUN device to another -/

/-- What a TUN driver is to write for a packet of one sender. -/
def tunData (a : LocalAddress) : Effect → Option ByteVec
  | .packetReceivedFromNet _ data srcAddr _ chType =>
    if chType = .tun_format ∧ srcAddr = a then some data else none
  | _ => none

theorem filterMap_tunData (effects : List Effect) (a : LocalAddress) :
    effects.filterMap (tunData a) = (effects.filter (callFrom a)).filterMap (tunData a) := by
  rw [List.filterMap_filter]
  congr 1
  funext e
  cases e with
  | packetReceivedFromNet rxIf data src dest ch =>
    by_cases same : src = a
    · simp [callFrom, same]
    · simp [callFrom, tunData, same]
  | _ => rfl

/-- A packet is written where it is addressed to, as it was read. -/
theorem tunData_calls {q : TxQueue} {rxIf : RxIf} (tun : q.m_rxIfTun = some rxIf) (a : LocalAddress) (p : TunPacket) :
    (Sent.calls ⟨a, p.hostPkt.submission⟩ q).filterMap (tunData a) =
      if accepts q.clientAddress (destination p.bytes) then [p.bytes] else [] := by
  have driver : q.getRxIf .tun_format = some rxIf := tun
  simp only [Sent.calls, HostPkt.submission, TunPacket.hostPkt, Station.expectedCalls, driver, accepts,
    decide_eq_true_eq]
  split
  · simp [tunData]
  · rfl

theorem tunData_heard {q : TxQueue} {rxIf : RxIf} (tun : q.m_rxIfTun = some rxIf) (a : LocalAddress)
    (packets : List TunPacket) :
    ((packets.map fun p => (⟨a, p.hostPkt.submission⟩ : Sent)).flatMap fun s => s.calls q).filterMap (tunData a) =
      (packets.filter fun p => accepts q.clientAddress (destination p.bytes)).map TunPacket.bytes := by
  induction packets with
  | nil => rfl
  | cons p rest ih =>
    rw [List.map_cons, List.flatMap_cons, List.filterMap_append, ih, tunData_calls tun, List.filter_cons]
    split <;> rfl

theorem mapM_packetReceivedFromNet {write : ByteVec → Int} (whole : ∀ data, write data = data.length)
    (datas : List ByteVec) : datas.mapM (TunProtocol.packetReceivedFromNet write) = .ok datas := by
  have each : TunProtocol.packetReceivedFromNet write = fun data => pure data := by
    funext data
    rw [TunProtocol.packetReceivedFromNet, if_neg (not_not.mpr (whole data))]
    rfl
  rw [each, List.mapM_pure, List.map_id']
  rfl

/-- A tunnel between two TUN devices. The packets that the driver of one static node reads
are written to the device of every static node they are addressed to, byte for byte and in
the order in which they were read. Missing are the last of them at most: one that is on the
wire, and those that wait in the queue of the sender. The two timers that wait for a token or
its answer run out on a silent wire only. -/
theorem tun_tunnel (cfg : Config) (uninitialised : Nat → UniqueId) (own : PacketTypeCodec)
    (clients : List PacketTypeCodec) (setup : Bus.Setup cfg uninitialised (own :: clients))
    (rested : ∀ n ∈ own :: clients, n.m_rxMsg = []) (now : ℚ) (m₀ : Master)
    (constructed : Master.start cfg own uninitialised now = .ok m₀) (t : Traffic)
    (run : Relation.ReflTransGen Step ⟨⟨m₀, clients, []⟩, fun _ => ⟨[], []⟩⟩ t) {i j : Nat}
    {sender receiver n : PacketTypeCodec} (atSender : (own :: clients)[i]? = some sender)
    (staticSender : sender.dynamic = false) (atReceiver : (own :: clients)[j]? = some receiver)
    (staticReceiver : receiver.dynamic = false) (rxIf : RxIf) (tun : receiver.m_txQueue.m_rxIfTun = some rxIf)
    (current : t.m_bus.nodes[i]? = some n) (behind : Nat → Byte) (packets : List TunPacket) (pkts : List HostPkt)
    (read : packets.mapM (fun p => TunProtocol.doRead2 behind (p.bytes.take TunProtocol.buffLen)) = .ok pkts)
    (submitted : (t.hosts i).accepted = pkts.map fun p => ⟨sender.address, p.submission⟩)
    (write : ByteVec → Int) (whole : ∀ data, write data = data.length) :
    ∃ first later, packets = first ++ later ∧ later.length ≤ 1 + n.m_txQueue.m_txMsg.length ∧
      ((t.hosts j).handed.filterMap (tunData sender.address)).mapM (TunProtocol.packetReceivedFromNet write) =
        .ok ((first.filter fun p => accepts receiver.address (destination p.bytes)).map TunPacket.bytes) := by
  rw [Master.start_eq] at constructed
  cases constructed
  obtain ⟨attributed, heard, line, waiting, logged⟩ := logged_of_run setup rested run
  have reads : pkts = packets.map TunPacket.hostPkt := by
    simp only [TunPacket.doRead2_eq] at read
    exact (Except.ok.inj (List.mapM_pure.symm.trans read)).symm
  rw [reads, List.map_map] at submitted
  obtain ⟨first, later, split, pending, heardOf⟩ := logged.heard_of_accepted current submitted
  refine ⟨first, later, split, ?_, ?_⟩
  · have few := length_le_one_of_map logged.accounts.wire logged.inv.phase.length_filter_isToken
    have onWire := congrArg List.length logged.accounts.wire
    rw [List.length_map] at onWire
    omega
  · rw [mapM_packetReceivedFromNet whole, filterMap_tunData,
      attributed.handed setup logged atSender staticSender atReceiver staticReceiver, heardOf]
    exact congrArg _ (tunData_heard tun sender.address first)

/-- A packet without data, from 10.0.0.1 to 10.0.0.9. -/
def samplePacket : TunPacket :=
  ⟨[0, 0, 8, 0, 0x45, 0, 0, 20, 0, 1, 0, 0, 64, 17, 0, 0, 10, 0, 0, 1, 10, 0, 0, 9], by decide, by decide, by decide⟩

/-- The own node of the master, with a TUN driver. -/
def tunNode : PacketTypeCodec :=
  { Master.sampleNode with m_txQueue := Master.sampleNode.m_txQueue.setRxHandler (some 6) .tun_format }

theorem tun_tunnel_one :
    ∃ t, Relation.ReflTransGen Step ⟨⟨Master.started {} tunNode (fun _ => Bus.unsetId) 1000,
        [Bus.sampleClient 1 2, Bus.sampleClient 0 3], []⟩, fun _ => ⟨[], []⟩⟩ t ∧
      (t.hosts 0).handed = [.packetReceivedFromNet 6 samplePacket.bytes 1 9 .tun_format] ∧
      ∃ first later, [samplePacket] = first ++ later ∧
        ((t.hosts 0).handed.filterMap (tunData 1)).mapM
            (TunProtocol.packetReceivedFromNet fun data => data.length) =
          .ok ((first.filter fun p => accepts 9 (destination p.bytes)).map TunPacket.bytes) := by
  have shown : ((LabelledReach.follow exec ⟨⟨Master.started {} tunNode (fun _ => Bus.unsetId) 1000,
      [Bus.sampleClient 1 2, Bus.sampleClient 0 3], []⟩, fun _ => ⟨[], []⟩⟩
        (deliveryScript samplePacket.hostPkt.submission)).map
        fun t => ((t.hosts 0).handed, (t.hosts 1).accepted, (t.m_bus.nodes[1]?).isSome)) =
      some ([.packetReceivedFromNet 6 samplePacket.bytes 1 9 .tun_format], [⟨1, samplePacket.hostPkt.submission⟩],
        true) := by
    decide +kernel
  obtain ⟨t, followed, seen⟩ := Option.map_eq_some_iff.mp shown
  simp only [Prod.mk.injEq] at seen
  obtain ⟨handed, accepted, present⟩ := seen
  obtain ⟨n, current⟩ := Option.isSome_iff_exists.mp present
  have setup : Bus.Setup {} (fun _ => Bus.unsetId) [tunNode, Bus.sampleClient 1 2, Bus.sampleClient 0 3] := by
    refine ⟨Config.separate_default, ?_, ?_, ?_, ?_, ?_⟩ <;> decide
  have run := run_of_script followed
  obtain ⟨first, later, split, _, written⟩ :=
    tun_tunnel {} _ _ _ setup (by decide) 1000 _ (Master.start_eq _ _ _ _) t run (i := 1) (j := 0) rfl rfl rfl rfl 6 rfl
      current (fun _ => 0) [samplePacket] [samplePacket.hostPkt] (by decide) accepted (fun data => data.length)
      (fun _ => rfl)
  exact ⟨t, run, handed, first, later, split, written⟩

end Traffic

end SerialNet
