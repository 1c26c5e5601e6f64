import SerialNet.Bus.Network
import SerialNet.Drivers.Interface
import SerialNet.Master.StaticLines

namespace SerialNet

/-- The options of the command line, without those for the serial device, the log and
persistent interfaces. -/
structure VariablesMap where
  mode : String
  on_if_up : String
  on_if_down : String
  address : Int
  peer_address : Int
  master : Bool
deriving DecidableEq

namespace SNConfig

inductive Mode
  | unknown
  | none
  | std_io
  | raw_pty
  | socat_tun
  | socat_tap
  | tun
  | tap
  | setup_tap
  | remove_tap
  | mode_max_num
deriving DecidableEq, Repr

def toMode : String → Mode
  | "unknown" => .unknown
  | "none" => .none
  | "std_io" => .std_io
  | "raw_pty" => .raw_pty
  | "socat_tun" => .socat_tun
  | "socat_tap" => .socat_tap
  | "tun" => .tun
  | "tap" => .tap
  | "setup_tap" => .setup_tap
  | "remove_tap" => .remove_tap
  | _ => .unknown

end SNConfig

/-- What a process takes from its command line. -/
structure SNConfig where
  m_mode : SNConfig.Mode
  m_on_if_up : String
  m_on_if_down : String
  m_startMaster : Bool
  m_staticAddr : LocalAddress
  m_peerAddr : LocalAddress
deriving DecidableEq

/-- `setupSNConfig`. The option `peer_address` has a default, so that it is always there. -/
def SNConfig.ofOptions (vm : VariablesMap) : Except String SNConfig := do
  let m_staticAddr ← SNConfig.setupSNConfig vm.address vm.master
  pure
    { m_mode := SNConfig.toMode vm.mode
      m_on_if_up := vm.on_if_up
      m_on_if_down := vm.on_if_down
      m_startMaster := vm.master
      m_staticAddr
      m_peerAddr := toLocalAddress (vm.peer_address % 256).toNat }

/-- How `read` returns. -/
inductive ReadResult
  | data (bytes : ByteVec)
  | error (eio : Bool)
deriving DecidableEq

structure StdioRawHostDriver where
  m_rxAddr : LocalAddress
  m_destAddr : LocalAddress
deriving DecidableEq

namespace StdioRawHostDriver

/-- Nothing is registered for received packets. -/
def startStdout (d : StdioRawHostDriver) (rxAddress : LocalAddress) : StdioRawHostDriver :=
  { d with m_rxAddr := rxAddress }

def startStdin (d : StdioRawHostDriver) (destAddr : LocalAddress) : StdioRawHostDriver :=
  { d with m_destAddr := destAddr }

end StdioRawHostDriver

structure PtyRawHostDriver where
  m_peerAddr : LocalAddress
  m_txHandler : Bool
deriving DecidableEq

namespace PtyRawHostDriver

def initial : PtyRawHostDriver := ⟨LocalAddress.null_addr, false⟩

def setupCallback (txIf : TxQueue) (rxIf : RxIf) (peerAddress : LocalAddress) : PtyRawHostDriver × TxQueue :=
  (⟨peerAddress, true⟩, txIf.setRxHandler (some rxIf) .raw_stream)

/-- The packet that is submitted, if any, and whether the pty is still to be monitored. After
EIO it is opened anew. -/
def doRead (d : PtyRawHostDriver) : ReadResult → Option (ByteVec × LocalAddress × ChannelType) × Bool
  | .error true => (none, false)
  | .error false => (none, true)
  | .data bytes => (if d.m_txHandler then some (bytes, d.m_peerAddr, .raw_stream) else none, true)

/-- The calls of `write`. Their result is not looked at. -/
def packetReceivedFromNet (d : PtyRawHostDriver) (data : ByteVec) (srcAddr : LocalAddress) (chType : ChannelType) :
    List ByteVec :=
  if chType = .raw_stream then
    if srcAddr = d.m_peerAddr ∨ d.m_peerAddr = LocalAddress.broadcast then [data] else []
  else []

end PtyRawHostDriver

/-- The drivers a process can have. Those for TUN and TAP by way of `socat` keep nothing that
depends on the command line. -/
inductive HostDriver
  | stdioRaw (d : StdioRawHostDriver)
  | ptyRaw (d : PtyRawHostDriver)
  | socatTun
  | socatTap
  | tun (d : HostInterface)
  | tap (d : HostInterface)
deriving DecidableEq

/-- A process: its command line, and what it finds when it starts. This is the id it draws,
the MAC address in a new cache, and the name the system gives to its device. -/
structure Process where
  vm : VariablesMap
  m_uniqueId : UniqueId
  m_myMac : MacAddr
  device : String

/-- What a process has put together: its node, the driver for its host, and the calls this
driver has made on the system. -/
structure Application where
  m_packetTypeCodec : PacketTypeCodec
  driver : Option HostDriver
  calls : List IfCall
  m_startMaster : Bool

namespace Application

/-- The one driver of a process. -/
def hostDriver : RxIf := 0

/-- `SerialNet::start`, where the serial device and the driver can be opened. There is nothing
left to do after an interface has been set up or removed. -/
def start (p : Process) (m_snConfig : SNConfig) : Option Application :=
  let m_packetTypeCodec := PacketTypeCodec.make (.make m_snConfig.m_staticAddr false) p.m_uniqueId none true
  let cached := { m_packetTypeCodec with m_cache := some (.initial p.m_myMac) }
  let m_startMaster := m_snConfig.m_startMaster
  match m_snConfig.m_mode with
  | .setup_tap | .remove_tap => none
  | .std_io =>
    let d := (StdioRawHostDriver.mk LocalAddress.null_addr LocalAddress.null_addr).startStdout LocalAddress.broadcast
    some ⟨m_packetTypeCodec, some (.stdioRaw (d.startStdin m_snConfig.m_peerAddr)), [], m_startMaster⟩
  | .raw_pty =>
    let (d, m_txQueue) :=
      PtyRawHostDriver.setupCallback m_packetTypeCodec.m_txQueue hostDriver m_snConfig.m_peerAddr
    some ⟨{ m_packetTypeCodec with m_txQueue }, some (.ptyRaw d), [], m_startMaster⟩
  | .socat_tun =>
    let m_txQueue := m_packetTypeCodec.m_txQueue.setRxHandler (some hostDriver) .tun_format
    some ⟨{ m_packetTypeCodec with m_txQueue }, some .socatTun, [], m_startMaster⟩
  | .socat_tap =>
    let m_txQueue := m_packetTypeCodec.m_txQueue.setRxHandler (some hostDriver) .tap_format
    some ⟨{ cached with m_txQueue }, some .socatTap, [], m_startMaster⟩
  | .tun =>
    let s := TunHostDriver.startTransfer (TunHostDriver.make m_snConfig.m_on_if_up m_snConfig.m_on_if_down)
      hostDriver p.device m_packetTypeCodec
    some ⟨s.node, some (.tun s.driver), s.calls, m_startMaster⟩
  | .tap =>
    let s := TapHostDriver.startTransfer (TapHostDriver.make m_snConfig.m_on_if_up m_snConfig.m_on_if_down)
      hostDriver p.device cached
    some ⟨s.node, some (.tap s.driver), s.calls, m_startMaster⟩
  | .unknown | .none | .mode_max_num => some ⟨m_packetTypeCodec, none, [], m_startMaster⟩

/-- The program, up to its event loop. -/
def launch (p : Process) : Except String (Option Application) := do
  let m_snConfig ← SNConfig.ofOptions p.vm
  pure (start p m_snConfig)

end Application

/-! How the processes of a network begin -/

open PacketTypeCodec

/-- The address a process asks for. Zero is none. -/
def Process.address (p : Process) : Int := if p.vm.address = 0 ∧ p.vm.master then 1 else p.vm.address

/-- A node as its process has put it together. -/
structure Process.Makes (p : Process) (n : PacketTypeCodec) : Prop where
  range : 0 ≤ p.address ∧ p.address ≤ 32
  address : n.address = toLocalAddress p.address.toNat
  dynamic : n.dynamic = true ↔ n.address = LocalAddress.null_addr
  id : n.m_uniqueId = p.m_uniqueId
  queue : n.m_txQueue.m_txMsg = []
  rested : n.m_rxMsg = []

namespace Process

theorem setupSNConfig_address {p : Process} {a : LocalAddress}
    (accepted : SNConfig.setupSNConfig p.vm.address p.vm.master = .ok a) :
    (0 ≤ p.address ∧ p.address ≤ 32) ∧ a = toLocalAddress p.address.toNat := by
  unfold SNConfig.setupSNConfig at accepted
  split at accepted
  · cases accepted
  · cases Except.ok.inj accepted
    refine ⟨?_, rfl⟩
    unfold address
    split <;> omega

theorem start_of_launch {p : Process} {app : Application} (launched : Application.launch p = .ok (some app)) :
    ∃ a, SNConfig.setupSNConfig p.vm.address p.vm.master = .ok a ∧
      Application.start p ⟨SNConfig.toMode p.vm.mode, p.vm.on_if_up, p.vm.on_if_down, p.vm.master, a,
        toLocalAddress (p.vm.peer_address % 256).toNat⟩ = some app := by
  obtain ⟨cfg, parsed, started⟩ := Except.bind_eq_ok_iff.mp launched
  obtain ⟨a, accepted, made⟩ := Except.bind_eq_ok_iff.mp parsed
  cases made
  exact ⟨a, accepted, Except.ok.inj started⟩

/-- Which driver there is makes no difference to this. -/
theorem makes_of_launch {p : Process} {app : Application} (launched : Application.launch p = .ok (some app)) :
    p.Makes app.m_packetTypeCodec := by
  obtain ⟨a, accepted, started⟩ := start_of_launch launched
  obtain ⟨range, rfl⟩ := setupSNConfig_address accepted
  unfold Application.start at started
  dsimp only at started
  split at started
  case h_1 => cases started
  case h_2 => cases started
  all_goals
    cases Option.some.inj started
    exact ⟨range, rfl, decide_eq_true_iff, rfl, rfl, rfl⟩

/-- A pty is registered for raw data, and knows its peer. -/
theorem pty_of_launch {p : Process} {app : Application} {d : PtyRawHostDriver}
    (launched : Application.launch p = .ok (some app)) (pty : app.driver = some (.ptyRaw d)) :
    d = ⟨toLocalAddress (p.vm.peer_address % 256).toNat, true⟩ ∧
      app.m_packetTypeCodec.m_txQueue.m_rxIfRaw = some Application.hostDriver := by
  obtain ⟨a, _, started⟩ := start_of_launch launched
  unfold Application.start at started
  dsimp only at started
  split at started
  case h_1 => cases started
  case h_2 => cases started
  case h_4 =>
    cases Option.some.inj started
    cases pty
    exact ⟨rfl, rfl⟩
  all_goals
    cases Option.some.inj started
    cases pty

/-- Standard output is not registered for anything. -/
theorem stdio_of_launch {p : Process} {app : Application} {d : StdioRawHostDriver}
    (launched : Application.launch p = .ok (some app)) (stdio : app.driver = some (.stdioRaw d)) (ch : ChannelType) :
    app.m_packetTypeCodec.m_txQueue.getRxIf ch = none := by
  obtain ⟨a, _, started⟩ := start_of_launch launched
  unfold Application.start at started
  dsimp only at started
  split at started
  case h_1 => cases started
  case h_2 => cases started
  case h_3 =>
    cases Option.some.inj started
    simp [PacketTypeCodec.make, TxQueue.make, TxQueue.getRxIf]
  all_goals
    cases Option.some.inj started
    cases stdio

theorem Makes.valid {p : Process} {n : PacketTypeCodec} (makes : p.Makes n) (static : p.address ≠ 0) :
    n.address ≠ LocalAddress.null_addr ∧ n.dynamic = false := by
  obtain ⟨lower, upper⟩ := makes.range
  have proper : n.address ≠ LocalAddress.null_addr := by
    intro null
    have zero := congrArg UInt8.toNat (makes.address.symm.trans null)
    rw [DynamicHandler.toNat_toLocalAddress (by omega)] at zero
    change p.address.toNat = 0 at zero
    omega
  exact ⟨proper, Bool.eq_false_iff.mpr (mt makes.dynamic.mp proper)⟩

theorem Makes.single {p : Process} {n : PacketTypeCodec} (makes : p.Makes n) :
    n.address ≠ LocalAddress.broadcast := by
  obtain ⟨lower, upper⟩ := makes.range
  intro everybody
  have top := congrArg UInt8.toNat (makes.address.symm.trans everybody)
  rw [DynamicHandler.toNat_toLocalAddress (by omega)] at top
  change p.address.toNat = 255 at top
  omega

theorem Makes.address_inj {p p' : Process} {n n' : PacketTypeCodec} (makes : p.Makes n) (makes' : p'.Makes n')
    (same : n.address = n'.address) : p.address = p'.address := by
  have bounds := makes.range
  have bounds' := makes'.range
  rw [makes.address, makes'.address] at same
  have same := congrArg UInt8.toNat same
  rw [DynamicHandler.toNat_toLocalAddress (by omega), DynamicHandler.toNat_toLocalAddress (by omega)] at same
  omega

/-- The addresses of the command line are below those that the master gives out. -/
theorem Makes.outside {p : Process} {n : PacketTypeCodec} (makes : p.Makes n) :
    n.address ∉ ({} : Config).dynamicAddresses.map toLocalAddress := by
  have bounds := makes.range
  rw [makes.address]
  intro handed
  obtain ⟨k, inside, same⟩ := List.mem_map.mp handed
  have range : ∀ k ∈ ({} : Config).dynamicAddresses, 33 ≤ k ∧ k ≤ 48 := by decide
  have limits := range k inside
  have same := congrArg UInt8.toNat same
  rw [DynamicHandler.toNat_toLocalAddress (by omega), DynamicHandler.toNat_toLocalAddress (by omega)] at same
  omega

/-- Processes that can be on one bus: the first of them is the master, they draw different ids,
and no two of them are told to use the same address. -/
structure Network (uninitialised : Nat → UniqueId) (processes : List Process) : Prop where
  oneMaster : ∃ rest, processes.map (·.vm.master) = true :: rest ∧ true ∉ rest
  ids : (processes.map (·.m_uniqueId)).Nodup
  idsKnown : ∀ p ∈ processes, ∀ i ∈ ({} : Config).staticAddresses, p.m_uniqueId ≠ uninitialised i
  addresses : processes.Pairwise fun p p' => p.address ≠ 0 → p'.address ≠ 0 → p.address ≠ p'.address

theorem pairwise_of_makes {R : Process → Process → Prop} {S : PacketTypeCodec → PacketTypeCodec → Prop}
    {processes : List Process} {nodes : List PacketTypeCodec} (made : List.Forall₂ Makes processes nodes)
    (apart : processes.Pairwise R) (carry : ∀ {p p' n n'}, p.Makes n → p'.Makes n' → R p p' → S n n') :
    nodes.Pairwise S := by
  obtain ⟨length, each⟩ := List.forall₂_iff_get.mp made
  rw [List.pairwise_iff_getElem] at apart ⊢
  intro i j inside inside' less
  exact carry (each i (by omega) inside) (each j (by omega) inside') (apart i j (by omega) (by omega) less)

theorem exists_makes {processes : List Process} {nodes : List PacketTypeCodec}
    (made : List.Forall₂ Makes processes nodes) {n : PacketTypeCodec} (member : n ∈ nodes) :
    ∃ p ∈ processes, p.Makes n := by
  obtain ⟨length, each⟩ := List.forall₂_iff_get.mp made
  obtain ⟨i, inside, rfl⟩ := List.getElem_of_mem member
  exact ⟨_, List.getElem_mem _, each i (by omega) inside⟩

/-- Whatever the command lines are, a network is put together as the master needs it. -/
theorem Network.setup {uninitialised : Nat → UniqueId} {processes : List Process} {nodes : List PacketTypeCodec}
    (network : Network uninitialised processes) (made : List.Forall₂ Makes processes nodes) :
    Bus.Setup {} uninitialised nodes ∧ ∀ n ∈ nodes, n.m_rxMsg = [] := by
  refine ⟨⟨Config.separate_default, ?_, ?_, ?_, ?_, ?_⟩, ?_⟩
  · intro n member
    obtain ⟨p, _, makes⟩ := exists_makes made member
    exact ⟨makes.queue, makes.dynamic⟩
  · refine pairwise_of_makes made (List.pairwise_map.mp network.ids) ?_
    intro p p' n n' makes makes' apart
    rwa [makes.id, makes'.id]
  · intro n member
    obtain ⟨p, inside, makes⟩ := exists_makes made member
    rw [makes.id]
    exact network.idsKnown p inside
  · refine pairwise_of_makes made network.addresses ?_
    intro p p' n n' makes makes' apart proper proper' same
    refine apart ?_ ?_ (makes.address_inj makes' same)
    · intro zero
      exact proper (makes.address.trans (by rw [zero]; rfl))
    · intro zero
      exact proper' (makes'.address.trans (by rw [zero]; rfl))
  · intro n member
    obtain ⟨p, _, makes⟩ := exists_makes made member
    exact makes.outside
  · intro n member
    obtain ⟨p, _, makes⟩ := exists_makes made member
    exact makes.rested

end Process

end SerialNet
