import SerialNet.Client
import SerialNet.Lib.Reach

namespace SerialNet

/-- The calls of a driver on the system. -/
inductive IfCall
  | setIfUpDown (up : Bool) (name : String)
  | system (command : String)
deriving DecidableEq

/-- What `TapHostDriver` and `TunHostDriver` keep about their network interface. -/
structure HostInterface where
  m_ifUp : Bool
  m_on_if_up : String
  m_on_if_down : String
  name : String
deriving DecidableEq

namespace HostInterface

/-- The command for the new state of the interface, if there is one. -/
def command (d : HostInterface) (up : Bool) : List IfCall :=
  if up = true ∧ d.m_on_if_up ≠ "" then [.system d.m_on_if_up]
  else if up = false ∧ d.m_on_if_down ≠ "" then [.system d.m_on_if_down]
  else []

/-- The system calls succeed. -/
def msgHostRx_newAddr (d : HostInterface) (addr : LocalAddress) : HostInterface × List IfCall :=
  let newIfUp := decide (addr ≠ LocalAddress.null_addr)
  if newIfUp ≠ d.m_ifUp then
    ({ d with m_ifUp := newIfUp }, .setIfUpDown newIfUp d.name :: d.command newIfUp)
  else
    (d, [])

end HostInterface

def TxQueue.setAddrUpdateHandler (q : TxQueue) : TxQueue :=
  { q with m_ownAddress := { q.m_ownAddress with m_addrChangeIf := true } }

/-- A node and the driver that listens to it, with the calls that the driver has made. -/
structure HostNode where
  node : PacketTypeCodec
  driver : HostInterface
  calls : List IfCall

namespace HostNode

/-- The part that the drivers have in common. The system decides on the name of the device. -/
def startTransfer (d : HostInterface) (chType : ChannelType) (rxIf : RxIf) (dev : String) (n : PacketTypeCodec) :
    HostNode :=
  let m_txQueue := (n.m_txQueue.setRxHandler (some rxIf) chType).setAddrUpdateHandler
  let started := { d with name := dev }.msgHostRx_newAddr m_txQueue.clientAddress
  { node := { n with m_txQueue }, driver := started.1, calls := started.2 }

end HostNode

namespace TapHostDriver

def make (onUp onDown : String) : HostInterface := ⟨false, onUp, onDown, "tap0"⟩

def startTransfer (d : HostInterface) : RxIf → String → PacketTypeCodec → HostNode :=
  HostNode.startTransfer d .tap_format

end TapHostDriver

namespace TunHostDriver

def make (onUp onDown : String) : HostInterface := ⟨false, onUp, onDown, "tun0"⟩

def startTransfer (d : HostInterface) : RxIf → String → PacketTypeCodec → HostNode :=
  HostNode.startTransfer d .tun_format

end TunHostDriver

namespace HostNode

inductive Input
  | rxRawPacket (bb : ByteVec) (stack : ChannelType × Crc32)
  | setAddress (addr : LocalAddress)

/-- A call of the node on the driver. -/
def hostEffect (s : HostInterface × List IfCall) : Effect → HostInterface × List IfCall
  | .msgHostRx_newAddr addr =>
    let changed := s.1.msgHostRx_newAddr addr
    (changed.1, s.2 ++ changed.2)
  | _ => s

/-- The node has changed and makes its calls. -/
def after (s : HostNode) (node : PacketTypeCodec) (effects : List Effect) : HostNode :=
  let changed := effects.foldl hostEffect (s.driver, s.calls)
  ⟨node, changed.1, changed.2⟩

def step (s : HostNode) : Input → Option HostNode
  | .rxRawPacket bb stack => do
    let (node, effects) ← s.node.rxRawPacket bb stack
    some (s.after node effects)
  | .setAddress addr =>
    let changed := s.node.m_txQueue.setAddress addr
    some (s.after { s.node with m_txQueue := changed.1 } changed.2)

def address (s : HostNode) : LocalAddress := s.node.m_txQueue.clientAddress

/-- The arguments of the calls of `setIfUpDown`. -/
def ups (calls : List IfCall) : List Bool :=
  calls.filterMap fun
    | .setIfUpDown up _ => some up
    | .system _ => none

end HostNode

/-! The node tells its driver about a new address, and about nothing else -/

/-- The addresses that the driver is told. -/
def notices (effects : List Effect) : List LocalAddress :=
  effects.filterMap fun
    | .msgHostRx_newAddr addr => some addr
    | _ => none

/-- What a listener is told about the address after a step. -/
def news (before after : LocalAddress) : List LocalAddress := if after = before then [] else [after]

@[simp] theorem notices_nil : notices [] = [] := rfl

@[simp] theorem notices_append (first second : List Effect) :
    notices (first ++ second) = notices first ++ notices second := List.filterMap_append

namespace OwnAddress

theorem notices_set {o : OwnAddress} (listening : o.m_addrChangeIf = true) (addr : LocalAddress) :
    notices (o.set addr).2 = news o.m_addr addr := by
  rw [set, news]
  by_cases same : addr = o.m_addr
  · simp [listening, same]
  · simp [listening, same, Ne.symm same, notices]

theorem notices_masterStarted {o : OwnAddress} (listening : o.m_addrChangeIf = true) :
    notices o.masterStarted.2 = news o.m_addr o.masterStarted.1.m_addr := by
  unfold masterStarted
  split
  · exact notices_set listening _
  · simp [news]

end OwnAddress

@[simp] theorem news_self (addr : LocalAddress) : news addr addr = [] := if_pos rfl

/-- From one state of the node to another, with a driver that listens. -/
structure Tells (n n' : PacketTypeCodec) (effects : List Effect) : Prop where
  listening : n'.m_txQueue.m_ownAddress.m_addrChangeIf = true
  told : notices effects = news n.m_txQueue.clientAddress n'.m_txQueue.clientAddress

section Tells

variable {n n' : PacketTypeCodec} {bb : ByteVec} {stack : ChannelType × Crc32} {effects : List Effect}

/-- The address stays, and nobody is told. -/
theorem tells_quiet (listening : n.m_txQueue.m_ownAddress.m_addrChangeIf = true)
    (same : n'.m_txQueue.m_ownAddress = n.m_txQueue.m_ownAddress) (quiet : notices effects = []) :
    Tells n n' effects := by
  refine ⟨by rw [same, listening], ?_⟩
  rw [TxQueue.clientAddress, TxQueue.clientAddress, same, news_self, quiet]

theorem sendClientPacketOrReturnToken_quiet (q : TxQueue) :
    q.sendClientPacketOrReturnToken.1.m_ownAddress = q.m_ownAddress ∧
      notices q.sendClientPacketOrReturnToken.2 = [] := by
  unfold TxQueue.sendClientPacketOrReturnToken
  split
  · exact ⟨rfl, rfl⟩
  · unfold TxQueue.sendClientPacket
    split <;> exact ⟨rfl, rfl⟩

theorem rxCommand_tells {cmd : MessageType} (listening : n.m_txQueue.m_ownAddress.m_addrChangeIf = true)
    (run : n.rxCommand cmd bb stack = some (n', effects)) : Tells n n' effects := by
  cases PacketTypeCodec.rxCommand_handled run with
  | granted =>
    obtain ⟨same, quiet⟩ := sendClientPacketOrReturnToken_quiet n.m_txQueue
    exact tells_quiet listening same quiet
  | kept => exact tells_quiet listening rfl rfl
  | asked =>
    refine tells_quiet listening rfl ?_
    unfold PacketTypeCodec.rxDiscoveryPacket
    split <;> rfl
  | assigned => exact ⟨listening, OwnAddress.notices_set listening _⟩
  | started =>
    refine ⟨?_, OwnAddress.notices_masterStarted listening⟩
    simp only [TxQueue.masterStarted, OwnAddress.masterStarted]
    split <;> exact listening
  | ended =>
    refine tells_quiet listening rfl ?_
    split <;> rfl
  | learned => exact tells_quiet listening rfl rfl
  | ignored => exact tells_quiet listening rfl rfl

theorem deliver_quiet {q : TxQueue} {parts : List Effect} (run : PacketTypeCodec.deliver q bb = some parts) :
    notices parts = [] := by
  obtain ⟨p, _, run⟩ := Option.bind_eq_some_iff.mp run
  dsimp only at run
  split at run <;> cases Option.some.inj run <;> rfl

theorem mapM_deliver_quiet {q : TxQueue} {queued : List ByteVec} {parts : List (List Effect)}
    (run : queued.mapM (PacketTypeCodec.deliver q) = some parts) : notices parts.flatten = [] := by
  induction queued generalizing parts with
  | nil =>
    cases Option.some.inj run
    rfl
  | cons bb rest ih =>
    rw [List.mapM_cons] at run
    obtain ⟨part, first, run⟩ := Option.bind_eq_some_iff.mp run
    obtain ⟨later, all, run⟩ := Option.bind_eq_some_iff.mp run
    cases Option.some.inj run
    rw [List.flatten_cons, notices_append, deliver_quiet first, ih all, List.append_nil]

theorem rxRawPacket_tells (listening : n.m_txQueue.m_ownAddress.m_addrChangeIf = true)
    (run : n.rxRawPacket bb stack = some (n', effects)) : Tells n n' effects := by
  rcases PacketTypeCodec.rxRawPacket_cases run with ⟨rfl, rfl, _⟩ | ⟨cmd, n₁, own, parts, _, command, all, rfl, rfl⟩
  · exact tells_quiet listening rfl rfl
  · obtain ⟨still, told⟩ := rxCommand_tells listening command
    refine ⟨still, ?_⟩
    have master : notices (if n.m_master then [.masterPacketReceived cmd bb] else []) = [] := by
      split <;> rfl
    rw [notices_append, notices_append, master, mapM_deliver_quiet all, List.append_nil, List.append_nil]
    exact told

end Tells

/-! The driver brings the interface up and down -/

namespace HostInterface

/-- The calls when an address becomes valid or stops being so. -/
def change (d : HostInterface) (before after : Bool) : List IfCall :=
  if after = before then [] else .setIfUpDown after d.name :: d.command after

/-- A driver whose interface has followed the address so far, and what it is told next. -/
theorem foldl_news (d : HostInterface) (calls : List IfCall) {before : LocalAddress}
    (follows : d.m_ifUp = decide (before ≠ LocalAddress.null_addr)) (after : LocalAddress) :
    (news before after).foldl (fun s addr => HostNode.hostEffect s (.msgHostRx_newAddr addr)) (d, calls) =
      ({ d with m_ifUp := decide (after ≠ LocalAddress.null_addr) },
        calls ++ d.change d.m_ifUp (decide (after ≠ LocalAddress.null_addr))) := by
  rw [news, change]
  split
  · rename_i same
    rw [same, ← follows]
    simp
  · simp only [List.foldl_cons, List.foldl_nil, HostNode.hostEffect, msgHostRx_newAddr]
    by_cases still : decide (after ≠ LocalAddress.null_addr) = d.m_ifUp
    · simp only [still, ne_eq, not_true_eq_false, if_false, if_true]
    · simp only [still, ne_eq, not_false_eq_true, if_true, if_false]

end HostInterface

namespace HostNode

theorem foldl_hostEffect (effects : List Effect) (s : HostInterface × List IfCall) :
    effects.foldl hostEffect s = (notices effects).foldl (fun s addr => hostEffect s (.msgHostRx_newAddr addr)) s := by
  induction effects generalizing s with
  | nil => rfl
  | cons e rest ih =>
    rw [List.foldl_cons, ih]
    cases e <;> rfl

@[simp] theorem ups_append (first second : List IfCall) : ups (first ++ second) = ups first ++ ups second :=
  List.filterMap_append

theorem ups_change (d : HostInterface) (before after : Bool) :
    ups (d.change before after) = if after = before then [] else [after] := by
  have commands : ups (d.command after) = [] := by
    unfold HostInterface.command
    split
    · rfl
    · split <;> rfl
  rw [HostInterface.change]
  split
  · rfl
  · exact congrArg (after :: ·) commands

/-- The interface has been switched up and down in turn, the first time up. -/
structure InTurn (s : HostNode) : Prop where
  alternate : (false :: ups s.calls).IsChain (· ≠ ·)
  last : (false :: ups s.calls).getLast? = some s.driver.m_ifUp

/-- It is up just while the address is valid. -/
structure Follows (s : HostNode) : Prop where
  listening : s.node.m_txQueue.m_ownAddress.m_addrChangeIf = true
  delivered : s.node.m_rxMsg = []
  follows : s.driver.m_ifUp = decide (s.address ≠ LocalAddress.null_addr)
  inTurn : s.InTurn

/-- The change of the interface that goes with a change of the address. -/
def switched (s : HostNode) (node : PacketTypeCodec) : HostNode :=
  let up := decide (node.m_txQueue.clientAddress ≠ LocalAddress.null_addr)
  ⟨node, { s.driver with m_ifUp := up }, s.calls ++ s.driver.change s.driver.m_ifUp up⟩

theorem after_eq {s : HostNode} (follows : s.driver.m_ifUp = decide (s.address ≠ LocalAddress.null_addr))
    {node : PacketTypeCodec} {effects : List Effect} (tells : Tells s.node node effects) :
    s.after node effects = s.switched node := by
  have told := s.driver.foldl_news s.calls follows node.m_txQueue.clientAddress
  rw [after, foldl_hostEffect, tells.told, ← address, told, switched]

theorem ups_switched (s : HostNode) (node : PacketTypeCodec) :
    ups (s.switched node).calls = ups s.calls ++
      if (s.switched node).driver.m_ifUp = s.driver.m_ifUp then [] else [(s.switched node).driver.m_ifUp] := by
  rw [switched, ups_append, ups_change]

theorem InTurn.switched {s : HostNode} (before : s.InTurn) (node : PacketTypeCodec) : (s.switched node).InTurn := by
  refine ⟨?_, ?_⟩
  · rw [ups_switched]
    split
    · rw [List.append_nil]
      exact before.alternate
    · rename_i changes
      rw [← List.cons_append, List.isChain_append]
      refine ⟨before.alternate, List.isChain_singleton _, ?_⟩
      intro x last y head
      rw [before.last] at last
      cases Option.mem_some.mp last
      cases Option.mem_some.mp head
      exact Ne.symm changes
  · rw [ups_switched]
    split
    · rename_i same
      rw [List.append_nil, before.last, ← same]
    · rw [← List.cons_append, List.getLast?_concat]

/-- Every step is possible, and switches the interface as the address demands. -/
theorem Follows.step {s : HostNode} (before : s.Follows) (input : Input) :
    ∃ node, s.step input = some (s.switched node) ∧ (s.switched node).Follows := by
  cases input with
  | rxRawPacket bb stack =>
    obtain ⟨node, effects, received⟩ := PacketTypeCodec.rxRawPacket_total before.delivered bb stack
    have tells := rxRawPacket_tells before.listening received
    refine ⟨node, ?_, tells.listening, Station.rxRawPacket_rxMsg before.delivered received, rfl,
      before.inTurn.switched node⟩
    rw [HostNode.step, received, ← after_eq before.follows tells]
    rfl
  | setAddress addr =>
    have tells : Tells s.node { s.node with m_txQueue := (s.node.m_txQueue.setAddress addr).1 }
        (s.node.m_txQueue.setAddress addr).2 := ⟨before.listening, OwnAddress.notices_set before.listening addr⟩
    refine ⟨_, ?_, tells.listening, before.delivered, rfl, before.inTurn.switched _⟩
    rw [HostNode.step, ← after_eq before.follows tells]

theorem startTransfer_follows {d : HostInterface} (down : d.m_ifUp = false) (chType : ChannelType) (rxIf : RxIf)
    (dev : String) {n : PacketTypeCodec} (delivered : n.m_rxMsg = []) :
    (startTransfer d chType rxIf dev n).Follows := by
  -- the start is a step from a driver that is down, as for an address that is not valid yet
  generalize queue : (n.m_txQueue.setRxHandler (some rxIf) chType).setAddrUpdateHandler = q
  have listening : q.m_ownAddress.m_addrChangeIf = true := by
    rw [← queue]
    rfl
  have started : startTransfer d chType rxIf dev n =
      HostNode.switched ⟨n, { d with name := dev }, []⟩ { n with m_txQueue := q } := by
    rw [startTransfer, queue, HostNode.switched, HostInterface.msgHostRx_newAddr, HostInterface.change]
    by_cases valid : q.clientAddress = LocalAddress.null_addr
    · simp [valid, down]
    · simp [valid, down]
  rw [started]
  refine ⟨listening, delivered, rfl, InTurn.switched ⟨List.isChain_singleton _, ?_⟩ _⟩
  rw [down]
  rfl

theorem Follows.run {s : HostNode} (before : s.Follows) (inputs : List Input) :
    ∃ s', LabelledReach.follow HostNode.step s inputs = some s' ∧ s'.Follows := by
  induction inputs generalizing s with
  | nil => exact ⟨s, rfl, before⟩
  | cons input rest ih =>
    obtain ⟨node, first, next⟩ := before.step input
    obtain ⟨s', later, last⟩ := ih next
    refine ⟨s', ?_, last⟩
    rw [LabelledReach.follow, first]
    exact later

end HostNode

/-- The two drivers that have an interface. -/
inductive IfType
  | tun
  | tap

/-- A driver that has just been made is started. -/
def IfType.start (kind : IfType) (onUp onDown : String) : RxIf → String → PacketTypeCodec → HostNode :=
  match kind with
  | .tun => TunHostDriver.startTransfer (TunHostDriver.make onUp onDown)
  | .tap => TapHostDriver.startTransfer (TapHostDriver.make onUp onDown)

theorem IfType.start_follows (kind : IfType) (onUp onDown : String) (rxIf : RxIf) (dev : String) {n : PacketTypeCodec}
    (delivered : n.m_rxMsg = []) : (kind.start onUp onDown rxIf dev n).Follows := by
  cases kind with
  | tun => exact HostNode.startTransfer_follows rfl _ rxIf dev delivered
  | tap => exact HostNode.startTransfer_follows rfl _ rxIf dev delivered

open HostNode

/-- Whatever packets the node receives and whatever addresses it is given: its interface is
up just while its address is valid. It is switched in the steps that change this and in no
others, up and down in turn, and a step from one valid address to another makes no call at
all. -/
theorem interface_follows_address (station : Station) (reach : Station.Reach station) (kind : IfType)
    (onUp onDown dev : String) (rxIf : RxIf) (inputs : List Input) :
    ∃ s, LabelledReach.follow HostNode.step (kind.start onUp onDown rxIf dev station.m_node) inputs = some s ∧
      (s.driver.m_ifUp = true ↔ s.address ≠ LocalAddress.null_addr) ∧
      (ups s.calls).IsChain (· ≠ ·) ∧
      ∀ input, ∃ s', s.step input = some s' ∧
        (s'.driver.m_ifUp = true ↔ s'.address ≠ LocalAddress.null_addr) ∧
        (ups s'.calls = ups s.calls ++
          if s.address ≠ LocalAddress.null_addr ↔ s'.address ≠ LocalAddress.null_addr then []
          else [decide (s'.address ≠ LocalAddress.null_addr)]) ∧
        (s.address ≠ LocalAddress.null_addr → s'.address ≠ LocalAddress.null_addr → s'.calls = s.calls) := by
  obtain ⟨s, run, follows⟩ := (kind.start_follows onUp onDown rxIf dev reach.rxMsg_empty).run inputs
  refine ⟨s, run, ?_, follows.inTurn.alternate.tail, ?_⟩
  · rw [follows.follows]
    exact decide_eq_true_iff
  · intro input
    obtain ⟨node, taken, next⟩ := follows.step input
    refine ⟨s.switched node, taken, ?_, ?_, ?_⟩
    · rw [next.follows]
      exact decide_eq_true_iff
    · rw [ups_switched, next.follows, follows.follows]
      congr 1
      simp only [decide_eq_decide]
      exact if_congr Iff.comm rfl rfl
    · intro valid still
      have same : decide (node.m_txQueue.clientAddress ≠ LocalAddress.null_addr) = s.driver.m_ifUp := by
        rw [follows.follows, decide_eq_true valid]
        exact decide_eq_true still
      change s.calls ++ s.driver.change s.driver.m_ifUp _ = s.calls
      rw [same, HostInterface.change, if_pos rfl, List.append_nil]

/-- A client that has no address when its driver is started. -/
def sampleStation : Station :=
  ⟨.initial true, .make (TxQueue.make LocalAddress.null_addr false) ⟨[5, 0, 0, 0, 0, 0, 0, 5], rfl⟩ none false⟩

/-- It gets an address and then another one. The interface is brought up once. -/
theorem interface_follows_client :
    ∃ s, LabelledReach.follow HostNode.step (IfType.tap.start "up" "down" 5 "tap0" sampleStation.m_node)
        [.setAddress 33, .setAddress 34] = some s ∧
      s.driver.m_ifUp = true ∧ s.calls = [.setIfUpDown true "tap0", .system "up"] := by
  obtain ⟨s, run, up, _⟩ := interface_follows_address sampleStation (.start _ _ _ _ _) .tap "up" "down" "tap0" 5
    [.setAddress 33, .setAddress 34]
  have ends : (LabelledReach.follow HostNode.step (IfType.tap.start "up" "down" 5 "tap0" sampleStation.m_node)
      [.setAddress 33, .setAddress 34]).map (fun s => (s.address, s.calls)) =
      some (34, [.setIfUpDown true "tap0", .system "up"]) := by decide
  rw [run] at ends
  obtain ⟨address, calls⟩ := Prod.mk.inj (Option.some.inj ends)
  refine ⟨s, run, up.mpr ?_, calls⟩
  rw [address]
  decide

end SerialNet
