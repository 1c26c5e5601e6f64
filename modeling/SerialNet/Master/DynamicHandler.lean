import SerialNet.TimeService
import SerialNet.Master.Scheduler

namespace SerialNet

/-- The configured address ranges. -/
structure Config where
  staticLowAddress : Nat := 1
  staticHighAddress : Nat := 3
  dynamicLowAddress : Nat := 33
  dynamicHighAddress : Nat := 48
deriving DecidableEq, Repr

namespace Config

def masterTokenGrantTx2RxTime : ℚ := 1 / 10
def masterTokenClientTimeout : ℚ := 2 / 25
def addrDelayTokenPacketSent : ℚ := 1 / 10000
def addrDelayTokenTimeout : ℚ := 10
def addrDelayFreeAddress : ℚ := 30
def addrDelayTokenReturn : ℚ := 1 / 10
def addrQueryPeriod : ℚ := 5

def staticAddresses (cfg : Config) : List Nat :=
  List.range' cfg.staticLowAddress (cfg.staticHighAddress + 1 - cfg.staticLowAddress)

def dynamicAddresses (cfg : Config) : List Nat :=
  List.range' cfg.dynamicLowAddress (cfg.dynamicHighAddress + 1 - cfg.dynamicLowAddress)

end Config

namespace AddressLine

inductive State
  | active
  | idle
  | badClient
  | free
deriving DecidableEq, Repr

end AddressLine

/-- One row of the address table. The timeouts in a row are taken to be few enough for an `int`. -/
structure AddressLine where
  m_state : AddressLine.State
  m_badCount : Nat
  m_address : LocalAddress
  m_isDynamic : Bool
  m_uniqueId : UniqueId
  m_channelType : ChannelType
deriving DecidableEq

namespace AddressLine

/-- The line of a static address. Its constructor does not set `m_uniqueId`, which
keeps whatever bytes were there. -/
def static (addr : LocalAddress) (uninitialised : UniqueId) : AddressLine :=
  ⟨.free, 0, addr, false, uninitialised, .illegal_type⟩

def dynamic (addr : LocalAddress) (uid : UniqueId) (ct : ChannelType) : AddressLine :=
  ⟨.idle, 0, addr, true, uid, ct⟩

def removeDynamic (l : AddressLine) : Bool := l.m_isDynamic ∧ l.m_state = .free

def setState (l : AddressLine) (st : State) : AddressLine :=
  let m_badCount := if st = .badClient then l.m_badCount + 1 else 0
  { l with m_badCount, m_state := if m_badCount > 3 then .free else st }

@[simp] theorem setState_address (l : AddressLine) (st : State) : (l.setState st).m_address = l.m_address := rfl

@[simp] theorem setState_isDynamic (l : AddressLine) (st : State) :
    (l.setState st).m_isDynamic = l.m_isDynamic := rfl

@[simp] theorem setState_uniqueId (l : AddressLine) (st : State) :
    (l.setState st).m_uniqueId = l.m_uniqueId := rfl

end AddressLine

/-- The calls the dynamic handler makes on the action handler and on the
transmitter of the master. -/
inductive DynamicCall
  | postActionNow (a : Action)
  | postAction (a : Action) (time : ℚ)
  | sendAddressReply (addr : LocalAddress) (id : UniqueId)
deriving DecidableEq

/-- `m_freeAddresses` is a stack with its top at the end. -/
structure DynamicHandler where
  m_freeAddresses : List LocalAddress
  m_table : List AddressLine
  m_timer : Timer ℚ
deriving DecidableEq

namespace DynamicHandler

def start (cfg : Config) (uninitialised : Nat → UniqueId) : DynamicHandler × List DynamicCall :=
  ({ m_freeAddresses := cfg.dynamicAddresses.reverse.map toLocalAddress
     m_table := cfg.staticAddresses.map fun i => .static (toLocalAddress i) (uninitialised i)
     m_timer := .unset },
    (cfg.staticAddresses.map fun i => .postActionNow (.makeSendTokenAction (toLocalAddress i))) ++
      [.postActionNow .makeQueryAddressAction])

/-- `findLine` for a unique id: the first line with it. -/
def findLineById (dh : DynamicHandler) (id : UniqueId) : Option AddressLine :=
  dh.m_table.find? fun el => el.m_uniqueId = id

/-- `findLine` for an address, as the offset of the line in the table. -/
def findLine (dh : DynamicHandler) (address : LocalAddress) : Option Nat :=
  dh.m_table.findIdx? fun el => address = el.m_address

def receivedAddressRequest (dh : DynamicHandler) (aReq : packet.AddressRequest) :
    DynamicHandler × List DynamicCall :=
  match dh.findLineById aReq.m_uniqueId with
  | some addrLine => (dh, [.sendAddressReply addrLine.m_address aReq.m_uniqueId])
  | none =>
    match dh.m_freeAddresses.getLast? with
    | none => (dh, [])
    | some localAddr =>
      ({ dh with
          m_freeAddresses := dh.m_freeAddresses.dropLast
          m_table := dh.m_table ++ [.dynamic localAddr aReq.m_uniqueId aReq.m_channelType] },
        [.postActionNow (.makeSendTokenAction localAddr), .sendAddressReply localAddr aReq.m_uniqueId])

def nextTime (now : ℚ) : AddressLine.State → ℚ
  | .active => now + Config.addrDelayTokenPacketSent
  | .idle => now + Config.addrDelayTokenReturn
  | .badClient => now + Config.addrDelayTokenTimeout
  | .free => now + Config.addrDelayFreeAddress

/-- `none` is the null pointer `findLine` returns for an address without a line. -/
def updateAddressLine (dh : DynamicHandler) (now : ℚ) (addr : LocalAddress)
    (newState : AddressLine.State) : Option (DynamicHandler × List DynamicCall) := do
  let offset ← dh.findLine addr
  let line := (← dh.m_table[offset]?).setState newState
  if line.removeDynamic then
    some ({ dh with
      m_freeAddresses := dh.m_freeAddresses ++ [line.m_address]
      m_table := dh.m_table.eraseIdx offset }, [])
  else
    some ({ dh with m_table := dh.m_table.set offset line },
      [.postAction (.makeSendTokenAction addr) (nextTime now line.m_state)])

def addressDiscoveryIsDone (dh : DynamicHandler) (now : ℚ) : DynamicHandler :=
  { dh with m_timer := dh.m_timer.assign (now + Config.addrQueryPeriod) }

end DynamicHandler

end SerialNet
