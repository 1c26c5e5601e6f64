import SerialNet.AddressCache

namespace SerialNet

/-- A driver that has registered for received packets. -/
abbrev RxIf := Nat

/-- The calls a node makes on the objects around it. -/
inductive Effect
  | sendMsg (msg : ByteVec)
  | packetReceivedFromNet (rxIf : RxIf) (data : ByteVec) (srcAddr destAddr : LocalAddress)
      (chType : ChannelType)
  | msgHostRx_newAddr (addr : LocalAddress)
  | masterEnded
  | masterPacketReceived (type : MessageType) (packet : ByteVec)
deriving DecidableEq, Repr

/-- `m_dynamic` is fixed at construction: no address then means that one is to be
asked for. `m_addrChangeIf` records whether somebody listens for changes. -/
structure OwnAddress where
  m_addr : LocalAddress
  m_dynamic : Bool
  m_addrChangeIf : Bool
deriving DecidableEq, Repr

namespace OwnAddress

def make (la : LocalAddress) (addrChangeIf : Bool) : OwnAddress :=
  ⟨la, la = LocalAddress.null_addr, addrChangeIf⟩

def valid (o : OwnAddress) : Bool := o.m_addr ≠ LocalAddress.null_addr

def set (o : OwnAddress) (addr : LocalAddress) : OwnAddress × List Effect :=
  ({ o with m_addr := addr },
    if o.m_addrChangeIf ∧ o.m_addr ≠ addr then [.msgHostRx_newAddr addr] else [])

def masterStarted (o : OwnAddress) : OwnAddress × List Effect :=
  if o.m_dynamic then o.set LocalAddress.null_addr else (o, [])

end OwnAddress

/-- The packets waiting for the token, and everything else a node sends. -/
structure TxQueue where
  m_txMsg : List ByteVec
  m_ownAddress : OwnAddress
  m_rxIfRaw : Option RxIf
  m_rxIfTap : Option RxIf
  m_rxIfTun : Option RxIf
deriving DecidableEq, Repr

namespace TxQueue

def make (ownAddr : LocalAddress) (addrChangeIf : Bool) : TxQueue :=
  ⟨[], .make ownAddr addrChangeIf, none, none, none⟩

def clientAddress (q : TxQueue) : LocalAddress := q.m_ownAddress.m_addr

def txQueueEmpty (q : TxQueue) : Bool := q.m_txMsg.isEmpty

def setAddress (q : TxQueue) (addr : LocalAddress) : TxQueue × List Effect :=
  let changed := q.m_ownAddress.set addr
  ({ q with m_ownAddress := changed.1 }, changed.2)

def masterStarted (q : TxQueue) : TxQueue × List Effect :=
  let changed := q.m_ownAddress.masterStarted
  ({ q with m_ownAddress := changed.1 }, changed.2)

def sendPacket (q : TxQueue) (data : ByteVec) (destAddress : LocalAddress) (chType : ChannelType) : TxQueue :=
  let header : packet.SendPacket :=
    { m_chType := chType, m_destAddr := destAddress, m_srcAddr := q.clientAddress }
  { q with m_txMsg := q.m_txMsg ++ [header.fromHeader ++ data] }

/-- The token is ours: the front packet goes out. Callers see to it that there
is one. -/
def sendClientPacket (q : TxQueue) : TxQueue × List Effect :=
  match q.m_txMsg with
  | [] => (q, [])
  | packet :: rest => ({ q with m_txMsg := rest }, [.sendMsg packet])

def sendReturnToken (q : TxQueue) : List Effect :=
  [.sendMsg (packet.ReturnToken.fromHeader ⟨q.clientAddress⟩)]

def sendClientPacketOrReturnToken (q : TxQueue) : TxQueue × List Effect :=
  if q.txQueueEmpty then (q, q.sendReturnToken) else q.sendClientPacket

def msgHostTx_sendPacket (q : TxQueue) (data : ByteVec) (destAddr : LocalAddress)
    (chType : ChannelType) : TxQueue :=
  if q.m_ownAddress.valid then q.sendPacket data destAddr chType else q

def msgHostTx_sendMacUpdate (q : TxQueue) (mac : MacAddr) : TxQueue :=
  if ¬ q.m_ownAddress.valid then q
  else
    let p : packet.MacUpdate :=
      { m_destAddr := LocalAddress.broadcast, m_srcAddr := q.clientAddress,
        m_hintAddr := q.clientAddress, m_mac := mac }
    { q with m_txMsg := q.m_txMsg ++ [p.fromHeader] }

def setRxHandler (q : TxQueue) (rxIf : Option RxIf) (chType : ChannelType) : TxQueue :=
  if chType = .raw_stream then { q with m_rxIfRaw := rxIf }
  else if chType = .tap_format then { q with m_rxIfTap := rxIf }
  else if chType = .tun_format then { q with m_rxIfTun := rxIf }
  else q

def getRxIf (q : TxQueue) (chType : ChannelType) : Option RxIf :=
  if chType = .raw_stream then q.m_rxIfRaw
  else if chType = .tap_format then q.m_rxIfTap
  else if chType = .tun_format then q.m_rxIfTun
  else none

end TxQueue

end SerialNet
