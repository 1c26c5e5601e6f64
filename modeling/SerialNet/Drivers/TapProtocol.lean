import SerialNet.PacketTypeCodec

namespace SerialNet

/-! Frames of a TAP device: the Ethernet header follows four bytes of the device, and
the ARP header follows the Ethernet header. -/

namespace TapHeader

def destMAC (frame : ByteVec) : Option MacAddr := slice frame 4 6
def srcMAC (frame : ByteVec) : Option MacAddr := slice frame 10 6
def type (frame : ByteVec) : Option (ByteArr 2) := slice frame 16 2
def ptype (frame : ByteVec) : Option (ByteArr 2) := slice frame 20 2
def oper (frame : ByteVec) : Option (ByteArr 2) := slice frame 24 2

end TapHeader

namespace TapProtocol

/-- What becomes of a packet from the net. -/
inductive Outcome
  | dropped
  | written (data : ByteVec)
  | unexpectedWriteLength
deriving DecidableEq, Repr

def bufSize : Nat := 1600

/-- The buffer after a read. It was cleared when it was made, and the header is read
from it even where the frame is shorter. -/
def buffer (frame : ByteVec) : ByteVec := frame ++ List.replicate (bufSize - frame.length) 0

/-- An ARP message makes the MAC address of its sender known to the net. -/
def checkArp (q : TxQueue) (tap : ByteVec) : Option TxQueue := do
  let type ← TapHeader.type tap
  if type.1 = [0x08, 0x06] then
    let ptype ← TapHeader.ptype tap
    let oper ← TapHeader.oper tap
    if ptype.1 = [0x08, 0x00] ∧ (oper.1 = [0x00, 0x02] ∨ oper.1 = [0x00, 0x01]) then
      let mac ← TapHeader.srcMAC tap
      some (q.msgHostTx_sendMacUpdate mac)
    else
      some q
  else
    some q

/-- `frame` are the bytes `read` has stored. The cache is the one of the node. `none` is
an access outside of the buffer, or to a cache that is not there. -/
def doRead (n : PacketTypeCodec) (frame : ByteVec) : Option PacketTypeCodec := do
  let m_cache ← n.m_cache
  let mySrc ← TapHeader.srcMAC (buffer frame)
  let cache := m_cache.updateMyMAC n.m_txQueue.clientAddress mySrc
  let dest ← TapHeader.destMAC (buffer frame)
  let destAddr := cache.getLocalAddress dest
  if destAddr = LocalAddress.null_addr then
    some { n with m_cache := some cache }
  else
    let q ← checkArp n.m_txQueue (buffer frame)
    some { n with m_cache := some cache, m_txQueue := q.msgHostTx_sendPacket frame destAddr .tap_format }

/-- The first part of `packetReceived`: the sender of a packet is learned if it is not
known. -/
def learnSource (cache : AddressCache) (data : ByteVec) (srcAddr : LocalAddress) : Option AddressCache :=
  if srcAddr ≠ LocalAddress.broadcast ∧ (cache.getMac srcAddr).1 = false then
    (TapHeader.srcMAC data).map (cache.setAddress srcAddr)
  else
    some cache

/-- `writeLen` is what `write` returns. -/
def packetReceived (m_cache : Option AddressCache) (writeLen : Int) (data : ByteVec)
    (srcAddr destAddr : LocalAddress) : Option (Option AddressCache × Outcome) :=
  match m_cache with
  | none => some (none, .dropped)
  | some cache => do
    let cache ← learnSource cache data srcAddr
    if (cache.getMac srcAddr).1 = false ∨ (cache.getMac destAddr).1 = false then
      some (some cache, .dropped)
    else if writeLen = data.length then
      some (some cache, .written data)
    else
      some (some cache, .unexpectedWriteLength)

end TapProtocol

namespace TapHostDriver

/-- A call of the node on the driver that is registered for TAP frames. -/
def hostEffect (writeLen : Int) (s : PacketTypeCodec × List TapProtocol.Outcome) :
    Effect → Option (PacketTypeCodec × List TapProtocol.Outcome)
  | .packetReceivedFromNet rxIf data srcAddr destAddr _ =>
    if s.1.m_txQueue.m_rxIfTap = some rxIf then do
      let (m_cache, outcome) ← TapProtocol.packetReceived s.1.m_cache writeLen data srcAddr destAddr
      some ({ s.1 with m_cache := m_cache }, s.2 ++ [outcome])
    else
      some s
  | _ => some s

/-- A packet from the net, up to the TAP device. -/
def rxRawPacket (n : PacketTypeCodec) (bb : ByteVec) (stack : ChannelType × Crc32) (writeLen : Int) :
    Option (PacketTypeCodec × List TapProtocol.Outcome) := do
  let (n', effects) ← n.rxRawPacket bb stack
  effects.foldlM (hostEffect writeLen) (n', [])

inductive Input
  | rxRawPacket (bb : ByteVec) (stack : ChannelType × Crc32) (writeLen : Int)
  | doRead (frame : ByteVec)

/-- What a node in TAP mode does with a packet from the net or a frame from its host. -/
def step (n : PacketTypeCodec) : Input → Option PacketTypeCodec
  | .rxRawPacket bb stack writeLen => (rxRawPacket n bb stack writeLen).map Prod.fst
  | .doRead frame => TapProtocol.doRead n frame

end TapHostDriver

end SerialNet
