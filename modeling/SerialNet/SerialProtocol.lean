import SerialNet.ByteAdapter

namespace SerialNet

inductive MessageType
  | grant_token
  | return_token
  | master_started
  | master_ended
  | send_packet
  | mac_update
  | address_discovery
  | address_request
  | address_reply
deriving DecidableEq, Repr

def messageType2Byte : MessageType → Byte
  | .grant_token => 0
  | .return_token => 1
  | .master_started => 2
  | .master_ended => 3
  | .send_packet => 4
  | .mac_update => 5
  | .address_discovery => 6
  | .address_request => 7
  | .address_reply => 8

/-- The cast of a byte to the enumeration. Bytes that are none of its values
fall through every `switch`, hence the option. -/
def byte2MessageType (b : Byte) : Option MessageType :=
  if b = 0 then some .grant_token
  else if b = 1 then some .return_token
  else if b = 2 then some .master_started
  else if b = 3 then some .master_ended
  else if b = 4 then some .send_packet
  else if b = 5 then some .mac_update
  else if b = 6 then some .address_discovery
  else if b = 7 then some .address_request
  else if b = 8 then some .address_reply
  else none

@[simp] theorem byte2MessageType_messageType2Byte (t : MessageType) :
    byte2MessageType (messageType2Byte t) = some t := by
  cases t <;> rfl

/-- One byte addresses: 0 is no address, 255 is everybody. -/
abbrev LocalAddress := Byte

def LocalAddress.null_addr : LocalAddress := 0
def LocalAddress.broadcast : LocalAddress := 0xff

def toLocalAddress (i : Nat) : LocalAddress := UInt8.ofNat i

/-- `enum class ChannelType : uint8_t`. On the wire it can be any byte. -/
structure ChannelType where
  toByte : Byte
deriving DecidableEq, Repr

def ChannelType.illegal_type : ChannelType := ⟨0⟩
def ChannelType.raw_stream : ChannelType := ⟨1⟩
def ChannelType.tun_format : ChannelType := ⟨2⟩
def ChannelType.tap_format : ChannelType := ⟨3⟩

/-- `std::array<gsl::byte, n>` -/
abbrev ByteArr (n : Nat) := { bytes : ByteVec // bytes.length = n }

abbrev UniqueId := ByteArr 8
abbrev Crc32 := ByteArr 4
abbrev MacAddr := ByteArr 6

/-- `n` bytes starting at an offset; `none` is a read past the end. -/
def slice (bb : ByteVec) (offset n : Nat) : Option (ByteArr n) :=
  if inside : ((bb.drop offset).take n).length = n then some ⟨_, inside⟩ else none

/-! The packet headers. Every field is one byte or an array of bytes, so that the
memory image `fromHeader` sends is the list of the fields in order. -/

namespace packet

structure GrantToken where
  m_tokenReceiver : LocalAddress
deriving DecidableEq, Repr

structure ReturnToken where
  m_src : LocalAddress
deriving DecidableEq, Repr

structure SendPacket where
  m_chType : ChannelType
  m_destAddr : LocalAddress
  m_srcAddr : LocalAddress
deriving DecidableEq, Repr

structure MacUpdate where
  m_destAddr : LocalAddress
  m_srcAddr : LocalAddress
  m_hintAddr : LocalAddress
  m_mac : MacAddr
deriving DecidableEq, Repr

structure AddressDiscovery where
  m_randomDelay : Byte
  m_randomHoldOff : Byte
deriving DecidableEq, Repr

structure AddressRequest where
  m_uniqueId : UniqueId
  m_channelType : ChannelType
  m_crc32 : Crc32
deriving DecidableEq, Repr

structure AddressReply where
  m_assigned : LocalAddress
  m_uniqueId : UniqueId
deriving DecidableEq, Repr

def sizeof : MessageType → Nat
  | .grant_token => 2
  | .return_token => 2
  | .master_started => 1
  | .master_ended => 1
  | .send_packet => 4
  | .mac_update => 10
  | .address_discovery => 3
  | .address_request => 14
  | .address_reply => 10

def GrantToken.fromHeader (p : GrantToken) : ByteVec :=
  [messageType2Byte .grant_token, p.m_tokenReceiver]

def ReturnToken.fromHeader (p : ReturnToken) : ByteVec :=
  [messageType2Byte .return_token, p.m_src]

def masterStarted : ByteVec := [messageType2Byte .master_started]

def masterEnded : ByteVec := [messageType2Byte .master_ended]

def SendPacket.fromHeader (p : SendPacket) : ByteVec :=
  [messageType2Byte .send_packet, p.m_chType.toByte, p.m_destAddr, p.m_srcAddr]

def MacUpdate.fromHeader (p : MacUpdate) : ByteVec :=
  [messageType2Byte .mac_update, p.m_destAddr, p.m_srcAddr, p.m_hintAddr] ++ p.m_mac.1

def AddressDiscovery.fromHeader (p : AddressDiscovery) : ByteVec :=
  [messageType2Byte .address_discovery, p.m_randomDelay, p.m_randomHoldOff]

def AddressRequest.fromHeader (p : AddressRequest) : ByteVec :=
  [messageType2Byte .address_request] ++ (p.m_uniqueId.1 ++ (p.m_channelType.toByte :: p.m_crc32.1))

def AddressReply.fromHeader (p : AddressReply) : ByteVec :=
  [messageType2Byte .address_reply, p.m_assigned] ++ p.m_uniqueId.1

/-! The other direction: `toHeader` overlays the struct on the received bytes. It
fails where the assertion on the size fails. -/

def GrantToken.toHeader (bb : ByteVec) : Option GrantToken := do
  some { m_tokenReceiver := ← bb[1]? }

def SendPacket.toHeader (bb : ByteVec) : Option SendPacket := do
  some { m_chType := ⟨← bb[1]?⟩, m_destAddr := ← bb[2]?, m_srcAddr := ← bb[3]? }

def AddressDiscovery.toHeader (bb : ByteVec) : Option AddressDiscovery := do
  some { m_randomDelay := ← bb[1]?, m_randomHoldOff := ← bb[2]? }

def AddressRequest.toHeader (bb : ByteVec) : Option AddressRequest := do
  some { m_uniqueId := ← slice bb 1 8, m_channelType := ⟨← bb[9]?⟩, m_crc32 := ← slice bb 10 4 }

def AddressReply.toHeader (bb : ByteVec) : Option AddressReply := do
  some { m_assigned := ← bb[1]?, m_uniqueId := ← slice bb 2 8 }

@[simp] theorem GrantToken.toHeader_fromHeader (p : GrantToken) :
    GrantToken.toHeader p.fromHeader = some p := rfl

@[simp] theorem SendPacket.toHeader_fromHeader (p : SendPacket) (data : ByteVec) :
    SendPacket.toHeader (p.fromHeader ++ data) = some p := rfl

@[simp] theorem AddressDiscovery.toHeader_fromHeader (p : AddressDiscovery) :
    AddressDiscovery.toHeader p.fromHeader = some p := rfl

@[simp] theorem AddressReply.toHeader_fromHeader (p : AddressReply) :
    AddressReply.toHeader p.fromHeader = some p := by
  obtain ⟨assigned, id, length⟩ := p
  match id, length with
  | [_, _, _, _, _, _, _, _], _ => rfl

@[simp] theorem AddressRequest.toHeader_fromHeader (p : AddressRequest) :
    AddressRequest.toHeader p.fromHeader = some p := by
  obtain ⟨⟨id, length⟩, channel, ⟨crc, crcLength⟩⟩ := p
  match id, length, crc, crcLength with
  | [_, _, _, _, _, _, _, _], _, [_, _, _, _], _ => rfl

end packet

/-- The length test every received packet has to pass before it is looked at. -/
def longEnough (packet : ByteVec) : Bool :=
  match packet with
  | [] => false
  | b :: _ =>
    match byte2MessageType b with
    | none => false
    | some cmd => SerialNet.packet.sizeof cmd ≤ packet.length

end SerialNet
