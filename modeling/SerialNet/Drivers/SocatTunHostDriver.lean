import SerialNet.FrameLength
import SerialNet.Reaction

namespace SerialNet

/-- A read ends with the exception for an unexpected length, or writes behind a
buffer. -/
inductive ReadFault
  | unexpectedLength
  | pastEnd
deriving DecidableEq, Repr

namespace SocatTunHostDriver

inductive ReadType
  | header
  | data
deriving DecidableEq, Repr

end SocatTunHostDriver

structure SocatTunHostDriver where
  m_readHeader : ByteVec
  m_rxTunPacket : ByteVec
  m_readType : SocatTunHostDriver.ReadType
deriving DecidableEq, Repr

namespace SocatTunHostDriver

/-- The TUN header and the IPv4 header up to and including the destination. -/
def headerLen : Nat := 4 + 20

def initial (uninitialised : ByteVec) : SocatTunHostDriver := ⟨uninitialised, [], .header⟩

/-- The total length field of the IPv4 header. -/
def getLength (header : ByteVec) : Nat := (header.getD 6 0).toNat * 0x100 + (header.getD 7 0).toNat

/-- The last byte of the IPv4 destination is taken as the local address. -/
def destination (packet : ByteVec) : LocalAddress := packet.getD 23 0

/-- `received` are the bytes `read` has stored. -/
def doRead (d : SocatTunHostDriver) (q : TxQueue) (received : ByteVec) :
    Except ReadFault (SocatTunHostDriver × TxQueue) :=
  match d.m_readType with
  | .header =>
    if received.length = headerLen then
      let m_rxTunPacket := resize d.m_rxTunPacket (getLength received + 4)
      if m_rxTunPacket.length < headerLen then
        .error .pastEnd
      else
        .ok ({ m_readHeader := received, m_rxTunPacket := received ++ m_rxTunPacket.drop headerLen,
               m_readType := .data }, q)
    else
      .error .unexpectedLength
  | .data =>
    let readMaxLen := d.m_rxTunPacket.length - headerLen
    let destAddr := destination d.m_rxTunPacket
    if received.length = readMaxLen then
      let m_rxTunPacket := d.m_rxTunPacket.take headerLen ++ received
      .ok ({ d with m_rxTunPacket, m_readType := .header },
        q.msgHostTx_sendPacket m_rxTunPacket destAddr .tun_format)
    else
      .error .unexpectedLength

/-- An IP packet is read and queued as a whole, whatever its total length. -/
theorem doRead_forwards {d : SocatTunHostDriver} (start : d.m_readType = .header) (q : TxQueue) {header data : ByteVec}
    (sized : header.length = headerLen) (total : getLength header = 20 + data.length) :
    ∃ d₁ d₂, d.doRead q header = .ok (d₁, q) ∧
      d₁.doRead q data = .ok (d₂, q.msgHostTx_sendPacket (header ++ data) (destination header) .tun_format) ∧
      d₂.m_readType = .header := by
  have room : ¬ (resize d.m_rxTunPacket (getLength header + 4)).length < headerLen := by
    rw [length_resize, headerLen]
    omega
  have first : d.doRead q header = .ok (⟨header,
      header ++ (resize d.m_rxTunPacket (getLength header + 4)).drop headerLen, .data⟩, q) := by
    simp only [doRead, start, sized, if_true, room, if_false]
  have rest : (header ++ (resize d.m_rxTunPacket (getLength header + 4)).drop headerLen).length - headerLen =
      data.length := by
    rw [List.length_append, List.length_drop, length_resize, sized, headerLen]
    omega
  have same : destination (header ++ (resize d.m_rxTunPacket (getLength header + 4)).drop headerLen) =
      destination header := by
    have inside : 23 < header.length := by rw [sized]; decide
    simp only [destination, List.getD_eq_getElem?_getD, List.getElem?_append_left inside]
  refine ⟨_, { m_readHeader := header, m_rxTunPacket := header ++ data, m_readType := .header }, first, ?_, rfl⟩
  simp only [doRead, rest, if_true, same]
  rw [List.take_left' sized]

end SocatTunHostDriver

open FrameCodec SocatTunHostDriver

/-- What the next token makes a client send of an IP packet its host has just read. -/
def forwarded (d : SocatTunHostDriver) (q : TxQueue) (header data : ByteVec) : Except ReadFault (List ByteVec) := do
  let (d, q) ← d.doRead q header
  let (_, q) ← d.doRead q data
  .ok (sentBy q.sendClientPacketOrReturnToken.2)

theorem forwarded_length {d : SocatTunHostDriver} (start : d.m_readType = .header) {q : TxQueue}
    (valid : q.m_ownAddress.valid = true) (empty : q.m_txMsg = []) {header data : ByteVec}
    (sized : header.length = headerLen) (total : getLength header = 20 + data.length) :
    ∃ p, forwarded d q header data = .ok [p] ∧ p.length = getLength header + 8 := by
  obtain ⟨d₁, d₂, first, second, _⟩ := doRead_forwards start q sized total
  have queued : q.msgHostTx_sendPacket (header ++ data) (destination header) .tun_format =
      q.sendPacket (header ++ data) (destination header) .tun_format := if_pos valid
  rw [queued] at second
  refine ⟨packet.SendPacket.fromHeader ⟨.tun_format, destination header, q.clientAddress⟩ ++ (header ++ data), ?_, ?_⟩
  · simp only [forwarded, first, second, bind, Except.bind]
    simp [TxQueue.sendClientPacketOrReturnToken, TxQueue.txQueueEmpty, TxQueue.sendClientPacket, TxQueue.sendPacket,
      empty]
  · rw [List.length_append, List.length_append, sized, headerLen, total]
    simp only [packet.SendPacket.fromHeader, List.length_cons, List.length_nil]
    omega

/-- A frame announces the length of its packet exactly when that is at most 16383. For
an IP packet from the host this means a total length of at most 16375. -/
theorem announces_length_iff (c : FrameCodec) (waiting : c.m_state = .getKW) :
    (∀ p, c.lengthRead (MsgToByteAdapter.sendMsg p) = some p.length ↔ p.length ≤ 16383) ∧
    ∀ (d : SocatTunHostDriver) (q : TxQueue) (header data : ByteVec), d.m_readType = .header →
      q.m_ownAddress.valid = true → q.m_txMsg = [] → header.length = headerLen →
      getLength header = 20 + data.length → ∃ p, forwarded d q header data = .ok [p] ∧
        (c.lengthRead (MsgToByteAdapter.sendMsg p) = some p.length ↔ getLength header ≤ 16375) := by
  have any : ∀ p, c.lengthRead (MsgToByteAdapter.sendMsg p) = some p.length ↔ p.length ≤ 16383 := by
    intro p
    rw [MsgToByteAdapter.sendMsg, lengthRead_encodePacket waiting, Option.some.injEq]
    split <;> omega
  refine ⟨any, ?_⟩
  intro d q header data start valid empty sized total
  obtain ⟨p, sent, length⟩ := forwarded_length start valid empty sized total
  refine ⟨p, sent, ?_⟩
  rw [any, length]
  omega

theorem announces_length_two_groups :
    (FrameCodec.initial true).lengthRead (MsgToByteAdapter.sendMsg (List.replicate 300 7)) = some 300 := by
  have length := (announces_length_iff (FrameCodec.initial true) rfl).1 (List.replicate 300 7)
  rw [List.length_replicate] at length
  exact length.mpr (by decide)

/-- A UDP packet of 16376 bytes for the client with address 2. -/
def largeHeader : ByteVec :=
  [0, 0, 8, 0, 0x45, 0, 0x3f, 0xf8, 0, 1, 0, 0, 64, 17, 0, 0, 10, 0, 0, 1, 10, 0, 0, 2]

/-- The client has address 1 and nothing else to send. The frame announces no bytes at
all, and the 16384 bytes of the packet are searched for keywords. -/
theorem large_packet_announces_zero :
    ∃ p, forwarded (SocatTunHostDriver.initial []) (TxQueue.make 1 false) largeHeader (List.replicate 16356 0) =
        .ok [p] ∧
      p.length = 16384 ∧ (FrameCodec.initial true).lengthRead (MsgToByteAdapter.sendMsg p) = some 0 := by
  have total : getLength largeHeader = 16376 := by decide
  have whole : getLength largeHeader = 20 + (List.replicate 16356 (0 : Byte)).length := by
    rw [total, List.length_replicate]
  obtain ⟨p, sent, length⟩ := forwarded_length (d := SocatTunHostDriver.initial []) rfl
    (q := TxQueue.make 1 false) (by decide) rfl (by decide) whole
  rw [total] at length
  refine ⟨p, sent, length, ?_⟩
  rw [MsgToByteAdapter.sendMsg, lengthRead_encodePacket rfl, length]
  rfl

end SerialNet
