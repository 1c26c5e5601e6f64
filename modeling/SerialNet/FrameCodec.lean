import SerialNet.Lib.Mealy

namespace SerialNet

abbrev Byte := UInt8
abbrev ByteVec := List Byte

/-- `std::vector::resize`: cut off, or pad with zero bytes. -/
def resize (v : ByteVec) (n : Nat) : ByteVec := v.take n ++ List.replicate (n - v.length) 0

@[simp] theorem length_resize (v : ByteVec) (n : Nat) : (resize v n).length = n := by
  simp only [resize, List.length_append, List.length_take, List.length_replicate]
  omega

inductive DecodeState
  | getKW
  | getLen
  | getData
  | getChecksum
  | getFiller
deriving DecidableEq, Repr

/-- The frame encoder and decoder. `m_decodeCB` records whether a receiver is
registered; the packets handed to it are the outputs of `decodeByte`. `m_length`
and `m_index` are 64 bit `size_t` values. -/
structure FrameCodec where
  m_decodeCB : Bool
  m_decodePacket : ByteVec
  m_state : DecodeState
  m_length : Nat
  m_index : Nat
  m_checksum : Byte
deriving DecidableEq, Repr

namespace FrameCodec

def keyword : Byte := 0xfd

/-- The decoder as its constructor leaves it. -/
def initial (decodeCB : Bool) : FrameCodec where
  m_decodeCB := decodeCB
  m_decodePacket := []
  m_state := .getKW
  m_length := 0
  m_index := 0
  m_checksum := 0

/-- The running checksum: every byte is xored into it. -/
def checksum (start : Byte) (bytes : ByteVec) : Byte := bytes.foldl (· ^^^ ·) start

/-- Keyword and length field. A length of 128 or more takes two bytes, of
which only 14 bits survive. -/
def frameHeader (dataLen : Nat) : ByteVec :=
  if dataLen < 0x80 then
    [keyword, UInt8.ofNat dataLen]
  else
    [keyword, UInt8.ofNat (((dataLen >>> 7) &&& 0x7f) ||| 0x80), UInt8.ofNat (dataLen &&& 0x7f)]

def encodePacket (data : ByteVec) : ByteVec :=
  let header := frameHeader data.length
  header ++ data ++ [checksum (checksum 0 header) data, 0xff]

/-- One received byte. Memory for the announced length is taken to be
available: where `resize` throws, nothing further is decoded. -/
def decodeByte (c : FrameCodec) (curByte : Byte) : FrameCodec × List ByteVec :=
  match c.m_state with
  | .getKW =>
    if curByte = keyword then
      ({ c with m_checksum := keyword, m_state := .getLen, m_length := 0 }, [])
    else
      (c, [])
  | .getLen =>
    let m_checksum := c.m_checksum ^^^ curByte
    let m_length := c.m_length ||| (curByte &&& 0x7f).toNat
    if curByte &&& 0x80 ≠ 0 then
      ({ c with m_checksum, m_length := (m_length <<< 7) % 2 ^ 64 }, [])
    else
      ({ c with m_checksum, m_length, m_index := 0, m_state := .getData,
                m_decodePacket := resize c.m_decodePacket m_length }, [])
  | .getData =>
    let m_checksum := c.m_checksum ^^^ curByte
    let m_decodePacket := c.m_decodePacket.set c.m_index curByte
    let m_index := (c.m_index + 1) % 2 ^ 64
    if m_index = c.m_length then
      ({ c with m_checksum, m_decodePacket, m_index, m_state := .getChecksum }, [])
    else
      ({ c with m_checksum, m_decodePacket, m_index }, [])
  | .getChecksum => ({ c with m_checksum := c.m_checksum ^^^ curByte, m_state := .getFiller }, [])
  | .getFiller =>
    ({ c with m_state := .getKW },
      if c.m_checksum = 0 ∧ c.m_decodeCB then [c.m_decodePacket.take c.m_length] else [])

def receiveData (c : FrameCodec) (data : ByteVec) : FrameCodec × List ByteVec :=
  Mealy.run decodeByte c data

def rxInProgress (c : FrameCodec) : Bool := c.m_state ≠ .getKW

def reset (c : FrameCodec) : FrameCodec := { c with m_state := .getKW }

theorem decodeByte_getData {c : FrameCodec} (reading : c.m_state = .getData)
    (bound : c.m_index + 1 < 2 ^ 64) (b : Byte) :
    c.decodeByte b =
      ({ c with m_checksum := c.m_checksum ^^^ b, m_decodePacket := c.m_decodePacket.set c.m_index b,
                m_index := c.m_index + 1,
                m_state := if c.m_index + 1 = c.m_length then .getChecksum else .getData }, []) := by
  simp only [decodeByte, reading, Nat.mod_eq_of_lt bound]
  split <;> rfl

end FrameCodec

end SerialNet
