import SerialNet.Drivers.SocatTunHostDriver
import SerialNet.Lib.Reach
import SerialNet.Lib.Span

namespace SerialNet

open SocatTunHostDriver Span

/-- A packet for `msgHostTx_sendPacket`, which the TUN drivers always send in their own
format. -/
structure HostPkt where
  data : ByteVec
  destAddr : LocalAddress
deriving DecidableEq

def HostPkt.send (q : TxQueue) (p : HostPkt) : TxQueue := q.msgHostTx_sendPacket p.data p.destAddr .tun_format

namespace TunProtocol

def buffLen : Nat := 2048

/-- The packet that is submitted once `read` has stored the bytes `received` in front of what
the stack holds anyway. A read that fails ends like one that is too short. -/
def doRead2 (behind : Nat → Byte) (received : ByteVec) : Except ReadFault HostPkt :=
  if received.length < headerLen then
    .error .unexpectedLength
  else
    .ok { data := span behind received (getLength received + 4), destAddr := destination received }

theorem doRead2_inside_iff (behind : Nat → Byte) (received : ByteVec) :
    (∀ p, doRead2 behind received = .ok p → p.data <+: received) ↔
      (headerLen ≤ received.length → getLength received + 4 ≤ received.length) := by
  by_cases short : received.length < headerLen
  · refine iff_of_true ?_ ?_
    · intro p run
      rw [doRead2, if_pos short] at run
      cases run
    · intro long
      omega
  · rw [doRead2, if_neg short]
    simp only [Except.ok.injEq, forall_eq']
    rw [span_isPrefix_iff]
    exact ⟨fun inside _ => inside, fun inside => inside (Nat.le_of_not_lt short)⟩

end TunProtocol

/-! What the reader of the socat pipe does with its buffers -/

namespace SocatTunHostDriver

/-- A number of bytes is copied to the start of a buffer, or asked of `read` for a place in
one. -/
inductive Access
  | copy (count size : Nat)
  | read (offset : Nat) (count : Int) (size : Nat)

def Access.Inside : Access → Prop
  | .copy count size => count ≤ size
  | .read offset count size => 0 ≤ count ∧ offset + count ≤ size

/-- The accesses of one call of `doRead`, in which `read` returns `received`. -/
def accesses (d : SocatTunHostDriver) (received : ByteVec) : List Access :=
  match d.m_readType with
  | .header =>
    .read 0 headerLen headerLen ::
      if received.length = headerLen then
        [.copy headerLen (resize d.m_rxTunPacket (getLength received + 4)).length]
      else
        []
  | .data => [.read headerLen (d.m_rxTunPacket.length - headerLen) d.m_rxTunPacket.length]

/-- The calls of `doRead` until an exception ends the program. -/
def next (s : SocatTunHostDriver × TxQueue) (received : ByteVec) : Option (SocatTunHostDriver × TxQueue) :=
  (s.1.doRead s.2 received).toOption

/-- A buffer that waits for its data holds a header. -/
def Sized (d : SocatTunHostDriver) : Prop := d.m_readType = .data → headerLen ≤ d.m_rxTunPacket.length

variable {d d' : SocatTunHostDriver} {q q' : TxQueue} {received : ByteVec}

theorem doRead_cases (run : d.doRead q received = .ok (d', q')) :
    (d.m_readType = .header ∧ received.length = headerLen ∧ 20 ≤ getLength received ∧ q' = q ∧
      d' = ⟨received, received ++ (resize d.m_rxTunPacket (getLength received + 4)).drop headerLen, .data⟩) ∨
    (d.m_readType = .data ∧ received.length = d.m_rxTunPacket.length - headerLen ∧
      q' = HostPkt.send q ⟨d.m_rxTunPacket.take headerLen ++ received, destination d.m_rxTunPacket⟩ ∧
      d' = ⟨d.m_readHeader, d.m_rxTunPacket.take headerLen ++ received, .header⟩) := by
  cases type : d.m_readType with
  | header =>
    simp only [doRead, type] at run
    split at run
    · rename_i whole
      split at run
      · cases run
      · rename_i room
        rw [length_resize, headerLen] at room
        cases run
        exact Or.inl ⟨rfl, whole, by omega, rfl, rfl⟩
    · cases run
  | data =>
    simp only [doRead, type] at run
    split at run
    · rename_i whole
      cases run
      exact Or.inr ⟨rfl, whole, rfl, rfl⟩
    · cases run

theorem doRead_sized (run : d.doRead q received = .ok (d', q')) : d'.Sized := by
  intro type
  rcases doRead_cases run with ⟨_, whole, _, _, rfl⟩ | ⟨_, _, _, rfl⟩
  · rw [List.length_append, whole]
    omega
  · cases type

theorem accesses_inside_iff (sized : d.Sized) (received : ByteVec) :
    (∀ a ∈ d.accesses received, a.Inside) ↔
      (d.m_readType = .header → received.length = headerLen → 20 ≤ getLength received) := by
  have size : headerLen = 24 := rfl
  cases type : d.m_readType with
  | header =>
    simp only [accesses, type, List.mem_cons, forall_eq_or_imp, forall_true_left]
    by_cases whole : received.length = headerLen
    · simp only [whole, if_true, List.mem_singleton, forall_eq, Access.Inside, length_resize, forall_true_left]
      omega
    · simp [whole, Access.Inside]
  | data =>
    have room := sized type
    simp only [accesses, type, List.mem_singleton, forall_eq, Access.Inside, reduceCtorEq, false_implies, iff_true]
    omega

theorem run_sized {start s : SocatTunHostDriver × TxQueue} {reads : List ByteVec} (initial : start.1.Sized)
    (run : LabelledReach.follow next start reads = some s) : s.1.Sized := by
  refine LabelledReach.follow_invariant (P := fun s => s.1.Sized) initial ?_ run
  rintro s ⟨d', q'⟩ received _ taken
  cases read : s.1.doRead s.2 received with
  | error fault =>
    rw [next, read] at taken
    cases taken
  | ok t =>
    rw [next, read] at taken
    cases Option.some.inj taken
    exact doRead_sized read

end SocatTunHostDriver

/-- The TUN readers stay inside what they have read and inside their buffers if and only if
the total length of every packet fits: it is no more than what a read of the device has
returned, and at least that of a header on the pipe. -/
theorem tun_readers_inside_iff (behind : Nat → Byte) (received uninitialised : ByteVec) (q : TxQueue)
    (reads : List ByteVec) :
    ((∀ p, TunProtocol.doRead2 behind received = .ok p → p.data <+: received) ↔
      (headerLen ≤ received.length → getLength received + 4 ≤ received.length)) ∧
    ((∀ before received, before ++ [received] <+: reads →
        ∀ s, LabelledReach.follow next (SocatTunHostDriver.initial uninitialised, q) before = some s →
        ∀ a ∈ s.1.accesses received, a.Inside) ↔
      ∀ before received, before ++ [received] <+: reads →
        ∀ s, LabelledReach.follow next (SocatTunHostDriver.initial uninitialised, q) before = some s →
        s.1.m_readType = .header → received.length = headerLen → 20 ≤ getLength received) := by
  refine ⟨TunProtocol.doRead2_inside_iff behind received, ?_⟩
  have sized : (SocatTunHostDriver.initial uninitialised).Sized := by
    rintro ⟨⟩
  constructor
  · intro inside before received split s run
    exact (accesses_inside_iff (run_sized sized run) received).mp (inside before received split s run)
  · intro fits before received split s run
    exact (accesses_inside_iff (run_sized sized run) received).mpr (fits before received split s run)

/-- The header of a UDP packet of 100 bytes. -/
def sampleHeader : ByteVec := [0, 0, 8, 0, 0x45, 0, 0, 100, 0, 1, 0, 0, 64, 17, 0, 0, 10, 0, 0, 1, 10, 0, 0, 2]

/-- If the device returns no more of it, the driver submits 80 bytes that were not read. A
header of zeros on the pipe is copied to a buffer of 4 bytes. -/
theorem tun_readers_outside :
    (∃ p, TunProtocol.doRead2 (fun _ => 0) sampleHeader = .ok p ∧ p.data.length = 104 ∧ ¬ p.data <+: sampleHeader) ∧
    ∃ a ∈ (SocatTunHostDriver.initial (List.replicate 24 0)).accesses (List.replicate 24 0),
      a = .copy 24 4 ∧ ¬ a.Inside := by
  refine ⟨⟨_, rfl, by decide, ?_⟩, .copy 24 4, ?_, rfl, ?_⟩
  · rw [span_isPrefix_iff]
    decide
  · exact List.mem_cons_of_mem _ (List.mem_singleton_self _)
  · change ¬ 24 ≤ 4
    decide

/-! The two readers, packet by packet -/

/-- An IPv4 packet behind its TUN header, as long as it says it is. -/
structure TunPacket where
  bytes : ByteVec
  minimal : 20 ≤ getLength bytes
  maximal : getLength bytes ≤ 2044
  whole : bytes.length = getLength bytes + 4

namespace SocatTunHostDriver

/-- How many bytes the next call of `doRead` asks for. -/
def readMaxLen (d : SocatTunHostDriver) : Nat :=
  match d.m_readType with
  | .header => headerLen
  | .data => d.m_rxTunPacket.length - headerLen

/-- The packets that a call of `doRead` submits. -/
def submitted (d : SocatTunHostDriver) (received : ByteVec) : List HostPkt :=
  match d.m_readType with
  | .header => []
  | .data => [⟨d.m_rxTunPacket.take headerLen ++ received, destination d.m_rxTunPacket⟩]

theorem doRead_submitted {d d' : SocatTunHostDriver} {q q' : TxQueue} {received : ByteVec}
    (run : d.doRead q received = .ok (d', q')) : q' = (d.submitted received).foldl HostPkt.send q := by
  rcases doRead_cases run with ⟨type, _, _, rfl, _⟩ | ⟨type, _, rfl, _⟩
  · rw [submitted, type]
    rfl
  · rw [submitted, type]
    rfl

/-- A number of calls of `doRead` on a stream of bytes, in which each read returns as many
bytes as it is asked for. What is left of the stream follows, and the packets submitted. -/
def readStream (d : SocatTunHostDriver) (q : TxQueue) (stream : ByteVec) :
    Nat → Except ReadFault (SocatTunHostDriver × TxQueue × ByteVec × List HostPkt)
  | 0 => .ok (d, q, stream, [])
  | calls + 1 => do
    let received := stream.take d.readMaxLen
    let (d', q') ← d.doRead q received
    let (d'', q'', rest, pkts) ← readStream d' q' (stream.drop d.readMaxLen) calls
    .ok (d'', q'', rest, d.submitted received ++ pkts)

/-- The queue gets just the packets that are submitted. -/
theorem readStream_queue {d d' : SocatTunHostDriver} {q q' : TxQueue} {stream rest : ByteVec} {pkts : List HostPkt}
    {calls : Nat} (run : readStream d q stream calls = .ok (d', q', rest, pkts)) :
    q' = pkts.foldl HostPkt.send q := by
  induction calls generalizing d q stream pkts with
  | zero =>
    cases run
    rfl
  | succ calls ih =>
    obtain ⟨⟨d₁, q₁⟩, first, run⟩ := Except.bind_eq_ok_iff.mp run
    obtain ⟨⟨d₂, q₂, rest₂, later⟩, last, run⟩ := Except.bind_eq_ok_iff.mp run
    cases run
    rw [List.foldl_append, ← doRead_submitted first]
    exact ih last

theorem readStream_succ {d d' d'' : SocatTunHostDriver} {q q' q'' : TxQueue} {received stream rest : ByteVec}
    {pkts : List HostPkt} {calls : Nat} (asked : received.length = d.readMaxLen)
    (first : d.doRead q received = .ok (d', q')) (later : readStream d' q' stream calls = .ok (d'', q'', rest, pkts)) :
    readStream d q (received ++ stream) (calls + 1) = .ok (d'', q'', rest, d.submitted received ++ pkts) := by
  rw [readStream, List.take_left' asked, List.drop_left' asked, first]
  simp only [bind, Except.bind, later]

/-- The two calls that read a packet, whatever the buffer held before. -/
theorem doRead_packet {d : SocatTunHostDriver} (start : d.m_readType = .header) (q : TxQueue) {header data : ByteVec}
    (sized : header.length = headerLen) (total : getLength header = 20 + data.length) :
    ∃ d₁ d₂, d.doRead q header = .ok (d₁, q) ∧ d₁.readMaxLen = data.length ∧
      d₁.submitted data = [⟨header ++ data, destination header⟩] ∧
      d₁.doRead q data = .ok (d₂, HostPkt.send q ⟨header ++ data, destination header⟩) ∧ d₂.m_readType = .header := by
  obtain ⟨d₁, d₂, first, second, back⟩ := doRead_forwards start q sized total
  refine ⟨d₁, d₂, first, ?_, ?_, second, back⟩
  · rcases doRead_cases first with ⟨_, _, _, _, rfl⟩ | ⟨type, _⟩
    · simp only [readMaxLen, List.length_append, List.length_drop, length_resize, sized, headerLen]
      omega
    · rw [start] at type
      cases type
  · rcases doRead_cases first with ⟨_, _, _, _, rfl⟩ | ⟨type, _⟩
    · have inside : 23 < header.length := by
        rw [sized]
        decide
      simp only [submitted, destination, List.take_left' sized, List.getD_eq_getElem?_getD,
        List.getElem?_append_left inside]
    · rw [start] at type
      cases type

end SocatTunHostDriver

namespace TunPacket

/-- The packet and where it goes to: the last byte of its destination. -/
def hostPkt (p : TunPacket) : HostPkt := ⟨p.bytes, destination p.bytes⟩

theorem le_length (p : TunPacket) : headerLen ≤ p.bytes.length := by
  have whole := p.whole
  have minimal := p.minimal
  rw [headerLen]
  omega

/-- The fields of the header are all in the bytes that are read first. -/
theorem exists_parts (p : TunPacket) :
    ∃ header data, p.bytes = header ++ data ∧ header.length = headerLen ∧
      getLength header = 20 + data.length ∧ destination header = destination p.bytes := by
  have whole := p.whole
  have long := p.le_length
  have size : headerLen = 24 := rfl
  have fields : ∀ i, i < headerLen → (p.bytes.take headerLen).getD i 0 = p.bytes.getD i 0 := by
    intro i inside
    rw [List.getD_eq_getElem?_getD, List.getD_eq_getElem?_getD, List.getElem?_take_of_lt inside]
  refine ⟨p.bytes.take headerLen, p.bytes.drop headerLen, (List.take_append_drop _ _).symm, ?_, ?_, ?_⟩
  · rw [List.length_take]
    omega
  · have same : getLength (p.bytes.take headerLen) = getLength p.bytes := by
      rw [getLength, fields 6 (by decide), fields 7 (by decide), getLength]
    rw [same, List.length_drop]
    omega
  · exact fields 23 (by decide)

/-- The reader of whole packets submits just the packet. -/
theorem doRead2_eq (behind : Nat → Byte) (p : TunPacket) :
    TunProtocol.doRead2 behind (p.bytes.take TunProtocol.buffLen) = .ok p.hostPkt := by
  have whole := p.whole
  have maximal := p.maximal
  have all : p.bytes.take TunProtocol.buffLen = p.bytes := List.take_of_length_le (by
    rw [TunProtocol.buffLen]
    omega)
  have exact_ : span behind p.bytes (getLength p.bytes + 4) = p.bytes := by
    rw [← whole, span_of_le behind (Nat.le_refl _), List.take_length]
  rw [all, TunProtocol.doRead2, if_neg (Nat.not_lt_of_le p.le_length), exact_, hostPkt]

end TunPacket

/-- The stream reader submits the first packets of a stream one after the other and stops at
the end of the last of them. -/
theorem readStream_packets {d : SocatTunHostDriver} (start : d.m_readType = .header) (q : TxQueue)
    (first : List TunPacket) (rest : ByteVec) :
    ∃ d' q', readStream d q ((first.map TunPacket.bytes).flatten ++ rest) (2 * first.length) =
        .ok (d', q', rest, first.map TunPacket.hostPkt) ∧ d'.m_readType = .header := by
  induction first generalizing d q with
  | nil => exact ⟨d, q, rfl, start⟩
  | cons p first ih =>
    obtain ⟨header, data, parts, sized, total, dest⟩ := p.exists_parts
    obtain ⟨d₁, d₂, read₁, asked, submits, read₂, back⟩ := doRead_packet start q sized total
    obtain ⟨d', q', later, atHeader⟩ := ih back (HostPkt.send q ⟨header ++ data, destination header⟩)
    have askedHeader : header.length = d.readMaxLen := by
      rw [readMaxLen, start]
      exact sized
    have nothing : d.submitted header = [] := by
      rw [submitted, start]
    have both := readStream_succ askedHeader read₁ (readStream_succ asked.symm read₂ later)
    rw [nothing, submits, dest, ← List.append_assoc data, ← List.append_assoc header, ← List.append_assoc header,
      ← parts] at both
    exact ⟨d', q', by simpa [Nat.mul_add, TunPacket.hostPkt] using both, atHeader⟩

/-- After every packet of a stream of packets the reader of the socat pipe waits for a
header, and the calls it has made are those of the reader that gets one packet at a time. -/
theorem readers_agree (uninitialised : ByteVec) (q : TxQueue) (behind : Nat → Byte) (first later : List TunPacket) :
    ∃ d pkts, readStream (SocatTunHostDriver.initial uninitialised) q ((first ++ later).map TunPacket.bytes).flatten
        (2 * first.length) = .ok (d, pkts.foldl HostPkt.send q, (later.map TunPacket.bytes).flatten, pkts) ∧
      d.m_readType = .header ∧
      first.mapM (fun p => TunProtocol.doRead2 behind (p.bytes.take TunProtocol.buffLen)) = .ok pkts := by
  obtain ⟨d, q', run, back⟩ := readStream_packets (d := SocatTunHostDriver.initial uninitialised) rfl q first
    (later.map TunPacket.bytes).flatten
  refine ⟨d, first.map TunPacket.hostPkt, ?_, back, ?_⟩
  · rw [List.map_append, List.flatten_append, ← readStream_queue run]
    exact run
  · simp only [TunPacket.doRead2_eq]
    exact List.mapM_pure

end SerialNet
