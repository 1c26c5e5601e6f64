import SerialNet.Drivers.MacLearning
import SerialNet.Lib.Span

namespace SerialNet

open Span AddressCache TapProtocol

/-- The fields of a frame that are ever looked at. -/
inductive TapHeader.Field
  | destMAC
  | srcMAC
  | type
  | ptype
  | oper
deriving DecidableEq

/-- Where a field ends. -/
def TapHeader.Field.stop : TapHeader.Field → Nat
  | .destMAC => 10
  | .srcMAC => 16
  | .type => 18
  | .ptype => 22
  | .oper => 26

namespace TapProtocol

/-- A MAC address is read from memory, wherever the received bytes end. -/
def macAt (behind : Nat → Byte) (received : ByteVec) (offset : Nat) : MacAddr :=
  ⟨part behind received offset 6, length_part behind received offset 6⟩

/-- What a call looks at, and the MAC addresses it puts into the cache. -/
structure Footprint where
  inspected : List TapHeader.Field
  stored : List MacAddr
deriving DecidableEq

/-- The call keeps to the bytes that were received. -/
def Footprint.Within (p : Footprint) (received : ByteVec) : Prop :=
  (∀ f ∈ p.inspected, f.stop ≤ received.length) ∧ ∀ m ∈ p.stored, ∃ i, slice received i 6 = some m

def packetReceivedFootprint (behind : Nat → Byte) (m_cache : Option AddressCache) (data : ByteVec)
    (srcAddr : LocalAddress) : Footprint :=
  match m_cache with
  | none => ⟨[], []⟩
  | some cache =>
    if srcAddr ≠ LocalAddress.broadcast ∧ (cache.getMac srcAddr).1 = false then
      ⟨[.srcMAC], [macAt behind data 10]⟩
    else
      ⟨[], []⟩

/-- A comparison looks at the whole of its field. -/
def checkArpInspected (tap : ByteVec) : List TapHeader.Field :=
  .type ::
    if (TapHeader.type tap).map Subtype.val = some [0x08, 0x06] then
      .ptype ::
        if (TapHeader.ptype tap).map Subtype.val = some [0x08, 0x00] then
          .oper ::
            if (TapHeader.oper tap).map Subtype.val ∈ [some [0x00, 0x02], some [0x00, 0x01]] then [.srcMAC] else []
        else []
    else []

/-- The address a frame is sent to. The header is read from the cleared buffer. -/
def destinationOf (cache : AddressCache) (clientAddress : LocalAddress) (frame : ByteVec) : LocalAddress :=
  (cache.updateMyMAC clientAddress (macAt (fun _ => 0) frame 10)).getLocalAddress (macAt (fun _ => 0) frame 4)

/-- `none` is a read that fails: -1 is no size for the buffer, and the exception comes before
the header is looked at. The sender is read only if it becomes the node's own. -/
def doReadFootprint (cache : AddressCache) (clientAddress : LocalAddress) : Option ByteVec → Footprint
  | none => ⟨[], []⟩
  | some frame =>
    let own := cache.m_myLocalAddr = LocalAddress.null_addr
    { inspected := (if own then [.srcMAC] else []) ++ .destMAC ::
        if destinationOf cache clientAddress frame = LocalAddress.null_addr then []
        else checkArpInspected (buffer frame)
      stored := if own then [macAt (fun _ => 0) frame 10] else [] }

/-- How many bytes of a frame `checkArp` takes for granted. -/
def arpRequired (frame : ByteVec) : Nat :=
  if (TapHeader.type frame).map Subtype.val = some [0x08, 0x06] then
    if (TapHeader.ptype frame).map Subtype.val = some [0x08, 0x00] then 26 else 22
  else
    18

/-- The same for `doRead`. -/
def required (cache : AddressCache) (clientAddress : LocalAddress) (frame : ByteVec) : Nat :=
  if destinationOf cache clientAddress frame = LocalAddress.null_addr then
    if cache.m_myLocalAddr = LocalAddress.null_addr then 16 else 10
  else
    arpRequired frame

section Slices

variable {received : ByteVec} {offset n : Nat}

theorem slice_append_left (inside : offset + n ≤ received.length) (rest : ByteVec) :
    slice (received ++ rest) offset n = slice received offset n := by
  have same : ((received ++ rest).drop offset).take n = (received.drop offset).take n := by
    rw [List.drop_append_of_le_length (by omega), List.take_append_of_le_length]
    rw [List.length_drop]
    omega
  simp only [slice, same]

theorem slice_macAt (behind : Nat → Byte) (inside : offset + 6 ≤ received.length) :
    slice received offset 6 = some (macAt behind received offset) := by
  have whole : ((received.drop offset).take 6).length = 6 := by
    rw [List.length_take, List.length_drop]
    omega
  rw [slice, dif_pos whole]
  exact congrArg some (Subtype.ext (part_of_le behind inside).symm)

end Slices

/-- A MAC address that is stored is looked at. -/
theorem within_srcMAC_iff (behind : Nat → Byte) (data : ByteVec) :
    Footprint.Within ⟨[.srcMAC], [macAt behind data 10]⟩ data ↔ 16 ≤ data.length := by
  constructor
  · intro within
    exact within.1 .srcMAC (List.mem_singleton_self _)
  · intro long
    refine ⟨?_, ?_⟩
    · intro f member
      rw [List.mem_singleton.mp member]
      exact long
    · intro m member
      rw [List.mem_singleton.mp member]
      exact ⟨10, slice_macAt behind long⟩

theorem packetReceived_within_iff (behind : Nat → Byte) (cache : AddressCache) (data : ByteVec) (src : LocalAddress) :
    (packetReceivedFootprint behind (some cache) data src).Within data ↔
      (src ≠ LocalAddress.broadcast → (cache.getMac src).1 = false → 16 ≤ data.length) := by
  rw [packetReceivedFootprint]
  split
  · rename_i unknown
    rw [within_srcMAC_iff]
    exact ⟨fun long _ _ => long, fun long => long unknown.1 unknown.2⟩
  · rename_i known
    refine iff_of_true ⟨?_, ?_⟩ ?_
    · rintro f ⟨⟩
    · rintro m ⟨⟩
    · intro unicast new
      exact absurd ⟨unicast, new⟩ known

theorem le_arpRequired (frame : ByteVec) : 18 ≤ arpRequired frame := by
  rw [arpRequired]
  split
  · split <;> omega
  · omega

theorem checkArp_within_iff (frame : ByteVec) :
    (∀ f ∈ checkArpInspected (buffer frame), f.stop ≤ frame.length) ↔ arpRequired frame ≤ frame.length := by
  by_cases long : 18 ≤ frame.length
  · have type : TapHeader.type (buffer frame) = TapHeader.type frame := slice_append_left long _
    rw [checkArpInspected, arpRequired, type]
    by_cases arp : (TapHeader.type frame).map Subtype.val = some [0x08, 0x06]
    · rw [if_pos arp, if_pos arp]
      by_cases longer : 22 ≤ frame.length
      · have ptype : TapHeader.ptype (buffer frame) = TapHeader.ptype frame := slice_append_left longer _
        rw [ptype]
        by_cases ipv4 : (TapHeader.ptype frame).map Subtype.val = some [0x08, 0x00]
        · rw [if_pos ipv4, if_pos ipv4]
          simp only [List.mem_cons, forall_eq_or_imp, TapHeader.Field.stop]
          split
          · simp only [List.mem_singleton, forall_eq]
            omega
          · simp only [List.not_mem_nil, false_implies, implies_true, and_true]
            omega
        · rw [if_neg ipv4, if_neg ipv4]
          simp only [List.mem_cons, List.not_mem_nil, or_false, forall_eq_or_imp, forall_eq, TapHeader.Field.stop]
          omega
      · refine iff_of_false ?_ ?_
        · intro within
          exact longer (within .ptype (by simp))
        · split <;> omega
    · rw [if_neg arp, if_neg arp, List.forall_mem_singleton]
      exact Iff.rfl
  · refine iff_of_false ?_ ?_
    · intro within
      exact long (within .type List.mem_cons_self)
    · have bound := le_arpRequired frame
      omega

theorem doRead_within_iff (cache : AddressCache) (clientAddress : LocalAddress) (frame : ByteVec) :
    (doReadFootprint cache clientAddress (some frame)).Within frame ↔
      required cache clientAddress frame ≤ frame.length := by
  -- the sender, if it is stored, and the destination come before the ARP header
  have addresses : (doReadFootprint cache clientAddress (some frame)).Within frame ↔
      (cache.m_myLocalAddr = LocalAddress.null_addr → 16 ≤ frame.length) ∧ 10 ≤ frame.length ∧
        (destinationOf cache clientAddress frame ≠ LocalAddress.null_addr → arpRequired frame ≤ frame.length) := by
    rw [← checkArp_within_iff]
    constructor
    · intro within
      refine ⟨fun own => ?_, ?_, fun routed f member => ?_⟩
      · exact within.1 .srcMAC (by simp [doReadFootprint, own])
      · exact within.1 .destMAC (by simp [doReadFootprint])
      · exact within.1 f (by simp [doReadFootprint, routed, member])
    · rintro ⟨sender, dest, arp⟩
      refine ⟨?_, ?_⟩
      · intro f member
        rcases List.mem_append.mp member with first | later
        · split at first
          · rename_i own
            rw [List.mem_singleton.mp first]
            exact sender own
          · cases first
        · rcases List.mem_cons.mp later with rfl | inside
          · exact dest
          · split at inside
            · cases inside
            · rename_i routed
              exact arp routed f inside
      · intro m member
        simp only [doReadFootprint] at member
        split at member
        · rename_i own
          rw [List.mem_singleton.mp member]
          exact ⟨10, slice_macAt _ (sender own)⟩
        · cases member
  have behindAddresses := le_arpRequired frame
  rw [addresses, required]
  by_cases own : cache.m_myLocalAddr = LocalAddress.null_addr
  · by_cases unknown : destinationOf cache clientAddress frame = LocalAddress.null_addr
    · simp only [own, unknown, if_true, forall_true_left, ne_eq, not_true_eq_false, false_implies, and_true]
      omega
    · simp only [own, unknown, if_false, forall_true_left, ne_eq, not_false_eq_true]
      omega
  · by_cases unknown : destinationOf cache clientAddress frame = LocalAddress.null_addr
    · simp only [own, unknown, if_true, if_false, false_implies, true_and, ne_eq, not_true_eq_false, and_true]
    · simp only [own, unknown, if_false, false_implies, true_and, ne_eq, not_false_eq_true, forall_true_left]
      omega

/-- The buffer holds the frame and then zeros. -/
theorem slice_buffer (frame : ByteVec) {offset : Nat} (room : offset + 6 ≤ bufSize) :
    slice (buffer frame) offset 6 = some (macAt (fun _ => 0) frame offset) := by
  have long : offset + 6 ≤ (buffer frame).length := Nat.le_trans room (le_length_buffer frame)
  have start : (buffer frame).take (offset + 6) = span (fun _ => 0) frame (offset + 6) := by
    rw [buffer, List.take_append, List.take_replicate, span, List.map_const', List.length_range]
    congr 2
    omega
  rw [slice_macAt (fun _ => 0) long]
  refine congrArg some (Subtype.ext ?_)
  change part _ _ _ _ = part _ _ _ _
  rw [part, part, span_of_le _ long, start]

/-- The cache after a frame was read, whatever became of the frame. -/
theorem doRead_cache {n n' : PacketTypeCodec} {c : AddressCache} (cache : n.m_cache = some c) {frame : ByteVec}
    (run : doRead n frame = some n') :
    n'.m_rxMsg = n.m_rxMsg ∧
      n'.m_cache = some (c.updateMyMAC n.m_txQueue.clientAddress (macAt (fun _ => 0) frame 10)) := by
  obtain ⟨_, here, run⟩ := Option.bind_eq_some_iff.mp run
  cases cache.symm.trans here
  obtain ⟨sender, atSender, run⟩ := Option.bind_eq_some_iff.mp run
  cases (slice_buffer frame (by decide)).symm.trans atSender
  obtain ⟨dest, _, run⟩ := Option.bind_eq_some_iff.mp run
  dsimp only at run
  split at run
  · cases Option.some.inj run
    exact ⟨rfl, rfl⟩
  · obtain ⟨q, _, run⟩ := Option.bind_eq_some_iff.mp run
    cases Option.some.inj run
    exact ⟨rfl, rfl⟩

end TapProtocol

/-! Where the MAC addresses of a cache come from -/

/-- The cache can answer with the MAC address, or takes it for the node's own. -/
def AddressCache.Holds (c : AddressCache) (m : MacAddr) : Prop := (∃ l, (l, m) ∈ c.m_table) ∨ c.Own m

theorem AddressCache.holds_setAddress {c : AddressCache} {l : LocalAddress} {m m' : MacAddr}
    (holds : (c.setAddress l m').Holds m) : c.Holds m ∨ m = m' := by
  by_cases all : l = LocalAddress.broadcast
  · rw [setAddress, if_pos all] at holds
    exact Or.inl holds
  · rw [setAddress_eq all] at holds
    rcases holds with ⟨l', member⟩ | own
    · rcases Association.mem_assign member with same | old
      · cases same
        exact Or.inr rfl
      · exact Or.inl (Or.inl ⟨l', old⟩)
    · exact Or.inl (Or.inr own)

theorem AddressCache.holds_updateMyMAC {c : AddressCache} {l : LocalAddress} {m m' : MacAddr}
    (holds : (c.updateMyMAC l m').Holds m) : c.Holds m ∨ c.m_myLocalAddr = LocalAddress.null_addr ∧ m = m' := by
  unfold updateMyMAC at holds
  split at holds
  · exact Or.inl holds
  · rename_i unset
    rcases holds with table | ⟨_, same⟩
    · exact Or.inl (Or.inl table)
    · exact Or.inr ⟨not_not.mp unset, same.symm⟩

namespace TapHostDriver

def Input.bytes : Input → ByteVec
  | .rxRawPacket bb _ _ => bb
  | .doRead frame => frame

/-- The MAC address is among the bytes of the inputs. -/
def Received (inputs : List Input) (m : MacAddr) : Prop := ∃ input ∈ inputs, ∃ i, slice input.bytes i 6 = some m

theorem Received.mono {inputs : List Input} {m : MacAddr} (received : Received inputs m) (input : Input) :
    Received (inputs ++ [input]) m := by
  obtain ⟨earlier, member, found⟩ := received
  exact ⟨earlier, List.mem_append_left _ member, found⟩

theorem received_last (inputs : List Input) {input : Input} {m : MacAddr} {i : Nat}
    (found : slice input.bytes i 6 = some m) : Received (inputs ++ [input]) m :=
  ⟨input, List.mem_append_right _ (List.mem_singleton_self _), i, found⟩

/-- The handlers of the node call no driver themselves, and a packet is kept for one as it is. -/
theorem set_hostless (o : OwnAddress) (addr : LocalAddress) : ∀ e ∈ (o.set addr).2, Station.isHostCall e = false := by
  intro e member
  simp only [OwnAddress.set] at member
  split at member
  · rw [List.mem_singleton.mp member]
    rfl
  · cases member

theorem sendClientPacketOrReturnToken_hostless (q : TxQueue) :
    ∀ e ∈ q.sendClientPacketOrReturnToken.2, Station.isHostCall e = false := by
  intro e member
  unfold TxQueue.sendClientPacketOrReturnToken at member
  split at member
  · rw [List.mem_singleton.mp member]
    rfl
  · unfold TxQueue.sendClientPacket at member
    split at member
    · cases member
    · rw [List.mem_singleton.mp member]
      rfl

theorem rxCommand_hostless {n n' : PacketTypeCodec} {cmd : MessageType} {bb : ByteVec} {stack : ChannelType × Crc32}
    {effects : List Effect} (run : n.rxCommand cmd bb stack = some (n', effects)) :
    (∀ e ∈ effects, Station.isHostCall e = false) ∧ (n'.m_rxMsg = n.m_rxMsg ∨ n'.m_rxMsg = n.m_rxMsg ++ [bb]) := by
  have none : ∀ e ∈ ([] : List Effect), Station.isHostCall e = false := by
    rintro e ⟨⟩
  cases PacketTypeCodec.rxCommand_handled run with
  | granted => exact ⟨sendClientPacketOrReturnToken_hostless _, Or.inl rfl⟩
  | kept => exact ⟨none, Or.inr rfl⟩
  | asked =>
    refine ⟨?_, Or.inl rfl⟩
    intro e member
    unfold PacketTypeCodec.rxDiscoveryPacket at member
    split at member
    · cases member
    · rw [List.mem_singleton.mp member]
      rfl
  | assigned => exact ⟨set_hostless _ _, Or.inl rfl⟩
  | started =>
    refine ⟨?_, Or.inl rfl⟩
    intro e member
    simp only [TxQueue.masterStarted, OwnAddress.masterStarted] at member
    split at member
    · exact set_hostless _ _ e member
    · cases member
  | ended =>
    refine ⟨?_, Or.inl rfl⟩
    intro e member
    split at member
    · rw [List.mem_singleton.mp member]
      rfl
    · cases member
  | learned => exact ⟨none, Or.inl rfl⟩
  | ignored => exact ⟨none, Or.inl rfl⟩

theorem deliver_data {q : TxQueue} {bb : ByteVec} {effects : List Effect}
    (run : PacketTypeCodec.deliver q bb = some effects) {rxIf : RxIf} {data : ByteVec} {src dest : LocalAddress}
    {ch : ChannelType} (call : .packetReceivedFromNet rxIf data src dest ch ∈ effects) : data = bb.drop 4 := by
  obtain ⟨p, _, run⟩ := Option.bind_eq_some_iff.mp run
  dsimp only at run
  split at run
  · cases Option.some.inj run
    cases call
  · cases Option.some.inj run
    cases List.mem_singleton.mp call
    rfl

/-- What a driver is handed is the packet without its header. -/
theorem rxRawPacket_data {n n' : PacketTypeCodec} {bb : ByteVec} {stack : ChannelType × Crc32} {effects : List Effect}
    (empty : n.m_rxMsg = []) (run : n.rxRawPacket bb stack = some (n', effects)) {rxIf : RxIf} {data : ByteVec}
    {src dest : LocalAddress} {ch : ChannelType} (call : .packetReceivedFromNet rxIf data src dest ch ∈ effects) :
    data = bb.drop 4 := by
  rcases PacketTypeCodec.rxRawPacket_cases run with ⟨_, rfl, _⟩ | ⟨cmd, n₁, own, parts, _, command, all, _, rfl⟩
  · cases call
  · obtain ⟨hostless, kept⟩ := rxCommand_hostless command
    rw [empty, List.nil_append] at kept
    rcases List.mem_append.mp call with early | late
    · rcases List.mem_append.mp early with handler | master
      · cases hostless _ handler
      · split at master
        · cases List.mem_singleton.mp master
        · cases master
    · rcases kept with none | one
      · rw [none] at all
        cases Option.some.inj all
        cases late
      · rw [one, List.mapM_cons] at all
        obtain ⟨part, first, rest⟩ := Option.bind_eq_some_iff.mp all
        cases Option.some.inj rest
        change _ ∈ part ++ [] at late
        rw [List.append_nil] at late
        exact deliver_data first late

/-- Every MAC address in the cache has come with one of the inputs. -/
structure Sourced (inputs : List Input) (n : PacketTypeCodec) : Prop where
  delivered : n.m_rxMsg = []
  received : ∀ c, n.m_cache = some c → ∀ m, c.Holds m → Received inputs m

namespace Sourced

variable {inputs : List Input} {n n' : PacketTypeCodec}

theorem mono (sourced : Sourced inputs n) (input : Input) : Sourced (inputs ++ [input]) n :=
  ⟨sourced.delivered, fun c cache m holds => (sourced.received c cache m holds).mono input⟩

/-- One more MAC address is stored, and it is among the inputs. -/
theorem setAddress (sourced : Sourced inputs n) {c : AddressCache} (cache : n.m_cache = some c) {l : LocalAddress}
    {m : MacAddr} (new : Received inputs m) (empty : n'.m_rxMsg = []) (after : n'.m_cache = some (c.setAddress l m)) :
    Sourced inputs n' := by
  refine ⟨empty, ?_⟩
  intro c' here m' holds
  cases after.symm.trans here
  rcases holds_setAddress holds with old | rfl
  · exact sourced.received c cache m' old
  · exact new

theorem hostEffects {bb : ByteVec} {stack : ChannelType × Crc32} {writeLen : Int} {effects : List Effect}
    (data : ∀ {rxIf data src dest ch}, .packetReceivedFromNet rxIf data src dest ch ∈ effects → data = bb.drop 4)
    {s s' : PacketTypeCodec × List Outcome} (sourced : Sourced (inputs ++ [.rxRawPacket bb stack writeLen]) s.1)
    (run : effects.foldlM (hostEffect writeLen) s = some s') :
    Sourced (inputs ++ [.rxRawPacket bb stack writeLen]) s'.1 := by
  induction effects generalizing s with
  | nil =>
    cases Option.some.inj run
    exact sourced
  | cons e rest ih =>
    obtain ⟨t, first, later⟩ := Option.bind_eq_some_iff.mp run
    refine ih (fun call => data (List.mem_cons_of_mem _ call)) ?_ later
    unfold hostEffect at first
    split at first
    · split at first
      · obtain ⟨⟨cache', outcome⟩, packet, first⟩ := Option.bind_eq_some_iff.mp first
        cases Option.some.inj first
        rcases packetReceived_cases packet with ⟨same, _⟩ | ⟨c, m, cache, _, _, mac, learned⟩
        · exact ⟨sourced.delivered, fun c here => sourced.received c (same.symm.trans here)⟩
        · refine sourced.setAddress cache ?_ sourced.delivered learned
          rw [data List.mem_cons_self, TapHeader.srcMAC, slice, List.drop_drop] at mac
          exact received_last inputs (i := 4 + 10) mac
      · cases Option.some.inj first
        exact sourced
    · cases Option.some.inj first
      exact sourced

theorem rxRawPacket {bb : ByteVec} {stack : ChannelType × Crc32} {writeLen : Int} {outcomes : List Outcome}
    (sourced : Sourced inputs n) (run : TapHostDriver.rxRawPacket n bb stack writeLen = some (n', outcomes)) :
    Sourced (inputs ++ [.rxRawPacket bb stack writeLen]) n' := by
  obtain ⟨⟨n₁, effects⟩, received, delivered⟩ := Option.bind_eq_some_iff.mp run
  refine hostEffects (fun call => rxRawPacket_data sourced.delivered received call) (s := (n₁, [])) ?_ delivered
  have older := sourced.mono (.rxRawPacket bb stack writeLen)
  rcases PacketTypeCodec.rxRawPacket_cases received with ⟨rfl, _⟩ | ⟨_, _, _, _, _, command, _, rfl, _⟩
  · exact older
  · rcases PacketTypeCodec.rxCommand_cache command with same | ⟨c, l, m, cache, mac, learned⟩
    · exact ⟨rfl, fun c here => older.received c (same.symm.trans here)⟩
    · exact older.setAddress cache (received_last inputs mac) rfl learned

theorem doRead {c : AddressCache} {frame : ByteVec} (sourced : Sourced inputs n) (cache : n.m_cache = some c)
    (long : required c n.m_txQueue.clientAddress frame ≤ frame.length)
    (run : TapProtocol.doRead n frame = some n') : Sourced (inputs ++ [.doRead frame]) n' := by
  obtain ⟨rxMsg, after⟩ := doRead_cache cache run
  refine ⟨rxMsg.trans sourced.delivered, ?_⟩
  intro c' here m holds
  cases after.symm.trans here
  rcases holds_updateMyMAC holds with old | ⟨own, rfl⟩
  · exact (sourced.received c cache m old).mono _
  · have within := (doRead_within_iff c n.m_txQueue.clientAddress frame).mpr long
    obtain ⟨i, found⟩ := within.2 (macAt (fun _ => 0) frame 10) (by simp [doReadFootprint, own])
    have inFrame : slice (Input.doRead frame).bytes i 6 = some (macAt (fun _ => 0) frame 10) := found
    exact received_last inputs inFrame

end Sourced

/-- In a run in which no frame is too short, nothing is ever stored but what was received. -/
theorem sourced_of_run {n₀ n : PacketTypeCodec} (tap : TapMode n₀) {inputs : List Input}
    (long : ∀ before frame, before ++ [.doRead frame] <+: inputs → ∀ v c, LabelledReach.follow step n₀ before = some v →
      v.m_cache = some c → required c v.m_txQueue.clientAddress frame ≤ frame.length)
    (run : LabelledReach.follow step n₀ inputs = some n) : Sourced inputs n := by
  induction inputs using List.reverseRecOn generalizing n with
  | nil =>
    cases Option.some.inj run
    refine ⟨tap.delivered, ?_⟩
    intro c here m holds
    obtain ⟨m_myMac, cache⟩ := tap.cache
    cases cache.symm.trans here
    rcases holds with ⟨_, ⟨⟩⟩ | ⟨known, _⟩
    exact absurd rfl known
  | append_singleton inputs input ih =>
    rw [LabelledReach.follow_concat] at run
    obtain ⟨v, earlier, taken⟩ := Option.bind_eq_some_iff.mp run
    have sourced := ih (fun before frame inside => long before frame (inside.trans (List.prefix_append inputs [input])))
      earlier
    cases input with
    | rxRawPacket bb stack writeLen =>
      obtain ⟨⟨_, outcomes⟩, received, rfl⟩ := Option.map_eq_some_iff.mp taken
      exact sourced.rxRawPacket received
    | doRead frame =>
      obtain ⟨c, cache, _⟩ := Option.bind_eq_some_iff.mp taken
      exact sourced.doRead cache (long inputs frame (List.prefix_refl _) v c earlier cache) taken

end TapHostDriver

/-- The TAP driver keeps to the bytes it has received if and only if these are enough: 16 of a
frame from the net whose sender is new, and of a frame from the host as many as its kind of
header has. In a run in which they are, every MAC address in the cache has been received. -/
theorem tap_headers_inside_iff (behind : Nat → Byte) (cache : AddressCache) (data : ByteVec)
    (src clientAddress : LocalAddress) (received : Option ByteVec) (n₀ : PacketTypeCodec) (tap : TapMode n₀)
    (inputs : List TapHostDriver.Input) :
    ((packetReceivedFootprint behind (some cache) data src).Within data ↔
      (src ≠ LocalAddress.broadcast → (cache.getMac src).1 = false → 16 ≤ data.length)) ∧
    ((doReadFootprint cache clientAddress received).Within (received.getD []) ↔
      ∀ frame, received = some frame → required cache clientAddress frame ≤ frame.length) ∧
    ((∀ before frame, before ++ [.doRead frame] <+: inputs → ∀ n c,
        LabelledReach.follow TapHostDriver.step n₀ before = some n → n.m_cache = some c →
        required c n.m_txQueue.clientAddress frame ≤ frame.length) →
      ∀ n c, LabelledReach.follow TapHostDriver.step n₀ inputs = some n → n.m_cache = some c →
        ∀ m, c.Holds m → TapHostDriver.Received inputs m) := by
  refine ⟨packetReceived_within_iff behind cache data src, ?_, ?_⟩
  · cases received with
    | none =>
      refine iff_of_true ⟨?_, ?_⟩ ?_
      · rintro f ⟨⟩
      · rintro m ⟨⟩
      · rintro frame ⟨⟩
    | some frame =>
      simp only [Option.getD_some, Option.some.injEq, forall_eq']
      exact doRead_within_iff cache clientAddress frame
  · intro long n c run here m holds
    exact (TapHostDriver.sourced_of_run tap long run).received c here m holds

/-- The first frame that the host sends, and one that comes from the net. -/
theorem tap_headers_inside_first :
    (doReadFootprint (.initial illegalMac) 1 (some (sampleFrame broadcastMac (sampleMac 2)))).Within
      (sampleFrame broadcastMac (sampleMac 2)) ∧
    (packetReceivedFootprint (fun _ => 0xaa) (some (.initial illegalMac)) (sampleFrame broadcastMac (sampleMac 3))
      33).Within (sampleFrame broadcastMac (sampleMac 3)) := by
  obtain ⟨packet, read, _⟩ := tap_headers_inside_iff (fun _ => 0xaa) (.initial illegalMac)
    (sampleFrame broadcastMac (sampleMac 3)) 33 1 (some (sampleFrame broadcastMac (sampleMac 2))) sampleTap
    tapMode_sampleTap []
  refine ⟨read.mpr ?_, packet.mpr ?_⟩
  · rintro frame ⟨⟩
    decide
  · intro _ _
    decide

/-- A packet without any payload is handed to the driver, which takes the MAC address of its
sender from the memory behind it. After a read of four bytes the zeros of the buffer become
the MAC address of the node. -/
theorem tap_headers_outside :
    (∃ effects, sampleTap.rxRawPacket (packet.SendPacket.fromHeader ⟨.tap_format, LocalAddress.broadcast, 33⟩)
        unusedStack = some (sampleTap, effects) ∧
      .packetReceivedFromNet 5 [] 33 LocalAddress.broadcast .tap_format ∈ effects) ∧
    ¬ (packetReceivedFootprint (fun _ => 0xaa) sampleTap.m_cache [] 33).Within [] ∧
    ¬ (doReadFootprint (.initial illegalMac) 1 (some [0, 0, 8, 0])).Within [0, 0, 8, 0] ∧
    (doRead sampleTap [0, 0, 8, 0]).bind (·.m_cache) = some ⟨[], illegalMac, 1⟩ := by
  refine ⟨⟨_, rfl, List.mem_singleton_self _⟩, ?_, ?_, by decide +kernel⟩
  · have inside := packetReceived_within_iff (fun _ => 0xaa) (.initial illegalMac) [] 33
    exact mt inside.mp (by decide)
  · rw [doRead_within_iff]
    decide

end SerialNet
