import SerialNet.FrameCodec

namespace SerialNet.FrameCodec

/-- Bytes that are not the keyword leave a waiting decoder untouched. -/
theorem receiveData_noise {c : FrameCodec} (waiting : c.m_state = .getKW) {noise : ByteVec}
    (clean : keyword ∉ noise) : c.receiveData noise = (c, []) := by
  induction noise with
  | nil => rfl
  | cons b rest ih =>
    have other : b ≠ keyword := fun same => clean (same ▸ List.mem_cons_self ..)
    have first : c.decodeByte b = (c, []) := by simp [decodeByte, waiting, other]
    rw [receiveData, Mealy.run_cons, first]
    exact ih (fun member => clean (List.mem_cons_of_mem _ member))

theorem set_at_cut {v : ByteVec} {i : Nat} (inside : i < v.length) (b : Byte) :
    (v.set i b).take (i + 1) = v.take i ++ [b] := by
  rw [List.take_add_one, List.take_set_of_le (Nat.le_refl i), List.getElem?_set_self inside]
  rfl

/-- Inside the payload the decoder overwrites the buffer from `m_index` on. It
leaves for the checksum with the byte that fills the buffer. -/
theorem receiveData_payload {c : FrameCodec} (reading : c.m_state = .getData)
    (size : c.m_decodePacket.length = c.m_length) (bound : c.m_length < 2 ^ 64)
    {bytes : ByteVec} (nonempty : bytes ≠ []) (fits : c.m_index + bytes.length = c.m_length) :
    c.receiveData bytes =
      ({ c with m_state := .getChecksum, m_index := c.m_length,
                m_checksum := checksum c.m_checksum bytes,
                m_decodePacket := c.m_decodePacket.take c.m_index ++ bytes }, []) := by
  induction bytes generalizing c with
  | nil => exact absurd rfl nonempty
  | cons b rest ih =>
    simp only [List.length_cons] at fits
    have inside : c.m_index < c.m_decodePacket.length := by omega
    have cut := set_at_cut inside b
    rw [receiveData, Mealy.run_cons, decodeByte_getData reading (by omega)]
    cases rest with
    | nil =>
      simp only [List.length_nil, Nat.zero_add] at fits
      rw [List.take_of_length_le (by simp only [List.length_set]; omega)] at cut
      simp [fits, cut, checksum]
    | cons b' rest =>
      have more : c.m_index + 1 ≠ c.m_length := by simp only [List.length_cons] at fits; omega
      have tail := ih (c := { c with m_checksum := c.m_checksum ^^^ b,
                                     m_decodePacket := c.m_decodePacket.set c.m_index b,
                                     m_index := c.m_index + 1, m_state := .getData })
        rfl (by simpa using size) bound (List.cons_ne_nil _ _)
        (by simp only [List.length_cons] at fits ⊢; omega)
      simp only [receiveData] at tail
      simp only [more, if_false, tail, cut, checksum, List.foldl_cons, List.append_assoc,
        List.singleton_append, List.nil_append]

/-- A decoder that has read a whole frame header announcing `n` bytes. -/
def announced (c : FrameCodec) (n : Nat) : FrameCodec :=
  { c with m_state := .getData, m_length := n, m_index := 0, m_checksum := checksum 0 (frameHeader n),
           m_decodePacket := resize c.m_decodePacket n }

/-- Seven payload bits of a length byte survive the continuation mark. -/
theorem continuation_byte : ∀ h < 128,
    UInt8.ofNat (h ||| 0x80) &&& 0x80 ≠ 0 ∧ (UInt8.ofNat (h ||| 0x80) &&& 0x7f).toNat = h := by
  decide

theorem final_byte : ∀ l < 128,
    UInt8.ofNat l &&& 0x80 = 0 ∧ (UInt8.ofNat l &&& 0x7f).toNat = l := by
  decide

/-- Both length formats are read back as the length they were written for,
provided it fits the two seven bit groups. -/
theorem receiveData_header {c : FrameCodec} (waiting : c.m_state = .getKW) {n : Nat}
    (upper : n ≤ 16383) : c.receiveData (frameHeader n) = (c.announced n, []) := by
  by_cases short : n < 128
  · obtain ⟨last, value⟩ := final_byte n short
    simp [receiveData, Mealy.run_cons, frameHeader, short, decodeByte, waiting, last, value,
      announced, checksum]
  · have group : (n >>> 7) &&& 0x7f = n / 128 := by
      rw [Nat.shiftRight_eq_div_pow, Nat.and_two_pow_sub_one_eq_mod _ 7]
      exact Nat.mod_eq_of_lt (by omega)
    have rest : n &&& 0x7f = n % 128 := Nat.and_two_pow_sub_one_eq_mod _ 7
    obtain ⟨more, high⟩ := continuation_byte (n / 128) (by omega)
    obtain ⟨last, low⟩ := final_byte (n % 128) (Nat.mod_lt _ (by decide))
    have whole : (n / 128) <<< 7 % 2 ^ 64 ||| n % 128 = n := by
      rw [Nat.shiftLeft_eq, Nat.mod_eq_of_lt (by omega), Nat.mul_comm,
        ← Nat.two_pow_add_eq_or_of_lt (Nat.mod_lt _ (by decide)), Nat.div_add_mod n (2 ^ 7)]
    simp only [receiveData, frameHeader, short, if_false, group, rest, Mealy.run_cons, Mealy.run_nil,
      decodeByte, waiting, if_true, more, ne_eq, not_false_eq_true, high, last, low, Nat.zero_or,
      not_true, whole, announced, checksum, List.foldl_cons, List.foldl_nil, UInt8.zero_xor,
      List.append_nil]

/-- Once a frame has been announced, payload, checksum and filler hand the
payload to the receiver, whatever the old buffer held. -/
theorem receiveData_announced {c : FrameCodec} (listening : c.m_decodeCB = true) {p : ByteVec}
    (nonempty : p ≠ []) (upper : p.length ≤ 16383) :
    ∃ c' : FrameCodec, c'.m_state = .getKW ∧ c'.m_decodeCB = true ∧
      (c.announced p.length).receiveData
        (p ++ [checksum (checksum 0 (frameHeader p.length)) p, 0xff]) = (c', [p]) := by
  have payload := receiveData_payload (c := c.announced p.length) rfl
    (by simp [announced]) (by simp only [announced]; omega) nonempty (by simp [announced])
  simp only [receiveData] at payload ⊢
  rw [Mealy.run_append, payload]
  refine ⟨_, ?_, ?_, Prod.ext rfl ?_⟩
  · simp [Mealy.run_cons, decodeByte]
  · simp [Mealy.run_cons, decodeByte, announced, listening]
  · simp [Mealy.run_cons, decodeByte, announced, listening]

theorem receiveData_encodePacket {c : FrameCodec} (waiting : c.m_state = .getKW)
    (listening : c.m_decodeCB = true) {p : ByteVec} (nonempty : p ≠ []) (upper : p.length ≤ 16383) :
    ∃ c' : FrameCodec, c'.m_state = .getKW ∧ c'.m_decodeCB = true ∧
      c.receiveData (encodePacket p) = (c', [p]) := by
  obtain ⟨c', again, still, rest⟩ := receiveData_announced (c := c) listening nonempty upper
  refine ⟨c', again, still, ?_⟩
  have header := receiveData_header waiting upper
  simp only [receiveData, encodePacket, List.append_assoc] at header rest ⊢
  rw [Mealy.run_append, header, rest]
  rfl

/-- A stream of frames, each followed by filler bytes. -/
def frameStream (frames : List (ByteVec × ByteVec)) : ByteVec :=
  frames.flatMap fun frame => encodePacket frame.1 ++ frame.2

/-- Whole streams survive the wire: the receiver gets exactly the packets
that were sent, in order, and the decoder is ready for the next frame. -/
theorem receiveData_frameStream (c : FrameCodec) (waiting : c.m_state = .getKW)
    (listening : c.m_decodeCB = true) (lead : ByteVec) (cleanLead : keyword ∉ lead)
    (frames : List (ByteVec × ByteVec))
    (sizes : ∀ frame ∈ frames, 1 ≤ frame.1.length ∧ frame.1.length ≤ 16383)
    (clean : ∀ frame ∈ frames, keyword ∉ frame.2) :
    (c.receiveData (lead ++ frameStream frames)).2 = frames.map Prod.fst ∧
      (c.receiveData (lead ++ frameStream frames)).1.m_state = .getKW := by
  have quiet := receiveData_noise waiting cleanLead
  simp only [receiveData] at quiet ⊢
  rw [Mealy.run_append, quiet]
  clear quiet
  induction frames generalizing c with
  | nil => exact ⟨rfl, waiting⟩
  | cons frame rest ih =>
    have size := sizes frame (List.mem_cons_self ..)
    obtain ⟨c', again, still, decoded⟩ := receiveData_encodePacket waiting listening
      (List.ne_nil_of_length_pos size.1) size.2
    have quiet := receiveData_noise again (clean frame (List.mem_cons_self ..))
    have later := ih c' again still (fun f member => sizes f (List.mem_cons_of_mem _ member))
      (fun f member => clean f (List.mem_cons_of_mem _ member))
    simp only [receiveData] at decoded quiet
    simp only [frameStream, List.flatMap_cons, List.append_assoc, Mealy.run_append, decoded, quiet,
      List.map_cons, List.nil_append, List.cons_append] at later ⊢
    exact ⟨congrArg _ later.1, later.2⟩

/-- Two frames with a keyword inside the first payload, filler between them and
stale fields from an abandoned frame. -/
theorem receiveData_frameStream_pair :
    let c : FrameCodec := { initial true with m_length := 7, m_index := 3, m_checksum := 9 }
    (c.receiveData ([0, 1] ++ frameStream [([0xfd, 0xff], [5]), ([0], [])])).2 = [[0xfd, 0xff], [0]] ∧
      (c.receiveData ([0, 1] ++ frameStream [([0xfd, 0xff], [5]), ([0], [])])).1.m_state = .getKW :=
  receiveData_frameStream _ rfl rfl _ (by decide) _ (by decide) (by decide)

end SerialNet.FrameCodec
