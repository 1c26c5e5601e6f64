import SerialNet.FrameLength

namespace SerialNet.FrameCodec

/-! The checksum -/

theorem checksum_start (start : Byte) (bytes : ByteVec) : checksum start bytes = start ^^^ checksum 0 bytes := by
  induction bytes generalizing start with
  | nil => exact UInt8.xor_zero.symm
  | cons b rest ih =>
    have whole : checksum start (b :: rest) = checksum (start ^^^ b) rest := rfl
    have fresh : checksum 0 (b :: rest) = checksum (0 ^^^ b) rest := rfl
    rw [whole, fresh, ih (start ^^^ b), ih (0 ^^^ b), UInt8.zero_xor, UInt8.xor_assoc]

/-- Another value of one byte is another checksum. -/
theorem checksum_set_ne {bytes : ByteVec} {i : Nat} {old b : Byte} (present : bytes[i]? = some old)
    (different : old ≠ b) (start : Byte) : checksum start (bytes.set i b) ≠ checksum start bytes := by
  induction bytes generalizing start i with
  | nil => cases present
  | cons first rest ih =>
    cases i with
    | zero =>
      cases present
      intro same
      have sums : checksum (start ^^^ b) rest = checksum (start ^^^ old) rest := same
      rw [checksum_start, checksum_start (start ^^^ old), UInt8.xor_left_inj, UInt8.xor_right_inj] at sums
      exact different sums.symm
    | succ i => exact ih present (start ^^^ first)

theorem checksum_encoded (p : ByteVec) :
    checksum 0 (frameHeader p.length ++ (p ++ [checksum (checksum 0 (frameHeader p.length)) p])) = 0 := by
  rw [← List.append_assoc, checksum_append, checksum_append]
  exact UInt8.xor_self

/-! A frame whose payload or checksum has been changed -/

/-- A frame with the header of an encoded packet. -/
def sealed (n : Nat) (upper : n ≤ 16383) (payload : ByteVec) (size : payload.length = n) (check : Byte) : Frame where
  groups := lengthGroups n
  last := lengthLast n
  payload := payload
  check := check
  filler := 0xff
  more := lengthGroups_continue n
  ends := lengthLast_ends n
  size := by
    rw [size, fieldLength_encoded]
    split
    · rfl
    · omega

theorem sealed_body {n : Nat} (upper : n ≤ 16383) {payload : ByteVec} (size : payload.length = n) (check : Byte) :
    (sealed n upper payload size check).body = frameHeader n ++ (payload ++ [check]) := by
  rw [frameHeader_eq]
  rfl

/-- A frame in progress is over with its filler and not before. -/
theorem Frame.busy {c : FrameCodec} (waiting : c.m_state = .getKW) (f : Frame) (nonempty : f.payload ≠ []) {k : Nat}
    (begun : 0 < k) (unfinished : k < f.bytes.length) : (c.receiveData (f.bytes.take k)).1.m_state ≠ .getKW := by
  have size : fieldLength f.field = f.payload.length := f.size.symm
  have positive := List.length_pos_of_ne_nil nonempty
  by_cases inField : k ≤ f.groups.length + 1
  · obtain ⟨j, rfl⟩ := Nat.exists_eq_add_of_le' begun
    have taken : f.bytes.take (j + 1) = keyword :: f.groups.take j := by
      simp only [Frame.bytes, Frame.body, Frame.field, List.cons_append, List.append_assoc, List.take_succ_cons]
      rw [List.take_append_of_le_length (by omega)]
    have more : ∀ b ∈ f.groups.take j, continues b = true := fun b member => f.more b (List.mem_of_mem_take member)
    rw [taken, receiveData_keyword_groups waiting more]
    show DecodeState.getLen ≠ .getKW
    decide
  · have whole : f.bytes = (keyword :: f.field) ++ (f.payload ++ [f.check, f.filler]) := by
      simp [Frame.bytes, Frame.body]
    have length : (keyword :: f.field).length = f.groups.length + 2 := by simp [Frame.field]
    have taken : f.bytes.take k = (keyword :: f.field) ++
        (f.payload ++ [f.check, f.filler]).take (k - (f.groups.length + 2)) := by
      rw [whole, List.take_append, length, List.take_of_length_le (by omega)]
    have field : c.receiveData (keyword :: f.field) = (c.opened f.field, []) := receiveData_field waiting f.more f.ends
    have bound : f.payload.length < 2 ^ 64 := by
      rw [← size]
      exact Nat.mod_lt _ (Nat.two_pow_pos 64)
    have missing : (c.opened f.field).m_index +
        ((f.payload ++ [f.check, f.filler]).take (k - (f.groups.length + 2))).length
          < (c.opened f.field).m_length + 2 := by
      rw [whole, List.length_append, length, List.length_append] at unfinished
      simp only [opened, size, List.length_take, List.length_append, List.length_cons, List.length_nil] at unfinished ⊢
      omega
    have short := receiveData_short (c := c.opened f.field) rfl (by simpa [opened, size] using bound)
      (by simpa [opened, size] using positive) missing
    rw [receiveData] at field
    rw [taken, receiveData, Mealy.run_append, field]
    exact short.1

/-- The changed frame of a packet is still a frame, and its checksum tells. -/
theorem corrupted_frame {p : ByteVec} (upper : p.length ≤ 16383) {i : Nat}
    (lower : (frameHeader p.length).length ≤ i) (inside : i < (frameHeader p.length).length + p.length + 1) {b : Byte}
    (different : (encodePacket p)[i]? ≠ some b) :
    ∃ f : Frame, (encodePacket p).set i b = f.bytes ∧ f.payload.length = p.length ∧ f.intact = false := by
  obtain ⟨j, rfl⟩ := Nat.exists_eq_add_of_le lower
  let sum := checksum (checksum 0 (frameHeader p.length)) p
  have encoded : encodePacket p = frameHeader p.length ++ ((p ++ [sum]) ++ [0xff]) := by
    simp only [encodePacket, sum, List.append_assoc, List.cons_append, List.nil_append]
  have within : j < (p ++ [sum]).length := by
    rw [List.length_append, List.length_singleton]
    omega
  -- the field is not touched, so that payload and checksum keep their places
  have set : (encodePacket p).set ((frameHeader p.length).length + j) b =
      frameHeader p.length ++ ((p ++ [sum]).set j b ++ [0xff]) := by
    rw [encoded, List.set_append_right _ _ lower, Nat.add_sub_cancel_left, List.set_append_left _ _ within]
  obtain ⟨payload, check, changed⟩ : ∃ payload check, (p ++ [sum]).set j b = payload ++ [check] := by
    rcases List.eq_nil_or_concat ((p ++ [sum]).set j b) with empty | ⟨payload, check, split⟩
    · have length := congrArg List.length empty
      simp at length
    · exact ⟨payload, check, by rw [split, List.concat_eq_append]⟩
  have size : payload.length = p.length := by
    have length := congrArg List.length changed
    simpa using length.symm
  have old : (p ++ [sum])[j]? = some ((p ++ [sum])[j]) := List.getElem?_eq_getElem within
  have other : (p ++ [sum])[j] ≠ b := by
    intro same
    refine different ?_
    rw [encoded, List.getElem?_append_right lower, Nat.add_sub_cancel_left, List.getElem?_append_left within, old, same]
  refine ⟨sealed p.length upper payload size check, ?_, size, ?_⟩
  · rw [set, changed, Frame.bytes, sealed_body, ← List.append_assoc]
    rfl
  · have differs := checksum_set_ne old other (checksum 0 (frameHeader p.length))
    rw [changed, ← checksum_append, ← checksum_append] at differs
    rw [Frame.intact, sealed_body]
    refine decide_eq_false fun same => differs ?_
    rw [same]
    exact (checksum_encoded p).symm

/-- One changed byte in payload or checksum loses that packet and nothing else: the
frame is taken as a whole, nothing is delivered, and the next frame is read from its
first byte on. -/
theorem corruption_contained (c : FrameCodec) (waiting : c.m_state = .getKW) (p : ByteVec)
    (sizes : 1 ≤ p.length ∧ p.length ≤ 16383) (i : Nat)
    (position : (frameHeader p.length).length ≤ i ∧ i < (frameHeader p.length).length + p.length + 1) (b : Byte)
    (different : (encodePacket p)[i]? ≠ some b) :
    (c.receiveData ((encodePacket p).set i b)).2 = [] ∧
    (c.receiveData ((encodePacket p).set i b)).1.m_state = .getKW ∧
    (∀ k, 0 < k → k < (encodePacket p).length →
      (c.receiveData (((encodePacket p).set i b).take k)).1.m_state ≠ .getKW) ∧
    (c.m_decodeCB = true → ∀ q : ByteVec, 1 ≤ q.length → q.length ≤ 16383 →
      ((c.receiveData ((encodePacket p).set i b)).1.receiveData (encodePacket q)).2 = [q]) := by
  obtain ⟨f, frame, size, broken⟩ := corrupted_frame sizes.2 position.1 position.2 different
  have nonempty : f.payload ≠ [] := by
    refine List.ne_nil_of_length_pos ?_
    omega
  have length : (encodePacket p).length = f.bytes.length := by rw [← frame, List.length_set]
  have read := receiveData_bytes waiting f nonempty
  rw [length, frame, read]
  refine ⟨by simp [broken], rfl, ?_, ?_⟩
  · intro k begun unfinished
    exact f.busy waiting nonempty begun unfinished
  · intro listening q lower upper
    have still : (c.closed f).m_decodeCB = true := listening
    obtain ⟨_, _, _, decoded⟩ := receiveData_encodePacket (c := c.closed f) rfl still
      (List.ne_nil_of_length_pos lower) upper
    rw [decoded]

/-- The changed byte looks like a keyword, and another frame follows. -/
theorem corruption_contained_keyword :
    ((initial true).receiveData ((encodePacket [1, 2, 3]).set 3 0xfd)).2 = [] ∧
      ((initial true).receiveData ((encodePacket [1, 2, 3]).set 3 0xfd)).1.m_state = .getKW ∧
      (((initial true).receiveData ((encodePacket [1, 2, 3]).set 3 0xfd)).1.receiveData (encodePacket [9])).2 =
        [[9]] := by
  have contained := corruption_contained (initial true) rfl [1, 2, 3] (by decide) 3 (by decide) 0xfd (by decide)
  exact ⟨contained.1, contained.2.1, contained.2.2.2 rfl [9] (by decide) (by decide)⟩

end SerialNet.FrameCodec
