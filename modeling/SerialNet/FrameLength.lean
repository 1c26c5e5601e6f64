import SerialNet.FrameGrammar

namespace SerialNet.FrameCodec

/-! The length an encoded frame announces -/

def lengthGroups (dataLen : Nat) : ByteVec :=
  if dataLen < 0x80 then [] else [UInt8.ofNat (((dataLen >>> 7) &&& 0x7f) ||| 0x80)]

def lengthLast (dataLen : Nat) : Byte :=
  if dataLen < 0x80 then UInt8.ofNat dataLen else UInt8.ofNat (dataLen &&& 0x7f)

theorem frameHeader_eq (n : Nat) : frameHeader n = keyword :: (lengthGroups n ++ [lengthLast n]) := by
  unfold frameHeader lengthGroups lengthLast
  split <;> rfl

theorem group_bits (n : Nat) : (n >>> 7) &&& 0x7f = n / 128 % 128 := by
  rw [Nat.shiftRight_eq_div_pow]
  exact Nat.and_two_pow_sub_one_eq_mod _ 7

theorem low_bits (n : Nat) : n &&& 0x7f = n % 128 := Nat.and_two_pow_sub_one_eq_mod _ 7

theorem lengthGroups_continue (n : Nat) : ∀ b ∈ lengthGroups n, continues b = true := by
  intro b member
  unfold lengthGroups at member
  split at member
  · cases member
  · rw [List.mem_singleton.mp member, group_bits]
    exact decide_eq_true (continuation_byte _ (Nat.mod_lt _ (by decide))).1

theorem lengthLast_ends (n : Nat) : continues (lengthLast n) = false := by
  unfold lengthLast
  split
  · rename_i short
    exact decide_eq_false (not_not.mpr (final_byte n short).1)
  · rw [low_bits]
    exact decide_eq_false (not_not.mpr (final_byte _ (Nat.mod_lt _ (by decide))).1)

/-- One or two groups are written, and the rest of the length is lost. -/
theorem fieldLength_encoded (n : Nat) :
    fieldLength (lengthGroups n ++ [lengthLast n]) = if n < 128 then n else n % 16384 := by
  rw [fieldLength, fieldNumber_concat]
  unfold lengthGroups lengthLast
  split
  · rename_i short
    rw [group, (final_byte n short).2]
    show (128 * 0 + n) % 2 ^ 64 = n
    omega
  · have high := (continuation_byte (n / 128 % 128) (Nat.mod_lt _ (by decide))).2
    have low := (final_byte (n % 128) (Nat.mod_lt _ (by decide))).2
    have first : fieldNumber [UInt8.ofNat (n / 128 % 128 ||| 0x80)] = n / 128 % 128 := by
      show 128 * 0 + group _ = _
      rw [group, high]
      omega
    rw [group_bits, low_bits, first, group, low]
    omega

/-- The length a decoder has read when it turns to the payload. -/
def lengthRead (c : FrameCodec) : ByteVec → Option Nat
  | [] => none
  | b :: rest =>
    let next := (c.decodeByte b).1
    if next.m_state = .getData then some next.m_length else next.lengthRead rest

theorem lengthRead_groups {c : FrameCodec} (reading : c.m_state = .getLen) (read : ByteVec)
    (shifted : c.m_length = 128 * fieldNumber read % 2 ^ 64) {groups : ByteVec}
    (more : ∀ b ∈ groups, continues b = true) {last : Byte} (ends : continues last = false) (rest : ByteVec) :
    c.lengthRead (groups ++ last :: rest) = some (fieldLength (read ++ groups ++ [last])) := by
  induction groups generalizing c read with
  | nil =>
    rw [List.nil_append, lengthRead, decodeByte_ends reading shifted ends, List.append_nil, fieldLength,
      fieldNumber_concat]
    rfl
  | cons b later ih =>
    rw [List.cons_append, lengthRead, decodeByte_continues reading shifted (more b List.mem_cons_self)]
    simp only [reading, reduceCtorEq, if_false]
    rw [← fieldNumber_concat]
    rw [ih (c := { c with m_state := .getLen, m_checksum := c.m_checksum ^^^ b, m_length := _ }) rfl (read ++ [b]) rfl
      fun b' member => more b' (List.mem_cons_of_mem _ member)]
    simp only [List.append_assoc, List.singleton_append]

theorem lengthRead_encodePacket {c : FrameCodec} (waiting : c.m_state = .getKW) (p : ByteVec) :
    c.lengthRead (encodePacket p) = some (if p.length < 128 then p.length else p.length % 16384) := by
  have frame : encodePacket p = keyword :: (lengthGroups p.length ++ lengthLast p.length ::
      (p ++ [checksum (checksum 0 (frameHeader p.length)) p, 0xff])) := by
    simp only [encodePacket, frameHeader_eq, List.cons_append, List.append_assoc, List.nil_append]
  rw [frame, lengthRead, decodeByte_keyword waiting]
  simp only [reduceCtorEq, if_false]
  rw [lengthRead_groups rfl [] rfl (lengthGroups_continue _) (lengthLast_ends _), List.nil_append,
    fieldLength_encoded]

/-! The buffer for a received frame -/

/-- The call `m_decodePacket.resize(m_length)` a byte leads to. -/
def resizeCall (c : FrameCodec) (b : Byte) : Option Nat :=
  if c.m_state = .getLen ∧ continues b = false then some (c.m_length ||| group b) else none

/-- The arguments of all these calls while a stream is decoded. -/
def resizeCalls (c : FrameCodec) : ByteVec → List Nat
  | [] => []
  | b :: rest => (c.resizeCall b).toList ++ (c.decodeByte b).1.resizeCalls rest

/-- Any other byte leaves the size of the buffer as it is. -/
theorem decodeByte_resizeCall (c : FrameCodec) (b : Byte) :
    (c.decodeByte b).1.m_decodePacket.length = (c.resizeCall b).getD c.m_decodePacket.length := by
  unfold resizeCall continues
  cases state : c.m_state with
  | getKW =>
    simp only [decodeByte, state, reduceCtorEq, false_and, if_false, Option.getD_none]
    split <;> rfl
  | getLen =>
    simp only [decodeByte, state, true_and, decide_eq_false_iff_not]
    by_cases bit : b &&& 0x80 ≠ 0
    · simp only [bit, not_true, if_true, if_false, Option.getD_none, ne_eq, not_false_eq_true]
    · simp only [bit, not_false_eq_true, if_true, if_false, Option.getD_some, length_resize, group]
  | getData =>
    simp only [decodeByte, state, reduceCtorEq, false_and, if_false, Option.getD_none]
    split <;> simp
  | getChecksum => simp [decodeByte, state]
  | getFiller => simp [decodeByte, state]

theorem mem_resizeCalls {c : FrameCodec} {stream : ByteVec} {n : Nat} :
    n ∈ c.resizeCalls stream ↔
      ∃ before b later, stream = before ++ b :: later ∧ (c.receiveData before).1.resizeCall b = some n := by
  induction stream generalizing c with
  | nil => simp [resizeCalls]
  | cons b rest ih =>
    rw [resizeCalls, List.mem_append, Option.mem_toList, ih]
    constructor
    · rintro (now | ⟨before, b', later, rfl, call⟩)
      · exact ⟨[], b, rest, rfl, now⟩
      · exact ⟨b :: before, b', later, rfl, call⟩
    · rintro ⟨before, b', later, whole, call⟩
      cases before with
      | nil =>
        cases whole
        exact Or.inl call
      | cons b₀ before =>
        obtain ⟨rfl, rfl⟩ := List.cons.inj whole
        exact Or.inr ⟨before, b', later, rfl, call⟩

theorem receiveData_concat (c : FrameCodec) (before : ByteVec) (b : Byte) :
    (c.receiveData (before ++ [b])).1 = ((c.receiveData before).1.decodeByte b).1 := by
  rw [receiveData, Mealy.run_append]
  rfl

/-- A decoder in the middle of a length field has met a keyword while it waited, and
then only length bytes. -/
theorem receiveData_getLen {c : FrameCodec} (waiting : c.m_state = .getKW) {before : ByteVec}
    (reading : (c.receiveData before).1.m_state = .getLen) :
    ∃ skipped groups, before = skipped ++ keyword :: groups ∧ (c.receiveData skipped).1.m_state = .getKW ∧
      ∀ b ∈ groups, continues b = true := by
  induction before using List.reverseRecOn with
  | nil =>
    have idle : c.m_state = .getLen := reading
    rw [waiting] at idle
    cases idle
  | append_singleton before b ih =>
    rw [receiveData_concat] at reading
    cases state : (c.receiveData before).1.m_state with
    | getKW =>
      simp only [decodeByte, state] at reading
      split at reading
      · rename_i same
        exact ⟨before, [], by rw [same], state, by simp⟩
      · rw [state] at reading
        cases reading
    | getLen =>
      obtain ⟨skipped, groups, whole, idle, more⟩ := ih state
      have bit : continues b = true := by
        by_contra last
        simp only [decodeByte, state] at reading
        rw [if_neg fun more => last (decide_eq_true more)] at reading
        cases reading
      refine ⟨skipped, groups ++ [b], by simp [whole], idle, ?_⟩
      intro b' member
      rcases List.mem_append.mp member with old | new
      · exact more b' old
      · rw [List.mem_singleton.mp new]
        exact bit
    | getData =>
      simp only [decodeByte, state] at reading
      split at reading <;> cases reading
    | getChecksum =>
      simp only [decodeByte, state] at reading
      cases reading
    | getFiller =>
      simp only [decodeByte, state] at reading
      cases reading

/-- The length byte that ends a field makes the decoder allocate what the field says. -/
theorem resizeCall_field {c : FrameCodec} {skipped : ByteVec} (idle : (c.receiveData skipped).1.m_state = .getKW)
    {groups : ByteVec} (more : ∀ b ∈ groups, continues b = true) {last : Byte} (ends : continues last = false) :
    (c.receiveData (skipped ++ keyword :: groups)).1.resizeCall last = some (fieldLength (groups ++ [last])) := by
  have read := receiveData_keyword_groups idle more
  have split : (c.receiveData (skipped ++ keyword :: groups)).1 =
      ((c.receiveData skipped).1.receiveData (keyword :: groups)).1 := by
    simp only [receiveData, Mealy.run_append]
  rw [split, read, resizeCall, if_pos ⟨rfl, ends⟩]
  simp only [or_group, fieldLength, fieldNumber_concat]

/-- Fourteen bits of a length are enough for its last two groups. -/
theorem fieldLength_le_iff (groups : ByteVec) (last : Byte) :
    fieldLength (groups ++ [last]) ≤ 16383 ↔ 2 ^ 50 ∣ fieldNumber groups.dropLast := by
  have low := group_lt last
  rw [fieldLength, fieldNumber_concat, Nat.dvd_iff_mod_eq_zero]
  rcases List.eq_nil_or_concat groups with rfl | ⟨before, b, rfl⟩
  · simp only [fieldNumber, List.foldl_nil, List.dropLast_nil]
    omega
  · have high := group_lt b
    rw [List.concat_eq_append, List.dropLast_concat, fieldNumber_concat]
    omega

/-- The buffer stays within what an encoder can announce for as long as the bytes of
every length field but its last two write a multiple of 2 ^ 50. -/
theorem resizeCalls_le_iff (c : FrameCodec) (waiting : c.m_state = .getKW) (stream : ByteVec) :
    (∀ n ∈ c.resizeCalls stream, n ≤ 16383) ↔
      ∀ skipped groups last later, stream = skipped ++ keyword :: (groups ++ last :: later) →
        (c.receiveData skipped).1.m_state = .getKW → (∀ b ∈ groups, continues b = true) → continues last = false →
        2 ^ 50 ∣ fieldNumber groups.dropLast := by
  constructor
  · intro small skipped groups last later whole idle more ends
    rw [← fieldLength_le_iff groups last]
    refine small _ (mem_resizeCalls.mpr ⟨skipped ++ keyword :: groups, last, later, by simp [whole], ?_⟩)
    exact resizeCall_field idle more ends
  · intro fields n member
    obtain ⟨before, last, later, whole, call⟩ := mem_resizeCalls.mp member
    have here : (c.receiveData before).1.m_state = .getLen ∧ continues last = false := by
      by_contra other
      rw [resizeCall, if_neg other] at call
      cases call
    obtain ⟨skipped, groups, before_, idle, more⟩ := receiveData_getLen waiting here.1
    subst before_
    rw [resizeCall_field idle more here.2] at call
    cases call
    rw [fieldLength_le_iff]
    exact fields skipped groups last later (by simp [whole]) idle more here.2

/-- A leading zero group does no harm. -/
theorem resizeCalls_le_overlong :
    (∀ n ∈ (initial true).resizeCalls [0x11, 0xfd, 0x80, 0xff, 0x7f], n ≤ 16383) ∧
      2 ^ 50 ∣ fieldNumber [0x80] := by
  have small : ∀ n ∈ (initial true).resizeCalls [0x11, 0xfd, 0x80, 0xff, 0x7f], n ≤ 16383 := by decide
  have fields := (resizeCalls_le_iff (initial true) rfl [0x11, 0xfd, 0x80, 0xff, 0x7f]).mp small
  have more : ∀ b ∈ [0x80, 0xff], continues b = true :=
    List.forall_mem_cons.mpr ⟨rfl, List.forall_mem_singleton.mpr rfl⟩
  exact ⟨small, fields [0x11] [0x80, 0xff] 0x7f [] rfl rfl more (by decide)⟩

/-- Four bytes of noise make the decoder ask for two megabytes. -/
theorem resizeCalls_unbounded :
    ¬ ∀ (decodeCB : Bool) (stream : ByteVec), ∀ n ∈ (initial decodeCB).resizeCalls stream, n ≤ 16383 := by
  intro small
  have large := small true [0xfd, 0xff, 0xff, 0x7f] 2097151 (by decide)
  omega

end SerialNet.FrameCodec
