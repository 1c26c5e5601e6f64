import SerialNet.FrameRoundTrip

namespace SerialNet.FrameCodec

/-- What can happen to a decoder: a byte from the wire, or a call of `reset`. -/
inductive DecodeOp
  | byte (b : Byte)
  | reset

def apply (c : FrameCodec) : DecodeOp → FrameCodec
  | .byte b => (c.decodeByte b).1
  | .reset => c.reset

def applyAll (c : FrameCodec) (ops : List DecodeOp) : FrameCodec := ops.foldl apply c

theorem applyAll_append (c : FrameCodec) (before later : List DecodeOp) :
    c.applyAll (before ++ later) = (c.applyAll before).applyAll later := by
  simp only [applyAll, List.foldl_append]

/-- The write `m_decodePacket[m_index++]` hits the buffer. -/
def WriteInside (c : FrameCodec) : Prop :=
  c.m_index < c.m_length ∧ c.m_length = c.m_decodePacket.length

/-- Over a whole stream, every byte taken in `getData` is written inside the
buffer, and `getData` lasts for exactly the announced number of bytes. -/
structure IndexSafe (c : FrameCodec) (ops : List DecodeOp) : Prop where
  inside : ∀ before b later, ops = before ++ .byte b :: later →
    (c.applyAll before).m_state = .getData → (c.applyAll before).WriteInside
  leaves : ∀ before b (bytes : ByteVec) later, ops = before ++ .byte b :: (bytes.map .byte ++ later) →
    (c.applyAll before).m_state = .getLen →
    (c.applyAll (before ++ [.byte b])).m_state = .getData →
    bytes.length ≤ (c.applyAll (before ++ [.byte b])).m_length →
    ((c.applyAll (before ++ .byte b :: bytes.map .byte)).m_state = .getData ↔
      bytes.length < (c.applyAll (before ++ [.byte b])).m_length)

/-- The byte closes a length field whose value is zero. -/
def ClosesZeroLength (c : FrameCodec) (b : Byte) : Prop :=
  c.m_state = .getLen ∧ c.m_length = 0 ∧ b = 0

/-- What the decoder keeps true between two bytes. -/
structure IndexInvariant (c : FrameCodec) : Prop where
  bound : c.m_length < 2 ^ 64
  inside : c.m_state = .getData → c.WriteInside

theorem indexInvariant_initial (decodeCB : Bool) : IndexInvariant (initial decodeCB) :=
  ⟨Nat.two_pow_pos 64, by rintro ⟨⟩⟩

theorem length_or_lt {n : Nat} (bound : n < 2 ^ 64) (b : Byte) : n ||| (b &&& 0x7f).toNat < 2 ^ 64 :=
  Nat.or_lt_two_pow bound ((UInt8.toNat_lt _).trans (by decide))

/-- A length field only becomes zero through a zero byte that follows zeros. -/
theorem length_or_eq_zero {n : Nat} {b : Byte} (last : b &&& 0x80 = 0)
    (zero : n ||| (b &&& 0x7f).toNat = 0) : n = 0 ∧ b = 0 := by
  obtain ⟨none, low⟩ := Nat.or_eq_zero_iff.mp zero
  refine ⟨none, ?_⟩
  have low' : b.toNat % 128 = 0 := by
    rw [← low, UInt8.toNat_and]
    exact (Nat.and_two_pow_sub_one_eq_mod _ 7).symm
  have range := UInt8.toNat_lt b
  rcases (by omega : b.toNat = 0 ∨ b.toNat = 128) with zero | top
  · exact UInt8.toNat_inj.mp zero
  · have same : b = 0x80 := UInt8.toNat_inj.mp top
    subst same
    exact absurd last (by decide)

theorem IndexInvariant.apply {c : FrameCodec} (inv : IndexInvariant c) (op : DecodeOp)
    (nonzero : ∀ b, op = .byte b → ¬ c.ClosesZeroLength b) : IndexInvariant (c.apply op) := by
  cases op with
  | reset => exact ⟨inv.bound, by rintro ⟨⟩⟩
  | byte b =>
    simp only [FrameCodec.apply]
    cases state : c.m_state with
    | getKW =>
      simp only [decodeByte, state]
      split
      · exact ⟨Nat.two_pow_pos 64, by rintro ⟨⟩⟩
      · exact inv
    | getLen =>
      simp only [decodeByte, state]
      split
      · exact ⟨Nat.mod_lt _ (by decide), by rintro ⟨⟩⟩
      · rename_i last
        refine ⟨length_or_lt inv.bound b, fun _ => ⟨?_, by simp⟩⟩
        refine Nat.pos_of_ne_zero fun zero => ?_
        obtain ⟨none, zeroByte⟩ := length_or_eq_zero (not_not.mp last) zero
        exact nonzero b rfl ⟨state, none, zeroByte⟩
    | getData =>
      obtain ⟨below, size⟩ := inv.inside state
      have bound := inv.bound
      rw [decodeByte_getData state (by omega)]
      refine ⟨bound, fun reading => ⟨?_, by simpa using size⟩⟩
      by_cases full : c.m_index + 1 = c.m_length
      · simp [full] at reading
      · show c.m_index + 1 < c.m_length
        omega
    | getChecksum => exact ⟨by simpa [decodeByte, state] using inv.bound, by simp [decodeByte, state]⟩
    | getFiller => exact ⟨by simpa [decodeByte, state] using inv.bound, by simp [decodeByte, state]⟩

theorem IndexInvariant.applyAll {c : FrameCodec} (inv : IndexInvariant c) {ops : List DecodeOp}
    (nonzero : ∀ before b later, ops = before ++ .byte b :: later →
      ¬ (c.applyAll before).ClosesZeroLength b) : IndexInvariant (c.applyAll ops) := by
  induction ops generalizing c with
  | nil => exact inv
  | cons op rest ih =>
    have first := inv.apply op fun b same => nonzero [] b rest (by rw [same]; rfl)
    refine ih first fun before b later same => ?_
    have whole := nonzero (op :: before) b later (by rw [same]; rfl)
    exact whole

/-- Uninterrupted payload bytes keep the decoder in `getData` until the last
one of them has come. -/
theorem applyAll_getData {c : FrameCodec} (inv : IndexInvariant c) (reading : c.m_state = .getData)
    {bytes : ByteVec} (fits : c.m_index + bytes.length ≤ c.m_length) :
    (c.applyAll (bytes.map .byte)).m_state = .getData ↔ c.m_index + bytes.length < c.m_length := by
  induction bytes generalizing c with
  | nil => exact ⟨fun _ => (inv.inside reading).1, fun _ => reading⟩
  | cons b rest ih =>
    simp only [List.length_cons] at fits
    have bound := inv.bound
    have noLength : ∀ b' : Byte, ¬ c.ClosesZeroLength b' := by
      intro b' zero
      cases reading.symm.trans zero.1
    have next := inv.apply (.byte b) fun b' _ => noLength b'
    simp only [List.map_cons, FrameCodec.applyAll, List.foldl_cons, FrameCodec.apply] at next ⊢
    rw [decodeByte_getData reading (by omega)] at next ⊢
    by_cases full : c.m_index + 1 = c.m_length
    · have done : rest = [] := List.eq_nil_of_length_eq_zero (by omega)
      subst done
      simp [full]
    · simp only [full, if_false] at next ⊢
      refine (ih next rfl (by show c.m_index + 1 + rest.length ≤ c.m_length; omega)).trans ?_
      show c.m_index + 1 + rest.length < c.m_length ↔ c.m_index + (rest.length + 1) < c.m_length
      omega

theorem apply_closesZeroLength {c : FrameCodec} {b : Byte} (zero : c.ClosesZeroLength b) :
    (c.apply (.byte b)).m_state = .getData ∧ (c.apply (.byte b)).m_length = 0 := by
  obtain ⟨state, none, zeroByte⟩ := zero
  subst zeroByte
  simp [FrameCodec.apply, decodeByte, state, none]

/-- A length field enters `getData` with the index at the start of the buffer. -/
theorem apply_getLen_index {c : FrameCodec} {b : Byte} (state : c.m_state = .getLen)
    (entered : (c.apply (.byte b)).m_state = .getData) : (c.apply (.byte b)).m_index = 0 := by
  simp only [FrameCodec.apply, decodeByte, state] at entered ⊢
  split at entered
  · cases entered
  · rename_i last
    rw [if_neg last]

/-- The decoder is index safe on exactly those streams in which no length
field announces zero bytes: for those `m_index == m_length` is never met. -/
theorem indexSafe_iff (decodeCB : Bool) (ops : List DecodeOp) :
    IndexSafe (initial decodeCB) ops ↔
      ∀ before b later, ops = before ++ .byte b :: later →
        ¬ ((initial decodeCB).applyAll before).ClosesZeroLength b := by
  constructor
  · intro safe before b later same zero
    have next := apply_closesZeroLength zero
    have entered : (initial decodeCB).applyAll (before ++ [.byte b]) =
        ((initial decodeCB).applyAll before).apply (.byte b) := by simp [applyAll]
    have stays := safe.leaves before b [] later same zero.1 (by rw [entered]; exact next.1)
      (Nat.zero_le _)
    rw [List.map_nil, entered, next.2] at stays
    exact Nat.lt_irrefl 0 (stays.mp next.1)
  · intro nonzero
    have reached (before after : List DecodeOp) (same : ops = before ++ after) :
        IndexInvariant ((initial decodeCB).applyAll before) :=
      (indexInvariant_initial decodeCB).applyAll fun early b late split =>
        nonzero early b (late ++ after) (by rw [same, split]; simp)
    refine ⟨fun before b later same => (reached before _ same).inside, ?_⟩
    intro before b bytes later same state entered fits
    have inv := reached (before ++ [.byte b]) (bytes.map .byte ++ later) (by simp [same])
    have split : (before ++ .byte b :: bytes.map .byte) = (before ++ [.byte b]) ++ bytes.map .byte := by simp
    have index : ((initial decodeCB).applyAll (before ++ [.byte b])).m_index = 0 := by
      rw [applyAll_append] at entered ⊢
      exact apply_getLen_index state entered
    rw [split, applyAll_append, applyAll_getData inv entered (by omega), index, Nat.zero_add]

/-- Keyword, length byte zero, and one more byte: it is written past the end
of an empty buffer. -/
theorem zeroLength_writes_outside :
    ¬ IndexSafe (initial true) [.byte 0xfd, .byte 0x00, .byte 0x41] := by
  intro safe
  have written := safe.inside [.byte 0xfd, .byte 0x00] 0x41 [] rfl (by decide)
  exact absurd written.1 (by decide)

end SerialNet.FrameCodec
