import Mathlib.Data.List.TakeWhile
import SerialNet.FrameRoundTrip

namespace SerialNet.FrameCodec

/-! The length field -/

/-- Bit 7 of a length byte announces another one. -/
def continues (b : Byte) : Bool := b &&& 0x80 ≠ 0

/-- The seven bits a length byte contributes. -/
def group (b : Byte) : Nat := (b &&& 0x7f).toNat

/-- The number written by the groups, most significant first. -/
def fieldNumber (field : ByteVec) : Nat := field.foldl (fun n b => 128 * n + group b) 0

/-- A length is a `size_t`. -/
def fieldLength (field : ByteVec) : Nat := fieldNumber field % 2 ^ 64

theorem group_lt (b : Byte) : group b < 128 := by
  rw [group, UInt8.toNat_and]
  exact Nat.lt_of_le_of_lt Nat.and_le_right (by decide)

theorem fieldNumber_concat (field : ByteVec) (b : Byte) :
    fieldNumber (field ++ [b]) = 128 * fieldNumber field + group b := by
  rw [fieldNumber, List.foldl_append]
  rfl

/-- The bits below a shifted accumulator are free for the next group. -/
theorem or_group (n : Nat) (b : Byte) :
    128 * n % 2 ^ 64 ||| group b = (128 * n + group b) % 2 ^ 64 := by
  have low := group_lt b
  have high : 128 * n % 2 ^ 64 = 2 ^ 7 * (n % 2 ^ 57) := by omega
  rw [high, ← Nat.two_pow_add_eq_or_of_lt low]
  omega

theorem decodeByte_continues {c : FrameCodec} (reading : c.m_state = .getLen) {n : Nat}
    (shifted : c.m_length = 128 * n % 2 ^ 64) {b : Byte} (more : continues b = true) :
    c.decodeByte b =
      ({ c with m_checksum := c.m_checksum ^^^ b, m_length := 128 * (128 * n + group b) % 2 ^ 64 }, []) := by
  have bit : b &&& 0x80 ≠ 0 := of_decide_eq_true more
  have value := or_group n b
  rw [group] at value
  simp only [decodeByte, reading, shifted, value, ne_eq, bit, not_false_eq_true, if_true, Nat.shiftLeft_eq, group]
  congr 2
  omega

theorem decodeByte_ends {c : FrameCodec} (reading : c.m_state = .getLen) {n : Nat}
    (shifted : c.m_length = 128 * n % 2 ^ 64) {b : Byte} (last : continues b = false) :
    c.decodeByte b =
      ({ c with m_checksum := c.m_checksum ^^^ b, m_length := (128 * n + group b) % 2 ^ 64, m_index := 0,
                m_state := .getData
                m_decodePacket := resize c.m_decodePacket ((128 * n + group b) % 2 ^ 64) }, []) := by
  have bit : ¬ (b &&& 0x80 ≠ 0) := of_decide_eq_false last
  have value := or_group n b
  rw [group] at value
  simp only [decodeByte, reading, shifted, value, bit, if_false, group]

theorem receiveData_groups {c : FrameCodec} (reading : c.m_state = .getLen) (read : ByteVec)
    (shifted : c.m_length = 128 * fieldNumber read % 2 ^ 64) {groups : ByteVec}
    (more : ∀ b ∈ groups, continues b = true) :
    c.receiveData groups =
      ({ c with m_checksum := checksum c.m_checksum groups
                m_length := 128 * fieldNumber (read ++ groups) % 2 ^ 64 }, []) := by
  induction groups generalizing c read with
  | nil =>
    rw [List.append_nil, ← shifted]
    rfl
  | cons b rest ih =>
    have first := decodeByte_continues reading shifted (more b List.mem_cons_self)
    rw [← fieldNumber_concat] at first
    rw [receiveData, Mealy.run_cons, first]
    have later := ih (c := { c with m_checksum := c.m_checksum ^^^ b, m_length := _ }) reading (read ++ [b]) rfl
      fun b' member => more b' (List.mem_cons_of_mem _ member)
    simp only [receiveData, List.append_assoc, List.singleton_append] at later
    rw [later]
    rfl

/-! Frames -/

/-- A frame as it stands in a byte stream, right or wrong. -/
structure Frame where
  groups : ByteVec
  last : Byte
  payload : ByteVec
  check : Byte
  filler : Byte
  more : ∀ b ∈ groups, continues b = true
  ends : continues last = false
  size : payload.length = fieldLength (groups ++ [last])

namespace Frame

def field (f : Frame) : ByteVec := f.groups ++ [f.last]

/-- What the checksum is taken of, itself included. -/
def body (f : Frame) : ByteVec := keyword :: (f.field ++ (f.payload ++ [f.check]))

def bytes (f : Frame) : ByteVec := f.body ++ [f.filler]

def intact (f : Frame) : Bool := checksum 0 f.body = 0

end Frame

/-- A decoder that has read the keyword and a length field. -/
def opened (c : FrameCodec) (field : ByteVec) : FrameCodec :=
  { c with m_state := .getData, m_length := fieldLength field, m_index := 0
           m_checksum := checksum 0 (keyword :: field)
           m_decodePacket := resize c.m_decodePacket (fieldLength field) }

/-- A decoder that has read a whole frame. -/
def closed (c : FrameCodec) (f : Frame) : FrameCodec :=
  { c with m_state := .getKW, m_length := f.payload.length, m_index := f.payload.length
           m_checksum := checksum 0 f.body, m_decodePacket := f.payload }

theorem decodeByte_keyword {c : FrameCodec} (waiting : c.m_state = .getKW) :
    c.decodeByte keyword = ({ c with m_checksum := keyword, m_state := .getLen, m_length := 0 }, []) := by
  simp [decodeByte, waiting]

theorem receiveData_keyword_groups {c : FrameCodec} (waiting : c.m_state = .getKW) {groups : ByteVec}
    (more : ∀ b ∈ groups, continues b = true) :
    c.receiveData (keyword :: groups) =
      ({ c with m_state := .getLen, m_checksum := checksum 0 (keyword :: groups)
                m_length := 128 * fieldNumber groups % 2 ^ 64 }, []) := by
  have read := receiveData_groups (c := { c with m_checksum := keyword, m_state := .getLen, m_length := 0 })
    rfl [] rfl more
  simp only [receiveData] at read
  rw [receiveData, Mealy.run_cons, decodeByte_keyword waiting, read]
  rfl

theorem checksum_append (start : Byte) (before after : ByteVec) :
    checksum start (before ++ after) = checksum (checksum start before) after := List.foldl_append

theorem receiveData_field {c : FrameCodec} (waiting : c.m_state = .getKW) {groups : ByteVec}
    (more : ∀ b ∈ groups, continues b = true) {last : Byte} (ends : continues last = false) :
    c.receiveData (keyword :: (groups ++ [last])) = (c.opened (groups ++ [last]), []) := by
  have read := receiveData_keyword_groups waiting more
  simp only [receiveData] at read
  rw [receiveData, ← List.cons_append, Mealy.run_append, read, Mealy.run_cons]
  rw [decodeByte_ends (n := fieldNumber groups) rfl rfl ends, ← fieldNumber_concat]
  simp only [Mealy.run_nil, List.append_nil, opened, fieldLength]
  rw [← List.cons_append, checksum_append]
  rfl

theorem receiveData_opened {c : FrameCodec} (f : Frame) (nonempty : f.payload ≠ []) :
    (c.opened f.field).receiveData f.payload =
      ({ c with m_state := .getChecksum, m_length := f.payload.length, m_index := f.payload.length
                m_checksum := checksum 0 (keyword :: (f.field ++ f.payload)), m_decodePacket := f.payload }, []) := by
  have size : fieldLength f.field = f.payload.length := f.size.symm
  have payload := receiveData_payload (c := c.opened f.field) rfl (length_resize _ _)
    (Nat.mod_lt _ (Nat.two_pow_pos 64)) nonempty (by simp [opened, size])
  rw [payload, ← List.cons_append, checksum_append]
  simp only [opened, size, List.take_zero, List.nil_append]

/-- A frame is delivered exactly when its checksum is right, and the decoder waits for
the next one either way. -/
theorem receiveData_bytes {c : FrameCodec} (waiting : c.m_state = .getKW) (f : Frame) (nonempty : f.payload ≠ []) :
    c.receiveData f.bytes = (c.closed f, if f.intact ∧ c.m_decodeCB then [f.payload] else []) := by
  have field : c.receiveData (keyword :: f.field) = (c.opened f.field, []) := receiveData_field waiting f.more f.ends
  have payload := receiveData_opened (c := c) f nonempty
  have split : f.bytes = (keyword :: f.field) ++ (f.payload ++ [f.check, f.filler]) := by
    simp [Frame.bytes, Frame.body]
  have sum : checksum 0 f.body = checksum 0 (keyword :: (f.field ++ f.payload)) ^^^ f.check := by
    rw [Frame.body, ← List.append_assoc, ← List.cons_append, checksum_append]
    rfl
  simp only [receiveData] at field payload
  rw [receiveData, split, Mealy.run_append, field, Mealy.run_append, payload]
  simp only [Mealy.run_cons, Mealy.run_nil, decodeByte, List.nil_append, List.append_nil, closed, Frame.intact, sum,
    List.take_length, decide_eq_true_eq]

/-! The reference parser -/

theorem continues_of_takeWhile {bytes : ByteVec} : ∀ b ∈ bytes.takeWhile continues, continues b = true := by
  intro b member
  exact List.all_eq_true.mp List.all_takeWhile b member

theorem ends_of_dropWhile {bytes rest : ByteVec} {last : Byte} (found : bytes.dropWhile continues = last :: rest) :
    continues last = false := by
  have head := List.head?_dropWhile_not continues bytes
  rw [found] at head
  simpa using head

theorem length_take_of_drop {rest later : ByteVec} {n : Nat} {check : Byte} (after : rest.drop n = check :: later) :
    (rest.take n).length = n := by
  have length := congrArg List.length after
  rw [List.length_drop, List.length_cons] at length
  rw [List.length_take]
  omega

/-- What follows a keyword: a length field, as many bytes as it says, a checksum and a
filler. -/
def readFrame (bytes : ByteVec) : Option (Frame × ByteVec) :=
  match found : bytes.dropWhile continues with
  | [] => none
  | last :: rest =>
    let n := fieldLength (bytes.takeWhile continues ++ [last])
    match after : rest.drop n with
    | check :: filler :: later =>
      some ({ groups := bytes.takeWhile continues, last, payload := rest.take n, check, filler
              more := continues_of_takeWhile
              ends := ends_of_dropWhile found
              size := length_take_of_drop after }, later)
    | _ => none

/-- Either there is a frame, or the bytes end before its filler. -/
theorem readFrame_cases (bytes : ByteVec) :
    (∃ f later, readFrame bytes = some (f, later) ∧ keyword :: bytes = f.bytes ++ later) ∨
    (readFrame bytes = none ∧ ((∀ b ∈ bytes, continues b = true) ∨
      ∃ groups last rest, bytes = groups ++ last :: rest ∧ (∀ b ∈ groups, continues b = true) ∧
        continues last = false ∧ rest.length < fieldLength (groups ++ [last]) + 2)) := by
  have whole := List.takeWhile_append_dropWhile (p := continues) (l := bytes)
  unfold readFrame
  split
  · rename_i none
    refine Or.inr ⟨rfl, Or.inl ?_⟩
    rw [none, List.append_nil] at whole
    rw [← whole]
    exact continues_of_takeWhile
  · rename_i last rest found
    rw [found] at whole
    dsimp only
    split
    · rename_i check filler later after
      refine Or.inl ⟨_, _, rfl, ?_⟩
      have payload := List.take_append_drop (fieldLength (bytes.takeWhile continues ++ [last])) rest
      rw [after] at payload
      simp only [Frame.bytes, Frame.body, Frame.field, List.cons_append, List.append_assoc, List.nil_append,
        payload, whole]
    · rename_i short
      refine Or.inr ⟨rfl, Or.inr ⟨_, last, rest, whole.symm, continues_of_takeWhile, ends_of_dropWhile found, ?_⟩⟩
      by_contra enough
      have length := List.length_drop (i := fieldLength (bytes.takeWhile continues ++ [last])) (l := rest)
      match after : rest.drop (fieldLength (bytes.takeWhile continues ++ [last])) with
      | [] =>
        rw [after] at length
        simp only [List.length_nil] at length
        omega
      | [_] =>
        rw [after] at length
        simp only [List.length_cons, List.length_nil] at length
        omega
      | check :: filler :: later => exact short check filler later after

theorem readFrame_shortens {bytes later : ByteVec} {f : Frame} (read : readFrame bytes = some (f, later)) :
    later.length < bytes.length := by
  rcases readFrame_cases bytes with ⟨f', later', read', whole⟩ | ⟨none, _⟩
  · rw [read] at read'
    cases read'
    have length := congrArg List.length whole
    simp only [Frame.bytes, Frame.body, List.length_append, List.length_cons, List.length_nil] at length
    omega
  · rw [read] at none
    cases none

/-- Skip to a keyword, read a frame, go on after it: the frames of a stream, each
with the bytes skipped before it. -/
def parse (stream : ByteVec) : List (ByteVec × Frame) :=
  match _found : stream.dropWhile (· ≠ keyword) with
  | [] => []
  | _ :: rest =>
    match _read : readFrame rest with
    | none => []
    | some (f, later) => (stream.takeWhile (· ≠ keyword), f) :: parse later
termination_by stream.length
decreasing_by
  have shorter := readFrame_shortens _read
  have length := (List.dropWhile_suffix (· ≠ keyword) : _ <:+ stream).length_le
  rw [_found, List.length_cons] at length
  omega

theorem parse_clean {stream : ByteVec} (clean : keyword ∉ stream) : parse stream = [] := by
  have none : stream.dropWhile (· ≠ keyword) = [] := by
    refine List.dropWhile_eq_nil_iff.mpr ?_
    intro b member
    exact decide_eq_true fun same => clean (same ▸ member)
  rw [parse]
  split
  · rfl
  · rename_i found
    rw [none] at found
    cases found

theorem parse_skip {skipped : ByteVec} (clean : keyword ∉ skipped) (rest : ByteVec) :
    parse (skipped ++ keyword :: rest) =
      (readFrame rest).elim [] fun read => (skipped, read.1) :: parse read.2 := by
  have other : ∀ b ∈ skipped, decide (b ≠ keyword) = true := by
    intro b member
    exact decide_eq_true fun same => clean (same ▸ member)
  have found : (skipped ++ keyword :: rest).dropWhile (· ≠ keyword) = keyword :: rest := by
    rw [List.dropWhile_append_of_pos other]
    simp
  have before : (skipped ++ keyword :: rest).takeWhile (· ≠ keyword) = skipped := by
    rw [List.takeWhile_append_of_pos other]
    simp
  rw [parse]
  split
  · rename_i none
    rw [found] at none
    cases none
  · rename_i head rest' found'
    rw [found] at found'
    cases found'
    split
    · rename_i none
      rw [none]
      rfl
    · rename_i f later read
      rw [read, before]
      rfl

/-! Decoder and parser agree -/

theorem eq_nil_or_singleton {bytes : ByteVec} (short : bytes.length < 2) : bytes = [] ∨ ∃ b, bytes = [b] := by
  rcases List.eq_nil_or_concat bytes with none | ⟨before, b, rfl⟩
  · exact Or.inl none
  · rw [List.concat_eq_append, List.length_append, List.length_singleton] at short
    have first : before = [] := List.length_eq_zero_iff.mp (by omega)
    exact Or.inr ⟨b, by rw [first]; rfl⟩

/-- Before its filler a frame is in progress and nothing of it is delivered. -/
theorem receiveData_short {c : FrameCodec} (reading : c.m_state = .getData) (bound : c.m_length < 2 ^ 64)
    (inside : c.m_index < c.m_length) {bytes : ByteVec} (short : c.m_index + bytes.length < c.m_length + 2) :
    (c.receiveData bytes).1.m_state ≠ .getKW ∧ (c.receiveData bytes).2 = [] := by
  induction bytes generalizing c with
  | nil =>
    refine ⟨?_, rfl⟩
    show c.m_state ≠ .getKW
    rw [reading]
    decide
  | cons b rest ih =>
    simp only [List.length_cons] at short
    rw [receiveData, Mealy.run_cons, decodeByte_getData reading (by omega)]
    by_cases full : c.m_index + 1 = c.m_length
    · rcases eq_nil_or_singleton (show rest.length < 2 by omega) with rfl | ⟨check, rfl⟩
      · simp [full]
      · simp [full, Mealy.run_cons, decodeByte]
    · simp only [full, if_false, List.nil_append]
      exact ih rfl bound (by show c.m_index + 1 < c.m_length; omega)
        (by show c.m_index + 1 + rest.length < c.m_length + 2; omega)

/-- An unfinished frame is not delivered. -/
theorem receiveData_unfinished {c : FrameCodec} (waiting : c.m_state = .getKW) {bytes : ByteVec}
    (none : readFrame bytes = none) : (c.receiveData (keyword :: bytes)).2 = [] := by
  rcases readFrame_cases bytes with ⟨f, later, read, _⟩ | ⟨_, more | ⟨groups, last, rest, whole, more, ends, short⟩⟩
  · rw [none] at read
    cases read
  · rw [receiveData_keyword_groups waiting more]
  · have field := receiveData_field waiting more ends
    have split : keyword :: bytes = (keyword :: (groups ++ [last])) ++ rest := by simp [whole]
    simp only [receiveData] at field
    rw [receiveData, split, Mealy.run_append, field]
    by_cases empty : fieldLength (groups ++ [last]) = 0
    · rw [empty] at short
      rcases eq_nil_or_singleton short with rfl | ⟨b, rfl⟩
      · rfl
      · simp only [Mealy.run_cons, Mealy.run_nil, decodeByte, opened, List.append_nil, List.nil_append]
        split <;> rfl
    · have bound : fieldLength (groups ++ [last]) < 2 ^ 64 := Nat.mod_lt _ (Nat.two_pow_pos 64)
      have quiet := receiveData_short (c := c.opened (groups ++ [last])) rfl bound (Nat.pos_of_ne_zero empty)
        (by simpa [opened] using short)
      exact quiet.2

/-- The frames of a stream, with what was skipped before them, and the bytes after the
last one make up the stream. -/
theorem parse_covers (stream : ByteVec) :
    ∃ rest, stream = (parse stream).flatMap (fun read => read.1 ++ read.2.bytes) ++ rest := by
  induction length : stream.length using Nat.strongRecOn generalizing stream with
  | ind n ih =>
    by_cases member : keyword ∈ stream
    · obtain ⟨skipped, rest, whole, clean⟩ := List.eq_append_cons_of_mem member
      subst whole
      rw [parse_skip clean]
      rcases readFrame_cases rest with ⟨f, later, read, split⟩ | ⟨none, _⟩
      · have shorter := readFrame_shortens read
        simp only [List.length_append, List.length_cons] at length
        obtain ⟨tail, covered⟩ := ih later.length (by omega) later rfl
        refine ⟨tail, ?_⟩
        simp only [read, Option.elim_some, List.flatMap_cons, List.append_assoc] at covered ⊢
        rw [← covered, split]
      · rw [none]
        exact ⟨_, rfl⟩
    · rw [parse_clean member]
      exact ⟨stream, rfl⟩

/-- The payloads of the frames whose checksum is right. -/
def delivered (stream : ByteVec) : List ByteVec :=
  (((parse stream).map (·.2)).filter Frame.intact).map Frame.payload

/-- The decoder is the grammar, on every stream without an announced length of zero:
it delivers the intact frames, which follow one another in the stream. -/
theorem receiveData_eq_delivered (c : FrameCodec) (waiting : c.m_state = .getKW) (listening : c.m_decodeCB = true)
    (stream : ByteVec) (nonzero : ∀ read ∈ parse stream, fieldLength read.2.field ≠ 0) :
    (c.receiveData stream).2 = delivered stream ∧
      ∃ rest, stream = (parse stream).flatMap (fun read => read.1 ++ read.2.bytes) ++ rest := by
  refine ⟨?_, parse_covers stream⟩
  induction length : stream.length using Nat.strongRecOn generalizing stream c with
  | ind n ih =>
    by_cases member : keyword ∈ stream
    · obtain ⟨skipped, rest, whole, clean⟩ := List.eq_append_cons_of_mem member
      subst whole
      have quiet := receiveData_noise waiting clean
      simp only [receiveData] at quiet
      rw [delivered, receiveData, Mealy.run_append, quiet, List.nil_append]
      rw [parse_skip clean] at nonzero ⊢
      rcases readFrame_cases rest with ⟨f, later, read, split⟩ | ⟨none, _⟩
      · rw [read, Option.elim_some] at nonzero ⊢
        have here := nonzero (skipped, f) List.mem_cons_self
        have nonempty : f.payload ≠ [] := by
          intro empty
          have size := f.size
          rw [empty] at size
          exact here size.symm
        have shorter := readFrame_shortens read
        simp only [List.length_append, List.length_cons] at length
        have frame := receiveData_bytes waiting f nonempty
        have tail := ih later.length (by omega) (c.closed f) rfl listening later
          (fun r inside => nonzero r (List.mem_cons_of_mem _ inside)) rfl
        simp only [receiveData] at frame tail
        rw [split, Mealy.run_append, frame, tail]
        simp only [listening, and_true, delivered, List.map_cons, List.filter_cons]
        cases f.intact <;> rfl
      · rw [none]
        exact receiveData_unfinished waiting none
    · rw [receiveData_noise waiting member, delivered, parse_clean member]
      rfl

/-- A length field with a byte too many, a keyword as payload, and any filler. -/
def sampleFrame : Frame :=
  ⟨[0x80], 0x01, [0xfd], 0x81, 0x00, List.forall_mem_singleton.mpr rfl, by decide, by decide⟩

theorem parse_sampleFrame : parse (0x41 :: sampleFrame.bytes) = [([0x41], sampleFrame)] := by
  have read : readFrame [0x80, 0x01, 0xfd, 0x81, 0x00] = some (sampleFrame, []) := rfl
  have split : 0x41 :: sampleFrame.bytes = [0x41] ++ keyword :: [0x80, 0x01, 0xfd, 0x81, 0x00] := rfl
  rw [split, parse_skip (by decide), read, Option.elim_some, parse_clean List.not_mem_nil]

theorem receiveData_eq_delivered_sample :
    ((initial true).receiveData (0x41 :: sampleFrame.bytes)).2 = [[0xfd]] := by
  have agree := receiveData_eq_delivered (initial true) rfl rfl (0x41 :: sampleFrame.bytes) (by
    rw [parse_sampleFrame]
    decide)
  rw [agree.1, delivered, parse_sampleFrame]
  rfl

end SerialNet.FrameCodec
