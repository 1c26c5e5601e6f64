import Mathlib.Tactic

/-! Memory that is read from the start of a buffer on. The buffer ends somewhere; what the
memory behind it holds is anything. -/

namespace Span

variable {α : Type*}

/-- The first `size` elements in memory. -/
def span (behind : Nat → α) (held : List α) (size : Nat) : List α :=
  held.take size ++ (List.range (size - held.length)).map behind

/-- `size` elements from an offset on. -/
def part (behind : Nat → α) (held : List α) (offset size : Nat) : List α :=
  (span behind held (offset + size)).drop offset

variable (behind : Nat → α) (held : List α) (offset size : Nat)

@[simp] theorem length_span : (span behind held size).length = size := by
  rw [span, List.length_append, List.length_take, List.length_map, List.length_range]
  omega

@[simp] theorem length_part : (part behind held offset size).length = size := by
  rw [part, List.length_drop, length_span]
  omega

variable {held offset size}

theorem span_of_le (inside : size ≤ held.length) : span behind held size = held.take size := by
  rw [span, Nat.sub_eq_zero_of_le inside, List.range_zero, List.map_nil, List.append_nil]

/-- Nothing but the buffer is read if and only if it is long enough. -/
theorem span_isPrefix_iff : span behind held size <+: held ↔ size ≤ held.length := by
  constructor
  · intro inside
    have bound := inside.length_le
    rw [length_span] at bound
    exact bound
  · intro inside
    rw [span_of_le behind inside]
    exact List.take_prefix size held

theorem part_of_le (inside : offset + size ≤ held.length) :
    part behind held offset size = (held.drop offset).take size := by
  rw [part, span_of_le behind inside, List.drop_take, Nat.add_sub_cancel_left]

end Span
