import SerialNet.Lib.Mealy

namespace SerialNet

/-- A queue in a vector: what has been taken out stays in front of `m_headPos` until the
queue is empty, or until a push finds that more than half of the vector is unused. -/
structure VecQueue (El : Type) where
  m_store : List El
  m_headPos : Nat
  head : m_store = [] ∧ m_headPos = 0 ∨ m_headPos < m_store.length

namespace VecQueue

variable {El : Type}

def make : VecQueue El := ⟨[], 0, Or.inl ⟨rfl, rfl⟩⟩

def size (q : VecQueue El) : Nat := q.m_store.length - q.m_headPos

def empty (q : VecQueue El) : Bool := q.m_store.isEmpty

def front (q : VecQueue El) : Option El := q.m_store[q.m_headPos]?

/-- A vector with a position in it, or just behind it. -/
def check_empty (store : List El) (headPos : Nat) (inside : headPos ≤ store.length) : VecQueue El :=
  if atEnd : headPos = store.length then make else ⟨store, headPos, Or.inr (by omega)⟩

def checkRenormalization (q : VecQueue El) : VecQueue El :=
  if large : q.m_headPos > q.m_store.length / 2 then
    ⟨q.m_store.drop q.m_headPos, 0, Or.inr (by
      rw [List.length_drop]
      rcases q.head with ⟨_, zero⟩ | inside
      · omega
      · omega)⟩
  else
    q

def push (q : VecQueue El) (el : El) : VecQueue El :=
  let q := if q.m_store.length > 20 then q.checkRenormalization else q
  ⟨q.m_store ++ [el], q.m_headPos, Or.inr (by
    rw [List.length_append, List.length_singleton]
    rcases q.head with ⟨_, zero⟩ | inside
    · omega
    · omega)⟩

theorem headPos_le (q : VecQueue El) : q.m_headPos ≤ q.m_store.length := by
  rcases q.head with ⟨_, zero⟩ | inside
  · rw [zero]
    exact Nat.zero_le _
  · exact inside.le

theorem headPos_lt {q : VecQueue El} (some : q.empty = false) : q.m_headPos < q.m_store.length := by
  rcases q.head with ⟨none, _⟩ | inside
  · rw [empty, none] at some
    cases some
  · exact inside

def pop (q : VecQueue El) (some : q.empty = false) : VecQueue El :=
  check_empty q.m_store (q.m_headPos + 1) (headPos_lt some)

def pop_back (q : VecQueue El) (some : q.empty = false) : VecQueue El :=
  check_empty q.m_store.dropLast q.m_headPos (by
    have inside := headPos_lt some
    rw [List.length_dropLast]
    omega)

/-! The elements in the queue, first in first out -/

def toList (q : VecQueue El) : List El := q.m_store.drop q.m_headPos

theorem empty_iff {q : VecQueue El} : q.empty = true ↔ q.toList = [] := by
  rw [empty, List.isEmpty_iff, toList, List.drop_eq_nil_iff]
  constructor
  · intro none
    rw [none]
    exact Nat.zero_le _
  · intro behind
    rcases q.head with ⟨none, _⟩ | inside
    · exact none
    · omega

theorem toList_check_empty {store : List El} {headPos : Nat} (inside : headPos ≤ store.length) :
    (check_empty store headPos inside).toList = store.drop headPos := by
  unfold check_empty
  split
  · rename_i atEnd
    rw [atEnd, List.drop_length]
    rfl
  · rfl

theorem toList_checkRenormalization (q : VecQueue El) : q.checkRenormalization.toList = q.toList := by
  unfold checkRenormalization
  split
  · rfl
  · rfl

@[simp] theorem toList_push (q : VecQueue El) (el : El) : (q.push el).toList = q.toList ++ [el] := by
  have append : ∀ r : VecQueue El, (r.m_store ++ [el]).drop r.m_headPos = r.toList ++ [el] := by
    intro r
    rw [toList, List.drop_append_of_le_length r.headPos_le]
  have same : (if q.m_store.length > 20 then q.checkRenormalization else q).toList = q.toList := by
    split
    · exact toList_checkRenormalization q
    · rfl
  exact (append _).trans (by rw [same])

@[simp] theorem empty_push (q : VecQueue El) (el : El) : (q.push el).empty = false := by
  rw [← Bool.not_eq_true, empty_iff, toList_push]
  exact List.append_ne_nil_of_right_ne_nil _ (List.cons_ne_nil _ _)

theorem front_eq (q : VecQueue El) : q.front = q.toList.head? := by
  rw [front, toList, List.head?_drop]

theorem front_of_some {q : VecQueue El} (some : q.empty = false) : ∃ el, q.front = .some el :=
  ⟨_, List.getElem?_eq_getElem (headPos_lt some)⟩

theorem toList_pop {q : VecQueue El} (some : q.empty = false) : (q.pop some).toList = q.toList.tail := by
  rw [pop, toList_check_empty, toList, List.tail_drop]

theorem toList_pop_back {q : VecQueue El} (some : q.empty = false) :
    (q.pop_back some).toList = q.toList.dropLast := by
  rw [pop_back, toList_check_empty, toList, List.dropLast_drop_eq_drop_dropLast]

theorem size_eq (q : VecQueue El) : q.size = q.toList.length := List.length_drop.symm

theorem empty_eq (q : VecQueue El) : q.empty = q.toList.isEmpty := by
  rw [Bool.eq_iff_iff, empty_iff, List.isEmpty_iff]

/-- Short queues aside, at most half of the vector is unused when an element has been
put in. -/
theorem length_push_le (q : VecQueue El) (el : El) :
    (q.push el).m_store.length ≤ max 21 (2 * (q.push el).size + 1) := by
  have inside := q.headPos_le
  unfold push size
  by_cases long : q.m_store.length > 20
  · simp only [if_pos long]
    unfold checkRenormalization
    by_cases large : q.m_headPos > q.m_store.length / 2
    · simp only [dif_pos large, List.length_append, List.length_drop, List.length_singleton]
      omega
    · simp only [dif_neg large, List.length_append, List.length_singleton]
      omega
  · simp only [if_neg long, List.length_append, List.length_singleton]
    omega

end VecQueue

/-! A queue as a list -/

/-- What can be asked of a queue. -/
inductive QueueCall (El : Type)
  | push (el : El)
  | pop
  | pop_back
  | front
  | size
  | empty

inductive QueueAnswer (El : Type)
  | element (el : El)
  | count (n : Nat)
  | flag (b : Bool)
deriving DecidableEq

/-- The elements in a list, first in first out. There must be an element to look at or
to take out. -/
def listServe {El : Type} : List El → QueueCall El → Option (List El × List (QueueAnswer El))
  | l, .push el => some (l ++ [el], [])
  | [], .pop => none
  | _ :: l, .pop => some (l, [])
  | [], .pop_back => none
  | el :: l, .pop_back => some ((el :: l).dropLast, [])
  | [], .front => none
  | el :: l, .front => some (el :: l, [.element el])
  | l, .size => some (l, [.count l.length])
  | l, .empty => some (l, [.flag l.isEmpty])

namespace VecQueue

variable {El : Type}

/-- The program must not call `pop`, `pop_back` or `front` on an empty queue. -/
def serve (q : VecQueue El) : QueueCall El → Option (VecQueue El × List (QueueAnswer El))
  | .push el => some (q.push el, [])
  | .pop => if some : q.empty = false then .some (q.pop some, []) else none
  | .pop_back => if some : q.empty = false then .some (q.pop_back some, []) else none
  | .front => if q.empty then none else q.front.map fun el => (q, [.element el])
  | .size => some (q, [.count q.size])
  | .empty => some (q, [.flag q.empty])

/-- Each call does to the elements in the vector what it does to a list. -/
theorem serve_toList (q : VecQueue El) (c : QueueCall El) :
    (q.serve c).map (Prod.map toList id) = listServe q.toList c := by
  cases busy : q.empty with
  | true =>
    have none := empty_iff.mp busy
    cases c <;> simp [serve, listServe, busy, none, size_eq]
  | false =>
    cases elements : q.toList with
    | nil => simp [empty_eq, elements] at busy
    | cons el rest =>
      cases c with
      | push new => simp [serve, listServe, elements]
      | pop => simp [serve, listServe, busy, toList_pop, elements]
      | pop_back => simp [serve, listServe, busy, toList_pop_back, elements]
      | front => simp [serve, listServe, busy, front_eq, elements]
      | size => simp [serve, listServe, size_eq, elements]
      | empty => simp [serve, listServe, busy, elements]

/-- The invariants that the class documents. -/
structure Kept (q : VecQueue El) : Prop where
  inside : q.m_headPos ≤ q.m_store.length
  atHead : q.m_headPos < q.m_store.length ∨ q.m_headPos = 0
  drained : q.m_store = [] ↔ q.toList = []

theorem kept (q : VecQueue El) : q.Kept := by
  have drained : q.m_store = [] ↔ q.toList = [] := by
    rw [← empty_iff, empty, List.isEmpty_iff]
  rcases q.head with ⟨_, zero⟩ | inside
  · exact ⟨q.headPos_le, Or.inr zero, drained⟩
  · exact ⟨q.headPos_le, Or.inl inside, drained⟩

/-- A queue that is used by its calls only answers as the list would, allows the same
calls, keeps its invariants, and does not let the unused part of the vector grow. -/
theorem refines_list (calls : List (QueueCall El)) :
    (Mealy.attempt serve make calls).map (Prod.map toList id) = Mealy.attempt listServe [] calls ∧
      ∀ q answers, Mealy.attempt serve make calls = some (q, answers) →
        q.size = q.toList.length ∧ q.empty = q.toList.isEmpty ∧ q.Kept ∧
          ∀ before el, calls = before ++ [.push el] → q.m_store.length ≤ max 21 (2 * q.size + 1) := by
  refine ⟨Mealy.attempt_view toList serve_toList make calls, ?_⟩
  intro q answers run
  refine ⟨q.size_eq, q.empty_eq, q.kept, ?_⟩
  intro before el last
  rw [last] at run
  obtain ⟨r, _, _, _, pushed, _⟩ := Mealy.attempt_concat_eq_some run
  cases pushed
  exact length_push_le r el

end VecQueue

end SerialNet
