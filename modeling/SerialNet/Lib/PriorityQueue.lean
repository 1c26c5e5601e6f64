import Mathlib.Tactic

/-- A priority queue for a comparison that is a strict weak order: its top is an element
that is greater than none of the others. Which one it is where several are, is left open. -/
structure PriorityQueue (α : Type) (greater : α → α → Prop) [IsStrictWeakOrder α greater] where
  Heap : Type
  contents : Heap → Multiset α
  empty : Heap
  emplace : Heap → α → Heap
  top : Heap → Option α
  pop : Heap → Heap
  contents_empty : contents empty = 0
  contents_emplace : ∀ h a, contents (emplace h a) = a ::ₘ contents h
  top_eq_none : ∀ {h}, top h = none → contents h = 0
  not_greater : ∀ {h a}, top h = some a → ∀ b ∈ contents h, ¬ greater a b
  contents_pop : ∀ {h a}, top h = some a → a ::ₘ contents (pop h) = contents h

namespace PriorityQueue

variable {α : Type} {greater : α → α → Prop} [IsStrictWeakOrder α greater] (queue : PriorityQueue α greater)

theorem card_pop_lt {h : queue.Heap} {a : α} (top : queue.top h = some a) :
    (queue.contents (queue.pop h)).card < (queue.contents h).card := by
  rw [← queue.contents_pop top, Multiset.card_cons]
  exact Nat.lt_succ_self _

/-- Take elements from the top as long as they are due. -/
def drain (due : α → Bool) (h : queue.Heap) : List α × queue.Heap :=
  match top : queue.top h with
  | none => ([], h)
  | some a =>
    if due a then
      have := queue.card_pop_lt top
      let rest := drain due (queue.pop h)
      (a :: rest.1, rest.2)
    else
      ([], h)
termination_by (queue.contents h).card

theorem drain_eq (due : α → Bool) (h : queue.Heap) :
    queue.drain due h =
      match queue.top h with
      | none => ([], h)
      | some a =>
        if due a then (a :: (queue.drain due (queue.pop h)).1, (queue.drain due (queue.pop h)).2) else ([], h) := by
  rw [drain]
  split
  · rename_i top
    simp only [top]
  · rename_i a top
    simp only [top]

variable {queue} {due : α → Bool} {h : queue.Heap}

/-- Nothing is lost and nothing comes in. -/
theorem contents_drain (due : α → Bool) (h : queue.Heap) :
    queue.contents h = ↑(queue.drain due h).1 + queue.contents (queue.drain due h).2 := by
  fun_induction queue.drain due h with
  | case1 h none => simp
  | case2 h a top isDue smaller rest ih =>
    rw [← queue.contents_pop top, ← Multiset.cons_coe, Multiset.cons_add, ih]
  | case3 h a top notDue => simp

theorem due_of_mem_drain {a : α} (taken : a ∈ (queue.drain due h).1) : due a = true := by
  fun_induction queue.drain due h with
  | case1 h none => cases taken
  | case2 h b top isDue smaller rest ih =>
    rcases List.mem_cons.mp taken with rfl | later
    · exact isDue
    · exact ih later
  | case3 h b top notDue => cases taken

/-- The elements come out in order. -/
theorem pairwise_drain (due : α → Bool) (h : queue.Heap) :
    (queue.drain due h).1.Pairwise fun a b => ¬ greater a b := by
  fun_induction queue.drain due h with
  | case1 h none => exact .nil
  | case2 h a top isDue smaller rest ih =>
    refine List.pairwise_cons.mpr ⟨?_, ih⟩
    intro b later
    refine queue.not_greater top b ?_
    rw [← queue.contents_pop top, contents_drain due (queue.pop h)]
    exact Multiset.mem_cons_of_mem (Multiset.mem_add.mpr (Or.inl later))
  | case3 h a top notDue => exact .nil

/-- What stays is not due, if all that comes before something due is due. -/
theorem not_due_of_mem_drain (downward : ∀ a b, ¬ greater a b → due b = true → due a = true) {b : α}
    (left : b ∈ queue.contents (queue.drain due h).2) : due b = false := by
  fun_induction queue.drain due h with
  | case1 h none =>
    rw [queue.top_eq_none none] at left
    exact absurd left (Multiset.notMem_zero b)
  | case2 h a top isDue smaller rest ih => exact ih left
  | case3 h a top notDue =>
    rw [← Bool.not_eq_true]
    intro isDue
    exact notDue (downward a b (queue.not_greater top b left) isDue)

/-! A list in order is a priority queue -/

/-- Insertion keeps a list in order, where it puts an element before others only if it
may stand there, and behind others likewise. -/
theorem pairwise_orderedInsert {R r : α → α → Prop} [DecidableRel r] [IsTrans α R] {l : List α} {a : α}
    (ordered : l.Pairwise R) (before : ∀ b ∈ l, r a b → R a b) (behind : ∀ b ∈ l, ¬ r a b → R b a) :
    (l.orderedInsert r a).Pairwise R := by
  induction l with
  | nil => exact List.pairwise_singleton R a
  | cons b rest ih =>
    obtain ⟨first, tail⟩ := List.pairwise_cons.mp ordered
    rw [List.orderedInsert_cons]
    split
    · rename_i here
      have near := before b List.mem_cons_self here
      refine List.pairwise_cons.mpr ⟨?_, ordered⟩
      intro c member
      rcases List.mem_cons.mp member with rfl | later
      · exact near
      · exact IsTrans.trans _ _ _ near (first c later)
    · rename_i notHere
      refine List.pairwise_cons.mpr ⟨?_, ih tail ?_ ?_⟩
      · intro c member
        rcases (List.mem_orderedInsert r).mp member with rfl | old
        · exact behind b List.mem_cons_self notHere
        · exact first c old
      · exact fun c member => before c (List.mem_cons_of_mem b member)
      · exact fun c member => behind c (List.mem_cons_of_mem b member)

variable (greater) in
/-- Where none of two elements is greater than the next, none is greater than the last. -/
theorem not_greater_trans : IsTrans α fun a b => ¬ greater a b where
  trans a b c first second := by
    intro both
    have alike : ¬ greater a b ∧ ¬ greater b a := ⟨first, fun back => second (IsTrans.trans b a c back both)⟩
    have alike' : ¬ greater b c ∧ ¬ greater c b := ⟨second, fun back => first (IsTrans.trans a c b both back)⟩
    exact (IsStrictWeakOrder.incomp_trans a b c alike alike').1 both

/-- Elements that compare equal stay in the order of their insertion. -/
def stable (greater : α → α → Prop) [IsStrictWeakOrder α greater] [DecidableRel greater] :
    PriorityQueue α greater where
  Heap := { l : List α // l.Pairwise fun a b => ¬ greater a b }
  contents h := ↑h.1
  empty := ⟨[], .nil⟩
  emplace h a := ⟨h.1.orderedInsert (fun lhs rhs => greater rhs lhs) a,
    have := not_greater_trans greater
    pairwise_orderedInsert h.2 (fun _ _ above => Std.Asymm.asymm _ _ above) fun _ _ notAbove => notAbove⟩
  top h := h.1.head?
  pop h := ⟨h.1.tail, h.2.tail⟩
  contents_empty := rfl
  contents_emplace h a := Multiset.coe_eq_coe.mpr (List.perm_orderedInsert _ a h.1)
  top_eq_none none := congrArg _ (List.head?_eq_none_iff.mp none)
  not_greater := by
    rintro ⟨l, ordered⟩ a top b member
    obtain ⟨rest, rfl⟩ := List.head?_eq_some_iff.mp top
    rcases List.mem_cons.mp member with rfl | later
    · exact Std.Irrefl.irrefl b
    · exact (List.pairwise_cons.mp ordered).1 b later
  contents_pop := by
    rintro ⟨l, ordered⟩ a top
    obtain ⟨rest, rfl⟩ := List.head?_eq_some_iff.mp top
    rfl

/-! What is due stands in front -/

section Due

variable {l : List α} {R : α → α → Prop}

theorem takeWhile_of_ordered (downward : ∀ a b, R a b → due b = true → due a = true) (ordered : l.Pairwise R) :
    l.takeWhile due = l.filter due := by
  induction l with
  | nil => rfl
  | cons a rest ih =>
    obtain ⟨first, tail⟩ := List.pairwise_cons.mp ordered
    by_cases isDue : due a = true
    · rw [List.takeWhile_cons_of_pos isDue, List.filter_cons_of_pos isDue, ih tail]
    · have none : rest.filter due = [] := by
        rw [List.filter_eq_nil_iff]
        exact fun b later dueLater => isDue (downward a b (first b later) dueLater)
      rw [List.takeWhile_cons_of_neg isDue, List.filter_cons_of_neg isDue, none]

theorem dropWhile_of_ordered (downward : ∀ a b, R a b → due b = true → due a = true) (ordered : l.Pairwise R) :
    l.dropWhile due = l.filter fun a => !due a := by
  induction l with
  | nil => rfl
  | cons a rest ih =>
    obtain ⟨first, tail⟩ := List.pairwise_cons.mp ordered
    by_cases isDue : due a = true
    · rw [List.dropWhile_cons_of_pos isDue, List.filter_cons_of_neg (by simp [isDue]), ih tail]
    · have all : ∀ b ∈ a :: rest, (!due b) = true := by
        intro b member
        rw [Bool.not_eq_true', ← Bool.not_eq_true]
        rcases List.mem_cons.mp member with rfl | later
        · exact isDue
        · exact fun dueLater => isDue (downward a b (first b later) dueLater)
      rw [List.dropWhile_cons_of_neg isDue, List.filter_eq_self.mpr all]

/-- What is not due goes in without changing what is. -/
theorem filter_orderedInsert {r : α → α → Prop} [DecidableRel r] {a : α} (notYet : due a = false) (l : List α) :
    (l.orderedInsert r a).filter due = l.filter due := by
  induction l with
  | nil => simp [notYet]
  | cons b rest ih =>
    rw [List.orderedInsert_cons]
    split
    · rw [List.filter_cons_of_neg (by simp [notYet])]
    · rw [List.filter_cons, List.filter_cons, ih]

/-- Lists of which one is due and the other is not can be put together. -/
theorem pairwise_append_of_due (downward : ∀ a b, ¬ greater a b → due b = true → due a = true) {front : List α}
    (inOrder : front.Pairwise fun a b => ¬ greater a b) (isDue : ∀ a ∈ front, due a = true)
    (ordered : l.Pairwise fun a b => ¬ greater a b) (notYet : ∀ a ∈ l, due a = false) :
    (front ++ l).Pairwise fun a b => ¬ greater a b := by
  refine List.pairwise_append.mpr ⟨inOrder, ordered, ?_⟩
  intro a early b late above
  have both := downward b a (Std.Asymm.asymm _ _ above) (isDue a early)
  rw [notYet b late] at both
  cases both

/-- In whatever order a queue gives out elements of which none is greater than the other,
a list of its contents can stand in that order. -/
theorem exists_list_drain (due : α → Bool) (downward : ∀ a b, ¬ greater a b → due b = true → due a = true)
    (ordered : l.Pairwise fun a b => ¬ greater a b) (same : queue.contents h = ↑l) :
    ∃ l' : List α, l'.Perm l ∧ (l'.Pairwise fun a b => ¬ greater a b) ∧ l'.takeWhile due = (queue.drain due h).1 ∧
      queue.contents (queue.drain due h).2 = ↑(l'.dropWhile due) := by
  have isDue : ∀ a ∈ (queue.drain due h).1, due a = true := fun a taken => due_of_mem_drain taken
  have notYet : ∀ a ∈ l.filter fun a => !due a, due a = false := by
    intro a member
    simpa using (List.mem_filter.mp member).2
  have none : (queue.drain due h).1.filter (fun a => !due a) = [] := by
    rw [List.filter_eq_nil_iff]
    intro a taken
    simp [isDue a taken]
  have left : queue.contents (queue.drain due h).2 = ↑(l.filter fun a => !due a) := by
    have all := congrArg (Multiset.filter fun a => (!due a) = true) (contents_drain due h)
    rw [same, Multiset.filter_add, Multiset.filter_coe, Multiset.filter_coe] at all
    simp only [Bool.decide_eq_true] at all
    rw [none, Multiset.coe_nil, zero_add, Multiset.filter_eq_self.mpr] at all
    · exact all.symm
    · intro a inside
      rw [not_due_of_mem_drain downward inside]
      rfl
  have stands := pairwise_append_of_due downward (pairwise_drain due h) isDue (ordered.filter _) notYet
  refine ⟨(queue.drain due h).1 ++ l.filter fun a => !due a, ?_, stands, ?_, ?_⟩
  · rw [← Multiset.coe_eq_coe, ← Multiset.coe_add, ← left, ← same]
    exact (contents_drain due h).symm
  · rw [takeWhile_of_ordered downward stands, List.filter_append, List.filter_eq_self.mpr isDue]
    simp
  · rw [left, dropWhile_of_ordered downward stands, List.filter_append, none, List.nil_append, List.filter_filter]
    simp

end Due

theorem drain_stable [DecidableRel greater] (due : α → Bool) (h : (stable greater).Heap) :
    ((stable greater).drain due h).1 = h.1.takeWhile due ∧ ((stable greater).drain due h).2.1 = h.1.dropWhile due := by
  fun_induction (stable greater).drain due h with
  | case1 h none =>
    have nothing : h.1 = [] := List.head?_eq_none_iff.mp none
    simp [nothing]
  | case2 h a top isDue smaller rest ih =>
    obtain ⟨later, elements⟩ := List.head?_eq_some_iff.mp top
    have popped : ((stable greater).pop h).1 = later := congrArg List.tail elements
    rw [popped] at ih
    rw [elements, List.takeWhile_cons_of_pos isDue, List.dropWhile_cons_of_pos isDue]
    exact ⟨congrArg _ ih.1, ih.2⟩
  | case3 h a top notDue =>
    obtain ⟨later, elements⟩ := List.head?_eq_some_iff.mp top
    rw [elements, List.takeWhile_cons_of_neg notDue, List.dropWhile_cons_of_neg notDue]
    exact ⟨rfl, rfl⟩

end PriorityQueue
