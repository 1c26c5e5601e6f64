import SerialNet.Master.Fairness
import SerialNet.VecQueue

namespace SerialNet

/-- What is asked of the scheduler, one call at a time. -/
inductive SchedulerUse
  | addAction (a : Action) (t : ℚ)
  | addActionNow (a : Action)
  | workToDo (now : ℚ)
  | front
  | pop

/-- What becomes of it: actions that get ready at once, or when they are due at the time
given, the result of `workToDo`, and the actions that `front` shows and that `pop` takes. -/
inductive SchedulerEvent
  | readied (a : Action)
  | released (now : ℚ) (el : QueueEl)
  | worked (result : Bool)
  | shown (a : Action)
  | popped (a : Action)
deriving DecidableEq

/-- What is not greater than something due is due. -/
theorem QueueEl.due_of_not_gt {now : ℚ} (lhs rhs : QueueEl) (notGreater : ¬ lhs.Gt rhs)
    (isDue : decide (rhs.m_nextTime ≤ now) = true) : decide (lhs.m_nextTime ≤ now) = true :=
  decide_eq_true ((QueueEl.le_of_not_gt notGreater).trans (of_decide_eq_true isDue))

/-- The scheduler with its two containers. The priority queue may be any that is correct
for the comparison of its elements. -/
structure HeapScheduler (heap : PriorityQueue QueueEl QueueEl.Gt) where
  m_waiting : heap.Heap
  m_ready : VecQueue Action

namespace HeapScheduler

variable {heap : PriorityQueue QueueEl QueueEl.Gt}

def make : HeapScheduler heap := ⟨heap.empty, .make⟩

def addAction (s : HeapScheduler heap) (a : Action) (t : ℚ) : HeapScheduler heap :=
  { s with m_waiting := heap.emplace s.m_waiting ⟨t, a⟩ }

def addActionNow (s : HeapScheduler heap) (a : Action) : HeapScheduler heap :=
  { s with m_ready := s.m_ready.push a }

def front (s : HeapScheduler heap) : Option Action := s.m_ready.front

def pop (s : HeapScheduler heap) (some : s.m_ready.empty = false) : HeapScheduler heap :=
  { s with m_ready := s.m_ready.pop some }

/-- The loop of `workToDo`. -/
def release (s : HeapScheduler heap) (now : ℚ) : HeapScheduler heap :=
  match top : heap.top s.m_waiting with
  | none => s
  | some el =>
    if el.m_nextTime ≤ now then
      have := heap.card_pop_lt top
      release ⟨heap.pop s.m_waiting, s.m_ready.push el.m_action⟩ now
    else
      s
termination_by (heap.contents s.m_waiting).card

def workToDo (s : HeapScheduler heap) (now : ℚ) : HeapScheduler heap × Bool :=
  let s := s.release now
  (s, !s.m_ready.empty)

def readyTime (s : HeapScheduler heap) : ℚ :=
  match heap.top s.m_waiting with
  | none => 0
  | some el => el.m_nextTime

/-- The elements that `workToDo` moves. -/
def due (s : HeapScheduler heap) (now : ℚ) : List QueueEl := (heap.drain (·.m_nextTime ≤ now) s.m_waiting).1

/-- `front` and `pop` must not be called while nothing is ready. -/
def serve (s : HeapScheduler heap) : SchedulerUse → Option (HeapScheduler heap × List SchedulerEvent)
  | .addAction a t => some (s.addAction a t, [])
  | .addActionNow a => some (s.addActionNow a, [.readied a])
  | .workToDo now => some ((s.workToDo now).1, (s.due now).map (.released now) ++ [.worked (s.workToDo now).2])
  | .front => s.front.map fun a => (s, [.shown a])
  | .pop => if some : s.m_ready.empty = false then .some (s.pop some, (s.front.map .popped).toList) else none

theorem toList_foldl_push (released : List QueueEl) (q : VecQueue Action) :
    (released.foldl (fun q el => q.push el.m_action) q).toList = q.toList ++ released.map (·.m_action) := by
  induction released generalizing q with
  | nil => simp
  | cons el rest ih => simp [ih]

theorem release_eq (s : HeapScheduler heap) (now : ℚ) :
    s.release now = ⟨(heap.drain (·.m_nextTime ≤ now) s.m_waiting).2,
      (s.due now).foldl (fun q el => q.push el.m_action) s.m_ready⟩ := by
  unfold due
  fun_induction s.release now with
  | case1 s none => rw [PriorityQueue.drain_eq, none, List.foldl_nil]
  | case2 s el top isDue smaller ih =>
    rw [ih, PriorityQueue.drain_eq _ _ s.m_waiting, top]
    simp only [decide_eq_true isDue, if_true, List.foldl_cons]
  | case3 s el top notDue =>
    rw [PriorityQueue.drain_eq, top]
    simp only [decide_eq_false notDue, Bool.false_eq_true, if_false, List.foldl_nil]

end HeapScheduler

/-! What the scheduler is for -/

/-- The actions that wait, each with its time, and those that are ready, in order. -/
structure SchedulerView where
  waiting : Multiset QueueEl
  ready : List Action

/-- What each call may do. -/
inductive SchedulerView.Serves (v : SchedulerView) :
    SchedulerUse → SchedulerView → List SchedulerEvent → Prop
  | addAction (a : Action) (t : ℚ) : Serves v (.addAction a t) { v with waiting := ⟨t, a⟩ ::ₘ v.waiting } []
  | addActionNow (a : Action) : Serves v (.addActionNow a) { v with ready := v.ready ++ [a] } [.readied a]
  | workToDo {now : ℚ} {released : List QueueEl} {left : Multiset QueueEl} (split : v.waiting = ↑released + left)
      (inOrder : released.Pairwise fun lhs rhs => lhs.m_nextTime ≤ rhs.m_nextTime)
      (due : ∀ el ∈ released, el.m_nextTime ≤ now) (notYet : ∀ el ∈ left, now < el.m_nextTime) :
      Serves v (.workToDo now) ⟨left, v.ready ++ released.map (·.m_action)⟩
        (released.map (.released now) ++ [.worked !(v.ready ++ released.map (·.m_action)).isEmpty])
  | front {a : Action} {rest : List Action} (first : v.ready = a :: rest) : Serves v .front v [.shown a]
  | pop {a : Action} {rest : List Action} (first : v.ready = a :: rest) :
      Serves v .pop { v with ready := rest } [.popped a]

/-! What is posted, put in the waiting queue, released from it, put in the ready queue
and taken out of it -/

@[simp] def SchedulerUse.posts : SchedulerUse → List Action
  | .addAction a _ => [a]
  | .addActionNow a => [a]
  | _ => []

@[simp] def SchedulerUse.waits : SchedulerUse → List QueueEl
  | .addAction a t => [⟨t, a⟩]
  | _ => []

@[simp] def SchedulerEvent.releases : SchedulerEvent → List QueueEl
  | .released _ el => [el]
  | _ => []

@[simp] def SchedulerEvent.enters : SchedulerEvent → List Action
  | .readied a => [a]
  | .released _ el => [el.m_action]
  | _ => []

@[simp] def SchedulerEvent.takes : SchedulerEvent → List Action
  | .popped a => [a]
  | _ => []

section

variable (released : List QueueEl) (now : ℚ)

@[simp] theorem flatMap_releases : (released.map (SchedulerEvent.released now)).flatMap SchedulerEvent.releases =
    released := by
  induction released with
  | nil => rfl
  | cons el rest ih => simp [ih]

@[simp] theorem flatMap_enters : (released.map (SchedulerEvent.released now)).flatMap SchedulerEvent.enters =
    released.map (·.m_action) := by
  induction released with
  | nil => rfl
  | cons el rest ih => simp [ih]

@[simp] theorem flatMap_takes : (released.map (SchedulerEvent.released now)).flatMap SchedulerEvent.takes = [] := by
  simp [List.flatMap_eq_nil_iff]

end

/-- The calls so far and what became of them against what is there. -/
structure Accounts (calls : List SchedulerUse) (v : SchedulerView) (events : List SchedulerEvent) : Prop where
  /-- An action that was posted is taken, ready or waiting, and is so once. -/
  posted : (↑(calls.flatMap SchedulerUse.posts) : Multiset Action) =
    ↑(events.flatMap SchedulerEvent.takes) + (↑v.ready + v.waiting.map (·.m_action))
  /-- An action that was posted for later has been released, or waits with its time. -/
  waits : (↑(calls.flatMap SchedulerUse.waits) : Multiset QueueEl) =
    ↑(events.flatMap SchedulerEvent.releases) + v.waiting
  /-- None is released before its time. -/
  due : ∀ now el, .released now el ∈ events → el.m_nextTime ≤ now
  /-- Actions are taken in the order in which they got ready. -/
  inTurn : events.flatMap SchedulerEvent.enters = events.flatMap SchedulerEvent.takes ++ v.ready

namespace SchedulerView.Serves

variable {v v' : SchedulerView} {c : SchedulerUse} {new : List SchedulerEvent}

theorem posted (served : v.Serves c v' new) :
    (↑c.posts : Multiset Action) + (↑v.ready + v.waiting.map (·.m_action)) =
      ↑(new.flatMap SchedulerEvent.takes) + (↑v'.ready + v'.waiting.map (·.m_action)) := by
  cases served with
  | addAction a t => simp
  | addActionNow a =>
    have last : (↑(v.ready ++ [a]) : Multiset Action) = a ::ₘ ↑v.ready :=
      Multiset.coe_eq_coe.mpr (List.perm_append_singleton a v.ready)
    rw [last, Multiset.cons_add]
    simp
  | workToDo split => simp [split, ← add_assoc]
  | front first => simp
  | @pop a rest first =>
    have front : (↑v.ready : Multiset Action) = a ::ₘ ↑rest := by rw [first, Multiset.cons_coe]
    rw [front, Multiset.cons_add]
    simp

theorem waits (served : v.Serves c v' new) :
    (↑c.waits : Multiset QueueEl) + v.waiting = ↑(new.flatMap SchedulerEvent.releases) + v'.waiting := by
  cases served with
  | addAction a t => simp
  | addActionNow a => simp
  | workToDo split => simp [split]
  | front first => simp
  | pop first => simp

theorem due (served : v.Serves c v' new) {now : ℚ} {el : QueueEl} (released : .released now el ∈ new) :
    el.m_nextTime ≤ now := by
  cases served with
  | workToDo split inOrder isDue notYet =>
    simp only [List.mem_append, List.mem_map, List.mem_singleton, SchedulerEvent.released.injEq, reduceCtorEq,
      or_false] at released
    obtain ⟨_, member, rfl, rfl⟩ := released
    exact isDue _ member
  | _ => simp at released

theorem inTurn (served : v.Serves c v' new) :
    v.ready ++ new.flatMap SchedulerEvent.enters = new.flatMap SchedulerEvent.takes ++ v'.ready := by
  cases served with
  | addAction a t => simp
  | addActionNow a => simp
  | workToDo split => simp
  | front first => simp
  | pop first => simp [first]

end SchedulerView.Serves

theorem Accounts.step {calls : List SchedulerUse} {v v' : SchedulerView} {events new : List SchedulerEvent}
    {c : SchedulerUse} (accounts : Accounts calls v events) (served : v.Serves c v' new) :
    Accounts (calls ++ [c]) v' (events ++ new) := by
  refine ⟨?_, ?_, ?_, ?_⟩
  · rw [List.flatMap_append, List.flatMap_singleton, List.flatMap_append, ← Multiset.coe_add, ← Multiset.coe_add,
      accounts.posted, add_assoc, add_comm _ (↑c.posts : Multiset Action), served.posted, add_assoc]
  · rw [List.flatMap_append, List.flatMap_singleton, List.flatMap_append, ← Multiset.coe_add, ← Multiset.coe_add,
      accounts.waits, add_assoc, add_comm _ (↑c.waits : Multiset QueueEl), served.waits, add_assoc]
  · intro now el member
    rcases List.mem_append.mp member with old | released
    · exact accounts.due now el old
    · exact served.due released
  · rw [List.flatMap_append, List.flatMap_append, accounts.inTurn, List.append_assoc, List.append_assoc,
      served.inTurn]

namespace HeapScheduler

variable {heap : PriorityQueue QueueEl QueueEl.Gt} {s s' : HeapScheduler heap}

def view (s : HeapScheduler heap) : SchedulerView := ⟨heap.contents s.m_waiting, s.m_ready.toList⟩

theorem view_addAction (s : HeapScheduler heap) (a : Action) (t : ℚ) :
    (s.addAction a t).view = { s.view with waiting := ⟨t, a⟩ ::ₘ s.view.waiting } := by
  rw [view, addAction, heap.contents_emplace]
  rfl

theorem view_addActionNow (s : HeapScheduler heap) (a : Action) :
    (s.addActionNow a).view = { s.view with ready := s.view.ready ++ [a] } := by
  rw [view, addActionNow, VecQueue.toList_push]
  rfl

theorem view_pop (some : s.m_ready.empty = false) :
    (s.pop some).view = { s.view with ready := s.view.ready.tail } := by
  rw [view, pop, VecQueue.toList_pop]
  rfl

theorem view_release (s : HeapScheduler heap) (now : ℚ) :
    (s.release now).view = ⟨heap.contents (heap.drain (·.m_nextTime ≤ now) s.m_waiting).2,
      s.view.ready ++ (s.due now).map (·.m_action)⟩ := by
  rw [release_eq, view, toList_foldl_push]
  rfl

/-- Every call that the program makes does what the call is for. -/
theorem serve_serves {c : SchedulerUse} {new : List SchedulerEvent} (served : s.serve c = some (s', new)) :
    s.view.Serves c s'.view new := by
  cases c with
  | addAction a t =>
    cases served
    rw [view_addAction]
    exact .addAction a t
  | addActionNow a =>
    cases served
    rw [view_addActionNow]
    exact .addActionNow a
  | workToDo now =>
    cases served
    have result : (s.workToDo now).2 = !(s.view.ready ++ (s.due now).map (·.m_action)).isEmpty := by
      rw [workToDo, VecQueue.empty_eq]
      exact congrArg (fun v : SchedulerView => !v.ready.isEmpty) (s.view_release now)
    rw [result, workToDo, view_release]
    refine .workToDo (heap.contents_drain _ _) ?_ ?_ ?_
    · exact (heap.pairwise_drain _ _).imp QueueEl.le_of_not_gt
    · intro el member
      exact of_decide_eq_true (heap.due_of_mem_drain member)
    · intro el left
      exact not_le.mp (of_decide_eq_false (heap.not_due_of_mem_drain QueueEl.due_of_not_gt left))
  | front =>
    obtain ⟨a, first, same⟩ := Option.map_eq_some_iff.mp served
    cases same
    rw [front, VecQueue.front_eq] at first
    obtain ⟨rest, elements⟩ := List.head?_eq_some_iff.mp first
    exact .front elements
  | pop =>
    rw [serve] at served
    split at served
    · rename_i some
      cases served
      cases elements : s.view.ready with
      | nil =>
        rw [VecQueue.empty_iff.mpr elements] at some
        cases some
      | cons a rest =>
        have first : s.front = .some a := by
          rw [front, VecQueue.front_eq]
          exact congrArg List.head? elements
        rw [first, view_pop, elements]
        exact .pop elements
    · cases served

/-- The scheduler refuses a call only if it is asked for an action while none is ready. -/
theorem serve_isSome_iff (s : HeapScheduler heap) (c : SchedulerUse) :
    (s.serve c).isSome = true ↔ (c = .front ∨ c = .pop → s.view.ready ≠ []) := by
  cases c with
  | addAction a t => simp [serve]
  | addActionNow a => simp [serve]
  | workToDo now => simp [serve]
  | front => simp [serve, front, VecQueue.front_eq, view]
  | pop => simp [serve, VecQueue.empty_eq, view]

theorem accounts_of_run {calls : List SchedulerUse} {events : List SchedulerEvent}
    (run : Mealy.attempt serve make calls = some (s, events)) : Accounts calls s.view events := by
  refine Mealy.attempt_invariant (P := fun calls s events => Accounts calls s.view events) ?_ ?_ run
  · have nothing : (make : HeapScheduler heap).view = ⟨0, []⟩ := by
      rw [view, make, heap.contents_empty]
      rfl
    rw [nothing]
    exact ⟨rfl, rfl, by simp, rfl⟩
  · intro before u old c v new accounts served
    exact accounts.step (serve_serves served)

/-- In every run the accounts are right, the scheduler is ready for more, and the last call
has done what it is for. -/
theorem ordered_and_conserved {calls : List SchedulerUse} {events : List SchedulerEvent}
    (run : Mealy.attempt serve make calls = some (s, events)) :
    Accounts calls s.view events ∧
      (∀ c, (s.serve c).isSome = true ↔ (c = .front ∨ c = .pop → s.view.ready ≠ [])) ∧
      ∀ before c, calls = before ++ [c] → ∃ (earlier : HeapScheduler heap) (old new : List SchedulerEvent),
        Mealy.attempt serve make before = some (earlier, old) ∧ events = old ++ new ∧
          earlier.view.Serves c s.view new := by
  refine ⟨accounts_of_run run, s.serve_isSome_iff, ?_⟩
  intro before c last
  rw [last] at run
  obtain ⟨earlier, old, new, first, served, events⟩ := Mealy.attempt_concat_eq_some run
  exact ⟨earlier, old, new, first, events, serve_serves served⟩

def sampleUses : List SchedulerUse :=
  [.addAction (.makeSendTokenAction 2) 5, .addAction (.makeSendTokenAction 1) 3, .addActionNow .makeMasterStartAction,
    .workToDo 6, .pop, .front, .addAction .makeQueryAddressAction 4, .pop, .workToDo 7]

def sampleEvents : List SchedulerEvent :=
  [.readied .makeMasterStartAction, .released 6 ⟨3, .makeSendTokenAction 1⟩, .released 6 ⟨5, .makeSendTokenAction 2⟩,
    .worked true, .popped .makeMasterStartAction, .shown (.makeSendTokenAction 1), .popped (.makeSendTokenAction 1),
    .released 7 ⟨4, .makeQueryAddressAction⟩, .worked true]

/-- Two tokens are posted in the wrong order, and a query while they are ready. -/
theorem ordered_and_conserved_sample :
    ∃ s : HeapScheduler (.stable QueueEl.Gt), Mealy.attempt serve make sampleUses = some (s, sampleEvents) ∧
      Accounts sampleUses s.view sampleEvents := by
  have end_ : (Mealy.attempt serve (make : HeapScheduler (.stable QueueEl.Gt)) sampleUses).map Prod.snd =
      some sampleEvents := by decide +kernel
  obtain ⟨⟨s, events⟩, run, same⟩ := Option.map_eq_some_iff.mp end_
  cases same
  exact ⟨s, run, (ordered_and_conserved run).1⟩

/-! The scheduler of the master -/

/-- The two containers as lists. -/
def erase (s : HeapScheduler (.stable QueueEl.Gt)) : MasterScheduler := ⟨s.m_waiting.1, s.m_ready.toList⟩

def call (s : HeapScheduler heap) : SchedulerCall → HeapScheduler heap
  | .addAction a t => s.addAction a t
  | .addActionNow a => s.addActionNow a
  | .work now =>
    let s := (s.workToDo now).1
    if some : s.m_ready.empty = false then s.pop some else s

/-- How the master makes the call: it asks for an action only if it has been told that there
is one. -/
def uses (s : HeapScheduler heap) : SchedulerCall → List SchedulerUse
  | .addAction a t => [.addAction a t]
  | .addActionNow a => [.addActionNow a]
  | .work now => if (s.workToDo now).2 then [.workToDo now, .front, .pop] else [.workToDo now]

theorem attempt_uses (s : HeapScheduler heap) (c : SchedulerCall) :
    (Mealy.attempt serve s (s.uses c)).map Prod.fst = some (s.call c) := by
  cases c with
  | addAction a t => rfl
  | addActionNow a => rfl
  | work now =>
    have told : (s.workToDo now).2 = !(s.workToDo now).1.m_ready.empty := rfl
    rw [uses, told, call]
    by_cases busy : (s.workToDo now).1.m_ready.empty = false
    · obtain ⟨a, first⟩ := VecQueue.front_of_some busy
      simp [Mealy.attempt, serve, front, busy, first]
    · rw [Bool.not_eq_false] at busy
      simp [Mealy.attempt, serve, busy]

def allUses (s : HeapScheduler heap) : List SchedulerCall → List SchedulerUse
  | [] => []
  | c :: rest => s.uses c ++ (s.call c).allUses rest

/-- Whatever the master does, its scheduler is never asked for an action while none is ready. -/
theorem attempt_allUses (s : HeapScheduler heap) (calls : List SchedulerCall) :
    (Mealy.attempt serve s (s.allUses calls)).map Prod.fst = some (calls.foldl call s) := by
  induction calls generalizing s with
  | nil => rfl
  | cons c rest ih =>
    obtain ⟨⟨t, events⟩, first, same⟩ := Option.map_eq_some_iff.mp (s.attempt_uses c)
    cases same
    rw [allUses, Mealy.attempt_append, first, Option.bind_some, Option.map_map, List.foldl_cons]
    exact ih (s.call c)

theorem erase_release (s : HeapScheduler (.stable QueueEl.Gt)) (now : ℚ) :
    (s.release now).erase = s.erase.release now := by
  obtain ⟨taken, left⟩ := PriorityQueue.drain_stable (fun el : QueueEl => decide (el.m_nextTime ≤ now)) s.m_waiting
  rw [release_eq, erase, toList_foldl_push, due, taken, left]
  rfl

theorem erase_call (s : HeapScheduler (.stable QueueEl.Gt)) (c : SchedulerCall) :
    (s.call c).erase = s.erase.call c := by
  cases c with
  | addAction a t => rfl
  | addActionNow a =>
    rw [call, erase, addActionNow, VecQueue.toList_push]
    rfl
  | work now =>
    rw [MasterScheduler.call, ← erase_release, call, workToDo]
    split
    · rw [erase, pop, VecQueue.toList_pop]
      rfl
    · rename_i none
      rw [Bool.not_eq_false, VecQueue.empty_iff] at none
      rw [erase, none]
      rfl

/-- With elements that compare equal in the order of their insertion, the scheduler is the
one of the master. -/
theorem erase_foldl_call (calls : List SchedulerCall) :
    (calls.foldl call (make : HeapScheduler (.stable QueueEl.Gt))).erase =
      calls.foldl MasterScheduler.call ⟨[], []⟩ :=
  (List.foldl_hom erase fun s c => (erase_call s c).symm).symm

/-- The accounts of the scheduler of the master are right. -/
theorem accounts_of_calls (calls : List SchedulerCall) :
    ∃ events, Accounts ((make : HeapScheduler (.stable QueueEl.Gt)).allUses calls)
      ⟨↑(calls.foldl MasterScheduler.call ⟨[], []⟩).m_waiting, (calls.foldl MasterScheduler.call ⟨[], []⟩).m_ready⟩
      events := by
  obtain ⟨⟨s, events⟩, run, same⟩ := Option.map_eq_some_iff.mp (attempt_allUses make calls)
  cases same
  rw [← erase_foldl_call]
  exact ⟨events, accounts_of_run run⟩

theorem erase_readyTime (s : HeapScheduler (.stable QueueEl.Gt)) : s.erase.readyTime = s.readyTime := by
  obtain ⟨⟨waiting, ordered⟩, ready⟩ := s
  cases waiting with
  | nil => rfl
  | cons el rest => rfl

end HeapScheduler

/-! Any priority queue -/

/-- A call in a callback at the time given. What it posts to be done later is for later than
that. -/
def SchedulerCall.At (now : ℚ) : SchedulerCall → Prop
  | .addAction _ t => now < t
  | .addActionNow _ => True
  | .work now' => now' = now

namespace MasterScheduler

def InOrder (s : MasterScheduler) : Prop := s.m_waiting.Pairwise fun lhs rhs => ¬ lhs.Gt rhs

theorem InOrder.addAction {s : MasterScheduler} (inOrder : s.InOrder) (a : Action) (t : ℚ) :
    (s.addAction a t).InOrder := by
  have := PriorityQueue.not_greater_trans QueueEl.Gt
  exact PriorityQueue.pairwise_orderedInsert inOrder (fun _ _ above => Std.Asymm.asymm _ _ above)
    fun _ _ notAbove => notAbove

/-- Until the end of the callback the two schedulers do the same: what is due stands in the
same order in both. -/
structure Alike (now : ℚ) (s t : MasterScheduler) : Prop where
  waiting : s.m_waiting.Perm t.m_waiting
  inOrder : s.InOrder
  inOrder' : t.InOrder
  due : s.m_waiting.filter (·.m_nextTime ≤ now) = t.m_waiting.filter (·.m_nextTime ≤ now)
  ready : s.m_ready = t.m_ready

theorem release_eq_filter {s : MasterScheduler} (inOrder : s.InOrder) (now : ℚ) :
    s.release now = ⟨s.m_waiting.filter fun el => !decide (el.m_nextTime ≤ now),
      s.m_ready ++ (s.m_waiting.filter (·.m_nextTime ≤ now)).map (·.m_action)⟩ := by
  rw [release, PriorityQueue.takeWhile_of_ordered QueueEl.due_of_not_gt inOrder,
    PriorityQueue.dropWhile_of_ordered QueueEl.due_of_not_gt inOrder]

/-- What is posted for later does not come between what is due. -/
theorem filter_addAction (s : MasterScheduler) (a : Action) {now time : ℚ} (later : now < time) :
    (s.addAction a time).m_waiting.filter (·.m_nextTime ≤ now) = s.m_waiting.filter (·.m_nextTime ≤ now) := by
  refine PriorityQueue.filter_orderedInsert ?_ _
  exact decide_eq_false (not_le.mpr later)

theorem Alike.call {now : ℚ} {s t : MasterScheduler} (alike : Alike now s t) {c : SchedulerCall} (at_ : c.At now) :
    Alike now (s.call c) (t.call c) := by
  obtain ⟨waiting, inOrder, inOrder', due, ready⟩ := alike
  cases c with
  | addAction a time =>
    refine ⟨?_, inOrder.addAction a time, inOrder'.addAction a time, ?_, ready⟩
    · have inserted := List.perm_orderedInsert (fun lhs rhs : QueueEl => rhs.Gt lhs) ⟨time, a⟩
      exact ((inserted s.m_waiting).trans (waiting.cons _)).trans (inserted t.m_waiting).symm
    · exact ((s.filter_addAction a at_).trans due).trans (t.filter_addAction a at_).symm
  | addActionNow a => exact ⟨waiting, inOrder, inOrder', due, congrArg (· ++ [a]) ready⟩
  | work now' =>
    cases (at_ : now' = now)
    rw [MasterScheduler.call, MasterScheduler.call, release_eq_filter inOrder, release_eq_filter inOrder', due, ready]
    refine ⟨waiting.filter _, inOrder.filter _, inOrder'.filter _, ?_, rfl⟩
    simp only [List.filter_filter, Bool.and_not_self, List.filter_false]

theorem Alike.foldl {now : ℚ} {s t : MasterScheduler} (alike : Alike now s t) {calls : List SchedulerCall}
    (at_ : ∀ c ∈ calls, c.At now) :
    Alike now (calls.foldl MasterScheduler.call s) (calls.foldl MasterScheduler.call t) := by
  induction calls generalizing s t with
  | nil => exact alike
  | cons c rest ih =>
    exact ih (alike.call (at_ c List.mem_cons_self)) fun c later => at_ c (List.mem_cons_of_mem _ later)

/-- What changes places after something has been posted for later may do so before. -/
theorem reorders_erase {s : MasterScheduler} {a : Action} {now time : ℚ} {waiting : List QueueEl}
    (reorders : (s.addAction a time).Reorders waiting) (later : now < time) :
    s.Reorders (waiting.erase ⟨time, a⟩) ∧
      Alike now ((s.addAction a time).reorder waiting) ((s.reorder (waiting.erase ⟨time, a⟩)).addAction a time) := by
  obtain ⟨perm, inOrder⟩ := reorders
  have inserted := List.perm_orderedInsert (fun lhs rhs : QueueEl => rhs.Gt lhs) ⟨time, a⟩
  have all : waiting.Perm (⟨time, a⟩ :: s.m_waiting) := perm.trans (inserted s.m_waiting)
  have fewer : (s.reorder (waiting.erase ⟨time, a⟩)).InOrder := inOrder.sublist List.erase_sublist
  refine ⟨⟨?_, fewer⟩, ?_, inOrder, fewer.addAction a time, ?_, rfl⟩
  · have without := all.erase ⟨time, a⟩
    rwa [List.erase_cons_head] at without
  · have back := List.perm_cons_erase (all.mem_iff.mpr List.mem_cons_self)
    exact back.trans (inserted _).symm
  · refine Eq.trans ?_ (filter_addAction _ a later).symm
    change waiting.filter _ = (waiting.erase ⟨time, a⟩).filter _
    rw [← List.erase_filter, List.erase_of_not_mem]
    intro member
    exact absurd (of_decide_eq_true (List.mem_filter.mp member).2) (not_le.mpr later)

/-- What changes places after due actions have been taken may do so before. -/
theorem Reorders.before_work {s : MasterScheduler} {now : ℚ} {waiting left : List QueueEl}
    (reorders : s.Reorders waiting) (again : ((s.reorder waiting).call (.work now)).Reorders left) :
    s.Reorders (waiting.takeWhile (·.m_nextTime ≤ now) ++ left) ∧
      (s.reorder (waiting.takeWhile (·.m_nextTime ≤ now) ++ left)).call (.work now) =
        ((s.reorder waiting).call (.work now)).reorder left := by
  obtain ⟨perm, inOrder⟩ := reorders
  obtain ⟨same, inOrder'⟩ := again
  have isDue : ∀ el ∈ waiting.takeWhile (·.m_nextTime ≤ now), decide (el.m_nextTime ≤ now) = true := by
    intro el taken
    rw [PriorityQueue.takeWhile_of_ordered QueueEl.due_of_not_gt inOrder] at taken
    exact (List.mem_filter.mp taken).2
  have notYet : ∀ el ∈ left, decide (el.m_nextTime ≤ now) = false := by
    intro el member
    have dropped : el ∈ waiting.dropWhile (·.m_nextTime ≤ now) := same.mem_iff.mp member
    rw [PriorityQueue.dropWhile_of_ordered QueueEl.due_of_not_gt inOrder] at dropped
    simpa using (List.mem_filter.mp dropped).2
  have stands := PriorityQueue.pairwise_append_of_due QueueEl.due_of_not_gt
    (inOrder.sublist (List.takeWhile_sublist _)) isDue inOrder' notYet
  refine ⟨⟨?_, stands⟩, ?_⟩
  · have parts := same.append_left (waiting.takeWhile (·.m_nextTime ≤ now))
    refine parts.trans (List.Perm.trans (List.Perm.of_eq ?_) perm)
    exact List.takeWhile_append_dropWhile
  · have none : left.takeWhile (·.m_nextTime ≤ now) = [] := by
      rw [PriorityQueue.takeWhile_of_ordered QueueEl.due_of_not_gt inOrder', List.filter_eq_nil_iff]
      intro el member
      rw [notYet el member]
      exact Bool.false_ne_true
    have all : left.dropWhile (·.m_nextTime ≤ now) = left := by
      rw [PriorityQueue.dropWhile_of_ordered QueueEl.due_of_not_gt inOrder', List.filter_eq_self]
      intro el member
      rw [notYet el member]
      rfl
    simp only [call, reorder, release, List.takeWhile_append_of_pos isDue, List.dropWhile_append_of_pos isDue, none,
      all, List.append_nil]

end MasterScheduler

namespace HeapScheduler

variable {heap : PriorityQueue QueueEl QueueEl.Gt} {s : HeapScheduler heap} {t : MasterScheduler}

/-- The same actions wait, and the same are ready. -/
structure Matches (s : HeapScheduler heap) (t : MasterScheduler) : Prop where
  waiting : heap.contents s.m_waiting = ↑t.m_waiting
  inOrder : t.InOrder
  ready : s.m_ready.toList = t.m_ready

namespace Matches

theorem make : Matches (make : HeapScheduler heap) ⟨[], []⟩ := ⟨heap.contents_empty, .nil, rfl⟩

/-- The timer of the action handler is set for the same time. -/
theorem readyTime (same : Matches s t) : s.readyTime = t.readyTime := by
  unfold HeapScheduler.readyTime MasterScheduler.readyTime
  have waiting := same.waiting
  cases top : heap.top s.m_waiting with
  | none =>
    rw [heap.top_eq_none top] at waiting
    rw [(Multiset.coe_eq_zero _).mp waiting.symm]
  | some el =>
    have member : el ∈ t.m_waiting := by
      rw [← Multiset.mem_coe, ← waiting, ← heap.contents_pop top]
      exact Multiset.mem_cons_self _ _
    cases elements : t.m_waiting with
    | nil =>
      rw [elements] at member
      cases member
    | cons first rest =>
      have inOrder := same.inOrder
      rw [MasterScheduler.InOrder, elements, List.pairwise_cons] at inOrder
      have among : first ∈ heap.contents s.m_waiting := by
        rw [waiting, elements, Multiset.mem_coe]
        exact List.mem_cons_self
      refine le_antisymm (QueueEl.le_of_not_gt (heap.not_greater top first among)) ?_
      rw [elements] at member
      rcases List.mem_cons.mp member with rfl | later
      · exact le_rfl
      · exact QueueEl.le_of_not_gt (inOrder.1 el later)

theorem addAction (same : Matches s t) (a : Action) (time : ℚ) : Matches (s.addAction a time) (t.addAction a time) := by
  refine ⟨?_, same.inOrder.addAction a time, same.ready⟩
  change heap.contents (heap.emplace s.m_waiting ⟨time, a⟩) = _
  rw [heap.contents_emplace, same.waiting, Multiset.cons_coe]
  exact Multiset.coe_eq_coe.mpr (List.perm_orderedInsert _ _ _).symm

theorem addActionNow (same : Matches s t) (a : Action) : Matches (s.addActionNow a) (t.addActionNow a) := by
  refine ⟨same.waiting, same.inOrder, ?_⟩
  change (s.m_ready.push a).toList = t.m_ready ++ [a]
  rw [VecQueue.toList_push, same.ready]

theorem of_alike {now : ℚ} {t' : MasterScheduler} (same : Matches s t) (alike : t.Alike now t') : Matches s t' :=
  ⟨same.waiting.trans (Multiset.coe_eq_coe.mpr alike.waiting), alike.inOrder', same.ready.trans alike.ready⟩

/-- Due actions come out in some order that is as good as any other. -/
theorem work (same : Matches s t) (now : ℚ) : ∃ waiting, t.Reorders waiting ∧
    Matches (s.call (.work now)) ((t.reorder waiting).call (.work now)) := by
  obtain ⟨waiting, perm, inOrder, released, left⟩ :=
    PriorityQueue.exists_list_drain (fun el : QueueEl => decide (el.m_nextTime ≤ now)) QueueEl.due_of_not_gt
      same.inOrder same.waiting
  have ready : (s.release now).m_ready.toList = ((t.reorder waiting).release now).m_ready := by
    rw [release_eq, toList_foldl_push, same.ready, due, ← released]
    rfl
  have rest : heap.contents (s.release now).m_waiting = ↑((t.reorder waiting).release now).m_waiting := by
    rw [release_eq, left]
    rfl
  have kept : (s.call (.work now)).m_waiting = (s.release now).m_waiting := by
    rw [call, workToDo]
    split <;> rfl
  refine ⟨waiting, ⟨perm, inOrder⟩, (congrArg heap.contents kept).trans rest,
    inOrder.sublist (List.dropWhile_sublist _), ?_⟩
  · rw [MasterScheduler.call, ← ready, call, workToDo]
    split
    · rw [pop, VecQueue.toList_pop]
    · rename_i none
      rw [Bool.not_eq_false, VecQueue.empty_iff] at none
      rw [none]
      rfl

end Matches

/-- Whatever order the priority queue gives out equal elements in, it is as if they had stood in
some such order before the callback: all its calls then do the same to the scheduler of the
master. -/
theorem ties_before_callback (same : Matches s t) {now : ℚ} {calls : List SchedulerCall}
    (at_ : ∀ c ∈ calls, c.At now) : ∃ waiting, t.Reorders waiting ∧
      Matches (calls.foldl call s) (calls.foldl MasterScheduler.call (t.reorder waiting)) := by
  induction calls generalizing s t with
  | nil => exact ⟨t.m_waiting, ⟨.refl _, same.inOrder⟩, same⟩
  | cons c rest ih =>
    have first := at_ c List.mem_cons_self
    have others : ∀ c ∈ rest, c.At now := fun c later => at_ c (List.mem_cons_of_mem _ later)
    cases c with
    | addAction a time =>
      obtain ⟨waiting, reorders, later⟩ := ih (same.addAction a time) others
      obtain ⟨before, alike⟩ := MasterScheduler.reorders_erase reorders first
      exact ⟨_, before, later.of_alike (alike.foldl others)⟩
    | addActionNow a =>
      obtain ⟨waiting, reorders, later⟩ := ih (same.addActionNow a) others
      exact ⟨waiting, reorders, later⟩
    | work now' =>
      cases (first : now' = now)
      obtain ⟨waiting, reorders, worked⟩ := same.work now
      obtain ⟨left, again, later⟩ := ih worked others
      obtain ⟨before, equal⟩ := reorders.before_work again
      refine ⟨_, before, ?_⟩
      rw [List.foldl_cons, List.foldl_cons, equal]
      exact later

/-- The callbacks of a run, each with its calls. Before each of them elements that compare equal
may change places. -/
inductive Callbacks : List (List SchedulerCall) → MasterScheduler → Prop
  | none : Callbacks [] ⟨[], []⟩
  | next {before calls t waiting} : Callbacks before t → t.Reorders waiting →
      Callbacks (before ++ [calls]) (calls.foldl MasterScheduler.call (t.reorder waiting))

/-- The master may have any priority queue: what it does in a whole run, the scheduler that the
master is modelled with does, too. -/
theorem matches_of_callbacks {callbacks : List (List SchedulerCall)}
    (at_ : ∀ calls ∈ callbacks, ∃ now, ∀ c ∈ calls, c.At now) :
    ∃ t, Callbacks callbacks t ∧ Matches (callbacks.flatten.foldl call (make : HeapScheduler heap)) t := by
  induction callbacks using List.reverseRecOn with
  | nil => exact ⟨_, .none, .make⟩
  | append_singleton before calls ih =>
    obtain ⟨t, earlier, same⟩ := ih fun calls member => at_ calls (List.mem_append_left _ member)
    obtain ⟨now, last⟩ := at_ calls (List.mem_append_right _ (List.mem_singleton_self calls))
    obtain ⟨waiting, reorders, later⟩ := ties_before_callback same last
    refine ⟨_, .next earlier reorders, ?_⟩
    rwa [List.flatten_append, List.flatten_singleton, List.foldl_append]

end HeapScheduler

namespace Master

/-- What the master posts in a callback to be done later is for later than the callback. -/
theorem settlingCalls_at (m : Master) (rv : ReturnValue) {c : SchedulerCall}
    (made : c ∈ (m.settlingCalls rv).flatMap schedulerCalls ++ [.work m.m_now]) : c.At m.m_now := by
  rcases List.mem_append.mp made with settling | work
  · obtain ⟨d, asked, member⟩ := List.mem_flatMap.mp settling
    cases d with
    | postActionNow a =>
      rw [List.mem_singleton.mp member]
      trivial
    | postAction a time =>
      rw [List.mem_singleton.mp member]
      exact (settlingCalls_reposts asked).2
    | sendAddressReply => cases member
  · rw [List.mem_singleton.mp work]
    rfl

theorem requestCalls_at (m : Master) (aReq : packet.AddressRequest) {c : SchedulerCall}
    (made : c ∈ (m.m_dynamicHandler.receivedAddressRequest aReq).2.flatMap schedulerCalls) : c.At m.m_now := by
  obtain ⟨d, asked, member⟩ := List.mem_flatMap.mp made
  rcases m.m_dynamicHandler.receivedAddressRequest_cases aReq with ⟨_, _, _, known⟩ | ⟨_, _, nothing⟩ |
    ⟨_, _, _, _, allocated⟩
  · rw [known] at asked
    rw [List.mem_singleton.mp asked] at member
    cases member
  · rw [nothing] at asked
    cases asked
  · rw [allocated] at asked
    rcases List.mem_cons.mp asked with rfl | reply
    · rw [List.mem_singleton.mp member]
      trivial
    · rw [List.mem_singleton.mp reply] at member
      cases member

end Master

end SerialNet
