import SerialNet.Master.Phases

namespace SerialNet

/-- What is asked of the scheduler. `work` looks for something to start and takes it. -/
inductive SchedulerCall
  | addAction (a : Action) (t : ℚ)
  | addActionNow (a : Action)
  | work (now : ℚ)

namespace MasterScheduler

def call (s : MasterScheduler) : SchedulerCall → MasterScheduler
  | .addAction a t => s.addAction a t
  | .addActionNow a => s.addActionNow a
  | .work now => { s.release now with m_ready := (s.release now).m_ready.tail }

end MasterScheduler

/-- The scheduler with a number on each action, given in the order of posting, so that
equal actions can be told apart. The actions that have been taken are kept, too. -/
structure NumberedScheduler where
  m_waiting : List (Nat × QueueEl)
  m_ready : List (Nat × Action)
  posted : Nat
  taken : List (Nat × Action)

namespace NumberedScheduler

def empty : NumberedScheduler := ⟨[], [], 0, []⟩

/-- The scheduler of the program. -/
def erase (s : NumberedScheduler) : MasterScheduler := ⟨s.m_waiting.map Prod.snd, s.m_ready.map Prod.snd⟩

def release (s : NumberedScheduler) (now : ℚ) : NumberedScheduler :=
  { s with
    m_waiting := s.m_waiting.dropWhile (·.2.m_nextTime ≤ now)
    m_ready := s.m_ready ++ (s.m_waiting.takeWhile (·.2.m_nextTime ≤ now)).map fun el => (el.1, el.2.m_action) }

def call (s : NumberedScheduler) : SchedulerCall → NumberedScheduler
  | .addAction a t =>
    { s with
      m_waiting := s.m_waiting.orderedInsert (fun lhs rhs => rhs.2.Gt lhs.2) (s.posted, ⟨t, a⟩)
      posted := s.posted + 1 }
  | .addActionNow a => { s with m_ready := s.m_ready ++ [(s.posted, a)], posted := s.posted + 1 }
  | .work now =>
    let due := s.release now
    { due with m_ready := due.m_ready.tail, taken := s.taken ++ due.m_ready.head?.toList }

/-- Waiting actions that compare equal change places. -/
def Reorders (s : NumberedScheduler) (waiting : List (Nat × QueueEl)) : Prop :=
  waiting.Perm s.m_waiting ∧ waiting.Pairwise fun lhs rhs => ¬ lhs.2.Gt rhs.2

def reorder (s : NumberedScheduler) (waiting : List (Nat × QueueEl)) : NumberedScheduler :=
  { s with m_waiting := waiting }

theorem erase_release (s : NumberedScheduler) (now : ℚ) : (s.release now).erase = s.erase.release now := by
  simp only [erase, release, MasterScheduler.release, List.map_append, List.map_map, List.takeWhile_map,
    List.dropWhile_map]
  rfl

theorem erase_call (s : NumberedScheduler) (c : SchedulerCall) : (s.call c).erase = s.erase.call c := by
  cases c with
  | addAction a t =>
    simp only [erase, call, MasterScheduler.call, MasterScheduler.addAction]
    congr 1
    exact List.map_orderedInsert _ (fun lhs rhs : QueueEl => rhs.Gt lhs) Prod.snd s.m_waiting (s.posted, ⟨t, a⟩)
      (fun _ _ => Iff.rfl) fun _ _ => Iff.rfl
  | addActionNow a => simp [erase, call, MasterScheduler.call, MasterScheduler.addActionNow]
  | work now =>
    have same := s.erase_release now
    simp only [MasterScheduler.call, ← same]
    simp only [erase, call, List.map_tail]

/-- The numbers in the order in which the actions have been and will be taken, as far
as they have been posted. -/
def order (s : NumberedScheduler) : List Nat :=
  s.taken.map Prod.fst ++ (s.m_ready.map Prod.fst ++ s.m_waiting.map Prod.fst)

theorem order_release (s : NumberedScheduler) (now : ℚ) : (s.release now).order = s.order := by
  have parts := congrArg (List.map Prod.fst) (List.takeWhile_append_dropWhile
    (p := fun el : Nat × QueueEl => decide (el.2.m_nextTime ≤ now)) (l := s.m_waiting))
  rw [List.map_append] at parts
  simp only [order, release, List.map_append, List.map_map, Function.comp_def, List.append_assoc, parts]

theorem order_work (s : NumberedScheduler) (now : ℚ) : (s.call (.work now)).order = s.order := by
  rw [← s.order_release now]
  simp only [order, call]
  have taken : (s.release now).taken = s.taken := rfl
  cases ready : (s.release now).m_ready with
  | nil => simp [taken]
  | cons front rest => simp [taken]

/-- New numbers come in between, but no two numbers change places by a call. -/
theorem order_call (s : NumberedScheduler) (c : SchedulerCall) : s.order.Sublist (s.call c).order := by
  cases c with
  | addAction a t =>
    have inserted := List.Sublist.map Prod.fst (List.sublist_orderedInsert
      (r := fun lhs rhs : Nat × QueueEl => rhs.2.Gt lhs.2) (s.posted, ⟨t, a⟩) s.m_waiting)
    exact (List.Sublist.refl _).append ((List.Sublist.refl _).append inserted)
  | addActionNow a =>
    have appended := (List.sublist_append_left s.m_ready [(s.posted, a)]).map Prod.fst
    exact (List.Sublist.refl _).append (appended.append (List.Sublist.refl _))
  | work now => rw [order_work]

theorem perm_order_post (s : NumberedScheduler) (c : SchedulerCall) :
    (s.call c).order.Perm (s.order) ∧ (s.call c).posted = s.posted ∨
      (s.call c).order.Perm (s.posted :: s.order) ∧ (s.call c).posted = s.posted + 1 := by
  cases c with
  | addAction a t =>
    refine Or.inr ⟨?_, rfl⟩
    have inserted := (List.perm_orderedInsert (fun lhs rhs : Nat × QueueEl => rhs.2.Gt lhs.2)
      (s.posted, ⟨t, a⟩) s.m_waiting).map Prod.fst
    have ready := (inserted.append_left (s.m_ready.map Prod.fst)).trans List.perm_middle
    exact (ready.append_left (s.taken.map Prod.fst)).trans List.perm_middle
  | addActionNow a =>
    refine Or.inr ⟨?_, rfl⟩
    simp only [order, call, List.map_append, List.map_cons, List.map_nil, List.append_assoc, List.singleton_append]
    have ready : (s.m_ready.map Prod.fst ++ s.posted :: s.m_waiting.map Prod.fst).Perm
        (s.posted :: (s.m_ready.map Prod.fst ++ s.m_waiting.map Prod.fst)) := List.perm_middle
    exact (ready.append_left (s.taken.map Prod.fst)).trans List.perm_middle
  | work now => exact Or.inl ⟨by rw [order_work], rfl⟩

/-- Each number is given once, and the waiting actions are ordered by time. -/
structure Sound (s : NumberedScheduler) : Prop where
  nodup : s.order.Nodup
  fresh : ∀ n ∈ s.order, n < s.posted
  ordered : s.erase.Ordered

theorem sound_empty : Sound empty := ⟨List.nodup_nil, by simp [order, empty], List.Pairwise.nil⟩

theorem Sound.call {s : NumberedScheduler} (sound : s.Sound) (c : SchedulerCall) : (s.call c).Sound := by
  have ordered : (s.call c).erase.Ordered := by
    rw [erase_call]
    cases c with
    | addAction a t => exact sound.ordered.addAction a t
    | addActionNow a => exact sound.ordered
    | work now => exact sound.ordered.release now
  rcases s.perm_order_post c with ⟨same, posted⟩ | ⟨more, posted⟩
  · refine ⟨same.nodup_iff.mpr sound.nodup, ?_, ordered⟩
    intro n member
    rw [posted]
    exact sound.fresh n (same.mem_iff.mp member)
  · have unused : s.posted ∉ s.order := fun member => Nat.lt_irrefl _ (sound.fresh _ member)
    refine ⟨more.nodup_iff.mpr (List.nodup_cons.mpr ⟨unused, sound.nodup⟩), ?_, ordered⟩
    intro n member
    rw [posted]
    rcases List.mem_cons.mp (more.mem_iff.mp member) with rfl | old
    · exact Nat.lt_succ_self _
    · exact Nat.lt_succ_of_lt (sound.fresh n old)

theorem Sound.foldl {s : NumberedScheduler} (sound : s.Sound) (calls : List SchedulerCall) :
    (calls.foldl NumberedScheduler.call s).Sound := by
  induction calls generalizing s with
  | nil => exact sound
  | cons c rest ih => exact ih (sound.call c)

/-- The same actions wait in any order that is as good. -/
theorem exists_reorders {s : NumberedScheduler} {waiting : List QueueEl}
    (reorders : s.erase.Reorders waiting) : ∃ numbered, s.Reorders numbered ∧ numbered.map Prod.snd = waiting := by
  obtain ⟨perm, ordered⟩ := reorders
  have numbers : List.Forall₂ (fun el numbered => el = Prod.snd numbered) s.erase.m_waiting s.m_waiting :=
    List.forall₂_map_left_iff.mpr (List.forall₂_same.mpr fun _ _ => rfl)
  obtain ⟨numbered, elements, same⟩ := List.perm_comp_forall₂ perm numbers
  have elements : waiting = numbered.map Prod.snd := by
    rw [← List.forall₂_eq_eq_eq]
    exact List.forall₂_map_right_iff.mpr elements
  refine ⟨numbered, ⟨same, ?_⟩, elements.symm⟩
  rwa [elements, List.pairwise_map] at ordered

theorem Reorders.perm_order {s : NumberedScheduler} {waiting : List (Nat × QueueEl)} (reorders : s.Reorders waiting) :
    (s.reorder waiting).order.Perm s.order :=
  ((reorders.1.map Prod.fst).append_left (s.m_ready.map Prod.fst)).append_left (s.taken.map Prod.fst)

theorem Sound.reorder {s : NumberedScheduler} (sound : s.Sound) {waiting : List (Nat × QueueEl)}
    (reorders : s.Reorders waiting) : (s.reorder waiting).Sound := by
  refine ⟨reorders.perm_order.nodup_iff.mpr sound.nodup, ?_, ?_⟩
  · exact fun n member => sound.fresh n (reorders.perm_order.mem_iff.mp member)
  · exact (List.pairwise_map.mpr reorders.2).imp QueueEl.le_of_not_gt

theorem erase_foldl (s : NumberedScheduler) (calls : List SchedulerCall) :
    (calls.foldl call s).erase = calls.foldl MasterScheduler.call s.erase := by
  induction calls generalizing s with
  | nil => rfl
  | cons c rest ih => rw [List.foldl_cons, ih, erase_call, List.foldl_cons]

/-- In a list in order an earlier action stands before a later one. -/
theorem pair_sublist_of_earlier {waiting : List (Nat × QueueEl)}
    (ordered : waiting.Pairwise fun lhs rhs => lhs.2.m_nextTime ≤ rhs.2.m_nextTime) {x y : Nat × QueueEl}
    (first : x ∈ waiting) (second : y ∈ waiting) (earlier : x.2.m_nextTime < y.2.m_nextTime) :
    [x, y].Sublist waiting := by
  induction waiting with
  | nil => cases first
  | cons top rest ih =>
    obtain ⟨before, ordered⟩ := List.pairwise_cons.mp ordered
    rcases List.mem_cons.mp first with rfl | older
    · rcases List.mem_cons.mp second with rfl | later
      · exact absurd earlier (lt_irrefl _)
      · exact (List.singleton_sublist.mpr later).cons_cons _
    · rcases List.mem_cons.mp second with rfl | later
      · exact absurd earlier (not_lt_of_ge (before x older))
      · exact (ih ordered older later).cons _

theorem pair_sublist_append {x y : Nat} {front back : List Nat} (pair : [x, y].Sublist (front ++ back)) :
    [x, y].Sublist front ∨ (x ∈ front ∧ y ∈ back) ∨ [x, y].Sublist back := by
  obtain ⟨first, second, split, left, right⟩ := List.sublist_append_iff.mp pair
  cases first with
  | nil =>
    rw [List.nil_append] at split
    exact Or.inr (Or.inr (split ▸ right))
  | cons head tail =>
    rw [List.cons_append, List.cons.injEq] at split
    obtain ⟨rfl, split⟩ := split
    cases tail with
    | nil =>
      rw [List.nil_append] at split
      subst split
      exact Or.inr (Or.inl ⟨left.subset List.mem_cons_self, right.subset List.mem_cons_self⟩)
    | cons next others =>
      rw [List.cons_append, List.cons.injEq] at split
      obtain ⟨rfl, split⟩ := split
      rw [(List.append_eq_nil_iff.mp split.symm).1] at left
      exact Or.inl left

/-- The action numbered `x` is going to be taken before the one numbered `y`. While both of
them wait its time is the earlier one, so that they cannot change places. -/
structure Ahead (s : NumberedScheduler) (x y : Nat) : Prop where
  pair : [x, y].Sublist s.order
  earlier : ∀ el el', (x, el) ∈ s.m_waiting → (y, el') ∈ s.m_waiting → el.m_nextTime < el'.m_nextTime

theorem Sound.nodup_waiting {s : NumberedScheduler} (sound : s.Sound) : (s.m_waiting.map Prod.fst).Nodup :=
  (List.nodup_append.mp (List.nodup_append.mp sound.nodup).2.1).2.1

/-- An action that is ready, or due by the time given, comes before one that is posted
for later. -/
theorem Sound.ahead_addAction {s : NumberedScheduler} (sound : s.Sound) {x : Nat} {a : Action} {now t : ℚ}
    (ahead : x ∈ s.m_ready.map Prod.fst ∨ ∃ el, (x, el) ∈ s.m_waiting ∧ el.m_nextTime ≤ now) (later : now < t) :
    (s.call (.addAction a t)).Ahead x s.posted := by
  have after := sound.call (.addAction a t)
  have new : (s.posted, ⟨t, a⟩) ∈ (s.call (.addAction a t)).m_waiting := (List.mem_orderedInsert _).mpr (Or.inl rfl)
  rcases ahead with ready | ⟨el, waits, due⟩
  · refine ⟨?_, ?_⟩
    · have inserted := List.mem_map_of_mem (f := Prod.fst) new
      refine List.Sublist.trans ?_ (List.sublist_append_right _ _)
      exact (List.singleton_sublist.mpr ready).append (List.singleton_sublist.mpr inserted)
    · intro el _ waits _
      have apart := (List.nodup_append.mp (List.nodup_append.mp after.nodup).2.1).2.2
      exact absurd rfl (apart x ready x (List.mem_map_of_mem (f := Prod.fst) waits))
  · have still : (x, el) ∈ (s.call (.addAction a t)).m_waiting := (List.mem_orderedInsert _).mpr (Or.inr waits)
    have earlier : el.m_nextTime < t := lt_of_le_of_lt due later
    refine ⟨?_, ?_⟩
    · have ordered := after.ordered
      rw [MasterScheduler.Ordered, erase, List.pairwise_map] at ordered
      have pair := pair_sublist_of_earlier ordered still new earlier
      refine List.Sublist.trans (pair.map Prod.fst) ?_
      exact (List.sublist_append_right _ _).trans (List.sublist_append_right _ _)
    · intro el₁ el₂ first second
      cases List.inj_on_of_nodup_map after.nodup_waiting first still rfl
      cases List.inj_on_of_nodup_map after.nodup_waiting second new rfl
      exact earlier

/-- A call lets no action wait that has been posted before, but has not been waiting. -/
theorem Sound.mem_of_call {s : NumberedScheduler} (sound : s.Sound) {c : SchedulerCall} {n : Nat} {el : QueueEl}
    (known : n ∈ s.order) (waits : (n, el) ∈ (s.call c).m_waiting) : (n, el) ∈ s.m_waiting := by
  cases c with
  | addAction a t =>
    rcases (List.mem_orderedInsert _).mp waits with new | old
    · cases new
      exact absurd (sound.fresh _ known) (Nat.lt_irrefl _)
    · exact old
  | addActionNow a => exact waits
  | work now => exact (List.dropWhile_sublist _).subset waits

namespace Ahead

variable {s : NumberedScheduler} {x y : Nat}

theorem call (ahead : s.Ahead x y) (sound : s.Sound) (c : SchedulerCall) : (s.call c).Ahead x y := by
  refine ⟨ahead.pair.trans (s.order_call c), ?_⟩
  intro el el' first second
  exact ahead.earlier el el' (sound.mem_of_call (ahead.pair.subset (by simp)) first)
    (sound.mem_of_call (ahead.pair.subset (by simp)) second)

theorem foldl (ahead : s.Ahead x y) (sound : s.Sound) (calls : List SchedulerCall) :
    (calls.foldl NumberedScheduler.call s).Ahead x y := by
  induction calls generalizing s with
  | nil => exact ahead
  | cons c rest ih => exact ih (ahead.call sound c) (sound.call c)

theorem reorder (ahead : s.Ahead x y) {waiting : List (Nat × QueueEl)} (reorders : s.Reorders waiting) :
    (s.reorder waiting).Ahead x y := by
  refine ⟨?_, ?_⟩
  · have pair := ahead.pair
    rw [order, ← List.append_assoc] at pair
    rw [order, ← List.append_assoc]
    rcases pair_sublist_append pair with before | ⟨first, second⟩ | behind
    · exact before.trans (List.sublist_append_left _ _)
    · have waits := (reorders.1.map Prod.fst).mem_iff.mpr second
      exact (List.singleton_sublist.mpr first).append (List.singleton_sublist.mpr waits)
    · -- both of them wait
      obtain ⟨⟨_, el⟩, first, rfl⟩ := List.mem_map.mp (behind.subset (by simp : x ∈ [x, y]))
      obtain ⟨⟨_, el'⟩, second, rfl⟩ := List.mem_map.mp (behind.subset (by simp : y ∈ [_, y]))
      have ordered := reorders.2.imp QueueEl.le_of_not_gt
      have again := pair_sublist_of_earlier ordered (reorders.1.mem_iff.mpr first) (reorders.1.mem_iff.mpr second)
        (ahead.earlier el el' first second)
      exact (again.map Prod.fst).trans (List.sublist_append_right _ _)
  · intro el el' first second
    exact ahead.earlier el el' (reorders.1.mem_iff.mp first) (reorders.1.mem_iff.mp second)

end Ahead

/-- What comes first in the order is taken first. -/
theorem mem_of_pair_sublist {x y : Nat} {before after : List Nat} (nodup : (before ++ y :: after).Nodup)
    (pair : [x, y].Sublist (before ++ y :: after)) : x ∈ before := by
  rcases pair_sublist_append pair with inside | ⟨first, _⟩ | behind
  · exact inside.subset List.mem_cons_self
  · exact first
  · have absent : y ∉ after := (List.nodup_cons.mp (List.nodup_append.mp nodup).2.1).1
    cases behind with
    | cons _ inside => exact absurd (inside.subset (by simp)) absent
    | cons_cons _ inside => exact absurd (inside.subset (by simp)) absent

end NumberedScheduler

namespace Master

/-! The handlers and their calls -/

def schedulerCalls : DynamicCall → List SchedulerCall
  | .postActionNow a => [.addActionNow a.withReport]
  | .postAction a time => [.addAction a.withReport time]
  | .sendAddressReply .. => []

/-- What a result makes the dynamic handler ask for. -/
def settlingCalls (m : Master) (rv : ReturnValue) : List DynamicCall :=
  match lineState rv with
  | none => []
  | some newState =>
    match m.m_dynamicHandler.updateAddressLine m.m_now m.m_actionHandler.m_currentAction.m_address newState with
    | none => []
    | some (_, calls) => calls

/-- The rest of the program may do anything, and time passes, while the two handlers do
nothing. -/
structure SameHandlers (m m' : Master) : Prop where
  later : m.m_now ≤ m'.m_now
  scheduler : m'.m_actionHandler.m_scheduler = m.m_actionHandler.m_scheduler
  action : m'.m_actionHandler.m_currentAction = m.m_actionHandler.m_currentAction
  table : m'.m_dynamicHandler.m_table = m.m_dynamicHandler.m_table
  freeAddresses : m'.m_dynamicHandler.m_freeAddresses = m.m_dynamicHandler.m_freeAddresses

/-- The action handler and the dynamic handler at work, with the calls they make on the
scheduler. Any result may be reported and any action posted at any time. -/
inductive HandlerStep : Master → List SchedulerCall → Master → Prop
  | elsewhere {m m'} : SameHandlers m m' → HandlerStep m [] m'
  | report {m m' rv} : m.handleActionResult rv = .ok m' →
      HandlerStep m ((m.settlingCalls rv).flatMap schedulerCalls ++ [.work m.m_now]) m'
  | check {m m'} : m.checkNewAction = .ok m' →
      HandlerStep m (if m.m_actionHandler.m_currentAction.doNothing then [.work m.m_now] else []) m'
  | postAction {m} (a : Action) (time : ℚ) : HandlerStep m [.addAction a.withReport time] (m.postAction a time)
  | postActionNow {m} (a : Action) : HandlerStep m [.addActionNow a.withReport] (m.postActionNow a)
  | request {m} (aReq : packet.AddressRequest) :
      HandlerStep m ((m.m_dynamicHandler.receivedAddressRequest aReq).2.flatMap schedulerCalls)
        (m.receivedAddressRequest aReq)

theorem checkNewAction_scheduler {m m' : Master} (nothing : m.m_actionHandler.m_currentAction.doNothing = true)
    (run : m.checkNewAction = .ok m') :
    m'.m_actionHandler.m_scheduler = m.m_actionHandler.m_scheduler.call (.work m.m_now) := by
  simp only [checkNewAction, nothing, if_true] at run
  split at run
  · rename_i front rest ready
    unfold startAction at run
    split at run
    · cases run
    · cases run
      simp only [postEvent, MasterScheduler.call, ready, List.tail_cons]
  · rename_i ready
    have same : m.m_actionHandler.m_scheduler.release m.m_now =
        m.m_actionHandler.m_scheduler.call (.work m.m_now) := by
      rw [MasterScheduler.call]
      generalize m.m_actionHandler.m_scheduler.release m.m_now = released at ready
      obtain ⟨waiting, rest⟩ := released
      cases ready
      rfl
    split at run <;> cases run <;> exact same

theorem foldl_dynamicCall_scheduler (calls : List DynamicCall) (m : Master) :
    (calls.foldl dynamicCall m).m_actionHandler.m_scheduler =
      (calls.flatMap schedulerCalls).foldl MasterScheduler.call m.m_actionHandler.m_scheduler ∧
    (calls.foldl dynamicCall m).m_now = m.m_now ∧
    (calls.foldl dynamicCall m).m_actionHandler.m_currentAction = m.m_actionHandler.m_currentAction := by
  induction calls generalizing m with
  | nil => exact ⟨rfl, rfl, rfl⟩
  | cons c rest ih =>
    obtain ⟨scheduler, now, action⟩ := ih (m.dynamicCall c)
    rw [List.foldl_cons, scheduler, now, action, List.flatMap_cons, List.foldl_append]
    cases c <;> exact ⟨rfl, rfl, rfl⟩

/-- The action in progress is done with. -/
def idleHandler (m : Master) : Master :=
  { m with m_actionHandler := { m.m_actionHandler with m_currentAction := Action.makeDoNothingAction } }

theorem handleActionResult_scheduler {m m' : Master} {rv : ReturnValue} (run : m.handleActionResult rv = .ok m') :
    m'.m_actionHandler.m_scheduler = List.foldl MasterScheduler.call m.m_actionHandler.m_scheduler
      ((m.settlingCalls rv).flatMap schedulerCalls ++ [.work m.m_now]) := by
  rw [List.foldl_append]
  have token : ∀ {newState}, lineState rv = some newState →
      m.idleHandler.updateAddressLine m.m_actionHandler.m_currentAction.m_address newState >>= checkNewAction =
        .ok m' →
      m'.m_actionHandler.m_scheduler = (((m.settlingCalls rv).flatMap schedulerCalls).foldl MasterScheduler.call
        m.m_actionHandler.m_scheduler).call (.work m.m_now) := by
    intro newState state run
    obtain ⟨updated, update, check⟩ := Except.bind_eq_ok_iff.mp run
    unfold Master.updateAddressLine at update
    split at update
    · cases update
    · rename_i dh calls found
      cases update
      have asked : m.settlingCalls rv = calls := by
        have same : m.m_dynamicHandler.updateAddressLine m.m_now m.m_actionHandler.m_currentAction.m_address
          newState = some (dh, calls) := found
        simp only [settlingCalls, state, same]
      obtain ⟨scheduler, now, action⟩ := foldl_dynamicCall_scheduler calls { m.idleHandler with m_dynamicHandler := dh }
      have started := checkNewAction_scheduler (by rw [action]; rfl) check
      rw [started, scheduler, now, asked]
      rfl
  cases rv with
  | client_packet_started => exact token rfl run
  | rx_token_no_packet => exact token rfl run
  | token_timeout => exact token rfl run
  | address_query_done => exact checkNewAction_scheduler (m := m.idleHandler.addressDiscoveryIsDone) rfl run
  | ok => exact checkNewAction_scheduler (m := m.idleHandler) rfl run
  | timeout => cases run
  | not_set => cases run

theorem HandlerStep.scheduler {m m' : Master} {calls : List SchedulerCall} (step : HandlerStep m calls m') :
    m'.m_actionHandler.m_scheduler = calls.foldl MasterScheduler.call m.m_actionHandler.m_scheduler := by
  cases step with
  | elsewhere same => exact same.scheduler
  | postAction => rfl
  | postActionNow => rfl
  | request aReq => exact (foldl_dynamicCall_scheduler _ _).1
  | check run =>
    by_cases nothing : m.m_actionHandler.m_currentAction.doNothing = true
    · rw [if_pos nothing]
      exact checkNewAction_scheduler nothing run
    · rw [checkNewAction_busy (Bool.eq_false_iff.mpr nothing)] at run
      rw [if_neg nothing]
      cases run
      rfl
  | report run => exact handleActionResult_scheduler run

/-! Runs -/

/-- The handlers at work, with the numbers of the actions. Any time, waiting actions that compare
equal may change places. -/
inductive NumberedStep : Master × NumberedScheduler → List SchedulerCall → Master × NumberedScheduler → Prop
  | mk {m m' : Master} {s : NumberedScheduler} {calls : List SchedulerCall} : HandlerStep m calls m' →
      NumberedStep (m, s) calls (m', calls.foldl NumberedScheduler.call s)
  | reordered {m : Master} {s : NumberedScheduler} {waiting : List (Nat × QueueEl)} : s.Reorders waiting →
      NumberedStep (m, s) [] (m.setScheduler (s.reorder waiting).erase, s.reorder waiting)

def NumberedRun : Master × NumberedScheduler → Master × NumberedScheduler → Prop :=
  LabelledReach NumberedStep (fun _ _ => True)

/-- The states of the handlers that begin with nothing posted. -/
def NumberedReach (r : Master × NumberedScheduler) : Prop :=
  ∃ m₀ : Master, m₀.m_actionHandler.m_scheduler = ⟨[], []⟩ ∧ NumberedRun (m₀, .empty) r

section Runs

variable {r r' : Master × NumberedScheduler}

theorem NumberedRun.sound (run : NumberedRun r r') (sound : r.2.Sound) : r'.2.Sound := by
  refine run.invariant (P := fun r => r.2.Sound) sound ?_
  intro s s' calls sound _ step
  cases step with
  | mk _ => exact sound.foldl calls
  | reordered reorders => exact sound.reorder reorders

/-- The numbered scheduler is the scheduler of the action handler. -/
theorem NumberedRun.erase (run : NumberedRun r r') (same : r.2.erase = r.1.m_actionHandler.m_scheduler) :
    r'.2.erase = r'.1.m_actionHandler.m_scheduler := by
  refine run.invariant (P := fun r => r.2.erase = r.1.m_actionHandler.m_scheduler) same ?_
  intro s s' calls same _ step
  cases step with
  | mk step => rw [NumberedScheduler.erase_foldl, step.scheduler, same]
  | reordered _ => rfl

theorem NumberedRun.ahead (run : NumberedRun r r') (sound : r.2.Sound) {x y : Nat} (ahead : r.2.Ahead x y) :
    r'.2.Ahead x y := by
  have both : r'.2.Sound ∧ r'.2.Ahead x y := by
    refine run.invariant (P := fun r => r.2.Sound ∧ r.2.Ahead x y) ⟨sound, ahead⟩ ?_
    intro s s' calls held _ step
    cases step with
    | mk _ => exact ⟨held.1.foldl calls, held.2.foldl held.1 calls⟩
    | reordered reorders => exact ⟨held.1.reorder reorders, held.2.reorder reorders⟩
  exact both.2

theorem NumberedReach.sound (reach : NumberedReach r) : r.2.Sound := by
  obtain ⟨m₀, _, run⟩ := reach
  exact run.sound NumberedScheduler.sound_empty

theorem NumberedReach.erase (reach : NumberedReach r) : r.2.erase = r.1.m_actionHandler.m_scheduler := by
  obtain ⟨m₀, empty, run⟩ := reach
  exact run.erase empty.symm

theorem NumberedRun.snoc {m m' : Master} {s : NumberedScheduler} {calls : List SchedulerCall}
    (run : NumberedRun r (m, s)) (step : HandlerStep m calls m') :
    NumberedRun r (m', calls.foldl NumberedScheduler.call s) :=
  .next run trivial (.mk step)

theorem NumberedReach.trans (reach : NumberedReach r) (run : NumberedRun r r') : NumberedReach r' := by
  obtain ⟨m₀, empty, before⟩ := reach
  exact ⟨m₀, empty, LabelledReach.trans before run⟩

end Runs

/-! The complete master -/

/-- The way from one master to another is made of steps of the handlers. -/
def Handled (m m' : Master) : Prop :=
  ∀ s : NumberedScheduler, s.erase = m.m_actionHandler.m_scheduler → ∃ s', NumberedRun (m, s) (m', s')

namespace Handled

variable {m m' m'' e : Master} {rxInProgress : Bool} {ev : Event} {rv : ReturnValue}

theorem of_step {calls : List SchedulerCall} (step : HandlerStep m calls m') : Handled m m' :=
  fun _ _ => ⟨_, .snoc .start step⟩

theorem refl (m : Master) : Handled m m := fun s _ => ⟨s, .start⟩

theorem trans (first : Handled m m') (second : Handled m' m'') : Handled m m'' := by
  intro s same
  obtain ⟨s', run⟩ := first s same
  obtain ⟨s'', rest⟩ := second s' (run.erase same)
  exact ⟨s'', LabelledReach.trans run rest⟩

/-- The handlers have nothing to do with it. -/
theorem elsewhere (now : m'.m_now = m.m_now) (handler : m'.m_actionHandler = m.m_actionHandler)
    (dynamic : m'.m_dynamicHandler = m.m_dynamicHandler) : Handled m m' :=
  of_step (.elsewhere ⟨by rw [now], by rw [handler], by rw [handler], by rw [dynamic], by rw [dynamic]⟩)

theorem reportActionResult (run : m.reportActionResult rv = .ok m') : Handled m m' := by
  simp only [Master.reportActionResult] at run
  split at run
  · refine trans ?_ (of_step (.report run))
    exact elsewhere rfl rfl rfl
  · cases run
    exact elsewhere rfl rfl rfl

theorem reportAndIdle (run : m.reportAndIdle rv = .ok m') : Handled m m' := by
  obtain ⟨reported, report, idle⟩ := Except.bind_eq_ok_iff.mp run
  cases idle
  exact (reportActionResult report).trans (elsewhere rfl rfl rfl)

theorem idleEvent (run : m.idleEvent ev = .ok e) : Handled m e := by
  cases ev with
  | check_new_command =>
    simp only [Master.idleEvent, decodeAction] at run
    split at run
    · cases run
      exact refl m
    · split at run
      · split at run
        · exact reportActionResult run
        · cases run
          exact elsewhere rfl rfl rfl
      · cases run
        exact elsewhere rfl rfl rfl
    · cases run
      exact elsewhere rfl rfl rfl
    · cases run
      exact elsewhere rfl rfl rfl
  | _ =>
    cases run
    exact refl m

theorem waitingEvent (run : m.waitClientPacketDoneEvent rxInProgress ev = .ok e) : Handled m e := by
  cases ev with
  | rx_pkt_client_packet => exact reportAndIdle run
  | rx_return_token => exact reportAndIdle run
  | timer_timeout =>
    cases rxInProgress with
    | true =>
      cases run
      exact elsewhere rfl rfl rfl
    | false => exact reportAndIdle run
  | _ =>
    cases run
    exact refl m

theorem queryEvent (run : m.queryAddressEvent rxInProgress ev = .ok e) : Handled m e := by
  cases ev with
  | rx_pkt_address_request aReq =>
    cases run
    exact (of_step (.request aReq)).trans (elsewhere rfl rfl rfl)
  | timer_timeout =>
    cases rxInProgress with
    | true =>
      cases run
      exact elsewhere rfl rfl rfl
    | false => exact reportAndIdle run
  | _ =>
    cases run
    exact refl m

theorem emitEvent (run : m.emitEvent rxInProgress ev = .ok e) : Handled m e := by
  unfold Master.emitEvent at run
  split at run
  · exact idleEvent run
  · cases ev with
    | rx_pkt_master_start_stop => exact reportAndIdle run
    | timer_timeout => exact reportAndIdle run
    | _ =>
      cases run
      exact refl m
  · cases ev <;> cases run <;> exact elsewhere rfl rfl rfl
  · exact waitingEvent run
  · exact queryEvent run
  · cases ev with
    | timer_timeout => cases rxInProgress <;> cases run <;> exact elsewhere rfl rfl rfl
    | _ =>
      cases run
      exact refl m

theorem prepareTransition (run : m.prepareTransition = .ok m') : Handled m m' := by
  unfold Master.prepareTransition at run
  split at run
  · cases run
    exact refl m
  · rename_i s _
    obtain ⟨left, exit, entered⟩ := Except.bind_eq_ok_iff.mp run
    cases entered
    have exited : Handled m left := by
      unfold exitState at exit
      split at exit
      · cases exit
        exact elsewhere rfl rfl rfl
      · refine trans ?_ (reportActionResult exit)
        exact elsewhere rfl rfl rfl
      · cases exit
        exact elsewhere rfl rfl rfl
    have entering : Handled left (left.enterState s) := by
      cases s <;> exact elsewhere rfl rfl rfl
    exact exited.trans entering

theorem turn (run : m.turn rxInProgress = .ok m') : Handled m m' := by
  unfold Master.turn at run
  split at run
  · cases run
    exact refl m
  · obtain ⟨processed, process, popped⟩ := Except.bind_eq_ok_iff.mp run
    obtain ⟨emitted, emit, prepare⟩ := Except.bind_eq_ok_iff.mp process
    cases popped
    have cleared : Handled m { m with m_out := [] } := elsewhere rfl rfl rfl
    exact ((cleared.trans (emitEvent emit)).trans (prepareTransition prepare)).trans (elsewhere rfl rfl rfl)

theorem foldl_dynamicCall (calls : List DynamicCall) (m : Master) : Handled m (calls.foldl dynamicCall m) := by
  induction calls generalizing m with
  | nil => exact refl m
  | cons c rest ih =>
    have first : Handled m (m.dynamicCall c) := by
      cases c with
      | postActionNow a => exact of_step (.postActionNow a)
      | postAction a time => exact of_step (.postAction a time)
      | sendAddressReply => exact elsewhere rfl rfl rfl
    exact first.trans (ih (m.dynamicCall c))

theorem wake {now : ℚ} (later : m.m_now ≤ now) : Handled m (m.wake now) :=
  of_step (.elsewhere ⟨later, rfl, rfl, rfl, rfl⟩)

theorem reordered {waiting : List QueueEl} (reorders : m.m_actionHandler.m_scheduler.Reorders waiting) :
    Handled m (m.setScheduler (m.m_actionHandler.m_scheduler.reorder waiting)) := by
  intro s same
  rw [← same] at reorders
  obtain ⟨numbered, ties, elements⟩ := NumberedScheduler.exists_reorders reorders
  have erased : (s.reorder numbered).erase = m.m_actionHandler.m_scheduler.reorder waiting := by
    rw [← same, ← elements]
    rfl
  rw [← erased]
  exact ⟨_, .next .start trivial (.reordered ties)⟩

end Handled

theorem Synced.step_handled {m m' : Master} (synced : Synced m) {l : Label} (step : Step m l m') : Handled m m' := by
  cases step with
  | turn _ run => exact .turn run
  | @stimulus _ now s queue later enabled run =>
    have woken : Handled m (m.wake now) := .wake later
    cases stimulate_cases queue enabled synced.sameAction run with
    | packet _ => exact woken.trans (.elsewhere rfl rfl rfl)
    | sendPacket => exact woken.trans (.elsewhere rfl rfl rfl)
    | sendMacUpdate => exact woken.trans (.elsewhere rfl rfl rfl)
    | timer => exact woken.trans (.elsewhere rfl rfl rfl)
    | delayBusy _ => exact woken.trans (.of_step (.elsewhere ⟨le_refl _, rfl, rfl, rfl, rfl⟩))
    | delayIdle nothing =>
      have inactive : m.actionActive = false := by
        rw [synced.sameAction] at nothing
        simpa [actionActive, Action.doNothing] using nothing
      refine .trans ?_ (.of_step (.check (checkNewAction_idle (m := { m.wake now with m_actionHandler := _ })
        nothing inactive)))
      exact woken.trans (.of_step (.elsewhere ⟨le_refl _, rfl, rfl, rfl, rfl⟩))
    | discovery =>
      refine .trans ?_ (.of_step (.postActionNow _))
      exact woken.trans (.of_step (.elsewhere ⟨le_refl _, rfl, rfl, rfl, rfl⟩))
    | reordered reorders => exact woken.trans (.reordered reorders)

/-- Every run of a master is a run of its handlers. -/
theorem Reach.numbered {allowed : Master → Label → Prop} {cfg : Config} {node : PacketTypeCodec}
    {uninitialised : Nat → UniqueId} {now : ℚ} {m : Master} (reach : Reach allowed cfg node uninitialised now m) :
    ∃ s, NumberedReach (m, s) := by
  refine reach.invariant (P := fun m => ∃ s, NumberedReach (m, s)) ?_ ?_
  · have constructed := start_eq cfg node uninitialised now
    have posted : Handled _ (setup cfg node uninitialised now) :=
      (Handled.of_step (.postActionNow Action.makeMasterStartAction)).trans (.foldl_dynamicCall _ _)
    obtain ⟨s, run⟩ := posted.trans (.of_step (.check constructed)) .empty rfl
    exact ⟨s, _, rfl, run⟩
  · intro m m' l synced numbered _ step
    obtain ⟨s, numbered⟩ := numbered
    obtain ⟨s', run⟩ := synced.step_handled step s numbered.erase
    exact ⟨s', numbered.trans run⟩

theorem lt_nextTime (now : ℚ) (state : AddressLine.State) : now < DynamicHandler.nextTime now state := by
  cases state <;> simp only [DynamicHandler.nextTime] <;> exact lt_add_of_pos_right now (by decide +kernel)

/-- Where a token is posted again, it is the first thing the dynamic handler asks for, and
it is for later. -/
theorem settlingCalls_reposts {m : Master} {rv : ReturnValue} {a : Action} {time : ℚ}
    (reposts : .postAction a time ∈ m.settlingCalls rv) :
    m.settlingCalls rv = [.postAction a time] ∧ m.m_now < time := by
  unfold settlingCalls at reposts ⊢
  split at reposts
  · cases reposts
  · split at reposts
    · cases reposts
    · rename_i dh calls found
      obtain ⟨_, line, _, _, _, _, ⟨_, none, _⟩ | ⟨_, again, _⟩⟩ := DynamicHandler.updateAddressLine_cases found
      · rw [none] at reposts
        cases reposts
      · rw [again, List.mem_singleton] at reposts
        cases reposts
        exact ⟨again, lt_nextTime _ _⟩

/-- A token that is posted again is not taken before any action that was ready or due
by then. `s.posted` is the number the token gets. -/
theorem no_starvation {m m' m'' : Master} {s s'' : NumberedScheduler} {rv : ReturnValue}
    {addr : LocalAddress} {time : ℚ} {x : Nat} (reach : NumberedReach (m, s))
    (reposts : .postAction (.makeSendTokenAction addr) time ∈ m.settlingCalls rv)
    (report : m.handleActionResult rv = .ok m')
    (ahead : x ∈ s.m_ready.map Prod.fst ∨ ∃ el, (x, el) ∈ s.m_waiting ∧ el.m_nextTime ≤ m.m_now)
    (later : NumberedRun (m', List.foldl NumberedScheduler.call s
      ((m.settlingCalls rv).flatMap schedulerCalls ++ [.work m.m_now])) (m'', s'')) :
    ∀ before after, s''.taken.map Prod.fst = before ++ s.posted :: after → x ∈ before := by
  obtain ⟨first, positive⟩ := settlingCalls_reposts reposts
  have calls : (m.settlingCalls rv).flatMap schedulerCalls ++ [.work m.m_now] =
      [.addAction (Action.makeSendTokenAction addr).withReport time, .work m.m_now] := by
    rw [first]
    rfl
  have reach'' : NumberedReach (m'', s'') := by
    have step : NumberedRun (m, s) _ := .snoc .start (.report report)
    exact (reach.trans step).trans later
  rw [calls] at later
  have pair : [x, s.posted].Sublist s''.order := by
    have posted := reach.sound.ahead_addAction (a := (Action.makeSendTokenAction addr).withReport) ahead positive
    have sound := reach.sound.call (.addAction (Action.makeSendTokenAction addr).withReport time)
    exact (later.ahead (sound.call (.work m.m_now)) (posted.call sound (.work m.m_now))).pair
  intro before after taken
  have nodup := reach''.sound.nodup
  rw [NumberedScheduler.order, taken, List.append_assoc, List.cons_append] at pair nodup
  exact NumberedScheduler.mem_of_pair_sublist nodup pair

/-- The state machine has reported and is idle again. -/
def rested (m : Master) (now : ℚ) : Master :=
  { m with m_now := now, m_fsm := ⟨.idle, 1, none, [], .unset, Action.makeDoNothingAction⟩ }

def settle (m : Master) (rv : ReturnValue) : Master := ((m.handleActionResult rv).toOption).getD m

theorem handleActionResult_settle {m : Master} {rv : ReturnValue}
    (handled : (m.handleActionResult rv).toOption.isSome = true) : m.handleActionResult rv = .ok (m.settle rv) := by
  unfold settle
  cases run : m.handleActionResult rv with
  | error =>
    rw [run] at handled
    cases handled
  | ok m' => rfl

def sampleEmpty : Master :=
  { setup {} sampleNode (fun _ => sampleId) 1000 with
    m_actionHandler := ⟨⟨[], []⟩, .unset, Action.makeDoNothingAction⟩ }

/-- Tokens 0 and 1, for addresses 1 and 2, are ready; the first one is taken, and
returned at once. -/
def sampleReturn : Master :=
  (((sampleEmpty.postActionNow (.makeSendTokenAction 1)).postActionNow (.makeSendTokenAction 2)).startNext).rested 1000

def sampleNumbers : NumberedScheduler :=
  [.addActionNow (Action.makeSendTokenAction 1).withReport, .addActionNow (Action.makeSendTokenAction 2).withReport,
    .work 1000].foldl NumberedScheduler.call .empty

/-- What becomes of them when the token is returned. -/
def sampleReposted : NumberedScheduler :=
  List.foldl NumberedScheduler.call sampleNumbers
    ((sampleReturn.settlingCalls .rx_token_no_packet).flatMap schedulerCalls ++ [.work sampleReturn.m_now])

theorem sampleReturn_reach : NumberedReach (sampleReturn, sampleNumbers) := by
  refine ⟨sampleEmpty, rfl, ?_⟩
  have nothing : NumberedRun (sampleEmpty, .empty) (sampleEmpty, .empty) := .start
  have posted := (nothing.snoc (.postActionNow (.makeSendTokenAction 1))).snoc (.postActionNow (.makeSendTokenAction 2))
  have taken := posted.snoc (.check (checkNewAction_idle rfl rfl))
  exact taken.snoc (.elsewhere ⟨le_refl _, rfl, rfl, rfl, rfl⟩)

/-- Address 1 returns the token while that for address 2 is ready, and address 2 returns
its token a second later: the new token for address 1 is number 2, and is taken after
number 1. -/
theorem no_starvation_returned :
    ∃ m'' s'', NumberedReach (sampleReturn, sampleNumbers) ∧
      NumberedRun (sampleReturn.settle .rx_token_no_packet, sampleReposted) (m'', s'') ∧
      s''.taken.map Prod.fst = [0, 1] ++ sampleNumbers.posted :: [] ∧ 1 ∈ [0, 1] := by
  have reposts : .postAction (.makeSendTokenAction 1) (1000 + 1 / 10) ∈
      sampleReturn.settlingCalls .rx_token_no_packet := by decide +kernel
  have report : sampleReturn.handleActionResult .rx_token_no_packet =
      .ok (sampleReturn.settle .rx_token_no_packet) := handleActionResult_settle (by decide +kernel)
  have wait : HandlerStep (sampleReturn.settle .rx_token_no_packet) []
      ((sampleReturn.settle .rx_token_no_packet).rested 1001) := .elsewhere ⟨by decide +kernel, rfl, rfl, rfl, rfl⟩
  have second : ((sampleReturn.settle .rx_token_no_packet).rested 1001).handleActionResult .rx_token_no_packet =
      .ok (((sampleReturn.settle .rx_token_no_packet).rested 1001).settle .rx_token_no_packet) :=
    handleActionResult_settle (by decide +kernel)
  have reposted : NumberedRun (sampleReturn.settle .rx_token_no_packet, sampleReposted)
      (sampleReturn.settle .rx_token_no_packet, sampleReposted) := .start
  have later := (reposted.snoc wait).snoc (.report second)
  refine ⟨_, _, sampleReturn_reach, later, by decide +kernel, ?_⟩
  exact no_starvation sampleReturn_reach reposts report (Or.inl (by decide +kernel)) later [0, 1] [] (by decide +kernel)

end Master

end SerialNet
