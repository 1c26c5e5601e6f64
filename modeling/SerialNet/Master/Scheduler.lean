import SerialNet.Lib.PriorityQueue
import SerialNet.SerialProtocol

namespace SerialNet

/-- The commands the master gives itself, in the order of the enumeration. -/
inductive Cmd
  | send_master_start
  | send_token
  | query_address
  | do_nothing
deriving DecidableEq, Repr

inductive ReturnValue
  | ok
  | not_set
  | timeout
  | rx_token_no_packet
  | client_packet_started
  | token_timeout
  | address_query_done
deriving DecidableEq, Repr

/-- `m_reportCB` tells whether a callback is set; the only one there is reports
back to the action handler. -/
structure Action where
  m_action : Cmd
  m_address : LocalAddress
  m_reportCB : Bool
deriving DecidableEq, Repr

namespace Action

def doNothing (a : Action) : Bool := a.m_action = .do_nothing

def makeMasterStartAction : Action := ⟨.send_master_start, LocalAddress.null_addr, false⟩
def makeSendTokenAction (addr : LocalAddress) : Action := ⟨.send_token, addr, false⟩
def makeQueryAddressAction : Action := ⟨.query_address, LocalAddress.null_addr, false⟩
def makeDoNothingAction : Action := ⟨.do_nothing, LocalAddress.null_addr, false⟩

/-- The action as the action handler queues it. -/
def withReport (a : Action) : Action := { a with m_reportCB := true }

end Action

def Cmd.toNat : Cmd → Nat
  | .send_master_start => 0
  | .send_token => 1
  | .query_address => 2
  | .do_nothing => 3

structure QueueEl where
  m_nextTime : ℚ
  m_action : Action
deriving DecidableEq

/-- `operator>` of queue elements: by time, then by command. -/
def QueueEl.Gt (lhs rhs : QueueEl) : Prop :=
  lhs.m_nextTime > rhs.m_nextTime ∨
    (lhs.m_nextTime = rhs.m_nextTime ∧ lhs.m_action.m_action.toNat > rhs.m_action.m_action.toNat)

instance (lhs rhs : QueueEl) : Decidable (lhs.Gt rhs) := inferInstanceAs (Decidable (_ ∨ _))

/-- What queue elements are compared by. -/
def QueueEl.key (el : QueueEl) : ℚ ×ₗ Nat := toLex (el.m_nextTime, el.m_action.m_action.toNat)

theorem QueueEl.gt_iff (lhs rhs : QueueEl) : lhs.Gt rhs ↔ rhs.key < lhs.key := by
  rw [QueueEl.key, QueueEl.key, Prod.Lex.toLex_lt_toLex]
  exact or_congr Iff.rfl (and_congr_left' eq_comm)

/-- What the priority queue asks of `operator>`. -/
instance : IsStrictWeakOrder QueueEl QueueEl.Gt := by
  have same : QueueEl.Gt = Order.Preimage QueueEl.key (· > ·) :=
    funext₂ fun lhs rhs => propext (lhs.gt_iff rhs)
  have keys : IsStrictWeakOrder (ℚ ×ₗ Nat) (· > ·) := isStrictWeakOrder_of_isOrderConnected
  rw [same]
  infer_instance

theorem QueueEl.le_of_not_gt {lhs rhs : QueueEl} (notGreater : ¬ lhs.Gt rhs) : lhs.m_nextTime ≤ rhs.m_nextTime :=
  not_lt.mp fun later => notGreater (Or.inl later)

/-- What is to be done later and what is to be done now. The priority queue
`m_waiting` is kept in order, its top first. -/
structure MasterScheduler where
  m_waiting : List QueueEl
  m_ready : List Action
deriving DecidableEq

namespace MasterScheduler

def addAction (s : MasterScheduler) (a : Action) (t : ℚ) : MasterScheduler :=
  { s with m_waiting := s.m_waiting.orderedInsert (fun lhs rhs => rhs.Gt lhs) ⟨t, a⟩ }

def addActionNow (s : MasterScheduler) (a : Action) : MasterScheduler :=
  { s with m_ready := s.m_ready ++ [a] }

/-- The waiting elements may as well stand like this: which of several that compare equal
gets to the top first is left to the priority queue. -/
def Reorders (s : MasterScheduler) (waiting : List QueueEl) : Prop :=
  waiting.Perm s.m_waiting ∧ waiting.Pairwise fun lhs rhs => ¬ lhs.Gt rhs

instance (s : MasterScheduler) (waiting : List QueueEl) : Decidable (s.Reorders waiting) :=
  inferInstanceAs (Decidable (_ ∧ _))

def reorder (s : MasterScheduler) (waiting : List QueueEl) : MasterScheduler := { s with m_waiting := waiting }

/-- The loop of `workToDo`: while the top is due, move it to the ready queue. -/
def release (s : MasterScheduler) (now : ℚ) : MasterScheduler where
  m_waiting := s.m_waiting.dropWhile (·.m_nextTime ≤ now)
  m_ready := s.m_ready ++ (s.m_waiting.takeWhile (·.m_nextTime ≤ now)).map (·.m_action)

def readyTime (s : MasterScheduler) : ℚ :=
  match s.m_waiting with
  | [] => 0
  | top :: _ => top.m_nextTime

/-- All queued actions, whatever queue they are in. -/
def queued (s : MasterScheduler) : List Action := s.m_ready ++ s.m_waiting.map (·.m_action)

theorem queued_addAction (s : MasterScheduler) (a : Action) (t : ℚ) :
    (s.addAction a t).queued.Perm (a :: s.queued) := by
  have inserted := (List.perm_orderedInsert (fun lhs rhs : QueueEl => rhs.Gt lhs) ⟨t, a⟩ s.m_waiting).map
    QueueEl.m_action
  exact (inserted.append_left s.m_ready).trans List.perm_middle

theorem queued_addActionNow (s : MasterScheduler) (a : Action) :
    (s.addActionNow a).queued.Perm (a :: s.queued) := by
  simp only [queued, addActionNow, List.append_assoc, List.singleton_append]
  exact List.perm_middle

/-- Releasing due actions neither loses nor invents any. -/
theorem queued_release (s : MasterScheduler) (now : ℚ) : (s.release now).queued = s.queued := by
  simp only [queued, release, List.append_assoc, ← List.map_append, List.takeWhile_append_dropWhile]

theorem Reorders.queued {s : MasterScheduler} {waiting : List QueueEl} (reorders : s.Reorders waiting) :
    (s.reorder waiting).queued.Perm s.queued :=
  (reorders.1.map QueueEl.m_action).append_left s.m_ready

/-- The waiting queue is ordered by time. -/
def Ordered (s : MasterScheduler) : Prop :=
  s.m_waiting.Pairwise (fun lhs rhs => lhs.m_nextTime ≤ rhs.m_nextTime)

theorem Ordered.addAction {s : MasterScheduler} (ordered : s.Ordered) (a : Action) (t : ℚ) :
    (s.addAction a t).Ordered := by
  have : IsTrans QueueEl fun lhs rhs => lhs.m_nextTime ≤ rhs.m_nextTime := ⟨fun _ _ _ => le_trans⟩
  refine PriorityQueue.pairwise_orderedInsert ordered ?_ fun _ _ => QueueEl.le_of_not_gt
  rintro el _ (later | ⟨same, _⟩)
  · exact le_of_lt later
  · exact same.ge

theorem Ordered.release {s : MasterScheduler} (ordered : s.Ordered) (now : ℚ) : (s.release now).Ordered :=
  List.Pairwise.sublist (List.dropWhile_sublist _) ordered

theorem Reorders.ordered {s : MasterScheduler} {waiting : List QueueEl} (reorders : s.Reorders waiting) :
    (s.reorder waiting).Ordered :=
  reorders.2.imp QueueEl.le_of_not_gt

/-- The top of an ordered queue is the earliest element. -/
theorem Ordered.readyTime_le {s : MasterScheduler} (ordered : s.Ordered) {el : QueueEl}
    (member : el ∈ s.m_waiting) : s.readyTime ≤ el.m_nextTime := by
  unfold readyTime
  split
  · rename_i none
    rw [none] at member
    exact absurd member List.not_mem_nil
  · rename_i top rest waiting
    rw [Ordered, waiting, List.pairwise_cons] at ordered
    rw [waiting] at member
    rcases List.mem_cons.mp member with same | older
    · rw [same]
    · exact ordered.1 el older

end MasterScheduler

end SerialNet
