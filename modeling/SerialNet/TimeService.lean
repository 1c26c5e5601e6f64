import SerialNet.SerialProtocol

namespace SerialNet

/-- A member of type `TimeServiceIf::Timer`, with the timeouts it has started. A
timeout is removed when it fires and when it is cancelled through the handle.
Assigning a new timeout over a running one only drops the handle: the watcher
holds a reference to itself and stays registered, so it is kept in `dropped`. -/
structure Timer (α : Type) where
  m_timer : Option α
  dropped : List α
deriving DecidableEq

namespace Timer

variable {α : Type} [DecidableEq α]

def unset : Timer α := ⟨none, []⟩

def assign (t : Timer α) (timeout : α) : Timer α := ⟨some timeout, t.m_timer.toList ++ t.dropped⟩

def cancel (t : Timer α) : Timer α := ⟨none, t.dropped⟩

/-- The timeouts the event loop may still fire. -/
def pending (t : Timer α) : List α := t.m_timer.toList ++ t.dropped

/-- A pending timeout fires. -/
def expire (t : Timer α) (timeout : α) : Timer α :=
  if t.m_timer = some timeout then ⟨none, t.dropped⟩ else ⟨t.m_timer, t.dropped.erase timeout⟩

end Timer

end SerialNet
