import SerialNet.StateChart.Setup
import SerialNet.VecQueue

namespace SerialNet

namespace StateChart

/-- `m_activeState` is the state object of a level, known by the id of its state;
`m_stateStorage` is the size of the memory it lives in. -/
structure LevelData where
  m_activeState : Option Int
  m_stateStorage : Nat
deriving DecidableEq, Repr

/-- What can be seen of a machine from outside. -/
inductive Entry (Event : Type)
  /-- A call of `transition`, or the start state. -/
  | requested (id : Int)
  | posted (ev : Event)
  /-- The processing of an event begins. -/
  | begins (ev : Event)
  | emitted (id : Int) (handled : Bool)
  | ends (ev : Event)
  /-- `doTransition` is called, with this leaf. -/
  | transits (source : Option Int) (target : Int)
  | destroyed (id : Int)
  | constructed (id : Int)
  /-- `doTransition` has returned. -/
  | performed (source : Option Int) (target : Int)
  /-- `prepareTransition` has returned, with these states and these levels in use. -/
  | returns (infos : List StateInfo) (active : List Bool)
deriving DecidableEq

/-- A state machine: `FsmBaseSupport` with the event queue of `FsmBaseEvent` and with the
data of the user's classes. Pointers to a `StateInfo` come from `findState`, so that equal
infos are one pointer. -/
structure FsmBase (σ Event : Type) where
  m_setup : FsmSetupBase
  m_stackFrames : List LevelData
  m_currentInfos : List StateInfo
  m_nextInfos : List (Option StateInfo)
  m_stateUpdate : Bool
  m_nextState : Int
  m_eventQueue : VecQueue Event
  m_user : σ
  m_trace : List (Entry Event)

/-- What stops a machine: a call on a state that is not there, a null pointer or a position
outside a vector, or a loop that does not come to its end in the number of rounds given. -/
inductive Fault
  | nullState
  | nullInfo
  | outOfRange
  | outOfFuel
deriving DecidableEq, Repr

abbrev Exec (σ Event α : Type) := EStateM Fault (FsmBase σ Event) α

/-- The code of a constructor, a destructor or an event handler. It works on the user's
data, asks for transitions and posts events; a posted event may change the data before the
call returns. -/
inductive Program (σ Event α : Type)
  | done (user : σ) (value : α)
  | transition (id : Int) (rest : Program σ Event α)
  | postEvent (user : σ) (ev : Event) (rest : σ → Program σ Event α)

structure Behaviour (σ Event : Type) where
  construct : Int → σ → Program σ Event Unit
  destroy : Int → σ → Program σ Event Unit
  event : Int → Event → σ → Program σ Event Bool

variable {σ Event α : Type}

namespace FsmBase

def make (setup : FsmSetupBase) (user : σ) : FsmBase σ Event :=
  ⟨setup, [], [], [], false, 0, .make, user, []⟩

def log (m : FsmBase σ Event) (entry : Entry Event) : FsmBase σ Event := { m with m_trace := m.m_trace ++ [entry] }

def transition (m : FsmBase σ Event) (id : Int) : FsmBase σ Event :=
  { m with m_nextState := id, m_stateUpdate := true }.log (.requested id)

def push (m : FsmBase σ Event) (ev : Event) : FsmBase σ Event :=
  { m with m_eventQueue := m.m_eventQueue.push ev }.log (.posted ev)

def leaf (m : FsmBase σ Event) : Option Int := m.m_currentInfos.getLast?.map (·.m_id)

end FsmBase

def resize {β : Type} (v : List β) (size : Nat) (fill : β) : List β :=
  v.take size ++ List.replicate (size - v.length) fill

def Program.run (post : Event → Exec σ Event Unit) : Program σ Event α → Exec σ Event α
  | .done user value => do
    modify ({ · with m_user := user })
    pure value
  | .transition id rest => do
    modify (·.transition id)
    rest.run post
  | .postEvent user ev rest => do
    modify ({ · with m_user := user })
    post ev
    let m ← get
    (rest m.m_user).run post

section

variable (b : Behaviour σ Event) (post : Event → Exec σ Event Unit)

def destroyState (id : Int) : Exec σ Event Unit := do
  modify (·.log (.destroyed id))
  let m ← get
  (b.destroy id m.m_user).run post

def m_maker (id : Int) : Exec σ Event Unit := do
  modify (·.log (.constructed id))
  let m ← get
  (b.construct id m.m_user).run post

/-- `m_activeState.reset` of a level. The pointer is replaced before the old state is
destroyed. -/
def reset (level : Nat) (state : Option Int) : Exec σ Event Unit := do
  let m ← get
  match m.m_stackFrames[level]? with
  | none => throw .outOfRange
  | some frame =>
    set { m with m_stackFrames := m.m_stackFrames.set level { frame with m_activeState := state } }
    match frame.m_activeState with
    | none => pure ()
    | some id => destroyState b post id

def doExit (bottomLevel : Nat) : Nat → Exec σ Event Unit
  | 0 => throw .outOfFuel
  | fuel + 1 => do
    let m ← get
    if m.m_currentInfos.length > bottomLevel then
      reset b post (m.m_currentInfos.length - 1) none
      modify fun m => { m with m_currentInfos := m.m_currentInfos.dropLast }
      doExit bottomLevel fuel
    else
      pure ()

/-- One round of `doEntry`. The level is in use before the state is constructed. -/
def enterLevel (level : Nat) : Exec σ Event Unit := do
  let m ← get
  match m.m_nextInfos[level]?, m.m_stackFrames[level]? with
  | some (some newState), some frame =>
    let size := if frame.m_stateStorage < newState.m_stateSize then newState.m_stateSize else frame.m_stateStorage
    set { m with
      m_stackFrames := m.m_stackFrames.set level { frame with m_stateStorage := size }
      m_currentInfos := m.m_currentInfos ++ [newState] }
    m_maker b post newState.m_id
    reset b post level (some newState.m_id)
  | some none, _ => throw .nullInfo
  | _, _ => throw .outOfRange

def enterLevels (dstLevel : Nat) : Nat → Exec σ Event Unit
  | 0 => throw .outOfFuel
  | fuel + 1 => do
    let m ← get
    if m.m_currentInfos.length ≠ dstLevel then
      enterLevel b post m.m_currentInfos.length
      enterLevels dstLevel fuel
    else
      pure ()

def doEntry (fuel : Nat) : Exec σ Event Unit := do
  let m ← get
  enterLevels b post m.m_nextInfos.length fuel

def setNextInfo (si : StateInfo) : Exec σ Event Unit := do
  let m ← get
  if si.m_level < m.m_nextInfos.length then
    set { m with m_nextInfos := m.m_nextInfos.set si.m_level (some si) }
  else
    throw .outOfRange

/-- From a state up to its root. -/
def setParentInfos : Nat → StateInfo → Exec σ Event Unit
  | 0, _ => throw .outOfFuel
  | fuel + 1, si => do
    let m ← get
    if si.m_level > 0 then
      match m.m_setup.findState si.m_parentId with
      | none => throw .nullInfo
      | some parent =>
        setNextInfo parent
        setParentInfos fuel parent
    else
      pure ()

def populateNextInfos (nextInfo : StateInfo) (fuel : Nat) : Exec σ Event Unit := do
  modify fun m => { m with m_nextInfos := resize m.m_nextInfos (nextInfo.m_level + 1) none }
  setNextInfo nextInfo
  setParentInfos fuel nextInfo

/-- The number of levels in front that are the same. -/
def sameLevels : List StateInfo → List (Option StateInfo) → Nat
  | src :: srcs, dst :: dsts => if some src = dst then sameLevels srcs dsts + 1 else 0
  | _, _ => 0

/-- A transition from a state to itself leaves the state and enters it again. -/
def findFirstThatDiffer (m : FsmBase σ Event) (back : StateInfo) : Nat :=
  if m.m_nextInfos.getLast? = some (some back) then
    back.m_level
  else
    sameLevels m.m_currentInfos m.m_nextInfos

def bottomLevel (m : FsmBase σ Event) : Nat :=
  match m.m_currentInfos.getLast? with
  | none => 0
  | some back => findFirstThatDiffer m back

def doTransition (nextInfo : StateInfo) (fuel : Nat) : Exec σ Event Unit := do
  let before ← get
  set (before.log (.transits before.leaf nextInfo.m_id))
  populateNextInfos nextInfo fuel
  let m ← get
  doExit b post (bottomLevel m) fuel
  doEntry b post fuel
  modify (·.log (.performed before.leaf nextInfo.m_id))

/-- With a state that is not registered the loop goes on for ever. -/
def prepareTransition : Nat → Exec σ Event Unit
  | 0 => throw .outOfFuel
  | fuel + 1 => do
    let m ← get
    if m.m_stateUpdate then
      match m.m_setup.findState m.m_nextState with
      | none => prepareTransition fuel
      | some i =>
        set { m with m_stateUpdate := false }
        doTransition b post i fuel
        prepareTransition fuel
    else
      set (m.log (.returns m.m_currentInfos (m.m_stackFrames.map (·.m_activeState.isSome))))

def emitEvent (activeState : Option Int) (ev : Event) : Exec σ Event Bool := do
  match activeState with
  | none => throw .nullState
  | some id =>
    let m ← get
    let handled ← (b.event id ev m.m_user).run post
    modify (·.log (.emitted id handled))
    pure handled

/-- The levels below a given one see the event, the last one first, until one of them has
handled it. -/
def emitEvents (ev : Event) : Nat → Exec σ Event Unit
  | 0 => pure ()
  | level + 1 => do
    let m ← get
    match m.m_stackFrames[level]? with
    | none => throw .outOfRange
    | some frame =>
      let eventHandled ← emitEvent b post frame.m_activeState ev
      if eventHandled then
        pure ()
      else
        emitEvents ev level

def processEvent (ev : Event) (fuel : Nat) : Exec σ Event Unit := do
  let m ← get
  if m.m_currentInfos.length = 0 then
    pure ()
  else
    emitEvents b post ev m.m_currentInfos.length
    prepareTransition b post fuel

def popEvent (ev : Event) : Exec σ Event Unit := do
  let m ← get
  if some : m.m_eventQueue.empty = false then
    set ({ m with m_eventQueue := m.m_eventQueue.pop some }.log (.ends ev))
  else
    throw .outOfRange

/-- The loop of `postEvent`. An event stays in the queue while it is processed. -/
def processEvents : Nat → Exec σ Event Unit
  | 0 => throw .outOfFuel
  | fuel + 1 => do
    let m ← get
    if m.m_eventQueue.empty then
      pure ()
    else
      match m.m_eventQueue.front with
      | none => throw .outOfRange
      | some ev =>
        set (m.log (.begins ev))
        processEvent b post ev fuel
        popEvent ev
        processEvents fuel

/-- Destroy the frames from the last to the first. -/
def popFrames : Nat → Exec σ Event Unit
  | 0 => throw .outOfFuel
  | fuel + 1 => do
    let m ← get
    match m.m_stackFrames.getLast? with
    | none => pure ()
    | some frame =>
      set { m with m_stackFrames := m.m_stackFrames.dropLast }
      match frame.m_activeState with
      | none => popFrames fuel
      | some id =>
        destroyState b post id
        popFrames fuel

end

variable (b : Behaviour σ Event)

/-- Only the first of several nested calls processes events. `fuel` bounds the rounds of
each loop and the depth of the calls. -/
def postEvent : Nat → Event → Exec σ Event Unit
  | 0, ev => do
    let m ← get
    set (m.push ev)
    if m.m_eventQueue.empty then throw .outOfFuel else pure ()
  | fuel + 1, ev => do
    let m ← get
    set (m.push ev)
    if m.m_eventQueue.empty then processEvents b (postEvent fuel) (fuel + 1) else pure ()

def setStartState (id : Int) (fuel : Nat) : Exec σ Event Unit := do
  modify fun m =>
    { m with m_stackFrames := resize m.m_stackFrames (m.m_setup.m_maxLevel + 1) ⟨none, 0⟩ }.transition id
  prepareTransition b (postEvent b (fuel + 1)) fuel

def cleanup (fuel : Nat) : Exec σ Event Unit := do
  doExit b (postEvent b (fuel + 1)) 0 fuel
  popFrames b (postEvent b (fuel + 1)) fuel

end StateChart

end SerialNet
