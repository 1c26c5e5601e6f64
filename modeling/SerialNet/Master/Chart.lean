import SerialNet.Master.Faults
import SerialNet.Master.Handlers
import SerialNet.StateChart.LifeCycle

namespace SerialNet

namespace StateId

/-- The number of a state in the enumeration of the source. -/
def toInt : StateId → Int
  | .idle => 0
  | .startMaster => 1
  | .sendingToken => 2
  | .waitClientPacketDone => 3
  | .queryAddress => 4
  | .waitAddressReply => 5

def roots : List StateId :=
  [.idle, .startMaster, .sendingToken, .waitClientPacketDone, .queryAddress, .waitAddressReply]

def ofInt (id : Int) : StateId := (roots.find? (·.toInt = id)).getD .idle

@[simp] theorem ofInt_toInt (s : StateId) : ofInt s.toInt = s := by cases s <;> rfl

theorem toInt_injective {s t : StateId} (same : s.toInt = t.toInt) : s = t := by
  rw [← ofInt_toInt s, same, ofInt_toInt]

end StateId

namespace Master

open StateChart (FsmBase Exec Program Behaviour Queues)

/-! The state machine of the master as the states that are registered with the state chart -/

def stateInfo (size : StateId → Nat) (s : StateId) : StateInfo := ⟨s.toInt, s.toInt, 0, size s⟩

/-- `size` is the size of the objects of each state class. -/
def fsmSetup (size : StateId → Nat) : FsmSetupBase := ⟨StateId.roots.map (stateInfo size), 0⟩

/-- The constructor of `MasterFSM` adds the states one after the other, each as a root. -/
theorem fsmSetup_eq (size : StateId → Nat) :
    StateId.roots.foldlM (fun setup s => setup.addStateBase s.toInt s.toInt (size s)) FsmSetupBase.make =
      some (fsmSetup size) := rfl

theorem fsmSetup_findState (size : StateId → Nat) (s : StateId) :
    (fsmSetup size).findState s.toInt = some (stateInfo size s) := by cases s <;> rfl

/-- The data of the objects that the states work on; an assertion may have stopped the
program. -/
abbrev Data := Except Fault Master

/-- The state, the transition asked for and the event queue are those of the state chart. -/
def bare (m : Master) : Master :=
  { m with m_fsm := { m.m_fsm with m_state := .idle, m_nextState := none, m_eventQueue := [] } }

def posting {α : Type} : List Event → Data → (Data → Program Data Event α) → Program Data Event α
  | [], d, rest => rest d
  | ev :: evs, d, rest => .postEvent d ev fun d' => posting evs d' rest

def leaving {α : Type} (value : α) : Option StateId → Data → Program Data Event α
  | none, d => .done d value
  | some s, d => .transition s.toInt (.done d value)

def posted : Data → List Event
  | .error _ => []
  | .ok m => m.m_fsm.m_eventQueue

def asked : Data → Option StateId
  | .error _ => none
  | .ok m => m.m_fsm.m_nextState

/-- Code of the master as the state chart runs it: it posts its events, asks for its
transition and goes on with its data. A program that has been stopped does nothing. -/
def program {α : Type} (value : α) (d : Data) : Program Data Event α :=
  posting (posted d) (d.map bare) (leaving value (asked d))

/-- What a state object finds. -/
def within (m : Master) (s : StateId) : Master := m.amid s [] []

def exits (s : StateId) (d : Data) : Data := d.bind fun m => (m.within s).exitState

def enters (s : StateId) (d : Data) : Data := d.map (·.enterState s)

def emits (rxInProgress : Bool) (s : StateId) (ev : Event) (d : Data) : Data :=
  d.bind fun m => (m.within s).emitEvent rxInProgress ev

/-- The six state classes. -/
def behaviour (rxInProgress : Bool) : Behaviour Data Event where
  construct id d := program () (enters (.ofInt id) d)
  destroy id d := program () (exits (.ofInt id) d)
  event id ev d := program (handles (.ofInt id) ev) (emits rxInProgress (.ofInt id) ev d)

/-- Code that is not run by a state. Each event it posts is processed before it goes on. -/
def perform (rxInProgress : Bool) (code : Master → Except Fault Master) (fuel : Nat) : Exec Data Event Unit := do
  let c ← get
  (program () (c.m_user.bind code)).run (StateChart.postEvent (behaviour rxInProgress) fuel)

/-- The end of the constructor of `Master`. -/
def boot (rxInProgress : Bool) (fuel : Nat) : Exec Data Event Unit := do
  StateChart.setStartState (behaviour rxInProgress) StateId.idle.toInt fuel
  perform rxInProgress checkNewAction fuel

/-- No state object has been made yet. -/
def made (size : StateId → Nat) (cfg : Config) (node : PacketTypeCodec) (uninitialised : Nat → UniqueId) (now : ℚ) :
    FsmBase Data Event :=
  let m := setup cfg node uninitialised now
  .make (fsmSetup size) (.ok { m.bare with m_fsm := { m.bare.m_fsm with m_object := 0 } })

def callback (rxInProgress : Bool) (now : ℚ) (s : Stimulus) (fuel : Nat) : Exec Data Event Unit :=
  perform rxInProgress (·.stimulate now s) fuel

/-- Without a bound on the rounds of the loops the code comes to its end here. -/
def Ends (x : Nat → Exec Data Event Unit) (c c' : FsmBase Data Event) : Prop :=
  ∃ enough, ∀ fuel, enough ≤ fuel → x fuel c = .ok () c'

theorem Ends.unique {x : Nat → Exec Data Event Unit} {c c₁ c₂ : FsmBase Data Event} (first : Ends x c c₁)
    (second : Ends x c c₂) : c₁ = c₂ := by
  obtain ⟨n₁, run₁⟩ := first
  obtain ⟨n₂, run₂⟩ := second
  have same := (run₁ (max n₁ n₂) (le_max_left _ _)).symm.trans (run₂ (max n₁ n₂) (le_max_right _ _))
  cases same
  rfl

/-! Code that runs while an event is processed -/

def asking (c : FsmBase Data Event) : Option StateId → FsmBase Data Event
  | none => c
  | some s => c.transition s.toInt

/-- What is left when the code has run: its data, its events and its request. -/
def absorb (d : Data) (c : FsmBase Data Event) : FsmBase Data Event :=
  asking ((posted d).foldl FsmBase.push { c with m_user := d.map bare }) (asked d)

theorem posting_run {α : Type} {post : Event → Exec Data Event Unit} (queues : Queues post) (value : α)
    (next : Option StateId) (d : Data) (evs : List Event) {c : FsmBase Data Event}
    (busy : c.m_eventQueue.empty = false) :
    (posting evs d (leaving value next)).run post c =
      .ok value (asking (evs.foldl FsmBase.push { c with m_user := d }) next) := by
  induction evs generalizing c with
  | nil => cases next <;> rfl
  | cons ev evs ih =>
    have queued : post ev { c with m_user := d } = .ok () (FsmBase.push { c with m_user := d } ev) := queues _ ev busy
    refine (EStateM.bind_of_ok queued).trans ?_
    exact ih (VecQueue.empty_push _ _)

theorem program_run {α : Type} {post : Event → Exec Data Event Unit} (queues : Queues post) (value : α) (d : Data)
    {c : FsmBase Data Event} (busy : c.m_eventQueue.empty = false) :
    (program value d).run post c = .ok value (absorb d c) :=
  posting_run queues value (asked d) (d.map bare) (posted d) busy

/-! Where the state chart stands -/

/-- The data, the events and the request the state chart has. -/
structure Carries (size : StateId → Nat) (c : FsmBase Data Event) (d : Data) (queue : List Event)
    (next : Option StateId) : Prop where
  setup : c.m_setup = fsmSetup size
  user : c.m_user = d
  queue : c.m_eventQueue.toList = queue
  update : c.m_stateUpdate = next.isSome
  next : ∀ s ∈ next, c.m_nextState = s.toInt

/-- One state object is there. -/
structure Stands (size : StateId → Nat) (c : FsmBase Data Event) (s : StateId) (d : Data) (queue : List Event)
    (next : Option StateId) : Prop extends Carries size c d queue next where
  frames : ∃ storage, c.m_stackFrames = [⟨some s.toInt, storage⟩]
  current : c.m_currentInfos = [stateInfo size s]

variable {size : StateId → Nat} {c : FsmBase Data Event} {d d' : Data} {queue : List Event} {s t : StateId}

theorem foldl_push_toList (evs : List Event) (c : FsmBase Data Event) :
    (evs.foldl FsmBase.push c).m_eventQueue.toList = c.m_eventQueue.toList ++ evs := by
  induction evs generalizing c with
  | nil => exact (List.append_nil _).symm
  | cons ev evs ih =>
    rw [List.foldl_cons, ih, FsmBase.push, FsmBase.log, VecQueue.toList_push, List.append_assoc]
    rfl

/-- Events that are posted go to the queue and to nothing else. -/
theorem foldl_push_keeps {β : Type} (field : FsmBase Data Event → β) (keeps : ∀ c ev, field (c.push ev) = field c)
    (evs : List Event) (c : FsmBase Data Event) : field (evs.foldl FsmBase.push c) = field c := by
  induction evs generalizing c with
  | nil => rfl
  | cons ev evs ih => rw [List.foldl_cons, ih, keeps]

theorem absorb_keeps {β : Type} (field : FsmBase Data Event → β) (push : ∀ c ev, field (c.push ev) = field c)
    (transition : ∀ c id, field (c.transition id) = field c) (user : ∀ c d, field { c with m_user := d } = field c)
    (d : Data) (c : FsmBase Data Event) : field (absorb d c) = field c := by
  have pushed := (foldl_push_keeps field push (posted d) { c with m_user := d.map bare }).trans (user c _)
  unfold absorb
  cases asked d with
  | none => exact pushed
  | some s => exact (transition _ _).trans pushed

theorem Carries.absorb (carries : Carries size c d queue none) (d' : Data) :
    Carries size (absorb d' c) (d'.map bare) (queue ++ posted d') (asked d') := by
  have setup := foldl_push_keeps FsmBase.m_setup (fun _ _ => rfl) (posted d') { c with m_user := d'.map bare }
  have events := foldl_push_toList (posted d') { c with m_user := d'.map bare }
  have user := foldl_push_keeps FsmBase.m_user (fun _ _ => rfl) (posted d') { c with m_user := d'.map bare }
  have update := foldl_push_keeps FsmBase.m_stateUpdate (fun _ _ => rfl) (posted d') { c with m_user := d'.map bare }
  have queue := events.trans (congrArg (· ++ posted d') carries.queue)
  unfold Master.absorb
  cases asked d' with
  | none => exact ⟨setup.trans carries.setup, user, queue, update.trans carries.update, by rintro _ ⟨⟩⟩
  | some s => exact ⟨setup.trans carries.setup, user, queue, rfl, by rintro _ ⟨⟩; rfl⟩

theorem absorb_frames (d : Data) (c : FsmBase Data Event) : (absorb d c).m_stackFrames = c.m_stackFrames :=
  absorb_keeps FsmBase.m_stackFrames (fun _ _ => rfl) (fun _ _ => rfl) (fun _ _ => rfl) d c

theorem absorb_current (d : Data) (c : FsmBase Data Event) : (absorb d c).m_currentInfos = c.m_currentInfos :=
  absorb_keeps FsmBase.m_currentInfos (fun _ _ => rfl) (fun _ _ => rfl) (fun _ _ => rfl) d c

theorem absorb_nextInfos (d : Data) (c : FsmBase Data Event) : (absorb d c).m_nextInfos = c.m_nextInfos :=
  absorb_keeps FsmBase.m_nextInfos (fun _ _ => rfl) (fun _ _ => rfl) (fun _ _ => rfl) d c

theorem Stands.absorb (stands : Stands size c s d queue none) (d' : Data) :
    Stands size (absorb d' c) s (d'.map bare) (queue ++ posted d') (asked d') := by
  refine ⟨stands.toCarries.absorb d', ?_, ?_⟩
  · rw [absorb_frames]
    exact stands.frames
  · rw [absorb_current]
    exact stands.current

/-! A transition -/

section Transition

variable {post : Event → Exec Data Event Unit} {rxInProgress : Bool}

theorem busy_of_queue (carries : Carries size c d queue next) (some : queue ≠ []) : c.m_eventQueue.empty = false := by
  rw [VecQueue.empty_eq, carries.queue, List.isEmpty_eq_false_iff]
  exact some

theorem destroyState_run (queues : Queues post) (busy : c.m_eventQueue.empty = false) (s : StateId) :
    StateChart.destroyState (behaviour rxInProgress) post s.toInt c =
      .ok () (absorb (exits s c.m_user) (c.log (.destroyed s.toInt))) := by
  change (program () (exits (.ofInt s.toInt) c.m_user)).run post (c.log (.destroyed s.toInt)) = _
  rw [StateId.ofInt_toInt]
  exact program_run queues () _ busy

/-- Code that posts nothing can also be run while no event is processed. -/
theorem m_maker_run (s : StateId) (quiet : posted (enters s c.m_user) = []) :
    StateChart.m_maker (behaviour rxInProgress) post s.toInt c =
      .ok () (absorb (enters s c.m_user) (c.log (.constructed s.toInt))) := by
  change (program () (enters (.ofInt s.toInt) c.m_user)).run post (c.log (.constructed s.toInt)) = _
  rw [StateId.ofInt_toInt, program, absorb, quiet]
  cases asked (enters s c.m_user) <;> rfl

theorem reportActionResult_next {m m' : Master} {rv : ReturnValue} (run : m.reportActionResult rv = .ok m') :
    m'.m_fsm.m_nextState = m.m_fsm.m_nextState := by
  cases posted : m.m_fsm.m_currentAction.m_reportCB with
  | false =>
    simp only [reportActionResult, posted] at run
    cases run
    rfl
  | true =>
    obtain ⟨dh, again, _, rfl⟩ := reportActionResult_ok posted run
    exact conclude_nextState m rv dh again

theorem exitState_next {m m' : Master} (run : m.exitState = .ok m') : m'.m_fsm.m_nextState = m.m_fsm.m_nextState := by
  unfold exitState at run
  split at run
  · cases run
    rfl
  · have next := reportActionResult_next run
    exact next
  · cases run
    rfl

theorem asked_bare (d : Data) : asked (d.map bare) = none := by cases d <;> rfl

theorem posted_bare (d : Data) : posted (d.map bare) = [] := by cases d <;> rfl

/-- No destructor asks for a transition. -/
theorem asked_exits (s : StateId) (d : Data) (settled : asked d = none) : asked (exits s d) = none := by
  cases d with
  | error fault => rfl
  | ok m =>
    cases run : (m.within s).exitState with
    | error fault =>
      change asked (m.within s).exitState = none
      rw [run]
      rfl
    | ok m' =>
      change asked (m.within s).exitState = none
      rw [run]
      exact (exitState_next run).trans settled

theorem enterState_next (m : Master) (s : StateId) : (m.enterState s).m_fsm.m_nextState = m.m_fsm.m_nextState := by
  cases s <;> rfl

theorem enterState_eventQueue (m : Master) (s : StateId) :
    (m.enterState s).m_fsm.m_eventQueue = m.m_fsm.m_eventQueue := by
  cases s <;> rfl

theorem posted_enters (s : StateId) (d : Data) : posted (enters s d) = posted d := by
  cases d with
  | error fault => rfl
  | ok m => exact enterState_eventQueue m s

theorem asked_enters (s : StateId) (d : Data) : asked (enters s d) = asked d := by
  cases d with
  | error fault => rfl
  | ok m => exact enterState_next m s

/-- No state object is there. -/
structure Empty (size : StateId → Nat) (c : FsmBase Data Event) (d : Data) (queue : List Event) : Prop
    extends Carries size c d queue none where
  frames : ∃ storage, c.m_stackFrames = [⟨none, storage⟩]
  current : c.m_currentInfos = []

theorem doExit_run (rxInProgress : Bool) (busy : queue ≠ []) (stands : Stands size c s d queue none)
    (settled : asked d = none) :
    ∃ c', (∀ post, Queues post → ∀ fuel, StateChart.doExit (behaviour rxInProgress) post 0 (fuel + 2) c = .ok () c') ∧
      Empty size c' ((exits s d).map bare) (queue ++ posted (exits s d)) ∧ c'.m_nextInfos = c.m_nextInfos := by
  obtain ⟨storage, frames⟩ := stands.frames
  have current := stands.current
  let gone : FsmBase Data Event := FsmBase.log { c with m_stackFrames := [⟨none, storage⟩] } (.destroyed s.toInt)
  have carries : Carries size gone d queue none :=
    ⟨stands.setup, stands.user, stands.queue, stands.update, stands.next⟩
  have after := carries.absorb (exits s d)
  rw [asked_exits s d settled] at after
  refine ⟨{ absorb (exits s d) gone with m_currentInfos := [] }, ?_, ⟨?_, ⟨storage, ?_⟩, rfl⟩, ?_⟩
  · intro post queues fuel
    have busy' : c.m_eventQueue.empty = false := busy_of_queue stands.toCarries busy
    have destroyed : StateChart.destroyState (behaviour rxInProgress) post s.toInt
        { c with m_stackFrames := [⟨none, storage⟩] } = .ok () (absorb (exits s d) gone) := by
      rw [← stands.user]
      exact destroyState_run (c := { c with m_stackFrames := [⟨none, storage⟩] }) queues busy' s
    have reset : StateChart.reset (behaviour rxInProgress) post 0 none c = .ok () (absorb (exits s d) gone) := by
      rw [StateChart.reset, EStateM.get_bind, frames]
      exact destroyed
    rw [StateChart.doExit, EStateM.get_bind, current]
    refine (EStateM.bind_of_ok reset).trans ?_
    have last : (absorb (exits s d) gone).m_currentInfos.dropLast = [] := by
      rw [absorb_current]
      exact congrArg List.dropLast current
    change StateChart.doExit (behaviour rxInProgress) post 0 (fuel + 1)
      { absorb (exits s d) gone with m_currentInfos := (absorb (exits s d) gone).m_currentInfos.dropLast } = _
    rw [last]
    rfl
  · exact ⟨after.setup, after.user, after.queue, after.update, after.next⟩
  · exact absorb_frames _ _
  · exact absorb_nextInfos _ _

/-- The level grows to the size of the state before it is made. -/
theorem enterLevel_eq {b : Behaviour Data Event} {storage : Nat} {i : StateInfo}
    (frames : c.m_stackFrames = [⟨none, storage⟩]) (current : c.m_currentInfos = []) (next : c.m_nextInfos = [some i]) :
    StateChart.enterLevel b post 0 c =
      (do StateChart.m_maker b post i.m_id; StateChart.reset b post 0 (some i.m_id)) { c with
        m_stackFrames := [⟨none, if storage < i.m_stateSize then i.m_stateSize else storage⟩]
        m_currentInfos := [i] } := by
  obtain ⟨_, _, _, _, _, _, _, _, _⟩ := c
  subst frames current next
  rfl

theorem doEntry_run (rxInProgress : Bool) (t : StateId) (empty : Empty size c d queue) (settled : asked d = none)
    (quiet : posted d = []) (next : c.m_nextInfos = [some (stateInfo size t)]) :
    ∃ c', (∀ post fuel, StateChart.doEntry (behaviour rxInProgress) post (fuel + 2) c = .ok () c') ∧
      Stands size c' t ((enters t d).map bare) queue none := by
  obtain ⟨storage, frames⟩ := empty.frames
  let storage' := if storage < size t then size t else storage
  let making : FsmBase Data Event := { c with
    m_stackFrames := [⟨none, storage'⟩]
    m_currentInfos := [stateInfo size t] }
  let fresh : FsmBase Data Event := making.log (.constructed t.toInt)
  have carries : Carries size fresh d queue none :=
    ⟨empty.setup, empty.user, empty.queue, empty.update, empty.next⟩
  have after := carries.absorb (enters t d)
  rw [asked_enters, settled, posted_enters, quiet, List.append_nil] at after
  refine ⟨{ absorb (enters t d) fresh with m_stackFrames := [⟨some t.toInt, storage'⟩] }, ?_, ?_, ⟨storage', rfl⟩, ?_⟩
  · intro post fuel
    have constructed : StateChart.m_maker (behaviour rxInProgress) post t.toInt making =
        .ok () (absorb (enters t d) fresh) := by
      rw [← empty.user] at quiet ⊢
      exact m_maker_run (c := making) t ((posted_enters t _).trans quiet)
    have still : (absorb (enters t d) fresh).m_stackFrames = [⟨none, storage'⟩] := absorb_frames _ _
    have placed : StateChart.reset (behaviour rxInProgress) post 0 (some t.toInt) (absorb (enters t d) fresh) =
        .ok () { absorb (enters t d) fresh with m_stackFrames := [⟨some t.toInt, storage'⟩] } := by
      rw [StateChart.reset, EStateM.get_bind, still]
      rfl
    have level : StateChart.enterLevel (behaviour rxInProgress) post 0 c =
        .ok () { absorb (enters t d) fresh with m_stackFrames := [⟨some t.toInt, storage'⟩] } := by
      rw [enterLevel_eq frames empty.current next]
      exact (EStateM.bind_of_ok constructed).trans placed
    have one : (absorb (enters t d) fresh).m_currentInfos = [stateInfo size t] := absorb_current _ _
    rw [StateChart.doEntry, EStateM.get_bind, next, StateChart.enterLevels, EStateM.get_bind, empty.current]
    refine (EStateM.bind_of_ok level).trans ?_
    rw [StateChart.enterLevels, EStateM.get_bind, one]
    rfl
  · exact ⟨after.setup, after.user, after.queue, after.update, after.next⟩
  · exact absorb_current _ _

theorem populateNextInfos_run (t : StateId) (fuel : Nat) (c : FsmBase Data Event) :
    StateChart.populateNextInfos (stateInfo size t) (fuel + 1) c =
      .ok () { c with m_nextInfos := [some (stateInfo size t)] } := by
  obtain ⟨info, one⟩ := List.length_eq_one_iff.mp (StateChart.length_resize c.m_nextInfos 1 none)
  change (do StateChart.setNextInfo (stateInfo size t); StateChart.setParentInfos (fuel + 1) (stateInfo size t))
    { c with m_nextInfos := StateChart.resize c.m_nextInfos 1 none } = _
  rw [one]
  rfl

theorem bottomLevel_eq (current : c.m_currentInfos = [stateInfo size s])
    (next : c.m_nextInfos = [some (stateInfo size t)]) : StateChart.bottomLevel c = 0 := by
  unfold StateChart.bottomLevel StateChart.findFirstThatDiffer
  rw [current, next]
  by_cases same : s = t
  · subst same
    exact if_pos rfl
  · have other : ¬ some (stateInfo size t) = some (stateInfo size s) := by
      intro equal
      exact same (StateId.toInt_injective (congrArg StateInfo.m_id (Option.some.inj equal))).symm
    have last : ¬ [some (stateInfo size t)].getLast? = some (some (stateInfo size s)) := fun equal =>
      other (Option.some.inj equal)
    rw [List.getLast?_singleton]
    exact (if_neg last).trans (if_neg (Ne.symm other))

theorem doTransition_run (rxInProgress : Bool) (t : StateId) (busy : queue ≠ []) (stands : Stands size c s d queue none)
    (settled : asked d = none) :
    ∃ c', (∀ post, Queues post → ∀ fuel,
        StateChart.doTransition (behaviour rxInProgress) post (stateInfo size t) (fuel + 2) c = .ok () c') ∧
      Stands size c' t ((enters t ((exits s d).map bare)).map bare) (queue ++ posted (exits s d)) none := by
  let start : FsmBase Data Event := { c.log (.transits c.leaf t.toInt) with m_nextInfos := [some (stateInfo size t)] }
  have stands₁ : Stands size start s d queue none :=
    ⟨⟨stands.setup, stands.user, stands.queue, stands.update, stands.next⟩, stands.frames, stands.current⟩
  obtain ⟨c₁, exit, empty, same⟩ := doExit_run rxInProgress busy stands₁ settled
  obtain ⟨c₂, entry, stands₂⟩ :=
    doEntry_run rxInProgress t empty (asked_bare _) (posted_bare _) same
  refine ⟨c₂.log (.performed c.leaf t.toInt), ?_, ?_⟩
  · intro post queues fuel
    rw [StateChart.doTransition, EStateM.get_bind, EStateM.set_bind]
    refine (EStateM.bind_of_ok (populateNextInfos_run t (fuel + 1) _)).trans ?_
    rw [EStateM.get_bind]
    have bottom : StateChart.bottomLevel start = 0 := bottomLevel_eq stands.current rfl
    change (do
      StateChart.doExit (behaviour rxInProgress) post (StateChart.bottomLevel start) (fuel + 2)
      StateChart.doEntry (behaviour rxInProgress) post (fuel + 2)
      modify fun c' : FsmBase Data Event => c'.log (.performed c.leaf t.toInt)) start = _
    rw [bottom]
    refine (EStateM.bind_of_ok (exit post queues fuel)).trans ?_
    refine (EStateM.bind_of_ok (entry post fuel)).trans ?_
    rfl
  · exact ⟨⟨stands₂.setup, stands₂.user, stands₂.queue, stands₂.update, stands₂.next⟩, stands₂.frames, stands₂.current⟩

theorem prepareTransition_still (rxInProgress : Bool) (stands : Stands size c s d queue none) :
    ∃ c', (∀ post fuel, StateChart.prepareTransition (behaviour rxInProgress) post (fuel + 1) c = .ok () c') ∧
      Stands size c' s d queue none := by
  refine ⟨c.log (.returns c.m_currentInfos (c.m_stackFrames.map (·.m_activeState.isSome))), ?_,
    ⟨⟨stands.setup, stands.user, stands.queue, stands.update, stands.next⟩, stands.frames, stands.current⟩⟩
  intro post fuel
  rw [StateChart.prepareTransition, EStateM.get_bind, stands.update]
  rfl

/-- The chart after `prepareTransition`. -/
def settles (s : StateId) (d : Data) : Option StateId → StateId × Data × List Event
  | none => (s, d, [])
  | some t => (t, (enters t ((exits s d).map bare)).map bare, posted (exits s d))

theorem prepareTransition_run (rxInProgress : Bool) (busy : queue ≠ []) {next : Option StateId}
    (stands : Stands size c s d queue next) (settled : asked d = none) :
    ∃ c', (∀ post, Queues post → ∀ fuel,
        StateChart.prepareTransition (behaviour rxInProgress) post (fuel + 3) c = .ok () c') ∧
      Stands size c' (settles s d next).1 (settles s d next).2.1 (queue ++ (settles s d next).2.2) none := by
  cases next with
  | none =>
    obtain ⟨c', run, stands'⟩ := prepareTransition_still rxInProgress stands
    refine ⟨c', fun post _ fuel => run post (fuel + 2), ?_⟩
    simpa [settles] using stands'
  | some t =>
    have target : c.m_nextState = t.toInt := stands.next t rfl
    have stands₁ : Stands size { c with m_stateUpdate := false } s d queue none :=
      ⟨⟨stands.setup, stands.user, stands.queue, rfl, by rintro _ ⟨⟩⟩, stands.frames, stands.current⟩
    obtain ⟨c₁, transition, stands₂⟩ := doTransition_run rxInProgress t busy stands₁ settled
    obtain ⟨c', again, stands'⟩ := prepareTransition_still rxInProgress stands₂
    refine ⟨c', ?_, stands'⟩
    intro post queues fuel
    rw [StateChart.prepareTransition, EStateM.get_bind, stands.update]
    simp only [stands.setup, target, fsmSetup_findState]
    refine Eq.trans ?_ (EStateM.bind_of_ok (f := fun _ => StateChart.prepareTransition _ post (fuel + 2))
      (transition post queues fuel) |>.trans (again post (fuel + 1)))
    rw [← target, ← stands.setup]
    rfl

/-! The start state -/

theorem setStartState_run (size : StateId → Nat) (rxInProgress : Bool) (s : StateId) (settled : asked d = none)
    (quiet : posted d = []) :
    ∃ c, (∀ fuel, StateChart.setStartState (behaviour rxInProgress) s.toInt (fuel + 3)
        (FsmBase.make (fsmSetup size) d) = .ok () c) ∧
      Stands size c s ((enters s d).map bare) [] none := by
  let bottom : FsmBase Data Event :=
    { FsmBase.make (fsmSetup size) d with m_stackFrames := [⟨none, 0⟩] }.transition s.toInt
  let start : FsmBase Data Event :=
    { { bottom with m_stateUpdate := false }.log (.transits none s.toInt) with
      m_nextInfos := [some (stateInfo size s)] }
  have empty : Empty size start d [] := ⟨⟨rfl, rfl, rfl, rfl, by rintro _ ⟨⟩⟩, ⟨0, rfl⟩, rfl⟩
  obtain ⟨c₁, entry, stands₁⟩ := doEntry_run rxInProgress s empty settled quiet rfl
  have stands₂ : Stands size (c₁.log (.performed none s.toInt)) s ((enters s d).map bare) [] none :=
    ⟨⟨stands₁.setup, stands₁.user, stands₁.queue, stands₁.update, stands₁.next⟩, stands₁.frames, stands₁.current⟩
  obtain ⟨c, returns, stands⟩ := prepareTransition_still rxInProgress stands₂
  refine ⟨c, ?_, stands⟩
  intro fuel
  let post := StateChart.postEvent (behaviour rxInProgress) (fuel + 4)
  have transition : StateChart.doTransition (behaviour rxInProgress) post (stateInfo size s) (fuel + 2)
      { bottom with m_stateUpdate := false } = .ok () (c₁.log (.performed none s.toInt)) := by
    rw [StateChart.doTransition, EStateM.get_bind, EStateM.set_bind]
    refine (EStateM.bind_of_ok (populateNextInfos_run s (fuel + 1) _)).trans ?_
    exact EStateM.bind_of_ok (entry post fuel)
  change StateChart.prepareTransition (behaviour rxInProgress) post (fuel + 3) bottom = _
  rw [StateChart.prepareTransition, EStateM.get_bind]
  have found : bottom.m_setup.findState bottom.m_nextState = some (stateInfo size s) := fsmSetup_findState size s
  simp only [found]
  exact (EStateM.bind_of_ok transition).trans (returns post (fuel + 1))

/-! An event -/

theorem emitEvents_run (rxInProgress : Bool) (busy : queue ≠ []) (stands : Stands size c s d queue none) (ev : Event) :
    ∃ c', (∀ post, Queues post → StateChart.emitEvents (behaviour rxInProgress) post ev 1 c = .ok () c') ∧
      Stands size c' s ((emits rxInProgress s ev d).map bare) (queue ++ posted (emits rxInProgress s ev d))
        (asked (emits rxInProgress s ev d)) := by
  obtain ⟨storage, frames⟩ := stands.frames
  have after := stands.absorb (emits rxInProgress s ev d)
  refine ⟨(absorb (emits rxInProgress s ev d) c).log (.emitted s.toInt (handles s ev)), ?_,
    ⟨⟨after.setup, after.user, after.queue, after.update, after.next⟩, after.frames, after.current⟩⟩
  intro post queues
  have handler : ((behaviour rxInProgress).event s.toInt ev c.m_user).run post c =
      .ok (handles s ev) (absorb (emits rxInProgress s ev d) c) := by
    change (program (handles (.ofInt s.toInt) ev) (emits rxInProgress (.ofInt s.toInt) ev c.m_user)).run post c = _
    rw [StateId.ofInt_toInt, stands.user]
    exact program_run queues _ _ (busy_of_queue stands.toCarries busy)
  have emit : StateChart.emitEvent (behaviour rxInProgress) post (some s.toInt) ev c =
      .ok (handles s ev) ((absorb (emits rxInProgress s ev d) c).log (.emitted s.toInt (handles s ev))) :=
    EStateM.bind_of_ok handler
  rw [StateChart.emitEvents, EStateM.get_bind, frames]
  refine (EStateM.bind_of_ok emit).trans ?_
  cases handles s ev <;> rfl

/-- The chart after an event: its state, its data and what has been posted. -/
def answers (rxInProgress : Bool) (s : StateId) (ev : Event) (d : Data) : StateId × Data × List Event :=
  let emitted := emits rxInProgress s ev d
  let settled := settles s (emitted.map bare) (asked emitted)
  (settled.1, settled.2.1, posted emitted ++ settled.2.2)

/-- One round of the loop of `postEvent`. -/
theorem processEvents_round (rxInProgress : Bool) {ev : Event} {rest : List Event}
    (stands : Stands size c s d (ev :: rest) none) :
    ∃ c', (∀ post, Queues post → ∀ fuel,
        StateChart.processEvents (behaviour rxInProgress) post (fuel + 4) c =
          StateChart.processEvents (behaviour rxInProgress) post (fuel + 3) c') ∧
      Stands size c' (answers rxInProgress s ev d).1 (answers rxInProgress s ev d).2.1
        (rest ++ (answers rxInProgress s ev d).2.2) none := by
  have busy : ev :: rest ≠ [] := List.cons_ne_nil _ _
  have waiting : c.m_eventQueue.empty = false := busy_of_queue stands.toCarries busy
  have front : c.m_eventQueue.front = some ev := by rw [VecQueue.front_eq, stands.queue]; rfl
  have stands₁ : Stands size (c.log (.begins ev)) s d (ev :: rest) none :=
    ⟨⟨stands.setup, stands.user, stands.queue, stands.update, stands.next⟩, stands.frames, stands.current⟩
  obtain ⟨c₂, emit, stands₂⟩ := emitEvents_run rxInProgress busy stands₁ ev
  have busy₂ : ev :: rest ++ posted (emits rxInProgress s ev d) ≠ [] := List.append_ne_nil_of_left_ne_nil busy _
  obtain ⟨c₃, prepare, stands₃⟩ :=
    prepareTransition_run rxInProgress busy₂ stands₂ (asked_bare _)
  have waiting₃ : c₃.m_eventQueue.empty = false :=
    busy_of_queue stands₃.toCarries (List.append_ne_nil_of_left_ne_nil busy₂ _)
  refine ⟨{ c₃ with m_eventQueue := c₃.m_eventQueue.pop waiting₃ }.log (.ends ev), ?_, ?_⟩
  · intro post queues fuel
    have process : StateChart.processEvent (behaviour rxInProgress) post ev (fuel + 3) (c.log (.begins ev)) =
        .ok () c₃ := by
      rw [StateChart.processEvent, EStateM.get_bind, stands₁.current]
      exact (EStateM.bind_of_ok (emit post queues)).trans (prepare post queues fuel)
    rw [StateChart.processEvents, EStateM.get_bind, waiting]
    simp only [front]
    refine (EStateM.bind_of_ok process).trans ?_
    exact EStateM.bind_of_ok (StateChart.popEvent_eq ev waiting₃)
  · refine ⟨⟨stands₃.setup, stands₃.user, ?_, stands₃.update, stands₃.next⟩, stands₃.frames, stands₃.current⟩
    change (c₃.m_eventQueue.pop waiting₃).toList = _
    rw [VecQueue.toList_pop, stands₃.queue, answers, List.append_assoc]
    rfl

end Transition

end Master

end SerialNet
