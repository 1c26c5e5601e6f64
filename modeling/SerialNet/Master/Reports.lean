import SerialNet.Master.Phases

namespace SerialNet.Master

/-- The actions reported so far, by their numbers. -/
def reported (m : Master) : List Nat := m.m_log.reports.map Prod.fst

/-- Actions are reported in the order they were started in, each once. Only the
one in progress is missing. -/
structure Accounted (m : Master) : Prop where
  active : m.actionActive = true →
    m.m_log.started = m.m_log.ticket + 1 ∧ m.reported = List.range m.m_log.ticket
  inactive : m.actionActive = false → m.reported = List.range m.m_log.started

namespace Accounted

variable {m m' : Master}

theorem congr (accounted : Accounted m) (log : m'.m_log = m.m_log)
    (action : m'.m_fsm.m_currentAction = m.m_fsm.m_currentAction) : Accounted m' := by
  have same : m'.actionActive = m.actionActive := by rw [actionActive, action, actionActive]
  refine ⟨?_, ?_⟩
  · rw [same, reported, log]
    exact accounted.active
  · rw [same, reported, log]
    exact accounted.inactive

theorem actionActive_of_posted {m : Master} (posted : Posted m.m_fsm.m_currentAction) : m.actionActive = true :=
  decide_eq_true posted.2

/-- The next action takes the next number. -/
theorem startNext (accounted : Accounted m) (inactive : m.actionActive = false)
    (posted : ∀ a ∈ m.queued, Posted a) : Accounted m.startNext := by
  have all := accounted.inactive inactive
  rcases m.startNext_cases with ⟨front, _, fsm, log, rest⟩ | ⟨_, fsm, log, _⟩
  · have frontPosted := posted front (rest ▸ List.mem_cons_self)
    have busy : m.startNext.actionActive = true := by
      apply actionActive_of_posted
      rw [fsm]
      exact frontPosted
    refine ⟨fun _ => ?_, fun idle => ?_⟩
    · rw [reported, log]
      exact ⟨rfl, all⟩
    · rw [busy] at idle
      cases idle
  · exact accounted.congr log (by rw [fsm])

/-- The action in progress is the one that is reported. -/
theorem conclude (accounted : Accounted m) (synced : Synced m) (posted : Posted m.m_fsm.m_currentAction)
    (rv : ReturnValue) (dh : DynamicHandler) (again : Option ℚ) :
    Accounted (m.consume.conclude rv dh again) := by
  obtain ⟨number, before⟩ := accounted.active (actionActive_of_posted posted)
  have all : (m.m_log.reports ++ [(m.m_log.ticket, rv)]).map Prod.fst = List.range m.m_log.started := by
    rw [List.map_append, number, List.range_succ]
    exact congrArg (· ++ [m.m_log.ticket]) before
  obtain ⟨later, perm, ⟨front, _, fsm, log, rest⟩ | ⟨_, fsm, log, _⟩⟩ := m.consume.conclude_cases rv dh again
  · have frontPosted := synced.posted_later perm front (by simp [rest])
    have busy : (m.consume.conclude rv dh again).actionActive = true := by
      apply actionActive_of_posted
      rw [fsm]
      exact frontPosted
    refine ⟨fun _ => ?_, fun idle => ?_⟩
    · rw [reported, log]
      exact ⟨rfl, all⟩
    · rw [busy] at idle
      cases idle
  · have nothing : (m.consume.conclude rv dh again).actionActive = false := by
      rw [actionActive, fsm]
      rfl
    refine ⟨fun busy => ?_, fun _ => ?_⟩
    · rw [nothing] at busy
      cases busy
    · rw [reported, log]
      exact all

theorem turn (accounted : Accounted m) (synced : Synced m) {rxInProgress : Bool} {ev : Event}
    (queue : m.m_fsm.m_eventQueue = [ev]) (taken : TurnCase m rxInProgress ev m') : Accounted m' := by
  cases taken with
  | ignored _ => exact accounted.congr rfl rfl
  | ownIdle state action _ _ =>
    exact accounted.conclude synced (synced.posted_of_handles queue (by rw [state]; rfl)) _ _ _
  | ownSends => exact accounted.congr (by simp) (by simp)
  | grants => exact accounted.congr (by simp) (by simp)
  | queries => exact accounted.congr (by simp) (by simp)
  | starts => exact accounted.congr (by simp) (by simp)
  | grantSeen => exact accounted.congr (by simp) (by simp)
  | grantLost => exact accounted.congr (by simp) (by simp)
  | requested => exact accounted.congr (by simp) (by simp)
  | rearmed _ => exact accounted.congr rfl rfl
  | @reported ev rv dh again result _ =>
    have busy : m.m_fsm.m_state ≠ .idle := by
      intro idle
      rw [idle] at result
      cases result
    have concluded := accounted.conclude synced (synced.posted busy) rv dh again
    exact concluded.congr (by simp) (by simp)

theorem stimulus (accounted : Accounted m) (synced : Synced m) {now : ℚ} {s : Stimulus}
    (taken : StimulusCase m now s m') : Accounted m' := by
  cases taken with
  | packet _ => exact accounted.congr rfl rfl
  | sendPacket => exact accounted.congr rfl rfl
  | sendMacUpdate => exact accounted.congr rfl rfl
  | timer => exact accounted.congr rfl rfl
  | delayBusy _ => exact accounted.congr rfl rfl
  | delayIdle nothing =>
    have inactive : m.actionActive = false := by
      rw [synced.sameAction] at nothing
      simpa [actionActive, Action.doNothing] using nothing
    refine startNext (accounted.congr rfl rfl) inactive synced.queuedPosted
  | discovery => exact accounted.congr rfl rfl
  | reordered _ => exact accounted.congr rfl rfl

end Accounted

/-- In idle there is nothing in progress, or it is about to be looked at. -/
def NotResting (m : Master) : Prop :=
  m.m_fsm.m_state = .idle → m.actionActive = true → .check_new_command ∈ m.m_fsm.m_eventQueue

/-- The processing of a timeout while the state machine waits to see its own
token grant on the bus. -/
def LosesGrant (m : Master) : Label → Prop
  | .turn _ => m.m_fsm.m_state = .sendingToken ∧ m.m_fsm.m_eventQueue.head? = some .timer_timeout
  | .stimulus .. => False

instance (m : Master) (l : Label) : Decidable (LosesGrant m l) :=
  match l with
  | .turn _ => inferInstanceAs (Decidable (_ ∧ _))
  | .stimulus .. => inferInstanceAs (Decidable False)

namespace NotResting

variable {m m' : Master}

theorem of_conclude {rv : ReturnValue} {dh : DynamicHandler} {again : Option ℚ}
    (action : m'.m_fsm.m_currentAction = (m.consume.conclude rv dh again).m_fsm.m_currentAction)
    (events : m'.m_fsm.m_eventQueue = (m.consume.conclude rv dh again).m_fsm.m_eventQueue) : NotResting m' := by
  intro _ active
  obtain ⟨_, _, ⟨front, _, fsm, _, _⟩ | ⟨_, fsm, _, _⟩⟩ := m.consume.conclude_cases rv dh again
  · rw [events, fsm]
    simp
  · rw [actionActive, action, fsm] at active
    cases active

/-- Where nothing but the event in the queue changes, it was no check. -/
theorem of_unhandled (notResting : NotResting m) {ev : Event} (queue : m.m_fsm.m_eventQueue = [ev])
    (noCheck : m.m_fsm.m_state = .idle → ev ≠ .check_new_command) (state : m'.m_fsm.m_state = m.m_fsm.m_state)
    (action : m'.m_fsm.m_currentAction = m.m_fsm.m_currentAction) : NotResting m' := by
  intro idle active
  rw [state] at idle
  rw [actionActive, action] at active
  have check := notResting idle active
  rw [queue, List.mem_singleton] at check
  exact absurd check.symm (noCheck idle)

theorem turn (notResting : NotResting m) {rxInProgress : Bool} {ev : Event}
    (queue : m.m_fsm.m_eventQueue = [ev]) (kept : ¬ LosesGrant m (.turn rxInProgress))
    (taken : TurnCase m rxInProgress ev m') : NotResting m' := by
  have busy : ∀ {m₁ : Master} {s : StateId}, s ≠ .idle → NotResting (m₁.goto s) := by
    intro m₁ s other idle
    rw [goto_state] at idle
    exact absurd idle other
  cases taken with
  | ignored unhandled =>
    refine notResting.of_unhandled queue ?_ rfl rfl
    intro idle check
    rw [idle, check] at unhandled
    cases unhandled
  | ownIdle => exact of_conclude rfl rfl
  | ownSends => exact busy (by simp)
  | grants => exact busy (by simp)
  | queries => exact busy (by simp)
  | starts => exact busy (by simp)
  | grantSeen => exact busy (by simp)
  | grantLost state => exact absurd ⟨state, by rw [queue]; rfl⟩ kept
  | requested => exact busy (by simp)
  | rearmed _ => exact notResting.of_unhandled queue (fun _ => (by rintro ⟨⟩)) rfl rfl
  | reported => exact of_conclude (goto_currentAction _ _) (goto_eventQueue _ _)

theorem stimulus (notResting : NotResting m) {now : ℚ} {s : Stimulus} (queue : m.m_fsm.m_eventQueue = [])
    (taken : StimulusCase m now s m') : NotResting m' := by
  have inactive : m.m_fsm.m_state = .idle → m.actionActive = false := by
    intro idle
    by_contra active
    have check := notResting idle (Bool.eq_true_of_not_eq_false active)
    rw [queue] at check
    cases check
  have unchanged : ∀ {m₁ : Master}, m₁.m_fsm.m_state = m.m_fsm.m_state →
      m₁.m_fsm.m_currentAction = m.m_fsm.m_currentAction → NotResting m₁ := by
    intro m₁ state action idle active
    rw [actionActive, action, ← actionActive, inactive (state ▸ idle)] at active
    cases active
  cases taken with
  | packet _ => exact unchanged rfl rfl
  | sendPacket => exact unchanged rfl rfl
  | sendMacUpdate => exact unchanged rfl rfl
  | timer => exact unchanged rfl rfl
  | delayBusy _ => exact unchanged rfl rfl
  | @delayIdle timeout _ =>
    rcases startNext_cases { m.wake now with m_actionHandler := { m.m_actionHandler with
      m_delayAction := m.m_actionHandler.m_delayAction.expire timeout } } with
      ⟨front, _, fsm, _, _⟩ | ⟨_, fsm, _, _⟩
    · intro _ _
      rw [fsm]
      simp
    · exact unchanged (by rw [fsm]; rfl) (by rw [fsm]; rfl)
  | discovery => exact unchanged rfl rfl
  | reordered _ => exact unchanged rfl rfl

end NotResting

section Runs

variable {cfg : Config} {node : PacketTypeCodec} {uninitialised : Nat → UniqueId} {now : ℚ} {m : Master}

theorem Reach.accounted {allowed : Master → Label → Prop} (reach : Reach allowed cfg node uninitialised now m) :
    Accounted m := by
  refine reach.invariant ⟨fun _ => ⟨rfl, rfl⟩, by rintro ⟨⟩⟩ ?_
  intro m m' l synced accounted _ step
  rcases synced.step_cases step with ⟨_, _, _, queue, taken⟩ | ⟨_, _, _, queue, _, _, taken⟩
  · exact accounted.turn synced queue taken
  · exact accounted.stimulus synced taken

theorem Reach.notResting {allowed : Master → Label → Prop} (kept : ∀ m l, allowed m l → ¬ LosesGrant m l)
    (reach : Reach allowed cfg node uninitialised now m) : NotResting m := by
  refine reach.invariant (fun _ _ => List.mem_singleton_self _) ?_
  intro m m' l synced notResting ok step
  rcases synced.step_cases step with ⟨_, _, rfl, queue, taken⟩ | ⟨_, _, _, queue, _, _, taken⟩
  · exact notResting.turn queue (kept _ _ ok) taken
  · exact notResting.stimulus queue taken

/-- No action is reported twice, and none that was not started. -/
theorem Reach.reported_once {allowed : Master → Label → Prop} (reach : Reach allowed cfg node uninitialised now m) :
    m.reported.Nodup ∧ ∀ k ∈ m.reported, k < m.m_log.started := by
  have accounted := reach.accounted
  cases active : m.actionActive with
  | true =>
    obtain ⟨number, all⟩ := accounted.active active
    rw [all]
    refine ⟨List.nodup_range, fun k member => ?_⟩
    have below := List.mem_range.mp member
    omega
  | false =>
    rw [accounted.inactive active]
    exact ⟨List.nodup_range, fun k member => List.mem_range.mp member⟩

end Runs

/-- As long as the master sees its token grants on the bus in time, every action it
starts is reported exactly once by the time it rests in idle. -/
theorem reported_exactly_once (cfg : Config) (node : PacketTypeCodec) (uninitialised : Nat → UniqueId) (now : ℚ)
    {m : Master} (reach : Reach (fun m l => ¬ LosesGrant m l) cfg node uninitialised now m) :
    m.reported.Nodup ∧ (∀ k ∈ m.reported, k < m.m_log.started) ∧
    (m.m_fsm.m_state = .idle → m.m_fsm.m_eventQueue = [] →
      (∀ k < m.m_log.started, m.reported.count k = 1) ∧ m.actionActive = false ∧
        m.m_actionHandler.m_currentAction.doNothing = true) := by
  obtain ⟨once, below⟩ := reach.reported_once
  refine ⟨once, below, ?_⟩
  intro idle queue
  have inactive : m.actionActive = false := by
    by_contra active
    have check := reach.notResting (fun _ _ kept => kept) idle (Bool.eq_true_of_not_eq_false active)
    rw [queue] at check
    cases check
  refine ⟨?_, inactive, ?_⟩
  · intro k started
    have all := reach.accounted.inactive inactive
    rw [all]
    exact List.count_eq_one_of_mem List.nodup_range (List.mem_range.mpr started)
  · rw [reach.synced.sameAction]
    simpa [actionActive, Action.doNothing] using inactive

/-- One round of polls and a search for clients, with every action reported. -/
theorem reported_exactly_once_polled :
    ∃ m, Reach (fun m l => ¬ LosesGrant m l) {} sampleNode (fun _ => sampleId) 1000 m ∧
      m.m_log.started = 5 ∧ ∀ k < 5, m.reported.count k = 1 := by
  obtain ⟨m, reach, shown⟩ := reach_of_script (fun m l => ¬ LosesGrant m l) {} sampleNode (fun _ => sampleId) 1000
    (pollScript ++ missedSearch)
    (fun m => m.m_fsm.m_state = .idle ∧ m.m_fsm.m_eventQueue = [] ∧ m.m_log.started = 5) (by decide +kernel)
  obtain ⟨idle, queue, started⟩ := of_decide_eq_true shown
  have once := ((reported_exactly_once _ _ _ _ reach).2.2 idle queue).1
  rw [started] at once
  exact ⟨m, reach, started, once⟩

/-- The token for address 1 is sent but not heard: the master goes back to idle
with that action unreported and still in progress. -/
theorem lostGrant_blocks_master :
    ∃ m, Reach (fun _ _ => True) {} sampleNode (fun _ => sampleId) 1000 m ∧
      m.m_fsm.m_state = .idle ∧ m.m_fsm.m_eventQueue = [] ∧ m.m_log.started = 2 ∧ m.reported = [0] ∧
      m.actionActive = true ∧ m.m_actionHandler.m_currentAction.doNothing = false := by
  obtain ⟨m, reach, shown⟩ := reach_of_script (fun _ _ => True) {} sampleNode (fun _ => sampleId) 1000
    (startScript ++ [.turn false, .stimulus (1000 + 1 / 10) (.timer ⟨1000 + 1 / 10, 4⟩), .turn false])
    (fun m => m.m_fsm.m_state = .idle ∧ m.m_fsm.m_eventQueue = [] ∧ m.m_log.started = 2 ∧
      m.reported = [0] ∧ m.actionActive = true ∧ m.m_actionHandler.m_currentAction.doNothing = false)
    (by decide +kernel)
  exact ⟨m, reach, of_decide_eq_true shown⟩

end SerialNet.Master
