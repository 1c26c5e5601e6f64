import SerialNet.Master.Faults
import SerialNet.Master.Reports

namespace SerialNet.Master

/-- A step before it is known how it ends. -/
def attempt (m : Master) : Label → Except Fault Master
  | .stimulus now s => m.stimulate now s
  | .turn rxInProgress => m.turn rxInProgress

/-! Commands that have been started -/

/-- The action in progress has just been started: the state machine is in idle and
is about to look at it, the action handler has the same action in mind, it is the
latest one of all that were started, and nothing has been reported for it. -/
structure JustStarted (m : Master) : Prop where
  queue : m.m_fsm.m_eventQueue = [.check_new_command]
  idle : m.m_fsm.m_state = .idle
  sameAction : m.m_fsm.m_currentAction = m.m_actionHandler.m_currentAction
  active : m.actionActive = true
  latest : m.m_log.started = m.m_log.ticket + 1
  unreported : m.m_log.ticket ∉ m.reported

/-- How many actions have been started and how many of them are still to be looked
at. -/
def CallsEvents (m m' : Master) : Prop :=
  m'.m_log.started = m.m_log.started + m'.m_fsm.m_eventQueue.count .check_new_command

namespace CallsEvents

variable {m m' : Master}

theorem of_startNext {pre : Master} (empty : pre.m_fsm.m_eventQueue = []) (log : pre.m_log.started = m.m_log.started) :
    CallsEvents m pre.startNext := by
  unfold CallsEvents
  rcases pre.startNext_cases with ⟨front, _, fsm, after, _⟩ | ⟨_, fsm, after, _⟩
  · rw [fsm, after, empty]
    exact congrArg (· + 1) log
  · rw [fsm, after, empty]
    exact log

theorem of_conclude {ev : Event} (queue : m.m_fsm.m_eventQueue = [ev]) (rv : ReturnValue) (dh : DynamicHandler)
    (again : Option ℚ) : CallsEvents m (m.consume.conclude rv dh again) := by
  have empty := m.consume_eventQueue queue
  cases again <;> exact of_startNext empty rfl

theorem of_quiet (log : m'.m_log = m.m_log) (empty : m'.m_fsm.m_eventQueue = []) : CallsEvents m m' := by
  rw [CallsEvents, log, empty]
  rfl

theorem turn {rxInProgress : Bool} {ev : Event} (queue : m.m_fsm.m_eventQueue = [ev])
    (taken : TurnCase m rxInProgress ev m') : CallsEvents m m' := by
  have empty := m.consume_eventQueue queue
  cases taken with
  | ownIdle => exact of_conclude queue _ _ _
  | reported _ _ =>
    rw [CallsEvents, goto_log, goto_eventQueue]
    exact of_conclude queue _ _ _
  | ignored _ => exact of_quiet rfl empty
  | rearmed _ => exact of_quiet rfl empty
  | _ => exact of_quiet (by simp) (by simpa using empty)

theorem stimulus (synced : Synced m) {now : ℚ} {s : Stimulus} (queue : m.m_fsm.m_eventQueue = [])
    (taken : StimulusCase m now s m') : CallsEvents m m' := by
  cases taken with
  | @packet bb _ node effects received =>
    obtain ⟨_, _, _, told⟩ := PacketTypeCodec.rxRawPacket_reaction received
    have absent : Event.check_new_command ∉ effects.filterMap masterEvent := by
      rw [filterMap_masterEvent synced.registered told, Option.mem_toList]
      exact packetEvent_ne_check bb
    rw [CallsEvents, List.count_eq_zero_of_not_mem absent]
    rfl
  | timer => rfl
  | delayIdle _ => exact of_startNext queue rfl
  | sendPacket => exact of_quiet rfl queue
  | sendMacUpdate => exact of_quiet rfl queue
  | delayBusy _ => exact of_quiet rfl queue
  | discovery => exact of_quiet rfl queue
  | reordered _ => exact of_quiet rfl queue

theorem step (synced : Synced m) {l : Label} (step : Step m l m') : CallsEvents m m' := by
  rcases synced.step_cases step with ⟨_, _, _, queue, taken⟩ | ⟨_, _, _, queue, _, _, taken⟩
  · exact turn queue taken
  · exact stimulus synced queue taken

end CallsEvents

section Runs

variable {cfg : Config} {node : PacketTypeCodec} {uninitialised : Nat → UniqueId} {now : ℚ} {m : Master}

theorem Reach.justStarted {allowed : Master → Label → Prop} (reach : Reach allowed cfg node uninitialised now m)
    (check : .check_new_command ∈ m.m_fsm.m_eventQueue) : JustStarted m := by
  have synced := reach.synced
  obtain ⟨idle, posted⟩ := synced.fresh check
  have active := Accounted.actionActive_of_posted posted
  obtain ⟨latest, reported⟩ := reach.accounted.active active
  have queue : m.m_fsm.m_eventQueue = [.check_new_command] := by
    obtain ⟨before, after, split⟩ := List.append_of_mem check
    have single := synced.single
    rw [split, List.length_append, List.length_cons] at single
    have nothing : before = [] ∧ after = [] := by
      constructor
      · exact List.eq_nil_of_length_eq_zero (by omega)
      · exact List.eq_nil_of_length_eq_zero (by omega)
    rw [split, nothing.1, nothing.2]
    rfl
  refine ⟨queue, idle, synced.sameAction.symm, active, latest, ?_⟩
  rw [reported, List.mem_range]
  exact Nat.lt_irrefl _

end Runs

/-- No action is started over another one, and each one that is started is looked
at next, in idle, while both copies of it are still in place. -/
theorem no_command_dropped (cfg : Config) (node : PacketTypeCodec) (uninitialised : Nat → UniqueId) (now : ℚ) :
    start cfg node uninitialised now ≠ .error .actionActive ∧
    ∀ m, Reach (fun _ _ => True) cfg node uninitialised now m →
      (∀ l, m.attempt l ≠ .error .actionActive) ∧
      (.check_new_command ∈ m.m_fsm.m_eventQueue → JustStarted m) ∧
      ∀ l m', Step m l m' →
        m'.m_log.started = m.m_log.started + m'.m_fsm.m_eventQueue.count .check_new_command := by
  refine ⟨by rw [start_eq]; rintro ⟨⟩, ?_⟩
  intro m reach
  refine ⟨?_, reach.justStarted, fun l m' step => CallsEvents.step reach.synced step⟩
  intro l run
  cases l with
  | stimulus now' s =>
    rcases stimulate_error run with short | ⟨nothing, active, _⟩
    · cases short
    · -- both copies are cleared together
      rw [reach.synced.sameAction] at nothing
      rw [actionActive, of_decide_eq_true nothing] at active
      cases active
  | turn rxInProgress =>
    obtain ⟨ev, rest, _, fault⟩ := turn_error run
    cases fault

/-- After the start message the token for address 1 is the command to be looked at. -/
theorem no_command_dropped_firstToken :
    ∃ m, Reach (fun _ _ => True) {} sampleNode (fun _ => sampleId) 1000 m ∧ JustStarted m ∧
      m.m_actionHandler.m_currentAction = (Action.makeSendTokenAction 1).withReport := by
  obtain ⟨m, reach, shown⟩ := reach_of_script (fun _ _ => True) {} sampleNode (fun _ => sampleId) 1000 startScript
    (fun m => .check_new_command ∈ m.m_fsm.m_eventQueue ∧
      m.m_actionHandler.m_currentAction = (Action.makeSendTokenAction 1).withReport) (by decide +kernel)
  obtain ⟨check, action⟩ := of_decide_eq_true shown
  have started := ((no_command_dropped _ _ _ _).2 m reach).2.1 check
  exact ⟨m, reach, started, action⟩

/-! Results that are reported -/

/-- The processing of a timeout while the state machine waits to see its own start
message on the bus. -/
def LosesStart (m : Master) : Label → Prop
  | .turn _ => m.m_fsm.m_state = .startMaster ∧ m.m_fsm.m_eventQueue.head? = some .timer_timeout
  | .stimulus .. => False

instance (m : Master) (l : Label) : Decidable (LosesStart m l) :=
  match l with
  | .turn _ => inferInstanceAs (Decidable (_ ∧ _))
  | .stimulus .. => inferInstanceAs (Decidable False)

theorem losesStart_of_badReturnValue {m : Master} {l : Label} (run : m.attempt l = .error .badReturnValue) :
    LosesStart m l := by
  cases l with
  | stimulus now s =>
    rcases stimulate_error run with short | ⟨_, _, active⟩
    · cases short
    · cases active
  | turn rxInProgress =>
    obtain ⟨ev, rest, queue, fault⟩ := turn_error run
    cases fault with
    | unhandled state => exact ⟨state, by rw [queue]; rfl⟩

theorem badReturnValue_of_losesStart {m : Master} (synced : Synced m) {l : Label} (lost : LosesStart m l) :
    m.attempt l = .error .badReturnValue := by
  cases l with
  | stimulus => cases lost
  | turn rxInProgress =>
    obtain ⟨state, first⟩ := lost
    obtain ⟨rest, queue⟩ := List.head?_eq_some_iff.mp first
    have posted := synced.posted (by rw [state]; rintro ⟨⟩)
    have reported : emitEvent { m with m_out := [] } rxInProgress .timer_timeout = .error .badReturnValue := by
      simp only [emitEvent, state, masterStartEvent, reportAndIdle, reportActionResult, posted.1, if_true]
      rfl
    simp only [attempt, turn, queue, processEvent, reported]
    rfl

/-- As long as the master sees its start message on the bus in time, every result
that is reported is one that is handled. A start message that is not seen stops the
program. -/
theorem results_handled (cfg : Config) (node : PacketTypeCodec) (uninitialised : Nat → UniqueId) (now : ℚ) :
    (∀ m, Reach (fun m l => ¬ LosesStart m l) cfg node uninitialised now m →
      ∀ l, ¬ LosesStart m l → m.attempt l ≠ .error .badReturnValue) ∧
    (∀ m, Reach (fun _ _ => True) cfg node uninitialised now m →
      ∀ l, LosesStart m l → m.attempt l = .error .badReturnValue) := by
  refine ⟨?_, ?_⟩
  · intro m _ l seen run
    exact seen (losesStart_of_badReturnValue run)
  · intro m reach l lost
    exact badReturnValue_of_losesStart reach.synced lost

/-- The start message is seen: its result is handled. -/
theorem results_handled_started :
    ∃ m, Reach (fun m l => ¬ LosesStart m l) {} sampleNode (fun _ => sampleId) 1000 m ∧
      m.m_fsm.m_state = .startMaster ∧ m.attempt (.turn false) ≠ .error .badReturnValue := by
  obtain ⟨m, reach, shown⟩ := reach_of_script (fun m l => ¬ LosesStart m l) {} sampleNode (fun _ => sampleId) 1000
    [.turn false, .stimulus 1000 (.rxRawPacket packet.masterStarted sampleStack)]
    (fun m => m.m_fsm.m_state = .startMaster ∧ ¬ LosesStart m (.turn false)) (by decide +kernel)
  obtain ⟨state, seen⟩ := of_decide_eq_true shown
  exact ⟨m, reach, state, (results_handled _ _ _ _).1 m reach _ seen⟩

/-- The start message is sent but not heard within 0.1 s. -/
theorem lostStart_stops_master :
    ∃ m, Reach (fun _ _ => True) {} sampleNode (fun _ => sampleId) 1000 m ∧
      m.attempt (.turn false) = .error .badReturnValue := by
  obtain ⟨m, reach, shown⟩ := reach_of_script (fun _ _ => True) {} sampleNode (fun _ => sampleId) 1000
    [.turn false, .stimulus (1000 + 1 / 10) (.timer ⟨1000 + 1 / 10, 2⟩)]
    (fun m => match m.attempt (.turn false) with
      | .error .badReturnValue => true
      | _ => false) (by decide +kernel)
  refine ⟨m, reach, ?_⟩
  split at shown
  · assumption
  · cases shown

end SerialNet.Master
