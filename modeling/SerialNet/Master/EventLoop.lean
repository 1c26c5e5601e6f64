import SerialNet.Master.Fairness

namespace SerialNet

/-! The loop of `postEvent` comes to its end -/

namespace MasterScheduler

/-- What is ready at a time, or becomes ready when `workToDo` looks at the clock. -/
def due (s : MasterScheduler) (now : ℚ) : Nat := (s.release now).m_ready.length

theorem due_eq (s : MasterScheduler) (now : ℚ) :
    s.due now = s.m_ready.length + (s.m_waiting.takeWhile (·.m_nextTime ≤ now)).length := by
  rw [due, release, List.length_append, List.length_map]

theorem due_release (s : MasterScheduler) (now : ℚ) : (s.release now).due now = s.due now := by
  have none : (s.m_waiting.dropWhile (·.m_nextTime ≤ now)).takeWhile (·.m_nextTime ≤ now) = [] := by
    induction s.m_waiting with
    | nil => rfl
    | cons el rest ih =>
      by_cases early : el.m_nextTime ≤ now
      · rwa [List.dropWhile_cons_of_pos (by simpa using early)]
      · rw [List.dropWhile_cons_of_neg (by simpa using early), List.takeWhile_cons_of_neg (by simpa using early)]
  rw [due_eq (s.release now), release, none, due, release]
  simp

/-- An action for later does not make another one due. -/
theorem due_addAction_le (s : MasterScheduler) (a : Action) {now t : ℚ} (late : now < t) :
    (s.addAction a t).due now ≤ s.due now := by
  have notDue : ¬ t ≤ now := not_le.mpr late
  have shorter : ((s.addAction a t).m_waiting.takeWhile (·.m_nextTime ≤ now)).length ≤
      (s.m_waiting.takeWhile (·.m_nextTime ≤ now)).length := by
    show ((s.m_waiting.orderedInsert (fun lhs rhs : QueueEl => rhs.Gt lhs) ⟨t, a⟩).takeWhile
      (·.m_nextTime ≤ now)).length ≤ (s.m_waiting.takeWhile (·.m_nextTime ≤ now)).length
    induction s.m_waiting with
    | nil => simp [notDue]
    | cons el rest ih =>
      rw [List.orderedInsert_cons]
      split
      · rw [List.takeWhile_cons_of_neg (by simpa using late)]
        exact Nat.zero_le _
      · by_cases early : el.m_nextTime ≤ now
        · rw [List.takeWhile_cons_of_pos (by simpa using early), List.takeWhile_cons_of_pos (by simpa using early),
            List.length_cons, List.length_cons]
          omega
        · rw [List.takeWhile_cons_of_neg (by simpa using early)]
          exact Nat.zero_le _
  rw [due_eq, due_eq]
  have same : (s.addAction a t).m_ready = s.m_ready := rfl
  rw [same]
  omega

end MasterScheduler

namespace Master

/-- How many actions could be started without time going on. -/
def due (m : Master) : Nat := m.m_actionHandler.m_scheduler.due m.m_now

/-- An action that is started is one less to start. -/
theorem startNext_due (m : Master) :
    m.startNext.m_fsm.m_eventQueue = m.m_fsm.m_eventQueue ++ [.check_new_command] ∧ m.startNext.due + 1 = m.due ∨
      m.startNext.m_fsm.m_eventQueue = m.m_fsm.m_eventQueue := by
  have released := MasterScheduler.due_release m.m_actionHandler.m_scheduler m.m_now
  unfold startNext
  split
  · rename_i front rest ready
    refine Or.inl ⟨rfl, ?_⟩
    rw [MasterScheduler.due_eq, ready, List.length_cons] at released
    have left : (m.launch front rest).due = rest.length +
        ((m.m_actionHandler.m_scheduler.release m.m_now).m_waiting.takeWhile (·.m_nextTime ≤ m.m_now)).length :=
      MasterScheduler.due_eq _ _
    rw [left, due]
    omega
  · exact Or.inr rfl

theorem conclude_due {m : Master} {rv : ReturnValue} {dh : DynamicHandler} {again : Option ℚ}
    (settles : m.SettlesAction rv dh again) :
    (m.conclude rv dh again).m_fsm.m_eventQueue = m.m_fsm.m_eventQueue ++ [.check_new_command] ∧
        (m.conclude rv dh again).due + 1 ≤ m.due ∨
      (m.conclude rv dh again).m_fsm.m_eventQueue = m.m_fsm.m_eventQueue := by
  have late : ∀ t ∈ again, m.m_now < t := by
    intro t member
    rcases settles with _ | _ | _ | _
    · cases member
    · cases member
    · cases member
    · cases member
      exact lt_nextTime _ _
  cases again with
  | none =>
    rcases startNext_due { m.clear rv with m_dynamicHandler := dh } with ⟨queue, less⟩ | queue
    · exact Or.inl ⟨queue, le_of_eq less⟩
    · exact Or.inr queue
  | some t =>
    have same := MasterScheduler.due_addAction_le m.m_actionHandler.m_scheduler
      (Action.makeSendTokenAction m.m_actionHandler.m_currentAction.m_address).withReport (late t rfl)
    rcases startNext_due (postAction { m.clear rv with m_dynamicHandler := dh }
      (.makeSendTokenAction m.m_actionHandler.m_currentAction.m_address) t) with ⟨queue, less⟩ | queue
    · refine Or.inl ⟨queue, ?_⟩
      exact le_trans (le_of_eq less) same
    · exact Or.inr queue

/-- A turn empties the queue, or starts one of the actions that are due. -/
theorem TurnCase.due {m m' : Master} {rxInProgress : Bool} {ev : Event} (taken : TurnCase m rxInProgress ev m')
    (queue : m.m_fsm.m_eventQueue = [ev]) :
    m'.m_fsm.m_eventQueue = [] ∨ m'.m_fsm.m_eventQueue = [.check_new_command] ∧ m'.due + 1 ≤ m.due := by
  have empty := m.consume_eventQueue queue
  cases taken with
  | ownIdle _ _ _ settles =>
    rcases conclude_due (m := m.consume) settles with ⟨started, less⟩ | none
    · exact Or.inr ⟨by rw [started, empty]; rfl, less⟩
    · exact Or.inl (none.trans empty)
  | @reported _ rv dh again _ settles =>
    have same : ((m.consume.conclude rv dh again).goto .idle).due = (m.consume.conclude rv dh again).due := by
      simp only [Master.due, goto_actionHandler, goto_now]
    rw [same, goto_eventQueue]
    rcases conclude_due (m := m.consume) settles with ⟨started, less⟩ | none
    · exact Or.inr ⟨by rw [started, empty]; rfl, less⟩
    · exact Or.inl (none.trans empty)
  | _ => exact Or.inl (by simpa [startTimer] using empty)

/-- The loop of `postEvent`, as often as it is needed. -/
def processEvents (rxInProgress : Bool) : Nat → Master → Option (Except Fault Master)
  | 0, m => if m.m_fsm.m_eventQueue = [] then some (.ok m) else none
  | rounds + 1, m =>
    if m.m_fsm.m_eventQueue = [] then some (.ok m)
    else
      match m.turn rxInProgress with
      | .error fault => some (.error fault)
      | .ok m' => processEvents rxInProgress rounds m'

theorem processEvents_of_due (rxInProgress : Bool) {rounds : Nat} {m : Master} (synced : Synced m)
    (enough : m.m_fsm.m_eventQueue = [] ∨ m.due < rounds) :
    ∃ end_, processEvents rxInProgress rounds m = some end_ := by
  induction rounds generalizing m with
  | zero =>
    rcases enough with empty | impossible
    · exact ⟨_, if_pos empty⟩
    · omega
  | succ rounds ih =>
    by_cases empty : m.m_fsm.m_eventQueue = []
    · exact ⟨_, if_pos empty⟩
    · simp only [processEvents, if_neg empty]
      cases run : m.turn rxInProgress with
      | error fault => exact ⟨_, rfl⟩
      | ok m' =>
        have step : Step m (.turn rxInProgress) m' := .turn empty run
        refine ih (synced.step step) ?_
        rcases synced.step_cases step with ⟨_, _, label, queue, taken⟩ | ⟨_, _, label, _⟩
        · cases label
          rcases taken.due queue with none | ⟨_, less⟩
          · exact Or.inl none
          · right
            rcases enough with none | enough
            · exact absurd none empty
            · omega
        · cases label

theorem processEvents_queue {rxInProgress : Bool} {rounds : Nat} {m m' : Master}
    (run : processEvents rxInProgress rounds m = some (.ok m')) : m'.m_fsm.m_eventQueue = [] := by
  induction rounds generalizing m with
  | zero =>
    simp only [processEvents] at run
    split at run
    · rename_i empty
      cases Option.some.inj run
      exact empty
    · cases run
  | succ rounds ih =>
    simp only [processEvents] at run
    split at run
    · rename_i empty
      cases Option.some.inj run
      exact empty
    · cases turn : m.turn rxInProgress with
      | error fault =>
        rw [turn] at run
        cases run
      | ok m₁ =>
        rw [turn] at run
        exact ih run

/-- Turns in a row, with any answers of the frame layer. -/
theorem length_turns_le {flags : List Bool} {m m' : Master} (synced : Synced m)
    (run : LabelledReach.follow (fun m rxInProgress => m.exec (.turn rxInProgress)) m flags = some m') :
    flags = [] ∨ m.m_fsm.m_eventQueue ≠ [] ∧ flags.length ≤ m.due + 1 := by
  induction flags generalizing m with
  | nil => exact Or.inl rfl
  | cons rxInProgress rest ih =>
    obtain ⟨m₁, first, later⟩ := Option.bind_eq_some_iff.mp run
    have step := exec_step first
    rcases synced.step_cases step with ⟨_, _, label, queue, taken⟩ | ⟨_, _, label, _⟩
    · cases label
      refine Or.inr ⟨by simp [queue], ?_⟩
      rw [List.length_cons]
      rcases ih (synced.step step) later with none | ⟨waiting, bound⟩
      · rw [none, List.length_nil]
        omega
      · rcases taken.due queue with empty | ⟨_, less⟩
        · exact absurd empty waiting
        · omega
    · cases label

/-- A callback always comes to its end. Wherever the master is in a run, the loop that
processes events has emptied its queue, or met a failing assertion, after one turn more than
there are actions that are due; and that many turns in a row are all there can be, whatever
the frame layer answers meanwhile. -/
theorem event_processing_ends (cfg : Config) (node : PacketTypeCodec) (uninitialised : Nat → UniqueId) (now : ℚ)
    (m : Master) (reach : Reach (fun _ _ => True) cfg node uninitialised now m) :
    (∀ rxInProgress, ∃ end_, processEvents rxInProgress (m.due + 1) m = some end_ ∧
      ∀ m', end_ = .ok m' → m'.m_fsm.m_eventQueue = []) ∧
    ∀ flags m', LabelledReach.follow (fun m rxInProgress => m.exec (.turn rxInProgress)) m flags = some m' →
      flags.length ≤ m.due + 1 := by
  have synced := reach.synced
  refine ⟨?_, ?_⟩
  · intro rxInProgress
    obtain ⟨end_, run⟩ := processEvents_of_due rxInProgress synced (Or.inr (Nat.lt_succ_self m.due))
    refine ⟨end_, run, ?_⟩
    rintro m' rfl
    exact processEvents_queue run
  · intro flags m' run
    rcases length_turns_le synced run with none | ⟨_, bound⟩
    · rw [none, List.length_nil]
      exact Nat.zero_le _
    · exact bound

/-- When the three static addresses have been polled in vain, the search is all that is
left, and the turn that begins it is the last one of its callback. -/
theorem event_processing_ends_polled :
    ∃ m, Reach (fun _ _ => True) {} sampleNode (fun _ => sampleId) 1000 m ∧ m.due = 0 ∧
      m.m_fsm.m_eventQueue = [.check_new_command] ∧
      ∀ rxInProgress, ∃ end_, processEvents rxInProgress 1 m = some end_ := by
  obtain ⟨m, reach, shown⟩ := reach_of_script (fun _ _ => True) {} sampleNode (fun _ => sampleId) 1000
    (startScript ++ missedPoll 0 ++ missedPoll 1 ++ missedPoll 2)
    (fun m => m.due = 0 ∧ m.m_fsm.m_eventQueue = [.check_new_command]) (by decide +kernel)
  obtain ⟨none, queue⟩ := of_decide_eq_true shown
  have ends := (event_processing_ends {} sampleNode (fun _ => sampleId) 1000 m reach).1
  rw [none] at ends
  refine ⟨m, reach, none, queue, ?_⟩
  intro rxInProgress
  obtain ⟨end_, run, _⟩ := ends rxInProgress
  exact ⟨end_, run⟩

end Master

end SerialNet
