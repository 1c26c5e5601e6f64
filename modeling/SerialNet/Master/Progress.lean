import SerialNet.Master.ReadyWork
import SerialNet.Master.Reports
import SerialNet.Master.Tokens

namespace SerialNet.Master

/-- A state that waits for something does not wait for ever. -/
def Armed (m : Master) : Prop :=
  m.m_fsm.m_state ≠ .idle → m.m_fsm.m_timer.m_timer ≠ none ∨ .timer_timeout ∈ m.m_fsm.m_eventQueue

namespace Armed

variable {m m' : Master}

theorem goto {s : StateId} (m : Master) : Armed (m.goto s) := by
  intro busy
  rw [goto_state] at busy
  left
  unfold Master.goto
  cases s with
  | idle => exact absurd rfl busy
  | _ => rintro ⟨⟩

theorem congr (armed : Armed m) (state : m'.m_fsm.m_state = m.m_fsm.m_state)
    (timer : m'.m_fsm.m_timer = m.m_fsm.m_timer) (noTimeout : .timer_timeout ∉ m.m_fsm.m_eventQueue) : Armed m' := by
  intro busy
  rw [state] at busy
  rw [timer]
  exact Or.inl ((armed busy).resolve_right noTimeout)

theorem turn (armed : Armed m) {rxInProgress : Bool} {ev : Event} (queue : m.m_fsm.m_eventQueue = [ev])
    (taken : TurnCase m rxInProgress ev m') : Armed m' := by
  cases taken with
  | ignored unhandled =>
    by_cases timeout : ev = .timer_timeout
    · intro busy
      have state : m.m_fsm.m_state ≠ .idle := busy
      rw [timeout] at unhandled
      -- every state but idle reacts to its timer
      cases s : m.m_fsm.m_state with
      | idle => exact absurd s state
      | _ =>
        rw [s] at unhandled
        cases unhandled
    · exact armed.congr rfl rfl (by rw [queue, List.mem_singleton]; exact Ne.symm timeout)
  | ownIdle state _ _ _ =>
    intro busy
    rw [conclude_state, consume_state, state] at busy
    exact absurd rfl busy
  | ownSends => exact goto _
  | grants => exact goto _
  | queries => exact goto _
  | starts => exact goto _
  | grantSeen => exact goto _
  | grantLost => exact goto _
  | requested => exact goto _
  | rearmed _ => exact fun _ => Or.inl (by rintro ⟨⟩)
  | reported => exact goto _

theorem stimulus (armed : Armed m) {now : ℚ} {s : Stimulus} (queue : m.m_fsm.m_eventQueue = [])
    (taken : StimulusCase m now s m') : Armed m' := by
  have empty : .timer_timeout ∉ m.m_fsm.m_eventQueue := by
    rw [queue]
    rintro ⟨⟩
  cases taken with
  | packet _ => exact armed.congr rfl rfl empty
  | sendPacket => exact armed.congr rfl rfl empty
  | sendMacUpdate => exact armed.congr rfl rfl empty
  | timer => exact fun _ => Or.inr (List.mem_singleton_self _)
  | delayBusy _ => exact armed.congr rfl rfl empty
  | @delayIdle timeout _ =>
    rcases startNext_cases { m.wake now with m_actionHandler := { m.m_actionHandler with
      m_delayAction := m.m_actionHandler.m_delayAction.expire timeout } } with
      ⟨front, _, fsm, _, _⟩ | ⟨_, fsm, _, _⟩
    · exact armed.congr (by rw [fsm]; rfl) (by rw [fsm]; rfl) empty
    · exact armed.congr (by rw [fsm]; rfl) (by rw [fsm]; rfl) empty
  | discovery => exact armed.congr rfl rfl empty
  | reordered _ => exact armed.congr rfl rfl empty

end Armed

/-- An address is polled by one token action, and the master is on its way to it: an
event is being processed, the state machine is busy and its timer is running, or
nothing is going on and the timer of the action handler runs out before the token is
due. -/
structure Polled (m : Master) (d : LocalAddress) : Prop where
  once : m.tokens.count d = 1
  due : m.m_fsm.m_eventQueue ≠ [] ∨ (m.m_fsm.m_state ≠ .idle ∧ m.m_fsm.m_timer.m_timer ≠ none) ∨
    (m.m_actionHandler.m_currentAction.doNothing = true ∧
      ∃ el ∈ m.m_actionHandler.m_scheduler.m_waiting, tokenAddress el.m_action = some d ∧
        ∃ t, m.m_actionHandler.m_delayAction.m_timer = some t ∧ t ≤ el.m_nextTime)

section Runs

variable {cfg : Config} {node : PacketTypeCodec} {uninitialised : Nat → UniqueId} {now : ℚ} {m : Master}

theorem Reach.armed {allowed : Master → Label → Prop} (reach : Reach allowed cfg node uninitialised now m) :
    Armed m := by
  refine reach.invariant (fun busy => absurd rfl busy) ?_
  intro m m' l synced armed _ step
  rcases synced.step_cases step with ⟨_, _, _, queue, taken⟩ | ⟨_, _, _, queue, _, _, taken⟩
  · exact armed.turn queue taken
  · exact armed.stimulus queue taken

/-- Every address with a line is polled, as long as the master sees its token grants
on the bus. A search for clients may be left lying in the ready queue meanwhile, but
a token never is. -/
theorem Reach.polled {allowed : Master → Label → Prop} (kept : ∀ m l, allowed m l → ¬ LosesGrant m l)
    (separate : cfg.Separate) (clock : 1 ≤ now) (reach : Reach allowed cfg node uninitialised now m)
    {d : LocalAddress} (line : d ∈ m.lines) : Polled m d := by
  have one := reach.oneToken
  refine ⟨?_, ?_⟩
  · rw [one.polled.count_eq]
    exact List.count_eq_one_of_mem (one.nodup_lines separate) line
  · by_cases queue : m.m_fsm.m_eventQueue = []
    · by_cases idle : m.m_fsm.m_state = .idle
      · have inactive : m.actionActive = false := by
          by_contra active
          have check := reach.notResting kept idle (Bool.eq_true_of_not_eq_false active)
          rw [queue] at check
          cases check
        have nothing : m.m_actionHandler.m_currentAction.doNothing = true := by
          rw [reach.synced.sameAction]
          simpa [actionActive, Action.doNothing] using inactive
        have watchful : Watchful (· = Action.makeQueryAddressAction.withReport) m := by
          refine reach.watchful ?_ clock
          intro _ _ _ _
          exact rfl
        obtain ⟨queries, timer⟩ := watchful.watches nothing
        have token := one.polled.mem_iff.mpr line
        obtain ⟨a, member, address⟩ := List.mem_filterMap.mp token
        have command : a.m_action = .send_token := by
          by_contra other
          rw [tokenAddress, if_neg other] at address
          cases address
        -- neither in progress nor ready, so it is waiting
        have waits : a ∈ m.m_actionHandler.m_scheduler.m_waiting.map (·.m_action) := by
          rcases List.mem_append.mp member with later | current
          · rcases List.mem_append.mp later with ready | waiting
            · have query : a = Action.makeQueryAddressAction.withReport := queries a ready
              rw [query] at command
              cases command
            · exact waiting
          · rw [List.mem_singleton.mp current, of_decide_eq_true nothing] at command
            cases command
        obtain ⟨el, inside, rfl⟩ := List.mem_map.mp waits
        obtain ⟨t, armed, early⟩ := timer (List.ne_nil_of_mem inside)
        exact Or.inr (Or.inr ⟨nothing, el, inside, address, t, armed, early el inside⟩)
      · have timer := (reach.armed idle).resolve_right (by rw [queue]; rintro ⟨⟩)
        exact Or.inr (Or.inl ⟨idle, timer⟩)
    · exact Or.inl queue

end Runs

end SerialNet.Master
