import SerialNet.Master.Phases

namespace SerialNet

/-- Nothing is ready but what may be left lying, and if something is waiting then the
timer of the action handler will go off in time for it. -/
def ActionHandler.Watches (ah : ActionHandler) (left : Action → Prop) : Prop :=
  (∀ a ∈ ah.m_scheduler.m_ready, left a) ∧
    (ah.m_scheduler.m_waiting ≠ [] →
      ∃ t, ah.m_delayAction.m_timer = some t ∧ ∀ el ∈ ah.m_scheduler.m_waiting, t ≤ el.m_nextTime)

namespace Master

/-- The waiting queue is in order, and no time in it passes for the zero that stands
for an empty queue. -/
structure Timed (s : MasterScheduler) : Prop where
  ordered : s.Ordered
  late : ∀ el ∈ s.m_waiting, 1 ≤ el.m_nextTime

theorem Timed.addAction {s : MasterScheduler} (timed : Timed s) (a : Action) {t : ℚ} (late : 1 ≤ t) :
    Timed (s.addAction a t) := by
  refine ⟨timed.ordered.addAction a t, ?_⟩
  intro el member
  rcases (List.mem_orderedInsert _).mp member with rfl | old
  · exact late
  · exact timed.late el old

theorem Timed.release {s : MasterScheduler} (timed : Timed s) (now : ℚ) : Timed (s.release now) :=
  ⟨timed.ordered.release now, fun el member => timed.late el (List.dropWhile_sublist _ |>.subset member)⟩

theorem now_le_nextTime (now : ℚ) (state : AddressLine.State) : now ≤ DynamicHandler.nextTime now state := by
  cases state <;> simp only [DynamicHandler.nextTime, Config.addrDelayTokenPacketSent, Config.addrDelayTokenReturn,
    Config.addrDelayTokenTimeout, Config.addrDelayFreeAddress] <;> linarith

/-- Zero stands for an empty queue only. -/
theorem Timed.one_le_readyTime {s : MasterScheduler} (timed : Timed s) (waiting : s.m_waiting ≠ []) :
    1 ≤ s.readyTime := by
  obtain ⟨top, rest, queue⟩ := List.exists_cons_of_ne_nil waiting
  rw [MasterScheduler.readyTime, queue]
  exact timed.late top (by simp [queue])

/-- When no action is left to start, the timer is set for the first one waiting. -/
theorem await_watches {m : Master} {left : Action → Prop} (timed : Timed m.m_actionHandler.m_scheduler)
    (none : (m.m_actionHandler.m_scheduler.release m.m_now).m_ready = []) : m.await.m_actionHandler.Watches left := by
  have released := timed.release m.m_now
  refine ⟨?_, ?_⟩
  · intro a member
    have ready : a ∈ (m.m_actionHandler.m_scheduler.release m.m_now).m_ready := member
    rw [none] at ready
    cases ready
  intro waiting
  refine ⟨(m.m_actionHandler.m_scheduler.release m.m_now).readyTime, ?_, ?_⟩
  · have late := released.one_le_readyTime waiting
    simp only [await, if_neg (not_lt.mpr late), Timer.assign]
  · intro el member
    exact released.ordered.readyTime_le member

/-- No action is in progress only if there is none to start. -/
structure Watchful (left : Action → Prop) (m : Master) : Prop where
  clock : 1 ≤ m.m_now
  timed : Timed m.m_actionHandler.m_scheduler
  watches : m.m_actionHandler.m_currentAction.doNothing = true → m.m_actionHandler.Watches left

/-- The search for clients falls due while no action is in progress. -/
def Unheard (m : Master) : Label → Prop
  | .stimulus _ (.discovery _) => m.m_actionHandler.m_currentAction.doNothing = true
  | _ => False

instance (m : Master) (l : Label) : Decidable (Unheard m l) := by
  unfold Unheard
  split <;> infer_instance

namespace Watchful

variable {left : Action → Prop} {m m' : Master}

theorem startNext (clock : 1 ≤ m.m_now) (timed : Timed m.m_actionHandler.m_scheduler)
    (posted : ∀ a ∈ m.queued, Posted a) : Watchful left m.startNext := by
  have released := timed.release m.m_now
  have content := MasterScheduler.queued_release m.m_actionHandler.m_scheduler m.m_now
  unfold Master.startNext
  split
  · rename_i front rest ready
    refine ⟨clock, ⟨released.ordered, released.late⟩, ?_⟩
    intro nothing
    have member : front ∈ m.queued := by
      rw [queued, ← content, MasterScheduler.queued, ready]
      simp
    exact absurd (of_decide_eq_true nothing) (posted front member).2
  · rename_i none
    exact ⟨clock, released, fun _ => await_watches timed none⟩

theorem conclude (watchful : Watchful left m) (synced : Synced m) {rv : ReturnValue} {dh : DynamicHandler}
    {again : Option ℚ} (settles : m.SettlesAction rv dh again) : Watchful left (m.consume.conclude rv dh again) := by
  have later : ∀ t ∈ again, 1 ≤ t := by
    intro t member
    rcases settles with _ | _ | _ | _
    · cases member
    · cases member
    · cases member
    · cases member
      exact watchful.clock.trans (now_le_nextTime _ _)
  cases again with
  | none => exact startNext watchful.clock watchful.timed synced.queuedPosted
  | some t =>
    refine startNext watchful.clock (watchful.timed.addAction _ (later t rfl)) ?_
    intro a member
    have posted := MasterScheduler.queued_addAction m.m_actionHandler.m_scheduler
      (Action.makeSendTokenAction m.m_actionHandler.m_currentAction.m_address).withReport t
    rcases List.mem_cons.mp (posted.mem_iff.mp member) with rfl | old
    · exact ⟨rfl, by rintro ⟨⟩⟩
    · exact synced.queuedPosted a old

theorem congr (watchful : Watchful left m) (clock : m'.m_now = m.m_now)
    (handler : m'.m_actionHandler = m.m_actionHandler) : Watchful left m' := by
  refine ⟨clock ▸ watchful.clock, ?_, ?_⟩
  · rw [handler]
    exact watchful.timed
  · rw [handler]
    exact watchful.watches

/-- While an action is in progress more may become ready. -/
theorem of_busy (watchful : Watchful left m) (clock : m'.m_now = m.m_now)
    (waiting : m'.m_actionHandler.m_scheduler.m_waiting = m.m_actionHandler.m_scheduler.m_waiting)
    (busy : m'.m_actionHandler.m_currentAction.doNothing = false) : Watchful left m' := by
  obtain ⟨ordered, late⟩ := watchful.timed
  refine ⟨clock ▸ watchful.clock, ⟨?_, ?_⟩, ?_⟩
  · rw [MasterScheduler.Ordered, waiting]
    exact ordered
  · rw [waiting]
    exact late
  · intro nothing
    rw [busy] at nothing
    cases nothing

theorem turn (watchful : Watchful left m) (synced : Synced m) {rxInProgress : Bool} {ev : Event}
    (taken : TurnCase m rxInProgress ev m') : Watchful left m' := by
  cases taken with
  | ignored _ => exact watchful.congr rfl rfl
  | ownIdle _ _ _ settles => exact watchful.conclude synced settles
  | ownSends => exact watchful.congr (by simp) (by simp)
  | grants => exact watchful.congr (by simp) (by simp)
  | queries => exact watchful.congr (by simp) (by simp)
  | starts => exact watchful.congr (by simp) (by simp)
  | grantSeen => exact watchful.congr (by simp) (by simp)
  | grantLost => exact watchful.congr (by simp) (by simp)
  | @requested aReq state =>
    refine watchful.of_busy (by simp) ?_ ?_
    · rcases m.consume.receivedAddressRequest_cases aReq with ⟨_, _, _, known⟩ | ⟨_, _, nothing⟩ | ⟨_, _, _, _, new⟩
      · rw [goto_actionHandler, known]
        rfl
      · rw [goto_actionHandler, nothing]
        rfl
      · rw [goto_actionHandler, new]
        rfl
    · have posted := synced.posted (by simp [state])
      simp only [goto_actionHandler, receivedAddressRequest_currentAction, consume_actionHandler, synced.sameAction]
      exact decide_eq_false posted.2
  | rearmed _ => exact watchful.congr rfl rfl
  | reported _ settles => exact (watchful.conclude synced settles).congr (by simp) (by simp)

theorem stimulus (watchful : Watchful left m) (synced : Synced m) {now : ℚ} {s : Stimulus} (later : m.m_now ≤ now)
    (heard : Unheard m (.stimulus now s) → left Action.makeQueryAddressAction.withReport)
    (taken : StimulusCase m now s m') : Watchful left m' := by
  have clock : 1 ≤ now := watchful.clock.trans later
  have woken : ∀ {m₁ : Master}, m₁.m_now = now → m₁.m_actionHandler = m.m_actionHandler → Watchful left m₁ := by
    intro m₁ time handler
    refine ⟨time ▸ clock, ?_, ?_⟩
    · rw [handler]
      exact watchful.timed
    · rw [handler]
      exact watchful.watches
  cases taken with
  | packet _ => exact woken rfl rfl
  | sendPacket => exact woken rfl rfl
  | sendMacUpdate => exact woken rfl rfl
  | timer => exact woken rfl rfl
  | delayBusy busy =>
    refine ⟨clock, watchful.timed, ?_⟩
    intro nothing
    exact absurd (busy.symm.trans nothing) (by rintro ⟨⟩)
  | delayIdle _ => exact startNext clock watchful.timed synced.queuedPosted
  | discovery =>
    refine ⟨clock, ⟨watchful.timed.ordered, watchful.timed.late⟩, ?_⟩
    intro nothing
    obtain ⟨ready, timer⟩ := watchful.watches nothing
    refine ⟨?_, timer⟩
    intro a member
    rcases List.mem_append.mp member with old | new
    · exact ready a old
    · rw [List.mem_singleton.mp new]
      exact heard nothing
  | reordered reorders =>
    refine ⟨clock, ⟨reorders.ordered, fun el member => watchful.timed.late el (reorders.1.mem_iff.mp member)⟩, ?_⟩
    intro nothing
    obtain ⟨ready, timer⟩ := watchful.watches nothing
    refine ⟨ready, ?_⟩
    intro some
    obtain ⟨t, running, early⟩ := timer fun none => some (none ▸ reorders.1).eq_nil
    exact ⟨t, running, fun el member => early el (reorders.1.mem_iff.mp member)⟩

end Watchful

theorem Reach.watchful {left : Action → Prop} {allowed : Master → Label → Prop}
    (heard : ∀ m l, allowed m l → Unheard m l → left Action.makeQueryAddressAction.withReport)
    {cfg : Config} {node : PacketTypeCodec} {uninitialised : Nat → UniqueId} {now : ℚ} (clock : 1 ≤ now)
    {m : Master} (reach : Reach allowed cfg node uninitialised now m) : Watchful left m := by
  refine reach.invariant ⟨clock, ⟨List.Pairwise.nil, by rintro _ ⟨⟩⟩, by rintro ⟨⟩⟩ ?_
  intro m m' l synced watchful ok step
  rcases synced.step_cases step with ⟨_, _, _, _, taken⟩ | ⟨_, _, rfl, _, later, _, taken⟩
  · exact watchful.turn synced taken
  · exact watchful.stimulus synced later (heard _ _ ok) taken

/-- As long as the search for clients falls due only while an action is in progress,
the master never sits on ready work. The clock counts seconds from the epoch. -/
theorem never_sits_on_ready_work (cfg : Config) (node : PacketTypeCodec) (uninitialised : Nat → UniqueId) (now : ℚ)
    (clock : 1 ≤ now) {m : Master} (reach : Reach (fun m l => ¬ Unheard m l) cfg node uninitialised now m)
    (_ : m.m_fsm.m_eventQueue = []) (idle : m.m_actionHandler.m_currentAction.doNothing = true) :
    m.m_actionHandler.m_scheduler.m_ready = [] ∧
    (m.m_actionHandler.m_scheduler.m_waiting ≠ [] →
      ∃ t, m.m_actionHandler.m_delayAction.m_timer = some t ∧
        ∀ el ∈ m.m_actionHandler.m_scheduler.m_waiting, t ≤ el.m_nextTime) := by
  have watchful : Watchful (fun _ => False) m := reach.watchful (fun _ _ heard unheard => heard unheard) clock
  obtain ⟨nothing, timer⟩ := watchful.watches idle
  exact ⟨List.eq_nil_iff_forall_not_mem.mpr nothing, timer⟩

/-- The next token is due ten seconds after the first one timed out, and the timer is
set for it. -/
theorem never_sits_on_ready_work_polled :
    ∃ m, Reach (fun m l => ¬ Unheard m l) {} sampleNode (fun _ => sampleId) 1000 m ∧
      m.m_actionHandler.m_scheduler.m_waiting ≠ [] ∧ m.m_actionHandler.m_scheduler.m_ready = [] ∧
      ∃ t, m.m_actionHandler.m_delayAction.m_timer = some t ∧
        ∀ el ∈ m.m_actionHandler.m_scheduler.m_waiting, t ≤ el.m_nextTime := by
  obtain ⟨m, reach, shown⟩ := reach_of_script (fun m l => ¬ Unheard m l) {} sampleNode (fun _ => sampleId) 1000
    (pollScript ++ missedSearch)
    (fun m => m.m_fsm.m_eventQueue = [] ∧ m.m_actionHandler.m_currentAction.doNothing = true ∧
      m.m_actionHandler.m_scheduler.m_waiting ≠ []) (by decide +kernel)
  obtain ⟨processed, idle, waiting⟩ := of_decide_eq_true shown
  obtain ⟨ready, timer⟩ := never_sits_on_ready_work _ _ _ _ (by norm_num) reach processed idle
  exact ⟨m, reach, waiting, ready, timer waiting⟩

/-- Five seconds later the search for clients is due again. It is put in the ready
queue and left there. -/
theorem discovery_left_in_ready_queue :
    ∃ m, Reach (fun _ _ => True) {} sampleNode (fun _ => sampleId) 1000 m ∧
      m.m_fsm.m_eventQueue = [] ∧ m.m_actionHandler.m_currentAction.doNothing = true ∧
      m.m_actionHandler.m_scheduler.m_ready = [Action.makeQueryAddressAction.withReport] := by
  obtain ⟨m, reach, shown⟩ := reach_of_script (fun _ _ => True) {} sampleNode (fun _ => sampleId) 1000
    (pollScript ++ missedSearch ++ [.stimulus (1005 + 8 / 25) (.discovery (1005 + 8 / 25))])
    (fun m => m.m_fsm.m_eventQueue = [] ∧ m.m_actionHandler.m_currentAction.doNothing = true ∧
      m.m_actionHandler.m_scheduler.m_ready = [Action.makeQueryAddressAction.withReport]) (by decide +kernel)
  exact ⟨m, reach, of_decide_eq_true shown⟩

end Master

end SerialNet
