import SerialNet.StateChart.Transitions

namespace SerialNet

namespace StateChart

variable {σ Event : Type} {b : Behaviour σ Event} {post : Event → Exec σ Event Unit} {m m' : FsmBase σ Event}

/-! An event on its way up -/

/-- The states see the event one after the other, until one has handled it. -/
inductive Bubbles : List StateInfo → List (Entry Event) → Prop
  | handled {s : StateInfo} {rest : List StateInfo} : Bubbles (s :: rest) [.emitted s.m_id true]
  | passed {s : StateInfo} {rest : List StateInfo} {entries : List (Entry Event)} : Bubbles rest entries →
      Bubbles (s :: rest) (.emitted s.m_id false :: entries)
  | unhandled : Bubbles [] []

theorem emitEvent_runs (hosts : Hosts post m) (busy : m.m_eventQueue.empty = false) (id : Int) (ev : Event) :
    Runs (emitEvent b post (some id) ev) m fun handled new m' =>
      new.filter visible = [.emitted id handled] ∧ SameLevels m m' ∧ Remembers m m' := by
  refine .get_bind (.bind ((b.event id ev m.m_user).runs hosts fun idle => ?_) ?_)
  · rw [busy] at idle
    cases idle
  · intro handled new m₁ extend acts
    refine .modify_bind (.log _ rfl rfl fun _ => trivial) (.pure ⟨?_, ?_, acts.remembers⟩)
    · rw [List.filter_append, acts.filter_visible]
      rfl
    · exact ⟨acts.same.frames, acts.same.current, acts.same.next⟩

theorem emitEvents_runs {infos : List StateInfo} {level : Nat} (ev : Event) (hosts : Hosts post m)
    (busy : m.m_eventQueue.empty = false) (stands : Stands m infos infos) (inside : level ≤ infos.length) :
    Runs (emitEvents b post ev level) m fun _ new m' =>
      Bubbles (infos.take level).reverse (new.filter visible) ∧ SameLevels m m' ∧ Remembers m m' := by
  induction level generalizing m with
  | zero => exact .pure ⟨.unhandled, .refl m, .refl m⟩
  | succ level ih =>
    obtain ⟨frame, atLevel, active⟩ := stands.frame level inside
    have found : infos[level]? = some infos[level] := List.getElem?_eq_getElem inside
    generalize infos[level] = s at found
    have object : frame.m_activeState = some s.m_id := by rw [active, found, Option.map_some]
    have path : (infos.take (level + 1)).reverse = s :: (infos.take level).reverse := by
      rw [List.take_add_one, found, Option.toList_some, List.reverse_append]
      rfl
    refine .get_bind ?_
    simp only [atLevel, object]
    refine .bind (emitEvent_runs hosts busy s.m_id ev) ?_
    rintro handled new m₁ extend ⟨seen, same, remembers⟩
    rw [path]
    cases handled with
    | true =>
      refine .pure ⟨?_, same, remembers⟩
      rw [List.append_nil, seen]
      exact .handled
    | false =>
      have busy₁ := extend.empty.trans busy
      have stands₁ := stands.of_same same extend.setup
      refine (ih (hosts.of_extends extend) busy₁ stands₁ (Nat.le_of_succ_le inside)).mono ?_
      rintro _ later m₂ _ ⟨bubbles, same', remembers'⟩
      refine ⟨?_, same.trans same', remembers.trans remembers'⟩
      rw [List.filter_append, seen]
      exact .passed bubbles

/-! One event -/

theorem Between.of_same {new : List (Entry Event)} (between : Between m) (extend : Extends m new m')
    (same : SameLevels m m') (remembers : Remembers m m') : Between m' := by
  refine ⟨?_, ?_, ?_, extend.told between.told, ?_⟩
  · rw [extend.setup]
    exact between.registered
  · rw [same.current]
    exact between.stands.of_same same extend.setup
  · rw [extend.setup, same.current]
    exact between.rooted
  · intro none
    obtain ⟨before, unchanged⟩ := remembers none
    rw [extend.setup, same.current, unchanged]
    exact between.arrived before

/-- A machine in the state that was asked for last, as it is between two events. -/
structure Settled (m : FsmBase σ Event) : Prop where
  between : Between m
  still : m.m_stateUpdate = false

theorem Settled.current_ne_nil (settled : Settled m) : m.m_currentInfos ≠ [] := by
  obtain ⟨s, found, current⟩ := settled.between.arrived settled.still
  intro empty
  have length := settled.between.registered.path_length found
  rw [← current, empty] at length
  cases length

theorem processEvent_runs (ev : Event) (fuel : Nat) (hosts : Hosts post m) (busy : m.m_eventQueue.empty = false)
    (settled : Settled m) :
    Runs (processEvent b post ev fuel) m fun _ new m' =>
      Settled m' ∧ ∃ bubbling settling active transitions,
        new = bubbling ++ (settling ++ [.returns m'.m_currentInfos active]) ∧
        Bubbles m.m_currentInfos.reverse (bubbling.filter visible) ∧
        settling.filter visible = segments m.m_setup transitions := by
  have some : ¬ m.m_currentInfos.length = 0 := by
    rw [List.length_eq_zero_iff]
    exact settled.current_ne_nil
  refine .get_bind ?_
  rw [if_neg some]
  refine .bind (emitEvents_runs ev hosts busy settled.between.stands (Nat.le_refl _)) ?_
  rintro _ bubbling m₁ extend ⟨bubbles, same, remembers⟩
  rw [List.take_length] at bubbles
  have between := settled.between.of_same extend same remembers
  refine (prepareTransition_runs fuel (hosts.of_extends extend) between).mono ?_
  rintro _ _ m₂ _ ⟨between₂, still, settling, active, transitions, rfl, seen⟩
  rw [extend.setup] at seen
  exact ⟨⟨between₂, still⟩, bubbling, settling, active, transitions, rfl, bubbles, seen⟩

/-! Event after event -/

/-- Everything that is seen of one event. -/
structure Block (Event : Type) where
  event : Event
  bubbling : List (Entry Event)
  settling : List (Entry Event)
  infos : List StateInfo
  active : List Bool

def Block.entries (block : Block Event) : List (Entry Event) :=
  .begins block.event :: (block.bubbling ++ (block.settling ++ [.returns block.infos block.active, .ends block.event]))

/-- The event has gone up from the leaf of `start`, and then the machine has gone where it
was asked to go, transition by transition. -/
structure Block.Complete (setup : FsmSetupBase) (start : List StateInfo) (block : Block Event) : Prop where
  bubbles : Bubbles start.reverse (block.bubbling.filter visible)
  settles : ∃ transitions, block.settling.filter visible = segments setup transitions
  arrives : block.infos = ((requests (block.bubbling ++ block.settling)).getLast?).elim start setup.path

/-- Each event is processed to its end before the next one is looked at. -/
def RunsToCompletion (setup : FsmSetupBase) : List StateInfo → List (Block Event) → Prop
  | _, [] => True
  | start, block :: rest => block.Complete setup start ∧ RunsToCompletion setup block.infos rest

def allEntries (blocks : List (Block Event)) : List (Entry Event) := blocks.flatMap Block.entries

/-- A machine that waits for events. -/
structure Resting (m : FsmBase σ Event) : Prop extends Settled m where
  idle : m.m_eventQueue.empty = true

/-- The loop has processed these events, those that were posted on the way included. -/
structure Processes (m : FsmBase σ Event) (blocks : List (Block Event)) (m' : FsmBase σ Event) : Prop where
  resting : Resting m'
  setup : m'.m_setup = m.m_setup
  legal : Legal m → Legal m'
  trace : m'.m_trace = m.m_trace ++ allEntries blocks
  order : blocks.map Block.event = m.m_eventQueue.toList ++ posts (allEntries blocks)
  complete : RunsToCompletion m.m_setup m.m_currentInfos blocks

/-- In an event loop only the number of rounds can be the end of a machine. -/
structure Exhausted (m : FsmBase σ Event) (fault : Fault) (m' : FsmBase σ Event) : Prop where
  fuel : fault = .outOfFuel
  setup : m'.m_setup = m.m_setup
  legal : Legal m → Legal m'

theorem Exhausted.of_stops {fault : Fault} (stops : Stops m fault m') (busy : m.m_eventQueue.empty = false) :
    Exhausted m fault m' := by
  refine ⟨?_, stops.setup, stops.legal⟩
  obtain ⟨_, _, ⟨fuel, _⟩ | ⟨_, idle, _⟩⟩ := stops.reason
  · exact fuel
  · rw [busy] at idle
    cases idle

theorem Exhausted.of_later {m'' : FsmBase σ Event} {fault : Fault} (later : Exhausted m' fault m'')
    (setup : m'.m_setup = m.m_setup) (legal : Legal m → Legal m') : Exhausted m fault m'' :=
  ⟨later.fuel, later.setup.trans setup, fun before => later.legal (legal before)⟩

theorem Settled.log (settled : Settled m) (entry : Entry Event) (noRequest : requests [entry] = []) :
    Settled (m.log entry) := by
  obtain ⟨⟨registered, stands, rooted, told, arrived⟩, still⟩ := settled
  refine ⟨⟨registered, stands.of_same ⟨rfl, rfl, rfl⟩ rfl, rooted, ?_, arrived⟩, still⟩
  change (requests (m.m_trace ++ [entry])).getLast? = some m.m_nextState
  rw [requests_append, noRequest, List.append_nil]
  exact told

/-- One round of the loop. -/
theorem processEvent_block (ev : Event) (fuel : Nat) (hosts : Hosts post m) (busy : m.m_eventQueue.empty = false)
    (settled : Settled m) :
    Runs (processEvent b post ev fuel) (m.log (.begins ev)) fun _ new m' =>
      Settled m' ∧ ∃ block : Block Event, block.event = ev ∧ block.infos = m'.m_currentInfos ∧
        block.entries = .begins ev :: (new ++ [.ends ev]) ∧ block.Complete m.m_setup m.m_currentInfos := by
  have begins : Extends m _ (m.log (.begins ev)) := .log _ rfl rfl fun _ => trivial
  have settled₁ := settled.log (.begins ev) rfl
  refine (processEvent_runs ev fuel (hosts.of_extends begins) (begins.empty.trans busy) settled₁).mono ?_
  rintro _ new m' extend ⟨settled', bubbling, settling, active, transitions, rfl, bubbles, seen⟩
  refine ⟨settled', ⟨ev, bubbling, settling, m'.m_currentInfos, active⟩, rfl, rfl, ?_, bubbles, ⟨_, seen⟩, ?_⟩
  · simp [Block.entries]
  · -- The states after the event are those of the state asked for last, in it or before it.
    obtain ⟨_, _, before⟩ := settled.between.arrived settled.still
    obtain ⟨_, _, after⟩ := settled'.between.arrived settled'.still
    have next := extend.next
    have asked : requests (bubbling ++ (settling ++ [.returns m'.m_currentInfos active])) =
        requests (bubbling ++ settling) := by simp [requests]
    have setup : m'.m_setup = m.m_setup := extend.setup
    rw [asked, List.getLastD_eq_getLast?] at next
    change m'.m_currentInfos = _
    rw [after, setup, next]
    cases (requests (bubbling ++ settling)).getLast? with
    | none => exact before.symm
    | some id => rfl

theorem popEvent_eq (ev : Event) (some : m.m_eventQueue.empty = false) :
    popEvent ev m = .ok () ({ m with m_eventQueue := m.m_eventQueue.pop some }.log (.ends ev)) := by
  rw [popEvent, EStateM.get_bind, dif_pos some]
  rfl

theorem Settled.requeue (settled : Settled m) (queue : VecQueue Event) : Settled { m with m_eventQueue := queue } := by
  obtain ⟨⟨registered, stands, rooted, told, arrived⟩, still⟩ := settled
  exact ⟨⟨registered, stands.of_same ⟨rfl, rfl, rfl⟩ rfl, rooted, told, arrived⟩, still⟩

theorem Settled.popped (settled : Settled m) (ev : Event) (some : m.m_eventQueue.empty = false) :
    Settled ({ m with m_eventQueue := m.m_eventQueue.pop some }.log (.ends ev)) := by
  have shorter := settled.requeue (m.m_eventQueue.pop some)
  exact shorter.log (.ends ev) rfl

theorem Processes.cons {m₁ m₂ m₃ : FsmBase σ Event} {new : List (Entry Event)} {block : Block Event}
    {blocks : List (Block Event)} {rest : List Event} (waiting : m.m_eventQueue.toList = block.event :: rest)
    (begins : Extends m [.begins block.event] m₁) (extend : Extends m₁ new m₂)
    (some : m₂.m_eventQueue.empty = false) (infos : block.infos = m₂.m_currentInfos)
    (entries : block.entries = .begins block.event :: (new ++ [.ends block.event]))
    (complete : block.Complete m.m_setup m.m_currentInfos)
    (later : Processes ({ m₂ with m_eventQueue := m₂.m_eventQueue.pop some }.log (.ends block.event)) blocks m₃) :
    Processes m (block :: blocks) m₃ := by
  have both := begins.trans extend
  have here : posts block.entries = posts new := by rw [entries]; simp [posts]
  refine ⟨later.resting, later.setup.trans both.setup, ?_, ?_, ?_, complete, ?_⟩
  · intro legal
    have legal₂ := both.legal legal
    exact later.legal (legal₂.concat trivial)
  · rw [later.trace]
    change m₂.m_trace ++ [.ends block.event] ++ _ = _
    rw [both.trace, allEntries, allEntries, List.flatMap_cons, entries]
    simp
  · have queue := both.toList
    rw [waiting] at queue
    rw [List.map_cons, later.order]
    change block.event :: ((m₂.m_eventQueue.pop some).toList ++ _) = _
    rw [VecQueue.toList_pop, queue, waiting, allEntries, allEntries, List.flatMap_cons, posts_append block.entries,
      here, ← List.append_assoc]
    rfl
  · have setup : m₂.m_setup = m.m_setup := both.setup
    rw [infos, ← setup]
    exact later.complete

theorem processEvents_wp (fuel : Nat) (queues : Queues post) (settled : Settled m) :
    EStateM.Wp (processEvents b post fuel) (fun _ m' => ∃ blocks, Processes m blocks m') (Exhausted m) m := by
  induction fuel generalizing m with
  | zero => exact ⟨rfl, rfl, id⟩
  | succ fuel ih =>
    change EStateM.Wp (if m.m_eventQueue.empty = true then _ else _) _ _ m
    cases busy : m.m_eventQueue.empty with
    | true =>
      rw [if_pos rfl]
      refine ⟨[], ⟨settled, busy⟩, rfl, id, (List.append_nil _).symm, ?_, trivial⟩
      rw [VecQueue.empty_iff.mp busy]
      rfl
    | false =>
      rw [if_neg (by decide)]
      have hosts : Hosts post m := ⟨fun _ => queues, fun idle => absurd (busy.symm.trans idle) (by decide)⟩
      cases waiting : m.m_eventQueue.toList with
      | nil =>
        rw [← VecQueue.empty_iff, busy] at waiting
        cases waiting
      | cons ev rest =>
        have front : m.m_eventQueue.front = some ev := by rw [VecQueue.front_eq, waiting, List.head?_cons]
        have begins : Extends m [.begins ev] (m.log (.begins ev)) := .log _ rfl rfl fun _ => trivial
        simp only [front]
        have round := processEvent_block (b := b) ev fuel hosts busy settled
        refine EStateM.Wp.bind_iff.mpr (EStateM.Wp.bind_iff.mpr (EStateM.Wp.mono round ?_ ?_))
        · rintro _ m₂ ⟨new, extend, settled₂, block, rfl, infos, entries, complete⟩
          have some := (begins.trans extend).empty.trans busy
          refine EStateM.Wp.bind_iff.mpr (.of_run (popEvent_eq block.event some) ?_)
          refine (ih (settled₂.popped block.event some)).mono ?_ ?_
          · rintro _ m₃ ⟨blocks, later⟩
            exact ⟨block :: blocks, .cons waiting begins extend some infos entries complete later⟩
          · intro fault m₃ later
            refine later.of_later (begins.trans extend).setup ?_
            exact fun legal => ((begins.trans extend).legal legal).concat trivial
        · intro fault m₂ stops
          exact (Exhausted.of_stops stops (begins.empty.trans busy)).of_later begins.setup begins.legal

end StateChart

end SerialNet
