import SerialNet.Master.Chart

namespace SerialNet

namespace Master

open StateChart (FsmBase Exec Queues)

/-! A turn of the master is a round of the loop -/

theorem emitEvent_state {m m' : Master} {rxInProgress : Bool} {ev : Event}
    (run : m.emitEvent rxInProgress ev = .ok m') : m'.m_fsm.m_state = m.m_fsm.m_state := by
  have again := emitEvent_amid m [] [] rxInProgress ev
  rw [amid_self, run] at again
  exact congrArg (·.m_fsm.m_state) (Except.ok.inj again)

theorem exitState_state {m m' : Master} (run : m.exitState = .ok m') : m'.m_fsm.m_state = m.m_fsm.m_state := by
  have again := exitState_amid m [] []
  rw [amid_self, run] at again
  exact congrArg (·.m_fsm.m_state) (Except.ok.inj again)

/-- The master on its own: nothing waits and nothing has been sent. -/
def alone (m : Master) : Master :=
  { m with m_fsm := { m.m_fsm with m_nextState := none, m_eventQueue := [] }, m_out := [] }

theorem alone_amid (m : Master) (settled : m.m_fsm.m_nextState = none) :
    m.alone.amid m.m_fsm.m_state m.m_fsm.m_eventQueue m.m_out = m := by
  obtain ⟨now, node, ⟨state, object, next, events, timer, action⟩, handler, dynamic, log, out⟩ := m
  subst settled
  simp only [alone, amid, List.append_nil]

theorem bare_within (m : Master) : m.bare.within m.m_fsm.m_state = m.alone.amid m.m_fsm.m_state [] m.m_out := by
  simp only [bare, within, alone, amid, List.append_nil, List.nil_append]

/-- Leaving a state and entering another one, with events that wait and packets that have been
sent before. -/
theorem settles_prepareTransition (e : Master) (waiting : List Event) (sent : List Effect) :
    ∃ p new, (e.amid e.m_fsm.m_state waiting []).prepareTransition = .ok p ∧ p.m_fsm.m_nextState = none ∧
      p.m_fsm.m_eventQueue = waiting ++ e.m_fsm.m_eventQueue ++ new ∧
      settles e.m_fsm.m_state (.ok (e.amid e.m_fsm.m_state [] sent).bare) e.m_fsm.m_nextState =
        (p.m_fsm.m_state, .ok (bare { p with m_out := sent ++ p.m_out }), new) := by
  cases next : e.m_fsm.m_nextState with
  | none =>
    refine ⟨e.amid e.m_fsm.m_state waiting [], [], ?_, next, (List.append_nil _).symm, rfl⟩
    unfold prepareTransition
    have none : (e.amid e.m_fsm.m_state waiting []).m_fsm.m_nextState = none := next
    rw [none]
  | some t =>
    have asks : (e.amid e.m_fsm.m_state waiting []).m_fsm.m_nextState = some t := next
    have leaves : { e.amid e.m_fsm.m_state waiting [] with
        m_fsm := { (e.amid e.m_fsm.m_state waiting []).m_fsm with m_nextState := none } } =
        e.alone.amid e.alone.m_fsm.m_state (waiting ++ e.m_fsm.m_eventQueue) e.m_out := by
      simp only [amid, alone, List.append_nil, List.nil_append]
    have found : (e.amid e.m_fsm.m_state [] sent).bare.within e.m_fsm.m_state =
        e.alone.amid e.alone.m_fsm.m_state [] (sent ++ e.m_out) := by
      simp only [bare, within, alone, amid, List.append_nil, List.nil_append]
    cases exit : e.alone.exitState with
    | error fault =>
      refine absurd ?_ (prepareTransition_error (m := e.amid e.m_fsm.m_state waiting []) (f := fault))
      unfold prepareTransition
      rw [asks]
      dsimp only
      rw [leaves, exitState_amid, exit]
      rfl
    | ok x =>
      have state := exitState_state exit
      have still : x.m_fsm.m_nextState = none := exitState_next exit
      have entered := enterState_amid x e.m_fsm.m_state (waiting ++ e.m_fsm.m_eventQueue) e.m_out t
      have bareEntered := enterState_amid x.alone .idle [] (sent ++ e.m_out ++ x.m_out) t
      have whole := enterState_amid x.alone x.m_fsm.m_state x.m_fsm.m_eventQueue x.m_out t
      rw [alone_amid x still] at whole
      have exited : exits e.m_fsm.m_state (.ok (e.amid e.m_fsm.m_state [] sent).bare) =
          .ok (x.amid e.m_fsm.m_state [] (sent ++ e.m_out)) := by
        change ((e.amid e.m_fsm.m_state [] sent).bare.within e.m_fsm.m_state).exitState = _
        rw [found, exitState_amid, exit]
        rfl
      have found' : (x.amid e.m_fsm.m_state [] (sent ++ e.m_out)).bare =
          x.alone.amid .idle [] (sent ++ e.m_out ++ x.m_out) := by
        simp only [bare, alone, amid, List.append_nil, List.nil_append]
      refine ⟨(x.enterState t).amid t (waiting ++ e.m_fsm.m_eventQueue) e.m_out, x.m_fsm.m_eventQueue, ?_, ?_, ?_, ?_⟩
      · unfold prepareTransition
        rw [asks]
        dsimp only
        rw [leaves, exitState_amid, exit]
        exact congrArg Except.ok entered
      · exact (congrArg (·.m_fsm.m_nextState) whole).trans (enterState_next x.alone t)
      · change waiting ++ e.m_fsm.m_eventQueue ++ (x.enterState t).m_fsm.m_eventQueue = _
        rw [enterState_eventQueue]
      · rw [settles, exited]
        change (t, Except.ok ((x.amid e.m_fsm.m_state [] (sent ++ e.m_out)).bare.enterState t).bare,
          x.m_fsm.m_eventQueue) = _
        rw [found', bareEntered, whole]
        simp only [bare, amid, List.append_assoc]

theorem answers_turn {m : Master} (rxInProgress : Bool) {ev : Event} {rest : List Event}
    (settled : m.m_fsm.m_nextState = none) (events : m.m_fsm.m_eventQueue = ev :: rest) :
    (∀ fault, m.turn rxInProgress = .error fault →
      (answers rxInProgress m.m_fsm.m_state ev (.ok m.bare)).2 = (.error fault, [])) ∧
    ∀ m', m.turn rxInProgress = .ok m' → m'.m_fsm.m_nextState = none ∧ ∃ new, m'.m_fsm.m_eventQueue = rest ++ new ∧
      answers rxInProgress m.m_fsm.m_state ev (.ok m.bare) =
        (m'.m_fsm.m_state, .ok (bare { m' with m_out := m.m_out ++ m'.m_out }), new) := by
  have start : { m with m_out := [] } = m.alone.amid m.m_fsm.m_state (ev :: rest) [] := by
    rw [← events]
    have whole : alone { m with m_out := [] } = m.alone := rfl
    rw [← whole]
    exact (alone_amid { m with m_out := [] } settled).symm
  have same : m.alone.m_fsm.m_state = m.m_fsm.m_state := rfl
  have byTurn : m.turn rxInProgress = (do
      let processed ← (m.alone.amid m.m_fsm.m_state (ev :: rest) []).processEvent rxInProgress ev
      .ok processed.popEvent) := by
    rw [turn, events, ← start]
  have byChart : emits rxInProgress m.m_fsm.m_state ev (.ok m.bare) =
      (m.alone.emitEvent rxInProgress ev).map (·.amid m.m_fsm.m_state [] m.m_out) := by
    change (m.bare.within m.m_fsm.m_state).emitEvent rxInProgress ev = _
    rw [bare_within]
    exact emitEvent_amid m.alone [] m.m_out rxInProgress ev
  have byMaster : (m.alone.amid m.m_fsm.m_state (ev :: rest) []).emitEvent rxInProgress ev =
      (m.alone.emitEvent rxInProgress ev).map (·.amid m.m_fsm.m_state (ev :: rest) []) :=
    emitEvent_amid m.alone (ev :: rest) [] rxInProgress ev
  unfold processEvent at byTurn
  rw [byMaster] at byTurn
  unfold answers
  rw [byChart]
  cases emit : m.alone.emitEvent rxInProgress ev with
  | error fault =>
    rw [emit] at byTurn
    refine ⟨?_, ?_⟩
    · intro fault' run
      cases byTurn.symm.trans run
      rfl
    · intro m' run
      cases byTurn.symm.trans run
  | ok e =>
    rw [emit] at byTurn
    have state := emitEvent_state emit
    rw [same] at state
    obtain ⟨p, new, prepare, next, queue, settled'⟩ := settles_prepareTransition e (ev :: rest) m.m_out
    rw [state] at prepare settled'
    have byTurn : m.turn rxInProgress = .ok p.popEvent := by
      rw [byTurn]
      change ((e.amid m.m_fsm.m_state (ev :: rest) []).prepareTransition >>= fun p => .ok p.popEvent) = _
      rw [prepare]
      rfl
    refine ⟨?_, ?_⟩
    · intro fault run
      cases byTurn.symm.trans run
    · intro m' run
      cases byTurn.symm.trans run
      refine ⟨next, e.m_fsm.m_eventQueue ++ new, ?_, ?_⟩
      · change p.m_fsm.m_eventQueue.tail = _
        rw [queue, List.append_assoc]
        rfl
      · change ((settles m.m_fsm.m_state (.ok (e.amid m.m_fsm.m_state [] m.m_out).bare) e.m_fsm.m_nextState).1,
          (settles m.m_fsm.m_state (.ok (e.amid m.m_fsm.m_state [] m.m_out).bare) e.m_fsm.m_nextState).2.1,
          e.m_fsm.m_eventQueue ++
            (settles m.m_fsm.m_state (.ok (e.amid m.m_fsm.m_state [] m.m_out).bare) e.m_fsm.m_nextState).2.2) = _
        rw [settled']
        rfl

/-! A callback -/

/-- The turns that follow, with all that they send. -/
def drain (rxInProgress : Bool) : Nat → Master → Except Fault Master
  | 0, m => .ok m
  | rounds + 1, m =>
    if m.m_fsm.m_eventQueue = [] then .ok m
    else do
      let m' ← m.turn rxInProgress
      drain rxInProgress rounds { m' with m_out := m.m_out ++ m'.m_out }

/-- Some code of the master, and as many turns as there can be. -/
def respond (rxInProgress : Bool) (code : Master → Except Fault Master) (m : Master) : Except Fault Master := do
  let m' ← code m
  drain rxInProgress (m'.due + 1) m'

/-- The state chart is where the master is. -/
structure Represents (size : StateId → Nat) (c : FsmBase Data Event) (m : Master) : Prop
    extends Stands size c m.m_fsm.m_state (.ok m.bare) m.m_fsm.m_eventQueue none where
  settled : m.m_fsm.m_nextState = none

/-- The state chart waits for events where the master does, or has been stopped as it was. -/
def Agrees (size : StateId → Nat) (c : FsmBase Data Event) : Except Fault Master → Prop
  | .error fault => ∃ s, Stands size c s (.error fault) [] none
  | .ok m => m.m_fsm.m_eventQueue = [] ∧ Represents size c m

variable {size : StateId → Nat} {c : FsmBase Data Event} {m : Master} {rxInProgress : Bool}

theorem Synced.sends (synced : Synced m) (out : List Effect) : Synced { m with m_out := out } :=
  ⟨synced.registered, synced.settled, synced.sameAction, synced.queuedPosted, synced.currentPosted, synced.single,
    synced.fresh, synced.fits⟩

theorem turn_sends (busy : m.m_fsm.m_eventQueue ≠ []) (rxInProgress : Bool) (out : List Effect) :
    turn { m with m_out := out } rxInProgress = m.turn rxInProgress := by
  unfold turn
  cases events : m.m_fsm.m_eventQueue with
  | nil => exact absurd events busy
  | cons ev rest => rfl

theorem processEvents_nil {s : StateId} {d : Data} (stands : Stands size c s d [] none)
    (post : Event → Exec Data Event Unit) (fuel : Nat) :
    StateChart.processEvents (behaviour rxInProgress) post (fuel + 1) c = .ok () c := by
  have none : c.m_eventQueue.empty = true := VecQueue.empty_iff.mpr stands.queue
  rw [StateChart.processEvents, EStateM.get_bind, none]
  rfl

theorem processEvents_drain (rxInProgress : Bool) {rounds : Nat} (synced : Synced m) (represents : Represents size c m)
    (enough : m.m_fsm.m_eventQueue = [] ∨ m.due < rounds) :
    ∃ c', (∀ post, Queues post → ∀ fuel,
        StateChart.processEvents (behaviour rxInProgress) post (fuel + rounds + 4) c = .ok () c') ∧
      Agrees size c' (drain rxInProgress rounds m) := by
  induction rounds generalizing c m with
  | zero =>
    rcases enough with empty | impossible
    · have stands := represents.toStands
      rw [empty] at stands
      exact ⟨c, fun post _ fuel => processEvents_nil stands post (fuel + 3), empty, represents⟩
    · omega
  | succ rounds ih =>
    cases events : m.m_fsm.m_eventQueue with
    | nil =>
      have stands := represents.toStands
      rw [events] at stands
      refine ⟨c, fun post _ fuel => processEvents_nil stands post (fuel + rounds + 4), ?_⟩
      rw [drain, if_pos events]
      exact ⟨events, represents⟩
    | cons ev rest =>
      have busy : m.m_fsm.m_eventQueue ≠ [] := by rw [events]; exact List.cons_ne_nil _ _
      have stands := represents.toStands
      rw [events] at stands
      obtain ⟨c₁, round, stands₁⟩ := processEvents_round rxInProgress stands
      obtain ⟨stops, goes⟩ := answers_turn rxInProgress represents.settled events
      have single := synced.single
      rw [events, List.length_cons] at single
      have last : rest = [] := List.length_eq_zero_iff.mp (by omega)
      rw [drain, if_neg busy]
      cases run : m.turn rxInProgress with
      | error fault =>
        have stopped := stops fault run
        rw [stopped, last] at stands₁
        refine ⟨c₁, ?_, _, stands₁⟩
        intro post queues fuel
        exact (round post queues (fuel + rounds + 1)).trans (processEvents_nil stands₁ post (fuel + rounds + 3))
      | ok m' =>
        obtain ⟨next, new, queue, answered⟩ := goes m' run
        rw [answered, ← queue] at stands₁
        have step : Step m (.turn rxInProgress) m' := .turn busy run
        have represents₁ : Represents size c₁ { m' with m_out := m.m_out ++ m'.m_out } := ⟨stands₁, next⟩
        have enough₁ : m'.m_fsm.m_eventQueue = [] ∨ m'.due < rounds := by
          rcases synced.step_cases step with ⟨_, _, label, single, taken⟩ | ⟨_, _, label, _⟩
          · cases label
            rcases taken.due single with none | ⟨_, less⟩
            · exact Or.inl none
            · right
              rcases enough with none | enough
              · exact absurd none busy
              · omega
          · cases label
        obtain ⟨c', later, agrees⟩ := ih ((synced.step step).sends _) represents₁ enough₁
        refine ⟨c', ?_, agrees⟩
        intro post queues fuel
        exact (round post queues (fuel + rounds + 1)).trans (later post queues fuel)

/-- Code that does not look at the state machine. -/
def Blind (code : Master → Except Fault Master) : Prop :=
  ∀ m s, code (m.within s) = (code m).map (·.within s)

theorem perform_run (rxInProgress : Bool) {code : Master → Except Fault Master} (blind : Blind code)
    (represents : Represents size c m) (empty : m.m_fsm.m_eventQueue = []) (after : ∀ m', code m = .ok m' → Synced m') :
    ∃ c', Ends (perform rxInProgress code) c c' ∧ Agrees size c' (respond rxInProgress code m) := by
  have stands := represents.toStands
  rw [empty] at stands
  have whole : m.bare = m.within .idle := by
    obtain ⟨now, node, ⟨state, object, next, events, timer, action⟩, handler, dynamic, log, out⟩ := m
    cases empty
    cases represents.settled
    rfl
  have user : c.m_user.bind code = (code m).map (·.within .idle) := by
    rw [stands.user, ← blind, ← whole]
    rfl
  have performed : ∀ fuel, perform rxInProgress code fuel c =
      (program () ((code m).map (·.within .idle))).run (StateChart.postEvent (behaviour rxInProgress) fuel) c := by
    intro fuel
    rw [← user]
    rfl
  unfold respond
  cases run : code m with
  | error fault =>
    rw [run] at performed
    refine ⟨{ c with m_user := .error fault }, ⟨0, fun fuel _ => performed fuel⟩, m.m_fsm.m_state, ?_⟩
    exact ⟨⟨stands.setup, rfl, stands.queue, stands.update, stands.next⟩, stands.frames, stands.current⟩
  | ok m' =>
    rw [run] at performed
    have synced := after m' run
    have state : m'.m_fsm.m_state = m.m_fsm.m_state := by
      have again := blind m m.m_fsm.m_state
      have same : m.within m.m_fsm.m_state = m := amid_self m
      rw [same, run] at again
      exact congrArg (·.m_fsm.m_state) (Except.ok.inj again)
    have stands₀ : Stands size { c with m_user := .ok m'.bare } m'.m_fsm.m_state (.ok m'.bare) [] none := by
      rw [state]
      exact ⟨⟨stands.setup, rfl, stands.queue, stands.update, stands.next⟩, stands.frames, stands.current⟩
    have code' : program () (.ok (m'.within .idle)) = posting m'.m_fsm.m_eventQueue (.ok m'.bare) (leaving () none) :=
      congrArg (fun next => posting m'.m_fsm.m_eventQueue (.ok m'.bare) (leaving () next)) synced.settled
    have performed' : ∀ fuel, perform rxInProgress code fuel c =
        (posting m'.m_fsm.m_eventQueue (.ok m'.bare) (leaving () none)).run
          (StateChart.postEvent (behaviour rxInProgress) fuel) c := by
      intro fuel
      rw [performed, ← code']
      rfl
    cases events : m'.m_fsm.m_eventQueue with
    | nil =>
      rw [events] at performed'
      refine ⟨{ c with m_user := .ok m'.bare }, ⟨0, fun fuel _ => performed' fuel⟩, ?_⟩
      have quiet : drain rxInProgress (m'.due + 1) m' = .ok m' := by rw [drain, if_pos events]
      change Agrees size _ (drain rxInProgress (m'.due + 1) m')
      rw [quiet]
      refine ⟨events, ?_, synced.settled⟩
      rw [events]
      exact stands₀
    | cons ev rest =>
      have single := synced.single
      rw [events, List.length_cons] at single
      have last : rest = [] := List.length_eq_zero_iff.mp (by omega)
      subst last
      rw [events] at performed'
      let started : FsmBase Data Event := { c with m_user := .ok m'.bare }
      have idle : started.m_eventQueue.empty = true := VecQueue.empty_iff.mpr stands.queue
      have represents' : Represents size (started.push ev) m' := by
        refine ⟨⟨⟨stands₀.setup, stands₀.user, ?_, stands₀.update, stands₀.next⟩, stands₀.frames, stands₀.current⟩,
          synced.settled⟩
        rw [events]
        exact StateChart.push_front idle ev
      obtain ⟨c', drained, agrees⟩ :=
        processEvents_drain rxInProgress synced represents' (Or.inr (Nat.lt_succ_self m'.due))
      refine ⟨c', ⟨m'.due + 5, ?_⟩, agrees⟩
      intro fuel large
      obtain ⟨extra, rfl⟩ : ∃ extra, fuel = extra + (m'.due + 1) + 3 + 1 := ⟨fuel - (m'.due + 5), by omega⟩
      have outer : StateChart.postEvent (behaviour rxInProgress) (extra + (m'.due + 1) + 3 + 1) ev started =
          .ok () c' :=
        (StateChart.postEvent_idle _ idle ev).trans (drained _ (StateChart.postEvent_queues _) extra)
      rw [performed']
      exact EStateM.bind_of_ok outer

/-! Runs -/

section Runs

variable {cfg : Config} {node : PacketTypeCodec} {uninitialised : Nat → UniqueId} {now : ℚ}

/-- A reachable master, but for what it has sent. -/
def Reached (cfg : Config) (node : PacketTypeCodec) (uninitialised : Nat → UniqueId) (now : ℚ) (m : Master) : Prop :=
  ∃ out, Reach (fun _ _ => True) cfg node uninitialised now { m with m_out := out }

theorem Reached.synced (reached : Reached cfg node uninitialised now m) : Synced m := by
  obtain ⟨out, reach⟩ := reached
  exact reach.synced.sends m.m_out

theorem Reached.step {l : Label} {m' : Master} (reached : Reached cfg node uninitialised now m)
    (step : ∀ out, Step { m with m_out := out } l m') : Reached cfg node uninitialised now m' := by
  obtain ⟨out, m₀, constructed, reach⟩ := reached
  exact ⟨m'.m_out, m₀, constructed, .next reach trivial (step out)⟩

/-- Where a callback was stopped. -/
def Stopped (cfg : Config) (node : PacketTypeCodec) (uninitialised : Nat → UniqueId) (now : ℚ) (fault : Fault) : Prop :=
  ∃ m, Reached cfg node uninitialised now m ∧ ((∃ rxInProgress, m.turn rxInProgress = .error fault) ∨
    ∃ later s, m.m_fsm.m_eventQueue = [] ∧ m.m_now ≤ later ∧ m.Enabled s ∧ m.stimulate later s = .error fault)

theorem Reached.drain (reached : Reached cfg node uninitialised now m) (rxInProgress : Bool) (rounds : Nat) :
    (∀ m', Master.drain rxInProgress rounds m = .ok m' → Reached cfg node uninitialised now m') ∧
      ∀ fault, Master.drain rxInProgress rounds m = .error fault → Stopped cfg node uninitialised now fault := by
  induction rounds generalizing m with
  | zero =>
    refine ⟨?_, ?_⟩
    · rintro m' ⟨⟩
      exact reached
    · rintro fault ⟨⟩
  | succ rounds ih =>
    rw [Master.drain]
    split
    · refine ⟨?_, ?_⟩
      · rintro m' ⟨⟩
        exact reached
      · rintro fault ⟨⟩
    · rename_i busy
      cases run : m.turn rxInProgress with
      | error fault =>
        refine ⟨?_, ?_⟩
        · rintro m' ⟨⟩
        · rintro _ ⟨⟩
          exact ⟨m, reached, Or.inl ⟨rxInProgress, run⟩⟩
      | ok m₁ =>
        have step : ∀ out, Step { m with m_out := out } (.turn rxInProgress) m₁ :=
          fun out => .turn busy ((turn_sends busy rxInProgress out).trans run)
        obtain ⟨out, reach⟩ := reached.step step
        have sent : Reached cfg node uninitialised now { m₁ with m_out := m.m_out ++ m₁.m_out } := ⟨out, reach⟩
        exact ih sent

/-- What the state chart of a master can come to, callback after callback. -/
inductive ChartReach (size : StateId → Nat) (cfg : Config) (node : PacketTypeCodec) (uninitialised : Nat → UniqueId)
    (now : ℚ) : FsmBase Data Event → Prop
  | boot {rxInProgress : Bool} {c : FsmBase Data Event} :
      Ends (boot rxInProgress) (made size cfg node uninitialised now) c → ChartReach size cfg node uninitialised now c
  | callback {rxInProgress : Bool} {c c' : FsmBase Data Event} {m : Master} {later : ℚ} {s : Stimulus} :
      ChartReach size cfg node uninitialised now c → c.m_user = .ok m → m.m_now ≤ later → m.Enabled s →
      Ends (callback rxInProgress later s) c c' → ChartReach size cfg node uninitialised now c'

theorem checkNewAction_blind : Blind checkNewAction := fun m s => checkNewAction_amid m s [] []

theorem stimulate_blind (later : ℚ) (s : Stimulus) : Blind (·.stimulate later s) :=
  fun m state => stimulate_amid m state [] [] later s

theorem boot_ends (size : StateId → Nat) (cfg : Config) (node : PacketTypeCodec) (uninitialised : Nat → UniqueId)
    (now : ℚ) (rxInProgress : Bool) :
    ∃ c, Ends (boot rxInProgress) (made size cfg node uninitialised now) c ∧
      Agrees size c (respond rxInProgress checkNewAction (setup cfg node uninitialised now)) := by
  have fsm : (setup cfg node uninitialised now).m_fsm =
      ⟨.idle, 1, none, [], .unset, Action.makeDoNothingAction⟩ := (foldl_dynamicCall_frame _ _).1
  obtain ⟨c₀, begins, stands⟩ := setStartState_run size rxInProgress .idle
    (d := .ok { (setup cfg node uninitialised now).bare with
      m_fsm := { (setup cfg node uninitialised now).bare.m_fsm with m_object := 0 } }) rfl rfl
  have represents : Represents size c₀ (setup cfg node uninitialised now) := by
    generalize setup cfg node uninitialised now = m at fsm stands
    obtain ⟨_, _, _, _, _, _, _⟩ := m
    subst fsm
    exact ⟨stands, rfl⟩
  obtain ⟨c, ⟨enough, run⟩, agrees⟩ := perform_run rxInProgress checkNewAction_blind represents
    (by rw [fsm]) (by
      intro m' started
      have same := start_eq cfg node uninitialised now
      rw [start, started] at same
      cases same
      exact started_synced cfg node uninitialised now)
  refine ⟨c, ⟨enough + 3, ?_⟩, agrees⟩
  intro fuel large
  obtain ⟨extra, rfl⟩ : ∃ extra, fuel = extra + 3 := ⟨fuel - 3, by omega⟩
  exact (EStateM.bind_of_ok (begins extra)).trans (run _ (by omega))

/-- Waiting for events, as a reachable master does. -/
def Waits (size : StateId → Nat) (cfg : Config) (node : PacketTypeCodec) (uninitialised : Nat → UniqueId) (now : ℚ)
    (c : FsmBase Data Event) (m : Master) : Prop :=
  Reached cfg node uninitialised now m ∧ m.m_fsm.m_eventQueue = [] ∧ Represents size c m

theorem Agrees.outcome {code : Master → Except Fault Master} (agrees : Agrees size c (respond rxInProgress code m))
    (reached : ∀ m', code m = .ok m' → Reached cfg node uninitialised now m')
    (stopped : ∀ fault, code m = .error fault → Stopped cfg node uninitialised now fault) :
    (∃ m', Waits size cfg node uninitialised now c m') ∨
      ∃ s fault, Stands size c s (.error fault) [] none ∧ Stopped cfg node uninitialised now fault := by
  unfold respond at agrees
  cases run : code m with
  | error fault =>
    rw [run] at agrees
    obtain ⟨s, stands⟩ := agrees
    exact Or.inr ⟨s, fault, stands, stopped fault run⟩
  | ok m₁ =>
    rw [run] at agrees
    obtain ⟨goes, stops⟩ := (reached m₁ run).drain rxInProgress (m₁.due + 1)
    change Agrees size c (Master.drain rxInProgress (m₁.due + 1) m₁) at agrees
    cases drained : Master.drain rxInProgress (m₁.due + 1) m₁ with
    | error fault =>
      rw [drained] at agrees
      obtain ⟨s, stands⟩ := agrees
      exact Or.inr ⟨s, fault, stands, stops fault drained⟩
    | ok m' =>
      rw [drained] at agrees
      exact Or.inl ⟨m', goes m' drained, agrees⟩

theorem Waits.callback (waits : Waits size cfg node uninitialised now c m) (rxInProgress : Bool) {later : ℚ}
    {s : Stimulus} (inTime : m.m_now ≤ later) (enabled : m.Enabled s) :
    ∃ c', Ends (callback rxInProgress later s) c c' ∧
      Agrees size c' (respond rxInProgress (·.stimulate later s) m) := by
  obtain ⟨reached, empty, represents⟩ := waits
  refine perform_run rxInProgress (stimulate_blind later s) represents empty ?_
  intro m' run
  exact reached.synced.step (.stimulus empty inTime enabled run)

theorem Waits.outcome (waits : Waits size cfg node uninitialised now c m) {later : ℚ} {s : Stimulus}
    (inTime : m.m_now ≤ later) (enabled : m.Enabled s) {c' : FsmBase Data Event}
    (agrees : Agrees size c' (respond rxInProgress (·.stimulate later s) m)) :
    (∃ m', Waits size cfg node uninitialised now c' m') ∨
      ∃ s fault, Stands size c' s (.error fault) [] none ∧ Stopped cfg node uninitialised now fault := by
  obtain ⟨reached, empty, _⟩ := waits
  refine agrees.outcome ?_ fun fault run => ⟨m, reached, Or.inr ⟨later, s, empty, inTime, enabled, run⟩⟩
  intro m' run
  exact reached.step fun _ => .stimulus empty inTime enabled run

theorem ChartReach.outcome (reach : ChartReach size cfg node uninitialised now c) :
    (∃ m, Waits size cfg node uninitialised now c m) ∨
      ∃ s fault, Stands size c s (.error fault) [] none ∧ Stopped cfg node uninitialised now fault := by
  induction reach with
  | @boot rxInProgress c ends =>
    obtain ⟨c', ends', agrees⟩ := boot_ends size cfg node uninitialised now rxInProgress
    cases ends.unique ends'
    have constructed := start_eq cfg node uninitialised now
    refine agrees.outcome ?_ ?_
    · intro m' run
      exact ⟨m'.m_out, m', run, .start⟩
    · intro fault run
      rw [start, run] at constructed
      cases constructed
  | @callback rxInProgress c c' m later s _ user inTime enabled ends ih =>
    rcases ih with ⟨m₁, waits⟩ | ⟨state, fault, stands, _⟩
    · have same : m = m₁.bare := Except.ok.inj (user.symm.trans waits.2.2.user)
      subst same
      have enabled₁ : m₁.Enabled s := by cases s <;> exact enabled
      obtain ⟨c'', ends', agrees⟩ := waits.callback rxInProgress inTime enabled₁
      cases ends.unique ends'
      exact waits.outcome inTime enabled₁ agrees
    · cases user.symm.trans stands.user

/-- The state chart with the six states of `MasterFSM` does what the master does turn by
turn. In every run its constructor and each callback come to their end, however deep events
are posted from handlers and destructors. The chart is then in the state the master is in,
with the same data and with the same packets sent, in the same order; or an assertion
has failed, as it does where a reachable master is. -/
theorem state_chart_refines (size : StateId → Nat) (cfg : Config) (node : PacketTypeCodec)
    (uninitialised : Nat → UniqueId) (now : ℚ) :
    (∀ rxInProgress, ∃ c, Ends (boot rxInProgress) (made size cfg node uninitialised now) c) ∧
    ∀ c, ChartReach size cfg node uninitialised now c →
      (∃ m, Waits size cfg node uninitialised now c m ∧ ∀ rxInProgress later s, m.m_now ≤ later → m.Enabled s →
        ∃ c', Ends (callback rxInProgress later s) c c' ∧
          Agrees size c' (respond rxInProgress (·.stimulate later s) m)) ∨
      ∃ s fault, Stands size c s (.error fault) [] none ∧ Stopped cfg node uninitialised now fault := by
  refine ⟨?_, ?_⟩
  · intro rxInProgress
    obtain ⟨c, ends, _⟩ := boot_ends size cfg node uninitialised now rxInProgress
    exact ⟨c, ends⟩
  · intro c reach
    rcases reach.outcome with ⟨m, waits⟩ | stopped
    · exact Or.inl ⟨m, waits, fun rxInProgress _ _ inTime enabled => waits.callback rxInProgress inTime enabled⟩
    · exact Or.inr stopped

end Runs

end Master

end SerialNet
