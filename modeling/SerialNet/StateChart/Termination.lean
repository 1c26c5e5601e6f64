import SerialNet.StateChart.LifeCycle

namespace SerialNet

namespace StateChart

variable {σ Event α β : Type} {b : Behaviour σ Event} {post : Event → Exec σ Event Unit} {m m' : FsmBase σ Event}

/-- The code asks for no transition. -/
def Program.Quiet : Program σ Event α → Prop
  | .done _ _ => True
  | .transition _ _ => False
  | .postEvent _ _ rest => ∀ user, (rest user).Quiet

/-- The constructor or destructor that an entry is about asks for no transition. -/
def QuietEntry (b : Behaviour σ Event) : Entry Event → Prop
  | .destroyed id => ∀ user, (b.destroy id user).Quiet
  | .constructed id => ∀ user, (b.construct id user).Quiet
  | _ => True

/-- The rounds suffice, and no transition is asked for on the way. -/
def Calm (x : Exec σ Event α) (m : FsmBase σ Event) : Prop :=
  EStateM.Wp x (fun _ m' => m'.m_stateUpdate = m.m_stateUpdate) (fun fault _ => fault ≠ .outOfFuel) m

namespace Calm

variable {x : Exec σ Event α} {f : α → Exec σ Event β}

/-- What is known of the first part is known when the second one begins. -/
theorem bind {Q : α → List (Entry Event) → FsmBase σ Event → Prop} (calm : Calm x m) (runs : Runs x m Q)
    (rest : ∀ a new m', Extends m new m' → Q a new m' → Calm (f a) m') : Calm (x >>= f) m := by
  refine EStateM.Wp.bind_iff.mpr ?_
  unfold Calm EStateM.Wp at calm
  unfold Runs EStateM.Wp at runs
  unfold EStateM.Wp
  cases run : x m with
  | error fault m₁ =>
    rw [run] at calm
    exact calm
  | ok a m₁ =>
    rw [run] at calm runs
    obtain ⟨new, extend, holds⟩ := runs
    refine EStateM.Wp.mono (rest a new m₁ extend holds) ?_ fun _ _ fault => fault
    intro _ m₂ same
    exact same.trans calm

theorem pure (a : α) : Calm (pure a) m := rfl

theorem get_bind {f : FsmBase σ Event → Exec σ Event β} (rest : Calm (f m) m) : Calm (get >>= f) m := rest

theorem set_bind {f : PUnit → Exec σ Event β} (same : m'.m_stateUpdate = m.m_stateUpdate)
    (rest : Calm (f .unit) m') : Calm (set m' >>= f) m :=
  EStateM.Wp.mono rest (fun _ _ same' => same'.trans same) fun _ _ fault => fault

theorem modify_bind {g : FsmBase σ Event → FsmBase σ Event} {f : PUnit → Exec σ Event β}
    (same : (g m).m_stateUpdate = m.m_stateUpdate) (rest : Calm (f .unit) (g m)) : Calm (modify g >>= f) m :=
  set_bind same rest

end Calm

/-! The user's code -/

theorem Program.calm {p : Program σ Event α} (quiet : p.Quiet) (hosts : Hosts post m)
    (exposed : m.m_eventQueue.empty = true → Exposed m) : Calm (p.run post) m := by
  induction p generalizing m with
  | done user value => exact .modify_bind rfl (.pure value)
  | transition id rest ih => exact quiet.elim
  | postEvent user ev rest ih =>
    obtain ⟨extend₁, acts₁⟩ := Extends.user m user
    refine .modify_bind rfl ?_
    generalize { m with m_user := user } = m₁ at extend₁ acts₁ ⊢
    have hosts₁ := hosts.of_extends extend₁
    cases busy : m₁.m_eventQueue.empty with
    | false =>
      have run := hosts₁.busy busy m₁ ev busy
      have posted : Runs (post ev) m₁ fun _ new m' => m' = m₁.push ev := .of_ok run (.push busy ev) rfl
      refine .bind (x := post ev) ?_ posted ?_
      · unfold Calm EStateM.Wp
        rw [run]
        rfl
      · rintro _ new _ extend₂ rfl
        refine .get_bind (ih _ (quiet _) (hosts₁.of_extends extend₂) ?_)
        intro idle
        exact absurd (extend₂.empty.symm.trans idle) (by rw [busy]; decide)
    | true =>
      obtain ⟨m', run, _⟩ := hosts₁.idle busy m₁ ev busy ((exposed (extend₁.empty.symm.trans busy)).of_same acts₁.same)
      unfold Calm EStateM.Wp
      rw [EStateM.bind_of_error run]
      rintro ⟨⟩

theorem destroyState_calm {id : Int} (quiet : QuietEntry b (.destroyed id)) (hosts : Hosts post m)
    (exposed : Exposed m) : Calm (destroyState b post id) m := by
  have extend : Extends m [.destroyed id] (m.log (.destroyed id)) := .log _ rfl rfl fun _ => trivial
  refine .modify_bind rfl (.get_bind (Program.calm (quiet _) (hosts.of_extends extend) ?_))
  exact fun _ => exposed.of_same ⟨rfl, rfl, rfl⟩

theorem m_maker_calm {id : Int} (quiet : QuietEntry b (.constructed id)) (hosts : Hosts post m)
    (exposed : Exposed m) : Calm (m_maker b post id) m := by
  have extend : Extends m [.constructed id] (m.log (.constructed id)) := .log _ rfl rfl fun _ => trivial
  refine .modify_bind rfl (.get_bind (Program.calm (quiet _) (hosts.of_extends extend) ?_))
  exact fun _ => exposed.of_same ⟨rfl, rfl, rfl⟩

/-! Out of the old states and into the new ones -/

theorem reset_none_calm {infos : List StateInfo} {s : StateInfo} (quiet : QuietEntry b (.destroyed s.m_id))
    (hosts : Hosts post m) (stands : Stands m (infos ++ [s]) (infos ++ [s])) :
    Calm (reset b post infos.length none) m := by
  obtain ⟨frame, atLevel, object⟩ := stands.object
  refine .get_bind ?_
  simp only [atLevel, object]
  have cleared := stands.cleared frame
  have extend := Extends.silent m { m with
    m_stackFrames := m.m_stackFrames.set infos.length { frame with m_activeState := none } } rfl rfl rfl rfl
  exact .set_bind rfl (destroyState_calm quiet (hosts.of_extends extend) cleared.exposed)

theorem doExit_calm {infos : List StateInfo} {bottomLevel fuel : Nat}
    (quiet : ∀ s ∈ infos.drop bottomLevel, QuietEntry b (.destroyed s.m_id)) (hosts : Hosts post m)
    (stands : Stands m infos infos) (bound : bottomLevel ≤ infos.length) (enough : infos.length < fuel + bottomLevel) :
    Calm (doExit b post bottomLevel fuel) m := by
  induction fuel generalizing m infos with
  | zero => omega
  | succ fuel ih =>
    refine .get_bind ?_
    rw [stands.current]
    by_cases more : infos.length > bottomLevel
    · rw [if_pos more]
      rcases List.eq_nil_or_concat infos with rfl | ⟨rest, s, rfl⟩
      · cases more
      · rw [List.concat_eq_append] at quiet stands bound more enough ⊢
        rw [List.length_append, List.length_singleton] at bound more enough
        rw [List.drop_append_of_le_length (by omega), List.forall_mem_append, List.forall_mem_singleton] at quiet
        have front : (rest ++ [s]).length - 1 = rest.length := by simp
        rw [front]
        refine .bind (reset_none_calm quiet.2 hosts stands) (reset_none_runs hosts stands) ?_
        rintro _ new m₁ extend₁ ⟨_, stands₁, _, _⟩
        have extend₂ := Extends.silent m₁ { m₁ with m_currentInfos := m₁.m_currentInfos.dropLast } rfl rfl rfl rfl
        exact .modify_bind rfl (ih quiet.1 ((hosts.of_extends extend₁).of_extends extend₂) stands₁.popped (by omega)
          (by omega))
    · rw [if_neg more]
      exact .pure ()

theorem reset_some_calm {infos : List StateInfo} {s : StateInfo} (stands : Stands m (infos ++ [s]) infos) :
    Calm (reset b post infos.length (some s.m_id)) m := by
  obtain ⟨frame, atLevel, nothing⟩ := stands.vacant
  refine .get_bind ?_
  simp only [atLevel, nothing]
  exact .set_bind rfl (.pure ())

theorem enterLevel_calm {infos : List StateInfo} {s : StateInfo} (quiet : QuietEntry b (.constructed s.m_id))
    (hosts : Hosts post m) (stands : Stands m infos infos)
    (wanted : m.m_nextInfos[infos.length]? = some (some s)) (room : infos.length < m.m_setup.m_maxLevel + 1) :
    Calm (enterLevel b post infos.length) m := by
  have levels := stands.levels
  have atLevel : m.m_stackFrames[infos.length]? = some m.m_stackFrames[infos.length] :=
    List.getElem?_eq_getElem (by omega)
  generalize m.m_stackFrames[infos.length] = frame at atLevel
  refine .get_bind ?_
  simp only [wanted, atLevel]
  generalize (if frame.m_stateStorage < s.m_stateSize then s.m_stateSize else frame.m_stateStorage) = size
  have pushed := stands.pushed s room atLevel size
  have extend := Extends.silent m { m with
    m_stackFrames := m.m_stackFrames.set infos.length { frame with m_stateStorage := size }
    m_currentInfos := m.m_currentInfos ++ [s] } rfl rfl rfl rfl
  have hosts' := hosts.of_extends extend
  refine .set_bind rfl (.bind (m_maker_calm quiet hosts' pushed.exposed) (m_maker_runs hosts' pushed.exposed s.m_id) ?_)
  rintro _ new m₁ extend₁ ⟨_, same, _⟩
  exact reset_some_calm (pushed.of_same same extend₁.setup)

theorem enterLevels_calm {infos target : List StateInfo} {fuel : Nat}
    (quiet : ∀ s ∈ target.drop infos.length, QuietEntry b (.constructed s.m_id)) (hosts : Hosts post m)
    (stands : Stands m infos infos) (started : infos <+: target) (wanted : m.m_nextInfos = target.map some)
    (room : target.length ≤ m.m_setup.m_maxLevel + 1) (enough : target.length < fuel + infos.length) :
    Calm (enterLevels b post target.length fuel) m := by
  induction fuel generalizing m infos with
  | zero =>
    have short := started.length_le
    omega
  | succ fuel ih =>
    refine .get_bind ?_
    rw [stands.current]
    obtain ⟨rest, rfl⟩ := started
    cases rest with
    | nil =>
      rw [List.append_nil, if_neg (not_not.mpr rfl)]
      exact .pure ()
    | cons s rest =>
      rw [List.drop_left, List.forall_mem_cons] at quiet
      rw [List.length_append, List.length_cons] at room enough
      have next := wanted_next wanted
      rw [if_pos (length_ne_append_cons infos s rest)]
      refine .bind (enterLevel_calm quiet.1 hosts stands next (by omega))
        (enterLevel_runs hosts stands next (by omega)) ?_
      rintro _ new m₁ extend ⟨_, stands₁, next₁, _⟩
      have further : infos ++ [s] <+: infos ++ s :: rest := ⟨rest, (List.append_cons infos s rest).symm⟩
      refine ih ?_ (hosts.of_extends extend) stands₁ further (next₁.trans wanted) ?_ ?_
      · rw [drop_length_concat]
        exact quiet.2
      · rw [extend.setup, List.length_append, List.length_cons]
        exact room
      · simp only [List.length_append, List.length_cons, List.length_nil]
        omega

/-! The way to the new state -/

theorem setNextInfo_calm {si : StateInfo} (room : si.m_level < m.m_nextInfos.length) : Calm (setNextInfo si) m := by
  refine .get_bind ?_
  rw [if_pos room]
  rfl

theorem setParentInfos_calm (registered : m.m_setup.Registered) {si : StateInfo}
    {front back : List (Option StateInfo)} {fuel : Nat} (found : m.m_setup.findState si.m_id = some si)
    (filled : m.m_nextInfos = front ++ some si :: back) (atLevel : front.length = si.m_level)
    (enough : si.m_level < fuel) : Calm (setParentInfos fuel si) m := by
  induction fuel generalizing m si front back with
  | zero => cases enough
  | succ fuel ih =>
    refine .get_bind ?_
    rcases (registered.located found).path with ⟨root, _⟩ | ⟨parent, above, level, _⟩
    · rw [if_neg (by omega)]
      exact .pure ()
    · rw [if_pos (by omega)]
      simp only [above]
      rcases List.eq_nil_or_concat front with rfl | ⟨rest, old, rfl⟩
      · rw [List.length_nil] at atLevel
        omega
      · rw [List.concat_eq_append, List.append_assoc, List.singleton_append] at filled
        rw [List.length_concat, level] at atLevel
        have atParent : rest.length = parent.m_level := Nat.succ.inj atLevel
        have room : parent.m_level < m.m_nextInfos.length := by
          rw [filled, List.length_append, List.length_cons]
          omega
        refine .bind (setNextInfo_calm room) (setNextInfo_runs filled atParent) ?_
        rintro _ _ _ _ ⟨rfl, rfl⟩
        refine ih (m := { m with m_nextInfos := rest ++ some parent :: some si :: back }) registered ?_ rfl atParent
          (by omega)
        rw [FsmSetupBase.findState_id above]
        exact above

theorem populateNextInfos_calm (registered : m.m_setup.Registered) {nextInfo : StateInfo} {fuel : Nat}
    (found : m.m_setup.findState nextInfo.m_id = some nextInfo) (enough : nextInfo.m_level < fuel) :
    Calm (populateNextInfos nextInfo fuel) m := by
  have length := length_resize m.m_nextInfos (nextInfo.m_level + 1) none
  refine .modify_bind rfl ?_
  rcases List.eq_nil_or_concat (resize m.m_nextInfos (nextInfo.m_level + 1) none) with none | ⟨front, old, sized⟩
  · rw [none] at length
    cases length
  · rw [sized, List.length_concat] at length
    rw [sized]
    have atLevel : front.length = nextInfo.m_level := Nat.succ.inj length
    have filled : front.concat old = front ++ old :: [] := List.concat_eq_append
    refine .bind (setNextInfo_calm ?_) (setNextInfo_runs filled atLevel) ?_
    · simp only [List.length_concat]
      omega
    · rintro _ _ _ _ ⟨rfl, rfl⟩
      exact setParentInfos_calm (m := { m with m_nextInfos := front ++ [some nextInfo] }) registered found rfl atLevel
        enough

/-! Transitions -/

theorem doTransition_calm (registered : m.m_setup.Registered) (rooted : Rooted m.m_setup m.m_currentInfos)
    {nextInfo : StateInfo} {fuel : Nat} (found : m.m_setup.findState nextInfo.m_id = some nextInfo)
    (quiet : ∀ entry ∈ changes m.m_setup m.leaf nextInfo.m_id, QuietEntry b entry) (hosts : Hosts post m)
    (stands : Stands m m.m_currentInfos m.m_currentInfos) (enough : m.m_setup.m_maxLevel + 2 ≤ fuel) :
    Calm (doTransition b post nextInfo fuel) m := by
  have plan := planned registered rooted found stands (.transits m.leaf nextInfo.m_id)
  have level := (registered.located found).level
  have inside := stands.inside
  have room := plan.room
  have bound := plan.bound
  rw [changes, plan.way, List.forall_mem_append, List.forall_mem_map, List.forall_mem_map] at quiet
  obtain ⟨destructors, constructors⟩ := quiet
  refine .get_bind ?_
  have extend₁ : Extends m _ (m.log (.transits m.leaf nextInfo.m_id)) := .log _ rfl rfl fun _ => trivial
  let logged := m.log (.transits m.leaf nextInfo.m_id)
  refine .set_bind rfl (.bind
    (populateNextInfos_calm (m := logged) registered found (Nat.lt_of_le_of_lt level (by omega)))
    (populateNextInfos_runs (m := logged) registered fuel found) ?_)
  rintro _ _ m₂ extend₂ ⟨rfl, same⟩
  have extend₁₂ := extend₁.trans extend₂
  refine .get_bind ?_
  rw [show m₂ = { m.log (.transits m.leaf nextInfo.m_id) with
    m_nextInfos := (m.m_setup.path nextInfo.m_id).map some } from same] at extend₁₂ ⊢
  rw [plan.bottom]
  refine .bind (doExit_calm (fun s member => destructors s (List.mem_reverse.mpr member)) (hosts.of_extends extend₁₂)
    plan.stands plan.bound (by omega)) (doExit_runs fuel (hosts.of_extends extend₁₂) plan.stands plan.bound) ?_
  rintro _ _ m₃ extend₃ ⟨_, stands₃, next₃, _⟩
  have extend₁₃ := extend₁₂.trans extend₃
  have wanted : m₃.m_nextInfos = (m.m_setup.path nextInfo.m_id).map some := next₃.trans plan.wanted
  have room₃ : (m.m_setup.path nextInfo.m_id).length ≤ m₃.m_setup.m_maxLevel + 1 := by
    rw [extend₁₃.setup]
    exact room
  have enters : Calm (doEntry b post fuel) m₃ := by
    refine .get_bind ?_
    rw [wanted, List.length_map]
    refine enterLevels_calm ?_ (hosts.of_extends extend₁₃) stands₃ plan.common wanted room₃ (by omega)
    rw [List.length_take_of_le bound]
    exact constructors
  refine .bind enters (doEntry_runs fuel (hosts.of_extends extend₁₃) stands₃ plan.common wanted room₃) ?_
  rintro _ _ m₄ _ _
  rfl

/-- The loop never ends for a state that has not been registered. -/
theorem prepareTransition_unregistered (pending : m.m_stateUpdate = true)
    (unknown : m.m_setup.findState m.m_nextState = none) (fuel : Nat) :
    prepareTransition b post fuel m = .error .outOfFuel m := by
  induction fuel with
  | zero => rfl
  | succ fuel ih =>
    rw [prepareTransition, EStateM.get_bind, pending, if_pos rfl]
    simp only [unknown]
    exact ih

/-- With nothing asked for the loop is over. -/
theorem prepareTransition_still (still : m.m_stateUpdate = false) (fuel : Nat) :
    ∃ m', prepareTransition b post (fuel + 1) m = .ok () m' := by
  refine ⟨m.log (.returns m.m_currentInfos (m.m_stackFrames.map (·.m_activeState.isSome))), ?_⟩
  rw [prepareTransition, EStateM.get_bind, still, if_neg (by decide)]
  rfl

/-- For a state that has been registered one transition is all there is. -/
theorem prepareTransition_registered (between : Between m) (hosts : Hosts post m) (pending : m.m_stateUpdate = true)
    {i : StateInfo} (found : m.m_setup.findState m.m_nextState = some i)
    (quiet : ∀ entry ∈ changes m.m_setup m.leaf m.m_nextState, QuietEntry b entry) {fuel : Nat}
    (enough : m.m_setup.m_maxLevel + 3 ≤ fuel) :
    EStateM.Wp (prepareTransition b post fuel) (fun _ _ => True) (fun fault _ => fault ≠ .outOfFuel) m := by
  obtain ⟨rest, rfl⟩ : ∃ rest, fuel = rest + 1 := ⟨fuel - 1, by omega⟩
  have id := FsmSetupBase.findState_id found
  have foundId : m.m_setup.findState i.m_id = some i := by rw [id, found]
  rw [← id] at quiet
  have extend := Extends.silent m { m with m_stateUpdate := false } rfl rfl rfl rfl
  have calm : Calm (doTransition b post i rest) { m with m_stateUpdate := false } :=
    doTransition_calm (m := { m with m_stateUpdate := false }) between.registered between.rooted foundId quiet
      (hosts.of_extends extend) (between.stands.of_same ⟨rfl, rfl, rfl⟩ rfl) (Nat.le_of_succ_le_succ enough)
  unfold EStateM.Wp
  rw [prepareTransition, EStateM.get_bind, pending, if_pos rfl]
  simp only [found]
  rw [EStateM.set_bind]
  refine EStateM.Wp.bind_iff.mpr (EStateM.Wp.mono calm ?_ fun _ _ fault => fault)
  intro _ m₁ still
  obtain ⟨later, rfl⟩ : ∃ later, rest = later + 1 := ⟨rest - 1, by omega⟩
  obtain ⟨m₂, run⟩ : ∃ m₂, prepareTransition b post (later + 1) m₁ = .ok () m₂ := prepareTransition_still still later
  exact .of_run run trivial

/-- The call returns if it is given enough rounds, unless it comes to a constructor or
destructor that posts an event while none is processed. -/
def Returns (b : Behaviour σ Event) (post : Event → Exec σ Event Unit) (m : FsmBase σ Event) : Prop :=
  ∃ rounds, ∀ fuel ≥ rounds, ∃ m', prepareTransition b post fuel m = .ok () m' ∨
    prepareTransition b post fuel m = .error .nullState m' ∧ m.m_eventQueue.empty = true ∧
      ∃ new, m'.m_trace = m.m_trace ++ new ∧ posts new ≠ []

/-- The states stay as they are, and what was asked for is forgotten. -/
def Discards (b : Behaviour σ Event) (post : Event → Exec σ Event Unit) (m : FsmBase σ Event) : Prop :=
  ∃ rounds, ∀ fuel ≥ rounds, ∃ m', prepareTransition b post fuel m = .ok () m' ∧
    m'.m_currentInfos = m.m_currentInfos ∧ m'.m_stackFrames = m.m_stackFrames ∧ m'.m_stateUpdate = false

theorem Between.returns_iff (between : Between m) (hosts : Hosts post m) (pending : m.m_stateUpdate = true)
    (quiet : ∀ entry ∈ changes m.m_setup m.leaf m.m_nextState, QuietEntry b entry) :
    (Returns b post m ∧ (m.m_setup.findState m.m_nextState = none → Discards b post m)) ↔
      (m.m_setup.findState m.m_nextState).isSome = true := by
  cases found : m.m_setup.findState m.m_nextState with
  | none =>
    refine ⟨?_, by rintro ⟨⟩⟩
    rintro ⟨⟨rounds, ends⟩, _⟩
    have never : prepareTransition b post rounds m = .error .outOfFuel m :=
      prepareTransition_unregistered pending found rounds
    obtain ⟨m', ok | ⟨null, _⟩⟩ := ends rounds (Nat.le_refl _)
    · rw [never] at ok
      cases ok
    · rw [never] at null
      cases null
  | some i =>
    refine ⟨fun _ => rfl, fun _ => ⟨⟨m.m_setup.m_maxLevel + 3, ?_⟩, by rintro ⟨⟩⟩⟩
    intro fuel enough
    have ends := prepareTransition_registered (b := b) between hosts pending found quiet enough
    have runs := prepareTransition_runs (b := b) fuel hosts between
    unfold Runs at runs
    cases run : prepareTransition b post fuel m with
    | ok _ m' => exact ⟨m', Or.inl rfl⟩
    | error fault m' =>
      have rounds := ends.of_error run
      obtain ⟨_, _, new, trace, ⟨spent, _⟩ | ⟨null, idle, posted⟩⟩ := runs.of_error run
      · exact absurd spent rounds
      · rw [null]
        exact ⟨m', Or.inr ⟨rfl, idle, new, trace, posted⟩⟩

/-! Wherever `prepareTransition` is called -/

/-- A machine that has been started, between two calls from outside. Besides events there
may be further calls of `setStartState` and of `transition`. -/
inductive Configured (b : Behaviour σ Event) (setup : FsmSetupBase) (user : σ) : FsmBase σ Event → Prop
  | start {id : Int} {fuel : Nat} {m : FsmBase σ Event} :
      setStartState b id fuel (FsmBase.make setup user) = .ok () m → Configured b setup user m
  | restart {id : Int} {fuel : Nat} {m m' : FsmBase σ Event} : Configured b setup user m →
      setStartState b id fuel m = .ok () m' → Configured b setup user m'
  | transition {m : FsmBase σ Event} (id : Int) : Configured b setup user m → Configured b setup user (m.transition id)
  | event {ev : Event} {fuel : Nat} {m m' : FsmBase σ Event} : Configured b setup user m →
      postEvent b fuel ev m = .ok () m' → Configured b setup user m'

/-- From the machine at the beginning of the loop in `postEvent` to the machine at the
beginning of one of its rounds. -/
inductive Processing (b : Behaviour σ Event) (post : Event → Exec σ Event Unit) (m : FsmBase σ Event) :
    FsmBase σ Event → Prop
  | first : Processing b post m m
  | next {ev : Event} {fuel : Nat} {m₁ m₂ m₃ : FsmBase σ Event} : Processing b post m m₁ →
      m₁.m_eventQueue.front = some ev → processEvent b post ev fuel (m₁.log (.begins ev)) = .ok () m₂ →
      popEvent ev m₂ = .ok () m₃ → Processing b post m m₃

/-- The machine when `prepareTransition` is called: by `setStartState`, or after an event
has been emitted. -/
inductive Prepares (b : Behaviour σ Event) (setup : FsmSetupBase) (user : σ) :
    (Event → Exec σ Event Unit) → FsmBase σ Event → Prop
  | start (id : Int) (fuel : Nat) : Prepares b setup user (postEvent b (fuel + 1)) (prepared setup user id)
  | restart {m : FsmBase σ Event} (id : Int) (fuel : Nat) : Configured b setup user m →
      Prepares b setup user (postEvent b (fuel + 1))
        ({ m with m_stackFrames := resize m.m_stackFrames (m.m_setup.m_maxLevel + 1) ⟨none, 0⟩ }.transition id)
  | event {ev ev' : Event} {fuel : Nat} {m m₁ m₂ : FsmBase σ Event} : Configured b setup user m →
      Processing b (postEvent b fuel) (m.push ev) m₁ → m₁.m_eventQueue.front = some ev' →
      emitEvents b (postEvent b fuel) ev' m₁.m_currentInfos.length (m₁.log (.begins ev')) = .ok () m₂ →
      Prepares b setup user (postEvent b fuel) m₂

theorem resize_self {β : Type} {v : List β} {size : Nat} (length : v.length = size) (fill : β) :
    resize v size fill = v := by
  rw [resize, length, Nat.sub_self, List.replicate_zero, List.append_nil, ← length, List.take_length]

theorem Between.transition (between : Between m) (id : Int) : Between (m.transition id) := by
  refine ⟨between.registered, between.stands.of_same ⟨rfl, rfl, rfl⟩ rfl, between.rooted, ?_, by rintro ⟨⟩⟩
  exact (Extends.transition m id).told between.told

/-- `setStartState` on a machine that has been started is a transition. -/
theorem Between.restarted (between : Between m) (id : Int) :
    Between ({ m with
      m_stackFrames := resize m.m_stackFrames (m.m_setup.m_maxLevel + 1) ⟨none, 0⟩ }.transition id) := by
  rw [resize_self between.stands.levels]
  exact between.transition id

theorem Between.log (between : Between m) (entry : Entry Event) (noRequest : requests [entry] = []) :
    Between (m.log entry) := by
  refine ⟨between.registered, between.stands.of_same ⟨rfl, rfl, rfl⟩ rfl, between.rooted, ?_, between.arrived⟩
  change (requests (m.m_trace ++ [entry])).getLast? = _
  rw [requests_append, noRequest, List.append_nil]
  exact between.told

theorem Between.requeue (between : Between m) (queue : VecQueue Event) : Between { m with m_eventQueue := queue } :=
  ⟨between.registered, between.stands.of_same ⟨rfl, rfl, rfl⟩ rfl, between.rooted, between.told, between.arrived⟩

theorem hosts_of_busy (queues : Queues post) (busy : m.m_eventQueue.empty = false) : Hosts post m :=
  ⟨fun _ => queues, fun idle => absurd (busy.symm.trans idle) (by decide)⟩

theorem processEvent_between (ev : Event) (fuel : Nat) (queues : Queues post) (busy : m.m_eventQueue.empty = false)
    (between : Between m) : Runs (processEvent b post ev fuel) m fun _ _ m' => Between m' := by
  have hosts := hosts_of_busy queues busy
  refine .get_bind ?_
  by_cases unstarted : m.m_currentInfos.length = 0
  · rw [if_pos unstarted]
    exact .pure between
  · rw [if_neg unstarted]
    refine .bind (emitEvents_runs ev hosts busy between.stands (Nat.le_refl _)) ?_
    rintro _ _ m₁ extend ⟨_, same, remembers⟩
    refine (prepareTransition_runs fuel (hosts.of_extends extend) (between.of_same extend same remembers)).mono ?_
    rintro _ _ m₂ _ ⟨between₂, _⟩
    exact between₂

theorem busy_of_front {ev : Event} (front : m.m_eventQueue.front = some ev) : m.m_eventQueue.empty = false := by
  rw [← Bool.not_eq_true]
  intro idle
  rw [VecQueue.front_eq, VecQueue.empty_iff.mp idle] at front
  cases front

/-- One round of the loop in `postEvent`. -/
theorem Between.round {ev : Event} {fuel : Nat} {m₂ m₃ : FsmBase σ Event} (between : Between m) (queues : Queues post)
    (front : m.m_eventQueue.front = some ev) (processed : processEvent b post ev fuel (m.log (.begins ev)) = .ok () m₂)
    (popped : popEvent ev m₂ = .ok () m₃) : Between m₃ ∧ m₃.m_setup = m.m_setup := by
  have busy := busy_of_front front
  have begins : Extends m [.begins ev] (m.log (.begins ev)) := .log _ rfl rfl fun _ => trivial
  have runs := processEvent_between (b := b) ev fuel queues (begins.empty.trans busy) (between.log (.begins ev) rfl)
  unfold Runs at runs
  obtain ⟨new, extend, between₂⟩ := runs.of_ok processed
  have some := (begins.trans extend).empty.trans busy
  rw [popEvent_eq ev some] at popped
  cases popped
  exact ⟨(between₂.requeue _).log (.ends ev) rfl, (begins.trans extend).setup⟩

theorem processEvents_between (fuel : Nat) (queues : Queues post) (between : Between m) :
    EStateM.Wp (processEvents b post fuel)
      (fun _ m' => Between m' ∧ m'.m_eventQueue.empty = true ∧ m'.m_setup = m.m_setup) (fun _ _ => True) m := by
  induction fuel generalizing m with
  | zero => trivial
  | succ fuel ih =>
    change EStateM.Wp (if m.m_eventQueue.empty = true then _ else _) _ _ m
    cases busy : m.m_eventQueue.empty with
    | true =>
      rw [if_pos rfl]
      exact ⟨between, busy, rfl⟩
    | false =>
      rw [if_neg (by decide)]
      cases front : m.m_eventQueue.front with
      | none => trivial
      | some ev =>
        refine EStateM.Wp.bind_iff.mpr (EStateM.Wp.bind_iff.mpr ?_)
        unfold EStateM.Wp
        cases processed : processEvent b post ev fuel (m.log (.begins ev)) with
        | error fault m₂ => trivial
        | ok _ m₂ =>
          refine EStateM.Wp.bind_iff.mpr ?_
          unfold EStateM.Wp
          cases popped : popEvent ev m₂ with
          | error fault m₃ => trivial
          | ok _ m₃ =>
            obtain ⟨between₃, setup⟩ := between.round queues front processed popped
            refine EStateM.Wp.mono (ih between₃) ?_ fun _ _ _ => trivial
            rintro _ m' ⟨between', idle, setup'⟩
            exact ⟨between', idle, setup'.trans setup⟩

theorem Configured.between {setup : FsmSetupBase} {user : σ} (registered : setup.Registered)
    (configured : Configured b setup user m) : Between m ∧ m.m_eventQueue.empty = true ∧ m.m_setup = setup := by
  induction configured with
  | start run =>
    obtain ⟨resting, same, _⟩ := (setStartState_wp registered _ _ _).of_ok run
    exact ⟨resting.between, resting.idle, same⟩
  | @restart id fuel m m' _ run ih =>
    obtain ⟨between, idle, same⟩ := ih
    have hosts : Hosts (postEvent b (fuel + 1)) ({ m with
        m_stackFrames := resize m.m_stackFrames (m.m_setup.m_maxLevel + 1) ⟨none, 0⟩ }.transition id) :=
      hosts_of_idle fuel idle
    have runs := prepareTransition_runs (b := b) fuel hosts (between.restarted id)
    unfold Runs at runs
    obtain ⟨new, extend, between', _⟩ := runs.of_ok run
    exact ⟨between', extend.empty.trans idle, extend.setup.trans same⟩
  | transition id _ ih =>
    obtain ⟨between, idle, same⟩ := ih
    exact ⟨between.transition id, idle, same⟩
  | @event ev fuel m m' _ run ih =>
    obtain ⟨between, idle, same⟩ := ih
    cases fuel with
    | zero =>
      rw [postEvent, EStateM.get_bind, EStateM.set_bind, idle] at run
      cases run
    | succ fuel =>
      rw [postEvent_idle fuel idle] at run
      have pushed : Between (m.push ev) := (between.requeue _).log (.posted ev) rfl
      obtain ⟨between', idle', same'⟩ := (processEvents_between (b := b) _ (postEvent_queues fuel) pushed).of_ok run
      exact ⟨between', idle', same'.trans same⟩

theorem Processing.between {m₁ : FsmBase σ Event} (processing : Processing b post m m₁) (queues : Queues post)
    (between : Between m) : Between m₁ ∧ m₁.m_setup = m.m_setup := by
  induction processing with
  | first => exact ⟨between, rfl⟩
  | next _ front processed popped ih =>
    obtain ⟨between₁, same₁⟩ := ih
    obtain ⟨between₃, same₃⟩ := between₁.round queues front processed popped
    exact ⟨between₃, same₃.trans same₁⟩

theorem Prepares.between {setup : FsmSetupBase} {user : σ} (registered : setup.Registered)
    (call : Prepares b setup user post m) : Between m ∧ Hosts post m ∧ m.m_setup = setup := by
  cases call with
  | start id fuel => exact ⟨prepared_between registered user id, hosts_of_idle fuel rfl, rfl⟩
  | restart id fuel configured =>
    obtain ⟨between, idle, same⟩ := configured.between registered
    exact ⟨between.restarted id, hosts_of_idle fuel idle, same⟩
  | @event ev ev' fuel m₀ m₁ _ configured processing front emitted =>
    obtain ⟨between, _, same⟩ := configured.between registered
    have pushed : Between (m₀.push ev) := (between.requeue _).log (.posted ev) rfl
    obtain ⟨between₁, same₁⟩ := processing.between (postEvent_queues fuel) pushed
    have busy := busy_of_front front
    have queues : Queues (postEvent b fuel) := postEvent_queues fuel
    have begins : Extends m₁ [.begins ev'] (m₁.log (.begins ev')) := .log _ rfl rfl fun _ => trivial
    have between₂ := between₁.log (.begins ev') rfl
    have runs := emitEvents_runs (b := b) ev' (hosts_of_busy queues (begins.empty.trans busy))
      (begins.empty.trans busy) between₂.stands (Nat.le_refl _)
    unfold Runs at runs
    obtain ⟨new, extend, _, alike, remembers⟩ := runs.of_ok emitted
    exact ⟨between₂.of_same extend alike remembers, hosts_of_busy queues ((begins.trans extend).empty.trans busy),
      (begins.trans extend).setup.trans (same₁.trans same)⟩

/-- If the constructors and destructors involved ask for nothing more, a call of
`prepareTransition` deals with the state asked for, registered or not, if and only if the
state has been registered. -/
theorem transition_ends_iff_registered {setup : FsmSetupBase} (registered : setup.Registered) (b : Behaviour σ Event)
    (user : σ) (post : Event → Exec σ Event Unit) (m : FsmBase σ Event) (call : Prepares b setup user post m)
    (pending : m.m_stateUpdate = true)
    (quiet : ∀ entry ∈ changes setup m.leaf m.m_nextState, QuietEntry b entry) :
    (Returns b post m ∧ (setup.findState m.m_nextState = none → Discards b post m)) ↔
      (setup.findState m.m_nextState).isSome = true := by
  obtain ⟨between, hosts, same⟩ := call.between registered
  rw [← same] at quiet ⊢
  exact between.returns_iff hosts pending quiet

theorem transition_ends_test :
    Returns myTestFsm (postEvent myTestFsm 1) (prepared testSetup ⟨-1, -2, -3⟩ state3) := by
  have quiet : ∀ entry ∈ changes testSetup none state3, QuietEntry myTestFsm entry := by
    intro entry _
    cases entry <;> first | trivial | exact fun _ => trivial
  exact ((transition_ends_iff_registered testSetup_registered myTestFsm ⟨-1, -2, -3⟩ _ _ (.start state3 0) rfl
    quiet).mpr rfl).1

/-- State 7 has not been registered, and the loop goes on for ever. -/
theorem unregistered_start_state_never_returns :
    Prepares myTestFsm testSetup ⟨-1, -2, -3⟩ (postEvent myTestFsm 1) (prepared testSetup ⟨-1, -2, -3⟩ 7) ∧
      testSetup.findState 7 = none ∧
      (∀ entry ∈ changes testSetup none 7, QuietEntry myTestFsm entry) ∧
      ¬ Returns myTestFsm (postEvent myTestFsm 1) (prepared testSetup ⟨-1, -2, -3⟩ 7) := by
  refine ⟨.start 7 0, rfl, ?_, ?_⟩
  · rintro entry ⟨⟩
  · rintro ⟨rounds, ends⟩
    have never : prepareTransition myTestFsm (postEvent myTestFsm 1) rounds (prepared testSetup ⟨-1, -2, -3⟩ 7) =
        .error .outOfFuel _ := prepareTransition_unregistered rfl rfl rounds
    obtain ⟨m', ok | ⟨null, _⟩⟩ := ends rounds (Nat.le_refl _)
    · rw [never] at ok
      cases ok
    · rw [never] at null
      cases null

end StateChart

end SerialNet
