import SerialNet.StateChart.Runs

namespace SerialNet

namespace StateChart

variable {σ Event : Type} {b : Behaviour σ Event} {post : Event → Exec σ Event Unit} {m m' : FsmBase σ Event}

/-- The machine is in the states `infos`, and those in `active` have been constructed. -/
structure Stands (m : FsmBase σ Event) (infos active : List StateInfo) : Prop where
  current : m.m_currentInfos = infos
  levels : m.m_stackFrames.length = m.m_setup.m_maxLevel + 1
  inside : infos.length ≤ m.m_setup.m_maxLevel + 1
  alive : ∀ (level : Nat) (frame : LevelData), m.m_stackFrames[level]? = some frame →
    frame.m_activeState = active[level]?.map (·.m_id)

namespace Stands

variable {infos active : List StateInfo} {s : StateInfo}

theorem of_same (stands : Stands m infos active) (same : SameLevels m m') (setup : m'.m_setup = m.m_setup) :
    Stands m' infos active := by
  refine ⟨same.current.trans stands.current, ?_, ?_, ?_⟩
  · rw [same.frames, setup]
    exact stands.levels
  · rw [setup]
    exact stands.inside
  · rw [same.frames]
    exact stands.alive

theorem frame (stands : Stands m infos active) (level : Nat) (below : level < infos.length) :
    ∃ frame, m.m_stackFrames[level]? = some frame ∧ frame.m_activeState = active[level]?.map (·.m_id) := by
  have inside := stands.inside
  have levels := stands.levels
  have atLevel : m.m_stackFrames[level]? = some m.m_stackFrames[level] := List.getElem?_eq_getElem (by omega)
  exact ⟨_, atLevel, stands.alive level _ atLevel⟩

/-- The object of the last state is in the last level that is in use. -/
theorem object (stands : Stands m (infos ++ [s]) (infos ++ [s])) :
    ∃ frame, m.m_stackFrames[infos.length]? = some frame ∧ frame.m_activeState = some s.m_id := by
  obtain ⟨frame, atLevel, active⟩ := stands.frame infos.length (by simp)
  exact ⟨frame, atLevel, by simpa using active⟩

/-- There is no object yet, or none any more, in the last level that is in use. -/
theorem vacant (stands : Stands m (infos ++ [s]) infos) :
    ∃ frame, m.m_stackFrames[infos.length]? = some frame ∧ frame.m_activeState = none := by
  obtain ⟨frame, atLevel, active⟩ := stands.frame infos.length (by simp)
  exact ⟨frame, atLevel, by simpa using active⟩

theorem exposed (stands : Stands m (infos ++ [s]) infos) : Exposed m := by
  obtain ⟨frame, atLevel, nothing⟩ := stands.vacant
  refine ⟨infos.length, frame, ?_, atLevel, nothing⟩
  rw [stands.current, List.length_append, List.length_singleton]

end Stands

theorem Extends.log (entry : Entry Event) (noRequest : requests [entry] = []) (noPost : posts [entry] = [])
    (observes : Legal m → Observes m.m_setup m.m_trace entry) : Extends m [entry] (m.log entry) := by
  refine ⟨rfl, rfl, ?_, ?_, fun _ => noPost, fun legal => legal.concat (observes legal)⟩
  · rw [noRequest]
    rfl
  · rw [noPost]
    rfl

/-- The user's code, together with the entry that announces it. -/
theorem announced_runs {entry : Entry Event} {code : σ → Program σ Event Unit} (hosts : Hosts post m)
    (exposed : Exposed m) (noRequest : requests [entry] = []) (noPost : posts [entry] = [])
    (observes : ∀ before, Observes m.m_setup before entry) (seen : visible entry = true) :
    Runs (do
      modify (·.log entry)
      let m ← get
      (code m.m_user).run post) m fun _ new m' =>
        new.filter visible = [entry] ∧ SameLevels m m' ∧ Remembers m m' := by
  have extend := Extends.log entry noRequest noPost fun _ => observes m.m_trace
  have exposed' : Exposed (m.log entry) := exposed.of_same ⟨rfl, rfl, rfl⟩
  refine .modify_bind extend (.get_bind ?_)
  refine ((code _).runs (hosts.of_extends extend) fun _ => exposed').mono ?_
  intro _ new m' _ acts
  refine ⟨?_, ⟨acts.same.frames, acts.same.current, acts.same.next⟩, acts.remembers⟩
  rw [List.filter_append, List.filter_cons_of_pos seen, acts.filter_visible]
  rfl

theorem destroyState_runs (hosts : Hosts post m) (exposed : Exposed m) (id : Int) :
    Runs (destroyState b post id) m fun _ new m' =>
      new.filter visible = [.destroyed id] ∧ SameLevels m m' ∧ Remembers m m' :=
  announced_runs hosts exposed rfl rfl (fun _ => trivial) rfl

theorem m_maker_runs (hosts : Hosts post m) (exposed : Exposed m) (id : Int) :
    Runs (m_maker b post id) m fun _ new m' =>
      new.filter visible = [.constructed id] ∧ SameLevels m m' ∧ Remembers m m' :=
  announced_runs hosts exposed rfl rfl (fun _ => trivial) rfl

/-! Out of the old states -/

theorem Extends.silent (m m' : FsmBase σ Event) (setup : m'.m_setup = m.m_setup) (trace : m'.m_trace = m.m_trace)
    (next : m'.m_nextState = m.m_nextState) (queue : m'.m_eventQueue = m.m_eventQueue) : Extends m [] m' := by
  refine ⟨setup, by rw [trace, List.append_nil], next, queue, fun _ => rfl, ?_⟩
  unfold Legal
  rw [setup, trace]
  exact id

theorem Stands.set {infos active : List StateInfo} (stands : Stands m infos active) {active' : List StateInfo}
    (level : Nat) (frame : LevelData) (atLevel : active'[level]?.map (·.m_id) = frame.m_activeState)
    (others : ∀ i, i ≠ level → active'[i]? = active[i]?) :
    Stands { m with m_stackFrames := m.m_stackFrames.set level frame } infos active' := by
  refine ⟨stands.current, ?_, stands.inside, ?_⟩
  · rw [List.length_set]
    exact stands.levels
  · intro i other found
    by_cases here : i = level
    · rw [here] at found ⊢
      rw [List.getElem?_set_self'] at found
      obtain ⟨_, _, same⟩ := Option.map_eq_some_iff.mp found
      rw [atLevel, ← same]
      rfl
    · rw [List.getElem?_set_ne (Ne.symm here)] at found
      rw [others i here]
      exact stands.alive i other found

theorem Stands.cleared {infos : List StateInfo} {s : StateInfo} (stands : Stands m (infos ++ [s]) (infos ++ [s]))
    (frame : LevelData) :
    Stands { m with m_stackFrames := m.m_stackFrames.set infos.length { frame with m_activeState := none } }
      (infos ++ [s]) infos := by
  refine stands.set _ _ ?_ ?_
  · rw [List.getElem?_eq_none (Nat.le_refl _)]
    rfl
  · intro i other
    by_cases below : i < infos.length
    · rw [List.getElem?_append_left below]
    · rw [List.getElem?_eq_none (by omega), List.getElem?_eq_none (by simp; omega)]

theorem Stands.popped {infos : List StateInfo} {s : StateInfo} (stands : Stands m (infos ++ [s]) infos) :
    Stands { m with m_currentInfos := m.m_currentInfos.dropLast } infos infos := by
  refine ⟨by rw [stands.current, List.dropLast_concat], stands.levels, ?_, stands.alive⟩
  have inside := stands.inside
  rw [List.length_append, List.length_singleton] at inside
  exact Nat.le_of_succ_le inside

/-- The next level is in use, with no object in it yet. -/
theorem Stands.pushed {infos : List StateInfo} (stands : Stands m infos infos) (s : StateInfo) {frame : LevelData}
    (room : infos.length < m.m_setup.m_maxLevel + 1) (atLevel : m.m_stackFrames[infos.length]? = some frame)
    (size : Nat) :
    Stands { m with
      m_stackFrames := m.m_stackFrames.set infos.length { frame with m_stateStorage := size }
      m_currentInfos := m.m_currentInfos ++ [s] } (infos ++ [s]) infos := by
  have nothing : frame.m_activeState = none := by simpa using stands.alive _ _ atLevel
  have grown := stands.set infos.length { frame with m_stateStorage := size } (by simp [nothing]) fun _ _ => rfl
  refine ⟨congrArg (· ++ [s]) stands.current, grown.levels, ?_, grown.alive⟩
  rw [List.length_append, List.length_singleton]
  exact room

/-- The state in front is destroyed; its level stays in use until it is gone. -/
theorem reset_none_runs {infos : List StateInfo} {s : StateInfo} (hosts : Hosts post m)
    (stands : Stands m (infos ++ [s]) (infos ++ [s])) :
    Runs (reset b post infos.length none) m fun _ new m' =>
      new.filter visible = [.destroyed s.m_id] ∧ Stands m' (infos ++ [s]) infos ∧
        m'.m_nextInfos = m.m_nextInfos ∧ Remembers m m' := by
  obtain ⟨frame, atLevel, object⟩ := stands.object
  refine .get_bind ?_
  simp only [atLevel, object]
  have cleared := stands.cleared frame
  have extend := Extends.silent m { m with
    m_stackFrames := m.m_stackFrames.set infos.length { frame with m_activeState := none } } rfl rfl rfl rfl
  refine .set_bind extend ((destroyState_runs (hosts.of_extends extend) cleared.exposed s.m_id).mono ?_)
  rintro _ new m' after ⟨seen, same, remembers⟩
  exact ⟨seen, cleared.of_same same after.setup, same.next, remembers⟩

theorem doExit_runs {infos : List StateInfo} {bottomLevel : Nat} (fuel : Nat) (hosts : Hosts post m)
    (stands : Stands m infos infos) (bound : bottomLevel ≤ infos.length) :
    Runs (doExit b post bottomLevel fuel) m fun _ new m' =>
      new.filter visible = (infos.drop bottomLevel).reverse.map (.destroyed ·.m_id) ∧
        Stands m' (infos.take bottomLevel) (infos.take bottomLevel) ∧
        m'.m_nextInfos = m.m_nextInfos ∧ Remembers m m' := by
  induction fuel generalizing m infos with
  | zero => exact .outOfFuel
  | succ fuel ih =>
    refine .get_bind ?_
    rw [stands.current]
    by_cases more : infos.length > bottomLevel
    · rw [if_pos more]
      rcases List.eq_nil_or_concat infos with rfl | ⟨rest, s, rfl⟩
      · cases more
      · rw [List.concat_eq_append] at stands bound more ⊢
        rw [List.length_append, List.length_singleton] at bound more
        have front : (rest ++ [s]).length - 1 = rest.length := by simp
        rw [front]
        refine .bind (reset_none_runs hosts stands) ?_
        rintro _ new m₁ extend₁ ⟨seen₁, stands₁, next₁, remembers₁⟩
        have extend₂ := Extends.silent m₁ { m₁ with m_currentInfos := m₁.m_currentInfos.dropLast } rfl rfl rfl rfl
        refine .modify_bind extend₂ ((ih ((hosts.of_extends extend₁).of_extends extend₂) stands₁.popped
          (by omega)).mono ?_)
        rintro _ later m' _ ⟨seen₂, stands₂, next₂, remembers₂⟩
        refine ⟨?_, ?_, next₂.trans next₁, remembers₁.trans remembers₂⟩
        · rw [List.filter_append, seen₁, List.nil_append, seen₂, List.drop_append_of_le_length (by omega),
            List.reverse_concat]
          rfl
        · rw [List.take_append_of_le_length (by omega)]
          exact stands₂
    · rw [if_neg more]
      have all : bottomLevel = infos.length := by omega
      refine .pure ⟨?_, ?_, rfl, .refl m⟩
      · rw [all, List.drop_length]
        rfl
      · rw [all, List.take_length]
        exact stands

/-! Into the new states -/

theorem reset_some_runs {infos : List StateInfo} {s : StateInfo} (stands : Stands m (infos ++ [s]) infos) :
    Runs (reset b post infos.length (some s.m_id)) m fun _ new m' =>
      new.filter visible = [] ∧ Stands m' (infos ++ [s]) (infos ++ [s]) ∧
        m'.m_nextInfos = m.m_nextInfos ∧ Remembers m m' := by
  obtain ⟨frame, atLevel, nothing⟩ := stands.vacant
  refine .get_bind ?_
  simp only [atLevel, nothing]
  refine .set_bind (.silent m _ rfl rfl rfl rfl) (.pure ⟨rfl, stands.set _ _ ?_ ?_, rfl, .refl m⟩)
  · simp
  · intro i other
    by_cases below : i < infos.length
    · rw [List.getElem?_append_left below]
    · rw [List.getElem?_eq_none (by simp; omega), List.getElem?_eq_none (by omega)]

theorem enterLevel_runs {infos : List StateInfo} {s : StateInfo} (hosts : Hosts post m) (stands : Stands m infos infos)
    (wanted : m.m_nextInfos[infos.length]? = some (some s)) (room : infos.length < m.m_setup.m_maxLevel + 1) :
    Runs (enterLevel b post infos.length) m fun _ new m' =>
      new.filter visible = [.constructed s.m_id] ∧ Stands m' (infos ++ [s]) (infos ++ [s]) ∧
        m'.m_nextInfos = m.m_nextInfos ∧ Remembers m m' := by
  have levels := stands.levels
  have atLevel : m.m_stackFrames[infos.length]? = some m.m_stackFrames[infos.length] :=
    List.getElem?_eq_getElem (by omega)
  generalize m.m_stackFrames[infos.length] = frame at atLevel
  refine .get_bind ?_
  simp only [wanted, atLevel]
  generalize (if frame.m_stateStorage < s.m_stateSize then s.m_stateSize else frame.m_stateStorage) = size
  -- The level is in use, with no object in it, while the constructor runs.
  have pushed := stands.pushed s room atLevel size
  have extend₁ := Extends.silent m { m with
    m_stackFrames := m.m_stackFrames.set infos.length { frame with m_stateStorage := size }
    m_currentInfos := m.m_currentInfos ++ [s] } rfl rfl rfl rfl
  refine .set_bind extend₁ (.bind (m_maker_runs (hosts.of_extends extend₁) pushed.exposed s.m_id) ?_)
  rintro _ new m₂ extend₂ ⟨seen, same, remembers⟩
  refine (reset_some_runs (pushed.of_same same extend₂.setup)).mono ?_
  rintro _ later m₃ _ ⟨nothing', stands', next', remembers'⟩
  refine ⟨?_, stands', next'.trans same.next, remembers.trans remembers'⟩
  rw [List.filter_append, List.filter_append, seen, nothing']
  rfl

/-- The state that comes next on the way to the new one. -/
theorem wanted_next {infos rest : List StateInfo} {s : StateInfo}
    (wanted : m.m_nextInfos = (infos ++ s :: rest).map some) : m.m_nextInfos[infos.length]? = some (some s) := by
  rw [wanted, List.getElem?_map, List.getElem?_append_right (Nat.le_refl _), Nat.sub_self]
  rfl

section

variable (infos : List StateInfo) (s : StateInfo) (rest : List StateInfo)

theorem length_ne_append_cons : infos.length ≠ (infos ++ s :: rest).length := by
  rw [List.length_append, List.length_cons]
  omega

theorem drop_length_concat : (infos ++ s :: rest).drop (infos ++ [s]).length = rest := by
  rw [List.append_cons infos s rest, List.drop_left]

end

theorem enterLevels_runs {infos target : List StateInfo} (fuel : Nat) (hosts : Hosts post m)
    (stands : Stands m infos infos) (started : infos <+: target) (wanted : m.m_nextInfos = target.map some)
    (room : target.length ≤ m.m_setup.m_maxLevel + 1) :
    Runs (enterLevels b post target.length fuel) m fun _ new m' =>
      new.filter visible = (target.drop infos.length).map (.constructed ·.m_id) ∧ Stands m' target target ∧
        Remembers m m' := by
  induction fuel generalizing m infos with
  | zero => exact .outOfFuel
  | succ fuel ih =>
    refine .get_bind ?_
    rw [stands.current]
    obtain ⟨rest, rfl⟩ := started
    cases rest with
    | nil =>
      rw [List.append_nil, if_neg (not_not.mpr rfl), List.drop_length]
      exact .pure ⟨rfl, stands, .refl m⟩
    | cons s rest =>
      rw [List.length_append, List.length_cons] at room
      have next := wanted_next wanted
      rw [if_pos (length_ne_append_cons infos s rest)]
      refine .bind (enterLevel_runs hosts stands next (by omega)) ?_
      rintro _ new m₁ extend ⟨seen, stands₁, next₁, remembers₁⟩
      have further : infos ++ [s] <+: infos ++ s :: rest := ⟨rest, (List.append_cons infos s rest).symm⟩
      have room' : (infos ++ s :: rest).length ≤ m₁.m_setup.m_maxLevel + 1 := by
        rw [extend.setup, List.length_append, List.length_cons]
        exact room
      refine (ih (hosts.of_extends extend) stands₁ further (next₁.trans wanted) room').mono ?_
      rintro _ later m₂ _ ⟨seen', stands₂, remembers₂⟩
      refine ⟨?_, stands₂, remembers₁.trans remembers₂⟩
      rw [List.filter_append, seen, seen', drop_length_concat, List.drop_left]
      rfl

theorem doEntry_runs {infos target : List StateInfo} (fuel : Nat) (hosts : Hosts post m)
    (stands : Stands m infos infos) (started : infos <+: target) (wanted : m.m_nextInfos = target.map some)
    (room : target.length ≤ m.m_setup.m_maxLevel + 1) :
    Runs (doEntry b post fuel) m fun _ new m' =>
      new.filter visible = (target.drop infos.length).map (.constructed ·.m_id) ∧ Stands m' target target ∧
        Remembers m m' := by
  have length : m.m_nextInfos.length = target.length := by rw [wanted, List.length_map]
  refine .get_bind ?_
  rw [length]
  exact enterLevels_runs fuel hosts stands started wanted room

/-! The way to the new state -/

theorem length_resize {β : Type} (v : List β) (size : Nat) (fill : β) : (resize v size fill).length = size := by
  rw [resize, List.length_append, List.length_take, List.length_replicate]
  omega

theorem setNextInfo_runs {si : StateInfo} {front back : List (Option StateInfo)} {old : Option StateInfo}
    (filled : m.m_nextInfos = front ++ old :: back) (atLevel : front.length = si.m_level) :
    Runs (setNextInfo si) m fun _ new m' => new = [] ∧ m' = { m with m_nextInfos := front ++ some si :: back } := by
  have room : si.m_level < m.m_nextInfos.length := by
    rw [filled, ← atLevel, List.length_append, List.length_cons]
    omega
  refine .get_bind ?_
  rw [if_pos room]
  refine .set (.silent m _ rfl rfl rfl rfl) ⟨rfl, ?_⟩
  rw [filled, ← atLevel, List.set_append_right _ _ (Nat.le_refl _), Nat.sub_self, List.set_cons_zero]

theorem setParentInfos_runs (registered : m.m_setup.Registered) {si : StateInfo}
    {front back : List (Option StateInfo)} (fuel : Nat) (found : m.m_setup.findState si.m_id = some si)
    (filled : m.m_nextInfos = front ++ some si :: back) (atLevel : front.length = si.m_level) :
    Runs (setParentInfos fuel si) m fun _ new m' =>
      new = [] ∧ m' = { m with m_nextInfos := (m.m_setup.path si.m_id).map some ++ back } := by
  induction fuel generalizing m si front back with
  | zero => exact .outOfFuel
  | succ fuel ih =>
    refine .get_bind ?_
    rcases (registered.located found).path with ⟨root, way⟩ | ⟨parent, above, level, way⟩
    · rw [if_neg (by omega)]
      have empty : front = [] := List.eq_nil_of_length_eq_zero (atLevel.trans root)
      refine .pure ⟨rfl, ?_⟩
      rw [way, List.map_singleton, List.singleton_append]
      rw [empty, List.nil_append] at filled
      rw [← filled]
    · rw [if_pos (by omega)]
      simp only [above]
      have parentId := FsmSetupBase.findState_id above
      rcases List.eq_nil_or_concat front with rfl | ⟨rest, old, rfl⟩
      · rw [List.length_nil] at atLevel
        omega
      · rw [List.concat_eq_append, List.append_assoc, List.singleton_append] at filled
        rw [List.length_concat, level] at atLevel
        have atParent : rest.length = parent.m_level := Nat.succ.inj atLevel
        refine .bind (setNextInfo_runs filled atParent) ?_
        rintro _ _ _ extend ⟨rfl, rfl⟩
        refine (ih (m := { m with m_nextInfos := rest ++ some parent :: some si :: back }) registered ?_ rfl
          atParent).mono ?_
        · rw [parentId]
          exact above
        · rintro _ _ _ _ ⟨rfl, rfl⟩
          refine ⟨rfl, ?_⟩
          rw [way, List.map_append, List.append_assoc, parentId]
          rfl

theorem populateNextInfos_runs (registered : m.m_setup.Registered) {nextInfo : StateInfo} (fuel : Nat)
    (found : m.m_setup.findState nextInfo.m_id = some nextInfo) :
    Runs (populateNextInfos nextInfo fuel) m fun _ new m' =>
      new = [] ∧ m' = { m with m_nextInfos := (m.m_setup.path nextInfo.m_id).map some } := by
  have length := length_resize m.m_nextInfos (nextInfo.m_level + 1) none
  refine .modify_bind (.silent m _ rfl rfl rfl rfl) ?_
  rcases List.eq_nil_or_concat (resize m.m_nextInfos (nextInfo.m_level + 1) none) with none | ⟨front, old, sized⟩
  · rw [none] at length
    cases length
  · rw [sized, List.length_concat] at length
    rw [sized]
    have atLevel : front.length = nextInfo.m_level := Nat.succ.inj length
    have filled : front.concat old = front ++ old :: [] := List.concat_eq_append
    refine .bind (setNextInfo_runs filled atLevel) ?_
    rintro _ _ _ _ ⟨rfl, rfl⟩
    refine (setParentInfos_runs (m := { m with m_nextInfos := front ++ [some nextInfo] }) registered fuel found rfl
      atLevel).mono ?_
    rintro _ _ _ _ ⟨rfl, rfl⟩
    refine ⟨rfl, ?_⟩
    rw [List.append_nil]

/-! One transition -/

/-- The states a machine can be in between two transitions. -/
def Rooted (setup : FsmSetupBase) (infos : List StateInfo) : Prop :=
  infos = [] ∨ ∃ id s, setup.findState id = some s ∧ infos = setup.path id

theorem sameLevels_map (as bs : List StateInfo) : sameLevels as (bs.map some) = (as.commonPrefix bs).length := by
  induction as generalizing bs with
  | nil => rfl
  | cons a as ih =>
    cases bs with
    | nil => rfl
    | cons c bs =>
      by_cases same : a = c
      · cases same
        rw [List.map_cons, sameLevels, if_pos rfl, List.commonPrefix, if_pos rfl, ih, List.length_cons]
      · rw [List.map_cons, sameLevels, if_neg (fun eq => same (Option.some.inj eq)), List.commonPrefix, if_neg same]
        rfl

/-- The leaf tells the states, and the states that stay are common to source and target. -/
theorem bottomLevel_spec (registered : m.m_setup.Registered) (rooted : Rooted m.m_setup m.m_currentInfos)
    {nextInfo : StateInfo} (found : m.m_setup.findState nextInfo.m_id = some nextInfo)
    (wanted : m.m_nextInfos = (m.m_setup.path nextInfo.m_id).map some) :
    m.leaf.elim [] m.m_setup.path = m.m_currentInfos ∧
      bottomLevel m = kept m.m_setup m.leaf nextInfo.m_id ∧
      kept m.m_setup m.leaf nextInfo.m_id ≤ m.m_currentInfos.length ∧
      m.m_currentInfos.take (kept m.m_setup m.leaf nextInfo.m_id) <+: m.m_setup.path nextInfo.m_id := by
  rcases rooted with empty | ⟨id, s, source, infos⟩
  · rw [FsmBase.leaf, bottomLevel, empty]
    exact ⟨rfl, rfl, Nat.le_refl _, List.nil_prefix⟩
  · have back : m.m_currentInfos.getLast? = some s := by
      rw [infos]
      exact registered.path_getLast source
    have sourceId := FsmSetupBase.findState_id source
    have leaf : m.leaf = some id := by rw [FsmBase.leaf, back, Option.map_some, sourceId]
    have front : m.m_nextInfos.getLast? = some (some nextInfo) := by
      rw [wanted, List.getLast?_map, registered.path_getLast found]
      rfl
    rw [leaf, bottomLevel, back]
    simp only [findFirstThatDiffer, front, kept, Option.elim_some, infos]
    by_cases self : id = nextInfo.m_id
    · have same : nextInfo = s := by
        rw [self, found] at source
        exact Option.some.inj source
      have length := registered.path_length found
      rw [if_pos self, if_pos (by rw [same]), self, length]
      refine ⟨trivial, by rw [← same]; rfl, Nat.sub_le _ _, List.take_prefix _ _⟩
    · have other : nextInfo ≠ s := by
        rintro rfl
        exact self sourceId.symm
      rw [if_neg self, if_neg (fun eq => other (Option.some.inj (Option.some.inj eq))), wanted, sameLevels_map,
        List.take_commonPrefix]
      exact ⟨trivial, rfl, (List.commonPrefix_prefix _ _).1.length_le, List.take_prefix _ _⟩

theorem changes_alters {setup : FsmSetupBase} {source : Option Int} {target : Int} :
    ∀ entry ∈ (changes setup source target : List (Entry Event)), alters entry = true := by
  intro entry member
  rcases List.mem_append.mp member with old | new
  · obtain ⟨_, _, rfl⟩ := List.mem_map.mp old
    rfl
  · obtain ⟨_, _, rfl⟩ := List.mem_map.mp new
    rfl

theorem visible_of_alters {entry : Entry Event} (change : alters entry = true) : visible entry = true := by
  cases entry with
  | destroyed => rfl
  | constructed => rfl
  | _ => cases change

theorem observes_performed {setup : FsmSetupBase} {source : Option Int} {target : Int}
    {earlier during : List (Entry Event)} (seen : during.filter visible = changes setup source target) :
    Observes setup (earlier ++ .transits source target :: during) (.performed source target) := by
  have inside : ∀ entry ∈ during, visible entry = true → alters entry = true := by
    intro entry member shown
    have among := List.mem_filter.mpr ⟨member, shown⟩
    rw [seen] at among
    exact changes_alters entry among
  refine ⟨earlier, during, rfl, ?_, ?_⟩
  · intro s t
    constructor
    · intro member
      cases inside _ member rfl
    · intro member
      cases inside _ member rfl
  · rw [← seen]
    refine List.filter_congr ?_
    intro entry member
    cases shown : visible entry with
    | true => exact inside entry member shown
    | false =>
      rw [← Bool.not_eq_true]
      intro change
      rw [visible_of_alters change] at shown
      cases shown

/-- What is seen of a transition. -/
def segment (setup : FsmSetupBase) (source : Option Int) (target : Int) : List (Entry Event) :=
  .transits source target :: (changes setup source target ++ [.performed source target])

/-- The machine before the old states are left, with the states on the way to the new one. -/
structure Planned (m : FsmBase σ Event) (target : Int) (m₂ : FsmBase σ Event) : Prop where
  stands : Stands m₂ m.m_currentInfos m.m_currentInfos
  wanted : m₂.m_nextInfos = (m.m_setup.path target).map some
  bottom : bottomLevel m₂ = kept m.m_setup m.leaf target
  way : m.leaf.elim [] m.m_setup.path = m.m_currentInfos
  bound : kept m.m_setup m.leaf target ≤ m.m_currentInfos.length
  common : m.m_currentInfos.take (kept m.m_setup m.leaf target) <+: m.m_setup.path target
  room : (m.m_setup.path target).length ≤ m.m_setup.m_maxLevel + 1

theorem planned (registered : m.m_setup.Registered) (rooted : Rooted m.m_setup m.m_currentInfos)
    {nextInfo : StateInfo} (found : m.m_setup.findState nextInfo.m_id = some nextInfo)
    (stands : Stands m m.m_currentInfos m.m_currentInfos) (entry : Entry Event) :
    Planned m nextInfo.m_id { m.log entry with m_nextInfos := (m.m_setup.path nextInfo.m_id).map some } := by
  obtain ⟨way, bottom, bound, common⟩ := bottomLevel_spec
    (m := { m.log entry with m_nextInfos := (m.m_setup.path nextInfo.m_id).map some }) registered rooted found rfl
  refine ⟨⟨rfl, stands.levels, stands.inside, stands.alive⟩, rfl, bottom, way, bound, common, ?_⟩
  rw [registered.path_length found]
  exact Nat.succ_le_succ (registered.located found).level

theorem doTransition_runs (registered : m.m_setup.Registered) (rooted : Rooted m.m_setup m.m_currentInfos)
    {nextInfo : StateInfo} (fuel : Nat) (found : m.m_setup.findState nextInfo.m_id = some nextInfo)
    (hosts : Hosts post m) (stands : Stands m m.m_currentInfos m.m_currentInfos) :
    Runs (doTransition b post nextInfo fuel) m fun _ new m' =>
      new.filter visible = segment m.m_setup m.leaf nextInfo.m_id ∧
        Stands m' (m.m_setup.path nextInfo.m_id) (m.m_setup.path nextInfo.m_id) ∧ Remembers m m' := by
  refine .get_bind ?_
  have extend₁ : Extends m _ (m.log (.transits m.leaf nextInfo.m_id)) := .log _ rfl rfl fun _ => trivial
  let logged := m.log (.transits m.leaf nextInfo.m_id)
  refine .set_bind extend₁ (.bind (populateNextInfos_runs (m := logged) registered fuel found) ?_)
  rintro _ _ m₂ extend₂ ⟨rfl, same⟩
  have plan := planned registered rooted found stands (.transits m.leaf nextInfo.m_id)
  have remembers₂ : Remembers m m₂ := by
    rw [same]
    exact .refl m
  have extend₁₂ := extend₁.trans extend₂
  refine .get_bind ?_
  rw [show m₂ = { m.log (.transits m.leaf nextInfo.m_id) with
    m_nextInfos := (m.m_setup.path nextInfo.m_id).map some } from same] at extend₁₂ remembers₂ ⊢
  rw [plan.bottom]
  refine .bind (doExit_runs fuel (hosts.of_extends extend₁₂) plan.stands plan.bound) ?_
  rintro _ exits m₃ extend₃ ⟨seen₃, stands₃, next₃, remembers₃⟩
  have extend₁₃ := extend₁₂.trans extend₃
  refine .bind (doEntry_runs fuel (hosts.of_extends extend₁₃) stands₃ plan.common (next₃.trans plan.wanted)
    (by rw [extend₁₃.setup]; exact plan.room)) ?_
  rintro _ entries m₄ extend₄ ⟨seen₄, stands₄, remembers₄⟩
  have extend₁₄ := extend₁₃.trans extend₄
  have seen : (exits ++ entries).filter visible = changes m.m_setup m.leaf nextInfo.m_id := by
    rw [List.filter_append, seen₃, seen₄, List.length_take_of_le plan.bound, changes, plan.way]
  have observes : Observes m₄.m_setup m₄.m_trace (.performed m.leaf nextInfo.m_id) := by
    rw [extend₁₄.setup, extend₁₄.trace]
    simp only [List.append_nil, List.singleton_append]
    exact observes_performed seen
  refine .modify (.log _ rfl rfl fun _ => observes) ⟨?_, ?_, ?_⟩
  · rw [List.singleton_append, List.filter_cons_of_pos rfl, List.nil_append, ← List.append_assoc, List.filter_append,
      seen]
    rfl
  · exact stands₄.of_same ⟨rfl, rfl, rfl⟩ rfl
  · exact remembers₂.trans (remembers₃.trans remembers₄)

/-! All transitions that have been asked for -/

/-- A machine between two transitions. With nothing left to do it is in the state that was
asked for last. -/
structure Between (m : FsmBase σ Event) : Prop where
  registered : m.m_setup.Registered
  stands : Stands m m.m_currentInfos m.m_currentInfos
  rooted : Rooted m.m_setup m.m_currentInfos
  told : (requests m.m_trace).getLast? = some m.m_nextState
  arrived : m.m_stateUpdate = false →
    ∃ s, m.m_setup.findState m.m_nextState = some s ∧ m.m_currentInfos = m.m_setup.path m.m_nextState

theorem Stands.active_iff {infos : List StateInfo} (stands : Stands m infos infos) (level : Nat) :
    (m.m_stackFrames.map (·.m_activeState.isSome))[level]? = some true ↔ level < infos.length := by
  rw [List.getElem?_map, Option.map_eq_some_iff]
  constructor
  · rintro ⟨frame, atLevel, object⟩
    rw [stands.alive level frame atLevel, Option.isSome_map, Option.isSome_iff_exists] at object
    obtain ⟨s, found⟩ := object
    exact (List.getElem?_eq_some_iff.mp found).1
  · intro below
    obtain ⟨frame, atLevel, active⟩ := stands.frame level below
    refine ⟨frame, atLevel, ?_⟩
    rw [active, List.getElem?_eq_getElem below]
    rfl

/-- The transitions performed one after the other. -/
def segments (setup : FsmSetupBase) (transitions : List (Option Int × Int)) : List (Entry Event) :=
  transitions.flatMap fun t => segment setup t.1 t.2

theorem prepareTransition_runs (fuel : Nat) (hosts : Hosts post m) (between : Between m) :
    Runs (prepareTransition b post fuel) m fun _ new m' =>
      Between m' ∧ m'.m_stateUpdate = false ∧
        ∃ settling active transitions, new = settling ++ [.returns m'.m_currentInfos active] ∧
          settling.filter visible = segments m.m_setup transitions := by
  induction fuel generalizing m with
  | zero => exact .outOfFuel
  | succ fuel ih =>
    refine .get_bind ?_
    cases pending : m.m_stateUpdate with
    | false =>
      obtain ⟨s, found, current⟩ := between.arrived pending
      have observes : Observes m.m_setup m.m_trace
          (.returns m.m_currentInfos (m.m_stackFrames.map (·.m_activeState.isSome))) :=
        ⟨m.m_nextState, s, between.told, found, current, between.stands.active_iff⟩
      have extend := Extends.log (m := m) _ rfl rfl fun _ => observes
      refine .set extend ⟨⟨between.registered, ?_, between.rooted, extend.told between.told, between.arrived⟩, pending,
        [], _, [], rfl, rfl⟩
      exact between.stands.of_same ⟨rfl, rfl, rfl⟩ rfl
    | true =>
      cases found : m.m_setup.findState m.m_nextState with
      | none => exact ih hosts between
      | some i =>
        have id := FsmSetupBase.findState_id found
        have foundId : m.m_setup.findState i.m_id = some i := by rw [id, found]
        have extend₁ := Extends.silent m { m with m_stateUpdate := false } rfl rfl rfl rfl
        have stands₁ : Stands { m with m_stateUpdate := false } m.m_currentInfos m.m_currentInfos :=
          between.stands.of_same ⟨rfl, rfl, rfl⟩ rfl
        refine .set_bind extend₁ (.bind (doTransition_runs (m := { m with m_stateUpdate := false }) between.registered
          between.rooted fuel foundId (hosts.of_extends extend₁) stands₁) ?_)
        rintro _ new m₂ extend₂ ⟨seen, stands₂, remembers⟩
        have current₂ := stands₂.current
        have setup₂ : m₂.m_setup = m.m_setup := extend₂.setup
        have between₂ : Between m₂ := by
          refine ⟨?_, ?_, ?_, (extend₁.trans extend₂).told between.told, ?_⟩
          · rw [setup₂]
            exact between.registered
          · rw [current₂]
            exact stands₂
          · rw [setup₂, current₂]
            exact Or.inr ⟨_, i, foundId, rfl⟩
          · intro none
            obtain ⟨_, same⟩ := remembers none
            have target : m₂.m_nextState = i.m_id := same.trans id.symm
            rw [setup₂, target, current₂]
            exact ⟨i, foundId, rfl⟩
        refine (ih (hosts.of_extends (extend₁.trans extend₂)) between₂).mono ?_
        rintro _ later m₃ _ ⟨between₃, none, settling, active, transitions, rfl, seen'⟩
        refine ⟨between₃, none, new ++ settling, active, (m.leaf, i.m_id) :: transitions, ?_, ?_⟩
        · rw [List.nil_append, List.append_assoc]
        · rw [List.filter_append, seen, seen', setup₂]
          rfl

end StateChart

end SerialNet
