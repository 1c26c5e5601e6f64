import Mathlib.Tactic

namespace SerialNet

/-- A state as it is registered. The maker is part of the behaviour of the machine: it runs
the constructor of the state with this id. -/
structure StateInfo where
  m_id : Int
  m_parentId : Int
  m_level : Nat
  m_stateSize : Nat
deriving DecidableEq, Repr

structure FsmSetupBase where
  m_states : List StateInfo
  m_maxLevel : Nat
deriving DecidableEq, Repr

namespace FsmSetupBase

def make : FsmSetupBase := ⟨[], 0⟩

def findState (setup : FsmSetupBase) (id : Int) : Option StateInfo := setup.m_states.find? (·.m_id = id)

/-- `none` is a parent that is not there. -/
def levelOf (setup : FsmSetupBase) (stateId parentId : Int) : Option Nat :=
  if stateId ≠ parentId then (setup.findState parentId).map (·.m_level + 1) else some 0

def addStateBase (setup : FsmSetupBase) (stateId parentId : Int) (size : Nat) : Option FsmSetupBase :=
  (setup.levelOf stateId parentId).map fun level =>
    { m_states := setup.m_states ++ [⟨stateId, parentId, level, size⟩]
      m_maxLevel := if setup.m_maxLevel < level then level else setup.m_maxLevel }

/-- The states are registered one by one, each after its parent. -/
inductive Registered : FsmSetupBase → Prop
  | make : Registered make
  | add {setup setup' : FsmSetupBase} {stateId parentId : Int} {size : Nat} : Registered setup →
      setup.addStateBase stateId parentId size = some setup' → Registered setup'

/-- The way down to a state from its root, in a list that has the last state first. Of several
states with one id only the first that was registered can be found. -/
def pathIn : List StateInfo → Int → List StateInfo
  | [], _ => []
  | s :: earlier, id =>
    if s.m_id = id ∧ ∀ e ∈ earlier, e.m_id ≠ id then
      (if s.m_parentId = id then [] else pathIn earlier s.m_parentId) ++ [s]
    else
      pathIn earlier id

def path (setup : FsmSetupBase) (id : Int) : List StateInfo := pathIn setup.m_states.reverse id

/-- Where a registered state is found. -/
structure Located (setup : FsmSetupBase) (id : Int) (s : StateInfo) : Prop where
  same : s.m_id = id
  level : s.m_level ≤ setup.m_maxLevel
  path : s.m_level = 0 ∧ setup.path id = [s] ∨
    ∃ p, setup.findState s.m_parentId = some p ∧ s.m_level = p.m_level + 1 ∧
      setup.path id = setup.path s.m_parentId ++ [s]

theorem findState_id {setup : FsmSetupBase} {id : Int} {s : StateInfo} (found : setup.findState id = some s) :
    s.m_id = id := by
  have holds := List.find?_some found
  exact of_decide_eq_true holds

section Append

variable {setup : FsmSetupBase} {new : StateInfo} {maxLevel : Nat}

theorem findState_append_of_some {id : Int} {s : StateInfo} (found : setup.findState id = some s) :
    (FsmSetupBase.mk (setup.m_states ++ [new]) maxLevel).findState id = some s := by
  rw [findState, List.find?_append]
  exact congrArg (Option.or · _) found

theorem findState_append_of_none {id : Int} (fresh : setup.findState id = none) :
    (FsmSetupBase.mk (setup.m_states ++ [new]) maxLevel).findState id = if new.m_id = id then some new else none := by
  have first : setup.m_states.find? (·.m_id = id) = none := fresh
  rw [findState, List.find?_append, first, Option.none_or]
  by_cases same : new.m_id = id
  · simp [same]
  · simp [same]

theorem path_append_of_some {id : Int} {s : StateInfo} (found : setup.findState id = some s) :
    (FsmSetupBase.mk (setup.m_states ++ [new]) maxLevel).path id = setup.path id := by
  have known : ¬ (new.m_id = id ∧ ∀ e ∈ setup.m_states.reverse, e.m_id ≠ id) := by
    rintro ⟨_, fresh⟩
    exact fresh s (List.mem_reverse.mpr (List.mem_of_find?_eq_some found)) (findState_id found)
  rw [path, List.reverse_concat, pathIn, if_neg known]
  rfl

theorem path_append_of_none (fresh : setup.findState new.m_id = none) :
    (FsmSetupBase.mk (setup.m_states ++ [new]) maxLevel).path new.m_id =
      (if new.m_parentId = new.m_id then [] else setup.path new.m_parentId) ++ [new] := by
  have first : new.m_id = new.m_id ∧ ∀ e ∈ setup.m_states.reverse, e.m_id ≠ new.m_id := by
    refine ⟨rfl, ?_⟩
    intro e member
    have other := List.find?_eq_none.mp fresh e (List.mem_reverse.mp member)
    exact fun same => other (decide_eq_true same)
  rw [path, List.reverse_concat, pathIn, if_pos first]
  rfl

end Append

theorem Registered.located {setup : FsmSetupBase} (registered : Registered setup) {id : Int} {s : StateInfo}
    (found : setup.findState id = some s) : Located setup id s := by
  induction registered generalizing id s with
  | make => cases found
  | @add setup setup' stateId parentId size _ added ih =>
    obtain ⟨level, atLevel, rfl⟩ := Option.map_eq_some_iff.mp added
    unfold levelOf at atLevel
    cases old : setup.findState id with
    | some s' =>
      rw [findState_append_of_some old] at found
      cases Option.some.inj found
      obtain ⟨sameId, bound, way⟩ := ih old
      refine ⟨sameId, ?_, ?_⟩
      · change s.m_level ≤ if _ then _ else _
        split <;> omega
      · rw [path_append_of_some old]
        rcases way with root | ⟨p, parent, below, way⟩
        · exact Or.inl root
        · refine Or.inr ⟨p, findState_append_of_some parent, below, ?_⟩
          rw [path_append_of_some parent]
          exact way
    | none =>
      rw [findState_append_of_none old] at found
      split at found
      · rename_i sameId
        cases Option.some.inj found
        cases sameId
        refine ⟨rfl, ?_, ?_⟩
        · change level ≤ if _ then _ else _
          split <;> omega
        · by_cases root : stateId = parentId
          · rw [if_neg (not_not.mpr root)] at atLevel
            refine Or.inl ⟨(Option.some.inj atLevel).symm, ?_⟩
            rw [path_append_of_none old, if_pos root.symm]
            rfl
          · rw [if_pos root] at atLevel
            obtain ⟨p, parent, below⟩ := Option.map_eq_some_iff.mp atLevel
            refine Or.inr ⟨p, findState_append_of_some parent, below.symm, ?_⟩
            rw [path_append_of_none old, if_neg (Ne.symm root), path_append_of_some parent]
      · cases found

theorem Registered.path_length {setup : FsmSetupBase} (registered : Registered setup) {id : Int} {s : StateInfo}
    (found : setup.findState id = some s) : (setup.path id).length = s.m_level + 1 := by
  induction level : s.m_level generalizing id s with
  | zero =>
    rcases (registered.located found).path with ⟨_, way⟩ | ⟨p, _, below, _⟩
    · rw [way]
      rfl
    · omega
  | succ n ih =>
    rcases (registered.located found).path with ⟨root, _⟩ | ⟨p, parent, below, way⟩
    · omega
    · rw [way, List.length_append, ih parent (by omega)]
      rfl

theorem Registered.path_getLast {setup : FsmSetupBase} (registered : Registered setup) {id : Int} {s : StateInfo}
    (found : setup.findState id = some s) : (setup.path id).getLast? = some s := by
  rcases (registered.located found).path with ⟨_, way⟩ | ⟨_, _, _, way⟩
  · rw [way]
    rfl
  · rw [way, List.getLast?_concat]

end FsmSetupBase

end SerialNet
