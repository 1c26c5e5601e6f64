import SerialNet.Lib.CommonPrefix
import SerialNet.Lib.History
import SerialNet.Lib.Wp
import SerialNet.StateChart.Machine

namespace SerialNet

namespace StateChart

variable {σ Event α β : Type}

/-! What a trace says -/

def requests (trace : List (Entry Event)) : List Int :=
  trace.filterMap fun
    | .requested id => some id
    | _ => none

def posts (trace : List (Entry Event)) : List Event :=
  trace.filterMap fun
    | .posted ev => some ev
    | _ => none

/-- Everything but the calls that the user's code makes. -/
def visible : Entry Event → Bool
  | .requested _ => false
  | .posted _ => false
  | _ => true

def alters : Entry Event → Bool
  | .destroyed _ => true
  | .constructed _ => true
  | _ => false

@[simp] theorem requests_append (first second : List (Entry Event)) :
    requests (first ++ second) = requests first ++ requests second := List.filterMap_append

@[simp] theorem posts_append (first second : List (Entry Event)) :
    posts (first ++ second) = posts first ++ posts second := List.filterMap_append

/-! What transitions are to do -/

/-- The number of states, from the root, that stay. A state that is entered from itself does
not stay. -/
def kept (setup : FsmSetupBase) (source : Option Int) (target : Int) : Nat :=
  match source with
  | none => 0
  | some id =>
    if id = target then
      (setup.path target).length - 1
    else
      ((setup.path id).commonPrefix (setup.path target)).length

/-- No states common to both ways are left, unless source and target are one. -/
theorem kept_longest {setup : FsmSetupBase} {id target : Int} (other : id ≠ target) {common : List StateInfo}
    (source : common <+: setup.path id) (way : common <+: setup.path target) :
    common.length ≤ kept setup (some id) target := by
  simp only [kept, if_neg other]
  exact (List.prefix_commonPrefix source way).length_le

/-- From leaf to leaf: first out of the old states, the deepest first, and then into the new
ones, the outermost first. -/
def changes (setup : FsmSetupBase) (source : Option Int) (target : Int) : List (Entry Event) :=
  ((source.elim [] setup.path).drop (kept setup source target)).reverse.map (.destroyed ·.m_id) ++
    ((setup.path target).drop (kept setup source target)).map (.constructed ·.m_id)

theorem changes_self {setup : FsmSetupBase} (registered : setup.Registered) {id : Int} {s : StateInfo}
    (found : setup.findState id = some s) :
    (changes setup (some id) id : List (Entry Event)) = [.destroyed id, .constructed id] := by
  have last : (setup.path id).drop ((setup.path id).length - 1) = [s] := by
    obtain ⟨front, way⟩ := List.getLast?_eq_some_iff.mp (registered.path_getLast found)
    rw [way, List.length_append, List.length_singleton, Nat.add_sub_cancel, List.drop_left]
  simp [changes, kept, last, FsmSetupBase.findState_id found]

/-- A transition that has been performed changes the states as it should, and after
`prepareTransition` the machine is in the state that was asked for last. -/
def Observes (setup : FsmSetupBase) (before : List (Entry Event)) : Entry Event → Prop
  | .performed source target => ∃ earlier during, before = earlier ++ .transits source target :: during ∧
      (∀ s t, .transits s t ∉ during ∧ .performed s t ∉ during) ∧
      during.filter alters = changes setup source target
  | .returns infos active => ∃ id s, (requests before).getLast? = some id ∧ setup.findState id = some s ∧
      infos = setup.path id ∧ ∀ level, active[level]? = some true ↔ level < infos.length
  | _ => True

def Legal (m : FsmBase σ Event) : Prop := Always (Observes m.m_setup) m.m_trace

end StateChart

end SerialNet
