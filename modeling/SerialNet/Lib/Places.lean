import Mathlib.Data.List.Perm.Basic

/-! One line shared by several places: every entry is marked with the place it comes
from. -/

/-- The entries that come from one place, in the order of the line. -/
def List.fromPlace {ι α : Type*} [DecidableEq ι] (l : List (ι × α)) (i : ι) : List α :=
  (l.filter (·.1 = i)).map Prod.snd

namespace List

variable {ι α β : Type*} [DecidableEq ι]

@[simp] theorem fromPlace_nil (i : ι) : fromPlace ([] : List (ι × α)) i = [] := rfl

@[simp] theorem fromPlace_append (l l' : List (ι × α)) (i : ι) :
    (l ++ l').fromPlace i = l.fromPlace i ++ l'.fromPlace i := by
  rw [fromPlace, filter_append, map_append]
  rfl

theorem fromPlace_cons (e : ι × α) (l : List (ι × α)) (i : ι) :
    (e :: l).fromPlace i = (if e.1 = i then [e.2] else []) ++ l.fromPlace i := by
  by_cases same : e.1 = i
  · simp [fromPlace, same]
  · simp [fromPlace, same]

theorem fromPlace_mark (i : ι) (l : List α) : (l.map (Prod.mk i)).fromPlace i = l := by
  simp [fromPlace, filter_map, Function.comp_def]

theorem fromPlace_mark_of_ne {i j : ι} (other : i ≠ j) (l : List α) : (l.map (Prod.mk i)).fromPlace j = [] := by
  simp [fromPlace, filter_map, Function.comp_def, other]

theorem fromPlace_eq_nil {l : List (ι × α)} {i : ι} (absent : ∀ e ∈ l, e.1 ≠ i) : l.fromPlace i = [] := by
  have none : l.filter (·.1 = i) = [] := by
    rw [filter_eq_nil_iff]
    intro e member
    simpa using absent e member
  rw [fromPlace, none, map_nil]

/-- Where every place has one entry at most, the line can be put in any order. -/
theorem fromPlace_eq_of_perm {l l' : List (ι × α)} (perm : l'.Perm l) {i : ι} (few : (l.fromPlace i).length ≤ 1) :
    l'.fromPlace i = l.fromPlace i := by
  have same : (l'.fromPlace i).Perm (l.fromPlace i) := (perm.filter _).map _
  cases shown : l.fromPlace i with
  | nil => exact perm_nil.mp (shown ▸ same)
  | cons x rest =>
    rw [shown, length_cons] at few
    have alone : rest = [] := length_eq_zero_iff.mp (by omega)
    rw [alone]
    exact perm_singleton.mp (alone ▸ shown ▸ same)

/-- Another order of what a line shows is what the line shows in another order. -/
theorem exists_perm_of_map_perm {f : α → β} {l : List α} {shown : List β} (perm : shown.Perm (l.map f)) :
    ∃ l' : List α, l'.Perm l ∧ l'.map f = shown := by
  have related : ∀ l : List α, Forall₂ (fun b a => f a = b) (l.map f) l := by
    intro l
    induction l with
    | nil => exact .nil
    | cons a rest ih => exact .cons rfl ih
  obtain ⟨l', forward, back⟩ := perm_comp_forall₂ perm (related l)
  refine ⟨l', back, ?_⟩
  clear perm back
  induction forward with
  | nil => rfl
  | cons first _ ih => rw [map_cons, first, ih]

end List
