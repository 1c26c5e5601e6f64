import Mathlib.Tactic

namespace List

variable {α : Type*} [DecidableEq α]

def commonPrefix : List α → List α → List α
  | a :: as, b :: bs => if a = b then a :: commonPrefix as bs else []
  | _, _ => []

theorem commonPrefix_prefix (as bs : List α) : commonPrefix as bs <+: as ∧ commonPrefix as bs <+: bs := by
  induction as generalizing bs with
  | nil => exact ⟨ nil_prefix, nil_prefix⟩
  | cons a as ih =>
    cases bs with
    | nil => exact ⟨ nil_prefix, nil_prefix⟩
    | cons b bs =>
      by_cases same : a = b
      · cases same
        rw [commonPrefix, if_pos rfl]
        exact ⟨(prefix_cons_inj a).mpr (ih bs).1, (prefix_cons_inj a).mpr (ih bs).2⟩
      · rw [commonPrefix, if_neg same]
        exact ⟨ nil_prefix, nil_prefix⟩

/-- No common prefix is longer. -/
theorem prefix_commonPrefix {l as bs : List α} (left : l <+: as) (right : l <+: bs) : l <+: commonPrefix as bs := by
  induction l generalizing as bs with
  | nil => exact nil_prefix
  | cons c l ih =>
    obtain ⟨rest, rfl⟩ := left
    obtain ⟨rest', rfl⟩ := right
    rw [cons_append, cons_append, commonPrefix, if_pos rfl, prefix_cons_inj]
    exact ih (prefix_append l rest) (prefix_append l rest')

theorem take_commonPrefix (as bs : List α) :
    as.take (commonPrefix as bs).length = bs.take (commonPrefix as bs).length := by
  obtain ⟨left, right⟩ := commonPrefix_prefix as bs
  rw [← prefix_iff_eq_take.mp left, ← prefix_iff_eq_take.mp right]

end List
