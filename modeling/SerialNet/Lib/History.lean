import Mathlib.Tactic

/-- Every entry of a history stands in the right relation to what came before it. -/
def Always {ε : Type*} (Q : List ε → ε → Prop) (history : List ε) : Prop :=
  ∀ before e after, history = before ++ e :: after → Q before e

namespace Always

variable {ε : Type*} {Q : List ε → ε → Prop} {history : List ε}

theorem nil : Always Q [] := by
  intro before e after split
  cases before with
  | nil => cases split
  | cons => cases split

theorem concat {e : ε} (always : Always Q history) (here : Q history e) : Always Q (history ++ [e]) := by
  intro before e' after split
  rcases List.eq_nil_or_concat after with rfl | ⟨rest, last, rfl⟩
  · obtain ⟨rfl, same⟩ := List.append_inj' split rfl
    cases same
    exact here
  · rw [List.concat_eq_append, ← List.cons_append, ← List.append_assoc] at split
    exact always before e' rest (List.append_inj' split rfl).1

/-- Entries about which nothing is said can always follow. -/
theorem append {new : List ε} (always : Always Q history) (free : ∀ e ∈ new, ∀ before, Q before e) :
    Always Q (history ++ new) := by
  induction new generalizing history with
  | nil =>
    rw [List.append_nil]
    exact always
  | cons e new ih =>
    rw [List.append_cons]
    refine ih (always.concat (free e List.mem_cons_self history)) ?_
    intro e' member
    exact free e' (List.mem_cons_of_mem _ member)

end Always

/-- How many of the last entries of a history are `x`, without a break. -/
def streak {ε : Type*} [DecidableEq ε] (x : ε) (history : List ε) : Nat :=
  (history.reverse.takeWhile (· = x)).length

namespace streak

variable {ε : Type*} [DecidableEq ε] (x : ε)

@[simp] theorem nil : streak x [] = 0 := rfl

theorem concat (history : List ε) (e : ε) :
    streak x (history ++ [e]) = if e = x then streak x history + 1 else 0 := by
  rw [streak, List.reverse_append, List.reverse_singleton, List.singleton_append, List.takeWhile_cons]
  by_cases same : e = x <;> simp [same, streak]

theorem replicate_prefix_iff (n : Nat) (l : List ε) :
    List.replicate n x <+: l ↔ n ≤ (l.takeWhile (· = x)).length := by
  induction n generalizing l with
  | zero => simp
  | succ n ih =>
    cases l with
    | nil => simp [List.replicate_succ]
    | cons e rest =>
      rw [List.replicate_succ, List.cons_prefix_cons, ih, List.takeWhile_cons]
      by_cases same : e = x
      · simp [same]
      · simp [same, Ne.symm same]

/-- The last `n` entries are all `x`. -/
theorem replicate_suffix_iff (n : Nat) (history : List ε) :
    List.replicate n x <:+ history ↔ n ≤ streak x history := by
  rw [← List.reverse_prefix, List.reverse_replicate, replicate_prefix_iff, streak]

end streak
