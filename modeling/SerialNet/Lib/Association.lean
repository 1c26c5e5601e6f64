import Mathlib.Data.List.TakeWhile
import Mathlib.Tactic

/-! A table with one entry for each key that is also searched by value. -/

namespace Association

variable {κ ν : Type*} {table : List (κ × ν)} {k : κ} {v w : ν}

section Keys

variable [DecidableEq κ]

/-- Give a key its value, in its old place if it has one. -/
def assign (table : List (κ × ν)) (k : κ) (v : ν) : List (κ × ν) :=
  match table.findIdx? (fun e => k = e.1) with
  | some i => table.set i (k, v)
  | none => table ++ [(k, v)]

/-- The entries before that of a key, which are all of them if it has none. -/
def before (table : List (κ × ν)) (k : κ) : List (κ × ν) := table.takeWhile (fun e => k ≠ e.1)

theorem ne_of_mem_before {e : κ × ν} (member : e ∈ before table k) : e.1 ≠ k := by
  have other : k ≠ e.1 := by simpa using List.mem_takeWhile_imp member
  exact other.symm

theorem assign_cons_self (rest : List (κ × ν)) : assign ((k, w) :: rest) k v = (k, v) :: rest := by
  simp [assign, List.findIdx?_cons]

theorem assign_cons_of_ne {e : κ × ν} (other : k ≠ e.1) (rest : List (κ × ν)) :
    assign (e :: rest) k v = e :: assign rest k v := by
  simp only [assign, List.findIdx?_cons, other, decide_false, Bool.false_eq_true, if_false]
  cases rest.findIdx? (fun e => k = e.1) <;> rfl

/-- Everything before the entry stays, and the entry follows it. -/
theorem assign_eq (table : List (κ × ν)) (k : κ) (v : ν) :
    ∃ after, assign table k v = before table k ++ (k, v) :: after := by
  induction table with
  | nil => exact ⟨[], rfl⟩
  | cons e rest ih =>
    obtain ⟨j, w⟩ := e
    by_cases same : k = j
    · subst same
      refine ⟨rest, ?_⟩
      rw [assign_cons_self, before, List.takeWhile_cons_of_neg (by simp), List.nil_append]
    · obtain ⟨after, split⟩ := ih
      refine ⟨after, ?_⟩
      rw [assign_cons_of_ne same, split, before, before, List.takeWhile_cons_of_pos (by simpa using same),
        List.cons_append]

theorem mem_assign {e : κ × ν} (member : e ∈ assign table k v) : e = (k, v) ∨ e ∈ table := by
  unfold assign at member
  split at member
  · exact (List.mem_or_eq_of_mem_set member).symm
  · rcases List.mem_append.mp member with old | new
    · exact Or.inr old
    · exact Or.inl (List.mem_singleton.mp new)

/-- A key never has two entries. -/
theorem nodup_assign (distinct : (table.map Prod.fst).Nodup) (k : κ) (v : ν) :
    ((assign table k v).map Prod.fst).Nodup := by
  induction table with
  | nil => exact List.nodup_singleton k
  | cons e rest ih =>
    obtain ⟨j, w⟩ := e
    rw [List.map_cons, List.nodup_cons] at distinct
    by_cases same : k = j
    · subst same
      rw [assign_cons_self, List.map_cons, List.nodup_cons]
      exact distinct
    · rw [assign_cons_of_ne same, List.map_cons, List.nodup_cons]
      refine ⟨?_, ih distinct.2⟩
      intro member
      obtain ⟨e', inside, key⟩ := List.mem_map.mp member
      rcases mem_assign inside with rfl | old
      · exact same key
      · exact distinct.1 (List.mem_map.mpr ⟨e', old, key⟩)

/-- The value of the entry of a key. -/
def valueOf (table : List (κ × ν)) (k : κ) : Option ν := (table.find? (fun e => k = e.1)).map Prod.snd

theorem valueOf_cons (e : κ × ν) (rest : List (κ × ν)) (k : κ) :
    valueOf (e :: rest) k = if k = e.1 then some e.2 else valueOf rest k := by
  rw [valueOf, List.find?_cons]
  by_cases same : k = e.1
  · simp [same]
  · simp [same, valueOf]

/-- The key that is given a value has it, and every other key keeps its own. -/
theorem valueOf_assign (table : List (κ × ν)) (k : κ) (v : ν) (j : κ) :
    valueOf (assign table k v) j = if j = k then some v else valueOf table j := by
  induction table with
  | nil => exact valueOf_cons (k, v) [] j
  | cons e rest ih =>
    obtain ⟨i, w⟩ := e
    by_cases same : k = i
    · subst same
      rw [assign_cons_self, valueOf_cons, valueOf_cons]
      split <;> rfl
    · rw [assign_cons_of_ne same, valueOf_cons, valueOf_cons, ih]
      by_cases found : j = i
      · subst found
        rw [if_pos rfl, if_pos rfl, if_neg (Ne.symm same)]
      · rw [if_neg found, if_neg found]

/-- Where no key has two entries, every entry is the one its key is found with. -/
theorem valueOf_of_mem (distinct : (table.map Prod.fst).Nodup) (member : (k, v) ∈ table) :
    valueOf table k = some v := by
  induction table with
  | nil => cases member
  | cons e rest ih =>
    rw [List.map_cons, List.nodup_cons] at distinct
    rw [valueOf_cons]
    rcases List.mem_cons.mp member with rfl | later
    · exact if_pos rfl
    · rw [if_neg, ih distinct.2 later]
      intro same
      exact distinct.1 (List.mem_map.mpr ⟨(k, v), later, same⟩)

end Keys

section Values

variable [DecidableEq ν]

/-- The key of the first entry with the value. -/
def keyOf (table : List (κ × ν)) (v : ν) : Option κ := (table.find? (fun e => v = e.2)).map Prod.fst

/-- The search by value stops before it gets to the entry of a key. -/
theorem keyOf_append_ne {first after : List (κ × ν)} (others : ∀ e ∈ first, e.1 ≠ k) (claimed : ∃ e ∈ first, e.2 = v) :
    keyOf (first ++ after) v ≠ some k := by
  obtain ⟨e, member, rfl⟩ := claimed
  intro found
  obtain ⟨e', search, key⟩ := Option.map_eq_some_iff.mp found
  have some_ : (first.find? (fun x => e.2 = x.2)).isSome = true :=
    List.find?_isSome.mpr ⟨e, member, decide_eq_true rfl⟩
  obtain ⟨e₁, stops⟩ := Option.isSome_iff_exists.mp some_
  rw [List.find?_append, stops, Option.some_or] at search
  cases search
  exact others e' (List.mem_of_find?_eq_some stops) key

theorem keyOf_append {first after : List (κ × ν)} (unclaimed : ∀ e ∈ first, e.2 ≠ v) :
    keyOf (first ++ after) v = keyOf after v := by
  have none : first.find? (fun e => v = e.2) = none := by
    rw [List.find?_eq_none]
    intro e member found
    exact unclaimed e member (of_decide_eq_true found).symm
  rw [keyOf, List.find?_append, none, Option.none_or, keyOf]

theorem mem_of_keyOf (found : keyOf table v = some k) : (k, v) ∈ table := by
  obtain ⟨e, search, rfl⟩ := Option.map_eq_some_iff.mp found
  have value : v = e.2 := by simpa using List.find?_some search
  subst value
  exact List.mem_of_find?_eq_some search

theorem keyOf_cons_self (rest : List (κ × ν)) : keyOf ((k, v) :: rest) v = some k := by
  simp [keyOf]

end Values

variable [DecidableEq κ] [DecidableEq ν]

/-- A value that has just been given to a key is found under that key, unless an entry
before it has the same value. -/
theorem keyOf_assign (table : List (κ × ν)) (k : κ) (v : ν) :
    keyOf (assign table k v) v = some k ↔ ∀ e ∈ before table k, e.2 ≠ v := by
  obtain ⟨after, split⟩ := assign_eq table k v
  rw [split]
  constructor
  · intro found e member claims
    exact keyOf_append_ne (fun _ => ne_of_mem_before) ⟨e, member, claims⟩ found
  · intro unclaimed
    rw [keyOf_append unclaimed, keyOf_cons_self]

/-- The key that is found for a value has that value. -/
theorem valueOf_of_keyOf (distinct : (table.map Prod.fst).Nodup) (found : keyOf table v = some k) :
    valueOf table k = some v := valueOf_of_mem distinct (mem_of_keyOf found)

/-- The same for an entry that is left as it is. -/
theorem keyOf_iff (distinct : (table.map Prod.fst).Nodup) (entry : table.find? (fun e => k = e.1) = some (k, w)) :
    keyOf table v = some k ↔ (∀ e ∈ before table k, e.2 ≠ v) ∧ w = v := by
  obtain ⟨_, first, after, rfl, others⟩ := List.find?_eq_some_iff_append.mp entry
  have start : before (first ++ (k, w) :: after) k = first := by
    rw [before, List.takeWhile_append_of_pos, List.takeWhile_cons_of_neg (by simp), List.append_nil]
    simpa using others
  rw [start]
  have behind : keyOf after v ≠ some k := by
    intro found
    obtain ⟨e, search, key⟩ := Option.map_eq_some_iff.mp found
    rw [List.map_append, List.map_cons] at distinct
    refine (List.nodup_cons.mp (List.nodup_append.mp distinct).2.1).1 (List.mem_map.mpr ⟨e, ?_, key⟩)
    exact List.mem_of_find?_eq_some search
  constructor
  · intro found
    have unclaimed : ∀ e ∈ first, e.2 ≠ v := by
      intro e member claims
      refine keyOf_append_ne ?_ ⟨e, member, claims⟩ found
      intro e' member' same
      simpa [same] using others e' member'
    refine ⟨unclaimed, ?_⟩
    rw [keyOf_append unclaimed] at found
    by_contra other
    refine behind ?_
    rw [keyOf, List.find?_cons_of_neg (by simpa using Ne.symm other)] at found
    exact found
  · rintro ⟨unclaimed, rfl⟩
    rw [keyOf_append unclaimed, keyOf_cons_self]

end Association
