import SerialNet.Master.Tokens

namespace SerialNet.DynamicHandler

/-- One thing that happens to the dynamic handler, with the calls it makes. -/
inductive Step (dh : DynamicHandler) : DynamicHandler → List DynamicCall → Prop
  | request (aReq : packet.AddressRequest) :
      Step dh (dh.receivedAddressRequest aReq).1 (dh.receivedAddressRequest aReq).2
  | result {dh' now addr newState calls} :
      dh.updateAddressLine now addr newState = some (dh', calls) → Step dh dh' calls
  | discoveryDone (now : ℚ) : Step dh (dh.addressDiscoveryIsDone now) []
  | discoveryDue (timeout : ℚ) : Step dh { dh with m_timer := dh.m_timer.expire timeout } []

theorem Reach.step {cfg : Config} {uninitialised : Nat → UniqueId} {dh dh' : DynamicHandler}
    {calls : List DynamicCall} (reach : Reach cfg uninitialised dh) (step : Step dh dh' calls) :
    Reach cfg uninitialised dh' := by
  cases step with
  | request aReq => exact .request aReq reach
  | result run => exact .result reach run
  | discoveryDone now => exact .discoveryDone now reach
  | discoveryDue timeout => exact .discoveryDue timeout reach

/-- What a step does to the table: nothing that changes the address, the kind or the id
of a line, a line more at the end, or a dynamic line less. -/
inductive TableCase (dh : DynamicHandler) : DynamicHandler → List DynamicCall → Prop
  | same {dh' calls} : dh'.m_freeAddresses = dh.m_freeAddresses → dh'.m_table = dh.m_table →
      (∀ a u, .sendAddressReply a u ∈ calls → ∃ line, dh.findLineById u = some line ∧ line.m_address = a) →
      TableCase dh dh' calls
  | created {dh' rest a u ct} : dh.m_freeAddresses = rest ++ [a] → (∀ line ∈ dh.m_table, line.m_uniqueId ≠ u) →
      dh'.m_freeAddresses = rest → dh'.m_table = dh.m_table ++ [.dynamic a u ct] →
      TableCase dh dh' [.postActionNow (.makeSendTokenAction a), .sendAddressReply a u]
  | updated {dh' before line after st a t} : dh.m_table = before ++ line :: after →
      dh'.m_freeAddresses = dh.m_freeAddresses → dh'.m_table = before ++ line.setState st :: after →
      TableCase dh dh' [.postAction a t]
  | evicted {dh' before line after} : dh.m_table = before ++ line :: after → line.m_isDynamic = true →
      dh'.m_freeAddresses = dh.m_freeAddresses ++ [line.m_address] → dh'.m_table = before ++ after →
      TableCase dh dh' []

theorem Step.tableCase {dh dh' : DynamicHandler} {calls : List DynamicCall} (step : Step dh dh' calls) :
    TableCase dh dh' calls := by
  cases step with
  | request aReq =>
    cases found : dh.findLineById aReq.m_uniqueId with
    | some line =>
      simp only [receivedAddressRequest, found]
      refine .same rfl rfl ?_
      intro a u told
      cases List.mem_singleton.mp told
      exact ⟨line, found, rfl⟩
    | none =>
      rcases dh.receivedAddressRequest_cases aReq with ⟨line, member, id, _⟩ | ⟨_, _, nothing⟩ |
        ⟨unknown, rest, localAddr, stack, allocated⟩
      · exact absurd (decide_eq_true id) (List.find?_eq_none.mp found line member)
      · rw [nothing]
        exact .same rfl rfl (by simp)
      · rw [allocated]
        exact .created stack unknown rfl rfl
  | result run =>
    obtain ⟨before, line, after, table, address, _, ⟨removed, rfl, rfl⟩ | ⟨_, rfl, rfl⟩⟩ := updateAddressLine_cases run
    · exact .evicted table (of_decide_eq_true removed).1 (by rw [address]) rfl
    · exact .updated table rfl rfl
  | discoveryDone now => exact .same rfl rfl (by simp)
  | discoveryDue timeout => exact .same rfl rfl (by simp)

section Runs

variable {cfg : Config} {uninitialised : Nat → UniqueId} {dh dh' : DynamicHandler} {calls : List DynamicCall}

/-- The invariant rule for facts about the table and the free addresses. -/
theorem Reach.tableInvariant {P : DynamicHandler → Prop} (reach : Reach cfg uninitialised dh)
    (start : P (DynamicHandler.start cfg uninitialised).1)
    (preserved : ∀ {dh dh' calls}, TableCase dh dh' calls → P dh → P dh') : P dh := by
  induction reach with
  | start => exact start
  | request aReq _ ih => exact preserved (Step.request aReq).tableCase ih
  | result _ run ih => exact preserved (Step.result run).tableCase ih
  | discoveryDone now _ ih => exact preserved (Step.discoveryDone now).tableCase ih
  | discoveryDue timeout _ ih => exact preserved (Step.discoveryDue timeout).tableCase ih

/-- Every configured address is free or has one line. -/
theorem Reach.addresses_perm (reach : Reach cfg uninitialised dh) :
    (dh.m_freeAddresses ++ dh.m_table.map (·.m_address)).Perm cfg.addresses := by
  refine reach.tableInvariant
    (P := fun dh => (dh.m_freeAddresses ++ dh.m_table.map (·.m_address)).Perm cfg.addresses) ?_ ?_
  · simp only [DynamicHandler.start, AddressLine.static, List.map_map, Function.comp_def, Config.addresses,
      List.map_append]
    exact List.Perm.append_right _ ((List.reverse_perm _).map _)
  · intro dh dh' calls taken shared
    cases taken with
    | same free table _ => rwa [free, table]
    | created stack _ free table =>
      rw [stack] at shared
      rw [free, table, List.map_append]
      refine List.Perm.trans ?_ shared
      rw [List.append_assoc]
      exact List.Perm.append_left _ List.perm_append_comm
    | updated table free table' =>
      rw [table] at shared
      rw [free, table']
      simpa using shared
    | evicted table _ free table' =>
      rw [table] at shared
      rw [free, table']
      refine List.Perm.trans ?_ shared
      simp only [List.map_append, List.map_cons, List.append_assoc, List.singleton_append]
      exact List.Perm.append_left _ List.perm_middle.symm

/-- The kinds and ids of the lines. -/
def owners (dh : DynamicHandler) : List (Bool × UniqueId) := dh.m_table.map fun l => (l.m_isDynamic, l.m_uniqueId)

/-- Static lines come first, and a dynamic line has an id that no line before it has. -/
def OneOwner (dh : DynamicHandler) : Prop :=
  dh.owners.Pairwise fun o o' => (o.1 = true → o'.1 = true) ∧ (o'.1 = true → o.2 ≠ o'.2)

theorem Reach.oneOwner (reach : Reach cfg uninitialised dh) : dh.OneOwner := by
  refine reach.tableInvariant ?_ ?_
  · have static : ∀ o ∈ (DynamicHandler.start cfg uninitialised).1.owners, o.1 = false := by
      simp [owners, DynamicHandler.start, AddressLine.static]
    refine List.pairwise_of_forall_mem_list ?_
    intro o member o' member'
    simp [static o member, static o' member']
  · intro dh dh' calls taken one
    cases taken with
    | same _ table _ => rwa [OneOwner, owners, table]
    | created _ unknown _ table =>
      rw [OneOwner, owners, table, List.map_append, List.pairwise_append]
      refine ⟨one, List.pairwise_singleton _ _, ?_⟩
      intro o member o' new
      obtain ⟨line, inside, rfl⟩ := List.mem_map.mp member
      rw [List.map_singleton, List.mem_singleton] at new
      rw [new]
      exact ⟨fun _ => rfl, fun _ => unknown line inside⟩
    | updated table _ table' =>
      rw [OneOwner, owners, table] at one
      rw [OneOwner, owners, table']
      simpa using one
    | evicted table _ _ table' =>
      rw [OneOwner, owners, table] at one
      rw [OneOwner, owners, table']
      exact one.sublist (List.Sublist.map _ (List.Sublist.append_left (List.sublist_cons_self _ _) _))

/-- A reply names the address of the line that is found for the id from then on. -/
theorem TableCase.told (taken : TableCase dh dh' calls) {a : LocalAddress} {u : UniqueId}
    (told : .sendAddressReply a u ∈ calls) : ∃ line, dh'.findLineById u = some line ∧ line.m_address = a := by
  cases taken with
  | same _ table replies =>
    obtain ⟨line, found, address⟩ := replies a u told
    exact ⟨line, by rw [findLineById, table]; exact found, address⟩
  | @created rest a' u' ct _ unknown _ table =>
    simp only [List.mem_cons, reduceCtorEq, List.not_mem_nil, or_false, false_or, DynamicCall.sendAddressReply.injEq]
      at told
    obtain ⟨rfl, rfl⟩ := told
    have none : dh.m_table.find? (fun el => el.m_uniqueId = u) = none := by
      rw [List.find?_eq_none]
      intro line member same
      exact unknown line member (of_decide_eq_true same)
    refine ⟨.dynamic a u ct, ?_, rfl⟩
    rw [findLineById, table, List.find?_append, none]
    simp [AddressLine.dynamic]
  | updated _ _ _ => simp at told
  | evicted _ _ _ _ => cases told

/-- What is found in two tables that begin alike is the same, or is found behind that. -/
theorem find?_common_front {p : AddressLine → Bool} {before tail tail' : List AddressLine} {line line' : AddressLine}
    (found : (before ++ tail).find? p = some line) (found' : (before ++ tail').find? p = some line') :
    line' = line ∨ tail.find? p = some line ∧ tail'.find? p = some line' := by
  rw [List.find?_append] at found found'
  cases first : before.find? p with
  | some l =>
    rw [first, Option.some_or] at found found'
    exact Or.inl (Option.some.inj (found'.symm.trans found))
  | none =>
    rw [first, Option.none_or] at found found'
    exact Or.inr ⟨found, found'⟩

/-- The line found for an id keeps its address until there is none. -/
theorem TableCase.found (taken : TableCase dh dh' calls) (one : dh.OneOwner) {u : UniqueId} {line line' : AddressLine}
    (found : dh.findLineById u = some line) (found' : dh'.findLineById u = some line') :
    line'.m_address = line.m_address := by
  cases taken with
  | same _ table _ =>
    rw [findLineById, table] at found'
    rw [Option.some.inj (found.symm.trans found')]
  | created _ _ _ table =>
    rw [findLineById] at found
    rw [findLineById, table, List.find?_append, found, Option.some_or] at found'
    rw [Option.some.inj found']
  | @updated before mid after st _ _ table _ table' =>
    rw [findLineById, table] at found
    rw [findLineById, table'] at found'
    rcases find?_common_front found found' with same | ⟨found, found'⟩
    · rw [same]
    · rw [List.find?_cons] at found
      rw [List.find?_cons, AddressLine.setState_uniqueId] at found'
      by_cases mine : mid.m_uniqueId = u
      · simp only [mine, decide_true, Option.some.injEq] at found found'
        rw [← found, ← found', AddressLine.setState_address]
      · simp only [mine, decide_false] at found found'
        rw [Option.some.inj (found.symm.trans found')]
  | @evicted before mid after table isDynamic _ table' =>
    rw [findLineById, table] at found
    rw [findLineById, table'] at found'
    rcases find?_common_front found found' with same | ⟨found, found'⟩
    · rw [same]
    · rw [List.find?_cons] at found
      split at found
      · rename_i mine
        -- the evicted line was the one found, and no line after it has the id
        have member := List.mem_of_find?_eq_some found'
        have id := of_decide_eq_true (List.find?_some (p := fun el : AddressLine => el.m_uniqueId = u) found')
        rw [OneOwner, owners, table, List.map_append, List.pairwise_append, List.map_cons, List.pairwise_cons] at one
        obtain ⟨later, differ⟩ := one.2.1.1 _ (List.mem_map_of_mem member)
        exact absurd ((of_decide_eq_true mine).trans id.symm) (differ (later isDynamic))
      · rw [Option.some.inj (found.symm.trans found')]

/-- No line is created for an id that has one. -/
theorem TableCase.not_created (taken : TableCase dh dh' calls) {u : UniqueId}
    (present : (dh.findLineById u).isSome = true) :
    dh'.m_table.countP (·.m_uniqueId = u) ≤ dh.m_table.countP (·.m_uniqueId = u) := by
  cases taken with
  | same _ table _ => rw [table]
  | created _ unknown _ table =>
    obtain ⟨line, found⟩ := Option.isSome_iff_exists.mp present
    have member := List.mem_of_find?_eq_some found
    have id := of_decide_eq_true (List.find?_some (p := fun el : AddressLine => el.m_uniqueId = u) found)
    have other := unknown line member
    rw [table, List.countP_append, List.countP_singleton]
    rw [id] at other
    simp [AddressLine.dynamic, Ne.symm other]
  | updated table _ table' =>
    rw [table, table', List.countP_append, List.countP_append, List.countP_cons, List.countP_cons,
      AddressLine.setState_uniqueId]
  | evicted table _ _ table' =>
    rw [table, table', List.countP_append, List.countP_append, List.countP_cons]
    omega

end Runs

/-- A run during which there is always a line for the id. -/
inductive Keeps (u : UniqueId) : DynamicHandler → DynamicHandler → Prop
  | start {dh : DynamicHandler} : (dh.findLineById u).isSome = true → Keeps u dh dh
  | next {dh dh' dh'' : DynamicHandler} {calls} : Keeps u dh dh' → Step dh' dh'' calls →
      (dh''.findLineById u).isSome = true → Keeps u dh dh''

section Runs

variable {cfg : Config} {uninitialised : Nat → UniqueId} {dh dh' : DynamicHandler} {u : UniqueId}

theorem Keeps.reach (keeps : Keeps u dh dh') (reach : Reach cfg uninitialised dh) : Reach cfg uninitialised dh' := by
  induction keeps with
  | start _ => exact reach
  | next _ step _ ih => exact ih.step step

theorem Keeps.address (keeps : Keeps u dh dh') (reach : Reach cfg uninitialised dh) {line line' : AddressLine}
    (found : dh.findLineById u = some line) (found' : dh'.findLineById u = some line') :
    line'.m_address = line.m_address := by
  induction keeps generalizing line' with
  | start _ => rw [Option.some.inj (found.symm.trans found')]
  | next before step _ ih =>
    have one := (before.reach reach).oneOwner
    cases before with
    | start present =>
      exact step.tableCase.found one found found'
    | next before' step' present =>
      obtain ⟨mid, between⟩ := Option.isSome_iff_exists.mp present
      rw [step.tableCase.found one between found', ih between]

/-- Lines for different ids have different addresses. -/
theorem Reach.address_injective (separate : cfg.Separate) (reach : Reach cfg uninitialised dh) {v : UniqueId}
    {line line' : AddressLine} (found : dh.findLineById u = some line) (found' : dh.findLineById v = some line')
    (other : u ≠ v) : line.m_address ≠ line'.m_address := by
  have nodup := ((reach.addresses_perm.nodup_iff.mpr separate.nodup).of_append_right)
  have id := of_decide_eq_true (List.find?_some (p := fun el : AddressLine => el.m_uniqueId = u) found)
  have id' := of_decide_eq_true (List.find?_some (p := fun el : AddressLine => el.m_uniqueId = v) found')
  intro same
  have equal := List.inj_on_of_nodup_map nodup (List.mem_of_find?_eq_some found) (List.mem_of_find?_eq_some found') same
  exact other (by rw [← id, ← id', equal])

end Runs

/-- For as long as an id has a line, all replies to it name one address, no reply to
another id with a line names that address, and no second line is created for it. The
ids static lines happen to hold make no difference. -/
theorem replies_stable_injective (uninitialised : Nat → UniqueId) (dh dh₁ : DynamicHandler)
    (calls : List DynamicCall) (a : LocalAddress) (u : UniqueId) (reach : Reach {} uninitialised dh)
    (step : Step dh dh₁ calls) (told : .sendAddressReply a u ∈ calls) (dh₂ dh₃ : DynamicHandler)
    (keeps : Keeps u dh₁ dh₂) (calls' : List DynamicCall) (step' : Step dh₂ dh₃ calls') :
    (∀ b, .sendAddressReply b u ∈ calls' → b = a) ∧
    (∀ b v, v ≠ u → .sendAddressReply b v ∈ calls' → (dh₃.findLineById u).isSome = true → b ≠ a) ∧
    ∀ w, (dh₂.findLineById w).isSome = true →
      dh₃.m_table.countP (·.m_uniqueId = w) ≤ dh₂.m_table.countP (·.m_uniqueId = w) := by
  have reach₁ := reach.step step
  have reach₂ := keeps.reach reach₁
  obtain ⟨line, found, address⟩ := step.tableCase.told told
  -- the address of the line found after the second step is still the one told
  have later : ∀ line', dh₃.findLineById u = some line' → line'.m_address = a := by
    intro line' found'
    have still := Keeps.next keeps step' (by rw [found']; rfl)
    rw [still.address reach₁ found found', address]
  refine ⟨?_, ?_, fun w present => step'.tableCase.not_created present⟩
  · intro b told'
    obtain ⟨line', found', address'⟩ := step'.tableCase.told told'
    rw [← address', later line' found']
  · intro b v other told' stays
    obtain ⟨line', found', address'⟩ := step'.tableCase.told told'
    obtain ⟨own, foundOwn⟩ := Option.isSome_iff_exists.mp stays
    rw [← address', ← later own foundOwn]
    exact (reach₂.step step').address_injective Config.separate_default found' foundOwn other

def sampleRequest (id : UInt8) : packet.AddressRequest :=
  ⟨⟨[9, 0, 0, 0, 0, 0, 0, id], rfl⟩, .illegal_type, ⟨[9, 0, 0, 0], rfl⟩⟩

/-- Two clients ask, and the second one gets the next address. -/
theorem replies_stable_injective_two :
    let dh := (DynamicHandler.start {} fun _ => (sampleRequest 1).m_uniqueId).1
    let first := dh.receivedAddressRequest (sampleRequest 2)
    let second := first.1.receivedAddressRequest (sampleRequest 3)
    DynamicCall.sendAddressReply 33 (sampleRequest 2).m_uniqueId ∈ first.2 ∧
      DynamicCall.sendAddressReply 34 (sampleRequest 3).m_uniqueId ∈ second.2 ∧ (34 : LocalAddress) ≠ 33 := by
  intro dh first second
  have told : DynamicCall.sendAddressReply 33 (sampleRequest 2).m_uniqueId ∈ first.2 := by decide
  have told' : DynamicCall.sendAddressReply 34 (sampleRequest 3).m_uniqueId ∈ second.2 := by decide
  have replies := replies_stable_injective (fun _ => (sampleRequest 1).m_uniqueId) dh first.1 first.2 33
    (sampleRequest 2).m_uniqueId .start (.request (sampleRequest 2)) told first.1 second.1 (.start (by decide))
    second.2 (.request (sampleRequest 3))
  exact ⟨told, told', replies.2.1 34 (sampleRequest 3).m_uniqueId (by decide) told' (by decide)⟩

end SerialNet.DynamicHandler
