import SerialNet.Master.DynamicHandler

namespace SerialNet.DynamicHandler

/-- Everything a line update can do. The line found is the first one with the
address; it is evicted, or kept with its new state and polled again. -/
theorem updateAddressLine_cases {dh dh' : DynamicHandler} {now : ℚ} {addr : LocalAddress}
    {newState : AddressLine.State} {calls : List DynamicCall}
    (run : dh.updateAddressLine now addr newState = some (dh', calls)) :
    ∃ before line after, dh.m_table = before ++ line :: after ∧ line.m_address = addr ∧
      (∀ l ∈ before, l.m_address ≠ addr) ∧
      (((line.setState newState).removeDynamic = true ∧ calls = [] ∧
          dh' = { dh with m_freeAddresses := dh.m_freeAddresses ++ [addr], m_table := before ++ after }) ∨
        ((line.setState newState).removeDynamic = false ∧
          calls = [.postAction (.makeSendTokenAction addr) (nextTime now (line.setState newState).m_state)] ∧
          dh' = { dh with m_table := before ++ line.setState newState :: after })) := by
  obtain ⟨offset, found, run⟩ := Option.bind_eq_some_iff.mp run
  obtain ⟨line, atOffset, run⟩ := Option.bind_eq_some_iff.mp run
  obtain ⟨inside, same⟩ := List.getElem?_eq_some_iff.mp atOffset
  obtain ⟨_, matches_, first⟩ := List.findIdx?_eq_some_iff_getElem.mp found
  have address : line.m_address = addr := by
    rw [← same]
    exact (of_decide_eq_true matches_).symm
  have split : dh.m_table = dh.m_table.take offset ++ line :: dh.m_table.drop (offset + 1) := by
    rw [← same, List.getElem_cons_drop, List.take_append_drop]
  have length : (dh.m_table.take offset).length = offset := List.length_take_of_le inside.le
  refine ⟨_, line, _, split, address, ?_, ?_⟩
  · intro l member equal
    obtain ⟨j, bound, atJ⟩ := List.getElem_of_mem member
    rw [length] at bound
    rw [List.getElem_take] at atJ
    exact first j bound (decide_eq_true (by rw [atJ, equal]))
  · dsimp only at run
    split at run
    · rename_i evicted
      cases Option.some.inj run
      refine Or.inl ⟨evicted, rfl, ?_⟩
      rw [AddressLine.setState_address, address, List.eraseIdx_eq_take_drop_succ]
    · rename_i kept
      cases Option.some.inj run
      refine Or.inr ⟨Bool.eq_false_iff.mpr kept, rfl, ?_⟩
      rw [List.set_eq_take_append_cons_drop, if_pos inside]

/-- An address with a line is never looked up in vain. -/
theorem updateAddressLine_total {dh : DynamicHandler} {addr : LocalAddress}
    (present : addr ∈ dh.m_table.map (·.m_address)) (now : ℚ) (newState : AddressLine.State) :
    ∃ dh' calls, dh.updateAddressLine now addr newState = some (dh', calls) := by
  obtain ⟨line, member, address⟩ := List.mem_map.mp present
  have found : (dh.findLine addr).isSome = true := by
    rw [findLine, List.findIdx?_isSome, List.any_eq_true]
    exact ⟨line, member, decide_eq_true address.symm⟩
  obtain ⟨offset, atOffset⟩ := Option.isSome_iff_exists.mp found
  obtain ⟨inside, _, _⟩ := List.findIdx?_eq_some_iff_getElem.mp atOffset
  simp only [updateAddressLine, atOffset, List.getElem?_eq_getElem inside, Option.bind_eq_bind,
    Option.bind_some]
  split
  · exact ⟨_, _, rfl⟩
  · exact ⟨_, _, rfl⟩

/-- Everything an address request can do. -/
theorem receivedAddressRequest_cases (dh : DynamicHandler) (aReq : packet.AddressRequest) :
    (∃ line ∈ dh.m_table, line.m_uniqueId = aReq.m_uniqueId ∧
      dh.receivedAddressRequest aReq = (dh, [.sendAddressReply line.m_address aReq.m_uniqueId])) ∨
    ((∀ line ∈ dh.m_table, line.m_uniqueId ≠ aReq.m_uniqueId) ∧ dh.m_freeAddresses = [] ∧
      dh.receivedAddressRequest aReq = (dh, [])) ∨
    ((∀ line ∈ dh.m_table, line.m_uniqueId ≠ aReq.m_uniqueId) ∧
      ∃ rest localAddr, dh.m_freeAddresses = rest ++ [localAddr] ∧
        dh.receivedAddressRequest aReq =
          ({ dh with
              m_freeAddresses := rest
              m_table := dh.m_table ++ [.dynamic localAddr aReq.m_uniqueId aReq.m_channelType] },
            [.postActionNow (.makeSendTokenAction localAddr),
              .sendAddressReply localAddr aReq.m_uniqueId])) := by
  unfold receivedAddressRequest
  cases found : dh.findLineById aReq.m_uniqueId with
  | some line =>
    have id : decide (line.m_uniqueId = aReq.m_uniqueId) = true :=
      List.find?_some (p := fun el : AddressLine => el.m_uniqueId = aReq.m_uniqueId) found
    exact Or.inl ⟨line, List.mem_of_find?_eq_some found, of_decide_eq_true id, rfl⟩
  | none =>
    have unknown : ∀ line ∈ dh.m_table, line.m_uniqueId ≠ aReq.m_uniqueId := by
      intro line member same
      exact List.find?_eq_none.mp found line member (decide_eq_true same)
    rcases List.eq_nil_or_concat dh.m_freeAddresses with empty | ⟨rest, localAddr, stack⟩
    · exact Or.inr (Or.inl ⟨unknown, empty, by simp [empty]⟩)
    · exact Or.inr (Or.inr ⟨unknown, rest, localAddr, by simpa using stack, by simp [stack]⟩)

/-- The addresses handed out to dynamic lines. -/
def dynamicAddresses (dh : DynamicHandler) : List LocalAddress :=
  (dh.m_table.filter (·.m_isDynamic)).map (·.m_address)

/-- Free and handed out addresses together. -/
def pool (dh : DynamicHandler) : List LocalAddress := dh.m_freeAddresses ++ dh.dynamicAddresses

theorem pool_updateAddressLine {dh dh' : DynamicHandler} {now : ℚ} {addr : LocalAddress}
    {newState : AddressLine.State} {calls : List DynamicCall}
    (run : dh.updateAddressLine now addr newState = some (dh', calls)) : dh'.pool.Perm dh.pool := by
  obtain ⟨before, line, after, table, address, _, evicted | kept⟩ := updateAddressLine_cases run
  · obtain ⟨removed, _, result⟩ := evicted
    have isDynamic : line.m_isDynamic = true := (of_decide_eq_true removed).1
    subst result
    simp only [pool, dynamicAddresses, table, List.filter_append, List.filter_cons, isDynamic, if_true,
      List.map_append, List.map_cons, address, List.append_assoc, List.singleton_append]
    exact List.Perm.append_left _ List.perm_middle.symm
  · obtain ⟨_, _, result⟩ := kept
    subst result
    have same : ((before ++ line.setState newState :: after).filter (·.m_isDynamic)).map (·.m_address) =
        ((before ++ line :: after).filter (·.m_isDynamic)).map (·.m_address) := by
      cases isDynamic : line.m_isDynamic <;> simp [isDynamic]
    simp only [pool, dynamicAddresses, table, same]
    exact List.Perm.refl _

theorem pool_receivedAddressRequest (dh : DynamicHandler) (aReq : packet.AddressRequest) :
    (dh.receivedAddressRequest aReq).1.pool.Perm dh.pool := by
  rcases dh.receivedAddressRequest_cases aReq with ⟨_, _, _, known⟩ | ⟨_, _, empty⟩ |
    ⟨_, rest, localAddr, stack, allocated⟩
  · rw [known]
  · rw [empty]
  · rw [allocated]
    simp only [pool, dynamicAddresses, stack, List.filter_append, List.map_append, List.append_assoc]
    exact List.Perm.append_left _ List.perm_append_comm

/-- What happens to the dynamic handler of a running master: address requests,
results for the token of an address that has a line, and the discovery timer. -/
inductive Reach (cfg : Config) (uninitialised : Nat → UniqueId) : DynamicHandler → Prop
  | start : Reach cfg uninitialised (DynamicHandler.start cfg uninitialised).1
  | request {dh : DynamicHandler} (aReq : packet.AddressRequest) :
      Reach cfg uninitialised dh → Reach cfg uninitialised (dh.receivedAddressRequest aReq).1
  | result {dh dh' : DynamicHandler} {now addr newState calls} : Reach cfg uninitialised dh →
      dh.updateAddressLine now addr newState = some (dh', calls) → Reach cfg uninitialised dh'
  | discoveryDone {dh : DynamicHandler} (now : ℚ) :
      Reach cfg uninitialised dh → Reach cfg uninitialised (dh.addressDiscoveryIsDone now)
  | discoveryDue {dh : DynamicHandler} (timeout : ℚ) :
      Reach cfg uninitialised dh → Reach cfg uninitialised { dh with m_timer := dh.m_timer.expire timeout }

theorem Reach.pool_perm {cfg : Config} {uninitialised : Nat → UniqueId} {dh : DynamicHandler}
    (reach : Reach cfg uninitialised dh) : dh.pool.Perm (cfg.dynamicAddresses.map toLocalAddress) := by
  induction reach with
  | start =>
    have static : (DynamicHandler.start cfg uninitialised).1.dynamicAddresses = [] := by
      simp [DynamicHandler.start, dynamicAddresses, List.filter_map, AddressLine.static, Function.comp_def]
    rw [pool, static, List.append_nil]
    exact (List.reverse_perm _).map _
  | request aReq _ ih => exact (pool_receivedAddressRequest _ aReq).trans ih
  | result _ run ih => exact (pool_updateAddressLine run).trans ih
  | discoveryDone _ _ ih => exact ih
  | discoveryDue _ _ ih => exact ih

theorem toNat_toLocalAddress {i : Nat} (small : i ≤ 255) : (toLocalAddress i).toNat = i := by
  simp only [toLocalAddress, UInt8.toNat_ofNat']
  omega

theorem nodup_map_toLocalAddress {l : List Nat} (small : ∀ i ∈ l, i ≤ 255) (nodup : l.Nodup) :
    (l.map toLocalAddress).Nodup := by
  refine List.Nodup.map_on ?_ nodup
  intro x memX y memY same
  rw [← toNat_toLocalAddress (small x memX), same, toNat_toLocalAddress (small y memY)]

theorem mem_map_toLocalAddress {low high : Nat} (small : high ≤ 255) (a : LocalAddress) :
    a ∈ (List.range' low (high + 1 - low)).map toLocalAddress ↔ low ≤ a.toNat ∧ a.toNat ≤ high := by
  rw [List.mem_map]
  constructor
  · rintro ⟨i, member, same⟩
    obtain ⟨lower, upper⟩ := List.mem_range'_1.mp member
    rw [← same, toNat_toLocalAddress (by omega)]
    omega
  · rintro ⟨lower, upper⟩
    exact ⟨a.toNat, List.mem_range'_1.mpr (by omega), UInt8.ofNat_toNat⟩

/-- The free list and the dynamic lines always share out the dynamic range, each
address being in exactly one place. Static lines, whatever id they happen to
hold, never get in the way, and an exhausted pool answers nobody. -/
theorem pool_partition (cfg : Config) (oneByte : cfg.dynamicHighAddress ≤ 255)
    (uninitialised : Nat → UniqueId) {dh : DynamicHandler} (reach : Reach cfg uninitialised dh) :
    dh.pool.Nodup ∧
    (∀ a : LocalAddress, a ∈ dh.pool ↔
      cfg.dynamicLowAddress ≤ a.toNat ∧ a.toNat ≤ cfg.dynamicHighAddress) ∧
    (∀ aReq : packet.AddressRequest, dh.m_freeAddresses = [] →
      (∀ line ∈ dh.m_table, line.m_uniqueId ≠ aReq.m_uniqueId) →
      dh.receivedAddressRequest aReq = (dh, [])) := by
  have perm := reach.pool_perm
  refine ⟨?_, ?_, ?_⟩
  · refine perm.nodup_iff.mpr (nodup_map_toLocalAddress ?_ List.nodup_range')
    intro i member
    have bounds := List.mem_range'_1.mp member
    omega
  · intro a
    rw [perm.mem_iff]
    exact mem_map_toLocalAddress oneByte a
  · intro aReq empty unknown
    rcases dh.receivedAddressRequest_cases aReq with ⟨line, member, known, _⟩ | ⟨_, _, nothing⟩ |
      ⟨_, rest, localAddr, stack, _⟩
    · exact absurd known (unknown line member)
    · exact nothing
    · rw [empty] at stack
      simp at stack

/-- The default ranges, after one client has joined. -/
theorem pool_partition_joined :
    let id : UniqueId := ⟨[1, 2, 3, 4, 5, 6, 7, 8], rfl⟩
    let dh := ((start {} fun _ => id).1.receivedAddressRequest ⟨⟨[8, 7, 6, 5, 4, 3, 2, 1], rfl⟩, .tap_format,
      ⟨[0, 0, 0, 0], rfl⟩⟩).1
    dh.dynamicAddresses = [33] ∧ dh.pool.Nodup := by
  intro id dh
  exact ⟨by decide, (pool_partition {} (by decide) (fun _ => id) (.request _ .start)).1⟩

end SerialNet.DynamicHandler
