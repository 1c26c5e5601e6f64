import SerialNet.Master.StaticLines

namespace SerialNet.DynamicHandler

/-- The address told by a call, if it is a reply. -/
def repliedAddress : DynamicCall → Option LocalAddress
  | .sendAddressReply addr _ => some addr
  | _ => none

/-- The address is one of the dynamic range and no static line has it. -/
def HandedOut (cfg : Config) (dh : DynamicHandler) (a : LocalAddress) : Prop :=
  (cfg.dynamicLowAddress ≤ a.toNat ∧ a.toNat ≤ cfg.dynamicHighAddress) ∧ a ∉ dh.staticLines

/-- A run of the handler, with the ids asked for and the addresses told in reply so far. -/
inductive Served (cfg : Config) (uninitialised : Nat → UniqueId) :
    DynamicHandler → List UniqueId → List LocalAddress → Prop
  | start : Served cfg uninitialised (DynamicHandler.start cfg uninitialised).1 [] []
  | request {dh asked told} (aReq : packet.AddressRequest) : Served cfg uninitialised dh asked told →
      Served cfg uninitialised (dh.receivedAddressRequest aReq).1 (asked ++ [aReq.m_uniqueId])
        (told ++ (dh.receivedAddressRequest aReq).2.filterMap repliedAddress)
  | result {dh dh' : DynamicHandler} {asked told now addr newState calls} : Served cfg uninitialised dh asked told →
      dh.updateAddressLine now addr newState = some (dh', calls) →
      Served cfg uninitialised dh' asked (told ++ calls.filterMap repliedAddress)
  | discoveryDone {dh asked told} (now : ℚ) : Served cfg uninitialised dh asked told →
      Served cfg uninitialised (dh.addressDiscoveryIsDone now) asked told
  | discoveryDue {dh asked told} (timeout : ℚ) : Served cfg uninitialised dh asked told →
      Served cfg uninitialised { dh with m_timer := dh.m_timer.expire timeout } asked told

section

variable {cfg : Config} {uninitialised : Nat → UniqueId} {dh : DynamicHandler}

theorem Served.reach {asked : List UniqueId} {told : List LocalAddress}
    (run : Served cfg uninitialised dh asked told) : Reach cfg uninitialised dh := by
  induction run with
  | start => exact .start
  | request aReq _ ih => exact .request aReq ih
  | result _ updated ih => exact .result ih updated
  | discoveryDone now _ ih => exact .discoveryDone now ih
  | discoveryDue timeout _ ih => exact .discoveryDue timeout ih

theorem replies_receivedAddressRequest (dh : DynamicHandler) (aReq : packet.AddressRequest) :
    (dh.receivedAddressRequest aReq).2.filterMap repliedAddress =
      (((dh.findLineById aReq.m_uniqueId).map (·.m_address)).or dh.m_freeAddresses.getLast?).toList := by
  unfold receivedAddressRequest
  cases dh.findLineById aReq.m_uniqueId with
  | some line => rfl
  | none =>
    cases dh.m_freeAddresses.getLast? with
    | none => rfl
    | some localAddr => rfl

/-- The ids of the static lines are those their constructor left there. -/
theorem Reach.staticIds_eq (reach : Reach cfg uninitialised dh) :
    (dh.m_table.filter (!·.m_isDynamic)).map (·.m_uniqueId) = cfg.staticAddresses.map uninitialised := by
  refine reach.tableInvariant
    (P := fun dh => (dh.m_table.filter (!·.m_isDynamic)).map (·.m_uniqueId) = cfg.staticAddresses.map uninitialised)
    ?_ ?_
  · simp only [DynamicHandler.start, List.filter_map, Function.comp_def, AddressLine.static, Bool.not_false,
      List.filter_true, List.map_map]
  · intro dh dh' calls taken ids
    rw [← ids]
    cases taken with
    | same _ table _ => rw [table]
    | created _ _ _ table => simp [table, AddressLine.dynamic]
    | @updated before line after st _ _ table _ table' =>
      cases isDynamic : line.m_isDynamic <;> simp [table, table', isDynamic]
    | evicted table isDynamic _ table' => simp [table, table', isDynamic]

theorem Reach.static_id_iff (reach : Reach cfg uninitialised dh) (u : UniqueId) :
    (∃ line ∈ dh.m_table, line.m_isDynamic = false ∧ line.m_uniqueId = u) ↔
      ∃ i ∈ cfg.staticAddresses, uninitialised i = u := by
  have ids := reach.staticIds_eq
  rw [← List.mem_map (f := uninitialised), ← ids]
  simp only [List.mem_map, List.mem_filter, Bool.not_eq_true', and_assoc]

/-- A static line with the id is found before any dynamic line with it. -/
theorem OneOwner.found_static (one : dh.OneOwner) {u : UniqueId} {line found : AddressLine}
    (member : line ∈ dh.m_table) (static : line.m_isDynamic = false) (id : line.m_uniqueId = u)
    (first : dh.findLineById u = some found) : found.m_isDynamic = false := by
  obtain ⟨_, before, after, table, none⟩ := List.find?_eq_some_iff_append.mp first
  rw [table] at member
  rcases List.mem_append.mp member with early | late
  · have other := none line early
    rw [decide_eq_true id] at other
    cases other
  · rcases List.mem_cons.mp late with same | later
    · rw [← same, static]
    · rw [OneOwner, owners, table, List.map_append, List.pairwise_append, List.map_cons, List.pairwise_cons] at one
      have dynamic := (one.2.1.1 _ (List.mem_map_of_mem later)).1
      cases kind : found.m_isDynamic with
      | false => rfl
      | true =>
        have isDynamic : line.m_isDynamic = true := dynamic kind
        rw [static] at isDynamic
        cases isDynamic

theorem mem_staticLines_of_static {line : AddressLine} (member : line ∈ dh.m_table)
    (static : line.m_isDynamic = false) : line.m_address ∈ dh.staticLines := by
  refine List.mem_map_of_mem (List.mem_filter.mpr ⟨member, ?_⟩)
  rw [static]
  rfl

theorem mem_pool_of_dynamic {line : AddressLine} (member : line ∈ dh.m_table)
    (dynamic : line.m_isDynamic = true) : line.m_address ∈ dh.pool :=
  List.mem_append_right _ (List.mem_map_of_mem (List.mem_filter.mpr ⟨member, dynamic⟩))

/-- What is in the pool may be handed out. -/
theorem Reach.handedOut_of_mem_pool (separate : cfg.Separate) (reach : Reach cfg uninitialised dh) {a : LocalAddress}
    (member : a ∈ dh.pool) : dh.HandedOut cfg a := by
  rw [reach.pool_perm.mem_iff] at member
  refine ⟨(mem_map_toLocalAddress (by have := separate.dynamicHigh; omega) a).mp member, ?_⟩
  intro static
  rw [reach.staticLines_eq] at static
  have nodup := separate.nodup
  rw [Config.addresses, List.map_append] at nodup
  exact List.disjoint_of_nodup_append nodup member static

/-- A request is answered with a static address if and only if its id is one of those
that static lines happen to hold. -/
theorem Reach.request_handedOut_iff (separate : cfg.Separate) (reach : Reach cfg uninitialised dh)
    (aReq : packet.AddressRequest) :
    (∀ a ∈ (dh.receivedAddressRequest aReq).2.filterMap repliedAddress, dh.HandedOut cfg a) ↔
      ∀ i ∈ cfg.staticAddresses, uninitialised i ≠ aReq.m_uniqueId := by
  rw [replies_receivedAddressRequest]
  have held := reach.static_id_iff aReq.m_uniqueId
  cases first : dh.findLineById aReq.m_uniqueId with
  | some found =>
    have member := List.mem_of_find?_eq_some first
    have id := of_decide_eq_true (List.find?_some (p := fun el : AddressLine => el.m_uniqueId = aReq.m_uniqueId) first)
    simp only [Option.map_some, Option.some_or, Option.toList_some, List.mem_singleton, forall_eq]
    constructor
    · intro handedOut i static same
      obtain ⟨line, inside, kind, lineId⟩ := held.mpr ⟨i, static, same⟩
      exact handedOut.2 (mem_staticLines_of_static member (reach.oneOwner.found_static inside kind lineId first))
    · intro other
      refine reach.handedOut_of_mem_pool separate (mem_pool_of_dynamic member ?_)
      cases kind : found.m_isDynamic with
      | true => rfl
      | false =>
        obtain ⟨i, static, same⟩ := held.mp ⟨found, member, kind, id⟩
        exact absurd same (other i static)
  | none =>
    simp only [Option.map_none, Option.none_or, Option.mem_toList]
    constructor
    · intro _ i static same
      obtain ⟨line, inside, _, lineId⟩ := held.mpr ⟨i, static, same⟩
      exact List.find?_eq_none.mp first line inside (decide_eq_true lineId)
    · intro _ a last
      exact reach.handedOut_of_mem_pool separate (List.mem_append_left _ (List.mem_of_getLast? last))

/-- Being handed out is a matter of the configured ranges alone. -/
theorem Reach.handedOut_iff (reach : Reach cfg uninitialised dh) {dh' : DynamicHandler}
    (reach' : Reach cfg uninitialised dh') (a : LocalAddress) : dh.HandedOut cfg a ↔ dh'.HandedOut cfg a := by
  rw [HandedOut, HandedOut, reach.staticLines_eq, reach'.staticLines_eq]

theorem updateAddressLine_no_reply {dh' : DynamicHandler} {now : ℚ} {addr : LocalAddress}
    {newState : AddressLine.State} {calls : List DynamicCall}
    (run : dh.updateAddressLine now addr newState = some (dh', calls)) : calls.filterMap repliedAddress = [] := by
  obtain ⟨_, _, _, _, _, _, ⟨_, rfl, _⟩ | ⟨_, rfl, _⟩⟩ := updateAddressLine_cases run
  · rfl
  · rfl

end

/-- In every run all replies name addresses of the dynamic range, and none of a static
line, if and only if no request has an id that some static line happens to hold. -/
theorem replies_handedOut_iff (uninitialised : Nat → UniqueId) (dh : DynamicHandler) (asked : List UniqueId)
    (told : List LocalAddress) (run : Served {} uninitialised dh asked told) :
    (∀ a ∈ told, dh.HandedOut {} a) ↔
      ∀ u ∈ asked, ∀ i ∈ Config.staticAddresses {}, uninitialised i ≠ u := by
  induction run with
  | start => simp
  | @request dh asked told aReq before ih =>
    have reach := before.reach
    have here := reach.request_handedOut_iff Config.separate_default aReq
    simp only [List.forall_mem_append, List.forall_mem_singleton, ← (reach.handedOut_iff (.request aReq reach) _)]
    rw [ih, here]
  | @result dh dh' asked told now addr newState calls before updated ih =>
    have reach := before.reach
    rw [updateAddressLine_no_reply updated, List.append_nil]
    simp only [← (reach.handedOut_iff (.result reach updated) _)]
    exact ih
  | discoveryDone now before ih => exact ih
  | discoveryDue timeout before ih => exact ih

/-- A client whose id no static line holds is told the first dynamic address. -/
theorem replies_handedOut_first :
    let dh := (DynamicHandler.start {} fun _ => (sampleRequest 0).m_uniqueId).1
    Served {} (fun _ => (sampleRequest 0).m_uniqueId) (dh.receivedAddressRequest (sampleRequest 5)).1
        [(sampleRequest 5).m_uniqueId] [33] ∧
      (dh.receivedAddressRequest (sampleRequest 5)).1.HandedOut {} 33 := by
  intro dh
  have run : Served {} (fun _ => (sampleRequest 0).m_uniqueId) (dh.receivedAddressRequest (sampleRequest 5)).1
      [(sampleRequest 5).m_uniqueId] [33] := .request (sampleRequest 5) .start
  refine ⟨run, (replies_handedOut_iff _ _ _ _ run).mpr ?_ 33 (List.mem_singleton_self _)⟩
  rw [List.forall_mem_singleton]
  intro i _
  decide

/-- The memory of the static lines holds the id of the client that asks first. It is
told the address of the first static line. -/
theorem reply_static_address :
    ∃ dh, Served {} (fun _ => (sampleRequest 0).m_uniqueId) dh [(sampleRequest 0).m_uniqueId] [1] ∧
      (1 : LocalAddress) ∈ dh.staticLines ∧ ¬ dh.HandedOut {} 1 := by
  have run : Served {} (fun _ => (sampleRequest 0).m_uniqueId)
      ((DynamicHandler.start {} fun _ => (sampleRequest 0).m_uniqueId).1.receivedAddressRequest (sampleRequest 0)).1
      [(sampleRequest 0).m_uniqueId] [1] := .request (sampleRequest 0) .start
  have static : (1 : LocalAddress) ∈ ((DynamicHandler.start {} fun _ =>
      (sampleRequest 0).m_uniqueId).1.receivedAddressRequest (sampleRequest 0)).1.staticLines := by decide
  exact ⟨_, run, static, fun handedOut => handedOut.2 static⟩

end SerialNet.DynamicHandler
