import SerialNet.Lib.History
import SerialNet.Master.StaticLines

namespace SerialNet.DynamicHandler

open Master (lineState)

/-- What the handler is told, with token results as they are reported. -/
inductive Input
  | request (aReq : packet.AddressRequest)
  | result (now : ℚ) (addr : LocalAddress) (rv : ReturnValue)
  | discoveryDone (now : ℚ)
  | discoveryDue (timeout : ℚ)

/-- `ActionHandler::reportActionResult` translates a token result into a line state. -/
def feed (dh : DynamicHandler) : Input → Option (DynamicHandler × List DynamicCall)
  | .request aReq => some (dh.receivedAddressRequest aReq)
  | .result now addr rv => (lineState rv).bind fun newState => dh.updateAddressLine now addr newState
  | .discoveryDone now => some (dh.addressDiscoveryIsDone now, [])
  | .discoveryDue timeout => some ({ dh with m_timer := dh.m_timer.expire timeout }, [])

/-- The addresses that have a line. -/
def lineAddresses (dh : DynamicHandler) : List LocalAddress := dh.m_table.map (·.m_address)

/-- The token results reported for each address since its line was created. -/
def note (dh : DynamicHandler) (results : LocalAddress → List ReturnValue) : Input → LocalAddress → List ReturnValue
  | .request _ => fun a => if a ∈ dh.lineAddresses then results a else []
  | .result _ addr rv => Function.update results addr (results addr ++ [rv])
  | _ => results

/-- A run of the handler, with the results reported so far. -/
inductive Reported (cfg : Config) (uninitialised : Nat → UniqueId) :
    DynamicHandler → (LocalAddress → List ReturnValue) → Prop
  | start : Reported cfg uninitialised (DynamicHandler.start cfg uninitialised).1 fun _ => []
  | next {dh dh' : DynamicHandler} {results calls} (i : Input) : Reported cfg uninitialised dh results →
      dh.feed i = some (dh', calls) → Reported cfg uninitialised dh' (dh.note results i)

/-- The last four results are missed tokens. -/
def FourMissed (results : List ReturnValue) : Prop := List.replicate 4 .token_timeout <:+ results

instance (results : List ReturnValue) : Decidable (FourMissed results) :=
  inferInstanceAs (Decidable (_ <:+ _))

theorem fourMissed_iff (results : List ReturnValue) : FourMissed results ↔ 3 < streak .token_timeout results :=
  streak.replicate_suffix_iff _ 4 results

theorem lineState_badClient_iff {rv : ReturnValue} {newState : AddressLine.State}
    (state : lineState rv = some newState) : newState = .badClient ↔ rv = .token_timeout := by
  cases rv <;> simp only [lineState, Option.some.injEq, reduceCtorEq] at state <;> subst state <;> simp

/-- A line keeps count of the tokens missed in a row, and shows the last result. -/
structure Tallied (line : AddressLine) (results : List ReturnValue) : Prop where
  tokens : ∀ rv ∈ results, (lineState rv).isSome = true
  count : line.m_badCount = streak .token_timeout results
  unreported : results = [] → line.m_state = if line.m_isDynamic then .idle else .free
  state : ∀ {rv newState}, results.getLast? = some rv → lineState rv = some newState →
    line.m_state = if FourMissed results then .free else newState
  kept : line.m_isDynamic = true → ¬ FourMissed results

theorem fourMissed_nil : ¬ FourMissed [] := by decide

theorem lineState_ne_free {rv : ReturnValue} {newState : AddressLine.State} (state : lineState rv = some newState) :
    newState ≠ .free := by
  rintro rfl
  cases rv <;> cases state

namespace Tallied

variable {line : AddressLine} {results : List ReturnValue}

theorem static (addr : LocalAddress) (uninitialised : UniqueId) : Tallied (.static addr uninitialised) [] :=
  ⟨by rintro _ ⟨⟩, rfl, fun _ => rfl, by rintro _ _ ⟨⟩, by rintro ⟨⟩⟩

theorem dynamic (addr : LocalAddress) (uid : UniqueId) (ct : ChannelType) : Tallied (.dynamic addr uid ct) [] :=
  ⟨by rintro _ ⟨⟩, rfl, fun _ => rfl, by rintro _ _ ⟨⟩, fun _ => fourMissed_nil⟩

theorem setState_count (tallied : Tallied line results) {rv : ReturnValue} {newState : AddressLine.State}
    (state : lineState rv = some newState) :
    (line.setState newState).m_badCount = streak .token_timeout (results ++ [rv]) := by
  rw [streak.concat, AddressLine.setState]
  simp only [lineState_badClient_iff state, tallied.count]

theorem setState_state (tallied : Tallied line results) {rv : ReturnValue} {newState : AddressLine.State}
    (state : lineState rv = some newState) :
    (line.setState newState).m_state = if FourMissed (results ++ [rv]) then .free else newState := by
  have count := tallied.setState_count state
  have four := fourMissed_iff (results ++ [rv])
  rw [← count] at four
  simp only [four]
  rfl

/-- The line is given up when it is dynamic and the last four tokens were missed. -/
theorem removeDynamic_iff (tallied : Tallied line results) {rv : ReturnValue} {newState : AddressLine.State}
    (state : lineState rv = some newState) :
    (line.setState newState).removeDynamic = true ↔ line.m_isDynamic = true ∧ FourMissed (results ++ [rv]) := by
  have notFree := lineState_ne_free state
  simp only [AddressLine.removeDynamic, AddressLine.setState_isDynamic, tallied.setState_state state, decide_eq_true_eq]
  by_cases missed : FourMissed (results ++ [rv])
  · simp [missed]
  · simp [missed, notFree]

/-- A line that is kept stays up to date. -/
theorem setState (tallied : Tallied line results) {rv : ReturnValue} {newState : AddressLine.State}
    (state : lineState rv = some newState) (stays : (line.setState newState).removeDynamic = false) :
    Tallied (line.setState newState) (results ++ [rv]) := by
  refine ⟨?_, tallied.setState_count state, by simp, ?_, ?_⟩
  · rw [List.forall_mem_append, List.forall_mem_singleton, state]
    exact ⟨tallied.tokens, rfl⟩
  · intro rv' newState' last state'
    rw [List.getLast?_concat, Option.some.injEq] at last
    rw [← last, state] at state'
    cases state'
    exact tallied.setState_state state
  · intro isDynamic missed
    rw [(tallied.removeDynamic_iff state).mpr ⟨isDynamic, missed⟩] at stays
    cases stays

theorem free_iff (tallied : Tallied line results) (static : line.m_isDynamic = false) :
    line.m_state = .free ↔ results = [] ∨ FourMissed results := by
  rcases List.eq_nil_or_concat results with empty | ⟨earlier, rv, ending⟩
  · have free := tallied.unreported empty
    simp only [static, Bool.false_eq_true, if_false] at free
    simp [free, empty]
  · rw [List.concat_eq_append] at ending
    obtain ⟨newState, state⟩ := Option.isSome_iff_exists.mp (tallied.tokens rv (by simp [ending]))
    rw [tallied.state (by rw [ending, List.getLast?_concat]) state]
    have some_ : results ≠ [] := by simp [ending]
    by_cases missed : FourMissed results
    · simp [missed]
    · simp [missed, some_, lineState_ne_free state]

end Tallied

section Runs

variable {cfg : Config} {uninitialised : Nat → UniqueId} {dh dh' : DynamicHandler}
  {results : LocalAddress → List ReturnValue} {calls : List DynamicCall}

theorem Reported.reach (run : Reported cfg uninitialised dh results) : Reach cfg uninitialised dh := by
  induction run with
  | start => exact .start
  | next i _ fed ih =>
    cases i with
    | request aReq =>
      have same := Option.some.inj fed
      have asked := Reach.request aReq ih
      rw [same] at asked
      exact asked
    | result now addr rv =>
      obtain ⟨_, _, updated⟩ := Option.bind_eq_some_iff.mp fed
      exact .result ih updated
    | discoveryDone now =>
      cases Option.some.inj fed
      exact .discoveryDone now ih
    | discoveryDue timeout =>
      cases Option.some.inj fed
      exact .discoveryDue timeout ih

theorem Reach.nodup_addresses (separate : cfg.Separate) (reach : Reach cfg uninitialised dh) :
    (dh.m_freeAddresses ++ dh.lineAddresses).Nodup :=
  reach.addresses_perm.nodup_iff.mpr separate.nodup

/-- The other lines have other addresses. -/
theorem Reach.address_ne (separate : cfg.Separate) (reach : Reach cfg uninitialised dh)
    {before after : List AddressLine} {line other : AddressLine} (table : dh.m_table = before ++ line :: after)
    (member : other ∈ before ++ after) : other.m_address ≠ line.m_address := by
  have nodup := (reach.nodup_addresses separate).of_append_right
  rw [lineAddresses, table, (List.perm_middle.map _).nodup_iff, List.map_cons, List.nodup_cons] at nodup
  intro same
  rw [← same] at nodup
  exact nodup.1 (List.mem_map_of_mem member)

theorem Reported.tallied (separate : cfg.Separate) (run : Reported cfg uninitialised dh results) :
    ∀ line ∈ dh.m_table, Tallied line (results line.m_address) := by
  induction run with
  | start =>
    intro line member
    obtain ⟨i, _, rfl⟩ := List.mem_map.mp member
    exact .static _ _
  | @next dh dh' results calls i before fed ih =>
    have reach := before.reach
    cases i with
    | request aReq =>
      have served : dh.receivedAddressRequest aReq = (dh', calls) := Option.some.inj fed
      have old : ∀ line ∈ dh.m_table, Tallied line (dh.note results (.request aReq) line.m_address) := by
        intro line member
        have known : line.m_address ∈ dh.lineAddresses := List.mem_map_of_mem member
        simp only [note, known, if_true]
        exact ih line member
      rcases dh.receivedAddressRequest_cases aReq with ⟨_, _, _, known⟩ | ⟨_, _, nothing⟩ |
        ⟨_, rest, localAddr, stack, allocated⟩
      · cases known.symm.trans served
        exact old
      · cases nothing.symm.trans served
        exact old
      · cases allocated.symm.trans served
        intro line member
        rcases List.mem_append.mp member with present | new
        · exact old line present
        · have nodup := reach.nodup_addresses separate
          have unlisted : localAddr ∉ dh.lineAddresses := by
            refine List.disjoint_of_nodup_append nodup ?_
            rw [stack]
            exact List.mem_append_right _ (List.mem_singleton_self _)
          rw [List.mem_singleton.mp new]
          simp only [note, AddressLine.dynamic, unlisted, if_false]
          exact .dynamic _ _ _
    | result now addr rv =>
      obtain ⟨newState, state, updated⟩ := Option.bind_eq_some_iff.mp fed
      obtain ⟨early, line, late, table, address, _, taken⟩ := updateAddressLine_cases updated
      subst address
      have others : ∀ l ∈ early ++ late,
          Tallied l (dh.note results (.result now line.m_address rv) l.m_address) := by
        intro l member
        have other := reach.address_ne separate table member
        simp only [note, Function.update_of_ne other]
        exact ih l (by rw [table]; exact List.perm_middle.symm.mem_iff.mp (List.mem_cons_of_mem _ member))
      rcases taken with ⟨_, _, rfl⟩ | ⟨stays, _, rfl⟩
      · exact others
      · intro l member
        rcases List.mem_cons.mp (List.perm_middle.mem_iff.mp member) with same | other
        · rw [same]
          simp only [note, AddressLine.setState_address, Function.update_self]
          exact (ih line (by rw [table]; simp)).setState state stays
        · exact others l other
    | discoveryDone now =>
      cases Option.some.inj fed
      exact ih
    | discoveryDue timeout =>
      cases Option.some.inj fed
      exact ih

/-- What is reported for a line decides about it. -/
theorem Reported.result_cases (separate : cfg.Separate) (run : Reported cfg uninitialised dh results)
    {line : AddressLine} (member : line ∈ dh.m_table) (now : ℚ) {rv : ReturnValue} {newState : AddressLine.State}
    (state : lineState rv = some newState) :
    ∃ dh' calls, dh.feed (.result now line.m_address rv) = some (dh', calls) ∧
      (line.m_isDynamic = true ∧ FourMissed (results line.m_address ++ [rv]) ∧
          line.m_address ∉ dh'.lineAddresses ∧
          dh'.m_freeAddresses = dh.m_freeAddresses ++ [line.m_address] ∧ calls = [] ∨
        ¬ (line.m_isDynamic = true ∧ FourMissed (results line.m_address ++ [rv])) ∧
          line.setState newState ∈ dh'.m_table ∧ dh'.m_freeAddresses = dh.m_freeAddresses ∧
          calls = [.postAction (.makeSendTokenAction line.m_address)
            (nextTime now (line.setState newState).m_state)]) := by
  obtain ⟨dh', calls, updated⟩ := updateAddressLine_total (List.mem_map_of_mem member) now newState
  refine ⟨dh', calls, by simp only [feed, state, Option.bind_some, updated], ?_⟩
  obtain ⟨before, found, after, table, address, _, taken⟩ := updateAddressLine_cases updated
  have others : ∀ other ∈ before ++ after, other.m_address ≠ found.m_address := fun other =>
    run.reach.address_ne separate table
  have same : found = line := by
    rw [table] at member
    rcases List.mem_cons.mp (List.perm_middle.mem_iff.mp member) with same | other
    · exact same.symm
    · exact absurd address.symm (others line other)
  subst same
  have removed := (run.tallied separate found member).removeDynamic_iff state
  rcases taken with ⟨gone, none, rfl⟩ | ⟨stays, again, rfl⟩
  · left
    obtain ⟨isDynamic, missed⟩ := removed.mp gone
    refine ⟨isDynamic, missed, ?_, rfl, none⟩
    intro listed
    obtain ⟨other, inside, sameAddress⟩ := List.mem_map.mp listed
    exact others other inside sameAddress
  · right
    refine ⟨?_, List.mem_append_right _ List.mem_cons_self, rfl, again⟩
    intro both
    rw [removed.mpr both] at stays
    cases stays

/-- Whatever else happens, a line stays where it is. -/
theorem Reported.other_kept {line : AddressLine} (member : line ∈ dh.m_table) (i : Input)
    (other : ∀ now rv, i ≠ .result now line.m_address rv) (fed : dh.feed i = some (dh', calls)) :
    line ∈ dh'.m_table := by
  cases i with
  | request aReq =>
    have served : dh.receivedAddressRequest aReq = (dh', calls) := Option.some.inj fed
    rcases dh.receivedAddressRequest_cases aReq with ⟨_, _, _, known⟩ | ⟨_, _, nothing⟩ | ⟨_, _, _, _, allocated⟩
    · cases known.symm.trans served
      exact member
    · cases nothing.symm.trans served
      exact member
    · cases allocated.symm.trans served
      exact List.mem_append_left _ member
  | result now addr rv =>
    obtain ⟨newState, _, updated⟩ := Option.bind_eq_some_iff.mp fed
    obtain ⟨before, found, after, table, address, _, taken⟩ := updateAddressLine_cases updated
    have differs : line ≠ found := by
      rintro rfl
      exact other now rv (by rw [address])
    rw [table] at member
    have apart : line ∈ before ++ after := by
      rcases List.mem_cons.mp (List.perm_middle.mem_iff.mp member) with same | apart
      · exact absurd same differs
      · exact apart
    rcases taken with ⟨_, _, rfl⟩ | ⟨_, _, rfl⟩
    · exact apart
    · exact List.perm_middle.symm.mem_iff.mp (List.mem_cons_of_mem _ apart)
  | discoveryDone now =>
    cases Option.some.inj fed
    exact member
  | discoveryDue timeout =>
    cases Option.some.inj fed
    exact member

/-- The end of an action of the master is such a step, if it concerns the handler. -/
theorem Reported.settles (run : Reported cfg uninitialised dh results) {now : ℚ} {addr : LocalAddress}
    {rv : ReturnValue} {again : Option ℚ} (settles : Master.Settles dh now addr rv dh' again) :
    ∃ results', Reported cfg uninitialised dh' results' := by
  cases settles with
  | started => exact ⟨_, run⟩
  | queried => exact ⟨_, run.next (.discoveryDone now) rfl⟩
  | evicted state _ _ _ _ updated =>
    exact ⟨_, run.next (.result now addr rv) (by simp only [feed, state, Option.bind_some]; exact updated)⟩
  | kept state _ _ _ _ updated =>
    exact ⟨_, run.next (.result now addr rv) (by simp only [feed, state, Option.bind_some]; exact updated)⟩

/-- Every run of the master is a run of its dynamic handler in this sense. -/
theorem Reported.of_master {allowed : Master → Master.Label → Prop} {node : PacketTypeCodec} {now : ℚ} {m : Master}
    (reach : Master.Reach allowed cfg node uninitialised now m) :
    ∃ results, Reported cfg uninitialised m.m_dynamicHandler results := by
  refine reach.invariant (P := fun m => ∃ results, Reported cfg uninitialised m.m_dynamicHandler results)
    ⟨_, .start⟩ ?_
  rintro m m' l synced ⟨results, run⟩ _ step
  rcases synced.step_cases step with ⟨_, _, _, _, taken⟩ | ⟨_, _, _, _, _, _, taken⟩
  · cases taken with
    | ownIdle _ _ _ settles =>
      rw [Master.conclude_dynamicHandler]
      exact run.settles settles
    | reported _ settles =>
      rw [Master.goto_dynamicHandler, Master.conclude_dynamicHandler]
      exact run.settles settles
    | @requested aReq _ =>
      rw [Master.goto_dynamicHandler, Master.receivedAddressRequest_handler]
      exact ⟨_, run.next (.request aReq) rfl⟩
    | _ => exact ⟨results, by simpa [Master.startTimer] using run⟩
  · cases taken with
    | discovery => exact ⟨_, run.next (.discoveryDue _) rfl⟩
    | delayIdle _ =>
      rw [Master.startNext_dynamicHandler]
      exact ⟨_, run⟩
    | _ => exact ⟨_, run⟩

end Runs

/-- A dynamic line is removed by the fourth missed token in a row, which frees its
address and posts no token, and by nothing else. Otherwise a result keeps the line and
posts a token, and the line shows the result, or free after four missed tokens if it is
static. A static line that nothing has been reported for is free too. -/
theorem evicted_on_fourth_timeout (uninitialised : Nat → UniqueId) (dh : DynamicHandler)
    (results : LocalAddress → List ReturnValue) (run : Reported {} uninitialised dh results)
    (line : AddressLine) (member : line ∈ dh.m_table) :
    (∀ i dh' calls, dh.feed i = some (dh', calls) →
      (line.m_address ∉ dh'.lineAddresses ↔ line.m_isDynamic = true ∧
        ∃ now rv, i = .result now line.m_address rv ∧ FourMissed (results line.m_address ++ [rv]))) ∧
    (∀ now rv newState, lineState rv = some newState →
      ∃ dh' calls, dh.feed (.result now line.m_address rv) = some (dh', calls) ∧
        if line.m_isDynamic = true ∧ FourMissed (results line.m_address ++ [rv]) then
          dh'.m_freeAddresses = dh.m_freeAddresses ++ [line.m_address] ∧ calls = []
        else
          ∃ line' ∈ dh'.m_table, line'.m_address = line.m_address ∧
            line'.m_state = (if FourMissed (results line.m_address ++ [rv]) then .free else newState) ∧
            calls = [.postAction (.makeSendTokenAction line.m_address) (nextTime now line'.m_state)]) ∧
    (line.m_isDynamic = false →
      (line.m_state = .free ↔ results line.m_address = [] ∨ FourMissed (results line.m_address))) := by
  have tallied := run.tallied Config.separate_default line member
  refine ⟨?_, ?_, tallied.free_iff⟩
  · intro i dh' calls fed
    constructor
    · intro gone
      by_cases mine : ∃ now rv, i = .result now line.m_address rv
      · obtain ⟨now, rv, rfl⟩ := mine
        obtain ⟨newState, state, _⟩ := Option.bind_eq_some_iff.mp fed
        obtain ⟨_, _, fed', cases_⟩ := run.result_cases Config.separate_default member now state
        cases fed.symm.trans fed'
        rcases cases_ with ⟨isDynamic, missed, _⟩ | ⟨_, kept, _⟩
        · exact ⟨isDynamic, now, rv, rfl, missed⟩
        · exact absurd (List.mem_map_of_mem (f := (·.m_address)) kept) gone
      · have kept := Reported.other_kept member i (fun now rv same => mine ⟨now, rv, same⟩) fed
        exact absurd (List.mem_map_of_mem kept) gone
    · rintro ⟨isDynamic, now, rv, rfl, missed⟩
      obtain ⟨newState, state, _⟩ := Option.bind_eq_some_iff.mp fed
      obtain ⟨_, _, fed', cases_⟩ := run.result_cases Config.separate_default member now state
      cases fed.symm.trans fed'
      rcases cases_ with ⟨_, _, gone, _⟩ | ⟨other, _⟩
      · exact gone
      · exact absurd ⟨isDynamic, missed⟩ other
  · intro now rv newState state
    obtain ⟨dh', calls, fed, cases_⟩ := run.result_cases Config.separate_default member now state
    refine ⟨dh', calls, fed, ?_⟩
    rcases cases_ with ⟨isDynamic, missed, _, free, none⟩ | ⟨other, kept, _, again⟩
    · rw [if_pos ⟨isDynamic, missed⟩]
      exact ⟨free, none⟩
    · rw [if_neg other]
      exact ⟨_, kept, rfl, tallied.setState_state state, again⟩

/-- Three missed tokens cost a client nothing yet, a fourth one its address. -/
theorem evicted_client :
    ∃ dh results, Reported {} (fun _ => (sampleRequest 0).m_uniqueId) dh results ∧
      results 33 = [.token_timeout, .token_timeout, .token_timeout] ∧ 33 ∈ dh.lineAddresses ∧
      ∀ now dh' calls, dh.feed (.result now 33 .token_timeout) = some (dh', calls) → 33 ∉ dh'.lineAddresses := by
  have joined : Reported {} (fun _ => (sampleRequest 0).m_uniqueId) _ _ := .next (.request (sampleRequest 1)) .start rfl
  have once := joined.next (.result 0 33 .token_timeout) rfl
  have twice := once.next (.result 0 33 .token_timeout) rfl
  have thrice := twice.next (.result 0 33 .token_timeout) rfl
  refine ⟨_, _, thrice, by decide, by decide, ?_⟩
  intro now dh' calls fed
  have evicted := evicted_on_fourth_timeout _ _ _ thrice
    (AddressLine.setState (AddressLine.setState (AddressLine.setState
      (.dynamic 33 (sampleRequest 1).m_uniqueId (sampleRequest 1).m_channelType) .badClient) .badClient) .badClient)
    (by decide)
  exact (evicted.1 _ dh' calls fed).mpr ⟨by decide, now, .token_timeout, rfl, by decide⟩

/-- Nothing has been reported for a static line yet, and it is free. -/
theorem static_line_free_unreported :
    ∃ dh results, Reported {} (fun _ => (sampleRequest 0).m_uniqueId) dh results ∧
      ∃ line ∈ dh.m_table, line.m_isDynamic = false ∧ line.m_state = .free ∧ results line.m_address = [] ∧
        ¬ FourMissed (results line.m_address) :=
  ⟨_, _, .start, .static 1 (sampleRequest 0).m_uniqueId, by decide, rfl, rfl, rfl, fourMissed_nil⟩

end SerialNet.DynamicHandler
