import SerialNet.Master.Faults
import SerialNet.Master.Phases

namespace SerialNet

/-- Both address ranges lie within 1..254 and have no address in common. -/
structure Config.Separate (cfg : Config) : Prop where
  staticLow : 1 ≤ cfg.staticLowAddress
  staticHigh : cfg.staticHighAddress ≤ 254
  dynamicLow : 1 ≤ cfg.dynamicLowAddress
  dynamicHigh : cfg.dynamicHighAddress ≤ 254
  disjoint : ∀ i ∈ cfg.dynamicAddresses, i ∉ cfg.staticAddresses

theorem Config.separate_default : Config.Separate {} := ⟨by decide, by decide, by decide, by decide, by decide⟩

/-- All configured addresses. -/
def Config.addresses (cfg : Config) : List LocalAddress :=
  (cfg.dynamicAddresses ++ cfg.staticAddresses).map toLocalAddress

theorem Config.Separate.bounds {cfg : Config} (separate : cfg.Separate) {i : Nat}
    (member : i ∈ cfg.dynamicAddresses ++ cfg.staticAddresses) : 1 ≤ i ∧ i ≤ 254 := by
  obtain ⟨staticLow, staticHigh, dynamicLow, dynamicHigh, _⟩ := separate
  rcases List.mem_append.mp member with dynamic | static
  · have range := List.mem_range'_1.mp dynamic
    omega
  · have range := List.mem_range'_1.mp static
    omega

theorem Config.Separate.nodup {cfg : Config} (separate : cfg.Separate) : cfg.addresses.Nodup := by
  refine DynamicHandler.nodup_map_toLocalAddress ?_ ?_
  · intro i member
    have bounds := separate.bounds member
    omega
  · refine List.Nodup.append List.nodup_range' List.nodup_range' ?_
    intro i dynamic static
    exact separate.disjoint i dynamic static

namespace Master

/-- The address an action sends the token to. -/
def tokenAddress (a : Action) : Option LocalAddress := if a.m_action = .send_token then some a.m_address else none

/-- The addresses with a token action: ready, waiting or in progress. -/
def tokens (m : Master) : List LocalAddress :=
  (m.queued ++ [m.m_actionHandler.m_currentAction]).filterMap tokenAddress

/-- The addresses in the table. -/
def lines (m : Master) : List LocalAddress := m.m_dynamicHandler.m_table.map (·.m_address)

/-- Every configured address is free or has one line, and every line has one
token action. -/
structure OneToken (cfg : Config) (m : Master) : Prop where
  shared : (m.m_dynamicHandler.m_freeAddresses ++ m.lines).Perm cfg.addresses
  polled : m.tokens.Perm m.lines

theorem tokens_eq (m : Master) :
    m.tokens = m.queued.filterMap tokenAddress ++ (tokenAddress m.m_actionHandler.m_currentAction).toList := by
  rw [tokens, List.filterMap_append]
  cases here : tokenAddress m.m_actionHandler.m_currentAction <;> simp [here]

/-- A result for a token ends a token action, any other result another action. -/
theorem resultOf_command {rxInProgress : Bool} {s : StateId} {ev : Event} {rv : ReturnValue} {cmd : Cmd}
    (result : resultOf rxInProgress s ev = some rv) (fits : Fits s cmd) :
    (lineState rv).isSome = decide (cmd = .send_token) := by
  cases s <;> cases ev <;> simp only [resultOf, reduceCtorEq, Option.some.injEq, Option.ite_none_left_eq_some] at result
  all_goals simp only [Fits] at fits
  all_goals subst fits
  all_goals first | subst result; rfl | obtain ⟨_, rfl⟩ := result; rfl

namespace OneToken

variable {cfg : Config} {m m' : Master}

theorem congr (one : OneToken cfg m) (queued : m'.queued = m.queued)
    (action : m'.m_actionHandler.m_currentAction = m.m_actionHandler.m_currentAction)
    (free : m'.m_dynamicHandler.m_freeAddresses = m.m_dynamicHandler.m_freeAddresses)
    (table : m'.m_dynamicHandler.m_table = m.m_dynamicHandler.m_table) : OneToken cfg m' := by
  refine ⟨?_, ?_⟩
  · rw [lines, free, table]
    exact one.shared
  · rw [tokens, lines, queued, action, table]
    exact one.polled

theorem nodup_lines (one : OneToken cfg m) (separate : cfg.Separate) : m.lines.Nodup :=
  (one.shared.nodup_iff.mpr separate.nodup).of_append_right

/-- Starting the next action only moves its token. -/
theorem tokens_conclude (m : Master) (rv : ReturnValue) (dh : DynamicHandler) (again : Option ℚ) :
    (m.conclude rv dh again).tokens.Perm
      (again.toList.map (fun _ => m.m_actionHandler.m_currentAction.m_address) ++
        m.queued.filterMap tokenAddress) := by
  obtain ⟨later, perm, started⟩ := m.conclude_cases rv dh again
  have all : (later.filterMap tokenAddress).Perm
      (again.toList.map (fun _ => m.m_actionHandler.m_currentAction.m_address) ++
        m.queued.filterMap tokenAddress) := by
    refine (perm.filterMap tokenAddress).trans ?_
    rw [List.filterMap_append]
    cases again <;> exact List.Perm.refl _
  refine List.Perm.trans ?_ all
  rcases started with ⟨front, action, _, _, rest⟩ | ⟨action, _, _, rest⟩
  · rw [tokens, action, rest]
    exact List.perm_append_singleton front _ |>.filterMap tokenAddress
  · rw [tokens_eq, action, rest]
    exact List.Perm.of_eq (List.append_nil _)

theorem conclude (one : OneToken cfg m) {rv : ReturnValue} {dh : DynamicHandler} {again : Option ℚ}
    (settles : m.SettlesAction rv dh again)
    (command : (lineState rv).isSome = decide (m.m_actionHandler.m_currentAction.m_action = .send_token)) :
    OneToken cfg (m.consume.conclude rv dh again) := by
  have polled := one.polled
  have moved := tokens_conclude m.consume rv dh again
  rw [tokens_eq] at polled
  -- a result for a token takes its action away
  have token : ∀ {newState}, lineState rv = some newState →
      tokenAddress m.m_actionHandler.m_currentAction = some m.m_actionHandler.m_currentAction.m_address := by
    intro newState state
    rw [state] at command
    exact if_pos (of_decide_eq_true command.symm)
  have other : lineState rv = none → tokenAddress m.m_actionHandler.m_currentAction = none := by
    intro state
    rw [state] at command
    exact if_neg (of_decide_eq_false command.symm)
  cases settles with
  | started =>
    rw [other rfl] at polled
    refine ⟨by simpa [lines] using one.shared, moved.trans ?_⟩
    simpa [lines, queued] using polled
  | queried =>
    rw [other rfl] at polled
    refine ⟨by simpa [lines, DynamicHandler.addressDiscoveryIsDone] using one.shared, moved.trans ?_⟩
    simpa [lines, queued, DynamicHandler.addressDiscoveryIsDone] using polled
  | @evicted rv newState before line after state table address _ _ _ =>
    rw [token state, ← address] at polled
    have shared := one.shared
    rw [lines, table, List.map_append, List.map_cons] at shared polled
    refine ⟨?_, moved.trans ?_⟩
    · refine List.Perm.trans ?_ shared
      simp only [lines, conclude_dynamicHandler, List.map_append, List.append_assoc, List.singleton_append,
        ← address]
      exact List.Perm.append_left _ List.perm_middle.symm
    · have without := (List.perm_append_singleton _ _).symm.trans (polled.trans List.perm_middle)
      simpa [lines, queued] using without.cons_inv
  | @kept rv newState before line after _ state table address _ _ _ =>
    rw [token state] at polled
    have same : (before ++ line.setState newState :: after).map (·.m_address) =
        m.m_dynamicHandler.m_table.map (·.m_address) := by
      rw [table]
      simp
    refine ⟨?_, moved.trans ?_⟩
    · simp only [lines, conclude_dynamicHandler, same]
      exact one.shared
    · simp only [lines, conclude_dynamicHandler, same]
      exact (List.perm_append_singleton _ _).symm.trans polled

theorem requested (one : OneToken cfg m) (aReq : packet.AddressRequest) :
    OneToken cfg (m.receivedAddressRequest aReq) := by
  rcases m.receivedAddressRequest_cases aReq with ⟨_, _, _, known⟩ | ⟨_, _, nothing⟩ |
    ⟨_, rest, localAddr, stack, new⟩
  · rw [known]
    exact one.congr rfl rfl rfl rfl
  · rw [nothing]
    exact one
  · have posted := (MasterScheduler.queued_addActionNow m.m_actionHandler.m_scheduler
      (Action.makeSendTokenAction localAddr).withReport).filterMap tokenAddress
    have shared := one.shared
    have polled := one.polled
    rw [stack] at shared
    rw [tokens_eq] at polled
    rw [new]
    refine ⟨?_, ?_⟩
    · refine List.Perm.trans ?_ shared
      simp only [lines, sendAddressReply, sendMasterPacket, enlist, postActionNow, setScheduler, List.map_append,
        List.append_assoc, List.singleton_append]
      exact List.Perm.append_left _ (List.perm_append_singleton _ _)
    · rw [tokens_eq]
      refine ((posted.append_right _).trans (polled.cons localAddr)).trans ?_
      simp only [lines, sendAddressReply, sendMasterPacket, enlist, postActionNow, setScheduler, List.map_append]
      exact (List.perm_append_singleton _ _).symm

theorem turn (one : OneToken cfg m) (synced : Synced m) {rxInProgress : Bool} {ev : Event}
    (taken : TurnCase m rxInProgress ev m') : OneToken cfg m' := by
  cases taken with
  | ignored _ => exact one.congr rfl rfl rfl rfl
  | ownIdle _ action _ settles => exact one.conclude settles (by rw [synced.sameAction, action]; rfl)
  | ownSends => exact one.congr (by simp [queued]) (by simp) (by simp) (by simp)
  | grants => exact one.congr (by simp [queued]) (by simp) (by simp) (by simp)
  | queries => exact one.congr (by simp [queued]) (by simp) (by simp) (by simp)
  | starts => exact one.congr (by simp [queued]) (by simp) (by simp) (by simp)
  | grantSeen => exact one.congr (by simp [queued]) (by simp) (by simp) (by simp)
  | grantLost => exact one.congr (by simp [queued]) (by simp) (by simp) (by simp)
  | @requested aReq _ =>
    have consumed : OneToken cfg m.consume := one.congr rfl rfl rfl rfl
    exact (consumed.requested aReq).congr (by simp [queued]) (by simp) (by simp) (by simp)
  | rearmed _ => exact one.congr rfl rfl rfl rfl
  | reported result settles =>
    have concluded := one.conclude settles (by rw [synced.sameAction]; exact resultOf_command result synced.fits)
    exact concluded.congr (by simp [queued]) (by simp) (by simp) (by simp)

theorem startNext (one : OneToken cfg m) (nothing : m.m_actionHandler.m_currentAction.doNothing = true) :
    OneToken cfg m.startNext := by
  have noToken : tokenAddress m.m_actionHandler.m_currentAction = none := by
    refine if_neg ?_
    rw [of_decide_eq_true nothing]
    rintro ⟨⟩
  have polled := one.polled
  rw [tokens_eq, noToken] at polled
  refine ⟨by simpa [lines] using one.shared, List.Perm.trans ?_ (by simpa [lines] using polled)⟩
  rcases m.startNext_cases with ⟨front, action, _, _, rest⟩ | ⟨action, _, _, rest⟩
  · rw [tokens, action, rest]
    exact List.perm_append_singleton front _ |>.filterMap tokenAddress
  · rw [tokens_eq, action, rest, noToken]
    exact List.Perm.of_eq (List.append_nil _)

theorem stimulus (one : OneToken cfg m) {now : ℚ} {s : Stimulus} (taken : StimulusCase m now s m') :
    OneToken cfg m' := by
  cases taken with
  | packet _ => exact one.congr rfl rfl rfl rfl
  | sendPacket => exact one.congr rfl rfl rfl rfl
  | sendMacUpdate => exact one.congr rfl rfl rfl rfl
  | timer => exact one.congr rfl rfl rfl rfl
  | delayBusy _ => exact one.congr rfl rfl rfl rfl
  | delayIdle nothing => exact startNext (one.congr rfl rfl rfl rfl) nothing
  | discovery =>
    have posted := (MasterScheduler.queued_addActionNow m.m_actionHandler.m_scheduler
      Action.makeQueryAddressAction.withReport).filterMap tokenAddress
    refine ⟨one.shared, List.Perm.trans ?_ one.polled⟩
    rw [tokens_eq, tokens_eq]
    exact posted.append_right _
  | reordered reorders =>
    refine ⟨one.shared, List.Perm.trans ?_ one.polled⟩
    rw [tokens_eq, tokens_eq]
    exact (reorders.queued.filterMap tokenAddress).append_right _

theorem started (cfg : Config) (node : PacketTypeCodec) (uninitialised : Nat → UniqueId) (now : ℚ) :
    OneToken cfg (started cfg node uninitialised now) := by
  refine ⟨?_, ?_⟩
  · simp only [lines, Master.started, DynamicHandler.start, AddressLine.static, List.map_map,
      Function.comp_def, Config.addresses, List.map_append]
    exact List.Perm.append_right _ ((List.reverse_perm _).map _)
  · have all : (startActions cfg).filterMap tokenAddress = cfg.staticAddresses.map toLocalAddress := by
      simp only [startActions, List.filterMap_append, List.filterMap_map]
      have token : (tokenAddress ∘ fun i => (Action.makeSendTokenAction (toLocalAddress i)).withReport) =
          fun i => some (toLocalAddress i) := rfl
      rw [token, List.filterMap_eq_map']
      exact List.append_nil _
    rw [tokens_eq]
    simp only [queued, MasterScheduler.queued, Master.started, List.map_nil, List.append_nil, all, lines,
      DynamicHandler.start, List.map_map]
    exact List.Perm.of_eq (List.append_nil _)

end OneToken

theorem Reach.oneToken {allowed : Master → Label → Prop} {cfg : Config} {node : PacketTypeCodec}
    {uninitialised : Nat → UniqueId} {now : ℚ} {m : Master} (reach : Reach allowed cfg node uninitialised now m) :
    OneToken cfg m := by
  refine reach.invariant (OneToken.started cfg node uninitialised now) ?_
  intro m m' l synced one _ step
  rcases synced.step_cases step with ⟨_, _, _, _, taken⟩ | ⟨_, _, _, _, _, _, taken⟩
  · exact one.turn synced taken
  · exact one.stimulus taken

/-- Every line of the table is polled by exactly one token action, no token is for
an address without a line, and so no line is ever looked up in vain. -/
theorem one_token_per_line (cfg : Config) (separate : cfg.Separate) (node : PacketTypeCodec)
    (uninitialised : Nat → UniqueId) (now : ℚ) {m : Master}
    (reach : Reach (fun _ _ => True) cfg node uninitialised now m) :
    m.lines.Nodup ∧ (∀ a ∈ m.lines, m.tokens.count a = 1) ∧ (∀ a ∈ m.tokens, a ∈ m.lines) ∧
    (∀ rxInProgress, m.turn rxInProgress ≠ .error .noLine) ∧
    (∀ now' s, m.stimulate now' s ≠ .error .noLine) := by
  have one := reach.oneToken
  have synced := reach.synced
  have nodup := one.nodup_lines separate
  refine ⟨nodup, ?_, ?_, ?_, ?_⟩
  · intro a line
    rw [one.polled.count_eq]
    exact List.count_eq_one_of_mem nodup line
  · intro a token
    exact one.polled.mem_iff.mp token
  · intro rxInProgress run
    obtain ⟨ev, rest, _, fault⟩ := turn_error run
    cases fault with
    | missing unlisted where_ =>
      have command : m.m_actionHandler.m_currentAction.m_action = .send_token := by
        rw [synced.sameAction]
        rcases where_ with ⟨_, action⟩ | waiting
        · exact action
        · have fits := synced.fits
          rw [waiting] at fits
          exact fits
      have inProgress : m.m_actionHandler.m_currentAction.m_address ∈ m.tokens := by
        rw [tokens_eq, tokenAddress, if_pos command]
        simp
      exact unlisted (one.polled.mem_iff.mp inProgress)
  · intro now' s run
    rcases stimulate_error run with short | ⟨_, _, active⟩
    · cases short
    · cases active

/-- The default ranges, after a client has joined. -/
theorem one_token_per_line_joined :
    ∃ m, Reach (fun _ _ => True) {} sampleNode (fun _ => sampleId) 1000 m ∧
      m.lines = [1, 2, 3, 33] ∧ m.tokens.count 33 = 1 := by
  obtain ⟨m, reach, shown⟩ := reach_of_script (fun _ _ => True) {} sampleNode (fun _ => sampleId) 1000
    (pollScript ++ [.stimulus (1000 + 6 / 25) (.rxRawPacket (packet.AddressRequest.fromHeader
      ⟨⟨[8, 7, 6, 5, 4, 3, 2, 1], rfl⟩, sampleStack.1, sampleStack.2⟩) sampleStack), .turn false])
    (fun m => m.lines = [1, 2, 3, 33]) (by decide +kernel)
  have lines := of_decide_eq_true shown
  have once := (one_token_per_line _ Config.separate_default _ _ _ reach).2.1 33
  rw [lines] at once
  exact ⟨m, reach, lines, once (by decide)⟩

end Master

end SerialNet
