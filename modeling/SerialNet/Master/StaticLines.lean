import SerialNet.Master.AddressReplies

namespace SerialNet

namespace SNConfig

/-- The part of `setupSNConfig` that settles `m_staticAddr`, from the options `address`
and `master`. -/
def setupSNConfig (address : Int) (startMaster : Bool) : Except String LocalAddress :=
  if address < 0 ∨ address > 32 then
    .error "Illegal static address."
  else
    let myAddr := if address = 0 ∧ startMaster then 1 else address
    .ok (toLocalAddress myAddr.toNat)

theorem setupSNConfig_range {address : Int} {startMaster : Bool} {a : LocalAddress}
    (accepted : setupSNConfig address startMaster = .ok a) : a.toNat ≤ 32 := by
  unfold setupSNConfig at accepted
  split at accepted
  · cases accepted
  · cases Except.ok.inj accepted
    split
    · decide
    · rw [DynamicHandler.toNat_toLocalAddress (by omega)]
      omega

end SNConfig

namespace DynamicHandler

/-- The addresses of the static lines. -/
def staticLines (dh : DynamicHandler) : List LocalAddress :=
  (dh.m_table.filter (!·.m_isDynamic)).map (·.m_address)

/-- The static lines are those made at the start, whatever has been reported since. -/
theorem Reach.staticLines_eq {cfg : Config} {uninitialised : Nat → UniqueId} {dh : DynamicHandler}
    (reach : Reach cfg uninitialised dh) : dh.staticLines = cfg.staticAddresses.map toLocalAddress := by
  refine reach.tableInvariant (P := fun dh => dh.staticLines = cfg.staticAddresses.map toLocalAddress) ?_ ?_
  · simp only [staticLines, DynamicHandler.start, List.filter_map, Function.comp_def, AddressLine.static,
      Bool.not_false, List.filter_true, List.map_map]
  · intro dh dh' calls taken static
    rw [← static]
    cases taken with
    | same _ table _ => rw [staticLines, table, staticLines]
    | created _ _ _ table => simp [staticLines, table, AddressLine.dynamic]
    | @updated before line after st _ _ table _ table' =>
      cases isDynamic : line.m_isDynamic <;> simp [staticLines, table, table', isDynamic]
    | evicted table isDynamic _ table' => simp [staticLines, table, table', isDynamic]

end DynamicHandler

namespace Master

theorem Reach.handler {allowed : Master → Label → Prop} {cfg : Config} {node : PacketTypeCodec}
    {uninitialised : Nat → UniqueId} {now : ℚ} {m : Master} (reach : Reach allowed cfg node uninitialised now m) :
    DynamicHandler.Reach cfg uninitialised m.m_dynamicHandler := by
  refine reach.invariant (P := fun m => DynamicHandler.Reach cfg uninitialised m.m_dynamicHandler) .start ?_
  intro m m' l synced handler _ step
  rcases synced.step_cases step with ⟨_, _, _, _, taken⟩ | ⟨_, _, _, _, _, _, taken⟩
  · exact taken.handler handler
  · exact taken.handler handler

/-- The address has a static line, and a token for it is ready, waiting or in progress. -/
def StaticallyPolled (m : Master) (a : LocalAddress) : Prop :=
  (∃ line ∈ m.m_dynamicHandler.m_table, line.m_address = a ∧ line.m_isDynamic = false) ∧ a ∈ m.tokens

theorem Reach.staticallyPolled_iff {allowed : Master → Label → Prop} {cfg : Config}
    (small : cfg.staticHighAddress ≤ 255) {node : PacketTypeCodec} {uninitialised : Nat → UniqueId} {now : ℚ}
    {m : Master} (reach : Reach allowed cfg node uninitialised now m) (a : LocalAddress) :
    m.StaticallyPolled a ↔ cfg.staticLowAddress ≤ a.toNat ∧ a.toNat ≤ cfg.staticHighAddress := by
  have static := reach.handler.staticLines_eq
  rw [← DynamicHandler.mem_map_toLocalAddress small]
  have lines : a ∈ m.m_dynamicHandler.staticLines ↔
      ∃ line ∈ m.m_dynamicHandler.m_table, line.m_address = a ∧ line.m_isDynamic = false := by
    simp only [DynamicHandler.staticLines, List.mem_map, List.mem_filter, Bool.not_eq_true']
    constructor
    · rintro ⟨line, ⟨member, kind⟩, address⟩
      exact ⟨line, member, address, kind⟩
    · rintro ⟨line, member, address, kind⟩
      exact ⟨line, ⟨member, kind⟩, address⟩
  rw [static] at lines
  constructor
  · rintro ⟨line, _⟩
    exact lines.mpr line
  · intro configured
    obtain ⟨line, member, address, kind⟩ := lines.mp configured
    refine ⟨⟨line, member, address, kind⟩, reach.oneToken.polled.mem_iff.mpr ?_⟩
    rw [Master.lines, ← address]
    exact List.mem_map_of_mem (f := (·.m_address)) member

/-- Of the 32 static addresses a client may be given, those up to 3 are polled in every
state of every run, and the others in none. -/
theorem static_client_polled_iff (address : Int) (startMaster : Bool) (a : LocalAddress)
    (accepted : SNConfig.setupSNConfig address startMaster = .ok a) (static : a ≠ LocalAddress.null_addr)
    (node : PacketTypeCodec) (uninitialised : Nat → UniqueId) (now : ℚ) (m : Master)
    (reach : Reach (fun _ _ => True) {} node uninitialised now m) :
    m.StaticallyPolled a ↔ a.toNat ≤ 3 := by
  have range := SNConfig.setupSNConfig_range accepted
  have positive : 1 ≤ a.toNat := by
    refine Nat.pos_of_ne_zero fun zero => static ?_
    exact UInt8.toNat_inj.mp zero
  rw [reach.staticallyPolled_iff (by decide)]
  show 1 ≤ a.toNat ∧ a.toNat ≤ 3 ↔ a.toNat ≤ 3
  omega

/-- After every static address has missed a token. -/
theorem static_client_polled_after_timeouts :
    ∃ m, Reach (fun _ _ => True) {} sampleNode (fun _ => sampleId) 1000 m ∧
      (∃ line ∈ m.m_dynamicHandler.m_table, line.m_address = 2 ∧ line.m_badCount = 1) ∧ m.StaticallyPolled 2 := by
  obtain ⟨m, reach, shown⟩ := reach_of_script (fun _ _ => True) {} sampleNode (fun _ => sampleId) 1000 pollScript
    (fun m => ∃ line ∈ m.m_dynamicHandler.m_table, line.m_address = 2 ∧ line.m_badCount = 1) (by decide +kernel)
  exact ⟨m, reach, of_decide_eq_true shown,
    (static_client_polled_iff 2 false 2 rfl (by decide) _ _ _ m reach).mpr (by decide)⟩

/-- A client with address 4 is accepted, but a master that has just been started does not
know of it. -/
theorem static_client_never_polled :
    SNConfig.setupSNConfig 4 false = .ok 4 ∧
      ∃ m, Reach (fun _ _ => True) {} sampleNode (fun _ => sampleId) 1000 m ∧ ¬ m.StaticallyPolled 4 := by
  refine ⟨rfl, started {} sampleNode (fun _ => sampleId) 1000, .of_started .start, ?_⟩
  rintro ⟨⟨line, member, address, _⟩, _⟩
  have all : ∀ line ∈ (started {} sampleNode (fun _ => sampleId) 1000).m_dynamicHandler.m_table,
      line.m_address ≠ 4 := by decide
  exact all line member address

end Master

end SerialNet
