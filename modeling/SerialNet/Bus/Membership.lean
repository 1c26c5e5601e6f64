import SerialNet.Bus.Addressing
import SerialNet.Bus.Exclusion

namespace SerialNet.Bus

open PacketTypeCodec Master

/-! No token grant is lost -/

section Runs

variable {cfg : Config} {uninitialised : Nat → UniqueId} {own : PacketTypeCodec} {clients : List PacketTypeCodec}
  {now : ℚ} {m₀ : Master} {b b' : Bus}

theorem Inv.of_run (setup : Setup cfg uninitialised (own :: clients))
    (constructed : Master.start cfg own uninitialised now = .ok m₀)
    (run : Relation.ReflTransGen Step ⟨m₀, clients, []⟩ b) : Inv cfg uninitialised b := by
  rw [start_eq] at constructed
  cases constructed
  induction run with
  | refl => exact Inv.start setup now
  | tail _ step ih => exact ih.step setup.separate step

/-- The master sees its token before the timer that waits for it can run out. -/
theorem Inv.keepsGrant (inv : Inv cfg uninitialised b) (l : Label) : ¬ b.m_master.LosesGrant l := by
  intro loses
  cases l with
  | stimulus => cases loses
  | turn rxInProgress =>
    obtain ⟨state, timeout⟩ := loses
    have member : .timer_timeout ∈ b.m_master.m_fsm.m_eventQueue := List.mem_of_mem_head? timeout
    have phase := inv.phase
    rw [state] at phase
    simp only [Phase] at phase
    split at phase
    · rename_i seen
      rw [seen, List.mem_singleton] at member
      cases member
    · exact phase.1 member

/-- What the master goes through on the bus is a run of the master in which it sees all its
tokens. -/
theorem master_reach (setup : Setup cfg uninitialised (own :: clients))
    (constructed : Master.start cfg own uninitialised now = .ok m₀)
    (run : Relation.ReflTransGen Step ⟨m₀, clients, []⟩ b) :
    Master.Reach (fun m l => ¬ m.LosesGrant l) cfg own uninitialised now b.m_master := by
  refine ⟨m₀, constructed, ?_⟩
  induction run with
  | refl => exact .start
  | tail before step ih =>
    have inv := Inv.of_run setup constructed before
    cases step with
    | deliver _ received _ _ => exact .next ih (inv.keepsGrant _) received
    | submit _ _ => exact ih
    | master _ _ moved => exact .next ih (inv.keepsGrant _) moved

end Runs

/-! An address once given stays given -/

/-- The same node later, still with the address it had. -/
structure Keeps (n n' : PacketTypeCodec) : Prop where
  identity : identity n' = identity n
  address : n.address ≠ LocalAddress.null_addr → n'.address = n.address

theorem Keeps.of_face {n n' : PacketTypeCodec} (same : face n' = face n) : Keeps n n' :=
  ⟨congrArg Prod.fst same, fun _ => congrArg Prod.snd same⟩

theorem Keeps.trans {n n' n'' : PacketTypeCodec} (first : Keeps n n') (second : Keeps n' n'') : Keeps n n'' := by
  refine ⟨second.identity.trans first.identity, ?_⟩
  intro proper
  have same := first.address proper
  rw [← same] at proper
  exact (second.address proper).trans same

theorem forall₂_keeps_of_face {ns ns' : List PacketTypeCodec} (same : ns'.map face = ns.map face) :
    List.Forall₂ Keeps ns ns' := by
  have faces : List.Forall₂ Eq (ns.map face) (ns'.map face) := by
    rw [List.forall₂_eq_eq_eq]
    exact same.symm
  rw [List.forall₂_map_left_iff, List.forall₂_map_right_iff] at faces
  exact faces.imp fun n n' equal => .of_face equal.symm

theorem forall₂_keeps_trans {ns ns' ns'' : List PacketTypeCodec} (first : List.Forall₂ Keeps ns ns')
    (second : List.Forall₂ Keeps ns' ns'') : List.Forall₂ Keeps ns ns'' := by
  induction first generalizing ns'' with
  | nil => exact second
  | cons keeps _ ih =>
    cases second with
    | cons later rest => exact .cons (keeps.trans later) (ih rest)

theorem HearAll.forall₂ {bb : ByteVec} {ns ns' : List PacketTypeCodec} {heard : List ByteVec}
    {R : PacketTypeCodec → PacketTypeCodec → Prop} (hear : HearAll bb ns ns' heard)
    (each : ∀ n ∈ ns, ∀ n' s, Hears bb n n' s → R n n') : List.Forall₂ R ns ns' := by
  induction hear with
  | nil => exact .nil
  | cons first _ ih =>
    exact .cons (each _ List.mem_cons_self _ _ first) (ih fun n member => each n (List.mem_cons_of_mem _ member))

/-- A reply tells a node that has an address nothing new, and the start of the master is
heard before any dynamic node has one. -/
theorem Agreement.keeps {keys : List LineKey} {ns : List PacketTypeCodec} {bb : ByteVec} {rest : List ByteVec}
    (agreement : Agreement keys ns (bb :: rest)) (carried : Carried bb)
    (noLines : bb = packet.masterStarted → ∀ d u, (d, true, u) ∉ keys) {n n' : PacketTypeCodec} {sent : List ByteVec}
    (member : n ∈ ns) (hears : Hears bb n n' sent) : Keeps n n' := by
  refine ⟨by rw [identity, hears.uniqueId, hears.dynamic, identity], ?_⟩
  intro proper
  have held : n.dynamic = true → (n.address, true, n.m_uniqueId) ∈ keys := by
    intro dynamic
    exact (agreement.holds n member dynamic).resolve_left proper
  cases carried with
  | started =>
    rcases hears.started rfl with same | ⟨dynamic, _⟩
    · exact same
    · exact absurd (held dynamic) (noLines rfl _ _)
  | reply d u =>
    obtain ⟨mine, other⟩ := Hears.reply hears
    by_cases told : u = n.m_uniqueId
    · have key : (d, true, u) ∈ keys := agreement.replies List.mem_cons_self
      obtain ⟨owner, found, id, dynamic, _⟩ := agreement.served key
      rw [agreement.eq_of_uniqueId found member (id.trans told)] at dynamic
      have address : d = n.address := agreement.once key (told ▸ held dynamic)
      rw [mine told, address]
    · exact other told
  | response response =>
    obtain ⟨_, noReply, _, noStart, _⟩ := kind_isResponse response
    exact hears.address_eq noReply noStart
  | discovery type => exact hears.address_eq (by simp [type]) (by simp [type])
  | _ => exact hears.address_eq (by rintro ⟨⟩) (by rintro ⟨⟩)

section Steps

variable {cfg : Config} {uninitialised : Nat → UniqueId} {b b' : Bus}

/-- A packet reaches every node, and the master notes it for its next turn. -/
theorem Inv.received (inv : Inv cfg uninitialised b) {bb : ByteVec} {heard : List ByteVec} {now : ℚ}
    {stack : ChannelType × Crc32} {master : Master} {clients : List PacketTypeCodec}
    (received : b.m_master.Step (.stimulus now (.rxRawPacket bb stack)) master)
    (hear : HearAll bb b.m_clients clients heard) :
    HearAll bb b.nodes (master.m_node :: clients) (sentBy master.m_out ++ heard) ∧
      b.m_master.m_fsm.m_eventQueue = [] ∧ master.m_dynamicHandler = b.m_master.m_dynamicHandler ∧
      master.m_log = b.m_master.m_log ∧
      master.m_fsm = { b.m_master.m_fsm with m_eventQueue := (packetEvent bb).toList } := by
  rcases inv.synced.step_cases received with ⟨_, _, turn, _⟩ | ⟨_, _, label, queue, _, _, taken⟩
  · cases turn
  · cases label
    cases taken with
    | @packet _ _ node effects run =>
      have events := filterMap_masterEvent inv.synced.registered (rxRawPacket_reaction run).2.2.2
      refine ⟨?_, queue, rfl, rfl, by rw [← events]⟩
      dsimp only
      rw [sentBy_outward]
      exact .cons ⟨stack, effects, run, rfl⟩ hear

/-- The start message is heard before there is a dynamic line. -/
theorem Inv.noLines_of_wire (inv : Inv cfg uninitialised b) (wire : packet.masterStarted ∈ b.m_wire) (d : LocalAddress)
    (u : UniqueId) : (d, true, u) ∉ b.m_master.m_dynamicHandler.keys := by
  have state : b.m_master.m_fsm.m_state = .startMaster := by
    by_contra other
    exact inv.starting.absent (Or.inl other) wire
  have fits := inv.synced.fits
  rw [state] at fits
  exact inv.starting.noLines fits d u

theorem Inv.keeps_hears (inv : Inv cfg uninitialised b) {bb : ByteVec} {rest sent : List ByteVec}
    {n n' : PacketTypeCodec} (wire : b.m_wire = bb :: rest) (member : n ∈ b.nodes) (hears : Hears bb n n' sent) :
    Keeps n n' := by
  have agreement := inv.agreement
  have onWire : bb ∈ b.m_wire := by
    rw [wire]
    exact List.mem_cons_self
  rw [wire] at agreement
  refine agreement.keeps (inv.carried bb onWire) ?_ member hears
  rintro rfl
  exact inv.noLines_of_wire onWire

theorem Inv.keeps_step (inv : Inv cfg uninitialised b) (step : Step b b') :
    List.Forall₂ Keeps b.nodes b'.nodes := by
  cases step with
  | deliver wire received hearClients _ =>
    have hear := (inv.received received hearClients).1
    exact hear.forall₂ fun n member n' s hears => inv.keeps_hears wire member hears
  | @submit before n after q clients submits =>
    refine forall₂_keeps_of_face ?_
    have same : face { n with m_txQueue := q } = face n := by
      simp only [face, identity, address, dynamic, TxQueue.clientAddress, submits.ownAddress]
    simp only [nodes, clients, List.map_cons, List.map_append, same]
  | @master l master local_ _ moved =>
    have own : DataOnly b.m_master.m_node.m_txQueue := inv.dataOnly _ List.mem_cons_self
    have same : face master.m_node = face b.m_master.m_node := by
      rcases inv.synced.step_cases moved with ⟨_, _, rfl, _, taken⟩ | ⟨_, _, rfl, _, _, _, taken⟩
      · exact (face_turn taken own).1
      · exact (stimulus_frame local_ taken own).1
    refine forall₂_keeps_of_face ?_
    rw [nodes, nodes, List.map_cons, List.map_cons, same]

/-- The master gives up no line. -/
theorem Inv.keys_step (inv : Inv cfg uninitialised b) (step : Step b b') :
    b.m_master.m_dynamicHandler.keys ⊆ b'.m_master.m_dynamicHandler.keys := by
  intro k key
  cases step with
  | deliver _ received hearClients _ =>
    obtain ⟨_, _, table, _, _⟩ := inv.received received hearClients
    exact table ▸ key
  | submit _ _ => exact key
  | @master l master local_ _ moved =>
    rcases inv.synced.step_cases moved with ⟨_, ev, rfl, queue, taken⟩ | ⟨_, _, rfl, _, _, _, taken⟩
    · rcases LossyBus.keys_turn inv.synced queue taken key with kept | ⟨line, ⟨_, state, timeout, member, address,
        isDynamic, _⟩, _⟩
      · exact kept
      · rw [queue] at timeout
        cases Option.some.inj timeout
        have lost : line.key ∈ b.m_master.m_dynamicHandler.keys := List.mem_map_of_mem member
        rw [AddressLine.key, address, isDynamic] at lost
        exact absurd lost (inv.nobody state queue line.m_uniqueId)
    · rw [(stimulus_frame local_ taken (inv.dataOnly _ List.mem_cons_self)).2.2.1]
      exact key

end Steps

/-! No dynamic client ever misses a token -/

/-- No dynamic line has a missed token to its account. -/
def Unmissed (dh : DynamicHandler) : Prop := ∀ line ∈ dh.m_table, line.m_isDynamic = true → line.m_badCount = 0

theorem Unmissed.of_settles {dh dh' : DynamicHandler} {now : ℚ} {addr : LocalAddress} {rv : ReturnValue}
    {again : Option ℚ} (unmissed : Unmissed dh) (settles : Settles dh now addr rv dh' again)
    (kept : rv = .token_timeout → ∀ u, (addr, true, u) ∉ dh.keys) : Unmissed dh' := by
  cases settles with
  | started => exact unmissed
  | queried => exact unmissed
  | evicted _ table _ _ _ _ =>
    intro l member
    refine unmissed l ?_
    rw [table]
    rcases List.mem_append.mp member with old | old
    · exact List.mem_append_left _ old
    · exact List.mem_append_right _ (List.mem_cons_of_mem _ old)
  | @kept rv newState before line after _ state table address _ _ _ =>
    intro l member isDynamic
    rcases List.mem_append.mp member with old | other
    · exact unmissed l (table ▸ List.mem_append_left _ old) isDynamic
    · rcases List.mem_cons.mp other with rfl | old
      · -- the client would have been missed just now
        have answered : newState ≠ .badClient := by
          rintro rfl
          have timeout : rv = .token_timeout := by
            cases rv <;> first | rfl | cases state
          have key : line.key ∈ dh.keys := by
            rw [DynamicHandler.keys, table]
            exact List.mem_map_of_mem (List.mem_append_right _ List.mem_cons_self)
          rw [AddressLine.key, address, show line.m_isDynamic = true from isDynamic] at key
          exact kept timeout line.m_uniqueId key
        exact if_neg answered
      · exact unmissed l (table ▸ List.mem_append_right _ (List.mem_cons_of_mem _ old)) isDynamic

theorem Unmissed.turn {m m' : Master} {rxInProgress : Bool} {ev : Event} (unmissed : Unmissed m.m_dynamicHandler)
    (synced : Synced m) (taken : TurnCase m rxInProgress ev m')
    (kept : m.m_fsm.m_state = .waitClientPacketDone → ev = .timer_timeout →
      ∀ u, (m.m_fsm.m_currentAction.m_address, true, u) ∉ m.m_dynamicHandler.keys) : Unmissed m'.m_dynamicHandler := by
  cases taken with
  | ownIdle _ _ _ settles =>
    rw [conclude_dynamicHandler]
    exact unmissed.of_settles settles (by rintro ⟨⟩)
  | @requested aReq _ =>
    rw [goto_dynamicHandler]
    rcases m.consume.receivedAddressRequest_cases aReq with ⟨_, _, _, known⟩ | ⟨_, _, nothing⟩ | ⟨_, _, _, _, new⟩
    · rw [known]
      exact unmissed
    · rw [nothing]
      exact unmissed
    · rw [new]
      intro line member isDynamic
      rcases List.mem_append.mp member with old | fresh
      · exact unmissed line old isDynamic
      · rw [List.mem_singleton.mp fresh]
        rfl
  | @reported ev rv dh again result settles =>
    rw [goto_dynamicHandler, conclude_dynamicHandler]
    refine unmissed.of_settles settles ?_
    rintro rfl
    rw [synced.sameAction]
    cases state : m.m_fsm.m_state <;> cases ev <;>
      simp only [state, resultOf, reduceCtorEq, Option.ite_none_left_eq_some, Option.some.injEq, and_false] at result
    exact kept state rfl
  | _ => simpa [startTimer] using unmissed

/-- Lines come and go only in turns of the master. -/
theorem table_stimulus {m m' : Master} {now : ℚ} {s : Stimulus} (taken : StimulusCase m now s m') :
    m'.m_dynamicHandler.m_table = m.m_dynamicHandler.m_table := by
  cases taken with
  | delayIdle _ =>
    rw [startNext_dynamicHandler]
    rfl
  | _ => rfl

section Runs

variable {cfg : Config} {uninitialised : Nat → UniqueId} {own : PacketTypeCodec} {clients : List PacketTypeCodec}
  {now : ℚ} {m₀ : Master} {b b' : Bus}

theorem unmissed_of_run (setup : Setup cfg uninitialised (own :: clients))
    (constructed : Master.start cfg own uninitialised now = .ok m₀)
    (run : Relation.ReflTransGen Step ⟨m₀, clients, []⟩ b) : Unmissed b.m_master.m_dynamicHandler := by
  induction run with
  | refl =>
    rw [start_eq] at constructed
    cases constructed
    intro line member isDynamic
    obtain ⟨i, _, rfl⟩ := List.mem_map.mp member
    cases isDynamic
  | tail before step ih =>
    have inv := Inv.of_run setup constructed before
    cases step with
    | deliver _ received hearClients _ =>
      obtain ⟨_, _, table, _, _⟩ := inv.received received hearClients
      exact table ▸ ih
    | submit _ _ => exact ih
    | master local_ _ moved =>
      rcases inv.synced.step_cases moved with ⟨_, ev, rfl, queue, taken⟩ | ⟨_, _, rfl, _, _, _, taken⟩
      · refine ih.turn inv.synced taken ?_
        rintro state rfl
        exact inv.nobody state queue
      · intro line member
        rw [table_stimulus taken] at member
        exact ih line member

theorem grows_of_run (setup : Setup cfg uninitialised (own :: clients))
    (constructed : Master.start cfg own uninitialised now = .ok m₀)
    (run : Relation.ReflTransGen Step ⟨m₀, clients, []⟩ b) (later : Relation.ReflTransGen Step b b') :
    List.Forall₂ Keeps b.nodes b'.nodes ∧
      b.m_master.m_dynamicHandler.keys ⊆ b'.m_master.m_dynamicHandler.keys := by
  induction later with
  | refl => exact ⟨forall₂_keeps_of_face rfl, List.Subset.refl _⟩
  | tail before step ih =>
    have inv := Inv.of_run setup constructed (run.trans before)
    exact ⟨forall₂_keeps_trans ih.1 (inv.keeps_step step), List.Subset.trans ih.2 (inv.keys_step step)⟩

end Runs

/-- On a bus that delivers, where the two timers that wait for a token or its answer run out
on a silent wire only, an address is never taken back. Every dynamic client with a line
has its address or is about to hear of it and has never missed a token, no two nodes share
an address, and whatever happens later the lines are still there and are polled, and every
node has kept its address. -/
theorem membership_permanent (cfg : Config) (uninitialised : Nat → UniqueId) (own : PacketTypeCodec)
    (clients : List PacketTypeCodec) (setup : Setup cfg uninitialised (own :: clients)) (now : ℚ) (clock : 1 ≤ now)
    (m₀ : Master) (constructed : Master.start cfg own uninitialised now = .ok m₀) (b : Bus)
    (run : Relation.ReflTransGen Step ⟨m₀, clients, []⟩ b) :
    (∀ line ∈ b.m_master.m_dynamicHandler.m_table, line.m_isDynamic = true → line.m_badCount = 0 ∧
      ∃ n ∈ b.nodes, n.m_uniqueId = line.m_uniqueId ∧ n.dynamic = true ∧
        (n.address = line.m_address ∨ reply line.m_address line.m_uniqueId ∈ b.m_wire)) ∧
    (b.nodes.Pairwise fun n n' => n.address ≠ LocalAddress.null_addr → n.address ≠ n'.address) ∧
    ∀ b', Relation.ReflTransGen Step b b' →
      (∀ line ∈ b.m_master.m_dynamicHandler.m_table, b'.m_master.Polled line.m_address ∧
        ∃ line' ∈ b'.m_master.m_dynamicHandler.m_table, line'.key = line.key) ∧
      List.Forall₂ Keeps b.nodes b'.nodes := by
  have inv := Inv.of_run setup constructed run
  refine ⟨?_, ?_, ?_⟩
  · intro line member isDynamic
    refine ⟨unmissed_of_run setup constructed run line member isDynamic, ?_⟩
    have key : line.key ∈ b.m_master.m_dynamicHandler.keys := List.mem_map_of_mem member
    rw [AddressLine.key, isDynamic] at key
    exact inv.agreement.served key
  · rw [List.pairwise_iff_forall_sublist]
    intro n n' pair proper same
    have apart := no_shared_address setup.separate inv.oneToken inv.handler inv.statics inv.agreement proper
    exact List.pairwise_iff_forall_sublist.mp apart pair ⟨rfl, same.symm⟩
  · intro b' later
    obtain ⟨keeps, keys⟩ := grows_of_run setup constructed run later
    have reach := master_reach setup constructed (run.trans later)
    refine ⟨?_, keeps⟩
    intro line member
    obtain ⟨line', member', same⟩ := List.mem_map.mp (keys (List.mem_map_of_mem member))
    refine ⟨reach.polled (fun _ _ kept => kept) setup.separate clock ?_, line', member', same⟩
    have address : line'.m_address = line.m_address := congrArg Prod.fst same
    rw [lines, ← address]
    exact List.mem_map_of_mem (f := (·.m_address)) member'

/-- Address 1 answers its token, addresses 2 and 3 do not, and one of the clients without
an address gets 33. -/
def joinScript : List Label :=
  startScript ++ [.turn false,
    .stimulus 1000 (.rxRawPacket (packet.GrantToken.fromHeader ⟨1⟩) sampleStack), .turn false,
    .stimulus 1000 (.rxRawPacket (packet.ReturnToken.fromHeader ⟨1⟩) sampleStack), .turn false, .turn false,
    .stimulus 1000 (.rxRawPacket (packet.GrantToken.fromHeader ⟨2⟩) sampleStack), .turn false,
    .stimulus (1000 + 2 / 25) (.timer ⟨1000 + 2 / 25, 8⟩), .turn false, .turn false,
    .stimulus (1000 + 2 / 25) (.rxRawPacket (packet.GrantToken.fromHeader ⟨3⟩) sampleStack), .turn false,
    .stimulus (1000 + 4 / 25) (.timer ⟨1000 + 4 / 25, 11⟩), .turn false, .turn false,
    .stimulus (1000 + 4 / 25) (.rxRawPacket (packet.AddressDiscovery.fromHeader ⟨0, 0⟩) sampleStack),
    .stimulus (1000 + 4 / 25) (.rxRawPacket (packet.AddressRequest.fromHeader
      ⟨(sampleClient 0 3).m_uniqueId, sampleStack.1, sampleStack.2⟩) sampleStack), .turn false]

/-- The client is about to hear of its address, which is polled. -/
theorem membership_permanent_joined :
    ∃ b, Relation.ReflTransGen Step sampleBus b ∧ ∃ line ∈ b.m_master.m_dynamicHandler.m_table,
      line.m_address = 33 ∧ line.m_badCount = 0 ∧ b.m_master.Polled 33 := by
  obtain ⟨b, run, shown⟩ := run_of_script sampleBus joinScript
    (fun b => ∃ line ∈ b.m_master.m_dynamicHandler.m_table, line.m_address = 33 ∧ line.m_isDynamic = true)
    (by decide +kernel)
  obtain ⟨line, member, address, isDynamic⟩ := of_decide_eq_true shown
  have setup : Setup {} (fun _ => unsetId) (sampleNode :: sampleBus.m_clients) := by
    refine ⟨Config.separate_default, ?_, ?_, ?_, ?_, ?_⟩ <;> decide
  obtain ⟨served, _, later⟩ := membership_permanent {} _ _ _ setup 1000 (by norm_num) _ (start_eq _ _ _ _) b run
  have polled := ((later b .refl).1 line member).1
  rw [address] at polled
  exact ⟨b, run, line, member, address, (served line member isDynamic).1, polled⟩

end SerialNet.Bus
