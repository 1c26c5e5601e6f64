import SerialNet.Bus.TokenTurns

namespace SerialNet.Bus

open PacketTypeCodec Master

/-! No two nodes hold the same address -/

/-- The address a static node keeps for good. -/
def fixed (n : PacketTypeCodec) : Option LocalAddress := if n.dynamic then none else some n.address

/-- The addresses of the static nodes are usable, distinct, and not for the master to
hand out. -/
structure Statics (cfg : Config) (addresses : List (Option LocalAddress)) : Prop where
  distinct : addresses.Pairwise fun f f' => ∀ a, f = some a → f' ≠ some a
  usable : ∀ {a}, some a ∈ addresses → a ≠ LocalAddress.null_addr
  outside : ∀ {a}, some a ∈ addresses → a ∉ cfg.dynamicAddresses.map toLocalAddress

theorem fixed_static {n : PacketTypeCodec} (static : n.dynamic = false) : fixed n = some n.address := by
  rw [fixed, static]
  rfl

theorem fixed_dynamic {n : PacketTypeCodec} (dynamic : n.dynamic = true) : fixed n = none := if_pos dynamic

theorem map_fixed_of_face {ns ns' : List PacketTypeCodec} (same : ns'.map face = ns.map face) :
    ns'.map fixed = ns.map fixed := by
  have decoded : ∀ l : List PacketTypeCodec,
      l.map fixed = (l.map face).map fun f => if f.1.2 then none else some f.2 := by
    intro l
    rw [List.map_map]
    rfl
  rw [decoded, decoded, same]

theorem Statics.usable_of_mem {cfg : Config} {ns : List PacketTypeCodec} (statics : Statics cfg (ns.map fixed))
    {n : PacketTypeCodec} (member : n ∈ ns) (static : n.dynamic = false) : n.address ≠ LocalAddress.null_addr :=
  statics.usable (fixed_static static ▸ List.mem_map_of_mem member)

/-- No packet makes a static node change its address. -/
theorem HearAll.fixed {keys : List LineKey} {ns ns' : List PacketTypeCodec} {bb : ByteVec}
    {rest heard : List ByteVec} (hear : HearAll bb ns ns' heard) (carried : Carried bb)
    (agreement : Agreement keys ns (bb :: rest)) : ns'.map fixed = ns.map fixed := by
  refine hear.map_eq ?_
  intro n member n' s hears
  by_cases dynamic : n.dynamic = true
  · rw [fixed_dynamic dynamic, fixed_dynamic (hears.dynamic.trans dynamic)]
  · have static := Bool.eq_false_iff.mpr dynamic
    rw [fixed_static static, fixed_static (hears.dynamic.trans static), Option.some.injEq]
    rcases address_cases carried hears with same | ⟨dynamic', _⟩ | told
    · exact same
    · exact absurd dynamic' dynamic
    · -- the id of a reply is that of a dynamic node
      rw [told] at agreement
      obtain ⟨owner, found, id, dynamic', _⟩ := agreement.served (agreement.replies List.mem_cons_self)
      rw [agreement.eq_of_uniqueId found member id] at dynamic'
      exact absurd dynamic' dynamic

section Single

variable {cfg : Config} {uninitialised : Nat → UniqueId} {m : Master}

theorem mem_dynamicAddresses {d : LocalAddress} {u : UniqueId} {dh : DynamicHandler}
    (reach : DynamicHandler.Reach cfg uninitialised dh) (key : (d, true, u) ∈ dh.keys) :
    d ∈ cfg.dynamicAddresses.map toLocalAddress := by
  obtain ⟨line, member, same⟩ := List.mem_map.mp key
  simp only [AddressLine.key, Prod.mk.injEq] at same
  refine reach.pool_perm.mem_iff.mp (List.mem_append_right _ ?_)
  rw [DynamicHandler.dynamicAddresses, ← same.1]
  exact List.mem_map_of_mem (List.mem_filter.mpr ⟨member, same.2.1⟩)

theorem null_notMem_lines (separate : cfg.Separate) (one : OneToken cfg m) : LocalAddress.null_addr ∉ m.lines := by
  intro member
  have configured := one.shared.mem_iff.mp (List.mem_append_right _ member)
  obtain ⟨i, inside, null⟩ := List.mem_map.mp configured
  have bounds := separate.bounds inside
  have small : (toLocalAddress i).toNat = i := DynamicHandler.toNat_toLocalAddress (by omega)
  rw [null] at small
  have zero : LocalAddress.null_addr.toNat = 0 := rfl
  omega

theorem no_shared_address {ns : List PacketTypeCodec} {wire : List ByteVec} (separate : cfg.Separate)
    (one : OneToken cfg m) (reach : DynamicHandler.Reach cfg uninitialised m.m_dynamicHandler)
    (statics : Statics cfg (ns.map fixed)) (agreement : Agreement m.m_dynamicHandler.keys ns wire)
    {a : LocalAddress} (proper : a ≠ LocalAddress.null_addr) :
    ns.Pairwise fun n n' => ¬ (n.address = a ∧ n'.address = a) := by
  have line : ∀ n ∈ ns, n.address = a → n.dynamic = true → (a, true, n.m_uniqueId) ∈ m.m_dynamicHandler.keys := by
    intro n member mine dynamic
    rcases agreement.holds n member dynamic with null | key
    · exact absurd (mine.symm.trans null) proper
    · rw [← mine]
      exact key
  have handed : ∀ n ∈ ns, ∀ n' ∈ ns, n.address = a → n.dynamic = true → n'.address = a → n'.dynamic = true := by
    intro n member n' member' mine dynamic mine'
    by_contra static'
    have kept : some a ∈ ns.map fixed := by
      rw [← mine', ← fixed_static (Bool.eq_false_iff.mpr static')]
      exact List.mem_map_of_mem member'
    exact statics.outside kept (mem_dynamicAddresses reach (line n member mine dynamic))
  have distinct := statics.distinct
  rw [List.pairwise_map] at distinct
  refine (agreement.ids.and distinct).imp_of_mem ?_
  rintro n n' member member' ⟨ids, apart⟩ ⟨mine, mine'⟩
  by_cases dynamic : n.dynamic = true
  · have dynamic' := handed n member n' member' mine dynamic mine'
    exact ids (one.uniqueId_of_key separate (line n member mine dynamic) (line n' member' mine' dynamic'))
  · by_cases dynamic' : n'.dynamic = true
    · exact dynamic (handed n' member' n member mine' dynamic' mine)
    · refine apart a ?_ ?_
      · rw [fixed_static (Bool.eq_false_iff.mpr dynamic), mine]
      · rw [fixed_static (Bool.eq_false_iff.mpr dynamic'), mine']

end Single

/-! The beginning -/

section Start

variable {cfg : Config} {uninitialised : Nat → UniqueId} {ns : List PacketTypeCodec}

theorem mem_keys_start {d : LocalAddress} {isDynamic : Bool} {u : UniqueId}
    (key : (d, isDynamic, u) ∈ (DynamicHandler.start cfg uninitialised).1.keys) :
    isDynamic = false ∧ ∃ i ∈ cfg.staticAddresses, u = uninitialised i := by
  simp only [DynamicHandler.keys, DynamicHandler.start, List.map_map, List.mem_map, Function.comp_apply,
    AddressLine.key, AddressLine.static, Prod.mk.injEq] at key
  obtain ⟨i, static, _, kind, id⟩ := key
  exact ⟨kind.symm, i, static, id.symm⟩

theorem notMem_keys_start (d : LocalAddress) (u : UniqueId) :
    (d, true, u) ∉ (DynamicHandler.start cfg uninitialised).1.keys := by
  intro key
  cases (mem_keys_start key).1

theorem Setup.address_of_fixed (setup : Setup cfg uninitialised ns) {n : PacketTypeCodec} {a : LocalAddress}
    (kept : fixed n = some a) (member : n ∈ ns) : n.address = a ∧ a ≠ LocalAddress.null_addr := by
  by_cases dynamic : n.dynamic = true
  · rw [fixed_dynamic dynamic] at kept
    cases kept
  · rw [fixed_static (Bool.eq_false_iff.mpr dynamic)] at kept
    cases kept
    exact ⟨rfl, fun null => dynamic ((setup.fresh n member).2.mpr null)⟩

theorem Setup.statics (setup : Setup cfg uninitialised ns) : Statics cfg (ns.map fixed) := by
  refine ⟨?_, ?_, ?_⟩
  · rw [List.pairwise_map]
    refine setup.staticDistinct.imp_of_mem ?_
    intro n n' member member' apart a kept kept'
    obtain ⟨rfl, proper⟩ := setup.address_of_fixed kept member
    obtain ⟨same, _⟩ := setup.address_of_fixed kept' member'
    exact apart proper (same ▸ proper) same.symm
  · intro a kept
    obtain ⟨n, member, same⟩ := List.mem_map.mp kept
    exact (setup.address_of_fixed same member).2
  · intro a kept
    obtain ⟨n, member, same⟩ := List.mem_map.mp kept
    rw [← (setup.address_of_fixed same member).1]
    exact setup.staticOutside n member

theorem Setup.agreement (setup : Setup cfg uninitialised ns) :
    Agreement (DynamicHandler.start cfg uninitialised).1.keys ns [] := by
  refine ⟨setup.idsDistinct, ?_, ?_, ?_, ?_, by rintro _ _ ⟨⟩, by rintro _ ⟨⟩⟩
  · intro n member dynamic
    exact Or.inl ((setup.fresh n member).2.mp dynamic)
  · intro d u key
    exact absurd key (notMem_keys_start d u)
  · intro d d' u key
    exact absurd key (notMem_keys_start d u)
  · intro d u key n member
    obtain ⟨_, i, static, rfl⟩ := mem_keys_start key
    exact setup.idsKnown n member i static

end Start

/-! The whole bus -/

/-- What holds of the bus at all times. -/
structure Inv (cfg : Config) (uninitialised : Nat → UniqueId) (b : Bus) : Prop where
  synced : Synced b.m_master
  oneToken : OneToken cfg b.m_master
  handler : DynamicHandler.Reach cfg uninitialised b.m_master.m_dynamicHandler
  statics : Statics cfg (b.nodes.map fixed)
  dataOnly : ∀ n ∈ b.nodes, DataOnly n.m_txQueue
  agreement : Agreement b.m_master.m_dynamicHandler.keys b.nodes b.m_wire
  carried : ∀ bb ∈ b.m_wire, Carried bb
  asked : ∀ aReq, .rx_pkt_address_request aReq ∈ b.m_master.m_fsm.m_eventQueue →
    ∃ n ∈ b.nodes, n.m_uniqueId = aReq.m_uniqueId ∧ n.dynamic = true
  starting : Starting b.m_master b.m_wire
  phase : Phase b.m_master.m_fsm.m_state b.m_master.m_fsm.m_eventQueue
    b.m_master.m_fsm.m_currentAction.m_address b.nodes b.m_wire

namespace Inv

variable {cfg : Config} {uninitialised : Nat → UniqueId} {b : Bus}

/-- The token goes to an address with a line. -/
theorem address_ne_null (inv : Inv cfg uninitialised b) (separate : cfg.Separate)
    (token : b.m_master.m_fsm.m_currentAction.m_action = .send_token) :
    b.m_master.m_fsm.m_currentAction.m_address ≠ LocalAddress.null_addr := by
  intro null
  have current : b.m_master.m_fsm.m_currentAction.m_address ∈ b.m_master.tokens := by
    rw [tokens, inv.synced.sameAction]
    refine List.mem_filterMap.mpr ⟨_, List.mem_append_right _ (List.mem_singleton_self _), ?_⟩
    exact if_pos token
  rw [null] at current
  exact null_notMem_lines separate inv.oneToken (inv.oneToken.polled.mem_iff.mp current)

/-- A node that answered neither the token nor the reply before it does not exist. -/
theorem nobody (inv : Inv cfg uninitialised b) (state : b.m_master.m_fsm.m_state = .waitClientPacketDone)
    (queue : b.m_master.m_fsm.m_eventQueue = [.timer_timeout]) (u : UniqueId) :
    (b.m_master.m_fsm.m_currentAction.m_address, true, u) ∉ b.m_master.m_dynamicHandler.keys := by
  intro key
  have phase := inv.phase
  rw [state, queue] at phase
  simp only [Phase, List.cons.injEq, reduceCtorEq, false_and, or_self, if_false] at phase
  obtain ⟨answered, patient⟩ := phase
  have empty := patient (List.mem_singleton_self _)
  rcases answered with ⟨before, r, after, wire, _, _, _⟩ | ⟨_, _, nobody⟩
  · rw [empty] at wire
    simp at wire
  · obtain ⟨n, found, _, _, held | waiting⟩ := inv.agreement.served key
    · exact nobody n found held
    · rw [empty] at waiting
      cases waiting

theorem turn (inv : Inv cfg uninitialised b) {rxInProgress : Bool} {ev : Event} {master : Master}
    (queue : b.m_master.m_fsm.m_eventQueue = [ev]) (taken : TurnCase b.m_master rxInProgress ev master) :
    Inv cfg uninitialised { b with m_master := master, m_wire := b.m_wire ++ sentBy master.m_out } := by
  have own : DataOnly b.m_master.m_node.m_txQueue := inv.dataOnly _ List.mem_cons_self
  have asked : ∀ aReq, ev = .rx_pkt_address_request aReq →
      ∃ n ∈ b.nodes, n.m_uniqueId = aReq.m_uniqueId ∧ n.dynamic = true := by
    rintro aReq rfl
    exact inv.asked aReq (by rw [queue]; exact List.mem_singleton_self _)
  have kept : b.m_master.m_fsm.m_state = .waitClientPacketDone → ev = .timer_timeout →
      ∀ u, (b.m_master.m_fsm.m_currentAction.m_address, true, u) ∉ b.m_master.m_dynamicHandler.keys := by
    rintro state rfl
    exact inv.nobody state queue
  obtain ⟨same, dataOnly⟩ := face_turn taken own
  refine ⟨inv.synced.turn queue taken, inv.oneToken.turn inv.synced taken, taken.handler inv.handler, ?_, ?_,
    inv.agreement.turn inv.synced taken own asked kept, ?_, ?_, inv.starting.turn inv.synced own queue taken, ?_⟩
  · have faces : (master.m_node :: b.m_clients).map face = b.nodes.map face := by
      rw [List.map_cons, same, nodes, List.map_cons]
    rw [nodes, map_fixed_of_face faces]
    exact inv.statics
  · intro n member
    rcases List.mem_cons.mp member with rfl | client
    · exact dataOnly
    · exact inv.dataOnly n (List.mem_cons_of_mem _ client)
  · intro x member
    rcases List.mem_append.mp member with old | new
    · exact inv.carried x old
    · exact Carried.turn own taken x new
  · intro aReq request
    rcases taken.eventQueue queue with none | check
    · rw [none] at request
      cases request
    · rw [check, List.mem_singleton] at request
      cases request
  · exact Phase.turn queue taken own (queue ▸ inv.phase)

/-- The nodes only get something to send. -/
theorem of_face (inv : Inv cfg uninitialised b) {b' : Bus} (master : Synced b'.m_master)
    (oneToken : OneToken cfg b'.m_master)
    (handler : DynamicHandler.Reach cfg uninitialised b'.m_master.m_dynamicHandler)
    (keys : b'.m_master.m_dynamicHandler.keys = b.m_master.m_dynamicHandler.keys)
    (same : b'.nodes.map face = b.nodes.map face) (dataOnly : ∀ n ∈ b'.nodes, DataOnly n.m_txQueue)
    (wire : b'.m_wire = b.m_wire)
    (quiet : ∀ aReq, .rx_pkt_address_request aReq ∈ b'.m_master.m_fsm.m_eventQueue →
      .rx_pkt_address_request aReq ∈ b.m_master.m_fsm.m_eventQueue)
    (starting : Starting b'.m_master b.m_wire)
    (phase : Phase b'.m_master.m_fsm.m_state b'.m_master.m_fsm.m_eventQueue
      b'.m_master.m_fsm.m_currentAction.m_address b.nodes b.m_wire) : Inv cfg uninitialised b' := by
  refine ⟨master, oneToken, handler, ?_, dataOnly, ?_, wire ▸ inv.carried, ?_, wire ▸ starting, ?_⟩
  · rw [map_fixed_of_face same]
    exact inv.statics
  · rw [keys, wire]
    exact inv.agreement.congr same (fun _ _ => Iff.rfl) inv.agreement.requests
  · intro aReq request
    obtain ⟨n, found, id, dynamic⟩ := inv.asked aReq (quiet aReq request)
    obtain ⟨n', found', id', dynamic', _⟩ := exists_of_map_face same found
    exact ⟨n', found', id'.trans id, dynamic'.trans dynamic⟩
  · rw [wire]
    exact phase.congr same

theorem submit (inv : Inv cfg uninitialised b) {before after : List PacketTypeCodec} {n : PacketTypeCodec} {q : TxQueue}
    (clients : b.m_clients = before ++ n :: after) (submits : Submits n.m_txQueue q) :
    Inv cfg uninitialised { b with m_clients := before ++ { n with m_txQueue := q } :: after } := by
  have member : n ∈ b.nodes := by
    rw [nodes, clients]
    exact List.mem_cons_of_mem _ (List.mem_append_right _ List.mem_cons_self)
  have same : face { n with m_txQueue := q } = face n := by
    simp only [face, identity, address, dynamic, TxQueue.clientAddress, submits.ownAddress]
  refine inv.of_face inv.synced inv.oneToken inv.handler rfl ?_ ?_ rfl (fun _ request => request) inv.starting
    inv.phase
  · simp only [nodes, clients, List.map_cons, List.map_append, same]
  · intro n' member'
    have known : n' = { n with m_txQueue := q } ∨ n' ∈ b.nodes := by
      rw [nodes, clients]
      simp only [nodes, List.mem_cons, List.mem_append] at member' ⊢
      tauto
    rcases known with rfl | old
    · exact submits.dataOnly (inv.dataOnly n member)
    · exact inv.dataOnly n' old

/-- The start message has been heard long before the master is idle. -/
theorem starting_startNext (inv : Inv cfg uninitialised b) (idle : b.m_master.m_fsm.m_state = .idle) {m : Master}
    (fsm : m.m_fsm = b.m_master.m_fsm) (waiting : m.queued = b.m_master.queued)
    (handler : m.m_dynamicHandler = b.m_master.m_dynamicHandler) : Starting m.startNext b.m_wire := by
  have absent : packet.masterStarted ∉ b.m_wire := inv.starting.absent (Or.inl (by simp [idle]))
  rw [← List.append_nil b.m_wire]
  rcases m.startNext_cases with ⟨front, _, started, _, rest⟩ | ⟨_, started, _, rest⟩
  · have all : ∀ a ∈ front :: m.startNext.queued, a.m_action ≠ .send_master_start := by
      rw [← rest, waiting]
      exact inv.starting.queued
    refine Starting.of_absent (fun a member => all a (List.mem_cons_of_mem _ member)) ?_ absent (by rintro ⟨⟩)
    intro start
    rw [started] at start
    exact absurd start (all front List.mem_cons_self)
  · refine Starting.of_absent ?_ ?_ absent (by rintro ⟨⟩)
    · rw [← rest, waiting]
      exact inv.starting.queued
    · rw [started, fsm, startNext_dynamicHandler, handler]
      exact inv.starting.noLines

/-- The timers that wait for the token run out only on a silent bus. -/
theorem phase_timer (inv : Inv cfg uninitialised b) (queue : b.m_master.m_fsm.m_eventQueue = [])
    (patient : b.m_master.m_fsm.m_state = .sendingToken ∨ b.m_master.m_fsm.m_state = .waitClientPacketDone →
      b.m_wire = []) :
    Phase b.m_master.m_fsm.m_state [.timer_timeout] b.m_master.m_fsm.m_currentAction.m_address b.nodes b.m_wire := by
  have phase := inv.phase
  rw [queue] at phase
  cases state : b.m_master.m_fsm.m_state with
  | sendingToken =>
    rw [state] at phase
    simp only [Phase, reduceCtorEq, if_false] at phase
    obtain ⟨_, before, after, wire, _⟩ := phase
    rw [patient (Or.inl state)] at wire
    simp at wire
  | waitClientPacketDone =>
    rw [state] at phase
    simp only [Phase, reduceCtorEq, or_self, if_false] at phase
    simp only [Phase, List.cons.injEq, reduceCtorEq, false_and, or_self, if_false]
    exact ⟨phase.1, fun _ => patient (Or.inr state)⟩
  | _ =>
    rw [state] at phase
    exact phase

theorem stimulus (inv : Inv cfg uninitialised b) {now : ℚ} {s : Stimulus} {master : Master}
    (local_ : Local (.stimulus now s)) (patient : b.Patient (.stimulus now s))
    (queue : b.m_master.m_fsm.m_eventQueue = []) (taken : StimulusCase b.m_master now s master) :
    Inv cfg uninitialised { b with m_master := master, m_wire := b.m_wire ++ sentBy master.m_out } := by
  obtain ⟨same, own, keys, silent⟩ := stimulus_frame local_ taken (inv.dataOnly _ List.mem_cons_self)
  rw [silent, List.append_nil]
  have faces : (master.m_node :: b.m_clients).map face = b.nodes.map face := by
    rw [List.map_cons, same, nodes, List.map_cons]
  have dataOnly : ∀ n ∈ master.m_node :: b.m_clients, DataOnly n.m_txQueue := by
    intro n member
    rcases List.mem_cons.mp member with rfl | client
    · exact own
    · exact inv.dataOnly n (List.mem_cons_of_mem _ client)
  refine inv.of_face (inv.synced.stimulus queue taken) (inv.oneToken.stimulus taken) (taken.handler inv.handler) keys
    faces dataOnly rfl ?_ ?_ ?_
  · intro aReq request
    exact absurd request (stimulus_no_request local_ queue taken aReq)
  · obtain ⟨queued, noLines, absent, single⟩ := inv.starting
    cases taken with
    | packet _ => cases local_
    | timer =>
      refine ⟨queued, noLines, ?_, single⟩
      rintro (other | impossible)
      · exact absent (Or.inl other)
      · cases impossible
    | delayIdle nothing => exact inv.starting_startNext (inv.synced.idle_of_doNothing nothing) rfl rfl rfl
    | discovery =>
      refine ⟨?_, noLines, absent, single⟩
      intro a member
      have perm := MasterScheduler.queued_addActionNow b.m_master.m_actionHandler.m_scheduler
        Action.makeQueryAddressAction.withReport
      rcases List.mem_cons.mp (perm.mem_iff.mp member) with rfl | old
      · rintro ⟨⟩
      · exact queued a old
    | reordered reorders =>
      exact ⟨fun a member => queued a (reorders.queued.mem_iff.mp member), noLines, absent, single⟩
    | _ => exact ⟨queued, noLines, absent, single⟩
  · cases taken with
    | packet _ => cases local_
    | timer => exact inv.phase_timer queue patient
    | delayIdle nothing =>
      have phase := inv.phase
      rw [startNext_state]
      dsimp only [wake]
      rw [inv.synced.idle_of_doNothing nothing] at phase ⊢
      exact phase
    | _ => exact inv.phase

/-- All nodes, the one of the master included, hear a packet. -/
theorem deliver (inv : Inv cfg uninitialised b) (separate : cfg.Separate) {bb : ByteVec}
    {rest heard sent : List ByteVec} {now : ℚ} {stack : ChannelType × Crc32} {master : Master}
    {clients : List PacketTypeCodec}
    (wire : b.m_wire = bb :: rest) (queue : b.m_master.m_fsm.m_eventQueue = [])
    (taken : StimulusCase b.m_master now (.rxRawPacket bb stack) master)
    (hearClients : HearAll bb b.m_clients clients heard) (perm : sent.Perm (sentBy master.m_out ++ heard)) :
    Inv cfg uninitialised ⟨master, clients, rest ++ sent⟩ := by
  have kept := inv
  obtain ⟨_, oneToken, handler, statics, dataOnly, agreement, carried, _, starting, phase⟩ := kept
  rw [wire] at agreement carried starting phase
  rw [queue] at phase
  have synced' := inv.synced.stimulus queue taken
  have oneToken' := oneToken.stimulus taken
  have handler' := taken.handler handler
  have known := carried bb List.mem_cons_self
  -- the start message is on the wire only while the master starts
  have starts : bb = packet.masterStarted → b.m_master.m_fsm.m_state = .startMaster := by
    rintro rfl
    by_contra other
    exact starting.absent (Or.inl other) List.mem_cons_self
  have noLines : bb = packet.masterStarted → ∀ d u, (d, true, u) ∉ b.m_master.m_dynamicHandler.keys := by
    intro start
    have fits := inv.synced.fits
    rw [starts start] at fits
    exact starting.noLines fits
  have single : b.m_master.m_fsm.m_state = .sendingToken → b.nodes.Pairwise fun n n' =>
      ¬ (n.address = b.m_master.m_fsm.m_currentAction.m_address ∧
        n'.address = b.m_master.m_fsm.m_currentAction.m_address) := by
    intro state
    have fits := inv.synced.fits
    rw [state] at fits
    exact no_shared_address separate oneToken handler statics agreement (inv.address_ne_null separate fits)
  cases taken with
  | @packet _ _ node effects received =>
    obtain ⟨_, _, _, told⟩ := rxRawPacket_reaction received
    have events := filterMap_masterEvent inv.synced.registered told
    dsimp only at perm
    rw [sentBy_outward] at perm
    have hear : HearAll bb b.nodes (node :: clients) (sentBy effects ++ heard) :=
      .cons ⟨stack, effects, received, rfl⟩ hearClients
    refine ⟨synced', oneToken', handler', ?_, ?_, ?_, ?_, ?_, ?_, ?_⟩
    · dsimp only [nodes]
      rw [hear.fixed known agreement]
      exact statics
    · intro n' member
      obtain ⟨n, found, _, hears⟩ := hear.exists_before member
      exact hears.dataOnly (dataOnly n found)
    · exact agreement.hear known hear dataOnly (fun n member => statics.usable_of_mem member) noLines perm
    · intro x member
      rcases List.mem_append.mp member with old | new
      · exact carried x (List.mem_cons_of_mem _ old)
      · exact (hear.carried dataOnly (perm.mem_iff.mp new)).1
    · intro aReq request
      dsimp only at request
      rw [events, Option.mem_toList] at request
      have asks : aReq.fromHeader ∈ bb :: rest := by
        rw [← known.request_of_packetEvent request]
        exact List.mem_cons_self
      obtain ⟨n, found, id, dynamic⟩ := agreement.requests asks
      obtain ⟨n', found', _, hears⟩ := hear.exists_after found
      exact ⟨n', found', hears.uniqueId.trans id, hears.dynamic.trans dynamic⟩
    · have unsent : packet.masterStarted ∉ sent := by
        intro new
        exact (hear.carried dataOnly (perm.mem_iff.mp new)).2.2 rfl
      have once : rest.count packet.masterStarted ≤ 1 := (List.count_le_count_cons ..).trans starting.single
      refine ⟨starting.queued, starting.noLines, ?_, ?_⟩
      · dsimp only
        rw [events, List.mem_append]
        rintro finished (old | new)
        · rcases finished with other | heardStart
          · exact starting.absent (Or.inl other) (List.mem_cons_of_mem _ old)
          · have start := known.start_of_packetEvent (Option.mem_toList.mp (heardStart ▸ List.mem_singleton_self _))
            have twice := starting.single
            rw [start, List.count_cons_self] at twice
            have some_ := List.count_pos_iff.mpr old
            omega
        · exact unsent new
      · rw [List.count_append, List.count_eq_zero_of_not_mem unsent]
        exact once
    · dsimp only [nodes]
      rw [events]
      exact phase.hear known hear perm dataOnly single starts

theorem step (inv : Inv cfg uninitialised b) (separate : cfg.Separate) {b' : Bus} (step : Step b b') :
    Inv cfg uninitialised b' := by
  cases step with
  | deliver wire received hearClients perm =>
    rcases inv.synced.step_cases received with ⟨_, _, turn, _⟩ | ⟨_, _, label, queue, _, _, taken⟩
    · cases turn
    · cases label
      exact inv.deliver separate wire queue taken hearClients perm
  | submit clients submits => exact inv.submit clients submits
  | master local_ patient moved =>
    rcases inv.synced.step_cases moved with ⟨_, _, rfl, queue, taken⟩ | ⟨_, _, rfl, queue, _, _, taken⟩
    · exact inv.turn queue taken
    · exact inv.stimulus local_ patient queue taken

theorem start {own : PacketTypeCodec} {clients : List PacketTypeCodec}
    (setup : Setup cfg uninitialised (own :: clients)) (now : ℚ) :
    Inv cfg uninitialised ⟨started cfg own uninitialised now, clients, []⟩ := by
  have faces : ({ own with m_master := true } :: clients).map face = (own :: clients).map face := rfl
  refine ⟨started_synced cfg own uninitialised now, OneToken.started cfg own uninitialised now, .start, ?_, ?_,
    setup.agreement.congr faces (fun _ _ => Iff.rfl) (by rintro _ ⟨⟩), by rintro _ ⟨⟩, ?_, ?_, ?_⟩
  · rw [nodes, started, map_fixed_of_face faces]
    exact setup.statics
  · intro n member msg waiting
    have empty : n.m_txQueue.m_txMsg = [] := by
      rcases List.mem_cons.mp member with rfl | client
      · exact (setup.fresh own List.mem_cons_self).1
      · exact (setup.fresh n (List.mem_cons_of_mem _ client)).1
    rw [empty] at waiting
    cases waiting
  · intro aReq request
    cases List.mem_singleton.mp request
  · refine ⟨?_, fun _ => notMem_keys_start, fun _ => (by rintro ⟨⟩), Nat.zero_le 1⟩
    intro a member
    simp only [queued, MasterScheduler.queued, started, startActions, List.map_nil, List.append_nil,
      List.mem_append, List.mem_map, List.mem_singleton] at member
    rcases member with ⟨i, _, rfl⟩ | rfl
    · rintro ⟨⟩
    · rintro ⟨⟩
  · rintro _ ⟨⟩

end Inv

/-- The bus is never granted twice. In every state of every run at most one token,
answer to a token or data packet is under way, and none while the master is idle
without an action. -/
theorem mutual_exclusion (cfg : Config) (uninitialised : Nat → UniqueId) (own : PacketTypeCodec)
    (clients : List PacketTypeCodec) (setup : Setup cfg uninitialised (own :: clients)) (now : ℚ) (m₀ : Master)
    (constructed : Master.start cfg own uninitialised now = .ok m₀) (b : Bus)
    (run : Relation.ReflTransGen Step ⟨m₀, clients, []⟩ b) :
    (b.m_wire.filter isToken).length ≤ 1 ∧
      (b.m_master.m_fsm.m_state = .idle → b.m_master.actionActive = false → b.m_wire.filter isToken = []) := by
  rw [start_eq] at constructed
  cases constructed
  have inv : Inv cfg uninitialised b := by
    induction run with
    | refl => exact Inv.start setup now
    | tail _ step ih => exact ih.step setup.separate step
  refine ⟨inv.phase.length_filter_isToken, ?_⟩
  intro idle _
  have phase := inv.phase
  rw [idle] at phase
  exact Silent.filter_isToken phase

/-- A client holds the only token there is: the start of the master has been heard,
the token for address 1 as well, and the answer of the client with that address is on
the wire. -/
theorem mutual_exclusion_answered :
    ∃ b, Relation.ReflTransGen Step sampleBus b ∧ b.m_wire = [packet.ReturnToken.fromHeader ⟨1⟩] ∧
      (b.m_wire.filter isToken).length ≤ 1 := by
  obtain ⟨b, run, shown⟩ := run_of_script sampleBus (startScript ++ [.turn false,
    .stimulus 1000 (.rxRawPacket (packet.GrantToken.fromHeader ⟨1⟩) sampleStack), .turn false])
    (fun b => b.m_wire = [packet.ReturnToken.fromHeader ⟨1⟩]) (by decide +kernel)
  have setup : Setup {} (fun _ => unsetId) (sampleNode :: sampleBus.m_clients) := by
    refine ⟨Config.separate_default, ?_, ?_, ?_, ?_, ?_⟩ <;> decide
  exact ⟨b, run, of_decide_eq_true shown, (mutual_exclusion {} _ _ _ setup 1000 _ (start_eq _ _ _ _) b run).1⟩

end SerialNet.Bus
