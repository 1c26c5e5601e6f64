import SerialNet.Bus.Membership

namespace SerialNet

open PacketTypeCodec

/-! What names its sender -/

namespace PacketTypeCodec

/-- The packets that wait name the node they wait at, which has an address. -/
def Named (n : PacketTypeCodec) : Prop :=
  ∀ msg ∈ n.m_txQueue.m_txMsg, sourceAddress msg = some n.address ∧ n.address ≠ LocalAddress.null_addr

theorem Submits.named {n : PacketTypeCodec} {q : TxQueue} (submits : Submits n.m_txQueue q) (named : Named n) :
    Named { n with m_txQueue := q } := by
  have same : q.clientAddress = n.address := by
    rw [address, TxQueue.clientAddress, TxQueue.clientAddress, submits.ownAddress]
  intro msg member
  rw [address, same]
  cases submits with
  | packet data destAddr chType =>
    dsimp only [TxQueue.msgHostTx_sendPacket] at member
    split at member
    · rename_i valid
      rcases List.mem_append.mp member with old | new
      · exact named msg old
      · rw [List.mem_singleton.mp new]
        exact ⟨rfl, of_decide_eq_true valid⟩
    · exact named msg member
  | macUpdate mac =>
    dsimp only [TxQueue.msgHostTx_sendMacUpdate] at member
    split at member
    · exact named msg member
    · rename_i valid
      rcases List.mem_append.mp member with old | new
      · exact named msg old
      · rw [List.mem_singleton.mp new]
        exact ⟨rfl, of_decide_eq_true (not_not.mp valid)⟩

/-- A token is answered in the name of the node. -/
theorem Named.answer {n : PacketTypeCodec} (named : Named n) {x : ByteVec}
    (member : x ∈ sentBy n.m_txQueue.sendClientPacketOrReturnToken.2) : sourceAddress x = some n.address := by
  unfold TxQueue.sendClientPacketOrReturnToken TxQueue.sendClientPacket at member
  split at member
  · rw [List.mem_singleton.mp member]
    rfl
  · split at member
    · cases member
    · rename_i msg rest queue
      rw [List.mem_singleton.mp member]
      exact (named msg (queue ▸ List.mem_cons_self)).1

namespace Hears

variable {bb : ByteVec} {n n' : PacketTypeCodec} {sent : List ByteVec}

/-- A node that hears something has no more to send than before. -/
theorem queue (hears : Hears bb n n' sent) : ∀ msg ∈ n'.m_txQueue.m_txMsg, msg ∈ n.m_txQueue.m_txMsg := by
  obtain ⟨⟨stack, q, queue, reaction⟩, _⟩ := hears.reaction
  rw [queue]
  cases reaction with
  | granted => exact (sendClientPacketOrReturnToken_queue _).2
  | _ => exact fun _ member => member

/-- Only the node that is meant answers a token, and in its own name. -/
theorem names (hears : Hears bb n n' sent) (named : Named n) {x : ByteVec} (member : x ∈ sent)
    (response : isResponse x = true) :
    kind bb = some .grant_token ∧ packet.GrantToken.toHeader bb = some ⟨n.address⟩ ∧
      sourceAddress x = some n.address := by
  obtain ⟨⟨stack, q, queue, reaction⟩, _⟩ := hears.reaction
  cases reaction with
  | @granted p type header mine =>
    refine ⟨type, ?_, named.answer member⟩
    rw [header, address, ← mine]
  | assigned => cases member
  | started => cases member
  | asked type _ =>
    rw [List.mem_singleton.mp member] at response
    exact absurd rfl (Bus.kind_isResponse response).2.2.1
  | ignored => cases member

end Hears

end PacketTypeCodec

namespace Bus

open Master

/-! Who answers -/

/-- A token that can be heard is the one for the address being polled. -/
theorem Phase.grant_current {s : StateId} {a a' : LocalAddress} {ns : List PacketTypeCodec} {rest : List ByteVec}
    (phase : Phase s [] a ns (packet.GrantToken.fromHeader ⟨a'⟩ :: rest)) : s = .sendingToken ∧ a' = a := by
  cases s with
  | sendingToken =>
    simp only [Phase, reduceCtorEq, if_false] at phase
    obtain ⟨_, before, after, wire, silent, _, _⟩ := phase
    cases before with
    | nil =>
      have same := (List.cons.inj wire).1
      cases same
      exact ⟨rfl, rfl⟩
    | cons x before =>
      have token := silent x List.mem_cons_self
      rw [← (List.cons.inj wire).1] at token
      cases token
  | waitClientPacketDone =>
    simp only [Phase, reduceCtorEq, or_self, if_false] at phase
    rcases phase.1 with ⟨before, r, after, wire, response, silent, _⟩ | ⟨silent, _, _⟩
    · cases before with
      | nil =>
        rw [← (List.cons.inj wire).1] at response
        exact absurd rfl (kind_isResponse response).1
      | cons x before =>
        have token := silent x List.mem_cons_self
        rw [← (List.cons.inj wire).1] at token
        cases token
    · cases silent _ List.mem_cons_self
  | _ => cases phase _ List.mem_cons_self

/-- A node holds the address being polled. -/
structure Present (b : Bus) : Prop where
  proper : b.m_master.m_fsm.m_currentAction.m_address ≠ LocalAddress.null_addr
  holder : ∃ n ∈ b.nodes, n.address = b.m_master.m_fsm.m_currentAction.m_address

/-- Answers come from the node that is polled, on the wire and once they have been heard. -/
structure Sourced (b : Bus) : Prop where
  named : ∀ n ∈ b.nodes, Named n
  answers : ∀ r ∈ b.m_wire, isResponse r = true →
    sourceAddress r = some b.m_master.m_fsm.m_currentAction.m_address ∧ b.Present
  heard : b.m_master.m_fsm.m_state = .waitClientPacketDone →
    b.m_master.m_fsm.m_eventQueue = [.rx_pkt_client_packet] ∨ b.m_master.m_fsm.m_eventQueue = [.rx_return_token] →
      b.Present

theorem exists_keeps {ns ns' : List PacketTypeCodec} (keeps : List.Forall₂ Keeps ns ns') {n : PacketTypeCodec}
    (member : n ∈ ns) : ∃ n' ∈ ns', Keeps n n' := by
  induction keeps with
  | nil => cases member
  | cons first _ ih =>
    rcases List.mem_cons.mp member with rfl | later
    · exact ⟨_, List.mem_cons_self, first⟩
    · obtain ⟨n', inside, found⟩ := ih later
      exact ⟨n', List.mem_cons_of_mem _ inside, found⟩

theorem Present.step {b b' : Bus} (present : b.Present) (keeps : List.Forall₂ Keeps b.nodes b'.nodes)
    (same : b'.m_master.m_fsm.m_currentAction = b.m_master.m_fsm.m_currentAction) : b'.Present := by
  obtain ⟨proper, n, member, holds⟩ := present
  obtain ⟨n', member', kept⟩ := exists_keeps keeps member
  refine ⟨same ▸ proper, n', member', ?_⟩
  rw [same, ← holds]
  exact kept.address (holds ▸ proper)

theorem Carried.response_of_packetEvent {bb : ByteVec} (carried : Carried bb)
    (event : (packetEvent bb).toList = [.rx_pkt_client_packet] ∨ (packetEvent bb).toList = [.rx_return_token]) :
    isResponse bb = true := by
  cases carried with
  | grant a => rcases event with told | told <;> cases told
  | response response => exact response
  | started => rcases event with told | told <;> cases told
  | discovery type =>
    rw [packetEvent_discovery type] at event
    rcases event with told | told <;> cases told
  | request r =>
    rw [packetEvent_request] at event
    rcases event with told | told <;> cases told
  | reply d u =>
    rw [packetEvent_reply] at event
    rcases event with told | told <;> cases told

theorem Carried.grant_of_header {bb : ByteVec} {p : packet.GrantToken} (carried : Carried bb)
    (type : kind bb = some .grant_token) (header : packet.GrantToken.toHeader bb = some p) : bb = p.fromHeader := by
  cases carried with
  | grant a =>
    rw [packet.GrantToken.toHeader_fromHeader] at header
    rw [Option.some.inj header]
  | response response => exact absurd type (kind_isResponse response).1
  | discovery other =>
    rw [type] at other
    cases other
  | _ => cases type

section Steps

variable {cfg : Config} {uninitialised : Nat → UniqueId} {b b' : Bus}

theorem not_silent {wire : List ByteVec} {r : ByteVec} (onWire : r ∈ wire) (response : isResponse r = true) :
    ¬ Silent wire := by
  intro silent
  have token := silent r onWire
  rw [isToken_isResponse response] at token
  cases token

/-- With an answer under way the master does not go on to another action. -/
theorem Inv.currentAction_turn (inv : Inv cfg uninitialised b) {rxInProgress : Bool} {ev : Event} {master : Master}
    (queue : b.m_master.m_fsm.m_eventQueue = [ev]) (taken : TurnCase b.m_master rxInProgress ev master)
    {r : ByteVec} (onWire : r ∈ b.m_wire) (response : isResponse r = true) :
    master.m_fsm.m_currentAction = b.m_master.m_fsm.m_currentAction := by
  have phase := inv.phase
  rw [queue] at phase
  cases taken with
  | ownIdle state _ _ _ =>
    rw [state] at phase
    exact absurd phase (not_silent onWire response)
  | reported result _ => exact absurd (phase.silent_of_result result) (not_silent onWire response)
  | _ => simp [startTimer]

theorem Inv.currentAction_stimulus (inv : Inv cfg uninitialised b) {now : ℚ} {s : Stimulus} {master : Master}
    (taken : StimulusCase b.m_master now s master) {r : ByteVec} (onWire : r ∈ b.m_wire)
    (response : isResponse r = true) : master.m_fsm.m_currentAction = b.m_master.m_fsm.m_currentAction := by
  cases taken with
  | delayIdle nothing =>
    have phase := inv.phase
    rw [inv.synced.idle_of_doNothing nothing] at phase
    exact absurd phase (not_silent onWire response)
  | _ => rfl

/-- Only with its own token does the master send an answer by itself. -/
theorem response_turn {m m' : Master} {rxInProgress : Bool} {ev : Event} (taken : TurnCase m rxInProgress ev m')
    {x : ByteVec} (sent : x ∈ sentBy m'.m_out) (response : isResponse x = true) :
    x ∈ m.m_node.m_txQueue.m_txMsg ∧ m.m_fsm.m_currentAction.m_address = m.m_node.address ∧
      m'.m_fsm.m_currentAction = m.m_fsm.m_currentAction := by
  obtain ⟨noGrant, noReply, _, noStart, noDiscovery⟩ := kind_isResponse response
  cases taken with
  | ignored _ => cases sent
  | rearmed _ => cases sent
  | ownIdle _ _ _ _ =>
    rw [conclude_out] at sent
    cases sent
  | ownSends _ _ mine packets =>
    cases waiting : m.m_node.m_txQueue.m_txMsg with
    | nil =>
      rw [TxQueue.txQueueEmpty, waiting] at packets
      cases packets
    | cons msg rest =>
      have same : x = msg := by
        simpa [sendClientPacket, TxQueue.sendClientPacket, waiting, entrySends] using sent
      exact ⟨same ▸ List.mem_cons_self, mine, by simp⟩
  | grants _ _ _ =>
    have same : x = packet.GrantToken.fromHeader ⟨m.m_fsm.m_currentAction.m_address⟩ := by
      simpa [entrySends] using sent
    exact absurd (same ▸ rfl) noGrant
  | queries _ _ =>
    have same : x = packet.AddressDiscovery.fromHeader ⟨0, 0⟩ := by simpa [entrySends] using sent
    exact absurd (same ▸ rfl) noDiscovery
  | starts _ _ =>
    have same : x = packet.masterStarted := by simpa [entrySends] using sent
    exact absurd (same ▸ rfl) noStart
  | grantSeen _ => simp [entrySends] at sent
  | grantLost _ => simp [entrySends] at sent
  | @requested aReq _ =>
    rcases receivedAddressRequest_out m.consume aReq with none | ⟨d, one⟩
    · simp [none, entrySends] at sent
    · have same : x = reply d aReq.m_uniqueId := by simpa [one, entrySends] using sent
      exact absurd (same ▸ rfl) noReply
  | reported _ _ => simp [entrySends] at sent

theorem queue_turn {m m' : Master} {rxInProgress : Bool} {ev : Event} (taken : TurnCase m rxInProgress ev m') :
    ∀ msg ∈ m'.m_node.m_txQueue.m_txMsg, msg ∈ m.m_node.m_txQueue.m_txMsg := by
  cases taken with
  | ownSends _ _ _ _ =>
    intro msg member
    rw [goto_node] at member
    unfold sendClientPacket TxQueue.sendClientPacket at member
    split at member
    · exact member
    · rename_i first rest queue
      rw [show m.m_node.m_txQueue.m_txMsg = first :: rest from queue]
      exact List.mem_cons_of_mem _ member
  | _ => simp [startTimer]

/-- Apart from a packet, only a timer or the action handler gives the state machine
something to do. -/
theorem stimulus_eventQueue {m m' : Master} {now : ℚ} {s : Stimulus} (local_ : Local (.stimulus now s))
    (queue : m.m_fsm.m_eventQueue = []) (taken : StimulusCase m now s m') :
    m'.m_fsm.m_eventQueue ≠ [.rx_pkt_client_packet] ∧ m'.m_fsm.m_eventQueue ≠ [.rx_return_token] := by
  cases taken with
  | packet _ => cases local_
  | delayIdle _ =>
    rcases startNext_cases { m.wake now with m_actionHandler := { m.m_actionHandler with
      m_delayAction := m.m_actionHandler.m_delayAction.expire _ } } with ⟨_, _, fsm, _, _⟩ | ⟨_, fsm, _, _⟩
    · rw [fsm]
      simp [wake, queue]
    · rw [fsm]
      simp [wake, queue]
  | _ => simp [wake, setTxQueue, postActionNow, setScheduler, queue]

theorem Sourced.deliver (sourced : Sourced b) (inv : Inv cfg uninitialised b) (separate : cfg.Separate)
    {bb : ByteVec} {rest heard sent : List ByteVec} {now : ℚ} {stack : ChannelType × Crc32} {master : Master}
    {clients : List PacketTypeCodec} (wire : b.m_wire = bb :: rest)
    (received : b.m_master.Step (.stimulus now (.rxRawPacket bb stack)) master)
    (hearClients : HearAll bb b.m_clients clients heard) (perm : sent.Perm (sentBy master.m_out ++ heard)) :
    Sourced ⟨master, clients, rest ++ sent⟩ := by
  obtain ⟨hear, queue, _, _, fsm⟩ := inv.received received hearClients
  have action : master.m_fsm.m_currentAction = b.m_master.m_fsm.m_currentAction := by rw [fsm]
  have onWire : bb ∈ b.m_wire := by
    rw [wire]
    exact List.mem_cons_self
  have keeps : List.Forall₂ Keeps b.nodes (master.m_node :: clients) :=
    hear.forall₂ fun n member n' s hears => inv.keeps_hears wire member hears
  refine ⟨?_, ?_, ?_⟩
  · intro n' member msg waiting
    obtain ⟨n, found, s, hears⟩ := hear.exists_before member
    obtain ⟨source, proper⟩ := sourced.named n found msg (hears.queue msg waiting)
    rw [(inv.keeps_hears wire found hears).address proper]
    exact ⟨source, proper⟩
  · intro r member response
    dsimp only
    rw [action]
    rcases List.mem_append.mp member with old | new
    · obtain ⟨source, present⟩ := sourced.answers r (wire ▸ List.mem_cons_of_mem _ old) response
      exact ⟨source, present.step keeps action⟩
    · -- an answer to the token that has just been heard
      obtain ⟨n, found, n', s, hears, inside⟩ := hear.exists_sender (perm.mem_iff.mp new)
      obtain ⟨type, header, source⟩ := hears.names (sourced.named n found) inside response
      have grant := (inv.carried bb onWire).grant_of_header type header
      have phase := inv.phase
      rw [queue, wire, grant] at phase
      obtain ⟨state, address⟩ := phase.grant_current
      have fits := inv.synced.fits
      rw [state] at fits
      have present : b.Present := ⟨inv.address_ne_null separate fits, n, found, address⟩
      exact ⟨address ▸ source, present.step keeps action⟩
  · intro _ event
    dsimp only at event
    rw [fsm] at event
    have response := (inv.carried bb onWire).response_of_packetEvent event
    exact (sourced.answers bb onWire response).2.step keeps action

theorem Sourced.turn (sourced : Sourced b) (inv : Inv cfg uninitialised b) {rxInProgress : Bool} {ev : Event}
    {master : Master} (queue : b.m_master.m_fsm.m_eventQueue = [ev])
    (taken : TurnCase b.m_master rxInProgress ev master) :
    Sourced { b with m_master := master, m_wire := b.m_wire ++ sentBy master.m_out } := by
  have own := sourced.named b.m_master.m_node List.mem_cons_self
  have same := (face_turn taken (inv.dataOnly _ List.mem_cons_self)).1
  have address : master.m_node.address = b.m_master.m_node.address := congrArg Prod.snd same
  have keeps : List.Forall₂ Keeps b.nodes (master.m_node :: b.m_clients) := by
    refine forall₂_keeps_of_face ?_
    rw [nodes, List.map_cons, List.map_cons, same]
  refine ⟨?_, ?_, ?_⟩
  · intro n member
    rcases List.mem_cons.mp member with rfl | client
    · intro msg waiting
      rw [address]
      exact own msg (queue_turn taken msg waiting)
    · exact sourced.named n (List.mem_cons_of_mem _ client)
  · intro r member response
    rcases List.mem_append.mp member with old | new
    · obtain ⟨source, present⟩ := sourced.answers r old response
      have action := inv.currentAction_turn queue taken old response
      dsimp only
      rw [action]
      exact ⟨source, present.step keeps action⟩
    · obtain ⟨waiting, mine, action⟩ := response_turn taken new response
      obtain ⟨source, proper⟩ := own r waiting
      dsimp only
      rw [action, mine]
      refine ⟨source, ?_, master.m_node, List.mem_cons_self, ?_⟩
      · dsimp only
        rw [action, mine]
        exact proper
      · rw [action, mine, address]
  · rintro _ (event | event)
    · rcases taken.eventQueue queue with none | check
      · rw [none] at event
        cases event
      · rw [check] at event
        cases event
    · rcases taken.eventQueue queue with none | check
      · rw [none] at event
        cases event
      · rw [check] at event
        cases event

theorem Named.stimulus {m m' : Master} {now : ℚ} {s : Stimulus} (named : Named m.m_node)
    (local_ : Local (.stimulus now s)) (taken : StimulusCase m now s m') : Named m'.m_node := by
  cases taken with
  | packet _ => cases local_
  | sendPacket => exact Submits.named (.packet _ _ _) named
  | sendMacUpdate => exact Submits.named (.macUpdate _) named
  | delayIdle _ =>
    rw [startNext_node]
    exact named
  | _ => exact named

theorem Sourced.stimulus (sourced : Sourced b) (inv : Inv cfg uninitialised b) {now : ℚ} {s : Stimulus}
    {master : Master} (local_ : Local (.stimulus now s)) (queue : b.m_master.m_fsm.m_eventQueue = [])
    (taken : StimulusCase b.m_master now s master) :
    Sourced { b with m_master := master, m_wire := b.m_wire ++ sentBy master.m_out } := by
  obtain ⟨same, _, _, silent⟩ := stimulus_frame local_ taken (inv.dataOnly _ List.mem_cons_self)
  have keeps : List.Forall₂ Keeps b.nodes (master.m_node :: b.m_clients) := by
    refine forall₂_keeps_of_face ?_
    rw [nodes, List.map_cons, List.map_cons, same]
  refine ⟨?_, ?_, ?_⟩
  · intro n member
    rcases List.mem_cons.mp member with rfl | client
    · exact Named.stimulus (sourced.named _ List.mem_cons_self) local_ taken
    · exact sourced.named n (List.mem_cons_of_mem _ client)
  · intro r member response
    rw [silent, List.append_nil] at member
    obtain ⟨source, present⟩ := sourced.answers r member response
    have action := inv.currentAction_stimulus taken member response
    dsimp only
    rw [action]
    exact ⟨source, present.step keeps action⟩
  · intro _ event
    obtain ⟨noPacket, noReturn⟩ := stimulus_eventQueue local_ queue taken
    rcases event with told | told
    · exact absurd told noPacket
    · exact absurd told noReturn

theorem Sourced.step (sourced : Sourced b) (inv : Inv cfg uninitialised b) (separate : cfg.Separate)
    (step : Step b b') : Sourced b' := by
  have keeps := inv.keeps_step step
  cases step with
  | deliver wire received hear perm => exact sourced.deliver inv separate wire received hear perm
  | @submit before n after q clients submits =>
    have known : ∀ n', n' ∈ before ++ n :: after → n' ∈ b.nodes := by
      intro n' member
      rw [nodes, clients]
      exact List.mem_cons_of_mem _ member
    refine ⟨?_, ?_, ?_⟩
    · intro n' member
      rcases List.mem_cons.mp member with rfl | client
      · exact sourced.named b.m_master.m_node List.mem_cons_self
      · rcases List.mem_append.mp client with old | new
        · exact sourced.named n' (known n' (List.mem_append_left _ old))
        · rcases List.mem_cons.mp new with rfl | old
          · exact submits.named (sourced.named n (known n (List.mem_append_right _ List.mem_cons_self)))
          · exact sourced.named n' (known n' (List.mem_append_right _ (List.mem_cons_of_mem _ old)))
    · intro r member response
      obtain ⟨source, present⟩ := sourced.answers r member response
      exact ⟨source, present.step keeps rfl⟩
    · intro state event
      exact (sourced.heard state event).step keeps rfl
  | master local_ _ moved =>
    rcases inv.synced.step_cases moved with ⟨_, _, rfl, queue, taken⟩ | ⟨_, _, rfl, queue, _, _, taken⟩
    · exact sourced.turn inv queue taken
    · exact sourced.stimulus inv local_ queue taken

end Steps

/-! What is reported -/

theorem conclude_reports (m : Master) (rv : ReturnValue) (dh : DynamicHandler) (again : Option ℚ) :
    (m.conclude rv dh again).m_log.reports = m.m_log.reports ++ [(m.m_log.ticket, rv)] := by
  obtain ⟨_, _, ⟨_, _, _, log, _⟩ | ⟨_, _, log, _⟩⟩ := m.conclude_cases rv dh again
  · rw [log]
  · rw [log]

/-- A turn reports nothing, or that the own node has nothing to send, or what the event says. -/
theorem reports_turn {m m' : Master} {rxInProgress : Bool} {ev : Event} (taken : TurnCase m rxInProgress ev m') :
    m'.m_log.reports = m.m_log.reports ∨ ∃ rv, m'.m_log.reports = m.m_log.reports ++ [(m.m_log.ticket, rv)] ∧
      (rv = .rx_token_no_packet ∧ m.m_node.address = m.m_fsm.m_currentAction.m_address ∨
        resultOf rxInProgress m.m_fsm.m_state ev = some rv) := by
  cases taken with
  | ownIdle _ _ mine _ => exact Or.inr ⟨_, conclude_reports .., Or.inl ⟨rfl, mine.symm⟩⟩
  | reported result _ => exact Or.inr ⟨_, by rw [goto_log, conclude_reports, consume_log], Or.inr result⟩
  | _ => exact Or.inl (by simp [startTimer])

theorem log_stimulus {m m' : Master} {now : ℚ} {s : Stimulus} (taken : StimulusCase m now s m') :
    m'.m_log.reports = m.m_log.reports := by
  cases taken with
  | delayIdle _ =>
    rcases startNext_cases { m.wake now with m_actionHandler := { m.m_actionHandler with
      m_delayAction := m.m_actionHandler.m_delayAction.expire _ } } with ⟨_, _, _, log, _⟩ | ⟨_, _, log, _⟩
    · rw [log]
      rfl
    · rw [log]
      rfl
  | _ => rfl

section Runs

variable {cfg : Config} {uninitialised : Nat → UniqueId} {own : PacketTypeCodec} {clients : List PacketTypeCodec}
  {now : ℚ} {m₀ : Master} {b b' : Bus}

theorem sourced_of_run (setup : Setup cfg uninitialised (own :: clients))
    (constructed : Master.start cfg own uninitialised now = .ok m₀)
    (run : Relation.ReflTransGen Step ⟨m₀, clients, []⟩ b) : Sourced b := by
  induction run with
  | refl =>
    rw [start_eq] at constructed
    cases constructed
    refine ⟨?_, by rintro _ ⟨⟩, by rintro ⟨⟩⟩
    intro n member msg waiting
    have empty : n.m_txQueue.m_txMsg = [] := by
      rcases List.mem_cons.mp member with rfl | client
      · exact (setup.fresh own List.mem_cons_self).1
      · exact (setup.fresh n (List.mem_cons_of_mem _ client)).1
    rw [empty] at waiting
    cases waiting
  | tail before step ih => exact ih.step (Inv.of_run setup constructed before) setup.separate step

/-- A missed token is reported while nobody holds its address. -/
theorem Inv.truthful_turn (inv : Inv cfg uninitialised b) (sourced : Sourced b) {rxInProgress : Bool} {ev : Event}
    {rv : ReturnValue} (queue : b.m_master.m_fsm.m_eventQueue = [ev])
    (result : resultOf rxInProgress b.m_master.m_fsm.m_state ev = some rv)
    (token : b.m_master.m_fsm.m_currentAction.m_action = .send_token) :
    (rv = .token_timeout ∧ ∀ n ∈ b.nodes, n.address ≠ b.m_master.m_fsm.m_currentAction.m_address) ∨
      (rv ≠ .token_timeout ∧ b.Present) := by
  have fits := inv.synced.fits
  have phase := inv.phase
  have heard := sourced.heard
  rw [queue] at phase heard
  rw [token] at fits
  cases state : b.m_master.m_fsm.m_state with
  | waitClientPacketDone =>
    rw [state] at result phase
    cases ev with
    | timer_timeout =>
      simp only [Phase, List.cons.injEq, reduceCtorEq, false_and, or_self, if_false] at phase
      obtain ⟨answered, patient⟩ := phase
      have empty := patient (List.mem_singleton_self _)
      have missed : rv = .token_timeout := by
        cases rxInProgress <;> cases result
        rfl
      rcases answered with ⟨before, r, after, wire, _, _, _⟩ | ⟨_, _, nobody⟩
      · rw [empty] at wire
        simp at wire
      · exact Or.inl ⟨missed, nobody⟩
    | rx_pkt_client_packet =>
      cases result
      exact Or.inr ⟨by rintro ⟨⟩, heard state (Or.inl rfl)⟩
    | rx_return_token =>
      cases result
      exact Or.inr ⟨by rintro ⟨⟩, heard state (Or.inr rfl)⟩
    | _ => cases result
  | idle =>
    rw [state] at result
    cases result
  | sendingToken =>
    rw [state] at result
    cases ev <;> cases result
  | _ =>
    rw [state] at fits
    cases fits

/-- A token that is reported as missed was for an address that nobody holds, and the other
way round. -/
theorem Inv.truthful (inv : Inv cfg uninitialised b) (sourced : Sourced b) (step : Step b b') {k : Nat}
    {rv : ReturnValue} (report : b'.m_master.m_log.reports = b.m_master.m_log.reports ++ [(k, rv)])
    (token : b.m_master.m_fsm.m_currentAction.m_action = .send_token) :
    rv = .token_timeout ↔ ∀ n ∈ b.nodes, n.address ≠ b.m_master.m_fsm.m_currentAction.m_address := by
  have nothing : b'.m_master.m_log.reports ≠ b.m_master.m_log.reports := by
    rw [report]
    simp
  cases step with
  | deliver _ received hear _ =>
    obtain ⟨_, _, _, log, _⟩ := inv.received received hear
    exact absurd (by rw [log]) nothing
  | submit _ _ => exact absurd rfl nothing
  | master local_ _ moved =>
    rcases inv.synced.step_cases moved with ⟨rxInProgress, ev, rfl, queue, taken⟩ | ⟨_, _, rfl, _, _, _, taken⟩
    · rcases reports_turn taken with none | ⟨rv', new, source⟩
      · exact absurd none nothing
      · have both := List.append_cancel_left (new.symm.trans report)
        obtain ⟨_, rfl⟩ : b.m_master.m_log.ticket = k ∧ rv' = rv := by simpa using both
        rcases source with ⟨rfl, mine⟩ | result
        · refine ⟨by rintro ⟨⟩, ?_⟩
          intro nobody
          exact absurd mine (nobody b.m_master.m_node List.mem_cons_self)
        · rcases inv.truthful_turn sourced queue result token with ⟨missed, nobody⟩ | ⟨answered, _, n, member, holds⟩
          · exact iff_of_true missed nobody
          · exact iff_of_false answered fun nobody => nobody n member holds
    · exact absurd (log_stimulus taken) nothing

end Runs

/-- On a bus that delivers, where the two timers that wait for a token or its answer run out
on a silent wire only, the master learns what is the case. Answers on the wire come
from the node that is being polled and name it, an action is reported exactly once by the
time the master rests, and a token is reported as missed just when nobody holds its
address. -/
theorem results_truthful (cfg : Config) (uninitialised : Nat → UniqueId) (own : PacketTypeCodec)
    (clients : List PacketTypeCodec) (setup : Setup cfg uninitialised (own :: clients)) (now : ℚ) (m₀ : Master)
    (constructed : Master.start cfg own uninitialised now = .ok m₀) (b : Bus)
    (run : Relation.ReflTransGen Step ⟨m₀, clients, []⟩ b) :
    (∀ r ∈ b.m_wire, isResponse r = true →
      sourceAddress r = some b.m_master.m_fsm.m_currentAction.m_address ∧
        ∃ n ∈ b.nodes, n.address = b.m_master.m_fsm.m_currentAction.m_address) ∧
    (b.m_master.reported.Nodup ∧ (b.m_master.m_fsm.m_state = .idle → b.m_master.m_fsm.m_eventQueue = [] →
      ∀ k < b.m_master.m_log.started, k ∈ b.m_master.reported)) ∧
    ∀ b' k rv, Step b b' → b'.m_master.m_log.reports = b.m_master.m_log.reports ++ [(k, rv)] →
      b.m_master.m_fsm.m_currentAction.m_action = .send_token →
        (rv = .token_timeout ↔ ∀ n ∈ b.nodes, n.address ≠ b.m_master.m_fsm.m_currentAction.m_address) := by
  have inv := Inv.of_run setup constructed run
  have sourced := sourced_of_run setup constructed run
  have reach := master_reach setup constructed run
  refine ⟨?_, ⟨reach.reported_once.1, ?_⟩, ?_⟩
  · intro r member response
    obtain ⟨source, present⟩ := sourced.answers r member response
    exact ⟨source, present.holder⟩
  · intro idle queue k started
    have inactive : b.m_master.actionActive = false := by
      by_contra active
      have check := reach.notResting (fun _ _ kept => kept) idle (Bool.eq_true_of_not_eq_false active)
      rw [queue] at check
      cases check
    rw [reach.accounted.inactive inactive]
    exact List.mem_range.mpr started
  · intro b' k rv step report token
    exact inv.truthful sourced step report token

/-- Address 2 has been polled in vain, because nobody holds it. -/
theorem results_truthful_missed :
    ∃ b b', Relation.ReflTransGen Step sampleBus b ∧ Step b b' ∧
      b'.m_master.m_log.reports = b.m_master.m_log.reports ++ [(2, .token_timeout)] ∧
      ∀ n ∈ b.nodes, n.address ≠ b.m_master.m_fsm.m_currentAction.m_address := by
  obtain ⟨b, run, shown⟩ := run_of_script sampleBus (joinScript.take 12)
    (fun b => b.m_master.m_fsm.m_currentAction.m_action = .send_token ∧ (b.exec (.turn false)).any fun b' =>
      b'.m_master.m_log.reports = b.m_master.m_log.reports ++ [(2, .token_timeout)]) (by decide +kernel)
  obtain ⟨token, shown⟩ := of_decide_eq_true shown
  obtain ⟨b', taken, report⟩ := (Option.any_eq_true _ _).mp shown
  have setup : Setup {} (fun _ => unsetId) (sampleNode :: sampleBus.m_clients) := by
    refine ⟨Config.separate_default, ?_, ?_, ?_, ?_, ?_⟩ <;> decide
  have truthful := (results_truthful {} _ _ _ setup 1000 _ (start_eq _ _ _ _) b run).2.2
  exact ⟨b, b', run, exec_step taken, of_decide_eq_true report,
    (truthful b' 2 _ (exec_step taken) (of_decide_eq_true report) token).mp rfl⟩

end Bus

end SerialNet
