import SerialNet.Client

namespace SerialNet

/-! A client in operation: a node without a master -/

namespace Client

inductive Input
  | msgHostTx_sendPacket (data : ByteVec) (destAddr : LocalAddress) (chType : ChannelType)
  | msgHostTx_sendMacUpdate (mac : MacAddr)
  | rxRawPacket (bb : ByteVec) (stack : ChannelType × Crc32)
  | setAddress (addr : LocalAddress)
  | masterStarted
  | setRxHandler (rxIf : Option RxIf) (chType : ChannelType)

def step (n : PacketTypeCodec) : Input → Option (PacketTypeCodec × List Effect)
  | .msgHostTx_sendPacket data destAddr chType =>
    some ({ n with m_txQueue := n.m_txQueue.msgHostTx_sendPacket data destAddr chType }, [])
  | .msgHostTx_sendMacUpdate mac => some ({ n with m_txQueue := n.m_txQueue.msgHostTx_sendMacUpdate mac }, [])
  | .rxRawPacket bb stack => n.rxRawPacket bb stack
  | .setAddress addr =>
    let changed := n.m_txQueue.setAddress addr
    some ({ n with m_txQueue := changed.1 }, changed.2)
  | .masterStarted =>
    let changed := n.m_txQueue.masterStarted
    some ({ n with m_txQueue := changed.1 }, changed.2)
  | .setRxHandler rxIf chType => some ({ n with m_txQueue := n.m_txQueue.setRxHandler rxIf chType }, [])

/-- The packet grants the token to this node. -/
def granted (n : PacketTypeCodec) : Input → Bool
  | .rxRawPacket bb _ => kind bb = some .grant_token ∧ longEnough bb ∧
      (packet.GrantToken.toHeader bb).map (·.m_tokenReceiver) = some n.m_txQueue.clientAddress
  | _ => false

/-- The packet that is to go out for a submission. Without an address nothing is
accepted. -/
def accepted (n : PacketTypeCodec) : Input → Option ByteVec
  | .msgHostTx_sendPacket data destAddr chType =>
    if n.m_txQueue.m_ownAddress.valid then
      some (packet.SendPacket.fromHeader ⟨chType, destAddr, n.m_txQueue.clientAddress⟩ ++ data)
    else
      none
  | .msgHostTx_sendMacUpdate mac =>
    if n.m_txQueue.m_ownAddress.valid then
      some (packet.MacUpdate.fromHeader
        ⟨LocalAddress.broadcast, n.m_txQueue.clientAddress, n.m_txQueue.clientAddress, mac⟩)
    else
      none
  | _ => none

/-- What is seen of one input. -/
structure Record where
  granted : Bool
  accepted : Option ByteVec
  sent : List ByteVec

def record (n : PacketTypeCodec) (input : Input) (effects : List Effect) : Record :=
  ⟨granted n input, accepted n input, sentBy effects⟩

def run (n : PacketTypeCodec) : List Input → Option (PacketTypeCodec × List Record)
  | [] => some (n, [])
  | input :: rest => do
    let first ← step n input
    let later ← run first.1 rest
    some (later.1, record n input first.2 :: later.2)

/-- Data of a client on the wire. -/
def isData (msg : ByteVec) : Bool := kind msg = some .send_packet ∨ kind msg = some .mac_update

/-- What a client may send when it has the token. -/
def isAnswer (msg : ByteVec) : Bool := isData msg ∨ kind msg = some .return_token

/-- The data sent, and the data accepted, in a run. -/
def dataSent (log : List Record) : List ByteVec := log.flatMap fun r => r.sent.filter isData

def dataAccepted (log : List Record) : List ByteVec := log.filterMap (·.accepted)

/-! One input -/

/-- A node between two inputs. -/
structure Resting (n : PacketTypeCodec) : Prop where
  delivered : n.m_rxMsg = []
  alone : n.m_master = false
  data : ∀ msg ∈ n.m_txQueue.m_txMsg, isData msg = true

/-- Everything an input does to the packets that wait for the token. -/
inductive Answer (n : PacketTypeCodec) (r : Record) (queue : List ByteVec) : Prop
  | packet {msg} : r.granted = true → r.accepted = none → n.m_txQueue.m_txMsg = msg :: queue → r.sent = [msg] →
      Answer n r queue
  | noPacket {addr} : r.granted = true → r.accepted = none → n.m_txQueue.m_txMsg = [] → queue = [] →
      r.sent = [packet.ReturnToken.fromHeader ⟨addr⟩] → Answer n r queue
  | silent : r.granted = false → queue = n.m_txQueue.m_txMsg ++ r.accepted.toList →
      (∀ msg ∈ r.sent, isAnswer msg = false) → Answer n r queue

theorem granted_of_header {n : PacketTypeCodec} {bb : ByteVec} {p : packet.GrantToken}
    (stack : ChannelType × Crc32) (type : kind bb = some .grant_token) (header : packet.GrantToken.toHeader bb = some p)
    (mine : p.m_tokenReceiver = n.m_txQueue.clientAddress) : granted n (.rxRawPacket bb stack) = true := by
  have long : longEnough bb = true := by
    rw [PacketTypeCodec.longEnough_iff type]
    obtain ⟨receiver, atOne, _⟩ := Option.bind_eq_some_iff.mp header
    have inside := (List.getElem?_eq_some_iff.mp atOne).1
    exact inside
  refine decide_eq_true ⟨type, long, ?_⟩
  rw [header, ← mine]
  rfl

theorem not_granted {n : PacketTypeCodec} {bb : ByteVec} (stack : ChannelType × Crc32)
    (other : ∀ p, kind bb = some .grant_token → longEnough bb = true → packet.GrantToken.toHeader bb = some p →
      p.m_tokenReceiver ≠ n.m_txQueue.clientAddress) : granted n (.rxRawPacket bb stack) = false := by
  rw [granted, decide_eq_false_iff_not]
  rintro ⟨type, long, receiver⟩
  obtain ⟨p, header, mine⟩ := Option.map_eq_some_iff.mp receiver
  exact other p type long header mine

theorem not_granted_of_kind {n : PacketTypeCodec} {bb : ByteVec} {cmd : MessageType} (stack : ChannelType × Crc32)
    (type : kind bb = some cmd) (other : cmd ≠ .grant_token) : granted n (.rxRawPacket bb stack) = false := by
  refine not_granted stack ?_
  intro p grant
  exact absurd (Option.some.inj (type.symm.trans grant)) other

theorem answer_of_reaction {n : PacketTypeCodec} {bb : ByteVec} {stack : ChannelType × Crc32} {q : TxQueue}
    {sent : List ByteVec} (reaction : PacketTypeCodec.Reaction n bb stack q sent) :
    Answer n ⟨granted n (.rxRawPacket bb stack), none, sent⟩ q.m_txMsg := by
  cases reaction with
  | granted type header mine =>
    have grant := granted_of_header stack type header mine
    cases waiting : n.m_txQueue.m_txMsg with
    | nil =>
      have empty : n.m_txQueue.txQueueEmpty = true := by rw [TxQueue.txQueueEmpty, waiting]; rfl
      have nothing : n.m_txQueue.sendClientPacketOrReturnToken = (n.m_txQueue, n.m_txQueue.sendReturnToken) := by
        rw [TxQueue.sendClientPacketOrReturnToken, if_pos empty]
      rw [nothing]
      exact .noPacket grant rfl waiting waiting rfl
    | cons msg rest =>
      have full : ¬ n.m_txQueue.txQueueEmpty = true := by rw [TxQueue.txQueueEmpty, waiting]; rintro ⟨⟩
      have next : n.m_txQueue.sendClientPacketOrReturnToken =
          ({ n.m_txQueue with m_txMsg := rest }, [.sendMsg msg]) := by
        rw [TxQueue.sendClientPacketOrReturnToken, if_neg full, TxQueue.sendClientPacket, waiting]
      rw [next]
      exact .packet grant rfl waiting rfl
  | assigned type _ _ =>
    exact .silent (not_granted_of_kind stack type (by rintro ⟨⟩)) (List.append_nil _).symm (by simp)
  | started type =>
    refine .silent (not_granted_of_kind stack type (by rintro ⟨⟩)) ?_ (by simp)
    exact (List.append_nil _).symm
  | asked type _ =>
    refine .silent (not_granted_of_kind stack type (by rintro ⟨⟩)) (List.append_nil _).symm ?_
    intro msg member
    rw [List.mem_singleton.mp member]
    rfl
  | ignored other _ => exact .silent (not_granted stack other) (List.append_nil _).symm (by simp)

namespace Answer

variable {n : PacketTypeCodec} {r : Record} {queue : List ByteVec}

theorem count (answer : Answer n r queue) (data : ∀ msg ∈ n.m_txQueue.m_txMsg, isData msg = true) :
    (r.sent.filter isAnswer).length = if r.granted then 1 else 0 := by
  cases answer with
  | @packet msg granted _ waiting sent =>
    have isMsg : isAnswer msg = true := by
      have first := data msg (waiting ▸ List.mem_cons_self)
      simp [isAnswer, first]
    rw [sent, granted, List.filter_cons_of_pos isMsg]
    rfl
  | noPacket granted _ _ _ sent =>
    rw [sent, granted]
    rfl
  | silent granted _ quiet =>
    have nothing : r.sent.filter isAnswer = [] := by
      rw [List.filter_eq_nil_iff]
      intro msg member
      rw [quiet msg member]
      rintro ⟨⟩
    rw [nothing, granted]
    rfl

/-- Nothing is lost or reordered on the way through the queue. -/
theorem flow (answer : Answer n r queue) (data : ∀ msg ∈ n.m_txQueue.m_txMsg, isData msg = true) :
    n.m_txQueue.m_txMsg ++ r.accepted.toList = r.sent.filter isData ++ queue := by
  cases answer with
  | @packet msg _ accepted waiting sent =>
    have isMsg := data msg (waiting ▸ List.mem_cons_self)
    rw [sent, accepted, waiting, List.filter_cons_of_pos isMsg]
    simp
  | noPacket _ accepted waiting empty sent =>
    rw [sent, accepted, waiting, empty]
    rfl
  | silent _ rest quiet =>
    have nothing : r.sent.filter isData = [] := by
      rw [List.filter_eq_nil_iff]
      intro msg member isMsg
      have other := quiet msg member
      simp [isAnswer, isMsg] at other
    rw [nothing, rest]
    rfl

/-- The token goes back exactly when there is nothing to send. -/
theorem returns (answer : Answer n r queue) (data : ∀ msg ∈ n.m_txQueue.m_txMsg, isData msg = true) :
    (∃ msg ∈ r.sent, kind msg = some .return_token) ↔ r.granted = true ∧ n.m_txQueue.m_txMsg = [] := by
  cases answer with
  | @packet msg granted _ waiting sent =>
    have isMsg := data msg (waiting ▸ List.mem_cons_self)
    rw [sent, waiting]
    constructor
    · rintro ⟨other, member, type⟩
      rw [List.mem_singleton.mp member] at type
      simp [isData, type] at isMsg
    · rintro ⟨_, impossible⟩
      cases impossible
  | noPacket granted _ waiting _ sent =>
    rw [sent]
    exact ⟨fun _ => ⟨granted, waiting⟩, fun _ => ⟨_, List.mem_singleton_self _, rfl⟩⟩
  | silent granted _ quiet =>
    constructor
    · rintro ⟨msg, member, type⟩
      have other := quiet msg member
      simp [isAnswer, type] at other
    · rintro ⟨grant, _⟩
      rw [granted] at grant
      cases grant

theorem queue_data (answer : Answer n r queue) (data : ∀ msg ∈ n.m_txQueue.m_txMsg, isData msg = true)
    (new : ∀ msg ∈ r.accepted, isData msg = true) : ∀ msg ∈ queue, isData msg = true := by
  cases answer with
  | packet _ _ waiting _ => exact fun msg member => data msg (waiting ▸ List.mem_cons_of_mem _ member)
  | noPacket _ _ _ empty _ => exact fun msg member => by rw [empty] at member; cases member
  | silent _ rest _ =>
    intro msg member
    rw [rest, List.mem_append, Option.mem_toList] at member
    rcases member with old | last
    · exact data msg old
    · exact new msg last

end Answer

theorem accepted_isData {n : PacketTypeCodec} {input : Input} : ∀ msg ∈ accepted n input, isData msg = true := by
  intro msg member
  unfold accepted at member
  split at member
  · split at member
    · rw [← Option.some.inj member]
      rfl
    · cases member
  · split at member
    · rw [← Option.some.inj member]
      rfl
    · cases member
  · cases member

/-- No input stops the node, and each has one of the effects above. -/
theorem step_spec {n : PacketTypeCodec} (resting : Resting n) (input : Input) :
    ∃ n' effects, step n input = some (n', effects) ∧ Resting n' ∧
      Answer n (record n input effects) n'.m_txQueue.m_txMsg := by
  have rests : ∀ {n' : PacketTypeCodec} {effects : List Effect}, n'.m_rxMsg = [] → n'.m_master = false →
      Answer n (record n input effects) n'.m_txQueue.m_txMsg → Resting n' := fun delivered alone answer =>
    ⟨delivered, alone, answer.queue_data resting.data accepted_isData⟩
  have quiet : ∀ {q : TxQueue} {effects : List Effect}, granted n input = false →
      q.m_txMsg = n.m_txQueue.m_txMsg ++ (accepted n input).toList → sentBy effects = [] →
      step n input = some ({ n with m_txQueue := q }, effects) →
      ∃ n' effects, step n input = some (n', effects) ∧ Resting n' ∧
        Answer n (record n input effects) n'.m_txQueue.m_txMsg := by
    intro q effects noGrant queue silent run
    have answer : Answer n (record n input effects) q.m_txMsg :=
      .silent noGrant queue (by rw [record, silent]; simp)
    exact ⟨_, effects, run, rests resting.delivered resting.alone answer, answer⟩
  cases input with
  | msgHostTx_sendPacket data destAddr chType =>
    refine quiet rfl ?_ rfl rfl
    unfold TxQueue.msgHostTx_sendPacket accepted
    split
    · rfl
    · exact (List.append_nil _).symm
  | msgHostTx_sendMacUpdate mac =>
    refine quiet rfl ?_ rfl rfl
    unfold TxQueue.msgHostTx_sendMacUpdate accepted
    by_cases valid : n.m_txQueue.m_ownAddress.valid = true
    · simp [valid]
    · simp [valid]
  | rxRawPacket bb stack =>
    obtain ⟨n', effects, run⟩ := PacketTypeCodec.rxRawPacket_total resting.delivered bb stack
    obtain ⟨reaction, _, master, _⟩ := PacketTypeCodec.rxRawPacket_reaction run
    have answer := answer_of_reaction reaction
    have delivered := Station.rxRawPacket_rxMsg resting.delivered run
    exact ⟨n', effects, run, rests delivered (master.trans resting.alone) answer, answer⟩
  | setAddress addr =>
    refine quiet (q := (n.m_txQueue.setAddress addr).1) rfl ?_ (PacketTypeCodec.set_effects _ _).1 rfl
    exact (List.append_nil _).symm
  | masterStarted =>
    refine quiet (q := n.m_txQueue.masterStarted.1) rfl ?_ (PacketTypeCodec.masterStarted_effects _).1 rfl
    exact (List.append_nil _).symm
  | setRxHandler rxIf chType =>
    refine quiet rfl ?_ rfl rfl
    unfold TxQueue.setRxHandler
    split
    · exact (List.append_nil _).symm
    · split
      · exact (List.append_nil _).symm
      · split <;> exact (List.append_nil _).symm

/-! Whole runs -/

theorem dataSent_cons (r : Record) (log : List Record) :
    dataSent (r :: log) = r.sent.filter isData ++ dataSent log := List.flatMap_cons

theorem dataAccepted_cons (r : Record) (log : List Record) :
    dataAccepted (r :: log) = r.accepted.toList ++ dataAccepted log := by
  cases accept : r.accepted with
  | none => exact List.filterMap_cons_none accept
  | some msg => exact List.filterMap_cons_some accept

/-- What waits at the start goes out first, then what is accepted, in that order. -/
theorem run_spec {n : PacketTypeCodec} (resting : Resting n) (inputs : List Input) :
    ∃ n' log, run n inputs = some (n', log) ∧ log.length = inputs.length ∧
      (∀ r ∈ log, (r.sent.filter isAnswer).length = if r.granted then 1 else 0) ∧
      n.m_txQueue.m_txMsg ++ dataAccepted log = dataSent log ++ n'.m_txQueue.m_txMsg ∧
      ∀ before r after, log = before ++ r :: after →
        ((∃ msg ∈ r.sent, kind msg = some .return_token) ↔
          r.granted = true ∧ n.m_txQueue.m_txMsg ++ dataAccepted before = dataSent before) := by
  induction inputs generalizing n with
  | nil =>
    refine ⟨n, [], rfl, rfl, by simp, by simp [dataAccepted, dataSent], ?_⟩
    intro before r after split
    simp at split
  | cons input rest ih =>
    obtain ⟨first, effects, here, resting', answer⟩ := step_spec resting input
    obtain ⟨n', log, later, length, counts, flow, returns⟩ := ih resting'
    have flow₁ := answer.flow resting.data
    refine ⟨n', record n input effects :: log, ?_, ?_, ?_, ?_, ?_⟩
    · simp only [run, here, later, Option.bind_eq_bind, Option.bind_some]
    · rw [List.length_cons, List.length_cons, length]
    · intro r member
      rcases List.mem_cons.mp member with rfl | old
      · exact answer.count resting.data
      · exact counts r old
    · rw [dataAccepted_cons, dataSent_cons, ← List.append_assoc, flow₁, List.append_assoc, flow, List.append_assoc]
    · intro before r after split
      cases before with
      | nil =>
        cases (List.cons.inj split).1
        rw [answer.returns resting.data]
        simp [dataAccepted, dataSent]
      | cons head before =>
        obtain ⟨rfl, tail⟩ := List.cons.inj split
        rw [returns before r after tail, dataAccepted_cons, dataSent_cons, ← List.append_assoc, flow₁,
          List.append_assoc, List.append_cancel_left_eq]

/-- A client answers every token it is granted with exactly one packet, and sends nothing of
the kind otherwise. The data goes out in the order in which it was accepted, and the token
is returned exactly when nothing is pending. -/
theorem tokens_answered (ownAddr : LocalAddress) (addrChangeIf : Bool) (uniqueId : UniqueId)
    (cache : Option AddressCache) (masterEndedIf : Bool) (inputs : List Input) :
    ∃ n log, run (.make (.make ownAddr addrChangeIf) uniqueId cache masterEndedIf) inputs = some (n, log) ∧
      log.length = inputs.length ∧
      (∀ r ∈ log, (r.sent.filter isAnswer).length = if r.granted then 1 else 0) ∧
      dataSent log <+: dataAccepted log ∧
      ∀ before r after, log = before ++ r :: after →
        ((∃ msg ∈ r.sent, kind msg = some .return_token) ↔
          r.granted = true ∧ dataAccepted before = dataSent before) := by
  have resting : Resting (.make (.make ownAddr addrChangeIf) uniqueId cache masterEndedIf) :=
    ⟨rfl, rfl, by rintro msg ⟨⟩⟩
  obtain ⟨n, log, ran, length, counts, flow, returns⟩ := run_spec resting inputs
  exact ⟨n, log, ran, length, counts, ⟨_, flow.symm⟩, returns⟩

end Client

end SerialNet
