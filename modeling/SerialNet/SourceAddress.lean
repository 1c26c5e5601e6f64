import SerialNet.Lib.Reach
import SerialNet.TokenAnswers

namespace SerialNet

/-! The sender named in the data of a node, with or without a master -/

namespace Member

/-- A master on the node can have the waiting packet sent without a packet on the bus. -/
inductive Input
  | client (input : Client.Input)
  | sendClientPacket

def step (n : PacketTypeCodec) : Input → Option (PacketTypeCodec × List Effect)
  | .client input => Client.step n input
  | .sendClientPacket =>
    let sent := n.m_txQueue.sendClientPacket
    some ({ n with m_txQueue := sent.1 }, sent.2)

def Moves (n : PacketTypeCodec) (input : Input) (n' : PacketTypeCodec) : Prop :=
  ∃ effects, step n input = some (n', effects)

def start (ownAddr : LocalAddress) (addrChangeIf : Bool) (uniqueId : UniqueId) (cache : Option AddressCache)
    (masterEndedIf master : Bool) : PacketTypeCodec :=
  { PacketTypeCodec.make (.make ownAddr addrChangeIf) uniqueId cache masterEndedIf with m_master := master }

/-- The address an input gives to the node: an answer to its address request, or none when a
master has started and the address was a dynamic one. -/
def assigns (n : PacketTypeCodec) : Input → Option LocalAddress
  | .client (.rxRawPacket bb _) =>
    if kind bb = some .address_reply then
      ((packet.AddressReply.toHeader bb).filter (·.m_uniqueId = n.m_uniqueId)).map (·.m_assigned)
    else if kind bb = some .master_started ∧ n.m_txQueue.m_ownAddress.m_dynamic then
      some LocalAddress.null_addr
    else
      none
  | .client (.setAddress addr) => some addr
  | .client .masterStarted => if n.m_txQueue.m_ownAddress.m_dynamic then some LocalAddress.null_addr else none
  | _ => none

/-- The address does not change while packets wait for the token. -/
def Steady (n : PacketTypeCodec) (input : Input) : Prop :=
  ∀ addr ∈ assigns n input, n.m_txQueue.m_txMsg = [] ∨ addr = n.m_txQueue.clientAddress

instance (n : PacketTypeCodec) (input : Input) : Decidable (Steady n input) :=
  inferInstanceAs (Decidable (∀ addr ∈ assigns n input, _))

/-- The field `m_hintAddr` of a mac update. -/
def hintAddress (bb : ByteVec) : Option LocalAddress := bb[3]?

/-- A packet with data that names its sender, in both places if it is a mac update. -/
structure Names (msg : ByteVec) (addr : LocalAddress) : Prop where
  data : Client.isData msg = true
  source : sourceAddress msg = some addr
  hint : kind msg = some .mac_update → hintAddress msg = some addr

/-! One input -/

/-- Everything an input does to the address and the waiting packets. -/
inductive Turn (n : PacketTypeCodec) (input : Input) (q : TxQueue) (sent : List ByteVec) : Prop
  | queued {msg} : assigns n input = none → n.m_txQueue.clientAddress ≠ LocalAddress.null_addr →
      Names msg n.m_txQueue.clientAddress → q.clientAddress = n.m_txQueue.clientAddress →
      q.m_txMsg = n.m_txQueue.m_txMsg ++ [msg] → sent = [] → Turn n input q sent
  | sent {msg} : assigns n input = none → q.clientAddress = n.m_txQueue.clientAddress →
      n.m_txQueue.m_txMsg = msg :: q.m_txMsg → sent = [msg] → Turn n input q sent
  | addressed {addr} : assigns n input = some addr → q.clientAddress = addr →
      q.m_txMsg = n.m_txQueue.m_txMsg → sent = [] → Turn n input q sent
  | unchanged : assigns n input = none → q.clientAddress = n.m_txQueue.clientAddress →
      q.m_txMsg = n.m_txQueue.m_txMsg → (∀ msg ∈ sent, Client.isData msg = false) → Turn n input q sent

theorem assigns_of_kind {n : PacketTypeCodec} {bb : ByteVec} {stack : ChannelType × Crc32}
    (noReply : kind bb ≠ some .address_reply) (noStart : kind bb ≠ some .master_started) :
    assigns n (.client (.rxRawPacket bb stack)) = none := by
  simp [assigns, noReply, noStart]

theorem Turn.of_sendClientPacket {n : PacketTypeCodec} {input : Input} (noAddress : assigns n input = none) :
    Turn n input n.m_txQueue.sendClientPacket.1 (sentBy n.m_txQueue.sendClientPacket.2) := by
  unfold TxQueue.sendClientPacket
  split
  · exact .unchanged noAddress rfl rfl (by simp)
  · rename_i msg rest waiting
    exact .sent noAddress rfl waiting rfl

/-- The answer of a node to a master that starts. -/
theorem Turn.of_masterStarted {n : PacketTypeCodec} {input : Input}
    (assigned : assigns n input = if n.m_txQueue.m_ownAddress.m_dynamic then some LocalAddress.null_addr else none) :
    Turn n input n.m_txQueue.masterStarted.1 [] := by
  by_cases dynamic : n.m_txQueue.m_ownAddress.m_dynamic = true
  · rw [if_pos dynamic] at assigned
    refine .addressed assigned ?_ rfl rfl
    simp [TxQueue.masterStarted, TxQueue.clientAddress, OwnAddress.masterStarted, OwnAddress.set, dynamic]
  · rw [if_neg dynamic] at assigned
    refine .unchanged assigned ?_ rfl (by simp)
    simp [TxQueue.masterStarted, TxQueue.clientAddress, OwnAddress.masterStarted, dynamic]

theorem longEnough_of_reply {bb : ByteVec} {p : packet.AddressReply} (type : kind bb = some .address_reply)
    (header : packet.AddressReply.toHeader bb = some p) : longEnough bb = true := by
  rw [PacketTypeCodec.longEnough_iff type]
  obtain ⟨assigned, _, rest⟩ := Option.bind_eq_some_iff.mp header
  obtain ⟨id, atId, _⟩ := Option.bind_eq_some_iff.mp rest
  unfold slice at atId
  split at atId
  · rename_i inside
    rw [List.length_take, List.length_drop] at inside
    change 10 ≤ bb.length
    omega
  · cases atId

theorem Turn.of_rxRawPacket {n n' : PacketTypeCodec} {bb : ByteVec} {stack : ChannelType × Crc32}
    {effects : List Effect} (run : n.rxRawPacket bb stack = some (n', effects)) :
    Turn n (.client (.rxRawPacket bb stack)) n'.m_txQueue (sentBy effects) := by
  by_cases start : kind bb = some .master_started
  · obtain ⟨queue, sent⟩ := PacketTypeCodec.rxRawPacket_started start run
    rw [queue, sent]
    refine .of_masterStarted ?_
    simp [assigns, start]
  · have noAddress : kind bb ≠ some .address_reply → assigns n (.client (.rxRawPacket bb stack)) = none :=
      fun noReply => assigns_of_kind noReply start
    have reaction := (PacketTypeCodec.rxRawPacket_reaction run).1
    generalize n'.m_txQueue = q, sentBy effects = sent at reaction
    cases reaction with
    | granted type _ _ =>
      have none := noAddress (by rw [type]; rintro ⟨⟩)
      unfold TxQueue.sendClientPacketOrReturnToken
      split
      · refine .unchanged none rfl rfl ?_
        intro msg member
        rw [List.mem_singleton.mp member]
        rfl
      · exact .of_sendClientPacket none
    | assigned type header mine =>
      refine .addressed ?_ rfl rfl rfl
      simp only [assigns, type, header, if_true, Option.filter_some, mine, decide_true, Option.map_some]
      rfl
    | started type => exact absurd type start
    | asked type _ =>
      refine .unchanged (noAddress (by rw [type]; rintro ⟨⟩)) rfl rfl ?_
      intro msg member
      rw [List.mem_singleton.mp member]
      rfl
    | ignored _ noReply =>
      refine .unchanged ?_ rfl rfl (by simp)
      by_cases reply : kind bb = some .address_reply
      · simp only [assigns, reply, if_true, Option.map_eq_none_iff, Option.filter_eq_none_iff]
        intro p header mine
        exact noReply p reply (longEnough_of_reply reply header) header (of_decide_eq_true mine)
      · exact noAddress reply

/-- One step: where the packets come from and where they go. -/
theorem step_cases {n n' : PacketTypeCodec} {input : Input} {effects : List Effect} (empty : n.m_rxMsg = [])
    (taken : step n input = some (n', effects)) :
    n'.m_rxMsg = [] ∧ Turn n input n'.m_txQueue (sentBy effects) := by
  cases input with
  | sendClientPacket =>
    cases Option.some.inj taken
    exact ⟨empty, .of_sendClientPacket rfl⟩
  | client input =>
    cases input with
    | msgHostTx_sendPacket data destAddr chType =>
      cases Option.some.inj taken
      refine ⟨empty, ?_⟩
      unfold TxQueue.msgHostTx_sendPacket
      split
      · rename_i valid
        exact .queued rfl (of_decide_eq_true valid) ⟨rfl, rfl, by rintro ⟨⟩⟩ rfl rfl rfl
      · exact .unchanged rfl rfl rfl (by simp)
    | msgHostTx_sendMacUpdate mac =>
      cases Option.some.inj taken
      refine ⟨empty, ?_⟩
      unfold TxQueue.msgHostTx_sendMacUpdate
      split
      · exact .unchanged rfl rfl rfl (by simp)
      · rename_i valid
        exact .queued rfl (of_decide_eq_true (not_not.mp valid)) ⟨rfl, rfl, fun _ => rfl⟩ rfl rfl rfl
    | rxRawPacket bb stack =>
      exact ⟨Station.rxRawPacket_rxMsg empty taken, .of_rxRawPacket taken⟩
    | setAddress addr =>
      cases Option.some.inj taken
      exact ⟨empty, .addressed rfl rfl rfl (PacketTypeCodec.set_effects n.m_txQueue.m_ownAddress addr).1⟩
    | masterStarted =>
      cases Option.some.inj taken
      refine ⟨empty, ?_⟩
      rw [show sentBy n.m_txQueue.masterStarted.2 = [] from
        (PacketTypeCodec.masterStarted_effects n.m_txQueue.m_ownAddress).1]
      exact .of_masterStarted rfl
    | setRxHandler rxIf chType =>
      cases Option.some.inj taken
      refine ⟨empty, ?_⟩
      unfold TxQueue.setRxHandler
      repeat' split
      all_goals exact .unchanged rfl rfl rfl (by simp)

/-! Whole runs -/

/-- The packets that wait name the address of the node. -/
structure Stamped (n : PacketTypeCodec) : Prop where
  delivered : n.m_rxMsg = []
  named : ∀ msg ∈ n.m_txQueue.m_txMsg, Names msg n.m_txQueue.clientAddress
  valid : n.m_txQueue.m_txMsg ≠ [] → n.m_txQueue.clientAddress ≠ LocalAddress.null_addr

theorem Stamped.step {n n' : PacketTypeCodec} {input : Input} {effects : List Effect} (stamped : Stamped n)
    (steady : Steady n input) (taken : step n input = some (n', effects)) : Stamped n' := by
  obtain ⟨delivered, turn⟩ := step_cases stamped.delivered taken
  cases turn with
  | queued _ valid names address queue _ =>
    refine ⟨delivered, ?_, fun _ => address ▸ valid⟩
    intro msg member
    rw [queue, List.mem_append, List.mem_singleton] at member
    rw [address]
    rcases member with old | rfl
    · exact stamped.named msg old
    · exact names
  | sent _ address queue _ =>
    refine ⟨delivered, ?_, ?_⟩
    · intro msg member
      rw [address]
      exact stamped.named msg (queue ▸ List.mem_cons_of_mem _ member)
    · rw [address]
      exact fun _ => stamped.valid (by rw [queue]; exact List.cons_ne_nil _ _)
  | addressed assigned address queue _ =>
    rcases steady _ assigned with none | same
    · refine ⟨delivered, ?_, fun some => absurd (queue.trans none) some⟩
      intro msg member
      rw [queue, none] at member
      cases member
    · refine ⟨delivered, ?_, ?_⟩
      · rw [queue, address, same]
        exact stamped.named
      · rw [queue, address, same]
        exact stamped.valid
  | unchanged _ address queue _ =>
    refine ⟨delivered, ?_, ?_⟩
    · rw [queue, address]
      exact stamped.named
    · rw [queue, address]
      exact stamped.valid

/-- Data that is sent was waiting, and the step that sends it leaves the address alone. -/
theorem Stamped.sent {n n' : PacketTypeCodec} {input : Input} {effects : List Effect} (stamped : Stamped n)
    (taken : Member.step n input = some (n', effects)) {msg : ByteVec} (member : msg ∈ sentBy effects)
    (data : Client.isData msg = true) :
    Names msg n.m_txQueue.clientAddress ∧ n.m_txQueue.clientAddress ≠ LocalAddress.null_addr ∧
      n'.m_txQueue.clientAddress = n.m_txQueue.clientAddress := by
  obtain ⟨_, turn⟩ := step_cases stamped.delivered taken
  cases turn with
  | queued _ _ _ _ _ sent =>
    rw [sent] at member
    cases member
  | sent _ address queue sent =>
    rw [sent, List.mem_singleton] at member
    have waiting : msg ∈ n.m_txQueue.m_txMsg := by rw [queue, member]; exact List.mem_cons_self
    exact ⟨stamped.named msg waiting, stamped.valid (List.ne_nil_of_mem waiting), address⟩
  | addressed _ _ _ sent =>
    rw [sent] at member
    cases member
  | unchanged _ _ _ other =>
    rw [other msg member] at data
    cases data

/-- After a change of address the waiting packets name the old one, and the next token takes
the first of them to the bus. -/
theorem Stamped.stale {n n' : PacketTypeCodec} {input : Input} {effects : List Effect} (stamped : Stamped n)
    (taken : Member.step n input = some (n', effects)) (change : ¬ Steady n input) (stack : ChannelType × Crc32) :
    ∃ n'' later msg,
      Member.step n' (.client (.rxRawPacket (packet.GrantToken.fromHeader ⟨n'.m_txQueue.clientAddress⟩) stack)) =
        some (n'', later) ∧
      msg ∈ sentBy later ∧ Client.isData msg = true ∧ sourceAddress msg ≠ some n'.m_txQueue.clientAddress := by
  obtain ⟨delivered, turn⟩ := step_cases stamped.delivered taken
  unfold Steady at change
  push Not at change
  obtain ⟨addr, assigned, waiting, other⟩ := change
  have moved : n'.m_txQueue.clientAddress = addr ∧ n'.m_txQueue.m_txMsg = n.m_txQueue.m_txMsg := by
    cases turn with
    | addressed assigned' address queue _ =>
      cases Option.some.inj (assigned'.symm.trans assigned)
      exact ⟨address, queue⟩
    | queued none _ _ _ _ _ => exact absurd (none.symm.trans assigned) (by rintro ⟨⟩)
    | sent none _ _ _ => exact absurd (none.symm.trans assigned) (by rintro ⟨⟩)
    | unchanged none _ _ _ => exact absurd (none.symm.trans assigned) (by rintro ⟨⟩)
  obtain ⟨n'', later, run⟩ := PacketTypeCodec.rxRawPacket_total delivered
    (packet.GrantToken.fromHeader ⟨n'.m_txQueue.clientAddress⟩) stack
  have granted := Client.granted_of_header (n := n') (p := ⟨n'.m_txQueue.clientAddress⟩) stack rfl
    (packet.GrantToken.toHeader_fromHeader _) rfl
  have answer := Client.answer_of_reaction (PacketTypeCodec.rxRawPacket_reaction run).1
  cases answer with
  | @packet msg _ _ queue sent =>
    have names := stamped.named msg (moved.2 ▸ queue ▸ List.mem_cons_self)
    refine ⟨n'', later, msg, run, ?_, names.data, ?_⟩
    · rw [show sentBy later = [msg] from sent]
      exact List.mem_singleton_self _
    · rw [names.source, moved.1]
      intro same
      exact other (Option.some.inj same).symm
  | noPacket _ _ none _ _ => exact absurd (moved.2 ▸ none) waiting
  | silent noGrant _ _ => exact absurd (granted.symm.trans noGrant) (by rintro ⟨⟩)

/-- As long as no input changes the address while packets wait, all data on the bus names
the address its sender has at that moment. An input that does make such a change can be
followed by a token that has a packet with another sender sent. -/
theorem source_current {ownAddr : LocalAddress} {addrChangeIf : Bool} {uniqueId : UniqueId}
    {cache : Option AddressCache} {masterEndedIf master : Bool} {n n' : PacketTypeCodec} {input : Input}
    {effects : List Effect}
    (reach : LabelledReach Moves Steady (start ownAddr addrChangeIf uniqueId cache masterEndedIf master) n)
    (taken : step n input = some (n', effects)) :
    (∀ msg ∈ sentBy effects, Client.isData msg = true → Names msg n.m_txQueue.clientAddress ∧
      n.m_txQueue.clientAddress ≠ LocalAddress.null_addr ∧
      n'.m_txQueue.clientAddress = n.m_txQueue.clientAddress) ∧
    (¬ Steady n input → ∀ stack, ∃ n'' later msg,
      step n' (.client (.rxRawPacket (packet.GrantToken.fromHeader ⟨n'.m_txQueue.clientAddress⟩) stack)) =
        some (n'', later) ∧
      msg ∈ sentBy later ∧ Client.isData msg = true ∧ sourceAddress msg ≠ some n'.m_txQueue.clientAddress) := by
  have stamped : Stamped n := reach.invariant
    ⟨rfl, by rintro msg ⟨⟩, by intro some; exact absurd rfl some⟩
    (fun before steady move => by
      obtain ⟨_, taken⟩ := move
      exact before.step steady taken)
  exact ⟨fun msg member data => stamped.sent taken member data, stamped.stale taken⟩

/-! Two runs -/

def sampleId : UniqueId := ⟨[1, 2, 3, 4, 5, 6, 7, 8], rfl⟩

def samplePacket (bb : ByteVec) : Input := .client (.rxRawPacket bb (.raw_stream, ⟨[4, 3, 2, 1], rfl⟩))

/-- A node without an address is given 33, and the host has a packet to send. -/
def sampleScript : List Input :=
  [samplePacket (packet.AddressReply.fromHeader ⟨33, sampleId⟩),
    .client (.msgHostTx_sendPacket [42] 5 .raw_stream)]

def sampleStart : PacketTypeCodec := start LocalAddress.null_addr false sampleId none false false

def exec (n : PacketTypeCodec) (input : Input) : Option PacketTypeCodec := (step n input).map (·.1)

theorem exec_moves {n n' : PacketTypeCodec} {input : Input} (taken : exec n input = some n') : Moves n input n' := by
  obtain ⟨⟨_, effects⟩, run, same⟩ := Option.map_eq_some_iff.mp taken
  cases same
  exact ⟨effects, run⟩

/-- With the token the packet goes out, and names 33. -/
theorem source_current_assigned :
    ∃ n n' effects, LabelledReach Moves Steady sampleStart n ∧
      step n (samplePacket (packet.GrantToken.fromHeader ⟨33⟩)) = some (n', effects) ∧
      Names (packet.SendPacket.fromHeader ⟨.raw_stream, 5, 33⟩ ++ [42]) n.m_txQueue.clientAddress := by
  obtain ⟨n, reach, shown⟩ := LabelledReach.exists_of_script exec Steady id exec_moves sampleStart sampleScript
    (fun n => ((step n (samplePacket (packet.GrantToken.fromHeader ⟨33⟩))).any
      fun sent => sentBy sent.2 = [packet.SendPacket.fromHeader ⟨.raw_stream, 5, 33⟩ ++ [42]])) (by decide +kernel)
  obtain ⟨⟨n', effects⟩, taken, sent⟩ := (Option.any_eq_true _ _).mp shown
  have member : packet.SendPacket.fromHeader ⟨.raw_stream, 5, 33⟩ ++ [42] ∈ sentBy effects := by
    rw [of_decide_eq_true sent]
    exact List.mem_singleton_self _
  exact ⟨n, n', effects, reach, taken, ((source_current reach taken).1 _ member rfl).1⟩

/-- The master starts again and gives out 34 before the token comes: the packet still names
33. -/
theorem staleSource_sent :
    ∃ n n' effects msg, LabelledReach Moves (fun _ _ => True) sampleStart n ∧
      step n (samplePacket (packet.GrantToken.fromHeader ⟨34⟩)) = some (n', effects) ∧ msg ∈ sentBy effects ∧
      Client.isData msg = true ∧ sourceAddress msg = some 33 ∧ n.m_txQueue.clientAddress = 34 := by
  obtain ⟨n, reach, shown⟩ := LabelledReach.exists_of_script exec (fun _ _ => True) id exec_moves sampleStart
    (sampleScript ++ [samplePacket [messageType2Byte .master_started],
      samplePacket (packet.AddressReply.fromHeader ⟨34, sampleId⟩)])
    (fun n => n.m_txQueue.clientAddress = 34 ∧
      ((step n (samplePacket (packet.GrantToken.fromHeader ⟨34⟩))).any
        fun sent => sentBy sent.2 = [packet.SendPacket.fromHeader ⟨.raw_stream, 5, 33⟩ ++ [42]]) = true)
    (by decide +kernel)
  obtain ⟨address, shown⟩ := of_decide_eq_true shown
  obtain ⟨⟨n', effects⟩, taken, sent⟩ := (Option.any_eq_true _ _).mp shown
  refine ⟨n, n', effects, packet.SendPacket.fromHeader ⟨.raw_stream, 5, 33⟩ ++ [42], reach, taken, ?_, rfl, rfl,
    address⟩
  rw [of_decide_eq_true sent]
  exact List.mem_singleton_self _

end Member

end SerialNet
