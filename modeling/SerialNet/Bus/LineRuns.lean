import SerialNet.Bus.SerialLine
import SerialNet.Bus.Results

namespace SerialNet

open PacketTypeCodec Master

/-! What is sent fits a frame -/

theorem sized_grantToken (p : packet.GrantToken) : Sized p.fromHeader := by
  simp [Sized, packet.GrantToken.fromHeader]

theorem sized_returnToken (p : packet.ReturnToken) : Sized p.fromHeader := by
  simp [Sized, packet.ReturnToken.fromHeader]

theorem sized_addressRequest (r : packet.AddressRequest) : Sized r.fromHeader := by
  have id := r.m_uniqueId.2
  have crc := r.m_crc32.2
  simp [Sized, packet.AddressRequest.fromHeader, id, crc]

theorem sized_reply (d : LocalAddress) (u : UniqueId) : Sized (Bus.reply d u) := by
  have id := u.2
  simp [Sized, Bus.reply, packet.AddressReply.fromHeader, id]

theorem sized_bytes {s : Sent} (fits : SerialLine.Fits s.submission) : Sized s.bytes := by
  obtain ⟨src, submission⟩ := s
  cases submission with
  | sendPacket data destAddr chType =>
    have bound : data.length ≤ 16379 := fits
    simp only [Sized, Sent.bytes, packet.SendPacket.fromHeader, List.length_append, List.length_cons,
      List.length_nil]
    omega
  | sendMacUpdate mac =>
    have length := mac.2
    simp [Sized, Sent.bytes, packet.MacUpdate.fromHeader, length]

namespace PacketTypeCodec

/-- The packets that wait at a node fit a frame each. -/
def SizedQueue (n : PacketTypeCodec) : Prop := ∀ msg ∈ n.m_txQueue.m_txMsg, Sized msg

variable {n : PacketTypeCodec}

theorem SizedQueue.answer (sized : SizedQueue n) {x : ByteVec}
    (member : x ∈ sentBy n.m_txQueue.sendClientPacketOrReturnToken.2) : Sized x := by
  unfold TxQueue.sendClientPacketOrReturnToken TxQueue.sendClientPacket at member
  split at member
  · rw [List.mem_singleton.mp member]
    exact sized_returnToken _
  · split at member
    · cases member
    · rename_i msg rest queue
      rw [List.mem_singleton.mp member]
      exact sized msg (queue ▸ List.mem_cons_self)

theorem SizedQueue.submit (sized : SizedQueue n) {s : Submission} (fits : SerialLine.Fits s) :
    SizedQueue { n with m_txQueue := s.submit n.m_txQueue } := by
  intro msg member
  rw [Submission.submit_queue] at member
  rcases List.mem_append.mp member with old | new
  · exact sized msg old
  · obtain ⟨sent, accepted, rfl⟩ := List.mem_map.mp new
    unfold Submission.accepted at accepted
    split at accepted
    · rw [List.mem_singleton.mp accepted]
      exact sized_bytes fits
    · cases accepted

theorem Hears.sized {bb : ByteVec} {n' : PacketTypeCodec} {sent : List ByteVec} (hears : Hears bb n n' sent)
    (sized : SizedQueue n) : SizedQueue n' ∧ ∀ x ∈ sent, Sized x := by
  refine ⟨fun msg member => sized msg (hears.queue msg member), ?_⟩
  intro x member
  obtain ⟨⟨stack, q, _, reaction⟩, _⟩ := hears.reaction
  cases reaction with
  | granted => exact sized.answer member
  | assigned => cases member
  | started => cases member
  | asked =>
    rw [List.mem_singleton.mp member]
    exact sized_addressRequest _
  | ignored => cases member

end PacketTypeCodec

namespace Master

variable {m m' : Master}

theorem sized_turn {rxInProgress : Bool} {ev : Event} (taken : TurnCase m rxInProgress ev m')
    (sized : SizedQueue m.m_node) {x : ByteVec} (sent : x ∈ sentBy m'.m_out) : Sized x := by
  cases taken with
  | ignored _ => cases sent
  | rearmed _ => cases sent
  | ownIdle _ _ _ _ =>
    rw [conclude_out] at sent
    cases sent
  | ownSends _ _ _ packets =>
    cases waiting : m.m_node.m_txQueue.m_txMsg with
    | nil =>
      rw [TxQueue.txQueueEmpty, waiting] at packets
      cases packets
    | cons msg rest =>
      have same : x = msg := by
        simpa [sendClientPacket, TxQueue.sendClientPacket, waiting, entrySends] using sent
      rw [same]
      exact sized msg (waiting ▸ List.mem_cons_self)
  | grants _ _ _ =>
    have same : x = packet.GrantToken.fromHeader ⟨m.m_fsm.m_currentAction.m_address⟩ := by
      simpa [entrySends] using sent
    rw [same]
    exact sized_grantToken _
  | queries _ _ =>
    have same : x = packet.AddressDiscovery.fromHeader ⟨0, 0⟩ := by simpa [entrySends] using sent
    rw [same]
    exact ⟨by decide, by decide⟩
  | starts _ _ =>
    have same : x = packet.masterStarted := by simpa [entrySends] using sent
    rw [same]
    exact ⟨by decide, by decide⟩
  | grantSeen _ => simp [entrySends] at sent
  | grantLost _ => simp [entrySends] at sent
  | @requested aReq _ =>
    rcases Bus.receivedAddressRequest_out m.consume aReq with none | ⟨d, one⟩
    · simp [none, entrySends] at sent
    · have same : x = Bus.reply d aReq.m_uniqueId := by simpa [one, entrySends] using sent
      rw [same]
      exact sized_reply _ _
  | reported _ _ => simp [entrySends] at sent

/-- Nothing but a packet makes the node of the master send anything at once. -/
theorem sized_stimulus {now : ℚ} {s : Stimulus} (local_ : Bus.Local (.stimulus now s))
    (taken : StimulusCase m now s m') (sized : SizedQueue m.m_node)
    (fits : ∀ submission, Submission.ofLabel (.stimulus now s) = some submission → SerialLine.Fits submission) :
    SizedQueue m'.m_node ∧ sentBy m'.m_out = [] := by
  cases taken with
  | packet _ => cases local_
  | sendPacket => exact ⟨sized.submit (s := .sendPacket _ _ _) (fits _ rfl), rfl⟩
  | sendMacUpdate => exact ⟨sized.submit (s := .sendMacUpdate _) (fits _ rfl), rfl⟩
  | delayIdle _ =>
    rw [startNext_node, startNext_out]
    exact ⟨sized, rfl⟩
  | _ => exact ⟨sized, rfl⟩

theorem sized_step {l : Label} (synced : Synced m) (sized : SizedQueue m.m_node)
    (fits : ∀ submission, Submission.ofLabel l = some submission → SerialLine.Fits submission) (step : m.Step l m') :
    Synced m' ∧ SizedQueue m'.m_node ∧ ∀ x ∈ sentBy m'.m_out, Sized x := by
  rcases synced.step_cases step with ⟨_, _, rfl, queue, taken⟩ | ⟨now, s, rfl, queue, _, _, taken⟩
  · exact ⟨synced.turn queue taken, fun msg member => sized msg (Bus.queue_turn taken msg member),
      fun x sent => sized_turn taken sized sent⟩
  · refine ⟨synced.stimulus queue taken, ?_⟩
    by_cases local_ : Bus.Local (.stimulus now s)
    · obtain ⟨sized', silent⟩ := sized_stimulus local_ taken sized fits
      rw [silent]
      exact ⟨sized', by rintro _ ⟨⟩⟩
    · cases taken with
      | @packet bb stack node effects run =>
        have hears : Hears bb m.m_node node (sentBy effects) := ⟨stack, effects, run, rfl⟩
        dsimp only
        rw [sentBy_outward]
        exact hears.sized sized
      | _ => exact absurd trivial local_

end Master

/-! What is on the line, counted -/

namespace SerialLine

theorem coming_eq {ports : List Port} {i : Nat} {p : Port} (here : ports[i]? = some p) : coming ports i = p.coming := by
  rw [coming, here]
  rfl

/-- One port changes. -/
theorem coming_set {ports : List Port} {i : Nat} {p p' : Port} (here : ports[i]? = some p) (j : Nat) :
    coming (ports.set i p') j = if j = i then p'.coming else coming ports j := by
  obtain ⟨inside, _⟩ := List.getElem?_eq_some_iff.mp here
  by_cases same : j = i
  · rw [if_pos same, same]
    exact coming_eq (List.getElem?_set_self inside)
  · rw [if_neg same, coming, coming, List.getElem?_set_ne (Ne.symm same)]

/-- What has been sent comes to every node, apart from what is damaged. -/
theorem Carried.exists_lost {sent : List ByteVec} {ports ports' : List Port} (carried : Carried sent ports ports')
    (sync : ∀ p ∈ ports, p.InSync) (sized : ∀ msg ∈ sent, Sized msg) :
    (∀ p ∈ ports', p.InSync) ∧ ∃ lost : List (Nat × ByteVec), ∀ i bb,
      (coming ports' i).count bb + lost.count (i, bb) =
        (coming ports i).count bb + if i < ports.length then sent.count bb else 0 := by
  induction carried with
  | nil => exact ⟨by rintro _ ⟨⟩, [], fun _ _ => rfl⟩
  | @cons p p' ports ports' first _ ih =>
    obtain ⟨bytes, got, arrives, rfl⟩ := first
    obtain ⟨sync', coming'⟩ := Port.put_arrives (sync p List.mem_cons_self) arrives sized
    obtain ⟨missing, here⟩ := arrives.exists_lost
    obtain ⟨later, lost, there⟩ := ih fun q member => sync q (List.mem_cons_of_mem _ member)
    refine ⟨?_, missing.map (0, ·) ++ lost.map (Prod.map Nat.succ id), ?_⟩
    · intro q member
      rcases List.mem_cons.mp member with rfl | old
      · exact sync'
      · exact later q old
    · intro i bb
      have placed : Function.Injective (Prod.mk 0 : ByteVec → Nat × ByteVec) := Prod.mk_right_injective 0
      have shifted : Function.Injective (Prod.map Nat.succ id : Nat × ByteVec → Nat × ByteVec) :=
        Prod.map_injective.mpr ⟨Nat.succ_injective, Function.injective_id⟩
      rw [List.count_append]
      cases i with
      | zero =>
        have elsewhere : (lost.map (Prod.map Nat.succ id)).count (0, bb) = 0 := by
          refine List.count_eq_zero_of_not_mem ?_
          simp
        have own := List.count_map_of_injective missing _ placed bb
        have all := here bb
        rw [coming_eq (p := p.put bytes) rfl, coming_eq (p := p) rfl, coming', List.count_append, elsewhere, own,
          if_pos (show 0 < (p :: ports).length from Nat.zero_lt_succ _)]
        omega
      | succ i =>
        have elsewhere : (missing.map (Prod.mk 0)).count (i + 1, bb) = 0 := by
          refine List.count_eq_zero_of_not_mem ?_
          simp
        have own := List.count_map_of_injective lost _ shifted (i, bb)
        have all := there i bb
        rw [elsewhere, show ((i + 1, bb) : Nat × ByteVec) = Prod.map Nat.succ id (i, bb) from rfl, own]
        simp only [List.length_cons, Nat.add_lt_add_iff_right]
        change (coming ports' i).count bb + _ = (coming ports i).count bb + _
        omega

theorem count_broadcast (receivers : Nat) (sent : List ByteVec) (i : Nat) (bb : ByteVec) :
    (LossyBus.broadcast receivers sent).count (i, bb) = if i < receivers then sent.count bb else 0 := by
  induction sent with
  | nil => exact (ite_self 0).symm
  | cons msg rest ih =>
    have copies : ((List.range receivers).map (·, msg)).count (i, bb) =
        if i < receivers ∧ msg = bb then 1 else 0 := by
      by_cases same : msg = bb
      · have own := List.count_map_of_injective (List.range receivers) _ (Prod.mk_left_injective bb) i
        rw [same, own]
        by_cases inside : i < receivers
        · rw [if_pos ⟨inside, rfl⟩]
          exact List.count_eq_one_of_mem List.nodup_range (List.mem_range.mpr inside)
        · rw [if_neg fun both => inside both.1]
          exact List.count_eq_zero_of_not_mem fun member => inside (List.mem_range.mp member)
      · rw [if_neg fun both => same both.2]
        refine List.count_eq_zero_of_not_mem fun member => ?_
        obtain ⟨_, _, equal⟩ := List.mem_map.mp member
        exact same (Prod.mk.inj equal).2
    rw [LossyBus.broadcast, List.flatMap_cons, List.count_append, copies]
    rw [LossyBus.broadcast] at ih
    rw [ih, List.count_cons]
    by_cases inside : i < receivers <;> by_cases same : msg = bb <;> simp [inside, same, Nat.add_comm]

/-- A condition on the steps of a bus that is about those of the master only. -/
def OnMaster (allowed : LossyBus → LossyBus.Move → Prop) : Prop :=
  ∀ b move, (∀ l, move ≠ .master l) → allowed b move

theorem onMaster_careful : OnMaster LossyBus.Careful := by
  intro b move other
  cases move with
  | master l => exact absurd rfl (other l)
  | _ => trivial

variable {allowed : LossyBus → LossyBus.Move → Prop}

/-- Copies are lost one after the other. -/
theorem exists_lose (free : OnMaster allowed) (lost : List (Nat × ByteVec)) (b : LossyBus)
    (enough : ∀ c, lost.count c ≤ b.m_copies.count c) :
    ∃ copies, LabelledReach LossyBus.Step allowed b { b with m_copies := copies } ∧
      ∀ c, copies.count c + lost.count c = b.m_copies.count c := by
  induction lost generalizing b with
  | nil => exact ⟨b.m_copies, .start, fun _ => rfl⟩
  | cons first rest ih =>
    obtain ⟨i, bb⟩ := first
    have some_ := enough (i, bb)
    rw [List.count_cons_self] at some_
    have present : (i, bb) ∈ b.m_copies := List.count_pos_iff.mp (by omega)
    have fewer : ∀ c, rest.count c ≤ (b.m_copies.erase (i, bb)).count c := by
      intro c
      have whole := enough c
      by_cases same : (i, bb) = c
      · rw [← same, List.count_cons_self] at whole
        rw [← same, List.count_erase_self]
        omega
      · rw [List.count_cons_of_ne same] at whole
        rw [List.count_erase_of_ne (Ne.symm same)]
        exact whole
    obtain ⟨copies, run, all⟩ := ih { b with m_copies := b.m_copies.erase (i, bb) } fewer
    have lose : LossyBus.Step b (.lose i bb) { b with m_copies := b.m_copies.erase (i, bb) } := .lose present
    have careful : allowed b (.lose i bb) := free _ _ (by rintro _ ⟨⟩)
    refine ⟨copies, (LabelledReach.next .start careful lose).trans run, ?_⟩
    intro c
    have later := all c
    by_cases same : (i, bb) = c
    · rw [← same, List.count_erase_self] at later
      rw [← same, List.count_cons_self]
      omega
    · rw [List.count_erase_of_ne (Ne.symm same)] at later
      rw [List.count_cons_of_ne same]
      exact later

/-! The packets of the line are those of a bus that loses some -/

/-- What every step keeps up, and what is behind the copies of the packets. -/
structure Mirrors (s : SerialLine) (b : LossyBus) : Prop where
  master : b.m_master = s.m_master
  clients : b.m_clients = s.m_clients
  copies : ∀ i bb, b.m_copies.count (i, bb) = (coming s.m_ports i).count bb
  places : s.m_ports.length = s.nodes.length
  sync : ∀ p ∈ s.m_ports, p.InSync
  sized : ∀ n ∈ s.nodes, SizedQueue n
  synced : Synced s.m_master

namespace Mirrors

variable {allowed : LossyBus → LossyBus.Move → Prop} {s s' : SerialLine} {b : LossyBus}

theorem nodes (mirrors : Mirrors s b) : b.nodes = s.nodes := by
  rw [LossyBus.nodes, mirrors.master, mirrors.clients, SerialLine.nodes]

/-- Packets have been sent on both sides, and some of their frames are damaged. -/
theorem carry (free : OnMaster allowed) {ports ports' : List Port} {sent : List ByteVec}
    (carried : Carried sent ports ports')
    (sync : ∀ p ∈ ports, p.InSync) (sized : ∀ msg ∈ sent, Sized msg)
    (copies : ∀ i bb, b.m_copies.count (i, bb) =
      (coming ports i).count bb + if i < ports.length then sent.count bb else 0) :
    (∀ p ∈ ports', p.InSync) ∧ ∃ left, LabelledReach LossyBus.Step allowed b { b with m_copies := left } ∧
      ∀ i bb, left.count (i, bb) = (coming ports' i).count bb := by
  obtain ⟨sync', lost, all⟩ := carried.exists_lost sync sized
  have enough : ∀ c, lost.count c ≤ b.m_copies.count c := by
    rintro ⟨i, bb⟩
    have same := copies i bb
    have whole := all i bb
    omega
  obtain ⟨left, run, rest⟩ := exists_lose free lost b enough
  refine ⟨sync', left, run, ?_⟩
  intro i bb
  have same := copies i bb
  have whole := all i bb
  have fewer := rest (i, bb)
  omega

/-- The conditions on the master's steps are the same on both sides. -/
theorem careful (mirrors : Mirrors s b) {move : Move} (careful : s.Careful move) :
    ∀ l, move = .master l → b.Careful (.master l) := by
  intro l own
  obtain ⟨seen, kept⟩ := careful.2 l own
  rw [LossyBus.Careful, mirrors.master]
  refine ⟨seen, ?_⟩
  intro line givesUp
  rintro ⟨i, n, here, dynamic, id, holds⟩
  refine kept line givesUp ⟨i, n, mirrors.nodes ▸ here, dynamic, id, holds.imp_right ?_⟩
  intro copy
  have some_ := List.count_pos_iff.mpr copy
  rw [mirrors.copies] at some_
  exact List.count_pos_iff.mp some_

theorem inSync_set {ports : List Port} (sync : ∀ p ∈ ports, p.InSync) {i : Nat} {p' : Port} (sync' : p'.InSync) :
    ∀ p ∈ ports.set i p', p.InSync := by
  intro p member
  rcases List.mem_or_eq_of_mem_set member with old | rfl
  · exact sync p old
  · exact sync'

/-- The port changes, but not what its node is going to hear. -/
theorem coming_set_same {ports : List Port} {i : Nat} {p p' : Port} (here : ports[i]? = some p)
    (same : p'.coming = p.coming) (j : Nat) : coming (ports.set i p') j = coming ports j := by
  rw [coming_set here]
  split
  · rename_i at_
    rw [same, at_, coming_eq here]
  · rfl

/-- A node has heard the first packet that was coming, and what is sent then goes to all. -/
theorem count_heard {ports : List Port} {copies : List (Nat × ByteVec)} {i receivers : Nat} {p : Port} {bb : ByteVec}
    {rest sent : List ByteVec} (here : ports[i]? = some p) (first : p.decoded = bb :: rest)
    (same : ∀ j x, copies.count (j, x) = (coming ports j).count x) (places : ports.length = receivers) (j : Nat)
    (x : ByteVec) :
    (copies.erase (i, bb) ++ LossyBus.broadcast receivers sent).count (j, x) =
      (coming (ports.set i { p with decoded := rest }) j).count x +
        if j < (ports.set i { p with decoded := rest }).length then sent.count x else 0 := by
  have before : p.coming = bb :: Port.coming { p with decoded := rest } := by
    rw [Port.coming, first]
    rfl
  have old := same j x
  rw [List.count_append, count_broadcast, List.length_set, places, coming_set here, Nat.add_right_cancel_iff]
  by_cases at_ : j = i
  · rw [if_pos at_]
    rw [at_, coming_eq here, before] at old
    by_cases heard : x = bb
    · rw [heard, List.count_cons_self] at old
      rw [at_, heard, List.count_erase_self, old, Nat.add_sub_cancel]
    · rw [List.count_cons_of_ne (Ne.symm heard)] at old
      rw [at_, List.count_erase_of_ne (by rintro ⟨⟩; exact heard rfl), old]
  · rw [if_neg at_, List.count_erase_of_ne (by rintro ⟨⟩; exact at_ rfl), old]

theorem mem_copies (mirrors : Mirrors s b) {i : Nat} {p : Port} {bb : ByteVec} {rest : List ByteVec}
    (here : s.m_ports[i]? = some p) (first : p.decoded = bb :: rest) : (i, bb) ∈ b.m_copies := by
  refine List.count_pos_iff.mp ?_
  rw [mirrors.copies, coming_eq here, Port.coming, first]
  exact List.count_pos_iff.mpr List.mem_cons_self

/-- A step of the bus, and the loss of the frames that are damaged. -/
theorem advance (free : OnMaster allowed) {master : Master} {clients : List PacketTypeCodec} {move : LossyBus.Move}
    {copies : List (Nat × ByteVec)} {ports ports' : List Port} {sent : List ByteVec} (ok : allowed b move)
    (step : LossyBus.Step b move ⟨master, clients, copies⟩) (carried : Carried sent ports ports')
    (sync : ∀ p ∈ ports, p.InSync) (fits : ∀ msg ∈ sent, Sized msg)
    (counts : ∀ i bb, copies.count (i, bb) =
      (coming ports i).count bb + if i < ports.length then sent.count bb else 0)
    (places : ports.length = clients.length + 1) (sized : ∀ n ∈ master.m_node :: clients, SizedQueue n)
    (synced : Synced master) : ∃ b', LabelledReach LossyBus.Step allowed b b' ∧
      Mirrors ⟨master, clients, ports'⟩ b' := by
  obtain ⟨sync', left, run, same⟩ := carry (b := ⟨master, clients, copies⟩) free carried sync fits counts
  refine ⟨_, (LabelledReach.next .start ok step).trans run, rfl, rfl, same, ?_, sync', sized, synced⟩
  exact (List.Forall₂.length_eq carried).symm.trans places

/-- What the master's node and the clients have to send still fits. -/
theorem sized_master (mirrors : Mirrors s b) {master : Master} (own : SizedQueue master.m_node) :
    ∀ n ∈ master.m_node :: s.m_clients, SizedQueue n := by
  intro n member
  rcases List.mem_cons.mp member with rfl | client
  · exact own
  · exact mirrors.sized n (List.mem_cons_of_mem _ client)

theorem sized_client (mirrors : Mirrors s b) {i : Nat} {n : PacketTypeCodec} (own : SizedQueue n) :
    ∀ n' ∈ s.m_master.m_node :: s.m_clients.set i n, SizedQueue n' := by
  intro n' member
  rcases List.mem_cons.mp member with rfl | client
  · exact mirrors.sized _ List.mem_cons_self
  · rcases List.mem_or_eq_of_mem_set client with old | rfl
    · exact mirrors.sized n' (List.mem_cons_of_mem _ old)
    · exact own

theorem receive (free : OnMaster allowed) (mirrors : Mirrors s b) {bb : ByteVec} {rest : List ByteVec} {now : ℚ}
    {stack : ChannelType × Crc32} {p : Port} {master : Master} {ports : List Port}
    (here : s.m_ports[0]? = some p) (first : p.decoded = bb :: rest)
    (moved : s.m_master.Step (.stimulus now (.rxRawPacket bb stack)) master)
    (carried : Carried (sentBy master.m_out) (s.m_ports.set 0 { p with decoded := rest }) ports)
    (ok : allowed b (.master (.stimulus now (.rxRawPacket bb stack)))) :
    ∃ b', LabelledReach LossyBus.Step allowed b b' ∧
      Mirrors { s with m_master := master, m_ports := ports } b' := by
  obtain ⟨synced, own, fits⟩ := sized_step mirrors.synced (mirrors.sized _ List.mem_cons_self) (by rintro _ ⟨⟩) moved
  have sync := mirrors.sync p (List.mem_of_getElem? here)
  have step : LossyBus.Step b _ _ := .receive (mirrors.mem_copies here first) (mirrors.master ▸ moved)
  rw [mirrors.clients] at step
  refine advance free ok step carried (inSync_set mirrors.sync ⟨sync.listening, sync.waiting⟩) fits ?_ ?_
    (mirrors.sized_master own) synced
  · exact count_heard here first mirrors.copies (mirrors.places.trans (congrArg List.length mirrors.nodes.symm))
  · rw [List.length_set]
    exact mirrors.places

theorem hear (free : OnMaster allowed) (mirrors : Mirrors s b) {i : Nat} {bb : ByteVec} {rest sent : List ByteVec}
    {p : Port} {n n' : PacketTypeCodec} {ports : List Port} (client : s.m_clients[i]? = some n)
    (here : s.m_ports[i + 1]? = some p) (first : p.decoded = bb :: rest) (hears : Hears bb n n' sent)
    (carried : Carried sent (s.m_ports.set (i + 1) { p with decoded := rest }) ports) :
    ∃ b', LabelledReach LossyBus.Step allowed b b' ∧
      Mirrors { s with m_clients := s.m_clients.set i n', m_ports := ports } b' := by
  obtain ⟨own, fits⟩ := hears.sized (mirrors.sized n (List.mem_cons_of_mem _ (List.mem_of_getElem? client)))
  have sync := mirrors.sync p (List.mem_of_getElem? here)
  have ok : allowed b (.hear i bb) := free _ _ (by rintro _ ⟨⟩)
  have step : LossyBus.Step b _ _ := .hear (mirrors.clients ▸ client) (mirrors.mem_copies here first) hears
  rw [mirrors.master, mirrors.clients] at step
  refine advance free ok step carried (inSync_set mirrors.sync ⟨sync.listening, sync.waiting⟩) fits ?_ ?_
    (mirrors.sized_client own) mirrors.synced
  · exact count_heard here first mirrors.copies (mirrors.places.trans (congrArg List.length mirrors.nodes.symm))
  · rw [List.length_set, List.length_set]
    exact mirrors.places

/-- The master does something by itself. -/
theorem act (free : OnMaster allowed) (mirrors : Mirrors s b) {l : Label} {master : Master}
    {ports ports' : List Port} (local_ : Bus.Local l)
    (moved : s.m_master.Step l master) (carried : Carried (sentBy master.m_out) ports ports')
    (sync : ∀ p ∈ ports, p.InSync) (same : ∀ i, coming ports i = coming s.m_ports i)
    (places : ports.length = s.m_ports.length)
    (fits : ∀ submission, Submission.ofLabel l = some submission → Fits submission)
    (ok : allowed b (.master l)) :
    ∃ b', LabelledReach LossyBus.Step allowed b b' ∧
      Mirrors { s with m_master := master, m_ports := ports' } b' := by
  obtain ⟨synced, own, sized⟩ := sized_step mirrors.synced (mirrors.sized _ List.mem_cons_self) fits moved
  have step : LossyBus.Step b _ _ := .master local_ (mirrors.master ▸ moved)
  rw [mirrors.clients] at step
  refine advance free ok step carried sync sized ?_ (places.trans mirrors.places) (mirrors.sized_master own) synced
  intro i bb
  rw [List.count_append, count_broadcast, mirrors.copies, same, places, mirrors.places, mirrors.nodes]

theorem step (free : OnMaster allowed) (mirrors : Mirrors s b) {move : Move} (inTime : s.InTime move)
    (own : ∀ l, move = .master l → allowed b (.master l)) (step : Step s move s') :
    ∃ b', LabelledReach LossyBus.Step allowed b b' ∧ Mirrors s' b' := by
  cases step with
  | receive here first moved carried => exact mirrors.receive free here first moved carried (own _ rfl)
  | @turn rxInProgress p master ports here answer moved carried =>
    have sync := mirrors.sync p (List.mem_of_getElem? here)
    have local_ : Bus.Local (.turn rxInProgress) := trivial
    by_cases polls : asks s.m_master = true
    · obtain ⟨sync', same⟩ := Port.packetRxInProgress_spec sync (inTime.1 polls p here)
      rw [if_pos polls] at carried
      exact mirrors.act free local_ moved carried (inSync_set mirrors.sync sync') (coming_set_same here same)
        List.length_set inTime.2 (own _ rfl)
    · rw [if_neg polls] at carried
      exact mirrors.act free local_ moved carried mirrors.sync (fun _ => rfl) rfl inTime.2 (own _ rfl)
  | stimulus _ _ local_ moved carried =>
    exact mirrors.act free local_ moved carried mirrors.sync (fun _ => rfl) rfl inTime.2 (own _ rfl)
  | hear client here first hears carried => exact mirrors.hear free client here first hears carried
  | @submit i p n submission client here rested =>
    have ok : allowed b (.submit i) := free _ _ (by rintro _ ⟨⟩)
    have step : LossyBus.Step b _ _ := .submit (mirrors.clients ▸ client) (submission.submits n.m_txQueue)
    have own := (mirrors.sized n (List.mem_cons_of_mem _ (List.mem_of_getElem? client))).submit inTime
    refine ⟨_, .next .start ok step, mirrors.master, ?_, mirrors.copies, ?_, mirrors.sync,
      mirrors.sized_client own, mirrors.synced⟩
    · dsimp only
      rw [mirrors.clients]
    · rw [mirrors.places, SerialLine.nodes, SerialLine.nodes, List.length_cons, List.length_cons, List.length_set]
  | @readSerial i now size p here rested _ _ _ =>
    have sync := mirrors.sync p (List.mem_of_getElem? here)
    obtain ⟨sync', same⟩ := Port.readSerial_spec sync rested (inTime p here) size
    refine ⟨b, .start, mirrors.master, mirrors.clients, ?_, ?_, inSync_set mirrors.sync sync', mirrors.sized,
      mirrors.synced⟩
    · intro j bb
      rw [mirrors.copies, coming_set_same here same]
    · rw [List.length_set]
      exact mirrors.places
  | @noise i bytes p here harmless =>
    obtain ⟨sync', same⟩ := Port.put_harmless (mirrors.sync p (List.mem_of_getElem? here)) harmless
    refine ⟨b, .start, mirrors.master, mirrors.clients, ?_, ?_, inSync_set mirrors.sync sync', mirrors.sized,
      mirrors.synced⟩
    · intro j bb
      rw [mirrors.copies, coming_set_same here same]
    · rw [List.length_set]
      exact mirrors.places

end Mirrors

section Runs

variable {cfg : Config} {uninitialised : Nat → UniqueId} {own : PacketTypeCodec} {clients : List PacketTypeCodec}
  {now : ℚ} {m₀ : Master} {s : SerialLine}

/-- How the line begins: nothing has been sent. -/
def atRest (m₀ : Master) (clients : List PacketTypeCodec) : SerialLine :=
  ⟨m₀, clients, List.replicate (clients.length + 1) Port.initial⟩

theorem mirrors_atRest (setup : LossyBus.Setup (own :: clients))
    (constructed : Master.start cfg own uninitialised now = .ok m₀) :
    Mirrors (atRest m₀ clients) ⟨m₀, clients, []⟩ := by
  rw [start_eq] at constructed
  cases constructed
  refine ⟨rfl, rfl, ?_, List.length_replicate, ?_, ?_, started_synced cfg own uninitialised now⟩
  · intro i bb
    refine (List.count_eq_zero_of_not_mem fun member => ?_).symm
    unfold coming at member
    cases here : (atRest (started cfg own uninitialised now) clients).m_ports[i]? with
    | none =>
      rw [here] at member
      cases member
    | some p =>
      rw [here, List.eq_of_mem_replicate (List.mem_of_getElem? here)] at member
      cases member
  · intro p member
    rw [List.eq_of_mem_replicate member]
    exact Port.inSync_initial
  · intro n member msg waiting
    have empty : n.m_txQueue.m_txMsg = [] := by
      rcases List.mem_cons.mp member with rfl | client
      · exact (setup.fresh own List.mem_cons_self).1
      · exact (setup.fresh n (List.mem_cons_of_mem _ client)).1
    rw [empty] at waiting
    cases waiting

end Runs

/-! A client joins, byte by byte -/

/-- A node reads the first byte of what is there, and then the others. -/
def reads (i : Nat) (now : ℚ) : List Move := [.readSerial i now 1, .readSerial i now 2048]

/-- The moves of a bus, with what a line does before a packet is heard. What would be lost
is heard here. -/
def onLine (now : ℚ) : LossyBus.Move → List Move
  | .master (.stimulus time (.rxRawPacket bb stack)) =>
    reads 0 now ++ [.master (.stimulus time (.rxRawPacket bb stack))]
  | .master l => [.master l]
  | .hear i bb => reads (i + 1) now ++ [.hear i bb]
  | .lose (i + 1) bb => reads (i + 1) now ++ [.hear i bb]
  | _ => []

theorem run_of_joinScript (P : SerialLine → Bool)
    (run : (LabelledReach.follow (fun s move => if plainlyCareful s move = true then exec s move else none)
      (atRest LossyBus.sampleNet.m_master LossyBus.sampleNet.m_clients)
      (LossyBus.joinScript.flatMap (onLine 1000))).any P = true) :
    ∃ s, LabelledReach Step Careful (atRest LossyBus.sampleNet.m_master LossyBus.sampleNet.m_clients) s ∧ P s = true :=
  LabelledReach.exists_of_script exec (fun s move => plainlyCareful s move = true) careful_of_plainly exec_step _ _ P
    run

/-- Below the packets there are bytes. The nodes read the serial line piece by piece, each
at its own pace, with harmless noise between the frames and harmlessly damaged frames among
them; as long as they read in time and the hosts' packets fit a frame, it is as if each packet
came to each node as a whole or not at all. -/
theorem serial_line_refines (cfg : Config) (uninitialised : Nat → UniqueId) (own : PacketTypeCodec)
    (clients : List PacketTypeCodec) (setup : LossyBus.Setup (own :: clients)) (now : ℚ) (m₀ : Master)
    (constructed : Master.start cfg own uninitialised now = .ok m₀) (s : SerialLine)
    (run : LabelledReach Step InTime (atRest m₀ clients) s) :
    ∃ b, LabelledReach LossyBus.Step (fun _ _ => True) ⟨m₀, clients, []⟩ b ∧ Mirrors s b :=
  run.simulate (mirrors_atRest setup constructed) fun mirrors inTime step =>
    mirrors.step (fun _ _ _ => trivial) inTime (fun _ _ => trivial) step

/-- The client that has got its address from the bytes has got it on the bus. -/
theorem serial_line_refines_joined :
    ∃ b, LabelledReach LossyBus.Step (fun _ _ => True) LossyBus.sampleNet b ∧ ∃ n ∈ b.m_clients, n.address = 33 := by
  obtain ⟨s, run, shown⟩ := run_of_joinScript (fun s => ∃ n ∈ s.m_clients, n.address = 33) (by decide +kernel)
  obtain ⟨n, member, address⟩ := of_decide_eq_true shown
  have setup : LossyBus.Setup (sampleNode :: LossyBus.sampleNet.m_clients) := ⟨by decide, by decide⟩
  obtain ⟨b, reached, mirrors⟩ := serial_line_refines {} _ _ _ setup 1000 _ (start_eq _ _ _ _) s
    (run.mono And.left)
  exact ⟨b, reached, n, mirrors.clients ▸ member, address⟩

/-- The addresses that are in use are known to the master and polled, and no two dynamic
clients share one, down to the bytes on the line, where noise and damage are harmless, the
nodes read in time and the hosts' packets fit a frame. -/
theorem serial_line_agreement (cfg : Config) (separate : cfg.Separate) (uninitialised : Nat → UniqueId)
    (own : PacketTypeCodec) (clients : List PacketTypeCodec) (setup : LossyBus.Setup (own :: clients)) (now : ℚ)
    (clock : 1 ≤ now) (m₀ : Master) (constructed : Master.start cfg own uninitialised now = .ok m₀) (s : SerialLine)
    (run : LabelledReach Step Careful (atRest m₀ clients) s) :
    (∀ d u, s.InUse d u → d ≠ LocalAddress.null_addr → s.m_master.Polled d ∧
      ∃ line ∈ s.m_master.m_dynamicHandler.m_table, line.m_address = d ∧ line.m_uniqueId = u) ∧
    ∀ d u u', s.InUse d u → s.InUse d u' → d ≠ LocalAddress.null_addr → u = u' := by
  obtain ⟨b, reached, mirrors⟩ := run.simulate (mirrors_atRest setup constructed)
    fun mirrors careful step => mirrors.step onMaster_careful careful.1 (mirrors.careful careful) step
  have reach := LossyBus.master_reach constructed reached
  have agreed := LossyBus.agreed_of_run setup constructed reached
  rw [mirrors.master] at reach
  have key : ∀ {d u}, s.InUse d u → d ≠ LocalAddress.null_addr →
      ∃ isDynamic, (d, isDynamic, u) ∈ s.m_master.m_dynamicHandler.keys := by
    rintro d u ⟨i, n, here, dynamic, id, holds⟩ proper
    rw [← mirrors.master]
    refine agreed.lines ⟨i, n, mirrors.nodes ▸ here, dynamic, id, holds.imp_right ?_⟩ proper
    intro reply
    have some_ := List.count_pos_iff.mpr reply
    rw [← mirrors.copies] at some_
    exact List.count_pos_iff.mp some_
  refine ⟨?_, ?_⟩
  · intro d u used proper
    obtain ⟨_, inTable⟩ := key used proper
    obtain ⟨line, inside, same⟩ := List.mem_map.mp inTable
    simp only [AddressLine.key, Prod.mk.injEq] at same
    refine ⟨reach.polled (fun _ _ kept => kept) separate clock ?_, line, inside, same.1, same.2.2⟩
    rw [lines, ← same.1]
    exact List.mem_map_of_mem (f := (·.m_address)) inside
  · intro d u u' used used' proper
    obtain ⟨_, inTable⟩ := key used proper
    obtain ⟨_, inTable'⟩ := key used' proper
    exact reach.oneToken.uniqueId_of_key separate inTable inTable'

theorem serial_line_agreement_joined :
    ∃ s, LabelledReach Step Careful (atRest LossyBus.sampleNet.m_master LossyBus.sampleNet.m_clients) s ∧
      s.m_master.Polled 33 := by
  obtain ⟨s, run, shown⟩ := run_of_joinScript (fun s => ∃ n ∈ s.nodes[1]?, n.dynamic = true ∧ n.address = 33)
    (by decide +kernel)
  obtain ⟨n, here, dynamic, address⟩ := of_decide_eq_true shown
  have setup : LossyBus.Setup (sampleNode :: LossyBus.sampleNet.m_clients) := ⟨by decide, by decide⟩
  have agreement := serial_line_agreement {} Config.separate_default _ _ _ setup 1000 (by norm_num) _
    (start_eq _ _ _ _) s run
  exact ⟨s, run, (agreement.1 33 n.m_uniqueId ⟨1, n, here, dynamic, rfl, .inl address⟩ (by decide)).1⟩

end SerialLine

end SerialNet
