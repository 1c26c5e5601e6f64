import SerialNet.Bus.Agreement

namespace SerialNet.Bus

open PacketTypeCodec Master

/-- No token, and no answer to one, is under way. -/
def Silent (wire : List ByteVec) : Prop := ∀ bb ∈ wire, isToken bb = false

/-- The token for `a` is on the wire, and every address handed out before it will be
heard before it. -/
def Granted (a : LocalAddress) (wire : List ByteVec) : Prop :=
  ∃ before after, wire = before ++ packet.GrantToken.fromHeader ⟨a⟩ :: after ∧ Silent before ∧ Silent after ∧
    ∀ bb ∈ after, kind bb ≠ some .address_reply

/-- The token for `a` has been heard, and its answer is on the wire unless there is
nobody to give one. -/
def Answered (a : LocalAddress) (ns : List PacketTypeCodec) (wire : List ByteVec) : Prop :=
  (∃ before r after, wire = before ++ r :: after ∧ isResponse r = true ∧ Silent before ∧ Silent after) ∨
    (Silent wire ∧ (∀ bb ∈ wire, kind bb ≠ some .address_reply) ∧ ∀ n ∈ ns, n.address ≠ a)

/-- Where the token is, by state and event queue of the master. -/
def Phase (s : StateId) (queue : List Event) (a : LocalAddress) (ns : List PacketTypeCodec)
    (wire : List ByteVec) : Prop :=
  match s with
  | .sendingToken =>
    if queue = [.rx_pkt_grant_token] then Answered a ns wire else .timer_timeout ∉ queue ∧ Granted a wire
  | .waitClientPacketDone =>
    if queue = [.rx_pkt_client_packet] ∨ queue = [.rx_return_token] then Silent wire
    else Answered a ns wire ∧ (.timer_timeout ∈ queue → wire = [])
  | _ => Silent wire

theorem isToken_isResponse {bb : ByteVec} (response : isResponse bb = true) : isToken bb = true := by
  obtain ⟨_, type⟩ := of_decide_eq_true response
  exact decide_eq_true (Or.inr type)

theorem isToken_eq_false {bb : ByteVec} {t : MessageType} (type : kind bb = some t)
    (other : t ≠ .grant_token ∧ t ≠ .return_token ∧ t ≠ .send_packet ∧ t ≠ .mac_update) : isToken bb = false := by
  obtain ⟨noGrant, noReturn, noPacket, noUpdate⟩ := other
  refine decide_eq_false ?_
  rw [type]
  rintro (same | same | same | same) <;> cases same <;> contradiction

theorem Silent.append {first second : List ByteVec} (silent : Silent first) (silent' : Silent second) :
    Silent (first ++ second) := by
  intro bb member
  rcases List.mem_append.mp member with before | after
  · exact silent bb before
  · exact silent' bb after

theorem Silent.filter_isToken {wire : List ByteVec} (silent : Silent wire) : wire.filter isToken = [] := by
  rw [List.filter_eq_nil_iff]
  intro bb member
  simp [silent bb member]

theorem Granted.filter_isToken {a : LocalAddress} {wire : List ByteVec} (granted : Granted a wire) :
    wire.filter isToken = [packet.GrantToken.fromHeader ⟨a⟩] := by
  obtain ⟨before, after, rfl, silent, silent', _⟩ := granted
  rw [List.filter_append, silent.filter_isToken, List.nil_append, List.filter_cons_of_pos rfl,
    silent'.filter_isToken]

theorem Answered.length_filter_isToken {a : LocalAddress} {ns : List PacketTypeCodec} {wire : List ByteVec}
    (answered : Answered a ns wire) : (wire.filter isToken).length ≤ 1 := by
  rcases answered with ⟨before, r, after, rfl, response, silent, silent'⟩ | ⟨silent, _, _⟩
  · rw [List.filter_append, silent.filter_isToken, List.nil_append,
      List.filter_cons_of_pos (isToken_isResponse response), silent'.filter_isToken]
    exact Nat.le_refl 1
  · rw [silent.filter_isToken]
    exact Nat.zero_le 1

/-- There is never more than one token packet. -/
theorem Phase.length_filter_isToken {s : StateId} {queue : List Event} {a : LocalAddress}
    {ns : List PacketTypeCodec} {wire : List ByteVec} (phase : Phase s queue a ns wire) :
    (wire.filter isToken).length ≤ 1 := by
  unfold Phase at phase
  split at phase
  · split at phase
    · exact phase.length_filter_isToken
    · rw [phase.2.filter_isToken]
      exact Nat.le_refl 1
  · split at phase
    · rw [phase.filter_isToken]
      exact Nat.zero_le 1
    · exact phase.1.length_filter_isToken
  · rw [phase.filter_isToken]
    exact Nat.zero_le 1

/-- Apart from the wire, only the addresses of the nodes matter. -/
theorem Phase.congr {s : StateId} {queue : List Event} {a : LocalAddress} {ns ns' : List PacketTypeCodec}
    {wire : List ByteVec} (phase : Phase s queue a ns wire) (same : ns'.map face = ns.map face) :
    Phase s queue a ns' wire := by
  have answered : Answered a ns wire → Answered a ns' wire := by
    rintro (answer | ⟨silent, none, nobody⟩)
    · exact Or.inl answer
    · refine Or.inr ⟨silent, none, ?_⟩
      intro n' member mine
      obtain ⟨n, found, _, _, address⟩ := exists_of_map_face same.symm member
      exact nobody n found (address.trans mine)
  cases s with
  | sendingToken =>
    simp only [Phase] at phase ⊢
    split
    · rename_i seen
      rw [if_pos seen] at phase
      exact answered phase
    · rename_i unseen
      rw [if_neg unseen] at phase
      exact phase
  | waitClientPacketDone =>
    simp only [Phase] at phase ⊢
    split
    · rename_i back
      rw [if_pos back] at phase
      exact phase
    · rename_i out
      rw [if_neg out] at phase
      exact ⟨answered phase.1, phase.2⟩
  | _ => exact phase

/-! A packet that is not about the token is delivered -/

section Deliver

variable {a : LocalAddress} {ns ns' : List PacketTypeCodec} {bb : ByteVec} {rest sent : List ByteVec}

theorem Silent.deliver (silent : Silent (bb :: rest)) (quiet : Silent sent) : Silent (rest ++ sent) :=
  Silent.append (fun x member => silent x (List.mem_cons_of_mem _ member)) quiet

theorem Granted.deliver (granted : Granted a (bb :: rest)) (other : isToken bb = false) (quiet : Silent sent)
    (noReply : ∀ x ∈ sent, kind x ≠ some .address_reply) : Granted a (rest ++ sent) := by
  obtain ⟨before, after, wire, silent, silent', none⟩ := granted
  cases before with
  | nil =>
    cases (List.cons.inj wire).1
    cases other
  | cons x before =>
    have tail := (List.cons.inj wire).2
    refine ⟨before, after ++ sent, by rw [tail]; simp, ?_, silent'.append quiet, ?_⟩
    · intro y member
      exact silent y (List.mem_cons_of_mem _ member)
    · intro y member
      rcases List.mem_append.mp member with old | new
      · exact none y old
      · exact noReply y new

theorem Answered.deliver (answered : Answered a ns (bb :: rest)) (other : isToken bb = false) (quiet : Silent sent)
    (noReply : ∀ x ∈ sent, kind x ≠ some .address_reply)
    (unmoved : kind bb ≠ some .address_reply → ∀ n' ∈ ns', n'.address = a → ∃ n ∈ ns, n.address = a) :
    Answered a ns' (rest ++ sent) := by
  rcases answered with ⟨before, r, after, wire, response, silent, silent'⟩ | ⟨silent, none, nobody⟩
  · cases before with
    | nil =>
      rw [(List.cons.inj wire).1, isToken_isResponse response] at other
      cases other
    | cons x before =>
      have tail := (List.cons.inj wire).2
      refine Or.inl ⟨before, r, after ++ sent, by rw [tail]; simp, response, ?_, silent'.append quiet⟩
      intro y member
      exact silent y (List.mem_cons_of_mem _ member)
  · refine Or.inr ⟨silent.deliver quiet, ?_, ?_⟩
    · intro x member
      rcases List.mem_append.mp member with old | new
      · exact none x (List.mem_cons_of_mem _ old)
      · exact noReply x new
    · intro n' member mine
      obtain ⟨n, found, same⟩ := unmoved (none bb List.mem_cons_self) n' member mine
      exact nobody n found same

theorem Phase.deliver {s : StateId} {queue' : List Event} (phase : Phase s [] a ns (bb :: rest))
    (other : isToken bb = false) (quiet : Silent sent) (noReply : ∀ x ∈ sent, kind x ≠ some .address_reply)
    (unmoved : kind bb ≠ some .address_reply → ∀ n' ∈ ns', n'.address = a → ∃ n ∈ ns, n.address = a)
    (plain : queue' ≠ [.rx_pkt_grant_token] ∧ queue' ≠ [.rx_pkt_client_packet] ∧ queue' ≠ [.rx_return_token])
    (noTimer : .timer_timeout ∉ queue') : Phase s queue' a ns' (rest ++ sent) := by
  obtain ⟨noGrant, noPacket, noReturn⟩ := plain
  cases s with
  | sendingToken =>
    simp only [Phase, reduceCtorEq, if_false] at phase
    simp only [Phase, noGrant, if_false]
    exact ⟨noTimer, phase.2.deliver other quiet noReply⟩
  | waitClientPacketDone =>
    simp only [Phase, reduceCtorEq, or_self, if_false] at phase
    simp only [Phase, noPacket, noReturn, or_self, if_false]
    exact ⟨phase.1.deliver other quiet noReply unmoved, fun timer => absurd timer noTimer⟩
  | _ => exact Silent.deliver phase quiet

end Deliver

/-! The token and its answer are delivered -/

section Deliver

variable {s : StateId} {a : LocalAddress} {ns ns' : List PacketTypeCodec} {rest sent heard : List ByteVec}

/-- The grant is the one the master has sent, and the next packet about the token is
the answer of the only node with the address. -/
theorem Phase.deliver_grant {a' : LocalAddress}
    (phase : Phase s [] a ns (packet.GrantToken.fromHeader ⟨a'⟩ :: rest))
    (hear : HearAll (packet.GrantToken.fromHeader ⟨a'⟩) ns ns' heard) (perm : sent.Perm heard)
    (dataOnly : ∀ n ∈ ns, DataOnly n.m_txQueue)
    (single : s = .sendingToken → ns.Pairwise fun n n' => ¬ (n.address = a ∧ n'.address = a)) :
    Phase s [.rx_pkt_grant_token] a ns' (rest ++ sent) := by
  cases s with
  | sendingToken =>
    simp only [Phase, reduceCtorEq, if_false] at phase
    simp only [Phase, if_true]
    obtain ⟨_, before, after, wire, silent, silent', none⟩ := phase
    cases before with
    | cons x before =>
      have token := silent x List.mem_cons_self
      rw [← (List.cons.inj wire).1] at token
      cases token
    | nil =>
      obtain ⟨head, rfl⟩ := List.cons.inj wire
      cases head
      rcases hear.grant dataOnly (single rfl) with ⟨r, answer, response⟩ | ⟨answer, nobody⟩
      · rw [answer, List.perm_singleton] at perm
        exact Or.inl ⟨rest, r, [], by rw [perm], response, silent', by rintro _ ⟨⟩⟩
      · rw [answer, List.perm_nil] at perm
        rw [perm, List.append_nil]
        refine Or.inr ⟨silent', none, ?_⟩
        intro n' member
        obtain ⟨n, found, _, hears⟩ := hear.exists_before member
        rw [hears.address_eq (by rintro ⟨⟩) (by rintro ⟨⟩)]
        exact nobody n found
  | waitClientPacketDone =>
    simp only [Phase, reduceCtorEq, or_self, if_false] at phase
    rcases phase.1 with ⟨before, r, after, wire, response, silent, _⟩ | ⟨silent, _, _⟩
    · cases before with
      | cons x before =>
        have token := silent x List.mem_cons_self
        rw [← (List.cons.inj wire).1] at token
        cases token
      | nil =>
        rw [← (List.cons.inj wire).1] at response
        exact absurd rfl (kind_isResponse response).1
    · cases silent _ List.mem_cons_self
  | _ => cases phase _ List.mem_cons_self

/-- The answer has been heard. -/
theorem Phase.deliver_response {bb : ByteVec} {queue' : List Event} (phase : Phase s [] a ns (bb :: rest))
    (response : isResponse bb = true) (told : queue' = [.rx_pkt_client_packet] ∨ queue' = [.rx_return_token]) :
    Phase s queue' a ns' rest := by
  have token := isToken_isResponse response
  cases s with
  | sendingToken =>
    simp only [Phase, reduceCtorEq, if_false] at phase
    obtain ⟨_, before, after, wire, silent, _, _⟩ := phase
    cases before with
    | cons x before =>
      have none := silent x List.mem_cons_self
      rw [← (List.cons.inj wire).1, token] at none
      cases none
    | nil =>
      rw [(List.cons.inj wire).1] at response
      exact absurd rfl (kind_isResponse response).1
  | waitClientPacketDone =>
    simp only [Phase, reduceCtorEq, or_self, if_false] at phase
    simp only [Phase, told, if_true]
    rcases phase.1 with ⟨before, r, after, wire, _, silent, silent'⟩ | ⟨silent, _, _⟩
    · cases before with
      | cons x before =>
        have none := silent x List.mem_cons_self
        rw [← (List.cons.inj wire).1, token] at none
        cases none
      | nil =>
        rw [(List.cons.inj wire).2]
        exact silent'
    · have none := silent bb List.mem_cons_self
      rw [token] at none
      cases none
  | _ =>
    have none := phase bb List.mem_cons_self
    rw [token] at none
    cases none

end Deliver

/-! Any packet is delivered -/

theorem packetEvent_response {bb : ByteVec} (response : isResponse bb = true) :
    (packetEvent bb).toList = [.rx_pkt_client_packet] ∨ (packetEvent bb).toList = [.rx_return_token] := by
  obtain ⟨long, type⟩ := of_decide_eq_true response
  rw [packetEvent, if_pos long]
  rcases type with type | type | type
  · exact Or.inr (by rw [type]; rfl)
  · exact Or.inl (by rw [type]; rfl)
  · exact Or.inl (by rw [type]; rfl)

theorem packetEvent_discovery {bb : ByteVec} (type : kind bb = some .address_discovery) : packetEvent bb = none := by
  rw [packetEvent, type]
  exact ite_self none

theorem packetEvent_request (r : packet.AddressRequest) :
    packetEvent r.fromHeader = some (.rx_pkt_address_request r) := by
  rw [packetEvent, if_pos (longEnough_addressRequest r), kind_addressRequest, Option.bind_some, eventOf,
    packet.AddressRequest.toHeader_fromHeader, Option.map_some]

theorem packetEvent_reply (d : LocalAddress) (u : UniqueId) : packetEvent (reply d u) = none := by
  rw [reply, packetEvent, if_pos (longEnough_addressReply _), kind_addressReply]
  rfl

section Deliver

variable {ns ns' : List PacketTypeCodec} {bb : ByteVec} {rest heard sent : List ByteVec}

/-- The master hears a request only when a node has made it. -/
theorem Carried.request_of_packetEvent {r : packet.AddressRequest} (carried : Carried bb)
    (event : packetEvent bb = some (.rx_pkt_address_request r)) : bb = r.fromHeader := by
  cases carried with
  | grant a => cases event
  | response response =>
    rcases packetEvent_response response with told | told <;> rw [event] at told <;> cases told
  | started => cases event
  | discovery type =>
    rw [packetEvent_discovery type] at event
    cases event
  | request r' =>
    rw [packetEvent_request] at event
    cases event
    rfl
  | reply d u =>
    rw [packetEvent_reply] at event
    cases event

theorem Carried.start_of_packetEvent (carried : Carried bb)
    (event : packetEvent bb = some .rx_pkt_master_start_stop) : bb = packet.masterStarted := by
  cases carried with
  | grant a => cases event
  | response response =>
    rcases packetEvent_response response with told | told <;> rw [event] at told <;> cases told
  | started => rfl
  | discovery type =>
    rw [packetEvent_discovery type] at event
    cases event
  | request r' =>
    rw [packetEvent_request] at event
    cases event
  | reply d u =>
    rw [packetEvent_reply] at event
    cases event

/-- Without a token the nodes have nothing to say but to ask for an address. -/
theorem HearAll.requests (hear : HearAll bb ns ns' heard) (noGrant : kind bb ≠ some .grant_token) {x : ByteVec}
    (member : x ∈ heard) : isToken x = false ∧ kind x ≠ some .address_reply := by
  obtain ⟨n, found, n', s, hears, inside⟩ := hear.exists_sender member
  obtain ⟨r, rfl⟩ := hears.sends_request noGrant inside
  exact ⟨rfl, by rintro ⟨⟩⟩

theorem Phase.hear {s : StateId} {a : LocalAddress} (phase : Phase s [] a ns (bb :: rest)) (carried : Carried bb)
    (hear : HearAll bb ns ns' heard) (perm : sent.Perm heard) (dataOnly : ∀ n ∈ ns, DataOnly n.m_txQueue)
    (single : s = .sendingToken → ns.Pairwise fun n n' => ¬ (n.address = a ∧ n'.address = a))
    (starts : bb = packet.masterStarted → s = .startMaster) :
    Phase s (packetEvent bb).toList a ns' (rest ++ sent) := by
  have unanswered : kind bb ≠ some .grant_token → kind bb ≠ some .address_discovery → sent = [] := by
    intro noGrant noDiscovery
    have nothing := hear.silent fun n _ n' s hears => hears.silent noGrant noDiscovery
    rw [nothing] at perm
    exact perm.eq_nil
  have quiet : kind bb ≠ some .grant_token → Silent sent := by
    intro noGrant x member
    exact (hear.requests noGrant (perm.mem_iff.mp member)).1
  have noReply : kind bb ≠ some .grant_token → ∀ x ∈ sent, kind x ≠ some .address_reply := by
    intro noGrant x member
    exact (hear.requests noGrant (perm.mem_iff.mp member)).2
  have unmoved : kind bb ≠ some .master_started → kind bb ≠ some .address_reply →
      ∀ n' ∈ ns', n'.address = a → ∃ n ∈ ns, n.address = a := by
    intro noStart noReply n' member mine
    obtain ⟨n, found, _, hears⟩ := hear.exists_before member
    exact ⟨n, found, by rw [← hears.address_eq noReply noStart, mine]⟩
  cases carried with
  | grant a' => exact phase.deliver_grant hear perm dataOnly single
  | response response =>
    obtain ⟨noGrant, _, _, _, noDiscovery⟩ := kind_isResponse response
    rw [unanswered noGrant noDiscovery, List.append_nil]
    exact phase.deliver_response response (packetEvent_response response)
  | started =>
    rw [starts rfl] at phase ⊢
    exact Silent.deliver phase (quiet (by rintro ⟨⟩))
  | discovery type =>
    have noGrant : kind bb ≠ some .grant_token := by simp [type]
    have noStart : kind bb ≠ some .master_started := by simp [type]
    rw [packetEvent_discovery type]
    exact phase.deliver (isToken_eq_false type (by simp)) (quiet noGrant) (noReply noGrant) (unmoved noStart) (by simp)
      (by simp)
  | request r =>
    rw [packetEvent_request]
    exact phase.deliver rfl (quiet (by simp)) (noReply (by simp)) (unmoved (by simp)) (by simp) (by simp)
  | reply d u =>
    rw [packetEvent_reply]
    exact phase.deliver rfl (quiet (by rintro ⟨⟩)) (noReply (by rintro ⟨⟩)) (unmoved (by rintro ⟨⟩)) (by simp) (by simp)

end Deliver

/-! The master takes a turn -/

section Turn

variable {s : StateId} {ev : Event} {a : LocalAddress} {ns : List PacketTypeCodec} {wire : List ByteVec}

theorem Phase.ignore (phase : Phase s [ev] a ns wire) (unhandled : handles s ev = false) : Phase s [] a ns wire := by
  cases s with
  | sendingToken =>
    cases ev <;> simp only [Master.handles, reduceCtorEq] at unhandled <;>
      simpa only [Phase, List.cons.injEq, reduceCtorEq, false_and, if_false, List.mem_singleton, not_false_eq_true,
        true_and, List.not_mem_nil] using phase
  | waitClientPacketDone =>
    cases ev <;> simp only [Master.handles, reduceCtorEq] at unhandled <;>
      simpa only [Phase, List.cons.injEq, reduceCtorEq, false_and, or_self, if_false, List.mem_singleton,
        false_implies, and_true, List.not_mem_nil] using phase
  | _ => exact phase

theorem Phase.rearm (phase : Phase s [.timer_timeout] a ns wire) : Phase s [] a ns wire := by
  cases s with
  | sendingToken => simp [Phase] at phase
  | waitClientPacketDone =>
    simp only [Phase, List.cons.injEq, reduceCtorEq, false_and, or_self, if_false] at phase
    simp only [Phase, reduceCtorEq, or_self, if_false]
    exact ⟨phase.1, by rintro ⟨⟩⟩
  | _ => exact phase

/-- A result is reported only when the token is back. -/
theorem Phase.silent_of_result {rxInProgress : Bool} {rv : ReturnValue} (phase : Phase s [ev] a ns wire)
    (result : Master.resultOf rxInProgress s ev = some rv) : Silent wire := by
  cases s with
  | idle => cases result
  | sendingToken => cases ev <;> cases result
  | waitClientPacketDone =>
    cases ev <;> simp only [Master.resultOf, reduceCtorEq] at result
    case rx_pkt_client_packet => simpa [Phase] using phase
    case rx_return_token => simpa [Phase] using phase
    case timer_timeout =>
      simp only [Phase, List.cons.injEq, reduceCtorEq, false_and, or_self, if_false] at phase
      rw [phase.2 (List.mem_singleton_self _)]
      rintro _ ⟨⟩
  | _ => exact phase

end Turn

end SerialNet.Bus
