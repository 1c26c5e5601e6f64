import SerialNet.Bus.Lossy
import SerialNet.Bus.TokenTurns

namespace SerialNet.LossyBus

open PacketTypeCodec Master Bus

/-! Copies -/

theorem mem_broadcast {receivers : Nat} {sent : List ByteVec} {c : Nat × ByteVec}
    (member : c ∈ broadcast receivers sent) : c.2 ∈ sent := by
  obtain ⟨bb, inside, copy⟩ := List.mem_flatMap.mp member
  obtain ⟨_, _, rfl⟩ := List.mem_map.mp copy
  exact inside

/-- A copy is heard and others are sent. -/
theorem mem_copies {copies : List (Nat × ByteVec)} {heard c : Nat × ByteVec} {receivers : Nat} {sent : List ByteVec}
    (member : c ∈ copies.erase heard ++ broadcast receivers sent) : c ∈ copies ∨ c.2 ∈ sent := by
  rcases List.mem_append.mp member with old | new
  · exact Or.inl (List.mem_of_mem_erase old)
  · exact Or.inr (mem_broadcast new)

/-! Addresses in use -/

section InUse

variable {b b' : LossyBus} {d : LocalAddress} {u : UniqueId}

/-- One node changes, and gets no address but one it was promised. -/
theorem InUse.of_set {i : Nat} {n n' : PacketTypeCodec} (used : b'.InUse d u) (proper : d ≠ LocalAddress.null_addr)
    (present : b.nodes[i]? = some n) (nodes : b'.nodes = b.nodes.set i n') (same : identity n' = identity n)
    (address : n'.address = n.address ∨ n'.address = LocalAddress.null_addr ∨
      (i, reply n'.address n.m_uniqueId) ∈ b.m_copies)
    (promised : ∀ j, (j, reply d u) ∈ b'.m_copies → (j, reply d u) ∈ b.m_copies) : b.InUse d u := by
  obtain ⟨j, n₁, at_, dynamic, id, holds⟩ := used
  by_cases here : i = j
  · subst here
    have inside := (List.getElem?_eq_some_iff.mp present).1
    rw [nodes, List.getElem?_set_self inside] at at_
    cases at_
    obtain ⟨id', dynamic'⟩ := Prod.mk.inj same
    refine ⟨i, n, present, dynamic' ▸ dynamic, id' ▸ id, ?_⟩
    rcases holds with mine | copy
    · rcases address with kept | null | told
      · exact Or.inl (kept ▸ mine)
      · exact absurd (mine.symm.trans null) proper
      · rw [mine, ← id', id] at told
        exact Or.inr told
    · exact Or.inr (promised i copy)
  · rw [nodes, List.getElem?_set_ne here] at at_
    exact ⟨j, n₁, at_, dynamic, id, holds.imp_right (promised j)⟩

end InUse

/-! The table -/

section Table

variable {m m' : Master}

/-- A line is lost only where the master gives it up. -/
theorem keys_turn (synced : Synced m) {rxInProgress : Bool} {ev : Event} (queue : m.m_fsm.m_eventQueue = [ev])
    (taken : TurnCase m rxInProgress ev m') {k : LineKey} (key : k ∈ m.m_dynamicHandler.keys) :
    k ∈ m'.m_dynamicHandler.keys ∨ ∃ line, GivesUp m line (.turn rxInProgress) ∧ line.key = k := by
  cases taken with
  | ownIdle _ _ _ settles =>
    rw [conclude_dynamicHandler]
    rcases settles.keys with same | ⟨timeout, _⟩
    · rw [same]
      exact Or.inl key
    · cases timeout
  | @requested aReq _ =>
    left
    rw [goto_dynamicHandler]
    rcases m.consume.receivedAddressRequest_cases aReq with ⟨_, _, _, known⟩ | ⟨_, _, nothing⟩ | ⟨_, _, _, _, new⟩
    · rw [known]
      exact key
    · rw [nothing]
      exact key
    · rw [new]
      simp only [DynamicHandler.keys, sendAddressReply, sendMasterPacket, enlist, postActionNow, setScheduler,
        List.map_append]
      exact List.mem_append_left _ key
  | @reported ev rv dh again result settles =>
    rw [goto_dynamicHandler, conclude_dynamicHandler]
    rcases settles.keys with same | ⟨rfl, before, line, after, table, address, isDynamic, missed, rest⟩
    · rw [same]
      exact Or.inl key
    · rw [DynamicHandler.keys, table, List.map_append, List.map_cons] at key
      rw [DynamicHandler.keys, rest, List.map_append]
      by_cases this : k = line.key
      · right
        have timeout : rxInProgress = false ∧ m.m_fsm.m_state = .waitClientPacketDone ∧ ev = .timer_timeout := by
          cases state : m.m_fsm.m_state <;> cases ev <;> cases rxInProgress <;> rw [state] at result <;>
            first | exact ⟨rfl, rfl, rfl⟩ | cases result
        refine ⟨line, ⟨timeout.1, timeout.2.1, ?_, ?_, ?_, isDynamic, missed⟩, this.symm⟩
        · rw [queue, timeout.2.2]
          rfl
        · rw [table]
          exact List.mem_append_right _ List.mem_cons_self
        · rw [address, synced.sameAction]
      · left
        simp only [List.mem_append, List.mem_cons, this, false_or] at key ⊢
        exact key
  | _ => exact Or.inl (by simpa [startTimer] using key)

/-- The master tells an id no address but that of its line. -/
theorem keys_told {rxInProgress : Bool} {ev : Event} (taken : TurnCase m rxInProgress ev m')
    (dataOnly : DataOnly m.m_node.m_txQueue) {d : LocalAddress} {u : UniqueId} (told : reply d u ∈ sentBy m'.m_out) :
    ∃ isDynamic, (d, isDynamic, u) ∈ m'.m_dynamicHandler.keys := by
  have noReply : ∀ {x : ByteVec}, kind x ≠ some .address_reply → reply d u ≠ x := by
    rintro x other rfl
    exact other rfl
  cases taken with
  | ignored _ => cases told
  | rearmed _ => cases told
  | ownIdle _ _ _ _ =>
    rw [conclude_out] at told
    cases told
  | ownSends _ _ _ packets =>
    obtain ⟨⟨r, out, data⟩, _, _⟩ := sendClientPacket_spec (m := m.consume) dataOnly packets
    simp only [goto_out, out, consume_out, entrySends, List.nil_append, List.append_nil, sentBy_sendMsg,
      List.mem_singleton] at told
    exact absurd told (noReply (kind_isResponse (isResponse_of_isData data)).2.1)
  | grants _ _ _ =>
    simp only [goto_out, sendToken_out, consume_out, entrySends, List.nil_append, List.append_nil, sentBy_sendMsg,
      List.mem_singleton] at told
    exact absurd told (noReply (by rintro ⟨⟩))
  | queries _ _ =>
    simp only [goto_out, consume_out, entrySends, List.nil_append, sentBy_sendMsg, List.mem_singleton] at told
    exact absurd told (noReply (by rintro ⟨⟩))
  | starts _ _ =>
    simp only [goto_out, consume_out, entrySends, List.nil_append, sentBy_sendMsg, List.mem_singleton] at told
    exact absurd told (noReply (by rintro ⟨⟩))
  | grantSeen _ => simp [entrySends] at told
  | grantLost _ => simp [entrySends] at told
  | reported _ _ => simp [entrySends] at told
  | @requested aReq _ =>
    rw [goto_dynamicHandler]
    rw [goto_out, sentBy_append] at told
    rcases m.consume.receivedAddressRequest_cases aReq with ⟨line, member, id, known⟩ | ⟨_, _, nothing⟩ |
      ⟨_, rest, localAddr, _, new⟩
    · rw [known] at told ⊢
      simp only [sendAddressReply, sendMasterPacket, consume_out, entrySends, List.nil_append, sentBy_sendMsg,
        sentBy_nil, List.append_nil, List.mem_singleton] at told
      obtain ⟨rfl, rfl⟩ := reply_injective told
      refine ⟨line.m_isDynamic, ?_⟩
      rw [← id]
      exact List.mem_map_of_mem (f := AddressLine.key) member
    · rw [nothing] at told
      cases told
    · rw [new] at told ⊢
      simp only [sendAddressReply, sendMasterPacket, enlist, postActionNow, setScheduler, consume_out, entrySends,
        List.nil_append, sentBy_sendMsg, sentBy_nil, List.append_nil, List.mem_singleton] at told
      obtain ⟨rfl, rfl⟩ := reply_injective told
      refine ⟨true, ?_⟩
      simp only [DynamicHandler.keys, sendAddressReply, sendMasterPacket, enlist, postActionNow, setScheduler,
        List.map_append]
      exact List.mem_append_right _ (List.mem_singleton_self _)

end Table

/-! The invariant -/

/-- Every address in use has its line, as far as the nodes and the copies go. -/
structure Agreed (b : LossyBus) : Prop where
  ids : (b.nodes.map (·.m_uniqueId)).Nodup
  dataOnly : ∀ n ∈ b.nodes, DataOnly n.m_txQueue
  carried : ∀ c ∈ b.m_copies, Carried c.2
  lines : ∀ {d u}, b.InUse d u → d ≠ LocalAddress.null_addr →
    ∃ isDynamic, (d, isDynamic, u) ∈ b.m_master.m_dynamicHandler.keys

theorem map_set_of_getElem? {α β : Type} {f : α → β} {l : List α} {i : Nat} {x y : α} (present : l[i]? = some x)
    (same : f y = f x) : (l.set i y).map f = l.map f := by
  obtain ⟨inside, here⟩ := List.getElem?_eq_some_iff.mp present
  refine List.ext_getElem? fun j => ?_
  rw [List.getElem?_map, List.getElem?_map]
  by_cases at_ : i = j
  · rw [← at_, List.getElem?_set_self inside, present, Option.map_some, Option.map_some, same]
  · rw [List.getElem?_set_ne at_]

namespace Agreed

variable {b b' : LossyBus}

/-- One node takes part in the step, and the table keeps its lines. -/
theorem of_set {i : Nat} {n n' : PacketTypeCodec} (agreed : Agreed b) (present : b.nodes[i]? = some n)
    (nodes : b'.nodes = b.nodes.set i n') (same : identity n' = identity n)
    (address : n'.address = n.address ∨ n'.address = LocalAddress.null_addr ∨
      (i, reply n'.address n.m_uniqueId) ∈ b.m_copies)
    (dataOnly : DataOnly n'.m_txQueue)
    (copies : ∀ c ∈ b'.m_copies, c ∈ b.m_copies ∨ Carried c.2 ∧ kind c.2 ≠ some .address_reply)
    (keys : b'.m_master.m_dynamicHandler.keys = b.m_master.m_dynamicHandler.keys) : Agreed b' := by
  refine ⟨?_, ?_, ?_, ?_⟩
  · rw [nodes, map_set_of_getElem? present (congrArg Prod.fst same)]
    exact agreed.ids
  · intro n₁ member
    rw [nodes] at member
    rcases List.mem_or_eq_of_mem_set member with old | rfl
    · exact agreed.dataOnly n₁ old
    · exact dataOnly
  · intro c member
    rcases copies c member with old | ⟨carried, _⟩
    · exact agreed.carried c old
    · exact carried
  · intro d u used proper
    rw [keys]
    refine agreed.lines (used.of_set proper present nodes same address ?_) proper
    intro j member
    rcases copies _ member with old | ⟨_, other⟩
    · exact old
    · exact absurd rfl other

theorem hear (agreed : Agreed b) {i : Nat} {bb : ByteVec} {n n' : PacketTypeCodec} {sent : List ByteVec}
    (present : b.nodes[i]? = some n) (copy : (i, bb) ∈ b.m_copies) (hears : Hears bb n n' sent)
    (nodes : b'.nodes = b.nodes.set i n')
    (copies : b'.m_copies = b.m_copies.erase (i, bb) ++ broadcast b.nodes.length sent)
    (keys : b'.m_master.m_dynamicHandler.keys = b.m_master.m_dynamicHandler.keys) : Agreed b' := by
  have dataOnly := agreed.dataOnly n (List.mem_of_getElem? present)
  refine agreed.of_set present nodes ?_ ?_ (hears.dataOnly dataOnly) ?_ keys
  · rw [identity, hears.uniqueId, hears.dynamic, identity]
  · rcases address_cases (agreed.carried _ copy) hears with kept | ⟨_, null⟩ | told
    · exact Or.inl kept
    · exact Or.inr (Or.inl null)
    · have promise : bb = reply n'.address n.m_uniqueId := told
      rw [promise] at copy
      exact Or.inr (Or.inr copy)
  · intro c member
    rw [copies] at member
    rcases mem_copies member with old | new
    · exact Or.inl old
    · obtain ⟨carried, noReply, _⟩ := Carried.of_hears hears dataOnly new
      exact Or.inr ⟨carried, noReply⟩

theorem turn (agreed : Agreed b) (synced : Synced b.m_master) {rxInProgress : Bool} {ev : Event} {master : Master}
    (queue : b.m_master.m_fsm.m_eventQueue = [ev]) (taken : TurnCase b.m_master rxInProgress ev master)
    (kept : ∀ line, GivesUp b.m_master line (.turn rxInProgress) → ¬ b.InUse line.m_address line.m_uniqueId) :
    Agreed { b with
      m_master := master, m_copies := b.m_copies ++ broadcast b.nodes.length (sentBy master.m_out) } := by
  have own := agreed.dataOnly b.m_master.m_node List.mem_cons_self
  have present : b.nodes[0]? = some b.m_master.m_node := rfl
  obtain ⟨same, dataOnly⟩ := face_turn taken own
  obtain ⟨identities, address⟩ := Prod.mk.inj same
  refine ⟨?_, ?_, ?_, ?_⟩
  · have ids := map_set_of_getElem? (f := (·.m_uniqueId)) present (congrArg Prod.fst identities)
    have nodup := agreed.ids
    rw [← ids] at nodup
    exact nodup
  · intro n member
    rcases List.mem_cons.mp member with rfl | client
    · exact dataOnly
    · exact agreed.dataOnly n (List.mem_cons_of_mem _ client)
  · intro c member
    rcases List.mem_append.mp member with old | new
    · exact agreed.carried c old
    · exact Carried.turn own taken c.2 (mem_broadcast new)
  · intro d u used proper
    by_cases told : reply d u ∈ sentBy master.m_out
    · exact keys_told taken own told
    · have before : b.InUse d u := by
        refine used.of_set proper present rfl identities (Or.inl address) ?_
        intro j member
        rcases List.mem_append.mp member with old | new
        · exact old
        · exact absurd (mem_broadcast new) told
      obtain ⟨isDynamic, key⟩ := agreed.lines before proper
      rcases keys_turn synced queue taken key with still | ⟨line, givesUp, lost⟩
      · exact ⟨isDynamic, still⟩
      · simp only [AddressLine.key, Prod.mk.injEq] at lost
        refine absurd ?_ (kept line givesUp)
        rw [lost.1, lost.2.2]
        exact before

theorem stimulus (agreed : Agreed b) {now : ℚ} {s : Stimulus} {master : Master} (local_ : Local (.stimulus now s))
    (taken : StimulusCase b.m_master now s master) :
    Agreed { b with
      m_master := master, m_copies := b.m_copies ++ broadcast b.nodes.length (sentBy master.m_out) } := by
  have own := agreed.dataOnly b.m_master.m_node List.mem_cons_self
  obtain ⟨same, dataOnly, keys, silent⟩ := stimulus_frame local_ taken own
  obtain ⟨identities, address⟩ := Prod.mk.inj same
  have present : b.nodes[0]? = some b.m_master.m_node := rfl
  refine agreed.of_set present rfl identities (Or.inl address) dataOnly ?_ keys
  intro c member
  rw [silent] at member
  exact Or.inl (by simpa [broadcast] using member)

theorem step (agreed : Agreed b) (synced : Synced b.m_master) {move : Move} (careful : b.Careful move)
    (step : Step b move b') : Agreed b' := by
  cases step with
  | @receive bb now stack master copy received =>
    rcases synced.step_cases received with ⟨_, _, turn, _⟩ | ⟨_, _, label, _, _, _, taken⟩
    · cases turn
    · cases label
      cases taken with
      | @packet _ _ node effects run =>
        have present : b.nodes[0]? = some b.m_master.m_node := rfl
        refine agreed.hear present copy ⟨stack, effects, run, rfl⟩ rfl ?_ rfl
        dsimp only
        rw [sentBy_outward]
  | master local_ moved =>
    rcases synced.step_cases moved with ⟨_, _, rfl, queue, taken⟩ | ⟨_, _, rfl, _, _, _, taken⟩
    · exact agreed.turn synced queue taken careful.2
    · exact agreed.stimulus local_ taken
  | @hear i bb n n' sent client copy hears =>
    have present : b.nodes[i + 1]? = some n := client
    exact agreed.hear present copy hears rfl rfl rfl
  | @lose i bb copy =>
    have present : b.nodes[0]? = some b.m_master.m_node := rfl
    refine agreed.of_set present rfl rfl (Or.inl rfl) (agreed.dataOnly _ List.mem_cons_self) ?_ rfl
    intro c member
    exact Or.inl (List.mem_of_mem_erase member)
  | @submit i n q client submits =>
    have present : b.nodes[i + 1]? = some n := client
    have dataOnly := agreed.dataOnly n (List.mem_of_getElem? present)
    refine agreed.of_set present rfl ?_ (Or.inl ?_) (submits.dataOnly dataOnly) (fun c member => Or.inl member) rfl
    · simp only [identity, dynamic, submits.ownAddress]
    · simp only [address, TxQueue.clientAddress, submits.ownAddress]

end Agreed

section Runs

variable {cfg : Config} {uninitialised : Nat → UniqueId} {own : PacketTypeCodec} {clients : List PacketTypeCodec}
  {now : ℚ} {m₀ : Master} {b : LossyBus}

/-- What the master goes through on the bus is a run of the master. -/
theorem master_reach (constructed : Master.start cfg own uninitialised now = .ok m₀)
    (run : LabelledReach Step Careful ⟨m₀, clients, []⟩ b) :
    Master.Reach (fun m l => ¬ m.LosesGrant l) cfg own uninitialised now b.m_master := by
  refine ⟨m₀, constructed, ?_⟩
  refine run.invariant (P := fun b => LabelledReach Master.Step (fun m l => ¬ m.LosesGrant l) m₀ b.m_master) .start ?_
  intro b b' move before careful step
  cases step with
  | receive _ received => exact .next before careful.1 received
  | master _ moved => exact .next before careful.1 moved
  | hear _ _ _ => exact before
  | lose _ => exact before
  | submit _ _ => exact before

theorem agreed_of_run (setup : Setup (own :: clients)) (constructed : Master.start cfg own uninitialised now = .ok m₀)
    (run : LabelledReach Step Careful ⟨m₀, clients, []⟩ b) : Agreed b := by
  induction run with
  | start =>
    rw [start_eq] at constructed
    cases constructed
    have fresh : ∀ n ∈ (started cfg own uninitialised now).m_node :: clients,
        n.m_txQueue.m_txMsg = [] ∧ (n.dynamic = true → n.address = LocalAddress.null_addr) := by
      intro n member
      rcases List.mem_cons.mp member with rfl | client
      · exact setup.fresh own List.mem_cons_self
      · exact setup.fresh n (List.mem_cons_of_mem _ client)
    refine ⟨setup.ids, ?_, by rintro _ ⟨⟩, ?_⟩
    · intro n member msg waiting
      rw [(fresh n member).1] at waiting
      cases waiting
    · rintro d u ⟨i, n, present, dynamic, _, mine | copy⟩ proper
      · exact absurd (mine.symm.trans ((fresh n (List.mem_of_getElem? present)).2 dynamic)) proper
      · cases copy
  | next before careful step ih => exact ih.step (master_reach constructed before).synced careful step

end Runs

/-- Master and clients agree on the addresses for as long as the master sees its token
grants and gives up no line whose address is in use. Every dynamic client with an
address has a line of its own under it, no two share one, and the address is polled. -/
theorem address_agreement (cfg : Config) (separate : cfg.Separate) (uninitialised : Nat → UniqueId)
    (own : PacketTypeCodec) (clients : List PacketTypeCodec) (setup : Setup (own :: clients)) (now : ℚ)
    (clock : 1 ≤ now) (m₀ : Master) (constructed : Master.start cfg own uninitialised now = .ok m₀) (b : LossyBus)
    (run : LabelledReach Step Careful ⟨m₀, clients, []⟩ b) :
    (∀ n ∈ b.nodes, n.dynamic = true → n.address ≠ LocalAddress.null_addr →
      (∃ line ∈ b.m_master.m_dynamicHandler.m_table, line.m_address = n.address ∧ line.m_uniqueId = n.m_uniqueId) ∧
        b.m_master.Polled n.address) ∧
    b.nodes.Pairwise fun n n' => n.dynamic = true → n'.dynamic = true → n.address ≠ LocalAddress.null_addr →
      n.address ≠ n'.address := by
  have reach := master_reach constructed run
  have agreed := agreed_of_run setup constructed run
  have key : ∀ n ∈ b.nodes, n.dynamic = true → n.address ≠ LocalAddress.null_addr →
      ∃ isDynamic, (n.address, isDynamic, n.m_uniqueId) ∈ b.m_master.m_dynamicHandler.keys := by
    intro n member dynamic proper
    obtain ⟨i, present⟩ := List.mem_iff_getElem?.mp member
    exact agreed.lines ⟨i, n, present, dynamic, rfl, Or.inl rfl⟩ proper
  refine ⟨?_, ?_⟩
  · intro n member dynamic proper
    obtain ⟨_, inTable⟩ := key n member dynamic proper
    obtain ⟨line, inside, same⟩ := List.mem_map.mp inTable
    simp only [AddressLine.key, Prod.mk.injEq] at same
    refine ⟨⟨line, inside, same.1, same.2.2⟩, reach.polled (fun _ _ kept => kept) separate clock ?_⟩
    rw [lines, ← same.1]
    exact List.mem_map_of_mem (f := (·.m_address)) inside
  · have ids := agreed.ids
    rw [List.Nodup, List.pairwise_map] at ids
    refine ids.imp_of_mem ?_
    intro n n' member member' apart dynamic dynamic' proper same
    obtain ⟨_, inTable⟩ := key n member dynamic proper
    obtain ⟨_, inTable'⟩ := key n' member' dynamic' (same ▸ proper)
    rw [← same] at inTable'
    exact apart (reach.oneToken.uniqueId_of_key separate inTable inTable')

/-! A client joins and misses its tokens -/

/-- The client's copy of a token is lost, and the master waits for its answer in
vain. -/
def missedToken (now : ℚ) (object : Nat) (a : LocalAddress) : List Move :=
  [.master (.turn false), .master (.stimulus now (.rxRawPacket (packet.GrantToken.fromHeader ⟨a⟩) sampleStack)),
    .master (.turn false), .lose 1 (packet.GrantToken.fromHeader ⟨a⟩),
    .master (.stimulus (now + 2 / 25) (.timer ⟨now + 2 / 25, object⟩)), .master (.turn false)]

/-- Both nodes hear a packet. -/
def heard (now : ℚ) (bb : ByteVec) : List Move := [.master (.stimulus now (.rxRawPacket bb sampleStack)), .hear 0 bb]

/-- The master starts, polls its static addresses, and gives the client address 33. -/
def joinScript : List Move :=
  [.master (.turn false)] ++ heard 1000 packet.masterStarted ++ [.master (.turn false)] ++
    missedToken 1000 5 1 ++ missedToken (1000 + 2 / 25) 8 2 ++ missedToken (1000 + 4 / 25) 11 3 ++
    [.master (.turn false)] ++ heard (1000 + 6 / 25) (packet.AddressDiscovery.fromHeader ⟨0, 0⟩) ++
    heard (1000 + 6 / 25) (packet.AddressRequest.fromHeader
      ⟨(sampleClient 0 3).m_uniqueId, sampleStack.1, sampleStack.2⟩) ++ [.master (.turn false)] ++
    heard (1000 + 6 / 25) (reply 33 (sampleClient 0 3).m_uniqueId)

/-- No grant is lost, and no dynamic line has missed enough to be given up. -/
def plainlyCareful (b : LossyBus) : Move → Bool
  | .master l => ¬ b.m_master.LosesGrant l ∧
      ∀ line ∈ b.m_master.m_dynamicHandler.m_table, line.m_isDynamic = true → line.m_badCount < 3
  | _ => true

theorem careful_of_plainly (b : LossyBus) (move : Move) (plain : plainlyCareful b move = true) : b.Careful move := by
  cases move with
  | master l =>
    obtain ⟨seen, few⟩ := of_decide_eq_true plain
    refine ⟨seen, ?_⟩
    intro line givesUp
    cases l with
    | stimulus => cases givesUp
    | turn rxInProgress =>
      obtain ⟨_, _, _, member, _, isDynamic, missed⟩ := givesUp
      have below := few line member isDynamic
      omega
  | _ => trivial

/-- The client has got its address, and the master a line for it. -/
theorem address_agreement_joined :
    ∃ b, LabelledReach Step Careful sampleNet b ∧ ∃ n ∈ b.nodes, n.dynamic = true ∧ n.address = 33 ∧
      (∃ line ∈ b.m_master.m_dynamicHandler.m_table, line.m_address = 33 ∧ line.m_uniqueId = n.m_uniqueId) ∧
      b.m_master.Polled 33 := by
  obtain ⟨b, run, shown⟩ := run_of_script Careful plainlyCareful careful_of_plainly sampleNet joinScript
    (fun b => ∃ n ∈ b.nodes, n.dynamic = true ∧ n.address = 33) (by decide +kernel)
  obtain ⟨n, member, dynamic, address⟩ := of_decide_eq_true shown
  have setup : Setup (sampleNode :: sampleNet.m_clients) := ⟨by decide, by decide⟩
  have agreement := address_agreement {} Config.separate_default _ _ _ setup 1000 (by norm_num) _
    (start_eq _ _ _ _) b run
  obtain ⟨line, polled⟩ := agreement.1 n member dynamic (by rw [address]; decide)
  rw [address] at line polled
  exact ⟨b, run, n, member, dynamic, address, line, polled⟩

/-- A search and a round of polls, which begin when the timer of the action handler
runs out. -/
def missedRound (discovery now : ℚ) (object : Nat) : List Move :=
  [.master (.stimulus discovery (.discovery discovery)), .master (.stimulus now (.delayAction now)),
    .master (.turn false)] ++ heard now (packet.AddressDiscovery.fromHeader ⟨0, 0⟩) ++
    [.master (.stimulus (now + 2 / 25) (.timer ⟨now + 2 / 25, object⟩)), .master (.turn false)] ++
    missedToken (now + 2 / 25) (object + 3) 1 ++ missedToken (now + 4 / 25) (object + 6) 2 ++
    missedToken (now + 6 / 25) (object + 9) 3 ++ missedToken (now + 8 / 25) (object + 12) 33

/-- The client misses four tokens in a row. -/
def evictScript : List Move :=
  joinScript ++ [.master (.stimulus (1000 + 8 / 25) (.timer ⟨1000 + 8 / 25, 14⟩)), .master (.turn false)] ++
    missedToken (1000 + 8 / 25) 17 33 ++ missedRound (1005 + 8 / 25) (1010 + 2 / 25) 19 ++
    missedRound (1015 + 4 / 25) (1020 + 6 / 25) 33 ++ missedRound (1025 + 8 / 25) (1030 + 10 / 25) 47

/-- After its fourth missed token the client has lost its line, but not its address. -/
theorem evicted_client_keeps_address :
    Setup (sampleNode :: sampleNet.m_clients) ∧
    Master.start {} sampleNode (fun _ => unsetId) 1000 = .ok sampleNet.m_master ∧ sampleNet.m_copies = [] ∧
    ∃ b, LabelledReach Step (fun _ _ => True) sampleNet b ∧ ∃ n ∈ b.nodes, n.dynamic = true ∧ n.address = 33 ∧
      ∀ line ∈ b.m_master.m_dynamicHandler.m_table, line.m_address ≠ n.address := by
  refine ⟨⟨by decide, by decide⟩, start_eq _ _ _ _, rfl, ?_⟩
  obtain ⟨b, run, shown⟩ := run_of_script (fun _ _ => True) (fun _ _ => true) (fun _ _ _ => trivial) sampleNet
    evictScript
    (fun b => ∃ n ∈ b.nodes, n.dynamic = true ∧ n.address = 33 ∧
      ∀ line ∈ b.m_master.m_dynamicHandler.m_table, line.m_address ≠ n.address) (by decide +kernel)
  exact ⟨b, run, of_decide_eq_true shown⟩

end SerialNet.LossyBus
