import SerialNet.Bus.StaticAddresses
import SerialNet.Bus.Traffic
import SerialNet.Master.RequestIds

namespace SerialNet

open PacketTypeCodec Master Bus

namespace LossyBus

/-- A node in its place is changed without a step of the bus. -/
def setNode (b : LossyBus) (n : PacketTypeCodec) : Nat → LossyBus
  | 0 => { b with m_master := { b.m_master with m_node := n } }
  | i + 1 => { b with m_clients := b.m_clients.set i n }

theorem setNode_nodes (b : LossyBus) (n : PacketTypeCodec) (i : Nat) : (b.setNode n i).nodes = b.nodes.set i n := by
  cases i <;> rfl

theorem setNode_copies (b : LossyBus) (n : PacketTypeCodec) (i : Nat) : (b.setNode n i).m_copies = b.m_copies := by
  cases i <;> rfl

/-- Whatever gets lost: an address that a node has or is told is one that it can have. -/
structure Ranged (cfg : Config) (uninitialised : Nat → UniqueId) (ns : List PacketTypeCodec) (b : LossyBus) :
    Prop where
  kept : Kept (ns.map part) b
  handler : DynamicHandler.Reach cfg uninitialised b.m_master.m_dynamicHandler
  replies : ∀ {i d u}, (i, reply d u) ∈ b.m_copies → d ∈ cfg.dynamicAddresses.map toLocalAddress
  held : ∀ n ∈ b.nodes, n.dynamic = true → n.address ≠ LocalAddress.null_addr →
    n.address ∈ cfg.dynamicAddresses.map toLocalAddress
  carried : ∀ c ∈ b.m_copies, Bus.Carried c.2

namespace Ranged

variable {cfg : Config} {uninitialised : Nat → UniqueId} {ns : List PacketTypeCodec} {b b' : LossyBus}

/-- One node takes part in a step. -/
theorem of_set (ranged : Ranged cfg uninitialised ns b) (kept : Kept (ns.map part) b')
    (handler : DynamicHandler.Reach cfg uninitialised b'.m_master.m_dynamicHandler) {i : Nat} {n n' : PacketTypeCodec}
    (present : b.nodes[i]? = some n) (nodes : b'.nodes = b.nodes.set i n') (dynamic : n'.dynamic = n.dynamic)
    (address : n'.address = n.address ∨ n'.address = LocalAddress.null_addr ∨
      (i, reply n'.address n.m_uniqueId) ∈ b.m_copies)
    (copies : ∀ c ∈ b'.m_copies, c ∈ b.m_copies ∨ Bus.Carried c.2 ∧
      ∀ d u, c.2 = reply d u → d ∈ cfg.dynamicAddresses.map toLocalAddress) :
    Ranged cfg uninitialised ns b' := by
  refine ⟨kept, handler, ?_, ?_, ?_⟩
  · intro j d u copy
    rcases copies _ copy with old | ⟨_, inside⟩
    · exact ranged.replies old
    · exact inside d u rfl
  · intro m member isDynamic proper
    rw [nodes] at member
    rcases List.mem_or_eq_of_mem_set member with old | rfl
    · exact ranged.held m old isDynamic proper
    · rcases address with same | null | told
      · rw [same] at proper ⊢
        exact ranged.held n (List.mem_of_getElem? present) (dynamic ▸ isDynamic) proper
      · exact absurd null proper
      · exact ranged.replies told
  · intro c member
    rcases copies c member with old | ⟨carried, _⟩
    · exact ranged.carried c old
    · exact carried

theorem hear (ranged : Ranged cfg uninitialised ns b) (kept : Kept (ns.map part) b')
    (handler : b'.m_master.m_dynamicHandler = b.m_master.m_dynamicHandler) {i : Nat} {bb : ByteVec}
    {n n' : PacketTypeCodec} {sent : List ByteVec} (present : b.nodes[i]? = some n) (copy : (i, bb) ∈ b.m_copies)
    (hears : Hears bb n n' sent) (nodes : b'.nodes = b.nodes.set i n')
    (copies : b'.m_copies = b.m_copies.erase (i, bb) ++ broadcast b.nodes.length sent) :
    Ranged cfg uninitialised ns b' := by
  refine ranged.of_set kept (handler ▸ ranged.handler) present nodes hears.dynamic ?_ ?_
  · rcases Bus.address_cases (ranged.carried _ copy) hears with same | ⟨_, null⟩ | told
    · exact Or.inl same
    · exact Or.inr (Or.inl null)
    · have promise : bb = reply n'.address n.m_uniqueId := told
      rw [promise] at copy
      exact Or.inr (Or.inr copy)
  · intro c member
    rw [copies] at member
    rcases mem_copies member with old | new
    · exact Or.inl old
    · obtain ⟨carried, noReply, _⟩ :=
        Bus.Carried.of_hears hears (ranged.kept.dataOnly n (List.mem_of_getElem? present)) new
      refine Or.inr ⟨carried, fun d u same => absurd ?_ noReply⟩
      rw [same]
      rfl

/-- The master gives out dynamic addresses only. The ids of its static lines are nobody's. -/
theorem told (setup : Bus.Setup cfg uninitialised ns) {m' : Master} (kept : Kept (ns.map part) b')
    (handler : DynamicHandler.Reach cfg uninitialised m'.m_dynamicHandler) {rxInProgress : Bool} {ev : Event}
    (taken : TurnCase b.m_master rxInProgress ev m') (dataOnly : DataOnly b.m_master.m_node.m_txQueue) {i : Nat}
    {d : LocalAddress} {u : UniqueId} (copy : (i, reply d u) ∈ b'.m_copies) (sent : reply d u ∈ sentBy m'.m_out) :
    d ∈ cfg.dynamicAddresses.map toLocalAddress := by
  obtain ⟨isDynamic, key⟩ := keys_told taken dataOnly sent
  cases isDynamic with
  | true => exact mem_dynamicAddresses handler key
  | false =>
    obtain ⟨line, member, same⟩ := List.mem_map.mp key
    simp only [AddressLine.key, Prod.mk.injEq] at same
    obtain ⟨k, static, id⟩ := (handler.static_id_iff u).mp ⟨line, member, same.2.1, same.2.2⟩
    have concerned := kept.copies _ copy u
      (Or.inr ⟨rfl, ⟨d, u⟩, packet.AddressReply.toHeader_fromHeader _, rfl⟩)
    obtain ⟨n, found, here⟩ := List.mem_map.mp concerned
    exact absurd ((congrArg Prod.fst here).trans id.symm) (setup.idsKnown n found k static)

theorem step (ranged : Ranged cfg uninitialised ns b) (setup : Bus.Setup cfg uninitialised ns)
    (distinct : Distinct (ns.map part)) {move : Move} (step : Step b move b') : Ranged cfg uninitialised ns b' := by
  have kept := ranged.kept.step distinct (.own step)
  cases step with
  | @receive bb now stack master copy received =>
    rcases ranged.kept.synced.step_cases received with ⟨_, _, turn, _⟩ | ⟨_, _, label, _, _, _, taken⟩
    · cases turn
    · cases label
      cases taken with
      | @packet _ _ node effects run =>
        have present : b.nodes[0]? = some b.m_master.m_node := rfl
        refine ranged.hear kept rfl present copy ⟨stack, effects, run, rfl⟩ rfl ?_
        dsimp only
        rw [sentBy_outward]
  | @master l master local_ moved =>
    have present : b.nodes[0]? = some b.m_master.m_node := rfl
    have own := ranged.kept.dataOnly b.m_master.m_node List.mem_cons_self
    rcases ranged.kept.synced.step_cases moved with ⟨_, _, rfl, queue, taken⟩ | ⟨_, _, rfl, _, _, _, taken⟩
    · obtain ⟨same, _⟩ := face_turn taken own
      obtain ⟨identities, address⟩ := Prod.mk.inj same
      have handler := taken.handler ranged.handler
      refine ranged.of_set kept handler present rfl (congrArg Prod.snd identities) (Or.inl address) ?_
      intro c member
      rcases List.mem_append.mp member with old | new
      · exact Or.inl old
      · refine Or.inr ⟨Bus.Carried.turn own taken c.2 (mem_broadcast new), ?_⟩
        intro d u same
        have sent := mem_broadcast new
        obtain ⟨i, bb⟩ := c
        cases same
        exact told setup kept handler taken own member sent
    · obtain ⟨same, _, _, silent⟩ := stimulus_frame local_ taken own
      obtain ⟨identities, address⟩ := Prod.mk.inj same
      refine ranged.of_set kept (taken.handler ranged.handler) present rfl (congrArg Prod.snd identities)
        (Or.inl address) ?_
      intro c member
      rw [silent] at member
      exact Or.inl (by simpa [broadcast] using member)
  | @hear i bb n n' sent client copy hears =>
    have present : b.nodes[i + 1]? = some n := client
    exact ranged.hear kept rfl present copy hears rfl rfl
  | @lose i bb copy =>
    have present : b.nodes[0]? = some b.m_master.m_node := rfl
    refine ranged.of_set kept ranged.handler present rfl rfl (Or.inl rfl) ?_
    intro c member
    exact Or.inl (List.mem_of_mem_erase member)
  | @submit i n q client submits =>
    have present : b.nodes[i + 1]? = some n := client
    refine ranged.of_set kept ranged.handler present rfl ?_ (Or.inl ?_) (fun c member => Or.inl member)
    · simp only [dynamic, submits.ownAddress]
    · simp only [address, TxQueue.clientAddress, submits.ownAddress]

/-- The host of a node changes what is not the bus's business, or submits something. -/
theorem setNode (ranged : Ranged cfg uninitialised ns b) {i : Nat} {n n' : PacketTypeCodec}
    (present : b.nodes[i]? = some n) (same : face n' = face n) (registered : n'.m_master = n.m_master)
    (dataOnly : DataOnly n'.m_txQueue) : Ranged cfg uninitialised ns (b.setNode n' i) := by
  obtain ⟨identities, address⟩ := Prod.mk.inj same
  have handler : (b.setNode n' i).m_master.m_dynamicHandler = b.m_master.m_dynamicHandler := by
    cases i <;> rfl
  have events : (b.setNode n' i).m_master.m_fsm = b.m_master.m_fsm := by
    cases i <;> rfl
  have synced : Synced (b.setNode n' i).m_master := by
    cases i with
    | zero =>
      cases present
      have old := ranged.kept.synced
      exact ⟨registered.trans old.registered, old.settled, old.sameAction, old.queuedPosted, old.currentPosted,
        old.single, old.fresh, old.fits⟩
    | succ i => exact ranged.kept.synced
  have copies : ∀ c ∈ (b.setNode n' i).m_copies, c ∈ b.m_copies := by
    rw [setNode_copies]
    exact fun _ member => member
  have kept : Kept (ns.map part) (b.setNode n' i) := by
    refine ranged.kept.of_set present (setNode_nodes b n' i) (part_of_face same) synced dataOnly
      (fun c member => Or.inl (copies c member)) ?_
    rw [events]
    exact ranged.kept.asked
  exact ranged.of_set kept (handler ▸ ranged.handler) present (setNode_nodes b n' i) (congrArg Prod.snd identities)
    (Or.inl address) fun c member => Or.inl (copies c member)

/-- The address of a node is one that the node can have. -/
theorem sender (ranged : Ranged cfg uninitialised ns b) {i : Nat} {n : PacketTypeCodec} (here : b.nodes[i]? = some n)
    (proper : n.address ≠ LocalAddress.null_addr) : Sender cfg ns i n.address := by
  have kept := congrArg (fun l => l[i]?) ranged.kept.nodes
  simp only [List.getElem?_map, here, Option.map_some] at kept
  obtain ⟨n₀, there, same⟩ := Option.map_eq_some_iff.mp kept.symm
  have sameFixed : fixed n₀ = fixed n := congrArg Prod.snd same
  refine ⟨n₀, there, ?_, ?_⟩
  · intro static
    rw [fixed_static static] at sameFixed
    unfold fixed at sameFixed
    split at sameFixed
    · cases sameFixed
    · exact (Option.some.inj sameFixed).symm
  · intro dynamic
    rw [fixed_dynamic dynamic] at sameFixed
    have dynamic' : n.dynamic = true := by
      by_contra static
      rw [fixed_static (Bool.eq_false_iff.mpr static)] at sameFixed
      cases sameFixed
    exact ranged.held n (List.mem_of_getElem? here) dynamic' proper

theorem start {own : PacketTypeCodec} {clients : List PacketTypeCodec}
    (setup : Bus.Setup cfg uninitialised (own :: clients)) (now : ℚ) :
    Ranged cfg uninitialised (own :: clients) ⟨started cfg own uninitialised now, clients, []⟩ := by
  have built : Constructed (own :: clients) := ⟨by
    rw [List.Nodup, List.pairwise_map]
    exact setup.idsDistinct, setup.fresh⟩
  have run : LabelledReach OpenStep (fun _ _ => True) ⟨started cfg own uninitialised now, clients, []⟩
      ⟨started cfg own uninitialised now, clients, []⟩ := .start
  refine ⟨kept_of_run built (start_eq _ _ _ _) run, .start, by rintro _ _ _ ⟨⟩, ?_,
    by rintro _ ⟨⟩⟩
  intro n member dynamic proper
  have fresh : (n.dynamic = true ↔ n.address = LocalAddress.null_addr) := by
    rcases List.mem_cons.mp member with rfl | client
    · exact (setup.fresh own List.mem_cons_self).2
    · exact (setup.fresh n (List.mem_cons_of_mem _ client)).2
  exact absurd (fresh.mp dynamic) proper

end Ranged

end LossyBus

end SerialNet
