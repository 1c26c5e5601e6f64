import SerialNet.Bus.Addressing
import SerialNet.Bus.Exclusion
import SerialNet.Client

namespace SerialNet.LossyBus

open PacketTypeCodec Master Bus

/-- The bus with strangers on it: packets turn up that none of the parties has sent,
but neither requests for an address nor replies to them. -/
inductive OpenStep : LossyBus → Option Move → LossyBus → Prop
  | own {b move b'} : Step b move b' → OpenStep b (some move) b'
  | foreign {b : LossyBus} {i bb} : kind bb ≠ some .address_request → kind bb ≠ some .address_reply →
      OpenStep b none { b with m_copies := b.m_copies ++ [(i, bb)] }

/-- The packet a node hears in a step, and the place of the node. -/
def hearing : Option Move → Option (Nat × ByteVec)
  | some (.master (.stimulus _ (.rxRawPacket bb _))) => some (0, bb)
  | some (.hear i bb) => some (i + 1, bb)
  | _ => none

theorem hearing_local {l : Label} (local_ : Local l) : hearing (some (.master l)) = none := by
  unfold Local at local_
  split at local_
  · cases local_
  · rename_i noPacket
    unfold hearing
    split
    · rename_i same
      cases same
      exact absurd rfl (noPacket _ _ _)
    · rename_i same
      cases same
    · rfl

/-- A request made with the id. -/
def Requests (u : UniqueId) (bb : ByteVec) : Prop :=
  kind bb = some .address_request ∧ ∃ r, packet.AddressRequest.toHeader bb = some r ∧ r.m_uniqueId = u

/-- A reply that carries the id. -/
def Answers (u : UniqueId) (bb : ByteVec) : Prop :=
  kind bb = some .address_reply ∧ ∃ p, packet.AddressReply.toHeader bb = some p ∧ p.m_uniqueId = u

/-- A node hears a reply that carries the id. -/
def Answered (i : Nat) (u : UniqueId) (move : Option Move) : Prop :=
  ∃ bb, hearing move = some (i, bb) ∧ Answers u bb

/-- How the nodes begin: with distinct ids and nothing to send. The dynamic ones are
those without an address. -/
structure Constructed (nodes : List PacketTypeCodec) : Prop where
  ids : (nodes.map (·.m_uniqueId)).Nodup
  fresh : ∀ n ∈ nodes, n.m_txQueue.m_txMsg = [] ∧ (n.dynamic = true ↔ n.address = LocalAddress.null_addr)

/-! What a packet does to the address of a node -/

section Hears

variable {bb : ByteVec} {n n' : PacketTypeCodec} {sent : List ByteVec}

theorem hears_cases (hears : Hears bb n n' sent) :
    n'.address = n.address ∨ n.dynamic = true ∧ n'.address = LocalAddress.null_addr ∨ Answers n.m_uniqueId bb := by
  rcases hears.address_cases with same | forgotten | ⟨type, p, header, mine, _⟩
  · exact Or.inl same
  · exact Or.inr (Or.inl forgotten)
  · exact Or.inr (Or.inr ⟨type, p, header, mine⟩)

/-- A dynamic node has no address once it has heard that the master starts. -/
theorem forgets (hears : Hears bb n n' sent) (type : kind bb = some .master_started) (dynamic : n.dynamic = true) :
    n'.address = LocalAddress.null_addr := by
  obtain ⟨stack, effects, run, _⟩ := hears
  have flag : n.m_txQueue.m_ownAddress.m_dynamic = true := dynamic
  rw [address, (rxRawPacket_started type run).1]
  simp [TxQueue.masterStarted, OwnAddress.masterStarted, flag, OwnAddress.set, TxQueue.clientAddress]

end Hears

/-! Requests and replies are for dynamic nodes -/

/-- What never changes about a node: its id, and its address if it is static. -/
def part (n : PacketTypeCodec) : UniqueId × Option LocalAddress := (n.m_uniqueId, fixed n)

theorem part_of_face {n n' : PacketTypeCodec} (same : face n' = face n) : part n' = part n := by
  obtain ⟨identities, address⟩ := Prod.mk.inj same
  obtain ⟨id, dynamic⟩ := Prod.mk.inj identities
  rw [part, part, fixed, fixed, id, dynamic, address]

/-- The nodes have distinct ids, and the static ones an address. -/
structure Distinct (parts : List (UniqueId × Option LocalAddress)) : Prop where
  ids : (parts.map Prod.fst).Nodup
  usable : ∀ {u a}, (u, some a) ∈ parts → a ≠ LocalAddress.null_addr

/-- Whoever a packet concerns as a request or a reply is dynamic. -/
def Concerns (parts : List (UniqueId × Option LocalAddress)) (bb : ByteVec) : Prop :=
  ∀ u, Requests u bb ∨ Answers u bb → (u, none) ∈ parts

section Concerns

variable {parts : List (UniqueId × Option LocalAddress)} {bb : ByteVec}

theorem Concerns.of_kind (noRequest : kind bb ≠ some .address_request) (noReply : kind bb ≠ some .address_reply) :
    Concerns parts bb := by
  rintro u (⟨request, _⟩ | ⟨reply, _⟩)
  · exact absurd request noRequest
  · exact absurd reply noReply

theorem Concerns.request {r : packet.AddressRequest} (dynamic : (r.m_uniqueId, none) ∈ parts) :
    Concerns parts r.fromHeader := by
  rintro u (⟨_, r', header, rfl⟩ | ⟨reply, _⟩)
  · rw [packet.AddressRequest.toHeader_fromHeader] at header
    cases header
    exact dynamic
  · cases reply

theorem Concerns.reply {d : LocalAddress} {u : UniqueId} (dynamic : (u, none) ∈ parts) :
    Concerns parts (reply d u) := by
  rintro u' (⟨request, _⟩ | ⟨_, p, header, rfl⟩)
  · cases request
  · rw [Bus.reply, packet.AddressReply.toHeader_fromHeader] at header
    cases header
    exact dynamic

theorem Distinct.eq_none (distinct : Distinct parts) {n : PacketTypeCodec} (member : part n ∈ parts)
    (dynamic : (n.m_uniqueId, none) ∈ parts) : fixed n = none :=
  congrArg Prod.snd (List.inj_on_of_nodup_map distinct.ids member dynamic rfl)

variable {n n' : PacketTypeCodec} {sent : List ByteVec}

/-- No packet that is on the bus makes a static node change its address. -/
theorem part_hears (distinct : Distinct parts) (member : part n ∈ parts) (concerns : Concerns parts bb)
    (hears : Hears bb n n' sent) : part n' = part n := by
  rw [part, part, hears.uniqueId, Prod.mk.injEq]
  refine ⟨rfl, ?_⟩
  by_cases dynamic : n.dynamic = true
  · rw [fixed_dynamic dynamic, fixed_dynamic (hears.dynamic.trans dynamic)]
  · have static := Bool.eq_false_iff.mpr dynamic
    rw [fixed_static static, fixed_static (hears.dynamic.trans static), Option.some.injEq]
    rcases hears_cases hears with same | ⟨dynamic', _⟩ | answers
    · exact same
    · exact absurd dynamic' dynamic
    · have none := distinct.eq_none member (concerns _ (Or.inr answers))
      rw [fixed_static static] at none
      cases none

/-- Only dynamic nodes ask for an address, because only they are ever without one. -/
theorem Concerns.of_hears (distinct : Distinct parts) (member : part n ∈ parts) (dataOnly : DataOnly n.m_txQueue)
    (hears : Hears bb n n' sent) {x : ByteVec} (inside : x ∈ sent) : Concerns parts x := by
  rcases hears.sends dataOnly inside with response | ⟨null, r, id, rfl⟩
  · obtain ⟨_, noReply, noRequest, _, _⟩ := kind_isResponse response
    exact .of_kind noRequest noReply
  · refine .request ?_
    rw [id]
    by_cases dynamic : n.dynamic = true
    · rw [part, fixed_dynamic dynamic] at member
      exact member
    · rw [part, fixed_static (Bool.eq_false_iff.mpr dynamic)] at member
      exact absurd null (distinct.usable member)

/-- The master answers the request it has been told of, and asks for nothing itself. -/
theorem Concerns.turn {m m' : Master} {rxInProgress : Bool} {ev : Event} (dataOnly : DataOnly m.m_node.m_txQueue)
    (taken : TurnCase m rxInProgress ev m')
    (asked : ∀ aReq, ev = .rx_pkt_address_request aReq → (aReq.m_uniqueId, none) ∈ parts) :
    ∀ x ∈ sentBy m'.m_out, Concerns parts x := by
  intro x sent
  rcases sent_turn dataOnly taken sent with response | ⟨a, rfl⟩ | discovery | rfl | ⟨aReq, d, request, rfl⟩
  · obtain ⟨_, noReply, noRequest, _, _⟩ := kind_isResponse response
    exact .of_kind noRequest noReply
  · exact .of_kind (by simp) (by simp)
  · exact .of_kind (by simp [discovery]) (by simp [discovery])
  · exact .of_kind (by simp) (by simp)
  · exact .reply (asked aReq request)

end Concerns

/-- The nodes are those of the beginning, and every request and every reply, on the bus
or in the event queue of the master, is for a dynamic one. -/
structure Kept (parts : List (UniqueId × Option LocalAddress)) (b : LossyBus) : Prop where
  nodes : b.nodes.map part = parts
  synced : Synced b.m_master
  dataOnly : ∀ n ∈ b.nodes, DataOnly n.m_txQueue
  copies : ∀ c ∈ b.m_copies, Concerns parts c.2
  asked : ∀ aReq, .rx_pkt_address_request aReq ∈ b.m_master.m_fsm.m_eventQueue → (aReq.m_uniqueId, none) ∈ parts

namespace Kept

variable {parts : List (UniqueId × Option LocalAddress)} {b b' : LossyBus}

theorem part_mem (kept : Kept parts b) {n : PacketTypeCodec} (member : n ∈ b.nodes) : part n ∈ parts := by
  rw [← kept.nodes]
  exact List.mem_map_of_mem member

/-- One node changes, and packets are sent. -/
theorem of_set (kept : Kept parts b) {i : Nat} {n n' : PacketTypeCodec} (present : b.nodes[i]? = some n)
    (nodes : b'.nodes = b.nodes.set i n') (same : part n' = part n) (synced : Synced b'.m_master)
    (dataOnly : DataOnly n'.m_txQueue) (copies : ∀ c ∈ b'.m_copies, c ∈ b.m_copies ∨ Concerns parts c.2)
    (asked : ∀ aReq, .rx_pkt_address_request aReq ∈ b'.m_master.m_fsm.m_eventQueue →
      (aReq.m_uniqueId, none) ∈ parts) : Kept parts b' := by
  refine ⟨?_, synced, ?_, ?_, asked⟩
  · rw [nodes, map_set_of_getElem? present same]
    exact kept.nodes
  · intro m member
    rw [nodes] at member
    rcases List.mem_or_eq_of_mem_set member with old | rfl
    · exact kept.dataOnly m old
    · exact dataOnly
  · intro c member
    rcases copies c member with old | new
    · exact kept.copies c old
    · exact new

theorem hear (kept : Kept parts b) (distinct : Distinct parts) {i : Nat} {bb : ByteVec} {n n' : PacketTypeCodec}
    {sent : List ByteVec} (present : b.nodes[i]? = some n) (copy : (i, bb) ∈ b.m_copies) (hears : Hears bb n n' sent)
    (nodes : b'.nodes = b.nodes.set i n')
    (copies : b'.m_copies = b.m_copies.erase (i, bb) ++ broadcast b.nodes.length sent) (synced : Synced b'.m_master)
    (asked : ∀ aReq, .rx_pkt_address_request aReq ∈ b'.m_master.m_fsm.m_eventQueue →
      (aReq.m_uniqueId, none) ∈ parts) : Kept parts b' := by
  have inside := List.mem_of_getElem? present
  have dataOnly := kept.dataOnly n inside
  refine kept.of_set present nodes (part_hears distinct (kept.part_mem inside) (kept.copies _ copy) hears) synced
    (hears.dataOnly dataOnly) ?_ asked
  intro c member
  rw [copies] at member
  exact (mem_copies member).imp_right (Concerns.of_hears distinct (kept.part_mem inside) dataOnly hears)

theorem turn (kept : Kept parts b) {rxInProgress : Bool} {ev : Event} {master : Master}
    (queue : b.m_master.m_fsm.m_eventQueue = [ev]) (taken : TurnCase b.m_master rxInProgress ev master) :
    Kept parts { b with
      m_master := master, m_copies := b.m_copies ++ broadcast b.nodes.length (sentBy master.m_out) } := by
  have own := kept.dataOnly b.m_master.m_node List.mem_cons_self
  have present : b.nodes[0]? = some b.m_master.m_node := rfl
  obtain ⟨same, dataOnly⟩ := face_turn taken own
  refine kept.of_set present rfl (part_of_face same) (kept.synced.turn queue taken) dataOnly ?_ ?_
  · intro c member
    refine (List.mem_append.mp member).imp_right fun new => Concerns.turn own taken ?_ c.2 (mem_broadcast new)
    rintro aReq rfl
    exact kept.asked aReq (by rw [queue]; exact List.mem_singleton_self _)
  · intro aReq request
    rcases taken.eventQueue queue with none | check
    · rw [none] at request
      cases request
    · rw [check, List.mem_singleton] at request
      cases request

theorem stimulus (kept : Kept parts b) {now : ℚ} {s : Stimulus} {master : Master} (local_ : Local (.stimulus now s))
    (queue : b.m_master.m_fsm.m_eventQueue = []) (taken : StimulusCase b.m_master now s master) :
    Kept parts { b with
      m_master := master, m_copies := b.m_copies ++ broadcast b.nodes.length (sentBy master.m_out) } := by
  have own := kept.dataOnly b.m_master.m_node List.mem_cons_self
  have present : b.nodes[0]? = some b.m_master.m_node := rfl
  obtain ⟨same, dataOnly, _, silent⟩ := stimulus_frame local_ taken own
  refine kept.of_set present rfl (part_of_face same) (kept.synced.stimulus queue taken) dataOnly ?_ ?_
  · intro c member
    rw [silent] at member
    exact Or.inl (by simpa [broadcast] using member)
  · intro aReq request
    exact absurd request (stimulus_no_request local_ queue taken aReq)

/-- The master is told of the requests that it hears. -/
theorem receive (kept : Kept parts b) (distinct : Distinct parts) {now : ℚ} {bb : ByteVec}
    {stack : ChannelType × Crc32} {master : Master} (copy : (0, bb) ∈ b.m_copies)
    (queue : b.m_master.m_fsm.m_eventQueue = [])
    (taken : StimulusCase b.m_master now (.rxRawPacket bb stack) master) :
    Kept parts { b with
      m_master := master
      m_copies := b.m_copies.erase (0, bb) ++ broadcast b.nodes.length (sentBy master.m_out) } := by
  have synced := kept.synced.stimulus queue taken
  cases taken with
  | @packet _ _ node effects run =>
    have present : b.nodes[0]? = some b.m_master.m_node := rfl
    refine kept.hear distinct present copy ⟨stack, effects, run, rfl⟩ rfl ?_ synced ?_
    · dsimp only
      rw [sentBy_outward]
    · intro aReq request
      obtain ⟨_, _, _, told⟩ := rxRawPacket_reaction run
      dsimp only at request
      rw [filterMap_masterEvent kept.synced.registered told, Option.mem_toList, packetEvent] at request
      split at request
      · obtain ⟨type, named, event⟩ := Option.bind_eq_some_iff.mp request
        cases type <;> simp only [eventOf, reduceCtorEq, Option.some.injEq, Option.map_eq_some_iff,
          Event.rx_pkt_address_request.injEq] at event
        obtain ⟨r, header, rfl⟩ := event
        exact kept.copies _ copy _ (Or.inl ⟨named, r, header, rfl⟩)
      · cases request

theorem step (kept : Kept parts b) (distinct : Distinct parts) {move : Option Move} (step : OpenStep b move b') :
    Kept parts b' := by
  cases step with
  | foreign noRequest noReply =>
    refine ⟨kept.nodes, kept.synced, kept.dataOnly, ?_, kept.asked⟩
    intro c member
    rcases List.mem_append.mp member with old | new
    · exact kept.copies c old
    · rw [List.mem_singleton.mp new]
      exact .of_kind noRequest noReply
  | own taken =>
    cases taken with
    | receive copy received =>
      rcases kept.synced.step_cases received with ⟨_, _, turn, _⟩ | ⟨_, _, label, queue, _, _, taken⟩
      · cases turn
      · cases label
        exact kept.receive distinct copy queue taken
    | master local_ moved =>
      rcases kept.synced.step_cases moved with ⟨_, _, rfl, queue, taken⟩ | ⟨_, _, rfl, queue, _, _, taken⟩
      · exact kept.turn queue taken
      · exact kept.stimulus local_ queue taken
    | @hear i bb n n' sent client copy hears =>
      have present : b.nodes[i + 1]? = some n := client
      exact kept.hear distinct present copy hears rfl rfl kept.synced kept.asked
    | lose copy =>
      refine ⟨kept.nodes, kept.synced, kept.dataOnly, ?_, kept.asked⟩
      intro c member
      exact kept.copies c (List.mem_of_mem_erase member)
    | @submit i n q client submits =>
      have present : b.nodes[i + 1]? = some n := client
      refine kept.of_set present rfl ?_ kept.synced ?_ (fun c member => Or.inl member) kept.asked
      · refine part_of_face ?_
        simp only [face, identity, address, dynamic, TxQueue.clientAddress, submits.ownAddress]
      · exact submits.dataOnly (kept.dataOnly n (List.mem_of_getElem? present))

/-- A node keeps its address in every step in which it hears nothing. -/
theorem node (kept : Kept parts b) {move : Option Move} (step : OpenStep b move b') {i : Nat} {n : PacketTypeCodec}
    (present : b.nodes[i]? = some n) :
    ∃ n', b'.nodes[i]? = some n' ∧ (n'.address = n.address ∧ (∀ bb, hearing move ≠ some (i, bb)) ∨
      ∃ bb sent, hearing move = some (i, bb) ∧ Hears bb n n' sent) := by
  have quiet : hearing move = none → ∀ bb, hearing move ≠ some (i, bb) := by
    intro none bb here
    rw [none] at here
    cases here
  have elsewhere : ∀ {j : Nat} {bb : ByteVec}, hearing move = some (j, bb) → j ≠ i →
      ∀ bb, hearing move ≠ some (i, bb) := by
    intro j bb there other bb' here
    rw [there] at here
    cases here
    exact other rfl
  have own := kept.dataOnly b.m_master.m_node List.mem_cons_self
  cases step with
  | foreign _ _ => exact ⟨n, present, Or.inl ⟨rfl, quiet rfl⟩⟩
  | own taken =>
    cases taken with
    | @receive bb now stack master copy received =>
      rcases kept.synced.step_cases received with ⟨_, _, turn, _⟩ | ⟨_, _, label, _, _, _, taken⟩
      · cases turn
      · cases label
        cases taken with
        | @packet _ _ node effects run =>
          cases i with
          | zero =>
            cases Option.some.inj present
            exact ⟨node, rfl, Or.inr ⟨bb, _, rfl, stack, effects, run, rfl⟩⟩
          | succ i => exact ⟨n, present, Or.inl ⟨rfl, elsewhere rfl (Nat.succ_ne_zero i).symm⟩⟩
    | @master l master local_ moved =>
      have same : face master.m_node = face b.m_master.m_node := by
        rcases kept.synced.step_cases moved with ⟨_, _, rfl, _, taken⟩ | ⟨_, _, rfl, _, _, _, taken⟩
        · exact (face_turn taken own).1
        · exact (stimulus_frame local_ taken own).1
      cases i with
      | zero =>
        cases Option.some.inj present
        exact ⟨master.m_node, rfl, Or.inl ⟨congrArg Prod.snd same, quiet (hearing_local local_)⟩⟩
      | succ i => exact ⟨n, present, Or.inl ⟨rfl, quiet (hearing_local local_)⟩⟩
    | @hear j bb n₁ n₁' sent client _ hears =>
      have place : b.nodes[j + 1]? = some n₁ := client
      by_cases here : j + 1 = i
      · subst here
        cases Option.some.inj (place.symm.trans present)
        have inside := (List.getElem?_eq_some_iff.mp client).1
        exact ⟨n₁', List.getElem?_set_self inside, Or.inr ⟨bb, sent, rfl, hears⟩⟩
      · have after : (b.nodes.set (j + 1) n₁')[i]? = some n := by
          rw [List.getElem?_set_ne here]
          exact present
        exact ⟨n, after, Or.inl ⟨rfl, elsewhere rfl here⟩⟩
    | lose _ => exact ⟨n, present, Or.inl ⟨rfl, quiet rfl⟩⟩
    | @submit j n₁ q client submits =>
      have place : b.nodes[j + 1]? = some n₁ := client
      by_cases here : j + 1 = i
      · subst here
        cases Option.some.inj (place.symm.trans present)
        have inside := (List.getElem?_eq_some_iff.mp client).1
        refine ⟨{ n with m_txQueue := q }, List.getElem?_set_self inside, Or.inl ⟨?_, quiet rfl⟩⟩
        simp only [address, TxQueue.clientAddress, submits.ownAddress]
      · have after : (b.nodes.set (j + 1) { n₁ with m_txQueue := q })[i]? = some n := by
          rw [List.getElem?_set_ne here]
          exact present
        exact ⟨n, after, Or.inl ⟨rfl, quiet rfl⟩⟩

end Kept

section Runs

variable {cfg : Config} {uninitialised : Nat → UniqueId} {own : PacketTypeCodec} {clients : List PacketTypeCodec}
  {now : ℚ} {m₀ : Master} {b b' : LossyBus} {allowed : LossyBus → Option Move → Prop}

theorem Constructed.distinct {nodes : List PacketTypeCodec} (built : Constructed nodes) :
    Distinct (nodes.map part) := by
  refine ⟨?_, ?_⟩
  · rw [List.map_map]
    exact built.ids
  · intro u a member null
    obtain ⟨n, inside, same⟩ := List.mem_map.mp member
    obtain ⟨_, kept⟩ := Prod.mk.inj same
    by_cases dynamic : n.dynamic = true
    · rw [fixed_dynamic dynamic] at kept
      cases kept
    · rw [fixed_static (Bool.eq_false_iff.mpr dynamic)] at kept
      cases kept
      exact dynamic ((built.fresh n inside).2.mpr null)

theorem Kept.run {parts : List (UniqueId × Option LocalAddress)} (kept : Kept parts b) (distinct : Distinct parts)
    (run : LabelledReach OpenStep allowed b b') : Kept parts b' :=
  run.invariant kept fun before _ step => before.step distinct step

theorem kept_of_run (built : Constructed (own :: clients))
    (constructed : Master.start cfg own uninitialised now = .ok m₀)
    (run : LabelledReach OpenStep allowed ⟨m₀, clients, []⟩ b) : Kept ((own :: clients).map part) b := by
  refine Kept.run ?_ built.distinct run
  rw [start_eq] at constructed
  cases constructed
  refine ⟨rfl, started_synced cfg own uninitialised now, ?_, by rintro _ ⟨⟩, ?_⟩
  · intro n member msg waiting
    have none : n.m_txQueue.m_txMsg = [] := by
      rcases List.mem_cons.mp member with rfl | client
      · exact (built.fresh own List.mem_cons_self).1
      · exact (built.fresh n (List.mem_cons_of_mem _ client)).1
    rw [none] at waiting
    cases waiting
  · intro aReq request
    cases List.mem_singleton.mp request

/-- Every node is still in its place. -/
theorem Kept.at {ns : List PacketTypeCodec} (kept : Kept (ns.map part) b) {i : Nat} {n₀ : PacketTypeCodec}
    (present : ns[i]? = some n₀) : ∃ n, b.nodes[i]? = some n ∧ part n = part n₀ := by
  have here : (b.nodes.map part)[i]? = some (part n₀) := by
    rw [kept.nodes, List.getElem?_map, present, Option.map_some]
  rw [List.getElem?_map] at here
  exact Option.map_eq_some_iff.mp here

/-- A node without an address gets one only by a reply that carries its id. -/
theorem Kept.null_run {ns : List PacketTypeCodec} (kept : Kept (ns.map part) b) (distinct : Distinct (ns.map part))
    {i : Nat} {n₀ n : PacketTypeCodec} (known : ns[i]? = some n₀) (present : b.nodes[i]? = some n)
    (null : n.address = LocalAddress.null_addr)
    (run : LabelledReach OpenStep (fun _ move => ¬ Answered i n₀.m_uniqueId move) b b') :
    ∃ n', b'.nodes[i]? = some n' ∧ n'.address = LocalAddress.null_addr := by
  induction run with
  | start => exact ⟨n, present, null⟩
  | @next s t move before unanswered step ih =>
    obtain ⟨n₁, there, null₁⟩ := ih
    have kept₁ := kept.run distinct before
    obtain ⟨n₂, after, ⟨same, _⟩ | ⟨bb, sent, heard, hears⟩⟩ := kept₁.node step there
    · exact ⟨n₂, after, same.trans null₁⟩
    · refine ⟨n₂, after, ?_⟩
      rcases hears_cases hears with same | ⟨_, forgotten⟩ | answers
      · exact same.trans null₁
      · exact forgotten
      · obtain ⟨n₁', there', same⟩ := kept₁.at known
        cases Option.some.inj (there.symm.trans there')
        rw [show n₁.m_uniqueId = n₀.m_uniqueId from congrArg Prod.fst same] at answers
        exact absurd ⟨bb, heard, answers⟩ unanswered

end Runs

/-- A static address is for good: the node never changes it, and nothing on the bus asks
for an address in its name or gives it one. A dynamic node is without an address from
every start of the master that it hears until it hears a reply with its own id. -/
theorem static_permanent_dynamic_reset (cfg : Config) (uninitialised : Nat → UniqueId) (own : PacketTypeCodec)
    (clients : List PacketTypeCodec) (built : Constructed (own :: clients)) (now : ℚ) (m₀ : Master)
    (constructed : Master.start cfg own uninitialised now = .ok m₀) (b : LossyBus)
    (run : LabelledReach OpenStep (fun _ _ => True) ⟨m₀, clients, []⟩ b) (i : Nat) (n₀ : PacketTypeCodec)
    (known : (own :: clients)[i]? = some n₀) :
    (n₀.address ≠ LocalAddress.null_addr → (∃ n, b.nodes[i]? = some n ∧ n.address = n₀.address) ∧
      ∀ c ∈ b.m_copies, ¬ Requests n₀.m_uniqueId c.2 ∧ ¬ Answers n₀.m_uniqueId c.2) ∧
    (n₀.address = LocalAddress.null_addr → ∀ move bb b₁, OpenStep b move b₁ → hearing move = some (i, bb) →
      kind bb = some .master_started →
      ∀ b₂, LabelledReach OpenStep (fun _ later => ¬ Answered i n₀.m_uniqueId later) b₁ b₂ →
        ∃ n, b₂.nodes[i]? = some n ∧ n.address = LocalAddress.null_addr) := by
  have kept := kept_of_run built constructed run
  have fresh := (built.fresh n₀ (List.mem_of_getElem? known)).2
  obtain ⟨n, present, same⟩ := kept.at known
  obtain ⟨id, address⟩ := Prod.mk.inj same
  refine ⟨?_, ?_⟩
  · intro proper
    have static : n₀.dynamic = false := Bool.eq_false_iff.mpr fun dynamic => proper (fresh.mp dynamic)
    rw [fixed_static static] at address
    have notDynamic : n.dynamic = false := by
      refine Bool.eq_false_iff.mpr fun dynamic => ?_
      rw [fixed_dynamic dynamic] at address
      cases address
    rw [fixed_static notDynamic] at address
    have others : (n₀.m_uniqueId, none) ∉ (own :: clients).map part := by
      intro member
      have none := built.distinct.eq_none (List.mem_map_of_mem (List.mem_of_getElem? known)) member
      rw [fixed_static static] at none
      cases none
    refine ⟨⟨n, present, Option.some.inj address⟩, ?_⟩
    intro c member
    exact ⟨fun requests => others (kept.copies c member _ (Or.inl requests)),
      fun answers => others (kept.copies c member _ (Or.inr answers))⟩
  · intro null move bb b₁ step heard type b₂ later
    rw [fixed_dynamic (fresh.mpr null)] at address
    have dynamic : n.dynamic = true := by
      by_contra static
      rw [fixed_static (Bool.eq_false_iff.mpr static)] at address
      cases address
    obtain ⟨n₁, after, ⟨_, deaf⟩ | ⟨bb', sent, heard', hears⟩⟩ := kept.node step present
    · exact absurd heard (deaf bb)
    · rw [heard] at heard'
      cases heard'
      exact (kept.step built.distinct step).null_run built.distinct known after (forgets hears type dynamic) later

theorem openRun_of_run {allowed : LossyBus → Move → Prop} {b b' : LossyBus} (run : LabelledReach Step allowed b b') :
    LabelledReach OpenStep (fun _ _ => True) b b' := by
  induction run with
  | start => exact .start
  | next _ _ step ih => exact .next ih trivial (.own step)

/-- Another master starts after the client has got its address. -/
def restart (b : LossyBus) : LossyBus := { b with m_copies := b.m_copies ++ [(1, packet.masterStarted)] }

/-- The client forgets the address, and the node of the master keeps its own. -/
theorem static_permanent_dynamic_reset_restart :
    ∃ b b₁, LabelledReach OpenStep (fun _ _ => True) sampleNet (restart b) ∧ (b.nodes[1]?.map address) = some 33 ∧
      OpenStep (restart b) (some (.hear 0 packet.masterStarted)) b₁ ∧
      (∃ n, b.nodes[0]? = some n ∧ n.address = sampleNode.address) ∧
      ∃ n, b₁.nodes[1]? = some n ∧ n.address = LocalAddress.null_addr := by
  obtain ⟨b, run, shown⟩ := run_of_script (fun _ _ => True) (fun _ _ => true) (fun _ _ _ => trivial) sampleNet
    joinScript (fun b => (b.nodes[1]?.map address) = some 33 ∧
      ((restart b).exec (.hear 0 packet.masterStarted)).isSome) (by decide +kernel)
  obtain ⟨joined, executed⟩ := of_decide_eq_true shown
  obtain ⟨b₁, taken⟩ := Option.isSome_iff_exists.mp executed
  have built : Constructed (sampleNode :: sampleNet.m_clients) := ⟨by decide, by decide⟩
  have reach := openRun_of_run run
  have started : LabelledReach OpenStep (fun _ _ => True) sampleNet (restart b) :=
    .next reach trivial (.foreign (by decide) (by decide))
  have step : OpenStep (restart b) (some (.hear 0 packet.masterStarted)) b₁ := .own (exec_step taken)
  have fixed := (static_permanent_dynamic_reset {} _ sampleNode sampleNet.m_clients built 1000 _ (start_eq _ _ _ _) b
    reach 0 sampleNode rfl).1 (by decide)
  have reset := (static_permanent_dynamic_reset {} _ sampleNode sampleNet.m_clients built 1000 _ (start_eq _ _ _ _) _
    started 1 (sampleClient 0 3) rfl).2 rfl _ _ b₁ step rfl rfl b₁ .start
  exact ⟨b, b₁, started, joined, step, fixed.1, reset⟩

end SerialNet.LossyBus
