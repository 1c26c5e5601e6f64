import SerialNet.Bus.StaticAddresses

namespace SerialNet

open PacketTypeCodec Master

/-! The end of the master -/

def Master.exitMaster (m : Master) : Master := m.sendMasterPacket packet.masterEnded

/-- What the destructor leaves of the node, if the process lives on. The node forgets the master,
then the members of the state machine end, and only after them the chart destroys its active
state. Idle's destructor needs none of them. The others cancel `m_timer`, and that of
`waitAddressReply` reports a result, on what has already ended: the program may get past that
or not. -/
inductive Master.Destroyed (m : Master) : Option PacketTypeCodec → Prop
  | ended : Destroyed m (some { m.m_node with m_master := false })
  | crashed : m.m_fsm.m_state ≠ .idle → Destroyed m none

/-- A bus that has no master any more, with all that has been sent on it since, and how many
copies have been heard or lost since. There is no node where a process is gone. -/
structure MasterlessBus where
  m_nodes : List (Option PacketTypeCodec)
  m_copies : List (Nat × ByteVec)
  sent : List ByteVec
  received : Nat

/-- The bus with what is left of the master's node and what it has sent at last. -/
def LossyBus.without (b : LossyBus) (own : Option PacketTypeCodec) (sent : List ByteVec) : MasterlessBus :=
  { m_nodes := own :: b.m_clients.map some
    m_copies := b.m_copies ++ broadcast b.nodes.length sent
    sent := []
    received := 0 }

/-- What the master sends before it is destroyed. -/
def LossyBus.announced (b : LossyBus) : List ByteVec := sentBy { b.m_master with m_out := [] }.exitMaster.m_out

/-- How a master ends. The timeout of its process is a callback of the event loop: it announces
the end and destroys the master. The process can also be gone any time, and nothing is announced
then. -/
inductive LossyBus.Stops (b : LossyBus) : MasterlessBus → Prop
  | exitMaster {own} : b.m_master.m_fsm.m_eventQueue = [] → b.m_master.exitMaster.Destroyed own →
      Stops b (b.without own b.announced)
  | killed : Stops b (b.without none [])

/-- What a node may have to answer. -/
def isQuery (bb : ByteVec) : Bool := kind bb = some .grant_token ∨ kind bb = some .address_discovery

/-- What a node answers. -/
def IsAnswer (bb : ByteVec) : Prop := isResponse bb = true ∨ ∃ r : packet.AddressRequest, bb = r.fromHeader

theorem IsAnswer.not_isQuery {bb : ByteVec} (answer : IsAnswer bb) : isQuery bb = false := by
  rcases answer with response | ⟨r, rfl⟩
  · obtain ⟨_, type⟩ := of_decide_eq_true response
    rcases type with type | type | type <;> simp [isQuery, type]
  · simp [isQuery]

/-- A node answers once or not at all. -/
theorem PacketTypeCodec.Hears.answer_cases {bb : ByteVec} {n n' : PacketTypeCodec} {sent : List ByteVec}
    (hears : Hears bb n n' sent) (dataOnly : DataOnly n.m_txQueue) :
    sent = [] ∨ isQuery bb = true ∧ ∃ r, sent = [r] ∧ IsAnswer r := by
  obtain ⟨⟨stack, q, _, reaction⟩, _⟩ := hears.reaction
  cases reaction with
  | granted type =>
    obtain ⟨r, answer, response⟩ := sendClientPacketOrReturnToken_response dataOnly
    exact Or.inr ⟨by simp [isQuery, type], r, answer, Or.inl response⟩
  | asked type => exact Or.inr ⟨by simp [isQuery, type], _, rfl, Or.inr ⟨_, rfl⟩⟩
  | assigned => exact Or.inl rfl
  | started => exact Or.inl rfl
  | ignored => exact Or.inl rfl

namespace MasterlessBus

/-- The copies that may still be answered. -/
def asking (copies : List (Nat × ByteVec)) : Nat := copies.countP fun c => isQuery c.2

/-- As on the bus with a master, where every node is a client now. A process may quit any time,
and does so when it hears of the end: the copies for it are lost. -/
inductive Step : MasterlessBus → MasterlessBus → Prop
  | hear {b : MasterlessBus} {i bb n n' sent} : b.m_nodes[i]? = some (some n) → (i, bb) ∈ b.m_copies →
      Hears bb n n' sent →
      Step b
        { m_nodes := b.m_nodes.set i (some n')
          m_copies := b.m_copies.erase (i, bb) ++ LossyBus.broadcast b.m_nodes.length sent
          sent := b.sent ++ sent
          received := b.received + 1 }
  | lose {b : MasterlessBus} {i bb} : (i, bb) ∈ b.m_copies →
      Step b { b with m_copies := b.m_copies.erase (i, bb), received := b.received + 1 }
  | submit {b : MasterlessBus} {i n q} : b.m_nodes[i]? = some (some n) → Submits n.m_txQueue q →
      Step b { b with m_nodes := b.m_nodes.set i (some { n with m_txQueue := q }) }
  | quit {b : MasterlessBus} {i} : Step b { b with m_nodes := b.m_nodes.set i none }

theorem asking_broadcast {receivers : Nat} {sent : List ByteVec} (quiet : ∀ bb ∈ sent, isQuery bb = false) :
    asking (LossyBus.broadcast receivers sent) = 0 := by
  rw [asking, List.countP_eq_zero]
  intro c copy
  rw [quiet c.2 (LossyBus.mem_broadcast copy)]
  exact Bool.false_ne_true

theorem asking_erase {copies : List (Nat × ByteVec)} {c : Nat × ByteVec} (copy : c ∈ copies) :
    asking (copies.erase c) + (if isQuery c.2 then 1 else 0) = asking copies := by
  rw [asking, asking, (List.perm_cons_erase copy).countP_eq, List.countP_cons]

theorem length_broadcast (receivers : Nat) (sent : List ByteVec) :
    (LossyBus.broadcast receivers sent).length = receivers * sent.length := by
  induction sent with
  | nil => rfl
  | cons bb rest ih =>
    rw [LossyBus.broadcast, List.flatMap_cons, List.length_append, List.length_map, List.length_range]
    rw [LossyBus.broadcast] at ih
    rw [ih, List.length_cons, Nat.mul_succ, Nat.add_comm]

/-- Every answer uses up a copy that asked for it, and nobody is asked by an answer. A copy
that may be answered stands for itself and for the copies of its answer. -/
structure Spends (b b' : MasterlessBus) : Prop where
  nodes : b'.m_nodes.length = b.m_nodes.length
  dataOnly : ∀ n, some n ∈ b'.m_nodes → DataOnly n.m_txQueue
  sent : ∃ new, b'.sent = b.sent ++ new ∧ (∀ bb ∈ new, IsAnswer bb) ∧
    new.length + asking b'.m_copies ≤ asking b.m_copies
  received : b'.received + b'.m_copies.length + b'.m_nodes.length * asking b'.m_copies ≤
    b.received + b.m_copies.length + b.m_nodes.length * asking b.m_copies

namespace Spends

variable {b b' b'' : MasterlessBus}

theorem refl (dataOnly : ∀ n, some n ∈ b.m_nodes → DataOnly n.m_txQueue) : Spends b b :=
  ⟨rfl, dataOnly, ⟨[], (List.append_nil _).symm, by rintro _ ⟨⟩, (Nat.zero_add _).le⟩, le_rfl⟩

theorem trans (first : Spends b b') (second : Spends b' b'') : Spends b b'' := by
  obtain ⟨new, sent, answers, few⟩ := first.sent
  obtain ⟨new', sent', answers', few'⟩ := second.sent
  refine ⟨second.nodes.trans first.nodes, second.dataOnly, ⟨new ++ new', ?_, ?_, ?_⟩,
    second.received.trans first.received⟩
  · rw [sent', sent, List.append_assoc]
  · intro bb member
    rcases List.mem_append.mp member with old | later
    · exact answers bb old
    · exact answers' bb later
  · rw [List.length_append]
    omega

theorem of_set {i : Nat} {n' : Option PacketTypeCodec}
    (dataOnly : ∀ n, some n ∈ b.m_nodes → DataOnly n.m_txQueue) (own : ∀ n, n' = some n → DataOnly n.m_txQueue) :
    ∀ n, some n ∈ b.m_nodes.set i n' → DataOnly n.m_txQueue := by
  intro n member
  rcases List.mem_or_eq_of_mem_set member with old | new
  · exact dataOnly n old
  · exact own n new.symm

/-- A copy has been heard, and this is what has been sent. -/
theorem of_copy {nodes : List (Option PacketTypeCodec)} {c : Nat × ByteVec} {sent : List ByteVec}
    (length : nodes.length = b.m_nodes.length) (dataOnly : ∀ n, some n ∈ nodes → DataOnly n.m_txQueue)
    (copy : c ∈ b.m_copies) (answer : sent = [] ∨ isQuery c.2 = true ∧ ∃ r, sent = [r] ∧ IsAnswer r) :
    Spends b ⟨nodes, b.m_copies.erase c ++ LossyBus.broadcast b.m_nodes.length sent, b.sent ++ sent,
      b.received + 1⟩ := by
  have less := asking_erase copy
  have fewer := List.length_erase_add_one copy
  have answers : ∀ bb ∈ sent, IsAnswer bb := by
    rcases answer with rfl | ⟨_, r, rfl, isAnswer⟩
    · rintro _ ⟨⟩
    · intro bb member
      rwa [List.mem_singleton.mp member]
  have used : sent.length + asking (b.m_copies.erase c) ≤ asking b.m_copies := by
    rcases answer with rfl | ⟨asked, r, rfl, _⟩
    · rw [List.length_nil]
      omega
    · rw [if_pos asked] at less
      rw [List.length_singleton]
      omega
  have quiet : asking (b.m_copies.erase c ++ LossyBus.broadcast b.m_nodes.length sent) =
      asking (b.m_copies.erase c) := by
    rw [asking, List.countP_append]
    exact (congrArg _ (asking_broadcast fun bb member => (answers bb member).not_isQuery)).trans (Nat.add_zero _)
  refine ⟨length, dataOnly, ⟨sent, rfl, answers, ?_⟩, ?_⟩
  · rw [quiet]
    exact used
  · have priced := Nat.mul_le_mul_left b.m_nodes.length used
    rw [Nat.mul_add] at priced
    simp only [quiet, length, List.length_append, length_broadcast]
    omega

theorem step (dataOnly : ∀ n, some n ∈ b.m_nodes → DataOnly n.m_txQueue) (step : Step b b') : Spends b b' := by
  cases step with
  | @hear i bb n n' sent here copy hears =>
    have own := dataOnly n (List.mem_of_getElem? here)
    refine of_copy List.length_set (of_set dataOnly ?_) copy (hears.answer_cases own)
    rintro _ ⟨rfl⟩
    exact hears.dataOnly own
  | lose copy =>
    have lost := of_copy rfl dataOnly copy (Or.inl rfl)
    simpa [LossyBus.broadcast] using lost
  | submit here submits =>
    have own := dataOnly _ (List.mem_of_getElem? here)
    refine ⟨List.length_set, of_set dataOnly ?_, (refl dataOnly).sent, ?_⟩
    · rintro _ ⟨rfl⟩
      exact submits.dataOnly own
    · rw [List.length_set]
  | quit =>
    refine ⟨List.length_set, of_set dataOnly ?_, (refl dataOnly).sent, ?_⟩
    · rintro _ ⟨⟩
    · rw [List.length_set]

theorem run (dataOnly : ∀ n, some n ∈ b.m_nodes → DataOnly n.m_txQueue) (run : Relation.ReflTransGen Step b b') :
    Spends b b' := by
  induction run with
  | refl => exact refl dataOnly
  | tail _ taken ih => exact ih.trans (step ih.dataOnly taken)

end Spends

/-- What is there when the master has ended. -/
structure Begins (b : LossyBus) (e : MasterlessBus) : Prop where
  nodes : e.m_nodes.length = b.nodes.length
  dataOnly : ∀ n, some n ∈ e.m_nodes → DataOnly n.m_txQueue
  asking : asking e.m_copies = asking b.m_copies
  copies : e.m_copies.length ≤ b.m_copies.length + b.nodes.length
  sent : e.sent = []
  received : e.received = 0

theorem Begins.without {b : LossyBus} {own : Option PacketTypeCodec} {sent : List ByteVec}
    (dataOnly : ∀ n ∈ b.nodes, DataOnly n.m_txQueue) (left : ∀ n, own = some n → DataOnly n.m_txQueue)
    (quiet : ∀ bb ∈ sent, isQuery bb = false) (few : sent.length ≤ 1) : Begins b (b.without own sent) := by
  refine ⟨?_, ?_, ?_, ?_, rfl, rfl⟩
  · change (own :: b.m_clients.map some).length = b.nodes.length
    rw [List.length_cons, List.length_map]
    rfl
  · intro n member
    rcases List.mem_cons.mp member with here | client
    · exact left n here.symm
    · obtain ⟨n', client, same⟩ := List.mem_map.mp client
      cases same
      exact dataOnly n (List.mem_cons_of_mem _ client)
  · exact List.countP_append.trans ((congrArg _ (asking_broadcast quiet)).trans (Nat.add_zero _))
  · change (b.m_copies ++ LossyBus.broadcast b.nodes.length sent).length ≤ _
    rw [List.length_append, length_broadcast]
    exact Nat.add_le_add_left ((Nat.mul_le_mul_left _ few).trans_eq (Nat.mul_one _)) _

theorem Begins.of_stops {b : LossyBus} {e : MasterlessBus} (dataOnly : ∀ n ∈ b.nodes, DataOnly n.m_txQueue)
    (stops : b.Stops e) : Begins b e := by
  cases stops with
  | exitMaster _ destroyed =>
    refine .without dataOnly ?_ ?_ le_rfl
    · rintro n rfl
      cases destroyed
      exact dataOnly b.m_master.m_node List.mem_cons_self
    · intro bb member
      rw [List.mem_singleton.mp member]
      rfl
  | killed =>
    refine .without dataOnly ?_ ?_ (Nat.zero_le 1)
    · rintro _ ⟨⟩
    · rintro _ ⟨⟩

/-- After the end of the master the bus falls silent, whatever is under way then and whatever
the hosts go on submitting. The master has announced its end, and left its node behind or taken
the whole process with it, or it is gone without a word. There are at most as many answers as
there are copies of token grants and searches that have not been heard yet, and nothing else is
sent; the copies run out; and once no grant and no search is left among them nobody ever sends
anything again. -/
theorem master_end_settles (cfg : Config) (uninitialised : Nat → UniqueId) (own : PacketTypeCodec)
    (clients : List PacketTypeCodec) (built : LossyBus.Constructed (own :: clients)) (now : ℚ) (m₀ : Master)
    (constructed : Master.start cfg own uninitialised now = .ok m₀) (b : LossyBus)
    (run : LabelledReach LossyBus.Step (fun _ _ => True) ⟨m₀, clients, []⟩ b) (e s : MasterlessBus)
    (stops : b.Stops e) (later : Relation.ReflTransGen Step e s) :
    (∀ bb ∈ s.sent, IsAnswer bb) ∧ s.sent.length ≤ asking b.m_copies ∧
    s.received + s.m_copies.length ≤ b.m_copies.length + b.nodes.length * (asking b.m_copies + 1) ∧
    (asking s.m_copies = 0 → ∀ s', Relation.ReflTransGen Step s s' → s'.sent = s.sent) := by
  have kept := LossyBus.kept_of_run built constructed (LossyBus.openRun_of_run run)
  have begins := Begins.of_stops kept.dataOnly stops
  have spends := Spends.run begins.dataOnly later
  obtain ⟨sent, all, answers, few⟩ := spends.sent
  have since : s.sent = sent := by rw [all, begins.sent, List.nil_append]
  rw [begins.asking] at few
  refine ⟨since ▸ answers, ?_, ?_, ?_⟩
  · rw [since]
    omega
  · have received := spends.received
    have copies := begins.copies
    rw [begins.asking, begins.received, begins.nodes] at received
    rw [Nat.mul_add]
    omega
  · intro silent s' further
    obtain ⟨sent', all', _, few'⟩ := (Spends.run spends.dataOnly further).sent
    have nothing : sent' = [] := List.eq_nil_of_length_eq_zero (by omega)
    rw [all', nothing, List.append_nil]

/-- The client is asked for the last time, and answers after the end. The master has given up by
then, so that its destructor finds it in Idle and its node stays. -/
theorem master_end_settles_answered :
    ∃ (b : LossyBus) (e s : MasterlessBus), b.m_master.m_fsm.m_state = .idle ∧ b.Stops e ∧
      Relation.ReflTransGen Step e s ∧ s.sent = [packet.ReturnToken.fromHeader ⟨1⟩] ∧
      s.sent.length ≤ asking b.m_copies ∧
      (asking s.m_copies = 0 → ∀ s', Relation.ReflTransGen Step s s' → s'.sent = s.sent) := by
  let grant := packet.GrantToken.fromHeader ⟨1⟩
  obtain ⟨b, run, shown⟩ := LossyBus.run_of_script (fun _ _ => True) (fun _ _ => true) (fun _ _ _ => trivial)
    ⟨Master.started {} sampleNode (fun _ => Bus.unsetId) 1000, [Bus.sampleClient 1 2], []⟩
    ([.master (.turn false)] ++ LossyBus.heard 1000 packet.masterStarted ++
      [.master (.turn false), .master (.turn false),
        .master (.stimulus (1000 + 1 / 10) (.timer ⟨1000 + 1 / 10, 4⟩)), .master (.turn false)])
    (fun b => b.m_master.m_fsm.m_state = .idle ∧ b.m_master.m_fsm.m_eventQueue = [] ∧ (1, grant) ∈ b.m_copies ∧
      ((b.m_clients[0]?).bind fun n => n.rxRawPacket grant sampleStack).map (fun heard => sentBy heard.2) =
        some [packet.ReturnToken.fromHeader ⟨1⟩]) (by decide +kernel)
  obtain ⟨idle, quiet, copy, answer⟩ := of_decide_eq_true shown
  obtain ⟨⟨n', effects⟩, heard, sent⟩ := Option.map_eq_some_iff.mp answer
  obtain ⟨n, here, heard⟩ := Option.bind_eq_some_iff.mp heard
  have built : LossyBus.Constructed [sampleNode, Bus.sampleClient 1 2] := ⟨by decide, by decide⟩
  let e := b.without (some { b.m_master.m_node with m_master := false }) b.announced
  have stops : b.Stops e := .exitMaster quiet .ended
  have place : (b.m_clients.map some)[0]? = some (some n) := by rw [List.getElem?_map, here, Option.map_some]
  have last : Step e _ :=
    .hear (i := 1) place (List.mem_append_left _ copy) ⟨sampleStack, effects, heard, rfl⟩
  have settles := master_end_settles {} _ _ _ built 1000 _ (start_eq _ _ _ _) b run e _ stops (.single last)
  exact ⟨b, e, _, idle, stops, .single last, sent, settles.2.1, settles.2.2.2⟩

end MasterlessBus

end SerialNet
