import SerialNet.Bus.Parties
import SerialNet.Master.Tokens

namespace SerialNet

open PacketTypeCodec

/-- One master with its own node, the other nodes, and the packets that have been
sent but not delivered, oldest first. -/
structure Bus where
  m_master : Master
  m_clients : List PacketTypeCodec
  m_wire : List ByteVec

namespace Bus

def nodes (b : Bus) : List PacketTypeCodec := b.m_master.m_node :: b.m_clients

/-- Several nodes hear the same packet. -/
inductive HearAll (bb : ByteVec) : List PacketTypeCodec → List PacketTypeCodec → List ByteVec → Prop
  | nil : HearAll bb [] [] []
  | cons {n n' ns ns' sent later} : Hears bb n n' sent → HearAll bb ns ns' later →
      HearAll bb (n :: ns) (n' :: ns') (sent ++ later)

/-- What the master does other than receive. -/
def Local : Master.Label → Prop
  | .stimulus _ (.rxRawPacket ..) => False
  | _ => True

/-- The timers of the two states that wait for a token or its answer run out only while
nothing is on the wire: a bus that delivers falls silent before they do. All results about
this bus rest on it. -/
def Patient (b : Bus) : Master.Label → Prop
  | .stimulus _ (.timer _) =>
    b.m_master.m_fsm.m_state = .sendingToken ∨ b.m_master.m_fsm.m_state = .waitClientPacketDone → b.m_wire = []
  | _ => True

/-- A packet is delivered to all nodes at once, including the one that sent it. What
they send in turn is put on the wire in any order. -/
inductive Step : Bus → Bus → Prop
  | deliver {b : Bus} {bb rest now stack master clients heard sent} : b.m_wire = bb :: rest →
      b.m_master.Step (.stimulus now (.rxRawPacket bb stack)) master → HearAll bb b.m_clients clients heard →
      sent.Perm (sentBy master.m_out ++ heard) → Step b ⟨master, clients, rest ++ sent⟩
  | submit {b : Bus} {before n after q} : b.m_clients = before ++ n :: after → Submits n.m_txQueue q →
      Step b { b with m_clients := before ++ { n with m_txQueue := q } :: after }
  | master {b : Bus} {l master} : Local l → b.Patient l → b.m_master.Step l master →
      Step b { b with m_master := master, m_wire := b.m_wire ++ sentBy master.m_out }

/-- The packets of which there must not be two. -/
def isToken (bb : ByteVec) : Bool :=
  kind bb = some .grant_token ∨ kind bb = some .return_token ∨ kind bb = some .send_packet ∨
    kind bb = some .mac_update

/-- How a network is put together. A node without an address of its own is dynamic.
The static lines of the master's table hold ids that belong to nobody. -/
structure Setup (cfg : Config) (uninitialised : Nat → UniqueId) (nodes : List PacketTypeCodec) : Prop where
  separate : cfg.Separate
  fresh : ∀ n ∈ nodes, n.m_txQueue.m_txMsg = [] ∧ (n.dynamic = true ↔ n.address = LocalAddress.null_addr)
  idsDistinct : nodes.Pairwise fun n n' => n.m_uniqueId ≠ n'.m_uniqueId
  idsKnown : ∀ n ∈ nodes, ∀ i ∈ cfg.staticAddresses, n.m_uniqueId ≠ uninitialised i
  staticDistinct : nodes.Pairwise fun n n' =>
    n.address ≠ LocalAddress.null_addr → n'.address ≠ LocalAddress.null_addr → n.address ≠ n'.address
  staticOutside : ∀ n ∈ nodes, n.address ∉ cfg.dynamicAddresses.map toLocalAddress

/-! Runs that can be computed -/

def hearAll (bb : ByteVec) (stack : ChannelType × Crc32) :
    List PacketTypeCodec → Option (List PacketTypeCodec × List ByteVec)
  | [] => some ([], [])
  | n :: ns => do
    let (n', effects) ← n.rxRawPacket bb stack
    let (ns', later) ← hearAll bb stack ns
    some (n' :: ns', sentBy effects ++ later)

theorem HearAll.of_hearAll {bb : ByteVec} {stack : ChannelType × Crc32} {ns ns' : List PacketTypeCodec}
    {sent : List ByteVec} (run : hearAll bb stack ns = some (ns', sent)) : HearAll bb ns ns' sent := by
  induction ns generalizing ns' sent with
  | nil =>
    cases Option.some.inj run
    exact .nil
  | cons n ns ih =>
    obtain ⟨⟨n', effects⟩, first, run⟩ := Option.bind_eq_some_iff.mp run
    obtain ⟨⟨ns', later⟩, others, run⟩ := Option.bind_eq_some_iff.mp run
    cases Option.some.inj run
    exact .cons ⟨stack, effects, first, rfl⟩ (ih others)

/-- A step of the master as a step of the bus, with the silence its timers rely on. -/
def exec (b : Bus) (l : Master.Label) : Option Bus :=
  match l with
  | .stimulus _ (.rxRawPacket bb stack) =>
    match b.m_wire with
    | [] => none
    | next :: rest =>
      if next = bb then do
        let master ← b.m_master.exec l
        let (clients, heard) ← hearAll bb stack b.m_clients
        some ⟨master, clients, rest ++ (sentBy master.m_out ++ heard)⟩
      else none
  | .stimulus _ (.timer _) =>
    if b.m_wire = [] then (b.m_master.exec l).map fun master =>
      { b with m_master := master, m_wire := b.m_wire ++ sentBy master.m_out } else none
  | _ => (b.m_master.exec l).map fun master =>
      { b with m_master := master, m_wire := b.m_wire ++ sentBy master.m_out }

theorem exec_step {b b' : Bus} {l : Master.Label} (run : b.exec l = some b') : Step b b' := by
  have moved : Local l → b.Patient l → (b.m_master.exec l).map (fun master =>
      { b with m_master := master, m_wire := b.m_wire ++ sentBy master.m_out }) = some b' → Step b b' := by
    intro local_ patient taken
    obtain ⟨master, first, rfl⟩ := Option.map_eq_some_iff.mp taken
    exact .master local_ patient (Master.exec_step first)
  unfold exec at run
  split at run
  · split at run
    · cases run
    · rename_i next rest wire
      split at run
      · rename_i same
        obtain ⟨master, first, run⟩ := Option.bind_eq_some_iff.mp run
        obtain ⟨⟨clients, heard⟩, others, run⟩ := Option.bind_eq_some_iff.mp run
        cases Option.some.inj run
        exact .deliver (same ▸ wire) (Master.exec_step first) (HearAll.of_hearAll others) (List.Perm.refl _)
      · cases run
  · split at run
    · rename_i silent
      exact moved trivial (fun _ => silent) run
    · cases run
  · rename_i noPacket noTimer
    refine moved ?_ ?_ run
    · unfold Local
      split
      · exact absurd rfl (noPacket _ _ _)
      · trivial
    · unfold Patient
      split
      · exact absurd rfl (noTimer _ _)
      · trivial

/-- What the bus shows after a script has been followed, it shows in some run. -/
theorem run_of_script (b : Bus) (script : List Master.Label) (P : Bus → Bool)
    (run : (LabelledReach.follow exec b script).any P = true) :
    ∃ b', Relation.ReflTransGen Step b b' ∧ P b' = true := by
  obtain ⟨b', end_, holds⟩ := (Option.any_eq_true _ _).mp run
  refine ⟨b', ?_, holds⟩
  have reach : LabelledReach (fun b (_ : Master.Label) b' => Step b b') (fun _ _ => True) b b' := by
    refine LabelledReach.of_follow ?_ .start end_
    intro s l t taken
    exact ⟨trivial, exec_step taken⟩
  exact reach.invariant (P := Relation.ReflTransGen Step b) .refl fun before _ step => before.tail step

/-- Nobody's id. -/
def unsetId : UniqueId := ⟨[0, 0, 0, 0, 0, 0, 0, 0], rfl⟩

def sampleClient (address : LocalAddress) (id : UInt8) : PacketTypeCodec :=
  .make (.make address false) ⟨[0, 0, 0, 0, 0, 0, 0, id], rfl⟩ none false

/-- A master, a client with a static address and two without an address. -/
def sampleBus : Bus :=
  ⟨Master.started {} Master.sampleNode (fun _ => unsetId) 1000,
    [sampleClient 1 2, sampleClient 0 3, sampleClient 0 4], []⟩

end Bus

end SerialNet
