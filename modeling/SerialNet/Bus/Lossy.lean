import SerialNet.Bus.Agreement
import SerialNet.Master.Progress

namespace SerialNet

open PacketTypeCodec

/-- The same parties on a bus that may lose packets. Each node gets a copy of its own
of every packet; the copies that have been neither heard nor lost are kept with the
place of their receiver among the nodes. The node of the master comes first. -/
structure LossyBus where
  m_master : Master
  m_clients : List PacketTypeCodec
  m_copies : List (Nat × ByteVec)

namespace LossyBus

def nodes (b : LossyBus) : List PacketTypeCodec := b.m_master.m_node :: b.m_clients

/-- A copy of every packet for every node. -/
def broadcast (receivers : Nat) (sent : List ByteVec) : List (Nat × ByteVec) :=
  sent.flatMap fun bb => (List.range receivers).map (·, bb)

inductive Move
  | master (l : Master.Label)
  | hear (i : Nat) (bb : ByteVec)
  | lose (i : Nat) (bb : ByteVec)
  | submit (i : Nat)

/-- Copies are heard or lost one by one, in any order. -/
inductive Step : LossyBus → Move → LossyBus → Prop
  | receive {b : LossyBus} {bb now stack master} : (0, bb) ∈ b.m_copies →
      b.m_master.Step (.stimulus now (.rxRawPacket bb stack)) master →
      Step b (.master (.stimulus now (.rxRawPacket bb stack))) { b with
        m_master := master
        m_copies := b.m_copies.erase (0, bb) ++ broadcast b.nodes.length (sentBy master.m_out) }
  | master {b : LossyBus} {l master} : Bus.Local l → b.m_master.Step l master →
      Step b (.master l) { b with
        m_master := master, m_copies := b.m_copies ++ broadcast b.nodes.length (sentBy master.m_out) }
  | hear {b : LossyBus} {i bb n n' sent} : b.m_clients[i]? = some n → (i + 1, bb) ∈ b.m_copies → Hears bb n n' sent →
      Step b (.hear i bb) { b with
        m_clients := b.m_clients.set i n'
        m_copies := b.m_copies.erase (i + 1, bb) ++ broadcast b.nodes.length sent }
  | lose {b : LossyBus} {i bb} : (i, bb) ∈ b.m_copies →
      Step b (.lose i bb) { b with m_copies := b.m_copies.erase (i, bb) }
  | submit {b : LossyBus} {i n q} : b.m_clients[i]? = some n → Submits n.m_txQueue q →
      Step b (.submit i) { b with m_clients := b.m_clients.set i { n with m_txQueue := q } }

/-- A dynamic node with the id holds the address, or a reply that gives it the address
is still to be heard by it. -/
def InUse (b : LossyBus) (d : LocalAddress) (u : UniqueId) : Prop :=
  ∃ i n, b.nodes[i]? = some n ∧ n.dynamic = true ∧ n.m_uniqueId = u ∧
    (n.address = d ∨ (i, Bus.reply d u) ∈ b.m_copies)

/-- The fourth token in a row that a dynamic line has missed is about to be reported. -/
def GivesUp (m : Master) (line : AddressLine) : Master.Label → Prop
  | .turn rxInProgress => rxInProgress = false ∧ m.m_fsm.m_state = .waitClientPacketDone ∧
      m.m_fsm.m_eventQueue.head? = some .timer_timeout ∧ line ∈ m.m_dynamicHandler.m_table ∧
      line.m_address = m.m_fsm.m_currentAction.m_address ∧ line.m_isDynamic = true ∧ 3 ≤ line.m_badCount
  | .stimulus .. => False

/-- The master sees its token grants in time, and it gives up no line that is in use. -/
def Careful (b : LossyBus) : Move → Prop
  | .master l => ¬ b.m_master.LosesGrant l ∧
      ∀ line, GivesUp b.m_master line l → ¬ b.InUse line.m_address line.m_uniqueId
  | _ => True

/-- How the network begins: with distinct ids, nothing to send, and no address for
the dynamic nodes. -/
structure Setup (nodes : List PacketTypeCodec) : Prop where
  ids : (nodes.map (·.m_uniqueId)).Nodup
  fresh : ∀ n ∈ nodes, n.m_txQueue.m_txMsg = [] ∧ (n.dynamic = true → n.address = LocalAddress.null_addr)

/-! Runs that can be computed -/

/-- A step as a function. Hosts submit nothing. -/
def exec (b : LossyBus) : Move → Option LossyBus
  | .master (.stimulus now (.rxRawPacket bb stack)) =>
    if (0, bb) ∈ b.m_copies then
      (b.m_master.exec (.stimulus now (.rxRawPacket bb stack))).map fun master => { b with
        m_master := master
        m_copies := b.m_copies.erase (0, bb) ++ broadcast b.nodes.length (sentBy master.m_out) }
    else none
  | .master l => (b.m_master.exec l).map fun master => { b with
      m_master := master, m_copies := b.m_copies ++ broadcast b.nodes.length (sentBy master.m_out) }
  | .hear i bb =>
    if (i + 1, bb) ∈ b.m_copies then do
      let n ← b.m_clients[i]?
      let (n', effects) ← n.rxRawPacket bb Master.sampleStack
      some { b with
        m_clients := b.m_clients.set i n'
        m_copies := b.m_copies.erase (i + 1, bb) ++ broadcast b.nodes.length (sentBy effects) }
    else none
  | .lose i bb =>
    if (i, bb) ∈ b.m_copies then some { b with m_copies := b.m_copies.erase (i, bb) } else none
  | .submit _ => none

theorem exec_step {b b' : LossyBus} {move : Move} (run : b.exec move = some b') : Step b move b' := by
  unfold exec at run
  split at run
  · split at run
    · rename_i copy
      obtain ⟨master, first, rfl⟩ := Option.map_eq_some_iff.mp run
      exact .receive copy (Master.exec_step first)
    · cases run
  · rename_i l noPacket
    obtain ⟨master, first, rfl⟩ := Option.map_eq_some_iff.mp run
    refine .master ?_ (Master.exec_step first)
    unfold Bus.Local
    split
    · exact absurd rfl (noPacket _ _ _)
    · trivial
  · split at run
    · rename_i copy
      obtain ⟨n, present, run⟩ := Option.bind_eq_some_iff.mp run
      obtain ⟨⟨n', effects⟩, first, run⟩ := Option.bind_eq_some_iff.mp run
      cases Option.some.inj run
      exact .hear present copy ⟨_, effects, first, rfl⟩
    · cases run
  · split at run
    · rename_i copy
      cases Option.some.inj run
      exact .lose copy
    · cases run
  · cases run

/-- What the bus shows after a script has been followed, it shows in some run. The
condition on the steps is checked along the way. -/
theorem run_of_script (allowed : LossyBus → Move → Prop) (check : LossyBus → Move → Bool)
    (sound : ∀ b move, check b move = true → allowed b move) (b : LossyBus) (script : List Move) (P : LossyBus → Bool)
    (run : (LabelledReach.follow (fun b move => if check b move then exec b move else none) b script).any P = true) :
    ∃ b', LabelledReach Step allowed b b' ∧ P b' = true :=
  LabelledReach.exists_of_script exec (fun b move => check b move = true) (fun {b move} => sound b move)
    exec_step b script P run

/-- A master and a client without an address. -/
def sampleNet : LossyBus :=
  ⟨Master.started {} Master.sampleNode (fun _ => Bus.unsetId) 1000, [Bus.sampleClient 0 3], []⟩

end LossyBus

end SerialNet
