import SerialNet.Lib.Places
import SerialNet.Bus.Exclusion
import SerialNet.TokenAnswers
import SerialNet.Drivers.TapBounds

namespace SerialNet

open PacketTypeCodec

/-! Which node an address belongs to -/

/-- An address that the node at a place can have in the course of time. -/
def Sender (cfg : Config) (ns : List PacketTypeCodec) (i : Nat) (a : LocalAddress) : Prop :=
  ∃ n, ns[i]? = some n ∧ (n.dynamic = false → a = n.address) ∧
    (n.dynamic = true → a ∈ cfg.dynamicAddresses.map toLocalAddress)

section Sender

variable {cfg : Config} {uninitialised : Nat → UniqueId} {ns : List PacketTypeCodec}

theorem Sender.inside {i : Nat} {a : LocalAddress} (sender : Sender cfg ns i a) : i < ns.length := by
  obtain ⟨n, here, _⟩ := sender
  exact (List.getElem?_eq_some_iff.mp here).1

theorem Sender.eq_address {i : Nat} {a : LocalAddress} (sender : Sender cfg ns i a) {n : PacketTypeCodec}
    (here : ns[i]? = some n) (static : n.dynamic = false) : a = n.address := by
  obtain ⟨n', there, fixed, _⟩ := sender
  cases here.symm.trans there
  exact fixed static

theorem Bus.Setup.proper (setup : Bus.Setup cfg uninitialised ns) {n : PacketTypeCodec} (member : n ∈ ns)
    (static : n.dynamic = false) : n.address ≠ LocalAddress.null_addr := by
  intro null
  rw [(setup.fresh n member).2.mpr null] at static
  cases static

/-- A static address belongs to one place. -/
theorem Sender.eq_place (setup : Bus.Setup cfg uninitialised ns) {i j : Nat} {n : PacketTypeCodec}
    (here : ns[i]? = some n) (static : n.dynamic = false) (sender : Sender cfg ns j n.address) : j = i := by
  obtain ⟨n', there, fixed, given⟩ := sender
  have found := List.mem_of_getElem? here
  have proper := setup.proper found static
  by_contra apart
  by_cases dynamic : n'.dynamic = true
  · exact setup.staticOutside n found (given dynamic)
  · have same := fixed (Bool.eq_false_iff.mpr dynamic)
    obtain ⟨inside, value⟩ := List.getElem?_eq_some_iff.mp here
    obtain ⟨inside', value'⟩ := List.getElem?_eq_some_iff.mp there
    have distinct := List.pairwise_iff_getElem.mp setup.staticDistinct
    rcases Nat.lt_or_gt_of_ne apart with less | more
    · have different := distinct j i inside' inside less
      rw [value, value'] at different
      exact different (same ▸ proper) proper same.symm
    · have different := distinct i j inside inside' more
      rw [value, value'] at different
      exact different proper (same ▸ proper) same

end Sender

/-! What the hosts see of the bus -/

/-- What a host asks its node to send. -/
inductive Submission
  | sendPacket (data : ByteVec) (destAddr : LocalAddress) (chType : ChannelType)
  | sendMacUpdate (mac : MacAddr)
deriving DecidableEq

/-- A submission that was accepted, with the address the node had then. -/
structure Sent where
  srcAddr : LocalAddress
  submission : Submission
deriving DecidableEq

def Sent.bytes (s : Sent) : ByteVec :=
  match s.submission with
  | .sendPacket data destAddr chType => packet.SendPacket.fromHeader ⟨chType, destAddr, s.srcAddr⟩ ++ data
  | .sendMacUpdate mac => packet.MacUpdate.fromHeader ⟨LocalAddress.broadcast, s.srcAddr, s.srcAddr, mac⟩

/-- The calls that drivers of a node are to get for it. -/
def Sent.calls (s : Sent) (q : TxQueue) : List Effect :=
  match s.submission with
  | .sendPacket data destAddr chType => Station.expectedCalls q data s.srcAddr destAddr chType
  | .sendMacUpdate _ => []

namespace Submission

def submit (q : TxQueue) : Submission → TxQueue
  | .sendPacket data destAddr chType => q.msgHostTx_sendPacket data destAddr chType
  | .sendMacUpdate mac => q.msgHostTx_sendMacUpdate mac

/-- A node without an address accepts nothing. -/
def accepted (n : PacketTypeCodec) (s : Submission) : List Sent :=
  if n.m_txQueue.m_ownAddress.valid then [⟨n.address, s⟩] else []

theorem submits (q : TxQueue) (s : Submission) : Submits q (s.submit q) := by
  cases s with
  | sendPacket data destAddr chType => exact .packet data destAddr chType
  | sendMacUpdate mac => exact .macUpdate mac

theorem submit_queue (n : PacketTypeCodec) (s : Submission) :
    (s.submit n.m_txQueue).m_txMsg = n.m_txQueue.m_txMsg ++ (s.accepted n).map Sent.bytes := by
  by_cases valid : n.m_txQueue.m_ownAddress.valid = true
  · cases s <;> simp [submit, accepted, valid, TxQueue.msgHostTx_sendPacket, TxQueue.msgHostTx_sendMacUpdate,
      TxQueue.sendPacket, Sent.bytes, address]
  · cases s <;> simp [submit, accepted, valid, TxQueue.msgHostTx_sendPacket, TxQueue.msgHostTx_sendMacUpdate]

/-- What the host of the master submits. -/
def ofLabel : Master.Label → Option Submission
  | .stimulus _ (.msgHostTx_sendPacket data destAddr chType) => some (.sendPacket data destAddr chType)
  | .stimulus _ (.msgHostTx_sendMacUpdate mac) => some (.sendMacUpdate mac)
  | _ => none

end Submission

/-- What a host has had accepted so far, and the calls its drivers have got. -/
structure HostLog where
  accepted : List Sent
  handed : List Effect

/-- The bus with the logs of the hosts, by the places of their nodes. -/
structure Traffic where
  m_bus : Bus
  hosts : Nat → HostLog

namespace Traffic

/-- Several nodes hear the same packet, as in `Bus.HearAll`, with all that they do then. -/
inductive HearEach (bb : ByteVec) : List PacketTypeCodec → List PacketTypeCodec → List (List Effect) → Prop
  | nil : HearEach bb [] [] []
  | cons {n n' ns ns' stack effects later} : n.rxRawPacket bb stack = some (n', effects) →
      HearEach bb ns ns' later → HearEach bb (n :: ns) (n' :: ns') (effects :: later)

/-- The drivers of every node are called. -/
def hand (hosts : Nat → HostLog) (effects : List (List Effect)) (i : Nat) : HostLog :=
  { hosts i with handed := (hosts i).handed ++ (effects.getD i []).filter Station.isHostCall }

/-- A node accepts a submission. -/
def accept (hosts : Nat → HostLog) (i : Nat) (n : PacketTypeCodec) (s : Submission) : Nat → HostLog :=
  Function.update hosts i { hosts i with accepted := (hosts i).accepted ++ s.accepted n }

/-- The steps of the bus, with what the hosts see of them. -/
inductive Step : Traffic → Traffic → Prop
  | deliver {b : Bus} {hosts bb rest now stack master clients effects sent} : b.m_wire = bb :: rest →
      b.m_master.Step (.stimulus now (.rxRawPacket bb stack)) master → HearEach bb b.m_clients clients effects →
      sent.Perm (sentBy master.m_out ++ effects.flatMap sentBy) →
      Step ⟨b, hosts⟩ ⟨⟨master, clients, rest ++ sent⟩, hand hosts (master.m_out :: effects)⟩
  | submit {b : Bus} {hosts before n after s} : b.m_clients = before ++ n :: after →
      Step ⟨b, hosts⟩ ⟨{ b with m_clients := before ++ { n with m_txQueue := s.submit n.m_txQueue } :: after },
        accept hosts (before.length + 1) n s⟩
  | master {b : Bus} {hosts l master} : Bus.Local l → b.Patient l → b.m_master.Step l master →
      Step ⟨b, hosts⟩ ⟨{ b with m_master := master, m_wire := b.m_wire ++ sentBy master.m_out },
        (Submission.ofLabel l).elim hosts (accept hosts 0 b.m_master.m_node)⟩

theorem HearEach.forget {bb : ByteVec} {ns ns' : List PacketTypeCodec} {effects : List (List Effect)}
    (hear : HearEach bb ns ns' effects) : Bus.HearAll bb ns ns' (effects.flatMap sentBy) := by
  induction hear with
  | nil => exact .nil
  | cons first _ ih => exact .cons ⟨_, _, first, rfl⟩ ih

theorem HearEach.of_hearAll {bb : ByteVec} {ns ns' : List PacketTypeCodec} {sent : List ByteVec}
    (hear : Bus.HearAll bb ns ns' sent) : ∃ effects, HearEach bb ns ns' effects ∧ effects.flatMap sentBy = sent := by
  induction hear with
  | nil => exact ⟨[], .nil, rfl⟩
  | cons first _ ih =>
    obtain ⟨stack, effects, run, rfl⟩ := first
    obtain ⟨later, others, rfl⟩ := ih
    exact ⟨effects :: later, .cons run others, rfl⟩

/-- Without the logs it is the bus. -/
theorem Step.forget {t t' : Traffic} (step : Step t t') : Bus.Step t.m_bus t'.m_bus := by
  cases step with
  | deliver wire received hear perm => exact .deliver wire received hear.forget perm
  | submit clients => exact .submit clients (Submission.submits _ _)
  | master local_ patient moved => exact .master local_ patient moved

/-- Every run of the bus can be logged. -/
theorem exists_logged {b b' : Bus} (run : Relation.ReflTransGen Bus.Step b b') (hosts : Nat → HostLog) :
    ∃ hosts', Relation.ReflTransGen Step ⟨b, hosts⟩ ⟨b', hosts'⟩ := by
  induction run with
  | refl => exact ⟨hosts, .refl⟩
  | tail _ step ih =>
    obtain ⟨hosts', run⟩ := ih
    cases step with
    | deliver wire received hear perm =>
      obtain ⟨effects, each, rfl⟩ := HearEach.of_hearAll hear
      exact ⟨_, run.tail (.deliver wire received each perm)⟩
    | submit clients submits =>
      cases submits with
      | packet data destAddr chType =>
        exact ⟨_, run.tail (.submit (s := .sendPacket data destAddr chType) clients)⟩
      | macUpdate mac => exact ⟨_, run.tail (.submit (s := .sendMacUpdate mac) clients)⟩
    | master local_ patient moved => exact ⟨_, run.tail (.master local_ patient moved)⟩

end Traffic

/-! One packet at one node -/

namespace PacketTypeCodec

theorem isData_bytes (s : Sent) : Client.isData s.bytes = true := by
  obtain ⟨src, submission⟩ := s
  cases submission <;> rfl

variable {n n' : PacketTypeCodec} {bb : ByteVec} {stack : ChannelType × Crc32} {effects : List Effect}

/-- Data moves from the front of the queue to the wire, one packet at a time. -/
theorem rxRawPacket_flow (data : ∀ msg ∈ n.m_txQueue.m_txMsg, Client.isData msg = true)
    (run : n.rxRawPacket bb stack = some (n', effects)) :
    n.m_txQueue.m_txMsg = (sentBy effects).filter Client.isData ++ n'.m_txQueue.m_txMsg ∧
      ((sentBy effects).filter Client.isData).length ≤ 1 := by
  have answer := Client.answer_of_reaction (rxRawPacket_reaction run).1
  have flow := answer.flow data
  have count := answer.count data
  refine ⟨?_, ?_⟩
  · simpa using flow
  · have fewer : ((sentBy effects).filter Client.isData).length ≤ ((sentBy effects).filter Client.isAnswer).length := by
      refine (List.monotone_filter_right _ ?_).length_le
      intro msg data
      simp [Client.isAnswer, data]
    dsimp only at count
    split at count <;> omega

/-- The handlers of the other packets leave alone what is for the host. -/
theorem rxCommand_control {cmd : MessageType} (noFrame : cmd ≠ .send_packet) (noUpdate : cmd ≠ .mac_update)
    (run : n.rxCommand cmd bb stack = some (n', effects)) : n'.m_rxMsg = n.m_rxMsg ∧ n'.m_cache = n.m_cache := by
  cases cmd with
  | grant_token =>
    obtain ⟨p, _, run⟩ := Option.bind_eq_some_iff.mp run
    split at run <;> cases Option.some.inj run <;> exact ⟨rfl, rfl⟩
  | send_packet => exact absurd rfl noFrame
  | address_discovery =>
    obtain ⟨p, _, run⟩ := Option.bind_eq_some_iff.mp run
    cases Option.some.inj run
    exact ⟨rfl, rfl⟩
  | address_reply =>
    obtain ⟨p, _, run⟩ := Option.bind_eq_some_iff.mp run
    unfold rxAddrReplyPacket at run
    split at run <;> cases Option.some.inj run <;> exact ⟨rfl, rfl⟩
  | mac_update => exact absurd rfl noUpdate
  | _ =>
    cases Option.some.inj run
    exact ⟨rfl, rfl⟩

theorem rxCommand_keeps {cmd : MessageType} (other : cmd ≠ .send_packet)
    (run : n.rxCommand cmd bb stack = some (n', effects)) : n'.m_rxMsg = n.m_rxMsg := by
  by_cases update : cmd = .mac_update
  · subst update
    simp only [rxCommand] at run
    split at run
    · cases Option.some.inj run
      rfl
    · obtain ⟨localAddr, _, run⟩ := Option.bind_eq_some_iff.mp run
      obtain ⟨mac, _, run⟩ := Option.bind_eq_some_iff.mp run
      cases Option.some.inj run
      rfl
  · exact (rxCommand_control other update run).1

/-- What a node tells the master, no driver sees. -/
theorem filter_isHostCall_outward (effects : List Effect) :
    (effects.filter outward).filter Station.isHostCall = effects.filter Station.isHostCall := by
  rw [List.filter_filter]
  refine List.filter_congr ?_
  intro e _
  cases e <;> rfl

/-- Only data packets are for drivers. -/
theorem rxRawPacket_hostless (rested : n.m_rxMsg = []) (other : kind bb ≠ some .send_packet)
    (run : n.rxRawPacket bb stack = some (n', effects)) : effects.filter Station.isHostCall = [] := by
  rcases rxRawPacket_cases run with ⟨_, rfl, _⟩ | ⟨cmd, n₁, own, parts, ⟨type, _⟩, command, all, _, rfl⟩
  · rfl
  · have noData : cmd ≠ .send_packet := by
      rintro rfl
      exact other type
    rw [(rxCommand_keeps noData command).trans rested] at all
    cases Option.some.inj all
    have hostless := (TapHostDriver.rxCommand_hostless command).1
    have handlers : own.filter Station.isHostCall = [] := by
      rw [List.filter_eq_nil_iff]
      intro e member
      simp [hostless e member]
    rw [List.filter_append, List.filter_append, handlers, Station.filter_masterPacketReceived]
    rfl

/-- The drivers get the calls they are to get. -/
theorem rxRawPacket_calls (rested : n.m_rxMsg = []) {s : Sent}
    (run : n.rxRawPacket s.bytes stack = some (n', effects)) :
    effects.filter Station.isHostCall = s.calls n.m_txQueue := by
  obtain ⟨src, submission⟩ := s
  cases submission with
  | sendPacket data destAddr chType =>
    obtain ⟨effects', received, calls⟩ :=
      Station.rxRawPacket_sendPacket rested ⟨chType, destAddr, src⟩ data stack
    cases received.symm.trans run
    exact calls
  | sendMacUpdate mac =>
    refine rxRawPacket_hostless rested ?_ run
    rintro ⟨⟩

/-- The drivers that are registered. -/
def drivers (n : PacketTypeCodec) : ChannelType → Option RxIf := n.m_txQueue.getRxIf

theorem rxRawPacket_drivers (run : n.rxRawPacket bb stack = some (n', effects)) : n'.drivers = n.drivers := by
  have reaction := (rxRawPacket_reaction run).1
  unfold drivers
  generalize n'.m_txQueue = q, sentBy effects = sent at reaction
  cases reaction with
  | granted =>
    unfold TxQueue.sendClientPacketOrReturnToken TxQueue.sendClientPacket
    split
    · rfl
    · split <;> rfl
  | assigned => rfl
  | started => rfl
  | asked => rfl
  | ignored => rfl

/-- Between two states of a node its data has gone from the front of the queue to what it
has sent, one packet at most, and nothing is left for the host. -/
structure Passes (n n' : PacketTypeCodec) (sent : List ByteVec) : Prop where
  flow : n.m_txQueue.m_txMsg = sent.filter Client.isData ++ n'.m_txQueue.m_txMsg
  few : (sent.filter Client.isData).length ≤ 1
  rested : n.m_rxMsg = [] → n'.m_rxMsg = []
  drivers : n'.drivers = n.drivers

theorem Passes.of_silent {n n' : PacketTypeCodec} {sent : List ByteVec} (queue : n'.m_txQueue = n.m_txQueue)
    (rest : n'.m_rxMsg = n.m_rxMsg) (silent : sent.filter Client.isData = []) : Passes n n' sent := by
  refine ⟨?_, ?_, ?_, ?_⟩
  · rw [silent, queue, List.nil_append]
  · rw [silent]
    exact Nat.zero_le 1
  · intro rested
    rw [rest, rested]
  · rw [PacketTypeCodec.drivers, queue, PacketTypeCodec.drivers]

theorem Passes.of_rxRawPacket (data : ∀ msg ∈ n.m_txQueue.m_txMsg, Client.isData msg = true)
    (run : n.rxRawPacket bb stack = some (n', effects)) : Passes n n' (sentBy effects) := by
  obtain ⟨flow, few⟩ := rxRawPacket_flow data run
  exact ⟨flow, few, fun rested => Station.rxRawPacket_rxMsg rested run, rxRawPacket_drivers run⟩

/-- The same for a turn of the master. -/
theorem Passes.of_turn {m m' : Master} {rxInProgress : Bool} {ev : Event}
    (data : ∀ msg ∈ m.m_node.m_txQueue.m_txMsg, Client.isData msg = true)
    (taken : Master.TurnCase m rxInProgress ev m') : Passes m.m_node m'.m_node (sentBy m'.m_out) := by
  open Master in
  cases taken with
  | ignored _ => exact .of_silent rfl rfl rfl
  | rearmed _ => exact .of_silent rfl rfl rfl
  | ownIdle _ _ _ _ => exact .of_silent (by simp) (by simp) (by simp)
  | ownSends _ _ _ packets =>
    cases waiting : m.m_node.m_txQueue.m_txMsg with
    | nil =>
      rw [TxQueue.txQueueEmpty, waiting] at packets
      cases packets
    | cons msg rest =>
      have isMsg := data msg (waiting ▸ List.mem_cons_self)
      have next : m.consume.sendClientPacket =
          { m.consume with
            m_node := { m.m_node with m_txQueue := { m.m_node.m_txQueue with m_txMsg := rest } }
            m_out := [.sendMsg msg] } := by
        simp [sendClientPacket, TxQueue.sendClientPacket, waiting]
      have sent : sentBy (m.consume.sendClientPacket.goto .waitClientPacketDone).m_out = [msg] := by
        simp [next, entrySends]
      rw [sent, goto_node, next]
      refine ⟨?_, ?_, fun rested => rested, rfl⟩
      · rw [List.filter_cons_of_pos isMsg, waiting]
        rfl
      · exact List.length_filter_le _ _
  | grants _ _ _ => exact .of_silent (by simp) (by simp) (by simp [entrySends, Client.isData])
  | queries _ _ => exact .of_silent (by simp) (by simp) (by simp [entrySends, Client.isData])
  | starts _ _ => exact .of_silent (by simp) (by simp) (by simp [entrySends, Client.isData])
  | grantSeen _ => exact .of_silent (by simp) (by simp) (by simp [entrySends])
  | grantLost _ => exact .of_silent (by simp) (by simp) (by simp [entrySends])
  | @requested aReq _ =>
    refine .of_silent (by simp) (by simp) ?_
    rcases Bus.receivedAddressRequest_out m.consume aReq with none | ⟨d, one⟩
    · simp [none, entrySends]
    · simp [one, entrySends, Client.isData, Bus.reply]
  | reported _ _ => exact .of_silent (by simp) (by simp) (by simp [entrySends])

end PacketTypeCodec

namespace Master

variable {m m' : Master}

/-- Only its host and the bus make the node of the master do anything. -/
theorem stimulus_node {now : ℚ} {e : Stimulus} (local_ : Bus.Local (.stimulus now e))
    (unasked : Submission.ofLabel (.stimulus now e) = none) (taken : StimulusCase m now e m') :
    m'.m_node = m.m_node := by
  cases taken with
  | packet _ => cases local_
  | sendPacket => cases unasked
  | sendMacUpdate => cases unasked
  | delayIdle _ =>
    rw [startNext_node]
    rfl
  | _ => rfl

theorem stimulus_submits {now : ℚ} {e : Stimulus} {s : Submission}
    (asked : Submission.ofLabel (.stimulus now e) = some s) (taken : StimulusCase m now e m') :
    m'.m_node = { m.m_node with m_txQueue := s.submit m.m_node.m_txQueue } ∧ sentBy m'.m_out = [] := by
  cases taken with
  | sendPacket =>
    cases asked
    exact ⟨rfl, rfl⟩
  | sendMacUpdate =>
    cases asked
    exact ⟨rfl, rfl⟩
  | _ => cases asked

end Master

end SerialNet
