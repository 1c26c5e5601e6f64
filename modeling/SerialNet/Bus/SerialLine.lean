import SerialNet.Bus.Lossy
import SerialNet.Bus.Traffic
import SerialNet.ByteChunks
import SerialNet.FrameCorruption

namespace SerialNet

/-! Bytes a decoder makes nothing of -/

namespace FrameCodec

/-- Between two frames: no packet comes of the bytes, and the next frame is read from its
first byte on. So it is with noise that does not look like a frame, and with a frame that has
a changed byte in its payload or its checksum. As a rule it is not so with one whose length is
damaged, that is cut off or that lacks a byte, after which the decoder takes what follows for
payload, and never where the checksum misses the damage. -/
def Harmless (bytes : ByteVec) : Prop :=
  ∀ c : FrameCodec, c.m_state = .getKW → (c.receiveData bytes).1.m_state = .getKW ∧ (c.receiveData bytes).2 = []

theorem harmless_noise {noise : ByteVec} (clean : keyword ∉ noise) : Harmless noise := by
  intro c waiting
  rw [receiveData_noise waiting clean]
  exact ⟨waiting, rfl⟩

/-- A frame with a changed byte in its payload or its checksum. -/
theorem harmless_corrupted {p : ByteVec} (sizes : 1 ≤ p.length ∧ p.length ≤ 16383) {i : Nat}
    (lower : (frameHeader p.length).length ≤ i) (inside : i < (frameHeader p.length).length + p.length + 1) {b : Byte}
    (different : (encodePacket p)[i]? ≠ some b) : Harmless ((encodePacket p).set i b) := by
  intro c waiting
  obtain ⟨f, frame, size, broken⟩ := corrupted_frame sizes.2 lower inside different
  have nonempty : f.payload ≠ [] := by
    refine List.ne_nil_of_length_pos ?_
    omega
  rw [frame, receiveData_bytes waiting f nonempty]
  exact ⟨rfl, by simp [broken]⟩

theorem decodeByte_decodeCB (c : FrameCodec) (b : Byte) : (c.decodeByte b).1.m_decodeCB = c.m_decodeCB := by
  unfold decodeByte
  split
  · split <;> rfl
  · dsimp only
    split <;> rfl
  · dsimp only
    split <;> rfl
  · rfl
  · rfl

theorem receiveData_decodeCB (c : FrameCodec) (bytes : ByteVec) :
    (c.receiveData bytes).1.m_decodeCB = c.m_decodeCB := by
  induction bytes generalizing c with
  | nil => rfl
  | cons b rest ih => exact (ih (c.decodeByte b).1).trans (c.decodeByte_decodeCB b)

theorem receiveData_append (c : FrameCodec) (before after : ByteVec) :
    c.receiveData (before ++ after) =
      (((c.receiveData before).1.receiveData after).1,
        (c.receiveData before).2 ++ ((c.receiveData before).1.receiveData after).2) :=
  Mealy.run_append decodeByte c before after

end FrameCodec

/-- The packets a frame can hold. -/
def Sized (bb : ByteVec) : Prop := 1 ≤ bb.length ∧ bb.length ≤ 16383

/-- Packets have been sent, and this is what becomes of them on their way to one node: the
bytes it can read, and the packets whose frames are still whole in them. The damage is of the
kind the decoder gets over. -/
inductive Arrives : List ByteVec → ByteVec → List ByteVec → Prop
  | nil : Arrives [] [] []
  | intact {msg sent bytes got} : Arrives sent bytes got →
      Arrives (msg :: sent) (MsgToByteAdapter.sendMsg msg ++ bytes) (msg :: got)
  | damaged {msg debris sent bytes got} : FrameCodec.Harmless debris → Arrives sent bytes got →
      Arrives (msg :: sent) (debris ++ bytes) got

/-! The end of the line at one node -/

/-- The adapter, the bytes it has still to read, and the packets of the call to it that has
not come back yet. They are handed on one by one. -/
structure Port where
  m_msgToByteAdapter : MsgToByteAdapter
  unread : ByteVec
  decoded : List ByteVec

namespace Port

def initial : Port := ⟨.initial true, [], []⟩

/-- The packets the node is going to hear if nothing else happens. -/
def coming (p : Port) : List ByteVec := p.decoded ++ (p.m_msgToByteAdapter.m_codec.receiveData p.unread).2

/-- The decoder is between two frames once it has read everything. -/
structure InSync (p : Port) : Prop where
  listening : p.m_msgToByteAdapter.m_codec.m_decodeCB = true
  waiting : (p.m_msgToByteAdapter.m_codec.receiveData p.unread).1.m_state = .getKW

/-- More bytes come along the line. -/
def put (p : Port) (bytes : ByteVec) : Port := { p with unread := p.unread ++ bytes }

/-- The first of the unread bytes are read. -/
def readSerial (p : Port) (now : ℚ) (size : Nat) : Port :=
  let received := p.m_msgToByteAdapter.receiveBytes now (p.unread.take size)
  { m_msgToByteAdapter := received.1, unread := p.unread.drop size, decoded := received.2 }

def packetRxInProgress (p : Port) (now : ℚ) : Port × Bool :=
  let answer := p.m_msgToByteAdapter.packetRxInProgress now
  ({ p with m_msgToByteAdapter := answer.1 }, answer.2)

/-- Since the last byte of a frame in progress, or the last time that was asked for, no more
time has passed than the adapter puts up with. -/
def Prompt (p : Port) (now : ℚ) : Prop :=
  p.m_msgToByteAdapter.m_codec.rxInProgress = true →
    MsgToByteAdapter.WithinTimeout p.m_msgToByteAdapter.m_lastUpdate now

theorem inSync_initial : InSync initial := ⟨rfl, rfl⟩

section Calls

variable {p : Port} {now : ℚ}

/-- Reading takes nothing away and adds nothing. -/
theorem readSerial_spec (sync : InSync p) (rested : p.decoded = []) (prompt : p.Prompt now) (size : Nat) :
    InSync (p.readSerial now size) ∧ (p.readSerial now size).coming = p.coming := by
  have received := MsgToByteAdapter.receiveBytes_kept prompt (p.unread.take size)
  have whole := p.m_msgToByteAdapter.m_codec.receiveData_append (p.unread.take size) (p.unread.drop size)
  rw [List.take_append_drop] at whole
  refine ⟨⟨?_, ?_⟩, ?_⟩
  · rw [readSerial, received]
    exact (FrameCodec.receiveData_decodeCB _ _).trans sync.listening
  · have waiting := sync.waiting
    rw [whole] at waiting
    rw [readSerial, received]
    exact waiting
  · rw [coming, coming, readSerial, received, rested, whole]
    rfl

theorem packetRxInProgress_spec (sync : InSync p) (prompt : p.Prompt now) :
    InSync (p.packetRxInProgress now).1 ∧ (p.packetRxInProgress now).1.coming = p.coming := by
  have kept : (p.packetRxInProgress now).1.m_msgToByteAdapter.m_codec = p.m_msgToByteAdapter.m_codec := by
    rw [packetRxInProgress, MsgToByteAdapter.packetRxInProgress]
    by_cases busy : p.m_msgToByteAdapter.m_codec.rxInProgress = true
    · rw [MsgToByteAdapter.checkTimeout_soon busy (prompt busy)]
    · rw [MsgToByteAdapter.checkTimeout_idle (Bool.eq_false_iff.mpr busy)]
  refine ⟨⟨?_, ?_⟩, ?_⟩
  · rw [kept]
    exact sync.listening
  · rw [kept]
    exact sync.waiting
  · rw [coming, coming, kept]
    rfl

theorem put_harmless (sync : InSync p) {bytes : ByteVec} (harmless : FrameCodec.Harmless bytes) :
    InSync (p.put bytes) ∧ (p.put bytes).coming = p.coming := by
  obtain ⟨waiting, nothing⟩ := harmless _ sync.waiting
  refine ⟨⟨sync.listening, ?_⟩, ?_⟩
  · rw [put, FrameCodec.receiveData_append]
    exact waiting
  · rw [coming, coming, put, FrameCodec.receiveData_append, nothing, List.append_nil]

theorem put_sendMsg (sync : InSync p) {msg : ByteVec} (sized : Sized msg) :
    InSync (p.put (MsgToByteAdapter.sendMsg msg)) ∧
      (p.put (MsgToByteAdapter.sendMsg msg)).coming = p.coming ++ [msg] := by
  have listening := FrameCodec.receiveData_decodeCB p.m_msgToByteAdapter.m_codec p.unread
  obtain ⟨c, again, _, decoded⟩ := FrameCodec.receiveData_encodePacket sync.waiting
    (listening.trans sync.listening) (List.ne_nil_of_length_pos sized.1) sized.2
  refine ⟨⟨sync.listening, ?_⟩, ?_⟩
  · rw [put, FrameCodec.receiveData_append, MsgToByteAdapter.sendMsg, decoded]
    exact again
  · rw [coming, coming, put, FrameCodec.receiveData_append, MsgToByteAdapter.sendMsg, decoded, List.append_assoc]

/-- What arrives whole will be heard, after all that came before. -/
theorem put_arrives {sent got : List ByteVec} {bytes : ByteVec} (sync : InSync p) (arrives : Arrives sent bytes got)
    (sized : ∀ msg ∈ sent, Sized msg) : InSync (p.put bytes) ∧ (p.put bytes).coming = p.coming ++ got := by
  induction arrives generalizing p with
  | nil =>
    rw [put, List.append_nil, List.append_nil]
    exact ⟨sync, rfl⟩
  | @intact msg sent bytes got _ ih =>
    obtain ⟨sync', coming'⟩ := put_sendMsg sync (sized msg List.mem_cons_self)
    have later := ih sync' fun m member => sized m (List.mem_cons_of_mem _ member)
    rw [coming', List.append_assoc] at later
    rw [put, ← List.append_assoc]
    exact later
  | @damaged msg debris sent bytes got harmless _ ih =>
    obtain ⟨sync', coming'⟩ := put_harmless sync harmless
    have later := ih sync' fun m member => sized m (List.mem_cons_of_mem _ member)
    rw [coming'] at later
    rw [put, ← List.append_assoc]
    exact later

end Calls

end Port

theorem Arrives.exists_lost {sent got : List ByteVec} {bytes : ByteVec} (arrives : Arrives sent bytes got) :
    ∃ lost : List ByteVec, ∀ bb, got.count bb + lost.count bb = sent.count bb := by
  induction arrives with
  | nil => exact ⟨[], fun _ => rfl⟩
  | @intact msg _ _ _ _ ih =>
    obtain ⟨lost, all⟩ := ih
    refine ⟨lost, fun bb => ?_⟩
    have same := all bb
    rw [List.count_cons, List.count_cons]
    omega
  | @damaged msg _ _ _ _ _ _ ih =>
    obtain ⟨lost, all⟩ := ih
    refine ⟨msg :: lost, fun bb => ?_⟩
    have same := all bb
    rw [List.count_cons, List.count_cons]
    omega

/-! The whole line -/

/-- One master with its own node and the other nodes, on a serial line. The ports are in the
order of the nodes, that of the master first. -/
structure SerialLine where
  m_master : Master
  m_clients : List PacketTypeCodec
  m_ports : List Port

namespace SerialLine

open PacketTypeCodec Master

def nodes (s : SerialLine) : List PacketTypeCodec := s.m_master.m_node :: s.m_clients

/-- The packets the node at a place is going to hear. -/
def coming (ports : List Port) (i : Nat) : List ByteVec := (ports[i]?.map Port.coming).getD []

/-- The bytes of what is sent run to every node, and may be damaged on the way. -/
def Carried (sent : List ByteVec) (ports ports' : List Port) : Prop :=
  List.Forall₂ (fun p p' => ∃ bytes got, Arrives sent bytes got ∧ p' = Port.put p bytes) ports ports'

/-- The handlers of the states that wait for a client ask whether a packet is being
received when their timer has run out. -/
def asks (m : Master) : Bool :=
  m.m_fsm.m_eventQueue.head? = some .timer_timeout ∧
    (m.m_fsm.m_state = .waitClientPacketDone ∨ m.m_fsm.m_state = .queryAddress ∨
      m.m_fsm.m_state = .waitAddressReply)

inductive Move
  | master (l : Label)
  | hear (i : Nat) (bb : ByteVec)
  | submit (i : Nat) (submission : Submission)
  | readSerial (i : Nat) (now : ℚ) (size : Nat)
  | noise (i : Nat) (bytes : ByteVec)

/-- A packet is heard after the call that has decoded it, and before the node reads on or
anything else happens to it. -/
inductive Step : SerialLine → Move → SerialLine → Prop
  | receive {s : SerialLine} {bb rest now stack p master ports} : s.m_ports[0]? = some p → p.decoded = bb :: rest →
      s.m_master.Step (.stimulus now (.rxRawPacket bb stack)) master →
      Carried (sentBy master.m_out) (s.m_ports.set 0 { p with decoded := rest }) ports →
      Step s (.master (.stimulus now (.rxRawPacket bb stack))) { s with m_master := master, m_ports := ports }
  | turn {s : SerialLine} {rxInProgress p master ports} : s.m_ports[0]? = some p →
      (asks s.m_master = true → rxInProgress = (p.packetRxInProgress s.m_master.m_now).2) →
      s.m_master.Step (.turn rxInProgress) master →
      Carried (sentBy master.m_out)
        (if asks s.m_master then s.m_ports.set 0 (p.packetRxInProgress s.m_master.m_now).1 else s.m_ports) ports →
      Step s (.master (.turn rxInProgress)) { s with m_master := master, m_ports := ports }
  | stimulus {s : SerialLine} {now stimulus p master ports} : s.m_ports[0]? = some p → p.decoded = [] →
      Bus.Local (.stimulus now stimulus) → s.m_master.Step (.stimulus now stimulus) master →
      Carried (sentBy master.m_out) s.m_ports ports →
      Step s (.master (.stimulus now stimulus)) { s with m_master := master, m_ports := ports }
  | hear {s : SerialLine} {i bb rest p n n' sent ports} : s.m_clients[i]? = some n → s.m_ports[i + 1]? = some p →
      p.decoded = bb :: rest → Hears bb n n' sent →
      Carried sent (s.m_ports.set (i + 1) { p with decoded := rest }) ports →
      Step s (.hear i bb) { s with m_clients := s.m_clients.set i n', m_ports := ports }
  | submit {s : SerialLine} {i p n submission} : s.m_clients[i]? = some n → s.m_ports[i + 1]? = some p →
      p.decoded = [] → Step s (.submit i submission)
        { s with m_clients := s.m_clients.set i { n with m_txQueue := submission.submit n.m_txQueue } }
  | readSerial {s : SerialLine} {i now size p} : s.m_ports[i]? = some p → p.decoded = [] → p.unread ≠ [] → 0 < size →
      size ≤ 2048 → Step s (.readSerial i now size) { s with m_ports := s.m_ports.set i (p.readSerial now size) }
  | noise {s : SerialLine} {i bytes p} : s.m_ports[i]? = some p → FrameCodec.Harmless bytes →
      Step s (.noise i bytes) { s with m_ports := s.m_ports.set i (p.put bytes) }

/-- The packet made of the data still fits a frame. -/
def Fits : Submission → Prop
  | .sendPacket data _ _ => data.length ≤ 16379
  | .sendMacUpdate _ => True

/-- A dynamic node with the id holds the address, or is going to hear a reply that gives it
the address. -/
def InUse (s : SerialLine) (d : LocalAddress) (u : UniqueId) : Prop :=
  ∃ i n, s.nodes[i]? = some n ∧ n.dynamic = true ∧ n.m_uniqueId = u ∧
    (n.address = d ∨ Bus.reply d u ∈ coming s.m_ports i)

/-- The line is read in time, and hosts submit packets that fit. -/
def InTime (s : SerialLine) : Move → Prop
  | .master l => (asks s.m_master = true → ∀ p, s.m_ports[0]? = some p → p.Prompt s.m_master.m_now) ∧
    ∀ submission, Submission.ofLabel l = some submission → Fits submission
  | .submit _ submission => Fits submission
  | .readSerial i now _ => ∀ p, s.m_ports[i]? = some p → p.Prompt now
  | _ => True

/-- The master, too, sees its token grants in time, and gives up no line that is in use. -/
def Careful (s : SerialLine) (move : Move) : Prop :=
  s.InTime move ∧ ∀ l, move = .master l → ¬ s.m_master.LosesGrant l ∧
    ∀ line, LossyBus.GivesUp s.m_master line l → ¬ s.InUse line.m_address line.m_uniqueId

/-! Runs that can be computed -/

instance (p : Port) (now : ℚ) : Decidable (p.Prompt now) :=
  inferInstanceAs (Decidable (_ → (_ : ℚ) ≤ _))

theorem arrives_whole (sent : List ByteVec) : Arrives sent (sent.flatMap MsgToByteAdapter.sendMsg) sent := by
  induction sent with
  | nil => exact .nil
  | cons msg rest ih => exact .intact ih

/-- Nothing is damaged. -/
def carryWhole (sent : List ByteVec) (ports : List Port) : List Port :=
  ports.map (·.put (sent.flatMap MsgToByteAdapter.sendMsg))

theorem carried_whole (sent : List ByteVec) (ports : List Port) : Carried sent ports (carryWhole sent ports) := by
  rw [carryWhole, Carried, List.forall₂_map_right_iff, List.forall₂_same]
  intro p _
  exact ⟨_, _, arrives_whole sent, rfl⟩

/-- A step as a function. Hosts submit nothing, and there is no noise. -/
def exec (s : SerialLine) : Move → Option SerialLine
  | .master (.stimulus now (.rxRawPacket bb stack)) => do
    let p ← s.m_ports[0]?
    match p.decoded with
    | [] => none
    | first :: rest =>
      if first = bb then
        (s.m_master.exec (.stimulus now (.rxRawPacket bb stack))).map fun master => { s with
          m_master := master
          m_ports := carryWhole (sentBy master.m_out) (s.m_ports.set 0 { p with decoded := rest }) }
      else none
  | .master (.turn rxInProgress) => do
    let p ← s.m_ports[0]?
    if asks s.m_master = true → rxInProgress = (p.packetRxInProgress s.m_master.m_now).2 then
      (s.m_master.exec (.turn rxInProgress)).map fun master => { s with
        m_master := master
        m_ports := carryWhole (sentBy master.m_out)
          (if asks s.m_master then s.m_ports.set 0 (p.packetRxInProgress s.m_master.m_now).1 else s.m_ports) }
    else none
  | .master (.stimulus now stimulus) => do
    let p ← s.m_ports[0]?
    if p.decoded = [] then
      (s.m_master.exec (.stimulus now stimulus)).map fun master => { s with
        m_master := master, m_ports := carryWhole (sentBy master.m_out) s.m_ports }
    else none
  | .hear i bb => do
    let n ← s.m_clients[i]?
    let p ← s.m_ports[i + 1]?
    match p.decoded with
    | [] => none
    | first :: rest =>
      if first = bb then do
        let (n', effects) ← n.rxRawPacket bb sampleStack
        some { s with
          m_clients := s.m_clients.set i n'
          m_ports := carryWhole (sentBy effects) (s.m_ports.set (i + 1) { p with decoded := rest }) }
      else none
  | .readSerial i now size => do
    let p ← s.m_ports[i]?
    if p.decoded = [] ∧ p.unread ≠ [] ∧ 0 < size ∧ size ≤ 2048 then
      some { s with m_ports := s.m_ports.set i (p.readSerial now size) }
    else none
  | _ => none

theorem exec_step {s s' : SerialLine} {move : Move} (run : s.exec move = some s') : Step s move s' := by
  unfold exec at run
  split at run
  · obtain ⟨p, here, run⟩ := Option.bind_eq_some_iff.mp run
    split at run
    · cases run
    · rename_i first rest decoded
      split at run
      · rename_i same
        obtain ⟨master, moved, rfl⟩ := Option.map_eq_some_iff.mp run
        exact .receive here (same ▸ decoded) (Master.exec_step moved) (carried_whole _ _)
      · cases run
  · obtain ⟨p, here, run⟩ := Option.bind_eq_some_iff.mp run
    split at run
    · rename_i answer
      obtain ⟨master, moved, rfl⟩ := Option.map_eq_some_iff.mp run
      exact .turn here answer (Master.exec_step moved) (carried_whole _ _)
    · cases run
  · rename_i now stimulus noPacket
    obtain ⟨p, here, run⟩ := Option.bind_eq_some_iff.mp run
    split at run
    · rename_i rested
      obtain ⟨master, moved, rfl⟩ := Option.map_eq_some_iff.mp run
      refine .stimulus here rested ?_ (Master.exec_step moved) (carried_whole _ _)
      cases stimulus with
      | rxRawPacket bb stack => exact (noPacket bb stack rfl).elim
      | _ => trivial
    · cases run
  · obtain ⟨n, client, run⟩ := Option.bind_eq_some_iff.mp run
    obtain ⟨p, here, run⟩ := Option.bind_eq_some_iff.mp run
    split at run
    · cases run
    · rename_i first rest decoded
      split at run
      · rename_i same
        obtain ⟨⟨n', effects⟩, heard, run⟩ := Option.bind_eq_some_iff.mp run
        cases Option.some.inj run
        exact .hear client here (same ▸ decoded) ⟨_, effects, heard, rfl⟩ (carried_whole _ _)
      · cases run
  · obtain ⟨p, here, run⟩ := Option.bind_eq_some_iff.mp run
    split at run
    · rename_i ok
      obtain ⟨rested, unread, some_, few⟩ := ok
      cases Option.some.inj run
      exact .readSerial here rested unread some_ few
    · cases run
  · cases run

/-- The line is read in time, hosts submit nothing, no grant is lost, and no dynamic line
has missed enough to be given up. -/
def plainlyCareful (s : SerialLine) : Move → Bool
  | .master l => (¬ s.m_master.LosesGrant l ∧
      ∀ line ∈ s.m_master.m_dynamicHandler.m_table, line.m_isDynamic = true → line.m_badCount < 3) ∧
    (asks s.m_master = true → ∀ p ∈ s.m_ports[0]?, p.Prompt s.m_master.m_now) ∧ Submission.ofLabel l = none
  | .submit _ _ => false
  | .readSerial i now _ => ∀ p ∈ s.m_ports[i]?, p.Prompt now
  | _ => true

theorem careful_of_plainly {s : SerialLine} {move : Move} (plain : plainlyCareful s move = true) : s.Careful move := by
  cases move with
  | master l =>
    obtain ⟨⟨seen, few⟩, prompt, nothing⟩ := of_decide_eq_true plain
    refine ⟨⟨prompt, ?_⟩, ?_⟩
    · intro submission submits
      rw [nothing] at submits
      cases submits
    · rintro _ ⟨⟩
      refine ⟨seen, ?_⟩
      intro line givesUp
      cases l with
      | stimulus => cases givesUp
      | turn rxInProgress =>
        obtain ⟨_, _, _, member, _, isDynamic, missed⟩ := givesUp
        have below := few line member isDynamic
        omega
  | submit => cases plain
  | readSerial i now size =>
    have prompt : ∀ p ∈ s.m_ports[i]?, p.Prompt now := of_decide_eq_true plain
    exact ⟨prompt, by rintro _ ⟨⟩⟩
  | hear => exact ⟨trivial, by rintro _ ⟨⟩⟩
  | noise => exact ⟨trivial, by rintro _ ⟨⟩⟩

end SerialLine

end SerialNet
