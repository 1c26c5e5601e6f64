import SerialNet.Bus.Broadcast
import SerialNet.Bus.LineRuns

namespace SerialNet

open PacketTypeCodec Master

/-! What is on the line, in order -/

theorem Arrives.sublist {sent got : List ByteVec} {bytes : ByteVec} (arrives : Arrives sent bytes got) :
    got.Sublist sent := by
  induction arrives with
  | nil => exact .slnil
  | intact _ ih => exact ih.cons_cons _
  | damaged _ _ ih => exact ih.cons _

/-- Each node is going to hear some of what is sent, in the same order, after all that came
before it. -/
theorem SerialLine.Carried.coming_append {sent : List ByteVec} {ports ports' : List Port}
    (carried : SerialLine.Carried sent ports ports') (sync : ∀ p ∈ ports, p.InSync) (sized : ∀ msg ∈ sent, Sized msg)
    (j : Nat) : ∃ got : List ByteVec, got.Sublist sent ∧
      SerialLine.coming ports' j = SerialLine.coming ports j ++ got := by
  induction carried generalizing j with
  | nil => exact ⟨[], List.nil_sublist _, rfl⟩
  | @cons p _ ports ports' first _ ih =>
    obtain ⟨bytes, got, arrives, rfl⟩ := first
    cases j with
    | zero =>
      obtain ⟨_, coming⟩ := Port.put_arrives (sync p List.mem_cons_self) arrives sized
      exact ⟨got, arrives.sublist, coming⟩
    | succ j => exact ih (fun q member => sync q (List.mem_cons_of_mem _ member)) j

/-! What the drivers are told -/

def Sent.content (s : Sent) : Option (ByteVec × LocalAddress × LocalAddress × ChannelType) :=
  match s.submission with
  | .sendPacket data destAddr chType => some (data, s.srcAddr, destAddr, chType)
  | .sendMacUpdate _ => none

def Effect.content : Effect → Option (ByteVec × LocalAddress × LocalAddress × ChannelType)
  | .packetReceivedFromNet _ data srcAddr destAddr chType => some (data, srcAddr, destAddr, chType)
  | _ => none

theorem content_calls (s : Sent) (q : TxQueue) :
    ((s.calls q).filterMap Effect.content).Sublist ([s].filterMap Sent.content) := by
  obtain ⟨src, submission⟩ := s
  cases submission with
  | sendPacket data dest ch =>
    simp only [Sent.calls, Station.expectedCalls]
    split
    · cases q.getRxIf ch with
      | none => exact List.nil_sublist _
      | some rxIf => exact List.Sublist.refl _
    · exact List.nil_sublist _
  | sendMacUpdate mac => exact List.nil_sublist _

/-- Of the packets that have been sent a node has heard some and is going to hear some, in
the order of the line, and its drivers have been told nothing else. -/
def Hearing (line : List (Nat × Sent)) (log : HostLog) (coming : List ByteVec) : Prop :=
  ∃ heard later : List (Nat × Sent), (heard ++ later).Sublist line ∧
    later.map (·.2.bytes) = coming.filter Client.isData ∧
    (log.handed.filterMap Effect.content).Sublist (heard.filterMap (·.2.content))

namespace Hearing

variable {line : List (Nat × Sent)} {log : HostLog} {coming : List ByteVec}

/-- The first of the packets is heard. -/
theorem hear {bb : ByteVec} {rest : List ByteVec} (hearing : Hearing line log (bb :: rest)) {n n' : PacketTypeCodec}
    {stack : ChannelType × Crc32} {effects : List Effect} (rested : n.m_rxMsg = [])
    (run : n.rxRawPacket bb stack = some (n', effects)) {log' : HostLog}
    (handed : log'.handed = log.handed ++ effects.filter Station.isHostCall) : Hearing line log' rest := by
  obtain ⟨heard, later, order, bytes, told⟩ := hearing
  by_cases data : Client.isData bb = true
  · rw [List.filter_cons_of_pos data] at bytes
    obtain ⟨e, later, rfl, this, bytes⟩ := List.map_eq_cons_iff.mp bytes
    refine ⟨heard ++ [e], later, ?_, bytes, ?_⟩
    · rwa [List.append_assoc, List.singleton_append]
    · rw [← this] at run
      rw [handed, List.filterMap_append, List.filterMap_append, rxRawPacket_calls rested run]
      refine told.append ((content_calls e.2 n.m_txQueue).trans ?_)
      exact List.Sublist.refl _
  · rw [List.filter_cons_of_neg data] at bytes
    have other : kind bb ≠ some .send_packet := by
      intro type
      simp [Client.isData, type] at data
    refine ⟨heard, later, order, bytes, ?_⟩
    rwa [handed, rxRawPacket_hostless rested other run, List.append_nil]

/-- More is sent, and some of it comes. -/
theorem more (hearing : Hearing line log coming) {sent got : List ByteVec} {i : Nat} {new : List Sent}
    (shown : new.map Sent.bytes = sent.filter Client.isData) (some_ : got.Sublist sent) :
    Hearing (line ++ new.map (Prod.mk i)) log (coming ++ got) := by
  obtain ⟨heard, later, order, bytes, told⟩ := hearing
  have data := some_.filter Client.isData
  rw [← shown, List.sublist_map_iff] at data
  obtain ⟨new', fewer, same⟩ := data
  refine ⟨heard, later ++ new'.map (Prod.mk i), ?_, ?_, told⟩
  · rw [← List.append_assoc]
    exact order.append (fewer.map _)
  · rw [List.map_append, bytes, List.filter_append, same, List.map_map]
    rfl

theorem mono (hearing : Hearing line log coming) {log' : HostLog} (same : log'.handed = log.handed) :
    Hearing line log' coming := by
  obtain ⟨heard, later, order, bytes, told⟩ := hearing
  exact ⟨heard, later, order, bytes, same ▸ told⟩

end Hearing

/-- A serial line with the logs of the hosts, by the places of their nodes. -/
structure LineTraffic where
  m_line : SerialLine
  hosts : Nat → HostLog

namespace LineTraffic

open SerialLine Traffic

/-- The drivers of one node are called. -/
def handTo (hosts : Nat → HostLog) (i : Nat) (effects : List Effect) : Nat → HostLog :=
  Function.update hosts i { hosts i with handed := (hosts i).handed ++ effects.filter Station.isHostCall }

/-- The steps of the line, with what the hosts see of them. -/
inductive Step : LineTraffic → SerialLine.Move → LineTraffic → Prop
  | receive {s s' : SerialLine} {hosts now bb stack} :
      SerialLine.Step s (.master (.stimulus now (.rxRawPacket bb stack))) s' →
      Step ⟨s, hosts⟩ (.master (.stimulus now (.rxRawPacket bb stack))) ⟨s', handTo hosts 0 s'.m_master.m_out⟩
  | master {s s' : SerialLine} {hosts l} : Bus.Local l → SerialLine.Step s (.master l) s' →
      Step ⟨s, hosts⟩ (.master l) ⟨s', (Submission.ofLabel l).elim hosts (accept hosts 0 s.m_master.m_node)⟩
  | hear {s : SerialLine} {hosts i bb rest p n n' stack effects ports} : s.m_clients[i]? = some n →
      s.m_ports[i + 1]? = some p → p.decoded = bb :: rest → n.rxRawPacket bb stack = some (n', effects) →
      Carried (sentBy effects) (s.m_ports.set (i + 1) { p with decoded := rest }) ports →
      Step ⟨s, hosts⟩ (.hear i bb)
        ⟨{ s with m_clients := s.m_clients.set i n', m_ports := ports }, handTo hosts (i + 1) effects⟩
  | submit {s : SerialLine} {hosts i p n submission} : s.m_clients[i]? = some n → s.m_ports[i + 1]? = some p →
      p.decoded = [] → Step ⟨s, hosts⟩ (.submit i submission)
        ⟨{ s with m_clients := s.m_clients.set i { n with m_txQueue := submission.submit n.m_txQueue } },
          accept hosts (i + 1) n submission⟩
  | readSerial {s s' : SerialLine} {hosts i now size} : SerialLine.Step s (.readSerial i now size) s' →
      Step ⟨s, hosts⟩ (.readSerial i now size) ⟨s', hosts⟩
  | noise {s s' : SerialLine} {hosts i bytes} : SerialLine.Step s (.noise i bytes) s' →
      Step ⟨s, hosts⟩ (.noise i bytes) ⟨s', hosts⟩

/-- Without the logs it is the line. -/
theorem Step.forget {t t' : LineTraffic} {move : SerialLine.Move} (step : Step t move t') :
    SerialLine.Step t.m_line move t'.m_line := by
  cases step with
  | receive received => exact received
  | master _ moved => exact moved
  | hear client here first run carried => exact .hear client here first ⟨_, _, run, rfl⟩ carried
  | submit client here rested => exact .submit client here rested
  | readSerial read => exact read
  | noise noise => exact noise

theorem handTo_accepted (hosts : Nat → HostLog) (i j : Nat) (effects : List Effect) :
    (handTo hosts i effects j).accepted = (hosts j).accepted := by
  rw [handTo]
  by_cases same : j = i
  · rw [same, Function.update_self]
  · rw [Function.update_of_ne same]

/-- What holds of the line and of the logs at all times. -/
structure Logged (t : LineTraffic) (line : List (Nat × Sent)) (waiting : Nat → List Sent) : Prop where
  mirrored : ∃ b, Mirrors t.m_line b
  rested : ∀ n ∈ t.m_line.nodes, n.m_rxMsg = []
  queues : Waiting 0 t.m_line.nodes waiting
  accepted : ∀ i, (t.hosts i).accepted = line.fromPlace i ++ waiting i
  hearing : ∀ j, Hearing line (t.hosts j) (coming t.m_line.m_ports j)

namespace Logged

variable {t t' : LineTraffic} {line : List (Nat × Sent)} {waiting : Nat → List Sent}

theorem sync (logged : Logged t line waiting) : ∀ p ∈ t.m_line.m_ports, p.InSync := by
  obtain ⟨b, mirrors⟩ := logged.mirrored
  exact mirrors.sync

theorem sized (logged : Logged t line waiting) : ∀ n ∈ t.m_line.nodes, SizedQueue n := by
  obtain ⟨b, mirrors⟩ := logged.mirrored
  exact mirrors.sized

theorem synced (logged : Logged t line waiting) : Synced t.m_line.m_master := by
  obtain ⟨b, mirrors⟩ := logged.mirrored
  exact mirrors.synced

/-- One node sends from the front of its queue. -/
theorem send (logged : Logged t line waiting) (mirrored : ∃ b, Mirrors t'.m_line b) {i : Nat} {n n' : PacketTypeCodec}
    {sent : List ByteVec} {ports : List Port} (present : t.m_line.nodes[i]? = some n) (pass : Passes n n' sent)
    (nodes : t'.m_line.nodes = t.m_line.nodes.set i n') (carried : Carried sent ports t'.m_line.m_ports)
    (sync : ∀ p ∈ ports, p.InSync) (sized : ∀ msg ∈ sent, Sized msg)
    (accepted : ∀ k, (t'.hosts k).accepted = (t.hosts k).accepted)
    (hearing : ∀ j, Hearing line (t'.hosts j) (coming ports j)) :
    ∃ line' waiting', Logged t' line' waiting' := by
  have queue := logged.queues i n present
  rw [Nat.zero_add, pass.flow] at queue
  obtain ⟨new, left, split, shown, rest⟩ := List.map_eq_append_iff.mp queue
  refine ⟨line ++ new.map (Prod.mk i), Function.update waiting i left, mirrored, ?_, ?_, ?_, ?_⟩
  · intro m member
    rw [nodes] at member
    rcases List.mem_or_eq_of_mem_set member with old | rfl
    · exact logged.rested m old
    · exact pass.rested (logged.rested n (List.mem_of_getElem? present))
  · rw [nodes]
    exact logged.queues.set i rest
  · intro k
    rw [accepted, logged.accepted, List.fromPlace_append]
    by_cases same : k = i
    · rw [same, List.fromPlace_mark, Function.update_self, split, List.append_assoc]
    · rw [List.fromPlace_mark_of_ne (Ne.symm same), Function.update_of_ne same, List.append_nil]
  · intro j
    obtain ⟨got, some_, coming'⟩ := carried.coming_append sync sized j
    rw [coming']
    exact (hearing j).more shown some_

/-- One host submits. -/
theorem submit (logged : Logged t line waiting) (mirrored : ∃ b, Mirrors t'.m_line b) {i : Nat}
    {n n' : PacketTypeCodec} {s : Submission} (present : t.m_line.nodes[i]? = some n)
    (changed : n' = { n with m_txQueue := s.submit n.m_txQueue }) (nodes : t'.m_line.nodes = t.m_line.nodes.set i n')
    (hosts : t'.hosts = accept t.hosts i n s)
    (same : ∀ j, coming t'.m_line.m_ports j = coming t.m_line.m_ports j) :
    ∃ line' waiting', Logged t' line' waiting' := by
  subst changed
  refine ⟨line, Function.update waiting i (waiting i ++ s.accepted n), mirrored, ?_, ?_, ?_, ?_⟩
  · intro m member
    rw [nodes] at member
    rcases List.mem_or_eq_of_mem_set member with old | rfl
    · exact logged.rested m old
    · exact logged.rested n (List.mem_of_getElem? present)
  · rw [nodes]
    exact logged.queues.submit present rfl
  · intro k
    rw [hosts, accept_accepted]
    by_cases at_ : k = i
    · rw [if_pos at_, at_, Function.update_self, logged.accepted, List.append_assoc]
    · rw [if_neg at_, Function.update_of_ne at_, logged.accepted]
  · intro j
    rw [same]
    refine (logged.hearing j).mono ?_
    rw [hosts, accept_handed]

/-- A node has heard the first packet that was coming. -/
theorem hear (logged : Logged t line waiting) {i : Nat} {p : Port} {bb : ByteVec} {rest : List ByteVec}
    {n n' : PacketTypeCodec} {stack : ChannelType × Crc32} {effects effects' : List Effect}
    (here : t.m_line.m_ports[i]? = some p) (first : p.decoded = bb :: rest) (present : t.m_line.nodes[i]? = some n)
    (run : n.rxRawPacket bb stack = some (n', effects))
    (same : effects'.filter Station.isHostCall = effects.filter Station.isHostCall) (j : Nat) :
    Hearing line (handTo t.hosts i effects' j) (coming (t.m_line.m_ports.set i { p with decoded := rest }) j) := by
  have before := logged.hearing j
  rw [coming_set here]
  by_cases at_ : j = i
  · subst at_
    have front : coming t.m_line.m_ports j = bb :: Port.coming { p with decoded := rest } := by
      rw [coming_eq here, Port.coming, first]
      rfl
    rw [front] at before
    rw [if_pos rfl]
    refine before.hear (logged.rested n (List.mem_of_getElem? present)) run ?_
    rw [handTo, Function.update_self, same]
  · rw [if_neg at_]
    refine before.mono ?_
    rw [handTo, Function.update_of_ne at_]

/-- Bytes are read, or turn up, that do not change what is heard. -/
theorem still (logged : Logged t line waiting) (mirrored : ∃ b, Mirrors t'.m_line b)
    (nodes : t'.m_line.nodes = t.m_line.nodes) (hosts : t'.hosts = t.hosts)
    (same : ∀ j, coming t'.m_line.m_ports j = coming t.m_line.m_ports j) : Logged t' line waiting := by
  refine ⟨mirrored, nodes ▸ logged.rested, nodes ▸ logged.queues, hosts ▸ logged.accepted, ?_⟩
  intro j
  rw [hosts, same]
  exact logged.hearing j

theorem nodes_master (s : SerialLine) (master : Master) (ports : List Port) :
    SerialLine.nodes { s with m_master := master, m_ports := ports } = s.nodes.set 0 master.m_node := rfl

theorem nodes_client (s : SerialLine) (i : Nat) (n : PacketTypeCodec) (ports : List Port) :
    SerialLine.nodes { s with m_clients := s.m_clients.set i n, m_ports := ports } = s.nodes.set (i + 1) n := rfl

/-- The master hears the first packet that was coming. -/
theorem receive {s s' : SerialLine} {hosts : Nat → HostLog} (logged : Logged ⟨s, hosts⟩ line waiting)
    (mirrored : ∃ b, Mirrors s' b) {now : ℚ} {bb : ByteVec} {stack : ChannelType × Crc32}
    (step : SerialLine.Step s (.master (.stimulus now (.rxRawPacket bb stack))) s') :
    ∃ line' waiting', Logged ⟨s', handTo hosts 0 s'.m_master.m_out⟩ line' waiting' := by
  have present : s.nodes[0]? = some s.m_master.m_node := rfl
  cases step with
  | stimulus _ _ local_ => cases local_
  | @receive _ rest _ _ p master ports here first moved carried =>
    obtain ⟨_, _, sized⟩ := sized_step logged.synced (logged.sized _ List.mem_cons_self) (by rintro _ ⟨⟩) moved
    have sync := logged.sync p (List.mem_of_getElem? here)
    rcases logged.synced.step_cases moved with ⟨_, _, turn, _⟩ | ⟨_, _, label, _, _, _, taken⟩
    · cases turn
    · cases label
      cases taken with
      | @packet _ _ node effects run =>
        have pass := Passes.of_rxRawPacket (logged.queues.data _ List.mem_cons_self) run
        have hearing := logged.hear here first present run (filter_isHostCall_outward effects)
        rw [← sentBy_outward] at pass
        exact logged.send mirrored present pass (nodes_master s _ ports) carried
          (Mirrors.inSync_set logged.sync ⟨sync.listening, sync.waiting⟩) sized
          (fun k => handTo_accepted hosts 0 k _) hearing

/-- The master does something by itself, or for its host. -/
theorem act {s : SerialLine} {hosts : Nat → HostLog} (logged : Logged ⟨s, hosts⟩ line waiting) {l : Label}
    {master : Master} {ports ports' : List Port} (mirrored : ∃ b, Mirrors ⟨master, s.m_clients, ports'⟩ b)
    (local_ : Bus.Local l) (moved : s.m_master.Step l master) (carried : Carried (sentBy master.m_out) ports ports')
    (sync : ∀ p ∈ ports, p.InSync) (same : ∀ j, coming ports j = coming s.m_ports j) :
    ∃ line' waiting', Logged ⟨⟨master, s.m_clients, ports'⟩,
      (Submission.ofLabel l).elim hosts (accept hosts 0 s.m_master.m_node)⟩ line' waiting' := by
  have present : s.nodes[0]? = some s.m_master.m_node := rfl
  have hearing : ∀ j, Hearing line (hosts j) (coming ports j) := fun j => same j ▸ logged.hearing j
  have data := logged.queues.data s.m_master.m_node List.mem_cons_self
  rcases logged.synced.step_cases moved with ⟨_, _, rfl, _, taken⟩ | ⟨now, e, rfl, _, _, _, taken⟩
  · exact logged.send mirrored present (.of_turn data taken) rfl carried sync
      (fun _ sent => sized_turn taken (logged.sized _ List.mem_cons_self) sent) (fun _ => rfl) hearing
  · cases asked : Submission.ofLabel (.stimulus now e) with
    | none =>
      have silent := (sized_stimulus local_ taken (logged.sized _ List.mem_cons_self)
        (by rw [asked]; rintro _ ⟨⟩)).2
      have pass : Passes s.m_master.m_node master.m_node [] := by
        rw [stimulus_node local_ asked taken]
        exact .of_silent rfl rfl rfl
      rw [silent] at carried
      exact logged.send mirrored present pass rfl carried sync (by rintro _ ⟨⟩) (fun _ => rfl) hearing
    | some submission =>
      obtain ⟨node, silent⟩ := stimulus_submits asked taken
      rw [silent] at carried
      refine logged.submit mirrored present node rfl rfl ?_
      intro j
      obtain ⟨got, none, coming'⟩ := carried.coming_append sync (by rintro _ ⟨⟩) j
      rw [coming', List.sublist_nil.mp none, List.append_nil, same]

theorem step (logged : Logged t line waiting) {move : SerialLine.Move} (inTime : t.m_line.InTime move)
    (step : Step t move t') : ∃ line' waiting', Logged t' line' waiting' := by
  have mirrored : ∃ b, Mirrors t'.m_line b := by
    obtain ⟨b, mirrors⟩ := logged.mirrored
    have moves : ∃ b', LabelledReach LossyBus.Step (fun _ _ => True) b b' ∧ Mirrors t'.m_line b' :=
      mirrors.step (fun _ _ _ => trivial) inTime (fun _ _ => trivial) step.forget
    exact moves.imp fun _ => And.right
  cases step with
  | receive received => exact logged.receive mirrored received
  | @master s s' hosts l local_ moved =>
    cases moved with
    | receive => cases local_
    | @turn rxInProgress p master ports here answer moved carried =>
      have sync := logged.sync p (List.mem_of_getElem? here)
      by_cases polls : asks s.m_master = true
      · obtain ⟨sync', same⟩ := Port.packetRxInProgress_spec sync (inTime.1 polls p here)
        rw [if_pos polls] at carried
        exact logged.act mirrored local_ moved carried (Mirrors.inSync_set logged.sync sync')
          (Mirrors.coming_set_same here same)
      · rw [if_neg polls] at carried
        exact logged.act mirrored local_ moved carried logged.sync fun _ => rfl
    | stimulus _ _ _ moved carried => exact logged.act mirrored local_ moved carried logged.sync fun _ => rfl
  | @hear s hosts i bb rest p n n' stack effects ports client here first run carried =>
    have present : s.nodes[i + 1]? = some n := client
    have member := List.mem_of_getElem? present
    have sync := logged.sync p (List.mem_of_getElem? here)
    have hears : Hears bb n n' (sentBy effects) := ⟨stack, effects, run, rfl⟩
    exact logged.send mirrored present (.of_rxRawPacket (logged.queues.data n member) run) (nodes_client s i n' ports)
      carried (Mirrors.inSync_set logged.sync ⟨sync.listening, sync.waiting⟩) (hears.sized (logged.sized n member)).2
      (fun k => handTo_accepted hosts (i + 1) k effects) (logged.hear here first present run rfl)
  | @submit s hosts i p n submission client _ _ =>
    have present : s.nodes[i + 1]? = some n := client
    exact logged.submit mirrored present rfl (nodes_client s i _ s.m_ports) rfl fun _ => rfl
  | @readSerial s s' hosts i now size read =>
    cases read with
    | readSerial here rested =>
      have sync := logged.sync _ (List.mem_of_getElem? here)
      exact ⟨line, waiting, logged.still mirrored rfl rfl
        (Mirrors.coming_set_same here (Port.readSerial_spec sync rested (inTime _ here) size).2)⟩
  | @noise s s' hosts i bytes noise =>
    cases noise with
    | noise here harmless =>
      have sync := logged.sync _ (List.mem_of_getElem? here)
      exact ⟨line, waiting, logged.still mirrored rfl rfl
        (Mirrors.coming_set_same here (Port.put_harmless sync harmless).2)⟩

theorem start {cfg : Config} {uninitialised : Nat → UniqueId} {own : PacketTypeCodec} {clients : List PacketTypeCodec}
    (setup : LossyBus.Setup (own :: clients)) (rested : ∀ n ∈ own :: clients, n.m_rxMsg = []) {now : ℚ} {m₀ : Master}
    (constructed : Master.start cfg own uninitialised now = .ok m₀) :
    Logged ⟨atRest m₀ clients, fun _ => ⟨[], []⟩⟩ [] fun _ => [] := by
  have mirrors := mirrors_atRest setup constructed
  rw [start_eq] at constructed
  cases constructed
  refine ⟨⟨_, mirrors⟩, ?_, ?_, fun _ => rfl, ?_⟩
  · rintro n (_ | ⟨_, client⟩)
    · exact rested own List.mem_cons_self
    · exact rested n (List.mem_cons_of_mem _ client)
  · intro i n here
    rcases List.mem_cons.mp (List.mem_of_getElem? here) with rfl | client
    · exact (setup.fresh own List.mem_cons_self).1.symm
    · exact (setup.fresh n (List.mem_cons_of_mem _ client)).1.symm
  · intro j
    refine ⟨[], [], List.Sublist.refl _, ?_, List.Sublist.refl _⟩
    cases here : (atRest (started cfg own uninitialised now) clients).m_ports[j]? with
    | none =>
      rw [coming, here]
      rfl
    | some p =>
      rw [coming_eq here, List.eq_of_mem_replicate (List.mem_of_getElem? here)]
      rfl

end Logged

/-- A step as a function. Nothing is damaged, and there is no noise. -/
def exec (t : LineTraffic) : SerialLine.Move → Option LineTraffic
  | .master (.stimulus now (.rxRawPacket bb stack)) =>
    (t.m_line.exec (.master (.stimulus now (.rxRawPacket bb stack)))).map fun s =>
      ⟨s, handTo t.hosts 0 s.m_master.m_out⟩
  | .master l => (t.m_line.exec (.master l)).map fun s =>
      ⟨s, (Submission.ofLabel l).elim t.hosts (accept t.hosts 0 t.m_line.m_master.m_node)⟩
  | .hear i bb => do
    let n ← t.m_line.m_clients[i]?
    let p ← t.m_line.m_ports[i + 1]?
    match p.decoded with
    | [] => none
    | first :: rest =>
      if first = bb then do
        let (n', effects) ← n.rxRawPacket bb sampleStack
        let ports := carryWhole (sentBy effects) (t.m_line.m_ports.set (i + 1) { p with decoded := rest })
        some ⟨{ t.m_line with m_clients := t.m_line.m_clients.set i n', m_ports := ports },
          handTo t.hosts (i + 1) effects⟩
      else none
  | .submit i submission => do
    let n ← t.m_line.m_clients[i]?
    let p ← t.m_line.m_ports[i + 1]?
    if p.decoded = [] then
      let n' := { n with m_txQueue := submission.submit n.m_txQueue }
      some ⟨{ t.m_line with m_clients := t.m_line.m_clients.set i n' }, accept t.hosts (i + 1) n submission⟩
    else none
  | .readSerial i now size => (t.m_line.exec (.readSerial i now size)).map fun s => ⟨s, t.hosts⟩
  | .noise _ _ => none

theorem exec_step {t t' : LineTraffic} {move : SerialLine.Move} (run : t.exec move = some t') : Step t move t' := by
  unfold exec at run
  split at run
  · obtain ⟨s, moved, rfl⟩ := Option.map_eq_some_iff.mp run
    exact .receive (SerialLine.exec_step moved)
  · rename_i l noPacket
    obtain ⟨s, moved, rfl⟩ := Option.map_eq_some_iff.mp run
    refine .master ?_ (SerialLine.exec_step moved)
    cases l with
    | turn => trivial
    | stimulus now e =>
      cases e with
      | rxRawPacket bb stack => exact (noPacket now bb stack rfl).elim
      | _ => trivial
  · obtain ⟨n, client, run⟩ := Option.bind_eq_some_iff.mp run
    obtain ⟨p, here, run⟩ := Option.bind_eq_some_iff.mp run
    split at run
    · cases run
    · rename_i first rest decoded
      split at run
      · rename_i same
        obtain ⟨⟨n', effects⟩, heard, run⟩ := Option.bind_eq_some_iff.mp run
        cases Option.some.inj run
        exact .hear client here (same ▸ decoded) heard (carried_whole _ _)
      · cases run
  · obtain ⟨n, client, run⟩ := Option.bind_eq_some_iff.mp run
    obtain ⟨p, here, run⟩ := Option.bind_eq_some_iff.mp run
    split at run
    · rename_i rested
      cases Option.some.inj run
      exact .submit client here rested
    · cases run
  · obtain ⟨s, moved, rfl⟩ := Option.map_eq_some_iff.mp run
    exact .readSerial (SerialLine.exec_step moved)
  · cases run

/-- The line is read in time, and the clients submit packets that fit. -/
def plainlyInTime (s : SerialLine) : SerialLine.Move → Bool
  | .master l => (asks s.m_master = true → ∀ p ∈ s.m_ports[0]?, p.Prompt s.m_master.m_now) ∧
    Submission.ofLabel l = none
  | .submit _ (.sendPacket data _ _) => data.length ≤ 16379
  | .readSerial i now _ => ∀ p ∈ s.m_ports[i]?, p.Prompt now
  | _ => true

theorem inTime_of_plainly {s : SerialLine} {move : SerialLine.Move} (plain : plainlyInTime s move = true) :
    s.InTime move := by
  cases move with
  | master l =>
    obtain ⟨prompt, nothing⟩ := of_decide_eq_true plain
    refine ⟨prompt, ?_⟩
    intro submission submits
    rw [nothing] at submits
    cases submits
  | submit i submission =>
    cases submission with
    | sendPacket data => exact of_decide_eq_true (p := data.length ≤ 16379) plain
    | sendMacUpdate => trivial
  | readSerial i now => exact of_decide_eq_true (p := ∀ p ∈ s.m_ports[i]?, p.Prompt now) plain
  | hear => trivial
  | noise => trivial

/-- A serial line that is read in time, with hosts whose packets fit a frame, loses packets at
the worst. Whatever frames are harmlessly damaged on it and whatever harmless noise there is,
there is one sequence of packets that have been put on the line, which are, of each host,
those it has had accepted, in the order of its submissions and up to those that still wait;
and every host has been handed some of them, in this order, none of them twice and none that
is not as it was submitted. -/
theorem line_in_order (cfg : Config) (uninitialised : Nat → UniqueId) (own : PacketTypeCodec)
    (clients : List PacketTypeCodec) (setup : LossyBus.Setup (own :: clients))
    (rested : ∀ n ∈ own :: clients, n.m_rxMsg = []) (now : ℚ) (m₀ : Master)
    (constructed : Master.start cfg own uninitialised now = .ok m₀) (t : LineTraffic)
    (run : LabelledReach Step (fun t => t.m_line.InTime) ⟨atRest m₀ clients, fun _ => ⟨[], []⟩⟩ t) :
    ∃ line : List (Nat × Sent), ∃ waiting : Nat → List Sent,
      (∀ i n, t.m_line.nodes[i]? = some n → (waiting i).map Sent.bytes = n.m_txQueue.m_txMsg) ∧
      (∀ i, (t.hosts i).accepted = line.fromPlace i ++ waiting i) ∧
      ∀ j, ((t.hosts j).handed.filterMap Effect.content).Sublist (line.filterMap fun e => e.2.content) := by
  have logged : ∃ line waiting, Logged t line waiting := by
    refine run.invariant (P := fun t => ∃ line waiting, Logged t line waiting) ?_ ?_
    · exact ⟨_, _, Logged.start setup rested constructed⟩
    · rintro t t' move ⟨line, waiting, logged⟩ inTime step
      exact logged.step inTime step
  obtain ⟨line, waiting, logged⟩ := logged
  refine ⟨line, waiting, ?_, logged.accepted, ?_⟩
  · intro i n here
    have queue := logged.queues i n here
    rwa [Nat.zero_add] at queue
  · intro j
    obtain ⟨heard, later, order, _, told⟩ := logged.hearing j
    exact told.trans (((List.sublist_append_left heard later).trans order).filterMap _)

/-- The master starts, and the client sends what its host has submitted when it gets the token. -/
def lineScript (submission : Submission) : List SerialLine.Move :=
  let grant := packet.GrantToken.fromHeader ⟨1⟩
  [.master (.turn false)] ++ reads 0 1000 ++
  [.master (.stimulus 1000 (.rxRawPacket packet.masterStarted sampleStack)), .master (.turn false),
    .submit 0 submission, .master (.turn false)] ++ reads 0 1000 ++
  [.master (.stimulus 1000 (.rxRawPacket grant sampleStack)), .master (.turn false)] ++ reads 1 1000 ++
  [.hear 0 packet.masterStarted, .hear 0 grant] ++ reads 0 1000 ++
  [.master (.stimulus 1000 (.rxRawPacket (Sent.mk 1 submission).bytes sampleStack))]

theorem line_in_order_delivered :
    ∃ t, LabelledReach Step (fun t => t.m_line.InTime)
        ⟨atRest (Master.started {} listeningNode (fun _ => Bus.unsetId) 1000) [Bus.sampleClient 1 2],
          fun _ => ⟨[], []⟩⟩ t ∧
      ∃ line : List (Nat × Sent), line.fromPlace 1 <+: (t.hosts 1).accepted ∧
        [([1, 2, 3], 1, 9, .raw_stream)].Sublist (line.filterMap fun e => e.2.content) := by
  have shown : (LabelledReach.follow
      (fun t move => if plainlyInTime t.m_line move = true then exec t move else none)
      ⟨atRest (Master.started {} listeningNode (fun _ => Bus.unsetId) 1000) [Bus.sampleClient 1 2],
        fun _ => ⟨[], []⟩⟩ (lineScript (.sendPacket [1, 2, 3] 9 .raw_stream))).any
      (fun t => (t.hosts 0).handed = [.packetReceivedFromNet 5 [1, 2, 3] 1 9 .raw_stream]) = true := by
    decide +kernel
  obtain ⟨t, run, handed⟩ := LabelledReach.exists_of_script exec
    (fun t move => plainlyInTime t.m_line move = true) inTime_of_plainly exec_step _ _ _ shown
  have setup : LossyBus.Setup [listeningNode, Bus.sampleClient 1 2] := ⟨by decide, by decide⟩
  obtain ⟨line, waiting, _, accepted, told⟩ :=
    line_in_order {} _ _ _ setup (by decide) 1000 _ (Master.start_eq _ _ _ _) t run
  refine ⟨t, run, line, ?_, ?_⟩
  · rw [accepted 1]
    exact List.prefix_append _ _
  · have got := told 0
    rwa [of_decide_eq_true handed] at got

end LineTraffic

end SerialNet
