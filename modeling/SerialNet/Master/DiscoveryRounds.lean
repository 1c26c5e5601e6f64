import SerialNet.Lib.History
import SerialNet.Bus.TokenTurns
import SerialNet.Master.AddressReplies

namespace SerialNet.Master

open Bus PacketTypeCodec

/-- What a run of the master shows of its search for clients: the calls of
`receivedAddressRequest`, with the number and the command of the action in progress,
the lines added to the table, and the packets sent. -/
inductive Entry
  | called (ticket : Nat) (cmd : Cmd)
  | allocated (line : AddressLine)
  | sent (bb : ByteVec)
deriving DecidableEq

namespace Entry

def isCall : Entry → Bool
  | .called _ _ => true
  | _ => false

def isLine : Entry → Bool
  | .allocated _ => true
  | _ => false

def isReply : Entry → Bool
  | .sent bb => kind bb = some .address_reply
  | _ => false

def isDiscovery : Entry → Bool
  | .sent bb => kind bb = some .address_discovery
  | _ => false

/-- Of no interest to the search, unless it begins it. -/
def Plain (e : Entry) : Prop := e.isCall = false ∧ e.isLine = false ∧ e.isReply = false

/-- A request is served for a search and for no search twice, and every reply and every
new line has a discovery of its own before it. -/
structure Due (before : List Entry) (e : Entry) : Prop where
  called : ∀ t cmd, e = .called t cmd → cmd = .query_address ∧ ∀ cmd', .called t cmd' ∉ before
  line : e.isLine = true → before.countP isLine < before.countP isDiscovery
  reply : e.isReply = true → before.countP isReply < before.countP isDiscovery

theorem Plain.due {e : Entry} (plain : e.Plain) (before : List Entry) : Due before e := by
  refine ⟨?_, ?_, ?_⟩
  · rintro t cmd rfl
    cases plain.1
  · intro line
    rw [plain.2.1] at line
    cases line
  · intro reply
    rw [plain.2.2] at reply
    cases reply

theorem plain_sent {bb : ByteVec} (other : kind bb ≠ some .address_reply) : (Entry.sent bb).Plain :=
  ⟨rfl, rfl, decide_eq_false other⟩

end Entry

/-- `QueryAddressState` is the only state that passes requests on. -/
def requestCalls (m : Master) : Label → List Entry
  | .turn _ =>
    match m.m_fsm.m_state, m.m_fsm.m_eventQueue with
    | .queryAddress, .rx_pkt_address_request _ :: _ => [.called m.m_log.ticket m.m_fsm.m_currentAction.m_action]
    | _, _ => []
  | .stimulus .. => []

/-- The lines added to the table. -/
def newLines (dh dh' : DynamicHandler) : List AddressLine := dh'.m_table.drop dh.m_table.length

def entries (m : Master) (l : Label) (m' : Master) : List Entry :=
  requestCalls m l ++ (newLines m.m_dynamicHandler m'.m_dynamicHandler).map .allocated ++
    (sentBy m'.m_out).map .sent

/-- A step of the master, written down. -/
def RecordedStep (s : Master × List Entry) (l : Label) (s' : Master × List Entry) : Prop :=
  Step s.1 l s'.1 ∧ s'.2 = s.2 ++ entries s.1 l s'.1

/-- Runs of the master with what they have shown. -/
def Recorded (cfg : Config) (node : PacketTypeCodec) (uninitialised : Nat → UniqueId) (now : ℚ) (m : Master)
    (history : List Entry) : Prop :=
  ∃ m₀, start cfg node uninitialised now = .ok m₀ ∧
    LabelledReach RecordedStep (fun _ _ => True) (m₀, []) (m, history)

/-- The action in progress has been served a request, or is over. -/
def Served (m : Master) : Prop :=
  m.m_fsm.m_state = .waitAddressReply ∨ m.m_fsm.m_currentAction = Action.makeDoNothingAction

/-- The action in progress stays the one it was, or the next one has been started. -/
def Numbered (m m' : Master) : Prop :=
  m'.m_log.started = m.m_log.started ∧ m'.m_log.ticket = m.m_log.ticket ∧ (Served m → Served m') ∨
    m'.m_log.started = m.m_log.started + 1 ∧ m'.m_log.ticket = m.m_log.started

/-- The invariant of the search. -/
structure Searching (m : Master) (history : List Entry) : Prop where
  dataOnly : DataOnly m.m_node.m_txQueue
  numbered : m.m_log.ticket < m.m_log.started
  earlier : ∀ t cmd, .called t cmd ∈ history → t ≤ m.m_log.ticket
  served : ∀ cmd, .called m.m_log.ticket cmd ∈ history → Served m
  room : history.countP Entry.isCall + (if m.m_fsm.m_state = .queryAddress then 1 else 0) ≤
    history.countP Entry.isDiscovery
  lines : history.countP Entry.isLine ≤ history.countP Entry.isCall
  replies : history.countP Entry.isReply ≤ history.countP Entry.isCall
  due : Always Entry.Due history

section Numbers

variable {m m' : Master}

theorem Numbered.same (log : m'.m_log = m.m_log) (served : Served m → Served m') : Numbered m m' :=
  Or.inl ⟨by rw [log], by rw [log], served⟩

theorem Numbered.of_conclude {rv : ReturnValue} {dh : DynamicHandler} {again : Option ℚ}
    (log : m'.m_log = (m.consume.conclude rv dh again).m_log)
    (action : m'.m_fsm.m_currentAction = (m.consume.conclude rv dh again).m_fsm.m_currentAction) : Numbered m m' := by
  obtain ⟨_, _, ⟨_, _, _, log', _⟩ | ⟨_, fsm, log', _⟩⟩ := m.consume.conclude_cases rv dh again
  · right
    rw [log, log']
    exact ⟨rfl, rfl⟩
  · left
    rw [log, log']
    refine ⟨rfl, rfl, ?_⟩
    intro _
    right
    rw [action, fsm]

theorem Numbered.startNext (m : Master) : Numbered m m.startNext := by
  rcases m.startNext_cases with ⟨_, _, _, log, _⟩ | ⟨_, fsm, log, _⟩
  · right
    rw [log]
    exact ⟨rfl, rfl⟩
  · refine .same log ?_
    intro served
    rw [Served, fsm]
    exact served

/-- A state that carries out an action has not served it a request before it gets one. -/
theorem not_served (posted : Posted m.m_fsm.m_currentAction) (other : m.m_fsm.m_state ≠ .waitAddressReply) :
    ¬ Served m := by
  rintro (waiting | nothing)
  · exact other waiting
  · rw [nothing] at posted
    exact posted.2 rfl

/-- While an action is carried out, nothing is said about what comes after it. -/
theorem Numbered.unserved (log : m'.m_log = m.m_log) (posted : Posted m.m_fsm.m_currentAction)
    (other : m.m_fsm.m_state ≠ .waitAddressReply) : Numbered m m' :=
  .same log fun served => absurd served (not_served posted other)

end Numbers

/-- What serving a request shows. -/
def service (ticket : Nat) (line : Option AddressLine) (told : Option ByteVec) : List Entry :=
  [.called ticket .query_address] ++ line.toList.map .allocated ++ told.toList.map .sent

theorem countP_service (ticket : Nat) (line : Option AddressLine) (told : Option ByteVec) :
    (service ticket line told).countP Entry.isCall = 1 ∧ (service ticket line told).countP Entry.isLine ≤ 1 ∧
      (service ticket line told).countP Entry.isReply ≤ 1 := by
  cases line <;> cases told <;> simp [service, Entry.isCall, Entry.isLine, Entry.isReply, List.countP_cons]
  · split <;> omega
  · split <;> omega

theorem due_service {history : List Entry} {ticket : Nat} {line : Option AddressLine} {told : Option ByteVec}
    (due : Always Entry.Due history) (fresh : ∀ cmd, .called ticket cmd ∉ history)
    (lines : history.countP Entry.isLine < history.countP Entry.isDiscovery)
    (replies : history.countP Entry.isReply < history.countP Entry.isDiscovery) :
    Always Entry.Due (history ++ service ticket line told) := by
  have first : Always Entry.Due (history ++ [.called ticket .query_address]) := by
    refine due.concat ⟨?_, by rintro ⟨⟩, by rintro ⟨⟩⟩
    rintro t cmd ⟨⟩
    exact ⟨rfl, fresh⟩
  have second : Always Entry.Due (history ++ [.called ticket .query_address] ++ line.toList.map .allocated) := by
    cases line with
    | none =>
      rw [Option.toList_none, List.map_nil, List.append_nil]
      exact first
    | some line =>
      refine first.concat ⟨by rintro t cmd ⟨⟩, fun _ => ?_, by rintro ⟨⟩⟩
      simpa [List.countP_append, Entry.isLine, Entry.isDiscovery] using lines
  cases told with
  | none =>
    rw [service, Option.toList_none, List.map_nil, List.append_nil, ← List.append_assoc]
    exact second
  | some bb =>
    rw [service, ← List.append_assoc, ← List.append_assoc]
    refine second.concat ⟨by rintro t cmd ⟨⟩, by rintro ⟨⟩, fun _ => ?_⟩
    cases line <;> simpa [List.countP_append, Entry.isReply, Entry.isDiscovery] using replies

theorem requestCalls_eq_nil {m : Master} {rxInProgress : Bool} {ev : Event} (queue : m.m_fsm.m_eventQueue = [ev])
    (other : ∀ aReq, ev = .rx_pkt_address_request aReq → m.m_fsm.m_state ≠ .queryAddress) :
    requestCalls m (.turn rxInProgress) = [] := by
  unfold requestCalls
  rw [queue]
  cases state : m.m_fsm.m_state with
  | queryAddress =>
    cases ev with
    | rx_pkt_address_request aReq => exact absurd state (other aReq rfl)
    | _ => rfl
  | _ => rfl

theorem Settles.length_le {dh dh' : DynamicHandler} {now : ℚ} {addr : LocalAddress} {rv : ReturnValue}
    {again : Option ℚ} (settles : Settles dh now addr rv dh' again) : dh'.m_table.length ≤ dh.m_table.length := by
  cases settles with
  | started => exact le_rfl
  | queried => exact le_rfl
  | evicted _ table _ _ _ _ => simp [table]
  | kept _ table _ _ _ _ => simp [table]

/-- A request brings at most one line and one reply. -/
theorem entries_requested {m : Master} (rxInProgress : Bool) {aReq : packet.AddressRequest}
    (queue : m.m_fsm.m_eventQueue = [.rx_pkt_address_request aReq]) (state : m.m_fsm.m_state = .queryAddress)
    (action : m.m_fsm.m_currentAction.m_action = .query_address) :
    ∃ line told, entries m (.turn rxInProgress) ((m.consume.receivedAddressRequest aReq).goto .waitAddressReply) =
      service m.m_log.ticket line told := by
  have called : requestCalls m (.turn rxInProgress) = [.called m.m_log.ticket .query_address] := by
    simp only [requestCalls, state, queue, action]
  simp only [entries, called, goto_dynamicHandler, goto_out, entrySends, List.append_nil]
  rcases m.consume.receivedAddressRequest_cases aReq with ⟨line, _, _, known⟩ | ⟨_, _, nothing⟩ |
    ⟨_, rest, localAddr, _, allocated⟩
  · rw [known]
    refine ⟨none, some (reply line.m_address aReq.m_uniqueId), ?_⟩
    simp [newLines, sendAddressReply, sendMasterPacket, service, reply]
  · rw [nothing]
    refine ⟨none, none, ?_⟩
    simp [newLines, service]
  · rw [allocated]
    refine ⟨some (.dynamic localAddr aReq.m_uniqueId aReq.m_channelType), some (reply localAddr aReq.m_uniqueId), ?_⟩
    simp [newLines, sendAddressReply, sendMasterPacket, service, reply, enlist, postActionNow, setScheduler]

namespace Searching

variable {m m' : Master} {history new : List Entry}

/-- A step that neither serves a request nor begins a search. -/
theorem quiet (searching : Searching m history) (dataOnly : DataOnly m'.m_node.m_txQueue) (numbered : Numbered m m')
    (entered : m'.m_fsm.m_state = .queryAddress → m.m_fsm.m_state = .queryAddress)
    (plain : ∀ e ∈ new, e.Plain) : Searching m' (history ++ new) := by
  have noCalls : ∀ t cmd, .called t cmd ∈ history ++ new → .called t cmd ∈ history := by
    intro t cmd member
    rcases List.mem_append.mp member with old | late
    · exact old
    · cases (plain _ late).1
  have calls : new.countP Entry.isCall = 0 := List.countP_eq_zero.mpr fun e member => by simp [(plain e member).1]
  have lines : new.countP Entry.isLine = 0 := List.countP_eq_zero.mpr fun e member => by simp [(plain e member).2.1]
  have replies : new.countP Entry.isReply = 0 :=
    List.countP_eq_zero.mpr fun e member => by simp [(plain e member).2.2]
  have room := searching.room
  refine ⟨dataOnly, ?_, ?_, ?_, ?_, ?_, ?_, ?_⟩
  · rcases numbered with ⟨started, ticket, _⟩ | ⟨started, ticket⟩
    · rw [started, ticket]
      exact searching.numbered
    · omega
  · intro t cmd member
    have before := searching.earlier t cmd (noCalls t cmd member)
    have bound := searching.numbered
    rcases numbered with ⟨_, ticket, _⟩ | ⟨_, ticket⟩ <;> omega
  · intro cmd member
    have called := noCalls _ cmd member
    rcases numbered with ⟨_, ticket, served⟩ | ⟨_, ticket⟩
    · rw [ticket] at called
      exact served (searching.served cmd called)
    · have before := searching.earlier _ cmd called
      have bound := searching.numbered
      omega
  · rw [List.countP_append, List.countP_append, calls]
    split
    · rename_i search
      rw [if_pos (entered search)] at room
      omega
    · omega
  · rw [List.countP_append, List.countP_append, lines, calls]
    exact searching.lines
  · rw [List.countP_append, List.countP_append, replies, calls]
    exact searching.replies
  · exact searching.due.append fun e member before => (plain e member).due before

/-- A search begins. -/
theorem discovery (searching : Searching m history) (dataOnly : DataOnly m'.m_node.m_txQueue)
    (log : m'.m_log = m.m_log) (idle : ¬ Served m) {bb : ByteVec} (type : kind bb = some .address_discovery)
    (other : m.m_fsm.m_state ≠ .queryAddress) : Searching m' (history ++ [.sent bb]) := by
  have noCalls : ∀ t cmd, .called t cmd ∈ history ++ [.sent bb] → .called t cmd ∈ history := by
    intro t cmd member
    simpa using member
  have room := searching.room
  rw [if_neg other] at room
  have begins : (Entry.sent bb).isDiscovery = true := decide_eq_true type
  have plain : (Entry.sent bb).Plain := Entry.plain_sent (by simp [type])
  refine ⟨dataOnly, ?_, ?_, ?_, ?_, ?_, ?_, searching.due.concat (plain.due history)⟩
  · rw [log]
    exact searching.numbered
  · intro t cmd member
    rw [log]
    exact searching.earlier t cmd (noCalls t cmd member)
  · intro cmd member
    rw [log] at member
    exact absurd (searching.served cmd (noCalls _ cmd member)) idle
  · simp only [List.countP_append, List.countP_singleton, begins, plain.1, if_true, Bool.false_eq_true, if_false]
    split <;> omega
  · simp only [List.countP_append, List.countP_singleton, plain.1, plain.2.1, Bool.false_eq_true, if_false]
    exact searching.lines
  · simp only [List.countP_append, List.countP_singleton, plain.1, plain.2.2, Bool.false_eq_true, if_false]
    exact searching.replies

/-- The request of a client is served. -/
theorem call (searching : Searching m history) (dataOnly : DataOnly m'.m_node.m_txQueue) (log : m'.m_log = m.m_log)
    (unserved : ¬ Served m) (search : m.m_fsm.m_state = .queryAddress) (served : m'.m_fsm.m_state = .waitAddressReply)
    (line : Option AddressLine) (told : Option ByteVec) :
    Searching m' (history ++ service m.m_log.ticket line told) := by
  have room := searching.room
  rw [if_pos search] at room
  have oldLines := searching.lines
  have oldReplies := searching.replies
  obtain ⟨calls, lines, replies⟩ := countP_service m.m_log.ticket line told
  have calledOf : ∀ t cmd, .called t cmd ∈ history ++ service m.m_log.ticket line told →
      .called t cmd ∈ history ∨ t = m.m_log.ticket := by
    intro t cmd member
    rcases List.mem_append.mp member with old | new
    · exact Or.inl old
    · have both : t = m.m_log.ticket ∧ cmd = .query_address := by simpa [service] using new
      exact Or.inr both.1
  refine ⟨dataOnly, ?_, ?_, fun _ _ => Or.inl served, ?_, ?_, ?_, ?_⟩
  · rw [log]
    exact searching.numbered
  · intro t cmd member
    rw [log]
    rcases calledOf t cmd member with old | now
    · exact searching.earlier t cmd old
    · exact now.le
  · rw [List.countP_append, List.countP_append, if_neg (by rw [served]; rintro ⟨⟩)]
    omega
  · rw [List.countP_append, List.countP_append]
    omega
  · rw [List.countP_append, List.countP_append]
    omega
  · exact due_service searching.due (fun cmd member => unserved (searching.served cmd member)) (by omega) (by omega)

/-- As `quiet`, for what the step shows. -/
theorem of_quiet (searching : Searching m history) {l : Label} (dataOnly : DataOnly m'.m_node.m_txQueue)
    (numbered : Numbered m m') (entered : m'.m_fsm.m_state = .queryAddress → m.m_fsm.m_state = .queryAddress)
    (calls : requestCalls m l = [])
    (lines : m'.m_dynamicHandler.m_table.length ≤ m.m_dynamicHandler.m_table.length)
    (sent : ∀ x ∈ sentBy m'.m_out, kind x ≠ some .address_reply) : Searching m' (history ++ entries m l m') := by
  refine searching.quiet dataOnly numbered entered ?_
  intro e member
  rw [entries, calls, newLines, List.drop_eq_nil_of_le lines, List.map_nil, List.nil_append, List.nil_append] at member
  obtain ⟨x, inside, rfl⟩ := List.mem_map.mp member
  exact Entry.plain_sent (sent x inside)

theorem turn (searching : Searching m history) (synced : Synced m) {rxInProgress : Bool} {ev : Event}
    (queue : m.m_fsm.m_eventQueue = [ev]) (taken : TurnCase m rxInProgress ev m') :
    Searching m' (history ++ entries m (.turn rxInProgress) m') := by
  have data := (face_turn taken searching.dataOnly).2
  cases taken with
  | ignored unhandled =>
    refine searching.of_quiet data (.same rfl id) id ?_ le_rfl (by rintro _ ⟨⟩)
    refine requestCalls_eq_nil queue ?_
    rintro aReq rfl search
    rw [search] at unhandled
    cases unhandled
  | rearmed _ =>
    exact searching.of_quiet data (.same rfl id) id (requestCalls_eq_nil queue (by rintro _ ⟨⟩)) le_rfl (by rintro _ ⟨⟩)
  | ownIdle state _ _ settles =>
    refine searching.of_quiet data (.of_conclude rfl rfl) (by simp [state])
      (requestCalls_eq_nil queue (by rintro _ ⟨⟩)) ?_ (by simp)
    rw [conclude_dynamicHandler]
    exact settles.length_le
  | ownSends state action own packets =>
    have posted := synced.posted_of_handles queue (by rw [state]; rfl)
    refine searching.of_quiet data (.unserved (by simp) posted (by simp [state]))
      (by simp) (requestCalls_eq_nil queue (by rintro _ ⟨⟩)) (by simp) ?_
    obtain ⟨⟨r, out, isData⟩, _, _⟩ := sendClientPacket_spec (m := m.consume) searching.dataOnly packets
    have other := (kind_isResponse (isResponse_of_isData isData)).2.1
    simpa [out, entrySends] using other
  | grants state _ _ =>
    have posted := synced.posted_of_handles queue (by rw [state]; rfl)
    exact searching.of_quiet data (.unserved (by simp) posted (by simp [state]))
      (by simp) (requestCalls_eq_nil queue (by rintro _ ⟨⟩)) (by simp) (by simp [entrySends])
  | starts state _ =>
    have posted := synced.posted_of_handles queue (by rw [state]; rfl)
    exact searching.of_quiet data (.unserved (by simp) posted (by simp [state]))
      (by simp) (requestCalls_eq_nil queue (by rintro _ ⟨⟩)) (by simp) (by simp [entrySends])
  | grantSeen state =>
    have posted := synced.posted (by simp [state])
    exact searching.of_quiet data (.unserved (by simp) posted (by simp [state]))
      (by simp) (requestCalls_eq_nil queue (by rintro _ ⟨⟩)) (by simp) (by simp [entrySends])
  | grantLost state =>
    have posted := synced.posted (by simp [state])
    exact searching.of_quiet data (.unserved (by simp) posted (by simp [state]))
      (by simp) (requestCalls_eq_nil queue (by rintro _ ⟨⟩)) (by simp) (by simp [entrySends])
  | reported result settles =>
    refine searching.of_quiet data (.of_conclude (goto_log _ _) (goto_currentAction _ _)) (by simp) ?_ ?_
      (by simp [entrySends])
    · refine requestCalls_eq_nil queue ?_
      rintro aReq rfl search
      rw [search] at result
      cases result
    · rw [goto_dynamicHandler, conclude_dynamicHandler]
      exact settles.length_le
  | queries state action =>
    have posted := synced.posted_of_handles queue (by rw [state]; rfl)
    have shown : entries m (.turn rxInProgress) (m.consume.goto .queryAddress) =
        [.sent (packet.AddressDiscovery.fromHeader ⟨0, 0⟩)] := by
      simp [entries, requestCalls_eq_nil queue, newLines, entrySends]
    rw [shown]
    exact searching.discovery data (by simp) (not_served posted (by simp [state])) (by simp) (by simp [state])
  | @requested aReq state =>
    have fits := synced.fits
    rw [state] at fits
    have posted := synced.posted (by simp [state])
    obtain ⟨line, told, shown⟩ := entries_requested rxInProgress queue state fits
    rw [shown]
    exact searching.call data (by simp) (not_served posted (by simp [state])) state (by simp) line told

theorem stimulus (searching : Searching m history) {now : ℚ} {s : Stimulus} (taken : StimulusCase m now s m') :
    Searching m' (history ++ entries m (.stimulus now s) m') := by
  have submitted : ∀ {q : TxQueue}, Submits m.m_node.m_txQueue q → DataOnly q := fun submits =>
    submits.dataOnly searching.dataOnly
  cases taken with
  | @packet bb stack node effects received =>
    have hears : Hears bb m.m_node node (sentBy effects) := ⟨stack, effects, received, rfl⟩
    refine searching.of_quiet (hears.dataOnly searching.dataOnly) (.same rfl id) id rfl le_rfl ?_
    intro x member
    rw [sentBy_outward] at member
    exact (Carried.of_hears hears searching.dataOnly member).2.1
  | sendPacket =>
    exact searching.of_quiet (submitted (.packet _ _ _)) (.same rfl id) id rfl le_rfl (by rintro _ ⟨⟩)
  | sendMacUpdate =>
    exact searching.of_quiet (submitted (.macUpdate _)) (.same rfl id) id rfl le_rfl (by rintro _ ⟨⟩)
  | timer => exact searching.of_quiet searching.dataOnly (.same rfl id) id rfl le_rfl (by rintro _ ⟨⟩)
  | delayBusy _ => exact searching.of_quiet searching.dataOnly (.same rfl id) id rfl le_rfl (by rintro _ ⟨⟩)
  | @delayIdle timeout _ =>
    refine searching.of_quiet ?_ (Numbered.startNext { m.wake now with m_actionHandler := { m.m_actionHandler with
      m_delayAction := m.m_actionHandler.m_delayAction.expire timeout } }) (by simp [wake]) rfl ?_ (by simp [wake])
    · rw [startNext_node]
      exact searching.dataOnly
    · rw [startNext_dynamicHandler]
      exact le_rfl
  | discovery => exact searching.of_quiet searching.dataOnly (.same rfl id) id rfl le_rfl (by rintro _ ⟨⟩)
  | reordered _ => exact searching.of_quiet searching.dataOnly (.same rfl id) id rfl le_rfl (by rintro _ ⟨⟩)

end Searching

theorem Recorded.searching {cfg : Config} {node : PacketTypeCodec} (dataOnly : DataOnly node.m_txQueue)
    {uninitialised : Nat → UniqueId} {now : ℚ} {m : Master} {history : List Entry}
    (run : Recorded cfg node uninitialised now m history) : Synced m ∧ Searching m history := by
  obtain ⟨m₀, constructed, run⟩ := run
  rw [start_eq] at constructed
  cases constructed
  refine LabelledReach.invariant (P := fun s => Synced s.1 ∧ Searching s.1 s.2) run ?_ ?_
  · refine ⟨started_synced cfg node uninitialised now, dataOnly, Nat.zero_lt_one, by rintro _ _ ⟨⟩, by rintro _ ⟨⟩,
      Nat.le_refl 0, Nat.le_refl 0, Nat.le_refl 0, .nil⟩
  · rintro ⟨m, history⟩ ⟨m', history'⟩ l ⟨synced, searching⟩ _ ⟨step, shown⟩
    refine ⟨synced.step step, ?_⟩
    rw [shown]
    rcases synced.step_cases step with ⟨_, _, rfl, queue, taken⟩ | ⟨_, _, rfl, _, _, _, taken⟩
    · exact searching.turn synced queue taken
    · exact searching.stimulus taken

/-- A request is looked at in one state only. -/
theorem Synced.request_ignored {m m' : Master} (synced : Synced m) {l : Label} {aReq : packet.AddressRequest}
    (step : Step m l m') (queue : m.m_fsm.m_eventQueue = [.rx_pkt_address_request aReq])
    (other : m.m_fsm.m_state ≠ .queryAddress) : m'.m_dynamicHandler = m.m_dynamicHandler := by
  rcases synced.step_cases step with ⟨_, ev, _, queue', taken⟩ | ⟨_, _, _, empty, _⟩
  · rw [queue] at queue'
    cases queue'
    cases taken with
    | ignored _ => rfl
    | requested search => exact absurd search other
    | reported result _ =>
      cases state : m.m_fsm.m_state <;> rw [state] at result <;> cases result
  · rw [queue] at empty
    cases empty

/-- In every run of the master requests are served for a search in progress only and at
most once for each, every reply and every new line has a discovery of its own before it,
and a request that finds the master in another state changes nothing in the table. -/
theorem one_reply_per_discovery (cfg : Config) (node : PacketTypeCodec) (dataOnly : DataOnly node.m_txQueue)
    (uninitialised : Nat → UniqueId) (now : ℚ) (m : Master) (history : List Entry)
    (run : Recorded cfg node uninitialised now m history) :
    Always Entry.Due history ∧
    (history.countP Entry.isReply ≤ history.countP Entry.isCall ∧
      history.countP Entry.isLine ≤ history.countP Entry.isCall ∧
      history.countP Entry.isCall ≤ history.countP Entry.isDiscovery) ∧
    (∀ now' bb stack m', Step m (.stimulus now' (.rxRawPacket bb stack)) m' →
      m'.m_dynamicHandler = m.m_dynamicHandler) ∧
    ∀ l m' aReq, Step m l m' → m.m_fsm.m_eventQueue = [.rx_pkt_address_request aReq] →
      m.m_fsm.m_state ≠ .queryAddress → m'.m_dynamicHandler = m.m_dynamicHandler := by
  obtain ⟨synced, searching⟩ := run.searching dataOnly
  have room := searching.room
  refine ⟨searching.due, ⟨searching.replies, searching.lines, by omega⟩, ?_, ?_⟩
  · intro now' bb stack m' step
    rcases synced.step_cases step with ⟨_, _, impossible, _⟩ | ⟨_, _, same, _, _, _, taken⟩
    · cases impossible
    · cases same
      cases taken
      rfl
  · intro l m' aReq step queue other
    exact synced.request_ignored step queue other

/-- Two clients answer the first search. One of them is served. -/
def requestScript : List Label :=
  pollScript ++ [.stimulus (1000 + 6 / 25)
      (.rxRawPacket (packet.AddressRequest.fromHeader (DynamicHandler.sampleRequest 1)) sampleStack), .turn false,
    .stimulus (1000 + 6 / 25)
      (.rxRawPacket (packet.AddressRequest.fromHeader (DynamicHandler.sampleRequest 2)) sampleStack), .turn false]

/-- A step as a function that writes down what it shows. -/
def recordedExec (s : Master × List Entry) (l : Label) : Option (Master × List Entry) :=
  (s.1.exec l).map fun m' => (m', s.2 ++ entries s.1 l m')

theorem recordedExec_step {s s' : Master × List Entry} {l : Label} (run : recordedExec s l = some s') :
    RecordedStep s l s' := by
  obtain ⟨m', taken, same⟩ := Option.map_eq_some_iff.mp run
  rw [← same]
  exact ⟨exec_step taken, rfl⟩

theorem one_reply_two_requests :
    ∃ m history, Recorded {} sampleNode (fun _ => sampleId) 1000 m history ∧
      history.countP Entry.isReply = 1 ∧ history.countP Entry.isDiscovery = 1 ∧ Always Entry.Due history := by
  have scripted : ∃ s, LabelledReach RecordedStep (fun _ _ => True)
      (started {} sampleNode (fun _ => sampleId) 1000, []) s ∧
      decide (s.2.countP Entry.isReply = 1 ∧ s.2.countP Entry.isDiscovery = 1) = true :=
    LabelledReach.exists_of_script recordedExec (fun _ _ => True) (fun _ => trivial) recordedExec_step _ requestScript
      _ (by decide +kernel)
  obtain ⟨⟨m, history⟩, reach, shown⟩ := scripted
  obtain ⟨reply, discovery⟩ := of_decide_eq_true shown
  have run : Recorded {} sampleNode (fun _ => sampleId) 1000 m history := ⟨_, start_eq _ _ _ _, reach⟩
  have due := (one_reply_per_discovery {} sampleNode (by rintro _ ⟨⟩) (fun _ => sampleId) 1000 m history run).1
  exact ⟨m, history, run, reply, discovery, due⟩

end SerialNet.Master
