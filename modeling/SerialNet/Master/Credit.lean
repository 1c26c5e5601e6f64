import SerialNet.Master.Phases

namespace SerialNet.Master

/-- The step calls `updateAddressLine` with this address and state: a result is
reported that stands for the state, and the address is that of the action it is
reported for. -/
def Credits (m m' : Master) (addr : LocalAddress) (newState : AddressLine.State) : Prop :=
  addr = m.m_actionHandler.m_currentAction.m_address ∧
    ∃ rv, lineState rv = some newState ∧ m'.m_log.reports = m.m_log.reports ++ [(m.m_log.ticket, rv)] ∧
      (m.m_dynamicHandler.updateAddressLine m.m_now addr newState).map Prod.fst = some m'.m_dynamicHandler

/-- What a turn adds to the reports. -/
theorem TurnCase.reports {m m' : Master} {rxInProgress : Bool} {ev : Event} (taken : TurnCase m rxInProgress ev m') :
    m'.m_log.reports = m.m_log.reports ∨
    ∃ rv, m'.m_log.reports = m.m_log.reports ++ [(m.m_log.ticket, rv)] ∧
      (ev = .check_new_command ∨ resultOf rxInProgress m.m_fsm.m_state ev = some rv) := by
  have concluded : ∀ rv dh again, (m.consume.conclude rv dh again).m_log.reports =
      m.m_log.reports ++ [(m.m_log.ticket, rv)] := by
    intro rv dh again
    obtain ⟨_, _, ⟨_, _, _, log, _⟩ | ⟨_, _, log, _⟩⟩ := m.consume.conclude_cases rv dh again
    · rw [log]
      rfl
    · rw [log]
      rfl
  cases taken with
  | ownIdle => exact Or.inr ⟨_, concluded _ _ _, Or.inl rfl⟩
  | reported result _ => exact Or.inr ⟨_, by rw [goto_log]; exact concluded _ _ _, Or.inr result⟩
  | ignored _ => exact Or.inl rfl
  | rearmed _ => exact Or.inl rfl
  | _ => exact Or.inl (by simp)

/-- The packets that end the wait for a client, with what they say about it. -/
def answerState (bb : ByteVec) : Option AddressLine.State :=
  match kind bb with
  | some .send_packet => some .active
  | some .mac_update => some .active
  | some .return_token => some .idle
  | _ => none

/-- A result that comes from a packet of a client and says something about an
address comes from the wait for the client. -/
theorem waiting_of_answer {rxInProgress : Bool} {s : StateId} {bb : ByteVec} {ev : Event} {rv : ReturnValue}
    {newState : AddressLine.State} (event : packetEvent bb = some ev)
    (result : resultOf rxInProgress s ev = some rv) (state : lineState rv = some newState) :
    s = .waitClientPacketDone ∧ answerState bb = some newState := by
  unfold packetEvent at event
  split at event
  · obtain ⟨type, known, event⟩ := Option.bind_eq_some_iff.mp event
    rw [answerState, known]
    cases type with
    | address_request =>
      obtain ⟨aReq, _, rfl⟩ := Option.map_eq_some_iff.mp event
      cases s <;> cases result
    | address_discovery => cases event
    | address_reply => cases event
    | _ =>
      cases event
      cases s <;> cases result <;> cases state <;> exact ⟨rfl, rfl⟩
  · cases event

/-- The turn gives the token to the address of the action in progress: it is granted
on the bus, or the address is that of the own client, whose first packet is sent. -/
def GivesToken (m : Master) (rxInProgress : Bool) (m' : Master) : Prop :=
  m.m_fsm.m_currentAction.m_action = .send_token ∧ Step m (.turn rxInProgress) m' ∧
    (m'.m_out = [.sendMsg (packet.GrantToken.fromHeader ⟨m.m_fsm.m_currentAction.m_address⟩)] ∨
      m.m_fsm.m_currentAction.m_address = m.m_node.m_txQueue.clientAddress ∧
        ∃ msg rest, m.m_node.m_txQueue.m_txMsg = msg :: rest ∧ m'.m_node.m_txQueue.m_txMsg = rest ∧
          m'.m_out = [.sendMsg msg])

/-- With something to send, the own client sends the first of it. -/
theorem sends_front {m : Master} (packets : m.m_node.m_txQueue.txQueueEmpty = false) :
    ∃ msg rest, m.m_node.m_txQueue.m_txMsg = msg :: rest ∧
      (m.consume.sendClientPacket.goto .waitClientPacketDone).m_node.m_txQueue.m_txMsg = rest ∧
      (m.consume.sendClientPacket.goto .waitClientPacketDone).m_out = [.sendMsg msg] := by
  cases queue : m.m_node.m_txQueue.m_txMsg with
  | nil =>
    rw [TxQueue.txQueueEmpty, queue] at packets
    cases packets
  | cons msg rest =>
    refine ⟨msg, rest, rfl, ?_, ?_⟩
    · simp [sendClientPacket, TxQueue.sendClientPacket, queue]
    · simp [sendClientPacket, TxQueue.sendClientPacket, queue, entrySends]

section Runs

variable (cfg : Config) (node : PacketTypeCodec) (uninitialised : Nat → UniqueId) (now : ℚ)

/-- An earlier turn has given away the token, for the action that is in progress. -/
def Offered (m : Master) : Prop :=
  ∃ m₀ rxInProgress m₁, Reach (fun _ _ => True) cfg node uninitialised now m₀ ∧ GivesToken m₀ rxInProgress m₁ ∧
    LabelledReach Step (fun _ _ => True) m₁ m ∧ m₀.m_log.ticket = m.m_log.ticket ∧
    m₀.m_fsm.m_currentAction = m.m_fsm.m_currentAction

/-- The state machine has sent the token, or waits for what its receiver sends. -/
def Awaiting (m : Master) : Prop :=
  m.m_fsm.m_state = .sendingToken ∨ m.m_fsm.m_state = .waitClientPacketDone

variable {cfg node uninitialised now} {m m' : Master}

theorem Offered.next (offered : Offered cfg node uninitialised now m) {l : Label} (step : Step m l m')
    (log : m'.m_log = m.m_log) (action : m'.m_fsm.m_currentAction = m.m_fsm.m_currentAction) :
    Offered cfg node uninitialised now m' := by
  obtain ⟨m₀, rxInProgress, m₁, reach, gives, later, ticket, same⟩ := offered
  exact ⟨m₀, rxInProgress, m₁, reach, gives, .next later trivial step, by rw [ticket, log], by rw [same, action]⟩

theorem Offered.turn (reach : Reach (fun _ _ => True) cfg node uninitialised now m)
    (offered : Awaiting m → Offered cfg node uninitialised now m) {rxInProgress : Bool} {ev : Event}
    (step : Step m (.turn rxInProgress) m') (taken : TurnCase m rxInProgress ev m') (awaiting : Awaiting m') :
    Offered cfg node uninitialised now m' := by
  have elsewhere : ∀ {m₁ : Master} {s : StateId}, s ≠ .sendingToken → s ≠ .waitClientPacketDone →
      ¬ Awaiting (m₁.goto s) := by
    intro m₁ s noToken noWait awaits
    rw [Awaiting, goto_state] at awaits
    rcases awaits with token | waits
    · exact noToken token
    · exact noWait waits
  cases taken with
  | ignored _ => exact (offered awaiting).next step rfl rfl
  | rearmed _ => exact (offered awaiting).next step rfl rfl
  | ownIdle state =>
    rw [Awaiting, conclude_state, consume_state, state] at awaiting
    rcases awaiting with token | waits
    · cases token
    · cases waits
  | ownSends _ action own packets =>
    exact ⟨m, rxInProgress, _, reach, ⟨action, step, Or.inr ⟨own, sends_front packets⟩⟩, .start, by simp, by simp⟩
  | grants _ action _ =>
    exact ⟨m, rxInProgress, _, reach, ⟨action, step, Or.inl (by simp [entrySends])⟩, .start, by simp, by simp⟩
  | grantSeen state => exact (offered (Or.inl state)).next step (by simp) (by simp)
  | queries => exact absurd awaiting (elsewhere (by simp) (by simp))
  | starts => exact absurd awaiting (elsewhere (by simp) (by simp))
  | grantLost => exact absurd awaiting (elsewhere (by simp) (by simp))
  | requested => exact absurd awaiting (elsewhere (by simp) (by simp))
  | reported => exact absurd awaiting (elsewhere (by simp) (by simp))

theorem Offered.stimulus (synced : Synced m) (offered : Awaiting m → Offered cfg node uninitialised now m)
    {now' : ℚ} {s : Stimulus} (step : Step m (.stimulus now' s) m') (taken : StimulusCase m now' s m')
    (awaiting : Awaiting m') : Offered cfg node uninitialised now m' := by
  cases taken with
  | delayIdle nothing =>
    -- a new action is started in idle only
    rw [Awaiting, startNext_state] at awaiting
    have idle := synced.idle_of_doNothing nothing
    rcases awaiting with token | waits
    · cases idle.symm.trans token
    · cases idle.symm.trans waits
  | _ => exact (offered awaiting).next step rfl rfl

theorem Reach.offered (reach : Reach (fun _ _ => True) cfg node uninitialised now m) (awaiting : Awaiting m) :
    Offered cfg node uninitialised now m := by
  have both : Reach (fun _ _ => True) cfg node uninitialised now m ∧
      (Awaiting m → Offered cfg node uninitialised now m) := by
    refine reach.from_started.invariant (P := fun m => Reach (fun _ _ => True) cfg node uninitialised now m ∧
      (Awaiting m → Offered cfg node uninitialised now m)) ⟨.of_started .start, ?_⟩ ?_
    · rintro (token | waits)
      · cases token
      · cases waits
    · intro m m' l held _ step
      obtain ⟨reach, offered⟩ := held
      refine ⟨.of_started (.next reach.from_started trivial step), fun awaiting => ?_⟩
      rcases reach.synced.step_cases step with ⟨_, _, rfl, _, taken⟩ | ⟨_, _, rfl, _, _, _, taken⟩
      · exact Offered.turn reach offered step taken awaiting
      · exact Offered.stimulus reach.synced offered step taken awaiting
  exact both.2 awaiting

end Runs

/-- An answer is credited to the address whose token is out: when a packet makes the
master update a line, the master waits for a client, the line is that of the token
action in progress, and that token was given to this address before. The packet says
whether the client is active or idle; the sender it names plays no part. -/
theorem answer_credited (cfg : Config) (node : PacketTypeCodec) (uninitialised : Nat → UniqueId) (now : ℚ)
    {m m₁ m₂ : Master} {now' : ℚ} {bb : ByteVec} {stack : ChannelType × Crc32} {rxInProgress : Bool}
    {addr : LocalAddress} {newState : AddressLine.State}
    (reach : Reach (fun _ _ => True) cfg node uninitialised now m)
    (heard : Step m (.stimulus now' (.rxRawPacket bb stack)) m₁) (turn : Step m₁ (.turn rxInProgress) m₂)
    (credits : Credits m₁ m₂ addr newState) :
    m₁.m_fsm.m_state = .waitClientPacketDone ∧ answerState bb = some newState ∧
      m₁.m_fsm.m_currentAction.m_action = .send_token ∧ addr = m₁.m_fsm.m_currentAction.m_address ∧
      Offered cfg node uninitialised now m₁ := by
  have reach₁ : Reach (fun _ _ => True) cfg node uninitialised now m₁ :=
    .of_started (.next reach.from_started trivial heard)
  obtain ⟨address, rv, line, reports, _⟩ := credits
  have event : m₁.m_fsm.m_eventQueue = (packetEvent bb).toList := by
    rcases reach.synced.step_cases heard with ⟨_, _, impossible, _⟩ | ⟨_, _, label, _, _, _, taken⟩
    · cases impossible
    · cases label
      cases taken with
      | packet received =>
        obtain ⟨_, _, _, told⟩ := PacketTypeCodec.rxRawPacket_reaction received
        exact filterMap_masterEvent reach.synced.registered told
  rcases reach₁.synced.step_cases turn with ⟨_, ev, label, queue, taken⟩ | ⟨_, _, impossible, _⟩
  · cases label
    rw [event, Option.toList_eq_singleton_iff] at queue
    rcases taken.reports with none | ⟨rv', reports', source⟩
    · rw [none] at reports
      have length := congrArg List.length reports
      simp at length
    · have same : rv' = rv := by
        have entries := List.append_cancel_left (reports'.symm.trans reports)
        exact congrArg Prod.snd (List.cons.inj entries).1
      subst same
      rcases source with rfl | result
      · exact absurd queue (packetEvent_ne_check bb)
      · obtain ⟨waits, answer⟩ := waiting_of_answer queue result line
        have fits := reach₁.synced.fits
        rw [waits] at fits
        exact ⟨waits, answer, fits, by rw [address, reach₁.synced.sameAction], reach₁.offered (Or.inr waits)⟩
  · cases impossible

/-- The two steps a packet takes: it arrives, and the event it leads to is processed. -/
theorem steps_of_exec {m : Master} {first second : Label} {shows : Master → Master → Bool}
    (run : (m.exec first).any (fun m₁ => (m₁.exec second).any (shows m₁)) = true) :
    ∃ m₁ m₂, Step m first m₁ ∧ Step m₁ second m₂ ∧ shows m₁ m₂ = true := by
  obtain ⟨m₁, one, run⟩ := (Option.any_eq_true _ _).mp run
  obtain ⟨m₂, two, shown⟩ := (Option.any_eq_true _ _).mp run
  exact ⟨m₁, m₂, exec_step one, exec_step two, shown⟩

/-- `Credits`, for a given result. -/
def creditsWith (rv : ReturnValue) (addr : LocalAddress) (newState : AddressLine.State) (m m' : Master) : Bool :=
  addr = m.m_actionHandler.m_currentAction.m_address ∧ lineState rv = some newState ∧
    m'.m_log.reports = m.m_log.reports ++ [(m.m_log.ticket, rv)] ∧
    (m.m_dynamicHandler.updateAddressLine m.m_now addr newState).map Prod.fst = some m'.m_dynamicHandler

theorem credits_of_creditsWith {rv : ReturnValue} {addr : LocalAddress} {newState : AddressLine.State}
    {m m' : Master} (shown : creditsWith rv addr newState m m' = true) : Credits m m' addr newState := by
  obtain ⟨address, line, reports, handler⟩ := of_decide_eq_true shown
  exact ⟨address, rv, line, reports, handler⟩

/-- Address 1 is polled and returns the token. -/
theorem answer_credited_returned :
    ∃ m m₁ m₂, Reach (fun _ _ => True) {} sampleNode (fun _ => sampleId) 1000 m ∧
      Step m (.stimulus 1000 (.rxRawPacket (packet.ReturnToken.fromHeader ⟨1⟩) sampleStack)) m₁ ∧
      Step m₁ (.turn false) m₂ ∧ Credits m₁ m₂ 1 .idle ∧ Offered {} sampleNode (fun _ => sampleId) 1000 m₁ := by
  obtain ⟨m, reach, shown⟩ := reach_of_script (fun _ _ => True) {} sampleNode (fun _ => sampleId) 1000
    (startScript ++ [.turn false, .stimulus 1000 (.rxRawPacket (packet.GrantToken.fromHeader ⟨1⟩) sampleStack),
      .turn false])
    (fun m => (m.exec (.stimulus 1000 (.rxRawPacket (packet.ReturnToken.fromHeader ⟨1⟩) sampleStack))).any
      fun m₁ => (m₁.exec (.turn false)).any (creditsWith .rx_token_no_packet 1 .idle m₁)) (by decide +kernel)
  obtain ⟨m₁, m₂, heard, turn, shown⟩ := steps_of_exec shown
  have credits := credits_of_creditsWith shown
  exact ⟨m, m₁, m₂, reach, heard, turn, credits, (answer_credited _ _ _ _ reach heard turn credits).2.2.2.2⟩

/-- Address 1 is polled and does not answer in time. Its answer comes while the master
waits for address 2, and is credited to address 2. -/
theorem lateAnswer_credited_to_other :
    ∃ m m₁ m₂ bb, Reach (fun _ _ => True) {} sampleNode (fun _ => sampleId) 1000 m ∧
      Step m (.stimulus (1000 + 2 / 25) (.rxRawPacket bb sampleStack)) m₁ ∧ Step m₁ (.turn false) m₂ ∧
      Credits m₁ m₂ 2 .idle ∧ sourceAddress bb = some 1 := by
  obtain ⟨m, reach, shown⟩ := reach_of_script (fun _ _ => True) {} sampleNode (fun _ => sampleId) 1000
    (startScript ++ missedPoll 0 ++ [.turn false,
      .stimulus (1000 + 2 / 25) (.rxRawPacket (packet.GrantToken.fromHeader ⟨2⟩) sampleStack), .turn false])
    (fun m => (m.exec (.stimulus (1000 + 2 / 25) (.rxRawPacket (packet.ReturnToken.fromHeader ⟨1⟩) sampleStack))).any
      fun m₁ => (m₁.exec (.turn false)).any (creditsWith .rx_token_no_packet 2 .idle m₁)) (by decide +kernel)
  obtain ⟨m₁, m₂, heard, turn, shown⟩ := steps_of_exec shown
  exact ⟨m, m₁, m₂, _, reach, heard, turn, credits_of_creditsWith shown, rfl⟩

end SerialNet.Master
