import SerialNet.Bus.Traffic

namespace SerialNet

open PacketTypeCodec

/-! Where every accepted packet is -/

namespace Traffic

/-- Several nodes, and all that they have sent. -/
inductive PassAll : List PacketTypeCodec → List PacketTypeCodec → List ByteVec → Prop
  | nil : PassAll [] [] []
  | cons {n n' ns ns' sent later} : Passes n n' sent → PassAll ns ns' later →
      PassAll (n :: ns) (n' :: ns') (sent ++ later)

theorem PassAll.refl (ns : List PacketTypeCodec) : PassAll ns ns [] := by
  induction ns with
  | nil => exact .nil
  | cons n rest ih =>
    have still : Passes n n [] := .of_silent rfl rfl rfl
    exact .cons still ih

theorem HearEach.passAll {bb : ByteVec} {ns ns' : List PacketTypeCodec} {effects : List (List Effect)}
    (hear : HearEach bb ns ns' effects)
    (data : ∀ n ∈ ns, ∀ msg ∈ n.m_txQueue.m_txMsg, Client.isData msg = true) :
    PassAll ns ns' (effects.flatMap sentBy) := by
  induction hear with
  | nil => exact .nil
  | cons first _ ih =>
    exact .cons (.of_rxRawPacket (data _ List.mem_cons_self) first)
      (ih fun n member => data n (List.mem_cons_of_mem _ member))

theorem HearEach.at_place {bb : ByteVec} {ns ns' : List PacketTypeCodec} {effects : List (List Effect)}
    (hear : HearEach bb ns ns' effects) {i : Nat} {n : PacketTypeCodec} (here : ns[i]? = some n) :
    ∃ n' stack, n.rxRawPacket bb stack = some (n', effects.getD i []) := by
  induction hear generalizing i with
  | nil => cases here
  | cons first _ ih =>
    cases i with
    | zero =>
      cases Option.some.inj here
      exact ⟨_, _, first⟩
    | succ i => exact ih here

theorem PassAll.rested {ns ns' : List PacketTypeCodec} {sent : List ByteVec} (pass : PassAll ns ns' sent)
    (rested : ∀ n ∈ ns, n.m_rxMsg = []) : ∀ n' ∈ ns', n'.m_rxMsg = [] := by
  induction pass with
  | nil => exact rested
  | cons first _ ih =>
    rintro n' (_ | ⟨_, later⟩)
    · exact first.rested (rested _ List.mem_cons_self)
    · exact ih (fun n member => rested n (List.mem_cons_of_mem _ member)) n' later

theorem PassAll.drivers {ns ns' : List PacketTypeCodec} {sent : List ByteVec} (pass : PassAll ns ns' sent) :
    ns'.map PacketTypeCodec.drivers = ns.map PacketTypeCodec.drivers := by
  induction pass with
  | nil => rfl
  | cons first _ ih => rw [List.map_cons, List.map_cons, first.drivers, ih]

/-- What waits at the places is in the queues of the nodes there, from place `k` on. -/
def Waiting (k : Nat) (ns : List PacketTypeCodec) (waiting : Nat → List Sent) : Prop :=
  ∀ i n, ns[i]? = some n → (waiting (k + i)).map Sent.bytes = n.m_txQueue.m_txMsg

/-- From every place at most one packet is put on the line. -/
structure Serves (before after : Nat → List Sent) (served : List (Nat × Sent)) : Prop where
  taken : ∀ i, before i = served.fromPlace i ++ after i
  few : ∀ i, (served.fromPlace i).length ≤ 1

theorem Waiting.data {k : Nat} {ns : List PacketTypeCodec} {waiting : Nat → List Sent}
    (queues : Waiting k ns waiting) : ∀ n ∈ ns, ∀ msg ∈ n.m_txQueue.m_txMsg, Client.isData msg = true := by
  intro n member msg queued
  obtain ⟨i, here⟩ := List.mem_iff_getElem?.mp member
  rw [← queues i n here] at queued
  obtain ⟨s, _, rfl⟩ := List.mem_map.mp queued
  exact isData_bytes s

theorem Waiting.tail {k : Nat} {n : PacketTypeCodec} {ns : List PacketTypeCodec} {waiting : Nat → List Sent}
    (queues : Waiting k (n :: ns) waiting) : Waiting (k + 1) ns waiting := by
  intro i n' here
  have shifted := queues (i + 1) n' here
  rwa [show k + (i + 1) = k + 1 + i by omega] at shifted

/-- One queue changes. -/
theorem Waiting.set {ns : List PacketTypeCodec} {waiting : Nat → List Sent} (queues : Waiting 0 ns waiting) (i : Nat)
    {n' : PacketTypeCodec} {left : List Sent} (queue : left.map Sent.bytes = n'.m_txQueue.m_txMsg) :
    Waiting 0 (ns.set i n') (Function.update waiting i left) := by
  intro j n₂ there
  rw [List.getElem?_set] at there
  rw [Nat.zero_add]
  split at there
  · rename_i same
    subst same
    split at there
    · cases Option.some.inj there
      rw [Function.update_self, queue]
    · cases there
  · rename_i other
    have old := queues j n₂ there
    rw [Nat.zero_add] at old
    rw [Function.update_of_ne (Ne.symm other), old]

/-- What is accepted comes last. -/
theorem Waiting.submit {ns : List PacketTypeCodec} {waiting : Nat → List Sent} (queues : Waiting 0 ns waiting) {i : Nat}
    {n n' : PacketTypeCodec} {s : Submission} (here : ns[i]? = some n)
    (queue : n'.m_txQueue = s.submit n.m_txQueue) :
    Waiting 0 (ns.set i n') (Function.update waiting i (waiting i ++ s.accepted n)) := by
  refine queues.set i ?_
  have old := queues i n here
  rw [Nat.zero_add] at old
  rw [List.map_append, old, queue, Submission.submit_queue]

theorem accept_accepted (hosts : Nat → HostLog) (i j : Nat) (n : PacketTypeCodec) (s : Submission) :
    (accept hosts i n s j).accepted =
      if j = i then (hosts i).accepted ++ s.accepted n else (hosts j).accepted := by
  rw [accept]
  by_cases same : j = i
  · rw [if_pos same, same, Function.update_self]
  · rw [if_neg same, Function.update_of_ne same]

theorem accept_handed (hosts : Nat → HostLog) (i j : Nat) (n : PacketTypeCodec) (s : Submission) :
    (accept hosts i n s j).handed = (hosts j).handed := by
  rw [accept]
  by_cases same : j = i
  · rw [same, Function.update_self]
  · rw [Function.update_of_ne same]

/-- What the nodes send, they take from the front of their queues. -/
theorem PassAll.serves {ns ns' : List PacketTypeCodec} {sent : List ByteVec} (pass : PassAll ns ns' sent) {k : Nat}
    {waiting : Nat → List Sent} (queues : Waiting k ns waiting) :
    ∃ waiting' served, Serves waiting waiting' served ∧ Waiting k ns' waiting' ∧
      served.map (·.2.bytes) = sent.filter Client.isData ∧ ∀ e ∈ served, k ≤ e.1 := by
  induction pass generalizing k with
  | nil =>
    refine ⟨waiting, [], ⟨fun _ => rfl, fun _ => Nat.zero_le 1⟩, queues, rfl, ?_⟩
    rintro e ⟨⟩
  | @cons n n' ns ns' sent later first _ ih =>
    obtain ⟨after, served, ⟨taken, few⟩, left, shown, behind⟩ := ih queues.tail
    have here := queues 0 n rfl
    rw [Nat.add_zero, first.flow] at here
    obtain ⟨out, keep, split, outBytes, keepBytes⟩ := List.map_eq_append_iff.mp here
    have absent : served.fromPlace k = [] := by
      refine List.fromPlace_eq_nil ?_
      intro e member
      have above := behind e member
      omega
    refine ⟨Function.update after k keep, out.map (Prod.mk k) ++ served, ⟨?_, ?_⟩, ?_, ?_, ?_⟩
    · intro i
      by_cases same : i = k
      · rw [same, List.fromPlace_append, List.fromPlace_mark, absent, Function.update_self, split, List.append_nil]
      · rw [List.fromPlace_append, List.fromPlace_mark_of_ne (Ne.symm same), Function.update_of_ne same]
        exact taken i
    · intro i
      by_cases same : i = k
      · have length := congrArg List.length outBytes
        rw [List.length_map] at length
        rw [same, List.fromPlace_append, List.fromPlace_mark, absent, List.append_nil, length]
        exact first.few
      · rw [List.fromPlace_append, List.fromPlace_mark_of_ne (Ne.symm same)]
        exact few i
    · intro i n₂ here₂
      cases i with
      | zero =>
        cases Option.some.inj here₂
        rw [Nat.add_zero, Function.update_self, keepBytes]
      | succ i =>
        rw [Function.update_of_ne (by omega), show k + (i + 1) = k + 1 + i by omega]
        exact left i n₂ here₂
    · rw [List.map_append, List.map_map, List.filter_append, shown, ← outBytes]
      rfl
    · intro e member
      rcases List.mem_append.mp member with now | then_
      · obtain ⟨s, _, rfl⟩ := List.mem_map.mp now
        exact Nat.le_refl k
      · have above := behind e then_
        omega

/-- Every accepted packet has been heard by all nodes, is on the wire or waits in the queue
of its node. -/
structure Accounts (t : Traffic) (heard line : List (Nat × Sent)) (waiting : Nat → List Sent) : Prop where
  wire : line.map (·.2.bytes) = t.m_bus.m_wire.filter Client.isData
  queues : Waiting 0 t.m_bus.nodes waiting
  accepted : ∀ i, (t.hosts i).accepted = heard.fromPlace i ++ line.fromPlace i ++ waiting i

/-- The nodes send, and what is at the front of the wire is heard. -/
theorem Accounts.pass {t t' : Traffic} {heard line : List (Nat × Sent)} {waiting : Nat → List Sent}
    (accounts : Accounts t heard line waiting) {gone rest parts sent : List ByteVec}
    (wire : t.m_bus.m_wire = gone ++ rest) (pass : PassAll t.m_bus.nodes t'.m_bus.nodes parts)
    (perm : sent.Perm parts) (wire' : t'.m_bus.m_wire = rest ++ sent)
    (same : ∀ i, (t'.hosts i).accepted = (t.hosts i).accepted) :
    ∃ first later waiting', first.map (·.2.bytes) = gone.filter Client.isData ∧
      Accounts t' (heard ++ first) later waiting' := by
  obtain ⟨shown, queues, accepted⟩ := accounts
  rw [wire, List.filter_append] at shown
  obtain ⟨first, left, rfl, firstBytes, leftBytes⟩ := List.map_eq_append_iff.mp shown
  obtain ⟨waiting', served, ⟨taken, few⟩, queues', servedBytes, _⟩ := pass.serves queues
  have reordered := perm.filter Client.isData
  rw [← servedBytes] at reordered
  obtain ⟨served', order, bytes'⟩ := List.exists_perm_of_map_perm reordered
  refine ⟨first, left ++ served', waiting', firstBytes, ?_, queues', ?_⟩
  · rw [List.map_append, leftBytes, bytes', wire', List.filter_append]
  · intro i
    rw [same, accepted i, taken i, ← List.fromPlace_eq_of_perm order (few i)]
    simp only [List.fromPlace_append, List.append_assoc]

/-- A host submits. -/
theorem Accounts.submit {t t' : Traffic} {heard line : List (Nat × Sent)} {waiting : Nat → List Sent}
    (accounts : Accounts t heard line waiting) {i : Nat} {n n' : PacketTypeCodec} {s : Submission}
    (here : t.m_bus.nodes[i]? = some n) (queue : n'.m_txQueue = s.submit n.m_txQueue)
    (nodes : t'.m_bus.nodes = t.m_bus.nodes.set i n') (wire : t'.m_bus.m_wire = t.m_bus.m_wire)
    (logged : t'.hosts = accept t.hosts i n s) :
    Accounts t' heard line (Function.update waiting i (waiting i ++ s.accepted n)) := by
  obtain ⟨shown, queues, accepted⟩ := accounts
  refine ⟨wire ▸ shown, nodes ▸ queues.submit here queue, ?_⟩
  intro j
  rw [logged, accept_accepted]
  by_cases same : j = i
  · subst same
    rw [if_pos rfl, Function.update_self, accepted, List.append_assoc]
  · rw [if_neg same, Function.update_of_ne same, accepted]

/-! Who gets it -/

/-- Nodes keep their places, the drivers that are registered, and what is fixed of their
addresses. -/
structure Kept (ns ns' : List PacketTypeCodec) : Prop where
  fixed : ns'.map Bus.fixed = ns.map Bus.fixed
  drivers : ns'.map PacketTypeCodec.drivers = ns.map PacketTypeCodec.drivers

theorem Kept.trans {ns ns' ns'' : List PacketTypeCodec} (first : Kept ns ns') (second : Kept ns' ns'') :
    Kept ns ns'' :=
  ⟨second.fixed.trans first.fixed, second.drivers.trans first.drivers⟩

/-- A static node is the receiver it was. -/
theorem Kept.calls {ns ns' : List PacketTypeCodec} (kept : Kept ns ns') {i : Nat} {n : PacketTypeCodec}
    (here : ns[i]? = some n) (static : n.dynamic = false) :
    ∃ n', ns'[i]? = some n' ∧ ∀ s : Sent, s.calls n'.m_txQueue = s.calls n.m_txQueue := by
  have fixed := congrArg (fun l => l[i]?) kept.fixed
  have drivers := congrArg (fun l => l[i]?) kept.drivers
  simp only [List.getElem?_map, here, Option.map_some] at fixed drivers
  obtain ⟨n', there, same⟩ := Option.map_eq_some_iff.mp fixed
  rw [there, Option.map_some, Option.some.injEq] at drivers
  refine ⟨n', there, ?_⟩
  rw [Bus.fixed_static static] at same
  have address : n'.m_txQueue.clientAddress = n.m_txQueue.clientAddress := by
    unfold Bus.fixed at same
    split at same
    · cases same
    · exact Option.some.inj same
  have registered : n'.m_txQueue.getRxIf = n.m_txQueue.getRxIf := drivers
  rintro ⟨src, _ | _⟩
  · simp only [Sent.calls, Station.expectedCalls, address, registered]
  · rfl

/-- The drivers of the static nodes have got what was heard. -/
def Handed (ns : List PacketTypeCodec) (t : Traffic) (heard : List (Nat × Sent)) : Prop :=
  ∀ j n, ns[j]? = some n → n.dynamic = false → (t.hosts j).handed = heard.flatMap fun e => e.2.calls n.m_txQueue

/-- The first packet on the wire reaches the drivers it is for. -/
theorem Handed.hear {ns nodes nodes' : List PacketTypeCodec} {t t' : Traffic} {heard first : List (Nat × Sent)}
    {bb : ByteVec} {effects : List (List Effect)} (handed : Handed ns t heard) (kept : Kept ns nodes)
    (rested : ∀ n ∈ nodes, n.m_rxMsg = []) (hear : HearEach bb nodes nodes' effects)
    (logged : ∀ i, (t'.hosts i).handed = (t.hosts i).handed ++ (effects.getD i []).filter Station.isHostCall)
    (this : first.map (·.2.bytes) = [bb].filter Client.isData) : Handed ns t' (heard ++ first) := by
  intro j n here static
  obtain ⟨n', there, calls⟩ := kept.calls here static
  obtain ⟨n'', stack, run⟩ := hear.at_place there
  have rest := rested n' (List.mem_of_getElem? there)
  rw [logged, handed j n here static, List.flatMap_append, List.append_cancel_left_eq]
  by_cases data : Client.isData bb = true
  · rw [List.filter_cons_of_pos data, List.filter_nil] at this
    obtain ⟨⟨k, s⟩, rfl, rfl⟩ := List.map_eq_singleton_iff.mp this
    rw [rxRawPacket_calls rest run, calls, List.flatMap_singleton]
  · rw [List.filter_cons_of_neg data, List.filter_nil, List.map_eq_nil_iff] at this
    have other : kind bb ≠ some .send_packet := by
      intro type
      simp [Client.isData, type] at data
    rw [rxRawPacket_hostless rest other run, this, List.flatMap_nil]

/-- What holds of the bus and of the logs at all times. -/
structure Logged (cfg : Config) (uninitialised : Nat → UniqueId) (ns : List PacketTypeCodec) (t : Traffic)
    (heard line : List (Nat × Sent)) (waiting : Nat → List Sent) : Prop where
  inv : Bus.Inv cfg uninitialised t.m_bus
  rested : ∀ n ∈ t.m_bus.nodes, n.m_rxMsg = []
  kept : Kept ns t.m_bus.nodes
  accounts : Accounts t heard line waiting
  handed : Handed ns t heard

namespace Logged

variable {cfg : Config} {uninitialised : Nat → UniqueId} {ns : List PacketTypeCodec} {t t' : Traffic}
  {heard line : List (Nat × Sent)} {waiting : Nat → List Sent}

/-- A node has something more to send. -/
theorem submit (logged : Logged cfg uninitialised ns t heard line waiting)
    (inv : Bus.Inv cfg uninitialised t'.m_bus) {i : Nat} {n n' : PacketTypeCodec} {s : Submission}
    (here : t.m_bus.nodes[i]? = some n) (changed : n' = { n with m_txQueue := s.submit n.m_txQueue })
    (nodes : t'.m_bus.nodes = t.m_bus.nodes.set i n') (wire : t'.m_bus.m_wire = t.m_bus.m_wire)
    (hosts : t'.hosts = accept t.hosts i n s) :
    ∃ heard' line' waiting', Logged cfg uninitialised ns t' heard' line' waiting' := by
  subst changed
  have unchanged : ∀ {α : Type} (f : PacketTypeCodec → α), f { n with m_txQueue := s.submit n.m_txQueue } = f n →
      t'.m_bus.nodes.map f = t.m_bus.nodes.map f := by
    intro α f same
    have old : (t.m_bus.nodes.map f)[i]? = some (f n) := by
      rw [List.getElem?_map, here, Option.map_some]
    obtain ⟨inside, value⟩ := List.getElem?_eq_some_iff.mp old
    rw [nodes, List.map_set, same, ← value]
    exact List.set_getElem_self inside
  refine ⟨heard, line, _, inv, ?_, logged.kept.trans ⟨unchanged _ ?_, unchanged _ ?_⟩,
    logged.accounts.submit here rfl nodes wire hosts, ?_⟩
  · intro n₂ member
    rw [nodes] at member
    rcases List.mem_or_eq_of_mem_set member with old | rfl
    · exact logged.rested n₂ old
    · exact logged.rested n (List.mem_of_getElem? here)
  · have own := (Submission.submits n.m_txQueue s).ownAddress
    rw [Bus.fixed, Bus.fixed, dynamic, address, TxQueue.clientAddress, own]
    rfl
  · unfold PacketTypeCodec.drivers TxQueue.getRxIf
    cases s with
    | sendPacket data destAddr chType =>
      dsimp only [Submission.submit, TxQueue.msgHostTx_sendPacket]
      split <;> rfl
    | sendMacUpdate mac =>
      dsimp only [Submission.submit, TxQueue.msgHostTx_sendMacUpdate]
      split <;> rfl
  · intro j n₂ there static
    rw [hosts, accept_handed]
    exact logged.handed j n₂ there static

/-- Callbacks of the master that are not for its own node leave the traffic alone. -/
theorem quiet (logged : Logged cfg uninitialised ns t heard line waiting) (inv : Bus.Inv cfg uninitialised t'.m_bus)
    {sent : List ByteVec} (pass : PassAll t.m_bus.nodes t'.m_bus.nodes sent)
    (wire : t'.m_bus.m_wire = t.m_bus.m_wire ++ sent)
    (fixed : t'.m_bus.nodes.map Bus.fixed = t.m_bus.nodes.map Bus.fixed) (hosts : t'.hosts = t.hosts) :
    ∃ heard' line' waiting', Logged cfg uninitialised ns t' heard' line' waiting' := by
  have nothing : t.m_bus.m_wire = [] ++ t.m_bus.m_wire := rfl
  have accepted : ∀ i, (t'.hosts i).accepted = (t.hosts i).accepted := fun i => by rw [hosts]
  obtain ⟨first, later, waiting', none, accounts⟩ :=
    logged.accounts.pass nothing pass (List.Perm.refl _) wire accepted
  rw [List.filter_nil, List.map_eq_nil_iff] at none
  refine ⟨heard ++ first, later, waiting', inv, pass.rested logged.rested, logged.kept.trans ⟨fixed, pass.drivers⟩,
    accounts, ?_⟩
  intro j n here static
  rw [hosts, none, List.append_nil]
  exact logged.handed j n here static

/-- All nodes hear the first packet on the wire. -/
theorem deliver (logged : Logged cfg uninitialised ns t heard line waiting)
    (inv : Bus.Inv cfg uninitialised t'.m_bus) {bb : ByteVec} {rest sent : List ByteVec} {effects : List (List Effect)}
    (wire : t.m_bus.m_wire = bb :: rest) (each : HearEach bb t.m_bus.nodes t'.m_bus.nodes effects)
    (perm : sent.Perm (effects.flatMap sentBy)) (wire' : t'.m_bus.m_wire = rest ++ sent)
    (accepted : ∀ i, (t'.hosts i).accepted = (t.hosts i).accepted)
    (handed : ∀ i, (t'.hosts i).handed = (t.hosts i).handed ++ (effects.getD i []).filter Station.isHostCall) :
    ∃ heard' line' waiting', Logged cfg uninitialised ns t' heard' line' waiting' := by
  have pass := each.passAll logged.accounts.queues.data
  have front : t.m_bus.m_wire = [bb] ++ rest := wire
  obtain ⟨first, later, waiting', this, accounts⟩ := logged.accounts.pass front pass perm wire' accepted
  have agreement : Bus.Agreement t.m_bus.m_master.m_dynamicHandler.keys t.m_bus.nodes (bb :: rest) := by
    rw [← wire]
    exact logged.inv.agreement
  have carried : Bus.Carried bb := logged.inv.carried bb (by rw [wire]; exact List.mem_cons_self)
  exact ⟨heard ++ first, later, waiting', inv, pass.rested logged.rested,
    logged.kept.trans ⟨each.forget.fixed carried agreement, pass.drivers⟩, accounts,
    logged.handed.hear logged.kept logged.rested each handed this⟩

theorem step (logged : Logged cfg uninitialised ns t heard line waiting) (separate : cfg.Separate) (step : Step t t') :
    ∃ heard' line' waiting', Logged cfg uninitialised ns t' heard' line' waiting' := by
  have inv := logged.inv.step separate step.forget
  have data := logged.accounts.queues.data
  cases step with
  | @deliver b hosts bb rest now stack master clients effects sent wire received hear perm =>
    rcases logged.inv.synced.step_cases received with ⟨_, _, turn, _⟩ | ⟨_, _, label, _, _, _, taken⟩
    · cases turn
    · cases label
      cases taken with
      | @packet _ _ node own run =>
        have each : HearEach bb b.nodes (node :: clients) (own :: effects) := .cons run hear
        refine logged.deliver inv wire each ?_ rfl (fun _ => rfl) ?_
        · rw [List.flatMap_cons, ← sentBy_outward own]
          exact perm
        · intro i
          cases i with
          | zero => exact congrArg _ (filter_isHostCall_outward own)
          | succ i => rfl
  | @submit b hosts before n after s clients =>
    refine logged.submit inv (i := before.length + 1) (n := n) ?_ rfl ?_ rfl rfl
    · simp [Bus.nodes, clients]
    · simp [Bus.nodes, clients]
  | @master b hosts l master local_ patient moved =>
    have still := PassAll.refl b.m_clients
    rcases logged.inv.synced.step_cases moved with ⟨_, _, rfl, queue, taken⟩ | ⟨now, s, rfl, queue, _, _, taken⟩
    · have turn := Passes.of_turn (data _ List.mem_cons_self) taken
      have pass : PassAll b.nodes (master.m_node :: b.m_clients) (sentBy master.m_out) := by
        rw [← List.append_nil (sentBy _)]
        exact .cons turn still
      refine logged.quiet inv pass rfl ?_ rfl
      refine Bus.map_fixed_of_face ?_
      rw [Bus.nodes, Bus.nodes, List.map_cons, List.map_cons,
        (Bus.face_turn taken (logged.inv.dataOnly _ List.mem_cons_self)).1]
    · obtain ⟨same, _, _, silent⟩ := Bus.stimulus_frame local_ taken (logged.inv.dataOnly _ List.mem_cons_self)
      have faces : (master.m_node :: b.m_clients).map Bus.face = b.nodes.map Bus.face := by
        rw [List.map_cons, same, Bus.nodes, List.map_cons]
      have nothing : master.m_node = b.m_master.m_node → Submission.ofLabel (.stimulus now s) = none →
          ∃ heard' line' waiting', Logged cfg uninitialised ns
            ⟨{ b with m_master := master, m_wire := b.m_wire ++ sentBy master.m_out },
              (Submission.ofLabel (.stimulus now s)).elim hosts (accept hosts 0 b.m_master.m_node)⟩
            heard' line' waiting' := by
        intro node none
        have pass : PassAll b.nodes (master.m_node :: b.m_clients) (sentBy master.m_out) := by
          rw [node, silent]
          exact .refl _
        refine logged.quiet inv pass rfl (Bus.map_fixed_of_face faces) ?_
        rw [none]
        rfl
      cases taken with
      | packet _ => cases local_
      | sendPacket =>
        refine logged.submit inv (i := 0) (n := b.m_master.m_node) rfl rfl rfl ?_ rfl
        rw [silent, List.append_nil]
      | sendMacUpdate =>
        refine logged.submit inv (i := 0) (n := b.m_master.m_node) rfl rfl rfl ?_ rfl
        rw [silent, List.append_nil]
      | timer => exact nothing rfl rfl
      | delayBusy _ => exact nothing rfl rfl
      | delayIdle _ => exact nothing (by rw [Master.startNext_node]; rfl) rfl
      | discovery => exact nothing rfl rfl
      | reordered _ => exact nothing rfl rfl

theorem start {own : PacketTypeCodec} {clients : List PacketTypeCodec}
    (setup : Bus.Setup cfg uninitialised (own :: clients)) (rested : ∀ n ∈ own :: clients, n.m_rxMsg = []) (now : ℚ) :
    Logged cfg uninitialised (own :: clients)
      ⟨⟨Master.started cfg own uninitialised now, clients, []⟩, fun _ => ⟨[], []⟩⟩ [] [] (fun _ => []) := by
  refine ⟨Bus.Inv.start setup now, ?_, ⟨rfl, rfl⟩, ⟨rfl, ?_, fun _ => rfl⟩, fun _ _ _ _ => rfl⟩
  · rintro n (_ | ⟨_, client⟩)
    · exact rested own List.mem_cons_self
    · exact rested n (List.mem_cons_of_mem _ client)
  · intro i n here
    have member := List.mem_of_getElem? here
    rcases List.mem_cons.mp member with rfl | client
    · exact (setup.fresh own List.mem_cons_self).1.symm
    · exact (setup.fresh n (List.mem_cons_of_mem _ client)).1.symm

end Logged

theorem length_le_one_of_map {line : List (Nat × Sent)} {wire : List ByteVec}
    (shown : line.map (·.2.bytes) = wire.filter Client.isData) (single : (wire.filter Bus.isToken).length ≤ 1) :
    line.length ≤ 1 := by
  have fewer : (wire.filter Client.isData).length ≤ (wire.filter Bus.isToken).length := by
    refine (List.monotone_filter_right _ ?_).length_le
    intro msg data
    rcases of_decide_eq_true data with type | type
    · exact decide_eq_true (Or.inr (Or.inr (Or.inl type)))
    · exact decide_eq_true (Or.inr (Or.inr (Or.inr type)))
  rw [← shown, List.length_map] at fewer
  omega

/-- What a host has had accepted has been heard, but for the last of it. -/
theorem Logged.heard_of_accepted (logged : Logged cfg uninitialised ns t heard line waiting) {i : Nat}
    {n : PacketTypeCodec} (current : t.m_bus.nodes[i]? = some n) {α : Type} {items : List α} {f : α → Sent}
    (submitted : (t.hosts i).accepted = items.map f) :
    ∃ first later, items = first ++ later ∧
      later.length ≤ (t.m_bus.m_wire.filter Client.isData).length + n.m_txQueue.m_txMsg.length ∧
      heard.fromPlace i = first.map f := by
  have accounts := logged.accounts.accepted i
  rw [submitted, List.append_assoc] at accounts
  obtain ⟨first, later, split, heardOf, pending⟩ := List.map_eq_append_iff.mp accounts
  refine ⟨first, later, split, ?_, heardOf.symm⟩
  have onWire := congrArg List.length logged.accounts.wire
  have fromLine : (line.fromPlace i).length ≤ line.length := by
    rw [List.fromPlace, List.length_map]
    exact List.length_filter_le _ _
  have queue := congrArg List.length (logged.accounts.queues i n current)
  have length := congrArg List.length pending
  rw [List.length_map] at onWire
  rw [List.length_map, Nat.zero_add] at queue
  rw [List.length_map, List.length_append] at length
  omega

/-- Where the two timers that wait for a token or its answer run out on a silent wire only,
the bus is a reliable broadcast in one order for all. There is one sequence of packets
that have been heard, and every host of a node with a static address has been handed what
is in it for its drivers, in that order and nothing else. Of each host, what it has had
accepted is what has been heard of it, in the order of its submissions, at most one packet
on the wire, and what waits in the queue of its node. -/
theorem ordered_broadcast (cfg : Config) (uninitialised : Nat → UniqueId) (own : PacketTypeCodec)
    (clients : List PacketTypeCodec) (setup : Bus.Setup cfg uninitialised (own :: clients))
    (rested : ∀ n ∈ own :: clients, n.m_rxMsg = []) (now : ℚ) (m₀ : Master)
    (constructed : Master.start cfg own uninitialised now = .ok m₀) (t : Traffic)
    (run : Relation.ReflTransGen Step ⟨⟨m₀, clients, []⟩, fun _ => ⟨[], []⟩⟩ t) :
    ∃ heard line : List (Nat × Sent), ∃ waiting : Nat → List Sent,
      line.map (·.2.bytes) = t.m_bus.m_wire.filter Client.isData ∧ line.length ≤ 1 ∧
      (∀ i n, t.m_bus.nodes[i]? = some n → (waiting i).map Sent.bytes = n.m_txQueue.m_txMsg) ∧
      (∀ i, (t.hosts i).accepted = heard.fromPlace i ++ line.fromPlace i ++ waiting i) ∧
      ∀ j n, (own :: clients)[j]? = some n → n.dynamic = false →
        (t.hosts j).handed = heard.flatMap fun e => e.2.calls n.m_txQueue := by
  rw [Master.start_eq] at constructed
  cases constructed
  have logged : ∃ heard line waiting, Logged cfg uninitialised (own :: clients) t heard line waiting := by
    induction run with
    | refl => exact ⟨_, _, _, Logged.start setup rested now⟩
    | tail _ step ih =>
      obtain ⟨heard, line, waiting, logged⟩ := ih
      exact logged.step setup.separate step
  obtain ⟨heard, line, waiting, logged⟩ := logged
  refine ⟨heard, line, waiting, logged.accounts.wire,
    length_le_one_of_map logged.accounts.wire logged.inv.phase.length_filter_isToken, ?_, logged.accounts.accepted,
    logged.handed⟩
  intro i n here
  have queue := logged.accounts.queues i n here
  rwa [Nat.zero_add] at queue

/-! Runs that can be computed -/

inductive Move
  | turn (rxInProgress : Bool)
  | hear (now : ℚ) (stack : ChannelType × Crc32)
  | submit (i : Nat) (s : Submission)

def hearEach (bb : ByteVec) (stack : ChannelType × Crc32) :
    List PacketTypeCodec → Option (List PacketTypeCodec × List (List Effect))
  | [] => some ([], [])
  | n :: ns => do
    let (n', effects) ← n.rxRawPacket bb stack
    let (ns', later) ← hearEach bb stack ns
    some (n' :: ns', effects :: later)

theorem HearEach.of_hearEach {bb : ByteVec} {stack : ChannelType × Crc32} {ns ns' : List PacketTypeCodec}
    {effects : List (List Effect)} (run : hearEach bb stack ns = some (ns', effects)) :
    HearEach bb ns ns' effects := by
  induction ns generalizing ns' effects with
  | nil =>
    cases Option.some.inj run
    exact .nil
  | cons n ns ih =>
    obtain ⟨⟨n', first⟩, heard, run⟩ := Option.bind_eq_some_iff.mp run
    obtain ⟨⟨ns', later⟩, others, run⟩ := Option.bind_eq_some_iff.mp run
    cases Option.some.inj run
    exact .cons heard (ih others)

/-- Some of the steps as a function. -/
def exec (t : Traffic) : Move → Option Traffic
  | .turn rxInProgress => (t.m_bus.m_master.exec (.turn rxInProgress)).map fun master =>
    ⟨{ t.m_bus with m_master := master, m_wire := t.m_bus.m_wire ++ sentBy master.m_out }, t.hosts⟩
  | .hear now stack =>
    match t.m_bus.m_wire with
    | [] => none
    | bb :: rest => do
      let master ← t.m_bus.m_master.exec (.stimulus now (.rxRawPacket bb stack))
      let (clients, effects) ← hearEach bb stack t.m_bus.m_clients
      some ⟨⟨master, clients, rest ++ (sentBy master.m_out ++ effects.flatMap sentBy)⟩,
        hand t.hosts (master.m_out :: effects)⟩
  | .submit i s => do
    let n ← t.m_bus.m_clients[i]?
    some ⟨{ t.m_bus with m_clients := t.m_bus.m_clients.set i { n with m_txQueue := s.submit n.m_txQueue } },
      accept t.hosts (i + 1) n s⟩

theorem exec_step {t t' : Traffic} {move : Move} (run : t.exec move = some t') : Step t t' := by
  cases move with
  | turn rxInProgress =>
    obtain ⟨master, first, rfl⟩ := Option.map_eq_some_iff.mp run
    exact .master (l := .turn rxInProgress) trivial trivial (Master.exec_step first)
  | hear now stack =>
    simp only [exec] at run
    split at run
    · cases run
    · rename_i bb rest wire
      obtain ⟨master, first, run⟩ := Option.bind_eq_some_iff.mp run
      obtain ⟨⟨clients, effects⟩, others, run⟩ := Option.bind_eq_some_iff.mp run
      cases Option.some.inj run
      exact .deliver wire (Master.exec_step first) (.of_hearEach others)
        (List.Perm.refl _)
  | submit i s =>
    obtain ⟨n, present, run⟩ := Option.bind_eq_some_iff.mp run
    cases Option.some.inj run
    obtain ⟨inside, here⟩ := List.getElem?_eq_some_iff.mp present
    have split : t.m_bus.m_clients = t.m_bus.m_clients.take i ++ n :: t.m_bus.m_clients.drop (i + 1) := by
      rw [← here, List.getElem_cons_drop, List.take_append_drop]
    have place : accept t.hosts (i + 1) n s = accept t.hosts ((t.m_bus.m_clients.take i).length + 1) n s := by
      rw [List.length_take, Nat.min_eq_left (Nat.le_of_lt inside)]
    rw [List.set_eq_take_append_cons_drop, if_pos inside, place]
    exact .submit split

theorem run_of_script {t t' : Traffic} {script : List Move} (run : LabelledReach.follow exec t script = some t') :
    Relation.ReflTransGen Step t t' :=
  LabelledReach.follow_invariant (P := Relation.ReflTransGen Step t) .refl
    (fun before taken => before.tail (exec_step taken)) run

/-- The own node of the master, with a driver for raw data. -/
def listeningNode : PacketTypeCodec :=
  { Master.sampleNode with m_txQueue := Master.sampleNode.m_txQueue.setRxHandler (some 5) .raw_stream }

/-- The master starts, the host of the first client submits something, and the client sends
it when it gets the token. -/
def deliveryScript (s : Submission) : List Move :=
  [.turn false, .hear 1000 Master.sampleStack, .turn false, .submit 0 s, .turn false,
    .hear 1000 Master.sampleStack, .turn false, .hear 1000 Master.sampleStack]

theorem ordered_broadcast_delivered :
    ∃ t, Relation.ReflTransGen Step ⟨⟨Master.started {} listeningNode (fun _ => Bus.unsetId) 1000,
        [Bus.sampleClient 1 2, Bus.sampleClient 0 3], []⟩, fun _ => ⟨[], []⟩⟩ t ∧
      (t.hosts 0).handed = [.packetReceivedFromNet 5 [1, 2, 3] 1 9 .raw_stream] ∧
      ∃ heard : List (Nat × Sent), heard.fromPlace 1 <+: (t.hosts 1).accepted ∧
        (t.hosts 0).handed = heard.flatMap fun e => e.2.calls listeningNode.m_txQueue := by
  have shown : ((LabelledReach.follow exec ⟨⟨Master.started {} listeningNode (fun _ => Bus.unsetId) 1000,
      [Bus.sampleClient 1 2, Bus.sampleClient 0 3], []⟩, fun _ => ⟨[], []⟩⟩
        (deliveryScript (.sendPacket [1, 2, 3] 9 .raw_stream))).map
        fun t => (t.hosts 0).handed) = some [.packetReceivedFromNet 5 [1, 2, 3] 1 9 .raw_stream] := by
    decide +kernel
  obtain ⟨t, followed, handed⟩ := Option.map_eq_some_iff.mp shown
  have setup : Bus.Setup {} (fun _ => Bus.unsetId) [listeningNode, Bus.sampleClient 1 2, Bus.sampleClient 0 3] := by
    refine ⟨Config.separate_default, ?_, ?_, ?_, ?_, ?_⟩ <;> decide
  have run := run_of_script followed
  obtain ⟨heard, line, waiting, _, _, _, accepted, delivered⟩ :=
    ordered_broadcast {} _ _ _ setup (by decide) 1000 _ (Master.start_eq _ _ _ _) t run
  refine ⟨t, run, handed, heard, ?_, delivered 0 listeningNode rfl rfl⟩
  rw [accepted 1, List.append_assoc]
  exact List.prefix_append _ _

end Traffic

end SerialNet
