import SerialNet.Bus.StaticAddresses

namespace SerialNet

open PacketTypeCodec Master

/-- A bus whose parties may be restarted. Beside the bus stand the places of the nodes that
have not been restarted since the present master was, nor heard that it has started. -/
structure RestartBus where
  m_bus : LossyBus
  unheard : List Nat

namespace RestartBus

open LossyBus

inductive Move
  | bus (move : LossyBus.Move)
  | restartMaster
  | restartClient (i : Nat)

/-- How a node begins. -/
def Fresh (n : PacketTypeCodec) : Prop :=
  n.m_txQueue.m_txMsg = [] ∧ (n.dynamic = true → n.address = LocalAddress.null_addr)

def stillUnheard (unheard : List Nat) : LossyBus.Move → List Nat
  | .hear i bb => if bb = packet.masterStarted then unheard.filter (· ≠ i + 1) else unheard
  | _ => unheard

/-- Whoever is restarted has lost what it knew, and has an id that is not in use. What is
on its way stays there. A master is not back so soon that a client could still hear of an
address from its predecessor. -/
inductive Step : RestartBus → Move → RestartBus → Prop
  | bus {s : RestartBus} {move b} : LossyBus.Step s.m_bus move b →
      Step s (.bus move) ⟨b, stillUnheard s.unheard move⟩
  | restartMaster {s : RestartBus} {cfg own uninitialised now master} : cfg.Separate → 1 ≤ now → Fresh own →
      own.m_uniqueId ∉ s.m_bus.m_clients.map (·.m_uniqueId) → Master.start cfg own uninitialised now = .ok master →
      (∀ c ∈ s.m_bus.m_copies, kind c.2 ≠ some .address_reply) →
      Step s .restartMaster ⟨{ s.m_bus with m_master := master },
        (List.range s.m_bus.m_clients.length).map Nat.succ⟩
  | restartClient {s : RestartBus} {i n n'} : s.m_bus.m_clients[i]? = some n → Fresh n' →
      n'.m_uniqueId ∉ s.m_bus.nodes.map (·.m_uniqueId) → (∀ d, (i + 1, Bus.reply d n'.m_uniqueId) ∉ s.m_bus.m_copies) →
      Step s (.restartClient i) ⟨{ s.m_bus with m_clients := s.m_bus.m_clients.set i n' },
        s.unheard.filter (· ≠ i + 1)⟩

/-- The masters see their token grants in time, and give up no line that is in use. -/
def Careful (s : RestartBus) : Move → Prop
  | .bus move => s.m_bus.Careful move
  | _ => True

/-- A node goes by an address: it has heard that the present master has started and has the
address since, or it is going to hear that the address is its own. -/
def Claims (s : RestartBus) (i : Nat) (n : PacketTypeCodec) (d : LocalAddress) : Prop :=
  (n.address = d ∧ i ∉ s.unheard) ∨ (i, Bus.reply d n.m_uniqueId) ∈ s.m_bus.m_copies

/-- The present master has been in one piece since it started. -/
def Sound (m : Master) : Prop :=
  ∃ cfg own uninitialised now, Config.Separate cfg ∧ 1 ≤ now ∧
    Master.Reach (fun m l => ¬ m.LosesGrant l) cfg own uninitialised now m

theorem Sound.step {m m' : Master} {l : Label} (sound : Sound m) (seen : ¬ m.LosesGrant l) (step : m.Step l m') :
    Sound m' := by
  obtain ⟨cfg, own, uninitialised, now, separate, clock, m₀, constructed, run⟩ := sound
  exact ⟨cfg, own, uninitialised, now, separate, clock, m₀, constructed, .next run seen step⟩

/-- What a restart does not undo. Every claim to an address has its line, but for those that
go back to an earlier master. -/
structure Healed (s : RestartBus) : Prop where
  sound : Sound s.m_bus.m_master
  ids : (s.m_bus.nodes.map (·.m_uniqueId)).Nodup
  dataOnly : ∀ n ∈ s.m_bus.nodes, DataOnly n.m_txQueue
  carried : ∀ c ∈ s.m_bus.m_copies, Bus.Carried c.2
  lines : ∀ {i n d}, s.m_bus.nodes[i]? = some n → n.dynamic = true → s.Claims i n d → d ≠ LocalAddress.null_addr →
    ∃ isDynamic, (d, isDynamic, n.m_uniqueId) ∈ s.m_bus.m_master.m_dynamicHandler.keys

namespace Healed

variable {s s' : RestartBus}

/-- One node takes part in the step, and the table keeps its lines. -/
theorem of_set {i : Nat} {n n' : PacketTypeCodec} (healed : Healed s) (sound : Sound s'.m_bus.m_master)
    (present : s.m_bus.nodes[i]? = some n) (nodes : s'.m_bus.nodes = s.m_bus.nodes.set i n')
    (same : Bus.identity n' = Bus.identity n)
    (address : n.dynamic = true → i ∉ s'.unheard → n'.address = LocalAddress.null_addr ∨
      i ∉ s.unheard ∧ n'.address = n.address ∨ (i, Bus.reply n'.address n.m_uniqueId) ∈ s.m_bus.m_copies)
    (unheard : ∀ j, j ≠ i → j ∉ s'.unheard → j ∉ s.unheard) (dataOnly : DataOnly n'.m_txQueue)
    (copies : ∀ c ∈ s'.m_bus.m_copies,
      c ∈ s.m_bus.m_copies ∨ Bus.Carried c.2 ∧ kind c.2 ≠ some .address_reply)
    (keys : s'.m_bus.m_master.m_dynamicHandler.keys = s.m_bus.m_master.m_dynamicHandler.keys) : Healed s' := by
  obtain ⟨sameId, sameDynamic⟩ := Prod.mk.inj same
  have promised : ∀ {j d u}, (j, Bus.reply d u) ∈ s'.m_bus.m_copies → (j, Bus.reply d u) ∈ s.m_bus.m_copies := by
    intro j d u copy
    rcases copies _ copy with old | ⟨_, other⟩
    · exact old
    · exact absurd rfl other
  refine ⟨sound, ?_, ?_, ?_, ?_⟩
  · rw [nodes, map_set_of_getElem? present sameId]
    exact healed.ids
  · intro n₁ member
    rw [nodes] at member
    rcases List.mem_or_eq_of_mem_set member with old | rfl
    · exact healed.dataOnly n₁ old
    · exact dataOnly
  · intro c member
    rcases copies c member with old | ⟨carried, _⟩
    · exact healed.carried c old
    · exact carried
  · intro j n₁ d at_ dynamic claims proper
    rw [keys]
    by_cases here : i = j
    · subst here
      have inside := (List.getElem?_eq_some_iff.mp present).1
      rw [nodes, List.getElem?_set_self inside] at at_
      cases at_
      rw [sameDynamic] at dynamic
      rw [sameId]
      refine healed.lines present dynamic ?_ proper
      rcases claims with ⟨mine, heard⟩ | copy
      · rcases address dynamic heard with null | ⟨before, kept⟩ | told
        · exact absurd (mine.symm.trans null) proper
        · exact Or.inl ⟨kept.symm.trans mine, before⟩
        · rw [mine] at told
          exact Or.inr told
      · rw [sameId] at copy
        exact Or.inr (promised copy)
    · rw [nodes, List.getElem?_set_ne here] at at_
      refine healed.lines at_ dynamic ?_ proper
      rcases claims with ⟨mine, heard⟩ | copy
      · exact Or.inl ⟨mine, unheard j (Ne.symm here) heard⟩
      · exact Or.inr (promised copy)

/-- A node hears a packet. If it has not heard of the present master, it does now or knows
no more than before. -/
theorem hear (healed : Healed s) {i : Nat} {bb : ByteVec} {n n' : PacketTypeCodec} {sent : List ByteVec}
    (sound : Sound s'.m_bus.m_master) (present : s.m_bus.nodes[i]? = some n) (copy : (i, bb) ∈ s.m_bus.m_copies)
    (hears : Hears bb n n' sent) (nodes : s'.m_bus.nodes = s.m_bus.nodes.set i n')
    (copies : s'.m_bus.m_copies = s.m_bus.m_copies.erase (i, bb) ++ broadcast s.m_bus.nodes.length sent)
    (unheard : ∀ j, j ∉ s'.unheard → j ∉ s.unheard ∨ j = i ∧ bb = packet.masterStarted)
    (keys : s'.m_bus.m_master.m_dynamicHandler.keys = s.m_bus.m_master.m_dynamicHandler.keys) : Healed s' := by
  have dataOnly := healed.dataOnly n (List.mem_of_getElem? present)
  refine healed.of_set sound present nodes ?_ ?_ ?_ (hears.dataOnly dataOnly) ?_ keys
  · rw [Bus.identity, hears.uniqueId, hears.dynamic, Bus.identity]
  · intro dynamic heard
    rcases unheard i heard with before | ⟨_, rfl⟩
    · rcases Bus.address_cases (healed.carried _ copy) hears with kept | ⟨_, null⟩ | told
      · exact Or.inr (Or.inl ⟨before, kept⟩)
      · exact Or.inl null
      · have promise : bb = Bus.reply n'.address n.m_uniqueId := told
        rw [promise] at copy
        exact Or.inr (Or.inr copy)
    · exact Or.inl (forgets hears rfl dynamic)
  · intro j apart heard
    rcases unheard j heard with before | ⟨here, _⟩
    · exact before
    · exact absurd here apart
  · intro c member
    rw [copies] at member
    rcases mem_copies member with old | new
    · exact Or.inl old
    · obtain ⟨carried, noReply, _⟩ := Bus.Carried.of_hears hears dataOnly new
      exact Or.inr ⟨carried, noReply⟩

theorem turn (healed : Healed s) (synced : Synced s.m_bus.m_master) {rxInProgress : Bool} {ev : Event}
    {master : Master} (sound : Sound master) (queue : s.m_bus.m_master.m_fsm.m_eventQueue = [ev])
    (taken : TurnCase s.m_bus.m_master rxInProgress ev master)
    (kept : ∀ line, GivesUp s.m_bus.m_master line (.turn rxInProgress) →
      ¬ s.m_bus.InUse line.m_address line.m_uniqueId) :
    Healed ⟨{ s.m_bus with
      m_master := master
      m_copies := s.m_bus.m_copies ++ broadcast s.m_bus.nodes.length (sentBy master.m_out) }, s.unheard⟩ := by
  have own := healed.dataOnly s.m_bus.m_master.m_node List.mem_cons_self
  have present : s.m_bus.nodes[0]? = some s.m_bus.m_master.m_node := rfl
  obtain ⟨same, dataOnly⟩ := Bus.face_turn taken own
  obtain ⟨identities, address⟩ := Prod.mk.inj same
  obtain ⟨sameId, sameDynamic⟩ := Prod.mk.inj identities
  refine ⟨sound, ?_, ?_, ?_, ?_⟩
  · have ids := map_set_of_getElem? (f := (·.m_uniqueId)) present sameId
    have nodup := healed.ids
    rw [← ids] at nodup
    exact nodup
  · intro n member
    rcases List.mem_cons.mp member with rfl | client
    · exact dataOnly
    · exact healed.dataOnly n (List.mem_cons_of_mem _ client)
  · intro c member
    rcases List.mem_append.mp member with old | new
    · exact healed.carried c old
    · exact Bus.Carried.turn own taken c.2 (mem_broadcast new)
  · intro i n d here dynamic claims proper
    by_cases told : Bus.reply d n.m_uniqueId ∈ sentBy master.m_out
    · exact keys_told taken own told
    · have before : ∃ n₀, s.m_bus.nodes[i]? = some n₀ ∧ n₀.dynamic = true ∧ n₀.m_uniqueId = n.m_uniqueId ∧
          s.Claims i n₀ d := by
        have promised : (i, Bus.reply d n.m_uniqueId) ∈
            s.m_bus.m_copies ++ broadcast s.m_bus.nodes.length (sentBy master.m_out) →
            (i, Bus.reply d n.m_uniqueId) ∈ s.m_bus.m_copies := by
          intro copy
          rcases List.mem_append.mp copy with old | new
          · exact old
          · exact absurd (mem_broadcast new) told
        cases i with
        | zero =>
          cases here
          refine ⟨_, present, sameDynamic ▸ dynamic, sameId.symm, ?_⟩
          rcases claims with ⟨mine, heard⟩ | copy
          · exact Or.inl ⟨address.symm.trans mine, heard⟩
          · have old := promised copy
            rw [sameId] at old
            exact Or.inr old
        | succ i => exact ⟨n, here, dynamic, rfl, claims.imp_right promised⟩
      obtain ⟨n₀, there, dynamic₀, id, claims₀⟩ := before
      obtain ⟨isDynamic, key⟩ := healed.lines there dynamic₀ claims₀ proper
      rw [id] at key
      rcases keys_turn synced queue taken key with still | ⟨line, givesUp, lost⟩
      · exact ⟨isDynamic, still⟩
      · simp only [AddressLine.key, Prod.mk.injEq] at lost
        refine absurd ?_ (kept line givesUp)
        rw [lost.1, lost.2.2]
        refine ⟨i, n₀, there, dynamic₀, id, ?_⟩
        rcases claims₀ with ⟨mine, _⟩ | copy
        · exact Or.inl mine
        · rw [id] at copy
          exact Or.inr copy

theorem stimulus (healed : Healed s) {now : ℚ} {e : Stimulus} {master : Master} (sound : Sound master)
    (local_ : Bus.Local (.stimulus now e)) (taken : StimulusCase s.m_bus.m_master now e master) :
    Healed ⟨{ s.m_bus with
      m_master := master
      m_copies := s.m_bus.m_copies ++ broadcast s.m_bus.nodes.length (sentBy master.m_out) }, s.unheard⟩ := by
  have own := healed.dataOnly s.m_bus.m_master.m_node List.mem_cons_self
  obtain ⟨same, dataOnly, keys, silent⟩ := Bus.stimulus_frame local_ taken own
  obtain ⟨identities, address⟩ := Prod.mk.inj same
  have present : s.m_bus.nodes[0]? = some s.m_bus.m_master.m_node := rfl
  refine healed.of_set sound present rfl identities (fun _ heard => Or.inr (Or.inl ⟨heard, address⟩))
    (fun _ _ heard => heard) dataOnly ?_ keys
  intro c member
  rw [silent] at member
  exact Or.inl (by simpa [broadcast] using member)

theorem busStep (healed : Healed s) {move : LossyBus.Move} {b : LossyBus} (careful : s.m_bus.Careful move)
    (step : LossyBus.Step s.m_bus move b) : Healed ⟨b, stillUnheard s.unheard move⟩ := by
  obtain ⟨cfg, own, uninitialised, now, _, _, reach⟩ := healed.sound
  have synced := reach.synced
  cases step with
  | @receive bb now stack master copy received =>
    rcases synced.step_cases received with ⟨_, _, turn, _⟩ | ⟨_, _, label, _, _, _, taken⟩
    · cases turn
    · cases label
      cases taken with
      | @packet _ _ node effects run =>
        have present : s.m_bus.nodes[0]? = some s.m_bus.m_master.m_node := rfl
        refine healed.hear (healed.sound.step careful.1 received) present copy ⟨stack, effects, run, rfl⟩ rfl ?_
          (fun _ heard => Or.inl heard) rfl
        dsimp only
        rw [sentBy_outward]
  | master local_ moved =>
    have sound := healed.sound.step careful.1 moved
    rcases synced.step_cases moved with ⟨_, _, rfl, queue, taken⟩ | ⟨_, _, rfl, _, _, _, taken⟩
    · exact healed.turn synced sound queue taken careful.2
    · exact healed.stimulus sound local_ taken
  | @hear i bb n n' sent client copy hears =>
    have present : s.m_bus.nodes[i + 1]? = some n := client
    refine healed.hear healed.sound present copy hears rfl rfl ?_ rfl
    intro j heard
    simp only [stillUnheard] at heard
    split at heard
    · rename_i start
      by_cases here : j = i + 1
      · exact Or.inr ⟨here, start⟩
      · left
        intro before
        exact heard (List.mem_filter.mpr ⟨before, decide_eq_true here⟩)
    · exact Or.inl heard
  | @lose i bb copy =>
    have present : s.m_bus.nodes[0]? = some s.m_bus.m_master.m_node := rfl
    refine healed.of_set healed.sound present rfl rfl (fun _ heard => Or.inr (Or.inl ⟨heard, rfl⟩))
      (fun _ _ heard => heard) (healed.dataOnly _ List.mem_cons_self) ?_ rfl
    intro c member
    exact Or.inl (List.mem_of_mem_erase member)
  | @submit i n q client submits =>
    have present : s.m_bus.nodes[i + 1]? = some n := client
    have dataOnly := healed.dataOnly n (List.mem_of_getElem? present)
    have address : { n with m_txQueue := q }.address = n.address := by
      simp only [PacketTypeCodec.address, TxQueue.clientAddress, submits.ownAddress]
    refine healed.of_set healed.sound present rfl ?_ (fun _ heard => Or.inr (Or.inl ⟨heard, address⟩))
      (fun _ _ heard => heard) (submits.dataOnly dataOnly) (fun c member => Or.inl member) rfl
    simp only [Bus.identity, dynamic, submits.ownAddress]

theorem restartMaster (healed : Healed s) {cfg : Config} {own : PacketTypeCodec} {uninitialised : Nat → UniqueId}
    {now : ℚ} {master : Master} (separate : cfg.Separate) (clock : 1 ≤ now) (fresh : Fresh own)
    (newId : own.m_uniqueId ∉ s.m_bus.m_clients.map (·.m_uniqueId))
    (constructed : Master.start cfg own uninitialised now = .ok master)
    (noReplies : ∀ c ∈ s.m_bus.m_copies, kind c.2 ≠ some .address_reply) :
    Healed ⟨{ s.m_bus with m_master := master }, (List.range s.m_bus.m_clients.length).map Nat.succ⟩ := by
  have sound : Sound master := ⟨cfg, own, uninitialised, now, separate, clock, master, constructed, .start⟩
  rw [start_eq] at constructed
  cases constructed
  refine ⟨sound, ?_, ?_, healed.carried, ?_⟩
  · exact List.nodup_cons.mpr ⟨newId, (List.nodup_cons.mp healed.ids).2⟩
  · intro n member
    rcases List.mem_cons.mp member with rfl | client
    · intro msg waiting
      have empty : (started cfg own uninitialised now).m_node.m_txQueue.m_txMsg = [] := fresh.1
      rw [empty] at waiting
      cases waiting
    · exact healed.dataOnly n (List.mem_cons_of_mem _ client)
  · intro i n d here dynamic claims proper
    rcases claims with ⟨mine, heard⟩ | copy
    · cases i with
      | zero =>
        cases here
        exact absurd (mine.symm.trans (fresh.2 dynamic)) proper
      | succ i =>
        obtain ⟨inside, _⟩ := List.getElem?_eq_some_iff.mp (show s.m_bus.m_clients[i]? = some n from here)
        exact absurd (List.mem_map_of_mem (f := Nat.succ) (List.mem_range.mpr inside)) heard
    · exact absurd rfl (noReplies _ copy)

theorem restartClient (healed : Healed s) {i : Nat} {n n' : PacketTypeCodec} (client : s.m_bus.m_clients[i]? = some n)
    (fresh : Fresh n') (newId : n'.m_uniqueId ∉ s.m_bus.nodes.map (·.m_uniqueId))
    (noReply : ∀ d, (i + 1, Bus.reply d n'.m_uniqueId) ∉ s.m_bus.m_copies) :
    Healed ⟨{ s.m_bus with m_clients := s.m_bus.m_clients.set i n' }, s.unheard.filter (· ≠ i + 1)⟩ := by
  refine ⟨healed.sound, ?_, ?_, healed.carried, ?_⟩
  · have ids := List.Nodup.set (n := i + 1) healed.ids newId
    rw [← List.map_set] at ids
    exact ids
  · intro n₁ member
    rcases List.mem_cons.mp member with rfl | among
    · exact healed.dataOnly _ List.mem_cons_self
    · rcases List.mem_or_eq_of_mem_set among with old | rfl
      · exact healed.dataOnly n₁ (List.mem_cons_of_mem _ old)
      · intro msg waiting
        rw [fresh.1] at waiting
        cases waiting
  · intro j n₁ d at_ dynamic claims proper
    have nodes : (s.m_bus.nodes.set (i + 1) n')[j]? = some n₁ := at_
    by_cases here : i + 1 = j
    · rw [← here] at nodes claims
      rw [List.getElem?_set_self (List.getElem?_eq_some_iff.mp (show s.m_bus.nodes[i + 1]? = some n from client)).1]
        at nodes
      cases nodes
      rcases claims with ⟨mine, _⟩ | copy
      · exact absurd (mine.symm.trans (fresh.2 dynamic)) proper
      · exact absurd copy (noReply d)
    · rw [List.getElem?_set_ne here] at nodes
      refine healed.lines nodes dynamic (claims.imp_left ?_) proper
      rintro ⟨mine, heard⟩
      refine ⟨mine, fun before => heard ?_⟩
      exact List.mem_filter.mpr ⟨before, decide_eq_true (Ne.symm here)⟩

theorem step (healed : Healed s) {move : Move} (careful : s.Careful move) (step : Step s move s') : Healed s' := by
  cases step with
  | bus moved => exact healed.busStep careful moved
  | restartMaster separate clock fresh newId constructed noReplies =>
    exact healed.restartMaster separate clock fresh newId constructed noReplies
  | restartClient client fresh newId noReply => exact healed.restartClient client fresh newId noReply

theorem atStart {cfg : Config} {uninitialised : Nat → UniqueId} {own : PacketTypeCodec}
    {clients : List PacketTypeCodec} {now : ℚ} {m₀ : Master} (separate : cfg.Separate) (clock : 1 ≤ now)
    (setup : Setup (own :: clients)) (constructed : Master.start cfg own uninitialised now = .ok m₀) :
    Healed ⟨⟨m₀, clients, []⟩, []⟩ := by
  have sound : Sound m₀ := ⟨cfg, own, uninitialised, now, separate, clock, m₀, constructed, .start⟩
  have agreed := agreed_of_run setup constructed .start
  refine ⟨sound, agreed.ids, agreed.dataOnly, agreed.carried, ?_⟩
  intro i n d here dynamic claims proper
  refine agreed.lines ⟨i, n, here, dynamic, rfl, ?_⟩ proper
  exact claims.imp_left And.left

end Healed

/-! A client joins, and joins again -/

/-- A step as a function. Only the master of the sample is restarted. -/
def exec (s : RestartBus) : Move → Option RestartBus
  | .bus move => (s.m_bus.exec move).map fun b => ⟨b, stillUnheard s.unheard move⟩
  | .restartMaster =>
    if sampleNode.m_uniqueId ∉ s.m_bus.m_clients.map (·.m_uniqueId) ∧
        ∀ c ∈ s.m_bus.m_copies, kind c.2 ≠ some .address_reply then
      some ⟨{ s.m_bus with m_master := sampleNet.m_master }, (List.range s.m_bus.m_clients.length).map Nat.succ⟩
    else none
  | .restartClient _ => none

theorem exec_step {s s' : RestartBus} {move : Move} (run : s.exec move = some s') : Step s move s' := by
  cases move with
  | bus move =>
    obtain ⟨b, moved, rfl⟩ := Option.map_eq_some_iff.mp run
    exact .bus (LossyBus.exec_step moved)
  | restartMaster =>
    simp only [exec] at run
    split at run
    · rename_i free
      cases Option.some.inj run
      exact .restartMaster Config.separate_default (by norm_num) ⟨rfl, by decide⟩ free.1 (start_eq _ _ _ _) free.2
    · cases run
  | restartClient => cases run

def plainlyCareful (s : RestartBus) : Move → Bool
  | .bus move => LossyBus.plainlyCareful s.m_bus move
  | _ => true

theorem run_of_script (script : List Move) (P : RestartBus → Bool)
    (run : (LabelledReach.follow (fun s move => if plainlyCareful s move = true then exec s move else none)
      ⟨sampleNet, []⟩ script).any P = true) : ∃ s, LabelledReach Step Careful ⟨sampleNet, []⟩ s ∧ P s = true := by
  refine LabelledReach.exists_of_script exec (fun s move => plainlyCareful s move = true) ?_ exec_step _ script P run
  intro s move plain
  cases move with
  | bus move => exact careful_of_plainly s.m_bus move plain
  | _ => trivial

/-- Restarts do no lasting harm. However often the master and the clients are restarted, with
ids that are not in use, a dynamic node that has heard that the present master has started, or has been restarted since,
has an address only if the master has a line of its own for it and polls it, and shares it
with no such node. -/
theorem restarts_heal (cfg : Config) (separate : cfg.Separate) (uninitialised : Nat → UniqueId) (own : PacketTypeCodec)
    (clients : List PacketTypeCodec) (setup : Setup (own :: clients)) (now : ℚ) (clock : 1 ≤ now) (m₀ : Master)
    (constructed : Master.start cfg own uninitialised now = .ok m₀) (s : RestartBus)
    (run : LabelledReach Step Careful ⟨⟨m₀, clients, []⟩, []⟩ s) :
    (∀ i n, s.m_bus.nodes[i]? = some n → n.dynamic = true → n.address ≠ LocalAddress.null_addr → i ∉ s.unheard →
      (∃ line ∈ s.m_bus.m_master.m_dynamicHandler.m_table,
        line.m_address = n.address ∧ line.m_uniqueId = n.m_uniqueId) ∧ s.m_bus.m_master.Polled n.address) ∧
    ∀ i j n n', s.m_bus.nodes[i]? = some n → s.m_bus.nodes[j]? = some n' → n.dynamic = true → n'.dynamic = true →
      i ∉ s.unheard → j ∉ s.unheard → n.address ≠ LocalAddress.null_addr → n.address = n'.address → i = j := by
  have healed : Healed s := run.invariant (Healed.atStart separate clock setup constructed)
    fun healed careful step => healed.step careful step
  obtain ⟨cfg', own', uninitialised', now', separate', clock', reach⟩ := healed.sound
  have key : ∀ {i n}, s.m_bus.nodes[i]? = some n → n.dynamic = true → n.address ≠ LocalAddress.null_addr →
      i ∉ s.unheard → ∃ isDynamic, (n.address, isDynamic, n.m_uniqueId) ∈ s.m_bus.m_master.m_dynamicHandler.keys :=
    fun here dynamic proper heard => healed.lines here dynamic (Or.inl ⟨rfl, heard⟩) proper
  refine ⟨?_, ?_⟩
  · intro i n here dynamic proper heard
    obtain ⟨_, inTable⟩ := key here dynamic proper heard
    obtain ⟨line, inside, same⟩ := List.mem_map.mp inTable
    simp only [AddressLine.key, Prod.mk.injEq] at same
    refine ⟨⟨line, inside, same.1, same.2.2⟩, reach.polled (fun _ _ kept => kept) separate' clock' ?_⟩
    rw [lines, ← same.1]
    exact List.mem_map_of_mem (f := (·.m_address)) inside
  · intro i j n n' here there dynamic dynamic' heard heard' proper same
    obtain ⟨_, inTable⟩ := key here dynamic proper heard
    obtain ⟨_, inTable'⟩ := key there dynamic' (same ▸ proper) heard'
    rw [← same] at inTable'
    have sameId := reach.oneToken.uniqueId_of_key separate' inTable inTable'
    have nodup := healed.ids
    refine (List.getElem?_inj ?_ nodup).mp ?_
    · rw [List.length_map]
      exact (List.getElem?_eq_some_iff.mp here).1
    · rw [List.getElem?_map, List.getElem?_map, here, there, Option.map_some, Option.map_some, sameId]

/-- The client that has got its address from one master gets it again from the next. -/
theorem restarts_heal_rejoined :
    ∃ s, LabelledReach Step Careful ⟨sampleNet, []⟩ s ∧ (s.m_bus.nodes[1]?.map address) = some 33 ∧
      s.m_bus.m_master.Polled 33 := by
  obtain ⟨s, run, shown⟩ := run_of_script (joinScript.map .bus ++ [.restartMaster] ++ joinScript.map .bus)
    (fun s => 1 ∉ s.unheard ∧ ∃ n ∈ s.m_bus.nodes[1]?, n.dynamic = true ∧ n.address = 33) (by decide +kernel)
  obtain ⟨heard, n, here, dynamic, address⟩ := of_decide_eq_true shown
  have healed := restarts_heal {} Config.separate_default (fun _ => Bus.unsetId) sampleNode sampleNet.m_clients
    ⟨by decide, by decide⟩ 1000 (by norm_num) sampleNet.m_master (start_eq _ _ _ _) s run
  have polled := (healed.1 1 n here dynamic (by rw [address]; decide) heard).2
  rw [address] at polled
  refine ⟨s, run, ?_, polled⟩
  rw [Option.mem_def.mp here, Option.map_some, address]

/-- Until it hears of the new master, it goes on with an address that nobody polls. -/
theorem unheard_client_keeps_address :
    ∃ s, LabelledReach Step Careful ⟨sampleNet, []⟩ s ∧ ∃ n ∈ s.m_bus.nodes[1]?, n.dynamic = true ∧ n.address = 33 ∧
      ∀ line ∈ s.m_bus.m_master.m_dynamicHandler.m_table, line.m_address ≠ n.address := by
  obtain ⟨s, run, shown⟩ := run_of_script (joinScript.map .bus ++ [.restartMaster])
    (fun s => ∃ n ∈ s.m_bus.nodes[1]?, n.dynamic = true ∧ n.address = 33 ∧
      ∀ line ∈ s.m_bus.m_master.m_dynamicHandler.m_table, line.m_address ≠ n.address) (by decide +kernel)
  exact ⟨s, run, of_decide_eq_true shown⟩

end RestartBus

end SerialNet
