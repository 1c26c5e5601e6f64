import SerialNet.Bus.Network

namespace SerialNet

open PacketTypeCodec

/-- What identifies a line of the address table: its address, whether it is dynamic,
and the id it is kept for. -/
abbrev LineKey := LocalAddress × Bool × UniqueId

def AddressLine.key (l : AddressLine) : LineKey := (l.m_address, l.m_isDynamic, l.m_uniqueId)

@[simp] theorem AddressLine.setState_key (l : AddressLine) (st : State) : (l.setState st).key = l.key := rfl

def DynamicHandler.keys (dh : DynamicHandler) : List LineKey := dh.m_table.map (·.key)

/-- A line belongs to one id. -/
theorem Master.OneToken.uniqueId_of_key {cfg : Config} {m : Master} (one : Master.OneToken cfg m)
    (separate : cfg.Separate) {d : LocalAddress} {b b' : Bool} {u u' : UniqueId}
    (key : (d, b, u) ∈ m.m_dynamicHandler.keys) (key' : (d, b', u') ∈ m.m_dynamicHandler.keys) : u = u' := by
  obtain ⟨line, member, same⟩ := List.mem_map.mp key
  obtain ⟨line', member', same'⟩ := List.mem_map.mp key'
  simp only [AddressLine.key, Prod.mk.injEq] at same same'
  have equal := List.inj_on_of_nodup_map (one.nodup_lines separate) member member' (same.1.trans same'.1.symm)
  rw [← same.2.2, ← same'.2.2, equal]

/-- The table keeps its lines, unless a dynamic one has missed its fourth token in a
row. -/
theorem Master.Settles.keys {dh dh' : DynamicHandler} {now : ℚ} {addr : LocalAddress} {rv : ReturnValue}
    {again : Option ℚ} (settles : Master.Settles dh now addr rv dh' again) :
    dh'.keys = dh.keys ∨ rv = .token_timeout ∧ ∃ before line after, dh.m_table = before ++ line :: after ∧
      line.m_address = addr ∧ line.m_isDynamic = true ∧ 3 ≤ line.m_badCount ∧
      dh'.m_table = before ++ after := by
  cases settles with
  | started => exact Or.inl rfl
  | queried => exact Or.inl rfl
  | @evicted rv newState before line after state table address _ removed _ =>
    obtain ⟨isDynamic, free⟩ := of_decide_eq_true removed
    have timeout : rv = .token_timeout ∧ newState = .badClient := by
      cases rv <;> cases state <;> first | exact ⟨rfl, rfl⟩ | cases free
    have missed : 3 ≤ line.m_badCount := by
      by_contra few
      have count : ¬ line.m_badCount + 1 > 3 := by omega
      rw [timeout.2] at free
      simp only [AddressLine.setState, if_true, if_neg count] at free
      cases free
    exact Or.inr ⟨timeout.1, before, line, after, table, address, isDynamic, missed, rfl⟩
  | kept _ table _ _ _ _ =>
    left
    simp only [DynamicHandler.keys, table, List.map_append, List.map_cons, AddressLine.setState_key]

namespace Bus

/-- The master tells the owner of an id its address. -/
def reply (d : LocalAddress) (u : UniqueId) : ByteVec := packet.AddressReply.fromHeader ⟨d, u⟩

/-- The address table of the master, the addresses of the nodes and the packets on
the wire fit together. -/
structure Agreement (keys : List LineKey) (nodes : List PacketTypeCodec) (wire : List ByteVec) : Prop where
  ids : nodes.Pairwise fun n n' => n.m_uniqueId ≠ n'.m_uniqueId
  holds : ∀ n ∈ nodes, n.dynamic = true →
    n.address = LocalAddress.null_addr ∨ (n.address, true, n.m_uniqueId) ∈ keys
  served : ∀ {d u}, (d, true, u) ∈ keys →
    ∃ n ∈ nodes, n.m_uniqueId = u ∧ n.dynamic = true ∧ (n.address = d ∨ reply d u ∈ wire)
  once : ∀ {d d' u}, (d, true, u) ∈ keys → (d', true, u) ∈ keys → d = d'
  unset : ∀ {d u}, (d, false, u) ∈ keys → ∀ n ∈ nodes, n.m_uniqueId ≠ u
  replies : ∀ {d u}, reply d u ∈ wire → (d, true, u) ∈ keys
  requests : ∀ {r : packet.AddressRequest}, r.fromHeader ∈ wire →
    ∃ n ∈ nodes, n.m_uniqueId = r.m_uniqueId ∧ n.dynamic = true

/-- The packets that occur on the wire. -/
inductive Carried : ByteVec → Prop
  | grant (a : LocalAddress) : Carried (packet.GrantToken.fromHeader ⟨a⟩)
  | response {bb} : isResponse bb = true → Carried bb
  | started : Carried packet.masterStarted
  | discovery {bb} : kind bb = some .address_discovery → Carried bb
  | request (r : packet.AddressRequest) : Carried r.fromHeader
  | reply (d : LocalAddress) (u : UniqueId) : Carried (reply d u)

theorem kind_isResponse {bb : ByteVec} (response : isResponse bb = true) :
    kind bb ≠ some .grant_token ∧ kind bb ≠ some .address_reply ∧ kind bb ≠ some .address_request ∧
      kind bb ≠ some .master_started ∧ kind bb ≠ some .address_discovery := by
  obtain ⟨_, type⟩ := of_decide_eq_true response
  rcases type with type | type | type <;> simp [type]

/-- What a node sends, it sends for its own part. -/
theorem Carried.of_hears {bb : ByteVec} {n n' : PacketTypeCodec} {sent : List ByteVec} (hears : Hears bb n n' sent)
    (dataOnly : DataOnly n.m_txQueue) {x : ByteVec} (member : x ∈ sent) :
    Carried x ∧ kind x ≠ some .address_reply ∧ kind x ≠ some .master_started := by
  rcases hears.sends dataOnly member with response | ⟨_, r, _, rfl⟩
  · obtain ⟨_, noReply, _, noStart, _⟩ := kind_isResponse response
    exact ⟨.response response, noReply, noStart⟩
  · exact ⟨.request r, by simp, by simp⟩

/-- What a packet does to the address of a node. -/
theorem address_cases {bb : ByteVec} {n n' : PacketTypeCodec} {sent : List ByteVec} (carried : Carried bb)
    (hears : Hears bb n n' sent) :
    n'.address = n.address ∨ n.dynamic = true ∧ n'.address = LocalAddress.null_addr ∨
      bb = reply n'.address n.m_uniqueId := by
  rcases hears.address_cases with same | forgotten | ⟨type, p, header, mine, told⟩
  · exact Or.inl same
  · exact Or.inr (Or.inl forgotten)
  · right
    right
    cases carried with
    | response response => exact absurd type (kind_isResponse response).2.1
    | discovery other => rw [type] at other; cases other
    | reply d u =>
      rw [reply, packet.AddressReply.toHeader_fromHeader] at header
      cases header
      rw [told, ← mine]
    | _ => cases type

namespace HearAll

variable {bb : ByteVec} {ns ns' : List PacketTypeCodec} {sent : List ByteVec}

theorem exists_before (hear : HearAll bb ns ns' sent) {n' : PacketTypeCodec} (member : n' ∈ ns') :
    ∃ n ∈ ns, ∃ s, Hears bb n n' s := by
  induction hear with
  | nil => cases member
  | cons first _ ih =>
    rcases List.mem_cons.mp member with rfl | later
    · exact ⟨_, List.mem_cons_self, _, first⟩
    · obtain ⟨n, inside, found⟩ := ih later
      exact ⟨n, List.mem_cons_of_mem _ inside, found⟩

theorem exists_after (hear : HearAll bb ns ns' sent) {n : PacketTypeCodec} (member : n ∈ ns) :
    ∃ n' ∈ ns', ∃ s, Hears bb n n' s := by
  induction hear with
  | nil => cases member
  | cons first _ ih =>
    rcases List.mem_cons.mp member with rfl | later
    · exact ⟨_, List.mem_cons_self, _, first⟩
    · obtain ⟨n', inside, found⟩ := ih later
      exact ⟨n', List.mem_cons_of_mem _ inside, found⟩

theorem exists_sender (hear : HearAll bb ns ns' sent) {x : ByteVec} (member : x ∈ sent) :
    ∃ n ∈ ns, ∃ n' s, Hears bb n n' s ∧ x ∈ s := by
  induction hear with
  | nil => cases member
  | cons first _ ih =>
    rcases List.mem_append.mp member with now | later
    · exact ⟨_, List.mem_cons_self, _, _, first, now⟩
    · obtain ⟨n, inside, found⟩ := ih later
      exact ⟨n, List.mem_cons_of_mem _ inside, found⟩

theorem map_eq {α : Type} {f : PacketTypeCodec → α} (hear : HearAll bb ns ns' sent)
    (same : ∀ n ∈ ns, ∀ n' s, Hears bb n n' s → f n' = f n) : ns'.map f = ns.map f := by
  induction hear with
  | nil => rfl
  | cons first _ ih =>
    rw [List.map_cons, List.map_cons, same _ List.mem_cons_self _ _ first,
      ih fun n member => same n (List.mem_cons_of_mem _ member)]

theorem carried (hear : HearAll bb ns ns' sent) (dataOnly : ∀ n ∈ ns, DataOnly n.m_txQueue) {x : ByteVec}
    (member : x ∈ sent) : Carried x ∧ kind x ≠ some .address_reply ∧ kind x ≠ some .master_started := by
  obtain ⟨n, found, n', s, hears, inside⟩ := hear.exists_sender member
  exact Carried.of_hears hears (dataOnly n found) inside

/-- A packet nobody answers. -/
theorem silent (hear : HearAll bb ns ns' sent) (quiet : ∀ n ∈ ns, ∀ n' s, Hears bb n n' s → s = []) :
    sent = [] := by
  induction hear with
  | nil => rfl
  | cons first _ ih =>
    rw [quiet _ List.mem_cons_self _ _ first, ih fun n member => quiet n (List.mem_cons_of_mem _ member)]
    rfl

/-- At most one node answers a token, because at most one holds its address. -/
theorem grant {a : LocalAddress} (hear : HearAll (packet.GrantToken.fromHeader ⟨a⟩) ns ns' sent)
    (dataOnly : ∀ n ∈ ns, DataOnly n.m_txQueue)
    (single : ns.Pairwise fun n n' => ¬ (n.address = a ∧ n'.address = a)) :
    (∃ r, sent = [r] ∧ isResponse r = true) ∨ (sent = [] ∧ ∀ n ∈ ns, n.address ≠ a) := by
  induction hear with
  | nil => exact Or.inr ⟨rfl, by rintro _ ⟨⟩⟩
  | @cons n n' ns ns' s later first rest ih =>
    obtain ⟨alone, others⟩ := List.pairwise_cons.mp single
    have first := first.grant (dataOnly n List.mem_cons_self)
    have behind := ih (fun n member => dataOnly n (List.mem_cons_of_mem _ member)) others
    by_cases mine : n.address = a
    · obtain ⟨r, answer, response⟩ := first.1 mine
      have none : later = [] := by
        refine rest.silent ?_
        intro n₂ member n₂' s₂ hears
        have apart := alone n₂ member
        exact (hears.grant (dataOnly n₂ (List.mem_cons_of_mem _ member))).2 fun same => apart ⟨mine, same⟩
      exact Or.inl ⟨r, by rw [answer, none]; rfl, response⟩
    · have none := first.2 mine
      rcases behind with ⟨r, answer, response⟩ | ⟨answer, nobody⟩
      · exact Or.inl ⟨r, by rw [none, answer]; rfl, response⟩
      · refine Or.inr ⟨by rw [none, answer]; rfl, ?_⟩
        intro n₂ member
        rcases List.mem_cons.mp member with rfl | there
        · exact mine
        · exact nobody n₂ there

end HearAll

/-- What never changes about a node. -/
def identity (n : PacketTypeCodec) : UniqueId × Bool := (n.m_uniqueId, n.dynamic)

theorem HearAll.identity {bb : ByteVec} {ns ns' : List PacketTypeCodec} {sent : List ByteVec}
    (hear : HearAll bb ns ns' sent) : ns'.map identity = ns.map identity :=
  hear.map_eq fun n _ n' s hears => by rw [Bus.identity, hears.uniqueId, hears.dynamic, Bus.identity]

/-- What the others can tell of a node. -/
def face (n : PacketTypeCodec) : (UniqueId × Bool) × LocalAddress := (identity n, n.address)

theorem exists_of_map_face {ns ns' : List PacketTypeCodec} (same : ns'.map face = ns.map face)
    {n : PacketTypeCodec} (member : n ∈ ns) :
    ∃ n' ∈ ns', n'.m_uniqueId = n.m_uniqueId ∧ n'.dynamic = n.dynamic ∧ n'.address = n.address := by
  have inside : face n ∈ ns.map face := List.mem_map_of_mem member
  rw [← same] at inside
  obtain ⟨n', found, equal⟩ := List.mem_map.mp inside
  simp only [face, identity, Prod.mk.injEq] at equal
  exact ⟨n', found, equal.1.1, equal.1.2, equal.2⟩

theorem reply_injective {d d' : LocalAddress} {u u' : UniqueId} (same : reply d u = reply d' u') :
    d = d' ∧ u = u' := by
  have headers := congrArg packet.AddressReply.toHeader same
  simp only [reply, packet.AddressReply.toHeader_fromHeader, Option.some.injEq, packet.AddressReply.mk.injEq]
    at headers
  exact headers

namespace Agreement

variable {keys : List LineKey} {ns ns' : List PacketTypeCodec} {wire wire' : List ByteVec}

/-- The nodes are the same as before, up to their addresses. -/
theorem of_identity (agreement : Agreement keys ns wire) (same : ns'.map identity = ns.map identity)
    (holds : ∀ n ∈ ns', n.dynamic = true →
      n.address = LocalAddress.null_addr ∨ (n.address, true, n.m_uniqueId) ∈ keys)
    (served : ∀ {d u}, (d, true, u) ∈ keys →
      ∃ n ∈ ns', n.m_uniqueId = u ∧ n.dynamic = true ∧ (n.address = d ∨ reply d u ∈ wire'))
    (replies : ∀ {d u}, reply d u ∈ wire' → (d, true, u) ∈ keys)
    (requests : ∀ {r : packet.AddressRequest}, r.fromHeader ∈ wire' →
      ∃ n ∈ ns, n.m_uniqueId = r.m_uniqueId ∧ n.dynamic = true) : Agreement keys ns' wire' := by
  refine ⟨?_, holds, served, agreement.once, ?_, replies, ?_⟩
  · have ids : (ns.map identity).Pairwise fun f f' => f.1 ≠ f'.1 := List.pairwise_map.mpr agreement.ids
    rw [← same, List.pairwise_map] at ids
    exact ids
  · intro d u key n' member
    have inside : identity n' ∈ ns'.map identity := List.mem_map_of_mem member
    rw [same] at inside
    obtain ⟨n, found, equal⟩ := List.mem_map.mp inside
    have id : n'.m_uniqueId = n.m_uniqueId := (congrArg Prod.fst equal).symm
    rw [id]
    exact agreement.unset key n found
  · intro r member
    obtain ⟨n, found, id, dynamic⟩ := requests member
    have inside : identity n ∈ ns.map identity := List.mem_map_of_mem found
    rw [← same] at inside
    obtain ⟨n', found', equal⟩ := List.mem_map.mp inside
    exact ⟨n', found', (congrArg Prod.fst equal).trans id, (congrArg Prod.snd equal).trans dynamic⟩

/-- A node has heard the address meant for it. -/
theorem hear_reply {d : LocalAddress} {u : UniqueId} {rest heard : List ByteVec}
    (agreement : Agreement keys ns (reply d u :: rest)) (hear : HearAll (reply d u) ns ns' heard) :
    Agreement keys ns' rest := by
  have key : (d, true, u) ∈ keys := agreement.replies List.mem_cons_self
  refine agreement.of_identity hear.identity ?_ ?_ ?_ ?_
  · intro n' member dynamic
    obtain ⟨n, found, s, hears⟩ := hear.exists_before member
    obtain ⟨mine, other⟩ := Hears.reply hears
    rw [hears.uniqueId]
    by_cases same : u = n.m_uniqueId
    · rw [mine same, ← same]
      exact Or.inr key
    · rw [other same]
      exact agreement.holds n found (hears.dynamic ▸ dynamic)
  · intro d' u' line
    obtain ⟨n, found, id, dynamic, served⟩ := agreement.served line
    obtain ⟨n', found', s, hears⟩ := hear.exists_after found
    obtain ⟨mine, other⟩ := Hears.reply hears
    refine ⟨n', found', hears.uniqueId.trans id, hears.dynamic.trans dynamic, ?_⟩
    by_cases same : u = n.m_uniqueId
    · have address : d' = d := agreement.once line (by rw [← id, ← same]; exact key)
      exact Or.inl (by rw [mine same, address])
    · rw [other same]
      rcases served with held | waiting
      · exact Or.inl held
      · rcases List.mem_cons.mp waiting with this | later
        · exact absurd ((reply_injective this).2.symm.trans id.symm) same
        · exact Or.inr later
  · intro d' u' member
    exact agreement.replies (List.mem_cons_of_mem _ member)
  · intro r member
    exact agreement.requests (List.mem_cons_of_mem _ member)

/-- The master has started. At that time it has no dynamic lines. -/
theorem hear_started {rest heard : List ByteVec} (agreement : Agreement keys ns (packet.masterStarted :: rest))
    (hear : HearAll packet.masterStarted ns ns' heard) (none : ∀ d u, (d, true, u) ∉ keys) :
    Agreement keys ns' rest := by
  refine agreement.of_identity hear.identity ?_ ?_ ?_ ?_
  · intro n' member dynamic
    obtain ⟨n, found, s, hears⟩ := hear.exists_before member
    rcases hears.started rfl with same | ⟨_, null⟩
    · rw [same, hears.uniqueId]
      exact agreement.holds n found (hears.dynamic ▸ dynamic)
    · exact Or.inl null
  · intro d u line
    exact absurd line (none d u)
  · intro d u member
    exact agreement.replies (List.mem_cons_of_mem _ member)
  · intro r member
    exact agreement.requests (List.mem_cons_of_mem _ member)

/-- Nodes and table stay as they are while other packets come and go. -/
theorem congr (agreement : Agreement keys ns wire) (same : ns'.map face = ns.map face)
    (replies : ∀ d u, reply d u ∈ wire' ↔ reply d u ∈ wire)
    (requests : ∀ {r : packet.AddressRequest}, r.fromHeader ∈ wire' →
      ∃ n ∈ ns, n.m_uniqueId = r.m_uniqueId ∧ n.dynamic = true) : Agreement keys ns' wire' := by
  have identities : ns'.map identity = ns.map identity := by
    have firsts := congrArg (List.map Prod.fst) same
    simpa only [List.map_map, face, Function.comp_def] using firsts
  refine agreement.of_identity identities ?_ ?_ ?_ requests
  · intro n' member dynamic
    obtain ⟨n, found, id, dynamic', address⟩ := exists_of_map_face same.symm member
    rw [← id, ← address]
    exact agreement.holds n found (dynamic'.trans dynamic)
  · intro d u line
    obtain ⟨n, found, id, dynamic, served⟩ := agreement.served line
    obtain ⟨n', found', id', dynamic', address⟩ := exists_of_map_face same found
    refine ⟨n', found', id'.trans id, dynamic'.trans dynamic, ?_⟩
    rw [address]
    exact served.imp_right (replies d u).mpr
  · intro d u member
    exact agreement.replies ((replies d u).mp member)

/-- A packet that is neither a reply nor the start of the master. -/
theorem hear_other {bb : ByteVec} {rest heard : List ByteVec} (agreement : Agreement keys ns (bb :: rest))
    (hear : HearAll bb ns ns' heard) (dataOnly : ∀ n ∈ ns, DataOnly n.m_txQueue)
    (static : ∀ n ∈ ns, n.dynamic = false → n.address ≠ LocalAddress.null_addr)
    (noReply : kind bb ≠ some .address_reply) (noStart : kind bb ≠ some .master_started) :
    Agreement keys ns' (rest ++ heard) := by
  have faces : ns'.map face = ns.map face := by
    refine hear.map_eq fun n _ n' s hears => ?_
    rw [face, identity, hears.uniqueId, hears.dynamic, hears.address_eq noReply noStart, face, identity]
  refine agreement.congr faces ?_ ?_
  · intro d u
    rw [List.mem_append, List.mem_cons]
    constructor
    · rintro (waiting | new)
      · exact Or.inr waiting
      · exact absurd rfl (hear.carried dataOnly new).2.1
    · rintro (same | waiting)
      · rw [← same] at noReply
        exact absurd rfl noReply
      · exact Or.inl waiting
  · intro r member
    rcases List.mem_append.mp member with waiting | new
    · exact agreement.requests (List.mem_cons_of_mem _ waiting)
    · obtain ⟨n, found, n', s, hears, inside⟩ := hear.exists_sender new
      rcases hears.sends (dataOnly n found) inside with response | ⟨null, r', id, request⟩
      · exact absurd rfl (kind_isResponse response).2.2.1
      · have headers := congrArg packet.AddressRequest.toHeader request
        rw [packet.AddressRequest.toHeader_fromHeader, packet.AddressRequest.toHeader_fromHeader] at headers
        cases Option.some.inj headers
        refine ⟨n, found, id.symm, ?_⟩
        by_contra notDynamic
        exact static n found (Bool.eq_false_iff.mpr notDynamic) null

/-- Any packet that occurs on the wire. -/
theorem hear {bb : ByteVec} {rest heard sent : List ByteVec} (agreement : Agreement keys ns (bb :: rest))
    (carried : Carried bb) (hear : HearAll bb ns ns' heard) (dataOnly : ∀ n ∈ ns, DataOnly n.m_txQueue)
    (static : ∀ n ∈ ns, n.dynamic = false → n.address ≠ LocalAddress.null_addr)
    (none : bb = packet.masterStarted → ∀ d u, (d, true, u) ∉ keys) (perm : sent.Perm heard) :
    Agreement keys ns' (rest ++ sent) := by
  have unanswered : ∀ {ns₁ : List PacketTypeCodec}, kind bb ≠ some .grant_token →
      kind bb ≠ some .address_discovery → Agreement keys ns₁ rest → Agreement keys ns₁ (rest ++ sent) := by
    intro ns₁ noGrant noDiscovery agreement₁
    have nothing := hear.silent fun n _ n' s hears => hears.silent noGrant noDiscovery
    rw [nothing, List.perm_nil] at perm
    rw [perm, List.append_nil]
    exact agreement₁
  have others : Agreement keys ns' (rest ++ heard) → Agreement keys ns' (rest ++ sent) := by
    intro agreement₁
    refine agreement₁.congr rfl ?_ ?_
    · intro d u
      rw [List.mem_append, List.mem_append, perm.mem_iff]
    · intro r member
      rw [List.mem_append, perm.mem_iff, ← List.mem_append] at member
      exact agreement₁.requests member
  cases carried with
  | grant a => exact others (agreement.hear_other hear dataOnly static (by simp) (by simp))
  | response response =>
    obtain ⟨_, noReply, _, noStart, _⟩ := kind_isResponse response
    exact others (agreement.hear_other hear dataOnly static noReply noStart)
  | started => exact unanswered (by simp) (by simp) (agreement.hear_started hear (none rfl))
  | discovery type =>
    exact others (agreement.hear_other hear dataOnly static (by simp [type]) (by simp [type]))
  | request r => exact others (agreement.hear_other hear dataOnly static (by simp) (by simp))
  | reply d u => exact unanswered (by rintro ⟨⟩) (by rintro ⟨⟩) (agreement.hear_reply hear)

theorem eq_of_uniqueId (agreement : Agreement keys ns wire) {n n' : PacketTypeCodec} (member : n ∈ ns)
    (member' : n' ∈ ns) (same : n.m_uniqueId = n'.m_uniqueId) : n = n' := by
  have ids : (ns.map (·.m_uniqueId)).Nodup := List.pairwise_map.mpr agreement.ids
  exact List.inj_on_of_nodup_map ids member member' same

/-- The packets the master sends on its own account. -/
theorem send (agreement : Agreement keys ns wire) {sent : List ByteVec}
    (plain : ∀ x ∈ sent, kind x ≠ some .address_reply ∧ kind x ≠ some .address_request) :
    Agreement keys ns (wire ++ sent) := by
  refine agreement.congr rfl ?_ ?_
  · intro d u
    rw [List.mem_append]
    constructor
    · rintro (waiting | new)
      · exact waiting
      · exact absurd rfl (plain _ new).1
    · exact Or.inl
  · intro r member
    rcases List.mem_append.mp member with waiting | new
    · exact agreement.requests waiting
    · exact absurd rfl (plain _ new).2

/-- A reply on the wire is no request. -/
theorem request_of_mem_reply {r : packet.AddressRequest} {d : LocalAddress} {u : UniqueId}
    (member : r.fromHeader ∈ wire ++ [reply d u]) : r.fromHeader ∈ wire := by
  rcases List.mem_append.mp member with waiting | new
  · exact waiting
  · have types := congrArg kind (List.mem_singleton.mp new)
    rw [reply, kind_addressReply, kind_addressRequest] at types
    cases types

/-- The master tells a node the address it has a line for. -/
theorem answer (agreement : Agreement keys ns wire) {d : LocalAddress} {u : UniqueId}
    (key : (d, true, u) ∈ keys) : Agreement keys ns (wire ++ [reply d u]) := by
  refine ⟨agreement.ids, agreement.holds, ?_, agreement.once, agreement.unset, ?_, ?_⟩
  · intro d' u' line
    obtain ⟨n, found, id, dynamic, served⟩ := agreement.served line
    exact ⟨n, found, id, dynamic, served.imp_right (List.mem_append_left _)⟩
  · intro d' u' member
    rcases List.mem_append.mp member with waiting | new
    · exact agreement.replies waiting
    · obtain ⟨rfl, rfl⟩ := reply_injective (List.mem_singleton.mp new)
      exact key
  · intro r member
    exact agreement.requests (request_of_mem_reply member)

/-- A dynamic node gets a line. -/
theorem join (agreement : Agreement keys ns wire) {d : LocalAddress} {n : PacketTypeCodec} (found : n ∈ ns)
    (dynamic : n.dynamic = true) (unknown : ∀ k ∈ keys, k.2.2 ≠ n.m_uniqueId) :
    Agreement (keys ++ [(d, true, n.m_uniqueId)]) ns (wire ++ [reply d n.m_uniqueId]) := by
  have old : ∀ {k : LineKey}, k ∈ keys ++ [(d, true, n.m_uniqueId)] → k.2.2 ≠ n.m_uniqueId → k ∈ keys := by
    intro k member other
    rcases List.mem_append.mp member with before | new
    · exact before
    · rw [List.mem_singleton.mp new] at other
      exact absurd rfl other
  have added : ∀ {d' : LocalAddress}, (d', true, n.m_uniqueId) ∈ keys ++ [(d, true, n.m_uniqueId)] → d' = d := by
    intro d' member
    rcases List.mem_append.mp member with before | new
    · exact absurd rfl (unknown _ before)
    · exact congrArg Prod.fst (List.mem_singleton.mp new)
  refine ⟨agreement.ids, ?_, ?_, ?_, ?_, ?_, ?_⟩
  · intro n' member dynamic'
    exact (agreement.holds n' member dynamic').imp_right (List.mem_append_left _)
  · intro d' u' line
    by_cases mine : u' = n.m_uniqueId
    · subst mine
      rw [added line]
      exact ⟨n, found, rfl, dynamic, Or.inr (List.mem_append_right _ (List.mem_singleton_self _))⟩
    · obtain ⟨n', found', id, dynamic', served⟩ := agreement.served (old line mine)
      exact ⟨n', found', id, dynamic', served.imp_right (List.mem_append_left _)⟩
  · intro d₁ d₂ u' line₁ line₂
    by_cases mine : u' = n.m_uniqueId
    · subst mine
      rw [added line₁, added line₂]
    · exact agreement.once (old line₁ mine) (old line₂ mine)
  · intro d' u' line n' member
    rcases List.mem_append.mp line with before | new
    · exact agreement.unset before n' member
    · cases List.mem_singleton.mp new
  · intro d' u' member
    rcases List.mem_append.mp member with waiting | new
    · exact List.mem_append_left _ (agreement.replies waiting)
    · obtain ⟨rfl, rfl⟩ := reply_injective (List.mem_singleton.mp new)
      exact List.mem_append_right _ (List.mem_singleton_self _)
  · intro r member
    exact agreement.requests (request_of_mem_reply member)

end Agreement

end Bus

end SerialNet
