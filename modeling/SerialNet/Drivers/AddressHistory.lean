import SerialNet.Drivers.MacLearning

namespace SerialNet.AddressCache

open Association

/-- The calls that change a cache. -/
inductive Call
  | setAddress (local_ : LocalAddress) (mac : MacAddr)
  | updateMyMAC (local_ : LocalAddress) (mac : MacAddr)

def call (c : AddressCache) : Call → AddressCache
  | .setAddress l m => c.setAddress l m
  | .updateMyMAC l m => c.updateMyMAC l m

/-- The cache after a history of calls. -/
def after (m_myMac : MacAddr) (calls : List Call) : AddressCache := calls.foldl call (initial m_myMac)

theorem after_concat (m_myMac : MacAddr) (calls : List Call) (next : Call) :
    after m_myMac (calls ++ [next]) = (after m_myMac calls).call next := by
  rw [after, List.foldl_append, ← after]
  rfl

/-! What the cache is for: it remembers the last MAC address of every local address -/

/-- The MAC addresses that a local address has been given, in order. -/
def given (l : LocalAddress) (calls : List Call) : List MacAddr :=
  calls.filterMap fun
    | .setAddress l' m => if l' = l then some m else none
    | .updateMyMAC _ _ => none

def lastGiven (l : LocalAddress) (calls : List Call) : Option MacAddr := (given l calls).getLast?

theorem lastGiven_setAddress (l : LocalAddress) (calls : List Call) (l' : LocalAddress) (m : MacAddr) :
    lastGiven l (calls ++ [.setAddress l' m]) = if l' = l then some m else lastGiven l calls := by
  rw [lastGiven, given, List.filterMap_append]
  by_cases same : l' = l
  · simp [same]
  · simp [same, lastGiven, given]

theorem lastGiven_updateMyMAC (l : LocalAddress) (calls : List Call) (l' : LocalAddress) (m : MacAddr) :
    lastGiven l (calls ++ [.updateMyMAC l' m]) = lastGiven l calls := by
  rw [lastGiven, given, List.filterMap_append]
  simp [lastGiven, given]

/-! The table stands for that map -/

section Table

variable {c : AddressCache} {l : LocalAddress} {m : MacAddr}

theorem getMac_eq (proper : l ≠ LocalAddress.broadcast) :
    c.getMac l = match valueOf c.m_table l with
      | some m => (true, m)
      | none => (false, illegalMac) := by
  rw [getMac, if_neg proper, valueOf]
  cases c.m_table.find? (fun el => l = el.1) with
  | none => rfl
  | some el => rfl

/-- The lookup by MAC address agrees with that by local address. -/
theorem Keyed.getMac_of_getLocalAddress (keyed : c.Keyed) (proper : l ≠ LocalAddress.null_addr)
    (unicast : l ≠ LocalAddress.broadcast) (other : ¬ c.Own m) (found : c.getLocalAddress m = l) :
    c.getMac l = (true, m) := by
  have single : m ≠ broadcastMac := by
    rintro rfl
    rw [getLocalAddress, if_pos rfl] at found
    exact unicast found.symm
  have entry := (getLocalAddress_eq_iff single other proper).mp found
  rw [getMac_eq unicast, valueOf_of_keyOf keyed entry]

/-- The table holds the last MAC address of every local address but broadcast, each once. -/
structure Remembers (c : AddressCache) (calls : List Call) : Prop where
  keyed : c.Keyed
  unicast : ∀ e ∈ c.m_table, e.1 ≠ LocalAddress.broadcast
  last : ∀ l, l ≠ LocalAddress.broadcast → valueOf c.m_table l = lastGiven l calls

variable {calls : List Call}

theorem Remembers.setAddress (before : c.Remembers calls) (l : LocalAddress) (m : MacAddr) :
    (c.setAddress l m).Remembers (calls ++ [.setAddress l m]) := by
  refine ⟨before.keyed.setAddress l m, ?_, ?_⟩
  · by_cases all : l = LocalAddress.broadcast
    · rw [AddressCache.setAddress, if_pos all]
      exact before.unicast
    · rw [setAddress_eq all]
      intro e member
      rcases mem_assign member with rfl | old
      · exact all
      · exact before.unicast e old
  · intro l' unicast
    rw [lastGiven_setAddress]
    by_cases all : l = LocalAddress.broadcast
    · rw [AddressCache.setAddress, if_pos all, if_neg (fun same => unicast (same.symm.trans all))]
      exact before.last l' unicast
    · rw [setAddress_eq all, valueOf_assign, before.last l' unicast]
      simp only [eq_comm]

theorem Remembers.updateMyMAC (before : c.Remembers calls) (l : LocalAddress) (m : MacAddr) :
    (c.updateMyMAC l m).Remembers (calls ++ [.updateMyMAC l m]) := by
  have table := updateMyMAC_table c l m
  refine ⟨?_, ?_, ?_⟩
  · rw [Keyed, table]
    exact before.keyed
  · rw [table]
    exact before.unicast
  · intro l' unicast
    rw [table, lastGiven_updateMyMAC]
    exact before.last l' unicast

end Table

/-- Whatever calls have been made. -/
theorem after_remembers (m_myMac : MacAddr) (calls : List Call) : (after m_myMac calls).Remembers calls := by
  induction calls using List.reverseRecOn with
  | nil => exact ⟨List.nodup_nil, by rintro e ⟨⟩, fun _ _ => rfl⟩
  | append_singleton calls next ih =>
    rw [after_concat]
    cases next with
    | setAddress l m => exact ih.setAddress l m
    | updateMyMAC l m => exact ih.updateMyMAC l m

/-- After every history of calls the cache is the map of the last MAC addresses, and looking
up a MAC address that is not the node's own leads to a local address that has it. -/
theorem cache_remembers_last (m_myMac : MacAddr) (calls : List Call) :
    ((after m_myMac calls).m_table.map Prod.fst).Nodup ∧
    LocalAddress.broadcast ∉ (after m_myMac calls).m_table.map Prod.fst ∧
    (∀ l, l ≠ LocalAddress.broadcast → (after m_myMac calls).getMac l =
      match lastGiven l calls with
      | some m => (true, m)
      | none => (false, illegalMac)) ∧
    ∀ m l, (after m_myMac calls).getLocalAddress m = l → l ≠ LocalAddress.null_addr → l ≠ LocalAddress.broadcast →
      ¬ (after m_myMac calls).Own m → (after m_myMac calls).getMac l = (true, m) := by
  have remembers := after_remembers m_myMac calls
  refine ⟨remembers.keyed, ?_, ?_, ?_⟩
  · intro member
    obtain ⟨e, inside, all⟩ := List.mem_map.mp member
    exact remembers.unicast e inside all
  · intro l unicast
    rw [getMac_eq unicast, remembers.last l unicast]
  · intro m l found proper unicast other
    exact remembers.keyed.getMac_of_getLocalAddress proper unicast other found

/-- Two local addresses with one MAC address: the first is found, and both have it. -/
theorem cache_remembers_shared :
    (after illegalMac [.setAddress 33 (sampleMac 1), .setAddress 34 (sampleMac 1)]).getLocalAddress (sampleMac 1) = 33 ∧
    (after illegalMac [.setAddress 33 (sampleMac 1), .setAddress 34 (sampleMac 1)]).getMac 33 = (true, sampleMac 1) ∧
    (after illegalMac [.setAddress 33 (sampleMac 1), .setAddress 34 (sampleMac 1)]).getMac 34 =
      (true, sampleMac 1) := by
  obtain ⟨_, _, last, reverse⟩ :=
    cache_remembers_last illegalMac [.setAddress 33 (sampleMac 1), .setAddress 34 (sampleMac 1)]
  refine ⟨by decide, reverse (sampleMac 1) 33 (by decide) (by decide) (by decide) ?_, last 34 (by decide)⟩
  rintro ⟨known, _⟩
  exact known rfl

/-- The driver routes by the cache: in every run of a node in TAP mode, the local address
that a frame for another host is sent to is one that is known with its MAC address. -/
theorem reverse_lookup_of_run {n₀ n : PacketTypeCodec} (tap : TapMode n₀)
    (run : LabelledReach (fun n input n' => TapHostDriver.step n input = some n') (fun _ _ => True) n₀ n)
    {c : AddressCache} (cache : n.m_cache = some c) {m : MacAddr} {l : LocalAddress}
    (found : c.getLocalAddress m = l) (proper : l ≠ LocalAddress.null_addr) (unicast : l ≠ LocalAddress.broadcast)
    (other : ¬ c.Own m) : c.getMac l = (true, m) :=
  ((learning_of_run tap run).keyed c cache).getMac_of_getLocalAddress proper unicast other found

end SerialNet.AddressCache
