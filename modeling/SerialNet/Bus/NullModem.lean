import SerialNet.Application
import SerialNet.Bus.Tunnel

namespace SerialNet

open PacketTypeCodec Traffic

namespace PtyRawHostDriver

/-- What the driver submits for what it reads. -/
def submissions (d : PtyRawHostDriver) (reads : List ReadResult) : List Submission :=
  reads.filterMap fun r => (d.doRead r).1.map fun pkt => .sendPacket pkt.1 pkt.2.1 pkt.2.2

/-- What the driver writes to the pty when its node calls it. -/
def writes (d : PtyRawHostDriver) : Effect → List ByteVec
  | .packetReceivedFromNet _ data srcAddr _ chType => d.packetReceivedFromNet data srcAddr chType
  | _ => []

end PtyRawHostDriver

namespace Application

/-- A process with a static address at place `i`, whose driver for a pty has read this much,
and has submitted all that its node has had accepted. -/
structure PtyEnd (processes : List Process) (apps : List Application) (t : Traffic) (i : Nat) (p : Process)
    (d : PtyRawHostDriver) (reads : List ReadResult) : Prop where
  process : processes[i]? = some p
  static : p.address ≠ 0
  driver : apps[i]?.bind (·.driver) = some (.ptyRaw d)
  submitted : (t.hosts i).accepted =
    (d.submissions reads).map fun s => ⟨toLocalAddress p.address.toNat, s⟩

namespace PtyEnd

variable {processes : List Process} {apps : List Application} {t : Traffic} {i : Nat} {p q : Process}
  {d : PtyRawHostDriver} {reads : List ReadResult}

theorem node (ptyEnd : PtyEnd processes apps t i p d reads)
    (launched : List.Forall₂ (fun p a => launch p = .ok (some a)) processes apps) :
    ∃ n, (apps.map (·.m_packetTypeCodec))[i]? = some n ∧ p.Makes n ∧ n.m_txQueue.m_rxIfRaw = some hostDriver ∧
      d = ⟨toLocalAddress (p.vm.peer_address % 256).toNat, true⟩ := by
  obtain ⟨length, each⟩ := List.forall₂_iff_get.mp launched
  obtain ⟨a, here, driver⟩ := Option.bind_eq_some_iff.mp ptyEnd.driver
  obtain ⟨inside, atP⟩ := List.getElem?_eq_some_iff.mp ptyEnd.process
  obtain ⟨inside', atA⟩ := List.getElem?_eq_some_iff.mp here
  have launched' := each i inside inside'
  rw [List.get_eq_getElem, List.get_eq_getElem, atP, atA] at launched'
  obtain ⟨known, registered⟩ := Process.pty_of_launch launched' driver
  refine ⟨a.m_packetTypeCodec, ?_, Process.makes_of_launch launched', registered, known⟩
  rw [List.getElem?_map, here, Option.map_some]

end PtyEnd

/-- The bus under a network of processes. -/
theorem logged_of_network {uninitialised : Nat → UniqueId} {processes : List Process}
    (network : Process.Network uninitialised processes) {app : Application} {apps : List Application}
    (launched : List.Forall₂ (fun p a => launch p = .ok (some a)) processes (app :: apps)) {now : ℚ} {m₀ : Master}
    (constructed : Master.start {} app.m_packetTypeCodec uninitialised now = .ok m₀) {t : Traffic}
    (run : Relation.ReflTransGen Step ⟨⟨m₀, apps.map (·.m_packetTypeCodec), []⟩, fun _ => ⟨[], []⟩⟩ t) :
    Bus.Setup {} uninitialised ((app :: apps).map (·.m_packetTypeCodec)) ∧
      Attributed {} ((app :: apps).map (·.m_packetTypeCodec)) t.hosts ∧ ∃ heard line waiting,
        Logged {} uninitialised ((app :: apps).map (·.m_packetTypeCodec)) t heard line waiting := by
  rw [Master.start_eq] at constructed
  cases constructed
  have made : List.Forall₂ Process.Makes processes ((app :: apps).map (·.m_packetTypeCodec)) :=
    List.forall₂_map_right_iff.mpr (launched.imp fun _ _ => Process.makes_of_launch)
  obtain ⟨setup, rested⟩ := network.setup made
  exact ⟨setup, logged_of_run setup rested run⟩

/-- Standard output is another matter. A process of this mode with a static address never has
anything to write, whatever is sent to it. -/
theorem stdout_silent (uninitialised : Nat → UniqueId) (processes : List Process)
    (network : Process.Network uninitialised processes) (app : Application) (apps : List Application)
    (launched : List.Forall₂ (fun p a => launch p = .ok (some a)) processes (app :: apps)) (now : ℚ) (m₀ : Master)
    (constructed : Master.start {} app.m_packetTypeCodec uninitialised now = .ok m₀) (t : Traffic)
    (run : Relation.ReflTransGen Step ⟨⟨m₀, apps.map (·.m_packetTypeCodec), []⟩, fun _ => ⟨[], []⟩⟩ t) {j : Nat}
    {a : Application} {d : StdioRawHostDriver} (here : (app :: apps)[j]? = some a)
    (static : a.m_packetTypeCodec.dynamic = false) (stdio : a.driver = some (.stdioRaw d)) :
    (t.hosts j).handed = [] := by
  obtain ⟨_, _, heard, line, waiting, logged⟩ := logged_of_network network launched constructed run
  obtain ⟨length, each⟩ := List.forall₂_iff_get.mp launched
  obtain ⟨inside, rfl⟩ := List.getElem?_eq_some_iff.mp here
  have nobody := Process.stdio_of_launch (each j (by omega) inside) stdio
  rw [List.get_eq_getElem] at nobody
  rw [logged.handed j _ (by rw [List.getElem?_map, here, Option.map_some]) static, List.flatMap_eq_nil_iff]
  rintro ⟨_, src, submission⟩ _
  cases submission with
  | sendPacket data dest ch => simp [Sent.calls, Station.expectedCalls, nobody]
  | sendMacUpdate mac => rfl

end Application

end SerialNet
