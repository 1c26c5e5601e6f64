import SerialNet.ByteAdapter

namespace SerialNet.MsgToByteAdapter

namespace Call

def time : Call → ℚ
  | .receiveBytes now _ => now
  | .packetRxInProgress now => now

def bytes : Call → ByteVec
  | .receiveBytes _ bytes => bytes
  | .packetRxInProgress _ => []

/-- The time of a call that brings bytes, even if there are none in it. -/
def received : Call → Option ℚ
  | .receiveBytes now _ => some now
  | .packetRxInProgress _ => none

end Call

/-- A call with the packets it delivers. -/
def answer (a : MsgToByteAdapter) : Call → MsgToByteAdapter × List ByteVec
  | .receiveBytes now bytes => a.receiveBytes now bytes
  | .packetRxInProgress now => ((a.packetRxInProgress now).1, [])

theorem answer_call (a : MsgToByteAdapter) (c : Call) : (a.answer c).1 = a.call c := by
  cases c <;> rfl

/-- The bytes of a call reach the decoder as it is when no timeout gets in between. -/
theorem receiveBytes_kept {a : MsgToByteAdapter} {t : ℚ}
    (kept : a.m_codec.rxInProgress = true → WithinTimeout a.m_lastUpdate t) (bytes : ByteVec) :
    a.receiveBytes t bytes = (⟨(a.m_codec.receiveData bytes).1, t⟩, (a.m_codec.receiveData bytes).2) := by
  have same : (a.checkTimeout t).m_codec = a.m_codec := by
    by_cases busy : a.m_codec.rxInProgress = true
    · rw [checkTimeout_soon busy (kept busy)]
    · rw [checkTimeout_idle (Bool.eq_false_iff.mpr busy)]
  simp only [receiveBytes, same]

/-- Polls deliver nothing. -/
theorem run_answer_polls (a : MsgToByteAdapter) {calls : List Call} (polls : calls.filterMap Call.received = []) :
    calls.flatMap Call.bytes = [] ∧ (Mealy.run answer a calls).2 = [] := by
  induction calls generalizing a with
  | nil => exact ⟨rfl, rfl⟩
  | cons c rest ih =>
    cases c with
    | receiveBytes now bytes => cases polls
    | packetRxInProgress now =>
      rw [List.flatMap_cons, Mealy.run_cons]
      exact ih _ polls

/-- While a frame is in progress the next bytes come within 0.1 s of `m_lastUpdate`, so
that no call resets the decoder before the last bytes have come. -/
theorem run_answer {a : MsgToByteAdapter} {calls : List Call}
    (chronological : calls.Pairwise fun c d => c.time ≤ d.time)
    (since : ∀ c ∈ calls, a.m_codec.rxInProgress = true → a.m_lastUpdate ≤ c.time)
    (close : List.IsChain WithinTimeout (calls.filterMap Call.received))
    (soon : ∀ t ∈ (calls.filterMap Call.received).head?, a.m_codec.rxInProgress = true →
      WithinTimeout a.m_lastUpdate t) :
    (Mealy.run answer a calls).2 = (a.m_codec.receiveData (calls.flatMap Call.bytes)).2 := by
  induction calls generalizing a with
  | nil => rfl
  | cons c rest ih =>
    obtain ⟨order, ordered⟩ := List.pairwise_cons.mp chronological
    rw [Mealy.run_cons, List.flatMap_cons]
    cases c with
    | receiveBytes now bytes =>
      have received := receiveBytes_kept (soon now rfl) bytes
      have chained := List.isChain_cons.mp close
      have later := ih (a := ⟨(a.m_codec.receiveData bytes).1, now⟩) ordered
        (fun d member _ => order d member) chained.2 (fun t head _ => chained.1 t head)
      simp only [FrameCodec.receiveData] at later received
      simp only [answer, Call.bytes, received, later, FrameCodec.receiveData, Mealy.run_append]
    | packetRxInProgress now =>
      have close : List.IsChain WithinTimeout (rest.filterMap Call.received) := close
      rw [Call.bytes, List.nil_append]
      by_cases busy : a.m_codec.rxInProgress = true
      · cases coming : (rest.filterMap Call.received).head? with
        | none =>
          have polls := run_answer_polls (a.answer (.packetRxInProgress now)).1 (List.head?_eq_none_iff.mp coming)
          rw [polls.1, polls.2]
          rfl
        | some t =>
          have first : WithinTimeout a.m_lastUpdate t := soon t coming busy
          have before : a.m_lastUpdate ≤ now := since _ List.mem_cons_self busy
          have after : now ≤ t := by
            obtain ⟨d, member, time⟩ := List.mem_filterMap.mp (List.mem_of_mem_head? coming)
            cases d with
            | receiveBytes t' _ =>
              cases time
              exact order _ member
            | packetRxInProgress t' => cases time
          have poll : WithinTimeout a.m_lastUpdate now := by
            unfold WithinTimeout at first ⊢
            linarith
          have later := ih (a := { a with m_lastUpdate := now }) ordered (fun d member _ => order d member) close
            (by
              intro t' head _
              rw [coming] at head
              cases head
              unfold WithinTimeout at first ⊢
              linarith)
          simp only [answer, packetRxInProgress, checkTimeout_soon busy poll, List.nil_append, later]
      · have idle : a.m_codec.rxInProgress = false := Bool.eq_false_iff.mpr busy
        have later := ih (a := a) ordered (fun _ _ now => absurd now busy) close (fun _ _ now => absurd now busy)
        simp only [answer, packetRxInProgress, checkTimeout_idle idle, List.nil_append, later]

/-- However a stream is cut into calls, and wherever it is polled in between or
afterwards, the packets are those of the stream in one piece, for as long as the calls
that bring bytes are at most 0.1 s apart. -/
theorem chunks_deliver (decodeCB : Bool) (calls : List Call) (chronological : calls.Pairwise fun c d => c.time ≤ d.time)
    (close : List.IsChain WithinTimeout (calls.filterMap Call.received)) (t : ℚ) :
    (Mealy.run answer (initial decodeCB) calls).2 =
      ((initial decodeCB).receiveBytes t (calls.flatMap Call.bytes)).2 := by
  have idle : ¬ (initial decodeCB).m_codec.rxInProgress = true := by
    cases decodeCB <;> decide
  rw [receiveBytes_kept fun busy => absurd busy idle]
  exact run_answer chronological (fun _ _ busy => absurd busy idle) close (fun _ _ busy => absurd busy idle)

/-- A frame byte by byte, with polls inside it and a late one after it. Its times are doubles. -/
def sampleCalls : List Call :=
  [.packetRxInProgress 999, .receiveBytes 1000 [0xfd], .packetRxInProgress (1000 + 1 / 32),
    .receiveBytes (1000 + 1 / 16) [0x01], .receiveBytes (1000 + 1 / 8) [], .receiveBytes (1000 + 1 / 8) [0x07],
    .packetRxInProgress (1000 + 3 / 16), .receiveBytes (1000 + 3 / 16) [0xfb], .receiveBytes (1000 + 1 / 4) [0xff],
    .packetRxInProgress 2000]

theorem chunks_deliver_bytewise : (Mealy.run answer (initial true) sampleCalls).2 = [[0x07]] := by
  have whole := chunks_deliver true sampleCalls (by decide +kernel)
    (by norm_num [sampleCalls, List.filterMap_cons, Call.received, WithinTimeout]) 0
  rw [whole]
  rfl

end SerialNet.MsgToByteAdapter
