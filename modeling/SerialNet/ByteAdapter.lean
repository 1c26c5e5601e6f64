import SerialNet.FrameIndex

namespace SerialNet

/-- The adapter between the serial driver and the message layer. Times are exact
values of the clock; `m_lastUpdate` is meant to be the time of the last byte. -/
structure MsgToByteAdapter where
  m_codec : FrameCodec
  m_lastUpdate : ℚ
deriving DecidableEq

namespace MsgToByteAdapter

def initial (decodeCB : Bool) : MsgToByteAdapter := ⟨.initial decodeCB, 0⟩

def sendMsg (msg : ByteVec) : ByteVec := FrameCodec.encodePacket msg

def checkTimeout (a : MsgToByteAdapter) (now : ℚ) : MsgToByteAdapter :=
  if a.m_codec.rxInProgress then
    { m_codec := if now - a.m_lastUpdate > 1 / 10 then a.m_codec.reset else a.m_codec
      m_lastUpdate := now }
  else
    a

def packetRxInProgress (a : MsgToByteAdapter) (now : ℚ) : MsgToByteAdapter × Bool :=
  (a.checkTimeout now, (a.checkTimeout now).m_codec.rxInProgress)

def receiveBytes (a : MsgToByteAdapter) (now : ℚ) (bytes : ByteVec) : MsgToByteAdapter × List ByteVec :=
  let decoded := (a.checkTimeout now).m_codec.receiveData bytes
  ({ m_codec := decoded.1, m_lastUpdate := now }, decoded.2)

/-- The calls the driver and the master make, each at its own time. -/
inductive Call
  | receiveBytes (now : ℚ) (bytes : ByteVec)
  | packetRxInProgress (now : ℚ)

def call (a : MsgToByteAdapter) : Call → MsgToByteAdapter
  | .receiveBytes now bytes => (a.receiveBytes now bytes).1
  | .packetRxInProgress now => (a.packetRxInProgress now).1

def callAll (a : MsgToByteAdapter) (calls : List Call) : MsgToByteAdapter := calls.foldl call a

/-- Nothing is being received at `t`: a poll says so, and a `receiveBytes` call
would decode its first byte as the start of a frame. -/
def Resynchronised (a : MsgToByteAdapter) (t : ℚ) : Prop :=
  (a.packetRxInProgress t).2 = false ∧ (a.checkTimeout t).m_codec.m_state = .getKW

theorem rxInProgress_eq_false {c : FrameCodec} : c.rxInProgress = false ↔ c.m_state = .getKW := by
  simp [FrameCodec.rxInProgress]

theorem resynchronised_iff_checkTimeout {a : MsgToByteAdapter} {t : ℚ} :
    a.Resynchronised t ↔ (a.checkTimeout t).m_codec.rxInProgress = false := by
  simp only [Resynchronised, packetRxInProgress, rxInProgress_eq_false, and_self]

theorem checkTimeout_idle {a : MsgToByteAdapter} (idle : a.m_codec.rxInProgress = false) (t : ℚ) :
    a.checkTimeout t = a := by
  simp [checkTimeout, idle]

/-- Two calls close enough for the second one not to time out. -/
def WithinTimeout (x y : ℚ) : Prop := y - x ≤ 1 / 10

theorem checkTimeout_late {a : MsgToByteAdapter} {t : ℚ} (late : ¬ WithinTimeout a.m_lastUpdate t) :
    (a.checkTimeout t).m_codec.rxInProgress = false := by
  unfold checkTimeout
  split
  · rw [if_pos (not_le.mp late)]
    rfl
  · rename_i idle
    exact Bool.eq_false_iff.mpr idle

theorem checkTimeout_soon {a : MsgToByteAdapter} {t : ℚ} (busy : a.m_codec.rxInProgress = true)
    (soon : WithinTimeout a.m_lastUpdate t) : a.checkTimeout t = { a with m_lastUpdate := t } := by
  rw [checkTimeout, if_pos busy, if_neg (not_lt.mpr soon)]

/-- Polling a decoder that waits for a frame never disturbs it. -/
theorem callAll_polls_idle {a : MsgToByteAdapter} (idle : a.m_codec.rxInProgress = false)
    (polls : List ℚ) : a.callAll (polls.map .packetRxInProgress) = a := by
  induction polls with
  | nil => rfl
  | cons p rest ih =>
    simp only [List.map_cons, callAll, List.foldl_cons, call, packetRxInProgress,
      checkTimeout_idle idle]
    exact ih

/-- A frame in progress survives a sequence of polls exactly when no two
consecutive ones, counted from `m_lastUpdate`, are more than 0.1 s apart. -/
theorem polls_keep_frame_iff {a : MsgToByteAdapter} (busy : a.m_codec.rxInProgress = true)
    (polls : List ℚ) (t : ℚ) :
    ((a.callAll (polls.map .packetRxInProgress)).checkTimeout t).m_codec.rxInProgress = true ↔
      List.IsChain WithinTimeout (a.m_lastUpdate :: (polls ++ [t])) := by
  induction polls generalizing a with
  | nil =>
    by_cases soon : WithinTimeout a.m_lastUpdate t
    · simp [callAll, checkTimeout_soon busy soon, busy, soon]
    · simp [callAll, checkTimeout_late soon, soon]
  | cons p rest ih =>
    simp only [List.map_cons, callAll, List.foldl_cons, call, packetRxInProgress, List.cons_append,
      List.isChain_cons_cons]
    by_cases soon : WithinTimeout a.m_lastUpdate p
    · rw [checkTimeout_soon busy soon]
      have later := ih (a := { a with m_lastUpdate := p }) busy
      simp only [callAll] at later
      rw [later]
      simp only [soon, true_and]
    · have idle := checkTimeout_late soon
      have still := callAll_polls_idle idle rest
      simp only [callAll] at still
      rw [still, checkTimeout_idle idle, idle]
      simp [soon]

/-- When a decoder has resynchronised. After the last received bytes it must
either be between two frames, or be left alone, polls included, for more
than 0.1 s once: a poll moves `m_lastUpdate` just as a byte does. -/
theorem resynchronised_iff (decodeCB : Bool) (history : List Call) (last : ℚ) (bytes : ByteVec)
    (polls : List ℚ) (t : ℚ) :
    (((initial decodeCB).callAll history |>.receiveBytes last bytes).1.callAll
        (polls.map .packetRxInProgress)).Resynchronised t ↔
      ((initial decodeCB).callAll history |>.receiveBytes last bytes).1.m_codec.m_state = .getKW ∨
        ¬ List.IsChain WithinTimeout (last :: (polls ++ [t])) := by
  generalize received : ((initial decodeCB).callAll history |>.receiveBytes last bytes).1 = a
  have stamp : a.m_lastUpdate = last := by rw [← received]; rfl
  rw [resynchronised_iff_checkTimeout]
  by_cases busy : a.m_codec.rxInProgress = true
  · have waiting : a.m_codec.m_state ≠ .getKW := fun idle => by
      rw [rxInProgress_eq_false.mpr idle] at busy
      cases busy
    rw [← stamp, ← polls_keep_frame_iff busy]
    simp [waiting]
  · have idle : a.m_codec.rxInProgress = false := Bool.eq_false_iff.mpr busy
    simp [callAll_polls_idle idle, checkTimeout_idle idle, idle, rxInProgress_eq_false.mp idle]

/-- A keyword at time 1000 and two polls, as the master makes them every 0.08 s:
0.16 s after the last byte the frame is still said to be in progress. -/
theorem polls_hide_silence :
    (1000 : ℚ) + 1 / 10 < 1000 + 4 / 25 ∧
      ¬ (((initial true).callAll [] |>.receiveBytes 1000 [0xfd]).1.callAll
        ([1000 + 2 / 25].map .packetRxInProgress)).Resynchronised (1000 + 4 / 25) := by
  refine ⟨by norm_num, ?_⟩
  rw [resynchronised_iff_checkTimeout, Bool.not_eq_false]
  refine (polls_keep_frame_iff (by rfl) _ _).mpr ?_
  norm_num [receiveBytes, WithinTimeout]

end MsgToByteAdapter

end SerialNet
