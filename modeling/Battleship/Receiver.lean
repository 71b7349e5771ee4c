import Battleship.Firmware

/-!
# The receive task as a machine

`io_receive_task` has eight places at which it can be interrupted. `recvMove`
is its step between them, and `stepReceiver_at` says that the task as written
makes exactly these moves.
-/
namespace Battleship
open Cooperative

inductive RecvPoint where
  | wait
  | take
  | poll
  | read
  | clear (raw : Frame)
  | put (raw : Frame) (msg : IoMessage)
  | give
  | pause

def recvPause : RadioTask Unit := Prog.sys (RadioCall.pause 10)

def recvGive : RadioTask Unit := do
  (Prog.sys RadioCall.giveMutex : RadioTask Unit)
  recvPause

def recvPut (raw : Frame) (msg : IoMessage) : RadioTask Unit := do
  (Prog.sys (RadioCall.putMessage msg) : RadioTask Unit)
  Prog.emit (.delivered raw)
  recvGive

def recvHandOn (raw : Frame) (msg : IoMessage) : RadioTask Unit :=
  if msg.isType "PING" then do
    Prog.emit (.ping msg.slaveId raw)
    recvGive
  else recvPut raw msg

def recvClear (raw : Frame) : RadioTask Unit := do
  nrf24ConfigRegister regStatus bitRxDr
  let pipe ← nrf24GetDataPipe
  recvHandOn raw (messageOf raw pipe)

def recvRead : RadioTask Unit := do
  let raw ← chipDo .readRxPayload
  recvClear raw

def recvFetch (status : UInt8) : RadioTask Unit :=
  if status &&& bitRxDr ≠ 0 then do
    Prog.modify (fun n => { n with status := status })
    recvRead
  else recvGive

def recvPoll : RadioTask Unit := do
  let status ← nrf24GetStatus
  recvFetch status

def recvTake : RadioTask Unit := do
  if ← (Prog.sys (RadioCall.takeMutex false) : RadioTask Bool) then recvPoll else recvPause

/-- The rest of the task's turn at each place. -/
def RecvPoint.task : RecvPoint → RadioTask Unit
  | .wait => ioReceiveTask
  | .take => recvTake
  | .poll => recvPoll
  | .read => recvRead
  | .clear raw => recvClear raw
  | .put raw msg => recvPut raw msg
  | .give => recvGive
  | .pause => recvPause

theorem ioReceiveTask_eq :
    ioReceiveTask = (do (Prog.sys RadioCall.takeIrq : RadioTask Unit); recvTake) := by
  unfold ioReceiveTask recvTake recvPoll recvFetch recvRead recvClear recvHandOn recvPut recvGive
    recvPause receiveFrame nrf24DataReady nrf24GetData handOn
  simp only [Prog.bind_assoc, Prog.ite_bind, Prog.pure_eq, Prog.ret_bind, if_true, if_false,
    Bool.false_eq_true]

theorem RecvPoint.task_call (p : RecvPoint) : ∃ c k, p.task = .call c k := by
  cases p <;> exact ⟨_, _, rfl⟩

theorem settle_recvFetch_of_ready {status : UInt8} (n : Nrf) (ready : status &&& bitRxDr ≠ 0) :
    (recvFetch status).settle n = (RecvPoint.read.task, { n with status := status }, []) := by
  rw [recvFetch, if_pos ready]
  rfl

theorem settle_recvFetch_of_idle {status : UInt8} (n : Nrf) (idle : ¬status &&& bitRxDr ≠ 0) :
    (recvFetch status).settle n = (RecvPoint.give.task, n, []) := by
  rw [recvFetch, if_neg idle]
  rfl

theorem settle_recvHandOn_of_ping {raw : Frame} {msg : IoMessage} (n : Nrf)
    (ping : msg.isType "PING" = true) :
    (recvHandOn raw msg).settle n = (RecvPoint.give.task, n, [.ping msg.slaveId raw]) := by
  rw [recvHandOn, if_pos ping]
  rfl

theorem settle_recvHandOn_of_other {raw : Frame} {msg : IoMessage} (n : Nrf)
    (other : ¬msg.isType "PING" = true) :
    (recvHandOn raw msg).settle n = ((RecvPoint.put raw msg).task, n, []) := by
  rw [recvHandOn, if_neg other]
  rfl

/-- The places between taking the mutex and giving it back. -/
def RecvPoint.holds : RecvPoint → Bool
  | .wait => false
  | .take => false
  | .poll => true
  | .read => true
  | .clear _ => true
  | .put _ _ => true
  | .give => true
  | .pause => false

/-- The pipe number of the saved status. -/
def savedPipe (n : Nrf) : UInt8 := (n.status &&& 0x0E) >>> 1

namespace Firmware

/-- One step of the receive task from a place to the next, unless it blocks. -/
def recvMove (s : Firmware) : RecvPoint → Option (RecvPoint × Firmware)
  | .wait => if 0 < s.irqQueue then some (.take, { s with irqQueue := s.irqQueue - 1 }) else none
  | .take => if s.mutex = none then some (.poll, { s with mutex := some .receiver })
      else some (.pause, s)
  | .poll =>
      if s.chip.status &&& bitRxDr ≠ 0 then
        some (.read, { s with nrf := { s.nrf with status := s.chip.status } })
      else some (.give, s)
  | .read => some (.clear (s.chip.perform .readRxPayload).1,
      s.setChip (s.chip.perform .readRxPayload).2)
  | .clear raw =>
      let msg := messageOf raw (savedPipe s.nrf)
      let cleared := s.setChip (s.chip.writeRegister regStatus bitRxDr)
      if msg.isType "PING" then
        some (.give, { cleared with radioLog := s.radioLog ++ [.ping msg.slaveId raw] })
      else some (.put raw msg, cleared)
  | .put raw msg =>
      if s.receiveQueue.length < ioQueueSize then
        some (.give, { s with
          receiveQueue := s.receiveQueue ++ [msg]
          radioLog := s.radioLog ++ [.delivered raw] })
      else none
  | .give => some (.pause, { s with mutex := none })
  | .pause => some (.wait, s)

/-- The moves of the receive task, one for each way out of a place. -/
inductive RecvMoved (s : Firmware) : RecvPoint → RecvPoint → Firmware → Prop
  | woken : 0 < s.irqQueue → s.RecvMoved .wait .take { s with irqQueue := s.irqQueue - 1 }
  | took : s.mutex = none → s.RecvMoved .take .poll { s with mutex := some .receiver }
  | missed : s.mutex ≠ none → s.RecvMoved .take .pause s
  | ready : s.chip.status &&& bitRxDr ≠ 0 →
      s.RecvMoved .poll .read { s with nrf := { s.nrf with status := s.chip.status } }
  | idle : ¬s.chip.status &&& bitRxDr ≠ 0 → s.RecvMoved .poll .give s
  | fetched : s.RecvMoved .read (.clear (s.chip.perform .readRxPayload).1)
      (s.setChip (s.chip.perform .readRxPayload).2)
  | answered (raw : Frame) : (messageOf raw (savedPipe s.nrf)).isType "PING" = true →
      s.RecvMoved (.clear raw) .give { s.setChip (s.chip.writeRegister regStatus bitRxDr) with
        radioLog := s.radioLog ++ [.ping (messageOf raw (savedPipe s.nrf)).slaveId raw] }
  | kept (raw : Frame) : ¬(messageOf raw (savedPipe s.nrf)).isType "PING" = true →
      s.RecvMoved (.clear raw) (.put raw (messageOf raw (savedPipe s.nrf)))
        (s.setChip (s.chip.writeRegister regStatus bitRxDr))
  | handedOn (raw : Frame) (msg : IoMessage) : s.receiveQueue.length < ioQueueSize →
      s.RecvMoved (.put raw msg) .give { s with
        receiveQueue := s.receiveQueue ++ [msg]
        radioLog := s.radioLog ++ [.delivered raw] }
  | gave : s.RecvMoved .give .pause { s with mutex := none }
  | rested : s.RecvMoved .pause .wait s

theorem recvMove_cases {s s' : Firmware} {p p' : RecvPoint}
    (move : s.recvMove p = some (p', s')) : s.RecvMoved p p' s' := by
  cases p with
  | wait =>
      simp only [recvMove] at move
      split at move
      · rename_i event
        cases move
        exact .woken event
      · cases move
  | take =>
      simp only [recvMove] at move
      split at move
      · rename_i free
        cases move
        exact .took free
      · rename_i taken
        cases move
        exact .missed taken
  | poll =>
      simp only [recvMove] at move
      split at move
      · rename_i up
        cases move
        exact .ready up
      · rename_i down
        cases move
        exact .idle down
  | read =>
      cases move
      exact .fetched
  | clear raw =>
      simp only [recvMove] at move
      split at move
      · rename_i ping
        cases move
        exact .answered raw ping
      · rename_i other
        cases move
        exact .kept raw other
  | put raw msg =>
      simp only [recvMove] at move
      split at move
      · rename_i room
        cases move
        exact .handedOn raw msg room
      · cases move
  | give =>
      cases move
      exact .gave
  | pause =>
      cases move
      exact .rested

theorem setChip_self (s : Firmware) : s.setChip s.chip = s := by
  cases s
  simp [setChip]

/-- The step from a call, given the answer and the place the rest runs to. -/
theorem stepReceiver_call {s s' : Firmware} {c : RadioCall} {k : c.Ans → RadioTask Unit}
    {a : c.Ans} {p : RecvPoint} {n : Nrf} {out : List RadioOut}
    (h : s.receiver = .call c k) (answered : s.answerRadio .receiver c = some (a, s'))
    (settled : (k a).settle s'.nrf = (p.task, n, out)) :
    s.stepReceiver =
      some { s' with nrf := n, radioLog := s'.radioLog ++ out, receiver := p.task } := by
  obtain ⟨d, k', eq⟩ := p.task_call
  simp only [stepReceiver, h, answered, Option.map_some, settleRadio, settled, eq]

theorem stepReceiver_blocked {s : Firmware} {c : RadioCall} {k : c.Ans → RadioTask Unit}
    (h : s.receiver = .call c k) (blocked : s.answerRadio .receiver c = none) :
    s.stepReceiver = none := by
  simp only [stepReceiver, h, blocked, Option.map_none]

/-- The task as written makes the moves of `recvMove`. -/
theorem stepReceiver_at {s : Firmware} {p : RecvPoint} (h : s.receiver = p.task) :
    s.stepReceiver = (s.recvMove p).map (fun r => { r.2 with receiver := r.1.task }) := by
  cases p with
  | wait =>
      rw [RecvPoint.task, ioReceiveTask_eq] at h
      by_cases ready : 0 < s.irqQueue
      · rw [stepReceiver_call (p := .take) h (by rw [answerRadio, if_pos ready]) rfl]
        simp only [recvMove, if_pos ready, Option.map_some, List.append_nil]
      · rw [stepReceiver_blocked h (by rw [answerRadio, if_neg ready])]
        simp only [recvMove, if_neg ready, Option.map_none]
  | take =>
      by_cases free : s.mutex = none
      · rw [stepReceiver_call (p := .poll) h (by rw [answerRadio, if_pos free]) rfl]
        simp only [recvMove, if_pos free, Option.map_some, List.append_nil]
      · have answered : s.answerRadio .receiver (.takeMutex false) = some (false, s) := by
          rw [answerRadio, if_neg free, if_neg Bool.false_ne_true]
        rw [stepReceiver_call (p := .pause) h answered rfl]
        simp only [recvMove, if_neg free, Option.map_some, List.append_nil]
  | poll =>
      have answered : s.answerRadio .receiver (.chip .readStatus) = some (s.chip.status, s) := by
        simp only [answerRadio, Chip.perform, setChip_self]
      by_cases ready : s.chip.status &&& bitRxDr ≠ 0
      · rw [stepReceiver_call h answered (settle_recvFetch_of_ready _ ready)]
        simp only [recvMove, if_pos ready, Option.map_some, List.append_nil]
      · rw [stepReceiver_call h answered (settle_recvFetch_of_idle _ ready)]
        simp only [recvMove, if_neg ready, Option.map_some, List.append_nil]
  | read =>
      rw [stepReceiver_call (p := .clear (s.chip.perform .readRxPayload).1) h rfl rfl]
      simp only [recvMove, Option.map_some, List.append_nil]
  | clear raw =>
      by_cases ping : (messageOf raw (savedPipe s.nrf)).isType "PING" = true
      · rw [stepReceiver_call h rfl (settle_recvHandOn_of_ping _ ping)]
        simp only [recvMove, if_pos ping, Option.map_some]
        rfl
      · rw [stepReceiver_call h rfl (settle_recvHandOn_of_other _ ping)]
        simp only [recvMove, if_neg ping, Option.map_some, List.append_nil]
        rfl
  | put raw msg =>
      by_cases room : s.receiveQueue.length < ioQueueSize
      · have settled : Prog.settle (do Prog.emit (RadioOut.delivered raw); recvGive) s.nrf =
            (RecvPoint.give.task, s.nrf, [.delivered raw]) := rfl
        have answered : s.answerRadio .receiver (.putMessage msg) =
            some ((), { s with receiveQueue := s.receiveQueue ++ [msg] }) := by
          rw [answerRadio, if_pos room]
        rw [stepReceiver_call h answered settled]
        simp only [recvMove, if_pos room, Option.map_some]
      · rw [stepReceiver_blocked h (by rw [answerRadio, if_neg room])]
        simp only [recvMove, if_neg room, Option.map_none]
  | give =>
      rw [stepReceiver_call (p := .pause) h rfl rfl]
      simp only [recvMove, Option.map_some, List.append_nil]
  | pause =>
      simp only [RecvPoint.task, recvPause, Prog.sys] at h
      simp [stepReceiver, h, answerRadio, recvMove, settleRadio, Prog.settle, RecvPoint.task]

end Firmware
end Battleship
