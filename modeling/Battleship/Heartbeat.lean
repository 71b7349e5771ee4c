import Battleship.Lib.History
import Battleship.Message

/-!
# The heartbeat monitor

`hb_monitor.c` over the slots of three slaves. A call on a FreeRTOS timer puts a
command in the queue of the timer task, which takes the commands in order; a
one-shot timer that runs may expire, and then its callback runs once.
-/
namespace Battleship
open Runs

abbrev maxSlaves : Nat := 3

inductive HbStatus where
  | offline
  | online
  | pinging
  deriving DecidableEq, Repr

/-- The timer that `hb_init` created for this slot. -/
abbrev TimerHandle := Fin maxSlaves

/-- The timer ID, and whether the timer runs. -/
structure HbTimer where
  timerId : UInt8
  active : Bool

inductive TimerCommand where
  | start
  | reset
  | stop
  deriving DecidableEq, Repr

structure SlaveHeartbeat where
  slaveId : UInt8
  status : HbStatus
  hbTimer : Option TimerHandle
  pingTimer : Option TimerHandle

structure HbMonitor where
  slaveHeartbeats : Fin maxSlaves → SlaveHeartbeat
  timers : TimerHandle → HbTimer
  /-- The queue of the timer task. -/
  commands : List (TimerHandle × TimerCommand)
  /-- What has gone into the send queue. -/
  sent : List IoMessage
  /-- The slaves that the callback has logged a missed heartbeat of. -/
  missed : List UInt8

def slaveIdOf (i : Fin maxSlaves) : UInt8 := UInt8.ofNat (i.val + 1)

def slot (slaveId : UInt8) : Option (Fin maxSlaves) :=
  if h : 1 ≤ slaveId.toNat ∧ slaveId.toNat ≤ maxSlaves then some ⟨slaveId.toNat - 1, by omega⟩
  else none

namespace HbMonitor

def setStatus (m : HbMonitor) (i : Fin maxSlaves) (status : HbStatus) : HbMonitor :=
  { m with slaveHeartbeats :=
      Function.update m.slaveHeartbeats i { m.slaveHeartbeats i with status := status } }

/-- `xTimerStart`, `xTimerReset` and `xTimerStop` with no block time: without
room in the queue the command is lost. On a handle that is `NULL` the call does
nothing, or does not return. -/
def timerCommand (nullReturns : Bool) (m : HbMonitor) (handle : Option TimerHandle)
    (command : TimerCommand) (room : Bool) : Option HbMonitor :=
  match handle with
  | none => if nullReturns then some m else none
  | some t => some (if room then { m with commands := m.commands ++ [(t, command)] } else m)

/-- The guard of the entry points: for other numbers they return at once. -/
def atSlot (m : HbMonitor) (slaveId : UInt8) (body : Fin maxSlaves → Option HbMonitor) :
    Option HbMonitor :=
  match slot slaveId with
  | none => some m
  | some i => body i

/-- `io_enqueue_send` waits for room. -/
def enqueueSend (m : HbMonitor) (msg : IoMessage) : HbMonitor :=
  if 2 ≤ msg.slaveId.toNat ∧ msg.slaveId.toNat ≤ 5 then { m with sent := m.sent ++ [msg] } else m

end HbMonitor

/-- A timer that could be created is started, if the queue has room. No handle is
ever stored in `ping_timer`. -/
def hbInit (created room : Fin maxSlaves → Bool) : HbMonitor where
  slaveHeartbeats := fun i => ⟨slaveIdOf i, .offline, if created i then some i else none, none⟩
  timers := fun i => ⟨slaveIdOf i, false⟩
  commands := ((List.finRange maxSlaves).filter (fun i => created i && room i)).map (·, .start)
  sent := []
  missed := []

def hbRegisterHeartbeat (nullReturns : Bool) (m : HbMonitor) (slaveId : UInt8) (room : Bool) :
    Option HbMonitor :=
  m.atSlot slaveId fun i =>
    (m.setStatus i .online).timerCommand nullReturns (m.slaveHeartbeats i).hbTimer .reset room

def pingMessage (slaveId : UInt8) : IoMessage where
  slaveId := slaveId
  messageType := messageTypeOf "PING"
  payload := fun _ => 0
  payloadLength := 0

def hbSendPing (nullReturns : Bool) (m : HbMonitor) (slaveId : UInt8) (room : Bool) :
    Option HbMonitor :=
  m.atSlot slaveId fun i =>
    ((m.enqueueSend (pingMessage slaveId)).setStatus i .pinging).timerCommand nullReturns
      (m.slaveHeartbeats i).pingTimer .start room

def hbRegisterPingResponse (nullReturns : Bool) (m : HbMonitor) (slaveId : UInt8)
    (roomToStop roomToStart : Bool) : Option HbMonitor :=
  m.atSlot slaveId fun i =>
    ((m.setStatus i .online).timerCommand nullReturns (m.slaveHeartbeats i).hbTimer .stop
      roomToStop).bind (fun m =>
        m.timerCommand nullReturns (m.slaveHeartbeats i).hbTimer .start roomToStart)

def hbMarkOffline (m : HbMonitor) (slaveId : UInt8) : Option HbMonitor :=
  m.atSlot slaveId fun i => some (m.setStatus i .offline)

def hbGetStatus (m : HbMonitor) (slaveId : UInt8) : HbStatus :=
  match slot slaveId with
  | none => .offline
  | some i => (m.slaveHeartbeats i).status

/-- All it does is log the warning. -/
def hbTimeoutCallback (m : HbMonitor) (timer : HbTimer) : HbMonitor :=
  { m with missed := m.missed ++ [timer.timerId] }

def TimerCommand.leavesActive : TimerCommand → Bool
  | start => true
  | reset => true
  | stop => false

def HbMonitor.setActive (m : HbMonitor) (t : TimerHandle) (active : Bool) : HbMonitor :=
  { m with timers := Function.update m.timers t { m.timers t with active := active } }

/-- The next command of the queue is carried out. -/
def processCommand (m : HbMonitor) : Option HbMonitor :=
  match m.commands with
  | [] => none
  | (t, command) :: rest => some { m.setActive t command.leavesActive with commands := rest }

/-- A one-shot timer is dormant once it has expired. -/
def expire (m : HbMonitor) (t : TimerHandle) : Option HbMonitor :=
  if (m.timers t).active then some (hbTimeoutCallback (m.setActive t false) (m.timers t)) else none

/-- `room` says whether the timer queue has room for the command. -/
inductive HbEvent where
  | heartbeat (slaveId : UInt8) (room : Bool)
  | pingResponse (slaveId : UInt8) (roomToStop roomToStart : Bool)
  | sendPing (slaveId : UInt8) (room : Bool)
  | markOffline (slaveId : UInt8)
  | command
  | expiry (t : TimerHandle)

namespace HbEvent

/-- The slave an event is about. -/
def slaveId : HbEvent → Option UInt8
  | heartbeat id _ => some id
  | pingResponse id _ _ => some id
  | sendPing id _ => some id
  | markOffline id => some id
  | command => none
  | expiry t => some (slaveIdOf t)

/-- A heartbeat or ping response of the slave is registered. -/
def Registers (id : UInt8) : HbEvent → Prop
  | heartbeat id' _ => id' = id
  | pingResponse id' _ _ => id' = id
  | _ => False

/-- The slave's heartbeat timer expires. -/
def Expires (id : UInt8) : HbEvent → Prop
  | expiry t => slaveIdOf t = id
  | _ => False

/-- The slave is pinged or marked offline. -/
def Clears (id : UInt8) : HbEvent → Prop
  | sendPing id' _ => id' = id
  | markOffline id' => id' = id
  | _ => False

/-- The status that an event gives the slave it is about. -/
def sets : HbEvent → Option HbStatus
  | heartbeat _ _ => some .online
  | pingResponse _ _ _ => some .online
  | sendPing _ _ => some .pinging
  | markOffline _ => some .offline
  | command => none
  | expiry _ => none

end HbEvent

def hbStep (nullReturns : Bool) (m : HbMonitor) : HbEvent → Option HbMonitor
  | .heartbeat id room => hbRegisterHeartbeat nullReturns m id room
  | .pingResponse id roomToStop roomToStart =>
      hbRegisterPingResponse nullReturns m id roomToStop roomToStart
  | .sendPing id room => hbSendPing nullReturns m id room
  | .markOffline id => hbMarkOffline m id
  | .command => processCommand m
  | .expiry t => expire m t

/-- In every state on the way, a slave that is online has been heard since its
heartbeat timer last expired. -/
def HeardOnline (nullReturns : Bool) (m : HbMonitor) (es : List HbEvent) : Prop :=
  ∀ past, past <+: es → ∀ m', runList (hbStep nullReturns) m past = some m' →
    ∀ id, hbGetStatus m' id = .online → Since (HbEvent.Registers id) (HbEvent.Expires id) past

/-- A timer that expires does so on a slave that is not online. -/
def ExpiresUnlessOnline (m : HbMonitor) : HbEvent → Prop
  | .expiry t => (m.timers t).active = true → (m.slaveHeartbeats t).status ≠ .online
  | _ => True

theorem slot_slaveIdOf (i : Fin maxSlaves) : slot (slaveIdOf i) = some i := by
  revert i
  decide

theorem slot_eq_some {id : UInt8} {i : Fin maxSlaves} : slot id = some i ↔ id = slaveIdOf i := by
  constructor
  · intro h
    by_cases inside : 1 ≤ id.toNat ∧ id.toNat ≤ maxSlaves
    · rw [slot, dif_pos inside] at h
      cases h
      have byte := id.toNat_lt
      apply UInt8.toNat_inj.mp
      rw [slaveIdOf, UInt8.toNat_ofNat']
      simp only [Nat.reducePow]
      omega
    · rw [slot, dif_neg inside] at h
      cases h
  · rintro rfl
    exact slot_slaveIdOf i

theorem hbGetStatus_slaveIdOf (m : HbMonitor) (i : Fin maxSlaves) :
    hbGetStatus m (slaveIdOf i) = (m.slaveHeartbeats i).status := by
  rw [hbGetStatus, slot_slaveIdOf]

namespace HbMonitor

theorem setStatus_status (m : HbMonitor) (i j : Fin maxSlaves) (status : HbStatus) :
    ((m.setStatus i status).slaveHeartbeats j).status =
      if j = i then status else (m.slaveHeartbeats j).status := by
  by_cases here : j = i
  · subst here
    simp [setStatus]
  · simp [setStatus, here]

/-- Timer calls write no slot. -/
theorem timerCommand_slots {nullReturns : Bool} {m m' : HbMonitor} {handle : Option TimerHandle}
    {command : TimerCommand} {room : Bool}
    (h : m.timerCommand nullReturns handle command room = some m') :
    m'.slaveHeartbeats = m.slaveHeartbeats := by
  cases handle with
  | none =>
      cases nullReturns with
      | false => cases h
      | true =>
          cases h
          rfl
  | some t =>
      cases h
      cases room <;> rfl

theorem enqueueSend_slots (m : HbMonitor) (msg : IoMessage) :
    (m.enqueueSend msg).slaveHeartbeats = m.slaveHeartbeats := by
  unfold enqueueSend
  split <;> rfl

end HbMonitor

theorem slaveIdOf_inj {i j : Fin maxSlaves} : slaveIdOf i = slaveIdOf j ↔ i = j := by
  rw [← slot_eq_some, slot_slaveIdOf, Option.some_inj]

/-- One status is written, that of the slave with this number if there is one. -/
def HbMonitor.Writes (m : HbMonitor) (slaveId : UInt8) (status : HbStatus) (m' : HbMonitor) :
    Prop :=
  ∀ i, (m'.slaveHeartbeats i).status =
    if slaveId = slaveIdOf i then status else (m.slaveHeartbeats i).status

/-- An entry point whose body gives its slot a status writes that one status. -/
theorem atSlot_writes {m m' : HbMonitor} {id : UInt8} {body : Fin maxSlaves → Option HbMonitor}
    {status : HbStatus} (h : m.atSlot id body = some m')
    (inside : ∀ j, body j = some m' →
      m'.slaveHeartbeats = (m.setStatus j status).slaveHeartbeats) : m.Writes id status m' := by
  intro i
  cases found : slot id with
  | none =>
      have other : id ≠ slaveIdOf i := by
        rintro rfl
        rw [slot_slaveIdOf] at found
        cases found
      simp only [HbMonitor.atSlot, found, Option.some.injEq] at h
      rw [if_neg other, h]
  | some j =>
      simp only [HbMonitor.atSlot, found] at h
      rw [inside j h, HbMonitor.setStatus_status, slot_eq_some.mp found]
      simp only [slaveIdOf_inj, eq_comm]

theorem hbRegisterHeartbeat_writes {nullReturns : Bool} {m m' : HbMonitor} {id : UInt8}
    {room : Bool} (h : hbRegisterHeartbeat nullReturns m id room = some m') :
    m.Writes id .online m' :=
  atSlot_writes h fun _ reset => HbMonitor.timerCommand_slots reset

theorem hbRegisterPingResponse_writes {nullReturns : Bool} {m m' : HbMonitor} {id : UInt8}
    {roomToStop roomToStart : Bool}
    (h : hbRegisterPingResponse nullReturns m id roomToStop roomToStart = some m') :
    m.Writes id .online m' := by
  refine atSlot_writes h fun j both => ?_
  obtain ⟨stopped, stop, start⟩ := Option.bind_eq_some_iff.mp both
  rw [HbMonitor.timerCommand_slots start, HbMonitor.timerCommand_slots stop]

theorem hbSendPing_writes {nullReturns : Bool} {m m' : HbMonitor} {id : UInt8} {room : Bool}
    (h : hbSendPing nullReturns m id room = some m') : m.Writes id .pinging m' := by
  refine atSlot_writes h fun j start => ?_
  rw [HbMonitor.timerCommand_slots start]
  simp only [HbMonitor.setStatus, HbMonitor.enqueueSend_slots]

theorem hbMarkOffline_writes {m m' : HbMonitor} {id : UInt8} (h : hbMarkOffline m id = some m') :
    m.Writes id .offline m' := by
  refine atSlot_writes h fun j marked => ?_
  rw [← Option.some_inj.mp marked]

/-- Neither a command of the queue nor an expiry writes a slot. -/
theorem processCommand_slots {m m' : HbMonitor} (h : processCommand m = some m') :
    m'.slaveHeartbeats = m.slaveHeartbeats := by
  unfold processCommand at h
  split at h
  · cases h
  · cases h
    rfl

theorem expire_slots {m m' : HbMonitor} {t : TimerHandle} (h : expire m t = some m') :
    (m.timers t).active = true ∧ m'.slaveHeartbeats = m.slaveHeartbeats := by
  unfold expire at h
  split at h
  · rename_i active
    cases h
    exact ⟨active, rfl⟩
  · cases h

/-- What a step does to the statuses: the slave it is about gets the one it sets,
if it sets any, and every other slave keeps its own. -/
theorem hbStep_status {nullReturns : Bool} {m m' : HbMonitor} {e : HbEvent}
    (h : hbStep nullReturns m e = some m') (i : Fin maxSlaves) :
    (m'.slaveHeartbeats i).status =
      if e.slaveId = some (slaveIdOf i) then e.sets.getD (m.slaveHeartbeats i).status
      else (m.slaveHeartbeats i).status := by
  cases e with
  | heartbeat id room => simpa [HbEvent.slaveId, HbEvent.sets] using hbRegisterHeartbeat_writes h i
  | pingResponse id roomToStop roomToStart =>
      simpa [HbEvent.slaveId, HbEvent.sets] using hbRegisterPingResponse_writes h i
  | sendPing id room => simpa [HbEvent.slaveId, HbEvent.sets] using hbSendPing_writes h i
  | markOffline id => simpa [HbEvent.slaveId, HbEvent.sets] using hbMarkOffline_writes h i
  | command => simp [HbEvent.slaveId, processCommand_slots h]
  | expiry t => simp [HbEvent.sets, (expire_slots h).2]

/-- A step leaves a slave online when it registers it, or found it online and
does not clear it. -/
theorem hbStep_online_iff {nullReturns : Bool} {m m' : HbMonitor} {e : HbEvent}
    (h : hbStep nullReturns m e = some m') (i : Fin maxSlaves) :
    (m'.slaveHeartbeats i).status = .online ↔ e.Registers (slaveIdOf i) ∨
      (m.slaveHeartbeats i).status = .online ∧ ¬e.Clears (slaveIdOf i) := by
  rw [hbStep_status h i]
  cases e with
  | heartbeat id room =>
      by_cases about : id = slaveIdOf i <;>
        simp [HbEvent.slaveId, HbEvent.sets, HbEvent.Registers, HbEvent.Clears, about]
  | pingResponse id roomToStop roomToStart =>
      by_cases about : id = slaveIdOf i <;>
        simp [HbEvent.slaveId, HbEvent.sets, HbEvent.Registers, HbEvent.Clears, about]
  | sendPing id room =>
      by_cases about : id = slaveIdOf i <;>
        simp [HbEvent.slaveId, HbEvent.sets, HbEvent.Registers, HbEvent.Clears, about]
  | markOffline id =>
      by_cases about : id = slaveIdOf i <;>
        simp [HbEvent.slaveId, HbEvent.sets, HbEvent.Registers, HbEvent.Clears, about]
  | command => simp [HbEvent.slaveId, HbEvent.Registers, HbEvent.Clears]
  | expiry t => simp [HbEvent.sets, HbEvent.Registers, HbEvent.Clears]

/-- In any run a slave is online when it has been registered and neither pinged nor
marked offline since. -/
theorem online_iff_since {nullReturns : Bool} {m m' : HbMonitor} {es : List HbEvent}
    (offline : ∀ i, (m.slaveHeartbeats i).status = .offline)
    (run : runList (hbStep nullReturns) m es = some m') (i : Fin maxSlaves) :
    (m'.slaveHeartbeats i).status = .online ↔
      Since (HbEvent.Registers (slaveIdOf i)) (HbEvent.Clears (slaveIdOf i)) es := by
  refine (meets_true (hbStep nullReturns) m es).history
    (I := fun es m => (m.slaveHeartbeats i).status = .online ↔
      Since (HbEvent.Registers (slaveIdOf i)) (HbEvent.Clears (slaveIdOf i)) es)
    ?_ (fun es t e t' ih _ step => ?_) run
  · simp [offline i, not_since_nil]
  · rw [since_concat, ← ih, hbStep_online_iff step i]

/-- The invariant of a run: who is online was heard since the last expiry. -/
theorem heard_of_step {nullReturns : Bool} {es : List HbEvent} {m m' : HbMonitor} {e : HbEvent}
    (heard : ∀ i, (m.slaveHeartbeats i).status = .online →
      Since (HbEvent.Registers (slaveIdOf i)) (HbEvent.Expires (slaveIdOf i)) es)
    (ok : ExpiresUnlessOnline m e) (h : hbStep nullReturns m e = some m') (i : Fin maxSlaves)
    (online : (m'.slaveHeartbeats i).status = .online) :
    Since (HbEvent.Registers (slaveIdOf i)) (HbEvent.Expires (slaveIdOf i)) (es ++ [e]) := by
  rcases (hbStep_online_iff h i).mp online with registered | ⟨before, -⟩
  · exact since_concat.mpr (.inl registered)
  · refine since_concat.mpr (.inr ⟨heard i before, fun expires => ?_⟩)
    cases e with
    | expiry t =>
        obtain rfl : t = i := slaveIdOf_inj.mp expires
        exact ok (expire_slots h).1 before
    | _ => exact expires

/-- A timer that expires on an online slave leaves it online. -/
theorem online_after_expiry {nullReturns : Bool} {m : HbMonitor} {t : TimerHandle}
    (active : (m.timers t).active = true) (online : (m.slaveHeartbeats t).status = .online) :
    ∃ m', hbStep nullReturns m (.expiry t) = some m' ∧ hbGetStatus m' (slaveIdOf t) = .online := by
  refine ⟨_, if_pos active, ?_⟩
  rw [hbGetStatus_slaveIdOf]
  exact online

/-- An event about one slave leaves the status of every other. -/
theorem hbStep_frame {nullReturns : Bool} {m m' : HbMonitor} {e : HbEvent} {id : UInt8}
    (h : hbStep nullReturns m e = some m') (other : e.slaveId ≠ some id) :
    hbGetStatus m' id = hbGetStatus m id := by
  cases found : slot id with
  | none => simp only [hbGetStatus, found]
  | some i =>
      obtain rfl := slot_eq_some.mp found
      rw [hbGetStatus_slaveIdOf, hbGetStatus_slaveIdOf, hbStep_status h i, if_neg other]

theorem heardOnline_of_meets {nullReturns : Bool} {m : HbMonitor} {es : List HbEvent}
    (offline : ∀ i, (m.slaveHeartbeats i).status = .offline)
    (meets : Meets (hbStep nullReturns) ExpiresUnlessOnline m es) :
    HeardOnline nullReturns m es := by
  intro past start m' run id online
  have heard := (meets.of_prefix start).history
    (I := fun es m => ∀ i, (m.slaveHeartbeats i).status = .online →
      Since (HbEvent.Registers (slaveIdOf i)) (HbEvent.Expires (slaveIdOf i)) es)
    (fun i online => by simp [offline i] at online)
    (fun es t e t' heard ok step => heard_of_step heard ok step) run
  cases found : slot id with
  | none => simp [hbGetStatus, found] at online
  | some i =>
      obtain rfl := slot_eq_some.mp found
      rw [hbGetStatus_slaveIdOf] at online
      exact heard i online

theorem meets_of_heardOnline {nullReturns : Bool} {m : HbMonitor} {es : List HbEvent}
    (heard : HeardOnline nullReturns m es) :
    Meets (hbStep nullReturns) ExpiresUnlessOnline m es := by
  induction es using List.reverseRecOn with
  | nil => trivial
  | append_singleton es e ih =>
      refine meets_concat.mpr ⟨ih fun past start =>
        heard past (start.trans (List.prefix_append es [e])), fun t run => ?_⟩
      cases e with
      | expiry timer =>
          intro active online
          obtain ⟨m', step, still⟩ := online_after_expiry active online
          have since := heard (es ++ [.expiry timer]) List.prefix_rfl m'
            (runList_concat_eq_some.mpr ⟨t, run, step⟩) (slaveIdOf timer) still
          -- the expiry is the last event, and nothing is registered by it
          rcases since_concat.mp since with registered | ⟨-, quiet⟩
          · exact registered
          · exact quiet rfl
      | _ => trivial

/-- Online means recently heard in exactly those runs in which no timer expires
on a slave that is online; the slaves do not disturb each other in any run. -/
theorem online_recently_heard (nullReturns : Bool) (created room : Fin maxSlaves → Bool)
    (es : List HbEvent) :
    (∀ (m m' : HbMonitor) (e : HbEvent) (id : UInt8), hbStep nullReturns m e = some m' →
      e.slaveId ≠ some id → hbGetStatus m' id = hbGetStatus m id) ∧
    (HeardOnline nullReturns (hbInit created room) es ↔
      Meets (hbStep nullReturns) ExpiresUnlessOnline (hbInit created room) es) :=
  ⟨fun _ _ _ _ step other => hbStep_frame step other, meets_of_heardOnline,
    heardOnline_of_meets fun _ => rfl⟩

/-- A heartbeat of the first slave, and then none until its timer expires. -/
def silentSlave : List HbEvent :=
  [.command, .heartbeat 1 true, .command, .command, .command, .expiry ⟨0, by decide⟩]

/-- The callback has logged the missed heartbeat, and the slave is online. -/
theorem silent_slave_online :
    (runList (hbStep false) (hbInit (fun _ => true) (fun _ => true)) silentSlave).any
      (fun m => hbGetStatus m 1 = .online ∧ m.missed = [1]) = true ∧
    ¬Since (HbEvent.Registers 1) (HbEvent.Expires 1) silentSlave ∧
    ¬∀ (nullReturns : Bool) (created room : Fin maxSlaves → Bool) (es : List HbEvent),
      HeardOnline nullReturns (hbInit created room) es := by
  have shown : (runList (hbStep false) (hbInit (fun _ => true) (fun _ => true)) silentSlave).any
      (fun m => hbGetStatus m 1 = .online ∧ m.missed = [1]) = true := by decide +kernel
  have unheard : ¬Since (HbEvent.Registers 1) (HbEvent.Expires 1) silentSlave := by
    intro since
    have split : Since (HbEvent.Registers 1) (HbEvent.Expires 1)
        (silentSlave.dropLast ++ [.expiry ⟨0, by decide⟩]) := since
    rcases since_concat.mp split with registered | ⟨-, quiet⟩
    · exact registered
    · exact quiet rfl
  refine ⟨shown, unheard, fun all => unheard ?_⟩
  obtain ⟨m, run, status⟩ := (Option.any_eq_true _ _).mp shown
  exact all false _ _ silentSlave silentSlave List.prefix_rfl m run 1 (of_decide_eq_true status).1

end Battleship
