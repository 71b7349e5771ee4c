import Battleship.Heartbeat
import Battleship.Radio
import Mathlib.Data.List.Count

/-!
# What the monitor knows of the slaves

A heartbeat timer is a one-shot timer, so each warning of a missed heartbeat uses
up one start of it. In the firmware only `io_receive_task` calls the monitor, for
each frame of type PING it reads, with the pipe the frame came by.
-/
namespace Battleship
open Runs

/-- The handles are those `hb_init` stored, and a timer carries its slave's number. -/
structure HbMonitor.Wired (m : HbMonitor) : Prop where
  hbTimer : ∀ i t, (m.slaveHeartbeats i).hbTimer = some t → t = i
  pingTimer : ∀ i, (m.slaveHeartbeats i).pingTimer = none
  timerId : ∀ t, (m.timers t).timerId = slaveIdOf t

namespace HbMonitor

/-- Starts and resets of a timer that the timer task has yet to carry out. -/
def waiting (m : HbMonitor) (t : TimerHandle) : Nat :=
  m.commands.countP fun c => c.1 = t && c.2.leavesActive

/-- The warnings logged, and those that the starts so far can still lead to. -/
def warnings (m : HbMonitor) (t : TimerHandle) : Nat :=
  m.missed.count (slaveIdOf t) + ((if (m.timers t).active then 1 else 0) + m.waiting t)

theorem Wired.setStatus {m : HbMonitor} (h : m.Wired) (i : Fin maxSlaves) (status : HbStatus) :
    (m.setStatus i status).Wired := by
  have handles : ∀ j, ((m.setStatus i status).slaveHeartbeats j).hbTimer =
      (m.slaveHeartbeats j).hbTimer ∧ ((m.setStatus i status).slaveHeartbeats j).pingTimer =
      (m.slaveHeartbeats j).pingTimer := by
    intro j
    by_cases here : j = i
    · subst here
      simp [HbMonitor.setStatus]
    · simp [HbMonitor.setStatus, here]
  exact ⟨fun j t eq => h.hbTimer j t ((handles j).1.symm.trans eq),
    fun j => (handles j).2.trans (h.pingTimer j), h.timerId⟩

/-- A timer call adds at most one start, and only of the timer it names. -/
theorem timerCommand_warnings {nullReturns : Bool} {m m' : HbMonitor} {handle : Option TimerHandle}
    {command : TimerCommand} {room : Bool}
    (h : m.timerCommand nullReturns handle command room = some m') (t : TimerHandle) :
    m'.timers = m.timers ∧ m'.sent = m.sent ∧ m'.warnings t ≤ m.warnings t +
      (if handle = some t ∧ command.leavesActive = true then 1 else 0) := by
  cases handle with
  | none =>
      cases nullReturns with
      | false => cases h
      | true =>
          cases h
          exact ⟨rfl, rfl, Nat.le_add_right _ _⟩
  | some t' =>
      cases h
      cases room with
      | false => exact ⟨rfl, rfl, Nat.le_add_right _ _⟩
      | true =>
          refine ⟨rfl, rfl, ?_⟩
          by_cases named : t' = t ∧ command.leavesActive = true
          · simp [warnings, waiting, named, Nat.add_assoc]
          · have other : (decide (t' = t) && command.leavesActive) = false := by simpa using named
            simp [warnings, waiting, other]

theorem Wired.timerCommand {nullReturns : Bool} {m m' : HbMonitor} {handle : Option TimerHandle}
    {command : TimerCommand} {room : Bool} (h : m.Wired)
    (called : m.timerCommand nullReturns handle command room = some m') : m'.Wired := by
  have slots := timerCommand_slots called
  have timers : ∀ t, m'.timers = m.timers := fun t => (timerCommand_warnings called t).1
  exact ⟨slots ▸ h.hbTimer, slots ▸ h.pingTimer, fun t => timers t ▸ h.timerId t⟩

end HbMonitor

/-- The slave whose registration an event is. -/
def HbEvent.registered : HbEvent → Option UInt8
  | heartbeat id _ => some id
  | pingResponse id _ _ => some id
  | _ => none

theorem HbEvent.registers_iff {e : HbEvent} {id : UInt8} :
    e.Registers id ↔ e.registered = some id := by
  cases e <;> simp [Registers, registered]

/-- How many of these events register the slave. -/
def registrations (id : UInt8) (es : List HbEvent) : Nat :=
  (es.filterMap HbEvent.registered).count id

theorem registrations_concat (id : UInt8) (es : List HbEvent) (e : HbEvent) :
    registrations id (es ++ [e]) =
      registrations id es + if e.registered = some id then 1 else 0 := by
  rw [registrations, List.filterMap_append, List.count_append]
  cases known : e.registered with
  | none => simp [registrations, known]
  | some id' => simp [registrations, known, List.count_cons]

/-- A registration of slave `i` may start timer `i` once more. -/
theorem hbRegisterHeartbeat_warnings {nullReturns : Bool} {m m' : HbMonitor} {id : UInt8} {room : Bool}
    (wired : m.Wired) (h : hbRegisterHeartbeat nullReturns m id room = some m') (t : TimerHandle) :
    m'.Wired ∧ m'.warnings t ≤ m.warnings t + if some id = some (slaveIdOf t) then 1 else 0 := by
  simp only [hbRegisterHeartbeat, HbMonitor.atSlot] at h
  split at h
  · cases h
    exact ⟨wired, Nat.le_add_right _ _⟩
  · rename_i i found
    have called := (HbMonitor.timerCommand_warnings h t).2.2
    refine ⟨(wired.setStatus i .online).timerCommand h, called.trans (Nat.add_le_add_left ?_ _)⟩
    split
    · rename_i named
      obtain rfl := wired.hbTimer i t named.1
      rw [if_pos (congrArg some (slot_eq_some.mp found))]
    · exact Nat.zero_le _

theorem hbRegisterPingResponse_warnings {nullReturns : Bool} {m m' : HbMonitor} {id : UInt8}
    {roomToStop roomToStart : Bool} (wired : m.Wired)
    (h : hbRegisterPingResponse nullReturns m id roomToStop roomToStart = some m')
    (t : TimerHandle) :
    m'.Wired ∧ m'.warnings t ≤ m.warnings t + if some id = some (slaveIdOf t) then 1 else 0 := by
  simp only [hbRegisterPingResponse, HbMonitor.atSlot] at h
  split at h
  · cases h
    exact ⟨wired, Nat.le_add_right _ _⟩
  · rename_i i found
    obtain ⟨stopped, stop, start⟩ := Option.bind_eq_some_iff.mp h
    have first := (HbMonitor.timerCommand_warnings stop t).2.2
    have second := (HbMonitor.timerCommand_warnings start t).2.2
    have dormant : ¬((m.slaveHeartbeats i).hbTimer = some t ∧
        TimerCommand.stop.leavesActive = true) := fun both => Bool.false_ne_true both.2
    rw [if_neg dormant] at first
    have wired' := (wired.setStatus i .online).timerCommand stop
    refine ⟨wired'.timerCommand start, second.trans (Nat.add_le_add first ?_)⟩
    split
    · rename_i named
      obtain rfl := wired'.hbTimer i t named.1
      rw [if_pos (congrArg some (slot_eq_some.mp found))]
    · exact Nat.zero_le _

/-- A ping starts no timer, for there is none to start. -/
theorem hbSendPing_warnings {nullReturns : Bool} {m m' : HbMonitor} {id : UInt8} {room : Bool}
    (wired : m.Wired) (h : hbSendPing nullReturns m id room = some m') (t : TimerHandle) :
    m'.Wired ∧ m'.warnings t ≤ m.warnings t := by
  simp only [hbSendPing, HbMonitor.atSlot] at h
  split at h
  · cases h
    exact ⟨wired, le_rfl⟩
  · rename_i i found
    rw [wired.pingTimer i] at h
    have queued : (m.enqueueSend (pingMessage id)).Wired ∧
        (m.enqueueSend (pingMessage id)).warnings t = m.warnings t := by
      unfold HbMonitor.enqueueSend
      split
      · exact ⟨⟨wired.hbTimer, wired.pingTimer, wired.timerId⟩, rfl⟩
      · exact ⟨wired, rfl⟩
    have called := (HbMonitor.timerCommand_warnings h t).2.2
    rw [if_neg (by simp)] at called
    exact ⟨(queued.1.setStatus i .pinging).timerCommand h, called.trans queued.2.le⟩

/-- A start carried out makes the timer run, a running timer expires once. -/
theorem processCommand_warnings {m m' : HbMonitor} (wired : m.Wired) (h : processCommand m = some m')
    (t : TimerHandle) : m'.Wired ∧ m'.warnings t ≤ m.warnings t := by
  unfold processCommand at h
  split at h
  · cases h
  · rename_i t' command rest commands
    cases h
    refine ⟨⟨wired.hbTimer, wired.pingTimer, fun u => ?_⟩, ?_⟩
    · by_cases here : u = t'
      · subst here
        simpa [HbMonitor.setActive] using wired.timerId u
      · simpa [HbMonitor.setActive, here] using wired.timerId u
    · by_cases here : t = t'
      · subst here
        cases starts : command.leavesActive with
        | false =>
            simp [HbMonitor.warnings, HbMonitor.waiting, HbMonitor.setActive, commands, starts]
        | true =>
            simp [HbMonitor.warnings, HbMonitor.waiting, HbMonitor.setActive, commands, starts]
            omega
      · have other : ¬t' = t := fun eq => here eq.symm
        simp [HbMonitor.warnings, HbMonitor.waiting, HbMonitor.setActive, commands, here, other]

theorem expire_warnings {m m' : HbMonitor} {t' : TimerHandle} (wired : m.Wired)
    (h : expire m t' = some m') (t : TimerHandle) : m'.Wired ∧ m'.warnings t ≤ m.warnings t := by
  unfold expire at h
  split at h
  · rename_i active
    cases h
    refine ⟨⟨wired.hbTimer, wired.pingTimer, fun u => ?_⟩, ?_⟩
    · by_cases here : u = t'
      · subst here
        simpa [HbMonitor.setActive, hbTimeoutCallback] using wired.timerId u
      · simpa [HbMonitor.setActive, hbTimeoutCallback, here] using wired.timerId u
    · by_cases here : t = t'
      · subst here
        simp [HbMonitor.warnings, HbMonitor.waiting, HbMonitor.setActive, hbTimeoutCallback, active,
          wired.timerId]
        omega
      · have other : ¬slaveIdOf t' = slaveIdOf t := fun eq => here (slaveIdOf_inj.mp eq).symm
        simp [HbMonitor.warnings, HbMonitor.waiting, HbMonitor.setActive, hbTimeoutCallback, here,
          wired.timerId, other]
  · cases h

/-- A step may start the timer of the slave it registers, and starts no other. -/
theorem hbStep_warnings {nullReturns : Bool} {m m' : HbMonitor} {e : HbEvent} (wired : m.Wired)
    (h : hbStep nullReturns m e = some m') (t : TimerHandle) :
    m'.Wired ∧ m'.warnings t ≤ m.warnings t + if e.registered = some (slaveIdOf t) then 1 else 0 := by
  cases e with
  | heartbeat id room => exact hbRegisterHeartbeat_warnings wired h t
  | pingResponse id roomToStop roomToStart => exact hbRegisterPingResponse_warnings wired h t
  | sendPing id room => exact hbSendPing_warnings wired h t
  | markOffline id =>
      simp only [hbStep, hbMarkOffline, HbMonitor.atSlot] at h
      split at h
      · cases h
        exact ⟨wired, le_rfl⟩
      · rename_i i found
        cases h
        exact ⟨wired.setStatus i .offline, le_rfl⟩
  | command => exact processCommand_warnings wired h t
  | expiry t' => exact expire_warnings wired h t

theorem hbInit_wired (created room : Fin maxSlaves → Bool) : (hbInit created room).Wired where
  hbTimer i t h := by
    simp only [hbInit] at h
    split at h
    · exact (Option.some.inj h).symm
    · cases h
  pingTimer _ := rfl
  timerId _ := rfl

theorem hbInit_warnings (created room : Fin maxSlaves → Bool) (t : TimerHandle) :
    (hbInit created room).warnings t ≤ 1 := by
  have once : ((List.finRange maxSlaves).map (fun i => (i, TimerCommand.start))).countP
      (fun c => c.1 = t && c.2.leavesActive) = 1 := by
    revert t
    decide
  have some_of_all : (hbInit created room).waiting t ≤ 1 := by
    rw [← once]
    exact (List.Sublist.map _ List.filter_sublist).countP_le
  have silent : (hbInit created room).warnings t = (hbInit created room).waiting t := by
    simp [HbMonitor.warnings, hbInit]
  exact silent.le.trans some_of_all

theorem run_warnings {nullReturns : Bool} {created room : Fin maxSlaves → Bool} {es : List HbEvent}
    {m : HbMonitor} (run : runList (hbStep nullReturns) (hbInit created room) es = some m)
    (i : Fin maxSlaves) : m.warnings i ≤ 1 + registrations (slaveIdOf i) es := by
  have account := (meets_true (hbStep nullReturns) (hbInit created room) es).history
    (I := fun es m => m.Wired ∧ m.warnings i ≤ 1 + registrations (slaveIdOf i) es)
    ⟨hbInit_wired created room, hbInit_warnings created room i⟩
    (fun es m e m' ih _ step => by
      obtain ⟨wired, more⟩ := hbStep_warnings ih.1 step i
      refine ⟨wired, more.trans ?_⟩
      rw [registrations_concat, ← Nat.add_assoc]
      exact Nat.add_le_add_right ih.2 _) run
  exact account.2

/-- In any run a slave has at most one warning more than it has registrations. -/
theorem missed_le_registrations (nullReturns : Bool) (created room : Fin maxSlaves → Bool)
    {es : List HbEvent} {m : HbMonitor}
    (run : runList (hbStep nullReturns) (hbInit created room) es = some m) (i : Fin maxSlaves) :
    m.missed.count (slaveIdOf i) ≤ 1 + registrations (slaveIdOf i) es :=
  (Nat.le_add_right _ _).trans (run_warnings run i)

/-- A slave that is heard once and then no more is warned of once. -/
theorem missed_le_registrations_silent :
    ∃ m : HbMonitor, m.missed.count (slaveIdOf ⟨0, by decide⟩) = 1 ∧
      m.missed.count (slaveIdOf ⟨0, by decide⟩) ≤
        1 + registrations (slaveIdOf ⟨0, by decide⟩) silentSlave := by
  have run : (runList (hbStep false) (hbInit (fun _ => true) (fun _ => true)) silentSlave).any
      (fun m => decide (m.missed.count (slaveIdOf ⟨0, by decide⟩) = 1)) = true := by decide +kernel
  obtain ⟨m, run, once⟩ := (Option.any_eq_true _ _).mp run
  exact ⟨m, of_decide_eq_true once, missed_le_registrations false _ _ run _⟩

/-- The slave a PING frame was read from. -/
def RadioOut.pinged : RadioOut → Option UInt8
  | .ping slaveId _ => some slaveId
  | _ => none

/-- The slaves whose PING frames have been read, in order. -/
def Firmware.pinged (s : Firmware) : List UInt8 := s.radioLog.filterMap RadioOut.pinged

structure Monitored where
  fw : Firmware
  hb : HbMonitor

/-- A step of the firmware, with the room its timer calls find, or one of the
timer task. -/
inductive MonitoredAct where
  | firmware (a : Act) (roomToStop roomToStart : Bool)
  | command
  | expiry (t : TimerHandle)

namespace Monitored

/-- `io_receive_task` registers the pings it logs. -/
def step (nullReturns : Bool) (lim : Limits) (w : Monitored) : MonitoredAct → Option Monitored
  | .firmware a roomToStop roomToStart => do
      let fw ← w.fw.step lim a
      let hb ← (fw.pinged.drop w.fw.pinged.length).foldlM
        (fun m id => hbRegisterPingResponse nullReturns m id roomToStop roomToStart) w.hb
      return ⟨fw, hb⟩
  | .command => (processCommand w.hb).map fun hb => { w with hb := hb }
  | .expiry t => (expire w.hb t).map fun hb => { w with hb := hb }

structure Start (lim : Limits) (created room : Fin maxSlaves → Bool) (w : Monitored) : Prop where
  fw : Firmware.Start lim w.fw
  hb : w.hb = hbInit created room

end Monitored

theorem step_radioLog {lim : Limits} {s s' : Firmware} {a : Act} (h : s.step lim a = some s') :
    ∃ out, s'.radioLog = s.radioLog ++ out := by
  cases a with
  | game => exact ⟨[], by rw [(Firmware.stepGame_keepsRadio h).radioLog, List.append_nil]⟩
  | httpd => exact ⟨[], by rw [(Firmware.stepHttpd_keepsRadio h).radioLog, List.append_nil]⟩
  | request r => exact ⟨[], by rw [(Firmware.request_keepsRadio h).radioLog, List.append_nil]⟩
  | sender =>
      obtain ⟨c, k, a, s₁, -, answered, rfl⟩ := Firmware.stepSender_cases h
      exact ⟨_, congrArg (fun log => log ++ _) (Firmware.answerRadio_keeps answered).2⟩
  | receiver =>
      simp only [Firmware.step, Firmware.stepReceiver] at h
      split at h
      · obtain ⟨⟨a, s₁⟩, answered, rfl⟩ := Option.map_eq_some_iff.mp h
        rw [Firmware.settleRadio_eq]
        exact ⟨_, congrArg (fun log => log ++ _) (Firmware.answerRadio_keeps answered).2⟩
      · cases h
  | frameArrives pipe f =>
      cases h
      exact ⟨[], (List.append_nil _).symm⟩
  | sendFlag success =>
      cases h
      exact ⟨[], (List.append_nil _).symm⟩

theorem step_pinged {lim : Limits} {s s' : Firmware} {a : Act} (h : s.step lim a = some s') :
    s'.pinged = s.pinged ++ s'.pinged.drop s.pinged.length := by
  obtain ⟨out, radioLog⟩ := step_radioLog h
  have longer : s'.pinged = s.pinged ++ out.filterMap RadioOut.pinged := by
    rw [Firmware.pinged, radioLog, List.filterMap_append]
    rfl
  rw [longer, List.drop_left]

/-- Registering a list of slaves is a run of the monitor. -/
theorem runList_pingResponses (nullReturns roomToStop roomToStart : Bool) (m : HbMonitor)
    (ids : List UInt8) :
    runList (hbStep nullReturns) m (ids.map fun id => .pingResponse id roomToStop roomToStart) =
      ids.foldlM (fun m id => hbRegisterPingResponse nullReturns m id roomToStop roomToStart) m := by
  induction ids generalizing m with
  | nil => rfl
  | cons id ids ih =>
      rw [List.map_cons, List.foldlM_cons, runList]
      exact congrArg _ (funext ih)

theorem filterMap_pingResponses (roomToStop roomToStart : Bool) (ids : List UInt8) :
    (ids.map fun id => HbEvent.pingResponse id roomToStop roomToStart).filterMap
      HbEvent.registered = ids := by
  induction ids with
  | nil => rfl
  | cons id ids ih => rw [List.map_cons, List.filterMap_cons, HbEvent.registered, ih]

/-- Neither a ping nor a mark. -/
def HbEvent.Passive (e : HbEvent) : Prop := ∀ id, ¬e.Clears id

/-- A passive step sends nothing and leaves no slave pinging. -/
theorem hbStep_passive {nullReturns : Bool} {m m' : HbMonitor} {e : HbEvent} (passive : e.Passive)
    (h : hbStep nullReturns m e = some m') : m'.sent = m.sent ∧
      ∀ i, (m.slaveHeartbeats i).status ≠ .pinging → (m'.slaveHeartbeats i).status ≠ .pinging := by
  have sent : m'.sent = m.sent := by
    cases e with
    | heartbeat id room =>
        simp only [hbStep, hbRegisterHeartbeat, HbMonitor.atSlot] at h
        split at h
        · cases h
          rfl
        · rename_i i found
          exact (HbMonitor.timerCommand_warnings h i).2.1
    | pingResponse id roomToStop roomToStart =>
        simp only [hbStep, hbRegisterPingResponse, HbMonitor.atSlot] at h
        split at h
        · cases h
          rfl
        · rename_i i found
          obtain ⟨stopped, stop, start⟩ := Option.bind_eq_some_iff.mp h
          exact (HbMonitor.timerCommand_warnings start i).2.1.trans
            (HbMonitor.timerCommand_warnings stop i).2.1
    | sendPing id room => exact absurd rfl (passive id)
    | markOffline id => exact absurd rfl (passive id)
    | command =>
        simp only [hbStep, processCommand] at h
        split at h
        · cases h
        · cases h
          rfl
    | expiry t =>
        simp only [hbStep, expire] at h
        split at h
        · cases h
          rfl
        · cases h
  refine ⟨sent, fun i before => ?_⟩
  rw [hbStep_status h i]
  split
  · cases e with
    | sendPing id room => exact absurd rfl (passive id)
    | markOffline id => exact absurd rfl (passive id)
    | heartbeat id room => simp [HbEvent.sets]
    | pingResponse id roomToStop roomToStart => simp [HbEvent.sets]
    | command => exact before
    | expiry t => exact before
  · exact before

namespace Monitored
variable {nullReturns : Bool} {created room : Fin maxSlaves → Bool} {lim : Limits}
  {w w' : Monitored}

/-- The monitor has run on these events, and they register what the radio logged. -/
structure Follows (nullReturns : Bool) (created room : Fin maxSlaves → Bool) (w : Monitored)
    (es : List HbEvent) : Prop where
  run : runList (hbStep nullReturns) (hbInit created room) es = some w.hb
  registered : es.filterMap HbEvent.registered = w.fw.pinged
  passive : ∀ e ∈ es, e.Passive

theorem Follows.step {a : MonitoredAct} {es : List HbEvent}
    (h : w.Follows nullReturns created room es) (hstep : w.step nullReturns lim a = some w') :
    ∃ es', w'.Follows nullReturns created room es' := by
  cases a with
  | firmware a roomToStop roomToStart =>
      obtain ⟨fw, moved, rest⟩ := Option.bind_eq_some_iff.mp hstep
      obtain ⟨hb, answered, eq⟩ := Option.bind_eq_some_iff.mp rest
      cases eq
      refine ⟨es ++ (fw.pinged.drop w.fw.pinged.length).map
        fun id => .pingResponse id roomToStop roomToStart, ?_, ?_, ?_⟩
      · rw [runList_append, h.run, Option.bind_some, runList_pingResponses]
        exact answered
      · rw [List.filterMap_append, h.registered, filterMap_pingResponses]
        exact (step_pinged moved).symm
      · intro e member
        rcases List.mem_append.mp member with before | now
        · exact h.passive e before
        · obtain ⟨id, -, rfl⟩ := List.mem_map.mp now
          exact fun _ clears => clears
  | command =>
      obtain ⟨hb, processed, rfl⟩ := Option.map_eq_some_iff.mp hstep
      have last : hbStep nullReturns w.hb .command = some hb := processed
      refine ⟨es ++ [.command], runList_concat_eq_some.mpr ⟨w.hb, h.run, last⟩, ?_, ?_⟩
      · rw [List.filterMap_append, h.registered]
        exact List.append_nil _
      · intro e member
        rcases List.mem_append.mp member with before | now
        · exact h.passive e before
        · rw [List.mem_singleton.mp now]
          exact fun _ clears => clears
  | expiry t =>
      obtain ⟨hb, expired, rfl⟩ := Option.map_eq_some_iff.mp hstep
      have last : hbStep nullReturns w.hb (.expiry t) = some hb := expired
      refine ⟨es ++ [.expiry t], runList_concat_eq_some.mpr ⟨w.hb, h.run, last⟩, ?_, ?_⟩
      · rw [List.filterMap_append, h.registered]
        exact List.append_nil _
      · intro e member
        rcases List.mem_append.mp member with before | now
        · exact h.passive e before
        · rw [List.mem_singleton.mp now]
          exact fun _ clears => clears

theorem Start.follows (h : Start lim created room w) : w.Follows nullReturns created room [] where
  run := by rw [h.hb, runList]
  registered := by
    rw [Firmware.pinged, h.fw.radioLog]
    rfl
  passive _ member := absurd member List.not_mem_nil

/-- What the monitor makes of the PING frames read. -/
structure Recorded (w : Monitored) : Prop where
  status : ∀ id, hbGetStatus w.hb id =
    if (1 ≤ id.toNat ∧ id.toNat ≤ maxSlaves) ∧ id ∈ w.fw.pinged then .online else .offline
  warned : ∀ i, w.hb.missed.count (slaveIdOf i) ≤ 1 + w.fw.pinged.count (slaveIdOf i)
  sent : w.hb.sent = []

theorem Follows.status {es : List HbEvent} (h : w.Follows nullReturns created room es)
    (i : Fin maxSlaves) : (w.hb.slaveHeartbeats i).status =
      if slaveIdOf i ∈ w.fw.pinged then .online else .offline := by
  have online : (w.hb.slaveHeartbeats i).status = .online ↔ slaveIdOf i ∈ w.fw.pinged := by
    rw [online_iff_since (fun _ => rfl) h.run i,
      since_of_never fun e member => h.passive e member (slaveIdOf i), ← h.registered,
      List.mem_filterMap]
    simp only [HbEvent.registers_iff]
  have quiet := (meets_of_forall (hbStep nullReturns) (s := hbInit created room) h.passive).history
    (I := fun _ m => (m.slaveHeartbeats i).status ≠ .pinging) (by simp [hbInit])
    (fun _ _ _ _ before passive step => (hbStep_passive passive step).2 i before) h.run
  split
  · rename_i heard
    exact online.mpr heard
  · rename_i unheard
    cases status : (w.hb.slaveHeartbeats i).status with
    | offline => rfl
    | online => exact absurd (online.mp status) unheard
    | pinging => exact absurd status quiet

theorem Follows.recorded {es : List HbEvent} (h : w.Follows nullReturns created room es) :
    w.Recorded := by
  refine ⟨fun id => ?_, fun i => ?_, ?_⟩
  · by_cases inside : 1 ≤ id.toNat ∧ id.toNat ≤ maxSlaves
    · have found : slot id = some ⟨id.toNat - 1, by omega⟩ := dif_pos inside
      rw [slot_eq_some.mp found, hbGetStatus_slaveIdOf, h.status]
      simp only [← slot_eq_some.mp found, inside, and_self, true_and]
    · have outside : slot id = none := dif_neg inside
      rw [hbGetStatus, outside, if_neg fun both => inside both.1]
  · have bound := (Nat.le_add_right _ _).trans (run_warnings h.run i)
    rwa [registrations, h.registered] at bound
  · exact (meets_of_forall (hbStep nullReturns) (s := hbInit created room) h.passive).history
      (I := fun _ m => m.sent = []) rfl
      (fun _ _ _ _ before passive step => (hbStep_passive passive step).1.trans before) h.run

/-- In every run of the firmware, its chip and its timers, a slave with a slot is
online from its first PING frame on, a slave without one never is, no ping is ever
sent, and a slave is warned of once more than it has been heard at most. -/
theorem pings_recorded
    (h : Reaches (step nullReturns lim) (fun _ _ => True) (Start lim created room) w) :
    w.Recorded := by
  have follows : ∃ es, w.Follows nullReturns created room es := by
    apply h.invariant
    · exact fun v start => ⟨[], start.follows⟩
    · rintro v a v' ⟨es, ih⟩ - hstep
      exact ih.step hstep
  obtain ⟨es, follows⟩ := follows
  exact follows.recorded

/-- A PING frame of the first slave, read by the receive task. -/
def pingRun : List MonitoredAct :=
  .firmware (.frameArrives 1 (frameOf (pingMessage 1))) true true ::
    List.replicate 5 (.firmware .receiver true true)

theorem pings_recorded_first : ∃ w : Monitored, w.fw.pinged = [1] ∧ w.Recorded := by
  have start : Start ⟨0, none⟩ (fun _ => true) (fun _ => true)
      ⟨Firmware.boot ⟨0, none⟩, hbInit (fun _ => true) (fun _ => true)⟩ :=
    ⟨Firmware.boot_start _, rfl⟩
  have run : (runList (step false ⟨0, none⟩)
      ⟨Firmware.boot ⟨0, none⟩, hbInit (fun _ => true) (fun _ => true)⟩ pingRun).any
      (fun w => decide (w.fw.pinged = [1])) = true := by decide +kernel
  obtain ⟨w, reached, pinged⟩ := exists_reaches start run
  exact ⟨w, of_decide_eq_true pinged, pings_recorded reached⟩

end Monitored
end Battleship
