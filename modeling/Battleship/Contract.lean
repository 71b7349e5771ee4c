import Battleship.Effects
import Battleship.Phases
import Battleship.Lib.Runs

/-!
# Contracts of the game task

What the game task may rely on while it waits, what it promises at its calls,
and what it finds at the head of its loop, given the part of the log that counts.
A contract that every iteration keeps holds in every run, whatever the handlers and
the radio do in between.
-/
namespace Battleship
open Cooperative Runs

/-- `rely` bounds what the others do to the memory while the task waits, `serve`
what one action of a handler does. `counts` picks the log entries that the promises are
about. -/
structure Contract where
  rely : Mem → Mem → Prop
  serve : Mem → Mem → Prop
  counts : Out → Bool
  guar : List Out → Call → Mem → Prop
  home : List Out → Mem → Prop

namespace Contract
variable (C : Contract)

/-- The entries of a trace that count. -/
def told (l : List (Out ⊕ Call)) : List Out := (l.filterMap Sum.getLeft?).filter C.counts

@[simp] theorem told_nil : C.told [] = [] := rfl

theorem told_append (l l' : List (Out ⊕ Call)) : C.told (l ++ l') = C.told l ++ C.told l' := by
  rw [told, List.filterMap_append, List.filter_append]
  rfl

theorem told_logged (new : List Out) : C.told (new.map .inl) = new.filter C.counts := by
  rw [told, List.filterMap_map]
  congr 1
  exact List.filterMap_some

theorem told_call (c : Call) : C.told [.inr c] = [] := rfl

abbrev env : Prog.Env Mem Call Call.Ans := fun _ m _ m' => C.rely m m'

abbrev promise (past : List Out) : Prog.Guar Mem Out Call :=
  fun c m l => C.guar (past ++ C.told l) c m

/-- A game program run under the contract after this past: `Q` says what it returns,
the memory and the past it leaves. -/
abbrev runs {α : Type} (past : List Out) (t : GameTask α) (Q : α → Mem → List Out → Prop)
    (m : Mem) (l : List (Out ⊕ Call)) : Prop :=
  Prog.wlp C.env (C.promise past) t (fun a m l => Q a m (past ++ C.told l)) m l

/-- The moves of the others compose, disturb neither promise and log nothing that
counts; an iteration that starts at home ends there. -/
structure Kept (lim : Limits) (Meets : Firmware → Act → Prop) : Prop where
  refl : ∀ m, C.rely m m
  trans : ∀ {m m' m''}, C.rely m m' → C.rely m' m'' → C.rely m m''
  guar : ∀ {past m m'} c, C.rely m m' → C.guar past c m → C.guar past c m'
  home : ∀ {past m m'}, C.rely m m' → C.home past m → C.home past m'
  handles : ∀ r, Prog.Always (fun m r => C.serve m r.1 ∧ ∀ o ∈ r.2, C.counts o = false) (handle r)
  serves : ∀ {s s' : Firmware}, Meets s .httpd → s.step lim .httpd = some s' →
    C.serve s.mem s'.mem → C.rely s.mem s'.mem
  start : ∀ {s : Firmware}, s.Start lim → C.home [] s.mem
  iteration : ∀ {s : Firmware} {past : List Out}, Meets s .game → s.AtHead → C.home past s.mem →
    C.runs (past ++ [.dispatch s.mem.game.state].filter C.counts)
      (gameSwitch lim s.mem.game.state)
      (fun _ m past => C.runs past loopTail (fun _ m past => C.home past m) m []) s.mem []

/-- The invariant: the handler at work serves, and the rest of the iteration leads
home. -/
structure Invariant (s : Firmware) : Prop where
  httpd : ∀ t, s.httpd = some t →
    Prog.Always (fun m r => C.serve m r.1 ∧ ∀ o ∈ r.2, C.counts o = false) t
  holds : ∃ past l, s.log.filter C.counts = past ++ C.told l ∧
    s.Holds C.env (C.promise past) (fun m l => C.home (past ++ C.told l) m) l

variable {C}

/-- A trace so far is a past. -/
theorem runs_past {α : Type} {past : List Out} {t : GameTask α} {Q : α → Mem → List Out → Prop}
    {m : Mem} {l : List (Out ⊕ Call)} (h : C.runs (past ++ C.told l) t Q m []) :
    C.runs past t Q m l := by
  suffices general : ∀ l' : List (Out ⊕ Call), C.runs (past ++ C.told l) t Q m l' →
      C.runs past t Q m (l ++ l') by simpa using general [] h
  intro l' run
  have moved : ∀ l' : List (Out ⊕ Call),
      past ++ C.told l ++ C.told l' = past ++ C.told (l ++ l') := fun l' => by
    rw [told_append, List.append_assoc]
  clear h
  induction t generalizing m l' with
  | ret a =>
      have ended : Q a m (past ++ C.told l ++ C.told l') := run
      rw [moved] at ended
      exact ended
  | undefined => trivial
  | starved => trivial
  | step f k ih =>
      have later := ih m _ run
      rw [← List.append_assoc] at later
      exact later
  | call c k ih =>
      obtain ⟨now, later⟩ := run
      refine ⟨?_, fun a m' relied => ?_⟩
      · have promised : C.guar (past ++ C.told l ++ C.told l') c m := now
        rw [moved] at promised
        exact promised
      · have after := ih a _ (later a m' relied)
        rw [← List.append_assoc] at after
        exact after

namespace Kept
variable {lim : Limits} {Meets : Firmware → Act → Prop} {s s' : Firmware}
  (kept : C.Kept lim Meets)
include kept

theorem start_invariant (start : s.Start lim) : C.Invariant s := by
  refine ⟨by simp [start.httpd], [], [], by simp [start.log], ?_, ?_⟩
  · rw [start.game]
    simp [Firmware.Settled]
  · rw [start.game]
    exact kept.start start

theorem game_step (h : C.Invariant s) (ok : Meets s .game) (hstep : s.stepGame lim = some s') :
    C.Invariant s' := by
  obtain ⟨past, l, log, holds⟩ := h.holds
  refine ⟨Firmware.stepGame_httpd hstep ▸ h.httpd, ?_⟩
  rcases holds.stepGame hstep (fun _ _ _ _ => kept.refl _) with
    ⟨head, rfl⟩ | ⟨c, new, -, holds', log'⟩
  · have iteration := kept.iteration ok head (holds.head head)
    have runs := Prog.wlp_mono (fun _ _ _ tail => runs_past tail) iteration
    obtain ⟨new, holds', log'⟩ := Firmware.dispatch_holds runs
    refine ⟨_, _, ?_, holds'⟩
    rw [log', List.append_cons, List.filter_append, List.filter_append, log, told_logged]
  · refine ⟨past, _, ?_, holds'⟩
    rw [log', List.filter_append, log, List.append_assoc, told_append,
      ← List.singleton_append, told_append, told_call, told_logged]
    rfl

/-- What the others do within their bounds disturbs nothing. -/
theorem moved (h : C.Invariant s) (game : s'.game = s.game) (rely : C.rely s.mem s'.mem)
    (log : s'.log.filter C.counts = s.log.filter C.counts)
    (httpd : ∀ t, s'.httpd = some t →
      Prog.Always (fun m r => C.serve m r.1 ∧ ∀ o ∈ r.2, C.counts o = false) t) :
    C.Invariant s' := by
  obtain ⟨past, l, eq, holds⟩ := h.holds
  exact ⟨httpd, past, l, log.trans eq, holds.moved game (fun c => kept.guar c rely)
    (kept.home rely) fun _ _ _ later => kept.trans rely later⟩

theorem httpd_step (h : C.Invariant s) (ok : Meets s .httpd) (hstep : s.stepHttpd = some s') :
    C.Invariant s' := by
  have serves := kept.serves ok hstep
  have game := Firmware.stepHttpd_game hstep
  unfold Firmware.stepHttpd at hstep
  split at hstep
  · cases hstep
    exact kept.moved h rfl (kept.refl _) rfl (by simp)
  · rename_i f k running
    cases hstep
    obtain ⟨⟨now, uncounted⟩, later⟩ := h.httpd _ running s.mem
    refine kept.moved h game (serves now) ?_ fun t eq => ?_
    · have none_counts : ((f s.mem).2.filter C.counts) = [] :=
        List.filter_eq_nil_iff.mpr fun o member => by simp [uncounted o member]
      simp only [List.filter_append, none_counts, List.append_nil]
    · cases eq
      exact later
  · rename_i c k running
    obtain ⟨⟨a, s₁⟩, answered, rfl⟩ := Option.map_eq_some_iff.mp hstep
    have keeps := Firmware.answerGame_keeps answered
    refine kept.moved h game (keeps.mem ▸ kept.refl _) ?_ fun t eq => ?_
    · exact congrArg (List.filter C.counts) keeps.log
    · cases eq
      exact h.httpd _ running a
  · cases hstep

theorem step {a : Act} (h : C.Invariant s) (ok : Meets s a)
    (hstep : s.step lim a = some s') : C.Invariant s' := by
  cases a with
  | game => exact kept.game_step h ok hstep
  | httpd => exact kept.httpd_step h ok hstep
  | request r =>
      simp only [Firmware.step] at hstep
      split at hstep
      · cases hstep
        refine kept.moved h rfl (kept.refl _) rfl fun t eq => ?_
        cases eq
        exact kept.handles r
      · cases hstep
  | _ =>
      have keeps := Firmware.step_keepsGame hstep (by simp) (by simp) (by simp)
      exact kept.moved h keeps.game (keeps.mem ▸ kept.refl _) (by rw [keeps.log])
        (keeps.httpd ▸ h.httpd)

/-- In every run the promises hold at the calls, and home is home. -/
theorem holds (h : Reaches (Firmware.step lim) Meets (Firmware.Start lim) s) :
    (s.AtHead → C.home (s.log.filter C.counts) s.mem) ∧
    ∀ c, s.rest.pending = some c → C.guar (s.log.filter C.counts) c s.mem := by
  have invariant : C.Invariant s := h.invariant (fun _ => kept.start_invariant)
    fun _ _ _ before ok hstep => kept.step before ok hstep
  obtain ⟨past, l, log, holds⟩ := invariant.holds
  rw [log]
  exact ⟨holds.head, fun c at_call => holds.at_call at_call⟩

end Kept
end Contract
end Battleship
