import Battleship.Audience
import Battleship.Presses
import Battleship.Requests
import Battleship.Serial
import Battleship.Lib.Sightings

/-!
# The game after a restart

`Game_Init` and `engine_restart` clear everything the game task keeps. The queue of
received messages they leave as it is.
-/
namespace Battleship
open Cooperative Runs

/-- The message a call puts into the receive queue. -/
def RadioCall.put : RadioCall → Option IoMessage
  | .putMessage m => some m
  | _ => none

/-- What a call leaves of the receive queue. -/
def Call.leftOf : Call → List IoMessage → List IoMessage
  | .queueReceive, queue => queue.tail
  | _, queue => queue

/-- What is done to the game: a step of its task or of a handler, a request, or a
message that comes in. -/
inductive Moment where
  | game
  | httpd
  | request (r : Request)
  | message (msg : IoMessage)

def Moment.received : Moment → Option IoMessage
  | .message msg => some msg
  | _ => none

namespace Firmware
variable {lim : Limits} {s s' s₁ s₂ s₁' s₂' : Firmware} {p : RecvPoint} {a : Act}

/-- The message that this step puts into the receive queue. -/
def arrival (s : Firmware) : Act → Option IoMessage
  | .receiver => s.receiver.pending.bind RadioCall.put
  | _ => none

/-- This step takes a message off the receive queue. -/
def Takes (s : Firmware) (a : Act) : Prop :=
  s.answered a = some .queueReceive ∧ s.receiveQueue ≠ []

/-- GAME_RESTART has been dispatched with an empty receive queue; since then no message
has been taken off it, and these have been put there. -/
inductive SinceRestart (lim : Limits) : List IoMessage → Firmware → Prop
  | restart {s : Firmware} : Reaches (Firmware.step lim) (fun _ _ => True) (Start lim) s →
      s.AtHead → s.mem.game.state = .gameRestart → s.receiveQueue = [] → SinceRestart lim [] s
  | next {puts : List IoMessage} {s s' : Firmware} {a : Act} : SinceRestart lim puts s →
      ¬s.Takes a → s.step lim a = some s' → SinceRestart lim (puts ++ (s.arrival a).toList) s'

/-- `Game_Init` is about to run, and no request is being served. -/
structure Renewed (lim : Limits) (puts : List IoMessage) (s : Firmware) : Prop where
  since : SinceRestart lim puts s
  head : s.AtHead
  state : s.mem.game.state = .init
  free : s.httpd = none

theorem answerGame_receiveQueue {c : Call} {a : c.Ans} (h : s.answerGame c = some (a, s₁)) :
    s₁.receiveQueue = c.leftOf s.receiveQueue := by
  cases c with
  | queueSend m =>
      simp only [answerGame] at h
      split at h
      · cases h
        rfl
      · cases h
  | queueReceive =>
      simp only [answerGame] at h
      split at h
      · rename_i empty
        cases h
        rw [empty]
        rfl
      · rename_i msg rest queue
        cases h
        rw [queue]
        rfl
  | delay ms =>
      cases h
      rfl

theorem leftOf_untaken {c : Call} {queue : List IoMessage}
    (untaken : ¬(some c = some .queueReceive ∧ queue ≠ [])) : c.leftOf queue = queue := by
  cases c with
  | queueReceive =>
      have empty : queue = [] := not_not.mp fun waits => untaken ⟨rfl, waits⟩
      rw [empty]
      rfl
  | _ => rfl

theorem stepGame_receiveQueue (h : s.stepGame lim = some s') (untaken : ¬s.Takes .game) :
    s'.receiveQueue = s.receiveQueue := by
  unfold stepGame at h
  split at h
  · cases h
    exact inSwitch_receiveQueue _ _
  · rename_i c k tail
    obtain ⟨⟨a, s₁⟩, answered, rfl⟩ := Option.map_eq_some_iff.mp h
    refine (answerGame_receiveQueue answered).trans (leftOf_untaken ?_)
    rwa [Takes, Firmware.answered, rest, tail, Prog.pending_call] at untaken
  · rename_i c k case
    obtain ⟨⟨a, s₁⟩, answered, rfl⟩ := Option.map_eq_some_iff.mp h
    refine (inSwitch_receiveQueue _ _).trans
      ((answerGame_receiveQueue answered).trans (leftOf_untaken ?_))
    rwa [Takes, Firmware.answered, rest, case, Prog.pending_call] at untaken
  · cases h

theorem stepHttpd_receiveQueue (h : s.stepHttpd = some s') (untaken : ¬s.Takes .httpd) :
    s'.receiveQueue = s.receiveQueue := by
  unfold stepHttpd at h
  split at h
  · cases h
    rfl
  · cases h
    rfl
  · rename_i c k at_call
    obtain ⟨⟨a, s₁⟩, answered, rfl⟩ := Option.map_eq_some_iff.mp h
    refine (answerGame_receiveQueue answered).trans (leftOf_untaken ?_)
    rwa [Takes, Firmware.answered, at_call, Option.bind_some, Prog.pending_call] at untaken
  · cases h

theorem answerRadio_receiveQueue {who : Holder} {c : RadioCall} {r : c.Ans × Firmware}
    (h : s.answerRadio who c = some r) : r.2.receiveQueue = s.receiveQueue ++ c.put.toList := by
  have none (same : r.2.receiveQueue = s.receiveQueue) (put : c.put = none) :
      r.2.receiveQueue = s.receiveQueue ++ c.put.toList := by
    rw [same, put, Option.toList_none, List.append_nil]
  cases c with
  | takeMessage =>
      simp only [answerRadio] at h
      split at h <;> cases h
      exact none rfl rfl
  | takeIrq =>
      simp only [answerRadio] at h
      split at h <;> cases h
      exact none rfl rfl
  | takeMutex forever =>
      simp only [answerRadio] at h
      split_ifs at h <;> cases h <;> exact none rfl rfl
  | putMessage m =>
      simp only [answerRadio] at h
      split at h <;> cases h
      rfl
  | _ =>
      cases h
      exact none rfl rfl

theorem stepReceiver_receiveQueue (h : s.stepReceiver = some s') :
    s'.receiveQueue = s.receiveQueue ++ (s.arrival .receiver).toList := by
  unfold stepReceiver at h
  split at h
  · rename_i c k at_call
    obtain ⟨⟨a, s₁⟩, answered, rfl⟩ := Option.map_eq_some_iff.mp h
    rw [settleRadio_eq, arrival, at_call, Prog.pending_call, Option.bind_some]
    exact answerRadio_receiveQueue answered
  · cases h

/-- Every step but those of the game task and the handlers. -/
theorem step_receiveQueue (tasks : s.AtPoint p) (h : s.step lim a = some s')
    (game : a ≠ .game) (httpd : a ≠ .httpd) :
    s'.receiveQueue = s.receiveQueue ++ (s.arrival a).toList := by
  cases a with
  | game => exact absurd rfl game
  | httpd => exact absurd rfl httpd
  | request r =>
      simp only [step] at h
      split at h <;> cases h
      exact (List.append_nil _).symm
  | sender =>
      rw [(tasks.sender_step h).1.receiveQueue]
      exact (List.append_nil _).symm
  | receiver => exact stepReceiver_receiveQueue h
  | frameArrives pipe f =>
      cases h
      exact (List.append_nil _).symm
  | sendFlag success =>
      cases h
      exact (List.append_nil _).symm

theorem untaken_receiveQueue (tasks : s.AtPoint p) (h : s.step lim a = some s')
    (untaken : ¬s.Takes a) : s'.receiveQueue = s.receiveQueue ++ (s.arrival a).toList := by
  cases a with
  | game => exact (stepGame_receiveQueue h untaken).trans (List.append_nil _).symm
  | httpd => exact (stepHttpd_receiveQueue h untaken).trans (List.append_nil _).symm
  | _ => exact step_receiveQueue tasks h (by simp) (by simp)

theorem inSwitch_log (s : Firmware) (t : GameTask Unit) :
    ∃ new, (s.inSwitch t).log = s.log ++ new := by
  rcases inSwitch_cases s t with ⟨-, shape⟩ | ⟨-, shape⟩
  · rw [shape]
    exact ⟨_, List.append_assoc ..⟩
  · rw [shape]
    exact ⟨_, rfl⟩

theorem stepGame_log (h : s.stepGame lim = some s') : ∃ new, s'.log = s.log ++ new := by
  unfold stepGame at h
  split at h
  · cases h
    obtain ⟨new, log⟩ := inSwitch_log { s with log := s.log ++ [.dispatch s.mem.game.state] }
      (gameSwitch lim s.mem.game.state)
    exact ⟨_, log.trans (List.append_assoc ..)⟩
  · obtain ⟨r, answered, rfl⟩ := Option.map_eq_some_iff.mp h
    exact ⟨_, congrArg (· ++ _) (answerGame_keeps answered).log⟩
  · obtain ⟨r, answered, rfl⟩ := Option.map_eq_some_iff.mp h
    obtain ⟨new, log⟩ := inSwitch_log r.2 _
    exact ⟨new, log.trans (congrArg (· ++ new) (answerGame_keeps answered).log)⟩
  · cases h

/-- The log only grows. -/
theorem step_log (h : s.step lim a = some s') : ∃ new, s'.log = s.log ++ new := by
  have same (log : s'.log = s.log) : ∃ new, s'.log = s.log ++ new :=
    ⟨[], log.trans (List.append_nil _).symm⟩
  cases a with
  | game => exact stepGame_log h
  | httpd =>
      simp only [step] at h
      unfold stepHttpd at h
      split at h
      · cases h
        exact same rfl
      · cases h
        exact ⟨_, rfl⟩
      · obtain ⟨r, answered, rfl⟩ := Option.map_eq_some_iff.mp h
        exact same (answerGame_keeps answered).log
      · cases h
  | request r =>
      simp only [step] at h
      split at h <;> cases h
      exact same rfl
  | _ => exact same (step_keepsGame h (by simp) (by simp) (by simp)).log

/-- The queue holds what has come in since the restart, and nothing else. -/
theorem SinceRestart.queued {puts : List IoMessage} (h : SinceRestart lim puts s) :
    Reaches (Firmware.step lim) (fun _ _ => True) (Start lim) s ∧ s.receiveQueue = puts := by
  induction h with
  | restart reached _ _ empty => exact ⟨reached, empty⟩
  | next _ untaken hstep ih =>
      obtain ⟨reached, queue⟩ := ih
      obtain ⟨p, kept⟩ := reaches_pressesKept reached
      exact ⟨reached.next trivial hstep, queue ▸ untaken_receiveQueue kept.tasks hstep untaken⟩

/-- The same but for the connection of the browser, and the game task goes on alike. -/
structure Twins (s₁ s₂ : Firmware) : Prop where
  mem : Peers s₁.mem s₂.mem
  game : s₂.game = s₁.game
  pace : Prog.KeepsPace Peers unframed Peers s₁.rest
  inbox : s₂.receiveQueue = s₁.receiveQueue

/-- What the two steps log differs in the frames to the browser at most. -/
def LogAlike (s₁ s₁' s₂ s₂' : Firmware) : Prop :=
  ∃ new₁ new₂, s₁'.log = s₁.log ++ new₁ ∧ s₂'.log = s₂.log ++ new₂ ∧
    new₁.filter unframed = new₂.filter unframed

theorem inSwitch_twins (s₁ s₂ : Firmware) {t : GameTask Unit} (mem : Peers s₁.mem s₂.mem)
    (inbox : s₂.receiveQueue = s₁.receiveQueue) (pace : Prog.KeepsPace Peers unframed Peers t) :
    Twins (s₁.inSwitch t) (s₂.inSwitch t) ∧
      LogAlike s₁ (s₁.inSwitch t) s₂ (s₂.inSwitch t) := by
  have first := pace.now mem
  have later := pace.rest s₁.mem
  rcases inSwitch_cases s₁ t with ⟨ended, shape₁⟩ | ⟨waits, shape₁⟩
  · obtain ⟨-, shape₂⟩ | ⟨waits, -⟩ := inSwitch_cases s₂ t
    · have tail : Prog.KeepsPace Peers unframed Peers loopTail :=
        (blind_loopTail peers_sharing.toSharing).keepsPace
      have last := tail.now first.mem
      rw [shape₁, shape₂]
      refine ⟨⟨last.mem, congrArg Phase.inTail last.rest.symm, tail.rest _, inbox⟩,
        (t.settle s₁.mem).2.2 ++ _, (t.settle s₂.mem).2.2 ++ _, (List.append_assoc ..),
        (List.append_assoc ..), ?_⟩
      rw [List.filter_append, List.filter_append, first.log]
      exact congrArg _ last.log
    · exact absurd (first.rest.symm.trans ended) (waits ())
  · obtain ⟨ended, -⟩ | ⟨-, shape₂⟩ := inSwitch_cases s₂ t
    · exact absurd (first.rest.trans ended) (waits ())
    · rw [shape₁, shape₂]
      exact ⟨⟨first.mem, congrArg Phase.inSwitch first.rest.symm, later, inbox⟩, _, _, rfl, rfl,
        first.log⟩

theorem inTail_twins (s₁ s₂ : Firmware) {t : GameTask Unit} (mem : Peers s₁.mem s₂.mem)
    (inbox : s₂.receiveQueue = s₁.receiveQueue) (pace : Prog.KeepsPace Peers unframed Peers t) :
    Twins (s₁.inTail t) (s₂.inTail t) ∧ LogAlike s₁ (s₁.inTail t) s₂ (s₂.inTail t) := by
  have first := pace.now mem
  exact ⟨⟨first.mem, congrArg Phase.inTail first.rest.symm, pace.rest s₁.mem, inbox⟩, _, _, rfl,
    rfl, first.log⟩

theorem answerGame_twins {c : Call} {a₁ a₂ : c.Ans} (inbox : s₂.receiveQueue = s₁.receiveQueue)
    (answered₁ : s₁.answerGame c = some (a₁, s₁')) (answered₂ : s₂.answerGame c = some (a₂, s₂')) :
    a₂ = a₁ ∧ s₂'.receiveQueue = s₁'.receiveQueue := by
  rw [answerGame_answer answered₁, answerGame_answer answered₂,
    answerGame_receiveQueue answered₁, answerGame_receiveQueue answered₂, inbox]
  exact ⟨rfl, rfl⟩

/-- The game task does the same in both. -/
theorem Twins.stepGame (h : Twins s₁ s₂) (step₁ : s₁.stepGame lim = some s₁')
    (step₂ : s₂.stepGame lim = some s₂') : Twins s₁' s₂' ∧ LogAlike s₁ s₁' s₂ s₂' := by
  obtain ⟨mem, game, pace, inbox⟩ := h
  unfold Firmware.stepGame at step₁ step₂
  rw [game] at step₂
  split at step₁
  · rename_i u head
    rw [head] at step₂
    cases step₁
    cases step₂
    have state : s₂.mem.game.state = s₁.mem.game.state := (congrArg Game.state mem.game).symm
    have case : Prog.KeepsPace Peers unframed Peers (gameSwitch lim s₁.mem.game.state) :=
      pace_gameSwitch peers_sharing (fun _ => rfl) lim
        fun _ _ _ related => congrArg Game.difficulty related.game
    obtain ⟨alike, new₁, new₂, log₁, log₂, same⟩ := inSwitch_twins
      { s₁ with log := s₁.log ++ [.dispatch s₁.mem.game.state] }
      { s₂ with log := s₂.log ++ [.dispatch s₁.mem.game.state] } mem inbox case
    rw [dispatch, dispatch, state]
    refine ⟨alike, _ :: new₁, _ :: new₂, log₁.trans (List.append_assoc ..),
      log₂.trans (List.append_assoc ..), ?_⟩
    exact congrArg (_ :: ·) same
  · rename_i c k tail
    rw [tail] at step₂
    obtain ⟨⟨a₁, t₁⟩, answered₁, rfl⟩ := Option.map_eq_some_iff.mp step₁
    obtain ⟨⟨a₂, t₂⟩, answered₂, rfl⟩ := Option.map_eq_some_iff.mp step₂
    obtain ⟨rfl, inbox⟩ := answerGame_twins inbox answered₁ answered₂
    have keeps₁ := answerGame_keeps answered₁
    have keeps₂ := answerGame_keeps answered₂
    have next := pace.later (s := s₁.mem) (by rw [rest, tail]; rfl) a₂
    obtain ⟨alike, logs⟩ := inTail_twins t₁ t₂ (keeps₁.mem ▸ keeps₂.mem ▸ mem) inbox next
    exact ⟨alike, by rwa [LogAlike, ← keeps₁.log, ← keeps₂.log]⟩
  · rename_i c k case
    rw [case] at step₂
    obtain ⟨⟨a₁, t₁⟩, answered₁, rfl⟩ := Option.map_eq_some_iff.mp step₁
    obtain ⟨⟨a₂, t₂⟩, answered₂, rfl⟩ := Option.map_eq_some_iff.mp step₂
    obtain ⟨rfl, inbox⟩ := answerGame_twins inbox answered₁ answered₂
    have keeps₁ := answerGame_keeps answered₁
    have keeps₂ := answerGame_keeps answered₂
    have next := pace.later (s := s₁.mem) (by rw [rest, case]; rfl) a₂
    obtain ⟨alike, logs⟩ := inSwitch_twins t₁ t₂ (keeps₁.mem ▸ keeps₂.mem ▸ mem) inbox next
    exact ⟨alike, by rwa [LogAlike, ← keeps₁.log, ← keeps₂.log]⟩
  · cases step₁

end Firmware

/-- All that a game is played with but the connection of the browser, and what has been
logged but for the frames to it. -/
structure View where
  mem : Mem
  game : Phase
  work : Option (GameTask Response)
  inbox : List IoMessage
  news : List Out

/-- Somebody looks on: how long the log was at the beginning, and whether the request
that is being served is a page that loads. -/
structure Onlooker where
  fw : Firmware
  since : Nat
  loading : Bool

/-- A page that loads only asks to be shown the game. -/
def Request.page : Request → Bool
  | .wsMessage .init => true
  | _ => false

def Act.loading (before : Bool) : Act → Bool
  | .request r => r.page
  | _ => before

/-- A handler that only sends frames. -/
def Hushed (t : GameTask Response) : Prop :=
  Prog.Always (fun m r => r.1 = m ∧ r.2.filter unframed = []) t ∧ Prog.Asks (fun _ => False) t

theorem hushed_page : Hushed (handle (.wsMessage .init)) := by
  constructor
  · refine .bind (Prog.always_get fun _ => ⟨rfl, rfl⟩) fun m =>
      .ite (.bind ?_ fun _ => trivial) trivial
    exact .bind (Prog.always_get fun _ => ⟨rfl, rfl⟩) fun m =>
      .ite (fun _ => ⟨⟨rfl, rfl⟩, trivial⟩) trivial
  · refine get_asks fun m => .ite (.bind ?_ fun _ => trivial) trivial
    exact get_asks fun m => .ite (write_asks _ _) trivial

/-- What is left of a handler that serves a page, or another request. -/
def Works : Bool → GameTask Response → Prop
  | true, t => Hushed t
  | false, t => Prog.Blind Peers t

theorem Works.step {loading : Bool} {f : Mem → Mem × List Out} {k : Mem → GameTask Response}
    (h : Works loading (.step f k)) {m : Mem} (created : m.currentGame = true) :
    (f m).1.currentGame = true ∧ Works loading (k m) := by
  cases loading with
  | true =>
      obtain ⟨⟨same, -⟩, quiet⟩ := h.1 m
      exact ⟨same.symm ▸ created, quiet, h.2 m⟩
  | false => exact ⟨(h.1 m m (.heard m.wsConnected created)).2.1.created, h.2 m⟩

theorem Works.call {loading : Bool} {c : Call} {k : c.Ans → GameTask Response}
    (h : Works loading (.call c k)) (a : c.Ans) : Works loading (k a) := by
  cases loading with
  | true => exact (h.2.1).elim
  | false => exact h a

theorem works_handle (r : Request) : Works r.page (handle r) := by
  cases r with
  | wsMessage text =>
      cases text with
      | init => exact hushed_page
      | _ => exact peers_handle (by simp)
  | _ => exact peers_handle (by simp)

theorem Peers.heard_eq {m₁ m₂ : Mem} (h : Peers m₁ m₂) : m₁.heard false = m₂.heard false := by
  cases h with
  | heard w created => rfl

namespace Onlooker
variable {lim : Limits} {w w' w₁ w₂ w₁' w₂' : Onlooker} {a : Act}

def step (lim : Limits) (w : Onlooker) (a : Act) : Option Onlooker :=
  (w.fw.step lim a).map (⟨·, w.since, a.loading w.loading⟩)

def moment (w : Onlooker) : Act → Option Moment
  | .game => some .game
  | .httpd => if w.loading then none else some .httpd
  | .request r => if r.page then none else some (.request r)
  | a => (w.fw.arrival a).map .message

def news (w : Onlooker) : List Out := w.fw.log.drop w.since

def view (w : Onlooker) : View where
  mem := w.fw.mem.heard false
  game := w.fw.game
  work := if w.loading then none else w.fw.httpd
  inbox := w.fw.receiveQueue
  news := w.news.filter unframed

/-- The game has been created, its task keeps pace, and so does the handler. -/
structure Fits (w : Onlooker) : Prop where
  created : w.fw.mem.currentGame = true
  pace : Prog.KeepsPace Peers unframed Peers w.fw.rest
  work : ∀ t, w.fw.httpd = some t → Works w.loading t
  since : w.since ≤ w.fw.log.length
  tasks : ∃ p, w.fw.AtPoint p

theorem peers_of_heard {m₁ m₂ : Mem} (created : m₁.currentGame = true)
    (same : m₁.heard false = m₂.heard false) : Peers m₁ m₂ := by
  have eq : m₂ = m₁.heard m₂.wsConnected :=
    (congrArg (fun m => m.heard m₂.wsConnected) same).symm
  rw [eq]
  exact .heard _ created

theorem Fits.twins (h₁ : w₁.Fits) (same : w₁.view = w₂.view) : Firmware.Twins w₁.fw w₂.fw where
  mem := peers_of_heard h₁.created (congrArg View.mem same)
  game := (congrArg View.game same).symm
  pace := h₁.pace
  inbox := (congrArg View.inbox same).symm

theorem view_eq (mem : w₁.fw.mem.heard false = w₂.fw.mem.heard false)
    (game : w₁.fw.game = w₂.fw.game) (work : w₁.view.work = w₂.view.work)
    (inbox : w₁.fw.receiveQueue = w₂.fw.receiveQueue)
    (news : w₁.news.filter unframed = w₂.news.filter unframed) : w₁.view = w₂.view := by
  rw [view, view, View.mk.injEq]
  exact ⟨mem, game, work, inbox, news⟩

/-- What a step logs is news. -/
theorem news_of_log (since : w.since ≤ w.fw.log.length) {s : Firmware} {loading : Bool}
    {new : List Out} (log : s.log = w.fw.log ++ new) :
    (⟨s, w.since, loading⟩ : Onlooker).news = w.news ++ new := by
  rw [news, log]
  exact List.drop_append_of_le_length since

/-- Each step that is shown, with what it shows. -/
inductive Shows (w : Onlooker) : Act → Moment → Prop
  | game : w.Shows .game .game
  | httpd : w.loading = false → w.Shows .httpd .httpd
  | request {r : Request} : r.page = false → w.Shows (.request r) (.request r)
  | message {msg : IoMessage} : w.fw.arrival .receiver = some msg →
      w.Shows .receiver (.message msg)

theorem shows_of_moment {b : Moment} (h : w.moment a = some b) : w.Shows a b := by
  cases a with
  | game =>
      cases h
      exact .game
  | httpd =>
      simp only [moment] at h
      split at h
      · cases h
      · rename_i other
        cases h
        exact .httpd (Bool.eq_false_iff.mpr other)
  | request r =>
      simp only [moment] at h
      split at h
      · cases h
      · rename_i other
        cases h
        exact .request (Bool.eq_false_iff.mpr other)
  | receiver =>
      obtain ⟨msg, arrived, rfl⟩ := Option.map_eq_some_iff.mp h
      exact .message arrived
  | _ => cases h

theorem Fits.request {r : Request} (h : w.Fits) {s : Firmware}
    (hstep : w.fw.step lim (.request r) = some s) : (⟨s, w.since, r.page⟩ : Onlooker).Fits := by
  obtain ⟨p, tasks⟩ := h.tasks
  have radio := tasks.of_keepsRadio (Firmware.request_keepsRadio hstep)
  simp only [Firmware.step] at hstep
  split at hstep
  · cases hstep
    exact ⟨h.created, h.pace, fun t eq => Option.some.inj eq ▸ works_handle r, h.since, p, radio⟩
  · cases hstep

theorem Fits.game (h : w.Fits) {s : Firmware} (hstep : w.fw.stepGame lim = some s) :
    (⟨s, w.since, w.loading⟩ : Onlooker).Fits := by
  obtain ⟨p, tasks⟩ := h.tasks
  have self : Firmware.Twins w.fw w.fw := ⟨.heard w.fw.mem.wsConnected h.created, rfl, h.pace, rfl⟩
  obtain ⟨⟨mem, -, pace, -⟩, new, -, log, -⟩ := self.stepGame hstep hstep
  refine ⟨mem.created, pace, ?_, ?_, p, tasks.of_keepsRadio (Firmware.stepGame_keepsRadio hstep)⟩
  · exact fun t eq => h.work t ((Firmware.stepGame_httpd hstep).symm.trans eq)
  · exact h.since.trans (log ▸ List.length_append ▸ Nat.le_add_right ..)

theorem Fits.httpd (h : w.Fits) {s : Firmware} (hstep : w.fw.stepHttpd = some s) :
    (⟨s, w.since, w.loading⟩ : Onlooker).Fits := by
  obtain ⟨p, tasks⟩ := h.tasks
  have radio := tasks.of_keepsRadio (Firmware.stepHttpd_keepsRadio hstep)
  have pace : Prog.KeepsPace Peers unframed Peers s.rest :=
    Firmware.rest_of_game (Firmware.stepHttpd_game hstep) ▸ h.pace
  unfold Firmware.stepHttpd at hstep
  split at hstep
  · cases hstep
    exact ⟨h.created, pace, (fun t eq => by cases eq), h.since, p, radio⟩
  · rename_i f k at_step
    cases hstep
    obtain ⟨created, later⟩ := (h.work _ at_step).step h.created
    refine ⟨created, pace, fun t eq => Option.some.inj eq ▸ later, ?_, p, radio⟩
    exact h.since.trans (List.length_append ▸ Nat.le_add_right ..)
  · rename_i c k at_call
    obtain ⟨⟨a, s₁⟩, answered, rfl⟩ := Option.map_eq_some_iff.mp hstep
    have keeps := Firmware.answerGame_keeps answered
    refine ⟨keeps.mem ▸ h.created, pace, fun t eq => ?_, keeps.log ▸ h.since, p, radio⟩
    exact Option.some.inj eq ▸ (h.work _ at_call).call a
  · cases hstep

theorem Fits.step (h : w.Fits) (hstep : w.step lim a = some w') : w'.Fits := by
  obtain ⟨s, stepped, rfl⟩ := Option.map_eq_some_iff.mp hstep
  have other (game : a ≠ .game) (httpd : a ≠ .httpd) (request : ∀ r, a ≠ .request r) :
      (⟨s, w.since, w.loading⟩ : Onlooker).Fits := by
    have keeps := Firmware.step_keepsGame stepped game httpd request
    obtain ⟨p, tasks⟩ := h.tasks
    refine ⟨keeps.mem ▸ h.created, Firmware.rest_of_game keeps.game ▸ h.pace, ?_,
      keeps.log ▸ h.since, tasks.step stepped⟩
    exact fun t eq => h.work t (keeps.httpd.symm.trans eq)
  cases a with
  | game => exact h.game stepped
  | httpd => exact h.httpd stepped
  | request r => exact h.request stepped
  | _ => exact other (by simp) (by simp) (by simp)

/-- The handler of a page that loads leaves everything but the log alone. -/
theorem Fits.page_httpd (h : w.Fits) (loading : w.loading = true) {s : Firmware}
    (hstep : w.fw.stepHttpd = some s) : s.mem = w.fw.mem ∧ s.receiveQueue = w.fw.receiveQueue ∧
      ∃ new, s.log = w.fw.log ++ new ∧ new.filter unframed = [] := by
  have work := h.work
  rw [loading] at work
  unfold Firmware.stepHttpd at hstep
  split at hstep
  · cases hstep
    exact ⟨rfl, rfl, [], (List.append_nil _).symm, rfl⟩
  · rename_i f k at_step
    cases hstep
    obtain ⟨same, unseen⟩ := ((work _ at_step).1 w.fw.mem).1
    exact ⟨same, rfl, _, rfl, unseen⟩
  · rename_i c k at_call
    exact ((work _ at_call).2.1).elim
  · cases hstep

/-- A step that shows nothing leaves the view as it is. -/
theorem Fits.unseen (h : w.Fits) (hstep : w.step lim a = some w') (blank : w.moment a = none) :
    w'.view = w.view := by
  obtain ⟨s, stepped, rfl⟩ := Option.map_eq_some_iff.mp hstep
  have other (game : a ≠ .game) (httpd : a ≠ .httpd) (request : ∀ r, a ≠ .request r)
      (silent : w.fw.arrival a = none) : (⟨s, w.since, w.loading⟩ : Onlooker).view = w.view := by
    have keeps := Firmware.step_keepsGame stepped game httpd request
    obtain ⟨p, tasks⟩ := h.tasks
    have queue := Firmware.step_receiveQueue tasks stepped game httpd
    rw [silent, Option.toList_none, List.append_nil] at queue
    simp only [view, news, keeps.mem, keeps.game, keeps.httpd, keeps.log, queue]
  cases a with
  | game => cases blank
  | httpd =>
      have loading : w.loading = true := by simpa [moment] using blank
      obtain ⟨mem, queue, new, log, unframed⟩ := h.page_httpd loading stepped
      have game := Firmware.stepHttpd_game stepped
      refine view_eq (congrArg (Mem.heard · false) mem) game ?_ queue ?_
      · simp [view, Act.loading, loading]
      · rw [news_of_log h.since log, List.filter_append, unframed, List.append_nil]
  | request r =>
      have page : r.page = true := by simpa [moment] using blank
      simp only [Firmware.step] at stepped
      split at stepped
      · rename_i free
        cases stepped
        have idle : w.fw.httpd = none := Option.isNone_iff_eq_none.mp free
        refine view_eq rfl rfl ?_ rfl rfl
        simp [view, Act.loading, page, idle]
      · cases stepped
  | receiver => exact other (by simp) (by simp) (by simp) (Option.map_eq_none_iff.mp blank)
  | _ => exact other (by simp) (by simp) (by simp) rfl

theorem loading_eq (same : w₁.view = w₂.view) (other₁ : w₁.loading = false)
    (other₂ : w₂.loading = false) : w₁.fw.httpd = w₂.fw.httpd := by
  have work := congrArg View.work same
  simpa [view, other₁, other₂] using work

/-- The handlers of both do the same. -/
theorem Fits.httpd_alike (h₁ : w₁.Fits) (h₂ : w₂.Fits) (same : w₁.view = w₂.view)
    (other₁ : w₁.loading = false) (other₂ : w₂.loading = false) {s₁ s₂ : Firmware}
    (step₁ : w₁.fw.stepHttpd = some s₁) (step₂ : w₂.fw.stepHttpd = some s₂) :
    (⟨s₁, w₁.since, w₁.loading⟩ : Onlooker).view =
      (⟨s₂, w₂.since, w₂.loading⟩ : Onlooker).view := by
  have twins := h₁.twins same
  have work := loading_eq same other₁ other₂
  have game := congrArg View.game same
  have inbox := congrArg View.inbox same
  have told := congrArg View.news same
  have blind := h₁.work
  rw [other₁] at blind
  have game₁ := Firmware.stepHttpd_game step₁
  have game₂ := Firmware.stepHttpd_game step₂
  have level : s₁.game = s₂.game := game₁.trans (game.trans game₂.symm)
  unfold Firmware.stepHttpd at step₁ step₂
  rw [← work] at step₂
  split at step₁
  · rename_i a ended
    rw [ended] at step₂
    cases step₁
    cases step₂
    exact view_eq (congrArg View.mem same) level (by simp only [view, other₁, other₂]) inbox told
  · rename_i f k at_step
    rw [at_step] at step₂
    cases step₁
    cases step₂
    obtain ⟨rest, mem, log⟩ := (blind _ at_step).1 _ _ twins.mem
    refine view_eq mem.heard_eq level ?_ inbox ?_
    · simp only [view, other₁, other₂, rest]
    · rw [news_of_log h₁.since rfl, news_of_log h₂.since rfl, List.filter_append,
        List.filter_append, log]
      exact congrArg (· ++ _) told
  · rename_i c k at_call
    rw [at_call] at step₂
    obtain ⟨⟨a₁, t₁⟩, answered₁, rfl⟩ := Option.map_eq_some_iff.mp step₁
    obtain ⟨⟨a₂, t₂⟩, answered₂, rfl⟩ := Option.map_eq_some_iff.mp step₂
    obtain ⟨rfl, queue⟩ := Firmware.answerGame_twins twins.inbox answered₁ answered₂
    have keeps₁ := Firmware.answerGame_keeps answered₁
    have keeps₂ := Firmware.answerGame_keeps answered₂
    refine view_eq ?_ level ?_ queue.symm ?_
    · exact keeps₁.mem ▸ keeps₂.mem ▸ congrArg View.mem same
    · simp only [view, other₁, other₂]
    · have log₁ : t₁.log = w₁.fw.log := keeps₁.log
      have log₂ : t₂.log = w₂.fw.log := keeps₂.log
      simp only [news, log₁, log₂]
      exact told
  · cases step₁

theorem Fits.alike {a₁ a₂ : Act} {b : Moment} (h₁ : w₁.Fits) (h₂ : w₂.Fits)
    (same : w₁.view = w₂.view) (step₁ : w₁.step lim a₁ = some w₁')
    (step₂ : w₂.step lim a₂ = some w₂') (shown₁ : w₁.moment a₁ = some b)
    (shown₂ : w₂.moment a₂ = some b) : w₁'.view = w₂'.view := by
  obtain ⟨s₁, stepped₁, rfl⟩ := Option.map_eq_some_iff.mp step₁
  obtain ⟨s₂, stepped₂, rfl⟩ := Option.map_eq_some_iff.mp step₂
  have twins := h₁.twins same
  cases shows_of_moment shown₁ with
  | game =>
      cases shows_of_moment shown₂
      obtain ⟨later, new₁, new₂, log₁, log₂, told⟩ := twins.stepGame stepped₁ stepped₂
      refine view_eq later.mem.heard_eq later.game.symm ?_ later.inbox.symm ?_
      · have work := congrArg View.work same
        simp only [view] at work ⊢
        rw [Firmware.stepGame_httpd stepped₁, Firmware.stepGame_httpd stepped₂]
        exact work
      · rw [news_of_log h₁.since log₁, news_of_log h₂.since log₂, List.filter_append,
          List.filter_append, told]
        exact congrArg (· ++ _) (congrArg View.news same)
  | httpd other₁ =>
      cases shows_of_moment shown₂ with
      | httpd other₂ => exact h₁.httpd_alike h₂ same other₁ other₂ stepped₁ stepped₂
  | request other =>
      cases shows_of_moment shown₂
      simp only [Firmware.step] at stepped₁ stepped₂
      split at stepped₁
      · split at stepped₂
        · cases stepped₁
          cases stepped₂
          exact view_eq (congrArg View.mem same) (congrArg View.game same)
            (by simp only [view, Act.loading, other]) (congrArg View.inbox same)
            (congrArg View.news same)
        · cases stepped₂
      · cases stepped₁
  | message arrived₁ =>
      cases shows_of_moment shown₂ with
      | message arrived₂ =>
          have keeps₁ := Firmware.stepReceiver_keepsGame stepped₁
          have keeps₂ := Firmware.stepReceiver_keepsGame stepped₂
          have queue₁ := Firmware.stepReceiver_receiveQueue stepped₁
          have queue₂ := Firmware.stepReceiver_receiveQueue stepped₂
          have inbox : w₁.fw.receiveQueue = w₂.fw.receiveQueue := congrArg View.inbox same
          refine view_eq ?_ ?_ ?_ ?_ ?_
          · exact keeps₁.mem ▸ keeps₂.mem ▸ congrArg View.mem same
          · exact keeps₁.game.trans ((congrArg View.game same).trans keeps₂.game.symm)
          · have work := congrArg View.work same
            simp only [view, keeps₁.httpd, keeps₂.httpd] at work ⊢
            exact work
          · rw [queue₁, queue₂, arrived₁, arrived₂, inbox]
          · simp only [news, keeps₁.log, keeps₂.log]
            exact congrArg View.news same

theorem sees (lim : Limits) : Sees (step lim) moment Fits view where
  kept _ _ _ fits hstep := fits.step hstep
  unseen _ _ _ fits hstep blank := fits.unseen hstep blank
  alike _ _ _ _ _ _ _ h₁ h₂ same step₁ step₂ shown₁ shown₂ :=
    h₁.alike h₂ same step₁ step₂ shown₁ shown₂

/-- The presses played and queued since the beginning are those that have come in. -/
structure Accounts (puts : List IoMessage) (ms : List Moment) (w : Onlooker) : Prop where
  game : Passes [] w.fw.rest
  httpd : ∀ t, w.fw.httpd = some t → Silent t
  tasks : ∃ p, w.fw.AtPoint p
  since : w.since ≤ w.fw.log.length
  presses : w.news.filterMap Out.shot ++ w.fw.receiveQueue.filterMap IoMessage.press =
    (puts ++ ms.filterMap Moment.received).filterMap IoMessage.press

section Accounts
variable {puts : List IoMessage} {ms : List Moment} {s : Firmware} {loading : Bool}

theorem received_append (came : List Moment) :
    (puts ++ (ms ++ came).filterMap Moment.received).filterMap IoMessage.press =
      (puts ++ ms.filterMap Moment.received).filterMap IoMessage.press ++
        (came.filterMap Moment.received).filterMap IoMessage.press := by
  simp only [List.filterMap_append, List.append_assoc]

/-- Where nothing comes in, what is logged has been taken off the queue. -/
theorem Accounts.played (h : w.Accounts puts ms) {new : List Out} (log : s.log = w.fw.log ++ new)
    {came : List Moment} (silent : came.filterMap Moment.received = [])
    (passes : s.log.filterMap Out.shot ++ s.receiveQueue.filterMap IoMessage.press =
      w.fw.log.filterMap Out.shot ++ w.fw.receiveQueue.filterMap IoMessage.press) :
    (⟨s, w.since, loading⟩ : Onlooker).news.filterMap Out.shot ++
        s.receiveQueue.filterMap IoMessage.press =
      (puts ++ (ms ++ came).filterMap Moment.received).filterMap IoMessage.press := by
  rw [log, List.filterMap_append, List.append_assoc] at passes
  rw [received_append, silent, List.filterMap_nil, List.append_nil, ← h.presses,
    news_of_log h.since log, List.filterMap_append, List.append_assoc,
    List.append_cancel_left passes]

/-- The radio tasks log nothing and queue what arrives. -/
theorem Accounts.other (h : w.Accounts puts ms) (stepped : w.fw.step lim a = some s)
    (game : a ≠ .game) (httpd : a ≠ .httpd) (request : ∀ r, a ≠ .request r)
    (comes : (w.moment a).toList.filterMap Moment.received = (w.fw.arrival a).toList) :
    (⟨s, w.since, loading⟩ : Onlooker).Accounts puts (ms ++ (w.moment a).toList) := by
  obtain ⟨p, tasks⟩ := h.tasks
  have keeps := Firmware.step_keepsGame stepped game httpd request
  have log : s.log = w.fw.log ++ [] := keeps.log.trans (List.append_nil _).symm
  have came : s.receiveQueue.filterMap IoMessage.press =
      w.fw.receiveQueue.filterMap IoMessage.press ++
        (w.fw.arrival a).toList.filterMap IoMessage.press := by
    rw [Firmware.step_receiveQueue tasks stepped game httpd, List.filterMap_append]
  refine ⟨Firmware.rest_of_game keeps.game ▸ h.game, fun t eq => h.httpd t (keeps.httpd ▸ eq),
    tasks.step stepped, keeps.log ▸ h.since, ?_⟩
  rw [received_append, comes, ← h.presses, came, news_of_log h.since log, List.append_nil,
    List.append_assoc]

end Accounts

theorem Accounts.step {puts : List IoMessage} {ms : List Moment} (h : w.Accounts puts ms)
    (hstep : w.step lim a = some w') : w'.Accounts puts (ms ++ (w.moment a).toList) := by
  obtain ⟨s, stepped, rfl⟩ := Option.map_eq_some_iff.mp hstep
  obtain ⟨p, tasks⟩ := h.tasks
  obtain ⟨new, log⟩ := Firmware.step_log stepped
  have since : w.since ≤ s.log.length :=
    h.since.trans (log ▸ List.length_append ▸ Nat.le_add_right ..)
  cases a with
  | game =>
      obtain ⟨later, passes⟩ := Firmware.stepGame_passes h.game stepped
      exact ⟨later, fun t eq => h.httpd t ((Firmware.stepGame_httpd stepped).symm.trans eq),
        tasks.step stepped, since, h.played log rfl passes⟩
  | httpd =>
      obtain ⟨later, passes⟩ := Firmware.stepHttpd_silent h.httpd stepped
      have silent : (w.moment .httpd).toList.filterMap Moment.received = [] := by
        rw [moment]
        split <;> rfl
      exact ⟨Firmware.rest_of_game (Firmware.stepHttpd_game stepped) ▸ h.game, later,
        tasks.step stepped, since, h.played log silent passes⟩
  | request r =>
      have silent : (w.moment (.request r)).toList.filterMap Moment.received = [] := by
        rw [moment]
        split <;> rfl
      have tasks := tasks.step stepped
      simp only [Firmware.step] at stepped
      split at stepped
      · cases stepped
        exact ⟨h.game, fun t eq => Option.some.inj eq ▸ handle_silent r, tasks, since,
          h.played log silent rfl⟩
      · cases stepped
  | receiver =>
      refine h.other stepped (by simp) (by simp) (by simp) ?_
      change ((w.fw.arrival .receiver).map Moment.message).toList.filterMap Moment.received = _
      cases w.fw.arrival .receiver with
      | none => rfl
      | some msg => rfl
  | _ => exact h.other stepped (by simp) (by simp) (by simp) rfl

end Onlooker

namespace Firmware
variable {lim : Limits} {s : Firmware} {puts : List IoMessage} {draws : Rng}

/-- Somebody begins to look on, with these draws to come. -/
def watch (s : Firmware) (draws : Rng) : Onlooker := ⟨s.deal draws, s.log.length, false⟩

/-- The memory after `Game_Init` has reset it. -/
def fresh (m : Mem) : Mem :=
  { engineRestart m with game := clearedGame, currentGame := true, leds := ledMatrixInit }

/-- What is seen once `Game_Init` has reset everything and drawn no number yet. -/
def opened (draws : Rng) (puts : List IoMessage) : View where
  mem := (fresh { powerOn with rng := draws }).heard false
  game := .inSwitch (initCase.settle powerOn).1
  work := none
  inbox := puts
  news := [.dispatch .init]

theorem Renewed.dispatched (h : Renewed lim puts s) {s' : Firmware}
    (hstep : (s.deal draws).step lim .game = some s') : s' = { s.deal draws with
      mem := fresh (s.deal draws).mem
      game := .inSwitch (initCase.settle powerOn).1
      log := s.log ++ [.dispatch .init] } := by
  have head : (s.deal draws).game = .inTail (.ret ()) := h.head
  have state : (s.deal draws).mem.game.state = .init := h.state
  rw [step, stepGame, head] at hstep
  cases hstep
  rw [dispatch, state]
  rcases inSwitch_cases { s.deal draws with log := (s.deal draws).log ++ [.dispatch .init] }
    (gameSwitch lim .init) with ⟨ended, -⟩ | ⟨-, shape⟩
  · cases ended
  · rw [shape]
    exact congrArg (fun log => { s.deal draws with
      mem := fresh (s.deal draws).mem
      game := .inSwitch (initCase.settle powerOn).1
      log := log }) (List.append_nil _)

theorem Renewed.watched (h : Renewed lim puts s) {w : Onlooker}
    (hstep : (s.watch draws).step lim .game = some w) :
    w.Fits ∧ w.Accounts puts [.game] ∧ w.view = opened draws puts := by
  obtain ⟨s', stepped, rfl⟩ := Option.map_eq_some_iff.mp hstep
  obtain ⟨reached, queue⟩ := h.since.queued
  obtain ⟨p, kept⟩ := reaches_pressesKept reached
  have dealt : (s.deal draws).AtPoint p :=
    ⟨kept.tasks.sender, kept.tasks.receiver, kept.tasks.mutex⟩
  have tasks := dealt.step stepped
  have free : (s.deal draws).httpd = none := h.free
  have passes : Passes [] s'.rest := by
    have game : Passes [] (s.deal draws).rest := kept.game
    exact (stepGame_passes game stepped).1
  have pace : Prog.KeepsPace Peers unframed Peers (initCase.settle powerOn).1 :=
    (blind_creation peers_sharing).keepsPace.rest powerOn
  obtain rfl := h.dispatched stepped
  have since : s.log.length ≤ (s.log ++ [Out.dispatch .init]).length :=
    List.length_append ▸ Nat.le_add_right ..
  have news : (s.log ++ [Out.dispatch .init]).drop s.log.length = [.dispatch .init] :=
    List.drop_left
  refine ⟨⟨rfl, pace, ?_, since, tasks⟩, ⟨passes, ?_, tasks, since, ?_⟩, ?_⟩
  · exact fun t eq => by cases free.symm.trans eq
  · exact fun t eq => by cases free.symm.trans eq
  · have nothing : [Moment.game].filterMap Moment.received = [] := rfl
    simp only [Onlooker.news, watch, news]
    rw [nothing, List.append_nil, ← queue]
    rfl
  · rw [Onlooker.view, opened, View.mk.injEq]
    exact ⟨rfl, rfl, free, queue, congrArg (List.filter unframed) news⟩

/-- Two new games that are dealt the same draws, and to which the same is done, are the
same but for the connection of the browser, whatever came before the restart. The moves
of the player are the presses that have come in since. -/
theorem new_game_independent {s₁ s₂ : Firmware} {acts₁ acts₂ : List Act} {w₁ w₂ : Onlooker}
    (begins₁ : Renewed lim puts s₁) (begins₂ : Renewed lim puts s₂)
    (run₁ : runList (Onlooker.step lim) (s₁.watch draws) (.game :: acts₁) = some w₁)
    (run₂ : runList (Onlooker.step lim) (s₂.watch draws) (.game :: acts₂) = some w₂)
    (same : sightings (Onlooker.step lim) Onlooker.moment (s₁.watch draws) (.game :: acts₁) =
      sightings (Onlooker.step lim) Onlooker.moment (s₂.watch draws) (.game :: acts₂)) :
    w₁.view = w₂.view ∧
      w₁.news.filterMap Out.shot ++ w₁.fw.receiveQueue.filterMap IoMessage.press =
        (puts ++ (sightings (Onlooker.step lim) Onlooker.moment (s₁.watch draws)
          (.game :: acts₁)).filterMap Moment.received).filterMap IoMessage.press := by
  obtain ⟨u₁, step₁, rest₁, eq₁⟩ := runList_cons Onlooker.moment run₁
  obtain ⟨u₂, step₂, rest₂, eq₂⟩ := runList_cons Onlooker.moment run₂
  obtain ⟨fits₁, accounts, view₁⟩ := begins₁.watched step₁
  obtain ⟨fits₂, -, view₂⟩ := begins₂.watched step₂
  rw [eq₁, eq₂] at same
  constructor
  · exact (Onlooker.sees lim).run fits₁ fits₂ (view₁.trans view₂.symm) rest₁ rest₂
      (List.append_cancel_left same)
  · rw [eq₁]
    exact (runList_sightings (fun _ _ _ _ => Onlooker.Accounts.step) accounts rest₁).presses

instance (s : Firmware) (a : Act) : Decidable (s.Takes a) := inferInstanceAs (Decidable (_ ∧ _))

instance (w₁ w₂ : Onlooker) (a : Act) : Decidable (w₁.moment a = w₂.moment a) :=
  match a with
  | .httpd => decidable_of_iff (w₁.loading = w₂.loading) (by
      simp only [Onlooker.moment]
      cases w₁.loading <;> cases w₂.loading <;> simp)
  | .receiver => decidable_of_iff (w₁.fw.arrival .receiver = w₂.fw.arrival .receiver)
      (Option.map_injective fun _ _ => Moment.message.inj).eq_iff.symm
  | .game => .isTrue rfl
  | .request _ => .isTrue rfl
  | .sender => .isTrue rfl
  | .frameArrives _ _ => .isTrue rfl
  | .sendFlag _ => .isTrue rfl

/-- GAME_RESTART is about to be dispatched, no frame is in flight, and no request is being
served. -/
structure Restarts (lim : Limits) (s : Firmware) : Prop where
  reached : Reaches (Firmware.step lim) (fun _ _ => True) (Start lim) s
  head : s.AtHead
  state : s.mem.game.state = .gameRestart
  idle : s.Idle
  drained : s.chip.fifo = []
  free : s.httpd = none

def atRestart (acts : List Act) : Option Firmware :=
  (runList (step ⟨0, none⟩) (boot ⟨0, none⟩) acts).filter fun s => atHead s.game ∧
    s.mem.game.state = .gameRestart ∧ s.Idle ∧ s.chip.fifo = [] ∧ s.httpd.isNone = true

theorem restarts_of_atRestart {acts : List Act} (h : atRestart acts = some s) :
    Restarts ⟨0, none⟩ s := by
  obtain ⟨run, check⟩ := Option.filter_eq_some_iff.mp h
  obtain ⟨head, state, idle, drained, free⟩ := of_decide_eq_true check
  exact ⟨reaches_of_runList (boot_start _) (meets_true _ _ _) run, atHead_iff.mp head, state, idle,
    drained, Option.isNone_iff_eq_none.mp free⟩

/-- From there to `Game_Init`, if the queue is empty and nothing is put into it. -/
def renewal (acts : List Act) : Option Firmware :=
  (atRestart acts).bind fun s =>
    if s.receiveQueue = [] ∧
        Meets (step ⟨0, none⟩) (fun s a => ¬s.Takes a) s (List.replicate 3 .game) then
      (runList (step ⟨0, none⟩) s (List.replicate 3 .game)).filter fun u => atHead u.game ∧
        u.mem.game.state = .init ∧ u.httpd.isNone = true ∧ u.receiveQueue = []
    else none

theorem SinceRestart.run {acts : List Act} {u : Firmware} (h : SinceRestart lim puts s)
    (untaken : Meets (step lim) (fun s a => ¬s.Takes a) s acts)
    (run : runList (step lim) s acts = some u) : ∃ puts, SinceRestart lim puts u := by
  induction acts generalizing s puts with
  | nil =>
      cases run
      exact ⟨puts, h⟩
  | cons a acts ih =>
      obtain ⟨s', stepped, rest⟩ := Option.bind_eq_some_iff.mp run
      exact ih (h.next untaken.1 stepped) (untaken.2 s' stepped) rest

theorem renewed_of_renewal {acts : List Act} {u : Firmware} (h : renewal acts = some u) :
    Renewed ⟨0, none⟩ [] u := by
  obtain ⟨s, restart, h⟩ := Option.bind_eq_some_iff.mp h
  split at h
  · rename_i spared
    obtain ⟨empty, untaken⟩ := spared
    obtain ⟨run, check⟩ := Option.filter_eq_some_iff.mp h
    obtain ⟨head, state, free, still⟩ := of_decide_eq_true check
    have restarts := restarts_of_atRestart restart
    obtain ⟨puts, since⟩ :=
      (SinceRestart.restart restarts.reached restarts.head restarts.state empty).run untaken run
    obtain rfl : puts = [] := since.queued.2.symm.trans still
    exact ⟨since, atHead_iff.mp head, state, Option.isNone_iff_eq_none.mp free⟩
  · cases h

def restartCommand : List Act := .request (.wsMessage .restart) :: List.replicate 3 .httpd

def setupWithout : List Act := .request (setupList []) :: List.replicate 4 .httpd

/-- A press of the button in the corner is received. -/
def cornerPress : List Act := .frameArrives 2 (buttonFrame 0 4) :: List.replicate 8 .receiver

/-- Nothing has been played before the restart. -/
def bareHistory : List Act := List.replicate 5 .game ++ [.sender] ++ restartCommand

/-- A browser has connected, and a press has been played. -/
def playedHistory : List Act :=
  List.replicate 5 .game ++ [.request .wsConnect, .httpd, .httpd] ++ setupWithout ++ [.sender] ++
    cornerPress ++ List.replicate 8 .game ++ restartCommand

/-- A new game is set up, and a press is played in it. -/
def newGame : List Act :=
  .game :: (List.replicate 4 .game ++ setupWithout ++ cornerPress ++ List.replicate 6 .game)

def still : Rng := ⟨fun _ => 0, 0⟩

theorem new_game_independent_press : ∃ (s₁ s₂ : Firmware) (w₁ w₂ : Onlooker),
    s₁.mem.wsConnected = false ∧ s₁.mem.game.turn = false ∧ s₁.log.filterMap Out.shot = [] ∧
    s₂.mem.wsConnected = true ∧ s₂.mem.game.turn = true ∧ s₂.log.filterMap Out.shot = [⟨4, 4⟩] ∧
    runList (Onlooker.step ⟨0, none⟩) (s₁.watch still) newGame = some w₁ ∧
    runList (Onlooker.step ⟨0, none⟩) (s₂.watch still) newGame = some w₂ ∧
    w₁.news.filterMap Out.shot = [⟨4, 4⟩] ∧ w₁.view = w₂.view := by
  have run : (renewal bareHistory).any (fun s₁ => (renewal playedHistory).any (fun s₂ =>
      s₁.mem.wsConnected = false ∧ s₁.mem.game.turn = false ∧ s₁.log.filterMap Out.shot = [] ∧
      s₂.mem.wsConnected = true ∧ s₂.mem.game.turn = true ∧ s₂.log.filterMap Out.shot = [⟨4, 4⟩] ∧
      Meets (both (Onlooker.step ⟨0, none⟩)) (fun p e => p.1.moment e = p.2.moment e)
        (s₁.watch still, s₂.watch still) newGame ∧
      (runList (both (Onlooker.step ⟨0, none⟩)) (s₁.watch still, s₂.watch still) newGame).any
        (fun p => p.1.news.filterMap Out.shot = [⟨4, 4⟩]) = true)) = true := by decide +kernel
  obtain ⟨s₁, renewed₁, run⟩ := (Option.any_eq_true _ _).mp run
  obtain ⟨s₂, renewed₂, check⟩ := (Option.any_eq_true _ _).mp run
  obtain ⟨deaf, turn₁, shots₁, hears, turn₂, shots₂, alike, played⟩ := of_decide_eq_true check
  obtain ⟨⟨w₁, w₂⟩, together, shot⟩ := (Option.any_eq_true _ _).mp played
  obtain ⟨run₁, run₂⟩ := runList_both together
  have same := sightings_both alike (by rw [together]; rfl)
  exact ⟨s₁, s₂, w₁, w₂, deaf, turn₁, shots₁, hears, turn₂, shots₂, run₁, run₂,
    of_decide_eq_true shot, (new_game_independent (renewed_of_renewal renewed₁)
      (renewed_of_renewal renewed₂) run₁ run₂ same).1⟩

/-- A press comes in before the restart, where no message is taken. -/
def pressedHistory : List Act := List.replicate 5 .game ++ cornerPress ++ restartCommand

/-- A restart and a new game, with nothing coming in. -/
def quietGame : List Act := List.replicate 8 .game ++ setupWithout ++ List.replicate 7 .game

/-- A press received before the restart is the first move of the new game. -/
theorem stale_press_played : ∃ (s₁ s₂ : Firmware) (draws : Rng) (acts : List Act)
    (w₁ w₂ : Onlooker), Restarts ⟨0, none⟩ s₁ ∧ Restarts ⟨0, none⟩ s₂ ∧
    runList (Onlooker.step ⟨0, none⟩) (s₁.watch draws) acts = some w₁ ∧
    runList (Onlooker.step ⟨0, none⟩) (s₂.watch draws) acts = some w₂ ∧
    sightings (Onlooker.step ⟨0, none⟩) Onlooker.moment (s₁.watch draws) acts =
      sightings (Onlooker.step ⟨0, none⟩) Onlooker.moment (s₂.watch draws) acts ∧
    w₁.news.filterMap Out.shot = [] ∧ w₂.news.filterMap Out.shot = [⟨4, 4⟩] ∧
    w₁.fw.mem.game.turn ≠ w₂.fw.mem.game.turn := by
  have run : (atRestart bareHistory).any (fun s₁ => (atRestart pressedHistory).any (fun s₂ =>
      Meets (both (Onlooker.step ⟨0, none⟩)) (fun p e => p.1.moment e = p.2.moment e)
        (s₁.watch still, s₂.watch still) quietGame ∧
      (runList (both (Onlooker.step ⟨0, none⟩)) (s₁.watch still, s₂.watch still) quietGame).any
        (fun p => p.1.news.filterMap Out.shot = [] ∧ p.2.news.filterMap Out.shot = [⟨4, 4⟩] ∧
          p.1.fw.mem.game.turn ≠ p.2.fw.mem.game.turn) = true)) = true := by decide +kernel
  obtain ⟨s₁, restarts₁, run⟩ := (Option.any_eq_true _ _).mp run
  obtain ⟨s₂, restarts₂, check⟩ := (Option.any_eq_true _ _).mp run
  obtain ⟨alike, played⟩ := of_decide_eq_true check
  obtain ⟨⟨w₁, w₂⟩, together, shots⟩ := (Option.any_eq_true _ _).mp played
  obtain ⟨quiet, pressed, turns⟩ := of_decide_eq_true shots
  obtain ⟨run₁, run₂⟩ := runList_both together
  have same := sightings_both alike (by rw [together]; rfl)
  exact ⟨s₁, s₂, still, quietGame, w₁, w₂, restarts_of_atRestart restarts₁,
    restarts_of_atRestart restarts₂, run₁, run₂, same, quiet, pressed, turns⟩

end Firmware
end Battleship
