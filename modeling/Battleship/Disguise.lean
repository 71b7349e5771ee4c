import Battleship.Phases
import Battleship.Secrecy

/-!
# Two firmwares against different opponents

Both take the same steps with the same draws. As long as the opponents show the
same board after every step, the whole firmwares differ in the hidden ships only,
and send the same messages.
-/
namespace Battleship
open Cooperative

/-- The rest of a handler at some point of its run. -/
inductive Serving : GameTask Response → Prop
  | start (r : Request) : Serving (handle r)
  | step {f : Mem → Mem × List Out} {k : Mem → GameTask Response} (m : Mem) :
      Serving (.step f k) → Serving (k m)
  | call {c : Call} {k : c.Ans → GameTask Response} (a : c.Ans) : Serving (.call c k) →
      Serving (k a)

theorem Serving.blind {t : GameTask Response} (h : Serving t) : Prog.Blind (Alike False) t := by
  induction h with
  | start r => exact blind_handle r
  | step m _ ih => exact ih.2 m
  | call a _ ih => exact ih a

/-- A message of the radio link or a frame to the browser. -/
inductive Sent where
  | radio (m : IoMessage)
  | web (f : WsFrame)

def Out.frame? : Out → Option WsFrame
  | .frame f => some f
  | _ => none

namespace Firmware

/-- Two runs take the same steps with the same draws. -/
def dealtStep (lim : Limits) (s : Firmware) (e : Act × Rng) : Option Firmware :=
  (s.deal e.2).step lim e.1

/-- What a step has put into the send queue and written to the browser. -/
def sent (s s' : Firmware) : List Sent :=
  (s'.sendQueue.drop s.sendQueue.length).map .radio ++
    ((s'.log.drop s.log.length).filterMap Out.frame?).map .web

def outgoing (lim : Limits) : Firmware → List (Act × Rng) → List Sent
  | _, [] => []
  | s, e :: es =>
      match s.dealtStep lim e with
      | some s' => s.sent s' ++ outgoing lim s' es
      | none => []

/-- The case of the switch that the game task is in after this act, or was in
last; `v` is the one before. -/
def caseAfter (s : Firmware) (v : GameState) : Act → GameState
  | .game =>
      match s.game with
      | .inTail (.ret _) => s.mem.game.state
      | _ => v
  | _ => v

/-- Both runs go on for all these steps, and after every step the opponents show
the same board. -/
def SameView (lim : Limits) : GameState → Firmware → Firmware → List (Act × Rng) → Prop
  | _, _, _, [] => True
  | v, s₁, s₂, e :: es =>
      match s₁.dealtStep lim e, s₂.dealtStep lim e with
      | some s₁', some s₂' =>
          ShownAlike (s₁.caseAfter v e.1 ∈ [GameState.webInit, .randomInit])
            s₁'.mem.game.opponent s₂'.mem.game.opponent ∧
          SameView lim (s₁.caseAfter v e.1) s₁' s₂' es
      | _, _ => False

/-- The firmware against another opponent. -/
def against (s : Firmware) (q : Player) : Firmware :=
  { s with mem := { s.mem with game := { s.mem.game with opponent := q } } }

def withMem (s : Firmware) (m : Mem) : Firmware := { s with mem := m }

/-- Firmwares that differ in what is hidden, and perhaps in the draws left. -/
def Disguised (s₁ s₂ : Firmware) : Prop := ∃ m, Alike False s₁.mem m ∧ s₂ = s₁.withMem m

/-- The programs of the game task and of the handler do not tell. -/
structure Discreetly (v : GameState) (s : Firmware) : Prop where
  inSwitch : ∀ t, s.game = .inSwitch t → Discreet (v ∈ [GameState.webInit, .randomInit]) t
  inTail : ∀ t, s.game = .inTail t → Prog.Blind (Alike False) t
  httpd : ∀ t, s.httpd = some t → Prog.Blind (Alike False) t

variable {lim : Limits} {s s' : Firmware} {m : Mem} {v : GameState}

theorem answerGame_withMem (s : Firmware) (m : Mem) (c : Call) :
    (s.withMem m).answerGame c = (s.answerGame c).map (fun e => (e.1, e.2.withMem m)) := by
  cases c with
  | queueSend msg =>
      by_cases room : s.sendQueue.length < ioQueueSize
      · simp [answerGame, withMem, room]
      · simp [answerGame, withMem, room]
  | queueReceive =>
      cases queue : s.receiveQueue with
      | nil => simp [answerGame, withMem, queue]
      | cons msg rest => simp [answerGame, withMem, queue]
  | delay ms => rfl

/-- A call is answered alike, whatever the game's memory is. -/
theorem answered_withMem {c : Call} {f g : c.Ans × Firmware → Firmware} {s₂' : Firmware}
    (left : (s.answerGame c).map f = some s')
    (right : ((s.withMem m).answerGame c).map g = some s₂') :
    ∃ a s₁, KeepsGame s s₁ ∧ s' = f (a, s₁) ∧ s₂' = g (a, s₁.withMem m) := by
  obtain ⟨⟨a, s₁⟩, answered, rfl⟩ := Option.map_eq_some_iff.mp left
  rw [answerGame_withMem, answered] at right
  cases right
  exact ⟨a, s₁, answerGame_keeps answered, rfl, rfl⟩

theorem answerRadio_withMem (s : Firmware) (m : Mem) (who : Holder) (c : RadioCall) :
    (s.withMem m).answerRadio who c = (s.answerRadio who c).map (fun e => (e.1, e.2.withMem m)) := by
  cases c with
  | takeMessage =>
      cases queue : s.sendQueue with
      | nil => simp [answerRadio, withMem, queue]
      | cons msg rest => simp [answerRadio, withMem, queue]
  | takeIrq =>
      by_cases event : 0 < s.irqQueue
      · simp [answerRadio, withMem, event]
      · simp [answerRadio, withMem, event]
  | takeMutex forever =>
      by_cases free : s.mutex = none
      · simp [answerRadio, withMem, free]
      · cases forever with
        | true => simp [answerRadio, withMem, free]
        | false => simp [answerRadio, withMem, free]
  | giveMutex => rfl
  | putMessage msg =>
      by_cases room : s.receiveQueue.length < ioQueueSize
      · simp [answerRadio, withMem, room]
      · simp [answerRadio, withMem, room]
  | pause ms => rfl
  | chip op => rfl

theorem stepSender_withMem (s : Firmware) (m : Mem) :
    (s.withMem m).stepSender lim = (s.stepSender lim).map (·.withMem m) := by
  have at_call : (s.withMem m).sender = s.sender := rfl
  cases sender : s.sender with
  | call c k =>
      simp only [stepSender, at_call, sender, answerRadio_withMem, Option.map_map]
      congr 1
      funext e
      simp only [Function.comp_apply, settleRadio_eq]
      rfl
  | _ => simp [stepSender, at_call, sender]

theorem stepReceiver_withMem (s : Firmware) (m : Mem) :
    (s.withMem m).stepReceiver = s.stepReceiver.map (·.withMem m) := by
  have at_call : (s.withMem m).receiver = s.receiver := rfl
  cases receiver : s.receiver with
  | call c k =>
      simp only [stepReceiver, at_call, receiver, answerRadio_withMem, Option.map_map]
      congr 1
      funext e
      simp only [Function.comp_apply, settleRadio_eq]
      rfl
  | _ => simp [stepReceiver, at_call, receiver]

/-- What the switch and the tail keep of the opponent. -/
theorem inSwitch_opponent (s : Firmware) (t : GameTask Unit) :
    (s.inSwitch t).mem.game.opponent = (t.settle s.mem).2.1.game.opponent := by
  rcases inSwitch_cases s t with ⟨-, shape⟩ | ⟨-, shape⟩
  · rw [shape]
    exact spares_loopTail.settle_field (fun m : Mem => m.game.opponent) _
  · rw [shape]

theorem inTail_disguised {t : GameTask Unit} (blind : Prog.Blind (Alike False) t)
    (alike : Alike False s.mem m) : Disguised (s.inTail t) ((s.withMem m).inTail t) := by
  have ends := blind.settle alike
  refine ⟨(t.settle m).2.1, ends.mem, ?_⟩
  simp only [inTail, settleGame, withMem, ends.rest, ends.log]

theorem inTail_discreetly {t : GameTask Unit} (blind : Prog.Blind (Alike False) t)
    (httpd : ∀ t, s.httpd = some t → Prog.Blind (Alike False) t) : (s.inTail t).Discreetly v where
  inSwitch := fun u case => by cases case
  inTail := fun u case => by
    cases case
    exact blind.rest s.mem
  httpd := httpd

/-- The switch of both firmwares ends at the same place if the opponents then
show the same board. -/
theorem inSwitch_disguised {t : GameTask Unit}
    (discreet : Discreet (v ∈ [GameState.webInit, .randomInit]) t) (alike : Alike True s.mem m)
    (shown : ShownAlike (v ∈ [GameState.webInit, .randomInit])
      (s.inSwitch t).mem.game.opponent ((s.withMem m).inSwitch t).mem.game.opponent)
    (httpd : ∀ t, s.httpd = some t → Prog.Blind (Alike False) t) :
    Disguised (s.inSwitch t) ((s.withMem m).inSwitch t) ∧ (s.inSwitch t).Discreetly v := by
  rw [inSwitch_opponent, inSwitch_opponent] at shown
  have ends := discreet.now alike shown
  have rest : ((t.settle s.mem).1 : GameTask Unit) = (t.settle m).1 := ends.rest
  rcases inSwitch_cases s t with ⟨ended, shape⟩ | ⟨waits, shape⟩
  · rcases inSwitch_cases (s.withMem m) t with ⟨-, shape'⟩ | ⟨waits', -⟩
    · have same : { s.withMem m with
          mem := (t.settle m).2.1
          log := s.log ++ (t.settle m).2.2 } =
          withMem { s with
            mem := (t.settle s.mem).2.1
            log := s.log ++ (t.settle s.mem).2.2 } (t.settle m).2.1 := by
        rw [ends.log]
        rfl
      rw [shape, shape']
      exact ⟨same ▸ inTail_disguised (blind_loopTail (alike_sharing False)) ends.mem,
        inTail_discreetly (blind_loopTail (alike_sharing False)) httpd⟩
    · exact absurd (rest.symm.trans ended) (waits' ())
  · rcases inSwitch_cases (s.withMem m) t with ⟨ended', -⟩ | ⟨-, shape'⟩
    · exact absurd (rest.trans ended') (waits ())
    · rw [shape, shape']
      refine ⟨⟨(t.settle m).2.1, ends.mem, ?_⟩, ?_⟩
      · change ({ s.withMem m with
          mem := (t.settle m).2.1
          log := s.log ++ (t.settle m).2.2
          game := .inSwitch (t.settle m).1 } : Firmware) = _
        rw [← ends.log, ← rest]
        rfl
      · refine ⟨fun u case => ?_, fun u case => (by cases case), httpd⟩
        cases case
        exact discreet.rest (fun _ _ => Alike.forget) alike

/-- A step of the game task, from memories with the same draws. -/
theorem stepGame_disguised (h : s.Discreetly v) (alike : Alike True s.mem m)
    {s₂' : Firmware} (left : s.stepGame lim = some s')
    (right : (s.withMem m).stepGame lim = some s₂')
    (shown : ShownAlike (s.caseAfter v .game ∈ [GameState.webInit, .randomInit])
      s'.mem.game.opponent s₂'.mem.game.opponent) :
    Disguised s' s₂' ∧ s'.Discreetly (s.caseAfter v .game) := by
  have state : m.game.state = s.mem.game.state := by
    obtain ⟨-, -⟩ := alike
    rfl
  have case_eq : (s.withMem m).game = s.game := rfl
  cases phase : s.game with
  | inTail t =>
      cases t with
      | ret u =>
          have now : s.caseAfter v .game = s.mem.game.state := by
            simp only [caseAfter, phase]
          rw [now] at shown ⊢
          simp only [stepGame, case_eq, phase] at left right
          cases left
          cases right
          have case := discreet_gameSwitch lim s.mem.game.state
          simp only [dispatch, withMem, state] at shown ⊢
          exact inSwitch_disguised (s := { s with log := s.log ++ [.dispatch s.mem.game.state] })
            case alike shown h.httpd
      | call c k =>
          have now : s.caseAfter v .game = v := by
            simp only [caseAfter, phase]
          rw [now]
          simp only [stepGame, case_eq, phase] at left right
          obtain ⟨a, s₁, keeps, rfl, rfl⟩ := answered_withMem left right
          have blind : Prog.Blind (Alike False) (k a) := h.inTail _ phase a
          rw [← keeps.mem] at alike
          exact ⟨inTail_disguised blind alike.forget,
            inTail_discreetly blind fun t running => h.httpd t (keeps.httpd.symm.trans running)⟩
      | _ => simp [stepGame, phase] at left
  | inSwitch t =>
      cases t with
      | call c k =>
          have now : s.caseAfter v .game = v := by
            simp only [caseAfter, phase]
          rw [now] at shown ⊢
          simp only [stepGame, case_eq, phase] at left right
          obtain ⟨a, s₁, keeps, rfl, rfl⟩ := answered_withMem left right
          have discreet := (h.inSwitch _ phase).later alike rfl a
          rw [← keeps.mem] at alike
          exact inSwitch_disguised discreet alike shown
            fun t running => h.httpd t (keeps.httpd.symm.trans running)
      | _ => simp [stepGame, phase] at left

theorem stepHttpd_disguised (h : s.Discreetly v) (alike : Alike False s.mem m)
    {s₂' : Firmware} (left : s.stepHttpd = some s') (right : (s.withMem m).stepHttpd = some s₂') :
    Disguised s' s₂' ∧ s'.Discreetly v := by
  have same : (s.withMem m).httpd = s.httpd := rfl
  cases running : s.httpd with
  | none => simp [stepHttpd, running] at left
  | some t =>
      have blind := h.httpd t running
      cases t with
      | ret a =>
          simp only [stepHttpd, same, running] at left right
          cases left
          cases right
          exact ⟨⟨m, alike, rfl⟩, h.inSwitch, h.inTail, fun t ended => by cases ended⟩
      | step f k =>
          simp only [stepHttpd, same, running] at left right
          cases left
          cases right
          obtain ⟨rest, after, said⟩ := blind.1 s.mem m alike
          refine ⟨⟨(f m).1, after, ?_⟩, h.inSwitch, h.inTail, ?_⟩
          · simp only [withMem, said, rest]
          · rintro t ⟨⟩
            exact blind.2 s.mem
      | call c k =>
          simp only [stepHttpd, same, running] at left right
          obtain ⟨a, s₁, keeps, rfl, rfl⟩ := answered_withMem left right
          rw [← keeps.mem] at alike
          refine ⟨⟨m, alike, rfl⟩, fun t case => h.inSwitch t (keeps.game.symm.trans case),
            fun t case => h.inTail t (keeps.game.symm.trans case), ?_⟩
          rintro t ⟨⟩
          exact blind a
      | _ => simp [stepHttpd, running] at left

/-- What the radio side does is the same whatever the game's memory is. -/
theorem radio_disguised {a : Act} (h : s.Discreetly v) (alike : Alike False s.mem m)
    {s₂' : Firmware} (left : s.step lim a = some s') (right : (s.withMem m).step lim a = some s₂')
    (frame : (s.withMem m).step lim a = (s.step lim a).map (·.withMem m)) (keeps : KeepsGame s s') :
    Disguised s' s₂' ∧ s'.Discreetly v := by
  rw [frame, left] at right
  cases right
  rw [← keeps.mem] at alike
  exact ⟨⟨m, alike, rfl⟩, fun t case => h.inSwitch t (keeps.game.symm.trans case),
    fun t case => h.inTail t (keeps.game.symm.trans case),
    fun t running => h.httpd t (keeps.httpd.symm.trans running)⟩

theorem step_disguised {a : Act} (h : s.Discreetly v) (alike : Alike True s.mem m)
    {s₂' : Firmware} (left : s.step lim a = some s') (right : (s.withMem m).step lim a = some s₂')
    (shown : ShownAlike (s.caseAfter v a ∈ [GameState.webInit, .randomInit])
      s'.mem.game.opponent s₂'.mem.game.opponent) :
    Disguised s' s₂' ∧ s'.Discreetly (s.caseAfter v a) := by
  cases a with
  | game => exact stepGame_disguised h alike left right shown
  | httpd => exact stepHttpd_disguised h alike.forget left right
  | request r =>
      have same : (s.withMem m).httpd = s.httpd := rfl
      simp only [step, same] at left right
      split at left
      · rename_i idle
        rw [if_pos idle] at right
        cases left
        cases right
        refine ⟨⟨m, alike.forget, rfl⟩, h.inSwitch, h.inTail, ?_⟩
        rintro t ⟨⟩
        exact blind_handle r
      · cases left
  | sender =>
      exact radio_disguised h alike.forget left right (stepSender_withMem s m)
        (stepSender_keepsGame left)
  | receiver =>
      exact radio_disguised h alike.forget left right (stepReceiver_withMem s m)
        (stepReceiver_keepsGame left)
  | frameArrives pipe f =>
      cases left
      exact @radio_disguised lim _ _ _ _ (.frameArrives pipe f) h alike.forget _ rfl right rfl
        ⟨rfl, rfl, rfl, rfl⟩
  | sendFlag success =>
      cases left
      exact @radio_disguised lim _ _ _ _ (.sendFlag success) h alike.forget _ rfl right rfl
        ⟨rfl, rfl, rfl, rfl⟩

/-- By induction on the steps; the draws are dealt to both before each. -/
theorem outgoing_disguised {s₁ s₂ : Firmware} {es : List (Act × Rng)} (h : s₁.Discreetly v)
    (start : Disguised s₁ s₂) (view : SameView lim v s₁ s₂ es) :
    outgoing lim s₁ es = outgoing lim s₂ es := by
  induction es generalizing v s₁ s₂ with
  | nil => rfl
  | cons e es ih =>
      obtain ⟨a, draws⟩ := e
      obtain ⟨m, alike, rfl⟩ := start
      have dealt : ∃ m', Alike True (s₁.deal draws).mem m' ∧
          (s₁.withMem m).deal draws = (s₁.deal draws).withMem m' := by
        obtain ⟨-, rivals⟩ := alike
        exact ⟨_, .swap (m := { s₁.mem with rng := draws }) (r := draws) (fun _ => rfl) rivals, rfl⟩
      obtain ⟨m', alike', same⟩ := dealt
      have discreet : (s₁.deal draws).Discreetly v := ⟨h.inSwitch, h.inTail, h.httpd⟩
      simp only [SameView] at view
      cases left : s₁.dealtStep lim (a, draws) with
      | none => simp [left] at view
      | some s₁' =>
          cases right : (s₁.withMem m).dealtStep lim (a, draws) with
          | none => simp [left, right] at view
          | some s₂' =>
              simp only [left, right] at view
              have right' := right
              rw [dealtStep, same] at right'
              obtain ⟨after, discreet'⟩ := step_disguised discreet alike' left right' view.1
              obtain ⟨m₂, alike₂, rfl⟩ := after
              have later := ih discreet' ⟨m₂, alike₂, rfl⟩ view.2
              simp only [outgoing, left, right, later]
              rfl

/-- The test of `SameView` for steps in which no ships are placed. -/
def showsSame (lim : Limits) : GameState → Firmware → Firmware → List (Act × Rng) → Bool
  | _, _, _, [] => true
  | v, s₁, s₂, e :: es =>
      match s₁.dealtStep lim e, s₂.dealtStep lim e with
      | some s₁', some s₂' =>
          decide (s₁.caseAfter v e.1 ∉ [GameState.webInit, .randomInit] ∧
            s₁'.mem.game.opponent.board.isOpp = s₂'.mem.game.opponent.board.isOpp ∧
            ∀ c : Cell, (s₁'.mem.game.opponent.board.cells c.1 c.2).veiled =
              (s₂'.mem.game.opponent.board.cells c.1 c.2).veiled) &&
          showsSame lim (s₁.caseAfter v e.1) s₁' s₂' es
      | _, _ => false

theorem sameView_of_showsSame {s₁ s₂ : Firmware} {es : List (Act × Rng)}
    (h : showsSame lim v s₁ s₂ es = true) : SameView lim v s₁ s₂ es := by
  induction es generalizing v s₁ s₂ with
  | nil => trivial
  | cons e es ih =>
      cases left : s₁.dealtStep lim e with
      | none => simp [showsSame, left] at h
      | some s₁' =>
          cases right : s₂.dealtStep lim e with
          | none => simp [showsSame, left, right] at h
          | some s₂' =>
              simp only [showsSame, left, right, Bool.and_eq_true, decide_eq_true_eq] at h
              obtain ⟨⟨quiet, isOpp, cells⟩, rest⟩ := h
              simp only [SameView, left, right]
              refine ⟨⟨?_, fun placing => absurd placing quiet⟩, ih rest⟩
              simp only [Board.masked, isOpp, Board.mk.injEq, and_true]
              funext r c
              exact cells (r, c)

/-- The ships of `rowsPlayer`, pushed to the other edge. -/
def mirroredPlayer : Player where
  board := ⟨fun row col => if gridSize ≤ col.val + row.val then .ship else .empty, true⟩
  boats := fun b => ⟨4 - b.val, fun i => ⟨4 - b.val, 1 + b.val + i.val⟩, 0, true⟩
  boatCount := maxShips

theorem mirroredPlayer_whole : mirroredPlayer.Whole := by
  have consistent : mirroredPlayer.Consistent := by
    refine ⟨le_refl _, ?_, fun b _ => ⟨4 - b.val, 1 + b.val, true, fun i _ => ?_⟩, ?_, ?_, ?_,
      ?_, ?_⟩
    · decide +kernel
    · simp [mirroredPlayer, shipCell]
    · decide +kernel
    · decide +kernel
    · decide +kernel
    · decide +kernel
    · decide +kernel
  exact ⟨consistent.agrees, rfl, by decide⟩

theorem rowsPlayer_whole : (rowsPlayer true).Whole :=
  ⟨(rowsPlayer_consistent true).agrees, rfl, by decide⟩

theorem mirroredPlayer_masked : (rowsPlayer true).board.masked = mirroredPlayer.board.masked := by
  have cells : ∀ c : Cell, ((rowsPlayer true).board.cells c.1 c.2).veiled =
      (mirroredPlayer.board.cells c.1 c.2).veiled := by decide +kernel
  simp only [Board.masked, Board.mk.injEq]
  exact ⟨funext fun r => funext fun c => cells (r, c), rfl⟩

/-- Waiting for the player, with a press in the queue. -/
def pressed : Firmware :=
  { boot ⟨1, none⟩ with
    mem := { bootMem with
      game := ⟨rowsPlayer false, rowsPlayer true, difficultyRandom, .waitingForPlayer, true, false⟩
      wsConnected := true }
    receiveQueue := [⟨4, messageTypeOf "BUTTON", payloadOf [2, 4], 24⟩] }

/-- The press is answered, the browser asks for the boards, the opponent moves. -/
def pressedRun : List (Act × Rng) :=
  (List.replicate 4 Act.game ++ [Act.request (.wsMessage .init)] ++ List.replicate 3 Act.httpd ++
    List.replicate 6 Act.game).map (·, ⟨fun _ => 0, 0⟩)

/-- Unhit ships of the opponent are not disclosed: from the head of the loop, and
with the same draws, requests and frames in both runs, all that is sent is the
same against two whole fleets that look alike after every step. -/
theorem opponent_undisclosed (lim : Limits) {s : Firmware} {q : Player} (es : List (Act × Rng))
    (head : s.AtHead) (serving : ∀ t, s.httpd = some t → Serving t)
    (facing : s.mem.game.opponent.board.isOpp = true)
    (whole : s.mem.game.opponent.Whole) (whole' : q.Whole)
    (shown : s.mem.game.opponent.board.masked = q.board.masked)
    (view : SameView lim s.mem.game.state s (s.against q) es) :
    outgoing lim s es = outgoing lim (s.against q) es := by
  have discreet : s.Discreetly s.mem.game.state := by
    refine ⟨fun t case => ?_, fun t case => ?_, fun t running => (serving t running).blind⟩
    · rw [head] at case
      cases case
    · rw [head] at case
      cases case
      trivial
  exact outgoing_disguised discreet
    ⟨s.mem.swap q s.mem.rng, .swap False.elim ⟨shown, facing, .inr ⟨whole, whole'⟩⟩, rfl⟩ view

theorem opponent_undisclosed_press : outgoing ⟨1, none⟩ pressed pressedRun =
    outgoing ⟨1, none⟩ (pressed.against mirroredPlayer) pressedRun :=
  have view : showsSame ⟨1, none⟩ .waitingForPlayer pressed (pressed.against mirroredPlayer)
      pressedRun = true := by decide +kernel
  opponent_undisclosed ⟨1, none⟩ pressedRun rfl (fun _ idle => by cases idle) rfl rowsPlayer_whole
    mirroredPlayer_whole mirroredPlayer_masked (sameView_of_showsSame view)

end Firmware
end Battleship
