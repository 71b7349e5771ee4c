import Battleship.Chronicle
import Battleship.Naming

/-!
# How ships are picked up

A case that takes ships off the robot's board sends one command for each of them, and
each command is the one that put the ship down, turned over: at every moment of a case,
not only at its end.
-/
namespace Battleship
open Cooperative Prog Runs

/-- The call picks no ship up. -/
def Call.Leaves (c : Call) : Prop := ∀ order ∈ c.order, order.flag = 0

theorem leaves_of_mute {c : Call} (h : c.order = none) : c.Leaves := by
  rw [Call.Leaves, h]
  exact nofun

theorem leaves_calls : PlaceCalls Call.Leaves where
  delay _ _ := leaves_of_mute rfl
  place shipId row col notVertical := by
    intro order sent
    rw [robotCommand_order] at sent
    cases sent
    rfl

/-- A command that picks a ship up is the one that put down the next of the ships this
event takes down, turned over. -/
def Retrieves (put : Slots) (m₀ : Mem) (ev : Event) : Guar Mem Out Call := fun c m l =>
  ∀ order ∈ c.order, order.flag ≠ 0 → (pickups (orders l) ++ [order]).map some <+:
    (takenDown m₀ ev m).map (fun b => (put b).map IoMessage.lifted)

section Programs
variable {ans : ∀ c : Call, c.Ans} {put : Slots} {m₀ : Mem} {ev : Event}

theorem retrieves_of_leaves {c : Call} (leaves : c.Leaves) (m : Mem) (l : List (Out ⊕ Call)) :
    Retrieves put m₀ ev c m l := fun order sent other => absurd (leaves order sent) other

theorem wlp_leaves {α : Type} {t : GameTask α} (leaves : Asks Call.Leaves t) (m : Mem)
    (l : List (Out ⊕ Call)) :
    wlp (Unmoved ans) (Retrieves put m₀ ev) t (fun _ _ _ => True) m l :=
  leaves.wlp (fun _ m l leaves => retrieves_of_leaves leaves m l) m l

theorem wlp_mute {α : Type} {t : GameTask α} (mute : Mute t) (m : Mem) (l : List (Out ⊕ Call)) :
    wlp (Unmoved ans) (Retrieves put m₀ ev) t (fun _ _ _ => True) m l :=
  Asks.wlp mute (fun _ m l silent => retrieves_of_leaves (leaves_of_mute silent) m l) m l

/-- Nothing is written, and nothing is sent to the robot. -/
theorem wlp_still {α : Type} {t : GameTask α} (still : Still t) (mute : Mute t) (m : Mem)
    (l : List (Out ⊕ Call)) : wlp (Unmoved ans) (Retrieves put m₀ ev) t
      (fun _ m' l' => m' = m ∧ orders l' = orders l) m l := by
  refine still.wlp_asks (J := fun m' l' => m' = m ∧ orders l' = orders l) mute ?_ ?_ ?_ ⟨rfl, rfl⟩
  · rintro m' r l' rfl ⟨same, told⟩
    exact ⟨same, by simpa using told⟩
  · exact fun c m' l' silent _ => retrieves_of_leaves (leaves_of_mute silent) m' l'
  · rintro c m' a m'' l' silent ⟨same, told⟩ ⟨-, rfl⟩
    have told' := orders_append l' [.inr c]
    rw [orders_call, silent, Option.toList_none, List.append_nil] at told'
    exact ⟨same, told'.trans told⟩

/-- The command for a sunk ship of the player. -/
theorem wlp_showSunk_retrieves {target : Side} {sunk : Option Nat} {m : Mem}
    {l : List (Out ⊕ Call)} (next : (m.game.side target).board.isOpp = false →
      ∀ b : Fin maxShips, sunk = some b.val → ∀ l', orders l' = orders l →
        Retrieves put m₀ ev (.queueSend ((m.game.side target).boats b).removal) m l') :
    wlp (Unmoved ans) (Retrieves put m₀ ev) (showSunk target sunk) (fun _ _ _ => True) m l := by
  cases sunk with
  | none => trivial
  | some b =>
      rw [showSunk, wlp_bind, wlp_get]
      refine wlp_ite (fun own => ?_) fun _ => trivial
      rw [wlp_bind]
      refine wlp_mono ?_ (wlp_still (ioEnqueueSend_always _) (mute_sendSoundCommand 4 0) m l)
      rintro _ _ l₁ ⟨rfl, told₁⟩
      rw [wlp_bind]
      refine wlp_mono ?_ (wlp_still (always_sys _) (mute_vTaskDelay 100) _ l₁)
      rintro _ m l₂ ⟨rfl, told₂⟩
      rw [wlp_bind, wlp_get, wlp_bind]
      refine wlp_ofOption fun boat slot => ?_
      obtain ⟨hb, rfl⟩ : ∃ hb : b < maxShips, (m.game.side target).boats ⟨b, hb⟩ = boat := by
        unfold Player.boatAt at slot
        split at slot
        · exact ⟨_, Option.some.inj slot⟩
        · cases slot
      rw [removeCommand_sys, wlp_bind, wlp_sys]
      exact ⟨next own ⟨b, hb⟩ rfl l₂ (told₂.trans told₁), fun _ m' _ =>
        wlp_mute (mute_vTaskDelay 10000) m' _⟩

theorem wlp_applyGuess_retrieves {target : Side} {row col : Int} {m : Mem}
    {l : List (Out ⊕ Call)} (next : ∀ e, guessCell (m.game.side target) row col = some e →
      e.1.board.isOpp = false → ∀ b : Fin maxShips, e.2.2 = some b.val →
        ∀ l', orders l' = orders l →
          Retrieves put m₀ ev (.queueSend (e.1.boats b).removal) (m.setSide target e.1) l') :
    wlp (Unmoved ans) (Retrieves put m₀ ev) (applyGuess target row col)
      (fun _ _ _ => True) m l := by
  rw [applyGuess_strike, wlp_bind, wlp_emit, wlp_bind]
  refine wlp_tryModify fun r m₁ struck => ?_
  obtain ⟨e, guess, eq⟩ := Option.map_eq_some_iff.mp struck
  cases eq
  have side : (m.setSide target e.1).game.side target = e.1 := setSide_side m.game target e.1
  have shown : wlp (Unmoved ans) (Retrieves put m₀ ev) (showSunk target e.2.2)
      (fun _ _ _ => True) (m.setSide target e.1) (l ++ [.inl (.guess target row col)]) := by
    refine wlp_showSunk_retrieves fun own b sunk l' told => ?_
    rw [side] at own ⊢
    exact next e guess own b sunk l' (told.trans (by simp [orders]))
  rw [wlp_bind]
  exact wlp_mono (fun _ m₂ l₂ _ => wlp_mute ((mute_write _ _).bind fun _ => mute_ret _) m₂ l₂) shown

/-- One after the other the ships still afloat are picked up. -/
theorem wlp_removeLoop_retrieves {p : Player} {slots : List (Fin maxShips)}
    (done : List (Fin maxShips)) {m : Mem} {l : List (Out ⊕ Call)}
    (player : m.game.player = p)
    (told : pickups (orders l) = (done.filter (fun b => (p.boats b).Afloat)).map
      (fun b => (p.boats b).removal))
    (whole : ∀ m, m.game.player = p → (((done ++ slots).filter (fun b => (p.boats b).Afloat)).map
      (fun b => (p.boats b).removal)).map some =
        (takenDown m₀ ev m).map (fun b => (put b).map IoMessage.lifted)) :
    wlp (Unmoved ans) (Retrieves put m₀ ev) (removeLoop (slots.map Fin.val))
      (fun _ _ _ => True) m l := by
  induction slots generalizing done m l with
  | nil => trivial
  | cons b slots ih =>
      have slot : m.game.player.boatAt b.val = some (p.boats b) := player ▸ dif_pos b.isLt
      have shift : (done ++ [b]) ++ slots = done ++ b :: slots := by simp
      rw [List.map_cons, removeLoop, wlp_bind, wlp_get, wlp_bind]
      refine wlp_ofOption fun boat eq => ?_
      obtain rfl := Option.some.inj (slot.symm.trans eq)
      rw [wlp_bind, removeBoat]
      refine wlp_ite (fun afloat => ?_) fun sunk => ?_
      · have more : (done ++ [b]).filter (fun b => (p.boats b).Afloat) =
            done.filter (fun b => (p.boats b).Afloat) ++ [b] := by
          have afloat : (p.boats b).Afloat := afloat
          rw [List.filter_append, List.filter_cons_of_pos (by simpa using afloat), List.filter_nil]
        rw [removeCommand_sys, wlp_bind, wlp_sys]
        constructor
        · intro order sent _
          rw [removal_order] at sent
          cases sent
          rw [told, ← whole m player, ← shift, List.filter_append, more]
          simp
        · rintro _ _ ⟨-, rfl⟩
          refine wlp_mono ?_ (wlp_still (always_sys _) (mute_vTaskDelay 12500) _ _)
          rintro _ _ l₂ ⟨rfl, told₂⟩
          refine ih (done ++ [b]) player ?_ (shift ▸ whole)
          rw [told₂, orders_append, orders_call, removal_order, more, List.map_append, ← told]
          simp [pickups]
      · refine ih (done ++ [b]) player ?_ (shift ▸ whole)
        have down : ¬(p.boats b).Afloat := sunk
        rw [told, List.filter_append, List.filter_cons_of_neg (by simpa using down)]
        simp

theorem webInitCase_leaves : Asks Call.Leaves webInitCase :=
  get_asks fun _ => .ite (.bind (write_asks _ _) fun _ => .bind (write_asks _ _) fun _ =>
    placeRandomShips_asks leaves_calls _ _) trivial

theorem randomInitCase_leaves : Asks Call.Leaves randomInitCase :=
  .bind (.bind (placeRandomShips_asks leaves_calls _ _) fun _ =>
    .bind (placeRandomShips_asks leaves_calls _ _) fun _ =>
      .bind (write_asks _ _) fun _ => vTaskDelay_asks (leaves_calls.delay 1000 rfl))
    fun _ => write_asks _ _

theorem waitingForPlayer_retrieves {m : Mem} (sided : m.Sided) :
    wlp (Unmoved ans) (Retrieves put m₀ ev) waitingForPlayerCase (fun _ _ _ => True) m [] := by
  rw [waitingForPlayerCase_received, wlp_bind, wlp_sys]
  refine ⟨retrieves_of_leaves (leaves_of_mute rfl) m [], ?_⟩
  rintro msg _ ⟨-, rfl⟩
  cases msg with
  | none => trivial
  | some msg =>
      refine wlp_ite (fun _ => ?_) fun _ => trivial
      rw [guessAt, wlp_bind]
      refine wlp_mono (fun result m₁ l₁ _ => wlp_mute (.ite (mute_ret ()) (mute_playerMoved result))
        m₁ l₁) (wlp_applyGuess_retrieves fun e guess own => ?_)
      have faces : e.1.board.isOpp = true := (guessCell_boats guess).1.trans sided.opp
      cases faces.symm.trans own

theorem waitingForOpponent_retrieves (lim : Limits) (tagged : put.Tagged m₀)
    (waiting : m₀.game.state = .waitingForOpponent) {msg : Option IoMessage} :
    wlp (Unmoved ans) (Retrieves put m₀ (.iteration msg)) (waitingForOpponentCase lim)
      (fun _ _ _ => True) m₀ [] := by
  rw [waitingForOpponentCase, wlp_bind]
  refine wlp_mono ?_ (wlp_still (always_sys _) (mute_vTaskDelay 2000) m₀ [])
  rintro _ m l₁ ⟨rfl, told₁⟩
  rw [opponentMove, wlp_bind, opponentGuess]
  refine wlp_attempt fun coord m₁ aimed => ?_
  obtain ⟨g, -, eq⟩ := Outcome.bind_eq_done aimed
  have game : m.game = m₁.game := congrArg (fun r => r.2.game) (Outcome.done.inj eq)
  rw [wlp_bind]
  refine wlp_mono (fun result m₂ l₂ _ => wlp_mute ((mute_tryModify _).bind fun _ =>
    .ite (mute_ret ()) mute_opponentMoved) m₂ l₂)
    (wlp_applyGuess_retrieves fun e guess _ b sunk l₂ told₂ => ?_)
  obtain ⟨p, result, sunk'⟩ := e
  obtain rfl : sunk' = some b.val := sunk
  have struck : guessCell m.game.player coord.row coord.col = some (p, result, some b.val) :=
    game ▸ guess
  intro order sent _
  rw [removal_order] at sent
  cases sent
  have handled : Handled m (m₁.setSide .player p) _ := .guessed waiting struck
  have all := iteration_picksUp tagged msg handled
  rw [filter_sunk, (filter_removals _ _).2] at all
  rw [← all, told₂, told₁]
  exact List.prefix_rfl

theorem gameRestart_retrieves (tagged : put.Tagged m₀) (restart : m₀.game.state = .gameRestart)
    {msg : Option IoMessage} : wlp (Unmoved ans) (Retrieves put m₀ (.iteration msg)) gameRestartCase
      (fun _ _ _ => True) m₀ [] := by
  rw [gameRestartCase, wlp_bind, wlp_modify, wlp_bind]
  have loop : wlp (Unmoved ans) (Retrieves put m₀ (.iteration msg))
      (removeLoop ((List.finRange maxShips).map Fin.val)) (fun _ _ _ => True)
      (engineRestart m₀) [] := by
    refine wlp_removeLoop_retrieves [] rfl rfl fun m player => ?_
    have cleared := iteration_picksUp (m := m) tagged msg (.cleared restart player)
    rw [(filter_removals _ _).2] at cleared
    exact cleared
  exact wlp_mono (fun _ m₁ l₁ _ => wlp_mute (mute_setState _) m₁ l₁) loop

theorem gameSwitch_retrieves (lim : Limits) (tagged : m₀.game.state ≠ .init → put.Tagged m₀)
    (msg : Option IoMessage) : wlp (Unmoved ans) (Retrieves put m₀ (.iteration msg))
      (gameSwitch lim m₀.game.state) (fun _ _ _ => True) m₀ [] := by
  cases state : m₀.game.state with
  | init => exact wlp_mute mute_initCase m₀ []
  | webInit => exact wlp_leaves webInitCase_leaves m₀ []
  | randomInit => exact wlp_leaves randomInitCase_leaves m₀ []
  | running => trivial
  | waitingForOpponent =>
      exact waitingForOpponent_retrieves lim (tagged (by simp [state])) state
  | waitingForPlayer => exact waitingForPlayer_retrieves (tagged (by simp [state])).sided
  | gameOver => exact wlp_mute mute_gameOverCase m₀ []
  | gameRestart => exact gameRestart_retrieves (tagged (by simp [state])) state

end Programs

/-- The command that put down the ship in each slot. -/
def putDown : List Deed → Slots
  | [] => fun _ => none
  | d :: older => (putDown older).fill d.told

theorem takenDown_brushed (m₀ : Mem) (ev : Event) {m m' : Mem} (h : Brushes m m') :
    takenDown m₀ ev m' = takenDown m₀ ev m := by
  obtain ⟨d, v, conn, -, rfl⟩ := h
  rfl

section Chronicle
variable {lim : Limits} {c : Chronicle}

/-- The order picks up the next of the ships that the last deed takes down, under the
name it was put down with. -/
def Chronicle.PicksUp (c : Chronicle) (order : IoMessage) : Prop :=
  ∃ d older, c.deeds = d :: older ∧ (pickups d.told ++ [order]).map some <+:
    (takenDown d.mem d.event c.fw.mem).map (fun b => (putDown older b).map IoMessage.lifted)

theorem Chronicled.tagged {ds : List Deed} {m : Mem} (h : Chronicled lim WellNamed ds m)
    (begun : m.game.state ≠ .init) : (putDown ds).Tagged m := by
  rcases h.invariant (P := fun ds m => (putDown ds).Tagged m) (fun ds m => booted_tagged _)
    (fun _ _ _ tagged touches => tagged.brushed touches.brushes)
    (fun _ _ _ _ => step_tagged) with ⟨-, init⟩ | tagged
  · exact absurd init begun
  · exact tagged

/-- A list of ships picks up none. -/
theorem Ongoing.leaves {r : Request} {ds : List Deed} {cl : Call}
    {k : cl.Ans → GameTask Response} {m : Mem} (h : Ongoing lim WellNamed (.request r)
      (answer none) (fun _ => handle r) ds (.call cl k) m) : cl.Leaves := by
  obtain ⟨m₀, l, older, -, -, -, passage⟩ := h
  have start : Prog.wlp (Unmoved (answer none)) (fun c _ _ => c.Leaves) (handle r) _ m₀ [] :=
    (handle_asks leaves_calls r).wlp (fun _ _ _ leaves => leaves) m₀ []
  exact (passage.wlp start).1

/-- What a case at work picks up next. -/
theorem Ongoing.retrieves {msg : Option IoMessage} {ds : List Deed} {cl : Call}
    {k : cl.Ans → GameTask Unit} {m : Mem} (h : Ongoing lim WellNamed (.iteration msg)
      (answer msg) (fun m => gameSwitch lim m.game.state) ds (.call cl k) m) {order : IoMessage}
    (sent : order ∈ cl.order) (remove : order.flag ≠ 0) : ∃ d older, ds = d :: older ∧
      (pickups d.told ++ [order]).map some <+: (takenDown d.mem d.event m).map
        (fun b => (putDown older b).map IoMessage.lifted) := by
  obtain ⟨m₀, l, older, rfl, past, -, passage⟩ := h
  have retrieves := passage.wlp (gameSwitch_retrieves lim past.tagged msg)
  exact ⟨_, older, rfl, retrieves.1 order sent remove⟩

/-- As long as the lists of ships name them as the removals do, and come by turns with
the game task, every ship is picked up under the name it was put down with: each command
as it is queued, and all of them once the case is over. -/
theorem names_kept (h : Reaches (Chronicle.step lim) (Chronicle.Apart WellNamed)
    (Chronicle.Start lim) c) :
    (∀ a, ∀ order ∈ (c.fw.answered a).bind Call.order, order.flag ≠ 0 → c.PicksUp order) ∧
    ∀ d older msg, c.deeds = d :: older → d.event = .iteration msg → c.fw.Between = true →
      (pickups d.told).map some = (takenDown d.mem d.event c.fw.mem).map
        (fun b => (putDown older b).map IoMessage.lifted) := by
  constructor
  · intro a order sent remove
    have silent {o : Option IoMessage} (none : o = .none) (sent : order ∈ o) :
        c.PicksUp order := by rw [none] at sent; cases sent
    cases Chronicle.reaches_tracks h with
    | resting rests =>
        cases a with
        | game => exact silent rests.rest.answered sent
        | httpd =>
            cases handler : c.fw.httpd with
            | none => exact silent (by rw [Firmware.answered, handler]; rfl) sent
            | some t => exact silent ((rests.aside t handler).answered handler) sent
        | _ => cases sent
    | serving _ rest handler ongoing =>
        cases a with
        | game => exact silent rest.answered sent
        | httpd =>
            obtain ⟨cl, waits, sent⟩ := Option.bind_eq_some_iff.mp sent
            rw [Firmware.answered, handler, Option.bind_some] at waits
            obtain ⟨k, rfl⟩ := Prog.pending_eq_some waits
            exact absurd (ongoing.leaves order sent) remove
        | _ => cases sent
    | playing case aside ongoing _ _ _ touches =>
        cases a with
        | game =>
            obtain ⟨cl, waits, sent⟩ := Option.bind_eq_some_iff.mp sent
            rw [Firmware.answered, Firmware.rest, case] at waits
            obtain ⟨k, rfl⟩ := Prog.pending_eq_some waits
            obtain ⟨d, older, deeds, next⟩ := ongoing.retrieves sent remove
            exact ⟨d, older, deeds, takenDown_brushed _ _ touches.brushes ▸ next⟩
        | httpd =>
            cases handler : c.fw.httpd with
            | none => exact silent (by rw [Firmware.answered, handler]; rfl) sent
            | some t => exact silent ((aside t handler).answered handler) sent
        | _ => cases sent
  · intro d older msg last iteration left
    obtain ⟨m, past, -, stepped, told, touches⟩ := Chronicle.reaches_left h last iteration left
    rw [takenDown_brushed _ _ touches.brushes, told, iteration]
    rw [iteration] at stepped
    by_cases init : d.mem.game.state = .init
    · have nothing :
          orders (Prog.trace (answer msg) (gameSwitch lim d.mem.game.state) d.mem) = [] := by
        rw [init]
        exact mute_initCase.silent _ _
      rw [orders_iteration, nothing]
      simp [takenDown, init, pickups]
    · have tagged := past.tagged init
      obtain ⟨u, done⟩ := Outcome.memory_some stepped
      exact iteration_picksUp tagged msg (iteration_handled tagged.sided done)

end Chronicle

/-- The ships from the longest to the shortest, as the removals number them. -/
def namedShips : List ShipRequest :=
  [⟨0, 0, 4, true⟩, ⟨2, 4, 3, false⟩, ⟨4, 0, 2, true⟩, ⟨2, 2, 1, false⟩]

/-- A setup that takes this long, and a restart before the game has begun. A browser
connects while the first ship is picked up. -/
def setupAndRestart (ships : List ShipRequest) (serving removing : Nat) : List Act :=
  List.replicate 5 .game ++ [.request (.setupGame (.json (pageSetup ships)))] ++
    List.replicate serving .httpd ++ [.request (.wsMessage .restart)] ++ List.replicate 3 .httpd ++
    [.sender, .sender, .game, .request .wsConnect, .httpd] ++ List.replicate removing .game

theorem named_reached (removing : Nat) (check : Chronicle → Bool)
    (meets : Meets (Chronicle.step ⟨0, none⟩) (Chronicle.Apart ListNamed) (.boot ⟨0, none⟩)
      (setupAndRestart namedShips 24 removing))
    (run : (runList (Chronicle.step ⟨0, none⟩) (.boot ⟨0, none⟩)
      (setupAndRestart namedShips 24 removing)).any check = true) :
    ∃ c, Reaches (Chronicle.step ⟨0, none⟩) (Chronicle.Apart WellNamed)
      (Chronicle.Start ⟨0, none⟩) c ∧ check c = true := by
  obtain ⟨c, reached, checked⟩ := exists_reaches_of_meets (Chronicle.boot_start _) meets run
  exact ⟨c, reached.imp fun _ _ => Chronicle.Apart.mono fun _ _ => ListNamed.wellNamed, checked⟩

/-- The first of four ships is about to be picked up, and in the end all four are. -/
theorem names_kept_restart :
    (∃ (c : Chronicle) (order : IoMessage), order ∈ (c.fw.answered .game).bind Call.order ∧
      order.flag ≠ 0 ∧ c.PicksUp order) ∧
    ∃ (c : Chronicle) (d : Deed) (older : List Deed), c.deeds = d :: older ∧
      takenDown d.mem d.event c.fw.mem = [0, 1, 2, 3] ∧
      (pickups d.told).map some = (takenDown d.mem d.event c.fw.mem).map
        (fun b => (putDown older b).map IoMessage.lifted) := by
  constructor
  · obtain ⟨c, reached, check⟩ := named_reached 0 (fun c =>
      ((c.fw.answered .game).bind Call.order).any (fun order => order.flag ≠ 0))
      (by decide +kernel) (by decide +kernel)
    obtain ⟨order, sent, remove⟩ := (Option.any_eq_true _ _).mp check
    have remove := of_decide_eq_true remove
    exact ⟨c, order, sent, remove, (names_kept reached).1 .game order sent remove⟩
  · obtain ⟨c, reached, check⟩ := named_reached 8 (fun c =>
      c.fw.Between ∧ c.deeds.head?.any (fun d =>
        takenDown d.mem d.event c.fw.mem = [0, 1, 2, 3]) = true)
      (by decide +kernel) (by decide +kernel)
    obtain ⟨left, last⟩ := of_decide_eq_true check
    obtain ⟨d, first, taken⟩ := (Option.any_eq_true _ _).mp last
    have taken := of_decide_eq_true taken
    obtain ⟨older, deeds⟩ := List.head?_eq_some_iff.mp first
    obtain ⟨msg, iteration⟩ : ∃ msg, d.event = .iteration msg := by
      cases event : d.event with
      | request r => rw [event] at taken; cases taken
      | iteration msg => exact ⟨msg, rfl⟩
    exact ⟨c, d, older, deeds, taken, (names_kept reached).2 d older msg deeds iteration left⟩

/-- A ship of three cells alone on the list. -/
def loneShips : List ShipRequest := [⟨0, 0, 3, true⟩]

/-- The numbers that the ships of the last deed were put down with. -/
def Chronicle.numbers (c : Chronicle) : List (Option UInt8) :=
  match c.deeds with
  | [] => []
  | d :: older => (takenDown d.mem d.event c.fw.mem).map
      (fun b => (putDown older b).map IoMessage.shipId)

/-- It is put down as ship 0 and picked up as ship 1. -/
theorem misnamed_ship_reached : ∃ (c : Chronicle) (order : IoMessage),
    Reaches (Chronicle.step ⟨0, none⟩) (fun _ _ => True) (Chronicle.Start ⟨0, none⟩) c ∧
    order ∈ (c.fw.answered .game).bind Call.order ∧ order.flag ≠ 0 ∧ ¬c.PicksUp order := by
  have run : (runList (Chronicle.step ⟨0, none⟩) (.boot ⟨0, none⟩)
      (setupAndRestart loneShips 9 0)).any (fun c =>
        ((c.fw.answered .game).bind Call.order).any (fun order => order.flag ≠ 0 ∧
          order.shipId = 1 ∧ c.numbers = [some 0])) = true := by
    decide +kernel
  obtain ⟨c, reached, check⟩ := exists_reaches (Chronicle.boot_start _) run
  obtain ⟨order, sent, checked⟩ := (Option.any_eq_true _ _).mp check
  obtain ⟨remove, up, down⟩ := of_decide_eq_true checked
  refine ⟨c, order, reached, sent, remove, ?_⟩
  rintro ⟨d, older, deeds, next⟩
  have numbers : (takenDown d.mem d.event c.fw.mem).map
      (fun b => (putDown older b).map IoMessage.shipId) = [some 0] := by
    rw [← down, Chronicle.numbers, deeds]
  have ids := next.map (Option.map IoMessage.shipId)
  rw [List.map_map, List.map_map] at ids
  have same : (Option.map IoMessage.shipId ∘ fun b => (putDown older b).map IoMessage.lifted) =
      fun b => (putDown older b).map IoMessage.shipId := by
    funext b
    rw [Function.comp, Option.map_map]
    rfl
  rw [same, numbers] at ids
  have named : some (1 : UInt8) ∈ [some (0 : UInt8)] :=
    ids.subset (List.mem_map.mpr ⟨order, by simp, by simp [up]⟩)
  exact absurd named (by decide)

end Battleship
