import Battleship.Naming
import Battleship.Phases
import Battleship.Lib.Ledger

/-!
# The real board

The robot's board carries the ships that the player's boats still have afloat: a
ship is put down when it is placed, picked up when it is sunk, and what is left
is picked up at the restart.
-/
namespace Battleship
open Cooperative Runs Ledger

/-- What was put down, each under the command that picks it up. -/
def placements (sent : List IoMessage) : List IoMessage :=
  (sent.filter (fun c => c.flag = 0)).map IoMessage.lifted

/-- No ship is put down or picked up twice, and none is picked up that was not
put down. -/
def Orderly (sent : List IoMessage) : Prop := Paired (placements sent) (pickups sent)

theorem placements_place (sent : List IoMessage) {c : IoMessage} (place : c.flag = 0) :
    placements (sent ++ [c]) = placements sent ++ [c.lifted] := by
  simp [placements, place]

theorem pickups_place (sent : List IoMessage) {c : IoMessage} (place : c.flag = 0) :
    pickups (sent ++ [c]) = pickups sent := by
  simp [pickups, place]

theorem placements_remove (sent : List IoMessage) {c : IoMessage} (remove : c.flag = 1) :
    placements (sent ++ [c]) = placements sent := by
  simp [placements, remove]

theorem pickups_remove (sent : List IoMessage) {c : IoMessage} (remove : c.flag = 1) :
    pickups (sent ++ [c]) = pickups sent ++ [c] := by
  simp [pickups, remove]

/-- A ship has been placed, or a placing loop is at work. -/
def Player.Started (p : Player) : Prop := p.boatCount < maxShips ∨ ∃ b, 0 < (p.boats b).length

/-- No ship is afloat. -/
def Player.AllDown (p : Player) : Prop := ∀ b, ¬(p.boats b).Afloat

/-- Both sides are as `Game_Init` leaves them. -/
def Game.Fresh (g : Game) : Prop :=
  g.player = clearedGame.player ∧ g.opponent = clearedGame.opponent

/-- The real board carries the boats in `out`. -/
structure Carries (p : Player) (out : Fin maxShips → Prop) (sent : List IoMessage) : Prop where
  tally : Tally (fun b => (p.boats b).removal) out (placements sent) (pickups sent)
  long : ∀ b, out b → 0 < (p.boats b).length
  started : p.Started ∨ sent = []

theorem Game.Fresh.allDown {g : Game} (h : g.Fresh) : g.player.AllDown := by
  intro b
  rw [h.1]
  simp [clearedGame, Boat.zero, Boat.Afloat]

theorem Game.Fresh.not_started {g : Game} (h : g.Fresh) : ¬g.player.Started := by
  rw [h.1]
  simp [clearedGame, Boat.zero, Player.Started]

section Carries
variable {p : Player} {out : Fin maxShips → Prop} {sent : List IoMessage}

theorem Carries.orderly (h : Carries p out sent) : Orderly sent := h.tally.paired

/-- Other boats and other words for those out, as long as they agree on them. -/
theorem Carries.congr (h : Carries p out sent) {p' : Player} {out' : Fin maxShips → Prop}
    (same : ∀ b, out' b ↔ out b) (keeps : ∀ b, out b → (p'.boats b).length = (p.boats b).length ∧
      (p'.boats b).removal = (p.boats b).removal) (started : p.Started → p'.Started) :
    Carries p' out' sent := by
  refine ⟨h.tally.congr same fun b hb => (keeps b hb).2, fun b hb => ?_, h.started.imp_left started⟩
  have hb := (same b).mp hb
  rw [(keeps b hb).1]
  exact h.long b hb

theorem Carries.as (h : Carries p out sent) {out' : Fin maxShips → Prop}
    (same : ∀ b, out' b ↔ out b) : Carries p out' sent :=
  h.congr same (fun _ _ => ⟨rfl, rfl⟩) id

theorem carries_nil (none : ∀ b, ¬out b) : Carries p out [] :=
  ⟨tally_nil none, fun b hb => absurd hb (none b), .inr rfl⟩

/-- A boat is picked up. -/
theorem Carries.take (h : Carries p out sent) {b : Fin maxShips} (hb : out b) :
    Carries p (fun b' => out b' ∧ b' ≠ b) (sent ++ [(p.boats b).removal]) := by
  refine ⟨?_, fun b' hb' => h.long b' hb'.1, .inl (.inr ⟨b, h.long b hb⟩)⟩
  rw [placements_remove _ (removal_flag _), pickups_remove _ (removal_flag _)]
  exact h.tally.take hb

/-- A boat is put down by a command that its removal turns over. -/
theorem Carries.put (h : Carries p out sent) {b : Fin maxShips} {c : IoMessage} (place : c.flag = 0)
    (named : (p.boats b).removal = c.lifted) (new : c.lifted ∉ placements sent)
    (long : 0 < (p.boats b).length) : Carries p (fun b' => b' = b ∨ out b') (sent ++ [c]) := by
  refine ⟨?_, fun b' hb' => ?_, .inl (.inr ⟨b, long⟩)⟩
  · rw [placements_place _ place, pickups_place _ place, ← named]
    exact h.tally.put (by rw [named]; exact new)
  · rcases hb' with rfl | hb'
    · exact long
    · exact h.long b' hb'

/-- After a guess the boat it sank lies there still. -/
theorem Carries.guessed (h : Carries p (fun b => (p.boats b).Afloat) sent) {row col : Int}
    {e : Player × GuessResult × Option Nat} (guess : guessCell p row col = some e) :
    Carries e.1 (fun b => (e.1.boats b).Afloat ∨ e.2.2 = some b.val) sent := by
  have keeps := guessCell_removal guess
  refine h.congr (fun b => ?_) (fun b _ => ⟨(keeps b).1, (keeps b).2.1⟩) ?_
  · rw [guessCell_takenDown guess b]
    have grows : (e.1.boats b).Afloat → (p.boats b).Afloat := fun afloat =>
      lt_of_le_of_lt (keeps b).2.2 ((keeps b).1 ▸ afloat)
    constructor
    · rintro (afloat | ⟨afloat, -⟩)
      · exact grows afloat
      · exact afloat
    · intro afloat
      by_cases still : (e.1.boats b).Afloat
      · exact .inl still
      · exact .inr ⟨afloat, still⟩
  · rintro (room | ⟨b, long⟩)
    · exact .inl (guessCell_boatCount guess ▸ room)
    · exact .inr ⟨b, (keeps b).1 ▸ long⟩

end Carries

/-- The players stay, and the state stays or becomes what a command that comes in
time asks for. -/
structure Game.Visited (g g' : Game) : Prop where
  player : g'.player = g.player
  opponent : g'.opponent = g.opponent
  ready : g'.gameReady = g.gameReady
  state : g'.state = g.state ∨ g'.state = .gameRestart ∧ (g.state = .init → g.player.AllDown) ∨
    g'.state = .randomInit ∧ g.Fresh

theorem Game.Visited.refl (g : Game) : g.Visited g := ⟨rfl, rfl, rfl, .inl rfl⟩

theorem Game.Visited.fresh {g g' : Game} (h : g.Visited g') (fresh : g'.Fresh) : g.Fresh :=
  ⟨h.player ▸ fresh.1, h.opponent ▸ fresh.2⟩

theorem Game.Visited.trans {g g' g'' : Game} (h : g.Visited g') (h' : g'.Visited g'') :
    g.Visited g'' := by
  refine ⟨h'.player.trans h.player, h'.opponent.trans h.opponent, h'.ready.trans h.ready, ?_⟩
  rcases h'.state with same | ⟨restart, down⟩ | ⟨random, fresh⟩
  · rw [same]
    exact h.state
  · refine .inr (.inl ⟨restart, fun init => ?_⟩)
    rcases h.state with same | ⟨-, down'⟩ | ⟨-, fresh⟩
    · rw [← h.player]
      exact down (same.trans init)
    · exact down' init
    · exact fresh.allDown
  · exact .inr (.inr ⟨random, h.fresh fresh⟩)

/-- A condition on the game and the commands that the other tasks keep. -/
structure Stable (J : Game → List IoMessage → Prop) : Prop where
  orderly : ∀ {g sent}, J g sent → Orderly sent
  visited : ∀ {g g' sent}, g.Visited g' → J g sent → J g' sent

abbrev clearEnv : Prog.Env Mem Call Call.Ans := fun _ m _ m' => m.game.Visited m'.game

/-- `before` is what the robot was told before this iteration. -/
abbrev clearGuar (before : List IoMessage) : Prog.Guar Mem Out Call :=
  fun _ _ l => Orderly (before ++ orders l)

/-- The action leaves the game as it is. -/
def SameGame (m : Mem) (r : Mem × List Out) : Prop := r.1.game = m.game

theorem sameGame_writes : EngineWrites SameGame where
  none _ := rfl
  engine _ _ _ _ := rfl
  leds _ _ := rfl

theorem sameGame_emit (o : Out) : Prog.Always SameGame (Prog.emit o : GameTask Unit) :=
  Prog.always_write fun _ => rfl

theorem sameGame_update (isInit : Bool) : Prog.Always SameGame (sendWsGameUpdate isInit) :=
  .bind (Prog.always_get fun _ => rfl) fun _ => .ite (sameGame_emit _) trivial

theorem sameGame_result (winner : Side) : Prog.Always SameGame (sendWsResult winner) :=
  .bind (sameGame_emit _) fun _ => .bind (Prog.always_get fun _ => rfl) fun _ =>
    .ite (sameGame_emit _) trivial

/-- What is only about the commands is kept too. -/
theorem Stable.and {J : Game → List IoMessage → Prop} (stable : Stable J)
    (P : List IoMessage → Prop) : Stable (fun g sent => J g sent ∧ P sent) :=
  ⟨fun h => stable.orderly h.1, fun visited h => ⟨stable.visited visited h.1, h.2⟩⟩

section Programs
variable {α : Type} {before : List IoMessage} {m : Mem} {l : List (Out ⊕ Call)}
  {J J' : Game → List IoMessage → Prop}

theorem orders_logged (l : List (Out ⊕ Call)) (new : List Out) :
    orders (l ++ new.map .inl) = orders l := by
  have silent : orders (new.map .inl) = [] :=
    List.filterMap_eq_nil_iff.mpr fun e he => by
      obtain ⟨o, -, rfl⟩ := List.mem_map.mp he
      rfl
  rw [orders_append, silent, List.append_nil]

/-- A program that leaves the game and the robot alone keeps it. -/
theorem Stable.wlp (stable : Stable J) {t : GameTask α} (mute : Mute t)
    (keeps : Prog.Always SameGame t) (start : J m.game (before ++ orders l)) :
    Prog.wlp clearEnv (clearGuar before) t (fun _ m' l' => J m'.game (before ++ orders l')) m l := by
  refine keeps.wlp_asks (J := fun m l => J m.game (before ++ orders l)) mute ?_ ?_ ?_ start
  · intro m r l same kept
    rw [orders_logged, show r.1.game = m.game from same]
    exact kept
  · exact fun _ _ _ _ kept => stable.orderly kept
  · intro c m a m' l silent kept visited
    rw [orders_append, orders_call, silent, Option.toList_none, List.append_nil]
    exact stable.visited visited kept

/-- The robot is told one command more. -/
theorem Stable.order (stable : Stable J) (stable' : Stable J') {c : IoMessage}
    (robot : (Call.queueSend c).order = some c) (start : J m.game (before ++ orders l))
    (told : J' m.game (before ++ orders l ++ [c])) :
    Prog.wlp clearEnv (clearGuar before) (Prog.sys (Call.queueSend c))
      (fun _ m' l' => J' m'.game (before ++ orders l')) m l := by
  rw [Prog.wlp_sys]
  refine ⟨stable.orderly start, fun a m' visited => ?_⟩
  rw [orders_append, orders_call, robot, Option.toList_some, ← List.append_assoc]
  exact stable'.visited visited told

/-- Two players, and the boats of the first that the real board carries. -/
def Holding (p o : Player) (out : Fin maxShips → Prop) (g : Game) (sent : List IoMessage) : Prop :=
  g.player = p ∧ g.opponent = o ∧ Carries p out sent

theorem holding_stable (p o : Player) (out : Fin maxShips → Prop) : Stable (Holding p o out) where
  orderly h := h.2.2.orderly
  visited visited h := ⟨visited.player.trans h.1, visited.opponent.trans h.2.1, h.2.2⟩

theorem wlp_removeBoat {p o : Player} {out : Fin maxShips → Prop} {b : Fin maxShips}
    (h : Holding p o out m.game (before ++ orders l)) (lies : out b ↔ (p.boats b).Afloat) :
    Prog.wlp clearEnv (clearGuar before) (removeBoat (p.boats b)) (fun _ m' l' =>
      Holding p o (fun b' => out b' ∧ b' ≠ b) m'.game (before ++ orders l')) m l := by
  refine Prog.wlp_ite (fun afloat => ?_) fun down => ?_
  · have out_b : out b := lies.mpr afloat
    rw [removeCommand_sys, Prog.wlp_bind]
    refine Prog.wlp_mono (fun _ m₁ l₁ told => ?_) ((holding_stable p o out).order
      (holding_stable p o _) (removal_order _) h ⟨h.1, h.2.1, h.2.2.take out_b⟩)
    exact (holding_stable p o _).wlp (mute_vTaskDelay _) (Prog.always_sys _) told
  · refine ⟨h.1, h.2.1, h.2.2.as fun b' => ⟨And.left, fun lies' => ⟨lies', fun eq => ?_⟩⟩⟩
    exact down (lies.mp (eq ▸ lies'))

/-- The loop picks up every boat that is afloat in its slots. -/
theorem wlp_removeLoop {p o : Player} {slots : List (Fin maxShips)} (nodup : slots.Nodup)
    (h : Holding p o (fun b => b ∈ slots ∧ (p.boats b).Afloat) m.game (before ++ orders l)) :
    Prog.wlp clearEnv (clearGuar before) (removeLoop (slots.map Fin.val)) (fun _ m' l' =>
      Holding p o (fun _ => False) m'.game (before ++ orders l')) m l := by
  induction slots generalizing m l with
  | nil => exact ⟨h.1, h.2.1, h.2.2.as fun b => by simp⟩
  | cons b slots ih =>
      obtain ⟨fresh, nodup⟩ := List.nodup_cons.mp nodup
      have slot : m.game.player.boatAt b.val = some (p.boats b) := by
        rw [h.1]
        exact dif_pos b.isLt
      rw [List.map_cons, removeLoop, Prog.wlp_bind, Prog.wlp_get, slot, Prog.wlp_bind]
      change Prog.wlp _ _ (removeBoat (p.boats b) >>= fun _ => _) _ m l
      rw [Prog.wlp_bind]
      refine Prog.wlp_mono (fun _ m₁ l₁ removed => ih nodup ?_)
        (wlp_removeBoat h (b := b) (by simp))
      refine ⟨removed.1, removed.2.1, removed.2.2.as fun b' => ?_⟩
      constructor
      · rintro ⟨member, afloat⟩
        exact ⟨⟨.tail _ member, afloat⟩, fun eq => fresh (eq ▸ member)⟩
      · rintro ⟨⟨member, afloat⟩, other⟩
        exact ⟨(List.mem_cons.mp member).resolve_left other, afloat⟩

/-- A game is played, and of the boats that are down only `sunk` still lies
there. -/
structure Playing (sunk : Option Nat) (g : Game) (sent : List IoMessage) : Prop where
  carries : Carries g.player (fun b => (g.player.boats b).Afloat ∨ sunk = some b.val) sent
  own : g.player.board.isOpp = false
  opp : g.opponent.board.isOpp = true
  started : g.player.Started
  state : g.state ∈ [.waitingForPlayer, .waitingForOpponent, .gameOver, .gameRestart]

/-- The game may turn to another state of play. -/
theorem Playing.turned {sunk : Option Nat} {g g' : Game} {sent : List IoMessage}
    (h : Playing sunk g sent) (player : g'.player = g.player)
    (opponent : g'.opponent.board.isOpp = g.opponent.board.isOpp)
    (state : g'.state ∈ [GameState.waitingForPlayer, .waitingForOpponent, .gameOver, .gameRestart]) :
    Playing sunk g' sent := by
  obtain ⟨carries, own, opp, started, -⟩ := h
  rw [← player] at carries own started
  exact ⟨carries, own, opponent.trans opp, started, state⟩

theorem playing_stable (sunk : Option Nat) : Stable (Playing sunk) where
  orderly h := h.carries.orderly
  visited := by
    intro g g' sent visited h
    refine h.turned visited.player (by rw [visited.opponent]) ?_
    rcases visited.state with same | ⟨restart, -⟩ | ⟨-, fresh⟩
    · exact same ▸ h.state
    · simp [restart]
    · exact absurd h.started fresh.not_started

theorem wlp_showSunk_player {sunk : Option Nat} (slot : ∀ b, sunk = some b → b < maxShips)
    (down : ∀ b : Fin maxShips, sunk = some b.val → ¬(m.game.player.boats b).Afloat)
    (h : Playing sunk m.game (before ++ orders l)) :
    Prog.wlp clearEnv (clearGuar before) (showSunk .player sunk) (fun _ m' l' =>
      Playing none m'.game (before ++ orders l')) m l := by
  cases sunk with
  | none => exact h
  | some b =>
      obtain ⟨b, rfl⟩ : ∃ b' : Fin maxShips, b = b'.val := ⟨⟨b, slot b rfl⟩, rfl⟩
      have own : (m.game.side .player).board.isOpp = false := h.own
      rw [showSunk, Prog.wlp_bind, Prog.wlp_get, if_pos own, Prog.wlp_bind]
      let J := fun g sent => g.player = m.game.player ∧ Playing (some b.val) g sent
      have stable : Stable J := ⟨fun h => (playing_stable _).orderly h.2, fun visited h =>
        ⟨visited.player.trans h.1, (playing_stable _).visited visited h.2⟩⟩
      refine Prog.wlp_mono (fun _ m₁ l₁ announced => ?_) (stable.wlp (mute_sendSoundCommand _ _)
        (ioEnqueueSend_always _) ⟨rfl, h⟩)
      rw [Prog.wlp_bind]
      refine Prog.wlp_mono (fun _ m₂ l₂ waited => ?_)
        (stable.wlp (mute_vTaskDelay _) (Prog.always_sys _) announced)
      obtain ⟨same, playing⟩ := waited
      have boat : (m₂.game.side .player).boatAt b.val = some (m₂.game.player.boats b) :=
        dif_pos b.isLt
      have gone : ¬(m₂.game.player.boats b).Afloat := same ▸ down b rfl
      rw [Prog.wlp_bind, Prog.wlp_get, boat, Prog.wlp_bind]
      change Prog.wlp _ _ (removeCommand (m₂.game.player.boats b) >>= fun _ => _) _ m₂ l₂
      rw [removeCommand_sys, Prog.wlp_bind]
      refine Prog.wlp_mono (fun _ m₃ l₃ removed => (playing_stable none).wlp (mute_vTaskDelay _)
        (Prog.always_sys _) removed) ((playing_stable _).order (playing_stable none)
          (removal_order _) playing { playing with carries := ?_ })
      refine (playing.carries.take (b := b) (.inr rfl)).as fun b' => ?_
      simp only [reduceCtorEq, or_false, Option.some.injEq]
      constructor
      · exact fun afloat => ⟨.inl afloat, fun eq => gone (eq ▸ afloat)⟩
      · rintro ⟨afloat | same, other⟩
        · exact afloat
        · exact absurd (Fin.ext same).symm other

theorem wlp_applyGuess (target : Side) (row col : Int)
    (h : Playing none m.game (before ++ orders l)) :
    Prog.wlp clearEnv (clearGuar before) (applyGuess target row col) (fun _ m' l' =>
      Playing none m'.game (before ++ orders l')) m l := by
  have silent : ∀ l o, orders (l ++ [Sum.inl o]) = orders l := fun l o => orders_logged l [o]
  rw [applyGuess_strike, Prog.wlp_bind, Prog.wlp_emit, Prog.wlp_bind]
  refine Prog.wlp_tryModify fun r m₁ struck => ?_
  obtain ⟨e, guess, eq⟩ := Option.map_eq_some_iff.mp struck
  cases eq
  rw [Prog.wlp_bind]
  suffices Prog.wlp clearEnv (clearGuar before) (showSunk target e.2.2) (fun _ m' l' =>
      Playing none m'.game (before ++ orders l')) (m.setSide target e.1)
      (l ++ [.inl (.guess target row col)]) by
    refine Prog.wlp_mono (fun _ m₂ l₂ shown => ?_) this
    rw [Prog.wlp_bind, Prog.wlp_emit, Prog.pure_eq, Prog.wlp_ret, silent]
    exact shown
  cases target with
  | player =>
      have carries : Carries m.game.player (fun b => (m.game.player.boats b).Afloat)
          (before ++ orders l) := h.carries.as fun b => by simp
      refine wlp_showSunk_player (fun b => guessCell_slot guess) (fun b sunk => ?_) ?_
      · exact ((guessCell_takenDown guess b).mp sunk).2
      · rw [silent]
        refine ⟨carries.guessed guess, (guessCell_boats guess).1.trans h.own, h.opp, ?_, h.state⟩
        rcases h.started with room | ⟨b, long⟩
        · exact .inl (guessCell_boatCount guess ▸ room)
        · exact .inr ⟨b, (guessCell_removal guess b).1 ▸ long⟩
  | opponent =>
      have faces : e.1.board.isOpp = true := (guessCell_boats guess).1.trans h.opp
      have struck : Playing none (m.setSide .opponent e.1).game
          (before ++ orders (l ++ [.inl (.guess .opponent row col)])) := by
        rw [silent]
        exact ⟨h.carries, h.own, faces, h.started, h.state⟩
      cases sunk : e.2.2 with
      | none => exact struck
      | some b =>
          rw [showSunk, Prog.wlp_bind, Prog.wlp_get, if_neg]
          · exact struck
          · exact fun own => by cases faces.symm.trans own

/-- The byte that a random setup names a ship of this length with. -/
def lengthId (length : Int) : UInt8 := UInt8.ofInt (4 - length)

theorem removal_shipId (ship : ShipRequest) : ship.removal.shipId = lengthId ship.length := rfl

/-- No command has named a ship of one of these lengths. -/
def Unnamed (lengths : List Int) (sent : List IoMessage) : Prop :=
  ∀ c ∈ placements sent, ∀ length ∈ lengths, c.shipId ≠ lengthId length

/-- Ships that a placing loop can tell apart. -/
structure Distinct (lengths : List Int) : Prop where
  named : lengths.Pairwise (fun a b => lengthId a ≠ lengthId b)
  positive : ∀ length ∈ lengths, 0 < length

theorem distinct_shipLengths : Distinct shipLengths := ⟨by decide, by decide⟩

/-- The placing loop of the player has come to these lengths. -/
structure Laying (lengths : List Int) (g : Game) (sent : List IoMessage) : Prop where
  carries : Carries g.player (fun b => (g.player.boats b).Afloat) sent
  own : g.player.board.isOpp = false
  opp : g.opponent.board.isOpp = true
  started : g.player.Started
  free : ∀ b : Fin maxShips, g.player.boatCount ≤ b.val → ¬(g.player.boats b).Afloat
  unnamed : Unnamed lengths sent

theorem laying_stable (lengths : List Int) : Stable (Laying lengths) where
  orderly h := h.carries.orderly
  visited := by
    intro g g' sent visited h
    obtain ⟨carries, own, opp, started, free, unnamed⟩ := h
    rw [← visited.player] at carries own started free
    rw [← visited.opponent] at opp
    exact ⟨carries, own, opp, started, free, unnamed⟩

theorem Laying.tail {length : Int} {lengths : List Int} {g : Game} {sent : List IoMessage}
    (h : Laying (length :: lengths) g sent) : Laying lengths g sent :=
  { h with unnamed := fun c hc n hn => h.unnamed c hc n (.tail _ hn) }

section Seat
variable {p : Player} {room : p.boatCount < maxShips} {ship : ShipRequest}
  {sent : List IoMessage}

/-- The seated boat is not on the real board before the robot is told of it, and
is once it is told. -/
theorem Carries.seated (h : Carries p (fun b => (p.boats b).Afloat) sent)
    (free : ¬(p.boats ⟨p.boatCount, room⟩).Afloat) (positive : 0 < ship.length)
    (unnamed : ∀ c ∈ placements sent, c.shipId ≠ lengthId ship.length) :
    Carries (p.seated room ship) (fun b => b.val ≠ p.boatCount ∧
        ((p.seated room ship).boats b).Afloat) sent ∧
      Carries (p.seated room ship) (fun b => ((p.seated room ship).boats b).Afloat)
        (sent ++ [randomOrder ship]) := by
  have moors := seated_moors p room ship
  have long : 0 < ((p.seated room ship).boats ⟨p.boatCount, room⟩).length :=
    moors.length ▸ positive
  have kept : Carries (p.seated room ship) (fun b => b.val ≠ p.boatCount ∧
      ((p.seated room ship).boats b).Afloat) sent := by
    have other : ∀ b, (p.boats b).Afloat → b.val ≠ p.boatCount := by
      rintro ⟨b, hb⟩ afloat rfl
      exact free afloat
    refine h.congr (fun b => ?_) (fun b afloat => ?_) fun _ => .inr ⟨_, long⟩
    · constructor
      · rintro ⟨ne, afloat⟩
        rwa [seated_boat_of_ne p room ship ne] at afloat
      · intro afloat
        refine ⟨other b afloat, ?_⟩
        rwa [seated_boat_of_ne p room ship (other b afloat)]
    · rw [seated_boat_of_ne p room ship (other b afloat)]
      exact ⟨rfl, rfl⟩
  refine ⟨kept, ?_⟩
  have lifted : (randomOrder ship).lifted = ship.removal := randomOrder_lifted ship
  refine (kept.put (b := ⟨p.boatCount, room⟩) (randomOrder_flag ship) ?_ ?_ long).as fun b => ?_
  · rw [lifted, moors.removal positive]
  · rw [lifted]
    exact fun member => unnamed _ member (removal_shipId ship)
  · by_cases same : b.val = p.boatCount
    · obtain ⟨b, hb⟩ := b
      cases same
      refine iff_of_true ?_ (.inl rfl)
      rw [Boat.Afloat, moors.hitCount]
      exact long
    · simp only [ne_eq, same, not_false_eq_true, true_and]
      exact ⟨.inr, fun lies => lies.resolve_left fun eq => same (congrArg Fin.val eq)⟩

end Seat

theorem wlp_finishRandomShip {p' : Player} {length : Int} {d : Draw} {lengths : List Int}
    (h : Laying (length :: lengths) m.game (before ++ orders l)) (positive : 0 < length)
    (apart : ∀ n ∈ lengths, lengthId length ≠ lengthId n) {room : m.game.player.boatCount < maxShips}
    (placed : p'.counted = m.game.player.seated room (d.request length)) (rng : Rng) :
    Prog.wlp clearEnv (clearGuar before) (finishRandomShip .player length d)
      (fun _ m' l' => Laying lengths m'.game (before ++ orders l'))
      { m with game := m.game.setSide .player p', rng := rng } l := by
  have faces : p'.board.isOpp = false := by
    have same : p'.counted.board.isOpp = _ := congrArg (fun p => p.board.isOpp) placed
    exact same.trans h.own
  have free := h.free ⟨m.game.player.boatCount, room⟩ le_rfl
  obtain ⟨kept, told⟩ := @Carries.seated _ _ (d.request length) _ h.carries free positive
    fun c hc => h.unnamed c hc length (.head _)
  rw [← placed] at kept told
  have long : ∃ b, 0 < (p'.counted.boats b).length := by
    refine ⟨⟨m.game.player.boatCount, room⟩, ?_⟩
    rw [placed]
    exact (seated_moors m.game.player room (d.request length)).length ▸ positive
  have uncount : ∀ {out sent}, Carries p'.counted out sent → Carries p' out sent := fun h =>
    h.congr (fun _ => .rfl) (fun _ _ => ⟨rfl, rfl⟩) fun _ => .inr long
  let o := m.game.opponent
  let J := fun g sent => Holding p' o (fun b => (p'.boats b).Afloat) g sent ∧
    Unnamed lengths sent
  have stable : Stable J := (holding_stable _ _ _).and _
  rw [finishRandomShip, Prog.wlp_bind, Prog.wlp_get]
  refine Prog.wlp_ite (fun _ => ?_) fun other => absurd faces other
  rw [placeCommand_sys, Prog.wlp_bind]
  refine Prog.wlp_mono (fun _ m₁ l₁ ordered => ?_) ((holding_stable p' o _).order stable
    (randomOrder_order _) ⟨rfl, rfl, uncount kept⟩ ⟨⟨rfl, rfl, uncount told⟩, ?_⟩)
  · rw [Prog.wlp_bind]
    refine Prog.wlp_mono (fun _ m₂ l₂ shown => ?_)
      (stable.wlp (mute_sendWsGameUpdate _) (sameGame_update _) ordered)
    rw [Prog.wlp_bind]
    refine Prog.wlp_mono (fun _ m₃ l₃ waited => ?_)
      (stable.wlp (mute_vTaskDelay _) (Prog.always_sys _) shown)
    obtain ⟨⟨player, opponent, carries⟩, unnamed⟩ := waited
    rw [countRandomShip, Prog.wlp_modify]
    have counted : m₃.game.player.counted = p'.counted := congrArg Player.counted player
    change Laying lengths (m₃.game.setSide .player m₃.game.player.counted) _
    rw [counted]
    refine ⟨?_, faces, ?_, .inr long, fun b used => ?_, unnamed⟩
    · exact carries.congr (fun _ => .rfl) (fun _ _ => ⟨rfl, rfl⟩) fun _ => .inr long
    · exact (congrArg (fun p => p.board.isOpp) opponent).trans h.opp
    · change p'.counted.boatCount ≤ b.val at used
      change ¬(p'.counted.boats b).Afloat
      rw [placed, seated_boatCount] at used
      rw [placed, seated_boat_of_ne _ room _ (by omega)]
      exact h.free b (by omega)
  · intro c hc n hn
    rw [placements_place _ (randomOrder_flag _)] at hc
    rcases List.mem_append.mp hc with before | now
    · exact h.unnamed c before n (.tail _ hn)
    · rw [List.mem_singleton.mp now, randomOrder_lifted, removal_shipId]
      exact apart n hn

theorem wlp_placePlayer {lengths : List Int} (distinct : Distinct lengths)
    (h : Laying lengths m.game (before ++ orders l)) :
    Prog.wlp clearEnv (clearGuar before) (placeRandomLoop .player lengths)
      (fun _ m' l' => Laying [] m'.game (before ++ orders l')) m l := by
  induction lengths generalizing m l with
  | nil => exact h
  | cons length rest ih =>
      obtain ⟨apart, named⟩ := List.pairwise_cons.mp distinct.named
      have later : Distinct rest := ⟨named, fun n hn => distinct.positive n (.tail _ hn)⟩
      rw [placeRandomLoop, Prog.wlp_bind]
      refine Prog.wlp_tryModify fun found m₁ placed => ?_
      obtain ⟨⟨found', p', rng⟩, round, eq⟩ := Option.bind_eq_some_iff.mp placed
      cases eq
      rcases placeRandomShip_cases round with ⟨rfl, rfl⟩ | ⟨d, room, rfl, -, seated⟩
      · exact ih later h.tail
      · change Prog.wlp _ _ (finishRandomShip .player length d >>= fun _ => _) _ _ _
        rw [Prog.wlp_bind]
        exact Prog.wlp_mono (fun _ _ _ laying => ih later laying)
          (wlp_finishRandomShip h (distinct.positive length (.head _)) apart seated rng)

/-- Nothing is put on the real board for the opponent. -/
theorem wlp_placeOpponent {lengths : List Int} (h : Laying [] m.game (before ++ orders l)) :
    Prog.wlp clearEnv (clearGuar before) (placeRandomLoop .opponent lengths)
      (fun _ m' l' => Laying [] m'.game (before ++ orders l')) m l := by
  induction lengths generalizing m l with
  | nil => exact h
  | cons length rest ih =>
      rw [placeRandomLoop, Prog.wlp_bind]
      refine Prog.wlp_tryModify fun found m₁ placed => ?_
      obtain ⟨⟨found', p', rng⟩, round, eq⟩ := Option.bind_eq_some_iff.mp placed
      cases eq
      rcases placeRandomShip_cases round with ⟨rfl, rfl⟩ | ⟨d, room, rfl, -, seated⟩
      · exact ih h
      · have faces : p'.board.isOpp = true := by
          have same : p'.counted.board.isOpp = _ := congrArg (fun p => p.board.isOpp) seated
          exact same.trans h.opp
        change Prog.wlp _ _ (finishRandomShip .opponent length d >>= fun _ => _) _ _ _
        rw [finishRandomShip, Prog.wlp_bind, Prog.wlp_bind, Prog.wlp_get]
        refine Prog.wlp_ite (fun own => ?_) fun _ => ?_
        · cases faces.symm.trans own
        · rw [countRandomShip, Prog.wlp_modify]
          exact ih { h with opp := faces }

/-- What holds at the head of the loop. When INIT is to come nothing lies there,
and a random fleet is placed on fresh boards only. -/
structure Berthed (g : Game) (sent : List IoMessage) : Prop where
  carries : Carries g.player (fun b => g.state ≠ .init ∧ (g.player.boats b).Afloat) sent
  unready : g.state = .webInit → g.gameReady = false
  fresh : g.state = .randomInit → g.Fresh
  playing : g.state = .waitingForPlayer ∨ g.state = .waitingForOpponent →
    g.player.board.isOpp = false ∧ g.opponent.board.isOpp = true ∧ g.player.Started

theorem berthed_stable : Stable Berthed where
  orderly h := h.carries.orderly
  visited := by
    intro g g' sent visited h
    rcases visited.state with same | ⟨restart, down⟩ | ⟨random, fresh⟩
    · obtain ⟨carries, unready, fresh, playing⟩ := h
      rw [← visited.player, ← same] at carries
      rw [← same, ← visited.ready] at unready
      rw [← same] at fresh
      rw [← same, ← visited.player, ← visited.opponent] at playing
      refine ⟨carries, unready, fun random => ?_, playing⟩
      exact ⟨visited.player.trans (fresh random).1, visited.opponent.trans (fresh random).2⟩
    · refine ⟨?_, by simp [restart], by simp [restart], by simp [restart]⟩
      rw [visited.player, restart]
      refine h.carries.as fun b => ?_
      simp only [ne_eq, reduceCtorEq, not_false_eq_true, true_and, iff_and_self]
      exact fun afloat init => down init b afloat
    · refine ⟨?_, by simp [random], fun _ => ?_, by simp [random]⟩
      · rw [visited.player]
        exact h.carries.as fun b => by simp [fresh.allDown b]
      · exact ⟨visited.player.trans fresh.1, visited.opponent.trans fresh.2⟩

theorem Playing.berthed {g : Game} {sent : List IoMessage} (h : Playing none g sent) :
    Berthed g sent := by
  obtain ⟨carries, own, opp, started, state⟩ := h
  refine ⟨carries.as fun b => ?_, fun web => ?_, fun random => ?_, fun _ => ⟨own, opp, started⟩⟩
  · have other : g.state ≠ .init := fun init => by simp [init] at state
    simp [other]
  · simp [web] at state
  · simp [random] at state

theorem Berthed.playing_of {g : Game} {sent : List IoMessage} (h : Berthed g sent)
    (state : g.state = .waitingForPlayer ∨ g.state = .waitingForOpponent) :
    Playing none g sent := by
  obtain ⟨own, opp, started⟩ := h.playing state
  have other : g.state ≠ .init := by rcases state with eq | eq <;> simp [eq]
  refine ⟨h.carries.as fun b => by simp [other], own, opp, started, ?_⟩
  rcases state with eq | eq <;> simp [eq]

theorem wlp_playerMoved_clear (result : GuessResult)
    (h : Playing none m.game (before ++ orders l)) :
    Prog.wlp clearEnv (clearGuar before) (playerMoved result)
      (fun _ m' l' => Playing none m'.game (before ++ orders l')) m l := by
  have stable := playing_stable none
  rw [playerMoved, Prog.wlp_bind]
  refine Prog.wlp_mono (fun _ m₁ l₁ told => ?_)
    (stable.wlp (mute_sendSoundCommand _ _) (ioEnqueueSend_always _) h)
  refine wlp_moveEnds (stable.wlp mute_renderBoards (renderBoards_always sameGame_writes) told)
    (fun m l drawn => ?_) fun m l drawn => ?_
  · exact stable.wlp (mute_sendWsResult _) (sameGame_result _) (drawn.turned rfl rfl (by simp))
  · exact stable.wlp (mute_sendWsGameUpdate _) (sameGame_update _)
      (drawn.turned rfl rfl (by simp))

theorem wlp_opponentMoved_clear (h : Playing none m.game (before ++ orders l)) :
    Prog.wlp clearEnv (clearGuar before) opponentMoved
      (fun _ m' l' => Playing none m'.game (before ++ orders l')) m l := by
  have stable := playing_stable none
  refine wlp_moveEnds (stable.wlp mute_renderBoards (renderBoards_always sameGame_writes) h)
    (fun m l drawn => ?_) fun m l drawn => ?_
  · exact stable.wlp ((mute_sendLedMatrixUpdate 3).bind fun _ => mute_sendWsResult _)
      (.bind (sendLedMatrixUpdate_always sameGame_writes _) fun _ => sameGame_result _)
      (drawn.turned rfl rfl (by simp))
  · exact stable.wlp (mute_sendWsGameUpdate _) (sameGame_update _)
      (drawn.turned rfl rfl (by simp))

theorem wlp_waitingForPlayer_clear (h : Playing none m.game (before ++ orders l)) :
    Prog.wlp clearEnv (clearGuar before) waitingForPlayerCase
      (fun _ m' l' => Playing none m'.game (before ++ orders l')) m l := by
  have stable := playing_stable none
  rw [waitingForPlayerCase, Prog.wlp_bind]
  refine Prog.wlp_mono (fun msg m₁ l₁ received => ?_)
    (stable.wlp (mute_sys (c := .queueReceive) rfl) (Prog.always_sys _) h)
  cases msg with
  | none => exact received
  | some msg =>
      refine Prog.wlp_ite (fun _ => ?_) fun _ => received
      rw [Prog.wlp_bind]
      refine Prog.wlp_mono (fun result _ _ struck => ?_) (wlp_applyGuess .opponent _ _ received)
      exact Prog.wlp_ite (fun _ => struck) fun _ => wlp_playerMoved_clear result struck

theorem wlp_waitingForOpponent_clear (lim : Limits)
    (h : Playing none m.game (before ++ orders l)) :
    Prog.wlp clearEnv (clearGuar before) (waitingForOpponentCase lim)
      (fun _ m' l' => Playing none m'.game (before ++ orders l')) m l := by
  have stable := playing_stable none
  rw [waitingForOpponentCase, Prog.wlp_bind]
  refine Prog.wlp_mono (fun _ m₁ l₁ waited => ?_)
    (stable.wlp (mute_vTaskDelay _) (Prog.always_sys _) h)
  rw [opponentMove, Prog.wlp_bind]
  refine Prog.wlp_mono (fun coord m₂ l₂ aimed => ?_)
    (stable.wlp (mute_attempt _) (opponentGuess_always sameGame_writes lim) waited)
  rw [Prog.wlp_bind]
  refine Prog.wlp_mono (fun result m₃ l₃ struck => ?_) (wlp_applyGuess .player _ _ aimed)
  rw [Prog.wlp_bind]
  refine Prog.wlp_mono (fun _ m₄ l₄ updated => ?_) (stable.wlp (mute_tryModify _)
    (updateSmartAi_always sameGame_writes lim coord result) struck)
  exact Prog.wlp_ite (fun _ => updated) fun _ => wlp_opponentMoved_clear updated

/-- A random fleet is placed on fresh boards. -/
theorem wlp_randomInit_clear (fresh : m.game.Fresh) (silent : before = []) :
    Prog.wlp clearEnv (clearGuar before) randomInitCase
      (fun _ m' l' => Playing none m'.game (before ++ orders l')) m [] := by
  have uncounted : Laying shipLengths
      (m.game.setSide .player { m.game.player with boatCount := 0 }) (before ++ orders []) := by
    rw [silent]
    obtain ⟨player, opponent⟩ := fresh
    have down : ∀ b, ¬(m.game.player.boats b).Afloat := Game.Fresh.allDown ⟨player, opponent⟩
    refine ⟨carries_nil down, ?_, ?_, .inl (by decide : 0 < maxShips), fun b _ => down b, ?_⟩
    · change m.game.player.board.isOpp = false
      rw [player]
      rfl
    · change m.game.opponent.board.isOpp = true
      rw [opponent]
      rfl
    · exact fun c hc => absurd hc List.not_mem_nil
  rw [randomInitCase, Prog.wlp_bind, setupGameRandomly, Prog.wlp_bind, placeRandomShips,
    Prog.wlp_bind, Prog.wlp_modify]
  refine Prog.wlp_mono (fun _ m₁ l₁ laid => ?_) (wlp_placePlayer distinct_shipLengths uncounted)
  rw [Prog.wlp_bind, placeRandomShips, Prog.wlp_bind, Prog.wlp_modify]
  refine Prog.wlp_mono (fun _ m₂ l₂ placed => ?_) (wlp_placeOpponent { laid with })
  refine Prog.wlp_mono (fun _ m₃ l₃ drawn => ?_) ((laying_stable []).wlp
    ((mute_renderBoard _ _ _).bind fun _ => mute_vTaskDelay _)
    (.bind (renderBoard_always sameGame_writes _ _ _) fun _ => Prog.always_sys _) placed)
  rw [setState, Prog.wlp_modify]
  exact ⟨drawn.carries.as fun b => by simp [Mem.setState], drawn.own, drawn.opp, drawn.started,
    by simp [Mem.setState]⟩

theorem wlp_init_clear : Prog.wlp clearEnv (clearGuar []) initCase
    (fun _ m' l' => Berthed m'.game (orders l')) m [] := by
  let J := fun (g : Game) (sent : List IoMessage) => g.Fresh ∧ g.gameReady = false ∧ sent = []
  have stable : Stable J := by
    refine ⟨fun h => ?_, fun visited h => ?_⟩
    · rw [h.2.2]
      exact paired_nil
    · exact ⟨⟨visited.player.trans h.1.1, visited.opponent.trans h.1.2⟩,
        visited.ready.trans h.2.1, h.2.2⟩
  rw [initCase, Prog.wlp_bind, gameInit, Prog.wlp_bind, Prog.wlp_modify]
  refine Prog.wlp_mono (fun _ m' l' cleared => ?_) (@Stable.wlp _ [] _ _ _ stable _
    ((mute_sendLedMatrixUpdate 3).bind fun _ => mute_vTaskDelay _)
    (.bind (sendLedMatrixUpdate_always sameGame_writes _) fun _ => Prog.always_sys _)
    ⟨⟨rfl, rfl⟩, rfl, rfl⟩)
  obtain ⟨fresh, ready, sent⟩ := cleared
  rw [setState, Prog.wlp_modify, ← List.nil_append (orders l'), sent]
  refine ⟨carries_nil fun b afloat => fresh.allDown b afloat.2, fun _ => ready, ?_, ?_⟩
  · simp [Mem.setState]
  · simp [Mem.setState]

/-- An iteration keeps it; INIT starts the account anew. -/
theorem wlp_gameSwitch_clear (lim : Limits) (h : Berthed m.game before)
    (init : m.game.state = .init → before = []) (random : m.game.state = .randomInit → before = []) :
    Prog.wlp clearEnv (clearGuar before) (gameSwitch lim m.game.state)
      (fun _ m' l' => Berthed m'.game (before ++ orders l')) m [] := by
  have start : Berthed m.game (before ++ orders []) := by
    rw [orders_nil, List.append_nil]
    exact h
  have play : ∀ {t : GameTask Unit}, Prog.wlp clearEnv (clearGuar before) t
      (fun _ m' l' => Playing none m'.game (before ++ orders l')) m [] →
      Prog.wlp clearEnv (clearGuar before) t
        (fun _ m' l' => Berthed m'.game (before ++ orders l')) m [] :=
    fun played => Prog.wlp_mono (fun _ _ _ playing => playing.berthed) played
  let J := Holding m.game.player m.game.opponent
  have stable : ∀ out, Stable (J out) := fun out => holding_stable _ _ out
  cases state : m.game.state with
  | init =>
      rw [init state]
      exact wlp_init_clear
  | webInit =>
      have unready : ¬m.game.gameReady = true := by simp [h.unready state]
      rw [gameSwitch, webInitCase, Prog.wlp_bind, Prog.wlp_get, if_neg unready]
      exact start
  | randomInit => exact play (wlp_randomInit_clear (h.fresh state) (random state))
  | running => exact start
  | waitingForOpponent =>
      exact play (wlp_waitingForOpponent_clear lim (start.playing_of (.inr state)))
  | waitingForPlayer => exact play (wlp_waitingForPlayer_clear (start.playing_of (.inl state)))
  | gameOver =>
      have other : m.game.state ≠ .init := by simp [state]
      rw [gameSwitch, gameOverCase, Prog.wlp_bind]
      refine Prog.wlp_mono (fun _ m' l' waited => ?_) ((stable fun b =>
        (m.game.player.boats b).Afloat).wlp (mute_vTaskDelay _) (Prog.always_sys _)
          ⟨rfl, rfl, start.carries.as fun b => by simp [other]⟩)
      rw [setState, Prog.wlp_modify]
      obtain ⟨player, -, carries⟩ := waited
      rw [← player] at carries
      exact ⟨carries.as fun b => by simp [Mem.setState], by simp [Mem.setState],
        by simp [Mem.setState], by simp [Mem.setState]⟩
  | gameRestart =>
      have other : m.game.state ≠ .init := by simp [state]
      rw [gameSwitch, gameRestartCase, Prog.wlp_bind, Prog.wlp_modify, Prog.wlp_bind]
      refine Prog.wlp_mono (fun _ m' l' removed => ?_) (wlp_removeLoop
        (List.nodup_finRange maxShips) ⟨rfl, rfl, start.carries.as fun b => ?_⟩)
      · rw [setState, Prog.wlp_modify]
        obtain ⟨player, -, carries⟩ := removed
        rw [← player] at carries
        exact ⟨carries.as fun b => by simp [Mem.setState], by simp [Mem.setState],
          by simp [Mem.setState], by simp [Mem.setState]⟩
      · simp [other, engineRestart]

theorem wlp_iteration_clear (lim : Limits) (h : Berthed m.game before)
    (init : m.game.state = .init → before = []) (random : m.game.state = .randomInit → before = []) :
    Prog.wlp clearEnv (clearGuar before) (gameSwitch lim m.game.state)
      (fun _ m' l' => Prog.wlp clearEnv (clearGuar before) loopTail
        (fun _ m'' l'' => Berthed m''.game (before ++ orders l'')) m' l') m [] := by
  refine Prog.wlp_mono (fun _ m' l' berthed => ?_) (wlp_gameSwitch_clear lim h init random)
  exact berthed_stable.wlp mute_loopTail (loopTail_always sameGame_writes) berthed

end Programs

/-- The players stay, and the state is only written by a web command. -/
structure Serves (m : Mem) (r : Mem × List Out) : Prop where
  player : r.1.game.player = m.game.player
  opponent : r.1.game.opponent = m.game.opponent
  ready : r.1.game.gameReady = m.game.gameReady
  state : r.1.game.state = m.game.state ∨
    ∃ v ∈ [GameState.gameRestart, .randomInit], r.2 = [.command v] ∧ r.1.game.state = v

theorem serves_writes : WebWrites Serves where
  none _ := ⟨rfl, rfl, rfl, .inl rfl⟩
  difficulty _ _ := ⟨rfl, rfl, rfl, .inl rfl⟩
  connected _ := ⟨rfl, rfl, rfl, .inl rfl⟩
  command _ c hc := ⟨rfl, rfl, rfl, .inr ⟨c, hc, rfl, rfl⟩⟩
  frame _ _ := ⟨rfl, rfl, rfl, .inl rfl⟩

def Out.asked : Out → Option GameState
  | .command v => some v
  | _ => none

namespace Firmware

/-- The web command that this step carries out. -/
def carriesOut (s : Firmware) : Act → Option GameState
  | .httpd => match s.httpd with
    | some (.step f _) => (f s.mem).2.findSome? Out.asked
    | _ => none
  | _ => none

/-- This step dispatches INIT. -/
def creates (s : Firmware) : Act → Bool
  | .game => atHead s.game && s.mem.game.state = .init
  | _ => false

end Firmware

/-- The firmware, and the robot commands queued since `Game_Init`. -/
structure Quay where
  fw : Firmware
  sent : List IoMessage

namespace Quay
variable {lim : Limits} {q q' : Quay}

/-- `Game_Init` starts the account anew. -/
def step (lim : Limits) (q : Quay) (a : Act) : Option Quay :=
  (q.fw.step lim a).map (fun s =>
    ⟨s, (if q.fw.creates a then [] else q.sent) ++ ((q.fw.answered a).bind Call.order).toList⟩)

def Start (lim : Limits) (q : Quay) : Prop := Firmware.Start lim q.fw ∧ q.sent = []

def manual : Act → Option Manual
  | .request r => r.manual
  | _ => none

/-- No request places a list of ships, and a random setup is carried out on a
freshly initialised game. -/
def Random (q : Quay) (a : Act) : Prop :=
  manual a = none ∧ (q.fw.carriesOut a = some .randomInit → q.fw.mem.game.Fresh)

/-- And a restart that is carried out while INIT is to come finds no ship
afloat. -/
def InTime (q : Quay) (a : Act) : Prop :=
  q.Random a ∧ (q.fw.carriesOut a = some .gameRestart → q.fw.mem.game.state = .init →
    q.fw.mem.game.player.AllDown)

/-- The account of a quay is that of the iteration under way. -/
def Keeps (s : Firmware) (sent : List IoMessage) : Prop :=
  ∃ before l, sent = before ++ orders l ∧ s.Holds clearEnv (clearGuar before)
    (fun m l => Berthed m.game (before ++ orders l)) l

structure Safe (q : Quay) : Prop where
  httpd : ∀ t, q.fw.httpd = some t → Prog.Always Serves t ∧ Mute t
  keeps : Keeps q.fw q.sent

theorem Start.safe (h : Start lim q) : q.Safe := by
  obtain ⟨start, sent⟩ := h
  refine ⟨by simp [start.httpd], [], [], sent, ?_, ?_⟩
  · rw [start.game]
    simp [Firmware.Settled]
  · rw [start.game]
    exact ⟨carries_nil fun b afloat => afloat.1 start.state, by simp [start.state],
      by simp [start.state], by simp [start.state]⟩

theorem Keeps.dispatch {s : Firmware} {sent : List IoMessage} (h : Berthed s.mem.game sent)
    (lim : Limits) : Keeps (s.dispatch lim) (if s.mem.game.state = .init then [] else sent) := by
  have start : Berthed s.mem.game (if s.mem.game.state = .init then [] else sent) := by
    split
    · rename_i init
      exact { h with carries := carries_nil fun b afloat => afloat.1 init }
    · exact h
  have random : s.mem.game.state = .randomInit → sent = [] := fun random =>
    h.carries.started.resolve_left (h.fresh random).not_started
  obtain ⟨new, holds, -⟩ := Firmware.dispatch_holds (wlp_iteration_clear lim start
    (fun init => if_pos init) fun state => by simp [random state])
  refine ⟨_, _, ?_, holds⟩
  rw [← List.nil_append (new.map Sum.inl), orders_logged, orders_nil, List.append_nil]

theorem Keeps.game {s s' : Firmware} {sent : List IoMessage} (h : Keeps s sent)
    (hstep : s.stepGame lim = some s') : Keeps s'
      ((if s.creates .game then [] else sent) ++ (s.rest.pending.bind Call.order).toList) := by
  obtain ⟨before, l, sent_eq, holds⟩ := h
  rcases holds.stepGame hstep (fun _ _ _ _ => Game.Visited.refl _) with
    ⟨head, rfl⟩ | ⟨c, new, waits, holds', -⟩
  · have berthed : Berthed s.mem.game sent := by
      have left := holds.left
      rw [head] at left
      exact sent_eq ▸ left
    have idle : s.rest.pending = none := by simp [Firmware.rest, show s.game = _ from head]; rfl
    have creates : s.creates .game = decide (s.mem.game.state = .init) := by
      simp [Firmware.creates, Firmware.atHead_iff.mpr head]
    rw [idle, creates, Option.bind_none, Option.toList_none, List.append_nil]
    simpa using Keeps.dispatch berthed lim
  · have busy : s.creates .game = false := by
      have other : Firmware.atHead s.game = false := by
        refine Bool.eq_false_iff.mpr fun head => ?_
        have eq := Firmware.atHead_iff.mp head
        rw [Firmware.rest, show s.game = _ from eq] at waits
        cases waits
      simp [Firmware.creates, other]
    refine ⟨before, _, ?_, holds'⟩
    rw [busy, waits, List.append_cons, orders_logged, orders_append, orders_call, sent_eq]
    exact List.append_assoc _ _ _

/-- What the others do that a waiting task does not notice. -/
theorem Keeps.visited {s s' : Firmware} {sent : List IoMessage} (h : Keeps s sent)
    (game : s'.game = s.game) (visited : s.mem.game.Visited s'.mem.game) : Keeps s' sent := by
  obtain ⟨before, l, sent_eq, holds⟩ := h
  exact ⟨before, l, sent_eq, holds.moved game (fun _ orderly => orderly)
    (berthed_stable.visited visited) fun _ _ _ => visited.trans⟩

theorem Safe.kept (h : q.Safe) {s' : Firmware} (k : Firmware.KeepsGame q.fw s') :
    Safe ⟨s', q.sent⟩ :=
  ⟨k.httpd ▸ h.httpd, h.keeps.visited k.game (k.mem ▸ .refl _)⟩

/-- One action of a handler, which tells the robot nothing. -/
theorem Safe.httpd_step (h : q.Safe) (ok : q.InTime .httpd) {s' : Firmware}
    (hstep : q.fw.stepHttpd = some s') :
    Safe ⟨s', q.sent ++ ((q.fw.answered .httpd).bind Call.order).toList⟩ := by
  unfold Firmware.stepHttpd at hstep
  split at hstep
  · rename_i resp ended
    cases hstep
    have silent : q.fw.answered .httpd = none := by simp [Firmware.answered, ended]; rfl
    rw [silent, Option.bind_none, Option.toList_none, List.append_nil]
    exact ⟨by simp, h.keeps.visited rfl (.refl _)⟩
  · rename_i f k running
    cases hstep
    have silent : q.fw.answered .httpd = none := by simp [Firmware.answered, running]; rfl
    obtain ⟨always, mute⟩ := h.httpd _ running
    obtain ⟨now, later⟩ := always q.fw.mem
    rw [silent, Option.bind_none, Option.toList_none, List.append_nil]
    refine ⟨fun t eq => ?_, h.keeps.visited rfl ⟨now.player, now.opponent, now.ready, ?_⟩⟩
    · cases eq
      exact ⟨later, mute q.fw.mem⟩
    · rcases now.state with same | ⟨v, hv, logged, state⟩
      · exact .inl same
      · have out : q.fw.carriesOut .httpd = some v := by
          simp [Firmware.carriesOut, running, logged, Out.asked]
        rcases List.mem_pair.mp hv with rfl | rfl
        · exact .inr (.inl ⟨state, ok.2 out⟩)
        · exact .inr (.inr ⟨state, ok.1.2 out⟩)
  · rename_i c k running
    obtain ⟨⟨a, s₁⟩, answered, rfl⟩ := Option.map_eq_some_iff.mp hstep
    obtain ⟨always, silent, mute⟩ := h.httpd _ running
    have told : (q.fw.answered .httpd).bind Call.order = none := by
      simp [Firmware.answered, running, silent]
    have keeps := Firmware.answerGame_keeps answered
    rw [told, Option.toList_none, List.append_nil]
    refine ⟨fun t eq => ?_, h.keeps.visited keeps.game (keeps.mem ▸ .refl _)⟩
    cases eq
    exact ⟨always a, mute a⟩
  · cases hstep

theorem Safe.step {a : Act} (h : q.Safe) (ok : q.InTime a) (hstep : q.step lim a = some q') :
    q'.Safe := by
  obtain ⟨s', ran, rfl⟩ := Option.map_eq_some_iff.mp hstep
  have idle : ∀ {sent : List IoMessage}, sent ++ (none : Option IoMessage).toList = sent :=
    List.append_nil _
  cases a with
  | game => exact ⟨Firmware.stepGame_httpd ran ▸ h.httpd, h.keeps.game ran⟩
  | httpd => exact h.httpd_step ok ran
  | request r =>
      simp only [Firmware.step] at ran
      split at ran
      · cases ran
        refine ⟨fun t eq => ?_, ?_⟩
        · cases eq
          exact ⟨other_always serves_writes ok.1.1, mute_other ok.1.1⟩
        · exact idle.symm ▸ h.keeps.visited rfl (.refl _)
      · cases ran
  | _ => exact idle.symm ▸ h.kept (Firmware.step_keepsGame ran (by simp) (by simp) (by simp))

/-- Whatever is drawn, guessed and asked for, and whenever: as long as no restart
is carried out with ships afloat while INIT is to come, no ship is put on or
taken off the real board twice or without its counterpart, and when a game is
created anew every ship that was put down has been picked up. -/
theorem board_cleared (h : Reaches (Quay.step lim) InTime (Start lim) q)
    (running : q.fw.Running) : Orderly q.sent ∧
      (q.fw.AtHead → q.fw.mem.game.state = .init →
        (pickups q.sent).Perm (placements q.sent)) := by
  have safe : q.Safe := h.invariant (fun _ => Start.safe) fun _ _ _ => Safe.step
  obtain ⟨before, l, sent, holds⟩ := safe.keeps
  refine ⟨?_, fun head init => ?_⟩
  · rw [sent]
    rcases holds.running running with ⟨-, berthed⟩ | ⟨c, orderly⟩
    · exact berthed.carries.orderly
    · exact orderly
  · have left := holds.left
    rw [head] at left
    rw [sent]
    have berthed : Berthed q.fw.mem.game (before ++ orders l) := left
    exact berthed.carries.tally.perm fun b afloat => afloat.1 init

deriving instance DecidableEq for Boat, Board, Player

instance (p : Player) : Decidable p.AllDown := by
  unfold Player.AllDown
  infer_instance

instance (g : Game) : Decidable g.Fresh := by
  unfold Game.Fresh
  infer_instance

instance (q : Quay) (a : Act) : Decidable (q.Random a) := by
  unfold Random
  infer_instance

instance (q : Quay) (a : Act) : Decidable (q.InTime a) := by
  unfold InTime
  infer_instance

/-- A start before any command. -/
def bootQuay : Quay := ⟨Firmware.boot ⟨0, none⟩, []⟩

theorem bootQuay_start : Start ⟨0, none⟩ bootQuay := ⟨Firmware.boot_start _, rfl⟩

/-- The handler of a restart, from the message to its answer. -/
def restartRequest : List Act := .request (.wsMessage .restart) :: List.replicate 3 .httpd

/-- A random fleet of one ship is set up, and a restart is asked for and has set
INIT when the loop updates the LEDs. -/
def restartRun : List Act :=
  List.replicate 5 .game ++ [.request randomSetup] ++ List.replicate 3 .httpd ++
    List.replicate 7 .game ++ restartRequest ++ List.replicate 6 .game

theorem board_cleared_restart : ∃ q : Quay, q.fw.AtHead ∧ q.fw.mem.game.state = .init ∧
    (placements q.sent).length = 1 ∧ Orderly q.sent ∧
    (pickups q.sent).Perm (placements q.sent) := by
  have run : (runList (Quay.step ⟨0, none⟩) bootQuay (restartRun ++ List.replicate 2 .game)).any
      (fun q => Firmware.atHead q.fw.game = true ∧ q.fw.mem.game.state = .init ∧
        (placements q.sent).length = 1) = true := by decide +kernel
  obtain ⟨q, ran, shown⟩ := (Option.any_eq_true _ _).mp run
  obtain ⟨head, init, one⟩ := of_decide_eq_true shown
  have at_head := Firmware.atHead_iff.mp head
  have meets : Meets (Quay.step ⟨0, none⟩) InTime bootQuay
      (restartRun ++ List.replicate 2 .game) := by decide +kernel
  obtain ⟨orderly, cleared⟩ :=
    board_cleared (reaches_of_runList bootQuay_start meets ran) (.inl at_head)
  exact ⟨q, at_head, init, one, orderly, cleared at_head init⟩

/-- A second restart is carried out before INIT, and the ship is picked up
again. -/
theorem ship_removed_twice : ∃ q : Quay,
    Reaches (Quay.step ⟨0, none⟩) Random (Start ⟨0, none⟩) q ∧ q.fw.Running ∧
    ¬Orderly q.sent := by
  have run : (runList (Quay.step ⟨0, none⟩) bootQuay
      (restartRun ++ restartRequest ++ List.replicate 4 .game)).any
      (fun q => q.fw.rest.pending.isSome ∧ ¬(pickups q.sent).Nodup) = true := by decide +kernel
  obtain ⟨q, ran, shown⟩ := (Option.any_eq_true _ _).mp run
  obtain ⟨waits, twice⟩ := of_decide_eq_true shown
  have meets : Meets (Quay.step ⟨0, none⟩) Random bootQuay
      (restartRun ++ restartRequest ++ List.replicate 4 .game) := by decide +kernel
  exact ⟨q, reaches_of_runList bootQuay_start meets ran,
    .inr (Option.isSome_iff_exists.mp waits), fun orderly => twice orderly.takes⟩

end Quay
end Battleship
