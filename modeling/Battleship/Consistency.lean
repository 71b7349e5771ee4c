import Battleship.Buttons
import Battleship.Iteration
import Battleship.Requests
import Battleship.Shots

/-!
# Boats and grid over whole runs

A player is coherent when the boats and the grid are one battle. Placing on a
clean board and guessing keep that; placing on a board that still shows an older
fleet does not, since `boat_count` has forgotten its boats.
-/
namespace Battleship
open Cooperative Runs Salvo

/-- The boats up to `boat_count` and the marks of the grid say the same. -/
structure Player.Consistent (p : Player) : Prop where
  count : p.boatCount ≤ maxShips
  sound : ∀ b : Fin maxShips, b.val < p.boatCount → (p.boats b).Sound
  straight : ∀ b : Fin maxShips, b.val < p.boatCount → (p.boats b).Straight
  apart : ∀ b b' : Fin maxShips, b.val < p.boatCount → b'.val < p.boatCount → b ≠ b' →
    Disjoint (p.boats b).cells (p.boats b').cells
  owned : ∀ c : Cell, p.board.cells c.1 c.2 ∈ [.ship, .hit, .sunk] ↔
    ∃ b : Fin maxShips, b.val < p.boatCount ∧ c ∈ (p.boats b).cells
  counted : ∀ b : Fin maxShips, b.val < p.boatCount → (p.boats b).hitCount =
    ((p.boats b).cells.filter (fun c => p.board.cells c.1 c.2 ∈ [.hit, .sunk])).card
  sunk : ∀ b : Fin maxShips, b.val < p.boatCount →
    ((∀ c ∈ (p.boats b).cells, p.board.cells c.1 c.2 = .sunk) ↔
      (p.boats b).hitCount = (p.boats b).length)
  afloat : ∀ b : Fin maxShips, b.val < p.boatCount →
    (p.boats b).hitCount ≠ (p.boats b).length →
      ∀ c ∈ (p.boats b).cells, p.board.cells c.1 c.2 ≠ .sunk

/-- The boats up to `boat_count` lie apart, on the marked cells exactly, and their
counters count the cells struck. -/
structure Player.Agrees (p : Player) : Prop where
  count : p.boatCount ≤ maxShips
  sound : ∀ b : Fin maxShips, b.val < p.boatCount → (p.boats b).Sound
  apart : ∀ b b' : Fin maxShips, b.val < p.boatCount → b'.val < p.boatCount → b ≠ b' →
    Disjoint (p.boats b).cells (p.boats b').cells
  owned : ∀ c : Cell, p.board.cells c.1 c.2 ∈ [.ship, .hit, .sunk] ↔
    ∃ b : Fin maxShips, b.val < p.boatCount ∧ c ∈ (p.boats b).cells
  counted : ∀ b : Fin maxShips, b.val < p.boatCount → (p.boats b).hitCount =
    ((p.boats b).cells.filter (fun c => p.board.cells c.1 c.2 ∈ [.hit, .sunk])).card
  sunk : ∀ b : Fin maxShips, b.val < p.boatCount →
    ((∀ c ∈ (p.boats b).cells, p.board.cells c.1 c.2 = .sunk) ↔
      (p.boats b).hitCount = (p.boats b).length)
  afloat : ∀ b : Fin maxShips, b.val < p.boatCount →
    (p.boats b).hitCount ≠ (p.boats b).length →
      ∀ c ∈ (p.boats b).cells, p.board.cells c.1 c.2 ≠ .sunk

theorem Player.Consistent.agrees {p : Player} (h : p.Consistent) : p.Agrees :=
  ⟨h.count, h.sound, h.apart, h.owned, h.counted, h.sunk, h.afloat⟩

/-- The boats and the grid are one battle, and every boat is straight. -/
structure Player.Coherent (p : Player) : Prop where
  battle : ∃ B, p.Represents B
  straight : ∀ b : Fin maxShips, b.val < p.boatCount → (p.boats b).Straight

section Represents
variable {p : Player} {B : Battle (Fin maxShips) Cell} (h : p.Represents B)
include h

theorem marked_iff (c : Cell) :
    p.board.cells c.1 c.2 ∈ [.ship, .hit, .sunk] ↔ ∃ b, c ∈ B.ships b := by
  rw [h.board c]
  by_cases owned : ∃ b, c ∈ B.ships b
  · obtain ⟨b, hb⟩ := owned
    rw [B.mark_of_mem hb]
    refine iff_of_true ?_ ⟨b, hb⟩
    split_ifs <;> simp [CellState.ofMark]
  · have none : ∀ b, c ∉ B.ships b := fun b hb => owned ⟨b, hb⟩
    rw [B.mark_of_not_mem none]
    refine iff_of_false ?_ owned
    split_ifs <;> simp [CellState.ofMark]

theorem struck_iff {b : Fin maxShips} {c : Cell} (hb : c ∈ B.ships b) :
    p.board.cells c.1 c.2 ∈ [.hit, .sunk] ↔ c ∈ B.shots := by
  rw [h.board c, B.mark_of_mem hb]
  by_cases shot : c ∈ B.shots
  · refine iff_of_true ?_ shot
    split_ifs <;> simp [CellState.ofMark]
  · refine iff_of_false ?_ shot
    rw [if_neg (B.not_sunk_of_fresh hb shot), if_neg shot]
    simp [CellState.ofMark]

theorem sunk_mark_iff {b : Fin maxShips} {c : Cell} (hb : c ∈ B.ships b) :
    p.board.cells c.1 c.2 = .sunk ↔ B.Sunk b := by
  rw [h.board c, B.mark_of_mem hb]
  by_cases sunk : B.Sunk b
  · rw [if_pos sunk]
    exact iff_of_true rfl sunk
  · rw [if_neg sunk]
    refine iff_of_false ?_ sunk
    split_ifs <;> simp [CellState.ofMark]

theorem counted_hits {b : Fin maxShips} (used : b.val < p.boatCount) : (p.boats b).hitCount =
    ((p.boats b).cells.filter (fun c => p.board.cells c.1 c.2 ∈ [.hit, .sunk])).card := by
  have cells := h.ships_of_lt used
  rw [h.hits b used, Battle.hits]
  congr 2
  ext c
  constructor
  · intro hc
    obtain ⟨hb, shot⟩ := Finset.mem_inter.mp hc
    exact Finset.mem_filter.mpr ⟨cells ▸ hb, (struck_iff h hb).mpr shot⟩
  · intro hc
    obtain ⟨hb, struck⟩ := Finset.mem_filter.mp hc
    rw [← cells] at hb
    exact Finset.mem_inter.mpr ⟨hb, (struck_iff h hb).mp struck⟩

theorem represents_agrees : p.Agrees := by
  refine ⟨h.count, h.sound, ?_, ?_, fun b used => counted_hits h used, ?_, ?_⟩
  · intro b b' used used' different
    rw [← h.ships_of_lt used, ← h.ships_of_lt used']
    exact B.disjoint different
  · intro c
    rw [marked_iff h c]
    constructor
    · rintro ⟨b, hb⟩
      exact ⟨b, h.used hb, h.ships_of_lt (h.used hb) ▸ hb⟩
    · rintro ⟨b, used, hb⟩
      exact ⟨b, h.ships_of_lt used ▸ hb⟩
  · intro b used
    rw [h.sunk_iff used, ← h.ships_of_lt used]
    constructor
    · intro all
      by_contra afloat
      obtain ⟨c, hc, -⟩ := Finset.not_subset.mp afloat
      exact afloat ((sunk_mark_iff h hc).mp (all c hc))
    · exact fun sunk c hc => (sunk_mark_iff h hc).mpr sunk
  · intro b used more c hc
    rw [← h.ships_of_lt used] at hc
    exact fun mark => more ((h.sunk_iff used).mpr ((sunk_mark_iff h hc).mp mark))

end Represents

theorem Player.Coherent.consistent {p : Player} (h : p.Coherent) : p.Consistent := by
  obtain ⟨B, represents⟩ := h.battle
  have agrees := represents_agrees represents
  exact ⟨agrees.count, agrees.sound, h.straight, agrees.apart, agrees.owned, agrees.counted,
    agrees.sunk, agrees.afloat⟩

namespace Player.Agrees
variable {p : Player} (h : p.Agrees)

/-- The battle that an agreeing player shows. -/
def battle : Battle (Fin maxShips) Cell :=
  p.battle (Finset.univ.filter (fun c => p.board.cells c.1 c.2 ∈ [.hit, .miss, .sunk])) h.apart

theorem battle_shot {c : Cell} :
    c ∈ h.battle.shots ↔ p.board.cells c.1 c.2 ∈ [.hit, .miss, .sunk] := by
  simp [battle, Player.battle]

theorem battle_hits {b : Fin maxShips} (used : b.val < p.boatCount) :
    (p.boats b).hitCount = h.battle.hits b := by
  rw [h.counted b used, Battle.hits]
  congr 2
  ext c
  have own : c ∈ h.battle.ships b ↔ c ∈ (p.boats b).cells := mem_battle.trans (and_iff_right used)
  rw [Finset.mem_filter, Finset.mem_inter, own, h.battle_shot]
  refine and_congr_right fun hc => ?_
  have marked := (h.owned c).mpr ⟨b, used, hc⟩
  simp only [List.mem_cons, List.not_mem_nil, or_false] at marked ⊢
  rcases marked with eq | eq | eq <;> simp [eq]

theorem battle_sunk {b : Fin maxShips} (used : b.val < p.boatCount) :
    h.battle.Sunk b ↔ (p.boats b).hitCount = (p.boats b).length := by
  have card : ((h.battle.ships b).card : Int) = (p.boats b).length := by
    simp only [battle, Player.battle, if_pos used]
    exact (h.sound b used).card_cells
  rw [← h.battle.hits_eq_card_iff b, h.battle_hits used, ← card, Int.natCast_inj]

/-- The grid shows the marks of the battle on the cells of a boat. -/
theorem battle_mark_of_mem {b : Fin maxShips} {c : Cell} (hc : c ∈ h.battle.ships b) :
    p.board.cells c.1 c.2 = .ofMark (h.battle.mark c) := by
  obtain ⟨used, here⟩ := mem_battle.mp hc
  rw [h.battle.mark_of_mem hc]
  by_cases down : h.battle.Sunk b
  · rw [if_pos down]
    exact (h.sunk b used).mpr ((h.battle_sunk used).mp down) c here
  · have up := h.afloat b used (mt (h.battle_sunk used).mpr down) c here
    have marked := (h.owned c).mpr ⟨b, used, here⟩
    rw [if_neg down]
    simp only [List.mem_cons, List.not_mem_nil, or_false] at marked
    rcases marked with eq | eq | eq
    · rw [if_neg (by simp [h.battle_shot, eq]), eq]
      rfl
    · rw [if_pos (h.battle_shot.mpr (by simp [eq])), eq]
      rfl
    · exact absurd eq up

theorem battle_mark_of_not_mem {c : Cell} (none : ∀ b, c ∉ h.battle.ships b) :
    p.board.cells c.1 c.2 = .ofMark (h.battle.mark c) := by
  have unmarked : p.board.cells c.1 c.2 ∉ [.ship, .hit, .sunk] := by
    intro marked
    obtain ⟨b, used, hc⟩ := (h.owned c).mp marked
    exact none b (mem_battle.mpr ⟨used, hc⟩)
  rw [h.battle.mark_of_not_mem none]
  cases eq : p.board.cells c.1 c.2 with
  | empty =>
      rw [if_neg (by simp [h.battle_shot, eq])]
      rfl
  | miss =>
      rw [if_pos (h.battle_shot.mpr (by simp [eq]))]
      rfl
  | ship => simp [eq] at unmarked
  | hit => simp [eq] at unmarked
  | sunk => simp [eq] at unmarked

theorem represents : p.Represents h.battle := by
  refine ⟨h.count, h.sound, fun b => rfl, fun b used => h.battle_hits used, fun c => ?_⟩
  by_cases owned : ∃ b, c ∈ h.battle.ships b
  · exact h.battle_mark_of_mem owned.choose_spec
  · exact h.battle_mark_of_not_mem fun b hb => owned ⟨b, hb⟩

end Player.Agrees

namespace Player.Consistent
variable {p : Player} (h : p.Consistent)

/-- The battle that a consistent player shows. -/
def battle : Battle (Fin maxShips) Cell :=
  p.battle (Finset.univ.filter (fun c => p.board.cells c.1 c.2 ∈ [.hit, .miss, .sunk])) h.apart

theorem represents : p.Represents h.battle := h.agrees.represents

end Player.Consistent

theorem rowsPlayer_consistent (isOpp : Bool) : (rowsPlayer isOpp).Consistent := by
  refine ⟨le_refl _, ?_, fun b _ => ⟨4 - b.val, 0, true, fun i _ => ?_⟩, ?_, ?_, ?_, ?_, ?_⟩
  · cases isOpp <;> decide +kernel
  · simp [rowsPlayer, shipCell]
  · cases isOpp <;> decide +kernel
  · cases isOpp <;> decide +kernel
  · cases isOpp <;> decide +kernel
  · cases isOpp <;> decide +kernel
  · cases isOpp <;> decide +kernel

theorem Seats.coherent {p p' : Player} {ships : List ShipRequest} (h : Seats p ships p')
    (start : p.Coherent) (nonneg : ∀ ship ∈ ships, 0 ≤ ship.length) : p'.Coherent := by
  induction h with
  | nil p => exact start
  | @cons p p' ship ships room fits _ ih =>
      obtain ⟨B, represents⟩ := start.battle
      obtain ⟨B', seated, -⟩ :=
        seated_represents room ship represents fits (nonneg ship List.mem_cons_self)
      refine ih ⟨⟨B', seated⟩, fun b hb => ?_⟩ fun s hs => nonneg s (List.mem_cons_of_mem ship hs)
      by_cases new : b.val = p.boatCount
      · obtain rfl : b = ⟨p.boatCount, room⟩ := Fin.ext new
        exact seated_straight room ship
      · rw [seated_boat_of_ne p room ship new]
        rw [seated_boatCount] at hb
        exact start.straight b (by omega)

theorem uncounted_coherent {p : Player} (clean : p.board.Clean) : p.uncounted.Coherent :=
  ⟨⟨_, uncounted_represents clean⟩, fun _ hb => absurd hb (Nat.not_lt_zero _)⟩

/-- Ships of the standard lengths, seated at random on a clean board. -/
theorem Seats.coherent_random {p p' : Player} {ships : List ShipRequest}
    (h : Seats p.uncounted ships p') (clean : p.board.Clean)
    (lengths : (ships.map ShipRequest.length).Sublist shipLengths) : p'.Coherent := by
  refine h.coherent (uncounted_coherent clean) fun ship hs => ?_
  have listed := lengths.subset (List.mem_map.mpr ⟨ship, hs, rfl⟩)
  simp only [shipLengths, List.mem_cons, List.not_mem_nil, or_false] at listed
  omega

theorem guessCell_coherent {p : Player} (h : p.Coherent) {row col : Int}
    {e : Player × GuessResult × Option Nat} (guess : guessCell p row col = some e) :
    e.1.Coherent := by
  obtain ⟨B, represents⟩ := h.battle
  obtain ⟨i, j, rfl, rfl, -⟩ := guessCell_cases guess
  obtain ⟨e', guess', fires⟩ := guessCell_fire represents (i, j)
  cases guess.symm.trans guess'
  refine ⟨⟨_, fires.represents⟩, fun b hb => ?_⟩
  obtain ⟨row, col, horizontal, coords⟩ := h.straight b (fires.sameFleet.count ▸ hb)
  refine ⟨row, col, horizontal, fun i hi => ?_⟩
  rw [fires.sameFleet.length b] at hi
  rw [fires.sameFleet.coords b]
  exact coords i hi

theorem cleared_coherent (isOpp : Bool) :
    (⟨initBoard isOpp, fun _ => Boat.zero, maxShips⟩ : Player).Coherent := by
  have none : Boat.zero.cells = ∅ := by
    ext c
    simp [Boat.mem_cells, Boat.zero]
  refine ⟨⟨emptyBattle ∅, le_refl _, fun b _ => ⟨le_refl _, Int.zero_le_ofNat 5, ?_, ?_⟩, ?_, ?_,
    ?_⟩, ?_⟩
  · intro i hi
    exact absurd hi (by simp [Boat.zero])
  · intro i j hi
    exact absurd hi (by simp [Boat.zero])
  · intro b
    rw [if_pos b.isLt, none]
    rfl
  · intro b _
    simp [Battle.hits, emptyBattle, Boat.zero]
  · intro c
    rw [Battle.mark_of_not_mem _ (fun _ => Finset.notMem_empty c)]
    rfl
  · intro b _
    exact ⟨0, 0, false, fun i hi => absurd hi (by simp [Boat.zero])⟩

/-- No ship that the loop would seat has a negative length. -/
def NonNegative (decode : Json → Option ShipRequest) : Nat → Board → List Json → Prop
  | 0, _, _ => True
  | _ + 1, _, [] => True
  | n + 1, b, item :: rest => ∀ ship, decode item = some ship → b.Admits ship →
      0 ≤ ship.length ∧ NonNegative decode n (b.withRequest ship) rest

/-- Ships are placed on clean boards only, and have lengths. -/
def CleanSetup (m : Mem) : Event → Prop
  | .request r => ∀ w, r.manual = some w → m.game.player.board.Clean ∧
      NonNegative w.decode maxShips m.game.player.board w.ships
  | .iteration _ => m.game.state = .randomInit →
      m.game.player.board.Clean ∧ m.game.opponent.board.Clean

theorem seatLoop_nonNegative {decode : Json → Option ShipRequest}
    {edge : ShipRequest → Option Int} {items : List Json} {p : Player} {e : Bool × Player}
    (h : seatLoop decode edge items p = some e)
    (ok : NonNegative decode (maxShips - p.boatCount) p.board items) :
    ∃ ships, Seats p ships e.2 ∧ ∀ ship ∈ ships, 0 ≤ ship.length := by
  induction items generalizing p with
  | nil =>
      cases h
      exact ⟨[], .nil p, fun _ hs => absurd hs List.not_mem_nil⟩
  | cons item rest ih =>
      obtain ⟨ship, decoded, ⟨-, rfl⟩ | ⟨-, rfl, -⟩ | ⟨room, _, fits, -, h⟩⟩ :=
        seatLoop_cons h
      · exact ⟨[], .nil p, fun _ hs => absurd hs List.not_mem_nil⟩
      · exact ⟨[], .nil p, fun _ hs => absurd hs List.not_mem_nil⟩
      · rw [show maxShips - p.boatCount = maxShips - (p.boatCount + 1) + 1 by omega] at ok
        obtain ⟨nonneg, later⟩ := ok ship decoded fits
        obtain ⟨ships, seats, all⟩ := ih h later
        refine ⟨ship :: ships, .cons room fits seats, fun s hs => ?_⟩
        rcases List.mem_cons.mp hs with rfl | hs
        · exact nonneg
        · exact all s hs

/-- Both players are coherent, and the opponent waits for ships on a clean board. -/
structure Game.Orderly (g : Game) : Prop where
  player : g.player.Coherent
  opponent : g.opponent.Coherent
  waiting : g.state = .webInit → g.opponent.board.Clean

theorem Game.Orderly.side {g : Game} (h : g.Orderly) (side : Side) : (g.side side).Coherent := by
  cases side with
  | player => exact h.player
  | opponent => exact h.opponent

theorem cleared_orderly : Game.Orderly { clearedGame with state := .webInit } :=
  ⟨cleared_coherent false, cleared_coherent true, fun _ _ => .inl rfl⟩

/-- One iteration, when a random setup finds both boards clean. -/
theorem move_orderly {g g' : Game} (h : g.Orderly) (move : GameMove g g')
    (clean : g.state = .randomInit → g.player.board.Clean ∧ g.opponent.board.Clean) :
    g'.Orderly := by
  cases move with
  | created => exact cleared_orderly
  | stayed => exact h
  | started state _ seats lengths =>
      exact ⟨h.player, seats.coherent_random (h.waiting state) lengths, nofun⟩
  | randomized state seats lengths seats' lengths' =>
      obtain ⟨player, opponent⟩ := clean state
      exact ⟨seats.coherent_random player lengths, seats'.coherent_random opponent lengths', nofun⟩
  | @guessed side row col e turn v guess other =>
      have struck := guessCell_coherent (h.side side) guess
      cases side with
      | player => exact ⟨struck, h.opponent, fun state => absurd state other⟩
      | opponent => exact ⟨h.player, struck, fun state => absurd state other⟩
  | passed other => exact ⟨h.player, h.opponent, fun state => absurd state other⟩

theorem request_orderly {r : Request} {m : Mem} (h : m.game.Orderly)
    (ok : CleanSetup m (.request r)) {e : Response × Mem} (done : respond r m = .done e) :
    e.2.game.Orderly := by
  cases manual : r.manual with
  | none =>
      obtain ⟨⟨d, v, conn, hv, eq⟩, -⟩ := exec_other manual done
      rw [eq]
      refine ⟨h.player, h.opponent, fun state => ?_⟩
      simp only [List.mem_cons, List.not_mem_nil, or_false] at hv
      rcases hv with rfl | rfl | rfl
      · exact h.waiting state
      · cases state
      · cases state
  | some w =>
      obtain ⟨clean, nonneg⟩ := ok w manual
      rw [respond, exec_manual (answer none) manual (exec_manual_created manual done)] at done
      obtain ⟨e', loop, rfl⟩ := Option.map_eq_some_iff.mp (Outcome.ofOption_eq_done done)
      obtain ⟨ships, seats, all⟩ := seatLoop_nonNegative loop nonneg
      exact ⟨seats.coherent (uncounted_coherent clean) all, h.opponent, h.waiting⟩

theorem step_orderly {lim : Limits} {m m' : Mem} {ev : Event} (h : m.game.Orderly)
    (ok : CleanSetup m ev) (step : seqStep lim m ev = some m') : m'.game.Orderly := by
  obtain ev | msg := ev
  · obtain ⟨resp, done⟩ := Outcome.memory_some step
    exact request_orderly h ok done
  · obtain ⟨u, done⟩ := Outcome.memory_some step
    exact move_orderly h (iteration_move done) ok

theorem booted_orderly {m : Mem} (booted : Booted m) : m.game.Orderly := by
  obtain ⟨m₀, lim, init, boot⟩ := booted
  obtain ⟨u, done⟩ := Outcome.memory_some boot
  rw [exec_gameIteration, init] at done
  cases done
  exact cleared_orderly

/-- Requests, iterations and guesses in any order: as long as ships are placed
on clean boards, the boats and the grid of both players agree. -/
theorem fleets_consistent {lim : Limits} {m : Mem}
    (h : Reaches (seqStep lim) CleanSetup Booted m) :
    m.game.player.Consistent ∧ m.game.opponent.Consistent := by
  have orderly : m.game.Orderly :=
    h.invariant (fun _ => booted_orderly) fun _ _ _ before => step_orderly before
  exact ⟨orderly.player.consistent, orderly.opponent.consistent⟩

instance NonNegative.decidable (decode : Json → Option ShipRequest) :
    ∀ n b items, Decidable (NonNegative decode n b items)
  | 0, _, _ => .isTrue trivial
  | _ + 1, _, [] => .isTrue trivial
  | n + 1, b, item :: rest =>
      match decoded : decode item with
      | none => .isTrue (by simp [NonNegative, decoded])
      | some ship =>
          let _ := NonNegative.decidable decode n (b.withRequest ship) rest
          decidable_of_iff (b.Admits ship →
            0 ≤ ship.length ∧ NonNegative decode n (b.withRequest ship) rest)
            (by simp [NonNegative, decoded])

instance (b : Board) : Decidable b.Clean := by
  unfold Board.Clean
  infer_instance

instance CleanSetup.decidable (m : Mem) : ∀ ev, Decidable (CleanSetup m ev)
  | .request r =>
      match manual : r.manual with
      | none => .isTrue (by simp [CleanSetup, manual])
      | some w => decidable_of_iff (m.game.player.board.Clean ∧
          NonNegative w.decode maxShips m.game.player.board w.ships)
          (by simp [CleanSetup, manual])
  | .iteration _ => inferInstanceAs (Decidable (_ → _))

/-- A ship of two cells is set up, the player misses, and the opponent hits it. -/
def pairHit : List Event :=
  [.request (setupList [shipItem 2 2 2]), .iteration none,
    .iteration (some (messageOf (buttonFrame 0 4) 4)), .iteration none]

theorem fleets_consistent_hit : ∃ m : Mem, m.game.player.board.cells 2 2 = .hit ∧
    m.game.player.Consistent ∧ m.game.opponent.Consistent := by
  have run : (runList (seqStep ⟨0, none⟩) bootMem pairHit).any (fun m =>
      m.game.player.board.cells 2 2 = .hit) = true := by decide +kernel
  have meets : Meets (seqStep ⟨0, none⟩) CleanSetup bootMem pairHit := by decide +kernel
  obtain ⟨m, reached, hit⟩ := exists_reaches_of_meets bootMem_booted meets run
  exact ⟨m, of_decide_eq_true hit, fleets_consistent reached⟩

/-- A second request forgets the ship of the first, and the grid still shows it. -/
theorem stale_ship_reached : ∃ m, Reaches (seqStep ⟨0, none⟩) (fun _ _ => True) Booted m ∧
    ¬m.game.player.Consistent := by
  have run : (runList (seqStep ⟨0, none⟩) bootMem
      [.request (setupList [shipItem 0 0 1]), .request (setupList [shipItem 1 0 1])]).any
        (fun m => m.game.player.board.cells 4 0 = .ship ∧
          ∀ b : Fin maxShips, b.val < m.game.player.boatCount →
            ((4, 0) : Cell) ∉ (m.game.player.boats b).cells) = true := by decide +kernel
  obtain ⟨m, reached, stale⟩ := exists_reaches bootMem_booted run
  refine ⟨m, reached, fun consistent => ?_⟩
  obtain ⟨marked, unowned⟩ := of_decide_eq_true stale
  obtain ⟨b, used, owned⟩ := (consistent.owned (4, 0)).mp (by rw [marked]; decide)
  exact unowned b used owned

end Battleship
