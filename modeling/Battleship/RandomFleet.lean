import Battleship.Commands
import Battleship.LegalFleet

/-!
# The fleet of a random placement

What `place_random_ships` leaves of the ships it is asked for: the boats, their
cells, and the commands for the robot.
-/
namespace Battleship
open Cooperative

/-- The boats that count, in the order of their slots. -/
def Player.fleet (p : Player) : List Boat :=
  ((List.finRange maxShips).take p.boatCount).map p.boats

/-- The command that puts a boat on the real board. -/
def Boat.placing (boat : Boat) : IoMessage :=
  robotCommand 4 (4 - boat.length) boat.anchor.row
    (if boat.horizontal then boat.anchor.col + (boat.length - 1) else boat.anchor.col)
    (if boat.horizontal then 0 else 1) 0

/-- A straight boat in the grid that has not been hit. -/
structure Boat.New (boat : Boat) : Prop where
  sound : boat.Sound
  straight : boat.Straight
  unhit : boat.hitCount = 0

/-- The boats of the player are new, lie apart on cells that were empty, and are
all that has changed on this board. -/
structure Player.PlacedOn (p : Player) (b : Board) : Prop where
  count : p.boatCount ≤ maxShips
  boats : ∀ boat ∈ p.fleet, boat.New
  apart : p.fleet.Pairwise (fun a b => Disjoint a.cells b.cells)
  empty : ∀ boat ∈ p.fleet, ∀ c ∈ boat.cells, b.cells c.1 c.2 = .empty
  cells : ∀ c : Cell, p.board.cells c.1 c.2 =
    if ∃ boat ∈ p.fleet, c ∈ boat.cells then .ship else b.cells c.1 c.2

/-- The placement ends with the outcome of its rounds: the fleet of the ships
they seated, one command for each boat of the player and none for the
opponent's. -/
def PlacesLegally (ans : ∀ c : Call, c.Ans) (side : Side) (lengths : List Int) (m : Mem) : Prop :=
  ∃ ships p rng, Prog.exec ans (placeRandomShips side lengths) m =
      .done ((), { m.setSide side p with rng := rng }) ∧
    Rounds (m.game.side side).uncounted m.rng lengths ships p rng ∧
    p.fleet.map Boat.length = ships.map ShipRequest.length ∧
    p.PlacedOn (m.game.side side).board ∧
    orders (Prog.trace ans (placeRandomShips side lengths) m) =
      if (m.game.side side).board.isOpp = false then p.fleet.map Boat.placing else []

theorem fleet_length {p : Player} (h : p.boatCount ≤ maxShips) : p.fleet.length = p.boatCount := by
  simp [Player.fleet, h]

/-- What holds of each boat and the ship it was seated for, in order. -/
theorem Seats.forall₂ {P : Boat → ShipRequest → Prop}
    (new : ∀ (p : Player) (room : p.boatCount < maxShips) (ship : ShipRequest),
      p.board.Admits ship → P ((p.seated room ship).boats ⟨p.boatCount, room⟩) ship)
    {p p' : Player} {ships : List ShipRequest} (h : Seats p.uncounted ships p') :
    List.Forall₂ P p'.fleet ships := by
  have bound : p'.boatCount ≤ maxShips := h.count_le (Nat.zero_le _)
  have count : p'.boatCount = ships.length := h.count.trans (Nat.zero_add _)
  refine List.forall₂_iff_get.mpr ⟨(fleet_length bound).trans count, fun k hk hk' => ?_⟩
  have room : p.uncounted.boatCount + k < maxShips := by
    simp only [Player.uncounted]
    omega
  have slot := h.slot new hk' room
  have index : p.uncounted.boatCount + k = k := Nat.zero_add k
  simp only [index] at slot
  simpa [Player.fleet] using slot

theorem map_eq_of_forall₂ {α β γ : Type} {f : α → γ} {g : β → γ} {l : List α} {l' : List β}
    (h : List.Forall₂ (fun a b => f a = g b) l l') : l.map f = l'.map g := by
  induction h with
  | nil => rfl
  | cons eq _ ih => rw [List.map_cons, List.map_cons, eq, ih]

theorem forall₂_of_guarded {α β : Type} {Q : β → Prop} {R : α → β → Prop} {l : List α}
    {l' : List β} (h : List.Forall₂ (fun a b => Q b → R a b) l l') (all : ∀ b ∈ l', Q b) :
    List.Forall₂ R l l' := by
  induction h with
  | nil => exact .nil
  | cons one _ ih => exact .cons (one (all _ (.head _))) (ih fun b hb => all b (.tail _ hb))

section Seats
variable {p p' : Player} {ships : List ShipRequest} (h : Seats p.uncounted ships p')
include h

theorem Seats.fleet_lengths : p'.fleet.map Boat.length = ships.map ShipRequest.length :=
  map_eq_of_forall₂ (h.forall₂ fun _ room ship _ => seated_length room ship)

theorem Seats.fleet_cells : p'.fleet.map Boat.cells = ships.map ShipRequest.cells :=
  map_eq_of_forall₂ (h.forall₂ fun _ room ship fits => seated_cells room ship fits)

/-- The command for a boat is the one sent for its ship. -/
theorem Seats.fleet_placing (long : ∀ ship ∈ ships, 1 ≤ ship.length) :
    p'.fleet.map Boat.placing = ships.map randomOrder := by
  have sent := h.forall₂ (P := fun boat ship => 1 ≤ ship.length →
    boat.placing = randomOrder ship) fun p room ship fits long => by
      have first : ((p.seated room ship).boats ⟨p.boatCount, room⟩).anchor =
          ⟨ship.row, ship.col⟩ := by
        rw [Boat.anchor, seated_coords room ship (i := 0) (lt_of_lt_of_le Int.zero_lt_one long)]
        cases way : ship.horizontal <;> simp [shipCell]
      have way : ((p.seated room ship).boats ⟨p.boatCount, room⟩).horizontal =
          ship.horizontal := by
        rw [seated_boat]
        exact if_neg (by omega)
      rw [Boat.placing, seated_length, first, way, randomOrder]
  exact map_eq_of_forall₂ (forall₂_of_guarded sent long)

theorem Seats.fleet_new (nonneg : ∀ ship ∈ ships, 0 ≤ ship.length) :
    ∀ boat ∈ p'.fleet, boat.New := by
  have new := h.forall₂ (P := fun boat ship => 0 ≤ ship.length →
    boat.New ∧ boat.length = ship.length) fun p room ship fits nonneg =>
      ⟨⟨seated_sound room ship fits nonneg, seated_straight room ship, seated_hitCount room ship⟩,
        seated_length room ship⟩
  exact ((List.forall₂_and_left _ _).mp (forall₂_of_guarded new nonneg)).1

end Seats

/-- The ships were seated on cells that had been empty from the start. -/
theorem Seats.empty {p p' : Player} {ships : List ShipRequest} (h : Seats p ships p') :
    ∀ ship ∈ ships, ∀ c ∈ ship.cells, p.board.cells c.1 c.2 = .empty := by
  induction h with
  | nil p => exact fun _ member => absurd member List.not_mem_nil
  | @cons p p' ship ships room fits _ ih =>
      intro other member c hc
      rcases List.mem_cons.mp member with rfl | later
      · exact fits.empty_of_mem hc
      · have empty := ih other later c hc
        rw [seated_board, Board.withRequest_cells] at empty
        split at empty
        · cases empty
        · exact empty

theorem Seats.apart {p p' : Player} {ships : List ShipRequest} (h : Seats p ships p') :
    ships.Pairwise (fun a b => Disjoint a.cells b.cells) := by
  induction h with
  | nil p => exact .nil
  | @cons p p' ship ships room fits rest ih =>
      refine .cons (fun other later => Finset.disjoint_left.mpr fun c here there => ?_) ih
      have empty := rest.empty other later c there
      have marked : (p.board.withRequest ship).cells c.1 c.2 = .ship := if_pos here
      rw [seated_board, marked] at empty
      cases empty

/-- Seated ships are all that a board without a fleet has gained. -/
theorem Seats.placedOn {p p' : Player} {ships : List ShipRequest}
    (h : Seats p.uncounted ships p') (nonneg : ∀ ship ∈ ships, 0 ≤ ship.length) :
    p'.PlacedOn p.board := by
  have cells := h.fleet_cells
  have occupied : ∀ c : Cell, (∃ boat ∈ p'.fleet, c ∈ boat.cells) ↔
      ∃ ship ∈ ships, c ∈ ship.cells := by
    intro c
    have same : (∃ s ∈ p'.fleet.map Boat.cells, c ∈ s) ↔
        ∃ s ∈ ships.map ShipRequest.cells, c ∈ s := by rw [cells]
    simpa using same
  refine ⟨h.count_le (Nat.zero_le _), h.fleet_new nonneg, ?_, ?_, ?_⟩
  · have apart := h.apart
    rw [← List.pairwise_map (f := ShipRequest.cells) (R := fun s t => Disjoint s t), ← cells] at apart
    exact List.pairwise_map.mp apart
  · intro boat member c hc
    obtain ⟨ship, among, inside⟩ := (occupied c).mp ⟨boat, member, hc⟩
    exact h.empty ship among c inside
  · intro c
    rw [h.cells c]
    simp only [occupied c]
    rfl

/-- Random placement is always legal. -/
theorem placeRandomShips_legal (ans : ∀ c : Call, c.Ans) (side : Side) {lengths : List Int}
    (few : lengths.length ≤ maxShips) (short : ∀ length ∈ lengths, 1 ≤ length ∧ length ≤ gridSize)
    (m : Mem) : PlacesLegally ans side lengths m := by
  have room : (m.game.side side).uncounted.boatCount + lengths.length ≤ maxShips := by
    simpa [Player.uncounted] using few
  obtain ⟨r, loop⟩ := randomLoop_some
    (fun length member => ⟨by have := (short length member).1; omega, (short length member).2⟩)
    room m.rng
  obtain ⟨ships, rounds, sent⟩ : ∃ ships, Rounds (m.game.side side).uncounted m.rng lengths ships
      r.1 r.2 ∧ orders (Prog.trace ans (placeRandomShips side lengths) m) =
        if (m.game.side side).board.isOpp = false then ships.map randomOrder else [] :=
    placeRandomShips_rounds loop
  have seats := rounds.seats
  have long : ∀ ship ∈ ships, 1 ≤ ship.length := fun ship member =>
    (short ship.length (rounds.sublist.subset (List.mem_map.mpr ⟨ship, member, rfl⟩))).1
  refine ⟨ships, r.1, r.2, ?_, rounds, seats.fleet_lengths,
    seats.placedOn fun ship member => le_trans Int.one_nonneg (long ship member), ?_⟩
  · rw [exec_placeRandomShips, loop]
    rfl
  · rw [sent, seats.fleet_placing long]

/-- With a source stuck at 0 only the first ship finds a place. -/
theorem placeRandomShips_legal_stuck : PlacesLegally (answer none) .player shipLengths bootMem :=
  placeRandomShips_legal (answer none) .player (by decide) (by decide) bootMem

end Battleship
