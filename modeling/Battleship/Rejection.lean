import Battleship.Requests

/-!
# Rejected requests

A placing handler writes the difficulty and `boat_count` before it tests a ship,
and each ship before it tests the next.
-/
namespace Battleship
open Cooperative

/-- The whole `Game` is what it was, and whatever comes next is answered as it
would have been. -/
def Unchanged (m m' : Mem) : Prop :=
  m'.game = m.game ∧ ∀ next, respond next m' = respond next m

/-- Every ship before the first that does not fit has no cells and is what its
slot records, and `boat_count`, counted from `k`, is the number of them. -/
def Recorded (decode : Json → Option ShipRequest) (p : Player) : Nat → List Json → Prop
  | _, [] => False
  | k, item :: rest => ∃ ship, decode item = some ship ∧
      (canPlaceShip p.board ship.row ship.col ship.length ship.horizontal = some false ∧
        p.boatCount = k ∨
      canPlaceShip p.board ship.row ship.col ship.length ship.horizontal = some true ∧
        ship.length ≤ 0 ∧
        (∃ boat, p.boatAt k = some boat ∧ boat.length = ship.length ∧ boat.hitCount = 0) ∧
        Recorded decode p (k + 1) rest)

/-- The request does not reach a loop over ships, or it sets the difficulty to
what it is and its loop finds every ship recorded. -/
def LeavesAlone (m : Mem) (r : Request) : Prop :=
  ∀ w, r.manual = some w → w.level.getD m.game.difficulty = m.game.difficulty ∧
    Recorded w.decode m.game.player 0 w.ships

theorem withShip_zero (b : Board) (row col : Int) (horizontal : Bool) :
    b.withShip row col horizontal 0 = b := by
  simp [Board.withShip, shipCells]

theorem withCells_zero (boat : Boat) (row col : Int) (horizontal : Bool) :
    boat.withCells row col horizontal 0 = boat := by
  simp [Boat.withCells]

/-- Seating a ship without cells that its slot already records only counts it. -/
theorem seated_recorded {p : Player} (room : p.boatCount < maxShips) {ship : ShipRequest}
    (short : ship.length ≤ 0) (length : (p.boats ⟨p.boatCount, room⟩).length = ship.length)
    (hits : (p.boats ⟨p.boatCount, room⟩).hitCount = 0) : p.seated room ship = p.counted := by
  have none : ship.length.toNat = 0 := Int.toNat_of_nonpos short
  have same : { p.boats ⟨p.boatCount, room⟩ with length := ship.length, hitCount := 0 } =
      p.boats ⟨p.boatCount, room⟩ := by
    rw [← length, ← hits]
  simp only [Player.seated, Player.withNext, Player.counted, none, withShip_zero,
    withCells_zero, same, Function.update_eq_self]

/-- A player who ends where the ships were seated had them recorded. -/
theorem recorded_of_seats {p p' : Player} {ship : ShipRequest} {ships : List ShipRequest}
    (room : p.boatCount < maxShips) (fits : p.board.Admits ship)
    (seats : Seats (p.seated room ship) ships p') (board : p'.board = p.board)
    (boats : p'.boats = p.boats) : ship.length ≤ 0 ∧
      (p.boats ⟨p.boatCount, room⟩).length = ship.length ∧
      (p.boats ⟨p.boatCount, room⟩).hitCount = 0 := by
  have slot : p.boats ⟨p.boatCount, room⟩ = _ :=
    (congrFun boats ⟨p.boatCount, room⟩).symm.trans
      ((seats.keeps_boat (Nat.lt_succ_self p.boatCount)).trans (seated_boat p room ship))
  refine ⟨?_, ?_, ?_⟩
  · by_contra long
    obtain ⟨c, eq, free⟩ := fits.free 0 (by omega)
    have marked : (p.seated room ship).board.cells c.1 c.2 = .ship := by
      rw [seated_board, Board.withRequest_cells]
      exact if_pos (mem_shipCells.mpr ⟨0, by omega, eq⟩)
    have kept := seats.keeps_cell (c := c) (by rw [marked]; exact CellState.noConfusion)
    rw [board, marked, free] at kept
    cases kept
  · rw [slot]
    rfl
  · rw [slot]
    rfl

/-- A loop that rejects a ship leaves the player as it was exactly when it found
every ship before recorded. -/
theorem seatLoop_unchanged_iff {decode : Json → Option ShipRequest}
    {edge : ShipRequest → Option Int} {p : Player} {items : List Json} {k : Nat} {p' : Player}
    (h : seatLoop decode edge items { p with boatCount := k } = some (false, p')) :
    p' = p ↔ Recorded decode p k items := by
  induction items generalizing k with
  | nil => cases h
  | cons item rest ih =>
      obtain ⟨ship, decoded, ⟨-, eq⟩ | ⟨-, eq, bad⟩ | ⟨room, _, fits, -, h⟩⟩ :=
        seatLoop_cons h
      · cases eq
      · cases eq
        constructor
        · intro same
          exact ⟨ship, decoded, .inl ⟨bad, congrArg Player.boatCount same.symm⟩⟩
        · rintro ⟨ship', decoded', ⟨-, count⟩ | ⟨good, -⟩⟩
          · rw [← count]
          · cases decoded.symm.trans decoded'
            rw [bad] at good
            cases good
      · have good : canPlaceShip p.board ship.row ship.col ship.length ship.horizontal = some true :=
          canPlaceShip_true.mpr fits
        have slot : p.boatAt k = some (p.boats ⟨k, room⟩) := dif_pos room
        obtain ⟨ships, left, -, seats, -⟩ := seatLoop_seats h
        constructor
        · rintro rfl
          obtain ⟨short, length, hits⟩ := recorded_of_seats room fits seats rfl rfl
          rw [seated_recorded room short length hits] at h
          exact ⟨ship, decoded, .inr ⟨good, short, ⟨_, slot, length, hits⟩, (ih h).mp rfl⟩⟩
        · rintro ⟨ship', decoded', ⟨bad, -⟩ | ⟨-, short, ⟨boat, at_k, length, hits⟩, recorded⟩⟩
          · cases decoded.symm.trans decoded'
            rw [good] at bad
            cases bad
          · cases decoded.symm.trans decoded'
            cases slot.symm.trans at_k
            rw [seated_recorded room short length hits] at h
            exact (ih h).mpr recorded

theorem unchanged_self (m : Mem) : Unchanged m m := ⟨rfl, fun _ => rfl⟩

/-- The memory after a manual request that rejects a ship. -/
theorem after_eq_iff {w : Manual} {m : Mem} {p : Player} :
    (w.after m false p).game = m.game ↔
      w.level.getD m.game.difficulty = m.game.difficulty ∧ p = m.game.player := by
  constructor
  · intro same
    exact ⟨congrArg Game.difficulty same, congrArg Game.player same⟩
  · rintro ⟨level, rfl⟩
    simp only [Manual.after, level, Bool.false_or]

/-- A manual request writes nothing beside the game. -/
theorem after_of_game {w : Manual} {m : Mem} {placed : Bool} {p : Player}
    (same : (w.after m placed p).game = m.game) : w.after m placed p = m :=
  calc w.after m placed p = { m with game := (w.after m placed p).game } := rfl
    _ = m := by rw [same]

/-- What a request answered with an error leaves. -/
theorem rejected_unchanged_iff {r : Request} {m m' : Mem} {resp : Response}
    (h : respond r m = .done (resp, m')) (error : resp.isError = true) :
    Unchanged m m' ↔ LeavesAlone m r := by
  cases manual : r.manual with
  | none =>
      have same : m' = m := (exec_other manual h).2 error
      have alone : LeavesAlone m r := fun w found => by cases manual.symm.trans found
      rw [same]
      exact ⟨fun _ => alone, fun _ => unchanged_self m⟩
  | some w =>
      have created := exec_manual_created manual h
      rw [respond, exec_manual (answer none) manual created] at h
      cases loop : w.seatAll m.game.player with
      | none =>
          rw [loop] at h
          cases h
      | some e =>
          obtain ⟨placed, p⟩ := e
          rw [loop] at h
          cases h
          cases placed with
          | true => cases error
          | false =>
              have recorded := seatLoop_unchanged_iff loop
              have leaves : LeavesAlone m r ↔
                  w.level.getD m.game.difficulty = m.game.difficulty ∧
                    Recorded w.decode m.game.player 0 w.ships := by
                constructor
                · exact fun all => all w manual
                · intro holds w' found
                  cases manual.symm.trans found
                  exact holds
              rw [leaves, ← recorded, ← after_eq_iff]
              constructor
              · exact fun unchanged => unchanged.1
              · intro same
                exact ⟨same, fun next => by rw [after_of_game same]⟩

/-- A ship of length 6 is rejected twice: the first time `boat_count` is reset,
the second time nothing is changed. -/
theorem rejected_unchanged_iff_long :
    ¬Unchanged bootMem (bootMem.setPlayer bootMem.game.player.uncounted) ∧
    Unchanged (bootMem.setPlayer bootMem.game.player.uncounted)
      (bootMem.setPlayer bootMem.game.player.uncounted) := by
  have first : respond (setupList [shipItem 0 0 6]) bootMem =
      .done (.badRequest "Invalid placement",
        bootMem.setPlayer bootMem.game.player.uncounted) := rfl
  have second : respond (setupList [shipItem 0 0 6])
      (bootMem.setPlayer bootMem.game.player.uncounted) =
      .done (.badRequest "Invalid placement",
        bootMem.setPlayer bootMem.game.player.uncounted) := rfl
  constructor
  · rw [rejected_unchanged_iff first rfl]
    intro alone
    obtain ⟨ship, decoded, ⟨-, count⟩ | ⟨fits, -⟩⟩ := (alone _ rfl).2
    · exact absurd count (by decide)
    · cases decoded
      exact absurd fits (by decide)
  · refine (rejected_unchanged_iff second rfl).mpr fun w manual => ?_
    cases manual
    exact ⟨rfl, ⟨4, 0, 6, true⟩, rfl, .inl ⟨rfl, rfl⟩⟩

/-- A ship is seated, the next does not fit, and the first no longer does. -/
theorem rejection_leaves_ship : ∃ m',
    respond (setupList [shipItem 0 0 1, shipItem 1 0 6]) bootMem =
      .done (.badRequest "Invalid placement", m') ∧ ¬Unchanged bootMem m' := by
  refine ⟨_, rfl, fun unchanged => ?_⟩
  have first := congrArg (fun g => g.player.board.cells 4 0) unchanged.1
  exact absurd first (by decide)

end Battleship
