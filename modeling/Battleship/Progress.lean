import Battleship.Chronicle
import Battleship.Turns

/-!
# Every turn of the opponent uses up a cell

The guess board shrinks with every accepted guess. A guess is accepted as long as
every cell the opponent may still choose is water on the player's board, or a
cell of a boat that counts; a setup on a board that is not bare leaves ship cells
no boat claims.
-/
namespace Battleship
open Cooperative Runs

/-- The cells the opponent has not guessed. -/
def Board.empties (b : Board) : Finset Cell :=
  Finset.univ.filter (fun c => b.cells c.1 c.2 = .empty)

theorem Board.mem_empties {b : Board} {c : Cell} : c ∈ b.empties ↔ b.cells c.1 c.2 = .empty := by
  simp [Board.empties]

theorem empties_set (b : Board) (c : Cell) {v : CellState} (marked : v ≠ .empty) :
    (b.set c.1 c.2 v).empties = b.empties.erase c := by
  ext x
  rw [Finset.mem_erase, Board.mem_empties, Board.mem_empties, Board.set_cells]
  by_cases same : x = c
  · subst same
    simp [marked]
  · have other : ¬(x.1 = c.1 ∧ x.2 = c.2) := fun both => same (Prod.ext both.1 both.2)
    rw [if_neg other]
    exact (and_iff_right same).symm

/-- Where a guess may still go there is water, or a cell of a boat that counts,
and no counter is ahead of the cells guessed. -/
structure Player.Answers (p : Player) (free : Finset Cell) : Prop where
  answered : ∀ c ∈ free, p.board.cells c.1 c.2 = .empty ∨ p.board.cells c.1 c.2 = .ship ∧
    ∃ b : Fin maxShips, b.val < p.boatCount ∧ c ∈ (p.boats b).cells
  counted : ∀ b : Fin maxShips, b.val < p.boatCount →
    (p.boats b).hitCount ≤ ((p.boats b).cells \ free).card

theorem uncounted_answers {p : Player} {free : Finset Cell}
    (bare : ∀ c ∈ free, p.board.cells c.1 c.2 = .empty) : p.uncounted.Answers free :=
  ⟨fun c hc => .inl (bare c hc), fun _ used => absurd used (Nat.not_lt_zero _)⟩

theorem seated_answers {p : Player} {free : Finset Cell} (h : p.Answers free)
    (room : p.boatCount < maxShips) {ship : ShipRequest} (fits : p.board.Admits ship) :
    (p.seated room ship).Answers free := by
  constructor
  · intro c hc
    rw [seated_board, Board.withRequest_cells, seated_boatCount]
    by_cases inside : c ∈ shipCells ship.row ship.col ship.horizontal ship.length.toNat
    · rw [if_pos inside]
      refine .inr ⟨rfl, ⟨p.boatCount, room⟩, Nat.lt_succ_self p.boatCount, ?_⟩
      rw [seated_cells room ship fits]
      exact inside
    · rw [if_neg inside]
      refine (h.answered c hc).imp_right fun ⟨shown, b, used, claims⟩ => ?_
      refine ⟨shown, b, Nat.lt_succ_of_lt used, ?_⟩
      rw [seated_boat_of_ne p room ship (Nat.ne_of_lt used)]
      exact claims
  · intro b used
    rw [seated_boatCount] at used
    by_cases new : b.val = p.boatCount
    · obtain rfl : b = ⟨p.boatCount, room⟩ := Fin.ext new
      rw [seated_hitCount]
      exact Int.natCast_nonneg _
    · rw [seated_boat_of_ne p room ship new]
      exact h.counted b (by omega)

theorem Seats.answers {p p' : Player} {ships : List ShipRequest} {free : Finset Cell}
    (seats : Seats p ships p') (h : p.Answers free) : p'.Answers free := by
  induction seats with
  | nil p => exact h
  | cons room fits _ ih => exact ih (seated_answers h room fits)

theorem cleared_answers (isOpp : Bool) (free : Finset Cell) :
    (⟨initBoard isOpp, fun _ => Boat.zero, maxShips⟩ : Player).Answers free :=
  ⟨fun _ _ => .inl rfl, fun _ _ => Int.natCast_nonneg _⟩

/-- A boat has no more cells than its length says. -/
theorem Boat.card_cells_le (boat : Boat) : boat.cells.card ≤ boat.length.toNat := by
  have listed : boat.cells.image Cell.coord ⊆
      ((List.range boat.length.toNat).filterMap boat.coordAt).toFinset := by
    intro at_c hc
    obtain ⟨c, member, rfl⟩ := Finset.mem_image.mp hc
    exact List.mem_toFinset.mpr (List.mem_filterMap.mpr (Boat.mem_cells_coordAt.mp member))
  calc boat.cells.card = (boat.cells.image Cell.coord).card :=
        (Finset.card_image_of_injective _ Cell.coord_injective).symm
    _ ≤ ((List.range boat.length.toNat).filterMap boat.coordAt).toFinset.card :=
        Finset.card_le_card listed
    _ ≤ ((List.range boat.length.toNat).filterMap boat.coordAt).length := List.toFinset_card_le _
    _ ≤ (List.range boat.length.toNat).length := List.length_filterMap_le _ _
    _ = boat.length.toNat := List.length_range

section Guess
variable {p : Player} {free : Finset Cell} {c : Cell}

/-- The cells of a boat that are guessed, once `c` is too. -/
theorem guessed_mono (b : Fin maxShips) :
    ((p.boats b).cells \ free).card ≤ ((p.boats b).cells \ free.erase c).card :=
  Finset.card_le_card (Finset.sdiff_subset_sdiff Finset.Subset.rfl (Finset.erase_subset c free))

theorem mark_elsewhere (v : CellState) {x : Cell} (hx : x ∈ free.erase c) :
    (p.mark c.1 c.2 v).board.cells x.1 x.2 = p.board.cells x.1 x.2 :=
  if_neg fun both => Finset.ne_of_mem_erase hx (Prod.ext both.1 both.2)

variable (h : p.Answers free)
include h

/-- The same boats on a board that changed where no guess may go any more. -/
theorem shot_answers {q : Player} (count : q.boatCount = p.boatCount)
    (cells : ∀ b, (q.boats b).cells = (p.boats b).cells)
    (board : ∀ x ∈ free.erase c, q.board.cells x.1 x.2 = p.board.cells x.1 x.2)
    (counted : ∀ b : Fin maxShips, b.val < p.boatCount →
      (q.boats b).hitCount ≤ ((p.boats b).cells \ free.erase c).card) :
    q.Answers (free.erase c) := by
  constructor
  · intro x hx
    rw [board x hx, count]
    refine (h.answered x (Finset.mem_of_mem_erase hx)).imp_right fun ⟨shown, b, used, claims⟩ => ?_
    exact ⟨shown, b, used, (cells b).symm ▸ claims⟩
  · intro b used
    rw [cells b]
    exact counted b (count ▸ used)

theorem miss_answers : (p.mark c.1 c.2 .miss).Answers (free.erase c) :=
  shot_answers h rfl (fun _ => rfl) (fun _ => mark_elsewhere _) fun b used =>
    (h.counted b used).trans (Int.ofNat_le.mpr (guessed_mono b))

section Struck
variable (left : c ∈ free) {b : Fin maxShips} (used : b.val < p.boatCount)
  (claims : c ∈ (p.boats b).cells)
include left used claims

/-- The counter does not pass the cells of the boat that are guessed. -/
theorem struck_counted :
    (p.boats b).hitCount + 1 ≤ (((p.boats b).cells \ free.erase c).card : Int) := by
  have grown : insert c ((p.boats b).cells \ free) ⊆ (p.boats b).cells \ free.erase c := by
    intro x hx
    rw [Finset.mem_sdiff, Finset.mem_erase]
    rcases Finset.mem_insert.mp hx with rfl | hx
    · exact ⟨claims, fun erased => erased.1 rfl⟩
    · obtain ⟨mine, guessed⟩ := Finset.mem_sdiff.mp hx
      exact ⟨mine, fun erased => guessed erased.2⟩
  have fresh : c ∉ (p.boats b).cells \ free := fun hc => (Finset.mem_sdiff.mp hc).2 left
  have more := Finset.card_le_card grown
  rw [Finset.card_insert_of_notMem fresh] at more
  have before := h.counted b used
  omega

theorem struck_counts {b' : Fin maxShips} (used' : b'.val < p.boatCount) :
    (((p.mark c.1 c.2 .hit).countHit b).boats b').hitCount ≤
      ((p.boats b').cells \ free.erase c).card := by
  by_cases same : b' = b
  · subst same
    simp only [Player.countHit, Player.mark, Function.update_self, Boat.countHit]
    exact struck_counted h left used claims
  · simp only [Player.countHit, Player.mark, Function.update_of_ne same]
    exact (h.counted b' used').trans (Int.ofNat_le.mpr (guessed_mono b'))

theorem hit_answers : ((p.mark c.1 c.2 .hit).countHit b).Answers (free.erase c) :=
  shot_answers h rfl (countHit_sameFleet p c.1 c.2 .hit b).cells (fun _ => mark_elsewhere _)
    fun _ => struck_counts h left used claims

/-- The last hit of a boat finds all the other cells of it guessed. -/
theorem sunk_guessed (last : (p.boats b).hitCount + 1 = (p.boats b).length) {x : Cell}
    (hx : x ∈ free.erase c) : x ∉ (p.boats b).cells := by
  have counts := struck_counted h left used claims
  have few := (p.boats b).card_cells_le
  have all : (p.boats b).cells \ free.erase c = (p.boats b).cells :=
    Finset.eq_of_subset_of_card_le Finset.sdiff_subset (by omega)
  intro mine
  rw [← all] at mine
  exact (Finset.mem_sdiff.mp mine).2 hx

theorem sunk_answers (last : (p.boats b).hitCount + 1 = (p.boats b).length) {board : Board}
    (sunk : sinkCells (p.boats b).countHit (List.range (p.boats b).length.toNat)
      (p.mark c.1 c.2 .hit).board = some board) :
    Player.Answers { (p.mark c.1 c.2 .hit).countHit b with board := board } (free.erase c) := by
  have cells := (countHit_sameFleet p c.1 c.2 .hit b).cells
  refine shot_answers h rfl cells (fun x hx => ?_) fun _ => struck_counts h left used claims
  have outside : x ∉ (p.boats b).countHit.cells := sunk_guessed h left used claims last hx
  exact (sinkCells_outside sunk outside).trans (mark_elsewhere _ hx)

end Struck

/-- A guess at a free cell is accepted, and takes it. -/
theorem guess_answers (left : c ∈ free) {e : Player × GuessResult × Option Nat}
    (guess : guessCell p c.coord.row c.coord.col = some e) :
    e.2.1 ≠ .rejected ∧ e.1.Answers (free.erase c) := by
  obtain ⟨i, j, row, col, cases⟩ := guessCell_cases guess
  have at_c : c = (i, j) := Cell.coord_injective <|
    calc c.coord = ⟨c.coord.row, c.coord.col⟩ := rfl
      _ = Cell.coord (i, j) := by rw [row, col]; rfl
  subst at_c
  have shown := h.answered _ left
  rcases cases with ⟨-, rfl⟩ | ⟨ship, search, -⟩ | ⟨n, ship, search, hit⟩ | ⟨other, marked, -⟩
  · exact ⟨by simp, miss_answers (c := (i, j)) h⟩
  · obtain ⟨-, b, used, claims⟩ := shown.resolve_left (by simp [ship])
    exact absurd claims ((findBoat_found search).1 rfl b (List.mem_range.mpr used))
  · obtain ⟨b, rfl, member, claims⟩ := (findBoat_found search).2 n rfl
    have used := List.mem_range.mp member
    obtain ⟨b', eq, ⟨-, rfl⟩ | ⟨last, board, sunk, rfl⟩⟩ := hitBoat_cases hit
    · cases Fin.ext eq
      exact ⟨by simp, hit_answers h left used claims⟩
    · cases Fin.ext eq
      exact ⟨by simp, sunk_answers h left used claims last sunk⟩
  · rcases shown with empty | ⟨ship, -⟩
    · exact absurd empty marked
    · exact absurd ship other

end Guess

theorem recordGuess_set {b b' : Board} {c : Cell} {result : GuessResult}
    (h : recordGuess b c.coord.row c.coord.col result = some b') (accepted : result ≠ .rejected) :
    ∃ v, v ≠ .empty ∧ v ≠ .ship ∧ b' = b.set c.1 c.2 v := by
  cases result with
  | hit =>
      obtain rfl := Option.some.inj ((b.write_coord c .hit).symm.trans h)
      exact ⟨.hit, by simp, by simp, rfl⟩
  | miss =>
      obtain rfl := Option.some.inj ((b.write_coord c .miss).symm.trans h)
      exact ⟨.miss, by simp, by simp, rfl⟩
  | sunk =>
      obtain rfl := Option.some.inj ((b.write_coord c .hit).symm.trans h)
      exact ⟨.hit, by simp, by simp, rfl⟩
  | rejected => exact absurd rfl accepted

theorem Board.NoShip.set {b : Board} (h : b.NoShip) (c : Cell) {v : CellState} (other : v ≠ .ship) :
    (b.set c.1 c.2 v).NoShip := by
  intro x
  rw [Board.set_cells]
  split
  · exact other
  · exact h x

/-- A move of the opponent takes one of the empty cells of the guess board. -/
theorem opponentMove_takes {ans : ∀ c : Call, c.Ans} {lim : Limits} {m : Mem} {e : Unit × Mem}
    (aimed : m.smartAiState.Aimed) (noShip : m.aiGuessBoard.NoShip)
    (answers : m.game.player.Answers m.aiGuessBoard.empties)
    (h : Prog.exec ans (opponentMove lim) m = .done e) :
    e.2.smartAiState.Aimed ∧ e.2.aiGuessBoard.NoShip ∧ ∃ c ∈ m.aiGuessBoard.empties,
      e.2.aiGuessBoard.empties = m.aiGuessBoard.empties.erase c ∧
        e.2.game.player.Answers e.2.aiGuessBoard.empties := by
  obtain ⟨g, r, ai, guess, struck, updated, player, tracker, board⟩ := opponentMove_moves h
  obtain ⟨i, j, row, col, -⟩ := guessCell_cases struck
  have at_cell : Cell.coord (i, j) = g.1 :=
    calc Cell.coord (i, j) = ⟨g.1.row, g.1.col⟩ := by rw [row, col]; rfl
      _ = g.1 := rfl
  obtain ⟨c, at_c, free⟩ := engineGetGuess_inside aimed noShip guess ⟨_, at_cell⟩
  rw [at_c] at struck updated
  have left : c ∈ m.aiGuessBoard.empties := Board.mem_empties.mpr free
  obtain ⟨accepted, onward⟩ := guess_answers answers left struck
  obtain ⟨v, marked, other, set⟩ := recordGuess_set (engineUpdate_parts updated).2 accepted
  have aimed' : g.2.1.Aimed := by
    rcases engineGetGuess_tracker aimed guess with same | reset
    · exact same ▸ aimed
    · exact reset ▸ aiResetSmart_aimed
  have emptied : e.2.aiGuessBoard.empties = m.aiGuessBoard.empties.erase c := by
    rw [board, set, empties_set _ c marked]
  refine ⟨tracker ▸ engineUpdate_aimed aimed' updated, ?_, c, left, emptied, ?_⟩
  · rw [board, set]
    exact noShip.set c other
  · rw [player, emptied]
    exact onward

/-- The states of a game that is set up and not over. -/
def InPlay (v : GameState) : Prop := v = .webInit ∨ v = .waitingForPlayer ∨ v = .waitingForOpponent

instance (v : GameState) : Decidable (InPlay v) := by
  unfold InPlay
  infer_instance

/-- Every cell the guess board shows empty is empty on the player's board. -/
def Mem.Bare (m : Mem) : Prop :=
  ∀ c : Cell, m.aiGuessBoard.cells c.1 c.2 = .empty → m.game.player.board.cells c.1 c.2 = .empty

instance (m : Mem) : Decidable m.Bare := by
  unfold Mem.Bare
  infer_instance

/-- Ships are placed on bare boards only. -/
def BareSetup (m : Mem) : Event → Prop
  | .request r => r.manual.isSome → InPlay m.game.state → m.Bare
  | .iteration _ => m.game.state = .randomInit → m.Bare

instance (m : Mem) (ev : Event) : Decidable (BareSetup m ev) := by
  cases ev <;> simp only [BareSetup] <;> infer_instance

/-- The tracker can aim, the guess board shows no ship, and in play every guess
that is left is answered. -/
structure Mem.Poised (m : Mem) : Prop where
  aimed : m.smartAiState.Aimed
  noShip : m.aiGuessBoard.NoShip
  answers : InPlay m.game.state → m.game.player.Answers m.aiGuessBoard.empties

/-- The opponent's engine and the player are as they were. -/
structure Mem.Aside (m m' : Mem) : Prop where
  player : m'.game.player = m.game.player
  tracker : m'.smartAiState = m.smartAiState
  board : m'.aiGuessBoard = m.aiGuessBoard

theorem Mem.Poised.aside {m m' : Mem} (h : m.Poised) (aside : m.Aside m')
    (play : InPlay m'.game.state → InPlay m.game.state) : m'.Poised := by
  refine ⟨aside.tracker ▸ h.aimed, aside.board ▸ h.noShip, fun now => ?_⟩
  rw [aside.player, aside.board]
  exact h.answers (play now)

theorem reset_poised {m : Mem} (tracker : m.smartAiState = aiResetSmart)
    (board : m.aiGuessBoard = initBoard true)
    (answers : InPlay m.game.state → m.game.player.Answers m.aiGuessBoard.empties) : m.Poised := by
  refine ⟨tracker ▸ aiResetSmart_aimed, fun c => ?_, answers⟩
  rw [board]
  simp [initBoard]

theorem Mem.Bare.answers {m : Mem} (h : m.Bare) {p : Player} {ships : List ShipRequest}
    (seats : Seats m.game.player.uncounted ships p) : p.Answers m.aiGuessBoard.empties :=
  seats.answers (uncounted_answers fun c hc => h c (Board.mem_empties.mp hc))

section Step
variable {lim : Limits} {m m' : Mem}

theorem Mem.Poised.brushed (h : m.Poised) (brushes : Brushes m m') : m'.Poised := by
  have play : InPlay m'.game.state → InPlay m.game.state := fun play => by
    rcases play with play | play | play <;>
      rw [brushes.state (by simp [play]) (by simp [play]), play] <;> simp [InPlay]
  obtain ⟨d, v, conn, -, rfl⟩ := brushes
  exact h.aside ⟨rfl, rfl, rfl⟩ play

theorem request_poised {r : Request} (h : m.Poised) (ok : BareSetup m (.request r))
    {e : Response × Mem} (done : respond r m = .done e) : e.2.Poised := by
  cases manual : r.manual with
  | none => exact h.brushed (exec_other manual done).1
  | some w =>
      rw [respond, exec_manual (answer none) manual (exec_manual_created manual done)] at done
      obtain ⟨e', loop, rfl⟩ := Option.map_eq_some_iff.mp (Outcome.ofOption_eq_done done)
      obtain ⟨ships, rest, -, seats, -⟩ := seatLoop_seats loop
      exact ⟨h.aimed, h.noShip, fun play => (ok (by rw [manual]; rfl) play).answers seats⟩

theorem waitingForPlayer_aside {msg : Option IoMessage} {e : Unit × Mem}
    (h : Prog.exec (answer msg) waitingForPlayerCase m = .done e) : m.Aside e.2 := by
  rcases waitingForPlayer_cases h with idle | ⟨c, g, -, rejected | ⟨gone, passed⟩⟩
  · rw [idle]
    exact ⟨rfl, rfl, rfl⟩
  · rw [rejected]
    exact ⟨rfl, rfl, rfl⟩
  · rw [passed]
    exact ⟨rfl, rfl, rfl⟩

theorem webInit_aside {ans : ∀ c : Call, c.Ans} {e : Unit × Mem}
    (h : Prog.exec ans webInitCase m = .done e) : m.Aside e.2 := by
  simp only [webInitCase, Prog.exec_bind, Prog.exec_get, Outcome.bind_done] at h
  split at h
  · simp only [Prog.exec_bind, exec_setState, Outcome.bind_done, renderBoard,
      Prog.exec_modify] at h
    obtain ⟨ships, p, rng, -, -, eq⟩ := placeRandomShips_game h
    rw [eq]
    exact ⟨rfl, rfl, rfl⟩
  · cases h
    exact ⟨rfl, rfl, rfl⟩

theorem randomInit_seats {ans : ∀ c : Call, c.Ans} {e : Unit × Mem}
    (h : Prog.exec ans randomInitCase m = .done e) : ∃ ships,
      Seats m.game.player.uncounted ships e.2.game.player ∧
        e.2.smartAiState = m.smartAiState ∧ e.2.aiGuessBoard = m.aiGuessBoard := by
  simp only [randomInitCase, setupGameRandomly, Prog.exec_bind, Outcome.bind_assoc] at h
  obtain ⟨r, first, h⟩ := Outcome.bind_eq_done h
  obtain ⟨ships, p, rng, seats, -, eq⟩ := placeRandomShips_game first
  obtain ⟨r', second, h⟩ := Outcome.bind_eq_done h
  obtain ⟨ships', p', rng', -, -, eq'⟩ := placeRandomShips_game second
  simp only [eq', eq, renderBoard, Prog.exec_modify, exec_vTaskDelay, exec_setState,
    Outcome.bind_done] at h
  cases h
  exact ⟨ships, seats, rfl, rfl⟩

theorem iteration_poised {msg : Option IoMessage} (h : m.Poised)
    (ok : m.game.state = .randomInit → m.Bare)
    (step : seqStep lim m (.iteration msg) = some m') : m'.Poised := by
  obtain ⟨u, done⟩ := Outcome.memory_some step
  rw [exec_gameIteration] at done
  cases state : m.game.state with
  | init =>
      rw [seqStep_create state] at step
      cases step
      exact reset_poised rfl rfl fun _ => cleared_answers false _
  | gameRestart =>
      rw [seqStep_restart state] at step
      cases step
      refine reset_poised rfl rfl fun play => ?_
      rcases play with play | play | play <;> cases play
  | webInit =>
      rw [state] at done
      exact h.aside (webInit_aside done) fun _ => .inl state
  | randomInit =>
      rw [state] at done
      obtain ⟨ships, seats, tracker, board⟩ := randomInit_seats done
      refine ⟨tracker ▸ h.aimed, board ▸ h.noShip, fun _ => ?_⟩
      rw [board]
      exact (ok state).answers seats
  | running =>
      rw [state] at done
      cases done
      exact h
  | waitingForPlayer =>
      rw [state] at done
      exact h.aside (waitingForPlayer_aside done) fun _ => .inr (.inl state)
  | waitingForOpponent =>
      rw [state] at done
      obtain ⟨aimed, noShip, c, -, -, answers⟩ := opponentMove_takes h.aimed h.noShip
        (h.answers (.inr (.inr state))) done
      exact ⟨aimed, noShip, fun _ => answers⟩
  | gameOver =>
      rw [state] at done
      cases done
      refine h.aside ⟨rfl, rfl, rfl⟩ fun play => ?_
      rcases play with play | play | play <;> cases play

theorem step_poised {ev : Event} (h : m.Poised) (ok : BareSetup m ev)
    (step : seqStep lim m ev = some m') : m'.Poised := by
  cases ev with
  | request r =>
      obtain ⟨resp, done⟩ := Outcome.memory_some step
      exact request_poised h ok done
  | iteration msg => exact iteration_poised h ok step

theorem booted_poised (booted : Booted m) : m.Poised := by
  obtain ⟨m₀, lim₀, init, boot⟩ := booted
  rw [seqStep_create init] at boot
  cases boot
  exact reset_poised rfl rfl fun _ => cleared_answers false _

/-- The deed is an iteration of WAITING_FOR_OPPONENT. -/
def Deed.turn (d : Deed) : Bool :=
  match d.event with
  | .request _ => false
  | .iteration _ => d.mem.game.state = .waitingForOpponent

theorem Deed.turn_iteration {d : Deed} (h : d.turn = true) :
    d.mem.game.state = .waitingForOpponent ∧ ∃ msg, d.event = .iteration msg := by
  unfold Deed.turn at h
  split at h
  · cases h
  · rename_i msg event
    exact ⟨of_decide_eq_true h, msg, event⟩

/-- As long as ships are placed on bare boards, and by turns with the game task, every
turn of the opponent takes a cell from its guess board. -/
theorem opponent_gets_on {c : Chronicle} (h : Reaches (Chronicle.step lim)
    (Chronicle.Apart BareSetup) (Chronicle.Start lim) c) {d : Deed} {older : List Deed}
    (last : c.deeds = d :: older) (turn : d.turn = true) (left : c.fw.Between = true) :
    c.fw.mem.aiGuessBoard.empties.card < d.mem.aiGuessBoard.empties.card := by
  obtain ⟨state, msg, iteration⟩ := d.turn_iteration turn
  obtain ⟨m, past, -, stepped, -, touches⟩ := Chronicle.reaches_left h last iteration left
  have board : c.fw.mem.aiGuessBoard = m.aiGuessBoard := by
    obtain ⟨_, _, _, -, eq⟩ := touches.brushes
    rw [eq]
  have poised : d.mem.Poised := by
    rcases past.invariant (P := fun _ m => m.Poised) (fun _ _ => booted_poised)
      (fun _ _ _ poised touches => poised.brushed touches.brushes)
      (fun _ _ _ _ => step_poised) with ⟨-, init⟩ | poised
    · cases state.symm.trans init
    · exact poised
  rw [iteration] at stepped
  obtain ⟨u, done⟩ := Outcome.memory_some stepped
  rw [exec_gameIteration, state] at done
  obtain ⟨-, -, c', free, emptied, -⟩ := opponentMove_takes poised.aimed poised.noShip
    (poised.answers (.inr (.inr state))) done
  rw [board, emptied]
  exact Finset.card_erase_lt_of_mem free

end Step

/-- These ships are set up in WEB_INIT, one request after the other, and a press misses.
A browser connects before the opponent has moved. -/
def setupsAndPress (ships : List Json) : List Act :=
  List.replicate 5 .game ++
    (ships.map (fun ship => .request (setupList [ship]) :: List.replicate 9 .httpd)).flatten ++
    [.frameArrives 2 (buttonFrame 0 4)] ++ List.replicate 6 .receiver ++ List.replicate 9 .game ++
    [.request .wsConnect, .httpd, .httpd, .game]

theorem opponent_gets_on_once : ∃ (c : Chronicle) (d : Deed) (older : List Deed),
    c.deeds = d :: older ∧ d.turn = true ∧ c.fw.mem.wsConnected = true ∧
      d.mem.aiGuessBoard.empties.card = 25 ∧
      c.fw.mem.aiGuessBoard.empties.card < d.mem.aiGuessBoard.empties.card := by
  have run : (runList (Chronicle.step ⟨0, none⟩) (.boot ⟨0, none⟩)
      (setupsAndPress [shipItem 2 2 2])).any (fun c => c.fw.Between ∧ c.fw.mem.wsConnected = true ∧
        c.deeds.head?.any (fun d => d.turn = true ∧
          d.mem.aiGuessBoard.empties.card = 25) = true) = true := by decide +kernel
  have meets : Meets (Chronicle.step ⟨0, none⟩) (Chronicle.Apart BareSetup) (.boot ⟨0, none⟩)
      (setupsAndPress [shipItem 2 2 2]) := by decide +kernel
  obtain ⟨c, reached, check⟩ := exists_reaches_of_meets (Chronicle.boot_start _) meets run
  obtain ⟨left, connected, last⟩ := of_decide_eq_true check
  obtain ⟨d, first, checked⟩ := (Option.any_eq_true _ _).mp last
  obtain ⟨turn, full⟩ := of_decide_eq_true checked
  obtain ⟨older, deeds⟩ := List.head?_eq_some_iff.mp first
  exact ⟨c, d, older, deeds, turn, connected, full, opponent_gets_on reached deeds turn left⟩

/-- A ship of an earlier setup lies where the opponent aims: the guess is refused,
and the guess board stays as it was. -/
theorem stale_ship_stalls : ∃ (c : Chronicle) (d : Deed) (older : List Deed),
    Reaches (Chronicle.step ⟨0, none⟩) (fun _ _ => True) (Chronicle.Start ⟨0, none⟩) c ∧
    c.deeds = d :: older ∧ d.turn = true ∧ c.fw.Between = true ∧
    ¬c.fw.mem.aiGuessBoard.empties.card < d.mem.aiGuessBoard.empties.card := by
  have run : (runList (Chronicle.step ⟨0, none⟩) (.boot ⟨0, none⟩)
      (setupsAndPress [shipItem 2 2 1, shipItem 0 0 1])).any (fun c => c.fw.Between ∧
        c.deeds.head?.any (fun d => d.turn = true ∧ ¬c.fw.mem.aiGuessBoard.empties.card <
          d.mem.aiGuessBoard.empties.card) = true) = true := by decide +kernel
  obtain ⟨c, reached, check⟩ := exists_reaches (Chronicle.boot_start _) run
  obtain ⟨left, last⟩ := of_decide_eq_true check
  obtain ⟨d, first, checked⟩ := (Option.any_eq_true _ _).mp last
  obtain ⟨turn, stays⟩ := of_decide_eq_true checked
  obtain ⟨older, deeds⟩ := List.head?_eq_some_iff.mp first
  exact ⟨c, d, older, reached, deeds, turn, left, stays⟩

end Battleship
