import Battleship.Contract
import Battleship.Progress
import Battleship.Lib.History

/-!
# Every mark is a guess

A cell of a board is marked from the first guess at it on, until the next INIT
clears the board. Placing ships, at any moment, neither marks a cell nor takes a
mark away, and a boat that sinks has had all its cells guessed.
-/
namespace Battleship
open Cooperative Runs

/-- The cells that a guess has left a mark on. -/
def Player.marked (p : Player) : Finset Cell :=
  Finset.univ.filter (fun c => p.board.cells c.1 c.2 ∈ [CellState.hit, .miss, .sunk])

theorem Player.mem_marked {p : Player} {c : Cell} :
    c ∈ p.marked ↔ p.board.cells c.1 c.2 ∈ [CellState.hit, .miss, .sunk] := by
  simp [Player.marked]

/-- No counter is ahead of the marks on its boat, whether the boat counts or not. -/
def Player.Tallied (p : Player) : Prop :=
  ∀ b : Fin maxShips, (p.boats b).hitCount ≤ ((p.boats b).cells ∩ p.marked).card

theorem marked_mark (p : Player) (c : Cell) {v : CellState}
    (marks : v ∈ [CellState.hit, .miss, .sunk]) :
    (p.mark c.1 c.2 v).marked = insert c p.marked := by
  ext x
  rw [Finset.mem_insert, Player.mem_marked, Player.mem_marked, Player.mark, Board.set_cells]
  by_cases here : x = c
  · subst here
    simp only [and_self, if_true, true_or, iff_true]
    exact marks
  · have other : ¬(x.1 = c.1 ∧ x.2 = c.2) := fun both => here (Prod.ext both.1 both.2)
    rw [if_neg other]
    exact (or_iff_right here).symm

/-- More marks leave no counter ahead. -/
theorem Player.Tallied.grow {p p' : Player} (h : p.Tallied) (boats : p'.boats = p.boats)
    (more : p.marked ⊆ p'.marked) : p'.Tallied := by
  intro b
  rw [boats]
  have grown := Finset.card_le_card (Finset.inter_subset_inter_left (s := (p.boats b).cells) more)
  exact (h b).trans (Int.ofNat_le.mpr grown)

theorem cleared_marked (isOpp : Bool) :
    (⟨initBoard isOpp, fun _ => Boat.zero, maxShips⟩ : Player).marked = ∅ := by
  simp [Player.marked, initBoard]

theorem cleared_tallied (isOpp : Bool) :
    (⟨initBoard isOpp, fun _ => Boat.zero, maxShips⟩ : Player).Tallied :=
  fun _ => Int.natCast_nonneg _

theorem seated_marked {p : Player} (room : p.boatCount < maxShips) {ship : ShipRequest}
    (fits : p.board.Admits ship) : (p.seated room ship).marked = p.marked := by
  ext c
  rw [Player.mem_marked, Player.mem_marked, seated_board, Board.withRequest_cells]
  by_cases inside : c ∈ shipCells ship.row ship.col ship.horizontal ship.length.toNat
  · rw [if_pos inside, fits.empty_of_mem inside]
    simp
  · rw [if_neg inside]

theorem seated_tallied {p : Player} (h : p.Tallied) (room : p.boatCount < maxShips)
    {ship : ShipRequest} (fits : p.board.Admits ship) : (p.seated room ship).Tallied := by
  intro b
  by_cases new : b.val = p.boatCount
  · obtain rfl : b = ⟨p.boatCount, room⟩ := Fin.ext new
    rw [seated_hitCount]
    exact Int.natCast_nonneg _
  · rw [seated_boat_of_ne p room ship new, seated_marked room fits]
    exact h b

/-- Sinking leaves a cell as it is, or marks it sunk. -/
theorem sinkCells_or {boat : Boat} {js : List Nat} {b b' : Board}
    (h : sinkCells boat js b = some b') (c : Cell) :
    b'.cells c.1 c.2 = b.cells c.1 c.2 ∨ b'.cells c.1 c.2 = .sunk := by
  induction js generalizing b with
  | nil =>
      cases h
      exact .inl rfl
  | cons j js ih =>
      obtain ⟨at_j, -, h⟩ := Option.bind_eq_some_iff.mp h
      obtain ⟨b₁, written, h⟩ := Option.bind_eq_some_iff.mp h
      obtain ⟨r, -, written⟩ := Option.bind_eq_some_iff.mp written
      obtain ⟨k, -, written⟩ := Option.bind_eq_some_iff.mp written
      cases written
      rcases ih h with same | sunk
      · rw [same, Board.set_cells]
        split
        · exact .inr rfl
        · exact .inl rfl
      · exact .inr sunk

section Guess
variable {p : Player} {c : Cell} {b : Fin maxShips}

theorem countHit_marked (p : Player) (b : Fin maxShips) : (p.countHit b).marked = p.marked := rfl

/-- The boat that a fresh mark lies on may count it. -/
theorem countHit_tallied (h : p.Tallied) (claims : c ∈ (p.boats b).cells) (fresh : c ∉ p.marked) :
    ((p.mark c.1 c.2 .hit).countHit b).Tallied := by
  have marked : (p.mark c.1 c.2 .hit).marked = insert c p.marked := marked_mark p c (by simp)
  intro b'
  rw [countHit_marked, marked]
  by_cases same : b' = b
  · subst same
    have counter : (((p.mark c.1 c.2 .hit).countHit b').boats b').hitCount =
        (p.boats b').hitCount + 1 := by simp [Player.countHit, Player.mark, Boat.countHit]
    have cells : (((p.mark c.1 c.2 .hit).countHit b').boats b').cells = (p.boats b').cells := by
      simp [Player.countHit, Player.mark, Boat.countHit, Boat.cells]
    rw [counter, cells, Finset.inter_insert_of_mem claims, Finset.card_insert_of_notMem
      fun member => fresh (Finset.mem_of_mem_inter_right member)]
    have before := h b'
    omega
  · have boat : ((p.mark c.1 c.2 .hit).countHit b).boats b' = p.boats b' := by
      simp [Player.countHit, Player.mark, Function.update_of_ne same]
    have grown := Finset.card_le_card
      (Finset.inter_subset_inter_left (s := (p.boats b').cells) (Finset.subset_insert c p.marked))
    rw [boat]
    exact (h b').trans (Int.ofNat_le.mpr grown)

/-- The last hit finds every other cell of its boat marked, so sinking marks no more. -/
theorem sunk_marked (h : p.Tallied) (claims : c ∈ (p.boats b).cells) (fresh : c ∉ p.marked)
    (last : (p.boats b).hitCount + 1 = (p.boats b).length) {board : Board}
    (sunk : sinkCells (p.boats b).countHit (List.range (p.boats b).length.toNat)
      (p.mark c.1 c.2 .hit).board = some board) :
    Player.marked { (p.mark c.1 c.2 .hit).countHit b with board := board } =
      insert c p.marked := by
  have marked : (p.mark c.1 c.2 .hit).marked = insert c p.marked := marked_mark p c (by simp)
  have few := (p.boats b).card_cells_le
  have counter := h b
  have covered : (p.boats b).cells ⊆ insert c p.marked := by
    have enough : (p.boats b).cells.card ≤ ((p.boats b).cells ∩ insert c p.marked).card := by
      rw [Finset.inter_insert_of_mem claims, Finset.card_insert_of_notMem
        fun member => fresh (Finset.mem_of_mem_inter_right member)]
      omega
    rw [← Finset.eq_of_subset_of_card_le Finset.inter_subset_left enough]
    exact Finset.inter_subset_right
  rw [← marked] at covered ⊢
  ext x
  rw [Player.mem_marked, Player.mem_marked]
  by_cases mine : x ∈ (p.boats b).cells
  · have already := Player.mem_marked.mp (covered mine)
    rcases sinkCells_or sunk x with same | sank
    · rw [same]
    · rw [sank]
      exact iff_of_true (by simp) already
  · have outside : x ∉ (p.boats b).countHit.cells := mine
    rw [sinkCells_outside sunk outside]

/-- A guess marks its cell, and no other. -/
theorem guess_marks (h : p.Tallied) {row col : Int} {e : Player × GuessResult × Option Nat}
    (guess : guessCell p row col = some e) : ∃ c : Cell, row = c.coord.row ∧ col = c.coord.col ∧
      e.1.marked = insert c p.marked ∧ e.1.Tallied := by
  obtain ⟨i, j, rfl, rfl, cases⟩ := guessCell_cases guess
  refine ⟨(i, j), rfl, rfl, ?_⟩
  have fresh : p.board.cells i j = .ship → (i, j) ∉ p.marked := fun ship member => by
    rw [Player.mem_marked, ship] at member
    simp at member
  rcases cases with ⟨-, rfl⟩ | ⟨-, -, rfl⟩ | ⟨n, ship, search, hit⟩ | ⟨other, filled, rfl⟩
  · have marked : (p.mark i j .miss).marked = insert (i, j) p.marked :=
      marked_mark p (i, j) (by simp)
    exact ⟨marked, h.grow rfl (marked ▸ Finset.subset_insert _ _)⟩
  · have marked : (p.mark i j .hit).marked = insert (i, j) p.marked :=
      marked_mark p (i, j) (by simp)
    exact ⟨marked, h.grow rfl (marked ▸ Finset.subset_insert _ _)⟩
  · obtain ⟨b, rfl, -, claims⟩ := (findBoat_found (c := (i, j)) search).2 n rfl
    have tallied := countHit_tallied h claims (fresh ship)
    obtain ⟨b', eq, ⟨-, rfl⟩ | ⟨last, board, sunk, rfl⟩⟩ := hitBoat_cases hit
    · cases Fin.ext eq
      exact ⟨marked_mark p (i, j) (by simp), tallied⟩
    · cases Fin.ext eq
      have marked := sunk_marked h claims (fresh ship) last sunk
      refine ⟨marked, fun b'' => ?_⟩
      rw [marked, ← marked_mark p (i, j) (v := .hit) (by simp)]
      exact tallied b''
  · refine ⟨(Finset.insert_eq_of_mem ?_).symm, h⟩
    rw [Player.mem_marked]
    cases value : p.board.cells i j with
    | empty => exact absurd value filled
    | ship => exact absurd value other
    | _ => simp

end Guess

/-- The cell has been guessed at, and no INIT dispatched since. -/
def Guessed (side : Side) (c : Cell) (log : List Out) : Prop :=
  Since (fun o => o = .guess side c.coord.row c.coord.col) (fun o => o = .dispatch .init) log

def marking : Out → Bool
  | .guess _ _ _ => true
  | .dispatch v => v = .init
  | _ => false

/-- From the first INIT on the marks of a side are its guesses. -/
structure Mem.Recorded (log : List Out) (m : Mem) (side : Side) : Prop where
  marked : ∀ c, c ∈ (m.game.side side).marked ↔ Guessed side c log
  tallied : (m.game.side side).Tallied

/-- No mark is made or taken away, and no counter gets ahead. -/
structure Mem.Unmarked (m m' : Mem) : Prop where
  pointer : m'.currentGame = m.currentGame
  marked : ∀ side, (m'.game.side side).marked = (m.game.side side).marked
  tallied : ∀ side, (m.game.side side).Tallied → (m'.game.side side).Tallied

/-- Both boards are the records of the guesses. -/
def records : Contract where
  rely := Mem.Unmarked
  serve := Mem.Unmarked
  counts := marking
  guar log _ m := m.currentGame = true → ∀ side, m.Recorded log side
  home log m := m.currentGame = true → ∀ side, m.Recorded log side

theorem Mem.Unmarked.refl (m : Mem) : m.Unmarked m := ⟨rfl, fun _ => rfl, fun _ => id⟩

theorem Mem.Unmarked.trans {m m' m'' : Mem} (h : m.Unmarked m') (h' : m'.Unmarked m'') :
    m.Unmarked m'' :=
  ⟨h'.pointer.trans h.pointer, fun side => (h'.marked side).trans (h.marked side),
    fun side before => h'.tallied side (h.tallied side before)⟩

theorem Mem.Unmarked.home {m m' : Mem} (h : m.Unmarked m') {log : List Out}
    (before : records.home log m) : records.home log m' := by
  intro created side
  have recorded := before (h.pointer ▸ created) side
  exact ⟨fun c => h.marked side ▸ recorded.marked c, h.tallied side recorded.tallied⟩

/-- Writes that leave the marks alone, and the entries that count. -/
abbrev Unmarking (m : Mem) (r : Mem × List Out) : Prop :=
  m.Unmarked r.1 ∧ ∀ o ∈ r.2, records.counts o = false

theorem unmarking_nil {m m' : Mem} (h : m.Unmarked m') : Unmarking m (m', []) :=
  ⟨h, fun _ member => absurd member List.not_mem_nil⟩

theorem unmarking_log {m : Mem} {o : Out} (h : marking o = false) : Unmarking m (m, [o]) :=
  ⟨.refl m, fun _ member => List.mem_singleton.mp member ▸ h⟩

/-- The players stay. -/
theorem unmarking_same {m m' : Mem} (pointer : m'.currentGame = m.currentGame)
    (same : ∀ side, m'.game.side side = m.game.side side) : Unmarking m (m', []) :=
  unmarking_nil ⟨pointer, fun side => by rw [same], fun side before => by rwa [same]⟩

/-- One player is another, with the same marks. -/
theorem unmarking_side {m m' : Mem} {s : Side} {p : Player}
    (game : m'.game = m.game.setSide s p) (pointer : m'.currentGame = m.currentGame)
    (marked : p.marked = (m.game.side s).marked)
    (tallied : (m.game.side s).Tallied → p.Tallied) : Unmarking m (m', []) := by
  refine unmarking_nil ⟨pointer, fun side => ?_, fun side => ?_⟩
  · rw [game]
    cases s <;> cases side <;> first | exact marked | rfl
  · rw [game]
    cases s <;> cases side <;> first | exact tallied | exact id

theorem unmarking_seats : SeatWrites Unmarking where
  none m := unmarking_nil (.refl m)
  difficulty _ _ := unmarking_same rfl fun side => by cases side <;> rfl
  connected _ := unmarking_same rfl fun _ => rfl
  command m c asked := by
    refine ⟨⟨rfl, fun side => ?_, fun side => ?_⟩, fun o member => ?_⟩
    · cases side <;> rfl
    · cases side <;> exact id
    · rw [List.mem_singleton.mp member]
      rfl
  frame _ _ := unmarking_log rfl
  ready _ := unmarking_same rfl fun side => by cases side <;> rfl
  count _ _ := unmarking_side (s := .player) rfl rfl rfl id
  seated m ship p seat := by
    obtain ⟨fits, room, rfl⟩ := seat_some seat
    exact unmarking_side (s := .player) rfl rfl (seated_marked room fits)
      fun before => seated_tallied before room fits

theorem unmarking_moves : MoveWrites Unmarking where
  none m := unmarking_nil (.refl m)
  engine _ _ _ _ := unmarking_same rfl fun _ => rfl
  leds _ _ := unmarking_same rfl fun _ => rfl
  frame _ _ := unmarking_log rfl
  result _ _ := unmarking_log rfl
  turn _ _ := unmarking_same rfl fun side => by cases side <;> rfl
  state _ _ := unmarking_same rfl fun side => by cases side <;> rfl

theorem unmarking_rounds (side : Side) : RoundWrites Unmarking side where
  none m := unmarking_nil (.refl m)
  frame _ _ := unmarking_log rfl
  count _ _ := unmarking_side rfl rfl rfl id
  round m length found p rng round := by
    rcases placeRandomShip_cases round with ⟨-, rfl⟩ | ⟨d, room, -, fits, counted⟩
    · exact unmarking_side rfl rfl rfl id
    · have marked : p.counted.marked = (m.game.side side).marked := by
        rw [counted]
        exact seated_marked room fits
      refine unmarking_side rfl rfl marked fun before => ?_
      have tallied : p.counted.Tallied := by
        rw [counted]
        exact seated_tallied before room fits
      exact tallied

section Programs
variable {past : List Out} {m : Mem} {l : List (Out ⊕ Call)}

/-- The promise at every call: the record is right so far. -/
abbrev Keeps (past : List Out) (t : GameTask α) (m : Mem) (l : List (Out ⊕ Call)) : Prop :=
  records.runs past t (fun _ m log => records.home log m) m l

theorem keeps_unmarking {t : GameTask α} (always : Prog.Always Unmarking t)
    (start : records.home (past ++ records.told l) m) : Keeps past t m l := by
  refine always.wlp (J := fun m l => records.home (past ++ records.told l) m) ?_
    (fun _ _ _ before => before) ?_ start
  · rintro m r l ⟨unmarked, uncounted⟩ before
    have silent : records.told (r.2.map .inl) = [] := by
      rw [Contract.told_logged]
      exact List.filter_eq_nil_iff.mpr fun o member => by simp [uncounted o member]
    rw [Contract.told_append, silent, List.append_nil]
    exact unmarked.home before
  · intro c m a m' l before relied
    rw [Contract.told_append, Contract.told_call, List.append_nil]
    exact Mem.Unmarked.home relied before

/-- A guess is logged and marks its cell, and nothing else is. -/
theorem Mem.Recorded.guess {log : List Out} {side : Side} (h : m.Recorded log side)
    {target : Side} {row col : Int} {e : Player × GuessResult × Option Nat}
    (struck : guessCell (m.game.side target) row col = some e) :
    Mem.Recorded (log ++ [.guess target row col])
      { m with game := m.game.setSide target e.1 } side := by
  have other : ∀ c, Guessed side c (log ++ [.guess target row col]) ↔
      (side = target ∧ c.coord.row = row ∧ c.coord.col = col) ∨ Guessed side c log := by
    intro c
    rw [Guessed, since_concat]
    simp [Guessed, eq_comm]
  by_cases here : side = target
  · subst here
    obtain ⟨c, rfl, rfl, marked, tallied⟩ := guess_marks h.tallied struck
    have now : (m.game.setSide side e.1).side side = e.1 := by cases side <;> rfl
    refine ⟨fun x => ?_, by rwa [now]⟩
    have same : x.coord.row = c.coord.row ∧ x.coord.col = c.coord.col ↔ x = c := by
      constructor
      · rintro ⟨row, col⟩
        apply Cell.coord_injective
        exact Coordinate.mk.injEq .. ▸ ⟨row, col⟩
      · rintro rfl
        exact ⟨rfl, rfl⟩
    rw [now, marked, Finset.mem_insert, h.marked, other, same]
    simp
  · have kept : (m.game.setSide target e.1).side side = m.game.side side := by
      cases side <;> cases target <;> first | rfl | exact absurd rfl here
    refine ⟨fun x => ?_, kept ▸ h.tallied⟩
    rw [kept, h.marked, other]
    simp [here]

theorem keeps_applyGuess (target : Side) (row col : Int)
    (h : records.home (past ++ records.told l) m) : Keeps past (applyGuess target row col) m l := by
  rw [Keeps, Contract.runs, applyGuess, Prog.wlp_bind, Prog.wlp_emit, Prog.wlp_bind]
  apply Prog.wlp_tryModify
  rintro ⟨result, sunk⟩ m' eq
  simp only [Option.bind_eq_bind, Option.bind_eq_some_iff, Option.pure_def, Option.some.injEq,
    Prod.mk.injEq] at eq
  obtain ⟨e, struck, ⟨rfl, rfl⟩, rfl⟩ := eq
  refine keeps_unmarking (.bind (showSunk_idle unmarking_moves.none _ _) fun _ =>
    .bind (Prog.always_write fun _ => unmarking_log rfl) fun _ => trivial) ?_
  intro created side
  rw [Contract.told_append, ← List.append_assoc]
  exact (h created side).guess struck

/-- A program that guesses between others that mark nothing. -/
theorem keeps_guessing {target : Side} {t : GameTask Coordinate}
    {k : Coordinate → GuessResult → GameTask Unit} (aims : Prog.Always Unmarking t)
    (ends : ∀ coord result, Prog.Always Unmarking (k coord result))
    (h : records.home (past ++ records.told l) m) : Keeps past (do
      let coord ← t
      let result ← applyGuess target coord.row coord.col
      k coord result) m l := by
  rw [Keeps, Contract.runs, Prog.wlp_bind]
  refine Prog.wlp_mono (fun coord m₁ l₁ aimed => ?_) (keeps_unmarking aims h)
  rw [Prog.wlp_bind]
  exact Prog.wlp_mono (fun result _ _ struck => keeps_unmarking (ends coord result) struck)
    (keeps_applyGuess target coord.row coord.col aimed)

/-- Game_Init clears the boards, and no guess has been made since. -/
theorem keeps_initCase : Keeps (past ++ [.dispatch .init]) initCase m [] := by
  have cleared : records.home (past ++ [.dispatch .init])
      { engineRestart m with game := clearedGame, currentGame := true, leds := ledMatrixInit } := by
    intro _ side
    have none : ∀ c, ¬Guessed side c (past ++ [.dispatch .init]) := fun c => by
      rw [Guessed, since_concat]
      simp
    have fresh : (clearedGame.side side).marked = ∅ ∧ (clearedGame.side side).Tallied := by
      cases side <;> exact ⟨cleared_marked _, cleared_tallied _⟩
    exact ⟨fun c => by simp [none, fresh.1], fresh.2⟩
  rw [Keeps, Contract.runs, initCase, Prog.wlp_bind, gameInit, Prog.wlp_bind, Prog.wlp_modify]
  have written := unmarking_moves.toEngineWrites
  refine Prog.wlp_mono (fun _ _ _ waited => keeps_unmarking ?_ waited) (keeps_unmarking
    (.bind (sendLedMatrixUpdate_always written 3) fun _ => Prog.always_sys _) ?_)
  · exact Prog.always_write fun m => unmarking_moves.state m _
  · rw [Contract.told_nil, List.append_nil]
    exact cleared

theorem keeps_gameSwitch (lim : Limits) (h : records.home past m) {v : GameState}
    (other : v ≠ .init) : Keeps past (gameSwitch lim v) m [] := by
  have written := unmarking_moves.toEngineWrites
  have start : records.home (past ++ records.told []) m := by
    rw [Contract.told_nil, List.append_nil]
    exact h
  have set : ∀ v, Prog.Always Unmarking (setState v) := fun v =>
    Prog.always_write fun m => unmarking_moves.state m v
  cases v with
  | init => exact absurd rfl other
  | webInit =>
      refine keeps_unmarking (.bind (Prog.always_get written.none) fun m => .ite ?_ trivial) start
      apply Prog.Always.bind (set _)
      intro _
      apply Prog.Always.bind (renderBoard_always written _ _ _)
      exact fun _ => placeRandomShips_writes (unmarking_rounds _) _
  | randomInit =>
      rw [gameSwitch, randomInitCase_eq]
      refine keeps_unmarking (.bind (placeRandomShips_writes (unmarking_rounds _) _) ?_) start
      intro _
      apply Prog.Always.bind (placeRandomShips_writes (unmarking_rounds _) _)
      intro _
      apply Prog.Always.bind (renderBoard_always written _ _ _)
      exact fun _ => .bind (Prog.always_sys _) fun _ => set _
  | running => exact start
  | waitingForOpponent =>
      rw [gameSwitch, waitingForOpponentCase, Keeps, Contract.runs, Prog.wlp_bind]
      refine Prog.wlp_mono (fun _ _ _ waited => ?_) (keeps_unmarking (Prog.always_sys _) start)
      refine keeps_guessing (opponentGuess_always written lim) (fun coord result => ?_) waited
      apply Prog.Always.bind (updateSmartAi_always written lim coord result)
      exact fun _ => .ite trivial (opponentMoved_always unmarking_moves)
  | waitingForPlayer =>
      rw [gameSwitch, waitingForPlayerCase, Keeps, Contract.runs, Prog.wlp_bind]
      refine Prog.wlp_mono (fun msg _ _ received => ?_) (keeps_unmarking (Prog.always_sys _) start)
      cases msg with
      | none => exact received
      | some msg =>
          refine Prog.wlp_ite (fun _ => ?_) fun _ => received
          exact keeps_guessing (t := .ret (buttonCoordinate msg)) (k := fun _ result =>
            if result = .rejected then .ret () else playerMoved result) trivial
            (fun _ result => .ite trivial (playerMoved_always unmarking_moves result)) received
  | gameOver =>
      exact keeps_unmarking (.bind (Prog.always_sys _) fun _ => set _) start
  | gameRestart =>
      refine keeps_unmarking (.bind (Prog.always_write fun m => ?_) fun _ =>
        .bind (removeLoop_always written _) fun _ => set _) start
      exact unmarking_same rfl fun _ => rfl

end Programs

namespace Firmware
variable {lim : Limits} {s : Firmware}

theorem records_kept (lim : Limits) : records.Kept lim (fun _ _ => True) where
  refl := .refl
  trans := .trans
  guar _ unmarked before := unmarked.home before
  home unmarked before := unmarked.home before
  handles := handle_seats unmarking_seats
  serves _ _ unmarked := unmarked
  start start created := by cases start.pointer.symm.trans created
  iteration {s past} _ _ home := by
    have tail : ∀ {log : List Out} {m : Mem}, records.home log m → Keeps log loopTail m [] := by
      intro log m before
      refine keeps_unmarking (loopTail_always unmarking_moves.toEngineWrites) ?_
      rw [Contract.told_nil, List.append_nil]
      exact before
    refine Prog.wlp_mono (fun _ _ _ switched => tail switched) ?_
    by_cases init : s.mem.game.state = .init
    · rw [init]
      exact keeps_initCase
    · have silent : [Out.dispatch s.mem.game.state].filter records.counts = [] := by
        simp [records, marking, init]
      rw [silent, List.append_nil]
      exact keeps_gameSwitch lim home init

/-- Whatever the browser asks for and whenever, the buttons and the opponent: from the first
INIT on, whenever game_task waits, a cell of either board is marked as hit, missed or sunk
exactly when it has been guessed at since INIT was dispatched last, and no boat has counted
more hits than it has marked cells. -/
theorem marked_iff_guessed
    (h : Reaches (Firmware.step lim) (fun _ _ => True) (Start lim) s) (running : s.Running)
    (created : s.mem.currentGame = true) (side : Side) :
    (∀ c, c ∈ (s.mem.game.side side).marked ↔ Guessed side c s.log) ∧
    (s.mem.game.side side).Tallied := by
  obtain ⟨home, guar⟩ := (records_kept lim).holds h
  have recorded : s.mem.Recorded (s.log.filter marking) side := by
    rcases running with head | ⟨c, at_call⟩
    · exact home head created side
    · exact guar c at_call created side
  refine ⟨fun c => (recorded.marked c).trans (since_filter ?_ s.log), recorded.tallied⟩
  rintro o (rfl | rfl) <;> rfl

/-- A game is set up, and the player presses a button. -/
def markRun : List Act :=
  List.replicate 5 .game ++ [.request (setupList [shipItem 2 2 2])] ++ List.replicate 9 .httpd ++
    List.replicate 3 .game ++ [.frameArrives 2 (buttonFrame 0 4)] ++ List.replicate 6 .receiver ++
    List.replicate 2 .game

theorem marked_iff_guessed_press : ∃ (s : Firmware) (c : Cell),
    s.mem.game.opponent.board.cells c.1 c.2 = .miss ∧ Guessed .opponent c s.log := by
  have run : (runList (Firmware.step ⟨0, none⟩) (boot ⟨0, none⟩) markRun).any (fun s =>
      s.mem.currentGame = true ∧ s.rest.pending.isSome = true ∧
        s.mem.game.opponent.board.cells 4 4 = .miss) = true := by decide +kernel
  obtain ⟨s, reached, check⟩ := exists_reaches (boot_start _) run
  obtain ⟨created, waits, miss⟩ := of_decide_eq_true check
  have running : s.Running := .inr (Option.isSome_iff_exists.mp waits)
  have marked : ((4, 4) : Cell) ∈ s.mem.game.opponent.marked := by
    rw [Player.mem_marked, miss]
    simp
  exact ⟨s, (4, 4), miss,
    ((marked_iff_guessed reached running created .opponent).1 (4, 4)).mp marked⟩

end Firmware
end Battleship
