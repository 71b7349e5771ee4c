import Battleship.Chase
import Battleship.Lib.Sweep

/-!
# The hunt sweeps the checkerboard

While it has no hit to follow, the smart tracker shoots at the cells of one colour,
and at a cell of the other only when none of them is left. A ship of two cells or
more has a cell of that colour.
-/
namespace Battleship
open Cooperative Runs Salvo Sweeping

/-- The colour that `ai_guess_smart` hunts on. -/
def checkerboard : Finset Cell := Finset.univ.filter (fun c => (c.1.val + c.2.val) % 2 = 0)

theorem mem_checkerboard {c : Cell} : c ∈ checkerboard ↔ (c.1.val + c.2.val) % 2 = 0 := by
  simp [checkerboard]

theorem checkerboard_card : checkerboard.card = 13 := by decide +kernel

/-- The condition of the hunt phase. -/
def AiState.hunts (st : AiState) : Bool := st.hunting || st.hits.isEmpty

/-- The guess of this turn is made by `ai_guess_smart` in its hunt phase. -/
def hunted (fuel : Nat) (m : Mem) (t : Turn) : Bool :=
  match turnGuess fuel m t with
  | .done g => t.difficulty = difficultySmart && g.2.1.hunts
  | _ => false

/-- Some cell of the boat has been hit. -/
def Player.Found (p : Player) (b : Fin maxShips) : Prop :=
  ∃ c ∈ (p.boats b).cells, p.board.cells c.1 c.2 = .hit ∨ p.board.cells c.1 c.2 = .sunk

/-- The memory, and how many turns have hunted. -/
structure Search where
  mem : Mem
  hunts : Nat

def Search.step (fuel : Nat) (s : Search) (t : Turn) : Option Search :=
  (turnStep fuel s.mem t).map fun m => ⟨m, s.hunts + if hunted fuel s.mem t then 1 else 0⟩

/-- A new game against straight ships. -/
structure Search.Start (s : Search) : Prop where
  opening : Opening s.mem
  straight : ∀ b : Fin maxShips, b.val < s.mem.game.player.boatCount →
    (s.mem.game.player.boats b).Straight
  hunts : s.hunts = 0

theorem huntCell_some {b : Board} {c : Coordinate} (h : huntCell b = some c) :
    ∃ x : Cell, c = x.coord ∧ x ∈ checkerboard ∧ b.cells x.1 x.2 = .empty := by
  obtain ⟨x, found, rfl⟩ := Option.map_eq_some_iff.mp h
  have test := List.find?_some found
  simp only [decide_eq_true_eq] at test
  exact ⟨x, rfl, mem_checkerboard.mpr test.1, test.2⟩

theorem huntCell_none {b : Board} (h : huntCell b = none) {x : Cell} (colour : x ∈ checkerboard) :
    b.cells x.1 x.2 ≠ .empty := by
  intro empty
  have none := List.find?_eq_none.mp (Option.map_eq_none_iff.mp h) x (mem_allCells x)
  simp [mem_checkerboard.mp colour, empty] at none

/-- A guess follows the hits, or hunts, or is made again with a fresh tracker. -/
theorem aiGuessSmart_cases {b : Board} {fuel calls : Nat} {st : AiState} {rng : Rng}
    {g : Coordinate × AiState × Rng} (h : aiGuessSmart b fuel calls st rng = .done g) :
    g.2.1.hunts = false ∨ (huntCell b = some g.1 ∨ huntCell b = none) ∨
      ∃ n, calls = n + 1 ∧ aiGuessSmart b fuel n aiResetSmart rng = .done g := by
  rw [aiGuessSmart.eq_def] at h
  dsimp only at h
  split at h
  · rename_i last base chasing ends _
    obtain ⟨target, -, h⟩ := Outcome.bind_eq_done h
    cases target with
    | some c =>
        cases h
        have struck : st.hits ≠ [] := by
          rintro none
          simp [none] at ends
        exact .inl (by simp [AiState.hunts, chasing, struck])
    | none =>
        cases calls with
        | zero => cases h
        | succ n => exact .inr (.inr ⟨n, rfl, h⟩)
  · split at h
    · rename_i c found
      cases h
      exact .inr (.inl (.inl found))
    · exact .inr (.inl (.inr ‹_›))

/-- A guess in the hunt phase is the first cell of the colour, if there is one. -/
theorem aiGuessSmart_hunts {b : Board} {fuel calls : Nat} {st : AiState} {rng : Rng}
    {g : Coordinate × AiState × Rng} (h : aiGuessSmart b fuel calls st rng = .done g)
    (hunts : g.2.1.hunts = true) : huntCell b = some g.1 ∨ huntCell b = none := by
  induction calls generalizing st with
  | zero =>
      rcases aiGuessSmart_cases h with follows | hunt | ⟨n, next, -⟩
      · cases follows.symm.trans hunts
      · exact hunt
      · cases next
  | succ calls ih =>
      rcases aiGuessSmart_cases h with follows | hunt | ⟨n, next, again⟩
      · cases follows.symm.trans hunts
      · exact hunt
      · cases next
        exact ih again

/-- Of the first two cells of a straight ship one has the colour. -/
theorem Boat.Straight.coloured {boat : Boat} (straight : boat.Straight) (sound : boat.Sound)
    (long : 2 ≤ boat.length) : ∃ c ∈ boat.cells, c ∈ checkerboard := by
  obtain ⟨row, col, horizontal, coords⟩ := straight
  obtain ⟨c₀, at₀⟩ := sound.inGrid 0 (by simp; omega)
  obtain ⟨c₁, at₁⟩ := sound.inGrid 1 (by simp; omega)
  have in₀ : c₀ ∈ boat.cells := Boat.mem_cells.mpr ⟨0, by simp; omega, at₀.symm⟩
  have in₁ : c₁ ∈ boat.cells := Boat.mem_cells.mpr ⟨1, by simp; omega, at₁.symm⟩
  have next : c₁.1.val + c₁.2.val = c₀.1.val + c₀.2.val + 1 := by
    rw [coords 0 (by simp; omega)] at at₀
    rw [coords 1 (by simp; omega)] at at₁
    cases horizontal <;>
      · simp [shipCell, Cell.coord] at at₀ at₁
        omega
  by_cases even : (c₀.1.val + c₀.2.val) % 2 = 0
  · exact ⟨c₀, in₀, mem_checkerboard.mpr even⟩
  · exact ⟨c₁, in₁, mem_checkerboard.mpr (by omega)⟩

/-- What the turns so far leave: the battle on the boards, and its colour swept. -/
structure Searching (s : Search) (B : Battle (Fin maxShips) Cell) : Prop where
  represents : s.mem.game.player.Represents B
  couples : Couples s.mem.aiGuessBoard B
  aimed : s.mem.smartAiState.Aimed
  straight : ∀ b : Fin maxShips, b.val < s.mem.game.player.boatCount →
    (s.mem.game.player.boats b).Straight
  swept : Swept checkerboard B.shots s.hunts

theorem start_searching {s : Search} (h : s.Start) : ∃ B, Searching s B := by
  obtain ⟨B, represents, unshot⟩ := h.opening.fleet.represents
  refine ⟨B, represents, couples_start h.opening.guessBoard unshot, ?_, h.straight, ?_⟩
  · rw [h.opening.tracker]
    exact aiResetSmart_aimed
  · rw [h.hunts, unshot]
    exact swept_start checkerboard

section Turn
variable {fuel : Nat} {s : Search} {B : Battle (Fin maxShips) Cell} (h : Searching s B)
include h

theorem Searching.taken (none : huntCell s.mem.aiGuessBoard = none) : checkerboard ⊆ B.shots := by
  intro x colour
  by_contra unshot
  exact huntCell_none none colour ((h.couples.water x).mpr unshot)

/-- A hunt takes a cell of the colour, unless all of it is taken. -/
theorem Searching.hunt {t : Turn} {g : Coordinate × AiState × Rng} {c : Cell}
    (smart : t.difficulty = difficultySmart) (guess : turnGuess fuel s.mem t = .done g)
    (hunts : g.2.1.hunts = true) (at_c : g.1 = c.coord) :
    c ∈ checkerboard ∧ c ∉ B.shots ∨ checkerboard ⊆ B.shots := by
  rcases aiGuessSmart_hunts ((turnGuess_smart smart).symm.trans guess) hunts with found | none
  · obtain ⟨x, at_x, colour, empty⟩ := huntCell_some found
    cases Cell.coord_injective (at_c.symm.trans at_x)
    exact .inl ⟨colour, (h.couples.water c).mp empty⟩
  · exact .inr (h.taken none)

theorem Searching.step {t : Turn} {s' : Search} (hstep : s.step fuel t = some s') :
    ∃ B', Searching s' B' := by
  obtain ⟨m', step, rfl⟩ := Option.map_eq_some_iff.mp hstep
  obtain ⟨g, c, e, turn⟩ := turn_fires h.represents step
  have fresh : c ∉ B.shots := by
    obtain ⟨x, at_x, empty⟩ := engineGetGuess_inside h.aimed h.couples.noShip turn.guess
      ⟨c, turn.aimed.symm⟩
    cases Cell.coord_injective (turn.aimed.symm.trans at_x)
    exact (h.couples.water c).mp empty
  have tracker : g.2.1.Aimed := by
    rcases engineGetGuess_tracker h.aimed turn.guess with kept | reset
    · exact kept ▸ h.aimed
    · exact reset ▸ aiResetSmart_aimed
  obtain ⟨ai, updated, couples, aims⟩ := engineUpdate_couples h.couples tracker fresh
  obtain ⟨tracked, recorded⟩ := engineUpdate_parts updated
  rw [← turn.fires.result] at tracked recorded
  refine ⟨B.fire c, ?_, ?_, ?_, fun b used => ?_, ?_⟩
  · rw [turn.player]
    exact turn.fires.represents
  · rw [← Option.some.inj (recorded.symm.trans turn.board)]
    exact couples
  · rw [← Option.some.inj (tracked.symm.trans turn.tracker)]
    exact aims
  · simp only [turn.player] at used ⊢
    exact turn.fires.sameFleet.straight (h.straight b (turn.fires.sameFleet.count ▸ used))
  · show Swept checkerboard (insert c B.shots) _
    cases hunt : hunted fuel s.mem t with
    | false => exact h.swept.take c
    | true =>
        simp only [hunted, turn.guess, Bool.and_eq_true, decide_eq_true_eq] at hunt
        exact h.swept.sweep (h.hunt hunt.1 turn.guess hunt.2 turn.aimed)

/-- Once the colour is taken every ship of two cells has been hit. -/
theorem Searching.found (taken : checkerboard ⊆ B.shots) {b : Fin maxShips}
    (used : b.val < s.mem.game.player.boatCount)
    (long : 2 ≤ (s.mem.game.player.boats b).length) : s.mem.game.player.Found b := by
  obtain ⟨c, inside, colour⟩ := (h.straight b used).coloured (h.represents.sound b used) long
  have own : c ∈ B.ships b := by rwa [h.represents.ships_of_lt used]
  refine ⟨c, inside, ?_⟩
  rw [h.represents.board c, B.mark_of_mem own, if_pos (taken colour)]
  split
  · exact .inr rfl
  · exact .inl rfl

end Turn

/-- As soon as thirteen turns have hunted, or one turn hunts off the checkerboard, every
ship of two cells or more has been hit, whatever the difficulty of the other turns. -/
theorem hunt_finds {fuel : Nat} {s : Search}
    (h : Reaches (Search.step fuel) (fun _ _ => True) Search.Start s) {b : Fin maxShips}
    (used : b.val < s.mem.game.player.boatCount)
    (long : 2 ≤ (s.mem.game.player.boats b).length) :
    (13 ≤ s.hunts → s.mem.game.player.Found b) ∧
      ∀ t g, hunted fuel s.mem t = true → turnGuess fuel s.mem t = .done g →
        (g.1.row + g.1.col) % 2 = 1 → s.mem.game.player.Found b := by
  obtain ⟨B, searching⟩ : ∃ B, Searching s B := by
    apply h.invariant
    · exact fun _ start => start_searching start
    · rintro s t s' ⟨B, searching⟩ - hstep
      exact searching.step hstep
  refine ⟨fun enough => ?_, fun t g hunt guess off => ?_⟩
  · exact searching.found (searching.swept.all (checkerboard_card ▸ enough)) used long
  · simp only [hunted, guess, Bool.and_eq_true, decide_eq_true_eq] at hunt
    have smart := (turnGuess_smart hunt.1).symm.trans guess
    rcases aiGuessSmart_hunts smart hunt.2 with found | none
    · obtain ⟨x, at_x, colour, -⟩ := huntCell_some found
      have even := mem_checkerboard.mp colour
      rw [at_x] at off
      simp only [Cell.coord] at off
      omega
    · exact searching.found (searching.taken none) used long

/-- One ship of two cells, in the corner that is searched last. -/
def cornerPlayer : Player where
  board := ⟨fun row col => if row.val = 4 ∧ 3 ≤ col.val then .ship else .empty, false⟩
  boats := fun _ => ⟨2, fun i => ⟨4, 3 + i.val⟩, 0, true⟩
  boatCount := 1

def cornerSearch : Search := ⟨bootMem.setPlayer cornerPlayer, 0⟩

theorem cornerSearch_start : cornerSearch.Start where
  opening := ⟨by constructor <;> decide +kernel, fun _ => rfl, rfl⟩
  straight _ _ := ⟨4, 3, true, fun _ _ => rfl⟩
  hunts := rfl

theorem hunt_finds_corner : ∃ s : Search, 13 = s.hunts ∧ s.mem.game.player.Found 0 := by
  have run : (runList (Search.step 0) cornerSearch (List.replicate 13 smartTurn)).any
      (fun s => s.hunts = 13 ∧ 0 < s.mem.game.player.boatCount ∧
        2 ≤ (s.mem.game.player.boats 0).length) = true := by decide +kernel
  obtain ⟨s, reached, check⟩ := exists_reaches cornerSearch_start run
  obtain ⟨all, used, long⟩ := of_decide_eq_true check
  exact ⟨s, all.symm, (hunt_finds reached (b := 0) used long).1 all.ge⟩

end Battleship
