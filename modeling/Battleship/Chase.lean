import Battleship.Line
import Mathlib.Tactic.FinCases

/-!
# What the tracker finishes

A ship that touches no other is followed from its first hit: to the end towards
the top or the left, and then once behind the first hit. That is enough for every
ship but one of four cells that was hit first in its second.
-/
namespace Battleship
open Cooperative Runs Salvo

/-- No cell of another ship is next to one of this ship. -/
def Player.Isolated (p : Player) (b : Fin maxShips) : Prop :=
  ∀ b' : Fin maxShips, b'.val < p.boatCount → b' ≠ b →
    ∀ x ∈ (p.boats b).cells, ∀ y ∈ (p.boats b').cells, ¬x.coord.Adjacent y.coord

instance (p : Player) (b : Fin maxShips) : Decidable (p.Isolated b) :=
  inferInstanceAs (Decidable (∀ b' : Fin maxShips, b'.val < p.boatCount → b' ≠ b →
    ∀ x ∈ (p.boats b).cells, ∀ y ∈ (p.boats b').cells, ¬x.coord.Adjacent y.coord))

/-- The ship has been hit and is not sunk. -/
def Player.Wounded (p : Player) (b : Fin maxShips) : Prop :=
  ∃ x ∈ (p.boats b).cells, p.board.cells x.1 x.2 = .hit

instance (p : Player) (b : Fin maxShips) : Decidable (p.Wounded b) :=
  inferInstanceAs (Decidable (∃ x ∈ (p.boats b).cells, p.board.cells x.1 x.2 = .hit))

/-- A new game against straight ships of 4, 3, 2 and 1 cells. -/
structure NewHunt (m : Mem) : Prop extends Opening m where
  count : m.game.player.boatCount = maxShips
  lengths : m.game.player.lengths.Perm shipLengths
  straight : ∀ b, (m.game.player.boats b).Straight

/-- The tracker has turned round on an isolated ship of four: it holds the second
cell, the first and the third. -/
def Stranded (m : Mem) : Prop :=
  ∃ b : Fin maxShips, m.game.player.Isolated b ∧ (m.game.player.boats b).length = 4 ∧
    m.smartAiState.hits.map some = [(m.game.player.boats b).coordAt 1,
      (m.game.player.boats b).coordAt 0, (m.game.player.boats b).coordAt 2]

/-- The tracker hunts no more and holds the hits on this ship, and no others. -/
structure Follows (m : Mem) (b : Fin maxShips) : Prop where
  chasing : m.smartAiState.hunting = false
  hits : ∀ x : Cell, x.coord ∈ m.smartAiState.hits ↔
    x ∈ (m.game.player.boats b).cells ∧ m.game.player.board.cells x.1 x.2 = .hit

/-- The guess of this turn keeps the tracker and is next to one of its hits. -/
def Continues (fuel : Nat) (m : Mem) (t : Turn) : Prop :=
  ∃ g, turnGuess fuel m t = .done g ∧ g.2.1 = m.smartAiState ∧
    ∃ x ∈ m.smartAiState.hits, x.Adjacent g.1

/-- The hits on a ship that lies along `u` from `o`: its first hit; a line from
its first cell on; a line back to it; and the line of two with one cell behind. -/
inductive Chase (o : Coordinate) (u : Int × Int) (n : Nat) : AiState → Prop
  | one (p : Nat) : p < n → Chase o u n ⟨[o.along u p], dirNone, false⟩
  | forth {dir : Int} (k : Nat) : dirStep dir = some u → k + 1 < n →
      Chase o u n ⟨o.line u (k + 2), dir, false⟩
  | back {dir : Int} (p k : Nat) : dirStep dir = some (-u.1, -u.2) → k + 1 ≤ p → p < n →
      Chase o u n ⟨(o.along u p).line (-u.1, -u.2) (k + 2), dir, false⟩
  | turned {dir : Int} : dirStep dir = some (-u.1, -u.2) → n = 4 →
      Chase o u n ⟨[o.along u 1, o.along u 0, o.along u 2], dir, false⟩

/-- A guess that keeps the tracker, next to a hit; if it hits the ship and leaves
a cell of it, the chase is on. -/
def GoesOn (o : Coordinate) (u : Int × Int) (n : Nat) (b : Board) (st : AiState) : Prop :=
  ∃ c, (∀ fuel calls rng, aiGuessSmart b fuel (calls + 1) st rng = .done (c, st, rng)) ∧
    (∃ x ∈ st.hits, x.Adjacent c) ∧
    ∀ j < n, c = o.along u (j : Nat) → (∃ k < n, o.along u (k : Nat) ∉ st.hits ++ [c]) →
      Chase o u n (st.struck c)

theorem chase_hunting {o : Coordinate} {u : Int × Int} {n : Nat} {st : AiState}
    (h : Chase o u n st) : st.hunting = false := by
  cases h <;> rfl

theorem dirStep_inj {dir pos : Int} {d : Int × Int} (h : dirStep dir = some d)
    (h' : dirStep pos = some d) : dir = pos := by
  rcases dirStep_cases h with ⟨rfl, rfl⟩ | ⟨rfl, rfl⟩ | ⟨rfl, rfl⟩ | ⟨rfl, rfl⟩ <;>
    rcases dirStep_cases h' with ⟨rfl, eq⟩ | ⟨rfl, eq⟩ | ⟨rfl, eq⟩ | ⟨rfl, eq⟩ <;>
    first | rfl | cases eq

/-- Two neighbours on one line. -/
theorem along_neighbour {dir pos : Int} {d u : Int × Int} (step : dirStep dir = some d)
    (axis : dirStep pos = some u) {o : Coordinate} {i j : Int}
    (eq : (o.along u i).along d 1 = o.along u j) :
    d = u ∧ j = i + 1 ∨ d = (-u.1, -u.2) ∧ i = j + 1 := by
  simp only [Coordinate.along, Coordinate.mk.injEq] at eq
  rcases dirStep_cases step with ⟨-, rfl⟩ | ⟨-, rfl⟩ | ⟨-, rfl⟩ | ⟨-, rfl⟩ <;>
    rcases dirStep_cases axis with ⟨-, rfl⟩ | ⟨-, rfl⟩ | ⟨-, rfl⟩ | ⟨-, rfl⟩ <;>
    simp at eq ⊢ <;> omega

section Chase
variable {o : Coordinate} {u : Int × Int} {n : Nat} {pos : Int} (axis : dirStep pos = some u)
include axis

theorem mem_line_along {i m : Nat} : o.along u i ∈ o.line u m ↔ i < m := by
  rw [mem_line]
  constructor
  · rintro ⟨j, below, eq⟩
    have same := along_injective axis o eq
    omega
  · exact fun below => ⟨i, below, rfl⟩

theorem mem_line_back {i p m : Nat} :
    o.along u i ∈ (o.along u p).line (-u.1, -u.2) m ↔ i ≤ p ∧ p < i + m := by
  rw [mem_line]
  constructor
  · rintro ⟨j, below, eq⟩
    rw [along_back] at eq
    have same := along_injective axis o eq
    omega
  · intro near
    refine ⟨p - i, by omega, ?_⟩
    rw [along_back]
    congr 1
    omega

variable {b : Board} {st : AiState} (odd : pos % 2 = 1) (chase : Chase o u n st)
  (free : ∀ j < n, o.along u (j : Nat) ∉ st.hits → b.Open (o.along u j))
  (left : ∃ j < n, o.along u (j : Nat) ∉ st.hits)

include odd in
theorem one_goesOn {p : Nat} (inside : p < n)
    (free : ∀ j < n, o.along u (j : Nat) ∉ [o.along u p] → b.Open (o.along u j))
    (left : ∃ j < n, o.along u (j : Nat) ∉ [o.along u p]) :
    GoesOn o u n b ⟨[o.along u p], dirNone, false⟩ := by
  have open_ne : ∀ j < n, j ≠ p → b.Open (o.along u j) := by
    intro j below other
    refine free j below fun same => other ?_
    exact Int.ofNat.inj (along_injective axis o (List.mem_singleton.mp same))
  obtain ⟨j, below, fresh⟩ := left
  have other : j ≠ p := by
    rintro rfl
    exact fresh (List.mem_singleton.mpr rfl)
  cases found : probeCell b (o.along u p) with
  | none =>
      exfalso
      rcases Nat.lt_or_gt_of_ne other with before | after
      · have shut := probeCell_none found (dirStep_reverse axis)
        rw [along_back] at shut
        have free := open_ne (p - 1) (by omega) (by omega)
        rw [Nat.cast_sub (by omega)] at free
        exact shut free
      · have shut := probeCell_none found axis
        rw [along_along] at shut
        exact shut (open_ne (p + 1) (by omega) (by omega))
  | some c =>
      obtain ⟨dir, d, step, rfl, -, behind⟩ := probeCell_some found
      refine ⟨_, fun fuel calls rng => ?_, ⟨_, List.mem_cons_self, dir, d, step, rfl⟩, ?_⟩
      · rw [aiGuessSmart_probe, found]
        rfl
      · intro j below eq _
        rw [struck_second step]
        rcases along_neighbour step axis eq with ⟨rfl, next⟩ | ⟨rfl, next⟩
        · -- the cell before is probed first, so there is none
          have first : p = 0 := by
            by_contra later
            have free := open_ne (p - 1) (by omega) (by omega)
            rw [Nat.cast_sub (by omega)] at free
            refine behind (dirStep_inj step axis ▸ odd) ?_
            rw [along_along]
            exact free
          subst first
          rw [Nat.cast_zero, along_zero]
          exact .forth 0 step (by omega)
        · exact .back p 0 step (by omega) inside

theorem forth_goesOn {k : Nat} {dir : Int} (step : dirStep dir = some u)
    (free : ∀ j < n, o.along u (j : Nat) ∉ o.line u (k + 2) → b.Open (o.along u j))
    (left : ∃ j < n, o.along u (j : Nat) ∉ o.line u (k + 2)) :
    GoesOn o u n b ⟨o.line u (k + 2), dir, false⟩ := by
  obtain ⟨j, below, fresh⟩ := left
  rw [mem_line_along axis] at fresh
  have ahead : b.Open (o.along u (k + 2 : Nat)) :=
    free (k + 2) (by omega) (by rw [mem_line_along axis]; omega)
  have last : (o.line u (k + 2)).getLast? = some (o.along u (k + 1 : Nat)) := line_last o u (k + 1)
  have next : (o.along u (k + 1 : Nat)).along u 1 = o.along u (k + 2 : Nat) := along_along ..
  refine ⟨o.along u (k + 2 : Nat), fun fuel calls rng => ?_,
    ⟨_, List.mem_of_getLast? last, _, _, step, next.symm⟩, fun _ _ _ _ => ?_⟩
  · rw [aiGuessSmart_line b fuel calls rng rfl last (line_head o u (k + 1)) step, next, if_pos ahead]
  · rw [struck_later (by rw [line_length]; omega) rfl, ← line_succ]
    exact .forth (k + 1) step (by omega)

theorem back_goesOn (short : n ≤ 4) {p k : Nat} {dir : Int} (step : dirStep dir = some (-u.1, -u.2))
    (room : k + 1 ≤ p) (inside : p < n)
    (free : ∀ j < n, o.along u (j : Nat) ∉ (o.along u p).line (-u.1, -u.2) (k + 2) →
      b.Open (o.along u j))
    (left : ∃ j < n, o.along u (j : Nat) ∉ (o.along u p).line (-u.1, -u.2) (k + 2)) :
    GoesOn o u n b ⟨(o.along u p).line (-u.1, -u.2) (k + 2), dir, false⟩ := by
  have long : 2 ≤ ((o.along u p).line (-u.1, -u.2) (k + 2)).length := by rw [line_length]; omega
  have last := line_last (o.along u p) (-u.1, -u.2) (k + 1)
  have base := line_head (o.along u p) (-u.1, -u.2) (k + 1)
  have next : ((o.along u p).along (-u.1, -u.2) (k + 1 : Nat)).along (-u.1, -u.2) 1 =
      (o.along u p).along (-u.1, -u.2) (k + 2 : Nat) := along_along ..
  have behind : (o.along u p).along (-u.1, -u.2) (-1) = o.along u (p + 1 : Nat) := along_back ..
  have guess : ∀ fuel calls rng, aiGuessSmart b fuel (calls + 1)
      ⟨(o.along u p).line (-u.1, -u.2) (k + 2), dir, false⟩ rng = _ :=
    fun fuel calls rng => aiGuessSmart_line b fuel calls rng rfl last base step
  rw [next, behind] at guess
  by_cases ahead : b.Open ((o.along u p).along (-u.1, -u.2) (k + 2 : Nat))
  · refine ⟨_, fun fuel calls rng => (guess fuel calls rng).trans (if_pos ahead),
      ⟨_, List.mem_of_getLast? last, _, _, step, next.symm⟩, fun j _ eq _ => ?_⟩
    rw [along_back] at eq
    have at_j := along_injective axis o eq
    rw [struck_later long rfl, ← line_succ]
    exact .back p (k + 1) step (by omega) inside
  · -- the whole front is hit, so the next cell is the one behind the first hit
    have front : p = k + 1 := by
      by_contra more
      refine ahead ?_
      rw [along_back, ← Nat.cast_sub (by omega)]
      exact free _ (by omega) (by rw [mem_line_back axis]; omega)
    obtain ⟨j, below, fresh⟩ := left
    rw [mem_line_back axis] at fresh
    have open_behind : b.Open (o.along u (p + 1 : Nat)) :=
      free (p + 1) (by omega) (by rw [mem_line_back axis]; omega)
    refine ⟨o.along u (p + 1 : Nat), fun fuel calls rng => ?_,
      ⟨_, List.mem_of_head? base, pos, u, axis, ?_⟩, fun _ _ _ left => ?_⟩
    · rw [guess, if_neg ahead, if_pos open_behind]
    · rw [along_along]
      rfl
    · obtain ⟨i, small, unhit⟩ := left
      rw [List.mem_append, mem_line_back axis, List.mem_singleton, not_or] at unhit
      have other : i ≠ p + 1 := fun same => unhit.2 (same ▸ rfl)
      obtain ⟨rfl, rfl, rfl⟩ : p = 1 ∧ k = 0 ∧ n = 4 := by omega
      have grown : (o.along u (1 : Nat)).line (-u.1, -u.2) 2 ++ [o.along u (1 + 1 : Nat)] =
          [o.along u 1, o.along u 0, o.along u 2] := by
        simp [Coordinate.line, List.range_succ, along_back]
      rw [struck_later long rfl, grown]
      exact .turned step rfl

include odd chase free left

/-- A chase goes on unless it has turned round. -/
theorem chase_goesOn (short : n ≤ 4)
    (going : ¬(n = 4 ∧ st.hits = [o.along u 1, o.along u 0, o.along u 2])) :
    GoesOn o u n b st := by
  cases chase with
  | one p inside => exact one_goesOn axis odd inside free left
  | forth k step _ => exact forth_goesOn axis step free left
  | back p k step room inside => exact back_goesOn axis short step room inside free left
  | turned step four => exact absurd ⟨four, rfl⟩ going

end Chase

/-- From the left or from the top. -/
structure Boat.Lies (boat : Boat) (o : Coordinate) (u : Int × Int) : Prop where
  axis : ∃ pos, dirStep pos = some u ∧ pos % 2 = 1
  coords : ∀ i : Fin 5, (i.val : Int) < boat.length → boat.coords i = o.along u i.val

theorem straight_lies {boat : Boat} (h : boat.Straight) : ∃ o u, boat.Lies o u := by
  obtain ⟨row, col, horizontal, coords⟩ := h
  cases horizontal with
  | true =>
      refine ⟨⟨row, col⟩, (0, 1), ⟨dirRight, rfl, rfl⟩, fun i below => ?_⟩
      rw [coords i below]
      simp [shipCell, Coordinate.along]
  | false =>
      refine ⟨⟨row, col⟩, (1, 0), ⟨dirDown, rfl, rfl⟩, fun i below => ?_⟩
      rw [coords i below]
      simp [shipCell, Coordinate.along]

theorem Boat.Lies.mem_cells {boat : Boat} {o : Coordinate} {u : Int × Int} (h : boat.Lies o u)
    (small : boat.length ≤ 5) {x : Cell} :
    x ∈ boat.cells ↔ ∃ j < boat.length.toNat, x.coord = o.along u (j : Nat) := by
  rw [Boat.mem_cells]
  constructor
  · rintro ⟨i, below, eq⟩
    exact ⟨i.val, by omega, eq.symm.trans (h.coords i below)⟩
  · rintro ⟨j, below, eq⟩
    have below : (j : Int) < boat.length := by omega
    exact ⟨⟨j, by omega⟩, below, (h.coords ⟨j, by omega⟩ below).trans eq.symm⟩

theorem Boat.Lies.coordAt {boat : Boat} {o : Coordinate} {u : Int × Int} (h : boat.Lies o u)
    {i : Nat} (small : i < 5) (below : (i : Int) < boat.length) :
    boat.coordAt i = some (o.along u i) := by
  rw [Boat.coordAt, dif_pos small, h.coords ⟨i, small⟩ below]

/-- Its second cell, its first and its third. -/
theorem Boat.Lies.turned {boat : Boat} {o : Coordinate} {u : Int × Int} (h : boat.Lies o u)
    (length : boat.length = 4) {hits : List Coordinate} :
    hits.map some = [boat.coordAt 1, boat.coordAt 0, boat.coordAt 2] ↔
      hits = [o.along u 1, o.along u 0, o.along u 2] := by
  rw [h.coordAt (by omega) (by omega), h.coordAt (by omega) (by omega),
    h.coordAt (by omega) (by omega)]
  exact (List.map_injective_iff.mpr (Option.some_injective _)).eq_iff
    (b := [o.along u 1, o.along u 0, o.along u 2])

theorem Player.SameFleet.lies {p p' : Player} (h : p.SameFleet p') {b : Fin maxShips}
    {o : Coordinate} {u : Int × Int} (lies : (p.boats b).Lies o u) : (p'.boats b).Lies o u := by
  refine ⟨lies.axis, fun i below => ?_⟩
  rw [h.length] at below
  rw [h.coords]
  exact lies.coords i below

/-- The ship is chased: the tracker holds the cells of it that were shot at. -/
structure Chased (p : Player) (B : Battle (Fin maxShips) Cell) (st : AiState) (b : Fin maxShips) :
    Prop where
  stage : ∃ o u, (p.boats b).Lies o u ∧ Chase o u (p.boats b).length.toNat st
  hits : ∀ x : Cell, x.coord ∈ st.hits ↔ x ∈ B.ships b ∧ x ∈ B.shots

/-- What turns at SMART keep. -/
structure Hunting (m : Mem) (B : Battle (Fin maxShips) Cell) : Prop where
  fleet : m.game.player.FullFleet B
  straight : ∀ b, (m.game.player.boats b).Straight
  couples : Couples m.aiGuessBoard B
  lined : m.smartAiState.Lined
  marks : Marks m.aiGuessBoard m.smartAiState
  tracked : Tracked m.game.player m.smartAiState
  chased : ∀ b, m.game.player.Isolated b → (∃ x ∈ B.ships b, x ∈ B.shots) → ¬B.Sunk b →
    Chased m.game.player B m.smartAiState b

namespace Player.FullFleet
variable {p : Player} {B : Battle (Fin maxShips) Cell} (full : p.FullFleet B) {b : Fin maxShips}
include full

theorem length_le : (p.boats b).length ≤ 4 := by
  have listed := full.length_mem b
  simp only [shipLengths, List.mem_cons, List.not_mem_nil, or_false] at listed
  omega

theorem mem_ships {o : Coordinate} {u : Int × Int} (lies : (p.boats b).Lies o u) {x : Cell} :
    x ∈ B.ships b ↔ ∃ j < (p.boats b).length.toNat, x.coord = o.along u (j : Nat) := by
  have small := full.length_le (b := b)
  rw [full.cells, lies.mem_cells (by omega)]

theorem cell_along {o : Coordinate} {u : Int × Int} (lies : (p.boats b).Lies o u) {j : Nat}
    (below : j < (p.boats b).length.toNat) : ∃ x ∈ B.ships b, x.coord = o.along u (j : Nat) := by
  have small := full.length_le (b := b)
  have short : (j : Int) < (p.boats b).length := by omega
  obtain ⟨x, at_x⟩ := (full.represents.sound b (full.used b)).inGrid ⟨j, by omega⟩ short
  rw [lies.coords ⟨j, by omega⟩ short] at at_x
  exact ⟨x, (full.mem_ships lies).mpr ⟨j, below, at_x⟩, at_x⟩

/-- No neighbour of an isolated ship belongs to another. -/
theorem owner_of_adjacent (isolated : p.Isolated b) {x c : Cell} (inside : x ∈ B.ships b)
    (near : x.coord.Adjacent c.coord) {b' : Fin maxShips} (owner : c ∈ B.ships b') : b' = b := by
  by_contra other
  rw [full.cells] at inside owner
  exact isolated b' (full.used b') other x inside c owner near

end Player.FullFleet

section Stage
variable {m : Mem} {B : Battle (Fin maxShips) Cell} (h : Hunting m B) {b : Fin maxShips}
  (chased : Chased m.game.player B m.smartAiState b) (afloat : ¬B.Sunk b)
include h chased afloat

/-- A ship that is chased is chased on, unless the tracker is stranded on it. -/
theorem chased_goesOn : ∃ o u, (m.game.player.boats b).Lies o u ∧
    Chase o u (m.game.player.boats b).length.toNat m.smartAiState ∧
    (¬((m.game.player.boats b).length = 4 ∧
        m.smartAiState.hits = [o.along u 1, o.along u 0, o.along u 2]) →
      GoesOn o u (m.game.player.boats b).length.toNat m.aiGuessBoard m.smartAiState) := by
  obtain ⟨o, u, lies, chase⟩ := chased.stage
  refine ⟨o, u, lies, chase, fun going => ?_⟩
  have short := h.fleet.length_le (b := b)
  obtain ⟨pos, axis, odd⟩ := lies.axis
  refine chase_goesOn axis odd chase ?_ ?_ (by omega) fun turned => going ⟨by omega, turned.2⟩
  · intro j below fresh
    obtain ⟨x, own, at_x⟩ := h.fleet.cell_along lies below
    refine ⟨x, at_x.symm, (h.couples.water x).mpr fun shot => fresh ?_⟩
    rw [← at_x]
    exact (chased.hits x).mpr ⟨own, shot⟩
  · obtain ⟨x, inside, unhit⟩ := Finset.not_subset.mp afloat
    obtain ⟨j, below, at_x⟩ := (h.fleet.mem_ships lies).mp inside
    refine ⟨j, below, fun hit => unhit ?_⟩
    rw [← at_x] at hit
    exact ((chased.hits x).mp hit).2

end Stage

section Turn
variable {fuel : Nat} {m m' : Mem} {t : Turn} {B : Battle (Fin maxShips) Cell}
  {g : Coordinate × AiState × Rng} {c : Cell} {e : Player × GuessResult × Option Nat}
  (h : Hunting m B) (smart : t.difficulty = difficultySmart)
  (turn : TurnFires fuel m t B m' g c e)
include h smart turn

omit h in
theorem turn_guess : aiGuessSmart m.aiGuessBoard fuel 1 m.smartAiState t.rng = .done g :=
  (turnGuess_smart smart).symm.trans turn.guess

theorem turn_fresh : c ∉ B.shots := by
  obtain ⟨c', at_c, free⟩ := smart_open h.lined (turn_guess smart turn)
  cases Cell.coord_injective (turn.aimed.symm.trans at_c)
  exact (h.couples.water c).mp free

theorem turn_couples : Couples m'.aiGuessBoard (B.fire c) := by
  obtain ⟨ai, updated, couples, -⟩ :=
    engineUpdate_couples h.couples (lined_aimed h.lined) (turn_fresh h smart turn)
  have recorded := (engineUpdate_parts updated).2
  rw [← turn.fires.result] at recorded
  rw [← Option.some.inj (recorded.symm.trans turn.board)]
  exact couples

/-- A shot at this ship that does not sink it is a hit. -/
theorem turn_struck {b : Fin maxShips} (inside : c ∈ B.ships b) (afloat : ¬(B.fire c).Sunk b) :
    m'.smartAiState = g.2.1.struck c.coord := by
  have verdict : B.verdict c = .hit := by
    rw [B.verdict_of_mem (turn_fresh h smart turn) inside, if_neg afloat]
  have updated := turn.tracker
  rw [turn.result verdict] at updated
  exact (Option.some.inj updated).symm

theorem turn_missed (water : ∀ b, c ∉ B.ships b) : m'.smartAiState = g.2.1 := by
  have updated := turn.tracker
  rw [turn.result (B.verdict_miss (turn_fresh h smart turn) water)] at updated
  exact (Option.some.inj updated).symm

theorem turn_tracked : Tracked m.game.player g.2.1 := by
  rcases (lined_guess h.lined h.marks.not_open (turn_guess smart turn)).1 with
    reset | ⟨same, -⟩
  · exact reset ▸ reset_tracked _
  · exact same ▸ h.tracked

variable {b : Fin maxShips} (isolated : m.game.player.Isolated b)
  (afloat : ¬(B.fire c).Sunk b)
include isolated afloat

/-- The tracker is not stranded, so it stays on the ship it is on. -/
theorem turn_chasedOn (ok : ¬Stranded m)
    (chased : Chased m.game.player B m.smartAiState b) :
    Chased m'.game.player (B.fire c) m'.smartAiState b := by
  have floats : ¬B.Sunk b := fun sunk => afloat (Battle.Sunk.fire B sunk c)
  obtain ⟨o, u, lies, chase, going⟩ := chased_goesOn h chased floats
  obtain ⟨c', done, ⟨x, hx, near⟩, next⟩ := going fun turned => ok
    ⟨b, isolated, turned.1, (lies.turned turned.1).mpr turned.2⟩
  cases (done fuel 0 t.rng).symm.trans (turn_guess smart turn)
  have at_c := turn.aimed
  simp only at at_c
  subst at_c
  have fleet := turn.fires.sameFleet
  have lies' : (m'.game.player.boats b).Lies o u := turn.player ▸ fleet.lies lies
  have length : (m'.game.player.boats b).length = (m.game.player.boats b).length := by
    rw [turn.player, fleet.length]
  by_cases inside : c ∈ B.ships b
  · have grown := turn_struck h smart turn inside afloat
    have hits : ∀ x : Cell, x.coord ∈ m.smartAiState.hits ++ [c.coord] ↔
        x ∈ (B.fire c).ships b ∧ x ∈ (B.fire c).shots := by
      intro x
      rw [List.mem_append, List.mem_singleton, Cell.coord_injective.eq_iff, chased.hits x,
        B.fire_ships, B.fire_shots, Finset.mem_insert]
      constructor
      · rintro (⟨own, shot⟩ | rfl)
        · exact ⟨own, .inr shot⟩
        · exact ⟨inside, .inl rfl⟩
      · rintro ⟨own, rfl | shot⟩
        · exact .inr rfl
        · exact .inl ⟨own, shot⟩
    refine ⟨⟨o, u, lies', ?_⟩, ?_⟩
    · rw [grown, length]
      obtain ⟨j, below, at_j⟩ := (h.fleet.mem_ships lies).mp inside
      refine next j below at_j ?_
      obtain ⟨x, own, unhit⟩ := Finset.not_subset.mp afloat
      obtain ⟨k, short, at_k⟩ := (h.fleet.mem_ships lies).mp own
      refine ⟨k, short, fun hit => unhit ?_⟩
      rw [← at_k] at hit
      exact ((hits x).mp hit).2
    · rw [grown]
      exact hits
  · have water : ∀ b', c ∉ B.ships b' := by
      intro b' owner
      obtain ⟨y, rfl, -⟩ := h.tracked.marked x hx
      have same := h.fleet.owner_of_adjacent isolated ((chased.hits y).mp hx).1 near owner
      exact inside (same ▸ owner)
    have kept := turn_missed h smart turn water
    refine ⟨⟨o, u, lies', by rw [kept, length]; exact chase⟩, fun x => ?_⟩
    rw [kept, chased.hits x, B.fire_ships, B.fire_shots, Finset.mem_insert]
    refine and_congr_right fun own => ⟨.inr, fun shot => shot.resolve_left ?_⟩
    rintro rfl
    exact inside own

/-- The first hit on an isolated ship finds the tracker without hits. -/
theorem turn_chasedFirst (untouched : ∀ x ∈ B.ships b, x ∉ B.shots) (inside : c ∈ B.ships b) :
    Chased m'.game.player (B.fire c) m'.smartAiState b := by
  have fleet := turn.fires.sameFleet
  have fresh : g.2.1 = aiResetSmart := by
    rcases (lined_guess h.lined h.marks.not_open (turn_guess smart turn)).1 with
      reset | ⟨same, x, hx, near⟩
    · exact reset
    · -- a hit of the tracker is on a ship next to this one
      exfalso
      obtain ⟨y, rfl, hit⟩ := h.tracked.marked x hx
      have wound := B.mark_eq_hit.mp (B.mem_wounds.mp ((hit_iff_wound h.fleet).mp hit))
      obtain ⟨shot, b', owner, -⟩ := wound
      rw [turn.aimed] at near
      have same := h.fleet.owner_of_adjacent isolated inside (adjacent_symm near) owner
      exact untouched y (same ▸ owner) shot
  have grown := turn_struck h smart turn inside afloat
  rw [fresh] at grown
  obtain ⟨o, u, lies⟩ := straight_lies (h.straight b)
  obtain ⟨j, below, at_j⟩ := (h.fleet.mem_ships lies).mp inside
  refine ⟨⟨o, u, turn.player ▸ fleet.lies lies, ?_⟩, fun x => ?_⟩
  · rw [grown, turn.player, fleet.length, at_j]
    exact .one j below
  · have hits : x.coord ∈ m'.smartAiState.hits ↔ x = c := by
      rw [grown]
      exact List.mem_singleton.trans Cell.coord_injective.eq_iff
    rw [hits, B.fire_ships, B.fire_shots, Finset.mem_insert]
    constructor
    · rintro rfl
      exact ⟨inside, .inl rfl⟩
    · rintro ⟨own, rfl | shot⟩
      · rfl
      · exact absurd shot (untouched x own)

end Turn

theorem turn_hunting {fuel : Nat} {m m' : Mem} {t : Turn} {B : Battle (Fin maxShips) Cell}
    (h : Hunting m B) (smart : t.difficulty = difficultySmart) (ok : ¬Stranded m)
    (step : turnStep fuel m t = some m') : ∃ B', Hunting m' B' := by
  obtain ⟨g, c, e, turn⟩ := turn_fires h.fleet.represents step
  obtain ⟨lined, marks⟩ := turn_lined smart h.lined h.marks step
  have fleet := turn.fires.sameFleet
  refine ⟨B.fire c, turn.player ▸ guessCell_fullFleet h.fleet turn.fires,
    fun b => turn.player ▸ fleet.straight (h.straight b),
    turn_couples h smart turn, lined, marks,
    (turn.tracked h.fleet (turn_tracked h smart turn)).1, fun b isolated hit afloat => ?_⟩
  have isolated : m.game.player.Isolated b := by
    intro b' used other x hx y hy
    rw [turn.player] at isolated
    exact isolated b' (fleet.count ▸ used) other x (fleet.cells b ▸ hx) y (fleet.cells b' ▸ hy)
  by_cases before : ∃ x ∈ B.ships b, x ∈ B.shots
  · exact turn_chasedOn h smart turn isolated afloat ok
      (h.chased b isolated before fun sunk => afloat (Battle.Sunk.fire B sunk c))
  · have untouched : ∀ x ∈ B.ships b, x ∉ B.shots := fun x own shot => before ⟨x, own, shot⟩
    obtain ⟨x, own, shot⟩ := hit
    refine turn_chasedFirst h smart turn isolated afloat untouched ?_
    rcases Finset.mem_insert.mp shot with rfl | old
    · exact own
    · exact absurd old (untouched x own)

theorem newHunt_hunting {m : Mem} (h : NewHunt m) : ∃ B, Hunting m B := by
  obtain ⟨B, represents, unshot⟩ := h.fleet.represents
  refine ⟨B, ⟨represents, h.count, h.lengths⟩, h.straight, couples_start h.guessBoard unshot,
    ?_, ?_, ?_, ?_⟩
  · rw [h.tracker]
    exact .hunt
  · rw [h.tracker]
    exact fun x hx => absurd hx List.not_mem_nil
  · rw [h.tracker]
    exact reset_tracked _
  · rintro b - ⟨x, -, shot⟩
    rw [unshot] at shot
    exact absurd shot (Finset.notMem_empty x)

theorem reaches_hunting {fuel : Nat} {m : Mem}
    (h : Reaches (turnStep fuel) (fun m t => t.difficulty = difficultySmart ∧ ¬Stranded m) NewHunt m) :
    ∃ B, Hunting m B :=
  h.invariant (I := fun m => ∃ B, Hunting m B) (fun _ => newHunt_hunting)
    fun _ _ _ before ok step => before.elim fun _ hunting => turn_hunting hunting ok.1 ok.2 step

section Reached
variable {m : Mem} {B : Battle (Fin maxShips) Cell} (h : Hunting m B) {b : Fin maxShips}
include h

theorem wounded_iff {x : Cell} (own : x ∈ B.ships b) (afloat : ¬B.Sunk b) :
    m.game.player.board.cells x.1 x.2 = .hit ↔ x ∈ B.shots := by
  rw [hit_iff_wound h.fleet, B.mem_wounds, B.mark_eq_hit]
  exact ⟨And.left, fun shot => ⟨shot, b, own, afloat⟩⟩

/-- A stranded tracker is reset by the next guess. -/
theorem stranded_resets (stranded : Stranded m) {fuel : Nat} {rng : Rng}
    {g : Coordinate × AiState × Rng}
    (done : aiGuessSmart m.aiGuessBoard fuel 1 m.smartAiState rng = .done g) :
    g.2.1 ≠ m.smartAiState := by
  obtain ⟨b, -, length, hits⟩ := stranded
  obtain ⟨o, u, lies⟩ := straight_lies (h.straight b)
  rw [lies.turned length] at hits
  have line := lined_oneLine h.lined h.marks
  have step : dirStep m.smartAiState.targetDir = some (-u.1, -u.2) := by
    rw [line.directed _ _ _ hits]
    simp [Coordinate.along]
  have chasing : m.smartAiState.hunting = false := by
    rw [← Bool.not_eq_true, line.hunting, AiState.hitCount, hits]
    simp
  have ends : m.smartAiState.hits.getLast? = some (o.along u 2) := by
    rw [hits]
    rfl
  have starts : m.smartAiState.hits.head? = some (o.along u 1) := by
    rw [hits]
    rfl
  rw [aiGuessSmart_line _ fuel 0 rng chasing ends starts step, if_neg, if_neg] at done
  · rw [aiGuessSmart_reset done]
    intro same
    rw [← same] at hits
    cases hits
  · rw [along_back]
    exact h.marks.not_open _ (hits ▸ by simp)
  · rw [along_back]
    exact h.marks.not_open _ (hits ▸ by simp)

/-- The hits of a stranded tracker are on the ship it is on. -/
theorem stranded_iff (chased : Chased m.game.player B m.smartAiState b) {o : Coordinate}
    {u : Int × Int} (lies : (m.game.player.boats b).Lies o u)
    (isolated : m.game.player.Isolated b) : Stranded m ↔ (m.game.player.boats b).length = 4 ∧
      m.smartAiState.hits = [o.along u 1, o.along u 0, o.along u 2] := by
  constructor
  · rintro ⟨b', isolated', length, hits⟩
    obtain ⟨o', u', lies'⟩ := straight_lies (h.straight b')
    have hits' := (lies'.turned length).mp hits
    obtain ⟨x, own', at_x⟩ := h.fleet.cell_along lies' (j := 1) (by omega)
    have own : x ∈ B.ships b := by
      refine ((chased.hits x).mp ?_).1
      rw [hits', at_x]
      exact List.mem_cons_self
    cases B.owner_unique own own'
    exact ⟨length, (lies.turned length).mp hits⟩
  · rintro ⟨length, hits⟩
    exact ⟨b, isolated, length, (lies.turned length).mpr hits⟩

end Reached

/-- Turns at SMART from the start of a game, none of them with a stranded tracker:
an isolated ship that is hit and not sunk has the tracker to itself, and the next
guess goes on from its hits exactly when the tracker is not stranded. -/
theorem smart_finishes {fuel : Nat} {m : Mem}
    (h : Reaches (turnStep fuel) (fun m t => t.difficulty = difficultySmart ∧ ¬Stranded m) NewHunt m)
    {b : Fin maxShips} (isolated : m.game.player.Isolated b) (wounded : m.game.player.Wounded b) :
    Follows m b ∧
      ∀ t, t.difficulty = difficultySmart → (Continues fuel m t ↔ ¬Stranded m) := by
  obtain ⟨B, hunting⟩ := reaches_hunting h
  obtain ⟨x, own, hit⟩ := wounded
  rw [← hunting.fleet.cells] at own
  obtain ⟨shot, b', own', afloat⟩ :=
    B.mark_eq_hit.mp (B.mem_wounds.mp ((hit_iff_wound hunting.fleet).mp hit))
  cases B.owner_unique own own'
  have chased := hunting.chased b isolated ⟨x, own, shot⟩ afloat
  obtain ⟨o, u, lies, stage, going⟩ := chased_goesOn hunting chased afloat
  refine ⟨⟨?_, fun y => ?_⟩, fun t smart => ⟨?_, fun ok => ?_⟩⟩
  · exact chase_hunting stage
  · rw [chased.hits y, hunting.fleet.cells]
    refine and_congr_right fun inside => ?_
    rw [← hunting.fleet.cells] at inside
    exact (wounded_iff hunting inside afloat).symm
  · rintro ⟨g, done, kept, -⟩ stranded
    rw [turnGuess_smart smart] at done
    exact stranded_resets hunting stranded done kept
  · rw [stranded_iff hunting chased lies isolated] at ok
    obtain ⟨c, done, near, -⟩ := going ok
    exact ⟨_, (turnGuess_smart smart).trans (done fuel 0 t.rng), rfl, near⟩

/-- A ship of four in a column, and the others two columns away. -/
def columnPlayer : Player where
  board := ⟨fun row col => if col.val = 1 ∧ row.val < 4 ∨ col.val = 3 ∧ 2 ≤ row.val ∨
    col.val = 4 ∧ 2 ≤ row.val then .ship else .empty, false⟩
  boats := ![
    ⟨4, fun i => ⟨i.val, 1⟩, 0, false⟩,
    ⟨3, fun i => ⟨2 + i.val, 4⟩, 0, false⟩,
    ⟨2, fun i => ⟨2 + i.val, 3⟩, 0, false⟩,
    ⟨1, fun i => ⟨4 + i.val, 3⟩, 0, false⟩]
  boatCount := maxShips

def columnMem : Mem := bootMem.setPlayer columnPlayer

theorem columnMem_newHunt : NewHunt columnMem := by
  refine ⟨⟨⟨?_, ?_, ?_, ?_, ?_, ?_⟩, fun _ => rfl, rfl⟩, rfl, ?_, fun b => ?_⟩
  · decide
  · decide +kernel
  · decide +kernel
  · decide
  · decide +kernel
  · decide +kernel
  · decide
  · fin_cases b
    · exact ⟨0, 1, false, by decide⟩
    · exact ⟨2, 4, false, by decide⟩
    · exact ⟨2, 3, false, by decide⟩
    · exact ⟨4, 3, false, by decide⟩

/-- A turn at SMART whose random source is not asked. -/
def smartTurn : Turn := ⟨difficultySmart, ⟨fun _ => 0, 0⟩⟩

theorem stranded_length {m : Mem} (h : Stranded m) : m.smartAiState.hits.length = 3 := by
  obtain ⟨b, -, -, hits⟩ := h
  simpa using congrArg List.length hits

/-- After its first hit on the ship of four. -/
theorem smart_finishes_column : ∃ m, m.smartAiState.hits = [⟨1, 1⟩] ∧ Follows m 0 := by
  have ok : Meets (turnStep 1) (fun m t => t.difficulty = difficultySmart ∧
      m.smartAiState.hits.length ≠ 3) columnMem (List.replicate 4 smartTurn) := by decide +kernel
  have run : (runList (turnStep 1) columnMem (List.replicate 4 smartTurn)).any
      (fun m => m.smartAiState.hits = [⟨1, 1⟩] ∧ m.game.player.Isolated 0 ∧
        m.game.player.Wounded 0) = true := by decide +kernel
  obtain ⟨m, reached, shown⟩ := exists_reaches_of_meets columnMem_newHunt ok run
  obtain ⟨hits, isolated, wounded⟩ := of_decide_eq_true shown
  exact ⟨m, hits, (smart_finishes (reached.imp fun m t meets =>
    ⟨meets.1, fun stranded => meets.2 (stranded_length stranded)⟩) isolated wounded).1⟩

/-- The ship of four was hit in its second cell first. The tracker has been reset
before the last of its cells. -/
theorem four_cells_left : ∃ m,
    Reaches (turnStep 1) (fun _ t => t.difficulty = difficultySmart) NewHunt m ∧
    m.game.player.Isolated 0 ∧ m.game.player.Wounded 0 ∧ m.smartAiState = aiResetSmart := by
  have ok : Meets (turnStep 1) (fun _ t => t.difficulty = difficultySmart) columnMem
      (List.replicate 7 smartTurn) := by decide +kernel
  have run : (runList (turnStep 1) columnMem (List.replicate 7 smartTurn)).any
      (fun m => m.game.player.Isolated 0 ∧ m.game.player.Wounded 0 ∧
        m.smartAiState = aiResetSmart) = true := by decide +kernel
  obtain ⟨m, reached, shown⟩ := exists_reaches_of_meets columnMem_newHunt ok run
  exact ⟨m, reached, of_decide_eq_true shown⟩

end Battleship
