import Battleship.Fleet
import Battleship.HeatMap
import Battleship.Picture

/-!
# The lights of a rendered board

A cleared bit lights a channel of its cell. What a board lights is compared
with the colours that its cells are named by.
-/
namespace Battleship

inductive Channel where
  | red
  | green
  | blue
  deriving DecidableEq, Repr

namespace Channel

def color : Channel → Color
  | red => .red
  | green => .green
  | blue => .blue

/-- The bit of a channel, of the red, the green and the blue one. -/
def pick {α : Type} (bits : α × α × α) : Channel → α
  | red => bits.1
  | green => bits.2.1
  | blue => bits.2.2

end Channel

def Leds.code (leds : Leds) (m : MatrixId) (c : Cell) : Bool × Bool × Bool :=
  cellCode m ((leds.matrix m).get c.1) c.2

/-- The channel of the cell is on: its bit is cleared. -/
def Leds.Lit (leds : Leds) (m : MatrixId) (c : Cell) (ch : Channel) : Prop :=
  ((leds.matrix m).get c.1).getLsbD (c.2.val * 3 + ch.pick m.channels) = false

instance (leds : Leds) (m : MatrixId) (c : Cell) (ch : Channel) : Decidable (leds.Lit m c ch) :=
  inferInstanceAs (Decidable (_ = _))

theorem lit_iff (leds : Leds) (m : MatrixId) (c : Cell) (ch : Channel) :
    leds.Lit m c ch ↔ ch.pick (leds.code m c) = false := by
  cases ch <;> rfl

/-- The three colours that light one channel each. -/
theorem pick_code_color (ch ch' : Channel) : ch'.pick ch.color.code = false ↔ ch' = ch := by
  cases ch <;> cases ch' <;> decide

/-- The channels that the state of a cell names. -/
def namedLights (revealShips : Bool) : CellState → List Channel
  | .ship => if revealShips then [.green, .blue] else [.blue]
  | .sunk => [.red]
  | .hit => [.red]
  | .miss => [.green]
  | .empty => [.blue]

/-- After a rendering the cells light what their states name, and the other
matrix is as it was. -/
structure RendersNamed (leds : Leds) (b : Board) (matrixNum : Nat) (revealShips : Bool) :
    Prop where
  lights : ∀ (c : Cell) (ch : Channel),
    (renderBoardToMatrix leds b matrixNum revealShips).Lit (.ofNum matrixNum) c ch ↔
      ch ∈ namedLights revealShips (b.cells c.1 c.2)
  other : ∀ m, m ≠ .ofNum matrixNum →
    (renderBoardToMatrix leds b matrixNum revealShips).matrix m = leds.matrix m

/-- Cells of a list, each painted in its own colour. -/
def paintCells (leds : Leds) (n : Nat) (colorOf : Cell → Color) (cells : List Cell) : Leds :=
  cells.foldl (fun leds c => setLEDColor leds n c.1.val c.2.val (colorOf c)) leds

theorem renderBoardToMatrix_eq (leds : Leds) (b : Board) (n : Nat) (revealShips : Bool) :
    renderBoardToMatrix leds b n revealShips =
      paintCells leds n (fun c => cellColor revealShips (b.cells c.1 c.2)) allCells := by
  simp only [renderBoardToMatrix, paintCells, allCells, List.foldl_flatMap, List.foldl_map]

theorem paintCells_code (leds : Leds) (n : Nat) (colorOf : Cell → Color) (cells : List Cell)
    (c : Cell) : (paintCells leds n colorOf cells).code (.ofNum n) c =
      if c ∈ cells then (colorOf c).code else leds.code (.ofNum n) c := by
  induction cells using List.reverseRecOn with
  | nil => simp [paintCells]
  | append_singleton cells last ih =>
      -- whatever a cell was painted before, the last painting is its own colour
      rw [paintCells, List.foldl_append, List.foldl_cons, List.foldl_nil, Leds.code,
        setLEDColor_code]
      by_cases here : c = last
      · simp [here]
      · have apart : ¬(c.1 = last.1 ∧ c.2 = last.2) := fun same => here (Prod.ext same.1 same.2)
        rw [if_neg (fun both => apart both.2)]
        simp only [List.mem_append, List.mem_singleton, here, or_false]
        exact ih

theorem paintCells_other (leds : Leds) (n : Nat) (colorOf : Cell → Color) (cells : List Cell)
    {m : MatrixId} (h : m ≠ .ofNum n) :
    (paintCells leds n colorOf cells).matrix m = leds.matrix m := by
  induction cells using List.reverseRecOn with
  | nil => rfl
  | append_singleton cells last ih =>
      rw [paintCells, List.foldl_append, List.foldl_cons, List.foldl_nil, setLEDColor_matrix,
        if_neg h]
      exact ih

/-- What a rendering leaves in the bits of every cell of its matrix. -/
theorem render_code (leds : Leds) (b : Board) (n : Nat) (revealShips : Bool) (c : Cell) :
    (renderBoardToMatrix leds b n revealShips).code (.ofNum n) c =
      (cellColor revealShips (b.cells c.1 c.2)).code := by
  rw [renderBoardToMatrix_eq, paintCells_code, if_pos (mem_allCells c)]

theorem render_other (leds : Leds) (b : Board) (n : Nat) (revealShips : Bool) {m : MatrixId}
    (h : m ≠ .ofNum n) :
    (renderBoardToMatrix leds b n revealShips).matrix m = leds.matrix m := by
  rw [renderBoardToMatrix_eq, paintCells_other leds n _ allCells h]

/-- `COLOR_CYAN` is painted red and green, and it alone is not what it is named. -/
theorem named_iff (revealShips : Bool) (s : CellState) :
    (∀ ch : Channel, ch.pick (cellColor revealShips s).code = false ↔
      ch ∈ namedLights revealShips s) ↔ ¬(revealShips = true ∧ s = .ship) := by
  constructor
  · rintro lights ⟨rfl, rfl⟩
    have red : Channel.red ∈ namedLights true .ship := (lights .red).mp rfl
    simp [namedLights] at red
  · rintro plain ch
    cases s with
    | ship =>
        cases revealShips with
        | false => cases ch <;> decide
        | true => exact absurd ⟨rfl, rfl⟩ plain
    | _ => cases ch <;> simp [Channel.pick, cellColor, Color.code, namedLights]

/-- The channels are the bits that the three plain colours clear, and a board is
rendered in its named colours exactly when it shows no ship. -/
theorem render_lights (leds : Leds) (b : Board) (matrixNum : Nat) (revealShips : Bool) :
    (∀ (c : Cell) (ch ch' : Channel),
      (setLEDColor leds matrixNum c.1.val c.2.val ch.color).Lit (.ofNum matrixNum) c ch' ↔
        ch' = ch) ∧
    (RendersNamed leds b matrixNum revealShips ↔
      ¬(revealShips = true ∧ ∃ c : Cell, b.cells c.1 c.2 = .ship)) := by
  constructor
  · intro c ch ch'
    rw [lit_iff, Leds.code, setLEDColor_code, if_pos ⟨rfl, rfl, rfl⟩]
    exact pick_code_color ch ch'
  · constructor
    · rintro named ⟨reveal, c, ship⟩
      refine (named_iff revealShips (b.cells c.1 c.2)).mp (fun ch => ?_) ⟨reveal, ship⟩
      rw [← named.lights c ch, lit_iff, render_code]
    · intro hidden
      refine ⟨fun c ch => ?_, fun m other => render_other leds b matrixNum revealShips other⟩
      have plain : ¬(revealShips = true ∧ b.cells c.1 c.2 = .ship) := fun shown =>
        hidden ⟨shown.1, c, shown.2⟩
      rw [lit_iff, render_code]
      exact (named_iff revealShips (b.cells c.1 c.2)).mpr plain ch

/-- A player's fleet on the player's matrix: the ship below the corner is lit
red and green, and not blue. -/
theorem revealed_ship_is_not_cyan :
    (let shown := renderBoardToMatrix ledMatrixInit (rowsPlayer false).board playerMatrix true
     let cell : Cell := (⟨1, by decide⟩, ⟨0, by decide⟩)
     (rowsPlayer false).board.cells cell.1 cell.2 = .ship ∧ shown.Lit .second cell .red ∧
      shown.Lit .second cell .green ∧ ¬shown.Lit .second cell .blue) ∧
    ¬∀ (leds : Leds) (b : Board) (matrixNum : Nat) (revealShips : Bool),
      RendersNamed leds b matrixNum revealShips := by
  refine ⟨by decide +kernel, fun all => ?_⟩
  have named := all ledMatrixInit (rowsPlayer false).board playerMatrix true
  have red := (named.lights (⟨1, by decide⟩, ⟨0, by decide⟩) .red).mp (by decide +kernel)
  have missing : Channel.red ∉ namedLights true .ship := by decide
  exact missing red

end Battleship
