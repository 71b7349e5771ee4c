import Battleship.Message
import Battleship.Placement
import Mathlib.Tactic.FinCases

/-!
# The picture in an LED frame

A cell of a matrix is three bits of a row, in an order that depends on the
matrix. Whatever calls have painted the matrices, a receiver of the frame reads
off the colours they painted last.
-/
namespace Battleship

/-- The value of a `Color` argument: everything outside the enumeration takes
the default branch. -/
def Color.ofValue (value : Int) : Color :=
  if value = 1 then .red
  else if value = 2 then .green
  else if value = 3 then .blue
  else if value = 4 then .cyan
  else .off

def setLEDColorAll (leds : Leds) (matrixNum : Nat) (color : Color) : Leds :=
  (List.range matrixSize).foldl (fun leds row =>
    (List.range matrixSize).foldl (fun leds col =>
      setLEDColor leds matrixNum row col color) leds) leds

def setLEDColorAllRow (leds : Leds) (matrixNum row : Nat) (color : Color) : Leds :=
  (List.range matrixSize).foldl (fun leds col => setLEDColor leds matrixNum row col color) leds

def setLEDColorAllCol (leds : Leds) (matrixNum col : Nat) (color : Color) : Leds :=
  (List.range matrixSize).foldl (fun leds row => setLEDColor leds matrixNum row col color) leds

inductive LedCall where
  | cell (matrixNum row col : UInt8) (color : Int)
  | all (matrixNum : UInt8) (color : Int)
  | allRow (matrixNum row : UInt8) (color : Int)
  | allCol (matrixNum col : UInt8) (color : Int)

namespace LedCall

def run (leds : Leds) : LedCall → Leds
  | cell n row col v => setLEDColor leds n.toNat row.toNat col.toNat (.ofValue v)
  | all n v => setLEDColorAll leds n.toNat (.ofValue v)
  | allRow n row v => setLEDColorAllRow leds n.toNat row.toNat (.ofValue v)
  | allCol n col v => setLEDColorAllCol leds n.toNat col.toNat (.ofValue v)

def color : LedCall → Color
  | cell _ _ _ v => .ofValue v
  | all _ v => .ofValue v
  | allRow _ _ v => .ofValue v
  | allCol _ _ v => .ofValue v

end LedCall

/-- One of the two matrices. -/
inductive MatrixId where
  | first
  | second
  deriving DecidableEq, Repr

/-- Every number but 1 means the second matrix. -/
def MatrixId.ofNum (matrixNum : Nat) : MatrixId := if matrixNum = 1 then .first else .second

abbrev Picture := MatrixId → Cell → Color

/-- The cells a call addresses. -/
def LedCall.addresses : LedCall → MatrixId → Cell → Bool
  | cell n row col _, m, c => m = .ofNum n.toNat ∧ c.1.val = row.toNat ∧ c.2.val = col.toNat
  | all n _, m, _ => m = .ofNum n.toNat
  | allRow n row _, m, c => m = .ofNum n.toNat ∧ c.1.val = row.toNat
  | allCol n col _, m, c => m = .ofNum n.toNat ∧ c.2.val = col.toNat

/-- A row or column that no matrix has. -/
def LedCall.outOfRange : LedCall → Prop
  | cell _ row col _ => matrixSize ≤ row.toNat ∨ matrixSize ≤ col.toNat
  | all _ _ => False
  | allRow _ row _ => matrixSize ≤ row.toNat
  | allCol _ col _ => matrixSize ≤ col.toNat

/-- The colour of the last call that addressed the cell. -/
def lastColor (calls : List LedCall) (m : MatrixId) (c : Cell) : Color :=
  ((calls.reverse.find? (fun call => call.addresses m c)).map LedCall.color).getD .blue

theorem getLsbD_setBit {k : Nat} (hk : k < 16) (w : BitVec 16) (i : Nat) :
    (setBit w k).getLsbD i = (decide (i = k) || w.getLsbD i) := by
  rw [setBit, ← BitVec.twoPow_eq, BitVec.getLsbD_or, BitVec.getLsbD_twoPow, Bool.or_comm]
  by_cases here : i = k
  · simp [here, hk]
  · simp [here, Ne.symm here]

theorem getLsbD_clearBit {k : Nat} (hk : k < 16) (w : BitVec 16) (i : Nat) :
    (clearBit w k).getLsbD i = (!decide (i = k) && w.getLsbD i) := by
  rw [clearBit, ← BitVec.twoPow_eq, BitVec.getLsbD_and, BitVec.getLsbD_not, BitVec.getLsbD_twoPow]
  by_cases here : i = k
  · simp [here, hk]
  · by_cases inside : i < 16
    · simp [here, Ne.symm here, inside]
    · simp [here, BitVec.getLsbD_of_ge w i (not_lt.mp inside)]

/-- What the three bits of a colour are: a cleared bit lights its channel. -/
def Color.code : Color → Bool × Bool × Bool
  | .off => (true, true, true)
  | .red => (false, true, true)
  | .green => (true, false, true)
  | .blue => (true, true, false)
  | .cyan => (false, false, true)

theorem code_injective : Function.Injective Color.code := by
  intro a b h
  cases a <;> cases b <;> first | rfl | cases h

/-- Painting sets the three bits of the colour and no other. -/
theorem getLsbD_paint {b0 b1 b2 : Nat} (h0 : b0 < 16) (h1 : b1 < 16) (h2 : b2 < 16)
    (d01 : b0 ≠ b1) (d02 : b0 ≠ b2) (d12 : b1 ≠ b2) (w : BitVec 16) (color : Color) (i : Nat) :
    (paint w b0 b1 b2 color).getLsbD i =
      if i = b0 then color.code.1 else if i = b1 then color.code.2.1
      else if i = b2 then color.code.2.2 else w.getLsbD i := by
  cases color <;> simp only [paint, getLsbD_setBit, getLsbD_clearBit, h0, h1, h2, Color.code] <;>
    split_ifs <;> simp_all

def Leds.matrix (leds : Leds) : MatrixId → LedMatrix
  | .first => leds.ledMatrix1
  | .second => leds.ledMatrix2

/-- Where the red, the green and the blue channel of a cell are. -/
def MatrixId.channels : MatrixId → Nat × Nat × Nat
  | .first => bitOrder 1
  | .second => bitOrder 2

/-- The red, green and blue bits of a cell of a row. -/
def cellCode (m : MatrixId) (w : BitVec 16) (col : Fin matrixSize) : Bool × Bool × Bool :=
  let (r, g, b) := m.channels
  (w.getLsbD (col.val * 3 + r), w.getLsbD (col.val * 3 + g), w.getLsbD (col.val * 3 + b))

/-- The picture is in the matrices, and the top bit of every row is set. -/
structure Leds.Shows (leds : Leds) (p : Picture) : Prop where
  code : ∀ m (c : Cell), cellCode m ((leds.matrix m).get c.1) c.2 = (p m c).code
  top : ∀ m (r : Fin matrixSize), ((leds.matrix m).get r).getLsbD 15 = true

/-- Painting a group of three bits at another column leaves this one. -/
theorem getLsbD_paint_group {r g b : Nat} (hr : r < 3) (hg : g < 3) (hb : b < 3) (rg : r ≠ g)
    (rb : r ≠ b) (gb : g ≠ b) (w : BitVec 16) (col c : Fin matrixSize) (color : Color) {k : Nat}
    (hk : k < 3) : (paint w (col.val * 3 + r) (col.val * 3 + g) (col.val * 3 + b)
      color).getLsbD (c.val * 3 + k) = if c = col then
        (if k = r then color.code.1 else if k = g then color.code.2.1 else color.code.2.2)
      else w.getLsbD (c.val * 3 + k) := by
  have hcol : col.val < 5 := col.isLt
  rw [getLsbD_paint (by omega) (by omega) (by omega) (by omega) (by omega) (by omega)]
  by_cases here : c = col
  · subst here
    simp only [Nat.add_left_cancel_iff, if_true]
    have which : k = r ∨ k = g ∨ k = b := by omega
    rcases which with rfl | rfl | rfl
    · simp
    · simp
    · simp [Ne.symm rb, Ne.symm gb]
  · have other : c.val ≠ col.val := fun eq => here (Fin.ext eq)
    rw [if_neg here, if_neg (by omega), if_neg (by omega), if_neg (by omega)]

theorem cellCode_paint (m : MatrixId) (w : BitVec 16) (col c : Fin matrixSize) (color : Color) :
    cellCode m (paint w (col.val * 3 + m.channels.1) (col.val * 3 + m.channels.2.1)
      (col.val * 3 + m.channels.2.2) color) c = if c = col then color.code else cellCode m w c := by
  have order : ∀ m : MatrixId, (m.channels.1 < 3 ∧ m.channels.2.1 < 3 ∧ m.channels.2.2 < 3) ∧
      m.channels.1 ≠ m.channels.2.1 ∧ m.channels.1 ≠ m.channels.2.2 ∧
        m.channels.2.1 ≠ m.channels.2.2 := by
    intro m
    cases m <;> decide
  obtain ⟨⟨hr, hg, hb⟩, rg, rb, gb⟩ := order m
  have group := fun {k : Nat} => getLsbD_paint_group hr hg hb rg rb gb w col c color (k := k)
  simp only [cellCode, group hr, group hg, group hb, if_true, if_neg rg.symm, if_neg rb.symm,
    if_neg gb.symm]
  split <;> rfl

/-- The top bit belongs to no group. -/
theorem top_paint (m : MatrixId) (w : BitVec 16) (col : Fin matrixSize) (color : Color) :
    (paint w (col.val * 3 + m.channels.1) (col.val * 3 + m.channels.2.1)
      (col.val * 3 + m.channels.2.2) color).getLsbD 15 = w.getLsbD 15 := by
  have hcol : col.val < 5 := col.isLt
  cases m with
  | first =>
      simp only [MatrixId.channels, bitOrder, if_true]
      rw [getLsbD_paint (by omega) (by omega) (by omega) (by omega) (by omega) (by omega),
        if_neg (by omega), if_neg (by omega), if_neg (by omega)]
  | second =>
      have two : ¬2 = 1 := by decide
      simp only [MatrixId.channels, bitOrder, if_neg two]
      rw [getLsbD_paint (by omega) (by omega) (by omega) (by omega) (by omega) (by omega),
        if_neg (by omega), if_neg (by omega), if_neg (by omega)]

def Picture.paint (p : Picture) (here : MatrixId → Cell → Bool) (color : Color) : Picture :=
  fun m c => if here m c then color else p m c

theorem Leds.Shows.of_eq {leds : Leds} {p p' : Picture} (h : leds.Shows p)
    (eq : ∀ m c, p m c = p' m c) : leds.Shows p' := by
  rwa [show p' = p from funext fun m => funext fun c => (eq m c).symm]

theorem bitOrder_ofNum (n : Nat) : bitOrder n = (MatrixId.ofNum n).channels := by
  unfold MatrixId.ofNum MatrixId.channels bitOrder
  split <;> rfl

/-- The row that `paintCell` writes, and the others. -/
theorem paintCell_get (rows : LedMatrix) (n : Nat) (row col r : Fin matrixSize) (color : Color) :
    (paintCell rows n row col.val color).get r = if r = row then
      Battleship.paint (rows.get row) (col.val * 3 + (MatrixId.ofNum n).channels.1)
        (col.val * 3 + (MatrixId.ofNum n).channels.2.1)
        (col.val * 3 + (MatrixId.ofNum n).channels.2.2) color
    else rows.get r := by
  have get : ∀ rows : LedMatrix, rows.get r = rows[r.val] := fun _ => rfl
  rw [get, get]
  simp only [paintCell, bitOrder_ofNum]
  by_cases here : r = row
  · subst here
    simp [get]
  · have other : row.val ≠ r.val := fun eq => here (Fin.ext eq.symm)
    simp [here, other]

theorem setLEDColor_matrix (leds : Leds) (n : Nat) (row col : Fin matrixSize) (color : Color)
    (m : MatrixId) : (setLEDColor leds n row.val col.val color).matrix m =
      if m = .ofNum n then paintCell (leds.matrix m) n row col.val color else leds.matrix m := by
  rw [setLEDColor, dif_pos ⟨row.isLt, col.isLt⟩]
  by_cases one : n = 1
  · cases m <;> simp [one, MatrixId.ofNum, Leds.matrix]
  · cases m <;> simp [one, MatrixId.ofNum, Leds.matrix]

/-- The bits of a cell after one cell is painted, whatever they were before. -/
theorem setLEDColor_code (leds : Leds) (n : Nat) (row col : Fin matrixSize) (color : Color)
    (m : MatrixId) (c : Cell) :
    cellCode m (((setLEDColor leds n row.val col.val color).matrix m).get c.1) c.2 =
      if m = .ofNum n ∧ c.1 = row ∧ c.2 = col then color.code
      else cellCode m ((leds.matrix m).get c.1) c.2 := by
  rw [setLEDColor_matrix]
  by_cases this_matrix : m = .ofNum n
  · rw [if_pos this_matrix, paintCell_get, ← this_matrix]
    by_cases this_row : c.1 = row
    · rw [if_pos this_row, cellCode_paint, ← this_row]
      by_cases this_col : c.2 = col
      · simp [this_col]
      · simp [this_col]
    · simp [this_row]
  · simp [this_matrix]

theorem setLEDColor_shows {leds : Leds} {p : Picture} (h : leds.Shows p) (n row col : Nat)
    (color : Color) : (setLEDColor leds n row col color).Shows
      (p.paint (fun m c => m = .ofNum n ∧ c.1.val = row ∧ c.2.val = col) color) := by
  by_cases inside : row < matrixSize ∧ col < matrixSize
  · obtain ⟨row, rfl⟩ : ∃ r : Fin matrixSize, r.val = row := ⟨⟨row, inside.1⟩, rfl⟩
    obtain ⟨col, rfl⟩ : ∃ c : Fin matrixSize, c.val = col := ⟨⟨col, inside.2⟩, rfl⟩
    constructor
    · intro m c
      rw [setLEDColor_code, h.code]
      simp only [Picture.paint, Fin.val_inj, decide_eq_true_eq]
      split <;> rfl
    · intro m r
      rw [setLEDColor_matrix]
      split
      · rename_i this_matrix
        rw [paintCell_get, ← this_matrix]
        split
        · rw [top_paint]
          exact h.top m row
        · exact h.top m r
      · exact h.top m r
  · have missed : ∀ (m : MatrixId) (c : Cell),
        ¬(m = .ofNum n ∧ c.1.val = row ∧ c.2.val = col) := by
      rintro m c ⟨-, rfl, rfl⟩
      exact inside ⟨c.1.isLt, c.2.isLt⟩
    rw [setLEDColor, dif_neg inside]
    refine h.of_eq fun m c => ?_
    rw [Picture.paint, if_neg (by simpa using missed m c)]

/-- Painting cell after cell of a list. -/
theorem setCells_shows {leds : Leds} {p : Picture} (h : leds.Shows p) (n : Nat)
    (cells : List (Nat × Nat)) (color : Color) :
    (cells.foldl (fun leds rc => setLEDColor leds n rc.1 rc.2 color) leds).Shows
      (p.paint (fun m c => m = .ofNum n ∧ (c.1.val, c.2.val) ∈ cells) color) := by
  induction cells generalizing leds p with
  | nil => exact h.of_eq fun m c => by simp [Picture.paint]
  | cons rc cells ih =>
      refine (ih (setLEDColor_shows h n rc.1 rc.2 color)).of_eq fun m c => ?_
      by_cases later : m = .ofNum n ∧ (c.1.val, c.2.val) ∈ cells
      · simp [Picture.paint, later]
      · by_cases this_matrix : m = .ofNum n
        · have others : (c.1.val, c.2.val) ∉ cells := fun member => later ⟨this_matrix, member⟩
          simp [Picture.paint, this_matrix, others, Prod.ext_iff]
        · simp [Picture.paint, this_matrix]

theorem call_shows {leds : Leds} {p : Picture} (h : leds.Shows p) (call : LedCall) :
    (call.run leds).Shows (p.paint call.addresses call.color) := by
  have below : ∀ c : Cell, c.1.val < matrixSize ∧ c.2.val < matrixSize := fun c =>
    ⟨c.1.isLt, c.2.isLt⟩
  cases call with
  | cell n row col v => exact setLEDColor_shows h n.toNat row.toNat col.toNat (.ofValue v)
  | all n v =>
      have cells := setCells_shows h n.toNat ((List.range matrixSize).flatMap fun row =>
        (List.range matrixSize).map fun col => (row, col)) (.ofValue v)
      simp only [List.foldl_flatMap, List.foldl_map] at cells
      refine cells.of_eq fun m c => ?_
      have listed : (c.1.val, c.2.val) ∈ (List.range matrixSize).flatMap fun row =>
          (List.range matrixSize).map fun col => (row, col) := by simp [below c]
      simp only [Picture.paint, LedCall.addresses, listed, and_true]
      rfl
  | allRow n row v =>
      have cells := setCells_shows h n.toNat ((List.range matrixSize).map fun col =>
        (row.toNat, col)) (.ofValue v)
      simp only [List.foldl_map] at cells
      refine cells.of_eq fun m c => ?_
      have listed : ((c.1.val, c.2.val) ∈ (List.range matrixSize).map fun col =>
          (row.toNat, col)) ↔ c.1.val = row.toNat := by simp [below c, eq_comm]
      simp only [Picture.paint, LedCall.addresses, listed]
      rfl
  | allCol n col v =>
      have cells := setCells_shows h n.toNat ((List.range matrixSize).map fun row =>
        (row, col.toNat)) (.ofValue v)
      simp only [List.foldl_map] at cells
      refine cells.of_eq fun m c => ?_
      have listed : ((c.1.val, c.2.val) ∈ (List.range matrixSize).map fun row =>
          (row, col.toNat)) ↔ c.2.val = col.toNat := by simp [below c, eq_comm]
      simp only [Picture.paint, LedCall.addresses, listed]
      rfl

theorem init_shows : ledMatrixInit.Shows (fun _ _ => .blue) := by
  constructor
  · intro m c
    cases m with
    | first =>
        simp only [Leds.matrix, ledMatrixInit]
        revert c
        decide
    | second =>
        simp only [Leds.matrix, ledMatrixInit]
        revert c
        decide
  · intro m r
    cases m with
    | first =>
        simp only [Leds.matrix, ledMatrixInit]
        revert r
        decide
    | second =>
        simp only [Leds.matrix, ledMatrixInit]
        revert r
        decide

/-- After any calls the matrices show what each cell was painted last. -/
theorem calls_show (calls : List LedCall) :
    (calls.foldl LedCall.run ledMatrixInit).Shows (lastColor calls) := by
  induction calls using List.reverseRecOn with
  | nil => exact init_shows
  | append_singleton calls call ih =>
      rw [List.foldl_append, List.foldl_cons, List.foldl_nil]
      refine (call_shows ih call).of_eq fun m c => ?_
      rw [Picture.paint, lastColor, lastColor, List.reverse_append, List.reverse_singleton,
        List.singleton_append, List.find?_cons]
      cases call.addresses m c <;> rfl

/-- A call for a row or column no matrix has changes nothing. -/
theorem outOfRange_run {call : LedCall} (h : call.outOfRange) (leds : Leds) :
    call.run leds = leds := by
  have outside : ∀ (n row col : Nat) (color : Color), matrixSize ≤ row ∨ matrixSize ≤ col →
      setLEDColor leds n row col color = leds := fun n row col color out => dif_neg (by omega)
  cases call with
  | cell n row col v => exact outside n.toNat row.toNat col.toNat (.ofValue v) h
  | all n v => exact h.elim
  | allRow n row v =>
      exact List.foldl_fixed' (fun col => outside n.toNat row.toNat col (.ofValue v) (.inl h)) _
  | allCol n col v =>
      exact List.foldl_fixed' (fun row => outside n.toNat row col.toNat (.ofValue v) (.inr h)) _

/-- Where a matrix begins in the payload. -/
def MatrixId.offset : MatrixId → Nat
  | .first => 0
  | .second => 10

def byteAt (payload : Fin 24 → UInt8) (i : Nat) : UInt8 :=
  if h : i < 24 then payload ⟨i, h⟩ else 0

/-- A little-endian row of the payload. -/
def payloadRow (payload : Fin 24 → UInt8) (m : MatrixId) (row : Fin matrixSize) : BitVec 16 :=
  let i := m.offset + 2 * row.val
  BitVec.ofNat 16 ((byteAt payload i).toNat + 256 * (byteAt payload (i + 1)).toNat)

def Color.ofCode : Bool × Bool × Bool → Option Color
  | (true, true, true) => some .off
  | (false, true, true) => some .red
  | (true, false, true) => some .green
  | (true, true, false) => some .blue
  | (false, false, true) => some .cyan
  | _ => none

/-- The colour a receiver of the payload reads off a cell. -/
def decodeCell (payload : Fin 24 → UInt8) (m : MatrixId) (c : Cell) : Option Color :=
  Color.ofCode (cellCode m (payloadRow payload m c.1) c.2)

theorem ofCode_code (color : Color) : Color.ofCode color.code = some color := by
  cases color <;> rfl

theorem toNat_lowByte (w : BitVec 16) : (lowByte w).toNat = w.toNat % 256 := by
  have mask : (0xFF#16).toNat = 2 ^ 8 - 1 := rfl
  rw [lowByte, BitVec.toNat_and, mask, Nat.and_two_pow_sub_one_eq_mod]
  simp

theorem toNat_highByte (w : BitVec 16) : (highByte w).toNat = w.toNat / 256 := by
  have mask : (0xFF#16).toNat = 2 ^ 8 - 1 := rfl
  have small := w.isLt
  rw [highByte, BitVec.toNat_and, mask, Nat.and_two_pow_sub_one_eq_mod, BitVec.toNat_ushiftRight,
    Nat.shiftRight_eq_div_pow]
  simp
  omega

theorem bytes_row (w : BitVec 16) :
    BitVec.ofNat 16 ((lowByte w).toNat + 256 * (highByte w).toNat) = w := by
  rw [toNat_lowByte, toNat_highByte, Nat.mod_add_div, BitVec.ofNat_toNat, BitVec.setWidth_eq]

/-- The frame, taken apart again, holds the rows of both matrices. -/
theorem payloadRow_frame (slaveId : Int) (leds : Leds) (pipe : UInt8) (m : MatrixId)
    (row : Fin matrixSize) :
    payloadRow (messageOf (frameOf (ledMessage slaveId leds)) pipe).payload m row =
      (leds.matrix m).get row := by
  rw [← bytes_row ((leds.matrix m).get row)]
  cases m <;> fin_cases row <;> rfl

theorem payload_rest (slaveId : Int) (leds : Leds) (pipe : UInt8) {i : Fin 24} (hi : 20 ≤ i.val) :
    (messageOf (frameOf (ledMessage slaveId leds)) pipe).payload i = 0 := by
  fin_cases i <;> first | rfl | simp at hi

/-- The frame carries the last colour of every cell. -/
theorem frame_shows (calls : List LedCall) (slaveId : Int) (pipe : UInt8) :
    let payload := (messageOf (frameOf (ledMessage slaveId
      (calls.foldl LedCall.run ledMatrixInit))) pipe).payload
    (∀ m c, decodeCell payload m c = some (lastColor calls m c)) ∧
    (∀ m row, (payloadRow payload m row).getLsbD 15 = true) ∧
    (∀ i : Fin 24, 20 ≤ i.val → payload i = 0) ∧
    Function.Injective Color.code ∧
    ∀ call : LedCall, call.outOfRange → ∀ leds, call.run leds = leds := by
  intro payload
  have shows_last := calls_show calls
  refine ⟨fun m c => ?_, fun m row => ?_, fun i hi => payload_rest slaveId _ pipe hi,
    code_injective, fun call => outOfRange_run⟩
  · rw [decodeCell, payloadRow_frame, shows_last.code, ofCode_code]
  · rw [payloadRow_frame]
    exact shows_last.top m row

end Battleship
