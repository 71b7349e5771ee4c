import Battleship.Engine
import Battleship.Placement
import Battleship.Lib.Scan
import Mathlib.Algebra.BigOperators.Group.Finset.Basic
import Mathlib.Algebra.Order.BigOperators.Group.Finset
import Mathlib.Algebra.Order.BigOperators.Group.List
import Mathlib.Data.Fintype.Sigma
import Mathlib.Tactic.DeriveFintype
import Mathlib.Tactic.IntervalCases

/-!
# What the heat map counts

`generate_heatmap` visits every straight placement of every length and adds to
its cells. Here is the number that a cell ends with, and the cell that
`select_best_move` takes.
-/
namespace Battleship

/-- Where a ship could lie: its first cell, and whether it lies in a row. -/
structure Slot where
  row : Fin gridSize
  col : Fin gridSize
  horizontal : Bool
  deriving DecidableEq, Fintype

def Slot.at (s : Slot) (i : Nat) : Coordinate := shipCell s.row.val s.col.val s.horizontal i

def Slot.cells (s : Slot) (n : Nat) : Finset Cell := shipCells s.row.val s.col.val s.horizontal n

/-- A ship of `n` cells does not leave the grid here. -/
def Slot.Inside (s : Slot) (n : Nat) : Prop := ∀ i < n, InGrid (s.at i)

/-- No cell is known as a miss or as part of a sunk ship. -/
def Board.Unblocked (b : Board) (cells : Finset Cell) : Prop :=
  ∀ c ∈ cells, b.cells c.1 c.2 ≠ .miss ∧ b.cells c.1 c.2 ≠ .sunk

def Board.hitsIn (b : Board) (cells : Finset Cell) : Nat :=
  (cells.filter (fun c => b.cells c.1 c.2 = .hit)).card

instance (s : Slot) (n : Nat) : Decidable (s.Inside n) :=
  inferInstanceAs (Decidable (∀ i < n, InGrid (s.at i)))

instance (b : Board) (cells : Finset Cell) : Decidable (b.Unblocked cells) :=
  inferInstanceAs (Decidable (∀ c ∈ cells, _))

/-- The placements of a ship of `n` cells that hold `c` and no blocked cell. -/
def Board.slotsThrough (b : Board) (n : Nat) (c : Cell) : Finset Slot :=
  Finset.univ.filter (fun s => s.Inside n ∧ c ∈ s.cells n ∧ b.Unblocked (s.cells n))

/-- Each of them counts one, and one more for each hit in it. -/
def Board.heatOf (b : Board) (n : Nat) (c : Cell) : Nat :=
  ∑ s ∈ b.slotsThrough n c, (1 + b.hitsIn (s.cells n))

def Board.heatSum (b : Board) (lengths : List Int) (c : Cell) : Nat :=
  (lengths.map (fun len => b.heatOf len.toNat c)).sum

/-- The placements of one length in the order the loops visit them. -/
def slotsOf (len : Int) : List Slot :=
  let anchors := (List.finRange gridSize).filter (fun i => i.val + len ≤ gridSize)
  (List.finRange gridSize).flatMap (fun y => anchors.map (fun x => ⟨y, x, true⟩)) ++
    (List.finRange gridSize).flatMap (fun x => anchors.map (fun y => ⟨y, x, false⟩))

def heatSteps (lengths : List Int) : List (Int × Slot) :=
  lengths.flatMap (fun len => (slotsOf len).map (fun s => (len, s)))

def heatStep (b : Board) (heat : Heatmap) (step : Int × Slot) : Option Heatmap :=
  heatPlacement b step.1.toNat heat step.2.row.val step.2.col.val step.2.horizontal

/-- The map after these placements. -/
def heatAfter (b : Board) (steps : List (Int × Slot)) : Option Heatmap :=
  steps.foldlM (heatStep b) (fun _ _ => 0)

theorem anchors_eq {len : Int} (hlen : 1 ≤ len ∧ len ≤ gridSize) : anchors len =
    ((List.finRange gridSize).filter (fun i => i.val + len ≤ gridSize)).map Fin.val := by
  obtain ⟨low, high⟩ := hlen
  have size : (gridSize : Int) = 5 := rfl
  rw [size] at high
  interval_cases len <;> decide

theorem range_eq_finRange : List.range gridSize = (List.finRange gridSize).map Fin.val := by decide

theorem heatShip_eq (b : Board) (heat : Heatmap) {len : Int} (hlen : 1 ≤ len ∧ len ≤ gridSize) :
    heatShip b heat len = ((slotsOf len).map (fun s => (len, s))).foldlM (heatStep b) heat := by
  simp only [heatShip, slotsOf, anchors_eq hlen, range_eq_finRange, List.foldlM_map,
    List.foldlM_append, Scan.foldlM_flatMap]
  rfl

/-- The loops of `generate_heatmap` as one loop over all placements. -/
theorem generateHeatmap_eq (b : Board) {lengths : List Int}
    (short : ∀ len ∈ lengths, 1 ≤ len ∧ len ≤ gridSize) :
    generateHeatmap b lengths = heatAfter b (heatSteps lengths) := by
  rw [heatAfter, heatSteps, Scan.foldlM_flatMap]
  exact Scan.foldlM_congr (fun len hlen heat => heatShip_eq b heat (short len hlen)) _

/-- The cells of an inside slot, in order. -/
theorem Slot.Inside.path {s : Slot} {n : Nat} (h : s.Inside n) :
    ∃ path : Nat → Cell, ∀ i ∈ List.range n, s.at i = (path i).coord := by
  choose! path eq using h
  exact ⟨path, fun i hi => (eq i (List.mem_range.mp hi)).symm⟩

theorem Slot.at_injective (s : Slot) : Function.Injective s.at := by
  intro i j eq
  cases h : s.horizontal with
  | true =>
      simp only [Slot.at, shipCell, h, if_true, Coordinate.mk.injEq] at eq
      omega
  | false =>
      simp only [Slot.at, shipCell, h, Bool.false_eq_true, if_false, Coordinate.mk.injEq] at eq
      omega

theorem path_nodup {s : Slot} {path : Nat → Cell} {n : Nat}
    (eq : ∀ i ∈ List.range n, s.at i = (path i).coord) : ((List.range n).map path).Nodup := by
  refine List.Nodup.map_on (fun i hi j hj same => s.at_injective ?_) List.nodup_range
  rw [eq i hi, eq j hj, same]

theorem mem_path {s : Slot} {path : Nat → Cell} {n : Nat}
    (eq : ∀ i ∈ List.range n, s.at i = (path i).coord) {c : Cell} :
    c ∈ (List.range n).map path ↔ c ∈ s.cells n := by
  rw [Slot.cells, mem_shipCells, List.mem_map]
  constructor
  · rintro ⟨i, hi, rfl⟩
    exact ⟨i, List.mem_range.mp hi, eq i hi⟩
  · rintro ⟨i, hi, at_c⟩
    have member := List.mem_range.mpr hi
    exact ⟨i, member, Cell.coord_injective ((eq i member).symm.trans at_c)⟩

theorem path_toFinset {s : Slot} {path : Nat → Cell} {n : Nat}
    (eq : ∀ i ∈ List.range n, s.at i = (path i).coord) :
    ((List.range n).map path).toFinset = s.cells n := by
  ext c
  rw [List.mem_toFinset, mem_path eq]

theorem placementBonus_eq (b : Board) {s : Slot} {path : Nat → Cell} {is : List Nat}
    (eq : ∀ i ∈ is, s.at i = (path i).coord) :
    placementBonus b s.row.val s.col.val s.horizontal is =
      some (if ∀ c ∈ is.map path, b.cells c.1 c.2 ≠ .miss ∧ b.cells c.1 c.2 ≠ .sunk
        then some ((is.map path).countP (fun c => b.cells c.1 c.2 = .hit)) else none) := by
  induction is with
  | nil => rfl
  | cons i is ih =>
      have first : shipCell s.row.val s.col.val s.horizontal i = (path i).coord :=
        eq i List.mem_cons_self
      simp only [placementBonus, first, Board.read_coord, Option.bind_eq_bind, Option.bind_some,
        ih (fun j hj => eq j (List.mem_cons_of_mem i hj)), List.map_cons, List.forall_mem_cons,
        List.countP_cons]
      by_cases blocked : b.cells (path i).1 (path i).2 = .miss ∨ b.cells (path i).1 (path i).2 = .sunk
      · rw [if_pos blocked, if_neg (fun clear => blocked.elim clear.1.1 clear.1.2)]
        rfl
      · rw [if_neg blocked]
        simp only [not_or] at blocked
        by_cases rest : ∀ c ∈ is.map path, b.cells c.1 c.2 ≠ .miss ∧ b.cells c.1 c.2 ≠ .sunk
        · have all : (b.cells (path i).1 (path i).2 ≠ .miss ∧
              b.cells (path i).1 (path i).2 ≠ .sunk) ∧ _ := ⟨blocked, rest⟩
          rw [if_pos rest, if_pos all]
          simp
        · have some_blocked : ¬((b.cells (path i).1 (path i).2 ≠ .miss ∧
              b.cells (path i).1 (path i).2 ≠ .sunk) ∧ _) := fun all => rest all.2
          rw [if_neg rest, if_neg some_blocked]
          rfl

theorem heatCells_eq {s : Slot} {path : Nat → Cell} {is : List Nat}
    (eq : ∀ i ∈ is, s.at i = (path i).coord) (nodup : (is.map path).Nodup) (amount : UInt8)
    (heat : Heatmap) : heatCells s.row.val s.col.val s.horizontal amount is heat =
      some (fun r c => if (r, c) ∈ is.map path then heat r c + amount else heat r c) := by
  induction is generalizing heat with
  | nil => simp [heatCells]
  | cons i is ih =>
      have first : shipCell s.row.val s.col.val s.horizontal i = (path i).coord :=
        eq i List.mem_cons_self
      have fresh := List.nodup_cons.mp nodup
      simp only [heatCells, first, Cell.coord, gridIndex_val, Option.bind_eq_bind,
        Option.bind_some, ih (fun j hj => eq j (List.mem_cons_of_mem i hj)) fresh.2]
      congr 1
      funext r c
      by_cases here : r = (path i).1 ∧ c = (path i).2
      · obtain ⟨rfl, rfl⟩ := here
        rw [if_neg fresh.1]
        simp
      · have other : (r, c) ≠ path i := fun same =>
          here ⟨congrArg Prod.fst same, congrArg Prod.snd same⟩
        simp only [if_neg here, List.map_cons, List.mem_cons, other, false_or]

/-- What one placement adds to a cell. -/
def Slot.heat (s : Slot) (b : Board) (n : Nat) (c : Cell) : Nat :=
  if c ∈ s.cells n ∧ b.Unblocked (s.cells n) then 1 + b.hitsIn (s.cells n) else 0

theorem heatPlacement_eq (b : Board) {s : Slot} {n : Nat} (inside : s.Inside n) (heat : Heatmap) :
    heatPlacement b n heat s.row.val s.col.val s.horizontal =
      some (fun r c => heat r c + UInt8.ofNat (s.heat b n (r, c))) := by
  obtain ⟨path, eq⟩ := inside.path
  have cells := path_toFinset eq
  have hits : ((List.range n).map path).countP (fun c => b.cells c.1 c.2 = .hit) =
      b.hitsIn (s.cells n) := by
    have found : (s.cells n).filter (fun c => b.cells c.1 c.2 = .hit) =
        (((List.range n).map path).filter (fun c => b.cells c.1 c.2 = .hit)).toFinset := by
      ext c
      simp [← cells]
    rw [List.countP_eq_length_filter, Board.hitsIn, found,
      List.toFinset_card_of_nodup ((path_nodup eq).filter _)]
  have clear : (∀ c ∈ (List.range n).map path, b.cells c.1 c.2 ≠ .miss ∧ b.cells c.1 c.2 ≠ .sunk) ↔
      b.Unblocked (s.cells n) := by
    simp only [Board.Unblocked, mem_path eq]
  simp only [heatPlacement, placementBonus_eq b eq, hits, clear, Option.bind_eq_bind,
    Option.bind_some]
  by_cases unblocked : b.Unblocked (s.cells n)
  · rw [if_pos unblocked]
    simp only [heatCells_eq eq (path_nodup eq), mem_path eq, Slot.heat, unblocked, and_true]
    congr 1
    funext r c
    split
    · rfl
    · simp
  · rw [if_neg unblocked]
    simp [Slot.heat, unblocked]

/-- What these placements add to a cell. -/
def heatTotal (b : Board) (steps : List (Int × Slot)) (c : Cell) : Nat :=
  (steps.map (fun step => step.2.heat b step.1.toNat c)).sum

theorem heatAfter_eq (b : Board) {steps : List (Int × Slot)}
    (inside : ∀ step ∈ steps, step.2.Inside step.1.toNat) :
    heatAfter b steps = some (fun r c => UInt8.ofNat (heatTotal b steps (r, c))) := by
  induction steps using List.reverseRecOn with
  | nil => rfl
  | append_singleton steps step ih =>
      have before := ih fun s hs => inside s (List.mem_append_left _ hs)
      have last := inside step (by simp)
      unfold heatAfter at before ⊢
      rw [List.foldlM_append, before]
      simp only [Option.bind_eq_bind, Option.bind_some, List.foldlM_cons, heatStep,
        heatPlacement_eq b last, List.foldlM_nil]
      congr 1
      funext r c
      simp [heatTotal]

theorem mem_slotsOf {len : Int} {s : Slot} : s ∈ slotsOf len ↔
    (if s.horizontal then s.col.val else s.row.val) + len ≤ gridSize := by
  obtain ⟨row, col, horizontal⟩ := s
  cases horizontal <;> simp [slotsOf]

theorem slot_inside {len : Int} (long : 1 ≤ len) {s : Slot} :
    (if s.horizontal then s.col.val else s.row.val) + len ≤ gridSize ↔ s.Inside len.toNat := by
  have size : (gridSize : Int) = 5 := rfl
  constructor
  · intro near i hi
    cases h : s.horizontal with
    | true =>
        simp only [h, if_true] at near
        refine ⟨(s.row, ⟨s.col.val + i, by simp only [gridSize]; omega⟩), ?_⟩
        simp [Slot.at, shipCell, h, Cell.coord]
    | false =>
        simp only [h, Bool.false_eq_true, if_false] at near
        refine ⟨(⟨s.row.val + i, by simp only [gridSize]; omega⟩, s.col), ?_⟩
        simp [Slot.at, shipCell, h, Cell.coord]
  · intro inside
    obtain ⟨c, last⟩ := inside (len.toNat - 1) (by omega)
    cases h : s.horizontal with
    | true =>
        simp only [Slot.at, shipCell, h, if_true, Cell.coord, Coordinate.mk.injEq] at last
        simp only [if_true]
        omega
    | false =>
        simp only [Slot.at, shipCell, h, Bool.false_eq_true, if_false, Cell.coord,
          Coordinate.mk.injEq] at last
        simp only [Bool.false_eq_true, if_false]
        omega

theorem slotsOf_inside {len : Int} (hlen : 1 ≤ len ∧ len ≤ gridSize) {s : Slot} :
    s ∈ slotsOf len ↔ s.Inside len.toNat :=
  mem_slotsOf.trans (slot_inside hlen.1)

theorem nodup_slotsOf {len : Int} (hlen : 1 ≤ len ∧ len ≤ gridSize) : (slotsOf len).Nodup := by
  obtain ⟨low, high⟩ := hlen
  have size : (gridSize : Int) = 5 := rfl
  rw [size] at high
  interval_cases len <;> decide +kernel

/-- One pass over the placements of a length adds what the formula says. -/
theorem sum_slotsOf (b : Board) {len : Int} (hlen : 1 ≤ len ∧ len ≤ gridSize) (c : Cell) :
    ((slotsOf len).map (fun s => s.heat b len.toNat c)).sum = b.heatOf len.toNat c := by
  have visited : (slotsOf len).toFinset = Finset.univ.filter (fun s => s.Inside len.toNat) := by
    ext s
    simp [slotsOf_inside hlen]
  have apart : b.slotsThrough len.toNat c =
      (Finset.univ.filter (fun s : Slot => s.Inside len.toNat)).filter
        (fun s => c ∈ s.cells len.toNat ∧ b.Unblocked (s.cells len.toNat)) := by
    rw [Finset.filter_filter]
    rfl
  calc ((slotsOf len).map (fun s => s.heat b len.toNat c)).sum
      = ∑ s ∈ (slotsOf len).toFinset, s.heat b len.toNat c :=
        (List.sum_toFinset _ (nodup_slotsOf hlen)).symm
    _ = ∑ s ∈ Finset.univ.filter (fun s : Slot => s.Inside len.toNat), s.heat b len.toNat c := by
        rw [visited]
    _ = b.heatOf len.toNat c := by
        rw [Board.heatOf, apart]
        exact (Finset.sum_filter _ _).symm

theorem heatTotal_heatSteps (b : Board) {lengths : List Int}
    (short : ∀ len ∈ lengths, 1 ≤ len ∧ len ≤ gridSize) (c : Cell) :
    heatTotal b (heatSteps lengths) c = b.heatSum lengths c := by
  induction lengths with
  | nil => rfl
  | cons len lengths ih =>
      have split : heatTotal b (heatSteps (len :: lengths)) c =
          ((slotsOf len).map (fun s => s.heat b len.toNat c)).sum +
            heatTotal b (heatSteps lengths) c := by
        simp [heatTotal, heatSteps, Function.comp_def]
      rw [split, sum_slotsOf b (short len List.mem_cons_self) c,
        ih fun l hl => short l (List.mem_cons_of_mem len hl)]
      simp [Board.heatSum]

theorem heatSteps_inside {lengths : List Int}
    (short : ∀ len ∈ lengths, 1 ≤ len ∧ len ≤ gridSize) {step : Int × Slot}
    (h : step ∈ heatSteps lengths) : step.2.Inside step.1.toNat := by
  obtain ⟨len, hlen, visited⟩ := List.mem_flatMap.mp h
  obtain ⟨s, hs, rfl⟩ := List.mem_map.mp visited
  exact (slotsOf_inside (short len hlen)).mp hs

theorem hitsIn_le (b : Board) {s : Slot} {n : Nat} (inside : s.Inside n) :
    b.hitsIn (s.cells n) ≤ n := by
  obtain ⟨path, eq⟩ := inside.path
  have cells := path_toFinset eq
  calc b.hitsIn (s.cells n) ≤ (s.cells n).card := Finset.card_filter_le _ _
    _ ≤ ((List.range n).map path).length := cells ▸ List.toFinset_card_le _
    _ = n := by simp

/-- How far along the slot a cell is. -/
def Slot.offset (s : Slot) (c : Cell) : Nat :=
  if s.horizontal then c.2.val - s.col.val else c.1.val - s.row.val

theorem at_offset {s : Slot} {n : Nat} {c : Cell} (h : c ∈ s.cells n) :
    s.offset c < n ∧ s.at (s.offset c) = c.coord := by
  obtain ⟨i, hi, eq⟩ := mem_shipCells.mp h
  have offset : s.offset c = i := by
    cases h : s.horizontal with
    | true =>
        simp only [shipCell, h, if_true, Cell.coord, Coordinate.mk.injEq] at eq
        simp only [Slot.offset, h, if_true]
        omega
    | false =>
        simp only [shipCell, h, Bool.false_eq_true, if_false, Cell.coord,
          Coordinate.mk.injEq] at eq
        simp only [Slot.offset, h, Bool.false_eq_true, if_false]
        omega
  rw [offset]
  exact ⟨hi, eq⟩

/-- A cell is in at most `n` placements of each orientation. -/
theorem card_slotsThrough (b : Board) (n : Nat) (c : Cell) : (b.slotsThrough n c).card ≤ 2 * n := by
  have through : ∀ s ∈ b.slotsThrough n c, c ∈ s.cells n := fun s hs =>
    (Finset.mem_filter.mp hs).2.2.1
  calc (b.slotsThrough n c).card ≤ ((Finset.univ : Finset Bool) ×ˢ Finset.range n).card := by
        refine Finset.card_le_card_of_injOn (fun s => (s.horizontal, s.offset c)) ?_ ?_
        · intro s hs
          simpa using (at_offset (through s hs)).1
        · intro s hs t ht same
          obtain ⟨way, offset⟩ := Prod.mk.inj same
          have meet := (at_offset (through s hs)).2.trans (at_offset (through t ht)).2.symm
          rw [offset] at meet
          obtain ⟨row, col, horizontal⟩ := s
          obtain ⟨row', col', horizontal'⟩ := t
          simp only at way
          subst way
          cases horizontal with
          | true =>
              simp only [Slot.at, shipCell, if_true, Coordinate.mk.injEq] at meet
              congr 1 <;> omega
          | false =>
              simp only [Slot.at, shipCell, Bool.false_eq_true, if_false,
                Coordinate.mk.injEq] at meet
              congr 1 <;> omega
    _ = 2 * n := by simp

theorem heatOf_le (b : Board) (n : Nat) (c : Cell) : b.heatOf n c ≤ 2 * n * (1 + n) := by
  calc b.heatOf n c ≤ ∑ _s ∈ b.slotsThrough n c, (1 + n) :=
        Finset.sum_le_sum fun s hs =>
          Nat.add_le_add_left (hitsIn_le b (Finset.mem_filter.mp hs).2.1) 1
    _ = (b.slotsThrough n c).card * (1 + n) := by simp
    _ ≤ 2 * n * (1 + n) := Nat.mul_le_mul_right _ (card_slotsThrough b n c)

theorem hardShipLengths_short : ∀ len ∈ hardShipLengths, 1 ≤ len ∧ len ≤ gridSize := by decide

theorem heatSum_hard (b : Board) (c : Cell) : b.heatSum hardShipLengths c ≤ 48 := by
  have three := heatOf_le b 3 c
  have two := heatOf_le b 2 c
  have sum : b.heatSum hardShipLengths c = b.heatOf 3 c + (b.heatOf 2 c + (b.heatOf 2 c + 0)) := rfl
  omega

/-- The placements visited so far never add up to more than all of them. -/
theorem heatTotal_take (b : Board) (steps : List (Int × Slot)) (k : Nat) (c : Cell) :
    heatTotal b (steps.take k) c ≤ heatTotal b steps c :=
  List.Sublist.sum_le_sum ((List.take_sublist k steps).map _) fun _ _ => Nat.zero_le _

/-- After any number of placements the cells hold the exact sums. -/
theorem heatAfter_exact (b : Board) (k : Nat) : ∃ heat,
    heatAfter b ((heatSteps hardShipLengths).take k) = some heat ∧ ∀ c : Cell,
      (heat c.1 c.2).toNat = heatTotal b ((heatSteps hardShipLengths).take k) c := by
  refine ⟨_, heatAfter_eq b fun step hs =>
    heatSteps_inside hardShipLengths_short (List.mem_of_mem_take hs), fun c => ?_⟩
  have small : heatTotal b ((heatSteps hardShipLengths).take k) c < 256 :=
    calc heatTotal b ((heatSteps hardShipLengths).take k) c
        ≤ heatTotal b (heatSteps hardShipLengths) c := heatTotal_take b _ k c
      _ = b.heatSum hardShipLengths c := heatTotal_heatSteps b hardShipLengths_short c
      _ < 256 := lt_of_le_of_lt (heatSum_hard b c) (by decide)
  rw [UInt8.toNat_ofNat_of_lt' small]

/-- `select_best_move` may take the cell. -/
def Board.Free (b : Board) (c : Cell) : Prop :=
  b.cells c.1 c.2 = .empty ∨ b.cells c.1 c.2 = .ship

def Heatmap.of (heat : Heatmap) (c : Cell) : Nat := (heat c.1 c.2).toNat

/-- The position of a cell when the grid is read row by row. -/
def Cell.place (c : Cell) : Nat := gridSize * c.1.val + c.2.val

/-- The hottest of the free cells, and the first of those. -/
structure BestMove (heat : Heatmap) (b : Board) (c : Cell) : Prop where
  free : b.Free c
  first : ∀ c', b.Free c' → heat.of c' < heat.of c ∨ heat.of c' = heat.of c ∧ c.place ≤ c'.place

/-- What the scan has found among the cells it has passed. -/
theorem foldl_betterMove_eq (heat : Heatmap) (b : Board) (cells : List Cell) :
    (∃ c, Scan.FirstMax b.Free heat.of cells c ∧
      cells.foldl (betterMove heat b) (⟨-1, -1⟩, -1) = (c.coord, (heat.of c : Int))) ∨
    (∀ c ∈ cells, ¬b.Free c) ∧
      cells.foldl (betterMove heat b) (⟨-1, -1⟩, -1) = (⟨-1, -1⟩, -1) := by
  induction cells using List.reverseRecOn with
  | nil => exact .inr ⟨by simp, rfl⟩
  | append_singleton cells x ih =>
      simp only [List.foldl_append, List.foldl_cons, List.foldl_nil]
      rcases ih with ⟨c, first, eq⟩ | ⟨none, eq⟩
      · rw [eq]
        by_cases better : b.Free x ∧ heat.of c < heat.of x
        · refine .inl ⟨x, .move better.1 fun y hy py => ?_, ?_⟩
          · exact lt_of_le_of_lt (first.le hy py) better.2
          · exact if_pos ⟨better.1, Int.ofNat_lt.mpr better.2⟩
        · refine .inl ⟨c, first.stay fun px => not_lt.mp fun more => better ⟨px, more⟩, ?_⟩
          exact if_neg fun more => better ⟨more.1, Int.ofNat_lt.mp more.2⟩
      · rw [eq]
        by_cases free : b.Free x
        · refine .inl ⟨x, .move free fun y hy py => absurd py (none y hy), ?_⟩
          exact if_pos ⟨free, lt_of_lt_of_le (by decide) (Int.natCast_nonneg _)⟩
        · refine .inr ⟨fun c hc => ?_, if_neg fun more => free more.1⟩
          rcases List.mem_append.mp hc with early | last
          · exact none c early
          · rw [List.mem_singleton.mp last]
            exact free

theorem mem_allCells (cell : Cell) : cell ∈ allCells :=
  List.mem_flatMap.mpr ⟨cell.1, List.mem_finRange _,
    List.mem_map.mpr ⟨cell.2, List.mem_finRange _, rfl⟩⟩

theorem allCells_sorted : allCells.Pairwise (fun c c' : Cell => c.place ≤ c'.place) := by
  decide +kernel

theorem selectBestMove_best (heat : Heatmap) {b : Board} (some_free : ∃ c, b.Free c) :
    ∃ c, BestMove heat b c ∧ selectBestMove heat b = c.coord := by
  obtain ⟨free, is_free⟩ := some_free
  rcases foldl_betterMove_eq heat b allCells with ⟨c, max, eq⟩ | ⟨none, -⟩
  · refine ⟨c, ⟨max.passes, fun c' free' => ?_⟩, congrArg Prod.fst eq⟩
    refine (max.first allCells_sorted (mem_allCells c') free').imp_right fun same => ⟨same.1, ?_⟩
    exact same.2.elim (fun eq => eq ▸ le_rfl) id
  · exact absurd is_free (none free (mem_allCells free))

theorem selectBestMove_off {heat : Heatmap} {b : Board} :
    selectBestMove heat b = ⟨-1, -1⟩ ↔ ∀ c, ¬b.Free c := by
  constructor
  · intro off c free
    obtain ⟨best, -, eq⟩ := selectBestMove_best heat ⟨c, free⟩
    rw [off] at eq
    simp only [Cell.coord, Coordinate.mk.injEq] at eq
    omega
  · intro full
    rcases foldl_betterMove_eq heat b allCells with ⟨c, max, -⟩ | ⟨-, eq⟩
    · exact absurd max.passes (full c)
    · exact congrArg Prod.fst eq

/-- For the lengths the HARD opponent asks for no sum is cut off. -/
theorem generateHeatmap_hard (b : Board) : ∃ heat, generateHeatmap b hardShipLengths = some heat ∧
    ∀ c, heat.of c = b.heatSum hardShipLengths c := by
  obtain ⟨heat, defined, sums⟩ := heatAfter_exact b (heatSteps hardShipLengths).length
  rw [List.take_length] at defined sums
  refine ⟨heat, (generateHeatmap_eq b hardShipLengths_short).trans defined, fun c => ?_⟩
  exact (sums c).trans (heatTotal_heatSteps b hardShipLengths_short c)

/-- The heat map counts placements, without overflow for the lengths the HARD
opponent asks for, and its first hottest free cell is chosen. -/
theorem heatmap_counts (b : Board) :
    (∀ lengths : List Int, (∀ len ∈ lengths, 1 ≤ len ∧ len ≤ gridSize) →
      ∃ heat, generateHeatmap b lengths = some heat ∧ ∀ c, heat.of c = b.heatSum lengths c % 256) ∧
    (generateHeatmap b hardShipLengths = heatAfter b (heatSteps hardShipLengths) ∧
      ∀ k, ∃ heat, heatAfter b ((heatSteps hardShipLengths).take k) = some heat ∧
        ∀ c, heat.of c = heatTotal b ((heatSteps hardShipLengths).take k) c) ∧
    ∀ heat : Heatmap, (selectBestMove heat b = ⟨-1, -1⟩ ↔ ∀ c, ¬b.Free c) ∧
      ((∃ c, b.Free c) → ∃ c, BestMove heat b c ∧ selectBestMove heat b = c.coord) := by
  refine ⟨fun lengths short => ?_, ⟨generateHeatmap_eq b hardShipLengths_short,
    heatAfter_exact b⟩, fun heat => ⟨selectBestMove_off, selectBestMove_best heat⟩⟩
  refine ⟨_, (generateHeatmap_eq b short).trans
    (heatAfter_eq b fun step => heatSteps_inside short), fun c => ?_⟩
  rw [← heatTotal_heatSteps b short c]
  exact UInt8.toNat_ofNat'

end Battleship
