import Battleship.Fleet

/-!
# Guesses as shots

`apply_guess` on a player that represents a battle answers what the battle
answers, and leaves a player that represents the battle with one more shot.
-/
namespace Battleship
open Salvo

theorem scanCoords_spec (boat : Boat) (row col : Int) {is : List Nat} (small : ∀ i ∈ is, i < 5) :
    ∃ found, scanCoords boat row col is = some found ∧
      (found = true ↔ ∃ i ∈ is, boat.coordAt i = some ⟨row, col⟩) := by
  induction is with
  | nil => exact ⟨false, rfl, by simp⟩
  | cons i is ih =>
      obtain ⟨found, eq, iff⟩ := ih fun j hj => small j (List.mem_cons_of_mem i hj)
      have at_i : boat.coordAt i = some (boat.coords ⟨i, small i List.mem_cons_self⟩) :=
        dif_pos (small i List.mem_cons_self)
      simp only [scanCoords, at_i, Option.bind_eq_bind, Option.bind_some]
      by_cases here : boat.coords ⟨i, small i List.mem_cons_self⟩ = ⟨row, col⟩
      · exact ⟨true, if_pos here, by simp [at_i, here]⟩
      · refine ⟨found, by rw [if_neg here, eq], ?_⟩
        rw [iff]
        simp [at_i, here]

theorem Boat.mem_cells_coordAt {boat : Boat} {c : Cell} :
    c ∈ boat.cells ↔ ∃ i ∈ List.range boat.length.toNat, boat.coordAt i = some c.coord := by
  rw [Boat.mem_cells]
  constructor
  · rintro ⟨i, hi, at_i⟩
    exact ⟨i, List.mem_range.mpr (by omega), by rw [Boat.coordAt, dif_pos i.isLt, at_i]⟩
  · rintro ⟨i, hi, at_i⟩
    have below := List.mem_range.mp hi
    rw [Boat.coordAt] at at_i
    split at at_i
    · rename_i small
      exact ⟨⟨i, small⟩, by simp only; omega, Option.some.inj at_i⟩
    · cases at_i

theorem scanCoords_cells {boat : Boat} (small : boat.length ≤ 5) (c : Cell) :
    ∃ found, scanCoords boat c.coord.row c.coord.col (List.range boat.length.toNat) = some found ∧
      (found = true ↔ c ∈ boat.cells) := by
  have inside : ∀ i ∈ List.range boat.length.toNat, i < 5 := by
    intro i hi
    rw [List.mem_range] at hi
    omega
  obtain ⟨found, eq, iff⟩ := scanCoords_spec boat c.coord.row c.coord.col inside
  exact ⟨found, eq, iff.trans Boat.mem_cells_coordAt.symm⟩

/-- A search that returns tells whether the cell is one of the boat's. -/
theorem scanCoords_mem {boat : Boat} {c : Cell} {found : Bool}
    (h : scanCoords boat c.coord.row c.coord.col (List.range boat.length.toNat) = some found) :
    found = true ↔ c ∈ boat.cells := by
  rw [Boat.mem_cells_coordAt]
  revert h
  generalize List.range boat.length.toNat = is
  intro h
  induction is with
  | nil =>
      cases h
      simp
  | cons i is ih =>
      obtain ⟨at_i, coord, h⟩ := Option.bind_eq_some_iff.mp h
      split at h
      · rename_i here
        cases h
        exact iff_of_true rfl ⟨i, List.mem_cons_self, coord.trans (congrArg some here)⟩
      · rename_i elsewhere
        rw [ih h, List.exists_mem_cons_iff, coord, Option.some.injEq]
        exact (or_iff_right elsewhere).symm

theorem findBoat_spec {p : Player} (c : Cell) {bs : List Nat}
    (small : ∀ b ∈ bs, ∃ h : b < maxShips, (p.boats ⟨b, h⟩).length ≤ 5) :
    (findBoat p c.coord.row c.coord.col bs = some none ∧
      ∀ b : Fin maxShips, b.val ∈ bs → c ∉ (p.boats b).cells) ∨
    ∃ b : Fin maxShips, b.val ∈ bs ∧ c ∈ (p.boats b).cells ∧
      findBoat p c.coord.row c.coord.col bs = some (some b.val) := by
  induction bs with
  | nil => exact .inl ⟨rfl, fun b hb => absurd hb List.not_mem_nil⟩
  | cons b bs ih =>
      obtain ⟨hb, length⟩ := small b List.mem_cons_self
      obtain ⟨found, scan, iff⟩ := scanCoords_cells length c
      have first : findBoat p c.coord.row c.coord.col (b :: bs) =
          if found = true then some (some b) else findBoat p c.coord.row c.coord.col bs := by
        simp only [findBoat, Player.boatAt, dif_pos hb, Option.bind_eq_bind, Option.bind_some,
          scan, Option.pure_def]
      rw [first]
      by_cases here : found = true
      · exact .inr ⟨⟨b, hb⟩, List.mem_cons_self, iff.mp here, if_pos here⟩
      · rw [if_neg here]
        rcases ih fun b' hb' => small b' (List.mem_cons_of_mem b hb') with
          ⟨eq, none⟩ | ⟨b', member, claims, eq⟩
        · refine .inl ⟨eq, fun b' hb' => ?_⟩
          rcases List.mem_cons.mp hb' with rfl | later
          · exact fun claims => here (iff.mpr claims)
          · exact none b' later
        · exact .inr ⟨b', List.mem_cons_of_mem b member, claims, eq⟩

/-- What the search of `apply_guess` returns, if it returns. -/
theorem findBoat_found {p : Player} {c : Cell} {bs : List Nat} {found : Option Nat}
    (h : findBoat p c.coord.row c.coord.col bs = some found) :
    (found = none → ∀ b : Fin maxShips, b.val ∈ bs → c ∉ (p.boats b).cells) ∧
      ∀ n, found = some n → ∃ b : Fin maxShips, b.val = n ∧ n ∈ bs ∧ c ∈ (p.boats b).cells := by
  induction bs with
  | nil =>
      cases h
      exact ⟨fun _ b hb => absurd hb List.not_mem_nil, fun n eq => by cases eq⟩
  | cons n bs ih =>
      obtain ⟨boat, slot, searched⟩ := Option.bind_eq_some_iff.mp h
      obtain ⟨here, scan, rest⟩ := Option.bind_eq_some_iff.mp searched
      clear searched
      rw [Player.boatAt] at slot
      split at slot
      · rename_i small
        obtain rfl := Option.some.inj slot
        have claims := scanCoords_mem scan
        split at rest
        · rename_i is_here
          cases rest
          refine ⟨fun eq => (by cases eq), fun n' eq => ?_⟩
          cases eq
          exact ⟨⟨n, small⟩, rfl, List.mem_cons_self, claims.mp is_here⟩
        · rename_i elsewhere
          obtain ⟨none, some⟩ := ih rest
          refine ⟨fun eq b hb => ?_, fun n' eq => ?_⟩
          · rcases List.mem_cons.mp hb with rfl | later
            · exact fun member => elsewhere (claims.mpr member)
            · exact none eq b later
          · obtain ⟨b, rfl, later, member⟩ := some n' eq
            exact ⟨b, rfl, List.mem_cons_of_mem n later, member⟩
      · cases slot

/-- The search finds the ship of a cell. -/
theorem findBoat_owner {p : Player} {B : Battle (Fin maxShips) Cell} (h : p.Represents B) {c : Cell}
    {i : Fin maxShips} (hi : c ∈ B.ships i) {q : Player} (boats : q.boats = p.boats) :
    findBoat q c.coord.row c.coord.col (List.range p.boatCount) = some (some i.val) := by
  have small : ∀ b ∈ List.range p.boatCount, ∃ hb : b < maxShips, (q.boats ⟨b, hb⟩).length ≤ 5 := by
    intro b hb
    have used := List.mem_range.mp hb
    rw [boats]
    exact ⟨lt_of_lt_of_le used h.count, (h.sound ⟨b, lt_of_lt_of_le used h.count⟩ used).length_le⟩
  have claims : c ∈ (q.boats i).cells := by
    rw [boats, ← h.ships_of_lt (h.used hi)]
    exact hi
  rcases findBoat_spec c small with ⟨-, none⟩ | ⟨b, used, member, eq⟩
  · exact absurd claims (none i (List.mem_range.mpr (h.used hi)))
  · rw [boats, ← h.ships_of_lt (List.mem_range.mp used)] at member
    rw [eq, B.owner_unique member hi]

def Board.withSunk (b : Board) (boat : Boat) (n : Nat) : Board :=
  { b with cells := fun r c =>
      if ∃ i : Fin 5, i.val < n ∧ boat.coords i = Cell.coord (r, c) then .sunk else b.cells r c }

theorem sinkCells_append (boat : Boat) (is js : List Nat) (b : Board) :
    sinkCells boat (is ++ js) b = (sinkCells boat is b).bind (sinkCells boat js) := by
  induction is generalizing b with
  | nil => rfl
  | cons i is ih => simp only [List.cons_append, sinkCells, Option.bind_eq_bind, Option.bind_assoc, ih]

theorem withSunk_succ {b : Board} {boat : Boat} {n : Nat} (hn : n < 5) {c : Cell}
    (h : boat.coords ⟨n, hn⟩ = c.coord) :
    (b.withSunk boat n).set c.1 c.2 .sunk = b.withSunk boat (n + 1) := by
  simp only [Board.set, Board.withSunk, Board.mk.injEq, and_true]
  funext r c'
  have grown : (∃ i : Fin 5, i.val < n + 1 ∧ boat.coords i = Cell.coord (r, c')) ↔
      (r = c.1 ∧ c' = c.2) ∨ ∃ i : Fin 5, i.val < n ∧ boat.coords i = Cell.coord (r, c') := by
    constructor
    · rintro ⟨i, hi, eq⟩
      by_cases last : i = ⟨n, hn⟩
      · subst last
        have same := Cell.coord_injective (eq.symm.trans h)
        exact .inl ⟨congrArg Prod.fst same, congrArg Prod.snd same⟩
      · have other : i.val ≠ n := fun eq => last (Fin.ext eq)
        exact .inr ⟨i, by omega, eq⟩
    · rintro (⟨rfl, rfl⟩ | ⟨i, hi, eq⟩)
      · exact ⟨⟨n, hn⟩, Nat.lt_succ_self n, h⟩
      · exact ⟨i, by omega, eq⟩
  simp only [grown]
  by_cases new : r = c.1 ∧ c' = c.2
  · simp [new]
  · simp [new]

theorem sinkCells_range {boat : Boat} {n : Nat} (hn : n ≤ 5)
    (inside : ∀ i : Fin 5, i.val < n → InGrid (boat.coords i)) (b : Board) :
    sinkCells boat (List.range n) b = some (b.withSunk boat n) := by
  induction n with
  | zero => simp [sinkCells, Board.withSunk]
  | succ n ih =>
      obtain ⟨c, hc⟩ := inside ⟨n, by omega⟩ (Nat.lt_succ_self n)
      have before := ih (by omega) fun i hi => inside i (by omega)
      rw [List.range_succ, sinkCells_append, before]
      simp only [Option.bind_some, sinkCells, Option.bind_eq_bind, Boat.coordAt,
        dif_pos (show n < 5 by omega), ← hc, Board.write_coord, withSunk_succ _ hc.symm]

/-- A sound boat is sunk on all of its cells and nowhere else. -/
theorem sinkCells_sound {boat : Boat} (h : boat.Sound) (b : Board) :
    ∃ b', sinkCells boat (List.range boat.length.toNat) b = some b' ∧ b'.isOpp = b.isOpp ∧
      ∀ c : Cell, b'.cells c.1 c.2 = if c ∈ boat.cells then .sunk else b.cells c.1 c.2 := by
  have small := h.length_le
  refine ⟨_, sinkCells_range (by omega) (fun i hi => h.inGrid i (by omega)) b, rfl, fun c => ?_⟩
  have same : (∃ i : Fin 5, i.val < boat.length.toNat ∧ boat.coords i = c.coord) ↔
      c ∈ boat.cells := by
    rw [Boat.mem_cells]
    exact exists_congr fun i => and_congr_left fun _ => by omega
  simp only [Board.withSunk, Prod.mk.eta, same]

/-- Sinking a boat writes its own cells only. -/
theorem sinkCells_outside {boat : Boat} {b b' : Board}
    (h : sinkCells boat (List.range boat.length.toNat) b = some b') {c : Cell}
    (outside : c ∉ boat.cells) : b'.cells c.1 c.2 = b.cells c.1 c.2 := by
  rw [Boat.mem_cells_coordAt] at outside
  revert h outside
  generalize List.range boat.length.toNat = is
  intro h outside
  induction is generalizing b with
  | nil =>
      cases h
      rfl
  | cons i is ih =>
      obtain ⟨at_i, coord, h⟩ := Option.bind_eq_some_iff.mp h
      obtain ⟨b₁, written, h⟩ := Option.bind_eq_some_iff.mp h
      obtain ⟨j, row, written⟩ := Option.bind_eq_some_iff.mp written
      obtain ⟨k, col, written⟩ := Option.bind_eq_some_iff.mp written
      cases written
      have other : ¬(c.1 = j ∧ c.2 = k) := by
        rintro ⟨rfl, rfl⟩
        refine outside ⟨i, List.mem_cons_self, coord.trans (congrArg some ?_)⟩
        calc at_i = ⟨at_i.row, at_i.col⟩ := rfl
          _ = c.coord := by rw [gridIndex_eq_some.mp row, gridIndex_eq_some.mp col]; rfl
      rw [ih h fun claimed => outside (claimed.imp fun _ => .imp_left (.tail i)), Board.set_cells,
        if_neg other]

/-- The boats lie where they lay. -/
structure Player.SameFleet (p p' : Player) : Prop where
  count : p'.boatCount = p.boatCount
  isOpp : p'.board.isOpp = p.board.isOpp
  length : ∀ b, (p'.boats b).length = (p.boats b).length
  coords : ∀ b, (p'.boats b).coords = (p.boats b).coords

theorem Player.SameFleet.refl (p : Player) : p.SameFleet p :=
  ⟨rfl, rfl, fun _ => rfl, fun _ => rfl⟩

theorem Player.SameFleet.cells {p p' : Player} (h : p.SameFleet p') (b : Fin maxShips) :
    (p'.boats b).cells = (p.boats b).cells := by
  simp only [Boat.cells, h.length b, h.coords b]

theorem Player.SameFleet.sound {p p' : Player} (h : p.SameFleet p') {b : Fin maxShips}
    (sound : (p.boats b).Sound) : (p'.boats b).Sound := by
  constructor
  · rw [h.length b]
    exact sound.nonneg
  · rw [h.length b]
    exact sound.length_le
  · rw [h.length b, h.coords b]
    exact sound.inGrid
  · rw [h.length b, h.coords b]
    exact sound.distinct

theorem Player.SameFleet.straight {p p' : Player} (h : p.SameFleet p') {b : Fin maxShips}
    (straight : (p.boats b).Straight) : (p'.boats b).Straight := by
  obtain ⟨row, col, horizontal, coords⟩ := straight
  refine ⟨row, col, horizontal, fun i below => ?_⟩
  rw [h.length] at below
  rw [h.coords]
  exact coords i below

theorem countHit_sameFleet (p : Player) (i j : Fin gridSize) (v : CellState) (b : Fin maxShips) :
    p.SameFleet ((p.mark i j v).countHit b) := by
  refine ⟨rfl, rfl, fun b' => ?_, fun b' => ?_⟩ <;>
  · by_cases same : b' = b
    · subst same
      simp [Player.countHit, Player.mark, Boat.countHit]
    · simp [Player.countHit, Player.mark, Function.update_of_ne same]

def GuessResult.ofVerdict : Verdict → GuessResult
  | .miss => .miss
  | .hit => .hit
  | .sunk => .sunk
  | .again => .rejected

/-- What the guess `e` has to be for the battle with this shot. -/
structure FiresAt (p : Player) (B : Battle (Fin maxShips) Cell) (c : Cell)
    (e : Player × GuessResult × Option Nat) : Prop where
  represents : e.1.Represents (B.fire c)
  sameFleet : p.SameFleet e.1
  result : e.2.1 = .ofVerdict (B.verdict c)

theorem FiresAt.rejected_iff {p : Player} {B : Battle (Fin maxShips) Cell} {c : Cell}
    {e : Player × GuessResult × Option Nat} (h : FiresAt p B c e) :
    e.2.1 = .rejected ↔ B.verdict c = .again := by
  rw [h.result]
  cases B.verdict c <;> simp [GuessResult.ofVerdict]

section Fire
variable {p : Player} {B : Battle (Fin maxShips) Cell} (h : p.Represents B) {c : Cell}
include h

/-- A battle with the same ships and one more shot is represented by the same
boats, once the counters and the grid have followed. -/
theorem represents_fire {p' : Player} (same : p.SameFleet p')
    (hits : ∀ b : Fin maxShips, b.val < p.boatCount → (p'.boats b).hitCount = (B.fire c).hits b)
    (board : ∀ x : Cell, p'.board.cells x.1 x.2 = .ofMark ((B.fire c).mark x)) :
    p'.Represents (B.fire c) := by
  refine ⟨?_, ?_, ?_, ?_, board⟩
  · rw [same.count]
    exact h.count
  · intro b hb
    exact same.sound (h.sound b (same.count ▸ hb))
  · intro b
    rw [B.fire_ships, h.ships b, same.count, same.cells b]
  · intro b hb
    exact hits b (same.count ▸ hb)

theorem guessCell_again (shot : c ∈ B.shots) :
    ∃ e, guessCell p c.coord.row c.coord.col = some e ∧ FiresAt p B c e := by
  have not_ship : p.board.cells c.1 c.2 ≠ .ship := fun eq => (h.ship_iff.mp eq).2 shot
  have not_empty : p.board.cells c.1 c.2 ≠ .empty := fun eq => (h.empty_iff.mp eq).2 shot
  refine ⟨(p, .rejected, none), ?_, ?_, .refl p, ?_⟩
  · simp only [guessCell, Board.read_coord, Option.bind_eq_bind, Option.bind_some,
      if_neg not_ship, if_neg not_empty]
    rfl
  · rw [B.fire_again shot]
    exact h
  · rw [B.verdict_again shot]
    rfl

theorem guessCell_water (fresh : c ∉ B.shots) (water : ∀ b, c ∉ B.ships b) :
    ∃ e, guessCell p c.coord.row c.coord.col = some e ∧ FiresAt p B c e := by
  have empty : p.board.cells c.1 c.2 = .empty := h.empty_iff.mpr ⟨water, fresh⟩
  refine ⟨(p.mark c.1 c.2 .miss, .miss, none), ?_, ?_, ⟨rfl, rfl, fun _ => rfl, fun _ => rfl⟩, ?_⟩
  · simp only [guessCell, Board.read_coord, Option.bind_eq_bind, Option.bind_some, empty,
      Board.write_coord, reduceCtorEq, if_false, if_true]
    rfl
  · refine represents_fire h ⟨rfl, rfl, fun _ => rfl, fun _ => rfl⟩ (fun b hb => ?_) fun x => ?_
    · rw [B.fire_hits_of_not_mem (water b)]
      exact h.hits b hb
    · rw [B.fire_mark_miss water x]
      by_cases same : x = c
      · subst same
        simp [Player.mark, CellState.ofMark]
      · have other : ¬(x.1 = c.1 ∧ x.2 = c.2) := fun eq => same (Prod.ext eq.1 eq.2)
        simp only [Player.mark, Board.set_cells, if_neg other, if_neg same]
        exact h.board x
  · rw [B.verdict_miss fresh water]
    rfl

section Struck
variable {b : Fin maxShips} (hb : c ∈ B.ships b) (fresh : c ∉ B.shots)
include hb fresh

theorem struck_hits {b' : Fin maxShips} (used : b'.val < p.boatCount) :
    (((p.mark c.1 c.2 .hit).countHit b).boats b').hitCount = (B.fire c).hits b' := by
  by_cases same : b' = b
  · subst same
    rw [B.fire_hits_of_mem hb fresh]
    simp [Player.countHit, Player.mark, Boat.countHit, h.hits b' used]
  · have other : c ∉ B.ships b' := fun hb' => same (B.owner_unique hb' hb)
    rw [B.fire_hits_of_not_mem other]
    simp [Player.countHit, Player.mark, Function.update_of_ne same, h.hits b' used]

/-- The counter reaches the length with the shot that sinks the ship. -/
theorem struck_sunk_iff : (p.boats b).hitCount + 1 = (p.boats b).length ↔ (B.fire c).Sunk b := by
  have used := h.used hb
  rw [← (B.fire c).hits_eq_card_iff b, B.fire_hits_of_mem hb fresh, h.hits b used, B.fire_ships,
    ← h.card_ships used]
  exact Int.natCast_inj

omit hb fresh in
theorem struck_cells (x : Cell) : ((p.mark c.1 c.2 .hit).countHit b).board.cells x.1 x.2 =
    if x = c then .hit else .ofMark (B.mark x) := by
  by_cases eq : x = c
  · subst eq
    simp [Player.countHit, Player.mark]
  · have other : ¬(x.1 = c.1 ∧ x.2 = c.2) := fun both => eq (Prod.ext both.1 both.2)
    simp only [Player.countHit, Player.mark, Board.set_cells, if_neg other, if_neg eq]
    exact h.board x

theorem guessCell_owned :
    guessCell p c.coord.row c.coord.col = hitBoat (p.mark c.1 c.2 .hit) b := by
  have ship : p.board.cells c.1 c.2 = .ship := h.ship_iff.mpr ⟨⟨b, hb⟩, fresh⟩
  have found := findBoat_owner h hb (q := p.mark c.1 c.2 .hit) rfl
  simp only [guessCell, Board.read_coord, Option.bind_eq_bind, Option.bind_some, ship,
    Board.write_coord, if_true]
  rw [show ({ p with board := p.board.set c.1 c.2 .hit } : Player) = p.mark c.1 c.2 .hit from rfl,
    found]
  rfl

theorem guessCell_afloat (afloat : ¬(B.fire c).Sunk b) :
    ∃ e, guessCell p c.coord.row c.coord.col = some e ∧ FiresAt p B c e := by
  have same := countHit_sameFleet p c.1 c.2 .hit b
  have more : ¬(p.boats b).hitCount + 1 = (p.boats b).length :=
    fun last => afloat ((struck_sunk_iff h hb fresh).mp last)
  refine ⟨((p.mark c.1 c.2 .hit).countHit b, .hit, none), ?_, ?_, same, ?_⟩
  · rw [guessCell_owned h hb fresh, hitBoat_slot]
    exact if_neg more
  · refine represents_fire h same (fun _ used => struck_hits h hb fresh used) fun x => ?_
    rw [B.fire_mark_ship hb fresh x, if_neg afloat, struck_cells h x]
    by_cases eq : x = c
    · rw [if_pos eq, if_pos eq]
      rfl
    · rw [if_neg eq, if_neg eq]
  · rw [B.verdict_of_mem fresh hb, if_neg afloat]
    rfl

theorem guessCell_sinks (sunk : (B.fire c).Sunk b) :
    ∃ e, guessCell p c.coord.row c.coord.col = some e ∧ FiresAt p B c e := by
  have used := h.used hb
  have counted := countHit_sameFleet p c.1 c.2 .hit b
  have last : (p.boats b).hitCount + 1 = (p.boats b).length := (struck_sunk_iff h hb fresh).mpr sunk
  have sound : (p.boats b).countHit.Sound :=
    ⟨(h.sound b used).nonneg, (h.sound b used).length_le, (h.sound b used).inGrid,
      (h.sound b used).distinct⟩
  obtain ⟨board, sinks, isOpp, cells⟩ :=
    sinkCells_sound sound ((p.mark c.1 c.2 .hit).countHit b).board
  have same : p.SameFleet { (p.mark c.1 c.2 .hit).countHit b with board := board } :=
    ⟨counted.count, isOpp, counted.length, counted.coords⟩
  refine ⟨({ (p.mark c.1 c.2 .hit).countHit b with board := board }, .sunk, some b.val), ?_, ?_,
    same, ?_⟩
  · rw [guessCell_owned h hb fresh, hitBoat_slot]
    exact (if_pos last).trans (congrArg (Option.map _) sinks)
  · refine represents_fire h same (fun _ used => struck_hits h hb fresh used) fun x => ?_
    have owned : x ∈ (p.boats b).countHit.cells ↔ x ∈ B.ships b := by
      rw [h.ships_of_lt used]
      rfl
    rw [B.fire_mark_ship hb fresh x, if_pos sunk, cells x, struck_cells h x]
    by_cases inside : x ∈ B.ships b
    · rw [if_pos (owned.mpr inside), if_pos inside]
      rfl
    · have other : x ≠ c := fun eq => inside (eq ▸ hb)
      rw [if_neg (fun hx => inside (owned.mp hx)), if_neg inside, if_neg other]
  · rw [B.verdict_of_mem fresh hb, if_pos sunk]
    rfl

end Struck

/-- A guess on the grid is a shot of the battle. -/
theorem guessCell_fire (c : Cell) :
    ∃ e, guessCell p c.coord.row c.coord.col = some e ∧ FiresAt p B c e := by
  by_cases shot : c ∈ B.shots
  · exact guessCell_again h shot
  · by_cases owned : ∃ b, c ∈ B.ships b
    · obtain ⟨b, hb⟩ := owned
      by_cases sunk : (B.fire c).Sunk b
      · exact guessCell_sinks h hb shot sunk
      · exact guessCell_afloat h hb shot sunk
    · exact guessCell_water h shot fun b hb => owned ⟨b, hb⟩

end Fire

end Battleship
