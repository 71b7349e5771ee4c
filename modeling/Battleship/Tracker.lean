import Battleship.Aiming
import Battleship.Consistency
import Battleship.LegalFleet
import Mathlib.Algebra.BigOperators.Fin

/-!
# The tracker's hits

The tracker collects the hits and forgets them when a ship sinks. Ships of 4, 3
and 2 cells can take six hits without sinking, one more than it has room for.
Here its list has no bound, and the runs say when it outgrows the array.
-/
namespace Battleship
open Cooperative Runs Salvo

/-- What an opponent's turn finds: a difficulty and a random source. -/
structure Turn where
  difficulty : Difficulty
  rng : Rng

def Mem.atTurn (m : Mem) (t : Turn) : Mem :=
  { m with game := { m.game with difficulty := t.difficulty }, rng := t.rng }

def boundedStep (lim : Limits) (m : Mem) (t : Turn) : Option Mem :=
  Outcome.memory (Prog.exec (answer none) (opponentMove lim) (m.atTurn t))

/-- A turn whose tracker has a list without a bound. -/
def turnStep (fuel : Nat) (m : Mem) (t : Turn) : Option Mem := boundedStep ⟨fuel, none⟩ m t

/-- The guess of this turn, with the tracker as `ai_update_smart` finds it. -/
def turnGuess (fuel : Nat) (m : Mem) (t : Turn) : Outcome (Coordinate × AiState × Rng) :=
  engineGetGuess fuel t.difficulty m.aiGuessBoard m.smartAiState t.rng

/-- A consistent fleet of 4, 3, 2 and 1 cells, and a tracker without hits. -/
structure FreshTracker (m : Mem) : Prop where
  consistent : m.game.player.Consistent
  count : m.game.player.boatCount = maxShips
  lengths : m.game.player.lengths.Perm shipLengths
  tracker : m.smartAiState = aiResetSmart

/-- A hit on a ship of two cells or more that leaves each such ship with one
cell not hit, while the tracker still has every hit before it. -/
structure Crowded (p : Player) (st : AiState) (c : Cell) : Prop where
  fresh : p.board.cells c.1 c.2 = .ship
  strikes : ∃ b, (p.boats b).length ≠ 1 ∧ c ∈ (p.boats b).cells
  lacksOne : ∀ b, (p.boats b).length ≠ 1 →
    (p.boats b).hitCount + (if c ∈ (p.boats b).cells then 1 else 0) = (p.boats b).length - 1
  tracked : ∀ x : Cell, p.board.cells x.1 x.2 = .hit → x.coord ∈ st.hits

/-- The guess of this turn does not crowd the fleet. -/
def Uncrowded (fuel : Nat) (m : Mem) (t : Turn) : Prop :=
  ∀ g (c : Cell), turnGuess fuel m t = .done g → g.1 = c.coord →
    ¬Crowded m.game.player g.2.1 c

/-- Four boats of 4, 3, 2 and 1 cells that are this battle. -/
structure Player.FullFleet (p : Player) (B : Battle (Fin maxShips) Cell) : Prop where
  represents : p.Represents B
  count : p.boatCount = maxShips
  lengths : p.lengths.Perm shipLengths

namespace Player.FullFleet
variable {p : Player} {B : Battle (Fin maxShips) Cell} (h : p.FullFleet B)
include h

theorem used (b : Fin maxShips) : b.val < p.boatCount := by
  rw [h.count]
  exact b.isLt

theorem cells (b : Fin maxShips) : B.ships b = (p.boats b).cells :=
  h.represents.ships_of_lt (h.used b)

theorem card (b : Fin maxShips) : ((B.ships b).card : Int) = (p.boats b).length :=
  h.represents.card_ships (h.used b)

theorem length_mem (b : Fin maxShips) : (p.boats b).length ∈ shipLengths :=
  h.lengths.subset (List.mem_map.mpr ⟨b, List.mem_finRange b, rfl⟩)

/-- The fleet can be hit six times without losing a ship. -/
theorem room : ∑ b, ((B.ships b).card - 1) = 6 := by
  have each : ∀ b, (B.ships b).card - 1 = (p.boats b).length.toNat - 1 := by
    intro b
    rw [← h.card b]
    simp
  have sorted := (h.lengths.map (fun l : Int => l.toNat - 1)).sum_eq
  calc ∑ b, ((B.ships b).card - 1)
      = ∑ b : Fin maxShips, ((p.boats b).length.toNat - 1) :=
        Finset.sum_congr rfl fun b _ => each b
    _ = (p.lengths.map (fun l : Int => l.toNat - 1)).sum := by
        rw [Player.lengths, List.map_map, Fin.sum_univ_def]
        rfl
    _ = 6 := sorted

end Player.FullFleet

/-- The tracker holds different cells, all marked hit. -/
structure Tracked (p : Player) (st : AiState) : Prop where
  aimed : st.Aimed
  nodup : st.hits.Nodup
  marked : ∀ h ∈ st.hits, ∃ c : Cell, h = c.coord ∧ p.board.cells c.1 c.2 = .hit

theorem reset_tracked (p : Player) : Tracked p aiResetSmart :=
  ⟨aiResetSmart_aimed, List.nodup_nil, fun _ hh => absurd hh List.not_mem_nil⟩

/-- The cells that the tracker holds. -/
def AiState.cells (st : AiState) : Finset Cell := Finset.univ.filter (fun x => x.coord ∈ st.hits)

theorem AiState.mem_cells {st : AiState} {x : Cell} : x ∈ st.cells ↔ x.coord ∈ st.hits := by
  simp [AiState.cells]

theorem Tracked.card_cells {p : Player} {st : AiState} (h : Tracked p st) :
    st.cells.card = st.hitCount := by
  have image : st.cells.image Cell.coord = st.hits.toFinset := by
    ext x
    rw [Finset.mem_image, List.mem_toFinset]
    constructor
    · rintro ⟨c, hc, rfl⟩
      exact AiState.mem_cells.mp hc
    · intro hx
      obtain ⟨c, rfl, -⟩ := h.marked x hx
      exact ⟨c, AiState.mem_cells.mpr hx, rfl⟩
  rw [← Finset.card_image_of_injective _ Cell.coord_injective, image,
    List.toFinset_card_of_nodup h.nodup, AiState.hitCount]

section Crowd
variable {p : Player} {B : Battle (Fin maxShips) Cell} (full : p.FullFleet B) {st : AiState}
  (tracked : Tracked p st) {c : Cell} (hit : B.verdict c = .hit)
include full

theorem hit_iff_wound {x : Cell} : p.board.cells x.1 x.2 = .hit ↔ x ∈ B.wounds := by
  rw [B.mem_wounds]
  exact full.represents.cell_iff x .hit

include tracked in
theorem cells_subset_wounds : st.cells ⊆ B.wounds := by
  intro x hx
  obtain ⟨c, eq, marked⟩ := tracked.marked x.coord (AiState.mem_cells.mp hx)
  cases Cell.coord_injective eq
  exact (hit_iff_wound full).mp marked

include hit

omit full in
/-- A hit that sinks nothing is one more wound. -/
theorem fire_wounds : (B.fire c).wounds = insert c B.wounds := by
  obtain ⟨fresh, i, hi, afloat⟩ := B.verdict_hit_iff.mp hit
  ext x
  rw [Finset.mem_insert, Battle.mem_wounds, Battle.mem_wounds, B.fire_mark_ship hi fresh x,
    if_neg afloat]
  by_cases same : x = c
  · simp [same]
  · simp [same]

omit full in
theorem fire_wounds_card : (B.fire c).wounds.card = B.wounds.card + 1 := by
  obtain ⟨fresh, -⟩ := B.verdict_hit_iff.mp hit
  rw [fire_wounds hit, Finset.card_insert_of_notMem]
  intro wound
  exact fresh (B.mark_eq_hit.mp (B.mem_wounds.mp wound)).1

omit hit in
theorem fire_room : ∑ b, (((B.fire c).ships b).card - 1) = 6 := full.room

/-- Both sides count the hits of a boat with this one. -/
theorem fire_hits (b : Fin maxShips) : ((B.fire c).hits b : Int) =
    (p.boats b).hitCount + (if c ∈ (p.boats b).cells then 1 else 0) := by
  obtain ⟨fresh, -⟩ := B.verdict_hit_iff.mp hit
  rw [full.represents.hits b (full.used b), ← full.cells b]
  by_cases hb : c ∈ B.ships b
  · rw [B.fire_hits_of_mem hb fresh, if_pos hb]
    rfl
  · rw [B.fire_hits_of_not_mem hb, if_neg hb]
    simp

include tracked

theorem crowded_of_full (five : 5 ≤ st.hitCount) : Crowded p st c := by
  obtain ⟨fresh, i, hi, afloat⟩ := B.verdict_hit_iff.mp hit
  have subset := cells_subset_wounds full tracked
  have least : 5 ≤ st.cells.card := tracked.card_cells ▸ five
  have most : B.wounds.card + 1 ≤ 6 := by
    rw [← fire_wounds_card hit, ← fire_room full]
    exact (B.fire c).card_wounds_le
  have all : st.cells = B.wounds := Finset.eq_of_subset_of_card_le subset (by omega)
  have lacks : ∀ b, (B.fire c).unsunkHits b = (B.ships b).card - 1 := by
    refine (B.fire c).lacks_one_of_card_wounds ?_
    rw [fire_room full, fire_wounds_card hit, ← all]
    omega
  refine ⟨full.represents.ship_iff.mpr ⟨⟨i, hi⟩, fresh⟩, ⟨i, ?_, full.cells i ▸ hi⟩, ?_, ?_⟩
  · intro one
    have single : (B.ships i).card = 1 := by
      have card := full.card i
      omega
    have last := lacks i
    rw [Battle.unsunkHits, if_neg afloat, B.fire_hits_of_mem hi fresh, single] at last
    omega
  · intro b long
    have card := full.card b
    have listed := full.length_mem b
    simp only [shipLengths, List.mem_cons, List.not_mem_nil, or_false] at listed
    have up := lacks b
    rw [Battle.unsunkHits] at up
    have floats : ¬(B.fire c).Sunk b := by
      intro sunk
      rw [if_pos sunk] at up
      omega
    rw [if_neg floats] at up
    rw [← fire_hits full hit b]
    omega
  · intro x marked
    have wound := (hit_iff_wound full).mp marked
    rw [← all] at wound
    exact AiState.mem_cells.mp wound

theorem full_of_crowded (crowded : Crowded p st c) : 5 ≤ st.hitCount := by
  have subset : B.wounds ⊆ st.cells := fun x wound =>
    AiState.mem_cells.mpr (crowded.tracked x ((hit_iff_wound full).mpr wound))
  have each : ∀ b, (B.ships b).card - 1 = (B.fire c).unsunkHits b := by
    intro b
    have card := full.card b
    have le : (B.fire c).unsunkHits b ≤ (B.ships b).card - 1 := (B.fire c).unsunkHits_le b
    by_cases one : (p.boats b).length = 1
    · omega
    · have listed := full.length_mem b
      simp only [shipLengths, List.mem_cons, List.not_mem_nil, or_false] at listed
      have counted := fire_hits full hit b
      have lacks := crowded.lacksOne b one
      have floats : ¬(B.fire c).Sunk b := by
        intro sunk
        have eq := ((B.fire c).hits_eq_card_iff b).mpr sunk
        rw [B.fire_ships] at eq
        omega
      rw [Battle.unsunkHits, if_neg floats]
      omega
  have six : (B.fire c).wounds.card = 6 := by
    rw [(B.fire c).card_wounds, ← full.room]
    exact Finset.sum_congr rfl fun b _ => (each b).symm
  have five := Finset.card_le_card subset
  rw [tracked.card_cells] at five
  rw [fire_wounds_card hit] at six
  omega

/-- The list is full at a hit exactly when the hit crowds the fleet. -/
theorem crowded_iff : Crowded p st c ↔ ¬st.hitCount < hitsSize := by
  rw [not_lt]
  exact ⟨full_of_crowded full tracked hit, crowded_of_full full tracked hit⟩

end Crowd

theorem engineUpdate_unbounded {size : Option Nat} {st : AiState} {b : Board} {row col : Int}
    {result : GuessResult} {ai : AiState × Board}
    (h : engineUpdateSmartAi size st b row col result = some ai) :
    engineUpdateSmartAi none st b row col result = some ai := by
  cases result with
  | hit =>
      cases room : hasRoom size st with
      | false => simp [engineUpdateSmartAi, aiUpdateSmart, room] at h
      | true =>
          rw [engineUpdateSmartAi, aiUpdateSmart, if_pos room] at h
          exact h
  | sunk => exact h
  | miss => exact h
  | rejected => exact h

/-- A bound on the tracker's list only takes turns away. -/
theorem boundedStep_unbounded {lim : Limits} {m m' : Mem} {t : Turn}
    (h : boundedStep lim m t = some m') : turnStep lim.fuel m t = some m' := by
  obtain ⟨u, done⟩ := Outcome.memory_some h
  obtain ⟨g, r, ai, guess, struck, updated, -⟩ := opponentMove_moves done
  have free : engineUpdateSmartAi none g.2.1 (m.atTurn t).aiGuessBoard g.1.row g.1.col r.2.1 =
      some ai := engineUpdate_unbounded updated
  have same : Prog.exec (answer none) (opponentMove ⟨lim.fuel, none⟩) (m.atTurn t) =
      Prog.exec (answer none) (opponentMove lim) (m.atTurn t) := by
    rw [exec_opponentMove, exec_opponentMove, guess, Outcome.bind_done, Outcome.bind_done, struck,
      Outcome.ofOption_some, Outcome.bind_done, Outcome.bind_done, updated, free]
  rw [turnStep, boundedStep, same, done]
  rfl

/-- What a turn does to the fleet, the tracker and the guess board. -/
theorem turnStep_moves {fuel : Nat} {m m' : Mem} {t : Turn} (h : turnStep fuel m t = some m') :
    ∃ g e, turnGuess fuel m t = .done g ∧ guessCell m.game.player g.1.row g.1.col = some e ∧
      m'.game.player = e.1 ∧
      aiUpdateSmart none g.2.1 g.1.row g.1.col e.2.1 = some m'.smartAiState ∧
      recordGuess m.aiGuessBoard g.1.row g.1.col e.2.1 = some m'.aiGuessBoard := by
  obtain ⟨u, done⟩ := Outcome.memory_some h
  obtain ⟨g, e, ai, guess, struck, updated, player, tracker, board⟩ := opponentMove_moves done
  obtain ⟨tracked, recorded⟩ := engineUpdate_parts updated
  exact ⟨g, e, guess, struck, player, tracker ▸ tracked, board ▸ recorded⟩

theorem guessCell_fullFleet {p : Player} {B : Battle (Fin maxShips) Cell} (h : p.FullFleet B)
    {c : Cell} {e : Player × GuessResult × Option Nat} (fires : FiresAt p B c e) :
    e.1.FullFleet (B.fire c) := by
  have same : e.1.lengths = p.lengths := by
    simp only [Player.lengths, fires.sameFleet.length]
  exact ⟨fires.represents, fires.sameFleet.count.trans h.count, same ▸ h.lengths⟩

section Update
variable {p : Player} {B : Battle (Fin maxShips) Cell} (full : p.FullFleet B) {st : AiState}
  (tracked : Tracked p st) {c : Cell} {e : Player × GuessResult × Option Nat}
  (fires : FiresAt p B c e)
include full tracked fires

/-- A guess that is no hit leaves the hit cells as they are, or sinks a ship. -/
theorem tracked_kept (other : e.2.1 ≠ .sunk) : Tracked e.1 st := by
  refine ⟨tracked.aimed, tracked.nodup, fun h hh => ?_⟩
  obtain ⟨x, rfl, marked⟩ := tracked.marked h hh
  refine ⟨x, rfl, ?_⟩
  have old : B.mark x = .hit := B.mem_wounds.mp ((hit_iff_wound full).mp marked)
  have kept : (B.fire c).mark x = .hit := by
    obtain ⟨shot, i, hi, afloat⟩ := B.mark_eq_hit.mp old
    refine (B.fire c).mark_eq_hit.mpr ⟨Finset.mem_insert_of_mem shot, i, hi, fun sunk => ?_⟩
    by_cases again : c ∈ B.shots
    · rw [B.fire_again again] at sunk
      exact afloat sunk
    · by_cases hc : c ∈ B.ships i
      · apply other
        rw [fires.result, B.verdict_of_mem again hc, if_pos sunk]
        rfl
      · exact afloat ((B.fire_sunk_of_not_mem hc).mp sunk)
  rw [fires.represents.board x, kept]
  rfl

/-- A hit goes to the end of the list. -/
theorem tracked_hit (hit : B.verdict c = .hit) {st' : AiState}
    (updated : aiUpdateSmart none st c.coord.row c.coord.col .hit = some st') :
    Tracked e.1 st' ∧ st'.hitCount = st.hitCount + 1 := by
  have result : e.2.1 = .hit := by
    rw [fires.result, hit]
    rfl
  have kept := tracked_kept full tracked fires (by rw [result]; nofun)
  obtain ⟨fresh, i, hi, afloat⟩ := B.verdict_hit_iff.mp hit
  let grown : AiState := { st with hits := st.hits ++ [c.coord], hunting := false }
  have eq : st' = { grown with targetDir := lineDir grown } := (Option.some.inj updated).symm
  have aimed : grown.Aimed := tracked.aimed
  refine ⟨⟨?_, ?_, fun h hh => ?_⟩, ?_⟩
  · rw [eq]
    exact lineDir_aimed aimed
  · rw [eq]
    refine List.Nodup.append tracked.nodup (List.nodup_singleton _) ?_
    intro x hx new
    rw [List.mem_singleton.mp new] at hx
    have wound := cells_subset_wounds full tracked (AiState.mem_cells.mpr hx)
    exact fresh (B.mark_eq_hit.mp (B.mem_wounds.mp wound)).1
  · rw [eq] at hh
    rcases List.mem_append.mp hh with old | new
    · exact kept.marked h old
    · refine ⟨c, List.mem_singleton.mp new, ?_⟩
      rw [fires.represents.board c, (B.fire c).mark_eq_hit.mpr
        ⟨Finset.mem_insert_self c B.shots, i, hi, afloat⟩]
      rfl
  · rw [eq]
    simp [grown, AiState.hitCount]

end Update

/-- A turn: its guess, the cell, and what the shot leaves. -/
structure TurnFires (fuel : Nat) (m : Mem) (t : Turn) (B : Battle (Fin maxShips) Cell) (m' : Mem)
    (g : Coordinate × AiState × Rng) (c : Cell) (e : Player × GuessResult × Option Nat) :
    Prop where
  guess : turnGuess fuel m t = .done g
  aimed : g.1 = c.coord
  struck : guessCell m.game.player c.coord.row c.coord.col = some e
  fires : FiresAt m.game.player B c e
  player : m'.game.player = e.1
  tracker : aiUpdateSmart none g.2.1 c.coord.row c.coord.col e.2.1 = some m'.smartAiState
  board : recordGuess m.aiGuessBoard c.coord.row c.coord.col e.2.1 = some m'.aiGuessBoard

theorem turn_fires {fuel : Nat} {m m' : Mem} {t : Turn} {B : Battle (Fin maxShips) Cell}
    (fleet : m.game.player.Represents B) (step : turnStep fuel m t = some m') :
    ∃ g c e, TurnFires fuel m t B m' g c e := by
  obtain ⟨g, e, guess, struck, player, tracked, recorded⟩ := turnStep_moves step
  obtain ⟨i, j, row, col, -⟩ := guessCell_cases struck
  have at_c : g.1 = Cell.coord (i, j) := by
    cases eq : g.1
    rw [eq] at row col
    simp only at row col
    rw [row, col]
    rfl
  rw [at_c] at struck tracked recorded
  obtain ⟨e', struck', fires⟩ := guessCell_fire fleet (i, j)
  cases struck.symm.trans struck'
  exact ⟨g, (i, j), e, guess, at_c, struck, fires, player, tracked, recorded⟩

namespace TurnFires
variable {fuel : Nat} {m m' : Mem} {t : Turn} {B : Battle (Fin maxShips) Cell}
  {g : Coordinate × AiState × Rng} {c : Cell} {e : Player × GuessResult × Option Nat}
  (turn : TurnFires fuel m t B m' g c e) (full : m.game.player.FullFleet B)
include turn

theorem result {v : Verdict} (verdict : B.verdict c = v) : e.2.1 = .ofVerdict v := by
  rw [turn.fires.result, verdict]

include full

theorem fleet : ∃ B', m'.game.player.FullFleet B' := by
  rw [turn.player]
  exact ⟨_, guessCell_fullFleet full turn.fires⟩

/-- The hits stay marked, and only a hit adds one. -/
theorem tracked (before : Tracked m.game.player g.2.1) :
    Tracked m'.game.player m'.smartAiState ∧
      (m'.smartAiState.hitCount ≤ g.2.1.hitCount ∨
        B.verdict c = .hit ∧ m'.smartAiState.hitCount = g.2.1.hitCount + 1) := by
  have updated := turn.tracker
  have untouched : ∀ {v}, B.verdict c = v → GuessResult.ofVerdict v ≠ .sunk →
      some g.2.1 = some m'.smartAiState → Tracked m'.game.player m'.smartAiState ∧
        (m'.smartAiState.hitCount ≤ g.2.1.hitCount ∨
          B.verdict c = .hit ∧ m'.smartAiState.hitCount = g.2.1.hitCount + 1) := by
    intro v verdict other same
    rw [turn.player, ← Option.some.inj same]
    exact ⟨tracked_kept full before turn.fires (turn.result verdict ▸ other), .inl le_rfl⟩
  cases verdict : B.verdict c with
  | miss =>
      rw [turn.result verdict] at updated
      exact verdict ▸ untouched verdict (by simp [GuessResult.ofVerdict]) updated
  | again =>
      rw [turn.result verdict] at updated
      exact verdict ▸ untouched verdict (by simp [GuessResult.ofVerdict]) updated
  | sunk =>
      rw [turn.result verdict] at updated
      rw [← Option.some.inj updated]
      exact ⟨reset_tracked _, .inl (Nat.zero_le _)⟩
  | hit =>
      rw [turn.result verdict] at updated
      obtain ⟨grown, count⟩ := tracked_hit full before turn.fires verdict updated
      exact ⟨turn.player ▸ grown, .inr ⟨rfl, count⟩⟩

end TurnFires

/-- Everything the tracker relies on. -/
structure TrackerSafe (m : Mem) : Prop where
  fleet : ∃ B, m.game.player.FullFleet B
  tracked : Tracked m.game.player m.smartAiState
  small : m.smartAiState.hitCount ≤ hitsSize

theorem freshTracker_safe {m : Mem} (h : FreshTracker m) : TrackerSafe m := by
  refine ⟨⟨_, h.consistent.represents, h.count, h.lengths⟩, ?_, ?_⟩
  · rw [h.tracker]
    exact reset_tracked _
  · rw [h.tracker]
    exact Nat.zero_le _

/-- The tracker that `ai_update_smart` finds is as good as the one before. -/
theorem turnGuess_tracked {fuel : Nat} {m : Mem} {t : Turn} {g : Coordinate × AiState × Rng}
    (h : TrackerSafe m) (guess : turnGuess fuel m t = .done g) :
    Tracked m.game.player g.2.1 ∧ g.2.1.hitCount ≤ hitsSize := by
  rcases engineGetGuess_tracker h.tracked.aimed guess with same | reset
  · rw [same]
    exact ⟨h.tracked, h.small⟩
  · rw [reset]
    exact ⟨reset_tracked _, Nat.zero_le _⟩

theorem turnStep_safe {fuel : Nat} {m m' : Mem} {t : Turn} (h : TrackerSafe m)
    (ok : Uncrowded fuel m t) (step : turnStep fuel m t = some m') : TrackerSafe m' := by
  obtain ⟨B, full⟩ := h.fleet
  obtain ⟨g, c, e, turn⟩ := turn_fires full.represents step
  obtain ⟨tracked, small⟩ := turnGuess_tracked h turn.guess
  obtain ⟨kept, fewer | ⟨verdict, more⟩⟩ := turn.tracked full tracked
  · exact ⟨turn.fleet full, kept, fewer.trans small⟩
  · have room : g.2.1.hitCount < hitsSize := by
      by_contra none
      exact ok g c turn.guess turn.aimed ((crowded_iff full tracked verdict).mpr none)
    exact ⟨turn.fleet full, kept, more ▸ room⟩

theorem reaches_safe {fuel : Nat} {m : Mem}
    (h : Reaches (turnStep fuel) (Uncrowded fuel) FreshTracker m) : TrackerSafe m :=
  h.invariant (fun _ => freshTracker_safe) fun _ _ _ before => turnStep_safe before

theorem aiGuessSmart_defined {st : AiState} (h : st.Aimed) (b : Board) (fuel : Nat) (rng : Rng) :
    aiGuessSmart b fuel 1 st rng ≠ .undefined := by
  rcases aiGuessSmart_open h b fuel 0 rng with ⟨starved, -⟩ | ⟨c, st', rng', done, -⟩
  · rw [starved]
    nofun
  · rw [done]
    nofun

/-- A guess that hits is a shot that sinks nothing. -/
theorem verdict_of_hit {p : Player} {B : Battle (Fin maxShips) Cell} {c : Cell}
    {e : Player × GuessResult × Option Nat} (fires : FiresAt p B c e) (result : e.2.1 = .hit) :
    B.verdict c = .hit := by
  rw [fires.result] at result
  cases verdict : B.verdict c with
  | hit => rfl
  | miss => simp [verdict, GuessResult.ofVerdict] at result
  | sunk => simp [verdict, GuessResult.ofVerdict] at result
  | again => simp [verdict, GuessResult.ofVerdict] at result

/-- Without a crowding hit the tracker stays in its array and on its tables, and
a crowding hit is all that can take it out. -/
theorem tracker_in_bounds {fuel : Nat} {m : Mem}
    (h : Reaches (turnStep fuel) (Uncrowded fuel) FreshTracker m) :
    m.smartAiState.hitCount ≤ hitsSize ∧ m.smartAiState.Aimed ∧
    (∀ b rng, aiGuessSmart b fuel 1 m.smartAiState rng ≠ .undefined) ∧
    ∀ t g (c : Cell) e, turnGuess fuel m t = .done g → g.1 = c.coord →
      guessCell m.game.player g.1.row g.1.col = some e → e.2.1 = .hit →
        (g.2.1.hitCount < hitsSize ↔ ¬Crowded m.game.player g.2.1 c) := by
  have safe := reaches_safe h
  refine ⟨safe.small, safe.tracked.aimed,
    fun b rng => aiGuessSmart_defined safe.tracked.aimed b fuel rng, ?_⟩
  intro t g c e guess at_c struck result
  obtain ⟨B, full⟩ := safe.fleet
  obtain ⟨tracked, -⟩ := turnGuess_tracked safe guess
  obtain ⟨e', struck', fires⟩ := guessCell_fire full.represents c
  rw [at_c] at struck
  cases struck.symm.trans struck'
  rw [crowded_iff full tracked (verdict_of_hit fires result), not_not]

def rowsMem : Mem := bootMem.setPlayer (rowsPlayer false)

theorem rowsMem_fresh : FreshTracker rowsMem :=
  ⟨rowsPlayer_consistent false, rfl, by decide, rfl⟩

/-- A random turn whose source draws this cell. -/
def drawn (row col : UInt32) : Turn :=
  ⟨difficultyRandom, ⟨fun n => if n = 0 then row else col, 0⟩⟩

instance (p : Player) (st : AiState) (c : Cell) : Decidable (Crowded p st c) :=
  decidable_of_iff (p.board.cells c.1 c.2 = .ship ∧
      (∃ b, (p.boats b).length ≠ 1 ∧ c ∈ (p.boats b).cells) ∧
      (∀ b, (p.boats b).length ≠ 1 →
        (p.boats b).hitCount + (if c ∈ (p.boats b).cells then 1 else 0) = (p.boats b).length - 1) ∧
      ∀ x : Cell, p.board.cells x.1 x.2 = .hit → x.coord ∈ st.hits)
    ⟨fun h => ⟨h.1, h.2.1, h.2.2.1, h.2.2.2⟩,
      fun h => ⟨h.fresh, h.strikes, h.lacksOne, h.tracked⟩⟩

/-- The guess found crowds the fleet at no cell. -/
def clearOf (m : Mem) : Outcome (Coordinate × AiState × Rng) → Bool
  | .done g => ∀ c : Cell, g.1 = c.coord → ¬Crowded m.game.player g.2.1 c
  | _ => true

theorem uncrowded_of_clear {fuel : Nat} {m : Mem} {t : Turn}
    (h : clearOf m (turnGuess fuel m t) = true) : Uncrowded fuel m t := by
  intro g c guess at_c
  rw [guess] at h
  exact of_decide_eq_true h c at_c

/-- The guess found is a hit at this cell that leaves the fleet uncrowded. -/
def hitsClear (m : Mem) (c : Cell) : Outcome (Coordinate × AiState × Rng) → Bool
  | .done g => g.1 = c.coord ∧ ¬Crowded m.game.player g.2.1 c ∧
      (guessCell m.game.player g.1.row g.1.col).any (fun e => e.2.1 = .hit) = true
  | _ => false

/-- The tracker holds two hits on each of two ships, and has room for the next. -/
theorem tracker_in_bounds_rows : ∃ m : Mem, m.smartAiState.hitCount = 4 ∧
    m.smartAiState.Aimed ∧ ∃ g, turnGuess 1 m (drawn 2 0) = .done g ∧
      (guessCell m.game.player g.1.row g.1.col).any (fun e => e.2.1 = .hit) = true ∧
      g.2.1.hitCount < hitsSize := by
  let turns := [drawn 4 0, drawn 4 1, drawn 3 0, drawn 3 1]
  have meets : Meets (turnStep 1) (fun m t => clearOf m (turnGuess 1 m t) = true) rowsMem turns := by
    decide +kernel
  have run : (runList (turnStep 1) rowsMem turns).any (fun m => m.smartAiState.hitCount = 4 ∧
      hitsClear m (2, 0) (turnGuess 1 m (drawn 2 0)) = true) = true := by decide +kernel
  obtain ⟨m, reached, shown⟩ := exists_reaches_of_meets rowsMem_fresh meets run
  obtain ⟨four, clear⟩ := of_decide_eq_true shown
  obtain ⟨-, aimed, -, roomFor⟩ :=
    tracker_in_bounds (reached.imp fun _ _ => uncrowded_of_clear)
  cases guess : turnGuess 1 m (drawn 2 0) with
  | undefined => simp [guess, hitsClear] at clear
  | starved => simp [guess, hitsClear] at clear
  | done g =>
      rw [guess] at clear
      obtain ⟨at_c, uncrowded, hit⟩ := of_decide_eq_true clear
      obtain ⟨e, struck, result⟩ := (Option.any_eq_true _ _).mp hit
      exact ⟨m, four, aimed, g, guess, hit,
        (roomFor _ g (2, 0) _ guess at_c struck (of_decide_eq_true result)).mpr uncrowded⟩

/-- Three hits on the first ship, two on the second and one on the third. -/
theorem six_hits_reached : ∃ m, Reaches (turnStep 1) (fun _ _ => True) FreshTracker m ∧
    hitsSize < m.smartAiState.hitCount := by
  have run : (runList (turnStep 1) rowsMem
      [drawn 4 0, drawn 4 1, drawn 4 2, drawn 3 0, drawn 3 1, drawn 2 0]).any
        (fun m => hitsSize < m.smartAiState.hitCount) = true := by decide +kernel
  obtain ⟨m, reached, beyond⟩ := exists_reaches rowsMem_fresh run
  exact ⟨m, reached, of_decide_eq_true beyond⟩

end Battleship
