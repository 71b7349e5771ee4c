import Battleship.Browser
import Battleship.Commands

/-!
# The names ships are picked up under

The command that puts a ship down is computed from the list it was posted in,
and the command that picks it up from the boat. For each slot the command that put
down the ship in it is remembered.
-/
namespace Battleship
open Cooperative Runs

/-- The byte that says place or remove. -/
def IoMessage.flag (c : IoMessage) : UInt8 := (List.ofFn c.payload).getD 4 0

def IoMessage.shipId (c : IoMessage) : UInt8 := (List.ofFn c.payload).getD 0 0

/-- The same command, to remove. -/
def IoMessage.lifted (c : IoMessage) : IoMessage :=
  { c with payload := fun i => if i.val = 4 then 1 else c.payload i }

@[simp] theorem robotCommand_flag (slaveId shipId row col notVertical notPlace : Int) :
    (robotCommand slaveId shipId row col notVertical notPlace).flag = UInt8.ofInt notPlace := rfl

theorem robotCommand_lifted (slaveId shipId row col notVertical : Int) :
    (robotCommand slaveId shipId row col notVertical 0).lifted =
      robotCommand slaveId shipId row col notVertical 1 := by
  simp only [IoMessage.lifted, robotCommand, IoMessage.mk.injEq, true_and, and_true]
  funext i
  obtain ⟨_ | _ | _ | _ | _ | n, h⟩ := i <;> rfl

def pickups (sent : List IoMessage) : List IoMessage := sent.filter (fun c => c.flag ≠ 0)

/-- The command that removes a ship, from the ship as it was put down. -/
def ShipRequest.removal (ship : ShipRequest) : IoMessage :=
  robotCommand 4 (4 - ship.length) ship.row
    (if ship.horizontal then ship.col + ship.length - 1 else ship.col)
    (if ship.horizontal then 0 else 1) 1

/-- A manual request names the ship in this slot as the removal does. -/
def Request.Names : Request → ShipRequest → Nat → Prop
  | .placeShips _, ship, slot =>
      ship.length = 4 - slot ∧ (ship.horizontal = true ∨ ship.length = 1)
  | _, ship, slot => ship.length = 4 - slot

theorem setupOrder_lifted {ship : ShipRequest} {slot : Nat} (named : ship.length = 4 - slot) :
    (setupOrder ship slot).lifted = ship.removal := by
  have id : (slot : Int) = 4 - ship.length := by omega
  rw [setupOrder, robotCommand_lifted, id, ShipRequest.removal, add_sub_assoc]

theorem placeOrder_lifted {ship : ShipRequest} {slot : Nat} (named : ship.length = 4 - slot)
    (flat : ship.horizontal = true ∨ ship.length = 1) :
    (placeOrder ship slot).lifted = ship.removal := by
  have id : (slot : Int) = 4 - ship.length := by omega
  rw [placeOrder, robotCommand_lifted, id, ShipRequest.removal]
  cases horizontal : ship.horizontal with
  | true => rfl
  | false =>
      rw [horizontal] at flat
      have one : ship.length = 1 := flat.resolve_left Bool.false_ne_true
      simp [one]

theorem Request.Names.lifted {r : Request} {ship : ShipRequest} {slot : Nat}
    (h : r.Names ship slot) : (r.order ship slot).lifted = ship.removal := by
  cases r with
  | placeShips body => exact placeOrder_lifted h.1 h.2
  | setDifficulty body => exact setupOrder_lifted h
  | setupGame body => exact setupOrder_lifted h
  | wsConnect => exact setupOrder_lifted h
  | wsMessage text => exact setupOrder_lifted h

theorem randomOrder_lifted (ship : ShipRequest) : (randomOrder ship).lifted = ship.removal := by
  rw [randomOrder, robotCommand_lifted, ShipRequest.removal, add_sub_assoc]

@[simp] theorem Request.order_flag (r : Request) (ship : ShipRequest) (slot : Nat) :
    (r.order ship slot).flag = 0 := by
  cases r <;> rfl

@[simp] theorem randomOrder_flag (ship : ShipRequest) : (randomOrder ship).flag = 0 := rfl

@[simp] theorem removal_flag (boat : Boat) : boat.removal.flag = 1 := rfl

/-- This boat is this ship, unhurt, and goes by its name. -/
structure Boat.Moors (boat : Boat) (ship : ShipRequest) : Prop where
  length : boat.length = ship.length
  hitCount : boat.hitCount = 0
  removal : 1 ≤ ship.length → boat.removal = ship.removal

theorem seated_moors (p : Player) (room : p.boatCount < maxShips) (ship : ShipRequest) :
    ((p.seated room ship).boats ⟨p.boatCount, room⟩).Moors ship := by
  refine ⟨seated_length room ship, seated_hitCount room ship, fun positive => ?_⟩
  have anchor := seated_coords room ship (i := 0) (by simp only [Fin.val_zero]; omega)
  have side : ((p.seated room ship).boats ⟨p.boatCount, room⟩).horizontal = ship.horizontal := by
    rw [seated_boat]
    exact if_neg (by omega)
  rw [Boat.removal, anchor, side, seated_length, ShipRequest.removal]
  cases ship.horizontal <;> simp [shipCell]

theorem Seats.keeps_free {p p' : Player} {ships : List ShipRequest} (h : Seats p ships p')
    {b : Fin maxShips} (free : p'.boatCount ≤ b.val) : p'.boats b = p.boats b := by
  induction h with
  | nil p => rfl
  | cons room _ seats ih =>
      have grown := seats.count
      rw [seated_boatCount] at grown
      rw [ih free]
      exact seated_boat_of_ne _ room _ (by omega)

/-- The commands for ships put down in order, by slot. -/
def ordered (f : ShipRequest → Nat → IoMessage) (ships : List ShipRequest) : List IoMessage :=
  ships.zipIdx.map (fun s => f s.1 s.2)

theorem ordered_getElem? (f : ShipRequest → Nat → IoMessage) (ships : List ShipRequest) (k : Nat) :
    (ordered f ships)[k]? = ships[k]?.map (fun ship => f ship k) := by
  simp [ordered, List.getElem?_zipIdx, Function.comp_def]

/-- What a request did to the boats of the player and told the robot. -/
inductive Asked (r : Request) (m m' : Mem) : List IoMessage → Prop
  | kept : m'.game.player = m.game.player → Asked r m m' []
  | placed {w : Manual} {ships : List ShipRequest} {rest : List (Option ShipRequest)} :
      r.manual = some w → w.ships.map w.decode = ships.map some ++ rest →
      Seats m.game.player.uncounted ships m'.game.player →
      Asked r m m' (ordered r.order ships)

theorem request_asked {ans : ∀ c : Call, c.Ans} {r : Request} {m : Mem} {e : Response × Mem}
    (h : Prog.exec ans (handle r) m = .done e) :
    Asked r m e.2 (orders (Prog.trace ans (handle r) m)) := by
  cases manual : r.manual with
  | none =>
      obtain ⟨⟨d, v, conn, -, eq⟩, -⟩ := exec_other manual h
      rw [(mute_other manual).silent]
      exact .kept (by rw [eq])
  | some w =>
      have created := exec_manual_created manual h
      rw [exec_manual ans manual created] at h
      obtain ⟨⟨placed, p⟩, loop, rfl⟩ := Option.map_eq_some_iff.mp (Outcome.ofOption_eq_done h)
      obtain ⟨ships, rest, listed, seats, -⟩ := seatLoop_seats loop
      rw [orders_manual ans manual created loop listed (seats.count.trans (Nat.zero_add _))]
      exact .placed manual listed seats

/-- For each slot the command that put down the ship in it. -/
abbrev Slots : Type := Fin maxShips → Option IoMessage

/-- Ships go into the slots in order, from the first. -/
def Slots.fill (put : Slots) (told : List IoMessage) : Slots :=
  fun b => (told.filter (fun c => c.flag = 0))[b.val]?.or (put b)

/-- The slots whose ships this step takes down: those sunk by the opponent, and
at a restart those still afloat. -/
def takenDown (m : Mem) (ev : Event) (m' : Mem) : List (Fin maxShips) :=
  match ev with
  | .request _ => []
  | .iteration _ => (List.finRange maxShips).filter (fun b => (m.game.player.boats b).Afloat ∧
      (m.game.state = .gameRestart ∨
        m.game.state = .waitingForOpponent ∧ ¬(m'.game.player.boats b).Afloat))

/-- Every ship that a manual request seats is named as the removal names it. -/
def WellNamed (m : Mem) : Event → Prop
  | .request r => ∀ w, r.manual = some w → ∀ ships rest p',
      w.ships.map w.decode = ships.map some ++ rest → Seats m.game.player.uncounted ships p' →
      ∀ s ∈ ships.zipIdx, 1 ≤ s.1.length → r.Names s.1 s.2
  | .iteration _ => True

/-- Each boat is removed by the command that put down the ship in its slot, turned over. -/
structure Slots.Tagged (put : Slots) (m : Mem) : Prop where
  sided : m.Sided
  unhurt : ∀ b, 0 ≤ (m.game.player.boats b).hitCount
  tagged : ∀ b, 1 ≤ (m.game.player.boats b).length →
    ∃ c, put b = some c ∧ c.lifted = (m.game.player.boats b).removal

/-- Ships put down in order, each with a command that names it, are tagged. -/
theorem Slots.Tagged.ordered {put : Slots} {m₀ : Mem} (h : put.Tagged m₀) {m : Mem}
    {ships : List ShipRequest}
    (seats : Seats m₀.game.player.uncounted ships m.game.player)
    (opp : m.game.opponent.board.isOpp = true) {f : ShipRequest → Nat → IoMessage}
    (named : ∀ s ∈ ships.zipIdx, 1 ≤ s.1.length → (f s.1 s.2).lifted = s.1.removal) :
    Slots.Tagged (fun b => (Battleship.ordered f ships)[b.val]?.or (put b)) m := by
  have total : m.game.player.boatCount = ships.length := seats.count.trans (Nat.zero_add _)
  have full : ships.length ≤ maxShips := total ▸ seats.count_le (Nat.zero_le _)
  have moors : ∀ b : Fin maxShips, ∀ hb : b.val < ships.length,
      (m.game.player.boats b).Moors ships[b.val] := by
    intro b hb
    have slot : m₀.game.player.uncounted.boatCount + b.val = b.val := Nat.zero_add _
    have moored := seats.slot (fun p room ship _ => seated_moors p room ship) hb
      (by rw [slot]; exact b.isLt)
    simp only [slot] at moored
    exact moored
  have free : ∀ b : Fin maxShips, ¬b.val < ships.length →
      m.game.player.boats b = m₀.game.player.boats b := fun b hb =>
    seats.keeps_free (by omega)
  refine ⟨⟨seats.isOpp.trans h.sided.own, opp⟩, fun b => ?_, fun b positive => ?_⟩
  · by_cases hb : b.val < ships.length
    · rw [(moors b hb).hitCount]
    · rw [free b hb]
      exact h.unhurt b
  · rw [ordered_getElem?]
    by_cases hb : b.val < ships.length
    · have long : 1 ≤ ships[b.val].length := (moors b hb).length ▸ positive
      have listed : (ships[b.val], b.val) ∈ ships.zipIdx :=
        List.mem_zipIdx_iff_getElem?.mpr (List.getElem?_eq_getElem hb)
      rw [List.getElem?_eq_getElem hb]
      exact ⟨_, rfl, (named _ listed long).trans ((moors b hb).removal long).symm⟩
    · rw [free b hb] at positive ⊢
      rw [List.getElem?_eq_none (by omega)]
      exact h.tagged b positive

theorem Slots.fill_of_placings {put : Slots} {os placings : List IoMessage}
    (eq : os.filter (fun c => c.flag = 0) = placings) :
    put.fill os = fun b => placings[b.val]?.or (put b) := by
  funext b
  rw [Slots.fill, eq]

theorem filter_ordered {f : ShipRequest → Nat → IoMessage}
    (place : ∀ ship slot, (f ship slot).flag = 0)
    (ships : List ShipRequest) :
    (ordered f ships).filter (fun c => c.flag = 0) = ordered f ships ∧
      pickups (ordered f ships) = [] := by
  constructor
  · refine List.filter_eq_self.mpr fun c hc => ?_
    obtain ⟨s, -, rfl⟩ := List.mem_map.mp hc
    simp [place]
  · refine List.filter_eq_nil_iff.mpr fun c hc => ?_
    obtain ⟨s, -, rfl⟩ := List.mem_map.mp hc
    simp [place]

theorem filter_removals (boats : Fin maxShips → Boat) (slots : List (Fin maxShips)) :
    (slots.map (fun b => (boats b).removal)).filter (fun c => c.flag = 0) = [] ∧
      pickups (slots.map (fun b => (boats b).removal)) =
        slots.map (fun b => (boats b).removal) := by
  constructor
  · refine List.filter_eq_nil_iff.mpr fun c hc => ?_
    obtain ⟨b, -, rfl⟩ := List.mem_map.mp hc
    simp
  · refine List.filter_eq_self.mpr fun c hc => ?_
    obtain ⟨b, -, rfl⟩ := List.mem_map.mp hc
    simp

/-- A step that puts nothing down and leaves the boats where they are. -/
theorem Slots.Tagged.stayed {put : Slots} {m₀ : Mem} (h : put.Tagged m₀) {m : Mem} (sided : m.Sided)
    (unhurt : ∀ b, 0 ≤ (m.game.player.boats b).hitCount)
    (same : ∀ b, 1 ≤ (m.game.player.boats b).length →
      (m.game.player.boats b).length = (m₀.game.player.boats b).length ∧
      (m.game.player.boats b).removal = (m₀.game.player.boats b).removal) :
    Slots.Tagged (fun b => ([] : List IoMessage)[b.val]?.or (put b)) m := by
  refine ⟨sided, unhurt, fun b positive => ?_⟩
  obtain ⟨length, removal⟩ := same b positive
  obtain ⟨c, eq, lifted⟩ := h.tagged b (length ▸ positive)
  exact ⟨c, eq, lifted.trans removal.symm⟩

theorem countHit_removal (p : Player) (b b' : Fin maxShips) :
    ((p.countHit b).boats b').length = (p.boats b').length ∧
      ((p.countHit b).boats b').removal = (p.boats b').removal ∧
      (p.boats b').hitCount ≤ ((p.countHit b).boats b').hitCount := by
  by_cases same : b' = b
  · subst same
    refine ⟨?_, ?_, ?_⟩ <;> simp [Player.countHit, Boat.countHit, Boat.removal]
  · simp [Player.countHit, Function.update_of_ne same]

/-- A guess leaves every boat its length and its name. -/
theorem guessCell_removal {p : Player} {row col : Int} {e : Player × GuessResult × Option Nat}
    (h : guessCell p row col = some e) (b : Fin maxShips) :
    (e.1.boats b).length = (p.boats b).length ∧ (e.1.boats b).removal = (p.boats b).removal ∧
      (p.boats b).hitCount ≤ (e.1.boats b).hitCount := by
  obtain ⟨-, ⟨same, -⟩ | ⟨b', counted, -⟩⟩ := guessCell_boats h
  · rw [same]
    exact ⟨rfl, rfl, le_refl _⟩
  · rw [counted]
    exact countHit_removal p b' b

theorem request_tagged {put : Slots} {m₀ : Mem} (h : put.Tagged m₀) {r : Request}
    (ok : WellNamed m₀ (.request r))
    {m : Mem} {os : List IoMessage} (opp : m.game.opponent.board.isOpp = true)
    (asked : Asked r m₀ m os) :
    (put.fill os).Tagged m := by
  cases asked with
  | kept eq =>
      refine h.stayed ⟨eq ▸ h.sided.own, opp⟩ (fun b => ?_) fun b _ => ?_
      · rw [eq]
        exact h.unhurt b
      · rw [eq]
        exact ⟨rfl, rfl⟩
  | @placed w ships rest manual listed seats =>
      rw [Slots.fill_of_placings (filter_ordered r.order_flag ships).1]
      exact h.ordered seats opp fun s hs positive =>
        (ok w manual ships rest _ listed seats s hs positive).lifted

theorem iteration_tagged {put : Slots} {m₀ : Mem} (h : put.Tagged m₀) {m : Mem}
    {os : List IoMessage}
    (sided : m.Sided) (handled : Handled m₀ m os) :
    (put.fill os).Tagged m := by
  have same : m.game.player = m₀.game.player →
      Slots.Tagged (fun b => ([] : List IoMessage)[b.val]?.or (put b)) m := fun eq =>
    h.stayed sided (fun b => eq ▸ h.unhurt b) fun b _ => eq ▸ ⟨rfl, rfl⟩
  cases handled with
  | kept _ eq => exact same eq
  | created _ eq =>
      refine h.stayed sided (fun b => ?_) fun b positive => ?_
      · rw [eq]
        exact le_refl _
      · rw [eq] at positive
        exact absurd positive (by simp [clearedGame, Boat.zero])
  | @placed ships _ seats =>
      have listed : ships.map randomOrder = ordered (fun ship _ => randomOrder ship) ships := by
        have fst := congrArg (List.map randomOrder) (List.zipIdx_map_fst 0 ships)
        rw [List.map_map] at fst
        exact fst.symm
      rw [listed, Slots.fill_of_placings
        (filter_ordered (fun ship _ => randomOrder_flag ship) ships).1]
      exact h.ordered seats sided.opp fun s _ _ => randomOrder_lifted s.1
  | guessed _ guess =>
      rw [Slots.fill_of_placings (filter_removals _ _).1]
      refine h.stayed sided (fun b => ?_) fun b _ => ?_
      · exact (h.unhurt b).trans (guessCell_removal guess b).2.2
      · exact ⟨(guessCell_removal guess b).1, (guessCell_removal guess b).2.1⟩
  | cleared _ eq =>
      rw [Slots.fill_of_placings (filter_removals _ _).1]
      exact same eq

theorem request_opponent {ans : ∀ c : Call, c.Ans} {r : Request} {m : Mem} {e : Response × Mem}
    (h : Prog.exec ans (handle r) m = .done e) : e.2.game.opponent = m.game.opponent := by
  cases manual : r.manual with
  | none =>
      obtain ⟨⟨d, v, conn, -, eq⟩, -⟩ := exec_other manual h
      rw [eq]
  | some w =>
      rw [exec_manual ans manual (exec_manual_created manual h)] at h
      obtain ⟨⟨placed, p⟩, loop, rfl⟩ := Option.map_eq_some_iff.mp (Outcome.ofOption_eq_done h)
      rfl

theorem step_tagged {put : Slots} {lim : Limits} {m m' : Mem} {ev : Event} (h : put.Tagged m)
    (ok : WellNamed m ev) (stepped : seqStep lim m ev = some m') :
    (put.fill (orders (seqTrace lim m ev))).Tagged m' := by
  cases ev with
  | request r =>
      obtain ⟨resp, done⟩ := Outcome.memory_some stepped
      have opponent : m'.game.opponent = m.game.opponent := request_opponent done
      exact request_tagged h ok (opponent ▸ h.sided.opp) (request_asked done)
  | iteration msg =>
      obtain ⟨u, done⟩ := Outcome.memory_some stepped
      have sided := h.sided.move (iteration_move done)
      exact iteration_tagged h sided (iteration_handled h.sided done)

theorem booted_tagged (put : Slots) {m : Mem} (booted : Booted m) : put.Tagged m := by
  obtain ⟨m₀, lim, init, boot⟩ := booted
  rw [seqStep_create init] at boot
  cases boot
  exact ⟨⟨rfl, rfl⟩, fun _ => le_refl _,
    fun b positive => absurd positive (by simp [Mem.created, clearedGame, Boat.zero])⟩

theorem Slots.Tagged.brushed {put : Slots} {m m' : Mem} (h : put.Tagged m)
    (brushes : Brushes m m') : put.Tagged m' := by
  obtain ⟨d, v, conn, -, rfl⟩ := brushes
  exact ⟨⟨h.sided.own, h.sided.opp⟩, h.unhurt, h.tagged⟩

/-- The slots where a guess sank a boat are those it stopped being afloat in. -/
theorem guessCell_takenDown {p : Player} {row col : Int} {e : Player × GuessResult × Option Nat}
    (h : guessCell p row col = some e) (b : Fin maxShips) :
    e.2.2 = some b.val ↔ (p.boats b).Afloat ∧ ¬(e.1.boats b).Afloat := by
  obtain ⟨-, ⟨same, none⟩ | ⟨b', counted, sinks⟩⟩ := guessCell_boats h
  · rw [same, none]
    simp
  · rw [counted]
    by_cases eq : b = b'
    · subst eq
      rcases sinks with ⟨more, none⟩ | ⟨last, sunk⟩
      · rw [none]
        simp only [reduceCtorEq, false_iff, not_and, not_not]
        intro afloat
        simp only [Boat.Afloat, Player.countHit, Function.update_self, Boat.countHit] at afloat ⊢
        omega
      · rw [sunk]
        simp only [Boat.Afloat, Player.countHit, Function.update_self, Boat.countHit, true_iff]
        omega
    · have kept : (p.countHit b').boats b = p.boats b := by
        simp [Player.countHit, Function.update_of_ne eq]
      have other : e.2.2 ≠ some b.val := by
        rcases sinks with ⟨-, none⟩ | ⟨-, sunk⟩
        · rw [none]
          exact nofun
        · rw [sunk]
          exact fun same => eq (Fin.ext (Option.some.inj same)).symm
      rw [kept]
      simp [other]

/-- The ships in these slots are removed by the commands that placed them. -/
theorem Slots.Tagged.picks {put : Slots} {m₀ : Mem} (h : put.Tagged m₀) {P Q : Fin maxShips → Bool}
    {boats : Fin maxShips → Boat} (same : ∀ b, P b = Q b)
    (afloat : ∀ b, P b = true → (m₀.game.player.boats b).Afloat ∧
      (boats b).removal = (m₀.game.player.boats b).removal) :
    (((List.finRange maxShips).filter P).map (fun b => (boats b).removal)).map some =
      ((List.finRange maxShips).filter Q).map (fun b => (put b).map IoMessage.lifted) := by
  rw [← funext same, List.map_map]
  refine List.map_congr_left fun b hb => ?_
  obtain ⟨floats, removal⟩ := afloat b (List.mem_filter.mp hb).2
  have positive : 1 ≤ (m₀.game.player.boats b).length :=
    lt_of_le_of_lt (h.unhurt b) floats
  obtain ⟨c, eq, lifted⟩ := h.tagged b positive
  rw [eq, Option.map_some, lifted, Function.comp, removal]

theorem iteration_picksUp {put : Slots} {m₀ m : Mem} (h : put.Tagged m₀)
    (msg : Option IoMessage) {os : List IoMessage} (handled : Handled m₀ m os) :
    (pickups os).map some =
      (takenDown m₀ (.iteration msg) m).map (fun b => (put b).map IoMessage.lifted) := by
  have none : m₀.game.state ≠ .gameRestart → (m₀.game.state = .waitingForOpponent →
      m.game.player = m₀.game.player) → takenDown m₀ (.iteration msg) m = [] := by
    intro other same
    refine List.filter_eq_nil_iff.mpr fun b _ => ?_
    simp only [other, false_or, decide_eq_true_eq, not_and, not_not]
    intro afloat waiting
    rw [same waiting]
    exact afloat
  cases handled with
  | kept other eq =>
      rw [none other fun _ => eq]
      rfl
  | created init _ =>
      rw [none (by simp [init]) (by simp [init])]
      rfl
  | @placed ships random seats =>
      rw [none (by simp [random]) (by simp [random])]
      have remove : pickups (ships.map randomOrder) = [] := by
        refine List.filter_eq_nil_iff.mpr fun c hc => ?_
        obtain ⟨ship, -, rfl⟩ := List.mem_map.mp hc
        simp
      rw [remove]
      rfl
  | guessed waiting guess =>
      rw [(filter_removals _ _).2, takenDown]
      refine h.picks (fun b => ?_) fun b sunk => ?_
      · have iff := guessCell_takenDown guess b
        simp only [waiting, reduceCtorEq, false_or, true_and, decide_eq_decide]
        exact iff
      · exact ⟨((guessCell_takenDown guess b).mp (of_decide_eq_true sunk)).1,
          (guessCell_removal guess b).2.1⟩
  | cleared restart eq =>
      rw [(filter_removals _ _).2, takenDown]
      refine h.picks (fun b => ?_) fun b floats => ⟨of_decide_eq_true floats, rfl⟩
      simp [restart]

instance (r : Request) (ship : ShipRequest) (slot : Nat) : Decidable (r.Names ship slot) := by
  cases r <;> simp only [Request.Names] <;> infer_instance

/-- The whole list is read, and every ship of it is named as the removal names it. -/
def ListNamed (_ : Mem) : Event → Prop
  | .request r => ∀ w ∈ r.manual, ∃ l ∈ w.ships.mapM w.decode, ∀ s ∈ l.zipIdx, r.Names s.1 s.2
  | .iteration _ => True

instance (m : Mem) : ∀ e, Decidable (ListNamed m e)
  | .request r => inferInstanceAs (Decidable (∀ w ∈ r.manual, ∃ l, l ∈ w.ships.mapM w.decode ∧
      ∀ s ∈ l.zipIdx, r.Names s.1 s.2))
  | .iteration _ => .isTrue trivial

theorem ListNamed.wellNamed {m : Mem} {ev : Event} (h : ListNamed m ev) : WellNamed m ev := by
  cases ev with
  | iteration msg => trivial
  | request r =>
      intro w manual ships rest p' listed _ s hs _
      obtain ⟨l, decoded, named⟩ := h w manual
      refine named s (List.mem_zipIdx_iff_getElem?.mpr ?_)
      have at_k : ships[s.2]? = some s.1 := List.mem_zipIdx_iff_getElem?.mp hs
      have before : s.2 < (ships.map some).length := by
        rw [List.length_map]
        exact (List.getElem?_eq_some_iff.mp at_k).1
      have same := congrArg (fun list => list[s.2]?) (listed.symm.trans (mapM_decode.mp decoded))
      simp only [List.getElem?_append_left before, List.getElem?_map, at_k, Option.map_some] at same
      obtain ⟨ship, eq, eq'⟩ := Option.map_eq_some_iff.mp same.symm
      rw [eq, Option.some.inj eq']

end Battleship
