import Battleship.Chronicle
import Battleship.Fleet

/-!
# Which fleets start a game

Nothing counts the ships of a request or looks at their lengths, so the fleet
that starts a game is legal exactly when the request's first four ships were.
-/
namespace Battleship
open Cooperative Runs

def Player.lengths (p : Player) : List Int :=
  (List.finRange maxShips).map (fun b => (p.boats b).length)

structure Player.LegalFleet (p : Player) : Prop where
  count : p.boatCount = maxShips
  lengths : p.lengths.Perm shipLengths
  sound : ∀ b, (p.boats b).Sound
  disjoint : Pairwise (fun b b' => Disjoint (p.boats b).cells (p.boats b').cells)

/-- The request starts with four ships of the lengths a fleet is meant to have. -/
def Manual.LegalList (w : Manual) : Prop :=
  ∃ ships : List ShipRequest, (w.ships.take maxShips).map w.decode = ships.map some ∧
    (ships.map ShipRequest.length).Perm shipLengths

instance (w : Manual) : Decidable w.LegalList :=
  decidable_of_iff (∃ ships, ships ∈ (w.ships.take maxShips).mapM w.decode ∧
    (ships.map ShipRequest.length).Perm shipLengths)
    (exists_congr fun _ => and_congr_left fun _ => mapM_decode)

/-- The boats lie on marked cells, apart from each other. -/
structure Player.Moored (p : Player) : Prop where
  marked : ∀ b : Fin maxShips, b.val < p.boatCount → ∀ c ∈ (p.boats b).cells,
    p.board.cells c.1 c.2 ≠ .empty
  sound : ∀ b : Fin maxShips, b.val < p.boatCount → 0 ≤ (p.boats b).length → (p.boats b).Sound
  disjoint : ∀ b b' : Fin maxShips, b.val < p.boatCount → b'.val < p.boatCount → b ≠ b' →
    Disjoint (p.boats b).cells (p.boats b').cells

theorem uncounted_moored (p : Player) : p.uncounted.Moored :=
  ⟨fun _ hb => absurd hb (Nat.not_lt_zero _), fun _ hb => absurd hb (Nat.not_lt_zero _),
    fun _ _ hb => absurd hb (Nat.not_lt_zero _)⟩

theorem seated_moored {p : Player} (h : p.Moored) (room : p.boatCount < maxShips)
    {ship : ShipRequest} (fits : p.board.Admits ship) : (p.seated room ship).Moored := by
  let new : Fin maxShips := ⟨p.boatCount, room⟩
  have newCells := seated_cells room ship fits
  have empty : ∀ c ∈ ((p.seated room ship).boats new).cells, p.board.cells c.1 c.2 = .empty := by
    intro c hc
    rw [newCells] at hc
    exact fits.empty_of_mem hc
  have old : ∀ b : Fin maxShips, b.val < (p.seated room ship).boatCount → b ≠ new →
      b.val < p.boatCount ∧ (p.seated room ship).boats b = p.boats b := by
    intro b hb other
    have ne : b.val ≠ p.boatCount := fun eq => other (Fin.ext eq)
    rw [seated_boatCount] at hb
    exact ⟨by omega, seated_boat_of_ne p room ship ne⟩
  have apart : ∀ b : Fin maxShips, b.val < (p.seated room ship).boatCount → b ≠ new →
      Disjoint ((p.seated room ship).boats b).cells ((p.seated room ship).boats new).cells := by
    intro b hb other
    obtain ⟨used, same⟩ := old b hb other
    rw [same]
    exact Finset.disjoint_left.mpr fun c hc hn => h.marked b used c hc (empty c hn)
  refine ⟨?_, ?_, ?_⟩
  · intro b hb c hc
    rw [seated_board, Board.withRequest_cells]
    by_cases last : b = new
    · subst last
      rw [newCells] at hc
      simp [if_pos hc]
    · obtain ⟨used, same⟩ := old b hb last
      rw [same] at hc
      split
      · simp
      · exact h.marked b used c hc
  · intro b hb nonneg
    by_cases last : b = new
    · subst last
      rw [seated_length] at nonneg
      exact seated_sound room ship fits nonneg
    · obtain ⟨used, same⟩ := old b hb last
      rw [same] at nonneg ⊢
      exact h.sound b used nonneg
  · intro b b' hb hb' different
    by_cases last : b = new
    · subst last
      exact (apart b' hb' different.symm).symm
    · by_cases last' : b' = new
      · subst last'
        exact apart b hb last
      · obtain ⟨used, same⟩ := old b hb last
        obtain ⟨used', same'⟩ := old b' hb' last'
        rw [same, same']
        exact h.disjoint b b' used used' different

theorem Seats.moored {p p' : Player} {ships : List ShipRequest} (h : Seats p ships p')
    (start : p.Moored) : p'.Moored := by
  induction h with
  | nil p => exact start
  | cons room fits _ ih => exact ih (seated_moored start room fits)

theorem Seats.boat_length {p p' : Player} {ships : List ShipRequest} (h : Seats p ships p')
    {k : Nat} (hk : k < ships.length) (slot : p.boatCount + k < maxShips) :
    (p'.boats ⟨p.boatCount + k, slot⟩).length = ships[k].length :=
  h.slot (P := fun boat ship => boat.length = ship.length)
    (fun _ room ship _ => seated_length room ship) hk slot

theorem Seats.lengths {p p' : Player} {ships : List ShipRequest} (h : Seats p.uncounted ships p')
    (full : ships.length = maxShips) : p'.lengths = ships.map ShipRequest.length := by
  apply List.ext_getElem
  · simp [Player.lengths, full]
  · intro k hk hk'
    have room : p.uncounted.boatCount + k < maxShips := by
      simpa [Player.lengths, Player.uncounted] using hk
    have at_k := h.boat_length (by simpa using hk') room
    simp only [Player.uncounted, Nat.zero_add] at at_k
    simp [Player.lengths, at_k]

/-- Four seated ships of the right lengths are a legal fleet. -/
theorem Seats.legal_iff {p p' : Player} {ships : List ShipRequest}
    (h : Seats p.uncounted ships p') :
    p'.LegalFleet ↔ (ships.map ShipRequest.length).Perm shipLengths := by
  have counted : p'.boatCount = ships.length := by
    rw [h.count]
    exact Nat.zero_add _
  constructor
  · intro legal
    rw [← h.lengths (counted.symm.trans legal.count)]
    exact legal.lengths
  · intro perm
    have full : ships.length = maxShips := by simpa [shipLengths] using perm.length_eq
    have moored := h.moored (uncounted_moored p)
    have used : ∀ b : Fin maxShips, b.val < p'.boatCount := fun b => by
      rw [counted, full]
      exact b.isLt
    have lengths : p'.lengths.Perm shipLengths := by rwa [h.lengths full]
    refine ⟨counted.trans full, lengths, fun b => moored.sound b (used b) ?_,
      fun b b' different => moored.disjoint b b' (used b) (used b') different⟩
    have listed : (p'.boats b).length ∈ shipLengths :=
      lengths.subset (List.mem_map.mpr ⟨b, List.mem_finRange b, rfl⟩)
    simp only [shipLengths, List.mem_cons, List.not_mem_nil, or_false] at listed
    omega

theorem seatLoop_accepted {decode : Json → Option ShipRequest} {edge : ShipRequest → Option Int}
    {items : List Json} {p p' : Player}
    (h : seatLoop decode edge items p.uncounted = some (true, p')) :
    ∃ ships, (items.take maxShips).map decode = ships.map some ∧ Seats p.uncounted ships p' := by
  obtain ⟨ships, rest, eq, seats, stop⟩ := seatLoop_seats h
  refine ⟨ships, ?_, seats⟩
  have count : p'.boatCount = ships.length := by
    rw [seats.count]
    exact Nat.zero_add _
  have few : ships.length ≤ maxShips := count ▸ seats.count_le (Nat.zero_le maxShips)
  rw [List.map_take, eq]
  rcases stop rfl with done | full
  · rw [done, List.append_nil]
    exact List.take_of_length_le (by simpa using few)
  · exact List.take_left' (by simpa using le_antisymm few (count ▸ full))

/-- A manual request answered with OK has seated the head of its list. -/
theorem manual_accepted {r : Request} {w : Manual} (manual : r.manual = some w) {m m' : Mem}
    (h : respond r m = .done (.ok, m')) :
    ∃ p, w.seatAll m.game.player = some (true, p) ∧ m' = w.after m true p := by
  rw [respond, exec_manual (answer none) manual (exec_manual_created manual h)] at h
  obtain ⟨⟨placed, p⟩, loop, eq⟩ := Option.map_eq_some_iff.mp (Outcome.ofOption_eq_done h)
  cases placed with
  | false =>
      have error := manual_bad manual
      rw [show w.bad = .ok from congrArg Prod.fst eq] at error
      cases error
  | true => exact ⟨p, loop, (congrArg Prod.snd eq).symm⟩

theorem gameReady_manual {r : Request} {w : Manual} (manual : r.manual = some w) {m m' : Mem}
    (h : respond r m = .done (.ok, m')) : m'.game.gameReady = true := by
  obtain ⟨p, -, rfl⟩ := manual_accepted manual h
  rfl

/-- A manual request that sets `game_ready` leaves a legal fleet exactly when
its list is legal. -/
theorem legalFleet_iff {r : Request} {w : Manual} (manual : r.manual = some w) {m m' : Mem}
    (h : respond r m = .done (.ok, m')) : m'.game.player.LegalFleet ↔ w.LegalList := by
  obtain ⟨p, loop, rfl⟩ := manual_accepted manual h
  obtain ⟨ships, taken, seats⟩ := seatLoop_accepted loop
  have same : w.LegalList ↔ (ships.map ShipRequest.length).Perm shipLengths := by
    constructor
    · rintro ⟨ships', taken', perm⟩
      have eq := taken.symm.trans taken'
      rwa [List.map_injective_iff.mpr (Option.some_injective _) eq]
    · exact fun perm => ⟨ships, taken, perm⟩
  exact seats.legal_iff.trans same.symm

/-- Up to `n` ships of the list go on the board, each beside those before. -/
def FitInTurn (decode : Json → Option ShipRequest) : Nat → Board → List Json → Prop
  | 0, _, _ => True
  | _ + 1, _, [] => True
  | n + 1, b, item :: rest => ∃ ship, decode item = some ship ∧ b.Admits ship ∧
      FitInTurn decode n (b.withRequest ship) rest

instance fitInTurn_decidable (decode : Json → Option ShipRequest) :
    ∀ n b items, Decidable (FitInTurn decode n b items)
  | 0, _, _ => .isTrue trivial
  | _ + 1, _, [] => .isTrue trivial
  | n + 1, b, item :: rest =>
      have (ship : ShipRequest) := fitInTurn_decidable decode n (b.withRequest ship) rest
      inferInstanceAs (Decidable (∃ ship, ship ∈ decode item ∧ b.Admits ship ∧
        FitInTurn decode n (b.withRequest ship) rest))

/-- The loop accepts a list exactly when its ships fit in turn. -/
theorem seatLoop_fits {decode : Json → Option ShipRequest} {edge : ShipRequest → Option Int}
    {items : List Json} {p : Player} {e : Bool × Player}
    (h : seatLoop decode edge items p = some e) :
    e.1 = true ↔ FitInTurn decode (maxShips - p.boatCount) p.board items := by
  induction items generalizing p with
  | nil =>
      cases h
      cases maxShips - p.boatCount <;> simp [FitInTurn]
  | cons item rest ih =>
      obtain ⟨ship, decoded, ⟨full, rfl⟩ | ⟨room, rfl, bad⟩ | ⟨room, _, fits, -, h⟩⟩ :=
        seatLoop_cons h
      · rw [Nat.sub_eq_zero_of_le full]
        simp [FitInTurn]
      · obtain ⟨n, hn⟩ := Nat.exists_eq_add_of_lt room
        rw [show maxShips - p.boatCount = n + 1 by omega]
        constructor
        · nofun
        · rintro ⟨ship', decoded', fits, -⟩
          cases decoded.symm.trans decoded'
          rw [canPlaceShip_true.mpr fits] at bad
          cases bad
      · have next := ih h
        rw [seated_boatCount, seated_board] at next
        rw [next, show maxShips - p.boatCount = maxShips - (p.boatCount + 1) + 1 by omega]
        constructor
        · exact fun later => ⟨ship, decoded, fits, later⟩
        · rintro ⟨ship', decoded', -, later⟩
          cases decoded.symm.trans decoded'
          exact later

/-- A manual request has a legal list if its ships fit, and they fit once the
game is ready to start. -/
def StartsLegal (m : Mem) : Event → Prop
  | .request r => ∀ w, r.manual = some w →
      (FitInTurn w.decode maxShips m.game.player.board w.ships → w.LegalList) ∧
      (m.game.state = .webInit → m.game.gameReady = true →
        FitInTurn w.decode maxShips m.game.player.board w.ships)
  | .iteration _ => True

instance (m : Mem) : ∀ e, Decidable (StartsLegal m e)
  | .request r => inferInstanceAs (Decidable (∀ w ∈ r.manual,
      (FitInTurn w.decode maxShips m.game.player.board w.ships → w.LegalList) ∧
      (m.game.state = .webInit → m.game.gameReady = true →
        FitInTurn w.decode maxShips m.game.player.board w.ships)))
  | .iteration _ => .isTrue trivial

def ReadyLegal (m : Mem) : Prop :=
  m.game.state = .webInit → m.game.gameReady = true → m.game.player.LegalFleet

theorem readyLegal_manual {r : Request} {w : Manual} (manual : r.manual = some w) {m : Mem}
    {e : Response × Mem} (ok : StartsLegal m (.request r)) (h : respond r m = .done e) :
    ReadyLegal e.2 := by
  obtain ⟨legal, fits⟩ := ok w manual
  have created := exec_manual_created manual h
  rw [respond, exec_manual (answer none) manual created] at h
  obtain ⟨⟨placed, p⟩, loop, rfl⟩ := Option.map_eq_some_iff.mp (Outcome.ofOption_eq_done h)
  have accepted : placed = true ↔ FitInTurn w.decode maxShips m.game.player.board w.ships :=
    seatLoop_fits loop
  intro state ready
  cases placed with
  | true =>
      have again : respond r m = .done (.ok, w.after m true p) := by
        rw [respond, exec_manual (answer none) manual created, loop]
        rfl
      exact (legalFleet_iff manual again).mpr (legal (accepted.mp rfl))
  | false => cases accepted.mpr (fits state (by simpa [Manual.after] using ready))

theorem readyLegal_move {m m' : Mem} (h : ReadyLegal m) (move : GameMove m.game m'.game) :
    ReadyLegal m' := by
  intro state ready
  rcases move.to_webInit state with same | cleared
  · rw [same] at state ready ⊢
    exact h state ready
  · rw [cleared] at ready
    cases ready

theorem readyLegal_brushed {m m' : Mem} (h : ReadyLegal m) (brushes : Brushes m m') :
    ReadyLegal m' := by
  intro state ready
  have before := brushes.state (by simp [state]) (by simp [state])
  obtain ⟨d, v, conn, -, rfl⟩ := brushes
  exact h (before.trans state) ready

theorem readyLegal_step {lim : Limits} {m m' : Mem} {ev : Event} (h : ReadyLegal m)
    (ok : StartsLegal m ev) (step : seqStep lim m ev = some m') : ReadyLegal m' := by
  cases ev with
  | request r =>
      obtain ⟨resp, done⟩ := Outcome.memory_some step
      cases manual : r.manual with
      | some w => exact readyLegal_manual manual ok done
      | none => exact readyLegal_brushed h (exec_other manual done).1
  | iteration msg =>
      obtain ⟨u, done⟩ := Outcome.memory_some step
      exact readyLegal_move h (iteration_move done)

theorem readyLegal_booted {m : Mem} (booted : Booted m) : ReadyLegal m := by
  obtain ⟨m₀, lim, init, boot⟩ := booted
  obtain ⟨u, done⟩ := Outcome.memory_some boot
  apply readyLegal_move (fun state => ?_) (iteration_move done)
  rw [init] at state
  cases state

/-- The case leaves the player alone. -/
theorem webInitCase_player :
    Prog.Always (fun m r => r.1.game.player = m.game.player) webInitCase :=
  have placed : ∀ lengths, Prog.Always (fun m r => r.1.game.player = m.game.player)
      (placeRandomShips .opponent lengths) := placeRandomShips_writes
    { none := fun _ => rfl, frame := fun _ _ => rfl, round := fun _ _ _ _ _ _ => rfl,
      count := fun _ _ => rfl }
  .bind (Prog.always_get fun _ => rfl) fun _ => .ite
    (.bind (Prog.always_write fun _ => rfl) fun _ =>
      .bind (Prog.always_write fun _ => rfl) fun _ => placed shipLengths) trivial

/-- WEB_INIT enters WAITING_FOR_PLAYER with the player there is, once the flag is set. -/
theorem dispatch_webInit {lim : Limits} {s : Firmware} (state : s.mem.game.state = .webInit)
    (entered : (s.dispatch lim).mem.game.state = .waitingForPlayer) :
    s.mem.game.gameReady = true ∧ (s.dispatch lim).mem.game.player = s.mem.game.player := by
  have mem : (s.dispatch lim).mem = (webInitCase.settle s.mem).2.1 := by
    rw [Firmware.dispatch, Firmware.inSwitch_mem, state]
    rfl
  rw [mem] at entered ⊢
  refine ⟨?_, webInitCase_player.settle_field (fun m => m.game.player) s.mem⟩
  by_contra unready
  have idle : (webInitCase.settle s.mem).2.1 = s.mem := by
    simp [webInitCase, Prog.get, Prog.settle, unready]
  rw [idle, state] at entered
  cases entered

/-- What a request leaves when it sets `game_ready`, and, as long as lists and cases are
taken up by turns, what a game enters WAITING_FOR_PLAYER with from WEB_INIT. -/
theorem only_legal_fleets {lim : Limits} :
    (∀ m r w m', r.manual = some w → respond r m = .done (.ok, m') →
      m'.game.gameReady = true ∧ (m'.game.player.LegalFleet ↔ w.LegalList)) ∧
    ∀ c c' : Chronicle, Reaches (Chronicle.step lim) (Chronicle.Apart StartsLegal)
        (Chronicle.Start lim) c → c.fw.AtHead → c.fw.mem.game.state = .webInit →
      c.Apart StartsLegal .game → c.step lim .game = some c' →
        c'.fw.mem.game.state = .waitingForPlayer → c'.fw.mem.game.player.LegalFleet := by
  refine ⟨fun m r w m' manual done =>
    ⟨gameReady_manual manual done, legalFleet_iff manual done⟩, ?_⟩
  intro c c' reached head state meets hstep entered
  obtain ⟨s, stepped, rfl⟩ := Option.map_eq_some_iff.mp hstep
  obtain rfl : c.fw.dispatch lim = s := by
    have game : c.fw.game = .inTail (.ret ()) := head
    rw [Firmware.step, Firmware.stepGame, game] at stepped
    exact Option.some.inj stepped
  obtain ⟨ready, player⟩ := dispatch_webInit state entered
  rw [player]
  have begins : c.fw.begins = some .webInit := by
    have waits : GameState.webInit.waitsFirst = false := rfl
    simp [Firmware.begins, Firmware.atHead_iff.mpr head, state, waits, Firmware.Unready, ready]
  have between : c.fw.Between = true := by rw [Firmware.Between, head]
  have past := Chronicle.reaches_chronicled reached between (meets .webInit begins).1
  rcases past.invariant (P := fun _ m => ReadyLegal m) (fun _ _ => readyLegal_booted)
    (fun _ _ _ legal touches => readyLegal_brushed legal touches.brushes)
    (fun _ _ _ _ => readyLegal_step) with ⟨-, init⟩ | legal
  · cases state.symm.trans init
  · exact legal state ready

def fullList : Request :=
  setupList [shipItem 0 0 4, shipItem 1 0 3, shipItem 2 0 2, shipItem 3 0 1]

/-- A full list comes in WEB_INIT, and the game task goes round its loop while it is
served. -/
def fullRun : List Act :=
  List.replicate 5 .game ++ [.request fullList] ++ List.replicate 6 .httpd ++
    List.replicate 3 .game ++ List.replicate 17 .httpd

theorem only_legal_fleets_full : (∃ m, respond fullList bootMem = .done (.ok, m) ∧
      m.game.player.LegalFleet) ∧
    ∃ c c' : Chronicle, c.step ⟨0, none⟩ .game = some c' ∧
      c'.fw.mem.game.state = .waitingForPlayer ∧ c'.fw.mem.game.player.LegalFleet := by
  obtain ⟨requests, runs⟩ := @only_legal_fleets ⟨0, none⟩
  constructor
  · obtain ⟨m, accepted⟩ : ∃ m, respond fullList bootMem = .done (.ok, m) := ⟨_, rfl⟩
    exact ⟨m, accepted, (requests bootMem fullList _ m rfl accepted).2.mpr (by decide +kernel)⟩
  · have run : (runList (Chronicle.step ⟨0, none⟩) (.boot ⟨0, none⟩) fullRun).any (fun c =>
        Firmware.atHead c.fw.game ∧ c.fw.mem.game.state = .webInit ∧
          c.Apart StartsLegal .game ∧ (c.step ⟨0, none⟩ .game).any (fun c' =>
            c'.fw.mem.game.state = .waitingForPlayer) = true) = true := by decide +kernel
    have meets : Meets (Chronicle.step ⟨0, none⟩) (Chronicle.Apart StartsLegal) (.boot ⟨0, none⟩)
        fullRun := by decide +kernel
    obtain ⟨c, reached, check⟩ := exists_reaches_of_meets (Chronicle.boot_start _) meets run
    obtain ⟨head, state, apart, next⟩ := of_decide_eq_true check
    obtain ⟨c', stepped, entered⟩ := (Option.any_eq_true _ _).mp next
    have entered := of_decide_eq_true entered
    exact ⟨c, c', stepped, entered,
      runs c c' reached (Firmware.atHead_iff.mp head) state apart stepped entered⟩

/-- A list without ships is accepted, and its fleet counts as sunk. -/
theorem empty_fleet_ready : ∃ m, respond (setupList []) bootMem = .done (.ok, m) ∧
    m.game.gameReady = true ∧ ¬m.game.player.LegalFleet ∧
    allShipsSunk m.game.player = some true := by
  refine ⟨_, rfl, rfl, fun legal => ?_, rfl⟩
  exact absurd legal.count (by decide)

end Battleship
