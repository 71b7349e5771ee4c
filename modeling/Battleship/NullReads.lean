import Battleship.Requests
import Battleship.Lib.Rely

/-!
# Reads through NULL

The two placing handlers once more, with `none` in the place of every read
through a NULL pointer: a member that is missing, the text of what is no string,
and the game before it has been created. All other undefined behaviour stays
where it was.
-/
namespace Battleship
open Cooperative

/-- The members both handlers read of a ship. -/
def shipMembers : List String := ["row", "length", "col", "horizontal"]

def Json.hasShip (ship : Json) : Bool :=
  shipMembers.all (fun name => (ship.getObjectItem name).isSome)

/-- A write through the pointer that `get_game_instance` returned. -/
def writeGame (f : Game → Game) : GameTask (Option Unit) :=
  Prog.attempt (fun m => .done
    (if m.currentGame then (some (), { m with game := f m.game }) else (none, m)))

/-- `placeLoop`, after its handler has read through the game once. -/
def checkedLoop (decode : Json → Option ShipRequest) (finish : ShipRequest → Nat → GameTask Unit) :
    List Json → GameTask (Option Bool)
  | [] => .ret (some true)
  | item :: rest =>
      if item.hasShip then do
        let ship ← Prog.ofOption (decode item)
        let m ← Prog.get
        if maxShips ≤ m.game.player.boatCount then return some true
        else
          match ← Prog.tryModify (withGame (placeRequest ship)) with
          | some slot =>
              finish ship slot
              checkedLoop decode finish rest
          | none => return some false
      else .ret none

/-- What both handlers do once they have their list. -/
def checkedShips (decode : Json → Option ShipRequest)
    (finish : ShipRequest → Nat → GameTask Unit) (bad : Response) (items : List Json) :
    GameTask (Option Response) := do
  match ← writeGame (fun g => { g with player := { g.player with boatCount := 0 } }) with
  | none => return none
  | some _ =>
      match ← checkedLoop decode finish items with
      | none => return none
      | some true =>
          setReady
          return some .ok
      | some false => return some bad

def checkedPlaceShips : Body → GameTask (Option Response)
  | .closed => .ret (some .espFail)
  | .invalid => .ret (some .espFail)
  | .json j =>
      match j.getObjectItem "ships" with
      | none => .ret (some .espFail)
      | some ships =>
          if ships.isArray then
            checkedShips decodePlaceShip finishPlaceShip .espFail ships.children
          else .ret (some .espFail)

def checkedSetupGame : Body → GameTask (Option Response)
  | .closed => .ret (some .espFail)
  | .invalid => .ret (some (.badRequest "Invalid JSON"))
  | .json j =>
      match difficultyText j with
      | none => .ret none
      | some level => do
          match ← writeGame (fun g => { g with difficulty := atoi level }) with
          | none => return none
          | some _ =>
              if isRandom j then
                Prog.write (fun m => m.setState .randomInit) [.command .randomInit]
                return some .ok
              else
                checkedShips decodeSetupShip finishSetupShip (.badRequest "Invalid placement")
                  (setupShips j)

/-- Reading through NULL is undefined. -/
theorem writeGame_crash (f : Game → Game) : (writeGame f >>= Prog.ofOption : GameTask Unit) =
    Prog.tryModify (withGame (fun g => some ((), f g))) := by
  simp only [writeGame, Prog.tryModify, Prog.attempt, Prog.step_bind, Prog.step.injEq]
  constructor
  · funext m
    cases created : m.currentGame <;> simp [withGame, created]
  · funext m
    cases created : m.currentGame <;> simp [withGame, created, Prog.ofOption]

theorem hasShip_of_place {item : Json} {ship : ShipRequest} (h : decodePlaceShip item = some ship) :
    item.hasShip = true := by
  simp only [decodePlaceShip, shipField, Option.bind_eq_bind, Option.bind_eq_some_iff,
    Option.map_eq_some_iff] at h
  obtain ⟨_, ⟨_, length, -⟩, _, ⟨_, row, -⟩, _, -, _, ⟨_, col, -⟩, _, ⟨_, horizontal, -⟩, -⟩ := h
  simp [Json.hasShip, shipMembers, length, row, col, horizontal]

theorem hasShip_of_setup {item : Json} {ship : ShipRequest} (h : decodeSetupShip item = some ship) :
    item.hasShip = true := by
  simp only [decodeSetupShip, shipField, Option.bind_eq_bind, Option.bind_eq_some_iff,
    Option.map_eq_some_iff] at h
  obtain ⟨_, ⟨_, row, -⟩, _, -, _, ⟨_, length, -⟩, _, ⟨_, col, -⟩, _, ⟨_, horizontal, -⟩, -⟩ := h
  simp [Json.hasShip, shipMembers, length, row, col, horizontal]

section Loop
variable {decode : Json → Option ShipRequest} {finish : ShipRequest → Nat → GameTask Unit}
  (reads : ∀ item ship, decode item = some ship → item.hasShip = true)
include reads

theorem placeLoop_checked (items : List Json) :
    placeLoop decode finish items = checkedLoop decode finish items >>= Prog.ofOption := by
  induction items with
  | nil => rfl
  | cons item rest ih =>
      cases decoded : decode item with
      | none =>
          simp only [placeLoop, checkedLoop, decoded]
          split <;> rfl
      | some ship =>
          simp only [placeLoop, checkedLoop, decoded, reads item ship decoded, if_true, Prog.bind_assoc]
          congr 1
          funext ship
          congr 1
          funext m
          split
          · rfl
          · rw [Prog.bind_assoc]
            congr 1
            funext slot
            cases slot with
            | none => rfl
            | some slot =>
                simp only [Prog.bind_assoc, ih]

theorem checkedShips_crash (bad : Response) (items : List Json) :
    (checkedShips decode finish bad items >>= Prog.ofOption) = (do
      resetBoatCount
      if ← placeLoop decode finish items then
        setReady
        return .ok
      else return bad) := by
  rw [resetBoatCount, ← writeGame_crash, placeLoop_checked reads, checkedShips]
  simp only [Prog.bind_assoc]
  congr 1
  funext written
  cases written with
  | none => rfl
  | some u =>
      simp only [Prog.ofOption, Prog.ret_bind, Prog.bind_assoc]
      congr 1
      funext placed
      cases placed with
      | none => rfl
      | some placed => cases placed <;> rfl

end Loop

theorem postPlaceShips_checked (body : Body) :
    postPlaceShipsHandler body = checkedPlaceShips body >>= Prog.ofOption := by
  cases body with
  | closed => rfl
  | invalid => rfl
  | json j =>
      simp only [postPlaceShipsHandler, checkedPlaceShips]
      cases j.getObjectItem "ships" with
      | none => rfl
      | some ships =>
          cases array : ships.isArray with
          | false =>
              simp only [array]
              rfl
          | true =>
              simp only [array, if_true]
              exact (checkedShips_crash (fun _ _ => hasShip_of_place) _ _).symm

theorem postSetupGame_checked (body : Body) :
    postSetupGameHandler body = checkedSetupGame body >>= Prog.ofOption := by
  cases body with
  | closed => rfl
  | invalid => rfl
  | json j =>
      simp only [postSetupGameHandler, checkedSetupGame]
      cases difficultyText j with
      | none => rfl
      | some level =>
          simp only [Prog.ofOption, Prog.ret_bind, ← writeGame_crash, Prog.bind_assoc]
          congr 1
          funext written
          cases written with
          | none => rfl
          | some u =>
              cases random : isRandom j with
              | true => rfl
              | false => exact (checkedShips_crash (fun _ _ => hasShip_of_setup) _ _).symm

/-- Run alone, the handler comes to a read through NULL. -/
def ReadsNull {α : Type} (t : GameTask (Option α)) (m : Mem) : Prop :=
  ∃ m', Prog.exec (answer none) t m = .done (none, m')

/-- An entry has its four members whenever all entries before it can be seated. -/
def ShipsComplete (decode : Json → Option ShipRequest) (edge : ShipRequest → Option Int)
    (items : List Json) (p : Player) : Prop :=
  ∀ before item after ships p', items = before ++ item :: after →
    List.Forall₂ (fun item ship => decode item = some ship) before ships → Seats p ships p' →
    (∀ ship ∈ ships, (edge ship).isSome) → item.hasShip = true

theorem shipsComplete_nil (decode : Json → Option ShipRequest) (edge : ShipRequest → Option Int)
    (p : Player) : ShipsComplete decode edge [] p := by
  intro before item after ships p' eq
  simp at eq

theorem shipsComplete_cons {decode : Json → Option ShipRequest} {edge : ShipRequest → Option Int}
    {item : Json} {rest : List Json} {p : Player} : ShipsComplete decode edge (item :: rest) p ↔
      item.hasShip = true ∧ ∀ ship (room : p.boatCount < maxShips), decode item = some ship →
        p.board.Admits ship → (edge ship).isSome →
          ShipsComplete decode edge rest (p.seated room ship) := by
  constructor
  · intro complete
    refine ⟨complete [] item rest [] p rfl .nil (.nil p) (by simp), ?_⟩
    intro ship room decoded fits defined before next after ships p' eq decodes seats edges
    exact complete (item :: before) next after (ship :: ships) p' (by rw [eq]; rfl)
      (.cons decoded decodes) (.cons room fits seats) (by simpa using ⟨defined, edges⟩)
  · rintro ⟨first, later⟩ before next after ships p' eq decodes seats edges
    cases decodes with
    | nil =>
        cases eq
        exact first
    | cons decoded decodes =>
        cases eq
        cases seats with
        | cons room fits seats =>
            obtain ⟨defined, edges⟩ := List.forall_mem_cons.mp edges
            exact later _ room decoded fits defined _ next after _ p' rfl decodes seats edges

theorem exec_writeGame (ans : ∀ c : Call, c.Ans) (f : Game → Game) (m : Mem) :
    Prog.exec ans (writeGame f) m =
      .done (if m.currentGame then (some (), { m with game := f m.game }) else (none, m)) :=
  Prog.exec_attempt ans _ m

/-- What only follows a good answer adds no read through NULL of its own. -/
theorem readsNull_bind {α β : Type} {t : GameTask (Option α)}
    {g : Option α → GameTask (Option β)} (stop : g none = .ret none)
    (safe : ∀ a m, ¬ReadsNull (g (some a)) m) (m : Mem) :
    ReadsNull (t >>= g) m ↔ ReadsNull t m := by
  simp only [ReadsNull, Prog.exec_bind]
  cases ended : Prog.exec (answer none) t m with
  | undefined => simp
  | starved => simp
  | done r =>
      obtain ⟨a, m'⟩ := r
      cases a with
      | none => simp [stop]
      | some a =>
          have good : ¬∃ m'', Prog.exec (answer none) (g (some a)) m' = .done (none, m'') :=
            safe a m'
          simpa using good

section Alone
variable {decode : Json → Option ShipRequest} {finish : ShipRequest → Nat → GameTask Unit}
  {edge : ShipRequest → Option Int}
  (finished : ∀ ship slot m, Prog.exec (answer none) (finish ship slot) m =
    .ofOption ((edge ship).map (fun _ => ((), m.setPlayer m.game.player.counted))))
include finished

theorem checkedLoop_null_iff (items : List Json) {m : Mem} (created : m.currentGame = true) :
    ReadsNull (checkedLoop decode finish items) m ↔
      ¬ShipsComplete decode edge items m.game.player := by
  induction items generalizing m with
  | nil => simp [ReadsNull, checkedLoop, shipsComplete_nil]
  | cons item rest ih =>
      rw [shipsComplete_cons, ReadsNull, checkedLoop]
      cases complete : item.hasShip with
      | false => simp
      | true =>
          simp only [if_true, true_and, Prog.exec_bind, Prog.exec_ofOption]
          cases decoded : decode item with
          | none => simp
          | some ship =>
              simp only [Option.map_some, Outcome.ofOption_some, Outcome.bind_done, Prog.exec_get]
              by_cases full : maxShips ≤ m.game.player.boatCount
              · have no_room : ¬m.game.player.boatCount < maxShips := not_lt.mpr full
                simp [full, no_room]
              · have room : m.game.player.boatCount < maxShips := not_le.mp full
                have alone : ∀ {P : ShipRequest → m.game.player.boatCount < maxShips → Prop},
                    (∀ other (room : m.game.player.boatCount < maxShips), some ship = some other →
                      m.game.player.board.Admits other → P other room) ↔
                    (m.game.player.board.Admits ship → P ship room) :=
                  ⟨fun all => all ship room rfl, fun one other _ eq => by cases eq; exact one⟩
                rw [if_neg full, Prog.exec_bind, exec_placeRequest _ ship created, alone]
                cases seat : m.game.player.seat ship with
                | none =>
                    have outside : ¬m.game.player.board.Admits ship := fun fits => by
                      cases (seat_of_fits room fits).symm.trans seat
                    simp [outside]
                | some seated =>
                    cases seated with
                    | none =>
                        have outside : ¬m.game.player.board.Admits ship := fun fits => by
                          cases (seat_of_fits room fits).symm.trans seat
                        simp [outside]
                    | some p' =>
                        obtain ⟨fits, _, rfl⟩ := seat_some seat
                        have fits : m.game.player.board.Admits ship := fits
                        cases defined : edge ship with
                        | none => simp [finished, defined]
                        | some far =>
                            have later := ih (m := m.setPlayer (m.game.player.seated room ship)) created
                            simp only [Option.map_some, Outcome.ofOption_some, Outcome.bind_done,
                              Prog.exec_bind, finished, defined, fits, Option.isSome_some,
                              forall_const]
                            exact later

theorem checkedShips_null_iff (bad : Response) (items : List Json) (m : Mem) :
    ReadsNull (checkedShips decode finish bad items) m ↔
      ¬(m.currentGame = true ∧ ShipsComplete decode edge items m.game.player.uncounted) := by
  by_cases created : m.currentGame = true
  · have written : Prog.exec (answer none) (writeGame fun g =>
        { g with player := { g.player with boatCount := 0 } }) m =
        .done (some (), m.setPlayer m.game.player.uncounted) := by
      rw [exec_writeGame, if_pos created]
      rfl
    rw [ReadsNull, checkedShips, Prog.exec_bind, written, Outcome.bind_done,
      and_iff_right created]
    have loop : ReadsNull (checkedLoop decode finish items) (m.setPlayer m.game.player.uncounted) ↔
        ¬ShipsComplete decode edge items m.game.player.uncounted :=
      checkedLoop_null_iff finished items created
    refine Iff.trans ?_ loop
    change ReadsNull (checkedLoop decode finish items >>= _) _ ↔ _
    apply readsNull_bind
    · rfl
    · intro placed m'
      cases placed <;> simp [ReadsNull, setReady]
  · simp [ReadsNull, checkedShips, exec_writeGame, created]

end Alone

/-- The document is none, or its difficulty is a string, the game is there, and
it asks for a random fleet or its ships have their members where they are read. -/
def SetupComplete (body : Body) (m : Mem) : Prop :=
  ∀ j, body = .json j → (difficultyText j).isSome ∧ m.currentGame = true ∧
    (isRandom j = true ∨
      ShipsComplete decodeSetupShip setupEdge (setupShips j) m.game.player.uncounted)

def PlaceComplete (body : Body) (m : Mem) : Prop :=
  ∀ j ships, body = .json j → j.getObjectItem "ships" = some ships → ships.isArray = true →
    m.currentGame = true ∧
      ShipsComplete decodePlaceShip placeEdge ships.children m.game.player.uncounted

theorem checkedPlaceShips_null_iff (body : Body) (m : Mem) :
    ReadsNull (checkedPlaceShips body) m ↔ ¬PlaceComplete body m := by
  cases body with
  | closed => simp [ReadsNull, checkedPlaceShips, PlaceComplete]
  | invalid => simp [ReadsNull, checkedPlaceShips, PlaceComplete]
  | json j =>
      cases item : j.getObjectItem "ships" with
      | none => simp [ReadsNull, checkedPlaceShips, PlaceComplete, item]
      | some ships =>
          cases array : ships.isArray with
          | false => simp [ReadsNull, checkedPlaceShips, PlaceComplete, item, array]
          | true =>
              have reads : ReadsNull
                  (checkedShips decodePlaceShip finishPlaceShip .espFail ships.children) m ↔ _ :=
                checkedShips_null_iff (exec_finishPlaceShip (answer none)) .espFail ships.children m
              have complete : PlaceComplete (.json j) m ↔ m.currentGame = true ∧ ShipsComplete
                  decodePlaceShip placeEdge ships.children m.game.player.uncounted := by
                constructor
                · exact fun all => all j ships rfl item array
                · rintro one j' ships' ⟨⟩ item' -
                  cases item.symm.trans item'
                  exact one
              rw [complete, ← reads]
              simp only [checkedPlaceShips, item, array, if_true]

theorem checkedSetupGame_null_iff (body : Body) (m : Mem) :
    ReadsNull (checkedSetupGame body) m ↔ ¬SetupComplete body m := by
  cases body with
  | closed => simp [ReadsNull, checkedSetupGame, SetupComplete]
  | invalid => simp [ReadsNull, checkedSetupGame, SetupComplete]
  | json j =>
      cases text : difficultyText j with
      | none => simp [ReadsNull, checkedSetupGame, SetupComplete, text]
      | some level =>
          have complete : SetupComplete (.json j) m ↔ m.currentGame = true ∧ (isRandom j = true ∨
              ShipsComplete decodeSetupShip setupEdge (setupShips j)
                m.game.player.uncounted) := by
            constructor
            · exact fun all => (all j rfl).2
            · rintro one j' ⟨⟩
              exact ⟨by simp [text], one⟩
          by_cases created : m.currentGame = true
          · let leveled : Mem := { m with game := { m.game with difficulty := atoi level } }
            have written : Prog.exec (answer none) (writeGame fun g =>
                { g with difficulty := atoi level }) m = .done (some (), leveled) := by
              rw [exec_writeGame, if_pos created]
            rw [complete, and_iff_right created, ReadsNull]
            simp only [checkedSetupGame, text, Prog.exec_bind, written, Outcome.bind_done]
            cases random : isRandom j with
            | true => simp
            | false =>
                have reads : ReadsNull (checkedShips decodeSetupShip finishSetupShip
                    (.badRequest "Invalid placement") (setupShips j)) leveled ↔ _ :=
                  checkedShips_null_iff (exec_finishSetupShip (answer none))
                    (.badRequest "Invalid placement") (setupShips j) leveled
                rw [and_iff_right (show leveled.currentGame = true from created)] at reads
                simp only [Bool.false_eq_true, if_false, false_or]
                exact reads
          · simp [ReadsNull, complete, checkedSetupGame, text, exec_writeGame, created]

/-- Whatever the other tasks do while the handler waits, it reads no NULL. -/
def NeverNull {α : Type} (t : GameTask (Option α)) (m : Mem) : Prop :=
  ∀ (env : Prog.Env Mem Call Call.Ans) (l : List (Out ⊕ Call)),
    Prog.wlp env (fun _ _ _ => True) t (fun r _ _ => r.isSome) m l

theorem neverNull_some {α : Type} (a : α) (m : Mem) : NeverNull (.ret (some a)) m :=
  fun _ _ => rfl

theorem neverNull_write {α : Type} (f : Mem → Mem) (log : List Out) (a : α) (m : Mem) :
    NeverNull (Prog.write f log >>= fun _ => .ret (some a)) m := fun _ _ => rfl

theorem neverNull_writeGame {α : Type} {f : Game → Game} {g : Option Unit → GameTask (Option α)}
    {m : Mem} (created : m.currentGame = true)
    (next : NeverNull (g (some ())) { m with game := f m.game }) :
    NeverNull (writeGame f >>= g) m := by
  refine fun env l => Prog.wlp_bind.mpr (Prog.wlp_attempt fun written m' eq => ?_)
  rw [if_pos created] at eq
  cases eq
  exact next env l

theorem neverNull_bind {α β : Type} {t : GameTask (Option α)} {g : Option α → GameTask (Option β)}
    {m : Mem} (first : NeverNull t m) (next : ∀ a m', NeverNull (g (some a)) m') :
    NeverNull (t >>= g) m := by
  refine fun env l => Prog.wlp_bind.mpr (Prog.wlp_mono (fun r m' l' answered => ?_) (first env l))
  obtain ⟨a, rfl⟩ := Option.isSome_iff_exists.mp answered
  exact next a m' env l'

/-- A list of ships that all have their members is read safely. -/
theorem neverNull_loop {decode : Json → Option ShipRequest}
    {finish : ShipRequest → Nat → GameTask Unit} {items : List Json}
    (complete : ∀ item ∈ items, item.hasShip = true) (m : Mem) :
    NeverNull (checkedLoop decode finish items) m := by
  induction items generalizing m with
  | nil => exact neverNull_some true m
  | cons item rest ih =>
      have rest_complete : ∀ next ∈ rest, next.hasShip = true := fun next member =>
        complete next (List.mem_cons_of_mem item member)
      intro env l
      rw [checkedLoop, if_pos (complete item List.mem_cons_self)]
      refine Prog.wlp_bind.mpr (Prog.wlp_ofOption fun ship _ => ?_)
      refine Prog.wlp_bind.mpr ((Prog.wlp_get _ _ _).mpr ?_)
      refine Prog.wlp_ite (fun _ => rfl) fun _ => ?_
      refine Prog.wlp_bind.mpr (Prog.wlp_tryModify fun seated m' _ => ?_)
      cases seated with
      | none => exact rfl
      | some slot =>
          refine Prog.wlp_bind.mpr (Prog.wlp_mono (fun _ m'' l'' _ => ?_) (Prog.wlp_true _ m' l))
          exact ih rest_complete m'' env l''

theorem neverNull_ships {decode : Json → Option ShipRequest}
    {finish : ShipRequest → Nat → GameTask Unit} (bad : Response) {items : List Json}
    (complete : ∀ item ∈ items, item.hasShip = true) {m : Mem} (created : m.currentGame = true) :
    NeverNull (checkedShips decode finish bad items) m := by
  refine neverNull_writeGame created (neverNull_bind (neverNull_loop complete _) ?_)
  intro placed m'
  cases placed with
  | false => exact neverNull_some bad m'
  | true => exact neverNull_write _ _ _ m'

/-- The difficulty is a string, the game is there, and every ship has its
members. -/
def SetupFull (body : Body) (m : Mem) : Prop :=
  ∀ j, body = .json j → (difficultyText j).isSome ∧ m.currentGame = true ∧
    ∀ item ∈ setupShips j, item.hasShip = true

def PlaceFull (body : Body) (m : Mem) : Prop :=
  ∀ j ships, body = .json j → j.getObjectItem "ships" = some ships → ships.isArray = true →
    m.currentGame = true ∧ ∀ item ∈ ships.children, item.hasShip = true

theorem neverNull_placeShips {body : Body} {m : Mem} (full : PlaceFull body m) :
    NeverNull (checkedPlaceShips body) m := by
  cases body with
  | closed => exact neverNull_some _ m
  | invalid => exact neverNull_some _ m
  | json j =>
      rw [checkedPlaceShips]
      cases item : j.getObjectItem "ships" with
      | none => exact neverNull_some _ m
      | some ships =>
          by_cases array : ships.isArray = true
          · obtain ⟨created, complete⟩ := full j ships rfl item array
            simp only [if_pos array]
            exact neverNull_ships _ complete created
          · simp only [if_neg array]
            exact neverNull_some _ m

theorem neverNull_setupGame {body : Body} {m : Mem} (full : SetupFull body m) :
    NeverNull (checkedSetupGame body) m := by
  cases body with
  | closed => exact neverNull_some _ m
  | invalid => exact neverNull_some _ m
  | json j =>
      obtain ⟨text, created, complete⟩ := full j rfl
      obtain ⟨level, text⟩ := Option.isSome_iff_exists.mp text
      simp only [checkedSetupGame, text]
      refine neverNull_writeGame created ?_
      by_cases random : isRandom j = true
      · simp only [if_pos random]
        exact neverNull_write _ _ _ _
      · simp only [if_neg random]
        exact neverNull_ships _ complete created

/-- The placing handlers are their checked versions; run alone they come to no
NULL exactly for the complete documents, and among the other tasks they come to
none when no ship at all lacks a member. -/
theorem null_safe_iff (body : Body) (m : Mem) :
    (postSetupGameHandler body = checkedSetupGame body >>= Prog.ofOption ∧
      (¬ReadsNull (checkedSetupGame body) m ↔ SetupComplete body m) ∧
      (SetupFull body m → NeverNull (checkedSetupGame body) m)) ∧
    postPlaceShipsHandler body = checkedPlaceShips body >>= Prog.ofOption ∧
      (¬ReadsNull (checkedPlaceShips body) m ↔ PlaceComplete body m) ∧
      (PlaceFull body m → NeverNull (checkedPlaceShips body) m) :=
  ⟨⟨postSetupGame_checked body, not_iff_comm.mp (checkedSetupGame_null_iff body m).symm,
      neverNull_setupGame⟩,
    postPlaceShips_checked body, not_iff_comm.mp (checkedPlaceShips_null_iff body m).symm,
      neverNull_placeShips⟩

/-- A document without a difficulty, a list with an entry that is no object, and
a proper request that comes before the game task has run. -/
theorem null_read : ReadsNull (checkedSetupGame (.json (.object []))) bootMem ∧
    ReadsNull (checkedPlaceShips (.json (.object [("ships", .array [.null])]))) bootMem ∧
    ReadsNull (checkedPlaceShips (.json (.object [("ships", .array [])]))) powerOn ∧
    respond (.setupGame (.json (.object []))) bootMem = .undefined ∧
    ¬∀ (body : Body) (m : Mem), ¬ReadsNull (checkedSetupGame body) m := by
  refine ⟨⟨_, rfl⟩, ⟨_, rfl⟩, ⟨_, rfl⟩, rfl, fun all => ?_⟩
  exact all (.json (.object [])) bootMem ⟨_, rfl⟩

end Battleship
