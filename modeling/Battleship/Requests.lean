import Battleship.Execution

/-!
# What a request does

Run to its end, a placing handler is `seatLoop` on the player (`exec_placeLoop`),
and every other handler writes the difficulty or the state at most.
-/
namespace Battleship
open Cooperative

def Mem.setPlayer (m : Mem) (p : Player) : Mem := { m with game := { m.game with player := p } }

def placeEdge (ship : ShipRequest) : Option Int := farEdge ship.col ship.length

def setupEdge (ship : ShipRequest) : Option Int :=
  if ship.horizontal then lastEdge ship.col ship.length else some ship.col

section Exec
variable (ans : ∀ c : Call, c.Ans)

theorem exec_finishPlaceShip (ship : ShipRequest) (slot : Nat) (m : Mem) :
    Prog.exec ans (finishPlaceShip ship slot) m = .ofOption ((placeEdge ship).map
      (fun _ => ((), m.setPlayer m.game.player.counted))) := by
  unfold placeEdge
  cases edge : farEdge ship.col ship.length with
  | none => simp [finishPlaceShip, edge]
  | some far =>
      simp [finishPlaceShip, edge, countBoat,
        Mem.setPlayer, Player.counted]

theorem exec_finishSetupShip (ship : ShipRequest) (slot : Nat) (m : Mem) :
    Prog.exec ans (finishSetupShip ship slot) m = .ofOption ((setupEdge ship).map
      (fun _ => ((), m.setPlayer m.game.player.counted))) := by
  unfold setupEdge
  cases horizontal : ship.horizontal with
  | false =>
      simp [finishSetupShip, setupCommand, horizontal, countBoat, Mem.setPlayer, Player.counted]
  | true =>
      cases edge : lastEdge ship.col ship.length with
      | none => simp [finishSetupShip, setupCommand, horizontal, edge]
      | some far =>
          simp [finishSetupShip, setupCommand, horizontal, edge, countBoat, Mem.setPlayer, Player.counted]

theorem exec_placeRequest (ship : ShipRequest) {m : Mem} (hm : m.currentGame = true) :
    Prog.exec ans (Prog.tryModify (withGame (placeRequest ship)) : GameTask (Option Nat)) m =
      .ofOption ((m.game.player.seat ship).map (fun r => match r with
        | some p => (some m.game.player.boatCount, m.setPlayer p)
        | none => (none, m))) := by
  rw [Prog.exec_tryModify, withGame, if_pos hm, placeRequest]
  cases m.game.player.seat ship with
  | none => rfl
  | some seated => cases seated <;> rfl

/-- The loop of a placing handler computes `seatLoop` on the player. -/
theorem exec_placeLoop {decode : Json → Option ShipRequest}
    {finish : ShipRequest → Nat → GameTask Unit} {edge : ShipRequest → Option Int}
    (hf : ∀ ship slot m, Prog.exec ans (finish ship slot) m = .ofOption ((edge ship).map
      (fun _ => ((), m.setPlayer m.game.player.counted))))
    (items : List Json) {m : Mem} (hm : m.currentGame = true) :
    Prog.exec ans (placeLoop decode finish items) m =
      .ofOption ((seatLoop decode edge items m.game.player).map
        (fun r => (r.1, m.setPlayer r.2))) := by
  induction items generalizing m with
  | nil => rfl
  | cons item rest ih =>
      simp only [placeLoop, seatLoop]
      cases decoded : decode item with
      | none => simp
      | some ship =>
          simp only [Prog.exec_bind, Prog.exec_ofOption, Option.map_some, Outcome.ofOption_some,
            Outcome.bind_done, Prog.exec_get, Option.bind_eq_bind, Option.bind_some]
          split
          · rfl
          · rw [Prog.exec_bind, exec_placeRequest ans ship hm]
            cases m.game.player.seat ship with
            | none => rfl
            | some seated =>
                cases seated with
                | none => rfl
                | some p =>
                    cases defined : edge ship with
                    | none => simp [hf, defined]
                    | some far => simp [hf, defined, ih, hm, Mem.setPlayer]

end Exec

/-- A request that reaches a placing loop: how its ships are read, what is done
with them, the difficulty it sets and its answer when a ship does not fit. -/
structure Manual where
  decode : Json → Option ShipRequest
  edge : ShipRequest → Option Int
  ships : List Json
  level : Option Difficulty
  bad : Response

/-- Every item is read, or the list is not. -/
theorem mapM_decode {decode : Json → Option ShipRequest} {items : List Json}
    {ships : List ShipRequest} :
    items.mapM decode = some ships ↔ items.map decode = ships.map some := by
  induction items generalizing ships with
  | nil => cases ships <;> simp
  | cons item rest ih =>
      simp only [List.mapM_cons, Option.bind_eq_bind, Option.pure_def, Option.bind_eq_some_iff]
      constructor
      · rintro ⟨ship, decoded, later, listed, eq⟩
        cases eq
        rw [List.map_cons, decoded, ih.mp listed, List.map_cons]
      · intro eq
        obtain ⟨ship, later, rfl, decoded, listed⟩ := List.map_eq_cons_iff.mp eq.symm
        exact ⟨ship, decoded.symm, later, ih.mpr listed.symm, rfl⟩

def Manual.seatAll (w : Manual) (p : Player) : Option (Bool × Player) :=
  seatLoop w.decode w.edge w.ships p.uncounted

def Request.manual : Request → Option Manual
  | .setupGame (.json j) =>
      if isRandom j then none
      else (difficultyText j).map (fun level =>
        ⟨decodeSetupShip, setupEdge, setupShips j, some (atoi level),
          .badRequest "Invalid placement"⟩)
  | .placeShips (.json j) =>
      (j.getObjectItem "ships").bind (fun ships =>
        if ships.isArray then some ⟨decodePlaceShip, placeEdge, ships.children, none, .espFail⟩
        else none)
  | _ => none

/-- The memory after a manual request whose loop ended with this player. -/
def Manual.after (w : Manual) (m : Mem) (placed : Bool) (p : Player) : Mem :=
  { m with game := { m.game with
    player := p
    difficulty := w.level.getD m.game.difficulty
    gameReady := placed || m.game.gameReady } }

def Manual.answer (w : Manual) (placed : Bool) : Response := if placed then .ok else w.bad

def setupManual (j : Json) (level : List Char) : Manual :=
  ⟨decodeSetupShip, setupEdge, setupShips j, some (atoi level), .badRequest "Invalid placement"⟩

def placeManual (ships : Json) : Manual :=
  ⟨decodePlaceShip, placeEdge, ships.children, none, .espFail⟩

theorem manual_cases {r : Request} {w : Manual} (h : r.manual = some w) :
    (∃ j level, r = .setupGame (.json j) ∧ isRandom j = false ∧
      difficultyText j = some level ∧ w = setupManual j level) ∨
    ∃ j ships, r = .placeShips (.json j) ∧ j.getObjectItem "ships" = some ships ∧
      ships.isArray = true ∧ w = placeManual ships := by
  unfold Request.manual at h
  split at h
  · rename_i j
    cases random : isRandom j with
    | true =>
        rw [random] at h
        cases h
    | false =>
        rw [random] at h
        obtain ⟨level, text, eq⟩ := Option.map_eq_some_iff.mp h
        exact .inl ⟨j, level, rfl, random, text, eq.symm⟩
  · rename_i j
    obtain ⟨ships, item, eq⟩ := Option.bind_eq_some_iff.mp h
    cases array : ships.isArray with
    | false =>
        rw [array] at eq
        cases eq
    | true =>
        rw [array] at eq
        exact .inr ⟨j, ships, rfl, item, array, (Option.some.inj eq).symm⟩
  · cases h

theorem manual_bad {r : Request} {w : Manual} (h : r.manual = some w) :
    w.bad.isError = true := by
  rcases manual_cases h with ⟨j, level, -, -, -, rfl⟩ | ⟨j, ships, -, -, -, rfl⟩
  · rfl
  · rfl

theorem exec_resetBoatCount (ans : ∀ c : Call, c.Ans) {m : Mem} (hm : m.currentGame = true) :
    Prog.exec ans resetBoatCount m = .done ((), m.setPlayer m.game.player.uncounted) := by
  rw [resetBoatCount, Prog.exec_tryModify, withGame, if_pos hm]
  rfl

theorem exec_setLevel (ans : ∀ c : Call, c.Ans) (level : List Char) {m : Mem}
    (hm : m.currentGame = true) : Prog.exec ans (Prog.tryModify (withGame (fun g =>
        some ((), { g with difficulty := atoi level }))) : GameTask Unit) m =
      .done ((), { m with game := { m.game with difficulty := atoi level } }) := by
  rw [Prog.exec_tryModify, withGame, if_pos hm]
  rfl

/-- A manual request is its loop on the player, and then the flag. -/
theorem exec_manual (ans : ∀ c : Call, c.Ans) {r : Request} {w : Manual} (h : r.manual = some w)
    {m : Mem} (hm : m.currentGame = true) :
    Prog.exec ans (handle r) m = .ofOption ((w.seatAll m.game.player).map
      (fun e => (w.answer e.1, w.after m e.1 e.2))) := by
  rcases manual_cases h with ⟨j, level, rfl, manual, text, rfl⟩ | ⟨j, ships, rfl, item, array, rfl⟩
  · let leveled : Mem := { m with game := { m.game with difficulty := atoi level } }
    have set : Prog.exec ans (Prog.tryModify (withGame (fun g =>
        some ((), { g with difficulty := atoi level }))) : GameTask Unit) m =
        .done ((), leveled) := exec_setLevel ans level hm
    simp only [handle, postSetupGameHandler, manual, text, Prog.exec_bind, Prog.exec_ofOption,
      Option.map_some, Outcome.ofOption_some, Outcome.bind_done, set, Bool.false_eq_true, if_false,
      exec_resetBoatCount ans (m := leveled) hm]
    rw [exec_placeLoop ans (exec_finishSetupShip ans) _
      (m := leveled.setPlayer m.game.player.uncounted) hm]
    simp only [Manual.seatAll, setupManual, Mem.setPlayer]
    cases seatLoop decodeSetupShip setupEdge (setupShips j) m.game.player.uncounted with
    | none => rfl
    | some e =>
        obtain ⟨placed, p⟩ := e
        cases placed <;> rfl
  · simp only [handle, postPlaceShipsHandler, item, array, if_true, Prog.exec_bind,
      exec_resetBoatCount ans hm, Outcome.bind_done]
    rw [exec_placeLoop ans (exec_finishPlaceShip ans) _
      (m := m.setPlayer m.game.player.uncounted) hm]
    simp only [Manual.seatAll, placeManual, Mem.setPlayer]
    cases seatLoop decodePlaceShip placeEdge ships.children m.game.player.uncounted with
    | none => rfl
    | some e =>
        obtain ⟨placed, p⟩ := e
        cases placed <;> rfl

/-- Only the difficulty, the state and the browser's connection may have changed. -/
def Brushes (m m' : Mem) : Prop :=
  ∃ d v conn, v ∈ [m.game.state, .gameRestart, .randomInit] ∧
    m' = { m with game := { m.game with difficulty := d, state := v }, wsConnected := conn }

theorem Brushes.refl (m : Mem) : Brushes m m :=
  ⟨m.game.difficulty, m.game.state, m.wsConnected, by simp, rfl⟩

/-- A restart or a random fleet is asked for, if anything. -/
theorem Brushes.state {m m' : Mem} (h : Brushes m m') (restart : m'.game.state ≠ .gameRestart)
    (random : m'.game.state ≠ .randomInit) : m.game.state = m'.game.state := by
  obtain ⟨d, v, conn, hv, rfl⟩ := h
  simp only [List.mem_cons, List.not_mem_nil, or_false] at hv
  rcases hv with rfl | rfl | rfl
  · rfl
  · exact absurd rfl restart
  · exact absurd rfl random

theorem exec_withGame {ans : ∀ c : Call, c.Ans} {f : Game → Game} {m : Mem} {r : Unit × Mem}
    (h : Prog.exec ans (Prog.tryModify (withGame (fun g => some ((), f g))) : GameTask Unit) m =
      .done r) : r = ((), { m with game := f m.game }) := by
  rw [Prog.exec_tryModify, withGame] at h
  split at h
  · cases h
    rfl
  · cases h

theorem setDifficulty_cases {ans : ∀ c : Call, c.Ans} {body : Body} {m : Mem}
    {e : Response × Mem} (h : Prog.exec ans (postSetDifficultyHandler body) m = .done e) :
    e = (.espFail, m) ∨ ∃ d, e = (.ok, { m with game := { m.game with difficulty := d } }) := by
  cases body with
  | closed =>
      cases h
      exact .inl rfl
  | invalid =>
      cases h
      exact .inl rfl
  | json j =>
      simp only [postSetDifficultyHandler] at h
      split at h
      · cases h
        exact .inl rfl
      · split at h
        · rw [Prog.exec_bind] at h
          obtain ⟨r, set, ended⟩ := Outcome.bind_eq_done h
          rw [exec_withGame set] at ended
          cases ended
          exact .inr ⟨_, rfl⟩
        · cases h
          exact .inl rfl

/-- A setup that is not manual asks for a random fleet or has no document. -/
theorem setup_other_cases {ans : ∀ c : Call, c.Ans} {body : Body} {m : Mem} {e : Response × Mem}
    (other : (Request.setupGame body).manual = none)
    (h : Prog.exec ans (postSetupGameHandler body) m = .done e) :
    (body = .closed ∨ body = .invalid) ∧ e.2 = m ∨ ∃ j d, body = .json j ∧ isRandom j = true ∧
      e = (.ok, { m with game := { m.game with difficulty := d, state := .randomInit } }) := by
  cases body with
  | closed =>
      cases h
      exact .inl ⟨.inl rfl, rfl⟩
  | invalid =>
      cases h
      exact .inl ⟨.inr rfl, rfl⟩
  | json j =>
      simp only [postSetupGameHandler, Prog.exec_bind] at h
      obtain ⟨⟨level, m₁⟩, text, h⟩ := Outcome.bind_eq_done h
      obtain ⟨r, set, h⟩ := Outcome.bind_eq_done h
      rw [exec_withGame set] at h
      cases text_eq : difficultyText j with
      | none => simp [text_eq] at text
      | some level' =>
          simp only [text_eq, Prog.exec_ofOption, Option.map_some, Outcome.ofOption_some,
            Outcome.done.injEq, Prod.mk.injEq] at text
          obtain ⟨rfl, rfl⟩ := text
          cases random : isRandom j with
          | true =>
              rw [random, if_pos rfl] at h
              cases h
              exact .inr ⟨j, _, rfl, random, rfl⟩
          | false => simp [Request.manual, random, text_eq] at other

theorem exec_place_other {ans : ∀ c : Call, c.Ans} {body : Body} {m : Mem} {e : Response × Mem}
    (other : (Request.placeShips body).manual = none)
    (h : Prog.exec ans (postPlaceShipsHandler body) m = .done e) : e = (.espFail, m) := by
  cases body with
  | closed =>
      cases h
      rfl
  | invalid =>
      cases h
      rfl
  | json j =>
      cases item : j.getObjectItem "ships" with
      | none =>
          simp only [postPlaceShipsHandler, item] at h
          cases h
          rfl
      | some ships =>
          cases array : ships.isArray with
          | true => simp [Request.manual, item, array] at other
          | false =>
              simp only [postPlaceShipsHandler, item, array, Bool.false_eq_true, if_false] at h
              cases h
              rfl

theorem websocket_cases {ans : ∀ c : Call, c.Ans} {text : WsText} {m : Mem} {e : Response × Mem}
    (h : Prog.exec ans (websocketHandler text) m = .done e) :
    text = .restart ∧ e = (.ok, m.setState .gameRestart) ∨ text ≠ .restart ∧ e = (.ok, m) := by
  cases text with
  | init =>
      simp only [websocketHandler, Prog.exec_bind, Prog.exec_get, Outcome.bind_done] at h
      split at h
      · rw [Prog.exec_bind, exec_sendWsGameUpdate] at h
        cases h
        exact .inr ⟨nofun, rfl⟩
      · cases h
  | restart =>
      simp only [websocketHandler, Prog.exec_bind, Prog.exec_get, Outcome.bind_done] at h
      split at h
      · cases h
        exact .inl ⟨rfl, rfl⟩
      · cases h
  | other =>
      cases h
      exact .inr ⟨nofun, rfl⟩

/-- A request that reaches no placing loop brushes the memory, and leaves it as
it was when the answer is an error. -/
theorem exec_other {ans : ∀ c : Call, c.Ans} {r : Request} {m : Mem} {e : Response × Mem}
    (other : r.manual = none) (h : Prog.exec ans (handle r) m = .done e) :
    Brushes m e.2 ∧ (e.1.isError = true → e.2 = m) := by
  cases r with
  | setDifficulty body =>
      rcases setDifficulty_cases h with rfl | ⟨d, rfl⟩
      · exact ⟨.refl m, fun _ => rfl⟩
      · exact ⟨⟨d, m.game.state, m.wsConnected, by simp, rfl⟩, nofun⟩
  | placeShips body =>
      rw [exec_place_other other h]
      exact ⟨.refl m, fun _ => rfl⟩
  | setupGame body =>
      rcases setup_other_cases other h with ⟨-, same⟩ | ⟨j, d, -, -, rfl⟩
      · rw [same]
        exact ⟨.refl m, fun _ => rfl⟩
      · exact ⟨⟨d, .randomInit, m.wsConnected, by simp, rfl⟩, nofun⟩
  | wsConnect =>
      cases h
      exact ⟨⟨m.game.difficulty, m.game.state, true, by simp, rfl⟩, nofun⟩
  | wsMessage text =>
      rcases websocket_cases h with ⟨-, rfl⟩ | ⟨-, rfl⟩
      · exact ⟨⟨m.game.difficulty, .gameRestart, m.wsConnected, by simp, rfl⟩, nofun⟩
      · exact ⟨.refl m, nofun⟩

/-- What holds of every single write of the web interface holds of every action
of a request that reaches no placing loop. -/
theorem other_always {R : Mem → Mem × List Out → Prop} (w : WebWrites R) {r : Request}
    (other : r.manual = none) : Prog.Always R (handle r) := by
  cases r with
  | setDifficulty body => exact postSetDifficultyHandler_always w body
  | placeShips body =>
      cases body with
      | closed => trivial
      | invalid => trivial
      | json j =>
          simp only [handle, postPlaceShipsHandler]
          split
          · trivial
          · rename_i ships item
            have scalar : ¬ships.isArray = true := fun array => by
              simp [Request.manual, item, array] at other
            rw [if_neg scalar]
            trivial
  | setupGame body =>
      cases body with
      | closed => trivial
      | invalid => trivial
      | json j =>
          cases text : difficultyText j with
          | none =>
              simp only [handle, postSetupGameHandler, text]
              trivial
          | some level =>
              have random : isRandom j = true := by
                by_contra manual
                simp [Request.manual, text, manual] at other
              simp only [handle, postSetupGameHandler, text, random, if_true]
              apply Prog.Always.bind (Prog.always_ofOption _)
              exact fun _ => .bind (setDifficulty_always w.none w.difficulty _) fun _ =>
                command_always w (by simp)
  | wsConnect => exact .bind (Prog.always_write w.connected) fun _ => trivial
  | wsMessage text => exact websocketHandler_always w text

/-- And what holds of every single write of a list, of every action of one that does. -/
theorem manual_always {R : Mem → Mem × List Out → Prop} (w : ListWrites R) {r : Request}
    {list : Manual} (h : r.manual = some list) : Prog.Always R (handle r) := by
  rcases manual_cases h with ⟨j, level, rfl, manual, -, -⟩ | ⟨j, ships, rfl, -, -, -⟩
  · exact setupList_always w manual
  · exact postPlaceShipsHandler_always w (.json j)

/-- A manual request needs the game to have been created. -/
theorem exec_manual_created {ans : ∀ c : Call, c.Ans} {r : Request} {w : Manual} {m : Mem}
    {e : Response × Mem} (h : r.manual = some w)
    (done : Prog.exec ans (handle r) m = .done e) : m.currentGame = true := by
  by_contra missing
  rcases manual_cases h with ⟨j, level, rfl, manual, text, rfl⟩ | ⟨j, ships, rfl, item, array, rfl⟩
  · simp [handle, postSetupGameHandler, text, withGame, missing] at done
  · simp [handle, postPlaceShipsHandler, item, array, resetBoatCount, withGame, missing] at done

/-- The state that a request asks for. -/
def Request.commanded : Request → Option GameState
  | .setupGame (.json j) => if isRandom j then some .randomInit else none
  | .wsMessage .restart => some .gameRestart
  | _ => none

theorem commanded_cases (r : Request) : r.commanded = none ∨ r.commanded = some .gameRestart ∨
    r.commanded = some .randomInit := by
  unfold Request.commanded
  split
  · split
    · exact .inr (.inr rfl)
    · exact .inl rfl
  · exact .inr (.inl rfl)
  · exact .inl rfl

/-- A request leaves the state it asks for, or the one there was. -/
theorem handle_state {ans : ∀ c : Call, c.Ans} {r : Request} {m : Mem} {e : Response × Mem}
    (h : Prog.exec ans (handle r) m = .done e) :
    e.2.game.state = r.commanded.getD m.game.state := by
  cases manual : r.manual with
  | some w =>
      rw [exec_manual ans manual (exec_manual_created manual h)] at h
      obtain ⟨e', -, rfl⟩ := Option.map_eq_some_iff.mp (Outcome.ofOption_eq_done h)
      rcases manual_cases manual with ⟨j, level, rfl, random, -, -⟩ | ⟨j, ships, rfl, -, -, -⟩
      · simp [Request.commanded, random, Manual.after]
      · rfl
  | none =>
      cases r with
      | setDifficulty body =>
          rcases setDifficulty_cases h with rfl | ⟨d, rfl⟩
          · rfl
          · rfl
      | placeShips body =>
          rw [exec_place_other manual h]
          cases body <;> rfl
      | setupGame body =>
          rcases setup_other_cases manual h with ⟨rfl | rfl, same⟩ | ⟨j, d, rfl, random, rfl⟩
          · rw [same]
            rfl
          · rw [same]
            rfl
          · rw [Request.commanded, if_pos random]
            rfl
      | wsConnect =>
          cases h
          rfl
      | wsMessage text =>
          rcases websocket_cases h with ⟨rfl, rfl⟩ | ⟨other, rfl⟩
          · rfl
          · cases text with
            | restart => exact absurd rfl other
            | init => rfl
            | other => rfl

/-- A request run to its end: the answer, and the memory it leaves. -/
def respond (r : Request) (m : Mem) : Outcome (Response × Mem) :=
  Prog.exec (answer none) (handle r) m

def shipItem (row col length : Int) : Json :=
  .object [("row", .number row), ("col", .number col), ("length", .number length),
    ("horizontal", .number 1)]

/-- The body the page sends: the difficulty as text, and the ships. -/
def setupList (ships : List Json) : Request :=
  .setupGame (.json (.object [("difficulty", .string ['2']), ("ships", .array ships)]))

/-- The page asks for a random fleet. -/
def randomSetup : Request :=
  .setupGame (.json (.object [("difficulty", .string ['2']), ("random", .bool true)]))

end Battleship
