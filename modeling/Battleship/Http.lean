import Battleship.System

/-!
# The HTTP server

The request handlers of `http_server.c`. A request body is what `cJSON_Parse`
makes of it; the accessors are the documented ones of cJSON, where a missing
item is NULL and reading through NULL is undefined.
-/
namespace Battleship
open Cooperative

inductive Json where
  | null
  | bool (b : Bool)
  | number (valueint : Int)
  | string (valuestring : List Char)
  | array (items : List Json)
  | object (members : List (String × Json))

/-- Member names are compared without case. -/
def sameName (a b : String) : Bool := a.toList.map Char.toLower = b.toList.map Char.toLower

namespace Json

def getObjectItem (name : String) : Json → Option Json
  | .object members => (members.find? (fun m => sameName name m.1)).map Prod.snd
  | _ => none

/-- The children of an item: elements or member values. -/
def children : Json → List Json
  | .array items => items
  | .object members => members.map Prod.snd
  | _ => []

def valueint : Json → Int
  | .number v => v
  | .bool b => if b then 1 else 0
  | _ => 0

def valuestring : Json → Option (List Char)
  | .string s => some s
  | _ => none

def isNumber : Json → Bool
  | .number _ => true
  | _ => false

def isArray : Json → Bool
  | .array _ => true
  | _ => false

def isTrue : Json → Bool
  | .bool b => b
  | _ => false

end Json

def atoiDigits : Int → List Char → Int
  | acc, [] => acc
  | acc, c :: cs => if c.isDigit then atoiDigits (acc * 10 + (c.toNat - '0'.toNat : Nat)) cs else acc

/-- `isspace` of the C locale. -/
def isSpace (c : Char) : Bool := c = ' ' ∨ (9 ≤ c.toNat ∧ c.toNat ≤ 13)

/-- A 32-bit `int`; what is out of its range becomes the end nearest to it. -/
def saturate (x : Int) : Int := max (-2147483648) (min x 2147483647)

/-- As newlib has it, by a `strtol` with a `long` of 32 bits. -/
def atoi (s : List Char) : Int :=
  saturate (match s.dropWhile isSpace with
    | '-' :: cs => -atoiDigits 0 cs
    | '+' :: cs => atoiDigits 0 cs
    | cs => atoiDigits 0 cs)

/-- What `httpd_req_recv` and `cJSON_Parse` gave: no data, text that is not
JSON, or a document. -/
inductive Body where
  | closed
  | invalid
  | json (j : Json)

inductive Response where
  | ok
  | badRequest (text : String)
  | espFail
  deriving DecidableEq, Repr

def Response.isError : Response → Bool
  | .ok => false
  | .badRequest _ => true
  | .espFail => true

/-- A ship as a handler decodes it. -/
structure ShipRequest where
  row : Int
  col : Int
  length : Int
  horizontal : Bool
  deriving DecidableEq, Repr

/-- `cJSON_GetObjectItem(ship, name)->valueint`. -/
def shipField (name : String) (ship : Json) : Option Int :=
  (ship.getObjectItem name).map Json.valueint

def decodePlaceShip (ship : Json) : Option ShipRequest := do
  let length ← shipField "length" ship
  let row ← shipField "row" ship
  let row ← cInt (row + (gridSize - 1))
  let col ← shipField "col" ship
  let horizontal ← shipField "horizontal" ship
  return ⟨row, col, length, horizontal ≠ 0⟩

def decodeSetupShip (ship : Json) : Option ShipRequest := do
  let row ← shipField "row" ship
  let row ← cInt ((gridSize - 1) - row)
  let length ← shipField "length" ship
  let col ← shipField "col" ship
  let horizontal ← shipField "horizontal" ship
  if horizontal = 0 then
    let less ← cInt (length - 1)
    let row ← cInt (row - less)
    return ⟨row, col, length, false⟩
  else return ⟨row, col, length, true⟩

/-- `get_game_instance()` read through: NULL before the first `Game_Init`. -/
def withGame (f : Game → Option (α × Game)) (m : Mem) : Option (α × Mem) :=
  if m.currentGame then (f m.game).map (fun r => (r.1, { m with game := r.2 })) else none

/-- The test and placement of one ship; `none` when it does not fit. -/
def Player.seat (p : Player) (ship : ShipRequest) : Option (Option Player) := do
  if ← canPlaceShip p.board ship.row ship.col ship.length ship.horizontal then
    let p ← p.placeNext ship.row ship.col ship.length ship.horizontal
    return some p
  else return none

/-- Seats a ship on the player's board, and tells the slot it went into. One write:
`can_place_ship` and `place_ship` are taken together. -/
def placeRequest (ship : ShipRequest) (g : Game) : Option (Option Nat × Game) := do
  match ← g.player.seat ship with
  | some p => return (some g.player.boatCount, { g with player := p })
  | none => return (none, g)

def countBoat : GameTask Unit :=
  Prog.modify (fun m => { m with game := { m.game with player :=
    { m.game.player with boatCount := m.game.player.boatCount + 1 } } })

/-- The loop both handlers run over the ships: `false` when a ship does not
fit. What follows a placement (robot command, pause, count) is `finish`. -/
def placeLoop (decode : Json → Option ShipRequest) (finish : ShipRequest → Nat → GameTask Unit) :
    List Json → GameTask Bool
  | [] => .ret true
  | item :: rest => do
      let ship ← Prog.ofOption (decode item)
      let m ← Prog.get
      if maxShips ≤ m.game.player.boatCount then return true
      else
        match ← Prog.tryModify (withGame (placeRequest ship)) with
        | some slot =>
            finish ship slot
            placeLoop decode finish rest
        | none => return false

/-- `col + length - 1`, as the place handler groups it. -/
def farEdge (col length : Int) : Option Int := do
  let sum ← cInt (col + length)
  cInt (sum - 1)

def finishPlaceShip (ship : ShipRequest) (slot : Nat) : GameTask Unit := do
  let far ← Prog.ofOption (farEdge ship.col ship.length)
  sendRobotCommand slot ship.row far (if ship.horizontal then 0 else 1) 0
  countBoat
  vTaskDelay 10000

/-- `col + (length - 1)`, as the setup handler groups it. -/
def lastEdge (col length : Int) : Option Int := do
  let less ← cInt (length - 1)
  cInt (col + less)

def setupCommand (ship : ShipRequest) (slot : Nat) : GameTask Unit :=
  if ship.horizontal then do
    let far ← Prog.ofOption (lastEdge ship.col ship.length)
    sendRobotCommand slot ship.row far 0 0
  else sendRobotCommand slot ship.row ship.col 1 0

def finishSetupShip (ship : ShipRequest) (slot : Nat) : GameTask Unit := do
  setupCommand ship slot
  vTaskDelay 10000
  countBoat

def resetBoatCount : GameTask Unit :=
  Prog.tryModify (withGame (fun g =>
    some ((), { g with player := { g.player with boatCount := 0 } })))

def setReady : GameTask Unit :=
  Prog.modify (fun m => { m with game := { m.game with gameReady := true } })

def postSetDifficultyHandler : Body → GameTask Response
  | .closed => .ret .espFail
  | .invalid => .ret .espFail
  | .json j =>
      match j.getObjectItem "difficulty" with
      | none => .ret .espFail
      | some level =>
          if level.isNumber then do
            Prog.tryModify (withGame (fun g => some ((), { g with difficulty := level.valueint })))
            return .ok
          else .ret .espFail

def postPlaceShipsHandler : Body → GameTask Response
  | .closed => .ret .espFail
  | .invalid => .ret .espFail
  | .json j =>
      match j.getObjectItem "ships" with
      | none => .ret .espFail
      | some ships =>
          if ships.isArray then do
            resetBoatCount
            if ← placeLoop decodePlaceShip finishPlaceShip ships.children then
              setReady
              return .ok
            else return .espFail
          else .ret .espFail

/-- `level->valuestring`. -/
def difficultyText (j : Json) : Option (List Char) :=
  (j.getObjectItem "difficulty").bind Json.valuestring

/-- `cJSON_IsTrue(random)`. -/
def isRandom (j : Json) : Bool := ((j.getObjectItem "random").map Json.isTrue).getD false

/-- The array the setup handler goes through: a missing list counts as empty. -/
def setupShips (j : Json) : List Json := ((j.getObjectItem "ships").map Json.children).getD []

/-- The state is the last thing a random request writes; `ships` is used only
when the request is not random. -/
def postSetupGameHandler : Body → GameTask Response
  | .closed => .ret .espFail
  | .invalid => .ret (.badRequest "Invalid JSON")
  | .json j => do
      let level ← Prog.ofOption (difficultyText j)
      Prog.tryModify (withGame (fun g => some ((), { g with difficulty := atoi level })))
      if isRandom j then
        Prog.write (fun m => m.setState .randomInit) [.command .randomInit]
        return .ok
      else
        resetBoatCount
        if ← placeLoop decodeSetupShip finishSetupShip (setupShips j) then
          setReady
          return .ok
        else return .badRequest "Invalid placement"

/-- The texts the WebSocket handler knows. -/
inductive WsText where
  | init
  | restart
  | other
  deriving DecidableEq, Repr

def websocketHandler : WsText → GameTask Response
  | .init => do
      let m ← Prog.get
      if m.currentGame ∨ ¬m.wsConnected then
        sendWsGameUpdate true
        return .ok
      else .undefined
  | .restart => do
      let m ← Prog.get
      if m.currentGame then
        Prog.write (fun m => m.setState .gameRestart) [.command .gameRestart]
        return .ok
      else .undefined
  | .other => .ret .ok

/-- Everything a browser can send. -/
inductive Request where
  | setDifficulty (body : Body)
  | placeShips (body : Body)
  | setupGame (body : Body)
  | wsConnect
  | wsMessage (text : WsText)

def handle : Request → GameTask Response
  | .setDifficulty body => postSetDifficultyHandler body
  | .placeShips body => postPlaceShipsHandler body
  | .setupGame body => postSetupGameHandler body
  | .wsConnect => do
      Prog.modify (fun m => { m with wsConnected := true })
      return .ok
  | .wsMessage text => websocketHandler text

end Battleship
