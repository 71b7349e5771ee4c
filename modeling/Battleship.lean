import Battleship.Lib.Prog
import Battleship.Lib.Runs
import Battleship.Lib.Salvo
import Battleship.Placement
import Battleship.Buttons
import Battleship.Deadlock
import Battleship.Delivery
import Battleship.SendMode
import Battleship.WebCommands
import Battleship.Rejection
import Battleship.LegalFleet
import Battleship.Consistency
import Battleship.Tracker
import Battleship.Match
import Battleship.Mirror
import Battleship.TurnFlag
import Battleship.Endpoints
import Battleship.Retrieval
import Battleship.Disguise
import Battleship.NewGame
import Battleship.Progress
import Battleship.Clearing
import Battleship.Fitting
import Battleship.HeatMap
import Battleship.RandomFleet
import Battleship.NullReads
import Battleship.Reception
import Battleship.Picture
import Battleship.Line
import Battleship.Chase
import Battleship.Prospect
import Battleship.Rendering
import Battleship.Heartbeat
import Battleship.Presses
import Battleship.Posting
import Battleship.Pings
import Battleship.Displays
import Battleship.Marks
import Battleship.Serial
import Battleship.Tuning
import Battleship.Games
import Battleship.Sweep
