import Battleship.Audience
import Battleship.Outgoing
import Battleship.Serial

/-!
# Lists of ships by turns with the game task

As long as a list of ships is not served while the game task is inside a case, the
firmware has done whole lists and whole iterations, one after the other. Every other
request may come at any time: it brushes the memory between two of them.
-/
namespace Battleship
open Cooperative Prog Runs

/-- What a request that seats no ships may have done to a memory. -/
structure Touches (m m' : Mem) : Prop where
  brushes : Brushes m m'
  uncreated : m.currentGame = false → m'.game = m.game

theorem Touches.refl (m : Mem) : Touches m m := ⟨.refl m, fun _ => rfl⟩

theorem Touches.created {m m' : Mem} (h : Touches m m') : m'.currentGame = m.currentGame := by
  obtain ⟨d, v, conn, -, rfl⟩ := h.brushes
  rfl

theorem Touches.trans {m m' m'' : Mem} (h : Touches m m') (h' : Touches m' m'') :
    Touches m m'' := by
  refine ⟨?_, fun uncreated => ?_⟩
  · obtain ⟨d, v, conn, hv, rfl⟩ := h.brushes
    obtain ⟨d', v', conn', hv', rfl⟩ := h'.brushes
    refine ⟨d', v', conn', ?_, rfl⟩
    rcases List.mem_cons.mp hv' with rfl | asked
    · exact hv
    · exact List.mem_cons_of_mem _ asked
  · exact (h'.uncreated (h.created.trans uncreated)).trans (h.uncreated uncreated)

theorem touches_sharing : SharingGame Touches where
  same := by
    rintro m _ ⟨⟨d, v, conn, -, rfl⟩, -⟩
    rfl
  created m₁ m₂ h := h.created.symm
  put := by
    rintro m _ x ⟨⟨d, v, conn, hv, rfl⟩, game⟩
    exact ⟨⟨d, v, conn, hv, rfl⟩, fun uncreated =>
      congrArg (fun g : Game =>
        { g with player := x.player, gameReady := x.gameReady, turn := x.turn }) (game uncreated)⟩
  enter := by
    rintro m _ w ⟨⟨d, v, conn, hv, rfl⟩, game⟩
    exact ⟨⟨d, w, conn, List.mem_cons_self, rfl⟩, fun uncreated =>
      congrArg (fun g : Game => { g with state := w }) (game uncreated)⟩
  level := by
    rintro m _ l ⟨⟨d, v, conn, hv, rfl⟩, game⟩
    exact ⟨⟨l, v, conn, hv, rfl⟩, fun uncreated =>
      congrArg (fun g : Game => { g with difficulty := l }) (game uncreated)⟩
  opponent := by
    rintro m _ ⟨⟨d, v, conn, -, rfl⟩, -⟩
    rfl
  rng := by
    rintro m _ ⟨⟨d, v, conn, -, rfl⟩, -⟩
    rfl
  rival := by
    rintro m _ q ⟨⟨d, v, conn, hv, rfl⟩, game⟩
    exact ⟨⟨d, v, conn, hv, rfl⟩, fun uncreated =>
      congrArg (fun g : Game => { g with opponent := q }) (game uncreated)⟩
  draw := by
    rintro m _ r ⟨⟨d, v, conn, hv, rfl⟩, game⟩
    exact ⟨⟨d, v, conn, hv, rfl⟩, game⟩
  create := by
    rintro m _ ⟨⟨d, v, conn, hv, rfl⟩, game⟩
    exact ⟨⟨d, v, conn, hv, rfl⟩, fun uncreated => by cases uncreated⟩

/-- A list of ships taken up or a case begun: the memory it began in, and the robot
commands it has queued so far. -/
structure Deed where
  mem : Mem
  event : Event
  told : List IoMessage

/-- A run of whole events, the last one first, with the robot commands of each. -/
inductive Chronicled (lim : Limits) (ok : Mem → Event → Prop) : List Deed → Mem → Prop
  | start {m : Mem} : m.game.state = .init → m.currentGame = false → Chronicled lim ok [] m
  | touch {ds : List Deed} {m m' : Mem} : Chronicled lim ok ds m → Touches m m' →
      Chronicled lim ok ds m'
  | deed {ds : List Deed} {m m' : Mem} {e : Event} : Chronicled lim ok ds m → ok m e →
      seqStep lim m e = some m' →
      Chronicled lim ok (⟨m, e, orders (seqTrace lim m e)⟩ :: ds) m'

section Chronicled
variable {lim : Limits} {ok : Mem → Event → Prop} {ds : List Deed} {m : Mem}

/-- What every event keeps, and every request in between, holds from `Game_Init` on. -/
theorem Chronicled.invariant {P : List Deed → Mem → Prop} (h : Chronicled lim ok ds m)
    (booted : ∀ ds m, Booted m → P ds m) (touched : ∀ ds m m', P ds m → Touches m m' → P ds m')
    (step : ∀ ds m e m', P ds m → ok m e → seqStep lim m e = some m' →
      P (⟨m, e, orders (seqTrace lim m e)⟩ :: ds) m') :
    m.currentGame = false ∧ m.game.state = .init ∨ P ds m := by
  induction h with
  | start state uncreated => exact .inl ⟨uncreated, state⟩
  | touch _ touches ih =>
      rcases ih with ⟨uncreated, state⟩ | holds
      · exact .inl ⟨touches.created.trans uncreated, touches.uncreated uncreated ▸ state⟩
      · exact .inr (touched _ _ _ holds touches)
  | @deed ds m m' e _ allowed done ih =>
      rcases ih with ⟨uncreated, state⟩ | holds
      · cases e with
        | request r =>
            obtain ⟨a, ran⟩ := Outcome.memory_some done
            obtain ⟨same, uncreated'⟩ := handle_uncreated uncreated ran
            exact .inl ⟨uncreated', same ▸ state⟩
        | iteration msg =>
            rw [seqStep_create state] at done
            exact .inr (booted _ _ ⟨m, lim, state, (seqStep_create state none).trans done⟩)
      · exact .inr (step ds m e m' holds allowed done)

/-- Each event began where those before it had led to, and queued its commands. -/
theorem Chronicled.split (newer : List Deed) {older : List Deed} {d : Deed}
    (h : Chronicled lim ok (newer ++ d :: older) m) : ∃ m', Chronicled lim ok older d.mem ∧
      ok d.mem d.event ∧ seqStep lim d.mem d.event = some m' ∧
      d.told = orders (seqTrace lim d.mem d.event) ∧ (newer = [] → Touches m' m) := by
  generalize split : newer ++ d :: older = ds at h
  induction h generalizing newer with
  | start => exact absurd split (by simp)
  | touch _ touches ih =>
      obtain ⟨m', before, allowed, done, told, after⟩ := ih _ split
      exact ⟨m', before, allowed, done, told, fun last => (after last).trans touches⟩
  | @deed ds m m' e before allowed done ih =>
      cases newer with
      | nil =>
          cases split
          exact ⟨m', before, allowed, done, rfl, fun _ => .refl m'⟩
      | cons _ newer =>
          cases split
          obtain ⟨m₁, before', allowed', done', told, -⟩ := ih _ rfl
          exact ⟨m₁, before', allowed', done', told, nofun⟩

end Chronicled

theorem orders_inl (log : List Out) : orders (log.map .inl) = [] := by
  simp [orders, List.filterMap_map, Function.comp_def]

theorem orders_iteration (lim : Limits) (msg : Option IoMessage) (m : Mem) :
    orders (seqTrace lim m (.iteration msg)) =
      orders (Prog.trace (answer msg) (gameSwitch lim m.game.state) m) :=
  orders_bind_mute (answer msg) (fun _ => mute_loopTail) m

/-- The last deed has queued this. -/
def tell (order : Option IoMessage) : List Deed → List Deed
  | [] => []
  | d :: ds => { d with told := d.told ++ order.toList } :: ds

@[simp] theorem tell_none (ds : List Deed) : tell none ds = ds := by
  cases ds with
  | nil => rfl
  | cons d ds => simp [tell]

/-- The last deed is this event, which has come to `t` in `m`. -/
def Ongoing (lim : Limits) (ok : Mem → Event → Prop) (e : Event) (ans : ∀ c : Call, c.Ans)
    {α : Type} (whole : Mem → GameTask α) (ds : List Deed) (t : GameTask α) (m : Mem) : Prop :=
  ∃ m₀ l older, ds = ⟨m₀, e, orders l⟩ :: older ∧ Chronicled lim ok older m₀ ∧ ok m₀ e ∧
    Prog.Passage ans (whole m₀) m₀ l t m

section Ongoing
variable {lim : Limits} {ok : Mem → Event → Prop} {e : Event} {ans : ∀ c : Call, c.Ans}
  {α : Type} {whole : Mem → GameTask α} {ds : List Deed} {t : GameTask α} {m : Mem}

theorem Ongoing.begin (whole : Mem → GameTask α) (past : Chronicled lim ok ds m)
    (allowed : ok m e) : Ongoing lim ok e ans whole (⟨m, e, []⟩ :: ds) (whole m) m :=
  ⟨m, [], ds, rfl, past, allowed, .refl⟩

theorem Ongoing.step {f : Mem → Mem × List Out} {k : Mem → GameTask α}
    (h : Ongoing lim ok e ans whole ds (.step f k) m) :
    Ongoing lim ok e ans whole ds (k m) (f m).1 := by
  obtain ⟨m₀, l, older, rfl, past, allowed, passage⟩ := h
  refine ⟨m₀, _, older, ?_, past, allowed, passage.step⟩
  rw [orders_append, orders_inl, List.append_nil]

theorem Ongoing.call {c : Call} {k : c.Ans → GameTask α}
    (h : Ongoing lim ok e ans whole ds (.call c k) m) :
    Ongoing lim ok e ans whole (tell c.order ds) (k (ans c)) m := by
  obtain ⟨m₀, l, older, rfl, past, allowed, passage⟩ := h
  refine ⟨m₀, _, older, ?_, past, allowed, passage.call⟩
  rw [orders_append, orders_call]
  rfl

theorem Ongoing.settle (h : Ongoing lim ok e ans whole ds t m) :
    Ongoing lim ok e ans whole ds (t.settle m).1 (t.settle m).2.1 := by
  obtain ⟨m₀, l, older, rfl, past, allowed, passage⟩ := h
  refine ⟨m₀, _, older, ?_, past, allowed, passage.settle⟩
  rw [orders_append, orders_inl, List.append_nil]

/-- A handler that has run is a whole request. -/
theorem Ongoing.request {r : Request} {a : Response}
    (h : Ongoing lim ok (.request r) (answer none) (fun _ => handle r) ds (.ret a) m) :
    Chronicled lim ok ds m := by
  obtain ⟨m₀, l, older, rfl, past, allowed, passage⟩ := h
  obtain ⟨ran, traced⟩ := passage.ended
  have done : seqStep lim m₀ (.request r) = some m := by rw [seqStep, ran, Outcome.memory]
  have next := past.deed allowed done
  rwa [seqTrace, traced] at next

/-- A case that has run is a whole iteration. -/
theorem Ongoing.iteration {msg : Option IoMessage}
    (h : Ongoing lim ok (.iteration msg) (answer msg) (fun m => gameSwitch lim m.game.state) ds
      (.ret ()) m) : Chronicled lim ok ds m := by
  obtain ⟨m₀, l, older, rfl, past, allowed, passage⟩ := h
  obtain ⟨ran, traced⟩ := passage.ended
  have done : seqStep lim m₀ (.iteration msg) = some m := by
    rw [seqStep, exec_gameIteration, ran, Outcome.memory]
  have next := past.deed allowed done
  rwa [orders_iteration, traced] at next

end Ongoing

namespace Firmware

/-- The case that is dispatched, and opens when the pending call returns. -/
def opening (s : Firmware) : Option GameState :=
  match s.game with
  | .inSwitch t => t.pending.bind Call.opens
  | .inTail _ => none

/-- The memory as the game task sees it: the state is the one it was dispatched on. -/
def facing (s : Firmware) : Mem := s.opening.elim s.mem s.mem.setState

/-- The case that the next step of the game task begins. A case that has nothing to do
yet, or finds no message, begins nothing. -/
def begins (s : Firmware) : Option GameState :=
  if atHead s.game then
    if s.mem.game.state.waitsFirst ∨ s.Unready then none else some s.mem.game.state
  else s.opening.filter (fun v => v ≠ .waitingForPlayer ∨ s.receiveQueue ≠ [])

theorem opening_inSwitch {s : Firmware} {cl : Call} {k : cl.Ans → GameTask Unit}
    (case : s.game = .inSwitch (.call cl k)) : s.opening = cl.opens := by
  rw [opening, case]
  rfl

theorem begins_inSwitch {s : Firmware} {cl : Call} {k : cl.Ans → GameTask Unit}
    (case : s.game = .inSwitch (.call cl k)) :
    s.begins = cl.opens.filter (fun v => v ≠ .waitingForPlayer ∨ s.receiveQueue ≠ []) := by
  have inside : atHead s.game = false := by
    rw [case]
    rfl
  rw [begins, if_neg (by simp [inside]), opening_inSwitch case]

end Firmware

/-- The firmware, whether the request that came last was a list of ships, and what has
been taken up since the start, the last deed first. -/
structure Chronicle where
  fw : Firmware
  listing : Bool
  deeds : List Deed

namespace Chronicle
variable {lim : Limits} {ok : Mem → Event → Prop} {c c' : Chronicle}

/-- What this step takes up. -/
def begun (c : Chronicle) : Act → Option Deed
  | .game => c.fw.begins.map (fun _ => ⟨c.fw.facing, .iteration c.fw.receiveQueue.head?, []⟩)
  | .request r => r.manual.map (fun _ => ⟨c.fw.facing, .request r, []⟩)
  | _ => none

def lists (c : Chronicle) : Act → Bool
  | .request r => r.manual.isSome
  | _ => c.listing

def step (lim : Limits) (c : Chronicle) (a : Act) : Option Chronicle :=
  (c.fw.step lim a).map (fun s => ⟨s, c.lists a,
    tell ((c.fw.answered a).bind Call.order) ((c.begun a).toList ++ c.deeds)⟩)

def Start (lim : Limits) (c : Chronicle) : Prop :=
  Firmware.Start lim c.fw ∧ c.listing = false ∧ c.deeds = []

/-- No case begins before the list at work is done, and no list is taken up before the
case at work is left. -/
def Apart (ok : Mem → Event → Prop) (c : Chronicle) : Act → Prop
  | .game => ∀ v ∈ c.fw.begins, (c.listing = true → c.fw.Served = true) ∧
      ok c.fw.facing (.iteration c.fw.receiveQueue.head?)
  | .request r => r.manual.isSome → c.fw.Between = true ∧ ok c.fw.facing (.request r)
  | _ => True

theorem brushes_writes : WebWrites (fun m r => Brushes m r.1) where
  none m := .refl m
  difficulty m d := ⟨d, m.game.state, m.wsConnected, List.mem_cons_self, rfl⟩
  connected m := ⟨m.game.difficulty, m.game.state, true, List.mem_cons_self, rfl⟩
  command m v hv := ⟨m.game.difficulty, v, m.wsConnected, List.mem_cons_of_mem _ hv, rfl⟩
  frame m _ := .refl m

/-- The handler at work seats no ships: all it may do to the memory is touch it. -/
structure Aside (s : Firmware) (t : GameTask Response) : Prop where
  brushes : Prog.Always (fun m r => Brushes m r.1) t
  early : s.mem.currentGame = false →
    Prog.AlwaysIn (fun m => m.currentGame = false) (fun m r => r.1.game = m.game) t
  mute : Mute t

/-- The handler at work seats ships: it goes on alike in memories that others touch, and
leaves the state as it is. -/
structure Seating (t : GameTask Response) : Prop where
  inside : Prog.Asks Call.Inside t
  blind : Prog.Blind Touches t
  state : Prog.Always (fun m r => r.1.game.state = m.game.state) t

/-- Between two cases, with nothing more for the robot in the tail. -/
def Idles (lim : Limits) (s : Firmware) : Prop :=
  Firmware.Resting lim s.game ∧ ∀ t, s.game = .inTail t → Mute t

/-- Between two deeds, in a memory that whole events have led to. -/
structure AtRest (lim : Limits) (ok : Mem → Event → Prop) (c : Chronicle) (m : Mem) : Prop where
  rest : Idles lim c.fw
  aside : ∀ t, c.fw.httpd = some t → Aside c.fw t
  past : Chronicled lim ok c.deeds m
  touches : Touches m c.fw.mem
  faces : ∀ v ∈ c.fw.opening, m.game.state = v

/-- What the deeds so far have done, and what is left of the last. -/
inductive Tracks (lim : Limits) (ok : Mem → Event → Prop) (c : Chronicle) : Prop
  | resting {m : Mem} : AtRest lim ok c m → Tracks lim ok c
  | serving {r : Request} {t : GameTask Response} {m : Mem} : c.listing = true →
      Idles lim c.fw → c.fw.httpd = some t →
      Ongoing lim ok (.request r) (answer none) (fun _ => handle r) c.deeds t m → Seating t →
      Touches m c.fw.mem → (∀ v ∈ c.fw.opening, m.game.state = v) → Tracks lim ok c
  | playing {msg : Option IoMessage} {t : GameTask Unit} {m : Mem} : c.fw.game = .inSwitch t →
      (∀ t, c.fw.httpd = some t → Aside c.fw t) →
      Ongoing lim ok (.iteration msg) (answer msg) (fun m => gameSwitch lim m.game.state)
        c.deeds t m → Prog.Asks Call.Inside t →
      KeepsPace Touches (fun _ => false) Touches t → KeepsPace Peers (fun _ => false) Peers t →
      Touches m c.fw.mem → Tracks lim ok c

theorem Aside.of_created {s s' : Firmware} {t : GameTask Response} (h : Aside s t)
    (created : s.mem.currentGame = true → s'.mem.currentGame = true) : Aside s' t := by
  refine ⟨h.brushes, fun uncreated => h.early ?_, h.mute⟩
  by_contra earlier
  rw [created (by simpa using earlier)] at uncreated
  cases uncreated

theorem aside_ret (s : Firmware) (a : Response) : Aside s (.ret a) :=
  ⟨trivial, fun _ => trivial, trivial⟩

/-- Between two deeds, at the end of a list as well. -/
theorem Tracks.rests (h : c.Tracks lim ok) (between : c.fw.Between = true)
    (served : c.listing = true → c.fw.Served = true) : ∃ m, AtRest lim ok c m := by
  cases h with
  | resting rests => exact ⟨_, rests⟩
  | @serving r t m listing rest handler ongoing _ touches faces =>
      have done := served listing
      rw [Firmware.Served, handler] at done
      split at done
      · rename_i none
        cases none
      · rename_i a ended
        cases ended
        refine ⟨m, rest, fun t eq => ?_, ongoing.request, touches, faces⟩
        cases handler.symm.trans eq
        exact aside_ret _ _
      · cases done
  | playing case _ _ inside =>
      cases between.symm.trans (Firmware.not_between case inside)

/-- The memory that the game task faces lies between the two. -/
theorem AtRest.facing {m : Mem} (h : AtRest lim ok c m) : Touches m c.fw.facing ∧
    Touches c.fw.facing c.fw.mem ∧ ∀ v ∈ c.fw.opening, c.fw.facing.game.state = v := by
  cases opening : c.fw.opening with
  | none =>
      rw [Firmware.facing, opening]
      exact ⟨h.touches, .refl _, nofun⟩
  | some v =>
      obtain rfl : m.game.state = v := h.faces v opening
      have same : m.currentGame = false → c.fw.mem.setState m.game.state = c.fw.mem :=
        fun uncreated =>
        congrArg c.fw.mem.setState (congrArg Game.state (h.touches.uncreated uncreated)).symm
      rw [Firmware.facing, opening]
      refine ⟨⟨?_, fun uncreated => ?_⟩, ⟨?_, fun uncreated => ?_⟩, fun v eq => Option.some.inj eq⟩
      · obtain ⟨d, v, conn, -, eq⟩ := h.touches.brushes
        rw [eq]
        exact ⟨d, m.game.state, conn, List.mem_cons_self, rfl⟩
      · exact (congrArg Mem.game (same uncreated)).trans (h.touches.uncreated uncreated)
      · obtain ⟨d, v, conn, hv, eq⟩ := h.touches.brushes
        rw [eq]
        exact ⟨d, v, conn, hv, rfl⟩
      · exact congrArg Mem.game (same (h.touches.created.symm.trans uncreated)).symm

theorem inTail_idles (lim : Limits) (s : Firmware) {t : GameTask Unit} (still : Still t)
    (mute : Mute t) : Idles lim (s.inTail t) := by
  refine ⟨(Firmware.inTail_resting lim still).1, fun t' eq => ?_⟩
  cases eq
  exact Prog.Asks.settle mute s.mem

/-- A game that has been created stays so. -/
theorem created_settle {t : GameTask Unit} (stays : KeepsPace Peers (fun _ => false) Peers t)
    {m : Mem}
    (created : m.currentGame = true) : (t.settle m).2.1.currentGame = true :=
  (stays.now (.heard m.wsConnected created)).mem.created

/-- A case under way is at its next call, or over. -/
theorem inSwitch_tracks {E : Mem → Mem → Prop} {s : Firmware} {listing : Bool} {ds : List Deed}
    {msg : Option IoMessage} {t : GameTask Unit} {m : Mem}
    (aside : ∀ t, s.httpd = some t → Aside s t)
    (ongoing : Ongoing lim ok (.iteration msg) (answer msg) (fun m => gameSwitch lim m.game.state)
      ds t m) (inside : Prog.Asks Call.Inside t) (pace : KeepsPace Touches (fun _ => false) E t)
    (stays : KeepsPace Peers (fun _ => false) Peers t) (related : E m s.mem) :
    Tracks lim ok ⟨s.inSwitch t, listing, ds⟩ := by
  have alike := pace.now related
  have settled := ongoing.settle
  rcases Firmware.inSwitch_cases s t with ⟨ended, shape⟩ | ⟨-, shape⟩
  · let s' := { s with mem := (t.settle s.mem).2.1, log := s.log ++ (t.settle s.mem).2.2 }
    obtain ⟨rest, mem, -⟩ := Firmware.inTail_resting lim (s := s') loopTail_still
    rw [alike.rest, ended] at settled
    refine .resting (m := (t.settle m).2.1) ⟨?_, fun t' eq => ?_, settled.iteration, ?_, ?_⟩
    · rw [shape]
      exact inTail_idles lim s' loopTail_still mute_loopTail
    · rw [shape] at eq ⊢
      exact (aside t' eq).of_created fun created => mem ▸ created_settle stays created
    · rw [shape, mem]
      exact alike.mem
    · rw [shape]
      exact nofun
  · rw [alike.rest] at settled
    rw [shape]
    refine .playing rfl (fun t' eq => ?_) settled (inside.settle _) (pace.rest _) (stays.rest _)
      alike.mem
    exact (aside t' eq).of_created (created_settle stays)

theorem order_of_opens {cl : Call} {v : GameState} (opens : cl.opens = some v) :
    cl.order = none := by
  cases cl with
  | queueSend msg => cases opens
  | queueReceive => rfl
  | delay ms => rfl

/-- A case that waits first goes on alike once it has begun at the same difficulty. -/
theorem opened_pace {v : GameState} (waits : v.waitsFirst = true) {cl : Call}
    {k : cl.Ans → GameTask Unit} (shape : gameSwitch lim v = .call cl k) (a : cl.Ans) :
    KeepsPace Touches (fun _ => false)
      (fun m m' => Touches m m' ∧ m.game.difficulty = m'.game.difficulty) (k a) := by
  have unheard : ∀ f, (fun _ : Out => false) (.frame f) = false := fun _ => rfl
  have weak : ∀ m m', Touches m m' ∧ m.game.difficulty = m'.game.difficulty → Touches m m' :=
    fun _ _ both => both.1
  cases v with
  | waitingForOpponent =>
      have opened : gameSwitch lim .waitingForOpponent =
        .call (.delay 2000) fun _ => opponentMove lim := rfl
      cases opened.symm.trans shape
      exact pace_opponentMove touches_sharing unheard lim weak fun _ _ both => both.2
  | waitingForPlayer =>
      have opened : gameSwitch lim .waitingForPlayer = .call .queueReceive received := by
        rw [gameSwitch, waitingForPlayerCase_received]
        rfl
      cases opened.symm.trans shape
      exact (pace_received touches_sharing unheard a).weaken weak
  | gameOver =>
      have opened : gameSwitch lim .gameOver = .call (.delay 500) fun _ => setState .gameRestart :=
        rfl
      cases opened.symm.trans shape
      exact (blind_setState touches_sharing.toSharing _).keepsPace.weaken weak
  | _ => cases waits

theorem gameSwitch_stays (lim : Limits) (v : GameState) :
    KeepsPace Peers (fun _ => false) Peers (gameSwitch lim v) :=
  pace_gameSwitch peers_sharing (fun _ => rfl) lim fun _ _ _ related => by rw [related.game]

/-- A case that waits first begins where the last deed has ended. -/
theorem AtRest.opens {m : Mem} (h : AtRest lim ok c m) {s : Firmware} {v : GameState}
    (waits : v.waitsFirst = true) {cl : Call} {k : cl.Ans → GameTask Unit}
    (shape : gameSwitch lim v = .call cl k) (inside : ∀ a, Prog.Asks Call.Inside (k a))
    (opening : c.fw.opening = some v) (silent : cl.order = none) (httpd : s.httpd = c.fw.httpd)
    (mem : s.mem = c.fw.mem) {msg : Option IoMessage}
    (allowed : ok c.fw.facing (.iteration msg)) (listing : Bool) :
    Tracks lim ok ⟨s.inSwitch (k (answer msg cl)), listing,
      ⟨c.fw.facing, .iteration msg, []⟩ :: c.deeds⟩ := by
  obtain ⟨before, after, faces⟩ := h.facing
  have state : c.fw.facing.game.state = v := faces v opening
  have level : c.fw.facing.game.difficulty = s.mem.game.difficulty := by
    rw [Firmware.facing, opening, mem]
    rfl
  have ongoing : Ongoing lim ok _ (answer msg) _ _ _ _ :=
    .begin (fun m => gameSwitch lim m.game.state) (h.past.touch before) allowed
  simp only [state, shape] at ongoing
  have called := ongoing.call
  rw [silent, tell_none] at called
  have stays := gameSwitch_stays lim v
  rw [shape] at stays
  refine inSwitch_tracks (fun t eq => ?_) called (inside _) (opened_pace waits shape _)
    (stays.later (s := s.mem) rfl _) ⟨mem ▸ after, level⟩
  exact (h.aside t (httpd ▸ eq)).of_created fun created => mem ▸ created

/-- A case that acts at once begins at the head of the loop. -/
theorem AtRest.acts {m : Mem} (h : AtRest lim ok c m) (head : c.fw.AtHead) {s : Firmware}
    (acts : c.fw.mem.game.state.waitsFirst = false) (httpd : s.httpd = c.fw.httpd)
    (mem : s.mem = c.fw.mem) {msg : Option IoMessage}
    (allowed : ok c.fw.facing (.iteration msg)) (listing : Bool) :
    Tracks lim ok ⟨s.inSwitch (gameSwitch lim c.fw.mem.game.state), listing,
      ⟨c.fw.facing, .iteration msg, []⟩ :: c.deeds⟩ := by
  have facing : c.fw.facing = c.fw.mem := by
    rw [Firmware.facing, Firmware.opening, head]
    rfl
  rw [facing] at allowed ⊢
  have ongoing : Ongoing lim ok _ (answer msg) _ _ _ _ :=
    .begin (fun m => gameSwitch lim m.game.state) (h.past.touch h.touches) allowed
  refine inSwitch_tracks (E := Touches) (fun t eq => ?_) ongoing (gameSwitch_inside lim acts)
    (pace_gameSwitch touches_sharing (fun _ => rfl) lim fun waiting => ?_) (gameSwitch_stays lim _)
    (mem ▸ .refl _)
  · exact (h.aside t (httpd ▸ eq)).of_created fun created => mem ▸ created
  · rw [waiting] at acts
    cases acts

/-- The game task goes from one place between two cases to another. -/
theorem Tracks.pass (h : c.Tracks lim ok) (rest : Firmware.Resting lim c.fw.game)
    (rest' : Idles lim c'.fw) (httpd : c'.fw.httpd = c.fw.httpd) (mem : c'.fw.mem = c.fw.mem)
    (listing : c'.listing = c.listing) (deeds : c'.deeds = c.deeds)
    (opening : ∀ v ∈ c'.fw.opening, v ∈ c.fw.opening ∨
      v.waitsFirst = true ∧ c.fw.mem.game.state = v) : c'.Tracks lim ok := by
  have faces : ∀ {m : Mem}, Touches m c.fw.mem → (∀ v ∈ c.fw.opening, m.game.state = v) →
      ∀ v ∈ c'.fw.opening, m.game.state = v := by
    intro m touches faces v hv
    rcases opening v hv with before | ⟨waits, rfl⟩
    · exact faces v before
    · apply touches.brushes.state
      · intro restart
        rw [restart] at waits
        cases waits
      · intro random
        rw [random] at waits
        cases waits
  cases h with
  | @resting m rests =>
      refine .resting (m := m) ⟨rest', fun t eq => ?_, deeds ▸ rests.past, mem ▸ rests.touches,
        faces rests.touches rests.faces⟩
      exact (rests.aside t (httpd ▸ eq)).of_created fun created => mem ▸ created
  | serving list _ handler ongoing seating touches faced =>
      exact .serving (listing ▸ list) rest' (httpd ▸ handler) (deeds ▸ ongoing) seating
        (mem ▸ touches) (faces touches faced)
  | playing case _ _ inside =>
      cases rest.between.symm.trans (Firmware.not_between case inside)

/-- Into the tail of the loop with nothing more to do there. -/
theorem Tracks.pass_tail (h : c.Tracks lim ok) (rest : Firmware.Resting lim c.fw.game)
    {t : GameTask Unit} (still : Still t) (mute : Mute t) {s : Firmware}
    (httpd : s.httpd = c.fw.httpd) (mem : s.mem = c.fw.mem) :
    Tracks lim ok ⟨s.inTail t, c.listing, c.deeds⟩ := by
  obtain ⟨-, kept, -⟩ := Firmware.inTail_resting lim (s := s) still
  exact h.pass rest (inTail_idles lim s still mute) httpd (kept.trans mem) rfl rfl
    fun v opens => by cases opens

/-- Before a case begins no list is at work. -/
theorem Tracks.dispatch (h : c.Tracks lim ok) (meets : c.Apart ok .game) (head : c.fw.AtHead) :
    Tracks lim ok ⟨c.fw.dispatch lim, c.listing, (c.begun .game).toList ++ c.deeds⟩ := by
  have rest : Firmware.Resting lim c.fw.game := by
    rw [head]
    trivial
  have begins : c.fw.begins = if c.fw.mem.game.state.waitsFirst ∨ c.fw.Unready then none
      else some c.fw.mem.game.state := if_pos (Firmware.atHead_iff.mpr head)
  by_cases waits : c.fw.mem.game.state.waitsFirst = true
  · obtain ⟨cl, k, shape, opens, -⟩ := gameSwitch_opens lim waits
    have opened : c.fw.dispatch lim = { c.fw with
        log := c.fw.log ++ [.dispatch c.fw.mem.game.state], game := .inSwitch (.call cl k) } := by
      simp [Firmware.dispatch, Firmware.inSwitch, Firmware.settleGame, shape, Prog.settle]
    rw [if_pos (.inl waits)] at begins
    rw [opened, begun, begins]
    refine h.pass rest ⟨⟨_, waits, shape.symm⟩, fun c opens => by cases opens⟩ rfl rfl rfl rfl
      fun v hv => .inr ?_
    obtain rfl : c.fw.mem.game.state = v := Option.some.inj (opens.symm.trans hv)
    exact ⟨waits, rfl⟩
  · by_cases unready : c.fw.Unready = true
    · obtain ⟨state, ready⟩ := of_decide_eq_true unready
      have nothing : (gameSwitch lim c.fw.mem.game.state).settle c.fw.mem =
          (.ret (), c.fw.mem, []) := by
        rw [state]
        simp [gameSwitch, webInitCase, Prog.get, Prog.settle, ready]
      let s' := { c.fw with log := c.fw.log ++ [Out.dispatch c.fw.mem.game.state] }
      have passed : c.fw.dispatch lim = s'.inTail loopTail := by
        simp [s', Firmware.dispatch, Firmware.inSwitch, Firmware.settleGame, nothing,
          Firmware.enterTail, Firmware.inTail]
      rw [if_pos (.inr unready)] at begins
      rw [passed, begun, begins]
      exact h.pass_tail rest loopTail_still mute_loopTail (s := s') rfl rfl
    · rw [if_neg (not_or.mpr ⟨waits, unready⟩)] at begins
      obtain ⟨served, allowed⟩ := meets _ begins
      obtain ⟨m, rests⟩ := h.rests rest.between served
      rw [begun, begins]
      exact rests.acts (s := { c.fw with log := c.fw.log ++ [.dispatch c.fw.mem.game.state] }) head
        (by simpa using waits) rfl rfl allowed c.listing

theorem Tracks.tail_step (h : c.Tracks lim ok) {cl : Call} {k : cl.Ans → GameTask Unit}
    (tail : c.fw.game = .inTail (.call cl k)) {a : cl.Ans} {s : Firmware}
    (answered : c.fw.answerGame cl = some (a, s)) : Tracks lim ok ⟨s.inTail (k a), c.listing,
      tell ((c.fw.answered .game).bind Call.order) ((c.begun .game).toList ++ c.deeds)⟩ := by
  have keeps := Firmware.answerGame_keeps answered
  have waits : c.fw.answered .game = some cl := by
    rw [Firmware.answered, Firmware.rest, tail]
    rfl
  have begins : c.fw.begins = none := by
    simp [Firmware.begins, Firmware.opening, tail, Firmware.atHead]
  have idles : Idles lim c.fw := by
    cases h with
    | resting rests => exact rests.rest
    | serving _ rest => exact rest
    | playing case => cases tail.symm.trans case
  have still : Still (.call cl k : GameTask Unit) := by
    have rest := idles.1
    rwa [tail] at rest
  obtain ⟨silent, mute⟩ := idles.2 _ tail
  have order : cl.order = none := silent
  rw [waits, Option.bind_some, order, tell_none, begun, begins]
  exact h.pass_tail idles.1 (still a) (mute a) keeps.httpd keeps.mem

/-- A case that waits first, once its call has returned. -/
theorem Tracks.enters (h : c.Tracks lim ok) (meets : c.Apart ok .game) {cl : Call}
    {k : cl.Ans → GameTask Unit} (case : c.fw.game = .inSwitch (.call cl k))
    (rest : Firmware.Resting lim c.fw.game) {s : Firmware} (httpd : s.httpd = c.fw.httpd)
    (mem : s.mem = c.fw.mem) :
    Tracks lim ok ⟨s.inSwitch (k (answer c.fw.receiveQueue.head? cl)), c.listing,
      tell cl.order ((c.begun .game).toList ++ c.deeds)⟩ := by
  have resting := rest
  rw [case] at resting
  obtain ⟨v, first, eq⟩ := resting
  obtain ⟨cl', k', shape, opens, inside⟩ := gameSwitch_opens lim first
  cases eq.trans shape
  have opening : c.fw.opening = some v := (Firmware.opening_inSwitch case).trans opens
  have begins := Firmware.begins_inSwitch case
  rw [opens] at begins
  rw [order_of_opens opens, tell_none]
  by_cases found : v ≠ .waitingForPlayer ∨ c.fw.receiveQueue ≠ []
  · rw [Option.filter_some, if_pos (by simpa using found)] at begins
    obtain ⟨served, allowed⟩ := meets v begins
    obtain ⟨m, rests⟩ := h.rests rest.between served
    rw [begun, begins]
    exact rests.opens first shape inside opening (order_of_opens opens) httpd mem allowed c.listing
  · rw [Option.filter_some, if_neg (by simpa using found)] at begins
    obtain ⟨player, empty⟩ := not_or.mp found
    rw [not_not] at player empty
    subst player
    have opened : gameSwitch lim .waitingForPlayer = .call .queueReceive received := by
      rw [gameSwitch, waitingForPlayerCase_received]
      rfl
    cases opened.symm.trans shape
    have idle : s.inSwitch (.ret ()) = s.inTail loopTail := by
      simp [Firmware.inSwitch, Firmware.settleGame, Firmware.enterTail, Firmware.inTail,
        Prog.settle]
    have ended : s.inSwitch (received (answer c.fw.receiveQueue.head? .queueReceive)) =
        s.inTail loopTail := by
      rw [empty]
      exact idle
    rw [begun, begins, ended]
    exact h.pass_tail rest loopTail_still mute_loopTail httpd mem

theorem Tracks.switch_step (h : c.Tracks lim ok) (meets : c.Apart ok .game) {cl : Call}
    {k : cl.Ans → GameTask Unit} (case : c.fw.game = .inSwitch (.call cl k)) {a : cl.Ans}
    {s : Firmware} (answered : c.fw.answerGame cl = some (a, s)) :
    Tracks lim ok ⟨s.inSwitch (k a), c.listing,
      tell ((c.fw.answered .game).bind Call.order) ((c.begun .game).toList ++ c.deeds)⟩ := by
  have keeps := Firmware.answerGame_keeps answered
  obtain rfl := answerGame_answer answered
  have waits : c.fw.answered .game = some cl := by
    rw [Firmware.answered, Firmware.rest, case]
    rfl
  rw [waits, Option.bind_some]
  cases h with
  | resting rests =>
      exact (Tracks.resting rests).enters meets case rests.rest.1 keeps.httpd keeps.mem
  | serving list rest handler ongoing seating touches faces =>
      exact (Tracks.serving list rest handler ongoing seating touches faces).enters meets case
        rest.1 keeps.httpd keeps.mem
  | playing game aside ongoing inside pace stays touches =>
      cases case.symm.trans game
      have begins := Firmware.begins_inSwitch case
      have none : cl.opens = none := inside.1
      rw [none] at begins
      rw [begun, begins, answer_inside inside.1 _ _]
      refine inSwitch_tracks (fun t eq => ?_) ongoing.call (inside.2 _)
        (pace.later (s := s.mem) rfl _) (stays.later (s := s.mem) rfl _) (keeps.mem ▸ touches)
      exact (aside t (keeps.httpd ▸ eq)).of_created fun created => keeps.mem ▸ created

theorem Tracks.game_step (h : c.Tracks lim ok) (meets : c.Apart ok .game) {s : Firmware}
    (hstep : c.fw.stepGame lim = some s) : Tracks lim ok ⟨s, c.listing,
      tell ((c.fw.answered .game).bind Call.order) ((c.begun .game).toList ++ c.deeds)⟩ := by
  unfold Firmware.stepGame at hstep
  split at hstep
  · rename_i head
    cases hstep
    have idle : c.fw.answered .game = none := by
      rw [Firmware.answered, Firmware.rest, head]
      rfl
    rw [idle, Option.bind_none, tell_none]
    exact h.dispatch meets head
  · rename_i tail
    obtain ⟨_, answered, rfl⟩ := Option.map_eq_some_iff.mp hstep
    exact h.tail_step tail answered
  · rename_i case
    obtain ⟨_, answered, rfl⟩ := Option.map_eq_some_iff.mp hstep
    exact h.switch_step meets case answered
  · cases hstep

theorem Aside.step {s : Firmware} {f : Mem → Mem × List Out} {k : Mem → GameTask Response}
    (h : Aside s (.step f k)) (s' : Firmware) (mem : s'.mem = (f s.mem).1) :
    Touches s.mem s'.mem ∧ Aside s' (k s.mem) := by
  have touches : Touches s.mem s'.mem := by
    rw [mem]
    exact ⟨(h.brushes s.mem).1, fun uncreated => (h.early uncreated s.mem uncreated).1⟩
  refine ⟨touches, (h.brushes s.mem).2, fun uncreated => ?_, h.mute s.mem⟩
  have before : s.mem.currentGame = false := touches.created.symm.trans uncreated
  exact (h.early before s.mem before).2

theorem Aside.call {s : Firmware} {cl : Call} {k : cl.Ans → GameTask Response}
    (h : Aside s (.call cl k)) (a : cl.Ans) : Aside s (k a) :=
  ⟨h.brushes a, fun uncreated => h.early uncreated a, h.mute.2 a⟩

theorem Aside.answered {s : Firmware} {t : GameTask Response} (h : Aside s t)
    (handler : s.httpd = some t) : (s.answered .httpd).bind Call.order = none := by
  rw [Firmware.answered, handler, Option.bind_some]
  cases t with
  | call cl k => exact h.mute.1
  | _ => rfl

/-- A request that seats no ships changes the memory in passing. -/
theorem Aside.httpd_step {s s' : Firmware} {t : GameTask Response} (h : Aside s t)
    (handler : s.httpd = some t) (hstep : s.stepHttpd = some s') : Touches s.mem s'.mem ∧
      s'.game = s.game ∧ ∀ t', s'.httpd = some t' → Aside s' t' := by
  rw [Firmware.stepHttpd, handler] at hstep
  cases t with
  | ret a =>
      cases hstep
      exact ⟨.refl _, rfl, nofun⟩
  | step f k =>
      cases hstep
      obtain ⟨touches, later⟩ := h.step { s with
        mem := (f s.mem).1, log := s.log ++ (f s.mem).2, httpd := some (k s.mem) } rfl
      exact ⟨touches, rfl, fun t' eq => Option.some.inj eq ▸ later⟩
  | call cl k =>
      obtain ⟨⟨a, s₁⟩, answered, rfl⟩ := Option.map_eq_some_iff.mp hstep
      have keeps := Firmware.answerGame_keeps answered
      refine ⟨?_, keeps.game, fun t' eq => ?_⟩
      · exact keeps.mem ▸ Touches.refl s.mem
      · obtain rfl := Option.some.inj eq
        exact (h.call a).of_created fun created => keeps.mem ▸ created
  | undefined => cases hstep
  | starved => cases hstep

theorem Seating.step {f : Mem → Mem × List Out} {k : Mem → GameTask Response}
    (h : Seating (.step f k)) {m m' : Mem} (touches : Touches m m') : k m = k m' ∧
      Touches (f m).1 (f m').1 ∧ (f m).1.game.state = m.game.state ∧ Seating (k m) := by
  obtain ⟨same, mem, -⟩ := h.blind.1 m m' touches
  exact ⟨same, mem, (h.state m).1, h.inside m, h.blind.2 m, (h.state m).2⟩

theorem seating_handle {r : Request} {list : Manual} (manual : r.manual = some list) :
    Seating (handle r) := by
  refine ⟨handle_asks inside_calls.places r, ?_, manual_always ?_ manual⟩
  · have shares := touches_sharing.toSharing
    rcases manual_cases manual with ⟨j, -, rfl, -⟩ | ⟨j, -, rfl, -⟩
    · exact blind_postSetupGameHandler shares (.json j)
    · exact blind_postPlaceShipsHandler shares (.json j)
  · exact ⟨fun _ => rfl, fun _ _ => rfl, fun _ _ _ _ => rfl, fun _ _ => rfl, fun _ => rfl⟩

theorem aside_handle {r : Request} (other : r.manual = none) (s : Firmware) : Aside s (handle r) :=
  ⟨other_always brushes_writes other, fun _ => handle_early.mono fun _ _ early => early.1,
    mute_other other⟩

theorem Idles.of_eq {s s' : Firmware} (h : Idles lim s) (game : s'.game = s.game) :
    Idles lim s' := by
  rw [Idles, game]
  exact h

/-- Between two cases the game task tells the robot nothing. -/
theorem Idles.answered {s : Firmware} (h : Idles lim s) :
    (s.answered .game).bind Call.order = none := by
  rw [Firmware.answered, Firmware.rest]
  cases game : s.game with
  | inTail t =>
      cases t with
      | call cl k => exact (h.2 _ game).1
      | _ => rfl
  | inSwitch t =>
      have rest := h.1
      rw [game] at rest
      obtain ⟨v, waits, rfl⟩ := rest
      obtain ⟨cl, k, shape, opens, -⟩ := gameSwitch_opens lim waits
      rw [shape]
      exact order_of_opens opens

theorem opening_of_eq {s : Firmware} (s' : Firmware) (game : s'.game = s.game) :
    s'.opening = s.opening := by
  rw [Firmware.opening, Firmware.opening, game]

theorem Tracks.httpd_step (h : c.Tracks lim ok) {s : Firmware} (hstep : c.fw.stepHttpd = some s) :
    Tracks lim ok ⟨s, c.listing, tell ((c.fw.answered .httpd).bind Call.order) c.deeds⟩ := by
  obtain ⟨t, handler⟩ : ∃ t, c.fw.httpd = some t := by
    cases handler : c.fw.httpd with
    | none => simp [Firmware.stepHttpd, handler] at hstep
    | some t => exact ⟨t, rfl⟩
  cases h with
  | @resting m rests =>
      have aside := rests.aside t handler
      obtain ⟨touches, game, later⟩ := aside.httpd_step handler hstep
      rw [aside.answered handler, tell_none]
      exact .resting (m := m) ⟨rests.rest.of_eq game, later, rests.past,
        rests.touches.trans touches, opening_of_eq _ game ▸ rests.faces⟩
  | playing case aside ongoing inside pace stays touches =>
      have passing := aside t handler
      obtain ⟨brushed, game, later⟩ := passing.httpd_step handler hstep
      rw [passing.answered handler, tell_none]
      exact .playing (game.trans case) later ongoing inside pace stays (touches.trans brushed)
  | @serving r t' m list rest same ongoing seating touches faces =>
      cases handler.symm.trans same
      rw [Firmware.stepHttpd, handler] at hstep
      rw [Firmware.answered, handler, Option.bind_some]
      cases t with
      | ret a =>
          cases hstep
          have rested : AtRest lim ok ⟨{ c.fw with httpd := none }, c.listing, c.deeds⟩ m :=
            ⟨rest, nofun, ongoing.request, touches, faces⟩
          simpa [Prog.pending] using Tracks.resting rested
      | step f k =>
          cases hstep
          obtain ⟨same, stepped, state, later⟩ := seating.step touches
          have served : Tracks lim ok ⟨{ c.fw with
              mem := (f c.fw.mem).1, log := c.fw.log ++ (f c.fw.mem).2,
              httpd := some (k c.fw.mem) }, c.listing, c.deeds⟩ :=
            .serving (r := r) (m := (f m).1) list rest (congrArg some same.symm) ongoing.step
              later stepped fun v hv => state.trans (faces v hv)
          simpa [Prog.pending] using served
      | call cl k =>
          obtain ⟨⟨a, s₁⟩, answered, rfl⟩ := Option.map_eq_some_iff.mp hstep
          have keeps := Firmware.answerGame_keeps answered
          obtain rfl := answerGame_answer answered
          obtain ⟨⟨inside, rest'⟩, blind, state⟩ := seating
          rw [answer_inside inside _ none]
          exact .serving (r := r) (m := m) list (rest.of_eq keeps.game) rfl ongoing.call
            ⟨rest' _, blind _, state _⟩ (keeps.mem ▸ touches)
            (opening_of_eq { s₁ with httpd := some _ } keeps.game ▸ faces)
      | undefined => cases hstep
      | starved => cases hstep

theorem Tracks.request_step (h : c.Tracks lim ok) {r : Request} (meets : c.Apart ok (.request r))
    {s : Firmware} (hstep : c.fw.step lim (.request r) = some s) :
    Tracks lim ok ⟨s, r.manual.isSome, (c.begun (.request r)).toList ++ c.deeds⟩ := by
  simp only [Firmware.step] at hstep
  split at hstep
  · rename_i free
    cases hstep
    have free : c.fw.httpd = none := by simpa using free
    cases manual : r.manual with
    | none =>
        have begun : c.begun (.request r) = none := by rw [Chronicle.begun, manual]; rfl
        have aside : ∀ t, some (handle r) = some t →
            Aside { c.fw with httpd := some (handle r) } t := by
          rintro t ⟨⟩
          exact aside_handle manual _
        rw [begun]
        cases h with
        | @resting m rests =>
            exact .resting (m := m) ⟨rests.rest, aside, rests.past, rests.touches, rests.faces⟩
        | serving _ _ handler => cases free.symm.trans handler
        | playing case _ ongoing inside pace stays touches =>
            exact .playing case aside ongoing inside pace stays touches
    | some list =>
        obtain ⟨between, allowed⟩ := meets (by rw [manual]; rfl)
        have begun : c.begun (.request r) = some ⟨c.fw.facing, .request r, []⟩ := by
          rw [Chronicle.begun, manual]
          rfl
        obtain ⟨m, rests⟩ := h.rests between fun _ => by rw [Firmware.Served, free]
        obtain ⟨before, after, faces⟩ := rests.facing
        rw [begun]
        exact .serving (r := r) rfl rests.rest rfl
          (Ongoing.begin (fun _ => handle r) (rests.past.touch before) allowed)
          (seating_handle manual) after faces
  · cases hstep

/-- The radio is no part of this. -/
theorem Tracks.keeps (h : c.Tracks lim ok) {s : Firmware} (keeps : c.fw.KeepsGame s) :
    Tracks lim ok ⟨s, c.listing, c.deeds⟩ := by
  have later : ∀ t, Aside c.fw t → Aside s t := fun t aside =>
    aside.of_created fun created => keeps.mem ▸ created
  cases h with
  | @resting m rests =>
      exact .resting (m := m) ⟨rests.rest.of_eq keeps.game,
        fun t eq => later t (rests.aside t (keeps.httpd ▸ eq)), rests.past,
        keeps.mem ▸ rests.touches, opening_of_eq _ keeps.game ▸ rests.faces⟩
  | serving list rest handler ongoing seating touches faces =>
      exact .serving list (rest.of_eq keeps.game) (keeps.httpd.trans handler) ongoing seating
        (keeps.mem ▸ touches) (opening_of_eq _ keeps.game ▸ faces)
  | playing case aside ongoing inside pace stays touches =>
      exact .playing (keeps.game.trans case) (fun t eq => later t (aside t (keeps.httpd ▸ eq)))
        ongoing inside pace stays (keeps.mem ▸ touches)

theorem Tracks.step (h : c.Tracks lim ok) {a : Act} (meets : c.Apart ok a)
    (hstep : c.step lim a = some c') : c'.Tracks lim ok := by
  obtain ⟨s, stepped, rfl⟩ := Option.map_eq_some_iff.mp hstep
  cases a with
  | game => exact h.game_step meets stepped
  | httpd => exact h.httpd_step stepped
  | request r =>
      have waits : (c.fw.answered (.request r)).bind Call.order = none := rfl
      rw [waits, tell_none]
      exact h.request_step meets stepped
  | _ =>
      have kept := h.keeps (Firmware.step_keepsGame stepped (by simp) (by simp) (by simp))
      simpa [Firmware.answered, begun, lists] using kept

theorem Start.tracks (h : Start lim c) : c.Tracks lim ok := by
  obtain ⟨start, -, deeds⟩ := h
  refine .resting (m := c.fw.mem) ⟨⟨?_, ?_⟩, ?_, ?_, .refl _, ?_⟩
  · rw [start.game]
    trivial
  · rw [start.game]
    rintro t ⟨⟩
    trivial
  · rw [start.httpd]
    exact nofun
  · rw [deeds]
    exact .start start.state start.pointer
  · rw [Firmware.opening, start.game]
    exact nofun

theorem reaches_tracks (h : Reaches (Chronicle.step lim) (Apart ok) (Chronicle.Start lim) c) :
    c.Tracks lim ok :=
  h.invariant (fun _ start => start.tracks) fun _ _ _ before meets hstep => before.step meets hstep

/-- Between two deeds the memory is one that whole events lead to. -/
theorem reaches_chronicled
    (h : Reaches (Chronicle.step lim) (Apart ok) (Chronicle.Start lim) c)
    (between : c.fw.Between = true) (served : c.listing = true → c.fw.Served = true) :
    Chronicled lim ok c.deeds c.fw.mem := by
  obtain ⟨m, rests⟩ := (reaches_tracks h).rests between served
  exact rests.past.touch rests.touches

/-- A case that has been left is a whole iteration. -/
theorem reaches_left
    (h : Reaches (Chronicle.step lim) (Apart ok) (Chronicle.Start lim) c)
    {d : Deed} {older : List Deed} (last : c.deeds = d :: older) {msg : Option IoMessage}
    (iteration : d.event = .iteration msg) (left : c.fw.Between = true) :
    ∃ m, Chronicled lim ok older d.mem ∧ ok d.mem d.event ∧
      seqStep lim d.mem d.event = some m ∧ d.told = orders (seqTrace lim d.mem d.event) ∧
        Touches m c.fw.mem := by
  cases reaches_tracks h with
  | resting rests =>
      have past := rests.past
      rw [last] at past
      obtain ⟨m, before, allowed, done, told, after⟩ := past.split []
      exact ⟨m, before, allowed, done, told, (after rfl).trans rests.touches⟩
  | serving _ _ _ ongoing =>
      obtain ⟨m₀, l, older', eq, -⟩ := ongoing
      cases last.symm.trans eq
      cases iteration
  | playing case _ _ inside =>
      cases left.symm.trans (Firmware.not_between case inside)

theorem Apart.mono {ok' : Mem → Event → Prop} (imp : ∀ m e, ok m e → ok' m e) {a : Act}
    (h : c.Apart ok a) : c.Apart ok' a := by
  cases a with
  | game => exact fun v begins => ⟨(h v begins).1, imp _ _ (h v begins).2⟩
  | request r => exact fun list => ⟨(h list).1, imp _ _ (h list).2⟩
  | _ => trivial

instance [∀ m e, Decidable (ok m e)] (c : Chronicle) : ∀ a, Decidable (Apart ok c a)
  | .game => inferInstanceAs (Decidable (∀ v ∈ c.fw.begins, (c.listing = true →
      c.fw.Served = true) ∧ ok c.fw.facing (.iteration c.fw.receiveQueue.head?)))
  | .request r => inferInstanceAs (Decidable (r.manual.isSome → c.fw.Between = true ∧
      ok c.fw.facing (.request r)))
  | .httpd => .isTrue trivial
  | .sender => .isTrue trivial
  | .receiver => .isTrue trivial
  | .frameArrives _ _ => .isTrue trivial
  | .sendFlag _ => .isTrue trivial

/-- The firmware after power on, with nothing taken up. -/
def boot (lim : Limits) : Chronicle := ⟨Firmware.boot lim, false, []⟩

theorem boot_start (lim : Limits) : Start lim (boot lim) := ⟨Firmware.boot_start lim, rfl, rfl⟩

end Chronicle
end Battleship
