import Battleship.Http
import Battleship.Lib.CString

/-!
# Receiving a body

The lines of the three POST handlers between `httpd_req_recv` and `cJSON_Parse`.
Each keeps the body in a buffer on its stack, with whatever lay there before.
-/
namespace Battleship
open CString

/-- What a handler parses, or nothing when no data came. Reading or writing
outside the buffer is undefined. -/
abbrev Reception := Option (Option (List UInt8))

/-- `data` is what `httpd_req_recv` has put into the buffer. -/
def receiveTerminated {n : Nat} (stale : Buffer n) (data : List UInt8) (fits : data.length ≤ n) :
    Reception :=
  if data = [] then some none
  else (((stale.fill data fits).store data.length 0).bind Buffer.text).map some

def receiveSetDifficulty (stale : Buffer 100) (data : List UInt8) (fits : data.length ≤ 100) :
    Reception := receiveTerminated stale data fits

def receivePlaceShips (stale : Buffer 512) (data : List UInt8) (fits : data.length ≤ 512) :
    Reception := receiveTerminated stale data fits

/-- The only terminator is written before the data, and the string is logged
before the length is looked at. -/
def receiveSetupGame (stale : Buffer 512) (data : List UInt8) (fits : data.length ≤ 512) :
    Reception := do
  let buf ← stale.store 511 0
  let logged ← (buf.fill data fits).text
  return if data = [] then none else some logged

section Received
variable {data : List UInt8} (nulFree : ∀ b ∈ data, b ≠ 0) (received : data ≠ [])
include nulFree received

theorem receiveTerminated_iff {n : Nat} (stale : Buffer n) (fits : data.length ≤ n) :
    receiveTerminated stale data fits = some (some data) ↔ data.length < n := by
  rw [receiveTerminated, if_neg received, ← stale.text_terminated fits nulFree,
    Option.map_eq_some_iff]
  simp

theorem receiveSetupGame_iff (stale : Buffer 512) (fits : data.length ≤ 512) :
    receiveSetupGame stale data fits = some (some data) ↔
      data.length = 511 ∨ data.length < 511 ∧ stale.bytes[data.length]? = some 0 := by
  have text : receiveSetupGame stale data fits = some (some data) ↔
      (stale.bytes.set 511 0)[data.length]? = some 0 := by
    let buf : Buffer 512 := ⟨stale.bytes.set 511 0, by rw [List.length_set, stale.size]⟩
    rw [← buf.text_fill_eq_iff fits nulFree]
    simp [receiveSetupGame, Buffer.store, received, Option.bind_eq_some_iff, buf]
  rw [text, List.getElem?_set]
  have size := stale.size
  by_cases last : 511 = data.length
  · simp [← last, size]
  · rw [if_neg last]
    constructor
    · intro nul
      have inside := (List.getElem?_eq_some_iff.mp nul).1
      exact .inr ⟨by omega, nul⟩
    · rintro (eq | ⟨-, nul⟩)
      · exact absurd eq.symm last
      · exact nul

/-- What an earlier call left on the stack reaches the parser unless the data
goes up to the terminator. -/
theorem receiveSetupGame_stale_iff (fits : data.length ≤ 512) :
    (∀ stale stale', receiveSetupGame stale data fits = receiveSetupGame stale' data fits) ↔
      511 ≤ data.length := by
  constructor
  · intro same
    by_contra short
    let clean : Buffer 512 := ⟨List.replicate 512 0, List.length_replicate⟩
    let dirty : Buffer 512 := ⟨List.replicate 512 1, List.length_replicate⟩
    have exact_bytes : receiveSetupGame clean data fits = some (some data) :=
      (receiveSetupGame_iff nulFree received clean fits).mpr
        (.inr ⟨by omega, List.getElem?_replicate_of_lt (by omega)⟩)
    rw [same clean dirty, receiveSetupGame_iff nulFree received] at exact_bytes
    rcases exact_bytes with full | ⟨-, nul⟩
    · omega
    · rw [List.getElem?_replicate_of_lt (by omega)] at nul
      cases nul
  · intro long stale stale'
    rcases Nat.eq_or_lt_of_le long with full | whole
    · rw [(receiveSetupGame_iff nulFree received stale fits).mpr (.inl full.symm),
        (receiveSetupGame_iff nulFree received stale' fits).mpr (.inl full.symm)]
    · -- The data covers the terminator, and the string does not end.
      have undefined : ∀ stale : Buffer 512, receiveSetupGame stale data fits = none := by
        intro stale
        let buf : Buffer 512 := ⟨stale.bytes.set 511 0, by rw [List.length_set, stale.size]⟩
        have all : buf.bytes.drop data.length = [] :=
          List.drop_eq_nil_of_le (by rw [buf.size]; omega)
        have text : (buf.fill data fits).text = none := by
          rw [buf.text_fill fits nulFree, all]
          rfl
        simp only [receiveSetupGame, Buffer.store, Option.bind_eq_bind]
        exact congrArg (Option.bind · _) text
      rw [undefined, undefined]

end Received

/-- The handlers with a terminator after the data parse what they received
unless it fills the buffer. The set-up handler does only when a NUL lay there. -/
theorem parsesBody_iff {data : List UInt8} (nulFree : ∀ b ∈ data, b ≠ 0) (received : data ≠ []) :
    (∀ stale (fits : data.length ≤ 100),
      receiveSetDifficulty stale data fits = some (some data) ↔ data.length < 100) ∧
    (∀ stale (fits : data.length ≤ 512),
      receivePlaceShips stale data fits = some (some data) ↔ data.length < 512) ∧
    (∀ stale (fits : data.length ≤ 512), receiveSetupGame stale data fits = some (some data) ↔
      data.length = 511 ∨ data.length < 511 ∧ stale.bytes[data.length]? = some 0) ∧
    ∀ fits, (∀ stale stale', receiveSetupGame stale data fits = receiveSetupGame stale' data fits) ↔
      511 ≤ data.length :=
  ⟨receiveTerminated_iff nulFree received, receiveTerminated_iff nulFree received,
    receiveSetupGame_iff nulFree received, receiveSetupGame_stale_iff nulFree received⟩

/-- An empty document, on a stack full of zeros. -/
theorem parsesBody_iff_braces :
    (∀ stale fits, receiveSetDifficulty stale [123, 125] fits = some (some [123, 125])) ∧
    (∀ stale fits, receivePlaceShips stale [123, 125] fits = some (some [123, 125])) ∧
    (∀ fits, receiveSetupGame ⟨List.replicate 512 0, List.length_replicate⟩ [123, 125] fits =
      some (some [123, 125])) ∧
    ∃ fits stale stale', receiveSetupGame stale [123, 125] fits ≠
      receiveSetupGame stale' [123, 125] fits := by
  obtain ⟨difficulty, place, setup, indifferent⟩ :=
    @parsesBody_iff [123, 125] (by decide +kernel) (by decide +kernel)
  refine ⟨fun stale fits => (difficulty stale fits).mpr (by decide),
    fun stale fits => (place stale fits).mpr (by decide),
    fun fits => (setup _ fits).mpr (.inr ⟨by decide, by decide +kernel⟩), by decide, ?_⟩
  by_contra same
  push Not at same
  exact absurd ((indifferent (by decide)).mp same) (by decide)

/-- A body of 100 bytes, and an empty document on a stack full of ones. -/
theorem parsesBody_full :
    (∃ (stale : Buffer 100) (data : List UInt8) (fits : data.length ≤ 100),
      (∀ b ∈ data, b ≠ 0) ∧ receiveSetDifficulty stale data fits = none) ∧
    ∃ (stale : Buffer 512) (fits : [123, 125].length ≤ 512),
      receiveSetupGame stale [123, 125] fits ≠ some (some [123, 125]) := by
  refine ⟨⟨⟨List.replicate 100 1, List.length_replicate⟩, List.replicate 100 97, by simp, ?_, ?_⟩,
    ⟨List.replicate 512 1, List.length_replicate⟩, by decide, ?_⟩
  · intro b member
    rw [List.eq_of_mem_replicate member]
    decide
  · rfl
  · rw [ne_eq, receiveSetupGame_iff (by decide +kernel) (by decide +kernel)]
    decide

end Battleship
