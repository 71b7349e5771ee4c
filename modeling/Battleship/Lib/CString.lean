import Mathlib.Data.List.Basic
import Mathlib.Tactic.Common

/-!
# Strings in a buffer

A buffer of a fixed size is filled from its start or written at one place. The
string in it is what comes before the first NUL.
-/
namespace CString

structure Buffer (n : Nat) where
  bytes : List UInt8
  size : bytes.length = n

/-- The bytes before the first NUL; without one the reader leaves the buffer. -/
def ofBytes : List UInt8 → Option (List UInt8)
  | [] => none
  | b :: bs => if b = 0 then some [] else (ofBytes bs).map (b :: ·)

theorem ofBytes_append {data : List UInt8} (nulFree : ∀ b ∈ data, b ≠ 0) (rest : List UInt8) :
    ofBytes (data ++ rest) = (ofBytes rest).map (data ++ ·) := by
  induction data with
  | nil => simp
  | cons b data ih =>
      obtain ⟨first, later⟩ := List.forall_mem_cons.mp nulFree
      rw [List.cons_append, ofBytes, if_neg first, ih later, Option.map_map]
      rfl

theorem ofBytes_eq_nil {l : List UInt8} : ofBytes l = some [] ↔ l.head? = some 0 := by
  cases l with
  | nil => simp [ofBytes]
  | cons b l =>
      by_cases nul : b = 0
      · simp [ofBytes, nul]
      · simp [ofBytes, nul]

namespace Buffer
variable {n : Nat} (buf : Buffer n)

def fill (data : List UInt8) (fits : data.length ≤ n) : Buffer n :=
  ⟨data ++ buf.bytes.drop data.length, by
    rw [List.length_append, List.length_drop, buf.size]
    omega⟩

/-- A write outside has no result. -/
def store (i : Nat) (v : UInt8) : Option (Buffer n) :=
  if i < n then some ⟨buf.bytes.set i v, by rw [List.length_set, buf.size]⟩ else none

def text : Option (List UInt8) := ofBytes buf.bytes

variable {data : List UInt8} (fits : data.length ≤ n)

theorem text_fill (nulFree : ∀ b ∈ data, b ≠ 0) :
    (buf.fill data fits).text = (ofBytes (buf.bytes.drop data.length)).map (data ++ ·) :=
  ofBytes_append nulFree _

/-- What was filled in is the string when a NUL lay behind it. -/
theorem text_fill_eq_iff (nulFree : ∀ b ∈ data, b ≠ 0) :
    (buf.fill data fits).text = some data ↔ buf.bytes[data.length]? = some 0 := by
  rw [text_fill buf fits nulFree, ← List.head?_drop, ← ofBytes_eq_nil, Option.map_eq_some_iff]
  simp

/-- A terminator behind what was filled in, when there is room for it. -/
theorem text_terminated (nulFree : ∀ b ∈ data, b ≠ 0) :
    ((buf.fill data fits).store data.length 0).bind text = some data ↔ data.length < n := by
  unfold store
  split
  · rename_i room
    have behind : (buf.bytes.drop data.length).set 0 0 ≠ [] := by
      rw [ne_eq, List.set_eq_nil_iff, List.drop_eq_nil_iff, buf.size]
      omega
    have string : ofBytes ((buf.bytes.drop data.length).set 0 0) = some [] := by
      obtain ⟨b, rest, eq⟩ := List.exists_cons_of_ne_nil
        (show buf.bytes.drop data.length ≠ [] by simpa using behind)
      rw [eq]
      rfl
    simp only [Option.bind_some, text, fill, room, iff_true]
    rw [List.set_append_right _ _ (Nat.le_refl _), Nat.sub_self, ofBytes_append nulFree, string]
    simp
  · rename_i full
    simp [full]

end Buffer
end CString
