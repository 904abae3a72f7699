import Mathlib

/-!
# Arrays of bytes with a fixed size

A C array does not know its size.  Here it does: an access beyond the end has no result, and so has
reading a string that is not terminated.  A function that is built from these accesses and has a
result for every input does not leave its arrays.
-/

namespace XEdge.Lib

/-- An array of `n` bytes. -/
@[ext]
structure Buffer (n : Nat) where
  cells : List UInt8
  length_cells : cells.length = n

namespace Buffer

variable {n : Nat}

def zeros (n : Nat) : Buffer n := ⟨List.replicate n 0, List.length_replicate⟩

def write (b : Buffer n) (offset : Nat) (data : List UInt8) : Option (Buffer n) :=
  if h : offset + data.length ≤ n then
    some ⟨b.cells.take offset ++ data ++ b.cells.drop (offset + data.length), by
      have hlength := b.length_cells
      simp only [List.length_append, List.length_take, List.length_drop]
      omega⟩
  else none

def read (b : Buffer n) (offset count : Nat) : Option (List UInt8) :=
  if offset + count ≤ n then some ((b.cells.drop offset).take count) else none

def cString (b : Buffer n) : Option (List UInt8) :=
  if 0 ∈ b.cells then some (b.cells.takeWhile (· ≠ 0)) else none

def Begins (b : Buffer n) (data : List UInt8) : Prop := data <+: b.cells

variable {b : Buffer n} {data : List UInt8}

theorem Begins.length_le (h : b.Begins data) :
    data.length ≤ n := by
  rw [← b.length_cells]
  exact List.IsPrefix.length_le h

theorem begins_take (b : Buffer n) (k : Nat) : b.Begins (b.cells.take k) := List.take_prefix k _

variable {offset : Nat}

theorem write_eq_some (b : Buffer n) (h : offset + data.length ≤ n) :
    ∃ b', b.write offset data = some b' ∧
      b'.cells = b.cells.take offset ++ data ++ b.cells.drop (offset + data.length) :=
  ⟨_, dif_pos h, rfl⟩

theorem write_nil (b : Buffer n) (h : offset ≤ n) :
    b.write offset [] = some b := by
  obtain ⟨b', hb', hcells⟩ := b.write_eq_some (show offset + ([] : List UInt8).length ≤ n from h)
  have hsame : b' = b := Buffer.ext (hcells.trans (by simp))
  rw [hb', hsame]

theorem Begins.write (h : b.Begins data) (more : List UInt8)
    (hroom : data.length + more.length ≤ n) :
    ∃ b', b.write data.length more = some b' ∧ b'.Begins (data ++ more) ∧
      b'.cells.drop (data.length + more.length) = b.cells.drop (data.length + more.length) := by
  obtain ⟨b', hb', hcells⟩ := b.write_eq_some hroom
  have htake : b.cells.take data.length = data := (List.prefix_iff_eq_take.1 h).symm
  rw [htake] at hcells
  refine ⟨b', hb', ⟨_, hcells.symm⟩, ?_⟩
  rw [hcells, ← List.length_append, List.drop_left]

theorem begins_write (b : Buffer n) (data : List UInt8) (hroom : data.length ≤ n) :
    ∃ b', b.write 0 data = some b' ∧ b'.Begins data ∧
      b'.cells.drop data.length = b.cells.drop data.length := by
  have hnil : b.Begins [] := List.nil_prefix
  simpa using hnil.write data (by simpa using hroom)

theorem Begins.read (h : b.Begins data) {count : Nat} (hinside : offset + count ≤ data.length) :
    b.read offset count = some ((data.drop offset).take count) := by
  have hlength := h.length_le
  obtain ⟨rest, hcells⟩ := h
  rw [Buffer.read, if_pos (hinside.trans hlength), ← hcells,
    List.drop_append_of_le_length (by omega),
    List.take_append_of_le_length (by rw [List.length_drop]; omega)]

theorem Begins.cString {text : List UInt8} (h : b.Begins (text ++ [0])) :
    b.cString = some (text.takeWhile (· ≠ 0)) := by
  obtain ⟨rest, hcells⟩ := h
  have hzero : 0 ∈ b.cells := by
    rw [← hcells]
    simp
  rw [Buffer.cString, if_pos hzero, ← hcells, List.append_assoc, List.takeWhile_append]
  split
  · next hall =>
    have hwhole : text.takeWhile (· ≠ 0) = text :=
      (List.takeWhile_prefix _).eq_of_length hall
    rw [hwhole]
    simp
  · rfl

end Buffer

end XEdge.Lib
