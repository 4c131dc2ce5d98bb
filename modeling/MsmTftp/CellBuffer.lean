import Mathlib.Data.List.Basic
import Mathlib.Tactic.Common

/-!
# Fixed-location buffers and their views

A buffer is a memory whose cells are addressed from zero.  Programs overwrite
a range of cells and later hand out a view, which is an initial range of the
cells as they are at that moment.  Cells outside a written range keep their
old contents, so a view that is longer than what was written exposes them.
-/

namespace CellBuffer

/-- The contents of every cell. -/
abbrev Buffer (α : Type*) := Nat → α

variable {α : Type*}

/-- Every cell holds the same value. -/
def fill (value : α) : Buffer α :=
  fun _ => value

/-- Overwrite the cells from `offset` on by `values`. -/
def write (buffer : Buffer α) (offset : Nat) (values : List α) : Buffer α :=
  fun cell =>
    if offset ≤ cell then values[cell - offset]?.getD (buffer cell)
    else buffer cell

/-- The first `size` cells. -/
def view (buffer : Buffer α) (size : Nat) : List α :=
  (List.range size).map buffer

theorem write_before {buffer : Buffer α} {offset cell : Nat}
    {values : List α} (before : cell < offset) :
    write buffer offset values cell = buffer cell := by
  simp [write, Nat.not_le.mpr before]

theorem write_inside {buffer : Buffer α} {offset cell : Nat}
    {values : List α} (from_offset : offset ≤ cell)
    (inside : cell - offset < values.length) :
    write buffer offset values cell = values[cell - offset] := by
  simp [write, from_offset, inside]

theorem write_beyond {buffer : Buffer α} {offset cell : Nat}
    {values : List α} (beyond : offset + values.length ≤ cell) :
    write buffer offset values cell = buffer cell := by
  have outside : values.length ≤ cell - offset := by omega
  simp [write, List.getElem?_eq_none outside]

@[simp]
theorem view_length (buffer : Buffer α) (size : Nat) :
    (view buffer size).length = size := by
  simp [view]

theorem view_getElem {buffer : Buffer α} {size index : Nat}
    (inside : index < (view buffer size).length) :
    (view buffer size)[index] = buffer index := by
  simp [view]

@[simp]
theorem view_write_zero (buffer : Buffer α) (values : List α) :
    view (write buffer 0 values) values.length = values := by
  apply List.ext_getElem (by simp)
  intro index _ inside
  rw [view_getElem, write_inside (Nat.zero_le index) (by simpa using inside)]
  simp

theorem write_adjacent (buffer : Buffer α) (offset : Nat)
    (first second : List α) :
    write (write buffer offset first) (offset + first.length) second =
      write buffer offset (first ++ second) := by
  funext cell
  rcases Nat.lt_or_ge cell offset with before | from_offset
  · rw [write_before (by omega), write_before before, write_before before]
  · simp only [write, if_pos from_offset]
    rcases Nat.lt_or_ge cell (offset + first.length) with inFirst | beyond
    · rw [if_neg (by omega), List.getElem?_append_left (by omega)]
    · have outside : first.length ≤ cell - offset := by omega
      have shifted : cell - offset - first.length =
          cell - (offset + first.length) := by omega
      rw [if_pos beyond, List.getElem?_append_right outside, shifted,
        List.getElem?_eq_none outside, Option.getD_none]

/-- A header written in front of a body: the view over both shows both. -/
theorem view_write_append (buffer : Buffer α) (header body : List α) :
    view (write (write buffer header.length body) 0 header)
        (header.length + body.length) =
      header ++ body := by
  apply List.ext_getElem (by simp)
  intro index _ inside
  rw [view_getElem]
  by_cases inHeader : index < header.length
  · rw [write_inside (Nat.zero_le index) (by simpa using inHeader),
      List.getElem_append_left inHeader]
    simp
  · have inBody : index - header.length < body.length := by
      simp at inside
      omega
    rw [write_beyond (by omega), write_inside (by omega) inBody,
      List.getElem_append_right (by omega)]

/-- The same when the body is written behind the header afterwards. -/
theorem view_write_behind (buffer : Buffer α) (header body : List α) :
    view (write (write buffer 0 header) header.length body)
        (header.length + body.length) =
      header ++ body := by
  have adjacent := write_adjacent buffer 0 header body
  rw [Nat.zero_add] at adjacent
  rw [adjacent, ← List.length_append]
  exact view_write_zero buffer (header ++ body)

/-- A buffer that holds `values` at its front and `value` everywhere else. -/
def ofList (value : α) (values : List α) : Buffer α :=
  write (fill value) 0 values

theorem ofList_view {buffer : Buffer α} {value : α} {size cell : Nat}
    (inside : cell < size) :
    ofList value (view buffer size) cell = buffer cell := by
  rw [ofList, write_inside (Nat.zero_le cell) (by simpa using inside)]
  simp only [Nat.sub_zero]
  exact view_getElem _

end CellBuffer
