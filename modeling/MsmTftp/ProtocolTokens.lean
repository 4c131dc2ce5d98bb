import Mathlib.Data.Nat.Find
import MsmTftp.ProtocolRequest

/-!
# What the tokenizer visits

A range of cells consists of strings with a NUL behind each and of a rest
without a NUL.  An iterator that is not at its end stands at the first of the
strings it still has to visit; `operator++` moves it to the next one, and to
the end when only the rest is left.
-/

namespace MsmTftp

open CellBuffer

/-- The cells from `start` up to `last`. -/
def cells (buffer : Buffer UInt8) (start last : Nat) : Bytes :=
  (List.range' start (last - start)).map buffer

namespace RequestTokenizer

/-- No cell from `start` up to `last` is NUL. -/
def Plain (buffer : Buffer UInt8) (start last : Nat) : Prop :=
  ∀ cell, start ≤ cell → cell < last → buffer cell ≠ 0

/-- The strings with a NUL behind each that a range of cells consists of,
before a rest without a NUL. -/
inductive Segments (buffer : Buffer UInt8) (last : Nat) :
    Nat → List Bytes → Prop
  | rest {start : Nat} (inside : start ≤ last)
      (plain : Plain buffer start last) : Segments buffer last start []
  | string {start stop : Nat} {strings : List Bytes} (ordered : start ≤ stop)
      (inside : stop < last) (plain : Plain buffer start stop)
      (ends : buffer stop = 0)
      (segments : Segments buffer last (stop + 1) strings) :
      Segments buffer last start (cells buffer start stop :: strings)

/-- The positions of the strings that a range of cells consists of, before a
rest without a NUL. -/
inductive Spans (buffer : Buffer UInt8) (last : Nat) :
    Nat → List (Nat × Nat) → Prop
  | rest {start : Nat} (inside : start ≤ last)
      (plain : Plain buffer start last) : Spans buffer last start []
  | string {start stop : Nat} {spans : List (Nat × Nat)}
      (ordered : start ≤ stop) (inside : stop < last)
      (plain : Plain buffer start stop) (ends : buffer stop = 0)
      (later : Spans buffer last (stop + 1) spans) :
      Spans buffer last start ((start, stop) :: spans)

/-- The strings that an iterator has still to visit, with the one it stands
at. -/
inductive Iterator.Visits (buffer : Buffer UInt8) :
    Iterator → List Bytes → Prop
  | atEnd {last : Nat} :
      Visits buffer { last, next := last, current := last } []
  | string {start stop last : Nat} {strings : List Bytes}
      (ordered : start ≤ stop) (inside : stop < last)
      (plain : Plain buffer start stop) (ends : buffer stop = 0)
      (segments : Segments buffer last (stop + 1) strings) :
      Visits buffer { last, next := stop + 1, current := start }
        (cells buffer start stop :: strings)

/-- A loop from an iterator by `operator++` up to `end()` dereferences these
strings. -/
inductive Iterator.Yields (buffer : Buffer UInt8) :
    Iterator → List Bytes → Prop
  | atEnd {iterator : Iterator} (ends : iterator.atEnd = true) :
      Yields buffer iterator []
  | string {iterator : Iterator} {strings : List Bytes}
      (more : iterator.atEnd = false)
      (yields : Yields buffer (iterator.advance buffer) strings) :
      Yields buffer iterator (iterator.deref buffer :: strings)

section Searching

variable {buffer : Buffer UInt8} {first stop last count : Nat}

theorem Plain.mono {start upTo : Nat} (plain : Plain buffer first last)
    (later : first ≤ start) (sooner : upTo ≤ last) :
    Plain buffer start upTo :=
  fun cell from_start below =>
    plain cell (Nat.le_trans later from_start)
      (Nat.lt_of_lt_of_le below sooner)

theorem Plain.cons (plain : Plain buffer (first + 1) last)
    (here : buffer first ≠ 0) : Plain buffer first last := by
  intro cell from_first below
  rcases Nat.eq_or_lt_of_le from_first with same | later
  · rwa [← same]
  · exact plain cell later below

theorem findNul_eq_stop (ordered : first ≤ stop)
    (inside : stop < first + count) (plain : Plain buffer first stop)
    (ends : buffer stop = 0) : findNul buffer count first = stop := by
  induction count generalizing first with
  | zero => omega
  | succ count ih =>
      simp only [findNul]
      rcases Nat.eq_or_lt_of_le ordered with same | later
      · subst same
        exact if_pos ends
      · rw [if_neg (plain first (Nat.le_refl first) later)]
        exact ih later (by omega) (plain.mono (by omega) (Nat.le_refl stop))

theorem findNul_eq_last (plain : Plain buffer first (first + count)) :
    findNul buffer count first = first + count := by
  induction count generalizing first with
  | zero => rfl
  | succ count ih =>
      have here := plain first (Nat.le_refl first) (by omega)
      simp only [findNul, if_neg here]
      rw [ih (plain.mono (by omega) (by omega))]
      omega

theorem find_eq_stop (ordered : first ≤ stop) (inside : stop < last)
    (plain : Plain buffer first stop) (ends : buffer stop = 0) :
    find buffer first last = stop := by
  rw [find, if_neg (by omega)]
  exact findNul_eq_stop ordered (by omega) plain ends

theorem find_eq_last (plain : Plain buffer first last) :
    find buffer first last = last := by
  unfold find
  split
  · rfl
  · have whole : first + (last - first) = last := by omega
    rw [findNul_eq_last (by rwa [whole]), whole]

theorem plain_or_exists_stop (buffer : Buffer UInt8) (first last : Nat) :
    Plain buffer first last ∨ ∃ stop, first ≤ stop ∧ stop < last ∧
      Plain buffer first stop ∧ buffer stop = 0 := by
  by_cases plain : Plain buffer first last
  · exact .inl plain
  · right
    have found : ∃ cell, first ≤ cell ∧ cell < last ∧ buffer cell = 0 := by
      simpa [Plain] using plain
    refine ⟨Nat.find found, (Nat.find_spec found).1,
      (Nat.find_spec found).2.1, ?_, (Nat.find_spec found).2.2⟩
    intro cell from_first below ends
    exact Nat.find_min found below
      ⟨from_first, Nat.lt_trans below (Nat.find_spec found).2.1, ends⟩

end Searching

section Cells

variable {buffer : Buffer UInt8} {start last : Nat}

@[simp]
theorem cells_length (buffer : Buffer UInt8) (start last : Nat) :
    (cells buffer start last).length = last - start := by
  simp [cells]

theorem cells_eq_drop_view (buffer : Buffer UInt8) (start last : Nat) :
    cells buffer start last = (view buffer last).drop start := by
  simp [cells, view, List.range_eq_range', ← List.map_drop]

theorem mem_cells {byte : UInt8} :
    byte ∈ cells buffer start last ↔
      ∃ cell, start ≤ cell ∧ cell < last ∧ buffer cell = byte := by
  simp only [cells, List.mem_map, List.mem_range'_1]
  constructor
  · rintro ⟨cell, ⟨from_start, below⟩, same⟩
    exact ⟨cell, from_start, by omega, same⟩
  · rintro ⟨cell, from_start, below, same⟩
    exact ⟨cell, ⟨from_start, by omega⟩, same⟩

theorem plain_iff_not_mem_cells :
    Plain buffer start last ↔ 0 ∉ cells buffer start last := by
  rw [mem_cells]
  simp [Plain]

theorem cells_split {first second : Bytes}
    (shown : cells buffer start last = first ++ second) :
    cells buffer start (start + first.length) = first ∧
      cells buffer (start + first.length) last = second := by
  have length := congrArg List.length shown
  simp only [cells_length, List.length_append] at length
  have whole : cells buffer start last =
      cells buffer start (start + first.length) ++
        cells buffer (start + first.length) last := by
    simp only [cells, ← List.map_append]
    rw [show start + first.length - start = first.length by omega,
      List.range'_append_1]
    congr 2
    omega
  rw [whole] at shown
  exact List.append_inj shown (by simp)

theorem cells_eq_singleton {byte : UInt8}
    (shown : cells buffer start (start + 1) = [byte]) :
    buffer start = byte := by
  simpa [cells] using shown

end Cells

section Ranges

variable {buffer : Buffer UInt8} {start last : Nat} {strings : List Bytes}

theorem exists_spans (buffer : Buffer UInt8) {start last : Nat}
    (inside : start ≤ last) : ∃ spans, Spans buffer last start spans := by
  induction room : last - start using Nat.strongRecOn
    generalizing start with
  | _ room ih =>
      rcases plain_or_exists_stop buffer start last with
        plain | ⟨stop, ordered, below, plain, ends⟩
      · exact ⟨[], .rest inside plain⟩
      · obtain ⟨spans, later⟩ :=
          ih (last - (stop + 1)) (by omega) below rfl
        exact ⟨_, .string ordered below plain ends later⟩

theorem Spans.segments {spans : List (Nat × Nat)}
    (consists : Spans buffer last start spans) :
    Segments buffer last start
      (spans.map fun span => cells buffer span.1 span.2) := by
  induction consists with
  | rest inside plain => exact .rest inside plain
  | string ordered inside plain ends later ih =>
      exact .string ordered inside plain ends ih

theorem exists_segments (buffer : Buffer UInt8) {start last : Nat}
    (inside : start ≤ last) :
    ∃ strings, Segments buffer last start strings := by
  obtain ⟨spans, consists⟩ := exists_spans buffer inside
  exact ⟨_, consists.segments⟩

theorem Segments.length_le (segments : Segments buffer last start strings) :
    strings.length ≤ last - start := by
  induction segments with
  | rest => exact Nat.zero_le _
  | string ordered inside plain ends segments ih =>
      simp only [List.length_cons]
      omega

/-- Cells that show strings with a NUL behind each consist of them. -/
theorem segments_of_cells (inside : start ≤ last)
    (shown : cells buffer start last =
      strings.flatMap fun string => string ++ [0])
    (plain : ∀ string ∈ strings, 0 ∉ string) :
    Segments buffer last start strings := by
  induction strings generalizing start with
  | nil =>
      refine .rest inside ?_
      rw [plain_iff_not_mem_cells, shown]
      simp
  | cons string strings ih =>
      obtain ⟨here, later⟩ := List.forall_mem_cons.mp plain
      rw [List.flatMap_cons, List.append_assoc] at shown
      have length := congrArg List.length shown
      simp only [cells_length, List.length_append, List.length_singleton]
        at length
      obtain ⟨first, second⟩ := cells_split shown
      obtain ⟨ends, others⟩ := cells_split second
      rw [List.length_singleton] at ends others
      have segments := ih (by omega) others later
      have before : Plain buffer start (start + string.length) := by
        rwa [plain_iff_not_mem_cells, first]
      have stands := Segments.string (Nat.le_add_right start string.length)
        (by omega) before (cells_eq_singleton ends) segments
      rwa [first] at stands

end Ranges

section Iterating

variable {buffer : Buffer UInt8} {iterator : Iterator} {string : Bytes}
  {strings : List Bytes}

theorem Segments.first {start last : Nat}
    (segments : Segments buffer last start strings) :
    (first buffer start last).Visits buffer strings := by
  cases segments with
  | rest inside plain =>
      simp only [RequestTokenizer.first, find_eq_last plain, ne_eq,
        not_true, if_false]
      exact .atEnd
  | string ordered inside plain ends segments =>
      simp only [RequestTokenizer.first,
        find_eq_stop ordered inside plain ends, if_pos (Nat.ne_of_lt inside)]
      exact .string ordered inside plain ends segments

theorem first_of_reversed {start last : Nat} (reversed : last ≤ start) :
    (first buffer start last).Visits buffer [] := by
  simp only [first, find, if_pos reversed, ne_eq, not_true, if_false]
  exact .atEnd

/-- `operator++` passes one string. -/
theorem Iterator.Visits.advance
    (visits : iterator.Visits buffer (string :: strings)) :
    (iterator.advance buffer).Visits buffer strings := by
  cases visits with
  | @string start stop last _ _ _ _ _ segments =>
      cases segments with
      | rest inside plain =>
          simp only [Iterator.advance, find_eq_last plain, if_true]
          exact .atEnd
      | @string _ next _ ordered inside plain ends segments =>
          simp only [Iterator.advance,
            find_eq_stop ordered inside plain ends,
            if_neg (Nat.ne_of_lt inside)]
          exact .string ordered inside plain ends segments

theorem Iterator.Visits.advance_nil (visits : iterator.Visits buffer []) :
    (iterator.advance buffer).Visits buffer [] := by
  cases visits with
  | atEnd =>
      simp only [Iterator.advance, find, le_refl, if_true]
      exact .atEnd

theorem Iterator.Visits.atEnd_iff (visits : iterator.Visits buffer strings) :
    iterator.atEnd = true ↔ strings = [] := by
  cases visits with
  | atEnd => simp [Iterator.atEnd]
  | string ordered inside plain ends segments =>
      simp only [Iterator.atEnd, beq_iff_eq, reduceCtorEq, iff_false]
      omega

theorem Iterator.Visits.atEnd_nil (visits : iterator.Visits buffer []) :
    iterator.atEnd = true :=
  visits.atEnd_iff.mpr rfl

theorem Iterator.Visits.atEnd_cons
    (visits : iterator.Visits buffer (string :: strings)) :
    iterator.atEnd = false := by
  simpa using visits.atEnd_iff

/-- `operator*` yields the string the iterator stands at. -/
theorem Iterator.Visits.deref
    (visits : iterator.Visits buffer (string :: strings))
    (fits : iterator.last ≤ kBufferSize) :
    iterator.deref buffer = string := by
  cases visits with
  | string ordered inside plain ends segments =>
      rw [Iterator.deref, cString,
        find_eq_stop ordered (Nat.lt_of_lt_of_le inside fits) plain ends,
        cells]

@[simp]
theorem first_last (buffer : Buffer UInt8) (start last : Nat) :
    (first buffer start last).last = last := by
  simp only [first]
  split <;> rfl

@[simp]
theorem Iterator.advance_last (buffer : Buffer UInt8) (iterator : Iterator) :
    (iterator.advance buffer).last = iterator.last := by
  simp only [Iterator.advance]
  split <;> rfl

/-- The loop yields the strings that are left. -/
theorem Iterator.Visits.yields (visits : iterator.Visits buffer strings)
    (fits : iterator.last ≤ kBufferSize) : iterator.Yields buffer strings := by
  induction strings generalizing iterator with
  | nil => exact .atEnd visits.atEnd_nil
  | cons string strings ih =>
      have yields := Yields.string visits.atEnd_cons
        (ih visits.advance (by simpa using fits))
      rwa [visits.deref fits] at yields

end Iterating

end RequestTokenizer

end MsmTftp
