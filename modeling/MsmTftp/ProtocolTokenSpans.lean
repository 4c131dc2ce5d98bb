import Mathlib.Logic.Function.Iterate
import MsmTftp.ProtocolTokens

/-!
# Which cells the tokenizer visits

A string of a range is known by two positions: where it starts and where its
NUL is.  The iterator that stands at a string is determined by them, so the
whole loop from `begin()` is read off the list of positions.
-/

namespace MsmTftp

open CellBuffer

namespace RequestTokenizer

/-- `RequestTokenizer::end`. -/
def endIterator (buffer : Buffer UInt8) (last : Nat) : Iterator :=
  first buffer last last

namespace Iterator

/-- `operator==` looks at the current position only. -/
def equals (left right : Iterator) : Bool :=
  left.current == right.current

end Iterator

/-- `std::string_view` of a C string: the characters in front of the first
NUL, and the cells looked at to find it. -/
inductive StringView (buffer : Buffer UInt8) :
    Nat → Bytes → List Nat → Prop
  | nul {cell : Nat} (ends : buffer cell = 0) :
      StringView buffer cell [] [cell]
  | character {cell : Nat} {string : Bytes} {reads : List Nat}
      (plain : buffer cell ≠ 0)
      (view : StringView buffer (cell + 1) string reads) :
      StringView buffer cell (buffer cell :: string) (cell :: reads)

/-- `operator*`, with the cells it reads. -/
def Iterator.Dereferences (buffer : Buffer UInt8) (iterator : Iterator) :
    Bytes → List Nat → Prop :=
  StringView buffer iterator.current

/-- A longest run of cells without a NUL that has a NUL of the range behind
it. -/
structure Terminated (buffer : Buffer UInt8) (start last : Nat)
    (segment : Nat × Nat) : Prop where
  from_start : start ≤ segment.1
  ordered : segment.1 ≤ segment.2
  inside : segment.2 < last
  plain : Plain buffer segment.1 segment.2
  ends : buffer segment.2 = 0
  /-- The run cannot be extended to the left. -/
  left : segment.1 = start ∨ start < segment.1 ∧ buffer (segment.1 - 1) = 0

section Viewing

variable {buffer : Buffer UInt8} {cell stop : Nat} {string : Bytes}
  {reads : List Nat}

theorem cells_self (buffer : Buffer UInt8) (cell : Nat) :
    cells buffer cell cell = [] := by
  simp [cells]

theorem cells_cons (inside : cell < stop) :
    cells buffer cell stop = buffer cell :: cells buffer (cell + 1) stop := by
  have count : stop - cell = stop - (cell + 1) + 1 := by omega
  rw [cells, count, List.range'_succ, List.map_cons, cells]

/-- The cells of a string and of its NUL. -/
def readCells (start stop : Nat) : List Nat :=
  List.range' start (stop - start + 1)

theorem mem_readCells (ordered : cell ≤ stop) {read : Nat} :
    read ∈ readCells cell stop ↔ cell ≤ read ∧ read ≤ stop := by
  rw [readCells, List.mem_range'_1]
  omega

theorem stringView_cells (ordered : cell ≤ stop)
    (plain : Plain buffer cell stop) (ends : buffer stop = 0) :
    StringView buffer cell (cells buffer cell stop)
      (readCells cell stop) := by
  induction room : stop - cell generalizing cell with
  | zero =>
      have same : cell = stop := by omega
      subst same
      rw [cells_self, readCells, room]
      exact .nul ends
  | succ room ih =>
      have inside : cell < stop := by omega
      have count : readCells cell stop = cell :: readCells (cell + 1) stop := by
        have shorter : stop - cell = stop - (cell + 1) + 1 := by omega
        rw [readCells, shorter, List.range'_succ, readCells]
      rw [cells_cons inside, count]
      refine .character (plain cell (Nat.le_refl cell) inside) ?_
      exact ih inside (plain.mono (Nat.le_succ cell) (Nat.le_refl stop))
        (by omega)

theorem StringView.unique {other : Bytes} {others : List Nat}
    (view : StringView buffer cell string reads)
    (again : StringView buffer cell other others) :
    string = other ∧ reads = others := by
  induction view generalizing other others with
  | nul ends =>
      cases again with
      | nul => exact ⟨rfl, rfl⟩
      | character plain => exact absurd ends plain
  | character plain view ih =>
      cases again with
      | nul ends => exact absurd ends plain
      | character _ again =>
          obtain ⟨same, sameReads⟩ := ih again
          exact ⟨by rw [same], by rw [sameReads]⟩

theorem stringView_iff (ordered : cell ≤ stop)
    (plain : Plain buffer cell stop) (ends : buffer stop = 0) :
    StringView buffer cell string reads ↔
      string = cells buffer cell stop ∧ reads = readCells cell stop := by
  have shown := stringView_cells ordered plain ends
  constructor
  · exact fun view => view.unique shown
  · rintro ⟨rfl, rfl⟩
    exact shown

theorem StringView.exists_stop
    (view : StringView buffer cell string reads) :
    ∃ stop, cell ≤ stop ∧ Plain buffer cell stop ∧ buffer stop = 0 := by
  induction view with
  | nul ends =>
      exact ⟨_, Nat.le_refl _, fun _ from_start below => by omega, ends⟩
  | character plain view ih =>
      obtain ⟨stop, ordered, before, ends⟩ := ih
      exact ⟨stop, by omega, before.cons plain, ends⟩

/-- A view that stays in the buffer is what `operator*` yields. -/
theorem Iterator.Dereferences.deref {iterator : Iterator}
    (view : iterator.Dereferences buffer string reads)
    (fits : ∀ read ∈ reads, read < kBufferSize) :
    iterator.deref buffer = string := by
  obtain ⟨stop, ordered, plain, ends⟩ := view.exists_stop
  obtain ⟨rfl, rfl⟩ := (stringView_iff ordered plain ends).mp view
  have inside : stop < kBufferSize :=
    fits stop ((mem_readCells ordered).mpr ⟨ordered, Nat.le_refl stop⟩)
  rw [Iterator.deref, cString, find_eq_stop ordered inside plain ends, cells]

end Viewing

section Positions

variable {buffer : Buffer UInt8} {start last : Nat}
  {spans : List (Nat × Nat)}

theorem Spans.start_le (consists : Spans buffer last start spans) :
    ∀ span ∈ spans, start ≤ span.1 := by
  induction consists with
  | rest => simp
  | string ordered inside plain ends later ih =>
      refine List.forall_mem_cons.mpr ⟨Nat.le_refl _, ?_⟩
      intro span member
      have behind := ih span member
      omega

theorem Spans.pairwise (consists : Spans buffer last start spans) :
    spans.Pairwise fun earlier later => earlier.2 < later.1 := by
  induction consists with
  | rest => exact .nil
  | string ordered inside plain ends later ih =>
      exact List.pairwise_cons.mpr ⟨later.start_le, ih⟩

/-- The first string of a range, and the strings behind its NUL. -/
theorem terminated_cons_iff {stop : Nat} (ordered : start ≤ stop)
    (inside : stop < last) (plain : Plain buffer start stop)
    (ends : buffer stop = 0) {span : Nat × Nat} :
    Terminated buffer start last span ↔
      span = (start, stop) ∨ Terminated buffer (stop + 1) last span := by
  obtain ⟨first, behind⟩ := span
  constructor
  · intro terminated
    obtain ⟨from_start, orderedToo, insideToo, plainToo, endsToo, left⟩ :=
      terminated
    rcases left with rfl | ⟨later, nul⟩
    · -- Two strings that start together end at the same NUL.
      left
      have upTo : stop ≤ behind := by
        by_contra below
        exact plain behind orderedToo (by simpa using below) endsToo
      have notBeyond : behind ≤ stop := by
        by_contra beyond
        exact plainToo stop ordered (by simpa using beyond) ends
      rw [Nat.le_antisymm notBeyond upTo]
    · -- The NUL in front of a later string is not before the first one.
      right
      have beyond : stop ≤ first - 1 := by
        by_contra below
        exact plain (first - 1) (by simp at later; omega)
          (by simpa using below) nul
      simp only at later nul orderedToo insideToo plainToo endsToo
      refine ⟨?_, orderedToo, insideToo, plainToo, endsToo, ?_⟩
      · simp only
        omega
      · rcases Nat.eq_or_lt_of_le beyond with here | after
        · left
          simp only
          omega
        · right
          simp only
          exact ⟨by omega, nul⟩
  · rintro (same | terminated)
    · obtain ⟨rfl, rfl⟩ := Prod.mk.inj same
      exact ⟨Nat.le_refl _, ordered, inside, plain, ends, .inl rfl⟩
    · obtain ⟨from_start, orderedToo, insideToo, plainToo, endsToo, left⟩ :=
        terminated
      refine ⟨by omega, orderedToo, insideToo, plainToo, endsToo, ?_⟩
      right
      rcases left with here | ⟨later, nul⟩
      · rw [here]
        exact ⟨by omega, ends⟩
      · exact ⟨by omega, nul⟩

/-- The positions are exactly those of the terminated runs. -/
theorem Spans.mem_iff (consists : Spans buffer last start spans)
    (span : Nat × Nat) :
    span ∈ spans ↔ Terminated buffer start last span := by
  induction consists with
  | rest inside plain =>
      simp only [List.not_mem_nil, false_iff]
      intro terminated
      exact plain span.2
        (Nat.le_trans terminated.from_start terminated.ordered)
        terminated.inside terminated.ends
  | string ordered inside plain ends later ih =>
      rw [List.mem_cons, ih, terminated_cons_iff ordered inside plain ends]

end Positions

section Standing

variable {buffer : Buffer UInt8} {start last : Nat}
  {spans : List (Nat × Nat)} {span : Nat × Nat}

/-- The iterator that stands at the first of the strings left. -/
def standing (last : Nat) : List (Nat × Nat) → Iterator
  | [] => { last, next := last, current := last }
  | span :: _ => { last, next := span.2 + 1, current := span.1 }

theorem endIterator_eq (buffer : Buffer UInt8) (last : Nat) :
    endIterator buffer last = standing last [] := by
  simp [endIterator, first, find, standing]

theorem Spans.first (consists : Spans buffer last start spans) :
    first buffer start last = standing last spans := by
  cases consists with
  | rest inside plain =>
      simp only [RequestTokenizer.first, find_eq_last plain, ne_eq,
        not_true, if_false, standing]
  | string ordered inside plain ends later =>
      simp only [RequestTokenizer.first,
        find_eq_stop ordered inside plain ends,
        if_pos (Nat.ne_of_lt inside), standing]

theorem Spans.advance
    (consists : Spans buffer last start (span :: spans)) :
    (standing last (span :: spans)).advance buffer =
      standing last spans := by
  cases consists with
  | string ordered inside plain ends later =>
      cases later with
      | rest inside plain =>
          simp only [Iterator.advance, standing, find_eq_last plain, if_true]
      | string ordered inside plain ends later =>
          simp only [Iterator.advance, standing,
            find_eq_stop ordered inside plain ends,
            if_neg (Nat.ne_of_lt inside)]

theorem standing_nil_advance (buffer : Buffer UInt8) (last : Nat) :
    (standing last []).advance buffer = standing last [] := by
  simp [Iterator.advance, standing, find]

/-- Where the loop stands after some rounds. -/
theorem Spans.iterate (consists : Spans buffer last start spans)
    (rounds : Nat) :
    (Iterator.advance buffer)^[rounds] (standing last spans) =
      standing last (spans.drop rounds) := by
  induction rounds generalizing start spans with
  | zero => rfl
  | succ rounds ih =>
      rw [Function.iterate_succ_apply]
      cases consists with
      | rest inside plain =>
          rw [standing_nil_advance, ih (.rest inside plain)]
          simp
      | string ordered inside plain ends later =>
          rw [(Spans.string ordered inside plain ends later).advance,
            ih later, List.drop_succ_cons]

/-- `begin()` incremented some times. -/
def iteration (buffer : Buffer UInt8) (start last rounds : Nat) : Iterator :=
  (Iterator.advance buffer)^[rounds] (first buffer start last)

theorem Spans.iteration_eq (consists : Spans buffer last start spans)
    (rounds : Nat) :
    iteration buffer start last rounds =
      standing last (spans.drop rounds) := by
  rw [iteration, consists.first, consists.iterate]

theorem Spans.iteration_inside (consists : Spans buffer last start spans)
    {round : Nat} (inside : round < spans.length) :
    iteration buffer start last round =
      { last, next := spans[round].2 + 1, current := spans[round].1 } := by
  rw [consists.iteration_eq, List.drop_eq_getElem_cons inside, standing]

theorem Spans.iteration_beyond (consists : Spans buffer last start spans)
    {rounds : Nat} (beyond : spans.length ≤ rounds) :
    iteration buffer start last rounds = endIterator buffer last := by
  rw [consists.iteration_eq, List.drop_eq_nil_of_le beyond, endIterator_eq]

/-- Everything read of a terminated run is in the range, at or before one of
its NULs. -/
theorem Terminated.read_inside (terminated : Terminated buffer start last span)
    {read : Nat} (member : read ∈ readCells span.1 span.2) :
    start ≤ read ∧ ∃ nul, read ≤ nul ∧ nul < last ∧ buffer nul = 0 := by
  obtain ⟨from_first, upTo⟩ :=
    (mem_readCells terminated.ordered).mp member
  exact ⟨Nat.le_trans terminated.from_start from_first,
    span.2, upTo, terminated.inside, terminated.ends⟩

end Standing

/-- The loop from `begin()` by `operator++` visits the terminated runs of the
range, in order and each once, and stays at `end()` afterwards; each
dereference before yields its run and reads nothing outside the range and
nothing behind its last NUL. -/
theorem tokenizer_visits_terminated (buffer : Buffer UInt8)
    {start last : Nat} (range : start ≤ last) :
    ∃ segments : List (Nat × Nat),
      (segments.Pairwise fun earlier later => earlier.2 < later.1) ∧
      (∀ segment,
        segment ∈ segments ↔ Terminated buffer start last segment) ∧
      (∀ round, ∀ inside : round < segments.length,
        let iterator := iteration buffer start last round
        let segment := segments[round]
        iterator.equals (endIterator buffer last) = false ∧
        iterator.current = segment.1 ∧
        (∀ string reads, iterator.Dereferences buffer string reads ↔
          string = cells buffer segment.1 segment.2 ∧
            reads = readCells segment.1 segment.2) ∧
        ∀ read ∈ readCells segment.1 segment.2,
          start ≤ read ∧ ∃ nul, read ≤ nul ∧ nul < last ∧ buffer nul = 0) ∧
      (∀ rounds, segments.length ≤ rounds →
        iteration buffer start last rounds = endIterator buffer last ∧
        (iteration buffer start last rounds).equals
          (endIterator buffer last) = true) ∧
      (endIterator buffer last).advance buffer = endIterator buffer last := by
  obtain ⟨segments, consists⟩ := exists_spans buffer range
  refine ⟨segments, consists.pairwise, consists.mem_iff, ?_, ?_, ?_⟩
  · intro round inside iterator segment
    have terminated : Terminated buffer start last segment :=
      (consists.mem_iff segment).mp (List.getElem_mem inside)
    have stands : iterator =
        { last, next := segment.2 + 1, current := segment.1 } :=
      consists.iteration_inside inside
    have before : segment.1 < last :=
      Nat.lt_of_le_of_lt terminated.ordered terminated.inside
    refine ⟨?_, by rw [stands], ?_, ?_⟩
    · rw [stands, endIterator_eq]
      simpa [Iterator.equals, standing] using Nat.ne_of_lt before
    · intro string reads
      rw [Iterator.Dereferences, stands]
      exact stringView_iff terminated.ordered terminated.plain
        terminated.ends
    · intro read member
      exact terminated.read_inside member
  · intro rounds beyond
    have reached := consists.iteration_beyond beyond
    exact ⟨reached, by rw [reached]; simp [Iterator.equals]⟩
  · rw [endIterator_eq]
    exact standing_nil_advance buffer last

/-- Two strings, the second of them empty, and a rest that is not visited. -/
theorem tokenizer_visits_name_and_empty :
    iteration (ofList 1 [110, 0, 0, 111]) 0 4 2 =
        endIterator (ofList 1 [110, 0, 0, 111]) 4 ∧
      ∃ segments : List (Nat × Nat),
        (∀ segment, segment ∈ segments ↔
          Terminated (ofList 1 [110, 0, 0, 111]) 0 4 segment) ∧
        ∀ rounds, segments.length ≤ rounds →
          iteration (ofList 1 [110, 0, 0, 111]) 0 4 rounds =
            endIterator (ofList 1 [110, 0, 0, 111]) 4 := by
  refine ⟨by decide, ?_⟩
  obtain ⟨segments, _, exact_runs, _, reaches, _⟩ :=
    tokenizer_visits_terminated (ofList 1 [110, 0, 0, 111])
      (show 0 ≤ 4 by decide)
  exact ⟨segments, exact_runs,
    fun rounds beyond => (reaches rounds beyond).1⟩

end RequestTokenizer

end MsmTftp
