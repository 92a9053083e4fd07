import Mathlib.Logic.Function.Basic
import Mathlib.Data.List.Basic

/-! Form bodies: assignments joined by one mark, each a key and a value joined by
another, and stores that take such a body by overwriting every key it names.
Nothing is escaped, so what a body says depends on which of its texts hold the
marks. -/
namespace Ironsight.FormBody

variable {α : Type*} [DecidableEq α]

/-- The two marks of a body. -/
structure Marks (α : Type*) where
  between : α
  equals : α

abbrev Config (α : Type*) := List α → Option (List α)

variable (marks : Marks α)

/-! ## Writing -/

def Marks.line (write : List α × List α) : List α := write.1 ++ marks.equals :: write.2

def Marks.join (lines : List (List α)) : List α := List.intercalate [marks.between] lines

/-! ## Reading -/

/-- A piece is cut at its first equals mark. -/
def Marks.assignment (piece : List α) : List α × List α :=
  (piece.takeWhile (· ≠ marks.equals), (piece.dropWhile (· ≠ marks.equals)).drop 1)

def Marks.assignments (body : List α) : List (List α × List α) :=
  (body.splitOn marks.between).map marks.assignment

def assign (config : Config α) (writes : List (List α × List α)) : Config α :=
  writes.foldl (fun config write => Function.update config write.1 (some write.2)) config

def Marks.setconfig (config : Config α) (body : List α) : Config α := assign config (marks.assignments body)

/-! ## Stores -/

theorem assign_append (config : Config α) (first second : List (List α × List α)) :
    assign config (first ++ second) = assign (assign config first) second := by
  simp only [assign, List.foldl_append]

/-- A key that is not written keeps its value. -/
theorem assign_of_not_written {key : List α} {writes : List (List α × List α)} (config : Config α)
    (unwritten : ∀ write ∈ writes, write.1 ≠ key) : assign config writes key = config key := by
  induction writes generalizing config with
  | nil => rfl
  | cons write writes ih =>
    have rest := ih (Function.update config write.1 (some write.2))
      fun other member => unwritten other (List.mem_cons_of_mem _ member)
    rw [assign, List.foldl_cons]
    apply rest.trans
    rw [Function.update_of_ne]
    exact (unwritten write List.mem_cons_self).symm

/-- A written key holds one of the values written to it. -/
theorem assign_of_written {key : List α} {writes : List (List α × List α)} (config : Config α)
    (written : ∃ write ∈ writes, write.1 = key) :
    ∃ value, assign config writes key = some value ∧ (key, value) ∈ writes := by
  induction writes generalizing config with
  | nil =>
    obtain ⟨write, member, _⟩ := written
    cases member
  | cons write writes ih =>
    by_cases later : ∃ write ∈ writes, write.1 = key
    · obtain ⟨value, held, member⟩ := ih (Function.update config write.1 (some write.2)) later
      exact ⟨value, held, List.mem_cons_of_mem _ member⟩
    · have last : write.1 = key := by
        obtain ⟨other, member, same⟩ := written
        rcases List.mem_cons.mp member with rfl | member
        · exact same
        · exact (later ⟨other, member, same⟩).elim
      refine ⟨write.2, ?_, ?_⟩
      · rw [assign, List.foldl_cons]
        apply (assign_of_not_written _ fun other member same => later ⟨other, member, same⟩).trans
        rw [last, Function.update_self]
      · rw [← last]
        exact List.mem_cons_self

/-- A key that is only ever written with one value holds it. -/
theorem assign_eq {key value : List α} {writes : List (List α × List α)} (config : Config α)
    (member : (key, value) ∈ writes) (only : ∀ other, (key, other) ∈ writes → other = value) :
    assign config writes key = some value := by
  obtain ⟨other, held, written⟩ := assign_of_written config ⟨_, member, rfl⟩
  rw [held, only other written]

/-! ## Bodies -/

omit [DecidableEq α] in
private theorem mem_of_mem_modifyHead_cons {char mark : α} {pieces : List (List α)}
    (clean : ∀ piece ∈ pieces, mark ∉ piece) (other : mark ≠ char) :
    ∀ piece ∈ pieces.modifyHead (char :: ·), mark ∉ piece := by
  cases pieces with
  | nil => exact clean
  | cons first rest =>
    intro piece member held
    rcases List.mem_cons.mp member with rfl | member
    · rcases List.mem_cons.mp held with same | held
      · exact other same
      · exact clean first List.mem_cons_self held
    · exact clean piece (List.mem_cons_of_mem _ member) held

/-- No piece holds the mark that it was split at. -/
theorem notMem_of_mem_splitOn {mark : α} {body : List α} : ∀ piece ∈ body.splitOn mark, mark ∉ piece := by
  induction body with
  | nil => simp
  | cons char body ih =>
    rw [List.splitOn_cons_eq_if_modifyHead]
    split
    · intro piece member
      rcases List.mem_cons.mp member with rfl | member
      · exact List.not_mem_nil
      · exact ih piece member
    · rename_i other
      exact mem_of_mem_modifyHead_cons ih fun same => other (beq_iff_eq.mpr same.symm)

/-- What a joined body is split into, for lines with and without the mark. -/
theorem splitOn_join {lines : List (List α)} (some_ : lines ≠ []) :
    (marks.join lines).splitOn marks.between = lines.flatMap (·.splitOn marks.between) := by
  induction lines with
  | nil => exact (some_ rfl).elim
  | cons line lines ih =>
    cases lines with
    | nil => simp [Marks.join, List.intercalate]
    | cons next rest =>
      have joined : marks.join (line :: next :: rest) = line ++ marks.between :: marks.join (next :: rest) := by
        simp [Marks.join, List.intercalate]
      rw [joined, List.splitOn_append_cons_self, ih (List.cons_ne_nil _ _)]
      rfl

/-- A line whose key has no equals mark is read as it was written. -/
theorem assignment_line {key : List α} (plain : marks.equals ∉ key) (value : List α) :
    marks.assignment (marks.line (key, value)) = (key, value) := by
  have before : ∀ char ∈ key, decide (char ≠ marks.equals) = true := by
    intro char member
    apply decide_eq_true
    rintro rfl
    exact plain member
  unfold Marks.assignment Marks.line
  rw [List.takeWhile_append_of_pos before, List.dropWhile_append_of_pos before]
  simp

/-- Keys without the equals mark end where it first stands. -/
theorem line_inj {first second : List α × List α} (left : marks.equals ∉ first.1) (right : marks.equals ∉ second.1)
    (same : marks.line first = marks.line second) : first = second := by
  calc first = marks.assignment (marks.line first) := (assignment_line marks left first.2).symm
    _ = marks.assignment (marks.line second) := by rw [same]
    _ = second := assignment_line marks right second.2

/-- Lines without the mark between them are read as they were written. -/
theorem assignments_join {writes : List (List α × List α)} (some_ : writes ≠ [])
    (keys : ∀ write ∈ writes, marks.equals ∉ write.1) (plain : ∀ write ∈ writes, marks.between ∉ marks.line write) :
    marks.assignments (marks.join (writes.map marks.line)) = writes := by
  have each : ∀ write ∈ writes, marks.assignment (marks.line write) = write :=
    fun write member => assignment_line marks (keys write member) write.2
  have pieces : (marks.join (writes.map marks.line)).splitOn marks.between = writes.map marks.line := by
    apply List.splitOn_intercalate
    · intro line member
      obtain ⟨write, written, rfl⟩ := List.mem_map.mp member
      exact plain write written
    · simpa using some_
  rw [Marks.assignments, pieces, List.map_map]
  exact (List.map_congr_left each).trans (List.map_id writes)

/-- Whatever the values hold, the key of every line is written. -/
theorem key_written {writes : List (List α × List α)} {write : List α × List α} (member : write ∈ writes)
    (equals : marks.equals ∉ write.1) (between : marks.between ∉ write.1) (distinct : marks.between ≠ marks.equals) :
    ∃ read ∈ marks.assignments (marks.join (writes.map marks.line)), read.1 = write.1 := by
  -- the first piece of the line: its key and its value up to the mark between lines
  have head : ∃ value, marks.line (write.1, value) ∈ (marks.line write).splitOn marks.between := by
    by_cases clean : marks.between ∈ write.2
    · obtain ⟨value, rest, split, first⟩ := List.eq_append_cons_of_mem clean
      have cut : marks.line write = marks.line (write.1, value) ++ marks.between :: rest := by
        simp only [Marks.line, split, List.append_assoc, List.cons_append]
      refine ⟨value, ?_⟩
      rw [cut, List.splitOn_append_cons_self, List.splitOn_eq_singleton]
      · exact List.mem_cons_self
      · simp [Marks.line, between, distinct, first]
    · refine ⟨write.2, ?_⟩
      rw [List.splitOn_eq_singleton]
      · exact List.mem_singleton_self _
      · simp [Marks.line, between, distinct, clean]
  obtain ⟨value, piece⟩ := head
  refine ⟨(write.1, value), ?_, rfl⟩
  rw [Marks.assignments, splitOn_join marks (by simpa using List.ne_nil_of_mem member)]
  rw [← assignment_line marks equals value]
  apply List.mem_map_of_mem
  exact List.mem_flatMap.mpr ⟨_, List.mem_map_of_mem member, piece⟩

/-- No value that is read from a body holds the mark between lines. -/
theorem between_notMem_value {body : List α} {write : List α × List α} (read : write ∈ marks.assignments body) :
    marks.between ∉ write.2 := by
  obtain ⟨piece, member, rfl⟩ := List.mem_map.mp read
  intro held
  exact notMem_of_mem_splitOn piece member ((List.dropWhile_suffix _).mem (List.mem_of_mem_drop held))

end Ironsight.FormBody
