import Mathlib.Data.List.Nodup
import Mathlib.Data.List.Perm.Basic
import Mathlib.Data.List.Sort

/-! Relational tables with a primary key. The key constraint is a field of the
table, so a table with two rows under one key cannot be built: an insert
answers with the new table or refuses, and an update must leave every key as
it was. Row order stands for the order in which an unordered scan meets the
rows. -/
namespace Ironsight.Tables

variable {ρ κ : Type*}

/-- The rows of one table, pairwise different under the primary key `key`. -/
structure Table (key : ρ → κ) where
  rows : List ρ
  distinct : (rows.map key).Nodup

namespace Table

variable {key : ρ → κ}

instance : Membership ρ (Table key) := ⟨fun table row => row ∈ table.rows⟩

instance [DecidableEq ρ] (row : ρ) (table : Table key) : Decidable (row ∈ table) :=
  inferInstanceAs (Decidable (row ∈ table.rows))

instance (table : Table key) (holds : ρ → Prop) [DecidablePred holds] :
    Decidable (∀ row ∈ table, holds row) :=
  inferInstanceAs (Decidable (∀ row ∈ table.rows, holds row))

instance (table : Table key) (holds : ρ → Prop) [DecidablePred holds] :
    Decidable (∃ row ∈ table, holds row) :=
  inferInstanceAs (Decidable (∃ row ∈ table.rows, holds row))

theorem mem_def {row : ρ} {table : Table key} : row ∈ table ↔ row ∈ table.rows := Iff.rfl

@[ext] theorem ext_rows {left right : Table key} (same : left.rows = right.rows) : left = right := by
  cases left
  cases right
  cases same
  rfl

instance [DecidableEq ρ] : DecidableEq (Table key) := fun left right =>
  decidable_of_iff (left.rows = right.rows) ⟨ext_rows, fun same => same ▸ rfl⟩

/-- The table without rows. -/
def empty : Table key := ⟨[], List.nodup_nil⟩

/-- The table with one row. -/
def single (row : ρ) : Table key := ⟨[row], List.nodup_singleton (key row)⟩

/-- Two rows of a table under one key are the same row. -/
theorem key_inj {table : Table key} {first second : ρ} (left : first ∈ table) (right : second ∈ table)
    (same : key first = key second) : first = second :=
  List.inj_on_of_nodup_map table.distinct left right same

/-- `SELECT … WHERE key = $1`. -/
def find? [DecidableEq κ] (table : Table key) (k : κ) : Option ρ :=
  table.rows.find? fun row => key row = k

theorem find?_eq_some [DecidableEq κ] {table : Table key} {k : κ} {row : ρ} :
    table.find? k = some row ↔ row ∈ table ∧ key row = k := by
  constructor
  · intro found
    exact ⟨List.mem_of_find?_eq_some found, by simpa using List.find?_some found⟩
  · rintro ⟨member, rfl⟩
    cases found : table.find? (key row) with
    | none =>
      have absent := List.find?_eq_none.mp found row member
      simp at absent
    | some other =>
      have same : key other = key row := by simpa using List.find?_some found
      rw [key_inj (List.mem_of_find?_eq_some found) member same]

theorem find?_eq_none [DecidableEq κ] {table : Table key} {k : κ} :
    table.find? k = none ↔ ∀ row ∈ table, key row ≠ k := by
  simp [find?, mem_def]

/-- `SELECT … FROM view WHERE key = $1`, where the view keeps the accepted rows. -/
def lookup [DecidableEq κ] {ε : Type*} (table : Table key) (accepts : ρ → Bool) (k : κ) (err : ε) : Except ε ρ :=
  match table.find? k with
  | some found => if accepts found then .ok found else .error err
  | none => .error err

theorem lookup_ok [DecidableEq κ] {ε : Type*} {table : Table key} {accepts : ρ → Bool} {k : κ} {row : ρ} {err : ε} :
    table.lookup accepts k err = .ok row ↔ row ∈ table ∧ key row = k ∧ accepts row = true := by
  unfold lookup
  cases found : table.find? k with
  | none =>
    have absent := find?_eq_none.mp found
    simp only [reduceCtorEq, false_iff]
    rintro ⟨member, same, _⟩
    exact absent row member same
  | some other =>
    obtain ⟨member, same⟩ := find?_eq_some.mp found
    cases accepted : accepts other with
    | true =>
      simp only [accepted, if_true, Except.ok.injEq]
      constructor
      · rintro rfl
        exact ⟨member, same, accepted⟩
      · rintro ⟨held, sameKey, _⟩
        exact key_inj member held (same.trans sameKey.symm)
    | false =>
      simp only [accepted, Bool.false_eq_true, if_false, reduceCtorEq, false_iff]
      rintro ⟨held, sameKey, chosen⟩
      rw [key_inj held member (sameKey.trans same.symm), accepted] at chosen
      cases chosen

/-- `UPDATE … SET change WHERE selected`. An update never writes the key. -/
def modify (table : Table key) (selected : ρ → Bool) (change : ρ → ρ)
    (keeps : ∀ row, key (change row) = key row) : Table key where
  rows := table.rows.map fun row => if selected row then change row else row
  distinct := by
    have same : (table.rows.map fun row => if selected row then change row else row).map key =
        table.rows.map key := by
      rw [List.map_map]
      apply List.map_congr_left
      intro row _
      simp only [Function.comp_apply]
      split
      · exact keeps row
      · rfl
    rw [same]
    exact table.distinct

theorem mem_modify {table : Table key} {selected : ρ → Bool} {change : ρ → ρ}
    {keeps : ∀ row, key (change row) = key row} {row : ρ} :
    row ∈ table.modify selected change keeps ↔
      ∃ old ∈ table, row = if selected old then change old else old := by
  simp only [mem_def, modify, List.mem_map, eq_comm]

/-- An update is read back where it was made, and nowhere else. -/
theorem find?_modify [DecidableEq κ] {table : Table key} {selected : ρ → Bool} {change : ρ → ρ}
    {keeps : ∀ row, key (change row) = key row} {k : κ} :
    (table.modify selected change keeps).find? k =
      (table.find? k).map fun row => if selected row then change row else row := by
  have same (row : ρ) : key (if selected row then change row else row) = key row := by
    split
    · exact keeps row
    · rfl
  simp only [find?, modify, List.find?_map, Function.comp_def, same]

/-- `RowsAffected`. -/
def affected (table : Table key) (selected : ρ → Bool) : Nat := table.rows.countP selected

theorem affected_pos {table : Table key} {selected : ρ → Bool} :
    0 < table.affected selected ↔ ∃ row ∈ table, selected row = true := by
  simp [affected, mem_def, List.countP_pos_iff]

/-- A statement that selects by the key touches at most one row. -/
theorem affected_le_one [DecidableEq κ] {table : Table key} {selected : ρ → Bool} (k : κ)
    (byKey : ∀ row, selected row = true → key row = k) : table.affected selected ≤ 1 := by
  have bounded : table.rows.countP selected ≤ (table.rows.map key).count k := by
    rw [List.count, List.countP_map]
    apply List.countP_mono_left
    intro row _ chosen
    simpa using byKey row chosen
  exact Nat.le_trans bounded (List.nodup_iff_count_le_one.mp table.distinct k)

theorem modify_of_not_affected {table : Table key} {selected : ρ → Bool} {change : ρ → ρ}
    {keeps : ∀ row, key (change row) = key row} (none_ : table.affected selected = 0) :
    table.modify selected change keeps = table := by
  apply ext_rows
  have unselected : ∀ row ∈ table.rows, ¬ selected row = true := List.countP_eq_zero.mp none_
  have same : table.rows.map (fun row => if selected row then change row else row) =
      table.rows.map id := by
    apply List.map_congr_left
    intro row member
    rw [if_neg (unselected row member)]
    rfl
  exact same.trans (List.map_id _)

/-- `INSERT`: refused when the key is taken. -/
def insert? [DecidableEq κ] (table : Table key) (row : ρ) : Option (Table key) :=
  if fresh : ∀ other ∈ table.rows, key other ≠ key row then
    some ⟨table.rows ++ [row], by
      simpa [List.nodup_append, table.distinct] using fresh⟩
  else none

theorem insert?_eq_none [DecidableEq κ] {table : Table key} {row : ρ} :
    table.insert? row = none ↔ ∃ other ∈ table, key other = key row := by
  simp [insert?, mem_def]

theorem insert?_of_fresh [DecidableEq κ] {table : Table key} {row : ρ} (fresh : ∀ other ∈ table, key other ≠ key row) :
    ∃ after, table.insert? row = some after :=
  ⟨_, dif_pos fresh⟩

theorem insert?_fresh [DecidableEq κ] {table after : Table key} {row : ρ}
    (done : table.insert? row = some after) : ∀ other ∈ table, key other ≠ key row := by
  intro other member same
  have refused := insert?_eq_none.mpr ⟨other, member, same⟩
  rw [refused] at done
  cases done

theorem insert?_rows [DecidableEq κ] {table after : Table key} {row : ρ}
    (done : table.insert? row = some after) : after.rows = table.rows ++ [row] := by
  unfold insert? at done
  split at done
  · cases done
    rfl
  · cases done

theorem mem_insert? [DecidableEq κ] {table after : Table key} {row other : ρ}
    (done : table.insert? row = some after) : other ∈ after ↔ other ∈ table ∨ other = row := by
  simp [mem_def, insert?_rows done]

/-- The inserted row is found under its key, the others where they were. -/
theorem find?_insert? [DecidableEq κ] {table after : Table key} {row : ρ} {k : κ}
    (done : table.insert? row = some after) :
    after.find? k = if key row = k then some row else table.find? k := by
  have fresh := insert?_fresh done
  split
  · rename_i here
    exact find?_eq_some.mpr ⟨(mem_insert? done).mpr (.inr rfl), here⟩
  · rename_i elsewhere
    simp [find?, insert?_rows done, List.find?_append, elsewhere]

/-- `ON CONFLICT DO NOTHING`: a row with the key is there afterwards, and other keys are
where they were. -/
theorem find?_getD_insert? [DecidableEq κ] (table : Table key) (row : ρ) :
    ((table.insert? row).getD table).find? (key row) ≠ none ∧
      ∀ k, k ≠ key row → ((table.insert? row).getD table).find? k = table.find? k := by
  cases done : table.insert? row with
  | none =>
    obtain ⟨other, member, same⟩ := insert?_eq_none.mp done
    refine ⟨fun absent => ?_, fun _ _ => rfl⟩
    exact find?_eq_none.mp absent other member same
  | some after =>
    refine ⟨?_, fun k elsewhere => ?_⟩
    · rw [Option.getD_some, find?_insert? done, if_pos rfl]
      exact Option.some_ne_none row
    · rw [Option.getD_some, find?_insert? done, if_neg elsewhere.symm]

/-- Writes a row over the one under its key, if there is one. -/
def put [DecidableEq κ] (table : Table key) (row : ρ) : Table key where
  rows := table.rows.filter (fun other => key other ≠ key row) ++ [row]
  distinct := by
    rw [List.map_append, List.map_singleton]
    refine List.Nodup.append (table.distinct.sublist (List.filter_sublist.map _)) (List.nodup_singleton _) ?_
    intro k old new
    obtain ⟨other, kept, rfl⟩ := List.mem_map.mp old
    exact absurd (List.mem_singleton.mp new) (by simpa using List.of_mem_filter kept)

theorem mem_put [DecidableEq κ] {table : Table key} {row other : ρ} :
    other ∈ table.put row ↔ other = row ∨ other ∈ table ∧ key other ≠ key row := by
  simp [mem_def, put, or_comm]

/-- `DELETE … WHERE selected`. -/
def remove (table : Table key) (selected : ρ → Bool) : Table key where
  rows := table.rows.filter fun row => !selected row
  distinct := table.distinct.sublist (List.filter_sublist.map key)

theorem mem_remove {table : Table key} {selected : ρ → Bool} {row : ρ} :
    row ∈ table.remove selected ↔ row ∈ table ∧ selected row = false := by
  simp [mem_def, remove]

/-- `row` was created, deleted, or is the old or the new version of a changed
row. -/
def Written (before after : Table key) (row : ρ) : Prop :=
  (row ∈ before ∧ row ∉ after) ∨ (row ∈ after ∧ row ∉ before)

theorem not_written_self {table : Table key} {row : ρ} : ¬ Written table table row := by
  rintro (⟨held, gone⟩ | ⟨held, gone⟩) <;> exact gone held

theorem written_insert? [DecidableEq κ] {table after : Table key} {new row : ρ}
    (done : table.insert? new = some after) : Written table after row ↔ row = new := by
  have absent : new ∉ table := fun held => insert?_fresh done new held rfl
  simp only [Written, mem_insert? done]
  constructor
  · rintro (⟨held, gone⟩ | ⟨old | same, gone⟩)
    · exact absurd (.inl held) gone
    · exact absurd old gone
    · exact same
  · rintro rfl
    exact .inr ⟨.inr rfl, absent⟩

/-- An update writes the selected rows that it does change, and nothing else. -/
theorem written_modify {table : Table key} {selected : ρ → Bool} {change : ρ → ρ}
    {keeps : ∀ row, key (change row) = key row} {row : ρ} :
    Written table (table.modify selected change keeps) row ↔
      ∃ old ∈ table, selected old = true ∧ change old ≠ old ∧ (row = old ∨ row = change old) := by
  have sameKey (old : ρ) : key (if selected old then change old else old) = key old := by
    split
    · exact keeps old
    · rfl
  constructor
  · rintro (⟨held, gone⟩ | ⟨new, absent⟩)
    · have altered : ¬ row = if selected row then change row else row :=
        fun same => gone (mem_modify.mpr ⟨row, held, same⟩)
      by_cases chosen : selected row = true
      · rw [if_pos chosen] at altered
        exact ⟨row, held, chosen, fun same => altered same.symm, .inl rfl⟩
      · exact absurd (if_neg chosen).symm altered
    · obtain ⟨old, held, rfl⟩ := mem_modify.mp new
      by_cases chosen : selected old = true
      · rw [if_pos chosen] at absent ⊢
        exact ⟨old, held, chosen, fun same => absent (same.symm ▸ held), .inr rfl⟩
      · rw [if_neg chosen] at absent
        exact absurd held absent
  · rintro ⟨old, held, chosen, changed, rfl | rfl⟩
    · refine .inl ⟨held, fun kept => ?_⟩
      obtain ⟨other, member, same⟩ := mem_modify.mp kept
      have one : other = row := key_inj member held ((sameKey other).symm.trans (congrArg key same).symm)
      subst one
      rw [if_pos chosen] at same
      exact changed same.symm
    · refine .inr ⟨mem_modify.mpr ⟨old, held, by rw [if_pos chosen]⟩, fun kept => ?_⟩
      exact changed (key_inj kept held (keeps old))

end Table

/-- The order in which a statement meets the rows of a table, which is nobody's
choice. -/
structure Scan (ρ : Type*) where
  arrange : List ρ → List ρ
  perm : ∀ rows, (arrange rows).Perm rows

section Scans
variable {key : ρ → κ} {table : Table key} {scan : Scan ρ} {selected : ρ → Bool} {row : ρ}

/-- `SELECT … WHERE selected LIMIT 1`. -/
def Scan.first (scan : Scan ρ) (table : Table key) (selected : ρ → Bool) : Option ρ :=
  (scan.arrange table.rows).find? selected

theorem Scan.first_some (found : scan.first table selected = some row) : row ∈ table ∧ selected row = true :=
  ⟨(scan.perm table.rows).mem_iff.mp (List.mem_of_find?_eq_some found), List.find?_some found⟩

theorem Scan.first_eq_none : scan.first table selected = none ↔ ∀ row ∈ table, selected row = false := by
  rw [Scan.first, List.find?_eq_none]
  constructor
  · intro none_ row member
    simpa using none_ row ((scan.perm table.rows).mem_iff.mpr member)
  · intro none_ row member
    simpa using none_ row ((scan.perm table.rows).mem_iff.mp member)

/-- When one row is selected, every scan finds it. -/
theorem Scan.first_of_only (member : row ∈ table) (chosen : selected row = true)
    (only : ∀ other ∈ table, selected other = true → other = row) : scan.first table selected = some row := by
  cases found : scan.first table selected with
  | none =>
    have unselected := Scan.first_eq_none.mp found row member
    rw [chosen] at unselected
    cases unselected
  | some other =>
    obtain ⟨held, picked⟩ := Scan.first_some found
    rw [only other held picked]

/-- The rows as they are stored. -/
def Scan.inOrder : Scan ρ := ⟨id, List.Perm.refl⟩

/-- A scan that meets one row before the others. -/
def Scan.leading [DecidableEq ρ] (row : ρ) : Scan ρ where
  arrange rows := if row ∈ rows then row :: rows.erase row else rows
  perm rows := by
    split
    · rename_i member
      exact (List.perm_cons_erase member).symm
    · exact List.Perm.refl rows

/-- Every selected row is the first that some scan meets. -/
theorem Scan.leading_first [DecidableEq ρ] (member : row ∈ table) (chosen : selected row = true) :
    (Scan.leading row).first table selected = some row := by
  have arranged : (Scan.leading row).arrange table.rows = row :: table.rows.erase row := if_pos member
  rw [Scan.first, arranged, List.find?_cons_of_pos chosen]

end Scans

section Newest
variable {key : ρ → Int}

/-- `ORDER BY key DESC LIMIT 1`; of several rows with the greatest key the one
the scan meets first. -/
def newest (key : ρ → Int) (rows : List ρ) : Option ρ :=
  (rows.insertionSort fun first second => key second ≤ key first).head?

@[simp] theorem newest_nil : newest key [] = none := rfl

theorem newest_cons (row : ρ) (rest : List ρ) : newest key (row :: rest) =
    match newest key rest with
    | none => some row
    | some best => if key best ≤ key row then some row else some best := by
  simp only [newest, List.insertionSort_cons]
  cases rest.insertionSort fun first second => key second ≤ key first with
  | nil => rfl
  | cons best others =>
    simp only [List.orderedInsert_cons, List.head?_cons]
    split <;> rfl

theorem newest_eq_none {rows : List ρ} : newest key rows = none ↔ rows = [] := by
  cases rows with
  | nil => simp
  | cons row rest =>
    rw [newest_cons]
    split
    · simp
    · split <;> simp

theorem newest_some {row : ρ} : ∀ {rows : List ρ}, newest key rows = some row →
    row ∈ rows ∧ ∀ other ∈ rows, key other ≤ key row
  | [], found => by cases found
  | first :: rest, found => by
    rw [newest_cons] at found
    cases previous : newest key rest with
    | none =>
      simp only [previous, Option.some.injEq] at found
      simp [newest_eq_none.mp previous, found]
    | some best =>
      obtain ⟨held, greatest⟩ := newest_some previous
      simp only [previous] at found
      split at found
      · rename_i lower
        cases found
        exact ⟨List.mem_cons_self, List.forall_mem_cons.mpr
          ⟨le_rfl, fun other later => (greatest other later).trans lower⟩⟩
      · rename_i higher
        cases found
        exact ⟨List.mem_cons_of_mem _ held, List.forall_mem_cons.mpr ⟨by omega, greatest⟩⟩

end Newest
section Sorted
variable {r : ρ → ρ → Prop} [DecidableRel r]

private theorem orderedInsert_of_forall {row : ρ} {rows : List ρ} (first : ∀ other ∈ rows, r row other) :
    rows.orderedInsert r row = row :: rows := by
  cases rows with
  | nil => rfl
  | cons other rows => exact List.orderedInsert_cons_of_le r rows (first other List.mem_cons_self)

private theorem filter_orderedInsert [IsTrans ρ r] {row : ρ} {rows : List ρ} {chosen : ρ → Bool}
    (sorted : rows.Pairwise r) : (rows.orderedInsert r row).filter chosen =
      if chosen row then (rows.filter chosen).orderedInsert r row else rows.filter chosen := by
  induction rows with
  | nil => cases kept : chosen row <;> simp [kept]
  | cons other rows ih =>
    obtain ⟨above, others⟩ := List.pairwise_cons.mp sorted
    by_cases before : r row other
    · have all : ∀ later ∈ (other :: rows).filter chosen, r row later := by
        intro later member
        rcases List.mem_cons.mp (List.mem_of_mem_filter member) with rfl | held
        · exact before
        · exact IsTrans.trans row other later before (above later held)
      rw [List.orderedInsert_cons_of_le r rows before, orderedInsert_of_forall all, List.filter_cons]
    · rw [List.orderedInsert_of_not_le r rows before, List.filter_cons, ih others, List.filter_cons]
      cases kept : chosen other with
      | false => simp
      | true =>
        cases kept' : chosen row with
        | false => simp
        | true => simp [before]

/-- Sorting keeps the order of equal rows, so it does not matter whether rows are left out
before or after. -/
theorem insertionSort_filter [IsTrans ρ r] [Std.Total r] (chosen : ρ → Bool) (rows : List ρ) :
    (rows.filter chosen).insertionSort r = (rows.insertionSort r).filter chosen := by
  induction rows with
  | nil => rfl
  | cons row rows ih =>
    rw [List.insertionSort_cons, filter_orderedInsert (List.pairwise_insertionSort r rows), ← ih, List.filter_cons]
    cases kept : chosen row <;> simp

end Sorted
end Ironsight.Tables
