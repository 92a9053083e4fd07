import Mathlib.Algebra.Order.Group.Defs
import Mathlib.Data.List.Pairwise
import Mathlib.Order.Lattice

/-! Merging spans of time under keys: spans in the order of their starts are joined while the
next one starts less than a gap behind the end of what has been joined so far. -/
namespace Ironsight.SpanMerge

structure Span (κ τ : Type) where
  key : κ
  start : τ
  stop : τ
  flag : Bool

/-- Equal keys stand together. -/
def Grouped {κ : Type} : List κ → Prop
  | [] => True
  | first :: rest => (first ∈ rest → rest.head? = some first) ∧ Grouped rest

variable {κ τ : Type} [LinearOrder τ]

/-- The order in which spans are merged. -/
structure Ordered (spans : List (Span κ τ)) : Prop where
  grouped : Grouped (spans.map Span.key)
  starts : spans.Pairwise fun a b => a.key = b.key → a.start ≤ b.start
  valid : ∀ span ∈ spans, span.start ≤ span.stop

/-- One span lies in another of its key. -/
structure Within (inner outer : Span κ τ) : Prop where
  key : inner.key = outer.key
  start : outer.start ≤ inner.start
  stop : inner.stop ≤ outer.stop

/-- A time that a span of the key covers. -/
def Covered (spans : List (Span κ τ)) (key : κ) (time : τ) : Prop :=
  ∃ span ∈ spans, span.key = key ∧ span.start ≤ time ∧ time ≤ span.stop

def Span.absorb (current next : Span κ τ) : Span κ τ :=
  { current with stop := max current.stop next.stop, flag := current.flag || next.flag }

@[simp] theorem absorb_flag (current next : Span κ τ) : (current.absorb next).flag = (current.flag || next.flag) := rfl

theorem Within.trans {first second third : Span κ τ} (inner : Within first second) (outer : Within second third) :
    Within first third :=
  ⟨inner.key.trans outer.key, outer.start.trans inner.start, inner.stop.trans outer.stop⟩

theorem within_absorb_left (current next : Span κ τ) : Within current (current.absorb next) :=
  ⟨rfl, le_rfl, le_max_left _ _⟩

theorem within_absorb_right {current next : Span κ τ} (same : next.key = current.key) (le : current.start ≤ next.start) :
    Within next (current.absorb next) :=
  ⟨same, le, le_max_right _ _⟩

/-! ## One step -/

theorem Ordered.tail {first : Span κ τ} {rest : List (Span κ τ)} (ordered : Ordered (first :: rest)) : Ordered rest :=
  ⟨ordered.grouped.2, (List.pairwise_cons.mp ordered.starts).2, fun span held => ordered.valid span (.tail _ held)⟩

theorem Ordered.start_le {first span : Span κ τ} {rest : List (Span κ τ)} (ordered : Ordered (first :: rest))
    (held : span ∈ rest) (same : first.key = span.key) : first.start ≤ span.start :=
  (List.pairwise_cons.mp ordered.starts).1 span held same

/-- The first of the remaining spans has the key if any of them does. -/
theorem Ordered.head_key {first next span : Span κ τ} {rest : List (Span κ τ)} (ordered : Ordered (first :: next :: rest))
    (held : span ∈ next :: rest) (same : span.key = first.key) : next.key = first.key := by
  have listed : first.key ∈ (next :: rest).map Span.key := same ▸ List.mem_map_of_mem held
  exact Option.some.inj (ordered.grouped.1 listed)

/-- Joining keeps the order. -/
theorem Ordered.absorb {current next : Span κ τ} {rest : List (Span κ τ)} (ordered : Ordered (current :: next :: rest))
    (same : next.key = current.key) : Ordered (current.absorb next :: rest) := by
  have later := ordered.tail
  refine ⟨?_, List.pairwise_cons.mpr ⟨fun span held => ordered.start_le (.tail _ held), later.tail.starts⟩, ?_⟩
  · have grouped := later.grouped
    rw [List.map_cons, same] at grouped
    exact grouped
  · intro span held
    cases held with
    | head => exact (ordered.valid current List.mem_cons_self).trans (le_max_left _ _)
    | tail _ held => exact later.tail.valid span held

/-! ## Gaps -/

variable [AddCommGroup τ] {gap : τ}

/-- A time in a gap between two spans of the key. -/
def Bridged (gap : τ) (spans : List (Span κ τ)) (key : κ) (time : τ) : Prop :=
  ∃ before ∈ spans, ∃ after ∈ spans, before.key = key ∧ after.key = key ∧ before.stop < time ∧ time < after.start ∧
    after.start < before.stop + gap

/-- Spans of one key with at least the gap between them. -/
def Apart (gap : τ) (a b : Span κ τ) : Prop := a.key = b.key → a.stop + gap ≤ b.start

/-- The next span continues the current one. -/
def Joins (gap : τ) (current next : Span κ τ) : Prop := next.key = current.key ∧ next.start < current.stop + gap

/-- What merging has to make of spans. -/
structure Merged (gap : τ) (spans out : List (Span κ τ)) : Prop where
  apart : out.Pairwise (Apart gap)
  valid : ∀ span ∈ out, span.start ≤ span.stop
  contains : ∀ span ∈ spans, ∃ outer ∈ out, Within span outer ∧ (span.flag = true → outer.flag = true)
  covered : ∀ outer ∈ out, ∀ time, outer.start ≤ time → time ≤ outer.stop →
    Covered spans outer.key time ∨ Bridged gap spans outer.key time
  flagged : ∀ outer ∈ out, outer.flag = true → ∃ span ∈ spans, Within span outer ∧ span.flag = true

/-- A span lies in one result only. -/
theorem Merged.unique [IsOrderedAddMonoid τ] {α : Type} {toSpan : α → Span κ τ} {spans : List (Span κ τ)} {out : List α}
    (merged : Merged gap spans (out.map toSpan)) (positive : 0 < gap) {span : Span κ τ} (valid : span.start ≤ span.stop)
    {first second : α} (held : first ∈ out) (held' : second ∈ out) (inside : Within span (toSpan first))
    (inside' : Within span (toSpan second)) : first = second := by
  have near {a b : Span κ τ} (inA : Within span a) (inB : Within span b) : ¬ Apart gap a b := by
    intro apart
    have bound := apart (inA.key.symm.trans inB.key)
    have order : b.start ≤ a.stop := inB.start.trans (valid.trans inA.stop)
    exact absurd (bound.trans order) (not_le.mpr (lt_add_of_pos_right _ positive))
  have either : out.Pairwise fun a b => Apart gap (toSpan a) (toSpan b) ∨ Apart gap (toSpan b) (toSpan a) :=
    (List.pairwise_map.mp merged.apart).imp .inl
  have : Std.Symm fun a b => Apart gap (toSpan a) (toSpan b) ∨ Apart gap (toSpan b) (toSpan a) := ⟨fun _ _ => Or.symm⟩
  by_contra different
  rcases either.forall held held' different with apart | apart
  · exact near inside inside' apart
  · exact near inside' inside apart

private theorem covered_absorb {current next : Span κ τ} {rest : List (Span κ τ)} {key : κ} {time : τ}
    (joins : Joins gap current next) (covered : Covered (current.absorb next :: rest) key time) :
    Covered (current :: next :: rest) key time ∨ Bridged gap (current :: next :: rest) key time := by
  obtain ⟨span, listed, rfl, start, stop⟩ := covered
  cases listed with
  | tail _ listed => exact .inl ⟨span, .tail _ (.tail _ listed), rfl, start, stop⟩
  | head =>
    by_cases early : time ≤ current.stop
    · exact .inl ⟨current, List.mem_cons_self, rfl, start, early⟩
    by_cases late : next.start ≤ time
    · have within : time ≤ next.stop := (le_max_iff.mp stop).resolve_left early
      exact .inl ⟨next, .tail _ List.mem_cons_self, joins.1, late, within⟩
    · exact .inr ⟨current, List.mem_cons_self, next, .tail _ List.mem_cons_self, rfl, joins.1, not_le.mp early,
        not_le.mp late, joins.2⟩

/-- The end of a joined span is one of the ends, its start the first start. -/
private theorem bridged_absorb {current next : Span κ τ} {rest : List (Span κ τ)} {key : κ} {time : τ}
    (same : next.key = current.key) (bridged : Bridged gap (current.absorb next :: rest) key time) :
    Bridged gap (current :: next :: rest) key time := by
  obtain ⟨before, listed, after, listed', rfl, key', stop, start, near⟩ := bridged
  have starts : ∃ span ∈ current :: next :: rest, span.key = after.key ∧ span.start = after.start := by
    cases listed' with
    | head => exact ⟨current, List.mem_cons_self, rfl, rfl⟩
    | tail _ listed' => exact ⟨after, .tail _ (.tail _ listed'), rfl, rfl⟩
  have stops : ∃ span ∈ current :: next :: rest, span.key = before.key ∧ span.stop = before.stop := by
    cases listed with
    | head =>
      rcases max_choice current.stop next.stop with own | others
      · exact ⟨current, List.mem_cons_self, rfl, own.symm⟩
      · exact ⟨next, .tail _ List.mem_cons_self, same, others.symm⟩
    | tail _ listed => exact ⟨before, .tail _ (.tail _ listed), rfl, rfl⟩
  obtain ⟨left, leftListed, leftKey, leftStop⟩ := stops
  obtain ⟨right, rightListed, rightKey, rightStart⟩ := starts
  exact ⟨left, leftListed, right, rightListed, leftKey, rightKey.trans key', leftStop ▸ stop, rightStart ▸ start,
    leftStop ▸ rightStart ▸ near⟩

/-! ## Runs -/

variable [DecidableEq κ]

instance (current next : Span κ τ) : Decidable (Joins gap current next) := inferInstanceAs (Decidable (_ ∧ _))

def mergeFrom (gap : τ) (current : Span κ τ) : List (Span κ τ) → List (Span κ τ)
  | [] => [current]
  | next :: rest =>
    if Joins gap current next then mergeFrom gap (current.absorb next) rest else current :: mergeFrom gap next rest

def merge (gap : τ) : List (Span κ τ) → List (Span κ τ)
  | [] => []
  | first :: rest => mergeFrom gap first rest

private theorem mergeFrom_cons (current next : Span κ τ) (rest : List (Span κ τ)) :
    mergeFrom gap current (next :: rest) =
    if Joins gap current next then mergeFrom gap (current.absorb next) rest else current :: mergeFrom gap next rest := rfl

/-- Every result starts with a span of its key. -/
theorem mergeFrom_starts {current : Span κ τ} {spans : List (Span κ τ)} {out : Span κ τ}
    (held : out ∈ mergeFrom gap current spans) : ∃ span ∈ current :: spans, span.key = out.key ∧ span.start = out.start := by
  induction spans generalizing current with
  | nil => exact ⟨out, held, rfl, rfl⟩
  | cons next rest ih =>
    rw [mergeFrom_cons] at held
    split at held
    case isTrue joins =>
      obtain ⟨span, listed, key, start⟩ := ih held
      cases listed with
      | head => exact ⟨current, List.mem_cons_self, key, start⟩
      | tail _ listed => exact ⟨span, .tail _ (.tail _ listed), key, start⟩
    case isFalse apart =>
      cases held with
      | head => exact ⟨out, List.mem_cons_self, rfl, rfl⟩
      | tail _ held =>
        obtain ⟨span, listed, found⟩ := ih held
        exact ⟨span, .tail _ listed, found⟩

theorem mergeFrom_valid {current : Span κ τ} {spans : List (Span κ τ)} (ordered : Ordered (current :: spans)) :
    ∀ out ∈ mergeFrom gap current spans, out.start ≤ out.stop := by
  induction spans generalizing current with
  | nil => exact ordered.valid
  | cons next rest ih =>
    rw [mergeFrom_cons]
    split
    case isTrue joins => exact ih (ordered.absorb joins.1)
    case isFalse apart =>
      exact List.forall_mem_cons.mpr ⟨ordered.valid current List.mem_cons_self, ih ordered.tail⟩

/-- Results of one key are apart. -/
theorem mergeFrom_apart {current : Span κ τ} {spans : List (Span κ τ)} (ordered : Ordered (current :: spans)) :
    (mergeFrom gap current spans).Pairwise (Apart gap) := by
  induction spans generalizing current with
  | nil => exact List.pairwise_singleton _ _
  | cons next rest ih =>
    rw [mergeFrom_cons]
    split
    case isTrue joins => exact ih (ordered.absorb joins.1)
    case isFalse apart =>
      refine List.pairwise_cons.mpr ⟨fun out held same => ?_, ih ordered.tail⟩
      obtain ⟨span, listed, key, start⟩ := mergeFrom_starts held
      have nextKey := ordered.head_key listed (key.trans same.symm)
      have far : current.stop + gap ≤ next.start := not_lt.mp fun near => apart ⟨nextKey, near⟩
      rw [← start]
      cases listed with
      | head => exact far
      | tail _ listed => exact far.trans (ordered.tail.start_le listed (nextKey.trans (same.trans key.symm)))

/-- Every span lies in a result, which has its flag. -/
theorem mergeFrom_contains {current : Span κ τ} {spans : List (Span κ τ)} (ordered : Ordered (current :: spans)) :
    ∀ span ∈ current :: spans, ∃ out ∈ mergeFrom gap current spans, Within span out ∧ (span.flag = true → out.flag = true) := by
  induction spans generalizing current with
  | nil => exact fun span held => ⟨span, held, ⟨rfl, le_rfl, le_rfl⟩, id⟩
  | cons next rest ih =>
    rw [mergeFrom_cons]
    split
    case isTrue joins =>
      have found := ih (ordered.absorb joins.1)
      obtain ⟨out, held, inside, flagged⟩ := found (current.absorb next) List.mem_cons_self
      rw [absorb_flag, Bool.or_eq_true] at flagged
      refine List.forall_mem_cons.mpr ⟨?_, List.forall_mem_cons.mpr ⟨?_, fun span listed => found span (.tail _ listed)⟩⟩
      · exact ⟨out, held, (within_absorb_left current next).trans inside, flagged ∘ .inl⟩
      · have le := ordered.start_le List.mem_cons_self joins.1.symm
        exact ⟨out, held, (within_absorb_right joins.1 le).trans inside, flagged ∘ .inr⟩
    case isFalse apart =>
      refine List.forall_mem_cons.mpr ⟨⟨current, List.mem_cons_self, ⟨rfl, le_rfl, le_rfl⟩, id⟩, fun span listed => ?_⟩
      obtain ⟨out, held, found⟩ := ih ordered.tail span listed
      exact ⟨out, .tail _ held, found⟩

/-- A flag comes from a span inside. -/
theorem mergeFrom_flagged {current : Span κ τ} {spans : List (Span κ τ)} (ordered : Ordered (current :: spans)) :
    ∀ out ∈ mergeFrom gap current spans, out.flag = true → ∃ span ∈ current :: spans, Within span out ∧ span.flag = true := by
  induction spans generalizing current with
  | nil => exact fun out held flagged => ⟨out, held, ⟨rfl, le_rfl, le_rfl⟩, flagged⟩
  | cons next rest ih =>
    rw [mergeFrom_cons]
    split
    case isTrue joins =>
      intro out held flagged
      obtain ⟨span, listed, inside, spanFlag⟩ := ih (ordered.absorb joins.1) out held flagged
      cases listed with
      | head =>
        rcases Bool.or_eq_true _ _ ▸ spanFlag with own | others
        · exact ⟨current, List.mem_cons_self, (within_absorb_left current next).trans inside, own⟩
        · have le := ordered.start_le List.mem_cons_self joins.1.symm
          exact ⟨next, .tail _ List.mem_cons_self, (within_absorb_right joins.1 le).trans inside, others⟩
      | tail _ listed => exact ⟨span, .tail _ (.tail _ listed), inside, spanFlag⟩
    case isFalse apart =>
      refine List.forall_mem_cons.mpr ⟨fun flagged => ⟨current, List.mem_cons_self, ⟨rfl, le_rfl, le_rfl⟩, flagged⟩, ?_⟩
      intro out held flagged
      obtain ⟨span, listed, found⟩ := ih ordered.tail out held flagged
      exact ⟨span, .tail _ listed, found⟩

/-- A result covers nothing but its spans and small gaps between them. -/
theorem mergeFrom_covered {current : Span κ τ} {spans : List (Span κ τ)} :
    ∀ out ∈ mergeFrom gap current spans, ∀ time, out.start ≤ time → time ≤ out.stop →
      Covered (current :: spans) out.key time ∨ Bridged gap (current :: spans) out.key time := by
  induction spans generalizing current with
  | nil => exact fun out held time start stop => .inl ⟨out, held, rfl, start, stop⟩
  | cons next rest ih =>
    rw [mergeFrom_cons]
    split
    case isTrue joins =>
      intro out held time start stop
      rcases ih out held time start stop with covered | bridged
      · exact covered_absorb joins covered
      · exact .inr (bridged_absorb joins.1 bridged)
    case isFalse apart =>
      refine List.forall_mem_cons.mpr ⟨fun time start stop => .inl ⟨current, List.mem_cons_self, rfl, start, stop⟩, ?_⟩
      intro out held time start stop
      refine (ih out held time start stop).imp ?_ ?_
      · rintro ⟨span, listed, found⟩
        exact ⟨span, .tail _ listed, found⟩
      · rintro ⟨before, listed, after, listed', found⟩
        exact ⟨before, .tail _ listed, after, .tail _ listed', found⟩

/-- Spans that are apart stay as they are. -/
theorem mergeFrom_of_apart {current : Span κ τ} {spans : List (Span κ τ)} (apart : (current :: spans).Pairwise (Apart gap)) :
    mergeFrom gap current spans = current :: spans := by
  induction spans generalizing current with
  | nil => rfl
  | cons next rest ih =>
    obtain ⟨first, later⟩ := List.pairwise_cons.mp apart
    have far : ¬ Joins gap current next := fun joins =>
      not_lt.mpr (first next List.mem_cons_self joins.1.symm) joins.2
    rw [mergeFrom_cons, if_neg far, ih later]

theorem merge_merged {spans : List (Span κ τ)} (ordered : Ordered spans) : Merged gap spans (merge gap spans) := by
  cases spans with
  | nil => exact ⟨.nil, nofun, nofun, nofun, nofun⟩
  | cons first rest =>
    exact ⟨mergeFrom_apart ordered, mergeFrom_valid ordered, mergeFrom_contains ordered, mergeFrom_covered,
      mergeFrom_flagged ordered⟩

theorem merge_of_apart {spans : List (Span κ τ)} (apart : spans.Pairwise (Apart gap)) : merge gap spans = spans := by
  cases spans with
  | nil => rfl
  | cons first rest => exact mergeFrom_of_apart apart

end Ironsight.SpanMerge
