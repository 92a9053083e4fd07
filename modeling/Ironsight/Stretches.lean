import Mathlib.Algebra.BigOperators.Group.List.Basic
import Mathlib.Algebra.Order.Ring.Nat
import Mathlib.Data.List.DropRight

/-! Stretches of a history: maximal runs of consecutive records in which a signal
is active. That every stretch of every prefix of a history fires exactly once
means that a record fires exactly where the signal rises. -/
namespace Ironsight.Stretches

variable {ρ : Type*} {active : ρ → Bool} {fires : ρ → Nat}

/-- A maximal run of active records, with what precedes and follows it. -/
structure Stretch (active : ρ → Bool) (before run after : List ρ) : Prop where
  nonempty : run ≠ []
  allActive : ∀ record ∈ run, active record = true
  starts : ∀ record ∈ before.getLast?, active record = false
  ends : ∀ record ∈ after.head?, active record = false

/-- Every stretch fires exactly once. -/
def OncePerStretch (active : ρ → Bool) (fires : ρ → Nat) (history : List ρ) : Prop :=
  ∀ before run after, history = before ++ run ++ after → Stretch active before run after → (run.map fires).sum = 1

/-- An active record fires once if the one before it was not active, and else not;
`previous` tells about the record before the first. -/
def FiresOnRise (active : ρ → Bool) (fires : ρ → Nat) (previous : Bool) : List ρ → Prop
  | [] => True
  | record :: rest =>
    (active record = true → fires record = if previous then 0 else 1) ∧ FiresOnRise active fires (active record) rest

/-- Whether the signal is active at the end of a history. -/
def activeAtEnd (active : ρ → Bool) (previous : Bool) (history : List ρ) : Bool := (history.getLast?).elim previous active

private theorem quiet_at_end {before : List ρ} (quiet : ∀ record ∈ before.getLast?, active record = false) :
    activeAtEnd active false before = false := by
  cases last : before.getLast? with
  | none => simp [activeAtEnd, last]
  | some record => simpa [activeAtEnd, last] using quiet record last

theorem firesOnRise_append {previous : Bool} {first second : List ρ} :
    FiresOnRise active fires previous (first ++ second) ↔
      FiresOnRise active fires previous first ∧ FiresOnRise active fires (activeAtEnd active previous first) second := by
  induction first generalizing previous with
  | nil => simp [FiresOnRise, activeAtEnd]
  | cons record rest ih =>
    have last : activeAtEnd active previous (record :: rest) = activeAtEnd active (active record) rest := by
      cases rest <;> simp [activeAtEnd, List.getLast?_cons]
    rw [List.cons_append, FiresOnRise, FiresOnRise, ih, last, and_assoc]

private theorem silent_while_active {run : List ρ} (allActive : ∀ record ∈ run, active record = true)
    (rises : FiresOnRise active fires true run) : (run.map fires).sum = 0 := by
  induction run with
  | nil => rfl
  | cons record rest ih =>
    have here := allActive record List.mem_cons_self
    rw [FiresOnRise, here] at rises
    have silent : fires record = 0 := by simpa using rises.1
    rw [List.map_cons, List.sum_cons, silent, ih (fun other member => allActive other (List.mem_cons_of_mem _ member)) rises.2]

/-- A history that fires on the rise fires once in every stretch. -/
theorem FiresOnRise.oncePerStretch {history : List ρ} (rises : FiresOnRise active fires false history) :
    OncePerStretch active fires history := by
  rintro before run after rfl stretch
  obtain ⟨onset, _⟩ := firesOnRise_append.mp rises
  obtain ⟨_, inside⟩ := firesOnRise_append.mp onset
  rw [quiet_at_end stretch.starts] at inside
  cases run with
  | nil => exact absurd rfl stretch.nonempty
  | cons record rest =>
    have here := stretch.allActive record List.mem_cons_self
    rw [FiresOnRise, here] at inside
    have once : fires record = 1 := by simpa using inside.1
    rw [List.map_cons, List.sum_cons, once,
      silent_while_active (fun other member => stretch.allActive other (List.mem_cons_of_mem _ member)) inside.2]

/-- The stretch, if any, that a history ends in. -/
private theorem exists_last_stretch (active : ρ → Bool) (history : List ρ) : ∃ before run, history = before ++ run ∧
    (∀ record ∈ run, active record = true) ∧ ∀ record ∈ before.getLast?, active record = false := by
  refine ⟨history.rdropWhile active, history.rtakeWhile active, List.rdropWhile_append_rtakeWhile.symm,
    fun _ => List.mem_rtakeWhile_imp, fun record last => ?_⟩
  obtain ⟨nonempty, rfl⟩ := List.mem_getLast?_eq_getLast last
  simpa using List.rdropWhile_last_not active history nonempty

/-- When the stretches of all prefixes fire once, the firing is on the rise. -/
theorem firesOnRise_of_prefixes {history : List ρ}
    (all : ∀ earlier, earlier <+: history → OncePerStretch active fires earlier) :
    FiresOnRise active fires false history := by
  induction history using List.reverseRecOn with
  | nil => trivial
  | append_singleton earlier record ih =>
    have past := ih fun shorter within => all shorter (within.trans (List.prefix_append _ _))
    refine firesOnRise_append.mpr ⟨past, fun here => ?_, trivial⟩
    obtain ⟨before, run, rfl, allActive, starts⟩ := exists_last_stretch active earlier
    have now : ((run ++ [record]).map fires).sum = 1 := by
      refine all _ List.prefix_rfl before (run ++ [record]) [] (by simp) ⟨by simp, ?_, starts, nofun⟩
      intro other member
      rcases List.mem_append.mp member with old | new
      · exact allActive other old
      · rwa [List.mem_singleton.mp new]
    rw [List.map_append, List.sum_append, List.map_singleton, List.sum_singleton] at now
    cases run with
    | nil =>
      rw [List.append_nil, quiet_at_end starts]
      simpa using now
    | cons first rest =>
      have earlierSum := all (before ++ first :: rest) (List.prefix_append _ _) before (first :: rest) [] (by simp)
        ⟨by simp, allActive, starts, nofun⟩
      have busy : activeAtEnd active false (before ++ first :: rest) = true := by
        obtain ⟨last, ended⟩ : ∃ last, (first :: rest).getLast? = some last := ⟨_, List.getLast?_eq_some_getLast (by simp)⟩
        rw [activeAtEnd, List.getLast?_append, ended]
        exact allActive last (List.mem_of_getLast? ended)
      rw [busy, if_pos rfl]
      omega

end Ironsight.Stretches
