import Mathlib.Data.List.Dedup
import Mathlib.Data.List.Perm.Basic

/-! Matching lists by a key through a map. A map that is filled in the order of a
list keeps the last entry under each key, so it stands for the whole list exactly
when the keys are distinct. -/
namespace Ironsight.KeyedMatch

variable {α κ : Type*} [DecidableEq κ] {key : α → κ}

/-- The entry under a key of a map filled in the order of the list. -/
def latest (key : α → κ) (entries : List α) (k : κ) : Option α := entries.reverse.find? fun entry => key entry = k

theorem latest_some {entries : List α} {k : κ} {entry : α} (found : latest key entries k = some entry) :
    entry ∈ entries ∧ key entry = k := by
  refine ⟨List.mem_reverse.mp (List.mem_of_find?_eq_some found), ?_⟩
  simpa using List.find?_some found

theorem latest_eq_none {entries : List α} {k : κ} : latest key entries k = none ↔ k ∉ entries.map key := by
  simp [latest]

theorem latest_isSome {entries : List α} {k : κ} : (latest key entries k).isSome ↔ k ∈ entries.map key := by
  rw [← Option.ne_none_iff_isSome, ne_eq, latest_eq_none, not_not]

/-- Under distinct keys every entry is found. -/
theorem latest_of_distinct {entries : List α} {entry : α} (distinct : (entries.map key).Nodup)
    (held : entry ∈ entries) : latest key entries (key entry) = some entry := by
  have keyed : key entry ∈ entries.map key := List.mem_map_of_mem held
  obtain ⟨found, lookup⟩ := Option.isSome_iff_exists.mp (latest_isSome.mpr keyed)
  obtain ⟨member, same⟩ := latest_some lookup
  rw [lookup, List.inj_on_of_nodup_map distinct member held same]

/-- The entries of the map are those of the list exactly when the keys are distinct. -/
theorem entries_perm_iff {entries : List α} {keys : List κ} (covers : keys.Perm (entries.map key).dedup) :
    (keys.filterMap (latest key entries)).Perm entries ↔ (entries.map key).Nodup := by
  constructor
  · intro all
    have each : ∀ k ∈ keys, (latest key entries k).isSome :=
      fun k member => latest_isSome.mpr (List.mem_dedup.mp (covers.mem_iff.mp member))
    have length : (entries.map key).dedup.length = (entries.map key).length := calc
      (entries.map key).dedup.length = keys.length := covers.length_eq.symm
      _ = (keys.filterMap (latest key entries)).length := (List.filterMap_length_eq_length.mpr each).symm
      _ = entries.length := all.length_eq
      _ = (entries.map key).length := (List.length_map key).symm
    rw [← (List.dedup_sublist _).eq_of_length length]
    exact List.nodup_dedup _
  · intro distinct
    rw [distinct.dedup] at covers
    apply (covers.filterMap _).trans
    rw [List.filterMap_map]
    have found : ∀ entry ∈ entries, (latest key entries ∘ key) entry = some entry :=
      fun entry held => latest_of_distinct distinct held
    rw [List.filterMap_congr found, List.filterMap_some]

/-- Looking up other keys and then walking the keys that were not looked up meets
every entry of a map once. -/
theorem lookups_perm {keys others : List κ} {entry : κ → Option α} (distinct : keys.Nodup) (once : others.Nodup)
    (keyed : ∀ k, (entry k).isSome → k ∈ keys) :
    ((keys.filter fun k => k ∉ others).filterMap entry ++ others.filterMap entry).Perm (keys.filterMap entry) := by
  have met : (others.filter fun k => k ∈ keys).Perm (keys.filter fun k => k ∈ others) := by
    apply (List.perm_ext_iff_of_nodup (once.filter _) (distinct.filter _)).mpr
    intro k
    simp only [List.mem_filter, decide_eq_true_eq, and_comm]
  have unmet : others.filterMap entry = (others.filter fun k => k ∈ keys).filterMap entry := by
    rw [List.filterMap_filter]
    apply List.filterMap_congr
    intro k _
    split
    · rfl
    · rename_i absent
      cases found : entry k with
      | none => rfl
      | some _ =>
        have held := keyed k (by rw [found]; rfl)
        exact (absent (decide_eq_true held)).elim
  have halves : ((keys.filter fun k => k ∉ others) ++ keys.filter fun k => k ∈ others).Perm keys := by
    apply List.perm_append_comm.trans
    simpa using List.filter_append_perm (fun k => decide (k ∈ others)) keys
  rw [unmet]
  apply ((met.filterMap entry).append_left _).trans
  rw [← List.filterMap_append]
  exact halves.filterMap entry

end Ironsight.KeyedMatch
