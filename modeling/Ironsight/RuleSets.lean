import Mathlib.Algebra.Order.Ring.Rat
import Mathlib.Data.List.Perm.Basic
import Ironsight.JsonReader
import Ironsight.OfflineVerify
import Ironsight.Reanalysis

/-! What a rule set means: which detections it drops, by the columns of the row as they are
stored, against what the first rule of a class lets through. -/
namespace Ironsight.RuleSets
open Reanalysis JsonReader OfflineVerify

/-! ## Boxes -/

def digitsValue (digits : List Char) : Nat := digits.foldl (fun value c => value * 10 + (c.toNat - 48)) 0

/-- The power of ten behind the fraction of a number. -/
def exponentValue : List Char → Int
  | [] => 0
  | _ :: digits =>
    if digits.head? = some '-' then -digitsValue digits.tail
    else if digits.head? = some '+' then digitsValue digits.tail
    else digitsValue digits

/-- The value of a number token. -/
def numberValue (token : List Char) : Rat :=
  let unsigned := if token.head? = some '-' then token.tail else token
  let whole := unsigned.takeWhile Char.isDigit
  let rest := unsigned.dropWhile Char.isDigit
  let fraction := if rest.head? = some '.' then rest.tail.takeWhile Char.isDigit else []
  let rest := if rest.head? = some '.' then rest.tail.dropWhile Char.isDigit else rest
  let scale := exponentValue rest - fraction.length
  let size : Rat := digitsValue (whole ++ fraction) * (if 0 ≤ scale then 10 ^ scale.toNat else 1 / 10 ^ (-scale).toNat)
  if token.head? = some '-' then -size else size

/-- From here on a number rounds to an infinite `float32`. -/
def float32Limit : Rat := 2 ^ 128 - 2 ^ 103

/-- A `float32` without its rounding, which `null` leaves as it was. -/
def decodeFloat (old : Rat) : Tree → Option Rat
  | .null => some old
  | .number token => if |numberValue token| < float32Limit then some (numberValue token) else none
  | _ => none

/-- `ParseBBox`; `none` is its error. -/
def parseBBox (raw : List Char) : Option BBox :=
  if raw = [] ∨ raw = ['{', '}'] ∨ raw = "null".toList then some ⟨0, 0, 0, 0⟩
  else match readDocument raw with
    | some .null => some ⟨0, 0, 0, 0⟩
    | some (.object members) => do
      let x1 ← (given "x1" members).foldlM decodeFloat 0
      let y1 ← (given "y1" members).foldlM decodeFloat 0
      let x2 ← (given "x2" members).foldlM decodeFloat 0
      let y2 ← (given "y2" members).foldlM decodeFloat 0
      return ⟨x1, y1, x2, y2⟩
    | _ => none

example : parseBBox "\x7b\"x1\":0.25,\"Y2\":25e-1\x7d".toList = some ⟨1 / 4, 0, 0, 5 / 2⟩ := by decide +kernel

/-! ## Outcomes -/

def rulesFor (rs : RuleSet) (newClass : String) : List ClassRule := rs.rules.filter fun rule => rule.className = newClass

/-- The detections that a rule set asks to drop. -/
def Rejects (rs : RuleSet) (oldClass : String) (confidence : Rat) (raw : List Char) : Prop :=
  rs.Filtered oldClass confidence (parseBBox raw) ∨
    ∃ newClass, rs.remapped oldClass = some newClass ∧ ∃ rule ∈ rulesFor rs newClass, confidence < rule.minConfidence

/-- A rule set decides about a detection by what it lists, in whatever order. -/
structure MeansWhatItLists (rs : RuleSet) (oldClass : String) (confidence : Rat) (raw : List Char) : Prop where
  dropped : applyRuleSet oldClass confidence (parseBBox raw) rs = .dropped ↔ Rejects rs oldClass confidence raw
  renamed : ∀ newClass, ¬ Rejects rs oldClass confidence raw → rs.remapped oldClass = some newClass →
    applyRuleSet oldClass confidence (parseBBox raw) rs = renamed oldClass newClass
  unordered : ∀ rules, rules.Perm rs.rules →
    applyRuleSet oldClass confidence (parseBBox raw) { rs with rules } = applyRuleSet oldClass confidence (parseBBox raw) rs
  monotone : ∀ higher, confidence ≤ higher → applyRuleSet oldClass confidence (parseBBox raw) rs ≠ .dropped →
    applyRuleSet oldClass higher (parseBBox raw) rs ≠ .dropped

/-- No rule for the class shields another; a confidence below a threshold that is not
positive is one that every rule rejects. -/
def RulesAgree (rs : RuleSet) (confidence : Rat) (newClass : String) : Prop :=
  if rs.confidenceThreshold ≤ confidence then
    (∀ rule ∈ rulesFor rs newClass, confidence < rule.minConfidence) ∨
      ∀ rule ∈ rulesFor rs newClass, rule.minConfidence ≤ confidence
  else rulesFor rs newClass = [] ∨ ∃ rule ∈ rulesFor rs newClass, confidence < rule.minConfidence

section
variable {rs : RuleSet} {oldClass newClass : String} {confidence : Rat} {box : Option BBox}

private theorem renamed_ne_dropped : renamed oldClass newClass ≠ .dropped := by
  unfold Reanalysis.renamed
  split <;> simp

private theorem applyRuleSet_first (kept : ¬ rs.Filtered oldClass confidence box) (mapped : rs.remapped oldClass = some newClass)
    {rule : ClassRule} (first : (rulesFor rs newClass).head? = some rule) :
    applyRuleSet oldClass confidence box rs =
      if confidence < max rs.confidenceThreshold rule.minConfidence then .dropped else renamed oldClass newClass := by
  rw [rulesFor, List.head?_filter] at first
  rw [applyRuleSet_kept kept mapped, first]
  simp

private theorem applyRuleSet_unruled (kept : ¬ rs.Filtered oldClass confidence box) (mapped : rs.remapped oldClass = some newClass)
    (unruled : rulesFor rs newClass = []) : applyRuleSet oldClass confidence box rs = renamed oldClass newClass := by
  have first : (rulesFor rs newClass).head? = none := by rw [unruled]; rfl
  rw [rulesFor, List.head?_filter] at first
  rw [applyRuleSet_kept kept mapped, first]
  simp

/-- Any rule for the class can come first. -/
private theorem exists_perm_first {rule : ClassRule} (held : rule ∈ rulesFor rs newClass) :
    ∃ rules, rules.Perm rs.rules ∧ (rulesFor { rs with rules } newClass).head? = some rule := by
  obtain ⟨listed, own⟩ := List.mem_filter.mp held
  refine ⟨rule :: rs.rules.erase rule, (List.perm_cons_erase listed).symm, ?_⟩
  have others : (rule :: rs.rules.erase rule).filter (fun rule => rule.className = newClass) =
      rule :: (rs.rules.erase rule).filter fun rule => rule.className = newClass := List.filter_cons_of_pos own
  rw [rulesFor, others]
  rfl

private theorem rulesFor_perm (newClass : String) {rules : List ClassRule} (perm : rules.Perm rs.rules) :
    (rulesFor { rs with rules } newClass).Perm (rulesFor rs newClass) := perm.filter _

/-- A rule for the class drops a detection that reaches it exactly when the confidence is
below what it asks for. -/
private theorem below_max_iff (enough : rs.confidenceThreshold ≤ confidence) {rule : ClassRule} :
    confidence < max rs.confidenceThreshold rule.minConfidence ↔ confidence < rule.minConfidence := by
  rw [lt_max_iff]
  exact or_iff_right (not_lt.mpr enough)

/-- Where the rules agree, the outcome is read off the list without its order. -/
private theorem applyRuleSet_agreed (kept : ¬ rs.Filtered oldClass confidence box)
    (mapped : rs.remapped oldClass = some newClass) (agree : RulesAgree rs confidence newClass) :
    applyRuleSet oldClass confidence box rs =
      if ∃ rule ∈ rulesFor rs newClass, confidence < rule.minConfidence then .dropped else renamed oldClass newClass := by
  cases own : rulesFor rs newClass with
  | nil =>
    rw [applyRuleSet_unruled kept mapped own]
    simp
  | cons first others =>
    have head : (rulesFor rs newClass).head? = some first := by rw [own, List.head?_cons]
    rw [applyRuleSet_first kept mapped head]
    refine if_congr ?_ rfl rfl
    unfold RulesAgree at agree
    rw [own] at agree
    split at agree
    case isTrue enough =>
      rw [below_max_iff enough]
      rcases agree with above | below
      · exact ⟨fun low => ⟨first, by simp, low⟩, fun _ => above first (by simp)⟩
      · refine ⟨fun low => absurd low (not_lt.mpr (below first (by simp))), ?_⟩
        rintro ⟨rule, held, low⟩
        exact absurd low (not_lt.mpr (below rule held))
    case isFalse low =>
      refine ⟨fun _ => ?_, fun _ => lt_max_of_lt_left (not_le.mp low)⟩
      rcases agree with none | rejecting
      · simp at none
      · exact rejecting

private theorem rulesAgree_perm {rules : List ClassRule} (perm : rules.Perm rs.rules)
    (agree : RulesAgree rs confidence newClass) : RulesAgree { rs with rules } confidence newClass := by
  unfold RulesAgree at agree ⊢
  have own := rulesFor_perm newClass perm
  have empty : rulesFor { rs with rules } newClass = [] ↔ rulesFor rs newClass = [] := by
    constructor <;> intro none <;> rw [none] at own
    · exact own.nil_eq.symm
    · exact own.eq_nil
  simpa only [own.mem_iff, empty] using agree

private theorem not_filtered_of_le {higher : Rat} (le : confidence ≤ higher) (kept : ¬ rs.Filtered oldClass confidence box) :
    ¬ rs.Filtered oldClass higher box := by
  rintro (⟨positive, below⟩ | others)
  · exact kept (.inl ⟨positive, lt_of_le_of_lt le below⟩)
  · exact kept (.inr others)

/-- A higher confidence passes every test that a lower one passes. -/
private theorem kept_of_le {higher : Rat} (le : confidence ≤ higher)
    (kept : applyRuleSet oldClass confidence box rs ≠ .dropped) : applyRuleSet oldClass higher box rs ≠ .dropped := by
  have unfiltered : ¬ rs.Filtered oldClass confidence box := fun filtered => kept (applyRuleSet_filtered filtered)
  have unfiltered' := not_filtered_of_le le unfiltered
  cases mapped : rs.remapped oldClass with
  | none => exact absurd (.inr (.inl mapped)) unfiltered
  | some newClass =>
    cases first : (rulesFor rs newClass).head? with
    | none =>
      rw [applyRuleSet_unruled unfiltered' mapped (List.head?_eq_none_iff.mp first)]
      exact renamed_ne_dropped
    | some rule =>
      rw [applyRuleSet_first unfiltered mapped first] at kept
      rw [applyRuleSet_first unfiltered' mapped first]
      have high : max rs.confidenceThreshold rule.minConfidence ≤ confidence := not_lt.mp fun low => kept (if_pos low)
      rw [if_neg (not_lt.mpr (le_trans high le))]
      exact renamed_ne_dropped

/-- A rule set that drops independently of the order has rules that agree. -/
private theorem rulesAgree_of_unordered (kept : ¬ rs.Filtered oldClass confidence box)
    (mapped : rs.remapped oldClass = some newClass)
    (dropped : applyRuleSet oldClass confidence box rs = .dropped →
      ∃ rule ∈ rulesFor rs newClass, confidence < rule.minConfidence)
    (unordered : ∀ rules, rules.Perm rs.rules →
      applyRuleSet oldClass confidence box { rs with rules } = applyRuleSet oldClass confidence box rs) :
    RulesAgree rs confidence newClass := by
  have each : ∀ rule ∈ rulesFor rs newClass, applyRuleSet oldClass confidence box rs =
      if confidence < max rs.confidenceThreshold rule.minConfidence then .dropped else renamed oldClass newClass := by
    intro rule held
    obtain ⟨rules, perm, first⟩ := exists_perm_first held
    rw [← unordered rules perm]
    have kept' : ¬ ({ rs with rules } : RuleSet).Filtered oldClass confidence box := kept
    exact applyRuleSet_first kept' mapped first
  unfold RulesAgree
  split
  case isTrue enough =>
    by_cases all : ∀ rule ∈ rulesFor rs newClass, rule.minConfidence ≤ confidence
    · exact .inr all
    push Not at all
    obtain ⟨strict, held, low⟩ := all
    refine .inl fun rule own => ?_
    by_contra high
    have same := (each strict held).symm.trans (each rule own)
    rw [if_pos ((below_max_iff enough).mpr low), if_neg (fun below => high ((below_max_iff enough).mp below))] at same
    exact renamed_ne_dropped same.symm
  case isFalse low =>
    cases own : rulesFor rs newClass with
    | nil => exact .inl rfl
    | cons first others =>
      refine .inr (own ▸ dropped ?_)
      rw [each first (by rw [own]; simp), if_pos (lt_max_of_lt_left (not_le.mp low))]

end

/-- Only the first rule of a class counts, so a rule set means what it lists exactly where
the rules that a detection reaches agree about it. -/
theorem meansWhatItLists_iff (rs : RuleSet) (oldClass : String) (confidence : Rat) (raw : List Char) :
    MeansWhatItLists rs oldClass confidence raw ↔
      rs.Filtered oldClass confidence (parseBBox raw) ∨
        ∃ newClass, rs.remapped oldClass = some newClass ∧ RulesAgree rs confidence newClass := by
  by_cases filtered : rs.Filtered oldClass confidence (parseBBox raw)
  · have outcome := applyRuleSet_filtered filtered
    refine iff_of_true ⟨iff_of_true outcome (.inl filtered), fun _ kept => absurd (.inl filtered) kept, ?_, ?_⟩ (.inl filtered)
    · intro rules _
      rw [outcome]
      have filtered' : ({ rs with rules } : RuleSet).Filtered oldClass confidence (parseBBox raw) := filtered
      exact applyRuleSet_filtered filtered'
    · exact fun _ _ kept => absurd outcome kept
  · obtain ⟨newClass, mapped⟩ : ∃ newClass, rs.remapped oldClass = some newClass := by
      cases mapped : rs.remapped oldClass with
      | none => exact absurd (.inr (.inl mapped)) filtered
      | some newClass => exact ⟨newClass, rfl⟩
    have rejects : Rejects rs oldClass confidence raw ↔ ∃ rule ∈ rulesFor rs newClass, confidence < rule.minConfidence := by
      simp [Rejects, filtered, mapped]
    constructor
    · intro means
      exact .inr ⟨newClass, mapped, rulesAgree_of_unordered filtered mapped (fun gone => rejects.mp (means.dropped.mp gone))
        means.unordered⟩
    · rintro (early | ⟨other, mapped', agree⟩)
      · exact absurd early filtered
      obtain rfl : newClass = other := Option.some.inj (mapped.symm.trans mapped')
      have outcome := applyRuleSet_agreed filtered mapped agree
      refine ⟨?_, ?_, ?_, fun _ => kept_of_le⟩
      · rw [outcome, rejects]
        split
        case isTrue some => exact iff_of_true rfl some
        case isFalse none => exact iff_of_false renamed_ne_dropped none
      · intro _ kept mapped'
        obtain rfl := Option.some.inj (mapped.symm.trans mapped')
        rw [outcome, if_neg (fun some => kept (rejects.mpr some))]
      · intro rules perm
        have agree' := rulesAgree_perm perm agree
        have kept' : ¬ ({ rs with rules } : RuleSet).Filtered oldClass confidence (parseBBox raw) := filtered
        rw [outcome, applyRuleSet_agreed kept' mapped agree']
        simp only [(rulesFor_perm newClass perm).mem_iff]

private def shielding : RuleSet := { rules := [⟨"person", 1 / 2⟩, ⟨"person", 9 / 10⟩] }

/-- The stricter of two rules is not reached. -/
theorem shielded_rule : ¬ MeansWhatItLists shielding "person" (7 / 10) [] := by
  intro means
  have dropped := means.dropped.mpr (.inr ⟨"person", rfl, ⟨"person", 9 / 10⟩, by decide +kernel, by decide +kernel⟩)
  have kept : applyRuleSet "person" (7 / 10) (parseBBox []) shielding = .unchanged := by decide +kernel
  rw [kept] at dropped
  simp at dropped

end Ironsight.RuleSets
