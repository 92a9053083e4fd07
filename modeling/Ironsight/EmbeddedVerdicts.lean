import Ironsight.JsonNesting
import Ironsight.VlmWorker

/-! Which answers of the model yield the verdict that they hold: the text is cut at its first
opening and its last closing brace, so that a closing brace in the prose behind the object
spoils it. -/
namespace Ironsight.EmbeddedVerdicts
open JsonReader JsonNesting OfflineVerify VlmWorker ReviewQueue

/-- Prose, one JSON object and more prose, with no opening brace before the object. -/
structure Embeds (description before text after : List Char) (members : List (String × Tree)) : Prop where
  split : description = before ++ (text ++ after)
  first : '\x7b' ∉ before
  opens : text.head? = some '\x7b'
  object : ∃ depth, readValue depth text = some (.object members, [])

/-- The names that a model may give its verdict. -/
def verdicts : List (String × Verdict) :=
  [("confirmed", .confirmed), ("dismissed", .dismissed), ("uncertain", .uncertain)]

/-- The one member of a name is a string. -/
def Holds (field value : String) (members : List (String × Tree)) : Prop :=
  members.filter (fun member => member.1 = field) = [(field, .string value)]

def stringOf : Tree → Option String
  | .string value => some value
  | _ => none

/-- Of the members whose names differ from that of the field in case only, all are strings or
null, and the last string is the one. -/
def Settles (field value : String) (members : List (String × Tree)) : Prop :=
  (∀ tree ∈ given field members, tree = .null ∨ ∃ text, tree = .string text) ∧
    ((given field members).filterMap stringOf).getLast? = some value

/-! ## Fields -/

private theorem decodeString_iff {old value : String} {trees : List Tree} : trees.foldlM decodeString old = some value ↔
    (∀ tree ∈ trees, tree = .null ∨ ∃ text, tree = .string text) ∧ (trees.filterMap stringOf).getLast?.getD old = value := by
  induction trees generalizing old with
  | nil => simp
  | cons tree trees ih =>
    rw [List.foldlM_cons, List.forall_mem_cons]
    cases tree with
    | null => simp [decodeString, ih, stringOf]
    | string text =>
      simp only [decodeString, Option.bind_eq_bind, Option.bind_some, ih, reduceCtorEq, false_or, Tree.string.injEq,
        exists_eq', true_and]
      rw [List.filterMap_cons_some (rfl : stringOf (.string text) = some text), List.getLast?_cons]
      rfl
    | bool | number | array | object => simp [decodeString]

private theorem given_of_holds {field value : String} (own : names field field = true) {members : List (String × Tree)}
    (holds : Holds field value members) : .string value ∈ given field members := by
  have listed : (field, Tree.string value) ∈ members.filter (fun member => member.1 = field) := by
    rw [holds]
    exact List.mem_cons_self
  exact List.mem_map.mpr ⟨_, List.mem_filter.mpr ⟨(List.mem_filter.mp listed).1, own⟩, rfl⟩

/-- Decoding a field that the object holds gives what the object settles. -/
private theorem decode_field {field value found : String} (own : names field field = true) {members : List (String × Tree)}
    (holds : Holds field value members) :
    (given field members).foldlM decodeString "" = some found ↔ Settles field found members := by
  have present : value ∈ (given field members).filterMap stringOf :=
    List.mem_filterMap.mpr ⟨_, given_of_holds own holds, rfl⟩
  rw [decodeString_iff, Settles]
  refine and_congr_right fun _ => ?_
  cases last : ((given field members).filterMap stringOf).getLast? with
  | none => simp [List.getLast?_eq_none_iff.mp last] at present
  | some text => simp

/-! ## The cut -/

private theorem passes {c : Char} {text : List Char} (absent : c ∉ text) : ∀ d ∈ text, decide (d ≠ c) = true := by
  intro d held
  rw [decide_eq_true_eq]
  rintro rfl
  exact absent held

/-- The text is cut at its first opening and its last closing brace. -/
private theorem braced_of {before rest : List Char} (front back : List Char) (absent : '\x7b' ∉ before) (opens : rest.head? = some '\x7b')
    (last : rest = front ++ '\x7d' :: back) (free : '\x7d' ∉ back) :
    braced (before ++ rest) = some (front ++ ['\x7d']) := by
  have start : (before ++ rest).dropWhile (fun c => c ≠ '\x7b') = rest := by
    rw [List.dropWhile_append_of_pos (passes absent)]
    cases rest with
    | nil => cases opens
    | cons c tail =>
      obtain rfl := Option.some.inj opens
      rfl
  have cut : (rest.reverse.dropWhile fun c => c ≠ '\x7d').reverse = front ++ ['\x7d'] := by
    rw [last, List.reverse_append, List.reverse_cons, List.append_assoc, List.singleton_append,
      List.dropWhile_append_of_pos (passes (by simpa using free)),
      List.dropWhile_cons_of_neg (by simp), List.reverse_cons, List.reverse_reverse]
  have some_ : rest ≠ [] := by
    rintro rfl
    cases opens
  unfold braced
  simp only [start, cut, some_, if_false, List.append_eq_nil_iff, List.cons_ne_self, and_false]

private theorem parse_iff {description : String} {candidate : List Char} (cut : braced description.toList = some candidate)
    {name : String} {verdict : Verdict} (named : (name, verdict) ∈ verdicts) (reasoning : String) :
    parseEmbeddedVerdict description = some (verdict, reasoning) ↔ unmarshalVerdict candidate = some (name, reasoning) := by
  simp only [parseEmbeddedVerdict, cut, Option.bind_eq_bind, Option.bind_some]
  cases read : unmarshalVerdict candidate with
  | none => simp
  | some found =>
    obtain ⟨text, reason⟩ := found
    simp only [Option.bind_some]
    simp only [verdicts, List.mem_cons, Prod.mk.injEq, List.not_mem_nil, or_false] at named
    rcases named with ⟨rfl, rfl⟩ | ⟨rfl, rfl⟩ | ⟨rfl, rfl⟩ <;> split_ifs <;> simp_all

/-- The verdict and the reasoning of an object, with text behind it or not. -/
private theorem unmarshalVerdict_iff {depth : Nat} {text extra : List Char} {members : List (String × Tree)}
    (found : readValue depth text = some (.object members, [])) {name reasoning value reason : String}
    (own : Holds "verdict" name members) (reasoned : Holds "reasoning" reason members) :
    unmarshalVerdict (text ++ extra) = some (value, reasoning) ↔ Nests maxNestingDepth (.object members) ∧
      (skipSpace extra).isEmpty = true ∧ Settles "verdict" value members ∧ Settles "reasoning" reasoning members := by
  obtain ⟨within, deep⟩ := readObject_extra found extra
  by_cases nests : Nests maxNestingDepth (.object members)
  · obtain ⟨listed, rfl, read⟩ := within nests
    rw [unmarshalVerdict, read, List.nil_append, whole]
    by_cases blank : (skipSpace extra).isEmpty = true
    · rw [if_pos blank]
      simp only [Option.bind_eq_bind, Option.bind_some, Option.bind_eq_some_iff, Option.pure_def, Option.some_inj,
        Prod.mk.injEq, decode_field (by decide : names "verdict" "verdict" = true) own,
        decode_field (by decide : names "reasoning" "reasoning" = true) reasoned, nests, blank, true_and]
      constructor
      · rintro ⟨_, verdict, _, reasoning, rfl, rfl⟩
        exact ⟨verdict, reasoning⟩
      · rintro ⟨verdict, reasoning⟩
        exact ⟨_, verdict, _, reasoning, rfl, rfl⟩
    · rw [if_neg blank]
      simp [blank]
  · simp [unmarshalVerdict, deep nests, nests]

/-- The verdict is found exactly where no closing brace follows the object, the object does not
nest deeper than the decoder goes, and no member is taken for one of the two fields instead. -/
theorem parseEmbeddedVerdict_iff {description : String} {before text after : List Char} {members : List (String × Tree)}
    (embeds : Embeds description.toList before text after members) {name reasoning : String} {verdict : Verdict}
    (named : (name, verdict) ∈ verdicts) (own : Holds "verdict" name members) (reasoned : Holds "reasoning" reasoning members) :
    parseEmbeddedVerdict description = some (verdict, reasoning) ↔
      '\x7d' ∉ after ∧ Nests maxNestingDepth (.object members) ∧ Settles "verdict" name members ∧
        Settles "reasoning" reasoning members := by
  obtain ⟨split, first, opens, depth, found⟩ := embeds
  obtain ⟨front, rfl⟩ := object_closes found
  have opens' : (front ++ ['\x7d'] ++ after).head? = some '\x7b' := by
    rw [List.head?_append_of_ne_nil _ (by simp)]
    exact opens
  by_cases closed : '\x7d' ∈ after
  · obtain ⟨back, rest, same, free⟩ := List.eq_append_cons_of_mem (List.mem_reverse.mpr closed)
    have after_ : after = rest.reverse ++ '\x7d' :: back.reverse := by
      have := congrArg List.reverse same
      simpa using this
    have cut := braced_of (front ++ ['\x7d'] ++ rest.reverse) back.reverse first opens' (by simp [after_])
      (by simpa using free)
    rw [← split, List.append_assoc] at cut
    rw [parse_iff cut named, unmarshalVerdict_iff found own reasoned]
    have solid : (skipSpace (rest.reverse ++ ['\x7d'])).isEmpty = false := by
      rw [Bool.eq_false_iff, Ne, List.isEmpty_iff, skipSpace, List.dropWhile_eq_nil_iff]
      intro blank
      exact absurd (blank '\x7d' (by simp)) (by decide)
    simp [solid, closed]
  · have cut := braced_of front after first opens' (by simp) closed
    rw [← split] at cut
    rw [parse_iff cut named, ← List.append_nil (front ++ _), unmarshalVerdict_iff found own reasoned]
    simp [closed, skipSpace]

private def prose : List Char := "Sure: ".toList

private def object : List Char := "\x7b\"verdict\":\"confirmed\",\"reasoning\":\"no \x7bhat\x7d\"\x7d".toList

private def objectMembers : List (String × Tree) := [("verdict", .string "confirmed"), ("reasoning", .string "no \x7bhat\x7d")]

private theorem embeds_object (after : List Char) :
    Embeds (String.ofList (prose ++ (object ++ after))).toList prose object after objectMembers where
  split := String.toList_ofList
  first := by rw [show prose = _ from String.toList_ofList]; decide
  opens := by
    rw [show object = _ from String.toList_ofList]
    decide +kernel
  object := ⟨1, by rw [show object = _ from String.toList_ofList]; rfl⟩

/-- A brace is opened behind the object and none is closed. -/
theorem verdict_in_prose : parseEmbeddedVerdict (String.ofList (prose ++ (object ++ " (see \x7b1)".toList))) =
    some (.confirmed, "no \x7bhat\x7d") ↔ '\x7d' ∉ " (see \x7b1)".toList ∧
      Nests maxNestingDepth (.object objectMembers) ∧ Settles "verdict" "confirmed" objectMembers ∧
        Settles "reasoning" "no \x7bhat\x7d" objectMembers :=
  parseEmbeddedVerdict_iff (embeds_object _) (by decide) rfl rfl

/-- A closing brace in the prose behind the object. -/
theorem brace_in_prose : ¬ ∀ (description : String) (before text after : List Char) (members : List (String × Tree))
    (name reasoning : String) (verdict : Verdict), Embeds description.toList before text after members →
    (name, verdict) ∈ verdicts → Holds "verdict" name members → Holds "reasoning" reasoning members →
    parseEmbeddedVerdict description = some (verdict, reasoning) := by
  intro found
  have lost : parseEmbeddedVerdict (String.ofList (prose ++ (object ++ " (see \x7b1\x7d)".toList))) ≠
      some (.confirmed, "no \x7bhat\x7d") := by
    rw [show prose = _ from String.toList_ofList, show object = _ from String.toList_ofList]
    decide +kernel
  exact lost (found _ prose object _ objectMembers "confirmed" _ .confirmed (embeds_object _) (by decide) rfl rfl)

end Ironsight.EmbeddedVerdicts
