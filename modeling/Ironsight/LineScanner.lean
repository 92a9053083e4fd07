import Mathlib.Data.List.TakeWhile

/-! `bufio.Scanner` over lines, and the trimming of a line, on the bytes of a text. A line ends
with a newline and one carriage return before it; the scanner stops with an error at a line
that does not fit into its buffer. -/
namespace Ironsight.LineScanner

def newline : UInt8 := 10

def carriageReturn : UInt8 := 13

/-- The terminated lines of a text, and what follows the last newline. -/
def splitLines : List UInt8 → List (List UInt8) × List UInt8
  | [] => ([], [])
  | byte :: text =>
    if byte = newline then ([] :: (splitLines text).1, (splitLines text).2)
    else match splitLines text with
      | ([], tail) => ([], byte :: tail)
      | (line :: lines, tail) => ((byte :: line) :: lines, tail)

/-- The lines with their carriage returns; the last one need not be terminated. -/
def rawLines (text : List UInt8) : List (List UInt8) :=
  (splitLines text).1 ++ if (splitLines text).2 = [] then [] else [(splitLines text).2]

/-- `dropCR`. -/
def dropCR (line : List UInt8) : List UInt8 :=
  if line.getLast? = some carriageReturn then line.dropLast else line

/-- Whether a scanner with a buffer of `limit` bytes stops with `ErrTooLong`: a line and its
newline, or a line and room to read on, do not fit. -/
def tooLong (limit : Nat) (text : List UInt8) : Bool := (rawLines text).any fun line => limit ≤ line.length

/-- The lines that `Scan` delivers. -/
def scanned (limit : Nat) (text : List UInt8) : List (List UInt8) :=
  ((rawLines text).takeWhile fun line => line.length < limit).map dropCR

/-- Lines with a newline behind each. -/
def terminated (lines : List (List UInt8)) : List UInt8 := lines.flatMap fun line => line ++ [newline]

/-! ## Lines -/

theorem splitLines_join (text : List UInt8) : terminated (splitLines text).1 ++ (splitLines text).2 = text := by
  induction text with
  | nil => rfl
  | cons byte text ih =>
    rw [splitLines]
    by_cases ends : byte = newline
    · rw [if_pos ends, ends]
      exact congrArg (newline :: ·) ih
    · rw [if_neg ends]
      cases parts : splitLines text with
      | mk lines tail =>
        rw [parts] at ih
        cases lines with
        | nil => exact congrArg (byte :: ·) ih
        | cons line lines => exact congrArg (byte :: ·) ih

theorem newline_notMem_splitLines (text : List UInt8) :
    (∀ line ∈ (splitLines text).1, newline ∉ line) ∧ newline ∉ (splitLines text).2 := by
  induction text with
  | nil => exact ⟨List.forall_mem_nil _, List.not_mem_nil⟩
  | cons byte text ih =>
    rw [splitLines]
    by_cases ends : byte = newline
    · rw [if_pos ends]
      exact ⟨List.forall_mem_cons.mpr ⟨List.not_mem_nil, ih.1⟩, ih.2⟩
    · rw [if_neg ends]
      cases parts : splitLines text with
      | mk lines tail =>
        rw [parts] at ih
        have other : newline ≠ byte := fun same => ends same.symm
        cases lines with
        | nil => exact ⟨ih.1, fun held => (List.mem_cons.mp held).elim other ih.2⟩
        | cons line lines =>
          obtain ⟨head, rest⟩ := List.forall_mem_cons.mp ih.1
          exact ⟨List.forall_mem_cons.mpr ⟨fun held => (List.mem_cons.mp held).elim other head, rest⟩, ih.2⟩

theorem newline_notMem_rawLines {text line : List UInt8} (held : line ∈ rawLines text) : newline ∉ line := by
  obtain ⟨lines, tail⟩ := newline_notMem_splitLines text
  rcases List.mem_append.mp held with inside | last
  · exact lines line inside
  · split at last
    · exact absurd last List.not_mem_nil
    · rw [List.mem_singleton.mp last]
      exact tail

/-- What is before a byte that does not occur in it can be told from what follows. -/
theorem separate {byte : UInt8} {line other rest behind : List UInt8} (one : byte ∉ line) (two : byte ∉ other)
    (same : line ++ byte :: rest = other ++ byte :: behind) : line = other ∧ rest = behind := by
  induction line generalizing other with
  | nil =>
    cases other with
    | nil => exact ⟨rfl, (List.cons.inj same).2⟩
    | cons first other => exact absurd ((List.cons.inj same).1 ▸ List.mem_cons_self) two
  | cons first line ih =>
    cases other with
    | nil => exact absurd ((List.cons.inj same).1 ▸ List.mem_cons_self) one
    | cons first' other =>
      obtain ⟨rfl, same'⟩ := List.cons.inj same
      obtain ⟨rfl, rfl⟩ := ih (List.not_mem_of_not_mem_cons one) (List.not_mem_of_not_mem_cons two) same'
      exact ⟨rfl, rfl⟩

/-- Texts made of lines are the same only line by line. -/
theorem terminated_inj {lines others : List (List UInt8)} (plain : ∀ line ∈ lines, newline ∉ line)
    (plain' : ∀ line ∈ others, newline ∉ line) {tail : List UInt8} (open' : newline ∉ tail)
    (same : terminated lines = terminated others ++ tail) : lines = others ∧ tail = [] := by
  induction lines generalizing others with
  | nil =>
    cases others with
    | nil => exact ⟨rfl, same.symm⟩
    | cons other others =>
      have length := congrArg List.length same
      simp [terminated] at length
  | cons line lines ih =>
    obtain ⟨head, rest⟩ := List.forall_mem_cons.mp plain
    cases others with
    | nil =>
      refine absurd ?_ open'
      rw [show tail = terminated (line :: lines) from same.symm]
      simp [terminated]
    | cons other others =>
      obtain ⟨head', rest'⟩ := List.forall_mem_cons.mp plain'
      have split : line ++ newline :: terminated lines = other ++ newline :: (terminated others ++ tail) := by
        simpa [terminated] using same
      obtain ⟨rfl, behind⟩ := separate head head' split
      obtain ⟨rfl, none⟩ := ih rest rest' behind
      exact ⟨rfl, none⟩

/-- A scanner that does not stop delivers every line. -/
theorem scanned_of_not_tooLong {limit : Nat} {text : List UInt8} (fits : tooLong limit text = false) :
    scanned limit text = (rawLines text).map dropCR := by
  have each : ∀ line ∈ rawLines text, decide (line.length < limit) = true := fun line held => by
    have short := List.any_eq_false.mp fits line held
    simpa using short
  rw [scanned, List.takeWhile_eq_self_iff.mpr each]

theorem dropCR_front (line : List UInt8) : dropCR line <+: line := by
  rw [dropCR]
  split
  · exact List.dropLast_prefix line
  · exact List.prefix_rfl

theorem dropCR_eq_self_iff {line : List UInt8} : dropCR line = line ↔ line.getLast? ≠ some carriageReturn := by
  rw [dropCR]
  by_cases ends : line.getLast? = some carriageReturn
  · rw [if_pos ends]
    refine ⟨fun same => absurd ends ?_, fun other => absurd ends other⟩
    have length := congrArg List.length same
    rw [List.length_dropLast] at length
    rw [List.length_eq_zero_iff.mp (by omega : line.length = 0)]
    exact nofun
  · rw [if_neg ends]
    exact ⟨fun _ => ends, fun _ => rfl⟩

/-! ## Trimming -/

/-- The UTF-8 forms of the characters that `unicode.IsSpace` accepts. -/
def spaces : List (List UInt8) :=
  [[9], [10], [11], [12], [13], [32], [0xC2, 0x85], [0xC2, 0xA0], [0xE1, 0x9A, 0x80], [0xE2, 0x80, 0x80], [0xE2, 0x80, 0x81],
    [0xE2, 0x80, 0x82], [0xE2, 0x80, 0x83], [0xE2, 0x80, 0x84], [0xE2, 0x80, 0x85], [0xE2, 0x80, 0x86], [0xE2, 0x80, 0x87],
    [0xE2, 0x80, 0x88], [0xE2, 0x80, 0x89], [0xE2, 0x80, 0x8A], [0xE2, 0x80, 0xA8], [0xE2, 0x80, 0xA9], [0xE2, 0x80, 0xAF],
    [0xE2, 0x81, 0x9F], [0xE3, 0x80, 0x80]]

/-- What is left when words are taken off the front, as often as there is one of them. -/
def strip (words : List (List UInt8)) : (fuel : Nat) → List UInt8 → List UInt8
  | 0, text => text
  | fuel + 1, text =>
    match words.find? fun word => word.isPrefixOf text with
    | none => text
    | some word => strip words fuel (text.drop word.length)

def trimLeft (line : List UInt8) : List UInt8 := strip spaces line.length line

def trimRight (line : List UInt8) : List UInt8 := (strip (spaces.map List.reverse) line.length line.reverse).reverse

/-- `strings.TrimSpace`. -/
def trimSpace (line : List UInt8) : List UInt8 := trimRight (trimLeft line)

/-- What was stripped off is made of the words. -/
theorem strip_parts (words : List (List UInt8)) (fuel : Nat) (text : List UInt8) :
    ∃ gone, text = gone ++ strip words fuel text ∧ ∀ byte ∈ gone, byte ∈ words.flatten := by
  induction fuel generalizing text with
  | zero => exact ⟨[], rfl, List.forall_mem_nil _⟩
  | succ fuel ih =>
    rw [strip]
    split
    · exact ⟨[], rfl, List.forall_mem_nil _⟩
    · rename_i word found
      obtain ⟨gone, parts, made⟩ := ih (text.drop word.length)
      have front : word <+: text := by
        have here := List.find?_some found
        exact List.isPrefixOf_iff_prefix.mp here
      refine ⟨word ++ gone, ?_, fun byte held => ?_⟩
      · rw [List.append_assoc, ← parts]
        exact (List.prefix_iff_eq_append.mp front).symm
      · rcases List.mem_append.mp held with inside | later
        · exact List.mem_flatten_of_mem (List.mem_of_find?_eq_some found) inside
        · exact made byte later

/-- Blanks stand around what is left. -/
theorem trimSpace_parts (line : List UInt8) :
    ∃ lead trail, line = lead ++ trimLeft line ∧ trimLeft line = trimSpace line ++ trail ∧
    (∀ byte ∈ lead, byte ∈ spaces.flatten) ∧ ∀ byte ∈ trail, byte ∈ spaces.flatten := by
  obtain ⟨lead, left, blank⟩ := strip_parts spaces line.length line
  obtain ⟨trail, right, blank'⟩ := strip_parts (spaces.map List.reverse) (trimLeft line).length (trimLeft line).reverse
  refine ⟨lead, trail.reverse, left, ?_, blank, fun byte held => ?_⟩
  · rw [trimSpace, trimRight, ← List.reverse_append, ← right, List.reverse_reverse]
  · obtain ⟨_, word, inside⟩ := List.mem_flatten.mp (blank' byte (List.mem_reverse.mp held))
    obtain ⟨word', member, rfl⟩ := List.mem_map.mp word
    exact List.mem_flatten_of_mem member (List.mem_reverse.mp inside)

theorem trimSpace_within (line : List UInt8) : trimSpace line <:+: line := by
  obtain ⟨lead, trail, left, right, -⟩ := trimSpace_parts line
  exact ⟨lead, trail, by rw [List.append_assoc, ← right, ← left]⟩

example : trimSpace [32, 97, 32, 98, 0xC2, 0xA0, 13] = [97, 32, 98] := by decide

/-! ## Searches -/

/-- The text around the first occurrence of a word, for `strings.Index` and `strings.Contains`. -/
def cut (word : List UInt8) : List UInt8 → Option (List UInt8 × List UInt8)
  | [] => if word = [] then some ([], []) else none
  | byte :: text =>
    if word.isPrefixOf (byte :: text) then some ([], (byte :: text).drop word.length)
    else (cut word text).map fun around => (byte :: around.1, around.2)

theorem cut_parts {word text before behind : List UInt8} (found : cut word text = some (before, behind)) :
    text = before ++ word ++ behind := by
  induction text generalizing before with
  | nil =>
    rw [cut] at found
    split at found
    · rename_i empty
      cases found
      rw [empty]
      rfl
    · cases found
  | cons byte text ih =>
    rw [cut] at found
    split at found
    · rename_i here
      cases found
      rw [List.nil_append]
      exact (List.prefix_iff_eq_append.mp (List.isPrefixOf_iff_prefix.mp here)).symm
    · obtain ⟨⟨before', behind'⟩, rest, same⟩ := Option.map_eq_some_iff.mp found
      cases same
      rw [ih rest]
      rfl

/-- Nothing of a single byte is before its first occurrence. -/
theorem notMem_of_cut {byte : UInt8} {text before behind : List UInt8} (found : cut [byte] text = some (before, behind)) :
    byte ∉ before := by
  induction text generalizing before with
  | nil => cases found
  | cons first text ih =>
    rw [cut] at found
    split at found
    · cases found
      exact List.not_mem_nil
    · rename_i elsewhere
      obtain ⟨⟨before', behind'⟩, rest, same⟩ := Option.map_eq_some_iff.mp found
      cases same
      intro held
      rcases List.mem_cons.mp held with rfl | later
      · exact elsewhere (by simp)
      · exact ih rest later

theorem cut_isSome_iff {word text : List UInt8} : (cut word text).isSome = true ↔ word <:+: text := by
  constructor
  · intro found
    obtain ⟨⟨before, behind⟩, around⟩ := Option.isSome_iff_exists.mp found
    exact ⟨before, behind, (cut_parts around).symm⟩
  · intro inside
    induction text with
    | nil =>
      rw [cut, if_pos (List.infix_nil.mp inside)]
      rfl
    | cons byte text ih =>
      rw [cut]
      split
      · rfl
      · rename_i elsewhere
        rcases List.infix_cons_iff.mp inside with here | later
        · exact absurd (List.isPrefixOf_iff_prefix.mpr here) elsewhere
        · rw [Option.isSome_map]
          exact ih later

/-- Part of a word that shares no byte with a text is not in it. -/
private theorem not_within {word part text : List UInt8} (apart : ∀ byte ∈ word, byte ∉ text) (given : part ≠ [])
    (of : part <:+: word) : ¬ part <:+: text := by
  obtain ⟨byte, rest, rfl⟩ := List.exists_cons_of_ne_nil given
  exact fun within => apart byte (of.subset List.mem_cons_self) (within.subset List.mem_cons_self)

theorem infix_of_append_apart {word before rest : List UInt8} (given : word ≠ []) (apart : ∀ byte ∈ word, byte ∉ before)
    (inside : word <:+: before ++ rest) : word <:+: rest := by
  rcases List.infix_append_iff_ne_nil.mp inside with first | second | ⟨one, two, given', -, parts, first, -⟩
  · exact absurd first (not_within apart given List.infix_rfl)
  · exact second
  · exact absurd first.isInfix (not_within apart given' (parts ▸ (List.prefix_append one two).isInfix))

/-- A word without blanks that is in a line is in what is left of it. -/
theorem infix_trimSpace {word line : List UInt8} (given : word ≠ []) (apart : ∀ byte ∈ word, byte ∉ spaces.flatten)
    (inside : word <:+: line) : word <:+: trimSpace line := by
  obtain ⟨lead, trail, parts, parts', blank, blank'⟩ := trimSpace_parts line
  rw [parts, parts'] at inside
  have left := infix_of_append_apart given (fun byte held there => apart byte held (blank byte there)) inside
  have reversed : word.reverse <:+: trail.reverse ++ (trimSpace line).reverse := by
    rw [← List.reverse_append]
    exact List.reverse_infix.mpr left
  refine List.reverse_infix.mp (infix_of_append_apart (mt List.reverse_eq_nil_iff.mp given) (fun byte held there => ?_) reversed)
  exact apart byte (List.mem_reverse.mp held) (blank' byte (List.mem_reverse.mp there))

end Ironsight.LineScanner
