import Ironsight.CameraCookies
import Ironsight.Insertions
import Ironsight.LeftmostMatches

/-! The links in the pages of a camera. Three patterns find root-relative links one after the
other, and each link is led through the proxy. A replacement is made for the text of a match
alone, which the pattern is tried on again. -/
namespace Ironsight.LinkRewriting
open LiveProxy (Bytes bytes slash)
open CameraCookies (webUI equals)
open LeftmostMatches Insertions
open Uuid (UUID)

def doubleQuote : UInt8 := 34
def singleQuote : UInt8 := 39
def parenthesis : UInt8 := 40
def closing : UInt8 := 41

/-- `rootRelAttrDQRe`, `rootRelAttrSQRe` and `rootRelCSSRe`. -/
inductive Pattern where
  | attrDQ
  | attrSQ
  | css
  deriving DecidableEq

namespace Pattern

/-- The words, without regard to case; `s` stands for `U+017F` as well. -/
def words : Pattern → List Bytes
  | attrDQ | attrSQ => ["src", "ſrc", "href", "action"].map bytes
  | css => [bytes "url"]

def sign : Pattern → UInt8
  | attrDQ | attrSQ => equals
  | css => parenthesis

def isQuote : Pattern → UInt8 → Bool
  | attrDQ, byte => byte = doubleQuote
  | attrSQ, byte => byte = singleQuote
  | css, byte => byte = doubleQuote || byte = singleQuote

/-- The bytes that a path does not have. -/
def stops : Pattern → UInt8 → Bool
  | attrDQ, byte => byte = doubleQuote
  | attrSQ, byte => byte = singleQuote
  | css, byte => byte = doubleQuote || byte = singleQuote || byte = closing

end Pattern

/-- `\s`. -/
def isSpace (byte : UInt8) : Bool := byte = 9 || byte = 10 || byte = 12 || byte = 13 || byte = 32

def isWord (byte : UInt8) : Bool :=
  let n := byte.toNat
  (48 ≤ n && n ≤ 57) || (65 ≤ n && n ≤ 90) || (97 ≤ n && n ≤ 122) || n = 95

/-- `\b`, before the given byte. -/
def boundary (prev : Option UInt8) (first : UInt8) : Bool := prev.any isWord != isWord first

/-- What a pattern has in a text: all up to the path, the path and the quote behind it. -/
structure Match where
  head : Bytes
  path : Bytes
  close : Bytes
  deriving DecidableEq

def Match.text (m : Match) : Bytes := m.head ++ (m.path ++ m.close)

/-- `\s*=\s*` and a quote. -/
def readAssignment (pattern : Pattern) (text : Bytes) : Option Bytes :=
  match text.dropWhile isSpace with
  | [] => none
  | sign :: rest =>
    match rest.dropWhile isSpace with
    | [] => none
    | quote :: rest => if sign = equals ∧ pattern.isQuote quote then some rest else none

/-- `\(\s*` and a quote or none. -/
def readCall (pattern : Pattern) : Bytes → Option Bytes
  | [] => none
  | sign :: rest =>
    let rest := rest.dropWhile isSpace
    if sign = parenthesis then some (if rest.head?.any pattern.isQuote then rest.tail else rest) else none

def readTail (pattern : Pattern) (text : Bytes) : Option Bytes :=
  match pattern with
  | .attrDQ | .attrSQ => readAssignment pattern text
  | .css => readCall pattern text

/-- The text behind all that is before a path. -/
def readHead (pattern : Pattern) (prev : Option UInt8) (text : Bytes) : Option Bytes :=
  match pattern.words.find? fun word => (text.take word.length).map Uuid.lower = word with
  | none => none
  | some word => if text.head?.any (boundary prev) then readTail pattern (text.drop word.length) else none

/-- The match that starts where the text does. -/
def matchAt (pattern : Pattern) (prev : Option UInt8) (text : Bytes) : Option Match :=
  match readHead pattern prev text with
  | none | some [] => none
  | some (mark :: rest) =>
    let run := rest.takeWhile fun byte => !pattern.stops byte
    let after := rest.dropWhile fun byte => !pattern.stops byte
    let head := text.take (text.length - (rest.length + 1))
    if mark ≠ slash then none
    else
      match pattern with
      | .attrDQ | .attrSQ => if after = [] then none else some ⟨head, mark :: run, after.take 1⟩
      | .css => if run = [] then none else some ⟨head, mark :: run, []⟩

/-! ## What a match is -/

def Spaces (text : Bytes) : Prop := ∀ byte ∈ text, isSpace byte = true

def Assignment (pattern : Pattern) (tail : Bytes) : Prop :=
  ∃ before after quote, Spaces before ∧ Spaces after ∧ pattern.isQuote quote = true ∧ tail = before ++ equals :: (after ++ [quote])

def Call (pattern : Pattern) (tail : Bytes) : Prop :=
  ∃ space quote, Spaces space ∧ (quote = [] ∨ ∃ byte, pattern.isQuote byte = true ∧ quote = [byte]) ∧
    tail = parenthesis :: (space ++ quote)

/-- What stands between the word and the path. -/
def Tail (pattern : Pattern) (tail : Bytes) : Prop :=
  match pattern with
  | .attrDQ | .attrSQ => Assignment pattern tail
  | .css => Call pattern tail

def Heads (pattern : Pattern) (prev : Option UInt8) (head : Bytes) : Prop :=
  ∃ word tail, word.map Uuid.lower ∈ pattern.words ∧ word.head?.any (boundary prev) = true ∧ Tail pattern tail ∧ head = word ++ tail

/-- How a path ends. -/
def Ends (pattern : Pattern) (run close rest : Bytes) : Prop :=
  match pattern with
  | .attrDQ | .attrSQ => ∃ quote, pattern.stops quote = true ∧ close = [quote]
  | .css => run ≠ [] ∧ close = [] ∧ ∀ byte ∈ rest.head?, pattern.stops byte = true

private theorem dropWhile_spaces {space rest : Bytes} {byte : UInt8} (spaces : Spaces space) (solid : isSpace byte = false) :
    (space ++ byte :: rest).dropWhile isSpace = byte :: rest := by
  rw [List.dropWhile_append_of_pos spaces]
  exact List.dropWhile_cons_of_neg (by simp [solid])

private theorem spaces_split (text : Bytes) : ∃ space, Spaces space ∧ text = space ++ text.dropWhile isSpace :=
  ⟨text.takeWhile isSpace, fun _ held => List.mem_takeWhile_imp held, List.takeWhile_append_dropWhile.symm⟩

private theorem words_apart (pattern : Pattern) : ∀ first ∈ pattern.words, ∀ second ∈ pattern.words,
    first ≠ [] ∧ (first.head? = second.head? → first = second) := by
  cases pattern <;> decide

private theorem quote_solid {pattern : Pattern} {byte : UInt8} (quote : pattern.isQuote byte = true) :
    isSpace byte = false ∧ byte ≠ slash ∧ byte ≠ equals ∧ byte ≠ parenthesis := by
  cases pattern with
  | attrDQ | attrSQ =>
    rw [Pattern.isQuote, decide_eq_true_iff] at quote
    subst quote
    decide
  | css =>
    rw [Pattern.isQuote, Bool.or_eq_true, decide_eq_true_iff, decide_eq_true_iff] at quote
    rcases quote with rfl | rfl <;> decide

/-- The word that a text starts with. -/
private theorem find_word {pattern : Pattern} {word rest : Bytes} (listed : word.map Uuid.lower ∈ pattern.words) :
    (pattern.words.find? fun other => ((word ++ rest).take other.length).map Uuid.lower = other) = some (word.map Uuid.lower) := by
  cases found : pattern.words.find? fun other => ((word ++ rest).take other.length).map Uuid.lower = other with
  | none =>
    have missed := List.find?_eq_none.mp found _ listed
    rw [List.length_map, List.take_left] at missed
    exact absurd (decide_eq_true rfl) missed
  | some other =>
    have held := List.mem_of_find?_eq_some found
    have starts : ((word ++ rest).take other.length).map Uuid.lower = other := by simpa using List.find?_some found
    obtain ⟨given, apart⟩ := words_apart pattern other held _ listed
    refine congrArg some (apart ?_)
    cases word with
    | nil => exact absurd rfl ((words_apart pattern _ listed _ listed).1)
    | cons first word =>
      cases other with
      | nil => exact absurd rfl given
      | cons head other =>
        rw [List.length_cons, List.cons_append, List.take_succ_cons, List.map_cons] at starts
        rw [List.head?_cons, List.map_cons, List.head?_cons, (List.cons.inj starts).1]

private theorem readAssignment_iff {pattern : Pattern} {text r : Bytes} :
    readAssignment pattern text = some (slash :: r) ↔
    ∃ tail, Assignment pattern tail ∧ text = tail ++ slash :: r := by
  unfold readAssignment
  constructor
  · intro read
    obtain ⟨before, spaces, split⟩ := spaces_split text
    split at read
    · cases read
    · next sign rest first =>
      obtain ⟨after, spaces', split'⟩ := spaces_split rest
      split at read
      · cases read
      · next quote rest' second =>
        split at read
        · next both =>
          obtain ⟨rfl, quote_⟩ := both
          obtain rfl := Option.some.inj read
          refine ⟨_, ⟨before, after, quote, spaces, spaces', quote_, rfl⟩, ?_⟩
          rw [split, first, split', second]
          simp
        · cases read
  · rintro ⟨_, ⟨before, after, quote, spaces, spaces', quote_, rfl⟩, rfl⟩
    rw [List.append_assoc, List.cons_append, dropWhile_spaces spaces (by decide)]
    dsimp only
    rw [List.append_assoc, List.singleton_append, dropWhile_spaces spaces' (quote_solid quote_).1]
    simp [quote_]

private theorem readCall_iff {pattern : Pattern} {text r : Bytes} : readCall pattern text = some (slash :: r) ↔
    ∃ tail, Call pattern tail ∧ text = tail ++ slash :: r := by
  constructor
  · intro read
    cases text with
    | nil => cases read
    | cons sign rest =>
      obtain ⟨space, spaces, split⟩ := spaces_split rest
      rw [readCall] at read
      split at read
      · next sign_ =>
        rw [Option.some_inj] at read
        subst sign_
        split at read
        · next quoted =>
          cases left : rest.dropWhile isSpace with
          | nil =>
            rw [left] at quoted
            cases quoted
          | cons quote rest' =>
            rw [left] at quoted read split
            obtain rfl := read
            refine ⟨_, ⟨space, [quote], spaces, .inr ⟨quote, quoted, rfl⟩, rfl⟩, ?_⟩
            rw [split]
            simp
        · refine ⟨_, ⟨space, [], spaces, .inl rfl, rfl⟩, ?_⟩
          rw [read] at split
          rw [split]
          simp
      · cases read
  · rintro ⟨_, ⟨space, quote, spaces, kind, rfl⟩, rfl⟩
    rw [List.cons_append, readCall, if_pos rfl, List.append_assoc]
    rcases kind with rfl | ⟨byte, quoted, rfl⟩
    · have plain : pattern.isQuote slash = false := by cases pattern <;> decide
      rw [List.nil_append, dropWhile_spaces spaces (by decide)]
      simp [plain]
    · rw [List.singleton_append, dropWhile_spaces spaces (quote_solid quoted).1]
      simp [quoted]

private theorem readHead_iff {pattern : Pattern} {prev : Option UInt8} {text r : Bytes} :
    readHead pattern prev text = some (slash :: r) ↔ ∃ head, Heads pattern prev head ∧ text = head ++ slash :: r := by
  have tails {text : Bytes} : readTail pattern text = some (slash :: r) ↔ ∃ tail, Tail pattern tail ∧ text = tail ++ slash :: r := by
    cases pattern with
    | attrDQ | attrSQ => exact readAssignment_iff
    | css => exact readCall_iff
  unfold readHead
  constructor
  · intro read
    split at read
    · cases read
    · next word found =>
      split at read
      · next bounded =>
        obtain ⟨tail, spelled, split⟩ := tails.mp read
        have held := List.mem_of_find?_eq_some found
        have starts : (text.take word.length).map Uuid.lower = word := by simpa using List.find?_some found
        have given := (words_apart pattern word held word held).1
        refine ⟨text.take word.length ++ tail, ⟨_, tail, by rw [starts]; exact held, ?_, spelled, rfl⟩, ?_⟩
        · rw [List.head?_take, if_neg (by simpa using given)]
          exact bounded
        · rw [List.append_assoc, ← split, List.take_append_drop]
      · cases read
  · rintro ⟨_, ⟨word, tail, listed, bounded, spelled, rfl⟩, rfl⟩
    rw [List.append_assoc, find_word listed]
    dsimp only
    rw [List.length_map, List.drop_left, if_pos]
    · exact tails.mpr ⟨tail, spelled, rfl⟩
    · cases word with
      | nil => cases bounded
      | cons first word => exact bounded

theorem takeWhile_run {p : UInt8 → Bool} {run rest : Bytes} (inside : ∀ byte ∈ run, p byte = true)
    (ends : ∀ byte ∈ rest.head?, p byte = false) : (run ++ rest).takeWhile p = run ∧ (run ++ rest).dropWhile p = rest := by
  rw [List.takeWhile_append_of_pos inside, List.dropWhile_append_of_pos inside]
  cases rest with
  | nil => simp
  | cons byte rest =>
    have stop := ends byte rfl
    rw [List.takeWhile_cons_of_neg (by simp [stop]), List.dropWhile_cons_of_neg (by simp [stop]), List.append_nil]
    exact ⟨rfl, rfl⟩

/-- A match, by its parts and what is behind it. -/
def Parts (pattern : Pattern) (prev : Option UInt8) (m : Match) (run rest : Bytes) : Prop :=
  Heads pattern prev m.head ∧ m.path = slash :: run ∧ (∀ byte ∈ run, pattern.stops byte = false) ∧ Ends pattern run m.close rest

/-- A path goes up to the first byte that ends it. -/
theorem exists_run (pattern : Pattern) (rest : Bytes) : ∃ run after, rest = run ++ after ∧
    (∀ byte ∈ run, pattern.stops byte = false) ∧ ∀ byte ∈ after.head?, pattern.stops byte = true := by
  refine ⟨rest.takeWhile fun byte => !pattern.stops byte, rest.dropWhile fun byte => !pattern.stops byte,
    List.takeWhile_append_dropWhile.symm, fun byte held => ?_, fun byte first => ?_⟩
  · simpa using List.mem_takeWhile_imp held
  · have last := List.head?_dropWhile_not (fun byte => !pattern.stops byte) rest
    rw [first] at last
    simpa using last

/-- What is made of a head and a run, which may have no end that the pattern takes. -/
private def ended (pattern : Pattern) (head run after : Bytes) : Option Match :=
  match pattern with
  | .attrDQ | .attrSQ => if after = [] then none else some ⟨head, slash :: run, after.take 1⟩
  | .css => if run = [] then none else some ⟨head, slash :: run, []⟩

private theorem matchAt_run {pattern : Pattern} {prev : Option UInt8} {head run after : Bytes} (heads : Heads pattern prev head)
    (inside : ∀ byte ∈ run, pattern.stops byte = false) (stop : ∀ byte ∈ after.head?, pattern.stops byte = true) :
    matchAt pattern prev (head ++ slash :: (run ++ after)) = ended pattern head run after := by
  have read : readHead pattern prev (head ++ slash :: (run ++ after)) = some (slash :: (run ++ after)) :=
    readHead_iff.mpr ⟨head, heads, rfl⟩
  have front : (head ++ slash :: (run ++ after)).take ((head ++ slash :: (run ++ after)).length - ((run ++ after).length + 1)) =
      head := by
    rw [List.length_append, List.length_cons, Nat.add_sub_cancel, List.take_left]
  obtain ⟨take, drop⟩ := takeWhile_run (p := fun byte => !pattern.stops byte) (fun byte held => by simp [inside byte held])
    (fun byte first => by simp [stop byte first])
  rw [matchAt, read]
  dsimp only
  rw [take, drop, front, if_neg (not_not.mpr rfl)]
  rfl

private theorem parts_of_matchAt {pattern : Pattern} {prev : Option UInt8} {text : Bytes} {m : Match}
    (found : matchAt pattern prev text = some m) : ∃ run rest, Parts pattern prev m run rest ∧ text = m.text ++ rest := by
  obtain ⟨head, rest, heads, rfl⟩ : ∃ head rest, Heads pattern prev head ∧ text = head ++ slash :: rest := by
    unfold matchAt at found
    split at found
    · cases found
    · cases found
    · next mark rest read =>
      split at found
      · cases found
      · next slash_ =>
        obtain rfl : mark = slash := not_not.mp slash_
        obtain ⟨head, heads, whole⟩ := readHead_iff.mp read
        exact ⟨head, rest, heads, whole⟩
  obtain ⟨run, after, rfl, inside, stop⟩ := exists_run pattern rest
  rw [matchAt_run heads inside stop] at found
  cases pattern with
  | attrDQ | attrSQ =>
    cases after with
    | nil => cases found
    | cons quote after =>
      obtain rfl := Option.some.inj found
      exact ⟨run, after, ⟨heads, rfl, inside, quote, stop quote rfl, rfl⟩, by simp [Match.text]⟩
  | css =>
    unfold ended at found
    dsimp only at found
    split at found
    · cases found
    · next given =>
      obtain rfl := Option.some.inj found
      exact ⟨run, after, ⟨heads, rfl, inside, given, rfl, stop⟩, by simp [Match.text]⟩

private theorem matchAt_of_parts {pattern : Pattern} {prev : Option UInt8} {m : Match} {run rest : Bytes}
    (parts : Parts pattern prev m run rest) : matchAt pattern prev (m.text ++ rest) = some m := by
  obtain ⟨heads, path, inside, ends⟩ := parts
  obtain ⟨head, _, close⟩ := m
  obtain rfl := path
  have whole : Match.text ⟨head, slash :: run, close⟩ ++ rest = head ++ slash :: (run ++ (close ++ rest)) := by simp [Match.text]
  rw [whole]
  cases pattern with
  | attrDQ | attrSQ =>
    obtain ⟨quote, stops, rfl⟩ := ends
    have stop : ∀ byte ∈ ([quote] ++ rest).head?, _ = true := fun byte first => Option.some.inj first ▸ stops
    exact (matchAt_run heads inside stop).trans rfl
  | css =>
    obtain ⟨given, rfl, stops⟩ := ends
    exact (matchAt_run heads inside stops).trans (if_neg given)

theorem matchAt_iff {pattern : Pattern} {prev : Option UInt8} {text : Bytes} {m : Match} :
    matchAt pattern prev text = some m ↔ ∃ run rest, Parts pattern prev m run rest ∧ text = m.text ++ rest := by
  constructor
  · exact parts_of_matchAt
  · rintro ⟨run, rest, parts, rfl⟩
    exact matchAt_of_parts parts

/-! ## The rewriting -/

theorem Match.text_ne_nil {pattern : Pattern} {prev : Option UInt8} {m : Match} {run rest : Bytes}
    (parts : Parts pattern prev m run rest) : m.text ≠ [] := by
  rw [Match.text, parts.2.1]
  simp

def matcher (pattern : Pattern) : Matcher UInt8 Match where
  matchAt := matchAt pattern
  text := Match.text
  front found := by
    obtain ⟨_, rest, _, rfl⟩ := matchAt_iff.mp found
    exact List.prefix_append _ rest
  given found := by
    obtain ⟨_, _, parts, _⟩ := matchAt_iff.mp found
    exact Match.text_ne_nil parts

/-- The paths that stay as they are. -/
def isLeft (cameraID : UUID) (path : Bytes) : Bool := (bytes "//").isPrefixOf path || (webUI cameraID).isPrefixOf path

/-- The function that `fix` passes to `ReplaceAllFunc`. -/
def fixMatch (cameraID : UUID) (pattern : Pattern) (m : Bytes) : Bytes :=
  match (matcher pattern).find none m with
  | none => m
  | some (gap, found) =>
    if isLeft cameraID found.path then m
    else m.take (gap.length + found.head.length) ++ webUI cameraID ++ m.drop (gap.length + found.head.length)

def fix (cameraID : UUID) (pattern : Pattern) (body : Bytes) : Bytes :=
  (matcher pattern).replaceAll (fun m => fixMatch cameraID pattern m.text) 0 none body

def rewriteRootRelativeURLs (body : Bytes) (cameraID : UUID) : Bytes :=
  fix cameraID .css (fix cameraID .attrSQ (fix cameraID .attrDQ body))

/-- The matches of a pattern in a page. -/
def found (pattern : Pattern) (body : Bytes) : List Match := (matcher pattern).search 0 none body

end Ironsight.LinkRewriting
