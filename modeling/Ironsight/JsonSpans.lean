import Mathlib.Algebra.Order.Ring.Nat
import Ironsight.JsonNesting

/-! Which stretches of a text the reader takes for the keys and the values of a document. A
string takes at least as many characters as its shortest spelling. -/
namespace Ironsight.JsonSpans
open JsonReader JsonReaderProofs JsonNesting

variable {α : Type}

/-! ## Strings -/

/-- What stands between the quotes of a string, escape by escape. -/
inductive Body : List Char → List Char → Prop
  | nil : Body [] []
  | plain {c : Char} {chars body : List Char} : c ≠ '\\' → c ≠ '"' → 32 ≤ c.toNat → Body chars body →
      Body (c :: chars) (c :: body)
  | escape {c letter : Char} {code chars body : List Char} : code = [] ∨ letter = 'u' ∧ '"' ∉ code → Body chars body →
      Body (c :: chars) ('\\' :: letter :: code ++ body)

private theorem readUnit_code {text rest : List Char} {n : Nat} (read : readUnit text = some (n, rest)) :
    ∃ code, '"' ∉ code ∧ text = code ++ rest := by
  match text with
  | [] | [_] | [_, _] | [_, _, _] => cases read
  | a :: b :: c :: d :: tail =>
    simp only [readUnit, Option.bind_eq_bind, Option.bind_eq_some_iff, Option.pure_def, Option.some_inj, Prod.mk.injEq] at read
    obtain ⟨_, first, _, second, _, third, _, fourth, _, rfl⟩ := read
    have digit {e : Char} {value : Nat} (found : hexValue e = some value) : '"' ≠ e := by
      rintro rfl
      have none_ : hexValue '"' = none := by decide
      cases none_.symm.trans found
    refine ⟨[a, b, c, d], ?_, rfl⟩
    simp [digit first, digit second, digit third, digit fourth]

private theorem readLow_code {high : Nat} {text rest : List Char} {c : Char} (read : readLow high text = some (c, rest)) :
    ∃ code, '"' ∉ code ∧ text = code ++ rest := by
  unfold readLow at read
  split at read
  case h_2 => cases read
  case h_1 =>
    simp only [Option.bind_eq_bind, Option.bind_eq_some_iff] at read
    obtain ⟨⟨low, left⟩, found, paired⟩ := read
    split at paired
    case isFalse => cases paired
    case isTrue =>
      obtain ⟨rfl, rfl⟩ := Prod.mk.inj (Option.some.inj paired)
      obtain ⟨code, unquoted, rfl⟩ := readUnit_code found
      exact ⟨'\\' :: 'u' :: code, by simp [unquoted], rfl⟩

/-- One more character of a body. -/
private theorem readChar_body {text rest body chars : List Char} {c : Char} (read : readChar text = some (c, rest))
    (quote : text.head? ≠ some '"') (later : Body chars body) : ∃ front, text = front ++ rest ∧ Body (c :: chars) (front ++ body) := by
  rcases readChar_cases read with ⟨rfl, other, printed⟩ | ⟨letter, rfl, _, _⟩ | ⟨tail, rfl, code⟩
  · exact ⟨[c], rfl, .plain other (by simpa using quote) (Nat.not_lt.mp printed) later⟩
  · exact ⟨['\\', letter], rfl, .escape (.inl rfl) later⟩
  · obtain ⟨unit, left, found, kind⟩ := readUnicode_cases code
    obtain ⟨digits, unquoted, rfl⟩ := readUnit_code found
    rcases kind with ⟨_, _, rfl⟩ | ⟨_, low | ⟨_, _, rfl⟩⟩
    · exact ⟨'\\' :: 'u' :: digits, rfl, .escape (.inr ⟨rfl, unquoted⟩) later⟩
    · obtain ⟨half, unquoted', rfl⟩ := readLow_code low
      exact ⟨'\\' :: 'u' :: (digits ++ half), by simp, .escape (.inr ⟨rfl, by simp [unquoted, unquoted']⟩) later⟩
    · exact ⟨'\\' :: 'u' :: digits, rfl, .escape (.inr ⟨rfl, unquoted⟩) later⟩

private theorem readChars_body {fuel : Nat} {text rest chars : List Char} (read : readChars fuel text = some (chars, rest)) :
    ∃ body, Body chars body ∧ text = body ++ '"' :: rest := by
  induction fuel generalizing text rest chars with
  | zero => cases read
  | succ fuel ih =>
    rw [readChars] at read
    split at read
    case isTrue quote =>
      obtain ⟨rfl, rfl⟩ := Prod.mk.inj (Option.some.inj read)
      exact ⟨[], .nil, (List.cons_head?_tail quote).symm⟩
    case isFalse quote =>
      simp only [Option.bind_eq_bind, Option.bind_eq_some_iff] at read
      obtain ⟨⟨c, rest₁⟩, one, ⟨cs, rest₂⟩, more, done⟩ := read
      obtain ⟨rfl, rfl⟩ := Prod.mk.inj (Option.some.inj done)
      obtain ⟨body, later, rfl⟩ := ih more
      obtain ⟨front, rfl, whole⟩ := readChar_body one quote later
      exact ⟨front ++ body, whole, by simp⟩

/-- The stretch of a string with its quotes. -/
def Literal (value : String) (text : List Char) : Prop := ∃ body, Body value.toList body ∧ text = '"' :: (body ++ ['"'])

private theorem readQuoted_literal {text rest : List Char} {value : String} (read : readQuoted text = some (value, rest)) :
    ∃ literal, Literal value literal ∧ text = literal ++ rest := by
  unfold readQuoted at read
  split at read
  case h_2 => cases read
  case h_1 =>
    obtain ⟨⟨chars, rest'⟩, found, same⟩ := Option.map_eq_some_iff.mp read
    obtain ⟨rfl, rfl⟩ := Prod.mk.inj same
    obtain ⟨body, spelled, rfl⟩ := readChars_body found
    exact ⟨'"' :: (body ++ ['"']), ⟨body, by simpa using spelled, rfl⟩, by simp⟩

/-- The characters that the shortest spelling of a character has. -/
def width (c : Char) : Nat := if c = '"' ∨ c = '\\' ∨ c.toNat < 32 then 2 else 1

def widths (chars : List Char) : Nat := (chars.map width).sum

theorem Body.widths_le {chars body : List Char} (spelled : Body chars body) : widths chars ≤ body.length := by
  induction spelled with
  | nil => exact Nat.le_refl 0
  | @plain c chars body other unquoted printed _ ih =>
    have one : width c = 1 := by simp [width, other, unquoted, Nat.not_lt.mpr printed]
    rw [widths, List.map_cons, List.sum_cons, one, List.length_cons, ← widths]
    omega
  | @escape c letter code chars body _ _ ih =>
    have two : width c ≤ 2 := by
      unfold width
      split <;> omega
    simp only [widths, List.map_cons, List.sum_cons, List.cons_append, List.length_cons, List.length_append]
    rw [← widths]
    omega

theorem Body.eq_of_plain {chars body : List Char} (spelled : Body chars body) (plain : '\\' ∉ body) : chars = body := by
  induction spelled with
  | nil => rfl
  | plain _ _ _ _ ih => rw [ih fun held => plain (List.mem_cons_of_mem _ held)]
  | escape => exact absurd (by simp) plain

/-- A quote in a body is an escaped one. -/
private theorem Body.escaped {chars body front back : List Char} (spelled : Body chars body)
    (split : body = front ++ '"' :: back) : ∃ before, front = before ++ ['\\'] := by
  induction spelled generalizing front with
  | nil => exact absurd split.symm (by simp)
  | @plain c chars body _ unquoted _ _ ih =>
    cases front with
    | nil => exact absurd (List.cons.inj split).1 unquoted
    | cons first front =>
      obtain ⟨before, rfl⟩ := ih (List.cons.inj split).2
      exact ⟨first :: before, rfl⟩
  | @escape c letter code chars body kind _ ih =>
    match front with
    | [] => exact absurd (List.cons.inj split).1 (by decide)
    | [first] => exact ⟨[], by rw [(List.cons.inj split).1]; rfl⟩
    | first :: second :: front =>
      obtain ⟨rfl, tail⟩ := List.cons.inj split
      rcases List.append_eq_append_iff.mp (List.cons.inj tail).2 with ⟨later, rfl, inside⟩ | ⟨later, cut, inside⟩
      · obtain ⟨before, rfl⟩ := ih inside
        exact ⟨'\\' :: second :: code ++ before, by simp⟩
      · cases later with
        | nil =>
          have first : body = [] ++ '"' :: back := inside.symm
          obtain ⟨before, none_⟩ := ih first
          exact absurd none_ (by simp)
        | cons quote later =>
          obtain ⟨rfl, _⟩ := List.cons.inj inside
          have held : '"' ∈ code := by simp [cut]
          rcases kind with rfl | ⟨_, unquoted⟩
          · cases held
          · exact absurd held unquoted

/-- A body without quotes that follows a quote is the last one of a text, whichever way the text
is cut. -/
theorem Body.last_eq {chars body plain front before tail : List Char} {c : Char} (spelled : Body chars body)
    (unquoted : '"' ∉ plain) (unescaped : c ≠ '\\')
    (whole : front ++ '"' :: (body ++ tail) = before ++ c :: '"' :: (plain ++ tail)) : body = plain ∧ front = before ++ [c] := by
  have cut : front ++ '"' :: body = (before ++ [c]) ++ '"' :: plain := by
    have longer : (front ++ '"' :: body) ++ tail = ((before ++ [c]) ++ '"' :: plain) ++ tail := by simpa using whole
    exact List.append_cancel_right longer
  rcases List.append_eq_append_iff.mp cut with ⟨later, longer, inside⟩ | ⟨later, longer, inside⟩
  · cases later with
    | nil => exact ⟨(List.cons.inj inside).2, by simpa using longer.symm⟩
    | cons quote later =>
      obtain ⟨earlier, rfl⟩ := spelled.escaped (List.cons.inj inside).2
      have same := congrArg List.getLast? longer
      simp only [List.getLast?_append, List.getLast?_cons] at same
      exact absurd (by simpa using same) unescaped
  · cases later with
    | nil => exact ⟨(List.cons.inj inside).2.symm, by simpa using longer⟩
    | cons quote later => exact absurd (by simp [(List.cons.inj inside).2]) unquoted

/-! ## Values and members -/

/-- What the stretch of a value tells: of a string its body, of any other value that it does not
end with a quote. -/
def Spelled (tree : Tree) (text : List Char) : Prop :=
  match tree with
  | .string value => Literal value text
  | _ => ∃ front last, text = front ++ [last] ∧ last ≠ '"'

def SpelledMember (member : String × List Char × Tree) (text : List Char) : Prop :=
  ∃ key before after raw, Literal member.1 key ∧ Spaces before ∧ Spaces after ∧ Spelled member.2.2 raw ∧
    text = key ++ (before ++ ':' :: (after ++ raw))

/-- What a reader takes is whitespace and a stretch of the kind. -/
def Eats (read : List Char → Option (α × List Char)) (Names : α → List Char → Prop) : Prop :=
  ∀ text value rest, read text = some (value, rest) → ∃ before eaten, Spaces before ∧ Names value eaten ∧
    text = before ++ (eaten ++ rest)

private theorem skipSpace_spaces (text : List Char) : ∃ before, Spaces before ∧ text = before ++ skipSpace text :=
  ⟨text.takeWhile isSpace, fun _ held => List.mem_takeWhile_imp held, List.takeWhile_append_dropWhile.symm⟩

variable {read : List Char → Option (α × List Char)} {Names : α → List Char → Prop} {close : Char}

private theorem separated_eats (eats : Eats read Names) {fuel : Nat} {text rest : List Char} {items : List α}
    (found : separated read close fuel text = some (items, rest)) :
    ∃ eaten, Separated Names close items eaten ∧ text = eaten ++ rest := by
  induction fuel generalizing text rest items with
  | zero => cases found
  | succ fuel ih =>
    obtain ⟨_, item, rest₁, c, rest₂, same, one, start, kind⟩ := separated_cases found
    obtain rfl := Nat.succ.inj same
    obtain ⟨before, eaten, spaces, named, rfl⟩ := eats _ _ _ one
    obtain ⟨after, spaces', split⟩ := skipSpace_spaces rest₁
    rw [start] at split
    subst split
    rcases kind with ⟨rfl, rfl, rfl⟩ | ⟨_, rfl, items', later, rfl⟩
    · exact ⟨_, .last spaces named spaces', by simp⟩
    · obtain ⟨more, listed, rfl⟩ := ih later
      cases items' with
      | nil => cases listed
      | cons next items' => exact ⟨_, .more spaces named spaces' listed, by simp⟩

private theorem bracketed_eats (eats : Eats read Names) {text rest : List Char} {items : List α}
    (found : bracketed read close text = some (items, rest)) : ∃ eaten, Bracketed Names close items eaten ∧ text = eaten ++ rest := by
  unfold bracketed at found
  split at found
  case isTrue closes =>
    obtain ⟨rfl, rfl⟩ := Prod.mk.inj (Option.some.inj found)
    obtain ⟨before, spaces, split⟩ := skipSpace_spaces text
    refine ⟨before ++ [close], .inl ⟨rfl, before, spaces, rfl⟩, ?_⟩
    rw [List.append_assoc, List.singleton_append, List.cons_head?_tail closes]
    exact split
  case isFalse =>
    obtain ⟨eaten, listed, split⟩ := separated_eats eats found
    exact ⟨eaten, .inr listed, split⟩

private theorem spelled_word {word : List Char × Tree} (listed : word ∈ words) : Spelled word.2 word.1 := by
  simp only [words, List.mem_cons, List.not_mem_nil, or_false] at listed
  rcases listed with rfl | rfl | rfl
  · exact ⟨"nul".toList, 'l', rfl, by decide⟩
  · exact ⟨"tru".toList, 'e', rfl, by decide⟩
  · exact ⟨"fals".toList, 'e', rfl, by decide⟩

private theorem spelled_number {text : List Char} (number : isNumber (text.takeWhile isNumberChar) = true) :
    Spelled (.number (text.takeWhile isNumberChar)) (text.takeWhile isNumberChar) := by
  rcases List.eq_nil_or_concat' (text.takeWhile isNumberChar) with none_ | ⟨front, last, split⟩
  · rw [none_] at number
    exact absurd number (by decide)
  · refine ⟨front, last, split, ?_⟩
    rintro rfl
    have held : isNumberChar '"' = true := List.mem_takeWhile_imp (l := text) (by simp [split])
    exact absurd held (by decide)

private theorem readScalar_spelled {text rest : List Char} {tree : Tree} (found : readScalar text = some (tree, rest)) :
    ∃ raw, Spelled tree raw ∧ text = raw ++ rest := by
  rcases readScalar_cases found with ⟨_, value, quoted, rfl⟩ | ⟨word, listed, rfl, rfl⟩ | ⟨number, rfl, rfl⟩
  · exact readQuoted_literal quoted
  · exact ⟨word.1, spelled_word listed, rfl⟩
  · exact ⟨_, spelled_number number, List.takeWhile_append_dropWhile.symm⟩

/-- A value in brackets ends with its bracket. -/
private theorem closed_span (start : Char) {inner rest : List Char} (closes : close :: rest <:+ inner) :
    ∃ front, start :: inner = (start :: front ++ [close]) ++ rest := by
  obtain ⟨front, rfl⟩ := closes
  exact ⟨front, by simp⟩

theorem readValue_eats (depth : Nat) : Eats (readValue depth) Spelled := by
  intro text tree rest found
  obtain ⟨before, spaces, split⟩ := skipSpace_spaces text
  refine ⟨before, ?_⟩
  rcases readValue_cases found with scalar | ⟨below, inner, _, ⟨start, items, listed, rfl⟩ | ⟨start, members, listed, rfl⟩⟩
  · obtain ⟨raw, spelled, whole⟩ := readScalar_spelled scalar
    exact ⟨raw, spaces, spelled, whole ▸ split⟩
  · obtain ⟨front, whole⟩ := closed_span '[' (bracketed_closes (takes_readValue below) listed)
    exact ⟨_, spaces, ⟨'[' :: front, ']', rfl, by decide⟩, by rw [← whole, ← start]; exact split⟩
  · obtain ⟨front, whole⟩ := closed_span '\x7b' (bracketed_closes (takes_readMember (takes_readValue below)) listed)
    exact ⟨_, spaces, ⟨'\x7b' :: front, '\x7d', rfl, by decide⟩, by rw [← whole, ← start]; exact split⟩

theorem readMember_eats (depth : Nat) : Eats (readMember (readValue depth)) SpelledMember := by
  intro text member rest found
  obtain ⟨rest₁, rest₂, quoted, colon, one, _⟩ := readMember_parts found
  obtain ⟨before, spaces, split⟩ := skipSpace_spaces text
  obtain ⟨key, literal, whole⟩ := readQuoted_literal quoted
  obtain ⟨between, spaces', split'⟩ := skipSpace_spaces rest₁
  obtain ⟨behind, spaces'', split''⟩ := skipSpace_spaces rest₂
  obtain ⟨more, raw, spaces₃, spelled, value⟩ := readValue_eats depth _ _ _ one
  have after : Spaces (behind ++ more) := by
    intro c held
    rcases List.mem_append.mp held with first | second
    · exact spaces'' c first
    · exact spaces₃ c second
  refine ⟨before, _, spaces, ⟨key, between, behind ++ more, raw, literal, spaces', after, spelled, rfl⟩, ?_⟩
  rw [split, whole, split', colon, split'', value]
  simp

/-- What is read of an object. -/
theorem readDocument_object {text : List Char} {members : List (String × Tree)} (found : readDocument text = some (.object members)) :
    ∃ before inner items rest, Spaces before ∧ Spaces rest ∧ Bracketed SpelledMember '\x7d' items inner ∧ members = plain items ∧
      text = before ++ '\x7b' :: (inner ++ rest) := by
  unfold readDocument whole at found
  split at found
  case h_2 => cases found
  case h_1 tree rest read =>
    split at found
    case isFalse => cases found
    case isTrue blank =>
      obtain rfl := Option.some.inj found
      have spaces' : Spaces rest := by
        intro c held
        exact List.dropWhile_eq_nil_iff.mp (List.isEmpty_iff.mp blank) c held
      obtain ⟨before, spaces, split⟩ := skipSpace_spaces text
      rcases readValue_cases read with scalar | ⟨below, inner, _, ⟨_, _, _, same⟩ | ⟨start, items, listed, same⟩⟩
      · exact (readScalar_nests scalar 0).elim
      · cases same
      · cases same
        obtain ⟨eaten, bracketed_, whole⟩ := bracketed_eats (readMember_eats below) listed
        refine ⟨before, eaten, items, rest, spaces, spaces', bracketed_, rfl, ?_⟩
        rw [← whole, ← start]
        exact split

/-! ## Lengths -/

/-- The characters that a value takes at least. -/
def least : Tree → Nat
  | .string value => widths value.toList + 2
  | _ => 0

def leastMember (member : String × List Char × Tree) : Nat := widths member.1.toList + least member.2.2 + 3

theorem leastMember_string (key : String) (raw : List Char) (value : String) :
    leastMember (key, raw, .string value) = widths key.toList + widths value.toList + 5 := by
  simp only [leastMember, least]
  omega

private theorem Literal.length_le {value : String} {text : List Char} (literal : Literal value text) :
    widths value.toList + 2 ≤ text.length := by
  obtain ⟨body, spelled, rfl⟩ := literal
  have inside := spelled.widths_le
  simp only [List.length_cons, List.length_append, List.length_nil]
  omega

private theorem Spelled.length_le {tree : Tree} {text : List Char} (spelled : Spelled tree text) :
    least tree ≤ text.length := by
  cases tree with
  | string value => exact Literal.length_le spelled
  | null | bool | number | array | object => exact Nat.zero_le _

theorem SpelledMember.length_le {member : String × List Char × Tree} {text : List Char} (spelled : SpelledMember member text) :
    leastMember member ≤ text.length := by
  obtain ⟨key, before, after, raw, literal, _, _, value, rfl⟩ := spelled
  have first := literal.length_le
  have second := value.length_le
  simp only [leastMember, List.length_cons, List.length_append]
  omega

/-- An object has room for its members and a comma or the brace behind each. -/
theorem separated_length_le {items : List (String × List Char × Tree)} {text : List Char}
    (listed : Separated SpelledMember close items text) : (items.map fun item => leastMember item + 1).sum ≤ text.length := by
  induction listed with
  | last _ named _ =>
    have one := named.length_le
    simp only [List.map_cons, List.map_nil, List.sum_cons, List.sum_nil, List.length_append, List.length_cons, List.length_nil]
    omega
  | more _ named _ _ ih =>
    have one := named.length_le
    rw [List.map_cons, List.sum_cons]
    simp only [List.length_append, List.length_cons]
    omega

/-! ## The last member -/

private theorem separated_last {items : List α} {text : List Char} (listed : Separated Names close items text) :
    ∃ item ∈ items, ∃ front own after, Names item own ∧ Spaces after ∧ text = front ++ (own ++ (after ++ [close])) := by
  induction listed with
  | @last item before own after _ named spaces => exact ⟨item, List.mem_cons_self, before, own, after, named, spaces, rfl⟩
  | @more item next items before own after rest _ _ _ _ ih =>
    obtain ⟨found, held, front, own', after', named, spaces, rfl⟩ := ih
    exact ⟨found, List.mem_cons_of_mem _ held, before ++ (own ++ (after ++ ',' :: front)), own', after', named, spaces, by simp⟩

private theorem no_spaces {front space before : List Char} {c : Char} (spaces : Spaces space) (solid : isSpace c = false)
    (same : front ++ space = before ++ [c]) : space = [] := by
  rcases List.eq_nil_or_concat' space with none_ | ⟨start, last, rfl⟩
  · exact none_
  · rw [← List.append_assoc] at same
    obtain ⟨_, equal⟩ := List.append_inj' same rfl
    obtain rfl := (List.cons.inj equal).1
    exact nomatch (spaces last (by simp)).symm.trans solid

/-- A value at whose end there is a quote is a string. -/
private theorem Spelled.string {tree : Tree} {raw front before : List Char} (spelled : Spelled tree raw)
    (same : front ++ raw = before ++ ['"']) : ∃ value, tree = .string value ∧ Literal value raw := by
  cases tree with
  | string value => exact ⟨value, rfl, spelled⟩
  | null | bool | number | array | object =>
    obtain ⟨start, last, rfl, other⟩ := spelled
    rw [← List.append_assoc] at same
    exact absurd (List.cons.inj (List.append_inj' same rfl).2).1 other

private theorem Literal.last_eq {value : String} {text front before plain : List Char} {c : Char} (literal : Literal value text)
    (unquoted : '"' ∉ plain) (plain_ : '\\' ∉ plain) (unescaped : c ≠ '\\')
    (whole : front ++ text = before ++ c :: '"' :: (plain ++ ['"'])) : value = String.ofList plain ∧ front = before ++ [c] := by
  obtain ⟨body, spelled, rfl⟩ := literal
  obtain ⟨rfl, same⟩ := spelled.last_eq unquoted unescaped whole
  rw [← spelled.eq_of_plain plain_, String.ofList_toList]
  exact ⟨rfl, same⟩

/-- The member at the end of an object, when its key and its value are spelled without escapes. -/
theorem last_member {items : List (String × List Char × Tree)} {inner rest before start key value : List Char}
    (listed : Separated SpelledMember '\x7d' items inner) (spaces : Spaces rest) (keyPlain : '"' ∉ key ∧ '\\' ∉ key)
    (valuePlain : '"' ∉ value ∧ '\\' ∉ value)
    (whole : before ++ (inner ++ rest) = start ++ ',' :: '"' :: (key ++ '"' :: ':' :: '"' :: (value ++ ['"', '\x7d']))) :
    ∃ raw, (String.ofList key, raw, .string (String.ofList value)) ∈ items := by
  obtain ⟨⟨name, raw, tree⟩, held, front, own, after, ⟨literal, between, behind, text, named, spaces₁, spaces₂, spelled, rfl⟩,
    spaces₃, rfl⟩ := separated_last listed
  have closed : (before ++ (front ++ (literal ++ (between ++ ':' :: (behind ++ text)) ++ (after ++ ['\x7d'])))) ++ rest =
      (start ++ ',' :: '"' :: (key ++ '"' :: ':' :: '"' :: (value ++ ['"']))) ++ ['\x7d'] := by simpa using whole
  obtain rfl := no_spaces spaces (by decide) closed
  have braced : (before ++ (front ++ (literal ++ (between ++ ':' :: (behind ++ text)))) ++ after) ++ ['\x7d'] =
      (start ++ ',' :: '"' :: (key ++ '"' :: ':' :: '"' :: value) ++ ['"']) ++ ['\x7d'] := by simpa using closed
  have inside := List.append_cancel_right braced
  obtain rfl := no_spaces spaces₃ (by decide) inside
  have ended : (before ++ (front ++ (literal ++ (between ++ ':' :: behind)))) ++ text =
      (start ++ ',' :: '"' :: (key ++ '"' :: ':' :: '"' :: value)) ++ ['"'] := by simpa using inside
  obtain ⟨found, rfl, quoted⟩ := spelled.string ended
  have valued : (before ++ (front ++ (literal ++ (between ++ ':' :: behind)))) ++ text =
      (start ++ ',' :: '"' :: (key ++ ['"'])) ++ ':' :: '"' :: (value ++ ['"']) := by simpa using ended
  obtain ⟨rfl, colon⟩ := quoted.last_eq valuePlain.1 valuePlain.2 (by decide) valued
  have separated : (before ++ (front ++ (literal ++ (between ++ [':'])))) ++ behind =
      (start ++ ',' :: '"' :: (key ++ ['"'])) ++ [':'] := by simpa using colon
  obtain rfl := no_spaces spaces₂ (by decide) separated
  have coloned : ((before ++ (front ++ literal)) ++ between) ++ [':'] = (start ++ ',' :: '"' :: key ++ ['"']) ++ [':'] := by
    simpa using separated
  have keyed := List.append_cancel_right coloned
  obtain rfl := no_spaces spaces₁ (by decide) keyed
  have named' : (before ++ front) ++ literal = start ++ ',' :: '"' :: (key ++ ['"']) := by simpa using keyed
  obtain ⟨rfl, _⟩ := named.last_eq keyPlain.1 keyPlain.2 (by decide) named'
  exact ⟨raw, held⟩

end Ironsight.JsonSpans
