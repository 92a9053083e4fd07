import Ironsight.JsonReaderProofs

/-! How far values nest, and what reading them depends on: a value that is read under one limit is
read under every limit that it keeps to, whatever text follows. -/
namespace Ironsight.JsonNesting
open JsonReader JsonReaderProofs

variable {α : Type}

/-- At most the given number of brackets are open at a time. -/
def Nests : Nat → Tree → Prop
  | _, .null | _, .bool _ | _, .number _ | _, .string _ => True
  | 0, .array _ | 0, .object _ => False
  | depth + 1, .array items => ∀ item ∈ items, Nests depth item
  | depth + 1, .object members => ∀ member ∈ members, Nests depth member.2

theorem nests_mono {depth deeper : Nat} (le : depth ≤ deeper) {tree : Tree} (nests : Nests depth tree) :
    Nests deeper tree := by
  induction depth generalizing deeper tree with
  | zero =>
    cases tree with
    | array | object => cases nests
    | null | bool | number | string => simp [Nests]
  | succ depth ih =>
    obtain ⟨deeper, rfl⟩ := Nat.exists_eq_succ_of_ne_zero (Nat.ne_of_gt (Nat.zero_lt_of_lt le))
    have below := Nat.le_of_succ_le_succ le
    cases tree with
    | array items => exact fun item held => ih below (nests item held)
    | object members => exact fun member held => ih below (nests member held)
    | null | bool | number | string => simp [Nests]

/-! ## Strings -/

private theorem readUnit_extra {text rest : List Char} {n : Nat} (read : readUnit text = some (n, rest)) (extra : List Char) :
    readUnit (text ++ extra) = some (n, rest ++ extra) := by
  match text with
  | [] | [_] | [_, _] | [_, _, _] => cases read
  | a :: b :: c :: d :: tail =>
    simp only [readUnit, Option.bind_eq_bind, Option.bind_eq_some_iff, Option.pure_def, Option.some_inj, Prod.mk.injEq,
      List.cons_append] at read ⊢
    obtain ⟨a', first, b', second, c', third, d', fourth, value, rfl⟩ := read
    exact ⟨a', first, b', second, c', third, d', fourth, value, rfl⟩

private theorem readLow_extra {high : Nat} {text rest : List Char} {c : Char} (read : readLow high text = some (c, rest))
    (extra : List Char) : readLow high (text ++ extra) = some (c, rest ++ extra) := by
  unfold readLow at read
  split at read
  case h_2 => cases read
  case h_1 _ text =>
    simp only [Option.bind_eq_bind, Option.bind_eq_some_iff] at read
    obtain ⟨⟨low, rest'⟩, unit, found⟩ := read
    simp only [List.cons_append, readLow, readUnit_extra unit extra, Option.bind_eq_bind, Option.bind_some]
    split at found
    case isFalse => cases found
    case isTrue low =>
      obtain ⟨rfl, rfl⟩ := Prod.mk.inj (Option.some.inj found)
      exact if_pos low

/-- What follows half a pair is not its other half, if the string goes on to its quote. -/
private theorem readLow_extra_none {high fuel : Nat} {text rest chars : List Char} (none_ : readLow high text = none)
    (goes : readChars fuel text = some (chars, rest)) (extra : List Char) : readLow high (text ++ extra) = none := by
  cases fuel with
  | zero => cases goes
  | succ fuel =>
    match text with
    | [] => cases goes
    | [c] =>
      by_cases escape : c = '\\'
      · subst escape
        cases goes
      · exact readLow.eq_2 _ _ (fun tail same => escape (List.cons.inj same).1)
    | c :: d :: tail =>
      by_cases escape : c = '\\' ∧ d = 'u'
      · obtain ⟨rfl, rfl⟩ := escape
        have unit : ∃ low rest', readUnit tail = some (low, rest') := by
          cases read : readUnit tail with
          | some found => exact ⟨found.1, found.2, rfl⟩
          | none => simp [readChars, readChar, readUnicode, read] at goes
        obtain ⟨low, rest', unit⟩ := unit
        simp only [readLow, unit, List.cons_append, readUnit_extra unit extra, Option.bind_eq_bind, Option.bind_some] at none_ ⊢
        split at none_
        case isTrue => cases none_
        case isFalse other => exact if_neg other
      · refine readLow.eq_2 _ _ fun rest same => escape ?_
        obtain ⟨first, second⟩ := List.cons.inj same
        exact ⟨first, (List.cons.inj second).1⟩

/-- How a character is read by its code. -/
theorem readUnicode_cases {text rest : List Char} {c : Char} (read : readUnicode text = some (c, rest)) :
    ∃ unit left, readUnit text = some (unit, left) ∧
      ((¬ (0xD800 ≤ unit ∧ unit < 0xE000) ∧ c = Char.ofNat unit ∧ rest = left) ∨
        ((0xD800 ≤ unit ∧ unit < 0xE000) ∧
          (readLow unit left = some (c, rest) ∨ readLow unit left = none ∧ c = '\uFFFD' ∧ rest = left))) := by
  simp only [readUnicode, Option.bind_eq_bind, Option.bind_eq_some_iff] at read
  obtain ⟨⟨unit, left⟩, found, decoded⟩ := read
  refine ⟨unit, left, found, ?_⟩
  split at decoded
  case isFalse single =>
    obtain ⟨rfl, rfl⟩ := Prod.mk.inj (Option.some.inj decoded)
    exact .inl ⟨single, rfl, rfl⟩
  case isTrue half =>
    refine .inr ⟨half, ?_⟩
    cases low : readLow unit left with
    | some pair =>
      rw [low] at decoded
      exact .inl decoded
    | none =>
      rw [low] at decoded
      obtain ⟨rfl, rfl⟩ := Prod.mk.inj (Option.some.inj decoded)
      exact .inr ⟨rfl, rfl, rfl⟩

/-- The spellings of a character. -/
theorem readChar_cases {text rest : List Char} {c : Char} (read : readChar text = some (c, rest)) :
    (text = c :: rest ∧ c ≠ '\\' ∧ ¬ c.toNat < 32) ∨
      (∃ letter, text = '\\' :: letter :: rest ∧ letter ≠ 'u' ∧ shortEscapes.lookup letter = some c) ∨
      ∃ tail, text = '\\' :: 'u' :: tail ∧ readUnicode tail = some (c, rest) := by
  unfold readChar at read
  split at read
  case h_1 => cases read
  case h_2 first tail =>
    split at read
    case isFalse other =>
      split at read
      case isTrue => cases read
      case isFalse printed =>
        obtain ⟨rfl, rfl⟩ := Prod.mk.inj (Option.some.inj read)
        exact .inl ⟨rfl, other, printed⟩
    case isTrue escape =>
      subst escape
      split at read
      case h_1 => cases read
      case h_2 letter tail =>
        split at read
        case isTrue code => exact .inr (.inr ⟨tail, by rw [code], read⟩)
        case isFalse short =>
          obtain ⟨found, listed, same⟩ := Option.map_eq_some_iff.mp read
          obtain ⟨rfl, rfl⟩ := Prod.mk.inj same
          exact .inr (.inl ⟨letter, rfl, short, listed⟩)

private theorem readChar_extra {fuel : Nat} {text rest rest' chars : List Char} {c : Char} (read : readChar text = some (c, rest))
    (goes : readChars fuel rest = some (chars, rest')) (extra : List Char) :
    readChar (text ++ extra) = some (c, rest ++ extra) := by
  rcases readChar_cases read with ⟨rfl, other, printed⟩ | ⟨letter, rfl, short, listed⟩ | ⟨tail, rfl, code⟩
  · simp [readChar, other, printed]
  · simp [readChar, short, listed]
  · obtain ⟨unit, left, found, kind⟩ := readUnicode_cases code
    simp only [List.cons_append, readChar, if_true, readUnicode, readUnit_extra found extra, Option.bind_eq_bind, Option.bind_some]
    rcases kind with ⟨single, rfl, rfl⟩ | ⟨half, low | ⟨none_, rfl, rfl⟩⟩
    · exact if_neg single
    · rw [if_pos half, readLow_extra low extra]
      rfl
    · rw [if_pos half, readLow_extra_none none_ goes extra]
      rfl

private theorem readChars_extra {fuel fuel' : Nat} (le : fuel ≤ fuel') {text rest chars : List Char}
    (read : readChars fuel text = some (chars, rest)) (extra : List Char) :
    readChars fuel' (text ++ extra) = some (chars, rest ++ extra) := by
  induction fuel generalizing fuel' text rest chars with
  | zero => cases read
  | succ fuel ih =>
    obtain ⟨fuel', rfl⟩ := Nat.exists_eq_succ_of_ne_zero (Nat.ne_of_gt (Nat.zero_lt_of_lt le))
    match text with
    | [] => cases read
    | first :: tail =>
      rw [readChars] at read
      rw [List.cons_append, readChars]
      by_cases quote : first = '"'
      · subst quote
        obtain ⟨rfl, rfl⟩ := Prod.mk.inj (Option.some.inj read)
        rfl
      · rw [if_neg (by simpa using quote)] at read
        rw [if_neg (by simpa using quote)]
        simp only [Option.bind_eq_bind, Option.bind_eq_some_iff] at read
        obtain ⟨⟨c, rest₁⟩, one, ⟨cs, rest₂⟩, more, done⟩ := read
        obtain ⟨rfl, rfl⟩ := Prod.mk.inj (Option.some.inj done)
        rw [← List.cons_append, readChar_extra one more extra]
        simp [ih (Nat.le_of_succ_le_succ le) more]

private theorem readQuoted_extra {text rest : List Char} {value : String} (read : readQuoted text = some (value, rest))
    (extra : List Char) : readQuoted (text ++ extra) = some (value, rest ++ extra) := by
  unfold readQuoted at read
  split at read
  case h_2 => cases read
  case h_1 _ body =>
    obtain ⟨⟨chars, rest'⟩, found, same⟩ := Option.map_eq_some_iff.mp read
    obtain ⟨rfl, rfl⟩ := Prod.mk.inj same
    have longer : body.length ≤ (body ++ extra).length := by simp
    simp only [List.cons_append, readQuoted, readChars_extra longer found extra, Option.map_some]

/-! ## Scalars -/

/-- What a scalar can be. -/
theorem readScalar_cases {text rest : List Char} {tree : Tree} (read : readScalar text = some (tree, rest)) :
    (text.head? = some '"' ∧ ∃ value, readQuoted text = some (value, rest) ∧ tree = .string value) ∨
    (∃ word ∈ words, text = word.1 ++ rest ∧ tree = word.2) ∨
    (isNumber (text.takeWhile isNumberChar) = true ∧ tree = .number (text.takeWhile isNumberChar) ∧
      rest = text.dropWhile isNumberChar) := by
  unfold readScalar at read
  split at read
  case isTrue quote =>
    obtain ⟨⟨value, rest'⟩, found, same⟩ := Option.map_eq_some_iff.mp read
    obtain ⟨rfl, rfl⟩ := Prod.mk.inj same
    exact .inl ⟨quote, value, found, rfl⟩
  case isFalse =>
    split at read
    case h_1 word tree' found =>
      obtain ⟨rfl, rfl⟩ := Prod.mk.inj (Option.some.inj read)
      have begins : word.isPrefixOf text = true := by simpa using List.find?_some found
      obtain ⟨tail, rfl⟩ := List.isPrefixOf_iff_prefix.mp begins
      exact .inr (.inl ⟨(word, tree'), List.mem_of_find?_eq_some found, by simp, rfl⟩)
    case h_2 =>
      simp only at read
      split at read
      case isTrue number =>
        obtain ⟨rfl, rfl⟩ := Prod.mk.inj (Option.some.inj read)
        exact .inr (.inr ⟨number, rfl, rfl⟩)
      case isFalse => cases read

private theorem readScalar_word {word : List Char × Tree} (listed : word ∈ words) (rest : List Char) :
    readScalar (word.1 ++ rest) = some (word.2, rest) := by
  simp only [words, List.mem_cons, List.not_mem_nil, or_false] at listed
  rcases listed with rfl | rfl | rfl <;> rfl

/-- A number ends where another character stands. -/
private theorem stops_dropWhile {text : List Char} (left : text.dropWhile isNumberChar ≠ []) (extra : List Char) :
    Stops (text.dropWhile isNumberChar ++ extra) := by
  cases rest : text.dropWhile isNumberChar with
  | nil => exact absurd rest left
  | cons c tail =>
    have first : isNumberChar c = false := by
      have := List.head?_dropWhile_not isNumberChar text
      simpa [rest] using this
    intro d leads
    cases leads
    exact first

private theorem readScalar_extra {text rest : List Char} {tree : Tree} (read : readScalar text = some (tree, rest))
    (extra : List Char) (ends : rest ≠ [] ∨ extra = []) : readScalar (text ++ extra) = some (tree, rest ++ extra) := by
  rcases ends with left | rfl
  case inr => simpa using read
  rcases readScalar_cases read with ⟨quote, value, found, rfl⟩ | ⟨word, listed, rfl, rfl⟩ | ⟨number, rfl, rfl⟩
  · have quote' : (text ++ extra).head? = some '"' := by simp [quote]
    simp [readScalar, quote', readQuoted_extra found extra]
  · rw [List.append_assoc]
    exact readScalar_word listed _
  · have split := List.takeWhile_append_dropWhile (p := isNumberChar) (l := text)
    conv => lhs; rw [← split, List.append_assoc]
    exact readScalar_number number (stops_dropWhile left extra)

/-- A scalar has no brackets. -/
theorem readScalar_nests {text rest : List Char} {tree : Tree} (read : readScalar text = some (tree, rest)) (depth : Nat) :
    Nests depth tree := by
  rcases readScalar_cases read with ⟨_, value, _, rfl⟩ | ⟨word, listed, _, rfl⟩ | ⟨_, rfl, _⟩
  · simp [Nests]
  · simp only [words, List.mem_cons, List.not_mem_nil, or_false] at listed
    rcases listed with rfl | rfl | rfl <;> simp [Nests]
  · simp [Nests]

/-! ## Brackets -/

/-- A reader goes on reading what another one read, whatever follows. -/
def Continues (extra : List Char) (Kept : α → Prop) (read read' : List Char → Option (α × List Char)) : Prop :=
  ∀ text value rest, read text = some (value, rest) → Kept value → rest ≠ [] ∨ extra = [] →
    read' (text ++ extra) = some (value, rest ++ extra)

/-- A reader that needs something to read. -/
def Awake (read : List Char → Option (α × List Char)) : Prop := ∀ text, skipSpace text = [] → read text = none

private theorem skipSpace_extra {text : List Char} {c : Char} {rest : List Char} (start : skipSpace text = c :: rest)
    (extra : List Char) : skipSpace (text ++ extra) = c :: (rest ++ extra) := by
  unfold skipSpace at start ⊢
  rw [List.dropWhile_append, start]
  rfl

private theorem ne_nil_of_skipSpace {text : List Char} {c : Char} {rest : List Char} (start : skipSpace text = c :: rest) :
    text ≠ [] := by
  rintro rfl
  cases start

variable {extra : List Char} {Kept : α → Prop} {read read' : List Char → Option (α × List Char)} {close : Char}

/-- One item, and the bracket or the comma behind it. -/
theorem separated_cases {fuel : Nat} {text rest : List Char} {items : List α}
    (found : separated read close fuel text = some (items, rest)) : ∃ fuel' item rest₁ c rest₂, fuel = fuel' + 1 ∧
      read text = some (item, rest₁) ∧ skipSpace rest₁ = c :: rest₂ ∧
      ((c = close ∧ items = [item] ∧ rest = rest₂) ∨ (c ≠ close ∧ c = ',' ∧
        ∃ items', separated read close fuel' rest₂ = some (items', rest) ∧ items = item :: items')) := by
  cases fuel with
  | zero => cases found
  | succ fuel =>
    simp only [separated, Option.bind_eq_bind, Option.bind_eq_some_iff] at found
    obtain ⟨⟨item, rest₁⟩, one, more⟩ := found
    simp only at more
    split at more
    case h_1 => cases more
    case h_2 c rest₂ start =>
      refine ⟨fuel, item, rest₁, c, rest₂, rfl, one, start, ?_⟩
      split at more
      case isTrue closes =>
        obtain ⟨rfl, rfl⟩ := Prod.mk.inj (Option.some.inj more)
        exact .inl ⟨closes, rfl, rfl⟩
      case isFalse open_ =>
        split at more
        case isFalse => cases more
        case isTrue comma =>
          simp only [Option.bind_eq_some_iff] at more
          obtain ⟨⟨items', rest₃⟩, later, done⟩ := more
          obtain ⟨rfl, rfl⟩ := Prod.mk.inj (Option.some.inj done)
          exact .inr ⟨open_, comma, items', later, rfl⟩

private theorem separated_continues (continues : Continues extra Kept read read') {fuel fuel' : Nat} (le : fuel ≤ fuel')
    {text rest : List Char} {items : List α} (found : separated read close fuel text = some (items, rest))
    (kept : ∀ item ∈ items, Kept item) : separated read' close fuel' (text ++ extra) = some (items, rest ++ extra) := by
  induction fuel generalizing fuel' text rest items with
  | zero => cases found
  | succ fuel ih =>
    obtain ⟨fuel', rfl⟩ := Nat.exists_eq_succ_of_ne_zero (Nat.ne_of_gt (Nat.zero_lt_of_lt le))
    obtain ⟨_, item, rest₁, c, rest₂, same, one, start, kind⟩ := separated_cases found
    obtain rfl := Nat.succ.inj same
    have here (held : Kept item) := continues text item rest₁ one held (.inl (ne_nil_of_skipSpace start))
    rcases kind with ⟨closes, rfl, rfl⟩ | ⟨open_, rfl, items', later, rfl⟩
    · simp [separated, here (kept item List.mem_cons_self), skipSpace_extra start, closes]
    · obtain ⟨own, others⟩ := List.forall_mem_cons.mp kept
      have next := ih (Nat.le_of_succ_le_succ le) later others
      simp [separated, here own, skipSpace_extra start, open_, next]

private theorem bracketed_continues (continues : Continues extra Kept read read') (awake : Awake read) {text rest : List Char}
    {items : List α} (found : bracketed read close text = some (items, rest)) (kept : ∀ item ∈ items, Kept item) :
    bracketed read' close (text ++ extra) = some (items, rest ++ extra) := by
  cases start : skipSpace text with
  | nil =>
    rw [bracketed, start] at found
    cases text with
    | nil => cases found
    | cons c text => simp [separated, awake _ start] at found
  | cons c inner =>
    rw [bracketed, start] at found
    rw [bracketed, skipSpace_extra start]
    by_cases closes : c = close
    · subst closes
      obtain ⟨rfl, rfl⟩ := Prod.mk.inj (Option.some.inj ((if_pos rfl).symm.trans found))
      exact if_pos rfl
    · rw [if_neg (by simpa using closes)] at found ⊢
      exact separated_continues continues (by simp) found kept

private theorem separated_all {Q : α → Prop} (all : ∀ text value rest, read text = some (value, rest) → Q value) {fuel : Nat}
    {text rest : List Char} {items : List α} (found : separated read close fuel text = some (items, rest)) :
    ∀ item ∈ items, Q item := by
  induction fuel generalizing text rest items with
  | zero => cases found
  | succ fuel ih =>
    obtain ⟨_, item, _, _, _, same, one, _, kind⟩ := separated_cases found
    obtain rfl := Nat.succ.inj same
    rcases kind with ⟨_, rfl, _⟩ | ⟨_, _, items', later, rfl⟩
    · exact List.forall_mem_singleton.mpr (all _ _ _ one)
    · exact List.forall_mem_cons.mpr ⟨all _ _ _ one, ih later⟩

private theorem bracketed_all {Q : α → Prop} (all : ∀ text value rest, read text = some (value, rest) → Q value)
    {text rest : List Char} {items : List α} (found : bracketed read close text = some (items, rest)) :
    ∀ item ∈ items, Q item := by
  unfold bracketed at found
  split at found
  case isTrue =>
    obtain ⟨rfl, rfl⟩ := Prod.mk.inj (Option.some.inj found)
    nofun
  case isFalse => exact separated_all all found

theorem readMember_parts {text rest : List Char} {member : String × List Char × α}
    (found : readMember read text = some (member, rest)) : ∃ rest₁ rest₂, readQuoted (skipSpace text) = some (member.1, rest₁) ∧
      skipSpace rest₁ = ':' :: rest₂ ∧ read (skipSpace rest₂) = some (member.2.2, rest) ∧
      member.2.1 = (skipSpace rest₂).take ((skipSpace rest₂).length - rest.length) := by
  simp only [readMember, Option.bind_eq_bind, Option.bind_eq_some_iff] at found
  obtain ⟨⟨key, rest₁⟩, quoted, more⟩ := found
  simp only at more
  split at more
  case h_2 => cases more
  case h_1 rest₂ colon =>
    simp only [Option.bind_eq_some_iff] at more
    obtain ⟨⟨value, rest₃⟩, one, done⟩ := more
    obtain ⟨rfl, rfl⟩ := Prod.mk.inj (Option.some.inj done)
    exact ⟨rest₁, rest₂, quoted, colon, one, rfl⟩

private theorem awake_readMember (read : List Char → Option (α × List Char)) : Awake (readMember read) := by
  intro text blank
  simp [readMember, blank, readQuoted]

private theorem readMember_continues (continues : Continues extra Kept read read') (awake : Awake read) :
    Continues extra (fun member : String × List Char × α => Kept member.2.2) (readMember read) (readMember read') := by
  intro text member rest found kept ends
  obtain ⟨rest₁, rest₂, quoted, colon, one, raw⟩ := readMember_parts found
  have next := continues _ _ _ one kept ends
  have key : skipSpace (text ++ extra) = skipSpace text ++ extra := by
    cases start : skipSpace text with
    | nil => rw [awake_readMember read text start] at found; cases found
    | cons c inner => exact skipSpace_extra start extra
  have start : skipSpace (rest₂ ++ extra) = skipSpace rest₂ ++ extra := by
    cases start : skipSpace rest₂ with
    | nil => rw [awake _ (by rw [start]; rfl)] at one; cases one
    | cons c inner => exact skipSpace_extra start extra
  have length : (skipSpace rest₂ ++ extra).length - (rest ++ extra).length = (skipSpace rest₂).length - rest.length := by
    rw [List.length_append, List.length_append]
    omega
  simp only [readMember, key, readQuoted_extra quoted extra, Option.bind_eq_bind, Option.bind_some, skipSpace_extra colon, start,
    next, length]
  rw [List.take_append_of_le_length (Nat.sub_le _ _), ← raw]
  rfl

/-! ## Values -/

private theorem awake_readValue (depth : Nat) : Awake (readValue depth) := by
  intro text blank
  cases depth with
  | zero =>
    rw [readValue, blank]
    rfl
  | succ depth =>
    rw [readValue, blank]
    rfl

private theorem plain_nests {depth : Nat} {members : List (String × List Char × Tree)} :
    (∀ member ∈ plain members, Nests depth member.2) ↔ ∀ member ∈ members, Nests depth member.2.2 := List.forall_mem_map

/-- The kinds of values, by how they are read. -/
theorem readValue_cases {depth : Nat} {text rest : List Char} {tree : Tree}
    (found : readValue depth text = some (tree, rest)) : readScalar (skipSpace text) = some (tree, rest) ∨
      ∃ below inner, depth = below + 1 ∧
        ((skipSpace text = '[' :: inner ∧ ∃ items, bracketed (readValue below) ']' inner = some (items, rest) ∧
            tree = .array items) ∨
          (skipSpace text = '\x7b' :: inner ∧ ∃ members, bracketed (readMember (readValue below)) '\x7d' inner = some (members, rest) ∧
            tree = .object (plain members))) := by
  cases depth with
  | zero => exact .inl found
  | succ below =>
    unfold readValue at found
    split at found
    case h_1 inner start =>
      obtain ⟨⟨items, rest'⟩, read, same⟩ := Option.map_eq_some_iff.mp found
      obtain ⟨rfl, rfl⟩ := Prod.mk.inj same
      exact .inr ⟨below, inner, rfl, .inl ⟨start, items, read, rfl⟩⟩
    case h_2 inner start =>
      obtain ⟨⟨members, rest'⟩, read, same⟩ := Option.map_eq_some_iff.mp found
      obtain ⟨rfl, rfl⟩ := Prod.mk.inj same
      exact .inr ⟨below, inner, rfl, .inr ⟨start, members, read, rfl⟩⟩
    case h_3 => exact .inl found

/-- What is read keeps to the limit. -/
theorem readValue_nests {depth : Nat} :
    ∀ {text rest : List Char} {tree : Tree}, readValue depth text = some (tree, rest) →
    Nests depth tree := by
  induction depth with
  | zero => exact fun found => readScalar_nests found 0
  | succ depth ih =>
    intro text rest tree found
    rcases readValue_cases found with scalar | ⟨below, inner, same, ⟨_, items, read, rfl⟩ | ⟨_, members, read, rfl⟩⟩
    · exact readScalar_nests scalar _
    · obtain rfl := Nat.succ.inj same
      exact bracketed_all (fun _ _ _ one => ih one) read
    · obtain rfl := Nat.succ.inj same
      refine plain_nests.mpr (bracketed_all (Q := fun member => Nests depth member.2.2) ?_ read)
      intro text member rest one
      obtain ⟨_, _, _, _, value, _⟩ := readMember_parts one
      exact ih value

private theorem readValue_scalar {limit : Nat} {text rest : List Char} {tree : Tree}
    (scalar : readScalar (skipSpace text) = some (tree, rest)) (ends : rest ≠ [] ∨ extra = []) :
    readValue limit (text ++ extra) = some (tree, rest ++ extra) := by
  refine readValue_of_scalar ?_
  cases start : skipSpace text with
  | nil =>
    rw [start] at scalar
    cases scalar
  | cons c inner =>
    rw [skipSpace_extra start, ← List.cons_append, ← start]
    exact readScalar_extra scalar extra ends

/-- A value is read under every limit that it keeps to. -/
theorem readValue_continues (depth limit : Nat) (extra : List Char) :
    Continues extra (Nests limit) (readValue depth) (readValue limit) := by
  induction depth generalizing limit with
  | zero =>
    intro text tree rest found kept ends
    exact readValue_scalar found ends
  | succ depth ih =>
    intro text tree rest found kept ends
    rcases readValue_cases found with scalar | ⟨below, inner, same, brackets⟩
    · exact readValue_scalar scalar ends
    obtain rfl := Nat.succ.inj same
    cases limit with
    | zero => rcases brackets with ⟨_, _, _, rfl⟩ | ⟨_, _, _, rfl⟩ <;> cases kept
    | succ limit =>
      rcases brackets with ⟨start, items, read, rfl⟩ | ⟨start, members, read, rfl⟩
      · have next := bracketed_continues (ih limit) (awake_readValue depth) read kept
        rw [readValue, skipSpace_extra start]
        simp [next]
      · have next := bracketed_continues (readMember_continues (ih limit) (awake_readValue depth)) (awake_readMember _) read
          (plain_nests.mp kept)
        rw [readValue, skipSpace_extra start]
        simp [next]

/-- Two limits lead to the same value. -/
theorem readValue_unique {depth limit : Nat} {text rest rest' : List Char} {tree tree' : Tree}
    (found : readValue depth text = some (tree, rest)) (found' : readValue limit text = some (tree', rest')) :
    tree = tree' ∧ rest = rest' := by
  have same := readValue_continues depth (max depth limit) [] text tree rest found
    (nests_mono (le_max_left _ _) (readValue_nests found)) (.inr rfl)
  have same' := readValue_continues limit (max depth limit) [] text tree' rest' found'
    (nests_mono (le_max_right _ _) (readValue_nests found')) (.inr rfl)
  rw [same] at same'
  simpa using same'

/-! ## Objects -/

private theorem readValue_object {depth : Nat} {text inner rest : List Char} {members : List (String × List Char × Tree)}
    (start : skipSpace text = '\x7b' :: inner)
    (read : bracketed (readMember (readValue depth)) '\x7d' inner = some (members, rest)) :
    readValue (depth + 1) text = some (.object (plain members), rest) := by
  rw [readValue, start]
  simp [read]

private theorem readObject_start {text inner : List Char} (start : skipSpace text = '\x7b' :: inner) :
    readObject text = whole (bracketed (readMember (readValue (maxNestingDepth - 1))) '\x7d' inner) := by
  simp only [readObject, start]

/-- An object with anything behind it is read as far as the limit allows. -/
theorem readObject_extra {depth : Nat} {text rest : List Char} {members : List (String × Tree)}
    (found : readValue depth text = some (.object members, rest)) (extra : List Char) :
    (Nests maxNestingDepth (.object members) → ∃ listed, plain listed = members ∧
      readObject (text ++ extra) = whole (some (listed, rest ++ extra))) ∧
    (¬ Nests maxNestingDepth (.object members) → readObject (text ++ extra) = none) := by
  rcases readValue_cases found with scalar | ⟨below, inner, _, ⟨_, _, _, same⟩ | ⟨start, listed, read, same⟩⟩
  · exact (readScalar_nests scalar 0).elim
  · cases same
  obtain rfl := Tree.object.inj same
  have start' := skipSpace_extra start extra
  have continues (limit : Nat) (kept : ∀ member ∈ listed, Nests limit member.2.2) :=
    bracketed_continues (readMember_continues (readValue_continues below limit extra) (awake_readValue below))
      (awake_readMember _) read kept
  constructor
  · intro nests
    exact ⟨listed, rfl, by rw [readObject_start start', continues (maxNestingDepth - 1) (plain_nests.mp nests)]⟩
  · intro deep
    have own : ∀ member ∈ listed, Nests below member.2.2 := by
      refine bracketed_all (Q := fun member => Nests below member.2.2) (fun text member rest one => ?_) read
      obtain ⟨_, _, _, _, value, _⟩ := readMember_parts one
      exact readValue_nests value
    have whole_ := readValue_object start' (continues below own)
    rw [readObject_start start']
    cases read' : bracketed (readMember (readValue (maxNestingDepth - 1))) '\x7d' (inner ++ extra) with
    | none => rfl
    | some found' =>
      have limited := readValue_object start' read'
      obtain ⟨tree, _⟩ := readValue_unique whole_ limited
      exact absurd (tree ▸ readValue_nests limited) deep

/-! ## What is left -/

/-- What a reader leaves is the end of its text. -/
def Takes (read : List Char → Option (α × List Char)) : Prop :=
  ∀ text value rest, read text = some (value, rest) → rest <:+ text

private theorem takes_readUnit : Takes readUnit := by
  intro text n rest read
  match text with
  | [] | [_] | [_, _] | [_, _, _] => cases read
  | a :: b :: c :: d :: tail =>
    simp only [readUnit, Option.bind_eq_bind, Option.bind_eq_some_iff, Option.pure_def, Option.some_inj, Prod.mk.injEq] at read
    obtain ⟨_, _, _, _, _, _, _, _, _, rfl⟩ := read
    exact ⟨[a, b, c, d], rfl⟩

private theorem takes_readLow (high : Nat) : Takes (readLow high) := by
  intro text c rest read
  unfold readLow at read
  split at read
  case h_2 => cases read
  case h_1 =>
    simp only [Option.bind_eq_bind, Option.bind_eq_some_iff] at read
    obtain ⟨⟨low, left⟩, found, paired⟩ := read
    split at paired
    case isFalse => cases paired
    case isTrue =>
      obtain ⟨rfl, rfl⟩ := Prod.mk.inj (Option.some.inj paired)
      exact (takes_readUnit _ _ _ found).trans (List.suffix_append ['\\', 'u'] _)

private theorem takes_readChar : Takes readChar := by
  intro text c rest read
  rcases readChar_cases read with ⟨rfl, _⟩ | ⟨letter, rfl, _⟩ | ⟨tail, rfl, code⟩
  · exact List.suffix_cons _ _
  · exact List.suffix_append ['\\', letter] rest
  · obtain ⟨unit, left, found, kind⟩ := readUnicode_cases code
    have first := (takes_readUnit _ _ _ found).trans (List.suffix_append ['\\', 'u'] tail)
    rcases kind with ⟨_, _, rfl⟩ | ⟨_, low | ⟨_, _, rfl⟩⟩
    · exact first
    · exact (takes_readLow unit _ _ _ low).trans first
    · exact first

private theorem takes_readChars (fuel : Nat) : Takes (readChars fuel) := by
  induction fuel with
  | zero => exact fun _ _ _ read => nomatch read
  | succ fuel ih =>
    intro text chars rest read
    rw [readChars] at read
    split at read
    case isTrue =>
      obtain ⟨rfl, rfl⟩ := Prod.mk.inj (Option.some.inj read)
      exact List.tail_suffix text
    case isFalse =>
      simp only [Option.bind_eq_bind, Option.bind_eq_some_iff] at read
      obtain ⟨⟨c, rest₁⟩, one, ⟨cs, rest₂⟩, more, done⟩ := read
      obtain ⟨rfl, rfl⟩ := Prod.mk.inj (Option.some.inj done)
      exact (ih _ _ _ more).trans (takes_readChar _ _ _ one)

private theorem takes_readQuoted : Takes readQuoted := by
  intro text value rest read
  unfold readQuoted at read
  split at read
  case h_2 => cases read
  case h_1 _ body =>
    obtain ⟨⟨chars, rest'⟩, found, same⟩ := Option.map_eq_some_iff.mp read
    obtain ⟨rfl, rfl⟩ := Prod.mk.inj same
    exact (takes_readChars _ _ _ _ found).trans (List.suffix_cons _ _)

private theorem takes_readScalar : Takes readScalar := by
  intro text tree rest read
  rcases readScalar_cases read with ⟨_, value, found, _⟩ | ⟨word, _, same, _⟩ | ⟨_, _, rfl⟩
  · exact takes_readQuoted _ _ _ found
  · exact ⟨word.1, same.symm⟩
  · exact List.dropWhile_suffix _

private theorem skipSpace_suffix (text : List Char) : skipSpace text <:+ text := List.dropWhile_suffix _

/-- The closing bracket stands before what is left. -/
private theorem separated_closes (takes : Takes read) {fuel : Nat} {text rest : List Char} {items : List α}
    (found : separated read close fuel text = some (items, rest)) : close :: rest <:+ text := by
  induction fuel generalizing text rest items with
  | zero => cases found
  | succ fuel ih =>
    obtain ⟨_, item, rest₁, c, rest₂, same, one, start, kind⟩ := separated_cases found
    obtain rfl := Nat.succ.inj same
    have here : c :: rest₂ <:+ text := start ▸ (skipSpace_suffix rest₁).trans (takes _ _ _ one)
    rcases kind with ⟨rfl, _, rfl⟩ | ⟨_, _, items', later, _⟩
    · exact here
    · exact (ih later).trans ((List.suffix_cons c rest₂).trans here)

theorem bracketed_closes (takes : Takes read) {text rest : List Char} {items : List α}
    (found : bracketed read close text = some (items, rest)) : close :: rest <:+ text := by
  unfold bracketed at found
  split at found
  case isFalse => exact separated_closes takes found
  case isTrue closes =>
    obtain ⟨rfl, rfl⟩ := Prod.mk.inj (Option.some.inj found)
    rw [List.cons_head?_tail closes]
    exact skipSpace_suffix text

theorem takes_readMember (takes : Takes read) : Takes (readMember read) := by
  intro text member rest found
  obtain ⟨rest₁, rest₂, quoted, colon, one, _⟩ := readMember_parts found
  have after : rest₂ <:+ rest₁ := (List.suffix_cons _ _).trans (colon ▸ skipSpace_suffix rest₁)
  have before := (takes_readQuoted _ _ _ quoted).trans (skipSpace_suffix text)
  exact (takes _ _ _ one).trans ((skipSpace_suffix rest₂).trans (after.trans before))

theorem takes_readValue (depth : Nat) : Takes (readValue depth) := by
  induction depth with
  | zero => exact fun text _ _ found => (takes_readScalar _ _ _ found).trans (skipSpace_suffix text)
  | succ depth ih =>
    intro text tree rest found
    have front {c : Char} {inner : List Char} (start : skipSpace text = c :: inner) : inner <:+ text :=
      (List.suffix_cons c inner).trans (start ▸ skipSpace_suffix text)
    rcases readValue_cases found with scalar | ⟨below, inner, same, ⟨start, items, read, _⟩ | ⟨start, members, read, _⟩⟩
    · exact (takes_readScalar _ _ _ scalar).trans (skipSpace_suffix text)
    · obtain rfl := Nat.succ.inj same
      exact (List.suffix_cons _ _).trans ((bracketed_closes ih read).trans (front start))
    · obtain rfl := Nat.succ.inj same
      exact (List.suffix_cons _ _).trans ((bracketed_closes (takes_readMember ih) read).trans (front start))

/-- An object ends with its brace. -/
theorem object_closes {depth : Nat} {text rest : List Char} {members : List (String × Tree)}
    (found : readValue depth text = some (.object members, rest)) : '\x7d' :: rest <:+ text := by
  rcases readValue_cases found with scalar | ⟨below, inner, _, ⟨_, _, _, same⟩ | ⟨start, _, read, _⟩⟩
  · exact (readScalar_nests scalar 0).elim
  · cases same
  · have closes := bracketed_closes (takes_readMember (takes_readValue below)) read
    exact closes.trans ((List.suffix_cons _ inner).trans (start ▸ skipSpace_suffix text))

end Ironsight.JsonNesting
