import Ironsight.JsonReader

/-! The reader reads every text of the grammar. -/
namespace Ironsight.JsonReaderProofs
open JsonReader

variable {α : Type}

/-! ## Tokens are read -/

/-- A text that cannot lengthen a number before it. -/
def Stops (rest : List Char) : Prop := ∀ c ∈ rest.head?, isNumberChar c = false

/-- A reader that skips leading whitespace and reads every text of the grammar. -/
def Reads (read : List Char → Option (α × List Char)) (Names : α → List Char → Prop) : Prop :=
  ∀ value before text rest, Spaces before → Names value text → Stops rest →
    read (before ++ (text ++ rest)) = some (value, rest)

/-- The texts start with a character that is neither whitespace nor a closing bracket. -/
def Opens (Names : α → List Char → Prop) : Prop :=
  ∀ value text, Names value text → ∃ c rest, text = c :: rest ∧ isSpace c = false ∧ c ≠ ']' ∧ c ≠ '}'

private theorem skipSpace_append {before : List Char} (spaces : Spaces before) (text : List Char) :
    skipSpace (before ++ text) = skipSpace text := List.dropWhile_append_of_pos spaces

private theorem skipSpace_cons {c : Char} (solid : isSpace c = false) (rest : List Char) :
    skipSpace (c :: rest) = c :: rest := List.dropWhile_cons_of_neg (by simp [solid])

private theorem skipSpace_spaces {text : List Char} (spaces : Spaces text) : skipSpace text = [] := by
  rw [← List.append_nil text, skipSpace_append spaces]
  rfl

private theorem skipSpace_opens {Names : α → List Char → Prop} (opens : Opens Names) {before text : List Char} {value : α}
    (spaces : Spaces before) (named : Names value text) (rest : List Char) :
    skipSpace (before ++ (text ++ rest)) = text ++ rest := by
  obtain ⟨c, tail, rfl, solid, _⟩ := opens value text named
  rw [skipSpace_append spaces, List.cons_append, skipSpace_cons solid]

private theorem readUnit_append {a b c d : Char} {n : Nat} (read : readUnit [a, b, c, d] = some (n, [])) (rest : List Char) :
    readUnit (a :: b :: c :: d :: rest) = some (n, rest) := by
  simp only [readUnit, Option.bind_eq_bind, Option.bind_eq_some_iff, Option.pure_def, Option.some.injEq, Prod.mk.injEq,
    and_true] at read
  obtain ⟨a', first, b', second, c', third, d', fourth, rfl⟩ := read
  simp [readUnit, first, second, third, fourth]

private theorem lookup_shortEscapes {letter c : Char} (listed : (letter, c) ∈ shortEscapes) :
    letter ≠ 'u' ∧ shortEscapes.lookup letter = some c := by
  simp only [shortEscapes, List.mem_cons, Prod.mk.injEq, List.not_mem_nil, or_false] at listed
  rcases listed with ⟨rfl, rfl⟩ | ⟨rfl, rfl⟩ | ⟨rfl, rfl⟩ | ⟨rfl, rfl⟩ | ⟨rfl, rfl⟩ | ⟨rfl, rfl⟩ | ⟨rfl, rfl⟩ | ⟨rfl, rfl⟩ <;>
    exact ⟨by decide, by decide⟩

private theorem readChar_spells {c : Char} {text : List Char} (spelled : SpellsChar c text) (rest : List Char) :
    readChar (text ++ rest) = some (c, rest) := by
  cases spelled with
  | plain printable notQuote notEscape => simp [readChar, notEscape, Nat.not_lt.mpr printable]
  | short listed =>
    obtain ⟨notUnit, found⟩ := lookup_shortEscapes listed
    simp [readChar, notUnit, found]
  | @unit _ _ _ _ n read whole =>
    have outside : ¬ (0xD800 ≤ n ∧ n < 0xE000) := by omega
    simp [readChar, readUnicode, readUnit_append read, outside]
  | pair readHigh readLow_ highFrom highTo lowFrom lowTo =>
    have inside := And.intro highFrom (Nat.lt_trans highTo (by decide : 0xDC00 < 0xE000))
    have halves := And.intro highTo (And.intro lowFrom lowTo)
    simp [readChar, readUnicode, readUnit_append readHigh, inside, readLow, readUnit_append readLow_, halves]

private theorem spells_head {c : Char} {text : List Char} (spelled : SpellsChar c text) (rest : List Char) :
    (text ++ rest).head? ≠ some '"' ∧ text ≠ [] := by
  cases spelled with
  | plain _ notQuote _ => simp [notQuote]
  | short | unit | pair => exact ⟨by simp, by simp⟩

private theorem spells_length {chars text : List Char} (spelled : Spells chars text) : chars.length ≤ text.length := by
  induction spelled with
  | nil => exact Nat.le_refl 0
  | cons char _ ih =>
    have some_ := List.length_pos_of_ne_nil (spells_head char []).2
    rw [List.length_append, List.length_cons]
    omega

private theorem readChars_spells {chars text : List Char} (spelled : Spells chars text) (rest : List Char) :
    ∀ fuel, chars.length < fuel → readChars fuel (text ++ '"' :: rest) = some (chars, rest) := by
  induction spelled with
  | nil =>
    intro fuel enough
    obtain ⟨fuel, rfl⟩ := Nat.exists_eq_succ_of_ne_zero (Nat.ne_of_gt enough)
    simp [readChars]
  | cons char _ ih =>
    intro fuel enough
    obtain ⟨fuel, rfl⟩ := Nat.exists_eq_succ_of_ne_zero (Nat.ne_of_gt (Nat.zero_lt_of_lt enough))
    rw [List.append_assoc, readChars, if_neg (spells_head char _).1]
    simp [readChar_spells char, ih fuel (Nat.lt_of_succ_lt_succ enough)]

theorem readQuoted_quoted {value : String} {text : List Char} (quoted : Quoted value text) (rest : List Char) :
    readQuoted (text ++ rest) = some (value, rest) := by
  obtain ⟨body, spelled, rfl⟩ := quoted
  have enough : value.toList.length < (body ++ '"' :: rest).length := by
    have := spells_length spelled
    rw [List.length_append, List.length_cons]
    omega
  simp only [List.cons_append, List.append_assoc, List.nil_append, readQuoted, readChars_spells spelled rest _ enough,
    Option.map_some, String.ofList_toList]

/-! ## Values are read -/

private theorem stops_of_not_number {c : Char} (plain : isNumberChar c = false) (rest : List Char) :
    Stops (c :: rest) := by
  intro d first
  cases first
  exact plain

private theorem stops_space {before : List Char} (spaces : Spaces before) {c : Char} (plain : isNumberChar c = false)
    (rest : List Char) : Stops (before ++ c :: rest) := by
  cases before with
  | nil => exact stops_of_not_number plain rest
  | cons d before =>
    have space := spaces d List.mem_cons_self
    simp only [isSpace, Bool.or_eq_true, decide_eq_true_eq] at space
    refine stops_of_not_number ?_ _
    rcases space with ((rfl | rfl) | rfl) | rfl <;> decide

private theorem separated_length {Names : α → List Char → Prop} {close : Char} {items : List α} {text : List Char}
    (rendered : Separated Names close items text) : items.length ≤ text.length := by
  induction rendered with
  | last =>
    simp only [List.length_append, List.length_cons, List.length_nil]
    omega
  | more _ _ _ _ ih =>
    simp only [List.length_append, List.length_cons] at ih ⊢
    omega

private theorem separated_reads {read : List Char → Option (α × List Char)} {Names : α → List Char → Prop}
    (reads : Reads read Names) {close : Char} (solid : isSpace close = false) (plain : isNumberChar close = false)
    (notComma : close ≠ ',') {items : List α} {text : List Char} (rendered : Separated Names close items text)
    (rest : List Char) : ∀ fuel, items.length ≤ fuel → separated read close fuel (text ++ rest) = some (items, rest) := by
  induction rendered with
  | @last item before text after spaces named spaces' =>
    intro fuel enough
    obtain ⟨fuel, rfl⟩ := Nat.exists_eq_succ_of_ne_zero (Nat.ne_of_gt enough)
    have found := reads item before text (after ++ close :: rest) spaces named (stops_space spaces' plain rest)
    simp [separated, found, skipSpace_append spaces', skipSpace_cons solid]
  | @more item next items before text after tail spaces named spaces' _ ih =>
    intro fuel enough
    obtain ⟨fuel, rfl⟩ := Nat.exists_eq_succ_of_ne_zero (Nat.ne_of_gt (Nat.zero_lt_of_lt enough))
    have found := reads item before text (after ++ ',' :: (tail ++ rest)) spaces named
      (stops_space spaces' (by decide) (tail ++ rest))
    simp [separated, found, skipSpace_append spaces', skipSpace_cons (by decide : isSpace ',' = false), notComma.symm,
      ih fuel (Nat.le_of_succ_le_succ enough)]

private theorem bracketed_reads {read : List Char → Option (α × List Char)} {Names : α → List Char → Prop}
    (reads : Reads read Names) (opens : Opens Names) {close : Char} (closes : close = ']' ∨ close = '}') {items : List α}
    {text : List Char} (rendered : Bracketed Names close items text) (rest : List Char) :
    bracketed read close (text ++ rest) = some (items, rest) := by
  have solid : isSpace close = false := by rcases closes with rfl | rfl <;> decide
  rcases rendered with ⟨rfl, space, spaces, rfl⟩ | rendered
  · simp [bracketed, skipSpace_append spaces, skipSpace_cons solid]
  · have first : (skipSpace (text ++ rest)).head? ≠ some close := by
      have starts : ∃ item before text' tail, Spaces before ∧ Names item text' ∧ text = before ++ (text' ++ tail) := by
        cases rendered with
        | last spaces named _ => exact ⟨_, _, _, _, spaces, named, rfl⟩
        | more spaces named _ _ => exact ⟨_, _, _, _, spaces, named, rfl⟩
      obtain ⟨item, before, text', tail, spaces, named, rfl⟩ := starts
      obtain ⟨c, rest', rfl, _, notBracket, notBrace⟩ := opens item text' named
      rw [List.append_assoc, List.append_assoc, skipSpace_opens opens spaces named, List.cons_append, List.head?_cons]
      rcases closes with rfl | rfl
      · simpa using notBracket
      · simpa using notBrace
    have enough : items.length ≤ (text ++ rest).length :=
      Nat.le_trans (separated_length rendered) (by rw [List.length_append]; exact Nat.le_add_right _ _)
    rw [bracketed, if_neg first]
    exact separated_reads reads solid (by rcases closes with rfl | rfl <;> decide)
      (by rcases closes with rfl | rfl <;> decide) rendered rest _ enough

private theorem opens_quoted : Opens Quoted := by
  rintro value text ⟨body, _, rfl⟩
  exact ⟨'"', _, rfl, by decide, by decide, by decide⟩

private theorem opens_member {Names : α → List Char → Prop} : Opens (Member Names) := by
  rintro member text ⟨key, before, after, quoted, _, _, _, rfl⟩
  obtain ⟨c, rest, rfl, opens⟩ := opens_quoted _ _ quoted
  exact ⟨c, _, rfl, opens⟩

private theorem readMember_reads {read : List Char → Option (α × List Char)} {Names : α → List Char → Prop}
    (reads : Reads read Names) (opens : Opens Names) : Reads (readMember read) (Member Names) := by
  rintro ⟨name, raw, value⟩ before text rest spaces ⟨key, between, after, quoted, spaces', spaces'', named, rfl⟩ stops
  have start := skipSpace_opens opens spaces'' named rest
  have found : read (raw ++ rest) = some (value, rest) := reads value [] raw rest (fun _ none_ => nomatch none_) named stops
  have token := skipSpace_opens opens_quoted spaces quoted (between ++ ':' :: (after ++ (raw ++ rest)))
  have raw_ : (raw ++ rest).take ((raw ++ rest).length - rest.length) = raw := by
    rw [List.length_append, Nat.add_sub_cancel, List.take_left]
  simp only [List.append_assoc, List.cons_append, readMember, token, readQuoted_quoted quoted, Option.bind_eq_bind,
    Option.bind_some, skipSpace_append spaces', skipSpace_cons (by decide : isSpace ':' = false), start, found, raw_,
    Option.pure_def]

private theorem isNumber_opens {token : List Char} (number : isNumber token = true) :
    ∃ c rest, token = c :: rest ∧ (c = '-' ∨ c.isDigit = true) := by
  cases token with
  | nil => exact absurd number (by decide)
  | cons c rest =>
    refine ⟨c, rest, rfl, ?_⟩
    by_cases minus : c = '-'
    · exact .inl minus
    · by_contra other
      have notDigit : c.isDigit = false := by simpa [minus] using other
      simp [isNumber, minus, notDigit] at number

private theorem numberChar_of_digit {c : Char} (digit : c.isDigit = true) : isNumberChar c = true := by
  simp [isNumberChar, digit]

private theorem mem_takeWhile_digit {text : List Char} {c : Char} (held : c ∈ text.takeWhile Char.isDigit) :
    isNumberChar c = true := numberChar_of_digit (List.mem_takeWhile_imp held)

private theorem isExponent_chars : ∀ {text : List Char}, isExponent text = true → ∀ c ∈ text, isNumberChar c = true
  | [], _, _, held => nomatch held
  | e :: rest, exponent, c, held => by
    simp only [isExponent, Bool.and_eq_true, Bool.or_eq_true, decide_eq_true_eq, List.all_eq_true] at exponent
    obtain ⟨⟨letter, _⟩, digits⟩ := exponent
    rcases List.mem_cons.mp held with rfl | later
    · rcases letter with rfl | rfl <;> decide
    · split at digits
      · case isTrue sign =>
        cases rest with
        | nil => cases later
        | cons s rest =>
          simp only [List.head?_cons, Option.some.injEq] at sign
          rcases List.mem_cons.mp later with rfl | last
          · rcases sign with rfl | rfl <;> decide
          · exact numberChar_of_digit (digits c last)
      · exact numberChar_of_digit (digits c later)

private theorem isFraction_chars {text : List Char} (fraction : isFraction text = true) :
    ∀ c ∈ text, isNumberChar c = true := by
  fun_cases isFraction text with
  | case1 rest =>
    simp only [isFraction, Bool.and_eq_true] at fraction
    intro c held
    rcases List.mem_cons.mp held with rfl | later
    · decide
    · rw [← List.takeWhile_append_dropWhile (p := Char.isDigit) (l := rest)] at later
      rcases List.mem_append.mp later with digit | exponent
      · exact mem_takeWhile_digit digit
      · exact isExponent_chars fraction.2 c exponent
  | case2 => exact isExponent_chars (by simpa [isFraction] using fraction)

private theorem isNumber_chars {token : List Char} (number : isNumber token = true) :
    ∀ c ∈ token, isNumberChar c = true := by
  simp only [isNumber, Bool.and_eq_true] at number
  intro c held
  have unsigned {text : List Char} (fraction : isFraction (text.dropWhile Char.isDigit) = true) (held : c ∈ text) :
      isNumberChar c = true := by
    rw [← List.takeWhile_append_dropWhile (p := Char.isDigit) (l := text)] at held
    rcases List.mem_append.mp held with digit | later
    · exact mem_takeWhile_digit digit
    · exact isFraction_chars fraction c later
  have fraction := number.2
  split at fraction
  · case isTrue minus =>
    cases token with
    | nil => cases held
    | cons d rest =>
      rcases List.mem_cons.mp held with rfl | later
      · cases minus
        decide
      · exact unsigned fraction later
  · exact unsigned fraction held

/-- The characters that a value can start with. -/
private theorem opens_renders (depth : Nat) : Opens (Renders depth) := by
  intro tree text rendered
  cases tree with
  | null =>
    unfold Renders at rendered
    exact ⟨'n', _, rendered, by decide, by decide, by decide⟩
  | bool value =>
    unfold Renders at rendered
    cases value with
    | true => exact ⟨'t', _, rendered, by decide, by decide, by decide⟩
    | false => exact ⟨'f', _, rendered, by decide, by decide, by decide⟩
  | number token =>
    unfold Renders at rendered
    obtain ⟨number, rfl⟩ := rendered
    obtain ⟨c, rest, rfl, rfl | digit⟩ := isNumber_opens number
    · exact ⟨'-', rest, rfl, by decide, by decide, by decide⟩
    · refine ⟨c, rest, rfl, ?_, ?_, ?_⟩
      · by_contra space
        simp only [isSpace, Bool.not_eq_false, Bool.or_eq_true, decide_eq_true_eq] at space
        rcases space with ((rfl | rfl) | rfl) | rfl <;> revert digit <;> decide
      · rintro rfl
        revert digit
        decide
      · rintro rfl
        revert digit
        decide
  | string value =>
    unfold Renders at rendered
    exact opens_quoted value text rendered
  | array items =>
    cases depth with
    | zero => exact rendered.elim
    | succ depth =>
      obtain ⟨inner, _, rfl⟩ := rendered
      exact ⟨'[', inner, rfl, by decide, by decide, by decide⟩
  | object members =>
    cases depth with
    | zero => exact rendered.elim
    | succ depth =>
      obtain ⟨found, inner, _, _, rfl⟩ := rendered
      exact ⟨'{', inner, rfl, by decide, by decide, by decide⟩

theorem readScalar_number {token rest : List Char} (number : isNumber token = true) (stops : Stops rest) :
    readScalar (token ++ rest) = some (.number token, rest) := by
  have chars := isNumber_chars number
  obtain ⟨c, tail, rfl, first⟩ := isNumber_opens number
  have notQuote : c ≠ '"' := by
    rintro rfl
    revert first
    decide
  have notWord : words.find? (fun word => word.1.isPrefixOf (c :: tail ++ rest)) = none := by
    refine List.find?_eq_none.mpr fun word listed begins => ?_
    have letter : ∃ d later, word.1 = d :: later ∧ (d = 'n' ∨ d = 't' ∨ d = 'f') := by
      simp only [words, List.mem_cons, List.not_mem_nil, or_false] at listed
      rcases listed with rfl | rfl | rfl
      · exact ⟨'n', _, rfl, .inl rfl⟩
      · exact ⟨'t', _, rfl, .inr (.inl rfl)⟩
      · exact ⟨'f', _, rfl, .inr (.inr rfl)⟩
    obtain ⟨d, later, same, kind⟩ := letter
    rw [same, List.cons_append] at begins
    obtain ⟨_, whole⟩ := List.isPrefixOf_iff_prefix.mp begins
    have equal : d = c := (List.cons.inj whole).1
    subst equal
    rcases kind with rfl | rfl | rfl <;> revert first <;> decide
  have token_ : (c :: tail ++ rest).takeWhile isNumberChar = c :: tail := by
    rw [List.takeWhile_append_of_pos chars]
    cases rest with
    | nil => simp
    | cons d rest => rw [List.takeWhile_cons_of_neg (by simp [stops d rfl]), List.append_nil]
  have rest_ : (c :: tail ++ rest).dropWhile isNumberChar = rest := by
    rw [List.dropWhile_append_of_pos chars]
    cases rest with
    | nil => rfl
    | cons d rest => exact List.dropWhile_cons_of_neg (by simp [stops d rfl])
  have first_ : (c :: tail ++ rest).head? ≠ some '"' := by simpa using notQuote
  unfold readScalar
  simp only [first_, if_false, notWord, token_, number, if_true, rest_]

private theorem readScalar_renders {depth : Nat} {tree : Tree} {text rest : List Char} (rendered : Renders depth tree text)
    (noArray : ∀ items, tree ≠ .array items) (noObject : ∀ members, tree ≠ .object members) (stops : Stops rest) :
    readScalar (text ++ rest) = some (tree, rest) := by
  cases tree with
  | null =>
    unfold Renders at rendered
    subst rendered
    rfl
  | bool value =>
    unfold Renders at rendered
    subst rendered
    cases value <;> rfl
  | number token =>
    unfold Renders at rendered
    obtain ⟨number, rfl⟩ := rendered
    exact readScalar_number number stops
  | string value =>
    unfold Renders at rendered
    have first : (text ++ rest).head? = some '"' := by
      obtain ⟨body, _, rfl⟩ := rendered
      rfl
    simp [readScalar, first, readQuoted_quoted rendered]
  | array items => exact absurd rfl (noArray items)
  | object members => exact absurd rfl (noObject members)

theorem readValue_of_scalar {depth : Nat} {text rest : List Char} {tree : Tree}
    (read : readScalar (skipSpace text) = some (tree, rest)) : readValue depth text = some (tree, rest) := by
  cases depth with
  | zero => exact read
  | succ depth =>
    unfold readValue
    split
    · next start => rw [start] at read; cases read
    · next start => rw [start] at read; cases read
    · exact read

theorem readValue_reads (depth : Nat) : Reads (readValue depth) (Renders depth) := by
  induction depth with
  | zero =>
    intro tree before text rest spaces rendered stops
    refine readValue_of_scalar ?_
    rw [skipSpace_opens (opens_renders 0) spaces rendered]
    refine readScalar_renders rendered ?_ ?_ stops
    · rintro _ rfl
      exact rendered
    · rintro _ rfl
      exact rendered
  | succ depth ih =>
    intro tree before text rest spaces rendered stops
    have start := skipSpace_opens (opens_renders (depth + 1)) spaces rendered rest
    cases tree with
    | array items =>
      obtain ⟨inner, bracketed_, rfl⟩ := rendered
      have read := bracketed_reads ih (opens_renders depth) (.inl rfl) bracketed_ rest
      rw [readValue, start]
      simp [read]
    | object members =>
      obtain ⟨found, inner, bracketed_, rfl, rfl⟩ := rendered
      have read := bracketed_reads (readMember_reads ih (opens_renders depth)) opens_member (.inr rfl) bracketed_ rest
      rw [readValue, start]
      simp [read]
    | null | bool | number | string =>
      refine readValue_of_scalar ?_
      rw [start]
      exact readScalar_renders rendered nofun nofun stops

/-! ## Documents -/

/-- The texts of a value with whitespace around it. -/
def DocumentOf (tree : Tree) (text : List Char) : Prop :=
  ∃ before inner after, Spaces before ∧ Renders maxNestingDepth tree inner ∧ Spaces after ∧
    text = before ++ (inner ++ after)

/-- The texts of an object with the given members and texts of their values. -/
def ObjectOf (members : List (String × List Char × Tree)) (text : List Char) : Prop :=
  ∃ before inner after, Spaces before ∧ Bracketed (Member (Renders (maxNestingDepth - 1))) '}' members inner ∧
    Spaces after ∧ text = before ++ ('{' :: inner ++ after)

private theorem stops_spaces {text : List Char} (spaces : Spaces text) : Stops text := by
  cases text with
  | nil => exact nofun
  | cons c text =>
    have first : Spaces [c] := fun d held => spaces d (List.mem_singleton.mp held ▸ List.mem_cons_self)
    have found := stops_space first (by decide : isNumberChar ',' = false) []
    intro d leads
    exact found d leads

theorem readDocument_of {tree : Tree} {text : List Char} (document : DocumentOf tree text) :
    readDocument text = some tree := by
  obtain ⟨before, inner, after, spaces, rendered, spaces', rfl⟩ := document
  have read := readValue_reads maxNestingDepth tree before inner after spaces rendered (stops_spaces spaces')
  simp [readDocument, whole, read, skipSpace_spaces spaces']

theorem readObject_of {members : List (String × List Char × Tree)} {text : List Char} (object : ObjectOf members text) :
    readObject text = some members := by
  obtain ⟨before, inner, after, spaces, rendered, spaces', rfl⟩ := object
  have start : skipSpace (before ++ ('{' :: inner ++ after)) = '{' :: (inner ++ after) := by
    rw [skipSpace_append spaces, List.cons_append, skipSpace_cons (by decide)]
  have read := bracketed_reads (readMember_reads (readValue_reads (maxNestingDepth - 1))
    (opens_renders (maxNestingDepth - 1))) opens_member (.inr rfl) rendered after
  simp only [readObject, start, read, whole, skipSpace_spaces spaces', List.isEmpty_nil, if_true]

private theorem separated_item {Names : α → List Char → Prop} {close : Char} {items : List α} {text : List Char}
    (rendered : Separated Names close items text) {item : α} (held : item ∈ items) :
    ∃ text', Names item text' ∧ text'.length < text.length := by
  induction rendered with
  | @last found before text after _ named _ =>
    rw [List.mem_singleton.mp held]
    refine ⟨text, named, ?_⟩
    simp only [List.length_append, List.length_singleton]
    omega
  | @more found next items before text after rest _ named _ _ ih =>
    rcases List.mem_cons.mp held with rfl | later
    · refine ⟨text, named, ?_⟩
      simp only [List.length_append, List.length_cons]
      omega
    · obtain ⟨text', named', short⟩ := ih later
      refine ⟨text', named', ?_⟩
      simp only [List.length_append, List.length_cons]
      omega

private theorem bracketed_item {Names : α → List Char → Prop} {close : Char} {items : List α} {text : List Char}
    (rendered : Bracketed Names close items text) {item : α} (held : item ∈ items) :
    ∃ text', Names item text' ∧ text'.length < text.length := by
  rcases rendered with ⟨rfl, _⟩ | rendered
  · cases held
  · exact separated_item rendered held

/-- An object with a member has more than its two braces. -/
theorem two_lt_length {depth : Nat} {members : List (String × Tree)} {text : List Char}
    (rendered : Renders depth (.object members) text) (some_ : members ≠ []) : 2 < text.length := by
  cases depth with
  | zero => exact rendered.elim
  | succ depth =>
    obtain ⟨found, inner, bracketed_, rfl, rfl⟩ := rendered
    cases found with
    | nil => exact absurd rfl some_
    | cons member found =>
      obtain ⟨text', named, short⟩ := bracketed_item bracketed_ List.mem_cons_self
      obtain ⟨c, rest, rfl, _⟩ := opens_member _ _ named
      rw [List.length_cons] at short ⊢
      omega

/-! ## Depth -/

private theorem separated_imp {Names Names' : α → List Char → Prop} (imp : ∀ item text, Names item text → Names' item text)
    {close : Char} {items : List α} {text : List Char} (rendered : Separated Names close items text) :
    Separated Names' close items text := by
  induction rendered with
  | last spaces named spaces' => exact .last spaces (imp _ _ named) spaces'
  | more spaces named spaces' _ ih => exact .more spaces (imp _ _ named) spaces' ih

private theorem bracketed_imp {Names Names' : α → List Char → Prop} (imp : ∀ item text, Names item text → Names' item text)
    {close : Char} {items : List α} {text : List Char} (rendered : Bracketed Names close items text) :
    Bracketed Names' close items text := rendered.imp_right (separated_imp imp)

private theorem member_imp {Names Names' : α → List Char → Prop} (imp : ∀ item text, Names item text → Names' item text)
    (member : String × List Char × α) (text : List Char) (rendered : Member Names member text) :
    Member Names' member text := by
  obtain ⟨key, before, after, quoted, spaces, spaces', named, whole⟩ := rendered
  exact ⟨key, before, after, quoted, spaces, spaces', imp _ _ named, whole⟩

private theorem renders_succ : ∀ (depth : Nat) (tree : Tree) (text : List Char), Renders depth tree text →
    Renders (depth + 1) tree text
  | _, .null, _, rendered | _, .bool _, _, rendered | _, .number _, _, rendered | _, .string _, _, rendered => by
    unfold Renders at rendered ⊢
    exact rendered
  | 0, .array _, _, rendered | 0, .object _, _, rendered => rendered.elim
  | depth + 1, .array _, _, ⟨inner, items, whole⟩ => ⟨inner, bracketed_imp (renders_succ depth) items, whole⟩
  | depth + 1, .object _, _, ⟨found, inner, members, same, whole⟩ =>
    ⟨found, inner, bracketed_imp (member_imp (renders_succ depth)) members, same, whole⟩

/-- More brackets may always be open. -/
theorem renders_mono {depth deeper : Nat} (le : depth ≤ deeper) {tree : Tree} {text : List Char}
    (rendered : Renders depth tree text) : Renders deeper tree text := by
  induction le with
  | refl => exact rendered
  | step _ ih => exact renders_succ _ _ _ ih

theorem spaces_nil : Spaces [] := nofun

/-- The text of a member's value is a document of its own. -/
theorem document_of_member {members : List (String × List Char × Tree)} {text raw : List Char} {tree : Tree} {key : String}
    (object : ObjectOf members text) (held : (key, raw, tree) ∈ members) : DocumentOf tree raw := by
  obtain ⟨_, _, _, _, rendered, _⟩ := object
  obtain ⟨_, ⟨_, _, _, _, _, _, value, _⟩, _⟩ := bracketed_item rendered held
  exact ⟨[], raw, [], spaces_nil, renders_succ _ _ _ value, spaces_nil, by simp⟩

end Ironsight.JsonReaderProofs
