import Mathlib.Data.List.Basic

/-! The text of SQL statements as the server reads it: words, quoted texts, numbered
placeholders and marks. A text is read character by character, so what a text of several
parts says follows from its parts (`scan_append`). -/
namespace Ironsight.SqlText

inductive Token where
  | word (letters : List Char)
  | quoted (letters : List Char)
  | param (digits : List Char)
  | mark (c : Char)
  deriving DecidableEq

/-- What has been read of the token that is open; `closing` has met an apostrophe, which
ends a quoted text unless another follows. -/
inductive Reading where
  | between
  | word (letters : List Char)
  | quoted (letters : List Char)
  | closing (letters : List Char)
  | param (digits : List Char)
  deriving DecidableEq

def isWordChar (c : Char) : Bool := c.isAlphanum || c = '_'

/-- A character outside of a token. -/
def opening (c : Char) : Reading × List Token :=
  if c = ' ' then (.between, [])
  else if c = '\'' then (.quoted [], [])
  else if c = '$' then (.param [], [])
  else if isWordChar c then (.word [c], [])
  else (.between, [.mark c])

def advance (reading : Reading) (c : Char) : Reading × List Token :=
  match reading with
  | .between => opening c
  | .word letters => if isWordChar c then (.word (letters ++ [c]), []) else ((opening c).1, .word letters :: (opening c).2)
  | .quoted letters => if c = '\'' then (.closing letters, []) else (.quoted (letters ++ [c]), [])
  | .closing letters => if c = '\'' then (.quoted (letters ++ [c]), []) else ((opening c).1, .quoted letters :: (opening c).2)
  | .param digits => if c.isDigit then (.param (digits ++ [c]), []) else ((opening c).1, .param digits :: (opening c).2)

def scan (reading : Reading) : List Char → Reading × List Token
  | [] => (reading, [])
  | c :: rest =>
    let first := advance reading c
    let later := scan first.1 rest
    (later.1, first.2 ++ later.2)

/-- The token that the end of the text ends; a quoted text is not ended by it. -/
def closed : Reading → Option (List Token)
  | .between => some []
  | .word letters => some [.word letters]
  | .quoted _ => none
  | .closing letters => some [.quoted letters]
  | .param digits => some [.param digits]

def tokens (text : List Char) : Option (List Token) :=
  (closed (scan .between text).1).map ((scan .between text).2 ++ ·)

def Token.digits : Token → Option (List Char)
  | .param digits => some digits
  | .word _ | .quoted _ | .mark _ => none

/-- The numbers of the placeholders, as they are written. -/
def placeholders (text : List Char) : Option (List (List Char)) :=
  (tokens text).map fun all => all.filterMap Token.digits

theorem scan_append (reading : Reading) (first second : List Char) : scan reading (first ++ second) =
    ((scan (scan reading first).1 second).1, (scan reading first).2 ++ (scan (scan reading first).1 second).2) := by
  induction first generalizing reading with
  | nil => rfl
  | cons c rest ih => simp [scan, ih]

theorem scan_digits {digits : List Char} (all : ∀ c ∈ digits, c.isDigit = true) (before : List Char) :
    scan (.param before) digits = (.param (before ++ digits), []) := by
  induction digits generalizing before with
  | nil => simp [scan]
  | cons c rest ih =>
    rw [List.forall_mem_cons] at all
    simp [scan, advance, all.1, ih all.2]

/-! ## Inserts -/

inductive Operand where
  | quoted (letters : List Char)
  | param (digits : List Char)
  deriving DecidableEq

def Operand.token : Operand → Token
  | .quoted letters => .quoted letters
  | .param digits => .param digits

/-- `INSERT INTO table (columns) VALUES (…), …`. -/
structure Insert where
  table : String
  columns : List String
  values : List (List Operand)

/-- A list in parentheses. -/
def listed (items : List Token) : List Token := .mark '(' :: items.intersperse (.mark ',') ++ [.mark ')']

def keyword (text : String) : Token := .word text.toList

def Insert.tokens (insert : Insert) : List Token :=
  [keyword "INSERT", keyword "INTO", keyword insert.table] ++ listed (insert.columns.map keyword) ++
    keyword "VALUES" :: [.mark ','].intercalate (insert.values.map fun tuple => listed (tuple.map Operand.token))

/-- The text is this insert. -/
def Denotes (text : List Char) (insert : Insert) : Prop := SqlText.tokens text = some insert.tokens

theorem intercalate_singleton_cons {τ : Type*} (separator : τ) (first : List τ) (rest : List (List τ)) :
    [separator].intercalate (first :: rest) = first ++ rest.flatMap (separator :: ·) := by
  induction rest generalizing first with
  | nil => simp [List.intercalate]
  | cons second rest ih =>
    rw [List.flatMap_cons, List.cons_append, ← ih second]
    simp [List.intercalate]

section Values
variable {α : Type*} (literal : String → α) (args : List α)

/-- What an operand stands for: `$1` is the first argument. -/
def Operand.value : Operand → Option α
  | .quoted letters => some (literal (String.ofList letters))
  | .param digits =>
    match Nat.ofDigitChars 10 digits 0 with
    | 0 => none
    | n + 1 => args[n]?

def tupleRow (columns : List String) (tuple : List Operand) : Option (List (String × α)) :=
  if tuple.length = columns.length then (tuple.mapM (Operand.value literal args)).map columns.zip else none

/-- The rows that an insert makes of its arguments, each as its columns with their values. -/
def Insert.rows (insert : Insert) : Option (List (List (String × α))) :=
  insert.values.mapM (tupleRow literal args insert.columns)

theorem value_quoted (text : String) : Operand.value literal args (.quoted text.toList) = some (literal text) := by
  rw [Operand.value, String.ofList_toList]

theorem value_param (n : Nat) :
    Operand.value literal args (.param (Nat.toDigits 10 (n + 1))) = args[n]? := by
  simp only [Operand.value, Nat.ofDigitChars_ten_toDigits]

end Values
end Ironsight.SqlText
