import Mathlib.Data.List.Basic
import Mathlib.Data.List.TakeWhile

/-! Reading JSON as `json.Unmarshal` scans it, and the grammar of the texts that name a
value: any whitespace between the tokens and any spelling of a character. -/
namespace Ironsight.JsonReader

variable {α : Type}

/-- A JSON value; of an object all members, in their order. -/
inductive Tree where
  | null
  | bool (value : Bool)
  | number (token : List Char)
  | string (value : String)
  | array (items : List Tree)
  | object (members : List (String × Tree))

def isSpace (c : Char) : Bool := c = ' ' || c = '\t' || c = '\r' || c = '\n'

def skipSpace (text : List Char) : List Char := text.dropWhile isSpace

/-! ## The reader -/

/-- A hexadecimal digit of either case. -/
def hexValue (c : Char) : Option Nat :=
  if 48 ≤ c.toNat ∧ c.toNat ≤ 57 then some (c.toNat - 48)
  else if 97 ≤ c.toNat ∧ c.toNat ≤ 102 then some (c.toNat - 87)
  else if 65 ≤ c.toNat ∧ c.toNat ≤ 70 then some (c.toNat - 55)
  else none

/-- `getu4` after the `\u`. -/
def readUnit : List Char → Option (Nat × List Char)
  | a :: b :: c :: d :: rest => do
    let a ← hexValue a
    let b ← hexValue b
    let c ← hexValue c
    let d ← hexValue d
    return (((a * 16 + b) * 16 + c) * 16 + d, rest)
  | _ => none

/-- The low half of a surrogate pair, and the character of the pair. -/
def readLow (high : Nat) : List Char → Option (Char × List Char)
  | '\\' :: 'u' :: text => do
    let (low, rest) ← readUnit text
    if high < 0xDC00 ∧ 0xDC00 ≤ low ∧ low < 0xE000 then
      return (Char.ofNat (0x10000 + (high - 0xD800) * 0x400 + (low - 0xDC00)), rest)
    else none
  | _ => none

/-- A character by its code; half a surrogate pair counts as unreadable. -/
def readUnicode (text : List Char) : Option (Char × List Char) := do
  let (unit, rest) ← readUnit text
  if 0xD800 ≤ unit ∧ unit < 0xE000 then return (readLow unit rest).getD ('\uFFFD', rest)
  else return (Char.ofNat unit, rest)

def shortEscapes : List (Char × Char) :=
  [('"', '"'), ('\\', '\\'), ('/', '/'), ('b', '\x08'), ('f', '\x0c'), ('n', '\n'), ('r', '\r'), ('t', '\t')]

/-- One character between quotes. -/
def readChar : List Char → Option (Char × List Char)
  | [] => none
  | c :: rest =>
    if c = '\\' then
      match rest with
      | [] => none
      | letter :: rest =>
        if letter = 'u' then readUnicode rest else (shortEscapes.lookup letter).map fun found => (found, rest)
    else if c.toNat < 32 then none
    else some (c, rest)

/-- The characters up to the closing quote. -/
def readChars : Nat → List Char → Option (List Char × List Char)
  | 0, _ => none
  | fuel + 1, text =>
    if text.head? = some '"' then some ([], text.tail)
    else do
      let (c, rest) ← readChar text
      let (chars, rest) ← readChars fuel rest
      return (c :: chars, rest)

def readQuoted : List Char → Option (String × List Char)
  | '"' :: rest => (readChars rest.length rest).map fun (chars, rest) => (String.ofList chars, rest)
  | _ => none

def isNumberChar (c : Char) : Bool := c.isDigit || c = '-' || c = '+' || c = '.' || c = 'e' || c = 'E'

/-- What may stand after the fraction of a number. -/
def isExponent : List Char → Bool
  | [] => true
  | e :: rest =>
    let digits := if rest.head? = some '-' ∨ rest.head? = some '+' then rest.tail else rest
    (e = 'e' || e = 'E') && !digits.isEmpty && digits.all Char.isDigit

/-- What may stand after the whole part of a number. -/
def isFraction : List Char → Bool
  | '.' :: rest => !(rest.takeWhile Char.isDigit).isEmpty && isExponent (rest.dropWhile Char.isDigit)
  | rest => isExponent rest

def isNumber (token : List Char) : Bool :=
  let unsigned := if token.head? = some '-' then token.tail else token
  let whole := unsigned.takeWhile Char.isDigit
  (whole = ['0'] || (!whole.isEmpty && whole.head? ≠ some '0')) && isFraction (unsigned.dropWhile Char.isDigit)

def words : List (List Char × Tree) :=
  [("null".toList, .null), ("true".toList, .bool true), ("false".toList, .bool false)]

/-- A value without parts. -/
def readScalar (text : List Char) : Option (Tree × List Char) :=
  if text.head? = some '"' then (readQuoted text).map fun (value, rest) => (.string value, rest)
  else
    match words.find? fun word => word.1.isPrefixOf text with
    | some (word, tree) => some (tree, text.drop word.length)
    | none =>
      let token := text.takeWhile isNumberChar
      if isNumber token then some (.number token, text.dropWhile isNumberChar) else none

/-- Items up to the closing bracket. -/
def separated (read : List Char → Option (α × List Char)) (close : Char) : Nat → List Char → Option (List α × List Char)
  | 0, _ => none
  | fuel + 1, text => do
    let (item, rest) ← read text
    match skipSpace rest with
    | [] => none
    | c :: rest =>
      if c = close then return ([item], rest)
      else if c = ',' then
        let (items, rest) ← separated read close fuel rest
        return (item :: items, rest)
      else none

def bracketed (read : List Char → Option (α × List Char)) (close : Char) (text : List Char) : Option (List α × List Char) :=
  if (skipSpace text).head? = some close then some ([], (skipSpace text).tail)
  else separated read close text.length text

/-- A member of an object with the text of its value. -/
def readMember (read : List Char → Option (α × List Char)) (text : List Char) :
    Option ((String × List Char × α) × List Char) := do
  let (key, rest) ← readQuoted (skipSpace text)
  match skipSpace rest with
  | ':' :: rest =>
    let start := skipSpace rest
    let (value, rest) ← read start
    return ((key, start.take (start.length - rest.length), value), rest)
  | _ => none

/-- Without the texts of the values. -/
def plain (members : List (String × List Char × α)) : List (String × α) := members.map fun member => (member.1, member.2.2)

/-- A value with at most the given number of brackets open at a time. -/
def readValue : Nat → List Char → Option (Tree × List Char)
  | 0, text => readScalar (skipSpace text)
  | depth + 1, text =>
    match skipSpace text with
    | '[' :: rest => (bracketed (readValue depth) ']' rest).map fun (items, rest) => (.array items, rest)
    | '{' :: rest =>
      (bracketed (readMember (readValue depth)) '}' rest).map fun (members, rest) => (.object (plain members), rest)
    | start => readScalar start

/-- `maxNestingDepth`. -/
def maxNestingDepth : Nat := 10000

/-- Nothing but whitespace may follow a document. -/
def whole (read : Option (α × List Char)) : Option α :=
  match read with
  | some (value, rest) => if (skipSpace rest).isEmpty then some value else none
  | none => none

/-- The value that a whole text stands for. -/
def readDocument (text : List Char) : Option Tree := whole (readValue maxNestingDepth text)

/-- A document that is an object, with the texts of its members. -/
def readObject (text : List Char) : Option (List (String × List Char × Tree)) :=
  match skipSpace text with
  | '{' :: rest => whole (bracketed (readMember (readValue (maxNestingDepth - 1))) '}' rest)
  | _ => none

/-! ## The grammar -/

def Spaces (text : List Char) : Prop := ∀ c ∈ text, isSpace c = true

/-- The spellings of a character between quotes. -/
inductive SpellsChar : Char → List Char → Prop
  | plain {c : Char} : 32 ≤ c.toNat → c ≠ '"' → c ≠ '\\' → SpellsChar c [c]
  | short {letter c : Char} : (letter, c) ∈ shortEscapes → SpellsChar c ['\\', letter]
  | unit {a b c d : Char} {n : Nat} : readUnit [a, b, c, d] = some (n, []) → n < 0xD800 ∨ 0xE000 ≤ n →
      SpellsChar (Char.ofNat n) ['\\', 'u', a, b, c, d]
  | pair {a b c d a' b' c' d' : Char} {high low : Nat} : readUnit [a, b, c, d] = some (high, []) →
      readUnit [a', b', c', d'] = some (low, []) → 0xD800 ≤ high → high < 0xDC00 → 0xDC00 ≤ low → low < 0xE000 →
      SpellsChar (Char.ofNat (0x10000 + (high - 0xD800) * 0x400 + (low - 0xDC00)))
        ['\\', 'u', a, b, c, d, '\\', 'u', a', b', c', d']

inductive Spells : List Char → List Char → Prop
  | nil : Spells [] []
  | cons {c : Char} {chars text rest : List Char} : SpellsChar c text → Spells chars rest → Spells (c :: chars) (text ++ rest)

def Quoted (value : String) (text : List Char) : Prop := ∃ body, Spells value.toList body ∧ text = '"' :: (body ++ ['"'])

/-- Items with commas between them, up to the closing bracket. -/
inductive Separated (Names : α → List Char → Prop) (close : Char) : List α → List Char → Prop
  | last {item : α} {before text after : List Char} : Spaces before → Names item text → Spaces after →
      Separated Names close [item] (before ++ (text ++ (after ++ [close])))
  | more {item next : α} {items : List α} {before text after rest : List Char} : Spaces before → Names item text →
      Spaces after → Separated Names close (next :: items) rest →
      Separated Names close (item :: next :: items) (before ++ (text ++ (after ++ ',' :: rest)))

def Bracketed (Names : α → List Char → Prop) (close : Char) (items : List α) (text : List Char) : Prop :=
  (items = [] ∧ ∃ space, Spaces space ∧ text = space ++ [close]) ∨ Separated Names close items text

def Member (Names : α → List Char → Prop) (member : String × List Char × α) (text : List Char) : Prop :=
  ∃ key before after, Quoted member.1 key ∧ Spaces before ∧ Spaces after ∧ Names member.2.2 member.2.1 ∧
    text = key ++ (before ++ ':' :: (after ++ member.2.1))

/-- The texts of a value with at most the given number of brackets open at a time. -/
def Renders : Nat → Tree → List Char → Prop
  | _, .null, text => text = "null".toList
  | _, .bool value, text => text = (if value then "true" else "false").toList
  | _, .number token, text => isNumber token = true ∧ text = token
  | _, .string value, text => Quoted value text
  | 0, .array _, _ | 0, .object _, _ => False
  | depth + 1, .array items, text => ∃ inner, Bracketed (Renders depth) ']' items inner ∧ text = '[' :: inner
  | depth + 1, .object members, text =>
    ∃ found inner, Bracketed (Member (Renders depth)) '}' found inner ∧ members = plain found ∧ text = '{' :: inner

end Ironsight.JsonReader
