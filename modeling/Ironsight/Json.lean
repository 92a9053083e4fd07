import Ironsight.JsonReaderProofs

/-! The texts that `json.Marshal` writes for strings, lists of strings and maps
and records of such. Every encoder here is delimited: after a value the reader
knows where it ended and which value it was, whatever follows, so two equal
texts come from equal values. -/
namespace Ironsight.Json
open JsonReader JsonReaderProofs

variable {α β : Type*}

/-- The text of a value ends where the value does. -/
def Delimited (encode : α → List Char) : Prop :=
  ∀ first second rest other, encode first ++ rest = encode second ++ other → first = second ∧ rest = other

theorem Delimited.injective {encode : α → List Char} (delimited : Delimited encode) : Function.Injective encode := by
  intro first second same
  exact (delimited first second [] [] (by rw [same])).1

/-! ## Strings -/

/-- One lower-case hexadecimal digit. -/
def hexDigit (n : Nat) : Char := Char.ofNat (if n < 10 then 48 + n else 87 + n)

/-- A character inside quotes, HTML-escaped as `Marshal` does by default. -/
def escape (c : Char) : List Char :=
  if c = '"' ∨ c = '\\' then ['\\', c]
  else if c = '\x08' then ['\\', 'b']
  else if c = '\x0c' then ['\\', 'f']
  else if c = '\n' then ['\\', 'n']
  else if c = '\r' then ['\\', 'r']
  else if c = '\t' then ['\\', 't']
  else if c.toNat < 32 ∨ c = '<' ∨ c = '>' ∨ c = '&' then
    ['\\', 'u', '0', '0', hexDigit (c.toNat / 16), hexDigit (c.toNat % 16)]
  else if c = '\u2028' ∨ c = '\u2029' then ['\\', 'u', '2', '0', '2', hexDigit (c.toNat % 16)]
  else [c]

def quote (text : String) : List Char := '"' :: (text.toList.flatMap escape ++ ['"'])

private theorem hexValue_hexDigit : ∀ n < 16, hexValue (hexDigit n) = some n := by decide

/-- `json.Marshal` spells characters in ways of the grammar. -/
theorem spells_escape (c : Char) : SpellsChar c (escape c) := by
  unfold escape
  split_ifs with quoted back form line ret tab control separator
  · rcases quoted with rfl | rfl <;> exact .short (by decide)
  · exact back ▸ .short (by decide)
  · exact form ▸ .short (by decide)
  · exact line ▸ .short (by decide)
  · exact ret ▸ .short (by decide)
  · exact tab ▸ .short (by decide)
  · have small : c.toNat < 256 := by
      rcases control with low | rfl | rfl | rfl
      · omega
      all_goals decide
    have read : readUnit ['0', '0', hexDigit (c.toNat / 16), hexDigit (c.toNat % 16)] = some (c.toNat, []) := by
      have zero : hexValue '0' = some 0 := by decide
      simp [readUnit, zero, hexValue_hexDigit (c.toNat / 16) (by omega), hexValue_hexDigit (c.toNat % 16) (by omega),
        Nat.div_add_mod']
    have spelled := SpellsChar.unit read (by omega)
    rwa [Char.ofNat_toNat] at spelled
  · rcases separator with rfl | rfl <;> exact .unit (by decide) (by decide)
  · simp only [not_or] at quoted control
    exact .plain (Nat.not_lt.mp control.1) quoted.1 quoted.2

theorem quoted_quote (value : String) : Quoted value (quote value) := by
  refine ⟨value.toList.flatMap escape, ?_, rfl⟩
  induction value.toList with
  | nil => exact .nil
  | cons c chars ih => exact .cons (spells_escape c) ih

/-- What follows a quoted text is what its reader leaves. -/
theorem quote_delimited : Delimited quote := by
  intro first second rest other same
  have read := congrArg readQuoted same
  rw [readQuoted_quoted (quoted_quote first), readQuoted_quoted (quoted_quote second), Option.some.injEq,
    Prod.mk.injEq] at read
  exact read

/-! ## Members, lists and objects -/

/-- A key with its value. -/
def member (encode : β → List Char) (entry : String × β) : List Char := quote entry.1 ++ ':' :: encode entry.2

theorem member_delimited {encode : β → List Char} (delimited : Delimited encode) : Delimited (member encode) := by
  rintro ⟨key, value⟩ ⟨otherKey, otherValue⟩ rest other same
  simp only [member, List.append_assoc, List.cons_append] at same
  obtain ⟨rfl, later⟩ := quote_delimited _ _ _ _ same
  obtain ⟨rfl, equal⟩ := delimited _ _ _ _ (List.cons.inj later).2
  exact ⟨rfl, equal⟩

/-- What follows the first item. -/
def others (encode : α → List Char) (close : Char) : List α → List Char
  | [] => [close]
  | item :: items => ',' :: (encode item ++ others encode close items)

/-- Items between brackets, separated by commas. -/
def bracketed (encode : α → List Char) (start close : Char) : List α → List Char
  | [] => [start, close]
  | item :: items => start :: (encode item ++ others encode close items)

private theorem others_delimited {encode : α → List Char} {close : Char} (delimited : Delimited encode)
    (distinct : close ≠ ',') : ∀ (first second : List α) (rest other : List Char),
      others encode close first ++ rest = others encode close second ++ other → first = second ∧ rest = other
  | [], [], rest, other, same => ⟨rfl, (List.cons.inj same).2⟩
  | [], item :: items, rest, other, same => absurd (List.cons.inj same).1 distinct
  | item :: items, [], rest, other, same => absurd (List.cons.inj same).1.symm distinct
  | item :: items, next :: later, rest, other, same => by
    simp only [others, List.cons_append, List.append_assoc, List.cons.injEq, true_and] at same
    obtain ⟨rfl, tail⟩ := delimited _ _ _ _ same
    obtain ⟨rfl, equal⟩ := others_delimited delimited distinct items later rest other tail
    exact ⟨rfl, equal⟩

/-- A list is delimited when its items are and do not look like its end. -/
theorem bracketed_delimited {encode : α → List Char} {start close : Char} (delimited : Delimited encode)
    (distinct : close ≠ ',') (marked : ∀ item, ∃ first tail, encode item = first :: tail ∧ first ≠ close) :
    Delimited (bracketed encode start close) := by
  have unlike (item : α) (tail rest : List Char) : encode item ++ tail ≠ close :: rest := by
    obtain ⟨first, letters, starts, differs⟩ := marked item
    rw [starts]
    exact fun same => differs (List.cons.inj same).1
  intro first second rest other same
  cases first with
  | nil =>
    cases second with
    | nil => exact ⟨rfl, (List.cons.inj (List.cons.inj same).2).2⟩
    | cons item items =>
      simp only [bracketed, List.cons_append, List.append_assoc, List.cons.injEq, true_and] at same
      exact absurd same.symm (unlike item _ _)
  | cons item items =>
    cases second with
    | nil =>
      simp only [bracketed, List.cons_append, List.append_assoc, List.cons.injEq, true_and] at same
      exact absurd same (unlike item _ _)
    | cons next later =>
      simp only [bracketed, List.cons_append, List.append_assoc, List.cons.injEq, true_and] at same
      obtain ⟨rfl, tail⟩ := delimited _ _ _ _ same
      obtain ⟨rfl, equal⟩ := others_delimited delimited distinct items later rest other tail
      exact ⟨rfl, equal⟩

/-- The values that occur in a record. -/
inductive Value where
  | text (value : String)
  | texts (items : List String)
  | map (entries : List (String × String))
  deriving DecidableEq

def Value.encode : Value → List Char
  | .text value => quote value
  | .texts items => bracketed quote '[' ']' items
  | .map entries => bracketed (member quote) '{' '}' entries

/-- A record with its fields in order. -/
def object (fields : List (String × Value)) : List Char := bracketed (member Value.encode) '{' '}' fields

private theorem texts_delimited : Delimited (bracketed quote '[' ']') :=
  bracketed_delimited quote_delimited (by decide) fun _ => ⟨'"', _, rfl, by decide⟩

private theorem map_delimited : Delimited (bracketed (member quote) '{' '}') :=
  bracketed_delimited (member_delimited quote_delimited) (by decide) fun _ => ⟨'"', _, rfl, by decide⟩

/-- The first character tells the kind of a value. -/
private theorem encode_head (value : Value) (rest : List Char) : (value.encode ++ rest).head? =
    some (match value with | .text _ => '"' | .texts _ => '[' | .map _ => '{') := by
  cases value with
  | text => rfl
  | texts items => cases items <;> rfl
  | map entries => cases entries <;> rfl

theorem value_delimited : Delimited Value.encode := by
  intro first second rest other same
  have heads := congrArg List.head? same
  rw [encode_head, encode_head] at heads
  cases first with
  | text value =>
    cases second with
    | text next =>
      obtain ⟨rfl, equal⟩ := quote_delimited value next rest other same
      exact ⟨rfl, equal⟩
    | texts | map => simp at heads
  | texts items =>
    cases second with
    | texts next =>
      obtain ⟨rfl, equal⟩ := texts_delimited items next rest other same
      exact ⟨rfl, equal⟩
    | text | map => simp at heads
  | map entries =>
    cases second with
    | map next =>
      obtain ⟨rfl, equal⟩ := map_delimited entries next rest other same
      exact ⟨rfl, equal⟩
    | text | texts => simp at heads

/-- Equal texts of records have equal fields. -/
theorem object_injective : Function.Injective object :=
  (bracketed_delimited (member_delimited value_delimited) (by decide) fun _ => ⟨'"', _, rfl, by decide⟩).injective

example : object [("id", .text "a<b"), ("cams", .texts ["x", "y"]), ("none", .map [])] =
    "\x7b\"id\":\"a\\u003cb\",\"cams\":[\"x\",\"y\"],\"none\":\x7b\x7d\x7d".toList := by decide +kernel

end Ironsight.Json
