import Ironsight.Json

/-! What `json.Marshal` writes is in the grammar of the reader. -/
namespace Ironsight.JsonWritten
open JsonReader JsonReaderProofs

variable {α : Type}

/-- What `Json.bracketed` writes is a list of the grammar. -/
private theorem bracketed_written {β : Type} (Names : α → List Char → Prop) {encode : β → List Char} (name : β → α)
    (start close : Char) (items : List β) (written : ∀ item ∈ items, Names (name item) (encode item)) :
    ∃ inner, Bracketed Names close (items.map name) inner ∧ Json.bracketed encode start close items = start :: inner := by
  cases items with
  | nil => exact ⟨[close], .inl ⟨rfl, [], spaces_nil, rfl⟩, rfl⟩
  | cons item items =>
    refine ⟨_, .inr ?_, rfl⟩
    induction items generalizing item with
    | nil => exact .last spaces_nil (written item List.mem_cons_self) spaces_nil
    | cons next items ih =>
      exact .more spaces_nil (written item List.mem_cons_self) spaces_nil
        (ih next fun other held => written other (List.mem_cons_of_mem _ held))

private theorem member_written (Names : α → List Char → Prop) {key : String} {raw : List Char} {value : α}
    (written : Names value raw) : Member Names (key, raw, value) (Json.quote key ++ ':' :: raw) :=
  ⟨Json.quote key, [], [], Json.quoted_quote key, spaces_nil, spaces_nil, written, rfl⟩

/-- The value of a field. -/
def valueTree : Json.Value → Tree
  | .text value => .string value
  | .texts items => .array (items.map .string)
  | .map entries => .object (entries.map fun entry => (entry.1, .string entry.2))

theorem renders_string (depth : Nat) (value : String) : Renders depth (.string value) (Json.quote value) := by
  unfold Renders
  exact Json.quoted_quote value

private theorem plain_map {β : Type} {encode : β → List Char} (name : β → α) (entries : List (String × β)) :
    plain (entries.map fun entry => (entry.1, encode entry.2, name entry.2)) =
      entries.map fun entry => (entry.1, name entry.2) := by
  simp [plain, Function.comp_def]

private theorem renders_value (value : Json.Value) : Renders 1 (valueTree value) value.encode := by
  cases value with
  | text value => exact renders_string 1 value
  | texts items =>
    obtain ⟨inner, rendered, whole⟩ :=
      bracketed_written (Renders 0) Tree.string '[' ']' items fun item _ => renders_string 0 item
    exact ⟨inner, rendered, whole⟩
  | map entries =>
    obtain ⟨inner, rendered, whole⟩ :=
      bracketed_written (Member (Renders 0)) (fun entry => (entry.1, Json.quote entry.2, Tree.string entry.2)) '{' '}'
        entries fun entry _ => member_written (Renders 0) (renders_string 0 entry.2)
    exact ⟨_, inner, rendered, (plain_map Tree.string entries).symm, whole⟩

/-- What `json.Marshal` writes for a record is a text of its tree. -/
theorem renders_object (fields : List (String × Json.Value)) :
    Renders 2 (.object (fields.map fun field => (field.1, valueTree field.2))) (Json.object fields) := by
  obtain ⟨inner, rendered, whole⟩ :=
    bracketed_written (Member (Renders 1)) (fun field => (field.1, field.2.encode, valueTree field.2)) '{' '}' fields
      fun field _ => member_written (Renders 1) (renders_value field.2)
  exact ⟨_, inner, rendered, (plain_map valueTree fields).symm, whole⟩

/-- An object from the texts of its members. -/
def objectText (members : List (String × List Char × Tree)) : List Char :=
  Json.bracketed (fun member => Json.quote member.1 ++ ':' :: member.2.1) '{' '}' members

theorem objectOf_objectText {members : List (String × List Char × Tree)}
    (written : ∀ member ∈ members, Renders (maxNestingDepth - 1) member.2.2 member.2.1) :
    ObjectOf members (objectText members) := by
  obtain ⟨inner, rendered, whole⟩ :=
    bracketed_written (Member (Renders (maxNestingDepth - 1))) id '{' '}' members fun member held =>
      member_written (Renders (maxNestingDepth - 1)) (written member held)
  rw [List.map_id] at rendered
  refine ⟨[], inner, [], spaces_nil, rendered, spaces_nil, ?_⟩
  rw [List.append_nil, List.nil_append]
  exact whole

theorem renders_objectText {depth : Nat} {members : List (String × List Char × Tree)}
    (written : ∀ member ∈ members, Renders depth member.2.2 member.2.1) :
    Renders (depth + 1) (.object (plain members)) (objectText members) := by
  obtain ⟨inner, rendered, whole⟩ :=
    bracketed_written (Member (Renders depth)) id '{' '}' members fun member held =>
      member_written (Renders depth) (written member held)
  rw [List.map_id] at rendered
  exact ⟨members, inner, rendered, rfl, whole⟩

theorem renders_arrayText {depth : Nat} (items : List (List Char × Tree))
    (written : ∀ item ∈ items, Renders depth item.2 item.1) :
    Renders (depth + 1) (.array (items.map Prod.snd)) (Json.bracketed Prod.fst '[' ']' items) :=
  bracketed_written (Renders depth) Prod.snd '[' ']' items written

end Ironsight.JsonWritten
