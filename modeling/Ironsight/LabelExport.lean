import Mathlib.Algebra.Order.BigOperators.Group.List
import Ironsight.JsonSpans
import Ironsight.JsonWritten
import Ironsight.LabelQueue
import Ironsight.RankedRows

/-! The export of the labels for training: a line of JSON for each label of a labelled job. The
answer that the model is to learn is JSON as well, put together by hand, and stands in the line
as a string. -/
namespace Ironsight.LabelExport
open JsonReader JsonReaderProofs Tables RankedRows
open Access (Instant)

/-- A value of a `JSONB` column, by its text as `json.Marshal` copies it: without whitespace
between the tokens. The two brackets around it in a line leave it the rest of the depth. -/
structure Jsonb where
  compact : List Char
  tree : Tree
  renders : Renders (maxNestingDepth - 2) tree compact
  oneLine : '\n' ∉ compact

/-- The default of `yolo_detections`. -/
def Jsonb.empty : Jsonb where
  compact := ['[', ']']
  tree := .array []
  renders := ⟨[']'], .inl ⟨rfl, [], spaces_nil, rfl⟩, rfl⟩
  oneLine := by decide

structure VLMLabelJob extends LabelQueue.VLMLabelJob where
  snapshotURL : String := ""
  vlmDescription : String := ""
  vlmThreat : String := ""
  yoloDetections : Jsonb := .empty

structure VLMLabel extends LabelQueue.VLMLabel where
  labeledAt : Instant := 0

/-- Jobs and the labels that refer to them. -/
structure Database where
  jobs : Table fun job : VLMLabelJob => job.id
  labels : List VLMLabel

/-- A row of the join. -/
structure Row where
  label : VLMLabel
  job : VLMLabelJob

def Row.finalDesc (row : Row) : String :=
  if row.label.correctedDescription ≠ "" then row.label.correctedDescription else row.job.vlmDescription

def Row.finalThreat (row : Row) : String :=
  if row.label.correctedThreat ≠ "" then row.label.correctedThreat else row.job.vlmThreat

def tagStr (tags : List String) : String := if 0 < tags.length then " Tags: " ++ ", ".intercalate tags ++ "." else ""

def systemPrompt : String :=
  "You are a security camera analyst. Describe what you observe in the image, assess the threat level, and recommend an action."

def userContent (row : Row) : String :=
  "<image>\nAnalyze this security camera frame. Site context: surveillance footage." ++ tagStr row.label.tags

/-- `strings.ReplaceAll(text, "\"", "\\\"")`. -/
def escapeQuotes (text : String) : List Char := text.toList.flatMap fun c => if c = '"' then ['\\', '"'] else [c]

def assistantContent (row : Row) : String :=
  String.ofList ("\x7b\"description\":\"".toList ++ escapeQuotes row.finalDesc ++ "\",\"threat_level\":\"".toList ++
    row.finalThreat.toList ++ "\",\"recommended_action\":\"Monitor and document.\"\x7d".toList)

/-- The text of a map, with its keys in order. -/
def mapText (entries : List (String × List Char)) : List Char := Json.bracketed (Json.member id) '{' '}' entries

def message (role content : String) : List Char := mapText [("content", Json.quote content), ("role", Json.quote role)]

/-- What the model is to be trained on: its instruction, a question and the answer. -/
def messages (row : Row) : List Char :=
  Json.bracketed id '[' ']'
    [message "system" systemPrompt, message "user" (userContent row), message "assistant" (assistantContent row)]

def metadata (row : Row) : List Char :=
  mapText [("snapshot_url", Json.quote row.job.snapshotURL), ("verdict", Json.quote row.label.verdict),
    ("yolo", row.job.yoloDetections.compact)]

/-- `json.Marshal(entry)`. -/
def line (row : Row) : List Char := mapText [("messages", messages row), ("metadata", metadata row)]

/-- `FROM vlm_labels l JOIN vlm_label_jobs j ON j.id = l.job_id WHERE …`. -/
def labelRows (verdictFilter : String) (db : Database) : List Row :=
  db.labels.filterMap fun label => (db.jobs.find? label.jobID).bind fun job =>
    if job.status = .labeled ∧ (verdictFilter = "" ∨ verdictFilter = "all" ∨ label.verdict = verdictFilter) then some ⟨label, job⟩
    else none

def encodingError : String := "ERROR: invalid byte sequence for encoding \"UTF8\": 0x00 (SQLSTATE 22021)"

/-- `ExportLabeledDataset`, with the order in which the query meets the rows. -/
def exportLabeledDataset (scan : Scan Row) (verdictFilter : String) (db : Database) : Except String (List Char) :=
  if verdictFilter.toList.contains '\x00' then .error encodingError
  else
    let rows := (scan.arrange (labelRows verdictFilter db)).insertionSort fun first second =>
      second.label.labeledAt ≤ first.label.labeledAt
    .ok (List.intercalate ['\n'] (rows.map line))

/-! ## What a reader of the export gets -/

/-- The member of a name; of several the last. -/
def lastOf (name : String) : Tree → Option Tree
  | .object members => members.reverse.lookup name
  | _ => none

def textOf (name : String) (tree : Tree) : Option String :=
  match lastOf name tree with
  | some (.string value) => some value
  | _ => none

/-- The content of the message that the assistant gives. -/
def assistantOf (tree : Tree) : Option String :=
  match lastOf "messages" tree with
  | some (.array items) => (items.find? fun item => textOf "role" item = some "assistant").bind (textOf "content")
  | _ => none

/-- A line teaches a description and a threat level. -/
def Teaches (text : List Char) (description threat : String) : Prop :=
  ∃ tree content answer, readDocument text = some tree ∧ assistantOf tree = some content ∧
    readDocument content.toList = some answer ∧ textOf "description" answer = some description ∧
    textOf "threat_level" answer = some threat

def linesOf (data : List Char) : List (List Char) := if data = [] then [] else data.splitOn '\n'

/-- There is one line for each row, and it teaches what the row has. -/
def WellFormed (rows : List Row) (data : List Char) : Prop :=
  ∃ ordered : List Row, ordered.Perm rows ∧
    List.Forall₂ (fun row text => Teaches text row.finalDesc row.finalThreat) ordered (linesOf data)

/-! ## The lines are read back -/

def messageTree (role content : String) : Tree := .object [("content", .string content), ("role", .string role)]

/-- What a line holds. -/
def lineTree (row : Row) : Tree :=
  .object [
    ("messages", .array [messageTree "system" systemPrompt, messageTree "user" (userContent row),
      messageTree "assistant" (assistantContent row)]),
    ("metadata", .object [("snapshot_url", .string row.job.snapshotURL), ("verdict", .string row.label.verdict),
      ("yolo", row.job.yoloDetections.tree)])]

private theorem renders_map (depth : Nat) (members : List (String × List Char × Tree))
    (written : ∀ member ∈ members, Renders depth member.2.2 member.2.1) :
    Renders (depth + 1) (.object (plain members)) (mapText (members.map fun member => (member.1, member.2.1))) := by
  have same : mapText (members.map fun member => (member.1, member.2.1)) = JsonWritten.objectText members := by
    cases members with
    | nil => rfl
    | cons first members =>
      have later (rest : List (String × List Char × Tree)) :
          Json.others (Json.member id) '\x7d' (rest.map fun member => (member.1, member.2.1)) =
            Json.others (fun member => Json.quote member.1 ++ ':' :: member.2.1) '\x7d' rest := by
        induction rest with
        | nil => rfl
        | cons next rest ih => simp only [List.map_cons, Json.others, ih, Json.member, id]
      simp only [mapText, JsonWritten.objectText, List.map_cons, Json.bracketed, later, Json.member, id]
  rw [same]
  exact JsonWritten.renders_objectText written

private theorem renders_message (depth : Nat) (role content : String) :
    Renders (depth + 1) (messageTree role content) (message role content) := by
  refine renders_map depth [("content", Json.quote content, .string content), ("role", Json.quote role, .string role)] ?_
  intro member held
  simp only [List.mem_cons, List.not_mem_nil, or_false] at held
  rcases held with rfl | rfl <;> exact JsonWritten.renders_string depth _

private theorem renders_messages (depth : Nat) (row : Row) :
    Renders (depth + 2) (.array [messageTree "system" systemPrompt, messageTree "user" (userContent row),
      messageTree "assistant" (assistantContent row)]) (messages row) := by
  refine JsonWritten.renders_arrayText [(message "system" systemPrompt, messageTree "system" systemPrompt),
    (message "user" (userContent row), messageTree "user" (userContent row)),
    (message "assistant" (assistantContent row), messageTree "assistant" (assistantContent row))] ?_
  intro item held
  simp only [List.mem_cons, List.not_mem_nil, or_false] at held
  rcases held with rfl | rfl | rfl <;> exact renders_message depth _ _

private theorem renders_metadata (row : Row) :
    Renders (maxNestingDepth - 1) (.object [("snapshot_url", .string row.job.snapshotURL), ("verdict", .string row.label.verdict),
      ("yolo", row.job.yoloDetections.tree)]) (metadata row) := by
  refine renders_map (maxNestingDepth - 2) [("snapshot_url", Json.quote row.job.snapshotURL, .string row.job.snapshotURL),
    ("verdict", Json.quote row.label.verdict, .string row.label.verdict),
    ("yolo", row.job.yoloDetections.compact, row.job.yoloDetections.tree)] ?_
  intro member held
  simp only [List.mem_cons, List.not_mem_nil, or_false] at held
  rcases held with rfl | rfl | rfl
  · exact JsonWritten.renders_string _ _
  · exact JsonWritten.renders_string _ _
  · exact row.job.yoloDetections.renders

private theorem readDocument_line (row : Row) : readDocument (line row) = some (lineTree row) := by
  refine readDocument_of ⟨[], line row, [], spaces_nil, ?_, spaces_nil, by simp⟩
  refine renders_map (maxNestingDepth - 1) [("messages", messages row, .array [messageTree "system" systemPrompt,
    messageTree "user" (userContent row), messageTree "assistant" (assistantContent row)]), ("metadata", metadata row, .object
    [("snapshot_url", .string row.job.snapshotURL), ("verdict", .string row.label.verdict), ("yolo", row.job.yoloDetections.tree)])] ?_
  intro member held
  simp only [List.mem_cons, List.not_mem_nil, or_false] at held
  rcases held with rfl | rfl
  · exact renders_messages (maxNestingDepth - 3) row
  · exact renders_metadata row

private theorem assistantOf_line (row : Row) : assistantOf (lineTree row) = some (assistantContent row) := by
  rfl

/-! ## Lines stay apart -/

private theorem hexDigit_ne : ∀ n < 16, '\n' ≠ Json.hexDigit n := by decide

private theorem escape_oneLine (c : Char) : '\n' ∉ Json.escape c := by
  unfold Json.escape
  split_ifs with quoted back form line_ ret tab control separator
  · rcases quoted with rfl | rfl <;> decide
  · decide
  · decide
  · decide
  · decide
  · decide
  · have small : c.toNat < 256 := by
      rcases control with low | rfl | rfl | rfl
      · omega
      all_goals decide
    simp [hexDigit_ne (c.toNat / 16) (by omega), hexDigit_ne (c.toNat % 16) (by omega)]
  · simp [hexDigit_ne (c.toNat % 16) (by omega)]
  · simpa using Ne.symm line_

private theorem quote_oneLine (text : String) : '\n' ∉ Json.quote text := by
  have inside : '\n' ∉ text.toList.flatMap Json.escape := by
    intro held
    obtain ⟨c, _, here⟩ := List.mem_flatMap.mp held
    exact escape_oneLine c here
  simp [Json.quote, inside]

private theorem bracketed_oneLine {β : Type} {encode : β → List Char} {start close : Char} (starts : '\n' ≠ start)
    (closes : '\n' ≠ close) {items : List β} (each : ∀ item ∈ items, '\n' ∉ encode item) :
    '\n' ∉ Json.bracketed encode start close items := by
  have later (rest : List β) (each : ∀ item ∈ rest, '\n' ∉ encode item) : '\n' ∉ Json.others encode close rest := by
    induction rest with
    | nil => simpa [Json.others] using closes
    | cons item rest ih =>
      have first := each item List.mem_cons_self
      have second := ih fun other held => each other (List.mem_cons_of_mem _ held)
      simp [Json.others, first, second]
  cases items with
  | nil => simp [Json.bracketed, starts, closes]
  | cons item items =>
    have first := each item List.mem_cons_self
    have second := later items fun other held => each other (List.mem_cons_of_mem _ held)
    simp [Json.bracketed, starts, first, second]

private theorem mapText_oneLine {entries : List (String × List Char)} (each : ∀ entry ∈ entries, '\n' ∉ entry.2) :
    '\n' ∉ mapText entries := by
  refine bracketed_oneLine (by decide) (by decide) fun entry held => ?_
  simp [Json.member, quote_oneLine, each entry held]

private theorem line_oneLine (row : Row) : '\n' ∉ line row := by
  have message_ (role content : String) : '\n' ∉ message role content := by
    refine mapText_oneLine fun entry held => ?_
    simp only [List.mem_cons, List.not_mem_nil, or_false] at held
    rcases held with rfl | rfl <;> exact quote_oneLine _
  have messages_ : '\n' ∉ messages row := by
    refine bracketed_oneLine (by decide) (by decide) fun item held => ?_
    simp only [List.mem_cons, List.not_mem_nil, or_false] at held
    rcases held with rfl | rfl | rfl <;> exact message_ _ _
  have metadata_ : '\n' ∉ metadata row := by
    refine mapText_oneLine fun entry held => ?_
    simp only [List.mem_cons, List.not_mem_nil, or_false] at held
    rcases held with rfl | rfl | rfl
    · exact quote_oneLine _
    · exact quote_oneLine _
    · exact row.job.yoloDetections.oneLine
  refine mapText_oneLine fun entry held => ?_
  simp only [List.mem_cons, List.not_mem_nil, or_false] at held
  rcases held with rfl | rfl
  · exact messages_
  · exact metadata_

theorem linesOf_intercalate (rows : List Row) : linesOf (List.intercalate ['\n'] (rows.map line)) = rows.map line := by
  cases rows with
  | nil => rfl
  | cons row rows =>
    have some_ : (row :: rows).map line ≠ [] := List.cons_ne_nil _ _
    have filled : List.intercalate ['\n'] ((row :: rows).map line) ≠ [] := by
      have line_ne_nil : line row ≠ [] := List.cons_ne_nil _ _
      cases rows <;> simp [List.intercalate, line_ne_nil]
    rw [linesOf, if_neg filled, List.splitOn_intercalate _ _ some_]
    intro text held
    obtain ⟨row, _, rfl⟩ := List.mem_map.mp held
    exact line_oneLine row

/-! ## The answer is read back when it has nothing to escape but quotes -/

/-- The texts that need no escapes but those that they get. -/
def Clean (row : Row) : Prop :=
  (∀ c ∈ row.finalDesc.toList, c ≠ '\\' ∧ 32 ≤ c.toNat) ∧ ∀ c ∈ row.finalThreat.toList, c ≠ '"' ∧ c ≠ '\\' ∧ 32 ≤ c.toNat

private theorem spells_escapeQuotes {text : String} (plain : ∀ c ∈ text.toList, c ≠ '\\' ∧ 32 ≤ c.toNat) :
    Spells text.toList (escapeQuotes text) := by
  unfold escapeQuotes
  generalize text.toList = chars at plain
  induction chars with
  | nil => exact .nil
  | cons c chars ih =>
    rw [List.flatMap_cons]
    refine .cons ?_ (ih fun d held => plain d (List.mem_cons_of_mem _ held))
    split
    · next quote =>
      subst quote
      exact .short (by decide)
    · next other => exact .plain (plain c List.mem_cons_self).2 other (plain c List.mem_cons_self).1

private theorem spells_self {chars : List Char} (plain : ∀ c ∈ chars, c ≠ '"' ∧ c ≠ '\\' ∧ 32 ≤ c.toNat) : Spells chars chars := by
  induction chars with
  | nil => exact .nil
  | cons c chars ih =>
    obtain ⟨unquoted, unescaped, printed⟩ := plain c List.mem_cons_self
    exact .cons (.plain printed unquoted unescaped) (ih fun d held => plain d (List.mem_cons_of_mem _ held))

private theorem joined {front middle back first second third last description threat : List Char}
    (opening : front = '\x7b' :: '"' :: (first ++ ['"', ':', '"']))
    (between : middle = '"' :: ',' :: '"' :: (second ++ ['"', ':', '"']))
    (closing : back = '"' :: ',' :: '"' :: (third ++ '"' :: ':' :: '"' :: (last ++ ['"', '\x7d']))) :
    front ++ description ++ middle ++ threat ++ back =
      '\x7b' :: '"' :: (first ++ '"' :: ':' :: '"' :: (description ++ '"' :: ',' :: '"' :: (second ++ '"' :: ':' :: '"' ::
        (threat ++ '"' :: ',' :: '"' :: (third ++ '"' :: ':' :: '"' :: (last ++ ['"', '\x7d'])))))) := by
  subst opening between closing
  simp only [List.append_assoc, List.cons_append, List.nil_append]

/-- The answer by its tokens. -/
private theorem toList_assistantContent (row : Row) : (assistantContent row).toList =
    '\x7b' :: '"' :: ("description".toList ++ '"' :: ':' :: '"' :: (escapeQuotes row.finalDesc ++ '"' :: ',' :: '"' ::
      ("threat_level".toList ++ '"' :: ':' :: '"' :: (row.finalThreat.toList ++ '"' :: ',' :: '"' ::
        ("recommended_action".toList ++ '"' :: ':' :: '"' :: ("Monitor and document.".toList ++ ['"', '\x7d'])))))) :=
  String.toList_ofList.trans (joined (by simp) (by simp) (by simp))

private theorem renders_answer {row : Row} (clean : Clean row) :
    Renders 1 (.object [("description", .string row.finalDesc), ("threat_level", .string row.finalThreat),
      ("recommended_action", .string "Monitor and document.")]) (assistantContent row).toList := by
  have description : Quoted row.finalDesc ('"' :: (escapeQuotes row.finalDesc ++ ['"'])) :=
    ⟨escapeQuotes row.finalDesc, spells_escapeQuotes clean.1, rfl⟩
  have threat : Quoted row.finalThreat ('"' :: (row.finalThreat.toList ++ ['"'])) :=
    ⟨row.finalThreat.toList, spells_self clean.2, rfl⟩
  have plainKey (text : String) (plain : ∀ c ∈ text.toList, c ≠ '"' ∧ c ≠ '\\' ∧ 32 ≤ c.toNat) :
      Quoted text ('"' :: (text.toList ++ ['"'])) := ⟨text.toList, spells_self plain, rfl⟩
  have member (key value : String) (text : List Char) (plain : ∀ c ∈ key.toList, c ≠ '"' ∧ c ≠ '\\' ∧ 32 ≤ c.toNat)
      (quoted : Quoted value text) :
      Member (Renders 0) (key, text, .string value) ('"' :: (key.toList ++ ['"']) ++ ([] ++ ':' :: ([] ++ text))) := by
    refine ⟨_, [], [], plainKey key plain, spaces_nil, spaces_nil, ?_, rfl⟩
    unfold Renders
    exact quoted
  have first := member "description" row.finalDesc _ (by simp) description
  have second := member "threat_level" row.finalThreat _ (by simp) threat
  have third := member "recommended_action" "Monitor and document." _ (by simp) (plainKey _ (by simp))
  refine ⟨_, _, .inr (.more spaces_nil first spaces_nil (.more spaces_nil second spaces_nil (.last spaces_nil third spaces_nil))),
    rfl, ?_⟩
  simp only [toList_assistantContent, List.append_assoc, List.cons_append, List.nil_append]

theorem teaches_of_clean {row : Row} (clean : Clean row) : Teaches (line row) row.finalDesc row.finalThreat := by
  refine ⟨_, _, _, readDocument_line row, assistantOf_line row, readDocument_of ⟨[], _, [], spaces_nil,
    renders_mono (by decide) (renders_answer clean), spaces_nil, by simp⟩, rfl, rfl⟩

/-! ## Every answer takes the room of its texts -/

private theorem textOf_mem {name value : String} {items : List (String × List Char × Tree)}
    (found : textOf name (.object (plain items)) = some value) : ∃ raw, (name, raw, .string value) ∈ items := by
  simp only [textOf, lastOf] at found
  split at found
  case h_2 => cases found
  case h_1 text looked =>
    obtain rfl := Option.some.inj found
    obtain ⟨before, after, split, _⟩ := List.lookup_eq_some_iff.mp looked
    have held : (name, Tree.string text) ∈ plain items := List.mem_reverse.mp (by simp [split])
    obtain ⟨⟨key, raw, tree⟩, member, same⟩ := List.mem_map.mp held
    cases same
    exact ⟨raw, member⟩

open JsonSpans in
private theorem three_le {items : List (String × List Char × Tree)} {first second third : String × List Char × Tree}
    (one : first ∈ items) (two : second ∈ items) (three : third ∈ items) (nodup : [first, second, third].Nodup) :
    leastMember first + leastMember second + leastMember third + 3 ≤ (items.map fun item => leastMember item + 1).sum := by
  have inside : [first, second, third].Subperm items := List.subperm_of_subset nodup (by simp [one, two, three])
  obtain ⟨part, perm, sublist⟩ := inside
  have whole := (sublist.map fun item => leastMember item + 1).sum_le_sum (fun _ _ => Nat.zero_le _)
  have same := (perm.map fun item => leastMember item + 1).sum_eq
  simp only [List.map_cons, List.map_nil, List.sum_cons, List.sum_nil] at same
  omega

open JsonSpans in
private theorem widths_le_of_teaches {row : Row} {description threat : String} (teaches : Teaches (line row) description threat) :
    widths description.toList + widths threat.toList ≤ (escapeQuotes row.finalDesc).length + row.finalThreat.toList.length := by
  obtain ⟨tree, content, answer, read, assistant, readAnswer, first, second⟩ := teaches
  obtain rfl := Option.some.inj ((readDocument_line row).symm.trans read)
  obtain rfl := Option.some.inj ((assistantOf_line row).symm.trans assistant)
  cases answer with
  | null | bool | number | string | array => cases first
  | object members =>
    obtain ⟨before, inner, items, rest, _, spaces, bracketed_, rfl, whole⟩ := readDocument_object readAnswer
    obtain ⟨raw, held⟩ := textOf_mem first
    obtain ⟨raw', held'⟩ := textOf_mem second
    rcases bracketed_ with ⟨rfl, _⟩ | listed
    · cases held
    · have ends : (before ++ ['\x7b']) ++ (inner ++ rest) = ('\x7b' :: '"' :: ("description".toList ++ '"' :: ':' :: '"' ::
          (escapeQuotes row.finalDesc ++ '"' :: ',' :: '"' :: ("threat_level".toList ++ '"' :: ':' :: '"' ::
            (row.finalThreat.toList ++ ['"']))))) ++ ',' :: '"' ::
              ("recommended_action".toList ++ '"' :: ':' :: '"' :: ("Monitor and document.".toList ++ ['"', '\x7d'])) := by
        rw [toList_assistantContent] at whole
        simp only [List.append_assoc, List.cons_append, List.nil_append, whole]
      obtain ⟨raw'', held''⟩ := last_member listed spaces (by simp) (by simp) ends
      have room := three_le held held' held'' (by simp)
      have inside := separated_length_le listed
      have length := congrArg List.length ends
      have names : widths "description".toList = "description".toList.length ∧
          widths "threat_level".toList = "threat_level".toList.length ∧
          widths "recommended_action".toList = "recommended_action".toList.length ∧
          widths "Monitor and document.".toList = "Monitor and document.".toList.length := by simp [widths, width]
      rw [leastMember_string, leastMember_string, leastMember_string, String.ofList_toList, String.ofList_toList, names.1, names.2.1,
        names.2.2.1, names.2.2.2] at room
      simp only [List.length_append, List.length_cons, List.length_nil] at length
      omega

/-! ## The export -/

private theorem length_escapeQuotes (text : String) :
    (escapeQuotes text).length = (text.toList.map fun c => if c = '"' then 2 else 1).sum := by
  rw [escapeQuotes, List.length_flatMap]
  refine congrArg List.sum (List.map_congr_left fun c _ => ?_)
  split <;> rfl

/-- Texts that are no longer than the other ones, and no shorter, are as long, one by one. -/
private theorem all_le_of_sum_le {β : Type} {f g : β → Nat} {l : List β} (le : ∀ x ∈ l, f x ≤ g x)
    (sums : (l.map g).sum ≤ (l.map f).sum) : ∀ x ∈ l, g x ≤ f x := by
  induction l with
  | nil => exact nofun
  | cons x l ih =>
    have rest : (l.map f).sum ≤ (l.map g).sum := List.sum_le_sum fun y held => le y (List.mem_cons_of_mem _ held)
    have first := le x List.mem_cons_self
    simp only [List.map_cons, List.sum_cons] at sums
    intro y held
    rcases List.mem_cons.mp held with rfl | later
    · omega
    · exact ih (fun z held => le z (List.mem_cons_of_mem _ held)) (by omega) y later

open JsonSpans

private theorem width_cases (c : Char) : width c = 2 ∧ (c = '"' ∨ c = '\\' ∨ c.toNat < 32) ∨
    width c = 1 ∧ c ≠ '"' ∧ c ≠ '\\' ∧ 32 ≤ c.toNat := by
  unfold width
  split
  · next special => exact .inl ⟨rfl, special⟩
  · next ordinary =>
    simp only [not_or, Nat.not_lt] at ordinary
    exact .inr ⟨rfl, ordinary⟩

private theorem description_le (c : Char) : (if c = '"' then 2 else 1) ≤ width c := by
  rcases width_cases c with ⟨two, _⟩ | ⟨one, unquoted, _⟩
  · split <;> omega
  · rw [if_neg unquoted, one]

private theorem threat_le (c : Char) : 1 ≤ width c := by
  rcases width_cases c with ⟨two, _⟩ | ⟨one, _⟩ <;> omega

private theorem length_escapeQuotes_le (text : String) : (escapeQuotes text).length ≤ widths text.toList := by
  rw [length_escapeQuotes]
  exact List.sum_le_sum fun c _ => description_le c

private theorem length_le_widths (chars : List Char) : chars.length ≤ widths chars := by
  rw [← List.length_map width]
  refine List.length_le_sum_of_one_le _ fun n held => ?_
  obtain ⟨c, _, rfl⟩ := List.mem_map.mp held
  exact threat_le c

/-- The texts of a row need more than they are given unless they are clean. -/
private theorem clean_of_room {row : Row} (room : widths row.finalDesc.toList + widths row.finalThreat.toList ≤
    (escapeQuotes row.finalDesc).length + row.finalThreat.toList.length) : Clean row := by
  have description := length_escapeQuotes_le row.finalDesc
  have threat := length_le_widths row.finalThreat.toList
  constructor
  · have tight : (row.finalDesc.toList.map width).sum ≤ (row.finalDesc.toList.map fun c => if c = '"' then 2 else 1).sum := by
      rw [← length_escapeQuotes, ← widths]
      omega
    intro c held
    have one := all_le_of_sum_le (fun c _ => description_le c) tight c held
    rcases width_cases c with ⟨two, special⟩ | ⟨_, _, plain⟩
    · rw [two] at one
      split at one
      · next quote => exact quote ▸ by decide
      · omega
    · exact plain
  · have tight : (row.finalThreat.toList.map width).sum ≤ (row.finalThreat.toList.map fun _ => 1).sum := by
      rw [← widths, List.map_const', List.sum_replicate_nat, Nat.mul_one]
      omega
    intro c held
    have one := all_le_of_sum_le (fun c _ => threat_le c) tight c held
    rcases width_cases c with ⟨two, _⟩ | ⟨_, plain⟩
    · omega
    · exact plain

private theorem wellFormed_lines_iff {rows ordered : List Row} (perm : ordered.Perm rows) :
    WellFormed rows (List.intercalate ['\n'] (ordered.map line)) ↔ ∀ row ∈ rows, Clean row := by
  rw [WellFormed, linesOf_intercalate]
  constructor
  · rintro ⟨taught, perm', teaches⟩
    let needed (row : Row) := widths row.finalDesc.toList + widths row.finalThreat.toList
    let given (row : Row) := (escapeQuotes row.finalDesc).length + row.finalThreat.toList.length
    have each : List.Forall₂ (· ≤ ·) (taught.map needed) (ordered.map given) := by
      rw [List.forall₂_map_left_iff, List.forall₂_map_right_iff]
      exact (List.forall₂_map_right_iff.mp teaches).imp fun row other teaches => widths_le_of_teaches teaches
    have sums : (ordered.map needed).sum ≤ (ordered.map given).sum := by
      rw [((perm.trans perm'.symm).map needed).sum_eq]
      exact each.sum_le_sum
    have le (row : Row) (_ : row ∈ ordered) : given row ≤ needed row :=
      Nat.add_le_add (length_escapeQuotes_le row.finalDesc) (length_le_widths row.finalThreat.toList)
    intro row held
    exact clean_of_room (all_le_of_sum_le le sums row (perm.mem_iff.mpr held))
  · intro clean
    refine ⟨ordered, perm, List.forall₂_map_right_iff.mpr (List.forall₂_same.mpr fun row held => ?_)⟩
    exact teaches_of_clean (clean row (perm.mem_iff.mp held))

/-- Every row has its line, which teaches the final description and threat level, exactly when no
description has a backslash or a control character, and no threat level one of them or a quote. -/
theorem exportLabeledDataset_wellFormed_iff {scan : Scan Row} {verdictFilter : String} {db : Database} {data : List Char}
    (exported : exportLabeledDataset scan verdictFilter db = .ok data) :
    WellFormed (labelRows verdictFilter db) data ↔ ∀ row ∈ labelRows verdictFilter db, Clean row := by
  unfold exportLabeledDataset at exported
  split at exported
  · cases exported
  · obtain rfl := Except.ok.inj exported
    exact wellFormed_lines_iff (ranked_newest scan (labelRows verdictFilter db)).perm

private def label : VLMLabel := { jobID := 1, annotatorID := .nil, verdict := "correct" }

private def job (description threat : String) : VLMLabelJob :=
  { id := 1, status := .labeled, vlmDescription := description, vlmThreat := threat }

private def oneLabel (description threat : String) : Database :=
  ⟨⟨[job description threat], List.pairwise_singleton _ _⟩, [label]⟩

private theorem labelRows_oneLabel (description threat : String) :
    labelRows "" (oneLabel description threat) = [⟨label, job description threat⟩] := rfl

private theorem export_oneLabel (description threat : String) :
    exportLabeledDataset .inOrder "" (oneLabel description threat) = .ok (line ⟨label, job description threat⟩) := by
  rw [exportLabeledDataset, labelRows_oneLabel, if_neg (by decide)]
  simp [Scan.inOrder, List.intercalate]

private def van : Row := ⟨label, job "a \"van\" at the gate" "low"⟩

/-- A label of a minute later, with a description of its own. -/
private def walker : Row where
  label := { label with jobID := 2, correctedDescription := "a \"person\" walks past", labeledAt := 60 * 1000000000 }
  job := { job "a person" "none" with id := 2 }

private def twoLabels : Database := ⟨⟨[van.job, walker.job], by decide⟩, [van.label, walker.label]⟩

private theorem labelRows_twoLabels : labelRows "" twoLabels = [van, walker] := rfl

private theorem export_twoLabels :
    exportLabeledDataset .inOrder "" twoLabels = .ok (List.intercalate ['\n'] [line walker, line van]) := by
  have later : ¬ walker.label.labeledAt ≤ van.label.labeledAt := by decide
  rw [exportLabeledDataset, labelRows_twoLabels, if_neg (by decide)]
  simp [Scan.inOrder, later]

/-- Quotes in a description of the model and in one of an annotator. -/
theorem quotes_survive : WellFormed (labelRows "" twoLabels) (List.intercalate ['\n'] [line walker, line van]) := by
  refine (exportLabeledDataset_wellFormed_iff export_twoLabels).mpr ?_
  rw [labelRows_twoLabels, List.forall_mem_cons, List.forall_mem_singleton]
  exact ⟨⟨by simp [Row.finalDesc, van, label, job], by simp [Row.finalThreat, van, label, job]⟩,
    ⟨by simp [Row.finalDesc, walker, label, job], by simp [Row.finalThreat, walker, label, job]⟩⟩

/-- A line break in a description goes into the answer as it is. -/
theorem lineBreak_breaks : ¬ ∀ (scan : Scan Row) (verdictFilter : String) (db : Database) (data : List Char),
    exportLabeledDataset scan verdictFilter db = .ok data → WellFormed (labelRows verdictFilter db) data := by
  intro holds
  have wellFormed := holds _ _ _ _ (export_oneLabel "a van\nat the gate" "low")
  have single : List.intercalate ['\n'] ([⟨label, job "a van\nat the gate" "low"⟩].map line) =
      line ⟨label, job "a van\nat the gate" "low"⟩ := by simp [List.intercalate]
  rw [labelRows_oneLabel, ← single] at wellFormed
  have clean := (wellFormed_lines_iff (.refl _)).mp wellFormed _ (List.mem_singleton.mpr rfl)
  exact absurd (clean.1 '\n' (by simp [Row.finalDesc, label, job])).2 (by decide)

end Ironsight.LabelExport
