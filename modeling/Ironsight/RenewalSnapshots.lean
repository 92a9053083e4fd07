import Ironsight.EventMessages

/-! Which snapshots at the renewal of a subscription are dropped. The filter looks at the last
item of every name, so that an active item in front of an inactive one is overlooked. -/
namespace Ironsight.RenewalSnapshots
open Tables PpeWorker EventMessages

variable {F : Type} {lib : Library F} {scan : Scan (String × Detail F)}

/-! ## Items -/

/-- The `SimpleItem` of a token, if it has a name. -/
def itemOf : Token → Option (String × String)
  | .start name attrs => if name = "SimpleItem" ∧ (simpleItem attrs).1 ≠ "" then some (simpleItem attrs) else none
  | _ => none

def itemsOf (lib : Library F) (msg : Message) : List (String × String) := (innerTokens lib msg.innerXML).filterMap itemOf

/-- The items whose names start with `is` in whatever case. -/
def stateItems (lib : Library F) (msg : Message) : List (String × String) :=
  (itemsOf lib msg).filter fun item => isKey (lib.toLower item.1)

/-- A snapshot that shows nothing active. -/
def Quiet (lib : Library F) (msg : Message) : Prop :=
  msg.propertyOperation = "Initialized" ∧ stateItems lib msg ≠ [] ∧ ∀ item ∈ stateItems lib msg, inactive lib item.2 = true

instance (lib : Library F) (msg : Message) : Decidable (Quiet lib msg) := inferInstanceAs (Decidable (_ ∧ _ ∧ _))

/-- Every message is dropped or becomes its event, in order. -/
def FilteredExactly [Float64 F] (lib : Library F) (scan : Scan (String × Detail F)) (msgs : List Message) : Prop :=
  parseNotificationMessages lib scan msgs = (msgs.filter fun msg => ¬ Quiet lib msg).map (eventOf lib)

/-- The value that stays under a key. -/
def lastValue (lib : Library F) (key : String) (items : List (String × String)) : Option String :=
  (items.filter fun item => lib.toLower item.1 = key).getLast?.map Prod.snd

/-- A snapshot with an active item, of which the last item of every such name is inactive. -/
def Shadowed (lib : Library F) (msg : Message) : Prop :=
  msg.propertyOperation = "Initialized" ∧ (∃ item ∈ stateItems lib msg, inactive lib item.2 = false) ∧
    ∀ item ∈ stateItems lib msg, ∀ value ∈ lastValue lib (lib.toLower item.1) (itemsOf lib msg), inactive lib value = true

/-! ## The map of items -/

private theorem mem_addItem {details : Details F} {item : String × String} {key : String} {raw : Detail F}
    (own : isKey key = true) : (key, raw) ∈ addItem lib details item ↔
      lib.toLower item.1 = key ∧ raw = .text item.2 ∨ lib.toLower item.1 ≠ key ∧ (key, raw) ∈ details := by
  have notPlate : key ≠ "plate_number" := by
    rintro rfl
    cases own
  unfold addItem
  simp only
  split
  · rw [Table.mem_put, Table.mem_put]
    simp [notPlate]
    tauto
  · rw [Table.mem_put]
    simp
    tauto

private theorem lastValue_concat (key : String) (items : List (String × String)) (item : String × String) :
    lastValue lib key (items ++ [item]) = if lib.toLower item.1 = key then some item.2 else lastValue lib key items := by
  unfold lastValue
  rw [List.filter_append]
  split
  case isTrue same => simp [same]
  case isFalse other => simp [other]

/-- Under a key that starts with `is` stands the last value of its name. -/
private theorem mem_foldl_addItem {details : Details F} (fresh : ∀ entry ∈ details, isKey entry.1 = false)
    (items : List (String × String)) {key : String} {raw : Detail F} (own : isKey key = true) :
    (key, raw) ∈ items.foldl (addItem lib) details ↔ ∃ value, lastValue lib key items = some value ∧ raw = .text value := by
  induction items using List.reverseRecOn with
  | nil =>
    refine iff_of_false (fun held => ?_) (by simp [lastValue])
    rw [fresh _ held] at own
    cases own
  | append_singleton items item ih =>
    rw [List.foldl_append, List.foldl_cons, List.foldl_nil, mem_addItem own, ih, lastValue_concat]
    by_cases same : lib.toLower item.1 = key
    · simp [same]
    · simp [same]

private theorem exists_lastValue (lib : Library F) {items : List (String × String)} {item : String × String} (held : item ∈ items) :
    ∃ value, lastValue lib (lib.toLower item.1) items = some value := by
  have own : item ∈ items.filter fun other => lib.toLower other.1 = lib.toLower item.1 :=
    List.mem_filter.mpr ⟨held, decide_eq_true rfl⟩
  cases last : (items.filter fun other => lib.toLower other.1 = lib.toLower item.1).getLast? with
  | none =>
    rw [List.getLast?_eq_none_iff.mp last] at own
    cases own
  | some other => exact ⟨other.2, by simp [lastValue, last]⟩

/-- The item whose value stays is an item of the message. -/
private theorem item_of_lastValue {key value : String} {items : List (String × String)}
    (last : lastValue lib key items = some value) : ∃ item ∈ items, lib.toLower item.1 = key ∧ item.2 = value := by
  obtain ⟨item, found, rfl⟩ := Option.map_eq_some_iff.mp last
  obtain ⟨held, same⟩ := List.mem_filter.mp (List.mem_of_getLast? found)
  exact ⟨item, held, of_decide_eq_true same, rfl⟩

/-! ## The filter -/

private theorem noneActive_iff {sawBool : Bool} {details : List (String × Detail F)} :
    noneActive lib sawBool details = true ↔
    (∀ key value, (key, .text value) ∈ details → isKey key = true → inactive lib value = true) ∧
      (sawBool = true ∨ ∃ key value, (key, .text value) ∈ details ∧ isKey key = true) := by
  induction details generalizing sawBool with
  | nil => simp [noneActive]
  | cons entry details ih =>
    obtain ⟨key, raw⟩ := entry
    by_cases own : isKey key = true
    · cases raw with
      | boxes boxes => simp [noneActive, own, ih]
      | text s =>
        by_cases quiet : inactive lib s = true
        · simp only [noneActive, own, quiet, if_true, ih, List.mem_cons]
          constructor
          · rintro ⟨all, _⟩
            refine ⟨?_, .inr ⟨key, s, .inl rfl, own⟩⟩
            rintro other value (same | held)
            · obtain ⟨_, same⟩ := Prod.mk.inj same
              obtain rfl := Detail.text.inj same
              exact fun _ => quiet
            · exact all other value held
          · rintro ⟨all, _⟩
            exact ⟨fun other value held => all other value (.inr held), .inl trivial⟩
        · have stops : noneActive lib sawBool ((key, .text s) :: details) = false := by simp [noneActive, own, quiet]
          rw [stops]
          exact iff_of_false Bool.false_ne_true fun ⟨all, _⟩ => quiet (all key s List.mem_cons_self own)
    · have passes : noneActive lib sawBool ((key, raw) :: details) = noneActive lib sawBool details := by
        simp [noneActive, own]
      have later {other : String} {value : String} (front : isKey other = true) :
          (other, Detail.text value) ∈ (key, raw) :: details ↔ (other, Detail.text value) ∈ details := by
        rw [List.mem_cons]
        refine or_iff_right fun same => own ?_
        rw [← (Prod.mk.inj same).1]
        exact front
      rw [passes, ih]
      refine and_congr ?_ (or_congr_right ?_)
      · exact forall₂_congr fun other value => ⟨fun all held front => all ((later front).mp held) front,
          fun all held front => all ((later front).mpr held) front⟩
      · exact exists₂_congr fun other value => and_congr_left fun front => (later front).symm

private theorem not_quiet_of_shadowed {msg : Message} (shadowed : Shadowed lib msg) : ¬ Quiet lib msg := by
  obtain ⟨_, ⟨item, held, active⟩, _⟩ := shadowed
  intro quiet
  rw [quiet.2.2 item held] at active
  cases active

private theorem classifyEvent_ne_empty (topic : String) : classifyEvent lib topic ≠ "" := by
  unfold classifyEvent
  split
  case h_1 entry found =>
    have named : ∀ entry ∈ eventTypes, entry.2 ≠ "" := by decide
    exact named entry (List.mem_of_find?_eq_some found)
  case h_2 => decide

private theorem own_isKey (msg : Message) : ∀ entry ∈ (ownDetails msg : Details F), isKey entry.1 = false := by
  intro entry held
  rw [ownDetails, Table.mem_put, Table.mem_put, Table.mem_put] at held
  rcases held with rfl | ⟨rfl | ⟨rfl | ⟨none_, _⟩, _⟩, _⟩
  · exact (by decide : isKey "property_operation" = false)
  · exact (by decide : isKey "raw" = false)
  · exact (by decide : isKey "topic" = false)
  · cases none_

variable [Float64 F]

/-- The loop over the tokens touches the details with the items only. -/
private theorem details_parseToken (s : State F) (token : Token) : (parseToken lib s token).details =
    match itemOf token with
    | some item => addItem lib s.details item
    | none => s.details := by
  cases token with
  | start name attrs =>
    simp only [parseToken, itemOf]
    split_ifs <;> simp_all
  | end_ name =>
    simp only [parseToken, itemOf]
    split <;> rfl
  | charData text =>
    simp only [parseToken, itemOf]
    split <;> rfl

private theorem details_foldl (tokens : List Token) (s : State F) :
    (tokens.foldl (parseToken lib) s).details = (tokens.filterMap itemOf).foldl (addItem lib) s.details := by
  induction tokens generalizing s with
  | nil => rfl
  | cons token tokens ih =>
    rw [List.foldl_cons, ih, details_parseToken, List.filterMap_cons]
    cases itemOf token with
    | none => rfl
    | some item => rfl

private theorem mem_details {msg : Message} {key : String} {raw : Detail F} (own : isKey key = true) :
    (key, raw) ∈ (eventOf lib msg).details ↔ ∃ value, lastValue lib key (itemsOf lib msg) = some value ∧ raw = .text value := by
  have notBoxes : key ≠ "bounding_boxes" := by
    rintro rfl
    cases own
  rw [← mem_foldl_addItem (own_isKey msg) (itemsOf lib msg) own, itemsOf,
    ← details_foldl _ ⟨ownDetails msg, false, emptyObject, []⟩]
  simp only [eventOf, parseDataItems]
  split
  · rfl
  · rw [Table.mem_put]
    simp [notBoxes]

/-- What the filter drops: snapshots of which the last item of every name that starts with `is`
is inactive. -/
theorem isInitializedNoEventState_iff (msg : Message) :
    isInitializedNoEventState lib scan msg.propertyOperation (eventOf lib msg).details = true ↔
      msg.propertyOperation = "Initialized" ∧ stateItems lib msg ≠ [] ∧ ∀ item ∈ stateItems lib msg,
        ∀ value ∈ lastValue lib (lib.toLower item.1) (itemsOf lib msg), inactive lib value = true := by
  unfold isInitializedNoEventState
  by_cases initialized : msg.propertyOperation = "Initialized"
  case neg => simp [initialized]
  rw [if_neg (not_not.mpr initialized), noneActive_iff]
  have listed {key : String} {raw : Detail F} (own : isKey key = true) :
      (key, raw) ∈ scan.arrange (eventOf lib msg).details.rows ↔
        ∃ value, lastValue lib key (itemsOf lib msg) = some value ∧ raw = .text value :=
    (scan.perm _).mem_iff.trans (mem_details own)
  have some_ : (∃ key value, (key, Detail.text value) ∈ scan.arrange (eventOf lib msg).details.rows ∧ isKey key = true) ↔
      stateItems lib msg ≠ [] := by
    constructor
    · rintro ⟨key, value, held, own⟩
      obtain ⟨value, last, _⟩ := (listed own).mp held
      obtain ⟨item, found, rfl, _⟩ := item_of_lastValue last
      exact List.ne_nil_of_mem (List.mem_filter.mpr ⟨found, own⟩)
    · intro given
      obtain ⟨item, found⟩ := List.exists_mem_of_ne_nil _ given
      obtain ⟨held, own⟩ := List.mem_filter.mp found
      obtain ⟨value, last⟩ := exists_lastValue lib held
      exact ⟨_, value, (listed own).mpr ⟨value, last, rfl⟩, own⟩
  simp only [initialized, true_and, Bool.false_eq_true, false_or, some_]
  rw [and_comm]
  refine and_congr_right fun _ => ⟨fun all item found value last => ?_, fun all key value held own => ?_⟩
  · obtain ⟨_, own⟩ := List.mem_filter.mp found
    exact all _ value ((listed own).mpr ⟨value, last, rfl⟩) own
  · obtain ⟨value', last, same⟩ := (listed own).mp held
    obtain rfl := Detail.text.inj same
    obtain ⟨item, found, rfl, _⟩ := item_of_lastValue last
    exact all item (List.mem_filter.mpr ⟨found, own⟩) value last

/-! ## Responses -/

/-- The filter keeps the order and leaves nothing else out. -/
theorem parseNotificationMessages_eq (msgs : List Message) : parseNotificationMessages lib scan msgs =
    (msgs.filter fun msg => !isInitializedNoEventState lib scan msg.propertyOperation (eventOf lib msg).details).map
      (eventOf lib) := by
  unfold parseNotificationMessages
  induction msgs using List.reverseRecOn with
  | nil => rfl
  | append_singleton msgs msg ih =>
    rw [List.foldl_append, ih, List.filter_append, List.map_append]
    have typed : (eventOf lib msg).type ≠ "" := classifyEvent_ne_empty msg.topic
    cases dropped : isInitializedNoEventState lib scan msg.propertyOperation (eventOf lib msg).details with
    | true => simp [dropped]
    | false => simp [dropped, typed]

/-- A quiet snapshot is dropped, and a dropped one that is not quiet is shadowed. -/
private theorem dropped_iff (msg : Message) :
    isInitializedNoEventState lib scan msg.propertyOperation (eventOf lib msg).details = true ↔
      Quiet lib msg ∨ Shadowed lib msg := by
  rw [isInitializedNoEventState_iff]
  constructor
  · rintro ⟨initialized, given, last⟩
    by_cases quiet : ∀ item ∈ stateItems lib msg, inactive lib item.2 = true
    · exact .inl ⟨initialized, given, quiet⟩
    · push Not at quiet
      obtain ⟨item, held, active⟩ := quiet
      exact .inr ⟨initialized, ⟨item, held, by simpa using active⟩, last⟩
  · rintro (⟨initialized, given, quiet⟩ | ⟨initialized, ⟨item, held, _⟩, last⟩)
    · refine ⟨initialized, given, fun item held value last => ?_⟩
      obtain ⟨_, own⟩ := List.mem_filter.mp held
      obtain ⟨other, found, same, rfl⟩ := item_of_lastValue last
      exact quiet other (List.mem_filter.mpr ⟨found, by simpa [same] using own⟩)
    · exact ⟨initialized, List.ne_nil_of_mem held, last⟩

/-- Exactly the responses without a shadowed snapshot are filtered as they should be: what a
later item of the same name hides is not seen, and the message is dropped. -/
theorem filteredExactly_iff (lib : Library F) (scan : Scan (String × Detail F)) (msgs : List Message) :
    FilteredExactly lib scan msgs ↔ ∀ msg ∈ msgs, ¬ Shadowed lib msg := by
  unfold FilteredExactly
  rw [parseNotificationMessages_eq]
  constructor
  · intro same msg held shadowed
    have fewer : (msgs.filter fun msg =>
        !isInitializedNoEventState lib scan msg.propertyOperation (eventOf lib msg).details).Sublist
          (msgs.filter fun msg => ¬ Quiet lib msg) := by
      refine List.monotone_filter_right _ fun msg kept => decide_eq_true fun quiet => ?_
      rw [(dropped_iff msg).mpr (.inl quiet)] at kept
      cases kept
    have lengths := congrArg List.length same
    rw [List.length_map, List.length_map] at lengths
    have kept : msg ∈ msgs.filter fun msg => ¬ Quiet lib msg :=
      List.mem_filter.mpr ⟨held, decide_eq_true (not_quiet_of_shadowed shadowed)⟩
    rw [← fewer.eq_of_length lengths] at kept
    have passed := (List.mem_filter.mp kept).2
    rw [(dropped_iff msg).mpr (.inr shadowed)] at passed
    cases passed
  · intro clear
    refine congrArg (List.map (eventOf lib)) (List.filter_congr fun msg held => ?_)
    rw [Bool.eq_iff_iff, Bool.not_eq_true', ← Bool.not_eq_true, dropped_iff, decide_eq_true_iff]
    exact not_congr (or_iff_left (clear msg held))

/-- A snapshot of two rules about persons, of which the first is active. -/
private def twoRules : Message where
  topic := "tns1:RuleEngine/HumanDetector/Human"
  propertyOperation := "Initialized"
  innerXML := "<tt:Message PropertyOperation=\"Initialized\"><tt:Data><tt:SimpleItem Name=\"IsHuman\" Value=\"true\"/>" ++
    "<tt:SimpleItem Name=\"IsHuman\" Value=\"false\"/></tt:Data></tt:Message>"

private def twoItems : List Token :=
  [.start "root" [], .start "Message" [("PropertyOperation", "Initialized")], .start "Data" [],
    .start "SimpleItem" [("Name", "IsHuman"), ("Value", "true")], .end_ "SimpleItem",
    .start "SimpleItem" [("Name", "IsHuman"), ("Value", "false")], .end_ "SimpleItem",
    .end_ "Data", .end_ "Message", .end_ "root"]

/-- The libraries on that snapshot, whose texts are all ASCII. -/
private def asciiLibrary : Library ℚ where
  toLower text := String.ofList (text.toList.map Char.toLower)
  tokens text := if text = "<root>" ++ twoRules.innerXML ++ "</root>" then twoItems else []
  sscanf _ := 0

/-- The alarm of the first rule is lost. -/
theorem overwritten_alarm : ¬ ∀ (lib : Library ℚ) (scan : Scan (String × Detail ℚ)) (msgs : List Message),
    FilteredExactly lib scan msgs := by
  intro filtered
  have same := congrArg List.length (filtered asciiLibrary .inOrder [twoRules])
  have none_ : (parseNotificationMessages asciiLibrary .inOrder [twoRules]).length = 0 := by decide +kernel
  have one_ : ([twoRules].filter fun msg => ¬ Quiet asciiLibrary msg).length = 1 := by decide +kernel
  rw [none_, List.length_map, one_] at same
  cases same

end Ironsight.RenewalSnapshots
