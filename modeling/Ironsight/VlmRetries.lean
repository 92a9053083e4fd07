import Ironsight.Runs
import Ironsight.VlmWorker

/-! Which executions count as an attempt. The counter is written by the update at the end,
so an execution counts exactly if it comes there and the database takes the two texts;
a reasoning cut inside a character is refused, and the row is asked about for ever. -/
namespace Ironsight.VlmRetries
open Tables Uuid Access Runs ReviewQueue VlmWorker

/-- No NUL among the bytes that are kept, and no character cut at the end of them. -/
def Fits (text : String) : Prop :=
  (text.utf8ByteSize ≤ 500 ∨ (String.Pos.Raw.mk 500).IsValid text) ∧ (0 : UInt8) ∉ (text.toByteArray.extract 0 500).data.toList

/-- The text that an answer gives as reasoning. -/
def reasoningOf (description : String) : String := ((parseEmbeddedVerdict description).map Prod.snd).getD description

variable {F : Type} [Pixels F]

/-- What comes of a request can be stored. -/
def Storable : Response F → Prop
  | .failed err => Accepted err
  | .status _ body => Accepted (body.extract 0 200)
  | .undecodable err => Accepted err
  | .decoded result => (0 : UInt8) ∉ result.model.toByteArray.data.toList ∧
      (result.degraded = true ∨ Fits (reasoningOf result.description))

/-- An execution that comes to its update with texts that can be stored. -/
def Recordable (cfg : Config F) (env : Env F) (row : VLMQueueRow F) : Prop :=
  env.cancelled = false ∧ ∀ frameBytes, readFrame cfg env row = .read frameBytes →
    ∃ request response, requestOf cfg env row frameBytes = some request ∧ env.analyze request = some response ∧
      Storable response

/-! ## Texts -/

private theorem digits_plain (n : Nat) : (0 : UInt8) ∉ (toString n).toByteArray.data.toList := by
  have bytes : (toString n).toByteArray.data.toList = (Nat.toDigits 10 n).flatMap String.utf8EncodeChar := by
    rw [Nat.toString_eq_repr, Nat.repr_eq_ofList_toDigits, String.toByteArray_ofList, List.utf8Encode]
    simp
  rw [bytes]
  intro member
  obtain ⟨c, written, zero⟩ := List.mem_flatMap.mp member
  obtain ⟨low, high⟩ := Char.isDigit_iff_toNat.mp (Nat.isDigit_of_mem_toDigits (by decide) (by decide) written)
  have single : c.utf8Size = 1 := Char.utf8Size_eq_one_iff.mpr (UInt32.le_iff_toNat_le.mpr (high.trans (by decide)))
  rw [String.utf8EncodeChar_eq_singleton single, List.mem_singleton] at zero
  have value := congrArg UInt8.toNat zero
  have small : c.val.toNat % 256 = c.val.toNat := Nat.mod_eq_of_lt (lt_of_le_of_lt high (by decide))
  rw [UInt32.toNat_toUInt8, small] at value
  have positive : 0 < c.val.toNat := lt_of_lt_of_le (by decide) low
  exact absurd value (Nat.ne_of_lt positive)

private theorem accepted_truncateReasoning (text : String) : Accepted (truncateReasoning text) ↔ Fits text := by
  unfold truncateReasoning Fits
  by_cases short : text.utf8ByteSize ≤ 500
  · rw [if_pos short, accepted_toUTF8, extract_whole short]
    exact (and_iff_right (.inl short)).symm
  · rw [if_neg short, accepted_extract_iff (Nat.le_of_not_le short)]
    simp only [short, false_or]

/-! ## One execution -/

private theorem storable_iff (response : Response F) :
    Accepted (validatePPECandidate response).reasoning ∧ Accepted (validatePPECandidate response).model ↔ Storable response := by
  have transport (err : ByteArray) : Accepted ("transport error: ".toUTF8 ++ err) ∧ Accepted .empty ↔ Accepted err := by
    rw [accepted_append (by decide), and_iff_left (by decide)]
  cases response with
  | failed err =>
    show Accepted ("transport error: ".toUTF8 ++ ("Qwen request: ".toUTF8 ++ err)) ∧ Accepted .empty ↔ Accepted err
    rw [transport, accepted_append (by decide)]
  | status code body =>
    show Accepted ("transport error: ".toUTF8 ++ (("Qwen HTTP " ++ toString code ++ ": ").toUTF8 ++
      body.extract 0 (min body.size 200))) ∧ Accepted .empty ↔ Accepted (body.extract 0 200)
    have prefixed : ("Qwen HTTP " ++ toString code ++ ": ").toUTF8 =
        "Qwen HTTP ".toUTF8 ++ ((toString code).toUTF8 ++ ": ".toUTF8) := by
      simp only [String.toUTF8_eq_toByteArray, String.toByteArray_append, ByteArray.append_assoc]
    have cut : body.extract 0 (min body.size 200) = body.extract 0 200 := by
      rcases le_total body.size 200 with short | long
      · rw [min_eq_left short]
        ext1
        simp [ByteArray.data_extract, Array.extract_eq_self_of_le, short]
      · rw [min_eq_right long]
    rw [transport, prefixed, cut, ByteArray.append_assoc, ByteArray.append_assoc, accepted_append (by decide),
      accepted_append (digits_plain code), accepted_append (by decide)]
  | undecodable err =>
    show Accepted ("transport error: ".toUTF8 ++ ("Qwen decode: ".toUTF8 ++ err)) ∧ Accepted .empty ↔ Accepted err
    rw [transport, accepted_append (by decide)]
  | decoded result =>
    unfold validatePPECandidate Storable reasoningOf
    simp only [analyzeQwen]
    cases result.degraded with
    | true =>
      simp only [if_true, true_or, and_true]
      rw [and_iff_right (by decide), accepted_toUTF8]
    | false =>
      simp only [Bool.false_eq_true, if_false, false_or]
      cases parseEmbeddedVerdict result.description with
      | none => rw [accepted_truncateReasoning, accepted_toUTF8, and_comm]; rfl
      | some parsed => rw [accepted_truncateReasoning, accepted_toUTF8, and_comm]; rfl

section Execution
variable {cfg : Config F} {env : Env F} {queue : Queue F} {row : VLMQueueRow F}

/-- What an update does to the counters: those of its row become the number it writes. -/
structure Counts (before after : Queue F) (id : UUID) (attempts : Nat) : Prop where
  kept : ∀ stored ∈ after, ∃ old ∈ before, old.id = stored.id ∧
    stored.vlmAttempts = if stored.id = id then attempts else old.vlmAttempts
  present : ∀ old ∈ before, ∃ stored ∈ after, stored.id = old.id

/-- The end of an execution: the update is made, or nothing is changed. -/
inductive Recorded (env : Env F) (queue : Queue F) (row : VLMQueueRow F) (result : VLMValidationResult) (after : Queue F) :
    Prop where
  | written (live : env.cancelled = false) (stored : Accepted result.reasoning ∧ Accepted result.model)
      (counts : Counts queue after row.id (row.attempts + 1))
  | lost (same : after = queue) (why : env.cancelled = false → Accepted result.reasoning ∧ Accepted result.model →
      ∀ stored ∈ queue, stored.id ≠ row.id)

private theorem record_effect (result : VLMValidationResult) :
    Recorded env queue row result (record env queue row result) := by
  unfold record updateVLMVerdict
  cases live : env.cancelled with
  | true => exact .lost rfl (by simp [live])
  | false =>
    simp only [Bool.false_eq_true, if_false]
    split
    · rename_i stored
      split
      · rename_i unaffected
        refine .lost rfl fun _ _ held present same => ?_
        have affected : 0 < queue.affected fun stored => decide (stored.id = row.id) :=
          Table.affected_pos.mpr ⟨held, present, decide_eq_true same⟩
        exact absurd unaffected (Nat.ne_of_gt affected)
      · refine .written live stored ⟨fun held member => ?_, fun old present => ?_⟩
        · rw [Option.getD_some, Table.mem_modify] at member
          obtain ⟨old, present, rfl⟩ := member
          refine ⟨old, present, ?_⟩
          by_cases same : old.id = row.id <;> simp [same]
        · rw [Option.getD_some]
          refine ⟨_, Table.mem_modify.mpr ⟨old, present, rfl⟩, ?_⟩
          split <;> rfl
    · exact .lost rfl fun _ stored => absurd stored ‹_›

/-- An execution either comes to its update, or panics and changes nothing; it makes at most
one request. -/
inductive Processed (cfg : Config F) (env : Env F) (queue : Queue F) (row : VLMQueueRow F) (after : Queue F)
    (requests : List (Request F)) : Prop where
  | written (recordable : Recordable cfg env row) (counts : Counts queue after row.id (row.attempts + 1))
      (once : requests.length ≤ 1)
  | lost (same : after = queue) (why : Recordable cfg env row → ∀ stored ∈ queue, stored.id ≠ row.id)
      (once : requests.length ≤ 1)

private theorem processed_of_recorded {result : VLMValidationResult} {after : Queue F} {requests : List (Request F)}
    (recorded : Recorded env queue row result after) (once : requests.length ≤ 1)
    (same : Recordable cfg env row ↔ env.cancelled = false ∧ Accepted result.reasoning ∧ Accepted result.model) :
    Processed cfg env queue row after requests := by
  cases recorded with
  | written live stored counts => exact .written (same.mpr ⟨live, stored⟩) counts once
  | lost unchanged why =>
    refine .lost unchanged (fun recordable => ?_) once
    obtain ⟨live, stored⟩ := same.mp recordable
    exact why live stored

private theorem processRow_effect :
    Processed cfg env queue row (processRow cfg env queue row).1 (processRow cfg env queue row).2 := by
  unfold processRow
  cases read : readFrame cfg env row with
  | invalidPath =>
    refine processed_of_recorded (record_effect _) (Nat.zero_le 1) ?_
    simp only [Recordable, read, reduceCtorEq, false_implies, implies_true]
    exact and_congr_right fun _ => iff_of_true trivial ⟨by decide, by decide⟩
  | notFound =>
    refine processed_of_recorded (record_effect _) (Nat.zero_le 1) ?_
    simp only [Recordable, read, reduceCtorEq, false_implies, implies_true]
    exact and_congr_right fun _ => iff_of_true trivial ⟨by decide, by decide⟩
  | read frameBytes =>
    have needs : Recordable cfg env row ↔ env.cancelled = false ∧ ∃ request response,
        requestOf cfg env row frameBytes = some request ∧ env.analyze request = some response ∧ Storable response := by
      simp only [Recordable, read, FrameRead.read.injEq, forall_eq']
    dsimp only
    cases asked : requestOf cfg env row frameBytes with
    | none => exact .lost rfl (by simp [needs, asked]) (Nat.zero_le 1)
    | some request =>
      dsimp only
      cases answered : env.analyze request with
      | none => exact .lost rfl (by simp [needs, asked, answered]) le_rfl
      | some response =>
        refine processed_of_recorded (record_effect _) le_rfl ?_
        simp [needs, asked, answered, storable_iff]

/-- An execution that is recordable if its row still exists raises the counter of that row, and no other. -/
private theorem processRow_counters (recordable : (∃ stored ∈ queue, stored.id = row.id) → Recordable cfg env row) :
    ∀ stored ∈ (processRow cfg env queue row).1, ∃ old ∈ queue, old.id = stored.id ∧
      stored.vlmAttempts = if stored.id = row.id then row.attempts + 1 else old.vlmAttempts := by
  intro stored held
  cases (processRow_effect : Processed cfg env queue row _ _) with
  | written _ counts => exact counts.kept stored held
  | lost same why =>
    rw [same] at held
    have elsewhere : stored.id ≠ row.id := fun same => why (recordable ⟨stored, held, same⟩) stored held same
    exact ⟨stored, held, rfl, (if_neg elsewhere).symm⟩

private theorem processRow_once : (processRow cfg env queue row).2.length ≤ 1 := by
  cases (processRow_effect : Processed cfg env queue row _ _) <;> assumption

/-- An execution raises the counter of its row exactly if it is recordable. -/
private theorem counted_iff {stored : QueueRow F} (present : stored ∈ queue) (same : stored.id = row.id)
    (attempts : stored.vlmAttempts = row.attempts) :
    (∃ after ∈ (processRow cfg env queue row).1, after.id = stored.id ∧ after.vlmAttempts = stored.vlmAttempts + 1) ↔
      Recordable cfg env row := by
  constructor
  · rintro ⟨after, held, sameID, raised⟩
    cases (processRow_effect : Processed cfg env queue row _ _) with
    | written recordable => exact recordable
    | lost unchanged why =>
      rw [unchanged] at held
      rw [Table.key_inj held present sameID] at raised
      exact absurd raised (Nat.ne_of_lt (Nat.lt_succ_self _))
  · intro recordable
    cases (processRow_effect : Processed cfg env queue row _ _) with
    | written _ counts =>
      obtain ⟨after, held, sameID⟩ := counts.present stored present
      obtain ⟨old, _, _, written⟩ := counts.kept after held
      rw [if_pos (sameID.trans same)] at written
      exact ⟨after, held, sameID, by rw [written, attempts]⟩
    | lost _ why => exact absurd same (why recordable stored present)

end Execution

/-! ## Runs -/

/-- An execution on a row that still exists is recordable. -/
def Allowed (cfg : Config F) (w : World F) : Move F → Prop
  | .process index env => ∀ row, w.batch[index]? = some row → (∃ stored ∈ w.queue, stored.id = row.id) →
      Recordable cfg env row
  | _ => True

/-- Every request is an attempt that the row counts, and a listed row has attempts left. -/
private structure Counted (cfg : Config F) (w : World F) : Prop where
  stored : ∀ row ∈ w.queue, w.sent.count row.id ≤ row.vlmAttempts
  listed : ∀ row ∈ w.batch, w.sent.count row.id ≤ row.attempts ∧ (row.attempts : Int) < cfg.maxRetries
  current : ∀ row ∈ w.batch, ∀ stored ∈ w.queue, stored.id = row.id → stored.vlmAttempts = row.attempts
  distinct : (w.batch.map VLMQueueRow.id).Nodup
  bounded : ∀ id, (w.sent.count id : Int) ≤ cfg.maxRetries

section Run
variable {cfg : Config F} {w : World F}

/-- A queue with the counters of the old one, or fewer rows. -/
private theorem Counted.of_kept (counted : Counted cfg w) {queue : Queue F}
    (kept : ∀ row ∈ queue, ∃ old ∈ w.queue, old.id = row.id ∧ old.vlmAttempts = row.vlmAttempts) :
    Counted cfg { w with queue } where
  stored row held := by
    obtain ⟨old, present, sameID, sameCount⟩ := kept row held
    exact sameID ▸ sameCount ▸ counted.stored old present
  listed := counted.listed
  current row member stored held same := by
    obtain ⟨old, present, sameID, sameCount⟩ := kept stored held
    exact sameCount ▸ counted.current row member old present (sameID.trans same)
  distinct := counted.distinct
  bounded := counted.bounded

private theorem Counted.insert (counted : Counted cfg w) (row : QueueRow F) :
    Counted cfg (step cfg w (.insert row)) := by
  rw [step]
  split
  · exact counted
  · rename_i fresh
    obtain ⟨unsent, unlisted⟩ := not_or.mp fresh
    cases inserted : insertPPEQueueEntry w.queue row with
    | none => exact counted
    | some queue =>
      refine { counted with stored := ?_, current := ?_ }
      · intro other held
        rcases (Table.mem_insert? inserted).mp held with old | rfl
        · exact counted.stored other old
        · exact (List.count_eq_zero.mpr unsent).le
      · intro member listed other held same
        rcases (Table.mem_insert? inserted).mp held with old | rfl
        · exact counted.current member listed other old same
        · exact absurd (List.mem_map.mpr ⟨member, listed, same.symm⟩) unlisted

private theorem kept_of_change {queue : Queue F} {selected : QueueRow F → Bool} {change : QueueRow F → QueueRow F}
    {row : QueueRow F} (changed : ∃ old ∈ queue, row = if selected old then change old else old)
    (sameID : ∀ row, (change row).id = row.id) (sameCount : ∀ row, (change row).vlmAttempts = row.vlmAttempts) :
    ∃ old ∈ queue, old.id = row.id ∧ old.vlmAttempts = row.vlmAttempts := by
  obtain ⟨old, present, rfl⟩ := changed
  refine ⟨old, present, ?_⟩
  split
  · exact ⟨(sameID old).symm, (sameCount old).symm⟩
  · exact ⟨rfl, rfl⟩

private theorem Counted.review (counted : Counted cfg w) (id : UUID) (orgID : String) (status : Status) :
    Counted cfg (step cfg w (.review id orgID status)) := by
  rw [step]
  cases updated : updatePPEQueueStatus w.queue id orgID status with
  | none => exact counted
  | some queue =>
    refine counted.of_kept fun row held => ?_
    dsimp only [updatePPEQueueStatus] at updated
    split at updated
    · cases updated
    · cases updated
      rw [Option.getD_some, Table.mem_modify] at held
      exact kept_of_change held (fun _ => rfl) fun _ => rfl

private theorem Counted.delete (counted : Counted cfg w) (ids : List UUID) : Counted cfg (step cfg w (.delete ids)) :=
  counted.of_kept fun row held => ⟨row, (Table.mem_remove.mp held).1, rfl, rfl⟩

private theorem Counted.expired (counted : Counted cfg w) (maxAgeHours : Int) (now : Instant) :
    Counted cfg { w with queue := expireStalePendingVLM w.queue maxAgeHours now } := by
  refine counted.of_kept fun row held => ?_
  rw [expireStalePendingVLM, Table.mem_modify] at held
  exact kept_of_change held (fun _ => rfl) fun _ => rfl

/-- A batch is of different rows that still have attempts left. -/
private theorem Counted.list (counted : Counted cfg w) {limit : Int} {batch : List (VLMQueueRow F)}
    (listed : listPendingVLM w.queue limit cfg.maxRetries = some batch) : Counted cfg { w with batch } := by
  have positive : ¬ cfg.maxRetries ≤ 0 := by
    unfold Config.maxRetries orDefault
    split <;> omega
  dsimp only [listPendingVLM] at listed
  rw [if_neg positive] at listed
  split at listed
  · cases listed
  · cases listed
    refine { counted with listed := ?_, current := ?_, distinct := ?_ }
    · intro row member
      obtain ⟨stored, taken, rfl⟩ := List.mem_map.mp member
      obtain ⟨held, due⟩ := List.mem_filter.mp (List.mem_mergeSort.mp (List.mem_of_mem_take taken))
      have left := (of_decide_eq_true due).2.2
      exact ⟨counted.stored stored held, left⟩
    · intro row member stored present same
      obtain ⟨old, taken, rfl⟩ := List.mem_map.mp member
      have held := (List.mem_filter.mp (List.mem_mergeSort.mp (List.mem_of_mem_take taken))).1
      rw [Table.key_inj present held same]
    · rw [List.map_map]
      refine (List.Sublist.map _ (List.take_sublist _ _)).nodup ?_
      refine ((List.mergeSort_perm _ _).map _).nodup_iff.mpr ?_
      exact w.queue.distinct.sublist (List.filter_sublist.map _)

private theorem Counted.beginCycle (counted : Counted cfg w) (now : Instant) (expired listed : Bool) :
    Counted cfg (step cfg w (.beginCycle now expired listed)) := by
  rw [step]
  split
  · have aged : Counted cfg { w with
        queue := if expired then expireStalePendingVLM w.queue (orDefault cfg.vlmWorkerMaxAgeHours 24) now else w.queue } := by
      cases expired with
      | true => exact counted.expired _ now
      | false => exact counted
    dsimp only
    cases rows : (if listed then listPendingVLM (if expired then expireStalePendingVLM w.queue
        (orDefault cfg.vlmWorkerMaxAgeHours 24) now else w.queue) (orDefault cfg.vlmWorkerBatchSize 5) cfg.maxRetries
        else none) with
    | none => exact { aged with listed := by rintro _ ⟨⟩, current := by rintro _ ⟨⟩, distinct := List.nodup_nil }
    | some batch =>
      cases listed with
      | true => exact aged.list rows
      | false => cases rows
  · exact counted

omit [Pixels F] in
/-- The requests of an execution are counted for its row. -/
private theorem count_sent (sent : List UUID) (requests : List (Request F)) (row id : UUID) :
    (sent ++ requests.map fun _ => row).count id = sent.count id + if row = id then requests.length else 0 := by
  rw [List.count_append, List.map_const', List.count_replicate]
  simp only [beq_iff_eq]

private theorem Counted.process (counted : Counted cfg w) {index : Nat} {env : Env F}
    (allowed : Allowed cfg w (.process index env)) :
    Counted cfg (step cfg w (.process index env)) := by
  rw [step]
  cases found : w.batch[index]? with
  | none => exact counted
  | some row =>
    dsimp only
    have row_listed : row ∈ w.batch := List.mem_of_getElem? found
    obtain ⟨inside, rfl⟩ := List.getElem?_eq_some_iff.mp found
    have others : ∀ other ∈ w.batch.eraseIdx index, other.id ≠ w.batch[index].id := by
      have distinct := ((List.getElem_cons_eraseIdx_perm inside).map VLMQueueRow.id).nodup_iff.mpr counted.distinct
      intro other member same
      exact (List.nodup_cons.mp distinct).1 (List.mem_map.mpr ⟨other, member, same⟩)
    have raised := processRow_counters (allowed _ found)
    have once : (processRow cfg env w.queue w.batch[index]).2.length ≤ 1 := processRow_once
    obtain ⟨sentBefore, left⟩ := counted.listed _ row_listed
    constructor
    case stored =>
      intro stored held
      obtain ⟨old, present, sameID, written⟩ := raised stored held
      have before := counted.stored old present
      rw [count_sent, written]
      rw [sameID] at before
      by_cases own : stored.id = w.batch[index].id
      · rw [if_pos own, if_pos own.symm, own]
        omega
      · rw [if_neg own, if_neg fun same => own same.symm]
        exact before
    case listed =>
      intro other member
      rw [count_sent, if_neg fun same => others other member same.symm]
      exact counted.listed other (List.mem_of_mem_eraseIdx member)
    case current =>
      intro other member stored held same
      obtain ⟨old, present, sameID, written⟩ := raised stored held
      rw [if_neg fun own => others other member (same.symm.trans own)] at written
      rw [written]
      exact counted.current other (List.mem_of_mem_eraseIdx member) old present (sameID.trans same)
    case distinct => exact ((List.eraseIdx_sublist _ _).map _).nodup counted.distinct
    case bounded =>
      intro id
      rw [count_sent]
      split
      · rename_i same
        rw [← same]
        omega
      · exact counted.bounded id

private theorem Counted.next (counted : Counted cfg w) (move : Move F) (allowed : Allowed cfg w move) :
    Counted cfg (step cfg w move) := by
  cases move with
  | insert row => exact counted.insert row
  | review id orgID status => exact counted.review id orgID status
  | delete ids => exact counted.delete ids
  | beginCycle now expired listed => exact counted.beginCycle now expired listed
  | process index env => exact counted.process allowed

end Run

/-- The worker before its first cycle. -/
def atStart (queue : Queue F) : World F := ⟨queue, [], []⟩

private theorem counted_atStart (cfg : Config F) (queue : Queue F) : Counted cfg (atStart queue) where
  stored _ _ := Nat.zero_le _
  listed := by rintro _ ⟨⟩
  current := by rintro _ ⟨⟩
  distinct := List.nodup_nil
  bounded _ := by
    show (0 : Int) ≤ cfg.maxRetries
    unfold Config.maxRetries orDefault
    split <;> omega

/-- An execution raises the counter of a stored row exactly if it comes to its update with
texts that can be stored, and in a run of cycles where every execution on a stored row does,
no row is sent to the model more often than `maxRetries`. -/
theorem attempts_counted_iff (cfg : Config F) :
    (∀ (env : Env F) (queue : Queue F) (row : VLMQueueRow F) (stored : QueueRow F), stored ∈ queue →
      stored.id = row.id → stored.vlmAttempts = row.attempts →
        ((∃ after ∈ (processRow cfg env queue row).1, after.id = stored.id ∧
          after.vlmAttempts = stored.vlmAttempts + 1) ↔ Recordable cfg env row)) ∧
    ∀ (queue : Queue F) (moves : List (Move F)), Along (step cfg) (Allowed cfg) (atStart queue) moves →
      Throughout (step cfg) (fun w => ∀ id, (w.sent.count id : Int) ≤ cfg.maxRetries) (atStart queue) moves := by
  constructor
  · intro env queue row stored present same attempts
    exact counted_iff present same attempts
  · intro queue moves along
    have counted : Throughout (step cfg) (Counted cfg) (atStart queue) moves :=
      throughout_of_invariant (fun _ move held allowed => held.next move allowed) moves _ (counted_atStart cfg queue) along
    exact throughout_mono (fun _ held => held.bounded) moves _ counted

/-! ## An answer that ends inside a character -/

private instance exactPixels : Pixels ℚ where
  ofInt n := n
  truncate x := x.num.tdiv x.den
  round x := if 0 ≤ x then (x + 1 / 2).floor else (x - 1 / 2).ceil

private def crew : Config ℚ := ⟨"/frames", 1 / 4, 5, 3, 24⟩

private def accents (n : Nat) : List Char := 'a' :: List.replicate n 'é'

/-- 501 bytes, of which the last two are one character. -/
private def verbose : String := String.ofList (accents 249 ++ ['é'])

private def harbour : QueueRow ℚ :=
  { id := ⟨1⟩, organizationID := "co-1", cameraID := ⟨2⟩, siteID := none, framePath := "co-1/2026-05-26/1.jpg"
    detectionClass := "no_helmet", missingLabel := "helmet", confidence := ⟨3 / 4, rfl⟩, boundingBoxes := [], createdAt := 0 }

private def asked : VLMQueueRow ℚ :=
  { id := ⟨1⟩, framePath := "co-1/2026-05-26/1.jpg", detectionClass := "no_helmet", missingLabel := "helmet"
    confidence := ⟨3 / 4, rfl⟩, boundingBoxes := [], attempts := 0, createdAt := 0 }

/-- The model answers with this description; the frame is no image. -/
private def answering (description : String) : Env ℚ where
  readFile _ := some (.mk #[0xFF])
  decode _ := some (.error "image: unknown format")
  analyze _ := some (.decoded ⟨description, 1 / 2, "qwen", false⟩)
  percent _ := "75"

private theorem accents_size (n : Nat) : (accents n).utf8Encode.size = 2 * n + 1 := by
  induction n with
  | zero => decide
  | succ n ih =>
    have longer : accents (n + 1) = accents n ++ ['é'] := by
      rw [accents, accents, List.replicate_succ']
      rfl
    have two : ['é'].utf8Encode.size = 2 := by decide
    rw [longer, List.utf8Encode_append, ByteArray.size_append, ih, two]
    omega

/-- The cut leaves the first byte of the last character. -/
private theorem verbose_cut : ¬ Fits verbose := by
  have size : verbose.utf8ByteSize = 501 := by
    show verbose.toByteArray.size = 501
    rw [verbose, String.toByteArray_ofList, List.utf8Encode_append, ByteArray.size_append, accents_size]
    decide
  rintro ⟨short | boundary, _⟩
  · omega
  · have inside : ¬ (String.Pos.Raw.mk ((accents 249).utf8Encode.size + 1)).IsValid verbose := not_isValid_inside (by decide)
    rw [accents_size] at inside
    exact inside boundary

private theorem verbose_reasoning : reasoningOf verbose = verbose := by
  have unbraced : braced verbose.toList = none := by
    rw [verbose, String.toList_ofList]
    decide
  rw [reasoningOf, parseEmbeddedVerdict, unbraced]
  rfl

private def waiting : Queue ℚ := ⟨[harbour], List.nodup_singleton _⟩

private theorem asked_read (description : String) :
    readFrame crew (answering description) asked = .read (.mk #[0xFF]) := by
  dsimp only [readFrame]
  rw [if_neg (by decide)]
  rfl

private theorem verbose_unrecordable : ¬ Recordable crew (answering verbose) asked := by
  rintro ⟨_, reached⟩
  obtain ⟨request, response, _, answered, storable⟩ := reached _ (asked_read _)
  cases answered
  exact verbose_cut (verbose_reasoning ▸ (storable.2.resolve_left Bool.false_ne_true))

private theorem verbose_processed : (processRow crew (answering verbose) waiting asked).1 = waiting := by
  cases (processRow_effect : Processed crew (answering verbose) waiting asked _ _) with
  | written recordable => exact absurd recordable verbose_unrecordable
  | lost same => exact same

private def cycle : List (Move ℚ) := [.beginCycle 0 true true, .process 0 (answering verbose)]

private theorem cycle_sends (sent : List UUID) :
    exec (step crew) ⟨waiting, [], sent⟩ cycle = ⟨waiting, [], sent ++ [harbour.id]⟩ := by
  have listed : listPendingVLM waiting 5 3 = some [asked] := by
    show some (((List.mergeSort [harbour] _).take 5).map _) = _
    rw [List.mergeSort_singleton]
    rfl
  have begun : step crew ⟨waiting, [], sent⟩ (.beginCycle 0 true true) = ⟨waiting, [asked], sent⟩ := by
    have fresh : expireStalePendingVLM waiting 24 0 = waiting := Table.ext_rows rfl
    show (⟨expireStalePendingVLM waiting 24 0, (listPendingVLM (expireStalePendingVLM waiting 24 0) 5 3).getD [], sent⟩ : World ℚ) = _
    rw [fresh, listed]
    rfl
  have request : (processRow crew (answering verbose) waiting asked).2.map (fun _ => asked.id) = [harbour.id] := by
    rw [processRow, asked_read]
    rfl
  rw [cycle, exec_cons, begun, exec_cons, exec_nil]
  show (⟨(processRow crew (answering verbose) waiting asked).1, [], sent ++ (processRow crew (answering verbose) waiting asked).2.map
    fun _ => asked.id⟩ : World ℚ) = _
  rw [verbose_processed, request]

/-- The execution leaves the counter as it was, and with three retries allowed the fourth
cycle asks the model a fourth time. -/
theorem cut_character_retried_for_ever :
    (¬ ∃ after ∈ (processRow crew (answering verbose) waiting asked).1, after.id = harbour.id ∧
      after.vlmAttempts = harbour.vlmAttempts + 1) ∧
    ¬ Throughout (step crew) (fun w => ∀ id, (w.sent.count id : Int) ≤ crew.maxRetries) (atStart waiting)
      (cycle ++ cycle ++ cycle ++ cycle) := by
  constructor
  · rw [verbose_processed]
    decide
  · intro held
    have last := throughout_last _ _ held harbour.id
    rw [exec_append, exec_append, exec_append, atStart, cycle_sends, cycle_sends, cycle_sends, cycle_sends] at last
    revert last
    decide

/-- An answer that is shorter than the cut. -/
theorem short_answer_counted : ∃ after ∈ (processRow crew (answering "no helmet") waiting asked).1, after.id = harbour.id ∧
    after.vlmAttempts = harbour.vlmAttempts + 1 := by
  refine ((attempts_counted_iff crew).1 _ _ asked harbour (List.mem_singleton_self _) rfl rfl).mpr ⟨rfl, ?_⟩
  intro frameBytes read
  rw [asked_read] at read
  cases read
  exact ⟨_, _, rfl, rfl, by decide, .inr ⟨.inl (by decide), by decide⟩⟩

end Ironsight.VlmRetries
