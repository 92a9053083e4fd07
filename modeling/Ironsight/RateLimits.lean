import Mathlib.Data.List.Infix
import Mathlib.Logic.Function.Basic
import Ironsight.Durations

/-! The limit on login attempts: per key the times of the calls that were allowed, pruned in
place on every call, of which at most so many may lie in the window before a further one. -/
namespace Ironsight.RateLimits
open Durations

structure LoginRateLimiter where
  window : Int
  limit : Nat
  hits : String → List Int

def newLoginRateLimiter (limit : Nat) (window : Int) : LoginRateLimiter := ⟨window, limit, fun _ => []⟩

/-- One turn of the loop that prunes: the cell that is read, and the cell behind what has been
kept, belong to one array. -/
def pruneStep (cutoff : Int) (state : List Int × Nat) (i : Nat) : List Int × Nat :=
  let ts := state.1.getD i 0
  if cutoff < ts then (state.1.set state.2 ts, state.2 + 1) else state

/-- The loop that prunes the times of a key. -/
def prune (cutoff : Int) (cells : List Int) : List Int :=
  let (cells, kept) := (List.range cells.length).foldl (pruneStep cutoff) (cells, 0)
  cells.take kept

def allow (rl : LoginRateLimiter) (key : String) (now : Int) : Bool × LoginRateLimiter :=
  let cutoff := now + negated rl.window
  let kept := prune cutoff (rl.hits key)
  if rl.limit ≤ kept.length then (false, { rl with hits := Function.update rl.hits key kept })
  else (true, { rl with hits := Function.update rl.hits key (kept ++ [now]) })

/-- A request of a client, and when it comes. -/
structure Call where
  key : String
  now : Int
  deriving DecidableEq

/-- The calls of a run with their answers. -/
def log (rl : LoginRateLimiter) : List Call → List (Call × Bool)
  | [] => []
  | call :: calls => (call, (allow rl call.key call.now).1) :: log (allow rl call.key call.now).2 calls

/-- The times at which a key was allowed. -/
def admitted (entries : List (Call × Bool)) (key : String) : List Int :=
  (entries.filter fun entry => entry.2 && entry.1.key = key).map fun entry => entry.1.now

/-! ## Pruning in place -/

private theorem take_succ_set {cells : List Int} {kept : Nat} (within : kept < cells.length) (ts : Int) :
    (cells.set kept ts).take (kept + 1) = cells.take kept ++ [ts] := by
  rw [List.take_add_one, List.take_set_of_le (Nat.le_refl kept), List.getElem?_set_self within]
  rfl

/-- What has been read is kept at the front, and what has not been read is still there. -/
private theorem foldl_pruneStep (cutoff : Int) (cells : List Int) (i : Nat) (le : i ≤ cells.length) :
    ∃ pruned kept, (List.range i).foldl (pruneStep cutoff) (cells, 0) = (pruned, kept) ∧ kept ≤ i ∧
      pruned.length = cells.length ∧ pruned.take kept = (cells.take i).filter (fun ts => cutoff < ts) ∧
      pruned.drop i = cells.drop i := by
  induction i with
  | zero => exact ⟨cells, 0, rfl, Nat.le_refl 0, rfl, by simp, rfl⟩
  | succ i ih =>
    obtain ⟨pruned, kept, state, keptLe, length, front, back⟩ := ih (by omega)
    have cell : pruned[i]? = cells[i]? := by
      have heads := congrArg List.head? back
      rwa [List.head?_drop, List.head?_drop] at heads
    obtain ⟨ts, held⟩ : ∃ ts, cells[i]? = some ts := ⟨_, List.getElem?_eq_getElem (by omega)⟩
    have read : pruned.getD i 0 = ts := by
      rw [List.getD_eq_getElem?_getD, cell, held]
      rfl
    have later : pruned.drop (i + 1) = cells.drop (i + 1) := by
      rw [← List.tail_drop, ← List.tail_drop, back]
    rw [List.range_succ, List.foldl_append, state, List.take_add_one, held, List.filter_append]
    simp only [List.foldl_cons, List.foldl_nil, pruneStep, read, Option.toList_some, ← front]
    by_cases recent : cutoff < ts
    · rw [if_pos recent]
      refine ⟨pruned.set kept ts, kept + 1, rfl, by omega, by rw [List.length_set, length], ?_, ?_⟩
      · rw [take_succ_set (by omega)]
        simp [recent]
      · rw [List.drop_set_of_lt (by omega), later]
    · rw [if_neg recent]
      exact ⟨pruned, kept, rfl, by omega, length, by simp [recent], later⟩

/-- Reading and writing the same array does no harm. -/
theorem prune_eq_filter (cutoff : Int) (cells : List Int) :
    prune cutoff cells = cells.filter fun ts => cutoff < ts := by
  obtain ⟨pruned, kept, state, _, _, front, _⟩ := foldl_pruneStep cutoff cells cells.length (Nat.le_refl _)
  rw [prune, state]
  simpa using front

/-! ## One call -/

/-- The times of a key that count for a call. -/
def recent (window now : Int) (times : List Int) : List Int := times.filter fun ts => now + negated window < ts

theorem allow_fst {rl : LoginRateLimiter} {key : String} {now : Int} :
    (allow rl key now).1 = true ↔ (recent rl.window now (rl.hits key)).length < rl.limit := by
  simp only [allow, prune_eq_filter, recent]
  split
  case isTrue full => exact iff_of_false Bool.false_ne_true (not_lt.mpr full)
  case isFalse open_ => exact iff_of_true rfl (not_le.mp open_)

/-- The answer is remembered with the times that still count. -/
theorem allow_snd (rl : LoginRateLimiter) (key : String) (now : Int) : (allow rl key now).2 =
    { rl with
      hits := Function.update rl.hits key
        (recent rl.window now (rl.hits key) ++ if (allow rl key now).1 then [now] else []) } := by
  simp only [allow, prune_eq_filter, recent]
  split <;> simp

/-- What counts for a later call counted for an earlier one. -/
private theorem recent_recent {window earlier now : Int} (le : earlier ≤ now) (times : List Int) :
    recent window now (recent window earlier times) = recent window now times := by
  rw [recent, recent, List.filter_filter]
  refine List.filter_congr fun ts _ => ?_
  rw [← Bool.decide_and]
  exact decide_eq_decide.mpr ⟨And.left, fun late => ⟨late, by omega⟩⟩

private theorem recent_append (window now : Int) (times others : List Int) :
    recent window now (times ++ others) = recent window now times ++ recent window now others := List.filter_append _ _

private theorem admitted_append (past : List (Call × Bool)) (call : Call) (answer : Bool) (key : String) :
    admitted (past ++ [(call, answer)]) key =
      admitted past key ++ if answer && call.key = key then [call.now] else [] := by
  rw [admitted, List.filter_append, List.map_append]
  by_cases counts : (answer && call.key = key) = true
  · simp [admitted, counts]
  · simp [admitted, counts]

/-! ## Runs -/

/-- The limiter after some calls, the last of them at `clock`: of the times that may still
count it holds those that were admitted. -/
structure Agrees (limit : Nat) (window : Int) (past : List (Call × Bool)) (clock : Int) (rl : LoginRateLimiter) : Prop where
  sameLimit : rl.limit = limit
  sameWindow : rl.window = window
  early : ∀ entry ∈ past, entry.1.now ≤ clock
  hits : ∀ key now, clock ≤ now → recent window now (rl.hits key) = recent window now (admitted past key)

variable {limit : Nat} {window : Int} {past : List (Call × Bool)} {clock : Int} {rl : LoginRateLimiter} {call : Call}

theorem agrees_new (limit : Nat) (window clock : Int) :
    Agrees limit window [] clock (newLoginRateLimiter limit window) :=
  ⟨rfl, rfl, nofun, fun _ _ _ => rfl⟩

/-- A call is allowed while fewer than `limit` calls with its key are recent. -/
theorem Agrees.answer (agrees : Agrees limit window past clock rl) (later : clock ≤ call.now) :
    (allow rl call.key call.now).1 = true ↔ (recent window call.now (admitted past call.key)).length < limit := by
  rw [allow_fst, agrees.sameLimit, agrees.sameWindow, agrees.hits call.key call.now later]

theorem Agrees.step (agrees : Agrees limit window past clock rl) (later : clock ≤ call.now) :
    Agrees limit window (past ++ [(call, (allow rl call.key call.now).1)]) call.now (allow rl call.key call.now).2 := by
  rw [allow_snd]
  refine ⟨agrees.sameLimit, agrees.sameWindow, List.forall_mem_append.mpr ⟨?_, by simp⟩, fun key now le => ?_⟩
  · exact fun entry held => (agrees.early entry held).trans later
  · rw [admitted_append, recent_append, ← agrees.hits key now (later.trans le), agrees.sameWindow]
    by_cases same : call.key = key
    · subst same
      simp only [Function.update_self]
      rw [recent_append, recent_recent le]
      simp
    · simp only [Function.update_of_ne (Ne.symm same)]
      simp [same, recent]

/-- What every call preserves holds of the whole run. -/
theorem Agrees.run {P : List (Call × Bool) → Prop}
    (step : ∀ {past clock rl call}, Agrees limit window past clock rl → clock ≤ call.now → P past →
      P (past ++ [(call, (allow rl call.key call.now).1)]))
    {calls : List Call} (agrees : Agrees limit window past clock rl) (held : P past) (later : ∀ call ∈ calls, clock ≤ call.now)
    (ordered : calls.Pairwise fun a b => a.now ≤ b.now) : P (past ++ log rl calls) := by
  induction calls generalizing past clock rl with
  | nil => simpa [log] using held
  | cons call calls ih =>
    obtain ⟨before, rest⟩ := List.pairwise_cons.mp ordered
    have now := later call List.mem_cons_self
    rw [log, List.append_cons]
    exact ih (agrees.step now) (step agrees now held) before rest

/-! ## Guarantees -/

/-- Instants of which none is a window behind another. -/
def Short (window : Int) (inside : Int → Bool) : Prop :=
  ∀ first last, inside first = true → inside last = true → last - window < first

/-- The last admitted time of a short interval has all the others in its window. -/
private theorem admitted_step {inside : Int → Bool} (short : Short window inside) (other : window ≠ -2 ^ 63) {key : String}
    (agrees : Agrees limit window past clock rl) (later : clock ≤ call.now)
    (atMost : ((admitted past key).filter inside).length ≤ limit) :
    ((admitted (past ++ [(call, (allow rl call.key call.now).1)]) key).filter inside).length ≤ limit := by
  rw [admitted_append, List.filter_append, List.length_append]
  by_cases counted : ((allow rl call.key call.now).1 && call.key = key) = true ∧ inside call.now = true
  · obtain ⟨counts, within⟩ := counted
    obtain ⟨allowed, same⟩ := Bool.and_eq_true _ _ ▸ counts
    obtain rfl := of_decide_eq_true same
    have fewer := (agrees.answer later).mp allowed
    have included : ((admitted past call.key).filter inside).length ≤ (recent window call.now (admitted past call.key)).length := by
      refine (List.monotone_filter_right _ fun ts here => ?_).length_le
      have near := short ts call.now here within
      rw [decide_eq_true_eq, negated, if_neg other]
      omega
    rw [if_pos counts, List.filter_cons_of_pos within]
    simp only [List.filter_nil, List.length_singleton]
    omega
  · have nothing : (if ((allow rl call.key call.now).1 && call.key = key) = true then [call.now] else []).filter inside = [] := by
      split
      case isTrue counts => exact List.filter_eq_nil_iff.mpr (by simpa using fun within => counted ⟨counts, within⟩)
      case isFalse => rfl
    rw [nothing]
    exact atMost

/-- What the limiter is for. -/
structure Throttles (limit : Nat) (window : Int) (calls : List Call) : Prop where
  fromStart : ∀ key start, ((admitted (log (newLoginRateLimiter limit window) calls) key).filter fun ts =>
    start ≤ ts ∧ ts < start + window).length ≤ limit
  toEnd : ∀ key start, ((admitted (log (newLoginRateLimiter limit window) calls) key).filter fun ts =>
    start < ts ∧ ts ≤ start + window).length ≤ limit
  refused : ∀ before call after, log (newLoginRateLimiter limit window) calls = before ++ (call, false) :: after →
    limit ≤ ((admitted before call.key).filter fun ts => call.now - window < ts ∧ ts ≤ call.now).length
  independent : ∀ key, (log (newLoginRateLimiter limit window) calls).filter (fun entry => entry.1.key = key) =
    log (newLoginRateLimiter limit window) (calls.filter fun call => call.key = key)

private theorem log_filter {first second : LoginRateLimiter} {key : String} (limits : first.limit = second.limit)
    (windows : first.window = second.window) (hits : first.hits key = second.hits key) (calls : List Call) :
    (log first calls).filter (fun entry => entry.1.key = key) = log second (calls.filter fun call => call.key = key) := by
  induction calls generalizing first second with
  | nil => rfl
  | cons call calls ih =>
    have left := allow_snd first call.key call.now
    by_cases same : call.key = key
    · subst same
      have answers : (allow first call.key call.now).1 = (allow second call.key call.now).1 := by
        rw [Bool.eq_iff_iff, allow_fst, allow_fst, limits, windows, hits]
      have right := allow_snd second call.key call.now
      rw [List.filter_cons_of_pos (by simp), log, log, List.filter_cons_of_pos (by simp), answers]
      refine congrArg _ (ih ?_ ?_ ?_)
      · rw [left, right]
        exact limits
      · rw [left, right]
        exact windows
      · simp only [left, right, Function.update_self, answers, windows, hits]
    · rw [List.filter_cons_of_neg (by simpa using same), log, List.filter_cons_of_neg (by simpa using same)]
      refine ih ?_ ?_ ?_
      · rw [left]
        exact limits
      · rw [left]
        exact windows
      · simp only [left, Function.update_of_ne (Ne.symm same), hits]

private def Refusals (limit : Nat) (window : Int) (entries : List (Call × Bool)) : Prop :=
  ∀ before call after, entries = before ++ (call, false) :: after →
    limit ≤ ((admitted before call.key).filter fun ts => call.now - window < ts ∧ ts ≤ call.now).length

private theorem refusals_step (other : window ≠ -2 ^ 63) (agrees : Agrees limit window past clock rl)
    (later : clock ≤ call.now) (refusals : Refusals limit window past) :
    Refusals limit window (past ++ [(call, (allow rl call.key call.now).1)]) := by
  intro before refused after split
  rcases List.eq_nil_or_concat after with rfl | ⟨others, last, rfl⟩
  · obtain ⟨rfl, entry⟩ := List.append_inj' split rfl
    obtain ⟨rfl, answer⟩ := Prod.mk.inj (List.cons.inj entry).1
    have many := not_lt.mp fun few => Bool.false_ne_true (answer.symm.trans ((agrees.answer later).mpr few))
    refine many.trans_eq (congrArg List.length (List.filter_congr fun ts held => ?_))
    obtain ⟨entry, listed, rfl⟩ := List.mem_map.mp held
    have early := (agrees.early entry (List.mem_filter.mp listed).1).trans later
    rw [negated, if_neg other]
    exact decide_eq_decide.mpr ⟨fun late => ⟨by omega, early⟩, fun late => by omega⟩
  · rw [List.concat_eq_append, ← List.cons_append, ← List.append_assoc] at split
    exact refusals before refused others (List.append_inj' split rfl).1

/-- Over all calls with a clock that does not run back. The least duration is its own
negation, with which the limiter prunes nothing. -/
theorem allow_throttles (limit : Nat) {window : Int} (other : window ≠ -2 ^ 63) {calls : List Call}
    (ordered : calls.Pairwise fun a b => a.now ≤ b.now) : Throttles limit window calls := by
  obtain ⟨clock, later⟩ : ∃ clock, ∀ call ∈ calls, clock ≤ call.now := by
    cases calls with
    | nil => exact ⟨0, nofun⟩
    | cons first rest => exact ⟨first.now, List.forall_mem_cons.mpr ⟨le_rfl, (List.pairwise_cons.mp ordered).1⟩⟩
  have start := agrees_new limit window clock
  have atMost {inside : Int → Bool} (short : Short window inside) (key : String) :
      ((admitted (log (newLoginRateLimiter limit window) calls) key).filter inside).length ≤ limit :=
    start.run (P := fun entries => ((admitted entries key).filter inside).length ≤ limit)
      (fun agrees => admitted_step short other agrees) (Nat.zero_le _) later ordered
  refine ⟨fun key start => atMost ?_ key, fun key start => atMost ?_ key, ?_, fun key => log_filter rfl rfl rfl calls⟩
  · intro first last here there
    simp only [decide_eq_true_eq] at here there
    omega
  · intro first last here there
    simp only [decide_eq_true_eq] at here there
    omega
  · exact start.run (P := Refusals limit window) (fun agrees => refusals_step other agrees)
      (fun before call after none => absurd none (by simp)) later ordered

private def threeCalls : List Call := [⟨"10.0.0.1", 0⟩, ⟨"10.0.0.1", 0⟩, ⟨"10.0.0.1", minute⟩]

/-- Two calls at one instant, and one a minute later. -/
theorem three_calls : Throttles 1 minute threeCalls := allow_throttles 1 (by decide) (by decide)

/-- Where negating the window overflows, a call is refused on account of one that no window
of that length holds. -/
theorem least_window : ¬ ∀ (limit : Nat) (window : Int) (calls : List Call),
    -2 ^ 63 ≤ window → window < 2 ^ 63 → calls.Pairwise (fun a b => a.now ≤ b.now) → Throttles limit window calls := by
  intro throttles
  have held := throttles 1 (-2 ^ 63) [⟨"10.0.0.1", 0⟩, ⟨"10.0.0.1", 0⟩] (by decide) (by decide) (by decide)
  have counted := held.refused [(⟨"10.0.0.1", 0⟩, true)] ⟨"10.0.0.1", 0⟩ [] (by decide)
  revert counted
  decide

end Ironsight.RateLimits
