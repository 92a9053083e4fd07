import Mathlib.Data.List.Basic
import Mathlib.Data.List.Induction

/-! Runs of a transition function and interleavings of threads over a shared
store. A run is the list of its moves; whatever the outside world chooses (a
clock reading, a random identifier, which thread goes next) is part of the
move, so a property of every list of moves is a property of every schedule.

`Along` judges a condition at the state each step starts from, `Throughout`
judges a property in every state the run passes through. The rules at the end
of each section derive both from what one step preserves. -/
namespace Ironsight.Runs

section Runs
variable {σ ι : Type*} {step : σ → ι → σ}

/-- The state a run ends in. -/
def exec (step : σ → ι → σ) (start : σ) (moves : List ι) : σ := moves.foldl step start

@[simp] theorem exec_nil (start : σ) : exec step start [] = start := rfl

@[simp] theorem exec_cons (start : σ) (move : ι) (rest : List ι) :
    exec step start (move :: rest) = exec step (step start move) rest := rfl

theorem exec_append (start : σ) (earlier later : List ι) :
    exec step start (earlier ++ later) = exec step (exec step start earlier) later :=
  List.foldl_append

/-- Every step of the run satisfies `holds` at the state it starts from. -/
def Along (step : σ → ι → σ) (holds : σ → ι → Prop) : σ → List ι → Prop
  | _, [] => True
  | state, move :: rest => holds state move ∧ Along step holds (step state move) rest

/-- `good` holds in every state of the run, the first and the last included. -/
def Throughout (step : σ → ι → σ) (good : σ → Prop) : σ → List ι → Prop
  | state, [] => good state
  | state, move :: rest => good state ∧ Throughout step good (step state move) rest

instance along_decidable (holds : σ → ι → Prop) [∀ state move, Decidable (holds state move)] :
    (start : σ) → (moves : List ι) → Decidable (Along step holds start moves)
  | _, [] => isTrue trivial
  | state, move :: rest =>
    have := along_decidable holds (step state move) rest
    inferInstanceAs (Decidable (holds state move ∧ Along step holds (step state move) rest))

instance throughout_decidable (good : σ → Prop) [DecidablePred good] :
    (start : σ) → (moves : List ι) → Decidable (Throughout step good start moves)
  | start, [] => inferInstanceAs (Decidable (good start))
  | start, move :: rest =>
    have := throughout_decidable good (step start move) rest
    inferInstanceAs (Decidable (good start ∧ Throughout step good (step start move) rest))

theorem along_trivial : ∀ (moves : List ι) (start : σ), Along step (fun _ _ => True) start moves
  | [], _ => trivial
  | _ :: rest, _ => ⟨trivial, along_trivial rest _⟩

/-- An invariant that every allowed step preserves holds in every state of a
run whose steps are all allowed. -/
theorem throughout_of_invariant {allowed : σ → ι → Prop} {inv : σ → Prop}
    (preserved : ∀ state move, inv state → allowed state move → inv (step state move)) :
    ∀ (moves : List ι) (start : σ), inv start → Along step allowed start moves →
      Throughout step inv start moves
  | [], _, initial, _ => initial
  | move :: rest, start, initial, along =>
    ⟨initial, throughout_of_invariant preserved rest _ (preserved start move initial along.1) along.2⟩

theorem throughout_mono {weak strong : σ → Prop} (implies : ∀ state, strong state → weak state) :
    ∀ (moves : List ι) (start : σ), Throughout step strong start moves →
      Throughout step weak start moves
  | [], start, held => implies start held
  | _ :: rest, start, held => ⟨implies start held.1, throughout_mono implies rest _ held.2⟩

/-- Two properties that agree wherever an invariant holds hold throughout the same
runs, if the steps from good states keep the invariant. -/
theorem throughout_congr {inv left right : σ → Prop} (same : ∀ state, inv state → (left state ↔ right state))
    (preserved : ∀ state move, inv state → left state → inv (step state move)) :
    ∀ (moves : List ι) (start : σ), inv start → (Throughout step left start moves ↔ Throughout step right start moves)
  | [], start, initial => same start initial
  | move :: rest, start, initial => by
    constructor
    · rintro ⟨now, later⟩
      have kept := preserved start move initial now
      exact ⟨(same start initial).mp now, (throughout_congr same preserved rest _ kept).mp later⟩
    · rintro ⟨now, later⟩
      have here := (same start initial).mpr now
      have kept := preserved start move initial here
      exact ⟨here, (throughout_congr same preserved rest _ kept).mpr later⟩

theorem throughout_last {good : σ → Prop} :
    ∀ (moves : List ι) (start : σ), Throughout step good start moves → good (exec step start moves)
  | [], _, held => held
  | move :: rest, start, held => throughout_last rest (step start move) held.2

theorem throughout_first {good : σ → Prop} :
    ∀ {moves : List ι} {start : σ}, Throughout step good start moves → good start
  | [], _, held => held
  | _ :: _, _, held => held.1

/-- What holds throughout holds where a part of the run ends. -/
theorem throughout_at {good : σ → Prop} : ∀ (earlier : List ι) {later : List ι} {start : σ},
    Throughout step good start (earlier ++ later) → good (exec step start earlier)
  | [], _, _, held => throughout_first held
  | _ :: rest, _, _, held => throughout_at rest held.2

/-- What holds throughout holds before every step. -/
theorem along_of_throughout {good : σ → Prop} : ∀ {moves : List ι} {start : σ}, Throughout step good start moves →
    Along step (fun state _ => good state) start moves
  | [], _, _ => trivial
  | _ :: _, _, held => ⟨held.1, along_of_throughout held.2⟩

theorem exec_invariant {inv : σ → Prop} (preserved : ∀ state move, inv state → inv (step state move)) :
    ∀ (moves : List ι) (start : σ), inv start → inv (exec step start moves)
  | [], _, initial => initial
  | move :: rest, start, initial =>
    exec_invariant preserved rest (step start move) (preserved start move initial)

/-- What every step keeps of the state it starts from, the run keeps of its
first state. -/
theorem exec_related {inv : σ → Prop} (rel : σ → σ → Prop) (refl : ∀ state, rel state state)
    (trans : ∀ first second third, rel first second → rel second third → rel first third)
    (preserved : ∀ state move, inv state → inv (step state move))
    (related : ∀ state move, inv state → rel state (step state move)) :
    ∀ (moves : List ι) (start : σ), inv start → rel start (exec step start moves)
  | [], start, _ => refl start
  | move :: rest, start, initial =>
    trans _ _ _ (related start move initial)
      (exec_related rel refl trans preserved related rest _ (preserved start move initial))

theorem along_and {left right : σ → ι → Prop} : ∀ {moves : List ι} {start : σ}, Along step left start moves →
    Along step right start moves → Along step (fun state move => left state move ∧ right state move) start moves
  | [], _, _, _ => trivial
  | _ :: _, _, one, other => ⟨⟨one.1, other.1⟩, along_and one.2 other.2⟩

theorem along_snoc {holds : σ → ι → Prop} {move : ι} : ∀ {moves : List ι} {start : σ},
    Along step holds start (moves ++ [move]) ↔ Along step holds start moves ∧ holds (exec step start moves) move
  | [], _ => by simp [Along]
  | first :: rest, start => by
    have rest_iff : Along step holds (step start first) (rest ++ [move]) ↔
        Along step holds (step start first) rest ∧ holds (exec step (step start first) rest) move := along_snoc
    simp only [List.cons_append, Along, exec_cons, rest_iff, and_assoc]

/-- A condition along a run is one on every part of it and the move that follows. -/
theorem along_iff_parts {holds : σ → ι → Prop} {start : σ} (moves : List ι) : Along step holds start moves ↔
    ∀ earlier move, earlier ++ [move] <+: moves → holds (exec step start earlier) move := by
  induction moves using List.reverseRecOn with
  | nil => exact iff_of_true trivial fun earlier move part => by simp at part
  | append_singleton moves last before =>
    rw [along_snoc, before]
    constructor
    · rintro ⟨parts, now⟩ earlier move part
      rcases List.prefix_concat_iff.mp part with whole | shorter
      · obtain ⟨rfl, same⟩ := List.append_inj' whole rfl
        rw [List.singleton_inj.mp same]
        exact now
      · exact parts earlier move shorter
    · intro parts
      exact ⟨fun earlier move part => parts earlier move (part.trans (List.prefix_append ..)), parts moves last List.prefix_rfl⟩

/-- What every allowed step does by itself, all steps of an allowed run do. -/
theorem along_mono {weak strong : σ → ι → Prop} (implies : ∀ state move, strong state move → weak state move) :
    ∀ {moves : List ι} {start : σ}, Along step strong start moves → Along step weak start moves
  | [], _, _ => trivial
  | _ :: _, _, held => ⟨implies _ _ held.1, along_mono implies held.2⟩

/-- Two step conditions that agree pick out the same runs. -/
theorem along_congr {left right : σ → ι → Prop} (same : ∀ state move, left state move ↔ right state move) :
    ∀ (moves : List ι) (start : σ), Along step left start moves ↔ Along step right start moves
  | [], _ => Iff.rfl
  | move :: rest, start => and_congr (same start move) (along_congr same rest _)

/-- Two step conditions that agree wherever an invariant holds pick out the same
runs, if the steps they allow keep the invariant. -/
theorem along_congr_of_invariant {inv : σ → Prop} {left right : σ → ι → Prop}
    (preserved : ∀ state move, inv state → left state move → inv (step state move))
    (same : ∀ state move, inv state → (left state move ↔ right state move)) :
    ∀ (moves : List ι) (start : σ), inv start →
      (Along step left start moves ↔ Along step right start moves)
  | [], _, _ => Iff.rfl
  | move :: rest, start, initial => by
    constructor
    · rintro ⟨now, later⟩
      exact ⟨(same start move initial).mp now,
        (along_congr_of_invariant preserved same rest _ (preserved start move initial now)).mp later⟩
    · rintro ⟨now, later⟩
      have allowed := (same start move initial).mpr now
      exact ⟨allowed,
        (along_congr_of_invariant preserved same rest _ (preserved start move initial allowed)).mpr later⟩

/-- When, under what the outside world promises of every step, a step leads from
a good state to a good state exactly if it is allowed, a run stays good exactly
if all its steps are allowed. -/
theorem throughout_iff_along_of {inv good : σ → Prop} {promised allowed : σ → ι → Prop}
    (preserved : ∀ state move, inv state → promised state move → good state → allowed state move →
      inv (step state move))
    (exact_step : ∀ state move, inv state → promised state move → good state →
      (good (step state move) ↔ allowed state move)) :
    ∀ (moves : List ι) (start : σ), inv start → good start → Along step promised start moves →
      (Throughout step good start moves ↔ Along step allowed start moves)
  | [], _, _, fine, _ => iff_of_true fine trivial
  | move :: rest, start, initial, fine, ⟨now, after⟩ => by
    have exact_now := exact_step start move initial now fine
    constructor
    · rintro ⟨_, later⟩
      have next : good (step start move) := throughout_first later
      have permitted := exact_now.mp next
      have kept := preserved start move initial now fine permitted
      exact ⟨permitted, (throughout_iff_along_of preserved exact_step rest _ kept next after).mp later⟩
    · rintro ⟨permitted, later⟩
      have next : good (step start move) := exact_now.mpr permitted
      have kept := preserved start move initial now fine permitted
      exact ⟨fine, (throughout_iff_along_of preserved exact_step rest _ kept next after).mpr later⟩

/-- When a step leads from a good state to a good state exactly under
`allowed`, a run stays good exactly if all its steps are allowed. -/
theorem throughout_iff_along {inv good : σ → Prop} {allowed : σ → ι → Prop}
    (preserved : ∀ state move, inv state → inv (step state move))
    (exact_step : ∀ state move, inv state → good state → (good (step state move) ↔ allowed state move))
    (moves : List ι) (start : σ) (initial : inv start) (fine : good start) :
    Throughout step good start moves ↔ Along step allowed start moves :=
  throughout_iff_along_of (fun state move held _ _ _ => preserved state move held)
    (fun state move held _ => exact_step state move held) moves start initial fine (along_trivial moves start)

end Runs

section Partial
variable {σ ι : Type*} {step : σ → ι → Option σ}

/-- A run of steps that may fail comes to its end when none does from a state that the
invariant allows. -/
theorem foldlM_rule (inv : σ → Prop) {moves : List ι} {start : σ} (held : inv start)
    (each : ∀ move ∈ moves, ∀ state, inv state → ∃ next, step state move = some next ∧ inv next) :
    ∃ final, moves.foldlM step start = some final ∧ inv final := by
  induction moves generalizing start with
  | nil => exact ⟨start, rfl, held⟩
  | cons move moves ih =>
    obtain ⟨next, ran, kept⟩ := each move List.mem_cons_self start held
    rw [List.foldlM_cons, ran]
    exact ih kept fun other member => each other (List.mem_cons_of_mem _ member)

/-- A run that has come to its end keeps what its steps preserve. -/
theorem foldlM_invariant (inv : σ → Prop) {moves : List ι} {start final : σ} (held : inv start)
    (each : ∀ move ∈ moves, ∀ state next, inv state → step state move = some next → inv next)
    (ran : moves.foldlM step start = some final) : inv final := by
  induction moves generalizing start with
  | nil =>
    cases ran
    exact held
  | cons move moves ih =>
    rw [List.foldlM_cons] at ran
    obtain ⟨next, first, rest⟩ := Option.bind_eq_some_iff.mp ran
    exact ih (each move List.mem_cons_self start next held first)
      (fun other member => each other (List.mem_cons_of_mem _ member)) rest

end Partial

section Faults

/-- What a process may be sent: a graceful shutdown, which cancels its context, or its
end. -/
inductive Signal where
  | shutdown
  | kill
  deriving DecidableEq

/-- A failing statement: refused, or carried out with its answer lost. -/
inductive Fault where
  | refused (err : String)
  | lost (err : String)
  deriving DecidableEq

/-- A statement sent under this context and meeting this fault is carried out. -/
def executes (cancelled : Bool) (fault : Option Fault) : Bool :=
  !cancelled && match fault with
    | some (.refused _) => false
    | some (.lost _) | none => true

end Faults

section Pools
variable {σ τ α ε : Type*}

/-- Code that many threads run over one store. `next` performs one atomic
statement of a thread, with what the outside world supplies to it. -/
structure Program (σ τ α ε : Type*) where
  start : α → τ
  next : ε → τ → σ → τ × σ

/-- The store and the local states of all threads started so far. -/
structure Pool (σ τ : Type*) where
  shared : σ
  threads : List τ

/-- A thread is started, or one thread performs one statement. -/
inductive Move (α ε : Type*) where
  | spawn (request : α)
  | run (thread : Nat) (env : ε)

/-- A statement that keeps a thread's part of an observation keeps the whole. -/
theorem map_set_same {β : Type*} {observe : τ → β} {threads : List τ} {thread : Nat} {before after : τ}
    (running : threads[thread]? = some before) (same : observe after = observe before) :
    (threads.set thread after).map observe = threads.map observe := by
  obtain ⟨inside, held⟩ := List.getElem?_eq_some_iff.mp running
  apply List.ext_getElem?
  intro position
  by_cases here : thread = position
  · subst here
    simp [inside, held, same]
  · simp [List.getElem?_set_ne here]

/-- The keys that threads hold are pairwise different. -/
def Distinct {κ : Type*} (key : τ → Option κ) (threads : List τ) : Prop :=
  ∀ (i j : Nat) first second k, threads[i]? = some first → threads[j]? = some second →
    key first = some k → key second = some k → i = j

/-- A thread may move on with the key it holds, or take one that no thread
holds. -/
theorem Distinct.set {κ : Type*} {key : τ → Option κ} {threads : List τ} {thread : Nat} {before after : τ}
    (distinct : Distinct key threads) (running : threads[thread]? = some before)
    (fresh : ∀ k, key after = some k → key before = some k ∨ ∀ other ∈ threads, key other ≠ some k) :
    Distinct key (threads.set thread after) := by
  have alone {j : Nat} {other : τ} {k : κ} (held : threads[j]? = some other) (new : key after = some k)
      (same : key other = some k) : thread = j := by
    rcases fresh k new with kept | free
    · exact distinct thread j before other k running held kept same
    · exact absurd same (free other (List.mem_of_getElem? held))
  intro i j first second k atI atJ left right
  rw [List.getElem?_set] at atI atJ
  split at atI
  · rename_i here
    subst here
    split at atI
    · cases atI
      split at atJ
      · assumption
      · exact alone atJ left right
    · cases atI
  · split at atJ
    · rename_i here
      subst here
      split at atJ
      · cases atJ
        exact (alone atI right left).symm
      · cases atJ
    · exact distinct i j first second k atI atJ left right

/-- A new thread that holds no key changes nothing. -/
theorem Distinct.append {κ : Type*} {key : τ → Option κ} {threads : List τ} {thread : τ}
    (distinct : Distinct key threads) (free : key thread = none) : Distinct key (threads ++ [thread]) := by
  have old {i : Nat} {current : τ} {k : κ} (held : (threads ++ [thread])[i]? = some current)
      (holds : key current = some k) : threads[i]? = some current := by
    rw [List.getElem?_append] at held
    split at held
    · exact held
    · have new : current = thread := List.mem_singleton.mp (List.mem_of_getElem? held)
      rw [new, free] at holds
      cases holds
  intro i j first second k atI atJ left right
  exact distinct i j first second k (old atI left) (old atJ right) left right

/-- After one thread moved on, a thread is that one or one of the others. -/
theorem mem_set_cases {threads : List τ} {thread : Nat} {after current : τ} (member : current ∈ threads.set thread after) :
    current = after ∨ ∃ j, j ≠ thread ∧ threads[j]? = some current := by
  obtain ⟨j, found⟩ := List.mem_iff_getElem?.mp member
  rw [List.getElem?_set] at found
  split at found
  · split at found
    · exact .inl (Option.some.inj found).symm
    · cases found
  · rename_i elsewhere
    exact .inr ⟨j, fun same => elsewhere same.symm, found⟩

/-- A thread other than the one that moved on is still there. -/
theorem mem_set_of_ne {threads : List τ} {thread : Nat} {before after other : τ}
    (running : threads[thread]? = some before) (member : other ∈ threads) (differs : other ≠ before) :
    other ∈ threads.set thread after := by
  obtain ⟨j, found⟩ := List.mem_iff_getElem?.mp member
  refine List.mem_iff_getElem?.mpr ⟨j, ?_⟩
  have elsewhere : thread ≠ j := by
    rintro rfl
    rw [running] at found
    exact differs (Option.some.inj found).symm
  rwa [List.getElem?_set_ne elsewhere]

/-- Counting threads: one leaves the count and one enters it. -/
theorem countP_set_add {threads : List τ} {thread : Nat} {before : τ} (counted : τ → Bool)
    (running : threads[thread]? = some before) (after : τ) :
    (threads.set thread after).countP counted + (if counted before then 1 else 0) =
      threads.countP counted + if counted after then 1 else 0 := by
  obtain ⟨inside, held⟩ := List.getElem?_eq_some_iff.mp running
  have bounded := List.boole_getElem_le_countP (p := counted) inside
  rw [List.countP_set inside, held]
  rw [held] at bounded
  omega

/-- What holds of every thread still does when one of them moves on. -/
theorem forall_mem_set {threads : List τ} {thread : Nat} {after : τ} {holds : τ → Prop}
    (all : ∀ current ∈ threads, holds current) (new : holds after) :
    ∀ current ∈ threads.set thread after, holds current := by
  intro current member
  rcases List.mem_or_eq_of_mem_set member with old | rfl
  · exact all current old
  · exact new

theorem forall_mem_append {threads : List τ} {thread : τ} {holds : τ → Prop}
    (all : ∀ current ∈ threads, holds current) (new : holds thread) :
    ∀ current ∈ threads ++ [thread], holds current := by
  intro current member
  rcases List.mem_append.mp member with old | added
  · exact all current old
  · rw [List.mem_singleton.mp added]
    exact new

/-- A condition on the statement that a move performs, judged before it. -/
def OnStatement (holds : Pool σ τ → ε → τ → Prop) (pool : Pool σ τ) : Move α ε → Prop
  | .spawn _ => True
  | .run thread env => ∀ current ∈ pool.threads[thread]?, holds pool env current

instance onStatement_decidable (holds : Pool σ τ → ε → τ → Prop) [∀ pool env current, Decidable (holds pool env current)]
    (pool : Pool σ τ) : (move : Move α ε) → Decidable (OnStatement holds pool move)
  | .spawn _ => isTrue trivial
  | .run thread env => inferInstanceAs (Decidable (∀ current ∈ pool.threads[thread]?, holds pool env current))

/-- The scheduler lets this thread perform a statement. -/
def Move.runs (thread : Nat) : Move α ε → Bool
  | .spawn _ => false
  | .run other _ => other = thread

namespace Program
variable (program : Program σ τ α ε)

/-- One move of the scheduler; a move of a thread that was never started does
nothing. -/
def step (pool : Pool σ τ) : Move α ε → Pool σ τ
  | .spawn request => { pool with threads := pool.threads ++ [program.start request] }
  | .run thread env =>
    match pool.threads[thread]? with
    | none => pool
    | some current =>
      let after := program.next env current pool.shared
      { shared := after.2, threads := pool.threads.set thread after.1 }

variable {program} {pool : Pool σ τ}

@[simp] theorem step_spawn (request : α) : program.step pool (.spawn request) =
    { pool with threads := pool.threads ++ [program.start request] } := rfl

theorem step_run {thread : Nat} {current : τ} (running : pool.threads[thread]? = some current) (env : ε) :
    program.step pool (.run thread env) =
      { shared := (program.next env current pool.shared).2,
        threads := pool.threads.set thread (program.next env current pool.shared).1 } := by
  simp [step, running]

theorem step_run_none {thread : Nat} (absent : pool.threads[thread]? = none) (env : ε) :
    program.step pool (.run thread env) = pool := by
  simp [step, absent]

/-- What a move may do, once for all invariants. -/
theorem step_preserves (inv : Pool σ τ → Prop) (held : inv pool) (move : Move α ε)
    (spawned : ∀ request, move = .spawn request →
      inv { pool with threads := pool.threads ++ [program.start request] })
    (ran : ∀ thread env current, move = .run thread env → pool.threads[thread]? = some current →
      inv { shared := (program.next env current pool.shared).2,
            threads := pool.threads.set thread (program.next env current pool.shared).1 }) :
    inv (program.step pool move) := by
  cases move with
  | spawn request => exact spawned request rfl
  | run thread env =>
    cases running : pool.threads[thread]? with
    | none => rw [step_run_none running]; exact held
    | some current => rw [step_run running]; exact ran thread env current rfl running

/-- Threads are never taken away. -/
theorem length_step_le (move : Move α ε) : pool.threads.length ≤ (program.step pool move).threads.length := by
  refine step_preserves (fun later => pool.threads.length ≤ later.threads.length) (Nat.le_refl _) move ?_ ?_
  · intro request _
    simp
  · intro thread env current _ _
    simp

theorem length_exec_le (moves : List (Move α ε)) (pool : Pool σ τ) :
    pool.threads.length ≤ (exec program.step pool moves).threads.length := by
  induction moves generalizing pool with
  | nil => exact Nat.le_refl _
  | cons move rest longer => exact Nat.le_trans (length_step_le move) (longer _)

/-- A thread that the move does not run stands where it stood, a new one at its start, and
the one that the move runs is a statement further. -/
inductive Stands (program : Program σ τ α ε) (pool : Pool σ τ) (move : Move α ε) (thread : Nat) (current : τ) : Prop where
  | still (idle : Move.runs thread move = false) (before : pool.threads[thread]? = some current)
  | started (request : α) (spawned : move = .spawn request) (last : thread = pool.threads.length)
      (start : current = program.start request)
  | moved (env : ε) (before : τ) (ran : move = .run thread env) (running : pool.threads[thread]? = some before)
      (next : current = (program.next env before pool.shared).1)

theorem stands_of_step {move : Move α ε} {thread : Nat} {current : τ}
    (running : (program.step pool move).threads[thread]? = some current) : Stands program pool move thread current := by
  cases move with
  | spawn request =>
    rw [step_spawn] at running
    simp only [List.getElem?_append] at running
    split at running
    · exact .still rfl running
    · rename_i new
      obtain ⟨here, same⟩ := List.getElem?_eq_some_iff.mp running
      have last : thread = pool.threads.length := by
        simp only [List.length_singleton] at here
        omega
      simp only [List.getElem_singleton] at same
      exact .started request rfl last same.symm
  | run other env =>
    cases moving : pool.threads[other]? with
    | none =>
      rw [step_run_none moving] at running
      have elsewhere : other ≠ thread := by
        rintro rfl
        rw [moving] at running
        cases running
      exact .still (by simp [Move.runs, elsewhere]) running
    | some before =>
      rw [step_run moving] at running
      by_cases here : other = thread
      · subst here
        simp only [List.getElem?_set_self (List.getElem?_eq_some_iff.mp moving).1, Option.some.injEq] at running
        exact .moved env before rfl moving running.symm
      · simp only [List.getElem?_set_ne here] at running
        exact .still (by simp [Move.runs, here]) running

/-- What a thread's account says of the moves made so far, it says after every
run: it opens with the thread, moves of others extend it, and so do its own. -/
theorem account_rule {start : Pool σ τ} (allowed : Pool σ τ → Move α ε → Prop) (empty : start.threads = [])
    (account : List (Move α ε) → Nat → τ → Prop)
    (spawned : ∀ moves request, account (moves ++ [.spawn request]) (exec program.step start moves).threads.length
      (program.start request))
    (kept : ∀ moves move, (∀ thread current, (exec program.step start moves).threads[thread]? = some current →
        account moves thread current) → allowed (exec program.step start moves) move →
      ∀ thread current, (exec program.step start moves).threads[thread]? = some current →
        Move.runs thread move = false → account (moves ++ [move]) thread current)
    (ran : ∀ moves thread env current, (exec program.step start moves).threads[thread]? = some current →
      allowed (exec program.step start moves) (.run thread env) → account moves thread current →
      account (moves ++ [.run thread env]) thread (program.next env current (exec program.step start moves).shared).1)
    (moves : List (Move α ε)) : Along program.step allowed start moves →
      ∀ thread current, (exec program.step start moves).threads[thread]? = some current →
        account moves thread current := by
  induction moves using List.reverseRecOn with
  | nil =>
    intro _ thread current running
    rw [exec_nil, empty] at running
    cases running
  | append_singleton moves move earlier =>
    intro along thread current running
    obtain ⟨before, permitted⟩ := along_snoc.mp along
    have accounts := earlier before
    rw [exec_append, exec_cons, exec_nil] at running
    cases stands_of_step running with
    | still idle stood => exact kept moves move accounts permitted thread current stood idle
    | started request spawn last start =>
      subst spawn last start
      exact spawned moves request
    | moved env stood runs running' next =>
      subst runs next
      exact ran moves thread env stood running' permitted (accounts thread stood running')

/-- A thread each of whose turns comes when its statement lowers its rank has,
after as many turns as its rank counts, none left. -/
theorem rank_exec_of {rank : τ → Nat} {useful : Pool σ τ → ε → τ → Prop}
    (lowers : ∀ pool env current, useful pool env current →
      rank (program.next env current pool.shared).1 ≤ rank current - 1) :
    ∀ (moves : List (Move α ε)) (pool : Pool σ τ) (thread : Nat) (current : τ), pool.threads[thread]? = some current →
      Along program.step (fun pool move => move.runs thread → OnStatement useful pool move) pool moves →
      ∃ later, (exec program.step pool moves).threads[thread]? = some later ∧
        rank later ≤ rank current - moves.countP (Move.runs thread)
  | [], _, _, current, running, _ => ⟨current, running, by simp⟩
  | .spawn request :: rest, pool, thread, current, running, ⟨_, after⟩ => by
    have still : (program.step pool (.spawn request)).threads[thread]? = some current := by
      rw [step_spawn, List.getElem?_append_left (List.getElem?_eq_some_iff.mp running).1]
      exact running
    obtain ⟨later, found, bounded⟩ := rank_exec_of lowers rest _ thread current still after
    exact ⟨later, found, by simpa [Move.runs] using bounded⟩
  | .run other env :: rest, pool, thread, current, running, ⟨now, after⟩ => by
    by_cases here : other = thread
    · subst here
      have moved : (program.step pool (.run other env)).threads[other]? =
          some (program.next env current pool.shared).1 := by
        rw [step_run running, List.getElem?_set_self (List.getElem?_eq_some_iff.mp running).1]
      obtain ⟨later, found, bounded⟩ := rank_exec_of lowers rest _ other _ moved after
      refine ⟨later, found, ?_⟩
      have lowered := lowers pool env current (now (by simp [Move.runs]) current running)
      have counted : (Move.run other env :: rest).countP (Move.runs other) =
          rest.countP (Move.runs other) + 1 := by simp [Move.runs]
      omega
    · have still : (program.step pool (.run other env)).threads[thread]? = some current := by
        cases running_ : pool.threads[other]? with
        | none => rw [step_run_none running_, running]
        | some moving => rw [step_run running_, List.getElem?_set_ne here, running]
      obtain ⟨later, found, bounded⟩ := rank_exec_of lowers rest _ thread current still after
      exact ⟨later, found, by simpa [Move.runs, here] using bounded⟩

/-- A thread whose every statement lowers its rank has, after as many turns as
its rank counts, none left. -/
theorem rank_exec {rank : τ → Nat}
    (lowers : ∀ env current shared, rank (program.next env current shared).1 ≤ rank current - 1)
    (moves : List (Move α ε)) (pool : Pool σ τ) (thread : Nat) (current : τ)
    (running : pool.threads[thread]? = some current) :
    ∃ later, (exec program.step pool moves).threads[thread]? = some later ∧
      rank later ≤ rank current - moves.countP (Move.runs thread) := by
  have always : ∀ (pool : Pool σ τ) env current, True → rank (program.next env current pool.shared).1 ≤ rank current - 1 :=
    fun pool env current _ => lowers env current pool.shared
  refine rank_exec_of always moves pool thread current running ?_
  exact along_mono (fun _ move _ _ => by cases move <;> simp [OnStatement]) (along_trivial moves pool)

end Program
end Pools
end Ironsight.Runs
