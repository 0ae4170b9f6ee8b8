import Mathlib

/-!
# Programs in steps

A program changes a state step by step and may fail on the way; a failed program
leaves the state it has reached. Running it shows every state after a step, which
is where it may be interrupted. A specification says what holds of each of these
states and what holds at the end.
-/

namespace StepProgram

/-- The states after the steps of a run, its result, and the state it leaves. -/
structure Run (σ ε α : Type) where
  passed : List σ
  result : Except ε α
  left : σ

def Program (σ ε α : Type) := σ → Run σ ε α

variable {σ ε α β : Type}

def Run.andThen (run : Run σ ε α) (rest : α → Program σ ε β) : Run σ ε β :=
  match run.result with
  | .error error => ⟨run.passed, .error error, run.left⟩
  | .ok value =>
    let next := rest value run.left
    ⟨run.passed ++ next.passed, next.result, next.left⟩

instance : Monad (Program σ ε) where
  pure value := fun state => ⟨[], .ok value, state⟩
  bind first rest := fun state => (first state).andThen rest

/-- A read, which is not a step. -/
def query (read : σ → Except ε α) : Program σ ε α := fun state => ⟨[], read state, state⟩

/-- A step. -/
def perform (change : σ → σ) : Program σ ε Unit := fun state =>
  ⟨[change state], .ok (), change state⟩

/-- A step with an answer, which may be a failure. -/
def interact (turn : σ → Except ε α × σ) : Program σ ε α := fun state =>
  ⟨[(turn state).2], (turn state).1, (turn state).2⟩

/-- A program that goes on after a failure. -/
def recover (program : Program σ ε α) (handler : ε → Program σ ε α) : Program σ ε α := fun state =>
  match (program state).result with
  | .ok _ => program state
  | .error error =>
    let next := handler error (program state).left
    ⟨(program state).passed ++ next.passed, next.result, next.left⟩

/-! ## Evaluation -/

theorem run_bind (first : Program σ ε α) (rest : α → Program σ ε β) (state : σ) :
    (first >>= rest) state = (first state).andThen rest := rfl

variable {read : σ → Except ε α} {rest : α → Program σ ε β} {state : σ} {value : α}

theorem run_query_bind_ok (found : read state = .ok value) :
    (query read >>= rest) state = rest value state := by
  rw [run_bind, query, Run.andThen, found]
  rfl

variable {first : Program σ ε α} {reached : σ}

theorem mem_passed_bind (member : reached ∈ (first state).passed) :
    reached ∈ ((first >>= rest) state).passed := by
  rw [run_bind, Run.andThen]
  cases (first state).result with
  | error error => exact member
  | ok value => exact List.mem_append_left _ member

theorem mem_passed_bind_right (ended : (first state).result = .ok value)
    (member : reached ∈ (rest value (first state).left).passed) :
    reached ∈ ((first >>= rest) state).passed := by
  rw [run_bind, Run.andThen, ended]
  exact List.mem_append_right _ member

theorem mem_passed_query_bind (found : read state = .ok value)
    (member : reached ∈ (rest value state).passed) :
    reached ∈ ((query read >>= rest) state).passed := by
  rw [run_query_bind_ok found]
  exact member

/-! ## Specifications -/

/-- Every state after a step satisfies `always`; at the end `done` or `failed` holds. -/
structure Meets (program : Program σ ε α) (state : σ) (always : σ → Prop)
    (done : α → σ → Prop) (failed : ε → σ → Prop) : Prop where
  passed : ∀ reached ∈ (program state).passed, always reached
  done : ∀ value, (program state).result = .ok value → done value (program state).left
  failed : ∀ error, (program state).result = .error error → failed error (program state).left

variable {always : σ → Prop} {done : α → σ → Prop} {failed : ε → σ → Prop}

theorem meets_pure (holds : done value state) :
    Meets (pure value : Program σ ε α) state always done failed where
  passed := nofun
  done other same := by
    obtain rfl := Except.ok.inj same
    exact holds
  failed := nofun

theorem meets_query (found : ∀ value, read state = .ok value → done value state)
    (missing : ∀ error, read state = .error error → failed error state) :
    Meets (query read) state always done failed where
  passed := nofun
  done := found
  failed := missing

variable {change : σ → σ}

theorem meets_perform {finished : Unit → σ → Prop} (keeps : always (change state))
    (holds : finished () (change state)) :
    Meets (perform change) state always finished failed where
  passed reached member := by
    rw [perform, List.mem_singleton] at member
    rw [member]
    exact keeps
  done _ _ := holds
  failed := nofun

variable {finished : β → σ → Prop}

theorem Meets.bind {middle : α → σ → Prop} (front : Meets first state always middle failed)
    (back : ∀ value next, middle value next → Meets (rest value) next always finished failed) :
    Meets (first >>= rest) state always finished failed := by
  cases ended : (first state).result with
  | error error =>
    have stopped : (first >>= rest) state = ⟨(first state).passed, .error error, (first state).left⟩ := by
      rw [run_bind, Run.andThen, ended]
    refine ⟨stopped ▸ front.passed, stopped ▸ nofun, ?_⟩
    rw [stopped]
    intro other same
    obtain rfl := Except.error.inj same
    exact front.failed error ended
  | ok value =>
    have went : (first >>= rest) state =
        ⟨(first state).passed ++ (rest value (first state).left).passed,
          (rest value (first state).left).result, (rest value (first state).left).left⟩ := by
      rw [run_bind, Run.andThen, ended]
    have later := back value (first state).left (front.done value ended)
    refine ⟨?_, went ▸ later.done, went ▸ later.failed⟩
    rw [went]
    intro reached member
    exact (List.mem_append.mp member).elim (front.passed reached) (later.passed reached)

theorem meets_perform_bind {rest : Unit → Program σ ε β} (keeps : always (change state))
    (back : Meets (rest ()) (change state) always finished failed) :
    Meets (perform change >>= rest) state always finished failed := by
  have front : Meets (perform change) state always (fun _ next => next = change state) failed :=
    meets_perform keeps rfl
  refine front.bind fun _ next same => ?_
  rw [same]
  exact back

theorem meets_query_bind
    (back : ∀ value, read state = .ok value → Meets (rest value) state always finished failed)
    (missing : ∀ error, read state = .error error → failed error state) :
    Meets (query read >>= rest) state always finished failed := by
  have front : Meets (query read) state always
      (fun value next => next = state ∧ read state = .ok value) failed :=
    meets_query (fun value found => ⟨rfl, found⟩) missing
  refine front.bind fun value next found => ?_
  rw [found.1]
  exact back value found.2

theorem meets_query_bind_ok (found : read state = .ok value)
    (back : Meets (rest value) state always finished failed) :
    Meets (query read >>= rest) state always finished failed := by
  refine meets_query_bind (fun other same => ?_) fun error missing =>
    nomatch found.symm.trans missing
  obtain rfl := Except.ok.inj (found.symm.trans same)
  exact back

theorem meets_interact {turn : σ → Except ε α × σ} (keeps : always (turn state).2)
    (answered : ∀ value, (turn state).1 = .ok value → done value (turn state).2)
    (missing : ∀ error, (turn state).1 = .error error → failed error (turn state).2) :
    Meets (interact turn) state always done failed where
  passed reached member := by
    rw [interact, List.mem_singleton] at member
    rw [member]
    exact keeps
  done := answered
  failed := missing

variable {program : Program σ ε α}

theorem Meets.recover {handler : ε → Program σ ε α} {thrown : ε → σ → Prop}
    (body : Meets program state always done thrown)
    (handled : ∀ error next, thrown error next → Meets (handler error) next always done failed) :
    Meets (recover program handler) state always done failed := by
  cases ended : (program state).result with
  | ok value =>
    have same : StepProgram.recover program handler state = program state := by
      rw [StepProgram.recover, ended]
    refine ⟨same ▸ body.passed, same ▸ body.done, ?_⟩
    rw [same, ended]
    exact nofun
  | error error =>
    have later := handled error (program state).left (body.failed error ended)
    have went : StepProgram.recover program handler state =
        ⟨(program state).passed ++ (handler error (program state).left).passed,
          (handler error (program state).left).result,
          (handler error (program state).left).left⟩ := by
      rw [StepProgram.recover, ended]
    refine ⟨?_, went ▸ later.done, went ▸ later.failed⟩
    rw [went]
    intro reached member
    exact (List.mem_append.mp member).elim (body.passed reached) (later.passed reached)

theorem Meets.mono {always' : σ → Prop} {done' : α → σ → Prop} {failed' : ε → σ → Prop}
    (meets : Meets program state always done failed)
    (passing : ∀ reached, always reached → always' reached)
    (ending : ∀ value next, done value next → done' value next)
    (failing : ∀ error next, failed error next → failed' error next) :
    Meets program state always' done' failed' where
  passed reached member := passing reached (meets.passed reached member)
  done value ended := ending value _ (meets.done value ended)
  failed error ended := failing error _ (meets.failed error ended)

theorem Meets.succeeds (meets : Meets program state always done fun _ _ => False) :
    ∃ value, (program state).result = .ok value ∧ done value (program state).left := by
  cases ended : (program state).result with
  | error error => exact (meets.failed error ended).elim
  | ok value => exact ⟨value, rfl, meets.done value ended⟩

theorem meets_forM {items : List α} {body : α → Program σ ε Unit} {invariant : List α → σ → Prop}
    (start : invariant items state)
    (turn : ∀ item rest next, invariant (item :: rest) next →
      Meets (body item) next always (fun _ after => invariant rest after) failed) :
    Meets (items.forM body) state always (fun _ after => invariant [] after) failed := by
  induction items generalizing state with
  | nil => exact meets_pure start
  | cons item rest ih =>
    show Meets (body item >>= fun _ => rest.forM body) state always _ failed
    exact (turn item rest state start).bind fun _ _ left => ih left

end StepProgram
