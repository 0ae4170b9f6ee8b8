import GlifiStore.Core.Types

/-!
# The lifecycle of a mutation

The Writer follows each mutation through stages, with what is known of its commit and of
its publication beside the stage. Calls that do not fit the stage are refused.
-/

namespace GlifiStore.Paired

inductive CommitKnowledge where
  | knownNotCommitted
  | committed
  | indeterminate
  deriving DecidableEq, Repr

inductive PublicationState where
  | notRequired
  | required
  | staged
  | published
  | failed
  deriving DecidableEq, Repr

inductive MutationStage where
  | notAdmitted
  | admitted
  | staged
  | expiredPreStore
  | durableStarted
  | authorityCommitted
  | publicationRequired
  | published
  | completionDecided
  | completed
  | rejected
  | indeterminate
  deriving DecidableEq, Repr

inductive DurableMutationOutcome where
  | notCommitted
  | committed
  | indeterminate
  deriving DecidableEq, Repr

/-- What the lifecycle reads of a `DurableMutationResult`. -/
structure DurableMutationResult where
  outcome : DurableMutationOutcome := .notCommitted
  error : Option Error := none
  deriving DecidableEq, Repr

def commitKnowledgeFrom : DurableMutationOutcome → CommitKnowledge
  | .committed => .committed
  | .indeterminate => .indeterminate
  | .notCommitted => .knownNotCommitted

structure DurableDecision where
  knowledge : CommitKnowledge := .knownNotCommitted
  error : Option Error := none
  mutateEntered : Bool := false
  deriving DecidableEq, Repr

def DurableDecision.cleanCommit (durable : DurableDecision) : Bool :=
  decide (durable.knowledge = .committed) && durable.error.isNone

inductive CompletionKind where
  | undecided
  | success
  | knownNotCommitted
  | indeterminate
  deriving DecidableEq, Repr

structure CompletionDecision where
  kind : CompletionKind := .undecided
  failClosedRequired : Bool := false
  drainRequired : Bool := false
  deriving DecidableEq, Repr

def decideCompletion (durable : DurableDecision) (publication : PublicationState) :
    CompletionDecision :=
  if ¬ durable.mutateEntered ∧ durable.knowledge = .knownNotCommitted ∧ durable.error = none ∧
      publication = .notRequired then
    { kind := .knownNotCommitted }
  else
    match durable.knowledge with
    | .knownNotCommitted => { kind := .knownNotCommitted }
    | .indeterminate =>
      { kind := .indeterminate, failClosedRequired := true, drainRequired := true }
    | .committed =>
      if durable.cleanCommit ∧ publication = .published then { kind := .success }
      else
        { kind := if publication = .published then .success else .indeterminate
          failClosedRequired := true
          drainRequired := decide (publication ≠ .published) }

structure MutationLifecycle where
  stage : MutationStage := .notAdmitted
  durable : DurableDecision := {}
  publication : PublicationState := .notRequired
  completion : CompletionDecision := {}
  deriving DecidableEq, Repr

namespace MutationLifecycle

def transitionAllowed (source target : MutationStage) : Bool :=
  decide (source = target) ||
    match source with
    | .notAdmitted => decide (target = .admitted)
    | .admitted =>
      decide (target = .staged) || decide (target = .rejected) ||
        decide (target = .expiredPreStore)
    | .staged =>
      decide (target = .durableStarted) || decide (target = .expiredPreStore) ||
        decide (target = .rejected)
    | .expiredPreStore =>
      decide (target = .completionDecided) || decide (target = .rejected) ||
        decide (target = .completed)
    | .durableStarted =>
      decide (target = .authorityCommitted) || decide (target = .rejected) ||
        decide (target = .indeterminate) || decide (target = .publicationRequired)
    | .authorityCommitted => decide (target = .publicationRequired)
    | .publicationRequired => decide (target = .published) || decide (target = .indeterminate)
    | .published => decide (target = .completionDecided)
    | .indeterminate =>
      decide (target = .completionDecided) || decide (target = .publicationRequired)
    | .rejected => decide (target = .completionDecided) || decide (target = .completed)
    | .completionDecided => decide (target = .completed)
    | .completed => false

/-! ## Calls -/

section Transitions

variable (lifecycle : MutationLifecycle)

/-- `admit`, whose name is reserved. A refused call is `none`. -/
def admitMutation : Option MutationLifecycle :=
  if lifecycle.stage ≠ .notAdmitted then none else some { lifecycle with stage := .admitted }

def stageForWriter : Option MutationLifecycle :=
  if lifecycle.stage ≠ .admitted then none else some { lifecycle with stage := .staged }

def expirePreStore : Option MutationLifecycle :=
  if lifecycle.stage ≠ .admitted ∧ lifecycle.stage ≠ .staged then none
  else
    some
      { stage := .completionDecided
        durable := {}
        publication := .notRequired
        completion := decideCompletion {} .notRequired }

/-- `mark_durable_started`, which needs no staging. -/
def markDurableStarted : Option MutationLifecycle :=
  if lifecycle.stage ≠ .staged ∧ lifecycle.stage ≠ .admitted then none
  else
    some
      { lifecycle with
        stage := .durableStarted
        durable := { lifecycle.durable with mutateEntered := true } }

/-- `apply_durable_result`; of an error only the code is kept. -/
def applyDurableResult (result : DurableMutationResult) : Option MutationLifecycle :=
  if lifecycle.stage ≠ .durableStarted then none
  else
    let durable : DurableDecision :=
      { knowledge := commitKnowledgeFrom result.outcome
        error := result.error.map fun error => ⟨error.code, ""⟩
        mutateEntered := true }
    match durable.knowledge with
    | .committed =>
      some { lifecycle with stage := .publicationRequired, durable, publication := .required }
    | .indeterminate =>
      some { lifecycle with stage := .indeterminate, durable, publication := .required }
    | .knownNotCommitted =>
      some
        { stage := .completionDecided
          durable
          publication := .notRequired
          completion := decideCompletion durable .notRequired }

def requirePublication : Option MutationLifecycle :=
  if lifecycle.stage ≠ .authorityCommitted ∧ lifecycle.stage ≠ .indeterminate ∧
      lifecycle.stage ≠ .publicationRequired then
    none
  else some { lifecycle with stage := .publicationRequired, publication := .required }

def markPublicationStaged : Option MutationLifecycle :=
  if lifecycle.stage ≠ .publicationRequired then none
  else some { lifecycle with publication := .staged }

/-- The guard that `mark_published` and `mark_publication_failed` share. -/
def awaitsPublication : Bool :=
  decide (lifecycle.stage = .publicationRequired) || decide (lifecycle.publication = .staged) ||
    decide (lifecycle.publication = .required)

def markPublished : Option MutationLifecycle :=
  if ¬ lifecycle.awaitsPublication then none
  else if lifecycle.durable.knowledge = .knownNotCommitted then none
  else some { lifecycle with stage := .published, publication := .published }

def markPublicationFailed : Option MutationLifecycle :=
  if ¬ lifecycle.awaitsPublication then none
  else some { lifecycle with stage := .indeterminate, publication := .failed }

def markExceptionAfterDurableStart : Option MutationLifecycle :=
  if lifecycle.stage ≠ .durableStarted then none
  else
    some
      { lifecycle with
        stage := .indeterminate
        durable := ⟨.indeterminate, some ⟨.unavailable, ""⟩, true⟩
        publication := .required }

def decideAs (decision : CompletionDecision) : Option MutationLifecycle :=
  if lifecycle.stage = .completionDecided ∨ lifecycle.stage = .completed then none
  else if decision.kind = .undecided then none
  else if lifecycle.durable.knowledge = .committed ∧ decision.kind = .knownNotCommitted then none
  else
    match lifecycle.stage with
    | .published | .indeterminate | .rejected | .expiredPreStore =>
      some { lifecycle with stage := .completionDecided, completion := decision }
    | _ => none

def markCompleted : Option MutationLifecycle :=
  if lifecycle.stage ≠ .completionDecided then none
  else some { lifecycle with stage := .completed }

end Transitions

inductive Call where
  | admitMutation
  | stageForWriter
  | expirePreStore
  | markDurableStarted
  | applyDurableResult (result : DurableMutationResult)
  | requirePublication
  | markPublicationStaged
  | markPublished
  | markPublicationFailed
  | markExceptionAfterDurableStart
  | decide (decision : CompletionDecision)
  | markCompleted
  deriving DecidableEq, Repr

def perform (lifecycle : MutationLifecycle) : Call → Option MutationLifecycle
  | .admitMutation => lifecycle.admitMutation
  | .stageForWriter => lifecycle.stageForWriter
  | .expirePreStore => lifecycle.expirePreStore
  | .markDurableStarted => lifecycle.markDurableStarted
  | .applyDurableResult result => lifecycle.applyDurableResult result
  | .requirePublication => lifecycle.requirePublication
  | .markPublicationStaged => lifecycle.markPublicationStaged
  | .markPublished => lifecycle.markPublished
  | .markPublicationFailed => lifecycle.markPublicationFailed
  | .markExceptionAfterDurableStart => lifecycle.markExceptionAfterDurableStart
  | .decide decision => lifecycle.decideAs decision
  | .markCompleted => lifecycle.markCompleted

/-- A refused call changes nothing. -/
def step (lifecycle : MutationLifecycle) (call : Call) : MutationLifecycle :=
  (lifecycle.perform call).getD lifecycle

/-! ## What an accepted call does -/

/-- The accepted calls, with the stage that accepts them and what they leave. -/
inductive Accepts (before : MutationLifecycle) : Call → MutationLifecycle → Prop where
  | admitMutation (stage : before.stage = .notAdmitted) :
      Accepts before .admitMutation { before with stage := .admitted }
  | stageForWriter (stage : before.stage = .admitted) :
      Accepts before .stageForWriter { before with stage := .staged }
  | expirePreStore (stage : before.stage = .admitted ∨ before.stage = .staged) :
      Accepts before .expirePreStore
        ⟨.completionDecided, {}, .notRequired, ⟨.knownNotCommitted, false, false⟩⟩
  | markDurableStarted (stage : before.stage = .admitted ∨ before.stage = .staged) :
      Accepts before .markDurableStarted
        { before with
          stage := .durableStarted
          durable := { before.durable with mutateEntered := true } }
  | committed (result : DurableMutationResult) (stage : before.stage = .durableStarted)
      (error : Option Error) :
      Accepts before (.applyDurableResult result)
        { before with
          stage := .publicationRequired
          durable := ⟨.committed, error, true⟩
          publication := .required }
  | unknown (result : DurableMutationResult) (stage : before.stage = .durableStarted)
      (error : Option Error) :
      Accepts before (.applyDurableResult result)
        { before with
          stage := .indeterminate
          durable := ⟨.indeterminate, error, true⟩
          publication := .required }
  | notCommitted (result : DurableMutationResult) (stage : before.stage = .durableStarted)
      (error : Option Error) :
      Accepts before (.applyDurableResult result)
        ⟨.completionDecided, ⟨.knownNotCommitted, error, true⟩, .notRequired,
          ⟨.knownNotCommitted, false, false⟩⟩
  | requirePublication
      (stage : before.stage = .authorityCommitted ∨ before.stage = .indeterminate ∨
        before.stage = .publicationRequired) :
      Accepts before .requirePublication
        { before with stage := .publicationRequired, publication := .required }
  | markPublicationStaged (stage : before.stage = .publicationRequired) :
      Accepts before .markPublicationStaged { before with publication := .staged }
  | markPublished (awaits : before.awaitsPublication)
      (known : before.durable.knowledge ≠ .knownNotCommitted) :
      Accepts before .markPublished { before with stage := .published, publication := .published }
  | markPublicationFailed (awaits : before.awaitsPublication) :
      Accepts before .markPublicationFailed
        { before with stage := .indeterminate, publication := .failed }
  | markException (stage : before.stage = .durableStarted) :
      Accepts before .markExceptionAfterDurableStart
        { before with
          stage := .indeterminate
          durable := ⟨.indeterminate, some ⟨.unavailable, ""⟩, true⟩
          publication := .required }
  | decide (decision : CompletionDecision)
      (stage : before.stage = .published ∨ before.stage = .indeterminate ∨
        before.stage = .rejected ∨ before.stage = .expiredPreStore)
      (made : decision.kind ≠ .undecided)
      (honest : before.durable.knowledge = .committed → decision.kind ≠ .knownNotCommitted) :
      Accepts before (.decide decision)
        { before with stage := .completionDecided, completion := decision }
  | markCompleted (stage : before.stage = .completionDecided) :
      Accepts before .markCompleted { before with stage := .completed }

theorem accepted {refused : Prop} [Decidable refused] {value after : MutationLifecycle}
    (found : (if refused then none else some value) = some after) : ¬ refused ∧ value = after := by
  obtain ⟨taken, same⟩ := Option.ite_none_left_eq_some.mp found
  exact ⟨taken, Option.some.inj same⟩

theorem accepts_of_perform {before after : MutationLifecycle} {call : Call}
    (found : before.perform call = some after) : Accepts before call after := by
  cases call with
  | applyDurableResult result =>
    obtain ⟨outcome, error⟩ := result
    obtain ⟨stage, left⟩ := Option.ite_none_left_eq_some.mp found
    cases outcome with
    | committed =>
      obtain rfl := Option.some.inj left
      exact .committed _ (not_not.mp stage) _
    | indeterminate =>
      obtain rfl := Option.some.inj left
      exact .unknown _ (not_not.mp stage) _
    | notCommitted =>
      obtain rfl := Option.some.inj left
      exact .notCommitted _ (not_not.mp stage) _
  | markPublished =>
    obtain ⟨awaits, left⟩ := Option.ite_none_left_eq_some.mp found
    obtain ⟨known, rfl⟩ := accepted left
    exact .markPublished (not_not.mp awaits) known
  | decide decision =>
    obtain ⟨undecided, left⟩ := Option.ite_none_left_eq_some.mp found
    obtain ⟨made, left⟩ := Option.ite_none_left_eq_some.mp left
    obtain ⟨honest, left⟩ := Option.ite_none_left_eq_some.mp left
    split at left
    case h_5 => exact absurd left nofun
    all_goals
      next stage =>
      obtain rfl := Option.some.inj left
      exact .decide decision (by tauto) made (by tauto)
  | _ =>
    obtain ⟨stage, rfl⟩ := accepted found
    constructor
    tauto

theorem step_cases (before : MutationLifecycle) (call : Call) :
    before.step call = before ∨ Accepts before call (before.step call) := by
  unfold step
  cases found : before.perform call with
  | none => exact .inl rfl
  | some after => exact .inr (accepts_of_perform found)

end MutationLifecycle

end GlifiStore.Paired
