import GlifiStore.Lib.Runs
import GlifiStore.Paired.MutationState

/-!
# Final decisions of a mutation

A completion that was decided is to stay. Some guards look at the publication only, so that
they accept a call after the decision, and a success may be decided without a publication;
the decisions are final in the runs without such calls.
-/

namespace GlifiStore.Paired.MutationLifecycle

open Runs

/-! ## What a call may do -/

def Path : MutationStage → MutationStage → Prop :=
  Relation.ReflTransGen fun source target => transitionAllowed source target

def Decided (lifecycle : MutationLifecycle) : Prop :=
  lifecycle.stage = .completionDecided ∨ lifecycle.stage = .completed

structure StepFinal (before : MutationLifecycle) (call : Call) : Prop where
  path : Path before.stage (before.step call).stage
  kept : before.completion.kind ≠ .undecided →
    (before.step call).completion = before.completion ∧
      ((before.step call).stage = before.stage ∨ (before.step call).stage = .completed)
  committed : (before.step call).durable.knowledge = .committed →
    (before.step call).completion.kind ≠ .knownNotCommitted
  success : (before.step call).completion.kind = .success →
    before.completion.kind = .success ∨ before.publication = .published

/-- The calls that keep to it: a publication ends before the completion is decided, and an
unpublished mutation is not decided a success. -/
def Orderly (lifecycle : MutationLifecycle) : Call → Prop
  | .markPublished | .markPublicationFailed =>
    lifecycle.Decided → lifecycle.publication ≠ .required ∧ lifecycle.publication ≠ .staged
  | .decide decision => lifecycle.stage = .indeterminate → decision.kind ≠ .success
  | _ => True

/-- What the fields say of each other, as long as every call is orderly. -/
structure Consistent (lifecycle : MutationLifecycle) : Prop where
  decided : lifecycle.completion.kind ≠ .undecided ↔ lifecycle.Decided
  early : lifecycle.stage = .notAdmitted ∨ lifecycle.stage = .admitted ∨
    lifecycle.stage = .staged ∨ lifecycle.stage = .durableStarted →
      lifecycle.publication = .notRequired ∧ lifecycle.durable.knowledge = .knownNotCommitted
  transient : lifecycle.stage ≠ .expiredPreStore ∧ lifecycle.stage ≠ .authorityCommitted ∧
    lifecycle.stage ≠ .rejected
  required : lifecycle.stage = .publicationRequired →
    lifecycle.publication = .required ∨ lifecycle.publication = .staged
  published : lifecycle.stage = .published → lifecycle.publication = .published
  unpublished : lifecycle.stage = .indeterminate →
    lifecycle.publication = .required ∨ lifecycle.publication = .failed
  known : lifecycle.publication ≠ .notRequired →
    lifecycle.durable.knowledge ≠ .knownNotCommitted
  committed : lifecycle.durable.knowledge = .committed →
    lifecycle.completion.kind ≠ .knownNotCommitted

theorem consistent_initial : Consistent {} := by
  constructor <;> simp [Decided]

theorem Consistent.step {before : MutationLifecycle} {call : Call} (consistent : Consistent before)
    (orderly : Orderly before call) : Consistent (before.step call) := by
  rcases step_cases before call with same | accepts
  · rw [same]
    exact consistent
  obtain ⟨decided, early, transient, required, published, unpublished, known, committed⟩ := consistent
  generalize before.step call = after at accepts
  cases accepts <;> constructor <;> grind [Decided, Orderly, awaitsPublication]

section Steps

variable {before after : MutationLifecycle} {call : Call} {source target : MutationStage}

theorem path_of_allowed (allowed : transitionAllowed source target) :
    Path source target :=
  .single allowed

theorem path_through (middle : MutationStage) (first : transitionAllowed source middle)
    (second : transitionAllowed middle target) :
    Path source target :=
  .tail (.single first) second

theorem Consistent.awaiting (consistent : Consistent before) (awaits : before.awaitsPublication)
    (orderly : before.Decided → before.publication ≠ .required ∧ before.publication ≠ .staged) :
    before.stage = .publicationRequired ∨ before.stage = .indeterminate := by
  obtain ⟨-, early, transient, -, published, -, -, -⟩ := consistent
  cases stage : before.stage <;> grind [Decided, awaitsPublication]

theorem Accepts.path (accepts : Accepts before call after) (consistent : Consistent before)
    (orderly : Orderly before call) : Path before.stage after.stage := by
  cases accepts with
  | admitMutation stage | stageForWriter stage | markCompleted stage =>
    rw [stage]
    exact path_of_allowed rfl
  | expirePreStore stage =>
    rcases stage with stage | stage <;> rw [stage] <;> exact path_through .expiredPreStore rfl rfl
  | markDurableStarted stage =>
    rcases stage with stage | stage <;> rw [stage]
    · exact path_through .staged rfl rfl
    · exact path_of_allowed rfl
  | committed result stage error =>
    rw [stage]
    exact path_through .authorityCommitted rfl rfl
  | unknown result stage error | markException stage =>
    rw [stage]
    exact path_of_allowed rfl
  | notCommitted result stage error =>
    rw [stage]
    exact path_through .rejected rfl rfl
  | requirePublication stage =>
    rcases stage with stage | stage | stage <;> rw [stage] <;> exact path_of_allowed rfl
  | markPublicationStaged stage => exact .refl
  | markPublished awaits known =>
    rcases consistent.awaiting awaits orderly with stage | stage <;> rw [stage]
    · exact path_of_allowed rfl
    · exact path_through .publicationRequired rfl rfl
  | markPublicationFailed awaits =>
    rcases consistent.awaiting awaits orderly with stage | stage <;> rw [stage] <;>
      exact path_of_allowed rfl
  | decide decision stage made honest =>
    rcases stage with stage | stage | stage | stage <;> rw [stage] <;> exact path_of_allowed rfl

theorem Accepts.kept (accepts : Accepts before call after) (consistent : Consistent before)
    (orderly : Orderly before call) (decided : before.Decided) :
    after.completion = before.completion ∧ after.stage = .completed := by
  have late := consistent.awaiting
  cases accepts <;> grind [Decided, Orderly]

theorem Accepts.success (accepts : Accepts before call after) (consistent : Consistent before)
    (orderly : Orderly before call) (succeeds : after.completion.kind = .success) :
    before.completion.kind = .success ∨ before.publication = .published := by
  have published := consistent.published
  have transient := consistent.transient
  cases accepts <;> grind [Orderly]

theorem stepFinal_of_orderly (consistent : Consistent before) (orderly : Orderly before call) :
    StepFinal before call := by
  have after := consistent.step orderly
  rcases step_cases before call with same | accepts
  · rw [same] at after
    refine ⟨?_, ?_, ?_, ?_⟩ <;> rw [same]
    · exact .refl
    · exact fun _ => ⟨rfl, .inl rfl⟩
    · exact after.committed
    · exact .inl
  · refine ⟨accepts.path consistent orderly, fun made => ?_, after.committed,
      accepts.success consistent orderly⟩
    obtain ⟨completion, stage⟩ := accepts.kept consistent orderly (consistent.decided.mp made)
    exact ⟨completion, .inr stage⟩

theorem stepFinal_iff (consistent : Consistent before) :
    StepFinal before call ↔ Orderly before call := by
  refine ⟨fun final => ?_, stepFinal_of_orderly consistent⟩
  -- Each disorderly call is accepted and moves what is to stay.
  cases call with
  | markPublished =>
    intro decided
    by_contra awaited
    have awaits : before.awaitsPublication := by grind [awaitsPublication]
    have known := consistent.known (by grind)
    have left : before.step .markPublished =
        { before with stage := .published, publication := .published } := by
      simp [step, perform, markPublished, awaits, known]
    have moved := (final.kept (consistent.decided.mpr decided)).2
    rw [left] at moved
    grind [Decided]
  | markPublicationFailed =>
    intro decided
    by_contra awaited
    have awaits : before.awaitsPublication := by grind [awaitsPublication]
    have left : before.step .markPublicationFailed =
        { before with stage := .indeterminate, publication := .failed } := by
      simp [step, perform, markPublicationFailed, awaits]
    have moved := (final.kept (consistent.decided.mpr decided)).2
    rw [left] at moved
    grind [Decided]
  | decide decision =>
    intro stage succeeds
    have left : before.step (.decide decision) =
        { before with stage := .completionDecided, completion := decision } := by
      simp [step, perform, decideAs, stage, succeeds]
    have published := final.success (by rw [left]; exact succeeds)
    have undecided := consistent.decided
    have unpublished := consistent.unpublished stage
    grind [Decided]
  | _ => trivial

end Steps

/-- In every sequence of calls, with any results and decisions, the decisions are final
exactly when every call is orderly. -/
theorem decisions_final_iff (calls : List Call) :
    Guarded step StepFinal {} calls ↔ Guarded step Orderly {} calls := by
  suffices ∀ lifecycle, Consistent lifecycle →
      (Guarded step StepFinal lifecycle calls ↔ Guarded step Orderly lifecycle calls) from
    this {} consistent_initial
  induction calls with
  | nil => exact fun _ _ => Iff.rfl
  | cons call rest ih =>
    intro lifecycle consistent
    rw [Guarded, Guarded, stepFinal_iff consistent]
    exact and_congr_right fun orderly => ih _ (consistent.step orderly)

/-- A completion that is decided twice: the first decision leaves the publication required,
so that the mutation may still be published and decided again. -/
def decidedTwice : List Call :=
  [.admitMutation, .stageForWriter, .markDurableStarted, .markExceptionAfterDurableStart,
    .decide { kind := .indeterminate }, .markPublished, .decide { kind := .success }]

theorem decision_changed :
    ¬ Guarded step StepFinal {} decidedTwice ∧
      (run step {} (decidedTwice.take 5)).completion.kind = .indeterminate ∧
      (run step {} decidedTwice).completion.kind = .success := by
  refine ⟨fun final => ?_, by decide, by decide⟩
  have moved := final.2.2.2.2.2.1.kept (by decide)
  exact absurd moved.2 (by decide)

end GlifiStore.Paired.MutationLifecycle
