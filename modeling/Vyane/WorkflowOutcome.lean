import Vyane.WorkflowScheduling

/-!
What a finished run says: when `execute` returns, every step has ended, and the status of the run agrees with the
statuses of the steps.
-/
namespace Vyane.Workflows
open Std Graphs
variable {β : Type} {plan : WorkflowPlan} {validated : ValidatedWorkflow β} {exec : Execution}

/-- The run status of a journal agrees with its steps. -/
structure OutcomeConsistent (plan : WorkflowPlan) (journal : WorkflowJournal) : Prop where
  ended : ∀ step ∈ plan.steps, journal.statusOf step.id ≠ some .Pending ∧ journal.statusOf step.id ≠ some .Running
  completed : journal.status = .Completed → ∀ step ∈ plan.steps, journal.statusOf step.id = some .Success
  failed : journal.status = .Failed →
    (∃ step ∈ plan.steps, step.on_error = .Abort ∧ journal.statusOf step.id = some .Failed) ∧
      ∀ step ∈ plan.steps, journal.statusOf step.id ≠ some .Cancelled
  completed_with_failures : journal.status = .CompletedWithFailures →
    (∀ step ∈ plan.steps, journal.statusOf step.id ≠ some .Cancelled) ∧
      (∃ step ∈ plan.steps, journal.statusOf step.id = some .Failed) ∧
      (∀ step ∈ plan.steps, journal.statusOf step.id = some .Failed → step.on_error = .Continue) ∧
      ∀ step ∈ plan.steps, journal.statusOf step.id = some .Skipped ↔
        journal.statusOf step.id ≠ some .Failed ∧
          ∃ failed, TransitiveNeeds plan step.id failed ∧ journal.statusOf failed = some .Failed

theorem onErrorOf_step (distinct : plan.ids.Nodup) {step : WorkflowPlanStep} (member : step ∈ plan.steps) :
    onErrorOf plan step.id = step.on_error := by
  obtain ⟨found,foundMember,lookup,same⟩ := step_by_id_some plan (List.mem_map_of_mem member)
  have equal : found = step := List.inj_on_of_nodup_map distinct foundMember member same
  simp [onErrorOf,lookup,equal]

/-- No step is open when nothing runs and nothing is ready: the first open step in topological order would have a failed
    or skipped need, whose dependents were all skipped. -/
theorem all_terminal (valid : ValidFor plan validated) (sound : Sound plan exec) (live : Live plan exec)
    (finishing : exec.phase = .Finishing) (calm : exec.aborting = false) : ∀ id ∈ plan.ids, id ∈ exec.terminal := by
  have upTo : ∀ before after, validated.topo_order = before ++ after → ∀ id ∈ before, id ∈ exec.terminal := by
    intro before
    induction before using List.reverseRecOn with
    | nil => intro after _ id member; simp at member
    | append_singleton before last ih =>
      intro after split id member
      have split' : validated.topo_order = before ++ (last :: after) := by simpa using split
      have earlier := ih (last :: after) split'
      rcases List.mem_append.mp member with old | new
      · exact earlier id old
      · obtain rfl := List.mem_singleton.mp new
        by_contra open'
        have known : id ∈ plan.ids := valid.orderPerm.mem_iff.mp (by rw [split']; simp)
        obtain ⟨need,needed,missing⟩ := live.idle (Or.inr finishing) calm (live.finishing finishing) id known open'
        have placed := valid.sorted before id after split' need ((valid.dependencies id need).mpr needed)
        have ended := earlier need placed
        have notSuccess : exec.status need ≠ some .Success :=
          fun success => missing ((sound.completed need).mpr success)
        exact open' (live.closed calm need ended notSuccess id needed)
  intro id known
  exact upTo validated.topo_order [] (by simp) id (valid.orderPerm.mem_iff.mpr known)

theorem finishing_ended (valid : ValidFor plan validated) (sound : Sound plan exec) (live : Live plan exec)
    (finishing : exec.phase = .Finishing) :
    ∀ id ∈ plan.ids, ∃ status, exec.status id = some status ∧ status.is_terminal = true := by
  intro id known
  cases aborting : exec.aborting with
  | false => exact sound.terminal id (all_terminal valid sound live finishing aborting id known)
  | true =>
    rcases live.swept aborting id known with running | ended
    · rw [live.finishing finishing] at running
      simp at running
    · exact ended

theorem anyStatus_false {journal : WorkflowJournal} {test : JournalStepStatus → Bool}
    (none : journal.anyStatus test ≠ true) (id : String) (status : JournalStepStatus)
    (found : journal.statusOf id = some status) : test status = false := by
  cases value : test status with
  | false => rfl
  | true => exact absurd ((anyStatus_iff journal test).mpr ⟨id,status,found,value⟩) none

/-- The cascade that picks the run status, read backwards, for a run that was not cancelled. -/
theorem final_status_consistent (valid : ValidFor plan validated) (sound : Sound plan exec) (live : Live plan exec)
    (finishing : exec.phase = .Finishing) (caller : exec.cancelled = false) :
    OutcomeConsistent plan (exec.stamp exec.final_status).journal := by
  have ended := finishing_ended valid sound live finishing
  have statusEq : ∀ id, (exec.stamp exec.final_status).journal.statusOf id = exec.status id := fun _ => rfl
  have runStatus : (exec.stamp exec.final_status).journal.status =
      if exec.journal.anyStatus (· = .Cancelled) then .Cancelled
      else if exec.aborting && exec.journal.anyStatus (· = .Failed) then .Failed
      else if exec.had_failures || exec.journal.anyStatus fun status => status = .Failed ∨ status = .Skipped then
        .CompletedWithFailures
      else .Completed := by
    change exec.final_status = _
    rw [Execution.final_status,caller,if_neg Bool.false_ne_true]
  have knownStep : ∀ step ∈ plan.steps, step.id ∈ plan.ids := fun step member => List.mem_map_of_mem member
  have aborted : exec.journal.anyStatus (· = .Cancelled) ≠ true → exec.aborting = true →
      ∃ step ∈ plan.steps, step.on_error = .Abort ∧ exec.status step.id = some .Failed := by
    intro uncancelled aborting
    rcases live.cause aborting with token | ⟨id,_,cancelled | ⟨failed,policy⟩⟩
    · rw [caller] at token
      cases token
    · have := anyStatus_false uncancelled id .Cancelled cancelled
      simp at this
    · obtain ⟨step,member,same⟩ := List.mem_map.mp ((sound.known id).mpr ⟨_,failed⟩)
      refine ⟨step,member,?_,by rw [same]; exact failed⟩
      rw [← onErrorOf_step valid.distinct member,same]
      exact policy
  have noCancelled : exec.journal.anyStatus (· = .Cancelled) ≠ true → ∀ id, exec.status id ≠ some .Cancelled := by
    intro uncancelled id found
    have := anyStatus_false uncancelled id .Cancelled found
    simp at this
  refine ⟨?_,?_,?_,?_⟩
  · intro step member
    obtain ⟨status,found,final⟩ := ended step.id (knownStep step member)
    rw [statusEq,found]
    constructor
    · rintro ⟨⟩
      cases final
    · rintro ⟨⟩
      cases final
  · intro isCompleted step member
    rw [isCompleted] at runStatus
    split_ifs at runStatus with cancelled aborting bad
    obtain ⟨status,found,final⟩ := ended step.id (knownStep step member)
    rw [statusEq,found]
    simp only [Bool.or_eq_true,not_or] at bad
    have notBad := anyStatus_false bad.2 step.id status found
    have notCancelled := noCancelled cancelled step.id
    rw [found] at notCancelled
    cases status with
    | Success => rfl
    | Failed => simp at notBad
    | Skipped => simp at notBad
    | Cancelled => exact absurd rfl notCancelled
    | Pending => cases final
    | Running => cases final
  · intro isFailed
    rw [isFailed] at runStatus
    split_ifs at runStatus with cancelled aborting bad
    simp only [Bool.and_eq_true] at aborting
    exact ⟨aborted cancelled aborting.1,fun step _ => noCancelled cancelled step.id⟩
  · intro isPartial
    rw [isPartial] at runStatus
    split_ifs at runStatus with cancelled aborting bad
    simp only [Bool.and_eq_true,not_and] at aborting
    have calm : exec.aborting = false := by
      cases value : exec.aborting with
      | false => rfl
      | true =>
        obtain ⟨step,_,_,failed⟩ := aborted cancelled value
        exact absurd ((anyStatus_iff exec.journal _).mpr ⟨step.id,.Failed,failed,by simp⟩) (aborting value)
    have someFailed : ∃ id, exec.status id = some .Failed := by
      simp only [Bool.or_eq_true] at bad
      rcases bad with had | listed
      · rcases live.failures had with aborts | failed
        · rw [calm] at aborts
          cases aborts
        · exact failed
      · obtain ⟨id,status,found,kind⟩ := (anyStatus_iff exec.journal _).mp listed
        simp only [decide_eq_true_eq] at kind
        rcases kind with rfl | rfl
        · exact ⟨id,found⟩
        · obtain ⟨failed,_,state⟩ := live.skipped calm id found
          exact ⟨failed,state⟩
    refine ⟨fun step _ => noCancelled cancelled step.id,?_,?_,?_⟩
    · obtain ⟨id,failed⟩ := someFailed
      obtain ⟨step,member,same⟩ := List.mem_map.mp ((sound.known id).mpr ⟨_,failed⟩)
      exact ⟨step,member,by rw [same]; exact failed⟩
    · intro step member failed
      cases policy : step.on_error with
      | Continue => rfl
      | Abort =>
        have aborts := live.failed step.id failed ((onErrorOf_step valid.distinct member).trans policy)
        rw [calm] at aborts
        cases aborts
    · intro step member
      rw [statusEq]
      constructor
      · intro skipped
        obtain ⟨failed,needs,state⟩ := live.skipped calm step.id skipped
        exact ⟨by rw [skipped]; simp,failed,needs,state⟩
      · rintro ⟨notFailed,failed,needs,state⟩
        obtain ⟨status,found,final⟩ := ended step.id (knownStep step member)
        have notCancelled := noCancelled cancelled step.id
        rw [found] at notFailed notCancelled ⊢
        cases status with
        | Skipped => rfl
        | Failed => exact absurd rfl notFailed
        | Cancelled => exact absurd rfl notCancelled
        | Pending => cases final
        | Running => cases final
        | Success =>
          have direct : ∀ need, Needs plan step.id need → exec.status need = some .Success :=
            fun need needed => sound.needs step.id need (Or.inl found) needed
          have := transitive_success sound direct needs
          rw [statusEq] at state
          rw [state] at this
          cases this

/-- A cancelled run is marked so, and its last sweep leaves no step open. -/
theorem cancelled_consistent (sound : Sound plan exec) (live : Live plan exec)
    (finishing : exec.phase = .Finishing) (caller : exec.cancelled = true) :
    OutcomeConsistent plan
      ((exec.mark_unscheduled_terminal .Cancelled "cancelled by caller").stamp exec.final_status).journal := by
  have marked :
    ((exec.mark_unscheduled_terminal .Cancelled "cancelled by caller").stamp exec.final_status).journal.status =
      .Cancelled := by
    change exec.final_status = _
    simp [Execution.final_status,caller]
  refine ⟨?_,?_,?_,?_⟩
  · intro step member
    have known : step.id ∈ plan.ids := List.mem_map_of_mem member
    rcases sweep_covers sound (Or.inr rfl : SweepStatus .Cancelled) "cancelled by caller" step.id known with
      running | ⟨status,found,final⟩
    · rw [live.finishing finishing] at running
      simp at running
    · change (exec.mark_unscheduled_terminal .Cancelled "cancelled by caller").status step.id ≠ _ ∧
        (exec.mark_unscheduled_terminal .Cancelled "cancelled by caller").status step.id ≠ _
      rw [found]
      constructor
      · rintro ⟨⟩
        cases final
      · rintro ⟨⟩
        cases final
  · intro status; rw [marked] at status; cases status
  · intro status; rw [marked] at status; cases status
  · intro status; rw [marked] at status; cases status

theorem finishRun_consistent (valid : ValidFor plan validated) (sound : Sound plan exec) (live : Live plan exec)
    (finishing : exec.phase = .Finishing) :
    OutcomeConsistent plan (exec.finalSweep.stamp exec.final_status).journal := by
  unfold Execution.finalSweep
  cases caller : exec.cancelled with
  | true => exact cancelled_consistent sound live finishing caller
  | false => exact final_status_consistent valid sound live finishing caller

/-- Only the end of the run returns. -/
theorem step_returned (valid : ValidFor plan validated) (inv : Invariant plan exec)
    (before : exec.phase = .Returned → OutcomeConsistent plan exec.journal) {input : Input} {next : Execution}
    (stepped : exec.step plan validated input = some next) (returned : next.phase = .Returned) :
    OutcomeConsistent plan next.journal := by
  cases step_cases stepped with
  | cancel => exact before returned
  | top =>
    unfold Execution.loopTop at returned
    dsimp only at returned
    split_ifs at returned
  | start provisioned outcome starting =>
    rcases startStep_cases valid inv.sound (inv.live (by rw [starting]; rfl)) starting provisioned outcome with
      ⟨_,equal⟩ | ⟨error,equal⟩ | ⟨step,rfl,equal⟩
    · rw [equal] at returned; cases returned
    · rw [equal] at returned; cases returned
    · rw [equal] at returned
      cases outcome <;> cases returned
  | started =>
    simp only at returned
    split_ifs at returned
  | idle => cases returned
  | finish _ outcome finishing =>
    have live := inv.live (by rw [finishing]; rfl)
    cases outcome with
    | Written => exact finishRun_consistent valid inv.sound live finishing
    | NotWritten replaced => cases returned
  | complete finished outcome =>
    rcases completeStep_phase exec finished outcome with phase | phase <;> rw [phase] at returned <;> cases returned

theorem start_not_returned {journal : WorkflowJournal} : (Execution.start plan journal).phase ≠ .Returned := by
  intro returned
  cases returned

/-- A run that returned left a consistent outcome behind. -/
theorem run_outcome (valid : ValidFor plan validated) {origin : Execution} (start : Invariant plan origin)
    (begun : origin.phase ≠ .Returned) {inputs : List Input} (ran : origin.run plan validated inputs = some exec)
    (returned : exec.phase = .Returned) : OutcomeConsistent plan exec.journal := by
  have both := run_induct
    (fun exec => Invariant plan exec ∧ (exec.phase = .Returned → OutcomeConsistent plan exec.journal))
    (fun exec input next holds stepped =>
      ⟨step_invariant valid holds.1 stepped,step_returned valid holds.1 holds.2 stepped⟩)
    inputs _ exec ⟨start,fun returned => absurd returned begun⟩ ran
  exact both.2 returned

theorem execute_outcome_consistent {digests : PlanDigests} {resolver : TargetResolver β} {journal : WorkflowJournal}
    {inputs : List Input} (accepted : validate_plan digests plan journal.vars resolver = .ok validated)
    (admissible : Admissible digests plan journal)
    (ran : (Execution.start plan journal).run plan validated inputs = some exec) (returned : exec.phase = .Returned) :
    OutcomeConsistent plan exec.journal := by
  have valid := validate_plan_ok accepted
  exact run_outcome valid
    (start_invariant valid.concurrency (startable_of_admissible admissible)) start_not_returned ran returned

/-- A run in which the first step fails and the second is still running. -/
def failedRun : List Input :=
  bothStarted ++ [fail "a" false,goOn,goOn,succeed "b",goOn,goOn,goOn]

theorem failed_run_outcome :
    (sampleRun failedRun).phase = .Returned ∧ (sampleRun failedRun).journal.status = .Failed ∧
      ∃ step ∈ samplePlan.steps, step.on_error = .Abort ∧
        (sampleRun failedRun).journal.statusOf step.id = some .Failed := by
  have returned : (sampleRun failedRun).phase = .Returned := by decide +kernel
  have status : (sampleRun failedRun).journal.status = .Failed := by decide +kernel
  have consistent := execute_outcome_consistent sample_accepted sample_admissible
    (sampleRun_runs failedRun (by decide +kernel)) returned
  exact ⟨returned,status,(consistent.failed status).1⟩

end Vyane.Workflows
