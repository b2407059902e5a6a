import Vyane.WorkflowEngine

/-!
What each stretch of the engine does to the recorded statuses, to the sets kept in memory and to the events.
-/
namespace Vyane.Workflows
open Std Graphs List Execution Function
variable {β : Type} {id : String} {exec : Execution} {validated : ValidatedWorkflow β} {plan : WorkflowPlan}

/-- The status the journal records for a step. -/
def Execution.status (exec : Execution) (id : String) : Option JournalStepStatus := exec.journal.statusOf id
/-- A step that the next sweep would overwrite. -/
def Execution.Unscheduled (exec : Execution) (id : String) : Prop :=
  ∃ status, exec.status id = some status ∧ status ≠ .Success ∧ id ∉ exec.terminal ∧ id ∉ exec.running

theorem unscheduled_iff (exec : Execution) (id : String) :
    exec.Unscheduled id ↔ ∃ state, exec.journal.steps[id]? = some state ∧ exec.unscheduled id state = true := by
  simp only [Execution.Unscheduled,status,WorkflowJournal.statusOf,unscheduled,
    Option.map_eq_some_iff,Bool.not_eq_true',Bool.or_eq_false_iff,decide_eq_false_iff_not]
  constructor
  · rintro ⟨_,⟨state,found,rfl⟩,other,idle⟩
    exact ⟨state,found,⟨idle,other⟩⟩
  · rintro ⟨state,found,idle,other⟩
    exact ⟨_,⟨state,found,rfl⟩,other,idle⟩

/-! ### The sweep -/

theorem status_sweep_of_unscheduled (swept : exec.Unscheduled id) (status : JournalStepStatus) (reason : String) :
    (exec.mark_unscheduled_terminal status reason).status id = some status := by
  obtain ⟨state,found,swept⟩ := (unscheduled_iff exec id).mp swept
  simp [Execution.status,WorkflowJournal.statusOf,Execution.mark_unscheduled_terminal,TreeMap.getElem?_map,found,swept]

theorem status_sweep_of_scheduled (kept : ¬ exec.Unscheduled id) (status : JournalStepStatus) (reason : String) :
    (exec.mark_unscheduled_terminal status reason).status id = exec.status id := by
  rw [unscheduled_iff] at kept
  cases found : exec.journal.steps[id]? with
  | none => simp [Execution.status,WorkflowJournal.statusOf,Execution.mark_unscheduled_terminal,
      TreeMap.getElem?_map,found]
  | some state =>
    have kept : exec.unscheduled id state = false := by
      cases value : exec.unscheduled id state with
      | false => rfl
      | true => exact absurd ⟨state,found,value⟩ kept
    simp [Execution.status,WorkflowJournal.statusOf,Execution.mark_unscheduled_terminal,TreeMap.getElem?_map,found,kept]

/-- A step that is in one of the sets in memory keeps its status in a sweep. -/
theorem status_sweep_of_mem (member : id ∈ exec.terminal ∨ id ∈ exec.running)
    (status : JournalStepStatus) (reason : String) :
    (exec.mark_unscheduled_terminal status reason).status id = exec.status id := by
  apply status_sweep_of_scheduled
  rintro ⟨_,_,_,idle,waiting⟩
  exact member.elim idle waiting

/-! ### Starting and finishing a step -/

theorem status_markRunning (journal : WorkflowJournal) (step : WorkflowPlanStep) (provisioned : List JournalWorktree)
    (id : String) :
    (markRunning journal step provisioned).statusOf id =
      if step.id = id then (journal.statusOf id).map fun _ => .Running else journal.statusOf id := by
  unfold markRunning
  by_cases same : step.id = id
  · subst same
    by_cases isolated : step.isolation = .Worktree <;>
      simp [isolated,WorkflowJournal.statusOf,WorkflowJournal.updateStep,Option.map_map,comp_def]
  · by_cases isolated : step.isolation = .Worktree <;> simp [isolated,statusOf_updateStep,same]

theorem status_collectFinished (exec : Execution) (finished : FinishedStep) (id : String) :
    (exec.collectFinished finished).status id = exec.status id := by
  simp only [status,collectFinished,statusOf_updateStep]
  split_ifs with same
  · rw [same]; rfl
  · rfl

theorem status_recordSuccess (exec : Execution) (step_id : String) (run_ids : List String) (output : Option String)
    (outputs : Option (List JournalTargetOutput)) (id : String) :
    (exec.recordSuccess step_id run_ids output outputs).status id =
      if step_id = id then (exec.status id).map fun _ => .Success else exec.status id := by
  simp only [status,recordSuccess,statusOf_updateStep]
  split_ifs with same
  · rw [same]; simp [WorkflowJournal.statusOf,Option.map_map,comp_def]
  · rfl

theorem status_recordFailure (exec : Execution) (step_id : String) (run_ids : List String) (output : Option String)
    (outputs : Option (List JournalTargetOutput)) (error : String) (cancelled : Bool) (id : String) :
    (exec.recordFailure step_id run_ids output outputs error cancelled).status id =
      if step_id = id then (exec.status id).map fun _ => if cancelled then .Cancelled else .Failed
        else exec.status id := by
  simp only [status,recordFailure,statusOf_updateStep]
  by_cases same : step_id = id
  · simp [same,WorkflowJournal.statusOf,Option.map_map,comp_def]
  · simp [same]

/-! ### Skipping dependents -/

/-- Skipping a list of steps, all facts at once. -/
theorem skip_steps (failed_id : String) (skipped : List String) :
    ∀ exec : Execution,
      (∀ id, (skipped.foldl (skipStep failed_id) exec).status id =
        if id ∈ skipped then (exec.status id).map fun _ => .Skipped else exec.status id) ∧
      (∀ id, id ∈ (skipped.foldl (skipStep failed_id) exec).terminal ↔ id ∈ exec.terminal ∨ id ∈ skipped) ∧
      (skipped.foldl (skipStep failed_id) exec).events =
        exec.events ++ skipped.map fun id => .Skipped id s!"dependency `{failed_id}` failed" := by
  induction skipped with
  | nil => intro exec; simp
  | cons head tail ih =>
    intro exec
    obtain ⟨statuses,members,events⟩ := ih (exec.skipStep failed_id head)
    have first : ∀ id, (exec.skipStep failed_id head).status id =
        if head = id then (exec.status id).map fun _ => .Skipped else exec.status id := by
      intro id
      simp only [status,skipStep,statusOf_updateStep]
      split_ifs with same
      · rw [same]; simp [WorkflowJournal.statusOf,Option.map_map,comp_def]
      · rfl
    refine ⟨?_,?_,?_⟩
    · intro id
      rw [foldl_cons,statuses,first]
      by_cases same : head = id
      · subst same
        by_cases again : head ∈ tail <;> simp [again,Option.map_map,comp_def]
      · have other : id ≠ head := fun equal => same equal.symm
        simp [same,other]
    · intro id
      rw [foldl_cons,members]
      simp only [skipStep,Finset.mem_insert,mem_cons]
      tauto
    · rw [foldl_cons,events]
      simp [skipStep]

/-- The fields that skipping leaves alone. -/
theorem skip_steps_frame (failed_id : String) (skipped : List String) :
    ∀ exec : Execution,
      (skipped.foldl (skipStep failed_id) exec).completed = exec.completed ∧
      (skipped.foldl (skipStep failed_id) exec).running = exec.running ∧
      (skipped.foldl (skipStep failed_id) exec).futures = exec.futures ∧
      (skipped.foldl (skipStep failed_id) exec).permits = exec.permits ∧
      (skipped.foldl (skipStep failed_id) exec).aborting = exec.aborting ∧
      (skipped.foldl (skipStep failed_id) exec).had_failures = exec.had_failures ∧
      (skipped.foldl (skipStep failed_id) exec).cancelled = exec.cancelled ∧
      (skipped.foldl (skipStep failed_id) exec).persisted = exec.persisted := by
  induction skipped with
  | nil => intro exec; exact ⟨rfl,rfl,rfl,rfl,rfl,rfl,rfl,rfl⟩
  | cons head tail ih => intro exec; exact ih (exec.skipStep failed_id head)

/-- The traversal of a validated graph runs to its end. -/
theorem skip_dependents_collected (valid : ValidFor plan validated) (failed_id : String) (exec : Execution) :
    Collected (fun id => id ∈ exec.completed || id ∈ exec.running) (fun id => validated.dependents.getD id [])
      (validated.dependents.getD failed_id []) exec.terminal (skip_dependents failed_id validated exec).1
      (skip_dependents failed_id validated exec).2 := by
  have idsKnown : ∀ id child, child ∈ validated.dependents.getD id [] → child ∈ validated.topo_order.toFinset := by
    intro id child member
    obtain ⟨step,listed,rfl,_⟩ := (valid.dependents id child).mp member
    rw [mem_toFinset,valid.orderPerm.mem_iff]
    exact mem_map_of_mem listed
  have distinct : validated.topo_order.Nodup := valid.orderPerm.nodup_iff.mpr valid.distinct
  have bound : ∑ id ∈ validated.topo_order.toFinset \ exec.terminal, (validated.dependents.getD id []).length ≤
      (validated.topo_order.map fun id => (validated.dependents.getD id []).length).sum := by
    rw [← sum_toFinset _ distinct]
    exact Finset.sum_le_sum_of_subset Finset.sdiff_subset
  obtain ⟨added,outEq,collected⟩ :=
    collect_correct (fun id => decide (id ∈ exec.completed) || decide (id ∈ exec.running))
    (fun id => validated.dependents.getD id []) validated.topo_order.toFinset
    (fun id _ child member => idsKnown id child member)
    ((validated.dependents.getD failed_id []).length +
      (validated.topo_order.map fun id => (validated.dependents.getD id []).length).sum + 1)
    (validated.dependents.getD failed_id []) exec.terminal [] (fun child member => idsKnown failed_id child member)
    (by omega)
  rw [nil_append] at outEq
  subst outEq
  exact collected

/-- What a failure with `on_error = continue` does to the steps not started. -/
structure SkipEffect (plan : WorkflowPlan) (failed_id : String) (exec next : Execution)
    (skipped : List String) : Prop where
  status : ∀ id, next.status id = if id ∈ skipped then (exec.status id).map fun _ => .Skipped else exec.status id
  terminal : ∀ id, id ∈ next.terminal ↔ id ∈ exec.terminal ∨ id ∈ skipped
  events : next.events = exec.events ++ skipped.map fun id => .Skipped id s!"dependency `{failed_id}` failed"
  distinct : skipped.Nodup
  fresh : ∀ id ∈ skipped, id ∉ exec.terminal ∧ id ∉ exec.completed ∧ id ∉ exec.running
  dependent : ∀ id ∈ skipped, id ∈ plan.ids ∧ TransitiveNeeds plan id failed_id
  closed : ∀ id, id = failed_id ∨ id ∈ skipped → ∀ child, Needs plan child id →
    child ∈ exec.completed ∨ child ∈ exec.running ∨ child ∈ next.terminal
  completed : next.completed = exec.completed
  running : next.running = exec.running
  futures : next.futures = exec.futures
  permits : next.permits = exec.permits
  aborting : next.aborting = exec.aborting
  had_failures : next.had_failures = exec.had_failures
  cancelled : next.cancelled = exec.cancelled
  persisted : next.persisted = exec.persisted

private theorem transitive_of_path (valid : ValidFor plan validated)
    {failed_id start id : String} (first : start ∈ validated.dependents.getD failed_id [])
    (path : Relation.ReflTransGen (fun x y => y ∈ validated.dependents.getD x []) start id) :
    TransitiveNeeds plan id failed_id := by
  have base : TransitiveNeeds plan start failed_id := .single ((valid.dependents failed_id start).mp first)
  induction path with
  | refl => exact base
  | tail _ next ih => exact .head ((valid.dependents _ _).mp next) ih

theorem skip_effect (valid : ValidFor plan validated) (failed_id : String) (exec : Execution) :
    SkipEffect plan failed_id exec
      ((skip_dependents failed_id validated exec).1.foldl (skipStep failed_id)
        { exec with terminal := (skip_dependents failed_id validated exec).2 })
      (skip_dependents failed_id validated exec).1 := by
  have collected := skip_dependents_collected valid failed_id exec
  generalize (skip_dependents failed_id validated exec).1 = skipped at *
  generalize (skip_dependents failed_id validated exec).2 = terminal at *
  obtain ⟨statuses,members,events⟩ := skip_steps failed_id skipped { exec with terminal := terminal }
  obtain ⟨completed,running,futures,permits,aborting,had_failures,cancelled,persisted⟩ :=
    skip_steps_frame failed_id skipped { exec with terminal := terminal }
  have grown : ∀ id, id ∈ (skipped.foldl (skipStep failed_id) { exec with terminal := terminal }).terminal ↔
      id ∈ exec.terminal ∨ id ∈ skipped := by
    intro id
    rw [members]
    simp only [collected.after_eq id]
    tauto
  have blocked : ∀ child, ((decide (child ∈ exec.completed) || decide (child ∈ exec.running)) = true ∨
    child ∈ terminal) →
      child ∈ exec.completed ∨ child ∈ exec.running ∨
        child ∈ (skipped.foldl (skipStep failed_id) { exec with terminal := terminal }).terminal := by
    intro child state
    rw [grown,← collected.after_eq]
    simp only [Bool.or_eq_true,decide_eq_true_eq] at state
    tauto
  refine ⟨statuses,grown,events,collected.distinct,?_,?_,?_,completed,running,futures,permits,aborting,had_failures,
    cancelled,persisted⟩
  · intro id member
    obtain ⟨unseen,open'⟩ := collected.fresh id member
    simp only [Bool.or_eq_false_iff,decide_eq_false_iff_not] at open'
    exact ⟨unseen,open'⟩
  · intro id member
    obtain ⟨start,first,path⟩ := collected.reached id member
    have needs := transitive_of_path valid first path
    refine ⟨?_,needs⟩
    obtain ⟨next,⟨step,listed,rfl,_⟩,_⟩ := Relation.TransGen.head'_iff.mp needs
    exact mem_map_of_mem listed
  · intro id origin child needs
    have isChild := (valid.dependents id child).mpr needs
    rcases origin with rfl | member
    · exact blocked child (collected.start child isChild)
    · exact blocked child (collected.closed id member child isChild)

theorem settleFailure_continue (valid : ValidFor plan validated)
    (exec : Execution) {step_id : String} (policy : onErrorOf plan step_id ≠ .Abort) :
    SkipEffect plan step_id exec (exec.settleFailure plan validated step_id false)
      (skip_dependents step_id validated exec).1 := by
  have unfolded : exec.settleFailure plan validated step_id false =
      (skip_dependents step_id validated exec).1.foldl (skipStep step_id)
        { exec with terminal := (skip_dependents step_id validated exec).2 } := by
    simp [settleFailure,policy]
  rw [unfolded]
  exact skip_effect valid step_id exec

theorem settleFailure_abort (validated : ValidatedWorkflow β) (exec : Execution) {step_id : String}
    {cancelled : Bool} (policy : cancelled = true ∨ onErrorOf plan step_id = .Abort) :
    exec.settleFailure plan validated step_id cancelled =
      ({ exec with aborting := true } : Execution).mark_unscheduled_terminal
        (if cancelled then .Cancelled else .Skipped)
        (if cancelled then "cancelled by caller" else "workflow aborted after failed step") := by
  have taken : (cancelled || decide (onErrorOf plan step_id = .Abort)) = true := by simpa using policy
  simp [settleFailure,taken]

/-! ### Lookups in the plan -/

theorem step_by_id_some (plan : WorkflowPlan) (known : id ∈ plan.ids) :
    ∃ step ∈ plan.steps, (step_by_id plan)[id]? = some step ∧ step.id = id := by
  have general : ∀ (steps : List WorkflowPlanStep) (map : TreeMap String WorkflowPlanStep),
      (∃ step ∈ steps, (steps.foldl (fun map step => map.insert step.id step) map)[id]? = some step ∧ step.id = id) ∨
        ((∀ step ∈ steps, step.id ≠ id) ∧
          (steps.foldl (fun map step => map.insert step.id step) map)[id]? = map[id]?) := by
    intro steps
    induction steps with
    | nil => intro map; exact Or.inr ⟨by simp,rfl⟩
    | cons head tail ih =>
      intro map
      rcases ih (map.insert head.id head) with ⟨step,member,found,same⟩ | ⟨absent,kept⟩
      · exact Or.inl ⟨step,by simp [member],found,same⟩
      · rw [foldl_cons,kept,TreeMap.getElem?_insert]
        simp only [Std.compare_eq_iff_eq]
        split_ifs with same
        · exact Or.inl ⟨head,by simp,rfl,same⟩
        · refine Or.inr ⟨?_,rfl⟩
          intro step member
          rcases mem_cons.mp member with rfl | later
          · exact same
          · exact absent step later
  rcases general plan.steps ∅ with found | ⟨absent,_⟩
  · exact found
  · obtain ⟨step,member,same⟩ := mem_map.mp known
    exact absurd same (absent step member)

theorem mem_ready_steps (valid : ValidFor plan validated) (exec : Execution) (id : String) :
    id ∈ ready_steps validated exec ↔ id ∈ plan.ids ∧ id ∉ exec.terminal ∧ id ∉ exec.running ∧
      ∀ need, Needs plan id need → need ∈ exec.completed := by
  rw [ready_steps,(perm_insertionSort _ _).mem_iff,mem_filter,valid.orderPerm.mem_iff]
  simp only [Bool.and_eq_true,Bool.not_eq_true',Bool.or_eq_false_iff,decide_eq_false_iff_not,all_eq_true,
    decide_eq_true_eq,valid.dependencies]
  tauto

theorem ready_steps_nodup (valid : ValidFor plan validated)
    (exec : Execution) : (ready_steps validated exec).Nodup := by
  rw [ready_steps,(perm_insertionSort _ _).nodup_iff]
  exact (valid.orderPerm.nodup_iff.mpr valid.distinct).filter _

end Vyane.Workflows
