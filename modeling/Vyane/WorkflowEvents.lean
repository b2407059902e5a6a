import Vyane.WorkflowScheduling

/-!
Terminal statuses and terminal events. The sweep of steps that were never started does not record them as terminal in
memory, so a later sweep, or a failure of a step they depend on, ends them a second time.
-/
namespace Vyane.Workflows
open Std Graphs List Execution
variable {β : Type} {plan : WorkflowPlan} {validated : ValidatedWorkflow β} {exec next : Execution}
    {status : JournalStepStatus}

/-- The step a terminal event is about. -/
def StepEvent.terminal_id : StepEvent → Option String
  | .Started _ => none
  | .Succeeded step_id _ | .Failed step_id _ _ | .Skipped step_id _ | .Cancelled step_id _ => some step_id
def terminalIds (events : List StepEvent) : List String := events.filterMap StepEvent.terminal_id
/-- How many terminal events the observer got for a step. -/
def Execution.terminal_events (exec : Execution) (id : String) : Nat := (terminalIds exec.events).count id
@[simp] theorem terminalIds_append (first second : List StepEvent) :
    terminalIds (first ++ second) = terminalIds first ++ terminalIds second := filterMap_append
/-- The journal shows that the step has ended. -/
def Execution.Ended (exec : Execution) (id : String) : Prop :=
  ∃ status, exec.status id = some status ∧ status.is_terminal = true

/-- A stretch that ends exactly the listed steps, which had not ended, and leaves every ended step alone. -/
structure Ends (exec next : Execution) (ids : List String) : Prop where
  distinct : ids.Nodup
  fresh : ∀ id ∈ ids, ¬ exec.Ended id
  ended : ∀ id ∈ ids, next.Ended id
  stable : ∀ id status, exec.status id = some status → status.is_terminal = true → next.status id = some status
  others : ∀ id, id ∉ ids → next.Ended id → exec.Ended id

theorem Ends.trans {middle : Execution} {first second : List String} (before : Ends exec middle first)
    (after : Ends middle next second) : Ends exec next (first ++ second) := by
  have apart : ∀ id ∈ first, ∀ other ∈ second, id ≠ other := by
    intro id ended other fresh same
    exact after.fresh other fresh (same ▸ before.ended id ended)
  refine ⟨?_,?_,?_,?_,?_⟩
  · exact nodup_append.mpr ⟨before.distinct,after.distinct,apart⟩
  · intro id member was
    rcases mem_append.mp member with early | late
    · exact before.fresh id early was
    · obtain ⟨status,found,final⟩ := was
      exact after.fresh id late ⟨status,before.stable id status found final,final⟩
  · intro id member
    rcases mem_append.mp member with early | late
    · obtain ⟨status,found,final⟩ := before.ended id early
      exact ⟨status,after.stable id status found final,final⟩
    · exact after.ended id late
  · intro id status found final
    exact after.stable id status (before.stable id status found final) final
  · intro id absent ended
    rw [mem_append,not_or] at absent
    exact before.others id absent.1 (after.others id absent.2 ended)

/-- Nothing ends when the statuses stay. -/
theorem Ends.unchanged (statuses : ∀ id, next.status id = exec.status id) : Ends exec next [] := by
  refine ⟨nodup_nil,by simp,by simp,fun id status found _ => (statuses id).trans found,?_⟩
  intro id _ ended
  obtain ⟨status,found,final⟩ := ended
  exact ⟨status,(statuses id).symm.trans found,final⟩

/-- The observer is told once about each step that ended. -/
structure Reports (exec next : Execution) (ids : List String) : Prop extends Ends exec next ids where
  events : (terminalIds next.events).Perm (terminalIds exec.events ++ ids)

/-! ### Sweeps and skips -/

/-- The steps a sweep ends, in key order. -/
def Execution.sweptIds (exec : Execution) : List String :=
  (exec.journal.steps.toList.filter fun entry => exec.unscheduled entry.1 entry.2).map Prod.fst

theorem mem_sweptIds (exec : Execution) (id : String) : id ∈ exec.sweptIds ↔ exec.Unscheduled id := by
  rw [unscheduled_iff]
  simp only [sweptIds,mem_map,mem_filter]
  constructor
  · rintro ⟨⟨key,state⟩,⟨listed,swept⟩,rfl⟩
    exact ⟨state,TreeMap.mem_toList_iff_getElem?_eq_some.mp listed,swept⟩
  · rintro ⟨state,found,swept⟩
    exact ⟨(id,state),⟨TreeMap.mem_toList_iff_getElem?_eq_some.mpr found,swept⟩,rfl⟩

theorem terminalIds_sweep (exec : Execution) (swept : SweepStatus status) (reason : String) :
    terminalIds (exec.mark_unscheduled_terminal status reason).events = terminalIds exec.events ++ exec.sweptIds := by
  simp only [mark_unscheduled_terminal,terminalIds_append,sweptIds]
  congr 1
  induction exec.journal.steps.toList with
  | nil => rfl
  | cons entry rest ih =>
    rw [flatMap_cons,terminalIds_append,ih]
    by_cases taken : exec.unscheduled entry.1 entry.2 = true
    · rw [if_pos taken,filter_cons_of_pos (by exact taken),map_cons]
      rcases swept with rfl | rfl <;> rfl
    · rw [if_neg taken,filter_cons_of_neg (by exact taken)]
      rfl

/-- A sweep of steps none of which had ended. -/
theorem ends_sweep (swept : SweepStatus status) (reason : String)
    (fresh : ∀ id, exec.Unscheduled id → ¬ exec.Ended id) :
    Ends exec (exec.mark_unscheduled_terminal status reason) exec.sweptIds := by
  refine ⟨?_,?_,?_,?_,?_⟩
  · have keys := exec.journal.steps.nodup_keys
    rw [← TreeMap.map_fst_toList_eq_keys] at keys
    exact keys.sublist (filter_sublist.map Prod.fst)
  · intro id member
    exact fresh id ((mem_sweptIds exec id).mp member)
  · intro id member
    refine ⟨status,status_sweep_of_unscheduled ((mem_sweptIds exec id).mp member) status reason,?_⟩
    rcases swept with rfl | rfl <;> rfl
  · intro id old found final
    rw [status_sweep_of_scheduled]
    · exact found
    · intro taken
      exact fresh id taken ⟨old,found,final⟩
  · intro id absent ended
    rw [mem_sweptIds] at absent
    obtain ⟨now,found,final⟩ := ended
    rw [status_sweep_of_scheduled absent] at found
    exact ⟨now,found,final⟩

/-- Skipped dependents none of which had ended. -/
theorem ends_skip {failed_id : String} {skipped : List String} (sound : Sound plan exec)
    (effect : SkipEffect plan failed_id exec next skipped) (fresh : ∀ id ∈ skipped, ¬ exec.Ended id) :
    Ends exec next skipped := by
  refine ⟨effect.distinct,fresh,?_,?_,?_⟩
  · intro id member
    obtain ⟨status,was⟩ := (sound.known id).mp (effect.dependent id member).1
    exact ⟨.Skipped,by rw [effect.status,if_pos member,was]; rfl,rfl⟩
  · intro id status found final
    rw [effect.status,if_neg]
    · exact found
    · intro member
      exact fresh id member ⟨status,found,final⟩
  · intro id absent ended
    obtain ⟨status,found,final⟩ := ended
    rw [effect.status,if_neg absent] at found
    exact ⟨status,found,final⟩

theorem terminalIds_skip {failed_id : String} {skipped : List String}
    (effect : SkipEffect plan failed_id exec next skipped) :
    terminalIds next.events = terminalIds exec.events ++ skipped := by
  rw [effect.events,terminalIds_append]
  congr 1
  simp [terminalIds,StepEvent.terminal_id,Function.comp_def]

theorem ends_finished {id : String} (final : status.is_terminal = true) (running : exec.status id = some .Running)
    (statuses : ∀ other, next.status other = if id = other then some status else exec.status other) :
    Ends exec next [id] := by
  refine ⟨by simp,?_,?_,?_,?_⟩
  · intro other member ended
    obtain rfl := mem_singleton.mp member
    obtain ⟨old,found,was⟩ := ended
    rw [running,Option.some.injEq] at found
    rw [← found] at was
    cases was
  · intro other member
    obtain rfl := mem_singleton.mp member
    exact ⟨status,by rw [statuses,if_pos rfl],final⟩
  · intro other old found was
    rw [statuses,if_neg]
    · exact found
    · rintro rfl
      rw [running,Option.some.injEq] at found
      rw [← found] at was
      cases was
  · intro other absent ended
    obtain ⟨now,found,final'⟩ := ended
    rw [statuses,if_neg fun same : id = other => absent (by simp [same])] at found
    exact ⟨now,found,final'⟩

/-! ### Transitions that end no step twice -/

/-- A condition on the state before a transition. While the loop is aborting, the last sweep of a cancelled run finds no
    step that an earlier sweep ended; a step that fails leaves no such step to sweep again, or none that depends on it
    to skip. The result of a finished step is written. -/
def Orderly (plan : WorkflowPlan) (exec : Execution) : Input → Prop
  | .Cancel => True
  | .Advance _ _ => exec.phase = .Finishing → exec.cancelled = true → exec.aborting = true → ∀ id, ¬ exec.Unscheduled id
  | .Finish finished outcome => outcome = .Written ∧
    match finished.result with
    | .Succeeded _ _ _ => True
    | .Failed _ _ _ _ cancelled => exec.aborting = true →
      if cancelled = true ∨ onErrorOf plan finished.step_id = .Abort then ∀ id, ¬ exec.Unscheduled id
      else ∀ id, exec.Unscheduled id → ¬ TransitiveNeeds plan id finished.step_id

section
variable (sound : Sound plan exec)
include sound
/-- Before the loop aborts, a step that was not started is pending. -/
theorem unscheduled_fresh (live : Live plan exec) (calm : exec.aborting = false) {id : String}
    (unscheduled : exec.Unscheduled id) : ¬ exec.Ended id := by
  obtain ⟨status,found,_,open',idle⟩ := unscheduled
  have pending := live.pending calm id ((sound.known id).mpr ⟨status,found⟩) open' idle
  rintro ⟨now,found',final⟩
  rw [pending,Option.some.injEq] at found'
  rw [← found'] at final
  cases final

theorem reports_cancel_pending (live : Live plan exec) (calm : exec.aborting = false) :
    ∃ ids, Reports exec ({ exec with aborting := true, had_failures := true } : Execution).cancel_pending ids := by
  have ends : Ends { exec with aborting := true, had_failures := true }
      ({ exec with aborting := true, had_failures := true } : Execution).cancel_pending _ :=
    ends_sweep (Or.inr rfl) "cancelled by caller" fun id unscheduled => unscheduled_fresh sound live calm unscheduled
  refine ⟨_,⟨ends.distinct,ends.fresh,ends.ended,ends.stable,ends.others⟩,?_⟩
  exact List.Perm.of_eq (terminalIds_sweep _ (Or.inr rfl) _)

theorem reports_finalSweep (live : Live plan exec)
    (orderly : exec.cancelled = true → exec.aborting = true → ∀ id, ¬ exec.Unscheduled id) :
    ∃ ids, Reports exec exec.finalSweep ids := by
  unfold finalSweep
  cases caller : exec.cancelled with
  | false => exact ⟨[],Ends.unchanged fun _ => rfl,by simp⟩
  | true =>
    have fresh : ∀ id, exec.Unscheduled id → ¬ exec.Ended id := by
      intro id unscheduled
      cases aborting : exec.aborting with
      | false => exact unscheduled_fresh sound live aborting unscheduled
      | true => exact absurd unscheduled (orderly caller aborting id)
    exact ⟨_,ends_sweep (Or.inr rfl) _ fresh,List.Perm.of_eq (terminalIds_sweep exec (Or.inr rfl) _)⟩

/-- Being unscheduled after a step was recorded means having been so before. -/
theorem unscheduled_before {finished : FinishedStep} (flying : finished.step_id ∈ exec.futures)
    {run_ids : List String} {output : Option String} {outputs : Option (List JournalTargetOutput)} {error : String}
    {cancelled : Bool} {id : String}
    (unscheduled : (exec.failed finished run_ids output outputs error cancelled).Unscheduled id) :
    exec.Unscheduled id := by
  obtain ⟨status,found,other,open',idle⟩ := unscheduled
  have outside : id ≠ finished.step_id ∧ id ∉ exec.terminal := by
    simpa [recordFailure,collectFinished,not_or] using open'
  refine ⟨status,?_,other,outside.2,?_⟩
  · rw [status_failed sound flying,if_neg fun same : finished.step_id = id => outside.1 same.symm] at found
    exact found
  · intro member
    exact idle (Finset.mem_erase.mpr ⟨outside.1,member⟩)

end

/-- What ends with a failure that was recorded, besides the finished step. -/
theorem ends_settled (valid : ValidFor plan validated) (sound : Sound plan exec) (live : Live plan exec)
    {step_id : String} {cancelled : Bool} {failed : Execution} (soundFailed : Sound plan failed)
    (recorded : Ends exec failed [step_id]) (ended : step_id ∈ failed.terminal)
    (before : ∀ id, failed.Unscheduled id → exec.Unscheduled id)
    (orderly : exec.aborting = true → if cancelled = true ∨ onErrorOf plan step_id = .Abort then
      ∀ id, ¬ exec.Unscheduled id
      else ∀ id, exec.Unscheduled id → ¬ TransitiveNeeds plan id step_id) :
    ∃ ids, Ends failed (failed.settleFailure plan validated step_id cancelled) ids ∧
      terminalIds (failed.settleFailure plan validated step_id cancelled).events =
        terminalIds failed.events ++ ids := by
  have fresh : ∀ id, failed.Unscheduled id → (exec.aborting = true → ¬ exec.Unscheduled id) → ¬ failed.Ended id := by
    intro id unscheduled quiet now
    refine absurd (recorded.others id ?_ now) ?_
    · intro member
      obtain rfl := mem_singleton.mp member
      exact unscheduled.choose_spec.2.2.1 ended
    · cases aborting : exec.aborting with
      | false => exact unscheduled_fresh sound live aborting (before id unscheduled)
      | true => exact absurd (before id unscheduled) (quiet aborting)
  by_cases policy : cancelled = true ∨ onErrorOf plan step_id = .Abort
  · simp only [if_pos policy] at orderly
    rw [settleFailure_abort validated _ policy]
    have kind : SweepStatus (if cancelled then .Cancelled else .Skipped) := by
      cases cancelled
      · exact Or.inl rfl
      · exact Or.inr rfl
    have ends : Ends { failed with aborting := true } _ _ :=
      ends_sweep kind (if cancelled then "cancelled by caller" else "workflow aborted after failed step")
        fun id unscheduled => fresh id unscheduled fun aborting => orderly aborting id
    exact ⟨_,⟨ends.distinct,ends.fresh,ends.ended,ends.stable,ends.others⟩,terminalIds_sweep _ kind _⟩
  · simp only [if_neg policy] at orderly
    push Not at policy
    have no : cancelled = false := by simpa using policy.1
    subst no
    have effect := settleFailure_continue valid failed policy.2
    refine ⟨_,ends_skip soundFailed effect ?_,terminalIds_skip effect⟩
    intro id member
    obtain ⟨open',notCompleted,idle⟩ := effect.fresh id member
    obtain ⟨known,dependent⟩ := effect.dependent id member
    obtain ⟨status,found⟩ := (soundFailed.known id).mp known
    refine fresh id ⟨status,found,?_,open',idle⟩ fun aborting was => orderly aborting id was dependent
    rintro rfl
    exact notCompleted ((soundFailed.completed id).mpr found)

theorem reports_completeStep (valid : ValidFor plan validated) (sound : Sound plan exec) (live : Live plan exec)
    {finished : FinishedStep} (flying : finished.step_id ∈ exec.futures) {outcome : JournalWrite}
    (orderly : Orderly plan exec (.Finish finished outcome)) :
    ∃ ids, Reports exec (exec.completeStep plan validated finished outcome) ids := by
  obtain ⟨rfl,orderly⟩ := orderly
  have running := (flying_state sound flying).2.1
  unfold Execution.completeStep
  cases result : finished.result with
  | Succeeded run_ids output outputs =>
    have ends : Ends exec (exec.succeeded finished run_ids output outputs) [finished.step_id] :=
      ends_finished rfl running (status_succeeded sound flying run_ids output outputs)
    refine ⟨_,⟨ends.distinct,ends.fresh,ends.ended,ends.stable,ends.others⟩,?_⟩
    simp [Execution.write,Execution.emit,Execution.recordSuccess,Execution.collectFinished,terminalIds,
      StepEvent.terminal_id]
  | Failed run_ids output outputs error cancelled =>
    simp only [result] at orderly
    have recorded : Ends exec (exec.failed finished run_ids output outputs error cancelled) [finished.step_id] :=
      ends_finished (by cases cancelled <;> rfl) running
        (status_failed sound flying run_ids output outputs error cancelled)
    obtain ⟨ids,ends,events⟩ :=
      ends_settled valid sound live (sound_failed sound flying run_ids output outputs error cancelled)
      recorded (Finset.mem_insert_self _ _) (fun id => unscheduled_before sound flying) orderly
    have whole := recorded.trans ends
    refine ⟨_,⟨whole.distinct,whole.fresh,whole.ended,whole.stable,whole.others⟩,?_⟩
    have last : terminalIds [if cancelled then StepEvent.Cancelled finished.step_id finished.duration
        else .Failed finished.step_id finished.duration error] = [finished.step_id] := by
      cases cancelled <;> rfl
    change (terminalIds (Execution.events _ ++ [_])).Perm _
    rw [terminalIds_append,last]
    change (terminalIds (Execution.settleFailure plan validated _ _ _).events ++ [_]).Perm _
    rw [events,append_assoc]
    exact (perm_append_comm).append_left _

theorem step_reports (valid : ValidFor plan validated) (inv : Invariant plan exec) {input : Input}
    (orderly : Orderly plan exec input) (stepped : exec.step plan validated input = some next) :
    ∃ ids, Reports exec next ids := by
  have nothing : ∀ {after : Execution}, after.journal = exec.journal → after.events = exec.events →
      ∃ ids, Reports exec after ids := by
    intro after journal events
    refine ⟨[],Ends.unchanged fun id => by rw [status,journal]; rfl,by simp [events]⟩
  cases step_cases stepped with
  | cancel => exact nothing rfl rfl
  | top _ _ top =>
    have live := inv.live (by rw [top]; rfl)
    have noticed : ∃ ids, Reports exec exec.noticeCancel ids := by
      unfold noticeCancel
      split_ifs with cancels
      · simp only [Bool.and_eq_true,Bool.not_eq_true'] at cancels
        exact reports_cancel_pending inv.sound live cancels.2
      · exact nothing rfl rfl
    obtain ⟨ids,reports⟩ := noticed
    refine ⟨ids,?_⟩
    unfold loopTop
    dsimp only
    split_ifs
    · exact ⟨⟨reports.distinct,reports.fresh,reports.ended,reports.stable,reports.others⟩,reports.events⟩
    · exact ⟨⟨reports.distinct,reports.fresh,reports.ended,reports.stable,reports.others⟩,reports.events⟩
  | start provisioned outcome starting =>
    have live := inv.live (by rw [starting]; rfl)
    obtain ⟨calm,_,_,_,_,pending,_⟩ := queued_state inv.sound live starting
    rcases startStep_cases valid inv.sound live starting provisioned outcome with
      ⟨_,equal⟩ | ⟨error,equal⟩ | ⟨step,rfl,equal⟩
    · rw [equal]
      obtain ⟨ids,reports⟩ := reports_cancel_pending inv.sound live calm
      exact ⟨ids,⟨reports.distinct,reports.fresh,reports.ended,reports.stable,reports.others⟩,reports.events⟩
    · rw [equal]
      exact nothing rfl rfl
    · rw [equal]
      refine ⟨[],⟨nodup_nil,by simp,by simp,?_,?_⟩,?_⟩
      · intro id status found final
        have kept : (markRunning exec.journal step provisioned).statusOf id = some status := by
          rw [status_markRunning,if_neg]
          · exact found
          · intro same
            rw [← same,pending,Option.some.injEq] at found
            rw [← found] at final
            cases final
        cases outcome <;> exact kept
      · intro id _ ended
        obtain ⟨status,found,final⟩ := ended
        have now : (markRunning exec.journal step provisioned).statusOf id = some status := by
          cases outcome <;> exact found
        rw [status_markRunning] at now
        split_ifs at now with same
        · obtain ⟨_,_,equal'⟩ := Option.map_eq_some_iff.mp now
          rw [← equal'] at final
          cases final
        · exact ⟨status,now,final⟩
      · have silent : terminalIds [StepEvent.Started step.id] = [] := rfl
        cases outcome <;> simp [write,silent]
  | started => exact nothing rfl rfl
  | idle => exact nothing rfl rfl
  | finish _ outcome finishing =>
    have live := inv.live (by rw [finishing]; rfl)
    obtain ⟨ids,reports⟩ := reports_finalSweep inv.sound live (orderly finishing)
    refine ⟨ids,?_⟩
    cases outcome <;>
      exact ⟨⟨reports.distinct,reports.fresh,reports.ended,reports.stable,reports.others⟩,reports.events⟩
  | complete finished outcome waiting flying =>
    exact reports_completeStep valid inv.sound (inv.live (by rw [waiting]; rfl)) flying orderly

/-! ### Runs -/

def OrderlyRun (plan : WorkflowPlan) (validated : ValidatedWorkflow β) : Execution → List Input → Prop
  | _, [] => True
  | exec, input :: rest => Orderly plan exec input ∧
    ∀ next, exec.step plan validated input = some next → OrderlyRun plan validated next rest

/-- Each step that ended since the beginning was reported once, no other was. -/
def ReportedOnce (origin exec : Execution) : Prop :=
  (∀ id, origin.Ended id → exec.Ended id) ∧
    ∀ id, (¬ exec.Ended id ∨ origin.Ended id → exec.terminal_events id = 0) ∧
      (exec.Ended id → ¬ origin.Ended id → exec.terminal_events id = 1)

theorem reported_step {origin : Execution} {ids : List String} (reports : Reports exec next ids)
    (once : ReportedOnce origin exec) : ReportedOnce origin next := by
  have count : ∀ id, next.terminal_events id = exec.terminal_events id + ids.count id := by
    intro id
    rw [terminal_events,reports.events.count_eq,count_append]
    rfl
  have keeps : ∀ id, exec.Ended id → next.Ended id := by
    rintro id ⟨status,found,final⟩
    exact ⟨status,reports.stable id status found final,final⟩
  refine ⟨fun id was => keeps id (once.1 id was),fun id => ⟨?_,?_⟩⟩
  · intro none
    have before : ¬ exec.Ended id ∨ origin.Ended id := none.imp_left fun open' ended => open' (keeps id ended)
    have absent : id ∉ ids := by
      intro member
      rcases none with open' | was
      · exact open' (reports.ended id member)
      · exact reports.fresh id member (once.1 id was)
    rw [count,(once.2 id).1 before,count_eq_zero_of_not_mem absent]
  · intro ended fresh
    by_cases member : id ∈ ids
    · rw [count,(once.2 id).1 (Or.inl (reports.fresh id member)),count_eq_one_of_mem reports.distinct member]
    · rw [count,(once.2 id).2 (reports.others id member ended) fresh,count_eq_zero_of_not_mem member]

/-- Along an orderly run ended steps stay as they are, and are reported once. -/
theorem orderly_run (valid : ValidFor plan validated) {origin : Execution} (inputs : List Input) :
    ∀ exec final : Execution, Invariant plan exec → ReportedOnce origin exec → OrderlyRun plan validated exec inputs →
      exec.run plan validated inputs = some final →
      ReportedOnce origin final ∧
        ∀ id status, exec.status id = some status → status.is_terminal = true → final.status id = some status := by
  induction inputs with
  | nil =>
    intro exec final _ once _ ran
    simp only [run,foldlM_nil,Option.pure_def,Option.some.injEq] at ran
    subst ran
    exact ⟨once,fun _ _ found _ => found⟩
  | cons input rest ih =>
    intro exec final inv once orderly ran
    simp only [run,foldlM_cons,Option.bind_eq_bind,Option.bind_eq_some_iff] at ran
    obtain ⟨next,stepped,ran⟩ := ran
    obtain ⟨ids,reports⟩ := step_reports valid inv orderly.1 stepped
    obtain ⟨reported,stable⟩ := ih next final (step_invariant valid inv stepped) (reported_step reports once)
      (orderly.2 next stepped) ran
    exact ⟨reported,fun id status found final => stable id status (reports.stable id status found final) final⟩

theorem orderly_append (first second : List Input) : ∀ exec middle : Execution,
    OrderlyRun plan validated exec (first ++ second) → exec.run plan validated first = some middle →
      OrderlyRun plan validated exec first ∧ OrderlyRun plan validated middle second := by
  induction first with
  | nil =>
    intro exec middle orderly ran
    simp only [run,foldlM_nil,Option.pure_def,Option.some.injEq] at ran
    subst ran
    exact ⟨trivial,orderly⟩
  | cons input rest ih =>
    intro exec middle orderly ran
    simp only [run,foldlM_cons,Option.bind_eq_bind,Option.bind_eq_some_iff] at ran
    obtain ⟨next,stepped,ran⟩ := ran
    obtain ⟨_,later⟩ := ih next middle (orderly.2 next stepped) ran
    refine ⟨⟨orderly.1,fun other stepped' => ?_⟩,later⟩
    obtain rfl : next = other := Option.some.inj (stepped.symm.trans stepped')
    exact (ih next middle (orderly.2 next stepped) ran).1

/-- In every run whose transitions are all orderly: a step that has ended keeps its status from then on, and each step
    that ended during the execution was reported to the observer by exactly one terminal event. -/
theorem execute_ends_once {digests : PlanDigests} {resolver : TargetResolver β} {journal : WorkflowJournal}
    {first more : List Input} {middle final : Execution}
    (accepted : validate_plan digests plan journal.vars resolver = .ok validated)
    (admissible : Admissible digests plan journal)
    (ran : (Execution.start plan journal).run plan validated first = some middle)
    (continued : middle.run plan validated more = some final)
    (orderly : OrderlyRun plan validated (Execution.start plan journal) (first ++ more)) :
    (∀ id status, middle.status id = some status → status.is_terminal = true → final.status id = some status) ∧
      ∀ id, final.Ended id → ¬ (Execution.start plan journal).Ended id → final.terminal_events id = 1 := by
  have valid := validate_plan_ok accepted
  have start := start_invariant valid.concurrency (startable_of_admissible admissible)
  obtain ⟨early,late⟩ := orderly_append first more _ middle orderly ran
  have silent : ReportedOnce (Execution.start plan journal) (Execution.start plan journal) :=
    ⟨fun _ ended => ended,fun id => ⟨fun _ => rfl,fun ended fresh => absurd ended fresh⟩⟩
  obtain ⟨once,_⟩ := orderly_run valid first _ middle start silent early ran
  obtain ⟨reported,stable⟩ := orderly_run valid more middle final (run_invariant valid start ran) once late continued
  exact ⟨stable,fun id => (reported.2 id).2⟩

/-- A test that is enough for a run to be orderly: nothing fails, and no cancelled run finishes, once the loop
    aborts. -/
def orderlyCheck (exec : Execution) : Input → Bool
  | .Cancel => true
  | .Advance _ _ => exec.phase != .Finishing || !exec.cancelled || !exec.aborting
  | .Finish finished outcome => outcome == .Written && match finished.result with
    | .Succeeded _ _ _ => true
    | .Failed _ _ _ _ _ => !exec.aborting
def orderlyRunCheck (plan : WorkflowPlan) (validated : ValidatedWorkflow β) : Execution → List Input → Bool
  | _, [] => true
  | exec, input :: rest => orderlyCheck exec input &&
    match exec.step plan validated input with
    | none => true
    | some next => orderlyRunCheck plan validated next rest

theorem orderly_of_check {input : Input} (checked : orderlyCheck exec input = true) : Orderly plan exec input := by
  cases input with
  | Cancel => trivial
  | Advance provisioned outcome =>
    intro finishing caller aborting
    simp [orderlyCheck,finishing,caller,aborting] at checked
  | Finish finished outcome =>
    simp only [orderlyCheck,Bool.and_eq_true,beq_iff_eq] at checked
    refine ⟨checked.1,?_⟩
    cases result : finished.result with
    | Succeeded run_ids output outputs => trivial
    | Failed run_ids output outputs error cancelled =>
      intro aborting
      simp [result,aborting] at checked

theorem orderly_run_of_check (inputs : List Input) : ∀ exec : Execution,
    orderlyRunCheck plan validated exec inputs = true → OrderlyRun plan validated exec inputs := by
  induction inputs with
  | nil => intro exec _; trivial
  | cons input rest ih =>
    intro exec checked
    simp only [orderlyRunCheck,Bool.and_eq_true] at checked
    refine ⟨orderly_of_check checked.1,?_⟩
    intro next stepped
    simp only [stepped] at checked
    exact ih next checked.2

/-- The first step fails and aborts the run while the second is running. -/
def abortedRun : List Input := bothStarted ++ [fail "a" false,goOn,goOn]

theorem aborted_run_reports_once :
    (sampleRun abortedRun).status "c" = some .Skipped ∧
      (sampleRun (abortedRun ++ [succeed "b"])).status "c" = some .Skipped ∧
      (sampleRun (abortedRun ++ [succeed "b"])).terminal_events "c" = 1 := by
  have first := sampleRun_runs abortedRun (by decide +kernel)
  have second := sampleRun_runs (abortedRun ++ [succeed "b"]) (by decide +kernel)
  have continued : (sampleRun abortedRun).run samplePlan sampleValidated [succeed "b"] =
      some (sampleRun (abortedRun ++ [succeed "b"])) := by
    rw [run_snoc,first] at second
    simpa [run] using second
  have skipped : (sampleRun abortedRun).status "c" = some .Skipped := by decide +kernel
  have final := execute_ends_once sample_accepted sample_admissible first continued
    (orderly_run_of_check _ _ (by decide +kernel))
  have kept := final.1 "c" .Skipped skipped rfl
  have fresh : (start samplePlan sampleJournal).status "c" = some .Pending := by decide +kernel
  refine ⟨skipped,kept,final.2 "c" ⟨.Skipped,kept,rfl⟩ ?_⟩
  rintro ⟨status,found,ended⟩
  rw [fresh,Option.some.injEq] at found
  rw [← found] at ended
  cases ended

/-- The caller cancels while the second step is still running, and its dispatch reports the cancellation: the third
    step, skipped and reported when the first one failed, becomes cancelled and is reported again. -/
theorem skipped_step_is_cancelled_later :
    validate_plan sampleDigests samplePlan sampleJournal.vars sampleResolver = .ok sampleValidated ∧
      (start samplePlan sampleJournal).run samplePlan sampleValidated abortedRun = some (sampleRun abortedRun) ∧
      (sampleRun abortedRun).status "c" = some .Skipped ∧
      (sampleRun abortedRun).run samplePlan sampleValidated [.Cancel,fail "b" true] =
        some (sampleRun (abortedRun ++ [.Cancel,fail "b" true])) ∧
      (sampleRun (abortedRun ++ [.Cancel,fail "b" true])).status "c" = some .Cancelled ∧
      (sampleRun (abortedRun ++ [.Cancel,fail "b" true])).terminal_events "c" = 2 := by
  have first := sampleRun_runs abortedRun (by decide +kernel)
  have second := sampleRun_runs (abortedRun ++ [.Cancel,fail "b" true]) (by decide +kernel)
  refine ⟨sample_accepted,first,by decide +kernel,?_,by decide +kernel,by decide +kernel⟩
  rw [run,foldlM_append] at second
  rw [run] at first
  simpa [first,run] using second

end Vyane.Workflows
