import Vyane.WorkflowInvariant

/-!
Every transition keeps the invariants, so every run from an admissible journal does.
-/
namespace Vyane.Workflows
open Std Graphs
variable {β : Type} {plan : WorkflowPlan} {validated : ValidatedWorkflow β} {exec : Execution}
  {step_id : String} {rest : List String}

/-! ### Sweeps -/

/-- After a sweep every step runs or has ended. -/
theorem sweep_covers (sound : Sound plan exec) {status : JournalStepStatus} (swept : SweepStatus status)
    (reason : String) : ∀ id ∈ plan.ids, id ∈ exec.running ∨
      ∃ now, (exec.mark_unscheduled_terminal status reason).status id = some now ∧ now.is_terminal = true := by
  intro id known
  obtain ⟨old,was⟩ := (sound.known id).mp known
  rcases status_sweep_cases exec status reason id with ⟨_,now⟩ | ⟨kept,same⟩
  · refine .inr ⟨status,now,?_⟩
    rcases swept with rfl | rfl <;> rfl
  · by_cases member : id ∈ exec.running
    · exact .inl member
    · right
      rw [same]
      by_cases ended : id ∈ exec.terminal
      · exact sound.terminal id ended
      · have success : old = .Success := by
          by_contra other
          exact kept ⟨old,was,other,ended,member⟩
        exact ⟨old,was,by rw [success]; rfl⟩

/-- A sweep that makes the loop abort. -/
theorem coherent_sweep (sound : Sound plan exec)
    (permits : exec.permits + exec.futures.length = plan.max_concurrency.toNat)
    (aborting : exec.aborting = true) (cause : AbortCause plan exec) {status : JournalStepStatus}
    (swept : SweepStatus status) (reason : String) : Coherent plan (exec.mark_unscheduled_terminal status reason) := by
  have impossible : ∀ {p : Prop}, exec.aborting = false → p := by
    intro p calm
    rw [aborting] at calm
    cases calm
  refine ⟨permits,fun calm => impossible calm,fun _ => sweep_covers sound swept reason,fun _ => ?_,
    fun _ _ _ => aborting,fun calm => impossible calm,fun calm => impossible calm,fun calm => impossible calm,
    fun _ => Or.inl aborting⟩
  rcases cause with caller | ⟨id,member,why⟩
  · exact .inl caller
  · refine .inr ⟨id,member,?_⟩
    have kept : id ∈ exec.terminal ∨ id ∈ exec.running := Or.inl member
    rw [status_sweep_of_mem kept]
    exact why

/-- The caller's cancellation, noticed by the loop. -/
theorem live_cancel_pending (sound : Sound plan exec) (coherent : Coherent plan exec) (caller : exec.cancelled = true) :
    Live plan { ({ exec with aborting := true, had_failures := true } : Execution).cancel_pending with
      phase := .Starting [] } :=
  (coherent_sweep (sound.flags true true exec.cancelled exec.phase) coherent.permits rfl (Or.inl caller) (.inr rfl)
    "cancelled by caller").at_abort rfl

/-! ### The head of the loop -/

theorem live_loopTop (valid : ValidFor plan validated) (sound : Sound plan exec) (live : Live plan exec) :
    Live plan (exec.loopTop validated) := by
  unfold Execution.loopTop Execution.noticeCancel
  by_cases cancels : (exec.cancelled && !exec.aborting) = true
  · simp only [cancels,if_true]
    have caller : exec.cancelled = true := by simp at cancels; exact cancels.1
    have aborts : (({ exec with aborting := true, had_failures := true } : Execution).cancel_pending).aborting = true :=
      rfl
    rw [if_pos aborts]
    exact live_cancel_pending sound live.toCoherent caller
  · simp only [cancels,Bool.false_eq_true,if_false]
    by_cases aborting : exec.aborting = true
    · rw [if_pos aborting]
      exact live.at_abort aborting
    · rw [if_neg aborting]
      have calm : exec.aborting = false := by simpa using aborting
      refine live.toCoherent.live ?_ ?_ (fun waiting => by cases waiting) (fun finishing => by cases finishing)
      · intro ready starting
        injection starting with equal
        subst equal
        refine ⟨(List.take_sublist _ _).nodup (ready_steps_nodup valid exec),
          by simp [List.length_take],fun _ => calm,?_⟩
        intro id member
        exact (mem_ready_steps valid exec id).mp (List.mem_of_mem_take member)
      · intro starting _ empty id known open'
        have nothing : (ready_steps validated exec).take exec.permits = [] := by
          rcases starting with equal | equal
          · injection equal
          · cases equal
        have noFutures : exec.futures = [] := by
          apply List.eq_nil_iff_forall_not_mem.mpr
          intro other member
          have := (sound.flight other).mp member
          rw [empty] at this
          simp at this
        have full := live.permits
        rw [noFutures,List.length_nil,Nat.add_zero] at full
        have notReady : id ∉ ready_steps validated exec := by
          have concurrency := valid.concurrency
          rw [List.take_eq_nil_iff] at nothing
          rcases nothing with zero | none
          · omega
          · rw [none]; simp
        rw [mem_ready_steps valid] at notReady
        have idle : id ∉ exec.running := by rw [empty]; simp
        by_contra blocked
        push Not at blocked
        exact notReady ⟨known,open',idle,blocked⟩

/-! ### Starting a step -/

/-- A queued step was recorded as pending and all its needs as successful. -/
theorem queued_state (sound : Sound plan exec) (live : Live plan exec)
    (starting : exec.phase = .Starting (step_id :: rest)) :
    exec.aborting = false ∧ step_id ∈ plan.ids ∧ step_id ∉ exec.terminal ∧ step_id ∉ exec.running ∧ 0 < exec.permits ∧
      exec.status step_id = some .Pending ∧ ∀ need, Needs plan step_id need → exec.status need = some .Success := by
  obtain ⟨_,room,calm,queued⟩ := live.queue _ starting
  have calm : exec.aborting = false := calm (by simp)
  obtain ⟨known,open',idle,ready⟩ := queued step_id (by simp)
  refine ⟨calm,known,open',idle,?_,live.pending calm step_id known open' idle,?_⟩
  · simp only [List.length_cons] at room
    omega
  · intro need needed
    exact (sound.completed need).mp (ready need needed)

/-- What starting a queued step comes to: the caller cancelled, the prompt could
    not be rendered, or the step is marked and written. -/
theorem startStep_cases (valid : ValidFor plan validated) (sound : Sound plan exec) (live : Live plan exec)
    (starting : exec.phase = .Starting (step_id :: rest))
    (provisioned : List JournalWorktree) (outcome : JournalWrite) :
    (exec.cancelled = true ∧ exec.startStep plan validated step_id rest provisioned outcome =
      { ({ exec with aborting := true, had_failures :=
        true } : Execution).cancel_pending with phase := .Starting [] }) ∨
    (∃ error, exec.startStep plan validated step_id rest provisioned outcome =
      { exec with permits := exec.permits - 1, phase := .Errored error }) ∨
    ∃ step, step.id = step_id ∧ exec.startStep plan validated step_id rest provisioned outcome =
      ({ exec with permits := exec.permits - 1, journal :=
        markRunning exec.journal step provisioned } : Execution).write
        outcome fun exec =>
          { exec with
            events := exec.events ++ [.Started step_id]
            running := insert step_id exec.running
            futures := exec.futures ++ [step_id]
            phase := .Starting rest } := by
  obtain ⟨_,known,_,_,room,_,_⟩ := queued_state sound live starting
  obtain ⟨step,_,found,same⟩ := step_by_id_some plan known
  obtain ⟨targets,resolved⟩ := valid.resolved step_id known
  have some : exec.permits ≠ 0 := by omega
  unfold Execution.startStep
  by_cases caller : exec.cancelled = true
  · exact .inl ⟨caller,by simp [caller]⟩
  · right
    simp only [caller,Bool.false_eq_true,if_false,some,found,resolved]
    cases rendered : render_template_inner step.prompt_template plan.name exec.journal.vars exec.journal.steps with
    | error error => exact .inl ⟨error,rfl⟩
    | ok prompt => exact .inr ⟨step,same,rfl⟩

theorem sound_startStep (valid : ValidFor plan validated) (sound : Sound plan exec) (live : Live plan exec)
    (starting : exec.phase = .Starting (step_id :: rest))
    (provisioned : List JournalWorktree) (outcome : JournalWrite) :
    Sound plan (exec.startStep plan validated step_id rest provisioned outcome) := by
  obtain ⟨_,_,_,idle,room,pending,ready⟩ := queued_state sound live starting
  rcases startStep_cases valid sound live starting provisioned outcome with ⟨_,equal⟩ | ⟨error,equal⟩ | ⟨step,rfl,equal⟩
  · rw [equal]
    have swept := (sound.flags true true exec.cancelled exec.phase).sweep (.inr rfl) "cancelled by caller"
    exact swept.flags true true exec.cancelled (.Starting [])
  · rw [equal]
    have bound := sound.capacity
    exact ⟨sound.known,sound.completed,sound.subset,sound.terminal,sound.running,sound.futures,sound.flight,sound.needs,
      by simp only; omega,sound.once,sound.begun,sound.file⟩
  · rw [equal]
    have begun := sound.begin pending ready provisioned
    refine begun.write outcome fun written => ?_
    have state := (status_begun pending provisioned step.id).trans (if_pos rfl)
    have fresh : step.id ∉ startedIds exec.events := fun member => sound.begun step.id member pending
    refine written.dispatch state idle fresh ?_ (.Starting rest)
    have bound := sound.capacity
    simp only
    omega

/-- A step that goes on to run or to succeed, where all else stays. -/
theorem Coherent.move (coherent : Coherent plan exec) {before after : JournalStepStatus}
    (was : exec.status step_id = some before) (leaves : before = .Pending ∨ before = .Running)
    (enters : after = .Running ∧ step_id ∈ next.running ∨ after = .Success ∧ step_id ∈ next.terminal)
    (statusEq : ∀ id, next.status id = if step_id = id then some after else exec.status id)
    (aborts : next.aborting = exec.aborting) (had : next.had_failures = exec.had_failures)
    (caller : next.cancelled = exec.cancelled)
    (permits : next.permits + next.futures.length = plan.max_concurrency.toNat)
    (running : ∀ id ∈ exec.running, step_id ≠ id → id ∈ next.running) (grows : ∀ id ∈ exec.terminal, id ∈ next.terminal)
    (fresh : ∀ id ∈ next.terminal, id ∈ exec.terminal ∨ step_id = id ∧ after = .Success) : Coherent plan next := by
  have unchanged : ∀ id status, status ≠ .Running → status ≠ .Success → next.status id = some status →
    exec.status id = some status := by
    intro id status notRunning notSuccess now
    rw [statusEq] at now
    split_ifs at now with same
    · obtain rfl := Option.some.inj now
      rcases enters with ⟨rfl,-⟩ | ⟨rfl,-⟩
      · exact absurd rfl notRunning
      · exact absurd rfl notSuccess
    · exact now
  have kept : ∀ id status, status ≠ .Pending → status ≠ .Running → exec.status id = some status →
    next.status id = some status := by
    intro id status notPending notRunning found
    rw [statusEq,if_neg]
    · exact found
    · rintro rfl
      obtain rfl := Option.some.inj (was.symm.trans found)
      exact leaves.elim notPending notRunning
  refine ⟨permits,?_,?_,?_,?_,?_,?_,?_,?_⟩
  · intro calm id known open' idle
    have other : step_id ≠ id := by
      rintro rfl
      exact enters.elim (fun runs => idle runs.2) fun ends => open' ends.2
    rw [statusEq,if_neg other]
    exact coherent.pending (aborts ▸ calm) id known (fun old => open' (grows id old)) fun old =>
      idle (running id old other)
  · intro aborting id known
    by_cases same : step_id = id
    · subst same
      rcases enters with ⟨-,runs⟩ | ⟨rfl,-⟩
      · exact .inl runs
      · exact .inr ⟨.Success,(statusEq _).trans (if_pos rfl),rfl⟩
    · rcases coherent.swept (aborts ▸ aborting) id known with member | ⟨status,found,final⟩
      · exact .inl (running id member same)
      · exact .inr ⟨status,(statusEq id).trans ((if_neg same).trans found),final⟩
  · intro aborting
    rcases coherent.cause (aborts ▸ aborting) with token | ⟨id,member,why⟩
    · exact .inl (caller.trans token)
    · exact .inr ⟨id,grows id member,why.imp (kept id .Cancelled (by simp) (by simp))
        fun failed => ⟨kept id .Failed (by simp) (by simp) failed.1,failed.2⟩⟩
  · intro id state policy
    exact aborts.trans (coherent.failed id (unchanged id .Failed (by simp) (by simp) state) policy)
  · intro calm id state
    obtain ⟨failed,needs,found⟩ := coherent.skipped (aborts ▸ calm) id (unchanged id .Skipped (by simp) (by simp) state)
    exact ⟨failed,needs,kept failed .Failed (by simp) (by simp) found⟩
  · intro calm id state
    exact coherent.uncancelled (aborts ▸ calm) id (unchanged id .Cancelled (by simp) (by simp) state)
  · intro calm id member state child needs
    rcases fresh id member with old | ⟨same,rfl⟩
    · exact grows child (coherent.closed (aborts ▸ calm) id old (fun found =>
        state (kept id .Success (by simp) (by simp) found)) child needs)
    · exact absurd ((statusEq id).trans (if_pos same)) state
  · intro failures
    rw [aborts]
    exact (coherent.failures (had ▸ failures)).imp_right fun failed => failed.imp fun id =>
      kept id .Failed (by simp) (by simp)

theorem live_startStep (valid : ValidFor plan validated) (sound : Sound plan exec) (live : Live plan exec)
    (starting : exec.phase = .Starting (step_id :: rest))
    (provisioned : List JournalWorktree) (outcome : JournalWrite)
    (going : (exec.startStep plan validated step_id rest provisioned outcome).phase.live = true) :
    Live plan (exec.startStep plan validated step_id rest provisioned outcome) := by
  obtain ⟨calm,_,open',idle,room,pending,_⟩ := queued_state sound live starting
  rcases startStep_cases valid sound live starting provisioned outcome with
    ⟨caller,equal⟩ | ⟨error,equal⟩ | ⟨step,rfl,equal⟩
  · rw [equal]
    exact live_cancel_pending sound live.toCoherent caller
  · rw [equal] at going
    cases going
  · rw [equal] at going ⊢
    cases outcome with
    | NotWritten replaced => cases going
    | Written =>
      obtain ⟨distinct,bound,_,queued⟩ := live.queue _ starting
      simp only [Execution.write]
      refine Live.mk (live.move pending (.inl rfl)
        (.inl ⟨rfl,Finset.mem_insert_self _ _⟩) (status_begun pending provisioned)
        rfl rfl rfl ?_ (fun id member _ => Finset.mem_insert_of_mem member) (fun _ => id) fun _ => .inl) ?_ ?_ ?_ ?_
      · have full := live.permits
        simp only [List.length_append,List.length_singleton]
        omega
      · intro ready equal'
        injection equal' with equal'
        subst equal'
        simp only [List.length_cons,List.nodup_cons] at bound distinct
        refine ⟨distinct.2,by simp only; omega,fun _ => calm,?_⟩
        intro id member
        obtain ⟨known,outside,notRunning,ready⟩ := queued id (by simp [member])
        refine ⟨known,outside,?_,ready⟩
        have other : id ≠ step.id := fun same => distinct.1 (same ▸ member)
        simp [other,notRunning]
      · intro _ _ empty
        simp at empty
      · intro waiting; cases waiting
      · intro finishing; cases finishing

/-! ### A step finishes -/

/-- A step in flight is recorded as running and is not terminal in memory. -/
theorem flying_state (sound : Sound plan exec) (flying : step_id ∈ exec.futures) :
    step_id ∈ exec.running ∧ exec.status step_id = some .Running ∧ step_id ∉ exec.terminal := by
  have running := (sound.flight step_id).mp flying
  have state := sound.running step_id running
  refine ⟨running,state,?_⟩
  intro member
  obtain ⟨status,was,final⟩ := sound.terminal step_id member
  rw [state,Option.some.injEq] at was
  simp [← was,JournalStepStatus.is_terminal] at final

theorem collected_permits (live : Live plan exec) {finished : FinishedStep} (flying : finished.step_id ∈ exec.futures) :
    (exec.collectFinished finished).permits + (exec.collectFinished finished).futures.length =
      plan.max_concurrency.toNat := by
  have full := live.permits
  have positive := List.length_pos_of_mem flying
  simp only [Execution.collectFinished,List.length_erase_of_mem flying]
  omega

/-- A collected step that is recorded as a success. -/
abbrev Execution.succeeded (exec : Execution) (finished : FinishedStep) (run_ids : List String) (output : Option String)
    (outputs : Option (List JournalTargetOutput)) : Execution :=
  (exec.collectFinished finished).recordSuccess finished.step_id run_ids output outputs
/-- One that is recorded as a failure. -/
abbrev Execution.failed (exec : Execution) (finished : FinishedStep) (run_ids : List String) (output : Option String)
    (outputs : Option (List JournalTargetOutput)) (error : String) (cancelled : Bool) : Execution :=
  (exec.collectFinished finished).recordFailure finished.step_id run_ids output outputs error cancelled

section
variable {finished : FinishedStep} (sound : Sound plan exec) (flying : finished.step_id ∈ exec.futures)
include sound flying
variable (run_ids : List String) (output : Option String) (outputs : Option (List JournalTargetOutput)) (error : String)
  (cancelled : Bool)

theorem status_succeeded (id : String) :
    (exec.succeeded finished run_ids output outputs).status id =
      if finished.step_id = id then some .Success else exec.status id := by
  rw [status_recordSuccess,status_collectFinished]
  split_ifs with same
  · rw [← same,(flying_state sound flying).2.1]; rfl
  · rfl

theorem status_failed (id : String) :
    (exec.failed finished run_ids output outputs error cancelled).status id =
      if finished.step_id = id then some (if cancelled then .Cancelled else .Failed) else exec.status id := by
  rw [status_recordFailure,status_collectFinished]
  split_ifs with same <;> first | rfl | (rw [← same,(flying_state sound flying).2.1]; rfl)

theorem sound_succeeded : Sound plan (exec.succeeded finished run_ids output outputs) := by
  refine (sound.collect flying).record finished.step_id .Success ?_ ?_ rfl ?_ ?_ rfl rfl rfl rfl rfl rfl
  · rw [status_collectFinished]; exact (flying_state sound flying).2.1
  · simp [Execution.collectFinished]
  · intro id
    rw [status_succeeded sound flying,status_collectFinished]
  · intro id
    simp [Execution.recordSuccess,or_comm]

theorem sound_failed : Sound plan (exec.failed finished run_ids output outputs error cancelled) := by
  refine (sound.collect flying).record finished.step_id (if cancelled then .Cancelled else .Failed) ?_ ?_ ?_ ?_ ?_
    rfl rfl rfl rfl rfl rfl
  · rw [status_collectFinished]; exact (flying_state sound flying).2.1
  · simp [Execution.collectFinished]
  · cases cancelled <;> rfl
  · intro id
    rw [status_failed sound flying,status_collectFinished]
  · intro id
    cases cancelled <;> simp [Execution.recordFailure]

theorem coherent_succeeded (live : Live plan exec) :
    Coherent plan (exec.succeeded finished run_ids output outputs) := by
  refine live.move (flying_state sound flying).2.1 (.inr rfl) (.inr ⟨rfl,Finset.mem_insert_self _ _⟩)
    (status_succeeded sound flying run_ids output outputs) rfl rfl rfl (collected_permits live flying) ?_ ?_ ?_
  · exact fun id member other => Finset.mem_erase.mpr ⟨other.symm,member⟩
  · exact fun id member => Finset.mem_insert_of_mem member
  · exact fun id member => (Finset.mem_insert.mp member).elim (fun same => .inr ⟨same.symm,rfl⟩) .inl

theorem coherent_aborted (live : Live plan exec)
    (policy : cancelled = true ∨ onErrorOf plan finished.step_id = .Abort) :
    Coherent plan ((exec.failed finished run_ids output outputs error cancelled).settleFailure plan validated finished.step_id cancelled) := by
  rw [settleFailure_abort validated _ policy]
  have failed := sound_failed sound flying run_ids output outputs error cancelled
  have final := status_failed sound flying run_ids output outputs error cancelled finished.step_id
  rw [if_pos rfl] at final
  refine coherent_sweep (failed.flags true _ _ _) (collected_permits live flying) rfl ?_ ?_ _
  · refine .inr ⟨finished.step_id,Finset.mem_insert_self _ _,?_⟩
    cases cancelled with
    | true => exact .inl final
    | false => exact .inr ⟨final,policy.resolve_left (by simp)⟩
  · cases cancelled
    · exact .inl rfl
    · exact .inr rfl

section
variable (valid : ValidFor plan validated)
include valid
theorem coherent_continued (live : Live plan exec) (policy : onErrorOf plan finished.step_id ≠ .Abort) :
    Coherent plan
      ((exec.failed finished run_ids output outputs error false).settleFailure plan validated finished.step_id false) :=
      by
  have failed := sound_failed sound flying run_ids output outputs error false
  have statusFailed := status_failed sound flying run_ids output outputs error false
  have effect := settleFailure_continue valid (exec.failed finished run_ids output outputs error false) policy
  have soundNext := failed.skip effect
  generalize (skip_dependents finished.step_id validated (exec.failed finished run_ids output outputs error false)).1 =
    skipped at effect
  generalize
    (exec.failed finished run_ids output outputs error false).settleFailure plan validated finished.step_id false =
    next at effect soundNext ⊢
  have inTerminal : finished.step_id ∉ skipped := fun member =>
    (effect.fresh _ member).1 (Finset.mem_insert_self _ _)
  have failedNow : next.status finished.step_id = some .Failed := by
    rw [effect.status,if_neg inTerminal,statusFailed,if_pos rfl]
    rfl
  have statusNext : ∀ id, id ∉ skipped → finished.step_id ≠ id → next.status id = exec.status id := by
    intro id fresh other
    rw [effect.status,if_neg fresh,statusFailed,if_neg other]
  have skippedNow : ∀ id ∈ skipped, next.status id = some .Skipped := by
    intro id member
    obtain ⟨status,was⟩ := (failed.known id).mp (effect.dependent id member).1
    rw [effect.status,if_pos member,was]
    rfl
  have keptTerminal : ∀ id ∈ exec.terminal, next.status id = exec.status id := by
    intro id member
    refine statusNext id (fun fresh => (effect.fresh id fresh).1 (Finset.mem_insert_of_mem member)) ?_
    rintro rfl
    exact (flying_state sound flying).2.2 member
  have oldFailure : exec.aborting = false → ∀ id, exec.status id = some .Failed → id ∈ exec.terminal := by
    intro calm id was
    have known := (sound.known id).mpr ⟨_,was⟩
    by_contra open'
    have idle : id ∉ exec.running := fun member => by
      have := sound.running id member
      rw [was] at this
      simp at this
    have := live.pending calm id known open' idle
    rw [was] at this
    simp at this
  have aborts : next.aborting = exec.aborting := by
    rw [effect.aborting]
    simp [Execution.recordFailure,Execution.collectFinished]
  have origin : ∀ id status, status ≠ .Failed → status ≠ .Skipped → next.status id = some status →
    exec.status id = some status := by
    intro id status notFailed notSkipped now
    by_cases fresh : id ∈ skipped
    · rw [skippedNow id fresh] at now
      exact absurd (Option.some.inj now).symm notSkipped
    · by_cases same : finished.step_id = id
      · rw [← same,failedNow] at now
        exact absurd (Option.some.inj now).symm notFailed
      · rw [statusNext id fresh same] at now
        exact now
  refine ⟨?_,?_,?_,?_,?_,?_,?_,?_,?_⟩
  · rw [effect.permits,effect.futures]
    exact collected_permits live flying
  · intro calm id known open' idle
    rw [effect.terminal] at open'
    have outside : id ≠ finished.step_id ∧ id ∉ exec.terminal := by
      simpa [Execution.recordFailure,Execution.collectFinished,not_or] using fun member => open' (Or.inl member)
    have idle : id ∉ exec.running := by
      intro member
      rw [effect.running] at idle
      exact idle (Finset.mem_erase.mpr ⟨outside.1,member⟩)
    rw [statusNext id (fun fresh => open' (Or.inr fresh)) fun same => outside.1 same.symm]
    exact live.pending (aborts ▸ calm) id known outside.2 idle
  · intro aborting id known
    rw [effect.running]
    by_cases fresh : id ∈ skipped
    · exact .inr ⟨.Skipped,skippedNow id fresh,rfl⟩
    · by_cases same : finished.step_id = id
      · exact .inr ⟨.Failed,same ▸ failedNow,rfl⟩
      · rcases live.swept (aborts ▸ aborting) id known with member | ⟨status,was,final⟩
        · exact .inl (Finset.mem_erase.mpr ⟨fun equal => same equal.symm,member⟩)
        · exact .inr ⟨status,(statusNext id fresh same).trans was,final⟩
  · intro aborting
    rcases live.cause (aborts ▸ aborting) with caller | ⟨id,member,why⟩
    · left
      rw [effect.cancelled]
      exact caller
    · refine .inr ⟨id,(effect.terminal id).mpr (Or.inl (Finset.mem_insert_of_mem member)),?_⟩
      rw [keptTerminal id member]
      exact why
  · intro id now policy'
    rw [aborts]
    by_cases fresh : id ∈ skipped
    · rw [skippedNow id fresh] at now
      simp at now
    · have other : finished.step_id ≠ id := by
        rintro rfl
        exact policy policy'
      rw [statusNext id fresh other] at now
      exact live.failed id now policy'
  · intro calm id now
    by_cases fresh : id ∈ skipped
    · exact ⟨finished.step_id,(effect.dependent id fresh).2,failedNow⟩
    · have other : finished.step_id ≠ id := by
        rintro rfl
        rw [failedNow] at now
        simp at now
      rw [statusNext id fresh other] at now
      obtain ⟨cause,needs,was⟩ := live.skipped (aborts ▸ calm) id now
      exact ⟨cause,needs,(keptTerminal cause (oldFailure (aborts ▸ calm) cause was)).trans was⟩
  · intro calm id now
    exact live.uncancelled (aborts ▸ calm) id (origin id .Cancelled (by simp) (by simp) now)
  · intro calm id member now child needs
    have blocked : ∀ other, next.status other ≠ some .Success → Needs plan child other →
        child ∉ next.completed ∧ child ∉ next.running := by
      intro other notSuccess needed
      constructor
      · intro completed
        exact notSuccess (soundNext.needs child other (Or.inl ((soundNext.completed child).mp completed)) needed)
      · intro runs
        exact notSuccess (soundNext.needs child other (Or.inr (soundNext.running child runs)) needed)
    obtain ⟨notCompleted,notRunning⟩ := blocked id now needs
    rw [effect.completed] at notCompleted
    rw [effect.running] at notRunning
    by_cases origin' : id = finished.step_id ∨ id ∈ skipped
    · rcases effect.closed id origin' child needs with completed | runs | ended
      · exact absurd completed notCompleted
      · exact absurd runs notRunning
      · exact ended
    · push Not at origin'
      have old : id ∈ exec.terminal := by
        rcases (effect.terminal id).mp member with before | fresh
        · exact (Finset.mem_insert.mp before).resolve_left origin'.1
        · exact absurd fresh origin'.2
      rw [keptTerminal id old] at now
      exact (effect.terminal child).mpr
        (Or.inl (Finset.mem_insert_of_mem (live.closed (aborts ▸ calm) id old now child needs)))
  · intro _
    exact .inr ⟨_,failedNow⟩


theorem sound_settled :
    Sound plan ((exec.failed finished run_ids output outputs error cancelled).settleFailure plan validated finished.step_id cancelled) := by
  have failed := sound_failed sound flying run_ids output outputs error cancelled
  by_cases policy : cancelled = true ∨ onErrorOf plan finished.step_id = .Abort
  · rw [settleFailure_abort validated _ policy]
    apply (failed.flags true _ _ _).sweep
    cases cancelled
    · exact .inl rfl
    · exact .inr rfl
  · push Not at policy
    have no : cancelled = false := by simpa using policy.1
    subst no
    exact failed.skip (settleFailure_continue valid _ policy.2)

theorem sound_completeStep (outcome : JournalWrite) :
    Sound plan (exec.completeStep plan validated finished outcome) := by
  unfold Execution.completeStep
  cases result : finished.result with
  | Succeeded run_ids output outputs =>
    refine (sound_succeeded sound flying run_ids output outputs).write outcome fun written => ?_
    exact (written.emit rfl).flags _ _ _ .LoopTop
  | Failed run_ids output outputs error cancelled =>
    refine (sound_settled sound flying run_ids output outputs error cancelled valid).write outcome fun written => ?_
    refine (written.emit ?_).flags _ _ _ .LoopTop
    cases cancelled <;> rfl

theorem live_completeStep (live : Live plan exec) (outcome : JournalWrite)
    (going : (exec.completeStep plan validated finished outcome).phase.live = true) :
    Live plan (exec.completeStep plan validated finished outcome) := by
  unfold Execution.completeStep at going ⊢
  cases result : finished.result with
  | Succeeded run_ids output outputs =>
    simp only [result] at going ⊢
    cases outcome with
    | NotWritten replaced => cases going
    | Written => exact (coherent_succeeded sound flying run_ids output outputs live).at_top.observe _ _
  | Failed run_ids output outputs error cancelled =>
    simp only [result] at going ⊢
    have coherent : Coherent plan ((exec.failed finished run_ids output outputs error cancelled).settleFailure plan validated finished.step_id cancelled) := by
      by_cases policy : cancelled = true ∨ onErrorOf plan finished.step_id = .Abort
      · exact coherent_aborted sound flying run_ids output outputs error cancelled live policy
      · push Not at policy
        have no : cancelled = false := by simpa using policy.1
        subst no
        exact coherent_continued sound flying run_ids output outputs error valid live policy.2
    cases outcome with
    | NotWritten replaced => cases going
    | Written => exact coherent.at_top.observe _ _

end
end

/-! ### Transitions -/

theorem Sound.stamp (sound : Sound plan exec) (status : WorkflowRunStatus) : Sound plan (exec.stamp status) :=
  ⟨sound.known,sound.completed,sound.subset,sound.terminal,sound.running,sound.futures,sound.flight,sound.needs,
    sound.capacity,sound.once,sound.begun,sound.file⟩

theorem sound_finishRun (sound : Sound plan exec) (outcome : JournalWrite) : Sound plan (exec.finishRun outcome) := by
  have swept : Sound plan exec.finalSweep := by
    unfold Execution.finalSweep
    split_ifs
    · exact sound.sweep (.inr rfl) _
    · exact sound
  exact (swept.stamp _).write outcome fun written => written.flags _ _ _ .Returned

theorem sound_loopTop (sound : Sound plan exec) : Sound plan (exec.loopTop validated) := by
  have noticed : Sound plan exec.noticeCancel := by
    unfold Execution.noticeCancel
    split_ifs
    · exact (sound.flags true true exec.cancelled exec.phase).sweep (.inr rfl) _
    · exact sound
  unfold Execution.loopTop
  dsimp only
  split_ifs
  · exact noticed.flags _ _ _ _
  · exact noticed.flags _ _ _ _

/-- The invariants of every state of an execution. -/
structure Invariant (plan : WorkflowPlan) (exec : Execution) : Prop where
  sound : Sound plan exec
  live : exec.phase.live = true → Live plan exec
  calm : exec.phase ≠ .Panicked

theorem startStep_not_panicked (valid : ValidFor plan validated) (sound : Sound plan exec) (live : Live plan exec)
    (starting : exec.phase = .Starting (step_id :: rest))
    (provisioned : List JournalWorktree) (outcome : JournalWrite) :
    (exec.startStep plan validated step_id rest provisioned outcome).phase ≠ .Panicked := by
  rcases startStep_cases valid sound live starting provisioned outcome with ⟨_,equal⟩ | ⟨error,equal⟩ | ⟨step,rfl,equal⟩
  · rw [equal]; simp
  · rw [equal]; simp
  · rw [equal]
    cases outcome <;> simp [Execution.write]

theorem completeStep_phase (exec : Execution) (finished : FinishedStep) (outcome : JournalWrite) :
    (exec.completeStep plan validated finished outcome).phase = .LoopTop ∨
      (exec.completeStep plan validated finished outcome).phase = .Errored .WriteJournal := by
  unfold Execution.completeStep
  cases finished.result <;> cases outcome <;> simp [Execution.write]

/-- The transitions of an execution. -/
inductive Stepped (plan : WorkflowPlan) (validated : ValidatedWorkflow β) (exec : Execution) : Input → Execution → Prop
  | cancel : Stepped plan validated exec .Cancel { exec with cancelled := true }
  | top (provisioned outcome) (phase : exec.phase = .LoopTop) :
    Stepped plan validated exec (.Advance provisioned outcome) (exec.loopTop validated)
  | start (provisioned outcome) {step_id : String} {rest : List String}
      (phase : exec.phase = .Starting (step_id :: rest)) :
    Stepped plan validated exec (.Advance provisioned outcome)
      (exec.startStep plan validated step_id rest provisioned outcome)
  | started (provisioned outcome) (phase : exec.phase = .Starting []) :
    Stepped plan validated exec (.Advance provisioned outcome)
      { exec with phase := if exec.running = ∅ then .Finishing else .Waiting }
  | idle (provisioned outcome) (phase : exec.phase = .Waiting) (empty : exec.futures = []) :
    Stepped plan validated exec (.Advance provisioned outcome) { exec with phase := .Finishing }
  | finish (provisioned outcome) (phase : exec.phase = .Finishing) :
    Stepped plan validated exec (.Advance provisioned outcome) (exec.finishRun outcome)
  | complete (finished outcome) (phase : exec.phase = .Waiting) (flying : finished.step_id ∈ exec.futures) :
    Stepped plan validated exec (.Finish finished outcome) (exec.completeStep plan validated finished outcome)

theorem step_cases {input : Input} {next : Execution} (stepped : exec.step plan validated input = some next) :
    Stepped plan validated exec input next := by
  cases input with
  | Cancel => cases stepped; exact .cancel
  | Advance provisioned outcome =>
    simp only [Execution.step] at stepped
    split at stepped
    case h_4 => split_ifs at stepped with empty; cases stepped; exact .idle _ _ ‹_› empty
    all_goals cases stepped
    · exact .top _ _ ‹_›
    · exact .start _ _ ‹_›
    · exact .started _ _ ‹_›
    · exact .finish _ _ ‹_›
  | Finish finished outcome =>
    simp only [Execution.step] at stepped
    split_ifs at stepped with possible
    cases stepped
    exact .complete _ _ possible.1 possible.2

/-- One transition. -/
theorem step_invariant (valid : ValidFor plan validated) (inv : Invariant plan exec) {input : Input} {next : Execution}
    (stepped : exec.step plan validated input = some next) : Invariant plan next := by
  cases step_cases stepped with
  | cancel => exact ⟨inv.sound.flags _ _ true _,fun going => (inv.live going).cancel,inv.calm⟩
  | top _ _ top =>
    have live := inv.live (by rw [top]; rfl)
    refine ⟨sound_loopTop inv.sound,fun _ => live_loopTop valid inv.sound live,?_⟩
    unfold Execution.loopTop
    dsimp only
    split_ifs <;> simp
  | start provisioned outcome starting =>
    have live := inv.live (by rw [starting]; rfl)
    exact ⟨sound_startStep valid inv.sound live starting provisioned outcome,
      live_startStep valid inv.sound live starting provisioned outcome,
      startStep_not_panicked valid inv.sound live starting provisioned outcome⟩
  | started _ _ starting =>
    have live := inv.live (by rw [starting]; rfl)
    refine ⟨inv.sound.flags _ _ _ _,fun _ => ?_,by simp only; split_ifs <;> simp⟩
    refine live.toCoherent.live ?_ ?_ ?_ ?_
    · intro ready equal
      split_ifs at equal
    · intro _ calm empty
      exact live.idle (Or.inl starting) calm empty
    · intro waiting empty
      rw [if_pos empty] at waiting
      cases waiting
    · intro finishing
      by_contra busy
      rw [if_neg busy] at finishing
      cases finishing
  | idle _ _ waiting empty =>
    have live := inv.live (by rw [waiting]; rfl)
    exfalso
    obtain ⟨id,member⟩ := Finset.nonempty_iff_ne_empty.mpr (live.waiting waiting)
    have := (inv.sound.flight id).mpr member
    rw [empty] at this
    simp at this
  | finish _ outcome =>
    refine ⟨sound_finishRun inv.sound outcome,fun going => ?_,?_⟩
    · cases outcome <;> cases going
    · cases outcome <;> simp [Execution.finishRun,Execution.write]
  | complete finished outcome waiting flying =>
    have live := inv.live (by rw [waiting]; rfl)
    refine ⟨sound_completeStep inv.sound flying valid outcome,live_completeStep inv.sound flying valid live outcome,?_⟩
    rcases completeStep_phase exec finished outcome with phase | phase <;> rw [phase] <;> simp

/-- What every transition keeps holds at the end of every run. -/
theorem run_induct (holds : Execution → Prop)
    (preserved : ∀ exec input next, holds exec → exec.step plan validated input = some next → holds next) :
    ∀ (inputs : List Input) (exec final : Execution), holds exec → exec.run plan validated inputs = some final →
      holds final := by
  intro inputs
  induction inputs with
  | nil =>
    intro exec final first ran
    simp only [Execution.run,List.foldlM_nil,Option.pure_def,Option.some.injEq] at ran
    exact ran ▸ first
  | cons input rest ih =>
    intro exec final first ran
    simp only [Execution.run,List.foldlM_cons,Option.bind_eq_bind,Option.bind_eq_some_iff] at ran
    obtain ⟨next,stepped,ran⟩ := ran
    exact ih next final (preserved exec input next first stepped) ran

theorem run_snoc (plan : WorkflowPlan) (validated : ValidatedWorkflow β) (exec : Execution) (inputs : List Input)
    (input : Input) : exec.run plan validated (inputs ++ [input]) =
      (exec.run plan validated inputs).bind fun last => last.step plan validated input := by
  simp [Execution.run,List.foldlM_append]

theorem run_invariant (valid : ValidFor plan validated) {inputs : List Input} {final : Execution}
    (start : Invariant plan exec) (ran : exec.run plan validated inputs = some final) : Invariant plan final :=
  run_induct (Invariant plan) (fun _ _ _ inv stepped => step_invariant valid inv stepped) inputs exec final start ran

end Vyane.Workflows
