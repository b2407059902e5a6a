import Vyane.WorkflowScheduling

/-!
Where an execution is going: what has succeeded is not lost, a caller that cancels stops the starts, and the loop ends.
-/
namespace Vyane.Workflows
open Execution
variable {β : Type} {plan : WorkflowPlan} {validated : ValidatedWorkflow β} {exec next : Execution} {input : Input}
  {inputs later : List Input}

/-! ### One transition -/

/-- How far a round of the loop still has to go. -/
def Phase.rank : Phase → Nat
  | .LoopTop => 5
  | .Starting (_ :: _) => 4
  | .Starting [] => 3
  | .Waiting => 2
  | .Finishing => 1
  | .Returned | .Errored _ | .Panicked => 0
theorem Phase.rank_le (phase : Phase) : phase.rank ≤ 5 := by
  unfold Phase.rank
  split <;> decide
def Execution.unstarted (plan : WorkflowPlan) (exec : Execution) : Finset String :=
  plan.ids.toFinset \ (exec.terminal ∪ exec.running)
/-- More than the transitions that are left. A start takes five of it and gives four to the finish. -/
def Execution.left (plan : WorkflowPlan) (exec : Execution) : Nat :=
  5 * (exec.unstarted plan).card + 4 * exec.futures.length + exec.phase.rank
/-- The caller may cancel as often as it likes. -/
def Input.cost : Input → Nat
  | .Cancel => 0
  | .Advance .. | .Finish .. => 1

/-- What a transition does to the sets, to the file and to the flag of the caller. -/
structure Course (plan : WorkflowPlan) (input : Input) (exec next : Execution) : Prop where
  completed : exec.completed ⊆ next.completed
  file : next.persisted = exec.persisted ∨ next.persisted = next.journal
  cancelled : exec.cancelled = true → next.cancelled = true
  left : next.left plan + input.cost ≤ exec.left plan

theorem unstarted_card_insert {id : String} (known : id ∈ plan.ids) (open' : id ∉ exec.terminal)
    (idle : id ∉ exec.running) :
    (({ exec with running := insert id exec.running } : Execution).unstarted plan).card + 1 =
    (exec.unstarted plan).card := by
  have member : id ∈ exec.unstarted plan := by simp [unstarted,known,open',idle]
  have erased : ({ exec with running := insert id exec.running } : Execution).unstarted plan =
    (exec.unstarted plan).erase id := by
    simp only [unstarted,Finset.union_insert,Finset.sdiff_insert]
  rw [erased,Finset.card_erase_add_one member]

/-- Where a state is written, the write fails or the transition goes on. -/
theorem Course.write {settled : Execution} {rest : Execution → Execution} (outcome : JournalWrite)
    (failed : Course plan input exec { settled with phase := .Errored .WriteJournal })
    (wentOn : Course plan input exec (rest { settled with persisted := settled.journal })) :
    Course plan input exec (settled.write outcome rest) := by
  cases outcome with
  | Written => exact wentOn
  | NotWritten replaced =>
    cases replaced with
    | false => exact failed
    | true => exact ⟨failed.completed,.inr rfl,failed.cancelled,failed.left⟩

/-- The file has the step as a success. -/
def Execution.Stored (exec : Execution) (id : String) : Prop := exec.persisted.statusOf id = some .Success

/-- The successes in the file are successes in memory. -/
def Execution.Filed (exec : Execution) : Prop := ∀ id, exec.Stored id → id ∈ exec.completed

theorem Course.filed (course : Course plan input exec next) (sound : Sound plan next) (filed : exec.Filed) :
    next.Filed ∧ ∀ id, exec.Stored id → next.Stored id := by
  unfold Execution.Filed Execution.Stored
  rcases course.file with same | same
  · rw [same]
    exact ⟨fun id stored => course.completed (filed id stored),fun id stored => stored⟩
  · rw [same]
    exact ⟨fun id => (sound.completed id).mpr,fun id stored =>
      (sound.completed id).mp (course.completed (filed id stored))⟩

section
variable (valid : ValidFor plan validated)
include valid

/-- What a failed step leaves alone. -/
theorem settled_frame (exec : Execution) (step_id : String) (cancelled : Bool) :
    ∃ settled, exec.settleFailure plan validated step_id cancelled = settled ∧ settled.completed = exec.completed ∧
      settled.persisted = exec.persisted ∧ settled.cancelled = exec.cancelled ∧ settled.running = exec.running ∧
      settled.futures = exec.futures ∧ exec.terminal ⊆ settled.terminal := by
  refine ⟨_,rfl,?_⟩
  by_cases policy : cancelled = true ∨ onErrorOf plan step_id = .Abort
  · rw [settleFailure_abort validated _ policy]
    exact ⟨rfl,rfl,rfl,rfl,rfl,subset_rfl⟩
  · push Not at policy
    obtain rfl : cancelled = false := by simpa using policy.1
    have effect := settleFailure_continue valid exec policy.2
    exact ⟨effect.completed,effect.persisted,effect.cancelled,effect.running,effect.futures,
      fun id member => (effect.terminal id).mpr (.inl member)⟩

theorem complete_course {finished : FinishedStep} {outcome : JournalWrite} (waiting : exec.phase = .Waiting)
    (flying : finished.step_id ∈ exec.futures) :
    Course plan (.Finish finished outcome) exec (exec.completeStep plan validated finished outcome) := by
  -- the finished step goes from the running ones to the terminal ones, and there is one future less
  have left (next : Execution) (running : next.running = exec.running.erase finished.step_id)
      (futures : next.futures = exec.futures.erase finished.step_id)
        (more : insert finished.step_id exec.terminal ⊆ next.terminal) :
      next.left plan + 1 ≤ exec.left plan := by
    have fewer : (next.unstarted plan).card ≤ (exec.unstarted plan).card := by
      refine Finset.card_le_card (Finset.sdiff_subset_sdiff subset_rfl fun id member => ?_)
      have := @more id
      rw [running]
      by_cases same : id = finished.step_id <;> simp_all
      tauto
    have someFuture := List.length_pos_of_mem flying
    have waits : exec.phase.rank = 2 := by rw [waiting]; rfl
    have low := next.phase.rank_le
    simp only [left,futures,List.length_erase_of_mem flying,waits]
    omega
  unfold completeStep
  cases finished.result with
  | Succeeded run_ids output outputs =>
    have more := Finset.subset_insert finished.step_id exec.completed
    have same := subset_refl (insert finished.step_id exec.terminal)
    exact .write outcome ⟨more,.inl rfl,id,left _ rfl rfl same⟩ ⟨more,.inr rfl,id,left _ rfl rfl same⟩
  | Failed run_ids output outputs error cancelled =>
    obtain ⟨settled,same,completed,file,flag,running,futures,terminal⟩ :=
      settled_frame valid (exec.failed finished run_ids output outputs error cancelled) finished.step_id cancelled
    simp only
    rw [same]
    exact .write outcome ⟨completed.superset,.inl file,flag.trans,left _ running futures terminal⟩
      ⟨completed.superset,.inr rfl,flag.trans,left _ running futures terminal⟩

theorem step_course (inv : Invariant plan exec) (stepped : exec.step plan validated input = some next) :
    Course plan input exec next := by
  have noneLost : exec.completed ⊆ exec.completed := subset_rfl
  have left {rank : Nat} (lower : rank + 1 ≤ exec.phase.rank) :=
    Nat.add_le_add_left lower (5 * (exec.unstarted plan).card + 4 * exec.futures.length)
  cases step_cases stepped with
  | cancel => exact ⟨noneLost,.inl rfl,fun _ => rfl,Nat.le_refl _⟩
  | top _ _ top =>
    have lower (ready : List String) : (Phase.Starting ready).rank + 1 ≤ exec.phase.rank := by
      rw [top]
      cases ready <;> simp [Phase.rank]
    unfold Execution.loopTop Execution.noticeCancel
    dsimp only
    split_ifs <;> exact ⟨noneLost,.inl rfl,id,left (lower _)⟩
  | @start provisioned outcome step_id rest starting =>
    have live := inv.live (by rw [starting]; rfl)
    obtain ⟨_,known,open',idle,_⟩ := queued_state inv.sound live starting
    have rank : exec.phase.rank = 4 := by rw [starting]; rfl
    rcases startStep_cases valid inv.sound live starting provisioned outcome
      with ⟨_,equal⟩ | ⟨error,equal⟩ | ⟨step,rfl,equal⟩
    · rw [equal]
      exact ⟨noneLost,.inl rfl,id,left (show 3 + 1 ≤ _ by omega)⟩
    · rw [equal]
      exact ⟨noneLost,.inl rfl,id,left (show 0 + 1 ≤ _ by omega)⟩
    · rw [equal]
      refine .write outcome ⟨noneLost,.inl rfl,id,left (show 0 + 1 ≤ _ by omega)⟩ ⟨noneLost,.inr rfl,id,?_⟩
      have fewer := unstarted_card_insert known open' idle
      have low : (Phase.Starting rest).rank ≤ 4 := by cases rest <;> simp [Phase.rank]
      simp only [Execution.left,Execution.unstarted,List.length_append,List.length_singleton,Input.cost] at *
      omega
  | started _ _ starting =>
    have lower : (if exec.running = ∅ then Phase.Finishing else Phase.Waiting).rank + 1 ≤ exec.phase.rank := by
      rw [starting]
      split_ifs <;> decide
    exact ⟨noneLost,.inl rfl,id,left lower⟩
  | idle _ _ waiting => exact ⟨noneLost,.inl rfl,id,left (show 1 + 1 ≤ _ by rw [waiting]; decide)⟩
  | finish _ outcome finishing =>
    have lower : 0 + 1 ≤ exec.phase.rank := by rw [finishing]; decide
    unfold Execution.finishRun Execution.finalSweep
    split_ifs <;> exact .write outcome ⟨noneLost,.inl rfl,id,left lower⟩ ⟨noneLost,.inr rfl,id,left lower⟩
  | complete finished outcome waiting flying => exact complete_course valid waiting flying

/-- Nothing is started for a caller that has cancelled. -/
theorem cancelled_step_quiet (inv : Invariant plan exec) (stepped : exec.step plan validated input = some next)
    (caller : exec.cancelled = true) : Quiet exec next := by
  rcases step_starts valid inv stepped with quiet | ⟨id,rest,starting,-⟩
  · exact quiet
  · cases step_cases stepped with
    | cancel => exact (quiet_rule plan).same (fun _ => rfl) rfl
    | start provisioned outcome =>
      simp only [startStep,caller,↓reduceIte]
      exact ((quiet_rule plan).cancel_pending exec).trans ((quiet_rule plan).same (fun _ => rfl) rfl)
    | top _ _ phase | started _ _ phase | idle _ _ phase | finish _ _ phase | complete _ _ phase =>
        rw [phase] at starting; cases starting

/-! ### Runs -/

theorem run_filed (inv : Invariant plan exec) (filed : exec.Filed) (ran : exec.run plan validated inputs = some next) :
    (Invariant plan next ∧ next.Filed) ∧ ∀ id, exec.Stored id → next.Stored id := by
  refine run_induct (fun next => (Invariant plan next ∧ next.Filed) ∧ ∀ id, exec.Stored id → next.Stored id)
    (fun middle input next holds stepped => ?_) inputs _ _ ⟨⟨inv,filed⟩,fun _ => id⟩ ran
  have after := step_invariant valid holds.1.1 stepped
  obtain ⟨filed,kept⟩ := (step_course valid holds.1.1 stepped).filed after.sound holds.1.2
  exact ⟨⟨after,filed⟩,fun id stored => kept id (holds.2 id stored)⟩

theorem run_left (inv : Invariant plan exec) (ran : exec.run plan validated inputs = some next) :
    next.left plan + (inputs.map Input.cost).sum ≤ exec.left plan := by
  induction inputs generalizing exec with
  | nil => exact Option.some.inj ran ▸ Nat.le_refl _
  | cons input rest ih =>
    obtain ⟨middle,stepped,ran⟩ := Option.bind_eq_some_iff.mp ran
    have one := (step_course valid inv stepped).left
    have more := ih (step_invariant valid inv stepped) ran
    rw [List.map_cons,List.sum_cons]
    omega

end

section
variable {digests : PlanDigests} {resolver : TargetResolver β} {journal : WorkflowJournal}
  (accepted : validate_plan digests plan journal.vars resolver = .ok validated)
    (admissible : Admissible digests plan journal)
  (ran : (start plan journal).run plan validated inputs = some exec)
include accepted admissible ran
/-- A success that has reached the journal file is there for good: no later transition, failed write or cancellation
    takes it back, wherever the execution stops and is resumed. -/
theorem success_is_durable (wentOn : exec.run plan validated later = some next) {id : String}
    (stored : exec.persisted.statusOf id = some .Success) :
    next.persisted.statusOf id = some .Success ∧ next.status id = some .Success ∧
      (resetForResume plan next.persisted).statusOf id = some .Success := by
  have valid := validate_plan_ok accepted
  have start := start_invariant valid.concurrency (startable_of_admissible admissible)
  obtain ⟨⟨inv,filed⟩,_⟩ := run_filed valid start (fun id => (start.sound.completed id).mpr) ran
  obtain ⟨⟨inv,filed⟩,kept⟩ := run_filed valid inv filed wentOn
  have there : next.persisted.statusOf id = _ := kept id stored
  refine ⟨there,(inv.sound.completed id).mp (filed id there),?_⟩
  rw [status_resetForResume inv.sound.file,there]
  rfl

/-- Once the caller has cancelled, no step is started any more; a start that is past its look at the token came
    before. -/
theorem cancelled_execution_starts_nothing (caller : exec.cancelled = true) (id : String) :
    startsIn plan validated id exec later = 0 := by
  have valid := validate_plan_ok accepted
  have inv := run_invariant valid (start_invariant valid.concurrency (startable_of_admissible admissible)) ran
  clear ran
  induction later generalizing exec with
  | nil => rfl
  | cons input rest ih =>
    rw [startsIn]
    cases stepped : exec.step plan validated input with
    | none => rfl
    | some next =>
      have still := (step_course valid inv stepped).cancelled caller
      simp only [(cancelled_step_quiet valid inv stepped caller).not_starts,↓reduceIte,Nat.zero_add]
      exact ih still (step_invariant valid inv stepped)

/-- The loop ends: apart from cancellations a run has a bounded number of transitions, and until `execute` has returned
    there is one, where it waits the end of a step in flight. -/
theorem execution_ends : (inputs.map Input.cost).sum ≤ 5 * plan.steps.length + 5 ∧ (exec.phase.live = true →
    (∃ step_id ∈ exec.futures, ∀ finished outcome, finished.step_id = step_id →
        (exec.step plan validated (.Finish finished outcome)).isSome = true) ∨
      ∀ provisioned outcome, (exec.step plan validated (.Advance provisioned outcome)).isSome = true) := by
  have valid := validate_plan_ok accepted
  have start := start_invariant valid.concurrency (startable_of_admissible admissible)
  have inv := run_invariant valid start ran
  constructor
  · have spent := run_left valid start ran
    have few : ((Execution.start plan journal).unstarted plan).card ≤ plan.steps.length := by
      refine (Finset.card_le_card Finset.sdiff_subset).trans ((List.toFinset_card_le _).trans ?_)
      simp [WorkflowPlan.ids]
    simp only [Execution.left,Execution.start,List.length_nil,Phase.rank] at *
    omega
  · intro going
    have live := inv.live going
    cases phase : exec.phase with
    | Waiting =>
      obtain ⟨id,member⟩ := Finset.nonempty_iff_ne_empty.mpr (live.waiting phase)
      have flying := (inv.sound.flight id).mpr member
      refine .inl ⟨id,flying,fun finished outcome same => ?_⟩
      simp [Execution.step,phase,same,flying]
    | LoopTop | Finishing => exact .inr fun _ _ => by simp [Execution.step,phase]
    | Starting ready => exact .inr fun _ _ => by cases ready <;> simp [Execution.step,phase]
    | Returned | Errored _ | Panicked => rw [phase] at going; cases going

end

/-- The success of `a` is in the file when the caller cancels and `b` fails. -/
theorem first_success_survives_cancel : ∃ next,
    (sampleRun (bothStarted ++ [succeed "a"])).run samplePlan sampleValidated
    [.Cancel,goOn,goOn,fail "b" true] = some next ∧
      next.persisted.statusOf "a" = some .Success := by
  obtain ⟨next,wentOn⟩ :=
    Option.isSome_iff_exists.mp (show ((sampleRun (bothStarted ++ [succeed "a"])).run samplePlan sampleValidated
    [.Cancel,goOn,goOn,fail "b" true]).isSome = true by decide +kernel)
  exact ⟨next,wentOn,(success_is_durable sample_accepted sample_admissible (sampleRun_runs _ (by decide +kernel)) wentOn
    (by decide +kernel)).1⟩

theorem third_never_starts_after_cancel :
    startsIn samplePlan sampleValidated "c" (sampleRun (bothStarted ++ [succeed "a",.Cancel])) [goOn,goOn,goOn] = 0 :=
  cancelled_execution_starts_nothing sample_accepted sample_admissible (sampleRun_runs _ (by decide +kernel))
    (by decide +kernel) "c"
theorem sample_ends : ((bothStarted ++ [succeed "a",goOn]).map Input.cost).sum ≤ 20 :=
  (execution_ends sample_accepted sample_admissible (sampleRun_runs _ (by decide +kernel))).1

end Vyane.Workflows
