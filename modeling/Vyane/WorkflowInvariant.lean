import Vyane.WorkflowEffects

/-!
What ties the sets in memory, the journal, the permits and the events together. `Sound` holds at all times, also after
an error; `Live` holds as long as the loop goes on.
-/
namespace Vyane.Workflows
open Std Graphs List
variable {β : Type}

/-- The ids of the steps that were started, in order. -/
def startedIds (events : List StepEvent) : List String :=
  events.filterMap fun event => match event with
    | .Started step_id => some step_id
    | _ => none

@[simp] theorem startedIds_append (first second : List StepEvent) :
    startedIds (first ++ second) = startedIds first ++ startedIds second := filterMap_append

private theorem nodup_snoc {list : List String} {id : String} (distinct : list.Nodup) (fresh : id ∉ list) :
    (list ++ [id]).Nodup := by
  rw [← concat_eq_append]
  exact List.Nodup.concat fresh distinct

/-- A journal of the plan in which every successful step has successful needs. -/
structure Closed (plan : WorkflowPlan) (journal : WorkflowJournal) : Prop where
  known : ∀ id, id ∈ plan.ids ↔ ∃ status, journal.statusOf id = some status
  needs : ∀ id need, journal.statusOf id = some .Success → Needs plan id need → journal.statusOf need = some .Success

structure Sound (plan : WorkflowPlan) (exec : Execution) : Prop where
  known : ∀ id, id ∈ plan.ids ↔ ∃ status, exec.status id = some status
  completed : ∀ id, id ∈ exec.completed ↔ exec.status id = some .Success
  subset : ∀ id ∈ exec.completed, id ∈ exec.terminal
  terminal : ∀ id ∈ exec.terminal, ∃ status, exec.status id = some status ∧ status.is_terminal = true
  running : ∀ id ∈ exec.running, exec.status id = some .Running
  futures : exec.futures.Nodup
  flight : ∀ id, id ∈ exec.futures ↔ id ∈ exec.running
  needs : ∀ id need, exec.status id = some .Success ∨ exec.status id = some .Running → Needs plan id need →
    exec.status need = some .Success
  capacity : exec.permits + exec.futures.length ≤ plan.max_concurrency.toNat
  once : (startedIds exec.events).Nodup
  begun : ∀ id ∈ startedIds exec.events, exec.status id ≠ some .Pending
  file : Closed plan exec.persisted

section
variable {plan : WorkflowPlan} {exec : Execution}

section
variable (sound : Sound plan exec)
include sound
theorem Sound.closed : Closed plan exec.journal :=
  ⟨sound.known,fun id need success => sound.needs id need (Or.inl success)⟩

/-- The flags and the phase are not part of it. -/
theorem Sound.flags (aborting had_failures cancelled : Bool) (phase : Phase) :
    Sound plan
      { exec with aborting := aborting, had_failures := had_failures, cancelled := cancelled, phase := phase } :=
  ⟨sound.known,sound.completed,sound.subset,sound.terminal,sound.running,sound.futures,sound.flight,sound.needs,
    sound.capacity,sound.once,sound.begun,sound.file⟩

theorem Sound.emit {event : StepEvent} (other : startedIds [event] = []) :
    Sound plan (exec.emit event) := by
  have same : startedIds (exec.emit event).events = startedIds exec.events := by simp [Execution.emit,other]
  exact ⟨sound.known,sound.completed,sound.subset,sound.terminal,sound.running,sound.futures,sound.flight,sound.needs,
    sound.capacity,by rw [same]; exact sound.once,by rw [same]; exact sound.begun,sound.file⟩

/-- A write that fails leaves either file behind; one that succeeds goes on. -/
theorem Sound.write (outcome : JournalWrite) {next : Execution → Execution}
    (preserved : Sound plan { exec with persisted := exec.journal } →
      Sound plan (next { exec with persisted := exec.journal })) :
    Sound plan (exec.write outcome next) := by
  have stored : ∀ replaced : Bool, Closed plan (if replaced then exec.journal else exec.persisted) := by
    intro replaced
    cases replaced
    · exact sound.file
    · exact sound.closed
  cases outcome with
  | Written =>
    exact preserved ⟨sound.known,sound.completed,sound.subset,sound.terminal,sound.running,sound.futures,
      sound.flight,sound.needs,sound.capacity,sound.once,sound.begun,sound.closed⟩
  | NotWritten replaced =>
    exact ⟨sound.known,sound.completed,sound.subset,sound.terminal,sound.running,sound.futures,
      sound.flight,sound.needs,sound.capacity,sound.once,sound.begun,stored replaced⟩

end

theorem startedIds_sweep (exec : Execution) (status : JournalStepStatus) (reason : String) :
    startedIds (exec.mark_unscheduled_terminal status reason).events = startedIds exec.events := by
  simp only [Execution.mark_unscheduled_terminal,startedIds_append]
  apply append_right_eq_self.mpr
  apply filterMap_eq_nil_iff.mpr
  intro event member
  obtain ⟨entry,_,emitted⟩ := mem_flatMap.mp member
  split_ifs at emitted
  · cases status <;> simp [sweepEvent] at emitted <;> subst emitted <;> rfl
  · simp at emitted

/-- The two statuses a sweep writes. -/
def SweepStatus (status : JournalStepStatus) : Prop := status = .Skipped ∨ status = .Cancelled

/-- After a sweep only swept steps changed, and none of them was successful. -/
theorem status_sweep_cases (exec : Execution) (status : JournalStepStatus) (reason id : String) :
    (exec.Unscheduled id ∧ (exec.mark_unscheduled_terminal status reason).status id = some status) ∨
      (¬ exec.Unscheduled id ∧ (exec.mark_unscheduled_terminal status reason).status id = exec.status id) := by
  by_cases swept : exec.Unscheduled id
  · exact Or.inl ⟨swept,status_sweep_of_unscheduled swept status reason⟩
  · exact Or.inr ⟨swept,status_sweep_of_scheduled swept status reason⟩

theorem sweep_success_iff {status : JournalStepStatus} (swept : SweepStatus status) (reason id : String) :
    (exec.mark_unscheduled_terminal status reason).status id = some .Success ↔ exec.status id = some .Success := by
  rcases status_sweep_cases exec status reason id with ⟨⟨old,was,other,_⟩,now⟩ | ⟨_,same⟩
  · rw [now,was]
    rcases swept with rfl | rfl <;> simp [other]
  · rw [same]

theorem Sound.sweep (sound : Sound plan exec) {status : JournalStepStatus} (swept : SweepStatus status)
    (reason : String) :
    Sound plan (exec.mark_unscheduled_terminal status reason) := by
  refine ⟨?_,?_,sound.subset,?_,?_,sound.futures,sound.flight,?_,sound.capacity,?_,?_,sound.file⟩
  · intro id
    rw [sound.known id]
    rcases status_sweep_cases exec status reason id with ⟨⟨old,was,_⟩,now⟩ | ⟨_,same⟩
    · simp [now,was]
    · rw [same]
  · intro id
    rw [sweep_success_iff swept]
    exact sound.completed id
  · intro id member
    have kept : id ∈ exec.terminal ∨ id ∈ exec.running := Or.inl member
    rw [status_sweep_of_mem kept]
    exact sound.terminal id member
  · intro id member
    have kept : id ∈ exec.terminal ∨ id ∈ exec.running := Or.inr member
    rw [status_sweep_of_mem kept]
    exact sound.running id member
  · intro id need state needed
    rw [sweep_success_iff swept]
    rcases status_sweep_cases exec status reason id with ⟨_,now⟩ | ⟨_,same⟩
    · rw [now] at state
      rcases swept with rfl | rfl <;> simp at state
    · exact sound.needs id need (same ▸ state) needed
  · rw [startedIds_sweep]
    exact sound.once
  · rw [startedIds_sweep]
    intro id member
    rcases status_sweep_cases exec status reason id with ⟨_,now⟩ | ⟨_,same⟩
    · rw [now]
      rcases swept with rfl | rfl <;> simp
    · rw [same]
      exact sound.begun id member

/-- The journal already shows the step running; it is not dispatched yet. -/
theorem status_begun {step : WorkflowPlanStep} (pending : exec.status step.id = some .Pending)
    (provisioned : List JournalWorktree) (id : String) :
    (markRunning exec.journal step provisioned).statusOf id = if step.id = id then some .Running
      else exec.status id := by
  rw [status_markRunning]
  split_ifs with same
  · subst same
    change (exec.status step.id).map _ = _
    rw [pending]; rfl
  · rfl

section
variable (sound : Sound plan exec)
include sound
theorem Sound.begin {step : WorkflowPlanStep} (pending : exec.status step.id = some .Pending)
    (ready : ∀ need, Needs plan step.id need → exec.status need = some .Success)
    (provisioned : List JournalWorktree) :
    Sound plan { exec with permits := exec.permits - 1, journal := markRunning exec.journal step provisioned } := by
  have statusEq := status_begun pending provisioned
  have success : ∀ id, (markRunning exec.journal step provisioned).statusOf id = some .Success ↔
      exec.status id = some .Success := by
    intro id
    rw [statusEq]
    split_ifs with same
    · rw [← same,pending]; simp
    · rfl
  have apart : ∀ id status, exec.status id = some status → status ≠ .Pending → step.id ≠ id := by
    intro id status was other same
    rw [← same,pending] at was
    exact other (Option.some.inj was).symm
  refine ⟨?_,?_,sound.subset,?_,?_,sound.futures,sound.flight,?_,?_,sound.once,?_,sound.file⟩
  · intro id
    rw [sound.known id]
    change _ ↔ ∃ status, (markRunning exec.journal step provisioned).statusOf id = some status
    rw [statusEq]
    split_ifs with same
    · simp [← same,pending]
    · rfl
  · intro id
    exact (sound.completed id).trans (success id).symm
  · intro id member
    obtain ⟨status,was,final⟩ := sound.terminal id member
    refine ⟨status,?_,final⟩
    change (markRunning exec.journal step provisioned).statusOf id = _
    rw [statusEq,if_neg (apart id status was fun equal => by simp [equal,JournalStepStatus.is_terminal] at final)]
    exact was
  · intro id member
    change (markRunning exec.journal step provisioned).statusOf id = _
    rw [statusEq]
    split_ifs with same
    · rfl
    · exact sound.running id member
  · intro id need state needed
    change (markRunning exec.journal step provisioned).statusOf id = _ ∨
      (markRunning exec.journal step provisioned).statusOf id = _ at state
    refine (success need).mpr ?_
    rw [statusEq] at state
    split_ifs at state with same
    · subst same
      exact ready need needed
    · exact sound.needs id need state needed
  · have bound := sound.capacity
    simp only
    omega
  · intro id member
    change (markRunning exec.journal step provisioned).statusOf id ≠ _
    rw [statusEq]
    split_ifs with same
    · simp
    · exact sound.begun id member

theorem Sound.dispatch {id : String} (state : exec.status id = some .Running)
    (idle : id ∉ exec.running) (fresh : id ∉ startedIds exec.events)
    (room : exec.permits + exec.futures.length < plan.max_concurrency.toNat) (phase : Phase) :
    Sound plan { exec with
      events := exec.events ++ [.Started id]
      running := insert id exec.running
      futures := exec.futures ++ [id]
      phase := phase } := by
  have started : startedIds (exec.events ++ [.Started id]) = startedIds exec.events ++ [id] := by
    simp [startedIds]
  have grounded : id ∉ exec.futures := fun member => idle ((sound.flight id).mp member)
  refine ⟨sound.known,sound.completed,sound.subset,sound.terminal,?_,?_,?_,sound.needs,?_,?_,?_,sound.file⟩
  · intro other member
    rcases Finset.mem_insert.mp member with rfl | old
    · exact state
    · exact sound.running other old
  · exact nodup_snoc sound.futures grounded
  · intro other
    simp only [mem_append,mem_singleton,Finset.mem_insert,sound.flight other]
    tauto
  · simp only [length_append,length_singleton]
    omega
  · simp only [started]
    exact nodup_snoc sound.once fresh
  · simp only [started]
    intro other member
    rcases mem_append.mp member with old | new
    · exact sound.begun other old
    · rw [mem_singleton.mp new]
      change exec.status id ≠ _
      rw [state]; simp

theorem Sound.collect {finished : FinishedStep} (flying : finished.step_id ∈ exec.futures) :
    Sound plan (exec.collectFinished finished) := by
  have statusEq := status_collectFinished exec finished
  refine ⟨?_,?_,sound.subset,?_,?_,?_,?_,?_,?_,sound.once,?_,sound.file⟩
  · intro id; rw [statusEq]; exact sound.known id
  · intro id; rw [statusEq]; exact sound.completed id
  · intro id member; rw [statusEq]; exact sound.terminal id member
  · intro id member
    rw [statusEq]
    exact sound.running id (Finset.mem_of_mem_erase member)
  · exact sound.futures.erase _
  · intro id
    simp only [Execution.collectFinished,sound.futures.mem_erase_iff,Finset.mem_erase,sound.flight id]
  · intro id need
    rw [statusEq,statusEq]
    exact sound.needs id need
  · have bound := sound.capacity
    have positive := length_pos_of_mem flying
    simp only [Execution.collectFinished,length_erase_of_mem flying]
    omega
  · intro id member; rw [statusEq]; exact sound.begun id member

/-- A running step gets a final status that the sets in memory agree with. -/
theorem Sound.record {next : Execution} (step_id : String) (status : JournalStepStatus)
    (running : exec.status step_id = some .Running) (grounded : step_id ∉ exec.running)
    (final : status.is_terminal = true)
    (statusEq : ∀ id, next.status id = if step_id = id then some status else exec.status id)
    (completed : ∀ id, id ∈ next.completed ↔ id ∈ exec.completed ∨ (status = .Success ∧ id = step_id))
    (terminal : next.terminal = insert step_id exec.terminal) (sameRunning : next.running = exec.running)
    (futures : next.futures = exec.futures) (permits : next.permits = exec.permits) (events : next.events = exec.events)
    (persisted : next.persisted = exec.persisted) : Sound plan next := by
  have needed : ∀ id, (exec.status id = some .Success ∨ exec.status id = some .Running) →
      ¬ Needs plan id step_id := by
    intro id state needs
    have := sound.needs id step_id state needs
    rw [running] at this
    simp at this
  refine ⟨?_,?_,?_,?_,?_,?_,?_,?_,?_,?_,?_,?_⟩
  · intro id
    rw [sound.known id,statusEq]
    split_ifs with same
    · simp [← same,running]
    · rfl
  · intro id
    rw [completed,sound.completed id,statusEq]
    split_ifs with same
    · subst same
      simp [running]
    · have other : id ≠ step_id := fun equal => same equal.symm
      simp [other]
  · intro id member
    rw [terminal,Finset.mem_insert]
    rcases (completed id).mp member with old | ⟨_,rfl⟩
    · exact Or.inr (sound.subset id old)
    · exact Or.inl rfl
  · intro id member
    rw [terminal,Finset.mem_insert] at member
    rw [statusEq]
    split_ifs with same
    · exact ⟨status,rfl,final⟩
    · exact sound.terminal id (member.resolve_left fun equal => same equal.symm)
  · intro id member
    rw [sameRunning] at member
    rw [statusEq,if_neg fun same : step_id = id => grounded (same ▸ member)]
    exact sound.running id member
  · rw [futures]; exact sound.futures
  · intro id; rw [futures,sameRunning]; exact sound.flight id
  · intro id need state needs
    rw [statusEq]
    by_cases same : step_id = id
    · subst same
      have was := sound.needs _ need (Or.inr running) needs
      split_ifs with equal
      · rw [← equal,running] at was; simp at was
      · exact was
    · rw [statusEq,if_neg same] at state
      rw [if_neg fun equal : step_id = need => needed id state (equal ▸ needs)]
      exact sound.needs id need state needs
  · rw [permits,futures]; exact sound.capacity
  · rw [events]; exact sound.once
  · intro id member
    rw [events] at member
    rw [statusEq]
    split_ifs with same
    · intro equal
      simp only [Option.some.injEq] at equal
      rw [equal] at final
      simp [JournalStepStatus.is_terminal] at final
    · exact sound.begun id member
  · rw [persisted]; exact sound.file

theorem Sound.skip {next : Execution} {failed_id : String} {skipped : List String}
    (effect : SkipEffect plan failed_id exec next skipped) : Sound plan next := by
  have success : ∀ id, next.status id = some .Success ↔ exec.status id = some .Success := by
    intro id
    rw [effect.status]
    split_ifs with member
    · have open' := (effect.fresh id member).2.1
      rw [sound.completed] at open'
      constructor
      · intro now
        obtain ⟨_,_,equal⟩ := Option.map_eq_some_iff.mp now
        cases equal
      · exact fun was => absurd was open'
    · rfl
  have started : startedIds next.events = startedIds exec.events := by
    rw [effect.events,startedIds_append]
    apply append_right_eq_self.mpr
    simp [startedIds]
  refine ⟨?_,?_,?_,?_,?_,?_,?_,?_,?_,?_,?_,?_⟩
  · intro id
    rw [sound.known id,effect.status]
    split_ifs with member
    · cases exec.status id <;> simp
    · rfl
  · intro id
    rw [effect.completed,success]
    exact sound.completed id
  · intro id member
    rw [effect.completed] at member
    exact (effect.terminal id).mpr (Or.inl (sound.subset id member))
  · intro id member
    rw [effect.status]
    by_cases fresh : id ∈ skipped
    · obtain ⟨status,was⟩ := (sound.known id).mp (effect.dependent id fresh).1
      exact ⟨.Skipped,by simp [fresh,was],rfl⟩
    · rw [if_neg fresh]
      exact sound.terminal id (((effect.terminal id).mp member).resolve_right fresh)
  · intro id member
    rw [effect.running] at member
    rw [effect.status,if_neg fun fresh : id ∈ skipped => (effect.fresh id fresh).2.2 member]
    exact sound.running id member
  · rw [effect.futures]; exact sound.futures
  · intro id; rw [effect.futures,effect.running]; exact sound.flight id
  · intro id need state needs
    rw [success]
    refine sound.needs id need ?_ needs
    rw [effect.status] at state
    split_ifs at state with member
    · obtain ⟨status,was⟩ := (sound.known id).mp (effect.dependent id member).1
      simp [was] at state
    · exact state
  · rw [effect.permits,effect.futures]; exact sound.capacity
  · rw [started]; exact sound.once
  · rw [started]
    intro id member
    rw [effect.status]
    split_ifs with fresh
    · intro now
      obtain ⟨_,_,equal⟩ := Option.map_eq_some_iff.mp now
      cases equal
    · exact sound.begun id member
  · rw [effect.persisted]; exact sound.file

end
end

/-! ### While the loop goes on -/

/-- The phases in which `execute` has not returned. -/
def Phase.live : Phase → Bool
  | .LoopTop | .Starting _ | .Waiting | .Finishing => true
  | .Returned | .Errored _ | .Panicked => false
/-- Why the loop aborts: the caller, or a step that ended so. -/
def AbortCause (plan : WorkflowPlan) (exec : Execution) : Prop :=
  exec.cancelled = true ∨ ∃ id ∈ exec.terminal,
    exec.status id = some .Cancelled ∨ (exec.status id = some .Failed ∧ onErrorOf plan id = .Abort)

/-- What does not depend on the phase. -/
structure Coherent (plan : WorkflowPlan) (exec : Execution) : Prop where
  permits : exec.permits + exec.futures.length = plan.max_concurrency.toNat
  pending : exec.aborting = false → ∀ id ∈ plan.ids, id ∉ exec.terminal → id ∉ exec.running →
    exec.status id = some .Pending
  swept : exec.aborting = true → ∀ id ∈ plan.ids, id ∈ exec.running ∨
    ∃ status, exec.status id = some status ∧ status.is_terminal = true
  cause : exec.aborting = true → AbortCause plan exec
  failed : ∀ id, exec.status id = some .Failed → onErrorOf plan id = .Abort → exec.aborting = true
  skipped : exec.aborting = false → ∀ id, exec.status id = some .Skipped →
    ∃ failed, TransitiveNeeds plan id failed ∧ exec.status failed = some .Failed
  uncancelled : exec.aborting = false → ∀ id, exec.status id ≠ some .Cancelled
  closed : exec.aborting = false → ∀ id ∈ exec.terminal, exec.status id ≠ some .Success →
    ∀ child, Needs plan child id → child ∈ exec.terminal
  failures : exec.had_failures = true → exec.aborting = true ∨ ∃ id, exec.status id = some .Failed

structure Live (plan : WorkflowPlan) (exec : Execution) : Prop extends Coherent plan exec where
  queue : ∀ ready, exec.phase = .Starting ready → ready.Nodup ∧ ready.length ≤ exec.permits ∧
    (ready ≠ [] → exec.aborting = false) ∧
    ∀ id ∈ ready, id ∈ plan.ids ∧ id ∉ exec.terminal ∧ id ∉ exec.running ∧
      ∀ need, Needs plan id need → need ∈ exec.completed
  idle : exec.phase = .Starting [] ∨ exec.phase = .Finishing → exec.aborting = false → exec.running = ∅ →
    ∀ id ∈ plan.ids, id ∉ exec.terminal → ∃ need, Needs plan id need ∧ need ∉ exec.completed
  waiting : exec.phase = .Waiting → exec.running ≠ ∅
  finishing : exec.phase = .Finishing → exec.running = ∅

section
variable {plan : WorkflowPlan} {exec : Execution}

/-- The phase matters only to what it promises. -/
theorem Coherent.live (coherent : Coherent plan exec) {phase : Phase}
    (queue : ∀ ready, phase = .Starting ready → ready.Nodup ∧ ready.length ≤ exec.permits ∧
      (ready ≠ [] → exec.aborting = false) ∧
      ∀ id ∈ ready, id ∈ plan.ids ∧ id ∉ exec.terminal ∧ id ∉ exec.running ∧
        ∀ need, Needs plan id need → need ∈ exec.completed)
    (idle : phase = .Starting [] ∨ phase = .Finishing → exec.aborting = false → exec.running = ∅ →
      ∀ id ∈ plan.ids, id ∉ exec.terminal → ∃ need, Needs plan id need ∧ need ∉ exec.completed)
    (waiting : phase = .Waiting → exec.running ≠ ∅) (finishing : phase = .Finishing → exec.running = ∅) :
    Live plan { exec with phase := phase } :=
  ⟨⟨coherent.permits,coherent.pending,coherent.swept,coherent.cause,coherent.failed,coherent.skipped,
    coherent.uncancelled,coherent.closed,coherent.failures⟩,queue,idle,waiting,finishing⟩

theorem Coherent.at_top (coherent : Coherent plan exec) : Live plan { exec with phase := .LoopTop } := by
  refine coherent.live ?_ ?_ ?_ ?_
  · intro ready starting; cases starting
  · rintro (starting | finishing)
    · cases starting
    · cases finishing
  · intro waiting; cases waiting
  · intro finishing; cases finishing

/-- Nothing is left to start, because the loop aborts. -/
theorem Coherent.at_abort (coherent : Coherent plan exec) (aborts : exec.aborting = true) :
    Live plan { exec with phase := .Starting [] } := by
  refine coherent.live ?_ ?_ ?_ ?_
  · intro ready starting
    injection starting with equal
    subst equal
    exact ⟨nodup_nil,by simp,by simp,by simp⟩
  · intro _ calm
    rw [aborts] at calm
    cases calm
  · intro waiting; cases waiting
  · intro finishing; cases finishing

/-- Neither the events nor the file matter to the loop. -/
theorem Live.observe (live : Live plan exec) (events : List StepEvent) (persisted : WorkflowJournal) :
    Live plan { exec with events := events, persisted := persisted } :=
  ⟨⟨live.permits,live.pending,live.swept,live.cause,live.failed,live.skipped,live.uncancelled,live.closed,
    live.failures⟩,live.queue,live.idle,live.waiting,live.finishing⟩

theorem Live.cancel (live : Live plan exec) : Live plan { exec with cancelled := true } :=
  ⟨⟨live.permits,live.pending,live.swept,fun _ => Or.inl rfl,live.failed,live.skipped,live.uncancelled,live.closed,
    live.failures⟩,live.queue,live.idle,live.waiting,live.finishing⟩

end
end Vyane.Workflows
