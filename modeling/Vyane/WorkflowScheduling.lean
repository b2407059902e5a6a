import Vyane.WorkflowRuns

/-!
Every journal the engine executes from starts an execution in which the invariants hold, and what the scheduler
therefore guarantees about the steps it starts.
-/
namespace Vyane.Workflows
open Std Graphs List Execution
set_option linter.unusedSimpArgs false
variable {β : Type} {plan : WorkflowPlan} {validated : ValidatedWorkflow β} {exec : Execution}
    {journal : WorkflowJournal}
  {next : Execution}

/-! ### Starting journals -/

/-- A journal from which an execution can begin. -/
structure Startable (plan : WorkflowPlan) (journal : WorkflowJournal) : Prop where
  closed : Closed plan journal
  fresh : ∀ id status, journal.statusOf id = some status → status = .Pending ∨ status = .Success

theorem mem_status_set (journal : WorkflowJournal) (test : JournalStepStatus → Bool) (id : String) :
    id ∈ ((journal.steps.toList.filter fun entry => test entry.2.status).map Prod.fst).toFinset ↔
      ∃ status, journal.statusOf id = some status ∧ test status = true := by
  simp only [mem_toFinset,mem_map,mem_filter,WorkflowJournal.statusOf,Option.map_eq_some_iff]
  constructor
  · rintro ⟨⟨key,step⟩,⟨listed,holds⟩,rfl⟩
    exact ⟨step.status,⟨step,TreeMap.mem_toList_iff_getElem?_eq_some.mp listed,rfl⟩,holds⟩
  · rintro ⟨_,⟨step,found,rfl⟩,holds⟩
    exact ⟨(id,step),⟨TreeMap.mem_toList_iff_getElem?_eq_some.mpr found,holds⟩,rfl⟩

/-- An execution that begins from such a journal has its invariants. -/
theorem start_invariant (concurrency : 1 ≤ plan.max_concurrency.toNat)
    (startable : Startable plan journal) : Invariant plan (start plan journal) := by
  have completed : ∀ id, id ∈ (start plan journal).completed ↔ journal.statusOf id = some .Success := by
    intro id
    have members := mem_status_set journal (fun status => decide (status = .Success)) id
    simpa [start] using members
  have terminal : ∀ id, id ∈ (start plan journal).terminal ↔ journal.statusOf id = some .Success := by
    intro id
    refine (mem_status_set journal JournalStepStatus.is_terminal id).trans ?_
    constructor
    · rintro ⟨status,found,final⟩
      rcases startable.fresh id status found with rfl | rfl
      · cases final
      · exact found
    · exact fun found => ⟨.Success,found,rfl⟩
  have sound : Sound plan (start plan journal) := by
    refine ⟨startable.closed.known,completed,fun id member => (terminal id).mpr ((completed id).mp member),
      ?_,?_,?_,?_,?_,
      ?_,?_,?_,startable.closed⟩
    · intro id member
      exact ⟨.Success,(terminal id).mp member,rfl⟩
    · intro id member; simp [start] at member
    · simp [start]
    · simp [start]
    · intro id need state needed
      rcases state with success | running
      · exact startable.closed.needs id need success needed
      · rcases startable.fresh id _ running with equal | equal <;> cases equal
    · simp only [start,length_nil]
      omega
    · simp [start,startedIds]
    · intro id member
      simp [start,startedIds] at member
  have other : ∀ id status, status ≠ .Pending → status ≠ .Success → (start plan journal).status id ≠ some status := by
    intro id status notPending notSuccess found
    rcases startable.fresh id status found with equal | equal
    · exact notPending equal
    · exact notSuccess equal
  have noFailures : (start plan journal).had_failures = false := by
    cases value : (start plan journal).had_failures with
    | false => rfl
    | true =>
      simp only [start,anyStatus_iff] at value
      obtain ⟨id,status,found,bad⟩ := value
      rcases startable.fresh id status found with rfl | rfl <;> simp at bad
  have coherent : Coherent plan (start plan journal) := by
    refine ⟨?_,?_,fun aborts => (by cases aborts),fun aborts => (by cases aborts),?_,?_,?_,?_,?_⟩
    · simp only [start,length_nil]
      omega
    · intro _ id known open' _
      obtain ⟨status,found⟩ := (startable.closed.known id).mp known
      rcases startable.fresh id status found with rfl | rfl
      · exact found
      · exact absurd ((terminal id).mpr found) open'
    · intro id found
      exact absurd found (other id .Failed (by simp) (by simp))
    · intro _ id found
      exact absurd found (other id .Skipped (by simp) (by simp))
    · intro _ id
      exact other id .Cancelled (by simp) (by simp)
    · intro _ id member notSuccess
      exact absurd ((terminal id).mp member) notSuccess
    · intro had
      rw [noFailures] at had
      cases had
  exact ⟨sound,fun _ => coherent.at_top,by simp [start]⟩

theorem startable_pristine (checked : isPristine plan journal = true) :
    Startable plan journal := by
  simp only [isPristine,Bool.and_eq_true,decide_eq_true_eq,beq_iff_eq,all_eq_true] at checked
  obtain ⟨⟨_,size⟩,entries⟩ := checked
  have pending : ∀ id status, journal.statusOf id = some status → id ∈ plan.ids ∧ status = .Pending := by
    intro id status found
    obtain ⟨step,stored,rfl⟩ := Option.map_eq_some_iff.mp found
    have checks := entries (id,step) (TreeMap.mem_toList_iff_getElem?_eq_some.mpr stored)
    refine ⟨(mem_planIds plan.steps id).mp (TreeSet.contains_iff_mem.mp ?_),?_⟩
    · exact checks.1.1.1.1.1.1
    · exact checks.1.1.1.1.1.2
  have keysKnown : ∀ id, id ∈ plan.ids → id ∈ journal.steps := by
    have sub : journal.steps.keys.Subperm (planIds plan.steps).toList := by
      apply (TreeMap.nodup_keys).subperm
      intro id member
      rw [TreeSet.mem_toList,mem_planIds]
      rw [TreeMap.mem_keys,TreeMap.mem_iff_isSome_getElem?] at member
      obtain ⟨step,stored⟩ := Option.isSome_iff_exists.mp member
      exact (pending id step.status (by simp [WorkflowJournal.statusOf,stored])).1
    have perm := sub.perm_of_length_le (by rw [TreeMap.length_keys,TreeSet.length_toList,size])
    intro id known
    rw [← TreeMap.mem_keys,perm.mem_iff,TreeSet.mem_toList,mem_planIds]
    exact known
  refine ⟨⟨?_,?_⟩,fun id status found => Or.inl (pending id status found).2⟩
  · intro id
    constructor
    · intro known
      obtain ⟨step,stored⟩ := Option.isSome_iff_exists.mp (TreeMap.mem_iff_isSome_getElem?.mp (keysKnown id known))
      exact ⟨step.status,by simp [WorkflowJournal.statusOf,stored]⟩
    · rintro ⟨status,found⟩
      exact (pending id status found).1
  · intro id need success
    have := (pending id .Success success).2
    cases this

theorem steps_new_with_plan (plan : WorkflowPlan) (vars : TreeMap String String) (id : String) :
    (new_with_plan plan vars).steps[id]? = if id ∈ plan.ids then some .pending else none := by
  have general : ∀ (steps : List WorkflowPlanStep) (map : TreeMap String JournalStep),
      (steps.foldl (fun map step => map.insert step.id .pending) map)[id]? =
        if id ∈ steps.map WorkflowPlanStep.id then some .pending else map[id]? := by
    intro steps
    induction steps with
    | nil => simp
    | cons head tail ih =>
      intro map
      rw [foldl_cons,ih]
      by_cases later : id ∈ tail.map WorkflowPlanStep.id
      · have listed : id ∈ (head :: tail).map WorkflowPlanStep.id := mem_cons_of_mem _ later
        rw [if_pos later,if_pos listed]
      · rw [if_neg later,TreeMap.getElem?_insert]
        simp only [Std.compare_eq_iff_eq,map_cons,mem_cons,later,or_false]
        by_cases same : head.id = id
        · simp [same]
        · have other : id ≠ head.id := fun equal => same equal.symm
          simp [same,other]
  refine (general plan.steps ∅).trans ?_
  simp [WorkflowPlan.ids]

theorem status_new_with_plan (plan : WorkflowPlan) (vars : TreeMap String String) (id : String) :
    (new_with_plan plan vars).statusOf id = if id ∈ plan.ids then some .Pending else none := by
  rw [WorkflowJournal.statusOf,steps_new_with_plan]
  split_ifs <;> rfl

theorem step_by_id_mem {id : String} {step : WorkflowPlanStep} (found : (step_by_id plan)[id]? = some step) :
    step ∈ plan.steps ∧ step.id = id := by
  have general : ∀ (steps : List WorkflowPlanStep) (map : TreeMap String WorkflowPlanStep),
      (steps.foldl (fun map step => map.insert step.id step) map)[id]? = some step →
        (step ∈ steps ∧ step.id = id) ∨ map[id]? = some step := by
    intro steps
    induction steps with
    | nil => intro map found; exact .inr found
    | cons head tail ih =>
      intro map found
      rcases ih (map.insert head.id head) found with ⟨member,same⟩ | old
      · exact .inl ⟨by simp [member],same⟩
      · rw [TreeMap.getElem?_insert] at old
        simp only [Std.compare_eq_iff_eq] at old
        split_ifs at old with same
        · obtain rfl := Option.some.inj old
          exact .inl ⟨by simp,same⟩
        · exact .inr old
  rcases general plan.steps ∅ found with known | old
  · exact known
  · simp at old

/-- With distinct ids the step found under an id lists exactly its needs. -/
theorem needs_of_step_by_id (distinct : plan.ids.Nodup) {id need : String} {step : WorkflowPlanStep}
    (found : (step_by_id plan)[id]? = some step) (needed : Needs plan id need) : need ∈ step.needs := by
  obtain ⟨member,same⟩ := step_by_id_mem found
  obtain ⟨other,otherMember,otherSame,listed⟩ := needed
  have equal : other = step := inj_on_of_nodup_map distinct otherMember member (otherSame.trans same.symm)
  exact equal ▸ listed

/-- The journal a replay fills, after some rounds: exactly the reused steps are
    successful, and their needs are reused too. -/
private structure Replayed (plan : WorkflowPlan) (reused : TreeSet String) (target : WorkflowJournal) : Prop where
  known : ∀ id, id ∈ plan.ids ↔ ∃ status, target.statusOf id = some status
  status : ∀ id status, target.statusOf id = some status → status = if id ∈ reused then .Success else .Pending
  closed : ∀ id ∈ reused, ∀ need, Needs plan id need → need ∈ reused
  inside : ∀ id ∈ reused, id ∈ plan.ids

private theorem Replayed.startable {reused : TreeSet String} {target : WorkflowJournal}
    (replayed : Replayed plan reused target) : Startable plan target := by
  have isReused : ∀ id, target.statusOf id = some .Success → id ∈ reused := by
    intro id success
    have := replayed.status id _ success
    by_contra absent
    rw [if_neg absent] at this
    cases this
  refine ⟨⟨replayed.known,?_⟩,?_⟩
  · intro id need success needed
    have member := replayed.closed id (isReused id success) need needed
    obtain ⟨status,found⟩ := (replayed.known need).mp (replayed.inside need member)
    have := replayed.status need status found
    rw [if_pos member] at this
    rw [found,this]
  · intro id status found
    have := replayed.status id status found
    split_ifs at this with member
    · exact .inr this
    · exact .inl this

private theorem replay_loop (distinct : plan.ids.Nodup) (source : WorkflowJournal) (ids : List String) :
    ∀ (reused : TreeSet String) (target : WorkflowJournal) (reused_ids : List String),
      Replayed plan reused target → ∀ final reused', copyReplayLoop source plan ids reused target reused_ids =
        .ok (final,reused') → Startable plan final := by
  induction ids with
  | nil =>
    intro reused target reused_ids replayed final reused' copied
    simp only [copyReplayLoop,Except.ok.injEq,Prod.mk.injEq] at copied
    exact copied.1 ▸ replayed.startable
  | cons id rest ih =>
    intro reused target reused_ids replayed final reused' copied
    unfold copyReplayLoop at copied
    cases found : (step_by_id plan)[id]? with
    | none => simp [found] at copied
    | some step =>
      cases stored : source.steps[id]? with
      | none => simp [found,stored] at copied
      | some source_step =>
        simp only [found,stored] at copied
        split_ifs at copied with stops
        · simp only [Except.ok.injEq,Prod.mk.injEq] at copied
          exact copied.1 ▸ replayed.startable
        · simp only [Bool.or_eq_true,not_or,decide_eq_true_eq,not_not,Bool.not_eq_true',Bool.not_eq_false] at stops
          obtain ⟨⟨⟨success,_⟩,needs⟩,_⟩ := stops
          rw [all_eq_true] at needs
          refine ih _ _ _ ?_ final reused' copied
          have known : id ∈ plan.ids := by
            obtain ⟨member,same⟩ := step_by_id_mem found
            exact same ▸ mem_map_of_mem member
          have statusEq : ∀ other,
            ({ target with steps := target.steps.insert id source_step } : WorkflowJournal).statusOf other =
              if id = other then some .Success else target.statusOf other := by
            intro other
            simp only [WorkflowJournal.statusOf,TreeMap.getElem?_insert,Std.compare_eq_iff_eq]
            split_ifs <;> simp [success]
          refine ⟨?_,?_,?_,?_⟩
          · intro other
            rw [replayed.known,statusEq]
            split_ifs with same
            · subst same
              simpa using (replayed.known id).mp known
            · rfl
          · intro other status now
            rw [statusEq] at now
            simp only [TreeSet.mem_insert,Std.compare_eq_iff_eq]
            split_ifs at now with same
            · rw [if_pos (Or.inl same)]
              exact (Option.some.inj now).symm
            · have := replayed.status other status now
              simpa [same] using this
          · intro other member need needed
            rw [TreeSet.mem_insert,Std.compare_eq_iff_eq] at member ⊢
            rcases member with rfl | old
            · exact .inr (TreeSet.contains_iff_mem.mp (needs need (needs_of_step_by_id distinct found needed)))
            · exact .inr (replayed.closed other old need needed)
          · intro other member
            rw [TreeSet.mem_insert,Std.compare_eq_iff_eq] at member
            rcases member with rfl | old
            · exact known
            · exact replayed.inside other old

theorem startable_replayed (distinct : plan.ids.Nodup) {source target : WorkflowJournal} {reused : List String}
    (copied : copy_replay_prefix source plan validated (new_with_plan plan source.vars) = .ok (target,reused)) :
    Startable plan target := by
  refine replay_loop distinct source validated.topo_order ∅ (new_with_plan plan source.vars) [] ?_ target reused copied
  refine ⟨?_,?_,by simp,by simp⟩
  · intro id
    rw [status_new_with_plan]
    split_ifs with known <;> simp [known]
  · intro id status found
    rw [status_new_with_plan] at found
    split_ifs at found
    simpa using (Option.some.inj found).symm

theorem status_resetForResume (closed : Closed plan journal) (id : String) :
    (resetForResume plan journal).statusOf id =
      (journal.statusOf id).map fun status => if status = .Success then .Success else .Pending := by
  have general : ∀ (steps : List WorkflowPlanStep) (map : TreeMap String JournalStep),
      (∀ step ∈ steps, step.id ∈ map) →
      (steps.foldl (fun map step => map.insertIfNew step.id .pending) map)[id]? = map[id]? := by
    intro steps
    induction steps with
    | nil => intro map _; rfl
    | cons head tail ih =>
      intro map present
      have here := present head (by simp)
      have same : ∀ key : String, (map.insertIfNew head.id .pending)[key]? = map[key]? := by
        intro key
        rw [TreeMap.getElem?_insertIfNew]
        by_cases equal : head.id = key
        · subst equal
          simp [here]
        · simp [equal,Std.compare_eq_iff_eq]
      rw [foldl_cons,ih _ fun step member => ?_,same]
      rw [TreeMap.mem_insertIfNew]
      exact .inr (present step (by simp [member]))
  have present : ∀ step ∈ plan.steps, step.id ∈ journal.steps.map fun _ step => step.reset_for_rerun := by
    intro step member
    obtain ⟨status,found⟩ := (closed.known step.id).mp (mem_map_of_mem member)
    obtain ⟨stored,lookup,_⟩ := Option.map_eq_some_iff.mp found
    rw [TreeMap.mem_iff_isSome_getElem?,TreeMap.getElem?_map,lookup]
    rfl
  simp only [WorkflowJournal.statusOf,resetForResume,general plan.steps _ present,TreeMap.getElem?_map,Option.map_map]
  cases journal.steps[id]? with
  | none => rfl
  | some step => simp [reset_status]

theorem startable_resumed (closed : Closed plan journal) :
    Startable plan (resetForResume plan journal) := by
  have statusEq := status_resetForResume closed
  refine ⟨⟨?_,?_⟩,?_⟩
  · intro id
    rw [closed.known,statusEq]
    cases journal.statusOf id <;> simp
  · intro id need success needed
    rw [statusEq] at success
    obtain ⟨status,found,now⟩ := Option.map_eq_some_iff.mp success
    have was : status = .Success := by
      by_contra other
      rw [if_neg other] at now
      cases now
    have needSuccess := closed.needs id need (was ▸ found) needed
    rw [statusEq,needSuccess]
    rfl
  · intro id status found
    rw [statusEq] at found
    obtain ⟨old,_,rfl⟩ := Option.map_eq_some_iff.mp found
    split_ifs
    · exact .inr rfl
    · exact .inl rfl

/-- Every journal the engine executes from is fit to start from. -/
theorem startable_of_admissible {digests : PlanDigests}
    (admissible : Admissible digests plan journal) : Startable plan journal := by
  induction admissible with
  | pristine journal checked => exact startable_pristine checked
  | replayed resolver validated source target reused accepted copied =>
    exact startable_replayed (validate_plan_ok accepted).distinct copied
  | resumed resolver validated journal inputs exec _ accepted ran ih =>
    have valid := validate_plan_ok accepted
    exact startable_resumed (run_invariant valid (start_invariant valid.concurrency ih) ran).sound.file

/-! ### Starts -/

/-- The transition starts a step: the journal shows it running from now on, or its dispatch is in flight from now on. -/
def Starts (exec next : Execution) (id : String) : Prop :=
  (next.status id = some .Running ∧ exec.status id ≠ some .Running) ∨ (id ∈ next.futures ∧ id ∉ exec.futures)
instance (exec next : Execution) (id : String) : Decidable (Starts exec next id) := by
  unfold Starts
  infer_instance
/-- No step is started and none becomes pending. -/
structure Quiet (exec next : Execution) : Prop where
  back : ∀ id status, status = .Pending ∨ status = .Running → next.status id = some status →
    exec.status id = some status
  futures : ∀ id ∈ next.futures, id ∈ exec.futures

theorem Quiet.trans {first second third : Execution} (before : Quiet first second) (after : Quiet second third) :
    Quiet first third :=
  ⟨fun id status kind now => before.back id status kind (after.back id status kind now),
    fun id member => before.futures id (after.futures id member)⟩

theorem Quiet.not_starts (quiet : Quiet exec next) (id : String) : ¬ Starts exec next id := by
  rintro (⟨now,was⟩ | ⟨now,was⟩)
  · exact was (quiet.back id .Running (.inr rfl) now)
  · exact was (quiet.futures id now)

/-- A relation between the states of an execution that holds for everything the
    code does to the statuses other than starting a step. -/
structure StatusRule (plan : WorkflowPlan) (rule : Execution → Execution → Prop) : Prop where
  same : ∀ {exec next : Execution}, (∀ id, next.status id = exec.status id) → next.futures = exec.futures →
    rule exec next
  trans : ∀ {first second third : Execution}, rule first second → rule second third → rule first third
  sweep : ∀ {exec flagged : Execution} {status : JournalStepStatus} (reason : String), flagged.journal = exec.journal →
    flagged.futures = exec.futures → SweepStatus status → rule exec (flagged.mark_unscheduled_terminal status reason)
  finish : ∀ {exec next : Execution} {id : String} {status : JournalStepStatus}, exec.status id = some .Running →
    status.is_terminal = true → (∀ other, next.status other = if id = other then some status else exec.status other) →
    (∀ other ∈ next.futures, other ∈ exec.futures) → rule exec next
  skip : ∀ {exec next : Execution} {failed_id : String} {skipped : List String},
    SkipEffect plan failed_id exec next skipped → rule exec next

section
variable {rule : Execution → Execution → Prop} (rules : StatusRule plan rule)
include rules
theorem StatusRule.write {outcome : JournalWrite} {next : Execution → Execution}
    (kept : ∀ written : Execution, (∀ id, (next written).status id = written.status id) ∧
      (next written).futures = written.futures) :
    rule exec (exec.write outcome next) := by
  cases outcome with
  | Written => exact rules.same (kept _).1 (kept _).2
  | NotWritten replaced => exact rules.same (fun _ => rfl) rfl

theorem StatusRule.cancel_pending (exec : Execution) :
    rule exec ({ exec with aborting := true, had_failures := true } : Execution).cancel_pending :=
  rules.sweep _ rfl rfl (.inr rfl)

theorem StatusRule.completeStep (valid : ValidFor plan validated) (sound : Sound plan exec) {finished : FinishedStep}
    (flying : finished.step_id ∈ exec.futures) (outcome : JournalWrite) :
    rule exec (exec.completeStep plan validated finished outcome) := by
  have fewer : ∀ id ∈ exec.futures.erase finished.step_id, id ∈ exec.futures := fun id => mem_of_mem_erase
  have running := (flying_state sound flying).2.1
  unfold Execution.completeStep
  cases finished.result with
  | Succeeded run_ids output outputs =>
    have recorded := rules.finish running rfl (status_succeeded sound flying run_ids output outputs) fewer
    exact rules.trans recorded (rules.write fun _ => ⟨fun _ => rfl,rfl⟩)
  | Failed run_ids output outputs error cancelled =>
    have recorded := rules.finish running (by cases cancelled <;> rfl)
      (status_failed sound flying run_ids output outputs error cancelled) fewer
    refine rules.trans (rules.trans recorded ?_) (rules.write fun _ => ⟨fun _ => rfl,rfl⟩)
    by_cases policy : cancelled = true ∨ onErrorOf plan finished.step_id = .Abort
    · rw [settleFailure_abort validated _ policy]
      refine rules.sweep _ rfl rfl ?_
      cases cancelled
      · exact .inl rfl
      · exact .inr rfl
    · push Not at policy
      have no : cancelled = false := by simpa using policy.1
      subst no
      exact rules.skip (settleFailure_continue valid _ policy.2)

/-- What one transition does to the statuses: it follows the rule, or it starts
    the first queued step and leaves the others alone. -/
theorem StatusRule.step (valid : ValidFor plan validated) (inv : Invariant plan exec) {input : Input}
    (stepped : exec.step plan validated input = some next) :
    rule exec next ∨ ∃ id rest, exec.phase = .Starting (id :: rest) ∧ next.status id = some .Running ∧
      (∀ other, other ≠ id → next.status other = exec.status other) ∧
      ∀ other ∈ next.futures, other = id ∨ other ∈ exec.futures := by
  have phase : ∀ {phase : Phase}, rule exec { exec with phase := phase } := rules.same (fun _ => rfl) rfl
  cases step_cases stepped with
  | cancel => exact .inl (rules.same (fun _ => rfl) rfl)
  | top =>
    left
    have noticed : rule exec exec.noticeCancel := by
      unfold noticeCancel
      split_ifs
      · exact rules.cancel_pending exec
      · exact rules.same (fun _ => rfl) rfl
    unfold loopTop
    dsimp only
    split_ifs <;> exact rules.trans noticed (rules.same (fun _ => rfl) rfl)
  | @start provisioned outcome step_id rest starting =>
    have live := inv.live (by rw [starting]; rfl)
    obtain ⟨_,_,_,_,_,pending,_⟩ := queued_state inv.sound live starting
    rcases startStep_cases valid inv.sound live starting provisioned outcome with
      ⟨_,equal⟩ | ⟨error,equal⟩ | ⟨step,rfl,equal⟩
    · rw [equal]
      exact .inl (rules.trans (rules.cancel_pending exec) (rules.same (fun _ => rfl) rfl))
    · rw [equal]
      exact .inl (rules.same (fun _ => rfl) rfl)
    · rw [equal]
      have marked : (markRunning exec.journal step provisioned).statusOf step.id = some .Running := by
        rw [status_markRunning,if_pos rfl]
        change (exec.status step.id).map _ = _
        rw [pending]; rfl
      have kept : ∀ other, other ≠ step.id →
        (markRunning exec.journal step provisioned).statusOf other = exec.status other := by
        intro other apart
        rw [status_markRunning,if_neg fun same : step.id = other => apart same.symm]
        rfl
      refine .inr ⟨step.id,rest,starting,?_⟩
      cases outcome with
      | Written =>
        refine ⟨marked,kept,?_⟩
        intro other member
        rcases mem_append.mp member with old | new
        · exact .inr old
        · exact .inl (mem_singleton.mp new)
      | NotWritten replaced => exact ⟨marked,kept,fun other member => Or.inr member⟩
  | started => exact .inl phase
  | idle => exact .inl phase
  | finish =>
    left
    have swept : rule exec (exec.finalSweep.stamp exec.final_status) := by
      unfold finalSweep
      split_ifs
      · exact rules.trans (rules.sweep "cancelled by caller" rfl rfl (.inr rfl)) (rules.same (fun _ => rfl) rfl)
      · exact rules.same (fun _ => rfl) rfl
    exact rules.trans swept (rules.write fun _ => ⟨fun _ => rfl,rfl⟩)
  | complete _ outcome _ flying => exact .inl (rules.completeStep valid inv.sound flying outcome)

end

theorem quiet_rule (plan : WorkflowPlan) : StatusRule plan Quiet where
  same statuses futures := ⟨fun id _ _ now => (statuses id) ▸ now,fun _ member => futures ▸ member⟩
  trans := Quiet.trans
  sweep {exec flagged status} reason journal futures swept := by
    refine ⟨?_,fun _ member => futures ▸ member⟩
    intro id kind open' now
    rcases status_sweep_cases flagged status reason id with ⟨_,swept'⟩ | ⟨_,same⟩
    · rw [swept',Option.some.injEq] at now
      subst now
      rcases swept with rfl | rfl <;> simp at open'
    · rw [same,Execution.status,journal] at now
      exact now
  finish {exec next id status} _ final statuses futures := by
    refine ⟨?_,futures⟩
    intro other kind open' now
    rw [statuses] at now
    split_ifs at now
    · rw [Option.some.injEq] at now
      subst now
      rcases open' with rfl | rfl <;> cases final
    · exact now
  skip {exec next failed_id skipped} effect := by
    refine ⟨?_,fun _ member => effect.futures ▸ member⟩
    intro id status open' now
    rw [effect.status] at now
    split_ifs at now
    · obtain ⟨_,_,equal⟩ := Option.map_eq_some_iff.mp now
      subst equal
      simp at open'
    · exact now

/-- Only a queued step is started, and no transition makes a step pending. -/
theorem step_starts (valid : ValidFor plan validated) (inv : Invariant plan exec) {input : Input}
    (stepped : exec.step plan validated input = some next) :
    Quiet exec next ∨ ∃ id rest, exec.phase = .Starting (id :: rest) ∧ next.status id = some .Running ∧
      (∀ other, other ≠ id → next.status other = exec.status other) ∧
      ∀ other ∈ next.futures, other = id ∨ other ∈ exec.futures :=
  (quiet_rule plan).step valid inv stepped

/-- A step that is started was pending, and its needs were successful. -/
theorem started_state (valid : ValidFor plan validated) (inv : Invariant plan exec) {input : Input}
    (stepped : exec.step plan validated input = some next) {id : String} (starts : Starts exec next id) :
    exec.status id = some .Pending ∧ ∀ need, Needs plan id need → exec.status need = some .Success := by
  rcases step_starts valid inv stepped with quiet | ⟨started,rest,starting,_,kept,futures⟩
  · exact absurd starts (quiet.not_starts id)
  · have same : id = started := by
      rcases starts with ⟨now,was⟩ | ⟨now,was⟩
      · by_contra other
        rw [kept id other] at now
        exact was now
      · exact (futures id now).resolve_right was
    subst same
    obtain ⟨_,_,_,_,_,pending,needs⟩ := queued_state inv.sound (inv.live (by rw [starting]; rfl)) starting
    exact ⟨pending,needs⟩

/-- Successful steps have successful transitive needs. -/
theorem transitive_success (sound : Sound plan exec) {id need : String}
    (needs : ∀ direct, Needs plan id direct → exec.status direct = some .Success)
    (chain : TransitiveNeeds plan id need) :
    exec.status need = some .Success := by
  induction chain with
  | single direct => exact needs _ direct
  | tail _ last ih => exact sound.needs _ _ (Or.inl ih) last

/-- How many transitions of a run start the step. -/
def startsIn (plan : WorkflowPlan) (validated : ValidatedWorkflow β) (id : String) : Execution → List Input → Nat
  | _, [] => 0
  | exec, input :: rest =>
    match exec.step plan validated input with
    | none => 0
    | some next => (if Starts exec next id then 1 else 0) + startsIn plan validated id next rest

theorem startsIn_le (valid : ValidFor plan validated) (id : String) (inputs : List Input) :
    ∀ exec : Execution, Invariant plan exec →
      startsIn plan validated id exec inputs ≤ if exec.status id = some .Pending then 1 else 0 := by
  induction inputs with
  | nil => intro exec _; simp [startsIn]
  | cons input rest ih =>
    intro exec inv
    simp only [startsIn]
    cases stepped : exec.step plan validated input with
    | none => simp
    | some next =>
      simp only
      have later := ih next (step_invariant valid inv stepped)
      have notBack : next.status id = some .Pending → exec.status id = some .Pending := by
        intro now
        rcases step_starts valid inv stepped with quiet | ⟨started,_,starting,running,kept,_⟩
        · exact quiet.back id .Pending (.inl rfl) now
        · by_cases same : id = started
          · rw [same,running] at now
            cases now
          · exact kept id same ▸ now
      by_cases starts : Starts exec next id
      · obtain ⟨pending,_⟩ := started_state valid inv stepped starts
        have gone : next.status id ≠ some .Pending := by
          intro now
          rcases step_starts valid inv stepped with quiet | ⟨started,_,starting,running,kept,futures⟩
          · exact quiet.not_starts id starts
          · by_cases same : id = started
            · rw [same,running] at now
              cases now
            · rcases starts with ⟨now',was⟩ | ⟨now',was⟩
              · exact was (kept id same ▸ now')
              · exact same ((futures id now').resolve_right was)
        rw [if_neg gone] at later
        rw [if_pos starts,if_pos pending]
        omega
      · rw [if_neg starts]
        by_cases pending : next.status id = some .Pending
        · rw [if_pos (notBack pending)]
          rw [if_pos pending] at later
          omega
        · rw [if_neg pending] at later
          omega

/-- Whatever finishes in whatever order and whenever the caller cancels: a step is started only after all its transitive
    needs succeeded, at most once, never when it had succeeded before, and never beyond the concurrency of the plan. -/
theorem execute_schedules_safely {digests : PlanDigests} {resolver : TargetResolver β} {journal : WorkflowJournal}
    {inputs : List Input} (accepted : validate_plan digests plan journal.vars resolver = .ok validated)
    (admissible : Admissible digests plan journal)
    (ran : (start plan journal).run plan validated inputs = some exec) :
    exec.running.card ≤ plan.max_concurrency.toNat ∧ exec.futures.length ≤ plan.max_concurrency.toNat ∧
      (∀ id, startsIn plan validated id (start plan journal) inputs ≤ 1) ∧
      ∀ input next id, exec.step plan validated input = some next → Starts exec next id →
        exec.status id ≠ some .Success ∧ ∀ need, TransitiveNeeds plan id need → exec.status need = some .Success := by
  have valid := validate_plan_ok accepted
  have start := start_invariant valid.concurrency (startable_of_admissible admissible)
  have inv := run_invariant valid start ran
  have bound : exec.futures.length ≤ plan.max_concurrency.toNat := by
    have := inv.sound.capacity
    omega
  have same : exec.running = exec.futures.toFinset := by
    ext id
    rw [mem_toFinset,inv.sound.flight]
  refine ⟨?_,bound,?_,?_⟩
  · rw [same,toFinset_card_of_nodup inv.sound.futures]
    exact bound
  · intro id
    have count := startsIn_le valid id inputs _ start
    split_ifs at count <;> omega
  · intro input next id stepped starts
    obtain ⟨pending,needs⟩ := started_state valid inv stepped starts
    exact ⟨by rw [pending]; simp,fun need chain => transitive_success inv.sound needs chain⟩

/-! ### A plan to look at

Three steps, of which the last needs the first, at most two at a time. -/

def sampleStep (order : UInt32) (id : String) (needs : List String) : WorkflowPlanStep where
  order := order
  id := id
  needs := needs
  targets := .Single "t"
  prompt_template := "p"
  system := none
  workdir := none
  sandbox := .ReadOnly
  isolation := .None
  isolation_base := none
  timeout := none
  on_error := .Abort
  route := ⟨none,none,[],[],none,none⟩

def samplePlan : WorkflowPlan where
  schema_version := 1
  name := "w"
  description := none
  max_concurrency := 2
  source_sha256 := "e3b0c44298fc1c149afbf4c8996fb92427ae41e4649b934ca495991b7852b855"
  capability_manifest := ⟨.ReadOnly,false,false,false,none⟩
  steps := [sampleStep 0 "a" [],sampleStep 1 "b" [],sampleStep 2 "c" ["a"]]
  plan_sha256 := "39b309c62139eb6eb560de9772e0e96c08e9b6521c52987adfffb8318d09937c"

/-- The JSON text of the plan's digest view. -/
def sampleJson : String :=
    "\x7b\"schema_version\":1,\"name\":\"w\",\"description\":null,\"max_concurrency\":2,\"source_sh" ++
    "a256\":\"e3b0c44298fc1c149afbf4c8996fb92427ae41e4649b934ca495991b7852b855\",\"capabi" ++
    "lity_manifest\":\x7b\"maximum_sandbox\":\"read-only\",\"uses_explicit_workdir\":false,\"use" ++
    "s_fan_out\":false,\"has_route_hints\":false,\"maximum_timeout\":null\x7d,\"steps\":[\x7b\"orde" ++
    "r\":0,\"id\":\"a\",\"needs\":[],\"targets\":\x7b\"kind\":\"single\",\"target\":\"t\"\x7d,\"prompt_templa" ++
    "te\":\"p\",\"sandbox\":\"read-only\",\"on_error\":\"abort\",\"route\":\x7b\"stage\":null,\"tier\":nu" ++
    "ll,\"tags\":[],\"candidates\":[],\"allow_frontier\":null,\"effort\":null\x7d\x7d,\x7b\"order\":1,\"i" ++
    "d\":\"b\",\"needs\":[],\"targets\":\x7b\"kind\":\"single\",\"target\":\"t\"\x7d,\"prompt_template\":\"p\"" ++
    ",\"sandbox\":\"read-only\",\"on_error\":\"abort\",\"route\":\x7b\"stage\":null,\"tier\":null,\"tag" ++
    "s\":[],\"candidates\":[],\"allow_frontier\":null,\"effort\":null\x7d\x7d,\x7b\"order\":2,\"id\":\"c\"," ++
    "\"needs\":[\"a\"],\"targets\":\x7b\"kind\":\"single\",\"target\":\"t\"\x7d,\"prompt_template\":\"p\",\"sa" ++
    "ndbox\":\"read-only\",\"on_error\":\"abort\",\"route\":\x7b\"stage\":null,\"tier\":null,\"tags\":[" ++
    "],\"candidates\":[],\"allow_frontier\":null,\"effort\":null\x7d\x7d]\x7d"

/-- `serde_json` and SHA-256 on this plan. -/
def sampleDigests : PlanDigests where
  to_vec _ := .ok sampleJson.toUTF8.toList
  sha256 _ := [57,179,9,198,33,57,235,110,181,96,222,151,114,224,233,108,
    8,233,182,82,28,82,152,122,223,255,184,49,141,9,147,124]

def sampleResolver : TargetResolver Unit where
  resolve_for_validation _ := .ok (some [()])
  validate_deferred _ _ := .ok ()
def sampleValidated : ValidatedWorkflow Unit :=
  (validate_plan sampleDigests samplePlan ∅ sampleResolver).toOption.getD ⟨[],∅,∅,∅⟩
def sampleJournal : WorkflowJournal := new_with_plan samplePlan ∅

theorem sample_accepted :
    validate_plan sampleDigests samplePlan sampleJournal.vars sampleResolver = .ok sampleValidated := by
  have accepted : (validate_plan sampleDigests samplePlan ∅ sampleResolver).toOption.isSome = true := by decide +kernel
  change validate_plan sampleDigests samplePlan ∅ sampleResolver = _
  unfold sampleValidated
  cases found : validate_plan sampleDigests samplePlan ∅ sampleResolver with
  | error error => simp [found,Except.toOption] at accepted
  | ok validated => rfl
theorem sample_admissible : Admissible sampleDigests samplePlan sampleJournal := .pristine _ (by decide +kernel)
/-- The state after some inputs. -/
def sampleRun (inputs : List Input) : Execution :=
  ((start samplePlan sampleJournal).run samplePlan sampleValidated inputs).getD
    (start samplePlan sampleJournal)
theorem sampleRun_runs (inputs : List Input)
    (possible : ((start samplePlan sampleJournal).run samplePlan sampleValidated inputs).isSome = true) :
    (start samplePlan sampleJournal).run samplePlan sampleValidated inputs = some (sampleRun inputs) := by
  obtain ⟨exec,ran⟩ := Option.isSome_iff_exists.mp possible
  simp [sampleRun,ran]

def goOn : Input := .Advance [] .Written
def succeed (id : String) : Input := .Finish ⟨id,0,.Succeeded [] none none,[]⟩ .Written
def fail (id : String) (cancelled : Bool) : Input := .Finish ⟨id,0,.Failed [] none none "e" cancelled,[]⟩ .Written
/-- Both independent steps are dispatched. -/
def bothStarted : List Input := [goOn,goOn,goOn,goOn]

theorem third_starts_after_first :
    Starts (sampleRun (bothStarted ++ [succeed "a",goOn])) (sampleRun (bothStarted ++ [succeed "a",goOn,goOn])) "c" ∧
      (sampleRun (bothStarted ++ [succeed "a",goOn])).status "a" = some .Success := by
  have starts : Starts (sampleRun (bothStarted ++ [succeed "a",goOn]))
    (sampleRun (bothStarted ++ [succeed "a",goOn,goOn]))
      "c" := by decide +kernel
  have first := sampleRun_runs (bothStarted ++ [succeed "a",goOn]) (by decide +kernel)
  have second := sampleRun_runs (bothStarted ++ [succeed "a",goOn,goOn]) (by decide +kernel)
  have stepped : (sampleRun (bothStarted ++ [succeed "a",goOn])).step samplePlan sampleValidated goOn =
      some (sampleRun (bothStarted ++ [succeed "a",goOn,goOn])) := by
    rw [show bothStarted ++ [succeed "a",goOn,goOn] = (bothStarted ++ [succeed "a",goOn]) ++ [goOn] from rfl,
      run_snoc,first] at second
    exact second
  have safe := execute_schedules_safely sample_accepted sample_admissible first
  exact ⟨starts,(safe.2.2.2 goOn _ "c" stepped starts).2 "a"
    (.single ⟨sampleStep 2 "c" ["a"],by simp [samplePlan],rfl,by simp [sampleStep]⟩)⟩

end Vyane.Workflows
