import Vyane.WorkflowOutcome

/-!
Replays (`engine.rs`, `copy_replay_prefix`). A replay starts from a new journal into which the steps at the front of the
topological order are copied for as long as the source journal has them as complete successes.
-/
namespace Vyane.Workflows
open Std Graphs List
set_option linter.unusedSimpArgs false
variable {β : Type} {plan : WorkflowPlan} {validated : ValidatedWorkflow β} {exec : Execution}

/-- A step whose result can be taken over: it succeeded without an error, and if
    it recorded fan-out outputs then there are some and all are ok. -/
def JournalStep.Reusable (step : JournalStep) : Prop :=
  step.status = .Success ∧ step.error = none ∧
    ∀ outputs, step.outputs = some outputs → outputs ≠ [] ∧ ∀ output ∈ outputs, output.ok = true
def Reusable (source : WorkflowJournal) (id : String) : Prop :=
  ∃ step, source.steps[id]? = some step ∧ step.Reusable

/-- The longest prefix of a list whose elements all have a property. -/
structure LongestPrefix (holds : String → Prop) (list front : List String) : Prop where
  isPrefix : front <+: list
  all : ∀ id ∈ front, holds id
  longest : ∀ other, other <+: list → (∀ id ∈ other, holds id) → other <+: front

/-! ### The copy -/

/-- What the loop breaks on, with the dependency test apart. -/
theorem reusable_iff (step : JournalStep) :
    step.Reusable ↔ step.status = .Success ∧ step.error.isSome = false ∧
      (step.outputs.all fun outputs => !outputs.isEmpty && outputs.all JournalTargetOutput.ok) = true := by
  have error : step.error = none ↔ step.error.isSome = false := by cases step.error <;> simp
  have outputs : (∀ outputs, step.outputs = some outputs → outputs ≠ [] ∧ ∀ output ∈ outputs, output.ok = true) ↔
      (step.outputs.all fun outputs => !outputs.isEmpty && outputs.all JournalTargetOutput.ok) = true := by
    cases step.outputs <;> simp
  rw [JournalStep.Reusable,error,outputs]

/-- The loop from some position of the topological order. The needs of every
    step stand before it, so the dependency test never breaks the loop. -/
theorem copyReplayLoop_copies (valid : ValidFor plan validated) {source : WorkflowJournal}
    (shape : ∀ id, id ∈ plan.ids ↔ id ∈ source.steps) (ids : List String) :
    ∀ (before : List String) (reused : TreeSet String) (target : WorkflowJournal),
      validated.topo_order = before ++ ids → (∀ id, id ∈ reused ↔ id ∈ before) →
      ∃ kept rest steps, ids = kept ++ rest ∧
        copyReplayLoop source plan ids reused target before = .ok ({ target with steps := steps },before ++ kept) ∧
        (∀ id ∈ kept, Reusable source id) ∧ (∀ id ∈ rest.head?, ¬ Reusable source id) ∧
        ∀ id : String, steps[id]? = if id ∈ kept then source.steps[id]? else target.steps[id]? := by
  induction ids with
  | nil => exact fun before _ target _ _ => ⟨[],[],target.steps,by simp [copyReplayLoop]⟩
  | cons id rest ih =>
    intro before reused target split same
    have known : id ∈ plan.ids := valid.orderPerm.mem_iff.mp (by simp [split])
    obtain ⟨step,member,found,equal⟩ := step_by_id_some plan known
    obtain ⟨stored,present⟩ := Option.isSome_iff_exists.mp (TreeMap.mem_iff_isSome_getElem?.mp ((shape id).mp known))
    have closed : step.needs.all reused.contains = true := by
      rw [all_eq_true]
      intro need listed
      rw [TreeSet.contains_iff_mem,same]
      exact valid.sorted before id rest split need ((valid.dependencies id need).mpr ⟨step,member,equal,listed⟩)
    unfold copyReplayLoop
    simp only [found,present,closed]
    by_cases reusable : stored.Reusable
    · obtain ⟨success,error,outputs⟩ := (reusable_iff stored).mp reusable
      obtain ⟨kept,later,steps,parts,copied,all,stops,contents⟩ := ih (before ++ [id]) (reused.insert id)
        { target with steps := target.steps.insert id stored } (by simpa using split)
        (fun other => by rw [TreeSet.mem_insert,Std.compare_eq_iff_eq,same,mem_append,mem_singleton,or_comm,eq_comm])
      refine ⟨id :: kept,later,steps,by rw [parts,cons_append],?_,?_,stops,?_⟩
      · simpa [success,error,outputs] using copied
      · intro other member
        rcases mem_cons.mp member with rfl | further
        · exact ⟨stored,present,reusable⟩
        · exact all other further
      · intro other
        rw [contents,TreeMap.getElem?_insert]
        by_cases here : id = other
        · subst here; simp [present]
        · simp [here,Ne.symm here,Std.compare_eq_iff_eq]
    · refine ⟨[],id :: rest,target.steps,rfl,?_,by simp,?_,by simp⟩
      · have breaks := (not_congr (reusable_iff stored)).mp reusable
        rw [if_pos]
        · simp
        · by_contra goes
          simp only [Bool.or_eq_true,not_or,decide_eq_true_eq,not_not,Bool.not_eq_true',Bool.not_eq_false,
            Bool.not_true,Bool.not_eq_true] at goes
          exact breaks ⟨goes.1.1.1,goes.1.1.2,goes.2⟩
      · rintro other here ⟨step',stored',usable⟩
        simp only [head?_cons,Option.mem_some_iff] at here
        subst here
        rw [present,Option.some.injEq] at stored'
        exact reusable (stored' ▸ usable)

theorem longest_of_stop {holds : String → Prop} {kept rest : List String} (all : ∀ id ∈ kept, holds id)
    (stops : ∀ id ∈ rest.head?, ¬ holds id) : LongestPrefix holds (kept ++ rest) kept := by
  refine ⟨prefix_append kept rest,all,fun other inside every => ?_⟩
  rcases Nat.lt_or_ge kept.length other.length with longer | shorter
  · obtain ⟨more,rfl⟩ := prefix_of_prefix_length_le (prefix_append kept rest) inside longer.le
    cases more with
    | nil => simp at longer
    | cons id more =>
      obtain ⟨tail,parts⟩ := inside
      rw [append_assoc,append_cancel_left_eq] at parts
      exact absurd (every id (by simp)) (stops id (by simp [← parts]))
  · exact prefix_of_prefix_length_le inside (prefix_append kept rest) shorter

/-- A front of a topological order contains the needs of its steps. -/
theorem front_closed (valid : ValidFor plan validated) {front : List String} (frontOf : front <+: validated.topo_order)
    {id need : String} (member : id ∈ front) (needed : Needs plan id need) : need ∈ front := by
  obtain ⟨before,after,rfl⟩ := append_of_mem member
  obtain ⟨rest,split⟩ := frontOf
  have earlier := valid.sorted before id (after ++ rest) (by rw [← split]; simp) need
    ((valid.dependencies id need).mpr needed)
  exact mem_append_left _ earlier

/-! ### The execution that follows -/

/-- A step that never started: it is still pending or it was skipped or cancelled. -/
def Execution.Unstarted (exec : Execution) (id : String) : Prop :=
  exec.status id = some .Pending ∨ exec.status id = some .Skipped ∨ exec.status id = some .Cancelled
/-- A stretch that leaves every step that never started so. -/
def StaysUnstarted (exec next : Execution) : Prop := ∀ id, exec.Unstarted id → next.Unstarted id

theorem unstarted_rule (plan : WorkflowPlan) : StatusRule plan StaysUnstarted where
  same statuses _ id unstarted := by simpa [Execution.Unstarted,statuses] using unstarted
  trans first second id unstarted := second id (first id unstarted)
  sweep {exec flagged status} reason journal _ swept id unstarted := by
    rcases status_sweep_cases flagged status reason id with ⟨_,now⟩ | ⟨_,same⟩
    · rcases swept with rfl | rfl
      · exact Or.inr (Or.inl now)
      · exact Or.inr (Or.inr now)
    · rw [Execution.Unstarted,same,Execution.status,journal]
      exact unstarted
  finish {exec next finished status} running _ statuses _ id unstarted := by
    have other : finished ≠ id := by
      rintro rfl
      simp [Execution.Unstarted,running] at unstarted
    simpa [Execution.Unstarted,statuses,other] using unstarted
  skip {exec next failed_id skipped} effect id unstarted := by
    rw [Execution.Unstarted,effect.status]
    split_ifs
    · rcases unstarted with was | was | was <;> simp [was]
    · exact unstarted

/-- A step that no transition of a run starts stays unstarted. -/
theorem unstarted_run (valid : ValidFor plan validated) (id : String) (inputs : List Input) :
    ∀ {exec final : Execution}, Invariant plan exec → exec.Unstarted id → exec.run plan validated inputs = some final →
      startsIn plan validated id exec inputs = 0 → final.Unstarted id := by
  induction inputs with
  | nil =>
    intro exec final _ unstarted ran _
    cases ran
    exact unstarted
  | cons input rest ih =>
    intro exec final inv unstarted ran none
    obtain ⟨next,stepped,later⟩ := Option.bind_eq_some_iff.mp ran
    simp only [startsIn,stepped,Nat.add_eq_zero_iff,ite_eq_right_iff,one_ne_zero,imp_false] at none
    refine ih (step_invariant valid inv stepped) ?_ later none.2
    rcases (unstarted_rule plan).step valid inv stepped with stays | ⟨started,_,_,running,kept,_⟩
    · exact stays id unstarted
    · have other : id ≠ started := by
        rintro rfl
        exact none.1 (Or.inl ⟨running,by rcases unstarted with was | was | was <;> simp [was]⟩)
      rw [Execution.Unstarted,kept id other]
      exact unstarted

/-- A replay copies the longest reusable front of the topological order, each entry as it is, and leaves the other steps
    pending; an execution from there starts no copied step, and one that returns has started every other step that was
    neither skipped nor cancelled. -/
theorem replay_copies_the_front {digests : PlanDigests} {resolver : TargetResolver β} {source : WorkflowJournal}
    (accepted : validate_plan digests plan source.vars resolver = .ok validated)
    (shape : ∀ id, id ∈ plan.ids ↔ id ∈ source.steps) :
    ∃ target reused, copy_replay_prefix source plan validated (new_with_plan plan source.vars) = .ok (target,reused) ∧
      LongestPrefix (Reusable source) validated.topo_order reused ∧
      (∀ id ∈ reused, ∀ need, Needs plan id need → need ∈ reused) ∧
      (∀ id ∈ reused, target.steps[id]? = source.steps[id]?) ∧
      (∀ id, id ∉ reused → target.steps[id]? = if id ∈ plan.ids then some .pending else none) ∧
      ∀ inputs exec, (Execution.start plan target).run plan validated inputs = some exec →
        (∀ id, 0 < startsIn plan validated id (Execution.start plan target) inputs → id ∈ plan.ids ∧ id ∉ reused) ∧
        (exec.phase = .Returned → ∀ id ∈ plan.ids, id ∉ reused →
          0 < startsIn plan validated id (Execution.start plan target) inputs ∨
            exec.status id = some .Skipped ∨ exec.status id = some .Cancelled) ∧
        (exec.phase = .Returned → exec.journal.status = .Completed → ∀ id ∈ plan.ids,
          (0 < startsIn plan validated id (Execution.start plan target) inputs ↔ id ∉ reused)) := by
  have valid := validate_plan_ok accepted
  obtain ⟨reused,rest,steps,parts,copied,all,stops,contents⟩ :=
    copyReplayLoop_copies valid shape validated.topo_order []
    ∅ (new_with_plan plan source.vars) rfl (by simp)
  have longest : LongestPrefix (Reusable source) validated.topo_order reused := by
    rw [parts]
    exact longest_of_stop all stops
  have startable : Startable plan { new_with_plan plan source.vars with steps := steps } :=
    startable_replayed valid.distinct copied
  refine ⟨_,reused,copied,longest,fun id member need needed =>
    front_closed valid longest.isPrefix member needed,?_,?_,?_⟩
  · intro id member
    rw [contents,if_pos member]
  · intro id absent
    rw [contents,if_neg absent,steps_new_with_plan]
  intro inputs exec ran
  have start := start_invariant valid.concurrency startable
  have outside : ∀ id, 0 < startsIn plan validated id (Execution.start plan { new_with_plan plan source.vars with
      steps := steps }) inputs → id ∈ plan.ids ∧ id ∉ reused := by
    intro id started
    have bound := startsIn_le valid id inputs _ start
    have pending : (Execution.start plan
      { new_with_plan plan source.vars with steps := steps }).status id = some .Pending := by
      by_contra other
      rw [if_neg other] at bound
      omega
    refine ⟨(start.sound.known id).mpr ⟨_,pending⟩,fun member => ?_⟩
    obtain ⟨step,stored,success,_⟩ := all id member
    have copy := contents id
    rw [if_pos member,stored] at copy
    simp [Execution.status,Execution.start,WorkflowJournal.statusOf,copy,success] at pending
  have others : exec.phase = .Returned → ∀ id ∈ plan.ids, id ∉ reused →
      0 < startsIn plan validated id (Execution.start plan
        { new_with_plan plan source.vars with steps := steps }) inputs ∨
        exec.status id = some .Skipped ∨ exec.status id = some .Cancelled := by
    intro returned id known absent
    by_contra neither
    simp only [not_or,Nat.not_lt,Nat.le_zero] at neither
    have pending : (Execution.start plan { new_with_plan plan source.vars with steps := steps }).Unstarted id := by
      left
      have copy := contents id
      rw [if_neg absent,steps_new_with_plan,if_pos known] at copy
      simp [Execution.status,Execution.start,WorkflowJournal.statusOf,copy,JournalStep.pending]
    obtain ⟨step,listed,same⟩ := mem_map.mp known
    have ended := (run_outcome valid start start_not_returned ran returned).ended step listed
    rw [same] at ended
    rcases unstarted_run valid id inputs start pending ran neither.1 with now | now | now
    · exact ended.1 now
    · exact neither.2.1 now
    · exact neither.2.2 now
  refine ⟨outside,others,fun returned completed id known => ⟨fun started => (outside id started).2,fun absent => ?_⟩⟩
  obtain ⟨step,listed,same⟩ := mem_map.mp known
  have success := (run_outcome valid start start_not_returned ran returned).completed completed step listed
  rw [same] at success
  rcases others returned id known absent with started | now | now
  · exact started
  · exact absurd (success.symm.trans now) (by simp)
  · exact absurd (success.symm.trans now) (by simp)

/-- A finished run of the sample plan in which the second step failed. -/
def replaySource : WorkflowJournal :=
  { sampleJournal with
    steps := ((TreeMap.empty.insert "a" { JournalStep.pending with status := .Success }).insert "b"
      { JournalStep.pending with status := .Failed }).insert "c" { JournalStep.pending with status := .Success } }

/-- Only the first step is taken over: the second of the order is the one that failed. -/
theorem first_step_is_reused :
    (∀ id, id ∈ samplePlan.ids ↔ id ∈ replaySource.steps) ∧
      ∃ target reused, copy_replay_prefix replaySource samplePlan sampleValidated (new_with_plan samplePlan ∅) =
        .ok (target,reused) ∧ reused = ["a"] ∧ target.steps["a"]? = replaySource.steps["a"]? := by
  have shape : ∀ id, id ∈ samplePlan.ids ↔ id ∈ replaySource.steps := by
    intro id
    have keys : replaySource.steps.keys = ["a","b","c"] := by decide +kernel
    have ids : samplePlan.ids = ["a","b","c"] := rfl
    rw [← TreeMap.mem_keys,keys,ids]
  obtain ⟨target,reused,copied,longest,_,entries,_⟩ := replay_copies_the_front
    (show validate_plan sampleDigests samplePlan replaySource.vars sampleResolver = .ok sampleValidated from
      sample_accepted) shape
  have front : (( copy_replay_prefix replaySource samplePlan sampleValidated
    (new_with_plan samplePlan ∅)).map Prod.snd).toOption =
      some ["a"] := by decide +kernel
  have same : reused = ["a"] := by
    rw [show copy_replay_prefix replaySource samplePlan sampleValidated (new_with_plan samplePlan ∅) =
      .ok (target,reused)
      from copied] at front
    simpa [Except.map,Except.toOption] using front
  exact ⟨shape,target,reused,copied,same,entries "a" (by simp [same])⟩

end Vyane.Workflows
