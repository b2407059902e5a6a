import Vyane.WorkflowValidate

/-!
`WorkflowEngine::execute` (`engine.rs`) as a state machine. One transition is the code between two points at which
something outside can happen: the caller cancels, a dispatched step finishes, or a journal write fails. What a dispatch
returns, what worktree provisioning records and whether a write succeeds are inputs.
-/
namespace Vyane.Workflows
open Std Graphs
variable {β : Type}

inductive StepEvent where
  | Started (step_id : String)
  | Succeeded (step_id : String) (duration : Nat)
  | Failed (step_id : String) (duration : Nat) (error : String)
  | Skipped (step_id reason : String)
  | Cancelled (step_id : String) (duration : Nat)
deriving DecidableEq, Repr

inductive StepDispatchResult where
  | Succeeded (run_ids : List String) (output : Option String) (outputs : Option (List JournalTargetOutput))
  | Failed (run_ids : List String) (output : Option String) (outputs : Option (List JournalTargetOutput))
      (error : String) (cancelled : Bool)
deriving DecidableEq, Repr

structure FinishedStep where
  step_id : String
  duration : Nat
  result : StepDispatchResult
  settlements : List (Nat × WorktreeSettlement)
deriving DecidableEq, Repr

/-- The outcome of `write_journal_atomic`. A failed write may or may not have replaced the file already. -/
inductive JournalWrite where
  | Written
  | NotWritten (replaced : Bool)
deriving DecidableEq, Repr

/-- Where the code of `execute` stands. -/
inductive Phase where
  | LoopTop
  | Starting (ready : List String)
  | Waiting
  | Finishing
  | Returned
  | Errored (error : WorkflowError)
  | Panicked
deriving DecidableEq, Repr

/-- The local variables of `execute`, the journal file, the caller's token, the
    events sent to the observer, and the futures that still hold a permit. -/
structure Execution where
  journal : WorkflowJournal
  persisted : WorkflowJournal
  completed : Finset String
  terminal : Finset String
  running : Finset String
  futures : List String
  permits : Nat
  aborting : Bool
  had_failures : Bool
  cancelled : Bool
  events : List StepEvent
  phase : Phase

/-- The state before the first round of the loop. -/
def Execution.start (plan : WorkflowPlan) (journal : WorkflowJournal) : Execution where
  journal := journal
  persisted := journal
  completed := ((journal.steps.toList.filter fun entry => entry.2.status = .Success).map Prod.fst).toFinset
  terminal := ((journal.steps.toList.filter fun entry => entry.2.status.is_terminal).map Prod.fst).toFinset
  running := ∅
  futures := []
  permits := max plan.max_concurrency.toNat 1
  aborting := false
  had_failures := journal.anyStatus fun status => status = .Failed ∨ status = .Skipped ∨ status = .Cancelled
  cancelled := false
  events := []
  phase := .LoopTop

/-- `self.emit(event)`. -/
def Execution.emit (exec : Execution) (event : StepEvent) : Execution := { exec with events := exec.events ++ [event] }

/-- `write_journal_atomic(..)?` followed by the rest of the stretch. -/
def Execution.write (exec : Execution) (outcome : JournalWrite) (next : Execution → Execution) : Execution :=
  match outcome with
  | .Written => next { exec with persisted := exec.journal }
  | .NotWritten replaced =>
    { exec with
      persisted := if replaced then exec.journal else exec.persisted
      phase := .Errored .WriteJournal }

def step_by_id (plan : WorkflowPlan) : TreeMap String WorkflowPlanStep :=
  plan.steps.foldl (fun steps step => steps.insert step.id step) ∅
def order_index (topo_order : List String) : TreeMap String Nat :=
  topo_order.zipIdx.foldl (fun positions entry => positions.insert entry.1 entry.2) ∅

/-! ### Steps that end without being started -/

/-- A step the sweep overwrites: recorded neither as terminal nor as running in memory, and not successful in the
    journal. -/
def Execution.unscheduled (exec : Execution) (id : String) (state : JournalStep) : Bool :=
  !(id ∈ exec.terminal || id ∈ exec.running || state.status = .Success)

def sweepEvent (status : JournalStepStatus) (reason id : String) : List StepEvent :=
  match status with
  | .Skipped => [.Skipped id reason]
  | .Cancelled => [.Cancelled id 0]
  | .Pending | .Running | .Success | .Failed => []

def Execution.mark_unscheduled_terminal (exec : Execution) (status : JournalStepStatus) (reason : String) : Execution :=
  { exec with
    journal := { exec.journal with
      steps := exec.journal.steps.map fun id state =>
        if exec.unscheduled id state then { state with status := status, error := some reason } else state }
    events := exec.events ++ exec.journal.steps.toList.flatMap fun entry =>
      if exec.unscheduled entry.1 entry.2 then sweepEvent status reason entry.1 else [] }

def Execution.cancel_pending (exec : Execution) : Execution :=
  exec.mark_unscheduled_terminal .Cancelled "cancelled by caller"

/-- The dependents of a failed step, breadth first, past completed, running and terminal steps; also the grown terminal
    set. Every edge is followed once, so the number of edges bounds the rounds. -/
def skip_dependents (failed_id : String) (validated : ValidatedWorkflow β) (exec : Execution) :
    List String × Finset String :=
  let children := fun id => validated.dependents.getD id []
  let edges := (validated.topo_order.map fun id => (children id).length).sum
  collect (fun id => id ∈ exec.completed || id ∈ exec.running) children
    ((children failed_id).length + edges + 1) (children failed_id) exec.terminal []

def Execution.skipStep (failed_id : String) (exec : Execution) (skipped_id : String) : Execution :=
  { exec with
    journal := exec.journal.updateStep skipped_id fun state =>
      { state with status := .Skipped, error := some s!"dependency `{failed_id}` failed" }
    terminal := insert skipped_id exec.terminal
    events := exec.events ++ [.Skipped skipped_id s!"dependency `{failed_id}` failed"] }

/-! ### The rounds of the loop -/

/-- `order_index.get(id).copied().unwrap_or(usize::MAX)`. -/
def orderKey (positions : TreeMap String Nat) (id : String) : Nat := positions.getD id (2 ^ 64 - 1)

def ready_steps (validated : ValidatedWorkflow β) (exec : Execution) : List String :=
  (validated.topo_order.filter fun id =>
    !(id ∈ exec.terminal || id ∈ exec.running) &&
      (validated.dependencies.getD id []).all fun need => need ∈ exec.completed).insertionSort
    fun x y => orderKey (order_index validated.topo_order) x ≤ orderKey (order_index validated.topo_order) y

/-- A token set since the last look makes the loop abort. -/
def Execution.noticeCancel (exec : Execution) : Execution :=
  if exec.cancelled && !exec.aborting then
    ({ exec with aborting := true, had_failures := true } : Execution).cancel_pending
  else exec

/-- The head of the loop, up to the first step to start. -/
def Execution.loopTop (validated : ValidatedWorkflow β) (exec : Execution) : Execution :=
  let exec := exec.noticeCancel
  if exec.aborting then { exec with phase := .Starting [] }
  else { exec with phase := .Starting ((ready_steps validated exec).take exec.permits) }

/-- The step of the journal is marked running, and its new worktrees are
    recorded, before the write that precedes the dispatch. -/
def markRunning (journal : WorkflowJournal) (step : WorkflowPlanStep) (provisioned : List JournalWorktree) :
    WorkflowJournal :=
  let journal := journal.updateStep step.id fun state => { state with status := .Running, error := none }
  if step.isolation = .Worktree then
    journal.updateStep step.id fun state => { state with worktrees := state.worktrees ++ provisioned }
  else journal

/-- One round of the loop over the ready steps. -/
def Execution.startStep (plan : WorkflowPlan) (validated : ValidatedWorkflow β) (exec : Execution) (step_id : String)
    (rest : List String) (provisioned : List JournalWorktree) (outcome : JournalWrite) : Execution :=
  if exec.cancelled then
    { ({ exec with aborting := true, had_failures := true } : Execution).cancel_pending with phase := .Starting [] }
  else if exec.permits = 0 then { exec with phase := .Starting [] }
  else
    match (step_by_id plan)[step_id]?, validated.resolved_targets[step_id]? with
    | some step, some _ =>
      match render_template_inner step.prompt_template plan.name exec.journal.vars exec.journal.steps with
      | .error error => { exec with permits := exec.permits - 1, phase := .Errored error }
      | .ok _ =>
        ({ exec with permits := exec.permits - 1, journal :=
          markRunning exec.journal step provisioned } : Execution).write
          outcome fun exec =>
            { exec with
              events := exec.events ++ [.Started step_id]
              running := insert step_id exec.running
              futures := exec.futures ++ [step_id]
              phase := .Starting rest }
    | _, _ => { exec with permits := exec.permits - 1, phase := .Panicked }

def applySettlements (worktrees : List JournalWorktree) (settlements : List (Nat × WorktreeSettlement)) :
    List JournalWorktree :=
  settlements.foldl (fun worktrees entry => worktrees.modify entry.1 fun worktree => worktree.apply entry.2) worktrees

/-- A future finished: it gives its permit back and its worktrees are settled. -/
def Execution.collectFinished (exec : Execution) (finished : FinishedStep) : Execution :=
  { exec with
    futures := exec.futures.erase finished.step_id
    permits := exec.permits + 1
    running := exec.running.erase finished.step_id
    journal := exec.journal.updateStep finished.step_id fun state =>
      { state with worktrees := applySettlements state.worktrees finished.settlements } }

def Execution.recordSuccess (exec : Execution) (step_id : String) (run_ids : List String) (output : Option String)
    (outputs : Option (List JournalTargetOutput)) : Execution :=
  { exec with
    completed := insert step_id exec.completed
    terminal := insert step_id exec.terminal
    journal := exec.journal.updateStep step_id fun state =>
      { state with status := .Success, run_ids := run_ids, output := output, outputs := outputs, error := none } }

def Execution.recordFailure (exec : Execution) (step_id : String) (run_ids : List String) (output : Option String)
    (outputs : Option (List JournalTargetOutput)) (error : String) (cancelled : Bool) : Execution :=
  { exec with
    had_failures := true
    terminal := insert step_id exec.terminal
    aborting := exec.aborting || cancelled
    journal := exec.journal.updateStep step_id fun state =>
      { state with
        status := if cancelled then .Cancelled else .Failed
        run_ids := run_ids, output := output, outputs := outputs, error := some error } }

/-- The policy of a step; an unknown step aborts. -/
def onErrorOf (plan : WorkflowPlan) (step_id : String) : OnError :=
  (((step_by_id plan)[step_id]?).map WorkflowPlanStep.on_error).getD .Abort

/-- What a failed step does to the steps that have not been started. -/
def Execution.settleFailure (plan : WorkflowPlan) (validated : ValidatedWorkflow β) (exec : Execution)
    (step_id : String) (cancelled : Bool) : Execution :=
  if cancelled || onErrorOf plan step_id = .Abort then
    ({ exec with aborting := true } : Execution).mark_unscheduled_terminal
      (if cancelled then .Cancelled else .Skipped)
      (if cancelled then "cancelled by caller" else "workflow aborted after failed step")
  else
    let (skipped,terminal) := skip_dependents step_id validated exec
    skipped.foldl (Execution.skipStep step_id) { exec with terminal := terminal }

def Execution.completeStep (plan : WorkflowPlan) (validated : ValidatedWorkflow β) (exec : Execution)
    (finished : FinishedStep) (outcome : JournalWrite) : Execution :=
  let exec := exec.collectFinished finished
  match finished.result with
  | .Succeeded run_ids output outputs =>
    (exec.recordSuccess finished.step_id run_ids output outputs).write outcome fun exec =>
      { exec.emit (.Succeeded finished.step_id finished.duration) with phase := .LoopTop }
  | .Failed run_ids output outputs error cancelled =>
    let exec := exec.recordFailure finished.step_id run_ids output outputs error cancelled
    (exec.settleFailure plan validated finished.step_id cancelled).write outcome fun exec =>
      { exec.emit (if cancelled then .Cancelled finished.step_id finished.duration
          else .Failed finished.step_id finished.duration error) with phase := .LoopTop }

/-! ### The end of a run -/

/-- The run status, once no step is running. -/
def Execution.final_status (exec : Execution) : WorkflowRunStatus :=
  if exec.cancelled then .Cancelled
  else if exec.journal.anyStatus (· = .Cancelled) then .Cancelled
  else if exec.aborting && exec.journal.anyStatus (· = .Failed) then .Failed
  else if exec.had_failures || exec.journal.anyStatus fun status => status = .Failed ∨ status = .Skipped then
    .CompletedWithFailures
  else .Completed

/-- A token set by now sweeps once more. -/
def Execution.finalSweep (exec : Execution) : Execution :=
  if exec.cancelled then exec.mark_unscheduled_terminal .Cancelled "cancelled by caller" else exec
def Execution.stamp (exec : Execution) (status : WorkflowRunStatus) : Execution :=
  { exec with journal := { exec.journal with status := status } }
def Execution.finishRun (exec : Execution) (outcome : JournalWrite) : Execution :=
  (exec.finalSweep.stamp exec.final_status).write outcome fun exec => { exec with phase := .Returned }

/-! ### Transitions and runs -/

inductive Input where
  | Cancel
  | Advance (provisioned : List JournalWorktree) (outcome : JournalWrite)
  | Finish (finished : FinishedStep) (outcome : JournalWrite)
deriving DecidableEq, Repr

/-- One transition; `none` when the input cannot occur in this state. -/
def Execution.step (plan : WorkflowPlan) (validated : ValidatedWorkflow β) (exec : Execution) : Input → Option Execution
  | .Cancel => some { exec with cancelled := true }
  | .Advance provisioned outcome =>
    match exec.phase with
    | .LoopTop => some (exec.loopTop validated)
    | .Starting (step_id :: rest) => some (exec.startStep plan validated step_id rest provisioned outcome)
    | .Starting [] => some { exec with phase := if exec.running = ∅ then .Finishing else .Waiting }
    | .Waiting => if exec.futures = [] then some { exec with phase := .Finishing } else none
    | .Finishing => some (exec.finishRun outcome)
    | .Returned | .Errored _ | .Panicked => none
  | .Finish finished outcome =>
    if exec.phase = .Waiting ∧ finished.step_id ∈ exec.futures then
      some (exec.completeStep plan validated finished outcome)
    else none

/-- The run that a list of inputs makes. -/
def Execution.run (plan : WorkflowPlan) (validated : ValidatedWorkflow β) (exec : Execution) (inputs : List Input) :
    Option Execution :=
  inputs.foldlM (fun exec input => exec.step plan validated input) exec

/-! ### Starting journals -/

def new_with_plan (plan : WorkflowPlan) (vars : TreeMap String String) : WorkflowJournal where
  vars := vars
  status := .Running
  steps := plan.steps.foldl (fun steps step => steps.insert step.id .pending) ∅

/-- The check of `run_prepared_plan_from_journal`. -/
def isPristine (plan : WorkflowPlan) (journal : WorkflowJournal) : Bool :=
  let expected_steps := planIds plan.steps
  journal.status = .Running && journal.steps.size == expected_steps.size &&
    journal.steps.toList.all fun entry =>
      expected_steps.contains entry.1 && entry.2.status = .Pending && entry.2.run_ids.isEmpty &&
        entry.2.output.isNone && entry.2.outputs.isNone && entry.2.error.isNone && entry.2.worktrees.isEmpty

/-- Copies the successful, dependency-closed steps at the front of the topological order; also the copied ids. -/
def copyReplayLoop (source : WorkflowJournal) (plan : WorkflowPlan) :
    List String → TreeSet String → WorkflowJournal → List String → Except WorkflowError (WorkflowJournal × List String)
  | [], _, target, reused_ids => .ok (target,reused_ids)
  | id :: rest, reused, target, reused_ids =>
    match (step_by_id plan)[id]? with
    | none => .error (.Validation ["workflow replay validation returned an unknown step"])
    | some plan_step =>
      match source.steps[id]? with
      | none => .error (.Validation ["workflow replay source is missing a planned step"])
      | some source_step =>
        let dependency_closed := plan_step.needs.all reused.contains
        let fan_out_all_succeeded := source_step.outputs.all fun outputs =>
          !outputs.isEmpty && outputs.all JournalTargetOutput.ok
        if source_step.status ≠ .Success || source_step.error.isSome || !dependency_closed ||
          !fan_out_all_succeeded then
          .ok (target,reused_ids)
        else
          copyReplayLoop source plan rest (reused.insert id)
            { target with steps := target.steps.insert id source_step } (reused_ids ++ [id])
def copy_replay_prefix (source : WorkflowJournal) (plan : WorkflowPlan) (validated : ValidatedWorkflow β)
    (target : WorkflowJournal) : Except WorkflowError (WorkflowJournal × List String) :=
  copyReplayLoop source plan validated.topo_order ∅ target []

/-- What `resume_plan_from_journal` does to the journal before `execute`. -/
def resetForResume (plan : WorkflowPlan) (journal : WorkflowJournal) : WorkflowJournal :=
  { journal with
    status := .Running
    steps := plan.steps.foldl (fun steps step => steps.insertIfNew step.id .pending)
      (journal.steps.map fun _ step => step.reset_for_rerun) }

/-- The journals from which the engine executes a plan: a pristine one, one that a replay filled, and the file that any
    earlier execution of the plan left behind, at whatever point it stopped, after the reset of a resume. -/
inductive Admissible (digests : PlanDigests) (plan : WorkflowPlan) : WorkflowJournal → Prop where
  | pristine (journal : WorkflowJournal) (checked : isPristine plan journal = true) : Admissible digests plan journal
  | replayed {β : Type} (resolver : TargetResolver β) (validated : ValidatedWorkflow β)
      (source target : WorkflowJournal) (reused : List String)
      (accepted : validate_plan digests plan source.vars resolver = .ok validated)
      (copied : copy_replay_prefix source plan validated (new_with_plan plan source.vars) = .ok (target,reused)) :
      Admissible digests plan target
  | resumed {β : Type} (resolver : TargetResolver β) (validated : ValidatedWorkflow β)
      (journal : WorkflowJournal) (inputs : List Input) (exec : Execution)
      (earlier : Admissible digests plan journal)
      (accepted : validate_plan digests plan journal.vars resolver = .ok validated)
      (ran : (Execution.start plan journal).run plan validated inputs = some exec) :
      Admissible digests plan (resetForResume plan exec.persisted)

end Vyane.Workflows
