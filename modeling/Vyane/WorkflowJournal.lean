import Vyane.Text

/-!
The workflow journal (`journal.rs`, `worktree.rs`), one record for each step. Identity, digests and times of a journal
are read by no function modelled here and are left out.
-/
namespace Vyane.Workflows
open Std

/-- The errors the modelled workflow functions return. -/
inductive WorkflowError where
  | InvalidWorkflowPlan (reason : String)
  | Validation (problems : List String)
  | WriteJournal
deriving DecidableEq, Repr

inductive WorkflowRunStatus where
  | Running
  | Completed
  | CompletedWithFailures
  | Failed
  | Cancelled
deriving DecidableEq, Repr

inductive JournalStepStatus where
  | Pending
  | Running
  | Success
  | Failed
  | Skipped
  | Cancelled
deriving DecidableEq, Repr

def JournalStepStatus.is_terminal : JournalStepStatus → Bool
  | .Success | .Failed | .Skipped | .Cancelled => true
  | .Pending | .Running => false

inductive WorktreeDisposition where
  | Active
  | Removed
  | Kept
  | CleanupFailed
deriving DecidableEq, Repr

inductive WorktreeKeptReason where
  | Dirty
  | Committed
  | UnknownState
deriving DecidableEq, Repr

/-- Result of settling one worktree. -/
structure WorktreeSettlement where
  disposition : WorktreeDisposition
  kept_reason : Option WorktreeKeptReason
  head_sha : Option String
deriving DecidableEq, Repr

/-- Journal record of one isolated target attempt. -/
structure JournalWorktree where
  target : String
  attempt : Nat
  branch : String
  path : String
  base_sha : String
  head_sha : Option String
  disposition : WorktreeDisposition
  kept_reason : Option WorktreeKeptReason
deriving DecidableEq, Repr

/-- Records a settlement outcome. -/
def JournalWorktree.apply (worktree : JournalWorktree) (settlement : WorktreeSettlement) : JournalWorktree :=
  { worktree with
    disposition := settlement.disposition
    kept_reason := settlement.kept_reason
    head_sha := if settlement.head_sha.isSome then settlement.head_sha else worktree.head_sha }
def JournalWorktree.may_hold_work (worktree : JournalWorktree) : Bool :=
  worktree.disposition != .Removed
/-- An unsettled entry left by a crash is kept, never removed. -/
def JournalWorktree.keep_if_active (worktree : JournalWorktree) : JournalWorktree :=
  if worktree.disposition = .Active then
    { worktree with disposition := .Kept, kept_reason := some .UnknownState }
  else worktree

structure JournalTargetOutput where
  target : String
  ok : Bool
  output : Option String
deriving DecidableEq, Repr

structure JournalStep where
  status : JournalStepStatus
  run_ids : List String
  output : Option String
  outputs : Option (List JournalTargetOutput)
  error : Option String
  worktrees : List JournalWorktree
deriving DecidableEq, Repr

def JournalStep.pending : JournalStep :=
  { status := .Pending, run_ids := [], output := none, outputs := none, error := none, worktrees := [] }

/-- A successful step is kept; any other becomes pending again and remembers the worktrees that may still hold work. -/
def JournalStep.reset_for_rerun (step : JournalStep) : JournalStep :=
  if step.status = .Success then step
  else
    { JournalStep.pending with
      worktrees := (step.worktrees.filter JournalWorktree.may_hold_work).map JournalWorktree.keep_if_active }

structure WorkflowJournal where
  vars : TreeMap String String
  status : WorkflowRunStatus
  steps : TreeMap String JournalStep

/-- The recorded status of a step, if the journal has the step. -/
def WorkflowJournal.statusOf (journal : WorkflowJournal) (id : String) : Option JournalStepStatus :=
  (journal.steps[id]?).map JournalStep.status
/-- `journal.steps.values().any(..)` on the recorded statuses. -/
def WorkflowJournal.anyStatus (journal : WorkflowJournal) (test : JournalStepStatus → Bool) : Bool :=
  journal.steps.toList.any fun entry => test entry.2.status
/-- `if let Some(state) = journal.steps.get_mut(id)` followed by an update. -/
def WorkflowJournal.updateStep (journal : WorkflowJournal) (id : String) (update : JournalStep → JournalStep) :
    WorkflowJournal :=
  { journal with steps := journal.steps.modify id update }

theorem reset_status (step : JournalStep) :
    step.reset_for_rerun.status = if step.status = .Success then .Success else .Pending := by
  unfold JournalStep.reset_for_rerun
  split_ifs with success
  · exact success
  · rfl

theorem statusOf_updateStep (journal : WorkflowJournal) (id other : String) (update : JournalStep → JournalStep) :
    (journal.updateStep id update).statusOf other =
      if id = other then (journal.steps[id]?).map (fun step => (update step).status) else journal.statusOf other := by
  simp only [WorkflowJournal.statusOf,WorkflowJournal.updateStep,TreeMap.getElem?_modify,Std.compare_eq_iff_eq]
  split_ifs with same
  · simp [Option.map_map,Function.comp_def]
  · rfl

theorem anyStatus_iff (journal : WorkflowJournal) (test : JournalStepStatus → Bool) :
    journal.anyStatus test = true ↔ ∃ id status, journal.statusOf id = some status ∧ test status = true := by
  simp only [WorkflowJournal.anyStatus,WorkflowJournal.statusOf,List.any_eq_true]
  constructor
  · rintro ⟨⟨id,step⟩,listed,holds⟩
    exact ⟨id,step.status,by simp [TreeMap.mem_toList_iff_getElem?_eq_some.mp listed],holds⟩
  · rintro ⟨id,status,found,holds⟩
    obtain ⟨step,stored,rfl⟩ := Option.map_eq_some_iff.mp found
    exact ⟨(id,step),TreeMap.mem_toList_iff_getElem?_eq_some.mpr stored,holds⟩

end Vyane.Workflows
