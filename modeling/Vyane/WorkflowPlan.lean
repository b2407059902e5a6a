import Vyane.Graphs
import Vyane.WorkflowTemplate

/-!
The materialized execution plan and its own check (`plan.rs`, `worktree.rs`). `verify` reports all problems in the order
in which the source finds them. Sums are unbounded here: the source adds with saturation, which cannot change a
comparison with the limits below.
-/
namespace Vyane.Workflows
open Std Text Graphs

inductive Sandbox where
  | ReadOnly
  | Write
  | Full
deriving DecidableEq, Repr
inductive Effort where
  | Low
  | Medium
  | High
  | Xhigh
deriving DecidableEq, Repr
inductive WorkflowIsolation where
  | None
  | Worktree
deriving DecidableEq, Repr
inductive OnError where
  | Abort
  | Continue
deriving DecidableEq, Repr

inductive WorkflowPlanTargets where
  | Single (target : String)
  | FanOut (targets : List String)
deriving DecidableEq, Repr

def WorkflowPlanTargets.target_names : WorkflowPlanTargets → List String
  | .Single target => [target]
  | .FanOut targets => targets
def WorkflowPlanTargets.is_fan_out : WorkflowPlanTargets → Bool
  | .Single _ => false
  | .FanOut _ => true

/-- Routing hints; the plan and the frontend model carry the same fields. -/
structure WorkflowRouteHints where
  stage : Option String
  tier : Option String
  tags : List String
  candidates : List String
  allow_frontier : Option Bool
  effort : Option Effort
deriving DecidableEq, Repr

def WorkflowRouteHints.is_empty (route : WorkflowRouteHints) : Bool :=
  route.stage.isNone && route.tier.isNone && route.tags.isEmpty && route.candidates.isEmpty &&
    route.allow_frontier.isNone && route.effort.isNone
structure WorkflowPlanDuration where
  secs : UInt64
  nanos : UInt32
deriving DecidableEq, Repr

/-- `to_duration().is_err()`. -/
def WorkflowPlanDuration.isInvalid (duration : WorkflowPlanDuration) : Bool := 1000000000 ≤ duration.nanos
/-- The derived order: seconds first. -/
def WorkflowPlanDuration.le (x y : WorkflowPlanDuration) : Bool :=
  x.secs < y.secs || (x.secs == y.secs && x.nanos ≤ y.nanos)

structure WorkflowPlanStep where
  order : UInt32
  id : String
  needs : List String
  targets : WorkflowPlanTargets
  prompt_template : String
  system : Option String
  workdir : Option String
  sandbox : Sandbox
  isolation : WorkflowIsolation
  isolation_base : Option String
  timeout : Option WorkflowPlanDuration
  on_error : OnError
  route : WorkflowRouteHints
deriving DecidableEq, Repr

structure WorkflowCapabilityManifest where
  maximum_sandbox : Sandbox
  uses_explicit_workdir : Bool
  uses_fan_out : Bool
  has_route_hints : Bool
  maximum_timeout : Option WorkflowPlanDuration
deriving DecidableEq, Repr

structure WorkflowPlan where
  schema_version : UInt32
  name : String
  description : Option String
  max_concurrency : UInt32
  source_sha256 : String
  capability_manifest : WorkflowCapabilityManifest
  steps : List WorkflowPlanStep
  plan_sha256 : String
deriving DecidableEq, Repr

def WORKFLOW_PLAN_SCHEMA_V1 : UInt32 := 1
def WORKFLOW_PLAN_MAX_STEPS : Nat := 4096
def WORKFLOW_PLAN_MAX_NAME_BYTES : Nat := 1024
def WORKFLOW_PLAN_MAX_DESCRIPTION_BYTES : Nat := 64 * 1024
def WORKFLOW_PLAN_MAX_STEP_ID_BYTES : Nat := 1024
def WORKFLOW_PLAN_MAX_NEEDS : Nat := 1024
def WORKFLOW_PLAN_MAX_DEPENDENCY_EDGES : Nat := 16384
def WORKFLOW_PLAN_MAX_TARGETS : Nat := 256
def WORKFLOW_PLAN_MAX_TOTAL_TARGETS : Nat := 16384
def WORKFLOW_PLAN_MAX_ROUTE_VALUES : Nat := 256
def WORKFLOW_PLAN_MAX_TOTAL_ROUTE_VALUES : Nat := 16384
def WORKFLOW_PLAN_MAX_TARGET_BYTES : Nat := 4096
def WORKFLOW_PLAN_MAX_PROMPT_BYTES : Nat := 4 * 1024 * 1024
def WORKFLOW_PLAN_MAX_SYSTEM_BYTES : Nat := 1024 * 1024
def WORKFLOW_PLAN_MAX_WORKDIR_BYTES : Nat := 4096
def WORKFLOW_PLAN_MAX_TOTAL_BYTES : Nat := 16 * 1024 * 1024
def WORKTREE_BASE_MAX_BYTES : Nat := 256
def MAX_TEMPLATE_ANCESTOR_RELATIONS : Nat := 65536
/-- `tokio::sync::Semaphore::MAX_PERMITS` on a 64-bit target: `usize::MAX >> 3`. -/
def MAX_PERMITS : Nat := 2305843009213693951

/-! ### Checks on single fields -/

/-- The message, or nothing when the check passed. -/
def problemIf (failed : Bool) (text : String) : List String := if failed then [text] else []
@[simp] theorem problemIf_eq_nil (failed : Bool) (text : String) : problemIf failed text = [] ↔ failed = false := by
  cases failed <;> simp [problemIf]

def validate_isolation_base (base : String) : Option String :=
  if isBlank base then some "is empty"
  else if WORKTREE_BASE_MAX_BYTES < base.utf8ByteSize then some "exceeds 256 bytes"
  else if base.toList.head? = some '-' then some "must not start with `-`"
  else if base.toList.any is_control then some "contains a control character"
  else none

/-- Static isolation problems for one step, shared by every validator. -/
def isolation_problems (step_id : String) (sandbox : Sandbox) (isolation : WorkflowIsolation)
    (isolation_base : Option String) : List String :=
  problemIf (isolation = .Worktree ∧ sandbox = .ReadOnly)
    (s!"step `{step_id}` sets `isolation = \"worktree\"` with a read-only sandbox; worktree isolation " ++
      "requires `sandbox = \"write\"` or `\"full\"`") ++
  match isolation_base with
  | none => []
  | some base =>
    problemIf (isolation ≠ .Worktree)
      s!"step `{step_id}` sets `isolation_base` without `isolation = \"worktree\"`" ++
    match validate_isolation_base base with
    | none => []
    | some reason => [s!"step `{step_id}` `isolation_base` {reason}"]

def validate_text (label value : String) (min max : Nat) : List String :=
  problemIf (value.utf8ByteSize < min ∨ max < value.utf8ByteSize)
    s!"{label} byte length must be between {min} and {max}"
def routeTextInvalid (value : String) : Bool :=
  isBlank value || WORKFLOW_PLAN_MAX_TARGET_BYTES < value.utf8ByteSize

def validate_route (step_id : String) (route : WorkflowRouteHints) : List String :=
  problemIf (route.stage.any routeTextInvalid) s!"workflow plan step `{step_id}` route stage is empty or oversized" ++
  problemIf (route.tier.any routeTextInvalid) s!"workflow plan step `{step_id}` route tier is empty or oversized" ++
  problemIf (WORKFLOW_PLAN_MAX_ROUTE_VALUES < route.tags.length ∨
      WORKFLOW_PLAN_MAX_ROUTE_VALUES < route.candidates.length)
    s!"workflow plan step `{step_id}` route list exceeds {WORKFLOW_PLAN_MAX_ROUTE_VALUES} entries" ++
  (route.tags ++ route.candidates).flatMap fun value =>
    problemIf (routeTextInvalid value) s!"workflow plan step `{step_id}` route value is empty or oversized"

def validateTarget (step_id target : String) : List String :=
  validate_text "workflow target" target 1 WORKFLOW_PLAN_MAX_TARGET_BYTES ++
  problemIf (isBlank target) s!"workflow plan step `{step_id}` has an empty target"

def validateWorkdir (step_id workdir : String) : List String :=
  validate_text "workflow workdir" workdir 1 WORKFLOW_PLAN_MAX_WORKDIR_BYTES ++
  if containsNul workdir then [s!"workflow plan step `{step_id}` workdir contains NUL"]
  else problemIf (workdir.toList.any is_control) s!"workflow plan step `{step_id}` workdir contains a control character"

def fanOutCountInvalid : WorkflowPlanTargets → Bool
  | .Single _ => false
  | .FanOut targets => targets.isEmpty || WORKFLOW_PLAN_MAX_TARGETS < targets.length

/-- What one round of the loop of `verify` reports. `seen` holds the ids of the earlier steps. -/
def planStepProblems (seen : TreeSet String) (order : Nat) (step : WorkflowPlanStep) : List String :=
  let id := step.id
  let stored := step.order
  isolation_problems id step.sandbox step.isolation step.isolation_base ++
  problemIf (step.order.toNat ≠ order) s!"workflow plan step `{id}` has order {stored}, expected {order}" ++
  validate_text "workflow step id" id 1 WORKFLOW_PLAN_MAX_STEP_ID_BYTES ++
  problemIf (isBlank id) s!"workflow plan step at order {order} is missing required id" ++
  problemIf (seen.contains id) s!"workflow plan repeats step id `{id}`" ++
  problemIf (WORKFLOW_PLAN_MAX_NEEDS < step.needs.length)
    s!"workflow plan step `{id}` exceeds dependency limit {WORKFLOW_PLAN_MAX_NEEDS}" ++
  (step.needs.flatMap fun need =>
    validate_text "workflow dependency id" need 1 WORKFLOW_PLAN_MAX_STEP_ID_BYTES) ++
  step.targets.target_names.flatMap (validateTarget id) ++
  problemIf (fanOutCountInvalid step.targets)
    s!"workflow plan step `{id}` fan_out count must be between 1 and {WORKFLOW_PLAN_MAX_TARGETS}" ++
  problemIf (step.targets.is_fan_out && !step.route.is_empty)
    s!"workflow plan step `{id}` cannot apply route hints to fan_out" ++
  validate_text "workflow prompt template" step.prompt_template 0 WORKFLOW_PLAN_MAX_PROMPT_BYTES ++
  (step.system.toList.flatMap fun system =>
    validate_text "workflow system prompt" system 0 WORKFLOW_PLAN_MAX_SYSTEM_BYTES) ++
  step.workdir.toList.flatMap (validateWorkdir id) ++
  problemIf (step.timeout.any WorkflowPlanDuration.isInvalid)
    s!"workflow plan step `{id}` timeout nanos must be less than 1000000000" ++
  validate_route id step.route

def planStepsProblems : TreeSet String → Nat → List WorkflowPlanStep → List String
  | _, _, [] => []
  | seen, order, step :: rest =>
    planStepProblems seen order step ++ planStepsProblems (seen.insert step.id) (order + 1) rest

def optionalBytes (text : Option String) : Nat := (text.map String.utf8ByteSize).getD 0
/-- The string content one step adds to the total. -/
def WorkflowPlanStep.bytes (step : WorkflowPlanStep) : Nat :=
  step.id.utf8ByteSize + step.prompt_template.utf8ByteSize + optionalBytes step.system +
    optionalBytes step.workdir + optionalBytes step.isolation_base +
    (step.needs.map String.utf8ByteSize).sum + (step.targets.target_names.map String.utf8ByteSize).sum +
    optionalBytes step.route.stage + optionalBytes step.route.tier +
    (step.route.tags.map String.utf8ByteSize).sum + (step.route.candidates.map String.utf8ByteSize).sum
def WorkflowPlan.total_bytes (plan : WorkflowPlan) : Nat :=
  plan.name.utf8ByteSize + optionalBytes plan.description + plan.source_sha256.utf8ByteSize +
    plan.plan_sha256.utf8ByteSize + (plan.steps.map WorkflowPlanStep.bytes).sum
def WorkflowRouteHints.valueCount (route : WorkflowRouteHints) : Nat :=
  route.tags.length + route.candidates.length + route.stage.toList.length + route.tier.toList.length

/-! ### The dependency graph of a plan -/

/-- What happens to one entry of a step's `needs`: a problem, or an edge. -/
inductive NeedOutcome where
  | Repeated
  | OnItself
  | UnknownStep
  | Edge
deriving DecidableEq, Repr

/-- The needs of a step in order, each with its outcome. -/
def classifyNeeds (ids : TreeSet String) (id : String) : TreeSet String → List String → List (String × NeedOutcome)
  | _, [] => []
  | seen, need :: rest =>
    let outcome :=
      if seen.contains need then NeedOutcome.Repeated
      else if need = id then .OnItself
      else if ids.contains need then .Edge
      else .UnknownStep
    (need,outcome) :: classifyNeeds ids id (seen.insert need) rest

def needProblem (id need : String) : NeedOutcome → List String
  | .Repeated => [s!"workflow plan step `{id}` repeats dependency `{need}`"]
  | .OnItself => [s!"workflow plan step `{id}` cannot depend on itself"]
  | .UnknownStep => [s!"workflow plan step `{id}` needs unknown step `{need}`"]
  | .Edge => []

/-- The edges that `validate_graph` and `step_reference_ancestors` build. -/
def planEdges (ids : TreeSet String) (steps : List WorkflowPlanStep) : List (String × String) :=
  steps.flatMap fun step =>
    ((classifyNeeds ids step.id ∅ step.needs).filter fun entry => entry.2 = .Edge).map fun entry =>
      (step.id,entry.1)

def planIds (steps : List WorkflowPlanStep) : TreeSet String :=
  steps.foldl (fun ids step => ids.insert step.id) ∅

theorem mem_planIds (steps : List WorkflowPlanStep) (id : String) :
    id ∈ planIds steps ↔ id ∈ steps.map WorkflowPlanStep.id := by
  have general : ∀ ids : TreeSet String, id ∈ steps.foldl (fun ids step => ids.insert step.id) ids ↔
      id ∈ ids ∨ id ∈ steps.map WorkflowPlanStep.id := by
    induction steps with
    | nil => simp
    | cons head tail ih =>
      intro ids
      rw [List.foldl_cons,ih]
      simp only [TreeSet.mem_insert,Std.compare_eq_iff_eq,List.map_cons,List.mem_cons]
      constructor
      · rintro ((rfl | old) | later)
        · exact Or.inr (Or.inl rfl)
        · exact Or.inl old
        · exact Or.inr (Or.inr later)
      · rintro (old | rfl | later)
        · exact Or.inl (Or.inr old)
        · exact Or.inl (Or.inl rfl)
        · exact Or.inr later
  simpa [planIds] using general ∅

def cycleProblem : String := "workflow plan dependency graph contains a cycle"

/-- Ready nodes are popped from the end of a vector, so the list holds them in reverse. -/
def validate_graph (steps : List WorkflowPlanStep) (ids : TreeSet String) : List String :=
  let graph := Adjacency.ofEdges ids.toList (planEdges ids steps)
  let visited := drain (fun ready node => node :: ready) graph.childrenOf ids.size ⟨graph.degree,
    graph.leaves.reverse,[]⟩
  (steps.flatMap fun step =>
    (classifyNeeds ids step.id ∅ step.needs).flatMap fun entry => needProblem step.id entry.1 entry.2) ++
  problemIf (visited.order.length ≠ ids.size) cycleProblem

/-- Adds an ancestor and counts it unless the set has it; `none` when the budget for relations is used up. -/
def countRelation (state : TreeSet String × Nat) (ancestor : String) : Option (TreeSet String × Nat) :=
  if state.1.contains ancestor then some state
  else if state.2 = MAX_TEMPLATE_ANCESTOR_RELATIONS then none
  else some (state.1.insert ancestor,state.2 + 1)

/-- The ancestors of every step, taken in topological order. -/
def transitive_needs (topo_order : List String) (dependencies : String → List String) :
    Option (TreeMap String (TreeSet String)) :=
  (topo_order.foldlM
    (fun (state : TreeMap String (TreeSet String) × Nat) id => do
      let (ancestors,relations) ← (dependencies id).foldlM
        (fun (state' : TreeSet String × Nat) need => do
          let counted ← countRelation state' need
          (state.1.getD need ∅).toList.foldlM countRelation counted) (∅,state.2)
      some (state.1.insert id ancestors,relations)) (∅,0)).map Prod.fst

inductive StepReferenceGraph where
  | Cyclic
  | OverBudget
  | Ready (ancestors : TreeMap String (TreeSet String))

def step_reference_ancestors (steps : List WorkflowPlanStep) : StepReferenceGraph :=
  let ids := planIds steps
  let graph := Adjacency.ofEdges ids.toList (planEdges ids steps)
  let sorted := drain (fun ready node => ready ++ [node]) graph.childrenOf ids.size ⟨graph.degree,graph.leaves,[]⟩
  if sorted.order.length ≠ ids.size then .Cyclic
  else
    match transitive_needs sorted.order graph.needsOf with
    | none => .OverBudget
    | some ancestors => .Ready ancestors

def referenceProblem (steps : List WorkflowPlanStep) (available : TreeSet String) (owner : String)
    (reference : ReferencedStep) : List String :=
  let step := reference.step
  if !available.contains step then
    [s!"step `{owner}` references `{step}` but it is not in its transitive needs"]
  else
    match steps.find? fun candidate => candidate.id = step with
    | none => [s!"step `{owner}` references unknown step `{step}`"]
    | some referenced =>
      if referenced.targets.is_fan_out && !reference.fan_out then
        [s!"step `{owner}` references fan_out step `{step}` with `.output`; use `.outputs`"]
      else if !referenced.targets.is_fan_out && reference.fan_out then
        [s!"step `{owner}` references single-target step `{step}` with `.outputs`; use `.output`"]
      else []

/-- `problems` are those found before; a cycle is reported once. -/
def reject_invalid_step_references (steps : List WorkflowPlanStep) (problems : List String) : List String :=
  if steps.all fun step => (step_placeholders step.prompt_template).isEmpty then []
  else
    match step_reference_ancestors steps with
    | .Cyclic => problemIf (!problems.contains cycleProblem) cycleProblem
    | .OverBudget => [s!"workflow template ancestor relations exceed {MAX_TEMPLATE_ANCESTOR_RELATIONS}"]
    | .Ready ancestors => steps.flatMap fun step =>
        (step_placeholders step.prompt_template).flatMap
          (referenceProblem steps (ancestors.getD step.id ∅) step.id)

/-! ### The whole check -/

def sandbox_rank : Sandbox → Nat
  | .ReadOnly => 0
  | .Write => 1
  | .Full => 2

def WorkflowCapabilityManifest.from_steps (steps : List WorkflowPlanStep) : WorkflowCapabilityManifest where
  maximum_sandbox := (steps.map WorkflowPlanStep.sandbox).foldl
    (fun best sandbox => if sandbox_rank best ≤ sandbox_rank sandbox then sandbox else best) .ReadOnly
  uses_explicit_workdir := steps.any fun step => step.workdir.isSome
  uses_fan_out := steps.any fun step => step.targets.is_fan_out
  has_route_hints := steps.any fun step => !step.route.is_empty
  maximum_timeout := (steps.filterMap WorkflowPlanStep.timeout).foldl
    (fun best timeout => match best with
      | none => some timeout
      | some longest => if longest.le timeout then some timeout else some longest) none

/-- What the plan digest covers: everything but the digest itself. -/
structure DigestView where
  schema_version : UInt32
  name : String
  description : Option String
  max_concurrency : UInt32
  source_sha256 : String
  capability_manifest : WorkflowCapabilityManifest
  steps : List WorkflowPlanStep
deriving DecidableEq, Repr

/-- `serde_json::to_vec` on a digest view and the SHA-256 function. -/
structure PlanDigests where
  to_vec : DigestView → Except String Bytes
  sha256 : Bytes → Bytes
/-- `b"vyane.workflow.plan\0v1\0"`. -/
def PLAN_DIGEST_DOMAIN : Bytes :=
  "vyane.workflow.plan".toUTF8.toList ++ [0] ++ "v1".toUTF8.toList ++ [0]

def WorkflowPlan.compute_digest (digests : PlanDigests) (plan : WorkflowPlan) : Except WorkflowError String :=
  match digests.to_vec ⟨plan.schema_version,plan.name,plan.description,plan.max_concurrency,plan.source_sha256,
      plan.capability_manifest,plan.steps⟩ with
  | .error reason => .error (.InvalidWorkflowPlan reason)
  | .ok bytes => .ok (hex_lower (digests.sha256 (PLAN_DIGEST_DOMAIN ++ be_bytes bytes.length ++ bytes)))

/-- The problems `verify` finds before it looks at the steps. -/
def WorkflowPlan.headerProblems (plan : WorkflowPlan) : List String :=
  let version := plan.schema_version
  problemIf (plan.schema_version ≠ WORKFLOW_PLAN_SCHEMA_V1)
    s!"unsupported workflow plan schema version {version}; expected {WORKFLOW_PLAN_SCHEMA_V1}" ++
  validate_text "workflow name" plan.name 1 WORKFLOW_PLAN_MAX_NAME_BYTES ++
  problemIf (isBlank plan.name) "workflow name is required" ++
  (plan.description.toList.flatMap fun description =>
    validate_text "workflow description" description 0 WORKFLOW_PLAN_MAX_DESCRIPTION_BYTES) ++
  problemIf (plan.max_concurrency = 0 ∨ MAX_PERMITS < plan.max_concurrency.toNat)
    s!"workflow plan max_concurrency must be between 1 and {MAX_PERMITS}" ++
  problemIf (plan.steps.isEmpty ∨ WORKFLOW_PLAN_MAX_STEPS < plan.steps.length)
    s!"workflow plan step count must be between 1 and {WORKFLOW_PLAN_MAX_STEPS}" ++
  problemIf (!is_sha256 plan.source_sha256) "workflow plan source_sha256 must be lowercase SHA-256 hex"

/-- The problems it finds after the loop over the steps, up to the manifest. -/
def WorkflowPlan.totalProblems (plan : WorkflowPlan) : List String :=
  problemIf (WORKFLOW_PLAN_MAX_DEPENDENCY_EDGES < (plan.steps.map fun step => step.needs.length).sum)
    s!"workflow plan exceeds global dependency edge limit {WORKFLOW_PLAN_MAX_DEPENDENCY_EDGES}" ++
  problemIf (WORKFLOW_PLAN_MAX_TOTAL_TARGETS < (plan.steps.map fun step => step.targets.target_names.length).sum)
    s!"workflow plan exceeds global target limit {WORKFLOW_PLAN_MAX_TOTAL_TARGETS}" ++
  problemIf (WORKFLOW_PLAN_MAX_TOTAL_ROUTE_VALUES < (plan.steps.map fun step => step.route.valueCount).sum)
    s!"workflow plan exceeds global route value limit {WORKFLOW_PLAN_MAX_TOTAL_ROUTE_VALUES}" ++
  validate_graph plan.steps (planIds plan.steps) ++
  problemIf (WORKFLOW_PLAN_MAX_TOTAL_BYTES < plan.total_bytes)
    s!"workflow plan string content exceeds {WORKFLOW_PLAN_MAX_TOTAL_BYTES} bytes" ++
  problemIf (plan.capability_manifest ≠ .from_steps plan.steps)
    "workflow plan capability manifest does not match its steps"

/-- The problems of a plan apart from its digest. -/
def WorkflowPlan.contentProblems (plan : WorkflowPlan) : List String :=
  let earlier := plan.headerProblems ++ planStepsProblems ∅ 0 plan.steps ++ plan.totalProblems
  earlier ++ reject_invalid_step_references plan.steps earlier

def WorkflowPlan.verify (digests : PlanDigests) (plan : WorkflowPlan) : Except WorkflowError Unit :=
  match plan.contentProblems with
  | [] =>
    match plan.compute_digest digests with
    | .error error => .error error
    | .ok expected_digest =>
      if plan.plan_sha256 ≠ expected_digest then
        .error (.Validation ["workflow plan digest does not match canonical plan content"])
      else .ok ()
  | problems => .error (.Validation problems)

theorem verify_ok {digests : PlanDigests} {plan : WorkflowPlan} (accepted : plan.verify digests = .ok ()) :
    plan.contentProblems = [] := by
  unfold WorkflowPlan.verify at accepted
  cases found : plan.contentProblems with
  | nil => rfl
  | cons problem rest => simp [found] at accepted

/-- An accepted plan admits at least one step at a time. -/
theorem verify_max_concurrency {digests : PlanDigests} {plan : WorkflowPlan}
    (accepted : plan.verify digests = .ok ()) : 1 ≤ plan.max_concurrency.toNat := by
  have none := verify_ok accepted
  simp only [WorkflowPlan.contentProblems,List.append_eq_nil_iff] at none
  have header : plan.headerProblems = [] := none.1.1.1
  simp only [WorkflowPlan.headerProblems,List.append_eq_nil_iff,problemIf_eq_nil,decide_eq_false_iff_not,
    not_or] at header
  have nonzero : plan.max_concurrency ≠ 0 := header.1.1.2.1
  have : plan.max_concurrency.toNat ≠ 0 := fun zero => nonzero (UInt32.toNat.inj zero)
  omega

end Vyane.Workflows
