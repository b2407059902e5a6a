import Vyane.WorkflowPlan

/-!
Graph and target validation (`validate.rs`). What the resolver answers is a parameter.
-/
namespace Vyane.Workflows
open Std Text Graphs List
set_option linter.unusedSimpArgs false
variable {β : Type}

inductive StepTargets where
  | Single (target : String)
  | FanOut (targets : List String)
  | Both (target : String) (fan_out : List String)
  | Missing
deriving DecidableEq, Repr

structure WorkflowStep where
  index : Nat
  id : String
  needs : List String
  targets : StepTargets
  prompt : Option String
  prompt_file : Option String
  prompt_template : Option String
  sandbox : Sandbox
  isolation : WorkflowIsolation
  isolation_base : Option String
  route : WorkflowRouteHints
deriving DecidableEq, Repr

structure Workflow where
  name : String
  max_concurrency : Nat
  steps : List WorkflowStep
deriving DecidableEq, Repr

/-- The two methods of the resolver that validation calls; errors are given by their message. -/
structure TargetResolver (β : Type) where
  resolve_for_validation : String → Except String (Option (List β))
  validate_deferred : String → WorkflowRouteHints → Except String Unit
inductive ResolvedStepTargets (β : Type) where
  | Single (target : String) (chain : Option (List β))
  | FanOut (targets : List String) (chains : List (List β))
def ResolvedStepTargets.is_fan_out : ResolvedStepTargets β → Bool
  | .Single _ _ => false
  | .FanOut _ _ => true

structure ValidatedWorkflow (β : Type) where
  topo_order : List String
  dependents : TreeMap String (List String)
  dependencies : TreeMap String (List String)
  resolved_targets : TreeMap String (ResolvedStepTargets β)

/-! ### Ids and dependencies -/

def Workflow.unique_ids (wf : Workflow) : TreeSet String :=
  wf.steps.foldl (fun ids step => if isBlank step.id then ids else ids.insert step.id) ∅

/-- The ids that occur again after their first occurrence. -/
def duplicate_ids : TreeSet String → List WorkflowStep → TreeSet String
  | _, [] => ∅
  | seen, step :: rest =>
    if isBlank step.id then duplicate_ids seen rest
    else if seen.contains step.id then (duplicate_ids seen rest).insert step.id
    else duplicate_ids (seen.insert step.id) rest

def Workflow.idProblems (wf : Workflow) : List String :=
  (wf.steps.flatMap fun step =>
    let index := step.index
    problemIf (isBlank step.id) s!"step at index {index} is missing required `id`") ++
  (duplicate_ids ∅ wf.steps).toList.map fun id => s!"duplicate step id `{id}`"

/-- The steps the later loops of `validate_workflow` look at. -/
def Workflow.knownSteps (wf : Workflow) : List WorkflowStep :=
  wf.steps.filter fun step => wf.unique_ids.contains step.id

/-- The problems of a step's needs. A repeated need is reported and still becomes an edge. -/
def needsProblems (unique_ids : TreeSet String) (id : String) : TreeSet String → List String → List String
  | _, [] => []
  | seen_needs, need :: rest =>
    problemIf (seen_needs.contains need) s!"step `{id}` repeats dependency `{need}`" ++
    problemIf (!unique_ids.contains need) s!"step `{id}` needs unknown step `{need}`" ++
    needsProblems unique_ids id (seen_needs.insert need) rest

def Workflow.edges (wf : Workflow) : List (String × String) :=
  wf.knownSteps.flatMap fun step => (step.needs.filter wf.unique_ids.contains).map (Prod.mk step.id)
/-- `dependencies` and `dependents`. -/
def Workflow.graph (wf : Workflow) : Adjacency String := Adjacency.ofEdges wf.unique_ids.toList wf.edges

/-- Kahn's algorithm with a first-in first-out queue. -/
def topoSortState (ids : TreeSet String) (dependencies : TreeMap String (List String)) : Removal String :=
  let graph := Adjacency.ofEdges ids.toList
    ((edgesOf dependencies).filter fun edge => ids.contains edge.1 && ids.contains edge.2)
  drain (fun queue node => queue ++ [node]) graph.childrenOf ids.toList.length ⟨graph.degree,graph.leaves,[]⟩

/-- The order, and the problem of a cycle with the nodes that were not reached. -/
def topo_sort (ids : TreeSet String) (dependencies : TreeMap String (List String)) : List String × List String :=
  let sorted := topoSortState ids dependencies
  let cycle_nodes := ", ".intercalate ((sorted.degree.toList.filter fun entry => 0 < entry.2).map Prod.fst)
  (sorted.order,problemIf (sorted.order.length ≠ ids.toList.length)
    s!"workflow dependency cycle detected involving: {cycle_nodes}")

/-! ### Targets and prompts -/

def display_step_id (step : WorkflowStep) : String :=
  let index := step.index
  if step.id.isEmpty then s!"#{index}" else step.id

def targetsProblems (shown : String) : StepTargets → List String
  | .Single target => problemIf (isBlank target) s!"step `{shown}` has an empty `target`"
  | .FanOut targets =>
    if targets.isEmpty then [s!"step `{shown}` has an empty `fan_out` list"]
    else targets.flatMap fun target =>
      problemIf (isBlank target) s!"step `{shown}` has an empty target in `fan_out`"
  | .Both _ _ => [s!"step `{shown}` must set exactly one of `target` or `fan_out`, not both"]
  | .Missing => [s!"step `{shown}` must set exactly one of `target` or `fan_out`"]

def promptProblems (shown : String) : Option String → Option String → List String
  | some _, some _ => [s!"step `{shown}` must set exactly one of `prompt` or `prompt_file`, not both"]
  | none, none => [s!"step `{shown}` must set exactly one of `prompt` or `prompt_file`"]
  | _, _ => []

def shapeProblems (step : WorkflowStep) : List String :=
  let shown := display_step_id step
  targetsProblems shown step.targets ++ promptProblems shown step.prompt step.prompt_file ++
    isolation_problems shown step.sandbox step.isolation step.isolation_base

def hintsOnResolved (id : String) : String :=
  s!"step `{id}` has route hints on a non-deferred target; route hints require a deferred single target"

/-- Resolution of a single target: the problems, and the entry it adds. -/
def resolveSingle (resolver : TargetResolver β) (id target : String) (route : WorkflowRouteHints) :
    List String × Option (ResolvedStepTargets β) :=
  match resolver.resolve_for_validation target with
  | .ok (some (first :: more)) =>
    if route.is_empty then ([],some (.Single target (some (first :: more))))
    else ([hintsOnResolved id],none)
  | .ok (some []) =>
    (problemIf (!route.is_empty) (hintsOnResolved id) ++
      [s!"step `{id}` target `{target}` resolved to an empty chain"],none)
  | .ok none =>
    match resolver.validate_deferred target route with
    | .ok () => ([],some (.Single target none))
    | .error message => ([s!"step `{id}` deferred target `{target}` is invalid: {message}"],none)
  | .error message => ([s!"step `{id}` target `{target}` could not be resolved: {message}"],none)

/-- Resolution of one entry of a fan-out list. -/
def resolveEntry (resolver : TargetResolver β) (id target : String) : List String × Option (List β) :=
  if isBlank target then ([],none)
  else
    match resolver.resolve_for_validation target with
    | .ok (some (first :: more)) => ([],some (first :: more))
    | .ok (some []) => ([s!"step `{id}` fan_out target `{target}` resolved to an empty chain"],none)
    | .ok none => ([s!"step `{id}` fan_out target `{target}` requires deferred routing, " ++
        "which is only supported for a single target"],none)
    | .error message => ([s!"step `{id}` fan_out target `{target}` could not be resolved: {message}"],none)

def resolveFanOut (resolver : TargetResolver β) (id : String) (targets : List String) (route : WorkflowRouteHints) :
    List String × Option (ResolvedStepTargets β) :=
  let entries := targets.map (resolveEntry resolver id)
  (problemIf (!route.is_empty)
      (s!"step `{id}` has route hints on fan_out targets; " ++ "route hints require a deferred single target") ++
    entries.flatMap Prod.fst,
    if entries.all (fun entry => entry.2.isSome) && route.is_empty then
      some (.FanOut targets (entries.filterMap Prod.snd))
    else none)

def resolveStep (resolver : TargetResolver β) (step : WorkflowStep) : List String × Option (ResolvedStepTargets β) :=
  match step.targets with
  | .Single target => if isBlank target then ([],none) else resolveSingle resolver step.id target step.route
  | .FanOut targets => if targets.isEmpty then ([],none) else resolveFanOut resolver step.id targets step.route
  | .Both _ _ | .Missing => ([],none)

def Workflow.resolved_targets (wf : Workflow) (resolver : TargetResolver β) :
    TreeMap String (ResolvedStepTargets β) :=
  wf.knownSteps.foldl
    (fun resolved step => match (resolveStep resolver step).2 with
      | none => resolved
      | some targets => resolved.insert step.id targets) ∅

/-! ### The whole validation -/

/-- The problems found up to the ancestor sets. -/
def Workflow.graphProblems (wf : Workflow) : List String :=
  problemIf (isBlank wf.name) "[workflow].name is required" ++
  problemIf wf.steps.isEmpty "workflow must contain at least one [[step]]" ++
  problemIf (MAX_PERMITS < wf.max_concurrency) s!"[workflow].max_concurrency must not exceed {MAX_PERMITS}" ++
  wf.idProblems ++
  (wf.knownSteps.flatMap fun step => needsProblems wf.unique_ids step.id ∅ step.needs) ++
  (topo_sort wf.unique_ids wf.graph.dependencies).2

/-- The problems found after them. -/
def Workflow.stepProblems (wf : Workflow) (vars : TreeMap String String) (resolver : TargetResolver β)
    (ancestors : TreeMap String (TreeSet String)) : List String :=
  wf.steps.flatMap shapeProblems ++
  (wf.knownSteps.flatMap fun step => (resolveStep resolver step).1) ++
  wf.knownSteps.flatMap fun step =>
    match step.prompt_template with
    | none => []
    | some template => validate_template step.id template wf.name vars (ancestors.getD step.id ∅)
        fun id => ((wf.resolved_targets resolver)[id]?).map ResolvedStepTargets.is_fan_out

def validate_workflow (wf : Workflow) (vars : TreeMap String String) (resolver : TargetResolver β) :
    Except WorkflowError (ValidatedWorkflow β) :=
  let topo_order := (topo_sort wf.unique_ids wf.graph.dependencies).1
  match transitive_needs topo_order fun id => wf.graph.dependencies.getD id [] with
  | none => .error (.Validation (wf.graphProblems ++
      [s!"workflow template ancestor relations exceed {MAX_TEMPLATE_ANCESTOR_RELATIONS}"]))
  | some ancestors =>
    match wf.graphProblems ++ wf.stepProblems vars resolver ancestors with
    | [] => .ok ⟨topo_order,wf.graph.dependents,wf.graph.dependencies,wf.resolved_targets resolver⟩
    | problems => .error (.Validation problems)

def WorkflowPlanTargets.forValidation : WorkflowPlanTargets → StepTargets
  | .Single target => .Single target
  | .FanOut targets => .FanOut targets

def WorkflowPlan.as_validation_workflow (plan : WorkflowPlan) : Workflow where
  name := plan.name
  max_concurrency := plan.max_concurrency.toNat
  steps := plan.steps.map fun step =>
    { index := step.order.toNat, id := step.id, needs := step.needs, targets := step.targets.forValidation,
      prompt := some step.prompt_template, prompt_file := none, prompt_template := some step.prompt_template,
      sandbox := step.sandbox, isolation := step.isolation, isolation_base := step.isolation_base,
      route := step.route }

def validate_plan (digests : PlanDigests) (plan : WorkflowPlan) (vars : TreeMap String String)
    (resolver : TargetResolver β) : Except WorkflowError (ValidatedWorkflow β) :=
  match plan.verify digests with
  | .error error => .error error
  | .ok () => validate_workflow plan.as_validation_workflow vars resolver

/-! ### What an accepted plan guarantees -/

/-- The step `id` of a plan lists `need` among its needs. -/
def Needs (plan : WorkflowPlan) (id need : String) : Prop := ∃ step ∈ plan.steps, step.id = id ∧ need ∈ step.needs
def TransitiveNeeds (plan : WorkflowPlan) : String → String → Prop := Relation.TransGen (Needs plan)
def WorkflowPlan.ids (plan : WorkflowPlan) : List String := plan.steps.map WorkflowPlanStep.id

/-- The facts about a validation result that execution relies on. -/
structure ValidFor (plan : WorkflowPlan) (validated : ValidatedWorkflow β) : Prop where
  distinct : plan.ids.Nodup
  concurrency : 1 ≤ plan.max_concurrency.toNat
  known : ∀ id need, Needs plan id need → need ∈ plan.ids
  orderPerm : validated.topo_order.Perm plan.ids
  sorted : Topological (fun id => validated.dependencies.getD id []) validated.topo_order
  dependencies : ∀ id need, need ∈ validated.dependencies.getD id [] ↔ Needs plan id need
  dependents : ∀ id child, child ∈ validated.dependents.getD id [] ↔ Needs plan child id
  resolved : ∀ id ∈ plan.ids, ∃ targets, validated.resolved_targets[id]? = some targets

private theorem mem_foldl_unique (steps : List WorkflowStep) (ids : TreeSet String) (id : String) :
    id ∈ steps.foldl (fun ids step => if isBlank step.id then ids else ids.insert step.id) ids ↔
      id ∈ ids ∨ ∃ step ∈ steps, isBlank step.id = false ∧ step.id = id := by
  induction steps generalizing ids with
  | nil => simp
  | cons head tail ih =>
    rw [foldl_cons,ih]
    by_cases blank : isBlank head.id = true
    · simp [blank]
    · simp [blank,TreeSet.mem_insert,Std.compare_eq_iff_eq,or_assoc,or_left_comm]

theorem mem_unique_ids (wf : Workflow) (id : String) :
    id ∈ wf.unique_ids ↔ ∃ step ∈ wf.steps, isBlank step.id = false ∧ step.id = id := by
  simp [Workflow.unique_ids,mem_foldl_unique]

private theorem duplicate_ids_empty (steps : List WorkflowStep) :
    ∀ seen : TreeSet String, (∀ step ∈ steps, isBlank step.id = false) → (duplicate_ids seen steps).toList = [] →
      (steps.map WorkflowStep.id).Nodup ∧ ∀ step ∈ steps, step.id ∉ seen := by
  induction steps with
  | nil => intro seen _ _; simp
  | cons head tail ih =>
    intro seen present none
    have headPresent := present head (by simp)
    simp only [duplicate_ids,headPresent,Bool.false_eq_true,if_false] at none
    split_ifs at none with old
    · have listed : head.id ∈ ((duplicate_ids seen tail).insert head.id).toList := by simp
      rw [none] at listed
      simp at listed
    · obtain ⟨distinct,fresh⟩ := ih (seen.insert head.id) (fun step member => present step (by simp [member])) none
      simp only [TreeSet.mem_insert,Std.compare_eq_iff_eq,not_or] at fresh
      refine ⟨?_,?_⟩
      · simp only [map_cons,nodup_cons,mem_map,not_exists,not_and]
        exact ⟨fun step member same => (fresh step member).1 same.symm,distinct⟩
      · intro step member
        rcases mem_cons.mp member with rfl | later
        · simpa using old
        · exact (fresh step later).2

theorem needs_known {unique_ids : TreeSet String} {id : String} (needs : List String) :
    ∀ seen : TreeSet String, needsProblems unique_ids id seen needs = [] → ∀ need ∈ needs, need ∈ unique_ids := by
  induction needs with
  | nil => intro seen _ need member; simp at member
  | cons head tail ih =>
    intro seen none need member
    simp only [needsProblems,append_eq_nil_iff,problemIf_eq_nil,Bool.not_eq_false'] at none
    rcases mem_cons.mp member with rfl | later
    · simpa using none.1.2
    · exact ih _ none.2 need later

variable {resolver : TargetResolver β}

theorem resolveSingle_some {id target : String} {route : WorkflowRouteHints}
    (none : (resolveSingle resolver id target route).1 = []) : (resolveSingle resolver id target route).2.isSome := by
  unfold resolveSingle at none ⊢
  rcases found : resolver.resolve_for_validation target with message | (_ | (_ | ⟨first,more⟩))
  · simp [found] at none
  · cases deferred : resolver.validate_deferred target route with
    | error message => simp [found,deferred] at none
    | ok => simp
  · simp [found] at none
  · cases hints : route.is_empty with
    | true => simp
    | false => simp [found,hints] at none

theorem resolveEntry_some {id target : String} (present : isBlank target = false)
    (none : (resolveEntry resolver id target).1 = []) : (resolveEntry resolver id target).2.isSome := by
  unfold resolveEntry at none ⊢
  simp only [present,Bool.false_eq_true,if_false] at none ⊢
  rcases found : resolver.resolve_for_validation target with message | (_ | (_ | ⟨first,more⟩))
  · simp [found] at none
  · simp [found] at none
  · simp [found] at none
  · simp

theorem resolveStep_some {step : WorkflowStep} (shape : shapeProblems step = [])
    (none : (resolveStep resolver step).1 = []) : (resolveStep resolver step).2.isSome := by
  simp only [shapeProblems,append_eq_nil_iff] at shape
  have targets := shape.1.1
  unfold resolveStep at none ⊢
  cases found : step.targets with
  | Single target =>
    simp only [found,targetsProblems,problemIf_eq_nil] at targets none ⊢
    simp only [targets,Bool.false_eq_true,if_false] at none ⊢
    exact resolveSingle_some none
  | FanOut list =>
    simp only [found,targetsProblems] at targets none ⊢
    split_ifs at targets none ⊢ with empty
    simp only [flatMap_eq_nil_iff,problemIf_eq_nil] at targets
    simp only [resolveFanOut,append_eq_nil_iff,problemIf_eq_nil,flatMap_eq_nil_iff] at none ⊢
    have hints : step.route.is_empty = true := by simpa using none.1
    have all : (list.map (resolveEntry resolver step.id)).all (fun entry => entry.2.isSome) = true := by
      simp only [all_map,all_eq_true]
      intro target member
      exact resolveEntry_some (targets target member) (none.2 _ (mem_map_of_mem member))
    simp [all,hints]
  | Both target fan_out => simp [found,targetsProblems] at targets
  | Missing => simp [found,targetsProblems] at targets

private theorem foldl_resolved (resolver : TargetResolver β) (steps : List WorkflowStep) (id : String) :
    ∀ resolved : TreeMap String (ResolvedStepTargets β),
      (id ∈ resolved ∨ ∃ step ∈ steps, step.id = id ∧ (resolveStep resolver step).2.isSome) →
      id ∈ steps.foldl
        (fun resolved step => match (resolveStep resolver step).2 with
          | none => resolved
          | some targets => resolved.insert step.id targets) resolved := by
  induction steps with
  | nil => intro resolved known; simpa using known
  | cons head tail ih =>
    intro resolved known
    rw [foldl_cons]
    apply ih
    rcases known with old | ⟨step,member,rfl,some⟩
    · cases (resolveStep resolver head).2 <;> simp [old]
    · rcases mem_cons.mp member with rfl | later
      · obtain ⟨targets,found⟩ := Option.isSome_iff_exists.mp some
        simp [found]
      · exact Or.inr ⟨step,later,rfl,some⟩

variable {validated : ValidatedWorkflow β} {vars : TreeMap String String}

/-- The facts about an accepted frontend workflow, before they are restated for the plan it came from. -/
theorem validate_workflow_ok {wf : Workflow} (accepted : validate_workflow wf vars resolver = .ok validated) :
    wf.graphProblems = [] ∧ (∀ step ∈ wf.steps, shapeProblems step = []) ∧
      (∀ step ∈ wf.knownSteps, (resolveStep resolver step).1 = []) ∧
      validated = ⟨(topo_sort wf.unique_ids wf.graph.dependencies).1,wf.graph.dependents,wf.graph.dependencies,
        wf.resolved_targets resolver⟩ := by
  unfold validate_workflow at accepted
  cases sets : transitive_needs (topo_sort wf.unique_ids wf.graph.dependencies).1
      fun id => wf.graph.dependencies.getD id [] with
  | none => simp [sets] at accepted
  | some ancestors =>
    simp only [sets] at accepted
    cases problems : wf.graphProblems ++ wf.stepProblems vars resolver ancestors with
    | cons head tail => simp [problems] at accepted
    | nil =>
      simp only [problems,Except.ok.injEq] at accepted
      simp only [append_eq_nil_iff,Workflow.stepProblems,flatMap_eq_nil_iff] at problems
      exact ⟨problems.1,problems.2.1.1,problems.2.1.2,accepted.symm⟩

section
variable {wf : Workflow} (none : wf.graphProblems = [])
include none
theorem ids_present : ∀ step ∈ wf.steps, isBlank step.id = false := by
  simp only [Workflow.graphProblems,Workflow.idProblems,append_eq_nil_iff,flatMap_eq_nil_iff,
    problemIf_eq_nil] at none
  exact none.1.1.2.1

theorem ids_distinct : (wf.steps.map WorkflowStep.id).Nodup := by
  have present := ids_present none
  simp only [Workflow.graphProblems,Workflow.idProblems,append_eq_nil_iff,map_eq_nil_iff] at none
  exact (duplicate_ids_empty wf.steps ∅ present none.1.1.2.2).1

theorem mem_unique_iff (id : String) : id ∈ wf.unique_ids ↔ ∃ step ∈ wf.steps, step.id = id := by
  rw [mem_unique_ids]
  constructor
  · rintro ⟨step,member,_,same⟩; exact ⟨step,member,same⟩
  · rintro ⟨step,member,same⟩; exact ⟨step,member,ids_present none step member,same⟩

theorem knownSteps_eq : wf.knownSteps = wf.steps := by
  apply filter_eq_self.mpr
  intro step member
  exact TreeSet.contains_iff_mem.mpr ((mem_unique_iff none step.id).mpr ⟨step,member,rfl⟩)

theorem workflow_needs_known {step : WorkflowStep} (member : step ∈ wf.steps) :
    ∀ need ∈ step.needs, need ∈ wf.unique_ids := by
  have known := knownSteps_eq none
  simp only [Workflow.graphProblems,append_eq_nil_iff,flatMap_eq_nil_iff] at none
  exact needs_known step.needs ∅ (none.1.2 step (known ▸ member))

theorem mem_edges (id need : String) :
    (id,need) ∈ wf.edges ↔ ∃ step ∈ wf.steps, step.id = id ∧ need ∈ step.needs := by
  simp only [Workflow.edges,knownSteps_eq none,mem_flatMap,mem_map,mem_filter,Prod.mk.injEq]
  constructor
  · rintro ⟨step,member,other,⟨listed,_⟩,same,rfl⟩
    exact ⟨step,member,same,listed⟩
  · rintro ⟨step,member,same,listed⟩
    exact ⟨step,member,need,⟨listed,TreeSet.contains_iff_mem.mpr (workflow_needs_known none member need listed)⟩,same,
      rfl⟩

theorem topo_sorted :
    (topo_sort wf.unique_ids wf.graph.dependencies).1.Perm wf.unique_ids.toList ∧
      Topological (fun id => wf.graph.dependencies.getD id []) (topo_sort wf.unique_ids wf.graph.dependencies).1 := by
  have complete : (topo_sort wf.unique_ids wf.graph.dependencies).2 = [] := by
    simp only [Workflow.graphProblems,append_eq_nil_iff] at none
    exact none.2
  simp only [topo_sort,problemIf_eq_nil,decide_eq_false_iff_not,not_not] at complete
  have inside : ∀ edge ∈ (edgesOf wf.graph.dependencies).filter
      (fun edge => wf.unique_ids.contains edge.1 && wf.unique_ids.contains edge.2),
      edge.1 ∈ wf.unique_ids.toList := by
    intro edge member
    have kept := (mem_filter.mp member).2
    simp only [Bool.and_eq_true] at kept
    simpa using kept.1
  obtain ⟨perm,sorted⟩ := drain_ofEdges fifo_pushes inside complete
  refine ⟨perm,?_⟩
  intro before node after split need member
  refine sorted before node after split need ?_
  rw [mem_needsOf,mem_filter]
  have edge : (node,need) ∈ wf.edges := (mem_needsOf wf.unique_ids.toList wf.edges node need).mp member
  obtain ⟨step,listed,same,needed⟩ := (mem_edges none node need).mp edge
  refine ⟨(mem_edgesOf _ node need).mpr member,?_⟩
  simp only [Bool.and_eq_true,TreeSet.contains_iff_mem]
  exact ⟨(mem_unique_iff none node).mpr ⟨step,listed,same⟩,workflow_needs_known none listed need needed⟩

end

/-- Whatever `validate_plan` accepts is fit for execution. -/
theorem validate_plan_ok {digests : PlanDigests} {plan : WorkflowPlan}
    (accepted : validate_plan digests plan vars resolver = .ok validated) : ValidFor plan validated := by
  unfold validate_plan at accepted
  cases verified : plan.verify digests with
  | error error => simp [verified] at accepted
  | ok =>
    simp only [verified] at accepted
    obtain ⟨none,shapes,resolutions,rfl⟩ := validate_workflow_ok accepted
    have idsEq : plan.as_validation_workflow.steps.map WorkflowStep.id = plan.ids := by
      simp [WorkflowPlan.as_validation_workflow,WorkflowPlan.ids,Function.comp_def]
    have needsIff : ∀ id need, (id,need) ∈ plan.as_validation_workflow.edges ↔ Needs plan id need := by
      intro id need
      rw [mem_edges none]
      simp [WorkflowPlan.as_validation_workflow,Needs]
    have idsIff : ∀ id, id ∈ plan.as_validation_workflow.unique_ids ↔ id ∈ plan.ids := by
      intro id
      rw [mem_unique_iff none,← idsEq,mem_map]
    have distinct : plan.ids.Nodup := idsEq ▸ ids_distinct none
    obtain ⟨perm,sorted⟩ := topo_sorted none
    refine ⟨distinct,verify_max_concurrency verified,?_,?_,sorted,?_,?_,?_⟩
    · intro id need needed
      obtain ⟨step,member,_,listed⟩ := (mem_edges none id need).mp ((needsIff id need).mpr needed)
      exact (idsIff need).mp (workflow_needs_known none member need listed)
    · refine perm.trans ?_
      apply (perm_ext_iff_of_nodup ?_ distinct).mpr
      · intro id; rw [TreeSet.mem_toList,idsIff]
      · exact TreeSet.distinct_toList.imp ReflCmp.ne_of_cmp_ne_eq
    · intro id need
      rw [← needsIff]
      exact mem_needsOf _ _ id need
    · intro id child
      rw [← needsIff]
      exact mem_childrenOf _ _ id child
    · intro id known
      obtain ⟨step,member,same⟩ := (mem_unique_iff none id).mp ((idsIff id).mpr known)
      have resolved := resolveStep_some (shapes step member) (resolutions step (knownSteps_eq none ▸ member))
      have listed := foldl_resolved resolver plan.as_validation_workflow.knownSteps id ∅
        (Or.inr ⟨step,knownSteps_eq none ▸ member,same,resolved⟩)
      exact Option.isSome_iff_exists.mp (TreeMap.mem_iff_isSome_getElem?.mp listed)

end Vyane.Workflows
