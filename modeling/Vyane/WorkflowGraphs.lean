import Vyane.WorkflowValidate

/-!
The graph checks of a plan. `validate_graph` and `step_reference_ancestors` walk the same edges with a stack and with a
queue, and `topo_sort` walks all needs of an accepted plan: each reaches every step exactly when the steps have no
cycle.
-/
namespace Vyane.Workflows
open Std Text Graphs List

/-- A need that the checks follow as an edge: another step of the plan. -/
def KnownNeeds (steps : List WorkflowPlanStep) (id need : String) : Prop :=
  ∃ step ∈ steps, step.id = id ∧ need ∈ step.needs ∧ need ≠ id ∧ ∃ other ∈ steps, other.id = need

/-! ### The edges -/

/-- A need becomes an edge at its first occurrence. -/
theorem mem_classifyNeeds (ids : TreeSet String) (id need : String) :
    ∀ (needs : List String) (seen : TreeSet String),
      (need,NeedOutcome.Edge) ∈ classifyNeeds ids id seen needs ↔
        need ∈ needs ∧ need ∉ seen ∧ need ≠ id ∧ need ∈ ids := by
  intro needs
  induction needs with
  | nil => simp [classifyNeeds]
  | cons head rest ih =>
    intro seen
    simp only [classifyNeeds,mem_cons,Prod.mk.injEq,ih,TreeSet.mem_insert,Std.compare_eq_iff_eq]
    by_cases same : need = head
    · subst same
      by_cases before : need ∈ seen
      · simp [before]
      · by_cases itself : need = id
        · subst itself; simp [before]
        · by_cases known : need ∈ ids <;> simp [before,itself,known]
    · simp [same,Ne.symm same]

theorem mem_planEdges (steps : List WorkflowPlanStep) (id need : String) :
    (id,need) ∈ planEdges (planIds steps) steps ↔ KnownNeeds steps id need := by
  simp only [planEdges,mem_flatMap,mem_map,mem_filter,decide_eq_true_eq,Prod.mk.injEq,KnownNeeds]
  constructor
  · rintro ⟨step,member,⟨_,_⟩,⟨listed,rfl⟩,rfl,rfl⟩
    obtain ⟨needed,_,other,known⟩ := (mem_classifyNeeds _ _ _ _ _).mp listed
    exact ⟨step,member,rfl,needed,other,mem_map.mp ((mem_planIds steps _).mp known)⟩
  · rintro ⟨step,member,rfl,needed,other,known⟩
    exact ⟨step,member,(need,.Edge),
      ⟨(mem_classifyNeeds _ _ _ _ _).mpr ⟨needed,by simp,other,(mem_planIds steps need).mpr (mem_map.mpr known)⟩,rfl⟩,
        rfl,rfl⟩

/-- The graph of both checks. -/
def planGraph (steps : List WorkflowPlanStep) : Adjacency String :=
  Adjacency.ofEdges (planIds steps).toList (planEdges (planIds steps) steps)

theorem planEdges_inside (steps : List WorkflowPlanStep) :
    ∀ edge ∈ planEdges (planIds steps) steps,
      edge.1 ∈ (planIds steps).toList ∧ edge.2 ∈ (planIds steps).toList := by
  rintro ⟨id,need⟩ member
  obtain ⟨step,listed,same,_,_,known⟩ := (mem_planEdges steps id need).mp member
  simp only [TreeSet.mem_toList,mem_planIds,mem_map]
  exact ⟨⟨step,listed,same⟩,known⟩

theorem planGraph_needs (steps : List WorkflowPlanStep) :
    (fun id need => need ∈ (planGraph steps).needsOf id) = KnownNeeds steps := by
  funext id need
  rw [planGraph,mem_needsOf,mem_planEdges]

theorem toList_nodup (ids : TreeSet String) : ids.toList.Nodup :=
  TreeSet.distinct_toList.imp ReflCmp.ne_of_cmp_ne_eq

/-! ### Cycles -/

/-- Whatever end the ready nodes are taken from, all of them are visited exactly when the known needs have no cycle. -/
theorem plan_visits_all {push : List String → String → List String} (pushes : Pushes push)
    (steps : List WorkflowPlanStep) {ready : List String} (start : ready.Perm (planGraph steps).leaves) :
    (drain push (planGraph steps).childrenOf (planIds steps).size
        ⟨(planGraph steps).degree,ready,[]⟩).order.length ≠ (planIds steps).size ↔
      ∃ id, Relation.TransGen (KnownNeeds steps) id id := by
  have complete := (drain_complete_iff pushes (toList_nodup (planIds steps)) (planEdges_inside steps) start).1
  rw [TreeSet.length_toList] at complete
  rw [Ne,planGraph,complete,← planGraph,Acyclic,planGraph_needs]
  simp

theorem step_reference_ancestors_cyclic (steps : List WorkflowPlanStep) :
    step_reference_ancestors steps = .Cyclic ↔ ∃ id, Relation.TransGen (KnownNeeds steps) id id := by
  rw [← plan_visits_all fifo_pushes steps (.refl _)]
  simp only [step_reference_ancestors,planGraph]
  split_ifs with all
  · simp [all]
  · simp only [all,iff_false]
    split <;> simp

theorem mem_problemIf {failed : Bool} {text problem : String} :
    problem ∈ problemIf failed text ↔ failed = true ∧ problem = text := by
  cases failed <;> simp [problemIf]

/-- A text that starts otherwise is not the one of the cycle. -/
theorem cycleProblem_ne (start rest : String) (apart : ¬ start.toList <+: cycleProblem.toList) :
    cycleProblem ≠ start ++ rest := by
  intro same
  exact apart ⟨rest.toList,by rw [same,String.toList_append]⟩

private theorem cycle_not_isolation (id : String) (sandbox : Sandbox) (isolation : WorkflowIsolation)
    (base : Option String) : cycleProblem ∉ isolation_problems id sandbox isolation base := by
  unfold isolation_problems
  cases base with
  | none =>
    simp only [mem_append,mem_problemIf,toString,String.append_assoc]
    simp (disch := decide) [cycleProblem_ne]
  | some base =>
    simp only [mem_append,mem_problemIf,toString,String.append_assoc]
    cases validate_isolation_base base <;> simp (disch := decide) [cycleProblem_ne]

private theorem cycle_not_text (label value : String) (min max : Nat)
    (apart : ¬ (label ++ " byte length must be between ").toList <+: cycleProblem.toList) :
    cycleProblem ∉ validate_text label value min max := by
  unfold validate_text
  rw [mem_problemIf]
  rintro ⟨_,same⟩
  exact cycleProblem_ne _ (min.repr ++ " and " ++ max.repr) apart (by simpa [toString,String.append_assoc] using same)

private theorem cycle_not_route (id : String) (route : WorkflowRouteHints) :
    cycleProblem ∉ validate_route id route := by
  unfold validate_route
  simp only [mem_append,mem_flatMap,mem_problemIf,toString,String.append_assoc]
  simp (disch := decide) [cycleProblem_ne]

private theorem cycle_not_target (id target : String) : cycleProblem ∉ validateTarget id target := by
  unfold validateTarget
  simp only [mem_append,mem_problemIf,toString,String.append_assoc]
  simp (disch := decide) [cycleProblem_ne,cycle_not_text]

private theorem cycle_not_workdir (id workdir : String) : cycleProblem ∉ validateWorkdir id workdir := by
  unfold validateWorkdir
  split_ifs <;> simp only [mem_append,mem_problemIf,toString,String.append_assoc,mem_singleton] <;>
    simp (disch := decide) [cycleProblem_ne,cycle_not_text]

/-- The loop over the steps reports no cycle. -/
private theorem cycle_not_steps (steps : List WorkflowPlanStep) :
    ∀ (seen : TreeSet String) (order : Nat), cycleProblem ∉ planStepsProblems seen order steps := by
  induction steps with
  | nil => simp [planStepsProblems]
  | cons step rest ih =>
    intro seen order
    unfold planStepsProblems planStepProblems
    simp only [mem_append,mem_flatMap,mem_problemIf,toString,String.append_assoc]
    simp (disch := decide) [cycleProblem_ne,cycle_not_text,cycle_not_isolation,cycle_not_route,cycle_not_target,
      cycle_not_workdir,ih]

private theorem cycle_not_header (plan : WorkflowPlan) : cycleProblem ∉ plan.headerProblems := by
  unfold WorkflowPlan.headerProblems
  simp only [mem_append,mem_flatMap,mem_problemIf,toString,String.append_assoc]
  simp (disch := decide) [cycleProblem_ne,cycle_not_text]
  exact ⟨fun _ => by decide,fun _ => by decide⟩

theorem validate_graph_cycle (steps : List WorkflowPlanStep) :
    cycleProblem ∈ validate_graph steps (planIds steps) ↔ ∃ id, Relation.TransGen (KnownNeeds steps) id id := by
  rw [← plan_visits_all lifo_pushes steps (reverse_perm _)]
  have others : ∀ id need outcome, cycleProblem ∉ needProblem id need outcome := by
    intro id need outcome
    cases outcome <;> simp only [needProblem,toString,String.append_assoc,mem_singleton] <;>
      simp (disch := decide) [cycleProblem_ne]
  simp only [validate_graph,mem_append,mem_flatMap,mem_problemIf,others]
  simp [planGraph]

private theorem cycle_not_reference (steps : List WorkflowPlanStep) (available : TreeSet String) (owner : String)
    (reference : ReferencedStep) : cycleProblem ∉ referenceProblem steps available owner reference := by
  unfold referenceProblem
  simp only [toString,String.append_assoc]
  split_ifs
  · simp (disch := decide) [cycleProblem_ne]
  · split
    · simp (disch := decide) [cycleProblem_ne]
    · split_ifs <;> simp (disch := decide) [cycleProblem_ne]

private theorem cycle_of_references {steps : List WorkflowPlanStep} {earlier : List String}
    (reported : cycleProblem ∈ reject_invalid_step_references steps earlier) :
    ∃ id, Relation.TransGen (KnownNeeds steps) id id := by
  rw [← step_reference_ancestors_cyclic]
  unfold reject_invalid_step_references at reported
  simp only [toString] at reported
  split_ifs at reported
  · simp at reported
  · cases graph : step_reference_ancestors steps with
    | Cyclic => rfl
    | OverBudget =>
      simp only [graph] at reported
      simp (disch := decide) [cycleProblem_ne] at reported
    | Ready ancestors =>
      simp only [graph,mem_flatMap] at reported
      obtain ⟨step,_,reference,_,listed⟩ := reported
      exact absurd listed (cycle_not_reference steps _ step.id reference)

/-- The content check names the cycle exactly when there is one. -/
theorem content_reports_cycle (plan : WorkflowPlan) :
    cycleProblem ∈ plan.contentProblems ↔ ∃ id, Relation.TransGen (KnownNeeds plan.steps) id id := by
  have total : cycleProblem ∈ plan.totalProblems ↔ ∃ id, Relation.TransGen (KnownNeeds plan.steps) id id := by
    rw [← validate_graph_cycle]
    unfold WorkflowPlan.totalProblems
    simp only [mem_append,mem_problemIf,toString]
    simp (disch := decide) [cycleProblem_ne]
    intro _ same
    exact absurd same (by decide)
  simp only [WorkflowPlan.contentProblems,mem_append,cycle_not_header,cycle_not_steps,false_or,total]
  exact ⟨fun either => either.elim id cycle_of_references,Or.inl⟩

theorem verify_reports_cycle (digests : PlanDigests) (plan : WorkflowPlan) :
    (∃ problems, plan.verify digests = .error (.Validation problems) ∧ cycleProblem ∈ problems) ↔
      ∃ id, Relation.TransGen (KnownNeeds plan.steps) id id := by
  rw [← content_reports_cycle]
  unfold WorkflowPlan.verify WorkflowPlan.compute_digest
  cases plan.contentProblems with
  | cons problem rest => simp
  | nil =>
    simp only [not_mem_nil,iff_false]
    rintro ⟨problems,failed,member⟩
    generalize digests.to_vec _ = encoded at failed
    cases encoded with
    | error reason => simp at failed
    | ok bytes =>
      simp only at failed
      split_ifs at failed
      simp only [Except.error.injEq,WorkflowError.Validation.injEq] at failed
      subst failed
      exact absurd member (by decide)

/-! ### Ancestor sets -/

theorem mem_countRelation {state state' : TreeSet String × Nat} {ancestor : String}
    (counted : countRelation state ancestor = some state') (other : String) :
    other ∈ state'.1 ↔ other ∈ state.1 ∨ other = ancestor := by
  unfold countRelation at counted
  split_ifs at counted with present full
  · cases counted
    refine ⟨Or.inl,fun either => either.elim id fun same => ?_⟩
    exact same ▸ TreeSet.contains_iff_mem.mp present
  · cases counted
    rw [TreeSet.mem_insert,Std.compare_eq_iff_eq]
    tauto

theorem mem_count_relations (ancestors : List String) :
    ∀ {state state' : TreeSet String × Nat}, ancestors.foldlM countRelation state = some state' →
      ∀ other, other ∈ state'.1 ↔ other ∈ state.1 ∨ other ∈ ancestors := by
  induction ancestors with
  | nil =>
    intro state state' counted other
    cases counted
    simp
  | cons ancestor rest ih =>
    intro state state' counted other
    obtain ⟨middle,first,later⟩ := Option.bind_eq_some_iff.mp counted
    rw [ih later other,mem_countRelation first other,mem_cons]
    tauto

variable {sets : TreeMap String (TreeSet String)} {dependencies : String → List String}

/-- The needs of a step, each with what is known of it. -/
private theorem mem_inherited (needs : List String) :
    ∀ {state state' : TreeSet String × Nat},
      needs.foldlM (fun (state : TreeSet String × Nat) need => do
          let counted ← countRelation state need
          (sets.getD need ∅).toList.foldlM countRelation counted) state = some state' →
      ∀ other, other ∈ state'.1 ↔
        other ∈ state.1 ∨ ∃ need ∈ needs, other = need ∨ other ∈ sets.getD need ∅ := by
  induction needs with
  | nil =>
    intro state state' counted other
    cases counted
    simp
  | cons need rest ih =>
    intro state state' counted other
    obtain ⟨middle,first,later⟩ := Option.bind_eq_some_iff.mp counted
    obtain ⟨direct,one,inherited⟩ := Option.bind_eq_some_iff.mp first
    rw [ih later other,mem_count_relations _ inherited other,mem_countRelation one other,TreeSet.mem_toList]
    simp only [mem_cons,exists_eq_or_imp,or_assoc]

/-- The sets of the steps listed are the transitive closure of their needs. -/
def ExactFor (dependencies : String → List String) (listed : List String)
    (sets : TreeMap String (TreeSet String)) : Prop :=
  ∀ id ∈ listed, ∃ set, sets[id]? = some set ∧
    ∀ need, need ∈ set ↔ Relation.TransGen (fun id need => need ∈ dependencies id) id need

/-- One round of the loop: the needs of the next step are listed already, so their sets are exact. -/
private theorem exact_step {listed : List String} {id : String} {relations : Nat} {collected : TreeSet String × Nat}
    (before : ∀ need ∈ dependencies id, need ∈ listed) (exact : ExactFor dependencies listed sets)
    (round : (dependencies id).foldlM
      (fun (state : TreeSet String × Nat) need => do
        let counted ← countRelation state need
        (sets.getD need ∅).toList.foldlM countRelation counted) (∅,relations) = some collected) :
    ExactFor dependencies (listed ++ [id]) (sets.insert id collected.1) := by
  have members : ∀ other, other ∈ collected.1 ↔
      Relation.TransGen (fun id need => need ∈ dependencies id) id other := by
    intro other
    rw [mem_inherited _ round other,Relation.TransGen.head'_iff]
    simp only [TreeSet.not_mem_emptyc,false_or]
    refine exists_congr fun need => and_congr_right fun edge => ?_
    obtain ⟨set,stored,closure⟩ := exact need (before need edge)
    rw [Relation.reflTransGen_iff_eq_or_transGen,TreeMap.getD_eq_getD_getElem?,stored,Option.getD_some,closure]
  intro other member
  rw [TreeMap.getElem?_insert]
  by_cases same : id = other
  · subst same
    exact ⟨collected.1,by simp,members⟩
  · rw [if_neg (by simpa [Std.compare_eq_iff_eq] using same)]
    refine exact other ?_
    simpa [Ne.symm same] using member

private theorem exact_loop (order : List String) :
    ∀ (listed : List String) (state : TreeMap String (TreeSet String) × Nat)
      {state' : TreeMap String (TreeSet String) × Nat},
      Topological dependencies (listed ++ order) → ExactFor dependencies listed state.1 →
      order.foldlM (fun (state : TreeMap String (TreeSet String) × Nat) id => do
        let (ancestors,relations) ← (dependencies id).foldlM
          (fun (state' : TreeSet String × Nat) need => do
            let counted ← countRelation state' need
            (state.1.getD need ∅).toList.foldlM countRelation counted) (∅,state.2)
        some (state.1.insert id ancestors,relations)) state = some state' →
      ExactFor dependencies (listed ++ order) state'.1 := by
  induction order with
  | nil =>
    intro listed state state' _ exact loop
    cases loop
    simpa using exact
  | cons id rest ih =>
    intro listed state state' sorted exact loop
    obtain ⟨middle,first,later⟩ := Option.bind_eq_some_iff.mp loop
    obtain ⟨⟨ancestors,relations⟩,collected,stored⟩ := Option.bind_eq_some_iff.mp first
    cases stored
    have next := exact_step (sorted listed id rest rfl) exact collected
    have regrouped : listed ++ id :: rest = listed ++ [id] ++ rest := by simp
    rw [regrouped] at sorted ⊢
    exact ih (listed ++ [id]) _ sorted next later

/-- Taken in topological order, the ancestor sets are exact. -/
theorem transitive_needs_exact {order : List String} (sorted : Topological dependencies order)
    (within : transitive_needs order dependencies = some sets) : ExactFor dependencies order sets := by
  obtain ⟨⟨_,relations⟩,loop,rfl⟩ := Option.map_eq_some_iff.mp within
  exact exact_loop order [] (∅,0) sorted (fun _ none => absurd none (by simp)) loop

/-! ### Accepted plans -/

private theorem steps_distinct (steps : List WorkflowPlanStep) :
    ∀ (seen : TreeSet String) (order : Nat), planStepsProblems seen order steps = [] →
      (steps.map WorkflowPlanStep.id).Nodup ∧
        ∀ step ∈ steps, step.id ∉ seen ∧ isBlank step.id = false := by
  induction steps with
  | nil => simp
  | cons step rest ih =>
    intro seen order none
    rw [planStepsProblems,append_eq_nil_iff] at none
    obtain ⟨distinct,others⟩ := ih _ _ none.2
    have first := none.1
    simp only [planStepProblems,append_eq_nil_iff,problemIf_eq_nil] at first
    obtain ⟨⟨⟨⟨⟨⟨⟨⟨⟨⟨⟨⟨_,blank⟩,fresh⟩,_⟩,_⟩,_⟩,_⟩,_⟩,_⟩,_⟩,_⟩,_⟩,_⟩ := first
    simp only [TreeSet.mem_insert,not_or,Std.compare_eq_iff_eq] at others
    refine ⟨?_,?_⟩
    · rw [map_cons,nodup_cons,mem_map]
      refine ⟨?_,distinct⟩
      rintro ⟨other,member,same⟩
      exact (others other member).1.1 same.symm
    · intro other member
      rcases mem_cons.mp member with rfl | later
      · refine ⟨fun present => ?_,blank⟩
        simp [TreeSet.contains_iff_mem.mpr present] at fresh
      · exact ⟨(others other later).1.2,(others other later).2⟩

/-- What `verify` has established about the graph of a plan. -/
structure GraphAccepted (plan : WorkflowPlan) : Prop where
  distinct : plan.ids.Nodup
  present : ∀ step ∈ plan.steps, isBlank step.id = false
  known : ∀ id need, Needs plan id need ↔ KnownNeeds plan.steps id need
  acyclic : ∀ id, ¬ TransitiveNeeds plan id id

private theorem classified (ids : TreeSet String) (id need : String) :
    ∀ (needs : List String) (seen : TreeSet String), need ∈ needs →
      ∃ outcome, (need,outcome) ∈ classifyNeeds ids id seen needs := by
  intro needs
  induction needs with
  | nil => simp
  | cons head rest ih =>
    intro seen member
    rcases mem_cons.mp member with rfl | later
    · exact ⟨_,mem_cons_self⟩
    · obtain ⟨outcome,listed⟩ := ih (seen.insert head) later
      exact ⟨outcome,mem_cons_of_mem _ listed⟩

theorem verify_graph {digests : PlanDigests} {plan : WorkflowPlan} (accepted : plan.verify digests = .ok ()) :
    GraphAccepted plan := by
  have none := verify_ok accepted
  have reports := content_reports_cycle plan
  rw [none] at reports
  simp only [WorkflowPlan.contentProblems,append_eq_nil_iff,WorkflowPlan.totalProblems] at none
  obtain ⟨⟨⟨_,steps⟩,⟨⟨_,graph⟩,_⟩,_⟩,_⟩ := none
  obtain ⟨distinct,fields⟩ := steps_distinct plan.steps ∅ 0 steps
  have known : ∀ id need, Needs plan id need ↔ KnownNeeds plan.steps id need := by
    intro id need
    refine ⟨?_,fun needs => needs.imp fun _ parts => ⟨parts.1,parts.2.1,parts.2.2.1⟩⟩
    rintro ⟨step,member,rfl,needed⟩
    rw [validate_graph,append_eq_nil_iff,flatMap_eq_nil_iff] at graph
    obtain ⟨outcome,listed⟩ := classified (planIds plan.steps) step.id need step.needs ∅ needed
    have clear := flatMap_eq_nil_iff.mp (graph.1 step member) _ listed
    cases outcome <;> simp only [needProblem,cons_ne_nil] at clear
    obtain ⟨_,_,other,present⟩ := (mem_classifyNeeds _ _ _ _ _).mp listed
    exact ⟨step,member,rfl,needed,other,mem_map.mp ((mem_planIds plan.steps need).mp present)⟩
  have same : Needs plan = KnownNeeds plan.steps := by
    funext id need
    exact propext (known id need)
  refine ⟨distinct,fun step member => (fields step member).2,known,fun id cycle => ?_⟩
  rw [TransitiveNeeds,same] at cycle
  simpa using reports.mpr ⟨id,cycle⟩

section
variable {plan : WorkflowPlan} (accepted : GraphAccepted plan)
include accepted
theorem accepted_unique_ids (id : String) : id ∈ plan.as_validation_workflow.unique_ids ↔ id ∈ plan.ids := by
  rw [mem_unique_ids]
  simp only [WorkflowPlan.as_validation_workflow,mem_map,WorkflowPlan.ids]
  constructor
  · rintro ⟨_,⟨step,member,rfl⟩,_,rfl⟩; exact ⟨step,member,rfl⟩
  · rintro ⟨step,member,rfl⟩; exact ⟨_,⟨step,member,rfl⟩,accepted.present step member,rfl⟩

theorem accepted_needs_inside {id need : String} (needed : Needs plan id need) : id ∈ plan.ids ∧ need ∈ plan.ids := by
  obtain ⟨step,member,same,_,_,other,listed,equal⟩ := (accepted.known id need).mp needed
  exact ⟨mem_map.mpr ⟨step,member,same⟩,mem_map.mpr ⟨other,listed,equal⟩⟩

theorem accepted_edges (id need : String) : (id,need) ∈ plan.as_validation_workflow.edges ↔ Needs plan id need := by
  simp only [Workflow.edges,Workflow.knownSteps,mem_flatMap,mem_map,mem_filter,Prod.mk.injEq,
    TreeSet.contains_iff_mem,accepted_unique_ids accepted]
  simp only [WorkflowPlan.as_validation_workflow,mem_map]
  constructor
  · rintro ⟨_,⟨⟨step,member,rfl⟩,_⟩,_,⟨needed,_⟩,rfl,rfl⟩
    exact ⟨step,member,rfl,needed⟩
  · intro needed
    obtain ⟨here,there⟩ := accepted_needs_inside accepted needed
    obtain ⟨step,member,rfl,listed⟩ := needed
    exact ⟨_,⟨⟨step,member,rfl⟩,here⟩,need,⟨listed,there⟩,rfl,rfl⟩

theorem accepted_dependencies (id need : String) :
    need ∈ plan.as_validation_workflow.graph.dependencies.getD id [] ↔ Needs plan id need := by
  rw [← accepted_edges accepted]
  exact mem_needsOf _ _ id need

/-- The queue of `topo_sort` takes every step, each after its needs. -/
theorem accepted_topo_sort :
    let order := (topo_sort plan.as_validation_workflow.unique_ids
      plan.as_validation_workflow.graph.dependencies).1
    order.Perm plan.ids ∧
      Topological (fun id => plan.as_validation_workflow.graph.dependencies.getD id []) order := by
  let ids := plan.as_validation_workflow.unique_ids
  let edges := (edgesOf plan.as_validation_workflow.graph.dependencies).filter
    fun edge => ids.contains edge.1 && ids.contains edge.2
  have listed : ∀ id need, (id,need) ∈ edges ↔ Needs plan id need := by
    intro id need
    simp only [edges,mem_filter,mem_edgesOf,accepted_dependencies accepted,Bool.and_eq_true,
      TreeSet.contains_iff_mem,ids,accepted_unique_ids accepted,and_iff_left_iff_imp]
    exact accepted_needs_inside accepted
  have inside : ∀ edge ∈ edges, edge.1 ∈ ids.toList ∧ edge.2 ∈ ids.toList := by
    rintro ⟨id,need⟩ member
    simp only [TreeSet.mem_toList,ids,accepted_unique_ids accepted]
    exact accepted_needs_inside accepted ((listed id need).mp member)
  have needs : (fun id need => need ∈ (Adjacency.ofEdges ids.toList edges).needsOf id) = Needs plan := by
    funext id need
    rw [mem_needsOf,listed]
  have acyclic : Acyclic (Adjacency.ofEdges ids.toList edges).needsOf := by
    intro id
    rw [needs]
    exact accepted.acyclic id
  obtain ⟨complete,sorts⟩ := drain_complete_iff fifo_pushes (toList_nodup ids) inside (.refl _)
  obtain ⟨perm,sorted⟩ := sorts (complete.mpr acyclic)
  refine ⟨perm.trans ((perm_ext_iff_of_nodup (toList_nodup ids) accepted.distinct).mpr ?_),?_⟩
  · intro id
    rw [TreeSet.mem_toList,accepted_unique_ids accepted]
  · intro before id after split need member
    refine sorted before id after split need ?_
    exact (congrFun (congrFun needs id) need).mpr ((accepted_dependencies accepted id need).mp member)

end

/-- Accepted plans are acyclic, sorted and closed exactly, and a cycle of known needs is what `verify` reports as a
    cycle. -/
theorem graph_checks_are_exact (digests : PlanDigests) (plan : WorkflowPlan) :
    (plan.verify digests = .ok () →
      let wf := plan.as_validation_workflow
      let topo_order := (topo_sort wf.unique_ids wf.graph.dependencies).1
      (∀ id, ¬ TransitiveNeeds plan id id) ∧
      topo_order.Perm plan.ids ∧
      (∀ before id after, topo_order = before ++ id :: after → ∀ need, Needs plan id need → need ∈ before) ∧
      ∀ ancestors, transitive_needs topo_order (fun id => wf.graph.dependencies.getD id []) = some ancestors →
        ∀ id ∈ plan.ids, ∃ set, ancestors[id]? = some set ∧ ∀ need, need ∈ set ↔ TransitiveNeeds plan id need) ∧
    ((∃ problems, plan.verify digests = .error (.Validation problems) ∧ cycleProblem ∈ problems) ↔
      ∃ id, Relation.TransGen (KnownNeeds plan.steps) id id) := by
  refine ⟨fun verified => ?_,verify_reports_cycle digests plan⟩
  have accepted := verify_graph verified
  obtain ⟨perm,sorted⟩ := accepted_topo_sort accepted
  refine ⟨accepted.acyclic,perm,?_,?_⟩
  · intro before id after split need needed
    exact sorted before id after split need ((accepted_dependencies accepted id need).mpr needed)
  · intro ancestors within id listed
    obtain ⟨set,stored,closure⟩ := transitive_needs_exact sorted within id (perm.mem_iff.mpr listed)
    refine ⟨set,stored,fun need => ?_⟩
    rw [closure need,TransitiveNeeds]
    have same : (fun id need => need ∈ plan.as_validation_workflow.graph.dependencies.getD id []) = Needs plan := by
      funext id need
      exact propext (accepted_dependencies accepted id need)
    rw [same]

end Vyane.Workflows
