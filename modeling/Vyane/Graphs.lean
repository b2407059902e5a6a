import Mathlib

/-!
Finite dependency graphs given by adjacency lists: topological sorting by repeatedly removing nodes with no unprocessed
dependency, and the worklist traversal that collects everything reachable.
-/
namespace Vyane.Graphs
open Std List
set_option linter.unusedSectionVars false
set_option linter.unusedSimpArgs false
variable {α : Type} [Ord α]

/-! ### Adjacency from a list of edges -/

/-- For every node the number of its dependencies, the dependencies themselves and the nodes that depend on it. -/
structure Adjacency (α : Type) [Ord α] where
  degree : TreeMap α Nat
  dependencies : TreeMap α (List α)
  dependents : TreeMap α (List α)

def Adjacency.addNode (graph : Adjacency α) (node : α) : Adjacency α :=
  ⟨graph.degree.insert node 0,graph.dependencies.insert node [],graph.dependents.insert node []⟩
/-- The nodes of a list, without edges. -/
def Adjacency.isolated (nodes : List α) : Adjacency α := nodes.foldl Adjacency.addNode ⟨∅,∅,∅⟩
/-- Adds the edge by which its first node depends on its second. -/
def Adjacency.connect (graph : Adjacency α) (edge : α × α) : Adjacency α :=
  ⟨graph.degree.insert edge.1 (graph.degree.getD edge.1 0 + 1),
    graph.dependencies.insert edge.1 (graph.dependencies.getD edge.1 [] ++ [edge.2]),
    graph.dependents.insert edge.2 (graph.dependents.getD edge.2 [] ++ [edge.1])⟩
def Adjacency.ofEdges (nodes : List α) (edges : List (α × α)) : Adjacency α :=
  edges.foldl Adjacency.connect (Adjacency.isolated nodes)
def Adjacency.needsOf (graph : Adjacency α) (node : α) : List α := graph.dependencies.getD node []
def Adjacency.childrenOf (graph : Adjacency α) (node : α) : List α := graph.dependents.getD node []
/-- The nodes without dependencies, in key order. -/
def Adjacency.leaves (graph : Adjacency α) : List α :=
  (graph.degree.toList.filter fun entry => entry.2 = 0).map Prod.fst
/-- The edges of a map from nodes to their dependencies, in key order. -/
def edgesOf (dependencies : TreeMap α (List α)) : List (α × α) :=
  dependencies.toList.flatMap fun entry => entry.2.map (Prod.mk entry.1)

open Adjacency

section
variable [TransOrd α] [LawfulEqOrd α] [DecidableEq α]

private theorem getD_insert_eq {γ : Type} (map : TreeMap α γ) (key other : α) (value default : γ) :
    (map.insert key value).getD other default = if key = other then value else map.getD other default := by
  rw [TreeMap.getD_insert]
  simp [Std.compare_eq_iff_eq]

theorem degree_isolated (nodes : List α) (node : α) :
    (isolated nodes).degree[node]? = if node ∈ nodes then some 0 else none := by
  suffices general : ∀ graph : Adjacency α, (nodes.foldl addNode graph).degree[node]? =
      if node ∈ nodes then some 0 else graph.degree[node]? by
    simpa [isolated] using general ⟨∅,∅,∅⟩
  induction nodes with
  | nil => simp
  | cons head tail ih =>
    intro graph
    rw [foldl_cons,ih]
    by_cases listed : node ∈ tail
    · simp [listed]
    · by_cases same : head = node
      · simp [same,addNode]
      · have other : node ≠ head := fun equal => same equal.symm
        simp [listed,same,other,addNode,TreeMap.getElem?_insert,Std.compare_eq_iff_eq]

theorem lists_isolated (nodes : List α) (node : α) :
    (isolated nodes).needsOf node = [] ∧ (isolated nodes).childrenOf node = [] := by
  suffices general : ∀ graph : Adjacency α, graph.needsOf node = [] → graph.childrenOf node = [] →
      (nodes.foldl addNode graph).needsOf node = [] ∧
      (nodes.foldl addNode graph).childrenOf node = [] by
    exact general ⟨∅,∅,∅⟩ (by simp [needsOf]) (by simp [childrenOf])
  induction nodes with
  | nil => exact fun _ needs children => ⟨needs,children⟩
  | cons head tail ih =>
    intro graph needs children
    rw [foldl_cons]
    apply ih
    · simp only [addNode,needsOf,getD_insert_eq] at needs ⊢
      split_ifs <;> simp [needs]
    · simp only [addNode,childrenOf,getD_insert_eq] at children ⊢
      split_ifs <;> simp [children]

/-- A graph built from edges lists for every node exactly the edges that name it. -/
theorem ofEdges_lists (nodes : List α) (edges : List (α × α)) (node : α) :
    (ofEdges nodes edges).needsOf node = (edges.filter (·.1 = node)).map Prod.snd ∧
      (ofEdges nodes edges).childrenOf node = (edges.filter (·.2 = node)).map Prod.fst := by
  suffices general : ∀ graph : Adjacency α,
      (edges.foldl connect graph).needsOf node =
        graph.needsOf node ++ (edges.filter (·.1 = node)).map Prod.snd ∧
      (edges.foldl connect graph).childrenOf node =
        graph.childrenOf node ++ (edges.filter (·.2 = node)).map Prod.fst by
    simpa [ofEdges,lists_isolated nodes node] using general (isolated nodes)
  induction edges with
  | nil => simp
  | cons edge rest ih =>
    intro graph
    have needs : (graph.connect edge).needsOf node =
        if edge.1 = node then graph.needsOf node ++ [edge.2] else graph.needsOf node := by
      simp only [connect,needsOf,getD_insert_eq]
      split_ifs with same <;> simp [same]
    have children : (graph.connect edge).childrenOf node =
        if edge.2 = node then graph.childrenOf node ++ [edge.1] else graph.childrenOf node := by
      simp only [connect,childrenOf,getD_insert_eq]
      split_ifs with same <;> simp [same]
    rw [foldl_cons,(ih (graph.connect edge)).1,(ih (graph.connect edge)).2,needs,children]
    constructor
    · by_cases same : edge.1 = node <;> simp [same]
    · by_cases same : edge.2 = node <;> simp [same]

theorem ofEdges_degree {nodes : List α} {edges : List (α × α)} (inside : ∀ edge ∈ edges, edge.1 ∈ nodes) (node : α) :
    (ofEdges nodes edges).degree[node]? =
      if node ∈ nodes then some ((ofEdges nodes edges).needsOf node).length else none := by
  rw [(ofEdges_lists nodes edges node).1]
  suffices general : ∀ graph : Adjacency α, (∀ edge ∈ edges, edge.1 ∈ graph.degree) →
      (edges.foldl connect graph).degree[node]? =
        (graph.degree[node]?).map (· + (edges.filter (·.1 = node)).length) by
    have start := general (isolated nodes) fun edge member => by
      rw [TreeMap.mem_iff_isSome_getElem?,degree_isolated,if_pos (inside edge member)]
      rfl
    rw [ofEdges,start,degree_isolated]
    split_ifs <;> simp
  clear inside
  induction edges with
  | nil => simp
  | cons edge rest ih =>
    intro graph known
    have step : (graph.connect edge).degree[node]? =
        (graph.degree[node]?).map (· + if edge.1 = node then 1 else 0) := by
      have present : edge.1 ∈ graph.degree := known edge (by simp)
      simp only [connect,TreeMap.getElem?_insert,Std.compare_eq_iff_eq]
      split_ifs with same
      · subst same
        rw [TreeMap.getD_eq_getD_getElem?]
        obtain ⟨d,found⟩ := Option.isSome_iff_exists.mp (TreeMap.mem_iff_isSome_getElem?.mp present)
        simp [found]
      · simp
    rw [foldl_cons,ih (graph.connect edge) fun other member => by
      simp only [connect,TreeMap.mem_insert]
      exact Or.inr (known other (by simp [member])),step]
    by_cases same : edge.1 = node
    · simp [same,Option.map_map,Function.comp_def,Nat.add_assoc,Nat.add_comm 1]
    · simp [same]

theorem mem_needsOf (nodes : List α) (edges : List (α × α)) (node need : α) :
    need ∈ (ofEdges nodes edges).needsOf node ↔ (node,need) ∈ edges := by
  rw [(ofEdges_lists nodes edges node).1]
  constructor
  · intro member
    obtain ⟨⟨first,second⟩,kept,rfl⟩ := mem_map.mp member
    obtain ⟨listed,same⟩ := mem_filter.mp kept
    simp only [decide_eq_true_eq] at same
    exact same ▸ listed
  · intro listed
    exact mem_map.mpr ⟨(node,need),mem_filter.mpr ⟨listed,by simp⟩,rfl⟩
theorem mem_childrenOf (nodes : List α) (edges : List (α × α)) (node child : α) :
    child ∈ (ofEdges nodes edges).childrenOf node ↔ (child,node) ∈ edges := by
  rw [(ofEdges_lists nodes edges node).2]
  constructor
  · intro member
    obtain ⟨⟨first,second⟩,kept,rfl⟩ := mem_map.mp member
    obtain ⟨listed,same⟩ := mem_filter.mp kept
    simp only [decide_eq_true_eq] at same
    exact same ▸ listed
  · intro listed
    exact mem_map.mpr ⟨(child,node),mem_filter.mpr ⟨listed,by simp⟩,rfl⟩
theorem mem_edgesOf (dependencies : TreeMap α (List α)) (node need : α) :
    (node,need) ∈ edgesOf dependencies ↔ need ∈ dependencies.getD node [] := by
  rw [TreeMap.getD_eq_getD_getElem?]
  simp only [edgesOf,mem_flatMap,mem_map,Prod.mk.injEq]
  constructor
  · rintro ⟨⟨first,needs⟩,listed,other,member,rfl,rfl⟩
    rw [TreeMap.mem_toList_iff_getElem?_eq_some.mp listed]
    exact member
  · intro member
    cases found : dependencies[node]? with
    | none => simp [found] at member
    | some needs =>
      simp only [found,Option.getD_some] at member
      exact ⟨(node,needs),TreeMap.mem_toList_iff_getElem?_eq_some.mpr found,need,member,rfl,rfl⟩

end

/-! ### Removing nodes without dependencies -/

/-- Unprocessed dependencies of every node, the nodes that have none left, and the nodes already removed, in order. -/
structure Removal (α : Type) [Ord α] where
  degree : TreeMap α Nat
  ready : List α
  order : List α

/-- One edge out of a removed node: its target waits for one dependency less. -/
def release (push : List α → α → List α) (state : TreeMap α Nat × List α) (child : α) :
    TreeMap α Nat × List α :=
  match state.1[child]? with
  | none => state
  | some degree =>
    (state.1.insert child (degree - 1),
      if degree - 1 = 0 then push state.2 child else state.2)

/-- Removes ready nodes until none is left; every removal takes one unit of fuel. -/
def drain (push : List α → α → List α) (outgoing : α → List α) : Nat → Removal α → Removal α
  | 0, state => state
  | fuel + 1, state =>
    match state.ready with
    | [] => state
    | node :: rest =>
      let released := (outgoing node).foldl (release push) (state.degree,rest)
      drain push outgoing fuel ⟨released.1,released.2,state.order ++ [node]⟩

/-- Every node of the list stands after all its dependencies. -/
def Topological (dependencies : α → List α) (order : List α) : Prop :=
  ∀ before node after, order = before ++ node :: after → ∀ need ∈ dependencies node, need ∈ before

section
variable [TransOrd α] [LawfulEqOrd α] [DecidableEq α] {push : List α → α → List α} {dependencies : α → List α}
    {order : List α}
  {edges : List (α × α)}

/-- Appending or prepending to the worklist adds exactly the pushed node. -/
def Pushes (push : List α → α → List α) : Prop := ∀ list node, (push list node).Perm (node :: list)
theorem fifo_pushes : Pushes (fun (list : List α) node => list ++ [node]) :=
  fun list node => perm_append_singleton node list
theorem lifo_pushes : Pushes (fun (list : List α) node => node :: list) := fun list node => .refl (node :: list)

private theorem getElem?_release (degree : TreeMap α Nat) (child other : α) (n : Nat) :
    (degree.insert child n)[other]? = if child = other then some n else degree[other]? := by
  rw [TreeMap.getElem?_insert]
  simp [Std.compare_eq_iff_eq]

/-- Releasing a list of edges lowers each degree by the number of its edges, and
    the nodes that become ready are those whose degree was exactly that number. -/
theorem release_list (pushes : Pushes push) (children : List α) :
    ∀ (degree : TreeMap α Nat) (ready : List α),
      (∀ child ∈ children, ∃ d, degree[child]? = some d ∧ children.count child ≤ d) →
      ∃ fresh, (children.foldl (release push) (degree,ready)).2.Perm (fresh ++ ready) ∧ fresh.Nodup ∧
        (∀ node, node ∈ fresh ↔ node ∈ children ∧ degree[node]? = some (children.count node)) ∧
        ∀ node, (children.foldl (release push) (degree,ready)).1[node]? =
          (degree[node]?).map (· - children.count node) := by
  induction children with
  | nil =>
    intro degree ready _
    refine ⟨[],by simp,nodup_nil,by simp,fun node => ?_⟩
    cases h : degree[node]? <;> simp [h]
  | cons child rest ih =>
    intro degree ready enough
    obtain ⟨d,found,bound⟩ := enough child (by simp)
    simp only [count_cons_self] at bound
    have step : release push (degree,ready) child =
        (degree.insert child (d - 1),if d - 1 = 0 then push ready child else ready) := by
      simp [release,found]
    have restEnough : ∀ node ∈ rest, ∃ e, (degree.insert child (d - 1))[node]? = some e ∧ rest.count node ≤ e := by
      intro node member
      obtain ⟨e,foundNode,boundNode⟩ := enough node (by simp [member])
      by_cases same : child = node
      · subst same
        exact ⟨d - 1,by simp [getElem?_release],by omega⟩
      · exact ⟨e,by simp [getElem?_release,same,foundNode],by
          simpa [count_cons,same] using boundNode⟩
    obtain ⟨fresh,perm,distinct,members,degrees⟩ :=
      ih (degree.insert child (d - 1)) (if d - 1 = 0 then push ready child else ready) restEnough
    have lowered : ∀ node, ((child :: rest).foldl (release push) (degree,ready)).1[node]? =
        (degree[node]?).map (· - (child :: rest).count node) := by
      intro node
      rw [foldl_cons,step,degrees node,getElem?_release]
      by_cases same : child = node
      · subst same
        simp [found]
        omega
      · simp [same,count_cons]
    by_cases last : d - 1 = 0
    · have absent : child ∉ rest := fun member => by
        have := count_pos_iff.mpr member
        omega
      have notFresh : child ∉ fresh := fun member => absent ((members child).mp member).1
      refine ⟨child :: fresh,?_,nodup_cons.mpr ⟨notFresh,distinct⟩,?_,lowered⟩
      · rw [foldl_cons,step]
        simp only [last,if_true] at perm ⊢
        refine perm.trans ?_
        exact ((pushes ready child).append_left fresh).trans perm_middle
      · intro node
        by_cases same : child = node
        · subst same
          have : d = 1 := by omega
          simp [found,absent,this,count_eq_zero_of_not_mem absent]
        · have other : node ≠ child := fun equal => same equal.symm
          simp [members,getElem?_release,same,other,count_cons]
    · refine ⟨fresh,?_,distinct,?_,lowered⟩
      · rw [foldl_cons,step]
        simpa only [last,if_false] using perm
      · intro node
        by_cases same : child = node
        · subst same
          simp only [members,getElem?_release,found,count_cons_self,mem_cons,true_or,true_and,
            if_true,Option.some.injEq]
          constructor
          · rintro ⟨_,equal⟩; omega
          · intro equal
            have positive : 0 < rest.count child := by omega
            exact ⟨count_pos_iff.mp positive,by omega⟩
        · have other : node ≠ child := fun equal => same equal.symm
          simp [members,getElem?_release,same,other,count_cons]

/-- What holds between two removals: degrees count the unprocessed
    dependencies, and the nodes at degree zero are those removed or ready. -/
structure Consistent (nodes : List α) (dependencies : α → List α) (state : Removal α) : Prop where
  degrees : ∀ node ∈ nodes, state.degree[node]? = some ((dependencies node).countP (· ∉ state.order))
  distinct : (state.order ++ state.ready).Nodup
  known : ∀ node ∈ state.order ++ state.ready, node ∈ nodes
  zero : ∀ node ∈ nodes, node ∈ state.order ++ state.ready ↔ (dependencies node).countP (· ∉ state.order) = 0
  sorted : Topological dependencies state.order

theorem topological_snoc {node : α}
    (sorted : Topological dependencies order) (done : ∀ need ∈ dependencies node, need ∈ order) :
    Topological dependencies (order ++ [node]) := by
  intro before other after split need member
  rcases eq_nil_or_concat after with rfl | ⟨init,last,rfl⟩
  · obtain ⟨rfl,equal⟩ := append_inj_left' split rfl,append_inj_right' split rfl
    simp only [cons.injEq,and_true] at equal
    exact done need (equal ▸ member)
  · have regrouped : order ++ [node] = (before ++ other :: init) ++ [last] := by simpa using split
    have same := append_inj_left' regrouped rfl
    exact sorted before other init same need member

/-- The edges out of a node are those of the dependency lists that name it. -/
structure Transposed (nodes : List α) (dependencies outgoing : α → List α) : Prop where
  known : ∀ node, ∀ child ∈ outgoing node, child ∈ nodes
  count : ∀ node, ∀ child ∈ nodes, (outgoing node).count child = (dependencies child).count node

private theorem countP_snoc (list order : List α) (node : α) (fresh : node ∉ order) :
    list.countP (· ∉ order ++ [node]) = list.countP (· ∉ order) - list.count node ∧
      list.count node ≤ list.countP (· ∉ order) := by
  induction list with
  | nil => simp
  | cons head tail ih =>
    obtain ⟨equal,bound⟩ := ih
    by_cases same : head = node
    · subst same
      simp [fresh] at *
      omega
    · by_cases seen : head ∈ order
      · simp [same,seen,count_cons] at *
        omega
      · simp [same,seen,count_cons] at *
        omega

variable {nodes : List α} {dependencies outgoing : α → List α} {degree : TreeMap α Nat}

theorem remove_consistent (pushes : Pushes push) (transposed : Transposed nodes dependencies outgoing) {node : α}
    {rest order : List α} (consistent : Consistent nodes dependencies ⟨degree,node :: rest,order⟩) :
    Consistent nodes dependencies
      ⟨((outgoing node).foldl (release push) (degree,rest)).1,
        ((outgoing node).foldl (release push) (degree,rest)).2,order ++ [node]⟩ := by
  have distinct := consistent.distinct
  have fresh : node ∉ order := fun member => by
    have := (nodup_append.mp distinct).2.2 node member node (by simp)
    exact this rfl
  have nodeKnown : node ∈ nodes := consistent.known node (by simp)
  have enough : ∀ child ∈ outgoing node, ∃ d, degree[child]? = some d ∧ (outgoing node).count child ≤ d := by
    intro child member
    have childKnown := transposed.known node child member
    refine ⟨_,consistent.degrees child childKnown,?_⟩
    rw [transposed.count node child childKnown]
    exact (countP_snoc (dependencies child) order node fresh).2
  obtain ⟨added,perm,addedDistinct,members,degrees⟩ := release_list pushes (outgoing node) degree rest enough
  have lowered : ∀ child ∈ nodes, (dependencies child).countP (· ∉ order ++ [node]) =
      (dependencies child).countP (· ∉ order) - (outgoing node).count child := by
    intro child childKnown
    rw [transposed.count node child childKnown]
    exact (countP_snoc (dependencies child) order node fresh).1
  have addedIff : ∀ child, child ∈ added ↔ child ∈ nodes ∧ 0 < (outgoing node).count child ∧
      (dependencies child).countP (· ∉ order) = (outgoing node).count child := by
    intro child
    rw [members,count_pos_iff]
    constructor
    · rintro ⟨member,equal⟩
      have childKnown := transposed.known node child member
      have stored := consistent.degrees child childKnown
      simp only [stored,Option.some.injEq] at equal
      exact ⟨childKnown,member,equal⟩
    · rintro ⟨childKnown,member,equal⟩
      exact ⟨member,by rw [consistent.degrees child childKnown]; simpa using equal⟩
  have addedNew : ∀ child ∈ added, child ∉ order ++ node :: rest := by
    intro child member listed
    obtain ⟨childKnown,positive,equal⟩ := (addedIff child).mp member
    have := (consistent.zero child childKnown).mp listed
    simp only at this
    omega
  have readyMem : ∀ child, child ∈ ((outgoing node).foldl (release push) (degree,rest)).2 ↔
      child ∈ added ∨ child ∈ rest := by
    intro child
    rw [perm.mem_iff,mem_append]
  refine ⟨?_,?_,?_,?_,?_⟩
  · intro child childKnown
    simp only [degrees child,consistent.degrees child childKnown,Option.map_some,lowered child childKnown]
  · have whole : (order ++ [node] ++ (added ++ rest)).Nodup := by
      have base : (order ++ node :: rest).Nodup := distinct
      have moved : (order ++ [node] ++ (added ++ rest)).Perm (added ++ (order ++ node :: rest)) := by
        have swapped : (order ++ [node] ++ added).Perm (added ++ (order ++ [node])) := perm_append_comm
        simpa using swapped.append_right rest
      rw [moved.nodup_iff,nodup_append]
      exact ⟨addedDistinct,base,fun child member other listed equal =>
        addedNew child member (equal ▸ listed)⟩
    exact (perm.append_left (order ++ [node])).nodup_iff.mpr whole
  · intro child member
    simp only [mem_append,mem_singleton,readyMem] at member
    rcases member with (old | rfl) | new | old
    · exact consistent.known child (by simp [old])
    · exact nodeKnown
    · exact ((addedIff child).mp new).1
    · exact consistent.known child (by simp [old])
  · intro child childKnown
    have before := consistent.zero child childKnown
    simp only at before
    rw [lowered child childKnown]
    simp only [mem_append,mem_singleton,readyMem]
    have bound := (countP_snoc (dependencies child) order node fresh).2
    rw [← transposed.count node child childKnown] at bound
    constructor
    · intro member
      by_cases listed : child ∈ order ++ node :: rest
      · rw [before.mp listed]; simp
      · have new : child ∈ added := by simp at listed; tauto
        rw [((addedIff child).mp new).2.2]; simp
    · intro none
      by_cases listed : child ∈ order ++ node :: rest
      · simp at listed; tauto
      · have positive : (dependencies child).countP (· ∉ order) ≠ 0 := fun zero => listed (before.mpr zero)
        exact Or.inr (Or.inl ((addedIff child).mpr ⟨childKnown,by omega,by omega⟩))
  · apply topological_snoc consistent.sorted
    have none := (consistent.zero node nodeKnown).mp (by simp)
    simp only [countP_eq_zero,decide_eq_true_eq,not_not] at none
    exact none

/-- With fuel for every remaining node the removal stops because nothing is ready. -/
theorem drain_consistent (pushes : Pushes push) (transposed : Transposed nodes dependencies outgoing) :
    ∀ (fuel : Nat) (state : Removal α), Consistent nodes dependencies state →
      nodes.length ≤ fuel + state.order.length →
      Consistent nodes dependencies (drain push outgoing fuel state) ∧
        (drain push outgoing fuel state).ready = [] := by
  intro fuel
  induction fuel with
  | zero =>
    intro state consistent enough
    refine ⟨consistent,?_⟩
    have bound : (state.order ++ state.ready).length ≤ nodes.length :=
      (consistent.distinct.subperm consistent.known).length_le
    simp only [length_append] at bound
    exact length_eq_zero_iff.mp (by simp only [drain]; omega)
  | succ fuel ih =>
    intro state consistent enough
    obtain ⟨degree,ready,order⟩ := state
    cases ready with
    | nil => exact ⟨by simpa [drain] using consistent,by simp [drain]⟩
    | cons node rest =>
      simp only [drain]
      apply ih _ (remove_consistent pushes transposed consistent)
      simp only [length_append,length_singleton] at enough ⊢
      omega

/-- A removal that reached as many nodes as there are reached all of them, each once and after its dependencies. -/
theorem order_complete {state : Removal α}
    (consistent : Consistent nodes dependencies state) (all : state.order.length = nodes.length) :
    state.order.Perm nodes ∧ Topological dependencies state.order := by
  have orderDistinct := (nodup_append.mp consistent.distinct).1
  have sub : state.order.Subperm nodes :=
    orderDistinct.subperm fun node member => consistent.known node (by simp [member])
  exact ⟨sub.perm_of_length_le (by omega),consistent.sorted⟩

private theorem count_fst_eq_count_snd (edges : List (α × α)) (node child : α) :
    ((edges.filter (·.2 = node)).map Prod.fst).count child =
    ((edges.filter (·.1 = child)).map Prod.snd).count node := by
  induction edges with
  | nil => rfl
  | cons edge rest ih =>
    by_cases first : edge.1 = child <;> by_cases second : edge.2 = node <;> simp [first,second,ih,count_cons]

section
variable (inside : ∀ edge ∈ edges, edge.1 ∈ nodes)
include inside
theorem ofEdges_transposed :
    Transposed nodes (ofEdges nodes edges).needsOf (ofEdges nodes edges).childrenOf := by
  constructor
  · intro node child member
    exact inside _ ((mem_childrenOf nodes edges node child).mp member)
  · intro node child _
    rw [(ofEdges_lists nodes edges node).2,(ofEdges_lists nodes edges child).1]
    exact count_fst_eq_count_snd edges node child

theorem mem_leaves (node : α) :
    node ∈ (ofEdges nodes edges).leaves ↔
      node ∈ nodes ∧ (ofEdges nodes edges).needsOf node = [] := by
  have degree := ofEdges_degree inside node
  simp only [leaves,mem_map,mem_filter,decide_eq_true_eq]
  constructor
  · rintro ⟨⟨key,value⟩,⟨listed,zero⟩,rfl⟩
    rw [TreeMap.mem_toList_iff_getElem?_eq_some.mp listed] at degree
    split_ifs at degree with known
    simp only [Option.some.injEq] at degree
    exact ⟨known,length_eq_zero_iff.mp (degree ▸ zero)⟩
  · rintro ⟨known,none⟩
    rw [if_pos known,none] at degree
    exact ⟨(node,0),⟨TreeMap.mem_toList_iff_getElem?_eq_some.mpr degree,rfl⟩,rfl⟩

/-- Before the first removal the degrees count all dependencies. -/
theorem start_consistent :
    Consistent nodes (ofEdges nodes edges).needsOf
      ⟨(ofEdges nodes edges).degree,(ofEdges nodes edges).leaves,[]⟩ := by
  refine ⟨?_,?_,?_,?_,?_⟩
  · intro node known
    rw [ofEdges_degree inside node,if_pos known]
    simp
  · have keys := (ofEdges nodes edges).degree.nodup_keys
    rw [← TreeMap.map_fst_toList_eq_keys] at keys
    exact keys.sublist (filter_sublist.map Prod.fst)
  · intro node member
    exact ((mem_leaves inside node).mp (by simpa using member)).1
  · intro node known
    simp [mem_leaves inside node,known]
  · intro before node after split
    simp at split

end

/-- Removal from the leaves, taken in any order, with fuel for every node: if it reached all nodes, it sorted them. -/
theorem drain_ofEdges (pushes : Pushes push) (inside : ∀ edge ∈ edges, edge.1 ∈ nodes)
    (all : (drain push (ofEdges nodes edges).childrenOf nodes.length
      ⟨(ofEdges nodes edges).degree,(ofEdges nodes edges).leaves,[]⟩).order.length = nodes.length) :
    let order := (drain push (ofEdges nodes edges).childrenOf nodes.length
      ⟨(ofEdges nodes edges).degree,(ofEdges nodes edges).leaves,[]⟩).order
    order.Perm nodes ∧ Topological (ofEdges nodes edges).needsOf order :=
  order_complete (drain_consistent pushes (ofEdges_transposed inside) nodes.length _ (start_consistent inside)
    (by simp)).1 all

/-- The order of the ready nodes does not matter. -/
theorem Consistent.permute
    {order ready ready' : List α} (consistent : Consistent nodes dependencies ⟨degree,ready,order⟩)
    (perm : ready'.Perm ready) : Consistent nodes dependencies ⟨degree,ready',order⟩ := by
  have same : (order ++ ready').Perm (order ++ ready) := perm.append_left order
  exact ⟨consistent.degrees,same.nodup_iff.mpr consistent.distinct,
    fun node member => consistent.known node (same.mem_iff.mp member),
    fun node known => same.mem_iff.trans (consistent.zero node known),consistent.sorted⟩

/-- No node depends on itself, directly or through others. -/
def Acyclic (dependencies : α → List α) : Prop :=
  ∀ node, ¬ Relation.TransGen (fun node need => need ∈ dependencies node) node node

/-- In a sorted list every transitive dependency stands before its node. -/
theorem Topological.transitive (sorted : Topological dependencies order) {node need : α}
    (path : Relation.TransGen (fun node need => need ∈ dependencies node) node need) :
    ∀ before after, order = before ++ node :: after → need ∈ before := by
  induction path using Relation.TransGen.head_induction_on with
  | single edge => intro before after split; exact sorted before _ after split _ edge
  | @head node middle edge _ ih =>
    intro before after split
    obtain ⟨earlier,later,rfl⟩ := append_of_mem (sorted before node after split middle edge)
    exact mem_append_left _ (ih earlier (later ++ node :: after) (by simpa using split))

/-- A list that can be sorted has no cycle through its nodes. -/
theorem Topological.acyclic (sorted : Topological dependencies order) (distinct : order.Nodup)
    (listed : ∀ node, dependencies node ≠ [] → node ∈ order) : Acyclic dependencies := by
  intro node cycle
  obtain ⟨need,edge,_⟩ := Relation.TransGen.head'_iff.mp cycle
  obtain ⟨before,after,rfl⟩ := append_of_mem (listed node (ne_nil_of_mem edge))
  have earlier := sorted.transitive cycle before after rfl
  exact (nodup_append.mp distinct).2.2 node earlier node (by simp) rfl

/-- A removal that stopped has reached every node of an acyclic graph: of the
    nodes left over, one with no dependency left over would have been ready. -/
theorem acyclic_complete {state : Removal α}
    (consistent : Consistent nodes dependencies state) (stopped : state.ready = [])
    (inside : ∀ node ∈ nodes, ∀ need ∈ dependencies node, need ∈ nodes) (acyclic : Acyclic dependencies) :
    ∀ node ∈ nodes, node ∈ state.order := by
  by_contra missing
  push Not at missing
  obtain ⟨start,known,left⟩ := missing
  let later : {node // node ∈ nodes} → {node // node ∈ nodes} → Prop :=
    fun need node => Relation.TransGen (fun node need => need ∈ dependencies node) node.1 need.1
  have finite : Finite {node // node ∈ nodes} := (finite_toSet nodes).to_subtype
  have irreflexive : Std.Irrefl later := ⟨fun node => acyclic node.1⟩
  have transitive : IsTrans _ later := ⟨fun _ _ _ first second => second.trans first⟩
  have founded : WellFounded later := Finite.wellFounded_of_trans_of_irrefl later
  obtain ⟨least,out,minimal⟩ := founded.has_min {node | node.1 ∉ state.order} ⟨⟨start,known⟩,left⟩
  have waits : (dependencies least.1).countP (· ∉ state.order) ≠ 0 := by
    refine fun zero => out ?_
    simpa [stopped] using (consistent.zero least.1 least.2).mpr zero
  obtain ⟨need,edge,unprocessed⟩ := countP_pos_iff.mp (Nat.pos_of_ne_zero waits)
  exact minimal ⟨need,inside least.1 least.2 need edge⟩ (by simpa using unprocessed) (.single edge)

/-- Removal from the leaves reaches all nodes exactly when the graph has no cycle. -/
theorem drain_complete_iff (pushes : Pushes push)
    (distinct : nodes.Nodup) (inside : ∀ edge ∈ edges, edge.1 ∈ nodes ∧ edge.2 ∈ nodes)
    {ready : List α} (start : ready.Perm (ofEdges nodes edges).leaves) :
    let order := (drain push (ofEdges nodes edges).childrenOf nodes.length
      ⟨(ofEdges nodes edges).degree,ready,[]⟩).order
    (order.length = nodes.length ↔ Acyclic (ofEdges nodes edges).needsOf) ∧
      (order.length = nodes.length →
        order.Perm nodes ∧ Topological (ofEdges nodes edges).needsOf order) := by
  have sources : ∀ edge ∈ edges, edge.1 ∈ nodes := fun edge member => (inside edge member).1
  obtain ⟨consistent,stopped⟩ := drain_consistent pushes (ofEdges_transposed sources) nodes.length _
    ((start_consistent sources).permute start) (by simp)
  refine ⟨⟨fun all => ?_,fun acyclic => ?_⟩,fun all => order_complete consistent all⟩
  · obtain ⟨perm,sorted⟩ := order_complete consistent all
    refine sorted.acyclic (perm.nodup_iff.mpr distinct) fun node some => ?_
    obtain ⟨need,edge⟩ := exists_mem_of_ne_nil _ some
    exact perm.mem_iff.mpr (sources _ ((mem_needsOf nodes edges node need).mp edge))
  · have reached := acyclic_complete consistent stopped
      (fun node _ need edge => (inside _ ((mem_needsOf nodes edges node need).mp edge)).2) acyclic
    have orderDistinct := (nodup_append.mp consistent.distinct).1
    have below := (orderDistinct.subperm fun node member => consistent.known node (by simp [member])).length_le
    have above := (distinct.subperm reached).length_le
    omega

end

/-! ### Collecting what a start list reaches -/

section
variable {β : Type} [DecidableEq β] {children : β → List β} {seen after : Finset β} {blocked : β → Bool}
    {queue added : List β}

/-- Takes nodes from the front of the queue; a node that is neither blocked nor
    seen is collected and its successors join the queue. -/
def collect (blocked : β → Bool) (children : β → List β) :
    Nat → List β → Finset β → List β → List β × Finset β
  | 0, _, seen, out => (out,seen)
  | _ + 1, [], seen, out => (out,seen)
  | fuel + 1, node :: queue, seen, out =>
    if blocked node || decide (node ∈ seen) then collect blocked children fuel queue seen out
    else collect blocked children fuel (queue ++ children node) (insert node seen) (out ++ [node])

/-- The outcome of a traversal from a queue and a set of seen nodes. -/
structure Collected (blocked : β → Bool) (children : β → List β) (queue : List β) (seen : Finset β)
    (added : List β) (after : Finset β) : Prop where
  distinct : added.Nodup
  after_eq : ∀ node, node ∈ after ↔ node ∈ seen ∨ node ∈ added
  fresh : ∀ node ∈ added, node ∉ seen ∧ blocked node = false
  reached : ∀ node ∈ added, ∃ start ∈ queue, Relation.ReflTransGen (fun x y => y ∈ children x) start node
  start : ∀ node ∈ queue, blocked node = true ∨ node ∈ after
  closed : ∀ node ∈ added, ∀ child ∈ children node, blocked child = true ∨ child ∈ after

private theorem collected_skip {node : β} (skipped : blocked node = true ∨ node ∈ seen)
    (rest : Collected blocked children queue seen added after) :
    Collected blocked children (node :: queue) seen added after := by
  refine ⟨rest.distinct,rest.after_eq,rest.fresh,?_,?_,rest.closed⟩
  · intro other member
    obtain ⟨start,inQueue,path⟩ := rest.reached other member
    exact ⟨start,by simp [inQueue],path⟩
  · intro other member
    rcases mem_cons.mp member with rfl | inQueue
    · exact skipped.imp_right fun old => (rest.after_eq other).mpr (Or.inl old)
    · exact rest.start other inQueue

private theorem collected_visit {node : β} (open' : blocked node = false) (unseen : node ∉ seen)
    (rest : Collected blocked children (queue ++ children node) (insert node seen) added after) :
    Collected blocked children (node :: queue) seen (node :: added) after := by
  have nodeAfter : node ∈ after := (rest.after_eq node).mpr (Or.inl (by simp))
  refine ⟨?_,?_,?_,?_,?_,?_⟩
  · refine nodup_cons.mpr ⟨fun member => ?_,rest.distinct⟩
    exact (rest.fresh node member).1 (by simp)
  · intro other
    rw [rest.after_eq other]
    simp only [Finset.mem_insert,mem_cons]
    tauto
  · intro other member
    rcases mem_cons.mp member with rfl | later
    · exact ⟨unseen,open'⟩
    · obtain ⟨notSeen,notBlocked⟩ := rest.fresh other later
      exact ⟨fun old => notSeen (by simp [old]),notBlocked⟩
  · intro other member
    rcases mem_cons.mp member with rfl | later
    · exact ⟨other,by simp,.refl⟩
    · obtain ⟨start,inQueue,path⟩ := rest.reached other later
      rcases mem_append.mp inQueue with old | child
      · exact ⟨start,by simp [old],path⟩
      · exact ⟨node,by simp,.head child path⟩
  · intro other member
    rcases mem_cons.mp member with rfl | inQueue
    · exact Or.inr nodeAfter
    · exact rest.start other (by simp [inQueue])
  · intro other member child isChild
    rcases mem_cons.mp member with rfl | later
    · exact rest.start child (by simp [isChild])
    · exact rest.closed other later child isChild

/-- With fuel for the queue and for the edges out of every unseen node, the
    traversal collects exactly once what it reaches past blocked and seen nodes. -/
theorem collect_correct (blocked : β → Bool) (children : β → List β) (nodes : Finset β)
    (inside : ∀ node ∈ nodes, ∀ child ∈ children node, child ∈ nodes) :
    ∀ (fuel : Nat) (queue : List β) (seen : Finset β) (out : List β), (∀ node ∈ queue, node ∈ nodes) →
      queue.length + ∑ node ∈ nodes \ seen, (children node).length < fuel →
      ∃ added, (collect blocked children fuel queue seen out).1 = out ++ added ∧
        Collected blocked children queue seen added (collect blocked children fuel queue seen out).2 := by
  intro fuel
  induction fuel with
  | zero => intro queue seen out _ enough; omega
  | succ fuel ih =>
    intro queue seen out known enough
    cases queue with
    | nil =>
      refine ⟨[],by simp [collect],nodup_nil,by simp [collect],?_,?_,?_,?_⟩ <;> simp
    | cons node queue =>
      by_cases skipped : blocked node = true ∨ node ∈ seen
      · have step : collect blocked children (fuel + 1) (node :: queue) seen out =
            collect blocked children fuel queue seen out := by
          simp [collect,skipped]
        obtain ⟨added,outEq,rest⟩ := ih queue seen out (fun other member => known other (by simp [member])) (by
          simp only [length_cons] at enough; omega)
        exact ⟨added,by rw [step,outEq],by rw [step]; exact collected_skip skipped rest⟩
      · have open' : blocked node = false := by simpa using fun h => skipped (Or.inl h)
        have unseen : node ∉ seen := fun h => skipped (Or.inr h)
        have step : collect blocked children (fuel + 1) (node :: queue) seen out =
            collect blocked children fuel (queue ++ children node) (insert node seen) (out ++ [node]) := by
          simp [collect,open',unseen]
        have nodeKnown := known node (by simp)
        have split : ∑ other ∈ nodes \ seen, (children other).length =
            (children node).length + ∑ other ∈ nodes \ insert node seen, (children other).length := by
          rw [Finset.sdiff_insert]
          exact (Finset.add_sum_erase _ _ (by simp [nodeKnown,unseen])).symm
        obtain ⟨added,outEq,rest⟩ := ih (queue ++ children node) (insert node seen) (out ++ [node]) (by
            intro other member
            rcases mem_append.mp member with old | child
            · exact known other (by simp [old])
            · exact inside node nodeKnown other child) (by
          simp only [length_cons,length_append] at enough ⊢
          omega)
        refine ⟨node :: added,by rw [step,outEq]; simp,?_⟩
        rw [step]
        exact collected_visit open' unseen rest

end
end Vyane.Graphs
