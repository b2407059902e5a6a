import Vyane.RoutingChains

/-!
The candidates of a deferred automatic route (`validate_auto_route_candidates` and `resolve_auto_route_candidate_chains`
of `routing.rs`). Unless the router rejects the preference of its own tables for a tier that the service does not read
as frontier, every plan is made, and its chain is one of the validated ones.
-/
namespace Vyane.Routing
open Vyane.Core Text Kernel ToolChat Transactions List Option

/-- `{:#}` of the error. -/
def Failure.to_string : Failure → String
  | .Message text => text
  | .Error error => error.to_string
/-- An error is told with the candidate that it is about. -/
def ofCandidate {α : Type} (name : String) : Outcome α → Outcome α
  | .ok value => .ok value
  | .error failure => bail ("routing candidate `" ++ name ++ "`: " ++ failure.to_string)

/-- The chain of a candidate, as it passes the guard. -/
def candidateChain (loaded : LoadedConfig) (allow_frontier : Bool) (name : String) : Outcome (List BoundTarget) :=
  match loaded.config.profiles.get name with
  | none => bail s!"unknown routing candidate profile `{name}`"
  | some patch =>
    if patch.provider.isNone then bail s!"routing candidate profile `{name}` does not name a provider"
    else do
      let chain ← ofCandidate name (resolve_target_chain loaded name)
      ofCandidate name (guard_route_chain loaded.config name chain allow_frontier)

/-- The profiles that a route may choose. -/
def candidateNames (config : ResolvedConfig) (params : RouteParams) : List String :=
  let names := if params.candidate_profiles.isEmpty then config.profiles.entries.map Prod.fst
    else params.candidate_profiles
  if params.allow_frontier then names else names.filter fun name => (config.profiles.get name).any fun patch =>
    !profile_is_frontier patch
def candidateChains (loaded : LoadedConfig) (params : RouteParams) : Outcome (List (List BoundTarget)) :=
  if (candidateNames loaded.config params).isEmpty then bail "no eligible profiles remain for deferred auto routing"
  else (candidateNames loaded.config params).mapM (candidateChain loaded params.allow_frontier)

def resolve_auto_route_candidate_chains (loaded : LoadedConfig) (labels : Labels) :
    Outcome (List (List BoundTarget)) := do
  let params ← route_params_from_labels "" labels
  validate_route_param_values loaded.config params
  candidateChains loaded params

def validate_auto_route_candidates (loaded : LoadedConfig) (labels : Labels) : Outcome Unit := do
  let _ ← resolve_auto_route_candidate_chains loaded labels
  .ok ()

/-! ### Candidates -/

variable {config : ResolvedConfig} {params : RouteParams} {candidates : List Candidate} {candidate : Candidate}

theorem BTreeMap.get_of_mem {α : Type} {map : BTreeMap α} {key : String} {value : α}
    (member : (key,value) ∈ map.entries) : map.get key = some value := by
  have distinct : (map.entries.map Prod.fst).Nodup := map.sorted.imp fun less => less.ne
  cases found : map.get key with
  | none =>
    have missing := find?_eq_none.mp (map_eq_none_iff.mp found) _ member
    simp at missing
  | some other =>
    have same := inj_on_of_nodup_map distinct member (BTreeMap.mem_of_get found) rfl
    rw [(Prod.mk.inj same).2]

theorem mem_sortByTier : candidate ∈ sortByTier candidates ↔ candidate ∈ candidates := by
  have rank : tierRank candidate < 4 := by
    rw [tierRank]
    split
    · decide
    · split_ifs <;> decide
  simp only [sortByTier,mem_flatMap,mem_range,mem_filter,decide_eq_true_eq]
  exact ⟨fun ⟨_,_,member,_⟩ => member,fun member => ⟨_,rank,member,rfl⟩⟩

/-- The profiles that are named, with what is configured for them. -/
def named (config : ResolvedConfig) (params : RouteParams) : List Candidate :=
  if params.candidate_profiles.isEmpty then config.profiles.entries
  else params.candidate_profiles.filterMap fun name => (config.profiles.get name).map fun patch => (name,patch)
/-- Those that a route may choose: with a provider, and not frontier where that is not allowed. -/
def listed (config : ResolvedConfig) (params : RouteParams) : List Candidate :=
  (if params.allow_frontier then named config params else (named config params).filter fun candidate =>
    !profile_is_frontier candidate.2).filter
    fun candidate => candidate.2.provider.isSome

theorem mem_named : candidate ∈ named config params ↔
    candidate.1 ∈ (if params.candidate_profiles.isEmpty then config.profiles.entries.map Prod.fst
      else params.candidate_profiles)
      ∧ config.profiles.get candidate.1 = some candidate.2 := by
  obtain ⟨name,patch⟩ := candidate
  rw [named]
  split_ifs
  · exact ⟨fun member => ⟨mem_map_of_mem member,BTreeMap.get_of_mem member⟩,fun found => BTreeMap.mem_of_get found.2⟩
  · simp only [mem_filterMap,map_eq_some_iff,Prod.mk.injEq]
    constructor
    · rintro ⟨_,member,_,found,rfl,rfl⟩
      exact ⟨member,found⟩
    · exact fun ⟨member,found⟩ => ⟨name,member,patch,found,rfl,rfl⟩

theorem mem_listed : candidate ∈ listed config params ↔
    candidate.1 ∈ candidateNames config params ∧ config.profiles.get candidate.1 = some candidate.2 ∧
      candidate.2.provider.isSome = true := by
  rw [listed,mem_filter,candidateNames]
  cases params.allow_frontier with
  | true => simp only [if_true,mem_named,and_assoc]
  | false =>
    simp only [Bool.false_eq_true,if_false,mem_filter,mem_named]
    constructor
    · rintro ⟨⟨⟨member,found⟩,tier⟩,provider⟩
      exact ⟨⟨member,by rw [found]; exact tier⟩,found,provider⟩
    · rintro ⟨⟨member,tier⟩,found,provider⟩
      rw [found] at tier
      exact ⟨⟨⟨member,found⟩,tier⟩,provider⟩

theorem route_candidates_eq (someListed : listed config params ≠ []) : route_candidates config params =
    .ok (sortByTier (listed config params)) := by
  have eligible : (if params.allow_frontier then named config params else (named config params).filter fun candidate =>
    !profile_is_frontier candidate.2) ≠ [] := by
    intro empty
    exact someListed (by rw [listed,empty]; rfl)
  have all : named config params ≠ [] := by
    intro empty
    rw [empty] at eligible
    split_ifs at eligible <;> exact eligible rfl
  rw [← isEmpty_eq_false_iff] at someListed eligible all
  show (do
    if (named config params).isEmpty then bail "no candidate profiles available for routing" else .ok ()
    if (if params.allow_frontier then named config params else (named config params).filter fun candidate =>
      !profile_is_frontier candidate.2).isEmpty then
      bail "frontier routing is disabled and no non-frontier candidate profiles remain"
    else .ok ()
    if (listed config params).isEmpty then bail "candidate profiles do not name any providers" else .ok ()
    .ok (sortByTier (listed config params))) = _
  rw [all,eligible,someListed]
  rfl

/-! ### Decisions -/

/-- Candidates that a preference can be made for. -/
def Executable (candidates : List Candidate) : Prop := ∀ candidate ∈ candidates, candidate.2.provider.isSome = true
theorem eq_ignore_ascii_case_refl (value : String) : eq_ignore_ascii_case value value = true := by
  simp [eq_ignore_ascii_case,Text.eq_ignore_ascii_case]

theorem providersOf_snoc (before : List Candidate) (last : Candidate) :
    providersOf (before ++ [last]) = match last.2.provider with
      | none => providersOf before
      | some provider => if (providersOf before).any (eq_ignore_ascii_case · provider) then providersOf before
        else providersOf before ++ [provider] := by
  rw [providersOf,foldl_append,foldl_cons,foldl_nil]
  rfl

theorem providersOf_any (member : candidate ∈ candidates) {provider : String}
    (own : candidate.2.provider = some provider) :
    (providersOf candidates).any (eq_ignore_ascii_case · provider) = true := by
  induction candidates using reverseRecOn with
  | nil => cases member
  | append_singleton before last ih =>
    rw [providersOf_snoc]
    rcases mem_append.mp member with earlier | here
    · have found := ih earlier
      split
      · exact found
      · split_ifs
        · exact found
        · rw [any_append,found,Bool.true_or]
    · rw [← mem_singleton.mp here,own]
      dsimp only
      split_ifs with seen
      · exact seen
      · rw [any_append,any_cons,eq_ignore_ascii_case_refl,Bool.true_or,Bool.or_true]

theorem firstEntry_preference {keys : ProfilePatch → List String} {key : String} {pref : RouteTargetPreference}
    (found : firstEntry (preferencesBy keys candidates) key = some pref) :
    ∃ candidate ∈ candidates, preference candidate = some pref := by
  obtain ⟨entry,search,rfl⟩ := map_eq_some_iff.mp found
  obtain ⟨candidate,member,made⟩ := mem_flatMap.mp (mem_of_find?_eq_some search)
  split at made
  · cases made
  · rename_i pref known
    obtain ⟨_,_,rfl⟩ := mem_map.mp made
    exact ⟨candidate,member,known⟩

/-- Whatever the stage, the tags and the tier are, some candidate is preferred. -/
theorem resolve_preference (executable : Executable candidates) (someCandidate : candidates ≠ []) (stage : String)
    (tags : List String) (tier : RouteTier) :
    ∃ pref, (preferenceTable candidates).resolve stage tags tier = some pref ∧ ∃ candidate ∈ candidates,
      preference candidate = some pref := by
  have hasDefault : (preferenceTable candidates).default.isSome = true := by
    obtain ⟨first,rest,rfl⟩ := exists_cons_of_ne_nil someCandidate
    simpa [preferenceTable,preference] using executable first mem_cons_self
  have total : ((preferenceTable candidates).resolve stage tags tier).isSome = true := by
    simp [RoutePreferenceTable.resolve,hasDefault]
  obtain ⟨pref,found⟩ := isSome_iff_exists.mp total
  refine ⟨pref,found,?_⟩
  simp only [RoutePreferenceTable.resolve,preferenceTable,or_eq_some_iff] at found
  rcases found with stage | ⟨-,tag | ⟨-,tier | ⟨-,hasDefault⟩⟩⟩
  · split_ifs at stage
    exact firstEntry_preference stage
  · obtain ⟨_,_,tag⟩ := exists_of_findSome?_eq_some tag
    exact firstEntry_preference tag
  · exact firstEntry_preference tier
  · obtain ⟨candidate,first,made⟩ := bind_eq_some_iff.mp hasDefault
    exact ⟨candidate,mem_of_head? first,made⟩

/-- The preference that the tables have for the task. -/
def preferred (inference : Inference) (params : RouteParams) (candidates : List Candidate) :
    Option RouteTargetPreference :=
  let tags := mergeTags params.signals.task_tags (inference.tags params.task)
  (preferenceTable candidates).resolve params.signals.stage tags
    (tier_for_score (complexity_score params.task params.signals tags) params.signals)
/-- The router rejects it: frontier models are not allowed, and it reads the tier of the candidate as one. -/
def Rejected (inference : Inference) (params : RouteParams) (candidates : List Candidate) : Prop :=
  params.allow_frontier = false ∧ (preferred inference params candidates).any (readsFrontier ·.tier) = true
/-- A candidate with an empty name and the first provider, which the decision without a key then stands for. -/
def Unnamed (candidates : List Candidate) : Prop :=
  ∃ candidate ∈ candidates, candidate.1 = "" ∧
    ∃ provider, (providersOf candidates).head? = some provider ∧
      candidate.2.provider.any (eq_ignore_ascii_case · provider) = true

/-- The router takes the preference of a candidate, or rejects it and decides for no key. -/
theorem decideRoute_cases (inference : Inference) (params : RouteParams) (executable : Executable candidates)
    (someCandidate : candidates ≠ []) :
    (¬Rejected inference params candidates ∧
      ∃ candidate ∈ candidates, (decideRoute inference params candidates).selection_key = candidate.1
      ∧ candidate.2.provider = some (decideRoute inference params candidates).provider) ∨
    (Rejected inference params candidates ∧ (decideRoute inference params candidates).selection_key = "" ∧
      (providersOf candidates).head? = some (decideRoute inference params candidates).provider) := by
  rw [decideRoute,routerRouteTask,Rejected,preferred]
  dsimp only
  generalize mergeTags params.signals.task_tags (inference.tags params.task) = tags
  generalize tier_for_score (complexity_score params.task params.signals tags) params.signals = tier
  obtain ⟨pref,found,candidate,member,made⟩ :=
    resolve_preference executable someCandidate params.signals.stage tags tier
  obtain ⟨provider,own,rfl⟩ := map_eq_some_iff.mp made
  have available := providersOf_any member own
  rw [found]
  simp only [available,any_some,RouteParams.signals,any_nil,Bool.or_false,Bool.and_true]
  by_cases taken : (!readsFrontier (candidate.2.tier.getD "") || params.allow_frontier) = true
  · simp only [if_pos taken]
    exact .inl ⟨by rintro ⟨off,reads⟩; simp [off,reads] at taken,candidate,member,rfl,own⟩
  · obtain ⟨first,rest,split⟩ :=
      exists_cons_of_ne_nil (show providersOf candidates ≠ [] from fun empty => by simp [empty] at available)
    simp only [if_neg taken,split,head?_cons,getD_some]
    refine .inr ⟨?_,trivial,trivial⟩
    simpa [and_comm] using taken

/-! ### Plans -/

/-- The parameters but for the prompt are those of the labels. -/
theorem route_params_of_prompt {labels : Labels} (read : route_params_from_labels "" labels = .ok params)
    (prompt : String) :
    route_params_from_labels prompt labels = .ok { params with task := prompt } := by
  unfold route_params_from_labels at read
  obtain ⟨stage,first,read⟩ := bind_eq_ok.mp read
  obtain ⟨tier,second,read⟩ := bind_eq_ok.mp read
  obtain ⟨effort,third,read⟩ := bind_eq_ok.mp read
  obtain ⟨tags,fourth,read⟩ := bind_eq_ok.mp read
  obtain ⟨allow_frontier,fifth,read⟩ := bind_eq_ok.mp read
  obtain ⟨candidates,sixth,read⟩ := bind_eq_ok.mp read
  cases read
  refine bind_eq_ok.mpr ⟨stage,first,?_⟩
  refine bind_eq_ok.mpr ⟨tier,second,?_⟩
  refine bind_eq_ok.mpr ⟨effort,third,?_⟩
  refine bind_eq_ok.mpr ⟨tags,fourth,?_⟩
  refine bind_eq_ok.mpr ⟨allow_frontier,fifth,?_⟩
  exact bind_eq_ok.mpr ⟨candidates,sixth,rfl⟩

theorem ofCandidate_ok {α : Type} {name : String} {result : Outcome α} {value : α}
    (told : ofCandidate name result = .ok value) : result = .ok value := by
  cases result with
  | error failure => cases told
  | ok other => exact told

/-- A candidate whose chain is made names a provider; its chain resolves and passes the guard. -/
theorem candidateChain_ok {loaded : LoadedConfig} {allow_frontier : Bool} {name : String} {guarded : List BoundTarget}
    (made : candidateChain loaded allow_frontier name = .ok guarded) :
    (∃ patch, loaded.config.profiles.get name = some patch ∧ patch.provider.isSome = true) ∧
      ∃ chain, resolve_target_chain loaded name = .ok chain ∧
        guard_route_chain loaded.config name chain allow_frontier = .ok guarded := by
  unfold candidateChain at made
  cases known : loaded.config.profiles.get name with
  | none => simp [known,bail] at made
  | some patch =>
    simp only [known] at made
    split_ifs at made with provider
    · cases made
    · obtain ⟨chain,resolved,made⟩ := bind_eq_ok.mp made
      exact ⟨⟨patch,rfl,by simpa [isSome_iff_ne_none] using provider⟩,chain,ofCandidate_ok resolved,ofCandidate_ok made⟩

/-- A key that is decided and is that of a candidate, with its provider, makes a route. -/
theorem route_task_candidate {inference : Inference} (valid : validate_route_param_values config params = .ok ())
    (someListed : listed config params ≠ []) (member : candidate ∈ sortByTier (listed config params))
    (key : (decideRoute inference params (sortByTier (listed config params))).selection_key = candidate.1)
    (own : candidate.2.provider.any
      (eq_ignore_ascii_case · (decideRoute inference params (sortByTier (listed config params))).provider) = true) :
    ∃ route, route_task inference config params = .ok route ∧ route.profile ∈ candidateNames config params := by
  obtain ⟨name,known,provided⟩ := mem_listed.mp (mem_sortByTier.mp member)
  have providers : (providersOf (sortByTier (listed config params))).isEmpty = false := by
    obtain ⟨provider,named⟩ := isSome_iff_exists.mp provided
    obtain ⟨_,inside,_⟩ := any_eq_true.mp (providersOf_any member named)
    exact isEmpty_eq_false_iff.mpr (ne_nil_of_mem inside)
  unfold route_task
  simp only [valid,route_candidates_eq someListed,providers,bind,Except.bind]
  generalize decideRoute inference params (sortByTier (listed config params)) = decision at key own
  cases search : (sortByTier (listed config params)).find? fun candidate => candidate.1 == decision.selection_key with
  | none =>
    have missing := find?_eq_none.mp search _ member
    simp [key] at missing
  | some found =>
    have same := find?_some search
    rw [beq_iff_eq,key] at same
    simp only [same,known,own,if_true]
    exact ⟨_,rfl,name⟩

/-- A route is made just if the preference is not rejected, or a candidate has the name of the decision without a
    key. -/
theorem route_task_iff (inference : Inference) (valid : validate_route_param_values config params = .ok ())
    (someListed : listed config params ≠ []) :
    (∃ route, route_task inference config params = .ok route ∧ route.profile ∈ candidateNames config params) ↔
      (Rejected inference params (sortByTier (listed config params)) →
        Unnamed (sortByTier (listed config params))) := by
  have executable : Executable (sortByTier (listed config params)) :=
    fun candidate member => (mem_listed.mp (mem_sortByTier.mp member)).2.2
  have sorted : sortByTier (listed config params) ≠ [] := by
    obtain ⟨first,rest,split⟩ := exists_cons_of_ne_nil someListed
    exact ne_nil_of_mem (mem_sortByTier.mpr (split ▸ mem_cons_self : first ∈ listed config params))
  rcases decideRoute_cases inference params executable sorted
    with ⟨taken,candidate,member,key,own⟩ | ⟨rejected,key,first⟩
  · exact iff_of_true (route_task_candidate valid someListed member key
      (by rw [own]; exact eq_ignore_ascii_case_refl _)) fun rejected => absurd rejected taken
  · constructor
    · rintro ⟨route,routed,_⟩ -
      obtain ⟨candidates,patch,made,known,selected,⟨candidate,member,named⟩,own⟩ := route_task_ok routed
      rw [route_candidates_eq someListed] at made
      cases made
      obtain ⟨_,stored,_⟩ := mem_listed.mp (mem_sortByTier.mp member)
      rw [named,known] at stored
      cases stored
      exact ⟨candidate,member,by rw [named,← selected,key],_,first,own⟩
    · intro unnamed
      obtain ⟨candidate,member,empty,provider,head,own⟩ := unnamed rejected
      rw [← some.inj (first.symm.trans head)] at own
      exact route_task_candidate valid someListed member (by rw [key,empty]) own

/-- Where the candidates are valid, a prompt is planned with the chain of one of them, with the decided effort, if and
    only if the router does not reject the preference for it, or a candidate has the empty name that it then decides
    for. -/
theorem auto_plan_is_candidate (inference : Inference) (loaded : LoadedConfig) (selector : String) (task : TaskSpec)
    (auto : eq_ignore_ascii_case selector "auto" = true)
    (valid : validate_auto_route_candidates loaded task.labels = .ok ()) :
    ∃ chains params candidates, resolve_auto_route_candidate_chains loaded task.labels = .ok chains ∧
      route_params_from_labels task.prompt task.labels = .ok params ∧
        route_candidates loaded.config params = .ok candidates ∧
      ((∃ plan after route chain, plan_dispatch inference loaded selector task = .ok (plan,after) ∧
        plan.route = some route ∧ chain ∈ chains ∧ plan.chain = chain.map (apply_route_effort route.decision)) ↔
      (Rejected inference params candidates → Unnamed candidates)) := by
  obtain ⟨chains,resolved,_⟩ := bind_eq_ok.mp valid
  obtain ⟨params,read,rest⟩ := bind_eq_ok.mp resolved
  obtain ⟨values,made⟩ := then_eq_ok.mp rest
  unfold candidateChains at made
  split at made
  · cases made
  · rename_i someNamed
    have someListed : listed loaded.config params ≠ [] := by
      obtain ⟨name,member⟩ := exists_mem_of_ne_nil _ (by simpa using someNamed)
      obtain ⟨_,_,first⟩ := mapM_eq_ok_of_mem made member
      obtain ⟨⟨patch,known,provider⟩,_⟩ := candidateChain_ok first
      exact ne_nil_of_mem (mem_listed.mpr ⟨member,known,provider⟩ : (name,patch) ∈ listed loaded.config params)
    -- neither the checks nor the candidates read the prompt
    have prompted := route_params_of_prompt read task.prompt
    have candidatesOf := @route_candidates_eq loaded.config { params with task := task.prompt } someListed
    refine ⟨chains,{ params with task := task.prompt },_,resolved,prompted,candidatesOf,?_⟩
    rw [← @route_task_iff loaded.config { params with task := task.prompt } inference values someListed]
    constructor
    · rintro ⟨plan,after,_,_,planned,_⟩
      simp only [plan_dispatch,auto,if_true,prompted,bind,Except.bind] at planned
      cases routed : route_task inference loaded.config { params with task := task.prompt } with
      | error failure => simp [routed] at planned
      | ok route =>
        obtain ⟨candidates,patch,found,_,_,⟨candidate,member,named⟩,_⟩ := route_task_ok routed
        obtain rfl := Except.ok.inj (candidatesOf.symm.trans found)
        exact ⟨route,rfl,named ▸ (mem_listed.mp (mem_sortByTier.mp member)).1⟩
    · rintro ⟨route,routed,name⟩
      obtain ⟨guarded,member,chosen⟩ := mapM_eq_ok_of_mem made name
      obtain ⟨_,chain,chainResolved,passed⟩ := candidateChain_ok chosen
      refine ⟨⟨route.profile,guarded.map (apply_route_effort route.decision),some route⟩,
        { task with labels := record_route_labels task.labels route (guarded.map (apply_route_effort route.decision)) },
        route,guarded,?_,rfl,member,rfl⟩
      simp only [plan_dispatch,auto,if_true,prompted,routed,chainResolved,passed,bind,Except.bind]

/-- With the frontier profile named exactly so, the two others are the candidates. -/
theorem tiered_plan_is_candidate :
    validate_auto_route_candidates tiered [("allow_frontier","false")] = .ok () ∧
      ∃ chains plan after route chain, resolve_auto_route_candidate_chains tiered
        [("allow_frontier","false")] = .ok chains ∧
        plan_dispatch noInference tiered "auto" (taskWith [("allow_frontier","false")]) = .ok (plan,after) ∧
          plan.route = some route ∧ chain ∈ chains ∧ plan.chain = chain.map (apply_route_effort route.decision) := by
  have valid : validate_auto_route_candidates tiered [("allow_frontier","false")] = .ok () := by
    have passes : (validate_auto_route_candidates tiered [("allow_frontier","false")]).toOption.isSome = true := by
      decide +kernel
    cases result : validate_auto_route_candidates tiered [("allow_frontier","false")] with
    | error failure => simp [result,Except.toOption] at passes
    | ok made => rfl
  obtain ⟨chains,params,candidates,resolved,read,listed,exactly⟩ :=
    auto_plan_is_candidate noInference tiered "auto" (taskWith [("allow_frontier","false")]) (by decide) valid
  have taken : ((route_params_from_labels "hello" [("allow_frontier","false")]).toOption.bind fun params =>
      (route_candidates tiered.config params).toOption.map fun candidates =>
        (preferred noInference params candidates).any (readsFrontier ·.tier)) = some false := by decide +kernel
  rw [show route_params_from_labels "hello" [("allow_frontier","false")] = .ok params from read] at taken
  simp only [Except.toOption,bind_some,listed,map_some,some.injEq] at taken
  obtain ⟨plan,after,route,chain,planned⟩ := exactly.mpr fun rejected => absurd rejected.2 (by simp [taken])
  exact ⟨valid,chains,plan,after,route,chain,resolved,planned⟩

/-- The only profile, whose tier has a space before it. -/
def loneSpaced : LoadedConfig where
  config := {
    providers := ⟨[("relay",relay)],relay_alone⟩
    profiles := ⟨[("strong",profileOf " frontier" (some "large") [])],by decide⟩ }
  env_lookup := fun _ => none

/-- The validator takes the profile for a candidate, the router does not: the labels are valid and the plan fails. -/
theorem valid_labels_fail :
    (validate_auto_route_candidates loneSpaced [("allow_frontier","false")]).toOption = some () ∧
      (plan_dispatch noInference loneSpaced "auto" (taskWith [("allow_frontier","false")])).toOption.isNone = true := by
  refine ⟨?_,?_⟩ <;> decide +kernel

end Vyane.Routing
