import Vyane.Routing
import Vyane.Transactions

/-!
The chain of an automatic route. Where the name of the selected profile is not taken for another selector, it is the
profile with its declared legs just if the tiers that the call reads are spelled as the router reads them.
-/
namespace Vyane.Routing
open Vyane.Core Text Kernel ToolChat Transactions List

/-- A name that a selector takes for a profile. -/
def PlainName (name : String) : Prop :=
  stripStart "profile:" name = none ∧ stripStart "target:" name = none ∧ parse_provider_model name = none
/-- The router reads the tier of the profile as frontier. -/
def tierIsFrontier (patch : ProfilePatch) : Bool := patch.tier.any readsFrontier
/-- The service takes the tier of the profile for the frontier if the router does. -/
def Agrees (patch : ProfilePatch) : Prop := tierIsFrontier patch = true → profile_is_frontier patch = true
/-- So it is for the selected profile and for those that its legs name. -/
def TiersAgree (config : ResolvedConfig) (patch : ProfilePatch) : Prop :=
  Agrees patch ∧ ∀ name leg, .ProfileName name ∈ patch.failover.getD [] →
    config.profiles.get name = some leg → Agrees leg
/-- A leg stays in the chain: any, if frontier models are allowed, else those that do not name a frontier profile. -/
def stays (config : ResolvedConfig) (allow_frontier : Bool) : RawFailoverElement → Bool
  | .ProfileName name => allow_frontier || !(config.profiles.get name).any tierIsFrontier
  | .ProviderModel _ _ => true
/-- The legs that stay, of the declared ones and what they are resolved to. -/
def staying (config : ResolvedConfig) (allow_frontier : Bool) (legs : List (RawFailoverElement × BoundTarget)) :
    List BoundTarget :=
  (legs.filter fun leg => stays config allow_frontier leg.1).map Prod.snd

/-- A leg that reaches no frontier model: the tier of its profile is another one, or those of
    all profiles with its provider and model are. -/
def Clear (config : ResolvedConfig) : RawFailoverElement → Prop
  | .ProfileName name => ∀ patch, config.profiles.get name = some patch → tierIsFrontier patch = false
  | .ProviderModel provider model => ∀ entry ∈ config.profiles.entries,
      entry.2.provider.any (eq_ignore_ascii_case · provider) = true →
      profileModel ((config.providers.get provider).bind Provider.default_model) entry.2 = some model →
        tierIsFrontier entry.2 = false

/-! ### Reading results -/

theorem BTreeMap.mem_of_get {α : Type} {map : BTreeMap α} {key : String} {value : α}
    (found : map.get key = some value) : (key,value) ∈ map.entries := by
  obtain ⟨⟨name,stored⟩,search,rfl⟩ := Option.map_eq_some_iff.mp found
  have same := find?_some search
  simp only [beq_iff_eq] at same
  rw [← same]
  exact mem_of_find?_eq_some search

variable {patch : ProfilePatch} {loaded : LoadedConfig} {name : String} {config : ResolvedConfig}
    {elements : List RawFailoverElement}

variable {legs : List BoundTarget}

theorem resolveLegs_ok (resolved : resolveLegs loaded patch elements = .ok legs) :
    List.Forall₂ (fun element bound => resolveLeg loaded patch element = .ok bound) elements legs := by
  induction elements generalizing legs with
  | nil =>
    cases resolved
    exact .nil
  | cons element elements ih =>
    obtain ⟨bound,first,rest⟩ := bind_eq_ok.mp resolved
    obtain ⟨others,second,last⟩ := bind_eq_ok.mp rest
    cases last
    exact .cons first (ih second)

variable {chain : List BoundTarget}

theorem resolve_failover_ok (resolved : resolve_failover_with loaded name = .ok chain)
    (known : loaded.config.profiles.get name = some patch) :
    ∃ primary legs, resolve_profile_with loaded name = .ok primary ∧
      List.Forall₂ (fun element bound => resolveLeg loaded patch element = .ok bound) (patch.failover.getD []) legs ∧
        chain = primary :: legs := by
  have found : loaded.config.profile name = .ok patch := by simp [ResolvedConfig.profile,known]
  obtain ⟨stored,same,rest⟩ := bind_eq_ok.mp resolved
  rw [found] at same
  cases same
  obtain ⟨primary,first,more⟩ := bind_eq_ok.mp rest
  obtain ⟨legs,others,last⟩ := bind_eq_ok.mp more
  cases last
  refine ⟨primary,legs,?_,resolveLegs_ok others,rfl⟩
  simp only [resolve_profile_with,found,bind,Except.bind,first]

theorem resolve_plain (plain : PlainName name) :
    resolve_target_chain loaded name = resolve_failover_with loaded name := by
  obtain ⟨profile,target,direct⟩ := plain
  simp only [resolve_target_chain,profile,target,direct]

/-! ### Tiers -/

theorem trimChars_sublist (cs : List Char) : (trimChars cs).Sublist cs := by
  unfold trimChars
  have inner := (@dropWhile_sublist _ (cs.dropWhile is_whitespace).reverse is_whitespace).reverse
  rw [reverse_reverse] at inner
  exact inner.trans (dropWhile_sublist is_whitespace)

theorem whitespace_toLower {c : Char} (blank : is_whitespace c = true) : c.toLower = c := by
  have plain : ¬(c.val ≥ 'A'.val ∧ c.val ≤ 'Z'.val) := by
    rintro ⟨above,below⟩
    have low : 65 ≤ c.toNat := above
    have high : c.toNat ≤ 90 := below
    simp only [is_whitespace,Bool.or_eq_true,Bool.and_eq_true,decide_eq_true_eq,beq_iff_eq] at blank
    omega
  rw [Char.toLower]
  exact dif_neg plain

theorem trimChars_dense {cs : List Char} (dense : ∀ c ∈ cs, is_whitespace c = false) : trimChars cs = cs := by
  have whole : ∀ ds : List Char, (∀ c ∈ ds, is_whitespace c = false) → ds.dropWhile is_whitespace = ds := by
    intro ds visible
    cases ds with
    | nil => rfl
    | cons c ds => rw [dropWhile_cons,visible c mem_cons_self]; rfl
  rw [trimChars,whole cs dense,whole cs.reverse (fun c inside => dense c (mem_reverse.mp inside)), reverse_reverse]

/-- A tier that the service takes for the frontier is one that the router reads so. -/
theorem reads_of_exact {tier : String} (exactly : eq_ignore_ascii_case tier "frontier" = true) :
    readsFrontier tier = true := by
  have lower : tier.toList.map Char.toLower = "frontier".toList.map Char.toLower := by
    simpa [eq_ignore_ascii_case,Text.eq_ignore_ascii_case] using exactly
  have dense : ∀ c ∈ tier.toList, is_whitespace c = false := by
    intro c inside
    by_contra blank
    have letter : c.toLower ∈ "frontier".toList.map Char.toLower := by
      rw [← lower]
      exact mem_map_of_mem inside
    rw [whitespace_toLower (by simpa using blank)] at letter
    have visible : ∀ letter ∈ "frontier".toList.map Char.toLower, is_whitespace letter = false := by
      simp [is_whitespace]
    exact blank (visible c letter)
  simp only [readsFrontier,to_ascii_lowercase,trim,trimChars_dense dense,lower,decide_eq_true_eq]
  decide

/-- A tier that is spelled otherwise, and no longer, is not read as the frontier. -/
theorem not_reads_of_exact {tier other : String} (exactly : eq_ignore_ascii_case tier other = true)
    (differs : other.toList.map Char.toLower ≠ "frontier".toList) (short : other.toList.length ≤ 8) :
    readsFrontier tier = false := by
  have lower : tier.toList.map Char.toLower = other.toList.map Char.toLower := by
    simpa [eq_ignore_ascii_case,Text.eq_ignore_ascii_case] using exactly
  by_contra reads
  have read : (trimChars tier.toList).map Char.toLower = "frontier".toList :=
    of_decide_eq_true (Bool.eq_true_of_not_eq_false reads)
  have lengths := congrArg length lower
  have trimmed := congrArg length read
  rw [length_map,length_map] at lengths
  rw [length_map] at trimmed
  have sub := trimChars_sublist tier.toList
  have same : trimChars tier.toList = tier.toList := by
    refine sub.eq_of_length_le ?_
    rw [trimmed,lengths]
    exact short
  rw [same,lower] at read
  exact differs read

/-! ### The guard -/

theorem classified_clear {provider model : String}
    (safe : classify_direct_failover config provider model = .NonFrontier) :
    Clear config (.ProviderModel provider model) := by
  intro entry inside own shared
  have listed : entry.2.tier ∈ sharedTiers config provider model := by
    refine mem_map_of_mem (mem_filter.mpr ⟨mem_map_of_mem inside,?_⟩)
    simp only [own,shared,beq_self_eq_true,Bool.and_self]
  unfold classify_direct_failover at safe
  dsimp only at safe
  split_ifs at safe with frontier classified
  -- no tier among those shared is unclassified, and none is frontier
  rw [Bool.and_eq_true,Bool.not_eq_true',any_eq_false] at classified
  have known := classified.2 _ listed
  have other := frontier
  rw [Bool.not_eq_true,any_eq_false] at other
  have no_frontier := other _ listed
  cases tier : entry.2.tier with
  | none => simp [tierIsFrontier,tier]
  | some spelled =>
    rw [tier] at known no_frontier
    simp only [Option.any_some,Bool.and_eq_true,Bool.not_eq_true',Bool.or_eq_false_iff,not_and,
      Bool.not_eq_false] at known no_frontier
    have economyOrMainline : eq_ignore_ascii_case spelled "economy" = true ∨
      eq_ignore_ascii_case spelled "mainline" = true := by
      by_contra neither
      rw [not_or,Bool.not_eq_true,Bool.not_eq_true] at neither
      exact no_frontier (known neither)
    simp only [tierIsFrontier,tier,Option.any_some]
    rcases economyOrMainline with economy | mainline
    · exact not_reads_of_exact economy (by decide) (by decide)
    · exact not_reads_of_exact mainline (by decide) (by decide)

theorem frontier_of_spelled (spelled : profile_is_frontier patch = true) : tierIsFrontier patch = true := by
  unfold profile_is_frontier at spelled
  unfold tierIsFrontier
  cases tier : patch.tier with
  | none => simp [tier] at spelled
  | some tierText =>
    rw [tier] at spelled
    exact reads_of_exact spelled

/-- A leg that the guard leaves in the chain. -/
def passes (config : ResolvedConfig) : RawFailoverElement → Bool
  | .ProfileName name => !(config.profiles.get name).any profile_is_frontier
  | .ProviderModel _ _ => true

theorem passes_of_stays {element : RawFailoverElement} (stay : stays config false element = true) :
    passes config element = true := by
  cases element with
  | ProviderModel provider model => rfl
  | ProfileName name =>
    cases known : config.profiles.get name with
    | none => simp [passes,known]
    | some leg =>
      simp only [stays,known,Option.any_some,Bool.false_or,Bool.not_eq_true'] at stay
      simp only [passes,known,Option.any_some,Bool.not_eq_true']
      by_contra spelled
      rw [frontier_of_spelled (by simpa using spelled)] at stay
      cases stay

/-- The guard keeps the legs that pass; the direct ones are clear. -/
theorem guardLegs_ok {profile : String} (legs : List (RawFailoverElement × BoundTarget))
    {guarded : List BoundTarget} (ran : guardLegs config profile legs = .ok guarded) :
    guarded = (legs.filter fun leg => passes config leg.1).map Prod.snd ∧
      ∀ leg ∈ legs, (∃ name, leg.1 = .ProfileName name) ∨ Clear config leg.1 := by
  induction legs generalizing guarded with
  | nil =>
    cases ran
    exact ⟨rfl,by simp⟩
  | cons leg legs ih =>
    obtain ⟨element,bound⟩ := leg
    cases element with
    | ProfileName name =>
      rw [guardLegs] at ran
      cases known : config.profiles.get name with
      | none => simp [known,bail] at ran
      | some patch =>
        rw [known] at ran
        obtain ⟨rest,others,last⟩ := bind_eq_ok.mp ran
        obtain ⟨same,clear⟩ := ih others
        refine ⟨?_,forall_mem_cons.mpr ⟨.inl ⟨name,rfl⟩,clear⟩⟩
        cases last
        cases frontier : profile_is_frontier patch <;> simp [passes,known,frontier,same]
    | ProviderModel provider model =>
      rw [guardLegs] at ran
      cases safety : classify_direct_failover config provider model with
      | Frontier => simp [safety,bail] at ran
      | Unclassified => simp [safety,bail] at ran
      | NonFrontier =>
        rw [safety] at ran
        obtain ⟨rest,others,last⟩ := bind_eq_ok.mp ran
        obtain ⟨same,clear⟩ := ih others
        cases last
        refine ⟨?_,forall_mem_cons.mpr ⟨.inr (classified_clear safety),clear⟩⟩
        simp [passes,same]

/-- The chain that the guard makes of the primary target and the legs. -/
theorem guard_chain_ok {profile : String} (known : config.profiles.get profile = some patch) {primary : BoundTarget}
    {legs guarded : List BoundTarget} {allow_frontier : Bool}
    (declared : (patch.failover.getD []).length = legs.length)
    (ran : guard_route_chain config profile (primary :: legs) allow_frontier = .ok guarded) :
    guarded = primary ::
      (((patch.failover.getD []).zip legs).filter fun leg => allow_frontier || passes config leg.1).map Prod.snd ∧
      (allow_frontier = false → profile_is_frontier patch = false ∧
        ∀ element ∈ patch.failover.getD [], stays config false element = true → Clear config element) := by
  unfold guard_route_chain at ran
  cases allow_frontier with
  | true =>
    cases ran
    simp [map_snd_zip (le_of_eq declared.symm)]
  | false =>
    simp only [Bool.false_eq_true,if_false,known] at ran
    split_ifs at ran with frontier lengths
    · cases ran
    · cases ran
    · obtain ⟨rest,others,last⟩ := bind_eq_ok.mp ran
      cases last
      obtain ⟨same,clear⟩ := guardLegs_ok _ others
      refine ⟨by simp [same],fun _ => ⟨by simpa using frontier,?_⟩⟩
      intro element inside stay
      rw [← map_fst_zip (le_of_eq declared)] at inside
      obtain ⟨leg,paired,rfl⟩ := mem_map.mp inside
      rcases clear leg paired with ⟨name,named⟩ | clear
      · rw [named] at stay ⊢
        intro stored found
        simpa [stays,found] using stay
      · exact clear

/-- Of two filters of which one lets through no more, they let through the same if they let through as many. -/
theorem filter_agree {α : Type} {xs : List α} {more fewer : α → Bool} (weaker : ∀ x ∈ xs, fewer x = true →
    more x = true)
    (same : (xs.filter more).length = (xs.filter fewer).length) : ∀ x ∈ xs, more x = true → fewer x = true := by
  have inner : (xs.filter more).filter fewer = xs.filter fewer := by
    rw [filter_filter]
    refine filter_congr fun x inside => ?_
    cases kept : fewer x with
    | false => rfl
    | true => simp [weaker x inside kept]
  have whole := (filter_sublist (p := fewer) (l := xs.filter more)).eq_of_length (by rw [inner,same])
  exact fun x inside kept => filter_eq_self.mp whole x (mem_filter.mpr ⟨inside,kept⟩)

theorem zip_filter_length (declared : elements.length = legs.length)
    (keep : RawFailoverElement → Bool) : (((elements.zip legs).filter fun leg => keep leg.1).map Prod.snd).length =
    (elements.filter keep).length := by
  have firsts := congrArg (filter keep) (map_fst_zip (le_of_eq declared))
  rw [filter_map] at firsts
  rw [← firsts,length_map,length_map]
  rfl

/-- The tiers agree just if no leg passes that should not stay. -/
theorem tiers_agree_iff (other : profile_is_frontier patch = false) : TiersAgree config patch ↔
    tierIsFrontier patch = false ∧
    ∀ element ∈ patch.failover.getD [], passes config element = true → stays config false element = true := by
  refine and_congr (by simp [Agrees,other]) ⟨
    fun agree element inside pass => ?_,fun same name leg inside known reads => ?_⟩
  · cases element with
    | ProviderModel provider model => rfl
    | ProfileName name =>
      cases known : config.profiles.get name with
      | none => simp [stays,known]
      | some leg =>
        have reads := agree name leg inside known
        simp only [passes,known,Option.any_some,Bool.not_eq_true'] at pass
        simp only [Agrees,pass,Bool.false_eq_true,imp_false,Bool.not_eq_true] at reads
        simp [stays,known,reads]
  · have pass := same _ inside
    simp only [passes,stays,known,Option.any_some,reads,Bool.not_true,Bool.or_self,Bool.false_eq_true,imp_false,
      Bool.not_eq_true,
      Bool.not_eq_false'] at pass
    exact pass

/-- The profile of a route is the candidate whose key the router's decision carries, with its provider. -/
theorem route_task_ok {inference : Inference} {params : RouteParams} {route : RouteResult}
    (routed : route_task inference config params = .ok route) :
    ∃ candidates patch, route_candidates config params = .ok candidates ∧
      config.profiles.get route.profile = some patch ∧
      (decideRoute inference params candidates).selection_key = route.profile ∧
      (∃ candidate ∈ candidates, candidate.1 = route.profile) ∧
      patch.provider.any (eq_ignore_ascii_case · (decideRoute inference params candidates).provider) = true := by
  unfold route_task at routed
  obtain ⟨_,_,routed⟩ := bind_eq_ok.mp routed
  obtain ⟨candidates,listed,routed⟩ := bind_eq_ok.mp routed
  dsimp only at routed
  generalize made : decideRoute inference params candidates = decision at routed
  simp only [bind,Except.bind,bail] at routed
  rw [if_neg (show ¬(providersOf candidates).isEmpty = true from fun empty => by simp [empty] at routed)] at routed
  cases search : candidates.find? fun candidate => candidate.1 == decision.selection_key with
  | none => simp [search] at routed
  | some candidate =>
    have same := find?_some search
    rw [beq_iff_eq] at same
    cases known : config.profiles.get candidate.1 with
    | none => simp [search,known] at routed
    | some patch =>
      simp only [search,known] at routed
      have own : patch.provider.any (eq_ignore_ascii_case · decision.provider) = true := by
        by_contra other
        simp [other] at routed
      rw [if_pos own,Except.ok.injEq] at routed
      rw [← routed]
      exact ⟨candidates,patch,listed,known,by rw [made,same],⟨candidate,mem_of_find?_eq_some search,rfl⟩,by rwa [made]⟩

/-- The chain that is declared for a route: the target of its profile and the declared legs, all of them if frontier
    models are allowed, else without those that name a frontier profile, in order, each with the decided effort. Where
    frontier models are not allowed, none is reached. -/
def Declared (loaded : LoadedConfig) (allow_frontier : Bool) (route : RouteResult) (patch : ProfilePatch)
    (chain : List BoundTarget) : Prop :=
  ∃ primary legs, resolve_profile_with loaded route.profile = .ok primary ∧
    List.Forall₂ (fun element bound => resolveLeg loaded patch element = .ok bound) (patch.failover.getD []) legs ∧
    chain = (primary :: staying loaded.config allow_frontier ((patch.failover.getD []).zip legs)).map
      (apply_route_effort route.decision) ∧
    (allow_frontier = false → tierIsFrontier patch = false ∧
      ∀ element ∈ patch.failover.getD [], stays loaded.config false element = true → Clear loaded.config element)

/-- The name of the selected profile is taken for another profile, or for a provider and a model. -/
def TakenForAnother (loaded : LoadedConfig) (name : String) : Prop :=
  (∃ other, other ≠ name ∧ resolve_target_chain loaded name = resolve_failover_with loaded other) ∨
    ∃ provider model, resolve_target_chain loaded name = resolveDirect loaded provider model

theorem taken_for_another (odd : ¬PlainName name) (resolved : resolve_target_chain loaded name = .ok chain) :
    TakenForAnother loaded name := by
  unfold resolve_target_chain at resolved
  cases profile : stripStart "profile:" name with
  | some other =>
    simp only [profile] at resolved
    split_ifs at resolved with empty
    · cases resolved
    refine .inl ⟨other,?_,by simp [resolve_target_chain,profile,empty]⟩
    rintro rfl
    unfold stripStart at profile
    split_ifs at profile
    have shorter := congrArg (fun text => text.toList.length) (Option.some.inj profile)
    have someLeft : other.toList ≠ [] := by simpa using empty
    have long := length_pos_iff.mpr someLeft
    have eight : "profile:".length = 8 := rfl
    simp only [String.toList_ofList,length_drop] at shorter
    omega
  | none =>
    cases target : stripStart "target:" name with
    | some explicit =>
      simp only [profile,target] at resolved
      cases direct : parse_provider_model explicit with
      | none => simp [direct,bail] at resolved
      | some pair => exact .inr ⟨pair.1,pair.2,by simp [resolve_target_chain,profile,target,direct]⟩
    | none =>
      cases direct : parse_provider_model name with
      | none => exact absurd ⟨profile,target,direct⟩ odd
      | some pair => exact .inr ⟨pair.1,pair.2,by simp [resolve_target_chain,profile,target,direct]⟩

/-- The chain of an automatic route. Where the name of the selected profile is plain, it is the declared one if and only
    if frontier models are allowed or the tiers of the profile and of those that its legs name are spelled as the router
    reads them. Any other name is taken for something else. -/
theorem auto_chain_is_declared (inference : Inference) (loaded : LoadedConfig) (selector : String)
    (task after : TaskSpec) (plan : DispatchPlan)
    (auto : eq_ignore_ascii_case selector "auto" = true)
    (planned : plan_dispatch inference loaded selector task = .ok (plan,after)) :
    ∃ params route candidates patch,
      route_params_from_labels task.prompt task.labels = .ok params ∧ plan.route = some route ∧
      route_candidates loaded.config params = .ok candidates ∧
        (decideRoute inference params candidates).selection_key = route.profile ∧
      loaded.config.profiles.get route.profile = some patch ∧
      (PlainName route.profile → (Declared loaded params.allow_frontier route patch plan.chain ↔
        (params.allow_frontier = false → TiersAgree loaded.config patch))) ∧
      (¬PlainName route.profile → TakenForAnother loaded route.profile) := by
  simp only [plan_dispatch,auto,if_true] at planned
  obtain ⟨params,read,planned⟩ := bind_eq_ok.mp planned
  obtain ⟨route,routed,planned⟩ := bind_eq_ok.mp planned
  obtain ⟨chain,resolved,planned⟩ := bind_eq_ok.mp planned
  obtain ⟨guarded,kept,planned⟩ := bind_eq_ok.mp planned
  cases planned
  obtain ⟨candidates,patch,listed,known,selected,_⟩ := route_task_ok routed
  refine ⟨params,route,candidates,patch,read,rfl,listed,selected,known,fun plain => ?_,fun odd =>
    taken_for_another odd resolved⟩
  rw [resolve_plain plain] at resolved
  obtain ⟨primary,legs,first,others,rfl⟩ := resolve_failover_ok resolved known
  obtain ⟨rfl,clear⟩ := guard_chain_ok known others.length_eq kept
  cases allow : params.allow_frontier with
  | true =>
    refine iff_of_true ⟨primary,legs,first,others,?_,by simp⟩ (by simp)
    have all : ∀ leg : RawFailoverElement × BoundTarget, stays loaded.config true leg.1 = true := by
      rintro ⟨element,bound⟩
      cases element <;> rfl
    simp [staying,all]
  | false =>
    obtain ⟨other,clear⟩ := clear allow
    simp only [Bool.false_or,true_implies]
    rw [tiers_agree_iff other]
    constructor
    · rintro ⟨_,legs',_,others',same,reaches⟩
      -- the chains can only be equal if as many legs pass as should stay
      have sizes := congrArg length same
      simp only [length_map,length_cons,Nat.add_right_cancel_iff,staying] at sizes
      have declared := zip_filter_length others.length_eq (passes loaded.config)
      have stayingSize := zip_filter_length others'.length_eq (stays loaded.config false)
      rw [length_map] at declared stayingSize
      rw [declared,stayingSize] at sizes
      exact ⟨(reaches rfl).1,filter_agree (fun _ _ => passes_of_stays) sizes⟩
    · rintro ⟨reads,agree⟩
      refine ⟨primary,legs,first,others,?_,fun _ => ⟨reads,clear⟩⟩
      have same : ((patch.failover.getD []).zip legs).filter (fun leg => passes loaded.config leg.1) =
          ((patch.failover.getD []).zip legs).filter fun leg => stays loaded.config false leg.1 := by
        refine filter_congr fun leg inside => ?_
        have member : leg.1 ∈ patch.failover.getD [] := (of_mem_zip inside).1
        exact Bool.eq_iff_iff.mpr ⟨agree leg.1 member,passes_of_stays⟩
      rw [staying,same]

/-! ### Configurations -/

/-- A provider that needs no key. -/
def relay : Provider := ⟨"https://relay.example",none,.Bearer,.OpenaiChat,some "small"⟩
def profileOf (tier : String) (model : Option String) (failover : List RawFailoverElement) : ProfilePatch :=
  ⟨some "relay",none,none,model,none,some failover,some tier,none,none⟩
def taskWith (labels : Labels) : TaskSpec := ⟨"hello",none,none,.ReadOnly,none,none,labels,none⟩
/-- A router that reads nothing out of the words. -/
def noInference : Inference := ⟨fun _ => "code_gen",fun _ => []⟩
theorem relay_alone : (map Prod.fst [("relay",relay)]).Pairwise (· < ·) := by simp

/-- An economy profile with two legs, of which one names a frontier profile. -/
def tiered : LoadedConfig where
  config := {
    providers := ⟨[("relay",relay)],relay_alone⟩
    profiles := ⟨[("base",profileOf "economy" none [.ProfileName "strong",.ProfileName "spare"]),
      ("spare",profileOf "Mainline" none []),
      ("strong",profileOf "Frontier" (some "large") [])],by decide⟩ }
  env_lookup := fun _ => none

theorem tiered_agrees :
    TiersAgree tiered.config (profileOf "economy" none [.ProfileName "strong",.ProfileName "spare"]) := by
  refine (tiers_agree_iff (by decide)).mpr ⟨by decide,?_⟩
  simp only [profileOf,Option.getD_some,forall_mem_cons]
  exact ⟨by decide,by decide,by simp⟩

/-- Without frontier models the leg that names the frontier profile is left out. -/
theorem tiered_chain_is_declared : ∃ plan after route patch,
    plan_dispatch noInference tiered "AUTO" (taskWith [("allow_frontier","false")]) = .ok (plan,after) ∧
      plan.route = some route ∧ tiered.config.profiles.get route.profile = some patch ∧
        Declared tiered false route patch plan.chain := by
  have selects : ((plan_dispatch noInference tiered "AUTO" (taskWith [("allow_frontier","false")])).toOption.bind
    (·.1.route)).map
      RouteResult.profile = some "base" := by decide +kernel
  cases planned : plan_dispatch noInference tiered "AUTO" (taskWith [("allow_frontier","false")]) with
  | error failure => simp [planned,Except.toOption] at selects
  | ok made =>
    obtain ⟨plan,after⟩ := made
    obtain ⟨params,route,candidates,patch,read,own,_,_,known,exactly,_⟩ :=
      auto_chain_is_declared noInference tiered "AUTO" (taskWith [("allow_frontier","false")]) after plan
        (by decide) planned
    have profile : route.profile = "base" := by simpa [planned,own,Except.toOption] using selects
    have labels : (route_params_from_labels "hello"
      [("allow_frontier","false")]).toOption.map RouteParams.allow_frontier = some false := by
      decide +kernel
    have allow : params.allow_frontier = false := by
      rw [show route_params_from_labels "hello" [("allow_frontier","false")] = .ok params from read] at labels
      simpa [Except.toOption] using labels
    rw [profile] at known exactly
    rw [allow] at exactly
    refine ⟨plan,after,route,patch,rfl,own,
      by rw [profile,known],(exactly ⟨by decide,by decide,by decide⟩).mpr fun _ => ?_⟩
    cases known
    exact tiered_agrees

/-- A profile whose name reads as a provider and a model. -/
def slashed : LoadedConfig where
  config := {
    providers := ⟨[("relay",relay)],relay_alone⟩
    profiles := ⟨[("relay/large",profileOf "economy" none [])],by decide⟩ }
  env_lookup := fun _ => none

/-- A leg that names a profile whose tier has a space before it. -/
def spaced : LoadedConfig where
  config := {
    providers := ⟨[("relay",relay)],relay_alone⟩
    profiles := ⟨[("base",profileOf "economy" none [.ProfileName "strong"]),
      ("strong",profileOf " frontier" (some "large") [])],by decide⟩ }
  env_lookup := fun _ => none

/-- The selector and the models of a plan. -/
def summary (planned : Outcome (DispatchPlan × TaskSpec)) : Option (String × List String) :=
  planned.toOption.map fun made => (made.1.selector,made.1.chain.map fun bound => bound.target.model)

/-- The router selects a profile and the chain has the target of another selector; and a leg whose profile the router
    reads as frontier stays though frontier models are not allowed. -/
theorem chain_is_not_declared :
    (summary (plan_dispatch noInference slashed "auto" (taskWith [])) = some ("relay/large",["large"]) ∧
      (resolve_profile_with slashed "relay/large").toOption.map (fun bound => bound.target.model) = some "small") ∧
    (summary (plan_dispatch noInference spaced "auto" (taskWith [("allow_frontier","false")])) =
      some ("base",["small","large"]) ∧
      (spaced.config.profiles.get "strong").any tierIsFrontier = true) := by
  refine ⟨⟨?_,?_⟩,?_,?_⟩ <;> decide +kernel

end Vyane.Routing
