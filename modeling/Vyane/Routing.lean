import Vyane.RoutingModel

/-!
Automatic routing: the router's decision (`vyane-router/src/{route,score,preference,decision}.rs`), the service's
adapter around it and the frontier guard (`vyane-service/src/routing.rs`). What the router reads out of the words of a
task is a parameter. A score is kept in thousandths, to which the source rounds it.
-/
namespace Vyane.Routing
open Vyane.Core Text Kernel ToolChat

/-! ### The router -/

inductive RouteTier where
  | Economy | Mainline | Frontier
deriving DecidableEq

def RouteTier.as_str : RouteTier → String
  | .Economy => "economy"
  | .Mainline => "mainline"
  | .Frontier => "frontier"

def RouteTier.from_str_lossy (s : String) : Option RouteTier :=
  let read := to_ascii_lowercase (trim s)
  if read = "economy".toList then some .Economy
  else if read = "mainline".toList then some .Mainline
  else if read = "frontier".toList then some .Frontier
  else none

inductive RouteEffort where
  | Low | Medium | High | Xhigh
deriving DecidableEq

def RouteEffort.as_str : RouteEffort → String
  | .Low => "low"
  | .Medium => "medium"
  | .High => "high"
  | .Xhigh => "xhigh"

structure RouteTargetPreference where
  selection_key : String
  provider : String
  model : String
  effort : String
  tier : String

/-- The preference tables. The entries of a table stand in the order of insertion; the first one of a key counts. -/
structure RoutePreferenceTable where
  tag_preferences : List (String × RouteTargetPreference)
  stage_preferences : List (String × RouteTargetPreference)
  tier_preferences : List (String × RouteTargetPreference)
  default : Option RouteTargetPreference

def firstEntry (entries : List (String × RouteTargetPreference)) (key : String) : Option RouteTargetPreference :=
  (entries.find? fun entry => entry.1 == key).map Prod.snd
/-- `trim_matches('-')`. -/
def trimHyphens (value : List Char) : List Char := ((value.dropWhile (· = '-')).reverse.dropWhile (· = '-')).reverse
def normalize_key (value : String) : String :=
  String.ofList (trimHyphens ((to_ascii_lowercase (trim value)).map fun c =>
    if is_ascii_alphanumeric c || c = '_' || c = '.' || c = '-' then c else '-'))

def parse_effort (s : String) : RouteEffort :=
  let read := to_ascii_lowercase (trim s)
  if read = "low".toList then .Low
  else if read = "high".toList then .High
  else if read = "xhigh".toList then .Xhigh
  else .Medium

def RoutePreferenceTable.resolve (table : RoutePreferenceTable) (stage : String) (tags : List String)
    (tier : RouteTier) : Option RouteTargetPreference :=
  let stage_key := normalize_key stage
  (if stage_key.isEmpty then none else firstEntry table.stage_preferences stage_key).or
    ((tags.findSome? fun tag => firstEntry table.tag_preferences (normalize_key tag)).or
      ((firstEntry table.tier_preferences tier.as_str).or table.default))

structure ComplexitySignals where
  explicit_tier : Option String
  stage : String
  task_tags : List String
  changed_files : Nat
  dependency_edges : Nat
  retry_count : Nat
  allow_frontier : Bool
  frontier_providers : List String
  frontier_models : List String

def FRONTIER_TAGS : List String := ["architecture","security","review","research"]
def WORKFLOW_STAGES : List String := ["plan","planning","review","verify","architecture"]

/-- The additive score, in thousandths. -/
def complexity_score (task : String) (signals : ComplexitySignals) (tags : List String) : Nat :=
  match signals.explicit_tier.bind RouteTier.from_str_lossy with
  | some .Frontier => 1000
  | some .Mainline => 450
  | some .Economy => 50
  | none =>
    let stage := (to_ascii_lowercase (trim signals.stage)).map fun c =>
      if is_ascii_alphanumeric c || c = '.' then c else '-'
    let ofStage := if WORKFLOW_STAGES.any fun known => known.toList = stage then 250 else 0
    let ofFrontier := if tags.any FRONTIER_TAGS.contains then 200 else 0
    let ofWork := if tags.any ["debug","refactor","test"].contains then 100 else 0
    let ofFiles := if 20 ≤ signals.changed_files then 250 else if 5 ≤ signals.changed_files then 150
      else if 2 ≤ signals.changed_files then 50 else 0
    let of_edges := if 10 ≤ signals.dependency_edges then 200 else if 3 ≤ signals.dependency_edges then 100 else 0
    let ofRetries := if 2 ≤ signals.retry_count then 250 else if signals.retry_count = 1 then 100 else 0
    let ofLength := if 4000 ≤ task.utf8ByteSize then 200 else if 1200 ≤ task.utf8ByteSize then 100 else 0
    min (ofStage + ofFrontier + ofWork + ofFiles + of_edges + ofRetries + ofLength) 1000

def tier_for_score (score : Nat) (signals : ComplexitySignals) : RouteTier :=
  match signals.explicit_tier.bind RouteTier.from_str_lossy with
  | some tier => if tier = .Frontier ∧ signals.allow_frontier = false then .Mainline else tier
  | none =>
    if 700 ≤ score ∧ signals.allow_frontier = true then .Frontier
    else if score ≤ 150 then .Economy
    else .Mainline

def effort_for_tier : RouteTier → RouteEffort
  | .Frontier => .High
  | .Economy => .Low
  | .Mainline => .Medium

structure RouteDecision where
  selection_key : String
  provider : String
  model : String
  effort : RouteEffort
  tier : RouteTier
  tag : String
  intent : String
  complexity_score : Nat
  reason : String

/-- What the router reads out of the words of a task: `classify_intent` and `infer_route_tags_with_intent`. -/
structure Inference where
  intent : String → String
  tags : String → List String
/-- The tier of a preference, as the router reads it. -/
def readsFrontier (tier : String) : Bool := to_ascii_lowercase (trim tier) = "frontier".toList
def first_matching_tag (tags : List String) (table : RoutePreferenceTable) : String :=
  (tags.find? fun tag => (firstEntry table.tag_preferences (normalize_key tag)).isSome).getD ""
/-- The tags of the task: the explicit ones, then those inferred. -/
def mergeTags (explicit inferred : List String) : List String :=
  inferred.foldl (fun tags tag => if tags.contains tag then tags else tags ++ [tag]) explicit

/-- `vyane_router::route_task`. -/
def routerRouteTask (inference : Inference) (task : String) (available_providers : List String)
    (signals : ComplexitySignals)
    (table : RoutePreferenceTable) (default_provider : String) : RouteDecision :=
  let tags := mergeTags signals.task_tags (inference.tags task)
  let score := complexity_score task signals tags
  let tier := tier_for_score score signals
  let fallback : RouteDecision := {
    selection_key := ""
    provider := available_providers.head?.getD default_provider
    model := ""
    effort := effort_for_tier tier
    tier := tier
    tag := ""
    intent := inference.intent task
    complexity_score := score
    reason := "default fallback" }
  match table.resolve signals.stage tags tier with
  | none => fallback
  | some pref =>
    let is_frontier_pref :=
      readsFrontier pref.tier || signals.frontier_providers.any (eq_ignore_ascii_case · pref.provider) ||
      signals.frontier_models.any (eq_ignore_ascii_case · pref.model)
    let available := available_providers.any (eq_ignore_ascii_case · pref.provider)
    if (!is_frontier_pref || signals.allow_frontier) && available then
      { selection_key := pref.selection_key
        provider := pref.provider
        model := pref.model
        effort := if pref.effort.isEmpty then effort_for_tier tier else parse_effort pref.effort
        tier := tier
        tag := first_matching_tag tags table
        intent := inference.intent task
        complexity_score := score
        reason := "preference matched (tag/stage/tier): " ++ pref.provider }
    else fallback

/-! ### Parameters of a route -/

structure RouteParams where
  task : String
  stage : Option String
  changed_files : Option Nat
  dependency_edges : Option Nat
  retry_count : Option Nat
  explicit_tier : Option String
  explicit_effort : Option Effort
  extra_tags : List String
  candidate_profiles : List String
  allow_frontier : Bool

abbrev Labels : Type := List (String × String)
def label (labels : Labels) (key : String) : Option String := (labels.find? fun entry => entry.1 == key).map Prod.snd
def reject_route_control_chars (value : String) : Outcome Unit :=
  if value.toList.any is_control then bail "routing value must not contain control characters" else .ok ()

def rejectAll : List String → Outcome Unit
  | [] => .ok ()
  | value :: values => do
    reject_route_control_chars value
    rejectAll values

/-- A list in a label: separated by commas, trimmed, without empty elements. -/
def splitList (value : String) : List String :=
  ((value.toList.splitOn ',').map fun part => String.ofList (trimChars part)).filter fun part => !part.isEmpty

def parseLabelEffort (effort : String) : Outcome Effort :=
  if effort = "low" then .ok .Low
  else if effort = "medium" then .ok .Medium
  else if effort = "high" then .ok .High
  else if effort = "xhigh" then .ok .Xhigh
  else bail "routing effort must be low, medium, high, or xhigh"

def parseAllowFrontier (raw : String) : Outcome Bool :=
  let read := to_ascii_lowercase (trim raw)
  if ["true","1","yes"].any fun word => word.toList = read then .ok true
  else if ["false","0","no"].any fun word => word.toList = read then .ok false
  else bail s!"routing allow_frontier label must be true or false, got `{raw}`"

/-- Does something with a label that is there. -/
def ifLabel {α : Type} (value : Option String) (absent : α) (read : String → Outcome α) : Outcome α :=
  match value with
  | none => .ok absent
  | some value => read value

def route_params_from_labels (task : String) (labels : Labels) : Outcome RouteParams := do
  let stage ← ifLabel ((label labels "routing.stage").or (label labels "stage")) none fun stage => do
    reject_route_control_chars stage
    .ok (some stage)
  let explicit_tier ← ifLabel ((label labels "routing.tier").or (label labels "tier")) none fun tier => do
    reject_route_control_chars tier
    .ok (some tier)
  let explicit_effort ← ifLabel (label labels "routing.effort") none fun effort => do
    let effort ← parseLabelEffort effort
    .ok (some effort)
  let extra_tags ← ifLabel ((label labels "routing.tags").or (label labels "tags")) [] fun tags => do
    rejectAll (splitList tags)
    .ok (splitList tags)
  let allow_frontier ← ifLabel
    ((label labels "routing.allow_frontier").or (label labels "allow_frontier")) true parseAllowFrontier
  let candidate_profiles ← ifLabel ((label labels "routing.candidates").or (label labels "candidates")) []
    fun candidates => do
    rejectAll (splitList candidates)
    .ok (splitList candidates)
  .ok ⟨task,stage,none,none,none,explicit_tier,explicit_effort,extra_tags,candidate_profiles,allow_frontier⟩

def validate_route_param_values (config : ResolvedConfig) (params : RouteParams) : Outcome Unit := do
  rejectAll params.stage.toList
  rejectAll params.explicit_tier.toList
  rejectAll params.extra_tags
  rejectAll params.candidate_profiles
  match params.explicit_tier with
  | none => .ok ()
  | some tier =>
    if (RouteTier.from_str_lossy tier).isSome then .ok ()
    else bail s!"unknown routing tier `{tier}` (expected economy, mainline, or frontier)"
  let unknown := params.candidate_profiles.filter fun name => (config.profiles.get name).isNone
  let names := String.intercalate ", " unknown
  if unknown.isEmpty then .ok () else bail s!"unknown routing candidate profiles: {names}"

/-! ### Choosing a profile -/

abbrev Candidate : Type := String × ProfilePatch
def profile_is_frontier (patch : ProfilePatch) : Bool := patch.tier.any (eq_ignore_ascii_case · "frontier")

/-- The order of the tiers in the list of candidates. -/
def tierRank (candidate : Candidate) : Nat :=
  match candidate.2.tier with
  | none => 3
  | some tier =>
    if eq_ignore_ascii_case tier "economy" then 0
    else if eq_ignore_ascii_case tier "mainline" then 1
    else if eq_ignore_ascii_case tier "frontier" then 2
    else 3

/-- A stable sort by `tierRank`. -/
def sortByTier (candidates : List Candidate) : List Candidate :=
  (List.range 4).flatMap fun rank => candidates.filter fun candidate => tierRank candidate = rank

/-- The providers of the candidates, without repetition up to case. -/
def providersOf (candidates : List Candidate) : List String :=
  candidates.foldl (fun seen candidate =>
    match candidate.2.provider with
    | none => seen
    | some provider => if seen.any (eq_ignore_ascii_case · provider) then seen else seen ++ [provider]) []

/-- The preference for a candidate that names a provider. -/
def preference (candidate : Candidate) : Option RouteTargetPreference :=
  candidate.2.provider.map fun provider =>
    ⟨candidate.1,provider,candidate.2.model.getD "",
      ((candidate.2.params.bind GenParamsPatch.effort).map Effort.as_str).getD "",candidate.2.tier.getD ""⟩

/-- A table of preferences: those of the candidates, under the keys that each of them has. -/
def preferencesBy (keys : ProfilePatch → List String) (candidates : List Candidate) :
    List (String × RouteTargetPreference) :=
  candidates.flatMap fun candidate =>
    match preference candidate with
    | none => []
    | some pref => (keys candidate.2).map fun key => (key,pref)

def preferenceTable (candidates : List Candidate) : RoutePreferenceTable where
  tag_preferences := preferencesBy (fun patch => (patch.tags.getD []).map normalize_key) candidates
  stage_preferences := preferencesBy (fun patch => patch.stage.toList.map normalize_key) candidates
  tier_preferences := preferencesBy (fun patch => patch.tier.toList.map fun tier =>
    String.ofList (to_ascii_lowercase tier.toList)) candidates
  default := candidates.head?.bind preference

/-- The candidates of a route, in the order in which the tables are filled. -/
def route_candidates (config : ResolvedConfig) (params : RouteParams) : Outcome (List Candidate) := do
  let named := if params.candidate_profiles.isEmpty then config.profiles.entries
    else params.candidate_profiles.filterMap fun name => (config.profiles.get name).map fun patch => (name,patch)
  if named.isEmpty then bail "no candidate profiles available for routing" else .ok ()
  let eligible := if params.allow_frontier then named
    else named.filter fun candidate => !profile_is_frontier candidate.2
  if eligible.isEmpty then bail "frontier routing is disabled and no non-frontier candidate profiles remain" else .ok ()
  let executable := eligible.filter fun candidate => candidate.2.provider.isSome
  if executable.isEmpty then bail "candidate profiles do not name any providers" else .ok ()
  .ok (sortByTier executable)

def route_effort_from_core : Effort → RouteEffort
  | .Low => .Low
  | .Medium => .Medium
  | .High => .High
  | .Xhigh => .Xhigh

structure RouteResult where
  decision : RouteDecision
  profile : String

def RouteParams.signals (params : RouteParams) : ComplexitySignals where
  explicit_tier := params.explicit_tier
  stage := params.stage.getD ""
  task_tags := params.extra_tags
  changed_files := params.changed_files.getD 0
  dependency_edges := params.dependency_edges.getD 0
  retry_count := params.retry_count.getD 0
  allow_frontier := params.allow_frontier
  frontier_providers := []
  frontier_models := []

/-- The router's decision for some candidates. -/
def decideRoute (inference : Inference) (params : RouteParams) (candidates : List Candidate) : RouteDecision :=
  let default_provider := (candidates.head?.bind fun candidate => candidate.2.provider).getD "default"
  routerRouteTask inference params.task (providersOf candidates) params.signals
    (preferenceTable candidates) default_provider

/-- The service's `route_task`. -/
def route_task (inference : Inference) (config : ResolvedConfig) (params : RouteParams) : Outcome RouteResult := do
  validate_route_param_values config params
  let candidates ← route_candidates config params
  if (providersOf candidates).isEmpty then bail "candidate profiles do not name any providers" else .ok ()
  let decision := decideRoute inference params candidates
  let key := decision.selection_key
  let profile ← match candidates.find? fun candidate => candidate.1 == key with
    | none => bail s!"route decision did not carry a valid candidate profile key `{key}`"
    | some candidate => .ok candidate.1
  let selected_patch ← match config.profiles.get profile with
    | none => bail s!"selected profile `{profile}` disappeared from config"
    | some patch => .ok patch
  let provider := decision.provider
  if selected_patch.provider.any (eq_ignore_ascii_case · provider) then .ok ()
  else bail s!"route decision profile `{profile}` does not belong to provider `{provider}`"
  let model := if decision.model.isEmpty then selected_patch.model.getD decision.model else decision.model
  let effort := ((params.explicit_effort.or
    (selected_patch.params.bind GenParamsPatch.effort)).map route_effort_from_core).getD (effort_for_tier decision.tier)
  .ok ⟨{ decision with model := model, effort := effort },profile⟩

/-! ### The frontier guard -/

inductive DirectFailoverSafety where
  | NonFrontier | Frontier | Unclassified
deriving DecidableEq

/-- The model of a profile, with the default of a provider. -/
def profileModel (default_model : Option String) (patch : ProfilePatch) : Option String := patch.model.or default_model

/-- The tiers of the profiles that a direct leg shares its provider and model with. -/
def sharedTiers (config : ResolvedConfig) (provider model : String) : List (Option String) :=
  let default_model := (config.providers.get provider).bind Provider.default_model
  ((config.profiles.entries.map Prod.snd).filter fun patch =>
    patch.provider.any (eq_ignore_ascii_case · provider) &&
      (profileModel default_model patch == some model)).map ProfilePatch.tier

def classify_direct_failover (config : ResolvedConfig) (provider model : String) : DirectFailoverSafety :=
  let tiers := sharedTiers config provider model
  let is_safe (tier : Option String) :=
    tier.any fun tier => eq_ignore_ascii_case tier "economy" || eq_ignore_ascii_case tier "mainline"
  let is_frontier (tier : Option String) := tier.any fun tier => eq_ignore_ascii_case tier "frontier"
  let saw_safe := tiers.any is_safe
  let saw_frontier := tiers.any is_frontier
  let saw_unclassified := tiers.any fun tier => !is_safe tier && !is_frontier tier
  if saw_frontier then .Frontier else if saw_safe && !saw_unclassified then .NonFrontier else .Unclassified

/-- The loop of `guard_route_chain` over the declared legs and what they were resolved to. -/
def guardLegs (config : ResolvedConfig) (profile : String) : List (RawFailoverElement × BoundTarget) →
    Outcome (List BoundTarget)
  | [] => .ok []
  | (.ProfileName name,bound) :: rest =>
    match config.profiles.get name with
    | none => bail s!"profile `{profile}` names unknown failover profile `{name}`"
    | some patch => do
      let guarded ← guardLegs config profile rest
      .ok (if profile_is_frontier patch then guarded else bound :: guarded)
  | (.ProviderModel provider model,bound) :: rest =>
    match classify_direct_failover config provider model with
    | .NonFrontier => do
      let guarded ← guardLegs config profile rest
      .ok (bound :: guarded)
    | .Frontier =>
      bail (s!"frontier routing is disabled and direct failover `{provider}/{model}` is classified frontier; " ++
        "name a non-frontier profile instead")
    | .Unclassified =>
      bail (s!"frontier routing is disabled and direct failover `{provider}/{model}` cannot be proven non-frontier; " ++
        "name an explicitly tiered profile instead")

def guard_route_chain (config : ResolvedConfig) (profile : String) (chain : List BoundTarget) (allow_frontier : Bool) :
    Outcome (List BoundTarget) :=
  if allow_frontier then .ok chain
  else match config.profiles.get profile with
    | none => bail s!"selected profile `{profile}` is not configured"
    | some patch =>
      if profile_is_frontier patch then
        bail s!"frontier routing is disabled but selected profile `{profile}` is frontier"
      else
        let failover := patch.failover.getD []
        let targets := chain.length
        let declared := failover.length
        if targets ≠ declared + 1 then
          bail s!"resolved profile `{profile}` produced {targets} targets for {declared} declared failover legs"
        else match chain with
          | [] => bail s!"selected profile `{profile}` resolved to an empty chain"
          | primary :: resolved => do
            let guarded ← guardLegs config profile (failover.zip resolved)
            .ok (primary :: guarded)

/-- The effort of the targets for a decided one. -/
def coreEffort : RouteEffort → Effort
  | .Low => .Low
  | .Medium => .Medium
  | .High => .High
  | .Xhigh => .Xhigh

def apply_route_effort (decision : RouteDecision) (bound : BoundTarget) : BoundTarget :=
  { bound with params := { bound.params with effort := some (coreEffort decision.effort) } }
/-- `labels.insert`. -/
def insertLabel (key value : String) (labels : Labels) : Labels :=
  labels.filter (fun entry => entry.1 < key) ++ (key,value) :: labels.filter fun entry => key < entry.1
/-- `format!("{:.3}", score)`, for a score in thousandths. -/
def scoreText (score : Nat) : String :=
  let digit (n : Nat) := String.singleton (Char.ofNat (0x30 + n % 10))
  digit (score / 1000) ++ "." ++ digit (score / 100) ++ digit (score / 10) ++ digit score

def record_route_labels (labels : Labels) (route : RouteResult) (chain : List BoundTarget) : Labels :=
  let decision := route.decision
  let selected_model := (chain.head?.map fun bound => bound.target.model).getD decision.model
  let labels := insertLabel "routing.mode" "auto" labels
  let labels := insertLabel "routing.profile" route.profile labels
  let labels := insertLabel "routing.provider" decision.provider labels
  let labels := insertLabel "routing.model" selected_model labels
  let labels := insertLabel "routing.tier" decision.tier.as_str labels
  let labels := insertLabel "routing.effort" decision.effort.as_str labels
  let labels := insertLabel "routing.score" (scoreText decision.complexity_score) labels
  let labels := insertLabel "routing.intent" decision.intent labels
  if decision.tag.isEmpty then labels else insertLabel "routing.tag" decision.tag labels

structure DispatchPlan where
  selector : String
  chain : List BoundTarget
  route : Option RouteResult

/-- The plan for a selector, and the labels that the task has after it. -/
def plan_dispatch (inference : Inference) (loaded : LoadedConfig) (selector : String) (task : TaskSpec) :
    Outcome (DispatchPlan × TaskSpec) := do
  if eq_ignore_ascii_case selector "auto" then
    let route_params ← route_params_from_labels task.prompt task.labels
    let route ← route_task inference loaded.config route_params
    let chain ← resolve_target_chain loaded route.profile
    let chain ← guard_route_chain loaded.config route.profile chain route_params.allow_frontier
    let chain := chain.map (apply_route_effort route.decision)
    .ok (⟨route.profile,chain,some route⟩,{ task with labels := record_route_labels task.labels route chain })
  else
    let chain ← resolve_target_chain loaded selector
    .ok (⟨selector,chain,none⟩,task)

end Vyane.Routing
