import Vyane.DispatchModel
import Vyane.NativePermissions

/-!
Configured profiles and how a selector becomes a chain of targets (`vyane-config/src/resolve.rs`,
`vyane-provider/src/lib.rs`, `vyane-service/src/selector.rs`). A map is kept as its entries in the order of the keys;
the merging of the layers is left out.
-/
namespace Vyane.Routing
open Vyane.Core Text Kernel ToolChat

def eq_ignore_ascii_case (value other : String) : Bool := Text.eq_ignore_ascii_case value.toList other.toList
/-- `str::to_ascii_lowercase`, on characters. -/
def to_ascii_lowercase (value : List Char) : List Char := value.map Char.toLower
/-- `anyhow::Error`: a message, or an error of the libraries. -/
inductive Failure where
  | Message (text : String)
  | Error (error : VyaneError)
abbrev Outcome (α : Type) : Type := Except Failure α
def bail {α : Type} (text : String) : Outcome α := .error (.Message text)
def vyaneError {α : Type} (kind : ErrorKind) (text : String) : Outcome α := .error (.Error ⟨kind,text⟩)
/-- A `BTreeMap` with strings for keys. -/
structure BTreeMap (α : Type) where
  entries : List (String × α)
  sorted : (entries.map Prod.fst).Pairwise (· < ·)
def BTreeMap.get {α : Type} (map : BTreeMap α) (key : String) : Option α :=
  (map.entries.find? fun entry => entry.1 == key).map Prod.snd

/-! ### Configuration -/

structure Provider where
  base_url : String
  api_key_env : Option String
  auth_style : AuthStyle
  protocol : Protocol
  default_model : Option String

inductive RawFailoverElement where
  | ProfileName (name : String)
  | ProviderModel (provider model : String)
deriving DecidableEq

structure GenParamsPatch where
  temperature : Option String
  top_p : Option String
  max_output_tokens : Option Nat
  effort : Option Effort
  extra : Fields

/-- A configured profile. Its sandbox is validated elsewhere and is not part of a target. -/
structure ProfilePatch where
  provider : Option String
  protocol : Option Protocol
  harness : Option String
  model : Option String
  params : Option GenParamsPatch
  failover : Option (List RawFailoverElement)
  tier : Option String
  tags : Option (List String)
  stage : Option String

structure ResolvedConfig where
  providers : BTreeMap Provider
  profiles : BTreeMap ProfilePatch
/-- The configuration with the lookup of secrets and the environment. -/
structure LoadedConfig where
  config : ResolvedConfig
  env_lookup : String → Option String

/-! ### Targets of profiles -/

def ResolvedConfig.provider (config : ResolvedConfig) (id : String) : Outcome Provider :=
  match config.providers.get id with
  | none => vyaneError .NotFound s!"unknown provider `{id}`"
  | some provider => .ok provider

def Provider.resolve_endpoint_with (env_lookup : String → Option String) (provider : Provider) : Outcome Endpoint :=
  match provider.api_key_env with
  | none => .ok ⟨provider.base_url,none⟩
  | some var_name =>
    match env_lookup var_name with
    | none =>
        vyaneError .Config s!"provider requires environment variable `{var_name}` for its API key, but it is not set"
    | some value => .ok ⟨provider.base_url,some ⟨provider.auth_style,value⟩⟩

def Provider.resolve_model (explicit : Option String) (provider : Provider) : Outcome String :=
  match explicit.or provider.default_model with
  | none => vyaneError .Config "no model specified and provider has no default_model"
  | some model => .ok model

def gen_params_from_patch (patch : ProfilePatch) : GenParams :=
  match patch.params with
  | none => ⟨none,none,none,none,[]⟩
  | some params => ⟨params.temperature,params.top_p,params.max_output_tokens,params.effort,params.extra⟩

def harness_kind (raw : String) : HarnessKind :=
  if claude : raw = "claude-code" then .ClaudeCode
  else if codex : raw = "codex-cli" then .CodexCli
  else if opencode : raw = "opencode" then .OpenCode
  else .Other raw (by simp [claude,codex,opencode])

def parse_harness (raw : Option String) (profile_name : String) : Outcome (Option HarnessKind) :=
  match raw with
  | none => .ok none
  | some raw =>
    if raw = "none" then .ok none
    else if raw.toList.any Char.isUpper then
      vyaneError .Config (s!"profile `{profile_name}` has `harness = \"{raw}\"`: harness values must be " ++
        "lowercase (use `claude-code`, `codex-cli`, `opencode`, or `none` for direct HTTP)")
    else .ok (some (harness_kind raw))

def transport_for : Option HarnessKind → AdapterTransport
  | some _ => .CliWrap
  | none => .DirectHttp

def ResolvedConfig.profile (config : ResolvedConfig) (name : String) : Outcome ProfilePatch :=
  match config.profiles.get name with
  | none => vyaneError .NotFound s!"unknown profile `{name}`"
  | some patch => .ok patch

def resolve_profile_patch (loaded : LoadedConfig) (patch : ProfilePatch) (profile_name : String) :
    Outcome BoundTarget := do
  let provider_id ← match patch.provider with
    | none => vyaneError .Config s!"profile `{profile_name}` has no `provider` set"
    | some id => .ok id
  let provider ← loaded.config.provider provider_id
  let protocol := patch.protocol.getD provider.protocol
  let harness ← parse_harness patch.harness profile_name
  let model ← provider.resolve_model patch.model
  let endpoint ← provider.resolve_endpoint_with loaded.env_lookup
  .ok ⟨⟨provider_id,protocol,harness,model⟩,transport_for harness,some endpoint,gen_params_from_patch patch⟩

def resolve_profile_with (loaded : LoadedConfig) (name : String) : Outcome BoundTarget := do
  let patch ← loaded.config.profile name
  resolve_profile_patch loaded patch name

def resolve_provider_model (loaded : LoadedConfig) (provider_id model : String) (params : GenParams) :
    Outcome BoundTarget := do
  let provider ← loaded.config.provider provider_id
  let resolved_model ← provider.resolve_model (some model)
  let endpoint ← provider.resolve_endpoint_with loaded.env_lookup
  .ok ⟨⟨provider_id,provider.protocol,none,resolved_model⟩,.DirectHttp,some endpoint,params⟩

/-- A leg of a failover chain; a direct one inherits the parameters of the profile. -/
def resolveLeg (loaded : LoadedConfig) (patch : ProfilePatch) : RawFailoverElement → Outcome BoundTarget
  | .ProfileName name => resolve_profile_with loaded name
  | .ProviderModel provider model => resolve_provider_model loaded provider model (gen_params_from_patch patch)

def resolveLegs (loaded : LoadedConfig) (patch : ProfilePatch) : List RawFailoverElement → Outcome (List BoundTarget)
  | [] => .ok []
  | element :: elements => do
    let bound ← resolveLeg loaded patch element
    let rest ← resolveLegs loaded patch elements
    .ok (bound :: rest)

def resolve_failover_with (loaded : LoadedConfig) (name : String) : Outcome (List BoundTarget) := do
  let patch ← loaded.config.profile name
  let primary ← resolve_profile_patch loaded patch name
  let legs ← resolveLegs loaded patch (patch.failover.getD [])
  .ok (primary :: legs)

/-! ### Selectors -/

/-- `str::split_once` with a character. -/
def split_once (separator : Char) : List Char → Option (List Char × List Char)
  | [] => none
  | c :: rest => if c = separator then some ([],rest) else (split_once separator rest).map fun (before,
      after) => (c :: before,after)

def parse_provider_model (raw : String) : Option (String × String) :=
  match split_once '/' raw.toList with
  | none => none
  | some (provider,model) =>
      if provider.isEmpty || model.isEmpty then none else some (String.ofList provider,String.ofList model)

/-- The profile `__cli_target` of a direct selector: what the selector says, over a profile of that name if there is
    one. -/
def tempProfile (existing : Option ProfilePatch) (provider : String) (protocol : Protocol) (model : String) :
    ProfilePatch where
  provider := some provider
  protocol := some protocol
  harness := some "none"
  model := some model
  params := existing.bind ProfilePatch.params
  failover := existing.bind ProfilePatch.failover
  tier := existing.bind ProfilePatch.tier
  tags := existing.bind ProfilePatch.tags
  stage := existing.bind ProfilePatch.stage

/-- `provider_model_config` and `resolve_temp_profile`. -/
def resolveDirect (loaded : LoadedConfig) (provider model : String) : Outcome (List BoundTarget) := do
  let configured ← loaded.config.provider provider
  let patch := tempProfile (loaded.config.profiles.get "__cli_target") provider configured.protocol model
  let bound ← resolve_profile_patch loaded patch "__cli_target"
  .ok [bound]

/-- `str::strip_prefix`. -/
def stripStart (pattern value : String) : Option String :=
  if starts_with value pattern then some (String.ofList (value.toList.drop pattern.length)) else none

def resolve_target_chain (loaded : LoadedConfig) (raw : String) : Outcome (List BoundTarget) :=
  match stripStart "profile:" raw with
  | some profile =>
    if profile.isEmpty then bail "profile selector must include a name after `profile:`"
    else resolve_failover_with loaded profile
  | none =>
    match stripStart "target:" raw with
    | some explicit =>
      match parse_provider_model explicit with
      | none => bail "target selector must be `target:<provider>/<model>` with non-empty parts"
      | some (provider,model) => resolveDirect loaded provider model
    | none =>
      match parse_provider_model raw with
      | some (provider,model) => resolveDirect loaded provider model
      | none => resolve_failover_with loaded raw

end Vyane.Routing
