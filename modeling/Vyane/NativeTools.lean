import Vyane.Interactions
import Vyane.Sha256
import Vyane.ToolChat

/-!
The native tool registry (`vyane-harness/src/native/tools.rs`, and `decide` of `permissions.rs`). Cancellation, the
time, the authority and what a tool returns are requests to the world. A `select!` is one request; its answer says which
arm won and, when the future lost, whether it had been polled.
-/
namespace Vyane.Native
open Text Times Vyane.Core Json ToolChat Interactions

def MAX_TOOL_OUTPUT_CHARS : Nat := 30000

namespace ToolCallLimits
def ID_BYTES : Nat := 256
def NAME_BYTES : Nat := 128
def ARGUMENT_COUNT : Nat := 64
def ARGUMENT_NAME_BYTES : Nat := 256
def JSON_DEPTH : Nat := 16
def JSON_NODES : Nat := 262144
def SERIALIZED_ARGUMENT_BYTES : Nat := 256 * 1024

end ToolCallLimits

/-! ### Calls -/

structure ToolCall where
  id : String
  name : String
  arguments : Fields

inductive ToolCallValidationError where
  | EmptyId
  | IdTooLarge
  | UnsafeId
  | EmptyName
  | NameTooLarge
  | UnsafeName
  | TooManyArguments
  | ArgumentNameTooLarge
  | JsonTooDeep
  | TooManyJsonNodes
  | ArgumentsTooLarge
deriving DecidableEq, Repr

def ToolCallValidationError.code : ToolCallValidationError → String
  | .EmptyId => "empty_call_id"
  | .IdTooLarge => "call_id_too_large"
  | .UnsafeId => "unsafe_call_id"
  | .EmptyName => "empty_tool_name"
  | .NameTooLarge => "tool_name_too_large"
  | .UnsafeName => "unsafe_tool_name"
  | .TooManyArguments => "too_many_arguments"
  | .ArgumentNameTooLarge => "argument_name_too_large"
  | .JsonTooDeep => "arguments_too_deep"
  | .TooManyJsonNodes => "too_many_argument_nodes"
  | .ArgumentsTooLarge => "arguments_too_large"

def is_safe_call_id (value : String) : Bool := value.toList.all isCallIdChar
def is_safe_tool_name (value : String) : Bool := value.toList.all isToolNameChar
def callShape : ShapeLimits ToolCallValidationError :=
  ⟨ToolCallLimits.JSON_DEPTH,ToolCallLimits.ARGUMENT_NAME_BYTES,.JsonTooDeep,.TooManyJsonNodes,.ArgumentNameTooLarge⟩
def validateCallShape (arguments : Fields) : Except ToolCallValidationError Nat :=
  visitShape callShape ToolCallLimits.JSON_NODES (arguments.map fun (_,value) => (value,0)).reverse
/-- Refuses a call under a condition. -/
def refuse (condition : Bool) (error : ToolCallValidationError) : Except ToolCallValidationError Unit :=
  if condition then .error error else .ok ()

def validate_tool_call (writer : Writer) (call : ToolCall) : Except ToolCallValidationError Unit := do
  refuse call.id.isEmpty .EmptyId
  refuse (ToolCallLimits.ID_BYTES < call.id.utf8ByteSize) .IdTooLarge
  refuse (!is_safe_call_id call.id) .UnsafeId
  refuse call.name.isEmpty .EmptyName
  refuse (ToolCallLimits.NAME_BYTES < call.name.utf8ByteSize) .NameTooLarge
  refuse (!is_safe_tool_name call.name) .UnsafeName
  refuse (ToolCallLimits.ARGUMENT_COUNT < call.arguments.length) .TooManyArguments
  refuse (call.arguments.any fun (name,_) =>
    ToolCallLimits.ARGUMENT_NAME_BYTES < name.utf8ByteSize) .ArgumentNameTooLarge
  let _ ← validateCallShape call.arguments
  refuse (ToolCallLimits.SERIALIZED_ARGUMENT_BYTES < writer.size (.Object call.arguments)) .ArgumentsTooLarge

/-! ### The registry -/

inductive ToolRegistryError where
  | EmptyName
  | NameTooLarge
  | UnsafeName
  | Duplicate (name : String)
deriving DecidableEq, Repr

/-- A name that `register` accepts. -/
def registrable (name : String) : Bool :=
  !name.isEmpty && name.utf8ByteSize ≤ ToolCallLimits.NAME_BYTES && is_safe_tool_name name

/-- The registered tools by name, in the order of the map's keys. -/
structure ToolRegistry where
  names : List String
  distinct : names.Nodup
  accepted : ∀ name ∈ names, registrable name = true

namespace ToolRegistry
def new : ToolRegistry := ⟨[],List.nodup_nil,by simp⟩

def register (registry : ToolRegistry) (name : String) : Except ToolRegistryError ToolRegistry :=
  if empty : name.isEmpty then .error .EmptyName
  else if large : ToolCallLimits.NAME_BYTES < name.utf8ByteSize then .error .NameTooLarge
  else if unsafeName : !is_safe_tool_name name then .error .UnsafeName
  else if taken : name ∈ registry.names then .error (.Duplicate name)
  else .ok ⟨registry.names.orderedInsert (· ≤ ·) name,
    (List.perm_orderedInsert _ name registry.names).nodup_iff.mpr (List.nodup_cons.mpr ⟨taken,registry.distinct⟩),
    by
      intro other member
      rcases List.mem_cons.mp ((List.perm_orderedInsert _ name registry.names).mem_iff.mp member) with rfl | old
      · simp_all [registrable]
      · exact registry.accepted other old⟩

end ToolRegistry

/-! ### Permissions -/

inductive PermissionEffect where
  | Allow
  | Ask
  | Deny
deriving DecidableEq, Repr
def PermissionEffect.restrictiveness : PermissionEffect → Nat
  | .Allow => 0
  | .Ask => 1
  | .Deny => 2

/-- A rule, by the calls it matches and its description. -/
structure PermissionRule where
  «matches» : ToolCall → Bool
  effect : PermissionEffect
  description : String

structure PermissionRuleSet where
  rules : List PermissionRule
  default_effect : PermissionEffect

structure PermissionPolicy where
  rules : List PermissionRule
  restriction_layers : List PermissionRuleSet
  floor_rules : List PermissionRule
  default_effect : PermissionEffect

/-- What a tool call may do where it runs. The two hashes are those of the
    canonical plan of a call, which there is not for floats. -/
structure ToolContext where
  workdir : Option String
  planHashes : ToolCall → String → Option (String × String)
  timeout : Option Nat
  deadline : Option Nat

structure ApprovalPlan where
  schema : Nat
  tool : String
  arguments : Fields
  cwd : String
  tool_call_id : String
  matched_rule : Option String
  canonical_plan_hash : String
  approval_binding_hash : String

structure PermissionDecision where
  effect : PermissionEffect
  matched_rule_index : Option Nat
  matched_floor : Bool
  approval : Option ApprovalPlan

/-- `rfind` over the enumerated rules. -/
def lastMatch (rules : List PermissionRule) (call : ToolCall) : Option (Nat × PermissionRule) :=
  (rules.zipIdx.reverse.find? fun (rule,_) => rule.matches call).map fun (rule,index) => (index,rule)
/-- An effect with the rule it comes from. -/
abbrev Ruling : Type := PermissionEffect × Option Nat × Option PermissionRule

def PermissionRuleSet.decide (layer : PermissionRuleSet) (call : ToolCall) : Ruling :=
  match lastMatch layer.rules call with
  | some (index,rule) => (rule.effect,some index,some rule)
  | none => (layer.default_effect,none,none)

def ApprovalPlan.new (call : ToolCall) (context : ToolContext) (matched_rule : Option String) :
    Option ApprovalPlan := do
  let cwd ← context.workdir
  let (canonical_plan_hash,approval_binding_hash) ← context.planHashes call cwd
  return ⟨1,call.name,call.arguments,cwd,call.id,matched_rule,canonical_plan_hash,approval_binding_hash⟩

/-- The stricter of a ruling and that of one more layer. -/
def restrict (call : ToolCall) (ruling : Ruling) (layer : PermissionRuleSet) : Ruling :=
  if ruling.1.restrictiveness < (layer.decide call).1.restrictiveness then layer.decide call else ruling

def PermissionPolicy.decide (policy : PermissionPolicy) (call : ToolCall) (context : ToolContext) :
    PermissionDecision :=
  let (ruling,matched_floor) : Ruling × Bool :=
    match lastMatch policy.floor_rules call with
    | some (index,rule) => ((.Deny,some index,some rule),true)
    | none =>
      (policy.restriction_layers.foldl (restrict call)
        (PermissionRuleSet.decide ⟨policy.rules,policy.default_effect⟩ call),false)
  let approval :=
    if ruling.1 = .Ask then ApprovalPlan.new call context (ruling.2.2.map (·.description)) else none
  ⟨ruling.1,ruling.2.1,matched_floor,approval⟩

/-! ### Invocations -/

inductive ToolInvocationStatus where
  | Executed
  | ApprovalRequired
  | Denied
  | InvalidCall
  | UnknownTool
  | ToolError
  | Cancelled
  | TimedOut
deriving DecidableEq, Repr

structure ToolInvocation where
  call : ToolCall
  status : ToolInvocationStatus
  output : String
  output_chars : Nat
  output_sha256 : String
  output_truncated : Bool
  approval : Option ApprovalPlan

def sha256_hex (value : String) : String := hex_lower (Sha256.digest value.toUTF8.toList)
def tool_execution_cancelled_output : String := "ERROR: tool execution cancelled"
def tool_execution_timed_out_output : String := "ERROR: tool execution timed out"
def tool_unavailable_output : String := "ERROR: registered tool became unavailable"
def tool_panicked_output (name : String) : String := "ERROR: tool `" ++ name ++ "` panicked during execution"
def tool_failed_output (error : String) : String := "ERROR: " ++ error
def invalid_tool_call_output (code : String) : String := "ERROR: invalid tool call (" ++ code ++ ")"
def invalid_json_tool_arguments_output : String := "ERROR: tool arguments were not valid JSON"
def unknown_tool_output (name available : String) : String :=
  "ERROR: unknown tool `" ++ name ++ "`. Available tools: " ++ available
def denied_tool_output (name : String) : String := "ERROR: tool use denied by permission policy: `" ++ name ++ "`"
def missing_approval_plan_output : String := "ERROR: permission policy did not produce an approval plan"
/-- The first twelve characters of the hash. -/
def planHashStart (plan_hash : String) : String := String.ofList (plan_hash.toList.take 12)
def approval_required_output (tool plan_hash : String) : String :=
  "ERROR: tool use requires approval: `" ++ tool ++ "` (plan " ++ planHashStart plan_hash ++ ")"
/-- What is told of a longer output after its first characters. -/
def truncationMarker (output_chars : Nat) (output_sha256 : String) : String :=
  "\n... [truncated, " ++ toString output_chars ++ " chars total, sha256=" ++ output_sha256 ++ "]"

def ToolInvocation.new (call : ToolCall) (status : ToolInvocationStatus) (raw_output : String)
    (approval : Option ApprovalPlan) : ToolInvocation where
  call := call
  status := status
  output :=
    if MAX_TOOL_OUTPUT_CHARS < raw_output.length then
      String.ofList (raw_output.toList.take MAX_TOOL_OUTPUT_CHARS) ++
        truncationMarker raw_output.length (sha256_hex raw_output)
    else raw_output
  output_chars := raw_output.length
  output_sha256 := sha256_hex raw_output
  output_truncated := MAX_TOOL_OUTPUT_CHARS < raw_output.length
  approval := approval

/-! ### Requests to the world -/

/-- A future raced with cancellation. -/
inductive OrCancelled (α : Type) where
  | Cancelled (polled : Bool)
  | Finished (value : α)

/-- A future raced with cancellation and a deadline. -/
inductive Raced (α : Type) where
  | Cancelled (polled : Bool)
  | TimedOut (polled : Bool)
  | Finished (value : α)

/-- Whether the future was started before the race was over. -/
def Raced.polled {α : Type} : Raced α → Bool
  | .Cancelled polled => polled
  | .TimedOut polled => polled
  | .Finished _ => true
def OrCancelled.polled {α : Type} : OrCancelled α → Bool
  | .Cancelled polled => polled
  | .Finished _ => true
/-- Whether cancellation won the race. -/
def Raced.cancelled {α : Type} : Raced α → Bool
  | .Cancelled _ => true
  | .TimedOut _ | .Finished _ => false
def OrCancelled.cancelled {α : Type} : OrCancelled α → Bool
  | .Cancelled _ => true
  | .Finished _ => false
/-- `isize::MAX`, the most bytes a string can have. -/
def ISIZE_MAX : Nat := 2 ^ 63 - 1
/-- A string in memory. -/
structure OwnedString where
  text : String
  fits : text.utf8ByteSize ≤ ISIZE_MAX

/-- How a polled tool ends; `Rejected` is an error of the authority or of the run. -/
inductive ToolReturn where
  | Completed (output : OwnedString)
  | Failed (error : OwnedString)
  | Rejected (error : VyaneError)
  | Panicked

/-- What `reqwest` says of a request that got no response. -/
structure WireError where
  is_timeout : Bool
  is_connect : Bool
  is_request : Bool
  is_body : Bool
  is_decode : Bool
deriving DecidableEq, Repr

/-- The status of a response, and the seconds of its `Retry-After` header. -/
structure Response where
  status : Nat
  retry_after : Option Nat
deriving DecidableEq, Repr

inductive Request where
  | IsCancelled
  | Now
  | CompleteTurn (request : ToolChatRequest) (turn : Nat)
  | Revalidate (effect : NativeSideEffect)
  | RevalidateTool (effect : NativeSideEffect) (deadline : Option Nat)
  | Send (turn wire_attempt : Nat) (body : String)
  | ReadBody
  | Sleep (millis : Nat)
  | ExecuteTool (call : ToolCall) (effect : NativeSideEffect) (deadline : Option Nat)

def Answer : Request → Type
  | .IsCancelled => Bool
  | .Now => Nat
  | .CompleteTurn _ _ => Result ToolChatOutcome
  | .Revalidate _ => OrCancelled (Result Unit)
  | .RevalidateTool _ _ => Raced (Result Unit)
  | .Send _ _ _ => OrCancelled (Except WireError Response)
  | .ReadBody => OrCancelled (Result ToolChatOutcome)
  | .Sleep _ => OrCancelled Unit
  | .ExecuteTool _ _ _ => Raced ToolReturn

/-- A part of a native run. -/
abbrev Act (α : Type) : Type := Program Request Answer α
abbrev Trace : Type := List (Event Request Answer)
def act (request : Request) : Act (Answer request) := Program.request request
def is_cancelled : Act Bool := act .IsCancelled
def now : Act Nat := act .Now

/-! ### Execution -/

/-- `Instant::checked_add`: the seconds of an instant are an `i64`. -/
def checked_add (start duration : Nat) : Option Nat :=
  if start + duration < 2 ^ 63 * 1000000000 then some (start + duration) else none

def earliest : Option Nat → Option Nat → Option Nat
  | some left, some right => some (min left right)
  | some deadline, none => some deadline
  | none, some deadline => some deadline
  | none, none => none

def ToolContext.effective_deadline (context : ToolContext) : Act (Option Nat) :=
  match context.timeout with
  | some timeout => do return earliest (checked_add (← now) timeout) context.deadline
  | none => pure (earliest none context.deadline)

def terminal_outcome (deadline : Option Nat) : Act (Option (ToolInvocationStatus × String)) := do
  if ← is_cancelled then
    return some (.Cancelled,tool_execution_cancelled_output)
  else
    match deadline with
    | none => return none
    | some deadline =>
      if deadline ≤ (← now) then return some (.TimedOut,tool_execution_timed_out_output) else return none

inductive PreparedToolOutcome where
  | Complete (invocation : ToolInvocation)
  | Allowed (call : ToolCall) (deadline : Option Nat)

/-- The part of `prepare_invocation` after a decision. -/
def prepareDecided (call : ToolCall) (deadline : Option Nat) (decision : PermissionDecision) : PreparedToolOutcome :=
  match decision.effect with
  | .Ask =>
    match decision.approval with
    | none => .Complete (.new call .ToolError missing_approval_plan_output none)
    | some approval =>
      .Complete (.new call .ApprovalRequired (approval_required_output approval.tool approval.canonical_plan_hash)
        (some approval))
  | .Deny => .Complete (.new call .Denied (denied_tool_output call.name) none)
  | .Allow => .Allowed call deadline

/-- The names an unknown call is told about. -/
def ToolRegistry.available (registry : ToolRegistry) : String :=
  if registry.names.isEmpty then "(none)" else ", ".intercalate registry.names

variable (writer : Writer) (registry : ToolRegistry) (policy : PermissionPolicy) (context : ToolContext)

def prepare_invocation (call : ToolCall) : Act PreparedToolOutcome :=
  match validate_tool_call writer call with
  | .error error => pure (.Complete (.new call .InvalidCall (invalid_tool_call_output error.code) none))
  | .ok () =>
    if !registry.names.contains call.name then
      pure (.Complete (.new call .UnknownTool (unknown_tool_output call.name registry.available) none))
    else do
      let deadline ← context.effective_deadline
      match ← terminal_outcome deadline with
      | some (status,output) => return .Complete (.new call status output none)
      | none => return prepareDecided call deadline (policy.decide call context)

/-- The invocation that a finished tool becomes. -/
def returnedInvocation (call : ToolCall) : ToolReturn → Result ToolInvocation
  | .Completed output => .ok (.new call .Executed output.text none)
  | .Failed error => .ok (.new call .ToolError (tool_failed_output error.text) none)
  | .Rejected error => .error error
  | .Panicked => .ok (.new call .ToolError (tool_panicked_output call.name) none)

/-- The invocation of a tool that was cancelled or ran out of time, or what `ended` makes of the value it ended with. -/
def racedInvocation {α : Type} (call : ToolCall) (ended : α → Act (Result ToolInvocation)) : Raced α →
    Act (Result ToolInvocation)
  | .Cancelled _ => pure (.ok (.new call .Cancelled tool_execution_cancelled_output none))
  | .TimedOut _ => pure (.ok (.new call .TimedOut tool_execution_timed_out_output none))
  | .Finished value => ended value

def execute_allowed_authorized (call : ToolCall) (deadline : Option Nat) (effect : NativeSideEffect) :
    Act (Result ToolInvocation) := do
  match ← terminal_outcome deadline with
  | some (status,output) => return .ok (.new call status output none)
  | none =>
    if !registry.names.contains call.name then
      return .ok (.new call .ToolError tool_unavailable_output none)
    else
      let execution : Raced ToolReturn ← act (.ExecuteTool call effect deadline)
      racedInvocation call (fun value => pure (returnedInvocation call value)) execution

/-- The registry's own check with the authority, and the execution it permits. -/
def revalidateAndExecute (call : ToolCall) (deadline : Option Nat) (effect : NativeSideEffect) :
    Act (Result ToolInvocation) := do
  let validation : Raced (Result Unit) ← act (.RevalidateTool effect deadline)
  racedInvocation call
    (fun
      | .error error => pure (.error error)
      | .ok () => execute_allowed_authorized registry call deadline effect)
    validation

def execute_authorized (call : ToolCall) (turn ordinal : Nat) : Act (Result ToolInvocation) := do
  match ← prepare_invocation writer registry policy context call with
  | .Complete invocation => return .ok invocation
  | .Allowed call deadline =>
    match ← terminal_outcome deadline with
    | some (status,output) => return .ok (.new call status output none)
    | none => revalidateAndExecute registry call deadline (.ToolOperation turn ordinal)

end Vyane.Native
