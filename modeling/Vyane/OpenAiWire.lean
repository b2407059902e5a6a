import Vyane.StrictJson

/-!
The OpenAI wire format of typed tool chat (`openai_tool_chat` of `vyane-protocol/src/wire.rs`).
-/
namespace Vyane.OpenAiToolChat
open Vyane.Core Json ToolChat Wire

def MAX_OPENAI_CHOICES : Nat := 8

/-! ### Responses -/

structure TokenDetails where
  cached_tokens : Option Nat
  reasoning_tokens : Option Nat

structure UsageResponse where
  prompt_tokens : Option Nat
  completion_tokens : Option Nat
  total_tokens : Option Nat
  prompt_tokens_details : Option TokenDetails
  completion_tokens_details : Option TokenDetails

def usage_from_response (usage : UsageResponse) : Usage :=
  let remainder := do return (← usage.total_tokens) - (← usage.prompt_tokens)
  { input_tokens := usage.prompt_tokens.getD 0
    output_tokens := (usage.completion_tokens.or remainder).getD 0
    reasoning_tokens := usage.completion_tokens_details.bind (·.reasoning_tokens)
    cached_input_tokens := usage.prompt_tokens_details.bind (·.cached_tokens) }

structure ContentPart where
  kind : Option String
  text : Option String
  refusal : Option String

inductive Content where
  | Text (text : String)
  | Parts (parts : List ContentPart)
/-- A longer text is refused while the body is read. -/
structure BoundedArgumentString where
  raw : String
  bounded : raw.utf8ByteSize ≤ ToolChatLimits.ARGUMENT_BYTES
structure FunctionCallResponse where
  name : Option String
  arguments : Option BoundedArgumentString

structure ToolCallResponse where
  id : Option String
  kind : Option String
  function : Option FunctionCallResponse

structure AssistantMessageResponse where
  role : Option String
  content : Option Content
  reasoning_content : Option String
  refusal : Option String
  tool_calls : List ToolCallResponse

structure Choice where
  message : Option AssistantMessageResponse
  finish_reason : Option String

structure Response where
  model : Option String
  choices : List Choice
  usage : Option UsageResponse

variable (json : SerdeJson)

/-- `call.function.unwrap_or(..)`. -/
def ToolCallResponse.called (call : ToolCallResponse) : FunctionCallResponse := call.function.getD ⟨none,none⟩

def argumentsFrom (arguments : Option BoundedArgumentString) (budget : StrictJsonBudget) :
    Result (ToolCallArguments × StrictJsonBudget) :=
  match arguments with
  | some text =>
    match parse_object_arguments json text.raw budget with
    | (.ok arguments,budget) => .ok (.Object arguments,budget)
    | (.error .Invalid,budget) => .ok (.InvalidJson text.raw,budget)
    | (.error .Limit,_) => .error (protocolError "OpenAI tool-chat arguments exceeded structural limits")
  | none => .ok (.InvalidJson "",budget)

def tool_call_from (call : ToolCallResponse) (budget : StrictJsonBudget) :
    Result (ModelToolCall × StrictJsonBudget) := do
  rejectIf (call.kind.any (· != "function"))
    (protocolError "OpenAI tool-chat response contained an unsupported tool-call type")
  let (arguments,budget) ← argumentsFrom json call.called.arguments budget
  return (⟨call.id.getD "",call.called.name.getD "",arguments⟩,budget)

/-- All calls of a message, which share a budget. -/
def toolCallsFrom : List ToolCallResponse → StrictJsonBudget → Result (List ModelToolCall × StrictJsonBudget)
  | [], budget => .ok ([],budget)
  | call :: rest, budget => do
    let (call,budget) ← tool_call_from json call budget
    let (calls,budget) ← toolCallsFrom rest budget
    return (call :: calls,budget)

def ContentPart.named (part : ContentPart) : String :=
  part.kind.getD (if part.refusal.isSome then "refusal" else "text")

/-- A part of the content, behind the text of those before it. -/
def addPart (found : String × List AssistantContentPart) (part : ContentPart) :
    Result (String × List AssistantContentPart) :=
  if part.named = "text" ∧ part.refusal.isNone then do
    let value := part.text.getD ""
    rejectIf (ToolChatLimits.CONTENT_BYTES - found.1.utf8ByteSize < value.utf8ByteSize)
      (protocolError "OpenAI assistant text exceeded the content limit")
    return (found.1 ++ value,found.2 ++ [.Text value])
  else if part.named = "refusal" ∧ part.text.isNone then
    match part.refusal with
    | none => .error (protocolError "OpenAI refusal content part had no refusal text")
    | some refusal => do
      rejectIf (ToolChatLimits.CONTENT_BYTES < refusal.utf8ByteSize)
        (protocolError "OpenAI refusal content exceeded the content limit")
      return (found.1,found.2 ++ [.Refusal refusal])
  else .error (protocolError "OpenAI assistant content contained an unsupported part")

def assistant_content_from : Content → Result (String × List AssistantContentPart)
  | .Text text => do
    rejectIf (ToolChatLimits.CONTENT_BYTES < text.utf8ByteSize)
      (protocolError "OpenAI assistant text exceeded the content limit")
    return (text,[])
  | .Parts parts => do
    rejectIf (ToolChatLimits.CONTENT_PARTS < parts.length)
      (protocolError "OpenAI assistant content exceeded the part limit")
    parts.foldlM addPart ("",[])

/-- The first choice and its message. -/
def chosen (response : Response) : Result (Choice × AssistantMessageResponse) := do
  rejectIf (MAX_OPENAI_CHOICES < response.choices.length)
    (protocolError "OpenAI tool-chat response exceeded the choice limit")
  match response.choices with
  | [] => .error (protocolError "OpenAI tool-chat response had no choices")
  | choice :: _ =>
    match choice.message with
    | none => .error (protocolError "OpenAI tool-chat response choice had no assistant message")
    | some message => .ok (choice,message)

def contentFrom : Option Content → Result (String × List AssistantContentPart)
  | some content => assistant_content_from content
  | none => .ok ("",[])

/-- `ToolChatOutcome::try_from`. -/
def outcomeFrom (writer : Writer) (response : Response) : Result ToolChatOutcome := do
  let (choice,message) ← chosen response
  rejectIf (message.role.any (· != "assistant"))
    (protocolError "OpenAI tool-chat response had a non-assistant message role")
  rejectIf (ToolChatLimits.CALLS_PER_TURN < message.tool_calls.length)
    (protocolError "OpenAI tool-chat response exceeded the tool-call limit")
  let (text,content_parts) ← contentFrom message.content
  let (tool_calls,_) ← toolCallsFrom json message.tool_calls .empty
  validated writer "invalid OpenAI tool-chat response: "
    ⟨⟨text,content_parts,message.reasoning_content,message.refusal,tool_calls⟩,response.usage.map usage_from_response,
      response.model,choice.finish_reason⟩

/-! ### Requests -/

inductive AssistantContentPartRequest where
  | Text (text : String)
  | Refusal (refusal : String)
deriving DecidableEq

inductive AssistantContentRequest where
  | Text (text : String)
  | Parts (parts : List AssistantContentPartRequest)
deriving DecidableEq

/-- A call of the kind `function`. -/
structure ToolCallRequest where
  id : String
  name : String
  arguments : String
deriving DecidableEq

structure AssistantMessageRequest where
  content : Option AssistantContentRequest
  reasoning_content : Option String
  refusal : Option String
  tool_calls : List ToolCallRequest
deriving DecidableEq

inductive Message where
  | Text (role : Role) (content : String)
  | Assistant (message : AssistantMessageRequest)
  | ToolResult (tool_call_id content : String)

structure Request where
  model : String
  messages : List Message
  tools : List ToolDefinition
  tool_choice : Option Value
  temperature : Option String
  top_p : Option String
  extra : Fields

def tool_call_request_from (call : ModelToolCall) : ToolCallRequest where
  id := call.id
  name := call.name
  arguments :=
    match call.arguments with
    | .Object arguments => json.to_string arguments
    | .InvalidJson raw => raw

def partRequest : AssistantContentPart → AssistantContentPartRequest
  | .Text text => .Text text
  | .Refusal refusal => .Refusal refusal

/-- The content of a turn: its parts, or its text, which is left out if it is empty and something else is there. -/
def contentRequest (turn : AssistantToolTurn) : Option AssistantContentRequest :=
  if !turn.content_parts.isEmpty then some (.Parts (turn.content_parts.map partRequest))
  else if turn.text.isEmpty && (!turn.tool_calls.isEmpty || turn.refusal.isSome) then none
  else some (.Text turn.text)

def assistantRequest (turn : AssistantToolTurn) : AssistantMessageRequest where
  content := contentRequest turn
  reasoning_content := turn.reasoning
  refusal := turn.refusal
  tool_calls := turn.tool_calls.map (tool_call_request_from json)

/-- Nothing fails: a map of values can always be written. -/
def message_from : ToolChatMessage → Message
  | .Text message => .Text message.role message.content
  | .Assistant turn => .Assistant (assistantRequest json turn)
  | .ToolResult result => .ToolResult result.tool_call_id result.content

def RESERVED : List String :=
  ["model","messages","tools","tool_choice","stream","stream_options","temperature","top_p","max_tokens",
    "max_completion_tokens","reasoning_effort"]

def toolChoiceValue : ToolChoice → Value
  | .Auto => .String "auto"
  | .None => .String "none"
  | .Required => .String "required"
  | .Named name => .Object [("function",.Object [("name",.String name)]),("type",.String "function")]

/-- `entry(key).or_insert(value)`, where a reserved key is never taken. -/
def or_insert (key : String) (value : Option Value) (extra : Fields) : Fields :=
  match value with
  | some value => if extra.any fun field => field.1 == key then extra else mapInsert key value extra
  | none => extra

/-- `Request::try_from`. -/
def requestFrom (request : ToolChatRequest) : Result Request := do
  rejectIf (RESERVED.any fun field => request.params.extra.any fun entry => entry.1 == field)
    (.config "typed OpenAI tool-chat params.extra contains a reserved field")
  let extra := or_insert "max_tokens" (request.params.max_output_tokens.map ToolChat.number) request.params.extra
  return {
    model := request.model
    messages := request.messages.map (message_from json)
    tools := request.tools
    tool_choice := if request.tools.isEmpty then none else some (toolChoiceValue request.tool_choice)
    temperature := request.params.temperature
    top_p := request.params.top_p
    extra := or_insert "reasoning_effort" (request.params.effort.map fun effort => .String effort.as_str) extra }

end Vyane.OpenAiToolChat
