import Vyane.Conversations
import Vyane.NativeRuns

/-!
The pre-flight of a tool call is sound: the loop probes the next request with one synthetic result, and the request that
carries the real one passes its validation too, since it has at most the characters of the probe and none that takes
more bytes.
-/
namespace Vyane.Native
open Text Vyane.Core Json ToolChat Interactions Transactions List ToolChatLimits
open Interactions.Program

/-! ### Requests that differ in their last result -/

section
variable {writer : Writer} {request : ToolChatRequest} {assistant : AssistantToolTurn}
    {first second : ToolResultMessage}

/-- A result of the same call that is not too large passes where another does, and leaves the same state. -/
theorem validateMessage_result {conversation next : Conversation} (same : second.tool_call_id = first.tool_call_id)
    (fits : second.content.utf8ByteSize ≤ CONTENT_BYTES)
    (valid : validateMessage writer conversation (.ToolResult first) = .ok next) :
    validateMessage writer conversation (.ToolResult second) = .ok next := by
  unfold validateMessage at valid ⊢
  obtain ⟨named,valid⟩ := then_eq_ok.mp valid
  obtain ⟨_,rest⟩ := then_eq_ok.mp valid
  refine then_eq_ok.mpr ⟨by rwa [same],then_eq_ok.mpr ⟨?_,by rwa [same]⟩⟩
  exact ensure_eq_ok.mpr (by simpa using fits)

theorem validate_conversation_result {budget last : JsonBudget} (same : second.tool_call_id = first.tool_call_id)
    (fits : second.content.utf8ByteSize ≤ CONTENT_BYTES)
    (valid : validate_conversation_with_budget writer
      (next_request_with_result request assistant first).messages budget =
      .ok last) :
    validate_conversation_with_budget writer
      (next_request_with_result request assistant second).messages budget = .ok last := by
  unfold validate_conversation_with_budget next_request_with_result at valid ⊢
  obtain ⟨_,valid⟩ := then_eq_ok.mp valid
  obtain ⟨short,valid⟩ := then_eq_ok.mp valid
  obtain ⟨conversation,walked,closed⟩ := bind_eq_ok.mp valid
  refine then_eq_ok.mpr ⟨ensure_eq_ok.mpr (by simp),then_eq_ok.mpr ⟨by simpa using short,?_⟩⟩
  refine bind_eq_ok.mpr ⟨conversation,?_,closed⟩
  rw [foldlM_append] at walked ⊢
  obtain ⟨before,prior,walked⟩ := bind_eq_ok.mp walked
  refine bind_eq_ok.mpr ⟨before,prior,?_⟩
  rw [foldlM_cons] at walked ⊢
  obtain ⟨called,turned,walked⟩ := bind_eq_ok.mp walked
  refine bind_eq_ok.mpr ⟨called,turned,?_⟩
  rw [foldlM_cons] at walked ⊢
  obtain ⟨resulted,answered,ended⟩ := bind_eq_ok.mp walked
  exact bind_eq_ok.mpr ⟨resulted,validateMessage_result same fits answered,ended⟩

/-- A request is as much larger with one result than with another as the result is. -/
theorem size_with_result :
    writer.size (next_request_with_result request assistant second).to_value + writer.size first.to_value =
      writer.size (next_request_with_result request assistant first).to_value + writer.size second.to_value := by
  simp only [ToolChatRequest.to_value,next_request_with_result,map_append,map_cons,map_nil,
    ToolChatMessage.to_value,size_object,size_array,Writer.fieldsSize,valuesSize_append,Writer.valuesSize,length_append,
    length_cons,length_nil]
  omega

/-- A request passes with any result of the call that keeps the limits, if it passes with one. -/
theorem validate_with_result (same : second.tool_call_id = first.tool_call_id)
    (fits : second.content.utf8ByteSize ≤ CONTENT_BYTES)
    (envelope : writer.size (next_request_with_result request assistant first).to_value ≤
      ENVELOPE_BYTES →
      writer.size (next_request_with_result request assistant second).to_value ≤ ENVELOPE_BYTES)
    (valid : (next_request_with_result request assistant first).validate writer = .ok ()) :
    (next_request_with_result request assistant second).validate writer = .ok () := by
  unfold ToolChatRequest.validate at valid ⊢
  obtain ⟨model,valid⟩ := then_eq_ok.mp valid
  obtain ⟨budget,params,valid⟩ := bind_eq_ok.mp valid
  obtain ⟨last,conversation,valid⟩ := bind_eq_ok.mp valid
  obtain ⟨tools,bounded⟩ := then_eq_ok.mp valid
  refine then_eq_ok.mpr ⟨model,bind_eq_ok.mpr ⟨budget,params,bind_eq_ok.mpr ⟨last,?_,?_⟩⟩⟩
  · exact validate_conversation_result same fits conversation
  · refine then_eq_ok.mpr ⟨tools,ensure_eq_ok.mpr (decide_eq_true (envelope ?_))⟩
    exact of_decide_eq_true (ensure_eq_ok.mp bounded)

end

/-! ### The size of a result -/

theorem decimal_length {n : Nat} (small : n < 10 ^ 20) : (toString n).length ≤ 20 :=
  Nat.repr_length n 20 (by decide) small

theorem sha256_hex_length (value : String) : (sha256_hex value).length = 64 := by
  have pairs : ∀ bytes : Bytes,
      (bytes.flatMap fun byte => [hexDigit (byte.toNat / 16),hexDigit (byte.toNat % 16)]).length =
        2 * bytes.length := by
    intro bytes
    induction bytes with
    | nil => rfl
    | cons byte rest ih => simp only [flatMap_cons,length_append,length_cons,length_nil,ih]; omega
  rw [sha256_hex,hex_lower,String.length_ofList,pairs,Sha256.digest_length]

theorem truncationMarker_length {output_chars : Nat} (small : output_chars < 10 ^ 20) (value : String) :
    (truncationMarker output_chars (sha256_hex value)).length ≤ 123 := by
  have digits := decimal_length small
  have hash := sha256_hex_length value
  clear small
  unfold truncationMarker
  generalize toString output_chars = count at *
  generalize sha256_hex value = digest at *
  have opening : "\n... [truncated, ".length = 17 := by decide +kernel
  have middle : " chars total, sha256=".length = 21 := by decide +kernel
  have closing : "]".length = 1 := by decide +kernel
  simp only [String.length_append,hash,opening,middle,closing]
  omega

/-- The output of an invocation keeps within the characters of the probe, with some to spare. -/
theorem output_length (call : ToolCall) (status : ToolInvocationStatus) {raw : String} (approval : Option ApprovalPlan)
    (fits : raw.length < 10 ^ 20) :
    (ToolInvocation.new call status raw approval).output.length < MAX_TOOL_OUTPUT_CHARS + SAFE_RESULT_HEADROOM_CHARS :=
  by
  have marker := truncationMarker_length fits raw
  clear fits
  change (if MAX_TOOL_OUTPUT_CHARS < raw.length then _ else raw : String).length < _
  have room : SAFE_RESULT_HEADROOM_CHARS = 512 := rfl
  by_cases long : MAX_TOOL_OUTPUT_CHARS < raw.length
  · rw [if_pos long,String.length_append,String.length_ofList,length_take]
    omega
  · rw [if_neg long]
    omega

/-- A result with fewer characters than the probe is no larger than the probe. -/
theorem result_smaller {writer : Writer} {id content : String} {is_error : Bool}
    (short : content.length < MAX_TOOL_OUTPUT_CHARS + SAFE_RESULT_HEADROOM_CHARS) :
    writer.size (ToolResultMessage.to_value ⟨id,content,is_error⟩) ≤ writer.size
      (worst_case_tool_result id).to_value := by
  have chars : writer.charsSize content ≤ 6 * content.length := charsSize_le content
  have flag : (if is_error then 4 else 5) ≤ 5 := by cases is_error <;> decide
  simp only [ToolResultMessage.to_value,worst_case_tool_result,size_object,size_string,size_bool,Writer.fieldsSize,
    charsSize_nul,length_cons,length_nil,↓reduceIte]
  omega

/-- A result with fewer characters than the probe fits the limit on its bytes. -/
theorem result_fits {content : String} (short : content.length < MAX_TOOL_OUTPUT_CHARS + SAFE_RESULT_HEADROOM_CHARS) :
    content.utf8ByteSize ≤ CONTENT_BYTES := by
  have bytes := (utf8ByteSize_bounds content).2
  have limit : CONTENT_BYTES = 1048576 := by rfl
  have probe : MAX_TOOL_OUTPUT_CHARS + SAFE_RESULT_HEADROOM_CHARS = 30512 := by rfl
  omega

/-! ### The words of the registry -/

section
variable {registry : ToolRegistry} {policy : PermissionPolicy} {context : ToolContext} {call : ToolCall}

theorem registered_name_length {name : String} (known : name ∈ registry.names) : name.length ≤ 128 := by
  have accepted := registry.accepted name known
  have bytes := (utf8ByteSize_bounds name).1
  simp only [registrable,Bool.and_eq_true,decide_eq_true_eq] at accepted
  obtain ⟨⟨_,small⟩,_⟩ := accepted
  exact bytes.trans small

theorem intercalate_length {names : List String} (short : ∀ name ∈ names, name.length ≤ 128) :
    (", ".intercalate names).length ≤ 130 * names.length := by
  have separator : ", ".length = 2 := by decide +kernel
  induction names with
  | nil => simp
  | cons name rest ih =>
    have first := short name mem_cons_self
    have others := ih fun other member => short other (mem_cons_of_mem _ member)
    cases rest with
    | nil =>
      simp only [String.intercalate_singleton,length_cons,length_nil]
      omega
    | cons second more =>
      rw [String.intercalate_cons_of_ne_nil (by simp),String.length_append,String.length_append,separator]
      simp only [length_cons] at *
      omega

theorem available_length (few : registry.names.length ≤ TOOLS) : registry.available.length ≤ 16640 := by
  unfold ToolRegistry.available
  split
  · have none : "(none)".length = 6 := by decide +kernel
    omega
  · have named : ∀ name ∈ registry.names, name.length ≤ 128 := fun name known => registered_name_length known
    have listed := intercalate_length named
    simp only [TOOLS] at few
    omega

theorem code_length (error : ToolCallValidationError) : error.code.length ≤ 26 := by
  cases error <;> decide +kernel

theorem joined_length {first second : String} {a b : Nat} (one : first.length ≤ a) (two : second.length ≤ b) :
    (first ++ second).length ≤ a + b := by
  rw [String.length_append]
  omega

/-- A name between fixed words. -/
theorem wrapped_length {before after : String} {fixed : Nat} (words : before.length + after.length ≤ fixed)
    (name : String) :
    (before ++ name ++ after).length ≤ name.length + fixed := by
  rw [String.length_append,String.length_append]
  omega

/-- The registry's own words are short. -/
theorem OwnWords.length_le (few : registry.names.length ≤ TOOLS) {raw : String}
    (own : OwnWords registry call raw) : raw.length ≤ 20000 := by
  cases own with
  | cancelled => exact (by decide +kernel : tool_execution_cancelled_output.length ≤ 20000)
  | timed_out => exact (by decide +kernel : tool_execution_timed_out_output.length ≤ 20000)
  | unavailable => exact (by decide +kernel : tool_unavailable_output.length ≤ 20000)
  | missingPlan => exact (by decide +kernel : missing_approval_plan_output.length ≤ 20000)
  | denied known =>
    have name := registered_name_length known
    exact (wrapped_length (by decide +kernel) call.name).trans (Nat.add_le_add name (Nat.le_refl 19872))
  | panicked known =>
    have name := registered_name_length known
    exact (wrapped_length (by decide +kernel) call.name).trans (Nat.add_le_add name (Nat.le_refl 19872))
  | invalid error =>
    have code := code_length error
    exact (wrapped_length (by decide +kernel) error.code).trans (Nat.add_le_add code (Nat.le_refl 19974))
  | unknown valid =>
    have listed := available_length few
    have name := (utf8ByteSize_bounds call.name).1.trans valid
    have told : ("ERROR: unknown tool `" ++ call.name ++ "`. Available tools: ").length ≤ call.name.length + 100 :=
      wrapped_length (by decide +kernel) call.name
    exact (joined_length (told.trans (Nat.add_le_add_right name 100)) listed).trans (by decide)

/-- The bound on a result that goes on with the run. -/
def Short (call : ToolCall) (invocation : ToolInvocation) : Prop :=
  invocation.call.id = call.id ∧ (invocation.status = .ApprovalRequired ∨
    invocation.output.length < MAX_TOOL_OUTPUT_CHARS + SAFE_RESULT_HEADROOM_CHARS)
theorem short_new (status : ToolInvocationStatus) {raw : String} (approval : Option ApprovalPlan)
    (fits : raw.length < 10 ^ 20) : Short call (.new call status raw approval) :=
  ⟨rfl,.inr (output_length call status approval fits)⟩

theorem owned_length (value : OwnedString) : ("ERROR: " ++ value.text).length < 10 ^ 20 ∧
    value.text.length < 10 ^ 20 := by
  have bytes := (utf8ByteSize_bounds value.text).1
  have fits := value.fits
  have before : "ERROR: ".length = 7 := by decide +kernel
  simp only [ISIZE_MAX,String.length_append,before] at *
  omega

section
variable (few : registry.names.length ≤ TOOLS)
include few
theorem short_words (status : ToolInvocationStatus) {raw : String}
    (approval : Option ApprovalPlan) (own : OwnWords registry call raw) : Short call (.new call status raw approval) :=
  short_new status approval (Nat.lt_of_le_of_lt (own.length_le few) (by norm_num))

theorem Answered.short {invocation : ToolInvocation}
    (answered : Answered registry call invocation) : Short call invocation := by
  obtain ⟨status,raw,approval,rfl,_,waiting | own⟩ := answered
  · exact ⟨rfl,.inl waiting⟩
  · exact short_words few status approval own

/-- Every result of a call is about that call and, unless it waits for an approval, short. -/
theorem ToolRun.short {effect : NativeSideEffect} {trace : Trace}
    {result : Result ToolInvocation} (ran : ToolRun registry policy context call effect trace result)
    {invocation : ToolInvocation} (made : result = .ok invocation) : Short call invocation := by
  have cancelled : Short call (cancelledInvocation call) := short_words few _ _ .cancelled
  have raced {α : Type} {race : Raced α} {ended : α → Result ToolInvocation}
      (finished : ∀ value, race = .Finished value → ended value = .ok invocation → Short call invocation)
      (made : racedResult call ended race = .ok invocation) : Short call invocation := by
    cases race with
    | Cancelled polled => cases made; exact cancelled
    | TimedOut polled => cases made; exact short_words few _ _ .timed_out
    | Finished value => exact finished value rfl made
  cases ran with
  | answered quiet own => cases made; exact own.short few
  | cancelled quiet => cases made; exact cancelled
  | unauthorized quiet validation refused =>
    refine raced (fun value ended made => ?_) made
    cases value with
    | error error => cases made
    | ok agreed => exact absurd ended refused
  | authorized quiet allowed runs =>
    cases runs with
    | answered more own => cases made; exact own.short few
    | cancelled => cases made; exact cancelled
    | started more known execution =>
      refine raced (fun value ended made => ?_) made
      cases value with
      | Completed output => cases made; exact short_new _ _ (owned_length output).2
      | Failed error => cases made; exact short_new _ _ (owned_length error).1
      | Rejected error => cases made
      | Panicked => cases made; exact short_words few _ _ (.panicked known)

end
end

/-! ### The loop -/

section
variable {writer : Writer} {driver : NativeTurnDriver} {context : ToolContext} {request next : ToolChatRequest}
  {assistant : AssistantToolTurn} {state after : RunState} {turn : Nat} {trace : Trace}

/-- A request that passes with the probe passes with any short result of the call. -/
theorem sendable_with {id content : String} {is_error : Bool}
    (sendable : (next_request_with_result request assistant (worst_case_tool_result id)).validate writer = .ok ())
    (short : content.length < MAX_TOOL_OUTPUT_CHARS + SAFE_RESULT_HEADROOM_CHARS) :
    (next_request_with_result request assistant ⟨id,content,is_error⟩).validate writer = .ok () := by
  have same : id = (worst_case_tool_result id).tool_call_id := by rw [worst_case_tool_result]
  refine validate_with_result same (result_fits short) (fun bounded => ?_) sendable
  have grown := @size_with_result writer request assistant (worst_case_tool_result id) ⟨id,content,is_error⟩
  have smaller : writer.size (ToolResultMessage.to_value ⟨id,content,is_error⟩) ≤ _ := result_smaller short
  omega

/-- A call that goes on does so with a short result of its own. -/
theorem continued_call (few : driver.registry.names.length ≤ TOOLS) {call : ToolCall} {result : Result ToolInvocation}
    {effect : NativeSideEffect} (ran : ToolRun driver.registry driver.policy context call effect trace result)
    (continued : afterInvocation request assistant state result = .Continue next after) :
    ∃ content is_error, content.length < MAX_TOOL_OUTPUT_CHARS + SAFE_RESULT_HEADROOM_CHARS ∧
      next = next_request_with_result request assistant ⟨call.id,content,is_error⟩ := by
  cases result with
  | error error => cases continued
  | ok invocation =>
    obtain ⟨own,bounded⟩ := ran.short few rfl
    cases stopped : stopFor state invocation with
    | some stop => simp [afterInvocation,stopped] at continued
    | none =>
      simp only [afterInvocation,stopped,continueWith,TurnStep.Continue.injEq] at continued
      rcases bounded with waiting | short
      · cases plan : invocation.approval <;> simp [stopFor,waiting,plan] at stopped
      · exact ⟨_,_,short,by rw [← continued.1,own]⟩

/-- A turn that goes on has a next request that can be sent. -/
theorem continued_turn_is_sendable {calls : ToolChatRequest → Nat → Trace → Result ToolChatOutcome → Prop}
    (few : driver.registry.names.length ≤ TOOLS)
    (ran : TurnRun writer driver context calls request state turn trace (.Continue next after)) :
    next.validate writer = .ok () := by
  generalize going : TurnStep.Continue next after = step at ran
  cases ran with
  | cancelled => cases going
  | invalid _ => cases going
  | failed _ => cases going
  | interrupted _ => cases going
  | rejected _ _ => cases going
  | accepted _ _ runs =>
    cases runs with
    | stopped stop => cases going
    | unsendable => cases going
    | malformed sendable =>
      cases going
      exact sendable_with sendable (by decide +kernel)
    | called sendable runs =>
      obtain ⟨content,is_error,short,rfl⟩ := continued_call few runs going.symm
      exact sendable_with sendable short

/-- The registry has no more tools than a valid request that names them all. -/
theorem few_tools (valid : request.validate writer = .ok ())
    (named : advertised_tool_names_match_registry request driver.registry = true) :
    driver.registry.names.length ≤ TOOLS := by
  unfold ToolChatRequest.validate at valid
  obtain ⟨_,valid⟩ := then_eq_ok.mp valid
  obtain ⟨_,_,valid⟩ := bind_eq_ok.mp valid
  obtain ⟨_,_,valid⟩ := bind_eq_ok.mp valid
  obtain ⟨tools,_⟩ := then_eq_ok.mp valid
  obtain ⟨bounded,_⟩ := then_eq_ok.mp tools
  have listed : driver.registry.names ⊆ request.tools.map (·.name) := by
    simp only [advertised_tool_names_match_registry,Bool.and_eq_true] at named
    intro name member
    simpa using all_eq_true.mp named.2 name member
  calc driver.registry.names.length
      ≤ (request.tools.map (·.name)).length := (driver.registry.distinct.subperm listed).length_le
    _ = request.tools.length := length_map _
    _ ≤ TOOLS := by simpa using ensure_eq_ok.mp bounded

end

/-- Where the loop of a run can be: at the top of a turn, with its request and state. -/
inductive Reaches (writer : Writer) (driver : NativeTurnDriver) (context : ToolContext) (initial : ToolChatRequest) :
    Nat → ToolChatRequest → RunState → Prop
  | start (valid : initial.validate writer = .ok ())
    (named : advertised_tool_names_match_registry initial driver.registry = true) :
    Reaches writer driver context initial 1 initial (.new (initial_tool_activity_possible initial))
  | next {turn : Nat} {request next : ToolChatRequest} {state after : RunState} {trace : Trace}
    (reached : Reaches writer driver context initial turn request state) (within : turn ≤ driver.limits.max_model_turns)
    (continued : Runs (runTurn writer driver context request state turn) trace (.Continue next after)) :
    Reaches writer driver context initial (turn + 1) next after

/-- Whatever the client, the tools, the policy and the authority do: the request with which the loop goes on, built from
    the real assistant turn and the real result of its call, can be sent. -/
theorem continued_requests_are_valid (writer : Writer) (driver : NativeTurnDriver) (context : ToolContext)
    (initial : ToolChatRequest) (turn : Nat) (request : ToolChatRequest) (state : RunState)
    (reached : Reaches writer driver context initial turn request state) : request.validate writer = .ok () := by
  have kept : request.validate writer = .ok () ∧ driver.registry.names.length ≤ TOOLS := by
    induction reached with
    | start valid named => exact ⟨valid,few_tools valid named⟩
    | next reached within continued ih =>
      have client : ∀ request turn, Ensures (driver.complete_turn_authorized request turn) fun _ _ => True :=
        fun _ _ _ _ _ => trivial
      have ran := runTurn_runs client _ _ _ _ _ continued
      exact ⟨continued_turn_is_sendable ih.2 ran,ih.2⟩
  exact kept.1

/-! ### A turn that goes on -/

def clockCall : ModelToolCall := ⟨"call-1","clock",.Object []⟩
def clockTurn : AssistantToolTurn := ⟨"",[],none,none,[clockCall]⟩
def clockRequest : ToolChatRequest :=
  ⟨"model",[.Text ⟨.User,"what time is it"⟩],[⟨"clock","the time",.Object []⟩],.Auto,⟨none,none,none,none,[]⟩⟩
def clockDriver : NativeTurnDriver where
  complete_turn_authorized := dynClient
  registry := ⟨["clock"],by simp,by decide +kernel⟩
  policy := ⟨[],[],[],.Allow⟩
  limits := ⟨8,by decide,by decide⟩
def clockContext : ToolContext := ⟨some "/work",fun _ _ => none,none,none⟩
def noon : OwnedString := ⟨"noon",by decide +kernel⟩

/-- The authority agrees, the clock tells the time and nothing is cancelled. -/
def clockWorld : World Request Answer
  | _, .IsCancelled => false
  | _, .Now => (0 : Nat)
  | _, .CompleteTurn _ _ => (.ok ⟨clockTurn,none,none,none⟩ : Result ToolChatOutcome)
  | _, .Revalidate _ => (.Finished (.ok ()) : OrCancelled (Result Unit))
  | _, .RevalidateTool _ _ => (.Finished (.ok ()) : Raced (Result Unit))
  | _, .Send _ _ _ => (.Cancelled false : OrCancelled (Except WireError Response))
  | _, .ReadBody => (.Cancelled false : OrCancelled (Result ToolChatOutcome))
  | _, .Sleep _ => (.Cancelled false : OrCancelled Unit)
  | _, .ExecuteTool _ _ _ => (.Finished (.Completed noon) : Raced ToolReturn)

/-- The result that the clock's turn goes on with. -/
def TurnStep.lastResult : TurnStep → Option (String × String × Bool)
  | .Continue request _ =>
    match request.messages.getLast? with
    | some (.ToolResult result) => some (result.tool_call_id,result.content,result.is_error)
    | _ => none
  | .Return _ => none

/-- The clock's call can be answered with any text of the probe's length. -/
theorem clock_answerable {content : String}
    (length : content.length = MAX_TOOL_OUTPUT_CHARS + SAFE_RESULT_HEADROOM_CHARS) :
    (next_request_with_result clockRequest clockTurn ⟨"call-1",content,true⟩).validate serde_json = .ok () := by
  have short : (next_request_with_result clockRequest clockTurn ⟨"call-1","",true⟩).validate serde_json = .ok () := by
    decide +kernel
  have chars : content.length = 30512 := length
  have same : (⟨"call-1",content,true⟩ : ToolResultMessage).tool_call_id =
    (⟨"call-1","",true⟩ : ToolResultMessage).tool_call_id := rfl
  refine validate_with_result same ?_ (fun _ => ?_) short
  · have bytes := (utf8ByteSize_bounds content).2
    have limit : CONTENT_BYTES = 1048576 := by rfl
    dsimp only
    omega
  · have grown := @size_with_result serde_json clockRequest clockTurn ⟨"call-1","",true⟩ ⟨"call-1",content,true⟩
    have bytes : serde_json.charsSize content ≤ 6 * content.length := charsSize_le content
    have result : serde_json.size (ToolResultMessage.to_value ⟨"call-1",content,true⟩) =
        serde_json.size (ToolResultMessage.to_value ⟨"call-1","",true⟩) + serde_json.charsSize content := by
      have empty : serde_json.charsSize "" = 0 := by decide +kernel
      simp only [ToolResultMessage.to_value,size_object,size_string,size_bool,Writer.fieldsSize,empty,length_cons]
      omega
    have request : serde_json.size (next_request_with_result clockRequest clockTurn ⟨"call-1","",
      true⟩).to_value ≤ 1000 := by
      decide +kernel
    have limit : ENVELOPE_BYTES = 8388608 := by rfl
    omega

theorem clock_probe :
    (next_request_with_result clockRequest clockTurn (worst_case_tool_result clockCall.id)).validate serde_json =
    .ok () := by
  rw [worst_case_tool_result]
  exact clock_answerable (by rw [String.length_ofList,length_replicate])

/-- In a turn with one admitted call whose probe passes, the call is executed. -/
theorem handleAssistant_of_probe {writer : Writer} {driver : NativeTurnDriver} {context : ToolContext}
    {request : ToolChatRequest} {assistant : AssistantToolTurn} {call : ModelToolCall}
    (accepts : assistant.has_refusal = false)
    (single : assistant.tool_calls = [call]) (chosen : tool_choice_allows request.tool_choice (some call) = true)
    (probe : (next_request_with_result request assistant (worst_case_tool_result call.id)).validate writer = .ok ())
    (state : RunState) (turn : Nat) :
    handleAssistant writer driver context request assistant state turn =
      executeCall writer driver context request assistant state turn call := by
  simp [handleAssistant,accepts,single,chosen,probe]

theorem clockTurn_continues : ∃ trace next after,
    Runs (runTurn serde_json clockDriver clockContext clockRequest (.new false) 1) trace (.Continue next after) := by
  let state : RunState := { RunState.new false with model_turns := 1 }
  let counted : RunState := { state with usage := add_usage_saturating state.usage none }
  let called := executeCall serde_json clockDriver clockContext clockRequest clockTurn counted 1 clockCall
  let told : ToolChatOutcome := ⟨clockTurn,none,none,none⟩
  have valid : clockRequest.validate serde_json = .ok () := by decide +kernel
  have answer : told.validate serde_json = .ok () := by decide +kernel
  have result : (called.play clockWorld []).2.lastResult = some ("call-1","noon",false) := by decide +kernel
  have executed : handleAssistant serde_json clockDriver clockContext clockRequest clockTurn counted 1 = called :=
    handleAssistant_of_probe rfl rfl rfl clock_probe counted 1
  have runs := runs_play clockWorld called []
  cases step : (called.play clockWorld []).2 with
  | Return ended => rw [step] at result; cases result
  | Continue next after =>
    rw [step,← executed] at runs
    have responded : Runs (handleResponse serde_json clockDriver clockContext clockRequest state 1 (.ok told)) _ _ :=
      runs_bind.mpr ⟨_,_,false,rfl,runs_request.mpr rfl,by simpa only [Bool.false_eq_true,↓reduceIte,answer] using runs⟩
    have sent : Runs (clockDriver.complete_turn_authorized clockRequest 1 >>=
        handleResponse serde_json clockDriver clockContext clockRequest state 1) _ _ :=
      runs_bind.mpr ⟨_,_,.ok told,rfl,runs_request.mpr rfl,responded⟩
    exact ⟨_,next,after,runs_bind.mpr ⟨_,_,false,rfl,runs_request.mpr rfl,
      by simpa only [Bool.false_eq_true,↓reduceIte,valid] using sent⟩⟩

/-- The turn of the clock is one that goes on. -/
theorem clock_request_is_valid : ∃ next after,
    Reaches serde_json clockDriver clockContext clockRequest 2 next after ∧ next.validate serde_json = .ok () := by
  obtain ⟨trace,next,after,runs⟩ := clockTurn_continues
  have start : Reaches serde_json clockDriver clockContext clockRequest 1 clockRequest (.new false) :=
    .start (by decide +kernel) (by decide +kernel)
  have reached := Reaches.next start (by decide) runs
  exact ⟨next,after,reached,continued_requests_are_valid _ _ _ _ _ _ _ reached⟩

end Vyane.Native
