import Vyane.HttpRetries
import Vyane.NativeTurns
import Vyane.Transactions

/-!
What a native run can do, piece by piece. Later results read the events off these descriptions instead of the programs.
-/
namespace Vyane.Native
open Vyane.Core Json ToolChat Interactions
open Interactions.Program

/-- A look at the clock, or at a token that is not cancelled. -/
def isLook : Event Request Answer → Bool
  | ⟨.IsCancelled,cancelled⟩ => !(cancelled : Bool)
  | ⟨.Now,_⟩ => true
  | _ => false

/-- The trace of a pure check: looks only. -/
def Looks (trace : Trace) : Prop := ∀ event ∈ trace, isLook event = true
theorem Looks.nil : Looks [] := by simp [Looks]
theorem Looks.append {first second : Trace} (looks : Looks first) (more : Looks second) : Looks (first ++ second) := by
  intro event member
  rcases List.mem_append.mp member with old | new
  · exact looks event old
  · exact more event new

/-! ### One tool call -/

theorem effective_deadline_looks (context : ToolContext) :
    Ensures context.effective_deadline fun trace _ => Looks trace := by
  unfold ToolContext.effective_deadline
  split
  · refine ensures_ask fun time => ensures_pure ?_
    simp [Looks,isLook]
  · exact ensures_pure Looks.nil

/-- The last check before a step of a call: looks, or a cancelled token. -/
inductive TerminalRun : Trace → Option (ToolInvocationStatus × String) → Prop
  | clear {looks : Trace} (quiet : Looks looks) : TerminalRun looks none
  | expired {looks : Trace} (quiet : Looks looks) : TerminalRun looks (some (.TimedOut,tool_execution_timed_out_output))
  | cancelled : TerminalRun [⟨.IsCancelled,true⟩] (some (.Cancelled,tool_execution_cancelled_output))

theorem terminal_outcome_runs (deadline : Option Nat) : Ensures (terminal_outcome deadline) TerminalRun := by
  unfold terminal_outcome
  refine ensures_ask fun (cancelled : Bool) => ?_
  cases cancelled with
  | true => exact ensures_pure .cancelled
  | false =>
    cases deadline with
    | none => exact ensures_pure (.clear (by simp [Looks,isLook]))
    | some deadline =>
      refine ensures_ask fun (time : Nat) => ?_
      have quiet : Looks [⟨.IsCancelled,false⟩,⟨.Now,time⟩] := by simp [Looks,isLook]
      by_cases late : deadline ≤ time
      all_goals simp only [late,↓reduceIte]
      · exact ensures_pure (.expired quiet)
      · exact ensures_pure (.clear quiet)

variable {writer : Writer} {registry : ToolRegistry} {policy : PermissionPolicy} {context : ToolContext}
    {call : ToolCall}

/-- A raw output that the registry writes without running a tool: a fixed text or
    one made from a valid name, the names of the registry or an error's code. -/
inductive OwnWords (registry : ToolRegistry) (call : ToolCall) : String → Prop
  | cancelled : OwnWords registry call tool_execution_cancelled_output
  | timed_out : OwnWords registry call tool_execution_timed_out_output
  | unavailable : OwnWords registry call tool_unavailable_output
  | missingPlan : OwnWords registry call missing_approval_plan_output
  | denied (known : call.name ∈ registry.names) : OwnWords registry call (denied_tool_output call.name)
  | panicked (known : call.name ∈ registry.names) : OwnWords registry call (tool_panicked_output call.name)
  | invalid (error : ToolCallValidationError) : OwnWords registry call (invalid_tool_call_output error.code)
  | unknown (valid : call.name.utf8ByteSize ≤ ToolCallLimits.NAME_BYTES) :
    OwnWords registry call (unknown_tool_output call.name registry.available)

/-- An invocation that ran no tool and saw no cancellation: it waits for an approval,
    or says why it ended in words of bounded size. -/
def Answered (registry : ToolRegistry) (call : ToolCall) (invocation : ToolInvocation) : Prop :=
  ∃ status raw approval, invocation = .new call status raw approval ∧ status ≠ .Cancelled ∧
    (status = .ApprovalRequired ∨ OwnWords registry call raw)
def cancelledInvocation (call : ToolCall) : ToolInvocation := .new call .Cancelled tool_execution_cancelled_output none

/-- The result of a race that ended a call. -/
def racedResult {α : Type} (call : ToolCall) (ended : α → Result ToolInvocation) : Raced α → Result ToolInvocation
  | .Cancelled _ => .ok (cancelledInvocation call)
  | .TimedOut _ => .ok (.new call .TimedOut tool_execution_timed_out_output none)
  | .Finished value => ended value

/-- What is left of a call once the authority has agreed: it ends in a check, or a registered tool is started. -/
inductive StartRun (registry : ToolRegistry) (call : ToolCall) (effect : NativeSideEffect) (deadline : Option Nat) :
    Trace → Result ToolInvocation → Prop
  | answered {looks : Trace} (quiet : Looks looks) {invocation : ToolInvocation}
    (own : Answered registry call invocation) :
    StartRun registry call effect deadline looks (.ok invocation)
  | cancelled : StartRun registry call effect deadline [⟨.IsCancelled,true⟩] (.ok (cancelledInvocation call))
  | started {looks : Trace} (quiet : Looks looks) (known : call.name ∈ registry.names) (execution : Raced ToolReturn) :
    StartRun registry call effect deadline (looks ++ [⟨.ExecuteTool call effect deadline,execution⟩])
      (racedResult call (returnedInvocation call) execution)

theorem execute_allowed_authorized_runs (call : ToolCall) (deadline : Option Nat) (effect : NativeSideEffect) :
    Ensures (execute_allowed_authorized registry call deadline effect) (StartRun registry call effect deadline) := by
  unfold execute_allowed_authorized
  refine ensures_bind (terminal_outcome_runs deadline) fun looks outcome checked => ?_
  cases checked with
  | cancelled => exact ensures_pure .cancelled
  | expired quiet => exact ensures_pure (.answered (by simpa using quiet) ⟨_,_,_,rfl,by simp,.inr .timed_out⟩)
  | clear quiet =>
    by_cases known : call.name ∈ registry.names
    · simp only [List.contains_eq_mem,known,decide_true,Bool.not_true,Bool.false_eq_true,↓reduceIte]
      refine ensures_ask fun execution => ?_
      cases execution <;> exact ensures_pure (.started quiet known _)
    · simp only [List.contains_eq_mem,known,decide_false,Bool.not_false,↓reduceIte]
      exact ensures_pure (.answered (by simpa using quiet) ⟨_,_,_,rfl,by simp,.inr .unavailable⟩)

/-- The part of a call before the authority is asked. -/
inductive PrepareRun (registry : ToolRegistry) (policy : PermissionPolicy) (context : ToolContext) (call : ToolCall) :
    Trace → PreparedToolOutcome → Prop
  | complete {looks : Trace} (quiet : Looks looks) {invocation : ToolInvocation}
    (own : Answered registry call invocation) :
    PrepareRun registry policy context call looks (.Complete invocation)
  | cancelled {looks : Trace} (quiet : Looks looks) :
    PrepareRun registry policy context call (looks ++ [⟨.IsCancelled,true⟩]) (.Complete (cancelledInvocation call))
  | allowed {looks : Trace} (quiet : Looks looks) {deadline : Option Nat}
    (allowed : (policy.decide call context).effect = .Allow) :
    PrepareRun registry policy context call looks (.Allowed call deadline)

theorem refuse_eq_ok {condition : Bool} {error : ToolCallValidationError} :
    refuse condition error = .ok () ↔ condition = false := by
  cases condition <;> simp [refuse]

/-- A call that passes has a name of bounded size. -/
theorem name_fits_of_valid (valid : validate_tool_call writer call = .ok ()) :
    call.name.utf8ByteSize ≤ ToolCallLimits.NAME_BYTES := by
  unfold validate_tool_call at valid
  obtain ⟨_,valid⟩ := Transactions.then_eq_ok.mp valid
  obtain ⟨_,valid⟩ := Transactions.then_eq_ok.mp valid
  obtain ⟨_,valid⟩ := Transactions.then_eq_ok.mp valid
  obtain ⟨_,valid⟩ := Transactions.then_eq_ok.mp valid
  obtain ⟨fits,_⟩ := Transactions.then_eq_ok.mp valid
  simpa [refuse_eq_ok] using fits

/-- A decision other than `Allow` ends the call with the registry's own words. -/
theorem prepareDecided_runs (known : call.name ∈ registry.names) {looks : Trace} (quiet : Looks looks)
    (deadline : Option Nat) :
    PrepareRun registry policy context call looks (prepareDecided call deadline (policy.decide call context)) := by
  unfold prepareDecided
  cases effect : (policy.decide call context).effect with
  | Allow => exact .allowed quiet effect
  | Deny => exact .complete quiet ⟨_,_,_,rfl,by simp,.inr (.denied known)⟩
  | Ask =>
    cases (policy.decide call context).approval with
    | none => exact .complete quiet ⟨_,_,_,rfl,by simp,.inr .missingPlan⟩
    | some approval => exact .complete quiet ⟨_,_,_,rfl,by simp,.inl rfl⟩

theorem prepare_invocation_runs (call : ToolCall) :
    Ensures (prepare_invocation writer registry policy context call) (PrepareRun registry policy context call) := by
  unfold prepare_invocation
  cases valid : validate_tool_call writer call with
  | error error => exact ensures_pure (.complete Looks.nil ⟨_,_,_,rfl,by simp,.inr (.invalid error)⟩)
  | ok checked =>
    by_cases known : call.name ∈ registry.names
    · simp only [List.contains_eq_mem,known,decide_true,Bool.not_true,Bool.false_eq_true,↓reduceIte]
      refine ensures_bind (effective_deadline_looks context) fun early deadline quiet => ?_
      refine ensures_bind (terminal_outcome_runs deadline) fun looks outcome checked => ?_
      cases checked with
      | cancelled => exact ensures_pure (by simpa using .cancelled quiet)
      | expired more =>
        exact ensures_pure (.complete (by simpa using quiet.append more) ⟨_,_,_,rfl,by simp,.inr .timed_out⟩)
      | clear more => exact ensures_pure (prepareDecided_runs known (by simpa using quiet.append more) deadline)
    · simp only [List.contains_eq_mem,known,decide_false,Bool.not_false,↓reduceIte]
      exact ensures_pure (.complete Looks.nil ⟨_,_,_,rfl,by simp,.inr (.unknown (name_fits_of_valid valid))⟩)

/-- The events of one authorized call and its result. -/
inductive ToolRun (registry : ToolRegistry) (policy : PermissionPolicy) (context : ToolContext) (call : ToolCall)
    (effect : NativeSideEffect) : Trace → Result ToolInvocation → Prop
  | answered {looks : Trace} (quiet : Looks looks) {invocation : ToolInvocation}
    (own : Answered registry call invocation) :
    ToolRun registry policy context call effect looks (.ok invocation)
  | cancelled {looks : Trace} (quiet : Looks looks) :
    ToolRun registry policy context call effect (looks ++ [⟨.IsCancelled,true⟩]) (.ok (cancelledInvocation call))
  | unauthorized {looks : Trace} (quiet : Looks looks) {deadline : Option Nat} (validation : Raced (Result Unit))
    (refused : validation ≠ .Finished (.ok ())) :
    ToolRun registry policy context call effect (looks ++ [⟨.RevalidateTool effect deadline,validation⟩])
      (racedResult call (fun | .error error => .error error | .ok () => .ok (cancelledInvocation call)) validation)
  | authorized {looks rest : Trace} (quiet : Looks looks) {deadline : Option Nat} {result : Result ToolInvocation}
    (allowed : (policy.decide call context).effect = .Allow)
      (runs : StartRun registry call effect deadline rest result) :
    ToolRun registry policy context call effect
      (looks ++ ⟨.RevalidateTool effect deadline,(.Finished (.ok ()) : Raced (Result Unit))⟩ :: rest) result

theorem revalidateAndExecute_runs {deadline : Option Nat} {effect : NativeSideEffect} {looks : Trace}
    (quiet : Looks looks) (allowed : (policy.decide call context).effect = .Allow) :
    Ensures (revalidateAndExecute registry call deadline effect) fun trace result =>
      ToolRun registry policy context call effect (looks ++ trace) result := by
  unfold revalidateAndExecute
  refine ensures_ask fun (validation : Raced (Result Unit)) => ?_
  match validation with
  | .Cancelled polled => exact ensures_pure (.unauthorized quiet (.Cancelled polled) (by simp))
  | .TimedOut polled => exact ensures_pure (.unauthorized quiet (.TimedOut polled) (by simp))
  | .Finished (.error error) => exact ensures_pure (.unauthorized quiet (.Finished (.error error)) (by simp))
  | .Finished (.ok ()) =>
    exact (execute_allowed_authorized_runs call deadline effect).weaken fun rest result runs =>
      .authorized quiet allowed runs

theorem execute_authorized_runs (call : ToolCall) (turn ordinal : Nat) :
    Ensures (execute_authorized writer registry policy context call turn ordinal)
      (ToolRun registry policy context call (.ToolOperation turn ordinal)) := by
  unfold execute_authorized
  refine ensures_bind (prepare_invocation_runs call) fun early prepared ran => ?_
  cases ran with
  | complete quiet own => exact ensures_pure (.answered (by simpa using quiet) own)
  | cancelled quiet => exact ensures_pure (by simpa using .cancelled quiet)
  | @allowed looks quiet deadline allowed =>
    refine ensures_bind (terminal_outcome_runs deadline) fun more outcome checked => ?_
    cases checked with
    | cancelled => exact ensures_pure (by simpa using .cancelled quiet)
    | expired more =>
      exact ensures_pure (.answered (by simpa using quiet.append more) ⟨_,_,_,rfl,by simp,.inr .timed_out⟩)
    | clear more =>
      exact (revalidateAndExecute_runs (quiet.append more) allowed).weaken fun trace result runs => by simpa using runs

/-! ### One turn -/

section
variable (writer : Writer) (driver : NativeTurnDriver) (context : ToolContext)
  {calls : ToolChatRequest → Nat → Trace → Result ToolChatOutcome → Prop}

/-- The turn after a valid response: a stop, or the one call of the response is answered. -/
inductive AssistantRun (request : ToolChatRequest) (assistant : AssistantToolTurn) (state : RunState) (turn : Nat) :
    Trace → TurnStep → Prop
  | stopped (stop : NativeTurnStop) : AssistantRun request assistant state turn [] (.Return (.ok (state.finish stop)))
  | unsendable : AssistantRun request assistant state turn [] (.Return state.invalid_model_response)
  | malformed {model_call : ModelToolCall}
    (sendable : (next_request_with_result request assistant (worst_case_tool_result model_call.id)).validate writer =
      .ok ()) :
    AssistantRun request assistant state turn []
      (continueWith request assistant state ⟨model_call.id,invalid_json_tool_arguments_output,true⟩)
  | called {call : ToolCall} {trace : Trace} {result : Result ToolInvocation}
    (sendable : (next_request_with_result request assistant (worst_case_tool_result call.id)).validate writer = .ok ())
    (runs : ToolRun driver.registry driver.policy context call (.ToolOperation turn 1) trace result) :
    AssistantRun request assistant state turn trace
      (afterInvocation request assistant (state.entering (driver.known_allowed context call)) result)

/-- A state that has counted a turn, and then the usage of its response. -/
def RunState.counted (state : RunState) (turn : Nat) : RunState := { state with model_turns := turn }
def RunState.charged (state : RunState) (usage : Option Usage) : RunState :=
  { state with usage := add_usage_saturating state.usage usage }
@[simp] theorem counted_flag (state : RunState) (turn : Nat) :
    (state.counted turn).tool_side_effects_possible = state.tool_side_effects_possible := rfl
@[simp] theorem charged_flag (state : RunState) (usage : Option Usage) :
    (state.charged usage).tool_side_effects_possible = state.tool_side_effects_possible := rfl

/-- One turn over a client whose calls run as `calls` says. -/
inductive TurnRun (calls : ToolChatRequest → Nat → Trace → Result ToolChatOutcome → Prop) (request : ToolChatRequest)
    (state : RunState) (turn : Nat) : Trace → TurnStep → Prop
  | cancelled : TurnRun calls request state turn [⟨.IsCancelled,true⟩] (.Return (.ok (state.finish .Cancelled)))
  | invalid : request.validate writer ≠ .ok () →
    TurnRun calls request state turn [⟨.IsCancelled,false⟩] (.Return state.invalid_request_boundary)
  | failed {called : Trace} {error : VyaneError} : calls request turn called (.error error) →
    TurnRun calls request state turn (⟨.IsCancelled,false⟩ :: called) (.Return ((state.counted turn).model_error error))
  | interrupted {called : Trace} {response : ToolChatOutcome} : calls request turn called (.ok response) →
    TurnRun calls request state turn (⟨.IsCancelled,false⟩ :: called ++ [⟨.IsCancelled,true⟩])
      (.Return (.ok ((state.counted turn).finish .Cancelled)))
  | rejected {called : Trace} {response : ToolChatOutcome} : calls request turn called (.ok response) →
    response.validate writer ≠ .ok () →
    TurnRun calls request state turn (⟨.IsCancelled,false⟩ :: called ++ [⟨.IsCancelled,false⟩])
      (.Return (state.counted turn).invalid_model_response)
  | accepted {called rest : Trace} {response : ToolChatOutcome} {step : TurnStep} : calls request turn called
      (.ok response) →
    response.validate writer = .ok () →
    AssistantRun writer driver context request response.assistant
      ((state.counted turn).charged response.usage) turn rest step →
    TurnRun calls request state turn (⟨.IsCancelled,false⟩ :: called ++ ⟨.IsCancelled,false⟩ :: rest) step

variable {writer driver context}

theorem executeCall_runs {request : ToolChatRequest} {assistant : AssistantToolTurn} {state : RunState} {turn : Nat}
    {model_call : ModelToolCall}
    (sendable : (next_request_with_result request assistant (worst_case_tool_result model_call.id)).validate writer =
      .ok ()) :
    Ensures (executeCall writer driver context request assistant state turn model_call)
      (AssistantRun writer driver context request assistant state turn) := by
  unfold executeCall
  cases model_call.arguments with
  | InvalidJson raw => exact ensures_pure (.malformed sendable)
  | Object arguments =>
    refine ensures_bind (execute_authorized_runs _ turn 1) fun trace result runs => ensures_pure ?_
    rw [List.append_nil]
    exact .called sendable runs

theorem handleAssistant_runs (request : ToolChatRequest) (assistant : AssistantToolTurn) (state : RunState)
    (turn : Nat) :
    Ensures (handleAssistant writer driver context request assistant state turn)
      (AssistantRun writer driver context request assistant state turn) := by
  unfold handleAssistant
  split_ifs
  · exact ensures_pure (.stopped _)
  · exact ensures_pure (.stopped _)
  · exact ensures_pure (.stopped _)
  · cases assistant.tool_calls.head? with
    | none => exact ensures_pure (.stopped _)
    | some model_call =>
      cases sendable : (next_request_with_result request assistant
        (worst_case_tool_result model_call.id)).validate writer with
      | error error => simp only [sendable]; exact ensures_pure .unsendable
      | ok checked => simp only [sendable]; exact executeCall_runs sendable

/-- The turns of a run have only these shapes. -/
theorem runTurn_runs
    (client : ∀ request turn, Ensures (driver.complete_turn_authorized request turn) (calls request turn))
    (request : ToolChatRequest) (state : RunState) (turn : Nat) :
    Ensures (runTurn writer driver context request state turn)
      (TurnRun writer driver context calls request state turn) := by
  unfold runTurn
  refine ensures_ask fun (cancelled : Bool) => ?_
  cases cancelled with
  | true => exact ensures_pure .cancelled
  | false =>
    simp only [Bool.false_eq_true,↓reduceIte]
    cases valid : request.validate writer with
    | error error => exact ensures_pure (.invalid (by simp [valid]))
    | ok checked =>
      refine ensures_bind (client request turn) fun called response ran => ?_
      cases response with
      | error error => exact ensures_pure (by simpa using .failed ran)
      | ok response =>
        refine ensures_ask fun (cancelled : Bool) => ?_
        cases cancelled with
        | true => exact ensures_pure (.interrupted ran)
        | false =>
          simp only [Bool.false_eq_true,↓reduceIte]
          cases usable : response.validate writer with
          | error error => exact ensures_pure (.rejected ran (by simp [usable]))
          | ok checked =>
            exact (handleAssistant_runs request response.assistant _ turn).weaken fun rest step runs =>
              .accepted ran usable runs

/-- What holds of an exhausted loop, of a turn that returns, and of a turn before a run
    of which it holds, holds of every run of the loop. -/
theorem runTurns_runs
    (client : ∀ request turn, Ensures (driver.complete_turn_authorized request turn) (calls request turn))
    {post : Nat → Nat → ToolChatRequest → RunState → Trace → Result NativeTurnOutcome → Prop}
    (exhausted : ∀ turn request state, post 0 turn request state [] (.ok (state.finish .BudgetExhausted)))
    (returned : ∀ left turn request state trace result,
      TurnRun writer driver context calls request state turn trace (.Return result) →
      post (left + 1) turn request state trace result)
    (continued : ∀ left turn request state trace next after rest result,
      TurnRun writer driver context calls request state turn trace (.Continue next after) →
      post left (turn + 1) next after rest result → post (left + 1) turn request state (trace ++ rest) result)
    (left : Nat) : ∀ turn request state,
      Ensures (runTurns writer driver context left turn request state) (post left turn request state) := by
  induction left with
  | zero => intro turn request state; exact ensures_pure (exhausted turn request state)
  | succ left ih =>
    intro turn request state
    refine ensures_bind (runTurn_runs client request state turn) fun trace step ran => ?_
    cases step with
    | Return result => exact ensures_pure (by simpa using returned left turn request state trace result ran)
    | Continue next after =>
      exact (ih (turn + 1) next after).weaken fun rest result later =>
        continued left turn request state trace next after rest result ran later

end
end Vyane.Native
