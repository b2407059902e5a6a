import Vyane.NativeRuns

/-!
What a native run never does, whatever the model, the tools, the authority and the clock do. The client is any client:
its turn is one request.
-/
namespace Vyane.Native
open Vyane.Core Json ToolChat Interactions List
open Interactions.Program

/-- A turn of any client is one request. -/
def DynCall (request : ToolChatRequest) (turn : Nat) (trace : Trace) (response : Result ToolChatOutcome) : Prop :=
  trace = [⟨.CompleteTurn request turn,response⟩]
theorem dynClient_runs (request : ToolChatRequest) (turn : Nat) :
    Ensures (dynClient request turn) (DynCall request turn) := ensures_request fun _ => rfl

/-! ### Events of interest -/

/-- The call whose tool is polled here. -/
def startedCall : Event Request Answer → Option ToolCall
  | ⟨.ExecuteTool call _ _,execution⟩ => if (execution : Raced ToolReturn).polled then some call else none
  | _ => none
def isModelCall : Event Request Answer → Bool
  | ⟨.CompleteTurn _ _,_⟩ => true
  | _ => false
/-- The response that a client returned here. -/
def responseOf : Event Request Answer → Option ToolChatOutcome
  | ⟨.CompleteTurn _ _,response⟩ => (response : Result ToolChatOutcome).toOption
  | _ => none
/-- A look at a token that is not cancelled. -/
def goesOn : Event Request Answer → Bool
  | ⟨.IsCancelled,cancelled⟩ => !(cancelled : Bool)
  | _ => false

/-- A response that the run goes on with, if it passes its validation. -/
def validated_at (writer : Writer) (called : Event Request Answer) (rest : Trace) : List ToolChatOutcome :=
  match responseOf called with
  | none => []
  | some response =>
    if rest.head?.any goesOn && (response.validate writer).toBool then [response] else []
/-- The responses of a trace that were validated, in order. -/
def validatedResponses (writer : Writer) : Trace → List ToolChatOutcome
  | [] => []
  | called :: rest => validated_at writer called rest ++ validatedResponses writer rest
/-- A check of the registry: a look at the token or the clock, or a word of the authority. -/
def isCheck : Event Request Answer → Bool
  | ⟨.IsCancelled,_⟩ | ⟨.Now,_⟩ | ⟨.RevalidateTool _ _,_⟩ => true
  | _ => false
/-- A trace of checks only. -/
def Checks (trace : Trace) : Prop := ∀ event ∈ trace, isCheck event = true
@[simp] theorem checks_nil : Checks [] := by simp [Checks]
variable {trace : Trace} {event : Event Request Answer}

@[simp] theorem checks_cons :
    Checks (event :: trace) ↔ isCheck event = true ∧ Checks trace := forall_mem_cons
@[simp] theorem checks_append {first second : Trace} : Checks (first ++ second) ↔ Checks first ∧ Checks second :=
  forall_mem_append

theorem Looks.checks (looks : Looks trace) : Checks trace := by
  intro event member
  have look := looks event member
  obtain ⟨request,answer⟩ := event
  cases request <;> simp_all [isLook,isCheck]

theorem check_is_quiet (check : isCheck event = true) :
    startedCall event = none ∧ isModelCall event = false ∧ responseOf event = none := by
  obtain ⟨request,answer⟩ := event
  cases request <;> simp_all [isCheck,startedCall,isModelCall,responseOf]

/-! ### One tool call -/

section
variable {registry : ToolRegistry} {policy : PermissionPolicy} {context : ToolContext} {call : ToolCall}
  {effect : NativeSideEffect} {trace : Trace} {result : Result ToolInvocation} {event : Event Request Answer}

/-- The trace of a call: checks, and then at most one tool, registered and permitted. -/
inductive ChecksThenTool (registry : ToolRegistry) (policy : PermissionPolicy) (context : ToolContext)
    (call : ToolCall) :
    Trace → Prop
  | unstarted {checks : Trace} (quiet : Checks checks) : ChecksThenTool registry policy context call checks
  | started {checks : Trace} (quiet : Checks checks) (effect : NativeSideEffect) (deadline : Option Nat)
    (execution : Raced ToolReturn) (known : call.name ∈ registry.names)
    (allowed : (policy.decide call context).effect = .Allow) :
    ChecksThenTool registry policy context call (checks ++ [⟨.ExecuteTool call effect deadline,execution⟩])

theorem ToolRun.checks_then_tool (ran : ToolRun registry policy context call effect trace result) :
    ChecksThenTool registry policy context call trace := by
  cases ran with
  | answered quiet => exact .unstarted quiet.checks
  | cancelled quiet => exact .unstarted (by simp [quiet.checks,isCheck])
  | unauthorized quiet validation => exact .unstarted (by simp [quiet.checks,isCheck])
  | @authorized looks rest quiet deadline _ allowed runs =>
    cases runs with
    | answered more => exact .unstarted (by simp [quiet.checks,more.checks,isCheck])
    | cancelled => exact .unstarted (by simp [quiet.checks,isCheck])
    | @started more silent known execution =>
      have checks : Checks
        (looks ++ ⟨.RevalidateTool effect deadline,(.Finished (.ok ()) : Raced (Result Unit))⟩ :: more) := by
        simp [quiet.checks,silent.checks,isCheck]
      have whole := ChecksThenTool.started checks effect deadline execution known allowed
      rwa [append_assoc,cons_append] at whole

/-- A tool that a call starts is the call's own, registered and permitted. -/
theorem ChecksThenTool.only_its_tool (ran : ChecksThenTool registry policy context call trace)
    (member : event ∈ trace) {started : ToolCall} (polled : startedCall event = some started) :
    started = call ∧ call.name ∈ registry.names ∧ (policy.decide call context).effect = .Allow := by
  cases ran with
  | unstarted quiet => simp [(check_is_quiet (quiet event member)).1] at polled
  | started quiet effect deadline execution known allowed =>
    rcases mem_append.mp member with old | new
    · simp [(check_is_quiet (quiet event old)).1] at polled
    · rw [mem_singleton.mp new] at polled
      refine ⟨?_,known,allowed⟩
      simp only [startedCall] at polled
      split at polled
      · cases polled; rfl
      · cases polled

theorem ChecksThenTool.no_model_call (ran : ChecksThenTool registry policy context call trace)
    (member : event ∈ trace) : isModelCall event = false ∧ responseOf event = none := by
  cases ran with
  | unstarted quiet => exact (check_is_quiet (quiet event member)).2
  | started quiet effect deadline execution known allowed =>
    rcases mem_append.mp member with old | new
    · exact (check_is_quiet (quiet event old)).2
    · rw [mem_singleton.mp new]
      exact ⟨rfl,rfl⟩

end

/-! ### One tool for a model call -/

/-- A model call permits one tool start. -/
def permits (event : Event Request Answer) : Option Unit := if isModelCall event then some () else none
def starts (event : Event Request Answer) : Option Unit := (startedCall event).map fun _ => ()

theorem check_keeps_permit (checks : Checks trace) (granted : Option Unit) :
    (Monitor.pairing permits starts).read granted trace = some granted := by
  refine Monitor.read_unused (fun event member => ?_) (fun event member => ?_) granted
  · simp [starts,(check_is_quiet (checks event member)).1]
  · simp [permits,(check_is_quiet (checks event member)).2.1]

section
variable {writer : Writer} {driver : NativeTurnDriver} {context : ToolContext} {call : ToolCall}
  {request : ToolChatRequest} {assistant : AssistantToolTurn} {state : RunState} {turn : Nat} {trace : Trace}
    {step : TurnStep}
  {next : ToolChatRequest} {result : Result NativeTurnOutcome}

theorem ChecksThenTool.permitted (ran : ChecksThenTool driver.registry driver.policy context call trace) :
    ∃ next, (Monitor.pairing permits starts).read (some ()) trace = some next := by
  cases ran with
  | unstarted quiet => exact ⟨_,check_keeps_permit quiet _⟩
  | started quiet effect deadline execution known allowed =>
    rw [Monitor.read_append,check_keeps_permit quiet]
    simp only [Option.bind_some,Monitor.read_cons,Monitor.pairing,starts,startedCall,permits,isModelCall]
    cases execution.polled <;> simp [Monitor.read]

theorem assistant_permitted (ran : AssistantRun writer driver context request assistant state turn trace step) :
    ∃ next, (Monitor.pairing permits starts).read (some ()) trace = some next := by
  cases ran with
  | stopped stop => exact ⟨_,rfl⟩
  | unsendable => exact ⟨_,rfl⟩
  | malformed sendable => exact ⟨_,rfl⟩
  | called sendable runs => exact runs.checks_then_tool.permitted

/-- From any permits, a turn is within its own. -/
theorem turn_permitted (ran : TurnRun writer driver context DynCall request state turn trace step)
    (granted : Option Unit) :
    ∃ next, (Monitor.pairing permits starts).read granted trace = some next := by
  cases ran with
  | cancelled => exact ⟨_,rfl⟩
  | invalid _ => exact ⟨_,rfl⟩
  | failed called => cases called; exact ⟨_,rfl⟩
  | interrupted called => cases called; exact ⟨_,rfl⟩
  | rejected called _ => cases called; exact ⟨_,rfl⟩
  | accepted called _ runs =>
    cases called
    obtain ⟨next,reads⟩ := assistant_permitted runs
    exact ⟨next,reads⟩

/-! ### The side-effect flag -/

/-- A step that ends with a report, or goes on, knowing that tools may have acted. -/
def Flagged : TurnStep → Prop
  | .Return result => ∃ outcome, result = .ok outcome ∧ outcome.tool_side_effects_possible = true
  | .Continue _ state => state.tool_side_effects_possible = true

section
variable (flag : state.tool_side_effects_possible = true)
include flag
theorem flagged_abort (error : VyaneError) :
    Flagged (.Return (state.abort error)) := by
  refine ⟨state.finish (.AbortedAfterToolActivity error.kind),?_,flag⟩
  simp [RunState.abort,flag]

theorem flagged_model_error (error : VyaneError) :
    Flagged (.Return (state.model_error error)) := by
  refine ⟨state.finish (.AbortedAfterToolActivity error.kind),?_,flag⟩
  simp [RunState.model_error,flag]

theorem flagged_stopFor {invocation : ToolInvocation}
    {stop : Result NativeTurnOutcome} (stopped : stopFor state invocation = some stop) : Flagged (.Return stop) := by
  unfold stopFor at stopped
  split at stopped
  · split at stopped
    · cases stopped
      exact flagged_abort flag _
    · cases stopped
      exact ⟨_,rfl,flag⟩
  · cases stopped
    exact ⟨_,rfl,flag⟩
  · cases stopped
    exact ⟨_,rfl,flag⟩
  all_goals cases stopped

theorem flagged_afterInvocation (result : Result ToolInvocation) :
    Flagged (afterInvocation request assistant state result) := by
  cases result with
  | error error => exact flagged_abort flag error
  | ok invocation =>
    cases stopped : stopFor state invocation with
    | some stop =>
      simp only [afterInvocation,stopped]
      exact flagged_stopFor flag stopped
    | none =>
      simp only [afterInvocation,stopped]
      exact flag

end

theorem entering_flag {known_allowed : Bool}
    (possible : state.tool_side_effects_possible = true ∨ known_allowed = true) :
    (state.entering known_allowed).tool_side_effects_possible = true := by
  simpa [RunState.entering] using possible

section
variable (ran : TurnRun writer driver context DynCall request state turn trace step)
include ran
/-- A turn keeps the flag up, and puts it up before it starts a tool. -/
theorem turn_flagged
    (possible : state.tool_side_effects_possible = true ∨ ∃ event ∈ trace, (startedCall event).isSome = true) :
    Flagged step := by
  cases ran with
  | cancelled =>
    have flag : state.tool_side_effects_possible = true := by simpa [startedCall] using possible
    exact ⟨_,rfl,flag⟩
  | invalid _ =>
    have flag : state.tool_side_effects_possible = true := by simpa [startedCall] using possible
    exact flagged_abort flag _
  | failed called =>
    cases called
    have flag : (state.counted turn).tool_side_effects_possible = true := by simpa [startedCall] using possible
    exact flagged_model_error flag _
  | interrupted called =>
    cases called
    have flag : state.tool_side_effects_possible = true := by simpa [startedCall] using possible
    exact ⟨_,rfl,flag⟩
  | rejected called _ =>
    cases called
    have flag : (state.counted turn).tool_side_effects_possible = true := by simpa [startedCall] using possible
    exact flagged_abort flag _
  | @accepted called rest response _ ran _ runs =>
    cases ran
    have possible : state.tool_side_effects_possible = true ∨ ∃ event ∈ rest, (startedCall event).isSome = true := by
      simpa [startedCall] using possible
    cases runs with
    | stopped stop =>
      have flag : state.tool_side_effects_possible = true := by simpa using possible
      exact ⟨_,rfl,flag⟩
    | unsendable =>
      have flag : ((state.counted turn).charged response.usage).tool_side_effects_possible = true := by
        simpa using possible
      exact flagged_abort flag _
    | malformed sendable =>
      have flag : state.tool_side_effects_possible = true := by simpa using possible
      exact flag
    | called sendable runs =>
      refine flagged_afterInvocation (entering_flag ?_) _
      rcases possible with flag | ⟨event,member,polled⟩
      · exact .inl flag
      · obtain ⟨started,polled⟩ := Option.isSome_iff_exists.mp polled
        obtain ⟨rfl,known,allowed⟩ := runs.checks_then_tool.only_its_tool member polled
        right
        simp [NativeTurnDriver.known_allowed,known,allowed]

/-- Whatever tool a turn starts is registered, and its call is permitted. -/
theorem turn_starts_allowed
    (member : event ∈ trace) {started : ToolCall} (polled : startedCall event = some started) :
    started.name ∈ driver.registry.names ∧ (driver.policy.decide started context).effect = .Allow := by
  have own {rest : Trace} {assistant : AssistantToolTurn} {state : RunState}
      (runs : AssistantRun writer driver context request assistant state turn rest step) (member : event ∈ rest) :
      started.name ∈ driver.registry.names ∧ (driver.policy.decide started context).effect = .Allow := by
    cases runs with
    | stopped stop => cases member
    | unsendable => cases member
    | malformed sendable => cases member
    | called sendable runs =>
      obtain ⟨rfl,allowed⟩ := runs.checks_then_tool.only_its_tool member polled
      exact allowed
  cases ran with
  | cancelled => rw [mem_singleton.mp member] at polled; cases polled
  | invalid _ => rw [mem_singleton.mp member] at polled; cases polled
  | failed called => cases called; simp at member; rcases member with rfl | rfl <;> cases polled
  | interrupted called => cases called; simp at member; rcases member with rfl | rfl | rfl <;> cases polled
  | rejected called _ => cases called; simp at member; rcases member with rfl | rfl | rfl <;> cases polled
  | accepted called _ runs =>
    cases called
    simp at member
    rcases member with rfl | rfl | rfl | member
    · cases polled
    · cases polled
    · cases polled
    · exact own runs member

end

/-! ### Usage -/

/-- A total with the usage of these responses added one after the other. -/
def charge (usage : Option Usage) (responses : List ToolChatOutcome) : Option Usage :=
  responses.foldl (fun total response => add_usage_saturating total response.usage) usage

/-- The sum of the reports among these responses. -/
def reportedUsage (responses : List ToolChatOutcome) : Option Usage :=
  match responses.filterMap (·.usage) with
  | [] => none
  | reports => some (Usage.sum reports)

theorem add_usage_to_sum (reports : List Usage) (next : Option Usage) :
    add_usage_saturating (match reports with | [] => none | reports => some (Usage.sum reports)) next =
      match reports ++ next.toList with | [] => none | reports => some (Usage.sum reports) := by
  cases next with
  | none => simp [add_usage_saturating]
  | some next =>
    cases reports with
    | nil => exact congrArg some (Usage.sum_append [] next).symm
    | cons first rest => exact congrArg some (Usage.sum_append (first :: rest) next).symm

/-- Charging a run's responses from nothing gives the sum of their reports. -/
theorem charge_eq_sum (responses : List ToolChatOutcome) : charge none responses = reportedUsage responses := by
  induction responses using reverseRecOn with
  | nil => rfl
  | append_singleton responses last ih =>
    rw [charge,foldl_append,foldl_cons,foldl_nil]
    change add_usage_saturating (charge none responses) last.usage = _
    have single : [last].filterMap (·.usage) = last.usage.toList := by cases known : last.usage <;> simp [known]
    rw [ih,reportedUsage,add_usage_to_sum,reportedUsage,filterMap_append,single]

/-- A step whose report, or the state it goes on with, has this usage. -/
def Reports (usage : Option Usage) : TurnStep → Prop
  | .Return result => ∀ outcome, result = .ok outcome → outcome.usage = usage
  | .Continue _ state => state.usage = usage
theorem reports_finish (stop : NativeTurnStop) : Reports state.usage (.Return (.ok (state.finish stop))) := by
  rintro outcome ⟨⟩
  rfl

theorem reports_abort (error : VyaneError) : Reports state.usage (.Return (state.abort error)) := by
  intro outcome reported
  unfold RunState.abort at reported
  split at reported
  · cases reported; rfl
  · cases reported

theorem reports_model_error (error : VyaneError) : Reports state.usage (.Return (state.model_error error)) := by
  intro outcome reported
  unfold RunState.model_error at reported
  split at reported
  · cases reported; rfl
  · split at reported
    · cases reported; rfl
    · cases reported

theorem reports_afterInvocation (result : Result ToolInvocation) :
    Reports state.usage (afterInvocation request assistant state result) := by
  cases result with
  | error error => exact reports_abort error
  | ok invocation =>
    cases stopped : stopFor state invocation with
    | none =>
      simp only [afterInvocation,stopped]
      exact rfl
    | some stop =>
      simp only [afterInvocation,stopped]
      unfold stopFor at stopped
      split at stopped
      · split at stopped
        · cases stopped
          exact reports_abort _
        · cases stopped
          exact reports_finish _
      · cases stopped
        exact reports_finish _
      · cases stopped
        exact reports_finish _
      all_goals cases stopped

theorem reports_assistant (ran : AssistantRun writer driver context request assistant state turn trace step) :
    Reports state.usage step := by
  cases ran with
  | stopped stop => exact reports_finish stop
  | unsendable => exact reports_abort _
  | malformed sendable => exact rfl
  | called sendable runs => exact (reports_afterInvocation _ : Reports (state.entering _).usage _)

/-- Events that carry no response add no validated one. -/
theorem validated_append {first : Trace} (silent : ∀ event ∈ first, responseOf event = none) (second : Trace) :
    validatedResponses writer (first ++ second) = validatedResponses writer second := by
  induction first with
  | nil => rfl
  | cons event rest ih =>
    have none := silent event mem_cons_self
    simp only [cons_append,validatedResponses,validated_at,none,nil_append]
    exact ih fun other member => silent other (mem_cons_of_mem _ member)

theorem assistant_silent (ran : AssistantRun writer driver context request assistant state turn trace step) :
    ∀ event ∈ trace, isModelCall event = false ∧ responseOf event = none := by
  cases ran with
  | stopped stop => simp
  | unsendable => simp
  | malformed sendable => simp
  | called sendable runs => exact fun event member => runs.checks_then_tool.no_model_call member

/-- The validated response of a turn that got one. -/
theorem validated_turn {response : ToolChatOutcome} (usable : response.validate writer = .ok ())
    (ran : AssistantRun writer driver context request response.assistant state turn trace step) (rest : Trace) :
    validatedResponses writer ((⟨.IsCancelled,false⟩ :: [⟨.CompleteTurn request turn,.ok response⟩] ++
      ⟨.IsCancelled,false⟩ :: trace) ++ rest) = response :: validatedResponses writer rest := by
  have first : validatedResponses writer (trace ++ rest) = validatedResponses writer rest :=
    validated_append (fun event member => (assistant_silent ran event member).2) rest
  simp only [cons_append,nil_append,validatedResponses,validated_at,responseOf,goesOn,Except.toOption,
    Except.toBool,usable,head?_cons,Option.any_some,Bool.not_false,Bool.and_self,↓reduceIte,first]

/-- A turn reports the usage of its validated response on top of what it found. -/
theorem turn_reports (ran : TurnRun writer driver context DynCall request state turn trace step) :
    Reports (charge state.usage (validatedResponses writer trace)) step := by
  cases ran with
  | cancelled => exact reports_finish _
  | invalid _ => exact reports_abort _
  | failed called => cases called; exact reports_model_error _
  | interrupted called =>
    cases called
    simp [validatedResponses,validated_at,responseOf,goesOn,Except.toOption]
    exact (reports_finish _ : Reports (state.counted turn).usage _)
  | @rejected _ response called broken =>
    cases called
    have refused : (response.validate writer).toBool = false := by
      cases checked : response.validate writer with
      | error error => rfl
      | ok _ => exact absurd checked broken
    simp [validatedResponses,validated_at,responseOf,goesOn,Except.toOption,refused]
    exact (reports_abort _ : Reports (state.counted turn).usage _)
  | accepted called usable runs =>
    cases called
    have only := validated_turn usable runs []
    rw [append_nil] at only
    rw [only]
    exact reports_assistant runs

theorem turn_validated {after : RunState} {rest : Trace}
    (ran : TurnRun writer driver context DynCall request state turn trace (.Continue next after)) :
    validatedResponses writer (trace ++ rest) = validatedResponses writer trace ++ validatedResponses writer rest := by
  cases ran with
  | accepted called usable runs =>
    cases called
    have only := validated_turn usable runs []
    rw [append_nil] at only
    rw [validated_turn usable runs rest,only]
    rfl

/-- A turn makes at most one model call. -/
theorem turn_model_calls (ran : TurnRun writer driver context DynCall request state turn trace step) :
    (trace.filter isModelCall).length ≤ 1 := by
  cases ran with
  | cancelled => exact Nat.zero_le 1
  | invalid _ => exact Nat.zero_le 1
  | failed called => cases called; exact Nat.le_refl 1
  | interrupted called => cases called; exact Nat.le_refl 1
  | rejected called _ => cases called; exact Nat.le_refl 1
  | @accepted _ rest _ _ called _ runs =>
    cases called
    have none : rest.filter isModelCall = [] := by
      rw [filter_eq_nil_iff]
      intro event member
      simp [(assistant_silent runs event member).1]
    change (rest.filter isModelCall).length + 1 ≤ 1
    simp [none]

/-! ### Whole runs -/

/-- What every run from a state keeps to. -/
structure Contained (writer : Writer) (driver : NativeTurnDriver) (context : ToolContext) (left : Nat)
    (state : RunState)
    (trace : Trace) (result : Result NativeTurnOutcome) : Prop where
  flagged : (state.tool_side_effects_possible = true ∨ ∃ event ∈ trace, (startedCall event).isSome = true) →
    Flagged (.Return result)
  allowed : ∀ event ∈ trace, ∀ call, startedCall event = some call →
    call.name ∈ driver.registry.names ∧ (driver.policy.decide call context).effect = .Allow
  bounded : (trace.filter isModelCall).length ≤ left
  permitted : ∀ granted, ∃ next, (Monitor.pairing permits starts).read granted trace = some next
  reported : Reports (charge state.usage (validatedResponses writer trace)) (.Return result)

theorem contained_return {left : Nat}
    (ran : TurnRun writer driver context DynCall request state turn trace (.Return result)) :
    Contained writer driver context (left + 1) state trace result where
  flagged := turn_flagged ran
  allowed _ member _ polled := turn_starts_allowed ran member polled
  bounded := (turn_model_calls ran).trans (by omega)
  permitted := turn_permitted ran
  reported := turn_reports ran

theorem contained_continue {left : Nat} {after : RunState} {rest : Trace}
    (ran : TurnRun writer driver context DynCall request state turn trace (.Continue next after))
    (later : Contained writer driver context left after rest result) :
    Contained writer driver context (left + 1) state (trace ++ rest) result where
  flagged := by
    intro possible
    apply later.flagged
    rcases possible with flag | ⟨event,member,polled⟩
    · exact .inl (turn_flagged ran (.inl flag))
    · rcases mem_append.mp member with old | new
      · exact .inl (turn_flagged ran (.inr ⟨event,old,polled⟩))
      · exact .inr ⟨event,new,polled⟩
  allowed := by
    intro event member call polled
    rcases mem_append.mp member with old | new
    · exact turn_starts_allowed ran old polled
    · exact later.allowed event new call polled
  bounded := by
    have here := turn_model_calls ran
    have there := later.bounded
    rw [filter_append,length_append]
    omega
  permitted := by
    intro granted
    obtain ⟨kept,reads⟩ := turn_permitted ran granted
    obtain ⟨last,ends⟩ := later.permitted kept
    exact ⟨last,by rw [Monitor.read_append,reads]; exact ends⟩
  reported := by
    have here : after.usage = _ := turn_reports ran
    have there := later.reported
    rw [here] at there
    rw [turn_validated ran,charge,foldl_append]
    exact there

theorem runTurns_contained (client : driver.complete_turn_authorized = dynClient) (left turn : Nat)
    (request : ToolChatRequest) (state : RunState) :
    Ensures (runTurns writer driver context left turn request state) (Contained writer driver context left state) := by
  refine @runTurns_runs writer driver context DynCall (fun request turn => client ▸ dynClient_runs request turn)
    (fun left _ _ state => Contained writer driver context left state) ?_ ?_ ?_ left turn request state
  · intro turn request state
    exact ⟨fun possible => ⟨_,rfl,by simpa [RunState.finish] using possible⟩,
      by simp,by simp,fun granted => ⟨granted,rfl⟩,reports_finish _⟩
  · intro left turn request state trace result ran
    exact contained_return ran
  · intro left turn request state trace next after rest result ran later
    exact contained_continue ran later

end

/-- However it is cancelled, a run that started a tool ends with a report that says so; it starts only registered tools
    whose calls the policy allows; it makes at most the model calls of its limit and starts at most one tool after each;
    and it reports the saturating sum of the usages of the responses that it validated. -/
theorem native_run_contains_its_tools (writer : Writer) (registry : ToolRegistry) (policy : PermissionPolicy)
    (limits : NativeTurnLimits) (context : ToolContext) (request : ToolChatRequest) (world : World Request Answer) :
    let driver : NativeTurnDriver := ⟨dynClient,registry,policy,limits⟩
    let (trace,result) := (driver.run writer context request).play world []
    ((∃ event ∈ trace, (startedCall event).isSome = true) →
      ∃ outcome, result = .ok outcome ∧ outcome.tool_side_effects_possible = true) ∧
    (∀ event ∈ trace, ∀ call, startedCall event = some call →
      call.name ∈ registry.names ∧ (policy.decide call context).effect = .Allow) ∧
    (trace.filter isModelCall).length ≤ limits.max_model_turns ∧
    (∀ before event after, trace = before ++ event :: after → (startedCall event).isSome = true →
      ∃ earlier called between, before = earlier ++ called :: between ∧ isModelCall called = true ∧
        ∀ other ∈ between, startedCall other = none) ∧
    (∀ outcome, result = .ok outcome → outcome.usage = reportedUsage (validatedResponses writer trace)) := by
  intro driver
  have contained : Ensures (driver.run writer context request) fun trace result =>
      Contained writer driver context limits.max_model_turns
        (.new (initial_tool_activity_possible request)) trace result ∨
        trace = [] ∧ ∃ error, result = .error error := by
    unfold NativeTurnDriver.run
    cases request.validate writer with
    | error error => exact ensures_pure (.inr ⟨rfl,_,rfl⟩)
    | ok checked =>
      by_cases unknown : (!advertised_tool_names_match_registry request driver.registry) = true
      · simp only [unknown,↓reduceIte]
        exact ensures_pure (.inr ⟨rfl,_,rfl⟩)
      · simp only [unknown,Bool.false_eq_true,↓reduceIte]
        exact (runTurns_contained (show driver.complete_turn_authorized = dynClient from rfl) _ 1 request _).weaken
          fun trace result kept => Or.inl kept
  have kept := contained.play world []
  generalize (driver.run writer context request).play world [] = run at kept
  obtain ⟨trace,result⟩ := run
  rcases kept with kept | ⟨rfl,error,rfl⟩
  · refine ⟨fun started => kept.flagged (.inr started),kept.allowed,kept.bounded,?_,?_⟩
    · rintro before event after rfl polled
      obtain ⟨last,accepted⟩ := kept.permitted none
      have used : starts event = some () := by
        obtain ⟨call,known⟩ := Option.isSome_iff_exists.mp polled
        simp [starts,known]
      obtain ⟨earlier,called,between,rfl,granted,unused⟩ := Monitor.granted_before_use accepted used
      refine ⟨earlier,called,between,rfl,by simpa [permits] using granted,fun other member => ?_⟩
      simpa [starts] using unused other member
    · intro outcome reported
      rw [kept.reported outcome reported]
      exact charge_eq_sum _
  · exact ⟨by simp,by simp,by simp,by simp,by simp⟩

end Vyane.Native
