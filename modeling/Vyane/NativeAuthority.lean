import Vyane.NativeRuns

/-!
The authority over a native run that uses the HTTP clients: everything is sent and started under a check of its own, and
nothing after a check that failed or a cancellation that was seen.
-/
namespace Vyane.Native
open Vyane.Core Json ToolChat Interactions
open Interactions.Program
set_option linter.unusedSimpArgs false

/-! ### Effects -/

/-- The effect that the authority agreed to here. -/
def grantedEffect : Event Request Answer → Option NativeSideEffect
  | ⟨.Revalidate effect,validation⟩ =>
    match (validation : OrCancelled (Result Unit)) with
    | .Finished (.ok ()) => some effect
    | _ => none
  | ⟨.RevalidateTool effect _,validation⟩ =>
    match (validation : Raced (Result Unit)) with
    | .Finished (.ok ()) => some effect
    | _ => none
  | _ => none

/-- The effect that begins here: a send that reaches the wire, or a tool's executor. -/
def startedEffect : Event Request Answer → Option NativeSideEffect
  | ⟨.Send turn wire_attempt _,sent⟩ =>
    if (sent : OrCancelled (Except WireError Response)).polled then some (.ModelSend turn wire_attempt) else none
  | ⟨.ExecuteTool _ effect _,execution⟩ => if (execution : Raced ToolReturn).polled then some effect else none
  | _ => none
def isStart (event : Event Request Answer) : Bool := (startedEffect event).isSome

/-- A check of the authority that failed, here or in a tool that says so, or a cancellation that was seen. -/
def isStop : Event Request Answer → Bool
  | ⟨.IsCancelled,cancelled⟩ => (cancelled : Bool)
  | ⟨.Now,_⟩ => false
  | ⟨.CompleteTurn _ _,_⟩ => false
  | ⟨.Revalidate _,validation⟩ =>
    match (validation : OrCancelled (Result Unit)) with
    | .Cancelled _ | .Finished (.error _) => true
    | .Finished (.ok ()) => false
  | ⟨.RevalidateTool _ _,validation⟩ =>
    match (validation : Raced (Result Unit)) with
    | .Cancelled _ | .Finished (.error _) => true
    | .TimedOut _ | .Finished (.ok ()) => false
  | ⟨.Send _ _ _,sent⟩ => (sent : OrCancelled (Except WireError Response)).cancelled
  | ⟨.ReadBody,parsed⟩ => (parsed : OrCancelled (Result ToolChatOutcome)).cancelled
  | ⟨.Sleep _,slept⟩ => (slept : OrCancelled Unit).cancelled
  | ⟨.ExecuteTool _ _ _,execution⟩ =>
    match (execution : Raced ToolReturn) with
    | .Cancelled _ | .Finished (.Rejected _) => true
    | _ => false

/-- Nothing in this trace stops the run. -/
def Going (trace : Trace) : Prop := ∀ event ∈ trace, isStop event = false
/-- Nothing is sent or started in this trace. -/
def Unstarted (trace : Trace) : Prop := ∀ event ∈ trace, startedEffect event = none
@[simp] theorem going_nil : Going [] := by simp [Going]
variable {trace : Trace} {event : Event Request Answer} {first second : Trace} {client : HttpClient} {turn : Nat}

@[simp] theorem going_cons :
    Going (event :: trace) ↔ isStop event = false ∧ Going trace := List.forall_mem_cons

@[simp] theorem going_append : Going (first ++ second) ↔ Going first ∧ Going second :=
  List.forall_mem_append
@[simp] theorem unstarted_nil : Unstarted [] := by simp [Unstarted]
@[simp] theorem unstarted_cons :
    Unstarted (event :: trace) ↔ startedEffect event = none ∧ Unstarted trace := List.forall_mem_cons
@[simp] theorem unstarted_append : Unstarted (first ++ second) ↔ Unstarted first ∧ Unstarted second :=
  List.forall_mem_append

theorem look_is_idle (look : isLook event = true) :
    isStop event = false ∧ startedEffect event = none ∧ grantedEffect event = none := by
  obtain ⟨request,answer⟩ := event
  cases request with
  | IsCancelled =>
    match answer, look with
    | false, _ => exact ⟨rfl,rfl,rfl⟩
  | Now => exact ⟨rfl,rfl,rfl⟩
  | _ => simp [isLook] at look

theorem Looks.going (looks : Looks trace) : Going trace :=
  fun event member => (look_is_idle (looks event member)).1
theorem Looks.unstarted (looks : Looks trace) : Unstarted trace :=
  fun event member => (look_is_idle (looks event member)).2.1

/-- A trace that begins these effects, each under its own check, and none after a stop. -/
structure Orderly (effects : List NativeSideEffect) (trace : Trace) : Prop where
  accepted : (Monitor.pairing grantedEffect startedEffect).Accepts trace
  halted : Halted isStop isStart trace
  effects : trace.filterMap startedEffect = effects

theorem Unstarted.orderly (unstarted : Unstarted trace) : Orderly [] trace where
  accepted := Monitor.pairing_accepts_unused unstarted
  halted := Halted.unused fun event member => by simp [isStart,unstarted event member]
  effects := List.filterMap_eq_nil_iff.mpr unstarted

theorem Orderly.append {one two : List NativeSideEffect} (orderly : Orderly one first)
    (going : Going first) (more : Orderly two second) : Orderly (one ++ two) (first ++ second) where
  accepted := orderly.accepted.append more.accepted
  halted := Halted.append going more.halted
  effects := by rw [List.filterMap_append,orderly.effects,more.effects]

theorem Orderly.append_unstarted {effects : List NativeSideEffect} (orderly : Orderly effects first)
    (unstarted : Unstarted second) : Orderly effects (first ++ second) where
  accepted := orderly.accepted.append unstarted.orderly.accepted
  halted := orderly.halted.append_unused fun event member => by simp [isStart,unstarted event member]
  effects := by rw [List.filterMap_append,orderly.effects,unstarted.orderly.effects,List.append_nil]

/-- A check that passed, looks, and what was checked. -/
theorem orderly_under {grant use : Event Request Answer} {effect : NativeSideEffect} {looks : Trace}
    (given : grantedEffect grant = some effect) (idle : startedEffect grant = none) (passed : isStop grant = false)
    (quiet : Looks looks) (used : startedEffect use = none ∨ startedEffect use = some effect) :
    Orderly (startedEffect use).toList (grant :: (looks ++ [use])) where
  accepted := Monitor.pairing_accepts_use given idle quiet.unstarted
    (fun event member => (look_is_idle (quiet event member)).2.2) used
  halted := by
    have going : Going (grant :: looks) := going_cons.mpr ⟨passed,quiet.going⟩
    exact Halted.last going use
  effects := by
    have silent := quiet.unstarted.orderly.effects
    rcases used with never | now
    · simp [idle,silent,never]
    · simp [idle,silent,now]

/-! ### The wire attempts of a turn -/

/-- What follows a send that was answered, or given up for a cancellation. -/
inductive SentRun : OrCancelled (Except WireError Response) → Trace → WireStep → Prop
  | cancelled (polled : Bool) : SentRun (.Cancelled polled) [] (.Return (.error .cancelled))
  | failed {answer : Except WireError Response} (error : VyaneError) : SentRun (.Finished answer) []
      (.Return (.error error))
  | read {answer : Except WireError Response} (parsed : OrCancelled (Result ToolChatOutcome)) :
    SentRun (.Finished answer) [⟨.ReadBody,parsed⟩] (.Return (flatten parsed))
  | stopped {answer : Except WireError Response} (delay : Nat) (polled : Bool) :
    SentRun (.Finished answer) [⟨.Sleep delay,(.Cancelled polled : OrCancelled Unit)⟩] (.Return (.error .cancelled))
  | waited {answer : Except WireError Response} (delay : Nat) (error : VyaneError) :
    SentRun (.Finished answer) [⟨.Sleep delay,(.Finished () : OrCancelled Unit)⟩] (.Retry error)

/-- The events of one wire attempt. -/
inductive AttemptRun (turn wire_attempt : Nat) : Trace → WireStep → Prop
  | cancelled : AttemptRun turn wire_attempt [⟨.IsCancelled,true⟩] (.Return (.error .cancelled))
  | unbuilt (error : VyaneError) : AttemptRun turn wire_attempt [⟨.IsCancelled,false⟩] (.Return (.error error))
  | unauthorized (validation : OrCancelled (Result Unit)) (error : VyaneError) :
    validation ≠ .Finished (.ok ()) → AttemptRun turn wire_attempt
      [⟨.IsCancelled,false⟩,⟨.Revalidate (.ModelSend turn wire_attempt),validation⟩] (.Return (.error error))
  | interrupted : AttemptRun turn wire_attempt
      [⟨.IsCancelled,false⟩,
        ⟨.Revalidate (.ModelSend turn wire_attempt),(.Finished (.ok ()) : OrCancelled (Result Unit))⟩,
        ⟨.IsCancelled,true⟩] (.Return (.error .cancelled))
  | sent {body : String} {sent : OrCancelled (Except WireError Response)} {rest : Trace} {step : WireStep}
    (handled : SentRun sent rest step) : AttemptRun turn wire_attempt
      (⟨.IsCancelled,false⟩ ::
        (⟨.Revalidate (.ModelSend turn wire_attempt),(.Finished (.ok ()) : OrCancelled (Result Unit))⟩ ::
          ([⟨.IsCancelled,false⟩] ++ [⟨.Send turn wire_attempt body,sent⟩])) ++ rest) step

theorem sleep_or_cancel_runs {answer : Except WireError Response} (delay : Nat) (error : VyaneError) :
    Ensures (sleep_or_cancel delay error) (SentRun (.Finished answer)) := by
  unfold sleep_or_cancel
  refine ensures_ask fun (slept : OrCancelled Unit) => ?_
  match slept with
  | .Cancelled polled => exact ensures_pure (.stopped delay polled)
  | .Finished () => exact ensures_pure (.waited delay error)

theorem handleSend_runs (wire_attempt : Nat) (answer : Except WireError Response) :
    Ensures (handleSend client wire_attempt answer) (SentRun (.Finished answer)) := by
  unfold handleSend
  cases answer with
  | ok response =>
    cases classified : classify_status response.status with
    | Success =>
      simp only [classified]
      exact ensures_ask fun parsed => ensures_pure (SentRun.read parsed)
    | Retryable kind =>
      simp only [classified]
      split
      · exact sleep_or_cancel_runs _ _
      · exact ensures_pure (.failed _)
    | Terminal kind =>
      simp only [classified]
      exact ensures_pure (.failed _)
  | error error =>
    dsimp only
    split
    · exact sleep_or_cancel_runs _ _
    · exact ensures_pure (.failed _)

/-- A look at the token that ends an attempt, or lets it go on. -/
inductive CheckRun : Trace → Result Unit → Prop
  | cancelled : CheckRun [⟨.IsCancelled,true⟩] (.error .cancelled)
  | clear : CheckRun [⟨.IsCancelled,false⟩] (.ok ())

theorem check_cancelled_runs : Ensures check_cancelled CheckRun := by
  unfold check_cancelled
  refine ensures_ask fun (cancelled : Bool) => ?_
  cases cancelled with
  | true => exact ensures_pure .cancelled
  | false => exact ensures_pure .clear

/-- A send after its check has passed. -/
theorem send_runs (wire_attempt : Nat) (request : String) :
    Ensures (send client turn wire_attempt request) fun trace step => AttemptRun turn wire_attempt
      (⟨.IsCancelled,false⟩ ::
        ⟨.Revalidate (.ModelSend turn wire_attempt),(.Finished (.ok ()) : OrCancelled (Result Unit))⟩ :: trace) step :=
  by
  unfold send
  refine ensures_bind check_cancelled_runs fun looks checked ran => ?_
  cases ran with
  | cancelled => exact ensures_pure .interrupted
  | clear =>
    refine ensures_ask fun (sent : OrCancelled (Except WireError Response)) => ?_
    match sent with
    | .Cancelled polled => exact ensures_pure (.sent (.cancelled polled))
    | .Finished answer => exact (handleSend_runs wire_attempt answer).weaken fun rest step handled => .sent handled

/-- A wire attempt does no more than its description says. -/
theorem attemptWire_runs (wire_attempt : Nat) (body : String) :
    Ensures (attemptWire client turn wire_attempt body) (AttemptRun turn wire_attempt) := by
  unfold attemptWire
  refine ensures_bind check_cancelled_runs fun looks checked ran => ?_
  cases ran with
  | cancelled => exact ensures_pure .cancelled
  | clear =>
    cases built : client.request body with
    | error error =>
      simp only [orReturn,built]
      exact ensures_pure (.unbuilt error)
    | ok request =>
      simp only [orReturn,built]
      refine ensures_ask fun (validation : OrCancelled (Result Unit)) => ?_
      match validation with
      | .Cancelled polled => exact ensures_pure (.unauthorized (.Cancelled polled) _ (by simp))
      | .Finished (.error error) => exact ensures_pure (.unauthorized (.Finished (.error error)) _ (by simp))
      | .Finished (.ok ()) => exact send_runs wire_attempt request

section
variable {wire_attempt : Nat} {trace : Trace} {step : WireStep} {sent : OrCancelled (Except WireError Response)}

theorem SentRun.unstarted (ran : SentRun sent trace step) :
    Unstarted trace := by
  cases ran <;> simp [startedEffect]

theorem SentRun.orderly {body : String} {rest : Trace} (handled : SentRun sent rest step) :
    Orderly (if sent.polled then [.ModelSend turn wire_attempt] else [])
      (⟨.IsCancelled,false⟩ ::
        (⟨.Revalidate (.ModelSend turn wire_attempt),(.Finished (.ok ()) : OrCancelled (Result Unit))⟩ ::
          ([⟨.IsCancelled,false⟩] ++ [⟨.Send turn wire_attempt body,sent⟩])) ++ rest) := by
  have look : Orderly [] [⟨.IsCancelled,false⟩] := Unstarted.orderly (by simp [startedEffect])
  have quiet : Looks [⟨.IsCancelled,false⟩] := by simp [Looks,isLook]
  let use : Event Request Answer := ⟨.Send turn wire_attempt body,sent⟩
  have polled : (startedEffect use).toList = if sent.polled then [.ModelSend turn wire_attempt] else [] := by
    cases polled : sent.polled <;> simp [use,startedEffect,polled]
  have used : startedEffect use = none ∨ startedEffect use = some (.ModelSend turn wire_attempt) := by
    cases polled : sent.polled <;> simp [use,startedEffect,polled]
  have under := look.append (by simp [isStop])
    (@orderly_under ⟨.Revalidate (.ModelSend turn wire_attempt),.Finished (.ok ())⟩ use _ _ rfl rfl rfl quiet used)
  have whole := under.append_unstarted handled.unstarted
  rwa [polled] at whole

/-- An attempt sends at most once, under its own check. -/
theorem AttemptRun.orderly (ran : AttemptRun turn wire_attempt trace step) :
    ∃ sent : Bool, Orderly (if sent then [.ModelSend turn wire_attempt] else []) trace := by
  cases ran with
  | cancelled => exact ⟨false,Unstarted.orderly (by simp [startedEffect])⟩
  | unbuilt => exact ⟨false,Unstarted.orderly (by simp [startedEffect])⟩
  | unauthorized => exact ⟨false,Unstarted.orderly (by simp [startedEffect])⟩
  | interrupted => exact ⟨false,Unstarted.orderly (by simp [startedEffect])⟩
  | sent handled => exact ⟨_,handled.orderly⟩

/-- An attempt that is to be repeated was sent, and nothing in it stops the run. -/
theorem AttemptRun.retried {error : VyaneError} (ran : AttemptRun turn wire_attempt trace (.Retry error)) :
    Orderly [.ModelSend turn wire_attempt] trace ∧ Going trace := by
  cases ran with
  | sent handled =>
    refine ⟨?_,?_⟩
    · cases handled with
      | waited delay => exact (SentRun.waited delay error).orderly
    · cases handled with
      | waited => simp [isStop,OrCancelled.cancelled]

/-- Nor does anything in an attempt that gives a response. -/
theorem AttemptRun.answered {response : ToolChatOutcome}
    (ran : AttemptRun turn wire_attempt trace (.Return (.ok response))) :
    Going trace := by
  generalize going : WireStep.Return (.ok response) = step at ran
  cases ran with
  | sent handled =>
    cases handled with
    | read parsed =>
      cases parsed with
      | Cancelled polled => cases going
      | Finished result => simp [isStop,OrCancelled.cancelled]
    | waited => cases going
    | _ => cases going
  | _ => cases going

end

/-- The sends of one model turn: attempts in order, at most `limit` of them, and
    nothing that stops the run if there is a response. -/
def CallRun (limit first turn : Nat) (trace : Trace) (result : Result ToolChatOutcome) : Prop :=
  (∃ sends ≤ limit, Orderly ((List.range' first sends).map (.ModelSend turn)) trace) ∧
    (result.toBool = true → Going trace)

theorem post_json_authorized_runs (body : String) (left : Nat) : ∀ wire_attempt last_error,
    Ensures (post_json_authorized client turn body left wire_attempt last_error) (CallRun left wire_attempt turn) := by
  induction left with
  | zero => intro wire_attempt last_error; exact ensures_pure ⟨⟨0,le_refl 0,Unstarted.orderly (by simp)⟩,by simp⟩
  | succ left ih =>
    intro wire_attempt last_error
    refine ensures_bind (attemptWire_runs wire_attempt body) fun trace step ran => ?_
    cases step with
    | Return result =>
      refine ensures_pure ⟨?_,fun answered => ?_⟩
      · obtain ⟨sent,orderly⟩ := ran.orderly
        cases sent with
        | false => exact ⟨0,by omega,by simpa using orderly⟩
        | true => exact ⟨1,by omega,by simpa using orderly⟩
      · cases result with
        | error error => cases answered
        | ok response => simpa using ran.answered
    | Retry error =>
      obtain ⟨orderly,going⟩ := ran.retried
      refine (ih (wire_attempt + 1) (some error)).weaken fun rest result later => ?_
      obtain ⟨⟨sends,few,more⟩,answered⟩ := later
      refine ⟨⟨sends + 1,by omega,?_⟩,fun ok => going_append.mpr ⟨going,answered ok⟩⟩
      rw [List.range'_succ,List.map_cons]
      exact orderly.append going more

theorem complete_turn_authorized_runs (writer : Writer) (request : ToolChatRequest) (turn : Nat) :
    Ensures (client.complete_turn_authorized writer request turn) (CallRun client.retry.attempts 1 turn) := by
  have refused (error : VyaneError) : CallRun client.retry.attempts 1 turn [] (.error error) :=
    ⟨⟨0,Nat.zero_le _,Unstarted.orderly (by simp)⟩,by simp⟩
  unfold HttpClient.complete_turn_authorized
  cases request.validate writer with
  | error error => exact ensures_pure (refused _)
  | ok valid =>
    cases encoded : client.encode request with
    | error error => simp only [encoded]; exact ensures_pure (refused error)
    | ok body => simp only [encoded]; exact post_json_authorized_runs body _ 1 none

/-! ### The tool call of a turn -/

section
variable {registry : ToolRegistry} {policy : PermissionPolicy} {context : ToolContext} {call : ToolCall}
  {effect : NativeSideEffect} {trace : Trace} {result : Result ToolInvocation}

/-- A call starts at most one executor, under its own check. -/
theorem ToolRun.orderly (ran : ToolRun registry policy context call effect trace result) :
    ∃ started : Bool, Orderly (if started then [effect] else []) trace := by
  cases ran with
  | answered quiet => exact ⟨false,quiet.unstarted.orderly⟩
  | cancelled quiet => exact ⟨false,Unstarted.orderly (by simp [quiet.unstarted,startedEffect])⟩
  | unauthorized quiet validation => exact ⟨false,Unstarted.orderly (by simp [quiet.unstarted,startedEffect])⟩
  | @authorized looks rest quiet deadline result allowed runs =>
    cases runs with
    | answered more => exact ⟨false,Unstarted.orderly (by simp [quiet.unstarted,more.unstarted,startedEffect])⟩
    | cancelled => exact ⟨false,Unstarted.orderly (by simp [quiet.unstarted,startedEffect])⟩
    | @started more silent known execution =>
      let use : Event Request Answer := ⟨.ExecuteTool call effect deadline,execution⟩
      have polled : (startedEffect use).toList = if execution.polled then [effect] else [] := by
        cases polled : execution.polled <;> simp [use,startedEffect,polled]
      have used : startedEffect use = none ∨ startedEffect use = some effect := by
        cases polled : execution.polled <;> simp [use,startedEffect,polled]
      have under := quiet.unstarted.orderly.append quiet.going
        (@orderly_under ⟨.RevalidateTool effect deadline,.Finished (.ok ())⟩ use _ _ rfl rfl rfl silent used)
      rw [polled] at under
      exact ⟨_,under⟩

/-- What the turn driver makes of a result that lets the turn go on. -/
def continues (state : RunState) : Result ToolInvocation → Bool
  | .error _ => false
  | .ok invocation => (stopFor state invocation).isNone

theorem continues_of_continue {request next : ToolChatRequest} {assistant : AssistantToolTurn} {state after : RunState}
    (continued : afterInvocation request assistant state result = .Continue next after) :
    continues state result = true := by
  cases result with
  | error error => cases continued
  | ok invocation =>
    simp only [afterInvocation] at continued
    cases stop : stopFor state invocation with
    | none => simp [continues,stop]
    | some stop => rw [stop] at continued; cases continued

/-- A call after which the turn goes on has met nothing that stops the run. -/
theorem ToolRun.going {state : RunState} (ran : ToolRun registry policy context call effect trace result)
    (continued : continues state result = true) : Going trace := by
  cases ran with
  | answered quiet => exact quiet.going
  | cancelled quiet => simp [continues,stopFor,cancelledInvocation,ToolInvocation.new] at continued
  | unauthorized quiet validation refused =>
    match validation with
    | .Cancelled _ => simp [racedResult,continues,stopFor,cancelledInvocation,ToolInvocation.new] at continued
    | .TimedOut _ => simp [quiet.going,isStop]
    | .Finished (.error _) => simp [racedResult,continues] at continued
    | .Finished (.ok ()) => exact absurd rfl refused
  | authorized quiet allowed runs =>
    cases runs with
    | answered more => simp [quiet.going,more.going,isStop]
    | cancelled => simp [continues,stopFor,cancelledInvocation,ToolInvocation.new] at continued
    | started silent known execution =>
      match execution with
      | .Cancelled _ => simp [racedResult,continues,stopFor,cancelledInvocation,ToolInvocation.new] at continued
      | .TimedOut _ => simp [quiet.going,silent.going,isStop]
      | .Finished (.Rejected _) => simp [racedResult,returnedInvocation,continues] at continued
      | .Finished (.Completed _) => simp [quiet.going,silent.going,isStop]
      | .Finished (.Failed _) => simp [quiet.going,silent.going,isStop]
      | .Finished .Panicked => simp [quiet.going,silent.going,isStop]

end

/-! ### Turns and runs -/

/-- The effects of a turn: its sends in order, and then perhaps its one tool call. -/
def turnEffects (turn sends : Nat) (started : Bool) : List NativeSideEffect :=
  (List.range' 1 sends).map (.ModelSend turn) ++ if started then [.ToolOperation turn 1] else []
/-- The effects of the turns from `turn` on, each given by the number of its sends and whether it starts a tool. -/
def runEffects : Nat → List (Nat × Bool) → List NativeSideEffect
  | _, [] => []
  | turn, (sends,started) :: rest => turnEffects turn sends started ++ runEffects (turn + 1) rest
/-- A trace of at most `left` turns from `turn` on, each with a bounded number of sends. -/
def InTurns (attempts left turn : Nat) (trace : Trace) : Prop :=
  ∃ turns, turns.length ≤ left ∧ (∀ turn ∈ turns, turn.1 ≤ attempts) ∧ Orderly (runEffects turn turns) trace
theorem inTurns_nil (attempts left turn : Nat) : InTurns attempts left turn [] :=
  ⟨[],Nat.zero_le left,by simp,Unstarted.orderly (by simp)⟩

section
variable {writer : Writer} {driver : NativeTurnDriver} {context : ToolContext} {request : ToolChatRequest}
    {state : RunState}
  {attempts : Nat} {trace : Trace} {step : TurnStep}

theorem AssistantRun.orderly {assistant : AssistantToolTurn}
    (ran : AssistantRun writer driver context request assistant state turn trace step) :
    (∃ started : Bool, Orderly (if started then [.ToolOperation turn 1] else []) trace) ∧
      ∀ next after, step = .Continue next after → Going trace := by
  cases ran with
  | stopped => exact ⟨⟨false,Unstarted.orderly (by simp)⟩,by simp⟩
  | unsendable => exact ⟨⟨false,Unstarted.orderly (by simp)⟩,by simp⟩
  | malformed => exact ⟨⟨false,Unstarted.orderly (by simp)⟩,by simp⟩
  | called sendable runs =>
    exact ⟨runs.orderly,fun next after continued => runs.going (continues_of_continue continued)⟩

/-- A turn begins its own effects in order, and goes on only if nothing stopped it. -/
theorem TurnRun.orderly
    (ran : TurnRun writer driver context (fun _ turn => CallRun attempts 1 turn) request state turn trace step) :
    (∃ sends started, sends ≤ attempts ∧ Orderly (turnEffects turn sends started) trace) ∧
      ∀ next after, step = .Continue next after → Going trace := by
  have look : Orderly [] [⟨.IsCancelled,false⟩] := Unstarted.orderly (by simp [startedEffect])
  have clear : Going [⟨.IsCancelled,false⟩] := by simp [isStop]
  cases ran with
  | cancelled => exact ⟨⟨0,false,Nat.zero_le _,Unstarted.orderly (by simp [startedEffect])⟩,by simp⟩
  | invalid => exact ⟨⟨0,false,Nat.zero_le _,look⟩,by simp⟩
  | failed called =>
    obtain ⟨⟨sends,few,orderly⟩,-⟩ := called
    exact ⟨⟨sends,false,few,by simpa [turnEffects] using look.append clear orderly⟩,by simp⟩
  | interrupted called =>
    obtain ⟨⟨sends,few,orderly⟩,-⟩ := called
    have seen : Unstarted [⟨.IsCancelled,true⟩] := by simp [startedEffect]
    have whole := (look.append clear orderly).append_unstarted seen
    exact ⟨⟨sends,false,few,by simpa [turnEffects] using whole⟩,by simp⟩
  | rejected called =>
    obtain ⟨⟨sends,few,orderly⟩,answered⟩ := called
    have whole := (look.append clear orderly).append (going_append.mpr ⟨clear,answered rfl⟩) look
    exact ⟨⟨sends,false,few,by simpa [turnEffects] using whole⟩,by simp [RunState.invalid_model_response]⟩
  | @accepted called rest response step ran valid assistant =>
    obtain ⟨⟨sends,few,orderly⟩,answered⟩ := ran
    obtain ⟨⟨started,later⟩,continued⟩ := assistant.orderly
    have going := answered rfl
    refine ⟨⟨sends,started,few,?_⟩,fun next after same => ?_⟩
    · have whole := ((look.append clear orderly).append (going_append.mpr ⟨clear,going⟩)) (look.append clear later)
      simpa [turnEffects] using whole
    · simp [going,continued next after same,isStop]

/-- The turns of a run, one after the other. -/
theorem runTurns_orderly
    (client : ∀ request turn, Ensures (driver.complete_turn_authorized request turn) (CallRun attempts 1 turn))
    (left turn : Nat) (request : ToolChatRequest) (state : RunState) :
    Ensures (runTurns writer driver context left turn request state) fun trace _ =>
      InTurns attempts left turn trace := by
  refine @runTurns_runs writer driver context (fun _ turn => CallRun attempts 1 turn) client
    (fun left turn _ _ trace _ => InTurns attempts left turn trace) ?_ ?_ ?_ left turn request state
  · intro turn request state
    exact inTurns_nil attempts 0 turn
  · intro left turn request state trace result ran
    obtain ⟨⟨sends,started,few,orderly⟩,-⟩ := ran.orderly
    exact ⟨[(sends,started)],by simp,by simpa using few,by simpa [runEffects] using orderly⟩
  · intro left turn request state trace next after rest result ran later
    obtain ⟨⟨sends,started,few,orderly⟩,continued⟩ := ran.orderly
    obtain ⟨turns,short,bounded,more⟩ := later
    refine ⟨(sends,started) :: turns,by simpa using short,?_,orderly.append (continued next after rfl) more⟩
    intro turn member
    rcases List.mem_cons.mp member with rfl | old
    · exact few
    · exact bounded turn old

end

/-- Whatever the wire, the authority, the tools and the token do: each send and each tool start follows a check of its
    own turn and attempt that passed, with nothing sent or started in between; after a failed check or a seen
    cancellation there is none; and they come in the order of the turns, each turn within the attempts of the retry
    policy. -/
theorem native_run_is_authorized (client : HttpClient) (writer : Writer) (registry : ToolRegistry)
    (policy : PermissionPolicy) (limits : NativeTurnLimits) (context : ToolContext) (request : ToolChatRequest)
    (world : World Request Answer) :
    let driver : NativeTurnDriver := ⟨client.complete_turn_authorized writer,registry,policy,limits⟩
    let trace := ((driver.run writer context request).play world []).1
    (∀ before event after effect, trace = before ++ event :: after → startedEffect event = some effect →
      ∃ earlier grant between, before = earlier ++ grant :: between ∧ grantedEffect grant = some effect ∧
        ∀ later ∈ between, startedEffect later = none) ∧
    (∀ before stop after, trace = before ++ stop :: after → isStop stop = true →
      ∀ later ∈ after, startedEffect later = none) ∧
    ∃ turns, turns.length ≤ limits.max_model_turns ∧ (∀ turn ∈ turns, turn.1 ≤ client.retry.attempts) ∧
      trace.filterMap startedEffect = runEffects 1 turns := by
  intro driver trace
  have ensured : Ensures (driver.run writer context request) fun trace _ =>
      InTurns client.retry.attempts limits.max_model_turns 1 trace := by
    unfold NativeTurnDriver.run
    split
    · exact ensures_pure (inTurns_nil _ _ 1)
    · split
      · exact ensures_pure (inTurns_nil _ _ 1)
      · exact runTurns_orderly (complete_turn_authorized_runs writer) _ 1 request _
  obtain ⟨turns,few,bounded,orderly⟩ : InTurns client.retry.attempts limits.max_model_turns 1 trace :=
    ensured.play world []
  refine ⟨?_,?_,turns,few,bounded,orderly.effects⟩
  · intro before event after effect split started
    obtain ⟨last,accepted⟩ := orderly.accepted none
    exact Monitor.granted_before_use (split ▸ accepted) started
  · intro before stop after split stopped later member
    have idle := orderly.halted before stop after split stopped later member
    simpa [isStart] using idle

end Vyane.Native
