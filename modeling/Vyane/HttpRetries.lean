import Vyane.NativeTools

/-!
The HTTP clients' authorized sends (`vyane-protocol/src/http.rs`, `retry.rs`): one model turn is a bounded number of
wire attempts, each with its own check of the authority. How a request is encoded is the client's own; what the endpoint
answers is the world's.
-/
namespace Vyane.Native
open Vyane.Core Json ToolChat Interactions

/-! ### Retry policy -/

def U64_LIMIT : Nat := 2 ^ 64 - 1
def U128_LIMIT : Nat := 2 ^ 128 - 1

/-- A retry policy; delays are in milliseconds. -/
structure RetryConfig where
  max_attempts : Nat
  base_delay : Nat
  max_delay : Nat
  jitter_ratio_millis : Nat

namespace RetryConfig
/-- `max_attempts()`: at least one. -/
def attempts (retry : RetryConfig) : Nat := max retry.max_attempts 1
def should_retry (retry : RetryConfig) (attempt : Nat) : Bool := attempt < retry.attempts
def jitter_bucket (attempt : Nat) : Nat := (attempt * 1103515245 + 12345) % 2 ^ 32 % 1000

def delay_for (retry : RetryConfig) (attempt : Nat) : Nat :=
  let base_ms := min (retry.base_delay * 2 ^ min (attempt - 1) 31) U128_LIMIT
  let capped_ms := min base_ms retry.max_delay
  let jitter_ms :=
    min (min (capped_ms * retry.jitter_ratio_millis) U128_LIMIT * jitter_bucket attempt) U128_LIMIT / 1000000
  min (min (capped_ms + jitter_ms) U128_LIMIT) U64_LIMIT

end RetryConfig

inductive StatusClass where
  | Success
  | Retryable (kind : ErrorKind)
  | Terminal (kind : ErrorKind)

def classify_status (status : Nat) : StatusClass :=
  if 200 ≤ status ∧ status < 300 then .Success
  else if status = 401 ∨ status = 403 then .Terminal .Auth
  else if status = 429 then .Retryable .RateLimited
  else if 500 ≤ status ∧ status < 600 then .Retryable .Protocol
  else .Terminal .Protocol

def status_error (kind : ErrorKind) (status : Nat) : VyaneError := ⟨kind,s!"HTTP status {status}"⟩

def reqwest_error_kind (error : WireError) : ErrorKind :=
  if error.is_timeout then .Timeout
  else if error.is_connect || error.is_request || error.is_body then .Transport
  else if error.is_decode then .Protocol
  else .Transport

/-! ### The retry loop -/

/-- An HTTP client: its retry policy, the wire form of a request, and the HTTP request for a body. -/
structure HttpClient where
  retry : RetryConfig
  encode : ToolChatRequest → Result String
  request : String → Result String

/-- What one wire attempt leads to. -/
inductive WireStep where
  | Return (result : Result ToolChatOutcome)
  | Retry (last_error : VyaneError)
/-- The `?` operator inside a wire attempt. -/
def orReturn {α : Type} (next : α → Act WireStep) : Result α → Act WireStep
  | .error error => pure (.Return (.error error))
  | .ok value => next value
/-- The value of a race that cancellation may win. -/
def orCancelled {α : Type} : OrCancelled α → Result α
  | .Cancelled _ => .error .cancelled
  | .Finished value => .ok value
def check_cancelled : Act (Result Unit) := do
  if ← is_cancelled then return .error .cancelled else return .ok ()
/-- A wait before the next attempt. -/
def sleep_or_cancel (delay : Nat) (last_error : VyaneError) : Act WireStep := do
  let slept : OrCancelled Unit ← act (.Sleep delay)
  orReturn (fun () => pure (.Retry last_error)) (orCancelled slept)
/-- The result of a future that gives a result, raced with cancellation. -/
def flatten {α : Type} (raced : OrCancelled (Result α)) : Result α := orCancelled raced >>= id
def parse_json_or_cancel : Act WireStep := do
  let parsed : OrCancelled (Result ToolChatOutcome) ← act .ReadBody
  return .Return (flatten parsed)

variable (client : HttpClient)

def handleSend (wire_attempt : Nat) : Except WireError Response → Act WireStep
  | .ok response =>
    match classify_status response.status with
    | .Success => parse_json_or_cancel
    | .Retryable kind =>
      if client.retry.should_retry wire_attempt then
        sleep_or_cancel ((response.retry_after.map (· * 1000)).getD (client.retry.delay_for wire_attempt))
          (status_error kind response.status)
      else pure (.Return (.error (status_error kind response.status)))
    | .Terminal kind => pure (.Return (.error (status_error kind response.status)))
  | .error error =>
    if reqwest_error_kind error = .Transport ∧ client.retry.should_retry wire_attempt then
      sleep_or_cancel (client.retry.delay_for wire_attempt)
        ⟨reqwest_error_kind error,"transport error while sending request"⟩
    else pure (.Return (.error ⟨reqwest_error_kind error,"failed to send request"⟩))

/-- The send of a request that the authority has just been asked about. -/
def send (turn wire_attempt : Nat) (request : String) : Act WireStep := do
  let checked ← check_cancelled
  orReturn (fun () => do
    let sent : OrCancelled (Except WireError Response) ← act (.Send turn wire_attempt request)
    orReturn (handleSend client wire_attempt) (orCancelled sent)) checked

def revalidateAndSend (turn wire_attempt : Nat) (request : String) : Act WireStep := do
  let validated : OrCancelled (Result Unit) ← act (.Revalidate (.ModelSend turn wire_attempt))
  orReturn (fun () => send client turn wire_attempt request) (flatten validated)
/-- One round of the loop in `post_json_authorized_with`. -/
def attemptWire (turn wire_attempt : Nat) (body : String) : Act WireStep := do
  let checked ← check_cancelled
  orReturn (fun () => orReturn (revalidateAndSend client turn wire_attempt) (client.request body)) checked

/-- The rounds from `wire_attempt` on, with how many are left. -/
def post_json_authorized (turn : Nat) (body : String) : Nat → Nat → Option VyaneError → Act (Result ToolChatOutcome)
  | 0, _, last_error => pure (.error (last_error.getD ⟨.Other,"retry loop exited without a result"⟩))
  | left + 1, wire_attempt, _ => do
    match ← attemptWire client turn wire_attempt body with
    | .Return result => return result
    | .Retry last_error => post_json_authorized turn body left (wire_attempt + 1) (some last_error)

variable (writer : Writer)

def HttpClient.complete_turn_authorized (request : ToolChatRequest) (turn : Nat) : Act (Result ToolChatOutcome) :=
  match request.validate writer with
  | .error error => pure (.error ⟨.Config,"invalid typed tool-chat request: " ++ error.to_string⟩)
  | .ok () =>
    match client.encode request with
    | .error error => pure (.error error)
    | .ok body => post_json_authorized client turn body client.retry.attempts 1 none

end Vyane.Native
