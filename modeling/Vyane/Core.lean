import Vyane.Text
import Vyane.Times

/-!
The vocabulary of `vyane-core` that the kernel, the native loop and the stores share.
-/
namespace Vyane.Core
open Times

/-! ### Errors (`error.rs`) -/

inductive ErrorKind where
  | Config
  | Auth
  | RateLimited
  | Timeout
  | Transport
  | Protocol
  | SpawnFailed
  | HarnessFailed
  | Cancelled
  | Unsupported
  | NotFound
  | Conflict
  | Io
  | Indeterminate
  | Other
deriving DecidableEq, Repr

/-- `{kind:?}`. -/
def ErrorKind.debug : ErrorKind → String
  | .Config => "Config"
  | .Auth => "Auth"
  | .RateLimited => "RateLimited"
  | .Timeout => "Timeout"
  | .Transport => "Transport"
  | .Protocol => "Protocol"
  | .SpawnFailed => "SpawnFailed"
  | .HarnessFailed => "HarnessFailed"
  | .Cancelled => "Cancelled"
  | .Unsupported => "Unsupported"
  | .NotFound => "NotFound"
  | .Conflict => "Conflict"
  | .Io => "Io"
  | .Indeterminate => "Indeterminate"
  | .Other => "Other"

/-- An error with its kind and message; the chain of sources is not kept. -/
structure VyaneError where
  kind : ErrorKind
  message : String
deriving DecidableEq, Repr

namespace VyaneError
def config (message : String) : VyaneError := ⟨.Config,message⟩
def unsupported (message : String) : VyaneError := ⟨.Unsupported,message⟩
def cancelled : VyaneError := ⟨.Cancelled,"cancelled by caller"⟩
def to_string (error : VyaneError) : String := s!"{error.kind.debug}: {error.message}"

end VyaneError

abbrev Result (α : Type) : Type := Except VyaneError α

/-! ### Token usage (`run.rs`) -/

structure Usage where
  input_tokens : Nat
  output_tokens : Nat
  reasoning_tokens : Option Nat
  cached_input_tokens : Option Nat
deriving DecidableEq, Repr

/-- `Usage::default()`. -/
def Usage.zero : Usage := ⟨0,0,none,none⟩
def saturating_add (first second : Nat) : Nat := min (first + second) U64_MAX
/-- A count that a report may leave out, added to a total. -/
def addReported (total : Option Nat) : Option Nat → Option Nat
  | none => total
  | some next => some (saturating_add (total.getD 0) next)

def Usage.add (total next : Usage) : Usage where
  input_tokens := saturating_add total.input_tokens next.input_tokens
  output_tokens := saturating_add total.output_tokens next.output_tokens
  reasoning_tokens := addReported total.reasoning_tokens next.reasoning_tokens
  cached_input_tokens := addReported total.cached_input_tokens next.cached_input_tokens

/-- A sum that stops at `u64::MAX`. -/
def saturatingSum (values : List Nat) : Nat := min values.sum U64_MAX
/-- The sum of the counts that were reported, if any was. -/
def reportedSum (values : List (Option Nat)) : Option Nat :=
  if values.all Option.isNone then none else some (saturatingSum (values.filterMap id))
/-- The usage of several reports together. -/
def Usage.sum (usages : List Usage) : Usage where
  input_tokens := saturatingSum (usages.map (·.input_tokens))
  output_tokens := saturatingSum (usages.map (·.output_tokens))
  reasoning_tokens := reportedSum (usages.map (·.reasoning_tokens))
  cached_input_tokens := reportedSum (usages.map (·.cached_input_tokens))

theorem saturatingSum_append (values : List Nat) (next : Nat) :
    saturatingSum (values ++ [next]) = saturating_add (saturatingSum values) next := by
  simp only [saturatingSum,saturating_add,List.sum_append,List.sum_singleton]
  omega

theorem reportedSum_append (values : List (Option Nat)) (next : Option Nat) :
    reportedSum (values ++ [next]) = addReported (reportedSum values) next := by
  cases next with
  | none => simp [reportedSum,addReported]
  | some next =>
    have total : (reportedSum values).getD 0 = saturatingSum (values.filterMap id) := by
      unfold reportedSum
      split
      next absent =>
        have empty : values.filterMap id = [] := by
          rw [List.filterMap_eq_nil_iff]
          intro value member
          exact Option.isNone_iff_eq_none.mp (List.all_eq_true.mp absent value member)
        rw [empty]
        rfl
      next => rfl
    have reported : (values ++ [some next]).all Option.isNone = false := by simp
    rw [addReported,total,← saturatingSum_append,reportedSum,reported]
    simp

/-- Adding one report after another gives their sum. -/
theorem Usage.sum_append (usages : List Usage) (next : Usage) :
    Usage.sum (usages ++ [next]) = (Usage.sum usages).add next := by
  simp only [Usage.sum,Usage.add,List.map_append,List.map_cons,List.map_nil,saturatingSum_append,reportedSum_append]

/-! ### Chat messages (`chat.rs`) -/

inductive Role where
  | System
  | User
  | Assistant
deriving DecidableEq, Repr

structure ChatMessage where
  role : Role
  content : String
deriving DecidableEq, Repr

/-! ### Side effects of a native loop (`native_authority.rs`) -/

inductive NativeSideEffect where
  | ModelSend (turn wire_attempt : Nat)
  | ToolOperation (turn ordinal : Nat)
  | CheckpointPrepare (sequence : Nat)
  | CheckpointPublish (sequence : Nat)
  | SessionCommit (expected_revision : Nat)
deriving DecidableEq, Repr

end Vyane.Core
