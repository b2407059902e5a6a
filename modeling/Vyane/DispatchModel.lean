import Vyane.NativeTools

/-!
What a dispatch works on (`vyane-core/src/{target,session,task,traits}.rs`). Paths are strings; a client, a harness or a
callback is a process-local handle.
-/
namespace Vyane.Kernel
open Vyane.Core Times ToolChat

/-! ### Targets -/

inductive Protocol where
  | OpenaiChat
  | OpenaiResponses
  | AnthropicMessages
deriving DecidableEq, Repr

/-- `Other` is only built by `HarnessKind::from`, so its name is none of the known ones. -/
inductive HarnessKind where
  | ClaudeCode
  | CodexCli
  | OpenCode
  | Other (name : String) (other : name ∉ ["claude-code","codex-cli","opencode"])
deriving DecidableEq, Repr

def HarnessKind.as_str : HarnessKind → String
  | .ClaudeCode => "claude-code"
  | .CodexCli => "codex-cli"
  | .OpenCode => "opencode"
  | .Other name _ => name

inductive AdapterTransport where
  | CliWrap
  | DirectHttp
deriving DecidableEq, Repr

inductive Sandbox where
  | ReadOnly
  | Write
  | Full
deriving DecidableEq, Repr

structure Target where
  provider : String
  protocol : Protocol
  harness : Option HarnessKind
  model : String
deriving DecidableEq, Repr

inductive AuthStyle where
  | Bearer
  | XApiKey
structure AuthMaterial where
  style : AuthStyle
  secret : String
structure Endpoint where
  base_url : String
  auth : Option AuthMaterial

structure BoundTarget where
  target : Target
  transport : AdapterTransport
  endpoint : Option Endpoint
  params : GenParams

/-! ### Tasks and sessions -/

abbrev Handle : Type := Nat

/-- One unit of work; the timeout is in nanoseconds. -/
structure TaskSpec where
  prompt : String
  system : Option String
  workdir : Option String
  sandbox : Sandbox
  session : Option String
  timeout : Option Nat
  labels : List (String × String)
  harness_lifecycle_reporter : Option Handle

structure WorkdirIdentity where
  device : Nat
  inode : Nat
deriving DecidableEq, Repr

structure NativeSessionDomain where
  runtime : String
  harness : HarnessKind
  provider : String
  protocol : Protocol
  model : String
  endpoint_routing_digest : String
  canonical_workdir : String
  workdir_identity : WorkdirIdentity
  checkpoint_namespace : String
  checkpoint_schema : Nat
  account_scope_digest : String
  runtime_scope_digest : String
deriving DecidableEq, Repr

structure NativeSessionBinding where
  native_session_id : String
  domain : NativeSessionDomain
deriving DecidableEq, Repr

inductive NativeSessionState where
  | Absent
  | LegacyUnbound (native_session_id : String)
  | Bound (binding : NativeSessionBinding)
deriving DecidableEq, Repr

structure SessionRecord where
  session_id : String
  owner : String
  target : Target
  native_session_id : Option String
  transcript : List ChatMessage
  created_at : DateTime
  updated_at : DateTime
  run_count : Nat
deriving DecidableEq, Repr

structure SessionSnapshot where
  record : SessionRecord
  session_revision : Nat
  native_session : NativeSessionState
deriving DecidableEq, Repr

structure SessionUpdate where
  owner : String
  session_id : String
  target : Target
  native_session_id : Option String
  transcript_delta : List ChatMessage
  occurred_at : DateTime
deriving DecidableEq, Repr

/-- The later of two times. -/
def DateTime.max (first second : DateTime) : DateTime := if first.nanos ≤ second.nanos then second else first

def SessionUpdate.apply_to (update : SessionUpdate) (existing : Option SessionRecord) : SessionRecord :=
  let record := existing.getD
    ⟨update.session_id,update.owner,update.target,none,[],update.occurred_at,update.occurred_at,0⟩
  { record with
    target := update.target
    updated_at := DateTime.max record.updated_at update.occurred_at
    run_count := saturating_add record.run_count 1
    native_session_id := update.native_session_id.or record.native_session_id
    transcript := record.transcript ++ update.transcript_delta }

end Vyane.Kernel
