import Vyane.Tables
import Vyane.Text
import Vyane.Times
import Vyane.Transactions

/-!
The kernel store's records, its delivery state machine and its database (`kernel_store.rs`, `approval_fsm.rs` and
`migrations/0001_kernel.sql`). A `u64` is a number below `2 ^ 64`; a column holds the `i64` that the cast of it gives.
-/
namespace Vyane.KernelStore
open Text Times Tables Transactions

/-! ### Errors -/

inductive ReceiptFinalStatus where
  | Open
  | Completed
  | Failed
  | Cancelled
  | Unresolved
deriving DecidableEq, Repr

inductive ReceiptError where
  | InvalidInput (message : String)
  | StaleRevision (expected actual : Nat)
  | OwnerMismatch
  | TruthRequired
  | MissingArtifact
  | IncompleteGates
  | TerminalImmutable
deriving DecidableEq, Repr

def ReceiptError.to_string : ReceiptError → String
  | .InvalidInput message => "invalid receipt input: " ++ message
  | .StaleRevision expected actual =>
      "stale receipt revision: expected " ++ toString expected ++ ", actual " ++ toString actual
  | .OwnerMismatch => "receipt owner mismatch"
  | .TruthRequired => "completion requires a passed truth-probe gate"
  | .MissingArtifact => "completion requires an output artifact digest"
  | .IncompleteGates => "completion requires all required gates to pass"
  | .TerminalImmutable => "terminal receipt cannot be mutated"

inductive KernelStoreError where
  | Io (message : String)
  | Sqlite (message : String)
  | UnsupportedSchema (found supported : Nat)
  | NotFound
  | OwnerMismatch
  | StaleRevision (expected actual : Nat)
  | Conflict (message : String)
  | TerminalImmutable
  | InvalidInput (message : String)
  | Receipt (message : String)
  | Delivery (message : String)
  | ApprovalDeniedFinal
  | ApprovalBindingMismatch
  | DuplicateEffect (effect_id : String)
deriving DecidableEq, Repr

def KernelStoreError.fromReceipt : ReceiptError → KernelStoreError
  | .OwnerMismatch => .OwnerMismatch
  | .StaleRevision expected actual => .StaleRevision expected actual
  | .TerminalImmutable => .TerminalImmutable
  | other => .Receipt other.to_string

/-! ### The delivery state machine -/

inductive DeliveryPhase where
  | Running
  | ApprovalRequired
  | Approved
  | Denied
  | Resuming
  | Verified
  | Completed
  | Failed
  | Cancelled
deriving DecidableEq, Repr

def DeliveryPhase.is_terminal : DeliveryPhase → Bool
  | .Completed | .Failed | .Cancelled | .Denied => true
  | _ => false
def DeliveryPhase.grant_retry_already_applied : DeliveryPhase → Bool
  | .Approved | .Resuming | .Verified | .Completed => true
  | _ => false

inductive DeliveryEvent where
  | AskRequired
  | GrantAccepted
  | DenyAccepted
  | ResumeStarted
  | Verified
  | Complete
  | Fail
  | Cancel
deriving DecidableEq, Repr

inductive DeliveryTransitionError where
  | IllegalTransition
  | TerminalImmutable
  | DenyIsFinal
  | GrantRequiresAsk
deriving DecidableEq, Repr

def DeliveryTransitionError.to_string : DeliveryTransitionError → String
  | .IllegalTransition => "illegal delivery transition"
  | .TerminalImmutable => "terminal delivery phase is immutable"
  | .DenyIsFinal => "denied delivery cannot be granted"
  | .GrantRequiresAsk => "grant only valid from approval_required (or idempotent approved)"

def KernelStoreError.fromTransition : DeliveryTransitionError → KernelStoreError
  | .DenyIsFinal => .ApprovalDeniedFinal
  | .TerminalImmutable => .TerminalImmutable
  | other => .Delivery other.to_string

def transition (current : DeliveryPhase) (event : DeliveryEvent) : Except DeliveryTransitionError DeliveryPhase :=
  if current.is_terminal ∧ event ≠ .GrantAccepted then .error .TerminalImmutable
  else match current, event with
    | .Running, .AskRequired => .ok .ApprovalRequired
    | .Running, .Verified => .ok .Verified
    | .Running, .Complete => .ok .Completed
    | .Running, .Fail => .ok .Failed
    | .Running, .Cancel => .ok .Cancelled
    | .Running, .DenyAccepted => .ok .Denied
    | .ApprovalRequired, .GrantAccepted => .ok .Approved
    | .ApprovalRequired, .DenyAccepted => .ok .Denied
    | .ApprovalRequired, .Cancel => .ok .Cancelled
    | .ApprovalRequired, .Fail => .ok .Failed
    | .Approved, .GrantAccepted => .ok .Approved
    | .Approved, .ResumeStarted => .ok .Resuming
    | .Approved, .Complete => .ok .Completed
    | .Approved, .Verified => .ok .Verified
    | .Approved, .Cancel => .ok .Cancelled
    | .Approved, .Fail => .ok .Failed
    | .Resuming, .Verified => .ok .Verified
    | .Resuming, .Complete => .ok .Completed
    | .Resuming, .Fail => .ok .Failed
    | .Resuming, .Cancel => .ok .Cancelled
    | .Resuming, .ResumeStarted => .ok .Resuming
    | .Verified, .Complete => .ok .Completed
    | .Verified, .Fail => .ok .Failed
    | .Verified, .Cancel => .ok .Cancelled
    | .Denied, .GrantAccepted => .error .DenyIsFinal
    | _, .GrantAccepted => .error .GrantRequiresAsk
    | _, _ => .error .IllegalTransition

def as_i64 (value : Nat) : Int := if value < 2 ^ 63 then value else value - 2 ^ 64
def as_u64 (value : Int) : Nat := (if value < 0 then value + 2 ^ 64 else value).toNat
/-- `u64::try_from(value).unwrap_or(0)`. -/
def u64OrZero (value : Int) : Nat := value.toNat
/-- `checked_add(1)`. -/
def next_revision (revision : Nat) (overflow : String) : Except KernelStoreError Nat :=
  if revision + 1 < 2 ^ 64 then .ok (revision + 1) else .error (.InvalidInput overflow)

def validate_id (label value : String) (max_bytes : Nat) : Except KernelStoreError Unit :=
  if (identifier_problem value max_bytes).isSome then .error (.InvalidInput label) else .ok ()
def validate_owner (owner : String) : Except KernelStoreError Unit := validate_id "owner" owner 128
def is_ascii_hexdigit (c : Char) : Bool := is_lower_hex c || ('A' ≤ c && c ≤ 'F')

def validate_digest (digest : String) : Except KernelStoreError Unit :=
  if digest.utf8ByteSize ≠ 64 ∨ !digest.toList.all is_ascii_hexdigit then .error (.InvalidInput "digest")
  else if digest.toList.any Char.isUpper then .error (.InvalidInput "digest must be lowercase hex")
  else .ok ()

/-! ### Records -/

structure LeaseFence where
  owner : String
  run_id : String
  lease_owner : String
  generation : Nat
  revision : Nat
  token : String
  policy_digest : String
  expires_at_ms : Option Int
deriving DecidableEq, Repr

inductive ApprovalDecisionKind where
  | Pending
  | Approved
  | Denied
deriving DecidableEq, Repr

structure ApprovalDecision where
  owner : String
  approval_id : String
  receipt_id : String
  run_id : String
  request_digest : String
  decision : ApprovalDecisionKind
  decided_by : Option String
  bound_revision : Nat
  bound_lease_owner : Option String
  bound_generation : Option Nat
  decided_at_ms : Option Int
  created_at_ms : Int
  updated_at_ms : Int
deriving DecidableEq, Repr

structure ApprovalGrantBinding where
  owner : String
  receipt_id : String
  run_id : String
  request_digest : String
  expected_revision : Nat
  lease_owner : String
  generation : Nat
  decided_by : String
deriving DecidableEq, Repr

structure ApprovalDenyBinding where
  owner : String
  receipt_id : String
  request_digest : String
  expected_revision : Nat
  lease_owner : String
  generation : Nat
  decided_by : String
deriving DecidableEq, Repr

structure ArtifactMeta where
  owner : String
  receipt_id : String
  digest : String
  path : String
  content_bytes : Nat
  created_at_ms : Int
deriving DecidableEq, Repr

/-! ### Rows -/

structure ReceiptRow where
  owner : String
  receipt_id : String
  revision : Int
  final_status : ReceiptFinalStatus
  body_json : String
  created_at_ms : Int
  updated_at_ms : Int
deriving DecidableEq, Repr

structure EffectRow where
  owner : String
  effect_id : String
  payload_digest : String
  run_id : Option String
  receipt_id : Option String
  applied_at_ms : Int
deriving DecidableEq, Repr

structure ApprovalRow where
  owner : String
  approval_id : String
  receipt_id : String
  run_id : String
  request_digest : String
  decision : ApprovalDecisionKind
  decided_by : Option String
  bound_revision : Int
  bound_lease_owner : Option String
  bound_generation : Option Int
  decided_at_ms : Option Int
  created_at_ms : Int
  updated_at_ms : Int
deriving DecidableEq, Repr

structure ArtifactRow where
  owner : String
  receipt_id : String
  digest : String
  path : String
  content_bytes : Int
  created_at_ms : Int
deriving DecidableEq, Repr

structure FenceRow where
  owner : String
  run_id : String
  lease_owner : String
  generation : Int
  revision : Int
  token : String
  policy_digest : String
  expires_at_ms : Option Int
  updated_at_ms : Int
deriving DecidableEq, Repr

structure DeliveryRow where
  owner : String
  receipt_id : String
  run_id : String
  phase : DeliveryPhase
  revision : Int
  approval_id : Option String
  updated_at_ms : Int
deriving DecidableEq, Repr

/-! ### Keys -/

def ReceiptRow.key (row : ReceiptRow) : String × String := (row.owner,row.receipt_id)
def EffectRow.key (row : EffectRow) : String × String := (row.owner,row.effect_id)
def ApprovalRow.key (row : ApprovalRow) : String × String := (row.owner,row.approval_id)
/-- What a request is looked up by. -/
def ApprovalRow.request (row : ApprovalRow) : String × String × String := (row.owner,row.receipt_id,row.request_digest)
def ArtifactRow.key (row : ArtifactRow) : String × String × String := (row.owner,row.receipt_id,row.digest)
def FenceRow.key (row : FenceRow) : String × String := (row.owner,row.run_id)
def DeliveryRow.key (row : DeliveryRow) : String × String := (row.owner,row.receipt_id)
def receiptClash (first second : ReceiptRow) : Bool := first.key == second.key
def effectClash (first second : EffectRow) : Bool := first.key == second.key
def approvalClash (first second : ApprovalRow) : Bool := first.key == second.key || first.request == second.request
def artifactClash (first second : ArtifactRow) : Bool := first.key == second.key
def fenceClash (first second : FenceRow) : Bool := first.key == second.key
def deliveryClash (first second : DeliveryRow) : Bool := first.key == second.key

/-! ### The database -/

structure Tables where
  kernel_receipts : Table ReceiptRow receiptClash
  kernel_effects : Table EffectRow effectClash
  kernel_approvals : Table ApprovalRow approvalClash
  kernel_artifacts : Table ArtifactRow artifactClash
  kernel_lease_fences : Table FenceRow fenceClash
  kernel_delivery : Table DeliveryRow deliveryClash

/-- The `CHECK`s of the schema. -/
def Tables.checks (tables : Tables) : Bool :=
  tables.kernel_receipts.rows.all (fun row => 1 ≤ row.revision)
    && tables.kernel_effects.rows.all (fun row => is_sha256 row.payload_digest)
    && tables.kernel_approvals.rows.all (fun row => 0 ≤ row.bound_revision && is_sha256 row.request_digest)
    && tables.kernel_artifacts.rows.all (fun row => 0 ≤ row.content_bytes && is_sha256 row.digest)
    && tables.kernel_lease_fences.rows.all (fun row => 0 ≤ row.generation && 0 ≤ row.revision)
    && tables.kernel_delivery.rows.all (fun row => 0 ≤ row.revision)

/-- Tables that pass the `CHECK`s. -/
structure Database extends Tables where
  checked : toTables.checks = true
def Database.empty : Database := ⟨⟨.empty,.empty,.empty,.empty,.empty,.empty⟩,rfl⟩
/-- The store's transactions. -/
abbrev Work (α : Type) : Type := Tx KernelStoreError Database α
/-- What SQLite says of a statement that breaks a constraint. -/
def CONSTRAINT_FAILED : String := "constraint failed"

/-- A statement that writes: it fails when the rows clash or a `CHECK` does. -/
def execute (statement : Tables → Option Tables) : Work Unit := do
  let db ← get
  match statement db.toTables with
  | none => throw (.Sqlite CONSTRAINT_FAILED)
  | some tables => if checked : tables.checks = true then set (⟨tables,
      checked⟩ : Database) else throw (.Sqlite CONSTRAINT_FAILED)

/-- The receipts of `vyane-core` and how they are written. -/
structure Receipts where
  Receipt : Type
  owner : Receipt → String
  receipt_id : Receipt → String
  revision : Receipt → Nat
  final_status : Receipt → ReceiptFinalStatus
  created_at : Receipt → DateTime
  updated_at : Receipt → DateTime
  /-- Sets the revision and the time of the last change. -/
  advance : Receipt → Nat → DateTime → Receipt
  validate : Receipt → Except ReceiptError Unit
  to_canonical_json : Receipt → Except ReceiptError String
  from_canonical_json : String → Except ReceiptError Receipt

end Vyane.KernelStore
