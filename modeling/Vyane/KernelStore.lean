import Vyane.KernelModel

/-!
The operations of the kernel store (`kernel_store.rs`), each one transaction, and histories of calls by any number of
processes. Transactions are serializable; one that fails leaves the database as it was. `record_attempt`, `set_gate`,
`set_artifact_digest`, `complete_receipt`, `fail_receipt`, `cancel_receipt` and `mark_unresolved` are
`transition_receipt` with a change of their own.
-/
namespace Vyane.KernelStore
open Text Times Vyane.Tables Transactions

/-! ### Statements -/

def insertReceipt (row : ReceiptRow) : Work Unit :=
  execute fun db => (db.kernel_receipts.insert row).map fun table => { db with kernel_receipts := table }
def insertEffect (row : EffectRow) : Work Unit :=
  execute fun db => (db.kernel_effects.insert row).map fun table => { db with kernel_effects := table }
def insertApproval (row : ApprovalRow) : Work Unit :=
  execute fun db => (db.kernel_approvals.insert row).map fun table => { db with kernel_approvals := table }
def insertArtifact (row : ArtifactRow) : Work Unit :=
  execute fun db => (db.kernel_artifacts.insert row).map fun table => { db with kernel_artifacts := table }
def insertDelivery (row : DeliveryRow) : Work Unit :=
  execute fun db => (db.kernel_delivery.insert row).map fun table => { db with kernel_delivery := table }

/-- `UPDATE`s return the number of rows that they changed. -/
def updateReceipts (selected : ReceiptRow → Bool) (change : ReceiptRow → ReceiptRow) : Work Nat := do
  let db ← get
  execute fun db => (db.kernel_receipts.update selected change).map fun table => { db with kernel_receipts := table }
  return db.kernel_receipts.rows.countP selected
def updateApprovals (selected : ApprovalRow → Bool) (change : ApprovalRow → ApprovalRow) : Work Nat := do
  let db ← get
  execute fun db => (db.kernel_approvals.update selected change).map fun table => { db with kernel_approvals := table }
  return db.kernel_approvals.rows.countP selected
def updateDelivery (selected : DeliveryRow → Bool) (change : DeliveryRow → DeliveryRow) : Work Nat := do
  let db ← get
  execute fun db => (db.kernel_delivery.update selected change).map fun table => { db with kernel_delivery := table }
  return db.kernel_delivery.rows.countP selected

/-- `INSERT … ON CONFLICT(owner, run_id) DO UPDATE … WHERE excluded.generation >= generation`. The `CHECK`s
    of the new row come before its conflict. -/
def upsertFence (row : FenceRow) : Work Unit :=
  execute fun db =>
    if row.generation < 0 ∨ row.revision < 0 then none
    else match db.kernel_lease_fences.insert row with
    | some table => some { db with kernel_lease_fences := table }
    | none => (db.kernel_lease_fences.update (fun stored => stored.key == row.key && stored.generation ≤ row.generation)
        fun _ => row).map fun table => { db with kernel_lease_fences := table }

/-- `Ok(false)` for an effect that is already there with the same digest. -/
def apply_effect_once (owner effect_id payload_digest : String) (run_id receipt_id : Option String) (now : DateTime) :
    Work Bool := do
  Tx.check (validate_owner owner)
  Tx.check (validate_id "effect_id" effect_id 256)
  Tx.check (validate_digest payload_digest)
  let db ← get
  match db.kernel_effects.find EffectRow.key (owner,effect_id) with
  | some row => if row.payload_digest = payload_digest then return false else throw (.DuplicateEffect effect_id)
  | none =>
    insertEffect ⟨owner,effect_id,payload_digest,run_id,receipt_id,now.timestamp_millis⟩
    return true

/-! ### Receipts -/

section Receipts
variable (receipts : Receipts)

def insert_open_receipt (receipt : receipts.Receipt) : Work Unit := do
  Tx.check ((receipts.validate receipt).mapError .fromReceipt)
  Tx.require (receipts.final_status receipt == .Open && receipts.revision receipt == 1)
    (.InvalidInput "insert_open requires open revision 1")
  let body ← Tx.check ((receipts.to_canonical_json receipt).mapError fun error => .Receipt error.to_string)
  let db ← get
  Tx.require (db.kernel_receipts.find ReceiptRow.key (receipts.owner receipt,receipts.receipt_id receipt)).isNone
    (.Conflict "receipt_id already exists")
  insertReceipt ⟨receipts.owner receipt,receipts.receipt_id receipt,as_i64 (receipts.revision receipt),
    receipts.final_status receipt,
    body,(receipts.created_at receipt).timestamp_millis,(receipts.updated_at receipt).timestamp_millis⟩

def transition_receipt (owner receipt_id : String) (expected_revision : Nat) (now : DateTime)
    (mutate : receipts.Receipt → Except ReceiptError receipts.Receipt) : Work receipts.Receipt := do
  let db ← get
  let row ← Tx.required .NotFound (db.kernel_receipts.find ReceiptRow.key (owner,receipt_id))
  let actual := u64OrZero row.revision
  Tx.require (actual == expected_revision) (.StaleRevision expected_revision actual)
  Tx.require (row.final_status == .Open) .TerminalImmutable
  let stored ← Tx.check ((receipts.from_canonical_json row.body_json).mapError fun error => .Receipt error.to_string)
  Tx.require (receipts.owner stored == owner) .OwnerMismatch
  let next ← Tx.check ((mutate stored).mapError .fromReceipt)
  let revision ← Tx.check (next_revision expected_revision "revision overflow")
  let next := receipts.advance next revision now
  Tx.check ((receipts.validate next).mapError .fromReceipt)
  let json ← Tx.check ((receipts.to_canonical_json next).mapError fun error => .Receipt error.to_string)
  let n ← updateReceipts (fun row =>
    row.key == (owner,receipt_id) && row.revision == as_i64 expected_revision) fun row =>
    { row with revision := as_i64 revision, final_status := receipts.final_status next, body_json := json
               updated_at_ms := now.timestamp_millis }
  Tx.require (n == 1) (.StaleRevision expected_revision actual)
  return next

end Receipts

/-! ### Approvals -/

def ApprovalRow.decisionRecord (row : ApprovalRow) : ApprovalDecision :=
  ⟨row.owner,row.approval_id,row.receipt_id,row.run_id,row.request_digest,row.decision,row.decided_by,
    as_u64 row.bound_revision,
    row.bound_lease_owner,row.bound_generation.map as_u64,row.decided_at_ms,row.created_at_ms,row.updated_at_ms⟩

/-- `QueryReturnedNoRows` when there is none. -/
def load_approval (owner approval_id : String) : Work ApprovalDecision := do
  let db ← get
  let row ← Tx.required (.Sqlite "Query returned no rows")
    (db.kernel_approvals.find ApprovalRow.key (owner,approval_id))
  return row.decisionRecord

def record_approval_required (owner approval_id receipt_id run_id request_digest : String) (bound_revision : Nat)
    (now : DateTime) :
    Work ApprovalDecision := do
  Tx.check (validate_owner owner)
  Tx.check (validate_digest request_digest)
  let db ← get
  match db.kernel_approvals.find ApprovalRow.request (owner,receipt_id,request_digest) with
  | some row => load_approval owner row.approval_id
  | none =>
    insertApproval ⟨owner,approval_id,receipt_id,run_id,request_digest,.Pending,none,as_i64 bound_revision,
      none,none,none,
      now.timestamp_millis,now.timestamp_millis⟩
    load_approval owner approval_id

/-- A stored fence has to be the caller's. -/
def assert_optional_lease_fence (owner run_id lease_owner : String) (generation : Nat) : Work Unit := do
  let db ← get
  match db.kernel_lease_fences.find FenceRow.key (owner,run_id) with
  | none => return ()
  | some fence => Tx.require (fence.lease_owner == lease_owner &&
      u64OrZero fence.generation == generation) .ApprovalBindingMismatch

/-- The update of a pending approval that grant and deny make, with the error of the one that finds none. -/
def decidePending (owner approval_id decided_by lease_owner : String) (generation : Nat)
    (decision : ApprovalDecisionKind)
    (failed : String) (now : DateTime) : Work ApprovalDecision := do
  let n ← updateApprovals (fun row => row.key == (owner,approval_id) && row.decision == .Pending) fun row =>
    { row with decision := decision, decided_by := some decided_by, bound_lease_owner := some lease_owner
               bound_generation := some (as_i64 generation), decided_at_ms := some now.timestamp_millis
               updated_at_ms := now.timestamp_millis }
  Tx.require (n == 1) (.Conflict failed)
  load_approval owner approval_id

/-- Whether a decision was made under the same lease. -/
def ApprovalRow.boundTo (row : ApprovalRow) (expected_revision : Nat) (lease_owner : String)
    (generation : Nat) : Bool :=
  u64OrZero row.bound_revision == expected_revision && row.bound_lease_owner == some lease_owner
    && row.bound_generation.map u64OrZero == some generation

def grant_approval_in_tx (binding : ApprovalGrantBinding) (now : DateTime) : Work ApprovalDecision := do
  Tx.check (validate_owner binding.owner)
  Tx.check (validate_digest binding.request_digest)
  let db ← get
  let row ← Tx.required .NotFound
    (db.kernel_approvals.find ApprovalRow.request (binding.owner,binding.receipt_id,binding.request_digest))
  match row.decision with
  | .Denied => throw .ApprovalDeniedFinal
  | .Approved =>
    -- A retry: what was bound then has to be bound now. No fence is read.
    Tx.require (row.run_id == binding.run_id &&
      row.boundTo binding.expected_revision binding.lease_owner binding.generation)
      .ApprovalBindingMismatch
    load_approval binding.owner row.approval_id
  | .Pending =>
    Tx.require (u64OrZero row.bound_revision == binding.expected_revision) .ApprovalBindingMismatch
    Tx.require (row.run_id == binding.run_id) .ApprovalBindingMismatch
    assert_optional_lease_fence binding.owner row.run_id binding.lease_owner binding.generation
    decidePending binding.owner row.approval_id binding.decided_by binding.lease_owner binding.generation .Approved
      "approval grant CAS failed" now

def deny_approval_in_tx (binding : ApprovalDenyBinding) (now : DateTime) : Work ApprovalDecision := do
  Tx.check (validate_owner binding.owner)
  Tx.check (validate_digest binding.request_digest)
  let db ← get
  let row ← Tx.required .NotFound
    (db.kernel_approvals.find ApprovalRow.request (binding.owner,binding.receipt_id,binding.request_digest))
  match row.decision with
  | .Approved => throw (.Conflict "cannot deny an already approved decision")
  | .Denied =>
    Tx.require (row.boundTo binding.expected_revision binding.lease_owner binding.generation) .ApprovalBindingMismatch
    load_approval binding.owner row.approval_id
  | .Pending =>
    Tx.require (u64OrZero row.bound_revision == binding.expected_revision) .ApprovalBindingMismatch
    assert_optional_lease_fence binding.owner row.run_id binding.lease_owner binding.generation
    decidePending binding.owner row.approval_id binding.decided_by binding.lease_owner binding.generation .Denied
      "approval deny CAS failed" now

/-! ### Deliveries -/

/-- Moves a delivery that exists. -/
def apply_existing_delivery_event_in_tx (owner receipt_id run_id : String) (event : DeliveryEvent)
    (approval_id : Option String)
    (now : DateTime) : Work (DeliveryPhase × Nat) := do
  let db ← get
  let row ← Tx.required .NotFound (db.kernel_delivery.find DeliveryRow.key (owner,receipt_id))
  let rev := u64OrZero row.revision
  let same_run_identity := row.run_id == run_id
  let same_grant_identity := same_run_identity && row.approval_id.isSome && row.approval_id == approval_id
  let already_applied := (event == .GrantAccepted && row.phase.grant_retry_already_applied && same_grant_identity)
    || (event == .DenyAccepted && row.phase == .Denied && same_run_identity)
  if already_applied then return (row.phase,rev)
  else
    let next ← Tx.check ((transition row.phase event).mapError .fromTransition)
    if next = row.phase then
      Tx.require (!(event == .GrantAccepted && !same_grant_identity))
        (.Delivery "delivery run_id does not match approval run")
      return (row.phase,rev)
    else
      let next_rev ← Tx.check (next_revision rev "phase revision overflow")
      let n ← updateDelivery (fun stored => stored.key == (owner,receipt_id) && stored.revision == as_i64 rev &&
        stored.run_id == run_id)
        fun stored => { stored with phase := next, revision := as_i64 next_rev, approval_id := approval_id.or stored.approval_id
                                    run_id := run_id, updated_at_ms := now.timestamp_millis }
      Tx.require (n == 1) (if same_run_identity then .StaleRevision rev rev
        else .Delivery "delivery run_id does not match approval run")
      return (next,next_rev)

def grant_approval_and_transition (binding : ApprovalGrantBinding) (now : DateTime) : Work ApprovalDecision := do
  let row ← grant_approval_in_tx binding now
  let _ ← apply_existing_delivery_event_in_tx binding.owner binding.receipt_id row.run_id .GrantAccepted
    (some row.approval_id) now
  return row

def deny_approval_and_transition (binding : ApprovalDenyBinding) (now : DateTime) : Work ApprovalDecision := do
  let row ← deny_approval_in_tx binding now
  let _ ← apply_existing_delivery_event_in_tx binding.owner binding.receipt_id row.run_id .DenyAccepted none now
  return row

def set_delivery_phase (owner receipt_id run_id : String) (expected_revision : Nat) (event : DeliveryEvent)
    (approval_id : Option String) (now : DateTime) : Work (DeliveryPhase × Nat) := do
  let db ← get
  match db.kernel_delivery.find DeliveryRow.key (owner,receipt_id) with
  | none =>
    Tx.require (expected_revision == 0) (.StaleRevision expected_revision 0)
    let next ← Tx.check ((transition .Running event).mapError .fromTransition)
    insertDelivery ⟨owner,receipt_id,run_id,next,as_i64 1,approval_id,now.timestamp_millis⟩
    return (next,1)
  | some row =>
    let actual := u64OrZero row.revision
    Tx.require (actual == expected_revision) (.StaleRevision expected_revision actual)
    let next ← Tx.check ((transition row.phase event).mapError .fromTransition)
    let next_rev ← Tx.check (next_revision actual "phase revision overflow")
    let n ← updateDelivery (fun stored =>
      stored.key == (owner,receipt_id) && stored.revision == as_i64 expected_revision) fun stored =>
      { stored with phase := next, revision := as_i64 next_rev, approval_id := approval_id.or stored.approval_id
                    run_id := run_id, updated_at_ms := now.timestamp_millis }
    Tx.require (n == 1) (.StaleRevision expected_revision actual)
    return (next,next_rev)

/-- The transaction of `ensure_delivery_running` between its two reads: `INSERT OR IGNORE`. -/
def ensure_delivery_running (owner receipt_id run_id : String) (now : DateTime) : Work Unit := do
  let db ← get
  if (db.kernel_delivery.find DeliveryRow.key (owner,receipt_id)).isSome then return ()
  else insertDelivery ⟨owner,receipt_id,run_id,.Running,1,none,now.timestamp_millis⟩

/-! ### Lease fences and artifacts -/

def put_lease_fence (fence : LeaseFence) (now : DateTime) : Work Unit := do
  Tx.check (validate_owner fence.owner)
  Tx.check (validate_digest fence.policy_digest)
  let db ← get
  match db.kernel_lease_fences.find FenceRow.key (fence.owner,fence.run_id) with
  | none => pure ()
  | some existing =>
    let existing_gen := u64OrZero existing.generation
    Tx.require (!(fence.generation < existing_gen : Bool))
      (.Conflict "stale lease generation cannot overwrite newer fence")
    Tx.require (!(fence.generation == existing_gen && existing.lease_owner != fence.lease_owner))
      (.Conflict "lease_owner mismatch for same generation")
  upsertFence ⟨fence.owner,fence.run_id,fence.lease_owner,as_i64 fence.generation,as_i64 fence.revision,fence.token,
    fence.policy_digest,fence.expires_at_ms,now.timestamp_millis⟩

def put_artifact_meta (artifact : ArtifactMeta) : Work Unit := do
  Tx.check (validate_digest artifact.digest)
  let db ← get
  match db.kernel_artifacts.find ArtifactRow.key (artifact.owner,artifact.receipt_id,artifact.digest) with
  | some row =>
    Tx.require (row.path == artifact.path && as_u64 row.content_bytes == artifact.content_bytes)
      (.Conflict "artifact digest collision with different metadata")
  | none =>
    insertArtifact ⟨artifact.owner,artifact.receipt_id,artifact.digest,artifact.path,as_i64 artifact.content_bytes,
      artifact.created_at_ms⟩

/-! ### Histories -/

/-- A call that writes. The calls that only read change nothing, in no history. -/
inductive Call (receipts : Receipts) where
  | apply_effect_once (owner effect_id payload_digest : String) (run_id receipt_id : Option String)
  | insert_open_receipt (receipt : receipts.Receipt)
  | transition_receipt (owner receipt_id : String) (expected_revision : Nat)
      (mutate : receipts.Receipt → Except ReceiptError receipts.Receipt)
  | record_approval_required (owner approval_id receipt_id run_id request_digest : String) (bound_revision : Nat)
  | grant_approval (binding : ApprovalGrantBinding)
  | grant_approval_and_transition (binding : ApprovalGrantBinding)
  | deny_approval (binding : ApprovalDenyBinding)
  | deny_approval_and_transition (binding : ApprovalDenyBinding)
  | put_lease_fence (fence : LeaseFence)
  | put_artifact_meta (artifact : ArtifactMeta)
  | set_delivery_phase (owner receipt_id run_id : String) (expected_revision : Nat) (event : DeliveryEvent)
      (approval_id : Option String)
  | ensure_delivery_running (owner receipt_id run_id : String)

variable {receipts : Receipts}

/-- The transaction of a call. What it returns does not count here. -/
def Call.work (now : DateTime) : Call receipts → Work Unit
  | .apply_effect_once owner effect_id payload_digest run_id receipt_id =>
    discard (KernelStore.apply_effect_once owner effect_id payload_digest run_id receipt_id now)
  | .insert_open_receipt receipt => KernelStore.insert_open_receipt receipts receipt
  | .transition_receipt owner receipt_id expected_revision mutate =>
    discard (KernelStore.transition_receipt receipts owner receipt_id expected_revision now mutate)
  | .record_approval_required owner approval_id receipt_id run_id request_digest bound_revision =>
    discard (KernelStore.record_approval_required owner approval_id receipt_id run_id request_digest bound_revision now)
  | .grant_approval binding => discard (grant_approval_in_tx binding now)
  | .grant_approval_and_transition binding => discard (KernelStore.grant_approval_and_transition binding now)
  | .deny_approval binding => discard (deny_approval_in_tx binding now)
  | .deny_approval_and_transition binding => discard (KernelStore.deny_approval_and_transition binding now)
  | .put_lease_fence fence => KernelStore.put_lease_fence fence now
  | .put_artifact_meta artifact => KernelStore.put_artifact_meta artifact
  | .set_delivery_phase owner receipt_id run_id expected_revision event approval_id =>
    discard (KernelStore.set_delivery_phase owner receipt_id run_id expected_revision event approval_id now)
  | .ensure_delivery_running owner receipt_id run_id => KernelStore.ensure_delivery_running owner receipt_id run_id now

/-- A call at a time, and the error that SQLite or the file system answers it with, if one does. -/
structure Step (receipts : Receipts) where
  now : DateTime
  call : Call receipts
  fault : Option KernelStoreError

def perform (db : Database) (step : Step receipts) : Except KernelStoreError Unit × Database :=
  match step.fault with
  | some error => (.error error,db)
  | none => Tx.commit (step.call.work step.now) db

/-- The database behind a history. -/
def after (steps : List (Step receipts)) : Database := steps.foldl (fun db step => (perform db step).2) Database.empty

end Vyane.KernelStore
