import Vyane.KernelStore

/-!
Approvals of the kernel store: what a transaction can do to an approval and to a delivery, and how far the two combined
calls respect the approval that a delivery waits for and the lease of its run.
-/
namespace Vyane.KernelStore
open Text Times Vyane.Tables Transactions
set_option linter.unusedSimpArgs false

/-! ### Statements -/

/-- A failure may be any. -/
abbrev Achieves {α : Type} (work : Work α) (db : Database) (post : α → Database → Prop) : Prop :=
  Tx.Ensures work db post fun _ => True

variable {db : Database} {Row : Type} {now : DateTime} {binding : ApprovalGrantBinding} {phase next : DeliveryPhase}
  {approval_id : Option String} {event : DeliveryEvent}

theorem execute_achieves {statement : Tables → Option Tables} :
    Achieves (execute statement) db fun _ next => statement db.toTables = some next.toTables := by
  unfold execute
  simp only [Tx.ensures_bind,Tx.ensures_get]
  cases statement db.toTables with
  | none => simp
  | some tables =>
    dsimp only
    split <;> simp

theorem updateApprovals_achieves {selected : ApprovalRow → Bool} {change : ApprovalRow → ApprovalRow} :
    Achieves (updateApprovals selected change) db fun n next =>
      db.kernel_approvals.update selected change = some next.kernel_approvals
      ∧ next.toTables = { db.toTables with kernel_approvals := next.kernel_approvals }
      ∧ n = db.kernel_approvals.rows.countP selected := by
  unfold updateApprovals
  simp only [Tx.ensures_bind,Tx.ensures_get,Tx.ensures_pure]
  refine execute_achieves.imp (fun _ next made => ?_)
  obtain ⟨table,updated,tables⟩ := Option.map_eq_some_iff.mp made
  rw [← tables]
  exact ⟨updated,rfl,trivial⟩

theorem updateDelivery_achieves {selected : DeliveryRow → Bool} {change : DeliveryRow → DeliveryRow} :
    Achieves (updateDelivery selected change) db fun n next =>
      db.kernel_delivery.update selected change = some next.kernel_delivery
      ∧ next.toTables = { db.toTables with kernel_delivery := next.kernel_delivery }
      ∧ n = db.kernel_delivery.rows.countP selected := by
  unfold updateDelivery
  simp only [Tx.ensures_bind,Tx.ensures_get,Tx.ensures_pure]
  refine execute_achieves.imp (fun _ next made => ?_)
  obtain ⟨table,updated,tables⟩ := Option.map_eq_some_iff.mp made
  rw [← tables]
  exact ⟨updated,rfl,trivial⟩

theorem insertApproval_achieves {row : ApprovalRow} :
    Achieves (insertApproval row) db fun _ next => db.kernel_approvals.insert row = some next.kernel_approvals
      ∧ next.toTables = { db.toTables with kernel_approvals := next.kernel_approvals } := by
  refine execute_achieves.imp (fun _ next made => ?_)
  obtain ⟨table,inserted,tables⟩ := Option.map_eq_some_iff.mp made
  rw [← tables]
  exact ⟨inserted,rfl⟩

theorem approval_key_clashes (first second : ApprovalRow) (same : first.key = second.key) :
    approvalClash first second = true := by
  simp [approvalClash,same]
theorem approval_request_clashes (first second : ApprovalRow) (same : first.request = second.request) :
    approvalClash first second = true := by
  simp [approvalClash,same]
theorem delivery_key_clashes (first second : DeliveryRow) (same : first.key = second.key) :
    deliveryClash first second = true := by
  simp [deliveryClash,same]
/-- One row of a table is replaced. -/
def Replaced {Row : Type} [DecidableEq Row] (rows rows' : List Row) (row row' : Row) : Prop :=
  row ∈ rows ∧ rows' = rows.map fun other => if other = row then row' else other

section Updates
variable {Row Key : Type} {clash : Row → Row → Bool} [DecidableEq Row] {table next : Table Row clash}
    {selected : Row → Bool}
  {change : Row → Row} {key : Row → Key}

/-- An update by a key that changed one row replaced the row with the key. -/
theorem update_replaces (unique : ∀ first second, key first = key second → clash first second = true) {row : Row}
    (member : row ∈ table.rows) (keyed : ∀ other, selected other = true → key other = key row)
    (updated : table.update selected change = some next) (one : table.rows.countP selected = 1) :
    selected row = true ∧ Replaced table.rows next.rows row (change row) := by
  obtain ⟨other,there,hit⟩ := List.countP_pos_iff.mp (one ▸ Nat.one_pos)
  have same : other = row := Table.eq_of_key unique there member (keyed other hit)
  subst same
  refine ⟨hit,member,?_⟩
  rw [Table.update_rows updated]
  refine List.map_congr_left fun stored listed => ?_
  by_cases chosen : selected stored = true
  · have : stored = other := Table.eq_of_key unique listed member (keyed stored chosen)
    rw [if_pos chosen,if_pos this,this]
  · have : stored ≠ other := fun equal => chosen (equal ▸ hit)
    rw [if_neg chosen,if_neg this]

end Updates

variable {rows rows' : List Row}

theorem Replaced.kept [DecidableEq Row] {row row' other : Row}
    (replaced : Replaced rows rows' row row') (member : other ∈ rows) : other ∈ rows' ∨ other = row := by
  by_cases same : other = row
  · exact .inr same
  · refine .inl ?_
    rw [replaced.2]
    exact List.mem_map.mpr ⟨other,member,if_neg same⟩

theorem Replaced.mem [DecidableEq Row] {row row' : Row} (replaced : Replaced rows rows' row row') : row' ∈ rows' := by
  rw [replaced.2]
  exact List.mem_map.mpr ⟨row,replaced.1,if_pos rfl⟩

theorem Replaced.origin [DecidableEq Row] {row row' other : Row}
    (replaced : Replaced rows rows' row row') (member : other ∈ rows') : other ∈ rows ∨ other = row' := by
  rw [replaced.2] at member
  obtain ⟨stored,listed,made⟩ := List.mem_map.mp member
  split at made
  · exact .inr made.symm
  · exact .inl (made ▸ listed)

/-! ### Decisions -/

/-- What a grant or a deny is bound to. A deny names no run. -/
structure Verdict where
  kind : ApprovalDecisionKind
  owner : String
  receipt_id : String
  request_digest : String
  expected_revision : Nat
  run_id : Option String
  lease_owner : String
  generation : Nat

def ApprovalGrantBinding.verdict (binding : ApprovalGrantBinding) : Verdict :=
  ⟨.Approved,binding.owner,binding.receipt_id,binding.request_digest,binding.expected_revision,some binding.run_id,
    binding.lease_owner,binding.generation⟩
def ApprovalDenyBinding.verdict (binding : ApprovalDenyBinding) : Verdict :=
  ⟨.Denied,binding.owner,binding.receipt_id,binding.request_digest,binding.expected_revision,none,binding.lease_owner,
    binding.generation⟩

/-- The verdict of a call that gives one, and whether it moves the delivery too. -/
def Call.verdict {receipts : Receipts} : Call receipts → Option Verdict
  | .grant_approval binding | .grant_approval_and_transition binding => some binding.verdict
  | .deny_approval binding | .deny_approval_and_transition binding => some binding.verdict
  | _ => none

/-- The fence of a run, if one is stored, has this owner and generation. -/
def Fenced (db : Database) (owner run_id lease_owner : String) (generation : Nat) : Prop :=
  ∀ fence ∈ db.kernel_lease_fences.rows, fence.owner = owner → fence.run_id = run_id →
    fence.lease_owner = lease_owner ∧ fence.generation = generation

/-- The lease that a decision was made under. -/
def ApprovalRow.Leased (row : ApprovalRow) (lease_owner : String) (generation : Nat) : Prop :=
  row.bound_lease_owner = some lease_owner ∧ row.bound_generation.map u64OrZero = some generation

/-- A verdict is one on this approval, under the lease of its run. -/
structure Verdict.Binds (verdict : Verdict) (db : Database) (row : ApprovalRow) : Prop where
  request : row.owner = verdict.owner ∧ row.receipt_id = verdict.receipt_id ∧
    row.request_digest = verdict.request_digest
  revision : row.bound_revision = verdict.expected_revision
  run : ∀ run_id ∈ verdict.run_id, row.run_id = run_id
  fence : Fenced db row.owner row.run_id verdict.lease_owner verdict.generation

/-- An approval that was pending is decided. -/
structure Decided (verdict : Verdict) (db next : Database) (row : ApprovalRow) : Prop where
  pending : row.decision = .Pending
  binds : verdict.Binds db row
  decided : ∃ row', Replaced db.kernel_approvals.rows next.kernel_approvals.rows row row' ∧ row'.decision = verdict.kind
    ∧ row'.key = row.key ∧ row'.request = row.request ∧ row'.run_id = row.run_id ∧
      row'.bound_revision = row.bound_revision

/-- What a verdict leaves behind: the approval was decided so before, or is now. -/
structure Ruled (verdict : Verdict) (db : Database) (decision : ApprovalDecision) (next : Database)
    (row : ApprovalRow) : Prop where
  member : row ∈ db.kernel_approvals.rows
  request : row.request = (verdict.owner,verdict.receipt_id,verdict.request_digest)
  decisionRun : decision.run_id = row.run_id
  decisionId : decision.approval_id = row.approval_id
  fences : next.kernel_lease_fences = db.kernel_lease_fences
  delivery : next.kernel_delivery = db.kernel_delivery
  approvals : row.decision = verdict.kind ∧ row.Leased verdict.lease_owner verdict.generation
    ∧ next.kernel_approvals = db.kernel_approvals ∨ Decided verdict db next row

theorem load_approval_achieves {owner approval_id : String} {row : ApprovalRow}
    (member : row ∈ db.kernel_approvals.rows) (keyed : row.key = (owner,approval_id)) :
    Achieves (load_approval owner approval_id) db fun decision next => decision = row.decisionRecord ∧ next = db := by
  unfold load_approval
  have found := Table.find_of_mem approval_key_clashes member
  rw [keyed] at found
  simp [Tx.ensures_bind,Tx.ensures_map,found]

theorem fence_key_clashes (first second : FenceRow) (same : first.key = second.key) :
    fenceClash first second = true := by
  simp [fenceClash,same]

theorem Database.fence_generation (db : Database) : ∀ fence ∈ db.kernel_lease_fences.rows, 0 ≤ fence.generation := by
  have checked := db.checked
  simp only [Tables.checks,Bool.and_eq_true,List.all_eq_true,decide_eq_true_eq] at checked
  exact fun fence member => (checked.1.2 fence member).1

theorem Database.bound_revision (db : Database) : ∀ row ∈ db.kernel_approvals.rows, 0 ≤ row.bound_revision := by
  have checked := db.checked
  simp only [Tables.checks,Bool.and_eq_true,List.all_eq_true,decide_eq_true_eq] at checked
  exact fun row member => (checked.1.1.1.2 row member).1

theorem assert_optional_lease_fence_achieves {owner run_id lease_owner : String} {generation : Nat} :
    Achieves (assert_optional_lease_fence owner run_id lease_owner generation) db fun _ next =>
      next = db ∧ Fenced db owner run_id lease_owner generation := by
  unfold assert_optional_lease_fence
  simp only [Tx.ensures_bind,Tx.ensures_get]
  cases found : db.kernel_lease_fences.find FenceRow.key (owner,run_id) with
  | none =>
    refine ⟨rfl,fun fence member sameOwner sameRun => ?_⟩
    exact absurd (by rw [FenceRow.key,sameOwner,sameRun]) (Table.find_eq_none.mp found fence member)
  | some fence =>
    obtain ⟨there,keyed⟩ := Table.find_mem found
    rw [Tx.ensures_require]
    refine ⟨fun same => ⟨rfl,fun other member sameOwner sameRun => ?_⟩,fun _ => trivial⟩
    have : other = fence :=
      Table.eq_of_key fence_key_clashes member there (by rw [keyed,FenceRow.key,sameOwner,sameRun])
    subst this
    have := db.fence_generation other member
    simp only [Bool.and_eq_true,beq_iff_eq,u64OrZero] at same
    exact ⟨same.1,by omega⟩

section
variable (verdict : Verdict) {row : ApprovalRow} (member : row ∈ db.kernel_approvals.rows)
  (request : row.request = (verdict.owner,verdict.receipt_id,verdict.request_digest))
include member request
/-- What grant and deny find on an approval that was decided so before. -/
theorem decided_before_achieves (decided : row.decision = verdict.kind)
    (bound : row.boundTo verdict.expected_revision verdict.lease_owner verdict.generation = true) :
    Achieves (load_approval verdict.owner row.approval_id) db fun decision next =>
      Ruled verdict db decision next row := by
  refine (load_approval_achieves member (by rw [ApprovalRow.key,(Prod.mk.inj request).1])).imp ?_
  rintro decision next ⟨rfl,rfl⟩
  simp only [ApprovalRow.boundTo,Bool.and_eq_true,beq_iff_eq] at bound
  exact ⟨member,request,rfl,rfl,rfl,rfl,.inl ⟨decided,⟨bound.1.2,bound.2⟩,rfl⟩⟩

/-- Their update, on one that they found pending. -/
theorem decidePending_achieves {decided_by failed : String} (pending : row.decision = .Pending)
    (revision : u64OrZero row.bound_revision = verdict.expected_revision)
    (run : ∀ run_id ∈ verdict.run_id, row.run_id = run_id) :
    Achieves (assert_optional_lease_fence verdict.owner row.run_id verdict.lease_owner verdict.generation) db
      fun _ middle =>
      Achieves (decidePending verdict.owner row.approval_id decided_by verdict.lease_owner verdict.generation verdict.kind failed now)
        middle fun decision next => Ruled verdict db decision next row := by
  refine assert_optional_lease_fence_achieves.imp ?_
  rintro _ middle ⟨same,fenced⟩
  rw [same]
  have parts := request
  simp only [ApprovalRow.request,Prod.mk.injEq] at parts
  have keyed : row.key = (verdict.owner,row.approval_id) := by rw [ApprovalRow.key,parts.1]
  have nonnegative := db.bound_revision row member
  rw [u64OrZero] at revision
  have binds : verdict.Binds db row := ⟨parts,by omega,run,parts.1.symm ▸ fenced⟩
  unfold decidePending
  refine updateApprovals_achieves.bind fun n middle ⟨updated,tables,count⟩ => ?_
  rw [Tx.ensures_bind,Tx.ensures_require]
  refine ⟨fun one => ?_,fun _ => trivial⟩
  obtain ⟨-,replaced⟩ := update_replaces approval_key_clashes member
    (fun other hit => by rw [Bool.and_eq_true,beq_iff_eq] at hit; rw [hit.1,keyed]) updated (count ▸ beq_iff_eq.mp one)
  refine (load_approval_achieves replaced.mem keyed).imp ?_
  rintro decision next ⟨rfl,rfl⟩
  exact ⟨member,request,rfl,rfl,congrArg (·.kernel_lease_fences) tables,congrArg (·.kernel_delivery) tables,
    .inr ⟨pending,binds,_,replaced,rfl,rfl,rfl,rfl,rfl⟩⟩

end

theorem grant_approval_in_tx_achieves :
    Achieves (grant_approval_in_tx binding now) db fun decision next =>
      ∃ row, Ruled binding.verdict db decision next row ∧ row.run_id = binding.run_id := by
  unfold grant_approval_in_tx
  simp only [Tx.ensures_bind,Tx.ensures_check,Tx.ensures_get,Tx.ensures_required,implies_true,and_true]
  intro _ _ _ _ row found
  obtain ⟨member,request⟩ := Table.find_mem found
  cases decision : row.decision with
  | Denied => simp
  | Approved =>
    simp only [Tx.ensures_bind,Tx.ensures_require,Bool.and_eq_true,beq_iff_eq,implies_true,and_true]
    rintro ⟨sameRun,bound⟩
    exact (decided_before_achieves binding.verdict member request decision bound).imp fun _ _ ruled =>
      ⟨row,ruled,sameRun⟩
  | Pending =>
    simp only [Tx.ensures_bind,Tx.ensures_require,beq_iff_eq,implies_true,and_true]
    intro sameRevision sameRun
    refine (decidePending_achieves binding.verdict member request decision sameRevision ?_).imp
      fun _ _ decides => decides.imp fun _ _ ruled => ⟨row,ruled,sameRun⟩
    rintro run_id ⟨⟩
    exact sameRun

theorem deny_approval_in_tx_achieves {binding : ApprovalDenyBinding} :
    Achieves (deny_approval_in_tx binding now) db fun decision next => ∃ row,
      Ruled binding.verdict db decision next row := by
  unfold deny_approval_in_tx
  simp only [Tx.ensures_bind,Tx.ensures_check,Tx.ensures_get,Tx.ensures_required,implies_true,and_true]
  intro _ _ _ _ row found
  obtain ⟨member,request⟩ := Table.find_mem found
  cases decision : row.decision with
  | Approved => simp
  | Denied =>
    simp only [Tx.ensures_bind,Tx.ensures_require,implies_true,and_true]
    intro bound
    exact (decided_before_achieves binding.verdict member request decision bound).imp fun _ _ ruled => ⟨row,ruled⟩
  | Pending =>
    simp only [Tx.ensures_bind,Tx.ensures_require,beq_iff_eq,implies_true,and_true]
    intro sameRevision
    refine (decidePending_achieves binding.verdict member request decision sameRevision ?_).imp
      fun _ _ decides => decides.imp fun _ _ ruled => ⟨row,ruled⟩
    rintro run_id ⟨⟩

/-! ### Deliveries -/

theorem transition_grant (moved : transition phase .GrantAccepted = .ok next) :
    next = .Approved ∧ (phase = .ApprovalRequired ∨ phase = .Approved) := by
  cases phase <;> simp [transition,DeliveryPhase.is_terminal] at moved <;> simp [← moved]
theorem transition_deny (moved : transition phase .DenyAccepted = .ok next) :
    next = .Denied ∧ (phase = .ApprovalRequired ∨ phase = .Running) := by
  cases phase <;> simp [transition,DeliveryPhase.is_terminal] at moved <;> simp [← moved]

/-- The delivery of a combined call: it stays where the event had put it, or the event moves it. -/
structure Delivered (event : DeliveryEvent) (owner receipt_id run_id : String) (approval_id : Option String)
    (db next : Database)
    (row : DeliveryRow) : Prop where
  member : row ∈ db.kernel_delivery.rows
  key : row.owner = owner ∧ row.receipt_id = receipt_id
  approvals : next.kernel_approvals = db.kernel_approvals
  fences : next.kernel_lease_fences = db.kernel_lease_fences
  moved : next.kernel_delivery = db.kernel_delivery ∧
    (row.phase.grant_retry_already_applied = true ∧ event = .GrantAccepted
        ∨ row.phase = .Denied ∧ event = .DenyAccepted ∨ transition row.phase event = .ok row.phase)
    ∨ row.run_id = run_id ∧ ∃ row', Replaced db.kernel_delivery.rows next.kernel_delivery.rows row row'
        ∧ transition row.phase event = .ok row'.phase ∧ row'.key = row.key

theorem apply_existing_achieves {owner receipt_id run_id : String} :
    Achieves (apply_existing_delivery_event_in_tx owner receipt_id run_id event approval_id now) db fun _ next =>
      ∃ row, Delivered event owner receipt_id run_id approval_id db next row := by
  unfold apply_existing_delivery_event_in_tx
  simp only [Tx.ensures_bind,Tx.ensures_get,Tx.ensures_required,implies_true,and_true]
  intro row found
  obtain ⟨member,keyed⟩ := Table.find_mem found
  have key : row.owner = owner ∧ row.receipt_id = receipt_id := by simpa [DeliveryRow.key] using keyed
  rw [Tx.ensures_ite]
  refine ⟨fun applied => ?_,fun _ => ?_⟩
  · refine ⟨row,member,key,rfl,rfl,.inl ⟨rfl,?_⟩⟩
    simp only [Bool.or_eq_true,Bool.and_eq_true,beq_iff_eq] at applied
    rcases applied with ⟨⟨kind,retry⟩,-⟩ | ⟨⟨kind,denied⟩,-⟩
    · exact .inl ⟨retry,kind⟩
    · exact .inr (.inl ⟨denied,kind⟩)
  · simp only [Tx.ensures_bind,Tx.ensures_check,check_mapError_eq_ok,implies_true,and_true]
    intro phase moved
    rw [Tx.ensures_ite]
    refine ⟨fun same => ?_,fun _ => ?_⟩
    · simp only [Tx.ensures_bind,Tx.ensures_require,Tx.ensures_pure,implies_true,and_true]
      exact fun _ => ⟨row,member,key,rfl,rfl,.inl ⟨rfl,.inr (.inr (same ▸ moved))⟩⟩
    · simp only [Tx.ensures_bind,Tx.ensures_check,implies_true,and_true]
      intro next_rev _
      refine updateDelivery_achieves.imp ?_
      rintro n next ⟨updated,tables,count⟩
      simp only [Tx.ensures_bind,Tx.ensures_require,Tx.ensures_pure,beq_iff_eq,implies_true,and_true]
      intro one
      obtain ⟨selected,replaced⟩ := update_replaces delivery_key_clashes member
        (fun other hit => by simp only [Bool.and_eq_true,beq_iff_eq] at hit; rw [hit.1.1,keyed]) updated (count ▸ one)
      simp only [Bool.and_eq_true,beq_iff_eq] at selected
      exact ⟨row,member,key,congrArg (·.kernel_approvals) tables,congrArg (·.kernel_lease_fences) tables,
        .inr ⟨selected.2,_,replaced,moved,rfl⟩⟩

/-- A combined call that succeeds: first the verdict, then the delivery. -/
structure Combined (event : DeliveryEvent) (verdict : Verdict) (db next : Database) (row : ApprovalRow)
    (delivery : DeliveryRow) : Prop where
  ruled : ∃ decision, ∃ middle : Database, Ruled verdict db decision middle row
    ∧ middle.kernel_approvals = next.kernel_approvals ∧ middle.kernel_delivery = db.kernel_delivery
  fences : next.kernel_lease_fences = db.kernel_lease_fences
  delivered : delivery ∈ db.kernel_delivery.rows ∧ delivery.owner = verdict.owner ∧
    delivery.receipt_id = verdict.receipt_id
  moved : next.kernel_delivery = db.kernel_delivery ∧
    (delivery.phase.grant_retry_already_applied = true ∧ event = .GrantAccepted
        ∨ delivery.phase = .Denied ∧ event = .DenyAccepted ∨ transition delivery.phase event = .ok delivery.phase)
    ∨ delivery.run_id = row.run_id ∧ ∃ delivery',
      Replaced db.kernel_delivery.rows next.kernel_delivery.rows delivery delivery'
        ∧ transition delivery.phase event = .ok delivery'.phase ∧ delivery'.key = delivery.key

theorem combined_of {verdict : Verdict} {middle next : Database} {decision : ApprovalDecision} {row : ApprovalRow}
    {delivery : DeliveryRow} (ruled : Ruled verdict db decision middle row)
    (delivered : Delivered event verdict.owner verdict.receipt_id decision.run_id approval_id middle next delivery) :
    Combined event verdict db next row delivery where
  ruled := ⟨decision,middle,ruled,delivered.approvals.symm,ruled.delivery⟩
  fences := delivered.fences.trans ruled.fences
  delivered := by
    have member := delivered.member
    rw [ruled.delivery] at member
    exact ⟨member,delivered.key⟩
  moved := by
    have moved := delivered.moved
    rwa [ruled.delivery,ruled.decisionRun] at moved

theorem grant_and_transition_achieves :
    Achieves (grant_approval_and_transition binding now) db fun _ next =>
      ∃ row delivery, Combined .GrantAccepted binding.verdict db next row delivery := by
  unfold grant_approval_and_transition
  refine grant_approval_in_tx_achieves.bind ?_
  rintro decision middle ⟨row,ruled,-⟩
  refine apply_existing_achieves.bind ?_
  rintro _ next ⟨delivery,delivered⟩
  exact ⟨row,delivery,combined_of ruled delivered⟩

theorem deny_and_transition_achieves {binding : ApprovalDenyBinding} :
    Achieves (deny_approval_and_transition binding now) db fun _ next =>
      ∃ row delivery, Combined .DenyAccepted binding.verdict db next row delivery := by
  unfold deny_approval_and_transition
  refine deny_approval_in_tx_achieves.bind ?_
  rintro decision middle ⟨row,ruled⟩
  refine apply_existing_achieves.bind ?_
  rintro _ next ⟨delivery,delivered⟩
  exact ⟨row,delivery,combined_of ruled delivered⟩

/-! ### What the other calls leave alone -/

/-- A transaction that does not change a part of the database. -/
def Keeps {α β : Type} (part : Database → β) (work : Work α) : Prop :=
  ∀ db, Achieves work db fun _ next => part next = part db

section Keeps
variable {α β γ : Type} {part : Database → γ}

theorem keeps_pure (value : α) : Keeps part (pure value : Work α) := fun _ => rfl
theorem keeps_throw (error : KernelStoreError) : Keeps part (throw error : Work α) := fun _ => trivial
theorem keeps_get : Keeps part (get : Work Database) := fun _ => rfl
theorem keeps_bind {work : Work α} {rest : α → Work β} (first : Keeps part work)
    (second : ∀ value, Keeps part (rest value)) :
    Keeps part (work >>= rest) := fun db =>
  (first db).bind fun value middle same => (second value middle).imp (fun _ _ same' => same'.trans same)
theorem keeps_discard {work : Work α} (kept : Keeps part work) : Keeps part (discard work : Work PUnit) := fun db => by
  change Achieves ((fun _ => PUnit.unit) <$> work) db _
  exact Tx.ensures_map.mpr (kept db)
theorem keeps_check (result : Except KernelStoreError α) : Keeps part (Tx.check result : Work α) := fun _ =>
  (Tx.ensures_check result).mpr ⟨fun _ _ => rfl,fun _ _ => trivial⟩
theorem keeps_require (condition : Bool) (error : KernelStoreError) :
    Keeps part (Tx.require condition error : Work Unit) := fun _ =>
  (Tx.ensures_require condition error).mpr ⟨fun _ => rfl,fun _ => trivial⟩
theorem keeps_required (error : KernelStoreError) (value : Option α) : Keeps part (Tx.required error value : Work α) :=
  fun _ =>
  (Tx.ensures_required error value).mpr ⟨fun _ _ => rfl,fun _ => trivial⟩
theorem keeps_ite {condition : Prop} [Decidable condition] {first second : Work α} (yes : Keeps part first)
    (no : Keeps part second) :
    Keeps part (if condition then first else second) := by
  split
  · exact yes
  · exact no

end Keeps

def approvals (db : Database) : Table ApprovalRow approvalClash := db.kernel_approvals

section Others
variable {now : DateTime}

/-- A statement that writes another table. -/
theorem keeps_written {Other : Type} {write : Tables → Option Other} {put : Tables → Other → Tables}
    (elsewhere : ∀ tables other, (put tables other).kernel_approvals = tables.kernel_approvals) :
    Keeps approvals (execute fun tables => (write tables).map (put tables)) := fun _ =>
  execute_achieves.imp (fun _ _ made => by
    obtain ⟨other,_,same⟩ := Option.map_eq_some_iff.mp made
    exact (congrArg (·.kernel_approvals) same).symm.trans (elsewhere _ other))

theorem keeps_insertReceipt (row : ReceiptRow) : Keeps approvals (insertReceipt row) := keeps_written fun _ _ => rfl
theorem keeps_insertEffect (row : EffectRow) : Keeps approvals (insertEffect row) := keeps_written fun _ _ => rfl
theorem keeps_insertArtifact (row : ArtifactRow) : Keeps approvals (insertArtifact row) := keeps_written fun _ _ => rfl
theorem keeps_insertDelivery (row : DeliveryRow) : Keeps approvals (insertDelivery row) := keeps_written fun _ _ => rfl
theorem keeps_updateReceipts (selected : ReceiptRow → Bool) (change : ReceiptRow → ReceiptRow) :
    Keeps approvals (updateReceipts selected change) :=
  keeps_bind keeps_get fun _ => keeps_bind (keeps_written fun _ _ => rfl) fun _ => keeps_pure _
theorem keeps_updateDelivery (selected : DeliveryRow → Bool) (change : DeliveryRow → DeliveryRow) :
    Keeps approvals (updateDelivery selected change) :=
  keeps_bind keeps_get fun _ => keeps_bind (keeps_written fun _ _ => rfl) fun _ => keeps_pure _
theorem keeps_upsertFence (row : FenceRow) : Keeps approvals (upsertFence row) := fun db =>
  execute_achieves.imp (fun _ next made => by
    split at made
    · cases made
    · split at made
      · exact (congrArg (·.kernel_approvals) (Option.some.inj made)).symm
      · obtain ⟨_,_,same⟩ := Option.map_eq_some_iff.mp made
        exact (congrArg (·.kernel_approvals) same).symm)

theorem keeps_apply_effect_once (owner effect_id payload_digest : String) (run_id receipt_id : Option String) :
    Keeps approvals (apply_effect_once owner effect_id payload_digest run_id receipt_id now) := by
  refine keeps_bind (keeps_check _) fun _ => keeps_bind (keeps_check _) fun _ => keeps_bind (keeps_check _) fun _ =>
    keeps_bind keeps_get fun db => ?_
  cases db.kernel_effects.find EffectRow.key (owner,effect_id) with
  | some row => exact keeps_ite (keeps_pure _) (keeps_throw _)
  | none => exact keeps_bind (keeps_insertEffect _) fun _ => keeps_pure _

theorem keeps_insert_open_receipt (receipts : Receipts) (receipt : receipts.Receipt) :
    Keeps approvals (insert_open_receipt receipts receipt) :=
  keeps_bind (keeps_check _) fun _ => keeps_bind (keeps_require _ _) fun _ => keeps_bind (keeps_check _) fun _ =>
    keeps_bind keeps_get fun _ => keeps_bind (keeps_require _ _) fun _ => keeps_insertReceipt _

theorem keeps_transition_receipt (receipts : Receipts) (owner receipt_id : String) (expected_revision : Nat)
    (mutate : receipts.Receipt → Except ReceiptError receipts.Receipt) :
    Keeps approvals (transition_receipt receipts owner receipt_id expected_revision now mutate) :=
  keeps_bind keeps_get fun _ => keeps_bind (keeps_required _ _) fun _ => keeps_bind (keeps_require _ _) fun _ =>
    keeps_bind (keeps_require _ _) fun _ => keeps_bind (keeps_check _) fun _ => keeps_bind (keeps_require _ _) fun _ =>
    keeps_bind (keeps_check _) fun _ => keeps_bind (keeps_check _) fun _ => keeps_bind (keeps_check _) fun _ =>
    keeps_bind (keeps_check _) fun _ => keeps_bind (keeps_updateReceipts _ _) fun _ =>
      keeps_bind (keeps_require _ _) fun _ =>
    keeps_pure _

theorem keeps_put_lease_fence (fence : LeaseFence) : Keeps approvals (put_lease_fence fence now) := by
  refine keeps_bind (keeps_check _) fun _ => keeps_bind (keeps_check _) fun _ => keeps_bind keeps_get fun db => ?_
  cases db.kernel_lease_fences.find FenceRow.key (fence.owner,fence.run_id) with
  | none => exact keeps_upsertFence _
  | some row =>
      exact keeps_bind (keeps_require _ _) fun _ => keeps_bind (keeps_require _ _) fun _ => keeps_upsertFence _

theorem keeps_put_artifact_meta (artifact : ArtifactMeta) : Keeps approvals (put_artifact_meta artifact) := by
  refine keeps_bind (keeps_check _) fun _ => keeps_bind keeps_get fun db => ?_
  cases db.kernel_artifacts.find ArtifactRow.key (artifact.owner,artifact.receipt_id,artifact.digest) with
  | some row => exact keeps_require _ _
  | none => exact keeps_insertArtifact _

theorem keeps_set_delivery_phase (owner receipt_id run_id : String) (expected_revision : Nat) (event : DeliveryEvent)
    (approval_id : Option String) :
    Keeps approvals (set_delivery_phase owner receipt_id run_id expected_revision event approval_id now) := by
  refine keeps_bind keeps_get fun db => ?_
  cases db.kernel_delivery.find DeliveryRow.key (owner,receipt_id) with
  | none =>
    exact keeps_bind (keeps_require _ _) fun _ => keeps_bind (keeps_check _) fun _ =>
      keeps_bind (keeps_insertDelivery _) fun _ =>
      keeps_pure _
  | some row =>
    exact keeps_bind (keeps_require _ _) fun _ => keeps_bind (keeps_check _) fun _ =>
      keeps_bind (keeps_check _) fun _ =>
      keeps_bind (keeps_updateDelivery _ _) fun _ => keeps_bind (keeps_require _ _) fun _ => keeps_pure _

theorem keeps_ensure_delivery_running (owner receipt_id run_id : String) :
    Keeps approvals (ensure_delivery_running owner receipt_id run_id now) :=
  keeps_bind keeps_get fun _ => keeps_ite (keeps_pure _) (keeps_insertDelivery _)

end Others

/-! ### Histories -/

/-- What one call can do to the approvals. -/
inductive ApprovalChange {receipts : Receipts} (call : Call receipts) (db next : Database) : Prop where
  | kept : next.kernel_approvals = db.kernel_approvals → ApprovalChange call db next
  | recorded (row : ApprovalRow) : row.decision = .Pending →
      next.kernel_approvals.rows = db.kernel_approvals.rows ++ [row] →
      ApprovalChange call db next
  | decided (verdict : Verdict) (row : ApprovalRow) : call.verdict = some verdict → row ∈ db.kernel_approvals.rows →
      Decided verdict db next row → ApprovalChange call db next

section Histories
variable {receipts : Receipts} {db : Database} {call : Call receipts} {verdict : Verdict} {post : Database → Prop}
  {next : Database} {event : DeliveryEvent}

theorem record_approval_achieves {owner approval_id receipt_id run_id request_digest : String} {bound_revision : Nat} :
    Achieves (record_approval_required owner approval_id receipt_id run_id request_digest bound_revision now) db
      fun _ next =>
      next.kernel_approvals = db.kernel_approvals
      ∨ ∃ row, next.kernel_approvals.rows = db.kernel_approvals.rows ++ [row] ∧ row.decision = .Pending := by
  have loads (id : String) : Keeps approvals (load_approval owner id) :=
    keeps_bind keeps_get fun _ => keeps_bind (keeps_required _ _) fun _ => keeps_pure _
  unfold record_approval_required
  simp only [Tx.ensures_bind,Tx.ensures_check,Tx.ensures_get,implies_true,and_true]
  intro _ _ _ _
  cases db.kernel_approvals.find ApprovalRow.request (owner,receipt_id,request_digest) with
  | some row => exact (loads row.approval_id db).imp (fun _ _ same => .inl same)
  | none =>
    refine insertApproval_achieves.bind ?_
    rintro _ middle ⟨inserted,-⟩
    refine (loads approval_id middle).imp (fun _ next same => .inr ?_)
    rw [show next.kernel_approvals = middle.kernel_approvals from same]
    exact ⟨_,Table.insert_rows inserted,rfl⟩

theorem Ruled.change {decision : ApprovalDecision} {middle : Database} {row : ApprovalRow}
    (ruled : Ruled verdict db decision middle row) (given : call.verdict = some verdict)
    (same : middle.kernel_approvals = next.kernel_approvals) : ApprovalChange call db next := by
  rcases ruled.approvals with ⟨-,-,unchanged⟩ | ⟨pending,binds,decided⟩
  · exact .kept (same.symm.trans unchanged)
  · exact .decided verdict row given ruled.member ⟨pending,binds,same ▸ decided⟩

theorem discard_achieves {α : Type} {work : Work α} (achieves : Achieves work db fun _ next => post next) :
    Achieves (discard work : Work PUnit) db fun _ next => post next := by
  change Achieves ((fun _ => PUnit.unit) <$> work) db _
  exact Tx.ensures_map.mpr achieves

theorem work_changes (now : DateTime) (call : Call receipts) : Achieves (call.work now) db fun _ next =>
    ApprovalChange call db next := by
  have keeps {α : Type} {work : Work α} (kept : Keeps approvals work) :
    Achieves work db fun _ next => ApprovalChange call db next :=
    (kept db).imp (fun _ _ same => .kept same)
  cases call with
  | apply_effect_once => exact keeps (keeps_discard (keeps_apply_effect_once _ _ _ _ _))
  | insert_open_receipt => exact keeps (keeps_insert_open_receipt _ _)
  | transition_receipt => exact keeps (keeps_discard (keeps_transition_receipt _ _ _ _ _))
  | record_approval_required =>
    refine discard_achieves (record_approval_achieves.imp ?_)
    rintro _ next (same | ⟨row,appended,pending⟩)
    · exact .kept same
    · exact .recorded row pending appended
  | grant_approval binding =>
    refine discard_achieves (grant_approval_in_tx_achieves.imp ?_)
    rintro decision next ⟨row,ruled,-⟩
    exact ruled.change rfl rfl
  | grant_approval_and_transition binding =>
    refine discard_achieves (grant_and_transition_achieves.imp ?_)
    rintro _ next ⟨row,delivery,combined⟩
    obtain ⟨decision,middle,ruled,same,-⟩ := combined.ruled
    exact ruled.change rfl same
  | deny_approval binding =>
    refine discard_achieves (deny_approval_in_tx_achieves.imp ?_)
    rintro decision next ⟨row,ruled⟩
    exact ruled.change rfl rfl
  | deny_approval_and_transition binding =>
    refine discard_achieves (deny_and_transition_achieves.imp ?_)
    rintro _ next ⟨row,delivery,combined⟩
    obtain ⟨decision,middle,ruled,same,-⟩ := combined.ruled
    exact ruled.change rfl same
  | put_lease_fence => exact keeps (keeps_put_lease_fence _)
  | put_artifact_meta => exact keeps (keeps_put_artifact_meta _)
  | set_delivery_phase => exact keeps (keeps_discard (keeps_set_delivery_phase _ _ _ _ _ _))
  | ensure_delivery_running => exact keeps (keeps_ensure_delivery_running _ _ _)

/-- What a step that succeeds achieves; one that fails changes nothing. -/
theorem perform_cases (step : Step receipts)
    (achieves : Achieves (step.call.work step.now) db fun _ next => post next) :
    (perform db step).1 = .ok () ∧ post (perform db step).2
    ∨ (∃ error, (perform db step).1 = .error error) ∧ (perform db step).2 = db := by
  unfold perform
  cases step.fault with
  | some error => exact .inr ⟨⟨error,rfl⟩,rfl⟩
  | none =>
    rcases Tx.commit_cases achieves with ⟨value,next,committed,holds⟩ | ⟨error,rolled,-⟩
    · exact .inl ⟨by rw [committed],by rw [committed]; exact holds⟩
    · exact .inr ⟨⟨error,by rw [rolled]⟩,by rw [rolled]⟩

theorem perform_changes (db : Database) (step : Step receipts) : ApprovalChange step.call db (perform db step).2 := by
  rcases perform_cases step (work_changes step.now step.call) with ⟨-,changed⟩ | ⟨-,same⟩
  · exact changed
  · rw [same]
    exact .kept rfl

/-- One call keeps an approval, or decides it while it is pending. -/
theorem ApprovalChange.row (change : ApprovalChange call db next) {row : ApprovalRow}
    (member : row ∈ db.kernel_approvals.rows) : row ∈ next.kernel_approvals.rows ∨ row.decision = .Pending ∧ ∃ verdict,
      call.verdict = some verdict ∧ verdict.Binds db row ∧ ∃ row' ∈ next.kernel_approvals.rows,
        row'.key = row.key ∧ row'.decision = verdict.kind := by
  cases change with
  | kept same => exact .inl (same ▸ member)
  | recorded new pending appended => exact .inl (appended ▸ List.mem_append_left _ member)
  | decided verdict decidedRow given listed decided =>
    obtain ⟨row',replaced,kind,key,-⟩ := decided.decided
    rcases replaced.kept member with still | rfl
    · exact .inl still
    · exact .inr ⟨decided.pending,verdict,given,decided.binds,row',replaced.mem,key,kind⟩

theorem ApprovalChange.origin (change : ApprovalChange call db next) {row' : ApprovalRow}
    (member : row' ∈ next.kernel_approvals.rows) : (∃ row ∈ db.kernel_approvals.rows, row.key = row'.key) ∨
      row'.decision = .Pending := by
  cases change with
  | kept same => exact .inl ⟨row',same ▸ member,rfl⟩
  | recorded new pending appended =>
    rw [appended] at member
    rcases List.mem_append.mp member with old | added
    · exact .inl ⟨row',old,rfl⟩
    · exact .inr (List.mem_singleton.mp added ▸ pending)
  | decided verdict row given listed decided =>
    obtain ⟨decidedRow,replaced,-,key,-⟩ := decided.decided
    rcases replaced.origin member with old | rfl
    · exact .inl ⟨row',old,rfl⟩
    · exact .inl ⟨row,listed,key.symm⟩

/-- A decided approval stays as it is through any history. -/
theorem decided_stays {row : ApprovalRow} (decided : row.decision ≠ .Pending) (later : List (Step receipts)) :
    ∀ db : Database, row ∈ db.kernel_approvals.rows →
      row ∈ (later.foldl (fun db step => (perform db step).2) db).kernel_approvals.rows := by
  induction later with
  | nil => exact fun _ member => member
  | cons step later ih =>
    intro db member
    refine ih _ ?_
    rcases (perform_changes db step).row member with still | ⟨pending,-⟩
    · exact still
    · exact absurd pending decided

/-- A phase follows another. -/
def Moves (phase next : DeliveryPhase) : Prop := ∃ event, transition phase event = .ok next

theorem granted_reached (granted : phase.grant_retry_already_applied = true) :
    Relation.ReflTransGen Moves .Approved phase := by
  cases phase with
  | Approved => exact .refl
  | Resuming => exact .single ⟨.ResumeStarted,rfl⟩
  | Verified => exact .single ⟨.Verified,rfl⟩
  | Completed => exact .single ⟨.Complete,rfl⟩
  | Running | ApprovalRequired | Denied | Failed | Cancelled => cases granted

/-- The approval that a combined call leaves decided. -/
theorem Combined.approval {row : ApprovalRow} {delivery : DeliveryRow}
    (combined : Combined event verdict db next row delivery) : ∃ row' ∈ next.kernel_approvals.rows,
      row'.request = (verdict.owner,verdict.receipt_id,verdict.request_digest) ∧ row'.decision = verdict.kind := by
  obtain ⟨decision,middle,ruled,same,-⟩ := combined.ruled
  rw [← same]
  rcases ruled.approvals with ⟨kind,-,unchanged⟩ | ⟨-,-,row',replaced,kind,-,request,-⟩
  · exact ⟨row,unchanged ▸ ruled.member,ruled.request,kind⟩
  · exact ⟨row',replaced.mem,request.trans ruled.request,kind⟩

/-- The delivery that it leaves behind. -/
theorem Combined.delivery {row : ApprovalRow} {delivery : DeliveryRow}
    (combined : Combined event verdict db next row delivery) : ∃ delivery' ∈ next.kernel_delivery.rows,
      delivery'.key = (verdict.owner,verdict.receipt_id) ∧
        (delivery'.phase.grant_retry_already_applied = true ∧ event = .GrantAccepted
        ∨ delivery'.phase = .Denied ∧ event = .DenyAccepted ∨
          transition delivery.phase event = .ok delivery'.phase) := by
  obtain ⟨member,owner,receipt⟩ := combined.delivered
  have key : delivery.key = (verdict.owner,verdict.receipt_id) := by rw [DeliveryRow.key,owner,receipt]
  rcases combined.moved with ⟨same,stayed⟩ | ⟨-,delivery',replaced,moved,key'⟩
  · exact ⟨delivery,same ▸ member,key,stayed⟩
  · exact ⟨delivery',replaced.mem,key'.trans key,.inr (.inr moved)⟩

end Histories

/-- The verdict of a call that moves the delivery together with its approval. -/
def Call.moves {receipts : Receipts} : Call receipts → Option (DeliveryEvent × Verdict)
  | .grant_approval_and_transition binding => some (.GrantAccepted,binding.verdict)
  | .deny_approval_and_transition binding => some (.DenyAccepted,binding.verdict)
  | _ => none

section Combined
variable {receipts : Receipts} {db : Database} {event : DeliveryEvent} {verdict : Verdict}

theorem moves_achieves {call : Call receipts} (combined : call.moves = some (event,verdict)) :
    Achieves (call.work now) db fun _ next => ∃ row delivery, Combined event verdict db next row delivery := by
  cases call with
  | grant_approval_and_transition binding =>
    cases combined
    exact discard_achieves (grant_and_transition_achieves.imp (fun _ _ made => made))
  | deny_approval_and_transition binding =>
    cases combined
    exact discard_achieves (deny_and_transition_achieves.imp (fun _ _ made => made))
  | _ => cases combined

theorem moves_kind {call : Call receipts} (combined : call.moves = some (event,verdict)) :
    event = .GrantAccepted ∧ verdict.kind = .Approved ∨ event = .DenyAccepted ∧ verdict.kind = .Denied := by
  cases call with
  | grant_approval_and_transition binding => cases combined; exact .inl ⟨rfl,rfl⟩
  | deny_approval_and_transition binding => cases combined; exact .inr ⟨rfl,rfl⟩
  | _ => cases combined

/-- A delivery whose phase a combined call changed is that of its verdict, in the run of the approval. -/
theorem moved_delivery {step : Step receipts}
    (combined : step.call.moves = some (event,verdict)) {delivery delivery' : DeliveryRow}
    (before : delivery ∈ db.kernel_delivery.rows) (later : delivery' ∈ (perform db step).2.kernel_delivery.rows)
    (same : delivery'.key = delivery.key) (changed : delivery'.phase ≠ delivery.phase) :
    ∃ row, Combined event verdict db (perform db step).2 row delivery ∧ delivery.run_id = row.run_id := by
  have unmoved (there : delivery' ∈ db.kernel_delivery.rows) : False :=
    changed (congrArg _ (Table.eq_of_key delivery_key_clashes there before same))
  rcases perform_cases step (moves_achieves combined) with ⟨-,row,moved,made⟩ | ⟨-,unchanged⟩
  · rcases made.moved with ⟨kept,-⟩ | ⟨sameRun,moved',replaced,-,key⟩
    · exact (unmoved (kept ▸ later)).elim
    · rcases replaced.origin later with there | rfl
      · exact (unmoved there).elim
      · have : moved = delivery := Table.eq_of_key delivery_key_clashes made.delivered.1 before (key.symm.trans same)
        subst this
        exact ⟨row,made,sameRun⟩
  · exact (unmoved (unchanged ▸ later)).elim

end Combined

/-- Approvals over any history: a call decides an approval only while it is pending and only by a verdict that is bound
    to it, what is decided stays as it is, and a combined call decides and moves or changes nothing. -/
theorem approvals_are_final (receipts : Receipts) (steps : List (Step receipts)) (step : Step receipts) :
    (∀ row ∈ (after steps).kernel_approvals.rows, row ∈ (perform (after steps) step).2.kernel_approvals.rows
      ∨ row.decision = .Pending ∧ ∃ verdict, step.call.verdict = some verdict ∧ verdict.Binds (after steps) row
        ∧ ∃ row' ∈ (perform (after steps) step).2.kernel_approvals.rows, row'.key = row.key ∧
          row'.decision = verdict.kind)
    ∧ (∀ row' ∈ (perform (after steps) step).2.kernel_approvals.rows,
        (∃ row ∈ (after steps).kernel_approvals.rows, row.key = row'.key) ∨ row'.decision = .Pending)
    ∧ (∀ row ∈ (after steps).kernel_approvals.rows, row.decision ≠ .Pending → ∀ later : List (Step receipts),
        row ∈ (after (steps ++ later)).kernel_approvals.rows)
    ∧ (∀ event verdict, step.call.moves = some (event,verdict) →
        (∀ error, (perform (after steps) step).1 = .error error → (perform (after steps) step).2 = after steps)
        ∧ ((perform (after steps) step).1 = .ok () →
          (∃ row ∈ (perform (after steps) step).2.kernel_approvals.rows,
            row.request = (verdict.owner,verdict.receipt_id,verdict.request_digest) ∧ row.decision = verdict.kind)
          ∧ ∃ delivery ∈ (perform (after steps) step).2.kernel_delivery.rows, delivery.key =
            (verdict.owner,verdict.receipt_id)
            ∧ (verdict.kind = .Approved ∧ Relation.ReflTransGen Moves .Approved delivery.phase
              ∨ verdict.kind = .Denied ∧ delivery.phase = .Denied))) := by
  have changes := perform_changes (after steps) step
  refine ⟨fun row member => changes.row member,fun row' member => changes.origin member,?_,?_⟩
  · intro row member decided later
    rw [after,List.foldl_append]
    exact decided_stays decided later _ member
  · intro event verdict combined
    rcases perform_cases step (moves_achieves combined) with ⟨ok,row,delivery,made⟩ | ⟨⟨error,failed⟩,same⟩
    · refine ⟨fun error failed => absurd (failed.symm.trans ok) (by simp),fun _ => ⟨made.approval,?_⟩⟩
      obtain ⟨delivery',member,key,reached⟩ := made.delivery
      refine ⟨delivery',member,key,?_⟩
      rcases moves_kind combined with ⟨rfl,kind⟩ | ⟨rfl,kind⟩
      · refine .inl ⟨kind,?_⟩
        rcases reached with ⟨granted,-⟩ | ⟨-,other⟩ | moved
        · exact granted_reached granted
        · cases other
        · rw [(transition_grant moved).1]
      · refine .inr ⟨kind,?_⟩
        rcases reached with ⟨-,other⟩ | ⟨denied,-⟩ | moved
        · cases other
        · exact denied
        · exact (transition_deny moved).1
    · exact ⟨fun _ _ => same,fun ok => absurd (failed.symm.trans ok) (by simp)⟩

/-- The approval that a delivery names is the only one of its receipt and run. -/
def SoleApproval (db : Database) (delivery : DeliveryRow) (named : String) : Prop :=
  ∃ row ∈ db.kernel_approvals.rows, row.key = (delivery.owner,named) ∧ row.receipt_id = delivery.receipt_id ∧
    row.run_id = delivery.run_id
    ∧ ∀ other ∈ db.kernel_approvals.rows, other.owner = delivery.owner → other.receipt_id = delivery.receipt_id →
      other.run_id = delivery.run_id → other = row

/-- A delivery that waits for the only approval of its receipt and run is moved by that approval only. -/
theorem sole_approval_moves_its_delivery (receipts : Receipts) (steps : List (Step receipts)) (step : Step receipts)
    (event : DeliveryEvent) (verdict : Verdict) (combined : step.call.moves = some (event,verdict))
    (delivery : DeliveryRow) (named : String) (stored : delivery ∈ (after steps).kernel_delivery.rows)
    (waiting : delivery.phase = .ApprovalRequired) (names : delivery.approval_id = some named)
    (sole : SoleApproval (after steps) delivery named) :
    ∀ delivery' ∈ (perform (after steps) step).2.kernel_delivery.rows, delivery'.key = delivery.key →
      delivery'.phase = .Approved ∨ delivery'.phase = .Denied →
      ∃ row ∈ (after steps).kernel_approvals.rows, row.request =
        (verdict.owner,verdict.receipt_id,verdict.request_digest)
        ∧ delivery.approval_id = some row.approval_id := by
  intro delivery' member same decided
  have changed : delivery'.phase ≠ delivery.phase := by
    rw [waiting]
    rcases decided with phase | phase <;> rw [phase] <;> decide
  obtain ⟨row,made,sameRun⟩ := moved_delivery combined stored member same changed
  obtain ⟨decision,middle,ruled,-⟩ := made.ruled
  obtain ⟨-,owner,receipt⟩ := made.delivered
  obtain ⟨only,-,key,-,-,unique⟩ := sole
  have request := ruled.request
  simp only [ApprovalRow.request,Prod.mk.injEq] at request
  have sameRow : row = only :=
    unique row ruled.member (request.1.trans owner.symm) (request.2.1.trans receipt.symm) sameRun.symm
  refine ⟨row,ruled.member,ruled.request,?_⟩
  rw [names,sameRow]
  simp only [ApprovalRow.key,Prod.mk.injEq] at key
  rw [key.2]

/-- An approval that is not decided yet, or was decided under the lease that its run has. -/
def ApprovalRow.Current (db : Database) (row : ApprovalRow) : Prop :=
  row.decision = .Pending
  ∨ ∀ lease_owner generation, row.Leased lease_owner generation → Fenced db row.owner row.run_id lease_owner generation

/-- A verdict that moves a delivery does so under the fence of its run exactly if the approval it finds is current. -/
theorem verdict_moves_under_the_fence (receipts : Receipts) (steps : List (Step receipts)) (step : Step receipts)
    (event : DeliveryEvent) (verdict : Verdict) (combined : step.call.moves = some (event,verdict)) :
    ∀ delivery ∈ (after steps).kernel_delivery.rows, ∀ delivery' ∈ (perform (after steps) step).2.kernel_delivery.rows,
      delivery'.key = delivery.key → delivery'.phase ≠ delivery.phase →
      (Fenced (after steps) delivery.owner delivery.run_id verdict.lease_owner verdict.generation ↔
        ∀ row ∈ (after steps).kernel_approvals.rows,
          row.request = (verdict.owner,verdict.receipt_id,verdict.request_digest) → row.Current (after steps)) := by
  intro delivery stored delivery' member same changed
  obtain ⟨row,made,sameRun⟩ := moved_delivery combined stored member same changed
  obtain ⟨decision,middle,ruled,-⟩ := made.ruled
  have owner : row.owner = delivery.owner := (Prod.mk.inj ruled.request).1.trans made.delivered.2.1.symm
  rw [sameRun,← owner]
  rcases ruled.approvals with ⟨decided,leased,-⟩ | ⟨pending,binds,-⟩
  · constructor
    · intro fenced other listed asked
      rw [Table.eq_of_key approval_request_clashes listed ruled.member (asked.trans ruled.request.symm)]
      refine .inr fun lease_owner generation again => ?_
      rwa [Option.some.inj (again.1.symm.trans leased.1),Option.some.inj (again.2.symm.trans leased.2)]
    · intro current
      rcases current row ruled.member ruled.request with waiting | fenced
      · rw [waiting] at decided
        rcases moves_kind combined with ⟨-,kind⟩ | ⟨-,kind⟩ <;> rw [kind] at decided <;> cases decided
      · exact fenced _ _ leased
  · refine iff_of_true binds.fence fun other listed asked => .inl ?_
    rw [Table.eq_of_key approval_request_clashes listed ruled.member (asked.trans ruled.request.symm)]
    exact pending

/-! ### Two requests for one run -/

/-- No history here has a receipt in it. -/
def noReceipts : Receipts :=
  ⟨Empty,nofun,nofun,nofun,nofun,nofun,nofun,nofun,nofun,nofun,fun _ => .error .OwnerMismatch⟩
def stepOf (call : Call noReceipts) : Step noReceipts := ⟨DateTime.atMillis 0,call,none⟩
def digestOf (c : Char) : String := String.ofList (List.replicate 64 c)
/-- A delivery that asks for its first request. -/
def asked : List (Step noReceipts) :=
  [stepOf (.record_approval_required "owner" "first" "receipt" "run" (digestOf 'a') 1),
    stepOf (.set_delivery_phase "owner" "receipt" "run" 0 .AskRequired (some "first"))]
def secondRequest : Step noReceipts :=
  stepOf (.record_approval_required "owner" "second" "receipt" "run" (digestOf 'b') 1)
def grantOf (c : Char) (lease_owner : String) (generation : Nat) : ApprovalGrantBinding :=
  ⟨"owner","receipt","run",digestOf c,1,lease_owner,generation,"operator"⟩
def denyOf (c : Char) (lease_owner : String) (generation : Nat) : ApprovalDenyBinding :=
  ⟨"owner","receipt",digestOf c,1,lease_owner,generation,"operator"⟩
/-- The phases of the deliveries with the approvals that they name. -/
def waits (db : Database) : List (DeliveryPhase × Option String) :=
  db.kernel_delivery.rows.map fun row => (row.phase,row.approval_id)
def verdicts (db : Database) : List (String × ApprovalDecisionKind) :=
  db.kernel_approvals.rows.map fun row => (row.approval_id,row.decision)
def leases (db : Database) : List (String × Int) :=
  db.kernel_lease_fences.rows.map fun row => (row.lease_owner,row.generation)

/-- Granting or denying the second request moves the delivery that waits for the first. -/
theorem another_approval_moves_the_delivery :
    waits (after (asked ++ [secondRequest])) = [(.ApprovalRequired,some "first")]
    ∧ (waits (after (asked ++ [secondRequest,stepOf (.grant_approval_and_transition (grantOf 'b' "holder" 1))]))
        = [(.Approved,some "second")]
      ∧ verdicts (after (asked ++ [secondRequest,stepOf (.grant_approval_and_transition (grantOf 'b' "holder" 1))]))
        = [("first",.Pending),("second",.Approved)])
    ∧ waits (after (asked ++ [secondRequest,stepOf (.deny_approval_and_transition (denyOf 'b' "holder" 1))]))
        = [(.Denied,some "first")]
      ∧ verdicts (after (asked ++ [secondRequest,stepOf (.deny_approval_and_transition (denyOf 'b' "holder" 1))]))
        = [("first",.Pending),("second",.Denied)] := by
  decide +kernel

def waitingRow : DeliveryRow := ⟨"owner","receipt","run",.ApprovalRequired,1,some "first",0⟩
def grantedRow : DeliveryRow := ⟨"owner","receipt","run",.Approved,2,some "first",0⟩

/-- With one request the grant that moves the delivery is its own. -/
theorem own_approval_moves_the_delivery :
    grantedRow ∈ (perform (after asked)
      (stepOf (.grant_approval_and_transition (grantOf 'a' "holder" 1)))).2.kernel_delivery.rows
    ∧ ∃ row ∈ (after asked).kernel_approvals.rows, row.request = ("owner","receipt",digestOf 'a')
        ∧ some "first" = some row.approval_id := by
  have moved : grantedRow ∈ (perform (after asked)
      (stepOf (.grant_approval_and_transition (grantOf 'a' "holder" 1)))).2.kernel_delivery.rows := by decide +kernel
  have sole : SoleApproval (after asked) waitingRow "first" := by
    unfold SoleApproval
    decide +kernel
  exact ⟨moved,sole_approval_moves_its_delivery noReceipts asked
    (stepOf (.grant_approval_and_transition (grantOf 'a' "holder" 1)))
    .GrantAccepted _ rfl waitingRow "first" (by decide +kernel) rfl rfl sole grantedRow moved rfl (.inl rfl)⟩

def fenceOf (lease_owner : String) (generation : Nat) : Step noReceipts :=
  stepOf (.put_lease_fence ⟨"owner","run",lease_owner,generation,1,"token",digestOf 'c',none⟩)

/-- A grant that was recorded under the first lease moves the delivery when the lease is another's. -/
theorem old_lease_moves_the_delivery :
    waits (after (fenceOf "holder" 1 :: asked ++ [stepOf (.grant_approval (grantOf 'a' "holder" 1)),
      fenceOf "successor" 2]))
      = [(.ApprovalRequired,some "first")]
    ∧ waits (after (fenceOf "holder" 1 :: asked ++ [stepOf (.grant_approval (grantOf 'a' "holder" 1)),
      fenceOf "successor" 2,
        stepOf (.grant_approval_and_transition (grantOf 'a' "holder" 1))])) = [(.Approved,some "first")]
    ∧ leases (after (fenceOf "holder" 1 :: asked ++ [stepOf (.grant_approval (grantOf 'a' "holder" 1)),
      fenceOf "successor" 2,
        stepOf (.grant_approval_and_transition (grantOf 'a' "holder" 1))])) = [("successor",2)] := by
  decide +kernel

/-- A grant of a pending approval moves the delivery under the fence. -/
theorem current_lease_moves_the_delivery :
    grantedRow ∈ (perform (after (fenceOf "holder" 1 :: asked))
      (stepOf (.grant_approval_and_transition (grantOf 'a' "holder" 1)))).2.kernel_delivery.rows
    ∧ Fenced (after (fenceOf "holder" 1 :: asked)) "owner" "run" "holder" 1 := by
  have moved : grantedRow ∈ (perform (after (fenceOf "holder" 1 :: asked))
      (stepOf (.grant_approval_and_transition (grantOf 'a' "holder" 1)))).2.kernel_delivery.rows := by decide +kernel
  have pending : ∀ row ∈ (after (fenceOf "holder" 1 :: asked)).kernel_approvals.rows, row.decision = .Pending := by
    decide +kernel
  exact ⟨moved,(verdict_moves_under_the_fence noReceipts (fenceOf "holder" 1 :: asked)
    (stepOf (.grant_approval_and_transition (grantOf 'a' "holder" 1))) .GrantAccepted _ rfl waitingRow
    (by decide +kernel) grantedRow moved rfl (by decide)).mpr fun row member _ => .inl (pending row member)⟩

end Vyane.KernelStore
