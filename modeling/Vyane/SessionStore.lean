import Vyane.RoutingModel
import Vyane.Transactions

/-!
The file store of sessions (`vyane-ledger/src/session.rs`), for one owner and one session: the record in the owner's
namespace and the flat record of the old layout. A call runs under the locks of the session; what the file system
decides in it is an `Occasion`.
-/
namespace Vyane.SessionStore
open Vyane.Core Times Text Kernel

def MAX_OWNER_BYTES : Nat := 256
def MAX_SESSION_ID_BYTES : Nat := 1024
def MAX_NATIVE_SESSION_ID_BYTES : Nat := 512
def MAX_DOMAIN_TEXT_BYTES : Nat := 512
def MAX_CANONICAL_WORKDIR_BYTES : Nat := 4 * 1024
def SESSION_ENVELOPE_SCHEMA : Nat := 2
def MAX_SESSION_RECORD_BYTES : Nat := 64 * 1024 * 1024

/-! ### Envelopes -/

/-- What a session file holds. -/
structure SessionEnvelope where
  schema : Nat
  record : SessionRecord
  session_revision : Nat
  native_session : NativeSessionState
deriving DecidableEq, Repr

namespace SessionEnvelope
/-- The envelope of a record of the old layout. -/
def legacy (record : SessionRecord) : SessionEnvelope where
  schema := SESSION_ENVELOPE_SCHEMA
  record := { record with native_session_id := none }
  session_revision := 0
  native_session := record.native_session_id.elim .Absent .LegacyUnbound

def binding (envelope : SessionEnvelope) : Option NativeSessionBinding :=
  match envelope.native_session with
  | .Absent | .LegacyUnbound _ => none
  | .Bound binding => some binding
def legacy_unbound_id (envelope : SessionEnvelope) : Option String :=
  match envelope.native_session with
  | .LegacyUnbound native_session_id => some native_session_id
  | .Absent | .Bound _ => none

def public_record (envelope : SessionEnvelope) : SessionRecord :=
  match envelope.native_session with
  | .LegacyUnbound native_session_id => { envelope.record with native_session_id := some native_session_id }
  | .Absent | .Bound _ => envelope.record
def into_legacy_record (envelope : SessionEnvelope) : Result SessionRecord :=
  match envelope.native_session with
  | .Bound _ =>
    .error (.unsupported "domain-bound session requires load_snapshot until native resume authority is implemented")
  | .Absent | .LegacyUnbound _ => .ok envelope.public_record
def into_snapshot (envelope : SessionEnvelope) : SessionSnapshot :=
  ⟨envelope.public_record,envelope.session_revision,envelope.native_session⟩

end SessionEnvelope

/-- A kind is written as its name and read from it. -/
def reread (kind : HarnessKind) : HarnessKind := Routing.harness_kind kind.as_str
def rereadTarget (target : Target) : Target := { target with harness := target.harness.map reread }
def rereadRecord (record : SessionRecord) : SessionRecord := { record with target := rereadTarget record.target }
def rereadBinding (binding : NativeSessionBinding) : NativeSessionBinding :=
  { binding with domain := { binding.domain with harness := reread binding.domain.harness } }
def rereadNative : NativeSessionState → NativeSessionState
  | .Absent => .Absent
  | .LegacyUnbound native_session_id => .LegacyUnbound native_session_id
  | .Bound binding => .Bound (rereadBinding binding)
def SessionEnvelope.reread (envelope : SessionEnvelope) : SessionEnvelope :=
  { envelope with record := rereadRecord envelope.record, native_session := rereadNative envelope.native_session }
def targetValue (protocol : Json.Value) (target : Target) : Json.Value :=
  .Object [("harness",target.harness.elim .Null fun kind => .String kind.as_str),("model",.String target.model),
    ("protocol",protocol),("provider",.String target.provider)]

/-- The document of an envelope whose record has no native id, which would be a field of its own. -/
def SessionEnvelope.to_value (protocolValue : Protocol → Json.Value) (transcriptValue : List ChatMessage → Json.Value)
    (timeValue : DateTime → Json.Value) (nativeValue : NativeSessionState → Json.Value)
    (envelope : SessionEnvelope) : Json.Value :=
  .Object [("native_session",nativeValue envelope.native_session),("schema",.Number (toString envelope.schema)),
    ("session",.Object [("created_at",timeValue envelope.record.created_at),("owner",.String envelope.record.owner),
      ("run_count",.Number (toString envelope.record.run_count)),("session_id",.String envelope.record.session_id),
      ("target",targetValue (protocolValue envelope.record.target.protocol) envelope.record.target),
      ("transcript",transcriptValue envelope.record.transcript),("updated_at",timeValue envelope.record.updated_at)]),
    ("session_revision",.Number (toString envelope.session_revision))]

/-- What the store uses of `serde_json`, `sha2` and the file system. A document that was written reads back, with each
    harness made from its name. -/
structure System where
  root : String
  /-- The largest length of a file name. -/
  nameMax : Nat
  sha256 : List UInt8 → List UInt8
  Bytes : Type
  len : Bytes → Nat
  envelopeToVec : SessionEnvelope → Bytes
  valueFromSlice : Bytes → Option Json.Value
  envelopeFromSlice : Bytes → Option SessionEnvelope
  recordFromSlice : Bytes → Option SessionRecord
  protocolValue : Protocol → Json.Value
  transcriptValue : List ChatMessage → Json.Value
  timeValue : DateTime → Json.Value
  nativeValue : NativeSessionState → Json.Value
  sha256Length (bytes : List UInt8) : (sha256 bytes).length = 32
  valueWritten {envelope : SessionEnvelope} : envelope.record.native_session_id = none →
    valueFromSlice (envelopeToVec envelope) =
    some (envelope.to_value protocolValue transcriptValue timeValue nativeValue)
  envelopeWritten (envelope : SessionEnvelope) : envelopeFromSlice (envelopeToVec envelope) = some envelope.reread

variable (sys : System)

/-! ### Checks -/

/-- A check that fails with an error. -/
def ensure (condition : Prop) [Decidable condition] (error : VyaneError) : Result Unit :=
  if condition then .ok () else .error error
def validate_text (field value : String) (max_bytes : Nat) : Result Unit :=
  ensure ((value.isEmpty || max_bytes < value.utf8ByteSize || containsNul value) = false)
    (.config s!"{field} must contain 1..={max_bytes} UTF-8 bytes without NUL")
def validate_owner (owner : String) : Result Unit := do
  validate_text "owner" owner MAX_OWNER_BYTES
  ensure (isBlank owner = false) (.config "owner must not be only whitespace")
def validate_identity (owner session_id : String) : Result Unit := do
  validate_owner owner
  validate_text "session_id" session_id MAX_SESSION_ID_BYTES
def validate_domain_text (field value : String) (max_bytes : Nat) : Result Unit :=
  ensure ((isBlank value || max_bytes < value.utf8ByteSize || value.toList.any is_control) = false)
    (.config s!"{field} must contain 1..={max_bytes} non-control UTF-8 bytes")
def validate_digest (field value : String) : Result Unit :=
  ensure (is_sha256 value = true) (.config s!"{field} must be a lowercase SHA-256 hex digest")

def validate_binding (binding : NativeSessionBinding) : Result Unit := do
  validate_domain_text "native_session_id" binding.native_session_id MAX_NATIVE_SESSION_ID_BYTES
  validate_domain_text "native runtime" binding.domain.runtime MAX_DOMAIN_TEXT_BYTES
  validate_domain_text "native harness" binding.domain.harness.as_str MAX_DOMAIN_TEXT_BYTES
  validate_domain_text "native provider" binding.domain.provider MAX_DOMAIN_TEXT_BYTES
  validate_domain_text "native model" binding.domain.model MAX_DOMAIN_TEXT_BYTES
  validate_digest "endpoint_routing_digest" binding.domain.endpoint_routing_digest
  validate_digest "account_scope_digest" binding.domain.account_scope_digest
  validate_digest "runtime_scope_digest" binding.domain.runtime_scope_digest
  validate_domain_text "checkpoint_namespace" binding.domain.checkpoint_namespace MAX_DOMAIN_TEXT_BYTES
  ensure (binding.domain.checkpoint_schema ≠ 0) (.config "checkpoint_schema must be a non-zero version")
  ensure (starts_with binding.domain.canonical_workdir "/" = true)
    (.config "native session canonical_workdir must be absolute")
  validate_domain_text "native session canonical_workdir" binding.domain.canonical_workdir MAX_CANONICAL_WORKDIR_BYTES

def validate_envelope (envelope : SessionEnvelope) : Result Unit := do
  ensure (envelope.schema = SESSION_ENVELOPE_SCHEMA) (.config s!"unsupported session envelope schema {envelope.schema}")
  ensure (envelope.record.native_session_id = none)
    (.config "V2 session record cannot contain a legacy native id; native authority must use the explicit native_session state and cannot be duplicated")
  match envelope.native_session with
  | .Absent => .ok ()
  | .LegacyUnbound native_session_id =>
    validate_domain_text "legacy native_session_id" native_session_id MAX_NATIVE_SESSION_ID_BYTES
  | .Bound binding => validate_binding binding

def validate_record_identity (record : SessionRecord) (owner session_id path : String) : Result Unit := do
  validate_identity record.owner record.session_id
  ensure (record.owner = owner ∧ record.session_id = session_id)
    (.config s!"session record identity mismatch in {path}: requested owner/session do not match stored record")

def validate_binding_matches_update (binding : NativeSessionBinding) (update : SessionUpdate) : Result Unit := do
  validate_binding binding
  ensure (update.target.provider = binding.domain.provider ∧ update.target.protocol = binding.domain.protocol ∧
      update.target.model = binding.domain.model ∧ update.target.harness = some binding.domain.harness)
    (.config "native session domain does not match the committed target")

def next_revision (revision : Nat) : Result Nat :=
  (ensure (revision + 1 ≤ U64_MAX) (.config "session revision exhausted")).map fun _ => revision + 1

inductive NativeSessionTransition where
  | Reset (expected_revision : Nat)
  | ForkFresh (expected_revision : Nat) (update : SessionUpdate) (binding : NativeSessionBinding)
  | Commit (expected_revision : Nat) (update : SessionUpdate) (binding : NativeSessionBinding)

def NativeSessionTransition.expected_revision : NativeSessionTransition → Nat
  | .Reset expected_revision | .ForkFresh expected_revision _ _ | .Commit expected_revision _ _ => expected_revision

def validate_transition_identity (owner session_id : String) : NativeSessionTransition → Result Unit
  | .Reset _ => .ok ()
  | .ForkFresh _ update _ | .Commit _ update _ => do
    validate_identity update.owner update.session_id
    ensure (update.owner = owner ∧ update.session_id = session_id)
      (.config "native transition authority does not match the update owner/session")
    ensure (update.native_session_id = none)
      (.config "domain-aware native transition cannot carry a legacy native_session_id")

/-! ### Documents -/

def as_object : Option Json.Value → Option (List (String × Json.Value))
  | some (.Object fields) => some fields
  | _ => none
def contains_key (fields : List (String × Json.Value)) (name : String) : Bool := (fields.lookup name).isSome

/-- The checks of a family of shapes: no field beyond the known, and all that are required. -/
def validateFields (unknown missing : String → String) (known required : List String)
    (fields : List (String × Json.Value)) : Result Unit :=
  match (fields.map Prod.fst).find? fun name => !known.contains name with
  | some name => .error (.config (unknown name))
  | none =>
    match required.find? fun name => !contains_key fields name with
    | some name => .error (.config (missing name))
    | none => .ok ()

def validate_target_shape (target : Option Json.Value) (path : String) : Result Unit :=
  match as_object target with
  | none => .error (.config s!"session file {path} requires an object `target` field")
  | some fields =>
    validateFields (fun name => s!"session file {path} contains unknown target field `{name}`")
      (fun name => s!"session file {path} is missing required target field `{name}`")
      ["provider","protocol","harness","model"] ["provider","protocol","model"] fields

def SESSION_FIELDS : List String := ["session_id","owner","target","transcript","created_at","updated_at","run_count"]
def LEGACY_FIELDS : List String :=
  ["session_id","owner","target","native_session_id","transcript","created_at","updated_at","run_count"]

def validate_v2_session_shape (object : List (String × Json.Value)) (path : String) : Result Unit :=
  match as_object (object.lookup "session") with
  | none => .error (.config s!"V2 session envelope {path} requires an object `session` field")
  | some fields => do
    validateFields (fun name => s!"V2 session envelope {path} contains unknown nested session field `{name}`")
      (fun name => s!"V2 session envelope {path} is missing required nested session field `{name}`")
      SESSION_FIELDS SESSION_FIELDS fields
    validate_target_shape (fields.lookup "target") path

def validate_legacy_session_shape (object : List (String × Json.Value)) (path : String) : Result Unit := do
  validateFields (fun name => s!"legacy session file {path} contains unknown field `{name}`")
    (fun name => s!"legacy session file {path} is missing required field `{name}`")
    LEGACY_FIELDS ["session_id","target","created_at","updated_at"] object
  validate_target_shape (object.lookup "target") path

def decode_envelope (bytes : sys.Bytes) (path : String) : Result SessionEnvelope :=
  match sys.valueFromSlice bytes with
  | none => .error ⟨.Io,s!"parse session file {path}"⟩
  | some (.Object object) =>
    if contains_key object "schema" then do
      validate_v2_session_shape object path
      match sys.envelopeFromSlice bytes with
      | none => .error (.config s!"invalid V2 session envelope {path}")
      | some envelope => .ok envelope
    else
      match ["session","session_revision","native_session","native_session_binding"].find? (contains_key object) with
      | some reserved =>
          .error (.config s!"legacy session file {path} contains reserved V2 authority field `{reserved}`")
      | none => do
        validate_legacy_session_shape object path
        match sys.recordFromSlice bytes with
        | none => .error ⟨.Io,s!"parse legacy session file {path}"⟩
        | some record => .ok (.legacy record)
  | some _ => .error (.config s!"session file {path} must contain a JSON object")

/-! ### Files -/

/-- The files of one session; `root` says whether the root directory exists. -/
structure Files where
  root : Bool
  target : Option sys.Bytes
  legacy : Option sys.Bytes

/-- What the file system decides about the operations of one call: those that fail, and
    whether the old file can be removed. A failed set-up may have created the root. -/
structure Occasion where
  admission : Option VyaneError
  setup : Option VyaneError
  created : Bool
  target : Option VyaneError
  legacy : Option VyaneError
  write : Option VyaneError
  unsynced : Bool
  removed : Bool
  processId : UInt32
  stamp : UInt64

/-- Nothing fails. -/
def Occasion.quiet (processId : UInt32) (stamp : UInt64) : Occasion :=
  ⟨none,none,true,none,none,none,false,true,processId,stamp⟩
def owner_key (owner : String) : String := hex_lower (sys.sha256 (as_bytes owner))
def session_key (session_id : String) : String :=
  hex_lower (sys.sha256 (as_bytes "vyane.session.v1" ++ [0] ++ as_bytes session_id))
def legacy_safe_id (session_id : String) : String :=
  String.ofList (session_id.toList.map fun c => if c = '/' ∨ c = '\\' ∨ c = Char.ofNat 0 then '_' else c)
/-- A file in a directory, and the name it has there. -/
structure Path where
  directory : String
  name : String
def Path.display (path : Path) : String := path.directory ++ "/" ++ path.name
def owner_directory (owner : String) : String := sys.root ++ "/" ++ owner_key sys owner
def targetPath (owner session_id : String) : Path := ⟨owner_directory sys owner,session_key sys session_id ++ ".json"⟩
def legacy_path (session_id : String) : Path := ⟨sys.root,legacy_safe_id session_id ++ ".json"⟩
/-- A call on a file whose name is too long. -/
def named (name : String) : Result Unit :=
  ensure (name.utf8ByteSize ≤ sys.nameMax) ⟨.Io,"File name too long (os error 36)"⟩

/-- The record in the bytes of a file. -/
def parseEnvelope (path : Path) (bytes : sys.Bytes) : Result SessionEnvelope := do
  ensure (sys.len bytes ≤ MAX_SESSION_RECORD_BYTES) ⟨.Io,
    s!"session record {path.display} exceeds {MAX_SESSION_RECORD_BYTES} bytes"⟩
  let envelope ← decode_envelope sys bytes path.display
  validate_envelope envelope
  return envelope

/-- A fault comes first; a file whose name is too long is not one that is not found. -/
def read_envelope (fault : Option VyaneError) (path : Path) (file : Option sys.Bytes) :
    Result (Option SessionEnvelope) := do
  fault.elim (.ok ()) .error
  named sys path.name
  match file with
  | none => .ok none
  | some bytes => (parseEnvelope sys path bytes).map some

/-- The error of a mutation that was published and not made durable. -/
def UNSYNCED : VyaneError :=
  ⟨.Indeterminate,"session mutation was published but directory durability confirmation failed; reload the snapshot and compare session_revision before retrying"⟩
def tempName (occasion : Occasion) (key : String) : String :=
  "." ++ key ++ ".json.tmp." ++ toString occasion.processId.toNat ++ "." ++ toString occasion.stamp.toNat

def write_envelope_atomic (occasion : Occasion) (key : String) (envelope : SessionEnvelope) (files : Files sys) :
    Result Unit × Files sys :=
  let bytes := sys.envelopeToVec envelope
  if MAX_SESSION_RECORD_BYTES < sys.len bytes then
    (.error ⟨.Io,s!"session record exceeds {MAX_SESSION_RECORD_BYTES} serialized bytes"⟩,files)
  else match (do named sys (tempName occasion key); occasion.write.elim (.ok ()) .error : Result Unit) with
    | .error error => (.error error,files)
    | .ok _ => (if occasion.unsynced then .error UNSYNCED else .ok (),{ files with target := some bytes })

variable {sys} in
/-- The rest of a call, where a check passes. -/
def after {α : Type} (check : Result Unit) (files : Files sys) (rest : Result α × Files sys) : Result α × Files sys :=
  match check with
  | .error error => (.error error,files)
  | .ok _ => rest

/-! ### Loads -/

/-- The directories, and the lock of the store. -/
def setUp (occasion : Occasion) (session_id : String) : Result Unit := do
  occasion.setup.elim (.ok ()) .error
  named sys (session_key sys session_id ++ ".lock")

/-- No other call comes between, so what is read again under the lock is the same. -/
def migrate_matching_legacy_record (occasion : Occasion) (owner session_id : String) (files : Files sys) :
    Result (Option SessionEnvelope) × Files sys :=
  match read_envelope sys occasion.legacy (legacy_path sys session_id) files.legacy with
  | .error error => (.error error,files)
  | .ok none => (.ok none,files)
  | .ok (some envelope) =>
    if ¬(envelope.record.owner = owner ∧ envelope.record.session_id = session_id) then (.ok none,files)
    else
      let check : Result Unit := do
        validate_record_identity envelope.record owner session_id (legacy_path sys session_id).display
        setUp sys occasion session_id
      after check files <|
        match write_envelope_atomic sys occasion (session_key sys session_id) envelope files with
        | (.error error,files) => (.error error,files)
        | (.ok _,files) => (.ok (some envelope),if occasion.removed then { files with legacy := none } else files)

def load_envelope_blocking (occasion : Occasion) (owner session_id : String) (files : Files sys) :
    Result (Option SessionEnvelope) × Files sys :=
  after (validate_identity owner session_id) files <|
    if !files.root then (.ok none,files)
    else match read_envelope sys occasion.target (targetPath sys owner session_id) files.target with
      | .error error => (.error error,files)
      | .ok (some envelope) =>
        ((validate_record_identity envelope.record owner session_id (targetPath sys owner session_id).display).map
          fun _ => some envelope,files)
      | .ok none => migrate_matching_legacy_record sys occasion owner session_id files

def load_blocking (occasion : Occasion) (owner session_id : String) (files : Files sys) :
    Result (Option SessionRecord) × Files sys :=
  let (loaded,files) := load_envelope_blocking sys occasion owner session_id files
  (loaded.bind fun envelope => envelope.elim (.ok none) fun envelope => envelope.into_legacy_record.map some,files)

def load_snapshot_blocking (occasion : Occasion) (owner session_id : String) (files : Files sys) :
    Result (Option SessionSnapshot) × Files sys :=
  let (loaded,files) := load_envelope_blocking sys occasion owner session_id files
  (loaded.map fun envelope => envelope.map SessionEnvelope.into_snapshot,files)

/-! ### Mutations -/

def reject_matching_legacy_record (occasion : Occasion) (owner session_id operation : String) (files : Files sys) :
    Result Unit := do
  match ← read_envelope sys occasion.legacy (legacy_path sys session_id) files.legacy with
  | none => .ok ()
  | some envelope =>
    ensure (¬(envelope.record.owner = owner ∧ envelope.record.session_id = session_id))
      (.config s!"cannot {operation} owner-scoped session `{owner}/{session_id}`: legacy flat record {(legacy_path sys session_id).display} requires explicit migration into the owner namespace")

/-- The record that a mutation starts from. -/
def readExisting (occasion : Occasion) (owner session_id operation : String) (files : Files sys) :
    Result (Option SessionEnvelope) := do
  match ← read_envelope sys occasion.target (targetPath sys owner session_id) files.target with
  | some existing => do
    validate_record_identity existing.record owner session_id (targetPath sys owner session_id).display
    return some existing
  | none => do
    reject_matching_legacy_record sys occasion owner session_id operation files
    return none

/-- A mutation returns the envelope that it publishes. -/
def mutate (occasion : Occasion) (owner session_id operation : String) (produce : Option SessionEnvelope →
    Result SessionEnvelope)
    (files : Files sys) : Result SessionEnvelope × Files sys :=
  after (setUp sys occasion session_id) { files with root := files.root || occasion.created } <|
    let files := { files with root := true }
    match (do produce (← readExisting sys occasion owner session_id operation files)) with
    | .error error => (.error error,files)
    | .ok envelope =>
      match write_envelope_atomic sys occasion (session_key sys session_id) envelope files with
      | (.error error,files) => (.error error,files)
      | (.ok _,files) => (.ok envelope,files)

/-- The native state after a write that may bring a legacy id with it. -/
def nativeSessionAfter (prior : Option NativeSessionState) (supplied : Option String) : NativeSessionState :=
  match prior with
  | some (.Bound binding) => .Bound binding
  | some (.LegacyUnbound native_session_id) => .LegacyUnbound (supplied.getD native_session_id)
  | some .Absent | none => supplied.elim .Absent .LegacyUnbound

def savedEnvelope (record : SessionRecord) (existing : Option SessionEnvelope) : Result SessionEnvelope := do
  ensure (¬((existing.bind (·.binding)).isSome ∧ record.native_session_id.isSome))
    (.config "session record cannot contain both a legacy native id and a domain binding")
  let session_revision ← next_revision (existing.elim 0 (·.session_revision))
  let envelope : SessionEnvelope := ⟨SESSION_ENVELOPE_SCHEMA,{ record with native_session_id := none },session_revision,
    nativeSessionAfter (existing.map (·.native_session)) record.native_session_id⟩
  validate_envelope envelope
  return envelope

def save_blocking (occasion : Occasion) (authority : String) (record : SessionRecord) (files : Files sys) :
    Result SessionEnvelope × Files sys :=
  let check : Result Unit := do
    validate_owner authority
    validate_identity record.owner record.session_id
    ensure (record.owner = authority) (.config "session save authority does not match the record owner")
  after check files (mutate sys occasion record.owner record.session_id "save" (savedEnvelope record) files)

/-- The envelope that `apply_update_envelope_blocking` publishes. -/
def updatedEnvelope (path owner session_id : String) (update : SessionUpdate) (expected_revision : Option Nat)
    (existing : Option SessionEnvelope) : Result SessionEnvelope := do
  ensure (¬((existing.bind (·.binding)).isSome ∧ update.native_session_id.isSome))
    (.config "session update cannot add a legacy native id to a domain-bound session")
  let observed_revision := existing.elim 0 (·.session_revision)
  ensure (∀ expected ∈ expected_revision, expected = observed_revision)
    ⟨.Conflict,s!"session revision conflict: expected {expected_revision.getD 0}, observed {observed_revision}"⟩
  let session_revision ← next_revision observed_revision
  let record := update.apply_to (existing.map (·.record))
  let envelope : SessionEnvelope := ⟨SESSION_ENVELOPE_SCHEMA,{ record with native_session_id := none },session_revision,
    nativeSessionAfter (existing.map (·.native_session)) record.native_session_id⟩
  validate_record_identity envelope.record owner session_id path
  validate_envelope envelope
  return envelope

def apply_update_envelope_blocking (occasion : Occasion) (authority : String) (update : SessionUpdate)
    (expected_revision : Option Nat)
    (files : Files sys) : Result SessionEnvelope × Files sys :=
  let check : Result Unit := do
    validate_owner authority
    validate_identity update.owner update.session_id
    ensure (update.owner = authority) (.config "session update authority does not match the update owner")
  after check files (mutate sys occasion authority update.session_id "update"
    (updatedEnvelope
      (targetPath sys authority update.session_id).display authority update.session_id update expected_revision) files)

/-- What a transition makes of the record, before its checks. -/
def transitionRecord (existing : Option SessionEnvelope) (session_revision : Nat) : NativeSessionTransition →
    Result SessionEnvelope
  | .Reset _ =>
    match existing with
    | none => .error ⟨.NotFound,"cannot reset missing session"⟩
    | some existing => .ok { existing with
        record := { existing.record with native_session_id := none }, session_revision, native_session := .Absent }
  | .ForkFresh _ update binding =>
    match existing with
    | none => .error ⟨.NotFound,"cannot fork native state for a missing session"⟩
    | some existing => do
      validate_binding_matches_update binding update
      .ok ⟨SESSION_ENVELOPE_SCHEMA,update.apply_to (some { existing.record with native_session_id := none }),
        session_revision,.Bound binding⟩
  | .Commit _ update binding => do
    validate_binding_matches_update binding update
    ensure (existing.bind (·.legacy_unbound_id) = none)
      (.config "legacy native session must be reset or forked fresh before commit")
    ensure (∀ current ∈ existing.bind (·.binding), current = binding)
      (.config "native session binding drift requires an explicit fresh fork")
    .ok ⟨SESSION_ENVELOPE_SCHEMA,update.apply_to (existing.map (·.record)),session_revision,.Bound binding⟩

/-- The envelope that `apply_native_transition_blocking` publishes. -/
def transitionEnvelope (path owner session_id : String) (transition : NativeSessionTransition)
    (existing : Option SessionEnvelope) :
    Result SessionEnvelope := do
  let observed_revision := existing.elim 0 (·.session_revision)
  ensure (observed_revision = transition.expected_revision)
    ⟨.Conflict,s!"session revision conflict: expected {transition.expected_revision}, observed {observed_revision}"⟩
  let session_revision ← next_revision observed_revision
  let envelope ← transitionRecord existing session_revision transition
  validate_record_identity envelope.record owner session_id path
  validate_envelope envelope
  return envelope

def apply_native_transition_blocking (occasion : Occasion) (authority session_id : String)
    (transition : NativeSessionTransition)
    (files : Files sys) : Result SessionEnvelope × Files sys :=
  let check : Result Unit := do
    validate_identity authority session_id
    validate_transition_identity authority session_id transition
  after check files (mutate sys occasion authority session_id "transition"
    (transitionEnvelope (targetPath sys authority session_id).display authority session_id transition) files)

/-! ### Leases and calls -/

/-- A lease on the execution of a session; it is good for one commit. -/
structure Lease where
  owner : String
  session_id : String
  consumed : Bool

def Lease.begin_commit (lease : Lease) : Result Unit :=
  ensure (lease.consumed = false) ⟨.Conflict,"session execution lease was already used for a commit attempt"⟩

def Lease.save_record (lease : Lease) (occasion : Occasion) (record : SessionRecord) (files : Files sys) :
    Result SessionEnvelope × Files sys :=
  let check : Result Unit := do
    ensure (record.owner = lease.owner ∧ record.session_id = lease.session_id)
      (.config "session execution lease does not authorize this saved record identity")
    lease.begin_commit
  after check files (save_blocking sys occasion lease.owner record files)

/-- `apply_update` of a lease; without a revision it is `apply_unfenced_update`. -/
def Lease.apply_update (lease : Lease) (occasion : Occasion) (expected_revision : Option Nat) (update : SessionUpdate)
    (files : Files sys) :
    Result SessionEnvelope × Files sys :=
  let check : Result Unit := do
    ensure (update.owner = lease.owner ∧ update.session_id = lease.session_id)
      (.config "session execution lease does not authorize this update identity")
    lease.begin_commit
  after check files (apply_update_envelope_blocking sys occasion lease.owner update expected_revision files)

def Lease.apply_native_transition (lease : Lease) (occasion : Occasion) (transition : NativeSessionTransition)
    (files : Files sys) :
    Result SessionEnvelope × Files sys :=
  after lease.begin_commit files
    (apply_native_transition_blocking sys occasion lease.owner lease.session_id transition files)

/-- A mutation of the store, under a lease of its own; the name of its execution passes its check. -/
def leased (occasion : Occasion) (owner session_id : String) (mutation : Lease → Files sys →
    Result SessionEnvelope × Files sys)
    (files : Files sys) : Result SessionEnvelope × Files sys :=
  let admission : Result Unit := do
    occasion.admission.elim (.ok ()) .error
    named sys (session_key sys session_id ++ ".execution.lock")
  after (validate_identity owner session_id) files <|
    after admission { files with root := files.root || occasion.created } <|
      mutation ⟨owner,session_id,false⟩ { files with root := true }

inductive Mutation where
  | Save (record : SessionRecord)
  | ApplyUpdate (update : SessionUpdate)
  | ApplyNativeTransition (transition : NativeSessionTransition)
  | LeaseApplyUpdate (consumed : Bool) (expected_revision : Nat) (update : SessionUpdate)
  | LeaseApplyNativeTransition (consumed : Bool) (transition : NativeSessionTransition)

/-- The session that a call of the store names; one on a lease is on the lease's. -/
def Mutation.names (session_id : String) : Mutation → Prop
  | .Save record => record.session_id = session_id
  | .ApplyUpdate update => update.session_id = session_id
  | .ApplyNativeTransition _ | .LeaseApplyUpdate _ _ _ | .LeaseApplyNativeTransition _ _ => True

/-- A mutation, and the envelope that it publishes. Its callers get a part of it: nothing
    from `save`, the public record from `apply_update`, else the snapshot. -/
def Mutation.run (occasion : Occasion) (owner session_id : String) (files : Files sys) : Mutation →
    Result SessionEnvelope × Files sys
  | .Save record => leased sys occasion owner record.session_id (fun lease =>
    lease.save_record sys occasion record) files
  | .ApplyUpdate update =>
      leased sys occasion owner update.session_id (fun lease => lease.apply_update sys occasion none update) files
  | .ApplyNativeTransition transition =>
    leased sys occasion owner session_id (fun lease => lease.apply_native_transition sys occasion transition) files
  | .LeaseApplyUpdate consumed expected_revision update =>
    Lease.apply_update sys ⟨owner,session_id,consumed⟩ occasion (some expected_revision) update files
  | .LeaseApplyNativeTransition consumed transition =>
    Lease.apply_native_transition sys ⟨owner,session_id,consumed⟩ occasion transition files

/-- The calls on a session; both loads do the same to its files. -/
inductive Call where
  | Mutate (mutation : Mutation)
  | Load
/-- The files of a session after a call of its owner. -/
def Call.filesAfter (owner session_id : String) (files : Files sys) (occasion : Occasion) : Call → Files sys
  | .Mutate mutation => (mutation.run sys occasion owner session_id files).2
  | .Load => (load_envelope_blocking sys occasion owner session_id files).2
/-- The files after a sequence of calls. -/
def history (owner session_id : String) (files : Files sys) : List (Call × Occasion) → Files sys
  | [] => files
  | (call,occasion) :: rest => history owner session_id (call.filesAfter sys owner session_id files occasion) rest

end Vyane.SessionStore
