import Vyane.Json
import Vyane.Times
import Vyane.Transactions

/-!
Replays of an event stream (`vyane-ledger/src/event.rs`): records and their checks, lines and pages. The file stays as
it is and no call on it fails; where the buffers of the reader cut it is left open.
-/
namespace Vyane.EventReader
open Text Times

def EVENT_SCHEMA : Nat := 1
def MAX_STREAM_ID_BYTES : Nat := 128
def MAX_OWNER_BYTES : Nat := 256
def MAX_EVENT_TYPE_BYTES : Nat := 128
def MAX_REFERENCE_BYTES : Nat := 256
def MAX_SUMMARY_BYTES : Nat := 512
def MAX_PAYLOAD_ENTRIES : Nat := 128
def MAX_PAYLOAD_KEY_BYTES : Nat := 128
def MAX_PAYLOAD_BYTES : Nat := 16 * 1024
def MAX_READ_LIMIT : Nat := 10000
def MAX_EVENT_LINE_BYTES : Nat := 96 * 1024
def MAX_PAGE_BYTES : Nat := 8 * 1024 * 1024
inductive EventCategory where
  | Lifecycle | Model | Tool | Approval | Collaboration | Error | System
deriving DecidableEq, Repr

inductive EventSource where
  | Kernel | Workflow | Harness | Daemon | Broker | User | System
deriving DecidableEq, Repr

inductive EventLogError where
  | InvalidInput (message : String)
  | Serialize
  | UnsupportedSchema (found supported : Nat)
  | CorruptRecord
deriving DecidableEq, Repr

abbrev EventResult (α : Type) : Type := Except EventLogError α
/-- A `BTreeMap<String, Value>`, in the order of its keys. -/
abbrev Payload : Type := List (String × Json.Value)

structure EventRecord where
  schema : Nat
  event_id : String
  stream_id : String
  sequence : Nat
  occurred_at : DateTime
  owner : String
  category : EventCategory
  event_type : String
  source : EventSource
  trace_id : Option String
  correlation_id : Option String
  summary : Option String
  payload : Payload
deriving DecidableEq

/-- What a reader uses of `serde_json` and `sha2`. -/
structure Libraries where
  sha256 : Bytes → Bytes
  payloadToVec : Payload → Option Bytes
  /-- A document that `from_slice::<Value>` reads. -/
  Value : Type
  valueFromSlice : Bytes → Option Value
  /-- `value.get("schema").and_then(Value::as_u64)`. -/
  schemaOf : Value → Option Nat
  recordFromValue : Value → Option EventRecord

variable (libs : Libraries) (owner stream_id : String)

/-! ### Checks -/

def rejectIf (bad : Bool) (error : EventLogError) : EventResult Unit := if bad then .error error else .ok ()
def validate_text (field value : String) (limit : Nat) : EventResult Unit :=
  rejectIf (value.isEmpty || decide (limit < value.utf8ByteSize) || containsNul value)
    (.InvalidInput s!"{field} must contain 1..={limit} UTF-8 bytes without NUL")

def validate_optional_text (field : String) (value : Option String) (limit : Nat) : EventResult Unit :=
  match value with
  | some value => validate_text field value limit
  | none => .ok ()

def validate_stream_id (value : String) : EventResult Unit :=
  rejectIf (value.isEmpty || decide (MAX_STREAM_ID_BYTES < value.utf8ByteSize) ||
      !value.toList.all (fun c => c.isAlphanum || c == '_' || c == '-'))
    (.InvalidInput "stream_id must match [A-Za-z0-9_-]\x7b1,128\x7d")

def validate_event_type (value : String) : EventResult Unit :=
  rejectIf (value.isEmpty || decide (MAX_EVENT_TYPE_BYTES < value.utf8ByteSize) ||
      !value.toList.all (fun c => c.isAlphanum || c == '_' || c == '-' || c == '.'))
    (.InvalidInput "event_type must contain only ASCII letters, digits, dot, dash, or underscore")

def reject_whitespace_only_owner (owner : String) : EventResult Unit :=
  rejectIf (isBlank owner) (.InvalidInput "owner must not be only whitespace")

/-- `NewEvent::validate`, for the event that the fields of a record make up. -/
def EventRecord.validate (event : EventRecord) : EventResult Unit := do
  validate_text "event_id" event.event_id MAX_REFERENCE_BYTES
  rejectIf (isBlank event.event_id) (.InvalidInput "event_id must not be only whitespace")
  validate_text "owner" event.owner MAX_OWNER_BYTES
  reject_whitespace_only_owner event.owner
  validate_event_type event.event_type
  validate_optional_text "trace_id" event.trace_id MAX_REFERENCE_BYTES
  validate_optional_text "correlation_id" event.correlation_id MAX_REFERENCE_BYTES
  validate_optional_text "summary" event.summary MAX_SUMMARY_BYTES
  rejectIf (decide (MAX_PAYLOAD_ENTRIES < event.payload.length))
    (.InvalidInput s!"event payload has more than {MAX_PAYLOAD_ENTRIES} entries")
  event.payload.forM fun (key,_) => validate_text "payload key" key MAX_PAYLOAD_KEY_BYTES
  match libs.payloadToVec event.payload with
  | none => .error .Serialize
  | some bytes =>
    rejectIf (decide (MAX_PAYLOAD_BYTES < bytes.length))
      (.InvalidInput s!"event payload exceeds {MAX_PAYLOAD_BYTES} bytes")

def orCorrupt : EventResult Unit → EventResult Unit
  | .ok _ => .ok ()
  | .error _ => .error .CorruptRecord

def EventRecord.validate_for_stream (record : EventRecord) : EventResult Unit := do
  rejectIf (record.schema != EVENT_SCHEMA) .CorruptRecord
  orCorrupt (validate_stream_id record.stream_id)
  rejectIf (record.owner != owner || record.stream_id != stream_id || record.sequence == 0) .CorruptRecord
  orCorrupt (record.validate libs)

def decode_record (line : Bytes) : EventResult EventRecord :=
  match libs.valueFromSlice line with
  | none => .error .CorruptRecord
  | some value =>
    match libs.schemaOf value with
    | none => .error .CorruptRecord
    | some schema =>
      if schema ≠ EVENT_SCHEMA then .error (.UnsupportedSchema schema EVENT_SCHEMA)
      else match libs.recordFromValue value with
        | none => .error .CorruptRecord
        | some record => .ok record

/-! ### Lines -/

/-- The bytes in buffers of these sizes, none of them empty; the last gets what is left. -/
def chop : List Nat → Bytes → List Bytes
  | _, [] => []
  | [], byte :: rest => [byte :: rest]
  | size :: sizes, byte :: rest => (byte :: rest.take size) :: chop sizes (rest.drop size)

/-- What `read_bounded_line` says of a line, and the line itself unless it overflowed. -/
structure Line where
  terminated : Bool
  overflowed : Bool
  consumed : Nat
  bytes : Bytes
deriving DecidableEq

/-- The next bytes of a line; once it is too long, none of them is kept. -/
def Line.extend (line : Line) (chunk : Bytes) : Line :=
  let next_len := line.bytes.length + chunk.length
  let line : Line :=
    if line.overflowed then line
    else if next_len ≤ MAX_EVENT_LINE_BYTES then { line with bytes := line.bytes ++ chunk }
    else { line with bytes := [], overflowed := true }
  { line with consumed := line.consumed + chunk.length }

/-- The loop of `read_bounded_line`, for a line of which a part was read; it stops after the
    newline and leaves the rest of the buffer. -/
def readLine : Line → List Bytes → Line × List Bytes
  | line, [] => (line,[])
  | line, buffer :: buffers =>
    let newline := buffer.findIdx? (· == NEWLINE)
    let chunk_len := newline.elim buffer.length (· + 1)
    let line := line.extend (buffer.take chunk_len)
    if newline.isSome then ({ line with terminated := true },(if (buffer.drop chunk_len).isEmpty then []
      else [buffer.drop chunk_len]) ++ buffers)
    else readLine line buffers

/-- The lines of a reader, one call of `read_bounded_line` after the other until no byte is
    present. Every line takes a byte, so there are no more lines than bytes. -/
def read_lines : Nat → List Bytes → List Line
  | 0, _ => []
  | _, [] => []
  | fuel + 1, buffers =>
    let (line,rest) := readLine ⟨false,false,0,[]⟩ buffers
    line :: read_lines fuel rest

def linesOf (buffers : List Bytes) : List Line := read_lines buffers.flatten.length buffers

/-! ### Pages -/

@[ext] structure EventCursor where
  sequence : Nat
  byte_offset : Nat
  stream_digest : String
deriving DecidableEq

structure EventPage where
  events : List EventRecord
  skipped_lines : Nat
  next_sequence : Nat
  next_cursor : EventCursor
  has_more : Bool

/-- A file of events; its length is a `u64`. -/
structure EventFile where
  bytes : Bytes
  lengthFits : bytes.length ≤ U64_MAX
def stream_digest : String :=
  hex_lower (libs.sha256 (as_bytes "vyane.event-stream.v1" ++ [0] ++ as_bytes owner ++ [0] ++ as_bytes stream_id))

def validate_cursor_boundary (bytes : Bytes) (byte_offset : Nat) : EventResult Nat :=
  if bytes.length < byte_offset then .error (.InvalidInput "event cursor is past the end of the stream")
  else if byte_offset = 0 then .ok bytes.length
  else if bytes[byte_offset - 1]? ≠ some NEWLINE then .error (.InvalidInput "event cursor is not on a record boundary")
  else .ok bytes.length

/-- What the loop of `read_from_blocking` carries along. -/
structure PageState where
  events : List EventRecord
  skipped_lines : Nat
  sequence : Nat
  byte_offset : Nat
  page_bytes : Nat

def PageState.skip (page : PageState) : PageState := { page with skipped_lines := min (page.skipped_lines + 1) U64_MAX }

/-- The loop of `read_from_blocking`. -/
def readPage (cursor : EventCursor) (limit : Nat) : PageState → List Line → EventResult PageState
  | page, [] => .ok page
  | page, line :: rest =>
    -- what a failed writer left without its newline is not passed over
    if !line.terminated then .ok page
    else if U64_MAX < page.byte_offset + line.consumed then .error (.InvalidInput "event cursor offset overflow")
    else
      let line_start := page.byte_offset
      let page := { page with byte_offset := page.byte_offset + line.consumed }
      if line.overflowed then readPage cursor limit page.skip rest
      else if line.bytes.all is_ascii_whitespace then readPage cursor limit page rest
      else match decode_record libs line.bytes with
        | .error (.UnsupportedSchema found supported) => .error (.UnsupportedSchema found supported)
        | .error _ => readPage cursor limit page.skip rest
        | .ok record =>
          match record.validate_for_stream libs owner stream_id with
          | .error _ => readPage cursor limit page.skip rest
          | .ok _ =>
            if record.sequence ≤ cursor.sequence ∧ cursor.byte_offset = 0 then readPage cursor limit page rest
            else if record.sequence ≤ page.sequence then readPage cursor limit page.skip rest
            else if MAX_PAGE_BYTES < page.page_bytes + line.bytes.length then
              .ok { page with byte_offset := line_start }
            else
              let page := { page with
                page_bytes := page.page_bytes + line.bytes.length
                sequence := record.sequence
                events := page.events ++ [record] }
              if page.events.length = limit then .ok page else readPage cursor limit page rest

/-- A file that was not found gives an empty page. The `sizes` are those of the buffers. -/
def read_from_blocking (sizes : List Nat) (file : Option EventFile) (cursor : EventCursor) (limit : Nat) :
    EventResult EventPage :=
  match file with
  | none => .ok ⟨[],0,cursor.sequence,cursor,false⟩
  | some file => do
    let stream_len ← validate_cursor_boundary file.bytes cursor.byte_offset
    let buffers := chop sizes (file.bytes.drop cursor.byte_offset)
    let page ← readPage libs owner stream_id cursor limit ⟨[],0,cursor.sequence,cursor.byte_offset,0⟩ (linesOf buffers)
    return ⟨page.events,page.skipped_lines,page.sequence,⟨page.sequence,page.byte_offset,cursor.stream_digest⟩,
      decide (page.byte_offset < stream_len)⟩

/-- The checks that do not depend on the page. -/
def validateStream : EventResult Unit := do
  validate_text "owner" owner MAX_OWNER_BYTES
  reject_whitespace_only_owner owner
  validate_stream_id stream_id

def read_from (sizes : List Nat) (file : Option EventFile) (cursor : EventCursor) (limit : Nat) :
    EventResult EventPage := do
  validateStream owner stream_id
  let expected_digest := stream_digest libs owner stream_id
  rejectIf ((cursor.sequence != 0 || cursor.byte_offset != 0) && cursor.stream_digest != expected_digest)
    (.InvalidInput "event cursor belongs to a different stream")
  rejectIf (!(decide (1 ≤ limit) && decide (limit ≤ MAX_READ_LIMIT)))
    (.InvalidInput s!"event read limit must be between 1 and {MAX_READ_LIMIT}")
  read_from_blocking libs owner stream_id sizes file { cursor with stream_digest := expected_digest } limit

def read_after (sizes : List Nat) (file : Option EventFile) (after_sequence limit : Nat) : EventResult EventPage :=
  read_from libs owner stream_id sizes file ⟨after_sequence,0,stream_digest libs owner stream_id⟩ limit
/-- A call of a replay: the limit of its page, and the sizes of its buffers. -/
structure Call where
  limit : Nat
  sizes : List Nat

/-- The pages from a cursor on, each at the cursor that the one before it returned. -/
def follow (file : Option EventFile) : EventCursor → List Call → EventResult (List EventPage)
  | _, [] => .ok []
  | cursor, call :: calls => do
    let page ← read_from libs owner stream_id call.sizes file cursor call.limit
    let pages ← follow file page.next_cursor calls
    return page :: pages

/-- A replay after a sequence number: `read_after`, and then the pages at its cursor. -/
def replay (file : Option EventFile) (after_sequence : Nat) : List Call → EventResult (List EventPage)
  | [] => .ok []
  | call :: calls => do
    let page ← read_after libs owner stream_id call.sizes file after_sequence call.limit
    let pages ← follow libs owner stream_id file page.next_cursor calls
    return page :: pages

end Vyane.EventReader
