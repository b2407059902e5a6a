import Vyane.NetworkBroker

/-!
What a tunnel carries. The frames the broker hands to the destination are those of a scan that takes one byte at a time,
as long as the destination never becomes ready while a frame is partly read: a frame read that loses the race has taken
bytes, and the rest is then read as a header.
-/
namespace Vyane.Networks
open Interactions Interactions.Program List
set_option linter.unusedSimpArgs false

/-! ### What passes in a trace -/

def byteOf : Event Request Answer → Option UInt8
  | ⟨.readByte,.ok byte⟩ => some byte
  | ⟨.select,.Channel (.ok byte)⟩ => some byte
  | _ => none

def offeredBy : Event Request Answer → Option Bytes
  | ⟨.send bytes,_⟩ => some bytes
  | _ => none
/-- The bytes that a write has left with the other side. -/
def passed {bytes : Bytes} : Written bytes → Bytes
  | .ok () => bytes
  | .error (_,count) => bytes.take count
def sentBy : Event Request Answer → Bytes
  | ⟨.send _,written⟩ => passed written
  | _ => []
def read_bytes : RemoteRead → Bytes
  | .ok bytes => bytes.1
  | .error _ => []

def receivedBy : Event Request Answer → Bytes
  | ⟨.select,.Remote read⟩ => read_bytes read
  | ⟨.remoteRead,read⟩ => read_bytes read
  | _ => []

def returnedBy : Event Request Answer → Bytes
  | ⟨.write_all _,written⟩ => passed written
  | _ => []
/-- The bytes taken from the channel, whether or not anything came of them. -/
def consumed (trace : Trace) : Bytes := trace.filterMap byteOf
/-- The buffers handed to the destination, and the bytes of them that it took. -/
def offered (trace : Trace) : List Bytes := trace.filterMap offeredBy
def sent (trace : Trace) : Bytes := trace.flatMap sentBy
/-- The bytes of the destination, and those written back as the content of frames. -/
def received (trace : Trace) : Bytes := trace.flatMap receivedBy
def returned (trace : Trace) : Bytes := trace.flatMap returnedBy

section
variable (first second : Trace)
@[simp] theorem consumed_append : consumed (first ++ second) = consumed first ++ consumed second := filterMap_append
@[simp] theorem offered_append : offered (first ++ second) = offered first ++ offered second := filterMap_append
@[simp] theorem received_append : received (first ++ second) = received first ++ received second := flatMap_append
@[simp] theorem returned_append : returned (first ++ second) = returned first ++ returned second := flatMap_append
end

/-- Nothing passes but bytes of the channel to the broker. -/
structure Quiet (trace : Trace) : Prop where
  offered : offered trace = []
  received : received trace = []
  returned : returned trace = []

theorem Quiet.nil : Quiet [] := ⟨rfl,rfl,rfl⟩
theorem Quiet.append {first second : Trace} (one : Quiet first) (two : Quiet second) : Quiet (first ++ second) :=
  ⟨by rw [offered_append,one.offered,two.offered]; rfl,by rw [received_append,one.received,two.received]; rfl,
    by rw [returned_append,one.returned,two.returned]; rfl⟩

/-! ### The frames of a stream -/

/-- How far a frame has come: its header, its payload, or no frame any more. -/
inductive Reading where
  | Header (got : Bytes)
  | Payload (left : Nat) (got : Bytes)
  | Ended
deriving DecidableEq

def Reading.take : Reading → UInt8 → Reading × List Bytes
  | .Header got, byte =>
    if got.length < 3 then (.Header (got ++ [byte]),[])
    else if be (got ++ [byte]) = 0 ∨ MAX_FRAME_BYTES < be (got ++ [byte]) then (.Ended,[])
    else (.Payload (be (got ++ [byte])) [],[])
  | .Payload left got, byte =>
      if left ≤ 1 then (.Header [],[got ++ [byte]]) else (.Payload (left - 1) (got ++ [byte]),[])
  | .Ended, _ => (.Ended,[])

/-- Where a stream ends, and the payloads of its whole frames. -/
def scan : Reading → Bytes → Reading × List Bytes
  | reading, [] => (reading,[])
  | reading, byte :: rest =>
    ((scan (reading.take byte).1 rest).1,(reading.take byte).2 ++ (scan (reading.take byte).1 rest).2)

def payloads (stream : Bytes) : List Bytes := (scan (.Header []) stream).2
/-- A stream that ends where a frame may begin. -/
def betweenFrames (stream : Bytes) : Prop := (scan (.Header []) stream).1 = .Header []

theorem scan_append (reading : Reading) (first second : Bytes) : scan reading (first ++ second) =
    ((scan (scan reading first).1 second).1,(scan reading first).2 ++ (scan (scan reading first).1 second).2) := by
  induction first generalizing reading with
  | nil => rfl
  | cons byte rest ih => simp only [cons_append,scan,ih,append_assoc]

variable {bytes : Bytes} {trace : Trace} {result : Except Stop TunnelState} {max_bytes : Nat} {state : TunnelState}

theorem scan_header : ∀ {got : Bytes}, got.length + bytes.length < 4 →
    scan (.Header got) bytes = (.Header (got ++ bytes),[]) := by
  induction bytes with
  | nil => simp [scan]
  | cons byte rest ih =>
    intro got short
    rw [length_cons] at short
    simp only [scan,Reading.take]
    rw [if_pos (by omega),ih (by simp only [length_append,length_singleton]; omega)]
    simp

theorem scan_length (four : bytes.length = 4) : scan (.Header []) bytes =
    (if be bytes = 0 ∨ MAX_FRAME_BYTES < be bytes then .Ended else .Payload (be bytes) [],[]) := by
  obtain ⟨a,b,c,d,rfl⟩ : ∃ a b c d, bytes = [a,b,c,d] := by
    match bytes, four with
    | [a,b,c,d], _ => exact ⟨a,b,c,d,rfl⟩
  simp only [scan,Reading.take,length_nil,length_append,length_singleton,nil_append,singleton_append,
    cons_append]
  split_ifs <;> simp_all

theorem scan_payload : ∀ {left : Nat} {got : Bytes}, bytes.length < left →
    scan (.Payload left got) bytes = (.Payload (left - bytes.length) (got ++ bytes),[]) := by
  induction bytes with
  | nil => simp [scan]
  | cons byte rest ih =>
    intro left got short
    rw [length_cons] at short
    simp only [scan,Reading.take]
    rw [if_neg (by omega),ih (by omega),length_cons,append_assoc,
      show left - 1 - rest.length = left - (rest.length + 1) by omega]
    rfl

theorem scan_whole {left : Nat} (someLeft : 0 < left) (whole : bytes.length = left) :
    scan (.Payload left []) bytes = (.Header [],[bytes]) := by
  obtain ⟨front,last,rfl⟩ : ∃ front last, bytes = front ++ [last] :=
    (eq_nil_or_concat' bytes).resolve_left (by rintro rfl; simp at whole; omega)
  rw [length_append,length_singleton] at whole
  rw [scan_append,scan_payload (by omega)]
  simp only [scan,Reading.take]
  rw [if_pos (by omega)]
  simp

/-! ### Reading a frame -/

/-- The bytes of a frame that is not whole yet. -/
def Unfinished (bytes : Bytes) : Prop := payloads bytes = [] ∧ (betweenFrames bytes → bytes = [])

/-- What the bytes read have to do with the result. -/
def FrameRead (bytes : Bytes) : Except IoError (Option Bytes) → Prop
  | .ok (some frame) => scan (.Header []) bytes = (.Header [],[frame])
  | .ok none => scan (.Header []) bytes = (.Ended,[])
  | .error _ => Unfinished bytes

/-- The events of a read that lost the race: the bytes it took, and what came first. -/
def Dropped (read : RemoteRead) (unread : Bytes → Prop) (trace : Trace) : Prop :=
  ∃ before, trace = before ++ [⟨.select,.Remote read⟩] ∧ Quiet before ∧ unread (consumed before)
/-- What a frame read has taken when it ends or is dropped. -/
def FrameRaced (trace : Trace) : Except IoError (Option Bytes) ⊕ RemoteRead → Prop
  | .inl result => Quiet trace ∧ FrameRead (consumed trace) result
  | .inr read => Dropped read Unfinished trace

theorem race_read_byte {next : Except IoError UInt8 → Broker α} {result : α ⊕ RemoteRead}
    (runs : Runs ((perform .readByte >>= next).race contested) trace result) :
    (∃ read, trace = [⟨.select,.Remote read⟩] ∧ result = .inr read) ∨
      ∃ byte rest, trace = ⟨.select,.Channel byte⟩ :: rest ∧ Runs ((next byte).race contested) rest result := by
  obtain ⟨answer,rest,rfl,ran⟩ := (@runs_race_ask _ _ _ _ trace contested .readByte next result).mp runs
  cases (answer : Ready) with
  | Channel byte => exact .inr ⟨byte,rest,rfl,ran⟩
  | Remote read =>
    obtain ⟨rfl,rfl⟩ := runs_done.mp ran
    exact .inl ⟨read,rfl,rfl⟩

theorem race_read_exact : ∀ {wanted : Nat} {got : Bytes} {trace : Trace} {result : Except IoError Bytes ⊕ RemoteRead},
    Runs ((read_exact wanted got).race contested) trace result →
      match result with
      | .inl (.ok bytes) => Quiet trace ∧ bytes = got ++ consumed trace ∧ (consumed trace).length = wanted
      | .inl (.error _) => Quiet trace ∧ (consumed trace).length < wanted
      | .inr read => Dropped read (fun bytes => bytes.length < wanted) trace := by
  intro wanted
  induction wanted with
  | zero =>
    intro got trace result runs
    obtain ⟨rfl,rfl⟩ := runs_done.mp runs
    exact ⟨.nil,by simp [consumed],rfl⟩
  | succ wanted ih =>
    intro got trace result runs
    rcases race_read_byte runs with ⟨read,rfl,rfl⟩ | ⟨byte,rest,rfl,ran⟩
    · exact ⟨[],rfl,.nil,by simp [consumed]⟩
    · cases byte with
      | error error =>
        obtain ⟨rfl,rfl⟩ := runs_done.mp ran
        exact ⟨⟨rfl,rfl,rfl⟩,Nat.succ_pos wanted⟩
      | ok byte =>
        have later := ih ran
        have first : Quiet [⟨.select,.Channel (.ok byte)⟩] := ⟨rfl,rfl,rfl⟩
        have taken : consumed (⟨.select,.Channel (.ok byte)⟩ :: rest) = byte :: consumed rest := rfl
        match result, later with
        | .inl (.ok bytes), ⟨quiet,content,length⟩ =>
          exact ⟨first.append quiet,by rw [content,taken,append_assoc]; rfl,by rw [taken,length_cons,length]⟩
        | .inl (.error _), ⟨quiet,short⟩ => exact ⟨first.append quiet,by rw [taken,length_cons]; omega⟩
        | .inr read, ⟨before,split,quiet,short⟩ =>
          refine ⟨⟨.select,.Channel (.ok byte)⟩ :: before,by rw [split]; rfl,first.append quiet,?_⟩
          show (consumed before).length + 1 < wanted + 1
          omega

theorem unfinished_header (short : bytes.length < 4) : Unfinished bytes := by
  have scanned := @scan_header bytes [] (by simpa using short)
  rw [nil_append] at scanned
  refine ⟨by rw [payloads,scanned],fun fresh => ?_⟩
  rw [betweenFrames,scanned] at fresh
  exact Reading.Header.inj fresh

theorem unfinished_payload {header : Bytes} (four : header.length = 4)
    (fits : ¬(be header = 0 ∨ MAX_FRAME_BYTES < be header)) (short : bytes.length < be header) :
    Unfinished (header ++ bytes) := by
  have scanned : scan (.Header []) (header ++ bytes) = (.Payload (be header - bytes.length) bytes,[]) := by
    rw [scan_append,scan_length four,if_neg fits,scan_payload short]
    simp
  refine ⟨by rw [payloads,scanned],fun fresh => ?_⟩
  rw [betweenFrames,scanned] at fresh
  cases fresh

theorem unfinished_large {header : Bytes} (four : header.length = 4) (large : MAX_FRAME_BYTES < be header) :
    Unfinished header := by
  have scanned := scan_length four
  rw [if_pos (.inr large)] at scanned
  refine ⟨by rw [payloads,scanned],fun fresh => ?_⟩
  rw [betweenFrames,scanned] at fresh
  cases fresh

theorem race_read_length {result : Except IoError Nat ⊕ RemoteRead} : Runs ((readUint 4).race contested) trace result →
    match result with
    | .inl (.ok n) => Quiet trace ∧ (consumed trace).length = 4 ∧ be (consumed trace) = n
    | .inl (.error _) => Quiet trace ∧ (consumed trace).length < 4
    | .inr read => Dropped read (fun bytes => bytes.length < 4) trace := by
  intro runs
  rcases runs_race_and_then runs with ⟨read,rfl,ran⟩ | ⟨error,rfl,ran⟩ | ⟨before,after,bytes,rfl,ran,ended⟩
  · exact race_read_exact ran
  · exact race_read_exact ran
  · obtain ⟨quiet,content,four⟩ := race_read_exact ran
    obtain ⟨rfl,rfl⟩ := runs_done.mp ended
    rw [append_nil]
    exact ⟨quiet,four,by rw [content,nil_append]⟩

theorem race_read_frame {result : Except IoError (Option Bytes) ⊕ RemoteRead}
    (runs : Runs (read_frame.race contested) trace result) : FrameRaced trace result := by
  rcases runs_race_and_then runs with ⟨read,rfl,ran⟩ | ⟨error,rfl,ran⟩ | ⟨before,after,n,rfl,ran,ended⟩
  · obtain ⟨before,split,quiet,short⟩ := race_read_length ran
    exact ⟨before,split,quiet,unfinished_header short⟩
  · obtain ⟨quiet,short⟩ := race_read_length ran
    exact ⟨quiet,unfinished_header short⟩
  · obtain ⟨quiet,four,same⟩ := race_read_length ran
    by_cases zero : n = 0
    · rw [if_pos zero] at ended
      obtain ⟨rfl,rfl⟩ := runs_done.mp ended
      rw [append_nil]
      exact ⟨quiet,by rw [FrameRead,scan_length four,if_pos (.inl (same.trans zero))]⟩
    rw [if_neg zero] at ended
    by_cases large : MAX_FRAME_BYTES < n
    · rw [if_pos large] at ended
      obtain ⟨rfl,rfl⟩ := runs_done.mp ended
      rw [append_nil]
      exact ⟨quiet,unfinished_large four (by omega)⟩
    rw [if_neg large] at ended
    have fits : ¬(be (consumed before) = 0 ∨ MAX_FRAME_BYTES < be (consumed before)) := by omega
    rcases runs_race_and_then ended with ⟨read,rfl,ran⟩ | ⟨error,rfl,ran⟩ | ⟨middle,last,bytes,rfl,ran,ended⟩
    · obtain ⟨more,rfl,still,short⟩ := race_read_exact ran
      refine ⟨before ++ more,by rw [append_assoc],quiet.append still,?_⟩
      rw [consumed_append]
      exact unfinished_payload four fits (by omega)
    · obtain ⟨still,short⟩ := race_read_exact ran
      refine ⟨quiet.append still,?_⟩
      rw [consumed_append]
      exact unfinished_payload four fits (by omega)
    · obtain ⟨still,content,whole⟩ := race_read_exact ran
      obtain ⟨rfl,rfl⟩ := runs_done.mp ended
      rw [append_nil]
      refine ⟨quiet.append still,?_⟩
      rw [FrameRead,consumed_append,scan_append,scan_length four,if_neg fits,scan_whole (by omega) (by omega),content]
      simp

theorem contested_fair (request : Request) (plain : Answer request) :
    ∃ answer, (contested request).2 answer = .inl plain := by
  cases request with
  | readByte => exact ⟨.Channel plain,rfl⟩
  | _ => exact ⟨plain,rfl⟩

theorem stands_same {plain raced : Event Request Answer} (stands : Stands contested plain raced) :
    byteOf plain = byteOf raced ∧ offeredBy plain = offeredBy raced ∧ receivedBy plain = receivedBy raced ∧
      returnedBy plain = returnedBy raced := by
  obtain ⟨won⟩ := stands
  rename_i request plain answer
  cases request with
  | readByte =>
    cases (answer : Ready) with
    | Channel byte =>
      cases won
      cases plain <;> exact ⟨rfl,rfl,rfl,rfl⟩
    | Remote read => cases won
  | _ =>
    cases won
    exact ⟨rfl,rfl,rfl,rfl⟩

theorem traces_same {plain raced : Trace} (stands : List.Forall₂ (Stands contested) plain raced) :
    consumed plain = consumed raced ∧ offered plain = offered raced ∧ received plain = received raced ∧
      returned plain = returned raced := by
  induction stands with
  | nil => exact ⟨rfl,rfl,rfl,rfl⟩
  | cons here _ ih =>
    obtain ⟨byte,offer,receive,give⟩ := stands_same here
    simp only [consumed,offered,received,returned,filterMap_cons,flatMap_cons,byte,offer,receive,give] at ih ⊢
    simp only [ih.1,ih.2.1,ih.2.2.1,ih.2.2.2,and_self]

/-- A frame read that nothing races with. -/
theorem read_frame_spec {result : Except IoError (Option Bytes)} (runs : Runs read_frame trace result) :
    Quiet trace ∧ FrameRead (consumed trace) result := by
  obtain ⟨raced,ran,stands⟩ := runs_race_of_runs contested_fair runs
  obtain ⟨quiet,read⟩ := race_read_frame ran
  obtain ⟨same,offer,receive,give⟩ := traces_same stands
  exact ⟨⟨offer.trans quiet.offered,receive.trans quiet.received,give.trans quiet.returned⟩,same ▸ read⟩

/-! ### One round of a tunnel -/

theorem write_frame_spec {result : Except IoError Unit} (runs : Runs (write_frame bytes) trace result) :
    consumed trace = [] ∧ offered trace = [] ∧ received trace = [] ∧ returned trace <+: bytes ∧
      (result = .ok () → returned trace = bytes) := by
  obtain ⟨before,after,header,rfl,wrote,ran⟩ := runs_bind.mp runs
  obtain rfl := runs_request.mp wrote
  cases (header : Except IoError Unit) with
  | error error =>
    obtain ⟨rfl,rfl⟩ := runs_pure.mp ran
    exact ⟨rfl,rfl,rfl,List.nil_prefix,nofun⟩
  | ok =>
    obtain ⟨first,last,written,rfl,content,ended⟩ := runs_bind.mp ran
    obtain rfl := runs_request.mp content
    obtain ⟨rfl,rfl⟩ := runs_pure.mp ended
    refine ⟨rfl,rfl,rfl,?_⟩
    have carried : returned ([⟨.write_u32 bytes.length,.ok ()⟩] ++ ([⟨.write_all bytes,written⟩] ++ [])) =
      passed written :=
      append_nil _
    rw [carried]
    match (written : Written bytes) with
    | .ok () => exact ⟨prefix_rfl,fun _ => rfl⟩
    | .error (error,count) => exact ⟨List.take_prefix _ _,nofun⟩

theorem answerFrame_spec {result : Except Stop Unit} (runs : Runs (answerFrame bytes) trace result) :
    consumed trace = [] ∧ offered trace = [] ∧ received trace = [] ∧ returned trace <+: bytes ∧
      (result = .ok () → returned trace = bytes) := by
  obtain ⟨before,after,written,rfl,wrote,ran⟩ := runs_bind.mp runs
  have spec := write_frame_spec wrote
  cases written with
  | error error =>
    obtain ⟨rfl,rfl⟩ := runs_pure.mp ran
    rw [append_nil]
    exact ⟨spec.1,spec.2.1,spec.2.2.1,spec.2.2.2.1,nofun⟩
  | ok =>
    obtain ⟨rfl,rfl⟩ := runs_pure.mp ran
    rw [append_nil]
    exact ⟨spec.1,spec.2.1,spec.2.2.1,spec.2.2.2.1,fun _ => spec.2.2.2.2 rfl⟩

/-- The scan at the start of a round: behind the client's end nothing is a frame. -/
def position (client_eof : Bool) : Reading := if client_eof then .Ended else .Header []

/-- What a round has carried: the frames of the client went to the destination, and
what came from the destination went back. A round that ends the tunnel may leave
one frame, and some of what came. -/
def Carried (client_eof : Bool) (trace : Trace) : Except Stop TunnelState → Prop
  | .ok next => returned trace = received trace ∧
      scan (position client_eof) (consumed trace) = (position next.client_eof,offered trace)
  | .error _ => returned trace <+: received trace ∧
      ∃ refused, (scan (position client_eof) (consumed trace)).2 = offered trace ++ refused ∧ refused.length ≤ 1

/-- The answer to an end or a failed write of the destination carries nothing. -/
theorem empty_answer {next : TunnelState}
    (runs : Runs ((answerFrame []).and_then fun _ => pure (.ok next)) trace result) :
    Quiet trace ∧ consumed trace = [] ∧ (result = .ok next ∨ ∃ stop, result = .error stop) := by
  obtain ⟨before,after,answered,rfl,wrote,ran⟩ := runs_bind.mp runs
  obtain ⟨nothing,noneOffered,noneReceived,carried,_⟩ := answerFrame_spec wrote
  have quiet : Quiet before := ⟨noneOffered,noneReceived,prefix_nil.mp carried⟩
  cases answered with
  | error stop =>
    obtain ⟨rfl,rfl⟩ := runs_pure.mp ran
    rw [append_nil]
    exact ⟨quiet,nothing,.inr ⟨stop,rfl⟩⟩
  | ok =>
    obtain ⟨rfl,rfl⟩ := runs_pure.mp ran
    rw [append_nil]
    exact ⟨quiet,nothing,.inl rfl⟩

theorem Carried.quiet {client_eof : Bool} {next : TunnelState} (quiet : Quiet trace)
    (scanned : scan (position client_eof) (consumed trace) = (position next.client_eof,[]))
    (ends : result = .ok next ∨ ∃ stop, result = .error stop) : Carried client_eof trace result := by
  rcases ends with rfl | ⟨stop,rfl⟩
  · exact ⟨quiet.returned.trans quiet.received.symm,by rw [scanned,quiet.offered]⟩
  · exact ⟨by rw [quiet.returned]; exact List.nil_prefix,[],by rw [scanned,quiet.offered]; rfl,by simp⟩

/-- A frame that was read, and what becomes of it. -/
theorem forwardFrame_carries {frame : Except IoError (Option Bytes)} {before : Trace}
    (openClient : state.client_eof = false) (quiet : Quiet before)
    (read : FrameRead (consumed before) frame) (runs : Runs (forwardFrame max_bytes state frame) trace result) :
    Carried state.client_eof (before ++ trace) result := by
  rw [openClient]
  match frame with
  | .error error =>
    obtain ⟨rfl,rfl⟩ := runs_pure.mp runs
    rw [append_nil]
    exact ⟨by rw [quiet.returned]; exact List.nil_prefix,[],by rw [quiet.offered]; exact read.1,by simp⟩
  | .ok none =>
    obtain ⟨first,last,answer,rfl,shut,ran⟩ := runs_bind.mp runs
    obtain rfl := runs_request.mp shut
    have still : Quiet [⟨.shutdown,answer⟩] := ⟨rfl,rfl,rfl⟩
    have untaken : consumed [⟨.shutdown,answer⟩] = [] := rfl
    cases (answer : Except IoError Unit) with
    | ok =>
      obtain ⟨rfl,rfl⟩ := runs_pure.mp ran
      refine Carried.quiet (quiet.append still) ?_ (.inl rfl)
      rw [append_nil,consumed_append,untaken,append_nil]
      exact read
    | error error =>
      obtain ⟨silent,nothing,ends⟩ := empty_answer ran
      refine Carried.quiet (quiet.append (still.append silent)) ?_ ends
      rw [consumed_append,consumed_append,nothing,untaken,append_nil,append_nil]
      exact read
  | .ok (some bytes) =>
    have scanned : scan (position false) (consumed before) = (position false,[bytes]) := read
    simp only [forwardFrame] at runs
    split_ifs at runs with exceeded
    · obtain ⟨rfl,rfl⟩ := runs_pure.mp runs
      rw [append_nil]
      exact ⟨by rw [quiet.returned]; exact List.nil_prefix,[bytes],by rw [scanned,quiet.offered]; rfl,by simp⟩
    obtain ⟨first,last,answer,rfl,wrote,ran⟩ := runs_bind.mp runs
    obtain rfl := runs_request.mp wrote
    have untaken : consumed [⟨.send bytes,answer⟩] = [] := rfl
    have handed : offered [⟨.send bytes,answer⟩] = [bytes] := rfl
    have silence : returned [⟨.send bytes,answer⟩] = [] ∧ received [⟨.send bytes,answer⟩] = [] := ⟨rfl,rfl⟩
    have carries : ∀ {rest : Trace} {result : Except Stop TunnelState} {next : TunnelState}, Quiet rest →
      consumed rest = [] →
        next.client_eof = false → (result = .ok next ∨ ∃ stop, result = .error stop) →
        Carried false (before ++ ([⟨.send bytes,answer⟩] ++ rest)) result := by
      intro rest result next still nothing going ends
      have gone : returned (before ++ ([⟨.send bytes,answer⟩] ++ rest)) =
        received (before ++ ([⟨.send bytes,answer⟩] ++ rest)) := by
        simp only [returned_append,received_append,quiet.returned,quiet.received,silence,still.returned,still.received]
      have taken : consumed (before ++ ([⟨.send bytes,answer⟩] ++ rest)) = consumed before := by
        rw [consumed_append,consumed_append,untaken,nothing,append_nil,append_nil]
      have given : offered (before ++ ([⟨.send bytes,answer⟩] ++ rest)) = [bytes] := by
        rw [offered_append,offered_append,quiet.offered,handed,still.offered]
        rfl
      rcases ends with rfl | ⟨stop,rfl⟩
      · exact ⟨gone,by rw [taken,given,scanned,going]⟩
      · exact ⟨by rw [gone],[],by rw [taken,given,scanned]; rfl,by simp⟩
    cases (answer : Written bytes) with
    | ok =>
      obtain ⟨rfl,rfl⟩ := runs_pure.mp ran
      exact carries .nil rfl (by exact openClient) (.inl rfl)
    | error failure =>
      obtain ⟨silent,nothing,ends⟩ := empty_answer ran
      exact carries silent nothing (by exact openClient) ends

/-- Bytes of the destination, and what becomes of them. -/
theorem returnBytes_carries {read : RemoteRead} {before : Trace}
    (untaken : consumed before = []) (unoffered : offered before = []) (silent : returned before = [])
    (arrived : received before = read_bytes read) (runs : Runs (returnBytes max_bytes state read) trace result) :
    Carried state.client_eof (before ++ trace) result := by
  have still : ∀ {next : TunnelState}, next.client_eof = state.client_eof → ∀ {rest : Trace}, consumed rest = [] →
    offered rest = [] →
      scan (position state.client_eof) (consumed (before ++ rest)) = (position next.client_eof,
        offered (before ++ rest)) := by
    intro next same rest nothing noneOffered
    rw [consumed_append,offered_append,untaken,unoffered,nothing,noneOffered,same]
    rfl
  have kept : ∀ {rest : Trace}, consumed rest = [] → offered rest = [] →
      ∃ refused, (scan (position state.client_eof) (consumed (before ++ rest))).2 =
        offered (before ++ rest) ++ refused ∧
        refused.length ≤ 1 := by
    intro rest nothing noneOffered
    exact ⟨[],by rw [still rfl nothing noneOffered,append_nil],by simp⟩
  simp only [returnBytes] at runs
  change Runs (if (read_bytes read).length = 0 then _ else _) trace result at runs
  split_ifs at runs with ended exceeded
  · obtain ⟨quiet,nothing,ends⟩ := empty_answer runs
    have gone : returned (before ++ trace) = received (before ++ trace) := by
      rw [returned_append,received_append,silent,arrived,quiet.returned,quiet.received,length_eq_zero_iff.mp ended]
    rcases ends with rfl | ⟨stop,rfl⟩
    · exact ⟨gone,still rfl nothing quiet.offered⟩
    · exact ⟨by rw [gone],kept nothing quiet.offered⟩
  · obtain ⟨rfl,rfl⟩ := runs_pure.mp runs
    exact ⟨by rw [append_nil,silent]; exact List.nil_prefix,kept rfl rfl⟩
  · obtain ⟨first,last,answered,rfl,wrote,ran⟩ := runs_bind.mp runs
    obtain ⟨nothing,noneOffered,noneReceived,carried,whole⟩ := answerFrame_spec wrote
    cases answered with
    | error stop =>
      obtain ⟨rfl,rfl⟩ := runs_pure.mp ran
      rw [append_nil]
      refine ⟨?_,kept nothing noneOffered⟩
      rw [returned_append,received_append,silent,arrived,noneReceived,append_nil]
      exact carried
    | ok =>
      obtain ⟨rfl,rfl⟩ := runs_pure.mp ran
      rw [append_nil]
      refine ⟨?_,still rfl nothing noneOffered⟩
      rw [returned_append,received_append,silent,arrived,noneReceived,append_nil,whole rfl]
      rfl

/-- The destination is never ready first while a frame is partly read. -/
def Undisturbed (reading : Reading) (trace : Trace) : Prop :=
  ∀ before read after, trace = before ++ ⟨.select,.Remote read⟩ :: after →
    (scan reading (consumed before)).1 = .Header []

theorem tunnelRound_carries (going : ¬(state.remote_eof && state.client_eof) = true)
    (undisturbed : Undisturbed (position state.client_eof) trace)
    (runs : Runs (tunnelRound max_bytes state) trace result) : Carried state.client_eof trace result := by
  unfold tunnelRound at runs
  split_ifs at runs with remote client
  · obtain ⟨before,after,frame,rfl,read,ran⟩ := runs_bind.mp runs
    obtain ⟨quiet,content⟩ := read_frame_spec read
    exact forwardFrame_carries (by simpa [remote] using going) quiet content ran
  · obtain ⟨before,after,read,rfl,asked,ran⟩ := runs_bind.mp runs
    obtain rfl := runs_request.mp asked
    exact returnBytes_carries rfl rfl rfl (append_nil _) ran
  · obtain ⟨before,after,first,rfl,raced,ran⟩ := runs_bind.mp runs
    have raced := race_read_frame raced
    have openClient : state.client_eof = false := by simpa using client
    cases first with
    | inl frame =>
      obtain ⟨quiet,content⟩ := raced
      exact forwardFrame_carries openClient quiet content ran
    | inr read =>
      obtain ⟨taken,rfl,quiet,unfinished⟩ := raced
      have fresh := undisturbed taken read after (by rw [append_assoc]; rfl)
      rw [openClient] at fresh
      have nothing := unfinished.2 fresh
      refine returnBytes_carries ?_ ?_ ?_ ?_ ran
      · rw [consumed_append,nothing]
        rfl
      · rw [offered_append,quiet.offered]
        rfl
      · rw [returned_append,quiet.returned]
        rfl
      · rw [received_append,quiet.received]
        exact append_nil _

theorem Undisturbed.append {reading : Reading} {first second : Trace}
    (undisturbed : Undisturbed reading (first ++ second)) :
    Undisturbed reading first ∧ Undisturbed (scan reading (consumed first)).1 second := by
  constructor
  · rintro before read after rfl
    exact undisturbed before read (after ++ second) (by simp)
  · rintro before read after rfl
    have here := undisturbed (first ++ before) read after (by simp)
    rwa [consumed_append,scan_append] at here

theorem tunnelLoop_carries : ∀ {fuel : Nat} {state : TunnelState} {trace : Trace} {result : Except Stop Nat},
    Undisturbed (position state.client_eof) trace → Runs (tunnelLoop max_bytes fuel state) trace result →
      returned trace <+: received trace ∧
        ∃ refused, (scan (position state.client_eof) (consumed trace)).2 = offered trace ++ refused ∧
          refused.length ≤ 1 := by
  intro fuel
  induction fuel with
  | zero =>
    intro state trace result _ runs
    obtain ⟨rfl,_⟩ := runs_pure.mp runs
    exact ⟨List.nil_prefix,[],rfl,by simp⟩
  | succ fuel ih =>
    intro state trace result undisturbed runs
    rw [tunnelLoop] at runs
    split_ifs at runs with finished
    · obtain ⟨rfl,_⟩ := runs_pure.mp runs
      exact ⟨List.nil_prefix,[],rfl,by simp⟩
    obtain ⟨before,after,next,rfl,round,ran⟩ := runs_bind.mp runs
    obtain ⟨now,later⟩ := undisturbed.append
    have carried := tunnelRound_carries finished now round
    cases next with
    | error stop =>
      obtain ⟨rfl,_⟩ := runs_pure.mp ran
      rw [append_nil]
      exact carried
    | ok next =>
      obtain ⟨gone,scanned⟩ := carried
      rw [scanned] at later
      obtain ⟨back,refused,frames,few⟩ := ih later ran
      refine ⟨?_,refused,?_,few⟩
      · rw [returned_append,received_append,gone]
        exact (prefix_append_right_inj _).mpr back
      · rw [consumed_append,scan_append,scanned,frames,offered_append,append_assoc]

/-! ### A whole tunnel -/

theorem try_read_frame {result : Except Stop (Option Bytes)} (runs : Runs (tryIo read_frame) trace result) :
    Quiet trace ∧ ∀ frame, result = .ok frame → FrameRead (consumed trace) (.ok frame) := by
  obtain ⟨before,after,read,rfl,ran,ended⟩ := runs_bind.mp runs
  obtain ⟨quiet,content⟩ := read_frame_spec ran
  cases read with
  | error error =>
    obtain ⟨rfl,rfl⟩ := runs_pure.mp ended
    rw [append_nil]
    exact ⟨quiet,nofun⟩
  | ok value =>
    obtain ⟨rfl,rfl⟩ := runs_pure.mp ended
    rw [append_nil]
    refine ⟨quiet,fun frame same => ?_⟩
    cases same
    exact content

/-- A prelude is the content of the frames read for it. -/
theorem read_https_prelude_carries {host : Host} : ∀ {fuel transferred : Nat} {bytes : Bytes} {trace : Trace}
    {result : Except Stop (Option Bytes × Nat)}, Runs
    (read_https_prelude host max_bytes fuel transferred bytes) trace result →
      Quiet trace ∧ ∀ prelude count, result = .ok (some prelude,count) →
        ∃ frames, scan (.Header []) (consumed trace) = (.Header [],frames) ∧ prelude = bytes ++ frames.flatten := by
  intro fuel
  induction fuel with
  | zero =>
    intro transferred bytes trace result runs
    obtain ⟨rfl,rfl⟩ := runs_pure.mp runs
    exact ⟨.nil,nofun⟩
  | succ fuel ih =>
    intro transferred bytes trace result runs
    obtain ⟨before,after,read,rfl,ran,ended⟩ := runs_bind.mp runs
    obtain ⟨quiet,content⟩ := try_read_frame ran
    match read with
    | .error stop =>
      obtain ⟨rfl,rfl⟩ := runs_pure.mp ended
      rw [append_nil]
      exact ⟨quiet,nofun⟩
    | .ok none =>
      obtain ⟨rfl,rfl⟩ := runs_pure.mp ended
      rw [append_nil]
      exact ⟨quiet,nofun⟩
    | .ok (some frame) =>
      have scanned : scan (.Header []) (consumed before) = (.Header [],[frame]) := content _ rfl
      dsimp only at ended
      split_ifs at ended with exceeded
      · obtain ⟨rfl,rfl⟩ := runs_pure.mp ended
        rw [append_nil]
        exact ⟨quiet,nofun⟩
      cases matched : tls_records_match_sni (bytes ++ frame) host with
      | Invalid =>
        simp only [matched] at ended
        obtain ⟨rfl,rfl⟩ := runs_pure.mp ended
        rw [append_nil]
        exact ⟨quiet,nofun⟩
      | Valid =>
        simp only [matched] at ended
        obtain ⟨rfl,rfl⟩ := runs_pure.mp ended
        rw [append_nil]
        refine ⟨quiet,fun prelude count same => ?_⟩
        cases same
        exact ⟨[frame],scanned,by simp⟩
      | Incomplete =>
        simp only [matched] at ended
        obtain ⟨still,rest⟩ := ih ended
        refine ⟨quiet.append still,fun prelude count same => ?_⟩
        obtain ⟨frames,later,content⟩ := rest prelude count same
        refine ⟨frame :: frames,?_,by rw [content,append_assoc,flatten_cons]⟩
        rw [consumed_append,scan_append,scanned,later]
        rfl

theorem drain_quiet : ∀ {fuel transferred : Nat} {trace : Trace} {result : Except Stop Nat},
    Runs (drain_rejected_tunnel max_bytes fuel transferred) trace result → Quiet trace := by
  intro fuel
  induction fuel with
  | zero =>
    intro transferred trace result runs
    obtain ⟨rfl,rfl⟩ := runs_pure.mp runs
    exact .nil
  | succ fuel ih =>
    intro transferred trace result runs
    obtain ⟨before,after,read,rfl,ran,ended⟩ := runs_bind.mp runs
    obtain ⟨quiet,content⟩ := try_read_frame ran
    match read with
    | .error stop =>
      obtain ⟨rfl,rfl⟩ := runs_pure.mp ended
      exact quiet.append .nil
    | .ok none =>
      obtain ⟨rfl,rfl⟩ := runs_pure.mp ended
      exact quiet.append .nil
    | .ok (some frame) =>
      dsimp only at ended
      split_ifs at ended with exceeded
      · obtain ⟨rfl,rfl⟩ := runs_pure.mp ended
        exact quiet.append .nil
      · exact quiet.append (ih ended)

/-- What a tunnel has carried: nothing, or the frames of the client, each whole and in
order, the first of them as one prelude, except for one that ended the tunnel. -/
structure Delivered (trace : Trace) : Prop where
  back : returned trace <+: received trace
  frames : offered trace = [] ∨ ∃ prelude rest refused, offered trace = prelude.flatten :: rest ∧
    payloads (consumed trace) = prelude ++ rest ++ refused ∧ refused.length ≤ 1

theorem Quiet.delivered (quiet : Quiet trace) : Delivered trace :=
  ⟨by rw [quiet.returned]; exact List.nil_prefix,.inl quiet.offered⟩

theorem tunnel_delivers {host : Host} {fuel transferred : Nat} {result : Except Stop Nat}
    (undisturbed : Undisturbed (.Header []) trace) (runs : Runs (tunnel host max_bytes fuel transferred) trace result) :
    Delivered trace := by
  obtain ⟨before,after,read,rfl,ran,ended⟩ := runs_bind.mp runs
  obtain ⟨quiet,content⟩ := read_https_prelude_carries ran
  match read with
  | .error stop =>
    obtain ⟨rfl,rfl⟩ := runs_pure.mp ended
    exact (quiet.append .nil).delivered
  | .ok (none,count) =>
    obtain ⟨wrote,drained,answered,rfl,wroteRun,rest⟩ := runs_bind.mp ended
    obtain ⟨first,last,written,rfl,frame,tried⟩ := runs_bind.mp wroteRun
    obtain ⟨_,noneOffered,noneReceived,carried,_⟩ := write_frame_spec frame
    have still : Quiet first := ⟨noneOffered,noneReceived,prefix_nil.mp carried⟩
    cases written with
    | error error =>
      obtain ⟨rfl,rfl⟩ := runs_pure.mp tried
      obtain ⟨rfl,rfl⟩ := runs_pure.mp rest
      exact (quiet.append ((still.append .nil).append .nil)).delivered
    | ok =>
      obtain ⟨rfl,rfl⟩ := runs_pure.mp tried
      exact (quiet.append ((still.append .nil).append (drain_quiet rest))).delivered
  | .ok (some prelude,count) =>
    obtain ⟨frames,scanned,whole⟩ := content prelude count rfl
    rw [nil_append] at whole
    obtain ⟨first,last,answer,rfl,asked,rest⟩ := runs_bind.mp ended
    obtain rfl := runs_request.mp asked
    have handed : offered (before ++ ([⟨.send prelude,answer⟩] ++ last)) = frames.flatten :: offered last := by
      rw [offered_append,offered_append,quiet.offered,← whole]
      rfl
    have carried : payloads (consumed (before ++ ([⟨.send prelude,answer⟩] ++ last))) =
        frames ++ payloads (consumed last) := by
      rw [consumed_append,payloads,scan_append,scanned]
      rfl
    have back : returned last <+: received last →
        returned (before ++ ([⟨.send prelude,answer⟩] ++ last)) <+: received
          (before ++ ([⟨.send prelude,answer⟩] ++ last)) := by
      intro later
      rw [returned_append,returned_append,received_append,received_append,quiet.returned,quiet.received]
      exact later
    obtain ⟨_,later⟩ := undisturbed.append
    rw [scanned] at later
    cases (answer : Written prelude) with
    | error failure =>
      obtain ⟨rfl,rfl⟩ := runs_pure.mp rest
      exact ⟨back List.nil_prefix,.inr ⟨frames,[],[],handed,carried.trans (by simp [payloads,consumed,scan]),by simp⟩⟩
    | ok =>
      obtain ⟨returns,refused,handedOn,few⟩ := tunnelLoop_carries (by exact later.append.2) rest
      exact ⟨back returns,.inr ⟨frames,offered last,refused,handed,
        by rw [carried,append_assoc]; exact congrArg (frames ++ ·) handedOn,few⟩⟩

/-- A stream to the destination that has failed takes no more bytes. -/
def StaysBroken (trace : Trace) : Prop :=
  ∀ before bytes failure after, trace = before ++ ⟨.send bytes,.error failure⟩ :: after → sent after = []

theorem sent_of_offered (broken : StaysBroken trace) : sent trace <+: (offered trace).flatten := by
  induction trace with
  | nil => exact List.nil_prefix
  | cons event rest ih =>
    have later : StaysBroken rest := by
      rintro before bytes failure after rfl
      exact broken (event :: before) bytes failure after rfl
    obtain ⟨request,answer⟩ := event
    cases request with
    | send bytes =>
      cases (answer : Written bytes) with
      | ok =>
        show bytes ++ sent rest <+: bytes ++ (offered rest).flatten
        exact (prefix_append_right_inj _).mpr (ih later)
      | error failure =>
        show bytes.take failure.2 ++ sent rest <+: bytes ++ (offered rest).flatten
        rw [broken [] bytes failure rest rfl,append_nil]
        exact (List.take_prefix _ _).trans (prefix_append _ _)
    | _ => exact ih later

/-- The bytes of the destination are the first of those the client has sent. -/
theorem Delivered.sent (delivered : Delivered trace) (broken : StaysBroken trace) :
    sent trace <+: (payloads (consumed trace)).flatten := by
  refine (sent_of_offered broken).trans ?_
  rcases delivered.frames with nothing | ⟨prelude,rest,refused,handed,frames,_⟩
  · rw [nothing]
    exact List.nil_prefix
  · rw [handed,frames,flatten_cons,flatten_append,flatten_append]
    exact prefix_append _ _

/-- A tunnel in which the destination is never ready while a frame is partly read, and
in which a failed stream stays so, carries the bytes of both sides in order and loses
or confuses none of the client's frames. -/
theorem undisturbed_tunnel_delivers (host : Host) (max_bytes fuel transferred : Nat) (trace : Trace)
    (result : Except Stop Nat)
    (runs : Runs (tunnel host max_bytes fuel transferred) trace result) (undisturbed : Undisturbed (.Header []) trace)
    (broken : StaysBroken trace) : sent trace <+: (payloads (consumed trace)).flatten ∧ Delivered trace :=
  ⟨(tunnel_delivers undisturbed runs).sent broken,tunnel_delivers undisturbed runs⟩

/-! ### A frame read that is dropped -/

/-- A client hello for the host `a.b`, in one record. -/
def sampleHello : Bytes :=
  [22,3,1,0,59,1,0,0,55,3,3] ++ replicate 32 0 ++ [0,0,2,0x13,1,1,0,0,12,0,0,0,8,0,6,0,0,3,0x61,0x2e,0x62]
/-- A client that sends the hello and then one frame of five bytes. -/
def sampleStream : Bytes := [0,0,0,64] ++ sampleHello ++ [0,0,0,5,0,0,0,1,0x58]

/-- The destination has one byte to say, when the client's stream has come so far. -/
def sampleWorld (cut : Nat) : World Request Answer := fun past request =>
  let byte : Except IoError UInt8 := match sampleStream[(consumed past).length]? with
    | some byte => .ok byte
    | none => .error .UnexpectedEof
  match request with
  | .readByte => byte
  | .select => if (consumed past).length = cut ∧ received past = [] then .Remote (.ok ⟨[0x7a],
      by decide⟩) else .Channel byte
  | other => (default : Answer other)

/-- The events of a tunnel to `a.b` in this world, and how it ends. -/
def sampleRun (cut : Nat) : Trace × Except Stop Nat := (tunnel [0x61,0x2e,0x62] 1024 8 0).play (sampleWorld cut) []
/-- No write to the destination fails. -/
def unbroken (trace : Trace) : Bool := trace.all fun
  | ⟨.send _,.error _⟩ => false
  | _ => true

theorem unbroken_stays (fine : unbroken trace = true) : StaysBroken trace := by
  rintro before bytes failure after rfl
  have here := all_eq_true.mp fine ⟨.send bytes,.error failure⟩ (by simp)
  cases here

/-- The header of the second frame is lost, and its payload is read as a header. -/
theorem dropped_header_is_lost : ∃ trace result, Runs (tunnel [0x61,0x2e,0x62] 1024 8 0) trace result ∧
    StaysBroken trace ∧
    payloads (consumed trace) = [sampleHello,[0,0,0,1,0x58]] ∧ offered trace = [sampleHello,[0x58]] ∧
    ¬(sent trace <+: (payloads (consumed trace)).flatten) :=
  ⟨(sampleRun 72).1,(sampleRun 72).2,runs_play _ _ [],unbroken_stays (by decide +kernel),
    by decide +kernel,by decide +kernel,
    by decide +kernel⟩

/-- A check of a trace for a destination that is ready between frames only. -/
def calm : Reading → Trace → Bool
  | _, [] => true
  | reading, event :: rest =>
    (match event with
      | ⟨.select,.Remote _⟩ => reading == .Header []
      | _ => true) && calm (scan reading (consumed [event])).1 rest

theorem calm_undisturbed : ∀ {trace : Trace} {reading : Reading}, calm reading trace = true →
    Undisturbed reading trace := by
  intro trace
  induction trace with
  | nil =>
    intro reading _ before read after split
    simp at split
  | cons event rest ih =>
    intro reading check before read after split
    obtain ⟨here,later⟩ := Bool.and_eq_true_iff.mp check
    cases before with
    | nil =>
      cases split
      exact eq_of_beq here
    | cons head tail =>
      cases split
      have after := ih later tail read after rfl
      rwa [show event :: tail = [event] ++ tail from rfl,consumed_append,scan_append]

/-- The same bytes, with the destination ready between the two frames. -/
theorem calm_tunnel_delivers : ∃ trace result, Runs (tunnel [0x61,0x2e,0x62] 1024 8 0) trace result ∧
    Undisturbed (.Header []) trace ∧ StaysBroken trace ∧ received trace = [0x7a] ∧
    sent trace <+: (payloads (consumed trace)).flatten ∧ Delivered trace := by
  have runs : Runs (tunnel [0x61,0x2e,0x62] 1024 8 0) (sampleRun 68).1 (sampleRun 68).2 := runs_play _ _ []
  have undisturbed : Undisturbed (.Header []) (sampleRun 68).1 := calm_undisturbed (by decide +kernel)
  have broken : StaysBroken (sampleRun 68).1 := unbroken_stays (by decide +kernel)
  exact ⟨_,_,runs,undisturbed,broken,by decide +kernel,undisturbed_tunnel_delivers _ _ _ _ _ _ runs undisturbed broken⟩

end Vyane.Networks
