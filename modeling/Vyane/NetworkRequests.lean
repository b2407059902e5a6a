import Vyane.NetworkTunnels

/-!
One request after another. Proxy and broker read frames up to the first empty one and take the next byte for what
follows. They stay in step if the broker writes one end of stream for each request it accepts, and reads just one.
-/
namespace Vyane.Networks
open Interactions Interactions.Program Vyane.Core List

/-! ### What is written to the channel -/

/-- `write_u32`: the most significant byte first. -/
def be32 (value : Nat) : Bytes :=
  [UInt8.ofNat (value / 2 ^ 24),UInt8.ofNat (value / 2 ^ 16),UInt8.ofNat (value / 2 ^ 8),UInt8.ofNat value]
def frameBytes (payload : Bytes) : Bytes := be32 payload.length ++ payload

def writtenBy : Event Request Answer → Bytes
  | ⟨.write_u8 value,.ok ()⟩ => [value]
  | ⟨.write_u32 value,.ok ()⟩ => be32 value
  | ⟨.write_all _,written⟩ => passed written
  | _ => []

def frameBy : Event Request Answer → Option Bytes
  | ⟨.write_all bytes,.ok ()⟩ => some bytes
  | _ => none

/-- The destination shows that it has ended, or that it takes no more. -/
def ending : Event Request Answer → Bool
  | ⟨.send _,.error _⟩ => true
  | ⟨.shutdown,.error _⟩ => true
  | ⟨.select,.Remote read⟩ => (read_bytes read).isEmpty
  | ⟨.remoteRead,read⟩ => (read_bytes read).isEmpty
  | _ => false

/-- The bytes and the whole frames that the proxy gets, and how often the destination has ended. -/
def written (trace : Trace) : Bytes := trace.flatMap writtenBy
def frames (trace : Trace) : List Bytes := trace.filterMap frameBy
def endings (trace : Trace) : Nat := trace.countP ending

/-- A trace in which these frames were written, and the destination has ended so often. -/
structure Wrote (trace : Trace) (data : List Bytes) (ends : Nat) : Prop where
  frames : frames trace = data
  written : written trace = data.flatMap frameBytes
  endings : endings trace = ends

theorem Wrote.append {first second : Trace} {one two : List Bytes} {few more : Nat} (before : Wrote first one few)
    (after : Wrote second two more) : Wrote (first ++ second) (one ++ two) (few + more) :=
  ⟨by rw [Networks.frames,filterMap_append]; exact congrArg₂ (· ++ ·) before.frames after.frames,
    by rw [Networks.written,flatMap_append,flatMap_append]; exact congrArg₂ (· ++ ·) before.written after.written,
    by rw [Networks.endings,countP_append]; exact congrArg₂ (· + ·) before.endings after.endings⟩

/-- Nothing of this in an event. -/
def Muted (event : Event Request Answer) : Prop := frameBy event = none ∧ writtenBy event = [] ∧ ending event = false

theorem Wrote.nothing {trace : Trace} (muted : ∀ event ∈ trace, Muted event) : Wrote trace [] 0 :=
  ⟨filterMap_eq_nil_iff.mpr fun event here => (muted event here).1,
    flatMap_eq_nil_iff.mpr fun event here => (muted event here).2.1,
    countP_eq_zero.mpr fun event here => by simp [(muted event here).2.2]⟩

theorem Wrote.nil : Wrote [] [] 0 := ⟨rfl,rfl,rfl⟩

/-! ### Reading writes nothing -/

theorem reads_exact : ∀ (wanted : Nat) (bytes : Bytes), (read_exact wanted bytes).Only (· = .readByte) := by
  intro wanted
  induction wanted with
  | zero => exact fun _ => trivial
  | succ wanted ih =>
    intro bytes
    refine only_bind (only_request rfl) fun answer => ?_
    cases (answer : Except IoError UInt8) with
    | ok byte => exact ih _
    | error error => trivial

theorem reads_uint (size : Nat) : (readUint size).Only (· = .readByte) :=
  only_and_then (reads_exact size []) fun _ => trivial

theorem reads_frame : read_frame.Only (· = .readByte) := by
  refine only_and_then (reads_uint 4) fun length => ?_
  split_ifs
  · trivial
  · trivial
  · exact only_and_then (reads_exact _ _) fun _ => trivial

theorem reads_try {α : Type} {program : Broker (Except IoError α)} (only : program.Only (· = .readByte)) :
    (tryIo program).Only (· = .readByte) := by
  refine only_bind only fun value => ?_
  cases value <;> trivial

variable {max_bytes : Nat} {host : Host} {bytes : Bytes} {state next : TunnelState} {reading : Reading}
  {data : List Bytes} {result : Except Stop Nat}

theorem reads_drain : ∀ fuel transferred : Nat,
    (drain_rejected_tunnel max_bytes fuel transferred).Only (· = .readByte) := by
  intro fuel
  induction fuel with
  | zero => exact fun _ => trivial
  | succ fuel ih =>
    refine fun transferred => only_and_then (reads_try reads_frame) fun frame => ?_
    cases frame with
    | none => trivial
    | some frame =>
      dsimp only
      split_ifs
      · trivial
      · exact ih _

theorem reads_prelude : ∀ (fuel transferred : Nat) (bytes : Bytes),
    (read_https_prelude host max_bytes fuel transferred bytes).Only (· = .readByte) := by
  intro fuel
  induction fuel with
  | zero => exact fun _ _ => trivial
  | succ fuel ih =>
    refine fun transferred bytes => only_and_then (reads_try reads_frame) fun frame => ?_
    cases frame with
    | none => trivial
    | some frame =>
      dsimp only
      split_ifs
      · trivial
      · cases tls_records_match_sni (bytes ++ frame) host with
        | Incomplete => exact ih _ _
        | Invalid => trivial
        | Valid => trivial

theorem Wrote.reads {α : Type} {program : Broker α} {trace : Trace} {value : α} (only : program.Only (· = .readByte))
    (runs : Runs program trace value) : Wrote trace [] 0 := by
  refine .nothing fun event here => ?_
  obtain ⟨request,answer⟩ := event
  obtain rfl : request = .readByte := allowed_of_runs only runs _ here
  exact ⟨rfl,rfl,rfl⟩

/-- A read that waits for the destination as well. -/
theorem race_reads {α : Type} {program : Broker α} : program.Only (· = .readByte) →
    ∀ {trace : Trace} {result : α ⊕ RemoteRead},
    Runs (program.race contested) trace result →
      match result with
      | .inl _ => Wrote trace [] 0
      | .inr read => ∃ before, trace = before ++ [⟨.select,.Remote read⟩] ∧ Wrote before [] 0 := by
  induction program with
  | done value =>
    intro _ trace result runs
    obtain ⟨rfl,rfl⟩ := runs_done.mp runs
    exact .nil
  | ask request next ih =>
    intro only trace result runs
    obtain rfl : request = .readByte := only.1
    rcases race_read_byte runs with ⟨read,rfl,rfl⟩ | ⟨byte,rest,rfl,ran⟩
    · exact ⟨[],rfl,.nil⟩
    · have here : Wrote [⟨.select,.Channel byte⟩] [] 0 := ⟨rfl,rfl,rfl⟩
      have later := ih byte (only.2 byte) ran
      cases result with
      | inl value => exact here.append later
      | inr read =>
        obtain ⟨before,rfl,muted⟩ := later
        exact ⟨_,rfl,here.append muted⟩

/-! ### The end of an answer -/

theorem write_frame_wrote {trace : Trace} (runs : Runs (write_frame bytes) trace (.ok ())) :
    Wrote trace [bytes] 0 := by
  obtain ⟨before,after,header,rfl,wrote,ran⟩ := runs_bind.mp runs
  obtain rfl := runs_request.mp wrote
  cases (header : Except IoError Unit) with
  | error error => cases (runs_pure.mp ran).2
  | ok =>
    obtain ⟨first,last,content,rfl,asked,ended⟩ := runs_bind.mp ran
    obtain rfl := runs_request.mp asked
    obtain ⟨rfl,fine⟩ := runs_pure.mp ended
    match (content : Written bytes), fine with
    | .ok (), _ => exact ⟨rfl,rfl,rfl⟩

theorem tryIo_ok {α : Type} {program : Broker (Except IoError α)} {trace : Trace} {value : α}
    (runs : Runs (tryIo program) trace (.ok value)) : Runs program trace (.ok value) := by
  obtain ⟨before,after,result,rfl,ran,ended⟩ := runs_bind.mp runs
  cases result with
  | error error => cases (runs_pure.mp ended).2
  | ok result =>
    obtain ⟨rfl,same⟩ := runs_pure.mp ended
    cases same
    rwa [append_nil]

theorem answerFrame_wrote {trace : Trace} (runs : Runs (answerFrame bytes) trace (.ok ())) :
    Wrote trace [bytes] 0 := by
  obtain ⟨before,after,result,rfl,ran,ended⟩ := runs_bind.mp runs
  cases result with
  | error error => cases (runs_pure.mp ended).2
  | ok =>
    obtain ⟨rfl,_⟩ := runs_pure.mp ended
    rw [append_nil]
    exact write_frame_wrote ran

/-- An answer and then the next state. -/
theorem answered_wrote {trace : Trace}
    (runs : Runs ((answerFrame bytes).and_then fun _ => pure (.ok state)) trace (.ok next)) :
    Wrote trace [bytes] 0 ∧ next = state := by
  obtain ⟨error,failed⟩ | ⟨before,after,value,rfl,wrote,ended⟩ := runs_and_then runs
  · cases failed
  · obtain ⟨rfl,same⟩ := runs_pure.mp ended
    cases same
    rw [append_nil]
    exact ⟨answerFrame_wrote wrote,rfl⟩

/-- A frame of data as the broker writes it. -/
def DataFrame (frame : Bytes) : Prop := frame ≠ [] ∧ frame.length ≤ MAX_FRAME_BYTES

/-- What one round has written: data, while the destination has not ended, or the end of
the stream, just when the destination shows its end. -/
inductive Signed (state next : TunnelState) (trace : Trace) : Prop
  | data (frames : List Bytes) (wrote : Wrote trace frames 0) (whole : ∀ frame ∈ frames, DataFrame frame)
      (beforeEnd : state.remote_eof = true → frames = []) (same : next.remote_eof = state.remote_eof)
  | ended (wrote : Wrote trace [[]] 1) (done : next.remote_eof = true)

theorem Signed.quiet {trace : Trace} (wrote : Wrote trace [] 0) (same : next.remote_eof = state.remote_eof) :
    Signed state next trace := .data [] wrote nofun (fun _ => rfl) same

theorem forwardFrame_signs {frame : Except IoError (Option Bytes)} {before trace : Trace}
    (muted : Wrote before [] 0) (runs : Runs (forwardFrame max_bytes state frame) trace (.ok next)) :
    Signed state next (before ++ trace) := by
  match frame with
  | .error error => cases (runs_pure.mp runs).2
  | .ok none =>
    obtain ⟨first,last,answer,rfl,shut,ran⟩ := runs_bind.mp runs
    obtain rfl := runs_request.mp shut
    cases (answer : Except IoError Unit) with
    | ok =>
      obtain ⟨rfl,same⟩ := runs_pure.mp ran
      cases same
      exact .quiet (muted.append ⟨rfl,rfl,rfl⟩) rfl
    | error error =>
      obtain ⟨wrote,rfl⟩ := answered_wrote ran
      have shown : Wrote [⟨.shutdown,.error error⟩] [] 1 := ⟨rfl,rfl,rfl⟩
      exact .ended (muted.append (shown.append wrote)) rfl
  | .ok (some bytes) =>
    simp only [forwardFrame] at runs
    split_ifs at runs with exceeded
    · cases (runs_pure.mp runs).2
    obtain ⟨first,last,answer,rfl,asked,ran⟩ := runs_bind.mp runs
    obtain rfl := runs_request.mp asked
    cases (answer : Written bytes) with
    | ok =>
      obtain ⟨rfl,same⟩ := runs_pure.mp ran
      cases same
      exact .quiet (muted.append ⟨rfl,rfl,rfl⟩) rfl
    | error failure =>
      obtain ⟨wrote,rfl⟩ := answered_wrote ran
      have shown : Wrote [⟨.send bytes,.error failure⟩] [] 1 := ⟨rfl,rfl,rfl⟩
      exact .ended (muted.append (shown.append wrote)) rfl

/-- The destination was read, and ended if there was nothing to read. -/
theorem returnBytes_signs {read : RemoteRead} {before trace : Trace}
    (going : state.remote_eof = false) (muted : Wrote before [] (if (read_bytes read).isEmpty then 1 else 0))
    (runs : Runs (returnBytes max_bytes state read) trace (.ok next)) : Signed state next (before ++ trace) := by
  simp only [returnBytes] at runs
  change Runs (if (read_bytes read).length = 0 then _ else _) trace (Except.ok next) at runs
  split_ifs at runs with ended exceeded
  · obtain ⟨wrote,rfl⟩ := answered_wrote runs
    rw [length_eq_zero_iff.mp ended] at muted
    exact .ended (muted.append wrote) rfl
  · cases (runs_pure.mp runs).2
  · obtain ⟨wrote,rfl⟩ := answered_wrote runs
    have someBytes : read_bytes read ≠ [] := fun noneLeft => ended (by rw [noneLeft]; rfl)
    have short : (read_bytes read).length ≤ MAX_FRAME_BYTES := by
      cases read with
      | ok bytes => exact bytes.2
      | error error => exact Nat.zero_le _
    rw [if_neg (by simpa using someBytes)] at muted
    exact .data [read_bytes read] (muted.append wrote) (forall_mem_singleton.mpr ⟨someBytes,short⟩)
      (fun overNow => by rw [going] at overNow; cases overNow) rfl

theorem tunnelRound_signs {trace : Trace}
    (runs : Runs (tunnelRound max_bytes state) trace (.ok next)) : Signed state next trace := by
  unfold tunnelRound at runs
  split_ifs at runs with remote client
  · obtain ⟨before,after,frame,rfl,read,ran⟩ := runs_bind.mp runs
    exact forwardFrame_signs (.reads reads_frame read) ran
  · obtain ⟨before,after,read,rfl,asked,ran⟩ := runs_bind.mp runs
    obtain rfl := runs_request.mp asked
    refine returnBytes_signs (by simpa using remote) ⟨rfl,rfl,?_⟩ ran
    exact countP_singleton ..
  · obtain ⟨before,after,first,rfl,raced,ran⟩ := runs_bind.mp runs
    have raced := race_reads reads_frame raced
    cases first with
    | inl frame => exact forwardFrame_signs raced ran
    | inr read =>
      obtain ⟨taken,rfl,muted⟩ := raced
      have shown : Wrote [⟨.select,.Remote read⟩] [] (if (read_bytes read).isEmpty then 1 else 0) :=
        ⟨rfl,rfl,countP_singleton ..⟩
      have both := muted.append shown
      rw [Nat.zero_add] at both
      exact returnBytes_signs (by simpa using remote) both ran

/-- What is still to be written when the rest of a tunnel has shown at most the one end it may. -/
def leftToWrite (remote_eof : Bool) : List Bytes := if remote_eof then [] else [[]]

theorem tunnelLoop_signs : ∀ {fuel : Nat} {state : TunnelState} {trace : Trace} {count : Nat},
    Runs (tunnelLoop max_bytes fuel state) trace (.ok count) → endings trace + state.remote_eof.toNat ≤ 1 →
      ∃ data, Wrote trace (data ++ leftToWrite state.remote_eof) (endings trace) ∧ (∀ frame ∈ data, DataFrame frame) ∧
        (state.remote_eof = true → data = []) := by
  intro fuel
  induction fuel with
  | zero =>
    intro state trace count runs _
    cases (runs_pure.mp runs).2
  | succ fuel ih =>
    intro state trace count runs once
    rw [tunnelLoop] at runs
    split_ifs at runs with finished
    · obtain ⟨rfl,_⟩ := runs_pure.mp runs
      have remote : state.remote_eof = true := (Bool.and_eq_true_iff.mp finished).1
      rw [remote]
      exact ⟨[],⟨rfl,rfl,rfl⟩,forall_mem_nil _,fun _ => rfl⟩
    obtain ⟨error,failed⟩ | ⟨before,after,next,rfl,round,ran⟩ := runs_and_then runs
    · cases failed
    have split : endings (before ++ after) = endings before + endings after := countP_append
    rw [split] at once ⊢
    cases tunnelRound_signs round with
    | data frames wrote whole beforeEnd same =>
      rw [wrote.endings] at once ⊢
      obtain ⟨data,later,rest,silent⟩ := ih ran (by rw [same]; omega)
      rw [same] at later silent
      refine ⟨frames ++ data,?_,forall_mem_append.mpr ⟨whole,rest⟩,
        fun shown => by rw [beforeEnd shown,silent shown]; rfl⟩
      rw [append_assoc]
      exact wrote.append later
    | ended wrote done =>
      rw [wrote.endings] at once ⊢
      obtain ⟨data,later,_,silent⟩ := ih ran (by rw [done,Bool.toNat_true]; omega)
      -- The one end has been shown, so that nothing more was written.
      have unended : state.remote_eof = false := by
        cases shown : state.remote_eof with
        | false => rfl
        | true => rw [shown,Bool.toNat_true] at once; omega
      rw [done,silent done] at later
      rw [unended]
      exact ⟨[],wrote.append later,forall_mem_nil _,fun _ => rfl⟩

/-- A tunnel after which the broker goes on has written its data and one end of stream. -/
theorem tunnel_signs {fuel transferred count : Nat} {trace : Trace}
    (runs : Runs (tunnel host max_bytes fuel transferred) trace (.ok count)) (once : endings trace ≤ 1) :
    ∃ data, Wrote trace (data ++ [[]]) (endings trace) ∧ ∀ frame ∈ data, DataFrame frame := by
  obtain ⟨error,failed⟩ | ⟨before,after,⟨prelude,moved⟩,rfl,read,ran⟩ := runs_and_then runs
  · cases failed
  have heard := Wrote.reads (reads_prelude _ _ _) read
  have split : endings (before ++ after) = endings after := by
    rw [endings,countP_append]
    exact (congrArg (· + _) heard.endings).trans (Nat.zero_add _)
  rw [split] at once ⊢
  cases prelude with
  | none =>
    obtain ⟨error,failed⟩ | ⟨first,last,value,rfl,answered,drained⟩ := runs_and_then ran
    · cases failed
    have wrote := (write_frame_wrote (tryIo_ok answered)).append (.reads (reads_drain _ _) drained)
    rw [wrote.endings]
    exact ⟨[],heard.append wrote,nofun⟩
  | some prelude =>
    obtain ⟨first,last,answer,rfl,asked,rest⟩ := runs_bind.mp ran
    obtain rfl := runs_request.mp asked
    match (answer : Written prelude) with
    | .error (error,_) => cases (runs_pure.mp rest).2
    | .ok () =>
      obtain ⟨data,wrote,whole,_⟩ := tunnelLoop_signs rest once
      have passedOn : Wrote [⟨.send prelude,.ok ()⟩] [] 0 := ⟨rfl,rfl,rfl⟩
      have all := heard.append (passedOn.append wrote)
      rw [Nat.zero_add,Nat.zero_add] at all
      exact ⟨data,all,whole⟩

/-! ### One stream of frames -/

/-- The frames of one stream, up to its end and no further. -/
def OneStream (bytes : Bytes) (data : List Bytes) : Prop :=
  ∃ front, bytes = front ++ [0,0,0,0] ∧ scan (.Header []) front = (.Header [],data)
/-- No byte behind the end of a stream is among these. -/
def Unpassed (reading : Reading) (bytes : Bytes) : Prop :=
  ∀ front byte rest, bytes = front ++ byte :: rest → (scan reading front).1 ≠ .Ended

theorem Unpassed.nil : Unpassed reading [] := by
  intro front byte rest split
  simp at split

theorem Unpassed.append {first second : Bytes} (before : Unpassed reading first)
    (after : Unpassed (scan reading first).1 second) : Unpassed reading (first ++ second) := by
  intro front byte rest split
  rcases append_eq_append_iff.mp split with ⟨middle,rfl,more⟩ | ⟨middle,rfl,more⟩
  · rw [scan_append]
    exact after middle byte rest more
  · cases middle with
    | nil =>
      rw [append_nil] at after
      exact after [] byte rest more.symm
    | cons head tail =>
      cases more
      exact before front byte tail rfl

theorem scan_ended (bytes : Bytes) : scan .Ended bytes = (.Ended,[]) := by
  induction bytes with
  | nil => rfl
  | cons byte rest ih =>
    rw [scan]
    simp only [Reading.take,ih,append_nil]

/-- What has not ended has not passed an end. -/
theorem unpassed_of_going (going : (scan reading bytes).1 ≠ .Ended) : Unpassed reading bytes := by
  rintro front byte rest rfl ended
  rw [scan_append,ended,scan_ended] at going
  exact going rfl

theorem unpassed_header (short : bytes.length ≤ 4) : Unpassed (.Header []) bytes := by
  rintro front byte rest rfl
  rw [length_append,length_cons] at short
  rw [scan_header (by rw [length_nil]; omega)]
  nofun

theorem unpassed_payload {left : Nat} (short : bytes.length ≤ left) : Unpassed (.Payload left []) bytes := by
  rintro front byte rest rfl
  rw [length_append,length_cons] at short
  rw [scan_payload (by omega)]
  nofun

/-- The first end of a stream is in one place. -/
theorem Unpassed.within {stream whole : Bytes} (unpassed : Unpassed (.Header []) bytes)
    (ended : (scan (.Header []) stream).1 = .Ended) (one : bytes <+: whole) (two : stream <+: whole) :
    bytes <+: stream := by
  rcases prefix_or_prefix_of_prefix one two with inside | ⟨rest,rfl⟩
  · exact inside
  · cases rest with
    | nil => rw [append_nil]
    | cons byte rest => exact absurd ended (unpassed stream byte rest rfl)

theorem OneStream.ended (stream : OneStream bytes data) :
    scan (.Header []) bytes = (.Ended,data) := by
  obtain ⟨front,rfl,scanned⟩ := stream
  rw [scan_append,scanned,scan_length rfl,if_pos (.inl rfl),append_nil]

theorem OneStream.unpassed (stream : OneStream bytes data) :
    Unpassed (.Header []) bytes := by
  obtain ⟨front,rfl,scanned⟩ := stream
  refine (unpassed_of_going (by rw [scanned]; nofun)).append ?_
  rw [scanned]
  exact unpassed_header le_rfl

/-- Who reads frames up to the first end finds the stream and what follows it. -/
theorem OneStream.unique {other rest more : Bytes} {frames : List Bytes} (one : OneStream bytes data)
    (two : OneStream other frames) (same : bytes ++ rest = other ++ more) :
    bytes = other ∧ data = frames ∧ rest = more := by
  have first : bytes <+: bytes ++ rest := prefix_append _ _
  have second : other <+: bytes ++ rest := same ▸ prefix_append _ _
  have equal : bytes = other := (one.unpassed.within (by rw [two.ended]) first second).eq_of_length_le
    (two.unpassed.within (by rw [one.ended]) second first).length_le
  subst equal
  exact ⟨rfl,(Prod.mk.inj (one.ended.symm.trans two.ended)).2,append_cancel_left same⟩

theorem be_be32 {value : Nat} (small : value < 2 ^ 32) : be (be32 value) = value := by
  simp only [be,be32,foldl_cons,foldl_nil,UInt8.toNat_ofNat']
  omega

theorem scan_frame {frame : Bytes} (data : DataFrame frame) : scan (.Header []) (frameBytes frame) =
    (.Header [],[frame]) := by
  have positive : 0 < frame.length := length_pos_iff.mpr data.1
  have short := data.2
  have length : be (be32 frame.length) = frame.length := be_be32 (by unfold MAX_FRAME_BYTES at short; omega)
  rw [frameBytes,scan_append,scan_length rfl,length,if_neg (by omega),scan_whole positive rfl]
  rfl

theorem scan_frames (whole : ∀ frame ∈ data, DataFrame frame) :
    scan (.Header []) (data.flatMap frameBytes) = (.Header [],data) := by
  induction data with
  | nil => rfl
  | cons frame rest ih =>
    obtain ⟨here,later⟩ := forall_mem_cons.mp whole
    rw [flatMap_cons,scan_append,scan_frame here,ih later]
    rfl

/-- What is written for an accepted request is one stream. -/
theorem Wrote.one_stream {trace : Trace} {ends : Nat} (wrote : Wrote trace (data ++ [[]]) ends)
    (whole : ∀ frame ∈ data, DataFrame frame) : OneStream (Networks.written trace) data := by
  refine ⟨data.flatMap frameBytes,?_,scan_frames whole⟩
  rw [wrote.written,flatMap_append]
  rfl

/-! ### The client's end of stream is read once -/

theorem race_read_exact_short {wanted : Nat} {got : Bytes} {trace : Trace} {result : Except IoError Bytes ⊕ RemoteRead}
    (runs : Runs ((read_exact wanted got).race contested) trace result) : (consumed trace).length ≤ wanted := by
  have read := race_read_exact runs
  match result, read with
  | .inl (.ok bytes), ⟨_,_,whole⟩ => exact whole.le
  | .inl (.error _), ⟨_,short⟩ => exact short.le
  | .inr read, ⟨before,split,_,short⟩ =>
    rw [split,consumed_append]
    exact (append_nil (consumed before)).symm ▸ short.le

theorem consumed_dropped {read : RemoteRead} {unread : Bytes → Prop} {trace : Trace}
    (dropped : Dropped read unread trace) :
    unread (consumed trace) := by
  obtain ⟨before,rfl,_,short⟩ := dropped
  rw [consumed_append]
  exact (append_nil (consumed before)).symm ▸ short

theorem race_read_frame_unpassed {trace : Trace} {result : Except IoError (Option Bytes) ⊕ RemoteRead}
    (runs : Runs (read_frame.race contested) trace result) : Unpassed (.Header []) (consumed trace) := by
  rcases runs_race_and_then runs with ⟨read,rfl,ran⟩ | ⟨error,rfl,ran⟩ | ⟨before,after,n,rfl,ran,ended⟩
  · exact unpassed_header (consumed_dropped (race_read_length ran)).le
  · exact unpassed_header (race_read_length ran).2.le
  · obtain ⟨_,four,same⟩ := race_read_length ran
    rw [consumed_append]
    refine (unpassed_header four.le).append ?_
    by_cases fits : n = 0 ∨ MAX_FRAME_BYTES < n
    · have nothing : consumed after = [] := by
        split_ifs at ended with zero large
        · rw [(runs_done.mp ended).1]
          rfl
        · rw [(runs_done.mp ended).1]
          rfl
        · omega
      rw [nothing]
      exact .nil
    · rw [scan_length four,same,if_neg fits]
      rw [if_neg (by omega),if_neg (by omega)] at ended
      refine unpassed_payload ?_
      rcases runs_race_and_then ended with ⟨read,rfl,ran⟩ | ⟨error,rfl,ran⟩ | ⟨middle,last,bytes,rfl,ran,ended⟩
      · exact race_read_exact_short ran
      · exact race_read_exact_short ran
      · obtain ⟨rfl,rfl⟩ := runs_done.mp ended
        rw [append_nil]
        exact race_read_exact_short ran

theorem read_frame_unpassed {trace : Trace} {result : Except IoError (Option Bytes)}
    (runs : Runs read_frame trace result) :
    Unpassed (.Header []) (consumed trace) := by
  obtain ⟨raced,ran,stands⟩ := runs_race_of_runs contested_fair runs
  rw [(traces_same stands).1]
  exact race_read_frame_unpassed ran

/-- Nothing is read from the channel. -/
def unheard (request : Request) : Prop := request ≠ .readByte ∧ request ≠ .select

theorem consumed_unheard {α : Type} {program : Broker α} {trace : Trace} {value : α} (only : program.Only unheard)
    (runs : Runs program trace value) : consumed trace = [] := by
  refine filterMap_eq_nil_iff.mpr fun event here => ?_
  obtain ⟨request,answer⟩ := event
  have quiet := allowed_of_runs only runs _ here
  cases request with
  | readByte => exact absurd rfl quiet.1
  | select => exact absurd rfl quiet.2
  | _ => rfl

theorem unheard_write_frame (bytes : Bytes) : (write_frame bytes).Only unheard := by
  refine only_bind (only_request ⟨nofun,nofun⟩) fun answer => ?_
  cases (answer : Except IoError Unit) with
  | error error => trivial
  | ok => exact only_bind (only_request ⟨nofun,nofun⟩) fun _ => trivial

theorem unheard_answerFrame (bytes : Bytes) : (answerFrame bytes).Only unheard := by
  refine only_bind (unheard_write_frame bytes) fun answer => ?_
  cases answer <;> trivial

theorem unheard_forwardFrame (max_bytes : Nat) (state : TunnelState) (frame : Except IoError (Option Bytes)) :
    (forwardFrame max_bytes state frame).Only unheard := by
  rcases frame with error | (_ | bytes)
  · trivial
  · refine only_bind (only_request ⟨by rintro ⟨⟩,by rintro ⟨⟩⟩) fun answer => ?_
    cases (answer : Except IoError Unit) with
    | ok => trivial
    | error error => exact only_and_then (unheard_answerFrame []) fun _ => trivial
  · simp only [forwardFrame]
    split_ifs
    · trivial
    refine only_bind (only_request ⟨by rintro ⟨⟩,by rintro ⟨⟩⟩) fun answer => ?_
    cases (answer : Written bytes) with
    | ok => trivial
    | error failure => exact only_and_then (unheard_answerFrame []) fun _ => trivial

theorem unheard_returnBytes (max_bytes : Nat) (state : TunnelState) (read : RemoteRead) :
    (returnBytes max_bytes state read).Only unheard := by
  simp only [returnBytes]
  split_ifs
  · exact only_and_then (unheard_answerFrame []) fun _ => trivial
  · trivial
  · exact only_and_then (unheard_answerFrame _) fun _ => trivial

theorem tunnelRound_unpassed {trace : Trace} {result : Except Stop TunnelState}
    (going : ¬(state.remote_eof && state.client_eof) = true) (runs : Runs (tunnelRound max_bytes state) trace result) :
    Unpassed (position state.client_eof) (consumed trace) := by
  unfold tunnelRound at runs
  split_ifs at runs with remote client
  · obtain ⟨before,after,frame,rfl,read,ran⟩ := runs_bind.mp runs
    have openClient : state.client_eof = false := by simpa [remote] using going
    rw [consumed_append,consumed_unheard (unheard_forwardFrame _ _ _) ran,append_nil,openClient]
    exact read_frame_unpassed read
  · obtain ⟨before,after,read,rfl,asked,ran⟩ := runs_bind.mp runs
    obtain rfl := runs_request.mp asked
    rw [consumed_append,consumed_unheard (unheard_returnBytes _ _ _) ran]
    exact .nil
  · obtain ⟨before,after,first,rfl,raced,ran⟩ := runs_bind.mp runs
    have openClient : state.client_eof = false := by simpa using client
    have afterFrame : consumed after = [] := by
      cases first with
      | inl frame => exact consumed_unheard (unheard_forwardFrame _ _ _) ran
      | inr read => exact consumed_unheard (unheard_returnBytes _ _ _) ran
    rw [consumed_append,afterFrame,append_nil,openClient]
    exact race_read_frame_unpassed raced

theorem tunnelLoop_hears : ∀ {fuel : Nat} {state : TunnelState} {trace : Trace} {result : Except Stop Nat},
    Undisturbed (position state.client_eof) trace → Runs (tunnelLoop max_bytes fuel state) trace result →
      Unpassed (position state.client_eof) (consumed trace) ∧
        ∀ count, result = .ok count → (scan (position state.client_eof) (consumed trace)).1 = .Ended := by
  intro fuel
  induction fuel with
  | zero =>
    intro state trace result _ runs
    obtain ⟨rfl,rfl⟩ := runs_pure.mp runs
    exact ⟨.nil,fun _ same => by cases same⟩
  | succ fuel ih =>
    intro state trace result undisturbed runs
    rw [tunnelLoop] at runs
    split_ifs at runs with finished
    · obtain ⟨rfl,_⟩ := runs_pure.mp runs
      rw [(Bool.and_eq_true_iff.mp finished).2]
      exact ⟨.nil,fun _ _ => rfl⟩
    obtain ⟨before,after,next,rfl,round,ran⟩ := runs_bind.mp runs
    obtain ⟨now,later⟩ := undisturbed.append
    have here := tunnelRound_unpassed finished round
    have carried := tunnelRound_carries finished now round
    cases next with
    | error stop =>
      obtain ⟨rfl,rfl⟩ := runs_pure.mp ran
      rw [append_nil]
      exact ⟨here,fun _ same => by cases same⟩
    | ok next =>
      obtain ⟨_,scanned⟩ := carried
      rw [scanned] at later
      obtain ⟨rest,ended⟩ := ih later ran
      rw [consumed_append]
      refine ⟨here.append (by rw [scanned]; exact rest),fun count same => ?_⟩
      rw [scan_append,scanned]
      exact ended count same

/-- The bytes of the client so far do not decide whether it says hello to the host. -/
def Undecided (host : Host) (bytes : Bytes) : Prop :=
  tls_records_match_sni bytes host = .Incomplete ∧ bytes.length ≤ MAX_TLS_CLIENT_HELLO_BYTES

theorem tryIo_runs {α : Type} {program : Broker (Except IoError α)} {trace : Trace} {result : Except Stop α}
    (runs : Runs (tryIo program) trace result) : ∃ inner, Runs program trace inner := by
  obtain ⟨before,after,inner,rfl,ran,ended⟩ := runs_bind.mp runs
  refine ⟨inner,?_⟩
  cases inner <;> (obtain ⟨rfl,_⟩ := runs_pure.mp ended; rwa [append_nil])

/-- What the frames read for a prelude, these bytes in all, have decided. -/
def Judged (host : Host) (max_bytes : Nat) (bytes : Bytes) : Option Bytes × Nat → Prop
  | (some _,_) => tls_records_match_sni bytes host = .Valid
  | (none,count) =>
      tls_records_match_sni bytes host = .Invalid ∨ max_bytes < count ∨ MAX_TLS_CLIENT_HELLO_BYTES < bytes.length
/-- A prelude is left between two frames, when it is decided, or at the client's end with
nothing decided. -/
def Left (host : Host) (max_bytes : Nat) (bytes heard : Bytes) (prelude : Option Bytes × Nat) : Prop :=
  betweenFrames heard ∧ Judged host max_bytes (bytes ++ (payloads heard).flatten) prelude ∨
    prelude.1 = none ∧ (scan (.Header []) heard).1 = .Ended ∧ Undecided host (bytes ++ (payloads heard).flatten)

theorem prelude_hears : ∀ {fuel transferred : Nat} {bytes : Bytes} {trace : Trace}
    {result : Except Stop (Option Bytes × Nat)}, Undecided host bytes →
    Runs (read_https_prelude host max_bytes fuel transferred bytes) trace result →
      Unpassed (.Header []) (consumed trace) ∧
      ∀ prelude, result = .ok prelude → Left host max_bytes bytes (consumed trace) prelude := by
  intro fuel
  induction fuel with
  | zero =>
    intro transferred bytes trace result _ runs
    obtain ⟨rfl,rfl⟩ := runs_pure.mp runs
    exact ⟨.nil,nofun⟩
  | succ fuel ih =>
    intro transferred bytes trace result undecided runs
    obtain ⟨before,after,read,rfl,ran,ended⟩ := runs_bind.mp runs
    have here : Unpassed (.Header []) (consumed before) := read_frame_unpassed (tryIo_runs ran).choose_spec
    have content := (try_read_frame ran).2
    match read with
    | .error stop =>
      obtain ⟨rfl,rfl⟩ := runs_pure.mp ended
      rw [append_nil]
      exact ⟨here,nofun⟩
    | .ok none =>
      obtain ⟨rfl,rfl⟩ := runs_pure.mp ended
      rw [append_nil]
      have scanned : scan (.Header []) (consumed before) = (.Ended,[]) := content _ rfl
      refine ⟨here,fun prelude same => .inr ?_⟩
      cases same
      rw [payloads,scanned]
      exact ⟨rfl,rfl,by rwa [flatten_nil,append_nil]⟩
    | .ok (some frame) =>
      have scanned : scan (.Header []) (consumed before) = (.Header [],[frame]) := content _ rfl
      have decides : ∀ {value : Option Bytes × Nat},
          Runs (pure (.ok value) : Broker (Except Stop (Option Bytes × Nat))) after result →
          Judged host max_bytes (bytes ++ frame) value →
          Unpassed (.Header []) (consumed (before ++ after)) ∧
            ∀ prelude, result = .ok prelude → Left host max_bytes bytes (consumed (before ++ after)) prelude := by
        intro value ended judged
        obtain ⟨rfl,rfl⟩ := runs_pure.mp ended
        rw [append_nil]
        refine ⟨here,fun prelude same => .inl ?_⟩
        cases same
        rw [betweenFrames,payloads,scanned,flatten_singleton]
        exact ⟨rfl,judged⟩
      dsimp only at ended
      split_ifs at ended with exceeded
      · exact decides ended (Or.inr (exceeded.imp id fun large => by rwa [length_append]))
      rw [not_or] at exceeded
      cases matched : tls_records_match_sni (bytes ++ frame) host with
      | Invalid =>
        simp only [matched] at ended
        exact decides ended (Or.inl matched)
      | Valid =>
        simp only [matched] at ended
        exact decides ended matched
      | Incomplete =>
        simp only [matched] at ended
        obtain ⟨unpassed,rest⟩ := ih ⟨matched,by rw [length_append]; omega⟩ ended
        rw [consumed_append]
        refine ⟨here.append (by rw [scanned]; exact unpassed),fun prelude same => ?_⟩
        have later := rest prelude same
        rw [Left,append_assoc] at later
        rwa [Left,betweenFrames,payloads,scan_append,scanned]

theorem drain_hears : ∀ {fuel transferred : Nat} {trace : Trace} {result : Except Stop Nat},
    Runs (drain_rejected_tunnel max_bytes fuel transferred) trace result → Unpassed (.Header []) (consumed trace) ∧
      ∀ count, result = .ok count → (scan (.Header []) (consumed trace)).1 = .Ended := by
  intro fuel
  induction fuel with
  | zero =>
    intro transferred trace result runs
    obtain ⟨rfl,rfl⟩ := runs_pure.mp runs
    exact ⟨.nil,nofun⟩
  | succ fuel ih =>
    intro transferred trace result runs
    obtain ⟨before,after,read,rfl,ran,ended⟩ := runs_bind.mp runs
    have here : Unpassed (.Header []) (consumed before) := read_frame_unpassed (tryIo_runs ran).choose_spec
    have content := (try_read_frame ran).2
    match read with
    | .error stop =>
      obtain ⟨rfl,rfl⟩ := runs_pure.mp ended
      rw [append_nil]
      exact ⟨here,nofun⟩
    | .ok none =>
      obtain ⟨rfl,rfl⟩ := runs_pure.mp ended
      rw [append_nil]
      have scanned : scan (.Header []) (consumed before) = (.Ended,[]) := content _ rfl
      exact ⟨here,fun _ _ => by rw [scanned]⟩
    | .ok (some frame) =>
      have scanned : scan (.Header []) (consumed before) = (.Header [],[frame]) := content _ rfl
      dsimp only at ended
      split_ifs at ended with exceeded
      · obtain ⟨rfl,rfl⟩ := runs_pure.mp ended
        rw [append_nil]
        exact ⟨here,nofun⟩
      obtain ⟨unpassed,rest⟩ := ih ended
      rw [consumed_append,scan_append,scanned]
      exact ⟨here.append (by rw [scanned]; exact unpassed),rest⟩

/-- What follows the prelude starts between two frames and ends with the client's stream. -/
theorem after_prelude_hears {fuel : Nat} {prelude : Option Bytes} {transferred : Nat} {trace : Trace}
    (undisturbed : Undisturbed (.Header []) trace)
    (runs : Runs (match prelude with
      | none => (tryIo (write_frame [])).and_then fun _ => drain_rejected_tunnel max_bytes fuel transferred
      | some prelude => do
        match ← perform (.send prelude) with
        | .error (error,_) => pure (.error (.Broken error))
        | .ok () => tunnelLoop max_bytes fuel ⟨false,false,transferred⟩) trace result) :
    Unpassed (.Header []) (consumed trace) ∧ ∀ count, result = .ok count →
      (scan (.Header []) (consumed trace)).1 = .Ended := by
  cases prelude with
  | none =>
    obtain ⟨before,after,answered,rfl,wrote,rest⟩ := runs_bind.mp runs
    obtain ⟨inner,ran⟩ := tryIo_runs wrote
    rw [consumed_append,consumed_unheard (unheard_write_frame []) ran,nil_append]
    cases answered with
    | error stop =>
      obtain ⟨rfl,rfl⟩ := runs_pure.mp rest
      exact ⟨.nil,nofun⟩
    | ok => exact drain_hears rest
  | some prelude =>
    obtain ⟨before,after,answer,rfl,asked,rest⟩ := runs_bind.mp runs
    obtain rfl := runs_request.mp asked
    have untaken : consumed ([⟨.send prelude,answer⟩] ++ after) = consumed after := rfl
    rw [untaken]
    match (answer : Written prelude) with
    | .error (error,_) =>
      obtain ⟨rfl,rfl⟩ := runs_pure.mp rest
      exact ⟨.nil,nofun⟩
    | .ok () => exact tunnelLoop_hears (by exact undisturbed.append.2) rest

/-- Of a client whose data decide, a tunnel reads the client's stream and no byte more. -/
theorem tunnel_hears {fuel transferred : Nat} {trace : Trace} {stream next : Bytes}
    (runs : Runs (tunnel host max_bytes fuel transferred) trace result) (undisturbed : Undisturbed (.Header []) trace)
    (sends : OneStream stream data) (decided : ¬Undecided host data.flatten)
    (heard : consumed trace <+: stream ++ next) :
    consumed trace <+: stream ∧ ∀ count, result = .ok count → consumed trace = stream := by
  have follows : Unpassed (.Header []) (consumed trace) ∧
      ∀ count, result = .ok count → (scan (.Header []) (consumed trace)).1 = .Ended := by
    obtain ⟨before,after,read,rfl,ran,ended⟩ := runs_bind.mp runs
    obtain ⟨here,left⟩ := prelude_hears ⟨rfl,by decide⟩ ran
    rw [consumed_append] at heard
    have first : consumed before <+: stream ++ next := (prefix_append _ _).trans heard
    have whole : stream <+: stream ++ next := prefix_append _ _
    match read with
    | .error stop =>
      obtain ⟨rfl,rfl⟩ := runs_pure.mp ended
      rw [append_nil]
      exact ⟨here,nofun⟩
    | .ok (prelude,count) =>
      rcases left (prelude,count) rfl with ⟨between,_⟩ | ⟨_,overNow,undecided⟩
      · obtain ⟨_,later⟩ := undisturbed.append
        rw [between] at later
        obtain ⟨unpassed,ends⟩ := after_prelude_hears later ended
        rw [consumed_append,scan_append,between]
        exact ⟨here.append (by rw [between]; exact unpassed),ends⟩
      · -- The client has ended its stream, so that all its data have been judged.
        have all : consumed before = stream := (here.within (by rw [sends.ended]) first whole).eq_of_length_le
          (sends.unpassed.within overNow whole first).length_le
        rw [all,payloads,sends.ended] at undecided
        exact absurd undecided decided
  have first : consumed trace <+: stream := follows.1.within (by rw [sends.ended]) heard (prefix_append _ _)
  refine ⟨first,fun count same => first.eq_of_length_le ?_⟩
  exact (sends.unpassed.within (follows.2 count same) (prefix_append _ _) heard).length_le

/-! ### The requests of a run -/

/-- What came of a request: no connection, or a tunnel with these events. -/
inductive Outcome where
  | Refused
  | Accepted (host : Host) (tunnelled : Trace)
/-- A request up to its answer, and what came of it. -/
structure Round where
  asked : Trace
  outcome : Outcome
def Round.trace (round : Round) : Trace := round.asked ++ match round.outcome with
  | .Refused => [⟨.write_u8 0,.ok ()⟩]
  | .Accepted _ tunnelled => ⟨.write_u8 1,.ok ()⟩ :: tunnelled
/-- Nothing is written before the answer, and a tunnel that was accepted has run and
ended in one of these ways. -/
def Round.Ran (max_bytes rounds : Nat) (ends : Except Stop Nat → Prop) (round : Round) : Prop :=
  written round.asked = [] ∧ ∀ host tunnelled, round.outcome = .Accepted host tunnelled →
    ∃ transferred result, ends result ∧ Runs (tunnel host max_bytes rounds transferred) tunnelled result
/-- A request after which the broker goes on. -/
def Round.Served (max_bytes rounds : Nat) : Round → Prop :=
  Round.Ran max_bytes rounds fun result => ∃ count, result = .ok count
/-- What the broker does after the last request it has served: a request that is not
answered, or one that it accepts and with which it stops. -/
def Stopped (max_bytes rounds : Nat) (last : Trace) : Prop := written last = [] ∨ ∃ round : Round, last = round.trace ∧
  round.outcome ≠ .Refused ∧ round.Ran max_bytes rounds fun result => ∃ stop, result = .error stop
/-- The requests in which no answer is given. -/
def unanswered : Request → Prop
  | .write_u8 _ | .write_u32 _ | .write_all _ => False
  | _ => True

theorem written_unanswered {α : Type} {program : Broker α} {trace : Trace} {value : α} (only : program.Only unanswered)
    (runs : Runs program trace value) : written trace = [] := by
  refine flatMap_eq_nil_iff.mpr fun event here => ?_
  obtain ⟨request,answer⟩ := event
  have quiet : unanswered request := allowed_of_runs only runs _ here
  cases request with
  | write_u8 value => exact quiet.elim
  | write_u32 value => exact quiet.elim
  | write_all bytes => exact quiet.elim
  | _ => rfl

theorem unanswered_readRequest : readRequest.Only unanswered := by
  have reads : ∀ {α : Type} {program : Broker α}, program.Only (· = .readByte) → program.Only unanswered := by
    refine fun only => only.weaken ?_
    rintro _ rfl
    trivial
  refine only_bind (reads (reads_uint 1)) fun kind => ?_
  cases kind with
  | error error => cases error <;> trivial
  | ok kind =>
    dsimp only
    split_ifs
    · trivial
    refine only_and_then (reads (reads_try (reads_uint 2))) fun host_len =>
      only_and_then (reads (reads_try (reads_uint 2))) fun port => ?_
    split
    · trivial
    refine only_and_then (reads (reads_try (reads_exact host_len []))) fun host => ?_
    split_ifs <;> trivial

theorem unanswered_revalidate (effect : NativeSideEffect) : (revalidate effect).Only unanswered := by
  refine only_bind (only_request trivial) fun answer => ?_
  cases (answer : Except VyaneError Unit) <;> trivial

theorem unanswered_connectAny (effect : NativeSideEffect) : ∀ (addresses : List SocketAddr) (last_error : IoError),
    (connectAny effect last_error addresses).Only unanswered := by
  intro addresses
  induction addresses with
  | nil => exact fun _ => trivial
  | cons address rest ih =>
    refine fun last_error => only_and_then (unanswered_revalidate effect) fun _ =>
      only_bind (only_request trivial) fun answer => ?_
    cases (answer : Except IoError Unit) with
    | ok => trivial
    | error error => exact ih error

theorem unanswered_readResponse : ∀ (fuel : Nat) (response : Bytes), (readResponse fuel response).Only unanswered := by
  intro fuel
  induction fuel with
  | zero => exact fun _ => trivial
  | succ fuel ih =>
    intro response
    rw [readResponse]
    split_ifs
    · trivial
    refine only_bind (only_request trivial) fun answer => ?_
    cases (answer : Except IoError Bytes) with
    | error error => trivial
    | ok bytes =>
      dsimp only
      split_ifs
      · trivial
      · exact ih _

theorem unanswered_connect_public (effect : NativeSideEffect) (host : Host) (port : Nat) :
    (connect_public effect host port).Only unanswered := by
  refine only_and_then (unanswered_revalidate effect) fun _ => only_bind (only_request trivial) fun answer => ?_
  cases (answer : Except IoError (List SocketAddr)) with
  | error error => trivial
  | ok found =>
    dsimp only
    split_ifs
    · trivial
    · exact unanswered_connectAny effect _ _

theorem unanswered_connect_proxy (effect : NativeSideEffect) (fuel : Nat) (host : Host) (port : Nat) :
    (connect_via_environment_proxy effect fuel host port).Only unanswered := by
  refine only_bind (only_request trivial) fun answer => ?_
  cases (answer : Option (Host × Nat)) with
  | none => trivial
  | some proxy =>
    refine only_and_then (unanswered_revalidate effect) fun _ => only_bind (only_request trivial) fun found => ?_
    cases (found : Except IoError (List SocketAddr)) with
    | error error => trivial
    | ok found =>
      dsimp only
      split_ifs
      · trivial
      refine only_and_then (unanswered_connectAny effect _ _) fun connected => ?_
      cases connected with
      | error error => trivial
      | ok =>
        refine only_and_then (unanswered_revalidate effect) fun _ => only_bind (only_request trivial) fun sent => ?_
        cases (sent : Except IoError Unit) with
        | error error => trivial
        | ok =>
          refine only_and_then (unanswered_readResponse fuel []) fun response => ?_
          cases response with
          | error error => trivial
          | ok response =>
            dsimp only
            split_ifs <;> trivial

theorem unanswered_connect (route : NativeCommandNetworkRoute) (effect : NativeSideEffect) (fuel : Nat) (host : Host)
    (port : Nat) :
    (connect_destination route effect fuel host port).Only unanswered := by
  refine only_bind (only_request trivial) fun _ => ?_
  cases route with
  | Direct => exact unanswered_connect_public effect host port
  | EnvironmentProxy => exact unanswered_connect_proxy effect fuel host port

theorem try_write_u8 {value : UInt8} {trace : Trace} {result : Except Stop Unit}
    (runs : Runs (tryIo (perform (.write_u8 value))) trace result) :
    result = .ok () ∧ trace = [⟨.write_u8 value,.ok ()⟩] ∨ (∃ stop, result = .error stop) ∧ written trace = [] := by
  obtain ⟨before,after,answer,rfl,asked,ended⟩ := runs_bind.mp runs
  obtain rfl := runs_request.mp asked
  cases (answer : Except IoError Unit) with
  | ok =>
    obtain ⟨rfl,rfl⟩ := runs_pure.mp ended
    exact .inl ⟨rfl,rfl⟩
  | error error =>
    obtain ⟨rfl,rfl⟩ := runs_pure.mp ended
    exact .inr ⟨⟨_,rfl⟩,rfl⟩

section
variable {is_ip_addr : Host → Bool} {policy : NativeCommandNetworkPolicy} {effect : NativeSideEffect} {rounds : Nat}
  {result : Except Stop Nat} {trace : Trace}

/-- What one request comes to, behind what has been read of it. -/
def Answered (max_bytes rounds : Nat) (trace : Trace) (result : Except Stop Nat) : Prop :=
  ∀ head : Trace, written head = [] →
    ((∃ count, result = .ok count) ∧ ∃ round : Round, head ++ trace = round.trace ∧ round.Served max_bytes rounds) ∨
      (∃ stop, result = .error stop) ∧ Stopped max_bytes rounds (head ++ trace)

theorem written_append (first second : Trace) : written (first ++ second) = written first ++ written second :=
  flatMap_append

theorem Answered.silent {first : Trace} (quiet : written first = [])
    (answered : Answered max_bytes rounds trace result) : Answered max_bytes rounds (first ++ trace) result := by
  intro head before
  have both : written (head ++ first) = [] := by rw [written_append,before,quiet]; rfl
  have all := answered (head ++ first) both
  rwa [append_assoc] at all

theorem Answered.stopped {stop : Stop} (quiet : written trace = []) :
    Answered max_bytes rounds trace (.error stop) :=
  fun head before => .inr ⟨⟨stop,rfl⟩,.inl (by rw [written_append,before,quiet]; rfl)⟩

theorem refusal_answers {transferred : Nat}
    (runs : Runs ((tryIo (perform (.write_u8 0))).and_then fun _ => pure (.ok transferred)) trace result) :
    Answered max_bytes rounds trace result := by
  obtain ⟨before,after,value,rfl,wrote,ran⟩ := runs_bind.mp runs
  rcases try_write_u8 wrote with ⟨rfl,rfl⟩ | ⟨⟨stop,rfl⟩,quiet⟩
  · obtain ⟨rfl,rfl⟩ := runs_pure.mp ran
    exact fun head unwritten => .inl ⟨⟨_,rfl⟩,⟨head,.Refused⟩,rfl,unwritten,nofun⟩
  · obtain ⟨rfl,rfl⟩ := runs_pure.mp ran
    rw [append_nil]
    exact .stopped quiet

theorem tunnel_answers {transferred : Nat} (runs : Runs ((tryIo (perform (.write_u8 1))).and_then fun _ =>
      tunnel host policy.max_bytes rounds transferred) trace result) :
    Answered policy.max_bytes rounds trace result := by
  obtain ⟨before,after,value,rfl,wrote,ran⟩ := runs_bind.mp runs
  rcases try_write_u8 wrote with ⟨rfl,rfl⟩ | ⟨⟨stop,rfl⟩,quiet⟩
  · intro head unwritten
    have tunnelled : ∀ ends : Except Stop Nat → Prop, ends result →
        Round.Ran policy.max_bytes rounds ends ⟨head,.Accepted host after⟩ := by
      refine fun ends holds => ⟨unwritten,fun other events same => ?_⟩
      cases same
      exact ⟨transferred,result,holds,ran⟩
    cases result with
    | ok count => exact .inl ⟨⟨count,rfl⟩,⟨head,.Accepted host after⟩,rfl,tunnelled _ ⟨count,rfl⟩⟩
    | error stop => exact .inr ⟨⟨stop,rfl⟩,.inr ⟨⟨head,.Accepted host after⟩,rfl,nofun,tunnelled _ ⟨stop,rfl⟩⟩⟩
  · obtain ⟨rfl,rfl⟩ := runs_pure.mp ran
    rw [append_nil]
    exact .stopped quiet

theorem serveRequest_answers {connections transferred : Nat} {port : Nat}
    (runs : Runs (serveRequest is_ip_addr policy effect rounds connections transferred host port) trace result) :
    Answered policy.max_bytes rounds trace result := by
  unfold serveRequest at runs
  split_ifs at runs with denied
  · exact refusal_answers runs
  obtain ⟨before,after,allowed,rfl,asked,ran⟩ := runs_bind.mp runs
  have first : written before = [] := written_unanswered (unanswered_revalidate effect) asked
  cases allowed with
  | error stop =>
    obtain ⟨rfl,rfl⟩ := runs_pure.mp ran
    exact .silent first (.stopped rfl)
  | ok =>
    obtain ⟨middle,last,connected,rfl,connecting,ran⟩ := runs_bind.mp ran
    have second : written middle = [] := written_unanswered (unanswered_connect _ _ _ _ _) connecting
    refine .silent first ?_
    match connected with
    | .error stop =>
      obtain ⟨rfl,rfl⟩ := runs_pure.mp ran
      exact .silent second (.stopped rfl)
    | .ok (.error error) => exact .silent second (refusal_answers ran)
    | .ok (.ok ()) => exact .silent second (tunnel_answers ran)

/-- A run is one request after another, and the one with which it stops. -/
theorem requests_rounds : ∀ {fuel connections transferred : Nat} {trace : Trace} {result : Except Stop Unit},
    Runs (requests is_ip_addr policy effect rounds fuel connections transferred) trace result →
      ∃ (served : List Round) (last : Trace), trace = served.flatMap Round.trace ++ last ∧
        (∀ round ∈ served, round.Served policy.max_bytes rounds) ∧ Stopped policy.max_bytes rounds last := by
  intro fuel
  induction fuel with
  | zero =>
    intro connections transferred trace result runs
    obtain ⟨rfl,_⟩ := runs_pure.mp runs
    exact ⟨[],[],rfl,nofun,.inl rfl⟩
  | succ fuel ih =>
    intro connections transferred trace result runs
    obtain ⟨before,after,read,rfl,asked,ran⟩ := runs_bind.mp runs
    have unwritten : written before = [] := written_unanswered unanswered_readRequest asked
    have goesOn : ∀ {here rest : Trace} {round : Round} {connections transferred : Nat}, before ++ here = round.trace →
        round.Served policy.max_bytes rounds →
        Runs (requests is_ip_addr policy effect rounds fuel connections transferred) rest result →
        ∃ (served : List Round) (last : Trace), before ++ (here ++ rest) = served.flatMap Round.trace ++ last ∧
          (∀ round ∈ served, round.Served policy.max_bytes rounds) ∧ Stopped policy.max_bytes rounds last := by
      intro here rest round connections transferred same served ran
      obtain ⟨later,last,rfl,all,stopped⟩ := ih ran
      refine ⟨round :: later,last,?_,forall_mem_cons.mpr ⟨served,all⟩,stopped⟩
      rw [flatMap_cons,append_assoc,← same,append_assoc]
    match read with
    | .error stop =>
      obtain ⟨rfl,rfl⟩ := runs_pure.mp ran
      exact ⟨[],before,by simp,nofun,.inl unwritten⟩
    | .ok .Closed =>
      obtain ⟨rfl,rfl⟩ := runs_pure.mp ran
      exact ⟨[],before,by simp,nofun,.inl unwritten⟩
    | .ok .Refused =>
      obtain ⟨here,rest,value,rfl,wrote,later⟩ := runs_bind.mp ran
      rcases try_write_u8 wrote with ⟨rfl,rfl⟩ | ⟨⟨stop,rfl⟩,quiet⟩
      · exact @goesOn _ _ ⟨before,.Refused⟩ _ _ rfl ⟨unwritten,nofun⟩ later
      · obtain ⟨rfl,rfl⟩ := runs_pure.mp later
        exact ⟨[],before ++ (here ++ []),rfl,nofun,.inl (by rw [written_append,written_append,unwritten,quiet]; rfl)⟩
    | .ok (.Named host port) =>
      obtain ⟨here,rest,value,rfl,serving,later⟩ := runs_bind.mp ran
      rcases serveRequest_answers serving before unwritten with ⟨⟨count,rfl⟩,round,same,served⟩ | ⟨⟨stop,rfl⟩,stopped⟩
      · exact goesOn same served later
      · obtain ⟨rfl,rfl⟩ := runs_pure.mp later
        exact ⟨[],before ++ (here ++ []),rfl,nofun,by rwa [append_nil]⟩

/-! ### The proxy and the broker stay in step -/

/-- A run is one request after another, and the one with which it stops. -/
structure Sequence (max_bytes rounds : Nat) (trace : Trace) (served : List Round) (last : Trace) : Prop where
  split : trace = served.flatMap Round.trace ++ last
  served : ∀ round ∈ served, round.Served max_bytes rounds
  stopped : Stopped max_bytes rounds last

/-- The answer to an accepted request: its frames end with one empty frame, and who
reads them up to the first empty frame has read this answer and is at the next. -/
def EndsOnce (tunnelled : Trace) : Prop := ∃ data, frames tunnelled = data ++ [[]] ∧ (∀ frame ∈ data, frame ≠ []) ∧
  OneStream (written tunnelled) data ∧ ∀ stream others rest more, OneStream stream others →
    stream ++ rest = written tunnelled ++ more →
    stream = written tunnelled ∧ rest = more

/-- Of every request that the broker accepts and after which it goes on, the proxy gets
one end of stream, and nothing behind it, provided that the destination shows its end
only once: when it has ended or a write to it has failed, no later write or shutdown fails. -/
theorem accepted_answers_end_once (is_ip_addr : Host → Bool) (policy : NativeCommandNetworkPolicy)
    (effect : NativeSideEffect) (rounds : Nat) (trace : Trace) (result : Except Stop Unit)
    (runs : Runs (run_network_broker is_ip_addr policy effect rounds) trace result) :
    ∃ served last, Sequence policy.max_bytes rounds trace served last ∧ ∀ round ∈ served, ∀ host tunnelled,
      round.outcome = .Accepted host tunnelled → endings tunnelled ≤ 1 → EndsOnce tunnelled := by
  obtain ⟨served,last,split,all,stopped⟩ := requests_rounds runs
  refine ⟨served,last,⟨split,all,stopped⟩,fun round here host tunnelled accepted once => ?_⟩
  obtain ⟨transferred,_,⟨count,rfl⟩,ran⟩ := (all round here).2 host tunnelled accepted
  obtain ⟨data,wrote,whole⟩ := tunnel_signs ran once
  refine ⟨data,wrote.frames,fun frame here => (whole frame here).1,wrote.one_stream whole,?_⟩
  intro stream others rest more read same
  obtain ⟨equal,_,next⟩ := read.unique (wrote.one_stream whole) same
  exact ⟨equal,next⟩

/-- Of every client that sends one stream of frames before its next request, and whose
data decide whether it says hello, the broker reads that stream and no byte of the next
request, provided that the destination is never ready while a frame is partly read. -/
theorem accepted_streams_are_read_once (is_ip_addr : Host → Bool) (policy : NativeCommandNetworkPolicy)
    (effect : NativeSideEffect) (rounds : Nat) (trace : Trace) (result : Except Stop Unit)
    (runs : Runs (run_network_broker is_ip_addr policy effect rounds) trace result) :
    ∃ served last, Sequence policy.max_bytes rounds trace served last ∧ ∀ round host tunnelled,
      round.outcome = .Accepted host tunnelled →
      Undisturbed (.Header []) tunnelled → ∀ stream next data, OneStream stream data → ¬Undecided host data.flatten →
      consumed tunnelled <+: stream ++ next →
        (round ∈ served → consumed tunnelled = stream) ∧
        (last = round.trace → round.Ran policy.max_bytes rounds (fun result => ∃ stop, result = .error stop) →
          consumed tunnelled <+: stream) := by
  obtain ⟨served,last,split,all,stopped⟩ := requests_rounds runs
  refine ⟨served,last,⟨split,all,stopped⟩,?_⟩
  intro round host tunnelled accepted undisturbed stream next data sends decided heard
  constructor
  · intro here
    obtain ⟨transferred,_,⟨count,rfl⟩,ran⟩ := (all round here).2 host tunnelled accepted
    exact (tunnel_hears ran undisturbed sends decided heard).2 count rfl
  · intro _ stops
    obtain ⟨transferred,_,_,ran⟩ := stops.2 host tunnelled accepted
    exact (tunnel_hears ran undisturbed sends decided heard).1

end

/-! ### Out of step -/

/-- One rule, for `a.b` and port 443, and a request for it. -/
def oneHost : NativeCommandNetworkPolicy := ⟨[⟨[0x61,0x2e,0x62],[443]⟩],.Direct,2,1024,10⟩
def oneRequest : Bytes := [1,0,3,1,0xbb,0x61,0x2e,0x62]

/-- A client that sends these bytes; the destination has nothing to say, ends when so many
bytes of the client are read, and takes only what is as long as this. -/
def endingWorld (client : Bytes) (cut takes : Nat) : World Request Answer := fun past request =>
  let byte : Except IoError UInt8 := match client[(consumed past).length]? with
    | some byte => .ok byte
    | none => .error .UnexpectedEof
  match request with
  | .readByte => byte
  | .select => if (consumed past).length = cut then .Remote (.ok ⟨[],by decide⟩) else .Channel byte
  | .remoteRead => .ok ⟨[],by decide⟩
  | .send bytes => if bytes.length < takes then .error (.BrokenPipe,0) else .ok ()
  | .lookup_host _ _ => .ok [⟨.V4 1 1 1 1,443⟩]
  | other => (default : Answer other)

def endingRun (client : Bytes) (cut takes : Nat) : Trace × Except Stop Unit :=
  (run_network_broker (fun _ => false) oneHost (.ToolOperation 0 0) 4).play (endingWorld client cut takes) []
/-- A hello and one byte of data, and then another request. -/
def twoRequests : Bytes := oneRequest ++ [0,0,0,64] ++ sampleHello ++ [0,0,0,1,0x58] ++ [0,0,0,0] ++ oneRequest
/-- The destination ends, and a write to it fails afterwards: the proxy gets two ends of
stream, and takes the second for the answer to its next request. -/
theorem late_failure_ends_twice :
    ∃ trace result, Runs (run_network_broker (fun _ => false) oneHost (.ToolOperation 0 0) 4) trace result ∧
    consumed trace = twoRequests ∧ frames trace = [[],[]] ∧ written trace = [1] ++ [0,0,0,0] ++ [0,0,0,0] ++ [1] :=
  ⟨(endingRun twoRequests 76 2).1,(endingRun twoRequests 76 2).2,runs_play _ _ [],
    by decide +kernel,by decide +kernel,by decide +kernel⟩

/-- Without the failed write there is one end of stream, and the next answer follows it. -/
theorem two_requests_are_answered :
    ∃ trace result, Runs (run_network_broker (fun _ => false) oneHost (.ToolOperation 0 0) 4) trace result ∧
    endings trace = 1 ∧ written trace = [1] ++ [0,0,0,0] ++ [1] ∧ ∃ served last, Sequence 1024 4 trace served last ∧
      ∀ round ∈ served, ∀ host tunnelled, round.outcome = .Accepted host tunnelled → endings tunnelled ≤ 1 →
        EndsOnce tunnelled :=
  ⟨(endingRun twoRequests 76 0).1,(endingRun twoRequests 76 0).2,runs_play _ _ [],by decide +kernel,by decide +kernel,
    accepted_answers_end_once
      (fun _ => false) oneHost (.ToolOperation 0 0) 4 _ _ (runs_play (endingWorld twoRequests 76 0) _ [])⟩

/-- A client that ends its stream before any hello: its end is read by the prelude, and
the head of its next request is read as that of a frame. -/
theorem early_end_eats_request : OneStream [0,0,0,0] [] ∧
    (∃ trace result, Runs (tunnel [0x61,0x2e,0x62] 1024 4 0) trace result ∧ Undisturbed (.Header []) trace ∧
      consumed trace <+: [0,0,0,0] ++ oneRequest ∧ ¬consumed trace <+: [0,0,0,0]) ∧
    ∃ trace, Runs (run_network_broker (fun _ => false) oneHost (.ToolOperation 0 0) 4) trace
      (.error (.Broken .InvalidData)) ∧
      consumed trace = oneRequest ++ [0,0,0,0] ++ [1,0,3,1] ∧ written trace = [1] ++ [0,0,0,0] := by
  refine ⟨⟨[],rfl,rfl⟩,?_,?_⟩
  · let alone := (tunnel [0x61,0x2e,0x62] 1024 4 0).play (endingWorld ([0,0,0,0] ++ oneRequest) 0 0) []
    exact ⟨alone.1,alone.2,runs_play _ _ [],calm_undisturbed (by decide +kernel),by decide +kernel,by decide +kernel⟩
  · let whole := endingRun (oneRequest ++ [0,0,0,0] ++ oneRequest) 0 0
    have stops : whole.2 = .error (.Broken .InvalidData) := by decide +kernel
    exact ⟨whole.1,stops ▸ runs_play _ _ [],by decide +kernel,by decide +kernel⟩

/-- A client that says hello first: its stream is read, and then its next request. -/
theorem two_requests_are_read :
    ∃ trace result, Runs (run_network_broker (fun _ => false) oneHost (.ToolOperation 0 0) 4) trace result ∧
    consumed trace = twoRequests ∧ ∃ served last, Sequence 1024 4 trace served last ∧
      ∀ round ∈ served, ∀ host tunnelled, round.outcome = .Accepted host tunnelled →
        Undisturbed (.Header []) tunnelled →
        ∀ stream next data, OneStream stream data → ¬Undecided host data.flatten →
          consumed tunnelled <+: stream ++ next →
          consumed tunnelled = stream := by
  obtain ⟨served,last,sequence,reads⟩ :=
    accepted_streams_are_read_once (fun _ => false) oneHost (.ToolOperation 0 0) 4 _ _
    (runs_play (endingWorld twoRequests 76 0) _ [])
  refine ⟨_,_,runs_play (endingWorld twoRequests 76 0) _ [],by decide +kernel,served,last,sequence,?_⟩
  intro round here host tunnelled accepted undisturbed stream next data sends decided heard
  exact (reads round host tunnelled accepted undisturbed stream next data sends decided heard).1 here

end Vyane.Networks
