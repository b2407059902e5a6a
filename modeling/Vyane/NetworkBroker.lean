import Vyane.Core
import Vyane.Worlds
import Vyane.TlsHello

/-!
The broker between a confined command and the network (`trusted_network.rs`). The channel, the destination, the name
service and the authority are the world. A channel is read byte by byte, so that the bytes may arrive in any pieces; a
frame read that loses against the destination is dropped with the bytes it has.
-/
namespace Vyane.Networks
open Interactions Vyane.Core Utf8

/-- The kind of an I/O error; its text is not kept. -/
inductive IoError where
  | UnexpectedEof
  | BrokenPipe
  | ConnectionReset
  | TimedOut
  | PermissionDenied
  | ConnectionRefused
  | NotFound
  | InvalidInput
  | InvalidData
  | Other
deriving DecidableEq, Repr, Inhabited

/-- A write of a whole buffer: done, or given up after some of its bytes. -/
abbrev Written (bytes : Bytes) : Type := Except (IoError × Fin (bytes.length + 1)) Unit
/-- A read into a buffer of the size of a frame. -/
abbrev RemoteRead : Type := Except IoError {bytes : Bytes // bytes.length ≤ MAX_FRAME_BYTES}
/-- What is ready first of the next byte of the channel and the destination. -/
inductive Ready where
  | Channel (byte : Except IoError UInt8)
  | Remote (read : RemoteRead)

/-- What the broker asks of the world. `connect_destination` only marks the call. -/
inductive Request where
  | readByte
  | select
  | remoteRead
  | write_u8 (value : UInt8)
  | write_u32 (value : Nat)
  | write_all (bytes : Bytes)
  | send (bytes : Bytes)
  | shutdown
  | revalidate (effect : NativeSideEffect)
  | connect_destination (host : Host) (port : Nat)
  | environment_proxy
  | lookup_host (host : Host) (port : Nat)
  | connect (address : SocketAddr)
  | proxySend (bytes : Bytes)
  | proxyRead

def Answer : Request → Type
  | .readByte => Except IoError UInt8
  | .select => Ready
  | .remoteRead => RemoteRead
  | .write_u8 _ => Except IoError Unit
  | .write_u32 _ => Except IoError Unit
  | .write_all bytes => Written bytes
  | .send bytes => Written bytes
  | .shutdown => Except IoError Unit
  | .revalidate _ => Except VyaneError Unit
  | .connect_destination _ _ => Unit
  | .environment_proxy => Option (Host × Nat)
  | .lookup_host _ _ => Except IoError (List SocketAddr)
  | .connect _ => Except IoError Unit
  | .proxySend _ => Except IoError Unit
  | .proxyRead => Except IoError Bytes

instance : (request : Request) → Inhabited (Answer request)
  | .readByte => ⟨.error .Other⟩
  | .select => ⟨.Channel (.error .Other)⟩
  | .remoteRead => ⟨.error .Other⟩
  | .write_u8 _ => ⟨.ok ()⟩
  | .write_u32 _ => ⟨.ok ()⟩
  | .write_all _ => ⟨.ok ()⟩
  | .send _ => ⟨.ok ()⟩
  | .shutdown => ⟨.ok ()⟩
  | .revalidate _ => ⟨.ok ()⟩
  | .connect_destination _ _ => ⟨()⟩
  | .environment_proxy => ⟨none⟩
  | .lookup_host _ _ => ⟨.error .Other⟩
  | .connect _ => ⟨.ok ()⟩
  | .proxySend _ => ⟨.ok ()⟩
  | .proxyRead => ⟨.error .Other⟩

abbrev Broker (α : Type) : Type := Program Request Answer α
abbrev Trace : Type := List (Event Request Answer)
def perform (request : Request) : Broker (Answer request) := Program.request request

/-- Why the broker stops: it returns, without an error or with one of its own, of the
authority or of a stream, or it is still running when the rounds given to one of its
loops are used up. -/
inductive Stop where
  | Returned
  | Failed (error : VyaneError)
  | Broken (error : IoError)
  | Running
deriving DecidableEq, Repr

/-- `?` on an I/O result. -/
def tryIo {α : Type} (program : Broker (Except IoError α)) : Broker (Except Stop α) := do
  match ← program with
  | .ok value => pure (.ok value)
  | .error error => pure (.error (.Broken error))

/-- `?` on the authority's answer. -/
def revalidate (effect : NativeSideEffect) : Broker (Except Stop Unit) := do
  match ← perform (.revalidate effect) with
  | .ok () => pure (.ok ())
  | .error error => pure (.error (.Failed error))

/-! ### Frames -/

/-- `read_exact` behind the bytes that are there already. -/
def read_exact : Nat → Bytes → Broker (Except IoError Bytes)
  | 0, bytes => pure (.ok bytes)
  | wanted + 1, bytes => do
    match ← perform .readByte with
    | .ok byte => read_exact wanted (bytes ++ [byte])
    | .error error => pure (.error error)

/-- A number from its bytes, the most significant first. -/
def be (bytes : Bytes) : Nat := bytes.foldl (fun value byte => value * 256 + byte.toNat) 0
def readUint (size : Nat) : Broker (Except IoError Nat) :=
  (read_exact size []).and_then fun bytes => pure (.ok (be bytes))

def read_frame : Broker (Except IoError (Option Bytes)) :=
  (readUint 4).and_then fun length =>
    if length = 0 then pure (.ok none)
    else if MAX_FRAME_BYTES < length then pure (.error .InvalidData)
    else (read_exact length []).and_then fun bytes => pure (.ok (some bytes))

/-- What was written before a write was given up. -/
def unwritten {bytes : Bytes} : Written bytes → Except IoError Unit
  | .ok () => .ok ()
  | .error (error,_) => .error error

def write_frame (bytes : Bytes) : Broker (Except IoError Unit) := do
  match ← perform (.write_u32 bytes.length) with
  | .error error => pure (.error error)
  | .ok () => return unwritten (← perform (.write_all bytes))

def proxy_closed : IoError → Bool
  | .UnexpectedEof | .BrokenPipe | .ConnectionReset => true
  | _ => false

/-- A frame to the proxy inside a tunnel: a proxy that is gone ends the broker. -/
def answerFrame (bytes : Bytes) : Broker (Except Stop Unit) := do
  match ← write_frame bytes with
  | .ok () => pure (.ok ())
  | .error error => pure (.error (if proxy_closed error then .Returned else .Broken error))

/-! ### Tunnels -/

/-- `saturating_add` of two `u64`. -/
def addTransferred (transferred count : Nat) : Nat := saturating_add transferred count

def drain_rejected_tunnel (max_bytes : Nat) : Nat → Nat → Broker (Except Stop Nat)
  | 0, _ => pure (.error .Running)
  | fuel + 1, transferred => (tryIo read_frame).and_then fun
    | none => pure (.ok transferred)
    | some frame =>
      let transferred := addTransferred transferred frame.length
      if max_bytes < transferred then pure (.error (.Broken .InvalidData))
      else drain_rejected_tunnel max_bytes fuel transferred

/-- The client hello, if one for the host arrives within the limits, and the bytes counted. -/
def read_https_prelude (host : Host) (max_bytes : Nat) : Nat → Nat → Bytes → Broker (Except Stop (Option Bytes × Nat))
  | 0, _, _ => pure (.error .Running)
  | fuel + 1, transferred, bytes => (tryIo read_frame).and_then fun
    | none => pure (.ok (none,transferred))
    | some frame =>
      let transferred := addTransferred transferred frame.length
      if max_bytes < transferred ∨ MAX_TLS_CLIENT_HELLO_BYTES < bytes.length + frame.length then
        pure (.ok (none,transferred))
      else
        match tls_records_match_sni (bytes ++ frame) host with
        | .Incomplete => read_https_prelude host max_bytes fuel transferred (bytes ++ frame)
        | .Invalid => pure (.ok (none,transferred))
        | .Valid => pure (.ok (some (bytes ++ frame),transferred))

/-- A byte of the channel is awaited while the destination is as well. -/
def contested : Program.Contested Request Answer RemoteRead
  | .readByte => ⟨.select,fun
    | .Channel byte => .inl byte
    | .Remote read => .inr read⟩
  | request => ⟨request,.inl⟩

/-- Both sides of a tunnel have ended, or how far it has come. -/
structure TunnelState where
  client_eof : Bool
  remote_eof : Bool
  transferred : Nat

/-- The branch for a frame of the client. -/
def forwardFrame (max_bytes : Nat) (state : TunnelState) : Except IoError (Option Bytes) →
    Broker (Except Stop TunnelState)
  | .error error => pure (.error (if proxy_closed error then .Returned else .Broken error))
  | .ok (some bytes) =>
    let transferred := addTransferred state.transferred bytes.length
    if max_bytes < transferred then pure (.error .Returned)
    else do
      match ← perform (.send bytes) with
      | .ok () => pure (.ok { state with transferred := transferred })
      | .error _ => (answerFrame []).and_then fun _ => pure (.ok
          { state with transferred := transferred, remote_eof := true })
  | .ok none => do
    match ← perform .shutdown with
    | .ok () => pure (.ok { state with client_eof := true })
    | .error _ => (answerFrame []).and_then fun _ => pure (.ok { state with client_eof := true, remote_eof := true })

/-- The branch for bytes of the destination; an error counts as none. -/
def returnBytes (max_bytes : Nat) (state : TunnelState) (read : RemoteRead) : Broker (Except Stop TunnelState) :=
  let bytes := match read with
    | .ok bytes => bytes.1
    | .error _ => []
  if bytes.length = 0 then (answerFrame []).and_then fun _ => pure (.ok { state with remote_eof := true })
  else
    let transferred := addTransferred state.transferred bytes.length
    if max_bytes < transferred then pure (.error .Returned)
    else (answerFrame bytes).and_then fun _ => pure (.ok { state with transferred := transferred })

/-- One round of the loop: `select!` over the sides that have not ended. -/
def tunnelRound (max_bytes : Nat) (state : TunnelState) : Broker (Except Stop TunnelState) :=
  if state.remote_eof then do
    let frame ← read_frame
    forwardFrame max_bytes state frame
  else if state.client_eof then do
    let read ← perform .remoteRead
    returnBytes max_bytes state read
  else do
    match ← read_frame.race contested with
    | .inl frame => forwardFrame max_bytes state frame
    | .inr read => returnBytes max_bytes state read

def tunnelLoop (max_bytes : Nat) : Nat → TunnelState → Broker (Except Stop Nat)
  | 0, _ => pure (.error .Running)
  | fuel + 1, state =>
    if state.remote_eof && state.client_eof then pure (.ok state.transferred)
    else (tunnelRound max_bytes state).and_then fun next => tunnelLoop max_bytes fuel next

/-- What follows an accepted connection, up to the next request. -/
def tunnel (host : Host) (max_bytes fuel transferred : Nat) : Broker (Except Stop Nat) :=
  (read_https_prelude host max_bytes fuel transferred []).and_then fun (prelude,transferred) =>
    match prelude with
    | none => (tryIo (write_frame [])).and_then fun _ => drain_rejected_tunnel max_bytes fuel transferred
    | some prelude => do
      match ← perform (.send prelude) with
      | .error (error,_) => pure (.error (.Broken error))
      | .ok () => tunnelLoop max_bytes fuel ⟨false,false,transferred⟩

/-! ### Connections -/

/-- One address after the other, until one answers. -/
def connectAny (effect : NativeSideEffect) (last_error : IoError) : List SocketAddr →
    Broker (Except Stop (Except IoError Unit))
  | [] => pure (.ok (.error last_error))
  | address :: rest => (revalidate effect).and_then fun _ => do
    match ← perform (.connect address) with
    | .ok () => pure (.ok (.ok ()))
    | .error error => connectAny effect error rest

def connect_public (effect : NativeSideEffect) (host : Host) (port : Nat) :
    Broker (Except Stop (Except IoError Unit)) :=
  (revalidate effect).and_then fun _ => do
    match ← perform (.lookup_host host port) with
    | .error error => pure (.ok (.error error))
    | .ok found =>
      let addresses := deduplicate_addresses found
      if addresses.isEmpty || 32 < addresses.length || addresses.any fun address => !public_ip address.ip then
        pure (.ok (.error .PermissionDenied))
      else connectAny effect .NotFound addresses

def headEnd : Bytes := [0x0d,0x0a,0x0d,0x0a]
/-- The position behind the first end of a head. -/
def header_end : Bytes → Option Nat
  | [] => none
  | byte :: rest => if headEnd.isPrefixOf (byte :: rest) then some 4 else (header_end rest).map (· + 1)

def proxy_connect_succeeded (response : Bytes) : Bool :=
  let status := response.takeWhile (· ≠ 0x0a)
  let version := status.takeWhile (· ≠ 0x20)
  let code := (status.drop (version.length + 1)).takeWhile (· ≠ 0x20)
  (version == bytesOf "HTTP/1.1" || version == bytesOf "HTTP/1.0") && version.length < status.length &&
    code.length == 3 && code.head? == some 0x32 && code.tail.all is_ascii_digit

/-- The response of the upstream proxy, up to the end of its head. -/
def readResponse : Nat → Bytes → Broker (Except Stop (Except IoError Bytes))
  | 0, _ => pure (.error .Running)
  | fuel + 1, response =>
    if (header_end response).isSome then pure (.ok (.ok response))
    else do
      match ← perform .proxyRead with
      | .error error => pure (.ok (.error error))
      | .ok bytes =>
        if bytes.length = 0 ∨ 8192 < response.length + bytes.length then pure (.ok (.error .InvalidInput))
        else readResponse fuel (response ++ bytes)

def connectRequest (host : Host) (port : Nat) : Bytes :=
  let target := host ++ bytesOf s!":{port}"
  bytesOf "CONNECT " ++ target ++ bytesOf " HTTP/1.1\r\nHost: " ++ target ++
    bytesOf "\r\nProxy-Connection: Keep-Alive\r\n\r\n"

def connect_via_environment_proxy (effect : NativeSideEffect) (fuel : Nat) (host : Host) (port : Nat) :
    Broker (Except Stop (Except IoError Unit)) := do
  match ← perform .environment_proxy with
  | none => pure (.ok (.error .InvalidInput))
  | some (proxy_host,proxy_port) => (revalidate effect).and_then fun _ => do
    match ← perform (.lookup_host proxy_host proxy_port) with
    | .error error => pure (.ok (.error error))
    | .ok found =>
      let addresses := deduplicate_addresses found
      if addresses.isEmpty || 32 < addresses.length then pure (.ok (.error .InvalidInput))
      else (connectAny effect .ConnectionRefused addresses).and_then fun
        | .error _ => pure (.ok (.error .ConnectionRefused))
        | .ok () => (revalidate effect).and_then fun _ => do
          match ← perform (.proxySend (connectRequest host port)) with
          | .error error => pure (.ok (.error error))
          | .ok () => (readResponse fuel []).and_then fun
            | .error error => pure (.ok (.error error))
            | .ok response =>
              if header_end response ≠ some response.length ∨ proxy_connect_succeeded response = false then
                pure (.ok (.error .PermissionDenied))
              else pure (.ok (.ok ()))

def connect_destination (route : NativeCommandNetworkRoute) (effect : NativeSideEffect) (fuel : Nat) (host : Host)
    (port : Nat) :
    Broker (Except Stop (Except IoError Unit)) := do
  let _ ← perform (.connect_destination host port)
  match route with
  | .Direct => connect_public effect host port
  | .EnvironmentProxy => connect_via_environment_proxy effect fuel host port

/-! ### The broker -/

/-- `saturating_add` of two `u32`. -/
def countConnection (connections : Nat) : Nat := min (connections + 1) (2 ^ 32 - 1)
def invalid_request : VyaneError := .config "native network proxy sent an invalid request"

/-- The destination of a request, or why there is none. -/
inductive Requested where
  | Closed
  | Refused
  | Named (host : Host) (port : Nat)

/-- The head of a request. -/
def readRequest : Broker (Except Stop Requested) := do
  match ← readUint 1 with
  | .error .UnexpectedEof => pure (.ok .Closed)
  | .error error => pure (.error (.Broken error))
  | .ok kind =>
    if kind ≠ 1 then pure (.error (.Failed invalid_request))
    else (tryIo (readUint 2)).and_then fun host_len => (tryIo (readUint 2)).and_then fun port =>
      if host_len = 0 then pure (.ok .Refused)
      else (tryIo (read_exact host_len [])).and_then fun host =>
        if MAX_HOST_BYTES < host_len then pure (.ok .Refused)
        else if (from_utf8 host).isNone then pure (.ok .Refused)
        else pure (.ok (.Named (to_ascii_lowercase host) port))

section
variable (is_ip_addr : Host → Bool) (policy : NativeCommandNetworkPolicy) (effect : NativeSideEffect)

/-- A destination that is named: refused, not reached, or tunnelled to. -/
def serveRequest (fuel connections transferred : Nat) (host : Host) (port : Nat) : Broker (Except Stop Nat) :=
  if policy.max_connections < connections ∨ wildcard.isPrefixOf host = true ∨
      validate_host_pattern is_ip_addr host ≠ .ok () ∨ policy.permits host port = false then
    (tryIo (perform (.write_u8 0))).and_then fun _ => pure (.ok transferred)
  else (revalidate effect).and_then fun _ => (connect_destination policy.route effect fuel host port).and_then fun
    | .error _ => (tryIo (perform (.write_u8 0))).and_then fun _ => pure (.ok transferred)
    | .ok () => (tryIo (perform (.write_u8 1))).and_then fun _ => tunnel host policy.max_bytes fuel transferred

/-- The loop over the requests. -/
def requests (rounds : Nat) : Nat → Nat → Nat → Broker (Except Stop Unit)
  | 0, _, _ => pure (.error .Running)
  | fuel + 1, connections, transferred => readRequest.and_then fun
    | .Closed => pure (.error .Returned)
    | .Refused => (tryIo (perform (.write_u8 0))).and_then fun _ => requests rounds fuel connections transferred
    | .Named host port =>
      (serveRequest is_ip_addr policy effect rounds (countConnection connections) transferred host port).and_then
        fun transferred =>
        requests rounds fuel (countConnection connections) transferred

/-- The broker, given so many rounds for each of its loops. -/
def run_network_broker (rounds : Nat) : Broker (Except Stop Unit) := requests is_ip_addr policy effect rounds rounds 0 0

end
end Vyane.Networks
