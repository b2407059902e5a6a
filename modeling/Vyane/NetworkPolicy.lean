import Vyane.Utf8

/-!
The policy for explicitly authorized command networking (`trusted_network.rs`). Host names are their bytes; whether a
name parses as an IP address is left to the standard library.
-/
namespace Vyane.Networks
open Utf8

def MAX_NETWORK_RULES : Nat := 128
def MAX_PORTS_PER_RULE : Nat := 32
def MAX_CONNECTIONS : Nat := 64
def MAX_BYTES : Nat := 1024 * 1024 * 1024
def MAX_CONNECT_TIMEOUT_SECONDS : Nat := 60
def MAX_HOST_BYTES : Nat := 253
def MAX_FRAME_BYTES : Nat := 64 * 1024
def MAX_TLS_CLIENT_HELLO_BYTES : Nat := 32 * 1024
def bytesOf (text : String) : Bytes := encode text.toList
abbrev Host : Type := Bytes
structure NativeCommandNetworkRule where
  host : Host
  ports : List Nat
inductive NativeCommandNetworkRoute where
  | Direct
  | EnvironmentProxy
deriving DecidableEq, Repr

structure NativeCommandNetworkPolicy where
  allow : List NativeCommandNetworkRule
  route : NativeCommandNetworkRoute
  max_connections : Nat
  max_bytes : Nat
  connect_timeout_seconds : Nat

inductive NativeCommandNetworkPolicyError where
  | EmptyAllowlist
  | TooManyRules
  | InvalidHost
  | InvalidPorts
  | InvalidConnectionLimit
  | InvalidByteLimit
  | InvalidConnectTimeout
deriving DecidableEq, Repr

/-! ### Host names -/

def dot : UInt8 := 0x2e
def hyphen : UInt8 := 0x2d

def splitDots : Bytes → List Bytes
  | [] => [[]]
  | byte :: rest =>
    if byte = dot then [] :: splitDots rest
    else
      match splitDots rest with
      | [] => [[byte]]
      | label :: labels => (byte :: label) :: labels

def is_ascii_lowercase (byte : UInt8) : Bool := 0x61 ≤ byte && byte ≤ 0x7a
def is_ascii_uppercase (byte : UInt8) : Bool := 0x41 ≤ byte && byte ≤ 0x5a
def is_ascii_digit (byte : UInt8) : Bool := 0x30 ≤ byte && byte ≤ 0x39
def is_ascii_hexdigit (byte : UInt8) : Bool :=
  is_ascii_digit byte || (0x61 ≤ byte && byte ≤ 0x66) || (0x41 ≤ byte && byte ≤ 0x46)
def isOctal (byte : UInt8) : Bool := 0x30 ≤ byte && byte ≤ 0x37
def lower (byte : UInt8) : UInt8 := if is_ascii_uppercase byte then byte + 0x20 else byte
def to_ascii_lowercase (bytes : Bytes) : Bytes := bytes.map lower
def eq_ignore_ascii_case (first second : Bytes) : Bool := to_ascii_lowercase first == to_ascii_lowercase second
/-- `strip_prefix`. -/
def stripped (pattern bytes : Bytes) : Option Bytes :=
  if pattern.isPrefixOf bytes then some (bytes.drop pattern.length) else none
def wildcard : Bytes := [0x2a,dot]

def legacy_ipv4_literal (host : Host) : Bool :=
  let parts := splitDots host
  (2 ≤ parts.length && parts.length ≤ 4) && parts.all fun part =>
    match stripped [0x30,0x78] part with
    | some hex => !hex.isEmpty && hex.all is_ascii_hexdigit
    | none =>
      if 1 < part.length && part.head? == some 0x30 then part.all isOctal
      else !part.isEmpty && part.all is_ascii_digit

/-- The pattern of a rule or the name of a request. -/
def validate_host_pattern (is_ip_addr : Host → Bool) (host : Host) : Except NativeCommandNetworkPolicyError Unit :=
  let plain := (stripped wildcard host).getD host
  if plain.isEmpty || MAX_HOST_BYTES < plain.length || is_ip_addr plain || legacy_ipv4_literal plain ||
      plain.getLast? == some dot || (splitDots plain).length < 2 ||
      (splitDots plain).any fun label => label.isEmpty || 63 < label.length || label.head? == some hyphen ||
        label.getLast? == some hyphen || !label.all fun byte => is_ascii_lowercase byte || is_ascii_digit byte ||
          byte == hyphen
  then .error .InvalidHost
  else .ok ()

namespace NativeCommandNetworkPolicy
variable (is_ip_addr : Host → Bool) (policy : NativeCommandNetworkPolicy)

def validateRule (rule : NativeCommandNetworkRule) : Except NativeCommandNetworkPolicyError Unit := do
  validate_host_pattern is_ip_addr rule.host
  if rule.ports.isEmpty || MAX_PORTS_PER_RULE < rule.ports.length || rule.ports.contains 0 then .error .InvalidPorts
  else .ok ()

def validate : Except NativeCommandNetworkPolicyError Unit :=
  if policy.allow.isEmpty then .error .EmptyAllowlist
  else if MAX_NETWORK_RULES < policy.allow.length then .error .TooManyRules
  else if policy.max_connections = 0 ∨ MAX_CONNECTIONS < policy.max_connections then .error .InvalidConnectionLimit
  else if policy.max_bytes = 0 ∨ MAX_BYTES < policy.max_bytes then .error .InvalidByteLimit
  else if policy.connect_timeout_seconds = 0 ∨ MAX_CONNECT_TIMEOUT_SECONDS < policy.connect_timeout_seconds then
    .error .InvalidConnectTimeout
  else policy.allow.forM (validateRule is_ip_addr)

def permits (host : Host) (port : Nat) : Bool :=
  policy.allow.any fun rule => rule.ports.contains port &&
    match stripped wildcard rule.host with
    | some suffix =>
      suffix.length < host.length && suffix.isSuffixOf host && host[host.length - suffix.length - 1]? == some dot
    | none => rule.host == host

end NativeCommandNetworkPolicy

/-! ### Addresses -/

inductive IpAddr where
  | V4 (a b c d : UInt8)
  | V6 (s0 s1 s2 s3 s4 s5 s6 s7 : UInt16)
deriving DecidableEq, Repr

structure SocketAddr where
  ip : IpAddr
  port : Nat
deriving DecidableEq, Repr

def public_v4 (a b c d : UInt8) : Bool :=
  !(a == 0 || a == 10 || a == 127 || (a == 100 && (64 ≤ b && b ≤ 127)) || (a == 169 && b == 254) ||
    (a == 172 && (16 ≤ b && b ≤ 31)) || (a == 192 && b == 0 && c == 0) || (a == 192 && b == 0 && c == 2) ||
    (a == 192 && b == 88 && c == 99) || (a == 192 && b == 168) || (a == 198 && (b == 18 || b == 19)) ||
    (a == 198 && b == 51 && c == 100) || (a == 203 && b == 0 && c == 113) || 224 ≤ a ||
    (a == 255 && b == 255 && c == 255 && d == 255))

/-- The four bytes of two segments. -/
def embeddedV4 (high low : UInt16) : Bool :=
  public_v4 (high >>> 8).toUInt8 high.toUInt8 (low >>> 8).toUInt8 low.toUInt8

def public_v6 (s0 s1 s2 s3 s4 s5 s6 s7 : UInt16) : Bool :=
  let zero := [s0,s1,s2,s3,s4].all (· == 0)
  if zero && s5 == 0xffff then embeddedV4 s6 s7
  else if (zero && s5 == 0) || (s0 == 0x0064 && s1 == 0xff9b && [s2,s3,s4,s5].all (· == 0)) then embeddedV4 s6 s7
  else
    let local_translation_prefix := s0 == 0x0064 && s1 == 0xff9b && s2 == 1
    let allocated_global_unicast := s0 &&& 0xe000 == 0x2000
    let special_2001 := s0 == 0x2001 &&
      (s1 == 0 || s1 == 2 || (0x0010 ≤ s1 && s1 ≤ 0x001f) || (0x0020 ≤ s1 && s1 ≤ 0x002f))
    let six_to_four := s0 == 0x2002
    let documentation_3fff := s0 == 0x3fff && s1 &&& 0xf000 == 0
    let is_unspecified := zero && s5 == 0 && s6 == 0 && s7 == 0
    let is_loopback := zero && s5 == 0 && s6 == 0 && s7 == 1
    let is_multicast := s0 &&& 0xff00 == 0xff00
    allocated_global_unicast && !(is_unspecified || is_loopback || is_multicast || s0 &&& 0xfe00 == 0xfc00 ||
      s0 &&& 0xffc0 == 0xfe80 || s0 &&& 0xffc0 == 0xfec0 || (s0 == 0x2001 && s1 == 0x0db8) ||
        local_translation_prefix ||
      special_2001 || six_to_four || documentation_3fff)

def public_ip : IpAddr → Bool
  | .V4 a b c d => public_v4 a b c d
  | .V6 s0 s1 s2 s3 s4 s5 s6 s7 => public_v6 s0 s1 s2 s3 s4 s5 s6 s7
/-- The addresses without those that came before. -/
def retainUnseen (seen : List SocketAddr) : List SocketAddr → List SocketAddr
  | [] => []
  | address :: rest => if address ∈ seen then retainUnseen seen rest else address :: retainUnseen (address :: seen) rest
def deduplicate_addresses (addresses : List SocketAddr) : List SocketAddr := retainUnseen [] addresses

end Vyane.Networks
