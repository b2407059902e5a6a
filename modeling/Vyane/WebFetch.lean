import Mathlib.Data.List.Sort
import Vyane.Core
import Vyane.Interleavings
import Vyane.NetworkPolicy
import Vyane.Strs

/-!
Fetching public web pages for a native run: the tool with its policy (`trusted_web_fetch.rs`) and the client
(`web_fetch.rs`), which follows redirects by itself. Calls run at once and share one counter. Texts are their bytes.
Parsing an URL, joining a redirect to it and telling names from IP addresses are parameters; an URL is what its
accessors give, with the text before the fragment.
-/
namespace Vyane.WebFetch
open Vyane.Core Interactions Interleavings Utf8 Strs List
open Networks
  (Host IpAddr SocketAddr bytesOf dot hyphen splitDots is_ascii_lowercase is_ascii_digit to_ascii_lowercase
  eq_ignore_ascii_case)

def MAX_URL_BYTES : Nat := 8 * 1024
def MAX_DOMAINS : Nat := 128
def MAX_DOMAIN_BYTES : Nat := 253
def MAX_FETCHES : Nat := 16
def MIN_RESPONSE_BYTES : Nat := 1024
def MAX_RESPONSE_BYTES : Nat := 2 * 1024 * 1024
def MAX_REDIRECTS : Nat := 8
def MAX_TOOL_OUTPUT_CHARS : Nat := 30000

/-! ### The policy of the tool -/

structure NativeWebFetchPolicy where
  allow_domains : List Host
  max_fetches : Nat
  max_response_bytes : Nat
  max_redirects : Nat

inductive NativeWebFetchPolicyError where
  | EmptyAllowlist
  | TooManyDomains
  | InvalidDomain
  | DuplicateDomain
  | InvalidFetchLimit
  | InvalidResponseLimit
  | InvalidRedirectLimit
deriving DecidableEq, Repr

inductive NativeWebSearchPolicyError where
  | InvalidDomain

/-- The loop over the labels. -/
def validateLabels : List Host → Except NativeWebSearchPolicyError Unit
  | [] => .ok ()
  | label :: rest =>
    if label.isEmpty || 63 < label.length || label.head? == some hyphen || label.getLast? == some hyphen ||
        !label.all fun byte => is_ascii_lowercase byte || is_ascii_digit byte || byte == hyphen
    then .error .InvalidDomain
    else validateLabels rest

section
variable (is_ip_addr : Host → Bool)

def validate_search_domain (domain : Host) : Except NativeWebSearchPolicyError Unit :=
  if domain.isEmpty || MAX_DOMAIN_BYTES < domain.length || domain != to_ascii_lowercase domain ||
    domain.head? == some dot ||
      domain.getLast? == some dot || is_ip_addr domain || !domain.contains dot
  then .error .InvalidDomain
  else validateLabels (splitDots domain)

/-- Each domain is valid and new. -/
def validateDomains (unique : List Host) : List Host → Except NativeWebFetchPolicyError Unit
  | [] => .ok ()
  | domain :: rest =>
    match validate_search_domain is_ip_addr domain with
    | .error _ => .error .InvalidDomain
    | .ok () => if domain ∈ unique then .error .DuplicateDomain else validateDomains (domain :: unique) rest

def NativeWebFetchPolicy.validate (policy : NativeWebFetchPolicy) : Except NativeWebFetchPolicyError Unit :=
  if policy.allow_domains.isEmpty then .error .EmptyAllowlist
  else if MAX_DOMAINS < policy.allow_domains.length then .error .TooManyDomains
  else
    match validateDomains is_ip_addr [] policy.allow_domains with
    | .error error => .error error
    | .ok () =>
      if policy.max_fetches = 0 ∨ MAX_FETCHES < policy.max_fetches then .error .InvalidFetchLimit
      else if ¬(MIN_RESPONSE_BYTES ≤ policy.max_response_bytes ∧ policy.max_response_bytes ≤ MAX_RESPONSE_BYTES) then
        .error .InvalidResponseLimit
      else if MAX_REDIRECTS < policy.max_redirects then .error .InvalidRedirectLimit
      else .ok ()

end

/-- The host is the base or ends in a dot and the base. -/
def below (host base : Host) : Bool := host == base || (dot :: base).isSuffixOf host
def NativeWebFetchPolicy.permits (policy : NativeWebFetchPolicy) (host : Host) : Bool :=
  policy.allow_domains.any (below host)

/-! ### URLs -/

inductive UrlHost where
  | Domain (name : Host)
  | Ipv4 (text : Host)
  | Ipv6 (text : Host)
deriving DecidableEq

structure Url where
  scheme : Bytes
  username : Bytes
  password : Option Bytes
  host : Option UrlHost
  port : Option Nat
  front : Bytes
  fragment : Option Bytes
deriving DecidableEq

namespace Url
def as_str (url : Url) : Bytes :=
  match url.fragment with
  | none => url.front
  | some fragment => url.front ++ 0x23 :: fragment
def domain (url : Url) : Option Host :=
  match url.host with
  | some (.Domain name) => some name
  | _ => none
def host_str (url : Url) : Option Host := url.host.map fun
  | .Domain text | .Ipv4 text | .Ipv6 text => text
def port_or_known_default (url : Url) : Option Nat :=
  url.port <|>
    if url.scheme = bytesOf "http" ∨ url.scheme = bytesOf "ws" then some 80
    else if url.scheme = bytesOf "https" ∨ url.scheme = bytesOf "wss" then some 443
    else if url.scheme = bytesOf "ftp" then some 21
    else none

end Url

def https : Bytes := bytesOf "https"

/-! ### The client's own checks -/

structure WebFetchRequest where
  url : Bytes
  allowed_domains : List Host
  max_response_bytes : Nat
  max_redirects : Nat

structure WebFetchOutcome where
  final_url : Bytes
  content_type : Bytes
  text : List Char

def valid_policy_domain (is_ip_addr : Host → Bool) (domain : Host) : Bool :=
  if domain.isEmpty || 253 < domain.length || domain != to_ascii_lowercase domain || domain.head? == some dot ||
      domain.getLast? == some dot || is_ip_addr domain || !domain.contains dot
  then false
  else (splitDots domain).all fun label =>
    !label.isEmpty && label.length ≤ 63 && label.head? != some hyphen && label.getLast? != some hyphen &&
      label.all fun byte => is_ascii_lowercase byte || is_ascii_digit byte || byte == hyphen

/-- `windows(2)` with two equal parts. -/
def repeats : List Host → Bool
  | first :: second :: rest => first == second || repeats (second :: rest)
  | _ => false

def validate_request_bounds (is_ip_addr : Host → Bool) (req : WebFetchRequest) : Except VyaneError Unit :=
  if req.allowed_domains.isEmpty || MAX_DOMAINS < req.allowed_domains.length ||
      !(MIN_RESPONSE_BYTES ≤ req.max_response_bytes && req.max_response_bytes ≤ MAX_RESPONSE_BYTES) ||
      MAX_REDIRECTS < req.max_redirects || req.allowed_domains.any (!valid_policy_domain is_ip_addr ·)
  then .error ⟨.Config,"web fetch request policy is invalid"⟩
  else if repeats (req.allowed_domains.insertionSort (· ≤ ·)) then
    .error ⟨.Config,"web fetch request policy is invalid"⟩
  else .ok ()

def domain_is_allowed (host : Host) (allowed : List Host) : Bool := allowed.any (below host)
def invalid_url (message : String) : VyaneError := ⟨.Config,message⟩
def cancelled : VyaneError := ⟨.Cancelled,"web fetch cancelled"⟩

def validate_fetch_url (parse : Bytes → Option Url) (input : Bytes) : Except VyaneError Url :=
  if input.isEmpty || MAX_URL_BYTES < input.length then .error (invalid_url "web fetch URL is invalid")
  else
    match parse input with
    | none => .error (invalid_url "web fetch URL is invalid")
    | some url =>
      if url.scheme ≠ https ∨ url.username ≠ [] ∨ url.password ≠ none ∨ url.host_str = none ∨
        url.port.any (· != 443) then
        .error (invalid_url "web fetch requires a public HTTPS URL")
      else
        match url.host with
        | some (.Ipv4 _) | some (.Ipv6 _) => .error (invalid_url "web fetch does not accept IP-literal hosts")
        | _ =>
          let url := { url with fragment := none }
          if MAX_URL_BYTES < url.as_str.length then .error (invalid_url "web fetch URL is invalid") else .ok url

/-! ### Addresses -/

def is_public_ipv4 (a b c d : UInt8) : Bool :=
  let is_unspecified := a == 0 && b == 0 && c == 0 && d == 0
  let is_loopback := a == 127
  let is_private := a == 10 || (a == 172 && (16 ≤ b && b ≤ 31)) || (a == 192 && b == 168)
  let is_link_local := a == 169 && b == 254
  let is_multicast := 224 ≤ a && a ≤ 239
  let is_broadcast := a == 255 && b == 255 && c == 255 && d == 255
  let is_documentation :=
    (a == 192 && b == 0 && c == 2) || (a == 198 && b == 51 && c == 100) || (a == 203 && b == 0 && c == 113)
  !(is_unspecified || is_loopback || is_private || is_link_local || is_multicast || is_broadcast ||
    is_documentation || a == 0 ||
    (a == 100 && (64 ≤ b && b ≤ 127)) || (a == 192 && b == 0 && c == 0) || (a == 192 && b == 88 && c == 99 && d != 2) ||
    (a == 198 && (b == 18 || b == 19)) || 240 ≤ a)

def is_public_ipv6 (s0 s1 s2 s3 s4 s5 s6 s7 : UInt16) : Bool :=
  -- `to_ipv4`: compatible and mapped addresses
  if [s0,s1,s2,s3,s4].all (· == 0) && (s5 == 0 || s5 == 0xffff) then
    is_public_ipv4 (s6 >>> 8).toUInt8 s6.toUInt8 (s7 >>> 8).toUInt8 s7.toUInt8
  else
    s0 &&& 0xe000 == 0x2000 && !(s0 == 0x2001 && s1 < 0x0200) && !(s0 == 0x2001 && s1 == 0x0db8) && s0 != 0x2002 &&
      s0 &&& 0xfff0 != 0x3ff0

def is_public_ip : IpAddr → Bool
  | .V4 a b c d => is_public_ipv4 a b c d
  | .V6 s0 s1 s2 s3 s4 s5 s6 s7 => is_public_ipv6 s0 s1 s2 s3 s4 s5 s6 s7

/-! ### Responses -/

/-- Header values are there if they are printable ASCII. -/
structure Response where
  status : Nat
  location : Option Bytes
  content_type : Option Bytes
  content_length : Option Nat

def is_redirect (status : Nat) : Bool := status ∈ [301,302,303,307,308]
def is_success (status : Nat) : Bool := 200 ≤ status && status < 300
def unsupported_content_type : VyaneError := ⟨.Protocol,"web fetch accepts only declared UTF-8 text content"⟩

/-- `split`, at one byte. -/
def split_at (separator : UInt8) : Bytes → List Bytes
  | [] => [[]]
  | byte :: rest =>
    if byte = separator then [] :: split_at separator rest
    else
      match split_at separator rest with
      | [] => [[byte]]
      | part :: parts => (byte :: part) :: parts

def trim_matches (matched : UInt8 → Bool) (bytes : Bytes) : Bytes := (bytes.dropWhile matched).rdropWhile matched
/-- `trim`; of what is white, a header value can only have these. -/
def trim : Bytes → Bytes := trim_matches fun byte => byte == 0x20 || byte == 0x09

/-- The parameter names another charset. -/
def otherCharset (parameter : Bytes) : Bool :=
  parameter.contains 0x3d &&
    eq_ignore_ascii_case (trim (parameter.takeWhile (· != 0x3d))) (bytesOf "charset") &&
      !eq_ignore_ascii_case (trim_matches (· == 0x22) (trim ((parameter.dropWhile (· != 0x3d)).drop 1)))
        (bytesOf "utf-8")

def accepted_content_type : Option Bytes → Except VyaneError Bytes
  | none => .error unsupported_content_type
  | some value =>
    if ((split_at 0x3b value).drop 1).any otherCharset then .error unsupported_content_type
    else
      let content_type := to_ascii_lowercase (trim ((split_at 0x3b value).headD []))
      if (bytesOf "text/").isPrefixOf content_type ||
        content_type ∈ ["application/json","application/ld+json","application/xml",
          "application/xhtml+xml","application/rss+xml","application/atom+xml"].map bytesOf
      then .ok content_type
      else .error unsupported_content_type

/-! ### The client -/

/-- A lookup, unless the call was cancelled first. -/
inductive Lookup where
  | Cancelled
  | TimedOut
  | Failed
  | Addresses (addrs : List SocketAddr)

inductive Sending where
  | Cancelled
  | Failed
  | Answered (response : Response)

inductive Reading where
  | Cancelled
  | Failed
  | Ended
  | Chunk (bytes : Bytes)

/-- What calls do outside themselves: the counter, the call on the client, and what the client does. A client that was
    built sends requests to the host only to the addresses it was given, without proxy, redirects or retries. -/
inductive Request where
  | fetch_add
  | fetch_sub
  | fetch_authorized (req : WebFetchRequest)
  | revalidate (effect : NativeSideEffect)
  | lookup_host (host : Host) (port : Nat)
  | build_client (host : Host) (addrs : List SocketAddr)
  | get (url : Url) (addrs : List SocketAddr)
  | nextChunk

def Answer : Request → Type
  | .fetch_add => Nat
  | .fetch_sub => Unit
  | .fetch_authorized _ => Unit
  | .revalidate _ => Except VyaneError Unit
  | .lookup_host _ _ => Lookup
  | .build_client _ _ => Except Unit Unit
  | .get _ _ => Sending
  | .nextChunk => Reading

abbrev Fetcher (α : Type) : Type := Program Request Answer α
def perform (request : Request) : Fetcher (Answer request) := Program.request request
/-- Why a call has no outcome; a body can be without end. -/
inductive Stop where
  | Failed (error : VyaneError)
  | Running
def fail {α : Type} (error : VyaneError) : Fetcher (Except Stop α) := pure (.error (.Failed error))

def revalidate (effect : NativeSideEffect) : Fetcher (Except Stop Unit) := do
  match ← perform (.revalidate effect) with
  | .error error => fail error
  | .ok () => pure (.ok ())

def lookup_host (host : Host) (port : Nat) : Fetcher (Except Stop (List SocketAddr)) := do
  match ← perform (.lookup_host host port) with
  | .Cancelled => fail cancelled
  | .TimedOut => fail ⟨.Timeout,"web fetch DNS lookup timed out"⟩
  | .Failed => fail ⟨.Transport,"web fetch DNS lookup failed"⟩
  | .Addresses addrs => pure (.ok addrs)

def build_client (host : Host) (addrs : List SocketAddr) : Fetcher (Except Stop Unit) := do
  match ← perform (.build_client host addrs) with
  | .error () => fail ⟨.Config,"failed to build web fetch client"⟩
  | .ok () => pure (.ok ())

def send (url : Url) (addrs : List SocketAddr) : Fetcher (Except Stop Response) := do
  match ← perform (.get url addrs) with
  | .Cancelled => fail cancelled
  | .Failed => fail ⟨.Transport,"web fetch request failed"⟩
  | .Answered response => pure (.ok response)

/-- One round of the loop, up to the response. -/
def requestUrl (req : WebFetchRequest) (effect : NativeSideEffect) (url : Url) : Fetcher (Except Stop Response) :=
  if !url.domain.any (domain_is_allowed · req.allowed_domains) then
    fail ⟨.Auth,"web fetch URL exceeds the admitted domain policy"⟩
  else
    match url.host_str, url.port_or_known_default with
    | none, _ => fail (invalid_url "web fetch URL has no host")
    | some _, none => fail (invalid_url "web fetch URL has no port")
    | some host, some port =>
      (revalidate effect).and_then fun _ => (lookup_host host port).and_then fun addrs =>
        if addrs.isEmpty || addrs.any (!is_public_ip ·.ip) then
          fail ⟨.Auth,"web fetch resolved outside the public Internet"⟩
        else (build_client host addrs).and_then fun _ => (revalidate effect).and_then fun _ => send url addrs

/-- The body, as long as it keeps to the limit. -/
def read_body (max_response_bytes : Nat) : Nat → Bytes → Fetcher (Except Stop Bytes)
  | 0, _ => pure (.error .Running)
  | rounds + 1, bytes => do
    match ← perform .nextChunk with
    | .Cancelled => fail cancelled
    | .Failed => fail ⟨.Transport,"web fetch response body failed"⟩
    | .Ended => pure (.ok bytes)
    | .Chunk chunk =>
      if max_response_bytes < bytes.length + chunk.length then
        fail ⟨.Protocol,"web fetch response exceeds the configured byte limit"⟩
      else read_body max_response_bytes rounds (bytes ++ chunk)

/-- What is made of a response that is no redirect. -/
def receive (rounds : Nat) (req : WebFetchRequest) (url : Url) (response : Response) :
    Fetcher (Except Stop WebFetchOutcome) :=
  if !is_success response.status then fail ⟨.Protocol,s!"web fetch returned HTTP {response.status}"⟩
  else
    match accepted_content_type response.content_type with
    | .error error => fail error
    | .ok content_type =>
      if response.content_length.any (req.max_response_bytes < ·) then
        fail ⟨.Protocol,"web fetch response exceeds the configured byte limit"⟩
      else
        (read_body req.max_response_bytes rounds []).and_then fun bytes =>
          match from_utf8 bytes with
          | none => fail ⟨.Protocol,"web fetch response is not valid UTF-8 text"⟩
          | some text => pure (.ok ⟨url.as_str,content_type,text⟩)

section
variable (parse : Bytes → Option Url) (join : Url → Bytes → Option Url) (is_ip_addr : Host → Bool)

/-- Where a redirect leads. -/
def redirected (url : Url) (response : Response) : Except VyaneError Url :=
  match response.location with
  | none => .error ⟨.Protocol,"web fetch redirect has no valid location"⟩
  | some location =>
    match join url location with
    | none => .error (invalid_url "web fetch redirect URL is invalid")
    | some url => validate_fetch_url parse url.as_str

/-- The loop, with so many redirects left. -/
def fetchFrom (rounds : Nat) (req : WebFetchRequest) (effect : NativeSideEffect) : Nat → Url →
    Fetcher (Except Stop WebFetchOutcome)
  | 0, url => (requestUrl req effect url).and_then fun response =>
    if is_redirect response.status then fail ⟨.Protocol,"web fetch exceeded the redirect limit"⟩
      else receive rounds req url response
  | left + 1, url => (requestUrl req effect url).and_then fun response =>
    if is_redirect response.status then
      match redirected parse join url response with
      | .error error => fail error
      | .ok url => fetchFrom rounds req effect left url
    else receive rounds req url response

def fetch_authorized (rounds : Nat) (req : WebFetchRequest) (effect : NativeSideEffect) :
    Fetcher (Except Stop WebFetchOutcome) :=
  match validate_request_bounds is_ip_addr req with
  | .error error => fail error
  | .ok () =>
    match validate_fetch_url parse req.url with
    | .error error => fail error
    | .ok url => fetchFrom parse join rounds req effect req.max_redirects url

/-! ### The tool -/

inductive Value where
  | String (text : Bytes)
  | Other
abbrev Arguments : Type := List (String × Value)
structure ToolError where
  message : String
deriving DecidableEq

def Value.as_str : Value → Option Bytes
  | .String text => some text
  | .Other => none
/-- The URL is where the policy allows it. -/
def admitted (policy : NativeWebFetchPolicy) (url : Url) : Bool :=
  url.scheme == https && url.username.isEmpty && url.password.isNone && !url.port.any (· != 443) &&
    url.domain.any policy.permits

def parse_url (arguments : Arguments) (policy : NativeWebFetchPolicy) : Except ToolError Bytes :=
  if arguments.any (·.1 != "url") then .error ⟨"web_fetch received an unknown argument"⟩
  else
    match (arguments.lookup "url").bind Value.as_str with
    | none => .error ⟨"web_fetch URL is invalid"⟩
    | some raw =>
      if raw.isEmpty || MAX_URL_BYTES < raw.length then .error ⟨"web_fetch URL is invalid"⟩
      else
        match parse raw with
        | none => .error ⟨"web_fetch URL is invalid"⟩
        | some url =>
            if admitted policy url then .ok raw else .error ⟨"web_fetch URL exceeds the configured HTTPS domain policy"⟩

/-- `is_control`, of ASCII. -/
def is_control (byte : UInt8) : Bool := byte < 0x20 || byte == 0x7f

/-- What is returned: the URL and the type, then as much of the text as there is room for. -/
def rendered (final_url : Url) (outcome : WebFetchOutcome) : Bytes :=
  let head := bytesOf "Fetched URL: " ++ final_url.as_str ++ bytesOf "\nContent-Type: " ++ outcome.content_type ++
    bytesOf "\n\nUntrusted web content:\n"
  head ++ encode (outcome.text.take (MAX_TOOL_OUTPUT_CHARS - (head.filter leading).length))

def returned (policy : NativeWebFetchPolicy) (outcome : WebFetchOutcome) : Except Stop (Except ToolError Bytes) :=
  match parse outcome.final_url with
  | none => .error (.Failed ⟨.Protocol,"web fetch client returned an off-policy final URL"⟩)
  | some final_url =>
    if !(admitted policy final_url && final_url.as_str.length ≤ MAX_URL_BYTES) then
      .error (.Failed ⟨.Protocol,"web fetch client returned an off-policy final URL"⟩)
    else if outcome.content_type.isEmpty || 128 < outcome.content_type.length ||
      outcome.content_type.any is_control then
      .error (.Failed ⟨.Protocol,"web fetch client returned an invalid content type"⟩)
    else .ok (.ok (rendered final_url outcome))

def requestOf (policy : NativeWebFetchPolicy) (url : Bytes) : WebFetchRequest :=
  ⟨url,policy.allow_domains,policy.max_response_bytes,policy.max_redirects⟩

def execute_authorized (rounds : Nat) (policy : NativeWebFetchPolicy) (arguments : Arguments)
    (effect : NativeSideEffect) :
    Fetcher (Except Stop (Except ToolError Bytes)) :=
  match parse_url parse arguments policy with
  | .error error => pure (.ok (.error error))
  | .ok url => do
    let prior : Nat ← perform .fetch_add
    if policy.max_fetches ≤ prior then do
      let _ ← perform .fetch_sub
      pure (.ok (.error ⟨"web_fetch exceeded the configured per-run fetch limit"⟩))
    else do
      let _ ← perform (.fetch_authorized (requestOf policy url))
      (fetch_authorized parse join is_ip_addr rounds (requestOf policy url) effect).and_then fun outcome =>
        pure (returned parse policy outcome)

structure Call where
  arguments : Arguments
  effect : NativeSideEffect
  rounds : Nat

/-- The counter is served here, everything else as the world likes. The counter cannot wrap: for that more than four
    billion threads would have to stand between `fetch_add` and `fetch_sub`. -/
def tool (Pid : Type) : Machine Pid Nat ((request : Request) → Answer request) Request Answer where
  perform _ world used
    | .fetch_add => (used,used + 1)
    | .fetch_sub => ((),used - 1)
    | request => (world request,used)
  crash _ used := used

def calling {Pid : Type} (policy : NativeWebFetchPolicy) (calls : Pid → Option Call) :
    State Pid Nat Request Answer (Except Stop (Except ToolError Bytes)) :=
  ⟨0,fun pid => (calls pid).map fun call =>
    execute_authorized parse join is_ip_addr call.rounds policy call.arguments call.effect,[]⟩

end

/-! ### The two validators agree -/

theorem validateLabels_all {labels : List Host} (valid : validateLabels labels = .ok ()) : labels.all (fun label =>
    !label.isEmpty && label.length ≤ 63 && label.head? != some hyphen && label.getLast? != some hyphen &&
      label.all fun byte => is_ascii_lowercase byte || is_ascii_digit byte || byte == hyphen) = true := by
  induction labels with
  | nil => rfl
  | cons label rest ih =>
    rw [validateLabels] at valid
    split_ifs at valid with bad
    rw [all_cons,ih valid,Bool.and_true]
    simp only [Bool.or_eq_true,not_or,Bool.not_eq_true,Bool.not_eq_false',decide_eq_false_iff_not,Nat.not_lt] at bad
    simp [bad,bne]

variable {is_ip_addr : Host → Bool} {policy : NativeWebFetchPolicy} {url : Url} {parse : Bytes → Option Url}

theorem valid_policy_domain_of_validate {domain : Host}
    (valid : validate_search_domain is_ip_addr domain = .ok ()) : valid_policy_domain is_ip_addr domain = true := by
  unfold validate_search_domain at valid
  split_ifs at valid with bad
  exact (if_neg bad).trans (validateLabels_all valid)

theorem validateDomains_spec : ∀ {domains unique : List Host},
    validateDomains is_ip_addr unique domains = .ok () →
      (∀ domain ∈ domains, valid_policy_domain is_ip_addr domain = true) ∧ domains.Nodup ∧ ∀ domain ∈ domains,
        domain ∉ unique := by
  intro domains
  induction domains with
  | nil => exact fun _ => ⟨nofun,.nil,nofun⟩
  | cons domain rest ih =>
    intro unique valid
    rw [validateDomains] at valid
    split at valid
    · cases valid
    · rename_i here
      split_ifs at valid with known
      obtain ⟨all,nodup,new⟩ := ih valid
      refine ⟨?_,?_,?_⟩
      · exact forall_mem_cons.mpr ⟨valid_policy_domain_of_validate here,all⟩
      · exact nodup_cons.mpr ⟨fun again => new domain again mem_cons_self,nodup⟩
      · exact forall_mem_cons.mpr ⟨known,fun other inside => fun seen => new other inside (mem_cons_of_mem _ seen)⟩

theorem repeats_of_nodup : ∀ {domains : List Host}, domains.Nodup → repeats domains = false := by
  intro domains
  induction domains with
  | nil => exact fun _ => rfl
  | cons first rest ih =>
    intro nodup
    obtain ⟨fresh,later⟩ := nodup_cons.mp nodup
    cases rest with
    | nil => rfl
    | cons second rest =>
      have apart : first ≠ second := fun same => fresh (same ▸ mem_cons_self)
      simp [repeats,apart,ih later]

theorem validate_request_bounds_of_validate (valid : policy.validate is_ip_addr = .ok ()) (url : Bytes) :
    validate_request_bounds is_ip_addr (requestOf policy url) = .ok () := by
  unfold NativeWebFetchPolicy.validate at valid
  by_cases noneListed : policy.allow_domains.isEmpty = true
  · rw [if_pos noneListed] at valid
    cases valid
  by_cases many : MAX_DOMAINS < policy.allow_domains.length
  · rw [if_neg noneListed,if_pos many] at valid
    cases valid
  rw [if_neg noneListed,if_neg many] at valid
  split at valid
  · cases valid
  · rename_i domains
    obtain ⟨all,nodup,_⟩ := validateDomains_spec domains
    split_ifs at valid with fetches bytes redirects
    have sorted : repeats (policy.allow_domains.insertionSort (· ≤ ·)) = false :=
      repeats_of_nodup ((perm_insertionSort _ _).nodup_iff.mpr nodup)
    have listed : policy.allow_domains.any (!valid_policy_domain is_ip_addr ·) = false := by simpa using all
    unfold validate_request_bounds requestOf
    rw [if_neg (by simp [noneListed,many,bytes,redirects,listed]),sorted]
    rfl

/-- What the policy wants of an URL, and what the client wants of it as well. -/
theorem admitted_iff : admitted policy url = true ↔
    url.scheme = https ∧ url.username = [] ∧ url.password = none ∧ url.port.any (· != 443) = false ∧
      ∃ name, url.host = some (.Domain name) ∧ policy.permits name = true := by
  simp only [admitted,Bool.and_eq_true,beq_iff_eq,List.isEmpty_iff,Option.isNone_iff_eq_none,Bool.not_eq_true',
    and_assoc,Url.domain]
  cases url.host with
  | none => simp
  | some host => cases host <;> simp

theorem validate_fetch_url_of_parse_url {arguments : Arguments}
    {raw : Bytes} (accepted : parse_url parse arguments policy = .ok raw) : ∃ url, parse raw = some url ∧
      validate_fetch_url parse raw = if MAX_URL_BYTES < url.front.length then
        .error (invalid_url "web fetch URL is invalid")
        else .ok { url with fragment := none } := by
  unfold parse_url at accepted
  split_ifs at accepted
  split at accepted
  · cases accepted
  · split_ifs at accepted with size
    split at accepted
    · cases accepted
    · rename_i url parsed
      split_ifs at accepted with fits
      cases accepted
      obtain ⟨scheme,username,password,port,name,host,_⟩ := admitted_iff.mp fits
      refine ⟨url,parsed,?_⟩
      unfold validate_fetch_url
      rw [if_neg size,parsed]
      simp [scheme,username,password,port,host,Url.host_str,Url.as_str]

/-! ### What a call does -/

abbrev History : Type := List (Event Request Answer)
def isGet : Event Request Answer → Bool
  | ⟨.get _ _,_⟩ => true
  | _ => false
def chunkBytes : Event Request Answer → Nat
  | ⟨.nextChunk,.Chunk bytes⟩ => bytes.length
  | _ => 0
/-- The HTTP requests of a call. -/
def gets (history : History) : Nat := history.countP isGet
/-- The bytes of a body that a call has received. -/
def received (history : History) : Nat := (history.map chunkBytes).sum
/-- The call on the client has been made. -/
def Started (history : History) : Prop := ∃ req, ⟨.fetch_authorized req,()⟩ ∈ history

/-- `https` at port 443, without credentials, at a host that is or is below an allowed domain. -/
structure Proper (policy : NativeWebFetchPolicy) (url : Url) (host : Host) : Prop where
  scheme : url.scheme = bytesOf "https"
  username : url.username = []
  password : url.password = none
  port : url.port_or_known_default = some 443
  named : url.host = some (.Domain host)
  allowed : ∃ base ∈ policy.allow_domains, host = base ∨ ∃ labels, host = labels ++ dot :: base

/-- When a request may be made: one HTTP request more than redirects at most, to addresses that were looked up for the
    host and are all public, right after a successful revalidation; no body beyond the limit. -/
def Allows (policy : NativeWebFetchPolicy) (before : History) : Request → Prop
  | .fetch_add => before = []
  | .fetch_sub => ∃ prior : Nat, before = [⟨.fetch_add,prior⟩] ∧ policy.max_fetches ≤ prior
  | .fetch_authorized _ => ∃ prior : Nat, before = [⟨.fetch_add,prior⟩] ∧ prior < policy.max_fetches
  | .get url addrs => Started before ∧ gets before ≤ policy.max_redirects ∧ addrs ≠ [] ∧ (∀ addr ∈ addrs,
      is_public_ip addr.ip = true) ∧
      ∃ host effect front, Proper policy url host ∧
        before = front ++ [⟨.lookup_host host 443,.Addresses addrs⟩,⟨.build_client host addrs,.ok ()⟩,
          ⟨.revalidate effect,.ok ()⟩]
  | .nextChunk => Started before ∧ received before ≤ policy.max_response_bytes
  | _ => Started before

theorem below_iff {host base : Host} : below host base = true ↔
    host = base ∨ ∃ labels, host = labels ++ dot :: base := by
  simp only [below,Bool.or_eq_true,beq_iff_eq,isSuffixOf_iff_suffix]
  exact or_congr_right ⟨fun ⟨labels,same⟩ => ⟨labels,same.symm⟩,fun ⟨labels,same⟩ => ⟨labels,same.symm⟩⟩

/-- An URL that the client has validated. -/
structure Validated (url : Url) : Prop where
  scheme : url.scheme = https
  username : url.username = []
  password : url.password = none
  port : url.port.any (· != 443) = false

theorem validated_of_validate {input : Bytes} (valid : validate_fetch_url parse input = .ok url) :
    Validated url := by
  unfold validate_fetch_url at valid
  split_ifs at valid
  split at valid
  · cases valid
  · split_ifs at valid with fits
    split at valid
    · cases valid
    · cases valid
    · dsimp only at valid
      split_ifs at valid
      cases valid
      simp only [not_or,not_not,Bool.not_eq_true] at fits
      exact ⟨fits.1,fits.2.1,fits.2.2.1,fits.2.2.2.2⟩

theorem Validated.port_eq (valid : Validated url) : url.port_or_known_default = some 443 := by
  unfold Url.port_or_known_default
  cases given : url.port with
  | none =>
    rw [valid.scheme]
    decide +kernel
  | some port =>
    have same : port = 443 := by simpa [given] using valid.port
    rw [same]
    rfl

theorem Validated.proper (valid : Validated url)
    (allowed : url.domain.any (domain_is_allowed · policy.allow_domains) = true) :
    ∃ host, Proper policy url host ∧ url.host_str = some host := by
  unfold Url.domain at allowed
  split at allowed
  · rename_i name host
    obtain ⟨base,listed,under⟩ := any_eq_true.mp allowed
    exact ⟨name,⟨valid.scheme,valid.username,valid.password,valid.port_eq,host,base,listed,below_iff.mp under⟩,
      by simp [Url.host_str,host]⟩
  · cases allowed

section
variable {policy : NativeWebFetchPolicy} {before : History} {url : Url} {req : WebFetchRequest}

@[simp] theorem gets_append (first second : History) : gets (first ++ second) = gets first + gets second :=
  countP_append
section
variable (started : Started before)
include started
theorem Started.append (more : History) : Started (before ++ more) :=
  started.imp fun _ => mem_append_left _

theorem revalidate_guided (effect : NativeSideEffect) : Guides (keeping (Allows policy)) before (revalidate effect)
    (Succeeds fun after _ => after = before ++ [⟨.revalidate effect,.ok ()⟩]) := by
  refine Guides.keep started fun answer => ?_
  cases (answer : Except VyaneError Unit) with
  | error error => exact Guides.fail
  | ok => exact Guides.succeed rfl

theorem lookup_host_guided (host : Host) (port : Nat) :
    Guides (keeping (Allows policy)) before (lookup_host host port)
      (Succeeds fun after addrs => after = before ++ [⟨.lookup_host host port,.Addresses addrs⟩]) := by
  refine Guides.keep started fun answer => ?_
  cases (answer : Lookup) with
  | Addresses addrs => exact Guides.succeed rfl
  | _ => exact Guides.fail

theorem build_client_guided (host : Host) (addrs : List SocketAddr) :
    Guides (keeping (Allows policy)) before (build_client host addrs)
      (Succeeds fun after _ => after = before ++ [⟨.build_client host addrs,.ok ()⟩]) := by
  refine Guides.keep started fun answer => ?_
  cases (answer : Except Unit Unit) with
  | error => exact Guides.fail
  | ok => exact Guides.succeed rfl

end

theorem send_guided {addrs : List SocketAddr} (allowed : Allows policy before (.get url addrs)) :
    Guides (keeping (Allows policy)) before (send url addrs)
      (Succeeds fun after response => after = before ++ [⟨.get url addrs,.Answered response⟩]) := by
  refine Guides.keep allowed fun answer => ?_
  cases (answer : Sending) with
  | Answered response => exact Guides.succeed rfl
  | _ => exact Guides.fail

/-- One more HTTP request was sent, and it was answered. -/
structure Sent (before : History) (url : Url) (after : History) (response : Response) : Prop where
  last : ∃ front addrs, after = front ++ [⟨.get url addrs,.Answered response⟩]
  started : Started after
  gets : gets after = gets before + 1
  received : received after = received before

theorem requestUrl_guided {effect : NativeSideEffect} (domains : req.allowed_domains = policy.allow_domains)
    (started : Started before) (few : gets before ≤ policy.max_redirects) (valid : Validated url) :
    Guides (keeping (Allows policy)) before (requestUrl req effect url) (Succeeds (Sent before url)) := by
  unfold requestUrl
  split_ifs with outside
  · exact Guides.fail
  · rw [Bool.not_eq_true',Bool.not_eq_false,domains] at outside
    obtain ⟨host,proper,name⟩ := valid.proper outside
    rw [name,proper.port]
    refine Guides.and_succeeds (Guides.weaken ?_ (revalidate_guided started effect))
    rintro after result ends value rfl
    rw [ends value rfl]
    refine Guides.and_succeeds (Guides.weaken ?_ (lookup_host_guided (started.append _) host 443))
    rintro after result ends addrs rfl
    rw [ends addrs rfl]
    split_ifs with hidden
    · exact Guides.fail
    · have checked : addrs ≠ [] ∧ ∀ addr ∈ addrs, is_public_ip addr.ip = true := by simpa using hidden
      refine Guides.and_succeeds (Guides.weaken ?_ (build_client_guided ((started.append _).append _) host addrs))
      rintro after result ends value rfl
      rw [ends value rfl]
      refine Guides.and_succeeds (Guides.weaken ?_ (revalidate_guided (((started.append _).append _).append _) effect))
      rintro after result ends value rfl
      rw [ends value rfl]
      refine Guides.weaken ?_ (send_guided ⟨(((started.append _).append _).append _).append _,?_,checked.1,
        checked.2,host,effect,
        before ++ [⟨.revalidate effect,.ok ()⟩],proper,by simp⟩)
      · rintro after result ends response rfl
        rw [ends response rfl]
        exact ⟨⟨_,addrs,rfl⟩,((((started.append _).append _).append _).append _).append _,
          by simp [gets,isGet],by simp [received,chunkBytes]⟩
      · simpa [gets,isGet] using few

/-- Since then only the body was read. -/
def Read (before after : History) : Prop := ∃ chunks, after = before ++ chunks ∧ ∀ event ∈ chunks, event.1 = .nextChunk

theorem read_body_guided : ∀ {rounds : Nat} {bytes : Bytes} {before : History}, Started before →
    received before = bytes.length →
    bytes.length ≤ policy.max_response_bytes → Guides (keeping (Allows policy)) before
      (read_body policy.max_response_bytes rounds bytes)
      (Succeeds fun after body => Read before after ∧ body.length ≤ policy.max_response_bytes) := by
  intro rounds
  induction rounds with
  | zero => exact fun _ _ _ => Guides.fail
  | succ rounds ih =>
    intro bytes before started same fits
    refine Guides.keep ⟨started,same ▸ fits⟩ fun answer => ?_
    cases (answer : Reading) with
    | Cancelled => exact Guides.fail
    | Failed => exact Guides.fail
    | Ended => exact Guides.succeed ⟨⟨_,rfl,by simp⟩,fits⟩
    | Chunk chunk =>
      show Guides _ _ (if _ then _ else _) _
      split_ifs with beyond
      · exact Guides.fail
      · refine Guides.weaken ?_ (ih (started.append _) (by simp [received,chunkBytes] at same ⊢; omega)
          (by simpa using beyond))
        rintro after result ends body rfl
        obtain ⟨⟨chunks,rfl,only⟩,short⟩ := ends body rfl
        exact ⟨⟨⟨.nextChunk,.Chunk chunk⟩ :: chunks,by simp,forall_mem_cons.mpr ⟨rfl,only⟩⟩,short⟩

/-- The outcome is that of the last HTTP request, with no more of the body than is allowed. -/
def Fetched (policy : NativeWebFetchPolicy) (history : History) (outcome : WebFetchOutcome) : Prop :=
  ∃ front url addrs response chunks, history = front ++ ⟨.get url addrs,.Answered response⟩ :: chunks ∧
    (∀ event ∈ chunks, event.1 = .nextChunk) ∧ outcome.final_url = url.as_str ∧
    (encode outcome.text).length ≤ policy.max_response_bytes

theorem receive_guided {rounds : Nat} {response : Response} {after : History}
    (limit : req.max_response_bytes = policy.max_response_bytes) (sent : Sent before url after response)
    (nothing : received before = 0) :
    Guides (keeping (Allows policy)) after (receive rounds req url response) (Succeeds (Fetched policy)) := by
  unfold receive
  split
  · exact Guides.fail
  · split
    · exact Guides.fail
    · split_ifs
      · exact Guides.fail
      · rw [limit]
        refine Guides.and_succeeds
          (Guides.weaken ?_ (read_body_guided sent.started (sent.received.trans nothing) (Nat.zero_le _)))
        rintro last result ends bytes rfl
        obtain ⟨⟨chunks,rfl,only⟩,short⟩ := ends bytes rfl
        split
        · exact Guides.fail
        · rename_i text decoded
          obtain ⟨front,addrs,rfl⟩ := sent.last
          exact Guides.succeed ⟨front,url,addrs,response,chunks,
            by simp,only,rfl,by rw [encode_of_from_utf8 decoded]; exact short⟩

section
variable {parse : Bytes → Option Url} {join : Url → Bytes → Option Url} {is_ip_addr : Host → Bool}
  {effect : NativeSideEffect} {rounds : Nat}

theorem redirected_validated {next : Url} {response : Response}
    (leads : redirected parse join url response = .ok next) : Validated next := by
  unfold redirected at leads
  split at leads
  · cases leads
  · split at leads
    · cases leads
    · exact validated_of_validate leads

theorem fetchFrom_guided {raw : Bytes} : ∀ {left : Nat} {url : Url} {before : History},
    Started before → gets before + left = policy.max_redirects → received before = 0 → Validated url →
      Guides (keeping (Allows policy)) before (fetchFrom parse join rounds (requestOf policy raw) effect left url)
        (Succeeds (Fetched policy)) := by
  intro left
  induction left with
  | zero =>
    intro url before started few nothing valid
    refine Guides.and_succeeds (Guides.weaken ?_ (requestUrl_guided rfl started (by omega) valid))
    rintro after result ends response rfl
    have sent := ends response rfl
    split_ifs
    · exact Guides.fail
    · exact receive_guided rfl sent nothing
  | succ left ih =>
    intro url before started few nothing valid
    refine Guides.and_succeeds (Guides.weaken ?_ (requestUrl_guided rfl started (by omega) valid))
    rintro after result ends response rfl
    have sent := ends response rfl
    split_ifs
    · split
      · exact Guides.fail
      · rename_i next leads
        exact ih sent.started (by rw [sent.gets]; omega) (sent.received.trans nothing) (redirected_validated leads)
    · exact receive_guided rfl sent nothing

/-- The text is that of the last HTTP request, under an URL that the policy allows. -/
def Returned (parse : Bytes → Option Url) (policy : NativeWebFetchPolicy) (history : History) (text : Bytes) : Prop :=
  ∃ outcome final host, Fetched policy history outcome ∧ parse outcome.final_url = some final ∧
    Proper policy final host ∧
    text = rendered final outcome

theorem admitted_proper (fits : admitted policy url = true) : ∃ host, Proper policy url host := by
  obtain ⟨scheme,username,password,port,name,host,permitted⟩ := admitted_iff.mp fits
  obtain ⟨base,listed,under⟩ := any_eq_true.mp permitted
  exact ⟨name,scheme,username,password,Validated.port_eq ⟨scheme,username,password,port⟩,host,base,listed,
    below_iff.mp under⟩

theorem returned_text {outcome : WebFetchOutcome} {text : Bytes}
    (result : returned parse policy outcome = .ok (.ok text)) :
    ∃ final host, parse outcome.final_url = some final ∧ Proper policy final host ∧ text = rendered final outcome := by
  unfold returned at result
  split at result
  · cases result
  · rename_i final parsed
    split_ifs at result with off
    cases result
    rw [Bool.not_eq_true',Bool.not_eq_false,Bool.and_eq_true] at off
    obtain ⟨host,proper⟩ := admitted_proper off.1
    exact ⟨final,host,parsed,proper,rfl⟩

theorem fetch_authorized_guided {raw : Bytes} (started : Started before) (noneYet : gets before = 0)
    (nothing : received before = 0) : Guides (keeping (Allows policy)) before
      (fetch_authorized parse join is_ip_addr rounds (requestOf policy raw) effect) (Succeeds (Fetched policy)) := by
  unfold fetch_authorized
  split
  · exact Guides.fail
  · split
    · exact Guides.fail
    · rename_i url valid
      exact fetchFrom_guided started (by rw [noneYet,Nat.zero_add]; rfl) nothing (validated_of_validate valid)

theorem execute_authorized_guided {arguments : Arguments} :
    Guides (keeping (Allows policy)) [] (execute_authorized parse join is_ip_addr rounds policy arguments effect)
      (Succeeds fun history result => ∀ text, result = .ok text → Returned parse policy history text) := by
  unfold execute_authorized
  split
  · exact Guides.succeed nofun
  · rename_i raw accepted
    refine Guides.keep rfl fun prior => ?_
    by_cases many : policy.max_fetches ≤ (show Nat from prior)
    · rw [if_pos many]
      exact Guides.keep ⟨prior,rfl,many⟩ fun _ => Guides.succeed nofun
    · rw [if_neg many]
      refine Guides.keep ⟨prior,rfl,Nat.lt_of_not_le many⟩ fun answer => ?_
      have started : Started ([] ++ [⟨.fetch_add,prior⟩] ++ [⟨.fetch_authorized (requestOf policy raw),answer⟩]) :=
        ⟨_,mem_append_right _ (mem_singleton_self _)⟩
      refine Guides.and_succeeds (Guides.weaken ?_ (fetch_authorized_guided started rfl rfl))
      rintro after result ends outcome rfl value same text rfl
      obtain ⟨final,host,parsed,proper,rendered⟩ := returned_text same
      exact ⟨outcome,final,host,ends outcome rfl,parsed,proper,rendered⟩

end
end

/-! ### The counter -/

section
variable {Pid : Type}
  {policy : NativeWebFetchPolicy} {used : Nat} {log : List (Entry Pid Nat Request Answer)}
    {within beyond : Finset Pid} {pid : Pid}

def isStart (entry : Entry Pid Nat Request Answer) : Bool :=
  match entry.event.1 with
  | .fetch_authorized _ => true
  | _ => false

/-- The fetches that were ever started. -/
def started (log : List (Entry Pid Nat Request Answer)) : Nat := log.countP isStart
theorem started_snoc (log : List (Entry Pid Nat Request Answer)) (entry : Entry Pid Nat Request Answer) :
    started (log ++ [entry]) = started log + if isStart entry then 1 else 0 := by
  simp [started,countP_singleton]

variable [DecidableEq Pid]

/-- The calls that have been counted and have not gone on yet, apart those that may go on and those that may not. -/
structure Counted (policy : NativeWebFetchPolicy) (used : Nat) (log : List (Entry Pid Nat Request Answer))
    (within beyond : Finset Pid) : Prop where
  low : ∀ pid, ∀ prior : Nat, own log pid = [⟨.fetch_add,prior⟩] → prior < policy.max_fetches → pid ∈ within
  high : ∀ pid, ∀ prior : Nat, own log pid = [⟨.fetch_add,prior⟩] → policy.max_fetches ≤ prior → pid ∈ beyond
  counter : started log + within.card + beyond.card ≤ used
  few : started log + within.card ≤ policy.max_fetches

/-- After another request the call no longer waits, and the others wait as before. -/
theorem waiting_of_snoc {other : Pid} {prior : Nat} {event : Event Request Answer}
    (went : own log pid ≠ []) (waits : own (log ++ [⟨pid,used,event⟩]) other = [⟨.fetch_add,prior⟩]) :
    other ≠ pid ∧ own log other = [⟨.fetch_add,prior⟩] := by
  by_cases same : other = pid
  · subst same
    rw [own_snoc_self] at waits
    have length := congrArg length waits
    rw [length_append] at length
    exact absurd (length_eq_zero_iff.mp (by simpa using length)) went
  · rw [own_snoc_other _ _ _ same] at waits
    exact ⟨same,waits⟩

section
variable (counted : Counted policy used log within beyond)
include counted
theorem Counted.add (idle : own log pid = []) :
    ∃ within beyond, Counted policy (used + 1) (log ++ [⟨pid,used,⟨.fetch_add,used⟩⟩]) within beyond := by
  have counter := counted.counter
  have few := counted.few
  have same : started (log ++ [⟨pid,used,⟨.fetch_add,used⟩⟩]) = started log := by rw [started_snoc]; rfl
  have waits : ∀ other, ∀ prior : Nat, own (log ++ [⟨pid,used,⟨.fetch_add,used⟩⟩]) other = [⟨.fetch_add,prior⟩] →
      other = pid ∧ prior = used ∨ own log other = [⟨.fetch_add,prior⟩] := by
    intro other prior waits
    by_cases here : other = pid
    · subst here
      rw [own_snoc_self,idle] at waits
      cases waits
      exact .inl ⟨rfl,rfl⟩
    · rw [own_snoc_other _ _ _ here] at waits
      exact .inr waits
  by_cases room : used < policy.max_fetches
  · have card := Finset.card_insert_le pid within
    refine ⟨insert pid within,beyond,⟨fun other prior waiting low => ?_,
      fun other prior waiting high => ?_,by omega,by omega⟩⟩
    · rcases waits other prior waiting with ⟨rfl,_⟩ | before
      · exact Finset.mem_insert_self _ _
      · exact Finset.mem_insert_of_mem (counted.low other prior before low)
    · rcases waits other prior waiting with ⟨_,rfl⟩ | before
      · omega
      · exact counted.high other prior before high
  · have card := Finset.card_insert_le pid beyond
    refine ⟨within,insert pid beyond,⟨fun other prior waiting low => ?_,
      fun other prior waiting high => ?_,by omega,by omega⟩⟩
    · rcases waits other prior waiting with ⟨_,rfl⟩ | before
      · omega
      · exact counted.low other prior before low
    · rcases waits other prior waiting with ⟨rfl,_⟩ | before
      · exact Finset.mem_insert_self _ _
      · exact Finset.mem_insert_of_mem (counted.high other prior before high)

theorem Counted.sub {prior : Nat} (waits : own log pid = [⟨.fetch_add,prior⟩])
    (high : policy.max_fetches ≤ prior) : Counted policy (used - 1) (log ++ [⟨pid,used,⟨.fetch_sub,()⟩⟩]) within
    (beyond.erase pid) := by
  have went : own log pid ≠ [] := by simp [waits]
  have member := counted.high pid prior waits high
  have card := Finset.card_erase_add_one member
  have counter := counted.counter
  have few := counted.few
  have same : started (log ++ [⟨pid,used,⟨.fetch_sub,()⟩⟩]) = started log := by rw [started_snoc]; rfl
  refine ⟨fun other prior waiting low => ?_,fun other prior waiting high => ?_,by omega,by omega⟩
  · exact counted.low other prior (waiting_of_snoc went waiting).2 low
  · obtain ⟨apart,before⟩ := waiting_of_snoc went waiting
    exact Finset.mem_erase.mpr ⟨apart,counted.high other prior before high⟩

theorem Counted.start {prior : Nat} {req : WebFetchRequest}
    (waits : own log pid = [⟨.fetch_add,prior⟩]) (low : prior < policy.max_fetches) (answer : Unit) :
    Counted policy used (log ++ [⟨pid,used,⟨.fetch_authorized req,answer⟩⟩]) (within.erase pid) beyond := by
  have went : own log pid ≠ [] := by simp [waits]
  have member := counted.low pid prior waits low
  have card := Finset.card_erase_add_one member
  have counter := counted.counter
  have few := counted.few
  have same : started (log ++ [⟨pid,used,⟨.fetch_authorized req,answer⟩⟩]) = started log + 1 := by
    rw [started_snoc]; rfl
  refine ⟨fun other prior waiting low => ?_,fun other prior waiting high => ?_,by omega,by omega⟩
  · obtain ⟨apart,before⟩ := waiting_of_snoc went waiting
    exact Finset.mem_erase.mpr ⟨apart,counted.low other prior before low⟩
  · exact counted.high other prior (waiting_of_snoc went waiting).2 high

theorem Counted.other {event : Event Request Answer} (went : own log pid ≠ [])
    (plain : isStart (⟨pid,used,event⟩ : Entry Pid Nat Request Answer) = false) :
    Counted policy used (log ++ [⟨pid,used,event⟩]) within beyond := by
  have same : started (log ++ [⟨pid,used,event⟩]) = started log := by simp [started_snoc,plain]
  exact ⟨fun other prior waiting low => counted.low other prior (waiting_of_snoc went waiting).2 low,
    fun other prior waiting high => counted.high other prior (waiting_of_snoc went waiting).2 high,
      by rw [same]; exact counted.counter,
    by rw [same]; exact counted.few⟩

end

theorem Started.ne_nil {history : History} (started : Started history) : history ≠ [] := by
  obtain ⟨req,here⟩ := started
  exact ne_nil_of_mem here

theorem tool_step (pid : Pid) (world : (request : Request) → Answer request) (used : Nat)
    (log : List (Entry Pid Nat Request Answer))
    (request : Request) (counted : ∃ within beyond, Counted policy used log within beyond)
    (allowed : Allows policy (own log pid) request) :
    ∃ within beyond, Counted policy ((tool Pid).perform pid world used request).2
      (log ++ [⟨pid,used,⟨request,((tool Pid).perform pid world used request).1⟩⟩]) within beyond := by
  obtain ⟨within,beyond,counted⟩ := counted
  cases request with
  | fetch_add => exact counted.add allowed
  | fetch_sub =>
    obtain ⟨prior,waits,high⟩ := allowed
    exact ⟨_,_,counted.sub waits high⟩
  | fetch_authorized req =>
    obtain ⟨prior,waits,low⟩ := allowed
    exact ⟨_,_,counted.start waits low _⟩
  | get url addrs => exact ⟨_,_,counted.other allowed.1.ne_nil rfl⟩
  | nextChunk => exact ⟨_,_,counted.other allowed.1.ne_nil rfl⟩
  | _ => exact ⟨_,_,counted.other (Started.ne_nil allowed) rfl⟩

end

theorem gets_le {history : History} (kept : Kept (Allows policy) history) :
    gets history ≤ policy.max_redirects + 1 := by
  induction history using reverseRecOn with
  | nil => exact Nat.zero_le _
  | append_singleton before event ih =>
    have earlier : Kept (Allows policy) before :=
      fun front other after split => kept front other (after ++ [event]) (by simp [split])
    rw [gets_append]
    match event with
    | ⟨.get url addrs,answer⟩ =>
      have few := (kept before ⟨.get url addrs,answer⟩ [] rfl).2.1
      exact Nat.add_le_add_right few 1
    | ⟨.fetch_add,_⟩ | ⟨.fetch_sub,_⟩ | ⟨.fetch_authorized _,_⟩ | ⟨.revalidate _,_⟩ | ⟨.lookup_host _ _,
        _⟩ | ⟨.build_client _ _,_⟩
    | ⟨.nextChunk,_⟩ => exact ih earlier

/-- Under a valid policy, whatever names and servers answer: no more fetches start than the policy says; each request is
    made when it may be made; a call sends at most one HTTP request more than redirects; a text is returned only under
    an URL that the policy allows; and what the tool accepts the client accepts, exactly if the normal form of the URL
    is short enough. -/
theorem fetches_stay_within {Pid : Type} [DecidableEq Pid] (parse : Bytes → Option Url)
    (join : Url → Bytes → Option Url) (is_ip_addr : Host → Bool) {policy : NativeWebFetchPolicy}
    (valid : policy.validate is_ip_addr = .ok ()) (calls : Pid → Option Call)
    (moves : List (Move Pid ((request : Request) → Answer request))) :
    let state := (calling parse join is_ip_addr policy calls).run (tool Pid) moves
    started state.log ≤ policy.max_fetches ∧
    (∀ pid, (∀ before event after, own state.log pid = before ++ event :: after → Allows policy before event.1) ∧
      gets (own state.log pid) ≤ policy.max_redirects + 1 ∧
      ∀ text, state.threads pid = some (.done (.ok (.ok text))) → Returned parse policy (own state.log pid) text) ∧
    ∀ arguments raw, parse_url parse arguments policy = .ok raw →
      validate_request_bounds is_ip_addr (requestOf policy raw) = .ok () ∧
      ∃ url, parse raw = some url ∧
        (validate_fetch_url parse raw = .ok { url with fragment := none } ↔ url.front.length ≤ MAX_URL_BYTES) := by
  have guided : ∀ pid program, (calling parse join is_ip_addr policy calls).threads pid = some program →
      Guides (keeping (Allows policy)) [] program
        (Succeeds fun history result => ∀ text, result = .ok text → Returned parse policy history text) := by
    intro pid program running
    obtain ⟨call,_,rfl⟩ := Option.map_eq_some_iff.mp running
    exact execute_authorized_guided
  have idle : ∃ within beyond : Finset Pid, Counted policy 0 [] within beyond :=
    ⟨∅,∅,⟨nofun,nofun,Nat.le_refl _,Nat.zero_le _⟩⟩
  obtain ⟨⟨within,beyond,counted⟩,histories⟩ :=
    run_keeping (tool Pid) tool_step (fun _ _ _ holds => holds) moves idle guided
  refine ⟨Nat.le_trans (Nat.le_add_right _ _) counted.few,fun pid => ?_,fun arguments raw accepted => ?_⟩
  · obtain ⟨kept,ends⟩ := histories pid
    exact ⟨kept,gets_le kept,fun text ended => ends _ ended _ rfl text rfl⟩
  · obtain ⟨url,parsed,checked⟩ := validate_fetch_url_of_parse_url accepted
    refine ⟨validate_request_bounds_of_validate valid raw,url,parsed,?_⟩
    rw [checked]
    split_ifs with long <;> simpa using long

/-! ### A policy at work -/

def docsRs : NativeWebFetchPolicy := ⟨[bytesOf "docs.rs"],2,4096,1⟩
def hexDigit (digit : UInt8) : UInt8 := if digit < 10 then 0x30 + digit else 0x37 + digit
/-- Bytes beyond ASCII are written with three. -/
def percentEncoded (bytes : Bytes) : Bytes :=
  bytes.flatMap fun byte => if byte < 0x80 then [byte] else [0x25,hexDigit (byte / 16),hexDigit (byte % 16)]

/-- Enough of `Url::parse` for one site. -/
def parseDocsRs (input : Bytes) : Option Url :=
  if (bytesOf "https://docs.rs/").isPrefixOf input then
    some ⟨https,[],none,some (.Domain (bytesOf "docs.rs")),none,percentEncoded input,none⟩
  else none

def site : Bytes := bytesOf "https://docs.rs/"
/-- Letters that take two bytes each. -/
def accents (n : Nat) : Bytes := (replicate n [0xc3,0xa9]).flatten
theorem accents_length (n : Nat) : (accents n).length = 2 * n := by simp [accents,Nat.mul_comm]

theorem percentEncoded_accents (n : Nat) : (percentEncoded (accents n)).length = 6 * n := by
  induction n with
  | zero => rfl
  | succ n ih =>
    rw [accents,replicate_succ,flatten_cons,percentEncoded,flatMap_append,length_append]
    change 6 + (percentEncoded (accents n)).length = _
    omega

theorem parse_site (rest : Bytes) :
    parseDocsRs (site ++ rest) =
      some ⟨https,[],none,some (.Domain (bytesOf "docs.rs")),none,percentEncoded (site ++ rest),none⟩ :=
  if_pos (List.isPrefixOf_iff_prefix.mpr ⟨rest,rfl⟩)

theorem parse_url_of_admitted {raw : Bytes} (given : raw ≠ []) (short : raw.length ≤ MAX_URL_BYTES)
    (parsed : parse raw = some url) (fits : admitted policy url = true) :
    parse_url parse [("url",.String raw)] policy = .ok raw := by
  simp [parse_url,lookup,Value.as_str,given,Nat.not_lt.mpr short,parsed,fits]

/-- The tool measures the URL as it was given and the client measures its normal form, which can be too long. -/
theorem normal_form_is_too_long : docsRs.validate (fun _ => false) = .ok () ∧
    parse_url parseDocsRs [("url",.String (site ++ accents 3000))] docsRs = .ok (site ++ accents 3000) ∧
    validate_fetch_url parseDocsRs (site ++ accents 3000) = .error (invalid_url "web fetch URL is invalid") := by
  have length : site.length = 16 := by decide +kernel
  have accepted : parse_url parseDocsRs [("url",.String (site ++ accents 3000))] docsRs =
    .ok (site ++ accents 3000) := by
    refine parse_url_of_admitted ?_ ?_ (parse_site _) (admitted_iff.mpr ⟨rfl,rfl,rfl,rfl,_,rfl,by decide +kernel⟩)
    · exact append_ne_nil_of_left_ne_nil (ne_nil_of_length_pos (by omega)) _
    · rw [length_append,accents_length,length,MAX_URL_BYTES]
      omega
  refine ⟨by decide +kernel,accepted,?_⟩
  obtain ⟨url,parsed,checked⟩ := validate_fetch_url_of_parse_url accepted
  rw [parse_site,Option.some.injEq] at parsed
  subst parsed
  have long : (percentEncoded (site ++ accents 3000)).length = (percentEncoded site).length + 6 * 3000 := by
    rw [percentEncoded,flatMap_append,length_append]
    exact congrArg _ (percentEncoded_accents 3000)
  refine checked.trans (if_pos (?_ : MAX_URL_BYTES < (percentEncoded (site ++ accents 3000)).length))
  rw [long,MAX_URL_BYTES]
  omega

def docsRsWorld : (request : Request) → Answer request
  | .fetch_add => (0 : Nat)
  | .fetch_sub => ()
  | .fetch_authorized _ => ()
  | .revalidate _ => .ok ()
  | .lookup_host _ _ => .Addresses [⟨.V4 13 225 214 1,443⟩]
  | .build_client _ _ => .ok ()
  | .get _ _ => .Answered ⟨200,none,some (bytesOf "text/plain"),none⟩
  | .nextChunk => .Ended

def oneCall : Unit → Option Call := fun _ => some ⟨[("url",.String (bytesOf "https://docs.rs/"))],.ToolOperation 1 0,1⟩
def oneCallRun : List (Move Unit ((request : Request) → Answer request)) := replicate 8 (.step () docsRsWorld)

/-- A fetch that goes through. -/
theorem one_call_stays_within : docsRs.validate (fun _ => false) = .ok () ∧
    let state := (calling parseDocsRs (fun _ _ => none) (fun _ => false) docsRs oneCall).run (tool Unit) oneCallRun
    gets (own state.log ()) = 1 ∧ started state.log = 1 ∧ started state.log ≤ docsRs.max_fetches :=
  ⟨by decide +kernel,by decide +kernel,by decide +kernel,
    (fetches_stay_within parseDocsRs (fun _ _ => none) (fun _ => false) (by decide +kernel) oneCall oneCallRun).1⟩

end Vyane.WebFetch
