import Vyane.NetworkPolicy

/-!
The first server name of a TLS client hello (`trusted_network.rs`). The records at the start of a tunnel are put
together until they hold one whole handshake message, in which the name is looked up by offsets.
-/
namespace Vyane.Networks
open Utf8 List Option

/-! ### Reading by offsets -/

def be16 (high low : UInt8) : Nat := high.toNat * 256 + low.toNat
def be24 (high middle low : UInt8) : Nat := high.toNat * 65536 + middle.toNat * 256 + low.toNat

def getU16 (bytes : Bytes) (offset : Nat) : Option Nat := do
  let high ← bytes[offset]?
  let low ← bytes[offset + 1]?
  some (be16 high low)

def getU24 (bytes : Bytes) (offset : Nat) : Option Nat := do
  let high ← bytes[offset]?
  let middle ← bytes[offset + 1]?
  let low ← bytes[offset + 2]?
  some (be24 high middle low)

/-- The bytes from one offset to another. -/
def part (bytes : Bytes) (start stop : Nat) : Bytes := (bytes.take stop).drop start

/-- The first host name of a server name list; every round passes three bytes or more. -/
def firstHostName (bytes : Bytes) (list_end : Nat) : Nat → Nat → Option Bytes
  | 0, _ => none
  | fuel + 1, name =>
    if name < list_end then do
      let name_type ← bytes[name]?
      let name_len ← getU16 bytes (name + 1)
      let name_end := name + 3 + name_len
      if list_end < name_end then none
      else if name_type = 0 then
        if name_end ≤ bytes.length ∧ (from_utf8 (part bytes (name + 3) name_end)).isSome then
          some (part bytes (name + 3) name_end)
        else none
      else firstHostName bytes list_end fuel name_end
    else none

/-- The name list of the server name extension that stands at an offset. -/
def serverNameList (bytes : Bytes) (offset extension_end : Nat) : Option Bytes := do
  let list_len ← getU16 bytes offset
  if offset + 2 + list_len ≠ extension_end then none
  else firstHostName bytes (offset + 2 + list_len) (bytes.length + 1) (offset + 2)

/-- The first extension of type 0 decides; every round passes four bytes or more. -/
def findServerName (bytes : Bytes) (extensions_end : Nat) : Nat → Nat → Option Bytes
  | 0, _ => none
  | fuel + 1, offset =>
    if offset < extensions_end then do
      let extension_type ← getU16 bytes offset
      let extension_len ← getU16 bytes (offset + 2)
      let extension_end := offset + 4 + extension_len
      if extensions_end < extension_end then none
      else if extension_type = 0 then serverNameList bytes (offset + 4) extension_end
      else findServerName bytes extensions_end fuel extension_end
    else none

def tls_client_hello_sni (bytes : Bytes) : Option Bytes := do
  if bytes.length < 4 ∨ bytes[0]? ≠ some 1 then none
  else
    let handshake_len ← getU24 bytes 1
    if bytes.length < 4 + handshake_len then none
    else
      let session_len ← (bytes[38]?).map UInt8.toNat
      let ciphers := 39 + session_len
      let cipher_len ← getU16 bytes ciphers
      let compressions := ciphers + 2 + cipher_len
      let compression_len ← (bytes[compressions]?).map UInt8.toNat
      let extensions := compressions + 1 + compression_len
      let extensions_len ← getU16 bytes extensions
      if 4 + handshake_len < extensions + 2 + extensions_len then none
      else findServerName bytes (extensions + 2 + extensions_len) (bytes.length + 1) (extensions + 2)

/-! ### Records -/

inductive TlsPreludeState where
  | Incomplete
  | Invalid
  | Valid
deriving DecidableEq, Repr

/-- What the handshake bytes collected so far decide, if they do. -/
def judgeHandshake (handshake host : Bytes) : Option TlsPreludeState := do
  if handshake.length < 4 then none
  else if handshake[0]? ≠ some 1 then some .Invalid
  else
    let handshake_len ← getU24 handshake 1
    if MAX_TLS_CLIENT_HELLO_BYTES < 4 + handshake_len then some .Invalid
    else if handshake.length < 4 + handshake_len then none
    else if (tls_client_hello_sni (handshake.take (4 + handshake_len))).any (eq_ignore_ascii_case · host) then
      some .Valid
    else some .Invalid

/-- The loop over the records; every round passes five bytes or more. -/
def matchRecords (bytes host : Bytes) : Nat → Nat → Bytes → TlsPreludeState
  | 0, _, _ => .Incomplete
  | fuel + 1, record_offset, handshake =>
    let header_end := record_offset + 5
    if bytes.length < header_end then .Incomplete
    else if bytes[record_offset]? ≠ some 22 then .Invalid
    else
      match getU16 bytes (record_offset + 3) with
      | none => .Incomplete
      | some record_len =>
        let record_end := header_end + record_len
        if MAX_TLS_CLIENT_HELLO_BYTES < record_end then .Invalid
        else if bytes.length < record_end then .Incomplete
        else
          match judgeHandshake (handshake ++ part bytes header_end record_end) host with
          | some state => state
          | none =>
            if record_end = bytes.length then .Incomplete
            else matchRecords bytes host fuel record_end (handshake ++ part bytes header_end record_end)
def tls_records_match_sni (bytes host : Bytes) : TlsPreludeState :=
  matchRecords bytes host (bytes.length + 1) 0 []

/-! ### The format -/

/-- Vectors behind a length of one, two and three bytes. -/
def Vec8 (content whole : Bytes) : Prop := ∃ n : UInt8, whole = n :: content ∧ n.toNat = content.length
def Vec16 (content whole : Bytes) : Prop := ∃ high low, whole = high :: low :: content ∧ be16 high low = content.length
def Vec24 (content whole : Bytes) : Prop :=
  ∃ high middle low, whole = high :: middle :: low :: content ∧ be24 high middle low = content.length

/-- The entries of a server name list, and the first of them that is a host name. -/
inductive FirstHostName : Bytes → Bytes → Prop
  | here {entry name rest : Bytes} (named : Vec16 name entry) : FirstHostName (0 :: (entry ++ rest)) name
  | later {kind : UInt8} {entry other rest name : Bytes} (different : kind ≠ 0) (named : Vec16 other entry)
      (next : FirstHostName rest name) : FirstHostName (kind :: (entry ++ rest)) name

/-- The extensions of a hello, and the first host name of the first that lists server names. -/
inductive FirstServerName : Bytes → Bytes → Prop
  | here {extension list names rest name : Bytes} (content : Vec16 list extension) (listed : Vec16 names list)
      (first : FirstHostName names name) : FirstServerName (0 :: 0 :: (extension ++ rest)) name
  | later {high low : UInt8} {extension content rest name : Bytes} (different : be16 high low ≠ 0)
      (other : Vec16 content extension) (next : FirstServerName rest name) :
      FirstServerName (high :: low :: (extension ++ rest)) name

/-- A client hello message with this first server name. -/
def ClientHello (message name : Bytes) : Prop :=
  ∃ body version random session sessions cipher ciphers compression compressions extension extensions tail,
    message = 1 :: body ∧ version.length = 2 ∧ random.length = 32 ∧
    Vec24 (version ++ random ++ sessions ++ ciphers ++ compressions ++ extensions ++ tail) body ∧
    Vec8 session sessions ∧ Vec16 cipher ciphers ∧ Vec8 compression compressions ∧ Vec16 extension extensions ∧
    FirstServerName extension name

/-- Handshake records with these fragments. -/
inductive Records : Bytes → Bytes → Prop
  | nil : Records [] []
  | cons {bytes fragments record fragment : Bytes} (major minor : UInt8) (content : Vec16 fragment record)
      (rest : Records bytes fragments) : Records (22 :: major :: minor :: (record ++ bytes)) (fragment ++ fragments)

/-- The bytes begin with a client hello whose first server name is the host's, but
for the case of its letters. -/
def BeginsWithHello (bytes host : Bytes) : Prop :=
  ∃ records rest message more name, bytes = records ++ rest ∧ Records records (message ++ more) ∧
    ClientHello message name ∧
    eq_ignore_ascii_case name host = true

/-! ### What is accepted is well formed -/

section Parts
variable {bytes : Bytes} {start middle stop : Nat}

theorem part_append (first : start ≤ middle) (last : middle ≤ stop) :
    part bytes start stop = part bytes start middle ++ part bytes middle stop := by
  unfold part
  rw [drop_take,drop_take,drop_take,show stop - start = (middle - start) + (stop - middle) by omega,
    take_add,drop_drop,Nat.add_sub_cancel' first]

theorem part_cons {byte : UInt8} (before : start < stop) (here : bytes[start]? = some byte) :
    part bytes start stop = byte :: part bytes (start + 1) stop := by
  obtain ⟨inside,rfl⟩ := List.getElem?_eq_some_iff.mp here
  unfold part
  rw [List.drop_take,List.drop_take,List.drop_eq_getElem_cons inside,
    show stop - start = (stop - (start + 1)) + 1 by omega,
    List.take_succ_cons]

theorem part_length (within : stop ≤ bytes.length) : (part bytes start stop).length = stop - start := by
  rw [part,length_drop,length_take,Nat.min_eq_left within]
theorem part_self : part bytes start start = [] := by
  rw [part,drop_eq_nil_iff,length_take]
  omega

theorem vec8_part {n : Nat} (length : (bytes[start]?).map UInt8.toNat = some n)
    (within : start + 1 + n ≤ bytes.length) :
    Vec8 (part bytes (start + 1) (start + 1 + n)) (part bytes start (start + 1 + n)) := by
  obtain ⟨byte,here,rfl⟩ := map_eq_some_iff.mp length
  exact ⟨byte,part_cons (by omega) here,by rw [part_length within]; omega⟩

theorem getU16_eq_some {n : Nat} (found : getU16 bytes start = some n) :
    ∃ high low, bytes[start]? = some high ∧ bytes[start + 1]? = some low ∧ be16 high low = n := by
  obtain ⟨high,first,found⟩ := bind_eq_some_iff.mp found
  obtain ⟨low,second,found⟩ := bind_eq_some_iff.mp found
  exact ⟨high,low,first,second,some.inj found⟩

theorem vec16_part {n : Nat} (length : getU16 bytes start = some n) (within : start + 2 + n ≤ bytes.length) :
    Vec16 (part bytes (start + 2) (start + 2 + n)) (part bytes start (start + 2 + n)) := by
  obtain ⟨high,low,first,second,rfl⟩ := getU16_eq_some length
  refine ⟨high,low,?_,by rw [part_length within]; omega⟩
  rw [part_cons (by omega) first,part_cons (by omega) second]

end Parts

theorem be16_zero {high low : UInt8} (zero : be16 high low = 0) : high = 0 ∧ low = 0 := by
  unfold be16 at zero
  exact ⟨UInt8.toNat_inj.mp (show high.toNat = 0 by omega),UInt8.toNat_inj.mp (show low.toNat = 0 by omega)⟩

variable {bytes : Bytes}

theorem firstHostName_sound {list_end : Nat} (within : list_end ≤ bytes.length) :
    ∀ {fuel name : Nat} {text : Bytes}, firstHostName bytes list_end fuel name = some text →
      FirstHostName (part bytes name list_end) text := by
  intro fuel
  induction fuel with
  | zero => intro name text found; cases found
  | succ fuel ih =>
    intro name text found
    unfold firstHostName at found
    split_ifs at found with before
    obtain ⟨name_type,kind,next⟩ := bind_eq_some_iff.mp found
    obtain ⟨name_len,length,last⟩ := bind_eq_some_iff.mp next
    dsimp only at last
    split_ifs at last with beyond zero valid
    all_goals
      have entry := vec16_part length (by omega)
      rw [part_cons before kind,part_append (by omega : name + 1 ≤ name + 1 + 2 + name_len) (by omega)]
      rw [show name + 1 + 2 = name + 3 by omega] at entry ⊢
    · rw [zero,← some.inj last]
      exact .here entry
    · exact .later zero entry (ih last)

variable {bytes name : Bytes}

theorem serverNameList_sound {offset extension_end : Nat} (within : extension_end ≤ bytes.length)
    (found : serverNameList bytes offset extension_end = some name) :
    ∃ names, Vec16 names (part bytes offset extension_end) ∧ FirstHostName names name := by
  obtain ⟨list_len,length,listed⟩ := bind_eq_some_iff.mp found
  split_ifs at listed with differs
  rw [not_not] at differs
  rw [← differs] at within ⊢
  exact ⟨_,vec16_part length within,firstHostName_sound within listed⟩

theorem findServerName_sound {extensions_end : Nat} (within : extensions_end ≤ bytes.length) :
    ∀ {fuel offset : Nat} {name : Bytes}, findServerName bytes extensions_end fuel offset = some name →
      FirstServerName (part bytes offset extensions_end) name := by
  intro fuel
  induction fuel with
  | zero => intro offset name found; cases found
  | succ fuel ih =>
    intro offset name found
    unfold findServerName at found
    split_ifs at found with before
    obtain ⟨extension_type,kind,next⟩ := bind_eq_some_iff.mp found
    obtain ⟨extension_len,length,last⟩ := bind_eq_some_iff.mp next
    obtain ⟨high,low,first,second,same⟩ := getU16_eq_some kind
    dsimp only at last
    split_ifs at last with beyond zero
    all_goals
      have extension := vec16_part length (by omega)
      rw [part_cons before first,part_cons (by omega) second,
        part_append (by omega : offset + 2 ≤ offset + 2 + 2 + extension_len) (by omega)]
      rw [show offset + 2 + 2 = offset + 4 by omega] at extension ⊢
    · obtain ⟨names,listed,named⟩ := serverNameList_sound (by omega) last
      obtain ⟨rfl,rfl⟩ := be16_zero (same.trans zero)
      exact .here extension listed named
    · exact .later (by rw [same]; exact zero) extension (ih last)

theorem getU24_eq_some {start n : Nat} (found : getU24 bytes start = some n) :
    ∃ high middle low, bytes[start]? = some high ∧ bytes[start + 1]? = some middle ∧ bytes[start + 2]? = some low ∧
      be24 high middle low = n := by
  obtain ⟨high,first,found⟩ := bind_eq_some_iff.mp found
  obtain ⟨middle,second,found⟩ := bind_eq_some_iff.mp found
  obtain ⟨low,third,found⟩ := bind_eq_some_iff.mp found
  exact ⟨high,middle,low,first,second,third,some.inj found⟩

/-- A message of just the length it announces in which a name is found is a client hello. -/
theorem tls_client_hello_sni_sound {handshake_len : Nat} (announced : getU24 bytes 1 = some handshake_len)
    (whole : bytes.length = 4 + handshake_len) (found : tls_client_hello_sni bytes = some name) :
    ClientHello bytes name := by
  unfold tls_client_hello_sni at found
  split_ifs at found with hello
  rw [announced,bind_eq_bind,bind_some,if_neg (by omega)] at found
  obtain ⟨session_len,session,found⟩ := bind_eq_some_iff.mp found
  obtain ⟨cipher_len,cipher,found⟩ := bind_eq_some_iff.mp found
  obtain ⟨compression_len,compression,found⟩ := bind_eq_some_iff.mp found
  obtain ⟨extensions_len,extension,found⟩ := bind_eq_some_iff.mp found
  split_ifs at found with beyond
  obtain ⟨high,middle,low,first,second,third,length⟩ := getU24_eq_some announced
  have kind : bytes[0]? = some 1 := by
    by_contra other
    exact hello (.inr other)
  have all : bytes = part bytes 0 bytes.length := by simp [part]
  generalize ciphersAt : 39 + session_len = ciphers at *
  generalize compressionsAt : ciphers + 2 + cipher_len = compressions at *
  generalize extensionsAt : compressions + 1 + compression_len = extensions at *
  generalize tailAt : extensions + 2 + extensions_len = tail at *
  have parts : part bytes 4 bytes.length = part bytes 4 6 ++ part bytes 6 38 ++ part bytes 38 ciphers ++
      part bytes ciphers compressions ++ part bytes compressions extensions ++ part bytes extensions tail ++
      part bytes tail bytes.length := by
    simp only [append_assoc]
    rw [← part_append (by omega) (by omega),← part_append (by omega) (by omega),← part_append (by omega) (by omega),
      ← part_append (by omega) (by omega),← part_append (by omega) (by omega),← part_append (by omega) (by omega)]
  refine ⟨part bytes 1 bytes.length,part bytes 4 6,part bytes 6 38,part bytes 39 ciphers,part bytes 38 ciphers,
    part bytes (ciphers + 2) compressions,part bytes ciphers compressions,part bytes (compressions + 1) extensions,
    part bytes compressions extensions,part bytes (extensions + 2) tail,part bytes extensions tail,
      part bytes tail bytes.length,?_,
    part_length (by omega),part_length (by omega),?_,?_,?_,?_,?_,findServerName_sound (by omega) found⟩
  · exact all.trans (part_cons (by omega) kind)
  · rw [← parts]
    refine ⟨high,middle,low,?_,by rw [part_length le_rfl,length]; omega⟩
    rw [part_cons (by omega) first,part_cons (by omega) second,part_cons (by omega) third]
  · rw [← ciphersAt]
    exact vec8_part session (by omega)
  · rw [← compressionsAt]
    exact vec16_part cipher (by omega)
  · rw [← extensionsAt]
    exact vec8_part compression (by omega)
  · rw [← tailAt]
    exact vec16_part extension (by omega)

theorem Records.append {first second one two : Bytes} (before : Records first one) (after : Records second two) :
    Records (first ++ second) (one ++ two) := by
  induction before with
  | nil => exact after
  | cons major minor content rest ih =>
    rw [append_assoc]
    simpa only [cons_append,append_assoc] using Records.cons major minor content ih

/-- The bytes of one record. -/
theorem record_part {record_offset record_len : Nat} (kind : bytes[record_offset]? = some 22)
    (length : getU16 bytes (record_offset + 3) = some record_len)
    (within : record_offset + 5 + record_len ≤ bytes.length) :
    Records (part bytes record_offset (record_offset + 5 + record_len))
      (part bytes (record_offset + 5) (record_offset + 5 + record_len)) := by
  obtain ⟨major,first⟩ : ∃ major, bytes[record_offset + 1]? = some major := ⟨_,getElem?_eq_getElem (by omega)⟩
  obtain ⟨minor,second⟩ : ∃ minor, bytes[record_offset + 2]? = some minor := ⟨_,getElem?_eq_getElem (by omega)⟩
  have content := vec16_part length (by omega)
  rw [show record_offset + 3 + 2 = record_offset + 5 by omega] at content
  rw [part_cons (by omega) kind,part_cons (by omega) first,part_cons (by omega) second]
  simpa only [append_nil] using Records.cons major minor content .nil

theorem judgeHandshake_valid {handshake host : Bytes} (judged : judgeHandshake handshake host = some .Valid) :
    ∃ message more name, handshake = message ++ more ∧ ClientHello message name ∧
      eq_ignore_ascii_case name host = true := by
  unfold judgeHandshake at judged
  split_ifs at judged with short kind
  · cases judged
  obtain ⟨handshake_len,announced,judged⟩ := bind_eq_some_iff.mp judged
  split_ifs at judged with large incomplete valid
  · cases judged
  · cases found : tls_client_hello_sni (handshake.take (4 + handshake_len)) with
    | none => simp [found] at valid
    | some name =>
      rw [found,any_some] at valid
      have length : (handshake.take (4 + handshake_len)).length = 4 + handshake_len := by
        rw [length_take]
        omega
      refine ⟨handshake.take (4 + handshake_len),handshake.drop (4 + handshake_len),name,
        (take_append_drop _ _).symm,tls_client_hello_sni_sound ?_ length found,valid⟩
      -- The length field stands in the first four bytes.
      unfold getU24
      rw [getElem?_take_of_lt (by omega),getElem?_take_of_lt (by omega),getElem?_take_of_lt (by omega)]
      exact announced
  · cases judged

variable {bytes host : Bytes}

theorem matchRecords_valid : ∀ {fuel record_offset : Nat} {handshake : Bytes},
    Records (part bytes 0 record_offset) handshake → matchRecords bytes host fuel record_offset handshake = .Valid →
      BeginsWithHello bytes host := by
  intro fuel
  induction fuel with
  | zero => intro record_offset handshake _ valid; cases valid
  | succ fuel ih =>
    intro record_offset handshake records valid
    unfold matchRecords at valid
    dsimp only at valid
    split_ifs at valid with short kind
    rw [not_not] at kind
    cases length : getU16 bytes (record_offset + 3) with
    | none => simp [length] at valid
    | some record_len =>
      simp only [length] at valid
      by_cases large : MAX_TLS_CLIENT_HELLO_BYTES < record_offset + 5 + record_len
      · rw [if_pos large] at valid
        cases valid
      by_cases incomplete : bytes.length < record_offset + 5 + record_len
      · rw [if_neg large,if_pos incomplete] at valid
        cases valid
      rw [if_neg large,if_neg incomplete] at valid
      have grown : Records (part bytes 0 (record_offset + 5 + record_len))
          (handshake ++ part bytes (record_offset + 5) (record_offset + 5 + record_len)) := by
        rw [part_append (Nat.zero_le record_offset) (by omega)]
        exact records.append (record_part kind length (by omega))
      cases judged : judgeHandshake
        (handshake ++ part bytes (record_offset + 5) (record_offset + 5 + record_len)) host with
      | none =>
        simp only [judged] at valid
        split_ifs at valid
        exact ih grown valid
      | some state =>
        simp only [judged] at valid
        subst valid
        obtain ⟨message,more,name,split,hello,same⟩ := judgeHandshake_valid judged
        rw [split] at grown
        refine ⟨_,part bytes (record_offset + 5 + record_len) bytes.length,message,more,name,?_,grown,hello,same⟩
        rw [← part_append (Nat.zero_le _) (by omega)]
        simp [part]

/-- What is let through begins with a client hello for the host. -/
theorem tls_records_match_sni_valid (valid : tls_records_match_sni bytes host = .Valid) :
    BeginsWithHello bytes host := matchRecords_valid (by rw [part_self]; exact .nil) valid

end Vyane.Networks
