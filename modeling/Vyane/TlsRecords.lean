import Vyane.NetworkRequests

/-!
What the check of a client hello depends on. A decision on the first bytes stands when more arrive, and how a handshake
is cut into records, or its records into frames, does not matter. What stands behind the first server name is not read.
-/
namespace Vyane.Networks
open Interactions Interactions.Program List

/-! ### More bytes -/

section
variable {bytes more host : Bytes}

theorem getU16_append {start : Nat} (within : start + 2 ≤ bytes.length) :
    getU16 (bytes ++ more) start = getU16 bytes start := by
  unfold getU16
  rw [getElem?_append_left (by omega),getElem?_append_left (by omega)]
theorem getU24_append {start : Nat} (within : start + 3 ≤ bytes.length) :
    getU24 (bytes ++ more) start = getU24 bytes start := by
  unfold getU24
  rw [getElem?_append_left (by omega),getElem?_append_left (by omega),getElem?_append_left (by omega)]
theorem part_append_left {start stop : Nat} (within : stop ≤ bytes.length) :
    part (bytes ++ more) start stop = part bytes start stop := by
  rw [part,part,take_append_of_le_length within]

/-- A handshake that is judged is judged the same with more behind it. -/
theorem judgeHandshake_append {handshake : Bytes} {state : TlsPreludeState}
    (judged : judgeHandshake handshake host = some state) :
    judgeHandshake (handshake ++ more) host = some state := by
  unfold judgeHandshake at judged ⊢
  split_ifs at judged with short kind
  · rw [if_neg (by rw [length_append]; omega),getElem?_append_left (by omega),if_pos kind]
    exact judged
  rw [if_neg (by rw [length_append]; omega),getElem?_append_left (by omega),if_neg kind,getU24_append (by omega)]
  obtain ⟨handshake_len,announced,judged⟩ := Option.bind_eq_some_iff.mp judged
  rw [announced]
  refine Option.bind_eq_some_iff.mpr ⟨handshake_len,rfl,?_⟩
  split_ifs at judged with large incomplete valid
  · rw [if_pos large]
    exact judged
  · rw [if_neg large,if_neg (by rw [length_append]; omega),take_append_of_le_length (by omega),if_pos valid]
    exact judged
  · rw [if_neg large,if_neg (by rw [length_append]; omega),take_append_of_le_length (by omega),if_neg valid]
    exact judged

theorem matchRecords_append : ∀ {fuel rounds record_offset : Nat} {handshake : Bytes}, fuel ≤ rounds →
    matchRecords bytes host fuel record_offset handshake ≠ .Incomplete →
      matchRecords (bytes ++ more) host rounds record_offset handshake =
        matchRecords bytes host fuel record_offset handshake := by
  intro fuel
  induction fuel with
  | zero => exact fun _ decided => absurd rfl decided
  | succ fuel ih =>
    intro rounds record_offset handshake enough decided
    obtain ⟨rounds,rfl⟩ : ∃ fewer, rounds = fewer + 1 := ⟨rounds - 1,by omega⟩
    rw [matchRecords] at decided
    rw [matchRecords,matchRecords]
    dsimp only at decided ⊢
    by_cases short : bytes.length < record_offset + 5
    · rw [if_pos short] at decided
      exact absurd rfl decided
    rw [if_neg short] at decided ⊢
    rw [if_neg (by rw [length_append]; omega),getElem?_append_left (by omega),getU16_append (by omega)]
    split_ifs at decided ⊢ with kind
    · rfl
    cases length : getU16 bytes (record_offset + 3) with
    | none => rfl
    | some record_len =>
      simp only [length] at decided ⊢
      by_cases large : MAX_TLS_CLIENT_HELLO_BYTES < record_offset + 5 + record_len
      · rw [if_pos large,if_pos large]
      rw [if_neg large] at decided ⊢
      by_cases incomplete : bytes.length < record_offset + 5 + record_len
      · rw [if_pos incomplete] at decided
        exact absurd rfl decided
      rw [if_neg incomplete] at decided ⊢
      rw [if_neg large,if_neg (by rw [length_append]; omega),part_append_left (by omega)]
      cases judged : judgeHandshake
        (handshake ++ part bytes (record_offset + 5) (record_offset + 5 + record_len)) host with
      | some state => rfl
      | none =>
        simp only [judged] at decided ⊢
        by_cases last : record_offset + 5 + record_len = bytes.length
        · rw [if_pos last] at decided
          exact absurd rfl decided
        rw [if_neg last] at decided ⊢
        rw [if_neg (by rw [length_append]; omega)]
        exact ih (by omega) decided

/-- What is decided stays decided. -/
theorem tls_records_match_sni_append (decided : tls_records_match_sni bytes host ≠ .Incomplete) :
    tls_records_match_sni (bytes ++ more) host = tls_records_match_sni bytes host :=
  matchRecords_append (by rw [length_append]; omega) decided

/-! ### Other records -/

theorem part_middle (front middle rest : Bytes) :
    part (front ++ (middle ++ rest)) front.length (front.length + middle.length) = middle := by
  rw [part,take_append,Nat.add_sub_cancel_left,take_of_length_le (by omega),take_left',drop_left']
  · rfl
  · rfl

/-- The loop over the records that are left finds what the handshake as a whole decides. -/
theorem matchRecords_cut {rest fragments : Bytes} (records : Records rest fragments) :
    ∀ {front handshake : Bytes} {fuel : Nat}, (front ++ rest).length ≤ MAX_TLS_CLIENT_HELLO_BYTES → rest.length < fuel →
      judgeHandshake handshake host = none → matchRecords (front ++ rest) host fuel front.length handshake =
        (judgeHandshake (handshake ++ fragments) host).getD .Incomplete := by
  induction records with
  | nil =>
    intro front handshake fuel _ enough undecided
    obtain ⟨fuel,rfl⟩ : ∃ fewer, fuel = fewer + 1 := ⟨fuel - 1,by omega⟩
    rw [matchRecords,append_nil,append_nil,undecided]
    exact if_pos (by omega)
  | @cons tail fragments record fragment major minor content later ih =>
    intro front handshake fuel within enough undecided
    obtain ⟨high,low,rfl,length⟩ := content
    obtain ⟨fuel,rfl⟩ : ∃ fewer, fuel = fewer + 1 := ⟨fuel - 1,by omega⟩
    have kind : (front ++ 22 :: major :: minor :: (high :: low :: fragment ++ tail))[front.length]? = some 22 := by simp
    have announced : getU16 (front ++ 22 :: major :: minor :: (high :: low :: fragment ++ tail)) (front.length + 3) =
        some fragment.length := by
      rw [getU16,getElem?_append_right (by omega),getElem?_append_right (by omega),← length]
      simp [Nat.add_assoc]
    have regroup : front ++ 22 :: major :: minor :: (high :: low :: fragment ++ tail) =
        (front ++ [22,major,minor,high,low]) ++ (fragment ++ tail) := by simp
    have inside : part (front ++ 22 :: major :: minor :: (high :: low :: fragment ++ tail)) (front.length + 5)
        (front.length + 5 + fragment.length) = fragment := by
      have middle := part_middle (front ++ [22,major,minor,high,low]) fragment tail
      rw [length_append] at middle
      rw [regroup]
      exact middle
    have size : (front ++ 22 :: major :: minor :: (high :: low :: fragment ++ tail)).length =
        front.length + 5 + fragment.length + tail.length := by
      simp only [length_append,length_cons]
      omega
    rw [size] at within
    rw [matchRecords]
    dsimp only
    rw [size,if_neg (by omega),if_neg (by rw [kind]; simp),announced]
    dsimp only
    rw [if_neg (by omega),if_neg (by omega),inside]
    cases judged : judgeHandshake (handshake ++ fragment) host with
    | some state =>
      rw [← append_assoc,judgeHandshake_append judged]
      rfl
    | none =>
      dsimp only
      by_cases last : tail = []
      · subst last
        cases later
        rw [append_nil fragment,judged]
        exact if_pos rfl
      have someLeft : 0 < tail.length := length_pos_iff.mpr last
      have onward : front ++ 22 :: major :: minor :: (high :: low :: fragment ++ tail) =
          (front ++ [22,major,minor,high,low] ++ fragment) ++ tail := by simp
      have passed : front.length + 5 + fragment.length = (front ++ [22,major,minor,high,low] ++ fragment).length := by
        rw [length_append,length_append]
        rfl
      rw [if_neg (by omega),onward,passed,← append_assoc]
      refine ih ?_ ?_ judged
      · rw [length_append,← passed]
        exact within
      · simp only [length_append,length_cons] at enough
        omega

/-- The answer for a handshake, whatever records it comes in. -/
theorem tls_records_match_sni_cut {fragments : Bytes} (records : Records bytes fragments)
    (within : bytes.length ≤ MAX_TLS_CLIENT_HELLO_BYTES) :
    tls_records_match_sni bytes host = (judgeHandshake fragments host).getD .Incomplete :=
  @matchRecords_cut host bytes fragments records [] [] (bytes.length + 1) within (Nat.lt_succ_self _) rfl

/-! ### Other frames -/

/-- A prelude that is read from a client's stream within the limits is let through just
if all the client's data, put together, say hello. -/
theorem prelude_admits {max_bytes fuel transferred count : Nat} {trace : Trace} {prelude : Option Bytes}
    {stream next : Bytes} {data : List Bytes}
    (runs : Runs (read_https_prelude host max_bytes fuel transferred []) trace (.ok (prelude,count)))
    (sends : OneStream stream data) (heard : consumed trace <+: stream ++ next)
    (small : data.flatten.length ≤ MAX_TLS_CLIENT_HELLO_BYTES) (paid : count ≤ max_bytes) :
    prelude.isSome = true ↔ tls_records_match_sni data.flatten host = .Valid := by
  obtain ⟨unpassed,left⟩ := prelude_hears ⟨rfl,by decide⟩ runs
  have inside : consumed trace <+: stream := unpassed.within (by rw [sends.ended]) heard (prefix_append _ _)
  obtain ⟨rest,whole⟩ := inside
  have ended := sends.ended
  rw [← whole,scan_append] at ended
  have frames : payloads (consumed trace) ++ (scan (scan (.Header []) (consumed trace)).1 rest).2 = data :=
    (Prod.mk.inj ended).2
  have flat : data.flatten = (payloads (consumed trace)).flatten ++
    (scan (scan (.Header []) (consumed trace)).1 rest).2.flatten := by
    rw [← frames,flatten_append]
  rcases left (prelude,count) rfl with ⟨_,judged⟩ | ⟨noneFound,overNow,undecided⟩
  · rw [nil_append] at judged
    have stays : ∀ {state}, tls_records_match_sni (payloads (consumed trace)).flatten host = state →
      state ≠ .Incomplete →
        tls_records_match_sni data.flatten host = state := by
      rintro state rfl decided
      rw [flat]
      exact tls_records_match_sni_append decided
    cases prelude with
    | some prelude => exact ⟨fun _ => stays judged nofun,fun _ => rfl⟩
    | none =>
      rcases judged with invalid | exceeded | large
      · rw [stays invalid nofun]
        exact ⟨nofun,nofun⟩
      · omega
      · rw [flat,length_append] at small
        omega
  · rw [overNow,scan_ended] at flat
    rw [flatten_nil,append_nil] at flat
    rw [nil_append] at undecided
    dsimp only at noneFound
    rw [noneFound,flat,undecided.1]
    exact ⟨nofun,nofun⟩

end

/-- A decision on some bytes is the decision on all that begin with them; the same
handshake in other records within the limit, or the same data in other frames, gets the
same answer. -/
theorem boundaries_do_not_matter (host : Host) :
    (∀ bytes more, tls_records_match_sni bytes host ≠ .Incomplete →
      tls_records_match_sni (bytes ++ more) host = tls_records_match_sni bytes host) ∧
    (∀ handshake one two, Records one handshake → Records two handshake → one.length ≤ MAX_TLS_CLIENT_HELLO_BYTES →
      two.length ≤ MAX_TLS_CLIENT_HELLO_BYTES → tls_records_match_sni one host = tls_records_match_sni two host) ∧
    (∀ max_bytes fuel transferred trace prelude count,
      Runs (read_https_prelude host max_bytes fuel transferred []) trace (.ok (prelude,count)) →
      ∀ stream next data, OneStream stream data → consumed trace <+: stream ++ next →
        data.flatten.length ≤ MAX_TLS_CLIENT_HELLO_BYTES → count ≤ max_bytes →
        (prelude.isSome = true ↔ tls_records_match_sni data.flatten host = .Valid)) := by
  refine ⟨fun bytes more => tls_records_match_sni_append,?_,?_⟩
  · intro handshake one two first second small short
    rw [tls_records_match_sni_cut first small,tls_records_match_sni_cut second short]
  · intro max_bytes fuel transferred trace prelude count runs stream next data sends heard small paid
    exact prelude_admits runs sends heard small paid

/-! ### What is not read -/

/-- The host names of a whole server name list. -/
inductive NameList : Bytes → List Bytes → Prop
  | nil : NameList [] []
  | host {entry name rest : Bytes} {names : List Bytes} (named : Vec16 name entry) (next : NameList rest names) :
      NameList (0 :: (entry ++ rest)) (name :: names)
  | other {kind : UInt8} {entry content rest : Bytes} {names : List Bytes} (different : kind ≠ 0)
      (named : Vec16 content entry) (next : NameList rest names) : NameList (kind :: (entry ++ rest)) names

/-- The host names in all server name extensions of a whole list of extensions. -/
inductive ExtensionList : Bytes → List Bytes → Prop
  | nil : ExtensionList [] []
  | serverName {extension list entries rest : Bytes} {someNames names : List Bytes} (content : Vec16 list extension)
      (listed : Vec16 entries list) (named : NameList entries someNames) (next : ExtensionList rest names) :
      ExtensionList (0 :: 0 :: (extension ++ rest)) (someNames ++ names)
  | other {high low : UInt8} {extension content rest : Bytes} {names : List Bytes} (different : be16 high low ≠ 0)
      (content : Vec16 content extension) (next : ExtensionList rest names) : ExtensionList
        (high :: low :: (extension ++ rest)) names

/-- A client hello in which every length fits, with these extensions and bytes behind them. -/
def Hello (message extension tail : Bytes) : Prop :=
  ∃ body version random session sessions cipher ciphers compression compressions extensions,
    message = 1 :: body ∧ version.length = 2 ∧ random.length = 32 ∧
    Vec24 (version ++ random ++ sessions ++ ciphers ++ compressions ++ extensions ++ tail) body ∧
    Vec8 session sessions ∧ Vec16 cipher ciphers ∧ Vec8 compression compressions ∧ Vec16 extension extensions

/-- A well formed client hello and all its host names. -/
def WholeHello (message : Bytes) (names : List Bytes) : Prop :=
  ∃ extension, Hello message extension [] ∧ ExtensionList extension names

/-- The first host name of a list, and the entries behind it. -/
inductive NameThen : Bytes → Bytes → Bytes → Prop
  | here {entry name rest : Bytes} (named : Vec16 name entry) : NameThen (0 :: (entry ++ rest)) name rest
  | later {kind : UInt8} {entry content rest name unread : Bytes} (different : kind ≠ 0) (named : Vec16 content entry)
      (next : NameThen rest name unread) : NameThen (kind :: (entry ++ rest)) name unread

/-- The first server name, the entries behind it and the extensions behind its own. -/
inductive ServerNameThen : Bytes → Bytes → Bytes → Bytes → Prop
  | here {extension list entries rest name unread : Bytes} (content : Vec16 list extension)
    (listed : Vec16 entries list)
      (first : NameThen entries name unread) : ServerNameThen (0 :: 0 :: (extension ++ rest)) name unread rest
  | later {high low : UInt8} {extension content rest name entries unread : Bytes} (different : be16 high low ≠ 0)
      (other : Vec16 content extension) (next : ServerNameThen rest name entries unread) :
      ServerNameThen (high :: low :: (extension ++ rest)) name entries unread

theorem FirstHostName.then {entries name : Bytes} (first : FirstHostName entries name) :
    ∃ unread, NameThen entries name unread := by
  induction first with
  | here named => exact ⟨_,.here named⟩
  | later different named _ ih =>
    obtain ⟨unread,next⟩ := ih
    exact ⟨unread,.later different named next⟩

theorem FirstServerName.then {extensions name : Bytes} (first : FirstServerName extensions name) :
    ∃ entries unread, ServerNameThen extensions name entries unread := by
  induction first with
  | here content listed named =>
    obtain ⟨entries,next⟩ := named.then
    exact ⟨entries,_,.here content listed next⟩
  | later different other _ ih =>
    obtain ⟨entries,unread,next⟩ := ih
    exact ⟨entries,unread,.later different other next⟩

theorem NameThen.whole {entries name unread : Bytes} {names : List Bytes} (first : NameThen entries name unread)
    (rest : NameList unread names) : NameList entries (name :: names) := by
  induction first with
  | here named => exact .host named rest
  | later different named _ ih => exact .other different named (ih rest)

theorem ServerNameThen.whole {extensions name entries unread : Bytes} {names others : List Bytes}
    (first : ServerNameThen extensions name entries unread) (listed : NameList entries names)
    (rest : ExtensionList unread others) :
    ExtensionList extensions (name :: names ++ others) := by
  induction first with
  | here content list named => exact .serverName content list (named.whole listed) rest
  | later different other _ ih => exact .other different other (ih listed rest)

/-! ### A hello divides in one way -/

section
variable {one two first second whole other rest left extension entries unread name : Bytes} {names : List Bytes}

theorem Vec8.unique (here : Vec8 one first) (there : Vec8 two second) (same : first ++ rest = second ++ left) :
    one = two ∧ rest = left := by
  obtain ⟨n,rfl,length⟩ := here
  obtain ⟨m,rfl,size⟩ := there
  simp only [cons_append,cons.injEq] at same
  obtain ⟨rfl,same⟩ := same
  exact append_inj same (length.symm.trans size)

theorem Vec16.unique (here : Vec16 one first) (there : Vec16 two second) (same : first ++ rest = second ++ left) :
    one = two ∧ rest = left := by
  obtain ⟨high,low,rfl,length⟩ := here
  obtain ⟨high',low',rfl,size⟩ := there
  simp only [cons_append,cons.injEq] at same
  obtain ⟨rfl,rfl,same⟩ := same
  exact append_inj same (length.symm.trans size)

/-- One handshake message, of the length that it announces. -/
def Handshake (message : Bytes) : Prop := ∃ kind body content, message = kind :: body ∧ Vec24 content body

theorem Handshake.unique (here : Handshake first) (there : Handshake second) (same : first ++ rest = second ++ left) :
    first = second := by
  obtain ⟨kind,body,content,rfl,high,middle,low,rfl,length⟩ := here
  obtain ⟨kind',body',content',rfl,high',middle',low',rfl,size⟩ := there
  simp only [cons_append,cons.injEq] at same
  obtain ⟨rfl,rfl,rfl,rfl,same⟩ := same
  rw [(append_inj same (length.symm.trans size)).1]

/-- Of two cuts of the same bytes into records one goes on where the other ends. -/
theorem Records.comparable (here : Records first one) : ∀ {second two rest left : Bytes}, Records second two →
    first ++ rest = second ++ left → one <+: two ∨ two <+: one := by
  induction here with
  | nil => exact fun _ _ => .inl List.nil_prefix
  | cons major minor content _ ih =>
    intro second two rest left there same
    cases there with
    | nil => exact .inr List.nil_prefix
    | cons major' minor' content' records' =>
      simp only [cons_append,append_assoc,cons.injEq] at same
      obtain ⟨rfl,same⟩ := content.unique content' same.2.2.2
      rcases ih records' same with shorter | longer
      · exact .inl ((prefix_append_right_inj _).mpr shorter)
      · exact .inr ((prefix_append_right_inj _).mpr longer)

theorem Hello.unique {tail extension' tail' : Bytes} (here : Hello whole extension tail)
    (there : Hello whole extension' tail') :
    extension = extension' ∧ tail = tail' := by
  obtain ⟨body,version,random,session,sessions,cipher,ciphers,compression,compressions,extensions,rfl,two,many,
    ⟨high,middle,low,rfl,_⟩,
    sessionFits,cipherFits,compressionFits,extensionFits⟩ := here
  obtain ⟨body',version',random',session',sessions',cipher',ciphers',compression',compressions',extensions',
    same,two',many',
    ⟨high',middle',low',rfl,_⟩,session_fits',cipher_fits',compression_fits',extension_fits'⟩ := there
  simp only [append_assoc,cons.injEq,true_and] at same
  obtain ⟨-,-,-,same⟩ := same
  obtain ⟨-,same⟩ := append_inj same (two.trans two'.symm)
  obtain ⟨-,same⟩ := append_inj same (many.trans many'.symm)
  obtain ⟨-,same⟩ := sessionFits.unique session_fits' same
  obtain ⟨-,same⟩ := cipherFits.unique cipher_fits' same
  obtain ⟨-,same⟩ := compressionFits.unique compression_fits' same
  exact extensionFits.unique extension_fits' same

/-- In a list of names the first host name is the one that is found, and the others stand behind it. -/
theorem NameThen.split (first : NameThen entries name unread) :
    ∀ {names : List Bytes}, NameList entries names → ∃ others, names = name :: others ∧ NameList unread others := by
  induction first with
  | @here entry name rest named =>
    intro names list
    generalize wholeEq : 0 :: (entry ++ rest) = whole at list
    cases list with
    | nil => cases wholeEq
    | host named' next =>
      obtain ⟨rfl,rfl⟩ := named.unique named' (cons.inj wholeEq).2
      exact ⟨_,rfl,next⟩
    | other different => exact absurd (cons.inj wholeEq).1.symm different
  | @later kind entry content rest name unread different named _ ih =>
    intro names list
    generalize wholeEq : kind :: (entry ++ rest) = whole at list
    cases list with
    | nil => cases wholeEq
    | host => exact absurd (cons.inj wholeEq).1 different
    | other _ named' next =>
      obtain ⟨-,rfl⟩ := named.unique named' (cons.inj wholeEq).2
      exact ih next

theorem ServerNameThen.split (first : ServerNameThen extension name entries unread) :
    ∀ {names : List Bytes}, ExtensionList extension names →
      ∃ someNames others, names = name :: someNames ++ others ∧ NameList entries someNames ∧
        ExtensionList unread others := by
  induction first with
  | @here extension list entries rest name unread content listed named =>
    intro names list
    generalize wholeEq : 0 :: 0 :: (extension ++ rest) = whole at list
    cases list with
    | nil => cases wholeEq
    | serverName content' listed' named' next =>
      simp only [cons.injEq,true_and] at wholeEq
      obtain ⟨rfl,rfl⟩ := content.unique content' wholeEq
      obtain ⟨rfl,-⟩ := listed.unique listed' (rfl : list ++ [] = list ++ [])
      obtain ⟨others,rfl,rest⟩ := named.split named'
      exact ⟨others,_,rfl,rest,next⟩
    | other different =>
      obtain ⟨rfl,same⟩ := cons.inj wholeEq
      exact absurd (by rw [← (cons.inj same).1]; rfl) different
  | @later high low extension other rest name entries unread different content _ ih =>
    intro names list
    generalize wholeEq : high :: low :: (extension ++ rest) = whole at list
    cases list with
    | nil => cases wholeEq
    | serverName =>
      obtain ⟨rfl,same⟩ := cons.inj wholeEq
      exact absurd (by rw [(cons.inj same).1]; rfl) different
    | other _ content' next =>
      simp only [cons.injEq] at wholeEq
      obtain ⟨-,rfl⟩ := content.unique content' wholeEq.2.2
      exact ih next

end

/-- What stands behind the first server name is well formed, and every host name there is the first one again. -/
def Tidy (message : Bytes) : Prop :=
  ∃ extension name entries unread names others, Hello message extension [] ∧
    ServerNameThen extension name entries unread ∧
    NameList entries names ∧ ExtensionList unread others ∧ ∀ other ∈ names ++ others,
      eq_ignore_ascii_case other name = true

theorem whole_iff_tidy {message name : Bytes} {host : Host} (hello : ClientHello message name)
    (admitted : eq_ignore_ascii_case name host = true) :
    (∃ names, WholeHello message names ∧ ∀ other ∈ names, eq_ignore_ascii_case other host = true) ↔ Tidy message := by
  obtain ⟨body,version,random,session,sessions,cipher,ciphers,compression,compressions,extension,extensions,tail,kind,
    two,many,length,
    sessionFits,cipherFits,compressionFits,extensionFits,first⟩ := hello
  obtain ⟨entries,unread,named⟩ := first.then
  have formed : Hello message extension tail :=
    ⟨body,version,random,session,sessions,cipher,ciphers,compression,compressions,extensions,
    kind,two,many,length,sessionFits,cipherFits,compressionFits,extensionFits⟩
  simp only [eq_ignore_ascii_case,beq_iff_eq] at admitted
  constructor
  · rintro ⟨names,⟨whole,hello,listed⟩,alike⟩
    obtain ⟨rfl,rfl⟩ := formed.unique hello
    obtain ⟨someNames,others,rfl,inner,outer⟩ := named.split listed
    refine ⟨extension,name,entries,unread,someNames,others,formed,named,inner,outer,fun other member => ?_⟩
    have equal := alike other (by simp only [cons_append,mem_cons]; exact .inr member)
    simp only [eq_ignore_ascii_case,beq_iff_eq] at equal ⊢
    exact equal.trans admitted.symm
  · rintro ⟨whole,firstName,entries',unread',names,others,hello,named',inner,outer,alike⟩
    obtain ⟨rfl,rfl⟩ := formed.unique hello
    have listed := named'.whole inner outer
    -- the first name is the one that the check has found
    obtain ⟨_,_,same,_⟩ := named.split listed
    obtain rfl : firstName = name := (cons.inj same).1
    refine ⟨firstName :: names ++ others,⟨extension,formed,listed⟩,
      forall_mem_cons.mpr ⟨by simpa [eq_ignore_ascii_case],?_⟩⟩
    intro other member
    have equal := alike other member
    simp only [eq_ignore_ascii_case,beq_iff_eq] at equal ⊢
    exact equal.trans admitted

/-- What is let through begins with a client hello whose first server name is the host. Its first handshake message is
    well formed throughout and names only the host if and only if what stands behind that name is well formed and
    repeats it. -/
theorem valid_hello_names_host (bytes : Bytes) (host : Host) (valid : tls_records_match_sni bytes host = .Valid) :
    BeginsWithHello bytes host ∧ ∀ records rest message more, bytes = records ++ rest →
      Records records (message ++ more) → Handshake message →
        ((∃ names, WholeHello message names ∧ ∀ other ∈ names, eq_ignore_ascii_case other host = true) ↔
          Tidy message) := by
  have begins := tls_records_match_sni_valid valid
  refine ⟨begins,fun records rest message more split cut whole => ?_⟩
  obtain ⟨records',rest',message',more',name,split',cut',hello,admitted⟩ := begins
  have whole' : Handshake message' := by
    obtain ⟨body,version,random,session,sessions,cipher,ciphers,compression,compressions,extension,extensions,tail,kind,
      _,_,length,_⟩ := hello
    exact ⟨1,body,_,kind,length⟩
  obtain rfl : message' = message := by
    rcases cut'.comparable cut (split'.symm.trans split) with ⟨longer,same⟩ | ⟨longer,same⟩
    · exact whole'.unique whole ((append_assoc _ _ _).symm.trans same)
    · exact whole'.unique whole (same.symm.trans (append_assoc _ _ _))
  exact whole_iff_tidy hello admitted

/-! ### Samples -/

/-- A server name extension with one host name of three letters. -/
def namesHost (name : Bytes) : Bytes := [0,0,0,8,0,6,0,0,3] ++ name
/-- A hello with these extensions, of which it and they have so many bytes. -/
def helloWith (extension : Bytes) (size extensionSize : UInt8) : Bytes :=
  [1,0,0,size,3,3] ++ replicate 32 0 ++ [0,0,2,0x13,1,1,0,0,extensionSize] ++ extension
/-- A hello that names `a.b`. -/
def oneName : Bytes := helloWith (namesHost [0x61,0x2e,0x62]) 55 12
/-- A hello that names `a.b` and, in another extension, `c.d`. -/
def twoNames : Bytes := helloWith (namesHost [0x61,0x2e,0x62] ++ namesHost [0x63,0x2e,0x64]) 67 24

theorem helloWith_formed {extension : Bytes} {size extensionSize : UInt8}
    (whole : be24 0 0 size = 43 + extension.length)
    (fits : be16 0 extensionSize = extension.length) : Hello (helloWith extension size extensionSize) extension [] := by
  refine ⟨_,[3,3],replicate 32 0,[],[0],[0x13,1],[0,2,0x13,1],[0],[1,0],[0,extensionSize] ++ extension,rfl,rfl,rfl,
    ⟨0,0,size,by simp,?_⟩,⟨0,rfl,rfl⟩,⟨0,2,rfl,rfl⟩,⟨1,rfl,rfl⟩,⟨0,extensionSize,rfl,fits⟩⟩
  rw [whole]
  simp
  omega

section
variable (a b c : UInt8)

theorem name_entry : Vec16 [a,b,c] [0,3,a,b,c] := ⟨0,3,rfl,(by decide : be16 0 3 = 3)⟩
theorem name_entries : Vec16 [0,0,3,a,b,c] [0,6,0,0,3,a,b,c] := ⟨0,6,rfl,(by decide : be16 0 6 = 6)⟩
theorem name_extension : Vec16 [0,6,0,0,3,a,b,c] [0,8,0,6,0,0,3,a,b,c] := ⟨0,8,rfl,(by decide : be16 0 8 = 8)⟩

end

/-- Nothing stands behind the only name of a hello. -/
theorem sample_hello_names_host : tls_records_match_sni ([22,3,1,0,59] ++ oneName) [0x61,0x2e,0x62] = .Valid ∧
    Tidy oneName ∧
    ∃ names, WholeHello oneName names ∧ ∀ other ∈ names, eq_ignore_ascii_case other [0x61,0x2e,0x62] = true := by
  have valid : tls_records_match_sni ([22,3,1,0,59] ++ oneName) [0x61,0x2e,0x62] = .Valid := by decide +kernel
  have formed : Hello oneName (namesHost [0x61,0x2e,0x62]) [] := helloWith_formed (by decide) (by decide)
  have tidy : Tidy oneName :=
    ⟨_,[0x61,0x2e,0x62],[],[],[],[],formed,.here (name_extension _ _ _) (name_entries _ _ _) (.here (name_entry _ _ _)),
      .nil,.nil,by simp⟩
  have one := Records.cons 3 1 (show Vec16 oneName ([0,59] ++ oneName) from ⟨0,59,rfl,by decide +kernel⟩) .nil
  refine ⟨valid,tidy,((valid_hello_names_host _ _ valid).2 _ [] oneName [] (append_nil _).symm ?_ ?_).mpr tidy⟩
  · simpa using one
  · exact ⟨1,_,_,rfl,0,0,55,rfl,by decide +kernel⟩

theorem second_name_is_let_through : tls_records_match_sni ([22,3,1,0,71] ++ twoNames) [0x61,0x2e,0x62] = .Valid ∧
    Records ([22,3,1,0,71] ++ twoNames) twoNames ∧ WholeHello twoNames [[0x61,0x2e,0x62],[0x63,0x2e,0x64]] ∧
    eq_ignore_ascii_case [0x63,0x2e,0x64] [0x61,0x2e,0x62] = false := by
  have names : ExtensionList (namesHost [0x61,0x2e,0x62] ++ namesHost [0x63,0x2e,0x64]) [[0x61,0x2e,0x62],
    [0x63,0x2e,0x64]] :=
    .serverName (name_extension 0x61 0x2e 0x62) (name_entries _ _ _) (.host (name_entry _ _ _) .nil)
      (.serverName (name_extension 0x63 0x2e 0x64) (name_entries _ _ _) (.host (name_entry _ _ _) .nil) .nil)
  refine ⟨by decide +kernel,?_,⟨_,helloWith_formed (by decide) (by decide),names⟩,by decide⟩
  have one := Records.cons 3 1 (show Vec16 twoNames ([0,71] ++ twoNames) from ⟨0,71,rfl,by decide +kernel⟩) .nil
  simpa using one

end Vyane.Networks
