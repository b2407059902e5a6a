import Vyane.Json
import Vyane.Utf8

/-!
The compact text of a JSON value and a reader for it. What is written reads back, whatever follows it.
-/
namespace Vyane.Json
open Text List
set_option linter.unusedSimpArgs false

/-! ### Strings -/

def hexValue (c : Char) : Option Nat :=
  if c.isDigit then some (c.toNat - 48)
  else if 'a' ≤ c ∧ c ≤ 'f' then some (c.toNat - 87)
  else none

def escape (c : Char) : List Char :=
  if c = '"' then ['\\','"']
  else if c = '\\' then ['\\','\\']
  else if c.toNat = 8 then ['\\','b']
  else if c.toNat = 9 then ['\\','t']
  else if c.toNat = 10 then ['\\','n']
  else if c.toNat = 12 then ['\\','f']
  else if c.toNat = 13 then ['\\','r']
  else if c.toNat < 0x20 then ['\\','u','0','0',hexDigit (c.toNat / 16),hexDigit (c.toNat % 16)]
  else [c]

/-- The first character of the inside of a string. -/
def unescape : List Char → Option (Char × List Char)
  | '\\' :: '"' :: rest => some ('"',rest)
  | '\\' :: '\\' :: rest => some ('\\',rest)
  | '\\' :: 'b' :: rest => some (Char.ofNat 8,rest)
  | '\\' :: 't' :: rest => some (Char.ofNat 9,rest)
  | '\\' :: 'n' :: rest => some (Char.ofNat 10,rest)
  | '\\' :: 'f' :: rest => some (Char.ofNat 12,rest)
  | '\\' :: 'r' :: rest => some (Char.ofNat 13,rest)
  | '\\' :: 'u' :: '0' :: '0' :: high :: low :: rest => do
    let high ← hexValue high
    let low ← hexValue low
    some (Char.ofNat (16 * high + low),rest)
  | '\\' :: _ => none
  | c :: rest => some (c,rest)
  | [] => none

private theorem control_value : ∀ n < 32,
    hexValue (hexDigit (n / 16)) = some (n / 16) ∧ hexValue (hexDigit (n % 16)) = some (n % 16) := by
  decide

theorem unescape_escape (c : Char) (rest : List Char) : unescape (escape c ++ rest) = some (c,rest) := by
  have named (n : Nat) (code : c.toNat = n) : Char.ofNat n = c := by rw [← code,Char.ofNat_toNat]
  unfold escape
  split_ifs with quote slash eight nine ten twelve thirteen control
  · subst quote; rfl
  · subst slash; rfl
  · exact congrArg (fun c => some (c,rest)) (named 8 eight)
  · exact congrArg (fun c => some (c,rest)) (named 9 nine)
  · exact congrArg (fun c => some (c,rest)) (named 10 ten)
  · exact congrArg (fun c => some (c,rest)) (named 12 twelve)
  · exact congrArg (fun c => some (c,rest)) (named 13 thirteen)
  · obtain ⟨high,low⟩ := control_value c.toNat control
    simp only [unescape,cons_append,nil_append,high,low,Option.bind_eq_bind,Option.bind_some,
      Nat.div_add_mod,Char.ofNat_toNat]
  · simp only [cons_append,nil_append]
    unfold unescape
    split <;> simp_all

/-- Reads up to the closing quote. -/
def readChars : Nat → List Char → Option (List Char × List Char)
  | 0, _ => none
  | fuel + 1, text =>
    match text with
    | '"' :: rest => some ([],rest)
    | _ => do
      let (c,rest) ← unescape text
      let (cs,rest) ← readChars fuel rest
      some (c :: cs,rest)

theorem escape_ne_quote (c : Char) : ∃ head tail, escape c = head :: tail ∧ head ≠ '"' := by
  unfold escape
  split_ifs with quote <;> simp_all

theorem readChars_escape (cs rest : List Char) :
    ∀ fuel, (cs.flatMap escape).length < fuel →
      readChars fuel (cs.flatMap escape ++ '"' :: rest) = some (cs,rest) := by
  induction cs with
  | nil =>
    rintro (_ | fuel) enough
    · simp at enough
    · simp [readChars]
  | cons c cs ih =>
    rintro (_ | fuel) enough
    · simp at enough
    · obtain ⟨head,tail,same,other⟩ := escape_ne_quote c
      have first := unescape_escape c (cs.flatMap escape ++ '"' :: rest)
      simp only [flatMap_cons,append_assoc,length_append] at enough ⊢
      have shorter : (cs.flatMap escape).length < fuel := by
        have : 0 < (escape c).length := by rw [same]; simp
        omega
      rw [same] at first ⊢
      unfold readChars
      split
      · rename_i found
        simp only [cons_append,cons.injEq] at found
        exact absurd found.1 other
      · simp only [first,ih fuel shorter,Option.bind_eq_bind,Option.bind_some]

/-! ### Values -/

mutual
def write : Value → List Char
  | .Null => ['n','u','l','l']
  | .Bool true => ['t','r','u','e']
  | .Bool false => ['f','a','l','s','e']
  | .Number text => text.toList
  | .String text => '"' :: text.toList.flatMap escape ++ ['"']
  | .Array [] => ['[',']']
  | .Array (value :: rest) => '[' :: write value ++ writeValues rest
  | .Object [] => ['\x7b','\x7d']
  | .Object ((key,value) :: rest) =>
      '\x7b' :: '"' :: key.toList.flatMap escape ++ '"' :: ':' :: write value ++ writeFields rest
/-- The values after the first, and the closing bracket. -/
def writeValues : List Value → List Char
  | [] => [']']
  | value :: rest => ',' :: write value ++ writeValues rest
/-- The fields after the first, and the closing brace. -/
def writeFields : List (String × Value) → List Char
  | [] => ['\x7d']
  | (key,value) :: rest => ',' :: '"' :: key.toList.flatMap escape ++ '"' :: ':' :: write value ++ writeFields rest
end

/-- Digits, behind a sign that was read. -/
def readDigits (sign text : List Char) : Option (Value × List Char) :=
  if (text.takeWhile Char.isDigit).isEmpty then none
  else some (.Number (String.ofList (sign ++ text.takeWhile Char.isDigit)),text.dropWhile Char.isDigit)

mutual
def read : Nat → List Char → Option (Value × List Char)
  | 0, _ => none
  | fuel + 1, text =>
    match text with
    | 'n' :: 'u' :: 'l' :: 'l' :: rest => some (.Null,rest)
    | 't' :: 'r' :: 'u' :: 'e' :: rest => some (.Bool true,rest)
    | 'f' :: 'a' :: 'l' :: 's' :: 'e' :: rest => some (.Bool false,rest)
    | '"' :: rest => do
      let (cs,rest) ← readChars fuel rest
      some (.String (String.ofList cs),rest)
    | '[' :: ']' :: rest => some (.Array [],rest)
    | '[' :: rest => do
      let (value,rest) ← read fuel rest
      let (values,rest) ← readValues fuel rest
      some (.Array (value :: values),rest)
    | '\x7b' :: '\x7d' :: rest => some (.Object [],rest)
    | '\x7b' :: rest => do
      let (field,rest) ← readField fuel rest
      let (fields,rest) ← readFields fuel rest
      some (.Object (field :: fields),rest)
    | '-' :: rest => readDigits ['-'] rest
    | _ => readDigits [] text
def readField : Nat → List Char → Option ((String × Value) × List Char)
  | 0, _ => none
  | fuel + 1, text =>
    match text with
    | '"' :: rest => do
      let (cs,rest) ← readChars fuel rest
      match rest with
      | ':' :: rest => do
        let (value,rest) ← read fuel rest
        some ((String.ofList cs,value),rest)
      | _ => none
    | _ => none
def readValues : Nat → List Char → Option (List Value × List Char)
  | 0, _ => none
  | fuel + 1, text =>
    match text with
    | ']' :: rest => some ([],rest)
    | ',' :: rest => do
      let (value,rest) ← read fuel rest
      let (values,rest) ← readValues fuel rest
      some (value :: values,rest)
    | _ => none
def readFields : Nat → List Char → Option (List (String × Value) × List Char)
  | 0, _ => none
  | fuel + 1, text =>
    match text with
    | '\x7d' :: rest => some ([],rest)
    | ',' :: rest => do
      let (field,rest) ← readField fuel rest
      let (fields,rest) ← readFields fuel rest
      some (field :: fields,rest)
    | _ => none
end

mutual
/-- Every number of the value is of this kind. -/
def Value.Numbers (kind : String → Prop) : Value → Prop
  | .Number text => kind text
  | .Array values => ValuesNumbers kind values
  | .Object fields => FieldsNumbers kind fields
  | _ => True
def ValuesNumbers (kind : String → Prop) : List Value → Prop
  | [] => True
  | value :: rest => value.Numbers kind ∧ ValuesNumbers kind rest
def FieldsNumbers (kind : String → Prop) : List (String × Value) → Prop
  | [] => True
  | (_,value) :: rest => value.Numbers kind ∧ FieldsNumbers kind rest
end

/-- Digits, perhaps behind a minus sign. -/
def Integer (text : String) : Prop :=
  ∃ digits, digits ≠ [] ∧ (∀ c ∈ digits, c.isDigit = true) ∧ (text.toList = digits ∨ text.toList = '-' :: digits)
/-- All numbers are integers. -/
abbrev Value.Plain (value : Value) : Prop := value.Numbers Integer

/-- What follows a value does not continue a number. -/
def Delimited (rest : List Char) : Prop := ∀ c ∈ rest.head?, c.isDigit = false
theorem writeValues_delimited (values : List Value) (rest : List Char) : Delimited (writeValues values ++ rest) := by
  cases values <;> simp [Delimited,writeValues]
theorem writeFields_delimited (fields : List (String × Value)) (rest : List Char) :
    Delimited (writeFields fields ++ rest) := by
  cases fields <;> simp [Delimited,writeFields]

variable {value : Value} {fields : List (String × Value)} {α : Type} {depth : Nat}

/-- A value does not start with a closing bracket. -/
theorem write_head (plain : value.Plain) : ∃ head tail, write value = head :: tail ∧ head ≠ ']' := by
  cases value with
  | Null => exact ⟨_,_,by rw [write],by decide⟩
  | Bool value => cases value <;> exact ⟨_,_,by rw [write],by decide⟩
  | Number text =>
    rw [Value.Plain,Value.Numbers] at plain
    rw [write]
    obtain ⟨digits,someDigit,all,same | same⟩ := plain
    · obtain ⟨head,tail,rfl⟩ := exists_cons_of_ne_nil someDigit
      refine ⟨head,tail,same,?_⟩
      rintro rfl
      exact absurd (all ']' mem_cons_self) (by decide)
    · exact ⟨_,_,same,by decide⟩
  | String text => exact ⟨_,_,by rw [write,cons_append],by decide⟩
  | Array values => cases values <;> exact ⟨_,_,by rw [write] <;> rfl,by decide⟩
  | Object fields => rcases fields with _ | ⟨⟨key,value⟩,rest⟩ <;> exact ⟨_,_,by rw [write] <;> rfl,by decide⟩

variable {sign text rest : List Char}

theorem readDigits_append (someDigit : text ≠ []) (digits : ∀ c ∈ text, c.isDigit = true) (delimited : Delimited rest) :
    readDigits sign (text ++ rest) = some (.Number (String.ofList (sign ++ text)),rest) := by
  have taken : (text ++ rest).takeWhile Char.isDigit = text ∧ (text ++ rest).dropWhile Char.isDigit = rest := by
    rw [takeWhile_append_of_pos digits,dropWhile_append_of_pos digits]
    cases rest with
    | nil => simp
    | cons c rest => simp [delimited c (by simp)]
  rw [readDigits,taken.1,taken.2,if_neg (by simpa using someDigit)]

theorem read_integer {text : String} {rest : List Char} (integer : Integer text) (delimited : Delimited rest)
    (fuel : Nat) :
    read (fuel + 1) (text.toList ++ rest) = some (.Number text,rest) := by
  obtain ⟨digits,someDigit,all,same | same⟩ := integer
  · rw [← String.ofList_toList (s := text),same,String.toList_ofList]
    have last := @readDigits_append [] digits rest someDigit all delimited
    rw [nil_append] at last
    obtain ⟨head,tail,rfl⟩ := exists_cons_of_ne_nil someDigit
    have digit := all head mem_cons_self
    unfold read
    split
    all_goals first
      | exact last
      | (rename_i found; simp only [cons_append,cons.injEq] at found; rw
          [found.1] at digit; exact absurd digit (by decide))
  · have last := @readDigits_append ['-'] digits rest someDigit all delimited
    rw [singleton_append,← same,String.ofList_toList] at last
    rw [same,cons_append,read]
    exact last

mutual
/-- What is written for a value reads back as the value. -/
theorem read_write : ∀ (value : Value), value.Plain → ∀ (fuel : Nat) (rest : List Char),
    (write value).length ≤ fuel → Delimited rest → read fuel (write value ++ rest) = some (value,rest)
  | value, plain, 0, rest, enough, _ => by
    obtain ⟨head,tail,same,_⟩ := write_head plain
    simp [same] at enough
  | .Null, _, fuel + 1, rest, _, _ => by simp [write,read]
  | .Bool true, _, fuel + 1, rest, _, _ => by simp [write,read]
  | .Bool false, _, fuel + 1, rest, _, _ => by simp [write,read]
  | .Number text, plain, fuel + 1, rest, _, delimited => by
    rw [Value.Plain,Value.Numbers] at plain
    rw [write,read_integer plain delimited]
  | .String text, _, fuel + 1, rest, enough, _ => by
    simp only [write,cons_append,append_assoc,nil_append,length_cons,length_append] at enough ⊢
    simp only [read,readChars_escape text.toList rest fuel (by omega),Option.bind_eq_bind,Option.bind_some,
      String.ofList_toList]
  | .Array [], _, fuel + 1, rest, _, _ => by simp [write,read]
  | .Array (value :: values), plain, fuel + 1, rest, enough, _ => by
    simp only [Value.Plain,Value.Numbers,ValuesNumbers] at plain
    obtain ⟨head,tail,same,other⟩ := write_head plain.1
    simp only [write,cons_append,append_assoc,length_cons,length_append] at enough ⊢
    rw [read]
    · simp only [read_write value plain.1 fuel _ (by omega) (writeValues_delimited values rest),
        Option.bind_eq_bind,Option.bind_some,read_writeValues values plain.2 fuel rest (by omega)]
    · simp [same,other]
  | .Object [], _, fuel + 1, rest, _, _ => by simp [write,read]
  | .Object ((key,value) :: fields), plain, fuel + 1, rest, enough, _ => by
    simp only [Value.Plain,Value.Numbers,FieldsNumbers] at plain
    simp only [write,cons_append,append_assoc,length_cons,length_append] at enough ⊢
    rw [read]
    · simp only [read_write_field key value plain.1 fuel _ (by omega) (writeFields_delimited fields rest),
        Option.bind_eq_bind,Option.bind_some,read_writeFields fields plain.2 fuel rest (by omega)]
    · simp
theorem read_write_field : ∀ (key : String) (value : Value), value.Plain → ∀ (fuel : Nat) (rest : List Char),
    (key.toList.flatMap escape).length + (write value).length + 3 ≤ fuel → Delimited rest →
      readField fuel ('"' :: (key.toList.flatMap escape ++ '"' :: ':' :: (write value ++ rest))) =
        some ((key,value),rest)
  | key, value, _, 0, rest, enough, _ => by omega
  | key, value, plain, fuel + 1, rest, enough, delimited => by
    simp only [readField,readChars_escape key.toList _ fuel (by omega),Option.bind_eq_bind,Option.bind_some,
      read_write value plain fuel rest (by omega) delimited,String.ofList_toList]
theorem read_writeValues : ∀ (values : List Value), ValuesNumbers Integer values → ∀ (fuel : Nat) (rest : List Char),
    (writeValues values).length ≤ fuel → readValues fuel (writeValues values ++ rest) = some (values,rest)
  | values, _, 0, rest, enough => by cases values <;> simp [writeValues] at enough
  | [], _, fuel + 1, rest, _ => by simp [writeValues,readValues]
  | value :: values, plain, fuel + 1, rest, enough => by
    rw [ValuesNumbers] at plain
    simp only [writeValues,cons_append,append_assoc,length_cons,length_append] at enough ⊢
    simp only [readValues,read_write value plain.1 fuel _ (by omega) (writeValues_delimited values rest),
      Option.bind_eq_bind,Option.bind_some,read_writeValues values plain.2 fuel rest (by omega)]
theorem read_writeFields : ∀ (fields : List (String × Value)), FieldsNumbers Integer fields →
    ∀ (fuel : Nat) (rest : List Char),
    (writeFields fields).length ≤ fuel → readFields fuel (writeFields fields ++ rest) = some (fields,rest)
  | fields, _, 0, rest, enough => by rcases fields with _ | ⟨⟨key,value⟩,fields⟩ <;> simp [writeFields] at enough
  | [], _, fuel + 1, rest, _ => by simp [writeFields,readFields]
  | (key,value) :: fields, plain, fuel + 1, rest, enough => by
    rw [FieldsNumbers] at plain
    simp only [writeFields,cons_append,append_assoc,length_cons,length_append] at enough ⊢
    simp only [readFields,read_write_field key value plain.1 fuel _ (by omega) (writeFields_delimited fields rest),
      Option.bind_eq_bind,Option.bind_some,read_writeFields fields plain.2 fuel rest (by omega)]
end

theorem read_written (plain : value.Plain) : read ((write value).length + 1) (write value) = some (value,[]) := by
  have reads := read_write value plain ((write value).length + 1) [] (by omega) (by simp [Delimited])
  rwa [append_nil] at reads
theorem write_injective {other : Value} (plain : value.Plain) (otherPlain : other.Plain)
    (same : write value = write other) : value = other := by
  have reads := read_written plain
  rw [same,read_written otherPlain] at reads
  cases reads
  rfl

theorem readDigits_plain (signed : sign = [] ∨ sign = ['-']) (found : readDigits sign text = some (value,rest)) :
    value.Plain := by
  rw [readDigits] at found
  split_ifs at found with noneRead
  cases found
  refine ⟨text.takeWhile Char.isDigit,by simpa using noneRead,fun c member => mem_takeWhile_imp member,?_⟩
  rw [String.toList_ofList]
  exact signed.imp (fun empty => by rw [empty]; rfl) fun minus => by rw [minus]; rfl

mutual
/-- The reader finds integers only. -/
theorem read_plain : ∀ (fuel : Nat) {text rest : List Char} {value : Value}, read fuel text =
    some (value,rest) → value.Plain
  | 0, _, _, _, found => by cases found
  | fuel + 1, text, rest, value, found => by
    unfold read at found
    split at found
    case h_8 =>
      obtain ⟨⟨field,_⟩,first,found⟩ := Option.bind_eq_some_iff.mp found
      obtain ⟨⟨fields,_⟩,others,found⟩ := Option.bind_eq_some_iff.mp found
      cases found
      exact ⟨readField_plain fuel first,readFields_plain fuel others⟩
    case h_6 =>
      obtain ⟨⟨firstValue,_⟩,first,found⟩ := Option.bind_eq_some_iff.mp found
      obtain ⟨⟨values,_⟩,others,found⟩ := Option.bind_eq_some_iff.mp found
      cases found
      exact ⟨read_plain fuel first,readValues_plain fuel others⟩
    case h_4 =>
      obtain ⟨_,_,found⟩ := Option.bind_eq_some_iff.mp found
      cases found
      trivial
    case h_9 => exact readDigits_plain (.inr rfl) found
    case h_10 => exact readDigits_plain (.inl rfl) found
    all_goals cases found; trivial
theorem readField_plain : ∀ (fuel : Nat) {text rest : List Char} {field : String × Value}, readField fuel text =
    some (field,rest) → field.2.Plain
  | 0, _, _, _, found => by cases found
  | fuel + 1, text, rest, field, found => by
    unfold readField at found
    split at found
    · obtain ⟨⟨_,_⟩,_,found⟩ := Option.bind_eq_some_iff.mp found
      dsimp only at found
      split at found
      · obtain ⟨⟨value,_⟩,first,found⟩ := Option.bind_eq_some_iff.mp found
        cases found
        exact read_plain fuel first
      · cases found
    · cases found
theorem readValues_plain : ∀ (fuel : Nat) {text rest : List Char} {values : List Value}, readValues fuel text =
    some (values,rest) → ValuesNumbers Integer values
  | 0, _, _, _, found => by cases found
  | fuel + 1, text, rest, values, found => by
    unfold readValues at found
    split at found
    · cases found
      trivial
    · obtain ⟨⟨value,_⟩,first,found⟩ := Option.bind_eq_some_iff.mp found
      obtain ⟨⟨others,_⟩,more,found⟩ := Option.bind_eq_some_iff.mp found
      cases found
      exact ⟨read_plain fuel first,readValues_plain fuel more⟩
    · cases found
theorem readFields_plain : ∀ (fuel : Nat) {text rest : List Char} {fields : List (String × Value)},
    readFields fuel text = some (fields,rest) → FieldsNumbers Integer fields
  | 0, _, _, _, found => by cases found
  | fuel + 1, text, rest, fields, found => by
    unfold readFields at found
    split at found
    · cases found
      trivial
    · obtain ⟨⟨field,_⟩,first,found⟩ := Option.bind_eq_some_iff.mp found
      obtain ⟨⟨others,_⟩,more,found⟩ := Option.bind_eq_some_iff.mp found
      cases found
      exact ⟨readField_plain fuel first,readFields_plain fuel more⟩
    · cases found
end

/-! ### Bytes -/

theorem escape_size (c : Char) : (Utf8.encode (escape c)).length = serde_json.charSize c := by
  unfold escape serde_json
  by_cases quote : c = '"'
  · subst quote; decide
  by_cases slash : c = '\\'
  · subst slash; decide
  simp only [quote,slash,if_false,or_self,mem_cons,not_mem_nil,or_false]
  by_cases control : c.toNat < 0x20
  · have high := @hexDigit_size (c.toNat / 16) (by omega)
    have low := @hexDigit_size (c.toNat % 16) (by omega)
    split_ifs <;> simp_all [Utf8.encode,String.length_utf8EncodeChar] <;> decide
  · have apart : c.toNat ≠ 8 ∧ c.toNat ≠ 9 ∧ c.toNat ≠ 10 ∧ c.toNat ≠ 12 ∧ c.toNat ≠ 13 := by omega
    simp [apart,control,Utf8.encode]

private theorem ascii_size (c : Char) (ascii : c.utf8Size = 1) : (String.utf8EncodeChar c).length = 1 := by
  rw [String.length_utf8EncodeChar,ascii]

private theorem encode_length (cs : List Char) : (Utf8.encode cs).length = String.utf8Len cs := by
  induction cs with
  | nil => rfl
  | cons c rest ih =>
    rw [Utf8.encode_cons,length_append,String.length_utf8EncodeChar,ih,String.utf8Len_cons,Nat.add_comm]

theorem chars_size_eq (text : String) :
    (Utf8.encode (text.toList.flatMap escape)).length = serde_json.charsSize text := by
  rw [Writer.charsSize]
  induction text.toList with
  | nil => rfl
  | cons c rest ih => simp [Utf8.encode_append,escape_size,ih]

mutual
/-- The text has the size that is counted for the value. -/
theorem writeSize : ∀ value : Value, (Utf8.encode (write value)).length = serde_json.size value
  | .Null => by simp only [write,Writer.size]; decide
  | .Bool true => by simp only [write,Writer.size]; decide
  | .Bool false => by simp only [write,Writer.size]; decide
  | .Number text => by
    rw [write,Writer.size,encode_length,← String.utf8ByteSize_ofList,String.ofList_toList]
  | .String text => by
    simp (disch := decide) only [write,Writer.size,Writer.stringSize,cons_append,Utf8.encode_cons,
      Utf8.encode_append,length_append,chars_size_eq,ascii_size,Utf8.encode_nil,length_nil]
    omega
  | .Array [] => by simp only [write,Writer.size]; decide
  | .Array (value :: rest) => by
    simp (disch := decide) only [write,Writer.size,Writer.valuesSize,cons_append,Utf8.encode_cons,
      Utf8.encode_append,length_append,writeSize value,write_values_size rest,separators,length_cons,ascii_size]
    omega
  | .Object [] => by simp only [write,Writer.size]; decide
  | .Object ((key,value) :: rest) => by
    simp (disch := decide) only [write,Writer.size,Writer.fieldsSize,Writer.stringSize,cons_append,
      Utf8.encode_cons,Utf8.encode_append,length_append,chars_size_eq,writeSize value,write_fields_size rest,
      separators,length_cons,ascii_size]
    omega
theorem write_values_size : ∀ values : List Value,
    (Utf8.encode (writeValues values)).length = serde_json.valuesSize values + values.length + 1
  | [] => by simp only [writeValues,Writer.valuesSize]; decide
  | value :: rest => by
    simp (disch := decide) only [writeValues,Writer.valuesSize,cons_append,Utf8.encode_cons,
      Utf8.encode_append,length_append,writeSize value,write_values_size rest,length_cons,ascii_size]
    omega
theorem write_fields_size : ∀ fields : List (String × Value),
    (Utf8.encode (writeFields fields)).length = serde_json.fieldsSize fields + fields.length + 1
  | [] => by simp only [writeFields,Writer.fieldsSize]; decide
  | (key,value) :: rest => by
    simp (disch := decide) only [writeFields,Writer.fieldsSize,Writer.stringSize,cons_append,
      Utf8.encode_cons,Utf8.encode_append,length_append,chars_size_eq,writeSize value,write_fields_size rest,
      length_cons,ascii_size]
    omega
end

/-- The nesting up to which a document is read. -/
def MAX_NESTING : Nat := 127

/-- A JSON library: it writes a value in its size, and reads back what it wrote unless that nests too deep. -/
structure Codec where
  to_vec : Value → Bytes
  from_slice : Bytes → Except String Value
  size (value : Value) : (to_vec value).length = serde_json.size value
  readsBack {value : Value} : value.Plain → value.nesting ≤ MAX_NESTING → from_slice (to_vec value) = .ok value

/-- Reads one document that ends with the text. -/
def readDocument (bytes : Bytes) : Except String Value :=
  match Utf8.from_utf8 bytes with
  | none => .error "invalid unicode code point"
  | some text =>
    match read (text.length + 1) text with
    | some (value,[]) => .ok value
    | some (_,_ :: _) => .error "trailing characters"
    | none => .error "expected value"

/-- The writer and the reader of this module. -/
def compact : Codec where
  to_vec value := Utf8.encode (write value)
  from_slice := readDocument
  size := writeSize
  readsBack {value} plain _ := by simp [readDocument,Utf8.from_utf8_encode,read_written plain]

/-! ### Reading structures -/

/-- The fields of an object, each known and none twice. -/
def knownFields (names : List String) : Value → Option (List (String × Value))
  | .Object fields =>
    if (fields.map Prod.fst).Nodup ∧ ∀ name ∈ fields.map Prod.fst, name ∈ names then some fields else none
  | _ => none

theorem knownFields_object {names : List String} (distinct : names.Nodup)
    (sub : (fields.map Prod.fst).Sublist names) : knownFields names (.Object fields) = some fields :=
  if_pos ⟨sub.nodup distinct,fun _ member => sub.subset member⟩

def required (fields : List (String × Value)) (name : String) (read : Value → Option α) : Option α :=
  (fields.lookup name).bind read
/-- A field with a default. -/
def defaulted (fields : List (String × Value)) (name : String) (default : α) (read : Value → Option α) : Option α :=
  match fields.lookup name with
  | none => some default
  | some value => read value

def asText : Value → Option String
  | .String text => some text
  | _ => none
def as_bool : Value → Option Bool
  | .Bool value => some value
  | _ => none
/-- An unsigned integer below a bound. -/
def asUnsigned (bound : Nat) : Value → Option Nat
  | .Number text => if text.toList.all Char.isDigit then text.toNat?.filter (· < bound) else none
  | _ => none
/-- `Option<T>`: the value or `null`. -/
def nullable (read : Value → Option α) : Value → Option (Option α)
  | .Null => some none
  | value => (read value).map some
def asList (read : Value → Option α) : Value → Option (List α)
  | .Array values => values.mapM read
  | _ => none
/-- A number as it is written. -/
def number (n : Nat) : Value := .Number (toString n)
theorem number_digits (n : Nat) : (toString n).toList ≠ [] ∧ ∀ c ∈ (toString n).toList, c.isDigit = true := by
  rw [show (toString n).toList = Nat.toDigits 10 n from by simp [toString,Nat.repr]]
  exact ⟨Nat.toDigits_ne_nil,fun c member => Nat.isDigit_of_mem_toDigits (by decide) (by decide) member⟩

theorem number_integer (n : Nat) : Integer (toString n) := ⟨_,(number_digits n).1,(number_digits n).2,.inl rfl⟩

theorem asUnsigned_number {n bound : Nat} (below : n < bound) : asUnsigned bound (number n) = some n := by
  have digits := all_eq_true.mpr (number_digits n).2
  simp only [number,asUnsigned,if_pos digits]
  rw [show toString n = n.repr from rfl,Nat.toNat?_repr]
  simp [below]

theorem bind_found {β : Type} {x : Option α} {a : α} (found : x = some a) (f : α → Option β) : (x >>= f) = f a := by
  subst found
  rfl
variable {read : Value → Option α}

theorem required_found {name : String} {x : α}
    (found : fields.lookup name = some value) (reads : read value = some x) : required fields name read = some x := by
  rw [required,found,Option.bind_some,reads]
theorem defaulted_found {name : String} {default : α}
    {x : α} (found : fields.lookup name = some value) (reads : read value = some x) :
    defaulted fields name default read = some x := by
  rw [defaulted,found]
  exact reads

theorem mapM_of_forall {β : Type} {read : Value → Option β} {write : β → Value} (back : ∀ x, read (write x) = some x)
    (xs : List β) : (xs.map write).mapM read = some xs := by
  induction xs with
  | nil => rfl
  | cons x rest ih => simp [mapM_cons,back,ih]

/-- A field that is written only where there is a value. -/
def optional (name : String) (value : Option Value) : List (String × Value) := (value.map (Prod.mk name)).toList
theorem optional_names (name : String) (value : Option Value) :
    ((optional name value).map Prod.fst).Sublist [name] := by
  cases value <;> simp [optional]
theorem lookup_same (name : String) (value : Value) (rest : List (String × Value)) :
    ((name,value) :: rest).lookup name = some value := by simp [lookup]
theorem lookup_other {name key : String} (apart : key ≠ name) (value : Value) (rest : List (String × Value)) :
    ((name,value) :: rest).lookup key = rest.lookup key := by simp [lookup,beq_false_of_ne apart]
theorem lookup_optional_same (name : String) (value : Option Value) : (optional name value).lookup name = value := by
  cases value <;> simp [optional]
theorem lookup_optional_other {name key : String} (apart : key ≠ name) (value : Option Value) :
    (optional name value).lookup key = none := by
  cases value <;> simp [optional,lookup,beq_false_of_ne apart]
/-- A plain value that nests so deep at most. -/
def Value.Fits (depth : Nat) (value : Value) : Prop := value.Plain ∧ value.nesting ≤ depth
theorem fits_string (text : String) (depth : Nat) : (Value.String text).Fits depth := by
  simp [Value.Fits,Value.Plain,Value.Numbers,Value.nesting]
theorem fits_bool (value : Bool) (depth : Nat) : (Value.Bool value).Fits depth := by
  simp [Value.Fits,Value.Plain,Value.Numbers,Value.nesting]
theorem fits_null (depth : Nat) : Value.Null.Fits depth := by simp [Value.Fits,Value.Plain,Value.Numbers,Value.nesting]
theorem fits_number (n depth : Nat) : (number n).Fits depth := by
  simp only [Value.Fits,number,Value.Plain,Value.Numbers,Value.nesting]
  exact ⟨number_integer n,Nat.zero_le depth⟩

theorem fits_array {values : List Value} (all : ∀ value ∈ values, value.Fits depth) :
    (Value.Array values).Fits (depth + 1) := by
  have both : ValuesNumbers Integer values ∧ valuesNesting values ≤ depth := by
    induction values with
    | nil => simp [ValuesNumbers,valuesNesting]
    | cons value rest ih =>
      obtain ⟨plain,shallow⟩ := ih fun other member => all other (by simp [member])
      obtain ⟨here,depth⟩ := all value (by simp)
      exact ⟨⟨here,plain⟩,max_le depth shallow⟩
  simpa [Value.Fits,Value.Plain,Value.Numbers,Value.nesting] using both

theorem fits_object (all : ∀ field ∈ fields, field.2.Fits depth) :
    (Value.Object fields).Fits (depth + 1) := by
  have both : FieldsNumbers Integer fields ∧ fieldsNesting fields ≤ depth := by
    induction fields with
    | nil => simp [FieldsNumbers,fieldsNesting]
    | cons field rest ih =>
      obtain ⟨plain,shallow⟩ := ih fun other member => all other (by simp [member])
      obtain ⟨here,depth⟩ := all field (by simp)
      exact ⟨⟨here,plain⟩,max_le depth shallow⟩
  simpa [Value.Fits,Value.Plain,Value.Numbers,Value.nesting] using both

theorem fits_optional {name : String} {value : Option Value} (fits : ∀ v, value = some v → v.Fits depth) :
    ∀ field ∈ optional name value, field.2.Fits depth := by
  intro field member
  cases value with
  | none => simp [optional] at member
  | some value =>
    simp only [optional,Option.map_some,Option.toList_some,mem_singleton] at member
    exact member ▸ fits value rfl

end Vyane.Json
