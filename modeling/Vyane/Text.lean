import Mathlib

/-!
Rust string operations in the form the workspace uses them, and the identifier rule of `vyane-core`. Lengths are UTF-8
bytes, trimming follows the Unicode White_Space property.
-/
abbrev Vyane.Bytes : Type := List UInt8

namespace Vyane.Text
/-- `char::is_whitespace`: the Unicode White_Space property. -/
def is_whitespace (c : Char) : Bool :=
  (9 ≤ c.toNat && c.toNat ≤ 13) || c.toNat == 0x20 || c.toNat == 0x85 || c.toNat == 0xA0 ||
    c.toNat == 0x1680 || (0x2000 ≤ c.toNat && c.toNat ≤ 0x200A) || c.toNat == 0x2028 ||
    c.toNat == 0x2029 || c.toNat == 0x202F || c.toNat == 0x205F || c.toNat == 0x3000
/-- `char::is_control`: the general category Cc. -/
def is_control (c : Char) : Bool := c.toNat ≤ 0x1F || (0x7F ≤ c.toNat && c.toNat ≤ 0x9F)
/-- `str::trim` on the characters of a text. -/
def trimChars (cs : List Char) : List Char :=
  ((cs.dropWhile is_whitespace).reverse.dropWhile is_whitespace).reverse
/-- `value.trim()`. -/
def trim (value : String) : List Char := trimChars value.toList
/-- `value.trim().is_empty()`. -/
def isBlank (value : String) : Bool := (trim value).isEmpty
/-- `value.contains('\0')`. -/
def containsNul (value : String) : Bool := value.toList.contains (Char.ofNat 0)
/-- `value.starts_with(pattern)`. -/
def starts_with (value pattern : String) : Bool := pattern.toList.isPrefixOf value.toList
/-- `str::split_inclusive`, of characters or bytes: pieces that end with the separator, but for the last. -/
def split_inclusive {α : Type} [DecidableEq α] (separator : α) : List α → List (List α)
  | [] => []
  | c :: rest =>
    if c = separator then [c] :: split_inclusive separator rest
    else match split_inclusive separator rest with
      | [] => [[c]]
      | piece :: pieces => (c :: piece) :: pieces
def stripLast {α : Type} [DecidableEq α] (c : α) (line : List α) : Option (List α) :=
  if line.getLast? = some c then some line.dropLast else none
/-- `str::lines`: without the newlines, and without a return before a newline. -/
def lines {α : Type} [DecidableEq α] (newline carriage_return : α) (text : List α) : List (List α) :=
  (split_inclusive newline text).map fun line =>
    match stripLast newline line with
    | none => line
    | some line => (stripLast carriage_return line).getD line
/-- `str::eq_ignore_ascii_case`, on characters. -/
def eq_ignore_ascii_case (value other : List Char) : Bool := value.map Char.toLower == other.map Char.toLower
/-- `is_ascii_alphanumeric` of a character, or of bytes: no other character encodes to bytes that pass the test. -/
def is_ascii_alphanumeric (c : Char) : Bool :=
  (0x30 ≤ c.toNat && c.toNat ≤ 0x39) || (0x41 ≤ c.toNat && c.toNat ≤ 0x5A) || (0x61 ≤ c.toNat && c.toNat ≤ 0x7A)
def NEWLINE : UInt8 := 10
def is_ascii_whitespace (byte : UInt8) : Bool := byte == 32 || byte == 9 || byte == 10 || byte == 12 || byte == 13
/-- `byte.is_ascii_digit() || (b'a'..=b'f').contains(&byte)`, on characters:
    a non-ASCII character encodes to bytes that all fail the test. -/
def is_lower_hex (c : Char) : Bool :=
  (0x30 ≤ c.toNat && c.toNat ≤ 0x39) || (0x61 ≤ c.toNat && c.toNat ≤ 0x66)
/-- The check on a stored or received SHA-256 hex digest. -/
def is_sha256 (value : String) : Bool := value.utf8ByteSize == 64 && value.toList.all is_lower_hex
/-- Hexadecimal digit of a value below sixteen. -/
def hexDigit (n : Nat) : Char := if n < 10 then Char.ofNat (0x30 + n) else Char.ofNat (0x57 + n)
/-- `hex_lower`: two lowercase hexadecimal digits for each byte. -/
def hex_lower (bytes : Bytes) : String :=
  String.ofList (bytes.flatMap fun byte => [hexDigit (byte.toNat / 16),hexDigit (byte.toNat % 16)])
/-- `(length as u64).to_be_bytes()`. -/
def be_bytes (length : Nat) : Bytes :=
  [56,48,40,32,24,16,8,0].map fun shift => UInt8.ofNat (length >>> shift)
/-- Texts up to the first separator are told apart by what stands before it and behind it. -/
theorem append_cons_inj {α : Type} {separator : α} {first second rest rest' : List α} (noneFirst : separator ∉ first)
    (noneSecond : separator ∉ second)
    (same : first ++ separator :: rest = second ++ separator :: rest') : first = second ∧ rest = rest' := by
  rcases List.append_eq_append_iff.mp same with ⟨more,rfl,tail⟩ | ⟨more,rfl,tail⟩ <;> cases more <;> simp_all
theorem hexDigit_size {n : Nat} (small : n < 16) : (hexDigit n).utf8Size = 1 := by
  interval_cases n <;> decide

theorem hex_lower_size (bytes : Bytes) : (hex_lower bytes).utf8ByteSize = 2 * bytes.length := by
  simp only [hex_lower,String.utf8ByteSize_ofList]
  induction bytes with
  | nil => rfl
  | cons byte rest ih =>
    have small := byte.toNat_lt
    have high := @hexDigit_size (byte.toNat / 16) (by omega)
    have low := @hexDigit_size (byte.toNat % 16) (by omega)
    simp only [List.flatMap_cons,String.utf8Len_append,String.utf8Len_cons,String.utf8Len_nil,ih,high,low,
      List.length_cons]
    omega

theorem hex_lower_injective : Function.Injective hex_lower := by
  have digit : ∀ first second : Fin 16, hexDigit first = hexDigit second → first = second := by decide
  have byte {first second : UInt8} (high : hexDigit (first.toNat / 16) = hexDigit (second.toNat / 16))
      (low : hexDigit (first.toNat % 16) = hexDigit (second.toNat % 16)) : first = second := by
    have firstSmall := first.toNat_lt
    have secondSmall := second.toNat_lt
    have highs := congrArg Fin.val (digit ⟨first.toNat / 16,by omega⟩ ⟨second.toNat / 16,by omega⟩ high)
    have lows := congrArg Fin.val (digit ⟨first.toNat % 16,by omega⟩ ⟨second.toNat % 16,by omega⟩ low)
    simp only at highs lows
    exact UInt8.toNat_inj.mp (by omega)
  intro first second same
  rw [hex_lower,hex_lower,String.ofList_inj] at same
  induction first generalizing second with
  | nil => cases second <;> simp_all
  | cons head rest ih =>
    cases second with
    | nil => simp at same
    | cons head' rest' =>
      simp only [List.flatMap_cons,List.cons_append,List.nil_append,List.cons.injEq] at same
      rw [byte same.1 same.2.1,ih same.2.2]

/-- `value.as_bytes()`. -/
def as_bytes (value : String) : Bytes := value.toList.flatMap String.utf8EncodeChar

theorem as_bytes_injective : Function.Injective as_bytes := by
  intro first second same
  have encoded : first.toList.utf8Encode = second.toList.utf8Encode := congrArg List.toByteArray same
  rw [String.utf8Encode_toList,String.utf8Encode_toList] at encoded
  exact String.toByteArray_inj.mp encoded

/-- A text of one-byte characters has as many bytes as characters. -/
theorem utf8Len_of_narrow {cs : List Char} (narrow : ∀ c ∈ cs, c.utf8Size = 1) : String.utf8Len cs = cs.length := by
  induction cs with
  | nil => rfl
  | cons c rest ih =>
    rw [String.utf8Len_cons,ih fun other member => narrow other (List.mem_cons_of_mem _ member),
      narrow c List.mem_cons_self,
      List.length_cons]

/-- A text has at least one byte for each character and at most four. -/
theorem utf8ByteSize_bounds (value : String) : value.length ≤ value.utf8ByteSize ∧
    value.utf8ByteSize ≤ 4 * value.length := by
  have sizes : ∀ cs : List Char, cs.length ≤ String.utf8Len cs ∧ String.utf8Len cs ≤ 4 * cs.length := by
    intro cs
    induction cs with
    | nil => simp
    | cons c rest ih =>
      have low := c.utf8Size_pos
      have high := c.utf8Size_le_four
      rw [String.utf8Len_cons,List.length_cons]
      omega
  rw [← String.length_toList,← String.ofList_toList (s := value),String.utf8ByteSize_ofList,String.toList_ofList]
  exact sizes value.toList

/-- Why an identifier was rejected. -/
inductive IdentifierProblem where
  | Blank
  | TooLong (max_bytes : Nat)
  | SurroundingWhitespace
  | ControlCharacter
deriving DecidableEq, Repr

/-- The first problem with a value, or nothing when it is a valid identifier. -/
def identifier_problem (value : String) (max_bytes : Nat) : Option IdentifierProblem :=
  if isBlank value then some .Blank
  else if max_bytes < value.utf8ByteSize then some (.TooLong max_bytes)
  else if trim value ≠ value.toList then some .SurroundingWhitespace
  else if value.toList.any is_control then some .ControlCharacter
  else none

/-- A number in decimal has no NUL and as many bytes as digits. -/
theorem decimal_clean {n digits : Nat} (positive : 0 < digits) (small : n < 10 ^ digits) :
    containsNul (toString n) = false ∧ (toString n).utf8ByteSize ≤ digits := by
  have decimal : ∀ c ∈ Nat.toDigits 10 n, c.isDigit = true :=
    fun c => Nat.isDigit_of_mem_toDigits (by decide) (by decide)
  rw [Nat.toString_eq_repr,Nat.repr_eq_ofList_toDigits]
  refine ⟨?_,?_⟩
  · simp only [containsNul,String.toList_ofList,List.contains_eq_mem,decide_eq_false_iff_not]
    intro member
    have := decimal _ member
    revert this
    decide
  · have narrow : ∀ c ∈ Nat.toDigits 10 n, c.utf8Size = 1 := by
      intro c member
      have digit := decimal c member
      simp only [Char.isDigit,Bool.and_eq_true,decide_eq_true_eq] at digit
      exact Char.utf8Size_eq_one_iff.mpr (UInt32.le_trans digit.2 (by decide))
    rw [String.utf8ByteSize_ofList,utf8Len_of_narrow narrow]
    exact Nat.toDigits_length 10 n digits positive small

end Vyane.Text
