import Vyane.Text

/-!
UTF-8 as bytes and characters: the bytes of a text are read back as the text.
-/
namespace Vyane.Utf8
open Text

def encode (cs : List Char) : Bytes := cs.flatMap String.utf8EncodeChar
@[simp] theorem encode_nil : encode [] = [] := rfl
@[simp] theorem encode_cons {c : Char} {cs : List Char} : encode (c :: cs) = String.utf8EncodeChar c ++ encode cs :=
  List.flatMap_cons
theorem encode_append {first second : List Char} : encode (first ++ second) = encode first ++ encode second :=
  List.flatMap_append
/-- The first character; no character takes more than four bytes. -/
def decodeFirst (bytes : Bytes) : Option Char := (bytes.take 4).toByteArray.utf8DecodeChar? 0

/-- The characters of so many bytes at most. -/
def decodeWithin : Nat → Bytes → Option (List Char)
  | _, [] => some []
  | 0, _ :: _ => none
  | fuel + 1, byte :: bytes =>
    (decodeFirst (byte :: bytes)).bind fun c => (decodeWithin fuel ((byte :: bytes).drop c.utf8Size)).map (c :: ·)

def from_utf8 (bytes : Bytes) : Option (List Char) := decodeWithin bytes.length bytes

theorem decodeFirst_eq_some {bytes : Bytes} {c : Char} :
    decodeFirst bytes = some c ↔ String.utf8EncodeChar c <+: bytes := by
  constructor
  · intro decoded
    obtain ⟨rest,split⟩ := ByteArray.exists_of_utf8DecodeChar?_eq_some decoded
    have lists := congrArg (fun array => array.data.toList) split
    simp only [List.data_toByteArray,ByteArray.data_append,Array.toList_append] at lists
    exact List.IsPrefix.trans ⟨_,lists.symm⟩ (List.take_prefix 4 bytes)
  · rintro ⟨rest,rfl⟩
    have narrow : (String.utf8EncodeChar c).length ≤ 4 := by
      rw [String.length_utf8EncodeChar]
      exact c.utf8Size_le_four
    rw [decodeFirst,List.take_append,List.take_of_length_le narrow,List.toByteArray_append]
    exact ByteArray.utf8DecodeChar?_utf8EncodeChar_append

theorem decodeWithin_encode (cs : List Char) : ∀ fuel, (encode cs).length ≤ fuel →
    decodeWithin fuel (encode cs) = some cs := by
  induction cs with
  | nil => intro fuel _; cases fuel <;> rfl
  | cons c cs ih =>
    intro fuel room
    have size := String.length_utf8EncodeChar c
    have positive := c.utf8Size_pos
    rw [encode_cons,List.length_append] at room
    have first : decodeFirst (encode (c :: cs)) = some c := decodeFirst_eq_some.mpr ⟨encode cs,rfl⟩
    have rest : (encode (c :: cs)).drop c.utf8Size = encode cs := by rw [encode_cons,← size,List.drop_left]
    obtain ⟨fuel,rfl⟩ : ∃ less, fuel = less + 1 := ⟨fuel - 1,by omega⟩
    generalize bytesEq : encode (c :: cs) = bytes at first rest
    cases bytes with
    | nil => exact absurd bytesEq (by simp [String.utf8EncodeChar_ne_nil])
    | cons byte bytes => rw [decodeWithin,first,Option.bind_some,rest,ih fuel (by omega),Option.map_some]

theorem from_utf8_encode (cs : List Char) : from_utf8 (encode cs) = some cs := decodeWithin_encode cs _ le_rfl

theorem encode_of_decodeWithin : ∀ {fuel : Nat} {bytes : Bytes} {cs : List Char}, decodeWithin fuel bytes = some cs →
    encode cs = bytes := by
  intro fuel
  induction fuel with
  | zero =>
    intro bytes cs decoded
    cases bytes with
    | nil => cases decoded; rfl
    | cons byte bytes => cases decoded
  | succ fuel ih =>
    intro bytes cs decoded
    cases bytes with
    | nil => cases decoded; rfl
    | cons byte bytes =>
      rw [decodeWithin] at decoded
      obtain ⟨c,first,rest⟩ := Option.bind_eq_some_iff.mp decoded
      obtain ⟨more,later,rfl⟩ := Option.map_eq_some_iff.mp rest
      obtain ⟨tail,split⟩ := decodeFirst_eq_some.mp first
      rw [encode_cons,ih later,← String.length_utf8EncodeChar,← split,List.drop_left]

theorem encode_of_from_utf8 {bytes : Bytes} {cs : List Char} (decoded : from_utf8 bytes = some cs) :
    encode cs = bytes :=
  encode_of_decodeWithin decoded

end Vyane.Utf8
