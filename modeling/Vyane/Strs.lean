import Vyane.Utf8

/-!
Strings as their UTF-8 bytes, with byte offsets: character boundaries, slices that are refused inside a character, and
searching.
-/
namespace Vyane.Strs
open Utf8 List

/-- The bytes of some characters. -/
def Valid (bytes : Bytes) : Prop := ∃ cs, bytes = encode cs

/-- A string: bytes that are those of some characters. -/
@[ext]
structure Str where
  bytes : Bytes
  valid : Valid bytes
instance : DecidableEq Str := fun first second =>
  decidable_of_iff (first.bytes = second.bytes) ⟨Str.ext,congrArg _⟩
def Str.of (text : String) : Str := ⟨encode text.toList,text.toList,rfl⟩
def Str.empty : Str := ⟨[],[],rfl⟩
def Str.len (s : Str) : Nat := s.bytes.length
def Str.is_empty (s : Str) : Bool := s.bytes.isEmpty

variable {first second : Bytes} {index : Nat} {s : Str} {start stop : Nat}

theorem Valid.append (one : Valid first) (two : Valid second) : Valid (first ++ second) := by
  obtain ⟨cs,rfl⟩ := one
  obtain ⟨ds,rfl⟩ := two
  exact ⟨cs ++ ds,encode_append.symm⟩

/-- `push_str`. -/
def Str.append (s t : Str) : Str := ⟨s.bytes ++ t.bytes,s.valid.append t.valid⟩
theorem len_append (s t : Str) : (s.append t).len = s.len + t.len := length_append

/-! ### Boundaries -/

/-- The byte does not continue a character. -/
def leading (byte : UInt8) : Bool := byte.toNat < 0x80 || 0xc0 ≤ byte.toNat
private theorem continues (v : Nat) : leading (UInt8.ofNat (v % 64 + 128)) = false := by
  simp only [leading,UInt8.toNat_ofNat',Bool.or_eq_false_iff,decide_eq_false_iff_not]
  omega

/-- Only the first byte of a character is a leading one. -/
theorem encode_char_bytes (c : Char) : ∃ first rest, String.utf8EncodeChar c = first :: rest ∧ leading first = true ∧
    ∀ byte ∈ rest, leading byte = false := by
  rw [String.utf8EncodeChar.eq_1]
  split_ifs
  · refine ⟨_,_,rfl,?_,by simp⟩
    simp only [leading,UInt8.toNat_ofNat',Bool.or_eq_true,decide_eq_true_eq]
    omega
  all_goals
    refine ⟨_,_,rfl,?_,by simp only [forall_mem_cons,continues,not_mem_nil,IsEmpty.forall_iff,implies_true,and_self]⟩
    simp only [leading,UInt8.toNat_ofNat',Bool.or_eq_true,decide_eq_true_eq]
    omega

def Str.is_char_boundary (s : Str) (index : Nat) : Bool :=
  index == 0 || index == s.len || (s.bytes[index]?).any leading

/-- Valid bytes can be cut where a character starts, and only there. -/
theorem cut_valid (cs : List Char) : ∀ (index : Nat),
    (index = 0 ∨ index = (encode cs).length ∨ ((encode cs)[index]?).any leading = true) →
      ∃ before after, cs = before ++ after ∧ index = (encode before).length := by
  induction cs with
  | nil =>
    rintro index (rfl | same | start)
    · exact ⟨[],[],rfl,rfl⟩
    · exact ⟨[],[],rfl,same⟩
    · simp at start
  | cons c rest ih =>
    intro index boundary
    obtain ⟨first,more,bytes,_,others⟩ := encode_char_bytes c
    by_cases zero : index = 0
    · exact ⟨[],c :: rest,rfl,zero⟩
    · have past : (String.utf8EncodeChar c).length ≤ index := by
        by_contra inside
        rcases boundary with same | same | start
        · exact zero same
        · rw [encode_cons,length_append] at same
          omega
        · rw [encode_cons,getElem?_append_left (by omega),bytes] at start
          obtain ⟨position,rfl⟩ := Nat.exists_eq_succ_of_ne_zero zero
          rw [bytes,length_cons] at inside
          rw [getElem?_cons_succ,getElem?_eq_getElem (by omega),Option.any_some,
            others _ (getElem_mem _)] at start
          cases start
      obtain ⟨before,after,parts,length⟩ := ih (index - (String.utf8EncodeChar c).length) (by
        rcases boundary with same | same | start
        · exact absurd same zero
        · right; left
          rw [same,encode_cons,length_append]
          omega
        · right; right
          rwa [encode_cons,getElem?_append_right past] at start)
      refine ⟨c :: before,after,by rw [parts,cons_append],?_⟩
      rw [encode_cons,length_append,← length]
      omega

theorem boundary_cut (boundary : s.is_char_boundary index = true) :
    index ≤ s.len ∧ Valid (s.bytes.take index) ∧ Valid (s.bytes.drop index) := by
  obtain ⟨bytes,cs,rfl⟩ := s
  simp only [Str.is_char_boundary,Str.len,Bool.or_eq_true,beq_iff_eq,or_assoc] at boundary ⊢
  obtain ⟨before,after,rfl,rfl⟩ := cut_valid cs index boundary
  rw [encode_append]
  refine ⟨by simp,⟨before,by simp⟩,⟨after,by simp⟩⟩

theorem boundary_zero (s : Str) : s.is_char_boundary 0 = true := by simp [Str.is_char_boundary]
theorem boundary_len (s : Str) : s.is_char_boundary s.len = true := by simp [Str.is_char_boundary]

/-- What follows some characters of a string is a string again. -/
theorem Valid.cancel (one : Valid first) (both : Valid (first ++ second)) : Valid second := by
  obtain ⟨cs,rfl⟩ := one
  induction cs generalizing second with
  | nil => simpa using both
  | cons c rest ih =>
    obtain ⟨ds,same⟩ := both
    rw [encode_cons,append_assoc] at same
    cases ds with
    | nil =>
      obtain ⟨first,more,bytes,_⟩ := encode_char_bytes c
      simp [bytes] at same
    | cons d ds =>
      have here : decodeFirst (encode (d :: ds)) = some c := decodeFirst_eq_some.mpr ⟨_,same⟩
      have there : decodeFirst (encode (d :: ds)) = some d := decodeFirst_eq_some.mpr ⟨encode ds,by rw [encode_cons]⟩
      rw [here,Option.some.injEq] at there
      subst there
      rw [encode_cons,append_cancel_left_eq] at same
      exact ih ⟨ds,same⟩

/-- The start of a string is no continuation. -/
theorem Valid.head_leading {bytes : Bytes} (valid : Valid bytes) : ∀ byte ∈ bytes.head?, leading byte = true := by
  obtain ⟨cs,rfl⟩ := valid
  intro byte member
  cases cs with
  | nil => simp at member
  | cons c rest =>
    obtain ⟨first,more,bytes,start,_⟩ := encode_char_bytes c
    simp only [encode_cons,bytes,cons_append,head?_cons,Option.mem_some_iff] at member
    exact member ▸ start

theorem boundary_of_valid_drop (le : index ≤ s.len) (valid : Valid (s.bytes.drop index)) :
    s.is_char_boundary index = true := by
  rcases Nat.lt_or_ge index s.len with inside | outside
  · have start := valid.head_leading s.bytes[index] (by rw [head?_drop,getElem?_eq_getElem inside]; rfl)
    have found : s.bytes[index]? = some s.bytes[index] := getElem?_eq_getElem inside
    simp [Str.is_char_boundary,found,start]
  · have same : index = s.len := by omega
    rw [same]
    exact boundary_len s

theorem valid_ascii {byte : UInt8} (ascii : byte.toNat < 128) : Valid [byte] := by
  have all : ∀ n : Fin 128, encode [Char.ofNat n] = [UInt8.ofNat n] := by decide
  refine ⟨[Char.ofNat byte.toNat],?_⟩
  rw [all ⟨byte.toNat,ascii⟩,UInt8.ofNat_toNat]

/-- A byte that is a character by itself has boundaries on both sides. -/
theorem boundary_ascii (inside : index < s.len) (ascii : s.bytes[index].toNat < 128) :
    s.is_char_boundary index = true ∧ s.is_char_boundary (index + 1) = true := by
  have start : s.is_char_boundary index = true := by
    have found : s.bytes[index]? = some s.bytes[index] := getElem?_eq_getElem inside
    simp [Str.is_char_boundary,found,leading,ascii]
  refine ⟨start,boundary_of_valid_drop (by omega) ?_⟩
  obtain ⟨_,_,after⟩ := boundary_cut start
  rw [drop_eq_getElem_cons inside] at after
  exact Valid.cancel (valid_ascii ascii) (show Valid ([s.bytes[index]] ++ s.bytes.drop (index + 1)) from after)

/-! ### Slices and searches -/

/-- `&s[start..end]`; the source panics where there is no value. -/
def Str.slice (s : Str) (start stop : Nat) : Option Str :=
  if bounds : start ≤ stop ∧ s.is_char_boundary start = true ∧ s.is_char_boundary stop = true then
    some ⟨(s.bytes.take stop).drop start,by
      obtain ⟨le,first,last⟩ := bounds
      have before : Valid (s.bytes.take start) := (boundary_cut first).2.1
      refine before.cancel ?_
      have parts : s.bytes.take start ++ (s.bytes.take stop).drop start = s.bytes.take stop := by
        have whole := take_append_drop start (s.bytes.take stop)
        rwa [take_take,Nat.min_eq_left le] at whole
      rw [parts]
      exact (boundary_cut last).2.1⟩
  else none

theorem slice_eq_some {s t : Str} : s.slice start stop = some t ↔
    start ≤ stop ∧ s.is_char_boundary start = true ∧ s.is_char_boundary stop = true ∧
      t.bytes = (s.bytes.take stop).drop start := by
  unfold Str.slice
  constructor
  · intro sliced
    split_ifs at sliced with bounds
    cases sliced
    exact ⟨bounds.1,bounds.2.1,bounds.2.2,rfl⟩
  · rintro ⟨le,first,last,bytes⟩
    rw [dif_pos ⟨le,first,last⟩]
    cases t
    simp only at bytes
    simp [bytes]

theorem slice_defined (le : start ≤ stop) (first : s.is_char_boundary start = true)
    (last : s.is_char_boundary stop = true) : ∃ t, s.slice start stop = some t := by
  unfold Str.slice
  rw [dif_pos ⟨le,first,last⟩]
  exact ⟨_,rfl⟩

/-- A slice is what stands before the rest. -/
theorem slice_split {s t : Str} (sliced : s.slice start stop = some t) :
    s.bytes.drop start = t.bytes ++ s.bytes.drop stop ∧ start + t.len = stop := by
  obtain ⟨le,_,last,bytes⟩ := slice_eq_some.mp sliced
  have within : stop ≤ s.bytes.length := (boundary_cut last).1
  constructor
  · rw [bytes,drop_take,show s.bytes.drop stop = (s.bytes.drop start).drop (stop - start) by
      rw [drop_drop,Nat.add_sub_cancel' le],take_append_drop]
  · rw [Str.len,bytes,length_drop,length_take]
    omega

/-- The first position at which the pattern stands. -/
def findBytes (pattern : Bytes) : Bytes → Option Nat
  | [] => if pattern.isEmpty then some 0 else none
  | byte :: rest => if pattern.isPrefixOf (byte :: rest) then some 0 else (findBytes pattern rest).map (· + 1)
def Str.find (s pattern : Str) : Option Nat := findBytes pattern.bytes s.bytes

theorem findBytes_some {pattern : Bytes} : ∀ {bytes : Bytes} {index : Nat},
    findBytes pattern bytes = some index → index ≤ bytes.length ∧ pattern <+: bytes.drop index := by
  intro bytes
  induction bytes with
  | nil =>
    intro index found
    unfold findBytes at found
    split_ifs at found with empty
    cases found
    exact ⟨le_rfl,by simp [isEmpty_iff.mp empty]⟩
  | cons byte rest ih =>
    intro index found
    unfold findBytes at found
    split_ifs at found with here
    · cases found
      exact ⟨Nat.zero_le _,List.isPrefixOf_iff_prefix.mp here⟩
    · obtain ⟨position,later,rfl⟩ := Option.map_eq_some_iff.mp found
      obtain ⟨le,there⟩ := ih later
      exact ⟨by simpa using le,by simpa using there⟩

/-- An occurrence of a string in a string starts and ends at boundaries. -/
theorem occurrence_boundaries {s pattern : Str} (someBytes : pattern.bytes ≠ []) (le : index ≤ s.len)
    (there : pattern.bytes <+: s.bytes.drop index) :
    s.is_char_boundary index = true ∧ s.is_char_boundary (index + pattern.len) = true ∧
      index + pattern.len ≤ s.len := by
  obtain ⟨rest,split⟩ := there
  have inside : index + pattern.len ≤ s.len := by
    have length := congrArg length split
    rw [length_append,length_drop] at length
    simp only [Str.len] at le ⊢
    omega
  obtain ⟨head,tail,bytes⟩ := exists_cons_of_ne_nil someBytes
  have start : s.is_char_boundary index = true := by
    have first : s.bytes[index]? = some head := by
      rw [← head?_drop,← split,bytes]
      rfl
    have leads := pattern.valid.head_leading head (by rw [bytes]; rfl)
    simp [Str.is_char_boundary,first,leads]
  refine ⟨start,boundary_of_valid_drop inside ?_,inside⟩
  have after : s.bytes.drop (index + pattern.len) = rest := by
    rw [← drop_drop,← split]
    simp [Str.len]
  rw [after]
  have both := (boundary_cut start).2.2
  rw [← split] at both
  exact pattern.valid.cancel both

end Vyane.Strs
