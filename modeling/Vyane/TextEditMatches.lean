import Vyane.TextEditOutcomes

/-!
Where a match lies. A line-edge normalization keeps every newline and drops the edge white space of a line, so the text
of a slice stands inside the text of the whole, at the offsets of the slice. The greedy scan covers every occurrence;
candidates that the roundtrip check drops are lost with what they cover.
-/
namespace Vyane.TextEdits
open Strs Utf8 List Option
set_option linter.unusedSimpArgs false

/-! ### What a line loses -/

/-- From here to the end of the line there is edge white space only. -/
def Trailing (bytes : Bytes) (p : Nat) : Prop :=
  ∀ q, p ≤ q → (∀ r, p ≤ r → r ≤ q → bytes[r]? ≠ some 0x0a) → (bytes[q]?).all is_edge_whitespace = true
/-- From the start of the line to here there is edge white space only. -/
def Leading (bytes : Bytes) (p : Nat) : Prop :=
  ∀ q, q ≤ p → (∀ r, q ≤ r → r ≤ p → bytes[r]? ≠ some 0x0a) → (bytes[q]?).all is_edge_whitespace = true
def Stripped (mode : LineEdge) (bytes : Bytes) (p : Nat) : Prop :=
  bytes[p]? ≠ some 0x0a ∧ (Trailing bytes p ∨ mode = .BothSides ∧ Leading bytes p)

theorem next_newline_first {bytes : Bytes} {start r : Nat} (low : start ≤ r) (high : r < next_newline bytes start) :
    bytes[r]? ≠ some 0x0a := by
  unfold next_newline at high
  intro here
  have there : (bytes.drop start)[r - start]? = some 0x0a := by
    rw [getElem?_drop,Nat.add_sub_cancel' low,here]
  cases found : (bytes.drop start).findIdx? (· == 0x0a) with
  | none =>
    have never := findIdx?_eq_none_iff.mp found _ (mem_of_getElem? there)
    simp at never
  | some relative =>
    simp only [found] at high
    obtain ⟨_,_,first⟩ := findIdx?_eq_some_iff_getElem.mp found
    have early := first (r - start) (by omega)
    rw [getElem?_eq_some_iff] at there
    simp [there.2] at early

theorem lineContentStart_ge {bytes : Bytes} {mode : LineEdge} {line_start line_end : Nat} :
    line_start ≤ lineContentStart mode bytes line_start line_end := by
  cases mode with
  | TrailingOnly => exact le_rfl
  | BothSides => exact (skipLeading_spec _ _ (by omega)).1

section Line
variable {input : Str} {line_start : Nat}

theorem edge_all {byte? : Option UInt8} (edge : byte?.any is_edge_whitespace = true) :
    byte?.all is_edge_whitespace = true := by
  cases byte? with
  | none => rfl
  | some byte => exact edge

theorem not_edge_all {p : Nat} (inside : p < input.len) (visible : (input.bytes[p]?).any is_edge_whitespace = false) :
    ¬(input.bytes[p]?).all is_edge_whitespace = true := by
  rw [getElem?_eq_getElem inside] at visible ⊢
  simpa using visible

/-- The part of a line that is kept, between its two edges. -/
theorem line_kept (mode : LineEdge) (le : line_start ≤ input.len)
    (begins : line_start = 0 ∨ input.bytes[line_start - 1]? = some 0x0a) {p : Nat} (low : line_start ≤ p)
    (high : p < next_newline input.bytes line_start) :
    ¬Stripped mode input.bytes p ↔
      lineContentStart mode input.bytes line_start (next_newline input.bytes line_start) ≤ p ∧
        p < skipTrailing input.bytes
          (lineContentStart mode input.bytes line_start (next_newline input.bytes line_start))
          (next_newline input.bytes line_start) := by
  obtain ⟨_,within,here⟩ := next_newline_spec le
  generalize starts : lineContentStart mode input.bytes line_start (next_newline input.bytes line_start) = content_start
  obtain ⟨_,bounded,skipped,stops⟩ := @skipTrailing_spec input.bytes content_start (next_newline input.bytes line_start)
  obtain ⟨fromStart,_,edge⟩ := @skipLeading_spec input.bytes (next_newline input.bytes line_start)
    (next_newline input.bytes line_start - line_start) line_start (by omega)
  have plain : ∀ r, line_start ≤ r → r < next_newline input.bytes line_start → input.bytes[r]? ≠ some 0x0a :=
    fun r => next_newline_first
  constructor
  · intro kept
    constructor
    · by_contra early
      cases mode with
      | TrailingOnly =>
        simp only [lineContentStart] at starts
        omega
      | BothSides =>
        refine kept ⟨plain p low high,.inr ⟨rfl,fun q before none => ?_⟩⟩
        have after : line_start ≤ q := by
          by_contra outside
          rcases begins with zero | newline
          · omega
          · exact none (line_start - 1) (by omega) (by omega) newline
        simp only [lineContentStart] at starts
        exact edge_all (edge.1 q after (by rw [starts]; omega))
    · by_contra late
      refine kept ⟨plain p low high,.inl fun q after none => ?_⟩
      rcases Nat.lt_or_ge q (next_newline input.bytes line_start) with inside | outside
      · exact edge_all (skipped q (by omega) inside)
      · rcases Nat.lt_or_ge (next_newline input.bytes line_start) input.len with more | last
        · exact absurd (here more) (none _ (by omega) outside)
        · rw [getElem?_eq_none (by simp only [Str.len] at last; omega)]
          rfl
  · rintro ⟨first,last⟩ ⟨_,trailing | ⟨rfl,leading⟩⟩
    · refine not_edge_all (by omega) (stops (by omega)) (trailing _ (by omega) fun r after before =>
        plain r (by omega) (by omega))
    · have visible := edge.2
      simp only [lineContentStart] at starts
      rw [starts] at visible fromStart
      exact not_edge_all (by omega) (visible (by omega)) (leading _ first fun r after before =>
        plain r (by omega) (by omega))

end Line

/-- The offsets that a normalization of line edges keeps, in their order. -/
structure Keeps (mode : LineEdge) (bytes : Bytes) (start : Nat) (map : List Nat) : Prop where
  ascending : map.Pairwise (· < ·)
  mem : ∀ p, p ∈ map ↔ start ≤ p ∧ p < bytes.length ∧ ¬Stripped mode bytes p

theorem stripLines_keeps (input : Str) (mode : LineEdge) : ∀ (fuel line_start : Nat) (text : Str) (map : List Nat),
    line_start ≤ input.len → (line_start = 0 ∨ input.bytes[line_start - 1]? = some 0x0a) →
    stripLines input mode fuel line_start = some (text,map) → Keeps mode input.bytes line_start map := by
  intro fuel
  induction fuel with
  | zero => exact fun _ _ _ _ _ stripped => by cases stripped
  | succ fuel ih =>
    intro line_start text map le begins stripped
    obtain ⟨after,within,here⟩ := next_newline_spec le
    have kept := fun p => @line_kept input line_start mode le begins p
    simp only [stripLines,bind_eq_bind] at stripped
    obtain ⟨piece,sliced,stripped⟩ := bind_eq_some_iff.mp stripped
    have ordered := (slice_eq_some.mp sliced).1
    have bounded := (@skipTrailing_spec input.bytes
      (lineContentStart mode input.bytes line_start (next_newline input.bytes line_start))
        (next_newline input.bytes line_start)).2.1
    have low := @lineContentStart_ge input.bytes mode line_start (next_newline input.bytes line_start)
    generalize lineContentStart mode input.bytes line_start (next_newline input.bytes line_start) = content_start at *
    generalize skipTrailing input.bytes content_start (next_newline input.bytes line_start) = content_end at *
    have inside : ∀ p, p ∈ range' content_start (content_end - content_start) ↔
        line_start ≤ p ∧ p < next_newline input.bytes line_start ∧ ¬Stripped mode input.bytes p := by
      intro p
      rw [mem_range'_1]
      constructor
      · intro bounds
        have high : p < next_newline input.bytes line_start := by omega
        exact ⟨by omega,high,(kept p (by omega) high).mpr ⟨bounds.1,by omega⟩⟩
      · rintro ⟨first,last,remains⟩
        have bounds := (kept p first last).mp remains
        omega
    rcases Nat.lt_or_ge (next_newline input.bytes line_start) input.len with more | last
    · rw [if_pos more] at stripped
      obtain ⟨⟨rest,later⟩,next,same⟩ := bind_eq_some_iff.mp stripped
      cases same
      have tail := ih (next_newline input.bytes line_start + 1) rest later more (.inr (here more)) next
      have newline : ¬Stripped mode input.bytes (next_newline input.bytes line_start) := fun lost => lost.1 (here more)
      constructor
      · refine pairwise_append.mpr ⟨pairwise_lt_range',pairwise_cons.mpr ⟨fun p member => ?_,tail.ascending⟩,
          fun p member q other => ?_⟩
        · exact ((tail.mem p).mp member).1
        · have before := ((inside p).mp member).2.1
          rcases mem_cons.mp other with rfl | other
          · exact before
          · have := ((tail.mem q).mp other).1
            omega
      · intro p
        rw [mem_append,mem_cons,inside,tail.mem]
        constructor
        · rintro (⟨first,last,remains⟩ | rfl | ⟨first,last,remains⟩)
          · exact ⟨first,last.trans more,remains⟩
          · exact ⟨after,more,newline⟩
          · exact ⟨by omega,last,remains⟩
        · rintro ⟨first,last,remains⟩
          rcases lt_trichotomy p (next_newline input.bytes line_start) with before | same | behind
          · exact .inl ⟨first,before,remains⟩
          · exact .inr (.inl same)
          · exact .inr (.inr ⟨behind,last,remains⟩)
    · rw [if_neg (by omega)] at stripped
      cases stripped
      have whole : next_newline input.bytes line_start = input.bytes.length := Nat.le_antisymm within last
      exact ⟨pairwise_lt_range',by rw [← whole]; exact inside⟩

variable {map : List Nat} {input text : Str} {pass : MatchPass} {o : EditOutcome} {request : EditRequest}

theorem strip_line_edges_keeps {mode : LineEdge} (stripped : strip_line_edges input mode = some (text,map)) :
    ∃ offsets, map = offsets ++ [input.len] ∧ Keeps mode input.bytes 0 offsets ∧ Tracks input text offsets := by
  obtain ⟨text',offsets,defined,tracks⟩ := strip_line_edges_maps input mode
  rw [stripped,some.injEq,Prod.mk.injEq] at defined
  obtain ⟨rfl,rfl⟩ := defined
  obtain ⟨⟨other,map⟩,lines,same⟩ := map_eq_some_iff.mp stripped
  rw [Prod.mk.injEq,append_left_inj] at same
  obtain ⟨rfl,rfl⟩ := same
  exact ⟨map,rfl,stripLines_keeps input mode _ 0 _ _ (Nat.zero_le _) (.inl rfl) lines,tracks⟩

/-! ### Slices -/

section Slice
variable {mode : LineEdge} {bytes : Bytes} {a b p : Nat}

theorem slice_byte (inside : a + p < b) : ((bytes.take b).drop a)[p]? = bytes[a + p]? := by
  rw [getElem?_drop,getElem?_take_of_lt inside]

theorem slice_end (outside : b ≤ a + p) : ((bytes.take b).drop a)[p]? = none := by
  rw [getElem?_drop,getElem?_eq_none]
  rw [length_take]
  omega

/-- What the whole loses, a slice loses too. -/
theorem Stripped.slice (inside : a + p < b) (stripped : Stripped mode bytes (a + p)) :
    Stripped mode ((bytes.take b).drop a) p := by
  obtain ⟨visible,edge⟩ := stripped
  refine ⟨by rwa [slice_byte inside],?_⟩
  rcases edge with trailing | ⟨rfl,leading⟩
  · refine .inl fun q after none => ?_
    rcases Nat.lt_or_ge (a + q) b with within | outside
    · rw [slice_byte within]
      refine trailing (a + q) (by omega) fun r low high => ?_
      have same := none (r - a) (by omega) (by omega)
      rwa [slice_byte (by omega),Nat.add_sub_cancel' (by omega)] at same
    · rw [slice_end outside]
      rfl
  · refine .inr ⟨rfl,fun q before none => ?_⟩
    rw [slice_byte (by omega)]
    refine leading (a + q) (by omega) fun r low high => ?_
    have same := none (r - a) (by omega) (by omega)
    rwa [slice_byte (by omega),Nat.add_sub_cancel' (by omega)] at same

/-- What a slice loses beyond that, it loses at its two ends. -/
theorem kept_between {x y z : Nat} (first : x ≤ y) (second : y ≤ z) (inside : a + z < b)
    (low : ¬Stripped mode ((bytes.take b).drop a) x) (high : ¬Stripped mode ((bytes.take b).drop a) z)
    (kept : ¬Stripped mode bytes (a + y)) : ¬Stripped mode ((bytes.take b).drop a) y := by
  rintro ⟨visible,edge⟩
  rw [slice_byte (by omega)] at visible
  rcases edge with trailing | ⟨rfl,leading⟩
  · have more : ¬Trailing bytes (a + y) := fun all => kept ⟨visible,.inl all⟩
    simp only [Trailing,not_forall] at more
    obtain ⟨q,after,none,edge⟩ := more
    have beyond : b ≤ q := by
      by_contra within
      refine edge ?_
      have same := trailing (q - a) (by omega) fun r low high => by
        rw [slice_byte (by omega)]
        exact none _ (by omega) (by omega)
      rwa [slice_byte (by omega),Nat.add_sub_cancel' (by omega)] at same
    refine high ⟨by rw [slice_byte inside]; exact none _ (by omega) (by omega),.inl fun q' after' none' => ?_⟩
    refine trailing q' (by omega) fun r low high => ?_
    rcases Nat.lt_or_ge (a + r) b with within | outside
    · rw [slice_byte within]
      exact none _ (by omega) (by omega)
    · rw [slice_end outside]
      nofun
  · have more : ¬Leading bytes (a + y) := fun all => kept ⟨visible,.inr ⟨rfl,all⟩⟩
    simp only [Leading,not_forall] at more
    obtain ⟨q,before,none,edge⟩ := more
    have beyond : q < a := by
      by_contra within
      refine edge ?_
      have same := leading (q - a) (by omega) fun r low high => by
        rw [slice_byte (by omega)]
        exact none _ (by omega) (by omega)
      rwa [slice_byte (by omega),Nat.add_sub_cancel' (by omega)] at same
    refine low ⟨by rw [slice_byte (by omega)]; exact none _ (by omega) (by omega),.inr ⟨rfl,fun q' before' none' => ?_⟩⟩
    refine leading q' (by omega) fun r low high => ?_
    rw [slice_byte (by omega)]
    exact none _ (by omega) (by omega)

end Slice

/-- A part of an ascending list that leaves out nothing in between stands in one piece. -/
theorem prefix_of_lower : ∀ {whole part : List Nat}, whole.Pairwise (· < ·) → part.Pairwise (· < ·) →
    (∀ x ∈ part, x ∈ whole) →
    (∀ z ∈ part, ∀ y ∈ whole, y ≤ z → y ∈ part) → part <+: whole
  | _, [], _, _, _, _ => List.nil_prefix
  | [], x :: _, _, _, sub, _ => by simpa using sub x
  | y :: whole, x :: part, ascending, ascends, sub, lower => by
    obtain ⟨above,wholeLater⟩ := pairwise_cons.mp ascending
    obtain ⟨greater,partLater⟩ := pairwise_cons.mp ascends
    have le : y ≤ x := by
      rcases mem_cons.mp (sub x (by simp)) with rfl | later
      · exact le_rfl
      · exact (above x later).le
    have same : y = x := by
      rcases mem_cons.mp (lower x (by simp) y (by simp) le) with same | later
      · exact same
      · exact absurd (greater y later) (by omega)
    subst same
    refine prefix_cons_inj y |>.mpr (prefix_of_lower wholeLater partLater
      (fun z member => ?_) fun z member w listed le => ?_)
    · exact (mem_cons.mp (sub z (by simp [member]))).resolve_left (greater z member).ne'
    · exact (mem_cons.mp (lower z (by simp [member]) w (by simp [listed]) le)).resolve_left (above w listed).ne'

theorem infix_of_convex : ∀ {whole part : List Nat}, whole.Pairwise (· < ·) → part.Pairwise (· < ·) →
    (∀ x ∈ part, x ∈ whole) →
    (∀ x ∈ part, ∀ z ∈ part, ∀ y ∈ whole, x ≤ y → y ≤ z → y ∈ part) → part <:+: whole
  | [], part, _, _, sub, _ => by
    rw [eq_nil_iff_forall_not_mem.mpr fun x member => not_mem_nil (sub x member)]
  | y :: whole, part, ascending, ascends, sub, convex => by
    obtain ⟨above,later⟩ := pairwise_cons.mp ascending
    by_cases first : y ∈ part
    · refine (prefix_of_lower ascending ascends sub fun z member w listed le => ?_).isInfix
      refine convex y first z member w listed ?_ le
      rcases mem_cons.mp listed with rfl | listed
      · exact le_rfl
      · exact (above w listed).le
    · have rest : ∀ x ∈ part, x ∈ whole := fun x member =>
        (mem_cons.mp (sub x member)).resolve_left (by rintro rfl; exact first member)
      exact infix_cons (infix_of_convex later ascends rest fun x low z high w listed =>
        convex x low z high w (by simp [listed]))

/-- The text stands in another one, at bytes that have their offsets in a range. -/
abbrev StandsAt (text : Str) (map : List Nat) (a b : Nat) (piece : Bytes) (n : Nat) : Prop :=
  n + piece.length ≤ text.len ∧ piece <+: text.bytes.drop n ∧
    ∀ k < piece.length, ∃ offset, map[n + k]? = some offset ∧ a ≤ offset ∧ offset < b
def Within (text : Str) (map : List Nat) (a b : Nat) (piece : Bytes) : Prop := ∃ n, StandsAt text map a b piece n

theorem Tracks.bytes (tracks : Tracks input text map) :
    text.bytes = map.map fun offset => (input.bytes[offset]?).getD 0 := by
  refine ext_getElem? fun index => ?_
  rw [getElem?_map]
  rcases Nat.lt_or_ge index text.len with inside | outside
  · obtain ⟨offset,mapped,same⟩ := tracks.byte index inside
    rw [mapped,map_some,same,getElem?_eq_getElem inside]
    rfl
  · rw [getElem?_eq_none outside,getElem?_eq_none (by rw [tracks.length]; exact outside)]
    rfl

variable {map offsets : List Nat} {a b : Nat}

theorem strip_within {removed piece : Str} {mode : LineEdge}
    (stripped : strip_line_edges input mode = some (text,map)) (sliced : input.slice a b = some removed)
    (normalized : strip_line_edges removed mode = some (piece,offsets)) : Within text map a b piece.bytes := by
  obtain ⟨whole,rfl,keeps,tracks⟩ := strip_line_edges_keeps stripped
  obtain ⟨part,rfl,partKeeps,partTracks⟩ := strip_line_edges_keeps normalized
  obtain ⟨le,_,last,bytes⟩ := slice_eq_some.mp sliced
  have length := (slice_split sliced).2
  have within := (boundary_cut last).1
  rw [bytes] at partKeeps
  have size : ((input.bytes.take b).drop a).length = removed.len := by rw [← bytes]; rfl
  have bounds : ∀ x ∈ part, a + x < b ∧ ¬Stripped mode ((input.bytes.take b).drop a) x := by
    intro x member
    obtain ⟨_,inside,kept⟩ := (partKeeps.mem x).mp member
    exact ⟨by omega,kept⟩
  obtain ⟨before,behind,split⟩ := @infix_of_convex whole (part.map (a + ·)) keeps.ascending
    (List.pairwise_map.mpr (partKeeps.ascending.imp fun lt => by omega))
    (by
      intro y member
      obtain ⟨x,listed,rfl⟩ := List.mem_map.mp member
      obtain ⟨inside,kept⟩ := bounds x listed
      exact (keeps.mem _).mpr ⟨Nat.zero_le _,
        by simp only [Str.len] at within; omega,fun lost => kept (lost.slice inside)⟩)
    (by
      intro x low z high y listed after upto
      obtain ⟨x,first,rfl⟩ := List.mem_map.mp low
      obtain ⟨z,second,rfl⟩ := List.mem_map.mp high
      obtain ⟨_,_,kept⟩ := (keeps.mem y).mp listed
      refine List.mem_map.mpr ⟨y - a,(partKeeps.mem _).mpr ⟨Nat.zero_le _,?_,?_⟩,by omega⟩
      · have := (bounds z second).1
        omega
      · refine kept_between (by omega) (by omega) (bounds z second).1 (bounds x first).2 (bounds z second).2 ?_
        rwa [Nat.add_sub_cancel' (by omega)])
  have pieceBytes : piece.bytes = (part.map (a + ·)).map fun offset => (input.bytes[offset]?).getD 0 := by
    rw [partTracks.bytes,List.map_map]
    refine List.map_congr_left fun x member => ?_
    rw [bytes,slice_byte (bounds x member).1]
    rfl
  have textBytes := tracks.bytes
  rw [← split,List.map_append,List.map_append,← pieceBytes] at textBytes
  refine ⟨before.length,?_,?_,fun k inside => ?_⟩
  · have total := congrArg List.length textBytes
    simp only [List.length_append,List.length_map] at total
    simp only [Str.len]
    omega
  · rw [textBytes,List.append_assoc,List.drop_left' (by simp)]
    exact List.prefix_append _ _
  · have short : k < part.length := by simpa [pieceBytes] using inside
    refine ⟨a + part[k],?_,Nat.le_add_right _ _,(bounds _ (List.getElem_mem short)).1⟩
    rw [← split,List.append_assoc,List.append_assoc,List.getElem?_append_right (Nat.le_add_right _ _),
      Nat.add_sub_cancel_left,
      List.getElem?_append_left (by simpa using short),List.getElem?_map,List.getElem?_eq_getElem short]
    rfl

/-! ### Folding a slice -/

/-- The characters a list of characters folds to. -/
def folded (cs : List Char) : List Char := cs.flatMap fun c => (fold_character c).getD [c]

theorem foldChars_eq (offset : Nat) (cs : List Char) : (foldChars offset cs).1 = folded cs := by
  induction cs generalizing offset with
  | nil => rfl
  | cons c cs ih => simp [foldChars,folded,ih]

theorem foldChars_append (offset : Nat) (front back : List Char) :
    (foldChars offset (front ++ back)).2 = (foldChars offset front).2 ++
    (foldChars (offset + (encode front).length) back).2 := by
  induction front generalizing offset with
  | nil => simp [foldChars]
  | cons c front ih =>
    have size : offset + c.utf8Size + (encode front).length = offset + (encode (c :: front)).length := by
      simp [encode,String.length_utf8EncodeChar]
      omega
    simp only [cons_append,foldChars,ih,size,append_assoc]

/-- The offsets of the fold ascend within the characters they are for. -/
theorem foldChars_offsets (offset : Nat) (cs : List Char) :
    (foldChars offset cs).2.length = (encode (folded cs)).length ∧ (foldChars offset cs).2.Pairwise (· ≤ ·) ∧
      ∀ source ∈ (foldChars offset cs).2, offset ≤ source ∧ source < offset + (encode cs).length := by
  induction cs generalizing offset with
  | nil => simp [foldChars,folded,encode]
  | cons c cs ih =>
    obtain ⟨length,ascending,bounds⟩ := ih (offset + c.utf8Size)
    have size : (encode (c :: cs)).length = c.utf8Size + (encode cs).length := by
      simp [encode,String.length_utf8EncodeChar]
    have wide : 0 < c.utf8Size := Char.utf8Size_pos c
    refine ⟨?_,?_,fun source member => ?_⟩
    · simp only [foldChars,length_append,length_replicate,length,folded,flatMap_cons,encode_append]
    · refine pairwise_append.mpr ⟨pairwise_replicate.mpr (.inr le_rfl),ascending,fun x here y later => ?_⟩
      rw [eq_of_mem_replicate here]
      have := (bounds y later).1
      omega
    · rw [size]
      rcases mem_append.mp member with here | later
      · rw [eq_of_mem_replicate here]
        omega
      · have := bounds source later
        omega

theorem chars_of_bytes {s : Str} {cs : List Char} (bytes : s.bytes = encode cs) : chars s = cs := by
  simp [chars,bytes,from_utf8_encode]

/-- The fold of a slice is a slice of the fold, at the characters of the slice. -/
theorem fold_slice {content removed : Str} (sliced : content.slice a b = some removed) :
    ∃ fa fb, (fold_confusables content).1.slice fa fb = some (fold_confusables removed).1 ∧
      ∀ p, fa ≤ p → p < fb → ∃ offset, (fold_confusables content).2[p]? = some offset ∧ a ≤ offset ∧ offset < b := by
  obtain ⟨le,first,last,_⟩ := slice_eq_some.mp sliced
  obtain ⟨within,⟨front,frontBytes⟩,_⟩ := boundary_cut first
  obtain ⟨_,_,⟨back,backBytes⟩⟩ := boundary_cut last
  obtain ⟨split,length⟩ := slice_split sliced
  have parts : chars content = front ++ (chars removed ++ back) := by
    refine chars_of_bytes ?_
    rw [encode_append,encode_append,chars_encode,← frontBytes,← backBytes,← split,take_append_drop]
  have start : (encode front).length = a := by
    rw [← frontBytes,length_take]
    exact Nat.min_eq_left within
  have foldedParts : chars (fold_confusables content).1 = folded front ++ (folded (chars removed) ++ folded back) := by
    refine chars_of_bytes ?_
    simp only [fold_confusables,foldChars_eq,parts,folded,flatMap_append]
  have bytes : (fold_confusables content).1.bytes =
      encode (folded front) ++ (encode (folded (chars removed)) ++ encode (folded back)) := by
    rw [← chars_encode,foldedParts,encode_append,encode_append]
  have own : (fold_confusables removed).1.bytes = encode (folded (chars removed)) := by
    simp only [fold_confusables,foldChars_eq]
  refine ⟨(encode (folded front)).length,(encode (folded front ++ folded (chars removed))).length,?_,
    fun p low high => ?_⟩
  · refine slice_eq_some.mpr ⟨?_,boundary_of_front foldedParts,boundary_of_front (by rw [foldedParts,append_assoc]),?_⟩
    · rw [encode_append,length_append]
      omega
    · rw [bytes,own,encode_append,← append_assoc,take_left,drop_left]
  · obtain ⟨frontLength,_,_⟩ := foldChars_offsets 0 front
    obtain ⟨length',_,bounds⟩ := foldChars_offsets a (chars removed)
    rw [encode_append,length_append] at high
    have inside : p - (encode (folded front)).length < (foldChars a (chars removed)).2.length := by omega
    have range := bounds _ (getElem_mem inside)
    rw [chars_encode] at range
    refine ⟨_,?_,range.1,range.2.trans_eq length⟩
    simp only [fold_confusables,parts,foldChars_append,Nat.zero_add,append_assoc,start]
    rw [getElem?_append_right (by omega),frontLength,getElem?_append_left inside,getElem?_eq_getElem inside]

/-! ### Every pass -/

theorem ascending_append {last : Nat} (ascending : offsets.Pairwise (· < ·)) (below : ∀ p ∈ offsets, p < last) :
    (offsets ++ [last]).Pairwise (· ≤ ·) :=
  pairwise_append.mpr ⟨ascending.imp Nat.le_of_lt,pairwise_singleton _ _,fun p member q other => by
    rw [mem_singleton.mp other]
    exact (below p member).le⟩

theorem strip_ascending {mode : LineEdge}
    (stripped : strip_line_edges input mode = some (text,map)) : map.Pairwise (· ≤ ·) := by
  obtain ⟨offsets,rfl,keeps,_⟩ := strip_line_edges_keeps stripped
  exact ascending_append keeps.ascending fun p member => ((keeps.mem p).mp member).2.1

theorem ascending_at (ascending : map.Pairwise (· ≤ ·)) {i j x y : Nat} (le : i ≤ j) (first : map[i]? = some x)
    (second : map[j]? = some y) : x ≤ y := by
  obtain ⟨insideI,rfl⟩ := List.getElem?_eq_some_iff.mp first
  obtain ⟨insideJ,rfl⟩ := List.getElem?_eq_some_iff.mp second
  rcases Nat.eq_or_lt_of_le le with rfl | less
  · exact le_rfl
  · exact List.pairwise_iff_getElem.mp ascending i j insideI insideJ less

/-- Later bytes of the text come from later offsets. -/
theorem normalize_ascending {content : Str}
    (normalized : normalize pass content = some (text,map)) : map.Pairwise (· ≤ ·) := by
  cases pass with
  | Exact | NewContent =>
    cases normalized
    exact pairwise_lt_range.imp Nat.le_of_lt
  | TrailingWhitespace | LineTrim => exact strip_ascending normalized
  | UnicodeNormalized =>
    obtain ⟨⟨trimmed,trim_map⟩,stripped,composes⟩ := bind_eq_some_iff.mp normalized
    obtain ⟨composed,mapped,same⟩ := bind_eq_some_iff.mp composes
    cases same
    have folds : (fold_confusables content).2.Pairwise (· ≤ ·) := by
      obtain ⟨_,ascending,bounds⟩ := foldChars_offsets 0 (chars content)
      refine pairwise_append.mpr ⟨ascending,pairwise_singleton _ _,fun p member q other => ?_⟩
      rw [mem_singleton.mp other]
      have := (bounds p member).2
      rw [chars_encode] at this
      simp only [Str.len]
      omega
    refine pairwise_iff_getElem.mpr fun i j first second before => ?_
    have low := composed_offset mapped i
    have high := composed_offset mapped j
    rw [getElem?_eq_getElem first] at low
    rw [getElem?_eq_getElem second] at high
    obtain ⟨x,trimX,foldX⟩ := bind_eq_some_iff.mp low.symm
    obtain ⟨y,trimY,foldY⟩ := bind_eq_some_iff.mp high.symm
    exact ascending_at folds (ascending_at (strip_ascending stripped) before.le trimX trimY) foldX foldY

/-- The text of a slice stands in the text of the whole. -/
theorem normalize_within {content text removed piece : Str}
    (normalized : normalize pass content = some (text,map)) (sliced : content.slice a b = some removed)
    (again : normalize pass removed = some (piece,offsets)) : Within text map a b piece.bytes := by
  cases pass with
  | Exact | NewContent =>
    cases normalized
    cases again
    obtain ⟨split,length⟩ := slice_split sliced
    have within : b ≤ content.len := (boundary_cut (slice_eq_some.mp sliced).2.2.1).1
    change a + removed.bytes.length = b at length
    exact ⟨a,length.trans_le within,split ▸ prefix_append _ _,fun k inside =>
      ⟨a + k,getElem?_range (by omega),by omega,by omega⟩⟩
  | TrailingWhitespace | LineTrim => exact strip_within normalized sliced again
  | UnicodeNormalized =>
    obtain ⟨⟨trimmed,trim_map⟩,stripped,composes⟩ := bind_eq_some_iff.mp normalized
    obtain ⟨composed,mapped,same⟩ := bind_eq_some_iff.mp composes
    cases same
    obtain ⟨⟨trimmed',trim_map'⟩,stripped',composes'⟩ := bind_eq_some_iff.mp again
    obtain ⟨composed',_,same'⟩ := bind_eq_some_iff.mp composes'
    cases same'
    obtain ⟨fa,fb,folds,sources⟩ := fold_slice sliced
    obtain ⟨n,inside,there,offsets⟩ := strip_within stripped folds stripped'
    refine ⟨n,inside,there,fun k bound => ?_⟩
    obtain ⟨offset,found,low,high⟩ := offsets k bound
    obtain ⟨source,listed,range⟩ := sources offset low high
    exact ⟨source,by rw [composed_offset mapped,found]; exact listed,range⟩

/-! ### Scanning -/

/-- The search returns the first occurrence. -/
theorem findBytes_least {pattern : Bytes} : ∀ {bytes : Bytes} {k : Nat}, k ≤ bytes.length → pattern <+: bytes.drop k →
    ∃ index ≤ k, findBytes pattern bytes = some index := by
  intro bytes
  induction bytes with
  | nil =>
    intro k le there
    rw [drop_nil] at there
    exact ⟨0,Nat.zero_le _,by simp [findBytes,prefix_nil.mp there]⟩
  | cons byte rest ih =>
    intro k le there
    unfold findBytes
    split_ifs with here
    · exact ⟨0,Nat.zero_le _,rfl⟩
    · cases k with
      | zero => exact absurd (List.isPrefixOf_iff_prefix.mpr there) here
      | succ k =>
        obtain ⟨index,before,found⟩ := ih (by simpa using le) (by simpa using there)
        exact ⟨index + 1,by omega,by rw [found]; rfl⟩

variable {text pattern : Str}

/-- Every occurrence behind the cursor overlaps one that is returned and starts no later. -/
theorem matchesFrom_covers : ∀ {fuel cursor : Nat} {starts found : List Nat},
    matchesFrom text pattern none fuel cursor starts = some (.ok found) →
      starts <+: found ∧ ∀ n, cursor ≤ n → n ≤ text.len → pattern.bytes <+: text.bytes.drop n →
        ∃ start ∈ found, start ≤ n ∧ n < start + pattern.len := by
  intro fuel
  induction fuel with
  | zero => exact fun scanned => by cases scanned
  | succ fuel ih =>
    intro cursor starts found scanned
    simp only [matchesFrom,bind_eq_bind] at scanned
    obtain ⟨rest,sliced,scanned⟩ := bind_eq_some_iff.mp scanned
    have bytes : rest.bytes = text.bytes.drop cursor := by
      rw [(slice_split sliced).1,Str.len,drop_length,append_nil]
    have least : ∀ n, cursor ≤ n → n ≤ text.len → pattern.bytes <+: text.bytes.drop n →
        ∃ index ≤ n - cursor, rest.find pattern = some index := by
      intro n after within there
      refine findBytes_least ?_ ?_
      · rw [bytes,length_drop]
        simp only [Str.len] at within
        omega
      · rwa [bytes,drop_drop,Nat.add_sub_cancel' after]
    cases scan : rest.find pattern with
    | none =>
      simp only [scan,some.injEq,Except.ok.injEq] at scanned
      subst scanned
      refine ⟨prefix_refl _,fun n after within there => ?_⟩
      obtain ⟨index,_,impossible⟩ := least n after within there
      rw [scan] at impossible
      cases impossible
    | some relative =>
      simp only [scan,reduceCtorEq,if_false] at scanned
      obtain ⟨grows,covers⟩ := ih scanned
      refine ⟨(prefix_append _ _).trans grows,fun n after within there => ?_⟩
      obtain ⟨index,before,first⟩ := least n after within there
      rw [scan,some.injEq] at first
      subst first
      rcases Nat.lt_or_ge n (cursor + relative + pattern.len) with overlaps | behind
      · exact ⟨cursor + relative,grows.subset (by simp),by omega,overlaps⟩
      · exact covers n behind within there

/-- A limit stops the scan exactly where there are more occurrences. -/
theorem matchesFrom_limited {limit : Nat} : ∀ {fuel cursor : Nat} {starts found : List Nat},
    matchesFrom text pattern none fuel cursor starts = some (.ok found) → starts.length ≤ limit →
      matchesFrom text pattern (some limit) fuel cursor starts =
        some (if found.length ≤ limit then .ok found else .error limit) := by
  intro fuel
  induction fuel with
  | zero => exact fun scanned => by cases scanned
  | succ fuel ih =>
    intro cursor starts found scanned few
    simp only [matchesFrom,bind_eq_bind] at scanned ⊢
    obtain ⟨rest,sliced,scanned⟩ := bind_eq_some_iff.mp scanned
    rw [sliced,bind_some]
    cases scan : rest.find pattern with
    | none =>
      simp only [scan,some.injEq,Except.ok.injEq] at scanned
      subst scanned
      simp [few]
    | some relative =>
      simp only [scan,reduceCtorEq,if_false] at scanned
      simp only [some.injEq]
      split_ifs with full more more
      · have grows := (matchesFrom_covers scanned).1.length_le
        rw [length_append,length_singleton] at grows
        omega
      · rw [full]
      · rw [ih scanned (by simp; omega),if_pos more]
      · rw [ih scanned (by simp; omega),if_neg more]

/-- The starts a pass scans, before any is validated. -/
def rawCandidates (pass : MatchPass) (content old_string : Str) : Option (List Nat) := do
  let (normalized_text,_) ← normalize pass content
  let (normalized_pattern,_) ← normalize pass old_string
  if normalized_pattern.is_empty then some []
  else
    match ← non_overlapping_matches normalized_text normalized_pattern none with
    | .ok starts => some starts
    | .error _ => none

theorem matchesFrom_ok : ∀ {fuel cursor : Nat} {starts : List Nat} {result : Except Nat (List Nat)},
    matchesFrom text pattern none fuel cursor starts = some result → ∃ found, result = .ok found := by
  intro fuel
  induction fuel with
  | zero => exact fun scanned => by cases scanned
  | succ fuel ih =>
    intro cursor starts result scanned
    simp only [matchesFrom,bind_eq_bind] at scanned
    obtain ⟨rest,_,scanned⟩ := bind_eq_some_iff.mp scanned
    cases scan : rest.find pattern with
    | none =>
      simp only [scan,some.injEq] at scanned
      exact ⟨starts,scanned.symm⟩
    | some relative =>
      simp only [scan,reduceCtorEq,if_false] at scanned
      exact ih scanned

/-- What a pass looks at: the two normalized texts and the starts of the pattern. -/
structure Scan (pass : MatchPass) (content old_string text pattern : Str) (map starts : List Nat) : Prop where
  normalized : normalize pass content = some (text,map)
  sought : ∃ offsets, normalize pass old_string = some (pattern,offsets)
  raw : rawCandidates pass content old_string = some starts
  blank : pattern.is_empty = true → starts = []
  scanned : pattern.is_empty = false → non_overlapping_matches text pattern none = some (.ok starts)

theorem scan (pass : MatchPass) (content old_string : Str) :
    ∃ text pattern map starts, Scan pass content old_string text pattern map starts := by
  obtain ⟨text,map,normalized,_⟩ := normalize_maps pass content
  obtain ⟨pattern,offsets,patternNormalized,_⟩ := normalize_maps pass old_string
  by_cases blank : pattern.is_empty = true
  · refine ⟨text,pattern,map,[],normalized,⟨offsets,patternNormalized⟩,?_,
      fun _ => rfl,fun visible => by simp [blank] at visible⟩
    simp [rawCandidates,normalized,patternNormalized,blank]
  · have someBytes : pattern.bytes ≠ [] := by simpa [Str.is_empty] using blank
    obtain ⟨result,scanned,_⟩ :=
      matchesFrom_spec text someBytes none (text.len + 1) 0 [] (boundary_zero text) (by omega) (by simp)
    obtain ⟨starts,rfl⟩ := matchesFrom_ok scanned
    refine ⟨text,pattern,map,starts,normalized,⟨offsets,patternNormalized⟩,?_,fun empty =>
      absurd empty blank,fun _ => scanned⟩
    simp [rawCandidates,normalized,patternNormalized,blank,non_overlapping_matches,scanned]

section
variable {pass : MatchPass} {content old_string text pattern : Str} {map starts : List Nat} {limit : Nat}
    {spans : List Range}

/-- With a limit a pass does the same, or stops at the limit. -/
theorem Scan.limited (scan : Scan pass content old_string text pattern map starts) :
    try_pass pass content old_string (some limit) =
    if starts.length ≤ limit then try_pass pass content old_string none else some (.TooMany limit) := by
  obtain ⟨offsets,patternNormalized⟩ := scan.sought
  simp only [try_pass,scan.normalized,patternNormalized,bind_eq_bind,bind_some]
  cases blank : pattern.is_empty with
  | true => simp [scan.blank blank]
  | false =>
    have scanned := scan.scanned blank
    have limited := @matchesFrom_limited text pattern limit _ _ _ _ scanned (Nat.zero_le _)
    rw [non_overlapping_matches] at scanned ⊢
    rw [limited,non_overlapping_matches,scanned]
    by_cases few : starts.length ≤ limit
    · rw [if_pos few,if_pos few]
    · rw [if_neg few,if_neg few]
      rfl

theorem Scan.tried (scan : Scan pass content old_string text pattern map starts) :
    (try_pass pass content old_string none = some .NoCandidates → starts = []) ∧
      (try_pass pass content old_string none = some (.Found spans) →
        pattern.is_empty = false ∧ validateCandidates pass content pattern map starts = some spans ∧ spans ≠ []) := by
  obtain ⟨offsets,patternNormalized⟩ := scan.sought
  simp only [try_pass,scan.normalized,patternNormalized,bind_eq_bind,bind_some]
  cases blank : pattern.is_empty with
  | true => simp [scan.blank blank]
  | false =>
    rw [scan.scanned blank]
    simp only [Bool.false_eq_true,if_false,bind_some]
    cases starts with
    | nil => simp
    | cons start rest =>
      simp only [reduceCtorEq,imp_false,Bool.false_eq_true,if_false]
      constructor
      · intro tried
        obtain ⟨validated,_,outcome⟩ := bind_eq_some_iff.mp tried
        split_ifs at outcome <;> cases outcome
      · intro tried
        obtain ⟨validated,validates,outcome⟩ := bind_eq_some_iff.mp tried
        split_ifs at outcome with none <;> cases outcome
        exact ⟨trivial,validates,by simpa using none⟩

/-- The spans come from the starts, in their order. -/
theorem validated_from : ∀ {starts : List Nat} {spans : List Range},
    validateCandidates pass content pattern map starts = some spans →
    spans.length ≤ starts.length ∧
      ∀ span ∈ spans, ∃ n ∈ starts, map[n]? = some span.start ∧ map[n + pattern.len]? = some span.stop := by
  intro starts
  induction starts with
  | nil =>
    intro spans validated
    cases validated
    simp
  | cons start rest ih =>
    intro spans validated
    simp only [validateCandidates,bind_eq_bind] at validated
    obtain ⟨original_start,first,validated⟩ := bind_eq_some_iff.mp validated
    obtain ⟨original_end,last,validated⟩ := bind_eq_some_iff.mp validated
    split_ifs at validated with inverted
    · obtain ⟨fewer,each⟩ := ih validated
      exact ⟨by simp; omega,fun span member => (each span member).imp fun n listed => ⟨by simp [listed.1],listed.2⟩⟩
    · obtain ⟨removed,_,validated⟩ := bind_eq_some_iff.mp validated
      obtain ⟨normalized,_,validated⟩ := bind_eq_some_iff.mp validated
      obtain ⟨later,validates,outcome⟩ := bind_eq_some_iff.mp validated
      obtain ⟨fewer,each⟩ := ih validates
      have others : ∀ span ∈ later, ∃ n ∈ start :: rest, map[n]? = some span.start ∧
        map[n + pattern.len]? = some span.stop :=
        fun span member => (each span member).imp fun n listed => ⟨by simp [listed.1],listed.2⟩
      split_ifs at outcome
      · cases outcome
        exact ⟨by simp; omega,others⟩
      · cases outcome
        exact ⟨by simpa using fewer,forall_mem_cons.mpr ⟨⟨start,by simp,first,last⟩,others⟩⟩

/-- What one start gives is among what all give. -/
theorem validated_each : ∀ {starts : List Nat} {spans : List Range},
    validateCandidates pass content pattern map starts = some spans →
    ∀ n ∈ starts, ∃ own, validateCandidates pass content pattern map [n] = some own ∧ ∀ span ∈ own, span ∈ spans := by
  intro starts
  induction starts with
  | nil => simp
  | cons start rest ih =>
    intro spans validated
    simp only [validateCandidates,bind_eq_bind] at validated
    obtain ⟨original_start,first,validated⟩ := bind_eq_some_iff.mp validated
    obtain ⟨original_end,last,validated⟩ := bind_eq_some_iff.mp validated
    rw [forall_mem_cons]
    split_ifs at validated with inverted
    · exact ⟨⟨[],by simp [validateCandidates,first,last,inverted],by simp⟩,ih validated⟩
    · obtain ⟨removed,sliced,validated⟩ := bind_eq_some_iff.mp validated
      obtain ⟨⟨text,_⟩,normalized,validated⟩ := bind_eq_some_iff.mp validated
      obtain ⟨later,validates,outcome⟩ := bind_eq_some_iff.mp validated
      refine ⟨⟨if text = pattern then [⟨original_start,original_end⟩] else [],
        by simp [validateCandidates,first,last,inverted,sliced,normalized],?_⟩,fun n member => ?_⟩
      · cases outcome
        split_ifs <;> simp_all
      · obtain ⟨own,made,kept⟩ := ih validates n member
        refine ⟨own,made,fun span found => ?_⟩
        cases outcome
        split_ifs
        · exact kept span found
        · exact mem_cons_of_mem _ (kept span found)

end

/-! ### Locating with a limit -/

section
variable {content old_string : Str} {limit : Nat} {pass : MatchPass} {spans : List Range}

theorem climb_found : ∀ {passes : List MatchPass}, climb content old_string none passes =
    some (.ok (.Found pass spans)) →
    try_pass pass content old_string none = some (.Found spans) := by
  intro passes
  induction passes with
  | nil => exact fun climbed => by cases climbed
  | cons first rest ih =>
    intro climbed
    obtain ⟨result,tried,climbed⟩ := bind_eq_some_iff.mp climbed
    cases result with
    | Found =>
      cases climbed
      exact tried
    | NoCandidates => exact ih climbed
    | Ambiguous => cases climbed
    | TooMany => cases climbed

/-- Below the limit the ladder stops at the same rung. -/
theorem climb_limited {search : MatchSearch} : ∀ {passes : List MatchPass},
    climb content old_string (some limit) passes = some (.ok search) →
      climb content old_string none passes = some (.ok search) ∧ ∀ pass spans, search = .Found pass spans →
        spans.length ≤ limit := by
  intro passes
  induction passes with
  | nil =>
    intro climbed
    cases climbed
    exact ⟨rfl,fun _ _ same => by cases same⟩
  | cons first rest ih =>
    intro climbed
    obtain ⟨text,pattern,map,starts,scan⟩ := scan first content old_string
    obtain ⟨result,tried,climbed⟩ := bind_eq_some_iff.mp climbed
    rw [scan.limited] at tried
    split_ifs at tried with few
    · simp only [climb,tried,bind_eq_bind,bind_some]
      cases result with
      | Found spans =>
        cases climbed
        refine ⟨rfl,fun pass spans same => ?_⟩
        cases same
        exact (validated_from (scan.tried.2 tried).2.1).1.trans few
      | Ambiguous =>
        cases climbed
        exact ⟨rfl,fun _ _ same => by cases same⟩
      | TooMany => cases climbed
      | NoCandidates => exact ih climbed
    · cases tried
      cases climbed

theorem climb_unlimited (few : ∀ starts, rawCandidates pass content old_string = some starts → starts.length ≤ limit) :
    ∀ {passes : List MatchPass}, climb content old_string none passes = some (.ok (.Found pass spans)) →
      climb content old_string (some limit) passes = some (.ok (.Found pass spans)) := by
  intro passes
  induction passes with
  | nil => exact fun climbed => by cases climbed
  | cons first rest ih =>
    intro climbed
    obtain ⟨text,pattern,map,starts,scan⟩ := scan first content old_string
    obtain ⟨result,tried,climbed⟩ := bind_eq_some_iff.mp climbed
    simp only [climb,scan.limited,bind_eq_bind]
    cases result with
    | Found found =>
      cases climbed
      rw [if_pos (few starts scan.raw),tried]
      rfl
    | Ambiguous => cases climbed
    | TooMany => cases climbed
    | NoCandidates =>
      have none := @Scan.tried _ _ _ _ _ _ _ [] scan
      rw [if_pos (by simp [none.1 tried]),tried]
      exact ih climbed

theorem locate_found {max_matches : Option Nat} (visible : old_string.is_empty = false) :
    locate_with_limit content old_string max_matches = climb content old_string max_matches LADDER := by
  rw [locate_with_limit,if_neg (by simp [visible])]

end

/-! ### Editing with bounds -/

/-- What an edit goes through when it is made. -/
def Made (request : EditRequest) (max_output_bytes max_matches : Option Nat) (o : EditOutcome) : Prop :=
  (request.old_string.is_empty = true ∧ request.content.is_empty = true ∧
    enforce_output_limit request.new_string.len max_output_bytes = .ok () ∧
    o = ⟨request.new_string,1,.NewContent,[⟨⟨0,0⟩,0,request.new_string.len⟩]⟩) ∨
  (request.old_string.is_empty = false ∧ request.old_string ≠ request.new_string ∧ ∃ pass spans output_len,
    locate_with_limit request.content request.old_string max_matches = some (.ok (.Found pass spans)) ∧
    (request.replace_all = true ∨ spans.length ≤ 1) ∧
    replacement_output_len request.content.len spans request.new_string.len = some output_len ∧
    enforce_output_limit output_len max_output_bytes = .ok () ∧
      splice request.content spans request.new_string pass = some o)

theorem compute_edit_inner_ok {max_output_bytes max_matches : Option Nat} :
    compute_edit_inner request max_output_bytes max_matches = some (.ok o) ↔
      Made request max_output_bytes max_matches o := by
  unfold compute_edit_inner Made
  cases old : request.old_string.is_empty with
  | true =>
    simp only [if_true,true_and,Bool.true_eq_false,false_and,or_false]
    cases content : request.content.is_empty with
    | true =>
      cases limited : enforce_output_limit request.new_string.len max_output_bytes <;> simp [eq_comm]
    | false => simp
  | false =>
    simp only [Bool.false_eq_true,if_false,false_and,false_or,true_and]
    by_cases noop : request.old_string = request.new_string
    · simp [noop]
    · rw [if_neg noop]
      simp only [ne_eq,noop,not_false_eq_true,true_and,bind_eq_bind]
      cases located : locate_with_limit request.content request.old_string max_matches with
      | none => simp
      | some search =>
        rcases search with limit | (⟨pass,spans⟩ | _ | _)
        · simp
        · simp only [bind_some]
          constructor
          · intro made
            have few : ¬((!request.replace_all && decide (1 < spans.length)) = true) :=
              fun several => by simp [several] at made
            rw [if_neg few] at made
            cases computed : replacement_output_len request.content.len spans request.new_string.len with
            | none => simp [computed] at made
            | some output_len =>
              simp only [computed] at made
              cases limited : enforce_output_limit output_len max_output_bytes with
              | error => simp [limited] at made
              | ok =>
                simp only [limited,map_eq_some_iff,Except.ok.injEq] at made
                obtain ⟨_,spliced,rfl⟩ := made
                refine ⟨pass,spans,output_len,rfl,?_,computed,limited,spliced⟩
                cases all : request.replace_all <;> simp_all
          · rintro ⟨pass',spans',output_len,same,several,computed,limited,spliced⟩
            cases same
            rw [if_neg (by rcases several with all | few <;> simp_all)]
            simp [computed,limited,spliced]
        · simp
        · simp

theorem enforced {output_len limit : Nat} : enforce_output_limit output_len (some limit) = .ok () ↔
    output_len ≤ limit := by
  simp only [enforce_output_limit]
  split_ifs with more
  · simp [more]
  · simpa using more

theorem spliceSpans_originals {content new_string built : Str} : ∀ {spans : List Range} {cursor : Nat}
    {new_content : Str}
    {replaced recorded : List ReplacedSpan}, spliceSpans content new_string cursor spans new_content replaced =
    some (built,recorded) →
      recorded.map ReplacedSpan.original = replaced.map ReplacedSpan.original ++ spans := by
  intro spans
  induction spans with
  | nil =>
    intro cursor new_content replaced recorded spliced
    obtain ⟨rest,_,same⟩ := bind_eq_some_iff.mp spliced
    cases same
    simp
  | cons span spans ih =>
    intro cursor new_content replaced recorded spliced
    obtain ⟨kept,_,spliced⟩ := bind_eq_some_iff.mp spliced
    simpa using ih spliced

variable {spans : List Range}

theorem splice_records {content new_string : Str} (spliced : splice content spans new_string pass = some o) :
    o.replacements = spans.length ∧ o.matched_pass = pass ∧ o.spans.map ReplacedSpan.original = spans := by
  obtain ⟨⟨built,recorded⟩,loop,same⟩ := bind_eq_some_iff.mp spliced
  cases same
  exact ⟨rfl,rfl,by simpa using spliceSpans_originals loop⟩

/-- The length that is checked is the length of the text that is built. -/
theorem made_len {max_matches : Option Nat} {output_len : Nat} (visible : request.old_string.is_empty = false)
    (located : locate_with_limit request.content request.old_string max_matches = some (.ok (.Found pass spans)))
    (computed : replacement_output_len request.content.len spans request.new_string.len = some output_len)
    (spliced : splice request.content spans request.new_string pass = some o) : output_len = o.new_content.len := by
  obtain ⟨search,found,spec⟩ := locate_spec request.content request.old_string max_matches
  rw [located,some.injEq] at found
  obtain ⟨other,again,faithful⟩ := splice_faithful visible (spec pass spans found.symm) computed
  rw [spliced,some.injEq] at again
  subst again
  have length := faithful.length
  rw [precomputedLen,if_neg (by simp [visible]),(splice_records spliced).2.2,computed] at length
  exact some.inj length

/-- The bounds keep nothing else out and let nothing else through. An empty pattern
writes a new file, which counts as one replacement whatever the limit. -/
theorem bounded_edit_is_the_edit (request : EditRequest) (max_output_bytes max_matches : Nat) (o : EditOutcome) :
    (compute_edit_bounded request max_output_bytes max_matches = some (.ok o) →
      compute_edit request = some (.ok o) ∧ o.new_content.len ≤ max_output_bytes ∧
        (o.replacements ≤ max_matches ∨ request.old_string.is_empty = true ∧ o.replacements = 1)) ∧
    (compute_edit request = some (.ok o) → o.new_content.len ≤ max_output_bytes →
      (∀ starts, rawCandidates o.matched_pass request.content request.old_string = some starts →
        starts.length ≤ max_matches) →
      compute_edit_bounded request max_output_bytes max_matches = some (.ok o)) := by
  unfold compute_edit_bounded compute_edit
  rw [compute_edit_inner_ok,compute_edit_inner_ok]
  constructor
  · rintro (⟨old,content,within,rfl⟩ | ⟨old,differs,pass,spans,output_len,located,several,computed,within,spliced⟩)
    · exact ⟨.inl ⟨old,content,rfl,rfl⟩,enforced.mp within,.inr ⟨old,rfl⟩⟩
    · have length := made_len old located computed spliced
      rw [locate_found old] at located
      obtain ⟨unlimited,few⟩ := climb_limited located
      rw [← locate_found old] at unlimited
      refine ⟨.inr ⟨old,differs,pass,spans,output_len,unlimited,several,computed,rfl,spliced⟩,
        length ▸ enforced.mp within,.inl ?_⟩
      rw [(splice_records spliced).1]
      exact few pass spans rfl
  · rintro (⟨old,content,_,rfl⟩ | ⟨old,differs,pass,spans,output_len,located,several,computed,_,spliced⟩) short few
    · exact .inl ⟨old,content,enforced.mpr short,rfl⟩
    · have length := made_len old located computed spliced
      rw [(splice_records spliced).2.1] at few
      refine .inr ⟨old,differs,pass,spans,output_len,?_,several,computed,enforced.mpr (length ▸ short),spliced⟩
      rw [locate_found old] at located ⊢
      exact climb_unlimited few located

/-- Writing a new file is one replacement, also where none is allowed. -/
theorem new_file_ignores_the_limit :
    compute_edit_bounded ⟨.empty,.empty,.of "a",false⟩ 1 0 = some (.ok ⟨.of "a",1,.NewContent,[⟨⟨0,0⟩,0,1⟩]⟩) := by
  decide +kernel

/-! ### The only target -/

/-- A range of the content that a pass takes for the pattern. -/
structure Target (pass : MatchPass) (content old_string : Str) (a b : Nat) : Prop where
  someBytes : a < b
  same : ∃ removed pattern offsets offsets', content.slice a b = some removed ∧
    normalize pass removed = some (pattern,offsets) ∧ normalize pass old_string = some (pattern,offsets')

/-- The scan loses a target: it steps over the start with another candidate, or it drops the candidate at the start. -/
def Lost (pass : MatchPass) (content old_string : Str) (a b : Nat) : Prop :=
  ∃ text pattern map starts n, Scan pass content old_string text pattern map starts ∧
    StandsAt text map a b pattern.bytes n ∧
    ∃ start ∈ starts, start < n ∧ n < start + pattern.len ∨ start = n ∧
      validateCandidates pass content pattern map [n] = some []

variable {content old_string : Str}

/-- A target that is not lost overlaps a range that was validated. -/
theorem Scan.overlaps {starts : List Nat} (scan : Scan pass content old_string text pattern map starts)
    (visible : pattern.is_empty = false) (validated : validateCandidates pass content pattern map starts = some spans)
    (hits : ∀ span ∈ spans, Hit pass content pattern span) (target : Target pass content old_string a b) :
    Lost pass content old_string a b ∨ ∃ span ∈ spans, a < span.stop ∧ span.start < b := by
  have length : 0 < pattern.bytes.length := length_pos_iff.mpr (by simpa [Str.is_empty] using visible)
  obtain ⟨offsets,sought⟩ := scan.sought
  obtain ⟨removed,other,_,_,sliced,normalized,again⟩ := target.same
  rw [sought,some.injEq,Prod.mk.injEq] at again
  obtain ⟨rfl,-⟩ := again
  obtain ⟨n,stands⟩ := normalize_within scan.normalized sliced normalized
  obtain ⟨start,member,low,high⟩ :=
    (matchesFrom_covers (scan.scanned visible)).2 n (Nat.zero_le _) (by omega) stands.2.1
  rcases Nat.eq_or_lt_of_le low with rfl | stepped
  · obtain ⟨own,made,kept⟩ := validated_each validated start member
    cases own with
    | nil => exact .inl ⟨text,pattern,map,starts,start,scan,stands,start,member,.inr ⟨rfl,made⟩⟩
    | cons span own =>
      obtain ⟨_,here,first,_⟩ := (validated_from made).2 span (by simp)
      rw [mem_singleton.mp here] at first
      obtain ⟨offset,mapped,fromA,beforeB⟩ := stands.2.2 0 length
      cases first.symm.trans mapped
      have := (hits span (kept span (by simp))).someBytes
      exact .inr ⟨span,kept span (by simp),by omega,beforeB⟩
  · exact .inl ⟨text,pattern,map,starts,n,scan,stands,start,member,.inl ⟨stepped,high⟩⟩

theorem newline_char {c : Char} (member : (0x0a : UInt8) ∈ String.utf8EncodeChar c) : c = '\n' := by
  obtain ⟨first,rest,bytes,_,continues⟩ := encode_char_bytes c
  rw [bytes] at member
  have start : (0x0a : UInt8) = first := by
    rcases mem_cons.mp member with same | later
    · exact same
    · exact absurd (continues _ later) (by decide)
  have newline : String.utf8EncodeChar '\n' <+: String.utf8EncodeChar c := by
    rw [bytes,← start,show String.utf8EncodeChar '\n' = [0x0a] by decide]
    exact ⟨rest,rfl⟩
  have decoded := decodeFirst_eq_some.mpr newline
  rw [decodeFirst_eq_some.mpr (prefix_refl _)] at decoded
  exact some.inj decoded

theorem folded_newline {c : Char} (member : (0x0a : UInt8) ∈ encode ((fold_character c).getD [c])) : c = '\n' := by
  unfold fold_character at member
  dsimp only at member
  split_ifs at member
  all_goals simp only [getD_some,getD_none] at member
  all_goals first
    | exact newline_char (by simpa using member)
    | exact absurd member (by decide)

/-- A normalization keeps the newlines, as newlines, and each once. -/
structure Newlines (content text : Bytes) (map : List Nat) : Prop where
  kept : ∀ i : Nat, content[i]? = some 0x0a → ∃ index : Nat, index < text.length ∧ map[index]? = some i
  inside : ∀ index offset : Nat, index < text.length → map[index]? = some offset → offset < content.length
  same : ∀ index offset : Nat, index < text.length → map[index]? = some offset →
    (content[offset]? = some 0x0a ↔ text[index]? = some 0x0a)
  once : ∀ index index' offset : Nat, map[index]? = some offset → map[index']? = some offset →
    content[offset]? = some 0x0a → index = index'

theorem strip_newlines {mode : LineEdge}
    (stripped : strip_line_edges input mode = some (text,map)) : Newlines input.bytes text.bytes map := by
  obtain ⟨offsets,rfl,keeps,tracks⟩ := strip_line_edges_keeps stripped
  constructor
  · intro i here
    have member := (keeps.mem i).mpr ⟨Nat.zero_le _,(List.getElem?_eq_some_iff.mp here).1,fun lost => lost.1 here⟩
    obtain ⟨index,found⟩ := List.mem_iff_getElem?.mp member
    have inside := (List.getElem?_eq_some_iff.mp found).1
    exact ⟨index,by rw [tracks.length] at inside; exact inside,by rw [List.getElem?_append_left inside,found]⟩
  · intro index offset inside mapped
    rw [List.getElem?_append_left (by rw [tracks.length]; exact inside)] at mapped
    exact ((keeps.mem offset).mp (List.mem_of_getElem? mapped)).2.1
  · intro index offset inside mapped
    obtain ⟨source,found,same⟩ := tracks.byte index inside
    rw [List.getElem?_append_left (by rw [tracks.length]; exact inside),found,some.injEq] at mapped
    rw [← same,mapped]
  · intro index index' offset first second _
    have ascending : (offsets ++ [input.len]).Pairwise (· < ·) :=
      List.pairwise_append.mpr ⟨keeps.ascending,List.pairwise_singleton _ _,
      fun p member q last => List.mem_singleton.mp last ▸ ((keeps.mem p).mp member).2.1⟩
    exact (List.getElem?_inj (List.getElem?_eq_some_iff.mp first).1 (ascending.imp ne_of_lt)).mp
      (first.trans second.symm)

theorem fold_newlines : ∀ (cs : List Char) (offset : Nat),
    (∀ i : Nat, (encode cs)[i]? = some 0x0a → ∃ q : Nat, (foldChars offset cs).2[q]? = some (offset + i)) ∧
      (∀ q source : Nat, (foldChars offset cs).2[q]? = some source →
        ((encode cs)[source - offset]? = some 0x0a ↔ (encode (folded cs))[q]? = some 0x0a)) ∧
      ∀ q q' source : Nat, (foldChars offset cs).2[q]? = some source → (foldChars offset cs).2[q']? = some source →
        (encode cs)[source - offset]? = some 0x0a → q = q' := by
  intro cs
  induction cs with
  | nil => simp [foldChars]
  | cons c cs ih =>
    intro offset
    obtain ⟨kept,same,once⟩ := ih (offset + c.utf8Size)
    have size := String.length_utf8EncodeChar c
    have wide : 0 < c.utf8Size := Char.utf8Size_pos c
    obtain ⟨_,_,bounds⟩ := foldChars_offsets (offset + c.utf8Size) cs
    have parts : encode (folded (c :: cs)) = encode ((fold_character c).getD [c]) ++ encode (folded cs) := by
      simp [folded,encode_append]
    -- a byte of the first character has its offset, the others later ones
    have first : ∀ {q source : Nat}, q < (encode ((fold_character c).getD [c])).length →
        (replicate (encode ((fold_character c).getD [c])).length offset ++ (foldChars (offset + c.utf8Size) cs).2)[q]? =
          some source → source = offset := by
      intro q source early found
      rw [getElem?_append_left (by simpa using early),getElem?_replicate,if_pos early,some.injEq] at found
      exact found.symm
    have later : ∀ {q source : Nat}, (encode ((fold_character c).getD [c])).length ≤ q →
        (replicate (encode ((fold_character c).getD [c])).length offset ++ (foldChars (offset + c.utf8Size) cs).2)[q]? =
          some source →
        (foldChars (offset + c.utf8Size) cs).2[q - (encode ((fold_character c).getD [c])).length]? = some source ∧
          offset + c.utf8Size ≤ source ∧
          (String.utf8EncodeChar c ++ encode cs)[source - offset]? = (encode cs)[source - (offset + c.utf8Size)]? := by
      intro q source late found
      rw [getElem?_append_right (by simpa using late),length_replicate] at found
      have after := (bounds source (mem_of_getElem? found)).1
      refine ⟨found,after,?_⟩
      rw [getElem?_append_right (by omega),size,show source - (offset + c.utf8Size) =
        source - offset - c.utf8Size by omega]
    simp only [foldChars,foldChars_eq,encode_cons]
    refine ⟨fun i here => ?_,fun q source found => ?_,fun q q' source found found' here => ?_⟩
    · rcases Nat.lt_or_ge i c.utf8Size with early | late
      · rw [getElem?_append_left (by omega)] at here
        obtain rfl := newline_char (mem_of_getElem? here)
        have zero : i = 0 := by
          have : ('\n').utf8Size = 1 := by decide
          omega
        exact ⟨0,by subst zero; rfl⟩
      · rw [getElem?_append_right (by omega),size] at here
        obtain ⟨q,found⟩ := kept (i - c.utf8Size) here
        refine ⟨(encode ((fold_character c).getD [c])).length + q,?_⟩
        rw [getElem?_append_right (by simp),length_replicate,Nat.add_sub_cancel_left,found]
        congr 1
        omega
    · rw [parts]
      rcases Nat.lt_or_ge q (encode ((fold_character c).getD [c])).length with early | late
      · rw [first early found,Nat.sub_self,getElem?_append_left (by omega),getElem?_append_left early]
        constructor
        · intro here
          obtain rfl := newline_char (mem_of_getElem? here)
          have one : q = 0 := by
            have : (encode ((fold_character '\n').getD ['\n'])).length = 1 := by decide
            omega
          subst one
          decide
        · intro here
          obtain rfl := folded_newline (mem_of_getElem? here)
          decide
      · obtain ⟨found,_,byte⟩ := later late found
        rw [byte,getElem?_append_right late]
        exact same _ source found
    · rcases Nat.lt_or_ge q (encode ((fold_character c).getD [c])).length with early | late
      · rcases Nat.lt_or_ge q' (encode ((fold_character c).getD [c])).length with early' | late'
        · rw [first early found,Nat.sub_self,getElem?_append_left (by omega)] at here
          obtain rfl := newline_char (mem_of_getElem? here)
          have : (encode ((fold_character '\n').getD ['\n'])).length = 1 := by decide
          omega
        · have := first early found
          have := (later late' found').2.1
          omega
      · obtain ⟨found,after,byte⟩ := later late found
        rcases Nat.lt_or_ge q' (encode ((fold_character c).getD [c])).length with early' | late'
        · have := first early' found'
          omega
        · rw [byte] at here
          have := once _ _ source found (later late' found').1 here
          omega

theorem normalize_newlines {content text : Str}
    (normalized : normalize pass content = some (text,map)) : Newlines content.bytes text.bytes map := by
  cases pass with
  | Exact | NewContent =>
    cases normalized
    have own : ∀ index : Nat, index < content.bytes.length → (List.range (content.len + 1))[index]? = some index :=
      fun index inside => List.getElem?_range (Nat.lt_succ_of_lt inside)
    refine ⟨fun i here => ⟨i,(List.getElem?_eq_some_iff.mp here).1,own i (List.getElem?_eq_some_iff.mp here).1⟩,
      fun index offset inside mapped => ?_,
        fun index offset inside mapped => ?_,fun index index' offset first second _ => ?_⟩
    · rw [own index inside,some.injEq] at mapped
      exact mapped ▸ inside
    · rw [own index inside,some.injEq] at mapped
      rw [mapped]
    · exact (List.getElem?_inj (List.getElem?_eq_some_iff.mp first).1 List.nodup_range).mp (first.trans second.symm)
  | TrailingWhitespace | LineTrim => exact strip_newlines normalized
  | UnicodeNormalized =>
    obtain ⟨⟨trimmed,trim_map⟩,stripped,composes⟩ := bind_eq_some_iff.mp normalized
    obtain ⟨composed,mapped,same⟩ := bind_eq_some_iff.mp composes
    cases same
    obtain ⟨kept,same,once⟩ := fold_newlines (chars content) 0
    obtain ⟨length,_,bounds⟩ := foldChars_offsets 0 (chars content)
    have trim := strip_newlines stripped
    simp only [foldChars_eq] at trim
    simp only [chars_encode,Nat.zero_add,Nat.sub_zero] at kept same once bounds
    have source : ∀ index offset : Nat, index < text.bytes.length → map[index]? = some offset →
        ∃ q, trim_map[index]? = some q ∧ (foldChars 0 (chars content)).2[q]? = some offset := by
      intro index offset inside found
      rw [composed_offset mapped] at found
      obtain ⟨q,listed,source⟩ := bind_eq_some_iff.mp found
      rw [List.getElem?_append_left (by rw [length]; exact trim.inside index q inside listed)] at source
      exact ⟨q,listed,source⟩
    refine ⟨fun i here => ?_,fun index offset inside found => ?_,
      fun index offset inside found => ?_,fun index index' offset found found' here => ?_⟩
    · obtain ⟨q,found⟩ := kept i here
      obtain ⟨index,within,listed⟩ := trim.kept q ((same q i found).mp here)
      refine ⟨index,within,?_⟩
      rw [composed_offset mapped,listed]
      exact (List.getElem?_append_left (List.getElem?_eq_some_iff.mp found).1).trans found
    · obtain ⟨q,_,origin⟩ := source index offset inside found
      exact (bounds offset (List.mem_of_getElem? origin)).2
    · obtain ⟨q,listed,origin⟩ := source index offset inside found
      rw [same q offset origin,trim.same index q inside listed]
    · have inner : ∀ {index : Nat}, map[index]? = some offset →
        ∃ q, trim_map[index]? = some q ∧ (foldChars 0 (chars content)).2[q]? = some offset := by
        intro index found
        rw [composed_offset mapped] at found
        obtain ⟨q,listed,source⟩ := bind_eq_some_iff.mp found
        refine ⟨q,listed,?_⟩
        rcases Nat.lt_or_ge q (foldChars 0 (chars content)).2.length with before | behind
        · rwa [List.getElem?_append_left before] at source
        · rw [List.getElem?_append_right behind,List.getElem?_singleton] at source
          split_ifs at source
          have := (List.getElem?_eq_some_iff.mp here).1
          simp only [Str.len,some.injEq] at source
          omega
      obtain ⟨q,listed,origin⟩ := inner found
      obtain ⟨q',listed',origin'⟩ := inner found'
      cases once q q' offset origin origin' here
      exact trim.once index index' q listed listed' ((same q offset origin).mp here)

/-- No line ends between the two offsets. -/
def SameLine (bytes : Bytes) (i j : Nat) : Prop := ∀ r, min i j ≤ r → r < max i j → bytes[r]? ≠ some 0x0a

/-- The span is that of a match, and every byte of it is on a line of a byte that was matched. -/
def OnPatternLines (pass : MatchPass) (content old_string : Str) (span : Range) : Prop :=
  ∃ text map pattern offsets n, normalize pass content = some (text,map) ∧
    normalize pass old_string = some (pattern,offsets) ∧
    pattern.bytes <+: text.bytes.drop n ∧ map[n]? = some span.start ∧ map[n + pattern.len]? = some span.stop ∧
    ∀ i, span.start ≤ i → i < span.stop → ∃ k < pattern.len, ∃ j, map[n + k]? = some j ∧ SameLine content.bytes i j
/-- The last newline before an offset. -/
def LastNewline (bytes : Bytes) (stop p : Nat) : Prop :=
  bytes[p]? = some 0x0a ∧ p < stop ∧ ∀ r, p < r → r < stop → bytes[r]? ≠ some 0x0a
/-- If the pattern ends a line, what follows the last newline of the span is kept by the normalization, or is the
    end. -/
def Unindented (pass : MatchPass) (content old_string : Str) (span : Range) : Prop :=
  ∀ text map pattern offsets, normalize pass content = some (text,map) →
    normalize pass old_string = some (pattern,offsets) →
    pattern.bytes.getLast? = some 0x0a → ∀ p, LastNewline content.bytes span.stop p → p + 1 ∈ map

/-- A value between two ends is passed at some step. -/
theorem step_over (f : Nat → Nat) (i : Nat) (low : f 0 ≤ i) : ∀ m, i < f m → ∃ k < m, f k ≤ i ∧ i < f (k + 1)
  | 0, high => absurd high (by omega)
  | m + 1, high => by
    rcases Nat.lt_or_ge i (f m) with below | reached
    · obtain ⟨k,less,passed⟩ := step_over f i low m below
      exact ⟨k,by omega,passed⟩
    · exact ⟨m,by omega,reached,high⟩

section
variable {content text pattern : Bytes} {map : List Nat} {n start stop : Nat}

/-- A pattern that ends a line has its last byte at the last newline of the range. -/
theorem last_newline_of_match (newlines : Newlines content text map) (ascending : map.Pairwise (· ≤ ·))
    (there : pattern <+: text.drop n) (within : n + pattern.length ≤ text.length)
    (last : map[n + pattern.length]? = some stop)
    (ends : pattern.getLast? = some 0x0a) {j : Nat} (mapped : map[n + (pattern.length - 1)]? = some j) :
    LastNewline content stop j := by
  have someBytes : pattern ≠ [] := by
    rintro rfl
    cases ends
  have length := length_pos_iff.mpr someBytes
  have byte : text[n + (pattern.length - 1)]? = some 0x0a := by
    obtain ⟨rest,split⟩ := there
    rw [← getElem?_drop,← split,getElem?_append_left (by omega),← getLast?_eq_getElem?,ends]
  have newline := (newlines.same _ j (by omega) mapped).mpr byte
  refine ⟨newline,?_,fun r after before here => ?_⟩
  · refine lt_of_le_of_ne (ascending_at ascending (by omega) mapped last) ?_
    rintro rfl
    have := newlines.once _ _ j mapped last newline
    omega
  · obtain ⟨index,_,listed⟩ := newlines.kept r here
    rcases Nat.lt_or_ge index (n + pattern.length) with earlier | later
    · have := ascending_at ascending (by omega : index ≤ n + (pattern.length - 1)) listed mapped
      omega
    · have := ascending_at ascending later last listed
      omega

/-- Between two matched bytes no line is skipped, and the last one is followed by the rest of its line at most. -/
theorem linesOf_match (newlines : Newlines content text map) (ascending : map.Pairwise (· ≤ ·))
    (length : map.length = text.length + 1) (within : n + pattern.length ≤ text.length) (first : map[n]? = some start)
    (last : map[n + pattern.length]? = some stop) (closed : ∀ j, map[n + (pattern.length - 1)]? = some j →
      content[j]? = some 0x0a → stop ≤ j + 1)
    {i : Nat} (low : start ≤ i) (high : i < stop) : ∃ k < pattern.length, ∃ j, map[n + k]? = some j ∧
      SameLine content i j := by
  have defined : ∀ k ≤ pattern.length, map[n + k]? = some (map.getD (n + k) 0) := fun k le => by
    rw [getD_eq_getElem?_getD,getElem?_eq_getElem (by omega)]
    rfl
  have begins : map.getD (n + 0) 0 ≤ i := by rwa [getD_eq_getElem?_getD,Nat.add_zero,first]
  have ends : i < map.getD (n + pattern.length) 0 := by rwa [getD_eq_getElem?_getD,last]
  obtain ⟨k,less,reached,passed⟩ := step_over (fun k => map.getD (n + k) 0) i begins pattern.length ends
  have here := defined k less.le
  have next := defined (k + 1) less
  generalize map.getD (n + k) 0 = j at here reached
  generalize map.getD (n + (k + 1)) 0 = j' at next passed
  have between : ∀ r, j < r → r < j' → content[r]? ≠ some 0x0a := by
    intro r after before newline
    obtain ⟨index,_,listed⟩ := newlines.kept r newline
    rcases Nat.lt_or_ge (n + k) index with later | earlier
    · have := ascending_at ascending (by omega : n + (k + 1) ≤ index) next listed
      omega
    · have := ascending_at ascending earlier listed here
      omega
  by_cases newline : content[j]? = some 0x0a
  · rcases Nat.eq_or_lt_of_le reached with rfl | behind
    · exact ⟨k,less,_,here,fun r after before => by omega⟩
    · have more : k + 1 < pattern.length := by
        by_contra ends
        have := closed j (by rwa [show pattern.length - 1 = k by omega]) newline
        omega
      exact ⟨k + 1,more,j',next,fun r after before => between r (by omega) (by omega)⟩
  · refine ⟨k,less,j,here,fun r after before => ?_⟩
    rcases Nat.eq_or_lt_of_le (by omega : j ≤ r) with rfl | later
    · exact newline
    · exact between r later (by omega)

end

/-- A span that covers lines of its pattern only leaves the line behind it alone. -/
theorem unindented_of_lines {span : Range} (lines : OnPatternLines pass content old_string span) :
    Unindented pass content old_string span := by
  obtain ⟨text,map,pattern,offsets,n,normalized,sought,there,first,last,covered⟩ := lines
  intro text' map' pattern' offsets' normalized' sought' ends p newline
  cases normalized.symm.trans normalized'
  cases sought.symm.trans sought'
  have ascending := normalize_ascending normalized
  have newlines := normalize_newlines normalized
  have someBytes : pattern.bytes ≠ [] := by
    intro empty
    simp [empty] at ends
  have length := List.length_pos_iff.mpr someBytes
  have within : n + pattern.bytes.length ≤ text.bytes.length := by
    have := there.length_le
    rw [List.length_drop] at this
    omega
  have inside : n + (pattern.bytes.length - 1) < map.length := by
    have := (List.getElem?_eq_some_iff.mp last).1
    simp only [Str.len] at this
    omega
  have mapped := List.getElem?_eq_getElem inside
  generalize map[n + (pattern.bytes.length - 1)] = j at mapped
  obtain ⟨here,before,noneBehind⟩ := last_newline_of_match newlines ascending there within last ends mapped
  have same : p = j := by
    rcases Nat.lt_trichotomy p j with less | same | more
    · exact absurd here (newline.2.2 j less before)
    · exact same
    · exact absurd newline.1 (noneBehind p more newline.2.1)
  rw [same]
  rcases Nat.eq_or_lt_of_le (Nat.succ_le_of_lt before) with endsThere | more
  · exact List.mem_of_getElem? (last.trans (by rw [← endsThere]))
  · have low := ascending_at ascending (Nat.le_add_right n _) first mapped
    obtain ⟨k,less,j',found,line⟩ := covered (j + 1) (by omega) more
    have := ascending_at ascending
      (by simp only [Str.len] at less; omega : n + k ≤ n + (pattern.bytes.length - 1)) found mapped
    exact absurd here (line j (by omega) (by omega))

/-- A span covers lines of its pattern only, if and only if the line behind it is not indented, where the pattern ends a
    line. -/
theorem spans_stay_on_pattern_lines {content old_string : Str} {pass : MatchPass} {spans : List Range}
    (located : locate_with_limit content old_string none = some (.ok (.Found pass spans))) :
    ∀ span ∈ spans, OnPatternLines pass content old_string span ↔ Unindented pass content old_string span := by
  intro span member
  refine ⟨unindented_of_lines,fun unindented => ?_⟩
  have visible : old_string.is_empty = false := by
    cases blank : old_string.is_empty with
    | false => rfl
    | true => simp [locate_with_limit,blank] at located
  rw [locate_found visible] at located
  obtain ⟨text,pattern,map,starts,scan⟩ := scan pass content old_string
  obtain ⟨somePattern,validated,_⟩ := scan.tried.2 (climb_found located)
  obtain ⟨n,start,first,last⟩ := (validated_from validated).2 span member
  obtain ⟨offsets,sought⟩ := scan.sought
  obtain ⟨_,_,normalized,maps⟩ := normalize_maps pass content
  rw [scan.normalized,some.injEq,Prod.mk.injEq] at normalized
  obtain ⟨rfl,rfl⟩ := normalized
  have someBytes : pattern.bytes ≠ [] := by simpa [Str.is_empty] using somePattern
  obtain ⟨result,scanned,occur⟩ :=
    matchesFrom_spec text someBytes none (text.len + 1) 0 [] (boundary_zero text) (by omega) (by simp)
  have scanned' := scan.scanned somePattern
  rw [non_overlapping_matches,scanned,some.injEq] at scanned'
  obtain ⟨inside,there⟩ := occur starts scanned' n start
  have within := (occurrence_boundaries someBytes inside there).2.2
  have newlines := normalize_newlines scan.normalized
  have ascending := normalize_ascending scan.normalized
  have closed : ∀ j, map[n + (pattern.bytes.length - 1)]? = some j → content.bytes[j]? = some 0x0a →
    span.stop ≤ j + 1 := by
    intro j mapped newline
    have length := length_pos_iff.mpr someBytes
    have ends : pattern.bytes.getLast? = some 0x0a := by
      have byte := (newlines.same _ j (by simp only [Str.len] at within; omega) mapped).mp newline
      obtain ⟨rest,split⟩ := there
      rwa [← getElem?_drop,← split,getElem?_append_left (by omega),← getLast?_eq_getElem?] at byte
    have kept := unindented text map pattern offsets scan.normalized sought ends j
      (last_newline_of_match newlines ascending there within last ends mapped)
    obtain ⟨index,listed⟩ := mem_iff_getElem?.mp kept
    rcases Nat.lt_or_ge index (n + pattern.bytes.length) with earlier | later
    · have := ascending_at ascending (by omega : index ≤ n + (pattern.bytes.length - 1)) listed mapped
      omega
    · exact ascending_at ascending later last listed
  exact ⟨text,map,pattern,offsets,n,scan.normalized,sought,there,first,last,fun i low high =>
    linesOf_match newlines ascending maps.length within first last closed low high⟩

/-- A line of two spaces before it, with what follows at the margin: the span ends with the newline. -/
theorem line_at_margin_is_left : locate_with_limit (.of "  a\nb") (.of "\ta\n") none =
    some (.ok (.Found .LineTrim [⟨2,4⟩])) ∧
    OnPatternLines .LineTrim (.of "  a\nb") (.of "\ta\n") ⟨2,4⟩ := by
  have located : locate_with_limit (.of "  a\nb") (.of "\ta\n") none = some (.ok (.Found .LineTrim [⟨2,4⟩])) := by
    decide +kernel
  refine ⟨located,(spans_stay_on_pattern_lines located _ (by simp)).mpr ?_⟩
  intro text map pattern offsets normalized sought ends p newline
  rw [show normalize .LineTrim (.of "  a\nb") = some (.of "a\nb",[2,3,4,5]) by decide +kernel] at normalized
  cases normalized
  obtain ⟨here,before,_⟩ := newline
  have small : p < 4 := before
  interval_cases p
  all_goals first
    | decide
    | exact absurd here (by decide)

/-- A pattern that ends its line takes the indentation of the next one along. -/
theorem indentation_is_taken_along : locate_with_limit (.of "  a\n   b") (.of "\ta\n") none =
    some (.ok (.Found .LineTrim [⟨2,7⟩])) ∧
    ¬OnPatternLines .LineTrim (.of "  a\n   b") (.of "\ta\n") ⟨2,7⟩ := by
  refine ⟨by decide +kernel,?_⟩
  rintro ⟨text,map,pattern,offsets,n,normalized,sought,_,first,_,lines⟩
  rw [show normalize .LineTrim (.of "  a\n   b") = some (.of "a\nb",[2,3,7,8]) by decide +kernel,some.injEq,
    Prod.mk.injEq] at normalized
  rw [show normalize .LineTrim (.of "\ta\n") =
    some (.of "a\n",[1,2,3]) by decide +kernel,some.injEq,Prod.mk.injEq] at sought
  obtain ⟨-,rfl⟩ := normalized
  obtain ⟨rfl,-⟩ := sought
  obtain ⟨k,less,j,found,same⟩ := lines 4 (by decide) (by decide)
  have zero : n = 0 := by
    rcases n with _ | _ | _ | _ | n <;> simp at first ⊢
  have short : k < 2 := less
  subst zero
  have near : j ≤ 3 := by
    rcases k with _ | _ | k
    · simp at found
      omega
    · simp at found
      omega
    · omega
  exact same 3 (by omega) (by omega) (by decide)

end Vyane.TextEdits
