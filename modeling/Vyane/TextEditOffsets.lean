import Vyane.TextEdits

/-!
The offset maps of the four normalizations. Each pass has a value on every input, its map has one entry more than the
text has bytes, and a boundary of the text is mapped to a boundary of the input.
-/
namespace Vyane.TextEdits
open Strs Utf8 List

/-- What a normalization guarantees about its offset map. -/
structure Maps (input text : Str) (map : List Nat) : Prop where
  length : map.length = text.len + 1
  boundary : ∀ index, text.is_char_boundary index = true →
    ∃ offset, map[index]? = some offset ∧ input.is_char_boundary offset = true

/-! ### Lines -/

theorem newline_bytes : newline.bytes = [0x0a] := by decide
theorem edge_ascii {byte : UInt8} (edge : is_edge_whitespace byte = true) : byte.toNat < 128 := by
  simp only [is_edge_whitespace,Bool.or_eq_true,beq_iff_eq] at edge
  rcases edge with (rfl | rfl) | rfl <;> decide

variable {input : Str}

/-- The end of a line is a newline or the end of the input. -/
theorem next_newline_spec {start : Nat} (le : start ≤ input.len) :
    start ≤ next_newline input.bytes start ∧ next_newline input.bytes start ≤ input.len ∧
      (next_newline input.bytes start < input.len → input.bytes[next_newline input.bytes start]? = some 0x0a) := by
  unfold next_newline
  cases found : (input.bytes.drop start).findIdx? (· == 0x0a) with
  | none => exact ⟨le,le_rfl,fun lt => absurd lt (Nat.lt_irrefl _)⟩
  | some relative =>
    obtain ⟨inside,here,_⟩ := findIdx?_eq_some_iff_getElem.mp found
    rw [length_drop] at inside
    have there : input.bytes[start + relative]? = some 0x0a := by
      rw [getElem_drop,beq_iff_eq] at here
      rw [getElem?_eq_getElem (by omega),here]
    simp only [Str.len] at le ⊢
    exact ⟨by omega,by omega,fun _ => there⟩

theorem newline_boundary {start : Nat} (le : start ≤ input.len) :
    input.is_char_boundary (next_newline input.bytes start) = true ∧
      (next_newline input.bytes start < input.len →
        input.is_char_boundary (next_newline input.bytes start + 1) = true) := by
  obtain ⟨_,within,here⟩ := next_newline_spec le
  rcases Nat.lt_or_ge (next_newline input.bytes start) input.len with inside | outside
  · have byte := here inside
    rw [getElem?_eq_getElem inside,Option.some.injEq] at byte
    have both := boundary_ascii inside (by rw [byte]; decide)
    exact ⟨both.1,fun _ => both.2⟩
  · have same : next_newline input.bytes start = input.len := by omega
    rw [same]
    exact ⟨boundary_len input,fun lt => absurd lt (Nat.lt_irrefl _)⟩

/-- What the loop over the leading edge skips, and where it stops. -/
theorem skipLeading_spec {bytes : Bytes} {line_end : Nat} : ∀ (fuel start : Nat), line_end ≤ fuel + start →
    start ≤ skipLeading bytes line_end fuel start ∧
      (start ≤ line_end → skipLeading bytes line_end fuel start ≤ line_end) ∧
      (∀ q, start ≤ q → q < skipLeading bytes line_end fuel start → (bytes[q]?).any is_edge_whitespace = true) ∧
      (skipLeading bytes line_end fuel start < line_end →
        (bytes[skipLeading bytes line_end fuel start]?).any is_edge_whitespace = false) := by
  intro fuel
  induction fuel with
  | zero =>
    intro start enough
    simp only [skipLeading]
    exact ⟨le_rfl,id,fun q low high => by omega,fun before => by omega⟩
  | succ fuel ih =>
    intro start enough
    unfold skipLeading
    split_ifs with more
    · rw [Bool.and_eq_true,decide_eq_true_eq] at more
      obtain ⟨after,within,skipped,stops⟩ := ih (start + 1) (by omega)
      refine ⟨by omega,fun _ => within more.1,fun q low high => ?_,stops⟩
      rcases Nat.eq_or_lt_of_le low with rfl | later
      · exact more.2
      · exact skipped q later high
    · exact ⟨le_rfl,id,fun q low high => by omega,fun before => by simpa [before] using more⟩

theorem skipTrailing_spec {bytes : Bytes} {content_start : Nat} : ∀ content_end : Nat,
    (content_start ≤ content_end → content_start ≤ skipTrailing bytes content_start content_end) ∧
      skipTrailing bytes content_start content_end ≤ content_end ∧
      (∀ q, skipTrailing bytes content_start content_end ≤ q → q < content_end →
        (bytes[q]?).any is_edge_whitespace = true) ∧
      (content_start < skipTrailing bytes content_start content_end →
        (bytes[skipTrailing bytes content_start content_end - 1]?).any is_edge_whitespace = false) := by
  intro content_end
  induction content_end with
  | zero => exact ⟨id,le_rfl,fun q low high => by omega,fun before => by simp [skipTrailing] at before⟩
  | succ content_end ih =>
    unfold skipTrailing
    split_ifs with more
    · rw [Bool.and_eq_true,decide_eq_true_eq] at more
      obtain ⟨after,within,skipped,stops⟩ := ih
      refine ⟨fun _ => after (by omega),by omega,fun q low high => ?_,stops⟩
      rcases Nat.eq_or_lt_of_le (Nat.le_of_lt_succ high) with rfl | earlier
      · exact more.2
      · exact skipped q low earlier
    · exact ⟨id,le_rfl,fun q low high => by omega,fun before => by simpa [before] using more⟩

/-- A boundary with edge white space behind it is followed by one, and the other way round. -/
theorem edge_boundary {start stop : Nat} (le : start ≤ stop) (within : stop ≤ input.len)
    (edge : ∀ q, start ≤ q → q < stop → (input.bytes[q]?).any is_edge_whitespace = true) :
    input.is_char_boundary start = true ↔ input.is_char_boundary stop = true := by
  induction stop, le using Nat.le_induction with
  | base => rfl
  | succ stop le ih =>
    have inside : stop < input.len := by omega
    have byte := edge stop le (by omega)
    rw [getElem?_eq_getElem inside,Option.any_some] at byte
    have both := boundary_ascii inside (edge_ascii byte)
    rw [ih (by omega) fun q low high => edge q low (by omega)]
    exact ⟨fun _ => both.2,fun _ => both.1⟩

/-- Every byte of the text is the byte of the input at its offset. -/
structure Tracks (input text : Str) (map : List Nat) : Prop where
  length : map.length = text.len
  byte : ∀ index < text.len, ∃ offset, map[index]? = some offset ∧ input.bytes[offset]? = text.bytes[index]?

theorem Tracks.append {text text' : Str} {map map' : List Nat} (first : Tracks input text map)
    (second : Tracks input text' map') : Tracks input (text.append text') (map ++ map') := by
  refine ⟨by rw [length_append,first.length,second.length,len_append],fun index inside => ?_⟩
  rw [len_append] at inside
  simp only [Str.append]
  rcases Nat.lt_or_ge index text.len with early | late
  · obtain ⟨offset,mapped,same⟩ := first.byte index early
    refine ⟨offset,?_,?_⟩
    · rw [getElem?_append_left (by rw [first.length]; exact early),mapped]
    · rw [getElem?_append_left early,same]
  · obtain ⟨offset,mapped,same⟩ := second.byte (index - text.len) (by omega)
    refine ⟨offset,?_,?_⟩
    · rw [getElem?_append_right (by rw [first.length]; exact late),first.length,mapped]
    · rw [getElem?_append_right late,same]
      rfl

theorem Tracks.slice {kept : Str} {start stop : Nat} (sliced : input.slice start stop = some kept) :
    Tracks input kept (range' start (stop - start)) := by
  obtain ⟨le,_,last,bytes⟩ := slice_eq_some.mp sliced
  have within := (boundary_cut last).1
  have length : kept.len = stop - start := by
    rw [Str.len,bytes,length_drop,length_take]
    simp only [Str.len] at within
    omega
  refine ⟨by rw [length_range',length],fun index inside => ⟨start + index,?_,?_⟩⟩
  · rw [getElem?_range' (by omega)]
    simp
  · rw [bytes,getElem?_drop,getElem?_take_of_lt (by omega)]

theorem Tracks.newline {offset : Nat} (here : input.bytes[offset]? = some 0x0a) :
    Tracks input TextEdits.newline [offset] := by
  have one : TextEdits.newline.len = 1 := by rw [Str.len,newline_bytes]; rfl
  refine ⟨by rw [one]; rfl,fun index inside => ?_⟩
  obtain rfl : index = 0 := by omega
  exact ⟨offset,rfl,by rw [here,newline_bytes]; rfl⟩

/-- Every line is cut at boundaries, so the loop has a value. -/
theorem stripLines_tracks (input : Str) (mode : LineEdge) :
    ∀ (fuel line_start : Nat), input.is_char_boundary line_start = true → input.len < fuel + line_start →
      ∃ text map, stripLines input mode fuel line_start = some (text,map) ∧ Tracks input text map := by
  intro fuel
  induction fuel with
  | zero =>
    intro line_start boundary enough
    have := (boundary_cut boundary).1
    omega
  | succ fuel ih =>
    intro line_start boundary enough
    have le := (boundary_cut boundary).1
    obtain ⟨after,within,here⟩ := next_newline_spec le
    obtain ⟨ends,next⟩ := newline_boundary le
    generalize begins : lineContentStart mode input.bytes line_start
      (next_newline input.bytes line_start) = content_start
    have starts : content_start ≤ next_newline input.bytes line_start ∧
      input.is_char_boundary content_start = true := by
      subst begins
      cases mode with
      | TrailingOnly => exact ⟨after,boundary⟩
      | BothSides =>
        obtain ⟨low,high,edge,_⟩ := @skipLeading_spec input.bytes (next_newline input.bytes line_start)
          (next_newline input.bytes line_start - line_start) line_start (by omega)
        exact ⟨high after,(edge_boundary low ((high after).trans within) edge).mp boundary⟩
    obtain ⟨low,first⟩ := starts
    obtain ⟨high,short,edge,_⟩ := @skipTrailing_spec input.bytes content_start (next_newline input.bytes line_start)
    have high := high low
    have last := (edge_boundary short within edge).mpr ends
    obtain ⟨kept,sliced⟩ : ∃ kept, input.slice content_start (skipTrailing input.bytes content_start
        (next_newline input.bytes line_start)) = some kept := by
      unfold Str.slice
      rw [dif_pos ⟨high,first,last⟩]
      exact ⟨_,rfl⟩
    simp only [stripLines,begins,sliced,Option.bind_eq_bind,Option.bind_some]
    split_ifs with more
    · obtain ⟨text,map,stripped,tracks⟩ := ih (next_newline input.bytes line_start + 1) (next more) (by omega)
      rw [stripped]
      exact ⟨_,_,rfl,(Tracks.slice sliced).append ((Tracks.newline (here more)).append tracks)⟩
    · exact ⟨_,_,rfl,Tracks.slice sliced⟩

theorem Tracks.maps {text : Str} {map : List Nat} (tracks : Tracks input text map) :
    Maps input text (map ++ [input.len]) := by
  refine ⟨by rw [length_append,tracks.length]; rfl,fun index boundary => ?_⟩
  have within := (boundary_cut boundary).1
  rcases Nat.lt_or_ge index text.len with inside | outside
  · obtain ⟨offset,mapped,same⟩ := tracks.byte index inside
    refine ⟨offset,by rw [getElem?_append_left (by rw [tracks.length]; exact inside),mapped],?_⟩
    have leads : (text.bytes[index]?).any leading = true := by
      have start := (boundary_cut boundary).2.2.head_leading text.bytes[index]
        (by rw [head?_drop,getElem?_eq_getElem inside]; rfl)
      rw [getElem?_eq_getElem inside,Option.any_some,start]
    rw [← same] at leads
    simp [Str.is_char_boundary,leads]
  · have last : index = text.len := by omega
    refine ⟨input.len,?_,boundary_len input⟩
    rw [getElem?_append_right (by rw [tracks.length]; exact outside),tracks.length,last]
    simp

theorem Tracks.inside {text : Str} {map : List Nat} (tracks : Tracks input text map) :
    ∀ offset ∈ map, offset < input.len := by
  intro offset member
  obtain ⟨index,found⟩ := List.mem_iff_getElem?.mp member
  have within : index < text.len := by
    rw [← tracks.length]
    exact (List.getElem?_eq_some_iff.mp found).1
  obtain ⟨other,mapped,same⟩ := tracks.byte index within
  rw [found,Option.some.injEq] at mapped
  subst mapped
  rw [List.getElem?_eq_getElem within] at same
  exact (List.getElem?_eq_some_iff.mp same).1

theorem strip_line_edges_maps (input : Str) (mode : LineEdge) :
    ∃ text map, strip_line_edges input mode = some (text,map ++ [input.len]) ∧ Tracks input text map := by
  obtain ⟨text,map,stripped,tracks⟩ := stripLines_tracks input mode (input.len + 1) 0 (boundary_zero input) (by omega)
  exact ⟨text,map,by rw [strip_line_edges,stripped]; rfl,tracks⟩

/-! ### Folding -/

theorem chars_encode (s : Str) : encode (chars s) = s.bytes := by
  obtain ⟨bytes,cs,rfl⟩ := s
  simp [chars,from_utf8_encode]

/-- The map of the fold has an entry for every byte, each the start of a character. -/
theorem foldChars_spec (before : List Char) : ∀ rest : List Char,
    (foldChars (encode before).length rest).2.length = (encode (foldChars (encode before).length rest).1).length ∧
      ∀ offset ∈ (foldChars (encode before).length rest).2, ∃ front back, before ++ rest = front ++ back ∧
        offset = (encode front).length := by
  intro rest
  induction rest generalizing before with
  | nil => simp [foldChars]
  | cons character rest ih =>
    have next : (encode before).length + character.utf8Size = (encode (before ++ [character])).length := by
      simp [encode_append,String.length_utf8EncodeChar]
    obtain ⟨length,starts⟩ := ih (before ++ [character])
    simp only [foldChars,next]
    constructor
    · rw [length_append,length_replicate,length]
      simp [encode,flatMap_append]
    · intro offset member
      rcases mem_append.mp member with here | later
      · exact ⟨before,character :: rest,rfl,eq_of_mem_replicate here⟩
      · obtain ⟨front,back,parts,same⟩ := starts offset later
        exact ⟨front,back,by rw [← parts]; simp,same⟩

theorem boundary_of_front {s : Str} {front back : List Char} (parts : chars s = front ++ back) :
    s.is_char_boundary (encode front).length = true := by
  have bytes : s.bytes = encode front ++ encode back := by rw [← chars_encode,parts,encode_append]
  refine boundary_of_valid_drop (by rw [Str.len,bytes,length_append]; omega) ⟨back,?_⟩
  rw [bytes]
  simp

theorem fold_confusables_spec (input : Str) :
    (fold_confusables input).2.length = (fold_confusables input).1.len + 1 ∧
      ∀ offset ∈ (fold_confusables input).2, input.is_char_boundary offset = true := by
  obtain ⟨length,starts⟩ := foldChars_spec [] (chars input)
  simp only [encode_nil,length_nil,nil_append] at length starts
  refine ⟨by simp [fold_confusables,Str.len,length],fun offset member => ?_⟩
  rcases mem_append.mp member with inside | last
  · obtain ⟨front,back,parts,rfl⟩ := starts offset inside
    exact boundary_of_front parts
  · rw [mem_singleton.mp last]
    exact boundary_len input

/-! ### Every pass -/

theorem identity_maps (input : Str) : Maps input input (range (input.len + 1)) := by
  refine ⟨length_range,fun index boundary => ⟨index,?_,boundary⟩⟩
  have within := (boundary_cut boundary).1
  rw [getElem?_range (by omega)]

/-- Offsets looked up in a second map. -/
theorem composed_offset {fold_map : List Nat} : ∀ {trim_map composed : List Nat},
    trim_map.mapM (fun offset => fold_map[offset]?) = some composed →
      ∀ index : Nat, composed[index]? = (trim_map[index]?).bind fun offset => fold_map[offset]?
  | [], composed, mapped, index => by
    cases mapped
    simp
  | first :: rest, composed, mapped, index => by
    rw [mapM_cons] at mapped
    obtain ⟨source,found,mapped⟩ := Option.bind_eq_some_iff.mp mapped
    obtain ⟨later,others,mapped⟩ := Option.bind_eq_some_iff.mp mapped
    cases mapped
    cases index with
    | zero => simpa using found.symm
    | succ index => simpa using composed_offset others index

theorem compose_total (fold_map : List Nat) : ∀ trim_map : List Nat, (∀ offset ∈ trim_map, offset < fold_map.length) →
    ∃ composed, trim_map.mapM (fun offset => fold_map[offset]?) = some composed ∧ composed.length = trim_map.length
  | [], _ => ⟨[],rfl,rfl⟩
  | first :: rest, inside => by
    obtain ⟨composed,mapped,length⟩ := compose_total fold_map rest fun offset member => inside offset (by simp [member])
    have within := inside first (by simp)
    refine ⟨fold_map[first] :: composed,?_,by simp [length]⟩
    rw [mapM_cons,getElem?_eq_getElem within,mapped]
    rfl

theorem normalize_maps (pass : MatchPass) (input : Str) :
    ∃ text map, normalize pass input = some (text,map) ∧ Maps input text map := by
  cases pass with
  | Exact => exact ⟨_,_,rfl,identity_maps input⟩
  | NewContent => exact ⟨_,_,rfl,identity_maps input⟩
  | TrailingWhitespace =>
    obtain ⟨text,map,stripped,tracks⟩ := strip_line_edges_maps input .TrailingOnly
    exact ⟨_,_,stripped,tracks.maps⟩
  | LineTrim =>
    obtain ⟨text,map,stripped,tracks⟩ := strip_line_edges_maps input .BothSides
    exact ⟨_,_,stripped,tracks.maps⟩
  | UnicodeNormalized =>
    obtain ⟨length,starts⟩ := fold_confusables_spec input
    obtain ⟨text,map,stripped,tracks⟩ := strip_line_edges_maps (fold_confusables input).1 .BothSides
    have inside : ∀ offset ∈ map ++ [(fold_confusables input).1.len], offset < (fold_confusables input).2.length := by
      intro offset member
      rw [length]
      rcases mem_append.mp member with listed | last
      · have := tracks.inside offset listed
        omega
      · rw [mem_singleton.mp last]
        omega
    obtain ⟨composed,mapped,same⟩ := compose_total (fold_confusables input).2 _ inside
    have maps := tracks.maps
    refine ⟨text,composed,by simp [normalize,stripped,mapped],by rw [same,maps.length],fun index boundary => ?_⟩
    obtain ⟨offset,found,_⟩ := maps.boundary index boundary
    have within := inside offset (mem_of_getElem? found)
    refine ⟨(fold_confusables input).2[offset],?_,starts _ (getElem_mem within)⟩
    rw [composed_offset mapped,found,Option.bind_some,getElem?_eq_getElem within]

end Vyane.TextEdits
