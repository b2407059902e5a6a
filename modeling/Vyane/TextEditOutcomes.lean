import Vyane.TextEditOffsets

/-!
What an edit returns. Every hit of a pass is a range of the content whose text normalizes to the pattern, and `splice`
exchanges these ranges, and nothing else, for the replacement.
-/
namespace Vyane.TextEdits
open Strs Utf8 List Option

/-! ### Locating -/

/-- The scan ends, and every start it returns is that of an occurrence. -/
theorem matchesFrom_spec (text : Str) {pattern : Str} (someBytes : pattern.bytes ≠ []) (max_matches : Option Nat) :
    ∀ (fuel cursor : Nat) (starts : List Nat), text.is_char_boundary cursor = true → text.len < fuel + cursor →
      (∀ start ∈ starts, start ≤ text.len ∧ pattern.bytes <+: text.bytes.drop start) →
      ∃ result, matchesFrom text pattern max_matches fuel cursor starts = some result ∧
        ∀ found, result = .ok found → ∀ start ∈ found, start ≤ text.len ∧ pattern.bytes <+: text.bytes.drop start := by
  intro fuel
  induction fuel with
  | zero =>
    intro cursor starts boundary enough
    have := (boundary_cut boundary).1
    omega
  | succ fuel ih =>
    intro cursor starts boundary enough occur
    have within := (boundary_cut boundary).1
    obtain ⟨rest,sliced⟩ := slice_defined within boundary (boundary_len text)
    have bytes : rest.bytes = text.bytes.drop cursor := by
      rw [(slice_split sliced).1,Str.len,drop_length,append_nil]
    simp only [matchesFrom,sliced,bind_eq_bind,bind_some]
    cases scan : rest.find pattern with
    | none => exact ⟨_,rfl,fun found same => by cases same; exact occur⟩
    | some relative =>
      dsimp only
      split_ifs with full
      · exact ⟨_,rfl,fun _ same => by cases same⟩
      · obtain ⟨near,there⟩ := findBytes_some scan
        rw [bytes,drop_drop] at there
        rw [bytes,length_drop] at near
        have inside : cursor + relative ≤ text.len := by
          have : relative ≤ text.len - cursor := near
          omega
        obtain ⟨_,next,_⟩ := occurrence_boundaries someBytes inside there
        have longer : 0 < pattern.len := length_pos_iff.mpr someBytes
        refine ih _ _ next (by omega) fun start member => ?_
        rcases mem_append.mp member with old | new
        · exact occur start old
        · rw [mem_singleton.mp new]
          exact ⟨inside,there⟩

/-- A range of the content between two characters that normalizes to the pattern. -/
structure Hit (pass : MatchPass) (content normalized_pattern : Str) (span : Range) : Prop where
  someBytes : span.start < span.stop
  start : content.is_char_boundary span.start = true
  stop : content.is_char_boundary span.stop = true
  same : ∃ removed map, content.slice span.start span.stop = some removed ∧
    normalize pass removed = some (normalized_pattern,map)

theorem validateCandidates_spec (pass : MatchPass) {content text pattern : Str} {map : List Nat}
    (maps : Maps content text map) (someBytes : pattern.bytes ≠ []) :
    ∀ starts : List Nat, (∀ start ∈ starts, start ≤ text.len ∧ pattern.bytes <+: text.bytes.drop start) →
      ∃ validated, validateCandidates pass content pattern map starts = some validated ∧
        ∀ span ∈ validated, Hit pass content pattern span := by
  intro starts
  induction starts with
  | nil => exact fun _ => ⟨[],rfl,by simp⟩
  | cons start rest ih =>
    intro occur
    obtain ⟨validated,validates,hits⟩ := ih fun other member => occur other (by simp [member])
    obtain ⟨inside,there⟩ := occur start (by simp)
    obtain ⟨first,last,_⟩ := occurrence_boundaries someBytes inside there
    obtain ⟨original_start,startMapped,startBoundary⟩ := maps.boundary _ first
    obtain ⟨original_end,endMapped,endBoundary⟩ := maps.boundary _ last
    simp only [validateCandidates,startMapped,endMapped,bind_eq_bind,bind_some]
    split_ifs with empty
    · exact ⟨validated,validates,hits⟩
    · obtain ⟨removed,sliced⟩ := slice_defined (by omega : original_start ≤ original_end) startBoundary endBoundary
      obtain ⟨normalized,offsets,normalizes,_⟩ := normalize_maps pass removed
      simp only [sliced,normalizes,validates,bind_some]
      refine ⟨_,rfl,?_⟩
      split_ifs with differs
      · exact hits
      · rw [not_not] at differs
        refine forall_mem_cons.mpr ⟨⟨Nat.lt_of_not_le empty,startBoundary,endBoundary,removed,offsets,sliced,?_⟩,hits⟩
        rw [normalizes,differs]

/-- Neighbours that do not overlap leave no overlap at all, since every range has bytes. -/
theorem has_overlap_false : ∀ {spans : List Range}, has_overlap spans = false →
    (∀ span ∈ spans, span.start < span.stop) → spans.Pairwise fun first second => first.stop ≤ second.start
  | [], _, _ => List.Pairwise.nil
  | [_], _, _ => pairwise_singleton _ _
  | first :: second :: rest, apart, someBytes => by
    simp only [has_overlap,Bool.or_eq_false_iff,decide_eq_false_iff_not,not_lt] at apart
    have later := has_overlap_false apart.2 fun span member => someBytes span (mem_cons_of_mem _ member)
    refine pairwise_cons.mpr ⟨fun span member => ?_,later⟩
    rcases mem_cons.mp member with rfl | member
    · exact apart.1
    · have next := (pairwise_cons.mp later).1 span member
      have := someBytes second (by simp)
      omega

/-- What a pass may return as found. -/
structure Located (pass : MatchPass) (content old_string : Str) (spans : List Range) : Prop where
  apart : spans.Pairwise fun first second => first.stop ≤ second.start
  hits : ∃ pattern map, normalize pass old_string = some (pattern,map) ∧ ∀ span ∈ spans, Hit pass content pattern span

theorem try_pass_spec (pass : MatchPass) (content old_string : Str) (max_matches : Option Nat) :
    ∃ result, try_pass pass content old_string max_matches = some result ∧
      ∀ spans, result = .Found spans → Located pass content old_string spans := by
  obtain ⟨text,offset_map,normalized,maps⟩ := normalize_maps pass content
  obtain ⟨pattern,map,patternNormalized,_⟩ := normalize_maps pass old_string
  simp only [try_pass,normalized,patternNormalized,bind_eq_bind,bind_some]
  by_cases empty : pattern.is_empty = true
  · rw [if_pos empty]
    exact ⟨_,rfl,nofun⟩
  · rw [if_neg empty]
    have someBytes : pattern.bytes ≠ [] := by simpa [Str.is_empty] using empty
    obtain ⟨scanned,scan,occur⟩ := matchesFrom_spec text someBytes max_matches (text.len + 1) 0 [] (boundary_zero text)
      (by omega) (by simp)
    rw [non_overlapping_matches,scan,bind_some]
    match scanned, occur with
    | .error limit, _ => exact ⟨_,rfl,nofun⟩
    | .ok [], _ => exact ⟨_,rfl,nofun⟩
    | .ok (start :: rest), occur =>
      obtain ⟨validated,validates,hits⟩ := validateCandidates_spec pass maps someBytes (start :: rest) (occur _ rfl)
      simp only [validates,bind_some]
      split_ifs with none overlap
      · exact ⟨_,rfl,nofun⟩
      · exact ⟨_,rfl,nofun⟩
      · refine ⟨_,rfl,fun spans same => ?_⟩
        cases same
        exact ⟨has_overlap_false (by simpa using overlap) fun span member => (hits span member).someBytes,
          pattern,map,patternNormalized,hits⟩

theorem climb_spec (content old_string : Str) (max_matches : Option Nat) : ∀ passes : List MatchPass,
    ∃ result, climb content old_string max_matches passes = some result ∧
      ∀ pass spans, result = .ok (.Found pass spans) → Located pass content old_string spans := by
  intro passes
  induction passes with
  | nil => exact ⟨_,rfl,nofun⟩
  | cons pass rest ih =>
    obtain ⟨result,tried,located⟩ := try_pass_spec pass content old_string max_matches
    simp only [climb,tried,bind_eq_bind,bind_some]
    cases result with
    | Found spans =>
      refine ⟨_,rfl,fun other found same => ?_⟩
      cases same
      exact located spans rfl
    | Ambiguous => exact ⟨_,rfl,nofun⟩
    | TooMany limit => exact ⟨_,rfl,nofun⟩
    | NoCandidates => exact ih

theorem locate_spec (content old_string : Str) (max_matches : Option Nat) :
    ∃ result, locate_with_limit content old_string max_matches = some result ∧
      ∀ pass spans, result = .ok (.Found pass spans) → Located pass content old_string spans := by
  unfold locate_with_limit
  split_ifs
  · exact ⟨_,rfl,nofun⟩
  · exact climb_spec content old_string max_matches LADDER

/-! ### Replacing -/

/-- The second text is the first with the ranges of the spans exchanged for the new
bytes, read from the given offsets of the two texts on. -/
inductive Replaced (new : Bytes) : Nat → Nat → List ReplacedSpan → Bytes → Bytes → Prop
  | rest (first second : Nat) (bytes : Bytes) : Replaced new first second [] bytes bytes
  | span {first second : Nat} {spans : List ReplacedSpan} {old out : Bytes} (kept removed : Bytes) :
      Replaced new (first + kept.length + removed.length) (second + kept.length + new.length) spans old out →
      Replaced new first second
        (⟨⟨first + kept.length,first + kept.length + removed.length⟩,second + kept.length,new.length⟩ :: spans)
        (kept ++ removed ++ old) (kept ++ new ++ out)

section Replaced
variable {new : Bytes} {first second : Nat} {spans : List ReplacedSpan} {old out : Bytes}

theorem Replaced.ascending (replaced : Replaced new first second spans old out) :
    (∀ span ∈ spans, first ≤ span.original.start ∧ span.original.start ≤ span.original.stop) ∧
      spans.Pairwise fun one other => one.original.stop ≤ other.original.start := by
  induction replaced with
  | rest => simp
  | span kept removed later ih =>
    refine ⟨forall_mem_cons.mpr ⟨⟨by dsimp only; omega,by dsimp only; omega⟩,fun span member => ?_⟩,
      pairwise_cons.mpr ⟨fun span member => (ih.1 span member).1,ih.2⟩⟩
    have := ih.1 span member
    omega

/-- The new bytes stand where the spans say they do. -/
theorem Replaced.delimits (replaced : Replaced new first second spans old out) :
    ∀ span ∈ spans, second ≤ span.new_start ∧ (out.drop (span.new_start - second)).take span.new_len = new := by
  induction replaced with
  | rest => simp
  | @span first second spans old out kept removed later ih =>
    refine forall_mem_cons.mpr ⟨⟨by dsimp only; omega,?_⟩,fun span member => ?_⟩
    · dsimp only
      rw [Nat.add_sub_cancel_left,append_assoc,drop_left,take_left]
    · obtain ⟨after,there⟩ := ih span member
      refine ⟨by omega,?_⟩
      rw [show span.new_start - second =
        (kept ++ new).length + (span.new_start - (second + kept.length + new.length)) by
        rw [length_append]
        omega,← drop_drop,drop_left]
      exact there

/-- The bytes the spans remove. -/
def removedLen (spans : List Range) : Nat := (spans.map fun span => span.stop - span.start).sum

theorem Replaced.length (replaced : Replaced new first second spans old out) :
    out.length + removedLen (spans.map ReplacedSpan.original) = old.length + new.length * spans.length ∧
      removedLen (spans.map ReplacedSpan.original) ≤ old.length := by
  induction replaced with
  | rest => simp [removedLen]
  | span kept removed later ih =>
    simp only [removedLen,map_cons,sum_cons,length_append,length_cons,Nat.mul_succ] at ih ⊢
    omega

end Replaced

/-- The loop builds the text it is for, whatever it has built before. -/
theorem spliceSpans_spec {content : Str} (new_string : Str) : ∀ (spans : List Range) (cursor : Nat) (new_content : Str)
    (replaced : List ReplacedSpan), content.is_char_boundary cursor = true →
    (∀ span ∈ spans, cursor ≤ span.start ∧ span.start ≤ span.stop ∧ content.is_char_boundary span.start = true ∧
      content.is_char_boundary span.stop = true) →
    spans.Pairwise (fun first second => first.stop ≤ second.start) →
    ∃ built recorded out, spliceSpans content new_string cursor spans new_content replaced =
      some (built,replaced ++ recorded) ∧
      built.bytes = new_content.bytes ++ out ∧ recorded.map ReplacedSpan.original = spans ∧
      Replaced new_string.bytes cursor new_content.len recorded (content.bytes.drop cursor) out := by
  intro spans
  induction spans with
  | nil =>
    intro cursor new_content replaced boundary _ _
    obtain ⟨rest,sliced⟩ := slice_defined (boundary_cut boundary).1 boundary (boundary_len content)
    have bytes : content.bytes.drop cursor = rest.bytes := by
      rw [(slice_split sliced).1,Str.len,drop_length,append_nil]
    refine ⟨new_content.append rest,[],rest.bytes,?_,rfl,rfl,?_⟩
    · rw [spliceSpans,sliced,append_nil]
      rfl
    · rw [bytes]
      exact .rest _ _ _
  | cons span rest ih =>
    intro cursor new_content replaced boundary bounds apart
    obtain ⟨⟨after,ordered,first,last⟩,later⟩ := forall_mem_cons.mp bounds
    obtain ⟨behind,apart⟩ := pairwise_cons.mp apart
    obtain ⟨kept,sliced⟩ := slice_defined after boundary first
    obtain ⟨removed,removes⟩ := slice_defined ordered first last
    obtain ⟨keptBytes,keptEnd⟩ := slice_split sliced
    obtain ⟨removedBytes,removedEnd⟩ := slice_split removes
    obtain ⟨built,recorded,out,loop,bytes,originals,tail⟩ :=
      ih span.stop ((new_content.append kept).append new_string)
        (replaced ++ [⟨span,(new_content.append kept).len,new_string.len⟩]) last
        (fun other member => ⟨behind other member,(later other member).2⟩) apart
    refine ⟨built,⟨span,(new_content.append kept).len,new_string.len⟩ :: recorded,
      kept.bytes ++ new_string.bytes ++ out,?_,?_,?_,?_⟩
    · rw [spliceSpans,sliced,append_cons]
      exact loop
    · rw [bytes]
      simp [Str.append]
    · rw [map_cons,originals]
    · obtain ⟨start,stop⟩ := span
      dsimp only at keptEnd removedEnd keptBytes removedBytes tail ⊢
      subst keptEnd removedEnd
      rw [len_append,len_append] at tail
      rw [keptBytes,removedBytes,← append_assoc,len_append]
      exact .span kept.bytes removed.bytes tail

theorem checked_eq_some {n m : Nat} (fits : checked n = some m) : n = m := by
  unfold checked at fits
  split_ifs at fits
  exact some.inj fits

variable {spans : List Range} {request : EditRequest}

theorem removed_total : ∀ {total removed : Nat},
    spans.foldlM (fun total span => checked (total + (span.stop - span.start))) total = some removed →
      removed = total + removedLen spans := by
  induction spans with
  | nil =>
    intro total removed summed
    exact (some.inj summed).symm
  | cons span rest ih =>
    intro total removed summed
    rw [foldlM_cons] at summed
    obtain ⟨next,fits,summed⟩ := bind_eq_some_iff.mp summed
    rw [ih summed,← checked_eq_some fits]
    simp only [removedLen,map_cons,sum_cons]
    omega

/-- The length computed before the text is built. -/
theorem replacement_output_len_eq {content_len output_len replacement_len : Nat}
    (computed : replacement_output_len content_len spans replacement_len = some output_len) :
    output_len + removedLen spans = content_len + replacement_len * spans.length := by
  obtain ⟨removed,summed,computed⟩ := bind_eq_some_iff.mp computed
  obtain ⟨inserted,product,computed⟩ := bind_eq_some_iff.mp computed
  have total := removed_total summed
  have times := checked_eq_some product
  split_ifs at computed with within
  have length := checked_eq_some computed
  omega

/-! ### Editing -/

/-- The length an edit is bounded by before it builds its text. -/
def precomputedLen (request : EditRequest) (spans : List Range) : Option Nat :=
  if request.old_string.is_empty then some request.new_string.len
  else replacement_output_len request.content.len spans request.new_string.len

/-- What an outcome says of the edit it is for. -/
structure Faithful (request : EditRequest) (o : EditOutcome) : Prop where
  ordered : ∀ span ∈ o.spans, span.original.start ≤ span.original.stop
  disjoint : o.spans.Pairwise fun first second => first.original.stop ≤ second.original.start
  boundaries : ∀ span ∈ o.spans, request.content.is_char_boundary span.original.start = true ∧
    request.content.is_char_boundary span.original.stop = true
  replaced : Replaced request.new_string.bytes 0 0 o.spans request.content.bytes o.new_content.bytes
  delimits : ∀ span ∈ o.spans, (o.new_content.bytes.drop span.new_start).take span.new_len = request.new_string.bytes
  length : precomputedLen request (o.spans.map ReplacedSpan.original) = some o.new_content.len
  normalizes : ∃ text map, normalize o.matched_pass request.old_string = some (text,map) ∧
    ∀ span ∈ o.spans, ∃ removed offsets, request.content.slice span.original.start span.original.stop = some removed ∧
      normalize o.matched_pass removed = some (text,offsets)

/-- An empty pattern on an empty content makes the replacement the content. -/
theorem new_content_faithful (old : request.old_string.is_empty = true) (content : request.content.is_empty = true) :
    Faithful request ⟨request.new_string,1,.NewContent,[⟨⟨0,0⟩,0,request.new_string.len⟩]⟩ := by
  have empty : request.content.bytes = [] := by simpa [Str.is_empty] using content
  have pattern : request.old_string = request.content := by
    have none : request.old_string.bytes = [] := by simpa [Str.is_empty] using old
    exact Str.ext (none.trans empty.symm)
  have replaced : Replaced request.new_string.bytes 0 0 [⟨⟨0,0⟩,0,request.new_string.len⟩] request.content.bytes
      request.new_string.bytes := by
    have whole := Replaced.span [] [] (.rest (0 + 0 + 0) (0 + 0 + request.new_string.bytes.length) [])
    simpa [empty,Str.len] using whole
  obtain ⟨text,map,normalized,_⟩ := normalize_maps .NewContent request.content
  have zero : request.content.is_char_boundary 0 = true := boundary_zero request.content
  refine ⟨by simp,by simp,by simpa using zero,replaced,fun span member => (replaced.delimits span member).2,?_,
    text,map,pattern ▸ normalized,?_⟩
  · rw [precomputedLen,if_pos old]
  · simp only [mem_singleton,forall_eq]
    exact ⟨request.content,map,slice_eq_some.mpr ⟨le_rfl,zero,zero,by simp [empty]⟩,normalized⟩

theorem splice_faithful {pass : MatchPass} {output_len : Nat}
    (old : request.old_string.is_empty = false) (located : Located pass request.content request.old_string spans)
    (computed : replacement_output_len request.content.len spans request.new_string.len = some output_len) :
    ∃ o, splice request.content spans request.new_string pass = some o ∧ Faithful request o := by
  obtain ⟨pattern,map,normalized,hits⟩ := located.hits
  obtain ⟨built,recorded,out,loop,bytes,originals,replaced⟩ :=
    spliceSpans_spec request.new_string spans 0 .empty [] (boundary_zero request.content)
    (fun span member => ⟨Nat.zero_le _,(hits span member).someBytes.le,(hits span member).start,
      (hits span member).stop⟩)
    located.apart
  have hit : ∀ span ∈ recorded, Hit pass request.content pattern span.original := fun span member =>
    hits _ (originals ▸ mem_map_of_mem member)
  have whole : Replaced request.new_string.bytes 0 0 recorded request.content.bytes built.bytes := by
    rw [bytes]
    exact replaced
  refine ⟨⟨built,spans.length,pass,recorded⟩,by rw [splice,loop]; rfl,
    fun span member => (hit span member).someBytes.le,whole.ascending.2,
    fun span member => ⟨(hit span member).start,(hit span member).stop⟩,whole,fun span member =>
      (whole.delimits span member).2,?_,
    pattern,map,normalized,fun span member => (hit span member).same⟩
  have total := replacement_output_len_eq computed
  have length := whole.length
  rw [originals] at length ⊢
  rw [precomputedLen,if_neg (by simp [old]),computed,some.injEq]
  have count : recorded.length = spans.length := by rw [← originals,length_map]
  rw [count] at length
  have : built.bytes.length + removedLen spans = request.content.len + request.new_string.len * spans.length := length.1
  show output_len = built.bytes.length
  omega

theorem compute_edit_inner_spec (request : EditRequest) (max_output_bytes max_matches : Option Nat) :
    ∃ result, compute_edit_inner request max_output_bytes max_matches = some result ∧
      ∀ o, result = .ok o → Faithful request o := by
  unfold compute_edit_inner
  split_ifs with old content noop
  · cases enforce_output_limit request.new_string.len max_output_bytes with
    | error error => exact ⟨_,rfl,nofun⟩
    | ok =>
      refine ⟨_,rfl,fun o same => ?_⟩
      cases same
      exact new_content_faithful old content
  · exact ⟨_,rfl,nofun⟩
  · exact ⟨_,rfl,nofun⟩
  · obtain ⟨search,located,spec⟩ := locate_spec request.content request.old_string max_matches
    simp only [located,bind_eq_bind,bind_some]
    match search, spec with
    | .error limit, _ => exact ⟨_,rfl,nofun⟩
    | .ok .NoMatch, _ => exact ⟨_,rfl,nofun⟩
    | .ok .Ambiguous, _ => exact ⟨_,rfl,nofun⟩
    | .ok (.Found pass spans), spec =>
      dsimp only
      split_ifs with several
      · exact ⟨_,rfl,nofun⟩
      · cases computed : replacement_output_len request.content.len spans request.new_string.len with
        | none => exact ⟨_,rfl,nofun⟩
        | some output_len =>
          dsimp only
          cases enforce_output_limit output_len max_output_bytes with
          | error error => exact ⟨_,rfl,nofun⟩
          | ok =>
            obtain ⟨o,spliced,faithful⟩ := splice_faithful (by simpa using old) (spec pass spans rfl) computed
            refine ⟨.ok o,by rw [spliced]; rfl,fun other same => ?_⟩
            cases same
            exact faithful

/-- No edit panics, and one that is made is faithful. -/
theorem edits_are_faithful (request : EditRequest) :
    ∃ result, compute_edit request = some result ∧ ∀ o, result = .ok o → Faithful request o :=
  compute_edit_inner_spec request none none

-- A pattern with two hyphens is found where the content has a dash of three bytes.
example : compute_edit ⟨.of "a\u2014b\n",.of "a--b",.of "c",false⟩ =
    some (.ok ⟨.of "c\n",1,.UnicodeNormalized,[⟨⟨0,5⟩,0,1⟩]⟩) := by decide +kernel

end Vyane.TextEdits
