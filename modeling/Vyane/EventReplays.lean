import Vyane.EventReader

/-!
What a replay returns. Wherever the buffers cut a file, a reader gets its lines (`linesOf_chop`). A page takes some of
them (`Took`) and returns the records above all valid ones before them; the pages add up to what `fresh` picks from the
file.
-/
namespace Vyane.EventReader
open Text Times Transactions List

/-! ### The lines of a file -/

def ended (piece : Bytes) : Bool := piece.getLast? == some NEWLINE

theorem split_flatten (bytes : Bytes) : (split_inclusive NEWLINE bytes).flatten = bytes := by
  induction bytes with
  | nil => rfl
  | cons byte rest ih =>
    rw [split_inclusive]
    split_ifs
    · rw [flatten_cons,ih]
      rfl
    · cases pieces : split_inclusive NEWLINE rest with
      | nil =>
        rw [pieces] at ih
        rw [← ih]
        rfl
      | cons piece others =>
        rw [pieces] at ih
        rw [← ih]
        rfl

variable {pieces : List Bytes} {bytes : Bytes} {taken left : List Bytes}

theorem split_append {first rest piece : Bytes} (oneLine : NEWLINE ∉ first)
    (split : split_inclusive NEWLINE rest = piece :: pieces) : split_inclusive NEWLINE (first ++ rest) =
    (first ++ piece) :: pieces := by
  induction first with
  | nil => exact split
  | cons byte first ih =>
    rw [mem_cons,not_or] at oneLine
    rw [cons_append,split_inclusive,if_neg (Ne.symm oneLine.1),ih oneLine.2]
    rfl

theorem split_newline (rest : Bytes) (oneLine : NEWLINE ∉ bytes) :
    split_inclusive NEWLINE (bytes ++ NEWLINE :: rest) = (bytes ++ [NEWLINE]) :: split_inclusive NEWLINE rest :=
  split_append oneLine (if_pos rfl)

theorem split_unended (notEmpty : bytes ≠ []) (oneLine : NEWLINE ∉ bytes) :
    split_inclusive NEWLINE bytes = [bytes] := by
  induction bytes with
  | nil => exact absurd rfl notEmpty
  | cons byte bytes ih =>
    rw [mem_cons,not_or] at oneLine
    rw [split_inclusive,if_neg (Ne.symm oneLine.1)]
    cases bytes with
    | nil => rfl
    | cons next rest => rw [ih (by simp) oneLine.2]

@[simp] theorem ended_newline (bytes : Bytes) : ended (bytes ++ [NEWLINE]) = true := by simp [ended]

theorem ended_append {first : Bytes} (piece : Bytes) (oneLine : NEWLINE ∉ first) :
    ended (first ++ piece) = ended piece := by
  have other : first.getLast? ≠ some NEWLINE := fun last => oneLine (mem_of_getLast? last)
  rw [ended,ended,getLast?_append]
  cases piece.getLast? with
  | none => simpa using other
  | some last => rfl

theorem not_ended (oneLine : NEWLINE ∉ bytes) : ended bytes = false := by
  rw [← append_nil bytes,ended_append [] oneLine]
  rfl

/-- After a line that has its newline come the lines of the rest; the other line is the last. -/
theorem split_cons {piece : Bytes} (split : split_inclusive NEWLINE bytes = piece :: pieces) :
    ended piece = true ∧ split_inclusive NEWLINE pieces.flatten = pieces ∨ ended piece = false ∧ pieces = [] := by
  by_cases newline : NEWLINE ∈ bytes
  · obtain ⟨line,rest,rfl,oneLine⟩ := eq_append_cons_of_mem newline
    rw [split_newline rest oneLine,cons.injEq] at split
    obtain ⟨rfl,rfl⟩ := split
    exact .inl ⟨ended_newline line,by rw [split_flatten]⟩
  · have notEmpty : bytes ≠ [] := by
      rintro rfl
      cases split
    rw [split_unended notEmpty newline,cons.injEq] at split
    obtain ⟨rfl,rfl⟩ := split
    exact .inr ⟨not_ended newline,rfl⟩

/-- What `read_bounded_line` says after it has read this much. -/
def lineOf (text : Bytes) (terminated : Bool) : Line :=
  ⟨terminated,decide (MAX_EVENT_LINE_BYTES < text.length),text.length,if text.length ≤ MAX_EVENT_LINE_BYTES then text
    else []⟩

theorem extend_lineOf (text chunk : Bytes) : (lineOf text false).extend chunk = lineOf (text ++ chunk) false := by
  by_cases short : text.length ≤ MAX_EVENT_LINE_BYTES
  · by_cases fits : text.length + chunk.length ≤ MAX_EVENT_LINE_BYTES
    · simp [Line.extend,lineOf,short,fits,Nat.not_lt.mpr short,Nat.not_lt.mpr fits]
    · simp [Line.extend,lineOf,short,fits,Nat.not_lt.mpr short,Nat.lt_of_not_le fits]
  · have long : ¬text.length + chunk.length ≤ MAX_EVENT_LINE_BYTES := by omega
    simp [Line.extend,lineOf,short,long,Nat.lt_of_not_le short,Nat.lt_of_not_le long]

theorem find_newline {rest : Bytes} (oneLine : NEWLINE ∉ bytes) :
    (bytes ++ NEWLINE :: rest).findIdx? (· == NEWLINE) = some bytes.length := by
  induction bytes with
  | nil => rfl
  | cons byte bytes ih =>
    rw [mem_cons,not_or] at oneLine
    rw [cons_append,findIdx?_cons,ih oneLine.2,if_neg (by simpa using Ne.symm oneLine.1)]
    rfl

/-- A buffer without a newline is added to the line. -/
theorem readLine_cons {buffer : Bytes} (text : Bytes) (buffers : List Bytes) (oneLine : NEWLINE ∉ buffer) :
    readLine (lineOf text false) (buffer :: buffers) = readLine (lineOf (text ++ buffer) false) buffers := by
  have absent : buffer.findIdx? (· == NEWLINE) = none := by
    rw [findIdx?_eq_none_iff]
    exact fun byte member => beq_eq_false_iff_ne.mpr fun same => oneLine (same ▸ member)
  rw [readLine,absent]
  simp only [Option.elim_none,take_length,extend_lineOf,Option.isSome_none,Bool.false_eq_true,if_false]

/-- A buffer with a newline ends the line. -/
theorem readLine_newline (text more : Bytes) (buffers : List Bytes) (oneLine : NEWLINE ∉ bytes) :
    readLine (lineOf text false) ((bytes ++ NEWLINE :: more) :: buffers) =
      (lineOf (text ++ (bytes ++ [NEWLINE])) true,(if more.isEmpty then [] else [more]) ++ buffers) := by
  have taken : (bytes ++ NEWLINE :: more).take (bytes.length + 1) = bytes ++ [NEWLINE] := by
    rw [append_cons]
    exact take_left' (by simp)
  have dropped : (bytes ++ NEWLINE :: more).drop (bytes.length + 1) = more := by
    rw [append_cons]
    exact drop_left' (by simp)
  rw [readLine,find_newline oneLine]
  simp only [Option.elim_some,taken,dropped,extend_lineOf,Option.isSome_some,if_true]
  rfl

/-- The next line of a reader, wherever its buffers cut the text. -/
theorem readLine_eq {piece : Bytes} (buffers : List Bytes) : ∀ text,
    split_inclusive NEWLINE buffers.flatten = piece :: pieces → (∀ buffer ∈ buffers, buffer ≠ []) →
    ∃ left, readLine (lineOf text false) buffers = (lineOf (text ++ piece) (ended piece),left)
      ∧ left.flatten = pieces.flatten ∧ ∀ buffer ∈ left, buffer ≠ [] := by
  induction buffers generalizing piece pieces with
  | nil => intro text split; cases split
  | cons buffer buffers ih =>
    intro text split nonempty
    rw [forall_mem_cons] at nonempty
    rw [flatten_cons] at split
    by_cases newline : NEWLINE ∈ buffer
    · obtain ⟨line,more,rfl,oneLine⟩ := eq_append_cons_of_mem newline
      rw [append_assoc,cons_append,split_newline _ oneLine,cons.injEq] at split
      obtain ⟨rfl,rfl⟩ := split
      rw [readLine_newline text more buffers oneLine,ended_newline]
      refine ⟨_,rfl,?_,?_⟩
      · cases more <;> simp [split_flatten]
      · cases more with
        | nil => exact nonempty.2
        | cons byte more => exact forall_mem_cons.mpr ⟨by simp,nonempty.2⟩
    · rw [readLine_cons text buffers newline]
      cases later : split_inclusive NEWLINE buffers.flatten with
      | nil =>
        -- the buffer is the end of the text
        have noneLeft : buffers.flatten = [] := by rw [← split_flatten buffers.flatten,later]; rfl
        have noBuffers : buffers = [] := by
          cases buffers with
          | nil => rfl
          | cons next rest =>
            rw [flatten_cons,append_eq_nil_iff] at noneLeft
            exact absurd noneLeft.1 (nonempty.2 next mem_cons_self)
        subst noBuffers
        rw [flatten_nil,append_nil,split_unended nonempty.1 newline,cons.injEq] at split
        obtain ⟨rfl,rfl⟩ := split
        rw [not_ended newline]
        exact ⟨[],rfl,rfl,by simp⟩
      | cons piece' pieces' =>
        obtain ⟨left,read,leftEq,leftNonempty⟩ := ih (text ++ buffer) later nonempty.2
        rw [split_append newline later,cons.injEq] at split
        obtain ⟨rfl,rfl⟩ := split
        exact ⟨left,by rw [read,append_assoc,ended_append piece' newline],leftEq,leftNonempty⟩

/-- Fuel for every byte gives all the lines. -/
theorem read_lines_eq (fuel : Nat) : ∀ buffers : List Bytes, buffers.flatten.length ≤ fuel →
    (∀ buffer ∈ buffers, buffer ≠ []) →
    read_lines fuel buffers = (split_inclusive NEWLINE buffers.flatten).map fun piece => lineOf piece
      (ended piece) := by
  induction fuel with
  | zero =>
    intro buffers room _
    rw [eq_nil_of_length_eq_zero (Nat.le_zero.mp room)]
    rfl
  | succ fuel ih =>
    intro buffers room nonempty
    cases buffers with
    | nil => rfl
    | cons buffer buffers =>
      cases split : split_inclusive NEWLINE (buffer :: buffers).flatten with
      | nil =>
        have noneLeft := split_flatten (buffer :: buffers).flatten
        rw [split,flatten_cons] at noneLeft
        exact absurd (append_eq_nil_iff.mp noneLeft.symm).1 (nonempty buffer mem_cons_self)
      | cons piece pieces =>
        obtain ⟨left,read,leftEq,leftNonempty⟩ := readLine_eq (buffer :: buffers) [] split nonempty
        have start : (⟨false,false,0,[]⟩ : Line) = lineOf [] false := rfl
        have sizes := congrArg length (split_flatten (buffer :: buffers).flatten)
        rw [split,flatten_cons,length_append] at sizes
        rw [read_lines,start,read]
        · show lineOf ([] ++ piece) (ended piece) :: read_lines fuel left = _
          rcases split_cons split with ⟨newline,rest⟩ | ⟨-,rfl⟩
          · have filled : 0 < piece.length := by
              cases piece with
              | nil => cases newline
              | cons byte piece => exact Nat.succ_pos _
            rw [ih left (by rw [leftEq]; omega) leftNonempty,leftEq,rest]
            rfl
          · rw [ih left (by rw [leftEq]; exact Nat.zero_le _) leftNonempty,leftEq]
            rfl
        · simp

theorem chop_flatten (sizes : List Nat) : ∀ bytes, (chop sizes bytes).flatten = bytes := by
  induction sizes with
  | nil => intro bytes; cases bytes <;> simp [chop]
  | cons size sizes ih =>
    intro bytes
    cases bytes with
    | nil => rfl
    | cons byte rest => rw [chop,flatten_cons,ih,cons_append,take_append_drop]

theorem chop_nonempty (sizes : List Nat) : ∀ bytes, ∀ buffer ∈ chop sizes bytes, buffer ≠ [] := by
  induction sizes with
  | nil => intro bytes; cases bytes <;> simp [chop]
  | cons size sizes ih =>
    intro bytes
    cases bytes with
    | nil => simp [chop]
    | cons byte rest => exact forall_mem_cons.mpr ⟨by simp,ih _⟩

/-- The lines of a reader do not depend on its buffers. -/
theorem linesOf_chop (sizes : List Nat) (bytes : Bytes) :
    linesOf (chop sizes bytes) = (split_inclusive NEWLINE bytes).map fun piece => lineOf piece (ended piece) := by
  rw [linesOf,read_lines_eq _ _ le_rfl (chop_nonempty sizes bytes),chop_flatten]

/-! ### Fresh records -/

/-- The records whose sequence exceeds `s` and that of every record before them. -/
def fresh (s : Nat) : List EventRecord → List EventRecord → List EventRecord
  | _, [] => []
  | earlier, record :: rest =>
    (if s < record.sequence ∧ ∀ other ∈ earlier, other.sequence < record.sequence then [record]
      else []) ++ fresh s (earlier ++ [record]) rest

/-- The same with the largest sequence so far, as a reader keeps it. -/
def above : Nat → List EventRecord → List EventRecord
  | _, [] => []
  | q, record :: rest => if q < record.sequence then record :: above record.sequence rest else above q rest
def top (q : Nat) (records : List EventRecord) : Nat := records.foldl (fun q record => max q record.sequence) q
theorem top_append (q : Nat) (first second : List EventRecord) : top q (first ++ second) = top (top q first) second :=
  foldl_append

theorem above_append (first second : List EventRecord) : ∀ q, above q (first ++ second) = above q first ++ above
    (top q first) second := by
  induction first with
  | nil => exact fun _ => rfl
  | cons record first ih =>
    intro q
    rw [cons_append,above,above,top,foldl_cons]
    split_ifs with exceeds
    · rw [ih,max_eq_right exceeds.le]
      rfl
    · rw [ih,max_eq_left (Nat.le_of_not_lt exceeds)]
      rfl

theorem top_lt_iff {bound : Nat} (records : List EventRecord) : ∀ q,
    top q records < bound ↔ q < bound ∧ ∀ record ∈ records, record.sequence < bound := by
  induction records with
  | nil => simp [top]
  | cons record records ih =>
    intro q
    rw [top,foldl_cons]
    exact (ih (max q record.sequence)).trans (by rw [max_lt_iff,forall_mem_cons,and_assoc])

theorem fresh_eq_above (s : Nat) (records : List EventRecord) : ∀ earlier, fresh s earlier records = above
    (top s earlier) records := by
  induction records with
  | nil => exact fun _ => rfl
  | cons record records ih =>
    intro earlier
    have next : top s (earlier ++ [record]) = max (top s earlier) record.sequence := top_append s earlier [record]
    rw [fresh,above,ih,next]
    simp only [← top_lt_iff]
    split_ifs with exceeds
    · rw [max_eq_right exceeds.le]
      rfl
    · rw [max_eq_left (Nat.le_of_not_lt exceeds)]
      rfl

/-- What is above two numbers is, of what is above the one, what exceeds the other. -/
theorem above_max (s : Nat) (records : List EventRecord) : ∀ q,
    above (max s q) records = (above q records).filter (fun record => decide (s < record.sequence)) := by
  induction records with
  | nil => exact fun _ => rfl
  | cons record records ih =>
    intro q
    rw [above,above]
    by_cases exceeds : q < record.sequence
    · rw [if_pos exceeds,filter_cons,← ih]
      by_cases wanted : s < record.sequence
      · rw [if_pos (max_lt wanted exceeds),if_pos (decide_eq_true wanted),max_eq_right wanted.le]
      · have low := Nat.le_of_not_lt wanted
        rw [if_neg fun both => wanted (max_lt_iff.mp both).1,if_neg (by simpa using low),max_eq_left low,
          max_eq_left (exceeds.le.trans low)]
    · rw [if_neg exceeds,if_neg fun both => exceeds (max_lt_iff.mp both).2,ih]

/-! ### Pages -/

variable (libs : Libraries) (owner stream_id : String)

/-- The valid record of a line. -/
def recordOf (piece : Bytes) : Option EventRecord :=
  if ended piece = false ∨ MAX_EVENT_LINE_BYTES < piece.length ∨ piece.all is_ascii_whitespace = true then none
  else match decode_record libs piece with
    | .error _ => none
    | .ok record => if record.validate_for_stream libs owner stream_id = .ok () then some record else none

/-- A line that is read as one of another schema. -/
def OtherSchema (piece : Bytes) : Prop :=
  ended piece = true ∧ piece.length ≤ MAX_EVENT_LINE_BYTES ∧ piece.all is_ascii_whitespace = false
    ∧ ∃ found supported, decode_record libs piece = .error (.UnsupportedSchema found supported)

variable {libs owner stream_id} {cursor : EventCursor} {page : PageState} {piece : Bytes} {record : EventRecord}

/-- A line without a new record is passed over. -/
theorem page_passes (cursor : EventCursor) (limit : Nat) (rest : List Line) (newline : ended piece = true)
    (inRange : page.byte_offset + piece.length ≤ U64_MAX) (readable : ¬OtherSchema libs piece)
    (old : ∀ record ∈ recordOf libs owner stream_id piece, record.sequence ≤ page.sequence) :
    ∃ skipped, readPage libs owner stream_id cursor limit page (lineOf piece (ended piece) :: rest) =
      readPage libs owner stream_id cursor limit
        { page with skipped_lines := skipped, byte_offset := page.byte_offset + piece.length } rest := by
  rw [readPage]
  simp only [lineOf,newline,Bool.not_true,Bool.false_eq_true,if_false,if_neg (Nat.not_lt.mpr inRange),decide_eq_true_eq]
  by_cases long : MAX_EVENT_LINE_BYTES < piece.length
  · rw [if_pos long]
    exact ⟨_,rfl⟩
  have short : piece.length ≤ MAX_EVENT_LINE_BYTES := Nat.le_of_not_lt long
  rw [if_neg long]
  simp only [if_pos short]
  by_cases blank : piece.all is_ascii_whitespace = true
  · rw [if_pos blank]
    exact ⟨page.skipped_lines,rfl⟩
  rw [if_neg blank]
  cases decoded : decode_record libs piece with
  | error error =>
    cases error with
    | UnsupportedSchema found supported =>
        exact absurd ⟨newline,short,Bool.not_eq_true _ ▸ blank,found,supported,decoded⟩ readable
    | InvalidInput message => exact ⟨_,rfl⟩
    | Serialize => exact ⟨_,rfl⟩
    | CorruptRecord => exact ⟨_,rfl⟩
  | ok record =>
    cases valid : record.validate_for_stream libs owner stream_id with
    | error error =>
      simp only [valid]
      exact ⟨_,rfl⟩
    | ok _ =>
      have ofPiece : recordOf libs owner stream_id piece = some record := by
        simp [recordOf,newline,short,blank,decoded,valid]
      have low := old record ofPiece
      simp only [valid,if_pos low]
      split_ifs
      · exact ⟨page.skipped_lines,rfl⟩
      · exact ⟨_,rfl⟩

/-- A line with a new record ends the page or adds to it. -/
theorem page_takes (limit : Nat) (rest : List Line) (inRange : page.byte_offset + piece.length ≤ U64_MAX)
    (known : cursor.sequence ≤ page.sequence)
    (hasRecord : recordOf libs owner stream_id piece = some record) (new : page.sequence < record.sequence) :
    piece.length ≤ MAX_EVENT_LINE_BYTES ∧ ended piece = true ∧
    readPage libs owner stream_id cursor limit page (lineOf piece (ended piece) :: rest) =
      if MAX_PAGE_BYTES < page.page_bytes + piece.length then .ok page
      else if page.events.length + 1 = limit then
        .ok ⟨page.events ++ [record],page.skipped_lines,record.sequence,page.byte_offset + piece.length,
          page.page_bytes + piece.length⟩
      else readPage libs owner stream_id cursor limit
        ⟨page.events ++ [record],page.skipped_lines,record.sequence,page.byte_offset + piece.length,
          page.page_bytes + piece.length⟩ rest := by
  rw [recordOf] at hasRecord
  split_ifs at hasRecord with bad
  rw [not_or,not_or,Bool.not_eq_false,not_lt,Bool.not_eq_true] at bad
  obtain ⟨newline,short,visible⟩ := bad
  cases decoded : decode_record libs piece with
  | error error => simp [decoded] at hasRecord
  | ok read =>
    simp only [decoded,Option.ite_none_right_eq_some,Option.some.injEq] at hasRecord
    obtain ⟨valid,rfl⟩ := hasRecord
    refine ⟨short,newline,?_⟩
    rw [readPage]
    simp only [lineOf,newline,Bool.not_true,Bool.false_eq_true,if_false,if_neg (Nat.not_lt.mpr inRange),
      decide_eq_true_eq,
      if_neg (Nat.not_lt.mpr short),if_pos short,visible,decoded,valid,if_neg (Nat.not_le.mpr new),length_append,
        length_singleton]
    rw [if_neg (fun low => Nat.not_le.mpr new (low.1.trans known))]

variable (libs owner stream_id) in
def recordsOf (pieces : List Bytes) : List EventRecord := pieces.filterMap (recordOf libs owner stream_id)
theorem recordsOf_unended (unended : ∀ piece ∈ pieces, ended piece = false) :
    recordsOf libs owner stream_id pieces = [] :=
  filterMap_eq_nil_iff.mpr fun piece member => if_pos (.inl (unended piece member))
theorem recordsOf_append (first second : List Bytes) :
    recordsOf libs owner stream_id
      (first ++ second) = recordsOf libs owner stream_id first ++ recordsOf libs owner stream_id second :=
  filterMap_append

/-- What a page has taken of the lines before it. -/
structure Took (libs : Libraries) (owner stream_id : String) (page : PageState) (taken left : List Bytes)
    (page' : PageState) : Prop where
  lines : ∀ piece ∈ taken, ended piece = true
  events : page'.events = page.events ++ above page.sequence (recordsOf libs owner stream_id taken)
  sequence : page'.sequence = top page.sequence (recordsOf libs owner stream_id taken)
  offset : page'.byte_offset = page.byte_offset + taken.flatten.length
  /-- A page that leaves a line with its newline to the next has a record. -/
  progress : page'.events = [] → ∀ piece ∈ left, ended piece = false

/-- The line before what was taken has nothing new. -/
theorem Took.pass {page' : PageState} {skipped : Nat} (newline : ended piece = true)
    (old : ∀ record ∈ recordOf libs owner stream_id piece, record.sequence ≤ page.sequence)
    (took : Took libs owner stream_id
      { page with skipped_lines := skipped, byte_offset := page.byte_offset + piece.length } taken left page') :
    Took libs owner stream_id page (piece :: taken) left page' := by
  have same : above page.sequence (recordsOf libs owner stream_id (piece :: taken)) =
    above page.sequence (recordsOf libs owner stream_id taken)
      ∧ top page.sequence (recordsOf libs owner stream_id (piece :: taken)) =
        top page.sequence (recordsOf libs owner stream_id taken) := by
    cases hasRecord : recordOf libs owner stream_id piece with
    | none => simp [recordsOf,hasRecord]
    | some record =>
      have low := old record hasRecord
      simp [recordsOf,hasRecord,above,top,Nat.not_lt.mpr low,max_eq_left low]
  refine ⟨forall_mem_cons.mpr ⟨newline,took.lines⟩,?_,?_,?_,took.progress⟩
  · rw [same.1]
    exact took.events
  · rw [same.2]
    exact took.sequence
  · rw [took.offset,flatten_cons,length_append]
    simp only
    omega

/-- The line before what was taken has a new record. -/
theorem Took.take {page' : PageState} {skipped bytes : Nat} (newline : ended piece = true)
    (hasRecord : recordOf libs owner stream_id piece = some record) (new : page.sequence < record.sequence)
    (took : Took libs owner stream_id ⟨page.events ++ [record],skipped,record.sequence,page.byte_offset + piece.length,
      bytes⟩ taken left page') :
    Took libs owner stream_id page (piece :: taken) left page' := by
  have has : recordsOf libs owner stream_id (piece :: taken) = record :: recordsOf libs owner stream_id taken := by
    simp [recordsOf,hasRecord]
  refine ⟨forall_mem_cons.mpr ⟨newline,took.lines⟩,?_,?_,?_,took.progress⟩
  · rw [took.events,has,above,if_pos new,append_assoc]
    rfl
  · rw [took.sequence,has,top,top,foldl_cons,max_eq_right new.le]
  · rw [took.offset,flatten_cons,length_append]
    simp only
    omega

/-- The loop of a page, from the lines that are left. -/
theorem readPage_took {limit : Nat} (pieces : List Bytes) : split_inclusive NEWLINE pieces.flatten = pieces →
    (∀ piece ∈ pieces, ¬OtherSchema libs piece) →
    ∀ page : PageState, cursor.sequence ≤ page.sequence → page.byte_offset + pieces.flatten.length ≤ U64_MAX →
    (page.events = [] → page.page_bytes = 0) →
    ∃ taken left page', pieces = taken ++ left
      ∧ readPage libs owner stream_id cursor limit page (pieces.map fun piece => lineOf piece (ended piece)) = .ok page'
      ∧ Took libs owner stream_id page taken left page' := by
  induction pieces with
  | nil =>
    intro _ _ page _ _ _
    exact ⟨[],[],page,rfl,rfl,⟨by simp,(append_nil _).symm,rfl,rfl,by simp⟩⟩
  | cons piece pieces ih =>
    intro split readable page known inRange started
    rw [forall_mem_cons] at readable
    rw [flatten_cons,length_append] at inRange
    have lineRange : page.byte_offset + piece.length ≤ U64_MAX := by omega
    have restRange : page.byte_offset + piece.length + pieces.flatten.length ≤ U64_MAX := by omega
    rw [map_cons]
    rcases split_cons split with ⟨newline,rest⟩ | ⟨unended,rfl⟩
    · by_cases freshRecord : ∃ record ∈ recordOf libs owner stream_id piece, page.sequence < record.sequence
      · obtain ⟨record,hasRecord,new⟩ := freshRecord
        obtain ⟨short,-,read⟩ :=
          page_takes limit (pieces.map fun piece => lineOf piece (ended piece)) lineRange known hasRecord new
        rw [read]
        split_ifs with large full
        · -- the record is left to the next page, so this one has another
          refine ⟨[],piece :: pieces,page,rfl,rfl,⟨by simp,(append_nil _).symm,rfl,rfl,fun empty => ?_⟩⟩
          have := started empty
          simp only [MAX_PAGE_BYTES,MAX_EVENT_LINE_BYTES] at *
          omega
        · exact ⟨[piece],pieces,_,rfl,rfl,.take newline hasRecord new ⟨by simp,(append_nil _).symm,rfl,rfl,by simp⟩⟩
        · obtain ⟨taken,left,page',rfl,read',took⟩ := ih rest readable.2
            ⟨page.events ++ [record],page.skipped_lines,record.sequence,page.byte_offset + piece.length,
              page.page_bytes + piece.length⟩
            (known.trans new.le) restRange (by simp)
          exact ⟨piece :: taken,left,page',rfl,read',.take newline hasRecord new took⟩
      · have old : ∀ record ∈ recordOf libs owner stream_id piece, record.sequence ≤ page.sequence :=
          fun record hasRecord => Nat.le_of_not_lt fun new => freshRecord ⟨record,hasRecord,new⟩
        obtain ⟨skipped,read⟩ :=
          page_passes cursor limit (pieces.map fun piece => lineOf piece (ended piece)) newline lineRange readable.1 old
        obtain ⟨taken,left,page',rfl,read',took⟩ := ih rest readable.2
          { page with skipped_lines := skipped, byte_offset := page.byte_offset + piece.length } known restRange started
        exact ⟨piece :: taken,left,page',rfl,by rw [read,read'],.pass newline old took⟩
    · refine ⟨[],[piece],page,rfl,?_,⟨by simp,(append_nil _).symm,rfl,rfl,by simp [unended]⟩⟩
      simp [readPage,lineOf,unended]

/-! ### Replays -/

/-- A cursor of the stream after some of the lines of a file. -/
structure Placed (libs : Libraries) (owner stream_id : String) (file : EventFile) (cursor : EventCursor)
    (taken left : List Bytes) : Prop where
  split : split_inclusive NEWLINE file.bytes = taken ++ left
  lines : ∀ piece ∈ taken, ended piece = true
  offset : cursor.byte_offset = taken.flatten.length
  digest : cursor.stream_digest = stream_digest libs owner stream_id

/-- The same in a replay that began after `s`. -/
structure At (libs : Libraries) (owner stream_id : String) (file : EventFile) (s : Nat) (cursor : EventCursor)
    (taken left : List Bytes) : Prop
    extends Placed libs owner stream_id file cursor taken left where
  sequence : cursor.sequence = top s (recordsOf libs owner stream_id taken)

/-- The lines after some that have their newlines are the lines of the rest. -/
theorem split_rest (taken : List Bytes) : (∀ piece ∈ taken, ended piece = true) →
    ∀ bytes, split_inclusive NEWLINE bytes = taken ++ left → split_inclusive NEWLINE left.flatten = left := by
  induction taken with
  | nil =>
    intro _ bytes split
    rw [nil_append] at split
    rw [← split,split_flatten]
  | cons piece taken ih =>
    intro lines bytes split
    rw [forall_mem_cons] at lines
    rcases split_cons split with ⟨-,rest⟩ | ⟨unended,-⟩
    · exact ih lines.2 _ rest
    · rw [lines.1] at unended
      cases unended

theorem ended_flatten (lines : ∀ piece ∈ taken, ended piece = true) :
    taken.flatten = [] ∨ ended taken.flatten = true := by
  rcases eq_nil_or_concat taken with rfl | ⟨first,last,rfl⟩
  · exact .inl rfl
  · have newline := lines last (by simp)
    refine .inr ?_
    rw [concat_eq_append,flatten_concat,ended,getLast?_append]
    rw [ended,beq_iff_eq] at newline
    simp [newline]

variable {file : EventFile}

theorem Placed.boundary (position : Placed libs owner stream_id file cursor taken left) :
    validate_cursor_boundary file.bytes cursor.byte_offset = .ok file.bytes.length ∧
      file.bytes.drop cursor.byte_offset = left.flatten
      ∧ file.bytes.length = cursor.byte_offset + left.flatten.length := by
  have parts : file.bytes = taken.flatten ++ left.flatten := by
    rw [← split_flatten file.bytes,position.split,flatten_append]
  rw [position.offset,parts]
  refine ⟨?_,drop_left,length_append⟩
  rw [validate_cursor_boundary,if_neg (by simp)]
  split_ifs with start inside
  · rfl
  · rcases ended_flatten position.lines with noneTaken | newline
    · exact absurd (by rw [noneTaken]; rfl) start
    · rw [ended,beq_iff_eq,getLast?_eq_getElem?] at newline
      rw [getElem?_append_left (by omega)] at inside
      exact absurd newline inside
  · rfl

/-- One page, wherever its cursor is placed. -/
theorem read_from_placed (call : Call) (accepted : validateStream owner stream_id = .ok ())
    (inRange : 1 ≤ call.limit ∧ call.limit ≤ MAX_READ_LIMIT) (readable : ∀ piece ∈ left, ¬OtherSchema libs piece)
    (position : Placed libs owner stream_id file cursor taken left) :
    ∃ page taken' left', read_from libs owner stream_id call.sizes (some file) cursor call.limit = .ok page ∧
      left = taken' ++ left'
      ∧ Placed libs owner stream_id file page.next_cursor (taken ++ taken') left'
      ∧ page.next_cursor.sequence = top cursor.sequence (recordsOf libs owner stream_id taken')
      ∧ page.events = above cursor.sequence (recordsOf libs owner stream_id taken')
      ∧ (page.events = [] → ∀ piece ∈ left', ended piece = false)
      ∧ (page.has_more = false ↔ left' = []) := by
  obtain ⟨boundary,dropped,size⟩ := position.boundary
  have split : split_inclusive NEWLINE left.flatten = left := split_rest taken position.lines _ position.split
  obtain ⟨taken',left',page,rfl,read,took⟩ := @readPage_took libs owner stream_id
    { cursor with stream_digest := stream_digest libs owner stream_id } call.limit left split readable
    ⟨[],0,cursor.sequence,cursor.byte_offset,0⟩ le_rfl (by have := file.lengthFits; simp only; omega) (fun _ => rfl)
  have digest : ((cursor.sequence != 0 || cursor.byte_offset != 0) &&
    cursor.stream_digest != stream_digest libs owner stream_id) = false := by
    rw [position.digest,bne_self_eq_false,Bool.and_false]
  refine ⟨⟨page.events,page.skipped_lines,page.sequence,
    ⟨page.sequence,page.byte_offset,stream_digest libs owner stream_id⟩,
    decide (page.byte_offset < file.bytes.length)⟩,taken',left',?_,rfl,⟨?_,?_,?_,rfl⟩,took.sequence,?_,took.progress,?_⟩
  · simp only [read_from,accepted,digest,inRange.1,inRange.2,rejectIf,read_from_blocking,boundary,dropped,
      linesOf_chop,split,read,
      decide_true,Bool.and_true,Bool.not_true,Bool.false_eq_true,if_false,bind,Except.bind,pure,Except.pure]
  · rw [position.split,append_assoc]
  · rintro piece member
    rcases mem_append.mp member with before | now
    · exact position.lines piece before
    · exact took.lines piece now
  · rw [flatten_append,length_append,← position.offset]
    exact took.offset
  · rw [took.events]
    rfl
  · have offset := took.offset
    simp only [decide_eq_false_iff_not,not_lt,flatten_append,length_append] at size offset ⊢
    constructor
    · intro noMore
      have empty : left'.flatten = [] := eq_nil_of_length_eq_zero (by omega)
      rw [← split_rest taken' took.lines _ split,empty]
      rfl
    · rintro rfl
      simp only [flatten_nil,length_nil] at size
      omega

/-- One page of a replay. -/
theorem read_from_at {s : Nat} (call : Call)
    (accepted : validateStream owner stream_id = .ok ()) (inRange : 1 ≤ call.limit ∧ call.limit ≤ MAX_READ_LIMIT)
    (readable : ∀ piece ∈ left, ¬OtherSchema libs piece) (position : At libs owner stream_id file s cursor taken left) :
    ∃ page taken' left', read_from libs owner stream_id call.sizes (some file) cursor call.limit = .ok page ∧
      left = taken' ++ left'
      ∧ At libs owner stream_id file s page.next_cursor (taken ++ taken') left'
      ∧ page.events = above cursor.sequence (recordsOf libs owner stream_id taken')
      ∧ (page.events = [] → above page.next_cursor.sequence (recordsOf libs owner stream_id left') = [])
      ∧ (page.has_more = false → left' = []) := by
  obtain ⟨page,taken',left',read,rfl,position',sequence,events,progress,noMore⟩ :=
    read_from_placed call accepted inRange readable position.toPlaced
  refine ⟨page,taken',left',read,rfl,⟨position',?_⟩,events,fun empty => ?_,noMore.mp⟩
  · rw [sequence,recordsOf_append,top_append,← position.sequence]
  · rw [recordsOf_unended (progress empty)]
    rfl

/-- The events of the pages, in order. -/
def eventsOf (pages : List EventPage) : List EventRecord := pages.flatMap EventPage.events
/-- Some page says that nothing is left, or has nothing. -/
def Exhausted (pages : List EventPage) : Prop := ∃ page ∈ pages, page.events = [] ∨ page.has_more = false
/-- The lines of a file; one that was not found has none. -/
def fileLines (file : Option EventFile) : List Bytes := file.elim [] fun file => split_inclusive NEWLINE file.bytes
/-- What the pages from a cursor on return, of the records that are left. -/
def Returns (records : List EventRecord) (calls : List Call) (pages : List EventPage) : Prop :=
  eventsOf pages <+: records ∧ (records.length ≤ calls.length ∨ Exhausted pages → eventsOf pages = records)

theorem Returns.cons {first rest : List EventRecord} {call : Call} {calls : List Call} {page : EventPage}
    {pages : List EventPage} (events : page.events = first)
    (progress : page.events = [] ∨ page.has_more = false → rest = []) (returns : Returns rest calls pages) :
    Returns (first ++ rest) (call :: calls) (page :: pages) := by
  have all : eventsOf (page :: pages) = first ++ eventsOf pages := by rw [← events]; rfl
  refine ⟨by rw [all]; exact prefix_append_right_inj first |>.mpr returns.1,fun enough => ?_⟩
  rw [all]
  congr 1
  by_cases last : page.events = [] ∨ page.has_more = false
  · have noneLeft := returns.1
    rw [progress last,prefix_nil] at noneLeft
    rw [progress last,noneLeft]
  · refine returns.2 (enough.imp (fun room => ?_) fun exhausted => ?_)
    · have filled : 0 < first.length := length_pos_of_ne_nil fun empty => last (.inl (events.trans empty))
      rw [length_append,length_cons] at room
      omega
    · obtain ⟨other,member,ends⟩ := exhausted
      rcases mem_cons.mp member with rfl | later
      · exact absurd ends last
      · exact ⟨other,later,ends⟩

theorem follow_returns {s : Nat} (accepted : validateStream owner stream_id = .ok ()) (calls : List Call) :
    (∀ call ∈ calls, 1 ≤ call.limit ∧ call.limit ≤ MAX_READ_LIMIT) → ∀ (cursor : EventCursor) (taken left : List Bytes),
    (∀ piece ∈ left, ¬OtherSchema libs piece) → At libs owner stream_id file s cursor taken left →
    ∃ pages, follow libs owner stream_id (some file) cursor calls = .ok pages
      ∧ Returns (above cursor.sequence (recordsOf libs owner stream_id left)) calls pages := by
  induction calls with
  | nil =>
    intro _ cursor taken left _ _
    refine ⟨[],rfl,List.nil_prefix,fun enough => ?_⟩
    rcases enough with noneLeft | ⟨page,member,-⟩
    · exact (eq_nil_of_length_eq_zero (Nat.le_zero.mp noneLeft)).symm
    · cases member
  | cons call calls ih =>
    intro inRange cursor taken left readable position
    rw [forall_mem_cons] at inRange
    obtain ⟨page,taken',left',read,rfl,position',events,progress,noMore⟩ :=
      read_from_at call accepted inRange.1 readable position
    obtain ⟨pages,followed,returns⟩ := ih inRange.2 page.next_cursor (taken ++ taken') left'
      (fun piece member => readable piece (mem_append_right _ member)) position'
    refine ⟨page :: pages,by simp [follow,read,followed,bind,Except.bind,pure,Except.pure],?_⟩
    have next : page.next_cursor.sequence = top cursor.sequence (recordsOf libs owner stream_id taken') := by
      rw [position'.sequence,recordsOf_append,top_append,← position.sequence]
    rw [recordsOf_append,above_append,← next]
    refine returns.cons events fun last => ?_
    rcases last with empty | ends
    · exact progress empty
    · rw [noMore ends]
      rfl

/-- Where there is no file, all pages are empty. -/
theorem follow_not_found (accepted : validateStream owner stream_id = .ok ()) (calls : List Call) :
    (∀ call ∈ calls, 1 ≤ call.limit ∧ call.limit ≤ MAX_READ_LIMIT) → ∀ cursor :
    EventCursor, cursor.stream_digest = stream_digest libs owner stream_id →
    ∃ pages, follow libs owner stream_id none cursor calls = .ok pages ∧ eventsOf pages = [] := by
  induction calls with
  | nil => exact fun _ _ _ => ⟨[],rfl,rfl⟩
  | cons call calls ih =>
    intro inRange cursor digest
    rw [forall_mem_cons] at inRange
    obtain ⟨pages,followed,noEvents⟩ :=
      ih inRange.2 { cursor with stream_digest := stream_digest libs owner stream_id } rfl
    refine ⟨⟨[],0,cursor.sequence,{ cursor with stream_digest := stream_digest libs owner stream_id },
      false⟩ :: pages,?_,noEvents⟩
    simp [follow,read_from,accepted,digest,inRange.1.1,inRange.1.2,rejectIf,read_from_blocking,followed,bind,
      Except.bind,pure,Except.pure]

theorem replay_eq_follow (file : Option EventFile) (s : Nat) (calls : List Call) :
    replay libs owner stream_id file s calls = follow libs owner stream_id file
      ⟨s,0,stream_digest libs owner stream_id⟩ calls := by
  cases calls <;> rfl

theorem replay_returns (file : Option EventFile) (accepted : validateStream owner stream_id = .ok ())
    (readable : ∀ piece ∈ fileLines file, ¬OtherSchema libs piece) (s : Nat) (calls : List Call)
    (inRange : ∀ call ∈ calls, 1 ≤ call.limit ∧ call.limit ≤ MAX_READ_LIMIT) :
    ∃ pages, replay libs owner stream_id file s calls = .ok pages
      ∧ Returns (fresh s [] (recordsOf libs owner stream_id (fileLines file))) calls pages := by
  rw [replay_eq_follow,fresh_eq_above]
  cases file with
  | none =>
    obtain ⟨pages,followed,noEvents⟩ :=
      follow_not_found accepted calls inRange ⟨s,0,stream_digest libs owner stream_id⟩ rfl
    exact ⟨pages,followed,by rw [noEvents]; exact List.nil_prefix,fun _ => noEvents⟩
  | some file =>
    exact follow_returns accepted calls inRange ⟨s,0,stream_digest libs owner stream_id⟩ []
      (split_inclusive NEWLINE file.bytes) readable
      ⟨⟨rfl,by simp,rfl,rfl⟩,rfl⟩

/-- The pages of a replay return, in order and each once, the valid records of the file whose sequence exceeds `s` and
    that of every valid record before them: first a part of them, and all once a page is the last or there were as many
    pages as records. A replay after `s` is one from 0 without the records up to `s`. -/
theorem replay_is_fresh (file : Option EventFile) (accepted : validateStream owner stream_id = .ok ())
    (readable : ∀ piece ∈ fileLines file, ¬OtherSchema libs piece) (s : Nat) (calls : List Call)
    (inRange : ∀ call ∈ calls, 1 ≤ call.limit ∧ call.limit ≤ MAX_READ_LIMIT) :
    ∃ pages, replay libs owner stream_id file s calls = .ok pages
      ∧ Returns (fresh s [] (recordsOf libs owner stream_id (fileLines file))) calls pages
      ∧ ∀ calls' pages', (∀ call ∈ calls', 1 ≤ call.limit ∧ call.limit ≤ MAX_READ_LIMIT) →
        replay libs owner stream_id file 0 calls' = .ok pages' → Exhausted pages → Exhausted pages' →
        eventsOf pages = (eventsOf pages').filter (fun record => decide (s < record.sequence)) := by
  obtain ⟨pages,replayed,returns⟩ := replay_returns file accepted readable s calls inRange
  refine ⟨pages,replayed,returns,fun calls' pages' in_range' replayed' exhausted exhausted' => ?_⟩
  obtain ⟨pages₀,replayed₀,returns₀⟩ := replay_returns file accepted readable 0 calls' in_range'
  rw [replayed',Except.ok.injEq] at replayed₀
  subst replayed₀
  rw [returns.2 (.inr exhausted),returns₀.2 (.inr exhausted'),fresh_eq_above,fresh_eq_above]
  have start : top s [] = max s 0 := (Nat.max_zero s).symm
  rw [start,above_max]
  rfl

section sample
def sample_record (sequence : Nat) : EventRecord :=
  ⟨1,"event","stream",sequence,⟨0,epoch_in_range⟩,"owner",.System,"sample",.System,none,none,none,[]⟩

/-- A line is the digit of a sequence number. -/
def sampleLibraries : Libraries where
  sha256 := id
  payloadToVec _ := some [0x7b,0x7d]
  Value := Bytes
  valueFromSlice := some
  schemaOf _ := some 1
  recordFromValue value := value.head?.map fun digit => sample_record (digit.toNat - 48)

/-- The numbers 2, 1 and 3, and a 4 without its newline. -/
def sampleFile : EventFile := ⟨[50,10,49,10,51,10,52],by decide⟩

theorem sample_readable (file : Option EventFile) : ∀ piece ∈ fileLines file, ¬OtherSchema sampleLibraries piece := by
  rintro piece - ⟨-,-,-,found,supported,other⟩
  simp only [decode_record,sampleLibraries,EVENT_SCHEMA,ne_eq,not_true_eq_false,if_false] at other
  cases piece <;> cases other

theorem sample_replay : ∃ pages, replay sampleLibraries "owner" "stream" (some sampleFile) 0
    [⟨1,[0]⟩,⟨1,[]⟩] = .ok pages
    ∧ eventsOf pages = [sample_record 2,sample_record 3] := by
  have accepted : validateStream "owner" "stream" = .ok () := by decide
  have records : fresh 0 [] (recordsOf sampleLibraries "owner" "stream" (fileLines (some sampleFile))) =
    [sample_record 2,sample_record 3] := by
    decide
  obtain ⟨pages,replayed,returns,-⟩ :=
    replay_is_fresh (some sampleFile) accepted (sample_readable _) 0 [⟨1,[0]⟩,⟨1,[]⟩] (by decide)
  rw [records] at returns
  exact ⟨pages,replayed,returns.2 (.inl (by decide))⟩

end sample

/-! ### Readers that follow `has_more` -/

/-- A text that is empty or ends in a newline is split apart from what follows it. -/
theorem split_ended (rest : Bytes) (first : Bytes) : first = [] ∨ ended first = true →
    split_inclusive NEWLINE (first ++ rest) = split_inclusive NEWLINE first ++ split_inclusive NEWLINE rest ∧
      ∀ piece ∈ split_inclusive NEWLINE first, ended piece = true := by
  induction first with
  | nil => exact fun _ => ⟨rfl,by simp [split_inclusive]⟩
  | cons byte first ih =>
    intro closed
    have closed : ended (byte :: first) = true := closed.resolve_left (by simp)
    by_cases newline : byte = NEWLINE
    · have tail : first = [] ∨ ended first = true := by
        cases first with
        | nil => exact .inl rfl
        | cons next first => exact .inr (by simpa [ended] using closed)
      obtain ⟨split,lines⟩ := ih tail
      rw [cons_append,split_inclusive,split_inclusive,if_pos newline,if_pos newline,split]
      refine ⟨rfl,forall_mem_cons.mpr ⟨?_,lines⟩⟩
      rw [newline]
      rfl
    · have tail : ended first = true := by
        rw [← closed]
        exact (@ended_append [byte] first (by simpa using Ne.symm newline)).symm
      obtain ⟨split,lines⟩ := ih (.inr tail)
      rw [cons_append,split_inclusive,split_inclusive,if_neg newline,if_neg newline,split]
      cases pieces : split_inclusive NEWLINE first with
      | nil =>
        rw [← split_flatten first,pieces] at tail
        cases tail
      | cons piece others =>
        rw [pieces,forall_mem_cons] at lines
        refine ⟨rfl,forall_mem_cons.mpr ⟨?_,lines.2⟩⟩
        exact (@ended_append [byte] piece (by simpa using Ne.symm newline)).trans lines.1

/-- A cursor that is accepted stands behind whole lines. -/
theorem placed_of_boundary {length : Nat}
    (boundary : validate_cursor_boundary file.bytes cursor.byte_offset = .ok length)
    (digest : cursor.stream_digest = stream_digest libs owner stream_id) :
    Placed libs owner stream_id file cursor (split_inclusive NEWLINE (file.bytes.take cursor.byte_offset))
      (split_inclusive NEWLINE (file.bytes.drop cursor.byte_offset)) := by
  have within : cursor.byte_offset ≤ file.bytes.length := by
    rw [validate_cursor_boundary] at boundary
    split_ifs at boundary with past
    all_goals exact Nat.le_of_not_lt past
  have closed : file.bytes.take cursor.byte_offset = [] ∨ ended (file.bytes.take cursor.byte_offset) = true := by
    rw [validate_cursor_boundary] at boundary
    split_ifs at boundary with past start inside
    · exact .inl (by rw [start]; rfl)
    · right
      rw [ended,getLast?_take,if_neg start,Decidable.not_not.mp inside]
      rfl
  obtain ⟨split,lines⟩ := split_ended (file.bytes.drop cursor.byte_offset) _ closed
  rw [take_append_drop] at split
  exact ⟨split,lines,by rw [split_flatten,length_take,min_eq_left within],digest⟩

/-- What a read that returns a page says of its arguments, and where its cursor is. -/
theorem read_from_ok {sizes : List Nat} {limit : Nat}
    {page : EventPage} (readable : ∀ piece ∈ split_inclusive NEWLINE file.bytes, ¬OtherSchema libs piece)
    (read : read_from libs owner stream_id sizes (some file) cursor limit = .ok page) :
    validateStream owner stream_id = .ok () ∧ ∃ taken left, Placed libs owner stream_id file page.next_cursor taken left
      ∧ (page.has_more = false ↔ left = []) := by
  rw [read_from,then_eq_ok,then_eq_ok,then_eq_ok] at read
  obtain ⟨accepted,-,limits,blocking⟩ := read
  have inRange : 1 ≤ limit ∧ limit ≤ MAX_READ_LIMIT := by
    rw [rejectIf] at limits
    split_ifs at limits with bad
    simpa [Nat.one_le_iff_ne_zero] using bad
  have boundary : ∃ length, validate_cursor_boundary file.bytes cursor.byte_offset = .ok length := by
    rw [read_from_blocking,bind_eq_ok] at blocking
    exact blocking.imp fun _ found => found.1
  obtain ⟨length,boundary⟩ := boundary
  have position := @placed_of_boundary libs owner stream_id
    { cursor with stream_digest := stream_digest libs owner stream_id } file length boundary rfl
  have leftReadable : ∀ piece ∈ split_inclusive NEWLINE (file.bytes.drop cursor.byte_offset), ¬OtherSchema libs piece :=
    fun piece member => readable piece (by rw [position.split]; exact mem_append_right _ member)
  obtain ⟨page',taken',left',read',-,position',-,-,-,noMore⟩ := read_from_placed ⟨limit,
    sizes⟩ accepted inRange leftReadable position
  rw [read_from,then_eq_ok,then_eq_ok,then_eq_ok] at read'
  obtain ⟨-,-,-,blocking'⟩ := read'
  cases blocking.symm.trans blocking'
  exact ⟨accepted,_,left',position',noMore⟩

/-- A text has a newline just if one of its lines has its newline. -/
theorem newline_mem_iff (split : split_inclusive NEWLINE bytes = pieces) : NEWLINE ∈ bytes ↔
    ∃ piece ∈ pieces, ended piece = true := by
  constructor
  · intro newline
    obtain ⟨line,rest,rfl,oneLine⟩ := eq_append_cons_of_mem newline
    rw [split_newline rest oneLine] at split
    exact ⟨_,split ▸ mem_cons_self,ended_newline line⟩
  · rintro ⟨piece,member,newline⟩
    rw [ended,beq_iff_eq] at newline
    rw [← split_flatten bytes,split]
    exact mem_flatten.mpr ⟨piece,member,mem_of_getLast? newline⟩

/-- A page moves on if a line with its newline is left. -/
theorem read_from_moves (call : Call) (accepted : validateStream owner stream_id = .ok ())
    (inRange : 1 ≤ call.limit ∧ call.limit ≤ MAX_READ_LIMIT) (readable : ∀ piece ∈ left, ¬OtherSchema libs piece)
    (unread : ∃ piece ∈ left, ended piece = true) (position : Placed libs owner stream_id file cursor taken left) :
    ∃ page taken' left', read_from libs owner stream_id call.sizes (some file) cursor call.limit = .ok page ∧
      left = taken' ++ left'
      ∧ Placed libs owner stream_id file page.next_cursor (taken ++ taken') left'
      ∧ taken' ≠ [] ∧ cursor.byte_offset < page.next_cursor.byte_offset := by
  obtain ⟨page,taken',left',read,rfl,position',-,events,progress,-⟩ :=
    read_from_placed call accepted inRange readable position
  have tookSome : taken' ≠ [] := by
    rintro rfl
    obtain ⟨piece,member,newline⟩ := unread
    rw [progress events piece member] at newline
    cases newline
  refine ⟨page,taken',left',read,rfl,position',tookSome,?_⟩
  obtain ⟨piece,taken',rfl⟩ := exists_cons_of_ne_nil tookSome
  have notEmpty : piece ≠ [] := by
    rintro rfl
    exact absurd (position'.lines [] (by simp)) (by decide)
  have := length_pos_of_ne_nil notEmpty
  rw [position.offset,position'.offset,flatten_append,flatten_cons,length_append,length_append]
  omega

/-- Before a line that has no newline a page stays where it is. -/
theorem read_from_stays (call : Call) (accepted : validateStream owner stream_id = .ok ())
    (inRange : 1 ≤ call.limit ∧ call.limit ≤ MAX_READ_LIMIT) (readable : ∀ piece ∈ left, ¬OtherSchema libs piece)
    (unended : ¬∃ piece ∈ left, ended piece = true) (position : Placed libs owner stream_id file cursor taken left) :
    ∃ page, read_from libs owner stream_id call.sizes (some file) cursor call.limit = .ok page ∧
      page.next_cursor = cursor
      ∧ (page.has_more = false ↔ left = []) := by
  obtain ⟨page,taken',left',read,rfl,position',sequence,-,-,noMore⟩ :=
    read_from_placed call accepted inRange readable position
  have tookNone : taken' = [] := by
    refine eq_nil_iff_forall_not_mem.mpr fun piece member => unended ⟨piece,?_,?_⟩
    · exact mem_append_left _ member
    · exact position'.lines piece (mem_append_right _ member)
  subst tookNone
  have offset : page.next_cursor.byte_offset = cursor.byte_offset := by rw [position.offset,position'.offset,append_nil]
  exact ⟨page,read,EventCursor.ext sequence offset (position'.digest.trans position.digest.symm),noMore⟩

/-- The bytes behind a cursor. -/
def behind (file : Option EventFile) (cursor : EventCursor) : Bytes :=
  file.elim [] fun file => file.bytes.drop cursor.byte_offset

theorem Placed.newline_behind (position : Placed libs owner stream_id file cursor taken left) :
    NEWLINE ∈ behind (some file) cursor ↔ ∃ piece ∈ left, ended piece = true := by
  rw [show behind (some file) cursor = left.flatten from position.boundary.2.1]
  exact newline_mem_iff (split_rest taken position.lines _ position.split)

/-- After one page for each line that is left, and one more, no newline is behind the cursor. -/
theorem follow_stops (accepted : validateStream owner stream_id = .ok ()) (calls : List Call) :
    (∀ call ∈ calls, 1 ≤ call.limit ∧ call.limit ≤ MAX_READ_LIMIT) → ∀ (cursor : EventCursor) (taken left : List Bytes),
    (∀ piece ∈ left, ¬OtherSchema libs piece) → Placed libs owner stream_id file cursor taken left →
    ∃ pages, follow libs owner stream_id (some file) cursor calls = .ok pages
      ∧ (left.length < calls.length → ∃ page ∈ pages, NEWLINE ∉ behind (some file) page.next_cursor
        ∧ (page.has_more = false ↔ behind (some file) page.next_cursor = [])) := by
  induction calls with
  | nil => exact fun _ _ _ _ _ _ => ⟨[],rfl,fun short => absurd short (Nat.not_lt_zero _)⟩
  | cons call calls ih =>
    intro inRange cursor taken left readable position
    rw [forall_mem_cons] at inRange
    by_cases unread : ∃ piece ∈ left, ended piece = true
    · obtain ⟨page,taken',left',read,rfl,position',tookSome,-⟩ :=
        read_from_moves call accepted inRange.1 readable unread position
      obtain ⟨pages,followed,stops⟩ :=
        ih inRange.2 page.next_cursor _ left' (fun piece member => readable piece (mem_append_right _ member)) position'
      refine ⟨page :: pages,by simp [follow,read,followed,bind,Except.bind,pure,Except.pure],fun enough => ?_⟩
      have := length_pos_of_ne_nil tookSome
      rw [length_append,length_cons] at enough
      obtain ⟨last,member,ends⟩ := stops (by omega)
      exact ⟨last,mem_cons_of_mem _ member,ends⟩
    · obtain ⟨page,read,same,noMore⟩ := read_from_stays call accepted inRange.1 readable unread position
      obtain ⟨pages,followed,-⟩ := ih inRange.2 cursor _ left readable position
      refine ⟨page :: pages,
        by simp [follow,read,same,followed,bind,Except.bind,pure,Except.pure],fun _ => ⟨page,by simp,?_⟩⟩
      rw [same]
      refine ⟨mt position.newline_behind.mp unread,noMore.trans ?_⟩
      rw [show behind (some file) cursor = left.flatten from position.boundary.2.1]
      constructor
      · rintro rfl
        rfl
      · intro empty
        rw [← split_rest taken position.lines _ position.split,empty]
        rfl

/-- A page with `has_more` is followed by one whose cursor has moved forward if and only if a newline is behind its
    cursor: before a last line that has none the cursor stays, and there is always more. One page for each line and one
    more reach the end or that line. -/
theorem has_more_moves_on (file : Option EventFile) (readable : ∀ piece ∈ fileLines file, ¬OtherSchema libs piece)
    (sizes : List Nat) (cursor : EventCursor) (limit : Nat) (page : EventPage)
    (read : read_from libs owner stream_id sizes file cursor limit = .ok page) (more : page.has_more = true) :
    (∀ call : Call, 1 ≤ call.limit ∧ call.limit ≤ MAX_READ_LIMIT →
      ∃ next, read_from libs owner stream_id call.sizes file page.next_cursor call.limit = .ok next
        ∧ (page.next_cursor.byte_offset < next.next_cursor.byte_offset ↔ NEWLINE ∈ behind file page.next_cursor)
        ∧ (NEWLINE ∉ behind file page.next_cursor → next.next_cursor = page.next_cursor ∧ next.has_more = true))
    ∧ ∀ calls : List Call, (∀ call ∈ calls, 1 ≤ call.limit ∧ call.limit ≤ MAX_READ_LIMIT) →
      (fileLines file).length < calls.length →
      ∃ pages, follow libs owner stream_id file page.next_cursor calls = .ok pages ∧ ∃ last ∈ pages,
        NEWLINE ∉ behind file last.next_cursor
        ∧ (last.has_more = false ↔ behind file last.next_cursor = []) := by
  cases file with
  | none =>
    rw [read_from,then_eq_ok,then_eq_ok,then_eq_ok] at read
    obtain ⟨-,-,-,blocking⟩ := read
    cases blocking
    cases more
  | some file =>
    obtain ⟨accepted,taken,left,position,noMore⟩ := read_from_ok readable read
    have leftReadable : ∀ piece ∈ left, ¬OtherSchema libs piece := by
      intro piece member
      refine readable piece ?_
      rw [show fileLines (some file) = taken ++ left from position.split]
      exact mem_append_right _ member
    refine ⟨fun call inRange => ?_,fun calls inRange enough => ?_⟩
    · rw [position.newline_behind]
      by_cases unread : ∃ piece ∈ left, ended piece = true
      · obtain ⟨next,-,-,read',-,-,-,moved⟩ := read_from_moves call accepted inRange leftReadable unread position
        exact ⟨next,read',iff_of_true moved unread,fun noneLeft => absurd unread noneLeft⟩
      · obtain ⟨next,read',same,ends⟩ := read_from_stays call accepted inRange leftReadable unread position
        refine ⟨next,read',iff_of_false (by simp [same]) unread,fun _ => ⟨same,?_⟩⟩
        rw [← Bool.not_eq_false,ends,← noMore,more]
        decide
    · obtain ⟨pages,followed,stops⟩ :=
        follow_stops accepted calls inRange page.next_cursor taken left leftReadable position
      refine ⟨pages,followed,stops ?_⟩
      have length : (fileLines (some file)).length = taken.length + left.length := by
        rw [← length_append]
        exact congrArg length position.split
      omega

section sample
/-- The numbers 2 and 3. -/
def completeFile : EventFile := ⟨[50,10,51,10],by decide⟩

theorem sample_moves_on : ∃ page next, read_after sampleLibraries "owner" "stream" [] (some completeFile) 0 1 = .ok page
    ∧ read_from sampleLibraries "owner" "stream" [] (some completeFile) page.next_cursor 1 = .ok next
    ∧ page.next_cursor.byte_offset < next.next_cursor.byte_offset := by
  have first : read_from sampleLibraries "owner" "stream" [] (some completeFile) ⟨0,0,
    stream_digest sampleLibraries "owner" "stream"⟩ 1 =
      .ok ⟨[sample_record 2],0,2,⟨2,2,stream_digest sampleLibraries "owner" "stream"⟩,true⟩ := rfl
  obtain ⟨moves,-⟩ := has_more_moves_on (some completeFile) (sample_readable _) _ _ _ _ first rfl
  obtain ⟨next,read,moved,-⟩ := moves ⟨1,[]⟩ (by decide)
  exact ⟨_,next,first,read,moved.mpr (by decide)⟩

/-- Behind its records the file has a 4 without its newline: there is always more, and the cursor stays where it is. -/
theorem unended_line_holds_cursor : ∃ page, read_after sampleLibraries "owner" "stream" []
    (some sampleFile) 0 10 = .ok page ∧ page.has_more = true
    ∧ ∃ next, read_from sampleLibraries "owner" "stream" [] (some sampleFile) page.next_cursor 10 = .ok next
      ∧ next.next_cursor = page.next_cursor ∧ next.has_more = true :=
  ⟨_,rfl,rfl,_,rfl,rfl,rfl⟩

end sample
end Vyane.EventReader
