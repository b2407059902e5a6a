import Vyane.NativePermissions

/-!
What a tool pattern matches (`fnmatch_matches` and `parse_fnmatch_pattern` of `permissions.rs`): a candidate that can be
cut into one piece for each element. The rows of the table say which prefixes of the candidate the tokens so far can be
cut from.
-/
namespace Vyane.Native
open List

/-! ### Cuts -/

section Cuts
variable {α β : Type} {takes : α → List Char → Prop} {takes' : β → List Char → Prop}

/-- A text that consists of a piece for each item. -/
def Cut (takes : α → List Char → Prop) : List α → List Char → Prop
  | [], text => text = []
  | item :: items, text => ∃ piece rest, text = piece ++ rest ∧ takes item piece ∧ Cut takes items rest

theorem cut_iff_pieces (items : List α) : ∀ text, Cut takes items text ↔ ∃ pieces :
    List (List Char), pieces.flatten = text ∧ List.Forall₂ takes items pieces := by
  induction items with
  | nil =>
    intro text
    simp [Cut,forall₂_nil_left_iff,eq_comm]
  | cons item items ih =>
    intro text
    simp only [Cut,ih,forall₂_cons_left_iff]
    constructor
    · rintro ⟨piece,rest,rfl,taken,pieces,rfl,all⟩
      exact ⟨piece :: pieces,rfl,piece,pieces,taken,all,rfl⟩
    · rintro ⟨pieces,rfl,piece,rest,taken,all,rfl⟩
      exact ⟨piece,rest.flatten,rfl,taken,rest,rfl,all⟩

theorem cut_snoc (items : List α) (item : α) : ∀ text, Cut takes (items ++ [item]) text ↔
    ∃ first piece, text = first ++ piece ∧ Cut takes items first ∧ takes item piece := by
  induction items with
  | nil => simp [Cut]
  | cons other items ih =>
    intro text
    simp only [cons_append,Cut,ih]
    constructor
    · rintro ⟨piece,-,rfl,taken,first,last,rfl,cut,ends⟩
      exact ⟨piece ++ first,last,(append_assoc ..).symm,⟨piece,first,rfl,taken,cut⟩,ends⟩
    · rintro ⟨-,last,rfl,⟨piece,first,rfl,taken,cut⟩,ends⟩
      exact ⟨piece,first ++ last,append_assoc ..,taken,first,last,rfl,cut,ends⟩

theorem cut_cons_congr {item : α} {item' : β} {items : List α} {items' : List β} (head : ∀ piece, takes item piece ↔
    takes' item' piece)
    (tail : ∀ text, Cut takes items text ↔ Cut takes' items' text) (text : List Char) :
    Cut takes (item :: items) text ↔ Cut takes' (item' :: items') text := by
  simp only [Cut,head,tail]

/-- Two items that take anything are as good as one. -/
theorem cut_twice {item : α} (anything : ∀ piece, takes item piece) (items : List α) (text : List Char) :
    Cut takes (item :: item :: items) text ↔ Cut takes (item :: items) text := by
  constructor
  · rintro ⟨piece,-,rfl,-,piece',rest,rfl,-,cut⟩
    exact ⟨piece ++ piece',rest,(append_assoc ..).symm,anything _,cut⟩
  · rintro ⟨piece,rest,rfl,-,cut⟩
    exact ⟨piece,rest,rfl,anything _,[],rest,rfl,anything _,cut⟩

end Cuts

/-! ### The elements of a pattern -/

inductive Element where
  | Star
  | Question
  | Class (negated : Bool) (content : List Char)
  | Literal (literal : Char)
deriving DecidableEq, Repr

/-- The characters of a class, from the left: `a-b` is a range if `a ≤ b`, and everything else is a member as it
    stands. -/
def InClass : List Char → Char → Prop
  | start :: '-' :: stop :: content, c =>
    (if start ≤ stop then start ≤ c ∧ c ≤ stop else c = start ∨ c = '-' ∨ c = stop) ∨ InClass content c
  | member :: content, c => c = member ∨ InClass content c
  | [], _ => False

def Element.Takes : Element → List Char → Prop
  | .Star, _ => True
  | .Question, piece => ∃ c, piece = [c]
  | .Class negated content, piece => ∃ c, piece = [c] ∧ (InClass content c ↔ negated = false)
  | .Literal literal, piece => piece = [literal]

/-- What stands behind an opening bracket begins with a class and its closing bracket, which
    is not the first character of the class. -/
structure Closed (chars : List Char) (negated : Bool) (content after : List Char) : Prop where
  text : chars = (if negated then ['!'] else []) ++ (content ++ ']' :: after)
  sign : negated = true ↔ chars.head? = some '!'
  filled : content ≠ []
  closes : ']' ∉ content.tail

/-- A pattern and its elements. -/
inductive Reads : List Char → List Element → Prop
  | nil : Reads [] []
  | star {chars : List Char} {elements : List Element} : Reads chars elements → Reads ('*' :: chars) (.Star :: elements)
  | question {chars : List Char} {elements : List Element} : Reads chars elements →
      Reads ('?' :: chars) (.Question :: elements)
  | closed {chars content after : List Char} {negated : Bool} {elements : List Element} :
    Closed chars negated content after → Reads after elements →
      Reads ('[' :: chars) (.Class negated content :: elements)
  | unclosed {chars : List Char} {elements : List Element} :
    (∀ negated content after, ¬Closed chars negated content after) → Reads chars elements →
      Reads ('[' :: chars) (.Literal '[' :: elements)
  | literal {c : Char} {chars : List Char} {elements : List Element} :
    c ≠ '*' → c ≠ '?' → c ≠ '[' → Reads chars elements → Reads (c :: chars) (.Literal c :: elements)

theorem Closed.unique {chars content after content' after' : List Char} {negated negated' : Bool}
    (closed : Closed chars negated content after) (closed' : Closed chars negated' content' after') :
    negated = negated' ∧ content = content' ∧ after = after' := by
  have sign : negated = negated' := Bool.eq_iff_iff.mpr (closed.sign.trans closed'.sign.symm)
  subst sign
  obtain ⟨first,content,rfl⟩ := exists_cons_of_ne_nil closed.filled
  obtain ⟨first',content',rfl⟩ := exists_cons_of_ne_nil closed'.filled
  have same := append_cancel_left (closed.text.symm.trans closed'.text)
  rw [cons_append,cons_append,cons.injEq] at same
  obtain ⟨rfl,same⟩ := same
  obtain ⟨rfl,rfl⟩ := Text.append_cons_inj closed.closes closed'.closes same
  exact ⟨rfl,rfl,rfl⟩

variable {chars content after : List Char} {elements : List Element} {token : GlobToken} {tokens : List GlobToken}
  {candidate : List Char}

theorem Closed.shorter {negated : Bool} (closed : Closed chars negated content after) :
    after.length < chars.length := by
  rw [closed.text]
  simp only [length_append,length_cons]
  omega

theorem Reads.unique (reads : Reads chars elements) : ∀ {other}, Reads chars other → other = elements := by
  induction reads with
  | nil => rintro _ ⟨⟩; rfl
  | star _ ih =>
    intro other reads
    cases reads with
    | star rest => rw [ih rest]
    | literal plain => exact absurd rfl plain
  | question _ ih =>
    intro other reads
    cases reads with
    | question rest => rw [ih rest]
    | literal _ plain => exact absurd rfl plain
  | closed closed _ ih =>
    intro other reads
    cases reads with
    | closed closed' rest =>
      obtain ⟨rfl,rfl,rfl⟩ := closed.unique closed'
      rw [ih rest]
    | unclosed endless => exact absurd closed (endless _ _ _)
    | literal _ _ plain => exact absurd rfl plain
  | unclosed endless _ ih =>
    intro other reads
    cases reads with
    | closed closed => exact absurd closed (endless _ _ _)
    | unclosed _ rest => rw [ih rest]
    | literal _ _ plain => exact absurd rfl plain
  | literal noStar noQuestion noBracket _ ih =>
    intro other reads
    cases reads with
    | star => exact absurd rfl noStar
    | question => exact absurd rfl noQuestion
    | closed => exact absurd rfl noBracket
    | unclosed => exact absurd rfl noBracket
    | literal _ _ _ rest => rw [ih rest]

theorem reads_exists (length : Nat) : ∀ chars : List Char, chars.length ≤ length →
    ∃ elements, Reads chars elements := by
  induction length with
  | zero =>
    intro chars short
    cases eq_nil_of_length_eq_zero (Nat.le_zero.mp short)
    exact ⟨[],.nil⟩
  | succ length ih =>
    intro chars short
    cases chars with
    | nil => exact ⟨[],.nil⟩
    | cons c chars =>
      rw [length_cons,Nat.succ_le_succ_iff] at short
      obtain ⟨elements,reads⟩ := ih chars short
      by_cases star : c = '*'
      · subst star
        exact ⟨_,.star reads⟩
      by_cases question : c = '?'
      · subst question
        exact ⟨_,.question reads⟩
      by_cases bracket : c = '['
      · subst bracket
        by_cases closed : ∃ negated content after, Closed chars negated content after
        · obtain ⟨negated,content,after,closed⟩ := closed
          obtain ⟨elements,reads⟩ := ih after (closed.shorter.le.trans short)
          exact ⟨_,.closed closed reads⟩
        · exact ⟨_,.unclosed (fun negated content after found => closed ⟨negated,content,after,found⟩) reads⟩
      · exact ⟨_,.literal star question bracket reads⟩

/-! ### The parser -/

theorem in_class_iff (content : List Char) (c : Char) : character_class_matches (characterClassItems content) c = true ↔
    InClass content c := by
  fun_induction characterClassItems content with
  | case1 start stop content ordered ih =>
    rw [InClass,if_pos ordered,← ih]
    simp [character_class_matches]
  | case2 start stop content backward ih =>
    rw [InClass,if_neg backward,← ih]
    simp [character_class_matches,@eq_comm _ c,or_assoc]
  | case3 member content noRange ih =>
    rw [InClass,← ih]
    · simp [character_class_matches,@eq_comm _ c]
    · exact noRange
  | case4 => simp [character_class_matches,InClass]

def GlobToken.Takes : GlobToken → List Char → Prop
  | .AnySequence, _ => True
  | .AnyCharacter, piece => ∃ c, piece = [c]
  | .CharacterClass negated items, piece => ∃ c, piece = [c] ∧ (character_class_matches items c != negated) = true
  | .Literal literal, piece => piece = [literal]

/-- The parser finds the class if there is one. -/
theorem parse_class_closed {negated : Bool} (closed : Closed chars negated content after) :
    parse_character_class chars = some (.CharacterClass negated (characterClassItems content),after) := by
  obtain ⟨text,sign,filled,closes⟩ := closed
  obtain ⟨first,content,rfl⟩ := exists_cons_of_ne_nil filled
  have stop : ∀ c ∈ content, (c != ']') = true := fun c member => by
    rw [bne_iff_ne]
    rintro rfl
    exact closes member
  have sign : (chars.head? == some '!') = negated := by
    cases negated
    · simpa using sign
    · simpa using sign
  have rest : (if negated = true then chars.tail else chars) = first :: (content ++ ']' :: after) := by
    rw [text]
    cases negated <;> simp
  simp only [parse_character_class,sign,rest,head?_cons,tail_cons]
  by_cases bracket : first = ']'
  · simp [bracket,takeWhile_append_of_pos stop,dropWhile_append_of_pos stop]
  · have visible : (first != ']') = true := bne_iff_ne.mpr bracket
    simp [bracket,takeWhile_append_of_pos stop,dropWhile_append_of_pos stop,visible]

theorem not_in_takeWhile (text : List Char) : ']' ∉ text.takeWhile (· != ']') :=
  fun member => by simpa using mem_takeWhile_imp member

theorem takeWhile_bracket {text : List Char} {c : Char} (left : text.dropWhile (· != ']') = c :: after) :
    text = text.takeWhile (· != ']') ++ ']' :: after := by
  have last := head?_dropWhile_not (· != ']') text
  rw [left] at last
  have bracket : c = ']' := by simpa using last
  rw [bracket] at left
  rw [← left,takeWhile_append_dropWhile]

theorem parse_class_found (found : parse_character_class chars = some (token,after)) :
    ∃ negated content, Closed chars negated content after := by
  obtain ⟨negated,rest,sign,text⟩ : ∃ negated rest, (chars.head? == some '!') = negated ∧
    (if negated = true then chars.tail else chars) = rest := ⟨_,_,rfl,rfl⟩
  have whole : chars = (if negated then ['!'] else []) ++ rest := by
    rw [← text]
    cases negated with
    | false => rfl
    | true =>
      cases chars with
      | nil => cases sign
      | cons c chars => simpa using sign
  have sign' : negated = true ↔ chars.head? = some '!' := by rw [← sign,beq_iff_eq]
  simp only [parse_character_class,sign,text] at found
  by_cases bracket : rest.head? = some ']'
  · obtain ⟨rest,rfl⟩ : ∃ tail, rest = ']' :: tail := by
      cases rest with
      | nil => cases bracket
      | cons first rest => exact ⟨rest,by simpa using bracket⟩
    simp only [head?_cons,beq_self_eq_true,if_true,tail_cons] at found
    cases left : rest.dropWhile (· != ']') with
    | nil => simp [left] at found
    | cons c after' =>
      simp only [left,singleton_append,isEmpty_cons,Bool.false_eq_true,if_false,Option.some.injEq,
        Prod.mk.injEq] at found
      obtain ⟨-,rfl⟩ := found
      refine ⟨negated,']' :: rest.takeWhile (· != ']'),?_,sign',by simp,not_in_takeWhile rest⟩
      rw [whole,cons_append,← takeWhile_bracket left]
  · rw [if_neg (by simpa using bracket)] at found
    cases left : rest.dropWhile (· != ']') with
    | nil => simp [left] at found
    | cons c after' =>
      simp only [left,nil_append] at found
      split_ifs at found with empty
      cases found
      refine ⟨negated,rest.takeWhile (· != ']'),?_,sign',
        by simpa using empty,fun member => not_in_takeWhile rest (mem_of_mem_tail member)⟩
      rw [← takeWhile_bracket left]
      exact whole

theorem takes_class (negated : Bool) (content : List Char) (piece : List Char) :
    (GlobToken.CharacterClass negated (characterClassItems content)).Takes piece ↔
    (Element.Class negated content).Takes piece := by
  simp only [GlobToken.Takes,Element.Takes,bne_iff_ne]
  refine exists_congr fun c => and_congr_right fun _ => ?_
  rw [← in_class_iff]
  cases negated <;> simp

/-- The tokens of a pattern match what its elements match; after a star, those behind a star. -/
theorem parseFnmatchChars_cut (reads : Reads chars elements) : ∀ fuel, chars.length ≤ fuel →
    (∀ text, Cut GlobToken.Takes (parseFnmatchChars fuel false chars) text ↔ Cut Element.Takes elements text)
    ∧ ∀ text, Cut GlobToken.Takes (.AnySequence :: parseFnmatchChars fuel true chars) text ↔
      Cut Element.Takes (.Star :: elements) text := by
  have star_star : ∀ piece, GlobToken.AnySequence.Takes piece ↔ Element.Star.Takes piece := fun _ => Iff.rfl
  -- behind any token but a star the two ways agree
  have both : ∀ {tokens tokens' : List GlobToken} {elements : List Element}, tokens = tokens' →
      (∀ text, Cut GlobToken.Takes tokens text ↔ Cut Element.Takes elements text) →
      (∀ text, Cut GlobToken.Takes tokens text ↔ Cut Element.Takes elements text)
        ∧ ∀ text, Cut GlobToken.Takes (.AnySequence :: tokens') text ↔ Cut Element.Takes (.Star :: elements) text := by
    rintro tokens _ elements rfl cut
    exact ⟨cut,cut_cons_congr star_star cut⟩
  induction reads with
  | nil =>
    intro fuel _
    have noneLeft : ∀ afterStar, parseFnmatchChars fuel afterStar [] = [] := by cases fuel <;> simp [parseFnmatchChars]
    rw [noneLeft,noneLeft]
    exact both rfl fun _ => Iff.rfl
  | star _ ih =>
    rintro (_ | fuel) enough
    · cases enough
    rw [length_cons,Nat.succ_le_succ_iff] at enough
    have behind := (ih fuel enough).2
    refine ⟨behind,fun text => ?_⟩
    exact (behind text).trans (cut_twice (fun _ => trivial) _ text).symm
  | question _ ih =>
    rintro (_ | fuel) enough
    · cases enough
    rw [length_cons,Nat.succ_le_succ_iff] at enough
    exact both rfl (cut_cons_congr (fun _ => Iff.rfl) (ih fuel enough).1)
  | closed closed _ ih =>
    rintro (_ | fuel) enough
    · cases enough
    rw [length_cons,Nat.succ_le_succ_iff] at enough
    have parsed := parse_class_closed closed
    simp only [parseFnmatchChars,parsed]
    exact both rfl (cut_cons_congr (takes_class _ _) (ih fuel (closed.shorter.le.trans enough)).1)
  | @unclosed chars _ endless _ ih =>
    rintro (_ | fuel) enough
    · cases enough
    rw [length_cons,Nat.succ_le_succ_iff] at enough
    have parsed : parse_character_class chars = none := by
      cases found : parse_character_class chars with
      | none => rfl
      | some parsed =>
        obtain ⟨negated,content,closed⟩ := parse_class_found found
        exact absurd closed (endless _ _ _)
    simp only [parseFnmatchChars,parsed]
    exact both rfl (cut_cons_congr (fun _ => Iff.rfl) (ih fuel enough).1)
  | literal noStar noQuestion noBracket _ ih =>
    rintro (_ | fuel) enough
    · cases enough
    rw [length_cons,Nat.succ_le_succ_iff] at enough
    rw [parseFnmatchChars,parseFnmatchChars]
    · exact both rfl (cut_cons_congr (fun _ => Iff.rfl) (ih fuel enough).1)
    all_goals assumption

/-! ### The table -/

/-- The entries for the prefixes that are longer than `done`. -/
def Describes (holds : List Char → Prop) : List Char → List Char → List Bool → Prop
  | _, [], entries => entries = []
  | _, _ :: _, [] => False
  | done, c :: rest, entry :: entries =>
      (entry = true ↔ holds (done ++ [c])) ∧ Describes holds (done ++ [c]) rest entries

theorem cut_star (done : List Char) (c : Char) : Cut GlobToken.Takes (tokens ++ [.AnySequence]) (done ++ [c]) ↔
    Cut GlobToken.Takes tokens (done ++ [c]) ∨ Cut GlobToken.Takes (tokens ++ [.AnySequence]) done := by
  simp only [cut_snoc,GlobToken.Takes,and_true]
  constructor
  · rintro ⟨first,piece,same,cut⟩
    rcases eq_nil_or_concat piece with rfl | ⟨piece,last,rfl⟩
    · rw [append_nil] at same
      exact .inl (same ▸ cut)
    · rw [concat_eq_append,← append_assoc] at same
      exact .inr ⟨first,piece,(append_inj' same rfl).1,cut⟩
  · rintro (cut | ⟨first,piece,rfl,cut⟩)
    · exact ⟨done ++ [c],[],(append_nil _).symm,cut⟩
    · exact ⟨first,piece ++ [c],append_assoc ..,cut⟩

/-- All tokens but a star take one character. -/
theorem takes_one {piece : List Char} (noStar : token ≠ .AnySequence) (taken : token.Takes piece) :
    ∃ c, piece = [c] := by
  cases token with
  | AnySequence => exact absurd rfl noStar
  | AnyCharacter => exact taken
  | CharacterClass => exact taken.imp fun _ both => both.1
  | Literal literal => exact ⟨literal,taken⟩

theorem cut_one (noStar : token ≠ .AnySequence) (done : List Char) (c : Char) :
    Cut GlobToken.Takes (tokens ++ [token]) (done ++ [c]) ↔ Cut GlobToken.Takes tokens done ∧ token.Takes [c] := by
  rw [cut_snoc]
  constructor
  · rintro ⟨first,piece,same,cut,taken⟩
    obtain ⟨last,rfl⟩ := takes_one noStar taken
    obtain ⟨rfl,ends⟩ := append_inj' same rfl
    exact ⟨cut,ends ▸ taken⟩
  · rintro ⟨cut,taken⟩
    exact ⟨done,[c],rfl,cut,taken⟩

/-- The first column: only a star may take nothing. -/
theorem cut_nothing (token : GlobToken) : Cut GlobToken.Takes (tokens ++ [token]) [] ↔
    token = .AnySequence ∧ Cut GlobToken.Takes tokens [] := by
  rw [cut_snoc]
  constructor
  · rintro ⟨first,piece,same,cut,taken⟩
    obtain ⟨rfl,rfl⟩ := append_eq_nil_iff.mp same.symm
    refine ⟨by_contra fun noStar => ?_,cut⟩
    obtain ⟨c,plain⟩ := takes_one noStar taken
    cases plain
  · rintro ⟨rfl,cut⟩
    exact ⟨[],[],rfl,cut,trivial⟩

/-- A row from the row of the tokens before. -/
theorem fnmatchRow_describes (token : GlobToken) (rest : List Char) : ∀ (done : List Char) (left aboveLeft : Bool)
    (previous : List Bool),
    (left = true ↔ Cut GlobToken.Takes (tokens ++ [token]) done) →
    (aboveLeft = true ↔ Cut GlobToken.Takes tokens done) →
    Describes (Cut GlobToken.Takes tokens) done rest previous →
    Describes (Cut GlobToken.Takes (tokens ++ [token])) done rest (fnmatchRow token left aboveLeft rest previous) := by
  induction rest with
  | nil => exact fun _ _ _ _ _ _ _ => by simp [fnmatchRow,Describes]
  | cons c rest ih =>
    rintro done left aboveLeft (_ | ⟨above,previous⟩) leftIff aboveLeftIff describes
    · cases describes
    obtain ⟨aboveIff,describes⟩ := describes
    cases token with
    | AnySequence =>
      have entry : (above || left) = true ↔ Cut GlobToken.Takes (tokens ++ [.AnySequence]) (done ++ [c]) := by
        rw [Bool.or_eq_true,cut_star,aboveIff,leftIff]
      rw [fnmatchRow]
      exact ⟨entry,ih _ _ _ _ entry aboveIff describes⟩
    | AnyCharacter =>
      have entry : aboveLeft = true ↔ Cut GlobToken.Takes (tokens ++ [.AnyCharacter]) (done ++ [c]) := by
        rw [cut_one (by simp),aboveLeftIff]
        exact (and_iff_left ⟨c,rfl⟩).symm
      rw [fnmatchRow]
      exact ⟨entry,ih _ _ _ _ entry aboveIff describes⟩
    | CharacterClass negated items =>
      have entry : (aboveLeft && character_class_matches items c != negated) = true
          ↔ Cut GlobToken.Takes (tokens ++ [.CharacterClass negated items]) (done ++ [c]) := by
        rw [cut_one (by simp),Bool.and_eq_true,aboveLeftIff]
        simp [GlobToken.Takes]
      rw [fnmatchRow]
      exact ⟨entry,ih _ _ _ _ entry aboveIff describes⟩
    | Literal literal =>
      have entry : (aboveLeft && literal == c) = true ↔
        Cut GlobToken.Takes (tokens ++ [.Literal literal]) (done ++ [c]) := by
        rw [cut_one (by simp),Bool.and_eq_true,aboveLeftIff,beq_iff_eq]
        simp [GlobToken.Takes,eq_comm]
      rw [fnmatchRow]
      exact ⟨entry,ih _ _ _ _ entry aboveIff describes⟩

/-- A whole row: its first column and the rest. -/
def Row (tokens : List GlobToken) (candidate : List Char) (row : List Bool) : Prop :=
  ∃ first entries, row = first :: entries ∧ (first = true ↔ Cut GlobToken.Takes tokens []) ∧
    Describes (Cut GlobToken.Takes tokens) [] candidate entries

theorem fnmatchStep_row {row : List Bool} (token : GlobToken) (described : Row tokens candidate row) :
    Row (tokens ++ [token]) candidate (fnmatchStep candidate row token) := by
  obtain ⟨first,entries,rfl,firstIff,describes⟩ := described
  have startIff : (token == .AnySequence && first) = true ↔ Cut GlobToken.Takes (tokens ++ [token]) [] := by
    rw [cut_nothing,Bool.and_eq_true,beq_iff_eq,firstIff]
  exact ⟨_,_,rfl,startIff,fnmatchRow_describes token candidate [] _ _ _ startIff firstIff describes⟩

theorem fnmatch_rows (pattern : List GlobToken) : ∀ (tokens : List GlobToken) (row : List Bool),
    Row tokens candidate row →
    Row (tokens ++ pattern) candidate (pattern.foldl (fnmatchStep candidate) row) := by
  induction pattern with
  | nil =>
    intro tokens row described
    rwa [append_nil]
  | cons token pattern ih =>
    intro tokens row described
    have rows := ih (tokens ++ [token]) _ (fnmatchStep_row token described)
    rwa [append_assoc] at rows

theorem first_row_describes (rest : List Char) : ∀ done, Describes (Cut GlobToken.Takes []) done rest
    (replicate rest.length false) := by
  induction rest with
  | nil => exact fun _ => rfl
  | cons c rest ih => exact fun done => ⟨by simp [Cut],ih _⟩

theorem first_row (candidate : List Char) : Row [] candidate (true :: replicate candidate.length false) :=
  ⟨true,_,rfl,by simp [Cut],first_row_describes candidate []⟩

/-- The last entry of a row is about the whole candidate. -/
theorem last_entry {holds : List Char → Prop} (rest : List Char) :
    ∀ (done : List Char) (first : Bool) (entries : List Bool), (first = true ↔ holds done) →
    Describes holds done rest entries → (((first :: entries).getLast?.getD false) = true ↔ holds (done ++ rest)) := by
  induction rest with
  | nil =>
    rintro done first _ firstIff rfl
    simpa using firstIff
  | cons c rest ih =>
    rintro done first (_ | ⟨entry,entries⟩) - describes
    · cases describes
    have last := ih (done ++ [c]) entry entries describes.1 describes.2
    rwa [append_assoc,singleton_append] at last

theorem fnmatch_matches_iff (pattern : List GlobToken) (candidate : String) :
    fnmatch_matches pattern candidate = true ↔ Cut GlobToken.Takes pattern candidate.toList := by
  have start := first_row candidate.toList
  rw [String.length_toList] at start
  obtain ⟨first,entries,row,firstIff,describes⟩ := fnmatch_rows pattern [] _ start
  simp only [fnmatch_matches,row]
  exact last_entry candidate.toList [] first entries firstIff describes

/-- A pattern has one reading, and a candidate matches it if and only if it can be cut into consecutive pieces, one for
    each element. The elements keep every star of the pattern, the tokens one of each group. -/
theorem fnmatch_is_a_cut (pattern candidate : String) : ∃ elements, Reads pattern.toList elements ∧
    (∀ other, Reads pattern.toList other → other = elements)
    ∧ (fnmatch_matches (parse_fnmatch_pattern pattern) candidate = true ↔
      ∃ pieces : List (List Char), pieces.flatten = candidate.toList ∧ List.Forall₂ Element.Takes elements pieces) := by
  obtain ⟨elements,reads⟩ := reads_exists pattern.length pattern.toList String.length_toList.le
  refine ⟨elements,reads,fun other reads' => reads.unique reads',?_⟩
  rw [fnmatch_matches_iff,parse_fnmatch_pattern,(parseFnmatchChars_cut reads _ String.length_toList.le).1,
    cut_iff_pieces]

example : fnmatch_matches (parse_fnmatch_pattern "[!]a-c]*_**?") "d_xy" = true := by decide

end Vyane.Native
