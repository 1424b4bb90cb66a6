import Calculator.Proofs.Token.Shape
import Calculator.Token.Span

/-! The tokens of a text are its tokens by maximal munch, and there is one such list only: pieces of
the text from left to right that leave out blanks and nothing else, each of which matches the
pattern of its kind and could not be longer, and the end of the text behind them. -/

namespace Calculator

namespace Token

/-- The character at the position is part of the token. -/
def Covers (token : Token) (position : Nat) : Prop :=
  token.pos ≤ position ∧ position < token.pos + token.text.length

/-- The tokens are those of a text from a position on, by maximal munch. -/
structure TokenisedFrom (start : Nat) (text : List Char) (tokens : List Token) : Prop where
  /-- The end of the text is the last token, and no other. -/
  ended : ∃ body, tokens = body ++ [⟨.eof, "", text.length⟩] ∧ ∀ token ∈ body, token.kind ≠ .eof
  nonempty : ∀ token ∈ tokens, token.kind ≠ .eof → token.text ≠ ""
  /-- Each token is a piece of the text. -/
  placed : ∀ token ∈ tokens, start ≤ token.pos ∧
    token.text.toList = (text.drop token.pos).take token.text.length
  ordered : tokens.Pairwise fun first second => first.pos + first.text.length ≤ second.pos
  /-- Blanks are outside all tokens, and nothing else is. -/
  covered : ∀ position c, start ≤ position → text[position]? = some c →
    (Text.isBlank c = true ↔ ∀ token ∈ tokens, ¬token.Covers position)
  shaped : ∀ token ∈ tokens, Shape token.kind token.text.toList
  keyword : ∀ token ∈ tokens, token.kind = .keyword ↔ token.text = "let" ∨ token.text = "const"
  /-- The next character could not be added to the token. -/
  maximal : ∀ token ∈ tokens, token.kind.Extends →
    ∀ c, text[token.pos + token.text.length]? = some c →
      ¬Shape token.kind (token.text.toList ++ [c])

namespace TokenisedFrom

variable {start : Nat} {text : List Char} {tokens : List Token}

theorem eq_eof (tokenised : TokenisedFrom start text tokens) {token : Token}
    (member : token ∈ tokens) (last : token.kind = .eof) : token = ⟨.eof, "", text.length⟩ := by
  obtain ⟨body, rfl, before⟩ := tokenised.ended
  rcases List.mem_append.mp member with member | member
  · exact absurd last (before token member)
  · exact List.mem_singleton.mp member

theorem covers_pos (tokenised : TokenisedFrom start text tokens) {token : Token}
    (member : token ∈ tokens) (visible : token.kind ≠ .eof) : token.Covers token.pos := by
  have length : token.text.length ≠ 0 :=
    fun none => tokenised.nonempty token member visible (String.length_eq_zero_iff.mp none)
  exact ⟨Nat.le_refl _, by omega⟩

end TokenisedFrom

/-- At the end of a text nothing is left to be a token. -/
theorem tokenisedFrom_length_iff {text : List Char} {tokens : List Token} :
    TokenisedFrom text.length text tokens ↔ tokens = [⟨.eof, "", text.length⟩] := by
  constructor
  · intro tokenised
    obtain ⟨body, rfl, before⟩ := tokenised.ended
    cases body with
    | nil => rfl
    | cons first rest =>
      have member : first ∈ first :: rest ++ [⟨.eof, "", text.length⟩] := List.mem_cons_self
      obtain ⟨late, piece⟩ := tokenised.placed first member
      rw [List.drop_eq_nil_of_le late, List.take_nil] at piece
      exact absurd (String.toList_eq_nil_iff.mp piece)
        (tokenised.nonempty first member (before first List.mem_cons_self))
  · rintro rfl
    refine ⟨⟨[], rfl, by simp⟩, by simp, by simp, by simp, ?_, ?_, by simp, ?_⟩
    · intro position c late found
      rw [List.getElem?_eq_none late] at found
      cases found
    · exact List.forall_mem_singleton.mpr .eof
    · simp [Kind.Extends]

theorem tokenisedFrom_skip_iff {start stop : Nat} {text : List Char} {tokens : List Token}
    (early : start ≤ stop) (fits : stop ≤ text.length)
    (blank : ∀ position c, start ≤ position → position < stop → text[position]? = some c →
      Text.isBlank c = true) :
    TokenisedFrom start text tokens ↔ TokenisedFrom stop text tokens := by
  constructor
  · intro tokenised
    have behind : ∀ token ∈ tokens, stop ≤ token.pos := by
      intro token member
      by_cases last : token.kind = .eof
      · rw [tokenised.eq_eof member last]
        exact fits
      · by_contra inside
        have present : token.pos < text.length := by omega
        have found := List.getElem?_eq_getElem present
        have late := (tokenised.placed token member).1
        have outside := (tokenised.covered token.pos _ late found).mp
          (blank token.pos _ late (by omega) found)
        exact outside token member (tokenised.covers_pos member last)
    exact { tokenised with
      placed := fun token member => ⟨behind token member, (tokenised.placed token member).2⟩
      covered := fun position c late => tokenised.covered position c (by omega) }
  · intro tokenised
    refine { tokenised with
      placed := fun token member => ?_
      covered := fun position c late found => ?_ }
    · obtain ⟨late, piece⟩ := tokenised.placed token member
      exact ⟨by omega, piece⟩
    · by_cases skipped : position < stop
      · refine iff_of_true (blank position c late skipped found) ?_
        intro token member covers
        have behind := (tokenised.placed token member).1
        have before := covers.1
        omega
      · exact tokenised.covered position c (by omega) found

theorem Munch.drop_eq {start : Nat} {text taken after : List Char} {kind : Kind}
    (munch : Munch (text.drop start) kind taken after) :
    text.drop (start + taken.length) = after := by
  rw [← List.drop_drop, munch.split, List.drop_left]

theorem TokenisedFrom.cons {start : Nat} {text taken after : List Char} {kind : Kind}
    {more : List Token} (munch : Munch (text.drop start) kind taken after) (other : kind ≠ .eof)
    (visible : ∀ c ∈ taken, Text.isBlank c = false)
    (later : TokenisedFrom (start + taken.length) text more) :
    TokenisedFrom start text (⟨kind, String.ofList taken, start⟩ :: more) := by
  have piece : (text.drop start).take taken.length = taken := by rw [munch.split, List.take_left]
  have present : taken ≠ [] := fun none => other (munch.shape.eq_eof_iff.mpr none)
  have behind : ∀ token ∈ more, start + taken.length ≤ token.pos :=
    fun token member => (later.placed token member).1
  constructor
  case ended =>
    obtain ⟨body, rfl, before⟩ := later.ended
    exact ⟨_ :: body, rfl, List.forall_mem_cons.mpr ⟨other, before⟩⟩
  case nonempty =>
    refine List.forall_mem_cons.mpr ⟨fun _ empty => present ?_, later.nonempty⟩
    simpa using congrArg String.toList empty
  case placed =>
    refine List.forall_mem_cons.mpr ⟨⟨Nat.le_refl _, by simp [piece]⟩, fun token member => ?_⟩
    obtain ⟨late, same⟩ := later.placed token member
    exact ⟨by omega, same⟩
  case ordered =>
    refine List.pairwise_cons.mpr ⟨fun token member => ?_, later.ordered⟩
    simpa using behind token member
  case covered =>
    intro position c late found
    by_cases inside : position < start + taken.length
    · -- the position is one of the token's own
      have member : c ∈ taken := by
        rw [← piece]
        apply List.mem_of_getElem? (i := position - start)
        rw [List.getElem?_take_of_lt (by omega), List.getElem?_drop, ← found]
        congr 1
        omega
      refine iff_of_false (by simp [visible c member]) fun outside => ?_
      exact outside _ List.mem_cons_self ⟨late, by simpa using inside⟩
    · rw [later.covered position c (by omega) found, List.forall_mem_cons]
      refine (and_iff_right ?_).symm
      rintro ⟨-, before⟩
      exact inside (by simpa using before)
  case shaped =>
    exact List.forall_mem_cons.mpr ⟨by simpa using munch.shape, later.shaped⟩
  case keyword =>
    refine List.forall_mem_cons.mpr ⟨munch.keyword.trans ?_, later.keyword⟩
    simp [isKeyword]
  case maximal =>
    refine List.forall_mem_cons.mpr ⟨fun extensible c found => ?_, later.maximal⟩
    rw [String.length_ofList, ← List.head?_drop, munch.drop_eq] at found
    simpa using munch.maximal extensible c found

/-- The first token starts with the first character that is not blank, and the others are the tokens
behind it. -/
theorem TokenisedFrom.uncons {start : Nat} {text rest : List Char} {c : Char}
    {tokens : List Token} (tokenised : TokenisedFrom start text tokens)
    (here : text.drop start = c :: rest) (visible : Text.isBlank c = false) :
    ∃ kind taken after more, kind ≠ .eof ∧ Munch (text.drop start) kind taken after ∧
      tokens = ⟨kind, String.ofList taken, start⟩ :: more ∧
      TokenisedFrom (start + taken.length) text more := by
  have found : text[start]? = some c := by rw [← List.head?_drop, here, List.head?_cons]
  have covered : ∃ token ∈ tokens, token.Covers start := by
    by_contra outside
    have blank := (tokenised.covered start c (Nat.le_refl _) found).mpr (by simpa using outside)
    rw [visible] at blank
    cases blank
  obtain ⟨token, member, covers⟩ := covered
  obtain ⟨first, more, rfl⟩ := List.exists_cons_of_ne_nil (List.ne_nil_of_mem member)
  obtain ⟨before, ordered⟩ := List.pairwise_cons.mp tokenised.ordered
  obtain ⟨late, piece⟩ := tokenised.placed first List.mem_cons_self
  -- the first token is not behind the one that covers the character
  have early : first.pos ≤ start := by
    have bound := covers.1
    rcases List.mem_cons.mp member with rfl | member
    · exact bound
    · have apart := before token member
      omega
  have other : first.kind ≠ .eof := by
    intro last
    have ending := tokenised.eq_eof List.mem_cons_self last
    rw [ending] at early
    rw [List.getElem?_eq_none early] at found
    cases found
  obtain ⟨kind, string, pos⟩ := first
  obtain rfl : pos = start := Nat.le_antisymm early late
  have length := String.length_toList (s := string)
  refine ⟨kind, string.toList, text.drop (pos + string.length), more, other, ?_, ?_, ?_⟩
  · constructor
    case split =>
      rw [piece, ← List.drop_drop, List.take_append_drop]
    case shape => exact tokenised.shaped _ List.mem_cons_self
    case keyword =>
      rw [tokenised.keyword _ List.mem_cons_self]
      simp [isKeyword]
    case maximal =>
      intro extensible next behind
      rw [List.head?_drop] at behind
      exact tokenised.maximal _ List.mem_cons_self extensible next behind
  · rw [String.ofList_toList]
  · rw [length]
    constructor
    case ended =>
      obtain ⟨body, same, visible⟩ := tokenised.ended
      cases body with
      | nil => exact absurd (congrArg Token.kind (List.cons.inj same).1) other
      | cons _ body =>
        exact ⟨body, (List.cons.inj same).2, (List.forall_mem_cons.mp visible).2⟩
    case nonempty => exact (List.forall_mem_cons.mp tokenised.nonempty).2
    case placed =>
      intro token member
      exact ⟨before token member, (tokenised.placed token (List.mem_cons_of_mem _ member)).2⟩
    case ordered => exact ordered
    case covered =>
      intro position next late found
      rw [tokenised.covered position next (by omega) found, List.forall_mem_cons]
      refine and_iff_right ?_
      rintro ⟨-, inside⟩
      dsimp only at inside
      omega
    case shaped => exact (List.forall_mem_cons.mp tokenised.shaped).2
    case keyword => exact (List.forall_mem_cons.mp tokenised.keyword).2
    case maximal => exact (List.forall_mem_cons.mp tokenised.maximal).2

end Token

namespace Source

open Token

/-- Where blanks end: behind them the text goes on as it is, and each of them is blank. -/
private theorem exists_skip {text : List Char} {start : Nat} (fits : start ≤ text.length) :
    ∃ stop, start ≤ stop ∧ stop ≤ text.length ∧
      skip Text.isBlank ⟨text.drop start, start⟩ = ⟨text.drop stop, stop⟩ ∧
      ∀ position c, start ≤ position → position < stop → text[position]? = some c →
        Text.isBlank c = true := by
  have split := List.takeWhile_append_dropWhile (p := Text.isBlank) (l := text.drop start)
  have length := congrArg List.length split
  rw [List.length_append, List.length_drop] at length
  refine ⟨start + ((text.drop start).takeWhile Text.isBlank).length, by omega, by omega, ?_, ?_⟩
  · have dropped := congrArg (List.drop ((text.drop start).takeWhile Text.isBlank).length) split
    rw [List.drop_left, List.drop_drop] at dropped
    simp only [skip, dropped]
  · intro position c late early found
    apply List.mem_takeWhile_imp (l := text.drop start)
    apply List.mem_of_getElem? (i := position - start)
    rw [← List.getElem?_append_left (by omega), split, List.getElem?_drop, ← found]
    congr 1
    omega

/-- The tokens that are read are those by maximal munch, and no others are. -/
theorem tokenisedFrom_iff_scan {text : List Char} {start : Nat} (fits : start ≤ text.length)
    {tokens : List Token} :
    TokenisedFrom start text tokens ↔ tokens = scan ⟨text.drop start, start⟩ := by
  obtain ⟨stop, early, inside, skipped, blank⟩ := exists_skip fits
  rw [tokenisedFrom_skip_iff early inside blank]
  rcases here : text.drop stop with _ | ⟨c, rest⟩
  · obtain rfl : stop = text.length := Nat.le_antisymm inside (List.drop_eq_nil_iff.mp here)
    have next : nextToken ⟨text.drop start, start⟩ =
        (⟨.eof, "", text.length⟩, ⟨text.drop text.length, text.length⟩) := by
      simp only [nextToken, skipped, here]
    rw [tokenisedFrom_length_iff, scan_of_eof (by rw [next]), next]
  · have visible : Text.isBlank c = false := by
      have stopped := head_dropWhile Text.isBlank (text.drop start)
      rw [show (text.drop start).dropWhile Text.isBlank = text.drop stop from
        congrArg Source.rest skipped, here] at stopped
      exact stopped c rfl
    rcases lexed : lexeme c rest with ⟨kind, taken, after⟩
    have munch : Munch (c :: rest) kind taken after := by
      simpa only [lexed] using lexeme_munch c rest
    have other : kind ≠ .eof := by simpa only [lexed] using (lexeme_spec c rest).2.2
    have next : nextToken ⟨text.drop start, start⟩ =
        (⟨kind, String.ofList taken, stop⟩, ⟨after, stop + taken.length⟩) := by
      simp only [nextToken, skipped, here, lexed]
    have present : taken ≠ [] := fun none => other (munch.shape.eq_eof_iff.mpr none)
    have length := List.length_pos_iff.mpr present
    have covered := munch.visible visible
    rw [← here] at munch
    have within : stop + taken.length ≤ text.length := by
      have pieces := congrArg List.length munch.split
      rw [List.length_drop, List.length_append] at pieces
      omega
    rw [scan_of_ne_eof (by rwa [next]), next, ← munch.drop_eq]
    constructor
    · intro tokenised
      obtain ⟨kind', taken', after', more, other', munch', rfl, later⟩ :=
        tokenised.uncons here visible
      rw [here] at munch'
      cases lexed.symm.trans (munch'.lexeme_eq other')
      rw [(tokenisedFrom_iff_scan within).mp later]
    · rintro rfl
      exact .cons munch other covered ((tokenisedFrom_iff_scan within).mpr rfl)
termination_by text.length - start

end Source

namespace Token

/-- The tokens of a text, by maximal munch. -/
def Tokenised (text : String) (tokens : List Token) : Prop :=
  TokenisedFrom 0 text.toList tokens

/-- Scanning a text gives its tokens by maximal munch, and these are all. -/
theorem tokenised_iff_scan {text : String} {tokens : List Token} :
    Tokenised text tokens ↔ tokens = scan text :=
  Source.tokenisedFrom_iff_scan (Nat.zero_le _)

section Spans

variable {text : String} {body : List Token}
  (tokenised : Tokenised text (body ++ [⟨.eof, "", text.length⟩]))

include tokenised

/-- Every token but the end has characters, and no token goes beyond the end. -/
private theorem spans_within (before : ∀ token ∈ body, token.kind ≠ .eof) :
    ∀ stretch ∈ body.map span,
      0 < stretch.length ∧ stretch.start + stretch.length ≤ text.length := by
  obtain ⟨-, -, bounded⟩ := List.pairwise_append.mp tokenised.ordered
  rw [List.forall_mem_map]
  intro token member
  have present := tokenised.nonempty token (List.mem_append_left _ member) (before token member)
  exact ⟨Nat.pos_of_ne_zero fun none => present (String.length_eq_zero_iff.mp none),
    bounded token member _ (List.mem_singleton.mpr rfl)⟩

private theorem spans_apart :
    (body.map span).Pairwise fun first second => first.start + first.length ≤ second.start :=
  List.pairwise_map.mpr (List.pairwise_append.mp tokenised.ordered).1

private theorem visible_iff_exists_span {position : Nat} {c : Char}
    (found : text.toList[position]? = some c) :
    Text.isBlank c = false ↔
      ∃ stretch ∈ body.map span,
        stretch.start ≤ position ∧ position < stretch.start + stretch.length := by
  have outside := tokenised.covered position c (Nat.zero_le _) found
  rw [Bool.eq_false_iff, ne_eq, outside, List.forall_mem_append, List.forall_mem_singleton]
  constructor
  · intro some
    by_contra none
    refine some ⟨fun token member covers => ?_, ?_⟩
    · exact none ⟨token.span, List.mem_map_of_mem member, covers⟩
    · -- the end of the text covers nothing
      rintro ⟨late, early⟩
      simp only [String.length_empty] at late early
      omega
  · rintro ⟨_, member, inside⟩ ⟨none, -⟩
    obtain ⟨token, present, rfl⟩ := List.mem_map.mp member
    exact none token present inside

end Spans

/-- Scanning a text gives its tokens by maximal munch, of which there is one list only. So the spans
of its tokens are nonempty and lie within the text, one behind the other, and cover exactly the
characters that are not blank. -/
theorem scan_maximal_munch (text : String) :
    (∀ tokens, Tokenised text tokens ↔ tokens = scan text) ∧
      (∀ span ∈ spans text, 0 < span.length ∧ span.start + span.length ≤ text.length) ∧
      (spans text).Pairwise (fun first second => first.start + first.length ≤ second.start) ∧
      ∀ position c, text.toList[position]? = some c →
        (Text.isBlank c = false ↔
          ∃ span ∈ spans text, span.start ≤ position ∧ position < span.start + span.length) := by
  have tokenised : Tokenised text (scan text) := tokenised_iff_scan.mpr rfl
  obtain ⟨body, scanned, before⟩ := tokenised.ended
  rw [String.length_toList] at scanned
  rw [scanned] at tokenised
  have spanned : spans text = body.map span := by
    rw [spans, scanned, List.takeWhile_append_of_pos (by simpa using before)]
    simp
  rw [spanned]
  exact ⟨fun tokens => tokenised_iff_scan, spans_within tokenised before, spans_apart tokenised,
    fun position c found => visible_iff_exists_span tokenised found⟩

example : (scan "let1 12. 1.2.3").map look =
    [(.word, "let1"), (.number, "12."), (.number, "1.2"), (.invalid, "."), (.number, "3"),
      (.eof, "")] := by
  decide +kernel

end Token

end Calculator
