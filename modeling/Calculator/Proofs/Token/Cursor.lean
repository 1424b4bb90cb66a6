import Mathlib.Logic.Function.Iterate
import Calculator.Proofs.Token.Munch
import Calculator.Token.Cursor

/-! A cursor and the list of tokens that it goes along. A cursor has read nothing until it is asked
for the first time, and is one token ahead from then on, yet its replies do not tell: every call
gives the token whose number is that of the steps before it, however often the cursor was only
looked at, and behind the last token it gives the end of the text again and again. -/

namespace Calculator

namespace Source

/-- What is left of a text behind a number of tokens. -/
def behind (source : Source) (count : Nat) : Source :=
  (fun source => source.nextToken.2)^[count] source

theorem behind_succ (source : Source) (count : Nat) :
    source.behind (count + 1) = (source.behind count).nextToken.2 :=
  Function.iterate_succ_apply' (fun source : Source => source.nextToken.2) count source

theorem nextToken_again {source : Source} (ended : source.nextToken.1.kind = .eof) :
    source.nextToken.2.nextToken = source.nextToken := by
  rcases start : source.rest.dropWhile Text.isBlank with _ | ⟨c, rest⟩
  · simp only [nextToken, skip, start]
    rfl
  · simp only [nextToken, skip, start] at ended
    exact absurd ended (Token.lexeme_spec c rest).2.2

theorem scan_again {source : Source} (ended : source.nextToken.1.kind = .eof) :
    source.nextToken.2.scan = source.scan := by
  rw [scan_of_eof ended, scan_of_eof (by rwa [nextToken_again ended]), nextToken_again ended]

/-- Reading token after token goes along the list of all tokens and stays at its last one. -/
theorem getElem?_scan (source : Source) (count : Nat) :
    source.scan[min count (source.scan.length - 1)]? = some (source.behind count).nextToken.1 := by
  induction count generalizing source with
  | zero =>
    by_cases ended : source.nextToken.1.kind = .eof
    · simp [scan_of_eof ended, behind]
    · simp [scan_of_ne_eof ended, behind]
  | succ count ih =>
    have further : source.behind (count + 1) = source.nextToken.2.behind count := rfl
    rw [further, ← ih]
    by_cases ended : source.nextToken.1.kind = .eof
    · rw [scan_again ended, scan_of_eof ended]
      simp
    · have some : source.nextToken.2.scan.length ≠ 0 := by
        by_cases last : source.nextToken.2.nextToken.1.kind = .eof
        · simp [scan_of_eof last]
        · simp [scan_of_ne_eof last]
      have index : min (count + 1) source.nextToken.2.scan.length =
          min count (source.nextToken.2.scan.length - 1) + 1 := by omega
      rw [scan_of_ne_eof ended, List.length_cons, Nat.add_sub_cancel, index,
        List.getElem?_cons_succ]

end Source

namespace Token

/-- The token of a number, the first being number zero; behind the last one there is the last one
again. -/
def nth? (text : String) (number : Nat) : Option Token :=
  (scan text)[min number ((scan text).length - 1)]?

theorem nth?_eq (text : String) (number : Nat) :
    nth? text number = some ((Source.ofString text).behind number).nextToken.1 :=
  Source.getElem?_scan (.ofString text) number

theorem nth?_of_length_le {text : String} {number : Nat}
    (late : (scan text).length ≤ number + 1) : nth? text number = some ⟨.eof, "", text.length⟩ := by
  have tokenised : Tokenised text (scan text) := tokenised_iff_scan.mpr rfl
  obtain ⟨body, scanned, -⟩ := tokenised.ended
  rw [String.length_toList] at scanned
  have index : min number ((scan text).length - 1) = body.length := by
    have length := congrArg List.length scanned
    rw [List.length_append, List.length_singleton] at length
    omega
  rw [nth?, index, scanned, List.getElem?_concat_length]

namespace Cursor

/-- What can be asked of a cursor: to look at the current token, or to step over it. -/
inductive Move where
  | peek
  | advance
deriving DecidableEq

/-- The reply to a call, and the cursor after it. -/
def move (cursor : Cursor) : Move → Token × Cursor
  | .peek => cursor.peek
  | .advance => cursor.advance

def replies (cursor : Cursor) : List Move → List Token
  | [] => []
  | move :: rest => (cursor.move move).1 :: (cursor.move move).2.replies rest

/-- A number of tokens has been stepped over: a look gives the token behind them, and then the
source stands behind that one too. Whether it stood there before the look is left open. -/
def Stands (source : Source) (count : Nat) (cursor : Cursor) : Prop :=
  cursor.peek = ((source.behind count).nextToken.1,
    ⟨source.behind (count + 1), some (source.behind count).nextToken.1⟩)

theorem stands_ofString (text : String) : (ofString text).Stands (.ofString text) 0 :=
  rfl

namespace Stands

variable {source : Source} {count : Nat} {cursor : Cursor}

/-- Both calls reply with the current token; only a step goes on to the next. -/
theorem move (stands : cursor.Stands source count) (move : Move) :
    (cursor.move move).1 = (source.behind count).nextToken.1 ∧
      (cursor.move move).2.Stands source (count + [move].count .advance) := by
  cases move with
  | peek =>
    rw [Cursor.move, stands]
    exact ⟨rfl, rfl⟩
  | advance =>
    rw [Cursor.move, advance, stands]
    refine ⟨rfl, ?_⟩
    simp only [Stands, Cursor.peek, ← Source.behind_succ]
    rfl

theorem reply (stands : cursor.Stands source count) (before : List Move) (move : Move)
    (after : List Move) :
    (cursor.replies (before ++ move :: after))[before.length]? =
      some (source.behind (count + before.count .advance)).nextToken.1 := by
  induction before generalizing cursor count with
  | nil => simp [replies, (stands.move move).1]
  | cons first rest ih =>
    have later := ih (stands.move first).2
    rw [Nat.add_assoc, ← List.count_append] at later
    exact later

end Stands

/-- After a look everything goes on as it would have gone without. -/
theorem replies_peek (cursor : Cursor) (moves : List Move) :
    cursor.peek.2.replies moves = cursor.replies moves := by
  have again : cursor.peek.2.peek = cursor.peek := by
    rcases cursor with ⟨source, _ | token⟩ <;> rfl
  cases moves with
  | nil => rfl
  | cons move rest => cases move <;> simp only [replies, Cursor.move, advance, again]

/-- The replies to the calls that are not marked. -/
def unmarkedReplies (cursor : Cursor) (calls : List (Move × Bool)) : List Token :=
  ((cursor.replies (calls.map (·.1))).zip calls).filterMap fun reply =>
    if reply.2.2 then none else some reply.1

theorem unmarkedReplies_eq (cursor : Cursor) {calls : List (Move × Bool)}
    (looks : ∀ call ∈ calls, call.2 = true → call.1 = .peek) :
    cursor.unmarkedReplies calls =
      cursor.replies (calls.filterMap fun call => if call.2 then none else some call.1) := by
  induction calls generalizing cursor with
  | nil => rfl
  | cons call rest ih =>
    obtain ⟨move, marked⟩ := call
    obtain ⟨first, others⟩ := List.forall_mem_cons.mp looks
    cases marked with
    | false => exact congrArg (_ :: ·) (ih (cursor.move move).2 others)
    | true =>
      obtain rfl : move = .peek := first rfl
      exact (ih cursor.peek.2 others).trans (cursor.replies_peek _)

/-- A new cursor over a text goes along the tokens of the text. Whatever was called before, a call
replies with the token whose number is that of the steps among those calls, be it a look or a step
itself; looks that are put in between other calls, anywhere and any number of them, change no reply
to the others; and from the last token on the reply is the end of the text, which stands behind all
its characters. -/
theorem replies_follow_tokens (text : String) :
    (∀ (before after : List Move) (move : Move),
      ((ofString text).replies (before ++ move :: after))[before.length]? =
        nth? text (before.count .advance)) ∧
      (∀ calls : List (Move × Bool), (∀ call ∈ calls, call.2 = true → call.1 = .peek) →
        (ofString text).unmarkedReplies calls =
          (ofString text).replies
            (calls.filterMap fun call => if call.2 then none else some call.1)) ∧
      ∀ number, (scan text).length ≤ number + 1 →
        nth? text number = some ⟨.eof, "", text.length⟩ := by
  refine ⟨?_, fun calls looks => unmarkedReplies_eq _ looks, fun number => nth?_of_length_le⟩
  intro before after move
  have reply := (stands_ofString text).reply before move after
  rwa [Nat.zero_add, ← nth?_eq] at reply

/-- Steps over the two tokens of a text and its end, with looks put in before, between and after
them. -/
def lookedAround : List (Move × Bool) :=
  [(.peek, true), (.peek, true), (.advance, false), (.peek, true), (.advance, false),
    (.advance, false), (.peek, true), (.advance, false)]

/-- Without the looks the steps have the same replies; the last two are past the end. -/
theorem steps_past_end :
    (∀ call ∈ lookedAround, call.2 = true → call.1 = .peek) ∧
      (ofString " 12 +").unmarkedReplies lookedAround =
        (ofString " 12 +").replies [.advance, .advance, .advance, .advance] ∧
      (scan " 12 +").length ≤ 3 + 1 ∧ nth? " 12 +" 3 = some ⟨.eof, "", 5⟩ := by
  have looks : ∀ call ∈ lookedAround, call.2 = true → call.1 = .peek := by decide
  have late : (scan " 12 +").length ≤ 3 + 1 := by decide +kernel
  obtain ⟨-, unchanged, ended⟩ := replies_follow_tokens " 12 +"
  exact ⟨looks, unchanged lookedAround looks, late, ended 3 late⟩

end Cursor

end Token

end Calculator
