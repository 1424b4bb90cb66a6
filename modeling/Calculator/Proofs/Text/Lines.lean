import Calculator.Text.Blank
import Calculator.Text.Lines
import Calculator.Proofs.Token.Continuation

namespace Calculator.Text

/-- How characters fall into pieces, none of which holds an end: an end stands behind each piece,
except perhaps behind the last, which then is not empty. -/
inductive Divided (ends : Char → Bool) : List Char → List (List Char) → Prop where
  | nothing : Divided ends [] []
  | unended {piece : List Char} (some : piece ≠ []) (inside : ∀ c ∈ piece, ends c = false) :
    Divided ends piece [piece]
  | ended {piece rest : List Char} {mark : Char} {pieces : List (List Char)}
      (inside : ∀ c ∈ piece, ends c = false) (closes : ends mark = true)
      (others : Divided ends rest pieces) :
    Divided ends (piece ++ mark :: rest) (piece :: pieces)

section Pieces

variable {ends : Char → Bool} {chars piece : List Char} {pieces : List (List Char)}

theorem Divided.cons {c : Char} (inside : ends c = false)
    (divided : Divided ends chars (piece :: pieces)) :
    Divided ends (c :: chars) ((c :: piece) :: pieces) := by
  cases divided with
  | unended some others =>
    exact .unended (List.cons_ne_nil c _) (List.forall_mem_cons.mpr ⟨inside, others⟩)
  | ended others closes rest =>
    exact .ended (List.forall_mem_cons.mpr ⟨inside, others⟩) closes rest

theorem divided_cut (ends : Char → Bool) (chars : List Char) :
    Divided ends chars (cut ends chars) := by
  induction chars with
  | nil => exact .nothing
  | cons c rest ih =>
    rw [cut]
    by_cases mark : ends c = true
    · rw [if_pos mark]
      exact .ended (List.forall_mem_nil _) mark ih
    · rw [if_neg mark]
      have inside : ends c = false := Bool.eq_false_iff.mpr mark
      generalize cut ends rest = others at ih ⊢
      cases others with
      | nil =>
        cases ih
        exact .unended (List.cons_ne_nil c []) (List.forall_mem_singleton.mpr inside)
      | cons piece more => exact ih.cons inside

theorem cut_ended {mark : Char} (inside : ∀ c ∈ piece, ends c = false) (closes : ends mark = true)
    (rest : List Char) : cut ends (piece ++ mark :: rest) = piece :: cut ends rest := by
  induction piece with
  | nil => simp [cut, closes]
  | cons c piece ih =>
    obtain ⟨first, others⟩ := List.forall_mem_cons.mp inside
    rw [List.cons_append, cut, first, if_neg Bool.false_ne_true, ih others]

theorem cut_unended (some : piece ≠ []) (inside : ∀ c ∈ piece, ends c = false) :
    cut ends piece = [piece] := by
  induction piece with
  | nil => exact absurd rfl some
  | cons c piece ih =>
    obtain ⟨first, others⟩ := List.forall_mem_cons.mp inside
    rw [cut, first, if_neg Bool.false_ne_true]
    cases piece with
    | nil => rfl
    | cons next more => rw [ih (List.cons_ne_nil next more) others]

theorem cut_eq_iff : cut ends chars = pieces ↔ Divided ends chars pieces := by
  constructor
  · rintro rfl
    exact divided_cut ends chars
  · intro divided
    induction divided with
    | nothing => rfl
    | unended some inside => exact cut_unended some inside
    | ended inside closes _ ih => rw [cut_ended inside closes, ih]

end Pieces

/-- The lines of a text that ends its lines by line feeds. -/
def InLines (text : String) (lines : List String) : Prop :=
  Divided (· == '\n') text.toList (lines.map String.toList)

theorem inputLines_eq_iff {text : String} {lines : List String} :
    inputLines text = lines ↔ InLines text lines := by
  rw [InLines, ← cut_eq_iff, inputLines]
  constructor
  · rintro rfl
    simp [Function.comp_def]
  · intro same
    rw [same]
    simp [Function.comp_def]

section Trimming

variable {drop : Char → Bool}

theorem dropWhile_eq_iff {chars left : List Char} :
    chars.dropWhile drop = left ↔
      ∃ front, chars = front ++ left ∧ (∀ c ∈ front, drop c = true) ∧
        ∀ c ∈ left.head?, drop c = false := by
  constructor
  · rintro rfl
    refine ⟨chars.takeWhile drop, List.takeWhile_append_dropWhile.symm,
      fun c member => List.mem_takeWhile_imp member, ?_⟩
    intro c first
    have stopped := List.head?_dropWhile_not drop chars
    rw [Option.mem_def.mp first] at stopped
    simpa using stopped
  · rintro ⟨front, rfl, dropped, kept⟩
    exact (Token.span_append dropped kept).2

/-- A text less the characters of a class at its end. -/
structure Shortened (drop : Char → Bool) (text short : String) : Prop where
  split : ∃ back, text.toList = short.toList ++ back ∧ ∀ c ∈ back, drop c = true
  last : ∀ c ∈ short.toList.getLast?, drop c = false

theorem trimEnd_eq_iff {text short : String} :
    trimEnd drop text = short ↔ Shortened drop text short := by
  have chars : trimEnd drop text = short ↔
      text.toList.reverse.dropWhile drop = short.toList.reverse := by
    rw [trimEnd, ← String.toList_inj, String.toList_ofList, List.reverse_eq_iff]
  rw [chars, dropWhile_eq_iff]
  constructor
  · rintro ⟨front, split, dropped, kept⟩
    refine ⟨⟨front.reverse, ?_, fun c member => dropped c (List.mem_reverse.mp member)⟩, ?_⟩
    · rw [← List.reverse_reverse text.toList, split, List.reverse_append, List.reverse_reverse]
    · rwa [List.head?_reverse] at kept
  · rintro ⟨⟨back, split, dropped⟩, kept⟩
    refine ⟨back.reverse, ?_, fun c member => dropped c (List.mem_reverse.mp member), ?_⟩
    · rw [split, List.reverse_append]
    · rwa [List.head?_reverse]

/-- A text less the blanks around it. -/
structure Bared (text short : String) : Prop where
  split : ∃ front back, text.toList = front ++ short.toList ++ back ∧
    (∀ c ∈ front, isBlank c = true) ∧ ∀ c ∈ back, isBlank c = true
  first : ∀ c ∈ short.toList.head?, isBlank c = false
  last : ∀ c ∈ short.toList.getLast?, isBlank c = false

theorem trim_eq_iff {text short : String} : trim text = short ↔ Bared text short := by
  have stages : trim text = trimEnd isBlank (String.ofList (text.toList.dropWhile isBlank)) := by
    simp [trim, trimChars, trimEnd]
  rw [stages, trimEnd_eq_iff]
  constructor
  · rintro ⟨⟨back, split, behind⟩, last⟩
    rw [String.toList_ofList] at split
    obtain ⟨front, whole, before, head⟩ := dropWhile_eq_iff.mp split
    refine ⟨⟨front, back, by rw [whole, List.append_assoc], before, behind⟩, ?_, last⟩
    intro c first
    exact head c (by simp [Option.mem_def.mp first])
  · rintro ⟨⟨front, back, split, before, behind⟩, first, last⟩
    refine ⟨?_, last⟩
    rw [String.toList_ofList]
    cases chars : short.toList with
    | nil =>
      -- nothing is left of a blank text, whatever stands before and behind
      refine ⟨[], dropWhile_eq_iff.mpr ⟨front ++ back, ?_, ?_, by simp⟩, List.forall_mem_nil _⟩
      · simp [split, chars]
      · exact List.forall_mem_append.mpr ⟨before, behind⟩
    | cons c rest =>
      rw [chars] at split first
      refine ⟨back, dropWhile_eq_iff.mpr ⟨front, ?_, before, ?_⟩, behind⟩
      · rw [split, List.append_assoc]
      · simpa using first

end Trimming

end Calculator.Text
