/-
# `MethodSkeleton.Proofs.Signature.LineByLine` — a text has the tokens of its lines

A line feed between two texts keeps their tokens apart: first come those of the one, then those of
the other, moved on behind it (`tokenize_append_lineFeed`).  The one text may hold what is no token,
and a string or a rune that is broken off at its end too; only a comment or a raw string must not be
open there.

The induction is on the lexemes of the first text, and what stands behind each of them makes no
difference up to the line feed (`StandsBefore.append_lineFeed`).  At its end a carriage return and
the line feed are one line break, which is no token and takes the same room as two.
-/
import MethodSkeleton.Proofs.Signature.Coverage
import MethodSkeleton.Proofs.Source.LineBreak

namespace MethodSkeleton

/-! ## Moved on -/

/-- The place `n` bytes further on. -/
def Span.shift (n : Nat) (span : Span) : Span := ⟨span.start + n, span.stop + n⟩

/-- The same thing, `n` bytes further on. -/
def Located.shift {α : Type} (n : Nat) (x : Located α) : Located α := ⟨x.span.shift n, x.value⟩

theorem locate_add (position n : Nat) (xs : List Lexeme) :
    Lexeme.locate (position + n) xs = (Lexeme.locate position xs).map (Located.shift n) := by
  induction xs generalizing position with
  | nil => rfl
  | cons x xs ih =>
      rw [Lexeme.locate, Lexeme.locate, List.map_cons, ← ih, Nat.add_right_comm]
      rfl

theorem tokensOf_map_shift (n : Nat) (xs : List (Located Lexeme)) :
    tokensOf (xs.map (Located.shift n)) = (tokensOf xs).map (Located.shift n) := by
  rw [tokensOf, tokensOf, List.filterMap_map, List.map_filterMap]
  refine List.filterMap_congr fun x _ => ?_
  rw [Option.map_map]
  rfl

/-- The tokens of a text that begins `n` bytes further on. -/
theorem map_shift_tokenize (n : Nat) (source : String) :
    (tokenize source).map (Located.shift n) =
      tokensOf (Lexeme.locate n (lexemes source.toList)) ++
        [endAt (byteWidth source.toList + n)] := by
  rw [tokenize, List.map_append, ← tokensOf_map_shift, ← locate_add, Nat.zero_add]
  rfl

/-! ## Open ends -/

/-- The text ends inside a comment or a raw string that is not closed. -/
def EndsUnterminated (source : String) : Prop :=
  ∃ x, (lexemes source.toList).getLast? = some x ∧ x.Unterminated

/-- What is not closed goes on to the end of the text. -/
theorem ReadsBack.getLast?_eq_of_unterminated {xs : List Lexeme} (h : ReadsBack xs) {x : Lexeme}
    (hx : x ∈ xs) (hopen : x.Unterminated) : xs.getLast? = some x := by
  induction xs with
  | nil => simp at hx
  | cons y ys ih =>
      obtain ⟨hstand, hys⟩ := readsBack_cons_iff.mp h
      rcases List.mem_cons.mp hx with rfl | hx
      · have hnil : ys = [] := by
          have hspell := hstand.eq_nil_of_unterminated hopen
          rw [← hys, hspell]
          rfl
        rw [hnil]
        rfl
      · rw [List.getLast?_cons, ih hys hx]
        rfl

theorem not_unterminated_of_mem {source : String} (h : ¬ EndsUnterminated source) :
    ∀ x ∈ lexemes source.toList, ¬ x.Unterminated := fun x hx hopen =>
  h ⟨x, (readsBack_lexemes source.toList).getLast?_eq_of_unterminated hx hopen, hopen⟩

/-! ## Across a line feed -/

/-- The tokens in front of a line feed are those of the text that ends there, and those behind it
are those of the text that begins there. -/
theorem tokensOf_append_lineFeed {xs : List Lexeme} (h : ReadsBack xs)
    (hopen : ∀ x ∈ xs, ¬ x.Unterminated) (position : Nat) (rest : List Char) :
    tokensOf (Lexeme.locate position (lexemes (Lexeme.spell xs ++ '\n' :: rest))) =
      tokensOf (Lexeme.locate position xs) ++
        tokensOf (Lexeme.locate (position + byteWidth (Lexeme.spell xs) + 1) (lexemes rest)) := by
  induction xs generalizing position with
  | nil =>
      have hlexemes : lexemes ('\n' :: rest) = ⟨.token .newline, ['\n']⟩ :: lexemes rest :=
        (standsBefore_lineFeed rest).lexemes_eq
      rw [show Lexeme.spell [] = [] from rfl, List.nil_append, hlexemes,
        tokensOf_locate_of_none rfl]
      rfl
  | cons x xs ih =>
      obtain ⟨hstand, hxs⟩ := readsBack_cons_iff.mp h
      obtain ⟨hx, hopen⟩ := List.forall_mem_cons.mp hopen
      by_cases hk : Lexeme.spell xs ≠ [] ∨ x.text ≠ ['\r']
      · have hbehind := ih hxs hopen (position + byteWidth x.text)
        rw [Nat.add_assoc position, ← byteWidth_append, ← spell_cons] at hbehind
        have hlexemes := (hstand.append_lineFeed hx hk rest).lexemes_eq
        rw [← List.append_assoc, ← spell_cons] at hlexemes
        rw [hlexemes]
        cases ht : Token.ofLexeme? x with
        | none => rw [tokensOf_locate_of_none ht, tokensOf_locate_of_none ht, hbehind]
        | some t =>
            rw [tokensOf_locate_of_some ht, tokensOf_locate_of_some ht, hbehind]
            rfl
      · -- the carriage return takes the line feed in, and both are one line break
        push Not at hk
        obtain ⟨hnil, htext⟩ := hk
        obtain rfl : xs = [] := by rw [← hxs, hnil]; rfl
        obtain ⟨is, text⟩ := x
        obtain rfl : text = ['\r'] := htext
        obtain ⟨c, tail, hc, hm⟩ := hstand
        obtain ⟨rfl, rfl⟩ := List.cons.inj hc
        obtain rfl : LexemeClass.token .newline = is := congrArg Prod.fst hm
        have hlexemes : lexemes ('\r' :: '\n' :: rest) =
            ⟨.token .newline, ['\r', '\n']⟩ :: lexemes rest :=
          (show StandsBefore ⟨.token .newline, ['\r', '\n']⟩ rest from
            ⟨'\r', ['\n'], rfl, rfl⟩).lexemes_eq
        rw [show Lexeme.spell [⟨.token .newline, ['\r']⟩] ++ '\n' :: rest =
          '\r' :: '\n' :: rest from rfl, hlexemes, tokensOf_locate_of_none rfl,
          tokensOf_locate_of_none rfl]
        rfl

/-- **A line break is a boundary for the scanner.**  If a text does not end inside an open comment
or an open raw string, then what is written below it has the tokens that it has by itself, each as
much further on as the text above is long with its line feed, and they stand behind the tokens of
the text above. -/
theorem tokenize_append_lineFeed {s : String} (h : ¬ EndsUnterminated s) (t : String) :
    ∃ ts, tokenize s = ts ++ [endAt (byteWidth s.toList)] ∧
      tokenize (s ++ "\n" ++ t) =
        ts ++ (tokenize t).map (Located.shift (byteWidth s.toList + 1)) := by
  refine ⟨_, rfl, ?_⟩
  have htext : (s ++ "\n" ++ t).toList = s.toList ++ '\n' :: t.toList := by
    simp only [String.toList_append, List.append_assoc]
    rfl
  have htokens := tokensOf_append_lineFeed (readsBack_lexemes s.toList)
    (not_unterminated_of_mem h) 0 t.toList
  rw [spell_lexemes, Nat.zero_add] at htokens
  have hwidth : byteWidth (s.toList ++ '\n' :: t.toList) =
      byteWidth t.toList + (byteWidth s.toList + 1) := by
    rw [byteWidth_append, byteWidth, show '\n'.utf8Size = 1 from rfl]
    omega
  rw [map_shift_tokenize, tokenize, htext, htokens, hwidth, List.append_assoc]

/-- A string that is broken off behind a backslash. -/
def brokenOff : String := "name \"no\\"

theorem tokenize_append_lineFeed_brokenOff : ¬ EndsUnterminated brokenOff ∧
    ∃ ts, tokenize brokenOff = ts ++ [endAt 9] ∧
      tokenize (brokenOff ++ "\n" ++ "error") =
        ts ++ (tokenize "error").map (Located.shift 10) := by
  have hlexemes : lexemes brokenOff.toList = [⟨.token .identifier, "name".toList⟩,
      ⟨.blank, " ".toList⟩, ⟨.fault .invalidToken, "\"no".toList⟩,
      ⟨.fault .invalidToken, "\\".toList⟩] := rfl
  have hend : ¬ EndsUnterminated brokenOff := by
    rintro ⟨x, hx, hopen⟩
    rw [hlexemes] at hx
    obtain rfl := Option.some.inj hx
    rcases hopen with h | ⟨_, h⟩
    · cases h
    · cases h
  exact ⟨hend, tokenize_append_lineFeed hend "error"⟩

end MethodSkeleton
