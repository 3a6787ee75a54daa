/-
# `MethodSkeleton.Proofs.Source.Trivia` — what may stand between tokens

Between the tokens of a text there are blanks, line ends and comments, and nothing else: that is
what the lexemes without a token of their own are made of (`StandsBefore.isTrivia`).  A line comment
goes on to the end of its line, which is a matter of what stands behind it; so trivia are trivia in
front of a text.  A block comment ends at the first `*/` behind its opening, and only if there is
one (`blockCommentLength_eq_length_iff`).
-/
import MethodSkeleton.Proofs.Source.Reread

namespace MethodSkeleton

/-- In front of `after` the text is made of blanks, line ends, line comments that go on to the end
of their line, and block comments that are closed. -/
inductive IsTrivia (after : List Char) : List Char → Prop
  | nil : IsTrivia after []
  | blank {c : Char} {text : List Char} : isBlank c = true → IsTrivia after text →
      IsTrivia after (c :: text)
  | lineEnd {c : Char} {text : List Char} : isLineEnd c = true → IsTrivia after text →
      IsTrivia after (c :: text)
  | lineComment {body text : List Char} : (∀ d ∈ body, isLineEnd d = false) →
      (text ++ after).head?.all isLineEnd = true → IsTrivia after text →
      IsTrivia after ('/' :: '/' :: body ++ text)
  | blockComment {body text : List Char} : ¬ ['*', '/'] <:+: body → IsTrivia after text →
      IsTrivia after ('/' :: '*' :: body ++ '*' :: '/' :: text)

/-- Trivia in front of trivia. -/
theorem IsTrivia.append {after s t : List Char} (hs : IsTrivia (t ++ after) s)
    (ht : IsTrivia after t) : IsTrivia after (s ++ t) := by
  induction hs with
  | nil => exact ht
  | blank hc _ ih => exact .blank hc ih
  | lineEnd hc _ ih => exact .lineEnd hc ih
  | @lineComment body s hbody hend _ ih =>
      rw [List.append_assoc]
      rw [← List.append_assoc] at hend
      exact .lineComment hbody hend ih
  | @blockComment body s hbody _ ih =>
      rw [List.append_assoc]
      exact .blockComment hbody ih

theorem isTrivia_blanks {after text : List Char} (h : ∀ c ∈ text, isBlank c = true) :
    IsTrivia after text := by
  induction text with
  | nil => exact .nil
  | cons c text ih =>
      obtain ⟨hc, htext⟩ := List.forall_mem_cons.mp h
      exact .blank hc (ih htext)

/-- A block comment takes the whole of a text exactly if the only `*/` in it is at its end. -/
theorem blockCommentLength_eq_length_iff {cs : List Char} :
    blockCommentLength cs = some cs.length ↔
      ∃ body, cs = body ++ ['*', '/'] ∧ ¬ ['*', '/'] <:+: body := by
  induction cs with
  | nil => simp [blockCommentLength]
  | cons c cs ih =>
      rw [blockCommentLength_cons]
      split
      · rename_i hc
        obtain ⟨rfl, hcs⟩ := hc
        obtain ⟨rest, rfl⟩ := List.head?_eq_some_iff.mp hcs
        constructor
        · intro h
          obtain rfl : rest = [] := by simpa using h
          exact ⟨[], rfl, by simp⟩
        · rintro ⟨body, hbody, hnone⟩
          cases body with
          | nil => simpa using hbody
          | cons d body =>
          cases body with
          | nil => simp at hbody
          | cons e body =>
              obtain ⟨rfl, rfl, _⟩ : '*' = d ∧ '/' = e ∧ rest = body ++ ['*', '/'] := by
                simpa using hbody
              exact absurd (List.prefix_append ['*', '/'] body).isInfix hnone
      · rename_i hc
        have hmap : (blockCommentLength cs).map (· + 1) = some (c :: cs).length ↔
            blockCommentLength cs = some cs.length := by simp
        rw [hmap, ih]
        constructor
        · rintro ⟨body, rfl, hnone⟩
          refine ⟨c :: body, rfl, fun hinfix => ?_⟩
          rcases List.infix_cons_iff.mp hinfix with hprefix | hinfix
          · obtain ⟨rfl, hbody⟩ := List.cons_prefix_cons.mp hprefix
            obtain ⟨more, rfl⟩ := hbody
            exact hc ⟨rfl, rfl⟩
          · exact hnone hinfix
        · rintro ⟨body, hbody, hnone⟩
          cases body with
          | nil =>
              cases hbody
              exact absurd ⟨rfl, rfl⟩ hc
          | cons d body =>
              obtain ⟨rfl, rfl⟩ := List.cons.inj hbody
              exact ⟨body, rfl, fun hinfix => hnone (List.infix_cons_iff.mpr (.inr hinfix))⟩

/-- The kinds of token that only separate other tokens. -/
def Kind.isTrivia (kind : Kind) : Bool := kind == .newline || kind.isComment

theorem Kind.isTrivia_iff {kind : Kind} :
    kind.isTrivia = true ↔ kind = .newline ∨ kind.isComment = true := by
  simp [Kind.isTrivia]

/-- What stands in some text as a blank, a line break or a comment is trivia in front of any text, a
line comment in front of the end of its line. -/
theorem StandsBefore.isTrivia_before {x : Lexeme} {rest v : List Char} (h : StandsBefore x rest)
    (hx : x.is = .blank ∨ ∃ kind, x.is = .token kind ∧ kind.isTrivia = true)
    (hline : x.is = .token .lineComment → v.head?.all isLineEnd = true) : IsTrivia v x.text := by
  obtain ⟨is, text⟩ := x
  rcases hx with rfl | ⟨kind, rfl, hkind⟩
  · obtain ⟨c, tail, ht, hm⟩ := h
    obtain rfl : text = c :: tail := ht
    have hc := isBlank_of_munch hm
    rw [munch, if_pos hc] at hm
    obtain ⟨hall, _⟩ := runLength_append_eq_length_iff.mp (Prod.mk.inj hm).2
    exact isTrivia_blanks (List.forall_mem_cons.mpr ⟨hc, hall⟩)
  · have hspells := h.spells
    cases hspells with
    | lineFeed => exact .lineEnd rfl .nil
    | carriageReturn => exact .lineEnd rfl .nil
    | returnAndFeed => exact .lineEnd rfl (.lineEnd rfl .nil)
    | @lineComment body hbody =>
        have hcomment : IsTrivia v ('/' :: '/' :: body ++ []) := .lineComment hbody (hline rfl) .nil
        rwa [List.append_nil] at hcomment
    | blockComment hlength =>
        obtain ⟨body, rfl, hbody⟩ := blockCommentLength_eq_length_iff.mp hlength
        exact .blockComment hbody .nil
    | fixed he =>
        have hall : ∀ e ∈ punctuation, e.2.isTrivia = false := by decide
        have hnone := hall _ he
        rw [hkind] at hnone
        cases hnone
    | _ => cases hkind

/-- What stands in a text as a blank, a line break or a comment is trivia there. -/
theorem StandsBefore.isTrivia {x : Lexeme} {rest : List Char} (h : StandsBefore x rest)
    (hx : x.is = .blank ∨ ∃ kind, x.is = .token kind ∧ kind.isTrivia = true) :
    IsTrivia rest x.text := by
  refine h.isTrivia_before hx fun hline => ?_
  obtain ⟨is, text⟩ := x
  cases hline
  exact h.line_end

end MethodSkeleton
