/-
# `MethodSkeleton.Proofs.Signature.Insertion` — more trivia between the tokens

Blanks, line ends and comments may be put in front of any token that a signature takes, and the
text declares the same method (`parseSignature_inserted`).  There is one place where this has a
condition: at the end of a text that ends in a line comment, the comment takes in the first line of
what is put there, and only the rest has to be trivia by itself.  Without the condition it fails
(`not_parseSignature_inserted`): the comment takes in the opening of a block comment, whose body is
then read.

That trivia is skipped holds in front of any text (`IsTrivia.tokenValues_append`), although it need
not be cut into the lexemes that it was written as: it may go on with blanks that follow, and a
carriage return takes in a line feed.  For the same reason the lexemes in front of the place cannot
be compared one by one, but only the tokens among them: those of a signature stand before trivia
(`StandsBefore.of_separates`), since no word and no spelling goes on with its first character.
-/
import MethodSkeleton.Proofs.Signature.Continuation

namespace MethodSkeleton

/-! ## Trivia is skipped -/

/-- The tokens in a text, without their places. -/
def tokenValues (cs : List Char) : List Token := (lexemes cs).filterMap Token.ofLexeme?

theorem tokenValues_cons (c : Char) (cs : List Char) :
    tokenValues (c :: cs) =
      (Token.ofLexeme? ⟨(munch c cs).1, c :: cs.take (munch c cs).2⟩).toList ++
        tokenValues (cs.drop (munch c cs).2) := by
  rw [tokenValues, lexemes_cons, List.filterMap_cons]
  cases Token.ofLexeme? ⟨(munch c cs).1, c :: cs.take (munch c cs).2⟩ <;> rfl

theorem StandsBefore.tokenValues_eq {x : Lexeme} {rest : List Char} (h : StandsBefore x rest) :
    tokenValues (x.text ++ rest) = (Token.ofLexeme? x).toList ++ tokenValues rest := by
  rw [tokenValues, h.lexemes_eq, List.filterMap_cons]
  cases Token.ofLexeme? x <;> rfl

/-- A blank is skipped, alone or with those behind it. -/
theorem tokenValues_blank {c : Char} (hc : isBlank c = true) (cs : List Char) :
    tokenValues (c :: cs) = tokenValues cs := by
  have hskip : ∀ (d : Char) (ds : List Char), isBlank d = true →
      tokenValues (d :: ds) = tokenValues (ds.drop (runLength isBlank ds)) := by
    intro d ds hd
    have hmunch : munch d ds = (.blank, runLength isBlank ds) := by rw [munch, if_pos hd]
    rw [tokenValues_cons, hmunch]
    rfl
  rw [hskip c cs hc]
  cases cs with
  | nil => rfl
  | cons d ds =>
      rw [runLength_cons]
      split
      · rename_i hd
        rw [hskip d ds hd]
        rfl
      · rfl

/-- A line end is skipped, alone or with a line feed behind it. -/
theorem tokenValues_lineEnd {c : Char} (hc : isLineEnd c = true) (cs : List Char) :
    tokenValues (c :: cs) = tokenValues cs := by
  rcases isLineEnd_iff.mp hc with rfl | rfl
  · rw [tokenValues_cons]
    rfl
  · have hmunch : munch '\r' cs = (.token .newline, if cs.head? = some '\n' then 1 else 0) := rfl
    rw [tokenValues_cons, hmunch]
    split
    · rename_i hcs
      obtain ⟨ds, rfl⟩ := List.head?_eq_some_iff.mp hcs
      exact (tokenValues_cons '\n' ds).symm
    · rfl

/-- **Trivia is skipped**, whatever stands behind it. -/
theorem IsTrivia.tokenValues_append {after text : List Char} (h : IsTrivia after text) :
    tokenValues (text ++ after) = tokenValues after := by
  induction h with
  | nil => rfl
  | blank hc _ ih => exact (tokenValues_blank hc _).trans ih
  | lineEnd hc _ ih => exact (tokenValues_lineEnd hc _).trans ih
  | @lineComment body text hbody hend _ ih =>
      have hstand : StandsBefore ⟨.token .lineComment, '/' :: '/' :: body⟩ (text ++ after) :=
        ((Spells.lineComment hbody).standsBefore_iff (by decide)
          ⟨fun _ => hend, fun h => absurd h (by decide)⟩).mpr not_fuses_of_slash
      rw [List.append_assoc, hstand.tokenValues_eq, ih]
      rfl
  | @blockComment body text hbody _ ih =>
      have hlength : blockCommentLength (body ++ ['*', '/']) = some (body ++ ['*', '/']).length :=
        blockCommentLength_eq_length_iff.mpr ⟨body, rfl, hbody⟩
      have hstand : StandsBefore ⟨.token .blockComment, '/' :: '*' :: (body ++ ['*', '/'])⟩
          (text ++ after) :=
        ((Spells.blockComment hlength).standsBefore_iff (by decide)
          ⟨fun h => absurd h (by decide), fun h => absurd h (by decide)⟩).mpr not_fuses_of_slash
      have htext : '/' :: '*' :: body ++ '*' :: '/' :: text ++ after =
          '/' :: '*' :: (body ++ ['*', '/']) ++ (text ++ after) := by simp
      rw [htext, hstand.tokenValues_eq, ih]
      rfl

/-- A text is trivia exactly if it has no tokens. -/
theorem isTrivia_nil_iff {cs : List Char} : IsTrivia [] cs ↔ tokenValues cs = [] := by
  constructor
  · intro h
    have hskipped := h.tokenValues_append
    rwa [List.append_nil] at hskipped
  · intro h
    have hall : ∀ xs : List Lexeme, ReadsBack xs → (∀ x ∈ xs, Token.ofLexeme? x = none) →
        IsTrivia [] (Lexeme.spell xs) := by
      intro xs hxs hnone
      induction xs with
      | nil => exact .nil
      | cons x xs ih =>
          obtain ⟨hstand, hback⟩ := readsBack_cons_iff.mp hxs
          obtain ⟨hx, hrest⟩ := List.forall_mem_cons.mp hnone
          have htrivia := hstand.isTrivia (Token.ofLexeme?_eq_none_iff.mp hx)
          rw [← List.append_nil (Lexeme.spell xs)] at htrivia
          exact htrivia.append (ih hback hrest)
    have htrivia := hall (lexemes cs) (readsBack_lexemes cs) (List.filterMap_eq_nil_iff.mp h)
    rwa [spell_lexemes] at htrivia

/-! ## Tokens in front of trivia -/

/-- The end of the text, or a character that no word and no spelling goes on with. -/
def Separates (cs : List Char) : Prop :=
  cs.head?.any goesOn = false ∧ cs.head?.any isIdentifierPart = false

theorem IsTrivia.separates {after text : List Char} (h : IsTrivia after text) (hne : text ≠ []) :
    Separates (text ++ after) := by
  have hblank : ∀ c, isBlank c = true ∨ isLineEnd c = true → goesOn c = false ∧
      isIdentifierPart c = false := by
    intro c hc
    rw [isBlank_iff, isLineEnd_iff] at hc
    rcases hc with (rfl | rfl | rfl) | rfl | rfl <;> decide
  cases h with
  | nil => exact absurd rfl hne
  | blank hc => exact hblank _ (.inl hc)
  | lineEnd hc => exact hblank _ (.inr hc)
  | lineComment => exact (by decide : goesOn '/' = false ∧ isIdentifierPart '/' = false)
  | blockComment => exact (by decide : goesOn '/' = false ∧ isIdentifierPart '/' = false)

/-- What does not fuse with a text does not fuse with its front, if something separates the front
from what is behind. -/
theorem not_fuses_of_separates {text behind u v : List Char} (ht : text ≠ []) (hv : Separates v)
    (h : ¬ Fuses text (behind ++ u)) : ¬ Fuses text (behind ++ v) := by
  rintro (⟨e, he, hlt, hp⟩ | ⟨hdigit, hpoint, hhead⟩)
  · refine h (.inl ⟨e, he, hlt, ?_⟩)
    have hfront : e.1 <+: text ++ behind := by
      cases v with
      | nil => rwa [List.append_nil] at hp
      | cons d v => exact prefix_of_not_goesOn he ht hv.1 hp
    rw [← List.append_assoc]
    exact hfront.trans (List.prefix_append _ _)
  · cases behind with
    | nil =>
        have hpoint : goesOn '.' = true := by decide
        rw [List.nil_append] at hhead
        have hgoes := hv.1
        rw [hhead, Option.any_some, hpoint] at hgoes
        cases hgoes
    | cons d behind => exact h (.inr ⟨hdigit, hpoint, hhead⟩)

/-- Nothing has to be shielded but line comments, words, numbers and operators. -/
theorem shielded_of_ne {kind : Kind} {rest : List Char} (hline : kind ≠ .lineComment)
    (hword : kind ∉ [.identifier, .number, .operator]) : Shielded kind rest where
  line h := absurd h hline
  word h := absurd h hword

/-- A token that the grammar expects stands before another text in the same way, if what is new in
that text is separated from it. -/
theorem StandsBefore.of_separates {x : Lexeme} {t : Token} {behind u v : List Char}
    (h : StandsBefore x (behind ++ u)) (ht : Token.ofLexeme? x = some t)
    (hexpected : ∀ text, t ≠ .unexpected text) (hv : Separates v) :
    StandsBefore x (behind ++ v) := by
  obtain ⟨is, text⟩ := x
  cases is with
  | blank => cases ht
  | fault why => exact absurd (Option.some.inj ht).symm (hexpected _)
  | token kind =>
      have hspells := h.spells
      have hne : text ≠ [] := by
        obtain ⟨c, tail, htext, _⟩ := h
        rw [show text = c :: tail from htext]
        exact List.cons_ne_nil c tail
      cases kind with
      | newline | lineComment | blockComment => cases ht
      | identifier =>
          cases hspells with
          | @identifier c tail hc hall =>
              rw [standsBefore_token_iff] at h ⊢
              have hlength := (Reads.identifier hc).length_eq h
              obtain ⟨_, hend⟩ := runLength_append_eq_length_iff.mp hlength
              have hend' : (behind ++ v).head?.any isIdentifierPart = false := by
                cases behind with
                | nil => exact hv.2
                | cons d behind => exact hend
              rw [← runLength_append_eq_length_iff.mpr ⟨hall, hend'⟩]
              exact .identifier hc
          | fixed he => cases punctuation_isFixed he
      | leftParen | rightParen | leftBracket | rightBracket | star | dot | comma | ellipsis
      | leftBrace =>
          rw [hspells.standsBefore_iff (by decide) (shielded_of_ne (by decide) (by decide))] at h ⊢
          exact not_fuses_of_separates hne hv h
      | _ => exact absurd (Option.some.inj ht).symm (hexpected _)

/-- **Only what separates counts.**  Behind lexemes that end in no line comment and have no
unexpected token among them, any text that separates begins with its own tokens. -/
theorem tokenValues_behind {xs : List Lexeme} {u v : List Char}
    (h : lexemes (Lexeme.spell xs ++ u) = xs ++ lexemes u)
    (hexpected : ∀ text, .unexpected text ∉ xs.filterMap Token.ofLexeme?)
    (hline : ∀ x, xs.getLast? = some x → x.is ≠ .token .lineComment) (hv : Separates v) :
    tokenValues (Lexeme.spell xs ++ v) = xs.filterMap Token.ofLexeme? ++ tokenValues v := by
  induction xs with
  | nil => rfl
  | cons x xs ih =>
      rw [spell_cons, List.append_assoc, List.cons_append, lexemes_eq_cons_iff] at h
      obtain ⟨rest, hrest, hstand, hxs⟩ := h
      obtain rfl := List.append_cancel_left hrest
      have hbehind : tokenValues (Lexeme.spell xs ++ v) =
          xs.filterMap Token.ofLexeme? ++ tokenValues v := by
        refine ih hxs (fun text hmem => hexpected text ?_) fun y hy => hline y ?_
        · exact (List.Sublist.filterMap _ (List.sublist_cons_self x xs)).subset hmem
        · rw [List.getLast?_cons, hy]
          rfl
      rw [spell_cons, List.append_assoc, List.filterMap_cons]
      cases ht : Token.ofLexeme? x with
      | none =>
          have htrivia : IsTrivia (Lexeme.spell xs ++ v) x.text := by
            refine hstand.isTrivia_before (Token.ofLexeme?_eq_none_iff.mp ht) fun hcomment => ?_
            cases xs with
            | nil => exact absurd hcomment (hline x rfl)
            | cons y ys =>
                obtain ⟨_, _, ⟨c, tail, htext, _⟩, _⟩ := lexemes_eq_cons_iff.mp hxs
                obtain ⟨is, text⟩ := x
                cases hcomment
                have hend := hstand.line_end
                rw [spell_cons, htext] at hend ⊢
                exact hend
          rw [htrivia.tokenValues_append, hbehind]
      | some t =>
          have hstand' : StandsBefore x (Lexeme.spell xs ++ v) :=
            hstand.of_separates ht (fun text htext => hexpected text (by simp [ht, htext])) hv
          rw [hstand'.tokenValues_eq, hbehind, ht]
          rfl

/-! ## Places in front of tokens -/

section
variable {source : String} {m : Method} {t : Located Token}

/-- In front of a token that a signature takes stand lexemes that the grammar expects; at the token
begins its lexeme, unless the text is over there. -/
theorem exists_lexemes_of_taken (h : parseSignature source = .ok m)
    (ht : t ∈ takenTokens (tokenize source)) :
    ∃ xs ys, lexemes source.toList = xs ++ ys ∧ t.span.start = byteWidth (Lexeme.spell xs) ∧
      (∀ text, .unexpected text ∉ xs.filterMap Token.ofLexeme?) ∧
      ((t.value = .endOfInput ∧ ys = []) ∨
        ∃ y zs, ys = y :: zs ∧ Token.ofLexeme? y = some t.value) := by
  obtain ⟨o, _, hsignature⟩ := isSignature_takenTokens h
  obtain ⟨before, after, htaken⟩ := List.append_of_mem ht
  have hexpected : ∀ text, .unexpected text ∉ before.map (·.value) := by
    intro text hmem
    refine hsignature.typesGoOn.expected text ?_
    rw [htaken, List.map_append]
    exact List.mem_append_left _ hmem
  have hfront : before ++ [t] <+: tokenize source := by
    refine List.IsPrefix.trans ?_ (takenTokens_isPrefix (tokenize source))
    rw [htaken]
    exact List.prefix_append_right_inj before |>.mpr (List.prefix_append [t] after)
  rcases List.prefix_concat_iff.mp hfront with heq | ⟨behind, htokens⟩
  · obtain ⟨rfl, hend⟩ := List.append_inj' heq rfl
    obtain rfl : t = endAt (byteWidth source.toList) := List.singleton_inj.mp hend
    rw [tokensOf_locate] at hexpected
    refine ⟨lexemes source.toList, [], (List.append_nil _).symm, ?_, hexpected, .inl ⟨rfl, rfl⟩⟩
    rw [spell_lexemes]
    rfl
  · rw [List.append_assoc] at htokens
    obtain ⟨xs, y, zs, hlexemes, hy, hxs, hspan⟩ := exists_lexeme_at htokens.symm
    refine ⟨xs, y :: zs, hlexemes, ?_, hxs ▸ hexpected, .inr ⟨y, zs, rfl, hy⟩⟩
    rw [hspan, Nat.zero_add]

/-- A text with the same tokens declares the same method. -/
theorem parseSignature_of_tokenValues {other : String} (h : parseSignature source = .ok m)
    (heq : tokenValues other.toList = tokenValues source.toList) :
    parseSignature other = .ok m := by
  obtain ⟨o, rfl, hsignature⟩ := isSignature_takenTokens h
  refine parseSignature_of_isSignature hsignature ?_
  rw [tokenValues, tokenValues] at heq
  rw [tokenize_values, heq, ← tokenize_values]
  exact (takenTokens_isPrefix (tokenize source)).map (·.value)

/-! ## Behind a line comment -/

/-- Behind a line comment the line ends. -/
theorem ReadsBack.line_end {xs ys : List Lexeme} {x : Lexeme} (h : ReadsBack (xs ++ ys))
    (hx : xs.getLast? = some x) (hline : x.is = .token .lineComment) :
    (Lexeme.spell ys).head?.all isLineEnd = true := by
  obtain ⟨front, rfl⟩ := List.getLast?_eq_some_iff.mp hx
  rw [List.append_assoc] at h
  have hstand := (readsBack_cons_iff.mp h.of_append).1
  obtain ⟨is, text⟩ := x
  cases hline
  exact hstand.line_end

/-- What is something to the grammar does not begin with the end of a line. -/
theorem StandsBefore.head_of_ofLexeme? {x : Lexeme} {u : Token} {rest : List Char}
    (h : StandsBefore x rest) (hu : Token.ofLexeme? x = some u) :
    ∃ c tail, x.text = c :: tail ∧ isLineEnd c = false := by
  obtain ⟨is, text⟩ := x
  obtain ⟨c, tail, htext, hm⟩ := h
  refine ⟨c, tail, htext, ?_⟩
  rw [← Bool.not_eq_true, isLineEnd_iff]
  rintro (rfl | rfl)
  · cases (Prod.mk.inj hm).1
    cases hu
  · cases (Prod.mk.inj hm).1
    cases hu

/-- No line comment stands directly in front of what is something to the grammar. -/
theorem ReadsBack.not_lineComment {xs zs : List Lexeme} {y : Lexeme} {u : Token}
    (h : ReadsBack (xs ++ y :: zs)) (hu : Token.ofLexeme? y = some u) :
    ∀ x, xs.getLast? = some x → x.is ≠ .token .lineComment := by
  intro x hx hline
  obtain ⟨c, tail, htext, hc⟩ :=
    (readsBack_cons_iff.mp h.of_append).1.head_of_ofLexeme? hu
  have hend := h.line_end hx hline
  rw [spell_cons, htext, List.cons_append, List.head?_cons, Option.all_some, hc] at hend
  cases hend

/-- The text from the end of its first line on. -/
def fromLineEnd (cs : List Char) : List Char := cs.dropWhile fun c => !isLineEnd c

/-- A line comment takes in the first line of what is put behind it. -/
theorem isTrivia_lineComment {text inserted : List Char} (h : Spells .lineComment text)
    (hinserted : IsTrivia [] (fromLineEnd inserted)) : IsTrivia [] (text ++ inserted) := by
  cases h with
  | @lineComment body hbody =>
      have hrest := List.takeWhile_append_dropWhile (p := fun c => !isLineEnd c) (l := inserted)
      rw [← hrest, ← List.append_assoc]
      refine .lineComment (fun d hd => ?_) ?_ hinserted
      · rcases List.mem_append.mp hd with hd | hd
        · exact hbody d hd
        · simpa using List.all_eq_true.mp List.all_takeWhile d hd
      · rw [List.append_nil]
        cases hdrop : inserted.dropWhile fun c => !isLineEnd c with
        | nil => rfl
        | cons d ds =>
            have hd := List.head?_dropWhile_not (fun c => !isLineEnd c) inserted
            rw [hdrop] at hd
            simpa using hd
  | fixed he => cases punctuation_isFixed he

/-! ## The same tokens -/

/-- What is put between two lexemes adds no tokens, unless there is a line comment in front. -/
theorem tokenValues_inserted {xs ys : List Lexeme} {inserted : List Char}
    (h : lexemes source.toList = xs ++ ys)
    (hexpected : ∀ text, .unexpected text ∉ xs.filterMap Token.ofLexeme?)
    (hline : ∀ x, xs.getLast? = some x → x.is ≠ .token .lineComment)
    (hinserted : IsTrivia (Lexeme.spell ys) inserted) :
    tokenValues (Lexeme.spell xs ++ inserted ++ Lexeme.spell ys) =
      tokenValues source.toList := by
  have hsource : source.toList = Lexeme.spell xs ++ Lexeme.spell ys := by
    rw [← spell_append, ← h, spell_lexemes]
  rcases eq_or_ne inserted [] with rfl | hne
  · rw [List.append_nil, hsource]
  · have hback : ReadsBack (xs ++ ys) := h ▸ readsBack_lexemes source.toList
    have hys : lexemes (Lexeme.spell ys) = ys := hback.of_append
    have hfront : lexemes (Lexeme.spell xs ++ Lexeme.spell ys) =
        xs ++ lexemes (Lexeme.spell ys) := by
      rw [← hsource, h, hys]
    rw [List.append_assoc, tokenValues_behind hfront hexpected hline (hinserted.separates hne),
      hinserted.tokenValues_append, tokenValues, tokenValues, h, hys, List.filterMap_append]

/-- Nor does what is put behind a line comment at the end of a text, if it is trivia from the end
of its first line on. -/
theorem tokenValues_lineComment {xs : List Lexeme} {x : Lexeme} {inserted : List Char}
    (h : lexemes source.toList = xs ++ [x])
    (hexpected : ∀ text, .unexpected text ∉ xs.filterMap Token.ofLexeme?)
    (hx : x.is = .token .lineComment) (hinserted : IsTrivia [] (fromLineEnd inserted)) :
    tokenValues (source.toList ++ inserted) = tokenValues source.toList := by
  have hback : ReadsBack (xs ++ [x]) := h ▸ readsBack_lexemes source.toList
  have hlast : lexemes x.text = [x] := by
    have hone : ReadsBack [x] := hback.of_append
    rwa [ReadsBack, spell_cons, show Lexeme.spell [] = [] from rfl, List.append_nil] at hone
  have hsource : source.toList = Lexeme.spell xs ++ x.text := by
    rw [← spell_lexemes source.toList, h, spell_append, spell_cons]
    simp [Lexeme.spell]
  obtain ⟨is, text⟩ := x
  cases hx
  have hspells : Spells .lineComment text :=
    (readsBack_cons_iff.mp hback.of_append).1.spells
  have htrivia := isTrivia_lineComment hspells hinserted
  have hne : text ++ inserted ≠ [] := by
    obtain ⟨tail, htail⟩ := hspells.comment_head rfl
    simp [htail]
  have hline : ∀ y, xs.getLast? = some y → y.is ≠ .token .lineComment := by
    intro y hy hcomment
    obtain ⟨tail, htail⟩ := hspells.comment_head rfl
    have hend := hback.line_end hy hcomment
    rw [spell_cons, htail] at hend
    cases hend
  have hfront : lexemes (Lexeme.spell xs ++ text) = xs ++ lexemes text := by
    rw [← hsource, h, hlast]
  have hseparates := htrivia.separates hne
  have hskipped := htrivia.tokenValues_append
  rw [List.append_nil] at hseparates hskipped
  rw [hsource, List.append_assoc, tokenValues_behind hfront hexpected hline hseparates, hskipped,
    ← hsource, tokenValues, tokenValues, h, List.filterMap_append]
  rfl

/-! ## The same method -/

/-- The text ends in a line comment. -/
def EndsInLineComment (source : String) : Prop :=
  ∃ x, (lexemes source.toList).getLast? = some x ∧ x.is = .token .lineComment

/-- **Trivia between tokens changes nothing.**  Directly in front of any token that a signature
takes, the end of input among them, blanks, line ends and comments may be put in, and the text
declares the same method.  Only at the end of a text that ends in a line comment it matters where
the first line of what is put there ends: from there on it has to be trivia too. -/
theorem parseSignature_inserted {before after inserted : List Char}
    (h : parseSignature source = .ok m) (ht : t ∈ takenTokens (tokenize source))
    (hplace : source.toList = before ++ after) (hstart : byteWidth before = t.span.start)
    (hinserted : IsTrivia after inserted)
    (hend : t.value = .endOfInput → EndsInLineComment source →
      IsTrivia [] (fromLineEnd inserted)) :
    parseSignature (String.ofList (before ++ inserted ++ after)) = .ok m := by
  obtain ⟨xs, ys, hlexemes, hwidth, hexpected, hkind⟩ := exists_lexemes_of_taken h ht
  have hsource : source.toList = Lexeme.spell xs ++ Lexeme.spell ys := by
    rw [← spell_append, ← hlexemes, spell_lexemes]
  obtain ⟨rfl, rfl⟩ :=
    append_inj_of_byteWidth (hplace.symm.trans hsource) (hstart.trans hwidth)
  have hback : ReadsBack (xs ++ ys) := hlexemes ▸ readsBack_lexemes source.toList
  refine parseSignature_of_tokenValues h ?_
  rw [String.toList_ofList]
  by_cases hline : ∀ x, xs.getLast? = some x → x.is ≠ .token .lineComment
  · exact tokenValues_inserted hlexemes hexpected hline hinserted
  · rcases hkind with ⟨hvalue, rfl⟩ | ⟨y, zs, rfl, hy⟩
    · push Not at hline
      obtain ⟨x, hx, hcomment⟩ := hline
      obtain ⟨front, rfl⟩ := List.getLast?_eq_some_iff.mp hx
      rw [List.append_nil] at hlexemes
      have hrest := hend hvalue ⟨x, by rw [hlexemes, hx], hcomment⟩
      have hexpected' : ∀ text, .unexpected text ∉ front.filterMap Token.ofLexeme? := by
        intro text hmem
        refine hexpected text ?_
        rw [List.filterMap_append]
        exact List.mem_append_left _ hmem
      rw [show Lexeme.spell [] = [] from rfl, List.append_nil] at hsource ⊢
      rw [← hsource]
      exact tokenValues_lineComment hlexemes hexpected' hcomment hrest
    · exact absurd (hback.not_lineComment hy) hline

end

/-- A signature without results, and a comment at its end. -/
def commentedF : String := "func (d *db) F() // who"

/-- The header of that signature. -/
def headerF : List Token := [.func, .leftParen, .identifier "d", .star, .identifier "db",
  .rightParen, .identifier "F", .leftParen, .rightParen]

theorem isHeader_headerF (results : List (List Token)) :
    IsHeader ⟨"db", "F", [], results⟩ headerF :=
  @IsHeader.mk ⟨"db", "F", [], results⟩ "d" [.star] [] (.inr rfl) .nil

theorem isSignature_commentedF :
    IsSignature ⟨"db", "F", [], []⟩ ((tokenize commentedF).map (·.value)) := by
  rw [tokenize_values]
  exact .bare (isHeader_headerF []) .none (.inr rfl)

theorem parseSignature_commentedF : parseSignature commentedF = .ok ⟨"db", "F", [], []⟩ :=
  parseSignature_of_isSignature isSignature_commentedF List.prefix_rfl

theorem end_mem_takenTokens_commentedF :
    endAt (byteWidth commentedF.toList) ∈ takenTokens (tokenize commentedF) := by
  rw [takenTokens_of_isSignature isSignature_commentedF List.prefix_rfl, List.length_map,
    List.take_length, tokenize]
  exact List.mem_append_right _ List.mem_cons_self

/-- Behind that comment: the rest of its line, a comment of its own and one over two lines. -/
theorem parseSignature_inserted_commentedF :
    let inserted := "/* is */\n\t// it\r\n/* then\n */".toList
    parseSignature commentedF = .ok ⟨"db", "F", [], []⟩ ∧
      endAt (byteWidth commentedF.toList) ∈ takenTokens (tokenize commentedF) ∧
      EndsInLineComment commentedF ∧ IsTrivia [] inserted ∧ IsTrivia [] (fromLineEnd inserted) ∧
      parseSignature (String.ofList (commentedF.toList ++ inserted ++ [])) =
        .ok ⟨"db", "F", [], []⟩ := by
  intro inserted
  have hinserted : IsTrivia [] inserted := isTrivia_nil_iff.mpr rfl
  have hrest : IsTrivia [] (fromLineEnd inserted) := isTrivia_nil_iff.mpr rfl
  have hend : EndsInLineComment commentedF :=
    ⟨⟨.token .lineComment, ['/', '/', ' ', 'w', 'h', 'o']⟩, rfl, rfl⟩
  exact ⟨parseSignature_commentedF, end_mem_takenTokens_commentedF, hend, hinserted, hrest,
    parseSignature_inserted parseSignature_commentedF end_mem_takenTokens_commentedF
      (List.append_nil _).symm rfl hinserted fun _ _ => hrest⟩

/-- A comment over two lines, put behind a comment at the end of a text, can declare a result: its
first line belongs to that comment, and its second line is read. -/
theorem not_parseSignature_inserted : ¬ ∀ (source : String) (m : Method) (t : Located Token)
    (before after inserted : List Char), parseSignature source = .ok m →
      t ∈ takenTokens (tokenize source) → source.toList = before ++ after →
      byteWidth before = t.span.start → IsTrivia after inserted →
      parseSignature (String.ofList (before ++ inserted ++ after)) = .ok m := by
  intro h
  have hinserted : IsTrivia [] "/*\nerror /* */".toList := isTrivia_nil_iff.mpr rfl
  have hsame := h _ _ _ _ _ _ parseSignature_commentedF end_mem_takenTokens_commentedF
    (List.append_nil _).symm rfl hinserted
  have hresult : IsSignature ⟨"db", "F", [], [[.identifier "error"]]⟩
      (headerF ++ [.identifier "error"] ++ [.endOfInput]) :=
    .bare (isHeader_headerF _) (.some (.name "error")) (.inr rfl)
  have hother : parseSignature
      (String.ofList (commentedF.toList ++ "/*\nerror /* */".toList ++ [])) =
        .ok ⟨"db", "F", [], ["error"]⟩ := by
    refine parseSignature_of_isSignature hresult ?_
    rw [tokenize_values, String.toList_ofList]
    exact List.prefix_rfl
  rw [hother] at hsame
  cases hsame

end MethodSkeleton
