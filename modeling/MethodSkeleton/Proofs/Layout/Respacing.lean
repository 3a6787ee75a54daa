/-
# `MethodSkeleton.Proofs.Layout.Respacing` — spacing a line that is already spaced

The spacing rules read blanks of the source: the one in front of a token, and for an operator
the one behind it.  On a line that the rules have spaced themselves these are the spaces they
wrote.  `arrangeWords_reread` says that the rules then decide everything as before.

What is remembered of the tokens need not be the same in both runs.  An operator behind an
operand may have been taken for a binary one at first and for a unary one when it is read
again, or the other way round; but this makes a difference only for the space behind it, and
there the second reading follows what was written.  That is the invariant of the two runs
(`Resumes`): what is remembered agrees up to `unary`, and where it does not, the operator now
counts as unary exactly if nothing was written behind it.

The brackets of the source must nest: a parenthesis that closes the bracket of a type would be
an operand and the end of a type at once.
-/
import MethodSkeleton.Proofs.Layout.Setting
import MethodSkeleton.Proofs.Layout.Nesting

namespace MethodSkeleton

/-! ## One space -/

/-- What holds of everything that is remembered of a token, as long as brackets nest. -/
structure Written.Coherent (w : Written) : Prop where
  unary : w.unary = true → w.kind = .bang ∨ w.kind.hasUnaryForm = true
  closesType : w.closesType = true → w.kind = .rightBracket

/-- An operand draws nothing near as an operator or as the end of a type would. -/
theorem Written.Coherent.of_isOperand {w : Written} (h : w.Coherent) (ho : w.isOperand = true) :
    w.unary = false ∧ w.closesType = false ∧ w.kind ≠ .blockComment ∧
      w.kind.clingsRight = false ∧ w.kind ≠ .comma ∧ w.kind ≠ .semicolon ∧ w.kind ≠ .colon ∧
      w.kind ≠ .leftBrace := by
  have hkind : w.kind ∈ [.identifier, .number, .string, .rawString, .rune, .rightParen,
      .rightBrace, .rightBracket] := by
    revert ho
    unfold isOperand
    cases w.kind <;> simp
  refine ⟨?_, ?_, ?_⟩
  · have hne : w.kind ≠ .bang ∧ w.kind.hasUnaryForm = false := by
      revert hkind
      cases w.kind <;> decide
    rw [← Bool.not_eq_true]
    intro hu
    rcases h.unary hu with hk | hk
    · exact hne.1 hk
    · rw [hne.2] at hk
      cases hk
  · rw [← Bool.not_eq_true]
    intro hc
    rw [isOperand, h.closesType hc, hc] at ho
    cases ho
  · revert hkind
    cases w.kind <;> decide

theorem ite_mono {P : Prop} [Decidable P] {a a' b b' : Bool} (ha : a = true → a' = true)
    (hb : b = true → b' = true) :
    (if P then a else b) = true → (if P then a' else b') = true := by
  split
  · exact ha
  · exact hb

/-- The same token with a blank in front of it, or without. -/
def Piece.setBlank (p : Piece) (b : Bool) : Piece := { p with blankBefore := b }

section mono

variable {traits : LineTraits} {openings : Openings} {w : Written} {p : Piece}
  {next : Option Kind}

theorem spaceBeforeParen_mono : spaceBeforeParen traits w (p.setBlank false) = true →
    spaceBeforeParen traits w (p.setBlank true) = true :=
  ite_mono id <| ite_mono id <| ite_mono id <| ite_mono (fun _ => rfl) id

theorem spaceBeforeBracket_mono : spaceBeforeBracket w (p.setBlank false) next = true →
    spaceBeforeBracket w (p.setBlank true) next = true :=
  ite_mono id <| ite_mono (fun _ => rfl) id

theorem spaceBeforeBrace_mono : spaceBeforeBrace traits w (p.setBlank false) next = true →
    spaceBeforeBrace traits w (p.setBlank true) next = true := by
  refine ite_mono id <| ite_mono id <| ite_mono id <| ite_mono ?_ id
  show ((traits.control || traits.function) && false) = true → _
  simp

theorem spaceBeforeClosingBrace_mono :
    spaceBeforeClosingBrace openings (p.setBlank false) = true →
      spaceBeforeClosingBrace openings (p.setBlank true) = true := by
  unfold spaceBeforeClosingBrace
  split
  · exact id
  · exact fun _ => rfl
  · exact id

/-- A blank in front of a token takes no space away. -/
theorem spaceBetween_mono : spaceBetween traits openings w (p.setBlank false) next = true →
    spaceBetween traits openings w (p.setBlank true) next = true :=
  ite_mono id <| ite_mono id <| ite_mono id <| ite_mono id <| ite_mono id <| ite_mono id <|
    ite_mono (fun _ => rfl) <| ite_mono spaceBeforeParen_mono <|
      ite_mono spaceBeforeBracket_mono <| ite_mono spaceBeforeBrace_mono <| ite_mono id <|
        ite_mono spaceBeforeClosingBrace_mono id

end mono

/-- A space that is decided by the blank in front is decided the same way by itself. -/
theorem spaceBetween_again {traits : LineTraits} {openings : Openings} {w : Written} {p : Piece}
    {next : Option Kind} : spaceBetween traits openings w
      (p.setBlank (spaceBetween traits openings w p next)) next =
        spaceBetween traits openings w p next := by
  have hmono := @spaceBetween_mono traits openings w p next
  have hp : spaceBetween traits openings w p next =
      spaceBetween traits openings w (p.setBlank p.blankBefore) next := rfl
  cases hb : p.blankBefore with
  | false =>
      rw [hb] at hp
      cases hs : spaceBetween traits openings w p next with
      | false => exact hp.symm.trans hs
      | true => exact hmono (hp.symm.trans hs)
  | true =>
      rw [hb] at hp
      cases hs : spaceBetween traits openings w p next with
      | false =>
          rw [← Bool.not_eq_true]
          intro h
          rw [← hp, hs] at hmono
          cases hmono h
      | true => exact hp.symm.trans hs

/-- Behind an operator that counts as unary only a comment is set off. -/
theorem spaceBetween_behind_operator {traits : LineTraits} {openings : Openings} {w : Written}
    {p : Piece} {next : Option Kind} (hw : w.kind.hasUnaryForm = true) (hu : w.unary = true) :
    spaceBetween traits openings w p next = p.kind.isComment := by
  have hkind : w.kind ≠ .blockComment ∧ w.kind.clingsRight = false ∧ w.kind ≠ .comma ∧
      w.kind ≠ .semicolon ∧ w.kind ≠ .colon := by
    revert hw
    cases w.kind <;> decide
  cases hc : p.kind.isComment <;> simp [spaceBetween, hkind, hu, hc]

/-- An operator behind an operand is set off from it. -/
theorem spaceBetween_operator {traits : LineTraits} {openings : Openings} {w : Written}
    {p : Piece} {next : Option Kind} (h : w.Coherent) (ho : w.isOperand = true)
    (hp : p.kind.hasUnaryForm = true) : spaceBetween traits openings w p next = true := by
  have hkind : p.kind.isComment = false ∧ p.kind.clingsLeft = false ∧ p.kind ≠ .ellipsis ∧
      p.kind ≠ .leftParen ∧ p.kind ≠ .leftBracket ∧ p.kind ≠ .leftBrace ∧
      p.kind ≠ .rightBrace := by
    revert hp
    cases p.kind <;> decide
  obtain ⟨hu, hc, hbc, hr, hco, hs, hcl, hlb⟩ := h.of_isOperand ho
  simp [spaceBetween, hkind, hu, hc, hbc, hr, hco, hs, hcl, hlb]

/-- An opening bracket behind an operand is set off from it exactly if it begins a type. -/
theorem spaceBetween_leftBracket {traits : LineTraits} {openings : Openings} {w : Written}
    {p : Piece} {next : Option Kind} (h : w.Coherent) (ho : w.isOperand = true)
    (hp : p.kind = .leftBracket) :
    spaceBetween traits openings w p next = (p.blankBefore || next == some .rightBracket) := by
  have hmap : w.isWord "map" = false := by
    rw [← Bool.not_eq_true]
    intro hw
    have hw : w.kind = .identifier ∧ w.text = "map".toList := by simpa [Written.isWord] using hw
    rw [Written.isOperand, hw.1] at ho
    have hreserved : w.isReserved = true := by
      rw [Written.isReserved, hw.1, hw.2]
      decide
    rw [hreserved] at ho
    cases ho
  obtain ⟨hu, hc, hbc, hr, hco, hs, hcl, hlb⟩ := h.of_isOperand ho
  simp [spaceBetween, spaceBeforeBracket, hp, Kind.isComment, Kind.clingsLeft, hu, hc, hbc, hr,
    hco, hs, hcl, hmap, ho]

/-! ## Brackets -/

/-- The pair that a delimiter of this role belongs to. -/
def Role.bracket : Role → Bracket
  | .paren => .round
  | .index | .typeBracket => .square
  | .block | .composite => .curly

/-- The pairs that are open, the innermost first. -/
def Openings.brackets (o : Openings) : List Bracket :=
  (o.inner ++ o.outer).map (·.role.bracket)

/-- While `brackets` are open, no token of `kinds` closes what is not there. -/
def Balances (brackets : List Bracket) (kinds : List Kind) : Prop :=
  ∃ opened ts final, opened.map (·.value) = brackets ∧
    ts.map (·.value) = kinds.filter (fun kind => !kind.isComment) ∧
    openAfter? opened ts = some final

/-- One token, by what it does. -/
inductive BalancesBehind (brackets : List Bracket) (kind : Kind) (kinds : List Kind) : Prop
  | opens {b : Bracket} : kind.opens? = some b → Balances (b :: brackets) kinds →
      BalancesBehind brackets kind kinds
  | closes {b : Bracket} {outer : List Bracket} : kind.closes? = some b → brackets = b :: outer →
      Balances outer kinds → BalancesBehind brackets kind kinds
  | other : kind.opens? = none → kind.closes? = none → Balances brackets kinds →
      BalancesBehind brackets kind kinds

theorem Balances.behind {brackets : List Bracket} {kind : Kind} {kinds : List Kind}
    (h : Balances brackets (kind :: kinds)) : BalancesBehind brackets kind kinds := by
  obtain ⟨opened, ts, final, rfl, hts, hrun⟩ := h
  by_cases hc : kind.isComment = true
  · have hnone : kind.opens? = none ∧ kind.closes? = none := by
      revert hc
      cases kind <;> decide
    rw [List.filter_cons_of_neg (by simp [hc])] at hts
    exact .other hnone.1 hnone.2 ⟨opened, ts, final, rfl, hts, hrun⟩
  · rw [List.filter_cons_of_pos (by simpa using hc)] at hts
    obtain ⟨t, us, rfl, rfl, hus⟩ := List.map_eq_cons_iff.mp hts
    obtain ⟨opened', ht, hrest⟩ := Option.bind_eq_some_iff.mp hrun
    cases ho : t.value.opens? with
    | some b =>
        rw [openBehind?_of_opens? ho] at ht
        cases ht
        exact .opens ho ⟨_, us, final, rfl, hus, hrest⟩
    | none =>
        cases hb : t.value.closes? with
        | none =>
            rw [openBehind?_of_other ho hb] at ht
            cases ht
            exact .other ho hb ⟨_, us, final, rfl, hus, hrest⟩
        | some b =>
            obtain ⟨o, rfl, rfl⟩ := (openBehind?_of_closes?_iff hb).mp ht
            exact .closes hb rfl ⟨_, us, final, rfl, hus, hrest⟩

theorem roleOf_bracket {prev : Option Written} {p : Piece} {spaced : Bool} {next : Option Kind}
    {b : Bracket} (h : p.kind.opens? = some b) : (roleOf prev p spaced next).bracket = b := by
  unfold roleOf
  cases hk : p.kind <;> rw [hk] at h <;> cases h
  · rfl
  · simp only
    split <;> rfl
  · simp only
    split <;> rfl

theorem Openings.brackets_push (o : Openings) (role : Role) :
    (o.push role).brackets = role.bracket :: o.brackets := rfl

theorem Openings.brackets_pop (o : Openings) : o.pop.brackets = o.brackets.tail := by
  obtain ⟨outer, inner⟩ := o
  cases inner with
  | nil => cases outer <;> rfl
  | cons _ inner => rfl

theorem Openings.brackets_endLine (o : Openings) :
    o.endLine.map (·.role.bracket) = o.brackets := by
  obtain ⟨outer, inner⟩ := o
  cases inner <;> rfl

theorem isUnary_kind {prev : Option Written} {p : Piece} (h : isUnary prev p = true) :
    p.kind = .bang ∨ p.kind.hasUnaryForm = true := by
  unfold isUnary at h
  split at h
  · exact .inl ‹_›
  split at h
  · exact .inr ‹_›
  · cases h

/-- As long as brackets nest, what is remembered of a token is coherent. -/
theorem Balances.coherent {openings : Openings} {p : Piece} {kinds : List Kind}
    (h : Balances openings.brackets (p.kind :: kinds)) (prev : Option Written) (spaced : Bool) :
    (writtenAs openings prev p spaced).Coherent where
  unary := isUnary_kind
  closesType := by
    intro hc
    obtain ⟨hcloses, htype⟩ : p.kind.closes?.isSome = true ∧
        openings.innermost?.any (·.role == .typeBracket) = true := by
      simpa [writtenAs] using hc
    show p.kind = .rightBracket
    cases h.behind with
    | opens ho =>
        have hne : p.kind.closes? = none := by
          revert ho
          cases p.kind <;> simp [Kind.opens?, Kind.closes?]
        rw [hne] at hcloses
        cases hcloses
    | @closes b outer hb hbrackets =>
        obtain ⟨o, ho, hrole⟩ := Option.any_eq_true _ _ |>.mp htype
        obtain ⟨rest, hopen⟩ := List.head?_eq_some_iff.mp ho
        rw [Openings.brackets, hopen, List.map_cons, eq_of_beq hrole] at hbrackets
        cases hbrackets
        revert hb
        cases p.kind <;> simp [Kind.closes?, Role.bracket]
    | other _ hnone =>
        rw [hnone] at hcloses
        cases hcloses

/-- And the pairs that are open keep being closed. -/
theorem Balances.openingsBehind {openings : Openings} {p : Piece} {kinds : List Kind}
    (h : Balances openings.brackets (p.kind :: kinds)) (prev : Option Written) (spaced : Bool)
    (next : Option Kind) :
    Balances (openingsBehind openings prev p spaced next).brackets kinds := by
  cases h.behind with
  | opens ho hb =>
      rw [MethodSkeleton.openingsBehind, ho, Option.isSome_some, if_pos rfl, Openings.brackets_push,
        roleOf_bracket ho]
      exact hb
  | closes hc hbrackets hb =>
      rw [MethodSkeleton.openingsBehind, opens?_eq_none_of_closes? hc, hc]
      show Balances openings.pop.brackets kinds
      rw [Openings.brackets_pop, hbrackets]
      exact hb
  | other ho hc hb =>
      rw [MethodSkeleton.openingsBehind, ho, hc]
      exact hb

/-! ## Two runs -/

/-- What is remembered of the token in front, when a line is spaced and when it is spaced again:
all but `unary` is the same, and if that differs, then an operator now counts as unary exactly if
nothing is written behind it.  `spaced` tells whether a space is. -/
inductive Resumes (spaced : Bool) : Option Written → Option Written → Prop
  | start : Resumes spaced none none
  | behind {w w' : Written} : w.Coherent → w' = { w with unary := w'.unary } →
      (w'.unary = w.unary ∨ w.kind.hasUnaryForm = true ∧ w'.unary = !spaced) →
      Resumes spaced (some w) (some w')

/-- The token `p` as it is read again: blanks next to it are spaces that were written. -/
def Piece.respaced (p : Piece) (before after : Bool) : Piece := ⟨p.kind, p.text, before, after⟩

variable {traits : LineTraits} {openings : Openings} {prev prev' : Option Written} {p : Piece}
  {next : Option Kind} {before : Bool}

theorem spaceBetween_of_comment {w : Written} (h : p.kind.isComment = true) :
    spaceBetween traits openings w p next = true := by
  simp [spaceBetween, h]

theorem isOperand_congr {w w' : Written} (h : w' = { w with unary := w'.unary }) :
    w'.isOperand = w.isOperand := by
  rw [h]
  rfl

/-- The space in front of a token is decided as before. -/
theorem Resumes.spaceBefore_eq (h : Resumes before prev prev')
    (hb : prev.isSome = true → before = spaceBefore traits openings prev p next) (after : Bool) :
    spaceBefore traits openings prev' (p.respaced before after) next =
      spaceBefore traits openings prev p next := by
  cases h with
  | start => rfl
  | @behind w w' hw hsame hu =>
      have hb : before = spaceBetween traits openings w p next := hb rfl
      have hagain : spaceBetween traits openings w (p.respaced before after) next = before := by
        rw [hb]
        exact spaceBetween_again
      show spaceBetween traits openings w' _ next = spaceBetween traits openings w p next
      rw [← hb]
      by_cases heq : w'.unary = w.unary
      · rw [hsame, heq]
        exact hagain
      · obtain ⟨hop, hu⟩ := hu.resolve_left heq
        have hop' : w'.kind.hasUnaryForm = true := by
          rw [hsame]
          exact hop
        cases before with
        | true =>
            -- it counted as unary before, so only a comment was set off
            have hwu : w.unary = true := by
              rw [hu] at heq
              simpa using heq
            rw [spaceBetween_behind_operator hop hwu] at hb
            exact spaceBetween_of_comment hb.symm
        | false =>
            rw [spaceBetween_behind_operator hop' hu]
            show p.kind.isComment = false
            rw [← Bool.not_eq_true]
            intro hc
            rw [spaceBetween_of_comment hc] at hb
            cases hb

/-- So is the role of a delimiter. -/
theorem Resumes.roleOf_eq (h : Resumes before prev prev')
    (hb : prev.isSome = true → before = spaceBefore traits openings prev p next)
    (after spaced : Bool) :
    roleOf prev' (p.respaced before after) spaced next = roleOf prev p spaced next := by
  cases h with
  | start => rfl
  | @behind w w' hw hsame hu =>
      have htype : p.kind = .leftBracket →
          beginsType (some w') (p.respaced before after) next = beginsType (some w) p next := by
        intro hk
        simp only [beginsType, isOperand_congr hsame, Piece.respaced]
        split
        · rename_i ho
          have hb : before = spaceBetween traits openings w p next := hb rfl
          rw [hb, spaceBetween_leftBracket hw ho hk, Bool.or_assoc, Bool.or_self]
        · rfl
      have hkind : (p.respaced before after).kind = p.kind := rfl
      simp only [roleOf, hkind]
      cases hk : p.kind with
      | leftBracket => simp only [htype hk]
      | _ => rfl

/-- What is remembered of a token is as before, but that an operator behind an operand now
counts as unary exactly if nothing is written behind it. -/
theorem Resumes.writtenAs_eq (h : Resumes before prev prev')
    (hb : prev.isSome = true → before = spaceBefore traits openings prev p next)
    (after spaced : Bool) (hp : (writtenAs openings prev p spaced).Coherent) :
    Resumes after (some (writtenAs openings prev p spaced))
      (some (writtenAs openings prev' (p.respaced before after) spaced)) := by
  cases h with
  | start => exact .behind hp rfl (.inl rfl)
  | @behind w w' hw hsame hu =>
      refine .behind hp rfl ?_
      show isUnary (some w') (p.respaced before after) = isUnary (some w) p ∨
        p.kind.hasUnaryForm = true ∧ isUnary (some w') (p.respaced before after) = !after
      simp only [isUnary, isOperand_congr hsame, Piece.respaced]
      by_cases hk : p.kind.hasUnaryForm = true
      · by_cases ho : w.isOperand = true
        · have hb : before = true := (hb rfl).trans (spaceBetween_operator hw ho hk)
          have hbang : p.kind ≠ .bang := by
            revert hk
            cases p.kind <;> decide
          simp [hk, ho, hb, hbang]
        · simp [ho]
      · simp [hk]

theorem Resumes.openingsBehind_eq (h : Resumes before prev prev')
    (hb : prev.isSome = true → before = spaceBefore traits openings prev p next)
    (after spaced : Bool) :
    openingsBehind openings prev' (p.respaced before after) spaced next =
      openingsBehind openings prev p spaced next := by
  rw [openingsBehind, openingsBehind, h.roleOf_eq hb]
  rfl

/-! ## Lines and rows -/

/-- The tokens of a row as they are read again, behind a blank or not. -/
def reread (before : Bool) : List SetPiece → List Piece
  | [] => []
  | x :: xs =>
    let after := xs.head?.all (·.spaced)
    x.piece.respaced before after :: reread after xs

theorem reread_map_token (before : Bool) (xs : List SetPiece) :
    (reread before xs).map Piece.token = (xs.map (·.piece)).map Piece.token := by
  induction xs generalizing before with
  | nil => rfl
  | cons x xs ih =>
      rw [reread, List.map_cons, ih]
      rfl

theorem reread_head_kind (before : Bool) (openings : Openings) (prev : Option Written)
    (ps : List Piece) : (reread before (setPieces traits openings prev ps)).head?.map (·.kind) =
      ps.head?.map (·.kind) := by
  cases ps <;> rfl

/-- A line that is spaced already is spaced the same way, and leaves the same open. -/
theorem arrangeWords_reread {ps : List Piece} {kinds : List Kind}
    (h : Balances openings.brackets (ps.map (·.kind) ++ kinds)) (hprev : Resumes before prev prev')
    (hb : prev.isSome = true →
      (setPieces traits openings prev ps).head?.all (before == ·.spaced) = true) :
    arrangeWords traits openings prev' (reread before (setPieces traits openings prev ps)) =
      arrangeWords traits openings prev ps := by
  induction ps generalizing openings prev prev' before with
  | nil => rfl
  | cons p ps ih =>
      let next := ps.head?.map (·.kind)
      let spaced := spaceBefore traits openings prev p next
      let rest := setPieces traits (openingsBehind openings prev p spaced next)
        (some (writtenAs openings prev p spaced)) ps
      let after := rest.head?.all (·.spaced)
      have hbefore : prev.isSome = true → before = spaced := fun hp => eq_of_beq (hb hp)
      have hnext : (reread after rest).head?.map (·.kind) = next := reread_head_kind _ _ _ ps
      have hspaced := hprev.spaceBefore_eq hbefore after
      have hopenings := hprev.openingsBehind_eq hbefore after spaced
      have hwritten := hprev.writtenAs_eq hbefore after spaced (h.coherent prev spaced)
      have hafter : rest.head?.all (after == ·.spaced) = true := by
        show rest.head?.all (rest.head?.all (·.spaced) == ·.spaced) = true
        cases rest.head? <;> simp
      have hrest := ih (h.openingsBehind prev spaced next) hwritten fun _ => hafter
      show arrangeWords traits openings prev' (p.respaced before after :: reread after rest) = _
      simp only [arrangeWords, hnext, hspaced]
      rw [hopenings, hrest]
      rfl

theorem LineTraits.ofLine_congr {line line' : List Piece}
    (h : line'.map Piece.token = line.map Piece.token) : ofLine line' = ofLine line := by
  have hany : ∀ (ws : List String) (l : List Piece), l.any (·.isOneOf ws) =
      (l.map Piece.token).any fun t =>
        ws.any fun w => t.kind == .identifier && t.text == w.toList := by
    intro ws l
    rw [List.any_map]
    rfl
  have hhead : ∀ (w : String) (l : List Piece), l.head?.map (·.isWord w) =
      (l.map Piece.token).head?.map fun t => t.kind == .identifier && t.text == w.toList := by
    intro w l
    cases l <;> rfl
  rw [ofLine, ofLine, hany, hany, hhead, hhead, h]

theorem rowDepth_congr {openings : List Opening} {line line' : List Piece}
    (h : line'.map Piece.token = line.map Piece.token) :
    rowDepth openings line' = rowDepth openings line := by
  have hclosers : ∀ l : List Piece, leadingClosers l =
      ((l.map Piece.token).takeWhile (·.kind.closes?.isSome)).length := by
    intro l
    rw [List.takeWhile_map, List.length_map]
    rfl
  have hlabel : ∀ l : List Piece, beginsWithLabel l =
      (((l.map Piece.token).head?.map fun t => ["case", "default"].any fun w =>
        t.kind == .identifier && t.text == w.toList).getD false) := by
    intro l
    cases l <;> rfl
  rw [rowDepth, rowDepth, hclosers, hclosers, hlabel, hlabel, h]

/-- A row that is arranged again is the same, and leaves the same open. -/
theorem arrangeRow_reread {openings : List Opening} {line : List Piece} {kinds : List Kind}
    (h : Balances (openings.map (·.role.bracket)) (line.map (·.kind) ++ kinds)) (before : Bool) :
    arrangeRow openings (reread before (setLine openings line)) = arrangeRow openings line := by
  have htoken : (reread before (setLine openings line)).map Piece.token = line.map Piece.token := by
    rw [reread_map_token, setLine, setPieces_map_piece]
  have hwords : arrangeWords (.ofLine line) ⟨openings, []⟩ none
      (reread before (setLine openings line)) = _ :=
    arrangeWords_reread h .start fun hp => by cases hp
  rw [arrangeRow, LineTraits.ofLine_congr htoken, rowDepth_congr htoken, hwords]
  rfl

/-- What a line leaves open keeps being closed. -/
theorem Balances.arrangeWords {ps : List Piece} {kinds : List Kind}
    (h : Balances openings.brackets (ps.map (·.kind) ++ kinds)) :
    Balances (MethodSkeleton.arrangeWords traits openings prev ps).2.brackets kinds := by
  induction ps generalizing openings prev with
  | nil => exact h
  | cons p ps ih => exact ih (h.openingsBehind prev _ _)

end MethodSkeleton
