/-
# `MethodSkeleton.Proofs.Source.Reread` — reading back what was written from lexemes

A writer decides on lexemes and writes the text they spell.  That text need not be cut into
the same lexemes again: it is (`ReadsBack`) exactly if each of them stands before the text of
those behind it.

For lexemes that are set on a page, with line feeds for line breaks and blanks kept apart
(`Typeset`), only the tokens themselves can go wrong, and it shows in them: if the text has
the tokens that were written, it has the lexemes that were written
(`Typeset.readsBack_of_visible`).
-/
import MethodSkeleton.Proofs.Source.Spelling
import MethodSkeleton.Source.RawToken

namespace MethodSkeleton

/-! ## One lexeme -/

theorem lexemes_eq_cons_iff {cs : List Char} {x : Lexeme} {xs : List Lexeme} :
    lexemes cs = x :: xs ↔
      ∃ rest, cs = x.text ++ rest ∧ StandsBefore x rest ∧ lexemes rest = xs := by
  constructor
  · intro h
    cases cs with
    | nil => cases h
    | cons c cs =>
        rw [lexemes_cons] at h
        cases h
        refine ⟨cs.drop (munch c cs).2, ?_, ⟨c, cs.take (munch c cs).2, rfl, ?_⟩, rfl⟩
        · rw [List.cons_append, List.take_append_drop]
        · rw [List.take_append_drop, List.length_take, Nat.min_eq_left (munch_le c cs)]
  · rintro ⟨rest, rfl, ⟨c, tail, ht, hm⟩, rfl⟩
    rw [ht, List.cons_append, lexemes_cons, hm]
    simp only [List.take_left, List.drop_left]
    rw [← ht]

theorem StandsBefore.lexemes_eq {x : Lexeme} {rest : List Char} (h : StandsBefore x rest) :
    lexemes (x.text ++ rest) = x :: lexemes rest :=
  lexemes_eq_cons_iff.mpr ⟨rest, rfl, h, rfl⟩

/-- At a place one lexeme is found. -/
theorem StandsBefore.eq_of_append {x y : Lexeme} {u v : List Char} (hx : StandsBefore x u)
    (hy : StandsBefore y v) (h : x.text ++ u = y.text ++ v) : x = y := by
  have hlexemes := hx.lexemes_eq
  rw [h, hy.lexemes_eq] at hlexemes
  exact (List.cons.inj hlexemes).1.symm

theorem spell_cons (x : Lexeme) (xs : List Lexeme) :
    Lexeme.spell (x :: xs) = x.text ++ Lexeme.spell xs := rfl

theorem spell_append (xs ys : List Lexeme) :
    Lexeme.spell (xs ++ ys) = Lexeme.spell xs ++ Lexeme.spell ys := by
  simp [Lexeme.spell]

/-- What the lexemes spell is cut into them again. -/
def ReadsBack (xs : List Lexeme) : Prop := lexemes (Lexeme.spell xs) = xs

theorem readsBack_nil : ReadsBack [] := rfl

theorem readsBack_cons_iff {x : Lexeme} {xs : List Lexeme} :
    ReadsBack (x :: xs) ↔ StandsBefore x (Lexeme.spell xs) ∧ ReadsBack xs := by
  rw [ReadsBack, spell_cons, lexemes_eq_cons_iff]
  simp only [List.append_cancel_left_eq, exists_eq_left', ReadsBack]

theorem readsBack_lexemes (cs : List Char) : ReadsBack (lexemes cs) := by
  rw [ReadsBack, spell_lexemes]

theorem ReadsBack.of_append {xs ys : List Lexeme} (h : ReadsBack (xs ++ ys)) : ReadsBack ys := by
  induction xs with
  | nil => exact h
  | cons x xs ih => exact ih (readsBack_cons_iff.mp h).2

theorem ReadsBack.standsBefore {xs : List Lexeme} (h : ReadsBack xs) :
    ∀ x ∈ xs, ∃ rest, StandsBefore x rest := by
  induction xs with
  | nil => simp
  | cons x xs ih =>
      obtain ⟨hx, hxs⟩ := readsBack_cons_iff.mp h
      exact List.forall_mem_cons.mpr ⟨⟨_, hx⟩, ih hxs⟩

theorem ReadsBack.text_ne_nil {xs : List Lexeme} (h : ReadsBack xs) : ∀ x ∈ xs, x.text ≠ [] := by
  intro x hx
  obtain ⟨rest, c, tail, ht, _⟩ := h.standsBefore x hx
  rw [ht]
  exact List.cons_ne_nil c tail

/-! ## The tokens of a text -/

/-- The token that a lexeme is. -/
def Lexeme.token? (x : Lexeme) : Option RawToken :=
  match x.is with
  | .token kind => some ⟨kind, x.text⟩
  | _ => none

/-- A blank or a token. -/
def Lexeme.Readable (x : Lexeme) : Prop := ∀ why, x.is ≠ .fault why

/-- A token that shows on its line: any but a line break. -/
def RawToken.isVisible (t : RawToken) : Bool := t.kind != .newline

/-- The visible tokens of a text. -/
def visibleTokens (ts : List (Located RawToken)) : List RawToken :=
  (ts.map (·.value)).filter RawToken.isVisible

/-- Both texts can be read, and line breaks apart they have the same tokens, kind and text, in
the same order. -/
def SameTokens (source out : String) : Prop :=
  ∃ ts us, rawTokens source = .ok ts ∧ rawTokens out = .ok us ∧ visibleTokens us = visibleTokens ts

theorem rawTokensOf_ok_iff {position : Nat} {xs : List Lexeme} {ts : List RawToken} :
    (∃ us, rawTokensOf (Lexeme.locate position xs) = .ok us ∧ us.map (·.value) = ts) ↔
      (∀ x ∈ xs, x.Readable) ∧ xs.filterMap Lexeme.token? = ts := by
  induction xs generalizing position ts with
  | nil => simp [Lexeme.locate, rawTokensOf]
  | cons x xs ih =>
      obtain ⟨is, text⟩ := x
      simp only [Lexeme.locate, rawTokensOf, List.forall_mem_cons, List.filterMap_cons]
      cases is with
      | blank =>
          simpa [Lexeme.token?, Lexeme.Readable] using ih
      | token kind =>
          constructor
          · rintro ⟨us, h, rfl⟩
            cases hr : rawTokensOf (Lexeme.locate (position + byteWidth text) xs) with
            | error fault =>
                rw [hr] at h
                cases h
            | ok vs =>
                rw [hr] at h
                cases h
                obtain ⟨hread, hvs⟩ := ih.mp ⟨vs, hr, rfl⟩
                exact ⟨⟨fun why h => (by cases h), hread⟩, congrArg _ hvs⟩
          · rintro ⟨⟨_, hread⟩, rfl⟩
            obtain ⟨vs, hr, hvs⟩ := ih.mpr ⟨hread, rfl⟩
            refine ⟨_, by rw [hr]; rfl, ?_⟩
            exact congrArg _ hvs
      | fault why => simp [Lexeme.Readable]

/-- The tokens of a text are spellings of their kinds. -/
theorem spells_of_rawTokens {source : String} {ts : List (Located RawToken)}
    (h : rawTokens source = .ok ts) : ∀ t ∈ ts, Spells t.value.kind t.value.text := by
  obtain ⟨_, htokens⟩ := rawTokensOf_ok_iff.mp ⟨ts, h, rfl⟩
  intro t ht
  have hmem := List.mem_map_of_mem (f := (·.value)) ht
  rw [← htokens] at hmem
  obtain ⟨⟨is, text⟩, hx, htoken⟩ := List.mem_filterMap.mp hmem
  obtain ⟨rest, hstand⟩ := (readsBack_lexemes source.toList).standsBefore _ hx
  cases is with
  | blank => cases htoken
  | fault why => cases htoken
  | token kind =>
      rw [← Option.some.inj htoken]
      exact hstand.spells

/-- The visible token that a lexeme is. -/
def Lexeme.visible? (x : Lexeme) : Option RawToken := x.token?.filter RawToken.isVisible

theorem Lexeme.visible?_token {kind : Kind} {text : List Char} (h : kind ≠ .newline) :
    (⟨.token kind, text⟩ : Lexeme).visible? = some ⟨kind, text⟩ := by
  simp [visible?, token?, RawToken.isVisible, h]

theorem rawTokens_visible_iff {source : String} {ts : List RawToken} :
    (∃ us, rawTokens source = .ok us ∧ visibleTokens us = ts) ↔
      (∀ x ∈ lexemes source.toList, x.Readable) ∧
        (lexemes source.toList).filterMap Lexeme.visible? = ts := by
  have hvisible : (lexemes source.toList).filterMap Lexeme.visible? =
      ((lexemes source.toList).filterMap Lexeme.token?).filter RawToken.isVisible := by
    rw [List.filter_filterMap]
    rfl
  rw [hvisible]
  constructor
  · rintro ⟨us, h, rfl⟩
    obtain ⟨hread, hus⟩ := rawTokensOf_ok_iff.mp ⟨us, h, rfl⟩
    exact ⟨hread, by rw [hus]; rfl⟩
  · rintro ⟨hread, rfl⟩
    obtain ⟨us, h, hus⟩ := rawTokensOf_ok_iff.mpr ⟨hread, rfl⟩
    exact ⟨us, h, by rw [← hus]; rfl⟩

theorem sameTokens_of_eq {source out : String} {vs : List RawToken}
    (h : (rawTokens source).map visibleTokens = .ok vs)
    (h' : (rawTokens out).map visibleTokens = .ok vs) : SameTokens source out := by
  cases hs : rawTokens source with
  | error fault =>
      rw [hs] at h
      cases h
  | ok ts =>
      cases ho : rawTokens out with
      | error fault =>
          rw [ho] at h'
          cases h'
      | ok us =>
          rw [hs] at h
          rw [ho] at h'
          exact ⟨ts, us, hs, ho, (Except.ok.inj h').trans (Except.ok.inj h).symm⟩

/-! ## Lexemes on a page -/

/-- Lexemes as a page sets them: line feeds for line breaks, blanks where none are yet, and
tokens that begin with neither. -/
inductive Typeset : List Lexeme → Prop
  | nil : Typeset []
  | lineFeed {xs : List Lexeme} : Typeset xs → Typeset (⟨.token .newline, ['\n']⟩ :: xs)
  | blank {b : List Char} {xs : List Lexeme} : b ≠ [] → (∀ c ∈ b, isBlank c = true) →
      (Lexeme.spell xs).head?.any isBlank = false → Typeset xs → Typeset (⟨.blank, b⟩ :: xs)
  | token {kind : Kind} {c : Char} {tail : List Char} {xs : List Lexeme} : kind ≠ .newline →
      isBlank c = false → isLineEnd c = false → Typeset xs →
      Typeset (⟨.token kind, c :: tail⟩ :: xs)

theorem Typeset.readable {xs : List Lexeme} (h : Typeset xs) : ∀ x ∈ xs, x.Readable := by
  induction h with
  | nil => simp
  | lineFeed _ ih => exact List.forall_mem_cons.mpr ⟨fun why hw => (by cases hw), ih⟩
  | blank _ _ _ _ ih => exact List.forall_mem_cons.mpr ⟨fun why hw => (by cases hw), ih⟩
  | token _ _ _ _ ih => exact List.forall_mem_cons.mpr ⟨fun why hw => (by cases hw), ih⟩

theorem standsBefore_lineFeed (rest : List Char) : StandsBefore ⟨.token .newline, ['\n']⟩ rest :=
  ⟨'\n', [], rfl, rfl⟩

theorem standsBefore_blank {b rest : List Char} (hb : b ≠ []) (hall : ∀ c ∈ b, isBlank c = true)
    (hrest : rest.head?.any isBlank = false) : StandsBefore ⟨.blank, b⟩ rest := by
  obtain ⟨c, tail, rfl⟩ := List.exists_cons_of_ne_nil hb
  refine ⟨c, tail, rfl, ?_⟩
  rw [munch, if_pos (hall c List.mem_cons_self)]
  congr 1
  exact runLength_append_eq_length_iff.mpr ⟨fun d hd => hall d (List.mem_cons_of_mem c hd), hrest⟩

theorem readsBack_blank_iff {b : List Char} {xs : List Lexeme} (hb : b ≠ [])
    (hall : ∀ c ∈ b, isBlank c = true) (hxs : (Lexeme.spell xs).head?.any isBlank = false) :
    ReadsBack (⟨.blank, b⟩ :: xs) ↔ ReadsBack xs := by
  rw [readsBack_cons_iff, and_iff_right (standsBefore_blank hb hall hxs)]

/-- The first lexeme of a text that begins with no blank and no line end is a visible token, if
it can be read. -/
theorem visible?_of_standsBefore {x : Lexeme} {c : Char} {tail rest : List Char}
    (h : StandsBefore x rest) (hx : x.Readable) (ht : x.text = c :: tail)
    (hb : isBlank c = false) (hl : isLineEnd c = false) :
    ∃ kind, x.is = .token kind ∧ x.visible? = some ⟨kind, x.text⟩ := by
  obtain ⟨d, ds, hd, hm⟩ := h
  rw [ht] at hd
  cases hd
  cases his : x.is with
  | blank =>
      rw [his] at hm
      rw [isBlank_of_munch hm] at hb
      cases hb
  | fault why => exact absurd his (hx why)
  | token kind =>
      have hk : kind ≠ .newline := by
        rintro rfl
        rw [his] at hm
        rw [isLineEnd_of_munch hm] at hl
        cases hl
      obtain ⟨is, text⟩ := x
      cases his
      exact ⟨kind, rfl, Lexeme.visible?_token hk⟩

/-- So if the first visible token of the text is the one the text begins with, it is read
there. -/
theorem lexemes_eq_of_visible {kind : Kind} {c : Char} {tail rest : List Char}
    {ts : List RawToken} (hb : isBlank c = false) (hl : isLineEnd c = false)
    (hread : ∀ x ∈ lexemes (c :: tail ++ rest), x.Readable)
    (hsame : (lexemes (c :: tail ++ rest)).filterMap Lexeme.visible? = ⟨kind, c :: tail⟩ :: ts) :
    lexemes (c :: tail ++ rest) = ⟨.token kind, c :: tail⟩ :: lexemes rest := by
  cases hx : lexemes (c :: tail ++ rest) with
  | nil =>
      rw [List.cons_append, lexemes_cons] at hx
      cases hx
  | cons x ys =>
      rw [hx] at hread hsame
      obtain ⟨rest', ht, hstand, rfl⟩ := lexemes_eq_cons_iff.mp hx
      have hhead : ∃ ds, x.text = c :: ds := by
        obtain ⟨d, ds, hd, _⟩ := hstand
        rw [hd] at ht
        exact ⟨ds, by rw [hd, (List.cons.inj ht).1]⟩
      obtain ⟨ds, hd⟩ := hhead
      obtain ⟨kind', his, hvis⟩ :=
        visible?_of_standsBefore hstand (hread x List.mem_cons_self) hd hb hl
      rw [List.filterMap_cons_some hvis, List.cons.injEq, RawToken.mk.injEq] at hsame
      obtain ⟨⟨rfl, htext⟩, _⟩ := hsame
      obtain ⟨is, text⟩ := x
      cases his
      cases htext
      rw [List.append_cancel_left ht]

/-- A text that has the visible tokens of a page is the page. -/
theorem Typeset.readsBack_of_visible {xs : List Lexeme} (h : Typeset xs)
    (hread : ∀ x ∈ lexemes (Lexeme.spell xs), x.Readable)
    (hsame : (lexemes (Lexeme.spell xs)).filterMap Lexeme.visible? =
      xs.filterMap Lexeme.visible?) : ReadsBack xs := by
  unfold ReadsBack
  induction h with
  | nil => rfl
  | lineFeed h ih =>
      rw [spell_cons, (standsBefore_lineFeed _).lexemes_eq] at hread hsame ⊢
      rw [ih (fun x hx => hread x (List.mem_cons_of_mem _ hx)) hsame]
  | blank hb hall hrest h ih =>
      rw [spell_cons, (standsBefore_blank hb hall hrest).lexemes_eq] at hread hsame ⊢
      rw [ih (fun x hx => hread x (List.mem_cons_of_mem _ hx)) hsame]
  | token hk hb hl h ih =>
      rw [spell_cons] at hread hsame ⊢
      rw [List.filterMap_cons_some (Lexeme.visible?_token hk)] at hsame
      have hfirst := lexemes_eq_of_visible hb hl hread hsame
      rw [hfirst] at hread hsame ⊢
      rw [List.filterMap_cons_some (Lexeme.visible?_token hk)] at hsame
      rw [ih (fun x hx => hread x (List.mem_cons_of_mem _ hx)) (List.cons.inj hsame).2]

end MethodSkeleton
