/-
# `MethodSkeleton.Proofs.Builtin.Pieces` — how types and lists are set

The parts that the built-in templates write at any length are types and lists with commas.
Here they are as tokens, each with the space in front of it, and of each is said what it
spells, that its tokens can be read, and that the layout sets it so.

For the last a part is walked from every place where it may stand.  Which places these are is
said by what was written last: a type may begin behind a name, a comma or a closed list with a
space, and without one behind an opening parenthesis or another mark (`TakesType`).  This is
the whole invariant, since a mark of a type leaves a place where a type may begin, and a list
is walked from element to element (`Spot.walk_commaList`).
-/
import MethodSkeleton.Proofs.Builtin.Declaration
import MethodSkeleton.Proofs.Layout.Canonical

namespace MethodSkeleton

/-! ## Tokens as they are written -/

namespace SetPiece

/-- A token with a space in front of it, or without one; behind it the source has none. -/
def of (spaced : Bool) (kind : Kind) (text : List Char) : SetPiece :=
  ⟨spaced, ⟨kind, text, spaced, false⟩⟩

def ofWord (spaced : Bool) (x : String) : SetPiece := of spaced .identifier x.toList

/-- Words with points between them. -/
def ofWords (spaced : Bool) : List String → List SetPiece
  | [] => []
  | x :: xs => ofWord spaced x :: xs.flatMap fun y => [of false .dot ['.'], ofWord false y]

/-- A list with commas. -/
def commaList {α : Type} (pieces : Bool → α → List SetPiece) : List α → List SetPiece
  | [] => []
  | a :: as => pieces false a ++ as.flatMap fun b => of false .comma [','] :: pieces true b

/-- The text of tokens. -/
def textOf (xs : List SetPiece) : List Char := xs.flatMap (·.word.render)

/-- The space in front of a token. -/
def gap (spaced : Bool) : List Char := if spaced then [' '] else []

@[simp] theorem textOf_nil : textOf [] = [] := rfl

@[simp] theorem textOf_cons (spaced : Bool) (kind : Kind) (text : List Char)
    (xs : List SetPiece) :
    textOf (of spaced kind text :: xs) = gap spaced ++ (text ++ textOf xs) := by
  cases spaced <;> rfl

@[simp] theorem textOf_append (xs ys : List SetPiece) :
    textOf (xs ++ ys) = textOf xs ++ textOf ys := List.flatMap_append

end SetPiece

open SetPiece (of ofWord ofWords commaList textOf gap)

namespace PlainType

def pieces : Bool → PlainType → List SetPiece
  | spaced, words first more => ofWords spaced (first :: more)
  | spaced, pointer t => of spaced .star ['*'] :: t.pieces false
  | spaced, slice t =>
    of spaced .leftBracket ['['] :: of false .rightBracket [']'] :: t.pieces false

end PlainType

/-- The type of a parameter stands behind its name. -/
def ParameterType.pieces (t : ParameterType) : List SetPiece :=
  if t.spread then of true .ellipsis ['.', '.', '.'] :: t.type.pieces false else t.type.pieces true

def NamedParameter.pieces (spaced : Bool) (p : NamedParameter) : List SetPiece :=
  ofWord spaced p.name :: p.type.pieces

/-- A parameter that is passed on, found behind the words `front`. -/
def NamedParameter.argument (front : List String) (spaced : Bool) (p : NamedParameter) :
    List SetPiece :=
  ofWords spaced (front ++ [p.name]) ++
    if p.type.spread then [of false .ellipsis ['.', '.', '.']] else []

/-! ## Texts -/

/-- Behind the first element every element has a comma in front of it. -/
theorem join_listed_cons {α : Type} (text : α → String) (a : α) (as : List α) :
    String.join ((a :: as).mapIdx fun i b => listed i (text b)) =
      text a ++ String.join (as.map fun b => ", " ++ text b) := by
  have htail : (as.mapIdx fun i b => listed (i + 1) (text b)) = as.map fun b => ", " ++ text b := by
    refine List.ext_getElem (by simp) ?_
    intro i _ _
    simp [listed]
  rw [List.mapIdx_cons, htail, String.join_cons]
  rfl

namespace SetPiece

theorem textOf_ofWords (spaced : Bool) (x : String) (xs : List String) :
    textOf (ofWords spaced (x :: xs)) =
      gap spaced ++ (x.toList ++ xs.flatMap fun y => '.' :: y.toList) := by
  rw [ofWords, ofWord, textOf_cons]
  congr 2
  induction xs with
  | nil => rfl
  | cons y ys ih =>
      rw [List.flatMap_cons, textOf_append, ih, List.flatMap_cons]
      simp [ofWord, gap]

/-- The text of a list, from the texts of its elements. -/
theorem textOf_commaList {α : Type} {pieces : Bool → α → List SetPiece} {text : α → String}
    {as : List α}
    (h : ∀ a ∈ as, ∀ spaced, textOf (pieces spaced a) = gap spaced ++ (text a).toList) :
    textOf (commaList pieces as) =
      (String.join (as.mapIdx fun i a => listed i (text a))).toList := by
  cases as with
  | nil => rfl
  | cons a as =>
      obtain ⟨ha, has⟩ := List.forall_mem_cons.mp h
      rw [join_listed_cons, String.toList_append, commaList, textOf_append, ha]
      congr 1
      induction as with
      | nil => rfl
      | cons b bs ih =>
          obtain ⟨hb, hbs⟩ := List.forall_mem_cons.mp has
          have hrest := ih (List.forall_mem_cons.mpr ⟨ha, hbs⟩) hbs
          rw [List.flatMap_cons, textOf_append, hrest, textOf_cons, hb]
          simp [gap]

end SetPiece

theorem PlainType.textOf_pieces (t : PlainType) (spaced : Bool) :
    textOf (t.pieces spaced) = gap spaced ++ t.text.toList := by
  induction t generalizing spaced with
  | words first more => rw [pieces, SetPiece.textOf_ofWords, toList_text_words]
  | pointer t ih =>
      rw [pieces, SetPiece.textOf_cons, ih, text, String.toList_append]
      rfl
  | slice t ih =>
      rw [pieces, SetPiece.textOf_cons, SetPiece.textOf_cons, ih, text, String.toList_append]
      rfl

theorem ParameterType.textOf_pieces (t : ParameterType) :
    textOf t.pieces = ' ' :: t.text.toList := by
  rw [pieces, text]
  cases t.spread with
  | false => exact t.type.textOf_pieces true
  | true =>
      rw [if_pos rfl, if_pos rfl, SetPiece.textOf_cons, PlainType.textOf_pieces,
        String.toList_append]
      rfl

theorem NamedParameter.textOf_pieces (p : NamedParameter) (spaced : Bool) :
    textOf (p.pieces spaced) = gap spaced ++ (p.name ++ " " ++ p.type.text).toList := by
  rw [pieces, ofWord, SetPiece.textOf_cons, ParameterType.textOf_pieces]
  simp

theorem NamedParameter.textOf_argument (front : List String) (p : NamedParameter) (spaced : Bool) :
    textOf (p.argument front spaced) = gap spaced ++
      (String.join (front.map (· ++ ".")) ++ p.name ++
        if p.type.spread then "..." else "").toList := by
  have hwords : textOf (ofWords spaced (front ++ [p.name])) =
      gap spaced ++ (String.join (front.map (· ++ ".")) ++ p.name).toList := by
    cases front with
    | nil => simpa using SetPiece.textOf_ofWords spaced p.name []
    | cons x xs =>
        rw [List.cons_append, SetPiece.textOf_ofWords]
        congr 1
        induction xs generalizing x with
        | nil => simp
        | cons y ys ih =>
            have hrest := ih y
            rw [List.cons_append, List.flatMap_cons, List.cons_append, hrest]
            simp
  rw [argument, SetPiece.textOf_append, hwords]
  cases p.type.spread <;> simp [gap]

/-! ## Tokens that can be read -/

/-- A token that can be read, and behind which its line may go on. -/
structure SetPiece.Stands (x : SetPiece) : Prop where
  isToken : x.piece.IsToken
  goesOn : x.piece.kind ≠ .lineComment

namespace SetPiece

theorem stands_of_mem {spaced : Bool} {kind : Kind} {text : List Char}
    (h : (text, kind) ∈ punctuation) : (of spaced kind text).Stands := by
  have hall : (punctuation.all fun e => e.2 != .newline && e.2 != .lineComment) = true := by decide
  have hkind := List.all_eq_true.mp hall _ h
  simp only [Bool.and_eq_true, bne_iff_ne, ne_eq] at hkind
  exact ⟨⟨hkind.1, .fixed h⟩, hkind.2⟩

theorem stands_ofWord {spaced : Bool} {x : String} (h : IsIdentifier x) :
    (ofWord spaced x).Stands :=
  ⟨⟨Kind.noConfusion, h⟩, Kind.noConfusion⟩

theorem stands_ofWords {spaced : Bool} {xs : List String} (h : ∀ x ∈ xs, IsIdentifier x) :
    ∀ x ∈ ofWords spaced xs, x.Stands := by
  cases xs with
  | nil => simp [ofWords]
  | cons x xs =>
      obtain ⟨hx, hxs⟩ := List.forall_mem_cons.mp h
      refine List.forall_mem_cons.mpr ⟨stands_ofWord hx, ?_⟩
      rw [List.forall_mem_flatMap]
      intro y hy
      exact List.forall_mem_cons.mpr ⟨stands_of_mem (by decide),
        List.forall_mem_singleton.mpr (stands_ofWord (hxs y hy))⟩

theorem stands_commaList {α : Type} {pieces : Bool → α → List SetPiece} {as : List α}
    (h : ∀ a ∈ as, ∀ spaced, ∀ x ∈ pieces spaced a, x.Stands) :
    ∀ x ∈ commaList pieces as, x.Stands := by
  cases as with
  | nil => simp [commaList]
  | cons a as =>
      obtain ⟨ha, has⟩ := List.forall_mem_cons.mp h
      refine List.forall_mem_append.mpr ⟨ha false, ?_⟩
      rw [List.forall_mem_flatMap]
      intro b hb
      exact List.forall_mem_cons.mpr ⟨stands_of_mem (by decide), has b hb true⟩

theorem legible_of_stands {xs : List SetPiece} (h : ∀ x ∈ xs, x.Stands) :
    Legible (xs.map (·.piece)) := by
  induction xs with
  | nil => exact .nil
  | cons x xs ih =>
      obtain ⟨hx, hxs⟩ := List.forall_mem_cons.mp h
      exact .cons hx.isToken hx.goesOn (ih hxs)

end SetPiece

theorem PlainType.stands_pieces {t : PlainType} (h : t.Over IsIdentifier) (spaced : Bool) :
    ∀ x ∈ t.pieces spaced, x.Stands := by
  induction t generalizing spaced with
  | words first more =>
      exact SetPiece.stands_ofWords (List.forall_mem_cons.mpr h)
  | pointer t ih =>
      exact List.forall_mem_cons.mpr ⟨SetPiece.stands_of_mem (by decide), ih h false⟩
  | slice t ih =>
      exact List.forall_mem_cons.mpr ⟨SetPiece.stands_of_mem (by decide),
        List.forall_mem_cons.mpr ⟨SetPiece.stands_of_mem (by decide), ih h false⟩⟩

theorem ParameterType.stands_pieces {t : ParameterType} (h : t.Over IsIdentifier) :
    ∀ x ∈ t.pieces, x.Stands := by
  rw [pieces]
  cases t.spread with
  | false => exact t.type.stands_pieces h true
  | true =>
      exact List.forall_mem_cons.mpr ⟨SetPiece.stands_of_mem (by decide),
        PlainType.stands_pieces h false⟩

namespace NamedParameter

variable {p : NamedParameter}

theorem stands_pieces (hname : IsName p.name) (ht : p.type.Over IsIdentifier) (spaced : Bool) :
    ∀ x ∈ p.pieces spaced, x.Stands :=
  List.forall_mem_cons.mpr ⟨SetPiece.stands_ofWord hname.identifier, p.type.stands_pieces ht⟩

theorem stands_argument {front : List String} (hfront : ∀ x ∈ front, IsIdentifier x)
    (hname : IsName p.name) (spaced : Bool) : ∀ x ∈ p.argument front spaced, x.Stands := by
  refine List.forall_mem_append.mpr ⟨SetPiece.stands_ofWords ?_, ?_⟩
  · exact List.forall_mem_append.mpr ⟨hfront, List.forall_mem_singleton.mpr hname.identifier⟩
  · cases p.type.spread with
    | false => simp
    | true => exact List.forall_mem_singleton.mpr (SetPiece.stands_of_mem (by decide))

end NamedParameter

/-! ## Places -/

namespace Written

def word (first : Bool) (x : String) : Written :=
  ⟨.identifier, x.toList, first, false, false, false⟩

/-- A token of which nothing but its kind matters. -/
def mark (kind : Kind) (text : List Char) : Written := ⟨kind, text, false, false, false, false⟩

/-- `TakesType spaced w`: behind `w` a type may begin, with a space in front of it or without. -/
inductive TakesType : Bool → Written → Prop
  | name (first : Bool) {x : String} : isKeyword x = false → TakesType true (word first x)
  | comma : TakesType true (mark .comma [','])
  | list : TakesType true (mark .rightParen [')'])
  | paren : TakesType false (mark .leftParen ['('])
  | spread : TakesType false (mark .ellipsis ['.', '.', '.'])
  | pointer : TakesType false ⟨.star, ['*'], false, true, false, false⟩
  | slice : TakesType false ⟨.rightBracket, [']'], false, false, true, false⟩

/-- An element of a list may end with the token. -/
inductive EndsElement : Written → Prop
  | word (first : Bool) (x : String) : EndsElement (word first x)
  | spread : EndsElement (mark .ellipsis ['.', '.', '.'])

/-- An element of a list may begin behind the token. -/
inductive TakesElement : Bool → Written → Prop
  | paren : TakesElement false (mark .leftParen ['('])
  | comma : TakesElement true (mark .comma [','])

theorem TakesElement.takesType {spaced : Bool} {w : Written} (h : TakesElement spaced w) :
    TakesType spaced w := by
  cases h with
  | paren => exact .paren
  | comma => exact .comma

/-- A word that is not reserved is none of the words that have a rule of their own. -/
theorem isWord_eq_false (first : Bool) {x k : String} (h : isKeyword x = false)
    (hk : isKeyword k = true) : (word first x).isWord k = false := by
  rw [isWord, word, Bool.and_eq_false_iff]
  refine .inr (beq_eq_false_iff_ne.mpr fun heq => ?_)
  rw [String.toList_inj.mp heq, hk] at h
  cases h

section
variable {spaced : Bool} {w : Written} {traits : LineTraits} {openings : Openings}
  {next : Option Kind}

/-! Behind a place where a type may begin each of its tokens is set as it is. -/

theorem TakesType.spaceBetween_word (h : TakesType spaced w) (x : String) :
    spaceBetween traits openings w (ofWord spaced x).piece next = spaced := by
  cases h <;> rfl

theorem TakesType.spaceBetween_star (h : TakesType spaced w) :
    spaceBetween traits openings w (of spaced .star ['*']).piece next = spaced := by
  cases h <;> rfl

theorem TakesType.spaceBetween_bracket (h : TakesType spaced w) :
    spaceBetween traits openings w (of spaced .leftBracket ['[']).piece next = spaced := by
  cases h with
  | @name first x hx =>
      have hmap : (word first x).isWord "map" = false :=
        isWord_eq_false first hx (by decide)
      show spaceBeforeBracket (word first x) (of true .leftBracket ['[']).piece next = true
      rw [spaceBeforeBracket, hmap, if_neg Bool.false_ne_true]
      exact ite_self true
  | _ => rfl

theorem TakesType.isUnary (h : TakesType spaced w) :
    isUnary (some w) (of spaced .star ['*']).piece = true := by
  cases h with
  | name => exact ite_self true
  | _ => rfl

theorem TakesType.beginsType (h : TakesType spaced w) :
    beginsType (some w) (of spaced .leftBracket ['[']).piece next = true := by
  cases h with
  | name => exact ite_self true
  | _ => rfl

end

end Written

namespace Spot

open Written (TakesType EndsElement TakesElement)

/-! ## Walks -/

theorem walk_word {traits : LineTraits} {s : Spot} {spaced : Bool} {x : String}
    {next : Option SetPiece}
    (h : spaceBefore traits s.openings s.prev (ofWord spaced x).piece
      (next.map (·.piece.kind)) = spaced) :
    walk traits s [ofWord spaced x] next = some ⟨s.openings, some (.word s.prev.isNone x)⟩ := by
  have hadmits : s.admits traits (ofWord spaced x) next = true := admits_iff.mpr ⟨h, rfl, rfl⟩
  exact walk_cons_eq_some_iff.mpr ⟨hadmits, rfl⟩

section
variable (traits : LineTraits) (openings : Openings) (next : Option SetPiece) {spaced : Bool}
  {w : Written}

/-- Words behind a point each. -/
theorem walk_points (first : Bool) (x : String) (xs : List String) : ∃ first' y,
    walk traits ⟨openings, some (.word first x)⟩
        (xs.flatMap fun y => [of false .dot ['.'], ofWord false y]) next =
      some ⟨openings, some (.word first' y)⟩ := by
  induction xs generalizing first x with
  | nil => exact ⟨first, x, rfl⟩
  | cons y ys ih =>
      obtain ⟨first', z, hrest⟩ := ih false y
      have hpoint : ∀ next, walk traits ⟨openings, some (.word first x)⟩
          [of false .dot ['.'], ofWord false y] next = some ⟨openings, some (.word false y)⟩ :=
        fun _ => rfl
      exact ⟨first', z, walk_trans (hpoint _) hrest⟩

theorem walk_ofWords (h : TakesType spaced w) (x : String) (xs : List String) : ∃ first y,
    walk traits ⟨openings, some w⟩ (ofWords spaced (x :: xs)) next =
      some ⟨openings, some (.word first y)⟩ := by
  obtain ⟨first, y, hrest⟩ := walk_points traits openings next false x xs
  have hword : ∀ next, walk traits ⟨openings, some w⟩ [ofWord spaced x] next =
      some ⟨openings, some (.word false x)⟩ := fun _ => walk_word (h.spaceBetween_word x)
  exact ⟨first, y, walk_trans (hword _) hrest⟩

/-- Nothing that a type begins with goes on with another token. -/
theorem head_pieces (t : PlainType) (spaced : Bool) :
    ∃ x, (t.pieces spaced).head? = some x ∧ x.piece.kind.beginsAfresh = true := by
  cases t <;> exact ⟨_, rfl, rfl⟩

/-- A type, from any place where one may begin. -/
theorem walk_type (t : PlainType) (h : TakesType spaced w) : ∃ first y,
    walk traits ⟨openings, some w⟩ (t.pieces spaced) next =
      some ⟨openings, some (.word first y)⟩ := by
  -- By induction on the type; each mark is written so that a type may begin behind it again.
  induction t generalizing spaced w with
  | words x xs => exact walk_ofWords traits openings next h x xs
  | pointer t ih =>
      obtain ⟨first, y, hrest⟩ := ih .pointer
      obtain ⟨x, hx, hafresh⟩ := head_pieces t false
      refine ⟨first, y, walk_cons_eq_some_iff.mpr ⟨admits_iff.mpr ⟨?_, rfl, ?_⟩, ?_⟩⟩
      · exact h.spaceBetween_star
      · rw [hx]
        exact (Bool.or_eq_true _ _).mpr (.inr ((Bool.or_eq_true _ _).mpr (.inr hafresh)))
      · have hwritten : writtenAs openings (some w) (of spaced .star ['*']).piece spaced =
            ⟨.star, ['*'], false, true, false, false⟩ := by
          rw [writtenAs, h.isUnary]
          rfl
        show walk traits ⟨openings, some (writtenAs openings (some w) _ spaced)⟩ _ next = _
        rw [hwritten]
        exact hrest
  | slice t ih =>
      obtain ⟨first, y, hrest⟩ := ih .slice
      refine ⟨first, y, walk_cons_eq_some_iff.mpr ⟨admits_iff.mpr ⟨?_, rfl, rfl⟩, ?_⟩⟩
      · exact h.spaceBetween_bracket
      · have hbehind : Spot.behind ⟨openings, some w⟩ (of spaced .leftBracket ['['])
            (some .rightBracket) =
              ⟨openings.push .typeBracket, some (.mark .leftBracket ['['])⟩ := by
          show (⟨openings.push (if beginsType _ _ _ then _ else _), _⟩ : Spot) = _
          rw [h.beginsType]
          rfl
        show walk traits (Spot.behind _ _ (some .rightBracket)) _ next = _
        rw [hbehind]
        exact walk_cons_eq_some_iff.mpr ⟨rfl, hrest⟩

theorem walk_parameterType (t : ParameterType) (first : Bool) {x : String}
    (hx : isKeyword x = false) : ∃ first' y,
    walk traits ⟨openings, some (.word first x)⟩ t.pieces next =
      some ⟨openings, some (.word first' y)⟩ := by
  rw [ParameterType.pieces]
  cases t.spread with
  | false => exact walk_type traits openings next t.type (.name first hx)
  | true =>
      obtain ⟨first', y, hrest⟩ := walk_type traits openings next t.type .spread
      exact ⟨first', y, walk_cons_eq_some_iff.mpr ⟨rfl, hrest⟩⟩

/-! ### Elements and lists -/

theorem walk_parameter (h : TakesElement spaced w) {p : NamedParameter} (hp : IsName p.name) :
    ∃ w', EndsElement w' ∧
      walk traits ⟨openings, some w⟩ (p.pieces spaced) next = some ⟨openings, some w'⟩ := by
  obtain ⟨first, y, hrest⟩ := walk_parameterType traits openings next p.type false hp.free
  have hname : ∀ next, walk traits ⟨openings, some w⟩ [ofWord spaced p.name] next =
      some ⟨openings, some (.word false p.name)⟩ :=
    fun _ => walk_word (h.takesType.spaceBetween_word p.name)
  exact ⟨_, .word first y, walk_trans (hname _) hrest⟩

theorem walk_argument (h : TakesElement spaced w) (front : List String) (p : NamedParameter) :
    ∃ w', EndsElement w' ∧
      walk traits ⟨openings, some w⟩ (p.argument front spaced) next =
        some ⟨openings, some w'⟩ := by
  obtain ⟨x, xs, hwords⟩ : ∃ x xs, front ++ [p.name] = x :: xs :=
    List.exists_cons_of_ne_nil (by simp)
  rw [NamedParameter.argument, hwords]
  cases p.type.spread with
  | false =>
      obtain ⟨first, y, hwalk⟩ := walk_ofWords traits openings next h.takesType x xs
      refine ⟨_, .word first y, ?_⟩
      rwa [if_neg Bool.false_ne_true, List.append_nil]
  | true =>
      obtain ⟨first, y, hwalk⟩ := walk_ofWords traits openings
        (some (of false .ellipsis ['.', '.', '.'])) h.takesType x xs
      exact ⟨_, .spread, walk_trans hwalk rfl⟩

theorem walk_resultType (h : TakesElement spaced w) (t : PlainType) : ∃ w', EndsElement w' ∧
    walk traits ⟨openings, some w⟩ (t.pieces spaced) next = some ⟨openings, some w'⟩ := by
  obtain ⟨first, y, hwalk⟩ := walk_type traits openings next t h.takesType
  exact ⟨_, .word first y, hwalk⟩

variable {α : Type} {pieces : Bool → α → List SetPiece} {as : List α}

theorem walk_comma (hw : EndsElement w) :
    walk traits ⟨openings, some w⟩ [of false .comma [',']] next =
      some ⟨openings, some (.mark .comma [','])⟩ := by
  cases hw <;> rfl

section
variable {Ends : Written → Prop} (hends : ∀ w, Ends w → EndsElement w)
include hends

/-- The elements of a list behind its first. -/
theorem walk_elements (hw : Ends w)
    (h : ∀ a ∈ as, ∀ next, ∃ w', Ends w' ∧
      walk traits ⟨openings, some (.mark .comma [','])⟩ (pieces true a) next =
        some ⟨openings, some w'⟩) : ∃ w', Ends w' ∧
    walk traits ⟨openings, some w⟩
      (as.flatMap fun a => of false .comma [','] :: pieces true a) next =
        some ⟨openings, some w'⟩ := by
  induction as generalizing w with
  | nil => exact ⟨w, hw, rfl⟩
  | cons a as ih =>
      obtain ⟨ha, has⟩ := List.forall_mem_cons.mp h
      obtain ⟨w', hw', helement⟩ := ha _
      obtain ⟨w'', hw'', hrest⟩ := ih hw' has
      have hcomma := walk_trans (walk_comma traits openings _ (hends w hw)) helement
      exact ⟨w'', hw'', walk_trans hcomma hrest⟩

/-- A list, from a place where its first element may begin. -/
theorem walk_commaList {s : Spot} {a : α}
    (hfirst : ∀ next, ∃ w, Ends w ∧
      walk traits s (pieces false a) next = some ⟨openings, some w⟩)
    (h : ∀ b ∈ as, ∀ next, ∃ w, Ends w ∧
      walk traits ⟨openings, some (.mark .comma [','])⟩ (pieces true b) next =
        some ⟨openings, some w⟩) : ∃ w, Ends w ∧
    walk traits s (commaList pieces (a :: as)) next = some ⟨openings, some w⟩ := by
  obtain ⟨w, hw, helement⟩ := hfirst _
  obtain ⟨w', hw', hrest⟩ := walk_elements traits openings next hends hw h
  exact ⟨w', hw', walk_trans helement hrest⟩

end

/-- A call or a declaration opens its list right behind the name. -/
theorem walk_call (first : Bool) {x : String} (hx : isKeyword x = false) :
    walk traits ⟨openings, some (.word first x)⟩ [of false .leftParen ['(']] next =
      some ⟨openings.push .paren, some (.mark .leftParen ['('])⟩ := by
  have hspaced : spaceBetween traits openings (.word first x) (of false .leftParen ['(']).piece
      (next.map (·.piece.kind)) = false := by
    show spaceBeforeParen traits (.word first x) (of false .leftParen ['(']).piece = false
    have hreserved : (Written.word first x).isReserved = false := by
      simpa [Written.isReserved, Written.word] using hx
    rw [spaceBeforeParen, Written.isWord_eq_false first hx (by decide), hreserved]
    rfl
  exact walk_cons_eq_some_iff.mpr ⟨admits_iff.mpr ⟨hspaced, rfl, rfl⟩, rfl⟩

/-- The rest of a list in parentheses, behind the opening one. -/
theorem walk_parenthesized (pieces : Bool → α → List SetPiece)
    (h : ∀ a ∈ as, ∀ {spaced w}, TakesElement spaced w → ∀ openings next, ∃ w', EndsElement w' ∧
      walk traits ⟨openings, some w⟩ (pieces spaced a) next = some ⟨openings, some w'⟩) :
    walk traits ⟨openings.push .paren, some (.mark .leftParen ['('])⟩
        (commaList pieces as ++ [of false .rightParen [')']]) next =
      some ⟨openings, some (.mark .rightParen [')'])⟩ := by
  cases as with
  | nil => rfl
  | cons a as =>
      obtain ⟨ha, has⟩ := List.forall_mem_cons.mp h
      obtain ⟨w, hw, hlist⟩ := walk_commaList traits (openings.push .paren)
        (some (of false .rightParen [')'])) (fun _ => id) (ha .paren _)
        (fun b hb => has b hb .comma _)
      refine walk_trans hlist ?_
      cases hw <;> rfl

theorem walk_parameters {ps : List NamedParameter} (h : ∀ p ∈ ps, IsName p.name) :
    walk traits ⟨openings.push .paren, some (.mark .leftParen ['('])⟩
        (commaList NamedParameter.pieces ps ++ [of false .rightParen [')']]) next =
      some ⟨openings, some (.mark .rightParen [')'])⟩ :=
  walk_parenthesized traits openings next NamedParameter.pieces
    fun p hp _ _ hw openings next => walk_parameter traits openings next hw (h p hp)

theorem walk_arguments (front : List String) (ps : List NamedParameter) :
    walk traits ⟨openings.push .paren, some (.mark .leftParen ['('])⟩
        (commaList (NamedParameter.argument front) ps ++ [of false .rightParen [')']]) next =
      some ⟨openings, some (.mark .rightParen [')'])⟩ :=
  walk_parenthesized traits openings next (NamedParameter.argument front)
    fun p _ _ _ hw openings next => walk_argument traits openings next hw front p

theorem walk_resultTypes (ts : List PlainType) :
    walk traits ⟨openings.push .paren, some (.mark .leftParen ['('])⟩
        (commaList PlainType.pieces ts ++ [of false .rightParen [')']]) next =
      some ⟨openings, some (.mark .rightParen [')'])⟩ :=
  walk_parenthesized traits openings next PlainType.pieces
    fun t _ _ _ hw openings next => walk_resultType traits openings next hw t

end

end Spot

end MethodSkeleton
