/-
# `MethodSkeleton.Proofs.Layout.Nesting` — delimiters that nest

What it means that delimiters nest is said twice.  `Nested` and `LeavesOpen` say it of a
whole list, by its shape, and know no stack: a nested list is made of pairs with nested lists
inside, and a list that leaves delimiters open is nested lists with openers in between.
`openAfter?` says it by running over the tokens with the stack of what is open.
`openAfter?_eq_some_iff` makes the two one: the stack behind a list is exactly what the list
leaves open.
-/
import MethodSkeleton.Layout.Delimiters

namespace MethodSkeleton

/-! ## By shape -/

/-- Every delimiter is closed by one of its own kind, and pairs do not overlap. -/
inductive Nested : List Kind → Prop
  | nil : Nested []
  | other {k : Kind} {ks : List Kind} : k.opens? = none → k.closes? = none → Nested ks →
      Nested (k :: ks)
  | pair {o c : Kind} {b : Bracket} {inner rest : List Kind} : o.opens? = some b →
      c.closes? = some b → Nested inner → Nested rest → Nested (o :: inner ++ c :: rest)

/-- `LeavesOpen ts opened`: outside of nested parts the tokens `ts` hold just the openers
`opened`, the innermost first. -/
inductive LeavesOpen : List (Located Kind) → List (Located Bracket) → Prop
  | nested {ts : List (Located Kind)} : Nested (ts.map (·.value)) → LeavesOpen ts []
  | opener {ts us : List (Located Kind)} {t : Located Kind} {b : Bracket}
      {opened : List (Located Bracket)} : LeavesOpen ts opened → t.value.opens? = some b →
      Nested (us.map (·.value)) → LeavesOpen (ts ++ t :: us) (⟨t.span, b⟩ :: opened)

theorem Nested.append {ks ls : List Kind} (hk : Nested ks) (hl : Nested ls) :
    Nested (ks ++ ls) := by
  induction hk with
  | nil => exact hl
  | other ho hc _ ih => exact .other ho hc ih
  | pair ho hc hinner _ _ ih =>
      have h := Nested.pair ho hc hinner ih
      simpa using h

theorem LeavesOpen.append_nested {ts us : List (Located Kind)} {opened : List (Located Bracket)}
    (h : LeavesOpen ts opened) (hu : Nested (us.map (·.value))) : LeavesOpen (ts ++ us) opened := by
  cases h with
  | nested hn =>
      refine .nested ?_
      rw [List.map_append]
      exact hn.append hu
  | opener h ho hn =>
      rw [List.append_assoc, List.cons_append]
      refine .opener h ho ?_
      rw [List.map_append]
      exact hn.append hu

/-! ## By running -/

/-- What is open behind the token `t`, if it does not close what is not there. -/
def openBehind? (opened : List (Located Bracket)) (t : Located Kind) :
    Option (List (Located Bracket)) :=
  match t.value.opens?, t.value.closes? with
  | some bracket, _ => some (⟨t.span, bracket⟩ :: opened)
  | none, none => some opened
  | none, some bracket =>
    match opened with
    | [] => none
    | innermost :: outer => if innermost.value = bracket then some outer else none

/-- What is open behind several tokens. -/
def openAfter? : List (Located Bracket) → List (Located Kind) → Option (List (Located Bracket))
  | opened, [] => some opened
  | opened, t :: ts => (openBehind? opened t).bind (openAfter? · ts)

theorem openAfter?_append (opened : List (Located Bracket)) (ts us : List (Located Kind)) :
    openAfter? opened (ts ++ us) = (openAfter? opened ts).bind (openAfter? · us) := by
  induction ts generalizing opened with
  | nil => rfl
  | cons t ts ih =>
      show (openBehind? opened t).bind _ = ((openBehind? opened t).bind _).bind _
      rw [Option.bind_assoc]
      congr 1
      funext opened'
      exact ih opened'

theorem opens?_eq_none_of_closes? {k : Kind} {b : Bracket} (h : k.closes? = some b) :
    k.opens? = none := by
  cases k <;> first | rfl | cases h

theorem openBehind?_of_opens? {opened : List (Located Bracket)} {t : Located Kind} {b : Bracket}
    (h : t.value.opens? = some b) : openBehind? opened t = some (⟨t.span, b⟩ :: opened) := by
  simp [openBehind?, h]

theorem openBehind?_of_other {opened : List (Located Bracket)} {t : Located Kind}
    (ho : t.value.opens? = none) (hc : t.value.closes? = none) :
    openBehind? opened t = some opened := by
  simp [openBehind?, ho, hc]

theorem openBehind?_of_closes?_iff {opened opened' : List (Located Bracket)} {t : Located Kind}
    {b : Bracket} (h : t.value.closes? = some b) :
    openBehind? opened t = some opened' ↔ ∃ o, opened = o :: opened' ∧ o.value = b := by
  cases opened with
  | nil => simp [openBehind?, opens?_eq_none_of_closes? h, h]
  | cons o outer =>
      simp only [openBehind?, opens?_eq_none_of_closes? h, h]
      grind

/-- A nested part leaves the stack as it was. -/
theorem openAfter?_of_nested {ks : List Kind} (h : Nested ks) :
    ∀ (opened : List (Located Bracket)) (ts : List (Located Kind)), ts.map (·.value) = ks →
      openAfter? opened ts = some opened := by
  induction h with
  | nil =>
      intro opened ts hts
      rw [List.map_eq_nil_iff.mp hts]
      rfl
  | other ho hc _ ih =>
      intro opened ts hts
      obtain ⟨t, us, rfl, rfl, hus⟩ := List.map_eq_cons_iff.mp hts
      show (openBehind? opened t).bind _ = _
      rw [openBehind?_of_other ho hc]
      exact ih opened us hus
  | @pair o c b inner rest ho hc _ _ ihi ihr =>
      intro opened ts hts
      obtain ⟨fr, ba, rfl, hfr, hba⟩ := List.map_eq_append_iff.mp hts
      obtain ⟨t, us, rfl, rfl, hus⟩ := List.map_eq_cons_iff.mp hfr
      obtain ⟨v, vs, rfl, rfl, hvs⟩ := List.map_eq_cons_iff.mp hba
      have hclose : openBehind? (⟨t.span, b⟩ :: opened) v = some opened :=
        (openBehind?_of_closes?_iff hc).mpr ⟨_, rfl, rfl⟩
      rw [openAfter?_append]
      show ((openBehind? opened t).bind (openAfter? · us)).bind _ = _
      rw [openBehind?_of_opens? ho, Option.bind_some, ihi _ us hus, Option.bind_some]
      show (openBehind? _ v).bind _ = _
      rw [hclose, Option.bind_some]
      exact ihr opened vs hvs

theorem openAfter?_of_leavesOpen {ts : List (Located Kind)} {opened : List (Located Bracket)}
    (h : LeavesOpen ts opened) : openAfter? [] ts = some opened := by
  induction h with
  | nested hn => exact openAfter?_of_nested hn [] _ rfl
  | @opener ts us t b opened _ ho hn ih =>
      rw [openAfter?_append, ih, Option.bind_some]
      show (openBehind? opened t).bind _ = _
      rw [openBehind?_of_opens? ho, Option.bind_some]
      exact openAfter?_of_nested hn _ us rfl

/-- One token more, by its kind: the shape follows the stack. -/
theorem LeavesOpen.snoc {ts : List (Located Kind)} {opened opened' : List (Located Bracket)}
    {t : Located Kind} (h : LeavesOpen ts opened) (ht : openBehind? opened t = some opened') :
    LeavesOpen (ts ++ [t]) opened' := by
  cases ho : t.value.opens? with
  | some b =>
      rw [openBehind?_of_opens? ho] at ht
      cases ht
      exact .opener h ho .nil
  | none =>
      cases hc : t.value.closes? with
      | none =>
          rw [openBehind?_of_other ho hc] at ht
          cases ht
          exact h.append_nested (.other ho hc .nil)
      | some b =>
          -- the innermost opener and what stands behind it become a pair
          obtain ⟨o, rfl, rfl⟩ := (openBehind?_of_closes?_iff hc).mp ht
          cases h with
          | opener h ho' hn =>
              rw [List.append_assoc, List.cons_append]
              refine h.append_nested ?_
              simpa using Nested.pair ho' hc hn .nil

theorem leavesOpen_of_openAfter? :
    ∀ {ts us : List (Located Kind)} {opened opened' : List (Located Bracket)},
      LeavesOpen us opened → openAfter? opened ts = some opened' → LeavesOpen (us ++ ts) opened'
  | [], us, opened, opened', h, ht => by
      cases ht
      rw [List.append_nil]
      exact h
  | t :: ts, us, opened, opened', h, ht => by
      obtain ⟨mid, hmid, ht⟩ := Option.bind_eq_some_iff.mp ht
      have h := leavesOpen_of_openAfter? (h.snoc hmid) ht
      rwa [List.append_assoc, List.singleton_append] at h

/-- The stack behind a list is what the list leaves open. -/
theorem openAfter?_eq_some_iff {ts : List (Located Kind)} {opened : List (Located Bracket)} :
    openAfter? [] ts = some opened ↔ LeavesOpen ts opened := by
  constructor
  · exact @leavesOpen_of_openAfter? ts [] _ _ (.nested .nil)
  · exact openAfter?_of_leavesOpen

theorem LeavesOpen.unique {ts : List (Located Kind)} {opened opened' : List (Located Bracket)}
    (h : LeavesOpen ts opened) (h' : LeavesOpen ts opened') : opened = opened' :=
  Option.some.inj ((openAfter?_of_leavesOpen h).symm.trans (openAfter?_of_leavesOpen h'))

theorem leavesOpen_nil_iff {ts : List (Located Kind)} :
    LeavesOpen ts [] ↔ Nested (ts.map (·.value)) := by
  constructor
  · intro h
    cases h with
    | nested hn => exact hn
  · exact .nested

end MethodSkeleton
