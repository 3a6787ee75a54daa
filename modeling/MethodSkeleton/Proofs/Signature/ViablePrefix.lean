/-
# `MethodSkeleton.Proofs.Signature.ViablePrefix` — errors stand where the text stops being one

Where a list of tokens is not accepted, the error stands at the first token with which nothing that
is accepted begins (`shapes_viable_prefix`).  It shows that token's place, and the token itself if
it names one; the tokens that it calls an incomplete type are those of the slot that is being read,
behind the place where it opens (`OpensSlot`) and without a comma among them.

Both shapes of a signature are a header and one part more, so they are prompt because their parts
are.
-/
import MethodSkeleton.Proofs.Signature.Extent
import MethodSkeleton.Proofs.Signature.Promptness

namespace MethodSkeleton

/-! ## Where slots open -/

/-- The tokens in front of a slot: for a parameter everything up to a name, for a result everything
up to the opening parenthesis or a comma, for a bare result the header. -/
inductive OpensSlot : SlotContext → List Token → Prop
  | parameter (x receiver name y : String) {star slots : List Token} :
      star = [] ∨ star = [.star] → CommaEnded IsParameterSlot slots →
      OpensSlot .parameter (.func :: .leftParen :: .identifier x :: star ++
        .identifier receiver :: .rightParen :: .identifier name :: .leftParen :: slots ++
        [.identifier y])
  | resultList {o : Outline} {header results : List Token} : IsHeader o header →
      CommaEnded (IsType .resultList) results →
      OpensSlot .resultList (header ++ .leftParen :: results)
  | resultType {o : Outline} {header : List Token} : IsHeader o header →
      OpensSlot .resultType header

namespace Reader

/-! ## The whole signature -/

/-- The slots of a signature. -/
def signaturePlaces : SlotPlaces := fun context read front =>
  .comma ∉ read ∧ ∃ before, OpensSlot context before ∧ front = before ++ read

theorem prompt_readParameters {At : SlotPlaces}
    (h : Reader.Prompt (At.behind [.leftParen]) readParameterSlots) :
    Reader.Prompt At readParameters := by
  show ((token (Token.only .leftParen) .parametersNotOpened).andThen fun _ =>
    andThen readParameterSlots fun slots => done (resolveParameters slots)).Prompt At
  refine .andThen (accepts_only (by simp)) (prompt_only (by simp) fun _ => rfl) fun _ _ hopen => ?_
  subst hopen
  exact h.map resolveParameters

theorem prompt_readResultList {At : SlotPlaces}
    (h : Reader.Prompt (At.behind [.leftParen]) readResultSlots) :
    Reader.Prompt At readResultList := by
  show ((token (Token.only .leftParen) .resultsNotOpened).andThen fun _ =>
    andThen readResultSlots fun slots => done (slots.filterMap Slot.result?)).Prompt At
  refine .andThen (accepts_only (by simp)) (prompt_only (by simp) fun _ => rfl) fun _ _ hopen => ?_
  subst hopen
  exact h.map (·.filterMap Slot.result?)

theorem prompt_readHeader : Reader.Prompt signaturePlaces readHeader := by
  show (andThen readReceiver fun receiver =>
    (token Token.name? .missingMethodName).andThen fun name =>
    andThen readParameters fun parameters =>
    done (⟨receiver, name, parameters, []⟩ : Method)).Prompt _
  refine .andThen accepts_readReceiver prompt_readReceiver fun _ receiver hreceiver => ?_
  refine .andThen accepts_name (prompt_name fun _ => rfl) fun _ name hname => ?_
  obtain ⟨x, star, hstar, rfl⟩ := hreceiver
  subst hname
  refine (prompt_readParameters (prompt_readParameterSlots.mono ?_)).map _
  rintro _ read _ ⟨rfl, hcomma, slots, y, hslots, rfl⟩
  refine ⟨hcomma, _, .parameter x receiver name y hstar hslots, ?_⟩
  simp

theorem accepts_readHeader : Reader.Accepts readHeader fun us m =>
    ∃ o : Outline, m = { o.method with results := [] } ∧ IsHeader o us := by
  intro stop ts rest m
  rw [readHeader_ok_iff]
  constructor
  · rintro ⟨o, us, hm, hus, hs⟩
    exact ⟨us, ⟨o, hm, hus⟩, hs⟩
  · rintro ⟨us, ⟨o, hm, hus⟩, hs⟩
    exact ⟨o, us, hm, hus, hs⟩

/-- A header and a bare result. -/
def bareShape : Reader Method :=
  andThen readHeader fun m => (slot .resultType).andThen fun a =>
    done { m with results := a.result?.toList }

/-- A header and a list of results. -/
def parenthesizedShape : Reader Method :=
  andThen readHeader fun m => andThen readResultList fun results =>
    done { m with results := results }

theorem readBareResult_eq (ts : Tokens) :
    readBareResult ts = (bareShape (endPosition ts) ts).map Prod.fst := by
  rw [← readBareExtent_fst]
  rfl

theorem readParenthesizedResults_eq (ts : Tokens) :
    readParenthesizedResults ts = (parenthesizedShape (endPosition ts) ts).map Prod.fst := by
  rw [← readParenthesizedExtent_fst]
  rfl

theorem prompt_bareShape : bareShape.Prompt signaturePlaces := by
  refine .andThen accepts_readHeader prompt_readHeader fun header m hheader => ?_
  obtain ⟨o, -, hheader⟩ := hheader
  refine ((prompt_slot .resultType).map _).mono ?_
  rintro _ _ read ⟨rfl, rfl, hcomma⟩
  exact ⟨hcomma, header, .resultType hheader, rfl⟩

theorem prompt_parenthesizedShape : parenthesizedShape.Prompt signaturePlaces := by
  refine .andThen accepts_readHeader prompt_readHeader fun header m hheader => ?_
  obtain ⟨o, -, hheader⟩ := hheader
  refine (prompt_readResultList (prompt_readResultSlots.mono ?_)).map _
  rintro _ read _ ⟨rfl, hcomma, results, hresults, rfl⟩
  refine ⟨hcomma, _, .resultList hheader hresults, ?_⟩
  simp

end Reader

/-! ## The place of an error -/

/-- The token at `i`; past the last one, the end of input. -/
def tokenAt (ts : Tokens) (i : Nat) : Located Token := ts[i]?.getD (endAt (endPosition ts))

/-- An error with which `shape` gives up `ts` stands at its token `i`: the tokens in front of it
begin a list that is accepted, and with it they do not.  What the error says is about this token and
the tokens in front of it: the token that it found is this one, and the tokens of an incomplete type
are those between the place where the last slot opens and this one, with no comma among them, written
run together. -/
structure StandsAt (shape : Tokens → Except ParseError Method) (ts : Tokens) (e : ParseError)
    (i : Nat) : Prop where
  bound : i ≤ ts.length
  span : e.span = (tokenAt ts i).span
  viable : ∃ us m, shape (ts.take i ++ us) = .ok m
  refused : ∀ us m, shape (ts.take i ++ tokenAt ts i :: us) ≠ .ok m
  found : ∀ t, e.cause.found? = some t →
    t = (tokenAt ts i).value ∧ ∃ words, e.cause.message = words ++ (tokenAt ts i).value.describe
  incomplete : ∀ context read, e.cause = .incompleteType context read →
    (.comma ∉ read ∧ ∃ before, OpensSlot context before ∧
      (ts.take i).map (·.value) = before ++ read) ∧
      e.cause.message = "incomplete type expression `" ++ String.join (read.map Token.text) ++
        "` in " ++ context.label

theorem tokenAt_length (front rest : Tokens) :
    tokenAt (front ++ rest) front.length = (nextToken (endPosition (front ++ rest)) rest).1 := by
  rw [tokenAt, List.getElem?_append_right (Nat.le_refl _), Nat.sub_self]
  cases rest <;> rfl

/-- A prompt reader gives every list up at the right token. -/
theorem Reader.Prompt.standsAt {R : Reader Method} (hR : R.Prompt signaturePlaces)
    {shape : Tokens → Except ParseError Method}
    (hshape : ∀ ts, shape ts = (R (endPosition ts) ts).map Prod.fst) {ts : Tokens}
    {e : ParseError} (h : shape ts = .error e) : ∃ i, StandsAt shape ts e i := by
  rw [hshape, map_error_iff] at h
  obtain ⟨_, rest, ⟨front, rfl, rfl⟩, hspan, hfound, hincomplete, hviable, hrefused⟩ :=
    hR.fails _ ts e h
  rw [← tokenAt_length] at hspan hfound hrefused
  refine ⟨front.length, by simp, hspan, ?_, ?_, fun t ht => ?_, ?_⟩
  · obtain ⟨more, m, hreads⟩ := hviable
    obtain ⟨us, hus⟩ := exists_located more
    rw [List.take_left]
    refine ⟨us, m, ?_⟩
    rw [hshape, hreads _ _ [] (splitsAs_append_iff.mpr ⟨us, ⟨front, rfl, rfl⟩, hus⟩)]
    rfl
  · rw [List.take_left]
    intro us m hok
    rw [hshape, map_ok_iff] at hok
    obtain ⟨read, hok, -⟩ := hok
    refine hrefused _ _ us read (splitsAs_append_iff.mpr ⟨_, ⟨front, rfl, rfl⟩, ?_⟩) hok
    simp
  · obtain rfl := hfound t ht
    exact ⟨rfl, ParseCause.message_of_found? ht⟩
  · rw [List.take_left]
    intro context read hc
    exact ⟨hincomplete context read hc, by rw [hc]; rfl⟩

/-- **Errors stand where the text stops being a signature.**  Whenever one of the two shapes is not
accepted, its error stands at the first token with which nothing accepted begins. -/
theorem shapes_viable_prefix {shape : Tokens → Except ParseError Method}
    (hshape : shape ∈ [readBareResult, readParenthesizedResults]) {ts : Tokens} {e : ParseError}
    (h : shape ts = .error e) : ∃ i, StandsAt shape ts e i := by
  rcases List.mem_cons.mp hshape with rfl | hshape
  · exact Reader.prompt_bareShape.standsAt Reader.readBareResult_eq h
  · obtain rfl := List.mem_singleton.mp hshape
    exact Reader.prompt_parenthesizedShape.standsAt Reader.readParenthesizedResults_eq h

/-- A slice of nothing, in front of a body. -/
theorem shapes_viable_prefix_slice :
    let ts := tokenize "func (d *db) Get() []\x7b"
    let e : ParseError := ⟨.incompleteType .resultType [.leftBracket, .rightBracket], ⟨21, 22⟩⟩
    readBareResult ts = .error e ∧ ∃ i, StandsAt readBareResult ts e i := by
  intro ts e
  let o : Outline := ⟨"db", "Get", [], []⟩
  have hslots : CommaList IsParameterSlot o.slots [] := .nil
  have hheader : IsHeader o [.func, .leftParen, .identifier "d", .star, .identifier "db",
      .rightParen, .identifier "Get", .leftParen, .rightParen] := .mk "d" (.inr rfl) hslots
  have hread : readHeader (endPosition ts) ts =
      .ok ({ o.method with results := [] }, ts.drop 9) :=
    readHeader_ok_iff.mpr ⟨o, _, rfl, hheader, ts.take 9, rfl, (List.take_append_drop 9 ts).symm⟩
  have h : readBareResult ts = .error e := by
    rw [readBareResult_of_header hread]
    rfl
  exact ⟨h, shapes_viable_prefix (by simp) h⟩

end MethodSkeleton
