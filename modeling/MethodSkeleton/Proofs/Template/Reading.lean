/-
# `MethodSkeleton.Proofs.Template.Reading` — reading a template piece by piece

A template text is put together from plain text, outputs and tags.  What such a piece comes to
does not depend on what stands around it, as long as plain text is followed by a mark or by
nothing: `ReadsAs t ns` says that a draft which meets the text `t` goes on with the nodes `ns`
added, whatever is open around it and whatever comes behind it.

So the tree of a template is built along its text, one rule for each form: a text or an output
in front of the rest (`ReadsAs.text`, `ReadsAs.output`), and a block around its body
(`ReadsAs.loop`, `ReadsAs.branch` and so on).  Only the marks themselves are left to evaluate
(`IsElement`), and each of them once.
-/
import MethodSkeleton.Template.Read

namespace MethodSkeleton

/-! ## Plain text and marks -/

/-- The text begins with an opening mark and a space. -/
def Opens (cs : List Char) : Prop :=
  ∃ opener rest, (opener = '{' ∨ opener = '%') ∧ cs = '{' :: opener :: ' ' :: rest

/-- Behind plain text comes a mark or nothing. -/
def EndsText (cs : List Char) : Prop := cs = [] ∨ Opens cs

/-- No opening mark begins in the text or at its end. -/
def isPlainText : List Char → Bool
  | [] => true
  | ['{'] => false
  | '{' :: c :: cs => c != '{' && c != '%' && isPlainText (c :: cs)
  | _ :: cs => isPlainText cs

theorem isPlainText_tail {c : Char} {cs : List Char} (h : isPlainText (c :: cs) = true) :
    isPlainText cs = true := by
  unfold isPlainText at h
  split at h <;> simp_all

theorem isPlainText_brace {cs : List Char} (h : isPlainText ('{' :: cs) = true) :
    ∃ c tail, cs = c :: tail ∧ c ≠ '{' ∧ c ≠ '%' := by
  cases cs with
  | nil => cases h
  | cons c tail =>
      simp only [isPlainText, Bool.and_eq_true, bne_iff_ne] at h
      exact ⟨c, tail, rfl, h.1.1, h.1.2⟩

theorem Opens.opensHere {cs : List Char} (h : Opens cs) : opensHere cs = true := by
  obtain ⟨opener, rest, rfl | rfl, rfl⟩ := h <;> rfl

theorem opening?_eq_none {opener : Char} {cs : List Char}
    (hdash : ∀ rest, dropSpace cs ≠ '{' :: opener :: '-' :: rest)
    (hplain : ∀ rest, cs ≠ '{' :: opener :: rest) : opening? opener cs = none := by
  unfold opening?
  split <;> grind

/-- A brace in a plain text, or at its end before a mark, opens nothing. -/
theorem plain_ne_mark {c : Char} {t rest : List Char} (ht : isPlainText (c :: t) = true)
    {opener : Char} (ho : opener = '{' ∨ opener = '%') (behind : List Char) :
    c :: (t ++ rest) ≠ '{' :: opener :: behind := by
  intro heq
  obtain ⟨hc, htail⟩ := List.cons.inj heq
  rw [hc] at ht
  obtain ⟨d, tail, rfl, hd, hd'⟩ := isPlainText_brace ht
  obtain ⟨hopener, -⟩ := List.cons.inj htail
  rw [hopener] at hd hd'
  exact ho.elim hd hd'

/-- Behind the blanks of a plain text no mark begins that would take them. -/
theorem dropSpace_plain {t rest : List Char} (ht : isPlainText t = true) (hr : EndsText rest)
    {opener : Char} (ho : opener = '{' ∨ opener = '%') (behind : List Char) :
    dropSpace (t ++ rest) ≠ '{' :: opener :: '-' :: behind := by
  induction t with
  | nil =>
      rcases hr with rfl | ⟨d, rest, _, rfl⟩
      · simp [dropSpace]
      · simp [dropSpace, isTemplateSpace]
  | cons c t ih =>
      by_cases hc : isTemplateSpace c = true
      · simpa [dropSpace, hc] using ih (isPlainText_tail ht)
      · have hdrop : dropSpace (c :: t ++ rest) = c :: (t ++ rest) := by simp [dropSpace, hc]
        rw [hdrop]
        exact plain_ne_mark ht ho _

theorem opensHere_plain {c : Char} {t rest : List Char} (ht : isPlainText (c :: t) = true)
    (hr : EndsText rest) : opensHere (c :: (t ++ rest)) = false := by
  have hnone : ∀ opener, (opener = '{' ∨ opener = '%') →
      opening? opener (c :: (t ++ rest)) = none := by
    intro opener ho
    exact opening?_eq_none (dropSpace_plain ht hr ho) (plain_ne_mark ht ho)
  rw [opensHere, hnone '{' (.inl rfl), hnone '%' (.inr rfl)]
  rfl

theorem textLength_plain {t rest : List Char} (ht : isPlainText t = true) (hr : EndsText rest) :
    textLength (t ++ rest) = t.length := by
  induction t with
  | nil =>
      rcases hr with rfl | hr
      · rfl
      · have hopens := hr.opensHere
        obtain ⟨opener, behind, _, rfl⟩ := hr
        rw [List.nil_append, textLength, if_pos hopens, List.length_nil]
  | cons c t ih =>
      have hopens := opensHere_plain ht hr
      simp [textLength, hopens, ih (isPlainText_tail ht)]

/-- The text of an output or a tag, which is read as `is` whatever follows it. -/
structure IsElement (s : String) (is : ElementClass) : Prop where
  opens : Opens s.toList
  marked : ∀ rest, marked? (s.toList ++ rest) = some (is, rest)

theorem Opens.append {cs : List Char} (h : Opens cs) (rest : List Char) : Opens (cs ++ rest) := by
  obtain ⟨opener, behind, ho, rfl⟩ := h
  exact ⟨opener, behind ++ rest, ho, rfl⟩

theorem EndsText.append {cs rest : List Char} (h : EndsText cs) (hr : EndsText rest) :
    EndsText (cs ++ rest) := by
  rcases h with rfl | h
  · exact hr
  · exact .inr (h.append rest)

/-! ## Elements -/

theorem elementsAfter_eq_drop (skip : Nat) (cs : List Char) :
    elementsAfter skip cs = elementsAfter 0 (cs.drop skip) := by
  induction cs generalizing skip with
  | nil => cases skip <;> rfl
  | cons c cs ih =>
      cases skip with
      | zero => rfl
      | succ skip => simpa [elementsAfter] using ih skip

theorem elementsAfter_cons (c : Char) (cs : List Char) :
    elementsAfter 0 (c :: cs) =
      ⟨(elementAt c cs).1, c :: cs.take (elementAt c cs).2⟩ ::
        elementsAfter 0 (cs.drop (elementAt c cs).2) := by
  rw [← elementsAfter_eq_drop]
  rfl

theorem elementsAfter_text {t rest : List Char} (ht : isPlainText t = true) (hne : t ≠ [])
    (hr : EndsText rest) :
    elementsAfter 0 (t ++ rest) = ⟨.text, t⟩ :: elementsAfter 0 rest := by
  obtain ⟨c, tail, rfl⟩ := List.exists_cons_of_ne_nil hne
  have hlength := textLength_plain (isPlainText_tail ht) hr
  have hopens := opensHere_plain ht hr
  have hat : elementAt c (tail ++ rest) = (.text, tail.length) := by
    simp [elementAt, hopens, hlength]
  simp [elementsAfter_cons, hat]

theorem elementsAfter_mark {s : String} {is : ElementClass} (h : IsElement s is)
    (rest : List Char) :
    elementsAfter 0 (s.toList ++ rest) = ⟨is, s.toList⟩ :: elementsAfter 0 rest := by
  have hopens := (h.opens.append rest).opensHere
  have hmarked := h.marked rest
  obtain ⟨opener, tail, _, htext⟩ := h.opens
  simp only [htext, List.cons_append] at hopens hmarked ⊢
  have hat : elementAt '{' (opener :: ' ' :: (tail ++ rest)) = (is, tail.length + 2) := by
    simp only [elementAt, hopens, if_true, hmarked, List.length_cons, List.length_append]
    congr 1
    omega
  simp [elementsAfter_cons, hat]

/-! ## Drafts -/

namespace Draft

/-- The innermost block is not `raw`, so what comes next is read. -/
def IsLive (d : Draft) : Prop := ∀ before outer, d.opened ≠ ⟨.raw, before⟩ :: outer

/-- Adds several nodes. -/
def addAll (d : Draft) (nodes : List Node) : Draft := { d with done := nodes.reverse ++ d.done }

theorem addAll_cons (d : Draft) (node : Node) (nodes : List Node) :
    d.addAll (node :: nodes) = (d.add node).addAll nodes := by
  simp [addAll, add]

theorem IsLive.take_eq {d : Draft} (h : d.IsLive) (e : Element) : d.take e = d.takeElement e := by
  unfold take
  split
  · rename_i before outer heq
    exact absurd heq (h before outer)
  · rfl

theorem complete_of_take {d d' : Draft} {e : Element} (h : d.take e = .ok d')
    (es : List Element) : d.complete (e :: es) = d'.complete es := by
  rw [complete, h]

/-- A tag that begins a block opens it, whatever is open. -/
theorem takeTagInside_open {d : Draft} {name : String} {ts : List Term} {b : Block}
    (hname : name ∈ ["if", "unless", "for"]) (hb : Block.open? name ts = some (.ok b)) :
    d.takeTagInside name ts = .ok (d.enter b) := by
  simp only [List.mem_cons, List.not_mem_nil, or_false] at hname
  have hend : ∀ b : Block, name ≠ b.endTag := by
    intro b heq
    have hchars := congrArg String.toList heq
    rw [Block.endTag, String.toList_append] at hchars
    rcases hname with rfl | rfl | rfl <;> simp at hchars
  have hturn : ∀ (b : Block) (nodes : List Node), b.turn? nodes name ts = none := by
    intro b nodes
    rcases hname with rfl | rfl | rfl <;> cases b <;> simp [Block.turn?]
  have htag : d.takeTag name ts = .ok (d.enter b) := by
    rw [takeTag, hb]
    rfl
  unfold takeTagInside
  split
  · exact htag
  · rw [if_neg (hend _), hturn]
    exact htag

/-- The tag that ends the innermost block closes it. -/
theorem takeTagInside_end (b : Block) (before : List Node) (outer : List OpenBlock)
    (done : List Node) :
    (⟨⟨b, before⟩ :: outer, done⟩ : Draft).takeTagInside b.endTag [] =
      .ok ⟨outer, (b.finish done.reverse).reverse ++ before⟩ := by
  show (if b.endTag = b.endTag then _ else _) = _
  rw [if_pos rfl]
  rfl

end Draft

/-! ## What a text comes to -/

/-- A draft that meets the text `t` goes on with `nodes` added. -/
def ReadsAs (t : List Char) (nodes : List Node) : Prop :=
  ∀ (d : Draft) (rest : List Char), d.IsLive → EndsText rest →
    d.complete (elementsAfter 0 (t ++ rest)) = (d.addAll nodes).complete (elementsAfter 0 rest)

section
variable {g : List Char} {ns : List Node}

theorem ReadsAs.nil : ReadsAs [] [] := fun _ _ _ _ => rfl

theorem ReadsAs.text {t : String} (ht : isPlainText t.toList = true) (hne : t.toList ≠ [])
    (hg : EndsText g) (h : ReadsAs g ns) : ReadsAs (t.toList ++ g) (.text t :: ns) := by
  intro d rest hd hr
  have htake : d.take ⟨.text, t.toList⟩ = .ok (d.add (.text t)) := by
    rw [hd.take_eq, Draft.takeElement, String.ofList_toList]
  rw [List.append_assoc, elementsAfter_text ht hne (hg.append hr), Draft.complete_of_take htake,
    Draft.addAll_cons]
  exact h _ rest hd hr

theorem ReadsAs.output {s : String} {subject : Expression} {calls : List FilterCall}
    {p : Pipeline} (hs : IsElement s (.output subject calls))
    (hp : Pipeline.of? subject calls = some p) (h : ReadsAs g ns) :
    ReadsAs (s.toList ++ g) (.output p :: ns) := by
  intro d rest hd hr
  have htake : d.take ⟨.output subject calls, s.toList⟩ = .ok (d.add (.output p)) := by
    simp only [hd.take_eq, Draft.takeElement, hp]
  rw [List.append_assoc, elementsAfter_mark hs, Draft.complete_of_take htake, Draft.addAll_cons]
  exact h _ rest hd hr

/-! ## Blocks

Each form is followed from the draft that meets its first tag: the tag opens a block, the body
is read inside of it, further tags turn to other parts of it, and the last one closes it. -/

/-- A tag goes on with what it makes of the draft. -/
theorem complete_tag {s name : String} {ts : List Term} {d d' : Draft}
    (hs : IsElement s (.tag name ts)) (hd : d.IsLive) (h : d.takeTagInside name ts = .ok d')
    (rest : List Char) :
    d.complete (elementsAfter 0 (s.toList ++ rest)) = d'.complete (elementsAfter 0 rest) := by
  have htake : d.take ⟨.tag name ts, s.toList⟩ = .ok d' := by
    rw [hd.take_eq]
    exact h
  rw [elementsAfter_mark hs, Draft.complete_of_take htake]

theorem Block.isLive_enter {d : Draft} {b : Block} (h : b ≠ .raw) : (d.enter b).IsLive := by
  intro before outer heq
  simp only [Draft.enter, List.cons.injEq, OpenBlock.mk.injEq] at heq
  exact h heq.1.1

/-- A body inside a block that is open, and the tag behind it. -/
theorem ReadsAs.complete_inside {body bs} (hb : ReadsAs body bs) {s name : String} {ts : List Term}
    (hs : IsElement s (.tag name ts)) {b : Block} (hraw : b ≠ .raw) {d d' : Draft}
    (h : ((d.enter b).addAll bs).takeTagInside name ts = .ok d') (rest : List Char) :
    (d.enter b).complete (elementsAfter 0 (body ++ (s.toList ++ rest))) =
      d'.complete (elementsAfter 0 rest) := by
  have hlive : (d.enter b).IsLive := Block.isLive_enter hraw
  rw [hb _ _ hlive (.inr (hs.opens.append rest))]
  exact complete_tag (d := (d.enter b).addAll bs) hs hlive h rest

/-- The draft behind the tag that closes a block: the block's node is added. -/
theorem takeTagInside_end_enter (d : Draft) {b : Block} {bs : List Node} {node : Node}
    (h : b.finish bs = [node]) :
    ((d.enter b).addAll bs).takeTagInside b.endTag [] = .ok (d.add node) := by
  have hend := Draft.takeTagInside_end b d.done d.opened bs.reverse
  rw [List.reverse_reverse, h] at hend
  simpa [Draft.enter, Draft.addAll, Draft.add] using hend

theorem ReadsAs.loop {sf se : String} {ts : List Term} {head : LoopHead} {body bs}
    (hf : IsElement sf (.tag "for" ts)) (hhead : loopHead? ts = some head) (hb : ReadsAs body bs)
    (he : IsElement se (.tag "endfor" [])) (h : ReadsAs g ns) :
    ReadsAs (sf.toList ++ (body ++ (se.toList ++ g))) (.loop head bs [] :: ns) := by
  intro d rest hd hr
  have hopen : Block.open? "for" ts = some (.ok (.loop head)) := by
    simp [Block.open?, Block.open?.orMalformed, hhead]
  have hclose : ((d.enter (.loop head)).addAll bs).takeTagInside "endfor" [] =
      .ok (d.add (.loop head bs [])) := takeTagInside_end_enter d rfl
  simp only [List.append_assoc]
  rw [complete_tag hf hd (Draft.takeTagInside_open (by simp) hopen),
    hb.complete_inside he (by simp) hclose, Draft.addAll_cons]
  exact h _ rest hd hr

theorem ReadsAs.branch {si se : String} {ts : List Term} {c : Condition} {yes ys}
    (hi : IsElement si (.tag "if" ts)) (hc : condition? ts = some c) (hy : ReadsAs yes ys)
    (he : IsElement se (.tag "endif" [])) (h : ReadsAs g ns) :
    ReadsAs (si.toList ++ (yes ++ (se.toList ++ g))) (.branch c ys [] :: ns) := by
  intro d rest hd hr
  have hopen : Block.open? "if" ts = some (.ok (.branch "if" [] c)) := by
    simp [Block.open?, Block.open?.orMalformed, hc]
  have hclose : ((d.enter (.branch "if" [] c)).addAll ys).takeTagInside "endif" [] =
      .ok (d.add (.branch c ys [])) := takeTagInside_end_enter d rfl
  simp only [List.append_assoc]
  rw [complete_tag hi hd (Draft.takeTagInside_open (by simp) hopen),
    hy.complete_inside he (by simp) hclose, Draft.addAll_cons]
  exact h _ rest hd hr

theorem ReadsAs.unless {su se : String} {ts : List Term} {c : Condition} {yes ys}
    (hu : IsElement su (.tag "unless" ts)) (hc : condition? ts = some c) (hy : ReadsAs yes ys)
    (he : IsElement se (.tag "endunless" [])) (h : ReadsAs g ns) :
    ReadsAs (su.toList ++ (yes ++ (se.toList ++ g))) (.branch (.negated c) ys [] :: ns) := by
  intro d rest hd hr
  have hopen : Block.open? "unless" ts = some (.ok (.branch "unless" [] (.negated c))) := by
    simp [Block.open?, Block.open?.orMalformed, hc]
  have hclose : ((d.enter (.branch "unless" [] (.negated c))).addAll ys).takeTagInside
      "endunless" [] = .ok (d.add (.branch (.negated c) ys [])) := takeTagInside_end_enter d rfl
  simp only [List.append_assoc]
  rw [complete_tag hu hd (Draft.takeTagInside_open (by simp) hopen),
    hy.complete_inside he (by simp) hclose, Draft.addAll_cons]
  exact h _ rest hd hr

/-- The draft behind a tag that turns to another part of the block. -/
theorem takeTagInside_turn (d : Draft) {b b' : Block} {bs : List Node} {name : String}
    {ts : List Term} (hend : name ≠ b.endTag) (h : b.turn? bs name ts = some (.ok b')) :
    ((d.enter b).addAll bs).takeTagInside name ts = .ok (d.enter b') := by
  simp [Draft.takeTagInside, Draft.enter, Draft.addAll, hend, h, Except.map]

theorem ReadsAs.branchElse {si sl se : String} {ts : List Term} {c : Condition} {yes ys no xs}
    (hi : IsElement si (.tag "if" ts)) (hc : condition? ts = some c) (hy : ReadsAs yes ys)
    (hl : IsElement sl (.tag "else" [])) (hn : ReadsAs no xs) (he : IsElement se (.tag "endif" []))
    (h : ReadsAs g ns) :
    ReadsAs (si.toList ++ (yes ++ (sl.toList ++ (no ++ (se.toList ++ g)))))
      (.branch c ys xs :: ns) := by
  intro d rest hd hr
  have hopen : Block.open? "if" ts = some (.ok (.branch "if" [] c)) := by
    simp [Block.open?, Block.open?.orMalformed, hc]
  have hend : "else" ≠ "end" ++ "if" := by decide
  have hturn : ((d.enter (.branch "if" [] c)).addAll ys).takeTagInside "else" [] =
      .ok (d.enter (.branchElse "if" [(c, ys)])) := takeTagInside_turn d hend rfl
  have hclose : ((d.enter (.branchElse "if" [(c, ys)])).addAll xs).takeTagInside "endif" [] =
      .ok (d.add (.branch c ys xs)) := takeTagInside_end_enter d rfl
  simp only [List.append_assoc]
  rw [complete_tag hi hd (Draft.takeTagInside_open (by simp) hopen),
    hy.complete_inside hl (by simp) hturn, hn.complete_inside he (by simp) hclose,
    Draft.addAll_cons]
  exact h _ rest hd hr

theorem ReadsAs.branchElsif {si sl se : String} {ts us : List Term} {c c' : Condition}
    {yes ys no xs} (hi : IsElement si (.tag "if" ts)) (hc : condition? ts = some c)
    (hy : ReadsAs yes ys) (hl : IsElement sl (.tag "elsif" us)) (hc' : condition? us = some c')
    (hn : ReadsAs no xs) (he : IsElement se (.tag "endif" [])) (h : ReadsAs g ns) :
    ReadsAs (si.toList ++ (yes ++ (sl.toList ++ (no ++ (se.toList ++ g)))))
      (.branch c ys [.branch c' xs []] :: ns) := by
  intro d rest hd hr
  have hopen : Block.open? "if" ts = some (.ok (.branch "if" [] c)) := by
    simp [Block.open?, Block.open?.orMalformed, hc]
  have hend : "elsif" ≠ "end" ++ "if" := by decide
  have hturn : ((d.enter (.branch "if" [] c)).addAll ys).takeTagInside "elsif" us =
      .ok (d.enter (.branch "if" [(c, ys)] c')) :=
    takeTagInside_turn d hend (by simp [Block.turn?, hc'])
  have hclose : ((d.enter (.branch "if" [(c, ys)] c')).addAll xs).takeTagInside "endif" [] =
      .ok (d.add (.branch c ys [.branch c' xs []])) := takeTagInside_end_enter d rfl
  simp only [List.append_assoc]
  rw [complete_tag hi hd (Draft.takeTagInside_open (by simp) hopen),
    hy.complete_inside hl (by simp) hturn, hn.complete_inside he (by simp) hclose,
    Draft.addAll_cons]
  exact h _ rest hd hr

end

/-- A whole text that reads as nodes is that template. -/
theorem parseTemplate_of_reads {s : String} {nodes : List Node} (h : ReadsAs s.toList nodes) :
    parseTemplate s = .ok nodes := by
  have hlive : (⟨[], []⟩ : Draft).IsLive := fun before outer heq => by cases heq
  have heq := h ⟨[], []⟩ [] hlive (.inl rfl)
  rw [List.append_nil] at heq
  rw [parseTemplate, elements, heq]
  simp [Draft.addAll, elementsAfter, Draft.complete]

end MethodSkeleton
