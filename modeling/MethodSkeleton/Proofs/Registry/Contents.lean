/-
# `MethodSkeleton.Proofs.Registry.Contents` — what a registry holds after any inserts

A registry is a map: of every name it has the text that was put under it last, and all that can be
asked of it agrees with that (`registry_contents`).  Its names stand in the order of their bytes.

What one insert does to the value of a name is the step (`NameMap.get?_insert`); after a list of
inserts a name has what the last of them for that name put there, or what it had before
(`NameMap.get?_insertAll`).  Since the entries are in order, a map is nothing but these answers
(`NameMap.ext_get?`), and so inserts for different names can be exchanged.
-/
import Mathlib.Data.List.Forall2
import MethodSkeleton.Proofs.Text.Bytes
import MethodSkeleton.Registry.Builtin

namespace MethodSkeleton

/-! ## Maps from names -/

/-- Lists in one strict order are equal if they have the same members. -/
theorem eq_of_pairwise_of_mem {β : Type} {r : β → β → Prop} (hasymm : ∀ a b, r a b → ¬ r b a)
    {as bs : List β} (ha : as.Pairwise r) (hb : bs.Pairwise r) (hmem : ∀ e, e ∈ as ↔ e ∈ bs) :
    as = bs := by
  have hnodup : ∀ {es : List β}, es.Pairwise r → es.Nodup := fun hes => hes.imp <| by
    rintro a _ hab rfl
    exact hasymm a a hab hab
  have hperm : as.Perm bs := (List.perm_ext_iff_of_nodup (hnodup ha) (hnodup hb)).mpr hmem
  exact hperm.eq_of_pairwise (fun a b _ _ hab hba => absurd hba (hasymm a b hab)) ha hb

namespace NameMap

variable {α : Type}

/-- The value of the last insert for a name. -/
def latest? (inserts : List (String × α)) (name : String) : Option α := inserts.reverse.lookup name

theorem latest?_cons (key : String) (value : α) (inserts : List (String × α)) (name : String) :
    latest? ((key, value) :: inserts) name =
      (latest? inserts name).or (if name = key then some value else none) := by
  rw [latest?, List.reverse_cons, List.lookup_append, lookup_entries_cons]
  rfl

/-- The last insert for a name is one with no other for the name behind it. -/
theorem latest?_eq_some_iff {inserts : List (String × α)} {name : String} {value : α} :
    latest? inserts name = some value ↔
      ∃ before after, inserts = before ++ (name, value) :: after ∧ ∀ e ∈ after, e.1 ≠ name := by
  rw [latest?, List.lookup_eq_some_iff]
  constructor
  · rintro ⟨after, before, hsplit, hafter⟩
    refine ⟨before.reverse, after.reverse, ?_, fun e he hname => ?_⟩
    · rw [← List.reverse_inj, hsplit]
      simp
    · exact bne_iff_ne.mp (hafter e (List.mem_reverse.mp he)) hname.symm
  · rintro ⟨before, after, rfl, hafter⟩
    refine ⟨after.reverse, before.reverse, by simp, fun e he => ?_⟩
    exact bne_iff_ne.mpr (hafter e (List.mem_reverse.mp he)).symm

/-- Inserts that are related one by one give a name related values. -/
theorem rel_latest? {β : Type} {P : α → β → Prop} {inserts : List (String × α)}
    {others : List (String × β)}
    (h : List.Forall₂ (fun e t => t.1 = e.1 ∧ P e.2 t.2) inserts others) (name : String) :
    Option.Rel P (latest? inserts name) (latest? others name) := by
  have hlookup : ∀ {es : List (String × α)} {ts : List (String × β)},
      List.Forall₂ (fun e t => t.1 = e.1 ∧ P e.2 t.2) es ts →
        Option.Rel P (es.lookup name) (ts.lookup name) := by
    intro es ts h
    induction h with
    | nil => exact .none
    | cons hfirst _ ih =>
        obtain ⟨hname, hP⟩ := hfirst
        rw [lookup_entries_cons, lookup_entries_cons, hname]
        split
        · exact .some hP
        · exact ih
  exact hlookup (List.rel_reverse h)

/-- **The last insert counts.**  After a list of inserts a name has the value of the last of them
that is for it, or else what it had before. -/
theorem get?_insertAll (m : NameMap α) (inserts : List (String × α)) (name : String) :
    (m.insertAll inserts).get? name = (latest? inserts name).or (m.get? name) := by
  induction inserts generalizing m with
  | nil => rfl
  | cons first inserts ih =>
      obtain ⟨key, value⟩ := first
      rw [insertAll, ih, get?_insert, latest?_cons, Option.or_assoc]
      split
      · rfl
      · rfl

/-- In entries in ascending order every name has only one value. -/
theorem latest?_of_ascending {entries : List (String × α)} (h : Ascending entries)
    (name : String) : latest? entries name = entries.lookup name := by
  induction entries with
  | nil => rfl
  | cons e entries ih =>
      obtain ⟨hfirst, hrest⟩ := List.pairwise_cons.mp h
      rw [latest?_cons, ih hrest, lookup_entries_cons]
      split
      · rename_i hname
        rw [lookup_eq_none_of_lt fun f hf => hname ▸ hfirst f hf]
        rfl
      · exact Option.or_none

theorem mem_entries_iff (m : NameMap α) (e : String × α) :
    e ∈ m.entries ↔ m.get? e.1 = some e.2 := by
  obtain ⟨name, value⟩ := e
  rw [get?, List.lookup_eq_some_iff]
  constructor
  · intro hmem
    obtain ⟨before, after, hsplit⟩ := List.append_of_mem hmem
    refine ⟨before, after, hsplit, fun p hp => bne_iff_ne.mpr ?_⟩
    have hascending := m.ascending
    rw [hsplit, Ascending, List.pairwise_append] at hascending
    exact (String.ne_of_lt (hascending.2.2 p hp _ List.mem_cons_self)).symm
  · rintro ⟨before, after, hsplit, _⟩
    simp [hsplit]

/-- A map is what it answers. -/
theorem ext_get? {m m' : NameMap α} (h : ∀ name, m.get? name = m'.get? name) : m = m' := by
  have hentries : m.entries = m'.entries := by
    refine eq_of_pairwise_of_mem (fun a b hab hba => ?_) m.ascending m'.ascending fun e => ?_
    · exact String.lt_irrefl a.1 (String.lt_trans hab hba)
    · rw [mem_entries_iff, mem_entries_iff, h]
  cases m
  cases hentries
  rfl

/-- Inserts for different names can be exchanged. -/
theorem insert_comm (m : NameMap α) {name other : String} (h : name ≠ other) (value value' : α) :
    ((m.insert name value).2.insert other value').2 =
      ((m.insert other value').2.insert name value).2 := by
  refine ext_get? fun key => ?_
  simp only [get?_insert]
  split
  · rename_i hkey
    rw [if_neg fun hname => h (hname.symm.trans hkey)]
  · rfl

theorem size_eq (m : NameMap α) : m.size = m.names.length := (List.length_map _).symm

theorem isEmpty_iff (m : NameMap α) : m.isEmpty = true ↔ m.size = 0 := by
  rw [isEmpty, size, List.isEmpty_iff, List.length_eq_zero_iff]

/-- The names are in the order of their bytes. -/
theorem pairwise_bytesBefore (m : NameMap α) : m.names.Pairwise BytesBefore :=
  m.pairwise_names.imp fun hlt => bytesBefore_iff.mpr hlt

end NameMap

/-! ## Registries -/

section
variable {r : Registry} {name text : String}

theorem find_eq (r : Registry) (name : String) :
    r.find name = (r.get? name).elim (.error (.notFound name)) .ok := by
  rw [Registry.find]
  cases r.get? name <;> rfl

theorem find_ok_iff : r.find name = .ok text ↔ r.get? name = some text := by
  rw [Registry.find]
  cases r.get? name <;> simp

theorem find_error_iff {e : RegistryError} :
    r.find name = .error e ↔ r.get? name = none ∧ .notFound name = e := by
  rw [Registry.find]
  cases r.get? name <;> simp

theorem find_congr {r' : Registry} (h : r'.get? name = r.get? name) :
    r'.find name = r.find name := by
  rw [find_eq, find_eq, h]

theorem toOption_find (r : Registry) (name : String) : (r.find name).toOption = r.get? name := by
  rw [find_eq]
  cases r.get? name <;> rfl

/-- The names of a registry are in their order, and there is no other list of them. -/
theorem eq_names {names : List String} (h : names.Pairwise BytesBefore)
    (hmem : ∀ name, name ∈ names ↔ name ∈ r.names) : names = r.names := by
  refine eq_of_pairwise_of_mem (fun a b hab hba => ?_) h (NameMap.pairwise_bytesBefore r) hmem
  exact String.lt_irrefl a (String.lt_trans (bytesBefore_iff.mp hab) (bytesBefore_iff.mp hba))

end

/-- The texts that come with the program. -/
def builtinText? (name : String) : Option String :=
  if name = "stub" then some Builtin.stub
  else if name = "mock" then some Builtin.mock
  else if name = "test" then some Builtin.test
  else none

theorem get?_builtin (name : String) : Registry.builtin.get? name = builtinText? name := by
  simp only [Registry.builtin, NameMap.insertAll, NameMap.get?_insert, NameMap.get?_empty,
    builtinText?]
  grind

/-- How a registry begins, and what it holds then. -/
inductive Begins : Registry → (String → Option String) → Prop
  | empty : Begins .empty fun _ => none
  | builtin : Begins .builtin builtinText?

theorem Begins.get?_eq {start : Registry} {own : String → Option String} (h : Begins start own)
    (name : String) : start.get? name = own name := by
  cases h with
  | empty => rfl
  | builtin => exact get?_builtin name

/-- **A registry holds what was put into it last.**  After any inserts into an empty registry or
into that of the built-in templates: asked for a name, it answers with the text of the last insert
for the name, or else with the built-in one, or else that there is none of that name; the next
insert answers what the registry would have answered for its name, gives the name its text and
leaves all other names as they are; the names are listed in the order of their bytes, each once, and
they are those that have a text; the size is their number, and the registry is empty if that is
zero; and two inserts for different names can be exchanged. -/
theorem registry_contents {start : Registry} {own : String → Option String}
    (hstart : Begins start own) (inserts : List (String × String)) :
    let r : Registry := start.insertAll inserts
    (∀ name, r.find name =
      ((NameMap.latest? inserts name).or (own name)).elim (.error (.notFound name)) .ok) ∧
    (∀ name text, (r.insert name text).1 = (r.find name).toOption ∧
      Registry.find (r.insert name text).2 name = .ok text ∧
      ∀ other ≠ name, Registry.find (r.insert name text).2 other = r.find other) ∧
    r.names.Pairwise BytesBefore ∧
    (∀ name, name ∈ r.names ↔ ∃ text, r.find name = .ok text) ∧
    r.size = r.names.length ∧ (r.isEmpty = true ↔ r.size = 0) ∧
    ∀ name other text text', name ≠ other →
      ((r.insert name text).2.insert other text').2 =
        ((r.insert other text').2.insert name text).2 ∧
      ((r.insert name text).2.insert other text').1 = (r.insert other text').1 := by
  intro r
  refine ⟨fun name => ?_, fun name text => ⟨?_, ?_, fun other hother => ?_⟩,
    r.pairwise_bytesBefore, fun name => ?_, r.size_eq, r.isEmpty_iff,
    fun name other text text' hne => ⟨r.insert_comm hne text text', ?_⟩⟩
  · rw [find_eq, NameMap.get?_insertAll, hstart.get?_eq]
  · rw [NameMap.fst_insert, toOption_find]
  · rw [find_ok_iff, NameMap.get?_insert, if_pos rfl]
  · exact find_congr (by rw [NameMap.get?_insert, if_neg hother])
  · rw [NameMap.mem_names_iff, Option.isSome_iff_exists]
    exact exists_congr fun text => find_ok_iff.symm
  · rw [NameMap.fst_insert, NameMap.fst_insert, NameMap.get?_insert, if_neg hne.symm]

theorem registry_contents_replaced :
    let inserts := [("stub", "x"), ("a", "y"), ("stub", "z")]
    let r : Registry := Registry.builtin.insertAll inserts
    Begins .builtin builtinText? ∧
      r.find "stub" = .ok "z" ∧ r.find "mock" = .ok Builtin.mock ∧
      r.find "b" = .error (.notFound "b") ∧
      (r.insert "a" "w").1 = some "y" ∧ Registry.find (r.insert "a" "w").2 "stub" = r.find "stub" ∧
      r.names.Pairwise BytesBefore := by
  intro inserts r
  obtain ⟨hfind, hinsert, hnames, _⟩ := registry_contents .builtin inserts
  have hstub := hfind "stub"
  have hmock := hfind "mock"
  have hb := hfind "b"
  obtain ⟨hold, _, hothers⟩ := hinsert "a" "w"
  have ha := hfind "a"
  rw [ha] at hold
  exact ⟨.builtin, hstub, hmock, hb, hold, hothers "stub" (by decide), hnames⟩

end MethodSkeleton
