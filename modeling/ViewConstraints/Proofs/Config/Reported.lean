import ViewConstraints.Proofs.Config.Reordered

/-!
# Which offence is reported

A document that is refused is refused for the first offence of the walk through it, so all that counts
is the place of this offence. `Revised` relates the values that have the same place first: what comes
after it may be anything, and what comes before it may be any keys that are not known and any known
keys with a value that is accepted. `first_offence_reported` says that such documents are refused
alike, and that the order of keys, which decides what comes first, does not decide whether a document
is accepted.
-/

namespace ViewConstraints.Config

open Toml (Value Entries)

/-! ## Changes around the first offence -/

/-- The elements of an array, in either way of writing it. -/
def elements? : Value → Option (List Value)
  | .array items => some items
  | .tables elements => some (elements.map Value.table)
  | _ => none

/-- Nothing offends under the known keys of some entries (for a whole document this is to be acceptable,
`offences_eq_nil_iff`). -/
def Wanted.Accepts (wanted : Wanted) (entries : Entries) : Prop :=
  ∀ e ∈ entries, ∀ p, wanted.place? e = some p → p.firstOffence = none

/-- Two values in which the place `o` is the first that offends. They differ in what comes after it,
which may be anything in both, and in what comes before it, which is not known or accepted in both. A
table that gives a priority still has one key, since how many it has is its own shape. -/
inductive Revised (o : Place) : Place → Place → Prop
  /-- The value in the place itself stays. -/
  | same : o.offence.isSome → Revised o o o
  /-- Entries of a table around the one that leads to the place. -/
  | entry {wanted want : Wanted} {name : String} {v v' : Value}
      {before before' after after' : Entries} :
    wanted.fields.lookup name = some want → wanted.Accepts before → wanted.Accepts before' →
    Revised o ⟨want, v⟩ ⟨want, v'⟩ →
    Revised o ⟨wanted, .table (before ++ (name, v) :: after)⟩
      ⟨wanted, .table (before' ++ (name, v') :: after')⟩
  /-- Elements of an array around the one that leads to the place. Each stands for the field at its
  position. -/
  | element {wanted want : Wanted} {name name' : String} {array array' v v' : Value}
      {before before' after after' : List Value} :
    elements? array = some (before ++ v :: after) → elements? array' = some (before' ++ v' :: after') →
    wanted.fields[before.length]? = some (name, want) →
    wanted.fields[before'.length]? = some (name', want) →
    wanted.Accepts (wanted.names.zip before) → wanted.Accepts (wanted.names.zip before') →
    Revised o ⟨want, v⟩ ⟨want, v'⟩ → Revised o ⟨wanted, array⟩ ⟨wanted, array'⟩
  /-- What stands under a name comes after the name. -/
  | name {name : String} {v v' : Value} :
    Revised o ⟨.priority, .string name⟩ ⟨.priority, .string name⟩ →
    Revised o ⟨.priority, .table [(name, v)]⟩ ⟨.priority, .table [(name, v')]⟩
  /-- The name comes before what stands under it. -/
  | contents {name name' : String} {v v' : Value} :
    nameOffence name = none → nameOffence name' = none →
    Revised o ⟨.nothing, v⟩ ⟨.nothing, v'⟩ →
    Revised o ⟨.priority, .table [(name, v)]⟩ ⟨.priority, .table [(name', v')]⟩

/-- A place is met on the walk through a value, and nothing offends before it. -/
def Place.Meets (p o : Place) : Prop :=
  ∃ before after, p.visited = before ++ o :: after ∧ ∀ q ∈ before, q.offence = none

/-- A revision can be taken back: what is asked of the one document is asked of the other. -/
theorem Revised.symm {o p p' : Place} (h : Revised o p p') : Revised o p' p := by
  induction h with
  | same ho => exact .same ho
  | entry hlookup hbefore hbefore' _ ih => exact .entry hlookup hbefore' hbefore ih
  | element harray harray' hfield hfield' hbefore hbefore' _ ih =>
    exact .element harray' harray hfield' hfield hbefore' hbefore ih
  | name _ ih => exact .name ih
  | contents hname hname' _ ih => exact .contents hname' hname ih

namespace Place

variable {o p q : Place}

theorem Meets.refl (p : Place) : p.Meets p :=
  ⟨[], p.inside.flatMap visited, visited_eq p, nofun⟩

/-- The first place that offends is met. -/
theorem Meets.firstOffence (h : p.Meets o) {e : ShapeError} (ho : o.offence = some e) :
    p.firstOffence = some e := by
  obtain ⟨before, after, hvisited, hbefore⟩ := h
  exact List.findSome?_eq_some_iff.2 ⟨before, o, after, hvisited, ho, hbefore⟩

/-- A place where no first offence is found has none at all. -/
theorem offence_of_firstOffence (h : p.firstOffence = none) : ∀ q ∈ p.visited, q.offence = none :=
  List.findSome?_eq_none_iff.1 h

/-- What is met in a place inside a value is met in the value, after the places before. -/
theorem Meets.inside {earlier later : List Place} (hp : p.offence = none)
    (hinside : p.inside = earlier ++ q :: later) (hearlier : ∀ x ∈ earlier, x.firstOffence = none)
    (h : q.Meets o) : p.Meets o := by
  obtain ⟨before, after, hvisited, hbefore⟩ := h
  refine ⟨p :: earlier.flatMap visited ++ before, after ++ later.flatMap visited, ?_, ?_⟩
  · rw [visited_eq, hinside, List.flatMap_append, List.flatMap_cons, hvisited]
    simp
  · intro x hx
    simp only [List.mem_append, List.mem_cons, List.mem_flatMap] at hx
    rcases hx with (rfl | ⟨y, hy, hx⟩) | hx
    · exact hp
    · exact offence_of_firstOffence (hearlier y hy) x hx
    · exact hbefore x hx

end Place

/-! ## Known keys and fields -/

theorem Wanted.names_nodup (wanted : Wanted) : wanted.names.Nodup := by
  cases wanted <;> decide

/-- An entry under a known key is a place where the field of that key is wanted. -/
theorem place?_of_lookup {wanted want : Wanted} {name : String}
    (h : wanted.fields.lookup name = some want) (v : Value) :
    wanted.place? (name, v) = some ⟨want, v⟩ := by
  rw [Wanted.place?, h]
  rfl

/-- A value with known fields has nothing wrong by itself. -/
theorem offence_of_namedFields {wanted want : Wanted} {name : String}
    (h : wanted.fields.lookup name = some want) {v : Value} {fields : Entries}
    (hfields : namedFields wanted.names v = some fields) :
    (⟨wanted, v⟩ : Place).offence = none := by
  cases wanted with
  | config => rfl
  | size =>
    have present : namedFields sizeNames v = some fields := hfields
    simp [Place.offence, fieldsOffence, present]
  | insets =>
    have present : namedFields insetsNames v = some fields := hfields
    simp [Place.offence, fieldsOffence, present]
  | number | priority | nothing => cases h

/-- What is met under a known key is met in the value, if what comes before is accepted. -/
theorem Place.Meets.field {wanted want : Wanted} {name : String} {a v : Value} {o : Place}
    {before after : Entries} (hlookup : wanted.fields.lookup name = some want)
    (hfields : namedFields wanted.names a = some (before ++ (name, v) :: after))
    (hbefore : wanted.Accepts before) (h : (⟨want, v⟩ : Place).Meets o) :
    (⟨wanted, a⟩ : Place).Meets o := by
  have inside : (⟨wanted, a⟩ : Place).inside = before.filterMap wanted.place? ++
      ⟨want, v⟩ :: after.filterMap wanted.place? := by
    rw [Place.inside_of_lookup hlookup, hfields, Option.getD_some, List.filterMap_append,
      List.filterMap_cons, place?_of_lookup hlookup]
  refine h.inside (offence_of_namedFields hlookup hfields) inside fun x hx => ?_
  obtain ⟨e, he, hplace⟩ := List.mem_filterMap.1 hx
  exact hbefore e he x hplace

/-- The elements of an array stand under the names of the fields in order, in either way of
writing it. -/
theorem namedFields_of_elements {array : Value} {items : List Value}
    (h : elements? array = some items) (names : List String) :
    namedFields names array = some (names.zip items) := by
  cases array <;> cases h <;> rfl

section Zip

variable {α β : Type} {names : List α} {before after : List β} {name : α} {v : β}

/-- Names and elements put together, cut at an element: it stands under the name at its position. -/
theorem zip_append_cons (h : names[before.length]? = some name) :
    names.zip (before ++ v :: after) =
      names.zip before ++ (name, v) :: (names.drop (before.length + 1)).zip after := by
  induction before generalizing names with
  | nil =>
    cases names <;> simp_all
  | cons w before ih =>
    cases names with
    | nil => cases h
    | cons first names => simpa using ih (by simpa using h)

/-- An entry of names and elements put together is one of a name and the element at its position. -/
theorem exists_of_zip_eq {items : List β} {pairs rest : List (α × β)}
    (h : names.zip items = pairs ++ (name, v) :: rest) :
    ∃ before after, items = before ++ v :: after ∧ names[before.length]? = some name ∧
      names.zip before = pairs := by
  obtain ⟨ws, xs, before, ys, hlength, rfl, rfl, rfl, hrest⟩ := List.zip_eq_append_iff.1 h
  obtain ⟨xs, after, rfl, rfl, -⟩ := List.zip_eq_cons_iff.1 hrest.symm
  refine ⟨before, after, rfl, by simp [← hlength], ?_⟩
  have cut := @List.zip_append _ _ ws (name :: xs) before [] hlength
  simpa using cut

end Zip

/-- The field at a position is known under its name, at the same position. -/
theorem names_of_fields {wanted want : Wanted} {name : String} {i : Nat}
    (h : wanted.fields[i]? = some (name, want)) :
    wanted.names[i]? = some name ∧ wanted.fields.lookup name = some want := by
  constructor
  · rw [Wanted.names, List.getElem?_map, h]
    rfl
  · exact lookup_of_mem wanted.names_nodup (List.mem_of_getElem? h)

/-- A name at a position leads to the field there, and not to another of the same name. -/
theorem fields_of_names {wanted want : Wanted} {name : String} {i : Nat}
    (h : wanted.names[i]? = some name) (hlookup : wanted.fields.lookup name = some want) :
    wanted.fields[i]? = some (name, want) := by
  rw [Wanted.names, List.getElem?_map] at h
  obtain ⟨field, hfield, rfl⟩ := Option.map_eq_some_iff.1 h
  have found := lookup_of_mem wanted.names_nodup (List.mem_of_getElem? hfield)
  have same : want = field.2 := Option.some.inj (hlookup.symm.trans found)
  rw [hfield, same]

/-! ## The first offence is kept -/

/-- The place that a revision is around is met in the value. -/
theorem Revised.meets {o p p' : Place} (h : Revised o p p') : p.Meets o := by
  induction h with
  | same _ => exact .refl o
  | entry hlookup hbefore _ _ ih => exact ih.field hlookup rfl hbefore
  | @element wanted want name _ array _ v _ before _ after _ harray _ hfield _ hbefore _ _ ih =>
    obtain ⟨hname, hlookup⟩ := names_of_fields hfield
    have fields := (namedFields_of_elements harray _).trans (congrArg some (zip_append_cons hname))
    exact ih.field hlookup fields hbefore
  | @name name v v' _ ih =>
    have inside : (⟨.priority, .table [(name, v)]⟩ : Place).inside =
      [] ++ ⟨.priority, .string name⟩ :: [⟨.nothing, v⟩] := rfl
    exact ih.inside rfl inside nofun
  | @contents name _ v _ hname _ _ ih =>
    have inside : (⟨.priority, .table [(name, v)]⟩ : Place).inside =
      [⟨.priority, .string name⟩] ++ ⟨.nothing, v⟩ :: [] := rfl
    refine ih.inside rfl inside fun x hx => ?_
    rw [List.mem_singleton.1 hx, Place.firstOffence_name, hname]

/-- A place inside a value is under a known key. -/
theorem exists_entry_of_places {wanted : Wanted} {fields : Entries} {earlier later : List Place}
    {q : Place} (h : fields.filterMap wanted.place? = earlier ++ q :: later)
    (hearlier : ∀ x ∈ earlier, x.firstOffence = none) :
    ∃ before name v after, fields = before ++ (name, v) :: after ∧ wanted.Accepts before ∧
      ∃ want, wanted.fields.lookup name = some want ∧ q = ⟨want, v⟩ := by
  obtain ⟨before, others, rfl, hplaces, hothers⟩ := List.filterMap_eq_append_iff.1 h
  obtain ⟨unknown, e, after, rfl, hunknown, he, -⟩ := List.filterMap_eq_cons_iff.1 hothers
  obtain ⟨want, hlookup, rfl⟩ := Option.map_eq_some_iff.1 he
  -- Entries before are those of an earlier place, or are not known.
  refine ⟨before ++ unknown, e.1, e.2, after, by simp, ?_, want, hlookup, rfl⟩
  intro x hx p hp
  rcases List.mem_append.1 hx with hx | hx
  · exact hearlier p (hplaces ▸ List.mem_filterMap.2 ⟨x, hx, hp⟩)
  · rw [hunknown x hx] at hp
    cases hp

/-- A value is a revision of itself around what it is one around inside, if nothing offends before.
Whatever way leads inside is one of the ways in which a revision is made. -/
theorem Revised.inside {o p q : Place} {earlier later : List Place}
    (hsplit : p.inside = earlier ++ q :: later)
    (hearlier : ∀ x ∈ earlier, x.firstOffence = none) (h : Revised o q q) : Revised o p p := by
  unfold Place.inside at hsplit
  split at hsplit
  case h_1 name contents =>
    match earlier with
    | [] =>
      obtain ⟨rfl, -⟩ := List.cons.inj hsplit
      exact .name h
    | [x] =>
      obtain ⟨rfl, hrest⟩ := List.cons.inj hsplit
      obtain ⟨rfl, -⟩ := List.cons.inj hrest
      have hname : nameOffence name = none := by
        rw [← Place.firstOffence_name, hearlier _ (.head _)]
      exact .contents hname hname h
    | x :: y :: rest => simp at hsplit
  case h_2 | h_3 | h_4 => simp at hsplit
  case h_5 wanted a _ _ _ _ =>
    obtain ⟨before, name, v, after, hfields, hbefore, want, hlookup, rfl⟩ :=
      exists_entry_of_places hsplit hearlier
    have element {items : List Value} (harray : elements? a = some items) :
        Revised o ⟨wanted, a⟩ ⟨wanted, a⟩ := by
      rw [namedFields_of_elements harray, Option.getD_some] at hfields
      obtain ⟨before, after, rfl, hname, rfl⟩ := exists_of_zip_eq hfields
      have hfield := fields_of_names hname hlookup
      exact .element harray harray hfield hfield hbefore hbefore h
    cases a with
    | table entries =>
      have hentries : entries = before ++ (name, v) :: after := hfields
      rw [hentries]
      exact .entry hlookup hbefore hbefore h
    | array | tables => exact element rfl
    | _ => simp [namedFields] at hfields

/-- A value in which something offends is a revision of itself, around the first place that does. -/
theorem exists_revised (p : Place) {e : ShapeError} (h : p.firstOffence = some e) :
    ∃ o, o.offence = some e ∧ Revised o p p := by
  rw [Place.firstOffence_eq, Option.or_eq_some_iff] at h
  rcases h with h | ⟨-, hinside⟩
  · exact ⟨p, h, .same (by simp [h])⟩
  obtain ⟨earlier, q, later, hsplit, hq, hearlier⟩ := List.findSome?_eq_some_iff.1 hinside
  have hmem : q ∈ p.inside := hsplit ▸ List.mem_append_right _ (.head _)
  obtain ⟨o, ho, hrevised⟩ := exists_revised q hq
  exact ⟨o, ho, hrevised.inside hsplit hearlier⟩
termination_by p.depth
decreasing_by exact Place.depth_lt_of_mem hmem

/-! ## Texts -/

/-- With its keys in another order a document is accepted exactly if it was accepted before. -/
theorem exists_ofText_of_reordered {text text' : String} {entries entries' : Entries}
    (h : Toml.parse text = some entries) (h' : Toml.parse text' = some entries')
    (hreordered : (Value.table entries).Reordered (.table entries')) :
    (∃ c, ofText text' = .ok c) ↔ ∃ c, ofText text = .ok c := by
  have perm := Place.offences_reordered hreordered .config
  rw [exists_ofText_iff h, exists_ofText_iff h', ← List.length_eq_zero_iff,
    ← List.length_eq_zero_iff]
  exact perm.length_eq ▸ Iff.rfl

/-- A size and a priority that both offend, in this order. -/
def sizeFirstText : String := "root_size = \"wide\"\npriority = \"urgent\"\n"

theorem parse_sizeFirst : Toml.parse sizeFirstText =
    some [("root_size", .string "wide"), ("priority", .string "urgent")] := by decide +kernel

/-- The same size and priority in the other order. -/
def priorityFirstText : String := "priority = \"urgent\"\nroot_size = \"wide\"\n"

theorem parse_priorityFirst : Toml.parse priorityFirstText =
    some [("priority", .string "urgent"), ("root_size", .string "wide")] := by decide +kernel

/-- Of two keys that offend, the one that comes first is reported. -/
theorem exists_reported_apart : ∃ one other doc doc' error error',
    Toml.parse one = some doc ∧ Toml.parse other = some doc' ∧
      (Value.table doc).Reordered (.table doc') ∧
      ofText one = .error error ∧ ofText other = .error error' ∧ error ≠ error' := by
  have reordered := List.Perm.swap ("priority", Value.string "urgent") ("root_size", .string "wide") []
  have size : ofText sizeFirstText = .error (.shape (.invalidType (.string "wide") .size)) := by
    rw [ofText, parse_sizeFirst]
    rfl
  have priority : ofText priorityFirstText = .error (.shape (.unknownPriority "urgent")) := by
    rw [ofText, parse_priorityFirst]
    rfl
  refine ⟨_, _, _, _, _, _, parse_sizeFirst, parse_priorityFirst, .keys reordered, size, priority, ?_⟩
  intro same
  cases same

/-- A text that holds a document, if it is refused, is refused for what is wrong with the first value
that offends on the walk through the document, and so is every text with a document that is revised
around this value. In another order of its keys a document is accepted exactly if it was, but another
value may be reported. -/
theorem first_offence_reported {text : String} {entries : Entries}
    (h : Toml.parse text = some entries) :
    (∀ error, ofText text = .error error → ∃ o e,
      (Place.document entries).Meets o ∧ o.offence = some e ∧ error = .shape e ∧
      Revised o (.document entries) (.document entries) ∧
      ∀ text' entries', Toml.parse text' = some entries' →
        Revised o (.document entries) (.document entries') → ofText text' = .error error) ∧
    (∀ text' entries', Toml.parse text' = some entries' →
      (Value.table entries).Reordered (.table entries') →
      ((∃ c, ofText text' = .ok c) ↔ ∃ c, ofText text = .ok c)) ∧
    ∃ one other doc doc' error error',
      Toml.parse one = some doc ∧ Toml.parse other = some doc' ∧
      (Value.table doc).Reordered (.table doc') ∧
      ofText one = .error error ∧ ofText other = .error error' ∧ error ≠ error' := by
  refine ⟨?_, fun text' entries' => exists_ofText_of_reordered h, exists_reported_apart⟩
  intro error herror
  obtain ⟨e, hfirst, rfl⟩ := (ofText_error_iff h).1 herror
  obtain ⟨o, ho, hrevised⟩ := exists_revised _ hfirst
  refine ⟨o, e, hrevised.meets, ho, rfl, hrevised, ?_⟩
  -- The revised document meets the same place first, since a revision goes both ways.
  intro text' entries' h' hrevision
  have first := hrevision.symm.meets.firstOffence ho
  exact (ofText_error_iff h').2 ⟨e, first, rfl⟩

/-- A document with a key that is not known, and three values that offend. One of them is past the last
field of a size. -/
def severalOffencesText : String :=
  "name = 1\nroot_size = [390, true, \"x\"]\npriority = \"urgent\"\n"

/-- The walk meets the second element of the size before what is past its last field and before the
priority, so that is what is reported. -/
theorem first_offence_reported_severalOffences : ∃ entries error,
    Toml.parse severalOffencesText = some entries ∧ ofText severalOffencesText = .error error ∧
    error = .shape (.invalidType (.boolean true) .number) ∧
    (∃ o e, (Place.document entries).Meets o ∧ o.offence = some e ∧ error = .shape e ∧
      Revised o (.document entries) (.document entries) ∧
      ∀ text' entries', Toml.parse text' = some entries' →
        Revised o (.document entries) (.document entries') → ofText text' = .error error) ∧
    ∀ text' entries', Toml.parse text' = some entries' →
      (Value.table entries).Reordered (.table entries') →
      ((∃ c, ofText text' = .ok c) ↔ ∃ c, ofText severalOffencesText = .ok c) := by
  have parsed : Toml.parse severalOffencesText = some [("name", .integer 1),
      ("root_size", .array [.integer 390, .boolean true, .string "x"]),
      ("priority", .string "urgent")] := by decide +kernel
  have refused : ofText severalOffencesText =
      .error (.shape (.invalidType (.boolean true) .number)) := by
    rw [ofText, parsed]
    rfl
  obtain ⟨reported, reordered, -⟩ := first_offence_reported parsed
  exact ⟨_, _, parsed, refused, rfl, reported _ refused, reordered⟩

end ViewConstraints.Config
