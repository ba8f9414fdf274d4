import ViewConstraints.Proofs.Config.Described

/-!
# The first offence of a document

A document is visited key by key: a known key is looked at for its value, then for what its value
holds under known keys, and then the next key has its turn. `Place.visited` is this walk, depth first
and in document order, and `Place.offence` says why a value is not what is wanted in its place,
whatever it holds. `ofEntries_error_iff` says that reading a document ends with the first offence of
the walk.

The walk goes into a table by its entries, and into an array by the fields that its elements stand
for. What has no place in it (keys that are not known, elements past the last field) cannot offend. A
table that gives a priority is looked at for its one key, which has to name a priority, and then for
what stands under it. How many keys it has is a matter of its own shape.
-/

namespace ViewConstraints.Config

open Toml (Value Entries)

/-! ## Places of a document -/

/-- What a value has to be. -/
inductive Wanted where
  | config
  | size
  | insets
  | number
  | priority
  /-- What stands under the name of a priority, and holds nothing. -/
  | nothing
  deriving DecidableEq, Repr

/-- The known keys of a value, and what is wanted under each, in field order. -/
def Wanted.fields : Wanted → List (String × Wanted)
  | config => [("root_size", .size), ("safe_area_insets", .insets), ("priority", .priority)]
  | size => sizeNames.map fun name => (name, .number)
  | insets => insetsNames.map fun name => (name, .number)
  | number | priority | nothing => []

/-- The names of the known keys, in field order. -/
def Wanted.names (wanted : Wanted) : List String := wanted.fields.map Prod.fst

/-- A value where something is wanted. -/
structure Place where
  wanted : Wanted
  value : Value

/-- The place of an entry, if its key is known. -/
def Wanted.place? (wanted : Wanted) (entry : String × Value) : Option Place :=
  (wanted.fields.lookup entry.1).map fun want => ⟨want, entry.2⟩

namespace Place

/-- The places right inside a value: what it holds under known keys, in document order. An array is
gone through in field order. -/
def inside : Place → List Place
  | ⟨.priority, .table [(name, contents)]⟩ => [⟨.priority, .string name⟩, ⟨.nothing, contents⟩]
  | ⟨.priority, _⟩ | ⟨.number, _⟩ | ⟨.nothing, _⟩ => []
  | ⟨wanted, v⟩ => ((namedFields wanted.names v).getD []).filterMap wanted.place?

/-- A bound on how deep the places inside a value are nested. -/
def depth : Place → Nat
  | ⟨.config, _⟩ => 2
  | ⟨.size, _⟩ | ⟨.insets, _⟩ | ⟨.priority, .table _⟩ => 1
  | _ => 0

/-- What is wanted under a known key is nested less deep than what has the key. -/
theorem depth_lt_of_lookup {wanted want : Wanted} {key : String}
    (h : wanted.fields.lookup key = some want) (v v' : Value) :
    depth ⟨want, v⟩ < depth ⟨wanted, v'⟩ := by
  have hmem := mem_of_lookup h
  cases wanted with
  | config =>
    simp only [Wanted.fields, List.mem_cons, Prod.mk.injEq, List.not_mem_nil, or_false] at hmem
    obtain ⟨-, rfl⟩ | ⟨-, rfl⟩ | ⟨-, rfl⟩ := hmem <;> cases v <;> simp [depth]
  | size | insets =>
    obtain ⟨name, -, hpair⟩ := List.mem_map.1 hmem
    cases hpair
    simp [depth]
  | number | priority | nothing => cases hmem

/-- The places inside a value are nested less deep, so that a walk through it ends. -/
theorem depth_lt_of_mem {p q : Place} (h : q ∈ p.inside) : q.depth < p.depth := by
  unfold inside at h
  split at h
  case h_1 name contents =>
    simp only [List.mem_cons, List.not_mem_nil, or_false] at h
    obtain rfl | rfl := h <;> simp [depth]
  case h_2 | h_3 | h_4 => cases h
  case h_5 wanted v _ _ _ _ =>
    obtain ⟨e, -, he⟩ := List.mem_filterMap.1 h
    obtain ⟨want, hwant, rfl⟩ := Option.map_eq_some_iff.1 he
    exact depth_lt_of_lookup hwant _ v

/-- The walk through a value, depth first. -/
def visited (p : Place) : List Place :=
  p :: p.inside.attach.flatMap fun q => q.1.visited
termination_by p.depth
decreasing_by exact depth_lt_of_mem q.2

/-- A walk visits a value and then walks through what is inside it, place by place. -/
theorem visited_eq (p : Place) : p.visited = p :: p.inside.flatMap visited := by
  rw [visited, List.flatMap_subtype (g := visited) fun _ _ => rfl, List.unattach_attach]

end Place

/-! ## Offences -/

/-- Why a name is no priority. -/
def nameOffence (name : String) : Option ShapeError :=
  if (priorities.lookup name).isSome then none else some (.unknownPriority name)

/-- Why a value is no priority. What a table with one key holds is looked at in its own places. -/
def priorityOffence : Value → Option ShapeError
  | .string name => nameOffence name
  | .table [] => some .noPriority
  | .table [_] => none
  | .table _ => some .severalPriorities
  | _ => some .priorityNotNamed

/-- Why a value may not stand under the name of a priority. -/
def contentsOffence (v : Value) : Option ShapeError :=
  if isEmptyContainer v then none
  else match v with
    | .table _ | .array _ => some .contentsNotEmpty
    | .tables _ => some .elementsNotEmpty
    | v => some (.contentsNotTable v.typeName)

/-- Why a value has no fields where it should have some. -/
def fieldsOffence (expected : Expected) (names : List String) (v : Value) : Option ShapeError :=
  if (namedFields names v).isSome then none else some (.invalidType (.ofValue v) expected)

/-- Why a value is no number. -/
def numberOffence (v : Value) : Option ShapeError :=
  if (numberOf v).isSome then none else some (.invalidType (.ofValue v) .number)

namespace Place

/-- Why a value is not what is wanted in its place, if it is not. What it holds in places of its own
does not count. -/
def offence : Place → Option ShapeError
  | ⟨.config, _⟩ => none
  | ⟨.size, v⟩ => fieldsOffence .size sizeNames v
  | ⟨.insets, v⟩ => fieldsOffence .insets insetsNames v
  | ⟨.number, v⟩ => numberOffence v
  | ⟨.priority, v⟩ => priorityOffence v
  | ⟨.nothing, v⟩ => contentsOffence v

/-- All offences of a walk, in order. -/
def offences (p : Place) : List ShapeError := p.visited.filterMap offence

/-- The first offence of a walk. -/
def firstOffence (p : Place) : Option ShapeError := p.visited.findSome? offence

/-- The offences of a value are its own and then those of the places inside it, in order. -/
theorem offences_eq (p : Place) :
    p.offences = p.offence.toList ++ p.inside.flatMap offences := by
  rw [offences, visited_eq, List.filterMap_cons, List.filterMap_flatMap]
  cases p.offence <;> rfl

/-- The first offence is the first in the list of all. -/
theorem head?_offences (p : Place) : p.offences.head? = p.firstOffence := List.head?_filterMap

/-- A value is looked at before what it holds. -/
theorem firstOffence_eq (p : Place) :
    p.firstOffence = p.offence.or (p.inside.findSome? firstOffence) := by
  rw [← head?_offences, offences_eq, List.head?_append, Option.head?_toList, List.head?_flatMap]
  simp only [head?_offences]

/-! ## Reading in places -/

/-- A value with known keys has a place inside it for each of its entries that is known. A priority is
none of these: its places are cut out otherwise. -/
theorem inside_of_lookup {wanted want : Wanted} {key : String}
    (h : wanted.fields.lookup key = some want) (v : Value) :
    inside ⟨wanted, v⟩ = ((namedFields wanted.names v).getD []).filterMap wanted.place? := by
  cases wanted with
  | config | size | insets => rfl
  | number | priority | nothing => cases h

/-- A value with no place inside it can only offend by itself. -/
theorem firstOffence_of_inside {p : Place} (h : p.inside = []) : p.firstOffence = p.offence := by
  rw [firstOffence_eq, h, List.findSome?_nil, Option.or_none]

/-- A number is looked at by itself. -/
theorem firstOffence_number (v : Value) : firstOffence ⟨.number, v⟩ = numberOffence v :=
  firstOffence_of_inside rfl

/-- What stands under the name of a priority is looked at by itself. -/
theorem firstOffence_nothing (v : Value) : firstOffence ⟨.nothing, v⟩ = contentsOffence v :=
  firstOffence_of_inside rfl

/-- The name of a priority is looked at by itself. -/
theorem firstOffence_name (name : String) :
    firstOffence ⟨.priority, .string name⟩ = nameOffence name :=
  firstOffence_of_inside rfl

/-- A table with one key gives a priority by its name, and then by what stands under it. -/
theorem firstOffence_named (name : String) (contents : Value) :
    firstOffence ⟨.priority, .table [(name, contents)]⟩ =
      (nameOffence name).or (contentsOffence contents) := by
  rw [firstOffence_eq, offence, priorityOffence, Option.none_or, inside, List.findSome?_cons,
    firstOffence_name, List.findSome?_singleton, firstOffence_nothing]
  cases nameOffence name <;> rfl

end Place

/-! ## Reading ends with the first offence -/

/-- What is read after something else is refused for the first reason that there is. -/
theorem bind_error_iff {α β : Type} {x : Except ShapeError α} {f : α → Except ShapeError β}
    {o o' : Option ShapeError} (hx : ∀ error, x = .error error ↔ o = some error)
    (hf : ∀ a error, f a = .error error ↔ o' = some error) (error : ShapeError) :
    x.bind f = .error error ↔ o.or o' = some error := by
  cases h : x with
  | error first =>
    rw [(hx first).1 h]
    simp [Except.bind]
  | ok a =>
    have passed : o = none := by
      refine Option.eq_none_iff_forall_ne_some.2 fun error' herror => ?_
      rw [(hx error').2 herror] at h
      cases h
    rw [passed, Option.none_or]
    exact hf a error

/-- A number is refused for its offence. -/
theorem readNumber_error_iff {v : Value} {error : ShapeError} :
    readNumber v = .error error ↔ (⟨.number, v⟩ : Place).firstOffence = some error := by
  rw [Place.firstOffence_number]
  cases v <;> simp [readNumber, numberOffence, numberOf]

/-- To put a value that was read into a field is never refused. -/
theorem readField_error_iff {α β : Type} {read : Value → Except ShapeError β} {set : α → β → α}
    {v : Value} {a : α} {error : ShapeError} :
    readField read set v a = .error error ↔ read v = .error error := by
  rw [readField]
  cases read v <;> simp [Except.map]

section FoldKnown

variable {α : Type} {known : String → Option (Value → α → Except ShapeError α)} {wanted : Wanted}
  {error : ShapeError}

/-- What is known is what is wanted, and reading what is known ends with its first offence. -/
def ReadsBy (known : String → Option (Value → α → Except ShapeError α)) (wanted : Wanted) : Prop :=
  ∀ key, Option.Rel (fun read want => ∀ v a error, read v a = .error error ↔
    (⟨want, v⟩ : Place).firstOffence = some error) (known key) (wanted.fields.lookup key)

/-- Entries are read up to the first one that is refused, by induction on them. Those that are not
known are passed over in both. -/
theorem ReadsBy.foldKnown_error_iff (h : ReadsBy known wanted) (entries : Entries) (start : α) :
    foldKnown known start entries = .error error ↔
      (entries.filterMap wanted.place?).findSome? Place.firstOffence = some error := by
  induction entries generalizing start error with
  | nil => exact iff_of_false nofun nofun
  | cons e rest ih =>
    have first := h e.1
    rw [foldKnown, List.foldlM_cons, List.filterMap_cons, Wanted.place?]
    generalize known e.1 = read at first ⊢
    generalize wanted.fields.lookup e.1 = want at first ⊢
    cases first with
    | none => exact ih start
    | @some read want refuses =>
      have chained := bind_error_iff (refuses e.2 start) (fun a _ => ih a) error
      rw [Option.map_some, List.findSome?_cons]
      refine chained.trans ?_
      cases (⟨want, e.2⟩ : Place).firstOffence <;> rfl

end FoldKnown

/-- In a table that gives every key the same, a key is found if it is there. -/
theorem lookup_map_pair {β : Type} (b : β) (names : List String) (key : String) :
    (names.map fun name => (name, b)).lookup key = if key ∈ names then some b else none := by
  induction names with
  | nil => rfl
  | cons name names ih =>
    rw [List.map_cons, List.lookup_cons, ih]
    by_cases h : key = name
    · simp [h]
    · rw [beq_eq_false_iff_ne.2 h]
      simp [h]

section ReadFields

variable {α : Type} {named : List (String × (α → Float → α))} {expected : Expected} {start : α}
  {wanted : Wanted}

/-- Fields that are numbers are read by the names they have. -/
theorem readsBy_knownField
    (hfields : wanted.fields = (named.map Prod.fst).map fun name => (name, .number)) :
    ReadsBy (knownField named) wanted := by
  intro key
  rw [knownField, hfields, lookup_map_pair]
  cases hlookup : named.lookup key with
  | none =>
    rw [if_neg (notMem_keys_of_lookup hlookup)]
    exact .none
  | some set =>
    rw [if_pos (List.mem_map_of_mem (mem_of_lookup hlookup))]
    refine .some fun v a error => ?_
    rw [readField_error_iff, readNumber_error_iff]

/-- A group of numbers is refused for its own shape, or for the first number that is refused. It does
not matter whether it is written as a table or as an array, since the walk goes by names in both. -/
theorem readFields_error_iff (hnames : (named.map Prod.fst).Nodup)
    (hfields : wanted.fields = (named.map Prod.fst).map fun name => (name, .number))
    (hoffence : ∀ v, (⟨wanted, v⟩ : Place).offence = fieldsOffence expected (named.map Prod.fst) v)
    (hinside : ∀ v, (⟨wanted, v⟩ : Place).inside =
      ((namedFields (named.map Prod.fst) v).getD []).filterMap wanted.place?)
    {v : Value} {error : ShapeError} :
    readFields named expected start v = .error error ↔
      (⟨wanted, v⟩ : Place).firstOffence = some error := by
  rw [readFields_eq hnames, Place.firstOffence_eq, hoffence, hinside, fieldsOffence]
  cases namedFields (named.map Prod.fst) v with
  | none =>
    simp
  | some entries =>
    -- The value has fields, so what offends is one of them.
    simp [(readsBy_knownField hfields).foldKnown_error_iff]

end ReadFields

/-- A size is refused for its first offence. -/
theorem readSize_error_iff {v : Value} {error : ShapeError} :
    readSize v = .error error ↔ (⟨.size, v⟩ : Place).firstOffence = some error :=
  readFields_error_iff (by decide) rfl (fun _ => rfl) (fun _ => rfl)

/-- Insets are refused for their first offence. -/
theorem readInsets_error_iff {v : Value} {error : ShapeError} :
    readInsets v = .error error ↔ (⟨.insets, v⟩ : Place).firstOffence = some error :=
  readFields_error_iff (by decide) rfl (fun _ => rfl) (fun _ => rfl)

/-- A name is refused exactly if it names no priority. -/
theorem priorityNamed_error_iff {name : String} {error : ShapeError} :
    priorityNamed name = .error error ↔ nameOffence name = some error := by
  unfold priorityNamed
  split
  case h_5 required strong medium weak =>
    have unknown : priorities.lookup name = none := by
      refine lookup_of_notMem_keys ?_
      simpa [priorities] using ⟨required, strong, medium, weak⟩
    simp [nameOffence, unknown]
  all_goals simp [nameOffence, priorities, List.lookup_cons]

/-- What stands under the name of a priority is refused unless it is an empty container. -/
theorem emptyContents_error_iff {v : Value} {error : ShapeError} :
    emptyContents v = .error error ↔ contentsOffence v = some error := by
  unfold emptyContents contentsOffence
  split <;> simp_all [isEmptyContainer]

/-- A priority is refused for its first offence. A table with one key is looked at for the
key first. -/
theorem readPriority_error_iff {error : ShapeError} : ∀ {v : Value},
    readPriority v = .error error ↔ (⟨.priority, v⟩ : Place).firstOffence = some error
  | .string name => by
    rw [Place.firstOffence_name, ← priorityNamed_error_iff]
    rfl
  | .table [(name, contents)] => by
    have emptied (p : Priority) (error : ShapeError) :
        ((emptyContents contents).bind fun _ => .ok p) = .error error ↔
          contentsOffence contents = some error := by
      rw [← emptyContents_error_iff]
      cases emptyContents contents <;> simp [Except.bind]
    rw [Place.firstOffence_named]
    exact bind_error_iff (fun _ => priorityNamed_error_iff) emptied error
  | .table [] | .table (_ :: _ :: _) | .integer _ | .float _ | .boolean _ | .dateTime | .array _
  | .tables _ => by
    rw [Place.firstOffence_of_inside rfl]
    simp [readPriority, Place.offence, priorityOffence]

/-! ## Documents -/

/-- A whole document, which has to be a configuration. -/
def Place.document (entries : Entries) : Place := ⟨.config, .table entries⟩

/-- What the keys of a configuration do to it is refused for what is wanted under them. -/
theorem readsBy_known : ReadsBy known .config := by
  intro key
  unfold known
  split
  case h_1 => exact .some fun v a error => by rw [readField_error_iff, readSize_error_iff]
  case h_2 => exact .some fun v a error => by rw [readField_error_iff, readInsets_error_iff]
  case h_3 => exact .some fun v a error => by rw [readField_error_iff, readPriority_error_iff]
  case h_4 size insets priority =>
    have unknown : Wanted.config.fields.lookup key = none := by
      refine lookup_of_notMem_keys ?_
      simpa [Wanted.fields] using ⟨size, insets, priority⟩
    rw [unknown]
    exact .none

/-- Reading a document ends with its first offence. -/
theorem ofEntries_error_iff {entries : Entries} {error : ShapeError} :
    ofEntries entries = .error error ↔ (Place.document entries).firstOffence = some error := by
  rw [ofEntries, readsBy_known.foldKnown_error_iff, Place.document, Place.firstOffence_eq]
  rfl

/-- A document is read exactly if nothing in it offends. -/
theorem exists_ofEntries_iff_offences {entries : Entries} :
    (∃ c, ofEntries entries = .ok c) ↔ (Place.document entries).offences = [] := by
  rw [← List.head?_eq_none_iff, Place.head?_offences]
  cases hread : ofEntries entries with
  | error error =>
    rw [ofEntries_error_iff.1 hread]
    exact iff_of_false nofun nofun
  | ok c =>
    refine iff_of_true ⟨c, rfl⟩ (Option.eq_none_iff_forall_ne_some.2 fun error herror => ?_)
    rw [ofEntries_error_iff.2 herror] at hread
    cases hread

/-- Nothing offends in a document exactly if its known keys have values of their shapes. -/
theorem offences_eq_nil_iff {entries : Entries} (h : Entries.Distinct entries) :
    (Place.document entries).offences = [] ↔ Acceptable entries :=
  exists_ofEntries_iff_offences.symm.trans (exists_ofEntries_iff h)

section Texts

variable {text : String} {entries : Entries} (h : Toml.parse text = some entries)
include h

/-- A text that holds a document is refused for the first offence of the document, and for nothing
else. -/
theorem ofText_error_iff {error : LoadError} : ofText text = .error error ↔
    ∃ e, (Place.document entries).firstOffence = some e ∧ error = .shape e := by
  rw [ofText, h]
  simp only [← ofEntries_error_iff]
  cases ofEntries entries <;> simp [Except.mapError, eq_comm]

/-- A text that holds a document is read exactly if nothing in the document offends. -/
theorem exists_ofText_iff :
    (∃ c, ofText text = .ok c) ↔ (Place.document entries).offences = [] := by
  rw [← exists_ofEntries_iff_offences, ofText, h]
  dsimp only
  cases ofEntries entries <;> simp [Except.mapError]

end Texts

end ViewConstraints.Config
