import ViewConstraints.Config.Load
import ViewConstraints.Proofs.Toml.Distinct

/-!
# What a document describes

A configuration is read off a document key by key, and each key is accepted or refused for the shape of
its value. `Acceptable` and `described` say which documents are accepted and what they describe,
without regard to how they are read: by the value of each known key, by name in tables and by position
in arrays. `ofText_ok_iff` says that reading a text gives just that. What is not known has no part in
it, at any depth (`knownParts`).
-/

namespace ViewConstraints.Config

open Toml (Value Entries)

/-! ## Acceptable documents -/

/-- The number that a value is. -/
def numberOf : Value → Option Float
  | .integer n => some (Decimal.ofInt n)
  | .float x => some x
  | _ => none

/-- What a value has for fields with names: a table has what is under the names, and an array what is
at their positions. A date-time has none of them, and no other value can have fields. -/
def knownFields (names : List String) : Value → Option (List (Option Value))
  | .table entries => some (names.map fun name => entries.lookup name)
  | .dateTime => some (names.map fun _ => none)
  | .array items => some ((List.range names.length).map fun i => items[i]?)
  | .tables elements => some ((List.range names.length).map fun i => elements[i]?.map Value.table)
  | _ => none

/-- A value has fields with names, and each one that it has is a number. -/
def HasFields (names : List String) (v : Value) : Prop :=
  ∃ fields, knownFields names v = some fields ∧
    ∀ field ∈ fields, ∀ part, field = some part → (numberOf part).isSome

/-- The number that a value has for the field at a position, which is zero where there is none. -/
def fieldNumber (names : List String) (v : Value) (i : Nat) : Float :=
  (((knownFields names v).bind fun fields => fields[i]?.join).bind numberOf).getD 0.0

/-- The names of a size's fields, in order. -/
def sizeNames : List String := ["width", "height"]

/-- The names of the fields of insets, in order. -/
def insetsNames : List String := ["top", "leading", "bottom", "trailing"]

/-- The size that a value describes. -/
def describedSize (v : Value) : Size Float :=
  ⟨fieldNumber sizeNames v 0, fieldNumber sizeNames v 1⟩

/-- The insets that a value describes. -/
def describedInsets (v : Value) : Insets Float :=
  ⟨fieldNumber insetsNames v 0, fieldNumber insetsNames v 1, fieldNumber insetsNames v 2,
    fieldNumber insetsNames v 3⟩

/-- The priorities by name. -/
def priorities : List (String × Priority) :=
  [("required", .required), ("strong", .strong), ("medium", .medium), ("weak", .weak)]

/-- Whether a value is a table or an array with nothing in it. -/
def isEmptyContainer : Value → Bool
  | .table entries => entries.isEmpty
  | .array items => items.isEmpty
  | .tables elements => elements.isEmpty
  | _ => false

/-- The priority that a value describes, if it describes one: by its name, or by a table with the name
as its one key and nothing under it. -/
def describedPriority : Value → Option Priority
  | .string name => priorities.lookup name
  | .table [(name, contents)] => if isEmptyContainer contents then priorities.lookup name else none
  | _ => none

/-- A value has the shape that its key accepts. Keys that are not known accept every value. -/
def HasShape (key : String) (v : Value) : Prop :=
  match key with
  | "root_size" => HasFields sizeNames v
  | "safe_area_insets" => HasFields insetsNames v
  | "priority" => (describedPriority v).isSome
  | _ => True

/-- The value of every key has the shape that the key accepts. -/
def Acceptable (entries : Entries) : Prop :=
  ∀ key v, entries.lookup key = some v → HasShape key v

/-- The configuration that an acceptable document describes: the standard one, but for the keys that
are present. -/
def described (entries : Entries) : Config Float where
  rootSize :=
    ((entries.lookup "root_size").map describedSize).getD (standard : Config Float).rootSize
  safeAreaInsets := ((entries.lookup "safe_area_insets").map describedInsets).getD
    (standard : Config Float).safeAreaInsets
  priority :=
    ((entries.lookup "priority").bind describedPriority).getD (standard : Config Float).priority

/-- The parts of a document that are known: the fields of the size and of the insets, and the priority. -/
structure KnownParts where
  size : Option (Option (List (Option Value)))
  insets : Option (Option (List (Option Value)))
  priority : Option Value

/-- What a document has for the known parts. -/
def knownParts (entries : Entries) : KnownParts where
  size := (entries.lookup "root_size").map (knownFields sizeNames)
  insets := (entries.lookup "safe_area_insets").map (knownFields insetsNames)
  priority := entries.lookup "priority"

/-! ## Reading known keys -/

section FoldKnown

variable {α β : Type} {known : String → Option (Value → α → Except ShapeError α)}

/-- Reading succeeds if the value of every known key is accepted. Whether a value is accepted must not
depend on what was read before it, which is what the hypothesis says. -/
theorem exists_foldKnown_iff (accepts : String → Value → Prop) {entries : Entries}
    (h : ∀ e ∈ entries, ∀ read, known e.1 = some read → ∀ a,
      (∃ a', read e.2 a = .ok a') ↔ accepts e.1 e.2) (start : α) :
    (∃ a, foldKnown known start entries = .ok a) ↔
      ∀ e ∈ entries, (known e.1).isSome → accepts e.1 e.2 := by
  induction entries generalizing start with
  | nil => exact iff_of_true ⟨start, rfl⟩ nofun
  | cons e rest ih =>
    have ih := ih fun e he => h e (.tail _ he)
    rw [List.forall_mem_cons]
    cases hk : known e.1 with
    | none =>
      have passed : foldKnown known start (e :: rest) = foldKnown known start rest := by
        rw [foldKnown, List.foldlM_cons, hk]
        rfl
      rw [passed, ih start]
      exact ⟨fun hrest => ⟨nofun, hrest⟩, And.right⟩
    | some read =>
      have first : foldKnown known start (e :: rest) =
          (read e.2 start).bind fun a => foldKnown known a rest := by
        rw [foldKnown, List.foldlM_cons, hk]
        rfl
      have taken := h e (.head _) read hk start
      rw [first]
      cases hr : read e.2 start with
      | error error =>
        have refused : ¬accepts e.1 e.2 := by
          rw [← taken, hr]
          exact nofun
        exact iff_of_false nofun fun hall => refused (hall.1 rfl)
      | ok a =>
        exact (ih a).trans ⟨fun hrest => ⟨fun _ => taken.1 ⟨a, hr⟩, hrest⟩, And.right⟩

/-- A part of the result that one known key sets and the others leave is what this key
describes. The induction is on the entries; since no key stands twice, nothing after the key can
set the part again. -/
theorem foldKnown_get (get : α → β) {key : String} (value : Value → β) {entries : Entries}
    (hkey : (known key).isSome)
    (hset : ∀ v, (key, v) ∈ entries → ∀ read, known key = some read → ∀ a a',
      read v a = .ok a' → get a' = value v)
    (hkeep : ∀ k, k ≠ key → ∀ read, known k = some read → ∀ v a a',
      read v a = .ok a' → get a' = get a)
    (hkeys : (entries.map Prod.fst).Nodup) {start a : α}
    (h : foldKnown known start entries = .ok a) :
    get a = ((entries.lookup key).map value).getD (get start) := by
  induction entries generalizing start with
  | nil =>
    cases h
    rfl
  | cons e rest ih =>
    have ih := @ih fun v hv => hset v (.tail _ hv)
    rw [List.map_cons, List.nodup_cons] at hkeys
    rw [foldKnown, List.foldlM_cons] at h
    by_cases heq : e.1 = key
    · have gone : rest.lookup key = none := lookup_of_notMem_keys (heq ▸ hkeys.1)
      obtain ⟨read, hread⟩ := Option.isSome_iff_exists.1 hkey
      rw [heq, hread] at h
      rw [List.lookup_cons, heq, beq_self_eq_true]
      dsimp only at h ⊢
      cases hr : read e.2 start with
      | error error =>
        rw [hr] at h
        cases h
      | ok a₁ =>
        rw [hr] at h
        rw [ih hkeys.2 h, gone]
        exact hset e.2 (heq ▸ .head _) read hread start a₁ hr
    · rw [List.lookup_cons, beq_eq_false_iff_ne.2 (Ne.symm heq)]
      cases hk : known e.1 with
      | none =>
        rw [hk] at h
        exact ih hkeys.2 h
      | some read =>
        rw [hk] at h
        dsimp only at h
        cases hr : read e.2 start with
        | error error =>
          rw [hr] at h
          cases h
        | ok a₁ =>
          rw [hr] at h
          rw [ih hkeys.2 h, hkeep e.1 heq read hk e.2 start a₁ hr]

end FoldKnown

theorem readNumber_ok_iff {v : Value} {x : Float} : readNumber v = .ok x ↔ numberOf v = some x := by
  cases v <;> simp [readNumber, numberOf]

/-- A field is read exactly if its value is, and sets what it is for. -/
theorem readField_ok_iff {α β : Type} {read : Value → Except ShapeError β} {set : α → β → α}
    {v : Value} {a a' : α} :
    readField read set v a = .ok a' ↔ ∃ b, read v = .ok b ∧ set a b = a' := by
  rw [readField]
  cases read v <;> simp [Except.map]

/-! ## Reading fields -/

/-- The fields of a value as entries under their names. -/
def namedFields (names : List String) : Value → Option Entries
  | .table entries => some entries
  | .dateTime => some []
  | .array items => some (names.zip items)
  | .tables elements => some (names.zip (elements.map Value.table))
  | _ => none

/-- What stands under the names, item by item. -/
theorem map_lookup_zip {names : List String} (h : names.Nodup) (items : List Value) :
    (names.map fun name => (names.zip items).lookup name) =
      (List.range names.length).map fun i => items[i]? := by
  induction names generalizing items with
  | nil => rfl
  | cons name names ih =>
    rw [List.nodup_cons] at h
    cases items with
    | nil => simp [List.replicate_succ]
    | cons item items =>
      have others : (names.map fun n => ((name, item) :: names.zip items).lookup n) =
          names.map fun n => (names.zip items).lookup n := by
        refine List.map_congr_left fun n hn => ?_
        have differs : n ≠ name := fun heq => h.1 (heq ▸ hn)
        rw [List.lookup_cons, beq_eq_false_iff_ne.2 differs]
      rw [List.map_cons, List.zip_cons_cons, List.lookup_cons_self, others, ih h.2,
        List.length_cons, List.range_succ_eq_map, List.map_cons, List.map_map]
      rfl

/-- Fields given by position are those that stand under the names in order, and in a table they are
looked up. -/
theorem knownFields_eq {names : List String} (h : names.Nodup) (v : Value) :
    knownFields names v =
      (namedFields names v).map fun entries => names.map fun name => entries.lookup name := by
  cases v with
  | array items => exact congrArg some (map_lookup_zip h items).symm
  | tables elements =>
    refine (congrArg some ?_).trans (congrArg some (map_lookup_zip h _).symm)
    simp only [List.getElem?_map]
  | _ => rfl

/-- No name stands twice among the fields of a value, whichever way they are given. -/
theorem namedFields_nodup {names : List String} (h : names.Nodup) {v : Value} (hv : v.Distinct)
    {entries : Entries} (he : namedFields names v = some entries) :
    (entries.map Prod.fst).Nodup := by
  have zipped (items : List Value) : ((names.zip items).map Prod.fst).Nodup := by
    rw [List.zip_eq_zip_take_min, List.map_fst_zip (by simp)]
    exact (List.take_sublist _ _).nodup h
  cases hv with
  | table keys _ =>
    cases he
    exact keys
  | dateTime =>
    cases he
    exact .nil
  | array _ | tables _ _ =>
    cases he
    exact zipped _
  | string | integer | float | boolean => cases he

section ReadFields

variable {α : Type} {named : List (String × (α → Float → α))} {expected : Expected} {start : α}

/-- What a key does that names a field. -/
def knownField (named : List (String × (α → Float → α))) (key : String) :
    Option (Value → α → Except ShapeError α) :=
  (named.lookup key).map (readField readNumber)

/-- Reading fields by position is reading them under their names. -/
theorem foldFields_eq (known : String → Option (Value → α → Except ShapeError α))
    (h : ∀ f ∈ named, known f.1 = some (readField readNumber f.2)) (a : α) (items : List Value) :
    foldFields (named.map Prod.snd) a items = foldKnown known a ((named.map Prod.fst).zip items) := by
  induction named generalizing a items with
  | nil => rfl
  | cons f named ih =>
    cases items with
    | nil => rfl
    | cons item items =>
      have first : foldKnown known a (((f :: named).map Prod.fst).zip (item :: items)) =
          (readField readNumber f.2 item a).bind fun a =>
            foldKnown known a ((named.map Prod.fst).zip items) := by
        rw [foldKnown, List.map_cons, List.zip_cons_cons, List.foldlM_cons, h f (.head _)]
        rfl
      rw [first, List.map_cons, foldFields, readField]
      cases readNumber item with
      | error error => rfl
      | ok x => exact ih (fun f hf => h f (.tail _ hf)) (f.2 a x) items

/-- Reading several numbers is reading the entries under their names one after the other, whatever
form the value has that holds them. -/
theorem readFields_eq (h : (named.map Prod.fst).Nodup) (v : Value) :
    readFields named expected start v =
      match namedFields (named.map Prod.fst) v with
      | some entries => foldKnown (knownField named) start entries
      | none => .error (.invalidType (.ofValue v) expected) := by
  have positions (items : List Value) := foldFields_eq (knownField named)
    (fun f hf => by rw [knownField, lookup_of_mem h hf]; rfl) start items
  cases v with
  | array items => exact positions items
  | tables elements => exact positions _
  | _ => rfl

/-- Fields that are looked up under their names are those that are known. -/
theorem hasFields_iff {names : List String} (h : names.Nodup) {v : Value} (hv : v.Distinct) :
    HasFields names v ↔ ∃ entries, namedFields names v = some entries ∧
      ∀ e ∈ entries, e.1 ∈ names → (numberOf e.2).isSome := by
  rw [HasFields, knownFields_eq h]
  constructor
  · rintro ⟨fields, hfields, numbers⟩
    obtain ⟨entries, hentries, rfl⟩ := Option.map_eq_some_iff.1 hfields
    refine ⟨entries, hentries, fun e he hname => ?_⟩
    have found := lookup_of_mem (namedFields_nodup h hv hentries) he
    exact numbers _ (List.mem_map_of_mem hname) e.2 found
  · rintro ⟨entries, hentries, numbers⟩
    refine ⟨_, congrArg _ hentries, fun field hfield part hpart => ?_⟩
    obtain ⟨name, hname, rfl⟩ := List.mem_map.1 hfield
    exact numbers (name, part) (mem_of_lookup hpart) hname

/-- Fields are read exactly if each one that is present is a number. -/
theorem exists_readFields_iff (h : (named.map Prod.fst).Nodup) {v : Value} (hv : v.Distinct) :
    (∃ a, readFields named expected start v = .ok a) ↔ HasFields (named.map Prod.fst) v := by
  have accepted {key : String} {read} (hread : knownField named key = some read) (v : Value) (a : α) :
      (∃ a', read v a = .ok a') ↔ (numberOf v).isSome := by
    obtain ⟨set, -, rfl⟩ := Option.map_eq_some_iff.1 hread
    rw [Option.isSome_iff_exists]
    constructor
    · rintro ⟨a', ha'⟩
      obtain ⟨x, hx, -⟩ := readField_ok_iff.1 ha'
      exact ⟨x, readNumber_ok_iff.1 hx⟩
    · rintro ⟨x, hx⟩
      exact ⟨set a x, readField_ok_iff.2 ⟨x, readNumber_ok_iff.2 hx, rfl⟩⟩
  have named_iff (key : String) : (knownField named key).isSome ↔ key ∈ named.map Prod.fst := by
    rw [knownField, Option.isSome_map]
    constructor
    · intro hsome
      obtain ⟨set, hset⟩ := Option.isSome_iff_exists.1 hsome
      exact List.mem_map_of_mem (mem_of_lookup hset)
    · intro hmem
      obtain ⟨f, hf, rfl⟩ := List.mem_map.1 hmem
      rw [lookup_of_mem h hf]
      rfl
  rw [readFields_eq h, hasFields_iff h hv]
  cases namedFields (named.map Prod.fst) v with
  | none => exact iff_of_false nofun nofun
  | some entries =>
    refine (exists_foldKnown_iff (fun _ v => (numberOf v).isSome)
      (fun e _ _ hread => accepted hread e.2) start).trans ?_
    simp only [named_iff, Option.some.injEq, exists_eq_left']

/-- A part of the result that one field sets and the others leave is the number of this field. -/
theorem readFields_get (h : (named.map Prod.fst).Nodup) {v : Value} (hv : v.Distinct) {a : α}
    (hread : readFields named expected start v = .ok a) (get : α → Float) (i : Nat) {name : String}
    {set : α → Float → α} (hi : named[i]? = some (name, set)) (hstart : get start = 0.0)
    (hset : ∀ a x, get (set a x) = x)
    (hkeep : ∀ f ∈ named, f.1 ≠ name → ∀ a x, get (f.2 a x) = get a) :
    get a = fieldNumber (named.map Prod.fst) v i := by
  have found : named.lookup name = some set := lookup_of_mem h (List.mem_of_getElem? hi)
  rw [readFields_eq h] at hread
  rw [fieldNumber, knownFields_eq h]
  cases hentries : namedFields (named.map Prod.fst) v with
  | none =>
    rw [hentries] at hread
    cases hread
  | some entries =>
    rw [hentries] at hread
    have field : ((named.map Prod.fst).map fun name => entries.lookup name)[i]? =
        some (entries.lookup name) := by
      rw [List.getElem?_map, List.getElem?_map, hi]
      rfl
    have hknown : (knownField named name).isSome := by
      rw [knownField, found]
      rfl
    have number := foldKnown_get get (fun v => (numberOf v).getD 0.0) hknown ?_ ?_
      (namedFields_nodup h hv hentries) hread
    · rw [number, hstart, Option.map_some, Option.bind_some, field, Option.join_some]
      cases entries.lookup name <;> rfl
    · intro v _ read hknown a a' ha'
      rw [knownField, found] at hknown
      cases hknown
      obtain ⟨x, hx, rfl⟩ := readField_ok_iff.1 ha'
      rw [hset, readNumber_ok_iff.1 hx]
      rfl
    · intro key hkey read hknown v a a' ha'
      obtain ⟨other, hother, rfl⟩ := Option.map_eq_some_iff.1 hknown
      obtain ⟨x, -, rfl⟩ := readField_ok_iff.1 ha'
      exact hkeep (key, other) (mem_of_lookup hother) hkey a x

end ReadFields

/-- A size is read exactly if its known fields are numbers where they are given. -/
theorem exists_readSize_iff {v : Value} (hv : v.Distinct) :
    (∃ s, readSize v = .ok s) ↔ HasFields sizeNames v :=
  exists_readFields_iff (by decide) hv

theorem exists_readInsets_iff {v : Value} (hv : v.Distinct) :
    (∃ i, readInsets v = .ok i) ↔ HasFields insetsNames v :=
  exists_readFields_iff (by decide) hv

/-- A size that is read has the numbers given for it, and zero for those that are not. -/
theorem eq_describedSize {v : Value} (hv : v.Distinct) {s : Size Float} (h : readSize v = .ok s) :
    s = describedSize v := by
  have width := readFields_get (by decide) hv h Size.width 0 rfl rfl (fun _ _ => rfl)
    (by simp)
  have height := readFields_get (by decide) hv h Size.height 1 rfl rfl (fun _ _ => rfl)
    (by simp)
  obtain ⟨w, h⟩ := s
  exact congrArg₂ Size.mk width height

/-- Insets that are read have the numbers given for them, and zero for those that are not. -/
theorem eq_describedInsets {v : Value} (hv : v.Distinct) {i : Insets Float}
    (h : readInsets v = .ok i) : i = describedInsets v := by
  have top := readFields_get (by decide) hv h Insets.top 0 rfl rfl
    (fun _ _ => rfl) (by simp)
  have leading := readFields_get (by decide) hv h Insets.leading 1 rfl rfl
    (fun _ _ => rfl) (by simp)
  have bottom := readFields_get (by decide) hv h Insets.bottom 2 rfl rfl
    (fun _ _ => rfl) (by simp)
  have trailing := readFields_get (by decide) hv h Insets.trailing 3 rfl rfl
    (fun _ _ => rfl) (by simp)
  obtain ⟨t, l, b, r⟩ := i
  cases top
  cases leading
  cases bottom
  cases trailing
  rfl

/-! ## Reading a priority -/

/-- A name is read as a priority exactly if it is on the list of them. -/
theorem priorityNamed_ok_iff {name : String} {p : Priority} :
    priorityNamed name = .ok p ↔ priorities.lookup name = some p := by
  unfold priorityNamed
  split
  case h_5 required strong medium weak =>
    have unknown : priorities.lookup name = none := by
      refine lookup_of_notMem_keys ?_
      simpa [priorities] using ⟨required, strong, medium, weak⟩
    exact iff_of_false nofun (unknown ▸ nofun)
  all_goals exact ⟨fun h => congrArg some (Except.ok.inj h), fun h => congrArg _ (Option.some.inj h)⟩

/-- What stands behind the name of a priority is accepted if it holds nothing. -/
theorem emptyContents_ok_iff {v : Value} : emptyContents v = .ok () ↔ isEmptyContainer v = true := by
  unfold emptyContents isEmptyContainer
  split <;> simp_all

/-- A priority is read from its name, or from a table whose one key is the name and whose value
holds nothing. -/
theorem readPriority_ok_iff {p : Priority} :
    ∀ {v : Value}, readPriority v = .ok p ↔ describedPriority v = some p
  | .string _ => priorityNamed_ok_iff
  | .table [] | .table (_ :: _ :: _) => iff_of_false nofun nofun
  | .table [(name, contents)] => by
    show ((priorityNamed name).bind fun q => (emptyContents contents).bind fun _ => .ok q) = .ok p ↔
      (if isEmptyContainer contents then priorities.lookup name else none) = some p
    have emptied := emptyContents_ok_iff (v := contents)
    cases hcontents : emptyContents contents with
    | error error =>
      have full : ¬isEmptyContainer contents := by
        rw [← emptied, hcontents]
        exact nofun
      rw [if_neg full]
      cases priorityNamed name <;> exact iff_of_false nofun nofun
    | ok _ =>
      rw [if_pos (emptied.1 hcontents), ← priorityNamed_ok_iff]
      cases priorityNamed name <;> exact Iff.rfl
  | .integer _ | .float _ | .boolean _ | .dateTime | .array _ | .tables _ => iff_of_false nofun nofun

/-! ## Whole documents -/

section Documents

variable {entries : Entries}

/-- A known key is one of three. -/
theorem known_cases {key : String} {read : Value → Config Float → Except ShapeError (Config Float)}
    (h : known key = some read) :
    (key = "root_size" ∧ read = readField readSize fun c rootSize => { c with rootSize }) ∨
    (key = "safe_area_insets" ∧
      read = readField readInsets fun c safeAreaInsets => { c with safeAreaInsets }) ∨
    (key = "priority" ∧ read = readField readPriority fun c priority => { c with priority }) := by
  unfold known at h
  split at h <;> cases h <;> simp

/-- A key that is not known accepts every value. -/
theorem hasShape_of_not_known {key : String} (h : ¬(known key).isSome) (v : Value) :
    HasShape key v := by
  unfold HasShape
  split
  · exact absurd rfl h
  · exact absurd rfl h
  · exact absurd rfl h
  · trivial

/-- Setting a field never fails, so only its value decides whether it is read. -/
theorem exists_readField_iff {α β : Type} {read : Value → Except ShapeError β} {set : α → β → α}
    {v : Value} {a : α} : (∃ a', readField read set v a = .ok a') ↔ ∃ b, read v = .ok b := by
  simp only [readField_ok_iff]
  exact ⟨fun ⟨_, b, hb, _⟩ => ⟨b, hb⟩, fun ⟨b, hb⟩ => ⟨_, b, hb, rfl⟩⟩

/-- Reading a document succeeds exactly if it is acceptable. -/
theorem exists_ofEntries_iff (h : Entries.Distinct entries) :
    (∃ c, ofEntries entries = .ok c) ↔ Acceptable entries := by
  have accepted : ∀ e ∈ entries, ∀ read, known e.1 = some read → ∀ c,
      (∃ c', read e.2 c = .ok c') ↔ HasShape e.1 e.2 := by
    rintro ⟨key, v⟩ he read hread c
    have distinct : v.Distinct := h.values _ he
    rcases known_cases hread with ⟨rfl, rfl⟩ | ⟨rfl, rfl⟩ | ⟨rfl, rfl⟩ <;> rw [exists_readField_iff]
    · exact exists_readSize_iff distinct
    · exact exists_readInsets_iff distinct
    · simp only [readPriority_ok_iff]
      exact Option.isSome_iff_exists.symm
  rw [ofEntries, exists_foldKnown_iff HasShape accepted]
  constructor
  · intro hall key v hlookup
    by_cases hk : (known key).isSome
    · exact hall (key, v) (mem_of_lookup hlookup) hk
    · exact hasShape_of_not_known hk v
  · intro hall e he _
    exact hall e.1 e.2 (lookup_of_mem h.keys he)

/-- A part of the configuration that one key sets and the others leave is what this key describes. -/
theorem ofEntries_get (h : Entries.Distinct entries) {c : Config Float}
    (hread : ofEntries entries = .ok c) {β : Type} (get : Config Float → β) {key : String}
    {read : Value → Except ShapeError β} {set : Config Float → β → Config Float} (value : Value → β)
    (hknown : known key = some (readField read set)) (hset : ∀ c b, get (set c b) = b)
    (hvalue : ∀ v, v.Distinct → ∀ b, read v = .ok b → b = value v)
    (hkeep : ∀ k, k ≠ key → ∀ read, known k = some read → ∀ v c c',
      read v c = .ok c' → get c' = get c) :
    get c = ((entries.lookup key).map value).getD (get standard) := by
  refine foldKnown_get get value (by rw [hknown]; rfl) ?_ hkeep h.keys hread
  intro v hv read' hread' c c' hc'
  rw [hknown] at hread'
  cases hread'
  obtain ⟨b, hb, rfl⟩ := readField_ok_iff.1 hc'
  rw [hset, hvalue v (h.values _ hv) b hb]

/-- What is read off a document is what it describes: each part of a configuration is set by one key
and left by the others, and a part whose key is missing stays as it is by default. -/
theorem eq_described (h : Entries.Distinct entries) {c : Config Float}
    (hread : ofEntries entries = .ok c) : c = described entries := by
  have rootSize : c.rootSize = (described entries).rootSize := by
    refine ofEntries_get h hread Config.rootSize describedSize rfl (fun _ _ => rfl)
      (fun _ hv _ => eq_describedSize hv) ?_
    intro k hk read hknown v c c' hc'
    rcases known_cases hknown with ⟨rfl, -⟩ | ⟨-, rfl⟩ | ⟨-, rfl⟩
    · exact absurd rfl hk
    all_goals
      obtain ⟨_, -, rfl⟩ := readField_ok_iff.1 hc'
      rfl
  have safeAreaInsets : c.safeAreaInsets = (described entries).safeAreaInsets := by
    refine ofEntries_get h hread Config.safeAreaInsets describedInsets rfl (fun _ _ => rfl)
      (fun _ hv _ => eq_describedInsets hv) ?_
    intro k hk read hknown v c c' hc'
    rcases known_cases hknown with ⟨-, rfl⟩ | ⟨rfl, -⟩ | ⟨-, rfl⟩
    on_goal 2 => exact absurd rfl hk
    all_goals
      obtain ⟨_, -, rfl⟩ := readField_ok_iff.1 hc'
      rfl
  have priority : c.priority = (described entries).priority := by
    have got : c.priority = ((entries.lookup "priority").map fun v =>
        (describedPriority v).getD .required).getD (standard : Config Float).priority := by
      refine ofEntries_get h hread Config.priority _ rfl (fun _ _ => rfl)
        (fun v _ p hp => by rw [readPriority_ok_iff.1 hp]; rfl) ?_
      intro k hk read hknown v c c' hc'
      rcases known_cases hknown with ⟨-, rfl⟩ | ⟨-, rfl⟩ | ⟨rfl, -⟩
      on_goal 3 => exact absurd rfl hk
      all_goals
        obtain ⟨_, -, rfl⟩ := readField_ok_iff.1 hc'
        rfl
    rw [got, described]
    cases entries.lookup "priority" <;> rfl
  obtain ⟨s, i, p⟩ := c
  cases rootSize
  cases safeAreaInsets
  cases priority
  rfl

/-- A document is read exactly if it is acceptable, and then as what it describes. -/
theorem ofEntries_ok_iff (h : Entries.Distinct entries) {c : Config Float} :
    ofEntries entries = .ok c ↔ Acceptable entries ∧ c = described entries := by
  constructor
  · intro hread
    exact ⟨(exists_ofEntries_iff h).1 ⟨c, hread⟩, eq_described h hread⟩
  · rintro ⟨acceptable, rfl⟩
    obtain ⟨c, hread⟩ := (exists_ofEntries_iff h).2 acceptable
    exact eq_described h hread ▸ hread

/-- Whether a document is acceptable is said by its known parts. -/
theorem acceptable_iff : Acceptable entries ↔
    (∀ fields, (knownParts entries).size = some fields → ∃ fs, fields = some fs ∧
      ∀ field ∈ fs, ∀ part, field = some part → (numberOf part).isSome) ∧
    (∀ fields, (knownParts entries).insets = some fields → ∃ fs, fields = some fs ∧
      ∀ field ∈ fs, ∀ part, field = some part → (numberOf part).isSome) ∧
    ∀ v, (knownParts entries).priority = some v → (describedPriority v).isSome := by
  simp only [knownParts, Option.map_eq_some_iff, forall_exists_index, and_imp,
    forall_apply_eq_imp_iff₂]
  constructor
  · intro h
    exact ⟨fun v hv => h "root_size" v hv, fun v hv => h "safe_area_insets" v hv,
      fun v hv => h "priority" v hv⟩
  · rintro ⟨size, insets, priority⟩ key v hv
    unfold HasShape
    split
    · exact size v hv
    · exact insets v hv
    · exact priority v hv
    · trivial

/-- What a document describes is said by its known parts. -/
theorem described_congr {entries' : Entries} (h : knownParts entries' = knownParts entries) :
    described entries' = described entries := by
  have same {β : Type} {names : List String} {f : Value → β}
      (hf : ∀ v w, knownFields names v = knownFields names w → f v = f w) {o o' : Option Value}
      (ho : o'.map (knownFields names) = o.map (knownFields names)) : o'.map f = o.map f := by
    cases o <;> cases o'
    · rfl
    · cases ho
    · cases ho
    · exact congrArg some (hf _ _ (Option.some.inj ho))
  have size := same (f := describedSize) (fun v w hvw => by simp only [describedSize, fieldNumber, hvw])
    (congrArg KnownParts.size h)
  have insets := same (f := describedInsets)
    (fun v w hvw => by simp only [describedInsets, fieldNumber, hvw]) (congrArg KnownParts.insets h)
  have priority : entries'.lookup "priority" = entries.lookup "priority" :=
    congrArg KnownParts.priority h
  rw [described, described, size, insets, priority]

end Documents

/-- A text that holds a document is read as a configuration exactly if the document is acceptable, and
then as the configuration that the document describes. A text with another document that has the same
known parts is read as the same. -/
theorem ofText_ok_iff {text : String} {entries : Entries} (h : Toml.parse text = some entries) :
    (∀ c, ofText text = .ok c ↔ Acceptable entries ∧ c = described entries) ∧
    ∀ text' entries', Toml.parse text' = some entries' → knownParts entries' = knownParts entries →
      ∀ c, ofText text' = .ok c ↔ ofText text = .ok c := by
  have reads {text : String} {entries : Entries} (h : Toml.parse text = some entries)
      (c : Config Float) : ofText text = .ok c ↔ Acceptable entries ∧ c = described entries := by
    rw [← ofEntries_ok_iff (Toml.parse_distinct h), ofText, h]
    show (ofEntries entries).mapError LoadError.shape = .ok c ↔ _
    cases ofEntries entries <;> simp [Except.mapError]
  refine ⟨reads h, fun text' entries' h' hparts c => ?_⟩
  rw [reads h, reads h', acceptable_iff, hparts, ← acceptable_iff, described_congr hparts]

/-- A document with a size that is given in part, a priority, and things that are not known. -/
def partialSizeText : String := "priority = \"weak\"\nname = [1]\n[root_size]\nwidth = 390\ndepth = 2\n"

/-- The height is missing and reads as zero, the depth and the name are not known and read as nothing,
and the insets are those of a configuration that says nothing. -/
theorem ofText_ok_iff_partialSize : ∃ entries config,
    Toml.parse partialSizeText = some entries ∧ ofText partialSizeText = .ok config ∧
    entries = [("priority", .string "weak"), ("name", .array [.integer 1]),
      ("root_size", .table [("width", .integer 390), ("depth", .integer 2)])] ∧
    config = ⟨⟨390.0, 0.0⟩, ⟨44.0, 0.0, 34.0, 0.0⟩, .weak⟩ ∧
    (∀ c, ofText partialSizeText = .ok c ↔ Acceptable entries ∧ c = described entries) ∧
    ∀ text' entries', Toml.parse text' = some entries' → knownParts entries' = knownParts entries →
      ∀ c, ofText text' = .ok c ↔ ofText partialSizeText = .ok c := by
  have parsed : Toml.parse partialSizeText = some [("priority", .string "weak"),
      ("name", .array [.integer 1]),
      ("root_size", .table [("width", .integer 390), ("depth", .integer 2)])] := by decide +kernel
  have read : ofText partialSizeText = .ok ⟨⟨390.0, 0.0⟩, ⟨44.0, 0.0, 34.0, 0.0⟩, .weak⟩ := by
    rw [ofText, parsed]
    rfl
  exact ⟨_, _, parsed, read, rfl, rfl, ofText_ok_iff parsed⟩

end ViewConstraints.Config
