import Mathlib.Data.List.Nodup
import ViewConstraints.Toml.Document

/-!
# Keys of a document are distinct

A document that defines a key twice in a table is refused, at every depth: in the tables that headers
and dotted keys build up, and in the tables on one line inside values. So the entries of a document
that is read have distinct keys, and so has every table under them (`parse_distinct`). What a scan
gives is reasoned about by a property that it always has (`Scan.Yields`).
-/

namespace ViewConstraints

/-! ## Entries and their keys -/

section Entries

variable {α : Type} {key : String} {a : α} {entries : List (String × α)}

/-- A key that is looked up in vain is no key of the entries. -/
theorem notMem_keys_of_lookup (h : entries.lookup key = none) : key ∉ entries.map Prod.fst := by
  intro hmem
  obtain ⟨e, he, rfl⟩ := List.mem_map.1 hmem
  have differs := List.lookup_eq_none_iff.1 h e he
  simp at differs

/-- What is no key of the entries is looked up in vain. -/
theorem lookup_of_notMem_keys (h : key ∉ entries.map Prod.fst) : entries.lookup key = none := by
  refine List.lookup_eq_none_iff.2 fun e he => ?_
  exact bne_iff_ne.2 fun heq => h (heq ▸ List.mem_map_of_mem he)

/-- What is found under a key is an entry with this key. -/
theorem mem_of_lookup (h : entries.lookup key = some a) : (key, a) ∈ entries := by
  obtain ⟨before, after, rfl, -⟩ := List.lookup_eq_some_iff.1 h
  exact List.mem_append_right _ (.head _)

/-- With distinct keys, every entry is found. -/
theorem lookup_of_mem (hkeys : (entries.map Prod.fst).Nodup) (h : (key, a) ∈ entries) :
    entries.lookup key = some a := by
  induction entries with
  | nil => cases h
  | cons e rest ih =>
    rw [List.map_cons, List.nodup_cons] at hkeys
    rcases List.mem_cons.1 h with rfl | h
    · exact List.lookup_cons_self
    · have other : key ≠ e.1 := fun heq => hkeys.1 (heq ▸ List.mem_map_of_mem h)
      rw [List.lookup_cons, beq_eq_false_iff_ne.2 other]
      exact ih hkeys.2 h

end Entries

/-! ## What scans give -/

namespace Text.Scan

variable {α β : Type} {P : α → Prop} {Q : β → Prop}

/-- Everything that a scan gives has a property. -/
def Yields (p : Scan α) (P : α → Prop) : Prop := ∀ text a rest, p text = some (a, rest) → P a

theorem yields_true (p : Scan α) : Yields p fun _ => True := fun _ _ _ _ => trivial

/-- A scan that reads nothing gives the value it is made of. -/
theorem yields_pure {a : α} (h : P a) : Yields (pure a) P := by
  intro text b rest hb
  cases hb
  exact h

theorem yields_failure : Yields (failure : Scan α) P := fun _ _ _ h => nomatch h

/-- What follows a scan may rely on what is known of its result. -/
theorem Yields.bind {p : Scan α} {f : α → Scan β} (hp : Yields p P)
    (hf : ∀ a, P a → Yields (f a) Q) : Yields (p >>= f) Q := by
  intro text b rest h
  obtain ⟨⟨a, rest'⟩, ha, hb⟩ := Option.bind_eq_some_iff.1 h
  exact hf a (hp text a rest' ha) rest' b rest hb

/-- What follows a scan decides alone. -/
theorem yields_bind {p : Scan α} {f : α → Scan β} (hf : ∀ a, Yields (f a) Q) : Yields (p >>= f) Q :=
  (yields_true p).bind fun a _ => hf a

/-- Either of two scans may have given the result, so both have to give what is claimed. -/
theorem Yields.orElse {p q : Scan α} (hp : Yields p P) (hq : Yields q P) : Yields (p <|> q) P := by
  intro text a rest h
  change (p text <|> q text) = some (a, rest) at h
  cases ha : p text with
  | none =>
    rw [ha] at h
    exact hq text a rest h
  | some r =>
    rw [ha] at h
    cases h
    exact hp text a rest ha

/-- A scan that may fail gives nothing or what the scan gives. -/
theorem Yields.option {p : Scan α} (hp : Yields p P) :
    Yields (Scan.option p) fun o => ∀ a, o = some a → P a := by
  intro text o rest h a ho
  subst ho
  unfold Scan.option at h
  split at h
  next b rest' hb =>
    cases h
    exact hp text a rest hb
  next => cases h

/-- Each result of a repeated scan is a result of the scan, also the last one if nothing was read for
it. -/
theorem Yields.manyFrom {p : Scan α} (hp : Yields p P) (text : List Char) :
    ∀ a ∈ (Scan.manyFrom p text).1, P a := by
  induction text using Scan.manyFrom.induct (p := p) with
  | case1 text hnone =>
    rw [Scan.manyFrom, hnone]
    exact fun a ha => nomatch ha
  | case2 text b rest hb hlt _ _ _ ih =>
    rw [Scan.manyFrom, hb]
    dsimp only
    rw [if_pos hlt]
    intro a ha
    rcases List.mem_cons.1 ha with rfl | ha
    · exact hp text a rest hb
    · exact ih a ha
  | case3 text b rest hb hlt =>
    rw [Scan.manyFrom, hb]
    dsimp only
    rw [if_neg hlt]
    intro a ha
    rw [List.mem_singleton.1 ha]
    exact hp text b rest hb

/-- Each result of a repeated scan has the property. -/
theorem Yields.many {p : Scan α} (hp : Yields p P) : Yields (Scan.many p) fun as => ∀ a ∈ as, P a := by
  intro text as rest h
  have given : (Scan.manyFrom p text).1 = as := congrArg Prod.fst (Option.some.inj h)
  exact given ▸ hp.manyFrom text

/-- Each result of a scan that is repeated between separators has the property, whatever the
separators give. -/
theorem Yields.separated1 {p : Scan α} (hp : Yields p P) (separator : Scan β) :
    Yields (Scan.separated1 p separator) fun as => ∀ a ∈ as, P a := by
  refine hp.bind fun first hfirst => ?_
  have others : Yields (separator *> p) P := by
    rw [seqRight_eq_bind]
    exact yields_bind fun _ => hp
  refine others.many.bind fun rest hrest => yields_pure ?_
  intro a ha
  rcases List.mem_cons.1 ha with rfl | ha
  · exact hfirst
  · exact hrest a ha

/-- What is read after the result, and is not kept, does not matter. -/
theorem Yields.seqLeft {p : Scan α} (hp : Yields p P) (q : Scan β) : Yields (p <* q) P := by
  rw [seqLeft_eq_bind]
  exact hp.bind fun a ha => yields_bind fun _ => yields_pure ha

/-- What is read before the result, and is not kept, does not matter. -/
theorem Yields.seqRight (q : Scan β) {p : Scan α} (hp : Yields p P) : Yields (q *> p) P := by
  rw [seqRight_eq_bind]
  exact yields_bind fun _ => hp

end Text.Scan

namespace Toml

open Text
open Text.Scan (Yields yields_pure yields_bind yields_failure yields_true)

/-! ## Values -/

/-- Every table in a value has distinct keys. -/
inductive Value.Distinct : Value → Prop
  | string (text : String) : Distinct (.string text)
  | integer (n : Int) : Distinct (.integer n)
  | float (x : Float) : Distinct (.float x)
  | boolean (b : Bool) : Distinct (.boolean b)
  | dateTime : Distinct .dateTime
  | array {items : List Value} : (∀ v ∈ items, Distinct v) → Distinct (.array items)
  | tables {elements : List Entries} : (∀ t ∈ elements, (t.map Prod.fst).Nodup) →
    (∀ t ∈ elements, ∀ e ∈ t, Distinct e.2) → Distinct (.tables elements)
  | table {entries : Entries} : (entries.map Prod.fst).Nodup → (∀ e ∈ entries, Distinct e.2) →
    Distinct (.table entries)

/-- The keys of entries are distinct, and so are those of every table under them. -/
structure Entries.Distinct (entries : Entries) : Prop where
  keys : (entries.map Prod.fst).Nodup
  values : ∀ e ∈ entries, e.2.Distinct

/-- An integer within the range of a document holds no table. -/
theorem yields_inRange (n : Int) : Yields (inRange n) Value.Distinct := by
  unfold inRange
  split
  · exact yields_pure (.integer n)
  · exact yields_failure

/-- A value that is not a container holds no table, whichever of the scans for it succeeds. -/
theorem yields_scalar : Yields scalar Value.Distinct := by
  have string : Yields (do return Value.string (← stringValue)) Value.Distinct :=
    yields_bind fun text => yields_pure (.string text)
  have dateTime : Yields dateTimeValue Value.Distinct :=
    .orElse (yields_bind fun _ => yields_bind fun _ => yields_pure .dateTime)
      (yields_bind fun _ => yields_pure .dateTime)
  have float : Yields decimalFloat Value.Distinct := by
    refine yields_bind fun _ => yields_bind fun _ => yields_bind fun _ => yields_bind fun _ => ?_
    dsimp only
    repeat' split
    all_goals first
      | exact yields_failure
      | exact yields_pure (.float _)
  have special : Yields specialFloat Value.Distinct :=
    yields_bind fun _ => yields_bind fun _ => yields_pure (.float _)
  have based (mark : Char) (base : Nat) (p : Char → Bool) :
      Yields (basedInteger mark base p) Value.Distinct :=
    yields_bind fun _ => yields_bind fun _ => yields_inRange _
  have decimal : Yields decimalInteger Value.Distinct :=
    yields_bind fun _ => yields_bind fun _ => yields_inRange _
  have boolean : Yields booleanValue Value.Distinct :=
    .orElse (yields_bind fun _ => yields_pure (.boolean true))
      (yields_bind fun _ => yields_pure (.boolean false))
  have integer : Yields integerValue Value.Distinct :=
    .orElse (based _ _ _) (.orElse (based _ _ _) (.orElse (based _ _ _) decimal))
  exact .orElse string (.orElse dateTime (.orElse float (.orElse special (.orElse integer boolean))))

/-! ## Tables under construction -/

mutual

/-- The keys of a table are distinct, and so are those of every table under it. -/
inductive Table.Distinct : Table → Prop
  | mk {origin : Origin} {entries : List (String × Item)} : (entries.map Prod.fst).Nodup →
    (∀ e ∈ entries, Item.Distinct e.2) → Table.Distinct (.mk origin entries)

/-- Every table in an item has distinct keys. -/
inductive Item.Distinct : Item → Prop
  | value {v : Value} : v.Distinct → Item.Distinct (.value v)
  | table {t : Table} : Table.Distinct t → Item.Distinct (.table t)
  | tables {earlier : List Table} {last : Table} : (∀ t ∈ earlier, Table.Distinct t) →
    Table.Distinct last → Item.Distinct (.tables earlier last)

end

namespace Table.Distinct

variable {t t' : Table} {key : String} {item : Item}

theorem empty (origin : Origin) : (Table.empty origin).Distinct := .mk .nil nofun

/-- How a table was defined is no matter of its keys. -/
theorem withOrigin (h : t.Distinct) (origin : Origin) : (Table.mk origin t.entries).Distinct := by
  obtain ⟨keys, items⟩ := h
  exact .mk keys items

/-- What is found under a key has distinct keys throughout. -/
theorem get? (h : t.Distinct) (hg : t.get? key = some item) : item.Distinct := by
  obtain ⟨-, items⟩ := h
  exact items (key, item) (mem_of_lookup hg)

/-- An entry may be added under a key that is not there yet. -/
theorem push (h : t.Distinct) (hk : t.get? key = none) (hi : item.Distinct) :
    (t.push key item).Distinct := by
  obtain ⟨keys, items⟩ := h
  refine .mk ?_ ?_
  · rw [List.map_append]
    exact List.Nodup.append keys (List.nodup_singleton key) <|
      List.disjoint_singleton.2 (notMem_keys_of_lookup hk)
  · intro e he
    rcases List.mem_append.1 he with he | he
    · exact items e he
    · rw [List.mem_singleton.1 he]
      exact hi

/-- What stands under a key may be replaced, since the keys stay the same. -/
theorem replace (h : t.Distinct) (key : String) (hi : item.Distinct) :
    (t.replace key item).Distinct := by
  obtain @⟨origin, entries, keys, items⟩ := h
  refine .mk ?_ ?_
  · have same : (entries.map fun e => if e.1 = key then (key, item) else e).map Prod.fst =
        entries.map Prod.fst := by
      rw [List.map_map]
      refine List.map_congr_left fun e _ => ?_
      show (if e.1 = key then (key, item) else e).1 = e.1
      split
      next he => exact he.symm
      next => rfl
    exact same ▸ keys
  · intro e he
    obtain ⟨e', he', rfl⟩ := List.mem_map.1 he
    split
    · exact hi
    · exact items e' he'

/-- A key may be removed from a table. -/
theorem erase (h : t.Distinct) (key : String) : (t.erase key).Distinct := by
  obtain ⟨keys, items⟩ := h
  exact .mk ((List.filter_sublist.map _).nodup keys) fun e he => items e (List.mem_filter.1 he).1

/-- A key that was removed is not found, so it may be added again. -/
theorem get?_erase (t : Table) (key : String) : (t.erase key).get? key = none := by
  refine List.lookup_eq_none_iff.2 fun e he => ?_
  have differs : e.1 ≠ key := of_decide_eq_true (List.mem_filter.1 he).2
  exact bne_iff_ne.2 differs.symm

/-- A walk keeps keys distinct if the change at its end does. The induction is on the path: at each
key a table is started, or the one found there is put back changed. -/
theorem update {byDots : Bool} {f : Table → Option Table}
    (hf : ∀ {t t'}, t.Distinct → f t = some t' → t'.Distinct) (path : List String) :
    ∀ {t t' : Table}, t.Distinct → t.update byDots f path = some t' → t'.Distinct := by
  induction path with
  | nil => exact hf
  | cons key path ih =>
    intro t t' h hupdate
    rw [Table.update] at hupdate
    split at hupdate
    next hnone =>
      obtain ⟨child, hchild, hpush⟩ := Option.bind_eq_some_iff.1 hupdate
      cases hpush
      exact h.push hnone (.table (ih (.empty _) hchild))
    next => cases hupdate
    next child hsome =>
      dsimp only at hupdate
      split at hupdate
      · cases hupdate
      obtain ⟨child', hchild, hreplace⟩ := Option.bind_eq_some_iff.1 hupdate
      cases hreplace
      cases h.get? hsome with
      | table distinct => exact h.replace key (.table (ih distinct hchild))
    next earlier last hsome =>
      obtain ⟨last', hlast, hreplace⟩ := Option.bind_eq_some_iff.1 hupdate
      cases hreplace
      cases h.get? hsome with
      | tables hearlier distinct => exact h.replace key (.tables hearlier (ih distinct hlast))

/-- A value is added at the end of a dotted key only if nothing stands there. -/
theorem addValue (h : t.Distinct) {path : List String} {v : Value} (hv : v.Distinct)
    (hadd : t.addValue path key v = some t') : t'.Distinct := by
  refine update ?_ path h hadd
  intro target target' htarget hpush
  split at hpush
  · cases hpush
  split at hpush
  · cases hpush
  next hfree =>
    cases hpush
    exact htarget.push (Option.not_isSome_iff_eq_none.1 hfree) (.value hv)

/-- The lines under one header are added one after another, each to the table that the lines before it
left. -/
theorem addLines {lines : List Line} (h : t.Distinct) (hlines : ∀ l ∈ lines, l.value.Distinct)
    (hadd : t.addLines lines = some t') : t'.Distinct := by
  induction lines generalizing t with
  | nil =>
    cases hadd
    exact h
  | cons l lines ih =>
    obtain ⟨t₁, hfirst, hrest⟩ := Option.bind_eq_some_iff.1 hadd
    exact ih (h.addValue (hlines l (.head _)) hfirst) (fun l hl => hlines l (.tail _ hl)) hrest

/-- A header with its lines starts a table, or goes on with one that was defined only in passing. In
both cases it is added under a key that is free by then. -/
theorem addTable (h : t.Distinct) {path : List String} {lines : List Line}
    (hlines : ∀ l ∈ lines, l.value.Distinct) (hadd : t.addTable path key lines = some t') :
    t'.Distinct := by
  refine update ?_ path h hadd
  intro parent parent' hparent hpush
  have started {start : Table} (distinct : start.Distinct)
      (h : (start.addLines lines).bind (fun body => some ((parent.erase key).push key (.table body))) =
        some parent') : parent'.Distinct := by
    obtain ⟨body, hbody, hpush⟩ := Option.bind_eq_some_iff.1 h
    cases hpush
    exact (hparent.erase key).push (get?_erase parent key) (.table (distinct.addLines hlines hbody))
  dsimp only at hpush
  split at hpush
  next => exact started (.empty .header) hpush
  next existing hexisting =>
    split at hpush
    · cases hparent.get? hexisting with
      | table distinct => exact started (distinct.withOrigin .header) hpush
    · cases hpush
  next => cases hpush

/-- A header of an array of tables starts the array or adds an element at its end. -/
theorem addElement (h : t.Distinct) {path : List String} {lines : List Line}
    (hlines : ∀ l ∈ lines, l.value.Distinct) (hadd : t.addElement path key lines = some t') :
    t'.Distinct := by
  refine update ?_ path h hadd
  intro parent parent' hparent hpush
  obtain ⟨body, hbody, hrest⟩ := Option.bind_eq_some_iff.1 hpush
  have distinct : body.Distinct := (empty .header).addLines hlines hbody
  split at hrest
  next hnone =>
    cases hrest
    exact hparent.push hnone (.tables nofun distinct)
  next earlier last hsome =>
    cases hrest
    cases hparent.get? hsome with
    | tables hearlier hlast =>
      refine hparent.replace key (.tables ?_ distinct)
      intro t ht
      rcases List.mem_append.1 ht with ht | ht
      · exact hearlier t ht
      · exact List.mem_singleton.1 ht ▸ hlast
  next => cases hrest

end Table.Distinct

/-- Finishing a table changes what stands under its keys, but not the keys. -/
theorem finishEntries_keys (entries : List (String × Item)) :
    (finishEntries entries).map Prod.fst = entries.map Prod.fst := by
  induction entries with
  | nil => rfl
  | cons e rest ih => rw [finishEntries, List.map_cons, List.map_cons, ih]

mutual

/-- A finished table has distinct keys throughout if the table has. -/
theorem Table.Distinct.finish : ∀ {t : Table}, t.Distinct → Entries.Distinct t.finish
  | .mk _ entries, .mk keys items =>
    ⟨(finishEntries_keys entries).symm ▸ keys, finishEntries_distinct entries items⟩

/-- A finished item has distinct keys throughout if the item has. -/
theorem Item.Distinct.finish : ∀ {i : Item}, i.Distinct → i.finish.Distinct
  | .value _, .value h => h
  | .table _, .table h => .table h.finish.keys h.finish.values
  | .tables earlier last, .tables hearlier hlast => by
    have all : ∀ t ∈ finishTables earlier ++ [last.finish], Entries.Distinct t := by
      intro t ht
      rcases List.mem_append.1 ht with ht | ht
      · exact finishTables_distinct earlier hearlier t ht
      · exact List.mem_singleton.1 ht ▸ hlast.finish
    exact .tables (fun t ht => (all t ht).keys) fun t ht => (all t ht).values

/-- The entries of a finished table have distinct keys throughout if the items have. -/
theorem finishEntries_distinct : ∀ entries : List (String × Item), (∀ e ∈ entries, e.2.Distinct) →
    ∀ e ∈ finishEntries entries, e.2.Distinct
  | [], _, _, he => nomatch he
  | (_, item) :: rest, h, e, he => by
    rcases List.mem_cons.1 he with rfl | he
    · exact (h _ (.head _)).finish
    · exact finishEntries_distinct rest (fun e he => h e (.tail _ he)) e he

/-- The elements of a finished array of tables have distinct keys throughout if they had before. -/
theorem finishTables_distinct : ∀ tables : List Table, (∀ t ∈ tables, t.Distinct) →
    ∀ t ∈ finishTables tables, Entries.Distinct t
  | [], _, _, ht => nomatch ht
  | _ :: rest, h, t, ht => by
    rcases List.mem_cons.1 ht with rfl | ht
    · exact (h _ (.head _)).finish
    · exact finishTables_distinct rest (fun t ht => h t (.tail _ ht)) t ht

end

/-! ## Documents -/

/-- The value of a line has distinct keys throughout if the scan for values gives such values. -/
theorem yields_keyValue {value : Scan Value} (h : Yields value Value.Distinct) :
    Yields (keyValue value) fun l => l.value.Distinct := by
  refine yields_bind fun parts => yields_bind fun _ => yields_bind fun _ => h.bind fun v hv =>
    yields_bind fun _ => ?_
  split
  · exact yields_pure hv
  · exact yields_failure

/-- A value has distinct keys throughout, however deep containers are nested in it. The induction is
on the depth that is still allowed. -/
theorem yields_valueWithin (depth : Nat) : Yields (valueWithin depth) Value.Distinct := by
  induction depth with
  | zero => exact yields_scalar
  | succ depth ih =>
    have array : Yields (arrayValue (valueWithin depth)) Value.Distinct := by
      have item : Yields (arraySpace *> valueWithin depth <* arraySpace) Value.Distinct :=
        (Yields.seqRight _ ih).seqLeft _
      refine yields_bind fun _ => (item.separated1 _).option.bind fun items hitems => ?_
      have distinct : (Value.array (items.getD [])).Distinct := by
        refine .array ?_
        cases items with
        | none => exact nofun
        | some items => exact hitems items rfl
      dsimp only
      split
      · exact yields_bind fun _ => yields_bind fun _ => yields_bind fun _ => yields_pure distinct
      · exact yields_bind fun _ => yields_bind fun _ => yields_pure distinct
    have table : Yields (inlineTable (valueWithin depth)) Value.Distinct := by
      refine yields_bind fun _ => yields_bind fun _ =>
        ((yields_keyValue ih).separated1 _).option.bind fun lines hlines => yields_bind fun _ => ?_
      split
      next t ht =>
        have distinct : t.Distinct := by
          refine (Table.Distinct.empty .header).addLines ?_ ht
          cases lines with
          | none => exact nofun
          | some lines => exact hlines lines rfl
        exact yields_pure (.table distinct.finish.keys distinct.finish.values)
      next => exact yields_failure
    exact .orElse array (.orElse table yields_scalar)

/-- The values of the lines under a header have distinct keys throughout. -/
theorem yields_scanLines : Yields Document.scanLines fun ls => ∀ l ∈ ls, l.value.Distinct :=
  (((yields_keyValue (yields_valueWithin _)).seqLeft _).seqLeft _).many

/-- The values in a section have distinct keys throughout. -/
theorem yields_scanSection :
    Yields Document.scanSection fun s => ∀ l ∈ s.lines, l.value.Distinct :=
  yields_bind fun _ => yields_bind fun _ => yields_bind fun _ =>
    yields_scanLines.bind fun _ hlines => yields_pure hlines

/-- The values in a document have distinct keys throughout. What is left is to add them up
to tables. -/
theorem yields_scan : Yields Document.scan fun d =>
    (∀ l ∈ d.lines, l.value.Distinct) ∧ ∀ s ∈ d.sections, ∀ l ∈ s.lines, l.value.Distinct :=
  yields_bind fun _ => yields_bind fun _ => yields_scanLines.bind fun _ hlines =>
    yields_scanSection.many.bind fun _ hsections => yields_pure ⟨hlines, hsections⟩

/-- A section is added as a table or as an element of an array of tables, and either keeps keys
distinct. -/
theorem Document.addSection_distinct {t t' : Table} {s : Section} (h : t.Distinct)
    (hlines : ∀ l ∈ s.lines, l.value.Distinct) (hadd : addSection t s = some t') : t'.Distinct := by
  unfold addSection at hadd
  split at hadd
  · exact h.addTable hlines hadd
  · exact h.addElement hlines hadd

/-- The sections of a document are added in order, and each keeps keys distinct. -/
theorem Document.foldlM_addSection_distinct {sections : List Section} {t t' : Table}
    (h : t.Distinct) (hlines : ∀ s ∈ sections, ∀ l ∈ s.lines, l.value.Distinct)
    (hadd : sections.foldlM addSection t = some t') : t'.Distinct := by
  induction sections generalizing t with
  | nil =>
    cases hadd
    exact h
  | cons s sections ih =>
    obtain ⟨t₁, hfirst, hrest⟩ := Option.bind_eq_some_iff.1 hadd
    exact ih (addSection_distinct h (hlines s (.head _)) hfirst)
      (fun s hs => hlines s (.tail _ hs)) hrest

/-- The keys of a document are distinct, and so are those of every table in it. -/
theorem parse_distinct {text : String} {entries : Entries} (h : parse text = some entries) :
    Entries.Distinct entries := by
  obtain ⟨d, hd, hentries⟩ := Option.bind_eq_some_iff.1 h
  obtain ⟨⟨d', rest⟩, hscan, rfl⟩ := Option.map_eq_some_iff.1 hd
  obtain ⟨hlines, hsections⟩ := yields_scan.seqLeft Scan.atEnd _ _ _ hscan
  obtain ⟨top, htop, hrest⟩ := Option.bind_eq_some_iff.1 hentries
  obtain ⟨all, hall, hfinish⟩ := Option.bind_eq_some_iff.1 hrest
  cases hfinish
  have distinct := (Table.Distinct.empty .header).addLines hlines htop
  exact (Document.foldlM_addSection_distinct distinct hsections hall).finish

end Toml

end ViewConstraints
