import Mathlib.Data.List.Basic
import Mathlib.Data.List.Induction
import ViewConstraints.Layout.Recording
import ViewConstraints.Proofs.Scene.Requests

/-!
# What a layout block looks up

A block uses anchors in a fixed order: the property of a statement before its target, and the
statements one after the other. `fetched` and `lookUpsAfter` say, from this order alone, which of
these uses reach the host and what the host finds. A block run against the recorder makes exactly these
requests (`Journal.traced_runEntries`): the cells of its cache are filled for the properties read so
far, each with the anchor found at its first read (`Journal.Caught`), and every read keeps them so.

The recorder counts guides but does not write down when one was looked up, nor what constraints were
made of. `Host.traced` notes both beside the states of any host, and changes nothing else
(`Host.traced_traces`, `Host.Traces.layout`).
-/

namespace ViewConstraints.Layout

/-! ## Uses of anchors -/

/-- One use of an anchor by a block: a read of a property of its view, or a look-up of the anchor that
a statement relates its property to. -/
inductive Access where
  | property (p : Property)
  | target (a : Anchor)
  deriving DecidableEq

namespace Access

/-- The anchor that is used by a block on a view. -/
def anchor (view : ViewId) : Access → Anchor
  | property p => p.anchor view
  | target a => a

def target? : Access → Option Anchor
  | property _ => none
  | target a => some a

/-- Whether this is a read of a property of the safe area. -/
def readsSafe : Access → Bool
  | property p => p.isSafe
  | target _ => false

/-- Whether the anchor is looked up, after others were used: that of a property at the first read, that
of a target always. -/
def isFetch (before : List Access) : Access → Bool
  | property p => property p ∉ before
  | target _ => true

/-- Whether a guide is looked up first, after others were used: for a property at the first read of
any property of the safe area, for a target whenever it is of a safe area. -/
def needsGuide (before : List Access) : Access → Bool
  | property p => p.isSafe && !before.any readsSafe
  | target a => a.safe

end Access

/-- Of uses that come after others, those that reach the host. -/
def fetchedAfter (before : List Access) : List Access → List Access
  | [] => []
  | x :: rest => (if x.isFetch before then [x] else []) ++ fetchedAfter (before ++ [x]) rest

/-- Of the uses of a block, those that reach the host. -/
def fetched (accesses : List Access) : List Access := fetchedAfter [] accesses

/-- Whether a use reaches the host is told from the uses before it, so a sequence may be
cut anywhere. -/
theorem fetchedAfter_append (before xs ys : List Access) :
    fetchedAfter before (xs ++ ys) = fetchedAfter before xs ++ fetchedAfter (before ++ xs) ys := by
  induction xs generalizing before with
  | nil => rw [List.append_nil]; rfl
  | cons x xs ih => simp only [List.cons_append, fetchedAfter, ih, List.append_assoc, List.nil_append]

/-- What is used first decides what reaches the host of what is used next. -/
theorem fetched_append (xs ys : List Access) :
    fetched (xs ++ ys) = fetched xs ++ fetchedAfter xs ys :=
  fetchedAfter_append [] xs ys

/-- The last use reaches the host unless it is of a property that was read before. -/
theorem fetched_concat (xs : List Access) (x : Access) :
    fetched (xs ++ [x]) = fetched xs ++ if x.isFetch xs then [x] else [] := by
  rw [fetched_append, fetchedAfter, fetchedAfter, List.append_nil]

/-- The uses that reach the host do so in their order, and a use reaches it at most once. -/
theorem fetched_sublist (accesses : List Access) : (fetched accesses).Sublist accesses := by
  induction accesses using List.reverseRecOn with
  | nil => exact .slnil
  | append_singleton xs x ih =>
    rw [fetched_concat]
    refine ih.append ?_
    split
    · exact .refl _
    · exact List.nil_sublist _

/-- A property that is read is looked up once, however often it is read, and no other is. -/
theorem count_property_fetched (p : Property) (accesses : List Access) :
    (fetched accesses).count (.property p) = if .property p ∈ accesses then 1 else 0 := by
  induction accesses using List.reverseRecOn with
  | nil => rfl
  | append_singleton xs x ih =>
    rw [fetched_concat, List.count_append, ih]
    by_cases same : x = .property p
    · subst same
      by_cases read : Access.property p ∈ xs <;> simp [Access.isFetch, read]
    · have apart : (if x.isFetch xs then [x] else []).count (.property p) = 0 := by
        split
        · exact List.count_singleton.trans (if_neg (by simpa using same))
        · rfl
      have other : Access.property p ∈ xs ++ [x] ↔ Access.property p ∈ xs := by
        simp [Ne.symm same]
      rw [apart, if_congr other rfl rfl, Nat.add_zero]

/-- A property that is read at all is looked up at some read, namely the first. -/
theorem property_mem_fetched {p : Property} {accesses : List Access} :
    .property p ∈ fetched accesses ↔ .property p ∈ accesses := by
  rw [← List.count_pos_iff, count_property_fetched]
  split <;> simp [*]

/-- Every target is looked up. -/
theorem targets_fetched (accesses : List Access) :
    (fetched accesses).filterMap Access.target? = accesses.filterMap Access.target? := by
  induction accesses using List.reverseRecOn with
  | nil => rfl
  | append_singleton xs x ih =>
    rw [fetched_concat, List.filterMap_append, List.filterMap_append, ih]
    cases x with
    | property p => split <;> rfl
    | target a => rfl

variable {K : Type}

/-- The uses of anchors by one entry of a block. -/
def Entry.accesses : Entry K → List Access
  | .read p => [.property p, .property p]
  | .statement st => .property st.property :: st.relating.anchors.map .target

/-- The uses of anchors by the entries of a block. -/
def accessesOf (entries : List (Entry K)) : List Access := entries.flatMap Entry.accesses

/-- A block uses the anchors of its first entry first. -/
theorem accessesOf_cons (e : Entry K) (rest : List (Entry K)) :
    accessesOf (e :: rest) = e.accesses ++ accessesOf rest :=
  List.flatMap_cons

/-! ## Hosts that note what they are asked -/

/-- What a host is asked about anchors, with what it finds. -/
inductive Request (A : Type) where
  | guide (view : ViewId)
  | anchor (a : Anchor) (found : A)
  | relate (lhs rhs : A)
  | relateNumber (lhs : A)

namespace Request

variable {A : Type}

def guide? : Request A → Option ViewId
  | guide view => some view
  | _ => none

def found? : Request A → Option (Anchor × A)
  | anchor a found => some (a, found)
  | _ => none

/-- Whether something is looked up. -/
def isLookUp : Request A → Bool
  | guide _ | anchor _ _ => true
  | _ => false

/-- The anchor on the left side of a constraint that is made. -/
def lhs? : Request A → Option A
  | relate lhs _ | relateNumber lhs => some lhs
  | _ => none

end Request

section

variable {S A C α β : Type}

/-- A program whose first part is known to run goes on from where this part ends. -/
theorem bind_of_run {m : StateM S α} {f : α → StateM S β} {s s' : S} {a : α} (h : m s = (a, s')) :
    (m >>= f) s = f a s' := by
  show f (m s).1 (m s).2 = _
  rw [h]

/-- A program that notes requests when it is done. -/
def noting (m : StateM S α) (note : α → List (Request A)) : StateM (S × List (Request A)) α :=
  fun t => ((m t.1).1, (m t.1).2, t.2 ++ note (m t.1).1)

/-- A program that does what another does, and notes requests. -/
def Notes (m' : StateM (S × List (Request A)) α) (m : StateM S α) : Prop :=
  ∀ t, ∃ more, m' t = ((m t.1).1, (m t.1).2, t.2 ++ more)

namespace Notes

variable {m' : StateM (S × List (Request A)) α} {m : StateM S α}

theorem pure (a : α) : Notes (Pure.pure a : StateM (S × List (Request A)) α) (Pure.pure a) :=
  fun t => ⟨[], by rw [List.append_nil]; rfl⟩

/-- What a program notes in two parts comes one after the other. -/
theorem bind {f' : α → StateM (S × List (Request A)) β} {f : α → StateM S β} (h : Notes m' m)
    (hf : ∀ a, Notes (f' a) (f a)) : Notes (m' >>= f') (m >>= f) := by
  intro t
  obtain ⟨first, hm⟩ := h t
  obtain ⟨more, hfm⟩ := hf (m t.1).1 ((m t.1).2, t.2 ++ first)
  refine ⟨first ++ more, ?_⟩
  rw [← List.append_assoc]
  show f' (m' t).1 (m' t).2 = _
  rw [hm]
  exact hfm

end Notes

namespace Host

/-- A host that notes what it is asked about anchors. -/
def traced (h : Host S A C K) : Host (S × List (Request A)) A C K where
  readGuide view := noting (h.readGuide view) fun _ => [.guide view]
  readAnchor a := noting (h.readAnchor a) fun found => [.anchor a found]
  relate lhs relation rhs offset := noting (h.relate lhs relation rhs offset) fun _ => [.relate lhs rhs]
  relateNumber lhs value := noting (h.relateNumber lhs value) fun _ => [.relateNumber lhs]
  setActive c active := noting (h.setActive c active) fun _ => []
  setPinned view enabled := noting (h.setPinned view enabled) fun _ => []
  report a := noting (h.report a) fun _ => []

/-- A host that does what another does, and notes requests. -/
structure Traces (h' : Host (S × List (Request A)) A C K) (h : Host S A C K) : Prop where
  readGuide : ∀ view, Notes (h'.readGuide view) (h.readGuide view)
  readAnchor : ∀ a, Notes (h'.readAnchor a) (h.readAnchor a)
  relate : ∀ lhs relation rhs offset,
    Notes (h'.relate lhs relation rhs offset) (h.relate lhs relation rhs offset)
  relateNumber : ∀ lhs value, Notes (h'.relateNumber lhs value) (h.relateNumber lhs value)
  setActive : ∀ c active, Notes (h'.setActive c active) (h.setActive c active)
  setPinned : ∀ view enabled, Notes (h'.setPinned view enabled) (h.setPinned view enabled)
  report : ∀ a, Notes (h'.report a) (h.report a)

/-- To note what is asked changes no answer of a host. -/
theorem traced_traces (h : Host S A C K) : Traces h.traced h where
  readGuide _ := fun _ => ⟨_, rfl⟩
  readAnchor _ := fun _ => ⟨_, rfl⟩
  relate _ _ _ _ := fun _ => ⟨_, rfl⟩
  relateNumber _ _ := fun _ => ⟨_, rfl⟩
  setActive _ _ := fun _ => ⟨_, rfl⟩
  setPinned _ _ := fun _ => ⟨_, rfl⟩
  report _ := fun _ => ⟨_, rfl⟩

namespace Traces

variable {h' : Host (S × List (Request A)) A C K} {h : Host S A C K} (traces : Traces h' h)
include traces

/-- An anchor is fetched with the same result, the guide of its safe area included. -/
theorem fetch (a : Anchor) : Notes (h'.fetch a) (h.fetch a) := by
  unfold Host.fetch
  cases a.safe with
  | false => exact traces.readAnchor a
  | true => exact (traces.readGuide a.view).bind fun _ => traces.readAnchor a

theorem apply (c : C) (report : Applied K) : Notes (h'.apply c report) (h.apply c report) :=
  (traces.setActive c true).bind fun _ => (traces.report report).bind fun _ => .pure c

/-- A property is read with the same result, and with the same cells filled. -/
theorem readProperty (view : ViewId) (p : Property) (cache : Cache A) :
    Notes (h'.readProperty view p cache) (h.readProperty view p cache) := by
  unfold Host.readProperty
  cases cache.get? p with
  | some a => exact .pure _
  | none =>
    have looked := (traces.readAnchor (p.anchor view)).bind fun a =>
      .pure (a, (⟨cache.guideRead || p.isSafe, (p, a) :: cache.anchors⟩ : Cache A))
    dsimp only
    cases p.isSafe && !cache.guideRead with
    | false => exact looked
    | true => exact (traces.readGuide view).bind fun _ => looked

variable [Scalar K]

/-- A relation looks up its target, if it has one, and makes its constraint as it would
without notes. -/
theorem applyRelating (lhs : A) (relating : Relating K) :
    Notes (h'.applyRelating lhs relating) (h.applyRelating lhs relating) := by
  have toAnchor (relation : Relation) (a : Anchor) (offset : K) (report : Applied K) :
      Notes (h'.fetch a >>= fun rhs => h'.relate lhs relation rhs offset >>= fun c =>
          h'.apply c report)
        (h.fetch a >>= fun rhs => h.relate lhs relation rhs offset >>= fun c => h.apply c report) :=
    (traces.fetch a).bind fun rhs => (traces.relate lhs relation rhs offset).bind fun c =>
      traces.apply c report
  have toNumber (value : K) (report : Applied K) :
      Notes (h'.relateNumber lhs value >>= fun c => h'.apply c report)
        (h.relateNumber lhs value >>= fun c => h.apply c report) :=
    (traces.relateNumber lhs value).bind fun c => traces.apply c report
  cases relating with
  | equalTo target =>
    cases target with
    | place p => exact toAnchor _ _ _ _
    | number value => exact toNumber _ _
  | greaterThanOrEqualTo p | lessThanOrEqualTo p => exact toAnchor _ _ _ _
  | explicit relation anchor offset => exact toAnchor _ _ _ _
  | equalConstant value => exact toNumber _ _

/-- An entry is run with the same outcome and leaves the same cache. -/
theorem runEntry (view : ViewId) (cache : Cache A) (e : Entry K) :
    Notes (h'.runEntry view cache e) (h.runEntry view cache e) := by
  cases e with
  | read p =>
    exact (traces.readProperty view p cache).bind fun first =>
      (traces.readProperty view p first.2).bind fun _ => .pure _
  | statement st =>
    exact (traces.readProperty view st.property cache).bind fun lhs =>
      (traces.applyRelating lhs.1 st.relating).bind fun _ => .pure _

/-- The entries of a block are run with the same outcomes. -/
theorem runEntries (view : ViewId) (entries : List (Entry K)) (cache : Cache A) :
    Notes (h'.runEntries view cache entries) (h.runEntries view cache entries) := by
  induction entries generalizing cache with
  | nil => exact .pure _
  | cons e rest ih =>
    exact (traces.runEntry view cache e).bind fun ran => (ih ran.2).bind fun _ => .pure _

theorem layout (view : ViewId) (entries : List (Entry K)) :
    Notes (h'.layout view entries) (h.layout view entries) :=
  (traces.setPinned view false).bind fun _ => traces.runEntries view entries {}

/-- A relation written outside of a block ends as it would without notes. -/
theorem relateAnchor (lhs : Anchor) (relating : Relating K) :
    Notes (h'.relateAnchor lhs relating) (h.relateAnchor lhs relating) :=
  (traces.fetch lhs).bind fun x => traces.applyRelating x relating

end Traces

end Host

end

/-! ## What the recorder finds -/

namespace Journal

section

variable (j : Journal K) (view : ViewId)

/-- The serial, counted from the start of a block, of the anchor that a use after others comes to: for
a property the place of its first read among the look-ups, for a target the next. -/
def serialAfter (before : List Access) : Access → Nat
  | .property p => (fetched before).idxOf (.property p)
  | .target _ => (fetched before).length

/-- The anchor that a use after others comes to. -/
def handle (before : List Access) (x : Access) : RecordedAnchor :=
  ⟨j.nameOf (x.anchor view), j.anchorReads.length + serialAfter before x⟩

/-- What a use after others looks up. -/
def lookUp (before : List Access) (x : Access) : List (Request RecordedAnchor) :=
  (if x.needsGuide before then [.guide (x.anchor view).view] else []) ++
    if x.isFetch before then [.anchor (x.anchor view) (j.handle view before x)] else []

/-- What uses after others look up. -/
def lookUpsAfter (before : List Access) : List Access → List (Request RecordedAnchor)
  | [] => []
  | x :: rest => j.lookUp view before x ++ lookUpsAfter (before ++ [x]) rest

/-- What a relation asks to be made: a constraint between the anchors it has come to. -/
def related (before : List Access) (lhs : RecordedAnchor) (relating : Relating K) :
    Request RecordedAnchor :=
  match relating.anchors with
  | [] => .relateNumber lhs
  | a :: _ => .relate lhs (j.handle view before (.target a))

/-- What an entry after others asks to be made. -/
def relatedBy (before : List Access) : Entry K → List (Request RecordedAnchor)
  | .read _ => []
  | .statement st => [j.related view (before ++ [.property st.property])
      (j.handle view before (.property st.property)) st.relating]

/-- What the entries of a block ask, after others. -/
def requestsAfter (before : List Access) : List (Entry K) → List (Request RecordedAnchor)
  | [] => []
  | e :: rest => j.lookUpsAfter view before e.accesses ++ j.relatedBy view before e ++
      requestsAfter (before ++ e.accesses) rest

end

/-- `Caught j₀ view before cache j`: a block on a view that started at `j₀` has come to `j` after the
uses `before`, with its cache filled for exactly the properties among them. -/
structure Caught (j₀ : Journal K) (view : ViewId) (before : List Access)
    (cache : Cache RecordedAnchor) (j : Journal K) : Prop where
  views : j.views = j₀.views
  reads : j.anchorReads = j₀.anchorReads ++
    (fetched before).map fun x => j₀.nameOf (x.anchor view)
  guides : j.guideReads = j₀.guideReads +
    ((j₀.lookUpsAfter view [] before).filterMap Request.guide?).length
  guideRead : cache.guideRead = before.any Access.readsSafe
  cells : ∀ p, cache.get? p =
    if .property p ∈ before then some (j₀.handle view before (.property p)) else none

/-- What is looked up by a use is told from the uses before it, so a sequence may be cut anywhere. -/
theorem lookUpsAfter_append (j : Journal K) (view : ViewId) (before xs ys : List Access) :
    j.lookUpsAfter view before (xs ++ ys) =
      j.lookUpsAfter view before xs ++ j.lookUpsAfter view (before ++ xs) ys := by
  induction xs generalizing before with
  | nil => rw [List.append_nil]; rfl
  | cons x xs ih => simp only [List.cons_append, lookUpsAfter, ih, List.append_assoc, List.nil_append]

/-- The look-ups of the last use come last. -/
theorem lookUpsAfter_concat (j : Journal K) (view : ViewId) (xs : List Access) (x : Access) :
    j.lookUpsAfter view [] (xs ++ [x]) = j.lookUpsAfter view [] xs ++ j.lookUp view xs x := by
  rw [lookUpsAfter_append, lookUpsAfter, lookUpsAfter, List.append_nil]
  rfl

/-- What is looked up gets the next serial. -/
theorem serialAfter_of_isFetch {before : List Access} {x : Access} (h : x.isFetch before = true) :
    serialAfter before x = (fetched before).length := by
  cases x with
  | property p =>
    refine List.idxOf_of_notMem fun hmem => ?_
    exact of_decide_eq_true h (property_mem_fetched.1 hmem)
  | target a => rfl

/-- A property that was read keeps its serial, whatever is used later. -/
theorem serialAfter_append {before : List Access} {p : Property} (h : .property p ∈ before)
    (later : List Access) :
    serialAfter (before ++ later) (.property p) = serialAfter before (.property p) := by
  rw [serialAfter, serialAfter, fetched_append, List.idxOf_append_of_mem (property_mem_fetched.2 h)]

/-- From its first read on a property has the serial that it got there. -/
theorem serialAfter_self (before : List Access) (p : Property) :
    serialAfter (before ++ [.property p]) (.property p) = serialAfter before (.property p) := by
  by_cases h : .property p ∈ before
  · exact serialAfter_append h _
  · have first : Access.isFetch before (.property p) = true := decide_eq_true h
    have absent : Access.property p ∉ fetched before := fun hmem => h (property_mem_fetched.1 hmem)
    rw [serialAfter_of_isFetch first, serialAfter, fetched_concat, if_pos first,
      List.idxOf_append_of_notMem absent, List.idxOf_cons_self, Nat.add_zero]

/-- The anchor that a property has come to stays, whatever is used later. -/
theorem handle_append (j : Journal K) (view : ViewId) {before : List Access} {p : Property}
    (h : .property p ∈ before) (later : List Access) :
    j.handle view (before ++ later) (.property p) = j.handle view before (.property p) := by
  rw [handle, handle, serialAfter_append h]

/-- From its first read on a property has the anchor that was found there. -/
theorem handle_self (j : Journal K) (view : ViewId) (before : List Access) (p : Property) :
    j.handle view (before ++ [.property p]) (.property p) = j.handle view before (.property p) := by
  rw [handle, handle, serialAfter_self]

/-- A read that is followed by other uses has come to the anchor that was found at the first one. -/
theorem handle_cons (j : Journal K) (view : ViewId) (before : List Access) (p : Property)
    (later : List Access) : j.handle view (before ++ .property p :: later) (.property p) =
      j.handle view before (.property p) := by
  have read : Access.property p ∈ before ++ [.property p] := List.mem_append_right _ (.head _)
  rw [List.append_cons, handle_append j view read, handle_self]

/-! ## Running a block -/

namespace Caught

variable {j₀ j : Journal K} {view : ViewId} {before : List Access} {cache : Cache RecordedAnchor}

/-- A block adds no views to the recorder, so the names of anchors stay. -/
theorem nameOf (h : Caught j₀ view before cache j) : j.nameOf = j₀.nameOf := by
  funext a
  rw [Journal.nameOf, Journal.nameOf, h.views]

/-- At the start nothing is cached, and nothing has been looked up since. -/
theorem start (j : Journal K) (view : ViewId) (flagWrites : List Bool) :
    Caught j view [] {} { j with flagWrites } where
  views := rfl
  reads := (List.append_nil _).symm
  guides := rfl
  guideRead := rfl
  cells _ := rfl

/-- The anchor that is looked up next. -/
theorem next (h : Caught j₀ view before cache j) {x : Access} (hx : x.isFetch before = true) :
    (⟨j.nameOf (x.anchor view), j.anchorReads.length⟩ : RecordedAnchor) = j₀.handle view before x := by
  rw [handle, serialAfter_of_isFetch hx, h.nameOf, h.reads, List.length_append, List.length_map]

/-- What a use looks up is written down, after as many guides as it needs. -/
theorem looked (h : Caught j₀ view before cache j) {x : Access} (hx : x.isFetch before = true)
    {cache' : Cache RecordedAnchor} {j' : Journal K} (views : j'.views = j.views)
    (reads : j'.anchorReads = j.anchorReads ++ [j.nameOf (x.anchor view)])
    (guides : j'.guideReads = j.guideReads + (x.needsGuide before).toNat)
    (guideRead : cache'.guideRead = (cache.guideRead || x.readsSafe))
    (cells : ∀ p, cache'.get? p = if .property p ∈ before ++ [x] then
      some (j₀.handle view (before ++ [x]) (.property p)) else none) :
    Caught j₀ view (before ++ [x]) cache' j' where
  views := views.trans h.views
  reads := by
    rw [reads, h.reads, h.nameOf, fetched_concat, if_pos hx, List.map_append, List.append_assoc]
    rfl
  guides := by
    rw [guides, h.guides, lookUpsAfter_concat, List.filterMap_append, List.length_append,
      Nat.add_assoc, lookUp, if_pos hx]
    cases x.needsGuide before <;> rfl
  guideRead := by
    rw [guideRead, h.guideRead, List.any_append, List.any_cons, List.any_nil, Bool.or_false]
  cells := cells

/-- A use that looks nothing up is of a property that was read. -/
theorem again (h : Caught j₀ view before cache j) {p : Property} (hp : .property p ∈ before) :
    Caught j₀ view (before ++ [.property p]) cache j ∧
      j₀.lookUp view before (.property p) = [] := by
  have known : Access.isFetch before (.property p) = false := decide_eq_false (not_not.2 hp)
  have guided : Access.needsGuide before (.property p) = false := by
    rw [Access.needsGuide, Bool.and_eq_false_iff, Bool.not_eq_false', List.any_eq_true]
    cases safe : p.isSafe with
    | false => exact .inl rfl
    | true => exact .inr ⟨_, hp, safe⟩
  have nothing : j₀.lookUp view before (.property p) = [] := by
    rw [lookUp, known, guided]
    rfl
  refine ⟨⟨h.views, ?_, ?_, ?_, fun q => ?_⟩, nothing⟩
  · rw [fetched_concat, known]
    exact h.reads.trans (by rw [if_neg Bool.false_ne_true, List.append_nil])
  · rw [lookUpsAfter_concat, nothing, List.append_nil]
    exact h.guides
  · rw [h.guideRead, List.any_append, List.any_cons, List.any_nil, Bool.or_false]
    cases safe : Access.readsSafe (.property p) with
    | false => exact (Bool.or_false _).symm
    | true => rw [List.any_eq_true.2 ⟨_, hp, safe⟩, Bool.or_true]
  · have same : Access.property q ∈ before ++ [.property p] ↔ Access.property q ∈ before := by
      rw [List.mem_append, List.mem_singleton]
      exact ⟨fun hq => hq.elim id fun hq => hq ▸ hp, .inl⟩
    rw [h.cells, if_congr same rfl rfl]
    split
    next hq => rw [handle_append _ _ hq]
    next => rfl

end Caught

/-- A property is read against a journal with the requests noted so far. It is looked up unless it was
read before, with the guide in front if it is the first of the safe area, and the cache has caught up
with the uses afterwards. -/
theorem traced_readProperty {j₀ j : Journal K} {view : ViewId} {before : List Access}
    {cache : Cache RecordedAnchor} (h : Caught j₀ view before cache j)
    (noted : List (Request RecordedAnchor)) (p : Property) :
    ∃ cache' j', host.traced.readProperty view p cache (j, noted) =
        ((j₀.handle view before (.property p), cache'),
          (j', noted ++ j₀.lookUp view before (.property p))) ∧
      Caught j₀ view (before ++ [.property p]) cache' j' := by
  unfold Host.readProperty
  rw [h.cells]
  by_cases hp : .property p ∈ before
  · obtain ⟨caught, nothing⟩ := h.again hp
    rw [if_pos hp, nothing, List.append_nil]
    exact ⟨cache, j, rfl, caught⟩
  · have first : Access.isFetch before (.property p) = true := decide_eq_true hp
    have found := h.next first
    have guided : (p.isSafe && !cache.guideRead) = Access.needsGuide before (.property p) := by
      rw [h.guideRead]
      rfl
    have cells : ∀ q, Cache.get? (⟨cache.guideRead || p.isSafe,
        (p, j₀.handle view before (.property p)) :: cache.anchors⟩) q =
          if .property q ∈ before ++ [.property p] then
            some (j₀.handle view (before ++ [.property p]) (.property q)) else none := by
      intro q
      rw [Cache.get?, List.lookup_cons]
      by_cases same : q = p
      · subst same
        simp [handle_self]
      · have other : Access.property q ∈ before ++ [.property p] ↔ Access.property q ∈ before := by
          simp [same]
        rw [beq_false_of_ne same, if_congr other rfl rfl]
        refine (h.cells q).trans ?_
        split
        next hq => rw [handle_append _ _ hq]
        next => rfl
    rw [if_neg hp, lookUp, if_pos first]
    dsimp only
    rw [guided]
    cases needs : Access.needsGuide before (.property p) with
    | false =>
      refine ⟨_, { j with anchorReads := j.anchorReads ++ [j.nameOf (p.anchor view)] }, ?_,
        h.looked first rfl rfl ?_ rfl cells⟩
      · rw [← found]
        rfl
      · rw [needs]
        rfl
    | true =>
      refine ⟨_, { j with anchorReads := j.anchorReads ++ [j.nameOf (p.anchor view)]
                          guideReads := j.guideReads + 1 }, ?_, h.looked first rfl rfl ?_ rfl cells⟩
      · rw [← found]
        show _ = (_, _, noted ++ ([_] ++ [_]))
        rw [← List.append_assoc]
        rfl
      · rw [needs]
        rfl

/-- A target is always looked up, and so gets the next serial. No cell of the cache is filled
for it. -/
theorem traced_fetch {j₀ j : Journal K} {view : ViewId} {before : List Access}
    {cache : Cache RecordedAnchor} (h : Caught j₀ view before cache j)
    (noted : List (Request RecordedAnchor)) (a : Anchor) :
    ∃ j', host.traced.fetch a (j, noted) =
        (j₀.handle view before (.target a), (j', noted ++ j₀.lookUp view before (.target a))) ∧
      Caught j₀ view (before ++ [.target a]) cache j' := by
  have first : Access.isFetch before (.target a) = true := rfl
  have found := h.next first
  have cells : ∀ q, cache.get? q = if .property q ∈ before ++ [.target a] then
      some (j₀.handle view (before ++ [.target a]) (.property q)) else none := by
    intro q
    have other : Access.property q ∈ before ++ [.target a] ↔ Access.property q ∈ before := by
      simp
    rw [h.cells q, if_congr other rfl rfl]
    split
    next hq => rw [handle_append _ _ hq]
    next => rfl
  have guideRead : cache.guideRead = (cache.guideRead || Access.readsSafe (.target a)) :=
    (Bool.or_false _).symm
  unfold Host.fetch
  rw [lookUp, if_pos first]
  cases needs : a.safe with
  | false =>
    refine ⟨{ j with anchorReads := j.anchorReads ++ [j.nameOf a] }, ?_,
      h.looked first rfl rfl ?_ guideRead cells⟩
    · rw [← found, Access.needsGuide, needs]
      rfl
    · rw [Access.needsGuide, needs]
      rfl
  | true =>
    refine ⟨{ j with anchorReads := j.anchorReads ++ [j.nameOf a]
                     guideReads := j.guideReads + 1 }, ?_, h.looked first rfl rfl ?_ guideRead cells⟩
    · rw [← found, Access.needsGuide, needs]
      show _ = (_, _, noted ++ ([_] ++ [_]))
      rw [← List.append_assoc]
      rfl
    · rw [Access.needsGuide, needs]
      rfl

variable [Scalar K]

/-- What a relation makes and reports is not looked up; its target is, and the constraint is made of
the anchor found there. -/
theorem traced_applyRelating {j₀ j : Journal K} {view : ViewId} {before : List Access}
    {cache : Cache RecordedAnchor} (h : Caught j₀ view before cache j)
    (noted : List (Request RecordedAnchor)) (lhs : RecordedAnchor) (relating : Relating K) :
    ∃ c j', host.traced.applyRelating lhs relating (j, noted) =
        (c, (j', noted ++ j₀.lookUpsAfter view before (relating.anchors.map .target) ++
          [j₀.related view before lhs relating])) ∧
      Caught j₀ view (before ++ relating.anchors.map .target) cache j' := by
  -- To make a constraint leaves alone what is looked up.
  have made {before : List Access} {j : Journal K} (h : Caught j₀ view before cache j)
      (noted : List (Request RecordedAnchor)) (call : Relationship K) (request : Request RecordedAnchor)
      (report : Applied K) : ∃ c j', (noting (record call) (fun _ => [request]) >>= fun c =>
          host.traced.apply c report) (j, noted) = (c, (j', noted ++ [request])) ∧
        Caught j₀ view before cache j' := by
    refine ⟨j.constraints.length, ((record call >>= fun c => host.apply c report) j).2, ?_,
      h.views, h.reads, h.guides, h.guideRead, h.cells⟩
    show (j.constraints.length, ((record call >>= fun c => host.apply c report) j).2,
      noted ++ [request] ++ [] ++ []) = _
    rw [List.append_nil, List.append_nil]
  have toAnchor (relation : Relation) (a : Anchor) (offset : K) (report : Applied K) :
      ∃ c j', (host.traced.fetch a >>= fun rhs => host.traced.relate lhs relation rhs offset >>=
          fun c => host.traced.apply c report) (j, noted) =
        (c, (j', noted ++ (j₀.lookUp view before (.target a) ++ []) ++
          [.relate lhs (j₀.handle view before (.target a))])) ∧
        Caught j₀ view (before ++ [.target a]) cache j' := by
    obtain ⟨j', hfetch, caught⟩ := traced_fetch h noted a
    obtain ⟨c, j'', hmade, caught'⟩ := made caught (noted ++ j₀.lookUp view before (.target a))
      (.between lhs.name relation (j₀.handle view before (.target a)).name offset)
      (.relate lhs (j₀.handle view before (.target a))) report
    refine ⟨c, j'', (bind_of_run hfetch).trans ?_, caught'⟩
    rw [List.append_nil]
    exact hmade
  have toNumber (value : K) (report : Applied K) :
      ∃ c j', (host.traced.relateNumber lhs value >>= fun c => host.traced.apply c report) (j, noted) =
        (c, (j', noted ++ [] ++ [.relateNumber lhs])) ∧ Caught j₀ view (before ++ []) cache j' := by
    rw [List.append_nil, List.append_nil]
    exact made h noted (.fixed lhs.name value) (.relateNumber lhs) report
  cases relating with
  | equalTo target =>
    cases target with
    | place p => exact toAnchor _ _ _ _
    | number value => exact toNumber _ _
  | greaterThanOrEqualTo p | lessThanOrEqualTo p => exact toAnchor _ _ _ _
  | explicit relation anchor offset => exact toAnchor _ _ _ _
  | equalConstant value => exact toNumber _ _

/-- What an entry answers, if it is a read: the anchor of the property, twice. -/
def Answers (anchorOf : Property → RecordedAnchor) :
    Entry K → Outcome RecordedAnchor ConstraintId → Prop
  | .read p, o => o = .anchors (anchorOf p) (anchorOf p)
  | .statement _, o => ∀ a b, o ≠ .anchors a b

/-- An entry notes the look-ups of its uses, and then the constraint it makes if it is a statement. -/
theorem traced_runEntry {j₀ j : Journal K} {view : ViewId} {before : List Access}
    {cache : Cache RecordedAnchor} (h : Caught j₀ view before cache j)
    (noted : List (Request RecordedAnchor)) (e : Entry K) :
    ∃ o cache' j', host.traced.runEntry view cache e (j, noted) =
        ((o, cache'), (j', noted ++
          (j₀.lookUpsAfter view before e.accesses ++ j₀.relatedBy view before e))) ∧
      Answers (fun p => j₀.handle view (before ++ e.accesses) (.property p)) e o ∧
      Caught j₀ view (before ++ e.accesses) cache' j' := by
  cases e with
  | read p =>
    obtain ⟨cache', j', first, caught⟩ := traced_readProperty h noted p
    obtain ⟨cache'', j'', second, caught'⟩ :=
      traced_readProperty caught (noted ++ j₀.lookUp view before (.property p)) p
    have twice : before ++ (Entry.read p : Entry K).accesses =
        before ++ [.property p] ++ [.property p] := by
      simp [Entry.accesses]
    rw [twice]
    refine ⟨_, cache'', j'', (bind_of_run first).trans ((bind_of_run second).trans ?_), rfl, caught'⟩
    show ((Outcome.anchors (j₀.handle view before (.property p))
      (j₀.handle view (before ++ [.property p]) (.property p)), cache''), (j'', _)) = _
    simp only [handle_self]
    simp [Entry.accesses, lookUpsAfter, relatedBy]
  | statement st =>
    obtain ⟨cache', j', read, caught⟩ := traced_readProperty h noted st.property
    obtain ⟨c, j'', made, caught'⟩ := traced_applyRelating caught
      (noted ++ j₀.lookUp view before (.property st.property))
      (j₀.handle view before (.property st.property)) st.relating
    have both : before ++ (Entry.statement st).accesses =
        before ++ [.property st.property] ++ st.relating.anchors.map .target := by
      simp [Entry.accesses]
    rw [both]
    refine ⟨if st.kept then .constraint c else .discarded, cache', j'', ?_, ?_, caught'⟩
    · refine (bind_of_run read).trans ((bind_of_run made).trans ?_)
      show ((if st.kept then Outcome.constraint c else .discarded, cache'), (j'', _)) = _
      simp [Entry.accesses, lookUpsAfter, relatedBy]
    · intro a b
      cases st.kept <;> nofun

/-- The entries of a block, by induction on them. -/
theorem traced_runEntries (entries : List (Entry K)) {j₀ j : Journal K} {view : ViewId}
    {before : List Access} {cache : Cache RecordedAnchor} (h : Caught j₀ view before cache j)
    (noted : List (Request RecordedAnchor)) :
    ∃ outcomes cache' j', host.traced.runEntries view cache entries (j, noted) =
        (outcomes, (j', noted ++ j₀.requestsAfter view before entries)) ∧
      List.Forall₂ (Answers fun p => j₀.handle view (before ++ accessesOf entries) (.property p))
        entries outcomes ∧
      Caught j₀ view (before ++ accessesOf entries) cache' j' := by
  induction entries generalizing j before cache noted with
  | nil =>
    refine ⟨[], cache, j, ?_, .nil, ?_⟩
    · rw [requestsAfter, List.append_nil]
      rfl
    · rwa [accessesOf, List.flatMap_nil, List.append_nil]
  | cons e rest ih =>
    obtain ⟨o, cache', j', ran, answers, caught⟩ := traced_runEntry h noted e
    obtain ⟨outcomes, cache'', j'', hrest, answersRest, caught'⟩ := ih caught
      (noted ++ (j₀.lookUpsAfter view before e.accesses ++ j₀.relatedBy view before e))
    rw [accessesOf_cons, ← List.append_assoc]
    refine ⟨o :: outcomes, cache'', j'', ?_, .cons ?_ answersRest, caught'⟩
    · refine (bind_of_run ran).trans ((bind_of_run hrest).trans ?_)
      show (o :: outcomes, (j'', _)) = _
      rw [requestsAfter, List.append_assoc noted]
    · cases e with
      | statement st => exact answers
      | read p =>
        -- The anchor stays that of the property however many entries follow.
        have read : Access.property p ∈ before ++ (Entry.read p : Entry K).accesses :=
          List.mem_append_right _ (.head _)
        rw [Answers, handle_append _ _ read]
        exact answers

end Journal

end ViewConstraints.Layout
