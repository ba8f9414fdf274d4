import Mathlib.Algebra.GroupWithZero.Nat
import ViewConstraints.Proofs.Layout.LookUps

/-!
# Properties are looked up at their first read

What the look-ups of a block amount to: each property that is read is looked up once, at its first
read, the guide once before the first property of the safe area, and every target; the serials are
consecutive (`Journal.LazyReads`). This holds of every block, whatever was looked up before it, so a
recording looks up what its steps look up, each for itself (`Recording.layout_reads_lazily`).
-/

namespace ViewConstraints.Layout

open scoped List

section

variable {K : Type}

/-- Targets are looked up at every use. -/
theorem fetchedAfter_targets (before : List Access) (targets : List Anchor) :
    fetchedAfter before (targets.map .target) = targets.map .target := by
  induction targets generalizing before with
  | nil => rfl
  | cons a rest ih => exact congrArg (Access.target a :: ·) (ih _)

/-- Where a property is looked up that was not read before. -/
theorem fetched_of_first {before : List Access} {p : Property} (after : List Access)
    (h : .property p ∉ before) : fetched (before ++ .property p :: after) =
      fetched before ++ .property p :: fetchedAfter (before ++ [.property p]) after := by
  have first : Access.isFetch before (.property p) = true := decide_eq_true h
  rw [fetched_append, fetchedAfter, if_pos first]
  rfl

namespace Journal

variable (j : Journal K) (view : ViewId)

/-- A use looks up the guide of its view at most once. -/
theorem filterMap_guide?_lookUp (before : List Access) (x : Access) :
    (j.lookUp view before x).filterMap Request.guide? =
      if x.needsGuide before then [(x.anchor view).view] else [] := by
  rw [lookUp]
  cases x.needsGuide before <;> cases x.isFetch before <;> rfl

/-- A use looks up an anchor at most once, and gets the handle that the block keeps for it. -/
theorem filterMap_found?_lookUp (before : List Access) (x : Access) :
    (j.lookUp view before x).filterMap Request.found? =
      if x.isFetch before then [(x.anchor view, j.handle view before x)] else [] := by
  rw [lookUp]
  cases x.needsGuide before <;> cases x.isFetch before <;> rfl

/-- The guide is looked up once for all properties of the safe area, and once for each target of a
safe area. -/
theorem guides_perm (accesses : List Access) :
    (j.lookUpsAfter view [] accesses).filterMap Request.guide? ~
      (if accesses.any Access.readsSafe then [view] else []) ++
        ((accesses.filterMap Access.target?).filter Anchor.safe).map Anchor.view := by
  induction accesses using List.reverseRecOn with
  | nil => exact .nil
  | append_singleton xs x ih =>
    rw [lookUpsAfter_concat, List.filterMap_append, filterMap_guide?_lookUp, List.filterMap_append,
      List.filter_append, List.map_append, List.any_append]
    refine (ih.append_right _).trans ?_
    rw [List.append_assoc]
    cases x with
    | target a =>
      rw [List.any_cons, Access.readsSafe, List.any_nil, Bool.or_self, Bool.or_false, Access.needsGuide]
      refine .of_eq (congrArg _ (congrArg _ ?_))
      cases safe : a.safe <;> simp [Access.target?, Access.anchor, safe]
    | property p =>
      have none : ([Access.property p].filterMap Access.target?) = [] := rfl
      rw [none, List.filter_nil, List.map_nil, List.append_nil, List.any_cons, Access.readsSafe,
        List.any_nil, Bool.or_false, Access.needsGuide]
      cases xs.any Access.readsSafe <;> cases p.isSafe
      case false.true => exact List.perm_append_singleton view _
      all_goals exact .of_eq (congrArg _ (List.append_nil _))

/-- The anchors looked up have consecutive serials. -/
theorem filterMap_found?_lookUpsAfter (accesses : List Access) :
    (j.lookUpsAfter view [] accesses).filterMap Request.found? =
      ((fetched accesses).zipIdx j.anchorReads.length).map fun (x, serial) =>
        (x.anchor view, ⟨j.nameOf (x.anchor view), serial⟩) := by
  induction accesses using List.reverseRecOn with
  | nil => rfl
  | append_singleton xs x ih =>
    rw [lookUpsAfter_concat, List.filterMap_append, ih, filterMap_found?_lookUp, fetched_concat,
      List.zipIdx_append, List.map_append]
    congr 1
    split
    next first => rw [handle, serialAfter_of_isFetch first]; rfl
    next => rfl

/-- All that uses of anchors request is look-ups. -/
theorem filter_isLookUp_lookUpsAfter (before accesses : List Access) :
    (j.lookUpsAfter view before accesses).filter Request.isLookUp =
      j.lookUpsAfter view before accesses := by
  rw [List.filter_eq_self]
  induction accesses generalizing before with
  | nil => exact List.forall_mem_nil _
  | cons x rest ih =>
    refine List.forall_mem_append.2 ⟨?_, ih _⟩
    rw [lookUp]
    cases x.needsGuide before <;> cases x.isFetch before <;> simp [Request.isLookUp]

/-- Apart from making constraints a block looks up what its uses of anchors look up. -/
theorem filter_isLookUp_requestsAfter (before : List Access) (entries : List (Entry K)) :
    (j.requestsAfter view before entries).filter Request.isLookUp =
      j.lookUpsAfter view before (accessesOf entries) := by
  induction entries generalizing before with
  | nil => rfl
  | cons e rest ih =>
    have made : (j.relatedBy view before e).filter Request.isLookUp = [] := by
      cases e with
      | read p => rfl
      | statement st =>
        rw [relatedBy, related]
        split <;> rfl
    rw [requestsAfter, List.filter_append, List.filter_append, made, List.append_nil, ih,
      filter_isLookUp_lookUpsAfter, accessesOf_cons, lookUpsAfter_append]

end Journal

/-- The property that an entry relates to something. -/
def Entry.related? : Entry K → Option Property
  | .read _ => none
  | .statement st => some st.property

namespace Journal

variable (j : Journal K) (view : ViewId)

/-- Look-ups make no constraint. -/
theorem filterMap_lhs?_lookUpsAfter (before accesses : List Access) :
    (j.lookUpsAfter view before accesses).filterMap Request.lhs? = [] := by
  induction accesses generalizing before with
  | nil => rfl
  | cons x rest ih =>
    rw [lookUpsAfter, List.filterMap_append, ih, List.append_nil, lookUp]
    cases x.needsGuide before <;> cases x.isFetch before <;> rfl

/-- What is made is made of the anchors that the properties have throughout the block. -/
theorem filterMap_lhs?_requestsAfter (before : List Access) (entries : List (Entry K)) :
    (j.requestsAfter view before entries).filterMap Request.lhs? =
      (entries.filterMap Entry.related?).map fun p =>
        j.handle view (before ++ accessesOf entries) (.property p) := by
  induction entries generalizing before with
  | nil => rfl
  | cons e rest ih =>
    rw [requestsAfter, List.filterMap_append, List.filterMap_append, filterMap_lhs?_lookUpsAfter, ih,
      List.nil_append, List.append_assoc, ← accessesOf_cons]
    cases e with
    | read p => rfl
    | statement st =>
      have lhs : (j.relatedBy view before (.statement st)).filterMap Request.lhs? =
          [j.handle view before (.property st.property)] := by
        rw [relatedBy, related]
        split <;> rfl
      rw [lhs, accessesOf_cons]
      exact congrArg (· :: _) (j.handle_cons view before st.property _).symm

/-- Where a property of the safe area is looked up if none was before. -/
theorem lookUpsAfter_of_firstSafe {before : List Access} {p : Property}
    (after : List Access) (safe : p.isSafe = true) (h : before.any Access.readsSafe = false) :
    j.lookUpsAfter view [] (before ++ .property p :: after) = j.lookUpsAfter view [] before ++
      .guide view :: .anchor (p.anchor view) (j.handle view before (.property p)) ::
        j.lookUpsAfter view (before ++ [.property p]) after := by
  have first : Access.isFetch before (.property p) = true := by
    refine decide_eq_true fun read => ?_
    exact Bool.false_ne_true (h.symm.trans (List.any_eq_true.2 ⟨_, read, safe⟩))
  have needs : Access.needsGuide before (.property p) = true := by
    rw [Access.needsGuide, safe, h]
    rfl
  rw [lookUpsAfter_append, List.nil_append, lookUpsAfter, lookUp, if_pos first, if_pos needs]
  rfl

/-- How often a guide is looked up: once for the block if it reads the safe area, and once for every
target in a safe area. -/
theorem length_guides (accesses : List Access) :
    ((j.lookUpsAfter view [] accesses).filterMap Request.guide?).length =
      (accesses.any Access.readsSafe).toNat +
        (accesses.filterMap Access.target?).countP Anchor.safe := by
  rw [(j.guides_perm view accesses).length_eq, List.length_append, List.length_map,
    List.countP_eq_length_filter]
  cases accesses.any Access.readsSafe <;> rfl

end Journal

/-! ## What steps look up -/

namespace Recording

/-- The anchors that a step looks up, in order. -/
def Step.fetched : Step K → List Anchor
  | .layout view entries => (Layout.fetched (accessesOf entries)).map (Access.anchor view)
  | .relate lhs relating => lhs :: relating.anchors
  | .setActive _ _ => []

/-- How many guides a step looks up. -/
def Step.guides : Step K → Nat
  | .layout _ entries => ((accessesOf entries).any Access.readsSafe).toNat +
      ((accessesOf entries).filterMap Access.target?).countP Anchor.safe
  | .relate lhs relating => (lhs :: relating.anchors).countP Anchor.safe
  | .setActive _ _ => 0

/-- `Looked j anchors guides j'`: from `j` to `j'` these anchors were looked up, and as many guides. -/
structure Looked (j : Journal K) (anchors : List Anchor) (guides : Nat) (j' : Journal K) : Prop where
  views : j'.views = j.views
  anchorReads : j'.anchorReads = j.anchorReads ++ anchors.map j.nameOf
  guideReads : j'.guideReads = j.guideReads + guides

theorem Looked.trans {j j' j'' : Journal K} {anchors anchors' : List Anchor} {guides guides' : Nat}
    (h : Looked j anchors guides j') (h' : Looked j' anchors' guides' j'') :
    Looked j (anchors ++ anchors') (guides + guides') j'' where
  views := h'.views.trans h.views
  anchorReads := by
    have names : j'.nameOf = j.nameOf := by
      funext a
      rw [Journal.nameOf, Journal.nameOf, h.views]
    rw [h'.anchorReads, h.anchorReads, names, List.map_append, List.append_assoc]
  guideReads := by rw [h'.guideReads, h.guideReads, Nat.add_assoc]

end Recording

/-! ## Blocks -/

variable [Scalar K]

namespace Journal

/-- What a block on a view looks up, and what its reads give, when it runs against a recorder that has
written `j` so far. -/
structure LazyReads (j : Journal K) (view : ViewId) (entries : List (Entry K)) : Prop where
  /-- The requests noted, in order; to note them changes nothing. -/
  requests : host.traced.layout view entries (j, []) =
    ((host.layout view entries j).1, (host.layout view entries j).2, j.requestsAfter view [] entries)
  lookUps : (j.requestsAfter view [] entries).filter Request.isLookUp =
    j.lookUpsAfter view [] (accessesOf entries)
  /-- The anchors looked up have consecutive serials. -/
  serials : (j.lookUpsAfter view [] (accessesOf entries)).filterMap Request.found? =
    ((fetched (accessesOf entries)).zipIdx j.anchorReads.length).map fun (x, serial) =>
      (x.anchor view, ⟨j.nameOf (x.anchor view), serial⟩)
  views : (host.layout view entries j).2.views = j.views
  anchorReads : (host.layout view entries j).2.anchorReads =
    j.anchorReads ++ (fetched (accessesOf entries)).map fun x => j.nameOf (x.anchor view)
  /-- What is looked up are uses in their order: every target, and every property that is read, once. -/
  order : fetched (accessesOf entries) <+ accessesOf entries
  targets : (fetched (accessesOf entries)).filterMap Access.target? =
    (accessesOf entries).filterMap Access.target?
  properties : ∀ p, (fetched (accessesOf entries)).count (.property p) =
    if .property p ∈ accessesOf entries then 1 else 0
  /-- A property is looked up where it is read first. -/
  first : ∀ before p after, accessesOf entries = before ++ .property p :: after →
    .property p ∉ before → fetched (accessesOf entries) =
      fetched before ++ .property p :: fetchedAfter (before ++ [.property p]) after
  /-- Each guide that is looked up, the view's own for all properties and one for each target. -/
  guides : (j.lookUpsAfter view [] (accessesOf entries)).filterMap Request.guide? ~
    (if (accessesOf entries).any Access.readsSafe then [view] else []) ++
      (((accessesOf entries).filterMap Access.target?).filter Anchor.safe).map Anchor.view
  /-- The guide of the view is looked up just before the first property of the safe area. -/
  firstSafe : ∀ before p after, accessesOf entries = before ++ .property p :: after →
    p.isSafe = true → before.any Access.readsSafe = false →
    j.lookUpsAfter view [] (accessesOf entries) = j.lookUpsAfter view [] before ++
      .guide view :: .anchor (p.anchor view) (j.handle view before (.property p)) ::
        j.lookUpsAfter view (before ++ [.property p]) after
  guideReads : (host.layout view entries j).2.guideReads = j.guideReads +
    ((accessesOf entries).any Access.readsSafe).toNat +
      ((accessesOf entries).filterMap Access.target?).countP Anchor.safe
  /-- All reads of a property give the anchor that has the serial of its first, -/
  reads : List.Forall₂ (Answers fun p => j.handle view (accessesOf entries) (.property p)) entries
    (host.layout view entries j).1
  /-- and so do the relations of the property. -/
  relations : (j.requestsAfter view [] entries).filterMap Request.lhs? =
    (entries.filterMap Entry.related?).map fun p =>
      j.handle view (accessesOf entries) (.property p)

/-- Every block reads its properties lazily, whatever was written before. A host that notes the
requests it gets runs the block as the recorder does, and the notes are read off its entries. -/
theorem layout_lazyReads (j : Journal K) (view : ViewId) (entries : List (Entry K)) :
    LazyReads j view entries := by
  obtain ⟨outcomes, cache, j', ran, answers, caught⟩ :=
    traced_runEntries entries (Caught.start j view (j.flagWrites ++ [false])) []
  rw [List.nil_append] at ran answers caught
  have traced : host.traced.layout view entries (j, []) =
      (outcomes, (j', j.requestsAfter view [] entries)) := ran
  obtain ⟨_, plain⟩ := (host.traced_traces).layout view entries (j, [])
  rw [traced, Prod.mk.injEq, Prod.mk.injEq] at plain
  obtain ⟨rfl, rfl, -⟩ := plain
  exact {
    requests := traced
    lookUps := j.filter_isLookUp_requestsAfter view [] entries
    serials := j.filterMap_found?_lookUpsAfter view _
    views := caught.views
    anchorReads := caught.reads
    order := fetched_sublist _
    targets := targets_fetched _
    properties := fun p => count_property_fetched p _
    first := fun before p after split fresh => by rw [split, fetched_of_first after fresh]
    guides := j.guides_perm view _
    firstSafe := fun before p after split safe fresh => by
      rw [split, j.lookUpsAfter_of_firstSafe view after safe fresh]
    guideReads := by rw [caught.guides, length_guides, Nat.add_assoc]
    reads := answers
    relations := j.filterMap_lhs?_requestsAfter view [] entries }

/-- A property of the safe area that is related to another, read again, and one that is not. -/
example : (host.layout 0 [.statement ⟨.safeTop, .equalTo (.place ⟨⟨1, .bottom, true⟩, []⟩), true⟩,
      .read .safeTop, .read .leading] ({ views := ["v", "w"] } : Journal Rat)).2.anchorReads =
    [⟨"v", .top, true⟩, ⟨"w", .bottom, true⟩, ⟨"v", .leading, false⟩] := by
  decide +kernel

end Journal

/-! ## Recordings -/

namespace Recording

/-- A relation outside any block looks its anchors up from scratch: it has no cache, so its anchors
are looked up as the targets of a block are. -/
theorem relateAnchor_looked (lhs : Anchor) (relating : Relating K) (j : Journal K) :
    Looked j (lhs :: relating.anchors) ((lhs :: relating.anchors).countP Anchor.safe)
      (Journal.host.relateAnchor lhs relating j).2 := by
  -- Only targets are used, so it does not matter on which view.
  obtain ⟨j₁, fetched, caught⟩ :=
    Journal.traced_fetch (Journal.Caught.start j lhs.view j.flagWrites) [] lhs
  obtain ⟨c, j₂, related, caught'⟩ := Journal.traced_applyRelating caught
    ([] ++ j.lookUp lhs.view [] (.target lhs)) (j.handle lhs.view [] (.target lhs)) relating
  obtain ⟨_, plain⟩ := (Journal.host.traced_traces).relateAnchor lhs relating (j, [])
  have traced := (bind_of_run (f := fun x => Journal.host.traced.applyRelating x relating)
    fetched).trans related
  rw [show Journal.host.traced.relateAnchor lhs relating (j, []) = _ from traced,
    Prod.mk.injEq, Prod.mk.injEq] at plain
  obtain ⟨-, rfl, -⟩ := plain
  have uses : [] ++ [Access.target lhs] ++ relating.anchors.map .target =
      (lhs :: relating.anchors).map .target := rfl
  rw [uses] at caught'
  refine ⟨caught'.views, ?_, ?_⟩
  · rw [caught'.reads, Layout.fetched, fetchedAfter_targets, List.map_map]
    rfl
  · rw [caught'.guides, Journal.length_guides]
    simp [Access.readsSafe, Access.target?, Function.comp_def]

/-- A step looks up its own anchors and guides, whatever was looked up before it. -/
theorem perform_looked (r : Recording K) (step : Step K) :
    Looked r.journal step.fetched step.guides (r.perform step).2.journal := by
  cases step with
  | layout view entries =>
    have lazy := r.journal.layout_lazyReads view entries
    refine ⟨lazy.views, ?_, ?_⟩
    · rw [Step.fetched, List.map_map]
      exact lazy.anchorReads
    · rw [Step.guides, ← Nat.add_assoc]
      exact lazy.guideReads
  | relate lhs relating => exact relateAnchor_looked lhs relating r.journal
  | setActive place active =>
    have same : Looked r.journal [] 0 r.journal := ⟨rfl, (List.append_nil _).symm, rfl⟩
    have set (c : ConstraintId) : Looked r.journal [] 0 (Journal.setActive c active r.journal).2 :=
      ⟨rfl, (List.append_nil _).symm, rfl⟩
    simp only [perform]
    split
    · exact same
    next c _ =>
      have done := set c
      generalize Journal.setActive c active r.journal = a at done ⊢
      obtain ⟨_, journal⟩ := a
      dsimp only
      split
      · exact same
      · exact done

/-- What a recording has looked up is what its steps look up, one after the other. -/
theorem transcript_looked (steps : List (Step K)) (r : Recording K) :
    Looked r.journal (steps.flatMap Step.fetched) (steps.map Step.guides).sum
      (r.transcript steps).2.journal := by
  induction steps generalizing r with
  | nil => exact ⟨rfl, (List.append_nil _).symm, rfl⟩
  | cons step steps ih => exact (r.perform_looked step).trans (ih _)

/-- Every block, on whatever view and after whatever steps, looks up each property it reads once, at
the first read, and its guide once before the first property of the safe area (`LazyReads`). So what
a recording has looked up is what its steps look up one after the other, where a block looks up
its properties whether or not one before it on the same view has. -/
theorem layout_reads_lazily :
    (∀ (j : Journal K) (view : ViewId) (entries : List (Entry K)), j.LazyReads view entries) ∧
    ∀ (views : List String) (steps : List (Step K)),
      Looked { views } (steps.flatMap Step.fetched) (steps.map Step.guides).sum
        ((start views).transcript steps).2.journal :=
  ⟨Journal.layout_lazyReads, fun views steps => transcript_looked steps (start views)⟩

end Recording

end

end ViewConstraints.Layout
