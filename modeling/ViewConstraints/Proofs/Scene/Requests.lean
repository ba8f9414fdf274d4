import ViewConstraints.Session

/-!
# Sessions as requests of a scene

Every step of a session is a chain of requests made of its scene. A relation between scenes that is
kept by each kind of request (`Stable`) is therefore kept by every step and every run
(`Session.perform_stable`, `Session.run_stable`), layout blocks included: over a scene a block is
nothing but the requests of its statements in order (`host_runEntries`).

What a request does is taken apart once: `trySetActive_switching` and `frame_read` say how requests for
activity and reads end, and `pin_induction` and `unpin_induction` go along the pins of a view. What a
session answers with the constraints it keeps depends on the constraints on record only
(`Session.SameRecord`).
-/

namespace ViewConstraints

open Layout

variable {K : Type} [Scalar K]

/-! ## Layout blocks over a scene -/

/-- The report of a relation. -/
def Layout.Relating.report : Relating K → Applied K
  | .equalTo _ => .equality
  | .greaterThanOrEqualTo p => .distance .greaterOrEqual p.offset
  | .lessThanOrEqualTo p => .distance .lessOrEqual p.offset
  | .explicit relation _ offset => .distance relation offset
  | .equalConstant value => .number value

/-- The anchors on the right side of a relation. -/
def Layout.Relating.anchors : Relating K → List Anchor
  | .equalTo (.place p) | .greaterThanOrEqualTo p | .lessThanOrEqualTo p => [p.anchor]
  | .explicit _ anchor _ => [anchor]
  | .equalTo (.number _) | .equalConstant _ => []

/-- The anchors that a statement of a block on a view relates. -/
def Layout.Statement.anchors (st : Statement K) (view : ViewId) : List Anchor :=
  st.property.anchor view :: st.relating.anchors

/-- What a statement answers when it has made the constraint `c`. -/
def Layout.Statement.outcome (st : Statement K) (c : ConstraintId) : Outcome Anchor ConstraintId :=
  if st.kept then .constraint c else .discarded

namespace Scene

/-- Makes the inactive constraint that an anchor is related as written. -/
def construct (s : Scene K) (lhs : Anchor) : Relating K → ConstraintId × Scene K
  | .equalTo (.place p) => s.relate lhs .equal p.anchor p.offset
  | .equalTo (.number value) => s.relateNumber lhs value
  | .greaterThanOrEqualTo p => s.relate lhs .greaterOrEqual p.anchor p.offset
  | .lessThanOrEqualTo p => s.relate lhs .lessOrEqual p.anchor p.offset
  | .explicit relation anchor offset => s.relate lhs relation anchor offset
  | .equalConstant value => s.relateNumber lhs value

/-- Makes the constraint that an anchor is related as written, activates it and reports it. -/
def state (s : Scene K) (lhs : Anchor) (relating : Relating K) : ConstraintId × Scene K :=
  let made := s.construct lhs relating
  (made.1, (made.2.setActive made.1 true).emit (.applied relating.report))

/-- Makes the statements of a block on a view in order. -/
def stateAll (view : ViewId) (s : Scene K) :
    List (Statement K) → List (Outcome Anchor ConstraintId) × Scene K
  | [] => ([], s)
  | st :: rest =>
    let made := s.state (st.property.anchor view) st.relating
    let others := stateAll view made.2 rest
    (st.outcome made.1 :: others.1, others.2)

/-- Looking up an anchor leaves no mark on a scene. -/
theorem host_fetch (s : Scene K) (a : Anchor) : host.fetch a s = (a, s) := by
  unfold Host.fetch
  cases a.safe <;> rfl

/-- Over a scene a relation is the request that makes its constraint, the activation and the report:
looking up its target has no effect. -/
theorem host_applyRelating (s : Scene K) (lhs : Anchor) (relating : Relating K) :
    host.applyRelating lhs relating s = s.state lhs relating := by
  have bound {α : Type} (a : Anchor) (f : Anchor → StateM (Scene K) α) :
      (host.fetch a >>= f) s = f a s := by
    rw [show (host.fetch a >>= f) s = f (host.fetch a s).1 (host.fetch a s).2 from rfl, host_fetch]
  cases relating with
  | equalTo target =>
    cases target with
    | place p => exact bound p.anchor _
    | number value => rfl
  | greaterThanOrEqualTo p => exact bound p.anchor _
  | lessThanOrEqualTo p => exact bound p.anchor _
  | explicit relation anchor offset => exact bound anchor _
  | equalConstant value => rfl

/-- A relation written outside of a block is the statement of it. -/
theorem host_relateAnchor (s : Scene K) (lhs : Anchor) (relating : Relating K) :
    host.relateAnchor lhs relating s = s.state lhs relating := by
  rw [Host.relateAnchor, ← host_applyRelating]
  show host.applyRelating (host.fetch lhs s).1 relating (host.fetch lhs s).2 = _
  rw [host_fetch]

/-- The anchors cached for a view are those that its properties stand for. -/
def CacheOf (view : ViewId) (cache : Cache Anchor) : Prop :=
  ∀ p a, cache.get? p = some a → a = p.anchor view

/-- Through the cache or not, a property reads as the anchor it stands for. -/
theorem host_readProperty {view : ViewId} {cache : Cache Anchor} (h : CacheOf view cache)
    (s : Scene K) (p : Property) :
    ∃ cache', CacheOf view cache' ∧
      host.readProperty view p cache s = ((p.anchor view, cache'), s) := by
  unfold Host.readProperty
  cases hp : cache.get? p with
  | some a => exact ⟨cache, h, by rw [h p a hp]; rfl⟩
  | none =>
    refine ⟨⟨cache.guideRead || p.isSafe, (p, p.anchor view) :: cache.anchors⟩,
      Cache.forall_cons h _ rfl, ?_⟩
    cases p.isSafe && !cache.guideRead <;> rfl

/-- The entries of a block make their statements in order, by induction on them. The cache only says
what the properties stand for, so what is read through it is the same. -/
theorem host_runEntries (view : ViewId) (statements : List (Statement K)) :
    ∀ {cache : Cache Anchor}, CacheOf view cache → ∀ s : Scene K,
      host.runEntries view cache (statements.map Entry.statement) s = stateAll view s statements := by
  induction statements with
  | nil => intro _ _ _; rfl
  | cons st rest ih =>
    intro cache h s
    obtain ⟨cache', h', hread⟩ := host_readProperty h s st.property
    have hentry : host.runEntry view cache (.statement st) s =
        ((st.outcome (s.state (st.property.anchor view) st.relating).1, cache'),
          (s.state (st.property.anchor view) st.relating).2) := by
      unfold Host.runEntry
      show (host.applyRelating (host.readProperty view st.property cache s).1.1 st.relating >>=
        fun c => pure (if st.kept then Outcome.constraint c else .discarded,
          (host.readProperty view st.property cache s).1.2))
        (host.readProperty view st.property cache s).2 = _
      rw [hread, ← host_applyRelating]
      rfl
    rw [List.map_cons, Host.runEntries]
    show (host.runEntries view (host.runEntry view cache (.statement st) s).1.2
        (rest.map Entry.statement) >>=
      fun outcomes => pure ((host.runEntry view cache (.statement st) s).1.1 :: outcomes))
      (host.runEntry view cache (.statement st) s).2 = _
    rw [hentry]
    exact congrArg (fun others : List (Outcome Anchor ConstraintId) × Scene K =>
      (st.outcome _ :: others.1, others.2)) (ih h' _)

/-- A block releases its view and then makes its statements in order. -/
theorem host_layout (s : Scene K) (view : ViewId) (statements : List (Statement K)) :
    host.layout view (statements.map Entry.statement) s =
      stateAll view (s.setPinned view false) statements := by
  have empty : CacheOf view {} := by
    intro p a h
    simp [Cache.get?] at h
  exact host_runEntries view statements empty _

/-! ## Changes of activity -/

/-- What a solver is asked for to make a constraint active or inactive. -/
def requestActivity (s : Scene K) (r : AnchorConstraint K) (active : Bool) :
    Except EngineError.Cause Unit × Scene K :=
  (if active then s.addLinear else s.removeLinear) r.engine r.linear

/-- A scene in which the activity of a constraint is changed and reported. -/
def switch (s : Scene K) (c : ConstraintId) (r : AnchorConstraint K) (active : Bool) : Scene K :=
  { s.emit (if active then .activated c r.relationship else .deactivated c r.relationship) with
    constraints := s.constraints.modify c fun r => { r with active } }

/-- How a request for activity ends: with nothing to do, with the refusal of the solver, or with the
change of the flag once the solver has accepted. -/
inductive Switching (s : Scene K) (c : ConstraintId) (active : Bool) :
    Except (EngineError (Relationship K)) Unit × Scene K → Prop where
  | idle : (∀ r, s.constraints[c]? = some r → r.active = active) → Switching s c active (.ok (), s)
  | refused {t : Scene K} (r : AnchorConstraint K) (cause : EngineError.Cause) :
      s.constraints[c]? = some r → r.active = !active →
      s.requestActivity r active = (.error cause, t) →
      Switching s c active (.error ⟨r.relationship, cause⟩, t)
  | switched {t : Scene K} (r : AnchorConstraint K) :
      s.constraints[c]? = some r → r.active = !active → s.requestActivity r active = (.ok (), t) →
      Switching s c active (.ok (), t.switch c r active)

/-- A request for activity ends in one of the ways of `Switching`. Later proofs go by these cases. -/
theorem trySetActive_switching (s : Scene K) (c : ConstraintId) (active : Bool) :
    Switching s c active (s.trySetActive c active) := by
  unfold trySetActive
  split
  next hr =>
    refine .idle ?_
    intro r hr'
    rw [hr] at hr'
    cases hr'
  next r hr =>
    split
    next ha =>
      refine .idle ?_
      intro r' hr'
      rw [hr] at hr'
      cases hr'
      exact ha
    next ha =>
      dsimp only
      split
      next cause t hreq => exact .refused r cause hr (Bool.eq_not_of_ne ha) hreq
      next t hreq => exact .switched r hr (Bool.eq_not_of_ne ha) hreq

/-! ## Reads -/

/-- How a frame is read: the engine of the view learns what its solver has, and the frame is
answered as learnt. A view that does not exist has no frame. -/
inductive FrameRead (s : Scene K) (view : ViewId) : Rect K × Scene K → Prop where
  | absent : FrameRead s view (.zero, s)
  | learnt {v : View K} {e : Engine K} : s.views[view]? = some v → s.engines[v.engine]? = some e →
      FrameRead s view
        (e.refresh.frameOf view, { s with engines := s.engines.set v.engine e.refresh })

/-- A frame is read in one of the ways of `FrameRead`. -/
theorem frame_read (s : Scene K) (view : ViewId) : FrameRead s view (s.frame view) := by
  unfold frame
  split
  next => exact .absent
  next hread =>
    obtain ⟨v, hv, found⟩ := Option.bind_eq_some_iff.1 hread
    obtain ⟨e, he, same⟩ := Option.map_eq_some_iff.1 found
    cases same
    exact .learnt hv he

/-! ## Holding and releasing views, one pin at a time -/

/-- Induction along the pins of a view that is held. `P` is about the view, the pins accepted so far
and the scene; the pins accepted in the end go on record. -/
theorem pin_induction {Q : Scene K → Prop}
    (P : View K → List (Linear.Constraint K) × Scene K → Prop) {s : Scene K} {view : ViewId}
    (idle : (∀ v, s.views[view]? = some v → v.isPinned = true) → Q s)
    (start : ∀ v, s.views[view]? = some v → v.isPinned = false → P v ([], s))
    (part : ∀ v, s.views[view]? = some v → ∀ acc, ∀ part ∈ frameParts v.frame, P v acc →
      P v (pinPart view v.name v.engine acc part))
    (record : ∀ v, s.views[view]? = some v → v.isPinned = false → ∀ pins t, P v (pins, t) →
      Q (t.modifyView view fun v => { v with pins := some pins })) : Q (s.pin view) := by
  unfold pin
  split
  next hv => exact idle fun _ hv' => absurd (hv.symm.trans hv') (Option.some_ne_none _).symm
  next v hv =>
    split
    next pinned => exact idle fun _ hv' => Option.some.inj (hv.symm.trans hv') ▸ pinned
    next pinned =>
      have unpinned : v.isPinned = false := Bool.eq_false_iff.2 pinned
      have asked : P v ((frameParts v.frame).foldl (pinPart view v.name v.engine) ([], s)) :=
        List.foldlRecOn _ _ (start v hv unpinned) fun acc h p hp => part v hv acc p hp h
      dsimp only
      generalize (frameParts v.frame).foldl (pinPart view v.name v.engine) ([], s) = acc at asked ⊢
      exact record v hv unpinned acc.1 acc.2 asked

/-- Induction along the pins of a view that is released. `P` is about the view, the pins that have
not been removed yet and the scene. -/
theorem unpin_induction {Q : Scene K → Prop}
    (P : View K → List (Linear.Constraint K) → Scene K → Prop) {s : Scene K} {view : ViewId}
    (idle : (∀ v, s.views[view]? = some v → v.isPinned = false) → Q s)
    (start : ∀ v pins, s.views[view]? = some v → v.pins = some pins →
      P v pins (s.modifyView view fun v => { v with pins := none }))
    (part : ∀ v, s.views[view]? = some v → ∀ c cs t, P v (c :: cs) t →
      P v cs (unpinPart view v.name v.engine t c))
    (report : ∀ v, s.views[view]? = some v → ∀ t, P v [] t → Q (t.emit (.unpinned view v.name))) :
    Q (s.unpin view) := by
  have removed (v : View K) (hv : s.views[view]? = some v) (cs : List (Linear.Constraint K))
      (t : Scene K) (h : P v cs t) : P v [] (cs.foldl (unpinPart view v.name v.engine) t) := by
    induction cs generalizing t with
    | nil => exact h
    | cons c cs ih => exact ih _ (part v hv c cs t h)
  unfold unpin
  split
  next hv => exact idle fun _ hv' => absurd (hv.symm.trans hv') (Option.some_ne_none _).symm
  next v hv =>
    split
    next hpins =>
      refine idle fun _ hv' => Option.some.inj (hv.symm.trans hv') ▸ ?_
      rw [View.isPinned, hpins]
      rfl
    next pins hpins => exact report v hv _ (removed v hv pins _ (start v pins hv hpins))

/-! ## Relations kept by every request -/

/-- A relation between scenes that holds between a scene and what it becomes by requests that make
nothing and neither hold a view nor release it. Requests for activity whose refusal is answered and
not reported (`trySetActive`) are left to the user of the relation. -/
structure StableBase (R : Scene K → Scene K → Prop) : Prop where
  refl : ∀ s, R s s
  trans : ∀ {s t u}, R s t → R t u → R s u
  setActive : ∀ s c active, R s (s.setActive c active)
  setInsets : ∀ s view insets, R s (s.setInsets view insets)
  frame : ∀ s view, R s (s.frame view).2
  report : ∀ s a, R s (s.emit (.applied a))

/-- A relation between scenes that holds between a scene and what it becomes when anchors are
related that satisfy `P`. -/
structure Relates (P : Anchor → Prop) (R : Scene K → Scene K → Prop) : Prop where
  relate : ∀ s lhs relation rhs offset, P lhs → P rhs → R s (s.relate lhs relation rhs offset).2
  relateNumber : ∀ s lhs value, P lhs → R s (s.relateNumber lhs value).2

/-- A relation between scenes that holds between a scene and what any request makes of it. -/
structure Stable (R : Scene K → Scene K → Prop) : Prop extends StableBase R where
  addEngine : ∀ s config, R s (s.addEngine config).2
  addView : ∀ s engine name frame, engine < s.engines.length → R s (s.addView engine name frame).2
  relate : ∀ s lhs relation rhs offset, R s (s.relate lhs relation rhs offset).2
  relateNumber : ∀ s lhs value, R s (s.relateNumber lhs value).2
  setPinned : ∀ s view enabled, R s (s.setPinned view enabled)

/-- A relation that is kept for some anchors is kept for fewer. -/
theorem Relates.mono {P Q : Anchor → Prop} {R : Scene K → Scene K → Prop} (h : Relates P R)
    (hPQ : ∀ a, Q a → P a) : Relates Q R where
  relate s _ relation _ offset hlhs hrhs := h.relate s _ relation _ offset (hPQ _ hlhs) (hPQ _ hrhs)
  relateNumber s _ value hlhs := h.relateNumber s _ value (hPQ _ hlhs)

namespace Stable

variable {R R' : Scene K → Scene K → Prop}

/-- A relation that every request keeps is kept whatever anchors are related. -/
theorem relates (h : Stable R) (P : Anchor → Prop) : Relates P R where
  relate s lhs relation rhs offset _ _ := h.relate s lhs relation rhs offset
  relateNumber s lhs value _ := h.relateNumber s lhs value

/-- What two relations keep they keep together. -/
theorem and (h : Stable R) (h' : Stable R') : Stable fun s t => R s t ∧ R' s t where
  refl s := ⟨h.refl s, h'.refl s⟩
  trans hst htu := ⟨h.trans hst.1 htu.1, h'.trans hst.2 htu.2⟩
  addEngine _ _ := ⟨h.addEngine .., h'.addEngine ..⟩
  addView _ _ _ _ he := ⟨h.addView _ _ _ _ he, h'.addView _ _ _ _ he⟩
  relate _ _ _ _ _ := ⟨h.relate .., h'.relate ..⟩
  relateNumber _ _ _ := ⟨h.relateNumber .., h'.relateNumber ..⟩
  setActive _ _ _ := ⟨h.setActive .., h'.setActive ..⟩
  setPinned _ _ _ := ⟨h.setPinned .., h'.setPinned ..⟩
  setInsets _ _ _ := ⟨h.setInsets .., h'.setInsets ..⟩
  frame _ _ := ⟨h.frame .., h'.frame ..⟩
  report _ _ := ⟨h.report .., h'.report ..⟩

/-- A relation that follows from one that every request keeps, and can be chained itself. -/
theorem imp (h : Stable R) (himp : ∀ {s t}, R s t → R' s t)
    (trans : ∀ {s t u}, R' s t → R' t u → R' s u) : Stable R' where
  refl s := himp (h.refl s)
  trans := trans
  addEngine _ _ := himp (h.addEngine ..)
  addView _ _ _ _ he := himp (h.addView _ _ _ _ he)
  relate _ _ _ _ _ := himp (h.relate ..)
  relateNumber _ _ _ := himp (h.relateNumber ..)
  setActive _ _ _ := himp (h.setActive ..)
  setPinned _ _ _ := himp (h.setPinned ..)
  setInsets _ _ _ := himp (h.setInsets ..)
  frame _ _ := himp (h.frame ..)
  report _ _ := himp (h.report ..)

end Stable

namespace Relates

variable {R : Scene K → Scene K → Prop} {P : Anchor → Prop}

/-- Every way of relating an anchor keeps the relation if its anchors are of the kind asked for. -/
theorem construct (h : Relates P R) (s : Scene K) {lhs : Anchor} {relating : Relating K}
    (hlhs : P lhs) (hrhs : ∀ a ∈ relating.anchors, P a) : R s (s.construct lhs relating).2 := by
  cases relating with
  | equalTo target =>
    cases target with
    | place p => exact h.relate _ _ _ _ _ hlhs (hrhs _ (.head _))
    | number value => exact h.relateNumber _ _ _ hlhs
  | greaterThanOrEqualTo p => exact h.relate _ _ _ _ _ hlhs (hrhs _ (.head _))
  | lessThanOrEqualTo p => exact h.relate _ _ _ _ _ hlhs (hrhs _ (.head _))
  | explicit relation anchor offset => exact h.relate _ _ _ _ _ hlhs (hrhs _ (.head _))
  | equalConstant value => exact h.relateNumber _ _ _ hlhs

end Relates

namespace StableBase

variable {R : Scene K → Scene K → Prop} {P : Anchor → Prop}

/-- A statement keeps the relation, as its three requests do. -/
theorem state (h : StableBase R) (hR : Relates P R) (s : Scene K) {lhs : Anchor}
    {relating : Relating K} (hlhs : P lhs) (hrhs : ∀ a ∈ relating.anchors, P a) :
    R s (s.state lhs relating).2 :=
  h.trans (hR.construct s hlhs hrhs) (h.trans (h.setActive _ _ true) (h.report _ _))

/-- The statements of a block keep the relation if all their anchors are of the kind asked for. -/
theorem stateAll (h : StableBase R) (hR : Relates P R) (view : ViewId)
    (statements : List (Statement K)) (s : Scene K)
    (hanchors : ∀ st ∈ statements, ∀ a ∈ st.anchors view, P a) :
    R s (stateAll view s statements).2 := by
  induction statements generalizing s with
  | nil => exact h.refl s
  | cons st rest ih =>
    have first := hanchors st (.head _)
    exact h.trans (h.state hR s (first _ (.head _)) fun a ha => first a (.tail _ ha))
      (ih _ fun st hst => hanchors st (.tail _ hst))

/-- A batch keeps the relation, as each of its requests does. -/
theorem setAllActive (h : StableBase R) (active : Bool) (cs : List ConstraintId) (s : Scene K) :
    R s (s.setAllActive cs active) := by
  induction cs generalizing s with
  | nil => exact h.refl s
  | cons c cs ih => exact h.trans (h.setActive s c active) (ih _)

/-- Reading frames keeps the relation, as each reading does. -/
theorem readFrames (h : StableBase R) (views : List ViewId) (s : Scene K) :
    R s (Session.readFrames s views).2 := by
  induction views generalizing s with
  | nil => exact h.refl s
  | cons v views ih => exact h.trans (h.frame s v) (ih _)

end StableBase

namespace Stable

variable {R : Scene K → Scene K → Prop}

/-- Every way of relating an anchor keeps the relation. -/
theorem construct (h : Stable R) (s : Scene K) (lhs : Anchor) (relating : Relating K) :
    R s (s.construct lhs relating).2 :=
  (h.relates fun _ => True).construct s trivial fun _ _ => trivial

/-- Every statement keeps the relation. -/
theorem state (h : Stable R) (s : Scene K) (lhs : Anchor) (relating : Relating K) :
    R s (s.state lhs relating).2 :=
  h.toStableBase.state (h.relates fun _ => True) s trivial fun _ _ => trivial

/-- Every block keeps the relation, once its view is released. -/
theorem stateAll (h : Stable R) (view : ViewId) (statements : List (Statement K)) (s : Scene K) :
    R s (stateAll view s statements).2 :=
  h.toStableBase.stateAll (h.relates fun _ => True) view statements s fun _ _ _ _ => trivial

end Stable

end Scene

/-! ## Steps and runs of a session -/

namespace Session

section

variable {K : Type}

/-- Keeping a constraint is a matter of the session and not of its scene. -/
theorem keep_scene (s : Session K) (c : ConstraintId) : (s.keep c).2.scene = s.scene := by
  unfold keep
  split <;> rfl

/-- Answering with a constraint leaves the scene alone. -/
theorem answerKept_scene (s : Session K) (c : ConstraintId) : (s.answerKept c).2.scene = s.scene :=
  keep_scene s c

/-- Keeping the constraints of a block leaves the scene alone. -/
theorem foldl_keepOutcome_scene (outcomes : List (Outcome Anchor ConstraintId)) :
    ∀ acc : List (Option (Kept K)) × Session K,
      (outcomes.foldl keepOutcome acc).2.scene = acc.2.scene := by
  induction outcomes with
  | nil => intro _; rfl
  | cons o outcomes ih =>
    intro acc
    rw [List.foldl_cons, ih]
    cases o with
    | constraint c => exact keep_scene _ c
    | anchors _ _ | discarded => rfl

/-- Two sessions that have the same constraints on record and keep the same of them. What is answered
with a constraint that is kept depends on nothing else. -/
structure SameRecord (s t : Session K) : Prop where
  kept : s.kept = t.kept
  constraints : s.scene.constraints = t.scene.constraints

namespace SameRecord

variable {s t : Session K}

/-- A constraint is kept in the same place in both sessions, and shown in the same words. -/
theorem keep (h : s.SameRecord t) (c : ConstraintId) :
    (s.keep c).1 = (t.keep c).1 ∧ (s.keep c).2.SameRecord (t.keep c).2 := by
  rw [Session.keep, Session.keep, h.constraints, h.kept]
  split
  · exact ⟨rfl, h⟩
  · exact ⟨rfl, rfl, h.constraints⟩

/-- Both sessions answer the same with a constraint. -/
theorem answerKept (h : s.SameRecord t) (c : ConstraintId) :
    (s.answerKept c).1 = (t.answerKept c).1 ∧
      (s.answerKept c).2.SameRecord (t.answerKept c).2 := by
  obtain ⟨same, record⟩ := h.keep c
  refine ⟨?_, record⟩
  unfold Session.answerKept
  dsimp only
  rw [same]

/-- Both sessions keep the constraints of a block in the same places, and show them the same. -/
theorem foldl_keepOutcome (h : s.SameRecord t) (outcomes : List (Outcome Anchor ConstraintId))
    (answers : List (Option (Kept K))) :
    (outcomes.foldl keepOutcome (answers, s)).1 = (outcomes.foldl keepOutcome (answers, t)).1 ∧
      (outcomes.foldl keepOutcome (answers, s)).2.SameRecord
        (outcomes.foldl keepOutcome (answers, t)).2 := by
  induction outcomes generalizing answers s t with
  | nil => exact ⟨rfl, h⟩
  | cons o outcomes ih =>
    cases o with
    | constraint c =>
      obtain ⟨same, record⟩ := h.keep c
      simp only [List.foldl_cons, keepOutcome]
      rw [same]
      exact ih record _
    | anchors _ _ | discarded => exact ih h _

/-- What is kept in a place is active in both sessions or in neither. -/
theorem isActive (h : s.SameRecord t) (place : Nat) : s.isActive place = t.isActive place := by
  have flags : s.scene.isActive = t.scene.isActive := by
    funext c
    rw [Scene.isActive, Scene.isActive, h.constraints]
  rw [Session.isActive, Session.isActive, h.kept, flags]

/-- Both sessions show the same of each constraint. -/
theorem keptState (h : s.SameRecord t) : s.keptState = t.keptState := by
  funext c
  rw [Session.keptState, Session.keptState, h.constraints]

end SameRecord

end

/-- The anchors that a step relates. -/
def Step.anchors {K : Type} : Step K → List Anchor
  | .layout v statements => statements.flatMap fun st => st.anchors v
  | .relate lhs relating => lhs :: relating.anchors
  | .make lhs _ rhs _ => [lhs, rhs]
  | .makeFixed lhs _ => [lhs]
  | _ => []

/-- The view that a step holds at its frame or releases, and which of them. -/
def Step.pinning? {K : Type} : Step K → Option (ViewId × Bool)
  | .setPinned v enabled => some (v, enabled)
  | .layout v _ => some (v, false)
  | _ => none

variable {R : Scene K → Scene K → Prop}

/-- A step keeps every relation that requests keep, if it does as far as it makes an engine or a
view, relates anchors, and holds or releases a view. -/
theorem perform_stableBase (h : Scene.StableBase R) (s : Session K) (step : Step K)
    (makeEngine : ∀ config, step = .addEngine (.ok config) → R s.scene (s.scene.addEngine config).2)
    (makeView : ∀ engine name frame, step = .addView engine name frame →
      engine < s.scene.engines.length → R s.scene (s.scene.addView engine name frame).2)
    (hR : Scene.Relates (· ∈ step.anchors) R)
    (pinning : ∀ view enabled, step.pinning? = some (view, enabled) →
      R s.scene (s.scene.setPinned view enabled))
    (attempt : ∀ place active c, step = .trySetActive place active → s.kept[place]? = some c →
      R s.scene (s.scene.trySetActive c active).2) :
    R s.scene (s.perform step).2.scene := by
  have idle : R s.scene s.scene := h.refl _
  cases step with
  | addEngine config =>
    cases config with
    | error error => exact idle
    | ok config => exact makeEngine config rfl
  | config engine | view engine | inspectView engine =>
    simp only [perform, withEngine, withView]
    split <;> exact idle
  | addView engine name frame =>
    simp only [perform, withEngine]
    split
    · exact idle
    next he => exact makeView _ _ _ rfl (List.getElem?_eq_some_iff.1 he).1
  | layout view statements =>
    simp only [perform, Scene.host_layout, foldl_keepOutcome_scene]
    exact h.trans (pinning view false rfl) <| h.stateAll hR view statements _
      fun st hst a ha => List.mem_flatMap.2 ⟨st, hst, ha⟩
  | relate lhs relating =>
    simp only [perform, Scene.host_relateAnchor, answerKept_scene]
    exact h.state hR _ (.head _) fun a ha => .tail _ ha
  | make lhs relation rhs offset =>
    simp only [perform, answerKept_scene]
    exact hR.relate _ _ _ _ _ (.head _) (.tail _ (.head _))
  | makeFixed lhs value =>
    simp only [perform, answerKept_scene]
    exact hR.relateNumber _ _ _ (.head _)
  | copy place =>
    simp only [perform, withKept]
    split
    · exact idle
    · rw [answerKept_scene]; exact idle
  | setActive place active =>
    simp only [perform, withKept]
    split
    · exact idle
    · exact h.setActive ..
  | trySetActive place active =>
    simp only [perform, withKept]
    split
    · exact idle
    next c hc =>
      have := attempt place active c rfl hc
      generalize s.scene.trySetActive c active = r at this ⊢
      obtain ⟨_ | _, scene⟩ := r <;> exact this
  | setAllActive engine places active =>
    simp only [perform, withEngine]
    split
    · exact idle
    · exact h.setAllActive ..
  | frame view | safeFrame view =>
    simp only [perform, withView]
    split
    · exact idle
    · exact h.frame ..
  | frames => exact h.readFrames ..
  | setInsets view insets =>
    simp only [perform, withView]
    split
    · exact idle
    · exact h.setInsets ..
  | setPinned view enabled =>
    simp only [perform, withView]
    split
    · exact idle
    · exact pinning view enabled rfl
  | constraints | compare a b | offset anchor shifts => exact idle
  | inspectConstraint place =>
    simp only [perform, withKept]
    split
    · exact idle
    · split <;> exact idle

/-- A step keeps every relation that requests keep. -/
theorem perform_stable (h : Scene.Stable R) (s : Session K) (step : Step K)
    (attempt : ∀ place active c, step = .trySetActive place active → s.kept[place]? = some c →
      R s.scene (s.scene.trySetActive c active).2) :
    R s.scene (s.perform step).2.scene :=
  perform_stableBase h.toStableBase s step (fun _ _ => h.addEngine ..)
    (fun _ _ _ _ he => h.addView _ _ _ _ he) (h.relates _) (fun _ _ _ => h.setPinned ..) attempt

/-- A run keeps every relation that requests keep, answered refusals included. -/
theorem run_stable (h : Scene.Stable R)
    (attempt : ∀ s c active, R s (s.trySetActive c active).2) (steps : List (Step K))
    (s : Session K) : R s.scene (s.run steps).scene := by
  induction steps generalizing s with
  | nil => exact h.refl s.scene
  | cons step steps ih =>
    have first := perform_stable h s step fun _ _ _ _ _ => attempt ..
    exact h.trans first (ih _)

end Session

end ViewConstraints
