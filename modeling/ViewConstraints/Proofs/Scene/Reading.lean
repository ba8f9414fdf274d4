import Mathlib.Data.List.Forall2
import ViewConstraints.Proofs.Scalar.Laws
import ViewConstraints.Proofs.Scene.Demands
import ViewConstraints.Proofs.Simplex.Reading

/-!
# A scene does not heed what was read of it

Reading a frame marks the engine that is asked: its solver has reported the changes it had on record,
and the engine has learnt the values. `Twin s t` says of two scenes that they differ in this only, and in
the frames that pinned views were last given. Twins answer every request alike and stay twins, and a
scene is a twin of itself after a reading (`Twin.frame_left`). The one request that passes on what is
read is to hold a view again: it is answered alike if the frames that are read agree
(`Twin.setPinned`).
-/

namespace ViewConstraints

open Linear Layout Simplex

/-! ## Lists with related entries -/

section

variable {α : Type} {R : α → α → Prop} {l m : List α}

/-- Related lists have entries at the same places, and entries at one place are related. This is how
the views and engines of twins are looked up. -/
theorem forall₂_getElem? (h : List.Forall₂ R l m) (i : Nat) :
    (l[i]? = none ∧ m[i]? = none) ∨ ∃ a b, l[i]? = some a ∧ m[i]? = some b ∧ R a b := by
  induction h generalizing i with
  | nil => exact .inl ⟨rfl, rfl⟩
  | cons hab _ ih =>
    cases i with
    | zero => exact .inr ⟨_, _, rfl, rfl, hab⟩
    | succ i => exact ih i

/-- The lists stay related when entries at one place are replaced by related ones. -/
theorem forall₂_set (h : List.Forall₂ R l m) (i : Nat) {a b : α} (hab : R a b) :
    List.Forall₂ R (l.set i a) (m.set i b) := by
  induction h generalizing i with
  | nil => exact .nil
  | cons hcd rest ih =>
    cases i with
    | zero => exact .cons hab rest
    | succ i => exact .cons hcd (ih i)

/-- An entry of the left list alone is replaced, by one that is related to its opposite as well. A
reading does this to the engine it asks. -/
theorem forall₂_set_left (h : List.Forall₂ R l m) {i : Nat} {a : α}
    (ha : ∀ b, m[i]? = some b → R a b) : List.Forall₂ R (l.set i a) m := by
  induction h generalizing i with
  | nil => exact .nil
  | cons hcd rest ih =>
    cases i with
    | zero => exact .cons (ha _ rfl) rest
    | succ i => exact .cons hcd (ih ha)

/-- The lists stay related when entries at one place are changed by functions that keep
them related. -/
theorem forall₂_modify (h : List.Forall₂ R l m) (i : Nat) {f g : α → α}
    (hfg : ∀ a b, R a b → R (f a) (g b)) : List.Forall₂ R (l.modify i f) (m.modify i g) := by
  induction h generalizing i with
  | nil => cases i <;> exact .nil
  | cons hab rest ih =>
    cases i with
    | zero => exact .cons (hfg _ _ hab) rest
    | succ i => exact .cons hab (ih i)

/-- The lists stay related when related entries are added at their ends, as a view or an engine that
is made in both of two twins is. -/
theorem forall₂_append_singleton (h : List.Forall₂ R l m) {a b : α} (hab : R a b) :
    List.Forall₂ R (l ++ [a]) (m ++ [b]) :=
  List.rel_append h (.cons hab .nil)

end

/-! ## Twins -/

section

variable {K : Type}

/-- Two views that differ at most in the frame they were last given. -/
def View.Twin (v w : View K) : Prop := w = { v with frame := w.frame }

theorem View.Twin.refl (v : View K) : v.Twin v := rfl

theorem View.Twin.symm {v w : View K} (h : v.Twin w) : w.Twin v := by rw [View.Twin, h]

/-- Whether a view is held does not depend on the frame it was last given: it is read off its pins. -/
theorem View.Twin.isPinned {v w : View K} (h : v.Twin w) : v.isPinned = w.isPinned := by
  rw [h]
  rfl

/-- Two frames of which every number agrees. -/
def Rect.Agrees [Scalar K] (r r' : Rect K) : Prop := ∀ q, Agree (r.component q) (r'.component q)

namespace Scene

/-- Two engines that differ in what was read of them only. -/
structure Engine.Twin (e f : Engine K) : Prop where
  config : e.config = f.config
  root : e.root = f.root
  solver : e.solver.Twin f.solver

/-- Two scenes that differ in what was read of them only. -/
structure Twin (s t : Scene K) : Prop where
  rest : t = { s with engines := t.engines, views := t.views }
  engines : List.Forall₂ Engine.Twin s.engines t.engines
  views : List.Forall₂ View.Twin s.views t.views

variable {s t u : Scene K}

theorem Engine.Twin.refl (e : Engine K) : e.Twin e := ⟨rfl, rfl, .refl _⟩

theorem Engine.Twin.symm {e f : Engine K} (h : e.Twin f) : f.Twin e :=
  ⟨h.config.symm, h.root.symm, h.solver.symm⟩

theorem Engine.Twin.trans {e f g : Engine K} (h : e.Twin f) (h' : f.Twin g) : e.Twin g :=
  ⟨h.config.trans h'.config, h.root.trans h'.root, h.solver.trans h'.solver⟩

theorem Twin.refl (s : Scene K) : s.Twin s :=
  ⟨rfl, List.forall₂_same.2 fun e _ => .refl e, List.forall₂_same.2 fun v _ => .refl v⟩

/-- It does not matter which of two scenes was read of. -/
theorem Twin.symm (h : s.Twin t) : t.Twin s :=
  ⟨by rw [h.rest], .flip (h.engines.imp fun _ _ => Engine.Twin.symm),
    .flip (h.views.imp fun _ _ => View.Twin.symm)⟩

namespace Twin

/-- Twins have the same views, up to the frames these were last given. -/
theorem view (h : s.Twin t) (view : ViewId) : (s.views[view]? = none ∧ t.views[view]? = none) ∨
    ∃ v w, s.views[view]? = some v ∧ t.views[view]? = some w ∧ v.Twin w :=
  forall₂_getElem? h.views view

/-- Twins have the same engines, up to what was read of them. -/
theorem engine (h : s.Twin t) (i : EngineId) : (s.engines[i]? = none ∧ t.engines[i]? = none) ∨
    ∃ e f, s.engines[i]? = some e ∧ t.engines[i]? = some f ∧ e.Twin f :=
  forall₂_getElem? h.engines i

/-- Twins have the same constraints on record, active or not, since a reading makes and marks none. -/
theorem constraints (h : s.Twin t) : s.constraints = t.constraints := by rw [h.rest]

/-- The next linear constraint gets the same number in twins. -/
theorem nextLinear (h : s.Twin t) : s.nextLinear = t.nextLinear := by rw [h.rest]

/-- The logs of twins are the same, since nothing is logged for a reading. -/
theorem log (h : s.Twin t) : s.log = t.log := by rw [h.rest]

/-- What can be told of a view without its frame. -/
theorem map_view {α : Type} (h : s.Twin t) (view : ViewId) {f : View K → α}
    (hf : ∀ v w : View K, v.Twin w → f v = f w) :
    s.views[view]?.map f = t.views[view]?.map f := by
  rcases h.view view with ⟨hv, hw⟩ | ⟨v, w, hv, hw, hvw⟩
  · rw [hv, hw]
  · rw [hv, hw, Option.map_some, Option.map_some, hf v w hvw]

/-- A constraint is active in both of two twins or in neither. -/
theorem isActive (h : s.Twin t) (c : ConstraintId) : s.isActive c = t.isActive c := by
  rw [Scene.isActive, Scene.isActive, h.constraints]

/-- A change of what is neither an engine nor a view. -/
theorem mapRest (h : s.Twin t) {g : Scene K → Scene K}
    (hg : ∀ (s : Scene K) engines views,
      g { s with engines, views } = { g s with engines, views }) : (g s).Twin (g t) := by
  obtain ⟨rest, engines, views⟩ := h
  generalize t.engines = engines' at rest engines
  generalize t.views = views' at rest views
  subst rest
  have kept (engines views) : (g { s with engines, views }).engines = engines := by rw [hg]
  have kept' (engines views) : (g { s with engines, views }).views = views := by rw [hg]
  have before : (g s).engines = s.engines := kept s.engines s.views
  have before' : (g s).views = s.views := kept' s.engines s.views
  refine ⟨?_, ?_, ?_⟩
  · rw [kept, kept']
    exact hg s engines' views'
  · rw [before, kept]
    exact engines
  · rw [before', kept']
    exact views

/-- What is logged in both of two twins leaves them twins. -/
theorem emit [Scalar K] (h : s.Twin t) (event : Event K) : (s.emit event).Twin (t.emit event) :=
  h.mapRest (g := fun s => s.emit event) fun _ _ _ => rfl

/-- Twins give out the same number for a linear constraint. -/
theorem freshLinear [Scalar K] (h : s.Twin t) :
    s.freshLinear.1 = t.freshLinear.1 ∧ s.freshLinear.2.Twin t.freshLinear.2 :=
  ⟨h.nextLinear, h.mapRest (g := fun s => s.freshLinear.2) fun _ _ _ => rfl⟩

/-- A constraint that is put on record gets the same place in twins. -/
theorem insertConstraint [Scalar K] (h : s.Twin t) (engine : EngineId)
    (relationship : Relationship K) (linear : Constraint K) :
    (s.insertConstraint engine relationship linear).1 =
        (t.insertConstraint engine relationship linear).1 ∧
      (s.insertConstraint engine relationship linear).2.Twin
        (t.insertConstraint engine relationship linear).2 :=
  ⟨congrArg List.length h.constraints,
    h.mapRest (g := fun s => (s.insertConstraint engine relationship linear).2) fun _ _ _ => rfl⟩

/-- A view may be changed in twins in any way that keeps it a twin of the other. -/
theorem modifyView [Scalar K] (h : s.Twin t) (view : ViewId) {f g : View K → View K}
    (hfg : ∀ v w, v.Twin w → (f v).Twin (g w)) :
    (s.modifyView view f).Twin (t.modifyView view g) := by
  refine ⟨?_, h.engines, forall₂_modify h.views view hfg⟩
  rw [Scene.modifyView, Scene.modifyView, h.rest]

/-- An engine may be replaced in twins, by engines that are twins. -/
theorem setEngine (h : s.Twin t) (i : EngineId) {e f : Engine K} (hef : e.Twin f) :
    Twin { s with engines := s.engines.set i e } { t with engines := t.engines.set i f } := by
  refine ⟨?_, forall₂_set h.engines i hef, h.views⟩
  rw [h.rest]

end Twin

end Scene

end

namespace Scene

variable {K : Type} [Scalar K] {s t : Scene K}

/-! ## Requests of a solver -/

/-- The solvers of twins answer an addition alike, since no decision of a solver depends on what it
has reported. -/
theorem Twin.addLinear (h : s.Twin t) (i : EngineId) (c : Constraint K) :
    (s.addLinear i c).1 = (t.addLinear i c).1 ∧ (s.addLinear i c).2.Twin (t.addLinear i c).2 := by
  unfold Scene.addLinear
  rcases h.engine i with ⟨he, hf⟩ | ⟨e, f, he, hf, hef⟩
  · rw [he, hf]
    exact ⟨rfl, h⟩
  · rw [he, hf]
    obtain ⟨same, added⟩ := hef.solver.addConstraint c
    exact ⟨congrArg Engine.answer same, h.setEngine i ⟨hef.config, hef.root, added⟩⟩

/-- The solvers of twins answer a removal alike, for the same reason as an addition. -/
theorem Twin.removeLinear (h : s.Twin t) (i : EngineId) (c : Constraint K) :
    (s.removeLinear i c).1 = (t.removeLinear i c).1 ∧
      (s.removeLinear i c).2.Twin (t.removeLinear i c).2 := by
  unfold Scene.removeLinear
  rcases h.engine i with ⟨he, hf⟩ | ⟨e, f, he, hf, hef⟩
  · rw [he, hf]
    exact ⟨rfl, h⟩
  · rw [he, hf]
    obtain ⟨same, removed⟩ := hef.solver.removeConstraint c
    exact ⟨congrArg Engine.answer same, h.setEngine i ⟨hef.config, hef.root, removed⟩⟩

/-! ## Readings -/

/-- An engine that has learnt the values of its solver is a twin of what it was. -/
theorem refresh_twin (e : Engine K) : e.refresh.Twin e :=
  ⟨rfl, rfl, Solver.fetchChanges_twin e.solver⟩

/-- A scene is a twin of what it was before a reading. -/
theorem Twin.frame_left (h : s.Twin t) (view : ViewId) : (s.frame view).2.Twin t := by
  rw [Scene.frame]
  split
  · exact h
  next _ _ found =>
    obtain ⟨v, -, hv⟩ := Option.bind_eq_some_iff.1 found
    obtain ⟨e, he, heq⟩ := Option.map_eq_some_iff.1 hv
    cases heq
    refine ⟨?_, forall₂_set_left h.engines ?_, h.views⟩
    · rw [h.rest]
    · intro f hf
      rcases h.engine v.engine with ⟨hnone, -⟩ | ⟨e', f', he', hf', hef⟩
      · rw [he] at hnone
        cases hnone
      · rw [he] at he'
        rw [hf] at hf'
        cases he'
        cases hf'
        exact (refresh_twin e).trans hef

/-- Twins stay twins when the same frame is read of both. The frames that are read may differ. -/
theorem Twin.frame (h : s.Twin t) (view : ViewId) : (s.frame view).2.Twin (t.frame view).2 :=
  ((h.frame_left view).symm.frame_left view).symm

/-- Twins stay twins when several frames are read of both. -/
theorem Twin.readFrames (views : List ViewId) {s t : Scene K} (h : s.Twin t) :
    (Session.readFrames s views).2.Twin (Session.readFrames t views).2 := by
  induction views generalizing s t with
  | nil => exact h
  | cons view views ih => exact ih (h.frame view)

/-! ## Pins -/

/-- One part of a frame is pinned in twins. The pin gets the same number in both, so it is accepted in
both or refused in both, with the same report. -/
theorem Twin.pinPart (view : ViewId) (name : String) (engine : EngineId)
    {acc acc' : List (Constraint K) × Scene K} (hacc : acc.1 = acc'.1) (h : acc.2.Twin acc'.2)
    (part : Quantity × K) :
    (Scene.pinPart view name engine acc part).1 = (Scene.pinPart view name engine acc' part).1 ∧
      (Scene.pinPart view name engine acc part).2.Twin
        (Scene.pinPart view name engine acc' part).2 := by
  obtain ⟨pins, s⟩ := acc
  obtain ⟨_, t⟩ := acc'
  cases hacc
  obtain ⟨id, fresh⟩ := h.freshLinear
  unfold Scene.pinPart
  dsimp only
  generalize s.freshLinear = a at id fresh ⊢
  generalize t.freshLinear = b at id fresh ⊢
  obtain ⟨id', s⟩ := a
  obtain ⟨_, t⟩ := b
  cases id
  obtain ⟨same, added⟩ := fresh.addLinear engine (pinConstraint id' view part)
  dsimp only at same added ⊢
  generalize s.addLinear engine (pinConstraint id' view part) = a at same added ⊢
  generalize t.addLinear engine (pinConstraint id' view part) = b at same added ⊢
  obtain ⟨answer, s⟩ := a
  obtain ⟨_, t⟩ := b
  cases same
  cases answer with
  | ok _ => exact ⟨rfl, added⟩
  | error cause => exact ⟨rfl, added.emit _⟩

/-- The parts of one frame are pinned in twins one after another, with the same pins accepted. -/
theorem Twin.foldl_pinPart (view : ViewId) (name : String) (engine : EngineId)
    (parts : List (Quantity × K)) (acc acc' : List (Constraint K) × Scene K) (hacc : acc.1 = acc'.1)
    (h : acc.2.Twin acc'.2) :
    (parts.foldl (Scene.pinPart view name engine) acc).1 =
        (parts.foldl (Scene.pinPart view name engine) acc').1 ∧
      (parts.foldl (Scene.pinPart view name engine) acc).2.Twin
        (parts.foldl (Scene.pinPart view name engine) acc').2 := by
  induction parts generalizing acc acc' with
  | nil => exact ⟨hacc, h⟩
  | cons part parts ih =>
    obtain ⟨same, pinned⟩ := h.pinPart view name engine hacc part
    exact ih _ _ same pinned

/-- Frames that agree are held by the same constraints. -/
theorem foldl_pinPart_congr [CongruentScalar K] {r r' : Rect K} (h : r.Agrees r') (view : ViewId)
    (name : String) (engine : EngineId) (acc : List (Constraint K) × Scene K) :
    (frameParts r).foldl (Scene.pinPart view name engine) acc =
      (frameParts r').foldl (Scene.pinPart view name engine) acc := by
  have part (acc : List (Constraint K) × Scene K) (q : Quantity) :
      Scene.pinPart view name engine acc (q, r.component q) =
        Scene.pinPart view name engine acc (q, r'.component q) := by
    have pin (id : Nat) : pinConstraint id view (q, r.component q) =
        pinConstraint id view (q, r'.component q) := by
      simp only [pinConstraint, Constraint.equalling, Expression.subConstant, Expression.ofVariable,
        CongruentScalar.zero_sub_congr (h q)]
    simp only [Scene.pinPart, pin]
  have left := part (q := .left)
  have top := part (q := .top)
  have width := part (q := .width)
  have height := part (q := .height)
  simp only [Rect.component] at left top width height
  simp only [frameParts, List.foldl_cons, List.foldl_nil, left, top, width, height]

/-- A view is held in twins. They stay twins if the frames agree that it is held at, since the pins
are then the same constraints (`foldl_pinPart_congr`). -/
theorem Twin.pin [CongruentScalar K] (h : s.Twin t) (view : ViewId)
    (frames : ∀ v w, s.views[view]? = some v → t.views[view]? = some w → v.isPinned = false →
      v.frame.Agrees w.frame) : (s.pin view).Twin (t.pin view) := by
  rw [Scene.pin, Scene.pin]
  rcases h.view view with ⟨hv, hw⟩ | ⟨v, w, hv, hw, hvw⟩
  · rw [hv, hw]
    exact h
  · rw [hv, hw]
    dsimp only
    rw [hvw.isPinned]
    split
    · exact h
    next unpinned =>
      have agree := frames v w hv hw (hvw.isPinned.trans (by simpa using unpinned))
      obtain ⟨same, pinned⟩ := Twin.foldl_pinPart view v.name v.engine (frameParts v.frame)
        ([], s) ([], t) rfl h
      rw [foldl_pinPart_congr agree view v.name v.engine ([], t)] at same pinned
      rw [show w.name = v.name by rw [hvw], show w.engine = v.engine by rw [hvw]]
      generalize (frameParts v.frame).foldl (Scene.pinPart view v.name v.engine) ([], s) = a
        at same pinned ⊢
      generalize (frameParts w.frame).foldl (Scene.pinPart view v.name v.engine) ([], t) = b
        at same pinned ⊢
      obtain ⟨pins, s⟩ := a
      obtain ⟨_, t⟩ := b
      cases same
      refine pinned.modifyView view ?_
      intro v w hvw
      rw [View.Twin, hvw]

/-- A pin is removed from twins. A failure of the solver is reported in both. -/
theorem Twin.unpinPart (h : s.Twin t) (view : ViewId) (name : String) (engine : EngineId)
    (c : Constraint K) :
    (Scene.unpinPart view name engine s c).Twin (Scene.unpinPart view name engine t c) := by
  obtain ⟨same, removed⟩ := h.removeLinear engine c
  unfold Scene.unpinPart
  generalize s.removeLinear engine c = a at same removed ⊢
  generalize t.removeLinear engine c = b at same removed ⊢
  obtain ⟨answer, s⟩ := a
  obtain ⟨_, t⟩ := b
  cases same
  cases answer with
  | ok _ => exact removed
  | error cause => exact removed.emit _

/-- The pins of a view are removed from twins one after another. -/
theorem Twin.foldl_unpinPart (view : ViewId) (name : String) (engine : EngineId)
    (cs : List (Constraint K)) {s t : Scene K} (h : s.Twin t) :
    (cs.foldl (Scene.unpinPart view name engine) s).Twin
      (cs.foldl (Scene.unpinPart view name engine) t) := by
  induction cs generalizing s t with
  | nil => exact h
  | cons c cs ih => exact ih (h.unpinPart view name engine c)

/-- A view is released in twins. No frame has a part in this, so it needs no hypothesis on frames. -/
theorem Twin.unpin (h : s.Twin t) (view : ViewId) : (s.unpin view).Twin (t.unpin view) := by
  rw [Scene.unpin, Scene.unpin]
  rcases h.view view with ⟨hv, hw⟩ | ⟨v, w, hv, hw, hvw⟩
  · rw [hv, hw]
    exact h
  · rw [hv, hw]
    dsimp only
    rw [show w.pins = v.pins by rw [hvw], show w.name = v.name by rw [hvw],
      show w.engine = v.engine by rw [hvw]]
    cases v.pins with
    | none => exact h
    | some pins =>
      refine (Twin.foldl_unpinPart view v.name v.engine pins (h.modifyView view ?_)).emit _
      intro v w hvw
      rw [View.Twin, hvw]

/-- The request to hold a view again passes on the frame that is read, unless the view is held
already. -/
theorem Twin.setPinned [CongruentScalar K] (h : s.Twin t) (view : ViewId) (enabled : Bool)
    (frames : enabled = true → ∀ v, s.views[view]? = some v → v.isPinned = false →
      (s.frame view).1.Agrees (t.frame view).1) :
    (s.setPinned view enabled).Twin (t.setPinned view enabled) := by
  cases enabled with
  | false => exact h.unpin view
  | true =>
    rw [Scene.setPinned, Scene.setPinned, if_pos rfl, if_pos rfl]
    have framed (r r' : Rect K) := (h.frame view).modifyView view
      (f := fun v => { v with frame := r }) (g := fun v => { v with frame := r' })
      fun v w hvw => by rw [View.Twin, hvw]
    refine (framed _ _).pin view ?_
    intro v w hv hw unpinned
    rw [Scene.modifyView, List.getElem?_modify_eq] at hv hw
    obtain ⟨v', hv', rfl⟩ := Option.map_eq_some_iff.1 hv
    obtain ⟨w', _, rfl⟩ := Option.map_eq_some_iff.1 hw
    exact frames rfl v' ((frame_records s view).views ▸ hv') unpinned

/-! ## Activity -/

/-- A request for activity is answered alike in twins, and its constraint is switched in both or in
neither. -/
theorem Twin.trySetActive (h : s.Twin t) (c : ConstraintId) (active : Bool) :
    (s.trySetActive c active).1 = (t.trySetActive c active).1 ∧
      (s.trySetActive c active).2.Twin (t.trySetActive c active).2 := by
  rw [Scene.trySetActive, Scene.trySetActive, h.constraints]
  cases t.constraints[c]? with
  | none => exact ⟨rfl, h⟩
  | some r =>
    dsimp only
    split
    · exact ⟨rfl, h⟩
    · have requested : (s.requestActivity r active).1 = (t.requestActivity r active).1 ∧
          (s.requestActivity r active).2.Twin (t.requestActivity r active).2 := by
        cases active with
        | true => exact h.addLinear r.engine r.linear
        | false => exact h.removeLinear r.engine r.linear
      simp only [requestActivity] at requested
      generalize (if active then s.addLinear else s.removeLinear) r.engine r.linear = a at requested ⊢
      generalize (if active then t.addLinear else t.removeLinear) r.engine r.linear = b at requested ⊢
      obtain ⟨answer, s⟩ := a
      obtain ⟨_, t⟩ := b
      obtain ⟨rfl, twin⟩ := requested
      cases answer with
      | ok _ => exact ⟨rfl, twin.mapRest (g := fun s => s.switch c r active) fun _ _ _ => rfl⟩
      | error cause => exact ⟨rfl, twin⟩

/-- A request for activity leaves twins twins, its report included if it is refused. -/
theorem Twin.setActive (h : s.Twin t) (c : ConstraintId) (active : Bool) :
    (s.setActive c active).Twin (t.setActive c active) := by
  obtain ⟨same, twin⟩ := h.trySetActive c active
  unfold Scene.setActive
  generalize s.trySetActive c active = a at same twin ⊢
  generalize t.trySetActive c active = b at same twin ⊢
  obtain ⟨answer, s⟩ := a
  obtain ⟨_, t⟩ := b
  cases same
  cases answer with
  | ok _ => exact twin
  | error error => exact twin.emit _

/-- A batch leaves twins twins, request by request. -/
theorem Twin.setAllActive (active : Bool) (cs : List ConstraintId) {s t : Scene K} (h : s.Twin t) :
    (s.setAllActive cs active).Twin (t.setAllActive cs active) := by
  induction cs generalizing s t with
  | nil => exact h
  | cons c cs ih => exact ih (h.setActive c active)

/-! ## Views and engines -/

/-- A view that is added to twins gets the same place in both. It is held at the frame it is added
with, which is the same in both. -/
theorem Twin.insertView [CongruentScalar K] (h : s.Twin t) (name : String) (engine : EngineId)
    (frame : Rect K) (insets : Insets K) :
    (s.insertView name engine frame insets).1 = (t.insertView name engine frame insets).1 ∧
      (s.insertView name engine frame insets).2.Twin (t.insertView name engine frame insets).2 := by
  have length : s.views.length = t.views.length := h.views.length_eq
  have inserted : Twin { s with views := s.views ++ [{ name, engine, insets, frame }] }
      { t with views := t.views ++ [{ name, engine, insets, frame }] } :=
    ⟨by rw [h.rest], h.engines, forall₂_append_singleton h.views (.refl _)⟩
  rw [Scene.insertView, Scene.insertView, length]
  refine ⟨rfl, inserted.pin _ ?_⟩
  intro v w hv hw _
  rw [← length, List.getElem?_append_right (Nat.le_refl _), Nat.sub_self] at hv
  rw [List.getElem?_append_right (Nat.le_refl _), Nat.sub_self] at hw
  cases hv
  cases hw
  exact fun q => .refl _

/-- An engine that is added to twins gets the same place in both, and so does its root view. -/
theorem Twin.addEngine [CongruentScalar K] (h : s.Twin t) (config : Config K) :
    (s.addEngine config).1 = (t.addEngine config).1 ∧
      (s.addEngine config).2.Twin (t.addEngine config).2 := by
  have extended (root : ViewId) : Twin { s with engines := s.engines ++ [Engine.create config root] }
      { t with engines := t.engines ++ [Engine.create config root] } :=
    ⟨by rw [h.rest], forall₂_append_singleton h.engines (.refl _), h.views⟩
  rw [Scene.addEngine, Scene.addEngine, h.views.length_eq, h.engines.length_eq]
  exact ⟨rfl, ((extended _).insertView _ _ _ _).2⟩

/-- Insets may be changed in twins; frames that are read do not depend on them. -/
theorem Twin.setInsets (h : s.Twin t) (view : ViewId) (insets : Insets K) :
    (s.setInsets view insets).Twin (t.setInsets view insets) :=
  h.modifyView view fun v w hvw => by rw [View.Twin, hvw]

/-! ## Constraints and blocks -/

/-- A view has the same insets in twins, so demands are made at the same insets. -/
theorem Twin.insets (h : s.Twin t) (view : ViewId) : s.insets view = t.insets view := by
  rw [Scene.insets, Scene.insets, h.map_view view fun v w hvw => by rw [hvw]]

omit [Scalar K] in
/-- An anchor has the same name in twins, so what constraints say is the same. -/
theorem Twin.nameOf (h : s.Twin t) (a : Anchor) : s.nameOf a = t.nameOf a := by
  rw [Scene.nameOf, Scene.nameOf, h.map_view a.view fun v w hvw => by rw [hvw]]

omit [Scalar K] in
/-- An anchor belongs to the same engine in twins, so requests go to the same solvers. -/
theorem Twin.engineOf (h : s.Twin t) (a : Anchor) : s.engineOf a = t.engineOf a := by
  rw [Scene.engineOf, Scene.engineOf, h.map_view a.view fun v w hvw => by rw [hvw]]

/-- An anchor stands for the same expression in twins. It depends on the insets of the view, and not
on its frame. -/
theorem Twin.expressionOf (h : s.Twin t) (a : Anchor) : s.expressionOf a = t.expressionOf a := by
  rw [Scene.expressionOf, Scene.expressionOf, h.insets]

omit [Scalar K] in
/-- Constraints made through an engine get the same priority in twins. -/
theorem Twin.priorityOf (h : s.Twin t) (i : EngineId) : s.priorityOf i = t.priorityOf i := by
  rw [Scene.priorityOf, Scene.priorityOf]
  rcases h.engine i with ⟨he, hf⟩ | ⟨e, f, he, hf, hef⟩
  · rw [he, hf]
  · rw [he, hf, Option.map_some, Option.map_some, hef.config]

/-- Two anchors are related in twins: the constraint is the same in both and gets the same place. -/
theorem Twin.relate (h : s.Twin t) (lhs : Anchor) (relation : Relation) (rhs : Anchor) (offset : K) :
    (s.relate lhs relation rhs offset).1 = (t.relate lhs relation rhs offset).1 ∧
      (s.relate lhs relation rhs offset).2.Twin (t.relate lhs relation rhs offset).2 := by
  obtain ⟨id, fresh⟩ := h.freshLinear
  unfold Scene.relate
  rw [h.engineOf]
  generalize s.freshLinear = a at id fresh ⊢
  generalize t.freshLinear = b at id fresh ⊢
  obtain ⟨id', s⟩ := a
  obtain ⟨_, t⟩ := b
  cases id
  dsimp only at fresh ⊢
  rw [fresh.expressionOf, fresh.expressionOf, fresh.priorityOf, fresh.nameOf, fresh.nameOf]
  exact fresh.insertConstraint _ _ _

/-- An anchor is related to a number in twins: the constraint is the same in both and gets the same
place. -/
theorem Twin.relateNumber (h : s.Twin t) (lhs : Anchor) (value : K) :
    (s.relateNumber lhs value).1 = (t.relateNumber lhs value).1 ∧
      (s.relateNumber lhs value).2.Twin (t.relateNumber lhs value).2 := by
  obtain ⟨id, fresh⟩ := h.freshLinear
  unfold Scene.relateNumber
  rw [h.engineOf]
  generalize s.freshLinear = a at id fresh ⊢
  generalize t.freshLinear = b at id fresh ⊢
  obtain ⟨id', s⟩ := a
  obtain ⟨_, t⟩ := b
  cases id
  dsimp only at fresh ⊢
  rw [fresh.expressionOf, fresh.priorityOf, fresh.nameOf]
  exact fresh.insertConstraint _ _ _

/-- Every way of relating an anchor makes the same constraint in twins. -/
theorem Twin.construct (h : s.Twin t) (lhs : Anchor) (relating : Relating K) :
    (s.construct lhs relating).1 = (t.construct lhs relating).1 ∧
      (s.construct lhs relating).2.Twin (t.construct lhs relating).2 := by
  cases relating with
  | equalTo target =>
    cases target with
    | place p => exact h.relate ..
    | number value => exact h.relateNumber ..
  | greaterThanOrEqualTo p => exact h.relate ..
  | lessThanOrEqualTo p => exact h.relate ..
  | explicit relation anchor offset => exact h.relate ..
  | equalConstant value => exact h.relateNumber ..

/-- A statement makes the same constraint in twins, and its activation ends alike. -/
theorem Twin.state (h : s.Twin t) (lhs : Anchor) (relating : Relating K) :
    (s.state lhs relating).1 = (t.state lhs relating).1 ∧
      (s.state lhs relating).2.Twin (t.state lhs relating).2 := by
  obtain ⟨same, made⟩ := h.construct lhs relating
  rw [Scene.state, Scene.state, same]
  exact ⟨rfl, (made.setActive _ true).emit _⟩

/-- The statements of a block make the same constraints in twins, in the same places. -/
theorem Twin.stateAll (view : ViewId) (statements : List (Statement K)) {s t : Scene K}
    (h : s.Twin t) :
    (Scene.stateAll view s statements).1 = (Scene.stateAll view t statements).1 ∧
      (Scene.stateAll view s statements).2.Twin (Scene.stateAll view t statements).2 := by
  induction statements generalizing s t with
  | nil => exact ⟨rfl, h⟩
  | cons st rest ih =>
    obtain ⟨same, stated⟩ := h.state (st.property.anchor view) st.relating
    obtain ⟨others, twin⟩ := ih stated
    refine ⟨?_, twin⟩
    unfold Scene.stateAll
    dsimp only
    rw [same, others]

end Scene

end ViewConstraints
