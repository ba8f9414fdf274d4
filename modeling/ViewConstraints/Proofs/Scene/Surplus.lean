import ViewConstraints.Proofs.Scene.Engines
import ViewConstraints.Proofs.Simplex.Surplus

/-!
# Scenes whose solvers count surplus mentions

`Surplus E s t` says that `t` is the scene `s` but for surplus mentions in the solvers, `E i` in that
of engine `i`. A request answers the same in both and leaves the same surplus behind, as long as every
unknown of which there is a surplus stays in use in `s`.

Whether it stays in use all the while a request is carried out can be told from its symbol before and
after (`Lasting`): the engines of a scene only evolve, and a symbol is never given out twice
(`Lasting.between`).
-/

namespace ViewConstraints.Scene

open Linear Simplex

section

variable {K : Type} {E : EngineId → Variable → Nat} {σ : EngineId → Variable → Symbol}
  {s t u : Scene K}

/-- Two engines that differ in surplus mentions only. -/
structure Engine.Surplus (E : Variable → Nat) (e f : Engine K) : Prop where
  rest : f = { e with solver := f.solver }
  solver : Solver.Surplus E e.solver f.solver

/-- Two scenes that differ in surplus mentions only. -/
structure Surplus (E : EngineId → Variable → Nat) (s t : Scene K) : Prop where
  rest : t = { s with engines := t.engines }
  length : t.engines.length = s.engines.length
  engine : ∀ (i : EngineId) (e f : Engine K), s.engines[i]? = some e → t.engines[i]? = some f →
    e.Surplus (E i) f

/-- The symbol of an unknown in the solver of an engine. -/
def symbolOf (s : Scene K) (i : EngineId) (v : Variable) : Option Symbol :=
  s.engines[i]?.bind fun e => e.solver.symbolOf v

/-- The unknowns of which there is a surplus have the symbols `σ`, which were made before. -/
def Lasting (E : EngineId → Variable → Nat) (σ : EngineId → Variable → Symbol) (s : Scene K) : Prop :=
  ∀ i v, 0 < E i v → ∃ e, s.engines[i]? = some e ∧ e.solver.symbolOf v = some (σ i v) ∧
    (σ i v).id < e.solver.nextSymbol

/-- Unknowns that last are in use in the solver of their engine. -/
theorem Lasting.inUse (h : Lasting E σ s) {i : EngineId} {e : Engine K} (he : s.engines[i]? = some e) :
    e.solver.InUse (E i) := by
  intro v hv
  obtain ⟨e', he', hσ, -⟩ := h i v hv
  rw [he] at he'
  cases he'
  exact ⟨_, hσ⟩

namespace Surplus

/-- An engine is in both scenes or in neither. -/
theorem lookup (h : Surplus E s t) (i : EngineId) :
    (s.engines[i]? = none ∧ t.engines[i]? = none) ∨
      ∃ e f : Engine K, s.engines[i]? = some e ∧ t.engines[i]? = some f ∧ e.Surplus (E i) f := by
  rcases Nat.lt_or_ge i s.engines.length with hi | hi
  · have hi' : i < t.engines.length := h.length ▸ hi
    exact .inr ⟨_, _, List.getElem?_eq_getElem hi, List.getElem?_eq_getElem hi',
      h.engine i _ _ (List.getElem?_eq_getElem hi) (List.getElem?_eq_getElem hi')⟩
  · exact .inl ⟨List.getElem?_eq_none hi, List.getElem?_eq_none (h.length ▸ hi)⟩

/-- The unknowns have the same symbols with the surplus as without. -/
theorem symbolOf (h : Surplus E s t) (i : EngineId) (v : Variable) :
    t.symbolOf i v = s.symbolOf i v := by
  unfold Scene.symbolOf
  rcases h.lookup i with ⟨hs, ht⟩ | ⟨e, f, hs, ht, hef⟩
  · rw [hs, ht]
  · rw [hs, ht]
    exact hef.solver.symbolOf v

/-- The same constraints are active with the surplus as without: flags are no matter of a solver. -/
theorem isActive (h : Surplus E s t) (c : ConstraintId) : t.isActive c = s.isActive c := by
  rw [h.rest]
  rfl

/-- An engine gives the same priority with the surplus as without. -/
theorem priorityOf (h : Surplus E s t) (engine : EngineId) :
    t.priorityOf engine = s.priorityOf engine := by
  unfold Scene.priorityOf
  rcases h.lookup engine with ⟨hs, ht⟩ | ⟨e, f, hs, ht, hef⟩
  · rw [hs, ht]
  · rw [hs, ht, Option.map_some, Option.map_some, hef.rest]

/-- A change of the records that takes no account of the engines. -/
theorem map (h : Surplus E s t) {g : Scene K → Scene K}
    (hg : ∀ (s : Scene K) engines, g { s with engines } = { g s with engines }) :
    Surplus E (g s) (g t) := by
  obtain ⟨rest, length, engine⟩ := h
  generalize t.engines = engines at rest length engine
  subst rest
  have kept (engines : List (Engine K)) : (g { s with engines }).engines = engines := by rw [hg]
  have before : (g s).engines = s.engines := kept s.engines
  have after := kept engines
  refine ⟨?_, ?_, ?_⟩
  · rw [after]
    exact hg s engines
  · rw [before, after]
    exact length
  · rw [before, after]
    exact engine

theorem emit [Scalar K] (h : Surplus E s t) (event : Event K) :
    Surplus E (s.emit event) (t.emit event) :=
  h.map (g := fun s => s.emit event) fun _ _ => rfl

theorem modifyView [Scalar K] (h : Surplus E s t) (view : ViewId) (f : View K → View K) :
    Surplus E (s.modifyView view f) (t.modifyView view f) :=
  h.map (g := fun s => s.modifyView view f) fun _ _ => rfl

/-- The same constraint takes the next number. -/
theorem insertFresh (h : Surplus E s t) {engine : EngineId} {relationship : Relationship K}
    {linear linear' : Constraint K} (hl : linear' = linear) :
    (t.freshLinear.2.insertConstraint engine relationship linear').1 =
        (s.freshLinear.2.insertConstraint engine relationship linear).1 ∧
      Surplus E (s.freshLinear.2.insertConstraint engine relationship linear).2
        (t.freshLinear.2.insertConstraint engine relationship linear').2 := by
  subst hl
  refine ⟨?_, h.map (g := fun s => (s.freshLinear.2.insertConstraint engine relationship linear').2)
    fun _ _ => rfl⟩
  rw [h.rest]
  rfl

/-- A request made of one engine. -/
theorem set (h : Surplus E s t) {i : EngineId} {e f : Engine K} (hef : e.Surplus (E i) f) :
    Surplus E { s with engines := s.engines.set i e } { t with engines := t.engines.set i f } := by
  refine ⟨?_, by simp only [List.length_set, h.length], ?_⟩
  · rw [h.rest]
  · intro j e' f' he' hf'
    rw [List.getElem?_set] at he' hf'
    split at he'
    next hij =>
      subst hij
      rw [if_pos rfl] at hf'
      split at he'
      next =>
        split at hf'
        next =>
          cases he'
          cases hf'
          exact hef
        next => cases hf'
      next => cases he'
    next hij =>
      rw [if_neg hij] at hf'
      exact h.engine j e' f' he' hf'

end Surplus

end

variable {K : Type} [Scalar K] {E : EngineId → Variable → Nat} {σ : EngineId → Variable → Symbol}
  {s t u : Scene K}

/-- Unknowns that have their symbols before and after have them in between. -/
theorem Lasting.between (hs : Lasting E σ s) (hu : Lasting E σ u) (h : Evolves s t) (h' : Evolves t u) :
    Lasting E σ t := by
  intro i v hv
  obtain ⟨e, he, -, hid⟩ := hs i v hv
  obtain ⟨g, hg, hσ, -⟩ := hu i v hv
  obtain ⟨f, hf, hef⟩ := h.exists_reaches he
  obtain ⟨g', hg', hfg⟩ := h'.exists_reaches hf
  rw [hg] at hg'
  cases hg'
  exact ⟨f, hf, hef.later.between hfg.later hid hσ, Nat.lt_of_lt_of_le hid hef.later.next⟩

/-! ## Requests of a solver -/

/-- A solver answers an addition the same with a surplus as without. The unknowns of the surplus are
in use, so none of them gets another symbol in one scene only. -/
theorem addLinear_surplus (h : Surplus E s t) (hs : Lasting E σ s) (i : EngineId) (c : Constraint K) :
    (t.addLinear i c).1 = (s.addLinear i c).1 ∧ Surplus E (s.addLinear i c).2 (t.addLinear i c).2 := by
  unfold addLinear
  rcases h.lookup i with ⟨he, hf⟩ | ⟨e, f, he, hf, hef⟩
  · rw [he, hf]
    exact ⟨rfl, h⟩
  · rw [he, hf]
    obtain ⟨same, added⟩ := Solver.addConstraint_surplus hef.solver (hs.inUse he) c
    refine ⟨congrArg Engine.answer same, h.set ⟨?_, added⟩⟩
    rw [Engine.add, Engine.add, hef.rest]

/-- A solver answers a removal the same with a surplus as without, if no unknown of the surplus goes
out of use by it. In the scene with the surplus it would not. -/
theorem removeLinear_surplus (h : Surplus E s t) (i : EngineId) (c : Constraint K)
    (hk : Lasting E σ (s.removeLinear i c).2) :
    (t.removeLinear i c).1 = (s.removeLinear i c).1 ∧
      Surplus E (s.removeLinear i c).2 (t.removeLinear i c).2 := by
  unfold removeLinear at hk
  unfold removeLinear
  rcases h.lookup i with ⟨he, hf⟩ | ⟨e, f, he, hf, hef⟩
  · rw [he, hf]
    exact ⟨rfl, h⟩
  · rw [he] at hk
    rw [he, hf]
    have used := hk.inUse (List.getElem?_set_self (List.getElem?_eq_some_iff.1 he).1)
    obtain ⟨same, removed⟩ := Solver.removeConstraint_surplus hef.solver c used
    refine ⟨congrArg Engine.answer same, h.set ⟨?_, removed⟩⟩
    rw [Engine.remove, Engine.remove, hef.rest]

/-- A report says the same with a surplus as without, so the same values are learnt. -/
theorem refresh_surplus {E : Variable → Nat} {e f : Engine K} (h : e.Surplus E f) :
    e.refresh.Surplus E f.refresh ∧ ∀ view, f.refresh.frameOf view = e.refresh.frameOf view := by
  obtain ⟨same, reported⟩ := Solver.fetchChanges_surplus h.solver
  have values : f.refresh.values = e.refresh.values := by
    unfold Engine.refresh
    dsimp only
    rw [same, h.rest]
  refine ⟨⟨?_, reported⟩, ?_⟩
  · have rest := h.rest
    unfold Engine.refresh at values ⊢
    dsimp only at values ⊢
    rw [values, rest]
  · intro view
    simp only [Engine.frameOf, Engine.value, values]

/-- A frame is read the same with a surplus as without, since the reports are. -/
theorem frame_surplus (h : Surplus E s t) (view : ViewId) :
    (t.frame view).1 = (s.frame view).1 ∧ Surplus E (s.frame view).2 (t.frame view).2 := by
  have views : t.views[view]? = s.views[view]? := by rw [h.rest]
  rw [frame, frame, views]
  cases s.views[view]? with
  | none => exact ⟨rfl, h⟩
  | some v =>
    rw [Option.bind_some, Option.bind_some]
    rcases h.lookup v.engine with ⟨he, hf⟩ | ⟨e, f, he, hf, hef⟩
    · rw [he, hf]
      exact ⟨rfl, h⟩
    · rw [he, hf]
      exact ⟨(refresh_surplus hef).2 view, h.set (refresh_surplus hef).1⟩

/-! ## Pins -/

/-- A part of a frame is pinned in both scenes, with the same answer and the same report. -/
theorem pinPart_surplus (view : ViewId) (name : String) (engine : EngineId)
    {acc acc' : List (Constraint K) × Scene K} (hacc : acc'.1 = acc.1)
    (h : Surplus E acc.2 acc'.2) (hs : Lasting E σ acc.2) (part : Quantity × K) :
    (pinPart view name engine acc' part).1 = (pinPart view name engine acc part).1 ∧
      Surplus E (pinPart view name engine acc part).2 (pinPart view name engine acc' part).2 := by
  obtain ⟨pins, s⟩ := acc
  obtain ⟨pins', t⟩ := acc'
  cases hacc
  dsimp only at h hs
  have next : t.nextLinear = s.nextLinear := by rw [h.rest]
  have numbered : Surplus E s.freshLinear.2 t.freshLinear.2 :=
    h.map (g := fun s => s.freshLinear.2) fun _ _ => rfl
  obtain ⟨same, added⟩ := addLinear_surplus (σ := σ) numbered hs engine
    (pinConstraint s.nextLinear view part)
  unfold pinPart
  dsimp only [freshLinear] at same added ⊢
  rw [next] at same added ⊢
  generalize addLinear (K := K) _ engine (pinConstraint s.nextLinear view part) = b at same added ⊢
  generalize addLinear (K := K) _ engine (pinConstraint s.nextLinear view part) = a at same added ⊢
  obtain ⟨answer, u⟩ := a
  obtain ⟨answer', u'⟩ := b
  cases same
  cases answer with
  | ok _ => exact ⟨rfl, added⟩
  | error cause => exact ⟨rfl, added.emit _⟩

/-- The parts of a frame are pinned one after the other. Adding a pin takes nothing out of use. -/
theorem foldl_pinPart_surplus (view : ViewId) (name : String) (engine : EngineId)
    (parts : List (Quantity × K)) (acc acc' : List (Constraint K) × Scene K) (hacc : acc'.1 = acc.1)
    (h : Surplus E acc.2 acc'.2) (hs : Lasting E σ acc.2)
    (hk : Lasting E σ (parts.foldl (pinPart view name engine) acc).2) :
    (parts.foldl (pinPart view name engine) acc').1 =
        (parts.foldl (pinPart view name engine) acc).1 ∧
      Surplus E (parts.foldl (pinPart view name engine) acc).2
        (parts.foldl (pinPart view name engine) acc').2 := by
  induction parts generalizing acc acc' with
  | nil => exact ⟨hacc, h⟩
  | cons part parts ih =>
    obtain ⟨same, pinned⟩ := pinPart_surplus view name engine hacc h hs part
    have kept := hs.between hk (pinPart_evolves view name engine acc part fun _ => trivial)
      (foldl_pinPart_evolves view name engine parts _ fun _ _ => trivial)
    exact ih _ _ same pinned kept hk

/-- A view is held in both scenes at the same frame, with the same pins accepted. -/
theorem pin_surplus (h : Surplus E s t) (view : ViewId) (hs : Lasting E σ s)
    (hk : Lasting E σ (s.pin view)) : Surplus E (s.pin view) (t.pin view) := by
  have views : t.views[view]? = s.views[view]? := by rw [h.rest]
  unfold pin at hk
  rw [pin, pin, views]
  cases hv : s.views[view]? with
  | none => exact h
  | some v =>
    rw [hv] at hk
    dsimp only at hk ⊢
    split
    · exact h
    next hpinned =>
      rw [if_neg hpinned] at hk
      have pinned := foldl_pinPart_surplus view v.name v.engine (frameParts v.frame) ([], s) ([], t)
        rfl h hs
      generalize (frameParts v.frame).foldl (pinPart view v.name v.engine) ([], s) = a at pinned hk ⊢
      generalize (frameParts v.frame).foldl (pinPart view v.name v.engine) ([], t) = b at pinned ⊢
      obtain ⟨pins, u⟩ := a
      obtain ⟨pins', u'⟩ := b
      obtain ⟨same, surplus⟩ := pinned hk
      cases same
      exact surplus.modifyView view _

/-- A pin is removed from both scenes, with the same report if the solver fails. -/
theorem unpinPart_surplus (h : Surplus E s t) (view : ViewId) (name : String) (engine : EngineId)
    (c : Constraint K) (hk : Lasting E σ (unpinPart view name engine s c)) :
    Surplus E (unpinPart view name engine s c) (unpinPart view name engine t c) := by
  have removed := removeLinear_surplus (σ := σ) h engine c
  unfold unpinPart at hk
  unfold unpinPart
  generalize s.removeLinear engine c = a at removed hk ⊢
  generalize t.removeLinear engine c = b at removed ⊢
  obtain ⟨answer, u⟩ := a
  obtain ⟨answer', u'⟩ := b
  cases answer with
  | ok _ =>
    obtain ⟨same, surplus⟩ := removed hk
    cases same
    exact surplus
  | error cause =>
    obtain ⟨same, surplus⟩ := removed hk
    cases same
    exact surplus.emit _

/-- Pins are removed one after the other; unknowns that are kept to the end are kept all along. -/
theorem foldl_unpinPart_surplus (view : ViewId) (name : String) (engine : EngineId)
    {passing : List (Constraint K)} (cs : List (Constraint K)) {s t : Scene K}
    (hn : Numbered passing s) (hsub : cs ⊆ passing) (h : Surplus E s t) (hs : Lasting E σ s)
    (hk : Lasting E σ (cs.foldl (unpinPart view name engine) s)) :
    Surplus E (cs.foldl (unpinPart view name engine) s)
      (cs.foldl (unpinPart view name engine) t) := by
  induction cs generalizing s t with
  | nil => exact h
  | cons c cs ih =>
    have first : Evolves s _ := hn.unpinPart_evolves view name engine (hsub (.head _)) trivial
    have hn' := hn.unpinPart view name engine c
    have rest := List.subset_of_cons_subset hsub
    have kept := hs.between hk first (hn'.foldl_unpinPart_evolves view name engine cs rest fun _ _ => trivial)
    exact ih hn' rest (unpinPart_surplus h view name engine c kept) kept hk

/-- A view is released in both scenes. Its pins come off one by one, so the unknowns of the surplus
have to stay in use until the last is off. -/
theorem unpin_surplus (hn : Numbered [] s) (h : Surplus E s t) (view : ViewId) (hs : Lasting E σ s)
    (hk : Lasting E σ (s.unpin view)) : Surplus E (s.unpin view) (t.unpin view) := by
  have views : t.views[view]? = s.views[view]? := by rw [h.rest]
  unfold unpin at hk
  rw [unpin, unpin, views]
  cases hv : s.views[view]? with
  | none => exact h
  | some v =>
    rw [hv] at hk
    dsimp only at hk ⊢
    cases hpins : v.pins with
    | none => exact h
    | some pins =>
      rw [hpins] at hk
      have pinned : v.pinned = pins := by rw [View.pinned, hpins]; rfl
      have released := foldl_unpinPart_surplus view v.name v.engine pins (hn.unrecord hv)
        (fun _ hc => pinned ▸ hc) (h.modifyView view fun v => { v with pins := none }) hs hk
      exact released.emit _

/-! ## Activity -/

/-- A solver is asked the same about a constraint that is switched, and answers the same. -/
theorem requestActivity_surplus (h : Surplus E s t) (hs : Lasting E σ s) (r : AnchorConstraint K)
    (active : Bool) (hk : Lasting E σ (s.requestActivity r active).2) :
    (t.requestActivity r active).1 = (s.requestActivity r active).1 ∧
      Surplus E (s.requestActivity r active).2 (t.requestActivity r active).2 := by
  cases active with
  | true => exact addLinear_surplus h hs r.engine r.linear
  | false => exact removeLinear_surplus h r.engine r.linear hk

/-- A request for activity is answered the same with a surplus as without. The flags are the same in
both scenes, so both ask the solver or neither does. -/
theorem trySetActive_surplus (h : Surplus E s t) (hs : Lasting E σ s) (c : ConstraintId)
    (active : Bool) (hk : Lasting E σ (s.trySetActive c active).2) :
    (t.trySetActive c active).1 = (s.trySetActive c active).1 ∧
      Surplus E (s.trySetActive c active).2 (t.trySetActive c active).2 := by
  have constraints : t.constraints[c]? = s.constraints[c]? := by rw [h.rest]
  unfold trySetActive at hk
  rw [trySetActive, trySetActive, constraints]
  cases hr : s.constraints[c]? with
  | none => exact ⟨rfl, h⟩
  | some r =>
    rw [hr] at hk
    dsimp only at hk ⊢
    split
    · exact ⟨rfl, h⟩
    next ha =>
      rw [if_neg ha] at hk
      have requested := requestActivity_surplus h hs r active
      simp only [requestActivity] at requested
      generalize (if active then s.addLinear else s.removeLinear) r.engine r.linear = a
        at requested hk ⊢
      generalize (if active then t.addLinear else t.removeLinear) r.engine r.linear = b
        at requested ⊢
      obtain ⟨answer, u⟩ := a
      obtain ⟨answer', u'⟩ := b
      cases answer with
      | ok _ =>
        obtain ⟨same, surplus⟩ := requested hk
        cases same
        exact ⟨rfl, surplus.map (g := fun s => s.switch c r active) fun _ _ => rfl⟩
      | error cause =>
        obtain ⟨same, surplus⟩ := requested hk
        cases same
        exact ⟨rfl, surplus⟩

/-- A request for activity leaves the surplus behind, and its report is the same. -/
theorem setActive_surplus (h : Surplus E s t) (hs : Lasting E σ s) (c : ConstraintId) (active : Bool)
    (hk : Lasting E σ (s.setActive c active)) : Surplus E (s.setActive c active) (t.setActive c active) := by
  have tried := trySetActive_surplus h hs c active
  unfold setActive at hk
  unfold setActive
  generalize s.trySetActive c active = a at tried hk ⊢
  generalize t.trySetActive c active = b at tried ⊢
  obtain ⟨answer, u⟩ := a
  obtain ⟨answer', u'⟩ := b
  cases answer with
  | ok _ =>
    obtain ⟨same, surplus⟩ := tried hk
    cases same
    exact surplus
  | error error =>
    obtain ⟨same, surplus⟩ := tried hk
    cases same
    exact surplus.emit _

/-- Constraints are switched one after the other; unknowns that are kept to the end are kept all
along. -/
theorem setAllActive_surplus (active : Bool) (cs : List ConstraintId) {s t : Scene K}
    (hn : Numbered [] s) (h : Surplus E s t) (hs : Lasting E σ s)
    (hk : Lasting E σ (s.setAllActive cs active)) :
    Surplus E (s.setAllActive cs active) (t.setAllActive cs active) := by
  induction cs generalizing s t with
  | nil => exact h
  | cons c cs ih =>
    have hn' := hn.setActive c active
    have kept := hs.between hk (hn.setActive_evolves c active fun _ _ => ⟨trivial, trivial⟩)
      ((evolves_stable.setAllActive active cs (s.setActive c active)).2 hn')
    exact ih hn' (setActive_surplus h hs c active kept) kept hk

/-! ## Views and engines -/

/-- Holding or releasing a view leaves the surplus behind. The frame it is held at is read the same in
both scenes. -/
theorem setPinned_surplus (hn : Numbered [] s) (h : Surplus E s t) (view : ViewId) (enabled : Bool)
    (hs : Lasting E σ s) (hk : Lasting E σ (s.setPinned view enabled)) :
    Surplus E (s.setPinned view enabled) (t.setPinned view enabled) := by
  cases enabled with
  | true =>
    rw [setPinned, if_pos rfl] at hk
    rw [setPinned, setPinned, if_pos rfl, if_pos rfl]
    obtain ⟨same, read⟩ := frame_surplus h view
    have framed : Evolves (s.frame view).2
        ((s.frame view).2.modifyView view fun v => { v with frame := (s.frame view).1 }) :=
      .of_engines rfl
    have pinned := framed.trans (pin_evolves _ view fun _ _ _ => trivial)
    have kept : Lasting E σ (s.frame view).2 := Lasting.between hs (by exact hk) (frame_evolves s view) pinned
    generalize s.frame view = a at same read kept hk ⊢
    generalize t.frame view = b at same read ⊢
    obtain ⟨r, u⟩ := a
    obtain ⟨r', u'⟩ := b
    cases same
    exact pin_surplus (read.modifyView view fun v => { v with frame := r }) view kept hk
  | false => exact unpin_surplus hn h view hs hk

/-- A view is added in both scenes, at the same place and with the same pins accepted. -/
theorem insertView_surplus (h : Surplus E s t) (hs : Lasting E σ s) (name : String) (engine : EngineId)
    (frame : Rect K) (insets : Insets K)
    (hk : Lasting E σ (s.insertView name engine frame insets).2) :
    (t.insertView name engine frame insets).1 = (s.insertView name engine frame insets).1 ∧
      Surplus E (s.insertView name engine frame insets).2 (t.insertView name engine frame insets).2 := by
  have views : t.views.length = s.views.length := by rw [h.rest]
  have inserted := h.map (g := fun s =>
    { s with views := s.views ++ [{ name, engine, insets, frame }] }) fun _ _ => rfl
  rw [insertView, insertView, views]
  exact ⟨rfl, pin_surplus inserted _ hs hk⟩

/-- A new engine tracks no unknown, so it has no surplus. -/
theorem Surplus.appendEngine (h : Surplus E s t) (config : Config K) (root : ViewId) :
    Surplus E { s with engines := s.engines ++ [Engine.create config root] }
      { t with engines := t.engines ++ [Engine.create config root] } := by
  refine ⟨?_, by simp only [List.length_append, h.length], ?_⟩
  · rw [h.rest]
  · intro i e f he hf
    rcases Nat.lt_or_ge i s.engines.length with hi | hi
    · dsimp only at he hf
      rw [List.getElem?_append_left hi] at he
      rw [List.getElem?_append_left (h.length ▸ hi)] at hf
      exact h.engine i e f he hf
    · have he' := List.mem_of_getElem? (List.getElem?_append_right hi ▸ he)
      have hf' := List.mem_of_getElem? (List.getElem?_append_right (h.length ▸ hi) ▸ hf)
      rw [List.mem_singleton.1 he', List.mem_singleton.1 hf']
      exact ⟨rfl, rfl, fun _ => rfl⟩

/-- An engine is added in both scenes with its root view. There is no surplus of its unknowns yet. -/
theorem addEngine_surplus (h : Surplus E s t) (hs : Lasting E σ s) (config : Config K)
    (hk : Lasting E σ (s.addEngine config).2) :
    (t.addEngine config).1 = (s.addEngine config).1 ∧
      Surplus E (s.addEngine config).2 (t.addEngine config).2 := by
  have views : t.views.length = s.views.length := by rw [h.rest]
  have kept := hs.between hk (appendEngine_evolves s config s.views.length)
    (insertView_evolves _ _ _ _ _ fun _ _ => trivial)
  rw [addEngine, addEngine, views, h.length]
  exact ⟨rfl, (insertView_surplus (h.appendEngine config s.views.length) kept _ _ _ _ hk).2⟩

/-! ## Constraints and blocks -/

/-- Two anchors are related in both scenes, which asks no solver. -/
theorem relate_surplus (h : Surplus E s t) (lhs : Anchor) (relation : Relation) (rhs : Anchor)
    (offset : K) : (t.relate lhs relation rhs offset).1 = (s.relate lhs relation rhs offset).1 ∧
      Surplus E (s.relate lhs relation rhs offset).2 (t.relate lhs relation rhs offset).2 := by
  have priority := h.priorityOf (s.engineOf lhs)
  obtain ⟨engines, rfl⟩ : ∃ engines, t = { s with engines } := ⟨_, h.rest⟩
  exact h.insertFresh (congrArg (Constraint.relating s.nextLinear (s.expressionOf lhs) relation
    ((s.expressionOf rhs).addConstant offset)) priority)

/-- An anchor is related to a number in both scenes, which asks no solver. -/
theorem relateNumber_surplus (h : Surplus E s t) (lhs : Anchor) (value : K) :
    (t.relateNumber lhs value).1 = (s.relateNumber lhs value).1 ∧
      Surplus E (s.relateNumber lhs value).2 (t.relateNumber lhs value).2 := by
  have priority := h.priorityOf (s.engineOf lhs)
  obtain ⟨engines, rfl⟩ : ∃ engines, t = { s with engines } := ⟨_, h.rest⟩
  exact h.insertFresh (congrArg (Constraint.equalling s.nextLinear (s.expressionOf lhs) value) priority)

/-- Making a constraint leaves the engines as they are. -/
theorem construct_engines (s : Scene K) (lhs : Anchor) (relating : Layout.Relating K) :
    (s.construct lhs relating).2.engines = s.engines := by
  cases relating with
  | equalTo target => cases target <;> rfl
  | greaterThanOrEqualTo _ | lessThanOrEqualTo _ | explicit _ _ _ | equalConstant _ => rfl

/-- Every way of relating an anchor makes the same constraint in both scenes. -/
theorem construct_surplus (h : Surplus E s t) (lhs : Anchor) (relating : Layout.Relating K) :
    (t.construct lhs relating).1 = (s.construct lhs relating).1 ∧
      Surplus E (s.construct lhs relating).2 (t.construct lhs relating).2 := by
  cases relating with
  | equalTo target =>
    cases target with
    | place p => exact relate_surplus h ..
    | number value => exact relateNumber_surplus h ..
  | greaterThanOrEqualTo p => exact relate_surplus h ..
  | lessThanOrEqualTo p => exact relate_surplus h ..
  | explicit relation anchor offset => exact relate_surplus h ..
  | equalConstant value => exact relateNumber_surplus h ..

/-- A statement makes the same constraint in both scenes, and its activation ends the same. -/
theorem state_surplus (h : Surplus E s t) (hs : Lasting E σ s) (lhs : Anchor)
    (relating : Layout.Relating K) (hk : Lasting E σ (s.state lhs relating).2) :
    (t.state lhs relating).1 = (s.state lhs relating).1 ∧
      Surplus E (s.state lhs relating).2 (t.state lhs relating).2 := by
  obtain ⟨same, made⟩ := construct_surplus h lhs relating
  have kept : Lasting E σ (s.construct lhs relating).2 := by
    rw [Lasting, construct_engines]
    exact hs
  rw [state, state]
  unfold state at hk
  rw [same]
  exact ⟨rfl, (setActive_surplus made kept _ true hk).emit _⟩

/-- A block is stated one statement after the other; unknowns that are kept to the end are kept all
along. -/
theorem stateAll_surplus (view : ViewId) (statements : List (Layout.Statement K)) {s t : Scene K}
    (hn : Numbered [] s) (h : Surplus E s t) (hs : Lasting E σ s)
    (hk : Lasting E σ (stateAll view s statements).2) :
    (stateAll view t statements).1 = (stateAll view s statements).1 ∧
      Surplus E (stateAll view s statements).2 (stateAll view t statements).2 := by
  induction statements generalizing s t with
  | nil => exact ⟨rfl, h⟩
  | cons st rest ih =>
    have stated := evolves_stable.state s (st.property.anchor view) st.relating
    have kept := hs.between hk (stated.2 hn)
      ((evolves_stable.stateAll view rest _).2 (stated.1 hn))
    obtain ⟨same, surplus⟩ := state_surplus h hs (st.property.anchor view) st.relating kept
    obtain ⟨others, surplus'⟩ := ih (stated.1 hn) surplus kept hk
    refine ⟨?_, surplus'⟩
    unfold stateAll
    dsimp only
    rw [same, others]

/-- Reading frames takes no unknown out of use. -/
theorem readFrames_surplus (views : List ViewId) {s t : Scene K} (h : Surplus E s t) :
    (Session.readFrames t views).1 = (Session.readFrames s views).1 ∧
      Surplus E (Session.readFrames s views).2 (Session.readFrames t views).2 := by
  induction views generalizing s t with
  | nil => exact ⟨rfl, h⟩
  | cons view views ih =>
    obtain ⟨same, read⟩ := frame_surplus h view
    obtain ⟨others, surplus⟩ := ih read
    refine ⟨?_, surplus⟩
    unfold Session.readFrames
    dsimp only
    rw [same, others]

end ViewConstraints.Scene
