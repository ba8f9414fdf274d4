import ViewConstraints.Proofs.Scene.Frames
import ViewConstraints.Proofs.Scene.Isolation
import ViewConstraints.Proofs.Scene.Reading

/-!
# Stale numbers

A number read of a view is stale if its unknown was not reported since it came into use, or is not in
use at all, and yet the number is not zero: it was learnt in an earlier use of the unknown
(`Engine.Stale`). What is read agrees with the current solution exactly if it is not stale
(`Faithful.agree_solutionOf_iff`). Twins have the same solution, so frames read of twins agree exactly if
their numbers are stale in neither, or stale in both and the same (`Twin.frame_agrees_iff`).
-/

namespace ViewConstraints

open Linear Simplex

/-- The value of an unknown in the current solution; an unknown that is not in use has the value
zero. -/
def Simplex.Solver.solutionOf {K : Type} [Scalar K] (s : Solver K) (v : Variable) : K :=
  ((s.symbolOf v).map s.valueOf).getD 0.0

/-- Unknowns have the same values in twins. -/
theorem Simplex.Solver.Twin.solutionOf {K : Type} [Scalar K] {s t : Solver K} (h : s.Twin t)
    (v : Variable) : s.solutionOf v = t.solutionOf v := by
  rw [Solver.solutionOf, Solver.solutionOf, h.symbol,
    show s.valueOf = t.valueOf from Solver.congr_of_machine Solver.valueOf h.machine fun _ => rfl]

namespace Scene

section

variable {K : Type} [Scalar K]

/-- The value learnt for an unknown is one of an earlier use of it. -/
def Engine.Stale (e : Engine K) (v : Variable) : Prop :=
  e.refresh.solver.reportedOf v = none ∧ ¬ Agree (e.refresh.value v) 0.0

/-- The number read for a quantity of a view is stale. -/
def Stale (s : Scene K) (view : ViewId) (q : Quantity) : Prop :=
  ∃ e ∈ s.views[view]?.bind fun v => s.engines[v.engine]?, e.Stale ⟨view, q⟩

/-- The numbers read of a view are stale in neither of two scenes, or stale in both and the same. -/
def SeenAlike (s t : Scene K) (view : ViewId) : Prop :=
  ∀ q, (s.Stale view q ↔ t.Stale view q) ∧
    (s.Stale view q → Agree ((s.frame view).1.component q) ((t.frame view).1.component q))

instance (x y : K) : Decidable (Agree x y) := inferInstanceAs (Decidable (_ ∨ _))

instance (e : Engine K) (v : Variable) : Decidable (e.Stale v) :=
  decidable_of_iff ((e.refresh.solver.reportedOf v).isNone = true ∧ ¬ Agree (e.refresh.value v) 0.0)
    (and_congr_left' Option.isNone_iff_eq_none)

instance (s : Scene K) (view : ViewId) (q : Quantity) : Decidable (s.Stale view q) :=
  inferInstanceAs (Decidable (∃ e ∈ _, _))

instance (s t : Scene K) (view : ViewId) : Decidable (SeenAlike s t view) :=
  decidable_of_iff (∀ q ∈ [Quantity.left, .top, .width, .height], _)
    ⟨fun h q => h q (by cases q <;> decide), fun h q _ => h q⟩

end

variable {K : Type} [Scalar K] [LawfulScalar K] {e f : Engine K}

namespace Engine

/-- What is learnt of an unknown agrees with the current solution exactly if it is not stale. -/
theorem Faithful.agree_solutionOf_iff (h : e.Faithful) (v : Variable) :
    Agree (e.refresh.value v) (e.solver.solutionOf v) ↔ ¬ e.Stale v := by
  have stale : ¬ e.Stale v ↔
      (e.refresh.solver.reportedOf v).isSome = true ∨ Agree (e.refresh.value v) 0.0 := by
    rw [Stale, Classical.not_and_iff_not_or_not, Classical.not_not, Option.isSome_iff_ne_none]
  rw [stale, Solver.solutionOf]
  cases hσ : e.solver.symbolOf v with
  | some σ => exact h.agree_valueOf_iff hσ
  | none =>
    have unused : e.refresh.solver.reportedOf v = none := by
      cases hr : e.refresh.solver.reportedOf v with
      | none => rfl
      | some r =>
        obtain ⟨σ, hσ'⟩ := Solver.exists_symbolOf_of_reportedOf hr
        rw [show e.refresh.solver.symbolOf v = none from
          (Solver.symbolOf_fetchChanges e.solver v).trans hσ] at hσ'
        cases hσ'
    rw [unused]
    simp

/-- Twins have learnt numbers for an unknown that agree exactly if these are stale in neither, or stale
in both and the same. -/
theorem Faithful.agree_value_iff (he : e.Faithful) (hf : f.Faithful) (h : e.Twin f) (v : Variable) :
    Agree (e.refresh.value v) (f.refresh.value v) ↔
      (e.Stale v ↔ f.Stale v) ∧ (e.Stale v → Agree (e.refresh.value v) (f.refresh.value v)) := by
  have currentE := he.agree_solutionOf_iff v
  have currentF := hf.agree_solutionOf_iff v
  rw [← h.solver.solutionOf] at currentF
  constructor
  · intro agree
    refine ⟨?_, fun _ => agree⟩
    rw [← not_iff_not, ← currentE, ← currentF]
    exact ⟨agree.symm.trans, agree.trans⟩
  · rintro ⟨alike, same⟩
    by_cases stale : e.Stale v
    · exact same stale
    · exact (currentE.2 stale).trans (currentF.2 fun hf => stale (alike.2 hf)).symm

end Engine

variable {s t : Scene K}

omit [LawfulScalar K] in
/-- A component of a view is stale exactly if its unknown is in the engine of the view. -/
theorem stale_iff {view : ViewId} {v : View K} (hv : s.views[view]? = some v)
    (he : s.engines[v.engine]? = some e) {q : Quantity} : s.Stale view q ↔ e.Stale ⟨view, q⟩ := by
  rw [Scene.Stale, hv, Option.bind_some, he]
  refine ⟨?_, fun h => ⟨e, rfl, h⟩⟩
  rintro ⟨f, hf, h⟩
  cases hf
  exact h

omit [LawfulScalar K] in
/-- Nothing is read of a view that has no engine, and nothing of it is stale. -/
theorem frame_of_no_engine {view : ViewId}
    (h : s.views[view]?.bind (fun v => s.engines[v.engine]?) = none) :
    (s.frame view).1 = .zero ∧ ∀ q, ¬ s.Stale view q := by
  refine ⟨?_, ?_⟩
  · rw [frame]
    cases hv : s.views[view]? with
    | none => rfl
    | some v =>
      rw [hv, Option.bind_some] at h
      rw [Option.bind_some, h]
      rfl
  · rintro q ⟨e, he, -⟩
    rw [h] at he
    cases he

/-- Frames read of twins agree exactly if their numbers are stale in neither, or stale in both and the
same. -/
theorem Twin.frame_agrees_iff (h : s.Twin t)
    (hs : ∀ (i : EngineId) (e : Engine K), s.engines[i]? = some e → e.Faithful)
    (ht : ∀ (i : EngineId) (e : Engine K), t.engines[i]? = some e → e.Faithful) (view : ViewId) :
    (s.frame view).1.Agrees (t.frame view).1 ↔ SeenAlike s t view := by
  have absent (hs : s.views[view]?.bind (fun v => s.engines[v.engine]?) = none)
      (ht : t.views[view]?.bind (fun v => t.engines[v.engine]?) = none) :
      (s.frame view).1.Agrees (t.frame view).1 ↔ SeenAlike s t view := by
    obtain ⟨zero, fresh⟩ := frame_of_no_engine hs
    obtain ⟨zero', fresh'⟩ := frame_of_no_engine ht
    refine iff_of_true ?_ fun q => ⟨iff_of_false (fresh q) (fresh' q), fun hq => absurd hq (fresh q)⟩
    rw [zero, zero']
    exact fun q => .refl _
  rcases h.view view with ⟨hv, hw⟩ | ⟨v, w, hv, hw, hvw⟩
  · exact absent (by rw [hv]; rfl) (by rw [hw]; rfl)
  · have engine : w.engine = v.engine := by rw [hvw]
    rcases h.engine v.engine with ⟨he, hf⟩ | ⟨e, f, he, hf, hef⟩
    · exact absent (by rw [hv, Option.bind_some, he]) (by rw [hw, Option.bind_some, engine, hf])
    · refine forall_congr' fun q => ?_
      rw [frame_component hv he, frame_component hw (engine ▸ hf), stale_iff hv he,
        stale_iff hw (engine ▸ hf)]
      exact (hs _ e he).agree_value_iff (ht _ f hf) hef ⟨view, q⟩

/-! ## Reading one frame after another -/

end Scene

section

variable {K : Type} [Scalar K]

/-- Nothing is left on record after a report. -/
theorem Simplex.Solver.pending_fetchChanges (s : Solver K) : s.fetchChanges.2.pending = [] := by
  have kept (vs : List Variable) (r : List (Variable × K) × Solver K) :
      (vs.foldl Solver.reportVariable r).2.pending = r.2.pending := by
    induction vs generalizing r with
    | nil => rfl
    | cons v vs ih =>
      refine (ih _).trans ?_
      rcases Solver.reportVariable_cases r v with ⟨heq, -⟩ | ⟨x, -, heq⟩
      · rw [heq]
      · rw [heq]
        rfl
  rw [Solver.fetchChanges, kept]
  cases s.reportedChanges <;> rfl

/-- Without a change on record nothing is reported. -/
theorem Simplex.Solver.fetchChanges_of_pending {s : Solver K} (h : s.pending = []) :
    s.fetchChanges.1 = [] := by
  rw [Solver.pending] at h
  rw [Solver.fetchChanges]
  cases hr : s.reportedChanges with
  | true => rfl
  | false =>
    rw [hr] at h
    rw [if_neg Bool.false_ne_true, show s.changed = [] from h]
    rfl

namespace Scene

/-- Nothing more is learnt when the solver is asked again at once. -/
theorem refresh_refresh_frameOf (e : Engine K) (view : ViewId) :
    e.refresh.refresh.frameOf view = e.refresh.frameOf view := by
  have values : e.refresh.refresh.values = e.refresh.values := by
    have silent : e.refresh.solver.fetchChanges.1 = [] :=
      Solver.fetchChanges_of_pending (Solver.pending_fetchChanges e.solver)
    show List.foldl _ e.refresh.values e.refresh.solver.fetchChanges.1 = _
    rw [silent]
    rfl
  simp only [Engine.frameOf, Engine.value, values]

/-- Reading one frame changes nothing of what is read of another. -/
theorem frame_frame (s : Scene K) (view other : ViewId) :
    ((s.frame view).2.frame other).1 = (s.frame other).1 := by
  have views : (s.frame view).2.views = s.views := (frame_records s view).views
  cases hw : s.views[other]? with
  | none =>
    rw [(frame_of_no_engine (s := s) (by rw [hw]; rfl)).1,
      (frame_of_no_engine (s := (s.frame view).2) (by rw [views, hw]; rfl)).1]
  | some w =>
    rw [frame_eq_of_view hw, frame_eq_of_view (s := (s.frame view).2) (views ▸ hw)]
    congr 1
    rw [frame]
    split
    · rfl
    next engine _ found =>
      obtain ⟨v, -, hv⟩ := Option.bind_eq_some_iff.1 found
      obtain ⟨e, he, heq⟩ := Option.map_eq_some_iff.1 hv
      cases heq
      by_cases same : v.engine = w.engine
      · dsimp only
        rw [← same, List.getElem?_set_self (List.getElem?_eq_some_iff.1 he).1, he, Option.map_some,
          Option.map_some, refresh_refresh_frameOf]
      · dsimp only
        rw [List.getElem?_set_ne same]

/-- Frames read one after the other are what each is on its own. -/
theorem readFrames_eq_map (views : List ViewId) (s : Scene K) :
    (Session.readFrames s views).1 = views.map fun view => (s.frame view).1 := by
  induction views generalizing s with
  | nil => rfl
  | cons view views ih =>
    unfold Session.readFrames
    dsimp only
    rw [ih, List.map_cons]
    exact congrArg _ (List.map_congr_left fun other _ => frame_frame s view other)

end Scene

end

end ViewConstraints
