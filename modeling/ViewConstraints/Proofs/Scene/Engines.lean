import ViewConstraints.Proofs.Scene.Numbering
import ViewConstraints.Proofs.Simplex.Mentions

/-!
# What becomes of an engine

Whatever is asked of a scene, its engines are only ever asked to add a constraint, to remove one that
they hold, and to report (`Engine.ReachesBy`). So every engine of a scene comes from the engine that
was in its place before, or was created since (`EvolvesBy`), and what those three requests keep holds
of every engine at every moment. Both relations say of the constraints that were added and removed on
the way that they satisfy two predicates; `Engine.Reaches` and `Evolves` ask nothing of them.
-/

namespace ViewConstraints

open Linear Simplex

namespace Scene

variable {K : Type} [Scalar K]

variable {A B : Constraint K → Prop}

/-- Requests made of an engine, one after the other: additions of constraints that satisfy `A`,
removals of constraints that satisfy `B`, and reports. A removal is asked for with the constraint that
the solver holds under its number, if it holds one. -/
inductive Engine.ReachesBy (A B : Constraint K → Prop) : Engine K → Engine K → Prop where
  | refl (e : Engine K) : ReachesBy A B e e
  | add {e f : Engine K} {c : Constraint K} : ReachesBy A B e f → A c → ReachesBy A B e (f.add c).2
  | remove {e f : Engine K} {c : Constraint K} : ReachesBy A B e f → B c →
      (∀ held, f.solver.held.get? c.id = some held → held.constraint = c) →
      ReachesBy A B e (f.remove c).2
  | refresh {e f : Engine K} : ReachesBy A B e f → ReachesBy A B e f.refresh

/-- Requests made of an engine, whatever they add and remove. -/
abbrev Engine.Reaches : Engine K → Engine K → Prop := ReachesBy (fun _ => True) fun _ => True

/-- What is reached from an engine that is reached is reached from the first. -/
theorem Engine.ReachesBy.trans {e f g : Engine K} (h : ReachesBy A B e f) (h' : ReachesBy A B f g) :
    ReachesBy A B e g := by
  induction h' with
  | refl => exact h
  | add _ hc ih => exact ih.add hc
  | remove _ hc hheld ih => exact ih.remove hc hheld
  | refresh _ ih => exact ih.refresh

/-- Requests of which more is known. -/
theorem Engine.ReachesBy.mono {A' B' : Constraint K → Prop} {e f : Engine K} (h : ReachesBy A B e f)
    (hA : ∀ c, A c → A' c) (hB : ∀ c, B c → B' c) : ReachesBy A' B' e f := by
  induction h with
  | refl => exact .refl _
  | add _ hc ih => exact ih.add (hA _ hc)
  | remove _ hc hheld ih => exact ih.remove (hB _ hc) hheld
  | refresh _ ih => exact ih.refresh

namespace Engine

variable {e f : Engine K} {E : Variable → Nat}

/-- Whatever is asked of an engine, its unknowns have the symbols they had before or ones that were
made since. -/
theorem ReachesBy.later (h : e.ReachesBy A B f) : Solver.Later e.solver f.solver := by
  induction h with
  | refl => exact .refl _
  | add _ _ ih => exact ih.trans (Solver.addConstraint_later _ _)
  | remove _ _ _ ih => exact ih.trans (Solver.removeConstraint_later _ _)
  | refresh _ ih => exact ih.trans (Solver.fetchChanges_later _)

/-- Mentions stay counted, with any surplus there was. -/
theorem ReachesBy.counted (h : e.ReachesBy A B f) (keyed : e.solver.Keyed)
    (counted : e.solver.Counted E) : f.solver.Keyed ∧ f.solver.Counted E := by
  induction h with
  | refl => exact ⟨keyed, counted⟩
  | add _ _ ih => exact ⟨(Solver.addConstraint_keyed ih.1).1, ih.2.addConstraint ih.1⟩
  | remove _ _ hheld ih =>
    exact ⟨(Solver.removeConstraint_keyed ih.1).1, ih.2.removeConstraint ih.1 hheld⟩
  | @refresh f _ ih => exact ⟨ih.1.of_held f.solver.fetchChanges_held, ih.2.fetchChanges⟩

/-- An unknown of which there is a surplus never goes out of use. -/
theorem ReachesBy.symbolOf (h : e.ReachesBy A B f) (keyed : e.solver.Keyed)
    (counted : e.solver.Counted E) {v : Variable} (hv : 0 < E v) {σ : Symbol}
    (hσ : e.solver.symbolOf v = some σ) : f.solver.symbolOf v = some σ := by
  induction h with
  | refl => exact hσ
  | add _ _ ih => exact Solver.symbolOf_addConstraint ih _
  | @remove f c hreach hc hheld ih =>
    have ⟨_, counts⟩ := (hreach.remove hc hheld).counted keyed counted
    obtain ⟨τ, hτ⟩ := Solver.exists_symbolOf (Nat.lt_of_lt_of_le hv (Nat.le_of_add_right_le (counts v)))
    have before := Solver.symbolOf_of_removeConstraint hτ
    rw [ih] at before
    cases before
    exact hτ
  | @refresh f _ ih => exact (Solver.symbolOf_fetchChanges f.solver v).trans ih

/-- A new engine holds nothing, so it counts no mentions. -/
theorem create_counted (config : Config K) (root : ViewId) :
    (create config root).solver.Keyed ∧ (create config root).solver.Counted fun _ => 0 :=
  ⟨⟨.nil, nofun⟩, fun _ => Nat.zero_le _⟩

end Engine

/-- The engines of `t` are those of `s`, reached by requests, and others created since. -/
structure EvolvesBy (A B : Constraint K → Prop) (s t : Scene K) : Prop where
  length : s.engines.length ≤ t.engines.length
  engine : ∀ (i : EngineId) (e' : Engine K), t.engines[i]? = some e' →
    (∃ e : Engine K, s.engines[i]? = some e ∧ e.ReachesBy A B e') ∨
    (s.engines[i]? = none ∧ ∃ config root, (Engine.create config root).ReachesBy A B e')

/-- The engines of `t` are those of `s`, whatever was asked of them, and others created since. -/
abbrev Evolves : Scene K → Scene K → Prop := EvolvesBy (fun _ => True) fun _ => True

namespace EvolvesBy

variable {s t u : Scene K}

/-- A request that leaves the engines alone. -/
theorem of_engines (h : t.engines = s.engines) : EvolvesBy A B s t :=
  ⟨Nat.le_of_eq (congrArg List.length h).symm, fun _ e he => .inl ⟨e, h ▸ he, .refl e⟩⟩

theorem refl (s : Scene K) : EvolvesBy A B s s := of_engines rfl

/-- An engine that was created on the way comes from a new one, and each other from the engine in
its place. -/
theorem trans (h : EvolvesBy A B s t) (h' : EvolvesBy A B t u) : EvolvesBy A B s u where
  length := Nat.le_trans h.length h'.length
  engine i e' he' := by
    rcases h'.engine i e' he' with ⟨e, he, hreach⟩ | ⟨hnone, config, root, hreach⟩
    · refine (h.engine i e he).imp ?_ ?_
      · rintro ⟨e₀, he₀, hreach₀⟩
        exact ⟨e₀, he₀, hreach₀.trans hreach⟩
      · rintro ⟨hnone, config, root, hreach₀⟩
        exact ⟨hnone, config, root, hreach₀.trans hreach⟩
    · refine .inr ⟨?_, config, root, hreach⟩
      rw [List.getElem?_eq_none_iff] at hnone ⊢
      exact Nat.le_trans h.length hnone

/-- A request made of one engine. -/
theorem set {i : EngineId} {e e' : Engine K} (he : s.engines[i]? = some e)
    (h : e.ReachesBy A B e') : EvolvesBy A B s { s with engines := s.engines.set i e' } := by
  refine ⟨Nat.le_of_eq List.length_set.symm, fun j f hf => .inl ?_⟩
  obtain ⟨hi, -⟩ := List.getElem?_eq_some_iff.1 he
  by_cases hj : i = j
  · subst hj
    dsimp only at hf
    rw [List.getElem?_set_self hi] at hf
    cases hf
    exact ⟨e, he, h⟩
  · dsimp only at hf
    rw [List.getElem?_set_ne hj] at hf
    exact ⟨f, hf, .refl f⟩

/-- An engine that was there before is reached from what it was then. -/
theorem exists_reaches (h : EvolvesBy A B s t) {i : EngineId} {e : Engine K}
    (he : s.engines[i]? = some e) : ∃ e', t.engines[i]? = some e' ∧ e.ReachesBy A B e' := by
  have hi : i < t.engines.length := Nat.lt_of_lt_of_le (List.getElem?_eq_some_iff.1 he).1 h.length
  refine ⟨t.engines[i], List.getElem?_eq_getElem hi, ?_⟩
  rcases h.engine i _ (List.getElem?_eq_getElem hi) with ⟨e₀, he₀, hreach⟩ | ⟨hnone, -⟩
  · rw [he] at he₀
    cases he₀
    exact hreach
  · rw [he] at hnone
    cases hnone

end EvolvesBy

variable {s : Scene K} {passing : List (Constraint K)}

/-! ## Requests of a solver -/

/-- An addition is asked of one engine, and the others are left alone. -/
theorem addLinear_evolves (s : Scene K) (i : EngineId) {c : Constraint K} (ha : A c) :
    EvolvesBy A B s (s.addLinear i c).2 := by
  unfold addLinear
  split
  · exact .refl s
  next e he => exact .set he (.add (.refl e) ha)

/-- A numbered constraint is removed as the one that is held under its number. -/
theorem Numbered.removeLinear_evolves (h : Numbered passing s) (i : EngineId) {c : Constraint K}
    (hc : c ∈ passing ++ s.linears) (hb : B c) : EvolvesBy A B s (s.removeLinear i c).2 := by
  unfold Scene.removeLinear
  split
  · exact .refl s
  next e he =>
    refine .set he (.remove (.refl e) hb ?_)
    intro held hheld
    have hmem : e ∈ s.engines := List.mem_of_getElem? he
    have hentry := OrderedMap.mem_entries_of_get? hheld
    have hid : held.constraint.id = c.id := (h.numbering.keyed e hmem).key _ hentry
    have hin : held.constraint ∈ e.solver.constraints :=
      List.mem_map_of_mem (List.mem_map_of_mem hentry)
    exact (h.numbering.held_known e hmem _ hin c hc hid.symm).symm

/-! ## Pins -/

/-- A part of a frame is added as its pin. -/
theorem pinPart_evolves (view : ViewId) (name : String) (engine : EngineId)
    (acc : List (Constraint K) × Scene K) (part : Quantity × K)
    (ha : ∀ id, A (pinConstraint id view part)) :
    EvolvesBy A B acc.2 (pinPart view name engine acc part).2 := by
  have h : EvolvesBy A B _ _ := addLinear_evolves acc.2.freshLinear.2 engine (ha acc.2.nextLinear)
  have numbered : EvolvesBy A B acc.2 acc.2.freshLinear.2 := .of_engines rfl
  unfold pinPart
  dsimp only [freshLinear] at h numbered ⊢
  split <;> rename_i hr <;> rw [hr] at h
  · exact numbered.trans h
  · exact numbered.trans (h.trans (.of_engines rfl))

/-- The parts of a frame are added as their pins, one after the other. -/
theorem foldl_pinPart_evolves (view : ViewId) (name : String) (engine : EngineId)
    (parts : List (Quantity × K)) (acc : List (Constraint K) × Scene K)
    (ha : ∀ id part, A (pinConstraint id view part)) :
    EvolvesBy A B acc.2 (parts.foldl (pinPart view name engine) acc).2 := by
  induction parts generalizing acc with
  | nil => exact .refl acc.2
  | cons part parts ih =>
    exact (pinPart_evolves view name engine acc part fun id => ha id part).trans (ih _)

/-- Holding a view adds pins to its engine, if there is the view. -/
theorem pin_evolves (s : Scene K) (view : ViewId)
    (ha : view < s.views.length → ∀ id part, A (pinConstraint id view part)) :
    EvolvesBy A B s (s.pin view) := by
  refine pin_induction (fun _ acc => EvolvesBy A B s acc.2) (fun _ => .refl s)
    (fun _ _ _ => .refl s) ?_ fun _ _ _ _ _ h => h.trans (.of_engines rfl)
  intro v hv acc part _ h
  have asked := ha (List.getElem?_eq_some_iff.1 hv).1
  exact h.trans (pinPart_evolves view v.name v.engine acc part fun id => asked id part)

/-- A pin that is carried along is removed as the constraint that the solver holds under its number,
if any. -/
theorem Numbered.unpinPart_evolves (h : Numbered passing s) (view : ViewId) (name : String)
    (engine : EngineId) {c : Constraint K} (hc : c ∈ passing) (hb : B c) :
    EvolvesBy A B s (Scene.unpinPart view name engine s c) := by
  have hr : EvolvesBy A B _ _ := h.removeLinear_evolves engine (List.mem_append_left s.linears hc) hb
  unfold Scene.unpinPart
  split <;> rename_i heq <;> rw [heq] at hr
  · exact hr
  · exact hr.trans (.of_engines rfl)

/-- Pins that are carried along are removed one after the other. -/
theorem Numbered.foldl_unpinPart_evolves (view : ViewId) (name : String) (engine : EngineId)
    (cs : List (Constraint K)) {s : Scene K} (h : Numbered passing s) (hsub : cs ⊆ passing)
    (hb : ∀ c ∈ cs, B c) : EvolvesBy A B s (cs.foldl (Scene.unpinPart view name engine) s) := by
  induction cs generalizing s with
  | nil => exact .refl s
  | cons c cs ih =>
    have first : EvolvesBy A B _ _ :=
      h.unpinPart_evolves view name engine (hsub (.head _)) (hb c (.head _))
    exact first.trans (ih (h.unpinPart view name engine c) (List.subset_of_cons_subset hsub)
      fun d hd => hb d (.tail _ hd))

/-- Releasing a view removes its pins on record. -/
theorem Numbered.unpin_evolves (h : Numbered [] s) (view : ViewId)
    (hb : ∀ v, s.views[view]? = some v → ∀ c ∈ v.pinned, B c) : EvolvesBy A B s (s.unpin view) := by
  refine unpin_induction (fun v cs t => cs ⊆ v.pinned ∧ Numbered v.pinned t ∧ EvolvesBy A B s t)
    (fun _ => .refl s) ?_ ?_ fun _ _ _ h => h.2.2.trans (.of_engines rfl)
  · intro v pins hv hpins
    have held : v.pinned = pins := by rw [View.pinned, hpins]; rfl
    exact ⟨held ▸ List.Subset.refl _, h.unrecord hv, .of_engines rfl⟩
  · rintro v hv c cs t ⟨sub, numbered, left⟩
    have hc := sub (.head _)
    refine ⟨List.subset_of_cons_subset sub, numbered.unpinPart view v.name v.engine c,
      left.trans ?_⟩
    exact numbered.unpinPart_evolves view v.name v.engine hc (hb v hv c hc)

/-! ## Activity -/

/-- A solver is asked to add or to remove the linear constraint of a constraint on record. -/
theorem Numbered.requestActivity_evolves (h : Numbered [] s) {r : AnchorConstraint K}
    (hr : r ∈ s.constraints) (active : Bool) (ha : A r.linear) (hb : B r.linear) :
    EvolvesBy A B s (s.requestActivity r active).2 := by
  cases active with
  | true => exact addLinear_evolves s r.engine ha
  | false =>
    exact h.removeLinear_evolves r.engine
      (List.mem_append_left (s.views.flatMap View.pinned) (List.mem_map_of_mem hr)) hb

/-- A request for activity asks for an addition or a removal at most. -/
theorem Numbered.trySetActive_evolves (h : Numbered [] s) (c : ConstraintId) (active : Bool)
    (hlinear : ∀ r ∈ s.constraints, A r.linear ∧ B r.linear) :
    EvolvesBy A B s (s.trySetActive c active).2 := by
  have requested {r : AnchorConstraint K} (hr : s.constraints[c]? = some r) :
      EvolvesBy A B s (s.requestActivity r active).2 :=
    have hmem := List.mem_of_getElem? hr
    h.requestActivity_evolves hmem active (hlinear r hmem).1 (hlinear r hmem).2
  have switching := trySetActive_switching s c active
  generalize s.trySetActive c active = a at switching ⊢
  cases switching with
  | idle _ => exact .refl s
  | refused r _ hr _ hreq =>
    have changed := requested hr
    rwa [hreq] at changed
  | switched r hr _ hreq =>
    have changed := requested hr
    rw [hreq] at changed
    exact changed.trans (.of_engines rfl)

/-- The report of a refusal asks nothing of an engine. -/
theorem Numbered.setActive_evolves (h : Numbered [] s) (c : ConstraintId) (active : Bool)
    (hlinear : ∀ r ∈ s.constraints, A r.linear ∧ B r.linear) :
    EvolvesBy A B s (s.setActive c active) := by
  have tried := h.trySetActive_evolves c active hlinear
  unfold Scene.setActive
  generalize s.trySetActive c active = a at tried ⊢
  obtain ⟨_ | _, t⟩ := a
  · exact tried.trans (.of_engines rfl)
  · exact tried

/-! ## Views and engines -/

/-- Reading a frame asks for a report. -/
theorem frame_evolves (s : Scene K) (view : ViewId) : EvolvesBy A B s (s.frame view).2 := by
  have read := frame_read s view
  generalize s.frame view = a at read ⊢
  cases read with
  | absent => exact .refl s
  | @learnt v e _ he => exact .set he (.refresh (.refl e))

/-- Holding a view adds its pins at most, and releasing it removes them at most. -/
theorem Numbered.setPinned_evolves (h : Numbered [] s) (view : ViewId) (enabled : Bool)
    (ha : enabled = true → view < s.views.length → ∀ id part, A (pinConstraint id view part))
    (hb : enabled = false → ∀ v, s.views[view]? = some v → ∀ c ∈ v.pinned, B c) :
    EvolvesBy A B s (s.setPinned view enabled) := by
  cases enabled with
  | true =>
    rw [Scene.setPinned, if_pos rfl]
    have framed : EvolvesBy A B (s.frame view).2
        ((s.frame view).2.modifyView view fun v => { v with frame := (s.frame view).1 }) :=
      .of_engines rfl
    have views : (s.frame view).2.views = s.views := by
      unfold Scene.frame
      split <;> rfl
    refine (frame_evolves s view).trans (framed.trans (pin_evolves _ view fun hview => ha rfl ?_))
    rwa [Scene.modifyView, List.length_modify, views] at hview
  | false => exact h.unpin_evolves view (hb rfl)

/-- A new view adds its pins to its engine. -/
theorem insertView_evolves (s : Scene K) (name : String) (engine : EngineId) (frame : Rect K)
    (insets : Insets K) (ha : ∀ id part, A (pinConstraint id s.views.length part)) :
    EvolvesBy A B s (s.insertView name engine frame insets).2 :=
  have inserted : EvolvesBy A B s { s with views := s.views ++ [{ name, engine, insets, frame }] } :=
    .of_engines rfl
  inserted.trans (pin_evolves _ _ fun _ => ha)

/-- A new engine is created, and none of the others is asked for anything. -/
theorem appendEngine_evolves (s : Scene K) (config : Config K) (root : ViewId) :
    EvolvesBy A B s { s with engines := s.engines ++ [Engine.create config root] } := by
  refine ⟨by simp, ?_⟩
  intro i e he
  rcases Nat.lt_or_ge i s.engines.length with hi | hi
  · dsimp only at he
    rw [List.getElem?_append_left hi] at he
    exact .inl ⟨e, he, .refl e⟩
  · refine .inr ⟨List.getElem?_eq_none hi, config, root, ?_⟩
    have hmem := List.mem_of_getElem? (List.getElem?_append_right hi ▸ he)
    rw [List.mem_singleton.1 hmem]
    exact .refl _

/-- A new engine is asked for the pins of its root view. -/
theorem addEngine_evolves (s : Scene K) (config : Config K)
    (ha : ∀ id part, A (pinConstraint id s.views.length part)) :
    EvolvesBy A B s (s.addEngine config).2 :=
  (appendEngine_evolves s config s.views.length).trans (insertView_evolves _ _ _ _ _ ha)

/-- Every request asks engines for additions, removals of what they hold and reports only. -/
theorem evolves_stable : Stable fun s t : Scene K =>
    (Numbered [] s → Numbered [] t) ∧ (Numbered [] s → Evolves s t) where
  refl s := ⟨id, fun _ => .refl s⟩
  trans h h' := ⟨h'.1 ∘ h.1, fun hs => (h.2 hs).trans (h'.2 (h.1 hs))⟩
  addEngine s config := ⟨numbered_stable.addEngine s config,
    fun _ => addEngine_evolves s config fun _ _ => trivial⟩
  addView s _ name frame he := ⟨numbered_stable.addView s _ name frame he,
    fun _ => insertView_evolves s name _ frame _ fun _ _ => trivial⟩
  relate s lhs relation rhs offset :=
    ⟨numbered_stable.relate s lhs relation rhs offset, fun _ => .of_engines rfl⟩
  relateNumber s lhs value := ⟨numbered_stable.relateNumber s lhs value, fun _ => .of_engines rfl⟩
  setActive s c active := ⟨numbered_stable.setActive s c active,
    fun h => h.setActive_evolves c active fun _ _ => ⟨trivial, trivial⟩⟩
  setPinned s view enabled := ⟨numbered_stable.setPinned s view enabled,
    fun h => h.setPinned_evolves view enabled (fun _ _ _ _ => trivial) fun _ _ _ _ _ => trivial⟩
  setInsets s view insets := ⟨numbered_stable.setInsets s view insets, fun _ => .of_engines rfl⟩
  frame s view := ⟨numbered_stable.frame s view, fun _ => frame_evolves s view⟩
  report s a := ⟨numbered_stable.report s a, fun _ => .of_engines rfl⟩

end Scene

/-! ## Engines of a session -/

namespace Session

open Scene

variable {K : Type} [Scalar K]

/-- A run keeps linear constraints apart by their numbers, and only asks engines for additions,
removals of what they hold and reports. -/
theorem run_evolves (steps : List (Step K)) {s : Session K} (h : Numbered [] s.scene) :
    Numbered [] (s.run steps).scene ∧ Evolves s.scene (s.run steps).scene := by
  have run := run_stable evolves_stable
    (fun _ c active => ⟨fun h => h.trySetActive c active,
      fun h => h.trySetActive_evolves c active fun _ _ => ⟨trivial, trivial⟩⟩)
    steps s
  exact ⟨run.1 h, run.2 h⟩

/-- A session starts from an empty scene with the engine it is made for. -/
theorem start_evolves (config : Config K) :
    Numbered [] (start config).scene ∧ Evolves empty (start config).scene := by
  have numbered : Numbered [] ((empty : Scene K).addEngine config).2 :=
    numbered_addEngine (numbered_start config _)
  exact ⟨numbered, addEngine_evolves empty config fun _ _ => trivial⟩

/-- Every engine of a session is reached from a new one. -/
theorem start_run_reaches (config : Config K) (steps : List (Step K)) {i : EngineId} {e : Engine K}
    (he : ((start config).run steps).scene.engines[i]? = some e) :
    ∃ config' root, (Engine.create config' root).Reaches e := by
  obtain ⟨numbered, started⟩ := start_evolves config
  have evolved := started.trans (run_evolves steps numbered).2
  rcases evolved.engine i e he with ⟨e', he', -⟩ | ⟨-, created⟩
  · cases he'
  · exact created

end Session

end ViewConstraints
