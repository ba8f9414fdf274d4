import ViewConstraints.Proofs.Scene.Frames
import ViewConstraints.Proofs.Scene.Growth
import ViewConstraints.Proofs.Scene.InForce
import ViewConstraints.Proofs.Simplex.Soft

/-!
# Constraints of engines with a soft priority

A constraint is made with the priority of its engine, which never changes afterwards
(`Prioritised`). If that priority is not required, a solver never finds the constraint unsatisfiable,
so a request to activate it is granted unless the solver fails (`trySetActive_soft`). `Sturdy` joins
what is needed of a scene for that; as long as no failure of a solver is reported it is kept by every
request, and a soft constraint that is asked to be active is active from then on until it is asked
not to be (`Sturdy.state_active`, `Sturdy.setAllActive_active`).
-/

namespace ViewConstraints

open Layout Linear Simplex

namespace Scene

/-! ## Priorities -/

section

variable {K : Type} {s t : Scene K}

/-- Every constraint has the priority that its engine is set up with. -/
def Prioritised (s : Scene K) : Prop :=
  ∀ r ∈ s.constraints, ∃ e, s.engines[r.engine]? = some e ∧ r.linear.priority = e.config.priority

/-- The constraints of a scene that has made no other since. -/
theorem Prioritised.of_grows (h : Prioritised s) (grows : Grows s t)
    (hlength : t.constraints.length = s.constraints.length) : Prioritised t := by
  intro r hr
  obtain ⟨c, hc, hrc⟩ := List.getElem_of_mem hr
  obtain ⟨r', hr', hsame⟩ := grows.constraint (List.getElem?_eq_getElem (hlength ▸ hc))
  rw [List.getElem?_eq_getElem hc, Option.some.injEq, hrc] at hr'
  subst hr'
  obtain ⟨e, he, hpriority⟩ := h _ (List.getElem_mem (hlength ▸ hc))
  obtain ⟨e', he', hengine⟩ := grows.engine he
  have hconfig : e'.config = e.config := congrArg Prod.fst hengine
  simp only [AnchorConstraint.identity, Prod.mk.injEq] at hsame
  exact ⟨e', by rw [hsame.1, he'], by rw [hsame.2.2, hpriority, hconfig]⟩

/-- Priorities stand over whatever makes no constraint and reconfigures no engine. -/
theorem Prioritised.of_steady (h : Prioritised s) (steady : Steady s t) : Prioritised t :=
  h.of_grows steady.grows steady.length

/-- A constraint made for an anchor takes the priority of the anchor's engine. -/
theorem Prioritised.insertConstraint (h : Prioritised s) (numbered : Numbered [] s) (lhs : Anchor)
    (relationship : Relationship K) {linear : Constraint K}
    (hpriority : linear.priority = s.priorityOf (s.engineOf lhs)) :
    Prioritised (s.freshLinear.2.insertConstraint (s.engineOf lhs) relationship linear).2 := by
  intro r hr
  rcases List.mem_append.1 hr with hr | hr
  · exact h r hr
  · rw [List.mem_singleton.1 hr]
    have he := List.getElem?_eq_getElem (numbered.engineOf_lt lhs)
    refine ⟨_, he, ?_⟩
    rw [hpriority, priorityOf, he]
    rfl

/-- A constraint that is not required. -/
def IsSoft (s : Scene K) (c : ConstraintId) : Prop :=
  ∃ r, s.constraints[c]? = some r ∧ r.linear.priority ≠ .required

theorem IsSoft.lt {c : ConstraintId} (h : s.IsSoft c) : c < s.constraints.length := by
  obtain ⟨r, hr, -⟩ := h
  exact (List.getElem?_eq_some_iff.1 hr).1

/-- Whether a constraint is soft is settled when it is made. -/
theorem Grows.isSoft_iff (h : Grows s t) {c : ConstraintId} (hc : c < s.constraints.length) :
    t.IsSoft c ↔ s.IsSoft c := by
  have hr := List.getElem?_eq_getElem hc
  obtain ⟨r, hr', hsame⟩ := h.constraint hr
  simp only [AnchorConstraint.identity, Prod.mk.injEq] at hsame
  simp only [IsSoft, hr, hr', Option.some.injEq, exists_eq_left', hsame.2.2]

/-- An active constraint is flagged so. -/
theorem active_of_isActive {c : ConstraintId} {r : AnchorConstraint K} (hr : s.constraints[c]? = some r)
    (h : s.isActive c = true) : r.active = true := by
  rwa [Scene.isActive, hr] at h

/-- Whether a constraint is active is read off its record alone. -/
theorem SameRecords.isActive (h : SameRecords s t) (c : ConstraintId) :
    t.isActive c = s.isActive c := by
  rw [Scene.isActive, Scene.isActive, h.constraints]

/-- A change of activity changes it for one constraint. -/
theorem isActive_switch {c : ConstraintId} (hc : c < s.constraints.length) (r : AnchorConstraint K)
    (active : Bool) (d : ConstraintId) :
    (s.switch c r active).isActive d = if c = d then active else s.isActive d := by
  rw [Scene.isActive, Scene.isActive, switch]
  dsimp only [emit]
  rw [List.getElem?_modify]
  split
  next hd => rw [← hd, List.getElem?_eq_getElem hc]; rfl
  next => rw [Option.map_eq_map, Option.map_id_fun', id]

end

section

variable {K : Type} [Scalar K] {s t : Scene K}

/-- A new view brings pins, which are not on the list of constraints. -/
theorem insertView_constraints (s : Scene K) (name : String) (engine : EngineId) (frame : Rect K)
    (insets : Insets K) : (s.insertView name engine frame insets).2.constraints = s.constraints :=
  (pin_pins _ _).1

/-- Adding a view changes what the solver of its engine holds, but the configuration and the root of
no engine. -/
theorem insertView_engines (s : Scene K) (name : String) (engine : EngineId) (frame : Rect K)
    (insets : Insets K) : (s.insertView name engine frame insets).2.engines.map Engine.identity =
      s.engines.map Engine.identity :=
  (pin_steady _ _).engines

/-- A new view is put at the end of the list, and pinning it adds no other. -/
theorem insertView_views_length (s : Scene K) (name : String) (engine : EngineId) (frame : Rect K)
    (insets : Insets K) : (s.insertView name engine frame insets).2.views.length = s.views.length + 1 :=
  (pin_pins _ _).2.1.trans List.length_append

/-- A new engine comes with a root view and with no constraint. -/
theorem addEngine_constraints (s : Scene K) (config : Config K) :
    (s.addEngine config).2.constraints = s.constraints :=
  insertView_constraints _ _ _ _ _

/-- Pins are made and released without a word to the list of constraints. -/
theorem setPinned_constraints (s : Scene K) (view : ViewId) (enabled : Bool) :
    (s.setPinned view enabled).constraints = s.constraints := by
  cases enabled with
  | true =>
    rw [setPinned, if_pos rfl]
    exact (pin_pins _ view).1.trans (frame_records s view).constraints
  | false => exact (unpin_records s view).constraints

/-- Every request makes constraints with the priority of their engines, if any, and no request changes
the configuration of an engine. -/
theorem prioritised_stable : Stable fun s t : Scene K => (Numbered [] s → Numbered [] t) ∧
    Grows s t ∧ (Numbered [] s → Prioritised s → Prioritised t) where
  refl s := ⟨id, grows_stable.refl s, fun _ => id⟩
  trans h h' := ⟨h'.1 ∘ h.1, h.2.1.trans h'.2.1, fun hs ps => h'.2.2 (h.1 hs) (h.2.2 hs ps)⟩
  addEngine s config := ⟨numbered_stable.addEngine s config, grows_stable.addEngine s config,
    fun _ h => h.of_grows (grows_stable.addEngine s config) (by rw [addEngine_constraints])⟩
  addView s _ name frame he := ⟨numbered_stable.addView s _ name frame he,
    insertView_grows s name _ frame _,
    fun _ h => h.of_grows (insertView_grows s name _ frame _)
      (congrArg List.length (insertView_constraints s name _ frame _))⟩
  relate s lhs relation rhs offset := ⟨numbered_stable.relate s lhs relation rhs offset,
    grows_stable.relate s lhs relation rhs offset, fun hs h => h.insertConstraint hs lhs _ rfl⟩
  relateNumber s lhs value := ⟨numbered_stable.relateNumber s lhs value,
    grows_stable.relateNumber s lhs value, fun hs h => h.insertConstraint hs lhs _ rfl⟩
  setActive s c active := ⟨numbered_stable.setActive s c active,
    grows_stable.setActive s c active, fun _ h => h.of_steady (setActive_steady s c active)⟩
  setPinned s view enabled := ⟨numbered_stable.setPinned s view enabled,
    grows_stable.setPinned s view enabled, fun _ h => h.of_steady (setPinned_steady s view enabled)⟩
  setInsets s view insets := ⟨numbered_stable.setInsets s view insets,
    grows_stable.setInsets s view insets, fun _ h => h.of_steady (steady_modifyView s view fun _ => rfl)⟩
  frame s view := ⟨numbered_stable.frame s view, grows_stable.frame s view,
    fun _ h => h.of_steady (frame_steady s view)⟩
  report s a := ⟨numbered_stable.report s a, grows_stable.report s a, fun _ h => h⟩

/-! ## Requests for activity -/

/-- Asking for other constraints to be active makes none inactive, whether they are granted
or refused. -/
theorem setActive_isActive {c : ConstraintId} (h : s.isActive c = true) (d : ConstraintId) :
    (s.setActive d true).isActive c = true := by
  have tried : (s.trySetActive d true).2.isActive c = true := by
    have switching := trySetActive_switching s d true
    generalize s.trySetActive d true = a at switching ⊢
    cases switching with
    | idle _ => exact h
    | refused r _ _ _ hreq =>
      have records := requestActivity_records s r true
      rw [hreq] at records
      exact (records.isActive c).trans h
    | switched r hr _ hreq =>
      have records := requestActivity_records s r true
      rw [hreq] at records
      have hd := (List.getElem?_eq_some_iff.1 hr).1
      rw [isActive_switch (congrArg List.length records.constraints ▸ hd), records.isActive, h,
        ite_self]
  unfold setActive
  generalize s.trySetActive d true = a at tried ⊢
  obtain ⟨_ | _, t⟩ := a <;> exact tried

/-- A request for several constraints to be active leaves those active that were so, whether they are
among the several or not. -/
theorem setAllActive_isActive {c : ConstraintId} (cs : List ConstraintId) {s : Scene K}
    (h : s.isActive c = true) : (s.setAllActive cs true).isActive c = true := by
  induction cs generalizing s with
  | nil => exact h
  | cons d cs ih => exact ih (setActive_isActive h d)

/-- Making a constraint changes the activity of none that is there. -/
theorem state_isActive {c : ConstraintId} (h : s.isActive c = true) (lhs : Anchor)
    (relating : Relating K) : (s.state lhs relating).2.isActive c = true := by
  have made : (s.construct lhs relating).2.isActive c = true := by
    have inserted (engine : EngineId) (relationship : Relationship K) (linear : Constraint K) :
        (s.freshLinear.2.insertConstraint engine relationship linear).2.isActive c = true := by
      rw [isActive] at h ⊢
      cases hr : s.constraints[c]? with
      | none => rw [hr] at h; cases h
      | some r =>
        rw [hr] at h
        rw [insertConstraint]
        dsimp only [freshLinear]
        rwa [List.getElem?_append_left (List.getElem?_eq_some_iff.1 hr).1, hr]
    cases relating with
    | equalTo target => cases target <;> exact inserted ..
    | greaterThanOrEqualTo | lessThanOrEqualTo | explicit | equalConstant => exact inserted ..
  exact setActive_isActive made _

/-- Stating further relations deactivates nothing. -/
theorem stateAll_isActive {c : ConstraintId} (view : ViewId) (statements : List (Statement K))
    {s : Scene K} (h : s.isActive c = true) : (stateAll view s statements).2.isActive c = true := by
  induction statements generalizing s with
  | nil => exact h
  | cons st rest ih => exact ih (state_isActive h _ _)

/-- A constraint is made at the end of the list. -/
theorem construct_length (s : Scene K) (lhs : Anchor) (relating : Relating K) :
    (s.construct lhs relating).1 = s.constraints.length ∧
      (s.construct lhs relating).2.constraints.length = s.constraints.length + 1 := by
  have inserted (engine : EngineId) (relationship : Relationship K) (linear : Constraint K) :
      (s.freshLinear.2.insertConstraint engine relationship linear).2.constraints.length =
        s.constraints.length + 1 :=
    List.length_append
  cases relating with
  | equalTo target => cases target <;> exact ⟨rfl, inserted ..⟩
  | greaterThanOrEqualTo | lessThanOrEqualTo | explicit | equalConstant => exact ⟨rfl, inserted ..⟩

theorem state_length (s : Scene K) (lhs : Anchor) (relating : Relating K) :
    (s.state lhs relating).2.constraints.length = s.constraints.length + 1 :=
  (setActive_steady _ _ _).length.trans (construct_length s lhs relating).2

theorem stateAll_length (view : ViewId) (statements : List (Statement K)) (s : Scene K) :
    (stateAll view s statements).2.constraints.length =
      s.constraints.length + statements.length := by
  induction statements generalizing s with
  | nil => rfl
  | cons st rest ih =>
    refine (ih _).trans ?_
    rw [state_length, List.length_cons]
    omega

/-- A request that is granted leaves the constraint as it was asked to be. -/
theorem isActive_of_granted {c : ConstraintId} {active : Bool} (hc : c < s.constraints.length)
    (h : (s.trySetActive c active).1 = .ok ()) : (s.trySetActive c active).2.isActive c = active := by
  have switching := trySetActive_switching s c active
  generalize s.trySetActive c active = a at switching h ⊢
  cases switching with
  | idle hidle =>
    rw [isActive, List.getElem?_eq_getElem hc, Option.map_some, Option.getD_some]
    exact hidle _ (List.getElem?_eq_getElem hc)
  | refused => cases h
  | switched r _ _ hreq =>
    have records := requestActivity_records s r active
    rw [hreq] at records
    rw [isActive_switch (congrArg List.length records.constraints ▸ hc), if_pos rfl]

variable [UnitScalar K]

/-- No sound solver refuses a constraint that is not required: it comes with an error that takes up
whatever it cannot meet. -/
theorem addLinear_soft (sound : ∀ e ∈ s.engines, e.solver.Sound) (i : EngineId) {c : Constraint K}
    (soft : c.priority ≠ .required) : (s.addLinear i c).1 ≠ .error .unsatisfiable := by
  unfold addLinear
  split
  · exact nofun
  next e he =>
    have granted := Solver.addConstraint_soft (sound e (List.mem_of_getElem? he)) soft
    unfold Engine.add Engine.answer
    generalize e.solver.addConstraint c = a at granted ⊢
    obtain ⟨refusal | _, solver⟩ := a
    · cases refusal with
      | unsatisfiable => exact absurd rfl granted
      | duplicate | unknown | internal => exact nofun
    · exact nofun

/-- A soft constraint is never found unsatisfiable. -/
theorem trySetActive_soft (sound : ∀ e ∈ s.engines, e.solver.Sound) {c : ConstraintId}
    (soft : s.IsSoft c) : ∀ error, (s.trySetActive c true).1 = .error error →
      error.cause ≠ .unsatisfiable := by
  obtain ⟨r, hr, hsoft⟩ := soft
  have switching := trySetActive_switching s c true
  generalize s.trySetActive c true = a at switching ⊢
  intro error herror
  cases switching with
  | idle => cases herror
  | refused r' cause hr' _ hreq =>
    rw [hr] at hr'
    cases hr'
    cases herror
    have granted := addLinear_soft sound r.engine hsoft
    rintro rfl
    exact granted (congrArg Prod.fst hreq)
  | switched => cases herror

/-- Nothing stands in the way of a soft constraint: the stores of the scene are in step, its solvers
are sound, and its constraints have the priorities of their engines. -/
structure Sturdy (s : Scene K) : Prop where
  accounted : Accounted 0 [] s
  faithful : ∀ e ∈ s.engines, e.Faithful
  prioritised : Prioritised s

/-- Engines stay faithful over what happens to them, and those that are created on the way are
faithful from the start. -/
theorem EvolvesBy.faithful {A B : Constraint K → Prop} (h : EvolvesBy A B s t) (hs : ∀ e ∈ s.engines, e.Faithful) :
    ∀ e ∈ t.engines, e.Faithful := by
  intro e he
  obtain ⟨i, hi, rfl⟩ := List.getElem_of_mem he
  rcases h.engine i _ (List.getElem?_eq_getElem hi) with ⟨e₀, he₀, hreach⟩ | ⟨-, config, root, hreach⟩
  · exact (hs e₀ (List.mem_of_getElem? he₀)).reaches hreach
  · exact (Engine.create_faithful config root).reaches hreach

/-- Every request keeps a scene sturdy, unless it reports a failure of a solver. -/
theorem sturdy_stable : Stable fun s t : Scene K => Grows s t ∧ s.log <+: t.log ∧
    (t.Clean → Sturdy s → Sturdy t) := by
  refine ((accounted_stable.and evolves_stable).and prioritised_stable).imp ?_ ?_
  · rintro s t ⟨⟨⟨log, accounted⟩, -, evolves⟩, -, grows, prioritised⟩
    refine ⟨grows, log, fun clean h => ?_⟩
    have numbered := h.accounted.numbered
    exact ⟨accounted clean h.accounted, (evolves numbered).faithful h.faithful,
      prioritised numbered h.prioritised⟩
  · rintro s t u ⟨grows, log, sturdy⟩ ⟨grows', log', sturdy'⟩
    exact ⟨grows.trans grows', log.trans log',
      fun clean h => sturdy' clean (sturdy (clean.of_prefix log') h)⟩

namespace Sturdy

/-- A soft constraint that is asked to be active is, unless the solver fails. -/
theorem trySetActive_active (h : Sturdy s) {c : ConstraintId} (soft : s.IsSoft c)
    (internal : ∀ error, (s.trySetActive c true).1 = .error error →
      error.cause.isInternal = false) : (s.trySetActive c true).2.isActive c = true := by
  have refused := (h.accounted.trySetActive c true internal).2
  have satisfiable := trySetActive_soft (fun e he => (h.faithful e he).sound) soft
  refine isActive_of_granted soft.lt ?_
  cases ha : (s.trySetActive c true).1 with
  | ok => rfl
  | error error => exact absurd (refused error ha) (satisfiable error ha)

/-- The same of a request that logs its failure instead of returning it: a log that is clean
afterwards shows that no solver failed. -/
theorem setActive_active (h : Sturdy s) {c : ConstraintId} (soft : s.IsSoft c)
    (clean : (s.setActive c true).Clean) : (s.setActive c true).isActive c = true := by
  have tried := h.trySetActive_active soft
  unfold setActive at clean ⊢
  generalize s.trySetActive c true = a at tried clean ⊢
  obtain ⟨error | _, t⟩ := a
  · refine tried ?_
    intro e he
    cases he
    exact clean error.cause (by rw [causes_emit]; exact List.mem_append_right _ (.head _))
  · exact tried fun e he => by cases he

/-- A constraint that is made as written is active if it is soft. -/
theorem state_active (h : Sturdy s) (lhs : Anchor) (relating : Relating K)
    (clean : (s.state lhs relating).2.Clean)
    (soft : (s.state lhs relating).2.IsSoft s.constraints.length) :
    (s.state lhs relating).2.isActive s.constraints.length = true := by
  have made := sturdy_stable.construct s lhs relating
  obtain ⟨number, length⟩ := construct_length s lhs relating
  have cleanActivated : ((s.construct lhs relating).2.setActive s.constraints.length true).Clean := by
    refine clean.of_prefix ?_
    rw [state, number]
    exact List.prefix_append _ _
  have cleanMade := cleanActivated.of_prefix (setActive_log _ _ _)
  rw [state, number] at soft ⊢
  have exists_made : s.constraints.length < (s.construct lhs relating).2.constraints.length := by
    omega
  exact (made.2.2 cleanMade h).setActive_active
    (((setActive_steady _ _ _).grows.isSoft_iff exists_made).1 soft) cleanActivated

/-- Every soft constraint that a block makes is active when the block is done. The induction is on the
statements; no later statement makes a constraint inactive. -/
theorem stateAll_active (view : ViewId) (statements : List (Statement K)) {s : Scene K}
    (h : Sturdy s) (clean : (stateAll view s statements).2.Clean) {c : ConstraintId}
    (new : s.constraints.length ≤ c) (soft : (stateAll view s statements).2.IsSoft c) :
    (stateAll view s statements).2.isActive c = true := by
  induction statements generalizing s with
  | nil => exact absurd soft.lt (Nat.not_lt.2 new)
  | cons st rest ih =>
    have first := sturdy_stable.state s (st.property.anchor view) st.relating
    have others := sturdy_stable.stateAll view rest (s.state (st.property.anchor view) st.relating).2
    have length := state_length s (st.property.anchor view) st.relating
    have cleanFirst : (s.state (st.property.anchor view) st.relating).2.Clean :=
      clean.of_prefix others.2.1
    rcases Nat.eq_or_lt_of_le new with rfl | later
    · have exists_first : s.constraints.length <
          (s.state (st.property.anchor view) st.relating).2.constraints.length := by omega
      exact stateAll_isActive view rest
        (h.state_active _ _ cleanFirst ((others.1.isSoft_iff exists_first).1 soft))
    · exact ih (first.2.2 cleanFirst h) clean (by omega) soft

/-- Every soft constraint of a list is active when the list has been asked to be. -/
theorem setAllActive_active (cs : List ConstraintId) {s : Scene K} (h : Sturdy s)
    (clean : (s.setAllActive cs true).Clean) {c : ConstraintId} (hc : c ∈ cs) (soft : s.IsSoft c) :
    (s.setAllActive cs true).isActive c = true := by
  induction cs generalizing s with
  | nil => cases hc
  | cons d cs ih =>
    have first := sturdy_stable.setActive s d true
    have cleanFirst : (s.setActive d true).Clean :=
      clean.of_prefix (logged_stable.setAllActive true cs (s.setActive d true))
    have active {c : ConstraintId} (hactive : (s.setActive d true).isActive c = true) :
        (s.setAllActive (d :: cs) true).isActive c = true :=
      setAllActive_isActive cs hactive
    rcases List.mem_cons.1 hc with rfl | hc
    · exact active (h.setActive_active soft cleanFirst)
    · exact ih (first.2.2 cleanFirst h) clean hc ((first.1.isSoft_iff soft.lt).2 soft)

end Sturdy

end

end Scene

end ViewConstraints
