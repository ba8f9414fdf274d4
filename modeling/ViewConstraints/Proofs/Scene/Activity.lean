import Mathlib.Data.List.Chain
import ViewConstraints.Proofs.Scene.Releases

/-!
# The log tells the truth about activity

A constraint is marked as active or inactive by one operation, which reports the change first; every
other request either reports nothing of the kind or is about something else. `Truthful` says what
follows for the log as a whole: the changes it reports of one constraint alternate, from active on,
and the last of them is how the constraint is marked. Every request keeps this, refused or not
(`truthful_stable`).

A request for activity adds one report or none (`setActive_asked`), and a statement adds one report
of the relation after it (`stateAll_stated`).
-/

namespace ViewConstraints

open Layout Linear

namespace Scene

section

variable {K : Type}

/-- The change of activity that an event reports, with the constraint it is about. -/
def Event.change? : Event K → Option (ConstraintId × Bool)
  | .activated c _ => some (c, true)
  | .deactivated c _ => some (c, false)
  | _ => none

/-- The changes of activity reported in a scene, first to last. -/
def changes (s : Scene K) : List (ConstraintId × Bool) := s.log.filterMap Event.change?

/-- The changes reported of one constraint. -/
def changesOf (s : Scene K) (c : ConstraintId) : List Bool :=
  (s.changes.filter fun change => change.1 = c).map Prod.snd

/-- What the log says of activity is so. -/
structure Truthful (s : Scene K) : Prop where
  /-- The changes reported of a constraint alternate, and the first is that it became active. -/
  alternate : ∀ c, (false :: s.changesOf c).IsChain (· ≠ ·)
  /-- The last change reported of a constraint is how it is marked. -/
  last : ∀ c, (s.changesOf c).getLast?.getD false = s.isActive c
  /-- As many constraints are active as became active and did not become inactive. -/
  balance : s.changes.countP (fun change => change.2) =
    s.changes.countP (fun change => !change.2) + s.constraints.countP AnchorConstraint.active

theorem changes_emit (s : Scene K) (event : Event K) :
    (s.emit event).changes = s.changes ++ event.change?.toList := by
  rw [changes, changes, emit, List.filterMap_append]
  cases h : event.change? <;> simp [h]

/-- Marking a constraint adds one change, the one that is made. -/
theorem changes_switch (s : Scene K) (c : ConstraintId) (r : AnchorConstraint K) (active : Bool) :
    (s.switch c r active).changes = s.changes ++ [(c, active)] := by
  rw [switch, changes]
  cases active <;> exact changes_emit s _

/-- The changes of one constraint get longer when that constraint is marked. -/
theorem changesOf_switch (s : Scene K) (c : ConstraintId) (r : AnchorConstraint K) (active : Bool)
    (d : ConstraintId) : (s.switch c r active).changesOf d =
      if c = d then s.changesOf d ++ [active] else s.changesOf d := by
  rw [changesOf, changesOf, changes_switch, List.filter_append, List.map_append]
  split
  next hd => simp [hd]
  next hd => simp [hd]

/-- One mark more or less. -/
theorem countP_active_modify {l : List (AnchorConstraint K)} {c : ConstraintId}
    {r : AnchorConstraint K} (hr : l[c]? = some r) {active : Bool} (hactive : r.active = !active) :
    (l.modify c fun r => { r with active }).countP AnchorConstraint.active + (!active).toNat =
      l.countP AnchorConstraint.active + active.toNat := by
  obtain ⟨before, after, hl, hm⟩ := exists_modify_eq hr fun r => { r with active }
  rw [hm, hl]
  simp only [List.countP_append, List.countP_cons, hactive]
  cases active <;> simp <;> omega

/-- Scenes of which the logs say the same of activity, and in which it is the same. -/
theorem Truthful.of_eq {s t : Scene K} (h : Truthful s) (changes : t.changes = s.changes)
    (active : ∀ c, t.isActive c = s.isActive c)
    (count : t.constraints.countP AnchorConstraint.active =
      s.constraints.countP AnchorConstraint.active) : Truthful t where
  alternate c := by
    rw [changesOf, changes]
    exact h.alternate c
  last c := by
    rw [changesOf, changes, active]
    exact h.last c
  balance := by
    rw [changes, count]
    exact h.balance

/-- Whatever leaves the constraints alone and reports no change of activity leaves the log
truthful. -/
theorem Truthful.of_constraints {s t : Scene K} (h : Truthful s) (changes : t.changes = s.changes)
    (constraints : t.constraints = s.constraints) : Truthful t :=
  h.of_eq changes (fun c => by rw [Scene.isActive, Scene.isActive, constraints])
    (by rw [constraints])

/-- A chain stays one with one more entry that differs from the last. -/
theorem isChain_concat {b x : Bool} {l : List Bool} (h : (b :: l).IsChain (· ≠ ·))
    (hx : l.getLast?.getD b ≠ x) : (b :: (l ++ [x])).IsChain (· ≠ ·) := by
  rw [← List.cons_append, List.isChain_append]
  refine ⟨h, .singleton x, fun a ha y hy => ?_⟩
  rw [List.getLast?_cons, Option.mem_some_iff] at ha
  rw [List.head?_cons, Option.mem_some_iff] at hy
  exact ha ▸ hy ▸ hx

/-- A change of activity that is reported. -/
theorem Truthful.switch {s : Scene K} (h : Truthful s) {c : ConstraintId} {r : AnchorConstraint K}
    (hr : s.constraints[c]? = some r) {active : Bool} (hactive : r.active = !active) :
    Truthful (s.switch c r active) := by
  have hc := (List.getElem?_eq_some_iff.1 hr).1
  have before : s.isActive c = !active := by
    rw [Scene.isActive, hr]
    exact hactive
  refine ⟨fun d => ?_, fun d => ?_, ?_⟩
  · rw [changesOf_switch]
    split
    next hd =>
      refine isChain_concat (h.alternate d) ?_
      rw [h.last, ← hd, before]
      exact Bool.not_ne_self active
    next => exact h.alternate d
  · rw [changesOf_switch, isActive_switch hc]
    split
    next => rw [List.getLast?_concat, Option.getD_some]
    next => exact h.last d
  · have count := countP_active_modify hr hactive
    have balance := h.balance
    rw [changes_switch, List.countP_append, List.countP_append]
    have constraints : (s.switch c r active).constraints =
      s.constraints.modify c fun r => { r with active } := rfl
    rw [constraints]
    cases active <;> simp at count ⊢ <;> omega

/-- A constraint is made inactive. -/
theorem isActive_insertConstraint (s : Scene K) (engine : EngineId) (relationship : Relationship K)
    (linear : Constraint K) (c : ConstraintId) :
    (s.freshLinear.2.insertConstraint engine relationship linear).2.isActive c = s.isActive c := by
  rw [Scene.isActive, Scene.isActive, Scene.insertConstraint]
  dsimp only [freshLinear]
  rcases Nat.lt_trichotomy c s.constraints.length with hc | rfl | hc
  · rw [List.getElem?_append_left hc]
  · rw [List.getElem?_concat_length, List.getElem?_eq_none (Nat.le_refl _)]
    rfl
  · rw [List.getElem?_eq_none (by rw [List.length_append, List.length_singleton]; omega),
      List.getElem?_eq_none (by omega)]

/-- A constraint is made inactive, and no change of it has been reported. -/
theorem Truthful.insertConstraint {s : Scene K} (h : Truthful s) (engine : EngineId)
    (relationship : Relationship K) (linear : Constraint K) :
    Truthful (s.freshLinear.2.insertConstraint engine relationship linear).2 :=
  h.of_eq rfl (isActive_insertConstraint s engine relationship linear) <|
    List.countP_append.trans (Nat.add_zero _)

/-- A report of a refusal reports no change. -/
theorem change?_of_refusal (event : Event K) (h : event.cause?.isSome = true) :
    event.change? = none := by
  cases event with
  | activated | deactivated => cases h
  | applied | activationRefused | unpinned | pinRefused | unpinRefused => rfl

end

variable {K : Type} [Scalar K] {s : Scene K}

/-! ## Holding and releasing views -/

/-- Releasing a view changes the activity of no constraint, nor does it report that it did. -/
theorem unpin_changes (s : Scene K) (view : ViewId) : (s.unpin view).changes = s.changes := by
  cases hv : s.views[view]? with
  | none => rw [unpin, hv]
  | some v =>
    cases pinned : v.isPinned with
    | true => exact (unpin_filterMap change?_of_refusal hv pinned).trans (List.append_nil _)
    | false => rw [unpin_of_unpinned hv pinned]

/-- Nor does setting the flag of a view. -/
theorem setPinned_changes (s : Scene K) (view : ViewId) (enabled : Bool) :
    (s.setPinned view enabled).changes = s.changes := by
  cases enabled with
  | true => exact (setPinned_true_onlyRefused s view).filterMap change?_of_refusal
  | false => exact unpin_changes s view

/-! ## Requests for activity -/

/-- How a request for a constraint to be active or inactive is reported. -/
inductive Asked (s : Scene K) (c : ConstraintId) (r : AnchorConstraint K) (active : Bool) :
    Scene K → Prop where
  /-- Nothing is reported if the constraint is as it is asked to be. -/
  | idle : r.active = active → Asked s c r active s
  /-- The change is reported. -/
  | granted {t : Scene K} : r.active = !active → (s.trySetActive c active).1 = .ok () →
      t.constraints = s.constraints.modify c (fun r => { r with active }) →
      t.log = s.log ++
        [if active then .activated c r.relationship else .deactivated c r.relationship] →
      Asked s c r active t
  /-- The refusal is reported, and no constraint is changed. -/
  | refused {t : Scene K} (cause : EngineError.Cause) : r.active = !active →
      (s.trySetActive c active).1 = .error ⟨r.relationship, cause⟩ → t.constraints = s.constraints →
      t.log = s.log ++ [.activationRefused c ⟨r.relationship, cause⟩] → Asked s c r active t

/-- The solver is asked first, then the change is marked and reported, or else the refusal is: there
is one report for each request that is not idle. -/
theorem setActive_asked {c : ConstraintId} {r : AnchorConstraint K}
    (hr : s.constraints[c]? = some r) (active : Bool) : Asked s c r active (s.setActive c active) := by
  have switching := trySetActive_switching s c active
  unfold setActive
  generalize ha : s.trySetActive c active = a at switching ⊢
  cases switching with
  | idle same => exact .idle (same r hr)
  | @refused t r' cause hr' hactive hreq =>
    cases hr.symm.trans hr'
    have log := requestActivity_log s r active
    have records := requestActivity_records s r active
    rw [hreq] at log records
    exact .refused cause hactive (congrArg Prod.fst ha) records.constraints (congrArg (· ++ _) log)
  | @switched t r' hr' hactive hreq =>
    cases hr.symm.trans hr'
    have log := requestActivity_log s r active
    have records := requestActivity_records s r active
    rw [hreq] at log records
    refine .granted hactive (congrArg Prod.fst ha) ?_ (congrArg (· ++ _) log)
    exact congrArg (·.modify c fun r : AnchorConstraint K => { r with active }) records.constraints

/-- A request that returns its refusal keeps the log truthful: a constraint is marked only after its
solver agreed, and with the change reported. -/
theorem Truthful.trySetActive (h : Truthful s) (c : ConstraintId) (active : Bool) :
    Truthful (s.trySetActive c active).2 := by
  have switching := trySetActive_switching s c active
  have requested (r : AnchorConstraint K) : Truthful (s.requestActivity r active).2 :=
    h.of_constraints (by rw [changes, changes, requestActivity_log])
      (requestActivity_records s r active).constraints
  generalize s.trySetActive c active = a at switching ⊢
  cases switching with
  | idle _ => exact h
  | refused r _ _ _ hreq =>
    have asked := requested r
    rwa [hreq] at asked
  | switched r hr hactive hreq =>
    have asked := requested r
    have records := requestActivity_records s r active
    rw [hreq] at asked records
    exact asked.switch (records.constraints ▸ hr) hactive

/-- The request that logs its refusal adds a report that is no change of activity. -/
theorem Truthful.setActive (h : Truthful s) (c : ConstraintId) (active : Bool) :
    Truthful (s.setActive c active) := by
  have tried := h.trySetActive c active
  unfold Scene.setActive
  generalize s.trySetActive c active = a at tried ⊢
  obtain ⟨error | _, t⟩ := a
  · exact tried.of_constraints ((changes_emit t _).trans (List.append_nil _)) rfl
  · exact tried

/-- Every request keeps the log truthful about activity. -/
theorem truthful_stable : Stable fun s t : Scene K => Truthful s → Truthful t where
  refl _ := id
  trans h h' := h' ∘ h
  addEngine s config h := h.of_constraints
    ((insertView_onlyRefused _ _ _ _ _).filterMap change?_of_refusal)
    (addEngine_constraints s config)
  addView s _ name frame _ h := h.of_constraints
    ((insertView_onlyRefused s name _ frame _).filterMap change?_of_refusal)
    (insertView_constraints s name _ frame _)
  relate _ _ _ _ _ h := h.insertConstraint _ _ _
  relateNumber _ _ _ h := h.insertConstraint _ _ _
  setActive _ c active h := h.setActive c active
  setPinned s view enabled h :=
    h.of_constraints (setPinned_changes s view enabled) (setPinned_constraints s view enabled)
  setInsets _ _ _ h := h.of_constraints rfl rfl
  frame s view h := h.of_constraints (by rw [changes, changes, frame_log])
    (frame_records s view).constraints
  report s _ h := h.of_constraints ((changes_emit s _).trans (List.append_nil _)) rfl

/-! ## Statements -/

/-- The report of how the activation of a new constraint ended, which agrees with how the constraint
is marked. -/
inductive Ended (c : ConstraintId) (r : AnchorConstraint K) : Event K → Prop where
  | granted : r.active = true → Ended c r (.activated c r.relationship)
  | refused (cause : EngineError.Cause) : r.active = false →
      Ended c r (.activationRefused c ⟨r.relationship, cause⟩)

/-- The reports that statements leave, whose constraints are numbered from `c` on and are as they
are in `t`: for each statement how the activation of its constraint ended, and then the relation. -/
inductive Stated (t : Scene K) : ConstraintId → List (Relating K) → List (Event K) → Prop where
  | nil (c : ConstraintId) : Stated t c [] []
  | cons {c : ConstraintId} {r : AnchorConstraint K} {relating : Relating K}
      {rest : List (Relating K)} {outcome : Event K} {reports : List (Event K)} :
      t.constraints[c]? = some r → Ended c r outcome → Stated t (c + 1) rest reports →
      Stated t c (relating :: rest) (outcome :: .applied relating.report :: reports)

/-- A change is reported at one level and a refusal at another, each before the trace of its
relation. -/
theorem Stated.levels {t : Scene K} {c : ConstraintId} {relatings : List (Relating K)}
    {reports : List (Event K)} (h : Stated t c relatings reports) :
    reports.map Event.level = (List.range' c relatings.length).flatMap fun c =>
      [if t.isActive c then .debug else .warn, .trace] := by
  induction h with
  | nil c => rfl
  | @cons c r relating rest outcome reports hr ended _ ih =>
    have marked : t.isActive c = r.active := by rw [isActive, hr]; rfl
    rw [List.length_cons, List.range'_succ, List.flatMap_cons, ← ih, marked]
    cases ended with
    | granted active => rw [active]; rfl
    | refused cause inactive => rw [inactive]; rfl

theorem construct_log (s : Scene K) (lhs : Anchor) (relating : Relating K) :
    (s.construct lhs relating).2.log = s.log := by
  cases relating with
  | equalTo target => cases target <;> rfl
  | greaterThanOrEqualTo | lessThanOrEqualTo | explicit | equalConstant => rfl

/-- A constraint is made inactive and comes after the others. -/
theorem construct_made (s : Scene K) (lhs : Anchor) (relating : Relating K) :
    ∃ r : AnchorConstraint K, r.active = false ∧
      s.construct lhs relating = (s.constraints.length, (s.construct lhs relating).2) ∧
      (s.construct lhs relating).2.constraints = s.constraints ++ [r] := by
  cases relating with
  | equalTo target => cases target <;> exact ⟨_, rfl, rfl, rfl⟩
  | greaterThanOrEqualTo | lessThanOrEqualTo | explicit | equalConstant => exact ⟨_, rfl, rfl, rfl⟩

/-- A relation makes one constraint, and reports how its activation ended before itself. -/
theorem state_ended (s : Scene K) (lhs : Anchor) (relating : Relating K) :
    ∃ r outcome, (s.state lhs relating).2.constraints = s.constraints ++ [r] ∧
      Ended s.constraints.length r outcome ∧
      (s.state lhs relating).2.log = s.log ++ [outcome, .applied relating.report] := by
  obtain ⟨made, inactive, new, constraints⟩ := s.construct_made lhs relating
  have log := s.construct_log lhs relating
  rw [state, new]
  generalize (s.construct lhs relating).2 = t at constraints log
  have hmade : t.constraints[s.constraints.length]? = some made := by
    rw [constraints, List.getElem?_concat_length]
  have asked := setActive_asked hmade true
  dsimp only
  generalize t.setActive s.constraints.length true = u at asked
  have reported (outcome : Event K) (h : u.log = t.log ++ [outcome]) :
      (u.emit (.applied relating.report)).log =
        s.log ++ [outcome, .applied relating.report] := by
    rw [emit, h, log, List.append_assoc]
    rfl
  cases asked with
  | idle active => exact absurd (inactive.symm.trans active) Bool.false_ne_true
  | granted _ _ marked logged =>
    refine ⟨{ made with active := true }, _, marked.trans ?_, .granted rfl, reported _ logged⟩
    rw [constraints, List.modify_eq_set_getElem?, List.getElem?_concat_length]
    simp
  | refused cause _ _ unchanged logged =>
    exact ⟨made, _, unchanged.trans constraints, .refused cause inactive, reported _ logged⟩

/-- Statements are reported in order, by induction on them. -/
theorem stateAll_stated (view : ViewId) (statements : List (Statement K)) (s : Scene K) :
    ∃ made reports, (stateAll view s statements).2.constraints = s.constraints ++ made ∧
      Stated (stateAll view s statements).2 s.constraints.length
        (statements.map Statement.relating) reports ∧
      (stateAll view s statements).2.log = s.log ++ reports := by
  induction statements generalizing s with
  | nil => exact ⟨[], [], (List.append_nil _).symm, .nil _, (List.append_nil _).symm⟩
  | cons st rest ih =>
    obtain ⟨r, outcome, first, ended, reported⟩ :=
      s.state_ended (st.property.anchor view) st.relating
    obtain ⟨made, reports, constraints, stated, log⟩ :=
      ih (s.state (st.property.anchor view) st.relating).2
    rw [first, List.length_append, List.length_singleton] at stated
    rw [first, List.append_assoc] at constraints
    rw [reported, List.append_assoc] at log
    have hr : (stateAll view s (st :: rest)).2.constraints[s.constraints.length]? = some r := by
      refine (congrArg (·[s.constraints.length]?) constraints).trans ?_
      rw [List.getElem?_append_right (Nat.le_refl _), Nat.sub_self]
      rfl
    exact ⟨r :: made, _, constraints, .cons hr ended stated, log⟩

end Scene

end ViewConstraints
