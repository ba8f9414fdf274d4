import ViewConstraints.Proofs.Linear.Meaning
import ViewConstraints.Proofs.Scene.Numbering

/-!
# What a scene was asked for

A `Ledger` keeps what the makers of constraints and views asked for, in their own terms: for each
constraint the anchors it relates with the insets their views had at that moment, and for each view
the frame it was last held at. `Asks` says of a request which constraints it makes, each in the linear
form of what it asks for. `Describes` says that a scene follows its ledger: the linear form of
every constraint means what was asked for, and every pin on record holds its view at the frame in the
ledger. Each request of a scene is shown to keep this with the entries it adds to the ledger.
-/

namespace ViewConstraints

open Linear Layout

section

variable {K : Type}

/-- What a constraint asks for, by its anchors and the insets of their views when it was made. -/
inductive Demand (K : Type) where
  /-- One anchor stands in a relation to another at a distance. -/
  | between (lhs : Anchor) (lhsInsets : Insets K) (relation : Relation) (rhs : Anchor)
      (rhsInsets : Insets K) (offset : K)
  /-- An anchor has a fixed value. -/
  | fixed (lhs : Anchor) (insets : Insets K) (value : K)

/-- Whether the rectangles of the views are as a constraint asks. -/
def Demand.Holds (x : Variable → Rat) : Demand Rat → Prop
  | .between lhs lhsInsets relation rhs rhsInsets offset =>
    relation.Relates (lhs.reads lhsInsets (rectOf x lhs.view))
      (rhs.reads rhsInsets (rectOf x rhs.view) + offset)
  | .fixed lhs insets value => lhs.reads insets (rectOf x lhs.view) = value

/-- The number a frame gives an unknown of its view. -/
def Rect.component (r : Rect K) : Quantity → K
  | .left => r.x
  | .top => r.y
  | .width => r.width
  | .height => r.height

/-- The unknowns that the pins on record for a view are about. -/
def View.accepted (v : View K) : List Quantity :=
  v.pinned.flatMap fun c => c.expression.terms.map fun t => t.unknown.quantity

/-- What was asked for so far. -/
structure Ledger (K : Type) where
  /-- What each constraint asks for. -/
  demands : List (Demand K) := []
  /-- The frame each view was last held at. -/
  frames : List (Rect K) := []

namespace Ledger

/-- Enters constraints. -/
def ask (l : Ledger K) (demands : List (Demand K)) : Ledger K :=
  { l with demands := l.demands ++ demands }

/-- Enters a new view. -/
def place (l : Ledger K) (frame : Rect K) : Ledger K := { l with frames := l.frames ++ [frame] }

/-- Enters the frame a view is held at again. -/
def hold (l : Ledger K) (view : ViewId) (frame : Rect K) : Ledger K :=
  { l with frames := l.frames.set view frame }

end Ledger

namespace Scene

/-- The pins on record for a view. -/
def pinsOf (s : Scene K) (view : ViewId) : List (Constraint K) :=
  (s.views[view]?.map View.pinned).getD []

/-- Two scenes with the same views and linear constraints, the second with no pin more on record. -/
structure Retains (s t : Scene K) : Prop where
  linears : t.constraints.map AnchorConstraint.linear = s.constraints.map AnchorConstraint.linear
  views : t.views.length = s.views.length
  pins : ∀ view, t.pinsOf view ⊆ s.pinsOf view

end Scene

end

variable {K : Type} [Scalar K]

/-- What a constraint between two anchors asks for at the present insets. -/
def Scene.demandBetween (s : Scene K) (lhs : Anchor) (relation : Relation) (rhs : Anchor)
    (offset : K) : Demand K :=
  .between lhs (s.insets lhs.view) relation rhs (s.insets rhs.view) offset

/-- What a constraint that fixes an anchor asks for at the present insets. -/
def Scene.demandFixed (s : Scene K) (lhs : Anchor) (value : K) : Demand K :=
  .fixed lhs (s.insets lhs.view) value

/-- What a relation written about an anchor asks for at the present insets. -/
def Scene.demand (s : Scene K) (lhs : Anchor) : Relating K → Demand K
  | .equalTo (.place p) => s.demandBetween lhs .equal p.anchor p.offset
  | .equalTo (.number value) => s.demandFixed lhs value
  | .greaterThanOrEqualTo p => s.demandBetween lhs .greaterOrEqual p.anchor p.offset
  | .lessThanOrEqualTo p => s.demandBetween lhs .lessOrEqual p.anchor p.offset
  | .explicit relation anchor offset => s.demandBetween lhs relation anchor offset
  | .equalConstant value => s.demandFixed lhs value

/-- What a relation asks for depends on the insets of views only. -/
theorem Scene.demand_congr {s t : Scene K} (h : ∀ view, t.insets view = s.insets view) (lhs : Anchor)
    (relating : Relating K) : t.demand lhs relating = s.demand lhs relating := by
  have between (relation : Relation) (rhs : Anchor) (offset : K) :
      t.demandBetween lhs relation rhs offset = s.demandBetween lhs relation rhs offset := by
    rw [demandBetween, demandBetween, h, h]
  have fixed (value : K) : t.demandFixed lhs value = s.demandFixed lhs value := by
    rw [demandFixed, demandFixed, h]
  cases relating with
  | equalTo target =>
    cases target with
    | place p => exact between ..
    | number value => exact fixed value
  | greaterThanOrEqualTo p => exact between ..
  | lessThanOrEqualTo p => exact between ..
  | explicit relation anchor offset => exact between ..
  | equalConstant value => exact fixed value

/-- The linear form of what a constraint asks for. -/
def Demand.linear (id : Nat) (priority : Priority) : Demand K → Constraint K
  | .between lhs lhsInsets relation rhs rhsInsets offset =>
    .relating id (lhs.expression lhsInsets) relation ((rhs.expression rhsInsets).addConstant offset)
      priority
  | .fixed lhs insets value => .equalling id (lhs.expression insets) value priority

/-- Over exact fractions the linear form means what is asked for. -/
theorem Demand.linear_holds (d : Demand Rat) (id : Nat) (priority : Priority) (x : Variable → Rat) :
    (d.linear id priority).Holds x ↔ d.Holds x := by
  cases d with
  | between lhs lhsInsets relation rhs rhsInsets offset =>
    rw [linear, Constraint.relating_holds, Anchor.expression_eval, Expression.eval_addConstant,
      Anchor.expression_eval]
    exact .rfl
  | fixed lhs insets value =>
    rw [linear, Constraint.equalling_holds, Anchor.expression_eval]
    exact .rfl

/-- A linear constraint has the form of a demand, whatever its number and its priority. -/
def Demand.Forms (d : Demand K) (c : Constraint K) : Prop := c = d.linear c.id c.priority

/-- A scene that follows a ledger. -/
structure Describes (l : Ledger Rat) (s : Scene Rat) : Prop where
  demands : List.Forall₂ (fun c d => ∀ x, c.Holds x ↔ Demand.Holds x d)
    (s.constraints.map AnchorConstraint.linear) l.demands
  frames : s.views.length = l.frames.length
  pins : ∀ view frame, l.frames[view]? = some frame → ∀ c ∈ s.pinsOf view,
    ∃ id, ∃ part ∈ Scene.frameParts frame, c = Scene.pinConstraint id view part

namespace Scene

/-! ## Requests that ask for nothing new -/

section

variable {K : Type} {s t u : Scene K}

theorem Retains.refl (s : Scene K) : Retains s s := ⟨rfl, rfl, fun _ => List.Subset.refl _⟩

theorem Retains.trans (h : Retains s t) (h' : Retains t u) : Retains s u :=
  ⟨h'.linears.trans h.linears, h'.views.trans h.views, fun view => List.Subset.trans (h'.pins view) (h.pins view)⟩

/-- Scenes with the same records have the same constraints and pins. -/
theorem SameRecords.retains (h : SameRecords s t) : Retains s t :=
  ⟨by rw [h.constraints], by rw [h.views], fun view => by rw [pinsOf, pinsOf, h.views]; exact .refl _⟩

/-- A change of a view that puts no pin on record. -/
theorem retains_modifyView (s : Scene K) (view : ViewId) {f : View K → View K}
    (hf : ∀ v, (f v).pinned ⊆ v.pinned) : Retains s (s.modifyView view f) := by
  refine ⟨rfl, List.length_modify .., ?_⟩
  intro w
  rw [pinsOf, pinsOf, modifyView, List.getElem?_modify]
  cases s.views[w]? with
  | none => exact .refl _
  | some v =>
    simp only [Option.map_some, Option.map_eq_map, Option.getD_some]
    split
    · exact hf v
    · exact .refl _

/-- A pin on record belongs to a view that exists. -/
theorem exists_view_of_mem_pinsOf {s : Scene K} {view : ViewId} {c : Constraint K}
    (hc : c ∈ s.pinsOf view) : ∃ v, s.views[view]? = some v ∧ c ∈ v.pinned := by
  rw [pinsOf] at hc
  cases hv : s.views[view]? with
  | none =>
    rw [hv] at hc
    cases hc
  | some v =>
    rw [hv] at hc
    exact ⟨v, rfl, hc⟩

/-- Only views that exist have pins. -/
theorem lt_of_mem_pinsOf {s : Scene K} {view : ViewId} {c : Constraint K} (hc : c ∈ s.pinsOf view) :
    view < s.views.length :=
  have ⟨_, hv, _⟩ := exists_view_of_mem_pinsOf hc
  (List.getElem?_eq_some_iff.1 hv).1

/-- A pin on record is one of the linear constraints on record. -/
theorem mem_linears_of_pinsOf {s : Scene K} {view : ViewId} {c : Constraint K}
    (hc : c ∈ s.pinsOf view) : c ∈ s.linears :=
  have ⟨v, hv, hpinned⟩ := exists_view_of_mem_pinsOf hc
  List.mem_append_right _ (List.mem_flatMap.2 ⟨v, List.mem_of_getElem? hv, hpinned⟩)

/-- A new view brings no pins along. -/
theorem pinsOf_append (s : Scene K) {v : View K} (hv : v.pins = none) (view : ViewId) :
    ({ s with views := s.views ++ [v] } : Scene K).pinsOf view ⊆ s.pinsOf view := by
  intro c hc
  obtain ⟨u, hu, hpinned⟩ := exists_view_of_mem_pinsOf hc
  dsimp only at hu
  rcases Nat.lt_or_ge view s.views.length with old | new
  · rw [List.getElem?_append_left old] at hu
    rw [pinsOf, hu]
    exact hpinned
  · rw [List.getElem?_append_right new] at hu
    rw [List.mem_singleton.1 (List.mem_of_getElem? hu), View.pinned, hv] at hpinned
    cases hpinned

/-- The flag of a constraint is no part of what it asks for. -/
theorem retains_switch (s : Scene K) (c : ConstraintId) (r : AnchorConstraint K) (active : Bool) :
    Retains s (s.switch c r active) :=
  ⟨map_modify_of_eq (f := fun r : AnchorConstraint K => { r with active }) (fun _ => rfl) _ _, rfl,
    fun _ => .refl _⟩

end

section

variable {K : Type} [Scalar K]

theorem insets_of_views {s t : Scene K} (h : t.views = s.views) (view : ViewId) :
    t.insets view = s.insets view := by
  rw [insets, insets, h]

/-- A change of a view that is none of its insets. -/
theorem insets_modifyView (s : Scene K) (view : ViewId) {f : View K → View K}
    (hf : ∀ v, (f v).insets = v.insets) (w : ViewId) :
    (s.modifyView view f).insets w = s.insets w := by
  rw [Scene.insets, Scene.insets, modifyView, List.getElem?_modify]
  cases s.views[w]? with
  | none => rfl
  | some v =>
    simp only [Option.map_some, Option.map_eq_map]
    split
    · exact hf v
    · rfl

/-- A request for activity switches at most a flag, so the constraints stay as they were made. -/
theorem trySetActive_retains (s : Scene K) (c : ConstraintId) (active : Bool) :
    Retains s (s.trySetActive c active).2 := by
  have switching := trySetActive_switching s c active
  generalize s.trySetActive c active = a at switching ⊢
  cases switching with
  | idle _ => exact .refl s
  | refused r _ _ _ hreq =>
    have records := requestActivity_records s r active
    rw [hreq] at records
    exact records.retains
  | switched r _ _ hreq =>
    have records := requestActivity_records s r active
    rw [hreq] at records
    exact records.retains.trans (retains_switch _ c r active)

/-- A request for activity changes no view. -/
theorem trySetActive_views (s : Scene K) (c : ConstraintId) (active : Bool) :
    (s.trySetActive c active).2.views = s.views := by
  have switching := trySetActive_switching s c active
  generalize s.trySetActive c active = a at switching ⊢
  cases switching with
  | idle _ => rfl
  | refused r _ _ _ hreq =>
    have records := requestActivity_records s r active
    rw [hreq] at records
    exact records.views
  | switched r _ _ hreq =>
    have records := requestActivity_records s r active
    rw [hreq] at records
    exact records.views

/-- A refusal adds its report, and constraints and pins are none of the log. -/
theorem setActive_retains (s : Scene K) (c : ConstraintId) (active : Bool) :
    Retains s (s.setActive c active) := by
  have h := trySetActive_retains s c active
  unfold setActive
  generalize s.trySetActive c active = a at h ⊢
  obtain ⟨_ | _, t⟩ := a
  · exact ⟨h.linears, h.views, h.pins⟩
  · exact h

/-- A request for activity changes no view, with the report of its refusal or without. -/
theorem setActive_views (s : Scene K) (c : ConstraintId) (active : Bool) :
    (s.setActive c active).views = s.views := by
  have h := trySetActive_views s c active
  unfold setActive
  generalize s.trySetActive c active = a at h ⊢
  obtain ⟨_ | _, t⟩ := a <;> exact h

/-- A batch makes no constraint and puts no pin on record. -/
theorem setAllActive_retains (active : Bool) (cs : List ConstraintId) (s : Scene K) :
    Retains s (s.setAllActive cs active) := by
  induction cs generalizing s with
  | nil => exact .refl s
  | cons c cs ih => exact (setActive_retains s c active).trans (ih _)

/-- Reading a frame changes no insets. -/
theorem insets_frame (s : Scene K) (view w : ViewId) : (s.frame view).2.insets w = s.insets w :=
  insets_of_views (frame_records s view).views w

/-- The safe area of a view lies in its frame. -/
theorem safeFrame_eq (s : Scene K) (view : ViewId) :
    (s.safeFrame view).1 = (s.frame view).1.insetBy (s.insets view) :=
  congrArg (s.frame view).1.insetBy (insets_frame s view view)

/-- Reading frames leaves all records as they are. -/
theorem readFrames_records (views : List ViewId) (s : Scene K) :
    SameRecords s (Session.readFrames s views).2 := by
  induction views generalizing s with
  | nil => exact .refl s
  | cons v views ih => exact (frame_records s v).trans (ih _)

/-- Releasing a view takes its pins off the record and changes no insets. -/
theorem unpin_retains (s : Scene K) (view : ViewId) :
    Retains s (s.unpin view) ∧ ∀ w, (s.unpin view).insets w = s.insets w := by
  have records := unpin_records s view
  have released := retains_modifyView s view (f := fun v => { v with pins := none })
    fun _ => List.nil_subset _
  refine ⟨released.trans records.retains, fun w => ?_⟩
  exact (insets_of_views records.views w).trans
    (insets_modifyView s view (f := fun v => { v with pins := none }) (fun _ => rfl) w)

end

/-! ## Requests that ask for something -/

section

variable {K : Type} [Scalar K] {s t u : Scene K}

/-- A statement changes no view. -/
theorem state_views (s : Scene K) (lhs : Anchor) (relating : Relating K) :
    (s.state lhs relating).2.views = s.views := by
  refine (setActive_views (s.construct lhs relating).2 (s.construct lhs relating).1 true).trans ?_
  cases relating with
  | equalTo target => cases target <;> rfl
  | greaterThanOrEqualTo _ | lessThanOrEqualTo _ | explicit _ _ _ | equalConstant _ => rfl

/-- The statements of a block change no view. -/
theorem stateAll_views (view : ViewId) (statements : List (Statement K)) (s : Scene K) :
    (stateAll view s statements).2.views = s.views := by
  induction statements generalizing s with
  | nil => rfl
  | cons st rest ih => exact (ih _).trans (state_views s _ _)

/-- From `s` to `t` the constraints that `ds` ask for were made, and the insets of no view were
changed. -/
structure Asks (ds : List (Demand K)) (s t : Scene K) : Prop where
  made : ∃ new, t.constraints.map AnchorConstraint.linear =
    s.constraints.map AnchorConstraint.linear ++ new ∧ List.Forall₂ Demand.Forms ds new
  views : s.views.length ≤ t.views.length
  insets : ∀ w < s.views.length, t.insets w = s.insets w

namespace Asks

variable {ds es : List (Demand K)}

/-- What is asked for first comes first among the constraints made. -/
theorem trans (h : Asks ds s t) (h' : Asks es t u) : Asks (ds ++ es) s u where
  made := by
    obtain ⟨new, linears, forms⟩ := h.made
    obtain ⟨new', linears', forms'⟩ := h'.made
    exact ⟨new ++ new', by rw [linears', linears, List.append_assoc], List.rel_append forms forms'⟩
  views := Nat.le_trans h.views h'.views
  insets w hw := (h'.insets w (Nat.lt_of_lt_of_le hw h.views)).trans (h.insets w hw)

/-- A request that makes no constraint. -/
theorem of_linears (linears : t.constraints.map AnchorConstraint.linear =
    s.constraints.map AnchorConstraint.linear) (views : s.views.length ≤ t.views.length)
    (insets : ∀ w < s.views.length, t.insets w = s.insets w) : Asks [] s t :=
  ⟨⟨[], by rw [linears, List.append_nil], .nil⟩, views, insets⟩

theorem refl (s : Scene K) : Asks [] s s := .of_linears rfl (Nat.le_refl _) fun _ _ => rfl

/-- A request that changes no view. -/
theorem of_retains (h : Retains s t) (views : t.views = s.views) : Asks [] s t :=
  .of_linears h.linears (Nat.le_of_eq (congrArg _ views).symm) fun w _ => insets_of_views views w

/-- As many constraints are made as are asked for. -/
theorem length (h : Asks ds s t) : t.constraints.length = s.constraints.length + ds.length := by
  obtain ⟨new, linears, forms⟩ := h.made
  have lengths := congrArg List.length linears
  rwa [List.length_map, List.length_append, List.length_map, ← forms.length_eq] at lengths

/-- The constraints that are made come after the others, in the order in which they are asked for. -/
theorem constraint (h : Asks ds s t) {k : Nat} {d : Demand K} (hd : ds[k]? = some d) :
    ∃ r, t.constraints[s.constraints.length + k]? = some r ∧ d.Forms r.linear := by
  obtain ⟨new, linears, forms⟩ := h.made
  obtain ⟨hlen, hget⟩ := List.forall₂_iff_get.1 forms
  obtain ⟨hk, rfl⟩ := List.getElem?_eq_some_iff.1 hd
  have hk' : k < new.length := by rwa [← hlen]
  have found := congrArg (fun l => l[s.constraints.length + k]?) linears
  simp only [List.getElem?_map] at found
  rw [List.getElem?_append_right (by simp), List.length_map, Nat.add_sub_cancel_left,
    List.getElem?_eq_getElem hk'] at found
  obtain ⟨r, hr, same⟩ := Option.map_eq_some_iff.1 found
  exact ⟨r, hr, same ▸ hget k hk hk'⟩

end Asks

/-- A request for activity asks for nothing new. -/
theorem setActive_asks (s : Scene K) (c : ConstraintId) (active : Bool) :
    Asks [] s (s.setActive c active) :=
  .of_retains (setActive_retains s c active) (setActive_views s c active)

/-- A constraint is made in the form of what it asks for. -/
theorem insertConstraint_asks (s : Scene K) (engine : EngineId) (relationship : Relationship K)
    (d : Demand K) (id : Nat) (priority : Priority) :
    Asks [d] s (s.freshLinear.2.insertConstraint engine relationship (d.linear id priority)).2 where
  made := by
    refine ⟨[d.linear id priority], ?_, .cons ?_ .nil⟩
    · simp [Scene.insertConstraint, freshLinear]
    · cases d <;> rfl
  views := Nat.le_refl _
  insets _ _ := rfl

/-- Relating two anchors asks for the relation at the insets the two views have at this moment. -/
theorem relate_asks (s : Scene K) (lhs : Anchor) (relation : Relation) (rhs : Anchor) (offset : K) :
    Asks [s.demandBetween lhs relation rhs offset] s (s.relate lhs relation rhs offset).2 :=
  insertConstraint_asks ..

/-- Fixing an anchor asks for the number at the insets the view has at this moment. -/
theorem relateNumber_asks (s : Scene K) (lhs : Anchor) (value : K) :
    Asks [s.demandFixed lhs value] s (s.relateNumber lhs value).2 :=
  insertConstraint_asks ..

/-- Every way of relating an anchor asks for what it says, at the present insets. -/
theorem construct_asks (s : Scene K) (lhs : Anchor) (relating : Relating K) :
    Asks [s.demand lhs relating] s (s.construct lhs relating).2 := by
  cases relating with
  | equalTo target =>
    cases target with
    | place p => exact relate_asks ..
    | number value => exact relateNumber_asks ..
  | greaterThanOrEqualTo p => exact relate_asks ..
  | lessThanOrEqualTo p => exact relate_asks ..
  | explicit relation anchor offset => exact relate_asks ..
  | equalConstant value => exact relateNumber_asks ..

/-- A statement asks for what its relation says. The activation that follows asks for nothing. -/
theorem state_asks (s : Scene K) (lhs : Anchor) (relating : Relating K) :
    Asks [s.demand lhs relating] s (s.state lhs relating).2 := by
  have activated := (construct_asks s lhs relating).trans
    (setActive_asks _ (s.construct lhs relating).1 true)
  rw [List.append_nil] at activated
  exact ⟨activated.made, activated.views, activated.insets⟩

/-- The statements of a block ask at the insets the views have throughout the block. -/
theorem stateAll_asks (view : ViewId) (statements : List (Statement K)) (s : Scene K) :
    Asks (statements.map fun st => s.demand (st.property.anchor view) st.relating) s
      (stateAll view s statements).2 := by
  induction statements generalizing s with
  | nil => exact .refl s
  | cons st rest ih =>
    have later := ih (s.state (st.property.anchor view) st.relating).2
    have same (lhs : Anchor) (relating : Relating K) :
        (s.state (st.property.anchor view) st.relating).2.demand lhs relating =
          s.demand lhs relating :=
      demand_congr (insets_of_views (state_views s _ _)) lhs relating
    simp only [same] at later
    exact (state_asks s (st.property.anchor view) st.relating).trans later

/-- A part of a frame leads to a pin for it at most. -/
theorem pinPart_pins (view : ViewId) (name : String) (engine : EngineId)
    (acc : List (Constraint K) × Scene K) (part : Quantity × K) :
    ∀ c ∈ (pinPart view name engine acc part).1,
      c ∈ acc.1 ∨ ∃ id, c = pinConstraint id view part := by
  intro c hc
  unfold pinPart at hc
  dsimp only at hc
  split at hc
  · exact (List.mem_append.1 hc).imp_right fun hc => ⟨_, List.mem_singleton.1 hc⟩
  · exact .inl hc

/-- Holding a view puts pins on record for it, at its frame, and does so only if it had none. -/
theorem pin_pins (s : Scene K) (view : ViewId) :
    (s.pin view).constraints = s.constraints ∧ (s.pin view).views.length = s.views.length ∧
    ∀ w, ∀ c ∈ (s.pin view).pinsOf w, c ∈ s.pinsOf w ∨
      (w = view ∧ ∃ v, s.views[view]? = some v ∧ v.isPinned = false ∧
        ∃ id, ∃ part ∈ frameParts v.frame, c = pinConstraint id view part) := by
  refine pin_induction
    (Q := fun t => t.constraints = s.constraints ∧ t.views.length = s.views.length ∧
      ∀ w, ∀ c ∈ t.pinsOf w, c ∈ s.pinsOf w ∨
        (w = view ∧ ∃ v, s.views[view]? = some v ∧ v.isPinned = false ∧
          ∃ id, ∃ part ∈ frameParts v.frame, c = pinConstraint id view part))
    (fun v acc => SameRecords s acc.2 ∧
      ∀ c ∈ acc.1, ∃ id, ∃ part ∈ frameParts v.frame, c = pinConstraint id view part)
    (fun _ => ⟨rfl, rfl, fun _ _ => .inl⟩) (fun _ _ _ => ⟨.refl s, List.forall_mem_nil _⟩) ?_ ?_
  · rintro v _ acc part hpart ⟨records, pins⟩
    refine ⟨records.trans (pinPart_records view v.name v.engine acc part), fun c hc => ?_⟩
    rcases pinPart_pins view v.name v.engine acc part c hc with hc | ⟨id, rfl⟩
    · exact pins c hc
    · exact ⟨id, part, hpart, rfl⟩
  · rintro v hv unpinned accepted t ⟨records, pins⟩
    refine ⟨records.constraints, (List.length_modify ..).trans (congrArg _ records.views), ?_⟩
    intro w c hc
    dsimp only at records pins
    rw [pinsOf, modifyView, List.getElem?_modify, records.views] at hc
    by_cases hw : view = w
    · subst hw
      simp only [hv, if_true, Option.map_some, Option.map_eq_map, Option.getD_some] at hc
      exact .inr ⟨rfl, v, hv, unpinned, pins c hc⟩
    · simp only [hw, if_false, Option.map_eq_map, Option.map_id_fun'] at hc
      exact .inl hc

end

end Scene

namespace Describes

variable {l : Ledger Rat} {s t : Scene Rat}

open Scene

/-- A request that makes no constraint, and puts no pin on record, needs no entry in the ledger. -/
theorem retained (h : Describes l s) (hr : Retains s t) : Describes l t where
  demands := hr.linears ▸ h.demands
  frames := hr.views.trans h.frames
  pins view frame hf c hc := h.pins view frame hf c (hr.pins view hc)

/-- A request that makes what it asks for and changes no view. -/
theorem asked (h : Describes l s) {ds : List (Demand Rat)} (asks : Asks ds s t)
    (views : t.views = s.views) : Describes (l.ask ds) t where
  demands := by
    obtain ⟨new, linears, forms⟩ := asks.made
    rw [linears]
    refine List.rel_append h.demands (List.Forall₂.flip (forms.imp ?_))
    intro d c form x
    rw [form]
    exact d.linear_holds ..
  frames := (congrArg List.length views).trans h.frames
  pins view frame hf c hc := h.pins view frame hf c (by rwa [pinsOf, views] at hc)

/-- Holding a view whose frame the ledger knows. -/
theorem pin (h : Describes l s) {view : ViewId}
    (hf : ∀ v, s.views[view]? = some v → v.isPinned = false → l.frames[view]? = some v.frame) :
    Describes l (s.pin view) := by
  obtain ⟨constraints, views, pins⟩ := pin_pins s view
  refine ⟨constraints ▸ h.demands, views.trans h.frames, ?_⟩
  intro w frame hw c hc
  rcases pins w c hc with hc | ⟨rfl, v, hv, hpinned, hpart⟩
  · exact h.pins w frame hw c hc
  · rw [hf v hv hpinned] at hw
    cases hw
    exact hpart

/-- A view is held again, at the frame it has, unless it is held already. The ledger has the new frame
then, and keeps the old one otherwise. -/
theorem hold (h : Describes l s) {view : ViewId} {v : View Rat} (hv : s.views[view]? = some v) :
    Describes (if v.isPinned then l else l.hold view (s.frame view).1) (s.setPinned view true) := by
  have records := frame_records s view
  have read := records.retains.trans (retains_modifyView (s.frame view).2 view
    (f := fun v => { v with frame := (s.frame view).1 }) fun _ => List.Subset.refl _)
  have found : ((s.frame view).2.modifyView view fun v => { v with frame := (s.frame view).1 }).views[view]? =
      some { v with frame := (s.frame view).1 } := by
    rw [modifyView, List.getElem?_modify, records.views, hv]
    simp
  rw [setPinned, if_pos rfl]
  split
  next hpinned =>
    refine (h.retained read).pin ?_
    intro w hw hnot
    rw [found] at hw
    cases hw
    exact absurd hpinned (Bool.eq_false_iff.1 hnot)
  next hpinned =>
    have none : s.pinsOf view = [] := by
      rw [pinsOf, hv, Option.map_some, Option.getD_some, View.pinned,
        Option.not_isSome_iff_eq_none.1 hpinned]
      rfl
    have hi : view < l.frames.length := h.frames ▸ (List.getElem?_eq_some_iff.1 hv).1
    have placed : Describes (l.hold view (s.frame view).1)
        ((s.frame view).2.modifyView view fun v => { v with frame := (s.frame view).1 }) := by
      refine ⟨(h.retained read).demands, ?_, ?_⟩
      · rw [read.views, h.frames, Ledger.hold, List.length_set]
      · intro w frame hw c hc
        rw [Ledger.hold, List.getElem?_set] at hw
        have before := read.pins w hc
        split at hw
        next heq =>
          rw [← heq, none] at before
          cases before
        next => exact h.pins w frame hw c before
    refine placed.pin ?_
    intro w hw _
    rw [found] at hw
    cases hw
    rw [Ledger.hold, List.getElem?_set_self hi]

/-- Releasing a view needs no entry in the ledger: what it was held at stands there still. -/
theorem release (h : Describes l s) (view : ViewId) : Describes l (s.setPinned view false) :=
  h.retained (unpin_retains s view).1

/-- A new view is held at the frame it comes with. -/
theorem insertView (h : Describes l s) (name : String) (engine : EngineId) (frame : Rect Rat)
    (insets : Insets Rat) :
    Describes (l.place frame) (s.insertView name engine frame insets).2 := by
  have placed : Describes (l.place frame)
      { s with views := s.views ++ [{ name, engine, insets, frame }] } := by
    refine ⟨h.demands, ?_, ?_⟩
    · simp [Ledger.place, h.frames]
    · intro w other hw c hc
      have before := pinsOf_append s rfl w hc
      have old : w < l.frames.length := h.frames ▸ lt_of_mem_pinsOf before
      rw [Ledger.place, List.getElem?_append_left old] at hw
      exact h.pins w other hw c before
  refine placed.pin ?_
  intro v hv _
  rw [List.getElem?_concat_length] at hv
  cases hv
  rw [Ledger.place, h.frames, List.getElem?_concat_length]

/-- A new engine is entered with the frame of its root view, which starts at the origin in the
configured size. -/
theorem addEngine (h : Describes l s) (config : Config Rat) :
    Describes (l.place ⟨0.0, 0.0, config.rootSize.width, config.rootSize.height⟩)
      (s.addEngine config).2 := by
  have extended : Describes l
      { s with engines := s.engines ++ [Engine.create config s.views.length] } :=
    ⟨h.demands, h.frames, h.pins⟩
  exact extended.insertView _ _ _ _

end Describes

end ViewConstraints
