import ViewConstraints.Proofs.Scene.Released
import ViewConstraints.Proofs.Scene.Soft

/-!
# Failed deactivations

A solver drops a constraint before anything can fail, while the constraint is marked as inactive
only if nothing did. So a request for an active constraint to be inactive leaves it unheld however
it ends (`Numbered.deactivation`), and after a failure the mark and the solver disagree (`Lost`).
They disagree for good: a lost constraint is never added again, since it counts as active already,
and it cannot be deactivated, since its solver does not know it (`lost_stable`).
-/

namespace ViewConstraints

open Linear Simplex

namespace Scene

section

variable {K : Type}

/-- A constraint counts as active and is not held by the solver of its engine. -/
structure Lost (c : ConstraintId) (r : AnchorConstraint K) (s : Scene K) : Prop where
  record : s.constraints[c]? = some r
  active : r.active = true
  unheld : r.linear ∉ s.heldBy r.engine

/-- How a request for an active constraint to be inactive ends. -/
inductive Deactivation (s : Scene K) (c : ConstraintId) (r : AnchorConstraint K) :
    Except (EngineError (Relationship K)) Unit × Scene K → Prop where
  /-- The constraint was held, and is neither held nor active. -/
  | granted {t : Scene K} : r.linear ∈ s.heldBy r.engine → r.linear ∉ t.heldBy r.engine →
      t.constraints[c]? = some { r with active := false } → Deactivation s c r (.ok (), t)
  /-- The solver failed, after it had dropped the constraint. -/
  | failed {t : Scene K} (message : String) : r.linear ∈ s.heldBy r.engine → Lost c r t →
      Deactivation s c r (.error ⟨r.relationship, .internal message⟩, t)
  /-- The constraint was lost before. -/
  | lost : Lost c r s → Deactivation s c r (.error ⟨r.relationship, .unknownConstraint⟩, s)

/-- Constraints are told apart by the numbers of their linear forms. -/
theorem Numbered.linear_id_ne {s : Scene K} (h : Numbered [] s) {c d : ConstraintId}
    {r r' : AnchorConstraint K} (hr : s.constraints[c]? = some r)
    (hr' : s.constraints[d]? = some r') (hne : d ≠ c) : r'.linear.id ≠ r.linear.id := by
  have distinct : (s.constraints.map fun r => r.linear.id).Nodup := by
    have sublist := (List.sublist_append_left (s.constraints.map AnchorConstraint.linear)
      (s.views.flatMap View.pinned)).map Constraint.id
    rw [List.map_map] at sublist
    exact sublist.nodup h.numbering.distinct
  intro heq
  have hd : d < (s.constraints.map fun r => r.linear.id).length := by
    rw [List.length_map]
    exact (List.getElem?_eq_some_iff.1 hr').1
  refine hne ((List.getElem?_inj hd distinct).1 ?_)
  rw [List.getElem?_map, List.getElem?_map, hr, hr', Option.map_some, Option.map_some, heq]

/-- What engines come to hold has a number that was not given out before. -/
structure NoneBack (s t : Scene K) : Prop where
  next : s.nextLinear ≤ t.nextLinear
  held : ∀ i, ∀ d ∈ t.heldBy i, d ∈ s.heldBy i ∨ s.nextLinear ≤ d.id

namespace NoneBack

variable {s t u : Scene K}

/-- Where every solver holds what it held before, no old number comes back: the only condition left is
that the counter of linear forms has not gone down. -/
theorem of_held (next : s.nextLinear ≤ t.nextLinear) (held : ∀ i, t.heldBy i = s.heldBy i) :
    NoneBack s t :=
  ⟨next, fun i _ hd => .inl (held i ▸ hd)⟩

theorem refl (s : Scene K) : NoneBack s s := of_held (Nat.le_refl _) fun _ => rfl

/-- Nothing comes back over two changes in a row, since a number that is new to the first is still new
at the start of both. -/
theorem trans (h : NoneBack s t) (h' : NoneBack t u) : NoneBack s u where
  next := Nat.le_trans h.next h'.next
  held i d hd := (h'.held i d hd).elim (h.held i d) fun hn => .inr (Nat.le_trans h.next hn)

end NoneBack

namespace Lost

variable {s t : Scene K} {c : ConstraintId} {r : AnchorConstraint K}

/-- The number of a lost constraint has been given out: its record is still on the list of the scene,
so whatever is held later under a new number is another constraint. -/
theorem below (h : Lost c r s) (hs : Numbered [] s) : r.linear.id < s.nextLinear :=
  hs.numbering.below r.linear (List.mem_append_left (s.views.flatMap View.pinned)
    (List.mem_map_of_mem (List.mem_of_getElem? h.record)))

/-- A lost constraint stays lost where no old number comes back and its record is left alone. -/
theorem of_noneBack (h : Lost c r s) (hs : Numbered [] s) (back : NoneBack s t)
    (record : t.constraints[c]? = s.constraints[c]?) : Lost c r t where
  record := record.trans h.record
  active := h.active
  unheld held := by
    rcases back.held r.engine r.linear held with held | new
    · exact h.unheld held
    · exact absurd (h.below hs) (Nat.not_lt.2 new)

/-- A new constraint is made at the end of the list, and no engine is asked to take it in. -/
theorem insertConstraint (h : Lost c r s) (engine : EngineId) (relationship : Relationship K)
    (linear : Constraint K) :
    Lost c r (s.freshLinear.2.insertConstraint engine relationship linear).2 := by
  have old := (List.getElem?_eq_some_iff.1 h.record).1
  refine ⟨?_, h.active, h.unheld⟩
  exact (List.getElem?_append_left old).trans h.record

end Lost

end

variable {K : Type} [Scalar K] {s t : Scene K} {passing : List (Constraint K)} {c : ConstraintId}
  {r : AnchorConstraint K}

/-- What an engine does not hold, it does not know. -/
theorem Numbered.removeLinear_of_notMem (h : Numbered passing s) {i : EngineId}
    (hi : i < s.engines.length) {c : Constraint K} (hc : c ∈ passing ++ s.linears)
    (unheld : c ∉ s.heldBy i) : s.removeLinear i c = (.error .unknownConstraint, s) := by
  have he := List.getElem?_eq_getElem hi
  have hmem := List.getElem_mem hi
  have unknown := Solver.removeConstraint_of_notMem (c := c) (h.numbering.keyed _ hmem)
    (by rwa [heldBy, he] at unheld) fun d hd => h.numbering.held_known _ hmem d hd c hc
  rw [Scene.removeLinear, he]
  dsimp only
  rw [Engine.remove, unknown]
  dsimp only
  rw [List.set_getElem_self]
  rfl

/-- However it ends, a request for a constraint to be inactive leaves it unheld; the constraint
counts as inactive afterwards exactly if the request is granted. -/
theorem Numbered.deactivation (h : Numbered [] s) (hr : s.constraints[c]? = some r)
    (active : r.active = true) : Deactivation s c r (s.trySetActive c false) := by
  have hmem := List.mem_of_getElem? hr
  have hi := h.constraintEngine r hmem
  have known : r.linear ∈ [] ++ s.linears :=
    List.mem_append_left (s.views.flatMap View.pinned) (List.mem_map_of_mem hmem)
  have left : r.linear ∉ (s.removeLinear r.engine r.linear).2.heldBy r.engine := by
    rw [h.heldBy_removeLinear]
    simp
  have records := removeLinear_records s r.engine r.linear
  by_cases held : r.linear ∈ s.heldBy r.engine
  · have outcome := removeLinear_outcome h hi held
    rw [Scene.trySetActive, hr]
    simp only [active, Bool.true_eq_false, Bool.false_eq_true, if_false]
    generalize s.removeLinear r.engine r.linear = a at outcome left records ⊢
    obtain ⟨cause | _, t⟩ := a
    · obtain ⟨ha, -⟩ | ⟨message, ha⟩ := outcome <;> cases ha
      exact .failed message held ⟨records.constraints ▸ hr, active, left⟩
    · have hr' : t.constraints[c]? = some r := records.constraints ▸ hr
      refine .granted held left ?_
      dsimp only [Scene.emit]
      rw [List.getElem?_modify_eq, hr']
      rfl
  · rw [Scene.trySetActive, hr]
    simp only [active, Bool.true_eq_false, Bool.false_eq_true, if_false,
      h.removeLinear_of_notMem hi known held]
    exact .lost ⟨hr, active, held⟩

/-! ## Old numbers do not come back -/

theorem addLinear_nextLinear (s : Scene K) (i : EngineId) (c : Constraint K) :
    (s.addLinear i c).2.nextLinear = s.nextLinear := by
  unfold addLinear
  split <;> rfl

theorem removeLinear_nextLinear (s : Scene K) (i : EngineId) (c : Constraint K) :
    (s.removeLinear i c).2.nextLinear = s.nextLinear := by
  unfold removeLinear
  split <;> rfl

theorem frame_nextLinear (s : Scene K) (view : ViewId) :
    (s.frame view).2.nextLinear = s.nextLinear := by
  unfold frame
  split <;> rfl

/-- An engine takes in at most the constraint that it is asked to add. -/
theorem Numbered.heldBy_addLinear (h : Numbered passing s) (i : EngineId) (c : Constraint K)
    (j : EngineId) : ∀ d ∈ (s.addLinear i c).2.heldBy j, d = c ∨ d ∈ s.heldBy j := by
  unfold Scene.addLinear
  split
  · exact fun _ => .inr
  next e he =>
    have added := (Solver.addConstraint_keyed (c := c)
      (h.numbering.keyed e (List.mem_of_getElem? he))).2
    rw [heldBy_set (List.getElem?_eq_some_iff.1 he).1]
    split
    next hj =>
      rw [← hj, heldBy, he]
      exact added
    next => exact fun _ => .inr

/-- No engine takes in anything by a removal. -/
theorem Numbered.removeLinear_noneBack (h : Numbered passing s) (i : EngineId) (c : Constraint K) :
    NoneBack s (s.removeLinear i c).2 := by
  refine ⟨Nat.le_of_eq (removeLinear_nextLinear s i c).symm, fun j d hd => .inl ?_⟩
  by_cases hj : j = i
  · subst hj
    rw [h.heldBy_removeLinear] at hd
    exact List.mem_of_mem_filter hd
  · rwa [heldBy, removeLinear_engines s hj] at hd

/-- Pinning one component adds a constraint with the next number, and whether the solver takes it or
not, it holds nothing older that it did not hold. -/
theorem Numbered.pinPart_noneBack (view : ViewId) (name : String) (engine : EngineId)
    {acc : List (Constraint K) × Scene K} (part : Quantity × K) (h : Numbered acc.1 acc.2) :
    NoneBack acc.2 (Scene.pinPart view name engine acc part).2 := by
  obtain ⟨pins, s⟩ := acc
  have held := (h.freshLinear (c := pinConstraint s.nextLinear view part) rfl).heldBy_addLinear
    engine (pinConstraint s.nextLinear view part)
  have next := addLinear_nextLinear s.freshLinear.2 engine (pinConstraint s.nextLinear view part)
  have added : NoneBack s
      (s.freshLinear.2.addLinear engine (pinConstraint s.nextLinear view part)).2 := by
    refine ⟨next ▸ Nat.le_succ _, fun i d hd => (held i d hd).symm.imp_right ?_⟩
    rintro rfl
    exact Nat.le_refl _
  unfold Scene.pinPart
  dsimp only [Scene.freshLinear] at added ⊢
  split <;> rename_i hr <;> rw [hr] at added
  · exact added
  · exact added.trans (.of_held (Nat.le_refl _) fun _ => rfl)

/-- Pinning a view brings nothing back; the four components are taken one by one. -/
theorem Numbered.pin_noneBack (h : Numbered [] s) (view : ViewId) : NoneBack s (s.pin view) := by
  refine pin_induction (fun _ acc => Numbered acc.1 acc.2 ∧ NoneBack s acc.2) (fun _ => .refl s)
    (fun _ _ _ => ⟨h, .refl s⟩) ?_ ?_
  · rintro v _ acc part _ ⟨numbered, back⟩
    exact ⟨numbered.pinPart view v.name v.engine part,
      back.trans (numbered.pinPart_noneBack view v.name v.engine part)⟩
  · exact fun _ _ _ _ _ h => h.2.trans (.of_held (Nat.le_refl _) fun _ => rfl)

/-- Releasing one pin takes its constraint out of the solver; where that fails the failure is logged
and nothing is added. -/
theorem Numbered.unpinPart_noneBack (h : Numbered passing s) (view : ViewId) (name : String)
    (engine : EngineId) (c : Constraint K) :
    NoneBack s (Scene.unpinPart view name engine s c) := by
  have removed := h.removeLinear_noneBack engine c
  unfold Scene.unpinPart
  split <;> rename_i hr <;> rw [hr] at removed
  · exact removed
  · exact removed.trans (.of_held (Nat.le_refl _) fun _ => rfl)

theorem Numbered.unpin_noneBack (h : Numbered [] s) (view : ViewId) :
    NoneBack s (s.unpin view) := by
  refine unpin_induction (fun v _ t => Numbered v.pinned t ∧ NoneBack s t)
    (fun _ => .refl s) ?_ ?_ ?_
  · exact fun v _ hv _ => ⟨h.unrecord hv, .of_held (Nat.le_refl _) fun _ => rfl⟩
  · rintro v _ c _ t ⟨numbered, back⟩
    exact ⟨numbered.unpinPart view v.name v.engine c,
      back.trans (numbered.unpinPart_noneBack view v.name v.engine c)⟩
  · exact fun _ _ _ h => h.2.trans (.of_held (Nat.le_refl _) fun _ => rfl)

/-- Reading a frame asks for reports only, and no solver holds more or less after it. -/
theorem frame_noneBack (s : Scene K) (view : ViewId) : NoneBack s (s.frame view).2 :=
  .of_held (Nat.le_of_eq (frame_nextLinear s view).symm) (frame_heldBy s view)

/-- Setting the flag of a view either pins it anew or releases its pins, and nothing old comes back in
either case. -/
theorem Numbered.setPinned_noneBack (h : Numbered [] s) (view : ViewId) (enabled : Bool) :
    NoneBack s (s.setPinned view enabled) := by
  cases enabled with
  | true =>
    rw [Scene.setPinned, if_pos rfl]
    have framed := (h.frame view).modifyView view
      (f := fun v => { v with frame := (s.frame view).1 }) (fun _ => rfl) fun _ => rfl
    have unheld : NoneBack (s.frame view).2
        ((s.frame view).2.modifyView view fun v => { v with frame := (s.frame view).1 }) :=
      .of_held (Nat.le_refl _) fun _ => rfl
    exact (frame_noneBack s view).trans (unheld.trans (framed.pin_noneBack view))
  | false => exact h.unpin_noneBack view

/-- A new view is pinned with new constraints, so what its engine came to hold before it keeps its
place and nothing else returns. -/
theorem Numbered.insertView_noneBack (h : Numbered [] s) (name : String) {engine : EngineId}
    (he : engine < s.engines.length) (frame : Rect K) (insets : Insets K) :
    NoneBack s (s.insertView name engine frame insets).2 :=
  have inserted : NoneBack s { s with views := s.views ++ [{ name, engine, insets, frame }] } :=
    .of_held (Nat.le_refl _) fun _ => rfl
  inserted.trans ((h.appendView name he frame insets).pin_noneBack _)

/-! ## Lost for good -/

/-- A request about another constraint does not bring a lost one back: it has another number. -/
theorem Lost.requestActivity (h : Lost c r s) (hs : Numbered [] s) {d : ConstraintId}
    {r' : AnchorConstraint K} (hr' : s.constraints[d]? = some r') (hd : d ≠ c) (active : Bool) :
    Lost c r (s.requestActivity r' active).2 := by
  have records := requestActivity_records s r' active
  cases active with
  | true =>
    refine ⟨records.constraints ▸ h.record, h.active, fun held => ?_⟩
    rcases hs.heldBy_addLinear r'.engine r'.linear r.engine r.linear held with same | held
    · exact hs.linear_id_ne h.record hr' hd (congrArg Constraint.id same).symm
    · exact h.unheld held
  | false =>
    exact h.of_noneBack hs (hs.removeLinear_noneBack r'.engine r'.linear)
      (by rw [records.constraints])

/-- No request for activity finds a lost constraint again: it is not added a second time, since it
counts as active, and it cannot be removed. -/
theorem Lost.trySetActive (h : Lost c r s) (hs : Numbered [] s) (d : ConstraintId) (active : Bool) :
    Lost c r (s.trySetActive d active).2 := by
  by_cases hd : d = c
  · subst hd
    cases active with
    | true =>
      rw [Scene.trySetActive, h.record]
      dsimp only
      rwa [if_pos h.active]
    | false =>
      have outcome := hs.deactivation h.record h.active
      generalize s.trySetActive d false = a at outcome ⊢
      cases outcome with
      | granted held => exact absurd held h.unheld
      | failed _ held => exact absurd held h.unheld
      | lost => exact h
  · have switching := trySetActive_switching s d active
    generalize s.trySetActive d active = a at switching ⊢
    cases switching with
    | idle _ => exact h
    | refused r' _ hr' _ hreq =>
      have changed := h.requestActivity hs hr' hd active
      rwa [hreq] at changed
    | @switched t r' hr' _ hreq =>
      have changed := h.requestActivity hs hr' hd active
      rw [hreq] at changed
      have other : (t.switch d r' active).constraints[c]? = t.constraints[c]? :=
        List.getElem?_modify_ne _ _ hd
      exact ⟨other.trans changed.record, h.active, changed.unheld⟩

/-- The logged form of a request ends like the request itself: a lost constraint stays lost. -/
theorem Lost.setActive (h : Lost c r s) (hs : Numbered [] s) (d : ConstraintId) (active : Bool) :
    Lost c r (s.setActive d active) := by
  have tried := h.trySetActive hs d active
  unfold Scene.setActive
  generalize s.trySetActive d active = a at tried ⊢
  obtain ⟨_ | _, t⟩ := a
  · exact ⟨tried.record, tried.active, tried.unheld⟩
  · exact tried

/-- A constraint stays lost when a view is added, which touches no record of a constraint. -/
theorem Lost.insertView (h : Lost c r s) (hs : Numbered [] s) (name : String) {engine : EngineId}
    (he : engine < s.engines.length) (frame : Rect K) (insets : Insets K) :
    Lost c r (s.insertView name engine frame insets).2 :=
  h.of_noneBack hs (hs.insertView_noneBack name he frame insets) (by rw [insertView_constraints])

/-- Whatever is asked of a scene, a lost constraint stays lost: no request gives it a new number, and
none of them brings an old number back. -/
theorem lost_stable : Stable fun s t : Scene K => (Numbered [] s → Numbered [] t) ∧
    (Numbered [] s → Lost c r s → Lost c r t) where
  refl _ := ⟨id, fun _ => id⟩
  trans h h' := ⟨h'.1 ∘ h.1, fun hs hl => h'.2 (h.1 hs) (h.2 hs hl)⟩
  addEngine s config := by
    refine ⟨numbered_stable.addEngine s config, fun hs h => ?_⟩
    have extended := h.of_noneBack hs
      (t := { s with engines := s.engines ++ [Engine.create config s.views.length] })
      (.of_held (Nat.le_refl _) (heldBy_append s config _)) rfl
    exact extended.insertView (hs.appendEngine config s.views.length) _ (by simp) _ _
  addView s _ name frame he :=
    ⟨numbered_stable.addView s _ name frame he, fun hs h => h.insertView hs name he frame _⟩
  relate s lhs relation rhs offset :=
    ⟨numbered_stable.relate s lhs relation rhs offset, fun _ h => h.insertConstraint _ _ _⟩
  relateNumber s lhs value :=
    ⟨numbered_stable.relateNumber s lhs value, fun _ h => h.insertConstraint _ _ _⟩
  setActive s d active :=
    ⟨numbered_stable.setActive s d active, fun hs h => h.setActive hs d active⟩
  setPinned s view enabled := by
    refine ⟨numbered_stable.setPinned s view enabled, fun hs h => ?_⟩
    exact h.of_noneBack hs (hs.setPinned_noneBack view enabled) (by rw [setPinned_constraints])
  setInsets s view insets := ⟨numbered_stable.setInsets s view insets,
    fun _ h => ⟨h.record, h.active, h.unheld⟩⟩
  frame s view := ⟨numbered_stable.frame s view,
    fun hs h =>
      h.of_noneBack hs (frame_noneBack s view) (by rw [(frame_records s view).constraints])⟩
  report s a := ⟨numbered_stable.report s a, fun _ h => ⟨h.record, h.active, h.unheld⟩⟩

end Scene

end ViewConstraints
