import ViewConstraints.Proofs.Scene.Frames
import ViewConstraints.Proofs.Scene.Soft
import ViewConstraints.Proofs.Simplex.Pinned

/-!
# Views that are held

A view is held at a rectangle (`HeldAt`) if each of its unknowns is pinned in the solver of its engine
to what the rectangle has for it, and the engine has learnt the value last reported for it. Then the
frame that is read is the rectangle (`HeldAt.frame`).

A pinned unknown comes loose only when its own equation is removed (`Engine.Pinned.reaches`). Numbers
tell linear constraints apart, so that equation is none of the constraints made through anchors, and
no pin of another view (`Orderly.spares`): a view stays held as long as it is not released itself
(`HeldAt.evolves`), whatever solvers answer.
-/

namespace ViewConstraints

open Linear Simplex

namespace Scene

/-! ## Engines -/

namespace Engine

section

variable {K : Type} [Scalar K] {e f : Engine K} {A B : Constraint K → Prop} {v : Variable}

/-- The engine has nothing on an unknown: it is not in use and no value was learnt for it. -/
structure Unaware (e : Engine K) (v : Variable) : Prop where
  unused : e.solver.symbolOf v = none
  unlearnt : e.values.get? v = none

/-- A new engine knows of no unknown. -/
theorem create_unaware (config : Config K) (root : ViewId) (v : Variable) :
    (create config root).Unaware v :=
  ⟨rfl, rfl⟩

/-- An unknown that no added constraint mentions stays out of use. -/
theorem ReachesBy.unused (h : e.ReachesBy (fun c => v ∉ c.mentioned) B f)
    (unused : e.solver.symbolOf v = none) : f.solver.symbolOf v = none := by
  induction h with
  | refl => exact unused
  | add _ hc ih => exact (Solver.symbolOf_addConstraint_of_notMem hc).trans ih
  | remove _ _ _ ih =>
    rw [Option.eq_none_iff_forall_ne_some]
    intro σ hσ
    have before := Solver.symbolOf_of_removeConstraint hσ
    rw [ih] at before
    cases before
  | @refresh f _ ih => exact (Solver.symbolOf_fetchChanges f.solver v).trans ih

/-- An engine learns of an unknown only from constraints that mention it. -/
theorem Unaware.reaches (h : e.Unaware v) (hreach : e.ReachesBy (fun c => v ∉ c.mentioned) B f) :
    f.Unaware v := by
  refine ⟨hreach.unused h.unused, ?_⟩
  induction hreach with
  | refl => exact h.unlearnt
  | add _ _ ih => exact ih
  | remove _ _ _ ih => exact ih
  | @refresh f hreach ih =>
    have unused := hreach.unused h.unused
    have none_reported {s : Solver K} (h : s.symbolOf v = none) : s.reportedOf v = none := by
      rw [Solver.reportedOf, Option.map_eq_none_iff.1 h, Option.bind_none]
    have learnt := Solver.reported_fetchChanges (P := Eq) (fun _ => rfl)
      ((none_reported unused).trans ih.symm)
    exact learnt.symm.trans (none_reported ((Solver.symbolOf_fetchChanges f.solver v).trans unused))

/-- The unknown `v` is pinned in the solver, and the value learnt for it is the one last reported, if
any was. -/
structure Pinned (e : Engine K) (n : Nat) (v : Variable) (σ marker : Symbol) (k : K) : Prop where
  solver : e.solver.Pinned n v σ marker k
  learnt : e.solver.reportedOf v = e.values.get? v

end

variable {K : Type} [Scalar K] [UnitScalar K] {e f : Engine K} {A B : Constraint K → Prop}
  {n : Nat} {v : Variable} {σ marker : Symbol} {k : K}

/-- The equation that an unknown is a number pins the unknown in an engine that has nothing on it. -/
theorem Unaware.add (h : e.Unaware v) (hf : e.Faithful) (hn : e.solver.holds n = false) (x : K) :
    ∃ σ marker k, Agree k x ∧ (e.add (Solver.equation n v x)).2.Pinned n v σ marker k := by
  obtain ⟨σ, marker, k, agree, pinned⟩ := Solver.addConstraint_pins hf.sound h.unused hn x
  refine ⟨σ, marker, k, agree, pinned, ?_⟩
  refine (Solver.reportedOf_addConstraint _ _ v).trans ?_
  rw [Solver.reportedOf, Option.map_eq_none_iff.1 h.unused]
  exact h.unlearnt.symm

/-- An unknown stays pinned as long as its equation is not removed. -/
theorem Pinned.reaches (h : e.Pinned n v σ marker k) (hf : e.Faithful)
    (hreach : e.ReachesBy A (fun c => c.id ≠ n) f) : f.Pinned n v σ marker k := by
  induction hreach with
  | refl => exact h
  | @add f c hreach _ ih =>
    exact ⟨ih.solver.addConstraint (hf.reaches hreach).sound c,
      (Solver.reportedOf_addConstraint _ c v).trans ih.learnt⟩
  | @remove f c hreach hc hheld ih =>
    have counted := (hf.reaches (hreach.remove hc hheld)).counted
    have pinned := ih.solver.removeConstraint (hf.reaches hreach).sound hc counted
    exact ⟨pinned, (Solver.reportedOf_removeConstraint pinned.symbol).trans ih.learnt⟩
  | refresh _ ih =>
    exact ⟨ih.solver.fetchChanges, Solver.reported_fetchChanges (P := Eq) (fun _ => rfl) ih.learnt⟩

/-- After a report, the value learnt for a pinned unknown is its number. -/
theorem Pinned.value (h : e.Pinned n v σ marker k) (hf : e.Faithful) :
    Agree (e.refresh.value v) k := by
  have reports : e.ReachesBy (fun _ => True) (fun c => c.id ≠ n) e.refresh := .refresh (.refl e)
  have reported := h.reaches hf reports
  obtain ⟨-, -, -, agree⟩ := Solver.fetchChanges_agree hf.sound
  obtain ⟨x, hx, hσ⟩ := Option.map_eq_some_iff.1 reported.solver.symbol
  have current := agree v x hx
  rw [hσ] at current
  have learnt : e.refresh.value v = x.reported.getD 0.0 := by
    rw [Engine.value, ← reported.learnt, Solver.reportedOf, hx, Option.bind_some]
  rw [learnt, ← reported.solver.tied.rests.valueOf]
  exact current

end Engine

/-! ## Scenes in order -/

section

variable {K : Type} [Scalar K] {s t : Scene K}

/-- The pins on record for a view are about that view. -/
def PinsApart (s : Scene K) : Prop :=
  ∀ view, ∀ c ∈ s.pinsOf view, ∀ v ∈ c.mentioned, v.view = view

/-- Pins stay apart if none is put on record. -/
theorem PinsApart.of_pins (h : PinsApart s) (hp : ∀ view, t.pinsOf view ⊆ s.pinsOf view) :
    PinsApart t :=
  fun view c hc => h view c (hp view hc)

/-- A pin mentions the one unknown that it holds. -/
theorem pinConstraint_mentioned [UnitScalar K] (n : Nat) (view : ViewId) (part : Quantity × K) :
    (pinConstraint n view part).mentioned = [⟨view, part.1⟩] :=
  Solver.equation_mentioned n ⟨view, part.1⟩ part.2

/-- Holding a view puts pins of this view on record with it. -/
theorem PinsApart.pin [UnitScalar K] (h : PinsApart s) (view : ViewId) : PinsApart (s.pin view) := by
  obtain ⟨-, -, pins⟩ := pin_pins s view
  intro w c hc
  rcases pins w c hc with hc | ⟨rfl, v, -, -, n, part, -, rfl⟩
  · exact h w c hc
  · rw [pinConstraint_mentioned]
    exact List.forall_mem_singleton.2 rfl

/-- A new view comes with pins of its own. -/
theorem PinsApart.insertView [UnitScalar K] (h : PinsApart s) (name : String) (engine : EngineId)
    (frame : Rect K) (insets : Insets K) :
    PinsApart (s.insertView name engine frame insets).2 :=
  (h.of_pins (t := { s with views := s.views ++ [{ name, engine, insets, frame }] })
    (pinsOf_append s rfl)).pin _

/-- Every request keeps the pins of views apart. Only holding a view puts pins on record, and these
are of its own unknowns. -/
theorem pinsApart_stable [UnitScalar K] : Stable fun s t : Scene K => PinsApart s → PinsApart t where
  refl _ := id
  trans h h' := h' ∘ h
  addEngine s config h :=
    have extended : PinsApart { s with engines := s.engines ++ [Engine.create config s.views.length] } := h
    extended.insertView _ _ _ _
  addView _ _ _ _ _ h := h.insertView _ _ _ _
  relate _ _ _ _ _ h := h
  relateNumber _ _ _ h := h
  setActive s c active h := h.of_pins (setActive_retains s c active).pins
  setPinned s view enabled h := by
    cases enabled with
    | true =>
      rw [setPinned, if_pos rfl]
      have read := (frame_records s view).retains.trans (retains_modifyView (s.frame view).2 view
        (f := fun v => { v with frame := (s.frame view).1 }) fun _ => List.Subset.refl _)
      exact (h.of_pins read.pins).pin view
    | false => exact h.of_pins (unpin_retains s view).1.pins
  setInsets s view insets h := h.of_pins (retains_modifyView s view
    (f := fun v => { v with insets }) fun _ => List.Subset.refl _).pins
  frame s view h := h.of_pins (frame_records s view).retains.pins
  report _ _ h := h

/-- Linear constraints are told apart by their numbers, engines know what their solvers reported, and
the pins on record for a view are about that view. -/
structure Orderly (s : Scene K) : Prop where
  numbered : Numbered [] s
  faithful : ∀ e ∈ s.engines, e.Faithful
  pins : PinsApart s

/-- Every request keeps a scene in order. -/
theorem orderly_stable [UnitScalar K] : Stable fun s t : Scene K => Orderly s → Orderly t :=
  (evolves_stable.and pinsApart_stable).imp
    (fun h hs => ⟨h.1.1 hs.numbered, (h.1.2 hs.numbered).faithful hs.faithful, h.2 hs.pins⟩)
    fun h h' hs => h' (h hs)

/-- A scene stays in order when an engine without views is added. -/
theorem Orderly.appendEngine [UnitScalar K] (h : Orderly s) (config : Config K) (root : ViewId) :
    Orderly { s with engines := s.engines ++ [Engine.create config root] } where
  numbered := h.numbered.appendEngine config root
  faithful := (appendEngine_evolves (A := fun _ => True) (B := fun _ => True) s config root).faithful
    h.faithful
  pins := h.pins

/-- A scene stays in order when a view is added to an engine that exists. -/
theorem Orderly.insertView [UnitScalar K] (h : Orderly s) (name : String) {engine : EngineId}
    (he : engine < s.engines.length) (frame : Rect K) (insets : Insets K) :
    Orderly (s.insertView name engine frame insets).2 where
  numbered := h.numbered.insertView name he frame insets
  faithful := (insertView_evolves (A := fun _ => True) (B := fun _ => True) s name engine frame insets
    fun _ _ => trivial).faithful h.faithful
  pins := h.pins.insertView name engine frame insets

/-- A scene stays in order whether a request for activity is granted or not. -/
theorem trySetActive_orderly [UnitScalar K] (c : ConstraintId) (active : Bool) (h : Orderly s) :
    Orderly (s.trySetActive c active).2 where
  numbered := h.numbered.trySetActive c active
  faithful := (h.numbered.trySetActive_evolves (A := fun _ => True) (B := fun _ => True) c active
    fun _ _ => ⟨trivial, trivial⟩).faithful h.faithful
  pins := h.pins.of_pins (trySetActive_retains s c active).pins

end

/-! ## Views that are held -/

section

variable {K : Type}

/-- The number `n` is that of no constraint of the scene, and that of no pin on record but of the view
`w`. -/
structure Spares (n : Nat) (w : ViewId) (s : Scene K) : Prop where
  number : n < s.nextLinear
  linears : ∀ c ∈ s.constraints.map AnchorConstraint.linear, c.id ≠ n
  pins : ∀ view v, view ≠ w → s.views[view]? = some v → ∀ c ∈ v.pinned, c.id ≠ n

/-- The constraints of the scene may be taken back from an engine. -/
theorem Spares.others {n : Nat} {w : ViewId} {s : Scene K} (h : Spares n w s) :
    ∀ r ∈ s.constraints, True ∧ r.linear.id ≠ n :=
  fun _ hr => ⟨trivial, h.linears _ (List.mem_map_of_mem hr)⟩

end

section

variable {K : Type} [Scalar K] {s t : Scene K} {w : ViewId} {rect : Rect K}

/-- An unknown is pinned to a number in an engine, by an equation that is none of the constraints of
the scene. -/
def PinnedIn (s : Scene K) (i : EngineId) (v : Variable) (x : K) : Prop :=
  ∃ e, s.engines[i]? = some e ∧ ∃ n σ marker k, Agree k x ∧
    (∀ c ∈ s.constraints.map AnchorConstraint.linear, c.id ≠ n) ∧ e.Pinned n v σ marker k

/-- Each quantity of the view `w` is pinned to what a rectangle has for it. -/
def HeldAt (s : Scene K) (w : ViewId) (rect : Rect K) : Prop :=
  ∃ v, s.views[w]? = some v ∧ ∀ q, s.PinnedIn v.engine ⟨w, q⟩ (rect.component q)

/-- What a solver holds under a number is what is on record with it. So a pin that is held is on record
for no other view. -/
theorem Orderly.spares (h : Orderly s) {e : Engine K} (he : e ∈ s.engines) {n : Nat} {q : Quantity}
    {σ marker : Symbol} {k : K} (pinned : e.Pinned n ⟨w, q⟩ σ marker k)
    (linears : ∀ c ∈ s.constraints.map AnchorConstraint.linear, c.id ≠ n) : Spares n w s := by
  obtain ⟨mine, hmine, -, hmentioned⟩ := pinned.solver.held
  have hentry := OrderedMap.mem_entries_of_get? hmine
  have hheld : mine.constraint ∈ e.solver.constraints := List.mem_map_of_mem (List.mem_map_of_mem hentry)
  have hid : mine.constraint.id = n := (h.numbered.numbering.keyed e he).key _ hentry
  refine ⟨hid ▸ h.numbered.numbering.held_below e he _ hheld, linears, ?_⟩
  intro view v hview hv c hc hcn
  have hpin : c ∈ s.pinsOf view := by
    rw [pinsOf, hv]
    exact hc
  have known : c = mine.constraint := h.numbered.numbering.held_known e he _ hheld c
    (mem_linears_of_pinsOf hpin) (hcn.trans hid.symm)
  exact hview (h.pins view c hpin _ (known ▸ hmentioned)).symm

variable [UnitScalar K]

/-- A view that is held is read at its rectangle. -/
theorem HeldAt.frame (h : HeldAt s w rect) (hs : Orderly s) (q : Quantity) :
    Agree ((s.frame w).1.component q) (rect.component q) := by
  obtain ⟨v, hv, pinned⟩ := h
  obtain ⟨e, he, n, σ, marker, k, agree, -, hp⟩ := pinned q
  rw [frame_component hv he q]
  exact (hp.value (hs.faithful e (List.mem_of_getElem? he))).trans agree

/-- A view stays held through whatever does not ask for its equations to be removed. -/
theorem HeldAt.evolves (h : HeldAt s w rect) (hs : Orderly s) (grows : Grows s t)
    (linears : ∀ c ∈ t.constraints.map AnchorConstraint.linear,
      c ∈ s.constraints.map AnchorConstraint.linear ∨ s.nextLinear ≤ c.id)
    (evolves : ∀ n, Spares n w s → EvolvesBy (fun _ => True) (fun c => c.id ≠ n) s t) :
    HeldAt t w rect := by
  obtain ⟨v, hv, pinned⟩ := h
  obtain ⟨v', hv', same⟩ := grows.view hv
  have engine : v'.engine = v.engine := congrArg Prod.snd same
  refine ⟨v', hv', fun q => ?_⟩
  obtain ⟨e, he, n, σ, marker, k, agree, apart, hp⟩ := pinned q
  have hmem := List.mem_of_getElem? he
  have spares := hs.spares hmem hp apart
  obtain ⟨e', he', hreach⟩ := (evolves n spares).exists_reaches he
  refine ⟨e', engine ▸ he', n, σ, marker, k, agree, ?_, hp.reaches (hs.faithful e hmem) hreach⟩
  intro c hc
  rcases linears c hc with hc | hc
  · exact apart c hc
  · exact Nat.ne_of_gt (Nat.lt_of_lt_of_le spares.number hc)

/-- A view stays held while an engine is added. -/
theorem HeldAt.appendEngine (h : HeldAt s w rect) (hs : Orderly s) (config : Config K)
    (root : ViewId) :
    HeldAt { s with engines := s.engines ++ [Engine.create config root] } w rect :=
  h.evolves hs (appendEngine_grows s config root) (fun _ => .inl)
    fun _ _ => appendEngine_evolves s config root

/-- A view stays held while another is added, to its own engine or to another. -/
theorem HeldAt.insertView (h : HeldAt s w rect) (hs : Orderly s) (name : String) (engine : EngineId)
    (frame : Rect K) (insets : Insets K) :
    HeldAt (s.insertView name engine frame insets).2 w rect := by
  refine h.evolves hs (insertView_grows s name engine frame insets) ?_
    fun _ _ => insertView_evolves s name engine frame insets fun _ _ => trivial
  rw [insertView_constraints]
  exact fun _ => .inl

/-- What is kept while a view is held. -/
structure KeepsHeld (w : ViewId) (rect : Rect K) (s t : Scene K) : Prop where
  orderly : Orderly s → Orderly t
  held : Orderly s → HeldAt s w rect → HeldAt t w rect

/-- A request that makes nothing keeps a view held if it removes none of its pins. -/
theorem KeepsHeld.of_steady (orderly : Orderly s → Orderly t) (steady : Steady s t)
    (evolves : Orderly s → ∀ n, Spares n w s → EvolvesBy (fun _ => True) (fun c => c.id ≠ n) s t) :
    KeepsHeld w rect s t :=
  ⟨orderly, fun hs h => h.evolves hs steady.grows
    (fun _ hc => .inl (steady.linears ▸ hc)) (evolves hs)⟩

/-- A view stays held while it is asked to be held, and while others are held or released. -/
theorem setPinned_keepsHeld (s : Scene K) {view : ViewId} {enabled : Bool}
    (kept : enabled = false → view ≠ w) : KeepsHeld w rect s (s.setPinned view enabled) := by
  refine .of_steady (orderly_stable.setPinned s view enabled) (setPinned_steady s view enabled) ?_
  intro hs n spares
  exact hs.numbered.setPinned_evolves view enabled (fun _ _ _ _ => trivial)
    fun hoff v hv => spares.pins view v (kept hoff) hv

/-- A constraint that is switched is no pin, so a view stays held. -/
theorem trySetActive_keepsHeld (s : Scene K) (c : ConstraintId) (active : Bool) :
    KeepsHeld w rect s (s.trySetActive c active).2 :=
  .of_steady (trySetActive_orderly c active) (trySetActive_steady s c active)
    fun hs _ spares => hs.numbered.trySetActive_evolves c active spares.others

/-- Requests that make nothing and release no view keep a view held. -/
theorem keepsHeld_base : StableBase (KeepsHeld (K := K) w rect) where
  refl _ := ⟨id, fun _ => id⟩
  trans h h' := ⟨h'.orderly ∘ h.orderly, fun hs hw => h'.held (h.orderly hs) (h.held hs hw)⟩
  setActive s c active := .of_steady (orderly_stable.setActive s c active)
    (setActive_steady s c active) fun hs _ spares => hs.numbered.setActive_evolves c active spares.others
  setInsets s view insets := .of_steady (orderly_stable.setInsets s view insets)
    (steady_modifyView s view fun _ => rfl) fun _ _ _ => .of_engines rfl
  frame s view := .of_steady (orderly_stable.frame s view) (frame_steady s view)
    fun _ _ _ => frame_evolves s view
  report s a := ⟨orderly_stable.report s a, fun _ h => h⟩

/-- Making a constraint asks no engine for anything, so a view stays held. -/
theorem keepsHeld_relates : Relates (fun _ => True) (KeepsHeld (K := K) w rect) where
  relate s lhs relation rhs offset _ _ := by
    refine ⟨orderly_stable.relate s lhs relation rhs offset, fun hs h => ?_⟩
    refine h.evolves hs (grows_stable.relate s lhs relation rhs offset) ?_ fun _ _ => .of_engines rfl
    intro c hc
    rw [relate_linears] at hc
    refine (List.mem_append.1 hc).imp_right fun hc => ?_
    rw [List.mem_singleton.1 hc]
    exact Nat.le_refl _
  relateNumber s lhs value _ := by
    refine ⟨orderly_stable.relateNumber s lhs value, fun hs h => ?_⟩
    refine h.evolves hs (grows_stable.relateNumber s lhs value) ?_ fun _ _ => .of_engines rfl
    intro c hc
    rw [relateNumber_linears] at hc
    refine (List.mem_append.1 hc).imp_right fun hc => ?_
    rw [List.mem_singleton.1 hc]
    exact Nat.le_refl _

end

end Scene

end ViewConstraints
