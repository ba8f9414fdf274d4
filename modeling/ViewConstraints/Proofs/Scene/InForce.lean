import Mathlib.Data.List.Flatten
import ViewConstraints.Proofs.Scene.Log
import ViewConstraints.Proofs.Scene.Numbering

/-!
# What the solvers hold is what is in force

Activity flags, pins on record and the held sets of the solvers are three stores, changed by
different parts of each request. `InStep` says that they agree: every solver holds exactly the linear
constraints of the active constraints of its engine and the pins on record for the engine's views.
While pins pass between a record and a solver, they are counted on the side.

As long as no solver fails from within, every request keeps the stores in step, and the only refusal
there is says that a constraint is unsatisfiable (`Accounted`, `accounted_stable`).
`Session.held_perm_inForce` says it of every run of a session.
-/

namespace ViewConstraints

open Linear Simplex
open scoped List

namespace Scene

section

variable {K : Type}

/-- The linear constraints in force for an engine: those of its active constraints, and the pins on
record for its views. -/
def inForce (s : Scene K) (i : EngineId) : List (Constraint K) :=
  (s.constraints.filter fun r => r.engine = i ∧ r.active).map AnchorConstraint.linear ++
    (s.views.filter fun v => v.engine = i).flatMap View.pinned

/-- The linear constraints the solver of an engine holds. -/
def heldBy (s : Scene K) (i : EngineId) : List (Constraint K) :=
  (s.engines[i]?.map fun e => e.solver.constraints).getD []

/-- A list that belongs to engine `j`, seen from engine `i`. -/
def seenFrom (i j : EngineId) (l : List (Constraint K)) : List (Constraint K) :=
  if j = i then l else []

/-- Every solver holds what is in force for its engine, and that of engine `j` also the constraints
in `passing`. -/
def InStep (j : EngineId) (passing : List (Constraint K)) (s : Scene K) : Prop :=
  ∀ i, s.heldBy i ~ seenFrom i j passing ++ s.inForce i

/-- The stores of a scene are in step up to the constraints in `passing`, which belong to engine `j`,
and nothing has been refused but as unsatisfiable. -/
structure Accounted (j : EngineId) (passing : List (Constraint K)) (s : Scene K) : Prop where
  numbered : Numbered passing s
  inStep : InStep j passing s
  refused : ∀ cause ∈ s.causes, cause = .unsatisfiable

@[simp] theorem seenFrom_self (i : EngineId) (l : List (Constraint K)) : seenFrom i i l = l :=
  if_pos rfl

@[simp] theorem seenFrom_nil (i j : EngineId) : seenFrom i j ([] : List (Constraint K)) = [] :=
  ite_self []

/-- Two lists of one engine are both seen or both unseen. -/
theorem seenFrom_append (i j : EngineId) (l m : List (Constraint K)) :
    seenFrom i j (l ++ m) = seenFrom i j l ++ seenFrom i j m := by
  rw [seenFrom]
  split
  next h => rw [h, seenFrom_self, seenFrom_self]
  next h => rw [seenFrom, seenFrom, if_neg h, if_neg h, List.append_nil]

/-! ## What is in force -/

/-- What is in force, constraint by constraint and view by view. -/
theorem inForce_eq_flatMap (s : Scene K) (i : EngineId) :
    s.inForce i = (s.constraints.flatMap fun r => if r.active then seenFrom i r.engine [r.linear] else []) ++
      s.views.flatMap fun v => seenFrom i v.engine v.pinned := by
  unfold inForce
  congr 1
  · induction s.constraints with
    | nil => rfl
    | cons r rest ih =>
      rw [List.filter_cons, List.flatMap_cons, ← ih, seenFrom]
      by_cases hr : r.engine = i <;> cases r.active <;> simp [hr]
  · induction s.views with
    | nil => rfl
    | cons v rest ih =>
      rw [List.filter_cons, List.flatMap_cons, ← ih, seenFrom]
      by_cases hv : v.engine = i <;> simp [hv]

/-- What is in force is part of what a scene has linear constraints for. -/
theorem inForce_sublist (s : Scene K) (i : EngineId) : s.inForce i <+ s.linears := by
  refine List.Sublist.append (List.filter_sublist.map _) ?_
  exact List.filter_sublist.flatMap _

/-- A change of one constraint's activity changes what is in force for its engine. -/
theorem inForce_switch {s : Scene K} {r : AnchorConstraint K} {c : ConstraintId}
    (hr : s.constraints[c]? = some r) (active : Bool) (i : EngineId) :
    (if r.active then seenFrom i r.engine [r.linear] else []) ++ (s.switch c r active).inForce i ~
      (if active then seenFrom i r.engine [r.linear] else []) ++ s.inForce i := by
  have h := flatMap_modify_perm hr (fun r => { r with active })
    fun r => if r.active then seenFrom i r.engine [r.linear] else []
  rw [inForce_eq_flatMap, inForce_eq_flatMap, ← List.append_assoc, ← List.append_assoc]
  exact h.append_right _

/-- A change of one view's pins changes what is in force for its engine. -/
theorem inForce_modifyView {s : Scene K} {v : View K} {view : ViewId} (hv : s.views[view]? = some v)
    {f : View K → View K} (hf : (f v).engine = v.engine) (i : EngineId) :
    seenFrom i v.engine v.pinned ++ (s.modifyView view f).inForce i ~
      seenFrom i v.engine (f v).pinned ++ s.inForce i := by
  have h := flatMap_modify_perm hv f fun v => seenFrom i v.engine v.pinned
  rw [hf] at h
  rw [inForce_eq_flatMap, inForce_eq_flatMap]
  calc _ ~ _ := List.perm_append_comm_assoc _ _ _
    _ ~ _ := h.append_left _
    _ ~ _ := List.perm_append_comm_assoc _ _ _

/-- The linear constraints in force have distinct numbers. -/
theorem Numbered.inForce_nodup {s : Scene K} {passing : List (Constraint K)}
    (h : Numbered passing s) (i : EngineId) : ((s.inForce i).map Constraint.id).Nodup := by
  have hsub : s.inForce i <+ passing ++ s.linears :=
    (inForce_sublist s i).trans (List.sublist_append_right _ _)
  exact (hsub.map _).nodup h.numbering.distinct

/-- The records say what is in force. -/
theorem SameRecords.inForce {s t : Scene K} (h : SameRecords s t) (i : EngineId) :
    t.inForce i = s.inForce i := by
  rw [Scene.inForce, Scene.inForce, h.views, h.constraints]

/-- What an engine holds when the engine of a request is put back changed. -/
theorem heldBy_set {s : Scene K} {i : EngineId} (hi : i < s.engines.length) (e : Engine K)
    (j : EngineId) :
    ({ s with engines := s.engines.set i e } : Scene K).heldBy j =
      if i = j then e.solver.constraints else s.heldBy j := by
  rw [heldBy, List.getElem?_set, if_pos hi]
  split <;> rfl

/-! ## Scenes with the same stores -/

namespace Accounted

variable {s : Scene K} {j : EngineId} {passing : List (Constraint K)}

/-- With nothing on the way, it does not matter which engine it would belong to. -/
theorem of_nil (h : Accounted j [] s) (i : EngineId) : Accounted i [] s where
  numbered := h.numbered
  inStep k := by
    rw [seenFrom_nil]
    exact seenFrom_nil k j ▸ h.inStep k
  refused := h.refused

/-- With nothing on the way, solvers hold what is in force. -/
theorem heldBy_perm (h : Accounted j [] s) (i : EngineId) : s.heldBy i ~ s.inForce i := by
  have inStep := h.inStep i
  rwa [seenFrom_nil, List.nil_append] at inStep

/-- A scene whose solvers hold the same, and in which the same is in force. -/
theorem of_eq {t : Scene K} (h : Accounted j passing s) (hn : Numbered passing t)
    (hheld : ∀ i, t.heldBy i = s.heldBy i) (hforce : ∀ i, t.inForce i ~ s.inForce i)
    (hlog : t.log = s.log) : Accounted j passing t where
  numbered := hn
  inStep i := by
    rw [hheld]
    exact (h.inStep i).trans ((hforce i).symm.append_left _)
  refused := by
    rw [causes, hlog]
    exact h.refused

/-- A report that is about no refusal, or about one as unsatisfiable. -/
theorem emit (h : Accounted j passing s) {event : Event K}
    (he : ∀ cause, event.cause? = some cause → cause = .unsatisfiable) :
    Accounted j passing (s.emit event) where
  numbered := h.numbered.emit event
  inStep := h.inStep
  refused cause hc := by
    rw [causes_emit, List.mem_append, Option.mem_toList] at hc
    exact hc.elim (h.refused cause) (he cause)

end Accounted

/-- A number that was not given out is held by no solver. -/
theorem Numbered.notMem_heldBy {s : Scene K} {passing : List (Constraint K)}
    (h : Numbered passing s) (i : EngineId) {c : Constraint K} (hc : s.nextLinear ≤ c.id) : c ∉ s.heldBy i := by
  intro hmem
  unfold heldBy at hmem
  cases he : s.engines[i]? with
  | none =>
    rw [he] at hmem
    cases hmem
  | some e =>
    rw [he] at hmem
    have := h.numbering.held_below e (List.mem_of_getElem? he) c hmem
    omega

/-- An active constraint is in force for its engine. -/
theorem mem_inForce {s : Scene K} {r : AnchorConstraint K} (hr : r ∈ s.constraints) (hactive : r.active = true) :
    r.linear ∈ s.inForce r.engine :=
  List.mem_append_left _ <| List.mem_map_of_mem <| List.mem_filter.2 ⟨hr, by simp [hactive]⟩

/-- The pins on record for a view are in force for its engine. -/
theorem mem_inForce_of_pinned {s : Scene K} {view : ViewId} {v : View K} (hv : s.views[view]? = some v)
    {c : Constraint K} (hc : c ∈ v.pinned) : c ∈ s.inForce v.engine :=
  List.mem_append_right _ <| List.mem_flatMap.2
    ⟨v, List.mem_filter.2 ⟨List.mem_of_getElem? hv, decide_eq_true rfl⟩, hc⟩

/-- The linear form of an inactive constraint is not in force: no other constraint and no pin has its
number. -/
theorem Numbered.notMem_inForce {s : Scene K} (h : Numbered [] s) {r : AnchorConstraint K}
    {c : ConstraintId} (hr : s.constraints[c]? = some r) (hinactive : r.active = false) :
    r.linear ∉ s.inForce r.engine := by
  intro hmem
  have switched := (h.switch c r true).inForce_nodup r.engine
  have exchange := inForce_switch hr true r.engine
  simp only [hinactive, Bool.false_eq_true, if_false, if_true, List.nil_append, seenFrom_self]
    at exchange
  have both := (exchange.map Constraint.id).nodup_iff.1 switched
  rw [List.singleton_append, List.map_cons, List.nodup_cons] at both
  exact both.1 (List.mem_map_of_mem hmem)

/-- A constraint is made inactive, so it is in force for no engine until it is asked to be. -/
theorem Accounted.insertConstraint {s : Scene K} {j : EngineId} (h : Accounted j [] s) {engine : EngineId}
    (he : engine < s.engines.length) (relationship : Relationship K) {c : Constraint K}
    (hc : c.id = s.nextLinear) :
    Accounted j [] (s.freshLinear.2.insertConstraint engine relationship c).2 := by
  refine h.of_eq (h.numbered.insertConstraint he relationship hc) (fun _ => rfl) ?_ rfl
  intro i
  simp [inForce, Scene.insertConstraint, freshLinear]

/-- A change of a view that is neither one of its engine nor of its pins. -/
theorem Accounted.modifyView {s : Scene K} {j : EngineId} (h : Accounted j [] s) (view : ViewId)
    {f : View K → View K} (he : ∀ v, (f v).engine = v.engine) (hp : ∀ v, (f v).pins = v.pins) :
    Accounted j [] (s.modifyView view f) := by
  refine h.of_eq (h.numbered.modifyView view he hp) (fun _ => rfl) (fun i => .of_eq ?_) rfl
  rw [inForce_eq_flatMap, inForce_eq_flatMap, Scene.modifyView, List.flatMap_def (l := s.views.modify _ _),
    List.flatMap_def (l := s.views)]
  dsimp only
  rw [map_modify_of_eq fun v => by rw [View.pinned, View.pinned, hp v, he v]]

end

variable {K : Type} [Scalar K] {s : Scene K} {passing : List (Constraint K)}

/-! ## Requests of a solver -/

/-- A constraint that is not held yet is taken in, is refused as unsatisfiable without a change to
what is held, or meets a failure of the solver. -/
theorem addLinear_outcome (h : Numbered passing s) {i : EngineId} (hi : i < s.engines.length)
    {c : Constraint K} (hc : c ∈ passing ++ s.linears) (hnew : c ∉ s.heldBy i) :
    ((s.addLinear i c).1 = .ok () ∧
      ∀ j, (s.addLinear i c).2.heldBy j ~ seenFrom j i [c] ++ s.heldBy j) ∨
    ((s.addLinear i c).1 = .error .unsatisfiable ∧
      ∀ j, (s.addLinear i c).2.heldBy j = s.heldBy j) ∨
    ∃ message, (s.addLinear i c).1 = .error (.internal message) := by
  obtain ⟨e, he⟩ : ∃ e, s.engines[i]? = some e := ⟨_, List.getElem?_eq_getElem hi⟩
  have hmem : e ∈ s.engines := List.mem_of_getElem? he
  have hheld : s.heldBy i = e.solver.constraints := by rw [heldBy, he]; rfl
  have hfree : e.solver.holds c.id = false :=
    Solver.holds_eq_false_of_notMem (h.numbering.keyed e hmem) fun d hd heq =>
      hnew (hheld ▸ h.numbering.held_known e hmem d hd c hc heq.symm ▸ hd)
  simp only [Scene.addLinear, he, Engine.add]
  obtain ⟨ha, hp⟩ | ⟨ha, hs⟩ | ⟨failure, ha⟩ :=
    Solver.addConstraint_outcome (h.numbering.keyed e hmem) hfree
  · refine .inl ⟨by rw [ha]; rfl, ?_⟩
    intro j
    rw [heldBy_set hi, seenFrom]
    split
    next hj => exact hj ▸ hheld ▸ hp
    next => exact .refl _
  · refine .inr (.inl ⟨by rw [ha]; rfl, ?_⟩)
    intro j
    rw [heldBy_set hi]
    split
    next hj => rw [← hj, hheld, ← hs]
    next => rfl
  · exact .inr (.inr ⟨failure.message, by rw [ha]; rfl⟩)

/-- A constraint that is held is taken out, or meets a failure of the solver. -/
theorem removeLinear_outcome (h : Numbered passing s) {i : EngineId} (hi : i < s.engines.length)
    {c : Constraint K} (hc : c ∈ s.heldBy i) :
    ((s.removeLinear i c).1 = .ok () ∧
      ∀ j, s.heldBy j ~ seenFrom j i [c] ++ (s.removeLinear i c).2.heldBy j) ∨
    ∃ message, (s.removeLinear i c).1 = .error (.internal message) := by
  obtain ⟨e, he⟩ : ∃ e, s.engines[i]? = some e := ⟨_, List.getElem?_eq_getElem hi⟩
  have hheld : s.heldBy i = e.solver.constraints := by rw [heldBy, he]; rfl
  simp only [Scene.removeLinear, he, Engine.remove]
  obtain ⟨ha, hp⟩ | ⟨failure, ha⟩ :=
    Solver.removeConstraint_outcome (h.numbering.keyed e (List.mem_of_getElem? he)) (hheld ▸ hc)
  · refine .inl ⟨by rw [ha]; rfl, ?_⟩
    intro j
    rw [heldBy_set hi, seenFrom]
    split
    next hj => exact hj ▸ hheld ▸ hp
    next => exact .refl _
  · exact .inr ⟨failure.message, by rw [ha]; rfl⟩

/-! ## Requests keep the stores in step -/

/-- One pin more, accepted or refused as unsatisfiable. An accepted one is passing until all four have
been tried, and only then goes on record. -/
theorem Accounted.pinPart (view : ViewId) (name : String) {engine : EngineId}
    {acc : List (Constraint K) × Scene K} (part : Quantity × K) (h : Accounted engine acc.1 acc.2)
    (hi : engine < acc.2.engines.length)
    (clean : (Scene.pinPart view name engine acc part).2.Clean) :
    Accounted engine (Scene.pinPart view name engine acc part).1
      (Scene.pinPart view name engine acc part).2 := by
  obtain ⟨pins, s⟩ := acc
  have numbered := h.numbered.pinPart view name engine part
  have fresh := h.numbered.freshLinear (c := pinConstraint s.nextLinear view part) rfl
  have outcome := addLinear_outcome fresh hi (.head _) (h.numbered.notMem_heldBy engine (Nat.le_refl _))
  have records := addLinear_records s.freshLinear.2 engine (pinConstraint s.nextLinear view part)
  have log := addLinear_log s.freshLinear.2 engine (pinConstraint s.nextLinear view part)
  unfold Scene.pinPart at numbered clean ⊢
  dsimp only [Scene.freshLinear] at numbered clean outcome records log ⊢
  generalize addLinear _ engine (pinConstraint s.nextLinear view part) = a
    at numbered clean outcome records log ⊢
  obtain ⟨cause | _, t⟩ := a
  · have hcause : cause.isInternal = false :=
      clean cause (List.mem_filterMap.2 ⟨_, List.mem_append_right _ (.head _), rfl⟩)
    obtain ⟨ha, -⟩ | ⟨ha, hheld⟩ | ⟨_, ha⟩ := outcome <;> cases ha
    · have kept : Accounted engine pins t :=
        h.of_eq ⟨numbered.numbering, numbered.viewEngine, numbered.constraintEngine, numbered.engine⟩
          hheld (fun i => .of_eq (records.inForce i)) log
      exact kept.emit fun _ hc => (Option.some.inj hc).symm
    · cases hcause
  · obtain ⟨-, hheld⟩ | ⟨ha, -⟩ | ⟨_, ha⟩ := outcome
    · refine ⟨numbered, ?_, fun cause hc => h.refused cause ?_⟩
      · intro i
        calc t.heldBy i
          _ ~ seenFrom i engine [pinConstraint s.nextLinear view part] ++ s.heldBy i := hheld i
          _ ~ seenFrom i engine [pinConstraint s.nextLinear view part] ++
              (seenFrom i engine pins ++ s.inForce i) := (h.inStep i).append_left _
          _ ~ seenFrom i engine (pins ++ [pinConstraint s.nextLinear view part]) ++ t.inForce i := by
            rw [records.inForce i, seenFrom_append, List.append_assoc]
            exact List.perm_append_comm_assoc _ _ _
      · rwa [causes, log] at hc
    · cases ha
    · cases ha

/-- Pins that the solver takes are put on record, and those it refuses are not. -/
theorem Accounted.pin {j : EngineId} (h : Accounted j [] s) (view : ViewId)
    (clean : (s.pin view).Clean) : Accounted j [] (s.pin view) := by
  have numbered := h.numbered.pin view
  revert clean numbered
  refine pin_induction (Q := fun t => t.Clean → Numbered [] t → Accounted j [] t)
    (fun v acc => SameRecords s acc.2 ∧ (acc.2.Clean → Accounted v.engine acc.1 acc.2))
    (fun _ _ _ => h) (fun v _ _ => ⟨.refl s, fun _ => h.of_nil v.engine⟩) ?_ ?_
  · rintro v hv acc part _ ⟨records, passing⟩
    have hi := h.numbered.viewEngine v (List.mem_of_getElem? hv)
    refine ⟨records.trans (pinPart_records view v.name v.engine acc part), fun clean => ?_⟩
    have before := clean.of_prefix (pinPart_log view v.name v.engine acc part)
    exact (passing before).pinPart view v.name part (records.engines ▸ hi) clean
  · rintro v hv unpinned pins t ⟨records, passing⟩ clean numbered
    have hnone : v.pinned = [] := by
      rw [View.isPinned, Option.isSome_eq_false_iff, Option.isNone_iff_eq_none] at unpinned
      rw [View.pinned, unpinned]
      rfl
    have passed : Accounted v.engine pins t := passing clean
    refine Accounted.of_nil (j := v.engine) ⟨numbered, ?_, passed.refused⟩ j
    intro i
    have exchange := inForce_modifyView (s := t) (records.views ▸ hv)
      (f := fun v => { v with pins := some pins }) rfl i
    rw [hnone, seenFrom_nil] at exchange
    rw [seenFrom_nil]
    exact (passed.inStep i).trans exchange.symm

/-- One pin less. It was held, so only a failure could keep it from leaving. -/
theorem Accounted.unpinPart (view : ViewId) (name : String) {engine : EngineId} {c : Constraint K}
    {rest : List (Constraint K)} (h : Accounted engine (c :: rest) s)
    (hi : engine < s.engines.length) (clean : (Scene.unpinPart view name engine s c).Clean) :
    Accounted engine rest (Scene.unpinPart view name engine s c) := by
  have held : c ∈ s.heldBy engine :=
    (h.inStep engine).mem_iff.2 (List.mem_append_left _ (seenFrom_self engine _ ▸ .head _))
  have numbered := h.numbered.unpinPart view name engine c
  have outcome := removeLinear_outcome h.numbered hi held
  have records := removeLinear_records s engine c
  have log := removeLinear_log s engine c
  unfold Scene.unpinPart at numbered clean ⊢
  generalize s.removeLinear engine c = a at numbered clean outcome records log ⊢
  obtain ⟨cause | _, t⟩ := a
  · have hcause : cause.isInternal = false :=
      clean cause (List.mem_filterMap.2 ⟨_, List.mem_append_right _ (.head _), rfl⟩)
    obtain ⟨ha, -⟩ | ⟨_, ha⟩ := outcome <;> cases ha
    cases hcause
  · obtain ⟨-, hheld⟩ | ⟨_, ha⟩ := outcome
    · refine ⟨?_, ?_, fun cause hc => h.refused cause ?_⟩
      · exact { numbered with numbering := numbered.numbering.subperm (List.sublist_cons_self _ _).subperm }
      · intro i
        have taken : seenFrom i engine [c] ++ t.heldBy i ~
            seenFrom i engine [c] ++ (seenFrom i engine rest ++ t.inForce i) :=
          calc seenFrom i engine [c] ++ t.heldBy i
            _ ~ s.heldBy i := (hheld i).symm
            _ ~ seenFrom i engine ([c] ++ rest) ++ s.inForce i := h.inStep i
            _ ~ seenFrom i engine [c] ++ (seenFrom i engine rest ++ t.inForce i) := by
              rw [records.inForce i, seenFrom_append, List.append_assoc]
        exact (List.perm_append_left_iff _).1 taken
      · rwa [causes, log] at hc
    · cases ha

/-- The pins of a view are struck off its record and taken out of the solver one by one, so that those
still to come are counted as passing. -/
theorem Accounted.unpin {j : EngineId} (h : Accounted j [] s) (view : ViewId)
    (clean : (s.unpin view).Clean) : Accounted j [] (s.unpin view) := by
  revert clean
  refine unpin_induction (Q := fun t => t.Clean → Accounted j [] t)
    (fun v pins t => v.engine < t.engines.length ∧ (t.Clean → Accounted v.engine pins t))
    (fun _ _ => h) ?_ ?_ ?_
  · intro v pins hv hpins
    refine ⟨h.numbered.viewEngine v (List.mem_of_getElem? hv), fun _ => ?_⟩
    have hpinned : v.pinned = pins := by rw [View.pinned, hpins]; rfl
    refine ⟨hpinned ▸ h.numbered.unrecord hv, ?_, h.refused⟩
    intro i
    have exchange := inForce_modifyView hv (f := fun v => { v with pins := none }) rfl i
    rw [hpinned, show ({ v with pins := none } : View K).pinned = [] from rfl, seenFrom_nil]
      at exchange
    have before := (h.of_nil v.engine).inStep i
    rw [seenFrom_nil] at before
    exact before.trans exchange.symm
  · rintro v _ c pins t ⟨hi, passing⟩
    have records := unpinPart_records view v.name v.engine t c
    refine ⟨records.engines ▸ hi, fun clean => ?_⟩
    have before := clean.of_prefix (unpinPart_log view v.name v.engine t c)
    exact (passing before).unpinPart view v.name hi clean
  · rintro v _ t ⟨_, passing⟩ clean
    have left := passing (clean.of_prefix (List.prefix_append _ _))
    refine (left.of_nil j).emit ?_
    intro cause hcause
    cases hcause

/-- The solver of a constraint's engine grants a change of activity or refuses it as unsatisfiable, and
with the flag following a grant the stores stay in step. -/
theorem Accounted.requestActivity {j : EngineId} (h : Accounted j [] s) {r : AnchorConstraint K}
    {c : ConstraintId} (hr : s.constraints[c]? = some r) (active : Bool)
    (hactive : r.active = !active) :
    ((s.requestActivity r active).1 = .ok () ∧
      Accounted j [] ((s.requestActivity r active).2.switch c r active)) ∨
    ((s.requestActivity r active).1 = .error .unsatisfiable ∧
      Accounted j [] (s.requestActivity r active).2) ∨
    ∃ message, (s.requestActivity r active).1 = .error (.internal message) := by
  have hmem := List.mem_of_getElem? hr
  have hi := h.numbered.constraintEngine r hmem
  have inStep := h.heldBy_perm
  have numbered := h.numbered.requestActivity hmem active
  have log := requestActivity_log s r active
  have records := requestActivity_records s r active
  have exchange (i : EngineId) := inForce_switch (records.constraints ▸ hr) active i
  have refused : ∀ cause ∈ (s.requestActivity r active).2.causes, cause = .unsatisfiable := by
    rw [causes, log]
    exact h.refused
  simp only [records.inForce, hactive] at exchange
  -- Once the solver has taken the change, the flag has to follow it.
  have follow (hheld : ∀ i, (s.requestActivity r active).2.heldBy i ~
      ((s.requestActivity r active).2.switch c r active).inForce i) :
      Accounted j [] ((s.requestActivity r active).2.switch c r active) := by
    refine ⟨numbered.switch c r active, ?_, ?_⟩
    · intro i
      rw [seenFrom_nil]
      exact hheld i
    · rw [causes_switch]
      exact refused
  cases active with
  | true =>
    simp only [Bool.not_true, Bool.false_eq_true, if_false, if_true, List.nil_append] at exchange
    have hnew : r.linear ∉ s.heldBy r.engine := fun hheld =>
      h.numbered.notMem_inForce hr hactive ((inStep r.engine).mem_iff.1 hheld)
    obtain ⟨ha, hheld⟩ | ⟨ha, hheld⟩ | hfailed := addLinear_outcome h.numbered hi
      (List.mem_append_left (s.views.flatMap View.pinned) (List.mem_map_of_mem hmem)) hnew
    · exact .inl ⟨ha, follow fun i =>
        ((hheld i).trans ((inStep i).append_left _)).trans (exchange i).symm⟩
    · exact .inr (.inl ⟨ha, h.of_eq numbered hheld (fun i => .of_eq (records.inForce i)) log⟩)
    · exact .inr (.inr hfailed)
  | false =>
    simp only [Bool.not_false, Bool.false_eq_true, if_false, if_true, List.nil_append] at exchange
    have hold : r.linear ∈ s.heldBy r.engine := (inStep r.engine).mem_iff.2 (mem_inForce hmem hactive)
    obtain ⟨ha, hheld⟩ | hfailed := removeLinear_outcome h.numbered hi hold
    · exact .inl ⟨ha, follow fun i => (List.perm_append_left_iff _).1
        (((hheld i).symm.trans (inStep i)).trans (exchange i).symm)⟩
    · exact .inr (.inr hfailed)

/-- A request for activity is granted or refused as unsatisfiable, and keeps the stores in step: the
flag and the solver change together, or neither does. -/
theorem Accounted.trySetActive {j : EngineId} (h : Accounted j [] s) (c : ConstraintId)
    (active : Bool) (internal : ∀ error, (s.trySetActive c active).1 = .error error →
      error.cause.isInternal = false) :
    Accounted j [] (s.trySetActive c active).2 ∧
      ∀ error, (s.trySetActive c active).1 = .error error → error.cause = .unsatisfiable := by
  have switching := trySetActive_switching s c active
  generalize s.trySetActive c active = a at switching internal ⊢
  cases switching with
  | idle _ => exact ⟨h, fun _ he => by cases he⟩
  | refused r cause hr hne hreq =>
    have outcome := h.requestActivity hr active hne
    simp only [hreq] at outcome
    obtain ⟨ha, -⟩ | ⟨ha, kept⟩ | ⟨_, ha⟩ := outcome <;> cases ha
    · exact ⟨kept, fun _ he => by cases he; rfl⟩
    · cases internal _ rfl
  | switched r hr hne hreq =>
    have outcome := h.requestActivity hr active hne
    simp only [hreq] at outcome
    obtain ⟨-, kept⟩ | ⟨ha, -⟩ | ⟨_, ha⟩ := outcome
    · exact ⟨kept, fun _ he => by cases he⟩
    · cases ha
    · cases ha

/-- The request that logs its refusal keeps the stores in step, if the log is clean. -/
theorem Accounted.setActive {j : EngineId} (h : Accounted j [] s) (c : ConstraintId) (active : Bool)
    (clean : (s.setActive c active).Clean) : Accounted j [] (s.setActive c active) := by
  have tried := h.trySetActive c active
  unfold Scene.setActive at clean ⊢
  generalize s.trySetActive c active = a at tried clean ⊢
  obtain ⟨error | _, t⟩ := a
  · obtain ⟨kept, hcause⟩ := tried fun e he => by
      cases he
      exact clean error.cause (by rw [causes_emit]; exact List.mem_append_right _ (.head _))
    exact kept.emit fun _ hc => Option.some.inj hc ▸ hcause error rfl
  · exact (tried fun _ he => by cases he).1

/-- Making a relation between anchors leaves what is in force for every engine as it was. -/
theorem Accounted.relate {j : EngineId} (h : Accounted j [] s) (lhs : Anchor) (relation : Relation)
    (rhs : Anchor) (offset : K) : Accounted j [] (s.relate lhs relation rhs offset).2 :=
  h.insertConstraint (h.numbered.engineOf_lt lhs) _ rfl

/-- So does fixing an anchor at a number. -/
theorem Accounted.relateNumber {j : EngineId} (h : Accounted j [] s) (lhs : Anchor) (value : K) :
    Accounted j [] (s.relateNumber lhs value).2 :=
  h.insertConstraint (h.numbered.engineOf_lt lhs) _ rfl

/-- Reading a frame changes nothing that is held. -/
theorem frame_heldBy (s : Scene K) (view : ViewId) (i : EngineId) :
    (s.frame view).2.heldBy i = s.heldBy i := by
  have read := frame_read s view
  generalize s.frame view = a at read ⊢
  cases read with
  | absent => rfl
  | @learnt v e _ he =>
    rw [heldBy_set (List.getElem?_eq_some_iff.1 he).1]
    split
    next hi =>
      rw [← hi, heldBy, he]
      exact Solver.constraints_of_held e.solver.fetchChanges_held
    next => rfl

/-- A frame is read off what is reported; constraints are neither added nor removed for it. -/
theorem Accounted.frame {j : EngineId} (h : Accounted j [] s) (view : ViewId) :
    Accounted j [] (s.frame view).2 := by
  refine h.of_eq (h.numbered.frame view) (frame_heldBy s view) (fun i => ?_) (frame_log s view)
  exact .of_eq ((frame_records s view).inForce i)

/-- A view is pinned at the frame it is read at, or released, and in either case record and solver
change together. -/
theorem Accounted.setPinned {j : EngineId} (h : Accounted j [] s) (view : ViewId) (enabled : Bool)
    (clean : (s.setPinned view enabled).Clean) : Accounted j [] (s.setPinned view enabled) := by
  cases enabled with
  | true =>
    rw [Scene.setPinned, if_pos rfl] at clean ⊢
    have read := (h.frame view).modifyView view (f := fun v => { v with frame := (s.frame view).1 })
      (fun _ => rfl) fun _ => rfl
    exact read.pin view clean
  | false => exact h.unpin view clean

/-- A new view starts without pins. -/
theorem Accounted.insertView {j : EngineId} (h : Accounted j [] s) (name : String)
    {engine : EngineId} (he : engine < s.engines.length) (frame : Rect K) (insets : Insets K)
    (clean : (s.insertView name engine frame insets).2.Clean) :
    Accounted j [] (s.insertView name engine frame insets).2 := by
  refine Accounted.pin (s := { s with views := s.views ++ [{ name, engine, insets, frame }] }) ?_ _
    clean
  refine h.of_eq (h.numbered.appendView name he frame insets) (fun _ => rfl) (fun i => .of_eq ?_) rfl
  simp [inForce, View.pinned]

/-- A new engine holds nothing, and a number past the list of engines stands for one that holds
nothing too. -/
theorem heldBy_append (s : Scene K) (config : Config K) (root : ViewId) (i : EngineId) :
    ({ s with engines := s.engines ++ [Engine.create config root] } : Scene K).heldBy i =
      s.heldBy i := by
  unfold heldBy
  rcases Nat.lt_trichotomy i s.engines.length with hi | rfl | hi
  · rw [List.getElem?_append_left hi]
  · rw [List.getElem?_concat_length, List.getElem?_eq_none (Nat.le_refl _)]
    rfl
  · rw [List.getElem?_eq_none (by rw [List.length_append, List.length_singleton]; omega),
      List.getElem?_eq_none (by omega)]

/-- A scene is in step with a new engine if it is before the engine has its root view. -/
theorem accounted_addEngine {j : EngineId} {config : Config K}
    (h : Accounted j [] { s with engines := s.engines ++ [Engine.create config s.views.length] })
    (clean : (s.addEngine config).2.Clean) : Accounted j [] (s.addEngine config).2 :=
  h.insertView _ (by simp) _ _ clean

/-- A new engine has its root pinned, and the other engines are left alone. -/
theorem Accounted.addEngine {j : EngineId} (h : Accounted j [] s) (config : Config K)
    (clean : (s.addEngine config).2.Clean) : Accounted j [] (s.addEngine config).2 :=
  accounted_addEngine (h.of_eq (h.numbered.appendEngine config s.views.length)
    (heldBy_append s config _) (fun _ => .refl _) rfl) clean

/-- A new scene holds what is in force, which is at most its root's pins. -/
theorem accounted_start (config : Config K) (clean : (Scene.empty.addEngine config).2.Clean) :
    Accounted 0 [] (Scene.empty.addEngine config).2 := by
  refine accounted_addEngine ⟨numbered_start config _, ?_, List.forall_mem_nil _⟩ clean
  intro i
  rw [heldBy_append, seenFrom_nil]
  exact .refl _

/-- Every request keeps the stores of a scene in step, unless it reports a failure of a solver. -/
theorem accounted_stable : Stable fun s t : Scene K =>
    s.log <+: t.log ∧ (t.Clean → Accounted 0 [] s → Accounted 0 [] t) where
  refl _ := ⟨List.prefix_refl _, fun _ => id⟩
  trans h h' := ⟨h.1.trans h'.1, fun clean hs => h'.2 clean (h.2 (clean.of_prefix h'.1) hs)⟩
  addEngine s config := ⟨logged_stable.addEngine s config, fun clean h => h.addEngine config clean⟩
  addView s _ name frame he :=
    ⟨logged_stable.addView s _ name frame he, fun clean h => h.insertView name he frame _ clean⟩
  relate s lhs relation rhs offset :=
    ⟨logged_stable.relate s lhs relation rhs offset, fun _ h => h.relate lhs relation rhs offset⟩
  relateNumber s lhs value :=
    ⟨logged_stable.relateNumber s lhs value, fun _ h => h.relateNumber lhs value⟩
  setActive s c active :=
    ⟨logged_stable.setActive s c active, fun clean h => h.setActive c active clean⟩
  setPinned s view enabled :=
    ⟨logged_stable.setPinned s view enabled, fun clean h => h.setPinned view enabled clean⟩
  setInsets s view insets :=
    ⟨logged_stable.setInsets s view insets, fun _ h => h.modifyView view (fun _ => rfl) fun _ => rfl⟩
  frame s view := ⟨logged_stable.frame s view, fun _ h => h.frame view⟩
  report s a := ⟨logged_stable.report s a, fun _ h => h.emit nofun⟩

end Scene

end ViewConstraints
