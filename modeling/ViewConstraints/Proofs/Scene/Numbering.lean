import Mathlib.Data.List.Nodup
import Mathlib.Data.List.Perm.Subperm
import ViewConstraints.Proofs.Scene.Requests
import ViewConstraints.Proofs.Simplex.Held

/-!
# The numbers of linear constraints

A solver tells constraints apart by their numbers, so a scene must never give one number to two of
them. `Numbered` says that it does not: the constraints of the scene and the pins on record have
distinct numbers, all of them given out before, and whatever a solver holds under the number of one
of them is that constraint. Every request keeps this, refused or not (`numbered_stable`).

Pins pass between the record and a solver one at a time. While they do, they are carried along as a
list of their own, the first argument of `Numbered`.
-/

namespace ViewConstraints

open Linear Simplex
open scoped List

/-- The pins on record for a view. -/
def View.pinned {K : Type} (v : View K) : List (Constraint K) := v.pins.getD []

namespace Scene

section

variable {K : Type}

/-- The linear constraints of a scene: those of its constraints, active or not, and the pins on
record for its views. -/
def linears (s : Scene K) : List (Constraint K) :=
  s.constraints.map AnchorConstraint.linear ++ s.views.flatMap View.pinned

/-- The constraints `cs` have distinct numbers below `next`, and what a solver holds under the number
of one of them is that constraint. -/
structure Numbering (cs : List (Constraint K)) (engines : List (Engine K)) (next : Nat) : Prop where
  below : ∀ c ∈ cs, c.id < next
  distinct : (cs.map Constraint.id).Nodup
  keyed : ∀ e ∈ engines, e.solver.Keyed
  held_below : ∀ e ∈ engines, ∀ c ∈ e.solver.constraints, c.id < next
  held_known : ∀ e ∈ engines, ∀ c ∈ e.solver.constraints, ∀ d ∈ cs, d.id = c.id → d = c

/-- The constraints of a scene and those in `passing` are numbered apart, and every view and
constraint belongs to an engine of the scene. -/
structure Numbered (passing : List (Constraint K)) (s : Scene K) : Prop where
  numbering : Numbering (passing ++ s.linears) s.engines s.nextLinear
  viewEngine : ∀ v ∈ s.views, v.engine < s.engines.length
  constraintEngine : ∀ r ∈ s.constraints, r.engine < s.engines.length
  engine : 0 < s.engines.length

namespace Numbering

variable {cs ds : List (Constraint K)} {engines : List (Engine K)} {next : Nat}

/-- Numbers stay distinct when the list is reordered or shortened. -/
theorem subperm (h : Numbering cs engines next) (hd : ds.Subperm cs) :
    Numbering ds engines next where
  below c hc := h.below c (hd.subset hc)
  distinct := by
    obtain ⟨l, hl, hsub⟩ := hd
    exact (hl.map Constraint.id).nodup_iff.1 ((hsub.map Constraint.id).nodup h.distinct)
  keyed := h.keyed
  held_below := h.held_below
  held_known e he c hc d hdm := h.held_known e he c hc d (hd.subset hdm)

/-- A constraint with the next number. -/
theorem fresh (h : Numbering cs engines next) {c : Constraint K} (hc : c.id = next) :
    Numbering (c :: cs) engines (next + 1) where
  below d hd := by
    rcases List.mem_cons.1 hd with rfl | hd
    · omega
    · exact Nat.lt_succ_of_lt (h.below d hd)
  distinct := by
    rw [List.map_cons, List.nodup_cons, List.mem_map]
    refine ⟨?_, h.distinct⟩
    rintro ⟨d, hd, heq⟩
    have := h.below d hd
    omega
  keyed := h.keyed
  held_below e he d hd := Nat.lt_succ_of_lt (h.held_below e he d hd)
  held_known e he d hd k hk heq := by
    rcases List.mem_cons.1 hk with rfl | hk
    · have := h.held_below e he d hd
      omega
    · exact h.held_known e he d hd k hk heq

/-- A solver that holds at most one constraint more than before, a numbered one. -/
theorem set (h : Numbering cs engines next) {i : EngineId} {e e' : Engine K}
    (he : engines[i]? = some e) (hk : e'.solver.Keyed)
    (hheld : ∀ d ∈ e'.solver.constraints, d ∈ cs ∨ d ∈ e.solver.constraints) :
    Numbering cs (engines.set i e') next := by
  have hmem : e ∈ engines := List.mem_of_getElem? he
  refine ⟨h.below, h.distinct, fun f hf => ?_, fun f hf d hd => ?_, fun f hf d hd k hkm heq => ?_⟩
  all_goals rcases List.mem_or_eq_of_mem_set hf with hf | rfl
  · exact h.keyed f hf
  · exact hk
  · exact h.held_below f hf d hd
  · exact (hheld d hd).elim (h.below d) (h.held_below e hmem d)
  · exact h.held_known f hf d hd k hkm heq
  · rcases hheld d hd with hd | hd
    · exact List.inj_on_of_nodup_map h.distinct hkm hd heq
    · exact h.held_known e hmem d hd k hkm heq

/-- A new engine holds nothing. -/
theorem append (h : Numbering cs engines next) (config : Config K) (root : ViewId) [Scalar K] :
    Numbering cs (engines ++ [Engine.create config root]) next := by
  have none_held : (Engine.create config root).solver.constraints = [] := rfl
  refine ⟨h.below, h.distinct, fun f hf => ?_, fun f hf d hd => ?_, fun f hf d hd => ?_⟩
  all_goals rcases List.mem_append.1 hf with hf | hf
  · exact h.keyed f hf
  · rw [List.mem_singleton.1 hf]
    exact ⟨.nil, nofun⟩
  · exact h.held_below f hf d hd
  · rw [List.mem_singleton.1 hf, none_held] at hd
    cases hd
  · exact h.held_known f hf d hd
  · rw [List.mem_singleton.1 hf, none_held] at hd
    cases hd

end Numbering

/-- Changing one entry of a list, seen as what stands before and after it. -/
theorem exists_modify_eq {α : Type} {l : List α} {i : Nat} {x : α} (h : l[i]? = some x)
    (f : α → α) : ∃ before after, l = before ++ x :: after ∧ l.modify i f = before ++ f x :: after := by
  obtain ⟨hi, rfl⟩ := List.getElem?_eq_some_iff.1 h
  refine ⟨l.take i, l.drop (i + 1), ?_, List.modify_eq_take_cons_drop hi⟩
  rw [List.getElem_cons_drop, List.take_append_drop]

/-- A change of one entry that a function does not see. -/
theorem map_modify_of_eq {α β : Type} {f : α → α} {g : α → β} (h : ∀ x, g (f x) = g x)
    (l : List α) (i : Nat) : (l.modify i f).map g = l.map g := by
  refine List.ext_getElem? ?_
  intro j
  rw [List.getElem?_map, List.getElem?_map, List.getElem?_modify]
  cases l[j]? with
  | none => rfl
  | some x =>
    simp only [Option.map_some, Option.map_eq_map]
    split
    · rw [h]
    · rfl

/-- An entry that is replaced by one that a function does not tell from it. -/
theorem map_set_of_eq {α β : Type} {l : List α} {i : Nat} {x y : α} (hx : l[i]? = some x)
    {f : α → β} (h : f y = f x) : (l.set i y).map f = l.map f := by
  obtain ⟨hi, -⟩ := List.getElem?_eq_some_iff.1 hx
  refine List.ext_getElem? fun j => ?_
  rw [List.getElem?_map, List.getElem?_map]
  by_cases hj : i = j
  · subst hj
    rw [List.getElem?_set_self hi, hx, Option.map_some, Option.map_some, h]
  · rw [List.getElem?_set_ne hj]

/-- Two scenes with the same views and constraints and as many engines. -/
structure SameRecords (s t : Scene K) : Prop where
  views : t.views = s.views
  constraints : t.constraints = s.constraints
  engines : t.engines.length = s.engines.length

theorem SameRecords.refl (s : Scene K) : SameRecords s s := ⟨rfl, rfl, rfl⟩

theorem SameRecords.trans {s t u : Scene K} (h : SameRecords s t) (h' : SameRecords t u) :
    SameRecords s u :=
  ⟨h'.views.trans h.views, h'.constraints.trans h.constraints, h'.engines.trans h.engines⟩

/-- The linear constraints are read off the records. -/
theorem SameRecords.linears {s t : Scene K} (h : SameRecords s t) : t.linears = s.linears := by
  rw [Scene.linears, Scene.linears, h.views, h.constraints]

namespace Numbered

variable {s t : Scene K} {passing passing' : List (Constraint K)}

/-- Constraints that are no longer of interest may be left out. -/
theorem drop (h : Numbered passing s) : Numbered [] s :=
  { h with numbering := h.numbering.subperm (List.sublist_append_right _ _).subperm }

theorem perm (h : Numbered passing s) (hp : passing'.Perm passing) : Numbered passing' s :=
  { h with numbering := h.numbering.subperm (hp.append_right _).subperm }

/-- A scene with the same records and other engines. -/
theorem of_records (h : Numbered passing s) (hr : SameRecords s t)
    (hn : Numbering (passing ++ s.linears) t.engines t.nextLinear) : Numbered passing t where
  numbering := hr.linears ▸ hn
  viewEngine v hv := hr.engines ▸ h.viewEngine v (hr.views ▸ hv)
  constraintEngine r hc := hr.engines ▸ h.constraintEngine r (hr.constraints ▸ hc)
  engine := hr.engines ▸ h.engine

end Numbered

/-- Changing one entry of a list exchanges what a function makes of it. -/
theorem flatMap_modify_perm {α β : Type} {l : List α} {i : Nat} {x : α} (h : l[i]? = some x)
    (f : α → α) (g : α → List β) :
    g x ++ (l.modify i f).flatMap g ~ g (f x) ++ l.flatMap g := by
  obtain ⟨before, after, hl, hm⟩ := exists_modify_eq h f
  rw [hm, hl, List.flatMap_append, List.flatMap_append, List.flatMap_cons, List.flatMap_cons]
  calc g x ++ (before.flatMap g ++ (g (f x) ++ after.flatMap g))
    _ ~ g x ++ (g (f x) ++ (before.flatMap g ++ after.flatMap g)) :=
      (List.perm_append_comm_assoc _ _ _).append_left _
    _ ~ g (f x) ++ (g x ++ (before.flatMap g ++ after.flatMap g)) :=
      List.perm_append_comm_assoc _ _ _
    _ ~ g (f x) ++ (before.flatMap g ++ (g x ++ after.flatMap g)) :=
      (List.perm_append_comm_assoc _ _ _).append_left _

/-- Changing the pins of a view exchanges them in the list of linear constraints. -/
theorem linears_modifyView {s : Scene K} {v : View K} {view : ViewId} (hv : s.views[view]? = some v)
    (f : View K → View K) :
    v.pinned ++ (s.modifyView view f).linears ~ (f v).pinned ++ s.linears :=
  calc v.pinned ++ (s.constraints.map AnchorConstraint.linear ++
        (s.views.modify view f).flatMap View.pinned)
    _ ~ s.constraints.map AnchorConstraint.linear ++
        (v.pinned ++ (s.views.modify view f).flatMap View.pinned) :=
      List.perm_append_comm_assoc _ _ _
    _ ~ s.constraints.map AnchorConstraint.linear ++
        ((f v).pinned ++ s.views.flatMap View.pinned) :=
      (flatMap_modify_perm hv f View.pinned).append_left _
    _ ~ (f v).pinned ++ s.linears := List.perm_append_comm_assoc _ _ _

/-- The views of a scene after one was changed, but not its engine. -/
theorem Numbered.viewEngine_modifyView {s : Scene K} {passing : List (Constraint K)}
    (h : Numbered passing s) (view : ViewId)
    {f : View K → View K} (hf : ∀ v, (f v).engine = v.engine) :
    ∀ v ∈ (s.modifyView view f).views, v.engine < s.engines.length := by
  intro w hw
  obtain ⟨i, hi⟩ := List.mem_iff_getElem?.1 hw
  rw [modifyView, List.getElem?_modify] at hi
  obtain ⟨v, hv, rfl⟩ := Option.map_eq_some_iff.1 hi
  have := h.viewEngine v (List.mem_of_getElem? hv)
  split
  · rwa [hf]
  · exact this

/-! ## Changes of the records -/

variable {s : Scene K} {passing : List (Constraint K)}

/-- A constraint that takes the next number is carried along. -/
theorem Numbered.freshLinear (h : Numbered passing s) {c : Constraint K} (hc : c.id = s.nextLinear) :
    Numbered (c :: passing) s.freshLinear.2 :=
  ⟨h.numbering.fresh hc, h.viewEngine, h.constraintEngine, h.engine⟩

/-- Pins carried along are put on record with a view that has none. -/
theorem Numbered.record {view : ViewId} {v : View K} (h : Numbered passing s)
    (hv : s.views[view]? = some v) (hnone : v.pins = none) :
    Numbered [] (s.modifyView view fun v => { v with pins := some passing }) := by
  have hp := linears_modifyView hv fun v => { v with pins := some passing }
  rw [show v.pinned = [] by rw [View.pinned, hnone]; rfl] at hp
  exact ⟨h.numbering.subperm hp.subperm, h.viewEngine_modifyView view fun _ => rfl,
    h.constraintEngine, h.engine⟩

/-- A view that is not pinned has no pins to lose. -/
theorem modifyView_unpinned {view : ViewId}
    (unpinned : ∀ v, s.views[view]? = some v → v.isPinned = false) :
    (s.modifyView view fun v => { v with pins := none }) = s := by
  have views : s.views.modify view (fun v => { v with pins := none }) = s.views := by
    cases hv : s.views[view]? with
    | none => exact List.modify_eq_self (List.getElem?_eq_none_iff.1 hv)
    | some v =>
      have recorded := unpinned v hv
      rw [View.isPinned, Option.isSome_eq_false_iff, Option.isNone_iff_eq_none] at recorded
      have unchanged : ({ v with pins := none } : View K) = v := by rw [← recorded]
      obtain ⟨before, after, hl, hm⟩ := exists_modify_eq hv fun v => { v with pins := none }
      rw [hm, unchanged, ← hl]
  rw [modifyView, views]

/-- The pins on record for a view are taken off it and carried along. -/
theorem Numbered.unrecord {view : ViewId} {v : View K} (h : Numbered [] s)
    (hv : s.views[view]? = some v) :
    Numbered v.pinned (s.modifyView view fun v => { v with pins := none }) := by
  have hp := linears_modifyView hv fun v => { v with pins := none }
  exact ⟨h.numbering.subperm hp.subperm, h.viewEngine_modifyView view fun _ => rfl,
    h.constraintEngine, h.engine⟩

/-- A change of a view that is neither one of its engine nor of its pins. -/
theorem Numbered.modifyView (h : Numbered [] s) (view : ViewId) {f : View K → View K}
    (he : ∀ v, (f v).engine = v.engine) (hp : ∀ v, (f v).pins = v.pins) :
    Numbered [] (s.modifyView view f) := by
  have hl : (s.modifyView view f).linears = s.linears := by
    rw [linears, linears, Scene.modifyView, List.flatMap_def, List.flatMap_def]
    dsimp only
    rw [map_modify_of_eq fun v => by rw [View.pinned, View.pinned, hp v]]
  exact ⟨hl ▸ h.numbering, h.viewEngine_modifyView view he, h.constraintEngine, h.engine⟩

/-- A report gives out no number. -/
theorem Numbered.emit (h : Numbered passing s) (event : Event K) :
    Numbered passing (s.emit event) :=
  ⟨h.numbering, h.viewEngine, h.constraintEngine, h.engine⟩

/-- A new view starts without pins. -/
theorem Numbered.appendView (h : Numbered [] s) (name : String) {engine : EngineId}
    (he : engine < s.engines.length) (frame : Rect K) (insets : Insets K) :
    Numbered [] { s with views := s.views ++ [{ name, engine, insets, frame }] } := by
  refine ⟨?_, ?_, h.constraintEngine, h.engine⟩
  · simpa only [linears, List.flatMap_append, List.flatMap_cons, List.flatMap_nil, View.pinned,
      Option.getD_none, List.append_nil] using h.numbering
  · intro v hv
    rcases List.mem_append.1 hv with hv | hv
    · exact h.viewEngine v hv
    · rw [List.mem_singleton.1 hv]
      exact he

/-- A change of activity is no change of the linear constraints. -/
theorem Numbered.switch (h : Numbered passing s) (c : ConstraintId) (r : AnchorConstraint K)
    (active : Bool) : Numbered passing (s.switch c r active) := by
  have hl : (s.switch c r active).linears = s.linears := by
    rw [linears, linears, Scene.switch]
    dsimp only [Scene.emit]
    rw [map_modify_of_eq (f := fun r : AnchorConstraint K => { r with active }) fun _ => rfl]
  refine ⟨hl ▸ h.numbering, h.viewEngine, ?_, h.engine⟩
  intro r hr
  have heng := map_modify_of_eq (f := fun r : AnchorConstraint K => { r with active })
    (g := AnchorConstraint.engine) (fun _ => rfl) s.constraints c
  obtain ⟨r', hr', heq⟩ := List.mem_map.1 (heng ▸ List.mem_map_of_mem hr)
  exact heq ▸ h.constraintEngine r' hr'

/-- The engine of an anchor exists, also when its view does not. -/
theorem Numbered.engineOf_lt (h : Numbered passing s) (a : Anchor) :
    s.engineOf a < s.engines.length := by
  rw [engineOf]
  cases hv : s.views[a.view]? with
  | none => exact h.engine
  | some v => exact h.viewEngine v (List.mem_of_getElem? hv)

/-- A constraint made with the next number. -/
theorem Numbered.insertConstraint (h : Numbered [] s) {engine : EngineId}
    (he : engine < s.engines.length) (relationship : Relationship K) {c : Constraint K}
    (hc : c.id = s.nextLinear) :
    Numbered [] (s.freshLinear.2.insertConstraint engine relationship c).2 := by
  refine ⟨(h.numbering.fresh hc).subperm ?_, h.viewEngine, ?_, h.engine⟩
  · simp only [linears, Scene.insertConstraint, Scene.freshLinear, List.map_append, List.map_cons,
      List.map_nil, List.nil_append, List.append_assoc, List.singleton_append]
    exact List.perm_middle.subperm
  · intro r hr
    rcases List.mem_append.1 hr with hr | hr
    · exact h.constraintEngine r hr
    · rw [List.mem_singleton.1 hr]
      exact he

end

variable {K : Type} [Scalar K] {s : Scene K} {passing : List (Constraint K)}

/-! ## Requests of a solver -/

/-- An addition changes a solver and no record. -/
theorem addLinear_records (s : Scene K) (i : EngineId) (c : Constraint K) :
    SameRecords s (s.addLinear i c).2 := by
  rw [addLinear]
  split
  · exact .refl s
  · exact ⟨rfl, rfl, List.length_set⟩

/-- A removal changes a solver and no record. -/
theorem removeLinear_records (s : Scene K) (i : EngineId) (c : Constraint K) :
    SameRecords s (s.removeLinear i c).2 := by
  rw [removeLinear]
  split
  · exact .refl s
  · exact ⟨rfl, rfl, List.length_set⟩

/-- What a solver is asked when a constraint is switched changes no record. -/
theorem requestActivity_records (s : Scene K) (r : AnchorConstraint K) (active : Bool) :
    SameRecords s (s.requestActivity r active).2 := by
  cases active with
  | true => exact addLinear_records s r.engine r.linear
  | false => exact removeLinear_records s r.engine r.linear

/-- Adding a numbered constraint to a solver. -/
theorem Numbered.addLinear (h : Numbered passing s) (i : EngineId) {c : Constraint K}
    (hc : c ∈ passing ++ s.linears) : Numbered passing (s.addLinear i c).2 := by
  refine h.of_records (addLinear_records s i c) ?_
  rw [Scene.addLinear]
  split
  next => exact h.numbering
  next e he =>
    obtain ⟨hk, hheld⟩ := Solver.addConstraint_keyed (h.numbering.keyed e (List.mem_of_getElem? he))
    exact h.numbering.set he hk fun d hd => (hheld d hd).imp_left (by rintro rfl; exact hc)

/-- Removing a constraint from a solver. -/
theorem Numbered.removeLinear (h : Numbered passing s) (i : EngineId) (c : Constraint K) :
    Numbered passing (s.removeLinear i c).2 := by
  refine h.of_records (removeLinear_records s i c) ?_
  rw [Scene.removeLinear]
  split
  next => exact h.numbering
  next e he =>
    obtain ⟨hk, hheld⟩ := Solver.removeConstraint_keyed (h.numbering.keyed e (List.mem_of_getElem? he))
    exact h.numbering.set he hk fun d hd => .inr (hheld d hd)

/-! ## Pins -/

/-- A pin is not on record while its view is being held: it is carried along until the view has all
of them. -/
theorem pinPart_records (view : ViewId) (name : String) (engine : EngineId)
    (acc : List (Constraint K) × Scene K) (part : Quantity × K) :
    SameRecords acc.2 (pinPart view name engine acc part).2 := by
  have h := addLinear_records acc.2.freshLinear.2 engine (pinConstraint acc.2.nextLinear view part)
  rw [pinPart]
  dsimp only [freshLinear] at h ⊢
  split <;> rename_i hr <;> rw [hr] at h <;> exact ⟨h.views, h.constraints, h.engines⟩

/-- The records stay the same while the parts of a frame are pinned. -/
theorem foldl_pinPart_records (view : ViewId) (name : String) (engine : EngineId)
    (parts : List (Quantity × K)) (acc : List (Constraint K) × Scene K) :
    SameRecords acc.2 (parts.foldl (pinPart view name engine) acc).2 := by
  induction parts generalizing acc with
  | nil => exact .refl acc.2
  | cons part parts ih => exact (pinPart_records view name engine acc part).trans (ih _)

/-- Pins get new numbers, and those accepted are carried along. -/
theorem Numbered.pinPart (view : ViewId) (name : String) (engine : EngineId)
    {acc : List (Constraint K) × Scene K} (part : Quantity × K) (h : Numbered acc.1 acc.2) :
    Numbered (pinPart view name engine acc part).1 (pinPart view name engine acc part).2 := by
  obtain ⟨pins, s⟩ := acc
  have added := (h.freshLinear (c := pinConstraint s.nextLinear view part) rfl).addLinear engine
    (.head _)
  rw [Scene.pinPart]
  dsimp only [Scene.freshLinear] at added ⊢
  split
  next hr =>
    rw [hr] at added
    exact added.perm (List.perm_append_singleton _ _)
  next hr =>
    rw [hr] at added
    refine ⟨added.numbering.subperm (List.sublist_cons_self _ _).subperm, added.viewEngine,
      added.constraintEngine, added.engine⟩

/-- Pinning part after part keeps numbers apart, with the accepted pins carried along. -/
theorem Numbered.foldl_pinPart (view : ViewId) (name : String) (engine : EngineId)
    (parts : List (Quantity × K)) (acc : List (Constraint K) × Scene K)
    (h : Numbered acc.1 acc.2) :
    Numbered (parts.foldl (Scene.pinPart view name engine) acc).1
      (parts.foldl (Scene.pinPart view name engine) acc).2 := by
  induction parts generalizing acc with
  | nil => exact h
  | cons part parts ih => exact ih _ (h.pinPart view name engine part)

/-- Holding a view puts its accepted pins on record together, and none was on record for it before. -/
theorem Numbered.pin (h : Numbered [] s) (view : ViewId) : Numbered [] (s.pin view) := by
  refine pin_induction (fun _ acc => Numbered acc.1 acc.2 ∧ SameRecords s acc.2) (fun _ => h)
    (fun _ _ _ => ⟨h, .refl s⟩) ?_ ?_
  · rintro v _ acc part _ ⟨numbered, records⟩
    exact ⟨numbered.pinPart view v.name v.engine part,
      records.trans (pinPart_records view v.name v.engine acc part)⟩
  · rintro v hv unpinned pins t ⟨numbered, records⟩
    refine numbered.record (v := v) (records.views ▸ hv) ?_
    rwa [View.isPinned, Option.isSome_eq_false_iff, Option.isNone_iff_eq_none] at unpinned

/-- The removal of a pin changes no record, since the pin was taken off before. -/
theorem unpinPart_records (view : ViewId) (name : String) (engine : EngineId) (s : Scene K)
    (c : Constraint K) : SameRecords s (unpinPart view name engine s c) := by
  have h := removeLinear_records s engine c
  rw [unpinPart]
  split <;> rename_i hr <;> rw [hr] at h <;> exact ⟨h.views, h.constraints, h.engines⟩

/-- Removing a pin keeps numbers apart, also if the solver fails and keeps what it has under them. -/
theorem Numbered.unpinPart (view : ViewId) (name : String) (engine : EngineId)
    (h : Numbered passing s) (c : Constraint K) :
    Numbered passing (unpinPart view name engine s c) := by
  have hr := h.removeLinear engine c
  rw [Scene.unpinPart]
  split <;> rename_i heq <;> rw [heq] at hr
  · exact hr
  · exact ⟨hr.numbering, hr.viewEngine, hr.constraintEngine, hr.engine⟩

/-- Releasing a view takes its pins off the record and carries them along until all are removed. -/
theorem Numbered.unpin (h : Numbered [] s) (view : ViewId) : Numbered [] (s.unpin view) := by
  refine unpin_induction (fun v _ t => Numbered v.pinned t) (fun _ => h)
    (fun v _ hv _ => h.unrecord hv) ?_ ?_
  · exact fun v _ c _ t numbered => numbered.unpinPart view v.name v.engine c
  · intro v _ t numbered
    have dropped := numbered.drop
    exact ⟨dropped.numbering, dropped.viewEngine, dropped.constraintEngine, dropped.engine⟩

/-- What a release leaves on record, whatever the solver answers. -/
theorem unpin_records (s : Scene K) (view : ViewId) :
    SameRecords (s.modifyView view fun v => { v with pins := none }) (s.unpin view) := by
  refine unpin_induction
    (fun _ _ t => SameRecords (s.modifyView view fun v => { v with pins := none }) t) ?_
    (fun _ _ _ _ => .refl _) ?_ fun _ _ _ h => ⟨h.views, h.constraints, h.engines⟩
  · intro unpinned
    rw [modifyView_unpinned unpinned]
    exact .refl s
  · exact fun v _ c _ t h => h.trans (unpinPart_records view v.name v.engine t c)

/-! ## Activity -/

/-- A solver is asked for a constraint that is on record, so its number is its own. -/
theorem Numbered.requestActivity (h : Numbered [] s) {r : AnchorConstraint K}
    (hr : r ∈ s.constraints) (active : Bool) : Numbered [] (s.requestActivity r active).2 := by
  cases active with
  | true =>
    exact h.addLinear r.engine
      (List.mem_append_left (s.views.flatMap View.pinned) (List.mem_map_of_mem hr))
  | false => exact h.removeLinear r.engine r.linear

/-- A request for activity keeps numbers apart, whether it is granted or not. -/
theorem Numbered.trySetActive (h : Numbered [] s) (c : ConstraintId) (active : Bool) :
    Numbered [] (s.trySetActive c active).2 := by
  have switching := trySetActive_switching s c active
  generalize s.trySetActive c active = a at switching ⊢
  cases switching with
  | idle _ => exact h
  | refused r _ hr _ hreq =>
    have requested := h.requestActivity (List.mem_of_getElem? hr) active
    rwa [hreq] at requested
  | switched r hr _ hreq =>
    have requested := h.requestActivity (List.mem_of_getElem? hr) active
    rw [hreq] at requested
    exact requested.switch c r active

/-- A request for activity keeps numbers apart, its report included. -/
theorem Numbered.setActive (h : Numbered [] s) (c : ConstraintId) (active : Bool) :
    Numbered [] (s.setActive c active) := by
  have tried := h.trySetActive c active
  rw [Scene.setActive]
  generalize s.trySetActive c active = a at tried ⊢
  obtain ⟨_ | _, t⟩ := a
  · exact tried.emit _
  · exact tried

/-! ## Making constraints -/

/-- A constraint between two anchors is made with the next number, for an engine that exists. -/
theorem Numbered.relate (h : Numbered [] s) (lhs : Anchor) (relation : Relation) (rhs : Anchor)
    (offset : K) : Numbered [] (s.relate lhs relation rhs offset).2 :=
  h.insertConstraint (h.engineOf_lt lhs) _ rfl

/-- A constraint that fixes an anchor is made with the next number, for an engine that exists. -/
theorem Numbered.relateNumber (h : Numbered [] s) (lhs : Anchor) (value : K) :
    Numbered [] (s.relateNumber lhs value).2 :=
  h.insertConstraint (h.engineOf_lt lhs) _ rfl

/-! ## Views and engines -/

/-- Reading a frame replaces an engine by one that has learnt values, and changes no record. -/
theorem frame_records (s : Scene K) (view : ViewId) : SameRecords s (s.frame view).2 := by
  unfold frame
  split
  · exact .refl s
  · exact ⟨rfl, rfl, List.length_set⟩

/-- Reading a frame changes neither records nor held constraints. -/
theorem Numbered.frame (h : Numbered passing s) (view : ViewId) :
    Numbered passing (s.frame view).2 := by
  have read := frame_read s view
  generalize s.frame view = a at read ⊢
  cases read with
  | absent => exact h
  | @learnt v e _ he =>
    have hheld : e.refresh.solver.held = e.solver.held := e.solver.fetchChanges_held
    have hconstraints := Solver.constraints_of_held hheld
    refine h.of_records ⟨rfl, rfl, List.length_set⟩ (h.numbering.set he ?_ fun d hd => .inr ?_)
    · exact (h.numbering.keyed e (List.mem_of_getElem? he)).of_held hheld
    · exact hconstraints ▸ hd

/-- Holding or releasing a view keeps numbers apart. The frame it is held at has no part in this. -/
theorem Numbered.setPinned (h : Numbered [] s) (view : ViewId) (enabled : Bool) :
    Numbered [] (s.setPinned view enabled) := by
  cases enabled with
  | true =>
    rw [Scene.setPinned, if_pos rfl]
    exact ((h.frame view).modifyView view (f := fun v => { v with frame := (s.frame view).1 })
      (fun _ => rfl) fun _ => rfl).pin view
  | false => exact h.unpin view

/-- A new view is held with new numbers, if its engine exists. -/
theorem Numbered.insertView (h : Numbered [] s) (name : String) {engine : EngineId}
    (he : engine < s.engines.length) (frame : Rect K) (insets : Insets K) :
    Numbered [] (s.insertView name engine frame insets).2 :=
  (h.appendView name he frame insets).pin _

/-- A new engine, which may be the first of its scene. -/
theorem numbered_appendEngine (hn : Numbering s.linears s.engines s.nextLinear)
    (hv : ∀ v ∈ s.views, v.engine < s.engines.length)
    (hr : ∀ r ∈ s.constraints, r.engine < s.engines.length) (config : Config K) (root : ViewId) :
    Numbered [] { s with engines := s.engines ++ [Engine.create config root] } := by
  have grown : s.engines.length < (s.engines ++ [Engine.create config root]).length := by simp
  refine ⟨hn.append config _, ?_, ?_, ?_⟩
  · intro v hmem
    exact Nat.lt_trans (hv v hmem) grown
  · intro r hmem
    exact Nat.lt_trans (hr r hmem) grown
  · exact Nat.zero_lt_of_lt grown

/-- An engine without a root view keeps numbers apart, as it holds nothing. -/
theorem Numbered.appendEngine (h : Numbered [] s) (config : Config K) (root : ViewId) :
    Numbered [] { s with engines := s.engines ++ [Engine.create config root] } :=
  numbered_appendEngine h.numbering h.viewEngine h.constraintEngine config root

/-- The numbers are right with a new engine if they are before the engine has its root view. -/
theorem numbered_addEngine {config : Config K}
    (h : Numbered [] { s with engines := s.engines ++ [Engine.create config s.views.length] }) :
    Numbered [] (s.addEngine config).2 :=
  h.insertView _ (by simp) _ _

/-- A new engine keeps numbers apart, the pins of its root view included. -/
theorem Numbered.addEngine (h : Numbered [] s) (config : Config K) :
    Numbered [] (s.addEngine config).2 :=
  numbered_addEngine (h.appendEngine config s.views.length)

/-- A scene with one engine and nothing else. -/
theorem numbered_start (config : Config K) (root : ViewId) :
    Numbered [] { (empty : Scene K) with engines := empty.engines ++ [Engine.create config root] } :=
  numbered_appendEngine (s := empty) ⟨List.forall_mem_nil _, List.nodup_nil, List.forall_mem_nil _,
    List.forall_mem_nil _, List.forall_mem_nil _⟩ (List.forall_mem_nil _) (List.forall_mem_nil _)
    config root

/-- Every request keeps linear constraints apart by their numbers. -/
theorem numbered_stable : Stable fun s t : Scene K => Numbered [] s → Numbered [] t where
  refl _ := id
  trans h h' := h' ∘ h
  addEngine _ config h := h.addEngine config
  addView _ _ name frame he h := h.insertView name he frame _
  relate _ lhs relation rhs offset h := h.relate lhs relation rhs offset
  relateNumber _ lhs value h := h.relateNumber lhs value
  setActive _ c active h := h.setActive c active
  setPinned _ view enabled h := h.setPinned view enabled
  setInsets _ view _ h := h.modifyView view (fun _ => rfl) fun _ => rfl
  frame _ view h := h.frame view
  report _ _ h := h.emit _

end Scene

end ViewConstraints
