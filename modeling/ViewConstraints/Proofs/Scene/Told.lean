import ViewConstraints.Proofs.Scene.Demands
import ViewConstraints.Proofs.Scene.InForce

/-!
# Pins that were refused are reported

Holding a view tries four pins. Those that are granted go on record and each of the others is reported,
so that the pins on record for a view and those reported as refused since it was last released are four
together, in every state and whatever solvers answer (`Told`, `told_stable`). A view that is held is held
on all its quantities exactly if none of its pins was refused (`Told.pinnedOn_all_iff`).
-/

namespace ViewConstraints

open Linear
open scoped List

/-- The quantities of a view, in the order in which they are held. -/
def Linear.Quantity.all : List Quantity := [.left, .top, .width, .height]

/-- A view has no other quantities. -/
theorem Linear.Quantity.mem_all (q : Quantity) : q ∈ Quantity.all := by
  cases q <;> decide

/-- Each quantity is held once. -/
theorem Linear.Quantity.notMem_of_all {done rest : List Quantity} {q : Quantity}
    (hq : Quantity.all = done ++ q :: rest) : q ∉ done ++ rest := by
  have once : (done ++ q :: rest).Nodup := hq ▸ by decide
  exact (List.nodup_cons.1 (List.nodup_middle.1 once)).1

/-- A frame as its parts in order. -/
theorem Scene.frameParts_eq_map {K : Type} (frame : Rect K) :
    frameParts frame = Quantity.all.map fun q => (q, frame.component q) :=
  rfl

namespace Scene

section

variable {K : Type}

/-- Counts the pins of a view that are reported as refused, from the last report of its release on. -/
def Event.tally (view : ViewId) (refused : Nat) : Event K → Nat
  | .unpinned w _ => if w = view then 0 else refused
  | .pinRefused w _ => if w = view then refused + 1 else refused
  | _ => refused

/-- The number of pins of a view that were refused since it was last released. -/
def refusedPins (s : Scene K) (view : ViewId) : Nat := s.log.foldl (Event.tally view) 0

/-- The pins on record for a view, if it is held. -/
def pinsAt (s : Scene K) (view : ViewId) : Option (List (Constraint K)) :=
  s.views[view]?.bind View.pins

/-- A report changes the count of refused pins as `Event.tally` says. -/
theorem refusedPins_emit (s : Scene K) (event : Event K) (view : ViewId) :
    (s.emit event).refusedPins view = event.tally view (s.refusedPins view) := by
  rw [refusedPins, emit, List.foldl_append]
  rfl

theorem refusedPins_of_log {s t : Scene K} (h : t.log = s.log) (view : ViewId) :
    t.refusedPins view = s.refusedPins view := by
  rw [refusedPins, refusedPins, h]

theorem pinsAt_of_views {s t : Scene K} (h : t.views = s.views) (view : ViewId) :
    t.pinsAt view = s.pinsAt view := by
  rw [pinsAt, pinsAt, h]

/-- A view with a pin on record is held. The converse fails for a view whose pins were all refused. -/
theorem isPinned_of_mem {v : View K} {c : Constraint K} (hc : c ∈ v.pinned) : v.isPinned = true := by
  rw [View.isPinned]
  cases hpins : v.pins with
  | some pins => rfl
  | none =>
    rw [View.pinned, hpins] at hc
    cases hc

/-- A change of a view that is not one of its pins. -/
theorem pinsAt_modifyView (s : Scene K) (w : ViewId) {f : View K → View K}
    (hf : ∀ v, (f v).pins = v.pins) (view : ViewId) :
    (s.modifyView w f).pinsAt view = s.pinsAt view := by
  rw [pinsAt, pinsAt, modifyView, List.getElem?_modify]
  cases s.views[view]? with
  | none => rfl
  | some v =>
    by_cases hw : w = view
    · simp [hw, hf]
    · simp [hw]

/-- A view is given other pins. -/
theorem pinsAt_setPins {s : Scene K} {w : ViewId} {v : View K} (hv : s.views[w]? = some v)
    (pins : Option (List (Constraint K))) (view : ViewId) :
    (s.modifyView w fun v => { v with pins }).pinsAt view =
      if view = w then pins else s.pinsAt view := by
  rw [pinsAt, pinsAt, modifyView, List.getElem?_modify]
  by_cases hw : view = w
  · subst hw
    simp [hv]
  · rw [if_neg hw]
    simp [Ne.symm hw]

variable [Scalar K]

/-- What is told of the pins of a view: a view that is not held has no refused pins, and the pins on
record for one that is held are some of a frame's parts, in order; the others were refused. -/
def Accounts (view : ViewId) (refused : Nat) : Option (List (Constraint K)) → Prop
  | none => refused = 0
  | some pins => ∃ (frame : Rect K) (granted : List (Nat × Quantity × K)),
      pins = (granted.map fun p => pinConstraint p.1 view p.2) ∧
      granted.map Prod.snd <+ frameParts frame ∧ granted.length + refused = Quantity.all.length

/-- Every pin of a view that is held is on record or was reported as refused since the view was last
released. -/
structure Told (s : Scene K) : Prop where
  accounts : ∀ view, Accounts view (s.refusedPins view) (s.pinsAt view)

/-- A request that changes no pins and reports nothing of pins leaves them told. -/
theorem Told.of_eq {s t : Scene K} (h : Told s) (pins : ∀ view, t.pinsAt view = s.pinsAt view)
    (refused : ∀ view, t.refusedPins view = s.refusedPins view) : Told t where
  accounts view := by
    rw [pins, refused]
    exact h.accounts view

/-- A scene without views has nothing to tell. -/
theorem told_empty : Told (empty : Scene K) := ⟨fun _ => rfl⟩

end

variable {K : Type} [Scalar K] {s : Scene K}

/-! ## Holding a view -/

/-- Parts of a frame were tried: some were granted, in order, and each of the others was reported. -/
structure Tried (view : ViewId) (parts : List (Quantity × K)) (granted : List (Nat × Quantity × K))
    (before after : List (Constraint K) × Scene K) : Prop where
  sublist : granted.map Prod.snd <+ parts
  pins : after.1 = before.1 ++ granted.map fun p => pinConstraint p.1 view p.2
  refused : granted.length + after.2.refusedPins view = parts.length + before.2.refusedPins view
  others : ∀ w, w ≠ view → after.2.refusedPins w = before.2.refusedPins w

theorem Tried.nil (view : ViewId) (acc : List (Constraint K) × Scene K) : Tried view [] [] acc acc :=
  ⟨.refl [], (List.append_nil _).symm, rfl, fun _ _ => rfl⟩

/-- Parts that are tried after others add their pins and their reports to those of the others. -/
theorem Tried.append {view : ViewId} {parts parts' : List (Quantity × K)}
    {granted granted' : List (Nat × Quantity × K)} {acc mid after : List (Constraint K) × Scene K}
    (h : Tried view parts granted acc mid) (h' : Tried view parts' granted' mid after) :
    Tried view (parts ++ parts') (granted ++ granted') acc after where
  sublist := by
    rw [List.map_append]
    exact h.sublist.append h'.sublist
  pins := by rw [h'.pins, h.pins, List.append_assoc, List.map_append]
  refused := by
    have first := h.refused
    have second := h'.refused
    rw [List.length_append, List.length_append]
    omega
  others w hw := (h'.others w hw).trans (h.others w hw)

/-- Whether the constraint that holds one part of a frame would be granted. -/
def grants (s : Scene K) (view : ViewId) (engine : EngineId) (part : Quantity × K) : Bool :=
  (s.freshLinear.2.addLinear engine (pinConstraint s.nextLinear view part)).1.isOk

/-- A part is granted as it is answered. -/
theorem pinPart_tried (view : ViewId) (name : String) (engine : EngineId)
    (acc : List (Constraint K) × Scene K) (part : Quantity × K) :
    Tried view [part] (if acc.2.grants view engine part then [(acc.2.nextLinear, part)] else []) acc
      (pinPart view name engine acc part) := by
  have log := addLinear_log acc.2.freshLinear.2 engine (pinConstraint acc.2.nextLinear view part)
  have granted : acc.2.grants view engine part =
    (acc.2.freshLinear.2.addLinear engine (pinConstraint acc.2.nextLinear view part)).1.isOk := rfl
  unfold pinPart
  dsimp only [freshLinear] at log granted ⊢
  generalize addLinear _ engine (pinConstraint acc.2.nextLinear view part) = a at log granted ⊢
  obtain ⟨cause | _, t⟩ := a
  · have refused : acc.2.grants view engine part = false := granted
    rw [refused, if_neg Bool.false_ne_true]
    refine ⟨by simp, by simp, ?_, ?_⟩
    · simp [refusedPins_emit, refusedPins_of_log log, Event.tally, Nat.add_comm]
    · intro w hw
      simp [refusedPins_emit, refusedPins_of_log log, Event.tally, Ne.symm hw]
  · have accepted : acc.2.grants view engine part = true := granted
    rw [accepted, if_pos rfl]
    exact ⟨by simp, by simp, by simp [refusedPins_of_log log], fun w _ => refusedPins_of_log log w⟩

/-- Each part of a frame is tried in its turn, and granted or reported. -/
theorem foldl_pinPart_tried (view : ViewId) (name : String) (engine : EngineId)
    (parts : List (Quantity × K)) (acc : List (Constraint K) × Scene K) :
    ∃ granted, Tried view parts granted acc (parts.foldl (pinPart view name engine) acc) := by
  induction parts generalizing acc with
  | nil => exact ⟨[], .nil view acc⟩
  | cons part parts ih =>
    obtain ⟨granted, rest⟩ := ih (pinPart view name engine acc part)
    exact ⟨_, (pinPart_tried view name engine acc part).append rest⟩

/-- Holding a view tries all four parts of its frame at once, so each of them is on record or
reported afterwards. -/
theorem Told.pin (h : Told s) (view : ViewId) : Told (s.pin view) := by
  unfold Scene.pin
  split
  · exact h
  next v hv =>
    split
    · exact h
    next hpinned =>
      have none : s.pinsAt view = none := by
        rw [pinsAt, hv]
        exact Option.not_isSome_iff_eq_none.1 hpinned
      have unrefused : s.refusedPins view = 0 := by
        have here := h.accounts view
        rwa [none] at here
      obtain ⟨granted, tried⟩ :=
        foldl_pinPart_tried view v.name v.engine (frameParts v.frame) ([], s)
      have records := foldl_pinPart_records view v.name v.engine (frameParts v.frame) ([], s)
      dsimp only
      generalize (frameParts v.frame).foldl (pinPart view v.name v.engine) ([], s) = r at tried records ⊢
      obtain ⟨pins, t⟩ := r
      have hv' : t.views[view]? = some v := records.views ▸ hv
      refine ⟨fun w => ?_⟩
      rw [pinsAt_setPins hv' (some pins) w]
      by_cases hw : w = view
      · subst hw
        rw [if_pos rfl]
        have refused := tried.refused
        rw [unrefused] at refused
        exact ⟨v.frame, granted, tried.pins, tried.sublist, refused⟩
      · rw [if_neg hw, pinsAt_of_views records.views]
        have others : t.refusedPins w = s.refusedPins w := tried.others w hw
        exact (others ▸ h.accounts w : Accounts w (t.refusedPins w) (s.pinsAt w))

/-- The quantities held of a view are those of the parts granted. -/
theorem accepted_of_granted {view : ViewId} {v : View K} {granted : List (Nat × Quantity × K)}
    (h : v.pins = some (granted.map fun p => pinConstraint p.1 view p.2)) :
    v.accepted = granted.map fun p => p.2.1 := by
  rw [View.accepted, View.pinned, h, Option.getD_some, List.flatMap_map]
  exact List.map_eq_flatMap.symm

/-! ## Releasing a view -/

/-- A pin that the solver fails to remove is reported as such, and not as a refused pin. -/
theorem unpinPart_refusedPins (view : ViewId) (name : String) (engine : EngineId) (s : Scene K)
    (c : Constraint K) (w : ViewId) :
    (unpinPart view name engine s c).refusedPins w = s.refusedPins w := by
  have log := removeLinear_log s engine c
  unfold unpinPart
  split <;> rename_i hr <;> rw [hr] at log
  · exact refusedPins_of_log log w
  · exact (refusedPins_emit _ _ w).trans (refusedPins_of_log log w)

/-- Releasing a view drops its pins and reports it, and this report ends the count of its
refused pins. -/
theorem Told.unpin (h : Told s) (view : ViewId) : Told (s.unpin view) := by
  refine unpin_induction (fun _ _ t =>
    t.views = (s.modifyView view fun v => { v with pins := none }).views ∧
      ∀ w, t.refusedPins w = s.refusedPins w)
    (fun _ => h) (fun _ _ _ _ => ⟨rfl, fun _ => rfl⟩) ?_ ?_
  · rintro v _ c _ t ⟨views, refused⟩
    exact ⟨(unpinPart_records view v.name v.engine t c).views.trans views, fun w =>
        (unpinPart_refusedPins view v.name v.engine t c w).trans (refused w)⟩
  · rintro v hv t ⟨views, refused⟩
    refine ⟨fun w => ?_⟩
    rw [refusedPins_emit, pinsAt_of_views (t := Scene.emit _ _) views w, pinsAt_setPins hv none w,
      refused]
    by_cases hw : w = view
    · rw [if_pos hw]
      exact if_pos hw.symm
    · rw [if_neg hw]
      have untold : Event.tally (K := K) w (s.refusedPins w) (.unpinned view v.name) =
          s.refusedPins w := if_neg (Ne.symm hw)
      exact (untold ▸ h.accounts w : Accounts w _ (s.pinsAt w))

/-! ## Every request -/

/-- A request for activity reports nothing of pins. -/
theorem trySetActive_refusedPins (s : Scene K) (c : ConstraintId) (active : Bool) (view : ViewId) :
    (s.trySetActive c active).2.refusedPins view = s.refusedPins view := by
  have switching := trySetActive_switching s c active
  generalize s.trySetActive c active = a at switching ⊢
  have requested (r : AnchorConstraint K) := requestActivity_log s r active
  cases switching with
  | idle _ => rfl
  | refused r _ _ _ hreq =>
    have log := requested r
    rw [hreq] at log
    exact refusedPins_of_log log view
  | @switched t r _ _ hreq =>
    have log := requested r
    rw [hreq] at log
    refine Eq.trans ?_ (refusedPins_of_log log view)
    cases active <;> exact refusedPins_emit t _ view

/-- A request for activity has nothing to tell of pins, whatever is answered. -/
theorem trySetActive_told (s : Scene K) (c : ConstraintId) (active : Bool) (h : Told s) :
    Told (s.trySetActive c active).2 :=
  h.of_eq (pinsAt_of_views (trySetActive_views s c active)) (trySetActive_refusedPins s c active)

/-- A refused activation is not reported as a refused pin. -/
theorem setActive_refusedPins (s : Scene K) (c : ConstraintId) (active : Bool) (view : ViewId) :
    (s.setActive c active).refusedPins view = s.refusedPins view := by
  have tried := trySetActive_refusedPins s c active view
  unfold setActive
  generalize s.trySetActive c active = a at tried ⊢
  obtain ⟨_ | _, t⟩ := a
  · exact (refusedPins_emit t _ view).trans tried
  · exact tried

/-- A new view is held for the first time, and no pin of it was refused before. -/
theorem Told.insertView (h : Told s) (name : String) (engine : EngineId) (frame : Rect K)
    (insets : Insets K) : Told (s.insertView name engine frame insets).2 := by
  refine Told.pin (s := { s with views := s.views ++ [{ name, engine, insets, frame }] }) ?_ _
  refine h.of_eq (fun view => ?_) fun view => refusedPins_of_log rfl view
  rw [pinsAt, pinsAt]
  dsimp only
  rcases Nat.lt_trichotomy view s.views.length with old | rfl | new
  · rw [List.getElem?_append_left old]
  · rw [List.getElem?_concat_length, List.getElem?_eq_none (Nat.le_refl _)]
    rfl
  · rw [List.getElem?_eq_none (by rw [List.length_append, List.length_singleton]; omega),
      List.getElem?_eq_none (Nat.le_of_lt new)]

/-- A new engine brings one view, which is held. -/
theorem Told.addEngine (h : Told s) (config : Config K) : Told (s.addEngine config).2 :=
  have extended : Told { s with engines := s.engines ++ [Engine.create config s.views.length] } :=
    ⟨h.accounts⟩
  extended.insertView _ _ _ _

/-- No request leaves a refused pin untold: pins are asked for when a view is held, and each is put on
record or reported. -/
theorem told_stable : Stable fun s t : Scene K => Told s → Told t where
  refl _ := id
  trans h h' := h' ∘ h
  addEngine _ config h := h.addEngine config
  addView _ _ _ _ _ h := h.insertView _ _ _ _
  relate _ _ _ _ _ h := ⟨h.accounts⟩
  relateNumber _ _ _ h := ⟨h.accounts⟩
  setActive s c active h :=
    h.of_eq (pinsAt_of_views (setActive_views s c active)) (setActive_refusedPins s c active)
  setPinned s view enabled h := by
    cases enabled with
    | true =>
      rw [setPinned, if_pos rfl]
      have read : Told (s.frame view).2 := h.of_eq
        (pinsAt_of_views (frame_records s view).views) (refusedPins_of_log (frame_log s view))
      exact Told.pin (read.of_eq (pinsAt_modifyView _ view
        (f := fun v => { v with frame := (s.frame view).1 }) fun _ => rfl) fun _ => rfl) view
    | false => exact h.unpin view
  setInsets s view insets h :=
    h.of_eq (pinsAt_modifyView s view (f := fun v => { v with insets }) fun _ => rfl) fun _ => rfl
  frame s view h :=
    h.of_eq (pinsAt_of_views (frame_records s view).views) (refusedPins_of_log (frame_log s view))
  report s a h := h.of_eq (fun _ => rfl) (refusedPins_emit s (.applied a))

/-! ## What is held of a view -/

section

variable {K : Type} [Scalar K] {s : Scene K} {view : ViewId} {v : View K} {qs : List Quantity}

/-- The pins on record for a view are one for each of the quantities `qs`, in order, and the solver of
its engine holds them all. -/
def PinnedOn (s : Scene K) (view : ViewId) (v : View K) (qs : List Quantity) : Prop :=
  List.Forall₂ (fun q c => (∃ n x, c = pinConstraint n view (q, x)) ∧ c ∈ s.heldBy v.engine) qs v.pinned

/-- The quantities a view is held on are those that its pins on record are about. -/
theorem PinnedOn.accepted (h : s.PinnedOn view v qs) : v.accepted = qs := by
  rw [PinnedOn] at h
  rw [View.accepted]
  generalize v.pinned = pins at h ⊢
  induction h with
  | nil => rfl
  | cons hq _ ih =>
    obtain ⟨⟨n, x, rfl⟩, -⟩ := hq
    rw [List.flatMap_cons, ih]
    rfl

/-- A view that is held is held on the quantities accepted for it; the pins for the others were
refused. -/
theorem Told.pinnedOn (h : Told s) (accounted : Accounted 0 [] s) (hv : s.views[view]? = some v)
    (hp : v.isPinned = true) :
    s.PinnedOn view v v.accepted ∧ v.accepted <+ Quantity.all ∧
      v.accepted.length + s.refusedPins view = Quantity.all.length := by
  obtain ⟨pins, hpins⟩ := Option.isSome_iff_exists.1 hp
  have here := h.accounts view
  rw [pinsAt, hv, Option.bind_some, hpins] at here
  obtain ⟨frame, granted, rfl, sublist, count⟩ := here
  have pinned : v.pinned = granted.map fun p => pinConstraint p.1 view p.2 := by
    rw [View.pinned, hpins, Option.getD_some]
  rw [accepted_of_granted hpins]
  refine ⟨?_, ?_, ?_⟩
  · rw [PinnedOn, pinned, List.forall₂_map_left_iff, List.forall₂_map_right_iff, List.forall₂_same]
    intro p hp
    have held : pinConstraint p.1 view p.2 ∈ v.pinned := pinned ▸ List.mem_map_of_mem hp
    exact ⟨⟨p.1, p.2.2, rfl⟩, (accounted.heldBy_perm v.engine).mem_iff.2 (mem_inForce_of_pinned hv held)⟩
  · have quantities := sublist.map Prod.fst
    rwa [frameParts_eq_map, List.map_map, List.map_map] at quantities
  · rwa [List.length_map]

/-- A view that is held is held on all its quantities exactly if no pin was refused since it was last
released, since pins on record and refused pins are four together. -/
theorem Told.pinnedOn_all_iff (h : Told s) (accounted : Accounted 0 [] s)
    (hv : s.views[view]? = some v) (hp : v.isPinned = true) :
    s.PinnedOn view v Quantity.all ↔ s.refusedPins view = 0 := by
  obtain ⟨held, sublist, told⟩ := h.pinnedOn accounted hv hp
  constructor
  · intro all
    rw [all.accepted] at told
    omega
  · intro none
    rw [none, Nat.add_zero] at told
    exact sublist.eq_of_length told ▸ held

/-- A view on whose quantities all are accepted is held on all of them, in order. -/
theorem Told.pinnedOn_all (h : Told s) (accounted : Accounted 0 [] s) (hv : s.views[view]? = some v)
    (hp : v.isPinned = true) (all : ∀ q, q ∈ v.accepted) : s.PinnedOn view v Quantity.all := by
  obtain ⟨held, sublist, -⟩ := h.pinnedOn accounted hv hp
  have whole : Quantity.all.length ≤ v.accepted.length :=
    (List.subperm_of_subset (by decide : Quantity.all.Nodup) fun q _ => all q).length_le
  exact sublist.eq_of_length_le whole ▸ held

end

end Scene

end ViewConstraints
