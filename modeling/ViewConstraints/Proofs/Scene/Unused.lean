import ViewConstraints.Proofs.Scene.Pinned
import ViewConstraints.Proofs.Simplex.Unused

/-!
# Views that go out of use

What solvers keep of a view after its last constraint is gone comes from requests that were refused:
a constraint that could not be activated leaves its mentions behind. As long as nothing that
mentions the view is refused (`Unrefused`), and no solver fails from within, the mentions of the
view are those of constraints that are held (`Unpadded`, `unpadded_stable`). A view without pins
then has no unknown in use unless an active constraint mentions it (`Unpadded.unused`).
-/

namespace ViewConstraints

open Linear Simplex
open scoped List

/-- A constraint that a solver counts as one that mentions the view. -/
def Linear.Constraint.Mentions {K : Type} [Scalar K] (c : Constraint K) (view : ViewId) : Prop :=
  ∃ v ∈ c.mentioned, v.view = view

instance {K : Type} [Scalar K] (c : Constraint K) (view : ViewId) : Decidable (c.Mentions view) :=
  inferInstanceAs (Decidable (∃ v ∈ c.mentioned, v.view = view))

namespace Scene

section

variable {K : Type}

/-- The view of which a pin is reported as refused. -/
def Event.pinRefused? : Event K → Option ViewId
  | .pinRefused view _ => some view
  | _ => none

/-- The views of which pins are reported as refused in a scene. -/
def pinsRefused (s : Scene K) : List ViewId := s.log.filterMap Event.pinRefused?

/-- The constraint whose activity is reported as left unchanged. -/
def Event.rejected? : Event K → Option ConstraintId
  | .activationRefused c _ => some c
  | _ => none

/-- The constraints reported as refused in a scene. -/
def rejected (s : Scene K) : List ConstraintId := s.log.filterMap Event.rejected?

end

variable {K : Type} [Scalar K] {s t : Scene K} {view : ViewId} {passing : List (Constraint K)}

/-- The mentions of the view's unknowns are those of constraints that are held. -/
def Unpadded (view : ViewId) (s : Scene K) : Prop :=
  ∀ e ∈ s.engines, ∀ q, e.solver.Unpadded ⟨view, q⟩

/-- As far as the log says, no solver failed, and nothing that mentions the view was refused. -/
structure Unrefused (view : ViewId) (s : Scene K) : Prop where
  clean : s.Clean
  pins : view ∉ s.pinsRefused
  activations : ∀ c error r, .activationRefused c error ∈ s.log → s.constraints[c]? = some r →
    ¬ r.linear.Mentions view

/-- What was not refused in the end was not refused before. -/
theorem Unrefused.of_later (h : Unrefused view t) (log : s.log <+: t.log) (grows : Grows s t) :
    Unrefused view s where
  clean := h.clean.of_prefix log
  pins hview := h.pins ((log.filterMap Event.pinRefused?).subset hview)
  activations c error r he hr := by
    obtain ⟨r', hr', same⟩ := grows.constraint hr
    have linear : r'.linear = r.linear := congrArg (fun i => i.2.2) same
    exact linear ▸ h.activations c error r' (log.subset he) hr'

/-- Putting an engine in the place of another keeps the mentions right if its own are. -/
theorem Unpadded.set (h : Unpadded view s) (i : EngineId) {e : Engine K}
    (he : ∀ q, e.solver.Unpadded ⟨view, q⟩) :
    Unpadded view { s with engines := s.engines.set i e } := by
  intro f hf
  rcases List.mem_or_eq_of_mem_set hf with hf | rfl
  · exact h f hf
  · exact he

/-! ## Requests of a solver -/

/-- A constraint that the solver takes is held with its mentions, and one that it refuses leaves them
behind, but then it must not mention the view. -/
theorem Unpadded.addLinear (h : Unpadded view s) (hn : Numbered passing s) (i : EngineId)
    {c : Constraint K} (granted : (s.addLinear i c).1 = .ok () ∨ ¬ c.Mentions view) :
    Unpadded view (s.addLinear i c).2 := by
  unfold Scene.addLinear at granted ⊢
  cases he : s.engines[i]? with
  | none => exact h
  | some e =>
    have hmem := List.mem_of_getElem? he
    rw [he] at granted
    refine h.set i fun q => (h e hmem q).addConstraint (hn.numbering.keyed e hmem) ?_
    refine granted.imp (fun ok => ?_) fun unmentioned hq => unmentioned ⟨_, hq, rfl⟩
    have answered : Engine.answer (e.solver.addConstraint c).1 = .ok () := ok
    cases hr : (e.solver.addConstraint c).1 with
    | ok => rfl
    | error refusal =>
      rw [hr] at answered
      cases answered

/-- A constraint that is taken out takes its mentions with it, unless the solver fails on the way. -/
theorem Unpadded.removeLinear (h : Unpadded view s) (hn : Numbered passing s) (i : EngineId)
    {c : Constraint K} (known : c ∈ passing ++ s.linears)
    (granted : ∀ cause, (s.removeLinear i c).1 = .error cause → cause.isInternal = false) :
    Unpadded view (s.removeLinear i c).2 := by
  unfold Scene.removeLinear at granted ⊢
  cases he : s.engines[i]? with
  | none => exact h
  | some e =>
    have hmem := List.mem_of_getElem? he
    have keyed := hn.numbering.keyed e hmem
    rw [he] at granted
    refine h.set i fun q => (h e hmem q).removeConstraint keyed ?_ (.inl fun failure hr => ?_)
    · intro held hheld
      have hentry := OrderedMap.mem_entries_of_get? hheld
      have hin : held.constraint ∈ e.solver.constraints :=
        List.mem_map_of_mem (List.mem_map_of_mem hentry)
      exact (hn.numbering.held_known e hmem _ hin c known (keyed.key _ hentry).symm).symm
    · have answered : (e.remove c).1 = .error (.internal failure.message) :=
        congrArg Engine.answer hr
      cases granted _ answered

/-! ## Pins -/

/-- A pin of the view itself must be granted; a pin of another view mentions nothing of it. -/
theorem Unpadded.pinPart [UnitScalar K] (w : ViewId) (name : String) (engine : EngineId)
    {acc : List (Constraint K) × Scene K} (part : Quantity × K) (h : Unpadded view acc.2)
    (hn : Numbered acc.1 acc.2)
    (pins : view ∉ (Scene.pinPart w name engine acc part).2.pinsRefused) :
    Unpadded view (Scene.pinPart w name engine acc part).2 := by
  let c := pinConstraint acc.2.nextLinear w part
  have fresh : Unpadded view acc.2.freshLinear.2 := h
  have added := fresh.addLinear (hn.freshLinear (c := c) rfl) engine (c := c)
  unfold Scene.pinPart at pins ⊢
  dsimp only [freshLinear] at added pins ⊢
  generalize Scene.addLinear _ engine (pinConstraint acc.2.nextLinear w part) = a at added pins ⊢
  obtain ⟨cause | _, t⟩ := a
  · refine added (.inr ?_)
    rintro ⟨v, hv, rfl⟩
    rw [pinConstraint_mentioned, List.mem_singleton] at hv
    rw [hv] at pins
    exact pins (List.mem_filterMap.2 ⟨_, List.mem_append_right _ (.head _), rfl⟩)
  · exact added (.inl rfl)

/-- What is refused of the view in the end covers what was refused while its pins were asked for. -/
theorem Unpadded.pin [UnitScalar K] (h : Unpadded view s) (hn : Numbered [] s) (w : ViewId)
    (pins : view ∉ (s.pin w).pinsRefused) : Unpadded view (s.pin w) := by
  revert pins
  refine pin_induction (Q := fun t => view ∉ t.pinsRefused → Unpadded view t)
    (fun _ acc => Numbered acc.1 acc.2 ∧ (view ∉ acc.2.pinsRefused → Unpadded view acc.2))
    (fun _ _ => h) (fun _ _ _ => ⟨hn, fun _ => h⟩) ?_ fun _ _ _ _ _ h => h.2
  rintro v _ acc part _ ⟨numbered, tried⟩
  refine ⟨numbered.pinPart w v.name v.engine part, fun pins => ?_⟩
  have log := pinPart_log w v.name v.engine acc part
  have before := tried fun hview => pins ((log.filterMap Event.pinRefused?).subset hview)
  exact before.pinPart w v.name v.engine part numbered pins

/-- Releasing one pin takes its mention out, unless the failure of the solver is logged. -/
theorem Unpadded.unpinPart (w : ViewId) (name : String) (engine : EngineId) (h : Unpadded view s)
    (hn : Numbered passing s) {c : Constraint K} (hc : c ∈ passing)
    (clean : (Scene.unpinPart w name engine s c).Clean) :
    Unpadded view (Scene.unpinPart w name engine s c) := by
  have removed := h.removeLinear hn engine (c := c) (List.mem_append_left s.linears hc)
  unfold Scene.unpinPart at clean ⊢
  generalize s.removeLinear engine c = a at removed clean ⊢
  obtain ⟨cause | _, t⟩ := a
  · refine removed fun _ h => ?_
    cases h
    exact clean cause (List.mem_filterMap.2 ⟨_, List.mem_append_right _ (.head _), rfl⟩)
  · refine removed fun _ h => ?_
    cases h

/-- Releasing a view takes out the mentions of its pins, pin by pin; a log that is clean in the end
was clean on the way. -/
theorem Unpadded.unpin (h : Unpadded view s) (hn : Numbered [] s) (w : ViewId)
    (clean : (s.unpin w).Clean) : Unpadded view (s.unpin w) := by
  revert clean
  refine unpin_induction (Q := fun t => t.Clean → Unpadded view t)
    (fun v cs t => cs ⊆ v.pinned ∧ Numbered v.pinned t ∧ (t.Clean → Unpadded view t))
    (fun _ _ => h) ?_ ?_ ?_
  · intro v pins hv hpins
    have recorded : v.pinned = pins := by rw [View.pinned, hpins]; rfl
    exact ⟨recorded ▸ List.Subset.refl _, hn.unrecord hv, fun _ => h⟩
  · rintro v _ c cs t ⟨sub, numbered, left⟩
    refine ⟨List.subset_of_cons_subset sub, numbered.unpinPart w v.name v.engine c, fun clean => ?_⟩
    have before := left (clean.of_prefix (unpinPart_log w v.name v.engine t c))
    exact before.unpinPart w v.name v.engine numbered (sub (.head _)) clean
  · exact fun _ _ _ h clean => h.2.2 (clean.of_prefix (List.prefix_append _ _))

/-! ## Every request -/

/-- A report counts no mentions. -/
theorem Unpadded.frame (h : Unpadded view s) (w : ViewId) : Unpadded view (s.frame w).2 := by
  have read := frame_read s w
  generalize s.frame w = a at read ⊢
  cases read with
  | absent => exact h
  | @learnt v e _ he => exact h.set v.engine fun q => (h e (List.mem_of_getElem? he) q).fetchChanges

/-- Setting the flag of a view pins it or releases it, and what is logged in the end covers all that
was refused meanwhile. -/
theorem Unpadded.setPinned [UnitScalar K] (h : Unpadded view s) (hn : Numbered [] s) (w : ViewId)
    (enabled : Bool) (unrefused : Unrefused view (s.setPinned w enabled)) :
    Unpadded view (s.setPinned w enabled) := by
  cases enabled with
  | true =>
    have pins := unrefused.pins
    rw [Scene.setPinned, if_pos rfl] at pins ⊢
    have read : Unpadded view
        ((s.frame w).2.modifyView w fun v => { v with frame := (s.frame w).1 }) := h.frame w
    refine read.pin ((hn.frame w).modifyView w ?_ ?_) w pins
    · exact fun _ => rfl
    · exact fun _ => rfl
  | false => exact h.unpin hn w unrefused.clean

/-- A new view is one more whose pins are asked for. -/
theorem Unpadded.insertView [UnitScalar K] (h : Unpadded view s) (hn : Numbered [] s)
    (name : String) {engine : EngineId} (he : engine < s.engines.length) (frame : Rect K) (insets : Insets K)
    (unrefused : Unrefused view (s.insertView name engine frame insets).2) :
    Unpadded view (s.insertView name engine frame insets).2 :=
  have inserted : Unpadded view { s with views := s.views ++ [{ name, engine, insets, frame }] } :=
    h
  inserted.pin (hn.appendView name he frame insets) _ unrefused.pins

/-- A new engine mentions nothing yet. -/
theorem Unpadded.appendEngine (h : Unpadded view s) (config : Config K) (root : ViewId) :
    Unpadded view { s with engines := s.engines ++ [Engine.create config root] } := by
  intro e he q
  rcases List.mem_append.1 he with he | he
  · exact h e he q
  · rw [List.mem_singleton.1 he]
    exact ⟨Nat.zero_le _, nofun⟩

/-- A new scene has no mentions but those of the pins of its root. -/
theorem unpadded_start [UnitScalar K] (config : Config K)
    (unrefused : Unrefused view (Scene.empty.addEngine config).2) :
    Unpadded view (Scene.empty.addEngine config).2 :=
  have none : Unpadded view (empty : Scene K) := List.forall_mem_nil _
  (none.appendEngine config _).insertView (numbered_start config _) _ (by simp) _ _ unrefused

/-- A constraint whose request is refused must not mention the view. -/
theorem Unpadded.trySetActive (h : Unpadded view s) (hn : Numbered [] s) (c : ConstraintId)
    (active : Bool) (refused : ∀ error r, (s.trySetActive c active).1 = .error error →
      s.constraints[c]? = some r → error.cause.isInternal = false ∧ ¬ r.linear.Mentions view) :
    Unpadded view (s.trySetActive c active).2 := by
  have requested {r : AnchorConstraint K} (hr : s.constraints[c]? = some r)
      (granted : (s.requestActivity r active).1 = .ok () ∨ ∃ cause,
        (s.requestActivity r active).1 = .error cause ∧ cause.isInternal = false ∧
          ¬ r.linear.Mentions view) : Unpadded view (s.requestActivity r active).2 := by
    cases active with
    | true => exact h.addLinear hn r.engine (granted.imp_right fun ⟨_, _, _, free⟩ => free)
    | false =>
      refine h.removeLinear hn r.engine ?_ fun cause hcause => ?_
      · exact List.mem_append_left (s.views.flatMap View.pinned)
          (List.mem_map_of_mem (List.mem_of_getElem? hr))
      · have asked : (s.requestActivity r false).1 = .error cause := hcause
        rcases granted with ok | ⟨cause', hcause', external, -⟩
        · rw [asked] at ok
          cases ok
        · rw [asked] at hcause'
          cases hcause'
          exact external
  have switching := trySetActive_switching s c active
  generalize s.trySetActive c active = a at switching refused ⊢
  cases switching with
  | idle _ => exact h
  | refused r cause hr _ hreq =>
    have asked := requested hr
    rw [hreq] at asked
    exact asked (.inr ⟨cause, rfl, refused _ r rfl hr⟩)
  | switched r hr _ hreq =>
    have asked := requested hr
    rw [hreq] at asked
    exact asked (.inl rfl)

/-- The request that logs its refusal: the log tells which constraint was refused, and so whether it
mentions the view. -/
theorem Unpadded.setActive (h : Unpadded view s) (hn : Numbered [] s) (c : ConstraintId)
    (active : Bool) (unrefused : Unrefused view (s.setActive c active)) :
    Unpadded view (s.setActive c active) := by
  have tried := h.trySetActive hn c active
  have steady := trySetActive_steady s c active
  unfold Scene.setActive at unrefused ⊢
  generalize s.trySetActive c active = a at tried steady unrefused ⊢
  obtain ⟨error | _, t⟩ := a
  · refine tried fun error' r herror hr => ?_
    cases herror
    obtain ⟨r', hr', same⟩ := steady.grows.constraint hr
    have linear : r'.linear = r.linear := congrArg (fun i => i.2.2) same
    have logged : Event.activationRefused c error ∈ (t.emit (.activationRefused c error)).log :=
      List.mem_append_right _ (.head _)
    exact ⟨unrefused.clean _ (List.mem_filterMap.2 ⟨_, logged, rfl⟩),
      linear ▸ unrefused.activations c error r' logged hr'⟩
  · refine tried fun _ _ h => ?_
    cases h

/-- What every request keeps, unless something that mentions the view is refused. -/
structure KeepsUnpadded (view : ViewId) (s t : Scene K) : Prop where
  log : s.log <+: t.log
  grows : Grows s t
  numbered : Numbered [] s → Numbered [] t
  unpadded : Unrefused view t → Numbered [] s → Unpadded view s → Unpadded view t

/-- Every request keeps the mentions of a view those of held constraints, unless the log says that
something which mentions the view was refused. -/
theorem unpadded_stable [UnitScalar K] : Stable (KeepsUnpadded (K := K) view) where
  refl s := ⟨List.prefix_refl _, grows_stable.refl s, id, fun _ _ => id⟩
  trans h h' := ⟨h.log.trans h'.log, h.grows.trans h'.grows, h'.numbered ∘ h.numbered,
    fun unrefused hn hs => h'.unpadded unrefused (h.numbered hn)
      (h.unpadded (unrefused.of_later h'.log h'.grows) hn hs)⟩
  addEngine s config := ⟨logged_stable.addEngine s config, grows_stable.addEngine s config,
    numbered_stable.addEngine s config, fun unrefused hn hs =>
      (hs.appendEngine config _).insertView (hn.appendEngine config _) _ (by simp) _ _ unrefused⟩
  addView s engine name frame he := ⟨logged_stable.addView s engine name frame he,
    grows_stable.addView s engine name frame he, numbered_stable.addView s engine name frame he,
    fun unrefused hn hs => hs.insertView hn name he frame _ unrefused⟩
  relate s lhs relation rhs offset := ⟨logged_stable.relate s lhs relation rhs offset,
    grows_stable.relate s lhs relation rhs offset, numbered_stable.relate s lhs relation rhs offset,
    fun _ _ hs => hs⟩
  relateNumber s lhs value := ⟨logged_stable.relateNumber s lhs value,
    grows_stable.relateNumber s lhs value, numbered_stable.relateNumber s lhs value,
    fun _ _ hs => hs⟩
  setActive s c active := ⟨setActive_log s c active, grows_stable.setActive s c active,
    numbered_stable.setActive s c active, fun unrefused hn hs => hs.setActive hn c active unrefused⟩
  setPinned s w enabled := ⟨setPinned_log s w enabled, grows_stable.setPinned s w enabled,
    numbered_stable.setPinned s w enabled,
    fun unrefused hn hs => hs.setPinned hn w enabled unrefused⟩
  setInsets s w insets := ⟨logged_stable.setInsets s w insets, grows_stable.setInsets s w insets,
    numbered_stable.setInsets s w insets, fun _ _ hs => hs⟩
  frame s w := ⟨logged_stable.frame s w, grows_stable.frame s w, numbered_stable.frame s w,
    fun _ _ hs => hs.frame w⟩
  report s a := ⟨logged_stable.report s a, grows_stable.report s a, numbered_stable.report s a,
    fun _ _ hs => hs⟩

/-- A view without pins that no active constraint mentions has nothing in use: what is held is in
force, and of that neither the constraints nor the pins of other views mention it. -/
theorem Unpadded.unused (h : Unpadded view s) (accounted : Accounted 0 [] s) (apart : PinsApart s)
    {v : View K} (hv : s.views[view]? = some v) (released : v.pins = none)
    (free : ∀ r ∈ s.constraints, r.active = true → ¬ r.linear.Mentions view) {i : EngineId}
    {e : Engine K} (he : s.engines[i]? = some e) (q : Quantity) :
    e.solver.symbolOf ⟨view, q⟩ = none := by
  refine (h e (List.mem_of_getElem? he) q).symbolOf_eq_none fun c hc hq => ?_
  have held : c ∈ s.heldBy i := by
    rw [heldBy, he]
    exact hc
  rcases List.mem_append.1 ((accounted.heldBy_perm i).mem_iff.1 held) with made | pin
  · obtain ⟨r, hr, rfl⟩ := List.mem_map.1 made
    obtain ⟨hr, asked⟩ := List.mem_filter.1 hr
    exact free r hr (of_decide_eq_true asked).2 ⟨_, hq, rfl⟩
  · obtain ⟨w, hw, hown⟩ := List.mem_flatMap.1 pin
    obtain ⟨j, hj, rfl⟩ := List.getElem_of_mem (List.mem_of_mem_filter hw)
    have own : c ∈ s.pinsOf j := by
      rw [pinsOf, List.getElem?_eq_getElem hj]
      exact hown
    obtain rfl : view = j := apart j c own _ hq
    rw [List.getElem?_eq_getElem hj] at hv
    cases hv
    rw [View.pinned, released] at hown
    cases hown

end Scene

end ViewConstraints
