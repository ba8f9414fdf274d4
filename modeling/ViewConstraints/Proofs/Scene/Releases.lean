import ViewConstraints.Proofs.Scene.Released
import ViewConstraints.Proofs.Scene.Soft

/-!
# The log tells the truth about releases

A view is released by one request, which reports it once; holding a view reports refusals only
(`OnlyRefused`). So the log has one report of a release for each time a view that was held is held
no more (`setPinned_tallied`), and requests of other kinds report none and leave views held as they
were (`keepsPinned_base`).
-/

namespace ViewConstraints

open Layout Linear

namespace Scene

section

variable {K : Type}

/-- The view whose release an event reports. -/
def Event.released? : Event K → Option ViewId
  | .unpinned view _ => some view
  | _ => none

/-- The views whose releases are reported in a scene, first to last. -/
def releases (s : Scene K) : List ViewId := s.log.filterMap Event.released?

/-- Whether a view is held at its frame; a view that does not exist is not. -/
def isPinned (s : Scene K) (view : ViewId) : Bool := (s.views[view]?.map View.isPinned).getD false

/-- Whether a view that was held in `s` is held no more in `t`. -/
def releasedIn (s t : Scene K) (view : ViewId) : Bool := s.isPinned view && !t.isPinned view

/-- For each view the log has one report of a release more if the view was released, and as many as
before if it was not. -/
def Tallied (s t : Scene K) : Prop :=
  ∀ view, t.releases.count view = s.releases.count view + (s.releasedIn t view).toNat

/-- No release is reported, and the views there are are held as they were. -/
structure KeepsPinned (s t : Scene K) : Prop where
  releases : t.releases = s.releases
  length : s.views.length ≤ t.views.length
  isPinned : ∀ view, view < s.views.length → t.isPinned view = s.isPinned view

/-- Only views that exist are held. -/
theorem lt_of_isPinned {s : Scene K} {view : ViewId} (h : s.isPinned view = true) :
    view < s.views.length := by
  by_contra hv
  rw [isPinned, List.getElem?_eq_none (Nat.le_of_not_lt hv)] at h
  cases h

/-- A report of a refusal is not one of a release. -/
theorem released?_of_refusal (event : Event K) (h : event.cause?.isSome = true) :
    event.released? = none := by
  cases event with
  | unpinned => cases h
  | activated | deactivated | applied | activationRefused | pinRefused | unpinRefused => rfl

/-- Views that stay as they are stay held as they were. -/
theorem KeepsPinned.of_views {s t : Scene K} (releases : t.releases = s.releases)
    (views : t.views = s.views) : KeepsPinned s t :=
  ⟨releases, Nat.le_of_eq (congrArg List.length views).symm, fun view _ => by
    rw [Scene.isPinned, views, Scene.isPinned]⟩

/-- Where views stay held as they were, there is no release to report. -/
theorem KeepsPinned.tallied {s t : Scene K} (h : KeepsPinned s t) : Tallied s t := by
  intro view
  rw [h.releases, releasedIn]
  cases pinned : s.isPinned view with
  | false => rfl
  | true => rw [h.isPinned view (lt_of_isPinned pinned), pinned]; rfl

/-- Requests that keep views as they are after those that do not make views. -/
theorem Tallied.keepsPinned {s t u : Scene K} (h : Tallied s t)
    (views : t.views.length = s.views.length) (h' : KeepsPinned t u) : Tallied s u := by
  intro view
  rw [h'.releases, h view, releasedIn, releasedIn]
  cases pinned : s.isPinned view with
  | false => rfl
  | true => rw [h'.isPinned view (views ▸ lt_of_isPinned pinned)]

/-- Views stay held as they were if the view that is changed does. -/
theorem isPinned_modifyView (s : Scene K) (view : ViewId) (f : View K → View K)
    (hf : ∀ v, (f v).isPinned = v.isPinned) (w : ViewId) :
    (s.modifyView view f).isPinned w = s.isPinned w := by
  rw [isPinned, isPinned, modifyView, ← List.getElem?_map, ← List.getElem?_map, map_modify_of_eq hf]

/-! ## Reports of other requests -/

/-- The log of `t` is that of `s` with reports of refusals added, and no others. -/
def OnlyRefused (s t : Scene K) : Prop :=
  ∃ refused, (∀ event ∈ refused, event.cause?.isSome = true) ∧ t.log = s.log ++ refused

namespace OnlyRefused

variable {s t u : Scene K}

/-- A request that reports nothing reports refusals only. -/
theorem of_log (h : t.log = s.log) : OnlyRefused s t :=
  ⟨[], List.forall_mem_nil _, h.trans (List.append_nil _).symm⟩

theorem refl (s : Scene K) : OnlyRefused s s := of_log rfl

/-- Reports of refusals may follow one another. -/
theorem trans (h : OnlyRefused s t) (h' : OnlyRefused t u) : OnlyRefused s u := by
  obtain ⟨first, hfirst, log⟩ := h
  obtain ⟨others, hothers, log'⟩ := h'
  refine ⟨first ++ others, fun event he => ?_, by rw [log', log, List.append_assoc]⟩
  exact (List.mem_append.1 he).elim (hfirst event) (hothers event)

/-- What is read off reports of other kinds is the same. -/
theorem filterMap {β : Type} (h : OnlyRefused s t) {f : Event K → Option β}
    (hf : ∀ event, event.cause?.isSome = true → f event = none) :
    t.log.filterMap f = s.log.filterMap f := by
  obtain ⟨refused, hrefused, log⟩ := h
  rw [log, List.filterMap_append,
    List.filterMap_eq_nil_iff.2 fun event he => hf event (hrefused event he), List.append_nil]

end OnlyRefused

end

variable {K : Type} [Scalar K] {s : Scene K}

/-- A pin is granted without a report, or its refusal is reported. -/
theorem pinPart_onlyRefused (view : ViewId) (name : String) (engine : EngineId)
    (acc : List (Constraint K) × Scene K) (part : Quantity × K) :
    OnlyRefused acc.2 (pinPart view name engine acc part).2 := by
  have log := addLinear_log acc.2.freshLinear.2 engine (pinConstraint acc.2.nextLinear view part)
  unfold pinPart
  dsimp only [freshLinear] at log ⊢
  split <;> rename_i hr <;> rw [hr] at log
  · exact .of_log log
  · exact ⟨[_], List.forall_mem_singleton.2 rfl, congrArg (· ++ _) log⟩

/-- Holding a view reports the pins that are refused and nothing else. -/
theorem pin_onlyRefused (s : Scene K) (view : ViewId) : OnlyRefused s (s.pin view) := by
  refine pin_induction (fun _ acc => OnlyRefused s acc.2) (fun _ => .refl s)
    (fun _ _ _ => .refl s) ?_ ?_
  · exact fun v _ acc part _ h => h.trans (pinPart_onlyRefused view v.name v.engine acc part)
  · exact fun _ _ _ _ _ h => h.trans (.of_log rfl)

/-- A new view is reported by the refused pins of it only. -/
theorem insertView_onlyRefused (s : Scene K) (name : String) (engine : EngineId) (frame : Rect K)
    (insets : Insets K) : OnlyRefused s (s.insertView name engine frame insets).2 :=
  have inserted : OnlyRefused s { s with views := s.views ++ [{ name, engine, insets, frame }] } :=
    .of_log rfl
  inserted.trans (pin_onlyRefused _ _)

/-- A view that is held again reports refusals only. -/
theorem setPinned_true_onlyRefused (s : Scene K) (view : ViewId) :
    OnlyRefused s (s.setPinned view true) := by
  rw [setPinned, if_pos rfl]
  have framed : OnlyRefused s
      ((s.frame view).2.modifyView view fun v => { v with frame := (s.frame view).1 }) :=
    .of_log (frame_log s view)
  exact framed.trans (pin_onlyRefused _ view)

/-- A release shows in what is read off the log as far as its own report does. -/
theorem unpin_filterMap {β : Type} {f : Event K → Option β}
    (hf : ∀ event, event.cause?.isSome = true → f event = none) {view : ViewId} {v : View K}
    (hv : s.views[view]? = some v) (pinned : v.isPinned = true) :
    (s.unpin view).log.filterMap f =
      s.log.filterMap f ++ (f (.unpinned view v.name)).toList := by
  obtain ⟨refused, hrefused, log⟩ := unpin_reports hv pinned
  have silent : refused.filterMap f = [] := by
    refine List.filterMap_eq_nil_iff.2 fun event he => ?_
    obtain ⟨error, rfl⟩ := hrefused event he
    exact hf _ rfl
  rw [log, List.filterMap_append, List.filterMap_append, silent, List.append_nil]
  cases h : f (.unpinned view v.name) <;> simp [h]

/-! ## Releases -/

/-- After a request to hold a view it is held, even if all its pins were refused, and the others are
as they were. -/
theorem pin_isPinned (s : Scene K) (view w : ViewId) :
    (s.pin view).isPinned w =
      if w = view then decide (view < s.views.length) else s.isPinned w := by
  refine pin_induction (Q := fun t => t.isPinned w = _) (fun _ acc => acc.2.views = s.views)
    ?_ (fun _ _ _ => rfl) ?_ ?_
  · intro full
    split
    next hw =>
      rw [hw, isPinned]
      cases hv : s.views[view]? with
      | none => rw [decide_eq_false (List.getElem?_eq_none_iff.1 hv).not_gt]; rfl
      | some v =>
        rw [decide_eq_true (List.getElem?_eq_some_iff.1 hv).1]
        exact full v hv
    next => rfl
  · exact fun v _ acc part _ h => (pinPart_records view v.name v.engine acc part).views.trans h
  · intro v hv _ pins t (views : t.views = s.views)
    have hlt := (List.getElem?_eq_some_iff.1 hv).1
    rw [isPinned, modifyView, List.getElem?_modify, views]
    by_cases hw : view = w
    · subst hw
      simp [hlt, View.isPinned]
    · simp [hw, Ne.symm hw, isPinned]

/-- After its release a view is not held, whatever the solver answered. -/
theorem unpin_isPinned (s : Scene K) (view w : ViewId) :
    (s.unpin view).isPinned w = if w = view then false else s.isPinned w := by
  rw [isPinned, (unpin_records s view).views, modifyView, List.getElem?_modify]
  by_cases hw : view = w
  · subst hw
    cases s.views[view]? <;> simp [View.isPinned]
  · simp [hw, Ne.symm hw, isPinned]

/-- A view that is held again stays held, and no release is reported. -/
theorem setPinned_true_tallied (s : Scene K) (view : ViewId) :
    Tallied s (s.setPinned view true) := by
  intro w
  have releases : (s.setPinned view true).releases = s.releases :=
    (setPinned_true_onlyRefused s view).filterMap released?_of_refusal
  rw [releases, releasedIn]
  cases pinned : s.isPinned w with
  | false => rfl
  | true =>
    have framed : ((s.frame view).2.modifyView view fun v =>
        { v with frame := (s.frame view).1 }).isPinned w = true := by
      refine (isPinned_modifyView _ view _ ?_ w).trans ?_
      · exact fun _ => rfl
      · rw [isPinned, (frame_records s view).views]
        exact pinned
    rw [setPinned, if_pos rfl, pin_isPinned]
    split
    next hw =>
      subst hw
      rw [decide_eq_true (lt_of_isPinned framed)]
      rfl
    next => rw [framed]; rfl

/-- A view that was held is released, which is reported once. -/
theorem unpin_tallied (s : Scene K) (view : ViewId) : Tallied s (s.unpin view) := by
  have idle : Tallied s s := (KeepsPinned.of_views rfl rfl).tallied
  cases hv : s.views[view]? with
  | none => rwa [unpin, hv]
  | some v =>
    cases pinned : v.isPinned with
    | false => rwa [unpin_of_unpinned hv pinned]
    | true =>
      intro w
      have reported : (s.unpin view).releases = s.releases ++ [view] :=
        unpin_filterMap released?_of_refusal hv pinned
      rw [reported, List.count_append, releasedIn, unpin_isPinned]
      by_cases hw : w = view
      · have held : s.isPinned w = true := by rw [hw, isPinned, hv]; exact pinned
        rw [if_pos hw, held, hw, List.count_singleton_self]
        rfl
      · rw [if_neg hw, Bool.and_not_self, List.count_singleton,
          if_neg fun h => hw (eq_of_beq h).symm]
        rfl

/-- To hold or to release a view reports a release exactly if the view was held and is released. -/
theorem setPinned_tallied (s : Scene K) (view : ViewId) (enabled : Bool) :
    Tallied s (s.setPinned view enabled) := by
  cases enabled with
  | true => exact setPinned_true_tallied s view
  | false => exact unpin_tallied s view

/-- The views before a new one stay held as they were, and its refused pins are no releases. -/
theorem insertView_keepsPinned (s : Scene K) (name : String) (engine : EngineId) (frame : Rect K)
    (insets : Insets K) : KeepsPinned s (s.insertView name engine frame insets).2 where
  releases := (insertView_onlyRefused s name engine frame insets).filterMap released?_of_refusal
  length := Nat.le_of_lt (Nat.lt_of_lt_of_eq (Nat.lt_succ_self _)
    (insertView_views_length s name engine frame insets).symm)
  isPinned view hview := by
    rw [insertView, pin_isPinned, if_neg (Nat.ne_of_lt hview), Scene.isPinned,
      List.getElem?_append_left hview, Scene.isPinned]

/-- A new engine brings a new view and leaves the others as they were. -/
theorem addEngine_keepsPinned (s : Scene K) (config : Config K) :
    KeepsPinned s (s.addEngine config).2 :=
  have inserted := insertView_keepsPinned
    { s with engines := s.engines ++ [Engine.create config s.views.length] } _ _ _ _
  ⟨inserted.releases, inserted.length, inserted.isPinned⟩

/-- A request for activity neither holds a view nor releases it. -/
theorem trySetActive_keepsPinned (s : Scene K) (c : ConstraintId) (active : Bool) :
    KeepsPinned s (s.trySetActive c active).2 := by
  have switching := trySetActive_switching s c active
  have requested (r : AnchorConstraint K) : KeepsPinned s (s.requestActivity r active).2 :=
    .of_views (by rw [releases, releases, requestActivity_log])
      (requestActivity_records s r active).views
  generalize s.trySetActive c active = a at switching ⊢
  cases switching with
  | idle _ => exact .of_views rfl rfl
  | refused r _ _ _ hreq =>
    have asked := requested r
    rwa [hreq] at asked
  | switched r hr hactive hreq =>
    have asked := requested r
    rw [hreq] at asked
    refine ⟨?_, asked.length, asked.isPinned⟩
    rw [← asked.releases]
    cases active <;> exact (List.filterMap_append ..).trans (List.append_nil _)

/-- Requests that neither hold a view nor release it keep views as they are. -/
theorem keepsPinned_base : StableBase (KeepsPinned (K := K)) where
  refl _ := .of_views rfl rfl
  trans h h' := ⟨h'.releases.trans h.releases, h.length.trans h'.length, fun view hview =>
    (h'.isPinned view (Nat.lt_of_lt_of_le hview h.length)).trans (h.isPinned view hview)⟩
  setActive s c active := by
    have tried := trySetActive_keepsPinned s c active
    unfold setActive
    generalize s.trySetActive c active = a at tried ⊢
    obtain ⟨error | _, t⟩ := a
    · refine ⟨?_, tried.length, tried.isPinned⟩
      rw [← tried.releases]
      exact (List.filterMap_append ..).trans (List.append_nil _)
    · exact tried
  setInsets s view insets := by
    refine ⟨rfl, (List.length_modify ..).ge, fun w _ => isPinned_modifyView s view _ ?_ w⟩
    exact fun _ => rfl
  frame s view := .of_views (by rw [releases, releases, frame_log]) (frame_records s view).views
  report s _ := .of_views ((List.filterMap_append ..).trans (List.append_nil _)) rfl

/-- Making a constraint neither holds a view nor releases it. -/
theorem keepsPinned_relates : Relates (fun _ => True) (KeepsPinned (K := K)) where
  relate _ _ _ _ _ _ _ := .of_views rfl rfl
  relateNumber _ _ _ _ := .of_views rfl rfl

end Scene

end ViewConstraints
