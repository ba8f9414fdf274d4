import ViewConstraints.Proofs.Scene.Restored
import ViewConstraints.Proofs.Session.Repinned

/-!
# Views that are released and held again at once

A view is restored by being released and held again if its engine had learnt the frame it was held
at, and only then (`Session.restored_iff_learnt`). An engine learns from reads alone, so the frame
of a view that was never read is lost, and the view is held at zero (`Session.frame_lost_unread`).

The law has three guards, without which the view may have unknowns in use after its release: no
active constraint mentions the view, none that was refused does (`Session.rejected`), and no pin of
it was refused.
-/

namespace ViewConstraints

open Linear Scene

namespace Session

section

variable {K : Type} [Scalar K]

/-- The constraint whose activity a step asks to be changed in vain, if the refusal is answered. -/
def refusedBy (s : Session K) : Step K → Option ConstraintId
  | .trySetActive place active =>
    s.kept[place]?.filter fun c => !(s.scene.trySetActive c active).1.isOk
  | _ => none

/-- The constraints that were refused in a run, whether it was answered or reported, and those
reported before it. -/
def rejected (s : Session K) : List (Step K) → List ConstraintId
  | [] => s.scene.rejected
  | step :: rest => (s.refusedBy step).toList ++ rejected (s.perform step).2 rest

/-- What the log reports as refused was refused in the run. -/
theorem rejected_subset (steps : List (Step K)) (s : Session K) :
    (s.run steps).scene.rejected ⊆ s.rejected steps := by
  induction steps generalizing s with
  | nil => exact List.Subset.refl _
  | cons step steps ih => exact fun c hc => List.mem_append_right _ (ih _ hc)

/-- No run changes what a constraint, a view or an engine is made with. -/
theorem run_grows (steps : List (Step K)) (s : Session K) : Grows s.scene (s.run steps).scene :=
  run_stable grows_stable (fun s c active => (trySetActive_steady s c active).grows) steps s

/-- A frame that is answered is the one read of the scene, which has learnt it. -/
theorem perform_frame {s : Session K} {view : ViewId} {frame : Rect K}
    (h : (s.perform (.frame view)).1 = .frame frame) :
    frame = (s.scene.frame view).1 ∧ (s.run [.frame view]).scene = (s.scene.frame view).2 := by
  have performed : (s.run [.frame view]).scene = (s.perform (.frame view)).2.scene := rfl
  rw [performed]
  simp only [perform, withView] at h ⊢
  split at h
  · cases h
  · cases h
    exact ⟨rfl, rfl⟩

variable [UnitScalar K] {view : ViewId}

/-- One step keeps the mentions of the view those of held constraints, if it is not answered with
the refusal of a constraint that mentions the view. -/
theorem perform_keepsUnpadded (s : Session K) (step : Step K)
    (external : ∀ cause, (s.perform step).1.cause? = some cause → cause.isInternal = false)
    (spared : ∀ c ∈ s.refusedBy step, ∀ r ∈ s.scene.constraints[c]?, ¬ r.linear.Mentions view) :
    KeepsUnpadded view s.scene (s.perform step).2.scene := by
  refine perform_stable unpadded_stable s step fun place active c hstep hkept => ?_
  subst hstep
  refine ⟨trySetActive_log s.scene c active, (trySetActive_steady s.scene c active).grows,
    fun hn => hn.trySetActive c active, fun _ hn hs => hs.trySetActive hn c active ?_⟩
  intro error r herror hr
  have asked : s.refusedBy (.trySetActive place active) = some c := by
    rw [refusedBy, hkept, Option.filter_some, herror]
    rfl
  refine ⟨external _ ?_, spared c asked r hr⟩
  simp only [perform, withKept, hkept]
  generalize s.scene.trySetActive c active = a at herror
  obtain ⟨_, t⟩ := a
  cases herror
  rfl

/-- A run in which nothing that mentions the view is refused, by induction on its steps. -/
theorem run_unpadded (steps : List (Step K)) {s : Session K} (hn : Numbered [] s.scene)
    (h : Unpadded view s.scene) (internal : ∀ cause ∈ s.refusals steps, cause.isInternal = false)
    (unrefused : Unrefused view (s.run steps).scene)
    (spared : ∀ c ∈ s.rejected steps, ∀ r ∈ (s.run steps).scene.constraints[c]?,
      ¬ r.linear.Mentions view) : Unpadded view (s.run steps).scene := by
  induction steps generalizing s with
  | nil => exact h
  | cons step steps ih =>
    have first : KeepsUnpadded view s.scene (s.perform step).2.scene := by
      refine perform_keepsUnpadded s step
        (fun cause hc => internal cause (mem_refusals_of_answer hc steps)) fun c hc r hr => ?_
      obtain ⟨r', hr', same⟩ := (run_grows (step :: steps) s).constraint hr
      have linear : r'.linear = r.linear := congrArg (fun i => i.2.2) same
      exact linear ▸ spared c (List.mem_append_left _ (Option.mem_toList.2 hc)) r' hr'
    have before : Unrefused view (s.perform step).2.scene :=
      unrefused.of_later (run_log steps _) (run_grows steps _)
    exact ih (first.numbered hn) (first.unpadded before hn h)
      (fun cause hc => internal cause (refusals_perform_subset s step steps hc)) unrefused
      fun c hc => spared c (List.mem_append_right _ hc)

/-- If nothing that mentions a view is refused in a run, the mentions of the view are those of
constraints that are held. -/
theorem start_run_unpadded (config : Config K) (steps : List (Step K))
    (internal : ∀ cause ∈ (start config).refusals steps, cause.isInternal = false)
    (pins : view ∉ ((start config).run steps).scene.pinsRefused)
    (spared : ∀ c ∈ (start config).rejected steps,
      ∀ r ∈ ((start config).run steps).scene.constraints[c]?, ¬ r.linear.Mentions view) :
    Unpadded view ((start config).run steps).scene := by
  have unrefused : Unrefused view ((start config).run steps).scene :=
    ⟨fun cause hc => internal cause (List.mem_append_right _ hc), pins, fun c _ r he hr =>
      spared c (rejected_subset steps _ (List.mem_filterMap.2 ⟨_, he, rfl⟩)) r hr⟩
  have started : Unpadded view (start config).scene := unpadded_start config <|
    unrefused.of_later (run_log steps (start config)) (run_grows steps (start config))
  exact run_unpadded steps (start_evolves config).1 started internal unrefused spared

/-- In every state a session reaches without a failure of a solver from within, let a view be
mentioned by no active constraint and by none that was refused, and no pin of it have been refused.
If it is released and held again at once, it is held on all its quantities at the frame that its
engine had learnt, which is read next. So a view that was held at a frame is read at it again
exactly if the engine had learnt that frame; it had if the frame was read just before, and then a
view that was never released is read again at the frame it was made with. -/
theorem restored_iff_learnt (config : Config K) (steps : List (Step K)) {view : ViewId} {v : View K}
    {e : Engine K} (hv : ((start config).run steps).scene.views[view]? = some v)
    (he : ((start config).run steps).scene.engines[v.engine]? = some e)
    (free : ∀ r ∈ ((start config).run steps).scene.constraints, r.active = true →
      ¬ r.linear.Mentions view)
    (spared : ∀ c ∈ (start config).rejected steps,
      ∀ r ∈ ((start config).run steps).scene.constraints[c]?, ¬ r.linear.Mentions view)
    (pins : view ∉ ((start config).run steps).scene.pinsRefused)
    (internal : ∀ cause ∈ (start config).refusals
      (steps ++ [.setPinned view false] ++ [.setPinned view true]), cause.isInternal = false) :
    let s := ((start config).run steps).scene
    let t := ((start config).run (steps ++ [.setPinned view false] ++ [.setPinned view true])).scene
    HeldAgain s t view v e ∧
    (∀ rect, s.PinnedTo view v rect →
      ((∀ q, Agree ((t.frame view).1.component q) (rect.component q)) ↔
        ∀ q, Agree ((e.frameOf view).component q) (rect.component q))) ∧
    ∀ before frame, steps = before ++ [.frame view] →
      (((start config).run before).perform (.frame view)).1 = .frame frame →
      e.frameOf view = frame ∧
      ((start config).AnchorsExist before → ∀ rect,
        ((start config).unreleased [some config.rootFrame] before)[view]? = some (some rect) →
        ∀ q, Agree ((t.frame view).1.component q) (rect.component q)) := by
  intro s t
  have released : ((start config).run (steps ++ [.setPinned view false])).scene =
      s.setPinned view false :=
    (congrArg Session.scene (run_append _ steps _)).trans (perform_setPinned hv false)
  have internal' : ∀ cause ∈ (start config).refusals (steps ++ [.setPinned view false]),
      cause.isInternal = false :=
    fun cause hc => internal cause (refusals_subset _ _ _ hc)
  have again : HeldAgain s t view v e := by
    have orderly : Orderly s := start_run_orderly config steps
    have padless : Unpadded view s := start_run_unpadded config steps
      (fun cause hc => internal' cause (refusals_subset _ _ _ hc)) pins spared
    have accounted' := start_run_accounted config _ internal'
    have accounted : Accounted 0 [] t := start_run_accounted config _ internal
    have clean' : ((start config).run (steps ++ [.setPinned view false])).scene.Clean :=
      fun cause hc => internal' cause (List.mem_append_right _ hc)
    have clean : t.Clean := fun cause hc => internal cause (List.mem_append_right _ hc)
    have hu : (s.setPinned view false).views[view]? = some { v with pins := none } :=
      (orderly.numbered.unpin_released hv).view hv
    have held : t = (s.setPinned view false).setPinned view true := by
      have performed := perform_setPinned
        (s := (start config).run (steps ++ [.setPinned view false])) (released ▸ hu) true
      rw [released] at performed
      exact (congrArg Session.scene (run_append _ _ _)).trans performed
    rw [released] at accounted' clean'
    rw [held] at accounted clean ⊢
    exact setPinned_heldAgain orderly padless free hv he accounted' clean' accounted clean
  refine ⟨again, fun rect _ => ?_, ?_⟩
  · exact forall_congr' fun q => ⟨(again.read q).symm.trans, (again.read q).trans⟩
  · intro before frame hsteps hframe
    obtain ⟨rfl, read⟩ := perform_frame hframe
    have last : ((start config).run steps).scene =
        (((start config).run before).scene.frame view).2 :=
      hsteps ▸ (congrArg Session.scene (run_append _ before [.frame view])).trans read
    rw [last] at hv he
    have learnt : e.frameOf view = (((start config).run before).scene.frame view).1 :=
      frameOf_frame hv he
    refine ⟨learnt, fun anchors rect hrect q => ?_⟩
    have upheld := (upheld_start config).run before anchors
    have shown := (upheld.held view rect hrect).frame upheld.orderly q
    rw [← learnt] at shown
    exact (again.read q).trans shown

end

/-- A card, and a badge whose width is asked for in vain; the card is read. -/
def cardReadBesideBadge : List (Step Rat) :=
  [.addView 0 "card" ⟨5, 6, 100, 50⟩,
    .addView 0 "badge" ⟨0, 0, 30, 30⟩,
    .makeFixed ⟨2, .width, false⟩ 10,
    .trySetActive 0 true,
    .frame 1]

/-- `restored_iff_learnt` for a card that was read, beside a badge with a refused constraint. -/
theorem restored_iff_learnt_cardReadBesideBadge :
    (start Config.standard).rejected cardReadBesideBadge = [0] ∧
    ∃ v e, ((start Config.standard).run cardReadBesideBadge).scene.views[1]? = some v ∧
      ((start Config.standard).run cardReadBesideBadge).scene.engines[v.engine]? = some e ∧
      HeldAgain ((start Config.standard).run cardReadBesideBadge).scene
        ((start Config.standard).run
          (cardReadBesideBadge ++ [.setPinned 1 false] ++ [.setPinned 1 true])).scene 1 v e ∧
      (e.frameOf 1).width = 100 := by
  obtain ⟨v, hv, hengine⟩ := Option.map_eq_some_iff.1 <| show
    ((start Config.standard).run cardReadBesideBadge).scene.views[1]?.map View.engine = some 0
    by decide +kernel
  obtain ⟨e, he, width⟩ := Option.map_eq_some_iff.1 <| show
    ((start Config.standard).run cardReadBesideBadge).scene.engines[0]?.map
      (fun e => (e.frameOf 1).width) = some 100 by decide +kernel
  rw [← hengine] at he
  have again := restored_iff_learnt .standard cardReadBesideBadge hv he (by decide +kernel)
    (by decide +kernel) (by decide +kernel) (by decide +kernel)
  exact ⟨by decide +kernel, v, e, hv, he, again.1, width⟩

/-- A card at its frame, and nothing else. -/
def cardUnread : List (Step Rat) := [.addView 0 "card" ⟨5, 6, 100, 50⟩]

/-- The frame of a card that was never read is lost when the card is released and held again at
once. There are no constraints, nothing is refused, and read before the release the frame is what it
was made with. -/
theorem frame_lost_unread :
    ((start Config.standard).run cardUnread).scene.constraints.length = 0 ∧
    (start Config.standard).rejected cardUnread = [] ∧
    ((start Config.standard).run cardUnread).scene.views[1]?.map (fun v => v.accepted) =
      some Quantity.all ∧
    frameParts (((start Config.standard).run cardUnread).scene.frame 1).1 =
      [(.left, 5), (.top, 6), (.width, 100), (.height, 50)] ∧
    (start Config.standard).refusals
      (cardUnread ++ [.setPinned 1 false] ++ [.setPinned 1 true]) = [] ∧
    frameParts (((start Config.standard).run
      (cardUnread ++ [.setPinned 1 false] ++ [.setPinned 1 true])).scene.frame 1).1 =
      [(.left, 0), (.top, 0), (.width, 0), (.height, 0)] := by
  decide +kernel

end Session

end ViewConstraints
