import ViewConstraints.Proofs.Scene.Repinned
import ViewConstraints.Proofs.Session.Frames
import ViewConstraints.Proofs.Session.Pinned

/-!
# Views that say they are pinned

A view that says it is pinned has a pin for each of its quantities, but for those whose pins were
refused; each refusal was reported since the view was last released (`Session.pinned_or_refused`). No pin
of a view that was never released is refused. A view that was released is held again at the frame read at
that moment, and a pin is refused exactly if the solver excludes the number read. That does happen: the
number that is read need not be the one that an active constraint gives the unknown
(`Session.width_refused_when_held_again`).
-/

namespace ViewConstraints

open Linear Scene
open scoped List

namespace Session

section

variable {K : Type} [Scalar K] [UnitScalar K]

omit [UnitScalar K] in
/-- In every state of a session what engines know of unknowns is what they were told. -/
theorem start_run_told (config : Config K) (steps : List (Step K)) :
    Told ((start config).run steps).scene :=
  run_stable told_stable trySetActive_told steps (start config) (told_empty.addEngine config)

/-- Every state of a session is orderly. -/
theorem start_run_orderly (config : Config K) (steps : List (Step K)) :
    Orderly ((start config).run steps).scene :=
  run_stable orderly_stable (fun _ c active => trySetActive_orderly c active) steps (start config)
    (upheld_start config).orderly

omit [UnitScalar K] in
theorem perform_setPinned {s : Session K} {view : ViewId} {v : View K}
    (hv : s.scene.views[view]? = some v) (enabled : Bool) :
    (s.perform (.setPinned view enabled)).2.scene = s.scene.setPinned view enabled := by
  rw [perform, withView, hv]
  rfl

/-- In every state a session reaches without a failure of a solver from within, a view that says it is
pinned has a pin that its solver holds for each of its quantities, but for those whose pins were reported
as refused since the view was last released; none is if the view was never released. A view that is held
again is granted each pin whose number the solver does not exclude when the pin's turn comes; if its
unknowns are not in use, it is granted them all and is read where it was. -/
theorem pinned_or_refused (config : Config K) (steps : List (Step K))
    (internal : ∀ cause ∈ (start config).refusals steps, cause.isInternal = false) :
    let s := ((start config).run steps).scene
    (∀ view v, s.views[view]? = some v → v.isPinned = true →
      s.PinnedOn view v v.accepted ∧ v.accepted <+ Quantity.all ∧
      v.accepted.length + s.refusedPins view = Quantity.all.length ∧
      (s.PinnedOn view v Quantity.all ↔ s.refusedPins view = 0)) ∧
    ((start config).AnchorsExist steps → ∀ view frame,
      ((start config).unreleased [some config.rootFrame] steps)[view]? = some (some frame) →
      ∃ v, s.views[view]? = some v ∧ v.isPinned = true ∧ s.PinnedOn view v Quantity.all) ∧
    ∀ view v, s.views[view]? = some v → v.isPinned = false →
      (∀ cause ∈ (start config).refusals (steps ++ [Step.setPinned view true]), cause.isInternal = false) →
      let t := ((start config).run (steps ++ [Step.setPinned view true])).scene
      ∃ w, t.views[view]? = some w ∧ w.isPinned = true ∧
        (∀ done q rest, Quantity.all = done ++ q :: rest →
          ∃ e, (s.repinning view v done).2.engines[v.engine]? = some e ∧
            Repinned e.solver ⟨view, q⟩ ((s.frame view).1.component q) (q ∈ w.accepted)
              ((t.frame view).1.component q)) ∧
        ∀ e, s.engines[v.engine]? = some e → (∀ q, e.solver.symbolOf ⟨view, q⟩ = none) →
          t.PinnedOn view w Quantity.all ∧
          ∀ q, Agree ((t.frame view).1.component q) ((s.frame view).1.component q) := by
  intro s
  have told : Told s := start_run_told config steps
  have orderly : Orderly s := start_run_orderly config steps
  have accounted : Accounted 0 [] s := start_run_accounted config steps internal
  refine ⟨?_, ?_, ?_⟩
  · intro view v hv hp
    obtain ⟨held, sublist, count⟩ := told.pinnedOn accounted hv hp
    exact ⟨held, sublist, count, told.pinnedOn_all_iff accounted hv hp⟩
  · intro anchors view frame hframe
    have upheld := (upheld_start config).run steps anchors
    obtain ⟨v, hv, hp, all⟩ := (upheld.held view frame hframe).accepted orderly told accounted
    exact ⟨v, hv, hp, told.pinnedOn_all accounted hv hp all⟩
  · intro view v hv hp internal' t
    have told' : Told t := start_run_told config _
    have accounted' : Accounted 0 [] t := start_run_accounted config _ internal'
    have clean : t.Clean := fun cause hc => internal' cause (List.mem_append_right _ hc)
    have held : t = s.setPinned view true :=
      (congrArg Session.scene (run_append _ steps _)).trans (perform_setPinned hv true)
    rw [held] at told' accounted' clean ⊢
    obtain ⟨-, -, w, hw, hpins, -⟩ := setPinned_repinning hv hp
    have pinned : w.isPinned = true := by rw [View.isPinned, hpins]; rfl
    refine ⟨w, hw, pinned, fun done q rest => setPinned_repins orderly hv hp clean hw, ?_⟩
    intro e he unused
    have again := setPinned_of_unused orderly hv hp clean hw he unused
    exact ⟨told'.pinnedOn_all accounted' hw pinned fun q => (again q).1, fun q => (again q).2⟩

end

/-- A card whose width is fixed after it was read and released, and a badge that is released. -/
def badgeReleased : List (Step Rat) :=
  widthFixedAfterReading 80 ++ [.addView 0 "badge" ⟨0, 0, 30, 30⟩, .setPinned 2 false]

/-- The scene after `badgeReleased`. -/
def withBadgeReleased : Scene Rat := ((start Config.standard).run badgeReleased).scene

/-- The scene in which one of the views of `withBadgeReleased` is held again. -/
def heldAgain (view : ViewId) : Scene Rat :=
  ((start Config.standard).run (badgeReleased ++ [Step.setPinned view true])).scene

/-- `pinned_or_refused` for the root view, which was not released, and for a card and a badge that are
held again: the width of the card is in use, the badge has nothing in use. -/
theorem pinned_or_refused_badgeReleased :
    (start Config.standard).refusals badgeReleased = [] ∧
    (∃ v, withBadgeReleased.views[0]? = some v ∧ v.isPinned = true ∧
      withBadgeReleased.PinnedOn 0 v Quantity.all) ∧
    (∃ w, ∃ e : Engine Rat, (heldAgain 1).views[1]? = some w ∧ w.isPinned = true ∧
      Repinned e.solver ⟨1, .width⟩ ((withBadgeReleased.frame 1).1.component .width)
        (.width ∈ w.accepted) (((heldAgain 1).frame 1).1.component .width)) ∧
    ∃ w, (heldAgain 2).views[2]? = some w ∧ w.isPinned = true ∧
      (heldAgain 2).PinnedOn 2 w Quantity.all ∧
      ∀ q, Agree (((heldAgain 2).frame 2).1.component q)
        ((withBadgeReleased.frame 2).1.component q) := by
  obtain ⟨-, unreleased, again⟩ := pinned_or_refused .standard badgeReleased (by decide +kernel)
  obtain ⟨root, hroot⟩ := Option.isSome_iff_exists.1 <| show
    ((start Config.standard).unreleased [some Config.standard.rootFrame] badgeReleased)[0]?.join.isSome =
      true by decide +kernel
  obtain ⟨card, hcard, hp⟩ := Option.map_eq_some_iff.1 <| show
    withBadgeReleased.views[1]?.map View.isPinned = some false by decide +kernel
  obtain ⟨badge, hbadge, released⟩ := Option.map_eq_some_iff.1 <| show
    withBadgeReleased.views[2]?.map (fun v => (v.isPinned, v.engine)) = some (false, 0) by decide +kernel
  obtain ⟨hp', hengine⟩ := Prod.mk.inj released
  obtain ⟨e, he, unused⟩ := Option.map_eq_some_iff.1 <| show
    withBadgeReleased.engines[0]?.map
      (fun e => decide (∀ q ∈ Quantity.all, e.solver.symbolOf ⟨2, q⟩ = none)) = some true
    by decide +kernel
  obtain ⟨w, hw, pinned, repinned, -⟩ := again 1 card hcard hp (by decide +kernel)
  obtain ⟨f, -, width⟩ := repinned [.left, .top] .width [.height] rfl
  obtain ⟨w', hw', pinned', -, whole⟩ := again 2 badge hbadge hp' (by decide +kernel)
  refine ⟨by decide +kernel, ?_, ⟨w, f, hw, pinned, width⟩, w', hw', pinned', ?_⟩
  · exact unreleased (by decide +kernel) 0 root (Option.join_eq_some_iff.1 hroot)
  · exact whole e (hengine ▸ he) fun q => of_decide_eq_true unused q q.mem_all

/-- A width that is read as it was when it was learnt is asked for when the card is held again, against
the active constraint that the width is zero: the pin is refused and reported, and the card says it is
pinned with three pins. Nothing was refused before. -/
theorem width_refused_when_held_again :
    (start Config.standard).refusals (widthFixedAfterReading 0) = [] ∧
    ((start Config.standard).run (widthFixedAfterReading 0)).scene.views[1]?.map View.isPinned =
      some false ∧
    (((start Config.standard).run (widthFixedAfterReading 0)).scene.frame 1).1.component .width = 100 ∧
    (start Config.standard).refusals (widthFixedAfterReading 0 ++ [Step.setPinned 1 true]) =
      [.unsatisfiable] ∧
    ((start Config.standard).run
      (widthFixedAfterReading 0 ++ [Step.setPinned 1 true])).scene.refusedPins 1 = 1 ∧
    ((start Config.standard).run
      (widthFixedAfterReading 0 ++ [Step.setPinned 1 true])).scene.views[1]?.map
        (fun w : View Rat => (w.isPinned, w.pinned.length, w.accepted)) =
      some (true, 3, [.left, .top, .height]) := by
  decide +kernel

end Session

end ViewConstraints
