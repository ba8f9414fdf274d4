import ViewConstraints.Proofs.Scene.Batch
import ViewConstraints.Proofs.Session.Soft

/-!
# Switching many constraints, in every state

An engine that is asked to switch a list of constraints switches each in its own engine, as if it were
asked for alone and in this order (`perform_setAllActive`). In every state of a session this does
what the list says and nothing else, as long as no solver fails (`Session.batch_switching`).
-/

namespace ViewConstraints

open Linear Scene
open scoped List

namespace Session

section

variable {K : Type}

/-- The constraints that are kept at the places of a list. -/
def members (s : Session K) (places : List Nat) : List ConstraintId :=
  places.filterMap fun place => s.kept[place]?

theorem members_cons_none {s : Session K} {place : Nat} (h : s.kept[place]? = none)
    (places : List Nat) : s.members (place :: places) = s.members places :=
  List.filterMap_cons_none h

theorem members_cons_some {s : Session K} {place : Nat} {c : ConstraintId}
    (h : s.kept[place]? = some c) (places : List Nat) :
    s.members (place :: places) = c :: s.members places :=
  List.filterMap_cons_some h

variable [Scalar K]

/-- No solver fails from within, from the start of a session to the end of its steps. -/
def Unfailing (config : Config K) (steps : List (Step K)) : Prop :=
  ∀ cause ∈ (start config).refusals steps, cause.isInternal = false

theorem Unfailing.of_append {config : Config K} {steps rest : List (Step K)}
    (h : Unfailing config (steps ++ rest)) : Unfailing config steps := fun cause hcause =>
  h cause (refusals_subset _ steps rest hcause)

/-- A run without a failure leaves a clean log. -/
theorem Unfailing.clean {config : Config K} {steps : List (Step K)} (h : Unfailing config steps) :
    ((start config).run steps).scene.Clean := fun cause hcause =>
  h cause (List.mem_append_right _ hcause)

/-- What an engine that exists does when it is asked to switch constraints. -/
theorem perform_setAllActive {s : Session K} {engine : EngineId}
    (known : engine < s.scene.engines.length) (places : List Nat) (active : Bool) :
    (s.perform (.setAllActive engine places active)).2 =
      s.withScene (s.scene.setAllActive (s.members places) active) := by
  rw [perform, withEngine, List.getElem?_eq_getElem known]
  rfl

/-- To switch constraints together is to switch them one by one, by induction on the list. Places at
which nothing is kept count for nothing either way. -/
theorem run_map_setActive (places : List Nat) (active : Bool) (s : Session K) :
    s.run (places.map fun place => .setActive place active) =
      s.withScene (s.scene.setAllActive (s.members places) active) := by
  induction places generalizing s with
  | nil => rfl
  | cons place places ih =>
    rw [List.map_cons]
    show (s.perform (.setActive place active)).2.run _ = _
    rw [ih]
    cases hplace : s.kept[place]? with
    | none => simp only [perform, withKept, hplace, members_cons_none hplace]
    | some c =>
      simp only [perform, withKept, hplace, members_cons_some hplace]
      rfl

/-- In every state of a session an engine switches constraints one by one in the order of the list, in
which a constraint may stand several times. Unless a solver fails from within, up to the end of
this, the constraints are inactive and unheld if they are asked to be inactive, without a warning;
and if they are asked to be active, those that were active stay so, and each other is active or was
refused as unsatisfiable as often as it stands in the list, with a warning each time. All other
constraints are as active and as held as before. If both are asked, one after the other, each solver
holds what it held before without the constraints of the list. -/
theorem batch_switching (config : Config K) (steps : List (Step K)) (engine : EngineId)
    (places : List Nat) (known : engine < ((start config).run steps).scene.engines.length) :
    let s := (start config).run steps
    let activate : Step K := .setAllActive engine places true
    let deactivate : Step K := .setAllActive engine places false
    (∀ active, s.run [.setAllActive engine places active] =
      s.run (places.map fun place => .setActive place active)) ∧
    (Unfailing config (steps ++ [deactivate]) →
      Deactivated s.scene (s.members places) (s.run [deactivate]).scene) ∧
    (Unfailing config (steps ++ [activate]) →
      Activated s.scene (s.members places) (s.run [activate]).scene) ∧
    (Unfailing config (steps ++ [activate, deactivate]) → ∀ i,
      (s.run [activate, deactivate]).scene.heldBy i ~
        (s.scene.heldBy i).filter fun x => x.id ∉ s.scene.linearIds (s.members places)) := by
  intro s activate deactivate
  have exist (c : ConstraintId) (hc : c ∈ s.members places) : c < s.scene.constraints.length := by
    obtain ⟨place, -, hplace⟩ := List.mem_filterMap.1 hc
    exact run_kept steps (s := start config) nofun c (List.mem_of_getElem? hplace)
  have once (active : Bool) : s.run [.setAllActive engine places active] =
      s.withScene (s.scene.setAllActive (s.members places) active) :=
    perform_setAllActive known places active
  have accounted {rest : List (Step K)} (h : Unfailing config (steps ++ rest)) :
      Accounted 0 [] s.scene := start_run_accounted config steps h.of_append
  have clean {rest : List (Step K)} (h : Unfailing config (steps ++ rest)) :
      (s.run rest).scene.Clean := run_append _ _ rest ▸ h.clean
  refine ⟨fun active => (once active).trans (run_map_setActive places active s).symm,
    fun h => ?_, fun h => ?_, fun h i => ?_⟩
  · have done := clean h
    rw [once] at done ⊢
    exact (accounted h).setAllActive_false exist done
  · have done := clean h
    rw [once] at done ⊢
    exact (accounted h).setAllActive_true exist done
  · have done := clean h
    have knownOn : engine < (s.run [activate]).scene.engines.length := by
      have kept := (perform_grows s activate).engines.length_le
      rw [List.length_map, List.length_map] at kept
      exact Nat.lt_of_lt_of_le known kept
    have twice : s.run [activate, deactivate] = (s.run [activate]).withScene
        ((s.run [activate]).scene.setAllActive ((s.run [activate]).members places) false) :=
      perform_setAllActive knownOn places false
    rw [once] at twice
    rw [twice] at done ⊢
    exact (accounted h).setAllActive_true_false exist done i

end

/-- A card on record whose width is asked for in vain, and a panel of another engine that has its
width and its height from constraints. The first constraint is kept twice. -/
def cardAndPanel : List (Step Rat) :=
  [.addEngine (.ok Config.standard),
    .addView 0 "card" ⟨0, 0, 100, 50⟩,
    .addView 1 "panel" ⟨0, 0, 10, 10⟩,
    .makeFixed ⟨2, .width, false⟩ 200,
    .makeFixed ⟨2, .height, false⟩ 50,
    .layout 3 [⟨.width, .equalConstant 20, true⟩, ⟨.height, .equalConstant 5, true⟩],
    .copy 0]

/-- `batch_switching` where a list names a constraint and its copy, which are refused three times, an
inactive one that is granted, and an active one of the other engine. -/
theorem batch_switching_cardAndPanel :
    let s := (start Config.standard).run cardAndPanel
    let activate : Step Rat := .setAllActive 1 [0, 1, 4, 2, 1, 0] true
    let deactivate : Step Rat := .setAllActive 1 [0, 1, 4, 2, 1, 0] false
    s.members [0, 1, 4, 2, 1, 0] = [0, 1, 0, 2, 1, 0] ∧
    (List.range 4).map s.scene.isActive = [false, false, true, true] ∧
    (List.range 4).map (s.run [activate]).scene.isActive = [false, true, true, true] ∧
    (start Config.standard).refusals (cardAndPanel ++ [activate, deactivate]) =
      [.unsatisfiable, .unsatisfiable, .unsatisfiable] ∧
    Deactivated s.scene [0, 1, 0, 2, 1, 0] (s.run [deactivate]).scene ∧
    Activated s.scene [0, 1, 0, 2, 1, 0] (s.run [activate]).scene ∧
    ∀ i, (s.run [activate, deactivate]).scene.heldBy i ~
      (s.scene.heldBy i).filter fun x => x.id ∉ s.scene.linearIds [0, 1, 0, 2, 1, 0] := by
  intro s activate deactivate
  have named : s.members [0, 1, 4, 2, 1, 0] = [0, 1, 0, 2, 1, 0] := by decide +kernel
  obtain ⟨-, off, on, both⟩ := batch_switching Config.standard cardAndPanel 1 [0, 1, 4, 2, 1, 0]
    (by decide +kernel)
  rw [named] at off on both
  have unfailing (rest) (h : ((start Config.standard).refusals (cardAndPanel ++ rest)).all
      (fun cause => !cause.isInternal) = true) : Unfailing Config.standard (cardAndPanel ++ rest) := by
    intro cause hcause
    simpa using List.all_eq_true.1 h cause hcause
  exact ⟨named, by decide +kernel, by decide +kernel, by decide +kernel,
    off (unfailing _ (by decide +kernel)), on (unfailing _ (by decide +kernel)),
    both (unfailing _ (by decide +kernel))⟩

end Session

end ViewConstraints
