import ViewConstraints.Proofs.Scene.Activity
import ViewConstraints.Proofs.Scene.Deactivation

/-!
# Switching many constraints

A list of constraints is switched one after the other, and each request finds the scene as those
before it have left it; a constraint may stand in the list several times, and may be as it is asked
to be already. Seen from one constraint, the requests that are about it report one by one how they
end (`Answered`), and all others leave it alone (`setAllActive_answered`).

While the stores of the scene are in step, what is held follows from what is marked
(`Accounted.linear_mem_heldBy_iff`), so the marks before and after say what a list of requests does
to the solvers (`Accounted.heldBy_of_marks`): to ask for inactivity never fails and clears the list
(`Accounted.setAllActive_false`), to ask for activity fails only on contradictions, each by itself
(`Accounted.setAllActive_true`), and one after the other takes what is in the list out of what was
held before (`Accounted.setAllActive_true_false`).
-/

namespace ViewConstraints

open Linear
open scoped List

namespace Scene

section

variable {K : Type} {s t : Scene K}

/-- The constraint whose activity a report is about. -/
def Event.switched? : Event K → Option ConstraintId
  | .activated c _ | .deactivated c _ | .activationRefused c _ => some c
  | _ => none

/-- The reports about the activity of one constraint. -/
def reportsOf (c : ConstraintId) (reports : List (Event K)) : List (Event K) :=
  reports.filter fun event => event.switched? = some c

/-- The report that a constraint became active or inactive. -/
def Event.change (c : ConstraintId) (relationship : Relationship K) (active : Bool) : Event K :=
  if active then .activated c relationship else .deactivated c relationship

/-- The report that a constraint contradicts what is in force. -/
def Event.contradiction (c : ConstraintId) (relationship : Relationship K) : Event K :=
  .activationRefused c ⟨relationship, .unsatisfiable⟩

/-- The numbers of the linear forms of constraints. -/
def linearIds (s : Scene K) (cs : List ConstraintId) : List Nat :=
  cs.filterMap fun c => s.constraints[c]?.map fun r => r.linear.id

/-! ## The requests about one constraint -/

/-- `Answered c relationship active n before reports after`: the reports of `n` requests for the
constraint `c` to be active or inactive, which was marked as `before` and is marked as `after`. -/
inductive Answered (c : ConstraintId) (relationship : Relationship K) (active : Bool) :
    Nat → Bool → List (Event K) → Bool → Prop where
  | nil (mark : Bool) : Answered c relationship active 0 mark [] mark
  | idle {n : Nat} {reports : List (Event K)} {after : Bool} :
      Answered c relationship active n active reports after →
      Answered c relationship active (n + 1) active reports after
  | granted {n : Nat} {reports : List (Event K)} {after : Bool} :
      Answered c relationship active n active reports after →
      Answered c relationship active (n + 1) (!active) (.change c relationship active :: reports) after
  | refused {n : Nat} {reports : List (Event K)} {after : Bool} (cause : EngineError.Cause) :
      Answered c relationship active n (!active) reports after →
      Answered c relationship active (n + 1) (!active)
        (.activationRefused c ⟨relationship, cause⟩ :: reports) after

namespace Answered

variable {c : ConstraintId} {relationship : Relationship K} {active before after : Bool} {n : Nat}
  {reports : List (Event K)}

/-- Requests for what is the case already change and report nothing. -/
theorem of_same (h : Answered c relationship active n before reports after)
    (same : before = active) : after = active ∧ reports = [] := by
  induction h with
  | nil mark => exact ⟨same, rfl⟩
  | idle _ ih => exact ih rfl
  | granted | refused => exact absurd same (Bool.not_ne_self active)

/-- If no request is refused, the first grants what is asked, if it is not so already. -/
theorem of_unrefused (h : Answered c relationship active n before reports after) (asked : 0 < n)
    (unrefused : ∀ event ∈ reports, event.cause? = none) :
    after = active ∧
      reports = if before = active then [] else [.change c relationship active] := by
  cases h with
  | nil => exact absurd asked (Nat.lt_irrefl 0)
  | idle rest => rw [if_pos rfl]; exact rest.of_same rfl
  | granted rest =>
    obtain ⟨same, none⟩ := rest.of_same rfl
    rw [if_neg (Bool.not_ne_self active), none]
    exact ⟨same, rfl⟩
  | refused cause => cases unrefused _ (.head _)

/-- Requests that meet nothing but contradictions are refused one by one until one is granted, and
the others after that have nothing to do. -/
theorem of_differs (h : Answered c relationship active n before reports after)
    (differs : before = !active)
    (unsatisfiable : ∀ event ∈ reports, ∀ cause, event.cause? = some cause →
      cause = .unsatisfiable) :
    (after = active ∧ ∃ k < n, reports =
      List.replicate k (.contradiction c relationship) ++ [.change c relationship active]) ∨
    (after = !active ∧ reports = List.replicate n (.contradiction c relationship)) := by
  induction h with
  | nil mark => exact .inr ⟨differs, rfl⟩
  | idle => exact absurd differs.symm (Bool.not_ne_self active)
  | @granted n reports after rest _ =>
    obtain ⟨same, none⟩ := rest.of_same rfl
    exact .inl ⟨same, 0, Nat.succ_pos n, by rw [none]; rfl⟩
  | @refused n reports after cause _ ih =>
    obtain rfl : cause = .unsatisfiable := unsatisfiable _ (.head _) cause rfl
    rcases ih rfl fun event hevent => unsatisfiable event (.tail _ hevent) with
      ⟨same, k, hk, hreports⟩ | ⟨same, hreports⟩
    · exact .inl ⟨same, k + 1, Nat.succ_lt_succ hk, by rw [hreports]; rfl⟩
    · exact .inr ⟨same, by rw [hreports]; rfl⟩

/-- A constraint that is not asked for stays as it is marked. -/
theorem of_none (h : Answered c relationship active n before reports after) (hn : n = 0) :
    after = before := by
  cases h with
  | nil => rfl
  | idle | granted | refused => cases hn

end Answered

/-- A report is a warning if it is about a refusal, and not otherwise. -/
theorem Event.level_eq_warn_iff (event : Event K) : event.level = .warn ↔ event.cause?.isSome := by
  cases event <;> simp [level, cause?]

/-! ## Marks -/

theorem isActive_of_getElem? {c : ConstraintId} {r : AnchorConstraint K}
    (hr : s.constraints[c]? = some r) : s.isActive c = r.active := by
  rw [Scene.isActive, hr]
  rfl

/-- The marks of constraints after one was changed. -/
theorem isActive_modify {c : ConstraintId} {r : AnchorConstraint K} {active : Bool}
    (hr : s.constraints[c]? = some r)
    (ht : t.constraints = s.constraints.modify c fun r => { r with active }) (d : ConstraintId) :
    t.isActive d = if c = d then active else s.isActive d := by
  rw [Scene.isActive, ht, List.getElem?_modify]
  split
  next hd => rw [← hd, hr]; rfl
  next => rw [Option.map_eq_map, Option.map_id_fun', id]; rfl

/-- A constraint that is settled in both of two scenes differs in its mark at most. -/
theorem Steady.getElem?_eq (h : Steady s t) {c : ConstraintId} {r : AnchorConstraint K}
    (hr : s.constraints[c]? = some r) :
    t.constraints[c]? = some { r with active := t.isActive c } := by
  obtain ⟨r', hr', same⟩ := h.grows.constraint hr
  simp only [AnchorConstraint.identity, Prod.mk.injEq] at same
  rw [isActive_of_getElem? hr', hr', ← same.1, ← same.2.1, ← same.2.2]

theorem Steady.symm (h : Steady s t) : Steady t s :=
  ⟨h.engines.symm, h.views.symm, h.constraints.symm, h.applied.symm⟩

/-- What makes no constraint leaves the numbers of their linear forms as they are. -/
theorem Steady.linearIds (h : Steady s t) (cs : List ConstraintId) :
    t.linearIds cs = s.linearIds cs := by
  refine List.filterMap_congr fun c _ => ?_
  have numbers := congrArg (fun l => (l[c]?).map Constraint.id) h.linears
  simp only [List.getElem?_map, Option.map_map] at numbers
  exact numbers

/-! ## What is held follows from the marks -/

/-- What is in force comes from a constraint that is marked as active, or from a pin on record. -/
theorem mem_inForce_iff {i : EngineId} {x : Constraint K} :
    x ∈ s.inForce i ↔ (∃ (c : ConstraintId) (r : AnchorConstraint K), s.constraints[c]? = some r ∧
      r.engine = i ∧ r.active = true ∧ r.linear = x) ∨
      x ∈ (s.views.filter fun v => v.engine = i).flatMap View.pinned := by
  rw [inForce, List.mem_append, List.mem_map]
  refine or_congr_left ⟨?_, ?_⟩
  · rintro ⟨r, hr, rfl⟩
    obtain ⟨hmem, hcond⟩ := List.mem_filter.1 hr
    obtain ⟨hengine, hactive⟩ := of_decide_eq_true hcond
    obtain ⟨c, hc⟩ := List.mem_iff_getElem?.1 hmem
    exact ⟨c, r, hc, hengine, hactive, rfl⟩
  · rintro ⟨c, r, hr, hengine, hactive, rfl⟩
    exact ⟨r, List.mem_filter.2 ⟨List.mem_of_getElem? hr, by simp [hengine, hactive]⟩, rfl⟩

/-- A constraint is in force in its own engine if it is marked as active, and nowhere otherwise: no
other constraint and no pin has its number. -/
theorem Numbered.linear_mem_inForce_iff (h : Numbered [] s) {c : ConstraintId}
    {r : AnchorConstraint K} (hr : s.constraints[c]? = some r) (i : EngineId) :
    r.linear ∈ s.inForce i ↔ r.engine = i ∧ r.active = true := by
  rw [mem_inForce_iff]
  constructor
  · rintro (⟨d, r', hr', hengine, hactive, same⟩ | pinned)
    · obtain rfl : d = c := by
        by_contra hne
        exact h.linear_id_ne hr hr' hne (congrArg Constraint.id same)
      cases hr.symm.trans hr'
      exact ⟨hengine, hactive⟩
    · have apart : s.linears.Nodup := List.Nodup.of_map _ h.numbering.distinct
      obtain ⟨v, hv, hpinned⟩ := List.mem_flatMap.1 pinned
      exact absurd rfl <| (List.nodup_append.1 apart).2.2 _
        (List.mem_map_of_mem (List.mem_of_getElem? hr)) _
        (List.mem_flatMap.2 ⟨v, (List.mem_filter.1 hv).1, hpinned⟩)
  · rintro ⟨hengine, hactive⟩
    exact .inl ⟨c, r, hr, hengine, hactive, rfl⟩

/-- While the stores are in step, a constraint is held by its own engine if it is marked as active,
and by none otherwise. -/
theorem Accounted.linear_mem_heldBy_iff {j : EngineId} (h : Accounted j [] s) {c : ConstraintId}
    {r : AnchorConstraint K} (hr : s.constraints[c]? = some r) (i : EngineId) :
    r.linear ∈ s.heldBy i ↔ r.engine = i ∧ r.active = true := by
  rw [(h.heldBy_perm i).mem_iff, h.numbered.linear_mem_inForce_iff hr]

/-- Apart from the constraints whose marks may differ, what is in force stays so. -/
theorem Steady.mem_inForce (h : Steady s t) (views : t.views = s.views) {cs : List ConstraintId}
    (others : ∀ c, c ∉ cs → t.isActive c = s.isActive c) {i : EngineId} {x : Constraint K}
    (hx : x.id ∉ s.linearIds cs) (force : x ∈ s.inForce i) : x ∈ t.inForce i := by
  rw [mem_inForce_iff] at force ⊢
  rw [views]
  refine force.imp_left ?_
  rintro ⟨c, r, hr, hengine, hactive, rfl⟩
  have other : c ∉ cs := fun hc => hx (List.mem_filterMap.2 ⟨c, hc, by rw [hr]; rfl⟩)
  refine ⟨c, _, h.getElem?_eq hr, hengine, ?_, rfl⟩
  rw [others c other, isActive_of_getElem? hr, hactive]

/-- What is held, each once. -/
theorem Accounted.heldBy_nodup {j : EngineId} (h : Accounted j [] s) (i : EngineId) :
    (s.heldBy i).Nodup :=
  (h.heldBy_perm i).nodup_iff.2 (List.Nodup.of_map _ (h.numbered.inForce_nodup i))

/-- If some constraints are marked as inactive and the marks of all others are as before, each solver
holds what it held before without these constraints. -/
theorem Accounted.heldBy_of_marks {j : EngineId} (hs : Accounted j [] s) (ht : Accounted j [] t)
    (steady : Steady s t) (views : t.views = s.views) {cs : List ConstraintId}
    (members : ∀ c ∈ cs, t.isActive c = false)
    (others : ∀ c, c ∉ cs → t.isActive c = s.isActive c) (i : EngineId) :
    t.heldBy i ~ (s.heldBy i).filter fun x => x.id ∉ s.linearIds cs := by
  refine (List.perm_ext_iff_of_nodup (ht.heldBy_nodup i) ((hs.heldBy_nodup i).filter _)).2 ?_
  intro x
  rw [List.mem_filter, decide_eq_true_iff, (ht.heldBy_perm i).mem_iff, (hs.heldBy_perm i).mem_iff]
  constructor
  · intro force
    have outside : x.id ∉ s.linearIds cs := by
      intro hx
      obtain ⟨c, hc, number⟩ := List.mem_filterMap.1 hx
      obtain ⟨r, hr, same⟩ := Option.map_eq_some_iff.1 number
      have marked := steady.getElem?_eq hr
      rw [members c hc] at marked
      -- No other linear form has the number of the member's, and the member's is not in force.
      have known : r.linear ∈ t.linears :=
        List.mem_append_left (t.views.flatMap View.pinned)
          (List.mem_map.2 ⟨_, List.mem_of_getElem? marked, rfl⟩)
      obtain rfl : r.linear = x := List.inj_on_of_nodup_map ht.numbered.numbering.distinct known
        ((inForce_sublist t i).subset force) same
      exact Bool.false_ne_true ((ht.numbered.linear_mem_inForce_iff marked i).1 force).2
    refine ⟨steady.symm.mem_inForce views.symm (fun c hc => (others c hc).symm) ?_ force, outside⟩
    rwa [steady.linearIds]
  · rintro ⟨force, outside⟩
    exact steady.mem_inForce views others outside force

/-- `AllAnswered s active cs reports t`: the reports of requests for all of `cs` to be active or
inactive, made one after the other, which found the scene as `s` and left it as `t`. -/
structure AllAnswered (s : Scene K) (active : Bool) (cs : List ConstraintId)
    (reports : List (Event K)) (t : Scene K) : Prop where
  steady : Steady s t
  views : t.views = s.views
  log : t.log = s.log ++ reports
  named : ∀ event ∈ reports, ∃ c ∈ cs, event.switched? = some c
  /-- Seen from each constraint, the requests are those that are about it. -/
  answered : ∀ c relationship,
    s.constraints[c]?.map AnchorConstraint.relationship = some relationship →
    Answered c relationship active (cs.count c) (s.isActive c) (reportsOf c reports) (t.isActive c)

/-- What makes no constraint leaves what each of them says as it is. -/
theorem Steady.relationship (h : Steady s t) (c : ConstraintId) :
    t.constraints[c]?.map AnchorConstraint.relationship =
      s.constraints[c]?.map AnchorConstraint.relationship := by
  have same := congrArg (fun l => (l[c]?).map fun i : EngineId × Relationship K × Constraint K =>
    i.2.1) h.constraints
  simp only [List.getElem?_map, Option.map_map] at same
  exact same

/-- One request more at the front. It is about its own constraint only, so seen from any other the
list of requests is answered as before. -/
theorem AllAnswered.cons {u : Scene K} {active : Bool} {cs : List ConstraintId}
    {first reports : List (Event K)} (rest : AllAnswered u active cs reports t) (steady : Steady s u)
    (views : u.views = s.views) {d : ConstraintId} (log : u.log = s.log ++ first)
    (about : ∀ event ∈ first, event.switched? = some d)
    (others : ∀ c, d ≠ c → u.isActive c = s.isActive c)
    (own : ∀ relationship,
      s.constraints[d]?.map AnchorConstraint.relationship = some relationship →
      Answered d relationship active (cs.count d) (u.isActive d) (reportsOf d reports) (t.isActive d) →
      Answered d relationship active (cs.count d + 1) (s.isActive d) (first ++ reportsOf d reports)
        (t.isActive d)) : AllAnswered s active (d :: cs) (first ++ reports) t where
  steady := steady.trans rest.steady
  views := rest.views.trans views
  log := by rw [rest.log, log, List.append_assoc]
  named event hevent := by
    rcases List.mem_append.1 hevent with hevent | hevent
    · exact ⟨d, .head _, about event hevent⟩
    · have ⟨c, hc, hnamed⟩ := rest.named event hevent
      exact ⟨c, .tail _ hc, hnamed⟩
  answered c relationship hc := by
    have later := rest.answered c relationship ((steady.relationship c).trans hc)
    rw [reportsOf, List.filter_append]
    by_cases same : d = c
    · subst same
      rw [List.count_cons_self,
        List.filter_eq_self.2 fun event hevent => decide_eq_true (about event hevent)]
      exact own relationship hc later
    · rw [List.count_cons_of_ne same, ← others c same, List.filter_eq_nil_iff.2 ?_]
      · exact later
      · intro event hevent
        rw [about event hevent, decide_eq_true_eq]
        exact fun h => same (Option.some.inj h)

/-- A constraint that no request is about keeps its mark. -/
theorem AllAnswered.isActive_of_notMem {active : Bool} {cs : List ConstraintId}
    {reports : List (Event K)} (h : AllAnswered s active cs reports t) {c : ConstraintId}
    (hc : c ∉ cs) : t.isActive c = s.isActive c := by
  cases hr : s.constraints[c]? with
  | none =>
    have absent := h.steady.relationship c
    rw [hr, Option.map_none, Option.map_eq_none_iff] at absent
    rw [Scene.isActive, Scene.isActive, hr, absent]
  | some r =>
    exact (h.answered c r.relationship (by rw [hr]; rfl)).of_none (List.count_eq_zero.2 hc)

/-! ## What a list of requests comes to -/

/-- What is so after constraints were asked to be inactive, all of which exist. -/
structure Deactivated (s : Scene K) (cs : List ConstraintId) (t : Scene K) : Prop where
  members : ∀ c ∈ cs, ∃ r, s.constraints[c]? = some r ∧
    t.constraints[c]? = some { r with active := false } ∧ r.linear ∉ t.heldBy r.engine
  others : ∀ c r, c ∉ cs → s.constraints[c]? = some r →
    t.constraints[c]? = some r ∧ ∀ i, r.linear ∈ t.heldBy i ↔ r.linear ∈ s.heldBy i
  /-- The constraints that were active are reported as inactive, each once, and nothing else is. -/
  reports : ∃ reports, t.log = s.log ++ reports ∧
    (∀ event ∈ reports, event.level ≠ .warn ∧ ∃ c ∈ cs, event.switched? = some c) ∧
    ∀ c ∈ cs, ∀ r, s.constraints[c]? = some r →
      reportsOf c reports = if r.active then [.deactivated c r.relationship] else []
  held : ∀ i, t.heldBy i ~ (s.heldBy i).filter fun x => x.id ∉ s.linearIds cs

/-- `Attempted c r n reports after`: what `n` requests for the constraint `c` to be active, which was as
in `r`, report if they meet no failure, and how it is marked after them. -/
inductive Attempted (c : ConstraintId) (r : AnchorConstraint K) (n : Nat) :
    List (Event K) → Bool → Prop where
  | already : r.active = true → Attempted c r n [] true
  | granted (k : Nat) : r.active = false → k < n →
      Attempted c r n (List.replicate k (.contradiction c r.relationship) ++
        [.activated c r.relationship]) true
  | refused : r.active = false →
      Attempted c r n (List.replicate n (.contradiction c r.relationship)) false

/-- What is so after constraints were asked to be active, all of which exist. -/
structure Activated (s : Scene K) (cs : List ConstraintId) (t : Scene K) : Prop where
  /-- Each member was tried as often as it stands in the list. -/
  reports : ∃ reports, t.log = s.log ++ reports ∧
    (∀ event ∈ reports, (∃ c ∈ cs, event.switched? = some c) ∧
      (event.level = .warn ↔ event.cause? = some .unsatisfiable)) ∧
    ∀ c ∈ cs, ∃ r, s.constraints[c]? = some r ∧
      t.constraints[c]? = some { r with active := t.isActive c } ∧
      Attempted c r (cs.count c) (reportsOf c reports) (t.isActive c)
  others : ∀ c r, c ∉ cs → s.constraints[c]? = some r →
    t.constraints[c]? = some r ∧ ∀ i, r.linear ∈ t.heldBy i ↔ r.linear ∈ s.heldBy i

/-- A constraint that was not asked for is as it was, and held where it was. -/
theorem AllAnswered.others {active : Bool} {cs : List ConstraintId} {reports : List (Event K)}
    (h : AllAnswered s active cs reports t) {j : EngineId} (hs : Accounted j [] s)
    (ht : Accounted j [] t) (c : ConstraintId) (r : AnchorConstraint K) (hc : c ∉ cs)
    (hr : s.constraints[c]? = some r) :
    t.constraints[c]? = some r ∧ ∀ i, r.linear ∈ t.heldBy i ↔ r.linear ∈ s.heldBy i := by
  have hr' := h.steady.getElem?_eq hr
  rw [h.isActive_of_notMem hc, isActive_of_getElem? hr] at hr'
  exact ⟨hr', fun i => by rw [ht.linear_mem_heldBy_iff hr', hs.linear_mem_heldBy_iff hr]⟩

/-- What is refused in answer to requests is refused in their reports. -/
theorem AllAnswered.causes {active : Bool} {cs : List ConstraintId} {reports : List (Event K)}
    (h : AllAnswered s active cs reports t) :
    t.causes = s.causes ++ reports.filterMap Event.cause? := by
  rw [Scene.causes, Scene.causes, h.log, List.filterMap_append]

end

variable {K : Type} [Scalar K] {s : Scene K}

/-! ## Lists of requests -/

/-- A request about a constraint that was never made does nothing. -/
theorem setActive_of_none {c : ConstraintId} (hc : s.constraints[c]? = none) (active : Bool) :
    s.setActive c active = s := by
  rw [setActive, trySetActive, hc]

/-- A list of requests is answered one by one. The induction is on the list, over all scenes, since
each request finds the scene as those before it have left it. -/
theorem setAllActive_answered (active : Bool) (cs : List ConstraintId) (s : Scene K) :
    ∃ reports, AllAnswered s active cs reports (s.setAllActive cs active) := by
  induction cs generalizing s with
  | nil =>
    exact ⟨[], .refl s, rfl, (List.append_nil _).symm, List.forall_mem_nil _, fun _ _ _ => .nil _⟩
  | cons d cs ih =>
    obtain ⟨reports, rest⟩ := ih (s.setActive d active)
    have steady := setActive_steady s d active
    have views := setActive_views s d active
    cases hd : s.constraints[d]? with
    | none =>
      refine ⟨[] ++ reports, rest.cons steady views ?_ (List.forall_mem_nil _) ?_ ?_⟩
      · rw [setActive_of_none hd, List.append_nil]
      · exact fun c _ => by rw [setActive_of_none hd]
      · rw [hd]
        exact fun _ h => by cases h
    | some r =>
      have marked := isActive_of_getElem? hd
      have asked := setActive_asked hd active
      rw [show s.setAllActive (d :: cs) active = (s.setActive d active).setAllActive cs active from rfl]
      generalize s.setActive d active = u at asked rest steady views ⊢
      cases asked with
      | idle same =>
        refine ⟨[] ++ reports, rest.cons steady views (List.append_nil _).symm (List.forall_mem_nil _)
          (fun _ _ => rfl) fun relationship _ later => ?_⟩
        rw [marked, same] at later ⊢
        exact .idle later
      | granted differs _ changed logged =>
        refine ⟨[.change d r.relationship active] ++ reports, rest.cons steady views logged ?_ ?_ ?_⟩
        · intro event hevent
          rw [List.mem_singleton.1 hevent, Event.change]
          cases active <;> rfl
        · intro c hc
          rw [isActive_modify hd changed, if_neg hc]
        · intro relationship hrelationship later
          obtain rfl : r.relationship = relationship := by
            rw [hd] at hrelationship
            exact Option.some.inj hrelationship
          rw [isActive_modify hd changed, if_pos rfl] at later
          rw [marked, differs]
          exact .granted later
      | refused cause differs _ unchanged logged =>
        have same (c : ConstraintId) : u.isActive c = s.isActive c := by
          rw [Scene.isActive, Scene.isActive, unchanged]
        refine ⟨[.activationRefused d ⟨r.relationship, cause⟩] ++ reports,
          rest.cons steady views logged ?_ (fun c _ => same c) ?_⟩
        · intro event hevent
          rw [List.mem_singleton.1 hevent]
          rfl
        · intro relationship hrelationship later
          obtain rfl : r.relationship = relationship := by
            rw [hd] at hrelationship
            exact Option.some.inj hrelationship
          rw [same, marked, differs] at later
          rw [marked, differs]
          exact .refused cause later

/-! ## Deactivation -/

/-- While the stores are in step, a deactivation that meets no failure is not refused: the solver
holds the constraint, so it knows it. -/
theorem Accounted.setActive_false_causes {j : EngineId} (h : Accounted j [] s) (c : ConstraintId)
    (clean : (s.setActive c false).Clean) : (s.setActive c false).causes = s.causes := by
  cases hr : s.constraints[c]? with
  | none => rw [setActive_of_none hr]
  | some r =>
    have asked := setActive_asked hr false
    generalize s.setActive c false = t at asked clean
    cases asked with
    | idle _ => rfl
    | granted _ _ _ logged =>
      rw [causes, causes, logged, List.filterMap_append]
      exact List.append_nil _
    | refused cause active refusal _ logged =>
      have reported : cause ∈ t.causes := by
        rw [causes, logged, List.filterMap_append]
        exact List.mem_append_right _ (.head _)
      have ended := h.numbered.deactivation hr active
      generalize s.trySetActive c false = a at ended refusal
      cases ended with
      | granted => cases refusal
      | failed message => cases refusal; cases clean _ reported
      | lost lost => exact absurd ((h.linear_mem_heldBy_iff hr _).2 ⟨rfl, active⟩) lost.unheld

/-- The same for a list of requests, by induction on it. -/
theorem Accounted.setAllActive_false_causes (cs : List ConstraintId) {s : Scene K}
    (h : Accounted 0 [] s) (clean : (s.setAllActive cs false).Clean) :
    (s.setAllActive cs false).causes = s.causes := by
  induction cs generalizing s with
  | nil => rfl
  | cons c cs ih =>
    have first := accounted_stable.setActive s c false
    have cleanFirst : (s.setActive c false).Clean :=
      clean.of_prefix (accounted_stable.toStableBase.setAllActive false cs (s.setActive c false)).1
    exact (ih (first.2 cleanFirst h) clean).trans (h.setActive_false_causes c cleanFirst)

/-- Constraints that are asked to be inactive are so afterwards, wherever they were held. A constraint
that is active is held, so unless a solver fails none of these requests is refused, and each is
answered by the report of its change or by nothing. -/
theorem Accounted.setAllActive_false (h : Accounted 0 [] s) {cs : List ConstraintId}
    (known : ∀ c ∈ cs, c < s.constraints.length) (clean : (s.setAllActive cs false).Clean) :
    Deactivated s cs (s.setAllActive cs false) := by
  obtain ⟨reports, all⟩ := setAllActive_answered false cs s
  have kept := (accounted_stable.toStableBase.setAllActive false cs s).2 clean h
  have causes := h.setAllActive_false_causes cs clean
  rw [all.causes, List.append_right_eq_self, List.filterMap_eq_nil_iff] at causes
  generalize s.setAllActive cs false = t at all kept
  have asked (c : ConstraintId) (hc : c ∈ cs) (r : AnchorConstraint K)
      (hr : s.constraints[c]? = some r) : t.isActive c = false ∧
        reportsOf c reports = if r.active then [.deactivated c r.relationship] else [] := by
    have answered := all.answered c r.relationship (by rw [hr]; rfl)
    rw [isActive_of_getElem? hr] at answered
    obtain ⟨after, hreports⟩ := answered.of_unrefused (List.count_pos_iff.2 hc) fun event hevent =>
      causes event (List.mem_filter.1 hevent).1
    refine ⟨after, hreports.trans ?_⟩
    cases r.active <;> rfl
  refine ⟨?_, all.others h kept, ⟨reports, all.log, ?_, fun c hc r hr => (asked c hc r hr).2⟩, ?_⟩
  · intro c hc
    have hr := List.getElem?_eq_getElem (known c hc)
    have hr' := all.steady.getElem?_eq hr
    rw [(asked c hc _ hr).1] at hr'
    refine ⟨_, hr, hr', fun held => ?_⟩
    exact Bool.false_ne_true ((kept.linear_mem_heldBy_iff hr' _).1 held).2
  · intro event hevent
    refine ⟨fun warned => ?_, all.named event hevent⟩
    rw [Event.level_eq_warn_iff, causes event hevent] at warned
    cases warned
  · refine h.heldBy_of_marks kept all.steady all.views (fun c hc => ?_) fun c => all.isActive_of_notMem
    exact (asked c hc _ (List.getElem?_eq_getElem (known c hc))).1

/-! ## Activation -/

/-- Constraints that are asked to be active are tried one by one, whatever happens to the others. How
often one is tried is how often it is listed, until it is granted. -/
theorem Accounted.setAllActive_true (h : Accounted 0 [] s) {cs : List ConstraintId}
    (known : ∀ c ∈ cs, c < s.constraints.length) (clean : (s.setAllActive cs true).Clean) :
    Activated s cs (s.setAllActive cs true) := by
  obtain ⟨reports, all⟩ := setAllActive_answered true cs s
  have kept := (accounted_stable.toStableBase.setAllActive true cs s).2 clean h
  generalize s.setAllActive cs true = t at all kept
  have unsatisfiable (event) (hevent : event ∈ reports) (cause) (hcause : event.cause? = some cause) :
      cause = .unsatisfiable := by
    refine kept.refused cause ?_
    rw [all.causes]
    exact List.mem_append_right _ (List.mem_filterMap.2 ⟨event, hevent, hcause⟩)
  refine ⟨⟨reports, all.log, fun event hevent => ⟨all.named event hevent, ?_⟩, fun c hc => ?_⟩,
    all.others h kept⟩
  · rw [Event.level_eq_warn_iff, Option.isSome_iff_exists]
    constructor
    · rintro ⟨cause, hcause⟩
      rw [hcause, unsatisfiable event hevent cause hcause]
    · exact fun hcause => ⟨_, hcause⟩
  · obtain ⟨r, hr⟩ : ∃ r, s.constraints[c]? = some r := ⟨_, List.getElem?_eq_getElem (known c hc)⟩
    refine ⟨r, hr, all.steady.getElem?_eq hr, ?_⟩
    have answered := all.answered c r.relationship (by rw [hr]; rfl)
    rw [isActive_of_getElem? hr] at answered
    cases active : r.active with
    | true =>
      obtain ⟨after, none⟩ := answered.of_same active
      rw [after, none]
      exact .already active
    | false =>
      rcases answered.of_differs active fun event hevent =>
          unsatisfiable event (List.mem_filter.1 hevent).1 with
        ⟨after, k, hk, hreports⟩ | ⟨after, hreports⟩
      · rw [after, hreports]
        exact .granted k active hk
      · rw [after, hreports]
        exact .refused active

/-- Constraints that are asked to be active and then to be inactive are taken out of what was held
before, and nothing else is. -/
theorem Accounted.setAllActive_true_false (h : Accounted 0 [] s) {cs : List ConstraintId}
    (known : ∀ c ∈ cs, c < s.constraints.length)
    (clean : ((s.setAllActive cs true).setAllActive cs false).Clean) (i : EngineId) :
    ((s.setAllActive cs true).setAllActive cs false).heldBy i ~
      (s.heldBy i).filter fun x => x.id ∉ s.linearIds cs := by
  have off := accounted_stable.toStableBase.setAllActive false cs (s.setAllActive cs true)
  have cleanOn := clean.of_prefix off.1
  have keptOn := (accounted_stable.toStableBase.setAllActive true cs s).2 cleanOn h
  have keptOff := off.2 clean keptOn
  obtain ⟨_, allOn⟩ := setAllActive_answered true cs s
  obtain ⟨_, allOff⟩ := setAllActive_answered false cs (s.setAllActive cs true)
  have knownOn (c : ConstraintId) (hc : c ∈ cs) : c < (s.setAllActive cs true).constraints.length :=
    allOn.steady.length ▸ known c hc
  have done := keptOn.setAllActive_false knownOn clean
  refine h.heldBy_of_marks keptOff (allOn.steady.trans allOff.steady)
    (allOff.views.trans allOn.views) (fun c hc => ?_) (fun c hc => ?_) i
  · obtain ⟨r, -, marked, -⟩ := done.members c hc
    rw [isActive_of_getElem? marked]
  · exact (allOff.isActive_of_notMem hc).trans (allOn.isActive_of_notMem hc)

end Scene

end ViewConstraints
