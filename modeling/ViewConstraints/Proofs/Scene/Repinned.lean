import ViewConstraints.Proofs.Scene.Created
import ViewConstraints.Proofs.Scene.InForce
import ViewConstraints.Proofs.Scene.Told
import ViewConstraints.Proofs.Simplex.Excluded

/-!
# Views that are held again

A view that was released is held again at the frame that is read at that moment. Its four pins are tried
one after the other (`repinning`), and each is granted exactly if the solver does not exclude the number
read for its unknown then (`setPinned_repins`). A number that is granted to an unknown that was not in
use, and one at which required equations had the unknown already, is read again afterwards: nothing that
is added later moves such an unknown (`Engine.Shows.reaches`).
-/

namespace ViewConstraints

open Linear Simplex
open scoped List

namespace Scene

section

variable {K : Type} [Scalar K]

/-! ## One pin -/

/-- A pin that is refused is reported with the cause. -/
theorem mem_causes_pinPart {s : Scene K} {view : ViewId} {engine : EngineId} {part : Quantity × K}
    {cause : EngineError.Cause} (name : String) (pins : List (Constraint K))
    (h : (s.freshLinear.2.addLinear engine (pinConstraint s.nextLinear view part)).1 = .error cause) :
    cause ∈ (pinPart view name engine (pins, s) part).2.causes := by
  unfold pinPart
  dsimp only [freshLinear] at h ⊢
  generalize addLinear _ engine (pinConstraint s.nextLinear view part) = a at h ⊢
  obtain ⟨_ | _, t⟩ := a
  · cases h
    exact List.mem_filterMap.2 ⟨_, List.mem_append_right _ (.head _), rfl⟩
  · cases h

/-- A pin is granted exactly if its unknown does not exclude the number, unless the solver fails. It
is asked for under a number not given out before, so it cannot be refused as a duplicate. -/
theorem grants_iff {passing : List (Constraint K)} {s : Scene K} (h : Numbered passing s)
    {engine : EngineId} {e : Engine K} (he : s.engines[engine]? = some e) (view : ViewId) (name : String)
    (part : Quantity × K) (pins : List (Constraint K))
    (clean : (pinPart view name engine (pins, s) part).2.Clean) :
    s.grants view engine part = true ↔ ¬ e.solver.Excludes ⟨view, part.1⟩ part.2 := by
  let c := pinConstraint s.nextLinear view part
  have hmem := List.mem_of_getElem? he
  have unheld : e.solver.holds s.nextLinear = false :=
    Solver.holds_eq_false_of_notMem (h.numbering.keyed e hmem) fun c hc =>
      Nat.ne_of_lt (h.numbering.held_below e hmem c hc)
  have excludes : (e.solver.addConstraint c).1 = .error .unsatisfiable ↔
      e.solver.Excludes ⟨view, part.1⟩ part.2 :=
    Solver.addConstraint_equation_iff unheld ⟨view, part.1⟩ part.2
  have asked : (s.freshLinear.2.addLinear engine c).1 = Engine.answer (e.solver.addConstraint c).1 := by
    have he' : s.freshLinear.2.engines[engine]? = some e := he
    rw [addLinear, he']
    rfl
  have granted : s.grants view engine part = (s.freshLinear.2.addLinear engine c).1.isOk := rfl
  have outcome := addLinear_outcome (h.freshLinear (c := c) rfl) (List.getElem?_eq_some_iff.1 he).1
    (.head _) (h.notMem_heldBy engine (Nat.le_refl _))
  rw [granted, ← excludes]
  rcases outcome with ⟨ok, -⟩ | ⟨unsatisfiable, -⟩ | ⟨message, failed⟩
  · refine iff_of_true (by rw [ok]; rfl) fun refused => ?_
    rw [asked, refused] at ok
    cases ok
  · refine iff_of_false (by rw [unsatisfiable]; exact Bool.false_ne_true) (not_not.2 ?_)
    rw [asked] at unsatisfiable
    cases hr : (e.solver.addConstraint c).1 with
    | ok => rw [hr] at unsatisfiable; cases unsatisfiable
    | error refusal => rw [hr] at unsatisfiable; cases refusal <;> first | rfl | cases unsatisfiable
  · cases clean _ (mem_causes_pinPart name pins failed)

/-! ## The pins of a view -/

/-- The pins granted and the scene reached when a view is held again, after the pins for the quantities
`tried`. The frame of the view is read first. -/
def repinning (s : Scene K) (view : ViewId) (v : View K) (tried : List Quantity) :
    List (Constraint K) × Scene K :=
  (tried.map fun q => (q, (s.frame view).1.component q)).foldl (pinPart view v.name v.engine)
    ([], (s.frame view).2.modifyView view fun v => { v with frame := (s.frame view).1 })

variable {s : Scene K} {view : ViewId} {v : View K}

/-- The view has the frame read, and no pins on record until all have been tried. -/
theorem repinning_view (hv : s.views[view]? = some v) (tried : List Quantity) :
    (s.repinning view v tried).2.views[view]? = some { v with frame := (s.frame view).1 } := by
  rw [repinning, (foldl_pinPart_records view v.name v.engine _ _).views, modifyView,
    List.getElem?_modify, (frame_records s view).views, hv]
  simp

/-- A view that is not held is pinned by asking for its four pins in order and putting those on record
that are granted. -/
theorem setPinned_eq_repinning (hv : s.views[view]? = some v) (hp : v.isPinned = false) :
    s.setPinned view true = (s.repinning view v Quantity.all).2.modifyView view fun w =>
      { w with pins := some (s.repinning view v Quantity.all).1 } := by
  have found : ((s.frame view).2.modifyView view fun v =>
      { v with frame := (s.frame view).1 }).views[view]? =
        some { v with frame := (s.frame view).1 } := repinning_view hv []
  have unpinned : ({ v with frame := (s.frame view).1 } : View K).isPinned = false := hp
  rw [setPinned, if_pos rfl]
  dsimp only
  rw [pin, found]
  dsimp only
  rw [if_neg (Bool.eq_false_iff.1 unpinned), frameParts_eq_map, ← repinning]

/-- All of the scene but the record of the view is what it was when all pins had been tried. -/
theorem setPinned_repinning (hv : s.views[view]? = some v) (hp : v.isPinned = false) :
    (s.setPinned view true).engines = (s.repinning view v Quantity.all).2.engines ∧
    (s.setPinned view true).log = (s.repinning view v Quantity.all).2.log ∧
    ∃ w, (s.setPinned view true).views[view]? = some w ∧
      w.pins = some (s.repinning view v Quantity.all).1 ∧ w.engine = v.engine := by
  have found := repinning_view hv Quantity.all
  rw [setPinned_eq_repinning hv hp]
  generalize s.repinning view v Quantity.all = r at found ⊢
  refine ⟨rfl, rfl, { v with frame := (s.frame view).1, pins := some r.1 }, ?_, rfl, rfl⟩
  rw [modifyView, List.getElem?_modify, found]
  simp

theorem repinning_append (s : Scene K) (view : ViewId) (v : View K) (tried rest : List Quantity) :
    s.repinning view v (tried ++ rest) =
      (rest.map fun q => (q, (s.frame view).1.component q)).foldl (pinPart view v.name v.engine)
        (s.repinning view v tried) := by
  rw [repinning, List.map_append, List.foldl_append]
  rfl

/-- The pins tried before that for `q`, that pin, and those tried after it. -/
theorem repinning_all {done rest : List Quantity} {q : Quantity} (hq : Quantity.all = done ++ q :: rest) :
    s.repinning view v Quantity.all =
      (rest.map fun q => (q, (s.frame view).1.component q)).foldl (pinPart view v.name v.engine)
        (pinPart view v.name v.engine (s.repinning view v done) (q, (s.frame view).1.component q)) := by
  rw [hq, repinning_append, List.map_cons, List.foldl_cons]

/-- All along, the pins that were granted have numbers of their own. -/
theorem repinning_numbered (hs : Numbered [] s) (view : ViewId) (v : View K) (tried : List Quantity) :
    Numbered (s.repinning view v tried).1 (s.repinning view v tried).2 :=
  Numbered.foldl_pinPart view v.name v.engine _ _ ((hs.frame view).modifyView view
    (f := fun v => { v with frame := (s.frame view).1 }) (fun _ => rfl) fun _ => rfl)

/-- The view is held at what was granted: of the quantities before `q`, of `q` itself if its pin is
granted when its turn comes, and of those after it. -/
theorem repinning_accepted {done rest : List Quantity} {q : Quantity}
    (hq : Quantity.all = done ++ q :: rest) {w : View K}
    (hw : w.pins = some (s.repinning view v Quantity.all).1) :
    q ∈ w.accepted ↔ (s.repinning view v done).2.grants view v.engine
      (q, (s.frame view).1.component q) = true := by
  obtain ⟨before, tried⟩ := foldl_pinPart_tried view v.name v.engine
    (done.map fun q => (q, (s.frame view).1.component q))
    ([], (s.frame view).2.modifyView view fun v => { v with frame := (s.frame view).1 })
  have here := pinPart_tried view v.name v.engine (s.repinning view v done)
    (q, (s.frame view).1.component q)
  obtain ⟨later, others⟩ := foldl_pinPart_tried view v.name v.engine
    (rest.map fun q => (q, (s.frame view).1.component q))
    (pinPart view v.name v.engine (s.repinning view v done) (q, (s.frame view).1.component q))
  have pins := (tried.append (here.append others)).pins
  rw [repinning_all hq, pins, List.nil_append] at hw
  have apart := Quantity.notMem_of_all hq
  have among {parts : List Quantity} {granted : List (Nat × Quantity × K)}
      (h : granted.map Prod.snd <+ parts.map fun q => (q, (s.frame view).1.component q))
      (hmem : q ∈ granted.map fun p => p.2.1) : q ∈ parts := by
    have sub := h.map Prod.fst
    rw [List.map_map, List.map_map] at sub
    simpa using sub.subset hmem
  have notBefore : q ∉ before.map fun p => p.2.1 := fun h =>
    apart (List.mem_append_left _ (among tried.sublist h))
  have notLater : q ∉ later.map fun p => p.2.1 := fun h =>
    apart (List.mem_append_right _ (among others.sublist h))
  rw [accepted_of_granted hw, List.map_append, List.map_append, List.mem_append, List.mem_append,
    or_iff_right notBefore, or_iff_left notLater]
  split
  next granted => simp [granted]
  next refused => simp [refused]

/-- What pins an unknown of a view is on record for the view: it is none of the constraints made through
anchors, and no pin of another view. -/
theorem PinnedIn.exists_pinned {q : Quantity} {x : K} (h : s.PinnedIn v.engine ⟨view, q⟩ x)
    (hv : s.views[view]? = some v) (hs : Orderly s) (accounted : Accounted 0 [] s) :
    ∃ c ∈ v.pinned, ⟨view, q⟩ ∈ c.mentioned := by
  obtain ⟨e, he, n, σ, marker, k, -, apart, pinned⟩ := h
  obtain ⟨mine, hmine, -, hmentioned⟩ := pinned.solver.held
  have hentry := OrderedMap.mem_entries_of_get? hmine
  have hid : mine.constraint.id = n :=
    (hs.numbered.numbering.keyed e (List.mem_of_getElem? he)).key _ hentry
  have held : mine.constraint ∈ s.heldBy v.engine := by
    rw [heldBy, he]
    exact List.mem_map_of_mem (List.mem_map_of_mem hentry)
  rcases List.mem_append.1 ((accounted.heldBy_perm v.engine).mem_iff.1 held) with hmade | hpin
  · obtain ⟨r, hr, hlinear⟩ := List.mem_map.1 hmade
    have linear := List.mem_map_of_mem (f := AnchorConstraint.linear) (List.mem_of_mem_filter hr)
    exact absurd hid (apart _ (hlinear ▸ linear))
  · obtain ⟨w, hw, hown⟩ := List.mem_flatMap.1 hpin
    obtain ⟨i, hi, rfl⟩ := List.getElem_of_mem (List.mem_of_mem_filter hw)
    have own : mine.constraint ∈ s.pinsOf i := by
      rw [pinsOf, List.getElem?_eq_getElem hi]
      exact hown
    obtain rfl : view = i := hs.pins i _ own _ hmentioned
    rw [List.getElem?_eq_getElem hi] at hv
    cases hv
    exact ⟨_, hown, hmentioned⟩

end

variable {K : Type} [Scalar K] [UnitScalar K]

/-! ## Unknowns that stay where they are -/

namespace Engine

variable {e f : Engine K} {A : Constraint K → Prop} {v : Variable} {x : K}

/-- The unknown is at rest at the number `x`, and `x` was learnt of it. -/
structure Shows (e : Engine K) (v : Variable) (x : K) : Prop where
  rests : ∃ k, e.solver.RestsAt v k ∧ Agree k x
  learnt : Agree (e.value v) x

omit [UnitScalar K] in
/-- After a report, what is learnt of an unknown is what was learnt before, or what was reported last. -/
theorem refresh_learnt (e : Engine K) (v : Variable) : e.refresh.values.get? v = e.values.get? v ∨
    ∃ r, e.refresh.solver.reportedOf v = some r ∧ e.refresh.values.get? v = some r :=
  Solver.reported_fetchChanges
    (P := fun reported value => value = e.values.get? v ∨ ∃ r, reported = some r ∧ value = some r)
    (fun r => .inr ⟨r, rfl, rfl⟩) (.inl rfl)

omit [UnitScalar K] in
/-- After a report, what is learnt of an unknown in use is what was learnt before, or agrees with the
current solution. -/
theorem refresh_value [LawfulScalar K] (h : e.solver.Sound) {σ : Symbol}
    (hσ : e.solver.symbolOf v = some σ) :
    e.refresh.value v = e.value v ∨ Agree (e.refresh.value v) (e.solver.valueOf σ) := by
  rcases e.refresh_learnt v with same | ⟨r, reported, value⟩
  · exact .inl (congrArg (Option.getD · 0.0) same)
  · obtain ⟨-, -, values, agree⟩ := Solver.fetchChanges_agree h
    obtain ⟨t, ht, hr⟩ := Option.bind_eq_some_iff.1 reported
    have symbol : e.refresh.solver.symbolOf v = some σ :=
      (Solver.symbolOf_fetchChanges e.solver v).trans hσ
    rw [Solver.symbolOf, ht] at symbol
    cases symbol
    have current := agree v t ht
    rw [hr, Option.getD_some, values] at current
    refine .inr ?_
    rw [Engine.value, value]
    exact current

/-- Additions and reports move neither an unknown at rest nor what is learnt of it. -/
theorem Shows.reaches (h : e.Shows v x) (hf : e.Faithful)
    (hreach : e.ReachesBy A (fun _ => False) f) : f.Shows v x := by
  induction hreach with
  | refl => exact h
  | @add f c hreach _ ih =>
    obtain ⟨k, rests, agree⟩ := ih.rests
    exact ⟨⟨k, rests.addConstraint (hf.reaches hreach).sound c, agree⟩, ih.learnt⟩
  | remove _ hc => exact hc.elim
  | @refresh f hreach ih =>
    obtain ⟨k, rests, agree⟩ := ih.rests
    refine ⟨⟨k, rests.fetchChanges, agree⟩, ?_⟩
    obtain ⟨σ, hσ, there⟩ := rests
    rcases refresh_value (hf.reaches hreach).sound hσ with same | current
    · exact same ▸ ih.learnt
    · rw [there.valueOf] at current
      exact current.trans agree

/-- The equation that an unknown is the number learnt of it, if the unknown was not in use. -/
theorem shows_of_unused (hf : e.Faithful) (hv : e.solver.symbolOf v = none) {n : Nat}
    (hn : e.solver.holds n = false) (learnt : Agree (e.value v) x) :
    (e.add (Solver.equation n v x)).2.Shows v x := by
  obtain ⟨σ, marker, k, agree, pinned⟩ := Solver.addConstraint_pins hf.sound hv hn x
  exact ⟨⟨k, pinned.restsAt, agree⟩, learnt⟩

end Engine

/-! ## Holding a view again -/

/-- What becomes of the pin that holds the unknown `v` at the number `x`, by what the solver has on the
unknown when the pin is tried; `after` is the number read once the view is held. -/
structure Repinned (s : Solver K) (v : Variable) (x : K) (granted : Prop) (after : K) : Prop where
  granted_iff : granted ↔ ¬ s.Excludes v x
  /-- An unknown that is not in use or has no row is held. -/
  of_loose : s.Loose v → granted
  /-- An unknown that required equations give a number is held at what is near that number. -/
  of_rests : ∀ k, s.RestsAt v k → (granted ↔ isNearZero (distance x k) = true)
  /-- The number read is read again if the unknown was not in use. -/
  read_of_unused : s.symbolOf v = none → Agree after x
  /-- The number read is read again if it is the one that required equations give the unknown. -/
  read_of_rests : ∀ k, s.RestsAt v k → Agree k x → Agree after x

/-- Pins that are tried ask the engine for additions that mention an unknown of the parts each, and
nothing is learnt meanwhile. -/
theorem foldl_pinPart_engine (view : ViewId) (name : String) {engine : EngineId}
    (parts : List (Quantity × K)) (acc : List (Constraint K) × Scene K) {e : Engine K}
    (he : acc.2.engines[engine]? = some e) :
    ∃ f, (parts.foldl (pinPart view name engine) acc).2.engines[engine]? = some f ∧
      e.ReachesBy (fun c => ∃ part ∈ parts, c.mentioned = [⟨view, part.1⟩]) (fun _ => False) f ∧
      f.values = e.values := by
  induction parts generalizing acc e with
  | nil => exact ⟨e, he, .refl e, rfl⟩
  | cons part parts ih =>
    obtain ⟨f, hf, reaches, values⟩ := ih _ (pinPart_engine view name he part)
    have first : e.ReachesBy (fun c => ∃ p ∈ part :: parts, c.mentioned = [⟨view, p.1⟩])
        (fun _ => False) (e.add (pinConstraint acc.2.nextLinear view part)).2 :=
      .add (.refl e) ⟨part, .head _, pinConstraint_mentioned _ view part⟩
    refine ⟨f, hf, first.trans (reaches.mono ?_ fun _ => id), values⟩
    rintro c ⟨p, hp, mentioned⟩
    exact ⟨p, .tail _ hp, mentioned⟩

variable {s : Scene K} {view : ViewId} {v : View K}

/-- The engine has reported when the frame was read, and from then on is asked only for additions that
mention one of the quantities tried each. -/
theorem repinning_engine (hv : s.views[view]? = some v) {e : Engine K}
    (he : s.engines[v.engine]? = some e) (tried : List Quantity) :
    ∃ f, (s.repinning view v tried).2.engines[v.engine]? = some f ∧
      e.refresh.ReachesBy (fun c => ∃ q ∈ tried, c.mentioned = [⟨view, q⟩]) (fun _ => False) f ∧
      f.values = e.refresh.values := by
  have read : ((s.frame view).2.modifyView view fun v =>
      { v with frame := (s.frame view).1 }).engines[v.engine]? = some e.refresh := by
    rw [frame, hv, Option.bind_some, he]
    exact List.getElem?_set_self (List.getElem?_eq_some_iff.1 he).1
  obtain ⟨f, hf, reached, values⟩ := foldl_pinPart_engine view v.name
    (tried.map fun q => (q, (s.frame view).1.component q)) ([], _) read
  refine ⟨f, hf, reached.mono ?_ fun _ => id, values⟩
  rintro c ⟨part, hpart, mentioned⟩
  obtain ⟨q, hq, rfl⟩ := List.mem_map.1 hpart
  exact ⟨q, hq, mentioned⟩

/-- A number that an unknown shows once its own pin was tried is read when the view is held. -/
theorem frame_of_shows (hv : s.views[view]? = some v) (hp : v.isPinned = false)
    {done rest : List Quantity} {q : Quantity} (hq : Quantity.all = done ++ q :: rest) {e : Engine K}
    (he : (s.repinning view v done).2.engines[v.engine]? = some e) (faithful : e.Faithful) {x : K}
    (shows : (e.add (pinConstraint (s.repinning view v done).2.nextLinear view
      (q, (s.frame view).1.component q))).2.Shows ⟨view, q⟩ x) :
    Agree (((s.setPinned view true).frame view).1.component q) x := by
  let c := pinConstraint (s.repinning view v done).2.nextLinear view (q, (s.frame view).1.component q)
  have faithful' : (e.add c).2.Faithful :=
    faithful.reaches (A := fun _ => True) (B := fun _ => False) (.add (.refl e) trivial)
  obtain ⟨f, hf, later, -⟩ := foldl_pinPart_engine view v.name
    (rest.map fun q => (q, (s.frame view).1.component q)) _ (pinPart_engine view v.name he _)
  obtain ⟨hengines, -, w, hw, -, hengine⟩ := setPinned_repinning hv hp
  have hf' : (s.setPinned view true).engines[w.engine]? = some f := by
    rw [hengines, hengine, repinning_all hq, hf]
  rw [frame_component hw hf' q]
  exact (shows.reaches faithful' later.refresh).learnt

/-- A released view is held again. Each of its pins is granted by what the solver of its engine has on
the unknown when the pin's turn comes. -/
theorem setPinned_repins (hs : Orderly s) (hv : s.views[view]? = some v) (hp : v.isPinned = false)
    (clean : (s.setPinned view true).Clean) {w : View K}
    (hw : (s.setPinned view true).views[view]? = some w) {done rest : List Quantity} {q : Quantity}
    (hq : Quantity.all = done ++ q :: rest) :
    ∃ e, (s.repinning view v done).2.engines[v.engine]? = some e ∧
      Repinned e.solver ⟨view, q⟩ ((s.frame view).1.component q) (q ∈ w.accepted)
        (((s.setPinned view true).frame view).1.component q) := by
  let part : Quantity × K := (q, (s.frame view).1.component q)
  obtain ⟨e₀, he₀⟩ : ∃ e, s.engines[v.engine]? = some e :=
    ⟨_, List.getElem?_eq_getElem (hs.numbered.viewEngine v (List.mem_of_getElem? hv))⟩
  obtain ⟨e, he, reached, values⟩ := repinning_engine hv he₀ done
  have faithful : e.Faithful := (hs.faithful e₀ (List.mem_of_getElem? he₀)).refresh.reaches reached
  have numbered := repinning_numbered hs.numbered view v done
  have learnt : e.value ⟨view, q⟩ = part.2 := by
    have read : part.2 = e₀.refresh.value ⟨view, q⟩ := frame_component hv he₀ q
    rw [read, Engine.value, Engine.value, values]
  have granted : q ∈ w.accepted ↔ ¬ e.solver.Excludes ⟨view, q⟩ part.2 := by
    obtain ⟨-, hlog, w', hw', hpins, -⟩ := setPinned_repinning hv hp
    obtain rfl : w = w' := Option.some.inj (hw.symm.trans hw')
    have log := foldl_pinPart_log view v.name v.engine
      (rest.map fun q => (q, (s.frame view).1.component q))
      (pinPart view v.name v.engine (s.repinning view v done) part)
    rw [← repinning_all hq, ← hlog] at log
    rw [repinning_accepted hq hpins]
    exact grants_iff numbered he view v.name part (s.repinning view v done).1 (clean.of_prefix log)
  refine ⟨e, he, granted, ?_, ?_, ?_, ?_⟩
  · exact fun loose => granted.2 (Solver.not_excludes_of_loose faithful.sound loose part.2)
  · intro k rests
    rw [granted, rests.excludes_iff, Bool.not_eq_false]
  · intro unused
    have unheld := Solver.holds_eq_false_of_notMem faithful.keyed fun c hc =>
      Nat.ne_of_lt (numbered.numbering.held_below e (List.mem_of_getElem? he) c hc)
    exact frame_of_shows hv hp hq he faithful
      (Engine.shows_of_unused faithful unused unheld (learnt ▸ .refl _))
  · intro k rests agree
    have shows : e.Shows ⟨view, q⟩ part.2 := ⟨⟨k, rests, agree⟩, learnt ▸ .refl _⟩
    exact frame_of_shows hv hp hq he faithful
      (shows.reaches (A := fun _ => True) faithful (.add (.refl e) trivial))

/-- A released view whose unknowns are not in use is held again on all its quantities, and is read where
it was. -/
theorem setPinned_of_unused (hs : Orderly s) (hv : s.views[view]? = some v) (hp : v.isPinned = false)
    (clean : (s.setPinned view true).Clean) {w : View K}
    (hw : (s.setPinned view true).views[view]? = some w) {e : Engine K}
    (he : s.engines[v.engine]? = some e) (unused : ∀ q, e.solver.symbolOf ⟨view, q⟩ = none)
    (q : Quantity) :
    q ∈ w.accepted ∧
      Agree (((s.setPinned view true).frame view).1.component q) ((s.frame view).1.component q) := by
  obtain ⟨done, rest, hq⟩ := List.append_of_mem q.mem_all
  obtain ⟨f, hf, repinned⟩ := setPinned_repins hs hv hp clean hw hq
  obtain ⟨f', hf', reached, -⟩ := repinning_engine hv he done
  obtain rfl : f = f' := Option.some.inj (hf.symm.trans hf')
  -- The pins tried before mention the other quantities of the view.
  have apart : q ∉ done := fun h => Quantity.notMem_of_all hq (List.mem_append_left _ h)
  have still : f.solver.symbolOf ⟨view, q⟩ = none := by
    refine Engine.ReachesBy.unused (reached.mono ?_ fun _ => id)
      ((Solver.symbolOf_fetchChanges e.solver _).trans (unused q))
    rintro c ⟨p, hdone, mentioned⟩
    rw [mentioned, List.mem_singleton]
    rintro ⟨⟩
    exact apart hdone
  have loose : f.solver.Loose ⟨view, q⟩ := fun σ hσ => by rw [still] at hσ; cases hσ
  exact ⟨repinned.of_loose loose, repinned.read_of_unused still⟩

/-! ## Views that are held at a rectangle -/

/-- A pin on record mentions its own component only. -/
theorem PinnedOn.mem_of_mentioned {qs : List Quantity} (h : s.PinnedOn view v qs) {c : Constraint K}
    (hc : c ∈ v.pinned) {q : Quantity} (hq : ⟨view, q⟩ ∈ c.mentioned) : q ∈ qs := by
  rw [PinnedOn] at h
  generalize v.pinned = pins at h hc
  induction h with
  | nil => cases hc
  | cons first _ ih =>
    rcases List.mem_cons.1 hc with rfl | hc
    · obtain ⟨⟨n, x, rfl⟩, -⟩ := first
      rw [pinConstraint_mentioned, List.mem_singleton] at hq
      cases hq
      exact .head _
    · exact .tail _ (ih hc)

/-- A view that is held at a rectangle has pins on record for all its quantities. -/
theorem HeldAt.accepted {rect : Rect K} (h : HeldAt s view rect) (hs : Orderly s) (told : Told s)
    (accounted : Accounted 0 [] s) :
    ∃ v, s.views[view]? = some v ∧ v.isPinned = true ∧ ∀ q, q ∈ v.accepted := by
  obtain ⟨v, hv, pinned⟩ := h
  obtain ⟨c, hc, -⟩ := (pinned .left).exists_pinned hv hs accounted
  have hp := isPinned_of_mem hc
  refine ⟨v, hv, hp, fun q => ?_⟩
  obtain ⟨c, hc, hq⟩ := (pinned q).exists_pinned hv hs accounted
  exact (told.pinnedOn accounted hv hp).1.mem_of_mentioned hc hq

end Scene

end ViewConstraints
