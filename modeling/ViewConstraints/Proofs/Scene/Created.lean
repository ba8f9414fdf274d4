import ViewConstraints.Proofs.Scene.Pinned

/-!
# Views that are new

As long as anchors of views that exist are related, no engine and no constraint knows of a view with a
later number (`Below`, `KeepsBelow`). So a view that is made next meets an engine that has nothing on
its unknowns, and its pins hold it at the frame it comes with, whatever else the solver of the engine
holds (`insertView_holds`). Views that are held stay held meanwhile (`AllHeld.insertView`).
-/

namespace ViewConstraints

open Linear Simplex

/-- The frame of the root view of an engine. -/
def Config.rootFrame {K : Type} [Scalar K] (config : Config K) : Rect K :=
  ⟨0.0, 0.0, config.rootSize.width, config.rootSize.height⟩

namespace Scene

/-! ## Views to come -/

section

variable {K : Type} [Scalar K]

/-- An anchor stands for unknowns of its own view. -/
theorem view_of_mem_expression (a : Anchor) (i : Insets K) :
    ∀ t ∈ (a.expression i).terms, t.unknown.view = a.view := by
  obtain ⟨view, feature, safe⟩ := a
  cases feature <;>
    simp [Anchor.expression, Expression.ofVariable, Expression.addConstant, Expression.subConstant,
      Expression.add, Expression.scale]

/-- An unknown that is mentioned stands in a term. -/
theorem exists_term_of_mentioned {c : Constraint K} {v : Variable} (hv : v ∈ c.mentioned) :
    ∃ t ∈ c.expression.terms, t.unknown = v := by
  obtain ⟨t, ht, rfl⟩ := List.mem_map.1 hv
  exact ⟨t, (List.mem_filter.1 ht).1, rfl⟩

/-- A constraint between two anchors mentions unknowns of their views. -/
theorem view_of_mentioned_relating {id : Nat} {a b : Anchor} {i j : Insets K} {relation : Relation}
    {offset : K} {priority : Priority} {v : Variable}
    (hv : v ∈ (Constraint.relating id (a.expression i) relation
      ((b.expression j).addConstant offset) priority).mentioned) :
    v.view = a.view ∨ v.view = b.view := by
  obtain ⟨t, ht, rfl⟩ := exists_term_of_mentioned hv
  rcases List.mem_append.1 ht with ht | ht
  · exact .inl (view_of_mem_expression a i t ht)
  · obtain ⟨u, hu, rfl⟩ := List.mem_map.1 ht
    exact .inr (view_of_mem_expression b j u hu)

/-- A constraint that fixes an anchor mentions unknowns of the anchor's view only. -/
theorem view_of_mentioned_equalling {id : Nat} {a : Anchor} {i : Insets K} {value : K}
    {priority : Priority} {v : Variable}
    (hv : v ∈ (Constraint.equalling id (a.expression i) value priority).mentioned) :
    v.view = a.view := by
  obtain ⟨t, ht, rfl⟩ := exists_term_of_mentioned hv
  exact view_of_mem_expression a i t ht

/-- No constraint and no engine knows of a view with a number from `n` on. -/
structure Below (n : Nat) (s : Scene K) : Prop where
  linears : ∀ c ∈ s.constraints.map AnchorConstraint.linear, ∀ v ∈ c.mentioned, v.view < n
  engines : ∀ e ∈ s.engines, ∀ v : Variable, n ≤ v.view → e.Unaware v

variable {n : Nat} {s t : Scene K}

/-- No view to come is known afterwards, if none is known before and none is mentioned on the way. -/
theorem Below.evolves (h : Below n s)
    (linears : ∀ c ∈ t.constraints.map AnchorConstraint.linear, ∀ v ∈ c.mentioned, v.view < n)
    (evolves : EvolvesBy (fun c => ∀ v ∈ c.mentioned, v.view < n) (fun _ => True) s t) : Below n t := by
  refine ⟨linears, ?_⟩
  intro e' he' v hv
  have unmentioned : ∀ c : Constraint K, (∀ v ∈ c.mentioned, v.view < n) → v ∉ c.mentioned :=
    fun c hc hmem => Nat.not_lt.2 hv (hc v hmem)
  obtain ⟨i, hi⟩ := List.mem_iff_getElem?.1 he'
  rcases evolves.engine i e' hi with ⟨e, he, hreach⟩ | ⟨-, config, root, hreach⟩
  · exact (h.engines e (List.mem_of_getElem? he) v hv).reaches (hreach.mono unmentioned fun _ => id)
  · exact (Engine.create_unaware config root v).reaches (hreach.mono unmentioned fun _ => id)

theorem Below.mono {m : Nat} (h : Below m s) (hmn : m ≤ n) : Below n s where
  linears c hc v hv := Nat.lt_of_lt_of_le (h.linears c hc v hv) hmn
  engines e he v hv := h.engines e he v (Nat.le_trans hmn hv)

/-- The constraints that a scene within `n` views may give an engine. -/
abbrev Within (n : Nat) (c : Constraint K) : Prop := ∀ v ∈ c.mentioned, v.view < n

/-- The constraints of a scene within `n` views may be given to an engine and taken back. -/
theorem Below.within (h : Below n s) : ∀ r ∈ s.constraints, Within n r.linear ∧ True :=
  fun _ hr => ⟨h.linears _ (List.mem_map_of_mem hr), trivial⟩

/-- What is kept by requests that make no engine and no view: no engine and no constraint learns of
views with numbers from `n` on, unless there are some. -/
structure KeepsBelow (n : Nat) (s t : Scene K) : Prop where
  orderly : Orderly s → Orderly t
  engines : t.engines.map Engine.identity = s.engines.map Engine.identity
  views : t.views.length = s.views.length
  below : Orderly s → s.views.length ≤ n → Below n s → Below n t

/-- A request that makes nothing keeps views to come unknown if it mentions none of them. -/
theorem KeepsBelow.of_steady (orderly : Orderly s → Orderly t) (steady : Steady s t)
    (evolves : Orderly s → s.views.length ≤ n → Below n s →
      EvolvesBy (Within n) (fun _ => True) s t) : KeepsBelow n s t :=
  ⟨orderly, steady.engines, steady.views_length,
    fun hs hn h => h.evolves (steady.linears ▸ h.linears) (evolves hs hn h)⟩

variable [UnitScalar K]

/-- The pins of a view mention this view only. -/
theorem within_pinConstraint {view : ViewId} (hview : view < n) (id : Nat) (part : Quantity × K) :
    Within n (pinConstraint id view part) := by
  rw [Within, pinConstraint_mentioned]
  exact List.forall_mem_singleton.2 hview

/-- To hold a view that exists mentions this view, and to release it mentions none. -/
theorem setPinned_keepsBelow (s : Scene K) (view : ViewId) (enabled : Bool) :
    KeepsBelow n s (s.setPinned view enabled) := by
  refine .of_steady (orderly_stable.setPinned s view enabled) (setPinned_steady s view enabled) ?_
  intro hs hn _
  exact hs.numbered.setPinned_evolves view enabled
    (fun _ hview => within_pinConstraint (Nat.lt_of_lt_of_le hview hn)) fun _ _ _ _ _ => trivial

/-- A constraint that is switched was made before, so it mentions no view to come. -/
theorem trySetActive_keepsBelow (s : Scene K) (c : ConstraintId) (active : Bool) :
    KeepsBelow n s (s.trySetActive c active).2 :=
  .of_steady (trySetActive_orderly c active) (trySetActive_steady s c active)
    fun hs _ h => hs.numbered.trySetActive_evolves c active h.within

/-- Requests that make nothing and neither hold a view nor release it keep views to come unknown. -/
theorem keepsBelow_base : StableBase (KeepsBelow (K := K) n) where
  refl _ := ⟨id, rfl, rfl, fun _ _ => id⟩
  trans h h' := ⟨h'.orderly ∘ h.orderly, h'.engines.trans h.engines, h'.views.trans h.views,
    fun hs hn hb => h'.below (h.orderly hs) (h.views ▸ hn) (h.below hs hn hb)⟩
  setActive s c active := .of_steady (orderly_stable.setActive s c active)
    (setActive_steady s c active) fun hs _ h => hs.numbered.setActive_evolves c active h.within
  setInsets s view insets := .of_steady (orderly_stable.setInsets s view insets)
    (steady_modifyView s view fun _ => rfl) fun _ _ _ => .of_engines rfl
  frame s view := .of_steady (orderly_stable.frame s view) (frame_steady s view)
    fun _ _ _ => frame_evolves s view
  report s a := ⟨orderly_stable.report s a, rfl, rfl, fun _ _ h => ⟨h.linears, h.engines⟩⟩

/-- Relating anchors of views that exist keeps views to come unknown. -/
theorem keepsBelow_relates : Relates (fun a => a.view < n) (KeepsBelow (K := K) n) where
  relate s lhs relation rhs offset hlhs hrhs := by
    refine ⟨orderly_stable.relate s lhs relation rhs offset, rfl, rfl, fun _ _ h => ⟨?_, h.engines⟩⟩
    intro c hc v hv
    rw [relate_linears] at hc
    rcases List.mem_append.1 hc with hc | hc
    · exact h.linears c hc v hv
    · rw [List.mem_singleton.1 hc] at hv
      rcases view_of_mentioned_relating hv with hv | hv
      · exact hv ▸ hlhs
      · exact hv ▸ hrhs
  relateNumber s lhs value hlhs := by
    refine ⟨orderly_stable.relateNumber s lhs value, rfl, rfl, fun _ _ h => ⟨?_, h.engines⟩⟩
    intro c hc v hv
    rw [relateNumber_linears] at hc
    rcases List.mem_append.1 hc with hc | hc
    · exact h.linears c hc v hv
    · rw [List.mem_singleton.1 hc] at hv
      exact view_of_mentioned_equalling hv ▸ hlhs

end

/-! ## Views that are made -/

section

variable {K : Type} [Scalar K] {s : Scene K}

/-- The engine that is asked to add a constraint is the one in its place afterwards. -/
theorem addLinear_engine {s : Scene K} {i : EngineId} {e : Engine K} (he : s.engines[i]? = some e)
    (c : Constraint K) : (s.addLinear i c).2.engines[i]? = some (e.add c).2 := by
  rw [addLinear, he]
  exact List.getElem?_set_self (List.getElem?_eq_some_iff.1 he).1

/-- To make an engine is to add one without views, and then its root view. -/
theorem addEngine_eq_insertView (s : Scene K) (config : Config K) :
    (s.addEngine config).2 =
      ({ s with engines := s.engines ++ [Engine.create config s.views.length] }.insertView "root"
        s.engines.length config.rootFrame config.safeAreaInsets).2 := by
  rw [addEngine, Config.rootFrame]

/-- A part of a frame is asked of the engine under the next number. -/
theorem pinPart_engine (view : ViewId) (name : String) {engine : EngineId}
    {acc : List (Constraint K) × Scene K} {e : Engine K} (he : acc.2.engines[engine]? = some e)
    (part : Quantity × K) : (pinPart view name engine acc part).2.engines[engine]? =
      some (e.add (pinConstraint acc.2.nextLinear view part)).2 := by
  have added := addLinear_engine (s := acc.2.freshLinear.2) he
    (pinConstraint acc.2.nextLinear view part)
  unfold pinPart
  dsimp only [freshLinear] at added ⊢
  split <;> rename_i hr <;> rw [hr] at added <;> exact added

/-- A new engine knows of no view. -/
theorem Below.appendEngine {n : Nat} (h : Below n s) (config : Config K) (root : ViewId) :
    Below n { s with engines := s.engines ++ [Engine.create config root] } :=
  h.evolves (s := s) h.linears (appendEngine_evolves s config root)

variable [UnitScalar K]

/-- Parts of a frame are pinned one after the other, if the engine has nothing on their unknowns. The
induction is on the parts: those that come later ask for no removal. -/
theorem foldl_pinPart_pinned (view : ViewId) (name : String) {engine : EngineId}
    (parts : List (Quantity × K)) (distinct : (parts.map Prod.fst).Nodup)
    (acc : List (Constraint K) × Scene K) {e : Engine K} (h : Numbered acc.1 acc.2)
    (he : acc.2.engines[engine]? = some e) (hf : e.Faithful)
    (unaware : ∀ part ∈ parts, e.Unaware ⟨view, part.1⟩) :
    ∀ part ∈ parts, PinnedIn (parts.foldl (pinPart view name engine) acc).2 engine
      ⟨view, part.1⟩ part.2 := by
  induction parts generalizing acc e with
  | nil => exact List.forall_mem_nil _
  | cons part parts ih =>
    obtain ⟨fresh, distinct⟩ := List.nodup_cons.1 distinct
    have he' := pinPart_engine view name he part
    have added : e.ReachesBy (fun c => c.mentioned = [⟨view, part.1⟩]) (fun _ => True)
        (e.add (pinConstraint acc.2.nextLinear view part)).2 :=
      .add (.refl e) (pinConstraint_mentioned _ _ _)
    have hf' := hf.reaches added
    refine List.forall_mem_cons.2 ⟨?_, ih distinct _ (h.pinPart view name engine part) he' hf' ?_⟩
    · have below := h.numbering.held_below e (List.mem_of_getElem? he)
      obtain ⟨σ, marker, k, agree, pinned⟩ := (unaware part (.head _)).add hf
        (Solver.holds_eq_false_of_notMem hf.keyed fun c hc => Nat.ne_of_lt (below c hc)) part.2
      obtain ⟨f, hfound, hreach⟩ := (foldl_pinPart_evolves (A := fun _ => True)
        (B := fun c => c.id ≠ acc.2.nextLinear) view name engine parts
        (pinPart view name engine acc part) fun _ _ => trivial).exists_reaches he'
      have records := (pinPart_records view name engine acc part).trans
        (foldl_pinPart_records view name engine parts _)
      refine ⟨f, hfound, acc.2.nextLinear, σ, marker, k, agree, ?_, pinned.reaches hf' hreach⟩
      rw [List.foldl_cons, records.constraints]
      intro c hc
      exact Nat.ne_of_lt (h.numbering.below c
        (List.mem_append_right _ (List.mem_append_left _ hc)))
    · intro other hother
      refine (unaware other (.tail _ hother)).reaches (added.mono (fun c hc => ?_) fun _ => id)
      rw [hc, List.mem_singleton]
      intro heq
      have same : other.1 = part.1 := congrArg Variable.quantity heq
      exact fresh (same ▸ List.mem_map_of_mem hother)

/-- A view that has never been held is held at its frame, if its engine has nothing on its unknowns. -/
theorem pin_holds {view : ViewId} {v : View K} {e : Engine K} (h : Numbered [] s)
    (hv : s.views[view]? = some v) (hnone : v.pins = none) (he : s.engines[v.engine]? = some e)
    (hf : e.Faithful) (unaware : ∀ q, e.Unaware ⟨view, q⟩) : HeldAt (s.pin view) view v.frame := by
  obtain ⟨v', hv', same⟩ := (pin_steady s view).grows.view hv
  have engine : v'.engine = v.engine := congrArg Prod.snd same
  refine ⟨v', hv', fun q => ?_⟩
  have distinct : [Quantity.left, .top, .width, .height].Nodup := by decide
  have part : (q, v.frame.component q) ∈ frameParts v.frame := by
    cases q <;> simp [frameParts, Rect.component]
  have pinned := foldl_pinPart_pinned view v.name (frameParts v.frame) distinct ([], s) h he hf
    (fun _ _ => unaware _) _ part
  rw [engine, pin, hv]
  dsimp only
  rw [if_neg (by simp [View.isPinned, hnone])]
  generalize (frameParts v.frame).foldl (pinPart view v.name v.engine) ([], s) = r at pinned ⊢
  exact pinned

/-- When a view is made, only what comes after it stays unknown. -/
theorem Below.insertView (h : Below s.views.length s) (name : String) (engine : EngineId)
    (frame : Rect K) (insets : Insets K) :
    Below (s.views.length + 1) (s.insertView name engine frame insets).2 := by
  have below := h.mono (Nat.le_succ s.views.length)
  refine below.evolves (t := (s.insertView name engine frame insets).2) ?_
    (insertView_evolves s name engine frame insets fun id part =>
      within_pinConstraint (Nat.lt_succ_self _) id part)
  rw [insertView_constraints]
  exact below.linears

/-- A new view is held at the frame it comes with, since its engine knows of none of its unknowns. -/
theorem insertView_holds (h : Orderly s) (hb : Below s.views.length s) (name : String)
    {engine : EngineId} (he : engine < s.engines.length) (frame : Rect K) (insets : Insets K) :
    HeldAt (s.insertView name engine frame insets).2 s.views.length frame := by
  have hmem := List.getElem_mem he
  exact pin_holds (v := { name, engine, insets, frame }) (h.numbered.appendView name he frame insets)
    List.getElem?_concat_length rfl (List.getElem?_eq_getElem he) (h.faithful _ hmem)
    fun q => hb.engines _ hmem ⟨_, q⟩ (Nat.le_refl _)

/-! ## Frames that are given for the views of a scene -/

/-- Views of a scene are held at frames that are given for them in the order of the views; no frame is
given for the others, and no engine and no constraint knows of views to come. -/
structure AllHeld (frames : List (Option (Rect K))) (s : Scene K) : Prop where
  orderly : Orderly s
  below : Below s.views.length s
  length : frames.length = s.views.length
  held : ∀ view frame, frames[view]? = some (some frame) → HeldAt s view frame

variable {frames : List (Option (Rect K))}

/-- Views stay held while an engine is added. -/
theorem AllHeld.appendEngine (h : AllHeld frames s) (config : Config K) (root : ViewId) :
    AllHeld frames { s with engines := s.engines ++ [Engine.create config root] } where
  orderly := h.orderly.appendEngine config root
  below := h.below.appendEngine config root
  length := h.length
  held view frame hframe := (h.held view frame hframe).appendEngine h.orderly config root

/-- A view is made, with the frame it is held at given for it. The views before it stay held, and of
its own unknowns nothing is known yet. -/
theorem AllHeld.insertView (h : AllHeld frames s) (name : String) {engine : EngineId}
    (he : engine < s.engines.length) (frame : Rect K) (insets : Insets K) :
    AllHeld (frames ++ [some frame]) (s.insertView name engine frame insets).2 where
  orderly := h.orderly.insertView name he frame insets
  below := by
    rw [insertView_views_length]
    exact h.below.insertView name engine frame insets
  length := by
    rw [insertView_views_length, List.length_append, h.length]
    rfl
  held view rect hrect := by
    rcases Nat.lt_or_ge view frames.length with old | new
    · rw [List.getElem?_append_left old] at hrect
      exact (h.held view rect hrect).insertView h.orderly name engine frame insets
    · rw [List.getElem?_append_right new, List.getElem?_singleton] at hrect
      split at hrect
      next last =>
        cases hrect
        rw [Nat.le_antisymm (Nat.sub_eq_zero_iff_le.1 last) new, h.length]
        exact insertView_holds h.orderly h.below name he frame insets
      next => cases hrect

end

end Scene

end ViewConstraints
