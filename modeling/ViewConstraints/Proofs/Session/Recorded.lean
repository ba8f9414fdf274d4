import ViewConstraints.Layout.Recording
import ViewConstraints.Proofs.Layout.Lowering
import ViewConstraints.Proofs.Scene.Growth

/-!
# An engine and the recorder see one program

A program of blocks and single relations can be run by a session and by a recording. Both are seen
through their `Account`: how they name anchors, what their constraints say and which relations they
reported. A command adds the same to either account (`Command.calls`, `Command.reports`), whatever a
solver refuses on the way, so after any program the constraints of the session are described as the
recorded ones are (`Session.run_recorded`).
-/

namespace ViewConstraints

open Layout

section

variable {K : Type}

/-! ## Views under other numbers -/

/-- The anchor with its view's number replaced. -/
def Anchor.placed (place : ViewId → ViewId) (a : Anchor) : Anchor :=
  { a with view := place a.view }

namespace Layout

/-- A part of a program about views: a block, or a relation outside any block. -/
inductive Command (K : Type) where
  | block (view : ViewId) (statements : List (Statement K))
  | relate (lhs : Anchor) (relating : Relating K)

variable (place : ViewId → ViewId)

/-- A place with the number of its view replaced. -/
def Place.placed (p : Place K) : Place K := { p with anchor := p.anchor.placed place }

/-- What an anchor is related to, with the numbers of views replaced. -/
def Relating.placed : Relating K → Relating K
  | .equalTo (.place p) => .equalTo (.place (p.placed place))
  | .equalTo (.number value) => .equalTo (.number value)
  | .greaterThanOrEqualTo p => .greaterThanOrEqualTo (p.placed place)
  | .lessThanOrEqualTo p => .lessThanOrEqualTo (p.placed place)
  | .explicit relation anchor offset => .explicit relation (anchor.placed place) offset
  | .equalConstant value => .equalConstant value

/-- A statement with the numbers of views replaced. -/
def Statement.placed (st : Statement K) : Statement K :=
  { st with relating := st.relating.placed place }

/-- A command with the numbers of views replaced. -/
def Command.placed : Command K → Command K
  | block view statements => block (place view) (statements.map (Statement.placed place))
  | relate lhs relating => relate (lhs.placed place) (relating.placed place)

/-- A command as a step of a recording. -/
def Command.recorded : Command K → Recording.Step K
  | block view statements => .layout view (statements.map Entry.statement)
  | relate lhs relating => .relate lhs relating

/-- A command as a step of a session. -/
def Command.performed : Command K → Session.Step K
  | block view statements => .layout view statements
  | relate lhs relating => .relate lhs relating

/-! ## What a command adds to an account -/

/-- What can be told of the constraints made so far, apart from their activity. -/
structure Account (K : Type) where
  /-- How anchors are named. -/
  nameOf : Anchor → AnchorName
  /-- What the constraints say, in the order they were made. -/
  calls : List (Relationship K)
  /-- The relations reported. -/
  reports : List (Applied K)

variable [Scalar K]

/-- The constraints that a command asks for. -/
def Command.calls (name : Anchor → AnchorName) : Command K → List (Relationship K)
  | block view statements => statements.map (Statement.call name view)
  | relate lhs relating => [relating.call name (name lhs)]

/-- The relations that a command reports. -/
def Command.reports : Command K → List (Applied K)
  | block _ statements => statements.map fun st => st.relating.report
  | relate _ relating => [relating.report]

/-- An account with further constraints and reports. -/
def Account.add (acc : Account K) (calls : List (Relationship K)) (reports : List (Applied K)) :
    Account K :=
  { acc with calls := acc.calls ++ calls, reports := acc.reports ++ reports }

/-- An account after a command. -/
def Account.after (acc : Account K) (command : Command K) : Account K :=
  acc.add (command.calls acc.nameOf) command.reports

/-- What a program adds to an account is what its commands add, in their order: no command changes how
anchors are named, so each is read under the names of the start. -/
theorem Account.foldl_after (program : List (Command K)) (acc : Account K) :
    program.foldl Account.after acc =
      acc.add (program.flatMap (Command.calls acc.nameOf)) (program.flatMap Command.reports) := by
  induction program generalizing acc with
  | nil => simp [Account.add]
  | cons command program ih =>
    rw [List.foldl_cons, ih]
    simp only [Account.after, Account.add, List.flatMap_cons, List.append_assoc]

/-- Replacing the numbers of views in a relation is naming the views otherwise. -/
theorem Relating.call_placed (name : Anchor → AnchorName) (lhs : AnchorName)
    (relating : Relating K) : (relating.placed place).call name lhs =
      relating.call (fun a => name (a.placed place)) lhs := by
  cases relating with
  | equalTo target => cases target <;> rfl
  | greaterThanOrEqualTo | lessThanOrEqualTo | explicit | equalConstant => rfl

/-- A report of a relation names no view. -/
theorem Relating.report_placed (relating : Relating K) :
    (relating.placed place).report = relating.report := by
  cases relating with
  | equalTo target => cases target <;> rfl
  | greaterThanOrEqualTo | lessThanOrEqualTo | explicit | equalConstant => rfl

/-- Replacing the numbers of views in a command is naming the views otherwise. -/
theorem Command.calls_placed (name : Anchor → AnchorName) (command : Command K) :
    (command.placed place).calls name = command.calls fun a => name (a.placed place) := by
  cases command with
  | block view statements =>
    simp only [Command.placed, Command.calls, List.map_map]
    refine List.map_congr_left fun st _ => ?_
    exact Relating.call_placed place name _ st.relating
  | relate lhs relating =>
    exact congrArg (fun call => [call]) (Relating.call_placed place name _ relating)

/-- The reports of a command do not depend on how its views are numbered. -/
theorem Command.reports_placed (command : Command K) :
    (command.placed place).reports = command.reports := by
  cases command with
  | block view statements =>
    simp only [Command.placed, Command.reports, List.map_map]
    exact List.map_congr_left fun st _ => Relating.report_placed place st.relating
  | relate lhs relating =>
    exact congrArg (fun report => [report]) (Relating.report_placed place relating)

end Layout

end

/-! ## The account of a recording -/

namespace Layout

variable {K : Type}

/-- The account that a journal gives. -/
def Journal.account (j : Journal K) : Account K := ⟨j.nameOf, j.calls, j.reports⟩

/-- What a journal writes down is what is added to its account; that nothing is active yet does not
show there. -/
theorem Journal.Wrote.account {j j' : Journal K} {calls : List (Relationship K)}
    {reports : List (Applied K)} (h : Wrote j j' calls reports) :
    j'.account = j.account.add calls reports := by
  have hcalls : j'.calls = j.calls ++ calls := by
    rw [Journal.calls, h.constraints, List.map_append, List.map_map]
    exact congrArg _ (List.map_id calls)
  rw [Journal.account, h.nameOf, hcalls, h.reports]
  rfl

variable [Scalar K]

/-- A recorder adds to its account what the command asks for: a block its statements, and a relation
outside any block the one relation. -/
theorem Recording.perform_account (r : Recording K) (command : Command K) :
    (r.perform command.recorded).2.journal.account = r.journal.account.after command := by
  cases command with
  | block view statements =>
    exact (Journal.host_layout r.journal view statements).2.account
  | relate lhs relating =>
    obtain ⟨hname, hlook⟩ := Journal.host_fetch r.journal lhs
    obtain ⟨-, hmade⟩ := Journal.host_applyRelating (Journal.host.fetch lhs r.journal).2
      (Journal.host.fetch lhs r.journal).1 relating
    rw [hname, hlook.nameOf] at hmade
    exact (hlook.trans hmade).account

/-- A recorded program adds what its commands add, one after the other. -/
theorem Recording.transcript_account (program : List (Command K)) (r : Recording K) :
    (r.transcript (program.map Command.recorded)).2.journal.account =
      program.foldl Account.after r.journal.account := by
  induction program generalizing r with
  | nil => rfl
  | cons command program ih =>
    rw [List.foldl_cons, ← r.perform_account command]
    exact ih _

end Layout

/-! ## The account of a scene -/

namespace Scene

variable {K : Type}

/-- The account that a scene gives. -/
def account (s : Scene K) : Account K :=
  ⟨s.nameOf, s.constraints.map AnchorConstraint.relationship, s.applied⟩

/-- The reports at the lowest level are those of relations applied. -/
theorem filter_trace (s : Scene K) :
    s.log.filter (fun event => event.level = .trace) = s.applied.map Event.applied := by
  rw [applied]
  induction s.log with
  | nil => rfl
  | cons event log ih =>
    cases event with
    | applied a => exact congrArg (Event.applied a :: ·) ih
    | activated | deactivated | activationRefused | unpinned | pinRefused | unpinRefused => exact ih

/-- Anchors are named after the names of their views, which are settled when a view is made. -/
theorem nameOf_of_identity {s t : Scene K}
    (h : t.views.map View.identity = s.views.map View.identity) : t.nameOf = s.nameOf := by
  have named (s : Scene K) (view : ViewId) : s.views[view]?.map View.name =
      (s.views.map View.identity)[view]?.map Prod.fst := by
    rw [List.getElem?_map, Option.map_map]
    rfl
  funext a
  rw [nameOf, nameOf, named, named, h]

/-- A request that makes nothing leaves the account as it is. -/
theorem Steady.account {s t : Scene K} (h : Steady s t) : t.account = s.account := by
  have said (s : Scene K) : s.constraints.map AnchorConstraint.relationship =
      (s.constraints.map AnchorConstraint.identity).map fun r => r.2.1 := by
    rw [List.map_map]
    rfl
  rw [Scene.account, Scene.account, nameOf_of_identity h.views, said t, said s, h.constraints,
    h.applied]

/-- A constraint is described by the call it was made for, and making it reports nothing. -/
theorem insertConstraint_account (s : Scene K) (engine : EngineId) (call : Relationship K)
    (linear : Linear.Constraint K) :
    (s.insertConstraint engine call linear).2.account = s.account.add [call] [] := by
  rw [account, insertConstraint, List.map_append, Account.add, List.append_nil]
  rfl

variable [Scalar K]

/-- Whatever an anchor is related to, one constraint is made that says so. -/
theorem construct_account (s : Scene K) (lhs : Anchor) (relating : Relating K) :
    (s.construct lhs relating).2.account =
      s.account.add [relating.call s.nameOf (s.nameOf lhs)] [] := by
  have between (relation : Relation) (rhs : Anchor) (offset : K) :
      (s.relate lhs relation rhs offset).2.account =
        s.account.add [.between (s.nameOf lhs) relation (s.nameOf rhs) offset] [] :=
    insertConstraint_account s.freshLinear.2 ..
  have fixed (value : K) :
      (s.relateNumber lhs value).2.account = s.account.add [.fixed (s.nameOf lhs) value] [] :=
    insertConstraint_account s.freshLinear.2 ..
  cases relating with
  | equalTo target =>
    cases target with
    | place p => exact between ..
    | number value => exact fixed value
  | greaterThanOrEqualTo p => exact between ..
  | lessThanOrEqualTo p => exact between ..
  | explicit relation anchor offset => exact between ..
  | equalConstant value => exact fixed value

/-- Whatever the solver says to the constraint, it is on record and its relation reported. -/
theorem state_account (s : Scene K) (lhs : Anchor) (relating : Relating K) :
    (s.state lhs relating).2.account =
      s.account.add [relating.call s.nameOf (s.nameOf lhs)] [relating.report] := by
  have reported (t : Scene K) (a : Applied K) : (t.emit (.applied a)).account =
      t.account.add [] [a] := by
    rw [account, applied_emit, Account.add, List.append_nil]
    rfl
  rw [state, reported, (setActive_steady _ _ _).account, construct_account]
  simp [Account.add]

/-- A list of statements adds one constraint and one report for each, in order and under the names of
the start. -/
theorem stateAll_account (view : ViewId) (statements : List (Statement K)) (s : Scene K) :
    (stateAll view s statements).2.account =
      s.account.add (statements.map (Statement.call s.nameOf view))
        (statements.map fun st => st.relating.report) := by
  induction statements generalizing s with
  | nil => simp [stateAll, Account.add]
  | cons st rest ih =>
    rw [stateAll]
    have first := s.state_account (st.property.anchor view) st.relating
    have names : (s.state (st.property.anchor view) st.relating).2.nameOf = s.nameOf :=
      congrArg Account.nameOf first
    rw [ih, first, names]
    simp [Account.add, Statement.call]

end Scene

namespace Session

variable {K : Type} [Scalar K]

/-- A session adds to its account what the command asks for. Releasing the view of a
block changes pins only, which an account does not tell. -/
theorem perform_account (s : Session K) (command : Command K) :
    (s.perform command.performed).2.scene.account = s.scene.account.after command := by
  cases command with
  | block view statements =>
    simp only [Command.performed, perform, Scene.host_layout, foldl_keepOutcome_scene]
    have released := (Scene.setPinned_steady s.scene view false).account
    have names : (s.scene.setPinned view false).nameOf = s.scene.nameOf :=
      congrArg Account.nameOf released
    refine (Scene.stateAll_account view statements _).trans ?_
    rw [released, names]
    rfl
  | relate lhs relating =>
    simp only [Command.performed, perform, Scene.host_relateAnchor, answerKept_scene]
    exact s.scene.state_account lhs relating

/-- A program run by a session adds what its commands add, one after the other. -/
theorem run_account (program : List (Command K)) (s : Session K) :
    (s.run (program.map Command.performed)).scene.account =
      program.foldl Account.after s.scene.account := by
  induction program generalizing s with
  | nil => rfl
  | cons command program ih =>
    rw [List.foldl_cons, ← s.perform_account command]
    exact ih _

/-- A program run by a session makes one constraint for each call that the recorder writes down when
it runs the program, in the same order and with the description of that call, and reports the same
relations, whatever the session did before and whatever its solvers refuse. The views of the program
have the same names in both, but they need not have the same numbers. -/
theorem run_recorded (names : List String) (s : Session Float) (place : ViewId → ViewId)
    (hnames : ∀ view, (s.scene.views[place view]?.map View.name).getD "" = names[view]?.getD "")
    (program : List (Command Float)) :
    let journal := ((Recording.start names).transcript (program.map Command.recorded)).2.journal
    let scene := (s.run (program.map fun command => (command.placed place).performed)).scene
    scene.constraints.map (fun r => r.relationship.text) =
        s.scene.constraints.map (fun r => r.relationship.text) ++
          journal.calls.map Relationship.text ∧
      scene.log.filter (fun event => event.level = .trace) =
        s.scene.log.filter (fun event => event.level = .trace) ++
          journal.reports.map Scene.Event.applied := by
  intro journal scene
  have hplaced : (fun a => s.scene.nameOf (a.placed place)) =
      (Recording.start (K := Float) names).journal.nameOf := by
    funext a
    rw [Scene.nameOf, Journal.nameOf]
    exact congrArg (fun view => AnchorName.mk view a.feature a.safe) (hnames a.view)
  have hrun := run_account (program.map (Command.placed place)) s
  have hrecorded := Recording.transcript_account program (Recording.start names)
  rw [Account.foldl_after] at hrun hrecorded
  have hcalls : (program.map (Command.placed place)).flatMap (Command.calls s.scene.nameOf) =
      journal.calls := by
    rw [List.flatMap_map]
    simp only [Command.calls_placed, hplaced]
    exact (congrArg Account.calls hrecorded).symm
  have hreports : (program.map (Command.placed place)).flatMap Command.reports =
      journal.reports := by
    rw [List.flatMap_map]
    simp only [Command.reports_placed]
    exact (congrArg Account.reports hrecorded).symm
  rw [List.map_map] at hrun
  have hscene : scene.account = s.scene.account.add journal.calls journal.reports := by
    rw [← hcalls, ← hreports]
    exact hrun
  have htexts (t : Scene Float) : t.constraints.map (fun r => r.relationship.text) =
      t.account.calls.map Relationship.text := by
    rw [Scene.account, List.map_map]
    rfl
  have happlied (t : Scene Float) : t.applied = t.account.reports := rfl
  refine ⟨?_, ?_⟩
  · rw [htexts, htexts, hscene, ← List.map_append]
    rfl
  · rw [Scene.filter_trace, Scene.filter_trace, happlied, happlied, hscene, ← List.map_append]
    rfl

/-- A session with two views besides the root. -/
def pageAndCard : Session Float :=
  (start Config.standard).run
    [.addView 0 "page" ⟨0.0, 0.0, 300.0, 200.0⟩, .addView 0 "card" ⟨5.0, 6.0, 100.0, 50.0⟩]

/-- A program about a page, number 0, and a card, number 1. The card's width is fixed twice, and it
starts 16 - 4 after the safe area of the page. -/
def twoWidths : List (Command Float) :=
  [.block 1
    [⟨.width, .equalTo (.number 50.0), true⟩, ⟨.width, .equalConstant 60.5, false⟩,
      ⟨.leading, .greaterThanOrEqualTo ⟨⟨0, .leading, true⟩, [.plus 16.0, .minus 4.0]⟩, true⟩]]

/-- The number in `pageAndCard` of a view of `twoWidths`. -/
def afterRoot (view : ViewId) : ViewId := view + 1

/-- The page and the card come after the root; past them there is no view on either side. -/
theorem pageAndCard_names (view : ViewId) :
    (pageAndCard.scene.views[afterRoot view]?.map View.name).getD "" =
      ["page", "card"][view]?.getD "" := by
  have names : pageAndCard.scene.views.map View.name = ["root", "page", "card"] := by
    decide +kernel
  rw [← List.getElem?_map, names, afterRoot, List.getElem?_cons_succ]

/-- The solver refuses the second width, and still it is on record where the recorder has it. -/
theorem run_recorded_twoWidths :
    (∀ view, (pageAndCard.scene.views[afterRoot view]?.map View.name).getD "" =
        ["page", "card"][view]?.getD "") ∧
      ((pageAndCard.run (twoWidths.map fun command =>
          (command.placed afterRoot).performed)).scene.constraints.map
        fun r => r.relationship.text) =
        pageAndCard.scene.constraints.map (fun r => r.relationship.text) ++
          ((Recording.start ["page", "card"]).transcript
            (twoWidths.map Command.recorded)).2.journal.calls.map Relationship.text ∧
      ((pageAndCard.run (twoWidths.map fun command =>
          (command.placed afterRoot).performed)).scene.constraints.map fun r =>
        (r.relationship.text, r.active)) =
        [("card.width == 50", true), ("card.width == 60.5", false),
          ("card.leading >= page.safeArea.leading + 12", true)] :=
  ⟨pageAndCard_names, (run_recorded _ pageAndCard afterRoot pageAndCard_names twoWidths).1,
    by decide +kernel⟩

end Session

end ViewConstraints
