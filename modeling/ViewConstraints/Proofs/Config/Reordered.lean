import ViewConstraints.Proofs.Config.Offence

/-!
# Documents with their keys in another order

Two values that differ in the order of keys only, in whichever of their tables, have the same
offences, each as often (`Place.offences_reordered`). The order in which they are met may differ,
and with it the first of them, but there is one in the one value exactly if there is one in the other.
-/

namespace ViewConstraints

open Toml (Value Entries)

/-- The same value but for the order of keys, which may differ in all of its tables. -/
inductive Toml.Value.Reordered : Value → Value → Prop
  | refl (v : Value) : Reordered v v
  | trans {v w x : Value} : Reordered v w → Reordered w x → Reordered v x
  /-- The keys of a table in another order. -/
  | keys {entries entries' : Entries} : entries.Perm entries' →
    Reordered (.table entries) (.table entries')
  | entry {key : String} {v v' : Value} {before after : Entries} : Reordered v v' →
    Reordered (.table (before ++ (key, v) :: after)) (.table (before ++ (key, v') :: after))
  | item {v v' : Value} {before after : List Value} : Reordered v v' →
    Reordered (.array (before ++ v :: after)) (.array (before ++ v' :: after))
  | element {t t' : Entries} {before after : List Entries} :
    Reordered (.table t) (.table t') →
    Reordered (.tables (before ++ t :: after)) (.tables (before ++ t' :: after))

namespace Config

/-! ## Offences of values by themselves -/

/-- What is wrong with a table as a priority depends on how many keys it has, and only a table with
one is looked into. -/
theorem priorityOffence_perm {entries entries' : Entries} (h : entries.Perm entries') :
    priorityOffence (.table entries') = priorityOffence (.table entries) := by
  match entries, entries', h.length_eq with
  | [], [], _ | [_], [_], _ | _ :: _ :: _, _ :: _ :: _, _ => rfl

/-- A table is empty in any order of its keys. -/
theorem contentsOffence_perm {entries entries' : Entries} (h : entries.Perm entries') :
    contentsOffence (.table entries') = contentsOffence (.table entries) := by
  match entries, entries', h.length_eq with
  | [], [], _ | _ :: _, _ :: _, _ => rfl

/-- What a value is by itself does not depend on the order of keys. -/
theorem Place.offence_reordered {v v' : Value} (h : v.Reordered v') (wanted : Wanted) :
    (⟨wanted, v'⟩ : Place).offence = (⟨wanted, v⟩ : Place).offence := by
  induction h with
  | refl => rfl
  | trans _ _ first second => exact second.trans first
  | keys hperm =>
    cases wanted with
    | priority => exact priorityOffence_perm hperm
    | nothing => exact contentsOffence_perm hperm
    | config | size | insets | number => rfl
  | @entry key v v' before after =>
    cases wanted with
    | priority => rcases before with _ | ⟨_, _ | _⟩ <;> cases after <;> rfl
    | nothing => cases before <;> rfl
    | config | size | insets | number => rfl
  | @item v v' before after | @element t t' before after =>
    cases wanted with
    | nothing => cases before <;> rfl
    | config | size | insets | number | priority => rfl

/-! ## Offences inside values -/

/-- The offences under known keys. -/
def Wanted.offencesIn (wanted : Wanted) (entries : Entries) : List ShapeError :=
  (entries.filterMap wanted.place?).flatMap Place.offences

namespace Wanted

variable {wanted : Wanted}

theorem offencesIn_cons (e : String × Value) (entries : Entries) :
    wanted.offencesIn (e :: entries) =
      ((wanted.place? e).map Place.offences).getD [] ++ wanted.offencesIn entries := by
  rw [offencesIn, List.filterMap_cons]
  cases wanted.place? e <;> rfl

theorem offencesIn_append (entries entries' : Entries) :
    wanted.offencesIn (entries ++ entries') =
      wanted.offencesIn entries ++ wanted.offencesIn entries' := by
  rw [offencesIn, List.filterMap_append, List.flatMap_append]
  rfl

section

variable {v v' : Value}
  (h : ∀ want : Wanted, ((⟨want, v'⟩ : Place).offences).Perm (⟨want, v⟩ : Place).offences)
include h

/-- Where one value has the offences of another, each as often, it may take its place under
any key. -/
theorem offencesIn_entry (key : String) (before after : Entries) :
    (wanted.offencesIn (before ++ (key, v') :: after)).Perm
      (wanted.offencesIn (before ++ (key, v) :: after)) := by
  rw [offencesIn_append, offencesIn_append, offencesIn_cons, offencesIn_cons]
  refine List.Perm.append_left _ (List.Perm.append_right _ ?_)
  rw [place?, place?]
  cases wanted.fields.lookup key with
  | none => exact .refl _
  | some want => exact h want

/-- The same for what stands at a position, under whichever name that is. -/
theorem offencesIn_zip (names : List String) (before after : List Value) :
    (wanted.offencesIn (names.zip (before ++ v' :: after))).Perm
      (wanted.offencesIn (names.zip (before ++ v :: after))) := by
  induction before generalizing names with
  | nil =>
    cases names with
    | nil => exact .refl _
    | cons name names => exact offencesIn_entry h name [] (names.zip after)
  | cons w before ih =>
    cases names with
    | nil => exact .refl _
    | cons name names =>
      simp only [List.cons_append, List.zip_cons_cons, offencesIn_cons]
      exact (ih names).append_left _

end

end Wanted

/-- Values that are alike by themselves have the same offences if they have the same inside. -/
theorem Place.offences_of_inside {wanted : Wanted} {v v' : Value}
    (hoffence : (⟨wanted, v'⟩ : Place).offence = (⟨wanted, v⟩ : Place).offence)
    (hinside : ((⟨wanted, v'⟩ : Place).inside.flatMap offences).Perm
      ((⟨wanted, v⟩ : Place).inside.flatMap offences)) :
    ((⟨wanted, v'⟩ : Place).offences).Perm (⟨wanted, v⟩ : Place).offences := by
  rw [offences_eq, offences_eq, hoffence]
  exact hinside.append_left _

/-- Values with their keys in another order have the same offences, each as often. The induction is on
how they differ, and in each case the offences of the value itself come first and those inside follow
in the other order. -/
theorem Place.offences_reordered {v v' : Value} (h : v.Reordered v') (wanted : Wanted) :
    ((⟨wanted, v'⟩ : Place).offences).Perm (⟨wanted, v⟩ : Place).offences := by
  induction h generalizing wanted with
  | refl => exact .refl _
  | trans _ _ first second => exact (second wanted).trans (first wanted)
  | @keys entries entries' hperm =>
    refine offences_of_inside (offence_reordered (.keys hperm) wanted) ?_
    cases wanted with
    | config | size | insets => exact (hperm.symm.filterMap _).flatMap_right _
    | number | nothing => exact .refl _
    | priority =>
      match entries, entries', hperm.length_eq with
      | [], [], _ | _ :: _ :: _, _ :: _ :: _, _ => exact .refl _
      | [_], [_], _ =>
        -- Only a table with one key has places inside, and one key has one order.
        obtain rfl := List.singleton_inj.1 hperm.singleton_eq
        exact .refl _
  | @entry key v v' before after h ih =>
    refine offences_of_inside (offence_reordered (.entry h) wanted) ?_
    cases wanted with
    | config | size | insets => exact Wanted.offencesIn_entry ih key before after
    | number | nothing => exact .refl _
    | priority =>
      match before, after with
      | [], [] =>
        exact ((ih .nothing).append_right []).append_left (offences ⟨.priority, .string key⟩)
      | [], _ :: _ | [_], _ | _ :: _ :: _, _ => exact .refl _
  | @item v v' before after h ih =>
    refine offences_of_inside (offence_reordered (.item h) wanted) ?_
    cases wanted with
    | config | size | insets => exact Wanted.offencesIn_zip ih _ before after
    | number | nothing | priority => exact .refl _
  | @element t t' before after h ih =>
    refine offences_of_inside (offence_reordered (.element h) wanted) ?_
    have split (t : Entries) : (before ++ t :: after).map Value.table =
        before.map Value.table ++ .table t :: after.map Value.table := by simp
    cases wanted with
    | config | size | insets =>
      simp only [inside, namedFields, split]
      exact Wanted.offencesIn_zip ih _ _ _
    | number | nothing | priority => exact .refl _

end Config
end ViewConstraints
