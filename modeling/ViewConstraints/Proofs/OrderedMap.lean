import ViewConstraints.OrderedMap

/-!
# Entries of ordered maps

What the operations of a map do to its list of entries, up to order: an insertion under a new key
adds one entry (`entries_insert_perm`), and an erasure takes one away when no key stands twice
(`entries_erase_perm`).
-/

namespace ViewConstraints.OrderedMap

variable {κ ν : Type} [DecidableEq κ]

/-! ## Lookup and membership -/

/-- A value that is found stands among the entries. -/
theorem mem_entries_of_lookupEntry {k : κ} {v : ν} {l : List (κ × ν)}
    (h : lookupEntry k l = some v) : (k, v) ∈ l := by
  induction l with
  | nil => cases h
  | cons e rest ih =>
    unfold lookupEntry at h
    split at h
    next hk =>
      cases h
      exact hk ▸ .head _
    next => exact .tail _ (ih h)

theorem mem_entries_of_get? {m : OrderedMap κ ν} {k : κ} {v : ν} (h : m.get? k = some v) :
    (k, v) ∈ m.entries :=
  mem_entries_of_lookupEntry h

/-- A key that is not found is not the key of an entry. -/
theorem notMem_keys_of_get? {m : OrderedMap κ ν} {k : κ} (h : m.get? k = none) : k ∉ m.keys := by
  obtain ⟨l⟩ := m
  simp only [get?, keys] at h ⊢
  induction l with
  | nil => simp
  | cons e rest ih =>
    unfold lookupEntry at h
    split at h
    next => cases h
    next hk => simp only [List.map_cons, List.mem_cons, not_or]; exact ⟨hk, ih h⟩

/-- Where no key stands twice, every entry is found. -/
theorem get?_of_mem_entries {m : OrderedMap κ ν} {k : κ} {v : ν} (hm : m.keys.Nodup)
    (h : (k, v) ∈ m.entries) : m.get? k = some v := by
  obtain ⟨l⟩ := m
  simp only [get?, keys] at hm h ⊢
  induction l with
  | nil => cases h
  | cons e rest ih =>
    obtain ⟨he, hrest⟩ := List.nodup_cons.1 hm
    rcases List.mem_cons.1 h with rfl | h
    · simp [lookupEntry]
    · have hne : k ≠ e.1 := by
        rintro rfl
        exact he (List.mem_map.2 ⟨_, h, rfl⟩)
      rw [lookupEntry, if_neg hne]
      exact ih hrest h

/-! ## Insertion and erasure -/

section Insert

variable [LT κ] [DecidableLT κ]

/-- A new key brings one more entry. -/
theorem insertEntry_perm {k : κ} {v : ν} {l : List (κ × ν)} (h : lookupEntry k l = none) :
    (insertEntry k v l).Perm ((k, v) :: l) := by
  induction l with
  | nil => exact .refl _
  | cons e rest ih =>
    unfold lookupEntry at h
    split at h
    next => cases h
    next hk =>
      rw [insertEntry, if_neg hk]
      split
      · exact .refl _
      · exact ((ih h).cons e).trans (.swap _ _ _)

/-- A new key adds one entry, wherever it is put. -/
theorem entries_insert_perm {m : OrderedMap κ ν} {k : κ} {v : ν} (h : m.get? k = none) :
    (m.insert k v).entries.Perm ((k, v) :: m.entries) :=
  insertEntry_perm h

/-- Inserting under a new key keeps the keys distinct. -/
theorem keys_insert_nodup {m : OrderedMap κ ν} {k : κ} {v : ν} (hm : m.keys.Nodup)
    (h : m.get? k = none) : (m.insert k v).keys.Nodup := by
  have hp : (m.insert k v).keys.Perm (k :: m.keys) := (entries_insert_perm h).map Prod.fst
  exact hp.nodup_iff.2 (List.nodup_cons.2 ⟨notMem_keys_of_get? h, hm⟩)

/-- An insertion brings in its own entry at most. -/
theorem mem_entries_of_insert {m : OrderedMap κ ν} {k : κ} {v : ν} {e : κ × ν}
    (h : e ∈ (m.insert k v).entries) : e = (k, v) ∨ e ∈ m.entries := by
  obtain ⟨l⟩ := m
  simp only [insert] at h ⊢
  induction l with
  | nil => exact .inl (List.mem_singleton.1 h)
  | cons f rest ih =>
    rw [insertEntry] at h
    split at h
    · exact (List.mem_cons.1 h).imp_right (.tail _)
    · split at h
      · exact List.mem_cons.1 h
      · rcases List.mem_cons.1 h with rfl | h
        · exact .inr (.head _)
        · exact (ih h).imp_right (.tail _)

end Insert

/-- An erasure brings in nothing. -/
theorem mem_entries_of_erase {m : OrderedMap κ ν} {k : κ} {e : κ × ν}
    (h : e ∈ (m.erase k).entries) : e ∈ m.entries :=
  (List.mem_filter.1 h).1

/-- Where no key stands twice, an erasure takes one entry away. -/
theorem entries_erase_perm {m : OrderedMap κ ν} {k : κ} {v : ν} (hm : m.keys.Nodup)
    (h : m.get? k = some v) : m.entries.Perm ((k, v) :: (m.erase k).entries) := by
  obtain ⟨l⟩ := m
  simp only [get?, keys, erase] at hm h ⊢
  induction l with
  | nil => cases h
  | cons e rest ih =>
    obtain ⟨he, hrest⟩ := List.nodup_cons.1 hm
    unfold lookupEntry at h
    split at h
    next hk =>
      cases h
      have hall : ∀ x ∈ rest, x.1 ≠ k := by
        rintro x hx rfl
        exact he (hk ▸ List.mem_map_of_mem hx)
      have hfilter : (e :: rest).filter (fun x => decide (x.1 ≠ k)) = rest := by
        rw [List.filter_cons_of_neg (by simp [hk]), List.filter_eq_self]
        exact fun x hx => by simpa using hall x hx
      rw [hfilter, hk]
    next hk =>
      rw [List.filter_cons_of_pos (by simpa using Ne.symm hk)]
      exact ((ih hrest h).cons e).trans (.swap _ _ _)

/-- Erasing keeps the keys distinct. -/
theorem keys_erase_nodup {m : OrderedMap κ ν} {k : κ} (hm : m.keys.Nodup) :
    (m.erase k).keys.Nodup :=
  (List.filter_sublist.map Prod.fst).nodup hm

end ViewConstraints.OrderedMap
