/-!
# Finite maps with a fixed order of iteration

`OrderedMap κ ν` holds at most one value for each key and lists its entries in ascending order of
the keys. A tableau is scanned for the first symbol that meets a condition, so the order of
iteration is part of what the map is.

The view of a map is `get?`; `get?_insert`, `get?_erase` and `get?_map` say what each operation does
to it.
-/

namespace ViewConstraints

/-- A finite map whose entries are kept in ascending order of their keys. -/
structure OrderedMap (κ ν : Type) where
  /-- The entries, first to last. -/
  entries : List (κ × ν) := []

namespace OrderedMap

variable {κ ν μ : Type}

instance : EmptyCollection (OrderedMap κ ν) := ⟨⟨[]⟩⟩

instance : Inhabited (OrderedMap κ ν) := ⟨∅⟩

/-- The keys, in order. -/
def keys (m : OrderedMap κ ν) : List κ := m.entries.map Prod.fst

/-- The values, in the order of their keys. -/
def values (m : OrderedMap κ ν) : List ν := m.entries.map Prod.snd

/-- Whether the map holds no entry. -/
def isEmpty (m : OrderedMap κ ν) : Bool := m.entries.isEmpty

/-- The first entry that satisfies `p`. -/
def find? (m : OrderedMap κ ν) (p : κ → ν → Bool) : Option (κ × ν) :=
  m.entries.find? fun e => p e.1 e.2

/-- Combines the entries in order. -/
def foldl {α : Type} (f : α → κ → ν → α) (a : α) (m : OrderedMap κ ν) : α :=
  m.entries.foldl (fun a e => f a e.1 e.2) a

/-- Replaces each value by a function of its key and itself. -/
def map (f : κ → ν → μ) (m : OrderedMap κ ν) : OrderedMap κ μ :=
  ⟨m.entries.map fun e => (e.1, f e.1 e.2)⟩

section Lookup

variable [DecidableEq κ]

/-- The value of the first entry for `k`. -/
def lookupEntry (k : κ) : List (κ × ν) → Option ν
  | [] => none
  | e :: rest => if k = e.1 then some e.2 else lookupEntry k rest

/-- The value held for `k`. -/
def get? (m : OrderedMap κ ν) (k : κ) : Option ν := lookupEntry k m.entries

/-- Whether `k` has a value. -/
def contains (m : OrderedMap κ ν) (k : κ) : Bool := (m.get? k).isSome

/-- Forgets `k`. -/
def erase (m : OrderedMap κ ν) (k : κ) : OrderedMap κ ν :=
  ⟨m.entries.filter fun e => e.1 ≠ k⟩

/-- Places an entry before the first greater key, or in the place of an equal one. -/
def insertEntry [LT κ] [DecidableLT κ] (k : κ) (v : ν) : List (κ × ν) → List (κ × ν)
  | [] => [(k, v)]
  | e :: rest =>
    if k = e.1 then (k, v) :: rest
    else if k < e.1 then (k, v) :: e :: rest
    else e :: insertEntry k v rest

/-- Gives `k` the value `v`, in place of any earlier one. -/
def insert [LT κ] [DecidableLT κ] (m : OrderedMap κ ν) (k : κ) (v : ν) : OrderedMap κ ν :=
  ⟨insertEntry k v m.entries⟩

/-! ## Looking up after an operation -/

/-- An insertion changes what is found under its own key and nothing else. -/
theorem lookupEntry_insertEntry [LT κ] [DecidableLT κ] (k j : κ) (v : ν) (l : List (κ × ν)) :
    lookupEntry j (insertEntry k v l) = if j = k then some v else lookupEntry j l := by
  induction l with
  | nil => rfl
  | cons e rest ih =>
    rw [insertEntry]
    split
    next hk =>
      subst hk
      simp only [lookupEntry]
      split <;> rfl
    next hk =>
      split
      next => rfl
      next =>
        simp only [lookupEntry, ih]
        by_cases hj : j = e.1
        · have hjk : j ≠ k := fun h => hk (h.symm.trans hj)
          rw [if_pos hj, if_neg hjk, if_pos hj]
        · rw [if_neg hj, if_neg hj]

/-- A key has the value inserted last for it, and every other key keeps its own. -/
@[simp] theorem get?_insert [LT κ] [DecidableLT κ] (m : OrderedMap κ ν) (k j : κ) (v : ν) :
    (m.insert k v).get? j = if j = k then some v else m.get? j :=
  lookupEntry_insertEntry k j v m.entries

/-- An erased key has no value, and every other key keeps its own. -/
@[simp] theorem get?_erase (m : OrderedMap κ ν) (k j : κ) :
    (m.erase k).get? j = if j = k then none else m.get? j := by
  obtain ⟨l⟩ := m
  simp only [get?, erase]
  induction l with
  | nil => simp [lookupEntry]
  | cons e rest ih =>
    by_cases he : e.1 = k
    · have hrest : (e :: rest).filter (fun e => decide (e.1 ≠ k)) =
          rest.filter fun e => decide (e.1 ≠ k) := by simp [he]
      rw [hrest, ih, lookupEntry]
      by_cases hj : j = k
      · simp [hj]
      · rw [if_neg hj, if_neg hj, if_neg fun h : j = e.1 => hj (h.trans he)]
    · have hrest : (e :: rest).filter (fun e => decide (e.1 ≠ k)) =
          e :: rest.filter fun e => decide (e.1 ≠ k) := by simp [he]
      rw [hrest, lookupEntry, ih, lookupEntry]
      by_cases hj : j = e.1
      · simp [hj, he]
      · simp [hj]

/-- Replacing the values keeps the keys. -/
@[simp] theorem get?_map (m : OrderedMap κ ν) (f : κ → ν → μ) (k : κ) :
    (m.map f).get? k = (m.get? k).map (f k) := by
  obtain ⟨l⟩ := m
  simp only [get?, map]
  induction l with
  | nil => rfl
  | cons e rest ih =>
    simp only [List.map_cons, lookupEntry]
    split
    next hk => simp [hk]
    next => exact ih

end Lookup

end OrderedMap

end ViewConstraints
