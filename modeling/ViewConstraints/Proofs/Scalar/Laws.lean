import ViewConstraints.Proofs.Scalar.Binary64
import ViewConstraints.Proofs.Simplex.Reports

/-!
# Laws of the numbers a layout is computed with

Binary floating point obeys the laws asked of numbers so far (`LawfulScalar`), those of one and minus
one that a solver relies on when it brings in a row (`UnitScalar`), and those by which numbers that
agree are alike as operands (`CongruentScalar`). So does exact arithmetic, and whatever is proved from
these laws holds of both.
-/

namespace ViewConstraints

/-- The laws of one and minus one: they are told apart from zero and from each other, a product with
one of them is the number or its opposite, and a number taken off zero is the opposite as well. -/
class UnitScalar (K : Type) [Scalar K] : Prop extends LawfulScalar K where
  zero_beq_zero : ((0.0 : K) == 0.0) = true
  one_not_near_zero : isNearZero (1.0 : K) = false
  neg_one_not_near_zero : isNearZero (-1.0 : K) = false
  neg_one_lt_zero : (-1.0 : K) < 0.0
  neg_neg_one : -(-1.0 : K) = 1.0
  neg_one_div_one : (-1.0 : K) / 1.0 = -1.0
  neg_one_div_neg_one : (-1.0 : K) / -1.0 = 1.0
  mul_one (x : K) : Agree (x * 1.0) x
  mul_neg_one (x : K) : Agree (x * -1.0) (-x)
  neg_zero_sub (x : K) : Agree (-(0.0 - x)) x

/-- The laws by which numbers that agree are alike as operands: taken off zero, and as what another
number is added to or taken off. -/
class CongruentScalar (K : Type) [Scalar K] : Prop extends LawfulScalar K where
  zero_sub_congr : ∀ {x y : K}, Agree x y → (0.0 : K) - x = 0.0 - y
  add_congr : ∀ {x y : K}, Agree x y → ∀ a : K, Agree (x + a) (y + a)
  sub_congr : ∀ {x y : K}, Agree x y → ∀ a : K, Agree (x - a) (y - a)

/-! ## Binary floating point -/

section

open Unpacked Float.Model Float.Model.UnpackedFloat

/-- Doubles that unpack alike agree, not-a-number with not-a-number. -/
theorem agree_of_unpacked_eq {x y : Float} (h : unpacked x = unpacked y) : Agree x y := by
  by_cases hnan : unpacked x = .notANumber
  · have unequal (z : Float) (hz : unpacked z = .notANumber) : (z == z) = false := by
      rw [Bool.eq_false_iff, ne_eq, beq_iff, hz]
      rintro (⟨-, h⟩ | ⟨⟨_, h⟩, -⟩)
      · exact h rfl
      · cases h
    exact .inr ⟨unequal x hnan, unequal y (h ▸ hnan)⟩
  · exact .inl ((beq_iff x y).2 (.inl ⟨h, hnan⟩))

/-- Zeros agree, whatever their signs. -/
theorem agree_of_isZero {x y : Float} (hx : IsZero (unpacked x)) (hy : IsZero (unpacked y)) :
    Agree x y :=
  .inl ((beq_iff x y).2 (.inr ⟨hx, hy⟩))

theorem isZero_neg {u : Float.Model.UnpackedFloat} (h : IsZero u) : IsZero u.neg := by
  obtain ⟨s, rfl⟩ := h
  exact ⟨-s, rfl⟩

theorem neg_neg (u : Float.Model.UnpackedFloat) : u.neg.neg = u := by
  cases u with
  | notANumber => rfl
  | infinity s | zero s | finite s => cases s <;> rfl

instance : LawfulScalar Float where
  beq_symm {x y} h := by
    rw [beq_iff] at h ⊢
    rcases h with ⟨h, hx⟩ | ⟨hx, hy⟩
    · exact .inl ⟨h.symm, h ▸ hx⟩
    · exact .inr ⟨hy, hx⟩
  beq_trans {x y z} h h' := by
    rw [beq_iff] at h h' ⊢
    rcases h with ⟨h, hx⟩ | ⟨hx, hy⟩
    · rwa [h]
    · rcases h' with ⟨h', -⟩ | ⟨-, hz⟩
      · exact .inr ⟨hx, h' ▸ hy⟩
      · exact .inr ⟨hx, hz⟩
  add_zero {x p} h := by
    have hp : IsZero (unpacked p) := by
      rcases (beq_iff p 0.0).1 h with ⟨h, -⟩ | ⟨hp, -⟩
      · exact ⟨.positive, h⟩
      · exact hp
    rcases unpacked_add_zero hp with h | ⟨hsum, hx⟩
    · exact agree_of_unpacked_eq h
    · exact agree_of_isZero hsum hx

instance : UnitScalar Float where
  zero_beq_zero := by decide +kernel
  one_not_near_zero := by decide +kernel
  neg_one_not_near_zero := by decide +kernel
  neg_one_lt_zero := by decide +kernel
  neg_neg_one := by decide +kernel
  neg_one_div_one := by decide +kernel
  neg_one_div_neg_one := by decide +kernel
  mul_one x := agree_of_unpacked_eq (unpacked_mul_one x)
  mul_neg_one x := agree_of_unpacked_eq ((unpacked_mul_neg_one x).trans (unpacked_neg x).symm)
  neg_zero_sub x := by
    have turned := unpacked_neg (0.0 - x)
    rcases unpacked_zero_sub x with h | ⟨hsub, hx⟩
    · exact agree_of_unpacked_eq (turned.trans (by rw [h, neg_neg]))
    · exact agree_of_isZero (turned ▸ isZero_neg hsub) hx

/-- A double that is not equal to itself is not a number. -/
theorem unpacked_of_ne_self {x : Float} (h : (x == x) = false) : unpacked x = .notANumber := by
  refine Classical.byContradiction fun hx => ?_
  rw [(beq_iff x x).2 (.inl ⟨rfl, hx⟩)] at h
  cases h

/-- Doubles agree if they unpack alike or are both zero. -/
theorem agree_iff_unpacked (x y : Float) :
    Agree x y ↔ unpacked x = unpacked y ∨ (IsZero (unpacked x) ∧ IsZero (unpacked y)) := by
  constructor
  · rintro (h | ⟨hx, hy⟩)
    · exact ((beq_iff x y).1 h).imp_left And.left
    · exact .inl ((unpacked_of_ne_self hx).trans (unpacked_of_ne_self hy).symm)
  · rintro (h | ⟨hx, hy⟩)
    · exact agree_of_unpacked_eq h
    · exact agree_of_isZero hx hy

theorem packed_zero (s : Sign) :
    IsZero (unpack Format.binary64 (pack Format.binary64 (.zero s))) :=
  ⟨s, unpack_pack trivial⟩

/-- An operation on unpacked numbers that tells the zeros apart at most by the zero it gives. -/
theorem agree_of_operand {f : UnpackedFloat → UnpackedFloat} {g : Float → Float}
    (hg : ∀ x, g x = ⟨Float.Model.pack (f (unpacked x))⟩)
    (hf : ∀ s t, f (.zero s) = f (.zero t) ∨ (IsZero (f (.zero s)) ∧ IsZero (f (.zero t))))
    {x y : Float} (h : Agree x y) : Agree (g x) (g y) := by
  rcases (agree_iff_unpacked x y).1 h with h | ⟨⟨s, hs⟩, ⟨t, ht⟩⟩
  · rw [hg, hg, h]
    exact .refl _
  · rw [hg, hg, hs, ht]
    rcases hf s t with h | ⟨⟨s', hs'⟩, ⟨t', ht'⟩⟩
    · rw [h]
      exact .refl _
    · rw [hs', ht']
      exact agree_of_isZero (packed_zero s') (packed_zero t')

instance : CongruentScalar Float where
  zero_sub_congr {x y} h := by
    have packed (x : Float) : (0.0 : Float) - x =
        ⟨Float.Model.pack (UnpackedFloat.sub Format.binary64 (.zero .positive) (unpacked x))⟩ := rfl
    rw [packed, packed]
    rcases (agree_iff_unpacked x y).1 h with h | ⟨⟨s, hs⟩, ⟨t, ht⟩⟩
    · rw [h]
    · rw [hs, ht]
      cases s <;> cases t <;> rfl
  add_congr h a := by
    refine agree_of_operand (f := fun u => UnpackedFloat.add Format.binary64 u (unpacked a))
      (g := fun x => x + a) (fun _ => rfl) ?_ h
    intro s t
    cases unpacked a with
    | notANumber | infinity u | finite u => exact .inl rfl
    | zero u => cases s <;> cases t <;> cases u <;> exact .inr ⟨⟨_, rfl⟩, ⟨_, rfl⟩⟩
  sub_congr h a := by
    refine agree_of_operand (f := fun u => UnpackedFloat.sub Format.binary64 u (unpacked a))
      (g := fun x => x - a) (fun _ => rfl) ?_ h
    intro s t
    cases unpacked a with
    | notANumber | infinity u | finite u => exact .inl rfl
    | zero u => cases s <;> cases t <;> cases u <;> exact .inr ⟨⟨_, rfl⟩, ⟨_, rfl⟩⟩

end

/-! ## Exact fractions -/

instance : UnitScalar Rat where
  zero_beq_zero := by decide +kernel
  one_not_near_zero := by decide +kernel
  neg_one_not_near_zero := by decide +kernel
  neg_one_lt_zero := by decide +kernel
  neg_neg_one := by decide +kernel
  neg_one_div_one := by decide +kernel
  neg_one_div_neg_one := by decide +kernel
  mul_one x := by
    have one : (1.0 : Rat) = 1 := by decide +kernel
    exact .inl (beq_iff_eq.2 (one ▸ Rat.mul_one x))
  mul_neg_one x := by
    have neg_one : (-1.0 : Rat) = -1 := by decide +kernel
    exact .inl (beq_iff_eq.2 (neg_one ▸ (Rat.mul_neg x 1).trans (congrArg _ (Rat.mul_one x))))
  neg_zero_sub x := by
    have zero : (0.0 : Rat) = 0 := by decide +kernel
    have taken : -(0 - x) = x := by rw [Rat.sub_eq_add_neg, Rat.zero_add, Rat.neg_neg]
    exact .inl (beq_iff_eq.2 (zero ▸ taken))

/-- Exact fractions agree if they are the same. -/
theorem eq_of_agree {x y : Rat} (h : Agree x y) : x = y :=
  h.elim beq_iff_eq.1 fun h => absurd h.1 (by simp)

instance : CongruentScalar Rat where
  zero_sub_congr h := congrArg _ (eq_of_agree h)
  add_congr h _ := eq_of_agree h ▸ .refl _
  sub_congr h _ := eq_of_agree h ▸ .refl _

end ViewConstraints
