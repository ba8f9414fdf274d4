import ViewConstraints.Scalar

/-!
# Arithmetic of doubles that is exact

The operations on doubles unpack their arguments, compute and round, and pack the result again. An
unpacked double has its mantissa below 2 ^ 53 and is either normal or has the least exponent
(`Canonical`), and whatever has this form is packed without loss (`unpack_pack`). So what the
operations compute can be read off the unpacked result wherever no rounding takes place: for
negation, for sums and differences with a zero, and for products with one and minus one.
-/

namespace ViewConstraints.Unpacked

open Float.Model Float.Model.UnpackedFloat

/-- A double in unpacked form. -/
def unpacked (x : Float) : UnpackedFloat := x.toModel.unpack

/-- The form in which doubles are unpacked: a mantissa of 53 bits, or one of fewer bits at the least
exponent. -/
def Canonical : UnpackedFloat → Prop
  | .finite _ m e _ =>
    m < 9007199254740992 ∧ -1074 ≤ e ∧ e ≤ 971 ∧ (4503599627370496 ≤ m ∨ e = -1074)
  | _ => True

/-- One of the two zeros. -/
def IsZero (u : UnpackedFloat) : Prop := ∃ s, u = .zero s

/-! ## Packing -/

/-- The bit in front of the stored mantissa of a normal double counts 2 ^ 52. -/
theorem hidden_append (m : BitVec 52) : (1#1 ++ m).toNat = 4503599627370496 + m.toNat := by
  rw [BitVec.toNat_append, ← Nat.shiftLeft_add_eq_or_of_lt m.isLt]
  rfl

/-- The sign is read back from where it was packed. -/
theorem sign_packComponents (s : Sign) (e : BitVec 11) (m : BitVec 52) :
    Sign.ofBitVec (unpackSign (packComponents Format.binary64 s e m)) = s := by
  delta unpackSign packComponents BitVec.extractLsb
  rw [BitVec.extractLsb'_append_eq_of_le (by decide),
    BitVec.extractLsb'_append_eq_of_le (by decide)]
  cases s <;> rfl

theorem finite_congr {s t : Sign} {m n : Nat} {e f : Int} {hm : 0 < m} {hn : 0 < n} (hs : s = t)
    (h : m = n) (he : e = f) : UnpackedFloat.finite s m e hm = .finite t n f hn := by
  subst hs h he
  rfl

/-- Whatever is unpacked is in canonical form: a stored exponent of zero means the least exponent, and
any other brings the hidden bit with it. -/
theorem canonical_unpack (b : BitVec 64) : Canonical (UnpackedFloat.unpack Format.binary64 b) := by
  have he : (@unpackExponent Format.binary64 b).toNat < 2048 := BitVec.isLt _
  have hm : (@unpackMantissa Format.binary64 b).toNat < 4503599627370496 := BitVec.isLt _
  have mantissa := hidden_append (@unpackMantissa Format.binary64 b)
  have bias : Format.binary64.exponentBias = 1023 := rfl
  unfold UnpackedFloat.unpack
  dsimp only
  by_cases ones : @unpackExponent Format.binary64 b = -1#11
  · rw [if_pos ones]
    by_cases zero : @unpackMantissa Format.binary64 b = 0#52
    · rw [if_pos zero]
      trivial
    · rw [if_neg zero]
      trivial
  · rw [if_neg ones]
    have hlt : (@unpackExponent Format.binary64 b).toNat ≠ 2047 := fun h =>
      ones (BitVec.eq_of_toNat_eq h)
    by_cases least : @unpackExponent Format.binary64 b = 0#11
    · rw [if_pos least]
      have exponent : (@unpackExponent Format.binary64 b).toNat = 0 := congrArg BitVec.toNat least
      by_cases zero : @unpackMantissa Format.binary64 b = 0#52
      · rw [dif_pos zero]
        trivial
      · rw [dif_neg zero]
        refine ⟨?_, ?_, ?_, ?_⟩ <;> omega
    · rw [if_neg least]
      have hpos : (@unpackExponent Format.binary64 b).toNat ≠ 0 := fun h =>
        least (BitVec.eq_of_toNat_eq h)
      refine ⟨?_, ?_, ?_, ?_⟩ <;> omega

/-- A stored exponent that is neither zero nor all ones is that of a normal double, with the hidden
bit set and the bias taken off. -/
theorem unpack_normal (s : Sign) {e : BitVec 11} (m : BitVec 52) (he : e ≠ -1#_)
    (he' : e ≠ 0#_) :
    UnpackedFloat.unpack Format.binary64 (packComponents Format.binary64 s e m) =
      .finite s (4503599627370496 + m.toNat) ((e.toNat : Int) - 1075) (by omega) := by
  have bias : Format.binary64.exponentBias = 1023 := rfl
  have exponent : unpackExponent (packComponents Format.binary64 s e m) = e :=
    unpackExponent_packComponents ..
  have mantissa : unpackMantissa (packComponents Format.binary64 s e m) = m :=
    unpackMantissa_packComponents ..
  unfold UnpackedFloat.unpack
  dsimp only
  rw [if_neg fun h => he (exponent.symm.trans h), if_neg fun h => he' (exponent.symm.trans h)]
  refine finite_congr (sign_packComponents s e m) ?_ ?_
  · rw [mantissa]
    exact hidden_append m
  · rw [exponent, bias]
    rfl

/-- With a stored exponent of zero the mantissa is taken as it is, at the least exponent. -/
theorem unpack_subnormal (s : Sign) {m : BitVec 52} (hm : 0 < m.toNat) :
    UnpackedFloat.unpack Format.binary64 (packComponents Format.binary64 s 0#_ m) =
      .finite s m.toNat (-1074) hm := by
  have hm' : m ≠ 0#_ := by
    rintro rfl
    exact absurd hm (by decide)
  have he : (0#11) ≠ -1#11 := by decide
  have exponent : unpackExponent (packComponents Format.binary64 s 0#_ m) = 0#11 :=
    unpackExponent_packComponents ..
  have mantissa : unpackMantissa (packComponents Format.binary64 s 0#_ m) = m :=
    unpackMantissa_packComponents ..
  unfold UnpackedFloat.unpack
  dsimp only
  rw [if_neg fun h => he (exponent.symm.trans h), if_pos exponent,
    dif_neg fun h => hm' (mantissa.symm.trans h)]
  refine finite_congr (sign_packComponents s _ m) ?_ ?_
  · rw [mantissa]
  · rw [exponent]
    rfl

/-- A mantissa below 2 ^ 53 has its highest bit in the hidden place exactly if it is 2 ^ 52
or more. -/
theorem log2_eq_iff {m : Nat} (hm : 0 < m) (h : m < 9007199254740992) :
    m.log2 = 52 ↔ 4503599627370496 ≤ m := by
  rw [Nat.log2_eq_iff (Nat.ne_of_gt hm)]
  exact ⟨And.left, fun h' => ⟨h', h⟩⟩

/-- What has the form of an unpacked double is packed without loss. The stored exponent is zero for a
mantissa without the hidden bit, and the biased one otherwise. -/
theorem unpack_pack {u : UnpackedFloat} (h : Canonical u) :
    UnpackedFloat.unpack Format.binary64 (UnpackedFloat.pack Format.binary64 u) = u := by
  cases u with
  | notANumber => rfl
  | infinity s => cases s <;> rfl
  | zero s => cases s <;> rfl
  | finite s m e hm =>
    obtain ⟨hlt, hlow, hhigh, hnormal⟩ := h
    have biased : e + Format.binary64.exponentBias + Format.binary64.mantissaBitsWithoutImplicit =
        e + 1075 := Int.add_assoc e 1023 52
    have bits : Format.binary64.mantissaBits = 53 := rfl
    have width : ¬ 2048 ≤ (e + 1075).toNat + 1 := by omega
    delta UnpackedFloat.pack
    dsimp only
    rw [biased, bits, if_neg width]
    by_cases hlog : m.log2 + 1 = 53
    · rw [if_pos hlog]
      have hge : 4503599627370496 ≤ m := (log2_eq_iff hm hlt).1 (by omega)
      have he : (BitVec.ofNat 11 (e + 1075).toNat).toNat = (e + 1075).toNat :=
        Nat.mod_eq_of_lt (by omega)
      have hfraction : (BitVec.ofNat 52 m).toNat = m - 4503599627370496 := by
        refine (BitVec.toNat_ofNat ..).trans ?_
        show m % 4503599627370496 = m - 4503599627370496
        omega
      refine (unpack_normal s (BitVec.ofNat 52 m) ?_ ?_).trans
        (finite_congr rfl (by omega) (by omega))
      · intro h
        have hones : (BitVec.ofNat 11 (e + 1075).toNat).toNat = 2047 := congrArg BitVec.toNat h
        omega
      · intro h
        have hzero : (BitVec.ofNat 11 (e + 1075).toNat).toNat = 0 := congrArg BitVec.toNat h
        omega
    · rw [if_neg hlog]
      have hsub : m < 4503599627370496 :=
        Nat.not_le.1 fun h => hlog (by rw [(log2_eq_iff hm hlt).2 h])
      have hfraction : (BitVec.ofNat 52 m).toNat = m := Nat.mod_eq_of_lt hsub
      exact (unpack_subnormal s (m := BitVec.ofNat 52 m) (by omega)).trans
        (finite_congr rfl hfraction (by omega))

theorem unpacked_canonical (x : Float) : Canonical (unpacked x) := canonical_unpack _

/-- The canonical form does not depend on the sign. -/
theorem neg_canonical {u : UnpackedFloat} (h : Canonical u) : Canonical u.neg := by
  cases u <;> exact h

/-! ## Rounding what needs no rounding -/

/-- A mantissa shifted left and back again. -/
theorem shiftRight_exact (m n : Nat) :
    (ExtendedMantissa.mk (m * Nat.pow 2 n) false false) >>> n = ⟨m, false, false⟩ := by
  show n.repeat ExtendedMantissa.shiftRightOne _ = _
  induction n generalizing m with
  | zero => simp [Nat.repeat]
  | succ n ih =>
    have doubled : m * Nat.pow 2 (n + 1) = m * 2 * Nat.pow 2 n := by
      rw [Nat.mul_assoc, Nat.mul_comm 2]
      rfl
    rw [Nat.repeat, doubled, ih]
    simp [ExtendedMantissa.shiftRightOne]

/-- The exponent that rounding aims at for a canonical number is the one it has, so that rounding
moves no bit of it. -/
theorem targetExponent_canonical {s : Sign} {m : Nat} {e : Int} {hm : 0 < m}
    (h : Canonical (.finite s m e hm)) : Format.binary64.targetExponent (m.log2 + 1 + e) = e := by
  obtain ⟨hlt, hlow, -, hnormal⟩ := h
  have hmin : Format.binary64.minExponent = -1074 := rfl
  have hbits : Format.binary64.mantissaBits = 53 := rfl
  have hlog : m.log2 < 53 := (Nat.log2_lt (Nat.ne_of_gt hm)).2 hlt
  have hlog' : 4503599627370496 ≤ m → 52 ≤ m.log2 := fun h =>
    (Nat.le_log2 (Nat.ne_of_gt hm)).2 h
  rw [Format.targetExponent, hmin, hbits]
  omega

/-- Multiplying a mantissa by 2 ^ 52 makes it longer by 52 bits. -/
theorem log2_scaled {m : Nat} (hm : 0 < m) : (m * 4503599627370496).log2 = m.log2 + 52 := by
  have low := Nat.log2_self_le (Nat.ne_of_gt hm)
  have high := Nat.lt_log2_self (n := m)
  have scaled := Nat.pow_add 2 m.log2 52
  have scaled' := Nat.pow_add 2 (m.log2 + 1) 52
  rw [Nat.add_right_comm] at scaled'
  rw [Nat.log2_eq_iff (by omega)]
  omega

/-- A double whose mantissa was multiplied by that of one is rounded to itself. -/
theorem roundWithAccuracy_scaled (t : Sign) {s : Sign} {m : Nat} {e : Int} {hm : 0 < m}
    (h : Canonical (.finite s m e hm)) :
    roundWithAccuracy Format.binary64 t (m * 4503599627370496) (e + -52) .exact =
      .finite t m e hm := by
  have target := targetExponent_canonical h
  have first : shiftToTargetExponent Format.binary64 (m * 4503599627370496) (e + -52) .exact =
      (⟨m, false, false⟩, e) := by
    have total : ((m.log2 + 52 : Nat) : Int) + 1 + (e + -52) = m.log2 + 1 + e := by omega
    have shift : (e - (e + -52)).toNat = 52 := by omega
    have back : e + -52 + (52 : Nat) = e := by omega
    rw [shiftToTargetExponent, totalExponent, log2_scaled hm, total, target, shiftToExponent, shift,
      back]
    exact Prod.ext (shiftRight_exact m 52) rfl
  have second : shiftToTargetExponent Format.binary64 m e .exact = (⟨m, false, false⟩, e) := by
    rw [shiftToTargetExponent, totalExponent, target, shiftToExponent, Int.sub_self]
    exact Prod.ext rfl (Int.add_zero e)
  have rounded : (ExtendedMantissa.mk m false false).roundedMantissa = m := rfl
  unfold roundWithAccuracy
  rw [first]
  dsimp only
  rw [rounded, second]
  exact dif_neg (Nat.ne_of_gt hm)

/-! ## Operations that are exact -/

/-- Negation turns the sign of the unpacked number, and packs the result without loss. -/
theorem unpacked_neg (x : Float) : unpacked (-x) = (unpacked x).neg :=
  unpack_pack (neg_canonical (unpacked_canonical x))

/-- A product with a number of the magnitude of one. -/
theorem unpacked_mul_unit {x y : Float} {t : Sign}
    (hy : unpacked y = .finite t 4503599627370496 (-52) (by decide)) :
    unpacked (x * y) = match unpacked x with
      | .notANumber => .notANumber
      | .infinity s => .infinity (s * t)
      | .zero s => .zero (s * t)
      | .finite s m e hm => .finite (s * t) m e hm := by
  have packed : unpacked (x * y) = UnpackedFloat.unpack Format.binary64
      (UnpackedFloat.pack Format.binary64
        (UnpackedFloat.mul Format.binary64 (unpacked x) (unpacked y))) := rfl
  have canonical := unpacked_canonical x
  rw [packed, hy]
  generalize unpacked x = u at canonical ⊢
  cases u with
  | notANumber | infinity s | zero s => exact unpack_pack trivial
  | finite s m e hm =>
    have product : UnpackedFloat.mul Format.binary64 (.finite s m e hm)
        (.finite t 4503599627370496 (-52) (by decide)) =
          roundWithAccuracy Format.binary64 (s * t) (m * 4503599627370496) (e + -52) .exact := rfl
    rw [product, roundWithAccuracy_scaled (s * t) canonical]
    exact unpack_pack canonical

/-- One times a double is the same double, for every double. -/
theorem unpacked_mul_one (x : Float) : unpacked (x * 1.0) = unpacked x := by
  rw [unpacked_mul_unit (t := .positive) rfl]
  cases unpacked x with
  | notANumber => rfl
  | infinity s | zero s | finite s => cases s <;> rfl

/-- Minus one times a double is its negation, for every double. -/
theorem unpacked_mul_neg_one (x : Float) : unpacked (x * -1.0) = (unpacked x).neg := by
  rw [unpacked_mul_unit (t := .negative) rfl]
  cases unpacked x with
  | notANumber => rfl
  | infinity s | zero s | finite s => cases s <;> rfl

/-- Adding a zero changes no number but the sign of a zero. -/
theorem unpacked_add_zero {x p : Float} (hp : IsZero (unpacked p)) :
    unpacked (x + p) = unpacked x ∨ (IsZero (unpacked (x + p)) ∧ IsZero (unpacked x)) := by
  obtain ⟨t, ht⟩ := hp
  have packed : unpacked (x + p) = UnpackedFloat.unpack Format.binary64
      (UnpackedFloat.pack Format.binary64
        (UnpackedFloat.add Format.binary64 (unpacked x) (unpacked p))) := rfl
  have canonical := unpacked_canonical x
  rw [packed, ht]
  generalize unpacked x = u at canonical ⊢
  cases u with
  | notANumber | infinity s | finite s => exact .inl (unpack_pack canonical)
  | zero s =>
    refine .inr ⟨?_, s, rfl⟩
    cases s <;> cases t <;> exact ⟨_, unpack_pack trivial⟩

/-- Taking a number off zero turns its sign, except for zeros. -/
theorem unpacked_zero_sub (x : Float) :
    unpacked (0.0 - x) = (unpacked x).neg ∨
      (IsZero (unpacked (0.0 - x)) ∧ IsZero (unpacked x)) := by
  have packed : unpacked (0.0 - x) = UnpackedFloat.unpack Format.binary64
      (UnpackedFloat.pack Format.binary64
        (UnpackedFloat.sub Format.binary64 (unpacked 0.0) (unpacked x))) := rfl
  have zero : unpacked 0.0 = .zero .positive := rfl
  have canonical := neg_canonical (unpacked_canonical x)
  rw [packed, zero]
  generalize unpacked x = u at canonical ⊢
  cases u with
  | notANumber | infinity s | finite s => exact .inl (unpack_pack canonical)
  | zero s =>
    refine .inr ⟨?_, s, rfl⟩
    cases s <;> exact ⟨_, unpack_pack trivial⟩

/-! ## Numeric equality -/

/-- Doubles of which one is smaller are told apart, and not both zero. -/
theorem compare_eq_iff_of_ne {u v : UnpackedFloat} {o : Option Ordering} (hc : u.compare v = o)
    (ho : o ≠ some .eq) (hne : u = v → u = .notANumber) (hz : IsZero u → ¬ IsZero v) :
    u.compare v = some .eq ↔ (u = v ∧ u ≠ .notANumber) ∨ (IsZero u ∧ IsZero v) := by
  rw [hc]
  refine iff_of_false ho ?_
  rintro (⟨same, number⟩ | ⟨hu, hv⟩)
  · exact number (hne same)
  · exact hz hu hv

/-- Numbers of one sign that are neither zero nor infinite are equal exactly if they are the same:
exponents are compared first and mantissas next. -/
theorem compare_finite (s : Sign) {m m' : Nat} {e e' : Int} (hm : 0 < m) (hm' : 0 < m') :
    (finite s m e hm).compare (finite s m' e' hm') = some .eq ↔
      (finite s m e hm = finite s m' e' hm' ∧ finite s m e hm ≠ .notANumber) ∨
        (IsZero (finite s m e hm) ∧ IsZero (finite s m' e' hm')) := by
  have pairs : (compare e e').then (compare m m') = .eq ↔ e = e' ∧ m = m' := by
    rw [Ordering.then_eq_eq, Std.compare_eq_iff_eq, Std.compare_eq_iff_eq]
  have compared : (finite s m e hm).compare (finite s m' e' hm') = some .eq ↔ e = e' ∧ m = m' := by
    cases s with
    | positive => exact Option.some_inj.trans pairs
    | negative => exact Option.some_inj.trans (Ordering.swap_eq_eq.trans pairs)
  rw [compared]
  constructor
  · rintro ⟨rfl, rfl⟩
    exact .inl ⟨rfl, nofun⟩
  · rintro (⟨h, -⟩ | ⟨⟨_, h⟩, -⟩)
    · cases h
      exact ⟨rfl, rfl⟩
    · cases h

/-- Comparison finds two unpacked numbers equal if they are the same number, or zeros of whatever
signs; not a number is equal to nothing, itself included. -/
theorem compare_eq_iff (u v : UnpackedFloat) :
    u.compare v = some .eq ↔ (u = v ∧ u ≠ .notANumber) ∨ (IsZero u ∧ IsZero v) := by
  cases u with
  | notANumber => exact compare_eq_iff_of_ne rfl nofun (fun _ => rfl) nofun
  | infinity s =>
    cases v with
    | infinity t =>
      cases s <;> cases t
      · exact iff_of_true rfl (.inl ⟨rfl, nofun⟩)
      · exact compare_eq_iff_of_ne rfl nofun nofun nofun
      · exact compare_eq_iff_of_ne rfl nofun nofun nofun
      · exact iff_of_true rfl (.inl ⟨rfl, nofun⟩)
    | notANumber | zero | finite =>
      cases s <;> exact compare_eq_iff_of_ne rfl nofun nofun nofun
  | zero s =>
    cases v with
    | zero t => exact iff_of_true rfl (.inr ⟨⟨s, rfl⟩, ⟨t, rfl⟩⟩)
    | notANumber => exact compare_eq_iff_of_ne rfl nofun nofun nofun
    | infinity t | finite t => cases t <;> exact compare_eq_iff_of_ne rfl nofun nofun nofun
  | finite s m e hm =>
    cases v with
    | finite t m' e' hm' =>
      cases s <;> cases t
      · exact compare_finite _ hm hm'
      · exact compare_eq_iff_of_ne rfl nofun nofun nofun
      · exact compare_eq_iff_of_ne rfl nofun nofun nofun
      · exact compare_finite _ hm hm'
    | infinity t => cases t <;> exact compare_eq_iff_of_ne rfl nofun nofun nofun
    | notANumber | zero => cases s <;> exact compare_eq_iff_of_ne rfl nofun nofun nofun

/-- Two doubles are equal as numbers if they are the same number or both zero. -/
theorem beq_iff (x y : Float) : (x == y) = true ↔
    (unpacked x = unpacked y ∧ unpacked x ≠ .notANumber) ∨
      (IsZero (unpacked x) ∧ IsZero (unpacked y)) := by
  have decided (a b : Option Ordering) : (a == b) = true ↔ a = b := beq_iff_eq
  rw [← compare_eq_iff]
  exact decided _ _

end ViewConstraints.Unpacked
