import StepScript.Number.Format
import StepScript.Proofs.Basic

/-!
# Digits at the start of a text

The digits of a natural number are those that a scanner takes from a text which begins with them
and does not go on with another digit, and they stand for that number.
-/

namespace StepScript

theorem takeDigits_append {digits rest : List Char} (h : ∀ c ∈ digits, c.isDigit = true)
    (hrest : ∀ c tail, rest = c :: tail → c.isDigit = false) :
    Numeral.takeDigits (digits ++ rest) = (digits, rest) := by
  rw [Numeral.takeDigits, takeWhile_append_stop h hrest, dropWhile_append_stop h hrest]

theorem takeDigits_spec (text : List Char) :
    text = (Numeral.takeDigits text).1 ++ (Numeral.takeDigits text).2 ∧
      ∀ c ∈ (Numeral.takeDigits text).1, c.isDigit = true :=
  ⟨List.takeWhile_append_dropWhile.symm, forall_mem_takeWhile text⟩

/-- Any text gives the same digits if something else than a digit is put behind it. -/
theorem takeDigits_append_stop {rest : List Char} (text : List Char)
    (hrest : ∀ c tail, rest = c :: tail → c.isDigit = false) :
    Numeral.takeDigits (text ++ rest) =
      ((Numeral.takeDigits text).1, (Numeral.takeDigits text).2 ++ rest) := by
  induction text with
  | nil => exact takeDigits_append nofun hrest
  | cons c text ih =>
    by_cases hc : c.isDigit
    · simpa [Numeral.takeDigits, hc] using ih
    · simp [Numeral.takeDigits, hc]

/-! ## The digits of a natural number -/

theorem isDigit_of_mem_digitsOfNat {n : Nat} : ∀ c ∈ digitsOfNat n, c.isDigit = true := by
  intro c hc
  exact Nat.isDigit_of_mem_toDigits (by decide) (by decide) hc

theorem digitsOfNat_ne_nil (n : Nat) : digitsOfNat n ≠ [] := Nat.toDigits_ne_nil

theorem natOfDigits_digitsOfNat (n : Nat) : natOfDigits (digitsOfNat n) = n :=
  Nat.ofDigitChars_toDigits (by decide) (by decide)

/-- Only zero begins with the digit zero, and it has no other digit. -/
theorem eq_zero_of_digitsOfNat {n : Nat} {rest : List Char} (h : digitsOfNat n = '0' :: rest) :
    n = 0 := by
  induction n using Nat.strongRecOn generalizing rest with
  | _ n ih =>
    have hdigits : digitsOfNat n = _ := Nat.toDigits_eq_if (by decide)
    by_cases hn : n < 10
    · rw [hdigits, if_pos hn] at h
      have hzero : ∀ d < 10, d.digitChar = '0' → d = 0 := by decide
      exact hzero n hn (List.cons.inj h).1
    · rw [hdigits, if_neg hn] at h
      obtain ⟨c, tail, hfront⟩ := List.exists_cons_of_ne_nil (digitsOfNat_ne_nil (n / 10))
      have hc : c = '0' := by
        rw [show Nat.toDigits 10 (n / 10) = c :: tail from hfront] at h
        exact (List.cons.inj h).1
      have hquotient := ih (n / 10) (by omega) (hc ▸ hfront)
      omega

/-! ## Digits around a point -/

theorem isDigit_of_mem_zeros (n : Nat) : ∀ c ∈ List.replicate n '0', c.isDigit = true := by
  intro c hc
  rw [List.eq_of_mem_replicate hc]
  rfl

theorem natOfDigits_zeros_append (digits : List Char) (n : Nat) :
    natOfDigits (List.replicate n '0' ++ digits) = natOfDigits digits := by
  induction n with
  | zero => rfl
  | succ n ih => exact ih

theorem natOfDigits_append_zeros (digits : List Char) (n : Nat) :
    natOfDigits (digits ++ List.replicate n '0') = natOfDigits digits * tenTo n := by
  induction n with
  | zero => simp [tenTo]
  | succ n ih =>
    have hten : tenTo (n + 1) = tenTo n * 10 := Nat.pow_succ ..
    have hzero : '0'.toNat - '0'.toNat = 0 := rfl
    rw [List.replicate_succ', ← List.append_assoc, natOfDigits, List.foldl_append, ← natOfDigits,
      ih, hten]
    simp only [List.foldl_cons, List.foldl_nil, hzero, Nat.add_zero]
    rw [Nat.mul_comm 10, Nat.mul_assoc]

/-- A number with places behind the point has digits on both sides. In front of it stand the first of
the digits that are written, or one zero. -/
theorem NumberFormat.exists_plain_point (keepsPoint : Bool) {digits : List Char} (hne : digits ≠ [])
    (hdigits : ∀ c ∈ digits, c.isDigit = true) {exponent : Int} (h : exponent < 0) :
    ∃ whole places, NumberFormat.plain keepsPoint digits exponent = whole ++ '.' :: places ∧
      whole ≠ [] ∧ places ≠ [] ∧ (∀ c ∈ whole ++ places, c.isDigit = true) ∧
      natOfDigits (whole ++ places) = natOfDigits digits ∧ (places.length : Int) = -exponent ∧
      (whole = ['0'] ∨ whole <+: digits) := by
  have hlength : 0 < digits.length := List.length_pos_iff.2 hne
  unfold NumberFormat.plain
  rw [if_neg (Int.not_le.2 h)]
  dsimp only
  split
  · next hfew =>
    refine ⟨_, _, rfl, ?_, ?_, ?_, ?_, ?_, .inr (List.take_prefix _ _)⟩
    · rw [Ne, List.take_eq_nil_iff, not_or]
      exact ⟨by omega, hne⟩
    · rw [Ne, List.drop_eq_nil_iff]
      omega
    · rwa [List.take_append_drop]
    · rw [List.take_append_drop]
    · rw [List.length_drop]
      omega
  · next hmany =>
    -- the zero in front of the point continues those behind it
    have hzeros : ['0'] ++ (List.replicate ((-exponent).toNat - digits.length) '0' ++ digits) =
        List.replicate ((-exponent).toNat - digits.length + 1) '0' ++ digits := by
      rw [List.replicate_succ]
      rfl
    refine ⟨['0'], List.replicate ((-exponent).toNat - digits.length) '0' ++ digits, rfl,
      List.cons_ne_nil _ _, List.append_ne_nil_of_right_ne_nil _ hne, ?_, ?_, ?_, .inl rfl⟩
    · rw [hzeros]
      exact List.forall_mem_append.2 ⟨isDigit_of_mem_zeros _, hdigits⟩
    · rw [hzeros, natOfDigits_zeros_append]
    · rw [List.length_append, List.length_replicate]
      omega

end StepScript
