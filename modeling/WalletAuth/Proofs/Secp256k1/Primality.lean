import Mathlib.NumberTheory.LucasPrimality
import Mathlib.Tactic.NormNum.Prime
import WalletAuth.Secp256k1.Arithmetic

/-! The two orders of secp256k1 are prime. Squaring along the bits of an exponent computes its
power, so Lucas' test can be run on a number once the primes in its predecessor are known; each of
them is either small or tested in the same way. -/

namespace WalletAuth.Secp256k1

/-! ### Powers by squaring -/

/-- The number that bits write behind those already read. -/
def bitsOnto (read : Nat) (written : List Bool) : Nat :=
  written.foldl (fun value bit => 2 * value + bit.toNat) read

theorem bitsOnto_bits (read width value : Nat) :
    bitsOnto read (bits width value) = 2 ^ width * read + value % 2 ^ width := by
  induction width generalizing read with
  | zero => simp [bitsOnto, bits, Nat.mod_one]
  | succ width ih =>
      have hbit : (value.testBit width).toNat = value / 2 ^ width % 2 := Nat.toNat_testBit value width
      calc bitsOnto read (bits (width + 1) value)
          = bitsOnto (2 * read + (value.testBit width).toNat) (bits width value) := rfl
        _ = 2 ^ width * (2 * read + value / 2 ^ width % 2) + value % 2 ^ width := by rw [ih, hbit]
        _ = 2 ^ (width + 1) * read + value % 2 ^ (width + 1) := by rw [Nat.mod_pow_succ]; ring

/-- The bits of a number that fits their width write it. -/
theorem bitsOnto_zero_bits {width value : Nat} (h : value < 2 ^ width) :
    bitsOnto 0 (bits width value) = value := by
  rw [bitsOnto_bits, Nat.mod_eq_of_lt h, Nat.mul_zero, Nat.zero_add]

theorem foldl_square (modulus base read : Nat) (written : List Bool) :
    written.foldl
      (fun acc bit =>
        let square := acc * acc % modulus
        if bit then square * base % modulus else square) (base ^ read % modulus) =
      base ^ bitsOnto read written % modulus := by
  induction written generalizing read with
  | nil => rfl
  | cons bit written ih =>
      have hsquare : base ^ read % modulus * (base ^ read % modulus) % modulus =
          base ^ (2 * read) % modulus := by
        rw [← Nat.mul_mod, ← pow_add, two_mul]
      cases bit with
      | false =>
          rw [List.foldl_cons, if_neg Bool.false_ne_true]
          rw [hsquare]
          exact ih (2 * read)
      | true =>
          rw [List.foldl_cons, if_pos rfl]
          rw [hsquare, Nat.mod_mul_mod, ← pow_succ]
          exact ih (2 * read + 1)

/-- Squaring along the bits of the exponent gives the remainder of the power. -/
theorem powerMod_eq {modulus : Nat} (base : Nat) {exponent : Nat} (hmodulus : 1 < modulus)
    (hexponent : exponent < 2 ^ 256) : powerMod modulus base exponent = base ^ exponent % modulus := by
  have hfold := foldl_square modulus base 0 (bits 256 exponent)
  rw [pow_zero, Nat.mod_eq_of_lt hmodulus, bitsOnto_zero_bits hexponent] at hfold
  exact hfold

/-! ### Lucas' test -/

/-- Lucas' test of a number: a base whose power by the predecessor is one, and by no quotient of the
predecessor and one of its factors. -/
def lucasTest (number base : Nat) (factors : List Nat) : Bool :=
  1 < number && number ≤ 2 ^ 256 && factors.prod == number - 1 &&
    powerMod number base (number - 1) == 1 &&
    factors.all fun factor => powerMod number base ((number - 1) / factor) != 1

theorem cast_pow_eq_one_iff {number : Nat} (hnumber : 1 < number) (base : Nat) {exponent : Nat}
    (hexponent : exponent < 2 ^ 256) :
    (base : ZMod number) ^ exponent = 1 ↔ powerMod number base exponent = 1 := by
  rw [powerMod_eq base hnumber hexponent, ← Nat.cast_pow, ← Nat.cast_one,
    ZMod.natCast_eq_natCast_iff', Nat.mod_eq_of_lt hnumber]

/-- A number that passes the test with prime factors is prime. Small factors are known to be prime
without a test of their own. -/
theorem prime_of_lucasTest {number : Nat} (base : Nat) (small large : List Nat)
    (hsmall : ∀ factor ∈ small, factor.Prime) (hlarge : ∀ factor ∈ large, factor.Prime)
    (htest : lucasTest number base (small ++ large) = true) : number.Prime := by
  simp only [lucasTest, Bool.and_eq_true, decide_eq_true_eq, beq_iff_eq, List.all_eq_true,
    bne_iff_ne] at htest
  obtain ⟨⟨⟨⟨hone, hbound⟩, hprod⟩, hpower⟩, hquotients⟩ := htest
  have hfactors : ∀ factor ∈ small ++ large, factor.Prime :=
    List.forall_mem_append.mpr ⟨hsmall, hlarge⟩
  have hlt : ∀ exponent ≤ number - 1, exponent < 2 ^ 256 := fun _ h => by omega
  refine lucas_primality number (base : ZMod number) ?_ fun factor hprime hdvd => ?_
  · exact (cast_pow_eq_one_iff hone base (hlt _ le_rfl)).mpr hpower
  · rw [← hprod] at hdvd
    obtain ⟨known, hknown, hdvd⟩ := (Prime.dvd_prod_iff hprime.prime).mp hdvd
    obtain rfl := (Nat.prime_dvd_prime_iff_eq hprime (hfactors known hknown)).mp hdvd
    exact fun h => hquotients factor hknown
      ((cast_pow_eq_one_iff hone base (hlt _ (Nat.div_le_self _ _))).mp h)

theorem prime_fieldOrder : fieldOrder.Prime := by
  have h18 : Nat.Prime 173378833005251801 :=
    prime_of_lucasTest 6 [2, 2, 2, 5, 5, 2621, 24809, 13331831] [] (by norm_num) (by simp)
      (by decide +kernel)
  have h23 : Nat.Prime 22149492674086928081353 :=
    prime_of_lucasTest 5 [2, 2, 2, 3, 5323] [173378833005251801] (by norm_num) (by simp [h18])
      (by decide +kernel)
  have h24 : Nat.Prime 132896956044521568488119 :=
    prime_of_lucasTest 6 [2, 3] [22149492674086928081353] (by norm_num) (by simp [h23])
      (by decide +kernel)
  have h9 : Nat.Prime 107590001 :=
    prime_of_lucasTest 3 [2, 2, 2, 2, 5, 5, 5, 5, 7, 29, 53] [] (by norm_num) (by simp)
      (by decide +kernel)
  have h39 : Nat.Prime 255515944373312847190720520512484175977 :=
    prime_of_lucasTest 3 [2, 2, 2, 7, 7, 11, 1627, 2657, 4423, 41201, 96557, 7240687] [107590001]
      (by norm_num) (by simp [h9]) (by decide +kernel)
  have h72 : Nat.Prime
      205115282021455665897114700593932402728804164701536103180137503955397371 :=
    prime_of_lucasTest 10 [2, 3, 5, 29, 29, 31, 7723]
      [132896956044521568488119, 255515944373312847190720520512484175977]
      (by norm_num) (by simp [h24, h39]) (by decide +kernel)
  exact prime_of_lucasTest 3 [2, 3, 7, 13441]
    [205115282021455665897114700593932402728804164701536103180137503955397371]
    (by norm_num) (by simp [h72]) (by decide +kernel)

theorem prime_groupOrder : groupOrder.Prime := by
  have h18 : Nat.Prime 107361793816595537 :=
    prime_of_lucasTest 3 [2, 2, 2, 2, 16699, 85831, 4681609] [] (by norm_num) (by simp)
      (by decide +kernel)
  have h8 : Nat.Prime 44706919 :=
    prime_of_lucasTest 6 [2, 3, 797, 9349] [] (by norm_num) (by simp) (by decide +kernel)
  have h21 : Nat.Prime 174723607534414371449 :=
    prime_of_lucasTest 3 [2, 2, 2, 17, 59, 4051, 120233] [44706919] (by norm_num) (by simp [h8])
      (by decide +kernel)
  have h12 : Nat.Prime 297159362677 :=
    prime_of_lucasTest 2 [2, 2, 3, 3, 11, 461, 1627771] [] (by norm_num) (by simp)
      (by decide +kernel)
  have h9 : Nat.Prime 545358713 :=
    prime_of_lucasTest 5 [2, 2, 2, 41, 59, 28181] [] (by norm_num) (by simp) (by decide +kernel)
  have h29 : Nat.Prime 29047611873442575647497758179 :=
    prime_of_lucasTest 2 [2, 293, 305873] [545358713, 297159362677] (by norm_num)
      (by simp [h9, h12]) (by decide +kernel)
  have h33 : Nat.Prime 341948486974166000522343609283189 :=
    prime_of_lucasTest 2 [2, 2, 3, 3, 3, 109] [29047611873442575647497758179] (by norm_num)
      (by simp [h29]) (by decide +kernel)
  exact prime_of_lucasTest 7 [2, 2, 2, 2, 2, 2, 3, 149, 631]
    [107361793816595537, 174723607534414371449, 341948486974166000522343609283189]
    (by norm_num) (by simp [h18, h21, h33]) (by decide +kernel)

instance : Fact fieldOrder.Prime := ⟨prime_fieldOrder⟩

instance : Fact groupOrder.Prime := ⟨prime_groupOrder⟩

end WalletAuth.Secp256k1
