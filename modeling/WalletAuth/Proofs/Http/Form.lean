import WalletAuth.Http.Form
import WalletAuth.Http.Target
import WalletAuth.Proofs.Encoding.Hex

/-! Forms in the query of a target. Text can be spelled in many ways and is read back from each, and a
name counts for what it has only if it comes exactly once. -/

namespace WalletAuth

/-! ### Percent encoding -/

namespace Percent

/-- Writes every byte with a percent sign. -/
def encode (bytes : Bytes) : Bytes :=
  bytes.flatMap fun byte => [37, Hex.digit (byte.toNat / 16), Hex.digit (byte.toNat % 16)]

theorem decode_cons_of_ne {char : UInt8} (h : char ≠ 37) (rest : Bytes) :
    decode (char :: rest) = char :: decode rest := by
  rw [decode]
  simp [h]

theorem decode_percent {high low byte : UInt8} (hhigh : Hex.value? high = some (byte.toNat / 16))
    (hlow : Hex.value? low = some (byte.toNat % 16)) (rest : Bytes) :
    decode (37 :: high :: low :: rest) = byte :: decode rest := by
  have hbyte : UInt8.ofNat (byte.toNat / 16 * 16 + byte.toNat % 16) = byte := by
    rw [Nat.div_add_mod', UInt8.ofNat_toNat]
  simp only [decode, hhigh, hlow, hbyte]

end Percent

namespace Http.Form

/-! ### Spelling -/

/-- Whether a character of a query stands for itself in a name or a value. -/
def IsPlain (char : UInt8) : Prop :=
  Target.isQueryChar char = true ∧ char ≠ 37 ∧ char ≠ 38 ∧ char ≠ 43

instance : DecidablePred IsPlain :=
  fun _ => inferInstanceAs (Decidable (_ ∧ _))

/-- What may be written for bytes: plain characters for themselves, a plus for a blank, and a percent
sign with two digits, of either case, for any byte at all. -/
inductive Spells : Bytes → Bytes → Prop where
  | nil : Spells [] []
  | plain {char : UInt8} {text bytes : Bytes} (hchar : IsPlain char) (h : Spells text bytes) :
      Spells (char :: text) (char :: bytes)
  | blank {text bytes : Bytes} (h : Spells text bytes) : Spells (43 :: text) (32 :: bytes)
  | percent {high low byte : UInt8} {text bytes : Bytes}
      (hhigh : Hex.value? high = some (byte.toNat / 16))
      (hlow : Hex.value? low = some (byte.toNat % 16)) (h : Spells text bytes) :
      Spells (37 :: high :: low :: text) (byte :: bytes)

theorem spells_self {text : Bytes} (h : ∀ char ∈ text, IsPlain char) : Spells text text := by
  induction text with
  | nil => exact .nil
  | cons char text ih =>
      exact .plain (h char List.mem_cons_self)
        (ih fun other hother => h other (List.mem_cons_of_mem _ hother))

theorem spells_encode (bytes : Bytes) : Spells (Percent.encode bytes) bytes := by
  induction bytes with
  | nil => exact .nil
  | cons byte bytes ih =>
      have hhigh : byte.toNat / 16 < 16 := by have := byte.toNat_lt; omega
      exact .percent (Hex.value?_digit _ hhigh) (Hex.value?_digit _ (Nat.mod_lt _ (by decide))) ih

/-- What is written with percent signs alone is text, whatever it is written for. -/
theorem isText_encode (bytes : Bytes) : Bytes.IsText (Percent.encode bytes) := by
  apply Bytes.isText_of_lt
  intro char hchar
  obtain ⟨byte, -, hdigit⟩ := List.mem_flatMap.mp hchar
  have hhigh : byte.toNat / 16 < 16 := by have := byte.toNat_lt; omega
  simp only [List.mem_cons, List.not_mem_nil, or_false] at hdigit
  rcases hdigit with rfl | rfl | rfl
  · decide
  · exact Hex.digit_lt _ hhigh
  · exact Hex.digit_lt _ (Nat.mod_lt _ (by decide))

/-- Digits are characters of a query and neither join nor separate anything. -/
theorem isPlain_of_value? (char : UInt8) {value : Nat} (h : Hex.value? char = some value) :
    IsPlain char := by
  have hall : ∀ char, (Hex.value? char).isSome → IsPlain char :=
    Bytes.forall_byte (by decide +kernel)
  exact hall char (by rw [h]; rfl)

variable {text bytes : Bytes}

/-- Whatever is spelled is read. -/
theorem Spells.decode_eq (h : Spells text bytes) : decode text = Bytes.toStringLossy bytes := by
  rw [decode]
  congr 1
  induction h with
  | nil => rfl
  | plain hchar _ ih =>
      obtain ⟨-, hpercent, -, hplus⟩ := hchar
      rw [List.map_cons, if_neg hplus, Percent.decode_cons_of_ne hpercent, ih]
  | blank _ ih => rw [List.map_cons, if_pos rfl, Percent.decode_cons_of_ne (by decide), ih]
  | percent hhigh hlow _ ih =>
      have hhighPlus := (isPlain_of_value? _ hhigh).right.right.right
      have hlowPlus := (isPlain_of_value? _ hlow).right.right.right
      rw [List.map_cons, List.map_cons, List.map_cons, if_neg (by decide), if_neg hhighPlus,
        if_neg hlowPlus, Percent.decode_percent hhigh hlow, ih]

/-- A spelling fits into a query, and into one part of it. -/
theorem Spells.isQueryChar (h : Spells text bytes) :
    ∀ char ∈ text, Target.isQueryChar char = true ∧ char ≠ 38 := by
  induction h with
  | nil => exact fun _ hchar => absurd hchar List.not_mem_nil
  | plain hchar _ ih => exact List.forall_mem_cons.mpr ⟨⟨hchar.left, hchar.right.right.left⟩, ih⟩
  | blank _ ih => exact List.forall_mem_cons.mpr ⟨by decide, ih⟩
  | percent hhigh hlow _ ih =>
      obtain ⟨hhighQuery, -, hhighJoin, -⟩ := isPlain_of_value? _ hhigh
      obtain ⟨hlowQuery, -, hlowJoin, -⟩ := isPlain_of_value? _ hlow
      simp only [List.forall_mem_cons]
      exact ⟨by decide, ⟨hhighQuery, hhighJoin⟩, ⟨hlowQuery, hlowJoin⟩, ih⟩

/-! ### Pairs -/

theorem pair_eq {name value : Bytes} (h : ∀ char ∈ name, char ≠ 61) :
    pair (name ++ 61 :: value) = (decode name, decode value) := by
  have hall : ∀ char ∈ name, decide (char ≠ 61) = true := fun char hchar => by simpa using h char hchar
  rw [pair, List.takeWhile_append_of_pos hall, List.dropWhile_append_of_pos hall]
  simp

theorem parse_of_notMem {part : Bytes} (hne : part ≠ []) (h : 38 ∉ part) : parse part = [pair part] := by
  rw [parse, List.splitOn_eq_singleton h]
  simp [hne]

/-! ### The value of a name -/

section Only

variable {name value : String} {pairs others : List (String × String)}

theorem only?_eq_some_iff_filter :
    only? name pairs = some value ↔ (pairs.filter fun pair => pair.1 == name) = [(name, value)] := by
  rw [only?]
  cases hnamed : pairs.filter fun pair => pair.1 == name with
  | nil => simp
  | cons first rest =>
      cases rest with
      | cons second rest => simp
      | nil =>
          have hfirst : first.1 = name := by
            have hmem : first ∈ pairs.filter fun pair => pair.1 == name :=
              hnamed ▸ List.mem_singleton_self first
            simpa using (List.mem_filter.mp hmem).right
          obtain ⟨found, text⟩ := first
          simp only [Option.some.injEq, List.cons.injEq, Prod.mk.injEq, and_true]
          exact (and_iff_right hfirst).symm

/-- A name has a value exactly if one pair has the name. -/
theorem only?_eq_some_iff :
    only? name pairs = some value ↔ ∃ before after, pairs = before ++ (name, value) :: after ∧
      ∀ pair ∈ before ++ after, pair.1 ≠ name := by
  rw [only?_eq_some_iff_filter, List.filter_eq_cons_iff]
  constructor
  · rintro ⟨before, after, hpairs, hbefore, -, hafter⟩
    refine ⟨before, after, hpairs, List.forall_mem_append.mpr ⟨by simpa using hbefore, ?_⟩⟩
    simpa using List.filter_eq_nil_iff.mp hafter
  · rintro ⟨before, after, hpairs, hothers⟩
    obtain ⟨hbefore, hafter⟩ := List.forall_mem_append.mp hothers
    refine ⟨before, after, hpairs, by simpa using hbefore, beq_self_eq_true name, ?_⟩
    exact List.filter_eq_nil_iff.mpr (by simpa using hafter)

/-- Only the pairs that have the name count, in any order. -/
theorem only?_eq_of_perm (h : (pairs.filter fun pair => pair.1 == name).Perm
    (others.filter fun pair => pair.1 == name)) : only? name pairs = only? name others := by
  apply Option.ext
  intro value
  rw [only?_eq_some_iff_filter, only?_eq_some_iff_filter, ← List.perm_singleton,
    ← List.perm_singleton]
  exact ⟨fun hpairs => h.symm.trans hpairs, fun hothers => h.trans hothers⟩

end Only

end Http.Form

end WalletAuth
