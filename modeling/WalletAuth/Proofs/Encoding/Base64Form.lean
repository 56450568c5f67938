import Mathlib.Data.List.TakeWhile
import Mathlib.Data.Nat.Digits.Lemmas
import WalletAuth.Proofs.Encoding.Base64Url

/-! The padded form said without the writer, and where a text fails to be one. The symbols of a
padded form write, in base 64, the number that the bytes write in base 256, moved up by the bits
that fill the last symbol; length and number leave no choice, so what the writer makes is the only
padded form of its bytes. A text that is refused breaks off in the middle of a group, or has a
character that is no symbol or a last symbol with bits that no byte takes up, as its fault says. -/

namespace WalletAuth.Base64Url

/-! ### The alphabet -/

/-- The symbols in the order of their values. -/
def alphabet : Bytes :=
  Bytes.ofString "ABCDEFGHIJKLMNOPQRSTUVWXYZabcdefghijklmnopqrstuvwxyz0123456789-_"

theorem symbol_mem_alphabet : ∀ value < 64, symbol value ∈ alphabet := by decide +kernel

theorem idxOf_symbol : ∀ value < 64, alphabet.idxOf (symbol value) = value := by decide +kernel

theorem isSymbol_of_mem_alphabet : ∀ char ∈ alphabet, isSymbol char = true := by decide +kernel

variable {char : UInt8} {text symbols bs : Bytes}

theorem mem_alphabet_iff : char ∈ alphabet ↔ isSymbol char = true := by
  constructor
  · exact isSymbol_of_mem_alphabet char
  · intro hsymbol
    obtain ⟨value, hvalue⟩ := Option.isSome_iff_exists.mp hsymbol
    obtain ⟨hlt, rfl⟩ := symbol_of_value? char hvalue
    exact symbol_mem_alphabet value hlt

theorem value?_of_mem_alphabet (h : char ∈ alphabet) :
    value? char = some (alphabet.idxOf char) := by
  obtain ⟨value, hvalue⟩ := Option.isSome_iff_exists.mp (mem_alphabet_iff.mp h)
  obtain ⟨hlt, rfl⟩ := symbol_of_value? char hvalue
  rw [hvalue, idxOf_symbol value hlt]

theorem symbol_idxOf (h : char ∈ alphabet) :
    alphabet.idxOf char < 64 ∧ symbol (alphabet.idxOf char) = char :=
  symbol_of_value? char (value?_of_mem_alphabet h)

theorem filterMap_value?_eq_map (h : ∀ char ∈ symbols, char ∈ alphabet) :
    symbols.filterMap value? = symbols.map alphabet.idxOf := by
  rw [← List.filterMap_eq_map]
  apply List.filterMap_congr
  exact fun char hchar => value?_of_mem_alphabet (h char hchar)

/-! ### Numbers in base 64 -/

/-- The number that symbols write in base 64, the last one its units. -/
def numberOf (symbols : Bytes) : Nat :=
  Nat.ofDigits 64 (symbols.map alphabet.idxOf).reverse

/-- Symbols and bytes write the same bits from the front, up to zero bits that fill the last
symbol. -/
structure Regroups (bs symbols : Bytes) (spare : Nat) : Prop where
  mem : ∀ char ∈ symbols, char ∈ alphabet
  bits : 6 * symbols.length = 8 * bs.length + spare
  spare_lt : spare < 6
  number : numberOf symbols = bs.toNat * 2 ^ spare

theorem lt_of_mem_map_idxOf (h : ∀ char ∈ symbols, char ∈ alphabet) {value : Nat}
    (hvalue : value ∈ (symbols.map alphabet.idxOf).reverse) : value < 64 := by
  obtain ⟨char, hchar, rfl⟩ := List.mem_map.mp (List.mem_reverse.mp hvalue)
  exact (symbol_idxOf (h char hchar)).left

theorem map_symbol_map_idxOf (h : ∀ char ∈ symbols, char ∈ alphabet) :
    (symbols.map alphabet.idxOf).map symbol = symbols :=
  calc (symbols.map alphabet.idxOf).map symbol = symbols.map (symbol ∘ alphabet.idxOf) :=
        List.map_map
    _ = symbols.map id := List.map_congr_left fun char hchar => (symbol_idxOf (h char hchar)).right
    _ = symbols := List.map_id symbols

/-- As many symbols that write the same number are the same symbols. -/
theorem eq_of_numberOf_eq {others : Bytes} (hlength : symbols.length = others.length)
    (hsymbols : ∀ char ∈ symbols, char ∈ alphabet) (hothers : ∀ char ∈ others, char ∈ alphabet)
    (hnumber : numberOf symbols = numberOf others) : symbols = others := by
  have hdigits : (symbols.map alphabet.idxOf).reverse = (others.map alphabet.idxOf).reverse := by
    apply Nat.ofDigits_inj_of_len_eq (by decide : 1 < 64) _
      (fun _ => lt_of_mem_map_idxOf hsymbols) (fun _ => lt_of_mem_map_idxOf hothers) hnumber
    rw [List.length_reverse, List.length_reverse, List.length_map, List.length_map, hlength]
  rw [← map_symbol_map_idxOf hsymbols, ← map_symbol_map_idxOf hothers,
    List.reverse_injective hdigits]

theorem numberOf_map_symbol {values : List Nat} (h : ∀ value ∈ values, value < 64) :
    numberOf (values.map symbol) = Nat.ofDigits 64 values.reverse := by
  have hvalues : (values.map symbol).map alphabet.idxOf = values := by
    rw [List.map_map]
    exact (List.map_congr_left fun value hvalue => idxOf_symbol value (h value hvalue)).trans
      (List.map_id values)
  rw [numberOf, hvalues]

/-- Splitting writes the number of the bytes, moved up by the bits that fill the last value. -/
theorem ofDigits_splitOnto : ∀ bs : Bytes, ∃ spare < 6,
    6 * (splitOnto [] bs).length = 8 * bs.length + spare ∧
      Nat.ofDigits 64 (splitOnto [] bs).reverse = bs.toNat * 2 ^ spare
  | a :: b :: c :: rest => by
      obtain ⟨spare, hspare, hbits, hnumber⟩ := ofDigits_splitOnto rest
      refine ⟨spare, hspare, ?_, ?_⟩
      · rw [splitOnto_cons]
        simp only [List.length_cons]
        omega
      · have hpower : 64 ^ (splitOnto [] rest).length = 256 ^ rest.length * 2 ^ spare := by
          rw [show 64 = 2 ^ 6 by rfl, show 256 = 2 ^ 8 by rfl, ← pow_mul, ← pow_mul, ← pow_add,
            hbits]
        have hgroup : a.toNat / 4 * 64 ^ 3 + (a.toNat % 4 * 16 + b.toNat / 16) * 64 ^ 2 +
            (b.toNat % 16 * 4 + c.toNat / 64) * 64 + c.toNat % 64 =
            a.toNat * 256 ^ 2 + b.toNat * 256 + c.toNat := by omega
        calc Nat.ofDigits 64 (splitOnto [] (a :: b :: c :: rest)).reverse =
            (a.toNat / 4 * 64 ^ 3 + (a.toNat % 4 * 16 + b.toNat / 16) * 64 ^ 2 +
              (b.toNat % 16 * 4 + c.toNat / 64) * 64 + c.toNat % 64) *
                64 ^ (splitOnto [] rest).length + Nat.ofDigits 64 (splitOnto [] rest).reverse := by
              rw [splitOnto_cons]
              simp only [Nat.ofDigits_reverse_cons, List.length_cons]
              ring
          _ = (a.toNat * 256 ^ 2 + b.toNat * 256 + c.toNat) * (256 ^ rest.length * 2 ^ spare) +
                Bytes.toNat rest * 2 ^ spare := by rw [hgroup, hpower, hnumber]
          _ = Bytes.toNat (a :: b :: c :: rest) * 2 ^ spare := by
              simp only [Bytes.toNat_cons, List.length_cons]
              ring
  | [a, b] => by
      refine ⟨2, by decide, ?_, ?_⟩
      · rw [splitOnto_pair]
        rfl
      · rw [splitOnto_pair]
        simp only [Nat.ofDigits_reverse_cons, List.length_cons, List.length_nil, List.reverse_nil,
          Nat.ofDigits_nil, Bytes.toNat_cons]
        rw [show Bytes.toNat [] = 0 from rfl]
        omega
  | [a] => by
      refine ⟨4, by decide, ?_, ?_⟩
      · rw [splitOnto_single]
        rfl
      · rw [splitOnto_single]
        simp only [Nat.ofDigits_reverse_cons, List.length_cons, List.length_nil, List.reverse_nil,
          Nat.ofDigits_nil, Bytes.toNat_cons]
        rw [show Bytes.toNat [] = 0 from rfl]
        omega
  | [] => ⟨0, by decide, rfl, rfl⟩

theorem exists_regroups_splitOnto (bs : Bytes) :
    ∃ spare, Regroups bs ((splitOnto [] bs).map symbol) spare := by
  have hsplit := isSplit_splitOnto bs
  obtain ⟨spare, hspare, hbits, hnumber⟩ := ofDigits_splitOnto bs
  refine ⟨spare, ?_, ?_, hspare, ?_⟩
  · intro char hchar
    obtain ⟨value, hvalue, rfl⟩ := List.mem_map.mp hchar
    exact symbol_mem_alphabet value (hsplit.lt value hvalue)
  · rw [List.length_map]
    exact hbits
  · rw [numberOf_map_symbol hsplit.lt]
    exact hnumber

/-- Length and number leave no choice of symbols. -/
theorem Regroups.unique {others : Bytes} {spare spares : Nat} (h : Regroups bs symbols spare)
    (hothers : Regroups bs others spares) : symbols = others := by
  have hbits := h.bits
  have hotherBits := hothers.bits
  have hspare := h.spare_lt
  have hspares := hothers.spare_lt
  obtain rfl : spare = spares := by omega
  have hlength : symbols.length = others.length := by omega
  exact eq_of_numberOf_eq hlength h.mem hothers.mem (h.number.trans hothers.number.symm)

/-! ### The padded form -/

/-- The padded form of a byte string: its bits in symbols, and the padding that fills the last group
of four. -/
def IsPaddedForm (bs text : Bytes) : Prop :=
  ∃ symbols spare padding, Regroups bs symbols spare ∧
    text = symbols ++ List.replicate padding pad ∧
    (symbols.length + padding) % 4 = 0 ∧ padding < 4

theorem isPaddedForm_encode (bs : Bytes) : IsPaddedForm bs (encode bs) := by
  obtain ⟨spare, hsymbols⟩ := exists_regroups_splitOnto bs
  obtain ⟨padding, hpadding⟩ := Option.isSome_iff_exists.mp (isSplit_splitOnto bs).padded
  obtain ⟨pads, rfl, hgroups, hpads⟩ := exists_replicate_of_padding? hpadding
  refine ⟨_, spare, pads, hsymbols, ?_, ?_, by omega⟩
  · simp only [encode, hpadding, Option.getD_some]
  · rwa [List.length_map]

theorem IsPaddedForm.unique {other : Bytes} (h : IsPaddedForm bs text)
    (hother : IsPaddedForm bs other) : text = other := by
  obtain ⟨symbols, spare, padding, hsymbols, rfl, hgroups, hpadding⟩ := h
  obtain ⟨others, spares, pads, hothers, rfl, hotherGroups, hpads⟩ := hother
  obtain rfl := hsymbols.unique hothers
  obtain rfl : padding = pads := by omega
  rfl

/-- What the writer makes is the padded form, and the only one. -/
theorem eq_encode_iff : text = encode bs ↔ IsPaddedForm bs text := by
  constructor
  · rintro rfl
    exact isPaddedForm_encode bs
  · exact fun h => h.unique (isPaddedForm_encode bs)

/-! ### Faults -/

/-- A text of symbols that breaks off in the middle of a group. -/
def BreaksOff (text : Bytes) : Prop :=
  (∀ char ∈ text, char ∈ alphabet) ∧ text.length % 4 ≠ 0

/-- A character that is no symbol, at an offset of a text. -/
def StrayAt (text : Bytes) (offset : Nat) : Prop :=
  ∃ char, text[offset]? = some char ∧ char ∉ alphabet

/-- The last symbol of a text that is padded to whole groups, at an offset of it, with bits that no
byte takes up: there are two of them for each padding character. -/
def OverfullAt (text : Bytes) (offset : Nat) : Prop :=
  ∃ symbols char padding, text = symbols ++ char :: List.replicate padding pad ∧
    symbols.length = offset ∧ (∀ symbol ∈ symbols, symbol ∈ alphabet) ∧ char ∈ alphabet ∧
    padding < 3 ∧ text.length % 4 = 0 ∧ alphabet.idxOf char % 4 ^ padding ≠ 0

variable {offset : Nat}

theorem StrayAt.lt (h : StrayAt text offset) : offset < text.length := by
  obtain ⟨char, hchar, -⟩ := h
  exact (List.getElem?_eq_some_iff.mp hchar).choose

theorem OverfullAt.lt (h : OverfullAt text offset) : offset < text.length := by
  obtain ⟨symbols, char, padding, rfl, rfl, -⟩ := h
  simp

theorem OverfullAt.not_breaksOff (h : OverfullAt text offset) : ¬BreaksOff text := by
  obtain ⟨-, -, -, -, -, -, -, -, hwhole, -⟩ := h
  exact fun hbreaks => hbreaks.right hwhole

theorem StrayAt.not_breaksOff (h : StrayAt text offset) : ¬BreaksOff text := by
  obtain ⟨char, hchar, hstray⟩ := h
  exact fun hbreaks => hstray (hbreaks.left char (List.mem_of_getElem? hchar))

theorem strayAt_of_hasStrayEnd (h : hasStrayEnd text = true) : StrayAt text (text.length - 1) := by
  simp only [hasStrayEnd, Bool.and_eq_true, beq_iff_eq, Bool.not_eq_true', Bool.or_eq_false_iff,
    List.getLastD_eq_getLast?] at h
  obtain ⟨hlength, hsymbol, -⟩ := h
  have hne : text ≠ [] := by
    rintro rfl
    exact absurd hlength (by decide)
  rw [List.getLast?_eq_some_getLast hne, Option.getD_some] at hsymbol
  refine ⟨text.getLast hne, ?_, ?_⟩
  · rw [← List.getLast?_eq_getElem?, List.getLast?_eq_some_getLast hne]
  · rw [mem_alphabet_iff, hsymbol]
    exact Bool.false_ne_true

theorem mem_alphabet_of_mem_takeWhile : ∀ char ∈ text.takeWhile isSymbol, char ∈ alphabet :=
  fun _ hchar => mem_alphabet_iff.mpr (List.mem_takeWhile_imp hchar)

/-- What a fault says of a text. Of a padding that is short, nothing may be there. -/
def Fault.Describes (text : Bytes) : Fault → Prop
  | .invalidByte offset => StrayAt text offset
  | .invalidLength length => length = text.length ∧ BreaksOff text
  | .invalidLastSymbol offset => OverfullAt text offset
  | .invalidPadding => pad ∉ text → BreaksOff text

/-- Behind the leading symbols there is the end of the text or a stray character. -/
theorem restFault_describes
    (h : some (text.dropWhile isSymbol) ≠ padding? (text.takeWhile isSymbol).length) :
    (restFault (text.takeWhile isSymbol).length (text.dropWhile isSymbol)).Describes text := by
  have htext : text.takeWhile isSymbol ++ text.dropWhile isSymbol = text :=
    List.takeWhile_append_dropWhile
  have hmem : ∀ char ∈ text.takeWhile isSymbol, char ∈ alphabet := mem_alphabet_of_mem_takeWhile
  cases hrest : text.dropWhile isSymbol with
  | nil =>
      rw [hrest, List.append_nil] at htext
      rw [hrest] at h
      rw [htext] at h hmem ⊢
      have hbreaks : BreaksOff text := ⟨hmem, fun hwhole => h (by simp only [padding?, hwhole])⟩
      rw [restFault]
      split
      · exact fun _ => hbreaks
      · exact ⟨rfl, hbreaks⟩
  | cons char rest =>
      have hne : text.dropWhile isSymbol ≠ [] := by simp [hrest]
      have hhead := List.head_dropWhile_not isSymbol hne
      simp only [hrest, List.head_cons] at hhead
      rw [hrest] at htext
      generalize text.takeWhile isSymbol = symbols at htext
      rw [restFault]
      split
      case isTrue hfront =>
        -- A front part of a padding starts with padding, so the text has some.
        refine fun hnone => absurd ?_ hnone
        obtain ⟨padding, hpadding⟩ : ∃ padding, padding? symbols.length = some padding := by
          cases hfound : padding? symbols.length with
          | none => simp [hfound] at hfront
          | some padding => exact ⟨padding, rfl⟩
        rw [hpadding, Option.getD_some, List.isPrefixOf_iff_prefix] at hfront
        obtain ⟨-, hpads, -⟩ := padding?_cases hpadding
        rw [← hpads char (hfront.subset List.mem_cons_self), ← htext]
        exact List.mem_append_right symbols List.mem_cons_self
      case isFalse =>
        refine ⟨char, ?_, ?_⟩
        · rw [← htext, List.getElem?_append_right (Nat.le_refl _), Nat.sub_self]
          rfl
        · rw [mem_alphabet_iff, hhead]
          exact Bool.false_ne_true

/-- Of the last value, each padding character leaves two bits that no byte takes up. -/
theorem spareBits_concat {values : List Nat} {value pads : Nat}
    (hgroups : (values.length + 1 + pads) % 4 = 0) (hpads : pads < 3) :
    spareBits (values ++ [value]) = value % 4 ^ pads := by
  have hlast : (values ++ [value]).getLastD 0 = value := List.getLastD_concat
  have hlength : (values ++ [value]).length % 4 = (4 - pads) % 4 := by
    rw [List.length_append, List.length_singleton]
    omega
  rw [spareBits, hlength, hlast]
  interval_cases pads
  · exact (Nat.mod_one value).symm
  · rfl
  · rfl

theorem overfullAt_of_spareBits
    (hpadding : some (text.dropWhile isSymbol) = padding? (text.takeWhile isSymbol).length)
    (hspare : spareBits ((text.takeWhile isSymbol).filterMap value?) ≠ 0) :
    OverfullAt text ((text.takeWhile isSymbol).length - 1) := by
  have htext : text.takeWhile isSymbol ++ text.dropWhile isSymbol = text :=
    List.takeWhile_append_dropWhile
  have hmem : ∀ char ∈ text.takeWhile isSymbol, char ∈ alphabet := mem_alphabet_of_mem_takeWhile
  rw [filterMap_value?_eq_map hmem] at hspare
  obtain ⟨pads, hpads, hgroups, hlt⟩ := exists_replicate_of_padding? hpadding.symm
  rw [hpads] at htext
  generalize text.takeWhile isSymbol = symbols at *
  rcases List.eq_nil_or_concat' symbols with rfl | ⟨front, last, rfl⟩
  · exact absurd rfl hspare
  · rw [List.length_append, List.length_singleton] at hgroups
    rw [List.map_append, List.map_singleton,
      spareBits_concat (by rwa [List.length_map]) hlt] at hspare
    rw [List.forall_mem_append, List.forall_mem_singleton] at hmem
    rw [List.append_assoc, List.singleton_append] at htext
    refine ⟨front, last, pads, htext.symm, ?_, hmem.left, hmem.right, hlt, ?_, hspare⟩
    · rw [List.length_append, List.length_singleton, Nat.add_sub_cancel]
    · rw [← htext, List.length_append, List.length_cons, List.length_replicate]
      omega

/-- A text is refused with a fault that it has. -/
theorem describes_of_decode {fault : Fault} (h : decode text = .error fault) :
    fault.Describes text := by
  simp only [decode] at h
  split_ifs at h with hend hpadding hspare
  · rw [← Except.error.inj h]
    exact strayAt_of_hasStrayEnd hend
  · rw [← Except.error.inj h]
    exact restFault_describes hpadding
  · rw [← Except.error.inj h]
    exact overfullAt_of_spareBits (not_not.mp hpadding) hspare

end WalletAuth.Base64Url
