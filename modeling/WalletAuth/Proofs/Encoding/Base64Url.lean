import WalletAuth.Encoding.Base64Url
import WalletAuth.Proofs.Bytes

/-! Base64 text reads back as the bytes it was written for, with padding and without, and neither
reader accepts any other text for them. Both readers collect the six-bit values of the symbols;
joining them undoes splitting the bytes, and splitting leaves no spare bit set and no group of one.
Values with these two properties are in turn what splitting makes of the joined bytes. -/

namespace WalletAuth.Base64Url

/-! ### Symbols -/

theorem value?_symbol : ∀ value < 64, value? (symbol value) = some value := by decide

theorem isSymbol_symbol : ∀ value < 64, isSymbol (symbol value) = true := by decide

theorem isSymbol_pad : isSymbol pad = false := rfl

theorem symbol_of_value? (char : UInt8) {value : Nat} (h : value? char = some value) :
    value < 64 ∧ symbol value = char := by
  have hall : ∀ char, (value? char).all fun value => value < 64 ∧ symbol value = char :=
    Bytes.forall_byte (by decide +kernel)
  simpa [h] using hall char

/-- Symbols are visible characters, and none is a point. -/
theorem bounds_of_isSymbol (char : UInt8) (h : isSymbol char = true) :
    32 < char ∧ char < 127 ∧ char ≠ 46 := by
  have hall : ∀ char, isSymbol char = true → 32 < char ∧ char < 127 ∧ char ≠ 46 :=
    Bytes.forall_byte (by decide +kernel)
  exact hall char h

theorem filterMap_value?_map_symbol {values : List Nat} (h : ∀ value ∈ values, value < 64) :
    (values.map symbol).filterMap value? = values := by
  induction values with
  | nil => rfl
  | cons value values ih =>
      rw [List.map_cons, List.filterMap_cons_some (value?_symbol value (h value List.mem_cons_self)),
        ih fun other hother => h other (List.mem_cons_of_mem _ hother)]

theorem map_symbol_filterMap_value? {text : Bytes} (h : ∀ char ∈ text, isSymbol char = true) :
    (text.filterMap value?).map symbol = text := by
  induction text with
  | nil => rfl
  | cons char text ih =>
      obtain ⟨value, hvalue⟩ := Option.isSome_iff_exists.mp (h char List.mem_cons_self)
      rw [List.filterMap_cons_some hvalue, List.map_cons, (symbol_of_value? char hvalue).right,
        ih fun other hother => h other (List.mem_cons_of_mem _ hother)]

theorem lt_of_mem_filterMap_value? {text : Bytes} {value : Nat} (h : value ∈ text.filterMap value?) :
    value < 64 := by
  obtain ⟨char, -, hvalue⟩ := List.mem_filterMap.mp h
  exact (symbol_of_value? char hvalue).left

/-! ### Six-bit values -/

theorem splitOnto_eq_append : ∀ (made : List Nat) (bs : Bytes),
    splitOnto made bs = made.reverse ++ splitOnto [] bs
  | made, a :: b :: c :: rest => by
      rw [splitOnto, splitOnto_eq_append _ rest, splitOnto, splitOnto_eq_append [_, _, _, _] rest]
      simp
  | made, [a, b] => by simp [splitOnto]
  | made, [a] => by simp [splitOnto]
  | made, [] => by simp [splitOnto]

theorem joinOnto_eq_append : ∀ (made : Bytes) (values : List Nat),
    joinOnto made values = made.reverse ++ joinOnto [] values
  | made, a :: b :: c :: d :: rest => by
      rw [joinOnto, joinOnto_eq_append _ rest, joinOnto, joinOnto_eq_append [_, _, _] rest]
      simp
  | made, [a, b, c] => by simp [joinOnto]
  | made, [a, b] => by simp [joinOnto]
  | made, [a] => by simp [joinOnto]
  | made, [] => by simp [joinOnto]

theorem splitOnto_cons (a b c : UInt8) (rest : Bytes) :
    splitOnto [] (a :: b :: c :: rest) =
      (a.toNat / 4) :: (a.toNat % 4 * 16 + b.toNat / 16) :: (b.toNat % 16 * 4 + c.toNat / 64) ::
        (c.toNat % 64) :: splitOnto [] rest := by
  have ha := a.toNat_lt
  have hb := b.toNat_lt
  have hc := c.toNat_lt
  rw [splitOnto, splitOnto_eq_append]
  simp only [List.reverse_cons, List.reverse_nil, List.nil_append, List.cons_append]
  congr 1
  · omega
  congr 1
  · omega
  congr 1
  · omega
  congr 1
  omega

theorem joinOnto_cons (a b c : UInt8) (rest : List Nat) :
    joinOnto [] ((a.toNat / 4) :: (a.toNat % 4 * 16 + b.toNat / 16) ::
        (b.toNat % 16 * 4 + c.toNat / 64) :: (c.toNat % 64) :: rest) =
      a :: b :: c :: joinOnto [] rest := by
  have ha := a.toNat_lt
  have hb := b.toNat_lt
  have hc := c.toNat_lt
  have hgroup : a.toNat / 4 * 262144 + (a.toNat % 4 * 16 + b.toNat / 16) * 4096 +
      (b.toNat % 16 * 4 + c.toNat / 64) * 64 + c.toNat % 64 =
      a.toNat * 65536 + b.toNat * 256 + c.toNat := by omega
  rw [joinOnto, joinOnto_eq_append]
  simp only [hgroup, List.reverse_cons, List.reverse_nil, List.nil_append, List.cons_append]
  rw [show (a.toNat * 65536 + b.toNat * 256 + c.toNat) / 65536 = a.toNat by omega,
    show (a.toNat * 65536 + b.toNat * 256 + c.toNat) / 256 % 256 = b.toNat by omega,
    show (a.toNat * 65536 + b.toNat * 256 + c.toNat) % 256 = c.toNat by omega]
  simp only [UInt8.ofNat_toNat]

theorem splitOnto_pair (a b : UInt8) :
    splitOnto [] [a, b] =
      [a.toNat / 4, a.toNat % 4 * 16 + b.toNat / 16, b.toNat % 16 * 4] := by
  have ha := a.toNat_lt
  have hb := b.toNat_lt
  simp only [splitOnto, List.reverse_cons, List.reverse_nil, List.nil_append, List.cons_append,
    List.cons.injEq, and_true]
  omega

theorem joinOnto_pair (a b : UInt8) :
    joinOnto [] [a.toNat / 4, a.toNat % 4 * 16 + b.toNat / 16, b.toNat % 16 * 4] = [a, b] := by
  have ha := a.toNat_lt
  have hb := b.toNat_lt
  have hgroup : a.toNat / 4 * 1024 + (a.toNat % 4 * 16 + b.toNat / 16) * 16 +
      b.toNat % 16 * 4 / 4 = a.toNat * 256 + b.toNat := by omega
  simp only [joinOnto, hgroup, List.reverse_cons, List.reverse_nil, List.nil_append,
    List.cons_append]
  rw [show (a.toNat * 256 + b.toNat) / 256 = a.toNat by omega,
    show (a.toNat * 256 + b.toNat) % 256 = b.toNat by omega, UInt8.ofNat_toNat,
    UInt8.ofNat_toNat]

theorem splitOnto_single (a : UInt8) :
    splitOnto [] [a] = [a.toNat / 4, a.toNat % 4 * 16] := by
  simp only [splitOnto, List.reverse_cons, List.reverse_nil, List.nil_append, List.cons_append,
    List.cons.injEq, and_true, true_and]
  omega

theorem joinOnto_single (a : UInt8) : joinOnto [] [a.toNat / 4, a.toNat % 4 * 16] = [a] := by
  simp only [joinOnto, List.reverse_cons, List.reverse_nil, List.nil_append]
  rw [show a.toNat / 4 * 4 + a.toNat % 4 * 16 / 16 = a.toNat by omega, UInt8.ofNat_toNat]

/-- What splitting leaves for the readers to find. -/
structure IsSplit (bs : Bytes) (values : List Nat) : Prop where
  lt : ∀ value ∈ values, value < 64
  join : joinOnto [] values = bs
  spare : spareBits values = 0
  padded : (padding? values.length).isSome

theorem spareBits_append (a b c d : Nat) (rest : List Nat) :
    spareBits (a :: b :: c :: d :: rest) = spareBits rest := by
  have hlength : (a :: b :: c :: d :: rest).length % 4 = rest.length % 4 := by
    simp only [List.length_cons]
    omega
  rw [spareBits, spareBits, hlength]
  cases rest <;> rfl

theorem padding?_add_four (symbols : Nat) : padding? (symbols + 4) = padding? symbols := by
  rw [padding?, padding?, Nat.add_mod_right]

theorem isSplit_splitOnto : ∀ bs : Bytes, IsSplit bs (splitOnto [] bs)
  | a :: b :: c :: rest => by
      have ha := a.toNat_lt
      have hb := b.toNat_lt
      have hc := c.toNat_lt
      have hrest := isSplit_splitOnto rest
      rw [splitOnto_cons]
      constructor
      case lt =>
        simp only [List.forall_mem_cons]
        exact ⟨by omega, by omega, by omega, by omega, hrest.lt⟩
      case join => rw [joinOnto_cons, hrest.join]
      case spare => rw [spareBits_append, hrest.spare]
      case padded =>
        rw [List.length_cons, List.length_cons, List.length_cons, List.length_cons,
          padding?_add_four]
        exact hrest.padded
  | [a, b] => by
      have ha := a.toNat_lt
      have hb := b.toNat_lt
      rw [splitOnto_pair]
      constructor
      case lt =>
        simp only [List.forall_mem_cons]
        exact ⟨by omega, by omega, by omega, by simp⟩
      case join => exact joinOnto_pair a b
      case spare =>
        show b.toNat % 16 * 4 % 4 = 0
        omega
      case padded => rfl
  | [a] => by
      have ha := a.toNat_lt
      rw [splitOnto_single]
      constructor
      case lt =>
        simp only [List.forall_mem_cons]
        exact ⟨by omega, by omega, by simp⟩
      case join => exact joinOnto_single a
      case spare =>
        show a.toNat % 4 * 16 % 16 = 0
        omega
      case padded => rfl
  | [] => ⟨by simp [splitOnto], rfl, rfl, rfl⟩

theorem exists_bytes_of_four {a b c d : Nat} (ha : a < 64) (hb : b < 64) (hc : c < 64)
    (hd : d < 64) :
    ∃ x y z : UInt8, x.toNat / 4 = a ∧ x.toNat % 4 * 16 + y.toNat / 16 = b ∧
      y.toNat % 16 * 4 + z.toNat / 64 = c ∧ z.toNat % 64 = d := by
  refine ⟨UInt8.ofNat (a * 4 + b / 16), UInt8.ofNat (b % 16 * 16 + c / 4),
    UInt8.ofNat (c % 4 * 64 + d), ?_⟩
  rw [Bytes.toNat_byte (by omega), Bytes.toNat_byte (by omega), Bytes.toNat_byte (by omega)]
  omega

theorem exists_bytes_of_three {a b c : Nat} (ha : a < 64) (hb : b < 64) (hc : c < 64)
    (hspare : c % 4 = 0) :
    ∃ x y : UInt8, x.toNat / 4 = a ∧ x.toNat % 4 * 16 + y.toNat / 16 = b ∧
      y.toNat % 16 * 4 = c := by
  refine ⟨UInt8.ofNat (a * 4 + b / 16), UInt8.ofNat (b % 16 * 16 + c / 4), ?_⟩
  rw [Bytes.toNat_byte (by omega), Bytes.toNat_byte (by omega)]
  omega

theorem exists_byte_of_two {a b : Nat} (ha : a < 64) (hb : b < 64) (hspare : b % 16 = 0) :
    ∃ x : UInt8, x.toNat / 4 = a ∧ x.toNat % 4 * 16 = b := by
  refine ⟨UInt8.ofNat (a * 4 + b / 16), ?_⟩
  rw [Bytes.toNat_byte (by omega)]
  omega

/-- Values that no bit is spare of, in groups that bytes fill, come from the bytes they carry. -/
theorem splitOnto_joinOnto : ∀ values : List Nat, (∀ value ∈ values, value < 64) →
    (padding? values.length).isSome → spareBits values = 0 →
    splitOnto [] (joinOnto [] values) = values
  | a :: b :: c :: d :: rest, hlt, hpadding, hspare => by
      simp only [List.forall_mem_cons] at hlt
      obtain ⟨ha, hb, hc, hd, hrest⟩ := hlt
      obtain ⟨x, y, z, rfl, rfl, rfl, rfl⟩ := exists_bytes_of_four ha hb hc hd
      rw [List.length_cons, List.length_cons, List.length_cons, List.length_cons,
        padding?_add_four] at hpadding
      rw [spareBits_append] at hspare
      rw [joinOnto_cons, splitOnto_cons, splitOnto_joinOnto rest hrest hpadding hspare]
  | [a, b, c], hlt, _, hspare => by
      simp only [List.forall_mem_cons] at hlt
      obtain ⟨x, y, rfl, rfl, rfl⟩ := exists_bytes_of_three hlt.left hlt.right.left
        hlt.right.right.left hspare
      rw [joinOnto_pair, splitOnto_pair]
  | [a, b], hlt, _, hspare => by
      simp only [List.forall_mem_cons] at hlt
      obtain ⟨x, rfl, rfl⟩ := exists_byte_of_two hlt.left hlt.right.left hspare
      rw [joinOnto_single, splitOnto_single]
  | [_], _, hpadding, _ => absurd hpadding Bool.false_ne_true
  | [], _, _, _ => rfl

/-! ### The two readers -/

/-- Splits without padding read back. -/
theorem decodeBare?_encodeBare (bs : Bytes) : decodeBare? (encodeBare bs) = some bs := by
  have hsplit := isSplit_splitOnto bs
  have hall : ((splitOnto [] bs).map symbol).all isSymbol = true := by
    rw [List.all_map, List.all_eq_true]
    exact fun value hvalue => isSymbol_symbol value (hsplit.lt value hvalue)
  rw [decodeBare?, encodeBare, filterMap_value?_map_symbol hsplit.lt, hall, List.length_map,
    hsplit.padded, hsplit.spare, hsplit.join]
  rfl

/-- Without padding, each byte string has one text. -/
theorem decodeBare?_eq_some_iff {text bs : Bytes} :
    decodeBare? text = some bs ↔ text = encodeBare bs := by
  constructor
  · intro h
    simp only [decodeBare?, Option.ite_none_right_eq_some, Bool.and_eq_true, beq_iff_eq,
      Option.some.injEq, List.all_eq_true] at h
    obtain ⟨⟨⟨hsymbols, hpadding⟩, hspare⟩, rfl⟩ := h
    have hvalues := map_symbol_filterMap_value? hsymbols
    rw [← hvalues, List.length_map] at hpadding
    rw [encodeBare, splitOnto_joinOnto _ (fun _ => lt_of_mem_filterMap_value?) hpadding hspare,
      hvalues]
  · rintro rfl
    exact decodeBare?_encodeBare bs

theorem isSymbol_of_mem_encodeBare {bs : Bytes} {char : UInt8} (h : char ∈ encodeBare bs) :
    isSymbol char = true := by
  obtain ⟨value, hvalue, rfl⟩ := List.mem_map.mp h
  exact isSymbol_symbol value ((isSplit_splitOnto bs).lt value hvalue)

theorem takeWhile_isSymbol {symbols rest : Bytes} (h : ∀ char ∈ symbols, isSymbol char = true)
    (hrest : rest = [] ∨ rest.head? = some pad) :
    (symbols ++ rest).takeWhile isSymbol = symbols := by
  rw [List.takeWhile_append_of_pos h]
  rcases rest with _ | ⟨char, rest⟩
  · simp
  · obtain rfl : char = pad := by simpa using hrest
    rw [List.takeWhile_cons_of_neg (by simp [isSymbol_pad]), List.append_nil]

theorem dropWhile_isSymbol {symbols rest : Bytes} (h : ∀ char ∈ symbols, isSymbol char = true)
    (hrest : rest = [] ∨ rest.head? = some pad) :
    (symbols ++ rest).dropWhile isSymbol = rest := by
  rw [List.dropWhile_append_of_pos h]
  rcases rest with _ | ⟨char, rest⟩
  · rfl
  · obtain rfl : char = pad := by simpa using hrest
    rw [List.dropWhile_cons_of_neg (by simp [isSymbol_pad])]

/-- Padding fills the last group of four; there are at most two characters of it. -/
theorem exists_replicate_of_padding? {symbols : Nat} {padding : Bytes}
    (h : padding? symbols = some padding) :
    ∃ pads, padding = List.replicate pads pad ∧ (symbols + pads) % 4 = 0 ∧ pads < 3 := by
  rw [padding?] at h
  split at h <;> simp only [Option.some.injEq, reduceCtorEq] at h <;> subst h
  · exact ⟨0, rfl, by omega, by decide⟩
  · exact ⟨2, rfl, by omega, by decide⟩
  · exact ⟨1, rfl, by omega, by decide⟩

theorem padding?_cases {symbols : Nat} {padding : Bytes} (h : padding? symbols = some padding) :
    (padding = [] ∨ padding.head? = some pad) ∧ (∀ char ∈ padding, char = pad) ∧
      (symbols + padding.length) % 4 = 0 := by
  obtain ⟨pads, rfl, hwhole, -⟩ := exists_replicate_of_padding? h
  refine ⟨?_, fun _ hchar => List.eq_of_mem_replicate hchar, by rwa [List.length_replicate]⟩
  cases pads with
  | zero => exact Or.inl rfl
  | succ pads => exact Or.inr rfl

theorem length_splitOnto : ∀ bs : Bytes, (splitOnto [] bs).length = (bs.length * 4 + 2) / 3
  | a :: b :: c :: rest => by
      rw [splitOnto_cons]
      simp only [List.length_cons, length_splitOnto rest]
      omega
  | [a, b] => by rw [splitOnto_pair]; simp
  | [a] => by rw [splitOnto_single]; simp
  | [] => rfl

/-- Every three bytes take four characters, and so does what is left of them. -/
theorem length_encode (bs : Bytes) : (encode bs).length = (bs.length + 2) / 3 * 4 := by
  obtain ⟨padding, hpadding⟩ := Option.isSome_iff_exists.mp (isSplit_splitOnto bs).padded
  obtain ⟨pads, rfl, hwhole, hshort⟩ := exists_replicate_of_padding? hpadding
  have hlength : (encode bs).length = (splitOnto [] bs).length + pads := by
    simp only [encode, hpadding, Option.getD_some, List.length_append, List.length_map,
      List.length_replicate]
  have hvalues := length_splitOnto bs
  omega

/-- Padded text reads back. -/
theorem decode_encode (bs : Bytes) : decode (encode bs) = .ok bs := by
  have hsplit := isSplit_splitOnto bs
  obtain ⟨padding, hpadding⟩ := Option.isSome_iff_exists.mp hsplit.padded
  obtain ⟨hhead, -, hlength⟩ := padding?_cases hpadding
  have hsymbols : ∀ char ∈ (splitOnto [] bs).map symbol, isSymbol char = true :=
    fun _ => isSymbol_of_mem_encodeBare
  have htext : encode bs = (splitOnto [] bs).map symbol ++ padding := by
    simp only [encode, hpadding, Option.getD_some]
  have hwhole : hasStrayEnd ((splitOnto [] bs).map symbol ++ padding) = false := by
    rw [hasStrayEnd, List.length_append, List.length_map, hlength]
    rfl
  simp only [decode, htext, hwhole, takeWhile_isSymbol hsymbols hhead,
    dropWhile_isSymbol hsymbols hhead, filterMap_value?_map_symbol hsplit.lt, List.length_map,
    hpadding, hsplit.spare, hsplit.join]
  simp

theorem encode_of_decode {text bs : Bytes} (h : decode text = .ok bs) : encode bs = text := by
  simp only [decode] at h
  split at h
  · exact absurd h (by simp)
  split at h
  · exact absurd h (by simp)
  rename_i hpadding
  rw [not_not] at hpadding
  split at h
  · exact absurd h (by simp)
  rename_i hspare
  rw [not_not] at hspare
  obtain rfl := Except.ok.inj h
  have hsymbols : ∀ char ∈ text.takeWhile isSymbol, isSymbol char = true :=
    List.all_eq_true.mp List.all_takeWhile
  have hvalues := map_symbol_filterMap_value? hsymbols
  have hlength : ((text.takeWhile isSymbol).filterMap value?).length =
      (text.takeWhile isSymbol).length := by
    rw [← List.length_map symbol, hvalues]
  rw [← hlength] at hpadding
  simp only [encode, splitOnto_joinOnto _ (fun _ => lt_of_mem_filterMap_value?)
    (hpadding ▸ Option.isSome_some) hspare, hvalues, ← hpadding, Option.getD_some,
    List.takeWhile_append_dropWhile]

/-- With padding, each byte string has one text. -/
theorem decode_eq_ok_iff {text bs : Bytes} : decode text = .ok bs ↔ text = encode bs := by
  constructor
  · exact fun h => (encode_of_decode h).symm
  · rintro rfl
    exact decode_encode bs

theorem lt_of_mem_encodeBare {bs : Bytes} {char : UInt8} (h : char ∈ encodeBare bs) :
    char < 128 :=
  UInt8.lt_trans (bounds_of_isSymbol char (isSymbol_of_mem_encodeBare h)).right.left (by decide)

theorem isSymbol_or_eq_pad_of_mem_encode {bs : Bytes} {char : UInt8} (h : char ∈ encode bs) :
    isSymbol char = true ∨ char = pad := by
  obtain ⟨padding, hpadding⟩ := Option.isSome_iff_exists.mp (isSplit_splitOnto bs).padded
  rw [encode, List.mem_append] at h
  rcases h with hsymbol | hpad
  · exact Or.inl (isSymbol_of_mem_encodeBare hsymbol)
  · rw [hpadding, Option.getD_some] at hpad
    obtain ⟨-, hpads, -⟩ := padding?_cases hpadding
    exact Or.inr (hpads char hpad)

theorem ofString_encodeText (bs : Bytes) : Bytes.ofString (encodeText bs) = encode bs := by
  apply Bytes.ofString_toAscii
  intro char hchar
  rcases isSymbol_or_eq_pad_of_mem_encode hchar with hsymbol | rfl
  · exact UInt8.lt_trans (bounds_of_isSymbol char hsymbol).right.left (by decide)
  · decide

theorem length_encodeText (bs : Bytes) : (encodeText bs).length = (bs.length + 2) / 3 * 4 := by
  rw [encodeText, Bytes.length_toAscii, length_encode]

/-! ### Text without padding -/

/-- Texts of symbols alone, without padding. -/
def IsSymbolText (text : String) : Prop :=
  ∀ char ∈ text.toList,
    char ∈ "ABCDEFGHIJKLMNOPQRSTUVWXYZabcdefghijklmnopqrstuvwxyz0123456789-_".toList

theorem charOfSymbol_mem : ∀ value < 64, Char.ofNat (symbol value).toNat ∈
    "ABCDEFGHIJKLMNOPQRSTUVWXYZabcdefghijklmnopqrstuvwxyz0123456789-_".toList := by decide

/-- Whole groups of three bytes need no padding. -/
theorem encode_eq_encodeBare {bs : Bytes} (h : bs.length % 3 = 0) : encode bs = encodeBare bs := by
  have hwhole : (splitOnto [] bs).length % 4 = 0 := by
    rw [length_splitOnto]
    omega
  simp only [encode, encodeBare, padding?, hwhole, Option.getD_some, List.append_nil]

theorem isSymbolText_encodeText {bs : Bytes} (h : bs.length % 3 = 0) :
    IsSymbolText (encodeText bs) := by
  intro char hchar
  rw [encodeText, encode_eq_encodeBare h, Bytes.toAscii, String.toList_ofList, encodeBare,
    List.map_map] at hchar
  obtain ⟨value, hvalue, rfl⟩ := List.mem_map.mp hchar
  exact charOfSymbol_mem value ((isSplit_splitOnto bs).lt value hvalue)

end WalletAuth.Base64Url
