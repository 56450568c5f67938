import Mathlib.Data.Nat.Digits.Defs
import WalletAuth.Proofs.Session.Payload
import WalletAuth.Proofs.Text.Blank
import WalletAuth.Settings.Session

/-! The lifetime of sessions, from the text that gives it in hours to the expiry of a token. A text
grants hours by writing their number in digits; nothing else is taken for a lifetime, and with every
lifetime that is granted tokens can be issued at any time. An environment whose lifetime is not text
is read as if it gave none. -/

namespace WalletAuth

open Json (Value)
open Text (IsBlankText IsTrimmed)

namespace Environment

variable {environment : Environment} {name : String}

/-- A variable that is set, but not to text. -/
def IsUnreadable (environment : Environment) (name : String) : Prop :=
  ∃ bytes, environment name = some bytes ∧ ∀ text, bytes ≠ Bytes.ofString text

theorem text?_eq_some_iff {text : String} :
    environment.text? name = some text ↔ environment name = some (Bytes.ofString text) := by
  rw [text?, Option.bind_eq_some_iff]
  constructor
  · rintro ⟨bytes, hbytes, htext⟩
    rw [hbytes, Bytes.ofString_of_toString? htext]
  · exact fun h => ⟨_, h, Bytes.toString?_ofString text⟩

/-- What is read as not set is not set or not text. -/
theorem text?_eq_none_iff :
    environment.text? name = none ↔ environment name = none ∨ environment.IsUnreadable name := by
  rw [Option.eq_none_iff_forall_ne_some]
  cases hset : environment name with
  | none => simp [text?, hset]
  | some bytes =>
      simp only [ne_eq, text?_eq_some_iff, hset, Option.some.injEq, reduceCtorEq, false_or,
        IsUnreadable, exists_eq_left']

end Environment

namespace SessionSettings

/-! ### Numbers in text -/

def IsDigit (char : Char) : Prop :=
  '0' ≤ char ∧ char ≤ '9'

/-- Digits write a number in base ten, the last one its units. -/
structure DigitsOf (count : Nat) (digits : List Char) : Prop where
  ne_nil : digits ≠ []
  isDigit : ∀ char ∈ digits, IsDigit char
  value : Nat.ofDigits 10 (digits.reverse.map fun char => char.toNat - '0'.toNat) = count

/-- What may be written for a number: its digits, with a plus or with nothing in front of them. -/
def Counts (count : Nat) (chars : List Char) : Prop :=
  ∃ digits, DigitsOf count digits ∧ (chars = digits ∨ chars = '+' :: digits)

/-- The hours that a text grants: it writes their number, perhaps between white space, there is at
least one, and their seconds fit a signed integer of 64 bits. -/
structure Grants (text : String) (hours : Nat) : Prop where
  writes : ∃ lead chars trail, IsBlankText lead ∧ IsBlankText trail ∧ Counts hours chars ∧
    text.toList = lead ++ chars ++ trail
  pos : 1 ≤ hours
  fits : 3600 * hours ≤ 2 ^ 63 - 1

variable {chars digits : List Char} {count hours lifetime : Nat} {text key : String}

theorem foldl_eq_ofDigits (digits : List Char) :
    digits.foldl (fun value char => value * 10 + (char.toNat - '0'.toNat)) 0 =
      Nat.ofDigits 10 (digits.reverse.map fun char => char.toNat - '0'.toNat) := by
  rw [Nat.ofDigits_eq_foldr, List.map_reverse, List.foldr_reverse, List.foldl_map]
  congr 1
  funext value char
  rw [Nat.cast_id, Nat.mul_comm, Nat.add_comm]

theorem isDigit_toNat {char : Char} (h : IsDigit char) : 48 ≤ char.toNat ∧ char.toNat ≤ 57 :=
  ⟨UInt32.le_iff_toNat_le.mp h.left, UInt32.le_iff_toNat_le.mp h.right⟩

theorem IsDigit.ne_plus {char : Char} (h : IsDigit char) : char ≠ '+' := by
  rintro rfl
  exact absurd h.left (by decide)

theorem isBlank_of_isDigit {char : Char} (h : IsDigit char) : Text.isBlank char = false := by
  have hcode := isDigit_toNat h
  simp only [Text.isBlank, Text.blankRanges, List.any_cons, List.any_nil, Bool.or_false,
    Bool.or_eq_false_iff, decide_eq_false_iff_not]
  omega

theorem DigitsOf.head?_ne (h : DigitsOf count digits) : digits.head? ≠ some '+' :=
  fun hplus => (h.isDigit '+' (List.mem_of_mem_head? hplus)).ne_plus rfl

/-- A number between white space is what trimming leaves. -/
theorem Counts.isTrimmed (h : Counts count chars) : IsTrimmed chars := by
  apply Text.isTrimmed_of_all
  intro char hchar
  obtain ⟨digits, hdigits, rfl | rfl⟩ := h
  · exact isBlank_of_isDigit (hdigits.isDigit char hchar)
  · rcases List.mem_cons.mp hchar with rfl | hmem
    · decide
    · exact isBlank_of_isDigit (hdigits.isDigit char hmem)

theorem ite_digits_eq_some_iff {count : UInt64} :
    (if (digits ≠ [] ∧ (digits.all fun char => '0' ≤ char ∧ char ≤ '9') = true) ∧
          digits.foldl (fun value char => value * 10 + (char.toNat - '0'.toNat)) 0 < UInt64.size then
        some (UInt64.ofNat
          (digits.foldl (fun value char => value * 10 + (char.toNat - '0'.toNat)) 0))
      else none) = some count ↔ DigitsOf count.toNat digits := by
  have hall : (digits.all fun char => '0' ≤ char ∧ char ≤ '9') = true ↔
      ∀ char ∈ digits, IsDigit char := by
    simp [IsDigit, List.all_eq_true]
  rw [Option.ite_none_right_eq_some, hall, foldl_eq_ofDigits, Option.some.injEq]
  constructor
  · rintro ⟨⟨⟨hne, hdigits⟩, hsize⟩, rfl⟩
    exact ⟨hne, hdigits, (UInt64.toNat_ofNat_of_lt' hsize).symm⟩
  · intro h
    rw [h.value]
    exact ⟨⟨⟨h.ne_nil, h.isDigit⟩, count.toNat_lt⟩, UInt64.ofNat_toNat⟩

section Count

variable {count : UInt64}

/-- A plus in front is passed over. -/
theorem parseCount?_plus_iff :
    parseCount? ('+' :: digits) = some count ↔ DigitsOf count.toNat digits :=
  ite_digits_eq_some_iff

theorem parseCount?_of_head?_ne (h : chars.head? ≠ some '+') :
    parseCount? chars = some count ↔ DigitsOf count.toNat chars := by
  unfold parseCount?
  split
  · exact absurd rfl h
  · exact ite_digits_eq_some_iff

/-- What is read as a number is what may be written for one that 64 bits hold. -/
theorem parseCount?_eq_some_iff : parseCount? chars = some count ↔ Counts count.toNat chars := by
  by_cases hplus : chars.head? = some '+'
  · obtain ⟨rest, rfl⟩ := List.head?_eq_some_iff.mp hplus
    rw [parseCount?_plus_iff]
    constructor
    · exact fun h => ⟨rest, h, Or.inr rfl⟩
    · rintro ⟨digits, hdigits, rfl | hrest⟩
      · exact absurd rfl hdigits.head?_ne
      · rwa [(List.cons.inj hrest).right]
  · rw [parseCount?_of_head?_ne hplus]
    constructor
    · exact fun h => ⟨chars, h, Or.inl rfl⟩
    · rintro ⟨digits, hdigits, rfl | rfl⟩
      · exact hdigits
      · exact absurd rfl hplus

end Count

/-! ### Lifetimes in text -/

/-- A checked product is the product of the numbers, as long as 64 bits hold it. -/
theorem checkedMul?_eq_some_iff {left right product : UInt64} :
    checkedMul? left right = some product ↔ left.toNat * right.toNat = product.toNat := by
  rw [checkedMul?, Option.ite_none_right_eq_some, Option.some.injEq]
  constructor
  · rintro ⟨hsize, rfl⟩
    rw [UInt64.toNat_mul, Nat.mod_eq_of_lt hsize]
  · intro h
    have hsize : left.toNat * right.toNat < UInt64.size := h ▸ product.toNat_lt
    refine ⟨hsize, UInt64.toNat_inj.mp ?_⟩
    rw [UInt64.toNat_mul, Nat.mod_eq_of_lt hsize, h]

/-- The steps of the reader, each of which may stop it, come to one bound on the hours. -/
theorem parseLifetime?_eq_some_iff_exists :
    parseLifetime? text = some lifetime ↔ ∃ hours : UInt64,
      parseCount? (Text.trimList text.toList) = some hours ∧ 1 ≤ hours.toNat ∧
        3600 * hours.toNat ≤ 2 ^ 63 - 1 ∧ lifetime = 3600 * hours.toNat := by
  have hrate : (3600 : UInt64).toNat = 3600 := rfl
  have hpositive (hours : UInt64) : 0 < hours ↔ 1 ≤ hours.toNat := UInt64.lt_iff_toNat_lt
  simp only [parseLifetime?, Option.bind_eq_bind, Option.bind_eq_some_iff, Option.guard_eq_some',
    checkedMul?_eq_some_iff, hrate, hpositive, Option.pure_def, Option.some.injEq]
  constructor
  · rintro ⟨hours, hcount, -, hpos, seconds, hseconds, -, hfits, rfl⟩
    exact ⟨hours, hcount, hpos, by omega, by omega⟩
  · rintro ⟨hours, hcount, hpos, hfits, rfl⟩
    have hseconds : (UInt64.ofNat (hours.toNat * 3600)).toNat = hours.toNat * 3600 :=
      UInt64.toNat_ofNat_of_lt' (by rw [UInt64.size]; omega)
    exact ⟨hours, hcount, (), hpos, _, hseconds.symm, (), by omega, by omega⟩

theorem parseLifetime?_eq_some_iff :
    parseLifetime? text = some lifetime ↔ ∃ hours, Grants text hours ∧ lifetime = 3600 * hours := by
  rw [parseLifetime?_eq_some_iff_exists]
  constructor
  · rintro ⟨hours, hcount, hpos, hfits, hlifetime⟩
    obtain ⟨lead, trail, hlead, htrail, htext⟩ := Text.exists_eq_append_trimList text.toList
    exact ⟨hours.toNat,
      ⟨⟨lead, _, trail, hlead, htrail, parseCount?_eq_some_iff.mp hcount, htext⟩, hpos, hfits⟩,
      hlifetime⟩
  · rintro ⟨hours, ⟨⟨lead, chars, trail, hlead, htrail, hcount, htext⟩, hpos, hfits⟩, rfl⟩
    -- A number of hours that is granted is one that 64 bits hold.
    have hnumber : (UInt64.ofNat hours).toNat = hours :=
      UInt64.toNat_ofNat_of_lt' (by rw [UInt64.size]; omega)
    refine ⟨UInt64.ofNat hours, ?_, by rwa [hnumber], by rwa [hnumber], by rw [hnumber]⟩
    rw [htext, Text.trimList_append hlead htrail hcount.isTrimmed]
    exact parseCount?_eq_some_iff.mpr (hnumber.symm ▸ hcount)

theorem parseLifetime_eq_ok_iff :
    parseLifetime text = .ok lifetime ↔ ∃ hours, Grants text hours ∧ lifetime = 3600 * hours := by
  rw [← parseLifetime?_eq_some_iff, parseLifetime]
  cases parseLifetime? text <;> simp

theorem parseLifetime_eq_error_iff {error : ConfigError} :
    parseLifetime text = .error error ↔
      (∀ hours, ¬Grants text hours) ∧ error = .invalid hoursVariable text := by
  have hnone : parseLifetime? text = none ↔ ∀ hours, ¬Grants text hours := by
    rw [Option.eq_none_iff_forall_ne_some]
    constructor
    · exact fun h hours hgrants => h _ (parseLifetime?_eq_some_iff.mpr ⟨hours, hgrants, rfl⟩)
    · rintro h lifetime hlifetime
      obtain ⟨hours, hgrants, -⟩ := parseLifetime?_eq_some_iff.mp hlifetime
      exact h hours hgrants
  rw [← hnone, parseLifetime]
  cases parseLifetime? text with
  | none => simp [eq_comm]
  | some lifetime => simp

/-! ### Tokens -/

theorem ofSecret_eq {secret : Bytes} (h : secret ≠ []) (lifetime : Nat) :
    SessionService.ofSecret secret lifetime = .ok ⟨some ⟨secret, h⟩, lifetime⟩ :=
  dif_pos h

theorem le_of_parseLifetime (h : parseLifetime text = .ok lifetime) :
    (lifetime : Int) ≤ 2 ^ 63 - 1 := by
  obtain ⟨hours, hgrants, rfl⟩ := parseLifetime_eq_ok_iff.mp h
  have hfits := hgrants.fits
  omega

/-- A lifetime is what a text grants in hours, and every other text is an error that quotes it. With
a lifetime that is granted, tokens are issued under every key, to everybody, for every payload and
at any time; they expire that much later, or at the last time that can be written, and never before
they are issued. -/
theorem parseLifetime_issue (text : String) :
    (∀ lifetime, parseLifetime text = .ok lifetime ↔
      ∃ hours, Grants text hours ∧ lifetime = 3600 * hours) ∧
    (∀ error, parseLifetime text = .error error ↔
      (∀ hours, ¬Grants text hours) ∧ error = .invalid "JWT_EXPIRY_HOURS" text) ∧
    ∀ lifetime, parseLifetime text = .ok lifetime →
      ∀ (secret : Bytes) (identifier : String) (payload : ClaimMap) (now : Int64),
        secret ≠ [] → identifier ≠ "" →
          ∃ service token, SessionService.ofSecret secret lifetime = .ok service ∧
            service.issue identifier payload now = .ok token ∧
            SessionToken.Carries token identifier now.toInt
              (min (now.toInt + lifetime) (2 ^ 63 - 1)) ∧
            now.toInt ≤ min (now.toInt + lifetime) (2 ^ 63 - 1) := by
  refine ⟨fun _ => parseLifetime_eq_ok_iff, fun _ => parseLifetime_eq_error_iff, ?_⟩
  intro lifetime hlifetime secret identifier payload now hsecret hidentifier
  have hlast := now.toInt_lt
  refine ⟨_, _, ofSecret_eq hsecret lifetime,
    SessionService.issue_eq rfl (le_of_parseLifetime hlifetime) hidentifier,
    SessionService.carries_encode _ identifier payload now secret, ?_⟩
  apply le_min
  · omega
  · omega

/-- The most hours that fit, written in an odd way, and a token that would outlive the last time. -/
theorem parseLifetime_issue_last :
    parseLifetime "\t +0002562047788015215\n" = .ok 9223372036854774000 ∧
      parseLifetime "2562047788015216" =
        .error (.invalid "JWT_EXPIRY_HOURS" "2562047788015216") ∧
      ∃ service token, SessionService.ofSecret [107] 9223372036854774000 = .ok service ∧
        service.issue "a" [("exp", .integer (-1))] 2000 = .ok token ∧
        SessionToken.Carries token "a" 2000 (2 ^ 63 - 1) := by
  have hdigits : DigitsOf 2562047788015215 "0002562047788015215".toList :=
    ⟨by decide, by simp [IsDigit], by rw [← foldl_eq_ofDigits]; rfl⟩
  have hlead : IsBlankText ['\t', ' '] := by simp [IsBlankText, Text.isBlank, Text.blankRanges]
  have htrail : IsBlankText ['\n'] := by simp [IsBlankText, Text.isBlank, Text.blankRanges]
  have hgrants : Grants "\t +0002562047788015215\n" 2562047788015215 :=
    ⟨⟨_, _, _, hlead, htrail, ⟨_, hdigits, Or.inr rfl⟩, rfl⟩, by decide, by decide⟩
  obtain ⟨hok, -, hissue⟩ := parseLifetime_issue "\t +0002562047788015215\n"
  have hlifetime := (hok 9223372036854774000).mpr ⟨_, hgrants, rfl⟩
  obtain ⟨service, token, hservice, htoken, hcarries, -⟩ :=
    hissue _ hlifetime [107] "a" [("exp", .integer (-1))] 2000 (by decide) (by decide)
  refine ⟨hlifetime, rfl, service, token, hservice, htoken, hcarries⟩

/-! ### Environments -/

section Environment

variable {environment : Environment} {key : String}

/-- Without a key there are no settings, whatever the lifetime is. -/
theorem ofEnvironment_of_missing
    (h : ∀ key, key ≠ "" → environment keyVariable ≠ some (Bytes.ofString key)) :
    ofEnvironment environment = .error (.missing keyVariable) := by
  have hempty : ((environment.text? keyVariable).getD "").isEmpty = true := by
    cases htext : environment.text? keyVariable with
    | none => rfl
    | some key =>
        by_cases hkey : key = ""
        · rw [hkey]
          rfl
        · exact absurd (Environment.text?_eq_some_iff.mp htext) (h key hkey)
  simp only [ofEnvironment, hempty, if_true]
  rfl

theorem ofEnvironment_of_key (hkey : key ≠ "")
    (hset : environment keyVariable = some (Bytes.ofString key)) :
    ofEnvironment environment =
      match environment.text? hoursVariable with
      | none => .ok ⟨key, SessionService.defaultLifetime⟩
      | some text => (parseLifetime text).map fun lifetime => ⟨key, lifetime⟩ := by
  have hempty : key.isEmpty = false := by simpa using hkey
  simp only [ofEnvironment, Environment.text?_eq_some_iff.mpr hset, Option.getD_some, hempty]
  cases environment.text? hoursVariable with
  | none => rfl
  | some text => cases parseLifetime text <;> rfl

/-- Settings always have a key, and a lifetime that can be written. -/
theorem bounds_of_ofEnvironment {settings : SessionSettings}
    (h : ofEnvironment environment = .ok settings) :
    settings.signingKey ≠ "" ∧ (settings.lifetime : Int) ≤ 2 ^ 63 - 1 := by
  by_cases hmissing : ∀ key, key ≠ "" → environment keyVariable ≠ some (Bytes.ofString key)
  · rw [ofEnvironment_of_missing hmissing] at h
    exact absurd h (by simp)
  · push Not at hmissing
    obtain ⟨key, hkey, hset⟩ := hmissing
    rw [ofEnvironment_of_key hkey hset] at h
    cases hhours : environment.text? hoursVariable with
    | none =>
        rw [hhours] at h
        obtain rfl := Except.ok.inj h
        exact ⟨hkey, (by decide : ((604800 : Nat) : Int) ≤ 2 ^ 63 - 1)⟩
    | some text =>
        rw [hhours] at h
        cases hlifetime : parseLifetime text with
        | error error => simp [hlifetime, Except.map] at h
        | ok lifetime =>
            simp only [hlifetime, Except.map, Except.ok.injEq] at h
            subst h
            exact ⟨hkey, le_of_parseLifetime hlifetime⟩

section Key

variable (hkey : key ≠ "") (hset : environment keyVariable = some (Bytes.ofString key))

include hkey hset

theorem ofEnvironment_of_none (h : environment.text? hoursVariable = none) :
    ofEnvironment environment = .ok ⟨key, 604800⟩ := by
  rw [ofEnvironment_of_key hkey hset, h]
  rfl

variable {text : String} (hhours : environment hoursVariable = some (Bytes.ofString text))

include hhours

theorem ofEnvironment_of_grants {hours : Nat} (h : Grants text hours) :
    ofEnvironment environment = .ok ⟨key, 3600 * hours⟩ := by
  rw [ofEnvironment_of_key hkey hset, Environment.text?_eq_some_iff.mpr hhours]
  simp only [parseLifetime_eq_ok_iff.mpr ⟨hours, h, rfl⟩, Except.map]

theorem ofEnvironment_of_not_grants (h : ∀ hours, ¬Grants text hours) :
    ofEnvironment environment = .error (.invalid hoursVariable text) := by
  rw [ofEnvironment_of_key hkey hset, Environment.text?_eq_some_iff.mpr hhours]
  simp only [parseLifetime_eq_error_iff.mpr ⟨h, rfl⟩, Except.map]

/-- Of the texts, only those that grant the hours of a week give the same as no lifetime at all. -/
theorem ofEnvironment_eq_week_iff :
    ofEnvironment environment = .ok ⟨key, 604800⟩ ↔ Grants text 168 := by
  constructor
  · intro hweek
    by_cases hnone : ∀ hours, ¬Grants text hours
    · rw [ofEnvironment_of_not_grants hkey hset hhours hnone] at hweek
      exact absurd hweek (by simp)
    · obtain ⟨hours, hgrants⟩ := not_forall_not.mp hnone
      rw [ofEnvironment_of_grants hkey hset hhours hgrants] at hweek
      have hseconds : 3600 * hours = 604800 := congrArg lifetime (Except.ok.inj hweek)
      obtain rfl : hours = 168 := by omega
      exact hgrants
  · exact fun h => ofEnvironment_of_grants hkey hset hhours h

end Key

/-- The lifetime that an environment asks for. A text is taken at its word, or refused; what is not
text is passed over, as if nothing had been asked for. So sessions of a week are had by asking for
nothing, by asking for a week, and by asking for what cannot be read. Without a key nothing is
had. -/
theorem ofEnvironment_lifetime (environment : Environment) :
    ((∀ key, key ≠ "" → environment "LN_JWT_KEY" ≠ some (Bytes.ofString key)) →
      ofEnvironment environment = .error (.missing "LN_JWT_KEY")) ∧
    ∀ key, key ≠ "" → environment "LN_JWT_KEY" = some (Bytes.ofString key) →
      (∀ text, environment "JWT_EXPIRY_HOURS" = some (Bytes.ofString text) →
        (∀ hours, Grants text hours → ofEnvironment environment = .ok ⟨key, 3600 * hours⟩) ∧
        ((∀ hours, ¬Grants text hours) →
          ofEnvironment environment = .error (.invalid "JWT_EXPIRY_HOURS" text))) ∧
      (environment.IsUnreadable "JWT_EXPIRY_HOURS" →
        ofEnvironment environment = .ok ⟨key, 604800⟩) ∧
      (ofEnvironment environment = .ok ⟨key, 604800⟩ ↔
        environment "JWT_EXPIRY_HOURS" = none ∨ environment.IsUnreadable "JWT_EXPIRY_HOURS" ∨
          ∃ text, environment "JWT_EXPIRY_HOURS" = some (Bytes.ofString text) ∧
            Grants text 168) := by
  refine ⟨ofEnvironment_of_missing, fun key hkey hset => ⟨?_, ?_, ?_⟩⟩
  · intro text hhours
    exact ⟨fun _ => ofEnvironment_of_grants hkey hset hhours,
      ofEnvironment_of_not_grants hkey hset hhours⟩
  · intro hunread
    exact ofEnvironment_of_none hkey hset (Environment.text?_eq_none_iff.mpr (Or.inr hunread))
  · rw [← or_assoc]
    change _ ↔ (environment hoursVariable = none ∨ environment.IsUnreadable hoursVariable) ∨ _
    rw [← Environment.text?_eq_none_iff]
    constructor
    · intro hweek
      cases htext : environment.text? hoursVariable with
      | none => exact Or.inl rfl
      | some text =>
          have hhours := Environment.text?_eq_some_iff.mp htext
          exact Or.inr ⟨text, hhours, (ofEnvironment_eq_week_iff hkey hset hhours).mp hweek⟩
    · rintro (hnone | ⟨text, hhours, hgrants⟩)
      · exact ofEnvironment_of_none hkey hset hnone
      · exact ofEnvironment_of_grants hkey hset hhours hgrants

/-- A lifetime of one stray byte, next to one of a day, to one of nothing and to a missing key. -/
theorem ofEnvironment_lifetime_stray :
    let keyed := Environment.empty.set "LN_JWT_KEY" (Bytes.ofString "k")
    ofEnvironment (keyed.set "JWT_EXPIRY_HOURS" [255]) = .ok ⟨"k", 604800⟩ ∧
      ofEnvironment (keyed.set "JWT_EXPIRY_HOURS" (Bytes.ofString "24")) = .ok ⟨"k", 86400⟩ ∧
      ofEnvironment (keyed.set "JWT_EXPIRY_HOURS" (Bytes.ofString "0")) =
        .error (.invalid "JWT_EXPIRY_HOURS" "0") ∧
      ofEnvironment (Environment.empty.set "JWT_EXPIRY_HOURS" (Bytes.ofString "24")) =
        .error (.missing "LN_JWT_KEY") := by
  intro keyed
  have hstray : ∀ text, [255] ≠ Bytes.ofString text := by
    intro text htext
    have hread : Bytes.toString? [255] = some text := htext ▸ Bytes.toString?_ofString text
    exact absurd hread (by rw [show Bytes.toString? [255] = none by decide +kernel]; simp)
  have hday : Grants "24" 24 :=
    ⟨⟨[], _, [], by simp [IsBlankText], by simp [IsBlankText],
      ⟨"24".toList, ⟨by decide, by simp [IsDigit], rfl⟩, Or.inl rfl⟩, rfl⟩, by decide, by decide⟩
  have hzero : ∀ hours, ¬Grants "0" hours :=
    (parseLifetime_eq_error_iff.mp (show parseLifetime "0" = .error (.invalid _ "0") from rfl)).left
  obtain ⟨-, hset⟩ := ofEnvironment_lifetime (keyed.set "JWT_EXPIRY_HOURS" [255])
  obtain ⟨-, hunread, -⟩ := hset "k" (by decide) rfl
  obtain ⟨-, hset⟩ := ofEnvironment_lifetime (keyed.set "JWT_EXPIRY_HOURS" (Bytes.ofString "24"))
  obtain ⟨hgranted, -⟩ := hset "k" (by decide) rfl
  obtain ⟨-, hset⟩ := ofEnvironment_lifetime (keyed.set "JWT_EXPIRY_HOURS" (Bytes.ofString "0"))
  obtain ⟨hrefused, -⟩ := hset "k" (by decide) rfl
  obtain ⟨hmissing, -⟩ :=
    ofEnvironment_lifetime (Environment.empty.set "JWT_EXPIRY_HOURS" (Bytes.ofString "24"))
  exact ⟨hunread ⟨_, rfl, hstray⟩, (hgranted "24" rfl).left 24 hday, (hrefused "0" rfl).right hzero,
    hmissing fun _ _ hkey => absurd (show none = some _ from hkey) (by simp)⟩

end Environment

end SessionSettings

end WalletAuth
