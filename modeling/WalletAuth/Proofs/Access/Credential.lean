import Mathlib.Data.Bool.AllAny
import WalletAuth.Access.Credential
import WalletAuth.Proofs.Http.Form
import WalletAuth.Proofs.Http.Target

/-! Where the credential of a request comes from. The first header field for it decides, readable or
not; only without one does the query count, and then the name has to come exactly once. -/

namespace WalletAuth

open Http (Header Headers Target)
open Http.Form (Spells)

variable {token : String}

/-! ### Header fields -/

section HeaderFields

variable {headers : Headers} {name : String} {value : Bytes}

theorem Http.Headers.first?_append {before after : Headers}
    (h : ∀ header ∈ before, header.name ≠ name) :
    Headers.first? (before ++ ⟨name, value⟩ :: after) name = some value := by
  have hnone : before.find? (fun header => header.name == name) = none :=
    List.find?_eq_none.mpr fun header hheader => by simpa using h header hheader
  simp [Headers.first?, List.find?_append, hnone]

theorem Http.Headers.first?_eq_none (h : ∀ header ∈ headers, header.name ≠ name) :
    Headers.first? headers name = none := by
  rw [Headers.first?, Option.map_eq_none_iff, List.find?_eq_none]
  exact fun header hheader => by simpa using h header hheader

theorem isReadable_iff :
    Header.isReadable value = true ↔ ∀ char ∈ value, char = 9 ∨ 32 ≤ char ∧ char < 127 := by
  simp [Header.isReadable]

/-- A value that can be read is the text that it spells. -/
theorem headerToken?_eq_some_iff :
    headerToken? value = some token ↔
      Bytes.ofString token = value ∧ token ≠ "" ∧
        ∀ char ∈ value, char = 9 ∨ 32 ≤ char ∧ char < 127 := by
  have hascii : Header.isReadable value = true → ∀ char ∈ value, char < 128 := by
    intro hreadable char hchar
    rcases isReadable_iff.mp hreadable char hchar with rfl | ⟨-, hlt⟩
    · decide
    · exact UInt8.lt_trans hlt (by decide)
  rw [headerToken?, Option.ite_none_right_eq_some, ← isReadable_iff, Option.some.injEq]
  constructor
  · rintro ⟨⟨hne, hreadable⟩, rfl⟩
    have hbytes : Bytes.ofString (Bytes.toAscii value) = value :=
      Bytes.ofString_toAscii (hascii hreadable)
    exact ⟨hbytes, mt Bytes.ofString_eq_nil_iff.mpr (hbytes.symm ▸ hne), hreadable⟩
  · rintro ⟨rfl, hne, hreadable⟩
    exact ⟨⟨mt Bytes.ofString_eq_nil_iff.mp hne, hreadable⟩,
      Bytes.toAscii_ofString (hascii hreadable)⟩

/-- Visible text may stand in a header field. -/
theorem ofBytes?_of_visible (h : ∀ char ∈ Bytes.ofString token, 32 < char ∧ char < 127) :
    Http.Header.ofBytes? (Bytes.ofString tokenName) (Bytes.ofString token) =
      some ⟨tokenName, Bytes.ofString token⟩ := by
  have hvalue : (Bytes.ofString token).all Http.Header.isValueChar = true := by
    rw [List.all_eq_true]
    intro char hchar
    obtain ⟨hlower, hupper⟩ := h char hchar
    simp [Http.Header.isValueChar, UInt8.le_of_lt hlower, UInt8.ne_of_lt hupper]
  exact if_pos ⟨by decide, by decide, by decide, hvalue⟩

/-- Visible text is read from a header field as it was sent. -/
theorem headerToken?_of_visible (hne : Bytes.ofString token ≠ [])
    (h : ∀ char ∈ Bytes.ofString token, 32 < char ∧ char < 127) :
    headerToken? (Bytes.ofString token) = some token :=
  headerToken?_eq_some_iff.mpr ⟨rfl, mt Bytes.ofString_eq_nil_iff.mpr hne, fun char hchar =>
    Or.inr ⟨UInt8.le_of_lt (h char hchar).left, (h char hchar).right⟩⟩

end HeaderFields

/-! ### Queries -/

section Queries

variable {query spelled bytes text : Bytes} {target : Target}

theorem queryToken?_eq_some_iff :
    queryToken? query = some token ↔
      token ≠ "" ∧ Http.Form.only? tokenName (Http.Form.parse query) = some token := by
  rw [queryToken?, Option.filter_eq_some_iff]
  simp [and_comm]

/-- A form of one pair for the credential, however its value is spelled. -/
theorem parse_spelled (h : Spells spelled bytes) :
    Http.Form.parse (Bytes.ofString "token=" ++ spelled) =
      [(tokenName, Bytes.toStringLossy bytes)] := by
  have hname : Http.Form.decode (Bytes.ofString tokenName) = tokenName := by
    have hself : Spells (Bytes.ofString tokenName) (Bytes.ofString tokenName) :=
      Http.Form.spells_self (List.all_iff_forall_prop.mp (by decide))
    rw [hself.decode_eq, Bytes.toStringLossy_ofString]
  have hjoin : 38 ∉ Bytes.ofString "token=" ++ spelled := by
    rw [List.mem_append, not_or]
    exact ⟨by decide, fun hmem => (h.isQueryChar 38 hmem).right rfl⟩
  have hpart : Bytes.ofString "token=" ++ spelled = Bytes.ofString tokenName ++ 61 :: spelled := rfl
  have hequals : ∀ char ∈ Bytes.ofString tokenName, char ≠ 61 :=
    List.all_iff_forall_prop.mp (by decide)
  rw [Http.Form.parse_of_notMem (by simp [hpart]) hjoin, hpart, Http.Form.pair_eq hequals, hname,
    h.decode_eq]

theorem queryToken?_spelled (h : Spells spelled (Bytes.ofString token)) (hne : token ≠ "") :
    queryToken? (Bytes.ofString "token=" ++ spelled) = some token := by
  rw [queryToken?_eq_some_iff, parse_spelled h, Bytes.toStringLossy_ofString,
    Http.Form.only?_eq_some_iff]
  exact ⟨hne, [], [], rfl, by simp⟩

/-! ### Targets -/

theorem presentedToken?_of_first {headers : Headers} {value : Bytes}
    (h : headers.first? tokenName = some value) (target : Target) :
    presentedToken? headers target = headerToken? value := by
  rw [presentedToken?, h]

theorem presentedToken?_of_none {headers : Headers} (h : headers.first? tokenName = none)
    (target : Target) : presentedToken? headers target = queryToken? (target.query.getD []) := by
  rw [presentedToken?, h]

theorem isQueryChar_of_mem (h : Spells spelled bytes) :
    ∀ char ∈ Bytes.ofString "token=" ++ spelled, Target.isQueryChar char = true :=
  List.forall_mem_append.mpr
    ⟨List.all_eq_true.mp (by decide), fun char hchar => (h.isQueryChar char hchar).left⟩

/-- A credential in the query is presented as it is meant, whatever stands in front of the query. -/
theorem presentedToken?_of_parse? {headers : Headers} {path : Bytes}
    (hheaders : headers.first? tokenName = none) (hpath : ∀ char ∈ path, ¬Target.EndsPath char)
    (hspelled : Spells spelled (Bytes.ofString token)) (hne : token ≠ "")
    (hparse : Target.parse? (path ++ Bytes.ofString "?token=" ++ spelled) = some target) :
    presentedToken? headers target = some token := by
  have hends : Target.EndsIn (Bytes.ofString "token=" ++ spelled)
      (path ++ Bytes.ofString "?token=" ++ spelled) :=
    ⟨fun char hchar => Target.ne_of_isQueryChar (isQueryChar_of_mem hspelled char hchar),
      path, hpath, List.append_assoc path _ _⟩
  rw [presentedToken?_of_none hheaders, Target.query_of_parse? hends hparse, Option.getD_some,
    queryToken?_spelled hspelled hne]

/-- A path with a credential in its query is a target if it is text and not too long. -/
theorem exists_parse?_spelled_iff {path : Bytes} (hpath : ∀ char ∈ path, Target.isPathChar char = true)
    (hspelled : Spells spelled bytes) :
    (∃ target, Target.parse? (47 :: path ++ Bytes.ofString "?token=" ++ spelled) = some target) ↔
      (47 :: path ++ Bytes.ofString "?token=" ++ spelled).length ≤ 65534 ∧
        Bytes.IsText (47 :: path ++ Bytes.ofString "?token=" ++ spelled) := by
  have htext : 47 :: path ++ Bytes.ofString "?token=" ++ spelled =
      47 :: path ++ 63 :: (Bytes.ofString "token=" ++ spelled) := List.append_assoc (47 :: path) _ _
  rw [htext]
  exact Target.exists_parse?_iff hpath (isQueryChar_of_mem hspelled)

end Queries

/-- The credential of a request is the value of its first header field of that name, if it is not empty
and can be read; the target has no say then, nor have later fields. Without such a field it is the
value of the only pair of that name in the query, if it is not empty; other pairs have no say, however
many there are and wherever they stand. So every text but the empty one can be presented in a query,
with as many of its bytes percent encoded as need be. -/
theorem presentedToken?_eq_some_iff (headers : Headers) :
    (∀ before value after, headers = before ++ ⟨"token", value⟩ :: after →
      (∀ header ∈ before, header.name ≠ "token") →
      ∀ target token, presentedToken? headers target = some token ↔
        Bytes.ofString token = value ∧ value ≠ [] ∧
          ∀ char ∈ value, char = 9 ∨ 32 ≤ char ∧ char < 127) ∧
    ((∀ header ∈ headers, header.name ≠ "token") →
      (∀ target token, presentedToken? headers target = some token ↔
        token ≠ "" ∧ ∃ before after,
          Http.Form.parse (target.query.getD []) = before ++ ("token", token) :: after ∧
            ∀ pair ∈ before ++ after, pair.1 ≠ "token") ∧
      (∀ target other,
        ((Http.Form.parse (target.query.getD [])).filter fun pair => pair.1 == "token").Perm
          ((Http.Form.parse (other.query.getD [])).filter fun pair => pair.1 == "token") →
        presentedToken? headers target = presentedToken? headers other) ∧
      (∀ path token spelled target, (∀ char ∈ path, ¬Target.EndsPath char) → token ≠ "" →
        Spells spelled (Bytes.ofString token) →
        Target.parse? (path ++ Bytes.ofString "?token=" ++ spelled) = some target →
        presentedToken? headers target = some token)) ∧
    (∀ bytes, Spells (Percent.encode bytes) bytes ∧ Bytes.IsText (Percent.encode bytes)) ∧
    ∀ path spelled bytes, (∀ char ∈ path, Target.isPathChar char = true) → Spells spelled bytes →
      ((∃ target, Target.parse? (47 :: path ++ Bytes.ofString "?token=" ++ spelled) = some target) ↔
        (47 :: path ++ Bytes.ofString "?token=" ++ spelled).length ≤ 65534 ∧
          Bytes.IsText (47 :: path ++ Bytes.ofString "?token=" ++ spelled)) := by
  refine ⟨?_, ?_, fun bytes => ⟨Http.Form.spells_encode bytes, Http.Form.isText_encode bytes⟩,
    fun path spelled bytes => exists_parse?_spelled_iff⟩
  · rintro before value after rfl hbefore target token
    have hfirst : Headers.first? (before ++ ⟨"token", value⟩ :: after) tokenName = some value :=
      Headers.first?_append hbefore
    rw [presentedToken?_of_first hfirst, headerToken?_eq_some_iff]
    constructor
    · rintro ⟨rfl, hne, hreadable⟩
      exact ⟨rfl, mt Bytes.ofString_eq_nil_iff.mp hne, hreadable⟩
    · rintro ⟨rfl, hne, hreadable⟩
      exact ⟨rfl, mt Bytes.ofString_eq_nil_iff.mpr hne, hreadable⟩
  · intro hnone
    have hheaders : headers.first? tokenName = none := Headers.first?_eq_none hnone
    refine ⟨?_, ?_, ?_⟩
    · intro target token
      rw [presentedToken?_of_none hheaders, queryToken?_eq_some_iff, Http.Form.only?_eq_some_iff,
        tokenName]
    · intro target other hpairs
      rw [presentedToken?_of_none hheaders, presentedToken?_of_none hheaders, queryToken?,
        queryToken?, tokenName, Http.Form.only?_eq_of_perm hpairs]
    · intro path token spelled target hpath hne hspelled hparse
      exact presentedToken?_of_parse? hheaders hpath hspelled hne hparse

/-- A later field and a query that are not looked at, a field that cannot be read, a name that is
spelled with a percent sign, and a text that is percent encoded. -/
theorem presentedToken?_eq_some_iff_spelled :
    presentedToken? [⟨"token", [97, 32]⟩, ⟨"token", [98]⟩] ⟨[47], some (Bytes.ofString "token=c")⟩ =
        some "a " ∧
      presentedToken? [⟨"token", [195]⟩] ⟨[47], some (Bytes.ofString "token=c")⟩ = none ∧
      presentedToken? [] ⟨[47], some (Bytes.ofString "a=1&tok%65n=x+y&b")⟩ = some "x y" ∧
      ∃ target, Target.parse? (Bytes.ofString "/x?token=%c3%A9%2b") = some target ∧
        presentedToken? [] target = some "é+" := by
  obtain ⟨hheader, -⟩ :=
    presentedToken?_eq_some_iff [⟨"token", [97, 32]⟩, ⟨"token", [98]⟩]
  obtain ⟨hdamaged, -⟩ := presentedToken?_eq_some_iff [⟨"token", [195]⟩]
  obtain ⟨-, hquery, -⟩ := presentedToken?_eq_some_iff []
  obtain ⟨hpairs, -, hspelled⟩ := hquery (by simp)
  have hspells : Spells (Bytes.ofString "%c3%A9%2b") (Bytes.ofString "é+") :=
    .percent rfl rfl (.percent rfl rfl (.percent rfl rfl .nil))
  refine ⟨?_, ?_, ?_, ?_⟩
  · exact (hheader [] _ _ rfl (by simp) _ _).mpr
      ⟨by decide, by decide, isReadable_iff.mp (by decide)⟩
  · rw [Option.eq_none_iff_forall_not_mem]
    intro token htoken
    obtain ⟨-, -, hreadable⟩ := (hdamaged [] _ _ rfl (by simp) _ token).mp htoken
    exact absurd (hreadable 195 List.mem_cons_self) (by decide)
  · exact (hpairs _ _).mpr ⟨by decide, [("a", "1")], [("b", "")], by decide +kernel, by decide⟩
  · have hparse : Target.parse? (Bytes.ofString "/x" ++ Bytes.ofString "?token=" ++
        Bytes.ofString "%c3%A9%2b") =
          some ⟨Bytes.ofString "/x", some (Bytes.ofString "token=%c3%A9%2b")⟩ := by decide +kernel
    have hpath : ∀ char ∈ Bytes.ofString "/x", ¬Target.EndsPath char :=
      List.all_iff_forall_prop.mp (by decide)
    exact ⟨_, hparse, hspelled _ _ _ _ hpath (by decide) hspells hparse⟩

end WalletAuth
