import Mathlib.Data.Set.Insert
import WalletAuth.Access.Policy
import WalletAuth.Proofs.Settings.Admins

/-! Who passes for an admin under settings that were read from text. Everybody does if the list has
no entry and nothing stands in for it, or only the development pass stands in for a text that was
empty; else exactly those in the list do, or the development pass alone if it stands in for a text
that has no entry. An environment can open the routes with a list that is there and has entries: one
that is not text is read as if it were not there. -/

namespace WalletAuth

theorem Bytes.toStringLossy_of_toString? {bytes : Bytes} {text : String}
    (h : toString? bytes = some text) : toStringLossy bytes = text := by
  rw [toStringLossy, h]

namespace AuthSettings

variable {settings : AuthSettings} {pubkey : String}

theorem authorizeAdmin_eq_ok_iff :
    settings.authorizeAdmin pubkey = .ok () ↔
      settings.freePass = true ∨ settings.isAdmin pubkey = true := by
  rw [authorizeAdmin]
  split
  · rename_i h
    exact iff_of_true rfl (Bool.or_eq_true_iff.mp h)
  · rename_i h
    exact iff_of_false (by simp) (mt Bool.or_eq_true_iff.mpr h)

/-- Without the free pass, who is not in the list is refused. -/
theorem authorizeAdmin_of_notMem (hpass : settings.freePass = false)
    (hpubkey : pubkey ∉ settings.admins) :
    settings.authorizeAdmin pubkey = .error .authorizationDenied := by
  have hadmin : settings.isAdmin pubkey = false := by
    rw [isAdmin, Bool.and_eq_false_iff]
    exact Or.inr (by simpa using hpubkey)
  rw [authorizeAdmin, hpass, hadmin]
  rfl

/-! ### Who is let through -/

/-- The keys that pass for an admin. -/
def admitted (settings : AuthSettings) : Set String :=
  {pubkey | settings.authorizeAdmin pubkey = .ok ()}

theorem mem_admitted_iff :
    pubkey ∈ settings.admitted ↔ settings.freePass = true ∨ settings.isAdmin pubkey = true :=
  authorizeAdmin_eq_ok_iff

theorem isAdmin_iff : settings.isAdmin pubkey = true ↔ pubkey ≠ "" ∧ pubkey ∈ settings.admins := by
  simp [isAdmin]

/-- Nobody is refused for another reason. -/
theorem authorizeAdmin_of_notMem_admitted (h : pubkey ∉ settings.admitted) :
    settings.authorizeAdmin pubkey = .error .authorizationDenied := by
  rw [mem_admitted_iff, ← Bool.or_eq_true_iff] at h
  rw [authorizeAdmin, if_neg h]

/-- Only the free pass lets everybody through: the empty key is no admin. -/
theorem admitted_eq_univ_iff : settings.admitted = Set.univ ↔ settings.freePass = true := by
  constructor
  · intro h
    have hempty : "" ∈ settings.admitted := h ▸ Set.mem_univ ""
    rcases mem_admitted_iff.mp hempty with hpass | hadmin
    · exact hpass
    · exact absurd rfl (isAdmin_iff.mp hadmin).left
  · intro h
    exact Set.eq_univ_of_forall fun pubkey => mem_admitted_iff.mpr (Or.inl h)

/-- Without the free pass, a list whose entries are not empty is let through as it is. -/
theorem admitted_of_admins (hpass : settings.freePass = false)
    (hentries : ∀ entry ∈ settings.admins, entry ≠ "") :
    settings.admitted = {pubkey | pubkey ∈ settings.admins} := by
  ext pubkey
  rw [mem_admitted_iff, hpass, isAdmin_iff, Set.mem_ofPred_eq]
  constructor
  · rintro (habsurd | ⟨-, hmem⟩)
    · exact absurd habsurd Bool.false_ne_true
    · exact hmem
  · exact fun hmem => Or.inr ⟨hentries pubkey hmem, hmem⟩

/-! ### Settings from text -/

section Text

variable {adminText devPass secret : String}

theorem admins_ofText (h : Admins.parse adminText ≠ []) :
    (ofText adminText devPass secret).admins = Admins.parse adminText := by
  simp [ofText, h]

/-- When everybody passes for an admin. -/
theorem freePass_ofText_iff :
    (ofText adminText devPass secret).freePass = true ↔
      Admins.parse adminText = [] ∧ (adminText = "" ∨ devPass = "") := by
  by_cases hnone : Admins.parse adminText = []
  · by_cases hpass : devPass = ""
    · simp [ofText, freePass, hnone, hpass]
    · simp [ofText, freePass, hnone, hpass]
  · have htext : adminText ≠ "" := by
      rintro rfl
      exact hnone rfl
    refine iff_of_false ?_ fun h => hnone h.left
    rw [freePass, admins_ofText hnone]
    cases hadmins : Admins.parse adminText with
    | nil => exact absurd hadmins hnone
    | cons first others =>
        cases others with
        | nil => simp [ofText, htext]
        | cons second others => simp

theorem freePass_ofText_eq_false
    (h : ¬(Admins.parse adminText = [] ∧ (adminText = "" ∨ devPass = ""))) :
    (ofText adminText devPass secret).freePass = false := by
  rwa [← Bool.not_eq_true, freePass_ofText_iff]

/-- The development pass stands in for a list without entries. -/
theorem admins_ofText_of_nil (hnone : Admins.parse adminText = []) (hpass : devPass ≠ "") :
    (ofText adminText devPass secret).admins = [devPass] := by
  simp [ofText, hnone, hpass]

theorem ne_empty_of_mem_parse {entry : String} (h : entry ∈ Admins.parse adminText) : entry ≠ "" :=
  (Admins.isEntry_of_mem_parse h).ne_empty

/-- Everybody is let through exactly under the free pass: there is no entry, and the text is empty or
nothing stands in for it. A text that is not empty but has no entry leaves the development pass as
the only admin, and a list with entries is let through as it stands, even if the development pass
is all there is in it. Everybody else is told that it is no admin. -/
theorem admitted_ofText (adminText devPass secret : String) :
    ((ofText adminText devPass secret).admitted = Set.univ ↔
      Admins.parse adminText = [] ∧ (adminText = "" ∨ devPass = "")) ∧
    (Admins.parse adminText = [] → adminText ≠ "" → devPass ≠ "" →
      (ofText adminText devPass secret).admitted = {devPass}) ∧
    (Admins.parse adminText ≠ [] →
      (ofText adminText devPass secret).admitted = {pubkey | pubkey ∈ Admins.parse adminText}) ∧
    ((ofText adminText devPass secret).freePass = true ↔
      Admins.parse adminText = [] ∧ (adminText = "" ∨ devPass = "")) ∧
    ∀ pubkey, pubkey ∉ (ofText adminText devPass secret).admitted →
      (ofText adminText devPass secret).authorizeAdmin pubkey = .error .authorizationDenied := by
  refine ⟨admitted_eq_univ_iff.trans freePass_ofText_iff, ?_, ?_, freePass_ofText_iff,
    fun _ => authorizeAdmin_of_notMem_admitted⟩
  · intro hnone htext hdevPass
    have hadmins : (ofText adminText devPass secret).admins = [devPass] :=
      admins_ofText_of_nil hnone hdevPass
    have hclosed : (ofText adminText devPass secret).freePass = false :=
      freePass_ofText_eq_false fun h => h.right.elim htext hdevPass
    rw [admitted_of_admins hclosed (by rw [hadmins]; simpa using hdevPass), hadmins]
    ext pubkey
    simp
  · intro hsome
    have hadmins : (ofText adminText devPass secret).admins = Admins.parse adminText :=
      admins_ofText hsome
    have hclosed : (ofText adminText devPass secret).freePass = false :=
      freePass_ofText_eq_false fun h => hsome h.left
    rw [admitted_of_admins hclosed (by rw [hadmins]; exact fun _ => ne_empty_of_mem_parse), hadmins]

example : (ofText "" "x" "").freePass = true ∧ (ofText " , " "x" "").freePass = false ∧
    (ofText "x" "x" "").freePass = false := by decide

end Text

/-! ### Settings from an environment -/

section Environment

variable {environment : Environment} {bytes : Bytes}

theorem ofEnvironment_of_set (h : environment "ADMINS" = some bytes) :
    ofEnvironment environment =
      ofText ((Bytes.toString? bytes).getD "")
        ((environment.text? "ADMIN_DEV_FREE_PASS").getD defaultDevPass)
        ((environment.text? "CONNECTION_AUTH").getD "") := by
  have hadmins : environment.text? "ADMINS" = Bytes.toString? bytes := by
    rw [Environment.text?, h, Option.bind_some]
  rw [ofEnvironment, hadmins]

/-- An admin list that is text and has entries closes the admin routes to everybody else. One that
has entries but is not text leaves them open to everybody. -/
theorem freePass_ofEnvironment (hset : environment "ADMINS" = some bytes)
    (hentries : Admins.parse (Bytes.toStringLossy bytes) ≠ []) :
    ((Bytes.toString? bytes).isSome →
      (ofEnvironment environment).freePass = false ∧
      ∀ pubkey, pubkey ∉ Admins.parse (Bytes.toStringLossy bytes) →
        (ofEnvironment environment).authorizeAdmin pubkey = .error .authorizationDenied) ∧
    (Bytes.toString? bytes = none →
      (ofEnvironment environment).freePass = true ∧
      ∀ pubkey, (ofEnvironment environment).authorizeAdmin pubkey = .ok ()) := by
  rw [ofEnvironment_of_set hset]
  generalize (environment.text? "ADMIN_DEV_FREE_PASS").getD defaultDevPass = devPass
  generalize (environment.text? "CONNECTION_AUTH").getD "" = secret
  constructor
  · intro hsome
    obtain ⟨text, htext⟩ := Option.isSome_iff_exists.mp hsome
    rw [Bytes.toStringLossy_of_toString? htext] at hentries ⊢
    rw [htext, Option.getD_some]
    have hpass : (ofText text devPass secret).freePass = false := by
      rw [← Bool.not_eq_true, freePass_ofText_iff]
      exact fun h => hentries h.left
    refine ⟨hpass, fun pubkey hpubkey => authorizeAdmin_of_notMem hpass ?_⟩
    rwa [admins_ofText hentries]
  · intro hnone
    have hpass : (ofText ((Bytes.toString? bytes).getD "") devPass secret).freePass = true := by
      rw [hnone, Option.getD_none, freePass_ofText_iff]
      exact ⟨rfl, Or.inl rfl⟩
    exact ⟨hpass, fun pubkey => authorizeAdmin_eq_ok_iff.mpr (Or.inl hpass)⟩

/-- A list of one name and a stray byte. -/
theorem freePass_ofEnvironment_stray :
    Admins.parse (Bytes.toStringLossy [97, 44, 255]) ≠ [] ∧
      (ofEnvironment (Environment.empty.set "ADMINS" [97, 44, 255])).freePass = true ∧
      (ofEnvironment (Environment.empty.set "ADMINS" [97])).freePass = false := by
  have hstray : Admins.parse (Bytes.toStringLossy [97, 44, 255]) ≠ [] := by decide +kernel
  have hname : Admins.parse (Bytes.toStringLossy [97]) ≠ [] := by decide +kernel
  obtain ⟨-, hopen⟩ :=
    @freePass_ofEnvironment (Environment.empty.set "ADMINS" [97, 44, 255]) _ rfl hstray
  obtain ⟨hclosed, -⟩ := @freePass_ofEnvironment (Environment.empty.set "ADMINS" [97]) _ rfl hname
  exact ⟨hstray, (hopen (by decide +kernel)).left, (hclosed (by decide +kernel)).left⟩

end Environment

end AuthSettings

end WalletAuth
