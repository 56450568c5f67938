import WalletAuth.Proofs.Signature.Signing
import WalletAuth.Signature.Timestamp

/-! What a signed timestamp is: the padded base64 of 69 bytes, the last 65 of which are a signature
of the first four. The clock is looked at only after that, and what it shows decides nothing but
whether a credential of some signer is good now, too old or too early. -/

namespace WalletAuth

open Secp256k1 (PublicKey)

theorem CompactSignature.decodeBase64_eq_ok_iff {text : String} {bytes : Bytes} :
    decodeBase64 text = .ok bytes ↔ Bytes.ofString text = Base64Url.encode bytes := by
  rw [← Base64Url.decode_eq_ok_iff, decodeBase64]
  cases Base64Url.decode (Bytes.ofString text) <;> simp

theorem length_of_recoverSigner {message signature : Bytes} {found : Option PublicKey}
    (h : recoverSigner (some message) (some signature) = .ok found) : signature.length = 65 := by
  by_contra hlength
  rw [recoverSigner, CompactSignature.ofBytes, dif_neg hlength] at h
  exact absurd h (by simp [Except.map])

namespace SignedTimestamp

variable {token : String} {timestamp : Nat} {key : PublicKey}

theorem signerAndTime_eq_ok_iff :
    signerAndTime token = .ok (timestamp, key) ↔
      ∃ bytes, Bytes.ofString token = Base64Url.encode bytes ∧ bytes.length = 69 ∧
        recoverSigner (some (bytes.take 4)) (some (bytes.drop 4)) = .ok (some key) ∧
        Bytes.toNat (bytes.take 4) = timestamp := by
  constructor
  · intro h
    rw [signerAndTime] at h
    cases hdecode : CompactSignature.decodeBase64 token with
    | error cause => simp [hdecode] at h
    | ok bytes =>
        by_cases hshort : bytes.length < 4 + 65
        · simp [hdecode, hshort] at h
        · simp only [hdecode, if_neg hshort] at h
          cases hrecover : recoverSigner (some (bytes.take 4)) (some (bytes.drop 4)) with
          | error cause => simp [hrecover] at h
          | ok found =>
              cases found with
              | none => simp [hrecover] at h
              | some signer =>
                  have hlength := length_of_recoverSigner hrecover
                  rw [List.length_drop] at hlength
                  simp only [hrecover, Except.ok.injEq, Prod.mk.injEq] at h
                  obtain ⟨rfl, rfl⟩ := h
                  exact ⟨bytes, CompactSignature.decodeBase64_eq_ok_iff.mp hdecode, by omega,
                    hrecover, rfl⟩
  · rintro ⟨bytes, htoken, hlength, hrecover, rfl⟩
    have hdecode := CompactSignature.decodeBase64_eq_ok_iff.mpr htoken
    have hshort : ¬bytes.length < 4 + 65 := by omega
    simp only [signerAndTime, hdecode, if_neg hshort, hrecover]

/-- Whether the time is checked or not, the signer is found first. -/
theorem exists_signerAndTime {checkTime : Bool} {now : Int}
    (h : verify token checkTime now = .ok key) :
    ∃ timestamp, signerAndTime token = .ok (timestamp, key) := by
  rw [verify] at h
  cases hsigner : signerAndTime token with
  | error error => simp [hsigner] at h
  | ok found =>
      obtain ⟨timestamp, signer⟩ := found
      rw [hsigner] at h
      refine ⟨timestamp, ?_⟩
      cases checkTime with
      | false =>
          obtain rfl : signer = key := by simpa using h
          rfl
      | true =>
          cases hfresh : checkFresh timestamp now with
          | error error => simp [hfresh, Except.map] at h
          | ok _ =>
              obtain rfl : signer = key := by simpa [hfresh, Except.map] using h
              rfl

/-- A credential that is put together from a time and a signature names the signer of the time. -/
theorem signerAndTime_encodeText_iff {time : Bytes} (h : time.length = 4)
    (signature : CompactSignature) :
    signerAndTime (Base64Url.encodeText (time ++ signature.bytes)) = .ok (timestamp, key) ↔
      signature.recover? (digest time) = some key ∧ time.toNat = timestamp := by
  have hlength : (time ++ signature.bytes).length = 69 := by
    rw [List.length_append, h, signature.length_bytes]
  have htime : (time ++ signature.bytes).take 4 = time := List.take_left' h
  have hsignature : (time ++ signature.bytes).drop 4 = signature.bytes := List.drop_left' h
  simp only [signerAndTime, CompactSignature.decodeBase64_encodeText, hlength, htime, hsignature,
    recoverSigner_bytes]
  cases signature.recover? (digest time) <;> simp [and_comm]

/-! ### What a wallet makes -/

section Issue

variable {signer : Secp256k1.SigningKey} {seconds : UInt32}

/-- A credential is the time and a signature of it. -/
theorem issue_eq_ok_iff :
    issue signer seconds = .ok token ↔
      ∃ signature, sign (some (Bytes.ofNat 4 seconds.toNat)) signer = .ok signature ∧
        Base64Url.encodeText (Bytes.ofNat 4 seconds.toNat ++ signature.bytes) = token := by
  -- What was made is named before the cases are split: the kernel would run the signer.
  obtain ⟨made, hmade⟩ : ∃ made, sign (some (Bytes.ofNat 4 seconds.toNat)) signer = made := ⟨_, rfl⟩
  unfold issue
  simp only [hmade]
  cases made <;> simp [Except.map]

/-- The time and the signer are read off a credential as they were put into it. -/
theorem signerAndTime_of_issue (h : issue signer seconds = .ok token) :
    signerAndTime token = .ok (seconds.toNat, signer.publicKey) := by
  obtain ⟨signature, hsign, rfl⟩ := issue_eq_ok_iff.mp h
  exact (signerAndTime_encodeText_iff (Bytes.length_ofNat 4 _) signature).mpr
    ⟨recover?_of_sign hsign, Bytes.toNat_ofNat seconds.toNat_lt⟩

/-- A credential is made of a time and a signature. -/
theorem exists_bytes_of_issue (h : issue signer seconds = .ok token) :
    ∃ bytes, bytes.length = 69 ∧ Base64Url.encodeText bytes = token := by
  obtain ⟨signature, -, rfl⟩ := issue_eq_ok_iff.mp h
  refine ⟨_, ?_, rfl⟩
  rw [List.length_append, Bytes.length_ofNat, signature.length_bytes]

/-- 69 bytes are whole groups of three, so a credential has no padding. -/
theorem text_of_issue (h : issue signer seconds = .ok token) :
    token.length = 92 ∧ Base64Url.IsSymbolText token := by
  obtain ⟨bytes, hlength, rfl⟩ := exists_bytes_of_issue h
  constructor
  · rw [Base64Url.length_encodeText, hlength]
  · exact Base64Url.isSymbolText_encodeText (by rw [hlength])

theorem ofString_of_issue (h : issue signer seconds = .ok token) :
    ∃ bytes, bytes.length = 69 ∧ Bytes.ofString token = Base64Url.encodeBare bytes := by
  obtain ⟨bytes, hlength, rfl⟩ := exists_bytes_of_issue h
  refine ⟨bytes, hlength, ?_⟩
  rw [Base64Url.ofString_encodeText, Base64Url.encode_eq_encodeBare (by rw [hlength])]

end Issue

/-! ### Freshness -/

theorem verify_of_error {error : TimestampError} (h : signerAndTime token = .error error)
    (checkTime : Bool) (now : Int) : verify token checkTime now = .error error := by
  rw [verify, h]

theorem verify_false (token : String) (now : Int) :
    verify token false now = (signerAndTime token).map Prod.snd := by
  rw [verify]
  cases signerAndTime token <;> rfl

theorem verify_true_of_ok (h : signerAndTime token = .ok (timestamp, key)) (now : Int) :
    verify token true now = (checkFresh timestamp now).map fun _ => key := by
  rw [verify, h]
  rfl

/-- A signer that cannot be found is never blamed on the clock. -/
theorem signerAndTime_ne_of_time {error : TimestampError} (h : signerAndTime token = .error error)
    (time : Nat) : error ≠ .expired time ∧ error ≠ .notYetValid time := by
  rw [signerAndTime] at h
  split at h
  · obtain rfl := Except.error.inj h
    simp
  · split at h
    · obtain rfl := Except.error.inj h
      simp
    · split at h
      · obtain rfl := Except.error.inj h
        simp
      · obtain rfl := Except.error.inj h
        simp
      · exact absurd h (by simp)

theorem toNat_take_four_lt (bytes : Bytes) : Bytes.toNat (bytes.take 4) < 2 ^ 32 :=
  calc Bytes.toNat (bytes.take 4) < 256 ^ (bytes.take 4).length := Bytes.toNat_lt _
    _ ≤ 256 ^ 4 := Nat.pow_le_pow_right (by decide) (List.length_take_le 4 bytes)

/-- A time of four bytes is far from both ends of the clock, so the window around the present is cut
off at an end only where no such time lies. -/
theorem checkFresh_of_lt (h : timestamp < 2 ^ 32) (now : Int) :
    checkFresh timestamp now =
      if (timestamp : Int) + 300 < now then .error (.expired timestamp)
      else if now < (timestamp : Int) - 60 then .error (.notYetValid timestamp)
      else .ok () := by
  have hexpired : (timestamp : Int) < onClock (now - maxAge) ↔ (timestamp : Int) + 300 < now := by
    rw [onClock, maxAge]
    omega
  have hearly : onClock (now + maxAhead) < timestamp ↔ now < (timestamp : Int) - 60 := by
    rw [onClock, maxAhead]
    omega
  simp only [checkFresh, hexpired, hearly]

/-- The verdicts on a fresh look at a credential whose signer was found. -/
theorem map_checkFresh_iff (h : timestamp < 2 ^ 32) (now : Int) :
    let verdict := (checkFresh timestamp now).map fun _ => key
    (verdict = .ok key ↔ (timestamp : Int) - 60 ≤ now ∧ now ≤ timestamp + 300) ∧
      (verdict = .error (.expired timestamp) ↔ (timestamp : Int) + 300 < now) ∧
      (verdict = .error (.notYetValid timestamp) ↔ now < (timestamp : Int) - 60) := by
  intro verdict
  have hverdict : verdict = (checkFresh timestamp now).map fun _ => key := rfl
  rw [checkFresh_of_lt h] at hverdict
  by_cases hlate : (timestamp : Int) + 300 < now
  · rw [if_pos hlate] at hverdict
    simp only [hverdict, Except.map, reduceCtorEq, false_iff, true_iff, Except.error.injEq]
    exact ⟨by omega, hlate, by omega⟩
  · rw [if_neg hlate] at hverdict
    by_cases hearly : now < (timestamp : Int) - 60
    · rw [if_pos hearly] at hverdict
      simp only [hverdict, Except.map, reduceCtorEq, false_iff, true_iff, Except.error.injEq]
      exact ⟨by omega, hlate, hearly⟩
    · rw [if_neg hearly] at hverdict
      simp only [hverdict, Except.map, reduceCtorEq, false_iff, true_iff]
      exact ⟨by omega, hlate, hearly⟩

/-- Without a look at the clock, the verdict on a credential is always the same. If it is an error,
the clock adds none; if it is a signer, the credential has 69 bytes and is good from one minute
before the time in it until five minutes after. -/
theorem verify_window (token : String) (asked : Int) :
    (∀ later, verify token false later = verify token false asked) ∧
    (∀ error, verify token false asked = .error error →
      (∀ time, error ≠ .expired time ∧ error ≠ .notYetValid time) ∧
      ∀ now, verify token true now = .error error) ∧
    (∀ key, verify token false asked = .ok key →
      ∃ bytes, CompactSignature.decodeBase64 token = .ok bytes ∧ bytes.length = 69 ∧
        let time := Bytes.toNat (bytes.take 4)
        ∀ now : Int,
          (verify token true now = .ok key ↔ (time : Int) - 60 ≤ now ∧ now ≤ time + 300) ∧
          (verify token true now = .error (.expired time) ↔ (time : Int) + 300 < now) ∧
          (verify token true now = .error (.notYetValid time) ↔ now < (time : Int) - 60)) := by
  refine ⟨fun later => by rw [verify_false, verify_false], ?_, ?_⟩
  · intro error herror
    rw [verify_false] at herror
    cases hsigner : signerAndTime token with
    | error cause =>
        rw [hsigner] at herror
        obtain rfl : cause = error := Except.error.inj herror
        exact ⟨signerAndTime_ne_of_time hsigner, verify_of_error hsigner true⟩
    | ok found =>
        rw [hsigner] at herror
        exact absurd herror (by simp [Except.map])
  · intro key hkey
    obtain ⟨timestamp, hsigner⟩ := exists_signerAndTime hkey
    obtain ⟨bytes, htoken, hlength, -, rfl⟩ := signerAndTime_eq_ok_iff.mp hsigner
    refine ⟨bytes, CompactSignature.decodeBase64_eq_ok_iff.mpr htoken, hlength, ?_⟩
    intro time now
    rw [verify_true_of_ok hsigner]
    exact map_checkFresh_iff (toNat_take_four_lt bytes) now

/-- A signature of the text "seed" made with the nonce one, as a credential for the time that the
text spells. -/
theorem exists_signature_seed :
    ∃ signature : CompactSignature,
      Base64Url.encodeText (Bytes.ofString "seed" ++ signature.bytes) =
        "c2VlZB95vmZ--dy7rFWgYpXOhwsHApv82y3OKNlZ8oFbFvgXmFG73zQGZpeZ1UMo9iglDNb8Byo2I-MHx_TLhg7Ip32G" ∧
      signature.recover? (digest (Bytes.ofString "seed")) =
        some (Secp256k1.SigningKey.publicKey ⟨1, by decide⟩) := by
  have hmade : ((Secp256k1.SigningKey.signWith? ⟨1, by decide⟩
      (Secp256k1.Scalar.reduce (digest (Bytes.ofString "seed")).toNat) 1).map fun made =>
        Base64Url.encodeText
          (Bytes.ofString "seed" ++ (CompactSignature.ofSignature made.1 made.2).bytes)) = some
        "c2VlZB95vmZ--dy7rFWgYpXOhwsHApv82y3OKNlZ8oFbFvgXmFG73zQGZpeZ1UMo9iglDNb8Byo2I-MHx_TLhg7Ip32G" := by
    decide +kernel
  obtain ⟨made, hsign, htext⟩ := Option.map_eq_some_iff.mp hmade
  exact ⟨_, htext, recover?_of_signWith? hsign⟩

theorem verify_window_seed :
    let credential :=
      "c2VlZB95vmZ--dy7rFWgYpXOhwsHApv82y3OKNlZ8oFbFvgXmFG73zQGZpeZ1UMo9iglDNb8Byo2I-MHx_TLhg7Ip32G"
    verify credential false 0 = .ok (Secp256k1.SigningKey.publicKey ⟨1, by decide⟩) ∧
      verify credential true 1936024872 = .ok (Secp256k1.SigningKey.publicKey ⟨1, by decide⟩) ∧
      verify credential true 1936024871 = .error (.notYetValid 1936024932) ∧
      verify credential true 1936025233 = .error (.expired 1936024932) := by
  intro credential
  obtain ⟨signature, htext, hrecover⟩ := exists_signature_seed
  have hcredential : credential = Base64Url.encodeText (Bytes.ofString "seed" ++ signature.bytes) :=
    htext.symm
  have hkey : verify credential false 0 = .ok (Secp256k1.SigningKey.publicKey ⟨1, by decide⟩) := by
    rw [verify_false, hcredential,
      (signerAndTime_encodeText_iff rfl signature).mpr ⟨hrecover, rfl⟩]
    rfl
  obtain ⟨bytes, hbytes, -, hwindow⟩ := (verify_window credential 0).right.right _ hkey
  have htime : Bytes.toNat (bytes.take 4) = 1936024932 := by
    rw [hcredential, CompactSignature.decodeBase64_encodeText] at hbytes
    rw [← Except.ok.inj hbytes]
    rfl
  rw [htime] at hwindow
  exact ⟨hkey, (hwindow _).left.mpr (by decide), (hwindow _).right.right.mpr (by decide),
    (hwindow _).right.left.mpr (by decide)⟩

end SignedTimestamp

end WalletAuth
