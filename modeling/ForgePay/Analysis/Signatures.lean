import ForgePay.Model.Signing

/-!
# Signatures bind the time and the body

The message that is signed begins with the decimal text of the timestamp and a point, so it
determines the timestamp and the body (`encode_decimalInt_point`).  Where HMAC-SHA256 under one
key is injective, so is the signature, and `verify_webhook` accepts the signature of one
timestamp and body for these alone, within the tolerance.

Neither signs for a secret that has no UTF-8 encoding, or at a timestamp with more digits than
the interpreter writes.
-/

set_option autoImplicit false

namespace ForgePay

variable (hmacSha256 : (key message : List Py.Byte) → List Py.Byte)

/-- The message that is signed. -/
def signedMessage (timestamp : ℤ) (body : List Py.Byte) : List Py.Byte :=
  Py.encode (Py.decimalInt timestamp ++ Py.str ".") ++ body

/-- The text of a signature. -/
def signatureText (secret : Py.Str) (timestamp : ℤ) (body : List Py.Byte) : Py.Str :=
  Py.str "t=" ++ Py.decimalInt timestamp ++ Py.str ",v1=" ++
    Py.hex (hmacSha256 (Py.encode secret) (signedMessage timestamp body))

/-- The interpreter writes the timestamp, and the secret has an encoding. -/
def Signable (secret : Py.Str) (timestamp : ℤ) : Prop :=
  |timestamp| < 10 ^ Py.intMaxStrDigits ∧ ∀ c ∈ secret, Py.IsScalar c

/-- Different times or bodies are signed as different messages. -/
theorem signedMessage_injective {t t' : ℤ} {b b' : List Py.Byte}
    (h : signedMessage t b = signedMessage t' b') : t = t' ∧ b = b' :=
  Py.encode_decimalInt_point h

/-- An integer below the limit of digits is written in decimal. -/
theorem formatInt_of_lt {t : ℤ} (h : |t| < 10 ^ Py.intMaxStrDigits) :
    Py.formatInt t = some (Py.decimalInt t) := by
  have hlength : (Py.decimal t.natAbs).length ≤ Py.intMaxStrDigits := by
    have habs : t.natAbs < 10 ^ Py.intMaxStrDigits := by
      rw [Int.abs_eq_natAbs] at h
      exact_mod_cast h
    exact (Py.length_decimal_le_iff (by decide) _).mpr habs
  exact if_pos hlength

/-- An integer beyond the limit of digits is not written. -/
theorem formatInt_of_le {t : ℤ} (h : ¬ |t| < 10 ^ Py.intMaxStrDigits) : Py.formatInt t = none := by
  have hlength : ¬ (Py.decimal t.natAbs).length ≤ Py.intMaxStrDigits := by
    intro hle
    have habs : t.natAbs < 10 ^ Py.intMaxStrDigits := (Py.length_decimal_le_iff (by decide) _).mp hle
    apply h
    rw [Int.abs_eq_natAbs]
    exact_mod_cast habs
  exact if_neg hlength

/-- The signature of a signable timestamp. -/
theorem signWebhook_of_signable {secret : Py.Str} {t : ℤ} (h : Signable secret t)
    (b : List Py.Byte) :
    signWebhook hmacSha256 secret t b = .ok (signatureText hmacSha256 secret t b) := by
  have hencode := Py.encodeStrict_of_isScalar h.2
  unfold signWebhook
  rw [formatInt_of_lt h.1, hencode]
  rfl

/-- Nothing else is signed. -/
theorem signWebhook_of_not_signable {secret : Py.Str} {t : ℤ} (h : ¬ Signable secret t)
    (b : List Py.Byte) : ∃ exc, signWebhook hmacSha256 secret t b = .error exc := by
  unfold signWebhook
  by_cases ht : |t| < 10 ^ Py.intMaxStrDigits
  · have hsecret : ¬ ∀ c ∈ secret, Py.IsScalar c := fun hsecret => h ⟨ht, hsecret⟩
    have hencode := Py.encodeStrict_of_not_isScalar hsecret
    rw [formatInt_of_lt ht, hencode]
    exact ⟨.unicodeEncodeError, rfl⟩
  · rw [formatInt_of_le ht]
    exact ⟨tooManyDigits, rfl⟩

/-- A signature is an ASCII text. -/
theorem isAscii_signatureText (secret : Py.Str) (t : ℤ) (b : List Py.Byte) :
    Py.IsAscii (signatureText hmacSha256 secret t b) :=
  (((Py.isAscii_str (by decide)).append (Py.isAscii_decimalInt t)).append
    (Py.isAscii_str (by decide))).append (Py.isAscii_hex _)

/-- A comma ends the timestamp of a signature, so its parts are determined. -/
theorem signatureText_injective (hinjective : ∀ key, Function.Injective (hmacSha256 key))
    {secret : Py.Str} {t t' : ℤ} {b b' : List Py.Byte}
    (h : signatureText hmacSha256 secret t b = signatureText hmacSha256 secret t' b') :
    t = t' ∧ b = b' := by
  have hcomma : ∀ k : ℤ, (0x2c : Py.CodePoint) ∉ Py.decimalInt k := fun k hmem =>
    absurd (Py.mem_decimalInt hmem) (by decide)
  have hmark : Py.str ",v1=" = 0x2c :: Py.str "v1=" := by decide
  unfold signatureText at h
  rw [hmark, List.append_assoc, List.append_assoc, List.append_assoc, List.append_assoc] at h
  have htext := List.append_cancel_left h
  rw [List.cons_append, List.cons_append] at htext
  have hparts := Py.append_cons_injective (hcomma t) (hcomma t') htext
  have hdigest := Py.hex_injective (List.append_cancel_left hparts.2)
  exact signedMessage_injective (hinjective _ hdigest)

/-- What `verify_webhook` answers to the signature of another timestamp and body. -/
theorem verifyWebhook_signatureText {secret : Py.Str} {t' : ℤ} (h : Signable secret t')
    {now toleranceSeconds : ℤ} (hclock : |now - t'| ≤ toleranceSeconds) (t : ℤ)
    (b b' : List Py.Byte) :
    verifyWebhook hmacSha256 now secret (signatureText hmacSha256 secret t b) t' b'
        toleranceSeconds =
      .ok (decide (signatureText hmacSha256 secret t' b' = signatureText hmacSha256 secret t b)) := by
  have hcompare := Py.compareDigest_eq (isAscii_signatureText hmacSha256 secret t' b')
    (isAscii_signatureText hmacSha256 secret t b)
  have hbind : ∀ (text : Py.Str) (f : Py.Str → Except PyError Bool),
      (Except.ok text >>= f) = f text := fun _ _ => rfl
  unfold verifyWebhook
  rw [if_neg (not_lt.mpr hclock), signWebhook_of_signable hmacSha256 h, hbind, hcompare]
  rfl

/-- **Signatures bind**: `verify_webhook` accepts the signature of one timestamp and body for
these alone, and within the tolerance; the timestamp and the secret are signable. -/
theorem verifyWebhook_signWebhook_iff (hinjective : ∀ key, Function.Injective (hmacSha256 key))
    (secret : Py.Str) (t t' : ℤ) (b b' : List Py.Byte) (now toleranceSeconds : ℤ) :
    (signWebhook hmacSha256 secret t b >>= fun signature =>
        verifyWebhook hmacSha256 now secret signature t' b' toleranceSeconds) = .ok true ↔
      (t = t' ∧ b = b' ∧ |now - t'| ≤ toleranceSeconds) ∧
        |t| < 10 ^ Py.intMaxStrDigits ∧ ∀ c ∈ secret, Py.IsScalar c := by
  constructor
  · intro h
    by_cases hsign : Signable secret t
    · rw [signWebhook_of_signable hmacSha256 hsign] at h
      change verifyWebhook _ _ _ _ _ _ _ = _ at h
      by_cases hclock : |now - t'| ≤ toleranceSeconds
      · by_cases hsign' : Signable secret t'
        · rw [verifyWebhook_signatureText hmacSha256 hsign' hclock] at h
          have hsame := of_decide_eq_true (Except.ok.inj h)
          have hparts := signatureText_injective hmacSha256 hinjective hsame
          exact ⟨⟨hparts.1.symm, hparts.2.symm, hclock⟩, hsign⟩
        · obtain ⟨exc, hexc⟩ := signWebhook_of_not_signable hmacSha256 hsign' b'
          unfold verifyWebhook at h
          rw [if_neg (not_lt.mpr hclock), hexc] at h
          cases h
      · unfold verifyWebhook at h
        rw [if_pos (not_le.mp hclock)] at h
        cases h
    · obtain ⟨exc, hexc⟩ := signWebhook_of_not_signable hmacSha256 hsign b
      rw [hexc] at h
      cases h
  · rintro ⟨⟨rfl, rfl, hclock⟩, hsign⟩
    rw [signWebhook_of_signable hmacSha256 hsign]
    show verifyWebhook _ _ _ _ _ _ _ = _
    rw [verifyWebhook_signatureText hmacSha256 hsign hclock]
    exact congrArg Except.ok (decide_eq_true rfl)

/-! ## A signature of a delivery -/

/-- `{"event_id":"evt_1"}`. -/
def sampleBody : List Py.Byte := Py.encode (Py.str "\x7b\"event_id\":\"evt_1\"\x7d")

/-- The digest of `1700000000.{"event_id":"evt_1"}` under the key `secret`. -/
def sampleHmacDigest : List Py.Byte :=
  [0xdd, 0x79, 0xc2, 0xa2, 0xb2, 0x2c, 0x07, 0x3b, 0x31, 0xd0, 0x15, 0x0d, 0xe6, 0x42, 0x4a, 0x16,
    0x95, 0xc0, 0xdf, 0x93, 0x97, 0x56, 0xcd, 0x26, 0xd3, 0x44, 0xf4, 0x9c, 0xd0, 0xb3, 0x35, 0x52]

/-- HMAC-SHA256 on the message of `sampleHmacDigest`; elsewhere an injective function with longer
values. -/
def sampleHmac (key message : List Py.Byte) : List Py.Byte :=
  if key = Py.encode (Py.str "secret") ∧ message = signedMessage 1700000000 sampleBody then
    sampleHmacDigest
  else List.replicate 33 0 ++ message

/-- Different messages have different sample digests. -/
theorem sampleHmac_injective (key : List Py.Byte) : Function.Injective (sampleHmac key) := by
  have hlength : sampleHmacDigest.length = 32 := rfl
  have hlong : ∀ message : List Py.Byte, sampleHmacDigest ≠ List.replicate 33 0 ++ message := by
    intro message h
    have hcount := congrArg List.length h
    rw [hlength, List.length_append, List.length_replicate] at hcount
    omega
  intro m m' h
  unfold sampleHmac at h
  split_ifs at h with hm hm' hm'
  · rw [hm.2, hm'.2]
  · exact absurd h (hlong m')
  · exact absurd h.symm (hlong m)
  · exact List.append_cancel_left h

/-- The time of the sample is below the limit of digits. -/
theorem lt_writable : |(1700000000 : ℤ)| < 10 ^ Py.intMaxStrDigits := by
  have hpow : (10 : ℤ) ^ 10 ≤ 10 ^ Py.intMaxStrDigits :=
    pow_le_pow_right₀ (by norm_num) (by norm_num [Py.intMaxStrDigits])
  have hlt : |(1700000000 : ℤ)| < 10 ^ 10 := by norm_num
  exact lt_of_lt_of_le hlt hpow

/-- The signature is accepted 100 seconds later. -/
theorem verifyWebhook_sample :
    (signWebhook sampleHmac (Py.str "secret") 1700000000 sampleBody >>= fun signature =>
      verifyWebhook sampleHmac 1700000100 (Py.str "secret") signature 1700000000 sampleBody 300) =
        .ok true :=
  (verifyWebhook_signWebhook_iff sampleHmac sampleHmac_injective (Py.str "secret") 1700000000
    1700000000 sampleBody sampleBody 1700000100 300).mpr
    ⟨⟨rfl, rfl, by norm_num⟩, lt_writable,
      Py.IsAscii.isScalar (Py.isAscii_str (by decide))⟩

/-- A timestamp of 4301 digits is not signed, nor is anything with a secret that has a
surrogate. -/
theorem unsignable_not_accepted :
    ¬ ((signWebhook sampleHmac (Py.str "secret") (10 ^ Py.intMaxStrDigits) sampleBody >>=
        fun signature => verifyWebhook sampleHmac 0 (Py.str "secret") signature
          (10 ^ Py.intMaxStrDigits) sampleBody (10 ^ Py.intMaxStrDigits)) = .ok true ↔
      ((10 : ℤ) ^ Py.intMaxStrDigits = 10 ^ Py.intMaxStrDigits ∧ sampleBody = sampleBody ∧
        |(0 : ℤ) - 10 ^ Py.intMaxStrDigits| ≤ 10 ^ Py.intMaxStrDigits)) ∧
    ¬ ((signWebhook sampleHmac [0xd800] 1700000000 sampleBody >>= fun signature =>
        verifyWebhook sampleHmac 1700000100 [0xd800] signature 1700000000 sampleBody 300) =
          .ok true ↔
      ((1700000000 : ℤ) = 1700000000 ∧ sampleBody = sampleBody ∧
        |(1700000100 : ℤ) - 1700000000| ≤ 300)) := by
  constructor
  · intro hclaim
    have hpow : (0 : ℤ) ≤ 10 ^ Py.intMaxStrDigits := by positivity
    have hclock : |(0 : ℤ) - 10 ^ Py.intMaxStrDigits| ≤ 10 ^ Py.intMaxStrDigits := by
      rw [zero_sub, abs_neg, abs_of_nonneg hpow]
    have haccepted := hclaim.mpr ⟨rfl, rfl, hclock⟩
    have hunsignable : ¬ Signable (Py.str "secret") (10 ^ Py.intMaxStrDigits) := by
      intro hsign
      have hlt := hsign.1
      rw [abs_of_nonneg hpow] at hlt
      exact lt_irrefl _ hlt
    obtain ⟨exc, hexc⟩ := signWebhook_of_not_signable sampleHmac hunsignable sampleBody
    rw [hexc] at haccepted
    cases haccepted
  · intro hclaim
    have haccepted := hclaim.mpr ⟨rfl, rfl, by norm_num⟩
    have hunsignable : ¬ Signable [0xd800] 1700000000 := fun hsign =>
      absurd (hsign.2 0xd800 List.mem_cons_self) (by decide)
    obtain ⟨exc, hexc⟩ := signWebhook_of_not_signable sampleHmac hunsignable sampleBody
    rw [hexc] at haccepted
    cases haccepted

end ForgePay
