import ForgePay.Analysis.Dispatch
import ForgePay.Analysis.Histories

/-!
# Deliveries of one batch

The deliveries of a pass share one transaction.  What a pass commits for each of them is what it
would commit for it alone, and what was answered is counted, exactly when no delivery of the batch
raises, or when they all do and the first is not answered (`independent_iff`).
-/

set_option autoImplicit false

namespace ForgePay

open Relational (Table)
open Transactions

variable (lib : Libraries) (settings : Settings)

/-- The signing secret of the endpoint of a delivery can be used. -/
def Database.Signable (db : Database) (d : WebhookDelivery) : Prop :=
  ∃ endpoint secret plaintext, db.webhookEndpoints.get? d.endpointId = some endpoint ∧
    db.activeSecretOf endpoint.id = some secret ∧
    lib.decrypt settings.webhookSecretMasterKey secret.secretCiphertext = some plaintext

/-- The end of a `POST` after which the pass raises, past its handler of `httpx.HTTPError`: the
attempts do not fit their column, the text of the error has a character `TEXT` has not, or the next
delay does not fit a float. -/
def WebhookDelivery.Uncaught (d : WebhookDelivery) : PostOutcome → Prop
  | .response statusCode => 2147483647 ≤ d.attempts ∨
    (500 ≤ statusCode ∧ 1024 ≤ d.attempts + 1 ∧ d.attempts + 1 < settings.webhookMaxAttempts)
  | .httpError text => 2147483647 ≤ d.attempts ∨ Char.ofNat 0 ∈ text.toList ∨
    (1024 ≤ d.attempts + 1 ∧ d.attempts + 1 < settings.webhookMaxAttempts)
  | .error _ => True

/-- The pass raises on a delivery: its endpoint is there, but its secret cannot be used or its
`POST` ends with what nothing catches. -/
def Database.Interrupts (db : Database) (pass : DispatchPass) (d : WebhookDelivery) : Prop :=
  d.endpointId ∈ db.webhookEndpoints.keys ∧
    (¬ db.Signable lib settings d ∨ d.Uncaught settings (pass.outcome d.id))

/-- The deliveries, but for one, are gone. -/
def Database.alone (db : Database) (d : WebhookDelivery) : Database :=
  { db with webhookDeliveries := Table.insert ∅ d }

/-- The pass got an answer for the delivery: it came to it, and its `POST` ended with a
response. -/
def Database.Responded (db : Database) (pass : DispatchPass) (d : WebhookDelivery) : Prop :=
  (∃ before after, db.batch pass = before ++ d :: after ∧
    ∀ x ∈ before, ¬ db.Interrupts lib settings pass x) ∧
  db.Signable lib settings d ∧ ∃ statusCode, pass.outcome d.id = .response statusCode

/-- Each delivery of the batch is committed as it would be alone, and what was answered is
counted. -/
structure Independent (db : Database) (pass : DispatchPass) : Prop where
  alone : ∀ d ∈ db.batch pass,
    (transact postgres (dispatchOnce lib settings pass) db).2.webhookDeliveries.get? d.id =
      (transact postgres (dispatchOnce lib settings pass) (db.alone d)).2.webhookDeliveries.get?
        d.id
  counted : ∀ d, db.Responded lib settings pass d → ∃ row,
    (transact postgres (dispatchOnce lib settings pass) db).2.webhookDeliveries.get? d.id =
      some row ∧ d.Answered settings (pass.utcNow d.id) (pass.uniform d.id) (pass.outcome d.id) row

variable {lib settings}

/-! ## What raises -/

/-- The text of an integer has digits and a sign. -/
theorem nul_not_mem_toString (n : ℤ) : Char.ofNat 0 ∉ (toString n).toList := by
  have hdigits : ∀ m : ℕ, Char.ofNat 0 ∉ (Nat.repr m).toList := by
    intro m hmem
    rw [Nat.repr, String.toList_ofList] at hmem
    exact absurd (Nat.isDigit_of_mem_toDigits (by decide) (by decide) hmem) (by decide)
  cases n with
  | ofNat m => exact hdigits m
  | negSucc m =>
    intro hmem
    have hmem : Char.ofNat 0 ∈ ("-" ++ Nat.repr (m + 1)).toList := hmem
    rw [String.toList_append, List.mem_append] at hmem
    rcases hmem with hmem | hmem
    · exact absurd hmem (by decide)
    · exact hdigits _ hmem

/-- Below 1024 attempts the delay is capped at five minutes. -/
theorem nextDelay_ok {attempts : ℤ} {uniform : ℕ} (h : attempts < 1024) :
    nextDelay attempts uniform = .ok (min 300000000 (powerDelay attempts + uniform)) := by
  unfold nextDelay
  rw [if_neg (by omega)]

/-- A delay is answered below 1024 attempts only. -/
theorem nextDelay_eq_ok {attempts : ℤ} {uniform delay : ℕ}
    (h : nextDelay attempts uniform = .ok delay) : attempts < 1024 := by
  by_contra hge
  unfold nextDelay at h
  rw [if_pos (by omega)] at h
  cases h

/-- A row is stored when it fits its columns. -/
theorem WebhookDelivery.stored_iff {d : WebhookDelivery} :
    (∃ row, d.stored = .ok row) ↔ d.Fits := by
  rw [WebhookDelivery.Fits, ← Database.columnChecks_updateWebhookDelivery]
  unfold WebhookDelivery.stored
  cases hcolumns : Database.columnChecks (.updateWebhookDelivery d) with
  | ok u => exact ⟨fun _ => rfl, fun _ => ⟨d, rfl⟩⟩
  | error e => exact ⟨fun ⟨row, h⟩ => (by cases h), fun h => (by cases h)⟩

/-- A delivery gets a row that fits its columns unless its `POST` ends with what nothing
catches. -/
theorem WebhookDelivery.answered_fits_iff {d : WebhookDelivery} (hfits : d.Fits)
    {outcome : PostOutcome} {utcNow : Timestamp} {uniform : ℕ} :
    (∃ row, d.Answered settings utcNow uniform outcome row ∧ row.Fits) ↔
      ¬ d.Uncaught settings outcome := by
  obtain ⟨⟨hlow, hhigh⟩, herror⟩ := hfits
  constructor
  · rintro ⟨row, hanswered, ⟨hlow', hhigh'⟩, herror'⟩ huncaught
    cases hanswered with
    | accepted statusCode hok =>
      rcases huncaught with h | h
      · exact absurd hhigh' (by simp only; omega)
      · omega
    | refused statusCode hok hlast =>
      rcases huncaught with h | h
      · exact absurd hhigh' (by simp only; omega)
      · omega
    | postponed statusCode hfailed hmore delay hdelay =>
      have hlt := nextDelay_eq_ok hdelay
      rcases huncaught with h | h
      · exact absurd hhigh' (by simp only; omega)
      · omega
    | unreachable text hlast =>
      rcases huncaught with h | h | h
      · exact absurd hhigh' (by simp only; omega)
      · exact herror' text rfl h
      · omega
    | unreachableYet text hmore delay hdelay =>
      have hlt := nextDelay_eq_ok hdelay
      rcases huncaught with h | h | h
      · exact absurd hhigh' (by simp only; omega)
      · exact herror' text rfl h
      · omega
  · intro hcaught
    cases outcome with
    | error exc => exact absurd trivial hcaught
    | response statusCode =>
      obtain ⟨hattempts, hdelay⟩ := not_or.mp hcaught
      have hinteger : IsInteger (d.attempts + 1) := ⟨by omega, by omega⟩
      by_cases hok : 200 ≤ statusCode ∧ statusCode < 300
      · exact ⟨_, .accepted statusCode hok, hinteger, herror⟩
      · by_cases hlast : settings.webhookMaxAttempts ≤ d.attempts + 1 ∨ statusCode < 500
        · refine ⟨_, .refused statusCode hok hlast, hinteger, ?_⟩
          rintro t ⟨⟩
          rw [String.toList_append, List.mem_append]
          rintro (h | h)
          · exact absurd h (by decide)
          · exact nul_not_mem_toString statusCode h
        · have hlt : d.attempts + 1 < 1024 := by omega
          exact ⟨_, .postponed statusCode (by omega) (by omega) _ (nextDelay_ok hlt), hinteger,
            herror⟩
    | httpError text =>
      obtain ⟨hattempts, hrest⟩ := not_or.mp hcaught
      obtain ⟨htext, hdelay⟩ := not_or.mp hrest
      have hinteger : IsInteger (d.attempts + 1) := ⟨by omega, by omega⟩
      have hnul : ∀ t ∈ some text, Char.ofNat 0 ∉ t.toList := by
        rintro t ⟨⟩
        exact htext
      by_cases hlast : settings.webhookMaxAttempts ≤ d.attempts + 1
      · exact ⟨_, .unreachable text hlast, hinteger, hnul⟩
      · have hlt : d.attempts + 1 < 1024 := by omega
        exact ⟨_, .unreachableYet text (by omega) _ (nextDelay_ok hlt), hinteger, hnul⟩

/-- The pass has a new row for a delivery unless it raises on it. -/
theorem exists_delivered_iff {db : Database} {pass : DispatchPass} {d : WebhookDelivery}
    (hfits : d.Fits) :
    (∃ row, db.delivered lib settings pass d = .ok row) ↔ ¬ db.Interrupts lib settings pass d := by
  unfold Database.delivered Database.Interrupts Database.Signable
  cases hendpoint : db.webhookEndpoints.get? d.endpointId with
  | none =>
    have hkey := Table.get?_eq_none_iff.mp hendpoint
    refine ⟨fun _ h => hkey h.1, fun _ => ?_⟩
    exact WebhookDelivery.stored_iff.mpr hfits
  | some endpoint =>
    have hkey : d.endpointId ∈ db.webhookEndpoints.keys :=
      Table.get?_isSome_iff.mp (by rw [hendpoint]; rfl)
    dsimp only
    cases hactive : db.activeSecretOf endpoint.id with
    | none =>
      refine ⟨fun ⟨row, h⟩ => (by cases h), fun h => absurd ⟨hkey, Or.inl ?_⟩ h⟩
      rintro ⟨endpoint', secret, plaintext, hendpoint', hactive', -⟩
      cases hendpoint'
      rw [hactive] at hactive'
      cases hactive'
    | some secret =>
      dsimp only
      cases hdecrypt : lib.decrypt settings.webhookSecretMasterKey secret.secretCiphertext with
      | none =>
        refine ⟨fun ⟨row, h⟩ => (by cases h), fun h => absurd ⟨hkey, Or.inl ?_⟩ h⟩
        rintro ⟨endpoint', secret', plaintext, hendpoint', hactive', hdecrypt'⟩
        cases hendpoint'
        rw [hactive] at hactive'
        cases hactive'
        rw [hdecrypt] at hdecrypt'
        cases hdecrypt'
      | some plaintext =>
        have hsignable : ∃ endpoint' secret' plaintext', some endpoint = some endpoint' ∧
            db.activeSecretOf endpoint'.id = some secret' ∧
            lib.decrypt settings.webhookSecretMasterKey secret'.secretCiphertext =
              some plaintext' := ⟨endpoint, secret, plaintext, rfl, hactive, hdecrypt⟩
        dsimp only
        rw [not_and, not_or, not_not]
        have hanswered := @WebhookDelivery.answered_fits_iff settings d hfits
          (pass.outcome d.id) (pass.utcNow d.id) (pass.uniform d.id)
        rw [show (d.endpointId ∈ db.webhookEndpoints.keys → _ ∧ ¬ d.Uncaught settings
          (pass.outcome d.id)) ↔ ¬ d.Uncaught settings (pass.outcome d.id) from
            ⟨fun h => (h hkey).2, fun h _ => ⟨hsignable, h⟩⟩, ← hanswered]
        constructor
        · rintro ⟨row, hrow⟩
          cases hd : d.answered settings (pass.outcome d.id) (pass.utcNow d.id)
              (pass.uniform d.id) with
          | error e =>
            rw [hd] at hrow
            cases hrow
          | ok answered =>
            rw [hd] at hrow
            exact ⟨answered, WebhookDelivery.answered_iff.mp hd,
              WebhookDelivery.stored_iff.mp ⟨row, hrow⟩⟩
        · rintro ⟨answered, hd, hfits'⟩
          obtain ⟨row, hrow⟩ := WebhookDelivery.stored_iff.mpr hfits'
          refine ⟨row, ?_⟩
          rw [WebhookDelivery.answered_iff.mpr hd]
          exact hrow

/-- What the pass raises on a delivery that interrupts it. -/
theorem Database.Interrupts.error {db : Database} {pass : DispatchPass} {d : WebhookDelivery}
    (h : db.Interrupts lib settings pass d) (hfits : d.Fits) :
    ∃ e, db.delivered lib settings pass d = .error e := by
  cases hdelivered : db.delivered lib settings pass d with
  | error e => exact ⟨e, rfl⟩
  | ok row => exact absurd h ((exists_delivered_iff hfits).mp ⟨row, hdelivered⟩)

/-- A new row is not the old one. -/
theorem Database.ne_of_delivered {db : Database} {pass : DispatchPass} {d row : WebhookDelivery}
    (hd : d ∈ db.batch pass) (h : db.delivered lib settings pass d = .ok row) : row ≠ d := by
  intro heq
  rcases Database.delivered_cases h with ⟨-, hrow⟩ | ⟨-, hanswered⟩
  · obtain ⟨hstatus, -⟩ := (Database.mem_batch hd).2
    have hdead : d.status = .deadLetter := by
      rw [← heq, hrow]
    rw [hdead] at hstatus
    rcases hstatus with hstatus | hstatus <;> cases hstatus
  · have hattempts := hanswered.frame.2.2.2
    rw [heq] at hattempts
    omega

/-! ## One delivery alone -/

/-- Alone a due delivery is the batch. -/
theorem Database.batch_alone {db : Database} {pass : DispatchPass} {d : WebhookDelivery}
    (hd : d ∈ db.batch pass) : (db.alone d).batch pass = [d] := by
  have hdue := (Database.mem_batch hd).2
  have hrows : (db.alone d).webhookDeliveries.rows = [d] := rfl
  unfold Database.batch Database.unlockedDueDeliveries
  rw [hrows, List.insertionSort_cons, List.insertionSort_nil, List.orderedInsert_nil]
  simp [hdue]

/-- What a pass leaves of a delivery that is alone: its new row, or the old one. -/
theorem Database.get?_alone {db : Database} {pass : DispatchPass} {d : WebhookDelivery}
    (hd : d ∈ db.batch pass) :
    (transact postgres (dispatchOnce lib settings pass) (db.alone d)).2.webhookDeliveries.get?
      d.id = match db.delivered lib settings pass d with
        | .ok row => some row
        | .error _ => some d := by
  have hbatch := Database.batch_alone hd
  have hmem : d ∈ (db.alone d).batch pass := by
    rw [hbatch]
    exact List.mem_cons_self
  have hsame : (db.alone d).delivered lib settings pass d = db.delivered lib settings pass d := rfl
  cases hdelivered : db.delivered lib settings pass d with
  | ok row =>
    refine get?_transact_dispatchOnce ?_ hmem (hsame.trans hdelivered)
    intro x hx
    rw [hbatch, List.mem_singleton] at hx
    rw [hx]
    exact ⟨row, hsame.trans hdelivered⟩
  | error e =>
    rw [transact_dispatchOnce_of_error hmem (hsame.trans hdelivered)]
    exact Table.get?_of_mem (Database.mem_batch hmem).1

/-! ## The batch -/

/-- **Independence**: a pass commits for every delivery of its batch what it would commit for it
alone, and counts what was answered, exactly when it raises on none of them, or on all and the
first is not answered. -/
theorem independent_iff (lib : Libraries) (settings : Settings) (db : Database)
    (pass : DispatchPass) (hfits : ∀ d ∈ db.webhookDeliveries.rows, d.Fits) :
    Independent lib settings db pass ↔
      (∀ d ∈ db.batch pass, ¬ db.Interrupts lib settings pass d) ∨
      ((∀ d ∈ db.batch pass, db.Interrupts lib settings pass d) ∧
        ∀ d ∈ (db.batch pass).head?, ¬ (db.Signable lib settings d ∧
          ∃ statusCode, pass.outcome d.id = .response statusCode)) := by
  have hfits' : ∀ d ∈ db.batch pass, d.Fits := fun d hd => hfits d (Database.mem_batch hd).1
  have hold : ∀ d ∈ db.batch pass, db.webhookDeliveries.get? d.id = some d :=
    fun d hd => Table.get?_of_mem (Database.mem_batch hd).1
  constructor
  · intro h
    by_cases hnone : ∀ d ∈ db.batch pass, ¬ db.Interrupts lib settings pass d
    · exact Or.inl hnone
    · right
      push Not at hnone
      obtain ⟨x, hx, hinterrupts⟩ := hnone
      obtain ⟨e, he⟩ := hinterrupts.error (hfits' x hx)
      have hdb := transact_dispatchOnce_of_error hx he
      constructor
      · intro d hd
        by_contra hgood
        obtain ⟨row, hrow⟩ := (exists_delivered_iff (hfits' d hd)).mpr hgood
        have halone := h.alone d hd
        rw [hdb, hold d hd, Database.get?_alone hd, hrow] at halone
        exact Database.ne_of_delivered hd hrow (Option.some.inj halone).symm
      · rintro d hhead ⟨hsignable, hresponse⟩
        obtain ⟨after, hbatch⟩ := List.head?_eq_some_iff.mp hhead
        have hd : d ∈ db.batch pass := by
          rw [hbatch]
          exact List.mem_cons_self
        obtain ⟨row, hrow, hanswered⟩ := h.counted d
          ⟨⟨[], after, hbatch, fun y hy => absurd hy List.not_mem_nil⟩, hsignable, hresponse⟩
        rw [hdb, hold d hd] at hrow
        have hattempts := hanswered.frame.2.2.2
        rw [← Option.some.inj hrow] at hattempts
        omega
  · rintro (hnone | ⟨hall, hhead⟩)
    · have hok : ∀ d ∈ db.batch pass, ∃ row, db.delivered lib settings pass d = .ok row :=
        fun d hd => (exists_delivered_iff (hfits' d hd)).mpr (hnone d hd)
      refine ⟨?_, ?_⟩
      · intro d hd
        obtain ⟨row, hrow⟩ := hok d hd
        rw [get?_transact_dispatchOnce hok hd hrow, Database.get?_alone hd, hrow]
      · rintro d ⟨⟨before, after, hbatch, -⟩, ⟨endpoint, secret, plaintext, hendpoint, -⟩, -⟩
        have hd : d ∈ db.batch pass := by
          rw [hbatch]
          simp
        obtain ⟨row, hrow⟩ := hok d hd
        refine ⟨row, get?_transact_dispatchOnce hok hd hrow, ?_⟩
        rcases Database.delivered_cases hrow with ⟨hkey, -⟩ | ⟨-, hanswered⟩
        · exact absurd hendpoint (by rw [Table.get?_eq_none_iff.mpr hkey]; exact fun h => by cases h)
        · exact hanswered
    · refine ⟨?_, ?_⟩
      · intro d hd
        obtain ⟨e, he⟩ := (hall d hd).error (hfits' d hd)
        rw [transact_dispatchOnce_of_error hd he, hold d hd, Database.get?_alone hd, he]
      · rintro d ⟨⟨before, after, hbatch, hbefore⟩, hsignable, hresponse⟩
        exfalso
        cases before with
        | nil =>
          refine hhead d ?_ ⟨hsignable, hresponse⟩
          rw [hbatch]
          rfl
        | cons x before =>
          refine hbefore x List.mem_cons_self (hall x ?_)
          rw [hbatch]
          exact List.mem_cons_self

/-- An endpoint with a secret and one without, and a new delivery to each. -/
def mixedBatch : Database :=
  { Database.empty with
    merchants := Table.insert ∅ ⟨1, "Shop", 1⟩
    webhookEndpoints := Table.insert
      (Table.insert ∅ ⟨2, 1, "https://example.com/a", "", ["payment.created"], true⟩)
      ⟨3, 1, "https://example.com/b", "", ["payment.created"], true⟩
    webhookSecrets := Table.insert ∅ ⟨4, 2, 1, "", "whsec_a", true, none⟩
    webhookDeliveries := Table.insert (Table.insert ∅ ⟨5, 2, 7, .pending, 0, none, none⟩)
      ⟨6, 3, 7, .pending, 0, none, none⟩ }

/-- A clock that stands still does not go back. -/
theorem clock_zero (_ : UUID) : (0 : Timestamp) ≤ 0 := le_refl 0

/-- A pass to endpoints that accept everything. -/
def acceptingPass : DispatchPass :=
  ⟨0, fun _ => 0, fun _ => .response 200, fun _ => 0, fun _ => 0, clock_zero⟩

/-- The theorem at a batch of which one delivery raises. -/
theorem independent_iff_mixedBatch :
    Independent sampleLibraries {} mixedBatch acceptingPass ↔
      (∀ d ∈ mixedBatch.batch acceptingPass,
        ¬ mixedBatch.Interrupts sampleLibraries {} acceptingPass d) ∨
      ((∀ d ∈ mixedBatch.batch acceptingPass,
        mixedBatch.Interrupts sampleLibraries {} acceptingPass d) ∧
        ∀ d ∈ (mixedBatch.batch acceptingPass).head?, ¬ (mixedBatch.Signable sampleLibraries {} d ∧
          ∃ statusCode, acceptingPass.outcome d.id = .response statusCode)) :=
  independent_iff sampleLibraries {} mixedBatch acceptingPass (by decide)

/-- A delivery that was accepted is not committed, because the next one has no secret. -/
theorem mixedBatch_not_independent :
    ¬ ∀ (lib : Libraries) (settings : Settings) (db : Database) (pass : DispatchPass),
      (∀ d ∈ db.webhookDeliveries.rows, d.Fits) → Independent lib settings db pass := by
  intro h
  have haccepted : (⟨5, 2, 7, .pending, 0, none, none⟩ : WebhookDelivery) ∈
      mixedBatch.batch acceptingPass := by decide
  have hraises : (⟨6, 3, 7, .pending, 0, none, none⟩ : WebhookDelivery) ∈
      mixedBatch.batch acceptingPass := by decide
  have halone := (h sampleLibraries {} mixedBatch acceptingPass (by decide)).alone _ haccepted
  rw [transact_dispatchOnce_of_error hraises rfl, Database.get?_alone haccepted] at halone
  cases halone

end ForgePay
