import ForgePay.Analysis.Payments

/-!
# Retries

A retry asks for what the same merchant has asked for before and was answered with a response.
A retry of a funding, a creation or a capture meets a key that the first execution has used
(`Operation.once`); a retry of an authorization or a cancellation meets a payment whose status
no longer allows it (`Operation.target`).  Nothing of the kind protects a refund: it is
repeated as long as the captured amount allows it (`Refundable`).
-/

set_option autoImplicit false

namespace ForgePay

open Relational (Table)
open Transactions

variable {lib : Libraries} {settings : Settings}

/-- The operations that change money. -/
def Operation.changesMoney : Operation → Bool
  | .fundAccount _ _ => true
  | .createPayment _ _ => true
  | .authorizePayment _ => true
  | .capturePayment _ => true
  | .cancelPayment _ => true
  | .refundPayment _ _ => true
  | _ => false

/-- The request was committed and answered with a response. -/
def Answered.succeeded (f : Answered) : Bool :=
  match f.answer with
  | .committed (.response _ _) => true
  | _ => false

/-- A request has succeeded if it was committed with a response. -/
theorem Answered.succeeded_iff {f : Answered} :
    f.succeeded = true ↔ ∃ status body, f.answer = .committed (.response status body) := by
  unfold Answered.succeeded
  cases f.answer with
  | committed reply => cases reply <;> simp
  | rolledBack result => simp
  | commitFailed d => simp

/-- The request changes money and repeats one that has succeeded: the same merchant asks for
the same operation with the same arguments. -/
def Retries (h : List Answered) (r : Request) : Prop :=
  r.operation.changesMoney = true ∧ ∃ f ∈ h, f.succeeded = true ∧
    f.label.merchantId = r.merchantId ∧ f.label.operation = r.operation

instance (h : List Answered) (r : Request) : Decidable (Retries h r) :=
  inferInstanceAs (Decidable (_ ∧ _))

/-- The request is a refund that the payment still allows. -/
def Refundable (db : Database) (r : Request) : Prop :=
  ∃ paymentId body p, r.operation = .refundPayment paymentId body ∧
    db.payments.get? paymentId = some p ∧ p.merchantId = r.merchantId ∧
    (p.status = .captured ∨ p.status = .partiallyRefunded) ∧
    body.amountMinor ≤ p.capturedAmountMinor - p.refundedAmountMinor

/-! ## Operations that use a key once -/

/-- The key that an operation uses when it succeeds. -/
def Operation.once (merchantId : UUID) : Operation → Option Resource
  | .fundAccount accountId _ => some (.journalReference "account_funding" accountId)
  | .createPayment _ key => some (.idempotencyKey (assignVarchar 100 key) merchantId)
  | .capturePayment paymentId => some (.journalReference "payment_capture" paymentId)
  | _ => none

/-- An operation with a key inserts it, or has found it and writes nothing. -/
theorem Effect.once {L : Locks Resource} {db : Database} {r : Request} {reply : Reply}
    {ws : List Write} (hconsistent : Consistent db) (h : Effect lib settings L db r reply ws)
    {k : Resource} (hk : r.operation.once r.merchantId = some k) :
    (∃ w ∈ ws, k ∈ w.keys) ∨ (ws = [] ∧ db.Uses k) := by
  cases h with
  | @fundAccount audit accountId body operation opened account cash funding row account_id
      currency moves =>
    rw [operation] at hk
    cases hk
    refine Or.inl ⟨.insertJournal (fundPosting r account body.amountMinor cash funding).draft,
      by simp, ?_⟩
    simp [Write.keys, Posting.draft, fundPosting, account_id]
  | @createPayment audit body key operation =>
    rw [operation] at hk
    cases hk
    exact Or.inl ⟨.insertIdempotencyRecord (newRecord lib r body key), List.mem_cons_self,
      by simp [Write.keys, newRecord]⟩
  | @replayPayment body key operation record status response row =>
    rw [operation] at hk
    cases hk
    have hkey : (key, r.merchantId) ∈ db.idempotencyRecords.keys :=
      Table.get?_isSome_iff.mp (by rw [row]; rfl)
    rw [hconsistent.assignVarchar_key hkey]
    exact Or.inr ⟨rfl, hkey⟩
  | @capturePayment audit paymentId operation p now opened cash receivable locked =>
    rw [operation] at hk
    cases hk
    have hid : p.id = paymentId := Table.key_of_get? locked.row
    refine Or.inl ⟨.insertJournal (capturePosting r p cash receivable).draft, by simp, ?_⟩
    simp [Write.keys, Posting.draft, capturePosting, hid]
  | _ => simp_all [Operation.once]

/-- The keys that the requests of a history have inserted are in use. -/
theorem History.uses_of_mem {h : List Answered} (hh : History lib settings h) {f : Answered} (hf : f ∈ h)
    {w : Write} (hw : w ∈ f.writes) {k : Resource} (hk : k ∈ w.keys) :
    (committedAfter h).Uses k := by
  obtain ⟨pre, post, rfl⟩ := List.append_of_mem hf
  obtain ⟨L, -, hreserved⟩ := hh.entry
  have hused : (committedAfter (pre ++ [f])).Uses k := by
    rw [committedAfter_concat]
    exact uses_view_of_mem hw hk hreserved.unused hreserved.distinct
  have hcons : pre ++ f :: post = (pre ++ [f]) ++ post := by simp
  rw [hcons, committedAfter_append]
  exact uses_view _ hused

/-- What was in use at an earlier point of a history is in use. -/
theorem uses_committedAfter_append {pre post : List Answered} {k : Resource}
    (h : (committedAfter pre).Uses k) : (committedAfter (pre ++ post)).Uses k := by
  rw [committedAfter_append]
  exact uses_view _ h

/-! ## Operations that move a payment once -/

/-- The payment that an operation moves, and the status it moves it to. -/
def Operation.target : Operation → Option (UUID × PaymentStatus)
  | .authorizePayment paymentId => some (paymentId, .authorized)
  | .cancelPayment paymentId => some (paymentId, .cancelled)
  | _ => none

/-- A status from which, and from whatever follows it, a payment cannot be moved to the
target. -/
def Past (target s : PaymentStatus) : Prop := target ∉ allowed s ∧ s ≠ .created

/-- The status to which an operation moves a payment is not reached again. -/
theorem past_of_target {o : Operation} {paymentId : UUID} {target : PaymentStatus}
    (ho : o.target = some (paymentId, target)) :
    Past target target ∧ ∀ s, Past target s → ∀ s' ∈ allowed s, Past target s' := by
  have htarget : target = .authorized ∨ target = .cancelled := by
    cases o <;> simp_all [Operation.target]
  rcases htarget with rfl | rfl
  · refine ⟨⟨by decide, by decide⟩, ?_⟩
    intro s
    cases s <;> simp [Past, allowed]
  · refine ⟨⟨by decide, by decide⟩, ?_⟩
    intro s
    cases s <;> simp [Past, allowed]

/-- An operation that moves a payment commits only where the payment can move. -/
theorem Effect.target {L : Locks Resource} {db : Database} {r : Request} {reply : Reply}
    {ws : List Write} (h : Effect lib settings L db r reply ws) {paymentId : UUID}
    {target : PaymentStatus} (ho : r.operation.target = some (paymentId, target)) :
    ∃ p, db.payments.get? paymentId = some p ∧ target ∈ allowed p.status := by
  cases h with
  | authorizePayment operation p now locked pending =>
    rw [operation] at ho
    cases ho
    exact ⟨p, locked.row, by rw [pending]; decide⟩
  | failPayment operation p locked pending =>
    rw [operation] at ho
    cases ho
    exact ⟨p, locked.row, by rw [pending]; decide⟩
  | cancelPayment operation p now locked cancellable =>
    rw [operation] at ho
    cases ho
    exact ⟨p, locked.row, cancellable⟩
  | _ => simp_all [Operation.target]

/-- An operation that moves a payment and answers with a response has moved it. -/
theorem Effect.reaches {L : Locks Resource} {db : Database} {r : Request} {status : ℤ}
    {body : Py.Json} {ws : List Write} (h : Effect lib settings L db r (.response status body) ws)
    {paymentId : UUID} {target : PaymentStatus}
    (ho : r.operation.target = some (paymentId, target)) :
    ∃ p ∈ (postgres.view db ws).payments.rows, p.id = paymentId ∧ p.status = target := by
  have hset : ∀ {p p' : Payment}, db.payments.get? paymentId = some p → p'.id = p.id →
      p' ∈ (db.payments.set p').rows := by
    intro p p' hrow hid
    have hkey : Relational.key p' ∈ db.payments.keys :=
      Table.mem_keys.mpr ⟨p, Table.mem_of_get? hrow, hid.symm⟩
    exact (Table.mem_set hkey).mpr (Or.inr rfl)
  generalize hreply : Reply.response status body = reply at h
  cases h with
  | authorizePayment operation p now locked pending =>
    rw [operation] at ho
    cases ho
    exact ⟨{ p with status := .authorized, updatedAt := now }, hset locked.row rfl,
      Table.key_of_get? locked.row, rfl⟩
  | failPayment operation p locked pending => cases hreply
  | cancelPayment operation p now locked cancellable =>
    rw [operation] at ho
    cases ho
    exact ⟨{ p with status := .cancelled, updatedAt := now }, hset locked.row rfl,
      Table.key_of_get? locked.row, rfl⟩
  | _ => simp_all [Operation.target]

/-- A payment that has been moved to a target cannot be moved there again. -/
theorem History.not_mem_allowed {pre post : List Answered} (hh : History lib settings (pre ++ post))
    {o : Operation} {paymentId : UUID} {target : PaymentStatus}
    (ho : o.target = some (paymentId, target)) {q p : Payment}
    (hq : q ∈ (committedAfter pre).payments.rows) (hqid : q.id = paymentId)
    (hqstatus : q.status = target)
    (hp : (committedAfter (pre ++ post)).payments.get? paymentId = some p) :
    target ∉ allowed p.status := by
  obtain ⟨hself, hclosed⟩ := past_of_target ho
  obtain ⟨q', hq', hdescends⟩ := hh.descends hq
  have hid : q'.id = p.id :=
    (hdescends.sameTerms.id_eq.trans hqid).trans (Table.key_of_get? hp).symm
  have heq : q' = p := Table.eq_of_key_eq hq' (Table.mem_of_get? hp) hid
  have hpast : Past target q'.status := hdescends.status hclosed (hqstatus ▸ hself)
  rw [← heq]
  exact hpast.1

/-! ## Retries write nothing -/

/-- A request of a history that succeeded. -/
theorem History.succeeded {pre post : List Answered} {f : Answered}
    (hh : History lib settings (pre ++ f :: post)) (hf : f.succeeded = true) :
    ∃ L status body, Effect lib settings L (committedAfter pre) f.label (.response status body) f.writes := by
  obtain ⟨L, hends, -⟩ := hh.entry
  obtain ⟨status, body, hanswer⟩ := Answered.succeeded_iff.mp hf
  unfold Ends at hends
  rw [hanswer] at hends
  exact ⟨L, status, body, hends⟩

/-- A retry finds the key of the first execution in use. -/
theorem History.uses_of_retries {h : List Answered} (hh : History lib settings h) {r : Request}
    (hr : Retries h r) {k : Resource} (hk : r.operation.once r.merchantId = some k) :
    (committedAfter h).Uses k := by
  obtain ⟨-, f, hf, hsucceeded, hmerchant, hoperation⟩ := hr
  obtain ⟨pre, post, rfl⟩ := List.append_of_mem hf
  obtain ⟨L, status, body, heffect⟩ := hh.succeeded hsucceeded
  have hkf : f.label.operation.once f.label.merchantId = some k := by
    rw [hmerchant, hoperation, hk]
  rcases heffect.once hh.of_append.consistent hkf with ⟨w, hw, hkw⟩ | ⟨-, huses⟩
  · exact hh.uses_of_mem hf hw hkw
  · exact uses_committedAfter_append huses

/-- A retry finds the payment where it cannot be moved to the same status. -/
theorem History.not_mem_allowed_of_retries {h : List Answered} (hh : History lib settings h) {r : Request}
    (hr : Retries h r) {paymentId : UUID} {target : PaymentStatus}
    (ho : r.operation.target = some (paymentId, target)) {p : Payment}
    (hp : (committedAfter h).payments.get? paymentId = some p) : target ∉ allowed p.status := by
  obtain ⟨-, f, hf, hsucceeded, hmerchant, hoperation⟩ := hr
  obtain ⟨pre, post, rfl⟩ := List.append_of_mem hf
  obtain ⟨L, status, body, heffect⟩ := hh.succeeded hsucceeded
  obtain ⟨q, hq, hqid, hqstatus⟩ := heffect.reaches (hoperation ▸ ho)
  rw [← committedAfter_concat] at hq
  have hcons : pre ++ f :: post = (pre ++ [f]) ++ post := by simp
  rw [hcons] at hh hp
  exact hh.not_mem_allowed ho hq hqid hqstatus hp

/-- **A retry writes nothing**, unless it is a refund that the payment still allows. -/
theorem History.retry_writes {pre post : List Answered} {f : Answered}
    (hh : History lib settings (pre ++ f :: post)) (hretries : Retries pre f.label)
    (hnot : ¬ Refundable (committedAfter pre) f.label) : f.writes = [] := by
  obtain ⟨L, hends, hreserved⟩ := hh.entry
  rcases hends.step with ⟨hnone, -⟩ | ⟨reply, -, heffect⟩
  · exact hnone
  have honce : ∀ k, f.label.operation.once f.label.merchantId = some k → f.writes = [] := by
    intro k hk
    rcases heffect.once hh.of_append.consistent hk with ⟨w, hw, hkw⟩ | ⟨hnone, -⟩
    · exact absurd (hh.of_append.uses_of_retries hretries hk) (hreserved.unused w hw k hkw)
    · exact hnone
  have htarget : ∀ t, f.label.operation.target = some t → f.writes = [] := by
    intro t ht
    obtain ⟨p, hp, hallowed⟩ := heffect.target ht
    exact absurd hallowed (hh.of_append.not_mem_allowed_of_retries hretries ht hp)
  obtain ⟨r, answer, ws⟩ := f
  have hmoney := hretries.1
  simp only at heffect honce htarget hmoney hnot ⊢
  cases heffect with
  | fundAccount operation => exact honce _ (by rw [operation]; rfl)
  | createPayment operation => exact honce _ (by rw [operation]; rfl)
  | replayPayment operation => rfl
  | authorizePayment operation => exact htarget _ (by rw [operation]; rfl)
  | failPayment operation => exact htarget _ (by rw [operation]; rfl)
  | capturePayment operation => exact honce _ (by rw [operation]; rfl)
  | cancelPayment operation => exact htarget _ (by rw [operation]; rfl)
  | @refundPayment paymentId body operation p opened cash receivable locked refundable remaining =>
    exact absurd ⟨paymentId, body, p, operation, locked.row, locked.merchant, refundable,
      remaining⟩ hnot
  | _ => simp_all [Operation.changesMoney]

/-! ## Runs with retries -/

variable (lib settings)

/-- `WithRetries P requests retried`: the second run is the first with retries put in at any
later points, each of them where `P` holds. -/
inductive WithRetries (P : ServiceWorld → Request → Prop) : List Request → List Request → Prop
  | nil : WithRetries P [] []
  | request {requests retried : List Request} (r : Request)
      (before : WithRetries P requests retried) :
      WithRetries P (requests ++ [r]) (retried ++ [r])
  | retry {requests retried : List Request} (r : Request)
      (before : WithRetries P requests retried)
      (retries : Retries (run lib settings retried).history r)
      (allowed : P (run lib settings retried) r) :
      WithRetries P requests (retried ++ [r])

variable {lib settings}

/-- A run is itself with no retries put in. -/
theorem WithRetries.refl (P : ServiceWorld → Request → Prop) (requests : List Request) :
    WithRetries lib settings P requests requests := by
  induction requests using List.reverseRecOn with
  | nil => exact .nil
  | append_singleton requests r ih => exact .request r ih

/-- A retry served alone leaves the committed database as it was. -/
theorem committed_serve_of_retries {requests : List Request} {r : Request}
    (hretries : Retries (run lib settings requests).history r)
    (hnot : ¬ Refundable (run lib settings requests).committed r) :
    (serve lib settings (run lib settings requests) r).committed =
      (run lib settings requests).committed := by
  have hbefore := (@history_run lib settings requests).1
  obtain ⟨hafter, hh⟩ := @history_run lib settings (requests ++ [r])
  rw [run_concat] at hafter hh
  have hwrites := @History.retry_writes _ _ _ [] _ hh hretries (by rw [hbefore] at hnot; exact hnot)
  show postgres.view (run lib settings requests).committed _ = _
  rw [hwrites, Semantics.view_nil]

/-- **Retries are absorbed, refunds apart.**  Under every schedule of any number of requests,
a retry writes nothing, unless it is a refund that the payment still allows when it commits;
and a run with such retries put in at any later points leaves the committed database that the
run without them leaves. -/
theorem retries_absorbed (lib : Libraries) (settings : Settings) :
    (∀ schedule pre f post, (replay lib settings schedule).world.history = pre ++ f :: post →
      Retries pre f.label → ¬ Refundable (committedAfter pre) f.label → f.writes = []) ∧
    (∀ requests retried,
      WithRetries lib settings (fun w r => ¬ Refundable w.committed r) requests retried →
      (run lib settings retried).committed = (run lib settings requests).committed) := by
  constructor
  · intro schedule pre f post hsplit hretries hnot
    have hh := (@history_replay lib settings schedule).2
    rw [hsplit] at hh
    exact hh.retry_writes hretries hnot
  · intro requests retried h
    induction h with
    | nil => rfl
    | request r before ih =>
      rw [run_concat, run_concat, serve, serve, ih]
      show postgres.view (run lib settings _).committed _ = _
      rw [ih]
      rfl
    | retry r before hretries hnot ih => rw [run_concat, committed_serve_of_retries hretries hnot, ih]

/-- The sample run with its refund sent again. -/
def sampleRetried : List Request :=
  sampleRequests ++ [sampleRequest 7 (.refundPayment samplePayment sampleRefund)]

/-- The refunded amounts of the payments, and the numbers of refunds and journal entries. -/
def refundedRows (db : Database) : List ℤ × ℕ × ℕ :=
  (db.payments.rows.map (fun p => p.refundedAmountMinor), db.refunds.rows.length,
    db.journalEntries.rows.length)

/-- A refund of 200 that is sent again is executed again: the payment row changes and a second
refund row and a second journal are added. -/
theorem refund_retried :
    WithRetries sampleLibraries {} (fun _ _ => True) sampleRequests sampleRetried ∧
      refundedRows (run sampleLibraries {} sampleRequests).committed = ([200], 1, 6) ∧
      refundedRows (run sampleLibraries {} sampleRetried).committed = ([400], 2, 8) := by
  have h : Retries (run sampleLibraries {} sampleRequests).history
        (sampleRequest 7 (.refundPayment samplePayment sampleRefund)) ∧
      refundedRows (run sampleLibraries {} sampleRequests).committed = ([200], 1, 6) ∧
      refundedRows (run sampleLibraries {} sampleRetried).committed = ([400], 2, 8) := by
    decide +kernel
  exact ⟨.retry _ (.refl _ _) h.1 trivial, h.2⟩

end ForgePay
