import ForgePay.Analysis.Histories

/-!
# The audit trail

What a committed request changes is a payment, a merchant, a customer, a funded account, the secret of
an endpoint or a delivery; its audit rows should name just that.  They do, but for three branches
that write none: `cancel_payment`, `refund_payment`, and the refusal that `authorize_payment`
commits (`replay_audited`).
-/

set_option autoImplicit false

namespace ForgePay

open Relational (Table)
open Transactions

variable {lib : Libraries} {settings : Settings}

/-- The audit row a write adds. -/
def Write.audit? : Write → Option AuditLog
  | .insertAuditLog a => some a
  | _ => none

/-- What a write changes, as an audit row names it. -/
def Write.resource? : Write → Option String
  | .insertMerchant x => some ("merchant:" ++ x.id.str)
  | .insertCustomer x => some ("customer:" ++ x.id.str)
  | .insertPayment p => some ("payment:" ++ p.id.str)
  | .updatePayment p => some ("payment:" ++ p.id.str)
  | .insertJournal j =>
    if j.referenceType = "account_funding" then some ("account:" ++ j.referenceId.str) else none
  | .insertWebhookEndpoint e => some ("webhook_endpoint:" ++ e.id.str)
  | .updateWebhookEndpoint e => some ("webhook_endpoint:" ++ e.id.str)
  | .updateWebhookDelivery d => some ("webhook_delivery:" ++ d.id.str)
  | _ => none

/-- The audit rows a request has committed. -/
def audits (f : Answered) : List AuditLog := f.writes.filterMap Write.audit?

/-- What a request has changed. -/
def changes (f : Answered) : List String := f.writes.filterMap Write.resource?

/-- The merchant that acts in a request: the new one where one is created. -/
def Request.actingMerchant (r : Request) : UUID :=
  match r.operation with
  | .createMerchant _ => r.generated.uuid4 0
  | _ => r.merchantId

/-- A request that changes nothing adds no audit row; one that changes something adds one, with
the acting merchant, what has changed and the correlation id. -/
def Audited (f : Answered) : Prop :=
  (changes f = [] ∧ audits f = []) ∨ ∃ resource a, changes f = [resource] ∧ audits f = [a] ∧
    a.Names f.label.actingMerchant resource f.label.correlationId

/-- The branches without an audit row: a cancellation, a refund, and the refusal of an
authorization that is committed. -/
def Unrecorded (f : Answered) : Prop :=
  match f.answer with
  | .committed (.raised _) => True
  | .committed (.response _ _) => match f.label.operation with
    | .cancelPayment _ => True
    | .refundPayment _ _ => True
    | _ => False
  | .rolledBack _ => False
  | .commitFailed _ => False

/-! ## One request -/

/-- Only where a merchant is created another one than the merchant of the key acts. -/
theorem AuditLog.Names.acting {a : AuditLog} {r : Request} {resource : String}
    (h : a.Names r.merchantId resource r.correlationId)
    (hop : ∀ body, r.operation ≠ .createMerchant body) :
    a.Names r.actingMerchant resource r.correlationId := by
  have hmerchant : r.actingMerchant = r.merchantId := by
    unfold Request.actingMerchant
    split
    · rename_i body heq
      exact absurd heq (hop body)
    · rfl
  rw [hmerchant]
  exact h

/-- Opening ledger accounts is no change and is not audited. -/
theorem Opened.filterMap_eq_nil {α : Type} {opened : List Write} (h : Opened opened)
    {g : Write → Option α} (hg : ∀ a, g (.insertLedgerAccount a) = none) :
    opened.filterMap g = [] := by
  rw [List.filterMap_eq_nil_iff]
  intro w hw
  obtain ⟨a, rfl, -⟩ := h w hw
  exact hg a

/-- What a movement of money changes, and its audit rows. -/
theorem filterMap_movement {α : Type} {opened mid tail : List Write} {p : Posting}
    (h : Opened opened) {g : Write → Option α} (hledger : ∀ a, g (.insertLedgerAccount a) = none)
    (hentry : ∀ e, g (.insertJournalEntry e) = none) (hpost : ∀ j, g (.postJournal j) = none) :
    (movement opened mid p tail).filterMap g =
      mid.filterMap g ++ ((g (.insertJournal p.draft)).toList ++ tail.filterMap g) := by
  rw [movement, List.filterMap_append, h.filterMap_eq_nil hledger, List.nil_append,
    List.filterMap_append, Posting.writes]
  cases hdraft : g (.insertJournal p.draft) <;>
    simp [hentry, hpost, hdraft]

/-- What a committed request has changed, and its audit rows. -/
theorem Effect.trail {L : Locks Resource} {db : Database} {r : Request} {reply : Reply}
    {ws : List Write} (h : Effect lib settings L db r reply ws) :
    (¬ Unrecorded ⟨r, .committed reply, ws⟩ ∧ Audited ⟨r, .committed reply, ws⟩) ∨
      (Unrecorded ⟨r, .committed reply, ws⟩ ∧ audits ⟨r, .committed reply, ws⟩ = [] ∧
        ∃ resource, changes ⟨r, .committed reply, ws⟩ = [resource]) := by
  have haudit : ∀ {opened mid tail : List Write} {p : Posting}, Opened opened →
      (movement opened mid p tail).filterMap Write.audit? =
        mid.filterMap Write.audit? ++ ((Write.audit? (.insertJournal p.draft)).toList ++
          tail.filterMap Write.audit?) :=
    fun h => filterMap_movement h (fun _ => rfl) (fun _ => rfl) (fun _ => rfl)
  have hchange : ∀ {opened mid tail : List Write} {p : Posting}, Opened opened →
      (movement opened mid p tail).filterMap Write.resource? =
        mid.filterMap Write.resource? ++ ((Write.resource? (.insertJournal p.draft)).toList ++
          tail.filterMap Write.resource?) :=
    fun h => filterMap_movement h (fun _ => rfl) (fun _ => rfl) (fun _ => rfl)
  cases h with
  | @createMerchant status response audit body operation audited =>
    refine Or.inl ⟨by simp [Unrecorded, operation], Or.inr ⟨_, audit, rfl, rfl, ?_⟩⟩
    simpa only [Request.actingMerchant, operation] using audited
  | @createCustomer status response audit body operation audited =>
    refine Or.inl ⟨by simp [Unrecorded, operation], Or.inr ⟨_, audit, rfl, rfl, ?_⟩⟩
    exact audited.acting (by simp [operation])
  | @fundAccount audit accountId body operation opened account cash funding row account_id currency
      moves owner audited =>
    refine Or.inl ⟨by simp [Unrecorded, operation],
      Or.inr ⟨"account:" ++ account.id.str, audit, ?_, ?_, ?_⟩⟩
    · exact (hchange moves.opened_ledger).trans
        (by simp [Write.resource?, Posting.draft, fundPosting])
    · exact haudit moves.opened_ledger
    · exact audited.acting (by simp [operation])
  | @createPayment audit body key operation customer risk status eventType key_varchar customer_row
      customer_id customer_merchant status_event audited =>
    refine Or.inl ⟨by simp [Unrecorded, operation], Or.inr ⟨_, audit, rfl, rfl, ?_⟩⟩
    exact audited.acting (by simp [operation])
  | replayPayment operation record status response row fingerprint status_eq response_eq =>
    exact Or.inl ⟨by simp [Unrecorded, operation], Or.inl ⟨rfl, rfl⟩⟩
  | @authorizePayment audit paymentId operation p now locked pending audited =>
    refine Or.inl ⟨by simp [Unrecorded, operation], Or.inr ⟨_, audit, rfl, rfl, ?_⟩⟩
    exact audited.acting (by simp [operation])
  | failPayment operation p locked pending =>
    exact Or.inr ⟨trivial, rfl, _, rfl⟩
  | @capturePayment audit paymentId operation p now opened cash receivable locked authorized
      customer_lock funds moves audited =>
    refine Or.inl ⟨by simp [Unrecorded, operation],
      Or.inr ⟨"payment:" ++ p.id.str, audit, ?_, ?_, ?_⟩⟩
    · exact (hchange moves.opened_ledger).trans
        (by simp [Write.resource?, Posting.draft, capturePosting, Payment.captured])
    · exact haudit moves.opened_ledger
    · exact audited.acting (by simp [operation])
  | cancelPayment operation p now locked cancellable =>
    exact Or.inr ⟨by simp [Unrecorded, operation], rfl, _, rfl⟩
  | refundPayment operation p opened cash receivable locked refundable remaining moves =>
    refine Or.inr ⟨by simp [Unrecorded, operation], ?_, "payment:" ++ p.id.str, ?_⟩
    · exact haudit moves.opened_ledger
    · exact (hchange moves.opened_ledger).trans
        (by simp [List.filterMap_cons, Write.resource?, Posting.draft, refundPosting, Payment.refunded])
  | @registerWebhook audit body operation audited =>
    refine Or.inl ⟨by simp [Unrecorded, operation], Or.inr ⟨_, audit, rfl, rfl, ?_⟩⟩
    exact audited.acting (by simp [operation])
  | @rotateWebhookSecret audit endpointId operation endpoint row merchant lock audited =>
    refine Or.inl ⟨by simp [Unrecorded, operation],
      Or.inr ⟨"webhook_endpoint:" ++ endpoint.id.str, audit, ?_, ?_, ?_⟩⟩
    · generalize db.activeSecretOf endpointId = active
      cases active <;> rfl
    · generalize db.activeSecretOf endpointId = active
      cases active <;> rfl
    · exact audited.acting (by simp [operation])
  | @replayWebhookDelivery audit deliveryId operation delivery endpoint row endpoint_row merchant
      lock audited =>
    refine Or.inl ⟨by simp [Unrecorded, operation], Or.inr ⟨_, audit, rfl, rfl, ?_⟩⟩
    exact audited.acting (by simp [operation])

/-- A request is audited unless it took one of the branches without an audit row. -/
theorem Ends.audited_iff {L : Locks Resource} {db : Database} {f : Answered}
    (h : Ends lib settings L db f) : (Audited f ↔ ¬ Unrecorded f) ∧ (audits f).length ≤ 1 := by
  obtain ⟨r, answer, ws⟩ := f
  have hnone : ∀ answer', ws = [] → Audited ⟨r, answer', ws⟩ ∧ (audits ⟨r, answer', ws⟩).length ≤ 1 := by
    rintro answer' rfl
    exact ⟨Or.inl ⟨rfl, rfl⟩, Nat.zero_le 1⟩
  unfold Ends at h
  cases answer with
  | committed reply =>
    rcases Effect.trail h with ⟨hnot, haudited⟩ | ⟨hunrecorded, hnil, resource, hchanges⟩
    · refine ⟨iff_of_true haudited hnot, ?_⟩
      rcases haudited with ⟨-, hnil⟩ | ⟨resource, a, -, hone, -⟩
      · rw [hnil]
        exact Nat.zero_le 1
      · rw [hone]
        exact le_refl 1
    · refine ⟨iff_of_false ?_ (not_not.mpr hunrecorded), by rw [hnil]; exact Nat.zero_le 1⟩
      rintro (⟨hnone, -⟩ | ⟨resource', a, -, hone, -⟩)
      · rw [hchanges] at hnone
        cases hnone
      · rw [hnil] at hone
        cases hone
  | rolledBack result => exact ⟨iff_of_true (hnone _ h.1).1 id, (hnone _ h.1).2⟩
  | commitFailed d => exact h.elim

/-! ## The table -/

/-- The audit rows after the writes of a transaction that adds at most one. -/
theorem auditLogs_view {db : Database} {ws : List Write}
    (hunused : ∀ a ∈ ws.filterMap Write.audit?, a.id ∉ db.auditLogs.keys)
    (hone : (ws.filterMap Write.audit?).length ≤ 1) :
    (postgres.view db ws).auditLogs.rows = db.auditLogs.rows ++ ws.filterMap Write.audit? := by
  induction ws generalizing db with
  | nil => exact (List.append_nil _).symm
  | cons w ws ih =>
    rw [Semantics.view_cons]
    rw [List.filterMap_cons] at hunused hone ⊢
    cases hw : w.audit? with
    | none =>
      rw [hw] at hunused hone
      have hsame : (postgres.apply db w).auditLogs = db.auditLogs := by
        cases w <;> first | rfl | cases hw
      rw [ih (by rw [hsame]; exact hunused) hone, hsame]
    | some a =>
      rw [hw] at hunused hone
      have hnil : ws.filterMap Write.audit? = [] := by
        rw [← List.length_eq_zero_iff]
        exact Nat.le_zero.mp (Nat.le_of_succ_le_succ hone)
      have hadd : (postgres.apply db w).auditLogs.rows = db.auditLogs.rows ++ [a] := by
        cases w with
        | insertAuditLog b =>
          cases hw
          exact Table.rows_insert (hunused a List.mem_cons_self)
        | _ => cases hw
      have hrest := @ih (postgres.apply db w) (by rw [hnil]; exact fun b hb => by cases hb)
        (by rw [hnil]; exact Nat.zero_le 1)
      rw [hrest, hadd, hnil, List.append_nil]

/-- The audit rows are those the requests have committed, in their order. -/
theorem History.auditLogs {h : List Answered} (hh : History lib settings h) :
    (committedAfter h).auditLogs.rows = h.flatMap audits := by
  induction hh with
  | nil => rfl
  | @concat h f L before ends reserved ih =>
    rw [committedAfter_concat, auditLogs_view ?_ ends.audited_iff.2, ih, List.flatMap_append,
      List.flatMap_singleton]
    · rfl
    · intro a ha
      obtain ⟨w, hw, hadds⟩ := List.mem_filterMap.mp ha
      obtain rfl : w = .insertAuditLog a := by
        cases w <;> first | (cases hadds; rfl) | cases hadds
      exact reserved.unused _ hw (.primaryKey .auditLogs a.id) (by simp [Write.keys])

/-- Every answered request of a history ended as `Ends` says. -/
theorem History.audited_iff {h : List Answered} (hh : History lib settings h) :
    ∀ f ∈ h, Audited f ↔ ¬ Unrecorded f := by
  intro f hf
  obtain ⟨pre, post, rfl⟩ := List.append_of_mem hf
  obtain ⟨L, hends, -⟩ := hh.entry
  exact hends.audited_iff.1

end ForgePay
