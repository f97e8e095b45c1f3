import ForgePay.Analysis.Journals
import ForgePay.Analysis.Verdicts
import ForgePay.Model.Migration
import ForgePay.Model.Workers

/-!
# What migration 0002 establishes

The migrated code relies on posted journals being in order and on every endpoint having one active
secret.  `upgrade()` marks every old journal as posted, whatever its entries, and gives no endpoint
a secret: what the code relies on holds after it exactly when the old journals are all in order and
there are no endpoints (`upgrade_established_iff`).
-/

set_option autoImplicit false

namespace ForgePay

open Relational (Table)
open Transactions

variable (lib : Libraries) (settings : Settings)

/-- The total of some entries on one side. -/
def entrySide (d : Direction) (entries : List JournalEntry) : ℤ :=
  ((entries.filter (fun e => decide (e.direction = d))).map (fun e => e.amountMinor)).sum

/-- The entries of a journal in a currency are in order: there are some, they balance, and all are
in the currency. -/
structure InOrder (entries : List JournalEntry) (currency : String) : Prop where
  nonempty : entries ≠ []
  balanced : entrySide .debit entries = entrySide .credit entries
  single_currency : ∀ e ∈ entries, e.currency = currency

/-- The entries of an old journal. -/
def OldDatabase.entriesOf (db : OldDatabase) (journalId : UUID) : List JournalEntry :=
  db.journalEntries.rows.filter (fun e => decide (e.journalId = journalId))

/-- `active_webhook_secret` found no active secret. -/
def secretNotFound : PyError :=
  .businessError "WEBHOOK_SECRET_NOT_FOUND" "Webhook signing secret was not found."

/-- What the migrated code relies on: posted journals are in order, every endpoint has one active
secret, and no pass of the dispatcher misses one. -/
structure Established (db : Database) : Prop where
  journals : ∀ j ∈ db.journals.rows, j.status = .posted → InOrder (db.entriesOf j.id) j.currency
  secrets : ∀ e ∈ db.webhookEndpoints.rows, ∃ s, (db.secretsOf e.id).filter (fun s => s.active) = [s]
  dispatched : ∀ pass, (outcome postgres (dispatchOnce lib settings pass) db).1 ≠
    .rolledBack (.error secretNotFound)

/-! ## The upgrade -/

variable {lib settings}

/-- Without endpoints a pass finds nothing to deliver. -/
theorem outcome_dispatchOnce_nil {db : Database} (h : db.webhookDeliveries.rows = [])
    (pass : DispatchPass) : outcome postgres (dispatchOnce lib settings pass) db =
      (.committed 0, []) := by
  have hselect : (Session.select (.dueDeliveries pass.now pass.heap 25)).run postgres db [] =
      .returned [] [] := by
    have heval : Query.eval [] db (.dueDeliveries pass.now pass.heap 25) = [] := by
      simp [Query.eval, Database.unlockedDueDeliveries, h]
    show Ended.returned (Query.eval [] db (.dueDeliveries pass.now pass.heap 25)) [] = _
    rw [heval]
  exact outcome_of_returned postgres (run_bind_of_returned hselect) rfl

/-- **What the migration establishes**: after `upgrade()` the posted journals are in order, the
endpoints have their secrets and no pass misses one, exactly when every old journal was in order
and there were no endpoints. -/
theorem upgrade_established_iff (lib : Libraries) (settings : Settings) (db : OldDatabase) :
    Established lib settings db.upgrade ↔
      (∀ j ∈ db.journals.rows, InOrder (db.entriesOf j.id) j.currency) ∧
        db.webhookEndpoints.rows = [] := by
  constructor
  · intro h
    refine ⟨?_, ?_⟩
    · intro j hj
      exact h.journals j.upgraded (List.mem_map_of_mem hj) rfl
    · rw [List.eq_nil_iff_forall_not_mem]
      intro e he
      obtain ⟨s, hs⟩ := h.secrets e he
      have hnone : (db.upgrade.secretsOf e.id).filter (fun s => s.active) = [] := rfl
      rw [hnone] at hs
      cases hs
  · rintro ⟨hjournals, hendpoints⟩
    refine ⟨?_, ?_, ?_⟩
    · intro j hj _
      obtain ⟨old, hold, rfl⟩ := List.mem_map.mp hj
      exact hjournals old hold
    · intro e he
      have he : e ∈ db.webhookEndpoints.rows := he
      rw [hendpoints] at he
      cases he
    · intro pass
      have hnone : db.upgrade.webhookDeliveries.rows = [] := by
        show db.webhookDeliveries.rows = []
        rw [List.eq_nil_iff_forall_not_mem]
        intro d hd
        have hkey := db.delivery_endpoint d hd
        rw [Table.keys, hendpoints] at hkey
        cases hkey
      rw [outcome_dispatchOnce_nil hnone]
      intro heq
      cases heq

/-- An old database with one endpoint. -/
def oldEndpoint : OldDatabase where
  merchants := Table.insert ∅ ⟨1, "Shop", 1⟩
  customers := ∅
  accounts := ∅
  payments := ∅
  refunds := ∅
  ledgerAccounts := ∅
  journals := ∅
  journalEntries := ∅
  idempotencyRecords := ∅
  outboxEvents := ∅
  processedEvents := ∅
  webhookEndpoints := Table.insert ∅ ⟨2, 1, "https://example.com/", "", ["payment.created"], true⟩
  webhookDeliveries := Table.insert ∅ ⟨3, 2, 4, .pending, 0, none, none⟩
  auditLogs := ∅
  journal_reference := by decide
  entry_amount := by decide
  entry_journal := by decide
  entry_account := by decide
  ledger_account := by decide
  endpoint_merchant := by decide
  delivery_endpoint := by decide
  delivery_unique := by decide

/-- An endpoint that is there already has no secret after the upgrade. -/
theorem upgrade_without_secret :
    ¬ ∀ (lib : Libraries) (settings : Settings) (db : OldDatabase),
      Established lib settings db.upgrade := by
  intro h
  have hsecrets := (h sampleLibraries {} oldEndpoint).secrets
  obtain ⟨s, hs⟩ := hsecrets ⟨2, 1, "https://example.com/", "", ["payment.created"], true⟩
    List.mem_cons_self
  cases hs

end ForgePay
