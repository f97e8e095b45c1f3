import ForgePay.Analysis.Operations
import Mathlib.Data.List.Induction

/-!
# Histories

Every run of the service, interleaved or not, is a history: a list of answered requests, each
of which has ended as `Ends` describes on the database the requests before it have committed.
The results about runs are proved about histories, by the rule `History.invariant`.
-/

set_option autoImplicit false

namespace ForgePay

open Relational (Table)
open Transactions

variable {lib : Libraries} {settings : Settings}

/-- The committed database after the requests of a history. -/
def committedAfter (h : List Answered) : Database :=
  postgres.view Database.empty (h.flatMap (fun f => f.writes))

/-- A longer history writes on what a shorter one has left. -/
theorem committedAfter_append (h h' : List Answered) : committedAfter (h ++ h') =
    postgres.view (committedAfter h) (h'.flatMap (fun f => f.writes)) := by
  rw [committedAfter, committedAfter, List.flatMap_append, Semantics.view_append]

/-- One more request writes on what the history has left. -/
theorem committedAfter_concat (h : List Answered) (f : Answered) :
    committedAfter (h ++ [f]) = postgres.view (committedAfter h) f.writes := by
  rw [committedAfter_append, List.flatMap_singleton]

/-- The world after the requests of a history. -/
def worldAfter (h : List Answered) : ServiceWorld := ⟨committedAfter h, h⟩

/-- One more request moves the world on. -/
theorem worldAfter_concat (h : List Answered) (f : Answered) :
    worldAfter (h ++ [f]) = (worldAfter h).after postgres f := by
  rw [worldAfter, committedAfter_concat]
  rfl

variable (lib settings)

/-- A history of the service. -/
inductive History : List Answered → Prop
  | nil : History []
  | concat {h : List Answered} {f : Answered} (L : Locks Resource) (before : History h)
      (ends : Ends lib settings L (committedAfter h) f) (reserved : Reserved f.writes L (worldAfter h)) :
      History (h ++ [f])

variable {lib settings}

/-- The last request of a history. -/
theorem History.of_concat {h : List Answered} {f : Answered} (hh : History lib settings (h ++ [f])) :
    History lib settings h ∧ ∃ L, Ends lib settings L (committedAfter h) f ∧ Reserved f.writes L (worldAfter h) := by
  generalize hl : h ++ [f] = l at hh
  cases hh with
  | nil => simp at hl
  | concat L before ends reserved =>
    obtain ⟨rfl, hf⟩ := List.append_inj' hl rfl
    cases hf
    exact ⟨before, L, ends, reserved⟩

/-- What comes before in a history is a history. -/
theorem History.of_append {h h' : List Answered} (hh : History lib settings (h ++ h')) :
    History lib settings h := by
  induction h' using List.reverseRecOn with
  | nil => rwa [List.append_nil] at hh
  | append_singleton h' f ih =>
    rw [← List.append_assoc] at hh
    exact ih hh.of_concat.1

/-- Every request of a history. -/
theorem History.entry {pre post : List Answered} {f : Answered}
    (hh : History lib settings (pre ++ f :: post)) :
    ∃ L, Ends lib settings L (committedAfter pre) f ∧ Reserved f.writes L (worldAfter pre) := by
  have hcons : pre ++ f :: post = (pre ++ [f]) ++ post := by simp
  rw [hcons] at hh
  exact hh.of_append.of_concat.2

/-- The committed databases of a history are consistent. -/
theorem History.consistent {h : List Answered} (hh : History lib settings h) :
    Consistent (committedAfter h) := by
  induction hh with
  | nil => exact consistent_empty
  | concat L before ends reserved ih =>
    have hg : Guarantee lib settings L (worldAfter _) ((worldAfter _).after postgres _) :=
      ⟨_, rfl, ends, reserved⟩
    rw [committedAfter_concat]
    exact Consistent.guarantee (w := worldAfter _) ih hg

/-- A request of a history commits an effect, or it does not commit and writes nothing. -/
theorem Ends.step {L : Locks Resource} {db : Database} {f : Answered} (h : Ends lib settings L db f) :
    (f.writes = [] ∧ ∀ reply, f.answer ≠ .committed reply) ∨
      ∃ reply, f.answer = .committed reply ∧ Effect lib settings L db f.label reply f.writes := by
  obtain ⟨r, answer, ws⟩ := f
  cases answer with
  | committed reply => exact Or.inr ⟨reply, rfl, h⟩
  | rolledBack result => exact Or.inl ⟨h.1, fun reply e => by cases e⟩
  | commitFailed d => exact h.elim

/-- **The rule of histories.**  What holds of the empty database and is kept by every effect
on a consistent database holds after every history. -/
theorem History.invariant {P : Database → Prop} (h0 : P Database.empty)
    (hstep : ∀ {L : Locks Resource} {w : ServiceWorld} {r : Request} {reply : Reply}
      {ws : List Write}, Consistent w.committed → P w.committed →
      Effect lib settings L w.committed r reply ws → Reserved ws L w → P (postgres.view w.committed ws))
    {h : List Answered} (hh : History lib settings h) : P (committedAfter h) := by
  induction hh with
  | nil => exact h0
  | concat L before ends reserved ih =>
    rw [committedAfter_concat]
    rcases ends.step with ⟨hnone, -⟩ | ⟨reply, -, heffect⟩
    · rw [hnone]
      exact ih
    · exact hstep (w := worldAfter _) before.consistent ih heffect reserved

/-! ## Runs are histories -/

/-- A world whose committed database is the one its history leaves. -/
theorem history_of_steps {w w' : ServiceWorld} {h : List Answered} (hw : w = worldAfter h)
    (hh : History lib settings h)
    (hsteps : Relation.ReflTransGen (WorldStep (Guarantee lib settings) Inv) w w') :
    ∃ h', w' = worldAfter (h ++ h') ∧ History lib settings (h ++ h') := by
  induction hsteps with
  | refl => exact ⟨[], by rw [List.append_nil]; exact ⟨hw, hh⟩⟩
  | tail _ hlast ih =>
    obtain ⟨h', rfl, hh'⟩ := ih
    rcases hlast with rfl | ⟨L, ⟨f, rfl, hends, hreserved⟩, -⟩
    · exact ⟨h', rfl, hh'⟩
    · refine ⟨h' ++ [f], ?_, ?_⟩
      · rw [← List.append_assoc, worldAfter_concat]
      · rw [← List.append_assoc]
        exact .concat L hh' hends hreserved

/-- A longer schedule goes on where a shorter one has ended. -/
theorem replay_append (schedule more : List (Action Request)) :
    replay lib settings (schedule ++ more) =
      (replay lib settings schedule).replay postgres (Request.handler lib settings) more :=
  System.replay_append _ _ _ _ _

/-- **Interleaved runs are histories**: whatever the schedule, the requests answered so far
form a history, and the committed database is the one it leaves. -/
theorem history_replay (schedule : List (Action Request)) :
    (replay lib settings schedule).world = worldAfter (replay lib settings schedule).world.history ∧
      History lib settings (replay lib settings schedule).world.history := by
  obtain ⟨h, hw, hh⟩ := history_of_steps (h := []) rfl .nil
    (SystemSafe.replay_steps (fun r w _ => @safe_handler lib settings r w)
      (SystemSafe.initial consistent_empty) schedule)
  have hworld : (replay lib settings schedule).world = worldAfter h := hw
  rw [hworld]
  exact ⟨rfl, hh⟩

/-- The committed rows are those that the history has written. -/
theorem committed_replay (schedule : List (Action Request)) :
    (replay lib settings schedule).world.committed =
      committedAfter (replay lib settings schedule).world.history :=
  congrArg World.committed (history_replay schedule).1

/-- Every run of requests one after the other is an interleaved run. -/
theorem run_eq_replay (requests : List Request) :
    ∃ schedule, replay lib settings schedule = ⟨run lib settings requests, []⟩ := by
  induction requests using List.reverseRecOn with
  | nil => exact ⟨[], rfl⟩
  | append_singleton requests r ih =>
    obtain ⟨schedule, hschedule⟩ := ih
    obtain ⟨more, hmore⟩ := System.exists_lone postgres (Request.handler lib settings)
      (run lib settings requests) r
    refine ⟨schedule ++ more, ?_⟩
    rw [replay_append, hschedule, hmore, run, run, List.foldl_append]
    rfl

/-- From every state of an interleaved run, a request can be served alone. -/
theorem exists_serve (schedule : List (Action Request)) (r : Request) :
    ∃ more, replay lib settings (schedule ++ more) =
      ⟨serve lib settings (replay lib settings schedule).world r, []⟩ := by
  obtain ⟨crashes, hcrashes⟩ := System.exists_crash postgres (Request.handler lib settings)
    (replay lib settings schedule)
  obtain ⟨lone, hlone⟩ := System.exists_lone postgres (Request.handler lib settings)
    (replay lib settings schedule).world r
  refine ⟨crashes ++ lone, ?_⟩
  rw [replay_append, System.replay_append, hcrashes, hlone]
  rfl

/-- Runs of requests one after the other are histories. -/
theorem history_run (requests : List Request) :
    run lib settings requests = worldAfter (run lib settings requests).history ∧
      History lib settings (run lib settings requests).history := by
  obtain ⟨schedule, hschedule⟩ := @run_eq_replay lib settings requests
  have h := @history_replay lib settings schedule
  rwa [hschedule] at h

/-- One more request is served after the run. -/
theorem run_concat (requests : List Request) (r : Request) :
    run lib settings (requests ++ [r]) = serve lib settings (run lib settings requests) r := by
  rw [run, run, List.foldl_append, List.foldl_cons, List.foldl_nil]

/-! ## A sample run

Concrete requests on which general statements are refuted or instantiated. -/

/-- The text whose digest is the fingerprint of the sample creation. -/
def sampleCreationText : String :=
  "\x7b\"amount_minor\":500,\"currency\":\"EUR\",\"customer_id\":\"00000000-0000-4000-8000-000000000010\"\x7d"

/-- SHA-256 on the texts the sample run digests. -/
def sampleDigest (data : List Py.Byte) : String :=
  if data = Py.encode (Py.str sampleCreationText) then
    "ce2b43ae9d3b2eaba67e0a9bc39c9f4f9c5d174f030fa6d65cb7daf8942f66ee"
  else if data = Py.encode (Py.str "fg_test_token") then
    "462e376778c408bd2793fd1b58fa90dfbe9a87dc6fe79e385ab07df77f7787a5"
  else "e3b0c44298fc1c149afbf4c8996fb92427ae41e4649b934ca495991b7852b855"

/-- The libraries as the sample run meets them: every clock reading is the epoch. -/
def sampleLibraries : Libraries where
  sha256 := sampleDigest
  sha256_length := by intro data; unfold sampleDigest; split_ifs <;> rfl
  sha256_hex := by
    intro data
    apply mem_hexadecimal
    unfold sampleDigest
    split_ifs <;> decide +kernel
  encrypt := fun _ _ text => text
  decrypt := fun _ token => some token
  datetimeText := fun _ => "1970-01-01T00:00:00Z"

/-- A version-4 UUID. -/
def sampleUUID (n : ℕ) : UUID := ⟨BitVec.ofNat 128 (0x40008000000000000000 + n)⟩

/-- The sample merchant. -/
def sampleMerchant : UUID := sampleUUID 0

/-- The `n`th request of the sample run. -/
def sampleRequest (n : ℕ) (operation : Operation) : Request :=
  ⟨sampleMerchant, operation, sampleUUID (0x1000 + n),
    ⟨fun i => sampleUUID (16 * n + i), fun _ => 0, "token"⟩⟩

/-- The sample payment. -/
def samplePayment : UUID := sampleUUID 48

/-- The body that creates the sample merchant. -/
def sampleShop : MerchantCreate := ⟨"Shop", by decide, 1, by decide, by decide⟩

/-- The body that creates the sample customer. -/
def sampleCustomer : CustomerCreate := ⟨"a@example.com", by decide, by decide, .eur⟩

/-- The sample funding is positive. -/
theorem sampleFunding_positive : (0 : ℤ) < 1000 := by decide

/-- The sample payment is positive. -/
theorem samplePayment_positive : (0 : ℤ) < 500 := by decide

/-- The body of the sample refund. -/
def sampleRefund : RefundRequest := ⟨200, by decide⟩

/-- A payment that is created, authorized, captured and partially refunded. -/
def sampleRequests : List Request :=
  [sampleRequest 0 (.createMerchant sampleShop),
    sampleRequest 1 (.createCustomer sampleCustomer),
    sampleRequest 2 (.fundAccount (sampleUUID 17) ⟨1000, .eur, sampleFunding_positive⟩),
    sampleRequest 3 (.createPayment ⟨sampleUUID 16, 500, .eur, samplePayment_positive⟩ "key"),
    sampleRequest 4 (.authorizePayment samplePayment),
    sampleRequest 5 (.capturePayment samplePayment),
    sampleRequest 6 (.refundPayment samplePayment sampleRefund)]

end ForgePay
