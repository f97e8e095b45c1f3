import ForgePay.Analysis.Explanations
import ForgePay.Library.Progress

/-!
# Movements of money one after the other

Whatever the interleaving of requests that move money or change the status of a payment, the
requests have a serial order (`replay_serialisable`).  The order in which they end is not one:
an authorization or a capture that finds too little has read the balance before it ends, and a
funding or a refund may end in between.  Such a request has written at most the status of its
payment and an event, and goes to the moment at which it has read the balance.
-/

set_option autoImplicit false

namespace ForgePay

open Relational (Table)
open Transactions

section Serve

variable {lib : Libraries} {settings : Settings} {start : List Answered}
variable {r : Request} {ws : List Write} {L : Locks Resource} {w w₀ : ServiceWorld}

/-! ## The payment a request attends to -/

/-- A request attends to its payment to its end. -/
theorem steady_attends (r : Request) :
    Steady (Moving lib settings start) (Moved lib settings start)
      (fun L w => Moved lib settings start w ∧ r.Attends L w.committed) where
  env := by
    rintro L w w' he ⟨hw, h⟩
    have hi : Moved lib settings start w' := by
      obtain ⟨-, -, -, hi⟩ := he
      exact hi
    refine ⟨hi, fun id hid => (h id hid).imp_right (fun hnone => ?_)⟩
    exact ((steady_notFound id r.merchantId).env he ⟨hw, hnone⟩).2
  grow := fun _ h => ⟨h.1, fun id hid => (h.2 id hid).imp_left (List.mem_append_left _)⟩

/-- The first statement of a request with a payment looks it up. -/
theorem handler_payment (hop : r.operation.movesMoney = true) {paymentId : UUID}
    (hid : r.operation.payment? = some paymentId) :
    ∃ k, r.handler lib settings =
      Program.call (Stmt.select (.paymentForUpdate paymentId r.merchantId)) k := by
  unfold Request.handler
  cases hr : r.operation with
  | fundAccount accountId body => rw [hr] at hid; cases hid
  | authorizePayment id => rw [hr] at hid; cases hid; exact ⟨_, rfl⟩
  | capturePayment id => rw [hr] at hid; cases hid; exact ⟨_, rfl⟩
  | cancelPayment id => rw [hr] at hid; cases hid; exact ⟨_, rfl⟩
  | refundPayment id body => rw [hr] at hid; cases hid; exact ⟨_, rfl⟩
  | _ =>
    rw [hr] at hop
    cases hop

/-- A request attends to its payment wherever it ends. -/
theorem wp_attends {Q : Reply → List Write → Locks Resource → ServiceWorld → Prop}
    {E : PyError → List Write → Locks Resource → ServiceWorld → Prop}
    {F : Except PyError Reply → Locks Resource → ServiceWorld → Prop}
    (hop : r.operation.movesMoney = true) (hi : Moved lib settings start w)
    (h : Wp postgres (Moving lib settings start) (Moved lib settings start)
      (r.handler lib settings) Q E F [] [] w) :
    Wp postgres (Moving lib settings start) (Moved lib settings start) (r.handler lib settings)
      (fun b ws L w => (Moved lib settings start w ∧ r.Attends L w.committed) ∧ Q b ws L w)
      (fun e ws L w => (Moved lib settings start w ∧ r.Attends L w.committed) ∧ E e ws L w)
      (fun result L w => ((Moved lib settings start w ∧ r.Attends L w.committed) ∧
        Moved lib settings start w) ∧ F result L w) [] [] w := by
  cases hid : r.operation.payment? with
  | none =>
    refine wp_keep (steady_attends r) ⟨hi, fun id hid' => ?_⟩ h
    rw [hid] at hid'
    cases hid'
  | some paymentId =>
    obtain ⟨k, hk⟩ := @handler_payment lib settings _ hop _ hid
    rw [hk] at h ⊢
    intro w' hr hi' busy
    refine wp_keep (steady_attends r) ⟨hi', fun id hid' => ?_⟩ (h w' hr hi' busy)
    rw [hid] at hid'
    cases hid'
    cases hp : w'.committed.paymentOf paymentId r.merchantId with
    | none => exact Or.inr rfl
    | some p =>
      have heval : Query.eval busy (postgres.view w'.committed [])
          (.paymentForUpdate paymentId r.merchantId) = some p := hp
      exact Or.inl (paymentHeld_of_select heval).1

/-! ## What a request leaves behind -/

/-- A request that has ended has written rows of its own. -/
theorem Ends.moves {f : Answered} (hi : Moved lib settings start w)
    (hends : Ends lib settings L w.committed f) (hop : f.label.operation.movesMoney = true) :
    f.Moves (committedAfter start) := by
  obtain ⟨r, answer, ws⟩ := f
  rcases hends.step with ⟨hnone, -⟩ | ⟨reply, -, heffect⟩
  · obtain rfl : ws = [] := hnone
    exact ⟨hop, fun v hv => (List.not_mem_nil hv).elim⟩
  simp only at heffect hop
  refine ⟨hop, ?_⟩
  have hother : ∀ {v : Write}, v.Within r → (∀ q, v ≠ .updatePayment q) →
      v.Made (committedAfter start) r := fun hv hne => ⟨hv, fun q h => absurd h (hne q)⟩
  have hupdate : ∀ {paymentId : UUID} {p q : Payment}, r.operation.payment? = some paymentId →
      PaymentLocked L w.committed r paymentId p → q.id = p.id → q.merchantId = p.merchantId →
      (Write.updatePayment q).Made (committedAfter start) r := by
    intro paymentId p q hid hlocked hqid hqm
    refine ⟨trivial, fun q' h => ?_⟩
    cases h
    have hpid : p.id = paymentId := Table.key_of_get? hlocked.row
    have hmerchant : w.committed.merchantOf p.id = some p.merchantId := by
      rw [Database.merchantOf, hlocked.row_eq]
      rfl
    rw [hi.merchants p.id (Table.mem_keys.mpr ⟨p, Table.mem_of_get? hlocked.row, rfl⟩)] at hmerchant
    rw [hqid, hqm]
    exact ⟨hid.trans (congrArg some hpid.symm), hlocked.merchant, hmerchant⟩
  have hevent : ∀ {n m : ℕ} {type : EventType} {p : Payment} {payload : List (Py.Str × Py.Json)},
      (Write.insertOutboxEvent (paymentEvent lib r n m type p payload)).Made
        (committedAfter start) r := hother ⟨_, rfl⟩ (fun q h => by cases h)
  have hmovement : ∀ {opened mid tail : List Write} {p : Posting}, Opened opened →
      (∀ v ∈ mid ++ tail, v.Made (committedAfter start) r) →
      ∀ v ∈ movement opened mid p tail, v.Made (committedAfter start) r := by
    intro opened mid tail p hopened hrest v hv
    rcases mem_movement.mp hv with hv | hv | rfl | rfl | rfl | rfl | hv
    · obtain ⟨a, rfl, -⟩ := hopened v hv
      exact hother trivial (fun q h => by cases h)
    · exact hrest v (List.mem_append_left _ hv)
    · exact hother trivial (fun q h => by cases h)
    · exact hother trivial (fun q h => by cases h)
    · exact hother trivial (fun q h => by cases h)
    · exact hother trivial (fun q h => by cases h)
    · exact hrest v (List.mem_append_right _ hv)
  cases heffect with
  | fundAccount operation opened account cash funding row account_id currency moves =>
    refine hmovement moves.opened_ledger (fun v hv => ?_)
    obtain rfl : v = _ := List.mem_singleton.mp hv
    exact hother trivial (fun q h => by cases h)
  | authorizePayment operation p now locked pending =>
    intro v hv
    simp only [List.mem_cons, List.not_mem_nil, or_false] at hv
    rcases hv with rfl | rfl | rfl
    · exact hupdate (by rw [operation]; rfl) locked rfl rfl
    · exact hevent
    · exact hother trivial (fun q h => by cases h)
  | failPayment operation p locked pending =>
    intro v hv
    simp only [List.mem_cons, List.not_mem_nil, or_false] at hv
    rcases hv with rfl | rfl
    · exact hupdate (by rw [operation]; rfl) locked rfl rfl
    · exact hevent
  | capturePayment operation p now opened cash receivable locked authorized customer_lock funds
      moves =>
    refine hmovement moves.opened_ledger (fun v hv => ?_)
    simp only [List.nil_append, List.mem_cons, List.not_mem_nil, or_false] at hv
    rcases hv with rfl | rfl | rfl
    · exact hupdate (by rw [operation]; rfl) locked rfl rfl
    · exact hevent
    · exact hother trivial (fun q h => by cases h)
  | cancelPayment operation p now locked cancellable =>
    intro v hv
    simp only [List.mem_cons, List.not_mem_nil, or_false] at hv
    rcases hv with rfl | rfl
    · exact hupdate (by rw [operation]; rfl) locked rfl rfl
    · exact hevent
  | refundPayment operation p opened cash receivable locked refundable remaining moves =>
    refine hmovement moves.opened_ledger (fun v hv => ?_)
    simp only [List.singleton_append, List.mem_cons, List.not_mem_nil, or_false] at hv
    rcases hv with rfl | rfl | rfl
    · exact hother trivial (fun q h => by cases h)
    · exact hupdate (by rw [operation]; rfl) locked rfl rfl
    · exact hevent
  | _ => simp_all [Operation.movesMoney]

/-- While a request holds its payment, others work elsewhere. -/
theorem Since.elsewhere (h : Since lib settings start r w₀ L w) :
    ∃ h', w.history = w₀.history ++ h' ∧ ∀ g ∈ h', r.Elsewhere g.label := by
  obtain ⟨hi, paymentId, hop, hlock, ⟨p, hp⟩, hr⟩ := h
  have heval : Query.eval [] w₀.committed (.paymentForUpdate paymentId r.merchantId) = some p := hp
  obtain ⟨hrow, hmerchant, -⟩ := paymentForUpdate_eq_some heval
  have hheld : PaymentHeld paymentId p [(.row .payments paymentId, .forUpdate)] w₀ :=
    ⟨List.mem_singleton.mpr rfl, hrow⟩
  clear hlock hp heval
  induction hr with
  | refl => exact ⟨[], (List.append_nil _).symm, fun g hg => (List.not_mem_nil hg).elim⟩
  | @tail w₁ w₂ hr he ih =>
    obtain ⟨h', hhistory, helsewhere⟩ := ih
    obtain ⟨-, hrow⟩ := (Steady.moving (stable_payment paymentId p)).rely hr hheld
    obtain ⟨L', hcompatible, ⟨f, rfl, -, -, -, hattends⟩, -⟩ := he
    refine ⟨h' ++ [f], ?_, ?_⟩
    · show w₁.history ++ [f] = _
      rw [hhistory, List.append_assoc]
    · intro g hg
      rcases List.mem_append.mp hg with hg | hg
      · exact helsewhere g hg
      · rw [List.mem_singleton.mp hg]
        intro id hid hid' hsame
        rw [hop] at hid
        cases hid
        rcases hattends paymentId hid' with hlock | hnone
        · exact Compatible.false hcompatible hlock (List.mem_singleton.mpr rfl) rfl
        · rw [Database.paymentOf, hrow, Option.filter_some,
            if_pos (decide_eq_true (hmerchant.trans hsame))] at hnone
          cases hnone

/-! ## Executions that are explained -/

/-- Writes of a payment and of events have no deferred checks. -/
theorem deferred_status {db : Database} (hws : ∀ v ∈ ws, v.OfStatus) :
    postgres.deferred db ws = .ok () := by
  have hnone : ws.filterMap Database.balanceEvent = [] := by
    refine List.filterMap_eq_nil_iff.mpr (fun v hv => ?_)
    rcases hws v hv with ⟨q, rfl⟩ | ⟨e, rfl⟩
    · rfl
    · rfl
  show (ws.filterMap Database.balanceEvent).forM _ = _
  rw [hnone]
  rfl

/-- A run that wrote a payment and events only comes to the same on every database. -/
theorem settle_status {ended : Ended Write PyError Reply} (h : ∀ v ∈ ended.written, v.OfStatus)
    (db db' : Database) : ended.settle postgres db = ended.settle postgres db' ∧
      ∀ v ∈ (ended.settle postgres db).2, v.OfStatus := by
  cases ended with
  | returned reply ws =>
    have hok : ∀ db, postgres.deferred db ws = .ok () := fun db => deferred_status h
    simp only [Ended.settle, hok]
    exact ⟨trivial, h⟩
  | raised e ws => exact ⟨rfl, fun v hv => (List.not_mem_nil hv).elim⟩
  | failed result => exact ⟨rfl, fun v hv => (List.not_mem_nil hv).elim⟩

/-- An execution is explained by what its program came to. -/
theorem explained_of_comesTo {f : Answered} {record : List Answered}
    {ended : Ended Write PyError Reply} (hw : w = worldAfter (start ++ record))
    (hsettle : ended.settle postgres w.committed = (f.answer, f.writes))
    (h : (f.label.handler lib settings).run postgres w.committed [] = ended ∨
      Foreseen postgres (Since lib settings start f.label) Write.OfStatus
        (f.label.handler lib settings) ended L w) :
    f.Explained lib settings start record := by
  rcases h with hrun | ⟨w₀, hsince, hrun, hwritten⟩
  · left
    rw [hw] at hrun hsettle
    show outcome postgres (f.label.handler lib settings)
      (worldAfter (start ++ record)).committed = _
    rw [outcome, hrun]
    exact hsettle
  · right
    obtain ⟨hsame, hstatus⟩ := settle_status hwritten w.committed w₀.committed
    obtain ⟨h', hhistory, helsewhere⟩ := hsince.elsewhere
    obtain ⟨record₀, hw₀, -⟩ := hsince.1
    refine ⟨?_, record₀, h', ?_, ?_, helsewhere⟩
    · intro v hv
      refine hstatus v ?_
      rw [hsettle]
      exact hv
    · rw [hw, hw₀] at hhistory
      have happend : start ++ record = start ++ record₀ ++ h' := hhistory
      rw [List.append_assoc] at happend
      exact List.append_cancel_left happend
    · show outcome postgres (f.label.handler lib settings)
        (worldAfter (start ++ record₀)).committed = _
      rw [← hw₀, outcome, hrun]
      exact (hsame.symm).trans hsettle

/-- The end of a request that moves money is allowed. -/
theorem allowed_moving {f : Answered} (hi : Moved lib settings start w)
    (hends : Ends lib settings L w.committed f) (hreserved : Reserved f.writes L w)
    (hop : f.label.operation.movesMoney = true) (hattends : f.label.Attends L w.committed)
    (hexplained : ∀ record, w = worldAfter (start ++ record) →
      f.Explained lib settings start record) :
    Allowed (Moving lib settings start) (Moved lib settings start) L w (w.after postgres f) := by
  have hmoves : f.Moves (committedAfter start) := Ends.moves hi hends hop
  refine ⟨⟨f, rfl, hends, hreserved, hmoves, hattends⟩, ?_⟩
  obtain ⟨record, rfl, hh, hrecord⟩ := hi
  refine ⟨record ++ [f], ?_, ?_, ?_⟩
  · rw [← List.append_assoc, worldAfter_concat]
  · rw [← List.append_assoc]
    exact .concat L hh hends hreserved
  · intro before g rest hcut
    rcases Reordering.eq_append_concat hcut with ⟨hnil, -⟩ | ⟨rest', hrest, hbefore⟩
    · cases hnil
    · cases rest' with
      | nil =>
        cases hrest
        rw [List.append_nil] at hbefore
        subst hbefore
        exact ⟨hmoves, hexplained record rfl⟩
      | cons x rest' =>
        cases hrest
        exact hrecord before g rest' hbefore

/-! ## Every request keeps the guarantee -/

/-- What is allowed of a request that has ended is known of it. -/
theorem ends_of_allowed {f : Answered}
    (h : Allowed (Guarantee lib settings) Inv L w (w.after postgres f)) :
    Ends lib settings L w.committed f ∧ Reserved f.writes L w := by
  obtain ⟨⟨g, hworld, hends, hreserved⟩, -⟩ := h
  have hfg : [f] = [g] := List.append_cancel_left (congrArg World.history hworld)
  obtain rfl : f = g := List.singleton_injective hfg
  exact ⟨hends, hreserved⟩

/-- What may happen among requests that move money may happen among all requests. -/
theorem Passing.rely (h : Passing lib settings start L w w₀) :
    Rely (Guarantee lib settings) Inv L w w₀ :=
  h.weaken (fun _ _ _ hg => hg.guarantee) (fun _ hi => hi.inv)

/-- What was told of a program is so later. -/
theorem comesTo_later {p : Session Reply} {ended : Ended Write PyError Reply} {w' : ServiceWorld}
    (h : ComesTo postgres (Moving lib settings start) (Moved lib settings start) p []
      (Foreseen postgres (Since lib settings start r) Write.OfStatus p) ended L w)
    (hr : Passing lib settings start L w w') (hi : Moved lib settings start w') :
    p.run postgres w'.committed [] = ended ∨
      Foreseen postgres (Since lib settings start r) Write.OfStatus p ended L w' := by
  rcases h with h | ⟨w₀, hsince, hrun, hwritten⟩
  · exact Or.inl (h w' hr hi)
  · exact Or.inr ⟨w₀, (steady_since r w₀).rely hr hsince, hrun, hwritten⟩

/-- Every request that moves money keeps the guarantee. -/
theorem safe_moving (hop : r.operation.movesMoney = true) (hi : Moved lib settings start w) :
    Safe postgres (Moving lib settings start) (Moved lib settings start) r
      (r.handler lib settings) [] [] w := by
  have hweaker : ∀ L w w', Moving lib settings start L w w' → Guarantee lib settings L w w' :=
    fun _ _ _ hg => hg.guarantee
  have hinv : ∀ w, Moved lib settings start w → Inv w := fun _ hi => hi.inv
  have hsafe := wp_weaken hweaker hinv (@safe_handler lib settings r w)
  have hexplains := @explains_handler lib settings start r [] w hop
  refine wp_mono (wp_attends hop hi (wp_and hsafe hexplains)) ?_ ?_ ?_
  · rintro reply ws L w ⟨hattends, hreturn, hcomes⟩ w₁ hr₁ hi₁
    have hchecked : ∀ w', Passing lib settings start L w w' → Moved lib settings start w' →
        postgres.deferred (postgres.view w'.committed ws) ws = .ok () ∧
          Ends lib settings L w'.committed ⟨r, .committed reply, ws⟩ ∧ Reserved ws L w' := by
      intro w' hr hi'
      have hcommit := hreturn w' hr.rely hi'.inv
      cases hdeferred : postgres.deferred (postgres.view w'.committed ws) ws with
      | error d =>
        rw [hdeferred] at hcommit
        exact (ends_of_allowed hcommit).1.elim
      | ok u =>
        rw [hdeferred] at hcommit
        exact ⟨rfl, ends_of_allowed (hcommit w' (Rely.refl _ _) hi'.inv)⟩
    rw [(hchecked w₁ hr₁ hi₁).1]
    intro w₂ hr₂ hi₂
    have hr := hr₁.trans hr₂
    obtain ⟨hok, hends, hreserved⟩ := hchecked w₂ hr hi₂
    refine allowed_moving hi₂ hends hreserved hop ((steady_attends r).rely hr hattends).2
      (fun record hw => explained_of_comesTo hw ?_ (comesTo_later hcomes hr hi₂))
    simp only [Ended.settle, hok]
  · rintro e ws L w ⟨hattends, hrollback, hcomes⟩ w₁ hr₁ hi₁
    obtain ⟨hends, hreserved⟩ := ends_of_allowed (hrollback w₁ (Passing.rely hr₁) hi₁.inv)
    exact allowed_moving hi₁ hends hreserved hop ((steady_attends r).rely hr₁ hattends).2
      (fun record hw => explained_of_comesTo hw rfl (comesTo_later hcomes hr₁ hi₁))
  · rintro result L w ⟨⟨hattends, hi'⟩, hallowed, hcomes⟩
    obtain ⟨hends, hreserved⟩ := ends_of_allowed hallowed
    exact allowed_moving hi' hends hreserved hop hattends.2
      (fun record hw => explained_of_comesTo hw rfl hcomes)

end Serve

/-! ## A serial order -/

section Order

variable {lib : Libraries} {settings : Settings} {start : List Answered}

/-- Executions one after the other leave what the history of them leaves. -/
theorem afterAll_committedAfter (h : List Answered) :
    (reordering lib settings (committedAfter start)).afterAll (committedAfter start) h =
      committedAfter (start ++ h) := by
  induction h using List.reverseRecOn with
  | nil => rw [List.append_nil, Reordering.afterAll_nil]
  | append_singleton h f ih =>
    rw [Reordering.afterAll_append, ih, ← List.append_assoc, committedAfter_concat]
    rfl

/-- Requests served in a serial order are answered as recorded. -/
theorem serve_serial {base : Database} {h order : List Answered}
    (hserial : (reordering lib settings base).Serial (committedAfter h) order) :
    (order.map (fun f => f.label)).foldl (serve lib settings) (worldAfter h) =
      worldAfter (h ++ order) := by
  induction order generalizing h with
  | nil => rw [List.append_nil]; rfl
  | cons f order ih =>
    obtain ⟨hanswers, hserial⟩ := hserial
    have hserve : serve lib settings (worldAfter h) f.label = worldAfter (h ++ [f]) := by
      rw [worldAfter_concat]
      show (worldAfter h).after postgres ⟨f.label,
        (outcome postgres (f.label.handler lib settings) (committedAfter h)).1,
        (outcome postgres (f.label.handler lib settings) (committedAfter h)).2⟩ = _
      have hanswers' : outcome postgres (f.label.handler lib settings) (committedAfter h) =
        (f.answer, f.writes) := hanswers
      rw [hanswers']
    rw [List.map_cons, List.foldl_cons, hserve, ih]
    · rw [List.append_assoc, List.singleton_append]
    · rw [committedAfter_concat]
      exact hserial

/-- An execution is explained as the reordering of executions asks for. -/
theorem Answered.Explained.reordering {before : List Answered} {f : Answered}
    (h : f.Explained lib settings start before)
    (hdraws : ∀ g ∈ before, f.label.DrawsApart g.label) :
    (reordering lib settings (committedAfter start)).Explained (committedAfter start) before f := by
  rcases h with hnow | ⟨hstatus, h₁, h₂, rfl, hearlier, helsewhere⟩
  · left
    rw [afterAll_committedAfter]
    exact hnow
  · right
    refine ⟨hstatus, h₁, h₂, rfl, ?_, ?_⟩
    · rw [afterAll_committedAfter]
      exact hearlier
    · exact fun g hg => ⟨helsewhere g hg, hdraws g (List.mem_append_right _ hg)⟩

end Order

/-- The requests answered on the way from `w` to `w'` have the serial order `order`: served in it
one after the other they answer and write the same, and leave the same database, up to the order
of the events. -/
structure SerialOrder (lib : Libraries) (settings : Settings) (w w' : ServiceWorld)
    (order : List Answered) : Prop where
  requests : ∃ record, w'.history = w.history ++ record ∧ order.Perm record
  answers : ((order.map (fun f => f.label)).foldl (serve lib settings) w).history =
    w.history ++ order
  database : EventsPermuted ((order.map (fun f => f.label)).foldl (serve lib settings) w).committed
    w'.committed

/-- At the start nothing has moved. -/
theorem History.moved {lib : Libraries} {settings : Settings} {start : List Answered}
    {w : ServiceWorld} (hh : History lib settings start) (hw : w = worldAfter start) :
    Moved lib settings start w := by
  refine ⟨[], ?_, ?_, ?_⟩
  · rw [List.append_nil]
    exact hw
  · rw [List.append_nil]
    exact hh
  · intro before f rest hcut
    exact absurd hcut (by simp)

/-- **Recorded movements of money have a serial order.** -/
theorem Moved.exists_order {lib : Libraries} {settings : Settings} {start : List Answered}
    {w : ServiceWorld} (h : Moved lib settings start w) {record : List Answered}
    (hw : w.history = start ++ record)
    (hdraws : (record.map (fun f => f.label)).Pairwise Request.DrawsApart) :
    ∃ order, order.Perm record ∧ SerialOrder lib settings (worldAfter start) w order := by
  obtain ⟨record', rfl, hh, hrecord⟩ := h
  obtain rfl : record' = record := List.append_cancel_left hw
  have hd : SameBooks (committedAfter start) (committedAfter start) (committedAfter start) :=
    ⟨fun _ _ => rfl, EventsPermuted.refl _⟩
  obtain ⟨order, horder⟩ := Reordering.exists_order
    (lawful_reordering lib settings (committedAfter start)) hd
    (fun f hf => by
      obtain ⟨before, rest, hcut⟩ := List.append_of_mem hf
      exact (hrecord before f rest hcut).1)
    (fun before f rest hcut => by
      refine (hrecord before f rest hcut).2.reordering (fun g hg => ?_)
      rw [hcut, List.map_append, List.pairwise_append] at hdraws
      intro m n heq
      exact hdraws.2.2 g.label (List.mem_map_of_mem hg) f.label
        (List.mem_map_of_mem List.mem_cons_self) n m heq.symm)
  have hserved := serve_serial horder.serial
  refine ⟨order, horder.perm, ⟨record', rfl, horder.perm⟩, ?_, ?_⟩
  · rw [hserved]
    rfl
  · have hsame := horder.same
    rw [afterAll_committedAfter, afterAll_committedAfter] at hsame
    rw [hserved]
    exact hsame.permuted

/-- **Movements of money are serialisable.**  From any state in which no request is in progress,
under every schedule of fundings, authorizations, captures, cancellations and refunds that draw
different ids for their rows, the answered requests have a serial order; each request of the
schedule is answered once, is still in progress or was lost in a crash. -/
theorem replay_serialisable (lib : Libraries) (settings : Settings)
    (setup schedule : List (Action Request)) (hquiet : (replay lib settings setup).active = [])
    (hmoves : ∀ r, .begin r ∈ schedule → r.operation.movesMoney = true)
    (hdraws : (schedule.filterMap Action.begun?).Pairwise Request.DrawsApart) :
    ∃ order crashed,
      SerialOrder lib settings (replay lib settings setup).world
        (replay lib settings (setup ++ schedule)).world order ∧
      (order.map (fun f => f.label) ++ crashed ++
        (replay lib settings (setup ++ schedule)).active.map (fun t => t.label)).Perm
          (schedule.filterMap Action.begun?) ∧
      (crashed ≠ [] → ∃ n, .crash n ∈ schedule) := by
  obtain ⟨hworld, hhistory⟩ := @history_replay lib settings setup
  generalize hstart : (replay lib settings setup).world.history = start at *
  have hsafe : SystemSafe postgres (Moving lib settings start) (Moved lib settings start)
      (replay lib settings setup) := SystemSafe.of_quiet (hhistory.moved hworld) hquiet
  have hend := (SystemSafe.replay_of (fun r hr w hi => safe_moving hr hi) hsafe hmoves).inv
  rw [← replay_append] at hend
  obtain ⟨record, crashed, hrecord, hbegun, hcrash⟩ := System.perm_begun (M := postgres)
    (Request.handler lib settings) (replay lib settings setup) schedule
  rw [← replay_append] at hbegun hrecord
  rw [hstart] at hrecord
  rw [hquiet, List.map_nil, List.nil_append] at hbegun
  have hsymm : ∀ {a b : Request}, a.DrawsApart b → b.DrawsApart a := fun h m n heq => h n m heq.symm
  have happart : (record.map (fun f => f.label)).Pairwise Request.DrawsApart := by
    have hall := (hbegun.pairwise_iff hsymm).mpr hdraws
    rw [List.append_assoc] at hall
    exact hall.sublist (List.sublist_append_left _ _)
  obtain ⟨order, hperm, horder⟩ := hend.exists_order hrecord happart
  rw [← hworld] at horder
  refine ⟨order, crashed, horder, ?_, hcrash⟩
  exact (((hperm.map _).append_right _).append_right _).trans hbegun

/-! ## A sample run -/

/-- The `n`th sample request, which draws sixteen ids. -/
def movingRequest (n : ℕ) (operation : Operation) : Request :=
  ⟨sampleMerchant, operation, sampleUUID (0x1000 + n),
    ⟨fun i => sampleUUID (16 * n + i % 16), fun _ => 0, "token"⟩⟩

/-- The authorization of the sample payment. -/
def sampleAuthorization : Request := movingRequest 4 (.authorizePayment samplePayment)

/-- The funding of the sample account. -/
def sampleFunding : Request :=
  movingRequest 5 (.fundAccount (sampleUUID 17) ⟨1000, .eur, sampleFunding_positive⟩)

/-- A request served alone. -/
def alone (r : Request) : List (Action Request) :=
  .begin r :: List.replicate 14 (.statement 0) ++ [.check 0, .commit 0]

/-- A payment of a customer without funds. -/
def unfundedPayment : List (Action Request) :=
  ([sampleRequest 0 (.createMerchant sampleShop), sampleRequest 1 (.createCustomer sampleCustomer),
    sampleRequest 3 (.createPayment ⟨sampleUUID 16, 500, .eur, samplePayment_positive⟩ "key")]
    : List Request).flatMap alone

/-- The authorization looks up the customer's ledger accounts, then the funding is served, and the
authorization goes on. -/
def earlyAuthorization : List (Action Request) :=
  [.begin sampleAuthorization, .begin sampleFunding] ++ List.replicate 3 (.statement 0) ++
    List.replicate 14 (.statement 1) ++ [.check 1, .commit 1] ++
    List.replicate 14 (.statement 0) ++ [.check 0, .commit 0]

/-- Different sample requests draw different ids. -/
theorem movingRequest_drawsApart {n n' : ℕ} (hn : n < 16) (hn' : n' < 16) (hne : n ≠ n')
    (operation operation' : Operation) :
    (movingRequest n operation).DrawsApart (movingRequest n' operation') := by
  intro i i' heq
  have hbits : (0x40008000000000000000 + (16 * n + i % 16)) % 2 ^ 128 =
      (0x40008000000000000000 + (16 * n' + i' % 16)) % 2 ^ 128 :=
    congrArg (fun id : UUID => id.int.toNat) heq
  omega

/-- The theorem where the funding ends first: the authorization is refused for want of funds, and
would not be if it had been served second. -/
theorem replay_serialisable_earlyAuthorization :
    (∃ order crashed,
      SerialOrder sampleLibraries {} (replay sampleLibraries {} unfundedPayment).world
        (replay sampleLibraries {} (unfundedPayment ++ earlyAuthorization)).world order ∧
      (order.map (fun f => f.label) ++ crashed ++
        (replay sampleLibraries {} (unfundedPayment ++ earlyAuthorization)).active.map
          (fun t => t.label)).Perm (earlyAuthorization.filterMap Action.begun?) ∧
      (crashed ≠ [] → ∃ n, .crash n ∈ earlyAuthorization)) ∧
      ((replay sampleLibraries {} (unfundedPayment ++ earlyAuthorization)).world.history.drop 3).map
        (fun f => f.label.operation) = [sampleFunding.operation, sampleAuthorization.operation] ∧
      (replay sampleLibraries {}
        (unfundedPayment ++ earlyAuthorization)).world.committed.payments.rows.map
          (fun p => p.status) = [.failed] ∧
      (serve sampleLibraries {} (serve sampleLibraries {}
        (replay sampleLibraries {} unfundedPayment).world sampleFunding)
          sampleAuthorization).committed.payments.rows.map (fun p => p.status) = [.authorized] := by
  have hbegun : earlyAuthorization.filterMap Action.begun? =
      [sampleAuthorization, sampleFunding] := rfl
  refine ⟨replay_serialisable sampleLibraries {} unfundedPayment earlyAuthorization
    (List.isEmpty_iff.mp (by decide +kernel)) ?_ ?_, by decide +kernel⟩
  · intro r hr
    have hmem : r ∈ earlyAuthorization.filterMap Action.begun? :=
      List.mem_filterMap.mpr ⟨_, hr, rfl⟩
    rw [hbegun] at hmem
    rcases List.mem_pair.mp hmem with rfl | rfl
    · rfl
    · rfl
  · rw [hbegun, List.pairwise_pair]
    exact movingRequest_drawsApart (by decide) (by decide) (by decide) _ _

end ForgePay
