import ForgePay.Analysis.Histories

/-!
# Signing secrets

Every registered endpoint has exactly one active secret (`replay_singleActive`).  A secret is
made by the registration of its endpoint or by a rotation, which holds the row of the endpoint
`FOR UPDATE` from before it reads the secrets until its commit; so the secrets of an endpoint
are extended one at a time, each rotation retiring the secret that was active and numbering
the new one by the count of those before (`Rotated.rotate`).
-/

set_option autoImplicit false

namespace ForgePay

open Relational (Table)
open Transactions

variable {lib : Libraries} {settings : Settings}

/-! ## The secrets of one endpoint -/

/-- A maximum is bounded where all its members are. -/
theorem foldl_max_le {l : List ℤ} {n m : ℤ} (hn : n ≤ m) (hl : ∀ x ∈ l, x ≤ m) :
    l.foldl max n ≤ m := by
  induction l generalizing n with
  | nil => exact hn
  | cons a l ih =>
    exact ih (max_le hn (hl a List.mem_cons_self)) (fun x hx => hl x (List.mem_cons_of_mem _ hx))

namespace Rotated

variable {secrets : List WebhookSecret}

/-- The first secret of an endpoint. -/
theorem singleton {s : WebhookSecret} (hversion : s.version = 1) (hactive : s.active = true) :
    Rotated [s] where
  versions := by simp [hversion]
  active := ⟨[], s, rfl, hactive, fun _ h => (List.not_mem_nil h).elim⟩

/-- Every version is at most the number of secrets. -/
theorem version_le (h : Rotated secrets) {s : WebhookSecret} (hs : s ∈ secrets) :
    s.version ≤ secrets.length := by
  have hmem : s.version ∈ secrets.map (fun s => s.version) := List.mem_map_of_mem hs
  rw [h.versions, List.mem_map] at hmem
  obtain ⟨i, hi, hversion⟩ := hmem
  have hlt := List.mem_range.mp hi
  omega

/-- The last secret has the number of secrets as its version. -/
theorem version_last {retired : List WebhookSecret} {current : WebhookSecret}
    (h : Rotated (retired ++ [current])) : current.version = retired.length + 1 := by
  have hversions := h.versions
  rw [List.length_append, List.length_singleton, List.range_succ, List.map_append,
    List.map_append] at hversions
  have hlast := (List.append_inj' hversions rfl).2
  exact List.head_eq_of_cons_eq hlast

/-- The largest version is the number of secrets. -/
theorem latest_eq (h : Rotated secrets) :
    (secrets.map (fun s => s.version)).foldl max 0 = secrets.length := by
  apply le_antisymm
  · apply foldl_max_le (Int.natCast_nonneg _)
    intro x hx
    obtain ⟨s, hs, rfl⟩ := List.mem_map.mp hx
    exact h.version_le hs
  · obtain ⟨retired, current, rfl, -, -⟩ := h.active
    have hversion := h.version_last
    have hle := @version_le_foldl_max (retired ++ [current]) current
      (List.mem_append_right _ (List.mem_singleton.mpr rfl)) 0
    rw [hversion] at hle
    rw [List.length_append, List.length_singleton]
    exact hle

/-- The active secret of an endpoint is the last one. -/
theorem find_active {retired : List WebhookSecret} {current : WebhookSecret}
    (hactive : current.active = true) (hretired : ∀ s ∈ retired, s.active = false) :
    (retired ++ [current]).find? (fun s => s.active) = some current := by
  have hnone : retired.find? (fun s => s.active) = none := by
    apply List.find?_eq_none.mpr
    intro s hs
    rw [hretired s hs]
    exact Bool.false_ne_true
  rw [List.find?_append, hnone, Option.none_or, List.find?_singleton, if_pos hactive]

/-- A rotation keeps the secrets in order. -/
theorem rotate {retired : List WebhookSecret} {current new : WebhookSecret} {now : Timestamp}
    (h : Rotated (retired ++ [current])) (hretired : ∀ s ∈ retired, s.active = false ∧
      s.retiredAt.isSome) (hversion : new.version = (retired ++ [current]).length + 1)
    (hactive : new.active = true) : Rotated ((retired ++ [current.retired now]) ++ [new]) where
  versions := by
    have hlength : ((retired ++ [current.retired now]) ++ [new]).length =
        (retired ++ [current]).length + 1 := by simp
    have hsame : (retired ++ [current.retired now]).map (fun s => s.version) =
        (retired ++ [current]).map (fun s => s.version) := by
      rw [List.map_append, List.map_append]
      rfl
    rw [hlength, List.range_succ, List.map_append, hsame, h.versions, List.map_append]
    simp only [List.map_cons, List.map_nil, hversion]
  active := by
    refine ⟨retired ++ [current.retired now], new, rfl, hactive, ?_⟩
    intro s hs
    rcases List.mem_append.mp hs with hs | hs
    · exact hretired s hs
    · rw [List.mem_singleton.mp hs]
      exact ⟨rfl, rfl⟩

end Rotated

/-- Retiring the last secret of an endpoint, the active one. -/
theorem secretsOf_secretsRetired {db : Database} {id : UUID} {now : Timestamp}
    {retired : List WebhookSecret} {current : WebhookSecret}
    (hsecrets : db.secretsOf id = retired ++ [current])
    (hactive : current.active = true) (hretired : ∀ s ∈ retired, s.active = false) :
    (db.secretsRetired id now).rows.filter (fun s => decide (s.endpointId = id)) =
      retired ++ [current.retired now] := by
  have hfind : db.activeSecretOf id = some current := by
    rw [Database.activeSecretOf, hsecrets]
    exact Rotated.find_active hactive hretired
  obtain ⟨hmem, hid, -⟩ := activeSecretOf_eq_some hfind
  have hother : ∀ s ∈ retired, Relational.key s ≠ Relational.key (current.retired now) := by
    intro s hs hk
    have hrow : s ∈ db.secretsOf id := by
      rw [hsecrets]
      exact List.mem_append_left _ hs
    have hsame : s = current := Table.eq_of_key_eq (mem_secretsOf.mp hrow).1 hmem hk
    have hinactive := hretired s hs
    rw [hsame, hactive] at hinactive
    cases hinactive
  have hfilter : (db.webhookSecrets.set (current.retired now)).rows.filter
      (fun s => decide (s.endpointId = id)) = (db.secretsOf id).map
        (fun x => if Relational.key x = Relational.key (current.retired now)
          then current.retired now else x) := by
    refine Table.filter_set ?_
    intro x hx hk
    have hsame : x = current := Table.eq_of_key_eq hx hmem hk
    rw [hsame]
    rfl
  rw [Database.secretsRetired, hfind]
  simp only [hfilter, hsecrets, List.map_append, List.map_cons, List.map_nil]
  congr 1
  · conv_rhs => rw [← List.map_id retired]
    apply List.map_congr_left
    intro s hs
    rw [if_neg (hother s hs)]
    rfl
  · have hkey : Relational.key current = Relational.key (current.retired now) := rfl
    rw [if_pos hkey]

/-! ## What the history has given out -/

/-- The request was answered with the signing secret `plaintext` of an endpoint. -/
def GivesOut (f : Answered) (endpointId : UUID) (plaintext : String) : Prop :=
  f.label.signs = some endpointId ∧ ∃ status, f.answer = .committed (.response status
    (.obj [(Py.str "endpoint_id", endpointId.json), (Py.str "signing_secret", .text plaintext)]))

/-- The last signing secret of an endpoint that was given out. -/
def LastGivenOut (h : List Answered) (endpointId : UUID) (plaintext : String) : Prop :=
  ∃ pre f post, h = pre ++ f :: post ∧ GivesOut f endpointId plaintext ∧
    ∀ g ∈ post, ∀ plaintext', ¬ GivesOut g endpointId plaintext'

/-- The secret that is given out now is the last one given out. -/
theorem lastGivenOut_concat {h : List Answered} {f : Answered} {endpointId : UUID}
    {plaintext : String} (hf : GivesOut f endpointId plaintext) :
    LastGivenOut (h ++ [f]) endpointId plaintext :=
  ⟨h, f, [], rfl, hf, fun _ hg => (List.not_mem_nil hg).elim⟩

/-- A request that gives no secret out leaves the last one as it was. -/
theorem LastGivenOut.concat {h : List Answered} {f : Answered} {endpointId : UUID}
    {plaintext : String} (hlast : LastGivenOut h endpointId plaintext)
    (hf : ∀ plaintext', ¬ GivesOut f endpointId plaintext') :
    LastGivenOut (h ++ [f]) endpointId plaintext := by
  obtain ⟨pre, g, post, rfl, hg, hpost⟩ := hlast
  refine ⟨pre, g, post ++ [f], by simp, hg, ?_⟩
  intro x hx
  rcases List.mem_append.mp hx with hx | hx
  · exact hpost x hx
  · rw [List.mem_singleton.mp hx]
    exact hf

/-! ## The invariant of the secrets -/

variable (lib settings) in
/-- The secrets of a registered endpoint after the requests of `h`: in order, the active one
with the hash in the endpoint's row and the encryption of the secret last given out. -/
structure Signed (h : List Answered) (db : Database) (e : WebhookEndpoint) : Prop where
  rotated : Rotated (db.secretsOf e.id)
  current : ∃ current plaintext nonce, db.activeSecretOf e.id = some current ∧
    current.secretCiphertext = lib.encrypt settings.webhookSecretMasterKey nonce plaintext ∧
    current.secretHash = hashSecret lib plaintext ∧ e.secretHash = hashSecret lib plaintext ∧
    LastGivenOut h e.id plaintext

variable (lib settings) in
/-- Every secret is of a registered endpoint, and the secrets of every registered endpoint are
signed. -/
structure AllSigned (h : List Answered) (db : Database) : Prop where
  owned : ∀ s ∈ db.webhookSecrets.rows, s.endpointId ∈ db.webhookEndpoints.keys
  signed : ∀ e ∈ db.webhookEndpoints.rows, Signed lib settings h db e

/-- A request that makes no secret of an endpoint leaves it signed. -/
theorem Signed.concat {h : List Answered} {db db' : Database} {e : WebhookEndpoint} {f : Answered}
    (hsigned : Signed lib settings h db e) (hsecrets : db'.secretsOf e.id = db.secretsOf e.id)
    (hf : ∀ plaintext, ¬ GivesOut f e.id plaintext) :
    Signed lib settings (h ++ [f]) db' e := by
  obtain ⟨current, plaintext, nonce, hactive, hcipher, hhash, hhash', hlast⟩ := hsigned.current
  refine ⟨by rw [hsecrets]; exact hsigned.rotated, current, plaintext, nonce, ?_, hcipher,
    hhash, hhash', hlast.concat hf⟩
  rw [Database.activeSecretOf, hsecrets]
  exact hactive

/-- An endpoint whose last secret was just made is signed. -/
theorem signed_of_new {h : List Answered} {db : Database} {e : WebhookEndpoint} {f : Answered}
    {retired : List WebhookSecret} {id now : ℕ} {version : ℤ}
    (hsecrets : db.secretsOf e.id = retired ++ [newSecret lib settings f.label id now e.id version])
    (hrotated : Rotated (retired ++ [newSecret lib settings f.label id now e.id version]))
    (hretired : ∀ s ∈ retired, s.active = false)
    (hhash : e.secretHash = hashSecret lib (generateWebhookSecret f.label.generated))
    (hf : GivesOut f e.id (generateWebhookSecret f.label.generated)) :
    Signed lib settings (h ++ [f]) db e := by
  have hactive : db.activeSecretOf e.id =
      some (newSecret lib settings f.label id now e.id version) := by
    rw [Database.activeSecretOf, hsecrets]
    exact Rotated.find_active rfl hretired
  exact ⟨by rw [hsecrets]; exact hrotated, _, _, _, hactive, rfl, rfl, hhash,
    lastGivenOut_concat hf⟩

/-- Every effect keeps the endpoints signed. -/
theorem AllSigned.effect {h : List Answered} {L : Locks Resource} {db db' : Database}
    {f : Answered} {reply : Reply} (hall : AllSigned lib settings h db)
    (heffect : SecretEffect lib settings L db db' f.label reply)
    (hanswer : f.answer = .committed reply) : AllSigned lib settings (h ++ [f]) db' := by
  have hother : ∀ e ∈ db.webhookEndpoints.rows, f.label.signs ≠ some e.id →
      Signed lib settings (h ++ [f]) db' e := fun e he hid =>
    (hall.signed e he).concat (heffect.secretsOf_eq hid) (fun _ hgives => hid hgives.1)
  cases heffect with
  | same signs endpoints secrets =>
    refine ⟨?_, ?_⟩
    · rw [endpoints, secrets]
      exact hall.owned
    · intro e he
      rw [endpoints] at he
      refine hother e he ?_
      rw [signs]
      exact fun h => by cases h
  | registered body operation endpoint_unused secret_unused reply_eq endpoints secrets =>
    have hsigns : f.label.signs = some (f.label.generated.uuid4 0) := by
      simp only [Request.signs, operation]
    refine ⟨?_, ?_⟩
    · intro s hs
      rw [secrets] at hs
      rw [endpoints, Table.mem_keys_insert]
      rcases Table.mem_of_mem_insert hs with hs | rfl
      · exact Or.inl (hall.owned s hs)
      · exact Or.inr rfl
    · intro e he
      rw [endpoints] at he
      rcases Table.mem_of_mem_insert he with he | rfl
      · refine hother e he ?_
        rw [hsigns]
        intro h
        exact endpoint_unused (Option.some.inj h ▸ Table.key_mem_keys he)
      · have hnone : db.secretsOf (f.label.generated.uuid4 0) = [] := by
          apply List.filter_eq_nil_iff.mpr
          intro s hs hid
          exact endpoint_unused (of_decide_eq_true hid ▸ hall.owned s hs)
        have hsecrets : db'.secretsOf (f.label.generated.uuid4 0) =
            [] ++ [newSecret lib settings f.label 1 0 (f.label.generated.uuid4 0) 1] := by
          rw [Database.secretsOf, secrets, Table.filter_insert
            (r := newSecret lib settings f.label 1 0 (f.label.generated.uuid4 0) 1) secret_unused]
          rw [Database.secretsOf] at hnone
          rw [hnone, if_pos (by simp [newSecret])]
        exact signed_of_new hsecrets (Rotated.singleton rfl rfl)
          (fun _ h => (List.not_mem_nil h).elim) rfl ⟨hsigns, 201, by rw [hanswer, reply_eq]; rfl⟩
  | rotated endpointId operation endpoint row merchant lock secret_unused reply_eq endpoints
      secrets =>
    have hsigns : f.label.signs = some endpointId := by simp only [Request.signs, operation]
    have hmem := Table.mem_of_get? row
    obtain rfl : endpoint.id = endpointId := Table.key_of_get? row
    have hsigned := hall.signed endpoint hmem
    obtain ⟨retired, current, hold, hactive, hretired⟩ := hsigned.rotated.active
    refine ⟨?_, ?_⟩
    · intro s hs
      rw [secrets] at hs
      rw [endpoints, Table.keys_set]
      rcases Table.mem_of_mem_insert hs with hs | rfl
      · rcases mem_secretsRetired hs with ⟨hs, -⟩ | ⟨t, ht, rfl⟩
        · exact hall.owned s hs
        · exact hall.owned t (activeSecretOf_eq_some ht).1
      · exact Table.key_mem_keys hmem
    · intro e he
      rw [endpoints] at he
      rcases Table.mem_of_mem_set he with ⟨he, hne⟩ | ⟨rfl, -⟩
      · refine hother e he ?_
        rw [hsigns]
        exact fun h => hne (Option.some.inj h).symm
      · have hlatest : db.latestSecretVersion endpoint.id = (retired ++ [current]).length := by
          rw [Database.latestSecretVersion, hsigned.rotated.latest_eq, hold]
        have hsecrets : db'.secretsOf endpoint.id =
            (retired ++ [current.retired (f.label.generated.utcNow 0)]) ++
              [newSecret lib settings f.label 0 1 endpoint.id
                (db.latestSecretVersion endpoint.id + 1)] := by
          rw [Database.secretsOf, secrets, Table.filter_insert (by
            rw [keys_secretsRetired]
            exact secret_unused), secretsOf_secretsRetired hold hactive
              (fun s hs => (hretired s hs).1), if_pos (by simp [newSecret])]
        have hinactive : ∀ s ∈ retired ++ [current.retired (f.label.generated.utcNow 0)],
            s.active = false := by
          intro s hs
          rcases List.mem_append.mp hs with hs | hs
          · exact (hretired s hs).1
          · rw [List.mem_singleton.mp hs]
            rfl
        refine signed_of_new (e := endpoint.rotated lib f.label) hsecrets ?_ hinactive rfl
          ⟨hsigns, 200, by rw [hanswer, reply_eq]; rfl⟩
        have hrotated := hsigned.rotated
        rw [hold] at hrotated
        exact hrotated.rotate hretired (by rw [hlatest]; rfl) rfl

/-- After every history each endpoint signs with the secret last given out. -/
theorem History.allSigned {h : List Answered} (hh : History lib settings h) :
    AllSigned lib settings h (committedAfter h) := by
  induction hh with
  | nil => exact ⟨fun _ h => (List.not_mem_nil h).elim, fun _ h => (List.not_mem_nil h).elim⟩
  | @concat h f L before ends reserved ih =>
    rw [committedAfter_concat]
    rcases ends.step with ⟨hnone, hrefused⟩ | ⟨reply, hanswer, heffect⟩
    · rw [hnone, Semantics.view_nil]
      refine ⟨ih.owned, ?_⟩
      intro e he
      refine (ih.signed e he).concat rfl ?_
      rintro plaintext ⟨-, status, hanswer⟩
      exact hrefused _ hanswer
    · exact ih.effect (heffect.secrets (w := worldAfter h) reserved) hanswer

/-! ## The main theorem -/

variable (lib settings) in
/-- What holds of the signing secrets of a registered endpoint, after the requests of `h` have
left the database `db`. -/
structure SingleActive (h : List Answered) (db : Database) (e : WebhookEndpoint) : Prop where
  one_active : ((db.secretsOf e.id).filter (fun s => s.active)).length = 1
  versions : (db.secretsOf e.id).map (fun s => s.version) =
    (List.range (db.secretsOf e.id).length).map (fun i : ℕ => (i : ℤ) + 1)
  current : ∃ current ∈ db.secretsOf e.id, current.active = true ∧
    current.version = (db.secretsOf e.id).length ∧ e.secretHash = current.secretHash ∧
    ∀ s ∈ db.secretsOf e.id, s ≠ current → s.active = false ∧ s.retiredAt.isSome
  plaintext : ∃ plaintext, LastGivenOut h e.id plaintext ∧
    e.secretHash = hashSecret lib plaintext ∧
    outcome postgres (activeWebhookSecret lib settings e.id) db = (.committed plaintext, [])

/-- `active_webhook_secret` returns what the active secret decrypts to. -/
theorem outcome_activeWebhookSecret {db : Database} {endpointId : UUID} {s : WebhookSecret}
    {plaintext : String} (hactive : db.activeSecretOf endpointId = some s)
    (hdecrypt : lib.decrypt settings.webhookSecretMasterKey s.secretCiphertext = some plaintext) :
    outcome postgres (activeWebhookSecret lib settings endpointId) db =
      (.committed plaintext, []) := by
  have hrun : (activeWebhookSecret lib settings endpointId).run postgres db [] =
      .returned plaintext [] := by
    unfold activeWebhookSecret
    have hselect : (Session.select (.activeWebhookSecret endpointId false)).run postgres db [] =
        .returned (some s) [] := by
      rw [Session.select, run_perform]
      have hexec : postgres.exec (.select (.activeWebhookSecret endpointId false)) []
          (postgres.view db []) = .ok (db.activeSecretOf endpointId, []) := rfl
      rw [hexec, hactive]
      rfl
    rw [Program.bind_eq, run_bind, Program.bind_eq, run_bind, hselect]
    simp only [orBusinessError, Program.pure_eq, run_ret, hdecrypt]
  exact outcome_of_returned postgres hrun rfl

/-- The endpoints of a signed database have single active secrets. -/
theorem Signed.singleActive (hfernet : ∀ key nonce text,
    lib.decrypt key (lib.encrypt key nonce text) = some text) {h : List Answered} {db : Database}
    {e : WebhookEndpoint} (hsigned : Signed lib settings h db e) :
    SingleActive lib settings h db e := by
  obtain ⟨retired, current, hsecrets, hactive, hretired⟩ := hsigned.rotated.active
  obtain ⟨current', plaintext, nonce, hactive', hcipher, hhash, hhash', hlast⟩ := hsigned.current
  have hfind : db.activeSecretOf e.id = some current := by
    rw [Database.activeSecretOf, hsecrets]
    exact Rotated.find_active hactive (fun s hs => (hretired s hs).1)
  obtain rfl : current = current' := Option.some.inj (hfind.symm.trans hactive')
  have hversion : current.version = (db.secretsOf e.id).length := by
    have hrotated := hsigned.rotated
    rw [hsecrets] at hrotated ⊢
    rw [hrotated.version_last, List.length_append, List.length_singleton]
    rfl
  refine ⟨?_, hsigned.rotated.versions, ?_, plaintext, hlast, hhash', ?_⟩
  · have hnone : retired.filter (fun s => s.active) = [] := by
      apply List.filter_eq_nil_iff.mpr
      intro s hs
      rw [(hretired s hs).1]
      exact Bool.false_ne_true
    rw [hsecrets, List.filter_append, hnone, List.filter_cons, if_pos hactive]
    rfl
  · refine ⟨current, ?_, hactive, hversion, hhash'.trans hhash.symm, ?_⟩
    · rw [hsecrets]
      exact List.mem_append_right _ (List.mem_singleton.mpr rfl)
    · intro s hs hne
      rw [hsecrets] at hs
      rcases List.mem_append.mp hs with hs | hs
      · exact hretired s hs
      · exact absurd (List.mem_singleton.mp hs) hne
  · apply outcome_activeWebhookSecret hfind
    rw [hcipher]
    exact hfernet _ _ _

/-- **Every registered endpoint has a single active signing secret**, after every schedule of
every number of requests, and no rotation fails on a constraint unless an id drawn for it is
already in use. -/
theorem replay_singleActive (lib : Libraries) (settings : Settings)
    (hfernet : ∀ key nonce text, lib.decrypt key (lib.encrypt key nonce text) = some text)
    (schedule : List (Action Request)) :
    (∀ e ∈ (replay lib settings schedule).world.committed.webhookEndpoints.rows,
      SingleActive lib settings (replay lib settings schedule).world.history
        (replay lib settings schedule).world.committed e) ∧
    ∀ pre f post endpointId name, (replay lib settings schedule).world.history = pre ++ f :: post →
      f.label.operation = .rotateWebhookSecret endpointId →
      f.answer = .rolledBack (.error (.databaseError (.integrityError name))) →
      (committedAfter pre).Uses (.primaryKey .webhookSecrets (f.label.generated.uuid4 0)) ∨
        (committedAfter pre).Uses (.primaryKey .auditLogs (f.label.generated.uuid4 1)) := by
  have hh := (@history_replay lib settings schedule).2
  constructor
  · intro e he
    rw [committed_replay] at he ⊢
    exact (hh.allSigned.signed e he).singleActive hfernet
  · intro pre f post endpointId name hsplit hop hanswer
    rw [hsplit] at hh
    obtain ⟨L, hends, -⟩ := hh.entry
    have hall := hh.of_append.allSigned
    simp only [Ends, hanswer, Refused, hop] at hends
    rcases hends.2 name rfl with hused | hused | ⟨hin, hno⟩
    · exact Or.inl hused
    · exact Or.inr hused
    · obtain ⟨e, he, hid⟩ := Table.mem_keys.mp hin
      have hrotated := (hall.signed e he).rotated
      rw [show e.id = endpointId from hid] at hrotated
      exact absurd hrotated hno

/-! ## Two overlapping rotations -/

/-- The tokens drawn in the sample run below, each with the digest of its secret and the secret
as the default master key encrypts it at the epoch under a zero initialization vector. -/
def signingTokens : List (String × String × String) :=
  [("dGhlLXNlY3JldC1vZi10aGUtcmVnaXN0cmF0aW9uLTE",
      "f07a49876565d44ac1f2a07c4f76692f5529198c642e162dc77e19c0527283fd",
      "gAAAAAAAAAAAAAAAAAAAAAAAAAAAAAAAAGtsFtz3qAqyXUdULbv-_rp2A-5Zh8GgaEsoPoFrH5Rp6YVbVC-K3Y" ++
        "ACi9rwky-EKbG4tdTtGyHC8Du2tEXGt4nwyEzfPSo1MMSelQLIYF-SdSr56RmXOhoazv-pV4Qhqw=="),
    ("dGhlLXNlY3JldC1vZi10aGUtMXN0LXJvdGF0aW9uLTI",
      "f2a9444c52ffaab637efbb136b957d5340ad4e3bfe5aff16658256aa8a4e2bdb",
      "gAAAAAAAAAAAAAAAAAAAAAAAAAAAAAAAAGtsFtz3qAqyXUdULbv-_ro0PKhz4JjDY6VcBfhI1flI8MoVsdPkoy" ++
        "hpmsonw6jB8YG1DiPo3FIhlvaYfdA4IhCmLbiMPz85v37O09YfH2W1rva8fFjzatbjC6_WABfoEA=="),
    ("dGhlLXNlY3JldC1vZi10aGUtMm5kLXJvdGF0aW9uLTM",
      "a923336afef5eb498ceddb9be3317f72c90e0d070f097571ee275ab71fe5f87e",
      "gAAAAAAAAAAAAAAAAAAAAAAAAAAAAAAAAGtsFtz3qAqyXUdULbv-_rrLN3xDQszmkJDbJgSA6LhWBVxAh0rKU8" ++
        "avwY1d6sNETb267fY9t_VYRMsiXBBy-AoDGxEkIRq-cTuImtDs8exwy8TLyE6Cy2EnIJVlz4BjMg==")]

/-- The digests of the run are hexadecimal texts of 64 characters. -/
theorem signingTokens_digest : ∀ t ∈ signingTokens,
    t.2.1.length = 64 ∧
      t.2.1.toList.all (fun c => decide (c ∈ "0123456789abcdef".toList)) = true := by
  decide +kernel

/-- SHA-256 on the texts that run digests. -/
def signingDigest (data : List Py.Byte) : String :=
  match signingTokens.find? (fun t => decide (Py.encode (Py.str ("whsec_" ++ t.1)) = data)) with
  | some t => t.2.1
  | none => sampleDigest data

/-- Fernet on the secrets of that run; any other text is marked and kept. -/
def signingEncrypt (masterKey : String) (nonce : ℕ) (text : String) : String :=
  match signingTokens.find? (fun t => decide ("whsec_" ++ t.1 = text)) with
  | some t => if masterKey = "dev-only-local-master-key" ∧ nonce = 0 then t.2.2 else "-" ++ text
  | none => "-" ++ text

/-- Fernet on the tokens of that run; any other token that is not marked is invalid. -/
def signingDecrypt (masterKey token : String) : Option String :=
  match token.toList with
  | '-' :: text => some (String.ofList text)
  | _ => if masterKey = "dev-only-local-master-key" then
      (signingTokens.find? (fun t => decide (t.2.2 = token))).map (fun t => "whsec_" ++ t.1)
    else none

/-- A marked text is read back. -/
theorem signingDecrypt_marked (masterKey text : String) :
    signingDecrypt masterKey ("-" ++ text) = some text := by
  have hmark : ("-" ++ text).toList = '-' :: text.toList := by
    rw [String.toList_append]
    rfl
  simp only [signingDecrypt, hmark, String.ofList_toList]

/-- The tokens of the run are read back. -/
theorem signingDecrypt_token : ∀ t ∈ signingTokens,
    signingDecrypt "dev-only-local-master-key" t.2.2 = some ("whsec_" ++ t.1) := by
  decide +kernel

/-- Every text that is encrypted is read back. -/
theorem signingDecrypt_encrypt (masterKey : String) (nonce : ℕ) (text : String) :
    signingDecrypt masterKey (signingEncrypt masterKey nonce text) = some text := by
  unfold signingEncrypt
  cases hfind : signingTokens.find? (fun t => decide ("whsec_" ++ t.1 = text)) with
  | none => exact signingDecrypt_marked masterKey text
  | some t =>
    have htext : "whsec_" ++ t.1 = text := by simpa using List.find?_some hfind
    by_cases hkey : masterKey = "dev-only-local-master-key" ∧ nonce = 0
    · simp only [if_pos hkey]
      rw [hkey.1, signingDecrypt_token t (List.mem_of_find?_eq_some hfind), htext]
    · simp only [if_neg hkey]
      exact signingDecrypt_marked masterKey text

/-- The libraries as that run meets them. -/
def signingLibraries : Libraries where
  sha256 := signingDigest
  sha256_length := by
    intro data
    unfold signingDigest
    cases hfind : signingTokens.find?
      (fun t => decide (Py.encode (Py.str ("whsec_" ++ t.1)) = data)) with
    | none => exact sampleLibraries.sha256_length data
    | some t => exact (signingTokens_digest t (List.mem_of_find?_eq_some hfind)).1
  sha256_hex := by
    intro data
    unfold signingDigest
    cases hfind : signingTokens.find?
      (fun t => decide (Py.encode (Py.str ("whsec_" ++ t.1)) = data)) with
    | none => exact sampleLibraries.sha256_hex data
    | some t => exact mem_hexadecimal (signingTokens_digest t (List.mem_of_find?_eq_some hfind)).2
  encrypt := signingEncrypt
  decrypt := signingDecrypt
  datetimeText := sampleLibraries.datetimeText

/-- The `n`th request of that run, with its token. -/
def signingRequest (n : ℕ) (token : String) (operation : Operation) : Request :=
  ⟨sampleMerchant, operation, sampleUUID (0x1000 + n),
    ⟨fun i => sampleUUID (16 * n + i), fun _ => 0, token⟩⟩

/-- A registration, and two rotations of the endpoint that are in progress together. -/
def signingSchedule : List (Action Request) :=
  let alone (r : Request) (statements : ℕ) : List (Action Request) :=
    .begin r :: List.replicate statements (.statement 0) ++ [.check 0, .commit 0]
  alone (sampleRequest 0 (.createMerchant sampleShop)) 2 ++
  alone (signingRequest 1 "dGhlLXNlY3JldC1vZi10aGUtcmVnaXN0cmF0aW9uLTE"
    (.registerWebhook ⟨"https://shop.example/hooks", ["payment.captured"]⟩)) 3 ++
  [.begin (signingRequest 2 "dGhlLXNlY3JldC1vZi10aGUtMXN0LXJvdGF0aW9uLTI"
      (.rotateWebhookSecret (sampleUUID 16))), .statement 0] ++
  alone (signingRequest 3 "dGhlLXNlY3JldC1vZi10aGUtMm5kLXJvdGF0aW9uLTM"
    (.rotateWebhookSecret (sampleUUID 16))) 6 ++
  List.replicate 7 (.statement 0) ++ [.check 0, .commit 0]

/-- Every endpoint has one active secret after the rotations of the run. -/
theorem replay_singleActive_rotations :
    ((∀ e ∈ (replay signingLibraries {} signingSchedule).world.committed.webhookEndpoints.rows,
      SingleActive signingLibraries {} (replay signingLibraries {} signingSchedule).world.history
        (replay signingLibraries {} signingSchedule).world.committed e) ∧
    ∀ pre f post endpointId name,
      (replay signingLibraries {} signingSchedule).world.history = pre ++ f :: post →
      f.label.operation = .rotateWebhookSecret endpointId →
      f.answer = .rolledBack (.error (.databaseError (.integrityError name))) →
      (committedAfter pre).Uses (.primaryKey .webhookSecrets (f.label.generated.uuid4 0)) ∨
        (committedAfter pre).Uses (.primaryKey .auditLogs (f.label.generated.uuid4 1))) ∧
    (replay signingLibraries {} signingSchedule).world.committed.webhookSecrets.rows.map
      (fun s => (s.endpointId, s.version, s.active)) =
        [(sampleUUID 16, 1, false), (sampleUUID 16, 2, false), (sampleUUID 16, 3, true)] :=
  ⟨replay_singleActive signingLibraries {} signingDecrypt_encrypt signingSchedule,
    by decide +kernel⟩

end ForgePay
