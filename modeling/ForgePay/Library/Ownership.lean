import Mathlib.Data.Set.Image

/-!
# Rows that belong to owners

A set of rows with keys, each of which names its owner or the key of the row it hangs on.  A
row belongs to the owner its chain of parents ends in (`Belongs`).  A program that adds rows
under new keys, each for its owner or hanging on what it knows to be the owner's, and alters
rows it knows to be the owner's without moving them (`Proceeds`), leaves what belongs to
anybody else as it was (`belongs_applyAll_of_ne`); and where two sets agree on the rows of the
owner, they agree on them afterwards (`Agree.applyAll`).
-/

set_option autoImplicit false

namespace Ownership

/-- What a row names: its owner, the key of the row it hangs on, or nothing. -/
inductive Parent (ο κ : Type)
  | owner (o : ο)
  | row (k : κ)
  | none
  deriving DecidableEq

variable {ρ κ ο : Type} (key : ρ → κ) (parent : ρ → Parent ο κ)

/-- The row is in the set and belongs to the owner. -/
inductive Belongs (S : Set ρ) (o : ο) : ρ → Prop
  | own {r : ρ} (mem : r ∈ S) (names : parent r = .owner o) : Belongs S o r
  | hangs {r p : ρ} (mem : r ∈ S) (names : parent r = .row (key p)) (above : Belongs S o p) :
      Belongs S o r

/-- No two rows have the same key. -/
def KeysUnique (S : Set ρ) : Prop := ∀ r ∈ S, ∀ r' ∈ S, key r = key r' → r = r'

/-- A row of the owner has the key and the parent. -/
def Holds (S : Set ρ) (o : ο) (k : κ) (π : Parent ο κ) : Prop :=
  ∃ r, Belongs key parent S o r ∧ key r = k ∧ parent r = π

/-- Two sets have the same rows of the owner. -/
def Agree (S T : Set ρ) (o : ο) : Prop :=
  ∀ r, Belongs key parent S o r ↔ Belongs key parent T o r

section Belonging

variable {key parent} {S T : Set ρ} {o o' : ο} {r : ρ} {k : κ} {π : Parent ο κ}

/-- What belongs to an owner is in the set. -/
theorem Belongs.mem (h : Belongs key parent S o r) : r ∈ S := by
  cases h with
  | own mem names => exact mem
  | hangs mem names above => exact mem

/-- A row has one owner. -/
theorem Belongs.unique (hS : KeysUnique key S) (h : Belongs key parent S o r)
    (h' : Belongs key parent S o' r) : o' = o := by
  induction h with
  | own mem names =>
    cases h' with
    | own mem' names' => exact Parent.owner.inj (names'.symm.trans names)
    | hangs mem' names' above' => exact absurd (names'.symm.trans names) (by simp)
  | hangs mem names above ih =>
    cases h' with
    | own mem' names' => exact absurd (names'.symm.trans names) (by simp)
    | hangs mem' names' above' =>
      have hkey := Parent.row.inj (names'.symm.trans names)
      exact ih (hS _ above'.mem _ above.mem hkey ▸ above')

/-- A row that hangs on what the owner holds belongs to the owner. -/
theorem Holds.hangs (h : Holds key parent S o k π) (hr : r ∈ S) (hparent : parent r = .row k) :
    Belongs key parent S o r := by
  obtain ⟨p, hp, hk, -⟩ := h
  exact .hangs hr (hparent.trans (congrArg Parent.row hk.symm)) hp

/-- The owner holds the rows that belong to it. -/
theorem Belongs.holds (h : Belongs key parent S o r) :
    Holds key parent S o (key r) (parent r) :=
  ⟨r, h, rfl, rfl⟩

/-- Agreement on the rows of an owner is symmetric. -/
theorem Agree.symm (h : Agree key parent S T o) : Agree key parent T S o := fun r => (h r).symm

/-- Sets that agree on the rows of the owner hold the same. -/
theorem Agree.holds (h : Agree key parent S T o) (hS : Holds key parent S o k π) :
    Holds key parent T o k π := by
  obtain ⟨p, hp, hk⟩ := hS
  exact ⟨p, (h p).mp hp, hk⟩

/-- A row that hangs on what the owner holds is in both sets or in neither. -/
theorem Agree.mem_iff (h : Agree key parent S T o) (hheld : Holds key parent S o k π)
    (hparent : parent r = .row k) : r ∈ S ↔ r ∈ T := by
  constructor
  · intro hr
    exact ((h r).mp (hheld.hangs hr hparent)).mem
  · intro hr
    exact ((h r).mpr ((h.holds hheld).hangs hr hparent)).mem

/-- A row that names the owner is in both sets or in neither. -/
theorem Agree.mem_iff_of_owner (h : Agree key parent S T o) (hparent : parent r = .owner o) :
    r ∈ S ↔ r ∈ T :=
  ⟨fun hr => ((h r).mp (.own hr hparent)).mem, fun hr => ((h r).mpr (.own hr hparent)).mem⟩

end Belonging

/-! ## Changes -/

variable [DecidableEq κ]

/-- The function on the row with the key, and on no other. -/
def altered (k : κ) (f : ρ → ρ) (r : ρ) : ρ := if key r = k then f r else r

/-- One change: a row that is added unless its key is in use, or the row with a key altered. -/
inductive Change (ρ κ : Type)
  | add (w : ρ)
  | alter (k : κ) (f : ρ → ρ)

namespace Change

/-- The rows after a change. -/
def apply (S : Set ρ) : Change ρ κ → Set ρ
  | .add w => {r | r ∈ S ∨ (r = w ∧ ∀ s ∈ S, key s ≠ key w)}
  | .alter k f => Set.image (altered key k f) S

/-- The new keys that are left. -/
def unused (F : Set κ) : Change ρ κ → Set κ
  | .add w => {k | k ∈ F ∧ k ≠ key w}
  | .alter _ _ => F

/-- The keys known to be the owner's, with their parents. -/
def known (H : Set (κ × Parent ο κ)) : Change ρ κ → Set (κ × Parent ο κ)
  | .add w => {x | x = (key w, parent w) ∨ x ∈ H}
  | .alter _ _ => H

/-- A change of the rows of the owner: a row with a new key for the owner, or hanging on what is
known to be the owner's; or the row with a known key, which keeps its key and its parent. -/
def Own (o : ο) (F : Set κ) (H : Set (κ × Parent ο κ)) : Change ρ κ → Prop
  | .add w => key w ∈ F ∧ (parent w = .owner o ∨ ∃ x ∈ H, parent w = .row x.1)
  | .alter k f => ∃ π, (k, π) ∈ H ∧ ∀ r, key r = k → parent r = π → key (f r) = k ∧ parent (f r) = π

end Change

/-- The rows after a list of changes. -/
def applyAll (S : Set ρ) (cs : List (Change ρ κ)) : Set ρ := cs.foldl (Change.apply key) S

/-- Every change of the list is a change of the rows of the owner when its turn comes. -/
def Proceeds (o : ο) : Set κ → Set (κ × Parent ο κ) → List (Change ρ κ) → Prop
  | _, _, [] => True
  | F, H, c :: cs => c.Own key parent o F H ∧
      Proceeds o (c.unused key F) (c.known key parent H) cs

/-- The keys of `F` are new in the set, nothing hangs on them, and the owner holds `H`. -/
structure Ready (S : Set ρ) (o : ο) (F : Set κ) (H : Set (κ × Parent ο κ)) : Prop where
  unique : KeysUnique key S
  new : ∀ r ∈ S, key r ∉ F
  alone : ∀ r ∈ S, ∀ k ∈ F, parent r ≠ .row k
  holds : ∀ x ∈ H, Holds key parent S o x.1 x.2

section Changes

variable {key parent} {S T : Set ρ} {o o' : ο} {r w : ρ} {k : κ} {f : ρ → ρ} {F F' : Set κ}
  {H H' : Set (κ × Parent ο κ)} {c : Change ρ κ} {cs : List (Change ρ κ)}

omit [DecidableEq κ] in
/-- With less known and fewer new keys there is less that may be done. -/
theorem Proceeds.mono (hF : F ⊆ F') (hH : H ⊆ H') (h : Proceeds key parent o F H cs) :
    Proceeds key parent o F' H' cs := by
  induction cs generalizing F F' H H' with
  | nil => trivial
  | cons c cs ih =>
    obtain ⟨hown, hrest⟩ := h
    cases c with
    | add w =>
      refine ⟨⟨hF hown.1, hown.2.imp_right ?_⟩, ih ?_ ?_ hrest⟩
      · rintro ⟨x, hx, hparent⟩
        exact ⟨x, hH hx, hparent⟩
      · exact fun k hk => ⟨hF hk.1, hk.2⟩
      · exact fun x hx => hx.imp_right (fun hx => hH hx)
    | alter k f =>
      obtain ⟨π, hπ, hkeeps⟩ := hown
      exact ⟨⟨π, hH hπ, hkeeps⟩, ih hF hH hrest⟩

namespace Ready

/-- What is added belongs to the owner. -/
theorem belongs_add_iff (hS : Ready key parent S o F H)
    (hw : (Change.add w : Change ρ κ).Own key parent o F H) :
    Belongs key parent (Change.apply key S (.add w)) o' r ↔
      Belongs key parent S o' r ∨ (r = w ∧ o' = o) := by
  have hnew : ∀ s ∈ S, key s ≠ key w := fun s hs heq => hS.new s hs (heq ▸ hw.1)
  have hold : ∀ {o' r}, Belongs key parent S o' r →
      Belongs key parent (Change.apply key S (.add w)) o' r := by
    intro o' r hr
    induction hr with
    | own mem names => exact .own (Or.inl mem) names
    | hangs mem names above ih => exact .hangs (Or.inl mem) names ih
  constructor
  · intro hr
    induction hr with
    | own mem names =>
      rcases mem with mem | ⟨rfl, -⟩
      · exact Or.inl (.own mem names)
      · refine Or.inr ⟨rfl, ?_⟩
        rcases hw.2 with hown | ⟨x, -, hrow⟩
        · exact Parent.owner.inj (names.symm.trans hown)
        · exact absurd (names.symm.trans hrow) (by simp)
    | hangs mem names above ih =>
      rcases mem with mem | ⟨rfl, -⟩
      · refine Or.inl ?_
        rcases ih with habove | ⟨rfl, -⟩
        · exact .hangs mem names habove
        · exact absurd names (hS.alone _ mem _ hw.1)
      · refine Or.inr ⟨rfl, ?_⟩
        rcases ih with habove | ⟨-, ho⟩
        · rcases hw.2 with hown | ⟨x, hx, hrow⟩
          · exact absurd (names.symm.trans hown) (by simp)
          · obtain ⟨p, hp, hk, -⟩ := hS.holds x hx
            have hkey := Parent.row.inj (names.symm.trans hrow)
            obtain rfl := hS.unique _ habove.mem _ hp.mem (hkey.trans hk.symm)
            exact hp.unique hS.unique habove
        · exact ho
  · rintro (hr | ⟨rfl, rfl⟩)
    · exact hold hr
    · have hmem : r ∈ Change.apply key S (.add r) := Or.inr ⟨rfl, hnew⟩
      rcases hw.2 with hown | ⟨x, hx, hrow⟩
      · exact .own hmem hown
      · obtain ⟨p, hp, hk, -⟩ := hS.holds x hx
        exact .hangs hmem (hrow.trans (congrArg Parent.row hk.symm)) (hold hp)

/-- A row that is altered keeps its key and its parent. -/
theorem altered_eq (hS : Ready key parent S o F H)
    (hf : (Change.alter k f).Own key parent o F H) (hr : r ∈ S) :
    key (altered key k f r) = key r ∧ parent (altered key k f r) = parent r := by
  unfold altered
  by_cases hk : key r = k
  · rw [if_pos hk]
    obtain ⟨π, hπ, hkeeps⟩ := hf
    obtain ⟨old, hold, hkey, hparent⟩ := hS.holds _ hπ
    obtain rfl := hS.unique _ hold.mem _ hr (hkey.trans hk.symm)
    have hsame := hkeeps old hkey hparent
    exact ⟨hsame.1.trans hkey.symm, hsame.2.trans hparent.symm⟩
  · rw [if_neg hk]
    exact ⟨rfl, rfl⟩

/-- Altered rows belong to whom they belonged before. -/
theorem belongs_alter_iff (hS : Ready key parent S o F H)
    (hf : (Change.alter k f).Own key parent o F H) :
    Belongs key parent (Change.apply key S (.alter k f)) o' r ↔
      ∃ s, Belongs key parent S o' s ∧ altered key k f s = r := by
  constructor
  · intro hr
    induction hr with
    | own mem names =>
      obtain ⟨s, hs, rfl⟩ := mem
      exact ⟨s, .own hs ((hS.altered_eq hf hs).2.symm.trans names), rfl⟩
    | hangs mem names above ih =>
      obtain ⟨s, hs, rfl⟩ := mem
      obtain ⟨p, hp, rfl⟩ := ih
      refine ⟨s, .hangs hs ?_ hp, rfl⟩
      rw [← (hS.altered_eq hf hs).2, names, (hS.altered_eq hf hp.mem).1]
  · rintro ⟨s, hs, rfl⟩
    induction hs with
    | own mem names => exact .own ⟨_, mem, rfl⟩ ((hS.altered_eq hf mem).2.trans names)
    | hangs mem names above ih =>
      refine .hangs ⟨_, mem, rfl⟩ ?_ ih
      rw [(hS.altered_eq hf mem).2, names, (hS.altered_eq hf above.mem).1]

/-- A change of the rows of the owner leads on. -/
theorem step (hS : Ready key parent S o F H) (hc : c.Own key parent o F H) :
    Ready key parent (c.apply key S) o (c.unused key F) (c.known key parent H) := by
  cases c with
  | add w =>
    refine ⟨?_, ?_, ?_, ?_⟩
    · rintro r (hr | ⟨rfl, hr⟩) r' (hr' | ⟨rfl, hr'⟩) hkey
      · exact hS.unique r hr r' hr' hkey
      · exact absurd hkey (hr' r hr)
      · exact absurd hkey.symm (hr r' hr')
      · rfl
    · rintro r (hr | ⟨rfl, -⟩) ⟨hF, hne⟩
      · exact hS.new r hr hF
      · exact hne rfl
    · rintro r (hr | ⟨rfl, -⟩) k ⟨hF, -⟩ hrow
      · exact hS.alone r hr k hF hrow
      · rcases hc.2 with hown | ⟨x, hx, hparent⟩
        · exact absurd (hown.symm.trans hrow) (by simp)
        · obtain ⟨p, hp, hk, -⟩ := hS.holds x hx
          have hkey := Parent.row.inj (hparent.symm.trans hrow)
          exact hS.new p hp.mem ((hk.trans hkey) ▸ hF)
    · rintro x (rfl | hx)
      · exact ⟨w, (hS.belongs_add_iff hc).mpr (Or.inr ⟨rfl, rfl⟩), rfl, rfl⟩
      · obtain ⟨p, hp, hk⟩ := hS.holds x hx
        exact ⟨p, (hS.belongs_add_iff hc).mpr (Or.inl hp), hk⟩
  | alter k f =>
    refine ⟨?_, ?_, ?_, ?_⟩
    · rintro _ ⟨r, hr, rfl⟩ _ ⟨r', hr', rfl⟩ hkey
      rw [(hS.altered_eq hc hr).1, (hS.altered_eq hc hr').1] at hkey
      rw [hS.unique r hr r' hr' hkey]
    · rintro _ ⟨r, hr, rfl⟩
      rw [(hS.altered_eq hc hr).1]
      exact hS.new r hr
    · rintro _ ⟨r, hr, rfl⟩
      rw [(hS.altered_eq hc hr).2]
      exact hS.alone r hr
    · intro x hx
      obtain ⟨p, hp, hk, hparent⟩ := hS.holds x hx
      refine ⟨_, (hS.belongs_alter_iff hc).mpr ⟨p, hp, rfl⟩, ?_, ?_⟩
      · exact (hS.altered_eq hc hp.mem).1.trans hk
      · exact (hS.altered_eq hc hp.mem).2.trans hparent

/-- A change of the rows of the owner leaves what belongs to anybody else. -/
theorem belongs_apply_of_ne (hS : Ready key parent S o F H) (hc : c.Own key parent o F H)
    (ho : o' ≠ o) :
    Belongs key parent (c.apply key S) o' r ↔ Belongs key parent S o' r := by
  cases c with
  | add w =>
    rw [hS.belongs_add_iff hc]
    constructor
    · rintro (hr | ⟨-, heq⟩)
      · exact hr
      · exact absurd heq ho
    · exact Or.inl
  | alter k f =>
    have hsame : ∀ {s}, Belongs key parent S o' s → altered key k f s = s := by
      intro s hs
      refine if_neg (fun hk => ?_)
      obtain ⟨π, hπ, -⟩ := hc
      obtain ⟨old, hold, hkey, -⟩ := hS.holds _ hπ
      obtain rfl := hS.unique _ hold.mem _ hs.mem (hkey.trans hk.symm)
      exact ho (hold.unique hS.unique hs)
    rw [hS.belongs_alter_iff hc]
    constructor
    · rintro ⟨s, hs, rfl⟩
      rwa [hsame hs]
    · intro hr
      exact ⟨r, hr, hsame hr⟩

/-- **What belongs to anybody else is left as it was.** -/
theorem belongs_applyAll_of_ne (hS : Ready key parent S o F H)
    (hcs : Proceeds key parent o F H cs) (ho : o' ≠ o) :
    Belongs key parent (applyAll key S cs) o' r ↔ Belongs key parent S o' r := by
  induction cs generalizing S F H with
  | nil => exact Iff.rfl
  | cons c cs ih =>
    obtain ⟨hc, hrest⟩ := hcs
    exact (ih (hS.step hc) hrest).trans (hS.belongs_apply_of_ne hc ho)

end Ready

/-- The same change leaves two sets that agree in agreement. -/
theorem Agree.apply (h : Agree key parent S T o) (hS : Ready key parent S o F H)
    (hT : Ready key parent T o F H) (hc : c.Own key parent o F H) :
    Agree key parent (c.apply key S) (c.apply key T) o := by
  intro r
  cases c with
  | add w => rw [hS.belongs_add_iff hc, hT.belongs_add_iff hc, h r]
  | alter k f =>
    rw [hS.belongs_alter_iff hc, hT.belongs_alter_iff hc]
    exact exists_congr (fun s => and_congr_left' (h s))

/-- **Two sets that agree on the rows of the owner agree on them afterwards.** -/
theorem Agree.applyAll (h : Agree key parent S T o) (hS : Ready key parent S o F H)
    (hT : Ready key parent T o F H) (hcs : Proceeds key parent o F H cs) :
    Agree key parent (Ownership.applyAll key S cs) (Ownership.applyAll key T cs) o := by
  induction cs generalizing S T F H with
  | nil => exact h
  | cons c cs ih =>
    obtain ⟨hc, hrest⟩ := hcs
    exact ih (h.apply hS hT hc) (hS.step hc) (hT.step hc) hrest

end Changes

end Ownership
