/-
A map that keeps, for each key, the item of the highest rank it was shown.

If key and rank determine an item, the map is determined by the set of items shown.
-/

import Pgprox.Library.FiniteMap

universe u v w

namespace LatestWins

variable {κ : Type u} {α : Type v} {ρ : Type w} [LinearOrder ρ]
variable (key : α → κ) (rank : α → ρ)

def Newest (known : α → Prop) (place : κ) : Option α → Prop
  | none => ∀ item, known item → key item ≠ place
  | some newest =>
    known newest ∧ key newest = place ∧
      ∀ item, known item → key item = place → rank item ≤ rank newest

def Determined (known : α → Prop) : Prop :=
  ∀ first second, known first → known second → key first = key second →
    rank first = rank second → first = second

variable {key rank}

theorem Newest.unique {known : α → Prop} (determined : Determined key rank known) {place : κ}
    {first second : Option α} (newest : Newest key rank known place first)
    (newestToo : Newest key rank known place second) : first = second := by
  cases first with
  | none =>
    cases second with
    | none => rfl
    | some item => exact absurd newestToo.2.1 (newest item newestToo.1)
  | some item =>
    cases second with
    | none => exact absurd newest.2.1 (newestToo item newest.1)
    | some other =>
      obtain ⟨known, placed, above⟩ := newest
      obtain ⟨knownToo, placedToo, aboveToo⟩ := newestToo
      have level : rank item = rank other :=
        le_antisymm (aboveToo item known placed) (above other knownToo placedToo)
      rw [determined item other known knownToo (placed.trans placedToo.symm) level]

theorem Newest.congr {known known' : α → Prop} (same : ∀ item, known item ↔ known' item)
    {place : κ} {held : Option α} (newest : Newest key rank known place held) :
    Newest key rank known' place held := by
  have equal : known = known' := funext fun item => propext (same item)
  exact equal ▸ newest

section Maps

variable [DecidableEq κ]

variable (key rank) in
def keepLatest (m : FiniteMap κ α) (item : α) : FiniteMap κ α :=
  match m.lookup (key item) with
  | some held => if rank item ≤ rank held then m else m.insert (key item) item
  | none => m.insert (key item) item

theorem newest_of_filed {m : FiniteMap κ α}
    (filed : ∀ place item, m.lookup place = some item → key item = place) (place : κ) :
    Newest key rank (fun item => ∃ other, m.lookup other = some item) place
      (m.lookup place) := by
  cases held : m.lookup place with
  | none =>
    rintro item ⟨other, found⟩ placed
    rw [← filed other item found, placed, held] at found
    cases found
  | some newest =>
    refine ⟨⟨place, held⟩, filed place newest held, ?_⟩
    rintro item ⟨other, found⟩ placed
    rw [← filed other item found, placed, held] at found
    exact le_of_eq (congrArg rank (Option.some.inj found).symm)

theorem lookup_keepLatest_ne (m : FiniteMap κ α) {item : α} {place : κ} (other : place ≠ key item) :
    (keepLatest key rank m item).lookup place = m.lookup place := by
  unfold keepLatest
  split
  · split
    · rfl
    · exact AList.lookup_insert_ne other
  · exact AList.lookup_insert_ne other

theorem newest_keepLatest {known : α → Prop} {m : FiniteMap κ α}
    (newest : ∀ place, Newest key rank known place (m.lookup place)) (item : α) (place : κ) :
    Newest key rank (fun shown => known shown ∨ shown = item) place
      ((keepLatest key rank m item).lookup place) := by
  have before := newest place
  by_cases own : place = key item
  · subst own
    unfold keepLatest
    cases held : m.lookup (key item) with
    | none =>
      rw [held] at before
      rw [AList.lookup_insert]
      refine ⟨.inr rfl, rfl, ?_⟩
      rintro shown (earlier | rfl) placed
      · exact absurd placed (before shown earlier)
      · exact le_refl _
    | some kept =>
      rw [held] at before
      obtain ⟨known, placed, above⟩ := before
      dsimp only
      split
      · rename_i stale
        rw [held]
        refine ⟨.inl known, placed, ?_⟩
        rintro shown (earlier | rfl) same
        · exact above shown earlier same
        · exact stale
      · rename_i fresh
        rw [AList.lookup_insert]
        refine ⟨.inr rfl, rfl, ?_⟩
        rintro shown (earlier | rfl) same
        · exact le_of_lt (lt_of_le_of_lt (above shown earlier same) (not_le.mp fresh))
        · exact le_refl _
  · rw [lookup_keepLatest_ne m own]
    cases held : m.lookup place with
    | none =>
      rw [held] at before
      rintro shown (earlier | rfl)
      · exact before shown earlier
      · exact fun placed => own placed.symm
    | some kept =>
      rw [held] at before
      obtain ⟨known, placed, above⟩ := before
      refine ⟨.inl known, placed, ?_⟩
      rintro shown (earlier | rfl) same
      · exact above shown earlier same
      · exact absurd same.symm own

theorem newest_foldl {known : α → Prop} (items : List α) {m : FiniteMap κ α}
    (newest : ∀ place, Newest key rank known place (m.lookup place)) (place : κ) :
    Newest key rank (fun shown => known shown ∨ shown ∈ items) place
      ((items.foldl (keepLatest key rank) m).lookup place) := by
  induction items generalizing known m with
  | nil => exact (newest place).congr fun shown => by simp
  | cons item later ih =>
    have rest := ih (newest_keepLatest newest item)
    exact rest.congr fun shown => by rw [List.mem_cons, or_assoc]

end Maps

end LatestWins
