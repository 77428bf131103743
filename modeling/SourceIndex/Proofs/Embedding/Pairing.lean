import SourceIndex.Proofs.Embedding.Steps

/-!
# Results and their passages

A result is that of the passage which it names, and has either a vector or something to tell where there
is none (`Result.IsOf`). Each event that ends a passage does so with a result of this passage
(`isOf_of_ends`), so that all results of a batch are those of its passages, at any time
(`Workload.IsPaired.run`) and in its answer (`Batch.forall₂_of_answer`).
-/

namespace SourceIndex.Embedding

/-- A result of a passage: it has a vector unless it tells why there is none, and it has none if it was
cancelled. -/
structure Result.IsOf (r : Result) (passage : Passage) : Prop where
  passage : r.passage = passage
  apart : r.vector? = none ↔ r.message? ≠ none
  cancelled : r.isCancelled = true → r.message? = some "Operation cancelled" ∧ r.vector? = none

/-- The results that a batch has so far are those of its passages. -/
def Workload.IsPaired (w : Workload) (b : Nat) : Prop :=
  ∀ i passage r, w.item? b i = some ⟨passage, .ended (.ok r)⟩ → r.IsOf passage

namespace Result

variable {r : Result} {passage : Passage} {outcome : Except String Vec}

theorem isOf_failed (passage : Passage) (message : String) : (failed passage message).IsOf passage :=
  ⟨rfl, iff_of_true rfl nofun, nofun⟩

theorem isOf_notReady (passage : Passage) : (notReady passage).IsOf passage :=
  isOf_failed passage _

theorem isOf_cancelled (passage : Passage) : (cancelled passage).IsOf passage :=
  ⟨rfl, iff_of_true rfl nofun, fun _ => ⟨rfl, rfl⟩⟩

theorem Tells.isOf (h : r.Tells passage outcome) : r.IsOf passage := by
  refine ⟨h.passage, ?_, fun hcancelled => nomatch h.isCancelled.symm.trans hcancelled⟩
  cases outcome with
  | ok v =>
    have hvector := (h.vector? v).mpr rfl
    have hmessage : r.message? = none :=
      Option.eq_none_iff_forall_ne_some.mpr fun m hm => nomatch (h.message? m).mp hm
    rw [hvector, hmessage]
    exact iff_of_false nofun fun hne => hne rfl
  | error message =>
    have hvector : r.vector? = none :=
      Option.eq_none_iff_forall_ne_some.mpr fun v hv => nomatch (h.vector? v).mp hv
    rw [hvector, (h.message? message).mpr rfl]
    exact iff_of_true rfl nofun

end Result

/-- What ends a passage with a result gives it a result of its own. -/
theorem isOf_of_ends {f : Factory} {w : Workload} {b i : Nat} {event : Event} {r : Result}
    (h : Ends f w b i event (.ok r)) :
    ∃ passage progress, w.item? b i = some ⟨passage, progress⟩ ∧ r.IsOf passage := by
  generalize hending : (Except.ok r : Except Crash Result) = ending at h
  cases h with
  | notReady hitem =>
    cases hending
    exact ⟨_, _, hitem, Result.isOf_notReady _⟩
  | cancelled hbatch hitem | givenUp hbatch hitem =>
    cases hending
    exact ⟨_, _, Workload.item?_eq_some_iff.mpr ⟨_, hbatch, hitem⟩, Result.isOf_cancelled _⟩
  | settled hitem _ hsettles =>
    refine ⟨_, _, hitem, ?_⟩
    cases hsettles with
    | returned _ htells => cases hending; exact htells.isOf
    | dropped | raisedLate | revokedLate => cases hending; exact Result.isOf_notReady _
    | raised | broke => cases hending; exact Result.isOf_failed _ _
    | withdrawn => cases hending; exact Result.isOf_cancelled _
    | brokeForGood | revoked => cases hending

namespace Workload

variable {f : Factory} {w : Workload} {b : Nat}

theorem isPaired_call (passages : List Passage) (signal : Option Signal) :
    (w.call passages signal).IsPaired w.batches.length := by
  intro i passage r hitem
  obtain ⟨-, hprogress⟩ := of_item?_call hitem
  split at hprogress
  · cases hprogress
  · cases hprogress
    exact Result.isOf_notReady _

theorem IsPaired.step (h : w.IsPaired b) {batch : Batch} (hbatch : w.batch? b = some batch)
    (event : Event) : (w.step f event).IsPaired b := by
  intro i passage r hitem'
  obtain ⟨batch', hbatch', hstep⟩ := exists_step (f := f) hbatch event
  rw [item?, hbatch', Option.bind_some] at hitem'
  obtain ⟨progress, hprior, hprogress⟩ := hstep.exists_prior hitem'
  have hitem := item?_eq_some_iff.mpr ⟨batch, hbatch, hprior⟩
  cases hprogress with
  | keep => exact h i passage r hitem
  | finish hends =>
    obtain ⟨passage', progress', hsame, hisOf⟩ := isOf_of_ends hends
    rw [hitem, Option.some.injEq, Item.mk.injEq] at hsame
    exact hsame.1 ▸ hisOf

theorem IsPaired.run (h : w.IsPaired b) {batch : Batch} (hbatch : w.batch? b = some batch)
    (events : List Event) : (w.run f events).IsPaired b := by
  induction events generalizing w batch with
  | nil => exact h
  | cons event events ih =>
    obtain ⟨batch', hbatch', -⟩ := exists_step (f := f) hbatch event
    exact ih (h.step hbatch event) hbatch'

end Workload

end SourceIndex.Embedding
