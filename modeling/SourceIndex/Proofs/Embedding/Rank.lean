import SourceIndex.Proofs.Embedding.Steps
import Mathlib.Algebra.BigOperators.Group.List.Basic
import Mathlib.Algebra.GroupWithZero.Nat

/-!
# The rank of a batch

The rank of a batch is the number of events that bring its passages to their ends: two for a passage
that waits, one for a passage that an executor has. An event lowers it or leaves the passages as they
are (`Workload.rank_step_lt_or`), and while it is not zero some event lowers it
(`Workload.exists_rank_lt`): a batch is never stuck.
-/

namespace SourceIndex.Embedding

/-- How many events bring a passage to its end. -/
def Progress.rank : Progress → Nat
  | .waiting => 2
  | .running .. => 1
  | .ended _ => 0

def Batch.rank (batch : Batch) : Nat :=
  (batch.items.map fun item => item.progress.rank).sum

def Workload.rank (w : Workload) (b : Nat) : Nat :=
  (w.batch? b).elim 0 Batch.rank

theorem Progress.rank_pos {progress : Progress} (h : ∀ ending, progress ≠ .ended ending) :
    0 < progress.rank := by
  cases progress with
  | waiting | running => exact Nat.succ_pos _
  | ended ending => exact absurd rfl (h ending)

namespace Batch

variable {f : Factory} {w : Workload} {b i : Nat} {batch batch' : Batch} {event : Event}

theorem rank_advance {passage : Passage} {progress : Progress}
    (h : batch.item? i = some ⟨passage, progress⟩) (progress' : Progress) :
    (batch.advance i progress').rank + progress.rank = batch.rank + progress'.rank := by
  have hsum (items : List Item) : ∀ i, items[i]? = some ⟨passage, progress⟩ →
      ((items.modify i fun item => { item with progress := progress' }).map
          fun item => item.progress.rank).sum + progress.rank =
        (items.map fun item => item.progress.rank).sum + progress'.rank := by
    induction items with
    | nil => exact nofun
    | cons item items ih =>
      rintro (_ | i) h
      · cases h
        simp only [List.modify_zero_cons, List.map_cons, List.sum_cons]
        omega
      · have := ih i h
        simp only [List.modify_succ_cons, List.map_cons, List.sum_cons]
        omega
  exact hsum batch.items i h

theorem rank_conclude {passage : Passage} {progress : Progress}
    (h : batch.item? i = some ⟨passage, progress⟩) (ending : Except Crash Result) :
    (batch.conclude i ending).rank + progress.rank = batch.rank := by
  rw [rank, items_conclude]
  exact rank_advance h (.ended ending)

theorem progress_of_rank_eq_zero {passage : Passage} {progress : Progress} (h : batch.rank = 0)
    (hitem : batch.item? i = some ⟨passage, progress⟩) : ∃ ending, progress = .ended ending := by
  by_contra hne
  have hpos := Progress.rank_pos (not_exists.mp hne)
  have := rank_conclude hitem (.ok (.notReady passage))
  omega

/-- A batch is over once all its passages are at their ends. -/
theorem exists_answer_of_rank_eq_zero (h : batch.rank = 0)
    (hcrash : ∀ i passage crash, batch.item? i = some ⟨passage, .ended (.error crash)⟩ →
      batch.crash.isSome) : ∃ answer, batch.answer? = some answer := by
  cases hbatch : batch.crash with
  | some crash => exact ⟨.error crash, by rw [answer?, hbatch]⟩
  | none =>
    refine ⟨.ok (batch.items.map fun item => item.result?.getD (.notReady item.passage)),
      answer?_eq_ok_iff.mpr ⟨hbatch, ?_⟩⟩
    rw [List.map_map]
    refine List.map_congr_left fun item hmem => ?_
    obtain ⟨i, hitem⟩ := List.mem_iff_getElem?.mp hmem
    obtain ⟨passage, progress⟩ := item
    obtain ⟨ending, rfl⟩ := progress_of_rank_eq_zero h hitem
    cases ending with
    | ok => rfl
    | error crash =>
      have := hcrash i passage crash hitem
      rw [hbatch] at this
      cases this

theorem exists_open (h : batch.rank ≠ 0) :
    (∃ i passage e task, batch.item? i = some ⟨passage, .running e task⟩) ∨
      ∃ i passage, batch.item? i = some ⟨passage, .waiting⟩ ∧ batch.runningCount = 0 := by
  by_cases hrunning : batch.runningCount = 0
  · obtain ⟨_, hsum, hne⟩ := List.exists_mem_ne_zero_of_sum_ne_zero h
    obtain ⟨⟨passage, progress⟩, hmem, rfl⟩ := List.mem_map.mp hsum
    obtain ⟨i, hitem⟩ := List.mem_iff_getElem?.mp hmem
    cases progress with
    | waiting => exact .inr ⟨i, passage, hitem, hrunning⟩
    | running => exact absurd rfl (List.countP_eq_zero.mp hrunning _ hmem)
    | ended => exact absurd rfl hne
  · obtain ⟨⟨passage, progress⟩, hmem, hitem⟩ :=
      List.countP_pos_iff.mp (Nat.pos_of_ne_zero hrunning)
    obtain ⟨i, hget⟩ := List.mem_iff_getElem?.mp hmem
    cases progress with
    | waiting | ended => cases hitem
    | running e task => exact .inl ⟨i, passage, e, task, hget⟩

/-- An event that begins with a passage or ends one lowers the rank. -/
theorem Step.rank_lt_or (hbatch : w.batch? b = some batch) (h : Step f w b event batch batch') :
    batch'.rank < batch.rank ∨ batch'.items = batch.items := by
  cases h with
  | keep => exact .inr rfl
  | @start i passage e signal _ _ hitem =>
    have hitem' : ({ batch with signal } : Batch).item? i = some ⟨passage, .waiting⟩ := hitem
    have hrank := rank_advance hitem' (.running e (w.pool.task passage))
    exact .inl (Nat.lt_of_succ_lt_succ (Nat.lt_of_lt_of_eq (Nat.lt_succ_self _) hrank))
  | @finish i ending signal _ hends =>
    obtain ⟨passage, progress, hitem, hne⟩ := Workload.exists_item_of_ends hends
    rw [Workload.item?, hbatch, Option.bind_some] at hitem
    have hitem' : ({ batch with signal } : Batch).item? i = some ⟨passage, progress⟩ := hitem
    exact .inl (Nat.lt_of_lt_of_eq (Nat.lt_add_of_pos_right (Progress.rank_pos hne))
      (rank_conclude hitem' ending))

end Batch

namespace Workload

variable {f : Factory} {w : Workload} {b i : Nat} {batch : Batch}

theorem rank_eq (h : w.batch? b = some batch) : w.rank b = batch.rank := by
  rw [rank, h]
  rfl

theorem rank_step_lt_or (h : w.batch? b = some batch) (event : Event) :
    (w.step f event).rank b < w.rank b ∨ (w.step f event).rank b = w.rank b ∧
      ∀ i, (w.step f event).item? b i = w.item? b i := by
  obtain ⟨batch', hbatch', hstep⟩ := exists_step (f := f) h event
  simp only [rank_eq h, rank_eq hbatch', item?, h, hbatch', Option.bind_some]
  refine (hstep.rank_lt_or h).imp_right fun hitems => ⟨?_, fun i => ?_⟩
  · rw [Batch.rank, hitems, Batch.rank]
  · rw [Batch.item?, hitems, Batch.item?]

theorem rank_begin_lt {passage : Passage} (hslot : batch.runningCount < w.pool.slots)
    (h : w.batch? b = some batch) (hitem : batch.item? i = some ⟨passage, .waiting⟩) :
    (w.begin b i).rank b < w.rank b := by
  have hlook : batch.look.2.item? i = some ⟨passage, .waiting⟩ := hitem
  have hbegin : ∃ batch', (w.begin b i).batch? b = some batch' ∧ batch'.rank < batch.rank := by
    rw [begin, h]
    dsimp only
    rw [hitem]
    dsimp only
    rw [if_neg (Nat.not_le_of_gt hslot)]
    split
    · refine ⟨batch.conclude i (.ok (.notReady passage)), by rw [batch?_modify, if_pos rfl, h]; rfl, ?_⟩
      exact Nat.lt_of_lt_of_eq (Nat.lt_add_of_pos_right Nat.two_pos) (Batch.rank_conclude hitem _)
    · rename_i e he
      refine ⟨_, by rw [batch?_modify, if_pos rfl, h]; rfl, ?_⟩
      split
      · exact Nat.lt_of_lt_of_eq (Nat.lt_add_of_pos_right Nat.two_pos)
          (Batch.rank_conclude hlook _)
      · have := Batch.rank_advance hlook (.running e (w.pool.task passage))
        exact Nat.lt_of_succ_lt_succ (Nat.lt_of_lt_of_eq (Nat.lt_succ_self _) this)
  obtain ⟨batch', hbatch', hlt⟩ := hbegin
  rw [rank_eq h, rank_eq hbatch']
  exact hlt

theorem rank_settle_lt {passage : Passage} {e : Nat} {task : Task} {fate : Fate}
    (hitem : w.item? b i = some ⟨passage, .running e task⟩) (hallows : w.allows e fate = true) :
    (w.settle f b i fate).rank b < w.rank b := by
  obtain ⟨batch, hbatch, hget⟩ := item?_eq_some_iff.mp hitem
  have hsettle := batch?_settle (f := f) hitem hallows b
  rw [if_pos rfl, hbatch, Option.map_some] at hsettle
  rw [rank_eq hbatch, rank_eq hsettle]
  exact Nat.lt_of_lt_of_eq (Nat.lt_succ_self _) (Batch.rank_conclude hget _)

/-- While a batch is not over, some event goes on with it. A passage that an executor has may end; and
if there is none, there is a slot to begin with another passage. -/
theorem exists_rank_lt (hslots : 0 < w.pool.slots) (h : w.batch? b = some batch)
    (hrank : batch.rank ≠ 0) : ∃ event, (w.step f event).rank b < w.rank b := by
  rcases Batch.exists_open hrank with ⟨i, passage, e, task, hitem⟩ | ⟨i, passage, hitem, hrunning⟩
  · exact ⟨.settle b i .withdrawn,
      rank_settle_lt (f := f) (item?_eq_some_iff.mpr ⟨batch, h, hitem⟩) rfl⟩
  · exact ⟨.begin b i, rank_begin_lt (hrunning ▸ hslots) h hitem⟩

end Workload

end SourceIndex.Embedding
