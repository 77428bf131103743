import Mathlib.Data.List.Forall2
import SourceIndex.Embedding.Service
import SourceIndex.Proofs.Embedding.Pairing
import SourceIndex.Proofs.Embedding.Rank

/-!
# The answer to a batch

A batch comes to its answer in every fair course of events (`Workload.exists_answers`). The answer has a
result for each passage, which is due to an event of that passage alone, unless one of two events was
among them that no passage has a result for (`Fatal`): the start of an executor in place of a broken one
failed, or a passage of the broken executor heard of its shutdown when the pool had another one already.
-/

namespace SourceIndex.Embedding

/-- An event ends a passage of a batch, and the batch, by a crash. -/
inductive Fatal (f : Factory) (w : Workload) (b i : Nat) : Event → Crash → Prop
  | restart {passage e task told cause} : w.item? b i = some ⟨passage, .running e task⟩ →
      w.pool.IsReady e → f (w.pool.starts + 1) = .error cause →
      Fatal f w b i (.settle b i (.broke told)) (.restart cause)
  | revoked {passage e e' task} : w.item? b i = some ⟨passage, .running e task⟩ → e ∈ w.pool.shut →
      w.pool.executor? = some e' → Fatal f w b i (.settle b i .revoked) .revoked

namespace Workload

/-- A workload in the course of a schedule. -/
def follow (f : Factory) (w : Workload) (schedule : Nat → Event) : Nat → Workload
  | 0 => w
  | n + 1 => (follow f w schedule n).step f (schedule n)

/-- A schedule does its part for a batch: no executor keeps a passage for ever, and while there is a
slot, one of the passages that wait does not wait for ever. -/
structure Fair (f : Factory) (w : Workload) (schedule : Nat → Event) (b : Nat) : Prop where
  ends : ∀ n i passage e task, (w.follow f schedule n).item? b i = some ⟨passage, .running e task⟩ →
    ∃ m, n ≤ m ∧ (w.follow f schedule m).item? b i ≠ some ⟨passage, .running e task⟩
  begins : ∀ n batch i passage, (w.follow f schedule n).batch? b = some batch →
    batch.item? i = some ⟨passage, .waiting⟩ → batch.runningCount < w.pool.slots →
    ∃ m, n ≤ m ∧ ∃ j passage, batch.item? j = some ⟨passage, .waiting⟩ ∧
      (w.follow f schedule m).item? b j ≠ some ⟨passage, .waiting⟩

/-- The answer to a batch by what happened: a result for each passage, by an event of its own or for
want of an executor, or else the first crash. -/
inductive Answers (f : Factory) (w : Workload) (schedule : Nat → Event) (b : Nat)
    (passages : List Passage) : Except Crash (List Result) → Prop
  | results {rs} : rs.length = passages.length →
      (∀ i r, rs[i]? = some r → ∃ passage, passages[i]? = some passage ∧ r.IsOf passage ∧
        (w.pool.isReady = false ∧ r = .notReady passage ∨
          ∃ n, Ends f (w.follow f schedule n) b i (schedule n) (.ok r))) →
      (∀ n i crash, ¬Fatal f (w.follow f schedule n) b i (schedule n) crash) →
      Answers f w schedule b passages (.ok rs)
  | crashed {crash n i} : Fatal f (w.follow f schedule n) b i (schedule n) crash →
      (∀ m < n, ∀ i crash, ¬Fatal f (w.follow f schedule m) b i (schedule m) crash) →
      Answers f w schedule b passages (.error crash)

end Workload

theorem ends_error_iff {f : Factory} {w : Workload} {b i : Nat} {event : Event} {crash : Crash} :
    Ends f w b i event (.error crash) ↔ Fatal f w b i event crash := by
  constructor
  · intro h
    generalize hending : (Except.error crash : Except Crash Result) = ending at h
    cases h with
    | notReady | cancelled | givenUp => cases hending
    | settled hitem hallows hsettles =>
      cases hsettles with
      | brokeForGood hready hf => cases hending; exact .restart hitem hready hf
      | revoked he => cases hending; exact .revoked hitem (List.contains_iff_mem.mp hallows) he
      | returned | dropped | raised | raisedLate | broke | withdrawn | revokedLate => cases hending
  · intro h
    cases h with
    | restart hitem hready hf => exact .settled hitem rfl (.brokeForGood hready hf)
    | revoked hitem hshut he => exact .settled hitem (List.contains_iff_mem.mpr hshut) (.revoked he)

namespace Workload

variable {f : Factory} {w : Workload} {b i : Nat} {batch : Batch}

theorem batch?_step_of_fatal {event : Event} {crash : Crash} (h : Fatal f w b i event crash) :
    (w.step f event).batch? b = (w.batch? b).map (·.conclude i (.error crash)) := by
  cases h with
  | @restart _ e _ _ cause hitem hready hf =>
    rw [step, batch?_settle hitem rfl, if_pos rfl, Pool.settle, Pool.restart_of_isReady hready,
      Pool.start_of_error (p := { w.pool with shut := w.pool.shut ++ [e] }) hf]
    rfl
  | revoked hitem hshut he =>
    have hallows : w.allows _ .revoked = true := List.contains_iff_mem.mpr hshut
    rw [step, batch?_settle hitem hallows, if_pos rfl, Pool.settle, he]
    rfl

theorem crash_step_cases {batch' : Batch} {event : Event} (h : w.batch? b = some batch)
    (h' : (w.step f event).batch? b = some batch') :
    (∀ i crash, ¬Fatal f w b i event crash) ∧ batch'.crash = batch.crash ∨
      ∃ i crash, Fatal f w b i event crash ∧ batch'.crash = (batch.crash <|> some crash) := by
  by_cases hfatal : ∃ i crash, Fatal f w b i event crash
  · obtain ⟨i, crash, hfatal⟩ := hfatal
    rw [batch?_step_of_fatal hfatal, h, Option.map_some, Option.some.injEq] at h'
    subst h'
    exact .inr ⟨i, crash, hfatal, rfl⟩
  · have hnone : ∀ i crash, ¬Fatal f w b i event crash :=
      fun i crash h => hfatal ⟨i, crash, h⟩
    obtain ⟨_, hbatch', hstep⟩ := exists_step (f := f) h event
    rw [h', Option.some.injEq] at hbatch'
    subst hbatch'
    refine .inl ⟨hnone, ?_⟩
    cases hstep with
    | keep | start => rfl
    | @finish i ending signal _ hends =>
      cases ending with
      | ok => rfl
      | error crash => exact absurd (ends_error_iff.mp hends) (hnone i crash)

/-- A crash stays the crash of its batch. -/
theorem crash_step_of_some {batch' : Batch} {event : Event} {crash : Crash}
    (h : w.batch? b = some batch) (h' : (w.step f event).batch? b = some batch')
    (hcrash : batch.crash = some crash) : batch'.crash = some crash := by
  rcases crash_step_cases h h' with ⟨-, hsame⟩ | ⟨_, _, -, hsame⟩ <;> rw [hsame, hcrash]
  rfl

theorem answer?_step {answer : Except Crash (List Result)} (h : w.answer? b = some answer)
    (event : Event) : (w.step f event).answer? b = some answer := by
  obtain ⟨batch, hbatch, hanswer⟩ := Option.bind_eq_some_iff.mp h
  obtain ⟨batch', hbatch', hstep⟩ := exists_step (f := f) hbatch event
  rw [answer?, hbatch', Option.bind_some]
  cases answer with
  | error crash =>
    rw [Batch.answer?_eq_error_iff] at hanswer ⊢
    exact crash_step_of_some hbatch hbatch' hanswer
  | ok rs =>
    have hended {i : Nat} {passage : Passage} {progress : Progress}
        (hitem : batch.item? i = some ⟨passage, progress⟩) : ∃ ending, progress = .ended ending := by
      obtain ⟨r, -, hr⟩ := Batch.exists_result_of_answer hanswer hitem
      exact ⟨.ok r, hr⟩
    cases hstep with
    | keep => exact hanswer
    | start _ _ hitem =>
      obtain ⟨ending, hending⟩ := hended hitem
      cases hending
    | finish _ hends =>
      obtain ⟨passage, progress, hitem, hne⟩ := exists_item_of_ends hends
      rw [item?, hbatch, Option.bind_some] at hitem
      obtain ⟨ending, hending⟩ := hended hitem
      exact absurd hending (hne ending)

/-- What a batch keeps of the events so far. -/
structure Accounts (f : Factory) (w : Workload) (schedule : Nat → Event) (b : Nat)
    (passages : List Passage) (n : Nat) (batch : Batch) : Prop where
  passages : batch.items.map Item.passage = passages
  unharmed : batch.crash = none →
    ∀ m < n, ∀ i crash, ¬Fatal f (w.follow f schedule m) b i (schedule m) crash
  crashed : ∀ crash, batch.crash = some crash →
    ∃ m i, Fatal f (w.follow f schedule m) b i (schedule m) crash ∧
      ∀ k < m, ∀ i crash, ¬Fatal f (w.follow f schedule k) b i (schedule k) crash
  marked : ∀ i passage crash, batch.item? i = some ⟨passage, .ended (.error crash)⟩ → batch.crash.isSome
  settled : ∀ i passage r, batch.item? i = some ⟨passage, .ended (.ok r)⟩ →
    w.pool.isReady = false ∧ r = .notReady passage ∨
      ∃ m, Ends f (w.follow f schedule m) b i (schedule m) (.ok r)

section Course

variable {schedule : Nat → Event} {passages : List Passage} {n : Nat}

/-- A passage is at its position among those that were given to the pool. -/
theorem Accounts.passages_getElem? (h : Accounts f w schedule b passages n batch)
    (hbatch : (w.follow f schedule n).batch? b = some batch) {passage : Passage} {progress : Progress}
    (hitem : (w.follow f schedule n).item? b i = some ⟨passage, progress⟩) :
    passages[i]? = some passage := by
  rw [item?, hbatch, Option.bind_some] at hitem
  rw [← h.passages, List.getElem?_map, ← Batch.item?, hitem]
  rfl

theorem Accounts.unharmed_step {batch' : Batch} (h : Accounts f w schedule b passages n batch)
    (hbatch : (w.follow f schedule n).batch? b = some batch)
    (hbatch' : (w.follow f schedule (n + 1)).batch? b = some batch') (hnone : batch'.crash = none) :
    ∀ m < n + 1, ∀ i crash, ¬Fatal f (w.follow f schedule m) b i (schedule m) crash := by
  intro m hm i crash hfatal
  rcases crash_step_cases hbatch hbatch' with ⟨hcalm, hsame⟩ | ⟨_, _, -, hsame⟩
  · rcases Nat.lt_succ_iff_lt_or_eq.mp hm with hm | rfl
    · exact h.unharmed (hsame ▸ hnone) m hm i crash hfatal
    · exact hcalm i crash hfatal
  · rw [hsame] at hnone
    cases hbefore : batch.crash <;> rw [hbefore] at hnone <;> cases hnone

/-- A crash is the first one if there was none before. -/
theorem Accounts.crashed_step {batch' : Batch} {crash : Crash}
    (h : Accounts f w schedule b passages n batch)
    (hbatch : (w.follow f schedule n).batch? b = some batch)
    (hbatch' : (w.follow f schedule (n + 1)).batch? b = some batch')
    (hcrash : batch'.crash = some crash) :
    ∃ m i, Fatal f (w.follow f schedule m) b i (schedule m) crash ∧
      ∀ k < m, ∀ i crash, ¬Fatal f (w.follow f schedule k) b i (schedule k) crash := by
  cases hbefore : batch.crash with
  | none =>
    rcases crash_step_cases hbatch hbatch' with ⟨-, hsame⟩ | ⟨i, _, hfatal, hsame⟩ <;>
      rw [hsame, hbefore] at hcrash <;> cases hcrash
    exact ⟨n, i, hfatal, h.unharmed hbefore⟩
  | some earlier =>
    rw [crash_step_of_some hbatch hbatch' hbefore] at hcrash
    cases hcrash
    exact h.crashed crash hbefore

theorem Accounts.exists_step (h : Accounts f w schedule b passages n batch)
    (hbatch : (w.follow f schedule n).batch? b = some batch) :
    ∃ batch', (w.follow f schedule (n + 1)).batch? b = some batch' ∧
      Accounts f w schedule b passages (n + 1) batch' := by
  obtain ⟨batch', hbatch', hstep⟩ := Workload.exists_step (f := f) hbatch (schedule n)
  refine ⟨batch', hbatch', hstep.passages_eq.trans h.passages, h.unharmed_step hbatch hbatch',
    fun _ => h.crashed_step hbatch hbatch', ?_, ?_⟩
  · intro i passage crash hitem
    obtain ⟨progress, hprior, hprogress⟩ := hstep.exists_prior hitem
    cases hprogress with
    | keep =>
      obtain ⟨earlier, hcrash⟩ := Option.isSome_iff_exists.mp (h.marked i passage crash hprior)
      rw [crash_step_of_some hbatch hbatch' hcrash]
      rfl
    | finish hends =>
      rcases crash_step_cases hbatch hbatch' with ⟨hnone, -⟩ | ⟨_, _, -, hsame⟩
      · exact absurd (ends_error_iff.mp hends) (hnone i crash)
      · rw [hsame]
        cases batch.crash <;> rfl
  · intro i passage r hitem
    obtain ⟨progress, hprior, hprogress⟩ := hstep.exists_prior hitem
    cases hprogress with
    | keep => exact h.settled i passage r hprior
    | finish hends => exact .inr ⟨n, hends⟩

theorem exists_accounts_call (f : Factory) (w : Workload) (passages : List Passage)
    (signal : Option Signal) (schedule : Nat → Event) :
    ∃ batch, (w.call passages signal).batch? w.batches.length = some batch ∧
      Accounts f (w.call passages signal) schedule w.batches.length passages 0 batch := by
  have hcall {i : Nat} {item : Item} (hitem : Batch.item? ⟨passages.map fun passage => ⟨passage,
      if w.pool.isReady then .waiting else .ended (.ok (.notReady passage))⟩, signal, none⟩ i =
        some item) : (w.call passages signal).item? w.batches.length i = some item := by
    rwa [item?, batch?_call]
  refine ⟨_, batch?_call passages signal, ?_, ?_, ?_, ?_, ?_⟩
  · rw [List.map_map]
    exact List.map_id passages
  · exact fun _ m hm => absurd hm (Nat.not_lt_zero m)
  · exact fun crash hcrash => absurd hcrash.symm (Option.some_ne_none crash)
  · intro i passage crash hitem
    obtain ⟨-, hprogress⟩ := of_item?_call (hcall hitem)
    split at hprogress <;> cases hprogress
  · intro i passage r hitem
    obtain ⟨-, hprogress⟩ := of_item?_call (hcall hitem)
    split at hprogress
    · cases hprogress
    · cases hprogress
      exact .inl ⟨Bool.eq_false_iff.mpr ‹_›, rfl⟩

theorem exists_accounts (f : Factory) (w : Workload) (passages : List Passage) (signal : Option Signal)
    (schedule : Nat → Event) (n : Nat) :
    ∃ batch, ((w.call passages signal).follow f schedule n).batch? w.batches.length = some batch ∧
      Accounts f (w.call passages signal) schedule w.batches.length passages n batch := by
  induction n with
  | zero => exact exists_accounts_call f w passages signal schedule
  | succ n ih =>
    obtain ⟨batch, hbatch, haccounts⟩ := ih
    exact haccounts.exists_step hbatch

theorem exists_batch_follow (f : Factory) (schedule : Nat → Event)
    (h : w.batch? b = some batch) (n : Nat) :
    ∃ batch, (w.follow f schedule n).batch? b = some batch := by
  induction n with
  | zero => exact ⟨batch, h⟩
  | succ n ih =>
    obtain ⟨batch, hbatch⟩ := ih
    obtain ⟨batch', hbatch', -⟩ := exists_step (f := f) hbatch (schedule n)
    exact ⟨batch', hbatch'⟩

theorem IsPaired.follow (f : Factory) (schedule : Nat → Event) (h : w.IsPaired b)
    (hbatch : w.batch? b = some batch) (n : Nat) : (w.follow f schedule n).IsPaired b := by
  induction n with
  | zero => exact h
  | succ n ih =>
    obtain ⟨batch', hbatch'⟩ := exists_batch_follow f schedule hbatch n
    exact ih.step hbatch' (schedule n)

theorem rank_follow_lt_or (f : Factory) (schedule : Nat → Event) (h : w.batch? b = some batch)
    {n m : Nat} (hle : n ≤ m) :
    (w.follow f schedule m).rank b < (w.follow f schedule n).rank b ∨
      (w.follow f schedule m).rank b = (w.follow f schedule n).rank b ∧
        ∀ i, (w.follow f schedule m).item? b i = (w.follow f schedule n).item? b i := by
  induction hle with
  | refl => exact .inr ⟨rfl, fun _ => rfl⟩
  | @step m _ ih =>
    obtain ⟨batch', hbatch'⟩ := exists_batch_follow f schedule h m
    rcases rank_step_lt_or (f := f) hbatch' (schedule m) with hlt | ⟨heq, hitems⟩
    · rcases ih with hlt' | ⟨heq', -⟩
      · exact .inl (Nat.lt_trans hlt hlt')
      · exact .inl (heq' ▸ hlt)
    · rcases ih with hlt' | ⟨heq', hitems'⟩
      · exact .inl (heq ▸ hlt')
      · exact .inr ⟨heq.trans heq', fun i => (hitems i).trans (hitems' i)⟩

theorem exists_rank_follow_lt (hslots : 0 < w.pool.slots) (hfair : w.Fair f schedule b)
    (h : w.batch? b = some batch) {n : Nat} (hrank : (w.follow f schedule n).rank b ≠ 0) :
    ∃ m, (w.follow f schedule m).rank b < (w.follow f schedule n).rank b := by
  obtain ⟨batch', hbatch'⟩ := exists_batch_follow f schedule h n
  rw [rank_eq hbatch'] at hrank
  have hlower {m i : Nat} (hle : n ≤ m) {item : Item} (hitem : batch'.item? i = some item)
      (hne : (w.follow f schedule m).item? b i ≠ some item) :
      (w.follow f schedule m).rank b < (w.follow f schedule n).rank b := by
    refine (rank_follow_lt_or f schedule h hle).resolve_right fun hsame => hne ?_
    exact (hsame.2 i).trans (item?_eq_some_iff.mpr ⟨batch', hbatch', hitem⟩)
  rcases Batch.exists_open hrank with ⟨i, passage, e, task, hitem⟩ | ⟨i, passage, hitem, hrunning⟩
  · obtain ⟨m, hle, hne⟩ :=
      hfair.ends n i passage e task (item?_eq_some_iff.mpr ⟨batch', hbatch', hitem⟩)
    exact ⟨m, hlower hle hitem hne⟩
  · obtain ⟨m, hle, j, passage', hitem', hne⟩ :=
      hfair.begins n batch' i passage hbatch' hitem (hrunning ▸ hslots)
    exact ⟨m, hlower hle hitem' hne⟩

theorem exists_rank_eq_zero (hslots : 0 < w.pool.slots) (hfair : w.Fair f schedule b)
    (h : w.batch? b = some batch) : ∃ n, (w.follow f schedule n).rank b = 0 := by
  -- by induction on a bound of the rank, which some later time lowers
  have hdescend (k : Nat) : ∀ n, (w.follow f schedule n).rank b ≤ k →
      ∃ m, (w.follow f schedule m).rank b = 0 := by
    induction k with
    | zero => exact fun n hn => ⟨n, Nat.le_zero.mp hn⟩
    | succ k ih =>
      intro n hn
      by_cases hzero : (w.follow f schedule n).rank b = 0
      · exact ⟨n, hzero⟩
      · obtain ⟨m, hlt⟩ := exists_rank_follow_lt hslots hfair h hzero
        exact ih m (Nat.le_of_lt_succ (Nat.lt_of_lt_of_le hlt hn))
  exact hdescend _ 0 (Nat.le_refl _)

/-- A schedule that brings a batch to its end is fair. -/
theorem Fair.of_rank_eq_zero {n : Nat} (h : w.batch? b = some batch)
    (hrank : (w.follow f schedule n).rank b = 0) : w.Fair f schedule b := by
  have hover {m i : Nat} {passage : Passage} {progress : Progress} (hle : n ≤ m)
      (hitem : (w.follow f schedule m).item? b i = some ⟨passage, progress⟩) :
      ∃ ending, progress = .ended ending := by
    obtain ⟨batch', hbatch', hitem⟩ := item?_eq_some_iff.mp hitem
    refine Batch.progress_of_rank_eq_zero ?_ hitem
    rw [← rank_eq hbatch']
    rcases rank_follow_lt_or f schedule h hle with hlt | ⟨heq, -⟩
    · exact absurd (hrank ▸ hlt) (Nat.not_lt_zero _)
    · exact heq.trans hrank
  constructor
  · intro k i passage e task _
    refine ⟨max k n, Nat.le_max_left k n, fun hitem => ?_⟩
    obtain ⟨_, hending⟩ := hover (Nat.le_max_right k n) hitem
    cases hending
  · intro k batch' i passage _ hitem _
    refine ⟨max k n, Nat.le_max_left k n, i, passage, hitem, fun hitem' => ?_⟩
    obtain ⟨_, hending⟩ := hover (Nat.le_max_right k n) hitem'
    cases hending

theorem answer?_follow {answer : Except Crash (List Result)} {n m : Nat} (hle : n ≤ m)
    (h : (w.follow f schedule n).answer? b = some answer) :
    (w.follow f schedule m).answer? b = some answer := by
  induction hle with
  | refl => exact h
  | step _ ih => exact answer?_step ih _

/-- The results of an answer are those of the passages, in order. -/
theorem Answers.forall₂ {rs : List Result} (h : w.Answers f schedule b passages (.ok rs)) :
    List.Forall₂ Result.IsOf rs passages := by
  cases h with
  | results hlength hresults _ =>
    refine List.forall₂_iff_get.mpr ⟨hlength, fun i hi hi' => ?_⟩
    obtain ⟨passage, hpassage, hisOf, -⟩ := hresults i _ (List.getElem?_eq_getElem hi)
    rw [List.getElem?_eq_getElem hi', Option.some.injEq] at hpassage
    rw [List.get_eq_getElem, List.get_eq_getElem, hpassage]
    exact hisOf

theorem exists_answer_of_fair (f : Factory) (w : Workload) (passages : List Passage)
    (signal : Option Signal) (hslots : 0 < w.pool.slots)
    (hfair : (w.call passages signal).Fair f schedule w.batches.length) :
    ∃ answer n, ∀ m, n ≤ m →
      ((w.call passages signal).follow f schedule m).answer? w.batches.length = some answer := by
  obtain ⟨n, hrank⟩ := exists_rank_eq_zero (w := w.call passages signal) hslots hfair
    (batch?_call passages signal)
  obtain ⟨batch, hbatch, haccounts⟩ := exists_accounts f w passages signal schedule n
  rw [rank_eq hbatch] at hrank
  obtain ⟨answer, hanswer⟩ := Batch.exists_answer_of_rank_eq_zero hrank haccounts.marked
  exact ⟨answer, n, fun m hm => answer?_follow hm (by rw [answer?, hbatch]; exact hanswer)⟩

/-- An answer that is kept is what the events made of the batch. -/
theorem answers_of_forever {signal : Option Signal} {answer : Except Crash (List Result)}
    (hforever : ∀ m, n ≤ m →
      ((w.call passages signal).follow f schedule m).answer? w.batches.length = some answer) :
    (w.call passages signal).Answers f schedule w.batches.length passages answer := by
  obtain ⟨batch, hbatch, haccounts⟩ := exists_accounts f w passages signal schedule n
  have hanswer := hforever n (Nat.le_refl n)
  rw [answer?, hbatch, Option.bind_some] at hanswer
  cases answer with
  | error crash =>
    obtain ⟨m, i, hfatal, hfirst⟩ :=
      haccounts.crashed crash (Batch.answer?_eq_error_iff.mp hanswer)
    exact .crashed hfatal hfirst
  | ok rs =>
    refine .results ?_ ?_ ?_
    · rw [Batch.length_of_answer hanswer, ← haccounts.passages, List.length_map]
    · intro i r hr
      obtain ⟨passage, hget⟩ := Batch.exists_item_of_answer hanswer hr
      have hitem := item?_eq_some_iff.mpr ⟨batch, hbatch, hget⟩
      have hpaired := (isPaired_call (w := w) passages signal).follow f schedule
        (batch?_call passages signal) n
      exact ⟨passage, haccounts.passages_getElem? hbatch hitem, hpaired i passage r hitem,
        haccounts.settled i passage r hget⟩
    · intro m
      -- The answer is kept, so there is no crash at any time behind this event either.
      obtain ⟨batch', hbatch', haccounts'⟩ :=
        exists_accounts f w passages signal schedule (max n (m + 1))
      have hanswer' := hforever _ (Nat.le_max_left n (m + 1))
      rw [answer?, hbatch', Option.bind_some, Batch.answer?_eq_ok_iff] at hanswer'
      exact haccounts'.unharmed hanswer'.1 m (Nat.le_max_right n (m + 1))

end Course

/-- In a fair course of events a batch comes to its answer, and keeps it. -/
theorem exists_answers (f : Factory) (w : Workload) (passages : List Passage) (signal : Option Signal)
    (schedule : Nat → Event) (hslots : 0 < w.pool.slots)
    (hfair : (w.call passages signal).Fair f schedule w.batches.length) :
    ∃ answer, (w.call passages signal).Answers f schedule w.batches.length passages answer ∧
      ∃ n, ∀ m, n ≤ m →
        ((w.call passages signal).follow f schedule m).answer? w.batches.length = some answer := by
  obtain ⟨answer, n, hforever⟩ := exists_answer_of_fair f w passages signal hslots hfair
  exact ⟨answer, answers_of_forever hforever, n, hforever⟩

/-- The executor breaks under the first passage, and another one is there for the second. -/
def afterBreak : Nat → Event
  | 0 => .begin 0 0
  | 1 => .settle 0 0 (.broke "died")
  | 2 => .begin 0 1
  | 3 => .settle 0 1 (.returned (.ok [Binary.binary32.ofInt 1]))
  | _ => .makeReady

/-- Two passages, given to a pool that has one slot. -/
def twoPassages : List Passage := Passage.ofTexts [['a'], ['b']]

theorem exists_answers_afterBreak :
    ∃ answer,
      ((started 1).call twoPassages none).Answers (fun _ => .ok ()) afterBreak 0 twoPassages answer ∧
      ∃ n, ∀ m, n ≤ m → (((started 1).call twoPassages none).follow (fun _ => .ok ())
        afterBreak m).answer? 0 = some answer := by
  refine exists_answers (fun _ => .ok ()) (started 1) twoPassages none afterBreak Nat.one_pos ?_
  have hover : (((started 1).call twoPassages none).follow (fun _ => .ok ())
      afterBreak 4).rank 0 = 0 := by decide
  exact .of_rank_eq_zero (batch?_call twoPassages none) hover

end Workload

/-- One passage has no result, and so none has: there is no executor in place of the broken one, or
there is one before another passage hears of the shutdown. -/
theorem Service.generate_eq_error :
    (Service.generate (Passage.ofTexts ["t0 x".toList]) none {}
      { site := fun k => if k = 1 then .ok fun _ => .answer (.broke "m")
          else .error ⟨"OSError", "no start"⟩,
        worker := { source := fun _ _ => .error ⟨"RuntimeError", "no model"⟩ },
        workload := .started 1 }).1 = .error (.restart ⟨"OSError", "no start"⟩) ∧
    (Workload.run (fun _ => .ok ()) (.started 2)
      [.call (Passage.ofTexts [['a'], ['b']]) none, .begin 0 0, .begin 0 1, .settle 0 0 (.broke "m"),
        .settle 0 1 .revoked]).answer? 0 = some (.error .revoked) :=
  ⟨rfl, rfl⟩

end SourceIndex.Embedding
