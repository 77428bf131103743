import SourceIndex.Syntax.Tree

/-! # Places of a tree

The siblings before a place and its own node are the first children of one parent, unless the place is
that of the root (`siblings_of_mem_places`). So the siblings before a place of a well-formed tree
(`Tree.IsWellFormed`) are in the order of the text, one behind the other
(`Tree.IsWellFormed.isOrdered`). -/

namespace SourceIndex.Syntax

/-- The ranges of children are in order, inside the range of their parent and inside the bytes of a
text, of which there are `size`. -/
structure Tree.IsWellFormed (size : Nat) (t : Tree) : Prop where
  root : t.label.start ≤ t.label.stop ∧ t.label.stop ≤ size
  inside : ∀ n ∈ t.nodes, ∀ c ∈ n.children,
    n.label.start ≤ c.label.start ∧ c.label.start ≤ c.label.stop ∧ c.label.stop ≤ n.label.stop
  ordered : ∀ n ∈ t.nodes, n.children.Pairwise fun a b => a.label.stop ≤ b.label.start

/-- A place is that of a child which has its siblings before it. -/
def Place.IsChildOf (p : Place) (parent : Tree) : Prop :=
  ∃ after, parent.children = p.before.reverse ++ p.tree :: after

-- Induction on the tree; of the children, those that were passed are in `before`.
mutual

theorem siblings_of_mem_placesAt {path : List Nat} {before : List Tree} {p : Place} :
    ∀ {t : Tree}, p ∈ placesAt path before t →
      p = ⟨path, t, before⟩ ∨ ∃ parent ∈ t.nodes, p.IsChildOf parent
  | .node label children, h => by
    rw [placesAt, List.mem_cons] at h
    rcases h with rfl | h
    · exact .inl rfl
    · right
      rcases siblings_of_mem_placesIn h with hchild | ⟨parent, hparent, hchild⟩
      · exact ⟨.node label children, List.mem_cons_self, hchild⟩
      · exact ⟨parent, List.mem_cons_of_mem _ hparent, hchild⟩

theorem siblings_of_mem_placesIn {path : List Nat} {index : Nat} {before : List Tree} {p : Place} :
    ∀ {ts : List Tree}, p ∈ placesIn path index before ts →
      (∃ after, before.reverse ++ ts = p.before.reverse ++ p.tree :: after) ∨
        ∃ parent ∈ Tree.nodesOf ts, p.IsChildOf parent
  | t :: ts, h => by
    rw [placesIn, List.mem_append] at h
    rcases h with h | h
    · rcases siblings_of_mem_placesAt h with rfl | ⟨parent, hparent, hchild⟩
      · exact .inl ⟨ts, rfl⟩
      · exact .inr ⟨parent, List.mem_append_left _ hparent, hchild⟩
    · rcases siblings_of_mem_placesIn h with ⟨after, hafter⟩ | ⟨parent, hparent, hchild⟩
      · rw [List.reverse_cons, List.append_assoc] at hafter
        exact .inl ⟨after, hafter⟩
      · exact .inr ⟨parent, List.mem_append_right _ hparent, hchild⟩

end

/-- A place is that of the root, which has no siblings, or that of a child. -/
theorem siblings_of_mem_places {t : Tree} {p : Place} (h : p ∈ t.places) :
    p.before = [] ∨ ∃ parent ∈ t.nodes, p.IsChildOf parent := by
  rcases siblings_of_mem_placesAt h with rfl | hchild
  · exact .inl rfl
  · exact .inr hchild

/-- The siblings before a place are in the order of the text, and their ranges do not overlap. -/
structure Place.IsOrdered (p : Place) : Prop where
  ranges : ∀ t ∈ p.before, t.label.start ≤ t.label.stop
  order : (p.tree :: p.before).Pairwise fun later earlier => earlier.label.stop ≤ later.label.start

theorem Tree.IsWellFormed.isOrdered {size : Nat} {t : Tree} {p : Place} (ht : t.IsWellFormed size)
    (h : p ∈ t.places) : p.IsOrdered := by
  rcases siblings_of_mem_places h with hroot | ⟨parent, hparent, after, hchildren⟩
  · refine ⟨?_, ?_⟩ <;> rw [hroot]
    · exact fun _ h => absurd h List.not_mem_nil
    · exact List.pairwise_singleton _ _
  · have hbefore : ∀ q ∈ p.before, q ∈ parent.children := fun q hq => by
      rw [hchildren]
      exact List.mem_append_left _ (List.mem_reverse.mpr hq)
    refine ⟨fun q hq => (ht.inside parent hparent q (hbefore q hq)).2.1, ?_⟩
    have hordered := ht.ordered parent hparent
    rw [hchildren, List.pairwise_append] at hordered
    obtain ⟨hreverse, -, hacross⟩ := hordered
    exact .cons (fun q hq => hacross q (List.mem_reverse.mpr hq) p.tree List.mem_cons_self)
      (List.pairwise_reverse.mp hreverse)

/-- The siblings before a place start before it. -/
theorem Tree.IsWellFormed.start_le {size : Nat} {t : Tree} {p : Place} (ht : t.IsWellFormed size)
    (h : p ∈ t.places) : ∀ q ∈ p.before, q.label.start ≤ p.start := by
  intro q hq
  obtain ⟨hranges, horder⟩ := ht.isOrdered h
  exact Nat.le_trans (hranges q hq) ((List.pairwise_cons.mp horder).1 q hq)

end SourceIndex.Syntax
