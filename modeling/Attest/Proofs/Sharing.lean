import Attest.FailurePool
import Mathlib.Data.Finset.Card
import Mathlib.Data.Finset.Range
import Mathlib.Logic.Relation

/-!
# Sharing

How the failures of a pool hang together, and what the operations on a pool do to that. Each failure
has the numbers of those below it, and operations only ever add to them. A walk down comes to an
end, and before it has met as many failures as there are, if no failure stands below itself.

* `FailurePool.performAll`: operations on a pool, one after the other.
* `Operation.relinkAll`: how the failures hang together afterwards.
* `Links.exists_depth`: without circles, there is a depth that falls along each link and is less
  than the number of failures.
-/

namespace Attest

/-- For each number, the numbers below it. -/
abbrev Links := List (List Nat)

namespace Links

variable {links : Links} {parent child : Nat} {children : List Nat}

/-- One number stands right below another one. -/
def Has (links : Links) (parent child : Nat) : Prop :=
  ∃ children, links[parent]? = some children ∧ child ∈ children

/-- No number stands below itself. -/
def IsAcyclic (links : Links) : Prop := ∀ n, ¬ Relation.TransGen links.Has n n

/-- What stands below a number is there. -/
def IsClosed (links : Links) : Prop := ∀ parent child, links.Has parent child → child < links.length

/-- The links with one more, from a number to another one. -/
def hang (links : Links) (parent child : Nat) : Links := links.modify parent (· ++ [child])

theorem has_snoc_iff : (links ++ [children]).Has parent child ↔
    links.Has parent child ∨ parent = links.length ∧ child ∈ children := by
  unfold Has
  rcases Nat.lt_trichotomy parent links.length with hlt | rfl | hgt
  · rw [List.getElem?_append_left hlt]
    have hne : parent ≠ links.length := Nat.ne_of_lt hlt
    simp [hne]
  · simp
  · have hne : parent ≠ links.length := Nat.ne_of_gt hgt
    have hnone : links[parent]? = none := List.getElem?_eq_none (Nat.le_of_lt hgt)
    have hsnoc : (links ++ [children])[parent]? = none :=
      List.getElem?_eq_none (by simpa using Nat.succ_le_of_lt hgt)
    simp [hne, hnone, hsnoc]

theorem has_hang_iff {n m : Nat} (hp : parent < links.length) :
    (links.hang parent child).Has n m ↔ links.Has n m ∨ n = parent ∧ m = child := by
  unfold Has hang
  simp only [List.getElem?_modify]
  by_cases hn : parent = n
  · subst hn
    simp [List.getElem?_eq_getElem hp]
  · have hne : n ≠ parent := Ne.symm hn
    simp [hn, hne]

/-- Where a number falls along each link, nothing stands below itself. -/
theorem isAcyclic_of_depth (depth : Nat → Nat)
    (h : ∀ parent child, links.Has parent child → depth child < depth parent) :
    links.IsAcyclic := by
  have hfalls : ∀ {n m}, Relation.TransGen links.Has n m → depth m < depth n := by
    intro n m hway
    induction hway with
    | single hlink => exact h _ _ hlink
    | tail _ hlink ih => exact Nat.lt_trans (h _ _ hlink) ih
  exact fun n hn => Nat.lt_irrefl _ (hfalls hn)

/-- Failures that stand only below later ones. -/
theorem isAcyclic_of_all (h : links.zipIdx.all (fun e => e.1.all (· < e.2)) = true) :
    links.IsAcyclic := by
  refine isAcyclic_of_depth id fun parent child hlink => ?_
  obtain ⟨children, hp, hc⟩ := hlink
  have hmem : (children, parent) ∈ links.zipIdx := List.mem_zipIdx_iff_getElem?.2 hp
  exact of_decide_eq_true (List.all_eq_true.1 (List.all_eq_true.1 h _ hmem) child hc)

open Classical in
/-- Where nothing stands below itself, a number leads to fewer others than the ones above it do. -/
theorem exists_depth (hclosed : links.IsClosed) (h : links.IsAcyclic) :
    ∃ depth : Nat → Nat, (∀ n < links.length, depth n < links.length) ∧
      ∀ parent child, links.Has parent child → depth child < depth parent := by
  let reached (n : Nat) : Finset Nat :=
    (Finset.range links.length).filter fun m => Relation.TransGen links.Has n m
  have hself : ∀ n, n ∉ reached n := fun n hn => h n (Finset.mem_filter.1 hn).2
  refine ⟨fun n => (reached n).card, fun n hn => ?_, fun parent child hlink => ?_⟩
  · have hsub : reached n ⊂ Finset.range links.length :=
      Finset.ssubset_iff_of_subset (Finset.filter_subset _ _) |>.2
        ⟨n, Finset.mem_range.2 hn, hself n⟩
    simpa using Finset.card_lt_card hsub
  · have hchild : child ∈ reached parent :=
      Finset.mem_filter.2 ⟨Finset.mem_range.2 (hclosed parent child hlink), .single hlink⟩
    have hsub : reached child ⊆ reached parent := fun m hm => by
      obtain ⟨hlt, hway⟩ := Finset.mem_filter.1 hm
      exact Finset.mem_filter.2 ⟨hlt, .head hlink hway⟩
    exact Finset.card_lt_card ((Finset.ssubset_iff_of_subset hsub).2 ⟨child, hchild, hself child⟩)

end Links

/-! ## Operations -/

/-- What can be done with the failures of a pool. -/
inductive Operation where
  /-- Makes a failure from its parts, with some others below it and some in its context. -/
  | make (parts : Notice.Parts) (children : List Nat) (held : List (String × Nat))
  /-- Hangs a failure below another one, at a segment. -/
  | addChild (parent child : Nat) (segment : Value)
  /-- Puts a path in front of a failure. -/
  | inside (path : Value) (n : Nat)

namespace FailurePool

/-- How the failures of a pool hang together. -/
def links (pool : FailurePool) : Links := pool.nodes.map (·.children)

def perform (pool : FailurePool) : Operation → Except Fault FailurePool
  | .make parts children held => do return (← pool.make parts children held).2
  | .addChild parent child segment => pool.addChild parent child segment
  | .inside path n => pool.inside path n

/-- Operations one after the other. -/
def performAll (pool : FailurePool) (ops : List Operation) : Except Fault FailurePool :=
  ops.foldlM perform pool

theorem length_links (pool : FailurePool) : pool.links.length = pool.nodes.length :=
  List.length_map _

theorem getElem?_links (pool : FailurePool) (n : Nat) :
    pool.links[n]? = pool.nodes[n]?.map (·.children) := List.getElem?_map ..

end FailurePool

namespace Operation

variable {links : Links} {op : Operation}

/-- How failures hang together after an operation. -/
def relink (links : Links) : Operation → Links
  | .make _ children _ => links ++ [children]
  | .addChild parent child _ => links.hang parent child
  | .inside _ _ => links

def relinkAll (links : Links) (ops : List Operation) : Links := ops.foldl relink links

/-- An operation speaks of failures that are there. -/
def Exists (links : Links) : Operation → Prop
  | .make _ children held =>
    (∀ child ∈ children, child < links.length) ∧ ∀ b ∈ held, b.2 < links.length
  | .addChild parent child _ => parent < links.length ∧ child < links.length
  | .inside _ n => n < links.length

instance (links : Links) : (op : Operation) → Decidable (op.Exists links)
  | .make _ children held =>
    inferInstanceAs (Decidable ((∀ child ∈ children, child < links.length) ∧
      ∀ b ∈ held, b.2 < links.length))
  | .addChild parent child _ =>
    inferInstanceAs (Decidable (parent < links.length ∧ child < links.length))
  | .inside _ n => inferInstanceAs (Decidable (n < links.length))

theorem isClosed_relink (h : links.IsClosed) (hop : op.Exists links) :
    (op.relink links).IsClosed := by
  intro n m hlink
  cases op with
  | make parts children held =>
    rw [relink, List.length_append, List.length_singleton]
    rcases Links.has_snoc_iff.1 hlink with hlink | ⟨-, hmem⟩
    · have := h n m hlink
      omega
    · have := hop.1 m hmem
      omega
  | addChild parent child segment =>
    rw [relink, Links.hang, List.length_modify]
    rcases (Links.has_hang_iff hop.1).1 hlink with hlink | ⟨-, rfl⟩
    · exact h n m hlink
    · exact hop.2
  | inside path n => exact h _ _ hlink

/-- No operation takes a link away. -/
theorem has_relink (hop : op.Exists links) {n m : Nat} (h : links.Has n m) :
    (op.relink links).Has n m := by
  cases op with
  | make parts children held => exact Links.has_snoc_iff.2 (.inl h)
  | addChild parent child segment => exact (Links.has_hang_iff hop.1).2 (.inl h)
  | inside path n => exact h

/-- If an operation leaves no circle, there was none before it. -/
theorem isAcyclic_of_relink (hop : op.Exists links) (h : (op.relink links).IsAcyclic) :
    links.IsAcyclic := fun n hn =>
  h n (Relation.TransGen.mono (fun _ _ => has_relink hop) n n hn)

end Operation

end Attest
