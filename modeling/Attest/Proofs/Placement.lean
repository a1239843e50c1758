import Attest.Proofs.Breach
import Attest.Proofs.Wording

/-!
# Placement

What the leaves of a failure say about where they are. No failure knows its trail when it is made:
each whole that it becomes a part of puts a segment in front of its trail, and of all trails below
it.

* `Failure.Pinpoint`: the leaves name some places, one each, and their keys and the trails above
  them agree with that.
* `Pinpoint.placed`, `Pinpoint.whole`: a part at its place, and parts below a whole.
* `Pinpoint.moved`: a failure under an outer trail.
-/

namespace Attest

/-! ## Context -/

namespace Notice

theorem get?_withKey (n : Notice) (segment : Value) :
    (n.withKey segment).get? "key" = (n.get? "key").or (some segment) := by
  unfold withKey
  split
  · next h =>
    obtain ⟨key, hkey⟩ := Option.isSome_iff_exists.1 h
    rw [hkey, Option.some_or]
  · simp only [get?, List.lookup_append]
    rfl

theorem get?_withKey_of_ne {name : String} (hname : name ≠ "key") (n : Notice) (segment : Value) :
    (n.withKey segment).get? name = n.get? name := by
  have hbeq : (name == "key") = false := by simpa using hname
  unfold withKey
  split
  · rfl
  · simp only [get?, List.lookup_append, List.lookup_cons, hbeq, List.lookup_nil, Option.or_none]

theorem got_withKey (n : Notice) (segment : Value) : (n.withKey segment).got = n.got := by
  rw [got, get?_withKey_of_ne (by decide), got]

theorem trail_withKey (n : Notice) (segment : Value) : (n.withKey segment).trail = n.trail := by
  unfold withKey
  split <;> rfl

theorem template_withKey (n : Notice) (segment : Value) :
    (n.withKey segment).template = n.template := by
  unfold withKey
  split <;> rfl

namespace Parts

theorem lookup_unlessMissing {name other : String} (h : name ≠ other) (v : Value) :
    (unlessMissing other v).lookup name = none := by
  have hbeq : (name == other) = false := by simpa using h
  unfold unlessMissing
  split
  · rfl
  · rw [List.lookup_cons, hbeq]
    rfl

theorem lookup_unlessNull {name other : String} (h : name ≠ other) (v : Value) :
    (unlessNull other v).lookup name = none := by
  have hbeq : (name == other) = false := by simpa using h
  unfold unlessNull
  split
  · rfl
  · rw [List.lookup_cons, hbeq]
    rfl

/-- What a notice got is what its parts got. -/
theorem head_got {p : Parts} (h : p.extra.lookup "got" = none) : p.head.got = p.got := by
  have hgot : ((unlessMissing "got" p.got).lookup "got").getD .missing = p.got := by
    unfold unlessMissing
    split
    · next hmissing =>
      cases hp : p.got with
      | missing => rfl
      | _ =>
        rw [hp] at hmissing
        cases hmissing
    · rfl
  have hne : "got" ≠ "expected" ∧ "got" ≠ "comparison" ∧ "got" ≠ "key" := by decide
  simp only [Notice.got, get?, head, context, List.lookup_append, h, lookup_unlessMissing hne.1,
    lookup_unlessNull hne.2.1, lookup_unlessNull hne.2.2, Option.none_or, Option.or_none]
  exact hgot

/-- The key of a notice is the key of its parts. -/
theorem head_key {p : Parts} (h : p.extra.lookup "key" = none) :
    p.head.get? "key" = (unlessNull "key" p.key).lookup "key" := by
  have hne : "key" ≠ "got" ∧ "key" ≠ "expected" ∧ "key" ≠ "comparison" := by decide
  simp only [get?, head, context, List.lookup_append, h, lookup_unlessMissing hne.1,
    lookup_unlessMissing hne.2.1, lookup_unlessNull hne.2.2, Option.none_or]

end Parts

end Notice

/-! ## Leaves and nodes -/

namespace Failure

mutual

/-- A failure and all below it, from the outside to the inside. -/
def nodes : Failure → List Failure
  | mk n children => mk n children :: nodesOf children

def nodesOf : List Failure → List Failure
  | [] => []
  | f :: rest => nodes f ++ nodesOf rest

end

theorem leaves_of_children {n : Notice} {children : List Failure} (h : children ≠ []) :
    (mk n children).leaves = leavesOf children := by
  cases children with
  | nil => exact absurd rfl h
  | cons child rest => rfl

theorem leavesOf_singleton (f : Failure) : leavesOf [f] = f.leaves := List.append_nil _

theorem nodesOf_singleton (f : Failure) : nodesOf [f] = f.nodes := List.append_nil _

theorem leavesOf_append (fs gs : List Failure) :
    leavesOf (fs ++ gs) = leavesOf fs ++ leavesOf gs := by
  induction fs with
  | nil => rfl
  | cons f rest ih => rw [List.cons_append, leavesOf, leavesOf, ih, List.append_assoc]

theorem nodesOf_append (fs gs : List Failure) : nodesOf (fs ++ gs) = nodesOf fs ++ nodesOf gs := by
  induction fs with
  | nil => rfl
  | cons f rest ih => rw [List.cons_append, nodesOf, nodesOf, ih, List.append_assoc]

mutual

/-- The leaves of a failure move with it. -/
theorem leaves_moved (outer : Trail) : ∀ f : Failure,
    (f.moved outer).leaves = f.leaves.map (moved outer)
  | mk n [] => rfl
  | mk n (child :: rest) => by
    have hchild := leaves_moved outer child
    have hrest := leavesOf_movedAll outer rest
    simp only [moved, movedAll, worded, leaves, hchild, hrest, List.map_append]

theorem leavesOf_movedAll (outer : Trail) : ∀ fs : List Failure,
    leavesOf (movedAll outer fs) = (leavesOf fs).map (moved outer)
  | [] => rfl
  | f :: rest => by
    have hf := leaves_moved outer f
    have hrest := leavesOf_movedAll outer rest
    simp only [movedAll, leavesOf, hf, hrest, List.map_append]

end

mutual

/-- All nodes of a failure move with it. -/
theorem nodes_moved (outer : Trail) : ∀ f : Failure,
    (f.moved outer).nodes = f.nodes.map (moved outer)
  | mk n children => by
    have hchildren := nodesOf_movedAll outer children
    simp only [moved, worded, nodes, hchildren, List.map_cons]

theorem nodesOf_movedAll (outer : Trail) : ∀ fs : List Failure,
    nodesOf (movedAll outer fs) = (nodesOf fs).map (moved outer)
  | [] => rfl
  | f :: rest => by
    have hf := nodes_moved outer f
    have hrest := nodesOf_movedAll outer rest
    simp only [movedAll, nodesOf, hf, hrest, List.map_append]

end

theorem trail_moved (outer : Trail) (f : Failure) :
    (f.moved outer).notice.trail = outer ++ f.notice.trail := by
  obtain ⟨n, children⟩ := f
  rfl

theorem get?_moved (outer : Trail) (f : Failure) (name : String) :
    (f.moved outer).notice.get? name = f.notice.get? name := by
  obtain ⟨n, children⟩ := f
  rfl

theorem template_moved (outer : Trail) (f : Failure) :
    (f.moved outer).notice.template = f.notice.template := by
  obtain ⟨n, children⟩ := f
  rfl

theorem length_children_moved (outer : Trail) (f : Failure) :
    (f.moved outer).children.length = f.children.length := by
  obtain ⟨n, children⟩ := f
  exact (congrArg List.length (movedAll_eq_map outer children)).trans (List.length_map _)

/-! ## Pinpointing -/

/-- What a failure is about: where it is, and what it got. -/
def spot (f : Failure) : Trail × Value := (f.notice.trail, f.notice.got)

/-- The leaves of some failures name some places, one each. A leaf has the last segment of its trail
as its key; `pending` is the segment that it may have already, but that is not yet in front of its
trail. -/
structure Pinpoint (pending : Option Value) (fs : List Failure) (places : List (Trail × Value)) :
    Prop where
  spots : (leavesOf fs).map spot = places
  keys : ∀ leaf ∈ leavesOf fs, leaf.notice.get? "key" = leaf.notice.trail.getLast?.or pending
  /-- The segment of a part is in front of its leaves once it is in a whole. -/
  inner : ∀ f ∈ fs, f.children ≠ [] → ∀ leaf ∈ f.leaves, leaf.notice.trail ≠ []
  above : ∀ g ∈ nodesOf fs, ∀ leaf ∈ g.leaves, g.notice.trail <+: leaf.notice.trail

/-- The same of one failure whose trails and places are told from further outside. -/
structure PinpointUnder (outer : Trail) (pending : Option Value) (f : Failure)
    (places : List (Trail × Value)) : Prop where
  spots : f.leaves.map spot = places.map (Schema.below outer)
  keys : ∀ leaf ∈ f.leaves, ∃ q, leaf.notice.trail = outer ++ q ∧
    leaf.notice.get? "key" = q.getLast?.or pending
  above : ∀ g ∈ f.nodes, ∃ q, g.notice.trail = outer ++ q ∧
    ∀ leaf ∈ g.leaves, g.notice.trail <+: leaf.notice.trail

theorem spot_moved (outer : Trail) (f : Failure) :
    (f.moved outer).spot = Schema.below outer f.spot := by
  obtain ⟨n, children⟩ := f
  rfl

namespace Pinpoint

variable {pending : Option Value} {f : Failure} {places : List (Trail × Value)}

theorem nil : Pinpoint pending [] [] := by
  constructor
  · rfl
  · intro leaf hleaf
    cases hleaf
  · intro f hf
    cases hf
  · intro g hg
    cases hg

theorem append {fs gs : List Failure} {more : List (Trail × Value)} (h : Pinpoint pending fs places)
    (h' : Pinpoint pending gs more) : Pinpoint pending (fs ++ gs) (places ++ more) := by
  constructor
  · rw [leavesOf_append, List.map_append, h.spots, h'.spots]
  · intro leaf hleaf
    rw [leavesOf_append] at hleaf
    rcases List.mem_append.1 hleaf with hleaf | hleaf
    · exact h.keys leaf hleaf
    · exact h'.keys leaf hleaf
  · intro f hf
    rcases List.mem_append.1 hf with hf | hf
    · exact h.inner f hf
    · exact h'.inner f hf
  · intro g hg
    rw [nodesOf_append] at hg
    rcases List.mem_append.1 hg with hg | hg
    · exact h.above g hg
    · exact h'.above g hg

/-- A failure without parts, made where it is about. -/
theorem leaf {n : Notice} (ht : n.trail = []) (hk : n.get? "key" = pending) :
    Pinpoint pending [worded n []] [([], n.got)] := by
  have hleaves : leavesOf [worded n []] = [worded n []] := rfl
  have hnodes : nodesOf [worded n []] = [worded n []] := rfl
  have htrail : (worded n []).notice.trail = [] := ht
  constructor
  · rw [hleaves, List.map_singleton, spot, htrail]
    rfl
  · intro leaf hleaf
    rw [hleaves] at hleaf
    rw [List.mem_singleton.1 hleaf, htrail]
    exact hk
  · intro f hf hchildren
    rw [List.mem_singleton.1 hf] at hchildren
    exact absurd rfl hchildren
  · intro g hg leaf hleaf
    rw [hnodes] at hg
    rw [List.mem_singleton.1 hg, htrail]
    exact List.nil_prefix

/-- Parts that are at their places hang below a whole. -/
theorem whole {fs : List Failure} {n : Notice} (h : Pinpoint none fs places) (hne : fs ≠ [])
    (hplaces : ∀ place ∈ places, place.1 ≠ []) (ht : n.trail = []) :
    Pinpoint none [worded n fs] places := by
  have hleaves : leavesOf [worded n fs] = leavesOf fs := by
    rw [leavesOf_singleton, worded]
    exact leaves_of_children hne
  constructor
  · rw [hleaves, h.spots]
  · rw [hleaves]
    exact h.keys
  · intro f hf _ leaf hleaf
    rw [List.mem_singleton.1 hf, ← leavesOf_singleton, hleaves] at hleaf
    refine hplaces leaf.spot ?_
    rw [← h.spots]
    exact List.mem_map_of_mem hleaf
  · intro g hg leaf hleaf
    rw [nodesOf_singleton, worded, nodes] at hg
    rcases List.mem_cons.1 hg with hg | hg
    · have htrail : g.notice.trail = [] := by
        rw [hg]
        exact ht
      rw [htrail]
      exact List.nil_prefix
    · exact h.above g hg leaf hleaf

/-- A failure without a key takes the segment that is still to come. -/
theorem withKey {segment : Value} (h : Pinpoint pending [f] places)
    (hp : pending.or (some segment) = some segment) :
    Pinpoint (some segment) [Failure.mk (f.notice.withKey segment) f.children] places := by
  obtain ⟨n, children⟩ := f
  have habove : ∀ g ∈ nodesOf children, ∀ leaf ∈ g.leaves,
    g.notice.trail <+: leaf.notice.trail := by
    intro g hg
    refine h.above g ?_
    rw [nodesOf_singleton, nodes]
    exact List.mem_cons_of_mem _ hg
  cases children with
  | nil =>
    have hkey : n.get? "key" = n.trail.getLast?.or pending := h.keys (.mk n []) List.mem_cons_self
    constructor
    · rw [← h.spots]
      simp only [leavesOf_singleton, leaves, List.map_singleton, spot, notice, Notice.trail_withKey,
        Notice.got_withKey, children]
    · intro leaf hleaf
      rw [leavesOf_singleton] at hleaf
      rw [List.mem_singleton.1 hleaf]
      simp only [notice, Notice.get?_withKey, Notice.trail_withKey, hkey, Option.or_assoc, hp]
    · intro g hg hchildren
      rw [List.mem_singleton.1 hg] at hchildren
      exact absurd rfl hchildren
    · intro g hg leaf hleaf
      rw [List.mem_singleton.1 hg] at hleaf ⊢
      rw [List.mem_singleton.1 hleaf]
      exact List.prefix_rfl
  | cons child rest =>
    have hinner := h.inner (.mk n (child :: rest)) List.mem_cons_self (List.cons_ne_nil _ _)
    constructor
    · exact h.spots
    · intro leaf hleaf
      have hne := hinner leaf (by rwa [← leavesOf_singleton])
      rw [h.keys leaf hleaf, List.getLast?_eq_some_getLast hne, Option.some_or, Option.some_or]
    · intro g hg _ leaf hleaf
      rw [List.mem_singleton.1 hg] at hleaf
      exact hinner leaf hleaf
    · intro g hg leaf hleaf
      rw [nodesOf_singleton, nodes] at hg
      rcases List.mem_cons.1 hg with rfl | hg
      · simp only [notice, Notice.trail_withKey]
        exact h.above (.mk n (child :: rest)) List.mem_cons_self leaf hleaf
      · exact habove g hg leaf hleaf

theorem here (h : Pinpoint pending [f] places) : PinpointUnder [] pending f places := by
  obtain ⟨hspots, hkeys, -, habove⟩ := h
  rw [leavesOf_singleton] at hspots hkeys
  rw [nodesOf_singleton] at habove
  refine ⟨?_, fun leaf hleaf => ⟨_, rfl, hkeys leaf hleaf⟩, fun g hg => ⟨_, rfl, habove g hg⟩⟩
  have hbelow : Schema.below [] = id := rfl
  rw [hbelow, List.map_id, hspots]

/-- Trails and places get longer alike, and keys stay. -/
theorem moved (h : Pinpoint pending [f] places) (outer : Trail) :
    PinpointUnder outer pending (f.moved outer) places := by
  obtain ⟨hspots, hkeys, -, habove⟩ := h
  rw [leavesOf_singleton] at hspots hkeys
  rw [nodesOf_singleton] at habove
  constructor
  · rw [leaves_moved, ← hspots, List.map_map, List.map_map]
    exact List.map_congr_left fun leaf _ => spot_moved outer leaf
  · intro leaf hleaf
    rw [leaves_moved] at hleaf
    obtain ⟨inner, hinner, rfl⟩ := List.mem_map.1 hleaf
    refine ⟨inner.notice.trail, trail_moved outer inner, ?_⟩
    rw [get?_moved, hkeys inner hinner]
  · intro g hg
    rw [nodes_moved] at hg
    obtain ⟨inner, hinner, rfl⟩ := List.mem_map.1 hg
    refine ⟨inner.notice.trail, trail_moved outer inner, fun leaf hleaf => ?_⟩
    rw [leaves_moved] at hleaf
    obtain ⟨below, hbelow, rfl⟩ := List.mem_map.1 hleaf
    rw [trail_moved, trail_moved]
    exact (List.prefix_append_right_inj outer).2 (habove inner hinner below hbelow)

/-- A part at its place in a whole. -/
theorem placed {segment : Value} (h : Pinpoint pending [f] places) (hs : segment ≠ .null)
    (hp : pending.or (some segment) = some segment) :
    Pinpoint none [f.placed segment] (places.map (Schema.below [segment])) := by
  have heq : f.placed segment =
      (Failure.mk (f.notice.withKey segment) f.children).moved [segment] := by
    cases segment with
    | null => exact absurd rfl hs
    | _ => rfl
  obtain ⟨hspots, hkeys, habove⟩ := (h.withKey hp).moved [segment]
  rw [← heq] at hspots hkeys habove
  constructor
  · rw [leavesOf_singleton, hspots]
  · intro leaf hleaf
    rw [leavesOf_singleton] at hleaf
    obtain ⟨q, htrail, hkey⟩ := hkeys leaf hleaf
    rw [hkey, htrail, List.getLast?_append, Option.or_none, List.getLast?_singleton]
  · intro g hg _ leaf hleaf
    rw [List.mem_singleton.1 hg] at hleaf
    obtain ⟨q, htrail, -⟩ := hkeys leaf hleaf
    rw [htrail]
    exact List.cons_ne_nil _ _
  · intro g hg leaf hleaf
    rw [nodesOf_singleton] at hg
    obtain ⟨q, -, hprefix⟩ := habove g hg
    exact hprefix leaf hleaf

end Pinpoint

end Failure

end Attest
