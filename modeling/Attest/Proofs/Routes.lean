import Attest.Proofs.Sharing
import Mathlib.Data.Set.Card

/-!
# Routes

The routes that lead down from a failure to another one. A route says at each failure which of those
below it comes next, by its place among them: a failure that stands twice below another one is
reached by two routes. Where no failure stands below itself, there are finitely many.

* `Links.ways`: how many routes lead from one number to another.
* `Links.ways_eq`: they are the routes from the numbers right below, added up.
* `Links.ways_pos_iff`, `Links.ways_self`, `Links.ways_of_isTree`: where there is a route, and just
  one.
-/

namespace Attest.Links

variable {links : Links} {n d : Nat}

/-- What stands at a place right below a number. -/
def below? (links : Links) (n i : Nat) : Option Nat := links[n]?.bind (·[i]?)

/-- Where a route leads. -/
def follow (links : Links) : (n : Nat) → (route : List Nat) → Option Nat
  | n, [] => some n
  | n, i :: route => (links.below? n i).bind fun child => links.follow child route

/-- The routes from a number down to another one. -/
def routes (links : Links) (n d : Nat) : Set (List Nat) := {route | links.follow n route = some d}

/-- How many routes lead from a number down to another one. -/
noncomputable def ways (links : Links) (n d : Nat) : Nat := (links.routes n d).ncard

/-- A number stands at another one or below it. -/
def Reaches (links : Links) : Nat → Nat → Prop := Relation.ReflTransGen links.Has

/-- No failure at a number or below it stands at two places there. -/
def IsTree (links : Links) (n : Nat) : Prop :=
  ∀ p q i j child, links.Reaches n p → links.Reaches n q →
    links.below? p i = some child → links.below? q j = some child → p = q ∧ i = j

/-- Failures below which there are only failures of the pool. -/
theorem isClosed_of_all (h : links.all (·.all (· < links.length)) = true) : links.IsClosed := by
  rintro parent child ⟨children, hp, hc⟩
  exact of_decide_eq_true
    (List.all_eq_true.1 (List.all_eq_true.1 h _ (List.mem_of_getElem? hp)) child hc)

/-! ## Following a route -/

theorem has_of_below? {i child : Nat} (h : links.below? n i = some child) : links.Has n child := by
  obtain ⟨children, hn, hi⟩ := Option.bind_eq_some_iff.1 h
  exact ⟨children, hn, List.mem_of_getElem? hi⟩

theorem follow_cons_eq_some {i : Nat} {route : List Nat} : links.follow n (i :: route) = some d ↔
    ∃ child, links.below? n i = some child ∧ links.follow child route = some d := by
  rw [follow, Option.bind_eq_some_iff]

theorem follow_snoc_eq_some {i : Nat} : ∀ {route : List Nat} {n : Nat},
    links.follow n (route ++ [i]) = some d ↔
      ∃ parent, links.follow n route = some parent ∧ links.below? parent i = some d
  | [], n => by simp [follow]
  | j :: route, n => by
    rw [List.cons_append, follow_cons_eq_some]
    have ih (child : Nat) : links.follow child (route ++ [i]) = some d ↔
        ∃ parent, links.follow child route = some parent ∧ links.below? parent i = some d :=
          follow_snoc_eq_some
    simp only [ih, follow_cons_eq_some]
    constructor
    · rintro ⟨child, hchild, parent, hparent, hd⟩
      exact ⟨parent, ⟨child, hchild, hparent⟩, hd⟩
    · rintro ⟨parent, ⟨child, hchild, hparent⟩, hd⟩
      exact ⟨child, hchild, parent, hparent, hd⟩

theorem reaches_of_follow : ∀ {route : List Nat} {n : Nat}, links.follow n route = some d →
    links.Reaches n d
  | [], n, h => by
    obtain rfl := Option.some.inj h
    exact .refl
  | i :: route, n, h => by
    obtain ⟨child, hchild, hd⟩ := follow_cons_eq_some.1 h
    exact .head (has_of_below? hchild) (reaches_of_follow hd)

theorem exists_route (h : links.Reaches n d) : ∃ route, links.follow n route = some d := by
  induction h with
  | refl => exact ⟨[], rfl⟩
  | tail _ hlink ih =>
    obtain ⟨route, hroute⟩ := ih
    obtain ⟨children, hparent, hmem⟩ := hlink
    obtain ⟨i, hi⟩ := List.mem_iff_getElem?.1 hmem
    exact ⟨route ++ [i], follow_snoc_eq_some.2 ⟨_, hroute, by rw [below?, hparent]; exact hi⟩⟩

/-- Where nothing stands below itself, no route but the empty one leads back. -/
theorem eq_nil_of_follow (h : links.IsAcyclic) {route : List Nat}
    (hroute : links.follow n route = some n) :
    route = [] := by
  match route, hroute with
  | [], _ => rfl
  | i :: route, hroute =>
    obtain ⟨child, hchild, hback⟩ := follow_cons_eq_some.1 hroute
    exact absurd (Relation.TransGen.head' (has_of_below? hchild) (reaches_of_follow hback)) (h n)

/-! ## Counting routes -/

/-- The routes to a number that begin at one of some others. -/
def routesBelow (links : Links) (children : List Nat) (d : Nat) : Set (List Nat) :=
  {route | ∃ i rest child, route = i :: rest ∧ children[i]? = some child ∧
    rest ∈ links.routes child d}

theorem routes_eq {children : List Nat} (hn : links[n]? = some children) :
    links.routes n d = (if n = d then {[]} else ∅) ∪ links.routesBelow children d := by
  ext route
  cases route with
  | nil =>
    simp only [routes, routesBelow, Set.mem_ofPred_eq, follow, Option.some.injEq, Set.mem_union]
    by_cases hnd : n = d <;> simp [hnd]
  | cons i rest =>
    have hempty : i :: rest ∉ (if n = d then ({[]} : Set (List Nat)) else ∅) := by split <;> simp
    simp only [routes, routesBelow, Set.mem_ofPred_eq, Set.mem_union,
      follow_cons_eq_some, below?, hn, Option.bind_some, hempty, false_or]
    constructor
    · rintro ⟨child, hchild, hrest⟩
      exact ⟨i, rest, child, rfl, hchild, hrest⟩
    · rintro ⟨i', rest', child, heq, hchild, hrest⟩
      obtain ⟨rfl, rfl⟩ := List.cons.inj heq
      exact ⟨child, hchild, hrest⟩

theorem routesBelow_nil : links.routesBelow [] d = ∅ :=
  Set.eq_empty_of_forall_notMem fun _ ⟨_, _, _, _, hi, _⟩ => nomatch hi

theorem routesBelow_snoc (children : List Nat) (child : Nat) :
    links.routesBelow (children ++ [child]) d =
      links.routesBelow children d ∪ (children.length :: ·) '' links.routes child d := by
  ext route
  constructor
  · rintro ⟨i, rest, child', rfl, hi, hrest⟩
    rcases Nat.lt_or_ge i children.length with hlt | hge
    · rw [List.getElem?_append_left hlt] at hi
      exact .inl ⟨i, rest, child', rfl, hi, hrest⟩
    · rw [List.getElem?_append_right hge] at hi
      obtain ⟨hzero, rfl⟩ := List.getElem?_eq_some_iff.1 hi
      obtain rfl : i = children.length := by simp at hzero; omega
      exact .inr ⟨rest, by simpa using hrest, rfl⟩
  · rintro (⟨i, rest, child', rfl, hi, hrest⟩ | ⟨rest, hrest, rfl⟩)
    · have hlt := (List.getElem?_eq_some_iff.1 hi).1
      exact ⟨i, rest, child', rfl, by rw [List.getElem?_append_left hlt, hi], hrest⟩
    · exact ⟨children.length, rest, child, rfl, List.getElem?_concat_length, hrest⟩

theorem not_last_of_mem_routesBelow {children route : List Nat} (child : Nat)
    (h : route ∈ links.routesBelow children d) :
    route ∉ (children.length :: ·) '' links.routes child d := by
  obtain ⟨i, rest, child', rfl, hi, -⟩ := h
  rintro ⟨rest', -, heq⟩
  have hlt := (List.getElem?_eq_some_iff.1 hi).1
  have := (List.cons.inj heq).1
  omega

theorem routesBelow_finite (children : List Nat)
    (h : ∀ child ∈ children, (links.routes child d).Finite) :
    (links.routesBelow children d).Finite := by
  induction children using List.reverseRecOn with
  | nil => rw [routesBelow_nil]; exact Set.finite_empty
  | append_singleton children child ih =>
    rw [routesBelow_snoc]
    exact (ih fun c hc => h c (List.mem_append_left _ hc)).union
      ((h child (List.mem_append_right _ List.mem_cons_self)).image _)

theorem ncard_routesBelow (children : List Nat)
    (h : ∀ child ∈ children, (links.routes child d).Finite) :
    (links.routesBelow children d).ncard = (children.map (links.ways · d)).sum := by
  induction children using List.reverseRecOn with
  | nil => rw [routesBelow_nil, Set.ncard_empty]; rfl
  | append_singleton children child ih =>
    have hfirst : ∀ c ∈ children, (links.routes c d).Finite :=
      fun c hc => h c (List.mem_append_left _ hc)
    have hlast := h child (List.mem_append_right _ List.mem_cons_self)
    have hdisjoint : Disjoint (links.routesBelow children d)
      ((children.length :: ·) '' links.routes child d) :=
      Set.disjoint_left.2 fun _ => not_last_of_mem_routesBelow child
    rw [routesBelow_snoc, Set.ncard_union_eq hdisjoint
      (routesBelow_finite children hfirst) (hlast.image _), ih hfirst,
      Set.ncard_image_of_injective _ (List.cons_injective), List.map_append, List.sum_append]
    simp [ways]

/-- Where a number falls along each link, finitely many routes lead anywhere. -/
theorem routes_finite {depth : Nat → Nat}
    (hdepth : ∀ parent child, links.Has parent child → depth child < depth parent) :
    ∀ (bound n : Nat), depth n < bound → (links.routes n d).Finite
  | 0, _, h => absurd h (Nat.not_lt_zero _)
  | bound + 1, n, h => by
    cases hn : links[n]? with
    | none =>
      refine (Set.finite_singleton ([] : List Nat)).subset fun route hroute => ?_
      cases route with
      | nil => rfl
      | cons i rest =>
        obtain ⟨child, hchild, -⟩ := follow_cons_eq_some.1 hroute
        rw [below?, hn] at hchild
        cases hchild
    | some children =>
      rw [routes_eq hn]
      refine Set.Finite.union (by split <;> simp) (routesBelow_finite children fun child hc => ?_)
      have := hdepth n child ⟨children, hn, hc⟩
      exact routes_finite hdepth bound child (by omega)

/-- The routes from a number are those from the numbers right below it, and the empty one to
itself. -/
theorem ways_eq {depth : Nat → Nat}
    (hdepth : ∀ parent child, links.Has parent child → depth child < depth parent)
    {children : List Nat} (hn : links[n]? = some children) :
    links.ways n d = (if n = d then 1 else 0) + (children.map (links.ways · d)).sum := by
  have hfinite : ∀ child ∈ children, (links.routes child d).Finite := fun child _ =>
    routes_finite hdepth _ child (Nat.lt_succ_self _)
  have hdisjoint : Disjoint (if n = d then ({[]} : Set (List Nat)) else ∅)
    (links.routesBelow children d) := by
    refine Set.disjoint_left.2 fun route hroute => ?_
    rintro ⟨i, rest, child, rfl, -, -⟩
    split at hroute <;> simp at hroute
  rw [ways, routes_eq hn, Set.ncard_union_eq hdisjoint (by split <;> simp)
    (routesBelow_finite children hfinite), ncard_routesBelow children hfinite]
  congr 1
  split <;> simp

/-! ## Where there are routes -/

section
variable (hclosed : links.IsClosed) (h : links.IsAcyclic)
include hclosed h

theorem ways_pos_iff : 0 < links.ways n d ↔ links.Reaches n d := by
  obtain ⟨depth, -, hdepth⟩ := exists_depth hclosed h
  have hfinite : (links.routes n d).Finite := routes_finite hdepth _ n (Nat.lt_succ_self _)
  rw [ways, Set.ncard_pos hfinite]
  exact ⟨fun ⟨_, hroute⟩ => reaches_of_follow hroute, exists_route⟩

omit hclosed in
/-- One route leads to where it begins. -/
theorem ways_self : links.ways n n = 1 := by
  have hroutes : links.routes n n = {[]} :=
    Set.eq_singleton_iff_unique_mem.2 ⟨rfl, fun _ hroute => eq_nil_of_follow h hroute⟩
  rw [ways, hroutes, Set.ncard_singleton]

omit hclosed in
/-- Two routes to the same place are the same, where nothing stands at two places. -/
theorem follow_injective (htree : links.IsTree n) : ∀ {route route' : List Nat} {d : Nat},
    links.follow n route = some d → links.follow n route' = some d → route = route' := by
  intro route
  induction route using List.reverseRecOn with
  | nil =>
    intro route' d hroute hroute'
    obtain rfl := Option.some.inj hroute
    exact (eq_nil_of_follow h hroute').symm
  | append_singleton route i ih =>
    intro route' d hroute hroute'
    cases route' using List.reverseRecOn with
    | nil =>
      obtain rfl := Option.some.inj hroute'
      exact eq_nil_of_follow h hroute
    | append_singleton route' j =>
      obtain ⟨p, hp, hi⟩ := follow_snoc_eq_some.1 hroute
      obtain ⟨q, hq, hj⟩ := follow_snoc_eq_some.1 hroute'
      obtain ⟨rfl, rfl⟩ := htree p q i j d (reaches_of_follow hp) (reaches_of_follow hq) hi hj
      rw [ih hp hq]

theorem ways_of_isTree (htree : links.IsTree n) (hd : links.Reaches n d) : links.ways n d = 1 := by
  have hpos := (ways_pos_iff hclosed h).2 hd
  have hle : links.ways n d ≤ 1 := (Set.ncard_le_one_iff (Set.finite_of_ncard_pos hpos)).2
    fun hroute hroute' => follow_injective h htree hroute hroute'
  omega

end

end Attest.Links
