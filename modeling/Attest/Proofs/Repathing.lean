import Attest.Proofs.Freshness
import Attest.Proofs.Routes

/-!
# Putting paths in front

What it does to the failures of a pool to put a path in front of one of them, or to hang one below
another. A walk down marks no failure as seen, and so a failure that is shared has the path put in
front of its trail once for every route that leads down to it. Nothing else changes, and no other
failure does.

* `FailurePool.Moves`: segments are put in front of the trails of failures, some times in front of
  each.
* `underFrom_moves`: what a walk down does to a pool.
* `IsScoped`, `IsHung`: all that the two operations change.
* `scopes_and_hangs`: they change that, wherever all that is shown can be written.
-/

namespace Attest

theorem Value.plain_eq_error {v : Value} (hv : v.isShort = false) :
    v.plain = .error .tooManyDigits := by
  cases h : v.plain with
  | ok s => cases (isShort_of_plain h).symm.trans hv
  | error e => rw [(plain_error h).1]

namespace SharedFailure

/-- A failure with segments put in front of its trail some times. It may say something else then. -/
structure IsMoved (outer : Trail) (count : Nat) (node node' : SharedFailure) : Prop where
  trail : node'.notice.trail = (List.replicate count outer).flatten ++ node.notice.trail
  template : node'.notice.template = node.notice.template
  context : node'.notice.context = node.notice.context
  children : node'.children = node.children
  held : node'.held = node.held
  unmoved : count = 0 → node' = node

variable {outer : Trail} {node node' node'' : SharedFailure} {count more : Nat}

theorem IsMoved.refl (outer : Trail) (node : SharedFailure) : node.IsMoved outer 0 node :=
  ⟨rfl, rfl, rfl, rfl, rfl, fun _ => rfl⟩

/-- Segments in front some times and then some more. -/
theorem IsMoved.trans (h : node.IsMoved outer count node') (h' : node'.IsMoved outer more node'') :
    node.IsMoved outer (count + more) node'' where
  trail := by
    rw [h'.trail, h.trail, ← List.append_assoc, ← List.flatten_append,
      List.replicate_append_replicate, Nat.add_comm]
  template := h'.template.trans h.template
  context := h'.context.trans h.context
  children := h'.children.trans h.children
  held := h'.held.trans h.held
  unmoved hzero := by
    obtain ⟨hcount, hmore⟩ := Nat.add_eq_zero_iff.1 hzero
    rw [h'.unmoved hmore, h.unmoved hcount]

theorem IsMoved.isSayable (ho : ∀ s ∈ outer, s.isShort = true) (h : node.IsMoved outer count node')
    (hn : node.IsSayable) : node'.IsSayable := by
  refine ⟨⟨h.template ▸ hn.1.template, fun segment hsegment => ?_, fun b hb => ?_⟩,
    h.children ▸ hn.2⟩
  · rw [h.trail, List.mem_append, List.mem_flatten] at hsegment
    rcases hsegment with ⟨_, hmem, hsegment⟩ | hsegment
    · rw [List.eq_of_mem_replicate hmem] at hsegment
      exact ho segment hsegment
    · exact hn.1.trail segment hsegment
  · rw [Notice.named, h.context] at hb
    exact hn.1.named b hb

theorem IsMoved.ne (ho : outer ≠ []) (hcount : 0 < count) (h : node.IsMoved outer count node') :
    node' ≠ node := by
  intro heq
  have hlength := congrArg (·.notice.trail.length) heq
  have hpos := List.length_pos_of_ne_nil ho
  obtain ⟨count, rfl⟩ := Nat.exists_eq_succ_of_ne_zero (Nat.ne_of_gt hcount)
  simp only [h.trail, List.replicate_succ, List.flatten_cons, List.length_append] at hlength
  omega

end SharedFailure

namespace FailurePool

variable {pool pool' pool'' : FailurePool} {outer : Trail} {n : Nat} {count more : Nat → Nat}

/-- Segments are put in front of the trail of each failure some times. -/
structure Moves (pool pool' : FailurePool) (outer : Trail) (count : Nat → Nat) : Prop where
  length : pool'.nodes.length = pool.nodes.length
  moved : ∀ d (node : SharedFailure), pool.nodes[d]? = some node →
    ∃ node', pool'.nodes[d]? = some node' ∧ node.IsMoved outer (count d) node'

theorem Moves.refl (pool : FailurePool) (outer : Trail) : pool.Moves pool outer fun _ => 0 :=
  ⟨rfl, fun _ node hnode => ⟨node, hnode, .refl outer node⟩⟩

theorem Moves.trans (h : pool.Moves pool' outer count) (h' : pool'.Moves pool'' outer more) :
    pool.Moves pool'' outer fun d => count d + more d where
  length := h'.length.trans h.length
  moved d node hnode := by
    obtain ⟨node', hnode', hmoved⟩ := h.moved d node hnode
    obtain ⟨node'', hnode'', hmoved'⟩ := h'.moved d node' hnode'
    exact ⟨node'', hnode'', hmoved.trans hmoved'⟩

theorem Moves.getElem?_eq (h : pool.Moves pool' outer count) {d : Nat} (hd : count d = 0) :
    pool'.nodes[d]? = pool.nodes[d]? := by
  cases hnode : pool.nodes[d]? with
  | some node =>
    obtain ⟨node', hnode', hmoved⟩ := h.moved d node hnode
    rw [hnode', hmoved.unmoved hd]
  | none =>
    rw [List.getElem?_eq_none_iff] at hnode ⊢
    rwa [h.length]

theorem Moves.links (h : pool.Moves pool' outer count) : pool'.links = pool.links := by
  apply List.ext_getElem?
  intro d
  simp only [getElem?_links]
  cases hnode : pool.nodes[d]? with
  | some node =>
    obtain ⟨node', hnode', hmoved⟩ := h.moved d node hnode
    rw [hnode', Option.map_some, Option.map_some, hmoved.children]
  | none =>
    have hlength := List.getElem?_eq_none_iff.1 hnode
    rw [List.getElem?_eq_none (by rwa [h.length])]

/-- One failure has the segments put in front once. -/
theorem moves_set {node node' : SharedFailure} (hn : pool.nodes[n]? = some node)
    (hmoved : node.IsMoved outer 1 node') :
    pool.Moves (pool.set n node') outer fun d => if n = d then 1 else 0 where
  length := List.length_set
  moved d found hfound := by
    by_cases hd : n = d
    · subst hd
      obtain rfl : node = found := Option.some.inj (hn.symm.trans hfound)
      refine ⟨node', List.getElem?_set_self (List.getElem?_eq_some_iff.1 hn).1, ?_⟩
      rwa [if_pos rfl]
    · refine ⟨found, by rw [set, List.getElem?_set_ne hd, hfound], ?_⟩
      rw [if_neg hd]
      exact .refl outer found

/-! ## A walk down -/

/-- A failure and all below it can be worded. -/
def IsSayableBelow (pool : FailurePool) (n : Nat) : Prop :=
  ∀ d node, pool.links.Reaches n d → pool.nodes[d]? = some node → node.IsSayable

theorem Moves.isSayableBelow (ho : ∀ s ∈ outer, s.isShort = true)
    (hmoves : pool.Moves pool' outer count) (h : pool.IsSayableBelow n) :
    pool'.IsSayableBelow n := by
  intro d node' hd hnode'
  rw [hmoves.links] at hd
  have hlt := (List.getElem?_eq_some_iff.1 hnode').1
  rw [hmoves.length] at hlt
  obtain ⟨found, hfound, hmoved⟩ := hmoves.moved d _ (List.getElem?_eq_getElem hlt)
  obtain rfl : node' = found := Option.some.inj (hnode'.symm.trans hfound)
  exact hmoved.isSayable ho (h d _ hd (List.getElem?_eq_getElem hlt))

section
variable {links : Links} {depth : Nat → Nat}

/-- Walks to several failures, one after the other, add up. -/
theorem walks_move {fuel : Nat} (ho : ∀ s ∈ outer, s.isShort = true)
    (hwalk : ∀ (pool : FailurePool) (n : Nat), pool.links = links →
      n < links.length → depth n < fuel →
      pool.IsSayableBelow n → ∃ pool', underFrom outer fuel pool n = .ok pool' ∧
        pool.Moves pool' outer (links.ways n)) :
    ∀ (children : List Nat) (pool : FailurePool), pool.links = links →
      (∀ child ∈ children, child < links.length ∧ depth child < fuel ∧ pool.IsSayableBelow child) →
      ∃ pool', children.foldlM (underFrom outer fuel) pool = .ok pool' ∧
        pool.Moves pool' outer fun d => (children.map (links.ways · d)).sum
  | [], pool, _, _ => ⟨pool, rfl, .refl pool outer⟩
  | child :: rest, pool, hlinks, h => by
    obtain ⟨hlt, hdepth, hw⟩ := h child List.mem_cons_self
    obtain ⟨next, hnext, hmoves⟩ := hwalk pool child hlinks hlt hdepth hw
    obtain ⟨last, hlast, hmoves'⟩ :=
      walks_move ho hwalk rest next (hmoves.links.trans hlinks) fun c hc =>
      have hc := h c (List.mem_cons_of_mem child hc)
      ⟨hc.1, hc.2.1, hmoves.isSayableBelow ho hc.2.2⟩
    refine ⟨last, ?_, by simpa using hmoves.trans hmoves'⟩
    rw [List.foldlM_cons, hnext, Attempt.ok_bind, hlast]

/-- A walk down that is given as many turns as it is deep puts the segments in front of the trail of
each failure once for every route to it. -/
theorem underFrom_moves (ho : ∀ s ∈ outer, s.isShort = true) (hclosed : links.IsClosed)
    (hdepth : ∀ parent child, links.Has parent child → depth child < depth parent) :
    ∀ (fuel : Nat) (pool : FailurePool) (n : Nat), pool.links = links → n < links.length →
      depth n < fuel → pool.IsSayableBelow n →
      ∃ pool', underFrom outer fuel pool n = .ok pool' ∧ pool.Moves pool' outer (links.ways n)
  | 0, _, _, _, _, hn, _ => absurd hn (Nat.not_lt_zero _)
  | fuel + 1, pool, n, hlinks, hlt, hn, h => by
    obtain ⟨node, hnode⟩ : ∃ node, pool.nodes[n]? = some node := by
      rw [← hlinks, length_links] at hlt
      exact ⟨_, List.getElem?_eq_getElem hlt⟩
    have hchildren : links[n]? = some node.children := by
      rw [← hlinks, getElem?_links, hnode]
      rfl
    let moved := pool.refreshed { node with notice := node.notice.under outer }
    have hrefresh : pool.refresh { node with notice := node.notice.under outer } = .ok moved :=
      have hold := h n node .refl hnode
      pool.refresh_eq ⟨hold.1.under ho, hold.2⟩
    have hmoved : node.IsMoved outer 1 moved :=
      { trail := by rw [List.replicate_one, List.flatten_singleton]; rfl
        template := rfl
        context := rfl
        children := rfl
        held := rfl
        unmoved := nofun }
    have hset := moves_set hnode hmoved
    obtain ⟨last, hlast, hmoves⟩ :=
      walks_move ho (underFrom_moves ho hclosed hdepth fuel) node.children
      (pool.set n moved) (hset.links.trans hlinks) fun child hc => by
        have hlink : links.Has n child := ⟨_, hchildren, hc⟩
        have hfalls := hdepth n child hlink
        refine ⟨hclosed n child hlink, by omega, ?_⟩
        refine hset.isSayableBelow ho fun d found hd => h d found (.head ?_ hd)
        exact hlinks ▸ hlink
    refine ⟨last, ?_, ?_⟩
    · unfold underFrom
      simp only [hnode, hrefresh, Attempt.ok_bind]
      exact hlast
    · have hways : (fun d => (if n = d then 1 else 0) + (node.children.map (links.ways · d)).sum) =
          links.ways n := funext fun d => (Links.ways_eq hdepth hchildren).symm
      exact hways ▸ hset.trans hmoves

end

/-- Without circles, a walk down puts the segments in front of each trail once for every route. -/
theorem under_moves (ho : ∀ s ∈ outer, s.isShort = true) (hclosed : pool.links.IsClosed)
    (hacyclic : pool.links.IsAcyclic) (hn : n < pool.nodes.length) (h : pool.IsSayableBelow n) :
    ∃ pool', pool.under outer n = .ok pool' ∧ pool.Moves pool' outer (pool.links.ways n) := by
  obtain ⟨depth, hbound, hdepth⟩ := Links.exists_depth hclosed hacyclic
  rw [← length_links] at hn
  have hfuel : depth n < pool.nodes.length := by
    rw [← length_links]
    exact hbound n hn
  exact underFrom_moves ho hclosed hdepth _ pool n rfl hn hfuel h

/-! ## What changes -/

/-- All that changes when segments are put in front of a failure. It and all below it have them in
front of their trails, once for every route, and are otherwise what they were; no other failure
changes. -/
structure IsScoped (pool pool' : FailurePool) (n : Nat) (outer : Trail) : Prop where
  length : pool'.nodes.length = pool.nodes.length
  reached : ∀ d node, pool.nodes[d]? = some node → pool.links.Reaches n d → ∃ node',
    pool'.nodes[d]? = some node' ∧ node' ≠ node ∧
      node'.notice.trail = (List.replicate (pool.links.ways n d) outer).flatten ++
        node.notice.trail ∧
      node'.notice.template = node.notice.template ∧ node'.notice.context = node.notice.context ∧
      node'.held = node.held ∧ node'.children = node.children
  others : ∀ d, ¬ pool.links.Reaches n d → pool'.nodes[d]? = pool.nodes[d]?

/-- All that changes when a failure is hung below another one at a segment. It and all below it have
the segment put in front, it has the segment for a key if it had none, and it is the last one below
the other, which stays where it is; no other failure changes. -/
structure IsHung (pool pool' : FailurePool) (parent child : Nat) (segment : Value) : Prop where
  length : pool'.nodes.length = pool.nodes.length
  above : ∀ node, pool.nodes[parent]? = some node → ∃ node', pool'.nodes[parent]? = some node' ∧
    node'.children = node.children ++ [child] ∧ node'.notice.trail = node.notice.trail ∧
      node'.notice.template = node.notice.template ∧ node'.notice.context = node.notice.context ∧
      node'.held = node.held
  reached : ∀ d node, pool.nodes[d]? = some node → pool.links.Reaches child d → ∃ node',
    pool'.nodes[d]? = some node' ∧
      node'.notice.trail = List.replicate (pool.links.ways child d) segment ++ node.notice.trail ∧
      node'.notice.template = node.notice.template ∧
      node'.notice.context = (if d = child ∧ node.notice.get? "key" = none
        then node.notice.context ++ [("key", segment)] else node.notice.context) ∧
      node'.held = node.held ∧ node'.children = node.children
  others : ∀ d, d ≠ parent → ¬ pool.links.Reaches child d → pool'.nodes[d]? = pool.nodes[d]?

section
variable (hclosed : pool.links.IsClosed) (hacyclic : pool.links.IsAcyclic)
include hclosed hacyclic

theorem ways_eq_zero {d : Nat} (h : ¬ pool.links.Reaches n d) : pool.links.ways n d = 0 :=
  Nat.eq_zero_of_not_pos fun hpos => h ((Links.ways_pos_iff hclosed hacyclic).1 hpos)

theorem Moves.isScoped {pool' : FailurePool} (ho : outer ≠ [])
    (h : pool.Moves pool' outer (pool.links.ways n)) : pool.IsScoped pool' n outer where
  length := h.length
  reached d node hnode hd := by
    obtain ⟨node', hnode', hmoved⟩ := h.moved d node hnode
    have hpos := (Links.ways_pos_iff hclosed hacyclic).2 hd
    exact ⟨node', hnode', hmoved.ne ho hpos, hmoved.trail, hmoved.template,
      hmoved.context, hmoved.held, hmoved.children⟩
  others d hd := h.getElem?_eq (ways_eq_zero hclosed hacyclic hd)

theorem inside_isScoped {path : Value} (hpath : path.iterate = .ok outer)
    (htruthy : path.isTruthy = true) (ho : outer ≠ []) (hw : ∀ s ∈ outer, s.isShort = true)
    (hn : n < pool.nodes.length) (h : pool.IsSayableBelow n) :
    ∃ pool', pool.inside path n = .ok pool' ∧ pool.IsScoped pool' n outer := by
  obtain ⟨pool', hunder, hmoves⟩ := under_moves hw hclosed hacyclic hn h
  refine ⟨pool', ?_, hmoves.isScoped hclosed hacyclic ho⟩
  rw [inside, if_pos htruthy, hpath, Attempt.ok_bind, hunder]

end

/-! ## Hanging a failure below another one -/

section
variable {parent child : Nat} {segment : Value}

/-- The failure with a key, unless it has one. -/
def keyed (pool : FailurePool) (child : Nat) (segment : Value) : FailurePool :=
  ⟨pool.nodes.modify child fun node => { node with notice := node.notice.withKey segment }⟩

theorem links_keyed : (pool.keyed child segment).links = pool.links := by
  refine List.ext_getElem? fun d => ?_
  rw [getElem?_links, getElem?_links, keyed, List.getElem?_modify]
  cases pool.nodes[d]? <;> simp [apply_ite]

theorem isSayableBelow_keyed (hs : segment.isShowable = true) (h : pool.IsSayableBelow child) :
    (pool.keyed child segment).IsSayableBelow child := by
  intro d node hd hnode
  rw [links_keyed] at hd
  rw [keyed, List.getElem?_modify] at hnode
  obtain ⟨old, hold, rfl⟩ := Option.map_eq_some_iff.1 hnode
  have hsayable := h d old hd hold
  split
  · exact ⟨hsayable.1.withKey hs, hsayable.2⟩
  · exact hsayable

theorem getElem?_keyed {d : Nat} {found : SharedFailure} (h : pool.nodes[d]? = some found) :
    (pool.keyed child segment).nodes[d]? =
      some (if child = d then { found with notice := found.notice.withKey segment }
        else found) := by
  rw [keyed, List.getElem?_modify, h]
  rfl

/-- To locate a failure is to give it a key and to put the segment in front of the trails. -/
theorem locate_moves (hnull : segment ≠ .null) (hs : segment.isShowable = true)
    (hclosed : pool.links.IsClosed) (hacyclic : pool.links.IsAcyclic)
    (hchild : child < pool.nodes.length) (h : pool.IsSayableBelow child) :
    ∃ pool', pool.locate segment child = .ok pool' ∧
      (pool.keyed child segment).Moves pool' [segment] (pool.links.ways child) := by
  have hkeyed :
    pool.set child { pool.nodes[child] with notice := pool.nodes[child].notice.withKey segment } =
      pool.keyed child segment := by
    rw [keyed, List.modify_eq_set_getElem?, List.getElem?_eq_getElem hchild]
    rfl
  have ho : ∀ s ∈ [segment], s.isShort = true := fun s hmem => by
    rw [List.mem_singleton.1 hmem]
    exact (Value.isShowable_iff.1 hs).1
  obtain ⟨pool', hunder, hmoves⟩ := under_moves ho (by rwa [links_keyed]) (by rwa [links_keyed])
    (by simpa [keyed] using hchild) (isSayableBelow_keyed hs h)
  rw [links_keyed] at hmoves
  refine ⟨pool', ?_, hmoves⟩
  unfold locate
  rw [List.getElem?_eq_getElem hchild]
  cases segment with
  | null => exact absurd rfl hnull
  | _ =>
    simp only [hkeyed]
    exact hunder

/-- Where a failure is located, those that do not stand below it stay as they are. -/
theorem getElem?_located {pool' : FailurePool} {d : Nat} (hclosed : pool.links.IsClosed)
    (hacyclic : pool.links.IsAcyclic)
    (hmoves : (pool.keyed child segment).Moves pool' [segment] (pool.links.ways child))
    (hd : ¬ pool.links.Reaches child d) : pool'.nodes[d]? = pool.nodes[d]? := by
  have hne : child ≠ d := fun heq => hd (heq ▸ .refl)
  rw [hmoves.getElem?_eq (ways_eq_zero hclosed hacyclic hd), keyed, List.getElem?_modify]
  cases pool.nodes[d]? <;> simp [hne]

theorem not_reaches_of_hang (hparent : parent < pool.nodes.length)
    (hacyclic : (pool.links.hang parent child).IsAcyclic) : ¬ pool.links.Reaches child parent := by
  intro hway
  rw [← length_links] at hparent
  have hback : Relation.ReflTransGen (pool.links.hang parent child).Has child parent :=
    Relation.ReflTransGen.mono (fun _ _ hlink => (Links.has_hang_iff hparent).2 (.inl hlink)) _ _
      hway
  exact hacyclic parent (.head' ((Links.has_hang_iff hparent).2 (.inr ⟨rfl, rfl⟩)) hback)

theorem addChild_isHung {node : SharedFailure} (hparent : pool.nodes[parent]? = some node)
    (hchild : child < pool.nodes.length) (hnull : segment ≠ .null) (hs : segment.isShowable = true)
    (hclosed : pool.links.IsClosed) (hacyclic : (pool.links.hang parent child).IsAcyclic)
    (h : pool.IsSayableBelow child)
    (hw : SharedFailure.IsSayable { node with children := node.children ++ [child] }) :
    ∃ pool', pool.addChild parent child segment = .ok pool' ∧
      pool.IsHung pool' parent child segment := by
  have hlt := (List.getElem?_eq_some_iff.1 hparent).1
  have hexists : (Operation.addChild parent child segment).Exists pool.links :=
    ⟨by rwa [length_links], by rwa [length_links]⟩
  have hbefore := Operation.isAcyclic_of_relink hexists hacyclic
  have hnot := not_reaches_of_hang hlt hacyclic
  obtain ⟨located, hlocate, hmoves⟩ := locate_moves hnull hs hclosed hbefore hchild h
  let longer := located.refreshed { node with children := node.children ++ [child] }
  have hnow : located.nodes[parent]? = some node :=
    (getElem?_located hclosed hbefore hmoves hnot).trans hparent
  have hlt : parent < located.nodes.length := (List.getElem?_eq_some_iff.1 hnow).1
  refine ⟨located.set parent longer, ?_, ?_⟩
  · have hrefresh :
      located.refresh { node with children := node.children ++ [child] } = .ok longer :=
      located.refresh_eq hw
    rw [addChild, hlocate, Attempt.ok_bind]
    simp only [hnow, hrefresh, Attempt.ok_bind]
    rfl
  constructor
  case length =>
    have hlength : (pool.keyed child segment).nodes.length = pool.nodes.length :=
      List.length_modify ..
    exact List.length_set.trans (hmoves.length.trans hlength)
  case above =>
    intro old hold
    obtain rfl : node = old := Option.some.inj (hparent.symm.trans hold)
    exact ⟨longer, List.getElem?_set_self hlt, rfl, rfl, rfl, rfl, rfl⟩
  case reached =>
    intro d found hfound hd
    have hdp : parent ≠ d := fun heq => hnot (heq ▸ hd)
    obtain ⟨node', hnode', hmoved⟩ := hmoves.moved d _ (getElem?_keyed hfound)
    refine ⟨node', by rw [set, List.getElem?_set_ne hdp, hnode'], ?_⟩
    rw [hmoved.trail, hmoved.template, hmoved.context, hmoved.held, hmoved.children,
      List.flatten_replicate_singleton]
    by_cases hcd : child = d
    · subst hcd
      cases hkey : found.notice.get? "key" <;> simp [Notice.withKey, hkey]
    · simp [hcd, Ne.symm hcd]
  case others =>
    intro d hdp hd
    rw [set, List.getElem?_set_ne (Ne.symm hdp), getElem?_located hclosed hbefore hmoves hd]

end

/-! ## The effect of both -/

/-- Where failures hang together without circles, however they are shared: putting a path in front
of one of them puts it in front of the trails of just those below, once for every route that leads
to them, and hanging one below another does so with its segment, gives it a key if it has none, and
makes it the last one there. One route leads to the failure itself, and one to each below it where
none stands at two places. -/
theorem scopes_and_hangs (hclosed : pool.links.IsClosed) (hacyclic : pool.links.IsAcyclic) :
    (∀ n path outer, n < pool.nodes.length → path.isTruthy = true →
      path.iterate = .ok outer → outer ≠ [] →
      (∀ s ∈ outer, s.isShort = true) → pool.IsSayableBelow n →
      ∃ pool', pool.inside path n = .ok pool' ∧ pool.IsScoped pool' n outer) ∧
    (∀ parent child segment node, pool.nodes[parent]? = some node → child < pool.nodes.length →
      segment ≠ .null → segment.isShowable = true → (pool.links.hang parent child).IsAcyclic →
      pool.IsSayableBelow child →
      SharedFailure.IsSayable { node with children := node.children ++ [child] } →
      ∃ pool', pool.addChild parent child segment = .ok pool' ∧
        pool.IsHung pool' parent child segment) ∧
    ∀ n, pool.links.ways n n = 1 ∧ (∀ d, 0 < pool.links.ways n d ↔ pool.links.Reaches n d) ∧
      (pool.links.IsTree n → ∀ d, pool.links.Reaches n d → pool.links.ways n d = 1) :=
  ⟨fun _ _ _ hn htruthy hpath ho hw h => inside_isScoped hclosed hacyclic hpath htruthy ho hw hn h,
    fun _ _ _ _ hparent hchild hnull hs hafter h hw =>
      addChild_isHung hparent hchild hnull hs hclosed hafter h hw,
    fun _ => ⟨Links.ways_self hacyclic, fun _ => Links.ways_pos_iff hclosed hacyclic,
      fun htree _ => Links.ways_of_isTree hclosed hacyclic htree⟩⟩

/-- Four failures: the first stands twice below the second, and both of them stand below the
third. -/
def diamond : FailurePool :=
  ⟨[[], [0, 0], [1, 0], []].map fun children =>
    ⟨⟨.text "${count} at ${path}", [], [], ""⟩, children, []⟩⟩

theorem scopes_and_hangs_diamond :
    diamond.links.IsClosed ∧ diamond.links.IsAcyclic ∧
      (∃ pool, diamond.inside (.list [.text "order"]) 2 = .ok pool ∧
        diamond.IsScoped pool 2 [.text "order"]) ∧
      ∃ pool, diamond.addChild 3 2 (.text "item") = .ok pool ∧
      diamond.IsHung pool 3 2 (.text "item") := by
  have hclosed : diamond.links.IsClosed := Links.isClosed_of_all (by decide)
  have hacyclic : diamond.links.IsAcyclic := Links.isAcyclic_of_all (by decide)
  have hcount : ∀ n < 10, (Value.int (n : Nat)).isWritable = true := fun n hn =>
    Value.isWritable_int_of_lt_pow (k := 1) (by decide) hn
  have hsmall : diamond.nodes.all (fun node => node.notice.isWritable &&
    node.children.length < 10) = true := rfl
  have hsayable : ∀ n, diamond.IsSayableBelow n := by
    intro n d node _ hnode
    have hnode := List.all_eq_true.1 hsmall node (List.mem_of_getElem? hnode)
    rw [Bool.and_eq_true, decide_eq_true_eq] at hnode
    exact ⟨Notice.isSayable_of_isWritable hnode.1, hcount _ hnode.2⟩
  obtain ⟨hscopes, hhangs, -⟩ := scopes_and_hangs hclosed hacyclic
  exact ⟨hclosed, hacyclic,
    hscopes 2 (.list [.text "order"]) [.text "order"] (by decide) rfl rfl nofun
      (by decide) (hsayable 2),
    hhangs 3 2 (.text "item") _ rfl (by decide) nofun rfl (Links.isAcyclic_of_all (by decide))
      (hsayable 2) ⟨Notice.isSayable_of_isWritable rfl, hcount 1 (by decide)⟩⟩

/-- Three routes lead from the third failure to the first, and one to the second. -/
example : (diamond.inside (.list [.text "order"]) 2).toOption.map (·.nodes.map (·.notice.message)) =
    some ["0 at order.order.order", "2 at order", "2 at order", ""] := by
  decide +kernel

/-- A failure with another one below it, put under an index that is too long to be written: the walk
ends in a fault, where it should have put the index in front of both trails. -/
theorem scopes_not_power :
    let index := Value.int (.ofNat (Nat.pow 10 Number.digitLimit))
    let pool : FailurePool :=
      ⟨[[], [0]].map fun children => ⟨⟨.text "bad", [], [], "bad"⟩, children, []⟩⟩
    pool.links.IsClosed ∧ pool.links.IsAcyclic ∧
      pool.inside (.list [index]) 1 = .error .tooManyDigits := by
  intro index pool
  have reached : ∀ limit, ¬ (Int.ofNat (Nat.pow 10 limit)).natAbs < Nat.pow 10 limit :=
    fun _ => Nat.lt_irrefl _
  have hlong : index.isShort = false := Bool.eq_false_iff.2 fun h => by
    have hshowable : index.isShowable = true := Value.isShowable_iff.2 ⟨h, rfl⟩
    rw [Value.isShowable_int] at hshowable
    exact reached _ (Value.isWritable_int.1 hshowable)
  have hfails : ∀ n : Int, (Value.int n).isShort = false →
      pool.inside (.list [.int n]) 1 = .error .tooManyDigits := by
    intro n hn
    have htext : Trail.text [.int n] = .error .tooManyDigits := by
      simp only [Trail.text, List.foldlM_cons, Trail.extend, Value.plain_eq_error hn]
      rfl
    have htruthy : (Value.list [.int n]).isTruthy = true := rfl
    have hpath : (Value.list [.int n]).iterate = .ok [.int n] := rfl
    have hlength : pool.nodes.length = 2 := rfl
    have hnode : pool.nodes[1]? = some ⟨⟨.text "bad", [], [], "bad"⟩, [0], []⟩ := rfl
    have hrefresh : pool.refresh ⟨⟨.text "bad", [], [.int n], "bad"⟩, [0], []⟩ = .error
      .tooManyDigits := by
      simp only [refresh, shown, Notice.worded, Notice.bindings, htext]
      rfl
    rw [inside, if_pos htruthy, hpath, Attempt.ok_bind, under, hlength, underFrom, hnode]
    simp only [Notice.under, List.append_nil, hrefresh]
    rfl
  refine ⟨Links.isClosed_of_all (by decide), Links.isAcyclic_of_all (by decide), ?_⟩
  exact hfails (.ofNat (Nat.pow 10 Number.digitLimit)) hlong

end FailurePool

end Attest
