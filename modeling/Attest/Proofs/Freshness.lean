import Attest.Proofs.Sharing
import Attest.Proofs.Totality

/-!
# Freshness

No failure of a pool is ever worded out of date. Whatever is made, hung together and put under
paths, and however failures are shared: as long as none of them comes to stand below itself, each
message is what the template gives with the context, the trail and the number of parts of that
moment. But a failure whose context holds another one of the pool shows what that one said when the
message was made.

* `IsCurrentBut`: the invariant while a walk down has still to word one failure anew.
* `underFrom_current`, `perform_current`: a walk, and an operation, leave every failure up to date.
* `performAll_current`: so does any sequence of operations.
* `performAll_not_current`: a failure that is held in a context is shown as it was.
-/

namespace Attest

namespace Notice

variable {n : Notice}

theorem isSayable_of_isWritable (h : n.isWritable = true) : n.IsSayable := by
  simp only [isWritable, Bool.and_eq_true, List.all_eq_true] at h
  exact ⟨h.1.1, fun s hs => (Value.isShowable_iff.1 (Value.isShowable_of_isWritable (h.2 s hs))).1,
    fun b hb => Value.isShowable_of_isWritable (h.1.2 b (mem_context_of_named hb))⟩

theorem IsSayable.worded_eq {count : Nat} (h : n.IsSayable)
    (hc : (Value.int count).isWritable = true) :
    n.worded count = .ok (n.said count) := by
  obtain ⟨s, hs⟩ := worded_ok_iff.2 ⟨h, hc⟩
  rw [said, hs]
  rfl

theorem IsSayable.under {outer : Trail} (h : n.IsSayable) (ho : ∀ s ∈ outer, s.isShort = true) :
    (n.under outer).IsSayable :=
  ⟨h.template, fun s hs => (List.mem_append.1 hs).elim (ho s) (h.trail s), h.named⟩

theorem IsSayable.withContext {more : List (String × Value)} (h : n.IsSayable)
    (hm : ∀ b ∈ more, b.2.isShowable = true) :
    IsSayable { n with context := n.context ++ more } :=
  ⟨h.template, h.trail, fun b hb => by
    obtain ⟨hb, hname⟩ := List.mem_filter.1 hb
    rcases List.mem_append.1 hb with hb | hb
    · exact h.named b (List.mem_filter.2 ⟨hb, hname⟩)
    · exact hm b hb⟩

theorem IsSayable.withKey {key : Value} (h : n.IsSayable) (hk : key.isShowable = true) :
    (n.withKey key).IsSayable := by
  unfold Notice.withKey
  split
  · exact h
  · exact h.withContext fun b hb => by rwa [List.mem_singleton.1 hb]

end Notice

namespace SharedFailure

variable {node : SharedFailure}

/-- A failure can be worded. -/
def IsSayable (node : SharedFailure) : Prop :=
  node.notice.IsSayable ∧ (Value.int node.children.length).isWritable = true

/-- The message is the template, filled with the trail as it is written and with the number of
failures below, and with the context under all other names. -/
def IsCurrent (node : SharedFailure) : Prop :=
  ∃ trail, node.notice.trail.text = .ok trail ∧
    Value.render node.notice.template
      ([("path", .text trail), ("count", .int node.children.length)] ++ node.notice.named) =
        .ok node.notice.message

/-- A key is recorded in the context. -/
def HasKey (node : SharedFailure) : Prop := (node.notice.get? "key").isSome = true

theorem isCurrent_iff :
    node.IsCurrent ↔ node.notice.worded node.children.length = .ok node.notice.message := by
  unfold IsCurrent Notice.worded Notice.bindings
  simp only [bind_assoc, Attempt.bind_eq_ok, Attempt.pure_eq_ok, Attempt.ok_bind]

end SharedFailure

namespace FailurePool

variable {pool : FailurePool} {n : Nat}

/-! ## One failure is worded anew -/

section
variable {node : SharedFailure}

/-- The failure with its message brought up to date. -/
def refreshed (pool : FailurePool) (node : SharedFailure) : SharedFailure :=
  { node with
    notice := { node.notice with message := (pool.shown node).said node.children.length } }

/-- What a context holds of other failures is shown by texts. -/
theorem shown_isSayable (pool : FailurePool) (h : node.IsSayable) : (pool.shown node).IsSayable :=
  h.1.withContext fun b hb => by
    obtain ⟨⟨name, m⟩, -, hb⟩ := List.mem_filterMap.1 hb
    obtain ⟨held, -, rfl⟩ := Option.map_eq_some_iff.1 hb
    rfl

theorem refresh_eq (pool : FailurePool) (h : node.IsSayable) :
    pool.refresh node = .ok (pool.refreshed node) := by
  rw [refresh, (pool.shown_isSayable h).worded_eq h.2]
  rfl

theorem refreshed_isSayable (pool : FailurePool) (h : node.IsSayable) :
    (pool.refreshed node).IsSayable := ⟨⟨h.1.template, h.1.trail, h.1.named⟩, h.2⟩

/-- A failure that holds no other one in its context is up to date when it is worded anew. -/
theorem refreshed_current (pool : FailurePool) (h : node.IsSayable) (hheld : node.held = []) :
    (pool.refreshed node).IsCurrent := by
  have hshown : pool.shown node = node.notice := by
    rw [shown, hheld, heldTexts, List.filterMap_nil, List.append_nil]
  have hsame : (pool.refreshed node).notice.worded (pool.refreshed node).children.length =
      node.notice.worded node.children.length := rfl
  rw [SharedFailure.isCurrent_iff, hsame, h.1.worded_eq h.2, ← hshown]
  rfl

end

/-! ## The invariant -/

/-- Every failure can be worded, and all that hold no other one in their contexts are up to date,
but for one. -/
structure IsCurrentBut (pool : FailurePool) (n : Nat) : Prop where
  isSayable : ∀ node ∈ pool.nodes, node.IsSayable
  isCurrent : ∀ m node, m ≠ n → pool.nodes[m]? = some node → node.held = [] → node.IsCurrent

/-- Every failure can be worded, and all that hold no other one in their contexts are up to date. -/
structure IsCurrent (pool : FailurePool) : Prop where
  isSayable : ∀ node ∈ pool.nodes, node.IsSayable
  isCurrent : ∀ node ∈ pool.nodes, node.held = [] → node.IsCurrent

theorem IsCurrent.but (h : pool.IsCurrent) (n : Nat) : pool.IsCurrentBut n :=
  ⟨h.isSayable, fun _ node _ hm => h.isCurrent node (List.mem_of_getElem? hm)⟩

/-- What a walk leaves as it is: how the failures hang together, and what their templates may
name. -/
def SameFrame (pool pool' : FailurePool) : Prop :=
  pool'.nodes.map (fun node => (node.children, node.notice.context)) =
    pool.nodes.map fun node => (node.children, node.notice.context)

theorem SameFrame.links {pool' : FailurePool} (h : SameFrame pool pool') :
    pool'.links = pool.links := by
  have := congrArg (List.map (·.1)) h
  simpa [FailurePool.links, Function.comp_def] using this

theorem SameFrame.trans {pool' pool'' : FailurePool} (h : SameFrame pool pool')
    (h' : SameFrame pool' pool'') : SameFrame pool pool'' := Eq.trans h' h

/-! ## One failure is replaced -/

section
variable {node : SharedFailure}

theorem set_currentBut (h : pool.IsCurrentBut n) (hw : node.IsSayable) :
    (pool.set n node).IsCurrentBut n where
  isSayable m hm := by
    rcases List.mem_or_eq_of_mem_set hm with hm | rfl
    · exact h.isSayable m hm
    · exact hw
  isCurrent m found hne hm := by
    rw [set, List.getElem?_set_ne (Ne.symm hne)] at hm
    exact h.isCurrent m found hne hm

theorem set_current (h : pool.IsCurrentBut n) (hw : node.IsSayable)
    (hc : node.held = [] → node.IsCurrent) :
    (pool.set n node).IsCurrent where
  isSayable := (set_currentBut h hw).isSayable
  isCurrent found hfound := by
    obtain ⟨m, hm⟩ := List.mem_iff_getElem?.1 hfound
    by_cases hne : m = n
    · subst hne
      have hlt : m < pool.nodes.length := by
        simpa [set] using (List.getElem?_eq_some_iff.1 hm).1
      rw [set, List.getElem?_set_self hlt, Option.some.injEq] at hm
      exact hm ▸ hc
    · exact (set_currentBut h hw).isCurrent m found hne hm

theorem set_sameFrame {old : SharedFailure} (hn : pool.nodes[n]? = some old)
    (hchildren : node.children = old.children)
    (hcontext : node.notice.context = old.notice.context) :
    SameFrame pool (pool.set n node) := by
  unfold SameFrame
  apply List.ext_getElem?
  intro m
  simp only [set, List.getElem?_map, List.getElem?_set]
  split
  · next hm =>
    subst hm
    obtain ⟨hlt, rfl⟩ := List.getElem?_eq_some_iff.1 hn
    simp [hlt, hchildren, hcontext]
  · rfl

theorem links_set : (pool.set n node).links = pool.links.set n node.children := by
  simp [links, set, List.map_set]

end

/-! ## A walk down -/

section
variable {outer : Trail} {links : Links} {depth : Nat → Nat}

/-- A walk to several failures, one after the other, leaves all up to date if each walk does. -/
theorem walks_current {fuel : Nat}
    (hwalk : ∀ (pool : FailurePool) (n : Nat), pool.links = links → depth n < fuel →
      pool.IsCurrentBut n → ∃ pool', underFrom outer fuel pool n = .ok pool' ∧ pool'.IsCurrent ∧
        SameFrame pool pool') :
    ∀ (children : List Nat) (pool : FailurePool), pool.links = links →
      (∀ child ∈ children, depth child < fuel) → pool.IsCurrent →
      ∃ pool', children.foldlM (underFrom outer fuel) pool = .ok pool' ∧ pool'.IsCurrent ∧
        SameFrame pool pool'
  | [], pool, _, _, h => ⟨pool, rfl, h, rfl⟩
  | child :: rest, pool, hlinks, hdepth, h => by
    obtain ⟨next, hnext, hcurrent, hframe⟩ :=
      hwalk pool child hlinks (hdepth child List.mem_cons_self) (h.but child)
    obtain ⟨last, hlast, hcurrent, hframe'⟩ := walks_current hwalk rest next
      (hframe.links.trans hlinks) (fun c hc => hdepth c (List.mem_cons_of_mem child hc)) hcurrent
    refine ⟨last, ?_, hcurrent, hframe.trans hframe'⟩
    rw [List.foldlM_cons, hnext, Attempt.ok_bind, hlast]

/-- A walk down that is given as many turns as it is deep words all failures on its way anew, and
changes nothing but their trails. -/
theorem underFrom_current (ho : ∀ s ∈ outer, s.isShort = true)
    (hdepth : ∀ parent child, links.Has parent child → depth child < depth parent) :
    ∀ (fuel : Nat) (pool : FailurePool) (n : Nat), pool.links = links → depth n < fuel →
      pool.IsCurrentBut n → ∃ pool', underFrom outer fuel pool n = .ok pool' ∧ pool'.IsCurrent ∧
        SameFrame pool pool'
  | 0, _, _, _, hn, _ => absurd hn (Nat.not_lt_zero _)
  | fuel + 1, pool, n, hlinks, hn, h => by
    unfold underFrom
    cases hnode : pool.nodes[n]? with
    | none =>
      refine ⟨pool, rfl, ⟨h.isSayable, fun node hmem => ?_⟩, rfl⟩
      obtain ⟨m, hm⟩ := List.mem_iff_getElem?.1 hmem
      refine h.isCurrent m node ?_ hm
      rintro rfl
      rw [hnode] at hm
      cases hm
    | some node =>
      let moved : SharedFailure := { node with notice := node.notice.under outer }
      have hw : moved.IsSayable :=
        have hold := h.isSayable node (List.mem_of_getElem? hnode)
        ⟨hold.1.under ho, hold.2⟩
      have hframe : SameFrame pool (pool.set n (pool.refreshed moved)) :=
        set_sameFrame hnode rfl rfl
      have hchildren : ∀ child ∈ node.children, depth child < fuel := fun child hc => by
        have hlink : links.Has n child := by
          rw [← hlinks]
          exact ⟨node.children, by rw [getElem?_links, hnode]; rfl, hc⟩
        have := hdepth n child hlink
        omega
      have hset := set_current h (pool.refreshed_isSayable hw) fun hheld =>
        pool.refreshed_current hw hheld
      obtain ⟨last, hlast, hcurrent, hframe'⟩ :=
        walks_current (underFrom_current ho hdepth fuel) node.children
          (pool.set n (pool.refreshed moved))
          (hframe.links.trans hlinks) hchildren hset
      refine ⟨last, ?_, hcurrent, hframe.trans hframe'⟩
      have hrefresh : pool.refresh { node with notice := node.notice.under outer } =
          .ok (pool.refreshed moved) := pool.refresh_eq hw
      simp only [hrefresh, Attempt.ok_bind]
      exact hlast

end

/-- Without circles, putting segments in front of a failure leaves all up to date. -/
theorem under_current {outer : Trail} (ho : ∀ s ∈ outer, s.isShort = true)
    (hclosed : pool.links.IsClosed) (hacyclic : pool.links.IsAcyclic) (hn : n < pool.nodes.length)
    (h : pool.IsCurrentBut n) :
    ∃ pool', pool.under outer n = .ok pool' ∧ pool'.IsCurrent ∧ SameFrame pool pool' := by
  obtain ⟨depth, hbound, hdepth⟩ := Links.exists_depth hclosed hacyclic
  have hfuel : depth n < pool.nodes.length := by
    rw [← length_links] at hn ⊢
    exact hbound n hn
  exact underFrom_current ho hdepth _ pool n rfl hfuel h

/-! ## Keys -/

/-- A failure of the pool has a key. -/
def HasKey (pool : FailurePool) (n : Nat) : Prop :=
  ∃ node, pool.nodes[n]? = some node ∧ node.HasKey

theorem SameFrame.hasKey {pool' : FailurePool} (h : SameFrame pool pool') (hkey : pool.HasKey n) :
    pool'.HasKey n := by
  obtain ⟨node, hn, hkey⟩ := hkey
  have hframe := congrArg (·[n]?) h
  simp only [List.getElem?_map, hn, Option.map_some] at hframe
  obtain ⟨node', hn', heq⟩ := Option.map_eq_some_iff.1 hframe
  have hcontext : node'.notice.context = node.notice.context := congrArg (·.2) heq
  refine ⟨node', hn', ?_⟩
  rw [SharedFailure.HasKey, Notice.get?, hcontext]
  exact hkey

theorem hasKey_set {node old : SharedFailure} {m : Nat} (hn : pool.nodes[n]? = some old)
    (hkeep : old.HasKey → node.HasKey) (hkey : pool.HasKey m) : (pool.set n node).HasKey m := by
  obtain ⟨found, hm, hkey⟩ := hkey
  have hlt : n < pool.nodes.length := (List.getElem?_eq_some_iff.1 hn).1
  by_cases hnm : n = m
  · subst hnm
    rw [hn, Option.some.injEq] at hm
    exact ⟨node, List.getElem?_set_self hlt, hkeep (hm ▸ hkey)⟩
  · exact ⟨found, by rw [set, List.getElem?_set_ne hnm, hm], hkey⟩

theorem isSome_key_withKey (notice : Notice) (segment : Value) :
    ((notice.withKey segment).get? "key").isSome = true := by
  unfold Notice.withKey
  split
  · assumption
  · simp [Notice.get?, List.lookup_append]

/-! ## Operations -/

/-- What an operation leaves behind: every failure is up to date, the failures hang together as the
operation wants it, and the keys are kept. -/
structure Becomes (pool pool' : FailurePool) (links : Links) : Prop where
  isCurrent : pool'.IsCurrent
  links : pool'.links = links
  keys : ∀ m, pool.HasKey m → pool'.HasKey m

section
variable {links : Links} {segment path : Value} {parent child : Nat}

theorem locate_current (hs : segment.isShowable = true)
    (hclosed : pool.links.IsClosed) (hacyclic : pool.links.IsAcyclic) (hn : n < pool.nodes.length)
    (h : pool.IsCurrent) : ∃ pool', pool.locate segment n = .ok pool' ∧
      pool.Becomes pool' pool.links ∧ (segment ≠ .null → pool'.HasKey n) := by
  by_cases hnull : segment = .null
  · subst hnull
    exact ⟨pool, rfl, ⟨h, rfl, fun _ => id⟩, fun hne => absurd rfl hne⟩
  · let node := pool.nodes[n]
    have hnode : pool.nodes[n]? = some node := List.getElem?_eq_getElem hn
    let keyed : SharedFailure := { node with notice := node.notice.withKey segment }
    have hw : keyed.IsSayable :=
      have hold := h.isSayable node (List.getElem_mem hn)
      ⟨hold.1.withKey hs, hold.2⟩
    have hkey : keyed.HasKey := isSome_key_withKey node.notice segment
    have hlinks : (pool.set n keyed).links = pool.links := by
      have hlt : n < pool.links.length := by rwa [length_links]
      have hsame : keyed.children = pool.links[n] := by simp [FailurePool.links, keyed, node]
      rw [links_set, hsame, List.set_getElem_self hlt]
    have ho : ∀ s ∈ [segment], s.isShort = true := fun s hmem => by
      rw [List.mem_singleton.1 hmem]
      exact (Value.isShowable_iff.1 hs).1
    have hbut : (pool.set n keyed).IsCurrentBut n := set_currentBut (h.but n) hw
    obtain ⟨pool', hunder, hcurrent, hframe⟩ :=
      under_current ho (hlinks ▸ hclosed) (hlinks ▸ hacyclic) (by simpa [set] using hn) hbut
    refine ⟨pool', ?_, ⟨hcurrent, hframe.links.trans hlinks, fun m hm => ?_⟩, fun _ => ?_⟩
    · unfold locate
      rw [hnode]
      cases segment with
      | null => exact absurd rfl hnull
      | _ => exact hunder
    · exact hframe.hasKey (hasKey_set hnode (fun _ => hkey) hm)
    · exact hframe.hasKey ⟨keyed, List.getElem?_set_self hn, hkey⟩

/-- A failure that can be made can be made with any failures below it and in its context. -/
theorem make_current {parts : Notice.Parts} {children : List Nat} {held : List (String × Nat)}
    (hp : ∃ f, Failure.make parts [] = .ok f) (hc : (Value.int children.length).isWritable = true)
    (h : pool.IsCurrent) : ∃ pool', pool.perform (.make parts children held) = .ok pool' ∧
      pool.Becomes pool' (pool.links ++ [children]) := by
  obtain ⟨f, hf⟩ := hp
  obtain ⟨notice, hnotice, hf⟩ := Attempt.bind_eq_ok.1 hf
  obtain ⟨worded, hworded, -⟩ := Attempt.bind_eq_ok.1 hf
  obtain ⟨said, hsaid, -⟩ := Attempt.bind_eq_ok.1 hworded
  let node : SharedFailure := ⟨notice, children, held⟩
  have hw : node.IsSayable := ⟨(Notice.worded_ok_iff.1 ⟨said, hsaid⟩).1, hc⟩
  have hsnoc : ∀ {P : SharedFailure → Prop}, (∀ old ∈ pool.nodes, P old) → P (pool.refreshed node) →
      ∀ found ∈ pool.nodes ++ [pool.refreshed node], P found := by
    intro P hold hnew found hfound
    rcases List.mem_append.1 hfound with hfound | hfound
    · exact hold found hfound
    · exact List.mem_singleton.1 hfound ▸ hnew
  have hcurrent : FailurePool.IsCurrent ⟨pool.nodes ++ [pool.refreshed node]⟩ :=
    ⟨hsnoc h.isSayable (pool.refreshed_isSayable hw),
      hsnoc (P := fun node => node.held = [] → node.IsCurrent) h.isCurrent fun hheld =>
        pool.refreshed_current hw hheld⟩
  have hlinks : FailurePool.links ⟨pool.nodes ++ [pool.refreshed node]⟩ =
    pool.links ++ [children] := by
    simp [FailurePool.links, node, refreshed]
  refine ⟨⟨pool.nodes ++ [pool.refreshed node]⟩, ?_, ⟨hcurrent, hlinks, ?_⟩⟩
  · simp only [perform, make, hnotice, Attempt.ok_bind]
    rw [pool.refresh_eq hw]
    rfl
  · rintro m ⟨old, hm, hkey⟩
    have hlt : m < pool.nodes.length := (List.getElem?_eq_some_iff.1 hm).1
    exact ⟨old, by rw [List.getElem?_append_left hlt, hm], hkey⟩

theorem addChild_current (hs : segment.isShowable = true)
    (hclosed : pool.links.IsClosed) (hacyclic : pool.links.IsAcyclic)
    (hparent : parent < pool.nodes.length) (hchild : child < pool.nodes.length)
    (hc : ∀ children ∈ pool.links.hang parent child, (Value.int children.length).isWritable = true)
    (h : pool.IsCurrent) : ∃ pool', pool.perform (.addChild parent child segment) = .ok pool' ∧
      pool.Becomes pool' (pool.links.hang parent child) ∧
      (segment ≠ .null → pool'.HasKey child) := by
  obtain ⟨middle, hmiddle, hbecomes, hkey⟩ := locate_current hs hclosed hacyclic hchild h
  have hlt : parent < middle.nodes.length := by
    rw [← length_links, hbecomes.links, length_links]
    exact hparent
  let node := middle.nodes[parent]
  have hnode : middle.nodes[parent]? = some node := List.getElem?_eq_getElem hlt
  let longer : SharedFailure := { node with children := node.children ++ [child] }
  have hlinks : (middle.set parent (middle.refreshed longer)).links = pool.links.hang
    parent child := by
    rw [links_set, hbecomes.links, Links.hang, List.modify_eq_set_getElem?, ← hbecomes.links,
      getElem?_links, hnode]
    rfl
  have hw : longer.IsSayable := by
    refine ⟨(hbecomes.isCurrent.isSayable node (List.getElem_mem hlt)).1, hc _ ?_⟩
    rw [← hlinks, links_set]
    exact List.mem_set (by rw [length_links]; exact hlt) _
  have hold : node.HasKey → (middle.refreshed longer).HasKey := id
  have hcurrent := set_current (hbecomes.isCurrent.but parent) (middle.refreshed_isSayable hw)
    fun hheld => middle.refreshed_current hw hheld
  refine ⟨middle.set parent (middle.refreshed longer), ?_,
    ⟨hcurrent, hlinks, fun m hm => hasKey_set hnode hold (hbecomes.keys m hm)⟩,
    fun hne => hasKey_set hnode hold (hkey hne)⟩
  have hrefresh : middle.refresh { node with children := node.children ++ [child] } =
    .ok (middle.refreshed longer) := middle.refresh_eq hw
  simp only [perform, addChild, hmiddle, Attempt.ok_bind, hnode, hrefresh]
  rfl

theorem inside_current {trail : Trail} (hpath : path.iterate = .ok trail)
    (ho : ∀ s ∈ trail, s.isShort = true) (hclosed : pool.links.IsClosed)
    (hacyclic : pool.links.IsAcyclic) (hn : n < pool.nodes.length) (h : pool.IsCurrent) :
    ∃ pool', pool.perform (.inside path n) = .ok pool' ∧ pool.Becomes pool' pool.links := by
  simp only [perform, inside]
  split
  · obtain ⟨pool', hunder, hcurrent, hframe⟩ := under_current ho hclosed hacyclic hn (h.but n)
    refine ⟨pool', ?_, hcurrent, hframe.links, fun m => hframe.hasKey⟩
    rw [hpath, Attempt.ok_bind, hunder]
  · exact ⟨pool, rfl, h, rfl, fun _ => id⟩

end

end FailurePool

namespace Operation

/-- An operation makes a failure that can be made, or brings segments that can be shown, and leaves
no number of parts that cannot be written. -/
structure Shows (links : Links) (op : Operation) : Prop where
  given : match op with
    | .make parts _ _ => ∃ f, Failure.make parts [] = .ok f
    | .addChild _ _ segment => segment.isShowable = true
    | .inside path _ => ∃ trail, path.iterate = .ok trail ∧ ∀ s ∈ trail, s.isShort = true
  counts : ∀ children ∈ op.relink links, (Value.int children.length).isWritable = true

/-- Each operation speaks of failures that are there when its turn comes, and shows what can be
written. -/
def FitAll (links : Links) : List Operation → Prop
  | [] => True
  | op :: rest => op.Exists links ∧ op.Shows links ∧ FitAll (op.relink links) rest

/-- The segment at which an operation hangs a failure below another one is recorded as its key. -/
def Keys (pool : FailurePool) : Operation → Prop
  | .addChild _ child segment => segment ≠ .null → pool.HasKey child
  | _ => True

theorem Keys.mono {op : Operation} {pool pool' : FailurePool} {links : Links}
    (h : pool.Becomes pool' links) (hop : op.Keys pool) : op.Keys pool' := by
  cases op with
  | addChild parent child segment => exact fun hne => h.keys child (hop hne)
  | _ => exact trivial

end Operation

namespace FailurePool

variable {pool : FailurePool}

/-- An operation that leaves no circle leaves every failure up to date. -/
theorem perform_current {op : Operation} (hclosed : pool.links.IsClosed)
    (hexists : op.Exists pool.links) (hshows : op.Shows pool.links)
    (hacyclic : (op.relink pool.links).IsAcyclic) (h : pool.IsCurrent) :
    ∃ pool', pool.perform op = .ok pool' ∧ pool.Becomes pool' (op.relink pool.links) ∧
      op.Keys pool' := by
  have hbefore := Operation.isAcyclic_of_relink hexists hacyclic
  cases op with
  | make parts children held =>
    have hcount := hshows.counts children (List.mem_append_right _ List.mem_cons_self)
    obtain ⟨pool', hop, hbecomes⟩ := make_current hshows.given hcount h
    exact ⟨pool', hop, hbecomes, trivial⟩
  | addChild parent child segment =>
    rw [Operation.Exists, length_links] at hexists
    exact addChild_current hshows.given hclosed hbefore hexists.1 hexists.2 hshows.counts h
  | inside path n =>
    rw [Operation.Exists, length_links] at hexists
    obtain ⟨trail, htrail, ho⟩ := hshows.given
    obtain ⟨pool', hop, hbecomes⟩ := inside_current htrail ho hclosed hbefore hexists h
    exact ⟨pool', hop, hbecomes, trivial⟩

end FailurePool

/-! ## Runs -/

theorem Operation.isAcyclic_of_relinkAll : ∀ {ops : List Operation} {links : Links},
    FitAll links ops → (relinkAll links ops).IsAcyclic → links.IsAcyclic
  | [], _, _, h => h
  | _ :: _, _, hfit, h => isAcyclic_of_relink hfit.1 (isAcyclic_of_relinkAll hfit.2.2 h)

namespace FailurePool

theorem Becomes.trans {pool pool' pool'' : FailurePool} {links links' : Links}
    (h : pool.Becomes pool' links) (h' : pool'.Becomes pool'' links') :
    pool.Becomes pool'' links' :=
  ⟨h'.isCurrent, h'.links, fun m hm => h'.keys m (h.keys m hm)⟩

/-- What one operation keeps, a run of them keeps. A circle in between would still be there at the
end. -/
theorem run_current : ∀ {ops : List Operation} {pool : FailurePool}, pool.links.IsClosed →
    Operation.FitAll pool.links ops → (Operation.relinkAll pool.links ops).IsAcyclic →
    pool.IsCurrent → ∃ pool', pool.performAll ops = .ok pool' ∧
      pool.Becomes pool' (Operation.relinkAll pool.links ops) ∧ ∀ op ∈ ops, op.Keys pool'
  | [], pool, _, _, _, h => ⟨pool, rfl, ⟨h, rfl, fun _ => id⟩, nofun⟩
  | op :: rest, pool, hclosed, ⟨hexists, hshows, hrest⟩, hacyclic, h => by
    obtain ⟨next, hop, hnext, hkeys⟩ := perform_current hclosed hexists hshows
      (Operation.isAcyclic_of_relinkAll hrest hacyclic) h
    have hclosed' : next.links.IsClosed := hnext.links ▸ Operation.isClosed_relink hclosed hexists
    have hlinks : Operation.relinkAll next.links rest = Operation.relinkAll pool.links
      (op :: rest) := by
      rw [hnext.links]
      rfl
    obtain ⟨last, hall, hlast, hkeysRest⟩ := run_current hclosed' (hnext.links ▸ hrest)
      (hlinks ▸ hacyclic) hnext.isCurrent
    refine ⟨last, ?_, hlinks ▸ hnext.trans hlast, fun op' hmem => ?_⟩
    · rw [performAll, List.foldlM_cons, hop, Attempt.ok_bind]
      exact hall
    · rcases List.mem_cons.1 hmem with rfl | hmem
      · exact hkeys.mono hlast
      · exact hkeysRest op' hmem

/-- After any operations that leave no circle, every failure of the pool whose context holds no
other one says what its template gives with its context, its trail and the number of failures below
it; they hang together as the operations want it; and each segment at which a failure was hung is
recorded, unless it had a key. -/
theorem performAll_current {ops : List Operation} (hfit : Operation.FitAll [] ops)
    (hacyclic : (Operation.relinkAll [] ops).IsAcyclic) :
    ∃ pool, empty.performAll ops = .ok pool ∧ pool.links = Operation.relinkAll [] ops ∧
      (∀ node ∈ pool.nodes, node.held = [] → node.IsCurrent) ∧
      ∀ parent child segment, .addChild parent child segment ∈ ops → segment ≠ .null →
        pool.HasKey child := by
  have hclosed : empty.links.IsClosed := fun _ _ ⟨_, hnone, _⟩ => nomatch hnone
  obtain ⟨pool, hrun, hpool, hkeys⟩ := run_current hclosed hfit hacyclic ⟨nofun, nofun⟩
  exact ⟨pool, hrun, hpool.links, hpool.isCurrent.isCurrent,
    fun parent child segment hmem => hkeys (.addChild parent child segment) hmem⟩

/-- A text is all that a failure needs to be made. -/
theorem made_of_text (template : String) :
    ∃ f, Failure.make { template := .text template } [] = .ok f :=
  ⟨_, Failure.make_eq ⟨rfl, .inl rfl⟩ ⟨rfl, rfl, rfl, rfl, nofun⟩ Value.isWritable_zero⟩

/-- A few parts can be counted. -/
theorem isWritable_of_few {links : Links} (h : links.all (·.length < 10) = true) :
    ∀ children ∈ links, (Value.int children.length).isWritable = true := fun children hmem =>
  Value.isWritable_int_of_lt_pow (k := 1) (by decide)
    (by simpa using List.all_eq_true.1 h children hmem)

/-- A failure that is shared: it stands twice below one failure and once below another one, which is
then put under a path. The context of the other one holds the first, too. -/
def sharingOperations : List Operation :=
  [.make { template := .text "${path} is wrong" } [] [],
    .make { template := .text "${count} parts in ${path}" } [] [],
    .addChild 1 0 (.text "size"),
    .make { template := .text "because ${cause}" } [0, 1] [("cause", 0)],
    .addChild 1 0 .null,
    .inside (.list [.text "order"]) 2]

theorem performAll_current_sharing :
    Operation.FitAll [] sharingOperations ∧ (Operation.relinkAll [] sharingOperations).IsAcyclic ∧
      ∃ pool, empty.performAll sharingOperations = .ok pool ∧
        pool.links = [[], [0, 0], [0, 1]] ∧ (∀ node ∈ pool.nodes, node.held = [] → node.IsCurrent) ∧
        pool.HasKey 0 := by
  have hfit : Operation.FitAll [] sharingOperations :=
    ⟨by decide, ⟨made_of_text _, isWritable_of_few rfl⟩, by decide,
      ⟨made_of_text _, isWritable_of_few rfl⟩, by decide, ⟨rfl, isWritable_of_few rfl⟩, by decide,
        ⟨made_of_text _, isWritable_of_few rfl⟩,
      by decide, ⟨rfl, isWritable_of_few rfl⟩, by decide,
        ⟨⟨[.text "order"], rfl, by decide⟩, isWritable_of_few rfl⟩, trivial⟩
  have hacyclic : (Operation.relinkAll [] sharingOperations).IsAcyclic :=
    Links.isAcyclic_of_all (by decide)
  obtain ⟨pool, hrun, hlinks, hcurrent, hkeys⟩ := performAll_current hfit hacyclic
  exact ⟨hfit, hacyclic, pool, hrun, hlinks, hcurrent,
    hkeys 1 0 (.text "size") (.tail _ (.tail _ (.head _))) nofun⟩

/-- A failure, and another one that holds it in its context; then the first is put under a path. -/
def holdingOperations : List Operation :=
  [.make { template := .text "wrong at ${path}" } [] [],
    .make { template := .text "because ${cause}" } [] [("cause", 0)],
    .inside (.list [.text "order"]) 0]

/-- A failure that holds another one in its context still says what that one said before it was put
under a path. And what a context has under the name of the number of parts is not shown. -/
theorem performAll_not_current :
    (Operation.FitAll [] holdingOperations ∧ (Operation.relinkAll [] holdingOperations).IsAcyclic ∧
      ∃ pool, empty.performAll holdingOperations = .ok pool ∧ ∃ node ∈ pool.nodes,
        (pool.shown node).worded node.children.length ≠ .ok node.notice.message) ∧
    ∃ pool, empty.performAll
      [.make { template := .text "x ${count}", extra := [("count", .int 5)] } [] []] =
      .ok pool ∧ pool.nodes.map (·.notice.message) = ["x 0"] := by
  have hfit : Operation.FitAll [] holdingOperations :=
    ⟨by decide, ⟨made_of_text _, isWritable_of_few rfl⟩, by decide,
      ⟨made_of_text _, isWritable_of_few rfl⟩, by decide,
        ⟨⟨[.text "order"], rfl, by decide⟩, isWritable_of_few rfl⟩, trivial⟩
  have hheld : (empty.performAll holdingOperations).toOption.map
    (fun pool => pool.nodes.map fun node =>
      (((pool.shown node).worded node.children.length).toOption, node.notice.message)) =
        some [(some "wrong at order", "wrong at order"),
          (some "because wrong at order", "because wrong at ")] := by
    decide +kernel
  have hcounted : (empty.performAll
      [.make { template := .text "x ${count}", extra := [("count", .int 5)] } [] []]).toOption.map
        (·.nodes.map (·.notice.message)) = some ["x 0"] := by
    decide +kernel
  obtain ⟨pool, hpool, hsaid⟩ := Option.map_eq_some_iff.1 hheld
  obtain ⟨pool', hpool', hsaid'⟩ := Option.map_eq_some_iff.1 hcounted
  refine ⟨⟨hfit, Links.isAcyclic_of_all (by decide), pool, Attempt.toOption_eq_some.1 hpool, ?_⟩,
    pool', Attempt.toOption_eq_some.1 hpool', hsaid'⟩
  have hlast : (some "because wrong at order", "because wrong at ") ∈ pool.nodes.map fun node =>
      (((pool.shown node).worded node.children.length).toOption, node.notice.message) := by
    rw [hsaid]
    exact .tail _ (.head _)
  obtain ⟨node, hnode, heq⟩ := List.mem_map.1 hlast
  obtain ⟨hnow, hmessage⟩ := Prod.mk.inj heq
  refine ⟨node, hnode, fun hcurrent => ?_⟩
  rw [hcurrent, hmessage] at hnow
  exact absurd hnow (by decide)

/-- What is shared is moved once for every way that leads to it. -/
example : (empty.performAll sharingOperations).toOption.map (·.nodes.map (·.notice.message)) =
    some ["order.order.order.size is wrong", "2 parts in order", "because size is wrong"] := by
  decide +kernel

end FailurePool

end Attest
