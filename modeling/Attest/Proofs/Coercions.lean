import Attest.Coercion
import Attest.Proofs.Attempt
import Attest.Proofs.Everywhere

/-!
# Coercions

The values that the kinds make. Whatever a kind accepts, in whatever form it is given, becomes one
of these, and a kind takes them as they are.

* `Kind.makes_of_accepts?`: what is accepted becomes one of the values that the kind makes.
* `Kind.Makes.accepts?`: the kind takes such a value as it is.
-/

namespace Attest

/-- The values that a kind makes. -/
inductive Kind.Makes : Kind → Value → Prop
  | text {v : Value} {s : String} : v.asText? = some s → Makes .string v
  | int (n : Int) : Makes .number (.int n)
  | float {v : Value} {x : Float} : v.asFloat? = some x → Number.isNan x = false → Makes .number v
  | real {v : Value} {type : String} : v.foreignReal? = some type → Makes .number v
  | integer (n : Int) : Makes .integer (.int n)
  | truth (b : Bool) : Makes .boolean (.bool b)
  | moment (m : Calendar.Moment) : Makes .date (.moment m)
  | list {items : List Value} : (∀ item ∈ items, item.isClosed = true) → Makes .array (.list items)
  | map {entries : List (Value × Value)} : (∀ e ∈ entries, e.2.isClosed = true) →
      Makes .object (.map entries)

namespace Coercion

theorem spelledNumber_makes {s : String} {a : Value} (h : spelledNumber s = some a) :
    Kind.number.Makes a := by
  unfold spelledNumber at h
  simp only at h
  split at h
  · cases h
    exact .int _
  · split at h
    · split at h
      · cases h
      · next x _ hnan =>
        cases h
        exact .float rfl (Bool.eq_false_iff.2 hnan)
    · cases h

theorem spelledInteger_makes {s : String} {a : Value} (h : spelledInteger s = some a) :
    Kind.integer.Makes a := by
  unfold spelledInteger at h
  split at h
  · cases h
    exact .integer _
  · cases h

theorem spelledTruth_makes {s : String} {a : Value} (h : spelledTruth s = some a) :
    Kind.boolean.Makes a := by
  obtain ⟨b, -, rfl⟩ := Option.map_eq_some_iff.1 h
  exact .truth b

theorem spelledMoment_makes {s : String} {a : Value} (h : spelledMoment s = some a) :
    Kind.date.Makes a := by
  obtain ⟨m, -, rfl⟩ := Option.map_eq_some_iff.1 h
  exact .moment m

theorem epochMoment_makes {v a : Value} (h : epochMoment v = some a) : Kind.date.Makes a := by
  unfold epochMoment at h
  split at h
  all_goals
    obtain ⟨m, -, rfl⟩ := Option.map_eq_some_iff.1 h
    exact .moment m

end Coercion

namespace Kind

open Coercion

variable {v a : Value}

theorem makes_number (h : number.accepts? v = .ok (some a)) : number.Makes a := by
  simp only [accepts?] at h
  split at h
  · cases h
    exact .int _
  · next x _ hx =>
    split at h
    · cases h
    · next hnan =>
      cases h
      exact .float hx (Bool.eq_false_iff.2 hnan)
  · split at h
    · next hreal =>
      cases h
      obtain ⟨type, htype⟩ := Option.isSome_iff_exists.1 hreal
      exact .real htype
    · obtain ⟨s, -, hs⟩ := Option.bind_eq_some_iff.1 (Except.ok.inj h)
      exact spelledNumber_makes hs

theorem makes_integer (h : integer.accepts? v = .ok (some a)) : integer.Makes a := by
  simp only [accepts?] at h
  split at h
  · cases h
    exact .integer _
  · obtain ⟨n, -, rfl⟩ := Option.map_eq_some_iff.1 (Except.ok.inj h)
    exact .integer n
  · obtain ⟨s, -, hs⟩ := Option.bind_eq_some_iff.1 (Except.ok.inj h)
    exact spelledInteger_makes hs

theorem makes_boolean (h : boolean.accepts? v = .ok (some a)) : boolean.Makes a := by
  simp only [accepts?] at h
  split at h
  case h_1 =>
    cases h
    exact .truth _
  case h_5 => cases h
  all_goals
    obtain ⟨s, -, hs⟩ := Attempt.bind_eq_ok.1 h
    exact spelledTruth_makes (Except.ok.inj hs)

theorem makes_date (h : date.accepts? v = .ok (some a)) : date.Makes a := by
  simp only [accepts?] at h
  split at h
  case h_1 | h_2 =>
    cases h
    exact .moment _
  case h_6 =>
    split at h
    · cases h
    · obtain ⟨s, -, hs⟩ := Option.bind_eq_some_iff.1 (Except.ok.inj h)
      exact spelledMoment_makes hs
  all_goals exact epochMoment_makes (Except.ok.inj h)

/-- What a kind accepts becomes one of the values that it makes. -/
theorem makes_of_accepts? {kind : Kind} (hany : kind ≠ .any)
    (h : kind.accepts? v = .ok (some a)) : kind.Makes a := by
  cases kind with
  | any => exact absurd rfl hany
  | string =>
    obtain ⟨s, hs, rfl⟩ := Option.map_eq_some_iff.1 (Except.ok.inj h)
    exact .text hs
  | number => exact makes_number h
  | integer => exact makes_integer h
  | boolean => exact makes_boolean h
  | date => exact makes_date h
  | array =>
    obtain ⟨items, hitems, rfl⟩ := Option.map_eq_some_iff.1 (Except.ok.inj h)
    exact .list (Value.sequence?_isClosed hitems)
  | object =>
    obtain ⟨entries, hentries, rfl⟩ := Option.map_eq_some_iff.1 (Except.ok.inj h)
    exact .map (Value.entries?_isClosed hentries)

/-- A kind takes the values that it makes as they are. -/
theorem Makes.accepts? {kind : Kind} (h : kind.Makes a) :
    kind.accepts? a = .ok (some a) := by
  cases h with
  | text hs => simp only [Kind.accepts?, hs, Option.map_some]
  | int | integer | truth | moment => rfl
  | float hx hnan =>
    cases a with
    | float x =>
      cases hx
      simp [Kind.accepts?, Value.asFloat?, hnan]
    | nan =>
      cases hx
      cases hnan
    | _ => cases hx
  | real hreal =>
    cases a with
    | object o => simp [Kind.accepts?, Value.asFloat?, hreal]
    | _ => cases hreal
  | list hitems =>
    simp only [Kind.accepts?, Value.sequence?, Value.items_list_of_isClosed hitems, Option.map_some]
  | map hentries =>
    simp only [Kind.accepts?, Value.entries?_map_of_isClosed hentries, Option.map_some]

theorem Makes.isClosed {kind : Kind} (h : kind.Makes a) : a.isClosed = true := by
  cases h with
  | text hs =>
    cases a with
    | text | mode => rfl
    | _ => cases hs
  | int | integer | truth | moment => rfl
  | float hx =>
    cases a with
    | float | nan => rfl
    | _ => cases hx
  | real hreal =>
    cases a with
    | object => rfl
    | _ => cases hreal
  | list hitems => exact Value.list_isClosed hitems
  | map hentries => exact Value.map_isClosed hentries

/-- No kind makes the object of an exception. -/
theorem Makes.trouble? {kind : Kind} {a : Value} (h : kind.Makes a) : a.trouble? = none := by
  cases h with
  | text hs =>
    cases a with
    | text | mode => rfl
    | _ => cases hs
  | float hx =>
    cases a with
    | float | nan => rfl
    | _ => cases hx
  | real hreal =>
    cases a with
    | object o =>
      obtain ⟨id, nature⟩ := o
      cases nature with
      | real => rfl
      | bare | trouble => cases hreal
    | _ => cases hreal
  | int | integer | truth | moment | list | map => rfl

end Kind

end Attest
