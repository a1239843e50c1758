import Attest.Composite
import Attest.Proofs.Everywhere
import Mathlib.Data.List.Nodup

/-!
# Names

Maps whose keys are texts, all of them different. Such a key is the same as another one only if it
is that one, so that each entry is found under its key.

* `lookup_of_mem`: an entry is found under its key.
-/

namespace Attest

namespace Value

/-- The text of a text alone. -/
def name? : Value → Option String
  | .text s => some s
  | _ => none

/-- Whether some keys are texts, all of them different. -/
def areNames (keys : List Value) : Bool :=
  keys.all (·.name?.isSome) && decide (keys.filterMap name?).Nodup

theorem same_text (s t : String) : (text s).same (text t) = (s == t) := by
  simp [same, sameAtom, asNumber?, asText?]

theorem areNames_iff {keys : List Value} :
    areNames keys = true ↔ ∃ names : List String, names.Nodup ∧ keys = names.map .text := by
  simp only [areNames, Bool.and_eq_true, List.all_eq_true, decide_eq_true_eq]
  constructor
  · rintro ⟨hall, hnodup⟩
    refine ⟨_, hnodup, ?_⟩
    clear hnodup
    induction keys with
    | nil => rfl
    | cons key rest ih =>
      have hkey := hall key List.mem_cons_self
      have hrest := ih fun k hk => hall k (List.mem_cons_of_mem key hk)
      cases key with
      | text s => rw [List.filterMap_cons, name?, List.map_cons, ← hrest]
      | _ => cases hkey
  · rintro ⟨names, hnodup, rfl⟩
    rw [List.filterMap_map]
    refine ⟨fun key hkey => ?_, ?_⟩
    · obtain ⟨name, -, rfl⟩ := List.mem_map.1 hkey
      rfl
    · simpa [Function.comp_def, name?] using hnodup

section
variable {keys : List Value}

theorem exists_text_of_areNames (h : areNames keys = true) {key : Value} (hkey : key ∈ keys) :
    ∃ s, key = .text s := by
  obtain ⟨names, -, rfl⟩ := areNames_iff.1 h
  obtain ⟨name, -, rfl⟩ := List.mem_map.1 hkey
  exact ⟨name, rfl⟩

theorem nodup_of_areNames (h : areNames keys = true) : keys.Nodup := by
  obtain ⟨names, hnodup, rfl⟩ := areNames_iff.1 h
  refine List.pairwise_map.2 (hnodup.imp fun hne heq => hne ?_)
  cases heq
  rfl

end

theorem lookup_eq (key : Value) (entries : List (Value × Value)) :
    lookup key entries = (entries.find? fun e => e.1.same key).map (·.2) := rfl

theorem lookup_cons (key : Value) (e : Value × Value) (rest : List (Value × Value)) :
    lookup key (e :: rest) = if e.1.same key then some e.2 else lookup key rest := by
  rw [lookup_eq, List.find?_cons]
  by_cases h : e.1.same key = true
  · rw [if_pos h, h]
    rfl
  · rw [if_neg h, Bool.eq_false_iff.2 h]
    rfl

/-- An entry is found under its key. -/
theorem lookup_of_mem {entries : List (Value × Value)} (h : areNames (entries.map (·.1)) = true)
    {e : Value × Value} (he : e ∈ entries) : lookup e.1 entries = some e.2 := by
  obtain ⟨before, after, rfl⟩ := List.append_of_mem he
  obtain ⟨s, hs⟩ := exists_text_of_areNames h (List.mem_map_of_mem he)
  have hfound : ((before ++ e :: after).find? fun f => f.1.same e.1) = some e := by
    refine List.find?_eq_some_iff_append.2 ⟨?_, before, after, rfl, fun f hf => ?_⟩
    · rw [hs, same_text, beq_self_eq_true]
    · obtain ⟨t, ht⟩ := exists_text_of_areNames h
        (List.mem_map_of_mem (List.mem_append_left _ hf))
      have hnodup := nodup_of_areNames h
      rw [List.map_append, List.map_cons, List.nodup_append] at hnodup
      have hne := hnodup.2.2 f.1 (List.mem_map_of_mem hf) e.1 List.mem_cons_self
      rw [ht, hs] at hne
      have hst : t ≠ s := fun hts => hne (by rw [hts])
      rw [ht, hs, same_text]
      simpa using hst
  rw [lookup_eq, hfound]
  rfl

/-- What is found under a key is stored with it. -/
theorem mem_of_lookup {entries : List (Value × Value)} (h : areNames (entries.map (·.1)) = true)
    {s : String} {item : Value} (hfound : lookup (.text s) entries = some item) :
    (.text s, item) ∈ entries := by
  rw [lookup_eq] at hfound
  obtain ⟨e, he, rfl⟩ := Option.map_eq_some_iff.1 hfound
  have hmem := List.mem_of_find?_eq_some he
  have hsame := List.find?_some he
  obtain ⟨t, ht⟩ := exists_text_of_areNames h (List.mem_map_of_mem hmem)
  rw [ht, same_text, beq_iff_eq] at hsame
  rw [← hsame, ← ht]
  exact hmem

end Value

end Attest
