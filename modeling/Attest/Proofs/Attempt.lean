/-!
# Attempts

Computations that end in a value or in trouble, one after the other and along lists.

* `mapM_of_mapM_eq_ok`, `mapM_after_mapM`: two rounds over a list, and when they are one.
-/

namespace Attest.Attempt

variable {ε α β γ : Type}

@[simp] theorem ok_bind (a : α) (f : α → Except ε β) :
    ((Except.ok a : Except ε α) >>= f) = f a := rfl

@[simp] theorem error_bind (e : ε) (f : α → Except ε β) :
    ((Except.error e : Except ε α) >>= f) = .error e := rfl

@[simp] theorem pure_eq_ok (a : α) : (pure a : Except ε α) = .ok a := rfl

theorem bind_eq_ok {x : Except ε α} {f : α → Except ε β} {b : β} :
    (x >>= f) = .ok b ↔ ∃ a, x = .ok a ∧ f a = .ok b := by
  cases x <;> simp

theorem bind_eq_error {x : Except ε α} {f : α → Except ε β} {e : ε} :
    (x >>= f) = .error e ↔ x = .error e ∨ ∃ a, x = .ok a ∧ f a = .error e := by
  cases x <;> simp

theorem toOption_eq_some {x : Except ε α} {a : α} : x.toOption = some a ↔ x = .ok a := by
  cases x <;> simp [Except.toOption]

theorem mapError_eq_ok {δ : Type} {f : ε → δ} {x : Except ε α} {a : α} :
    x.mapError f = .ok a ↔ x = .ok a := by
  constructor
  · intro h
    cases x with
    | ok b =>
      cases h
      rfl
    | error e => cases h
  · rintro rfl
    rfl

theorem exists_of_mapM_error {f : α → Except ε β} {e : ε} :
    ∀ {l : List α}, l.mapM f = .error e → ∃ a ∈ l, f a = .error e
  | [], h => by simp at h
  | a :: l, h => by
    rw [List.mapM_cons, bind_eq_error] at h
    rcases h with h | ⟨b, -, h⟩
    · exact ⟨a, List.mem_cons_self, h⟩
    · rw [bind_eq_error] at h
      rcases h with h | ⟨bs, -, h⟩
      · obtain ⟨a', ha', h'⟩ := exists_of_mapM_error h
        exact ⟨a', List.mem_cons_of_mem a ha', h'⟩
      · simp at h

/-- Where every attempt comes to a value, the round over the list is the list of the values. -/
theorem mapM_eq_ok {f : α → Except ε β} {g : α → β} :
    ∀ {l : List α}, (∀ a ∈ l, f a = .ok (g a)) → l.mapM f = .ok (l.map g)
  | [], _ => rfl
  | a :: l, h => by
    rw [List.mapM_cons, h a List.mem_cons_self,
      mapM_eq_ok fun b hb => h b (List.mem_cons_of_mem a hb)]
    rfl

theorem exists_of_mem_mapM {f : α → Except ε β} {b : β} :
    ∀ {l : List α} {bs : List β}, l.mapM f = .ok bs → b ∈ bs → ∃ a ∈ l, f a = .ok b
  | [], bs, h, hb => by
    simp only [List.mapM_nil, pure_eq_ok, Except.ok.injEq] at h
    rw [← h] at hb
    cases hb
  | a :: l, bs, h, hb => by
    rw [List.mapM_cons, bind_eq_ok] at h
    obtain ⟨b', hb', h⟩ := h
    obtain ⟨bs', hbs', h⟩ := bind_eq_ok.1 h
    cases h
    rcases List.mem_cons.1 hb with rfl | hb
    · exact ⟨a, List.mem_cons_self, hb'⟩
    · obtain ⟨a', ha', h'⟩ := exists_of_mem_mapM hbs' hb
      exact ⟨a', List.mem_cons_of_mem a ha', h'⟩

/-- A round over a list that comes to values does so at every element. -/
theorem exists_of_mapM_eq_ok {f : α → Except ε β} {bs : List β} :
    ∀ {l : List α}, l.mapM f = .ok bs → ∀ a ∈ l, ∃ b, f a = .ok b := by
  intro l
  induction l generalizing bs with
  | nil => intro _ a ha; cases ha
  | cons a l ih =>
    intro h a' ha'
    rw [List.mapM_cons, bind_eq_ok] at h
    obtain ⟨b, hb, h⟩ := h
    obtain ⟨bs', hbs, -⟩ := bind_eq_ok.1 h
    rcases List.mem_cons.1 ha' with rfl | ha'
    · exact ⟨b, hb⟩
    · exact ih hbs a' ha'

/-- Where the first of two rounds over a list comes to values, the second is one round of both
steps. -/
theorem mapM_of_mapM_eq_ok {f : α → Except ε β} {g : β → Except ε γ} :
    ∀ {l : List α} {bs : List β}, l.mapM f = .ok bs → bs.mapM g = l.mapM fun a => f a >>= g
  | [], bs, h => by
    cases h
    rfl
  | a :: l, bs, h => by
    rw [List.mapM_cons] at h
    obtain ⟨b, hb, h⟩ := bind_eq_ok.1 h
    obtain ⟨bs', hbs, h⟩ := bind_eq_ok.1 h
    cases h
    rw [List.mapM_cons, List.mapM_cons, hb, ok_bind, mapM_of_mapM_eq_ok hbs]

/-- A round over a list in which all trouble is alike, after a round in which some of it is met. -/
theorem mapM_after_mapM {f : α → Except ε β} {g : α → Except ε γ} {r : ε} {l : List α}
    (hfirst : ∀ a ∈ l, ∀ e, f a = .error e → g a = .error e)
    (h : ∀ a ∈ l, ∀ e, g a = .error e → e = r) :
    (l.mapM f >>= fun _ => l.mapM g) = l.mapM g := by
  cases hl : l.mapM f with
  | ok bs => rfl
  | error e =>
    obtain ⟨a, ha, hf⟩ := exists_of_mapM_error hl
    have hg := hfirst a ha e hf
    cases hsecond : l.mapM g with
    | ok cs =>
      obtain ⟨c, hc⟩ := exists_of_mapM_eq_ok hsecond a ha
      cases hg.symm.trans hc
    | error e' =>
      obtain ⟨a', ha', hg'⟩ := exists_of_mapM_error hsecond
      rw [error_bind, h a ha e hg, h a' ha' e' hg']

end Attest.Attempt
