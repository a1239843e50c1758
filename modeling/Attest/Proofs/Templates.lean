import Attest.Proofs.Wording

/-!
# Templates

What a template comes to, from its left to its right: text without a dollar sign stays as it is, and
a name in braces behind one becomes the text of its variable. What a notice says is its template,
filled in this way from what the notice knows.

* `filled_plain`, `filled_hole`: the two kinds of text in a template.
* `Notice.said_eq`: what a notice says.
-/

namespace Attest

namespace Text

/-- The characters of a template, filled. -/
def filled (vars : String → Option String) (template : List Char) : List Char :=
  (pieces template).flatMap (·.fill vars)

theorem fillTemplate_eq (template : String) (vars : String → Option String) :
    fillTemplate template vars = String.ofList (filled vars template.toList) := rfl

variable {vars : String → Option String}

/-- Text without a dollar sign stays as it is. -/
theorem filled_plain {plain : List Char} (h : '$' ∉ plain) (rest : List Char) :
    filled vars (plain ++ rest) = plain ++ filled vars rest := by
  induction plain with
  | nil => rfl
  | cons c plain ih =>
    have hc : c ≠ '$' := fun hc => h (hc ▸ List.mem_cons_self)
    have hpieces : pieces (c :: (plain ++ rest)) = .literal [c] :: pieces (plain ++ rest) := by
      rw [pieces, if_neg hc]
    rw [List.cons_append, filled, hpieces, List.flatMap_cons]
    exact congrArg (c :: ·) (ih fun hmem => h (List.mem_cons_of_mem c hmem))

theorem filled_of_plain {plain : List Char} (h : '$' ∉ plain) : filled vars plain = plain := by
  have hnil : filled vars [] = [] := by simp [filled, pieces]
  have hplain : filled vars (plain ++ []) = plain ++ filled vars [] := filled_plain h []
  rwa [hnil, List.append_nil] at hplain

theorem fillTemplate_plain {template : String} (h : '$' ∉ template.toList) :
    fillTemplate template vars = template := by
  rw [fillTemplate_eq, filled_of_plain h, String.ofList_toList]

/-- A name in braces behind a dollar sign becomes the text of its variable, or stays where it has
none. -/
theorem filled_hole {c : Char} {name : List Char} (hc : isNameStart c = true)
    (hname : ∀ d ∈ name, isNameChar d = true) (rest : List Char) :
    filled vars ('$' :: '\x7b' :: c :: (name ++ '\x7d' :: rest)) =
      ((vars (String.ofList (c :: name))).map String.toList).getD
        ('$' :: '\x7b' :: c :: (name ++ ['\x7d'])) ++ filled vars rest := by
  have hbrace : isNameChar '\x7d' = false := by decide
  have htake : (name ++ '\x7d' :: rest).takeWhile isNameChar = name := by
    rw [List.takeWhile_append_of_pos hname, List.takeWhile_cons_of_neg
      (by simp [hbrace]), List.append_nil]
  have hdrop : (name ++ '\x7d' :: rest).dropWhile isNameChar = '\x7d' :: rest := by
    rw [List.dropWhile_append_of_pos hname, List.dropWhile_cons_of_neg (by simp [hbrace])]
  have hleading : leadingName? (c :: (name ++ '\x7d' :: rest)) =
    some (c :: name, '\x7d' :: rest) := by
    rw [leadingName?, if_pos hc, htake, hdrop]
  have hopened : afterDollar ('\x7b' :: c :: (name ++ '\x7d' :: rest)) =
      (.hole (c :: name) ('$' :: '\x7b' :: c :: (name ++ ['\x7d'])), rest) := by
    simp only [afterDollar, hleading]
    rfl
  rw [filled, pieces, if_pos rfl, hopened]
  rfl

end Text

namespace Notice

/-- The text of a variable of the template, for a failure with `count` parts. -/
def textOf? (n : Notice) (count : Nat) (name : String) : Option String :=
  ((n.bindings count).toOption.bind fun bindings => bindings.lookup name).bind fun v =>
    v.format.toOption

theorem lookup_formatted {bindings : List (String × Value)}
    {texts : List (String × String)} (name : String)
    (h : (bindings.mapM fun (name, v) => do return (name, ← v.format)) = Except.ok
      (ε := Fault) texts) :
    texts.lookup name = (bindings.lookup name).bind fun v => v.format.toOption := by
  induction bindings generalizing texts with
  | nil =>
    cases h
    rfl
  | cons b bindings ih =>
    rw [List.mapM_cons] at h
    obtain ⟨first, hfirst, h⟩ := Attempt.bind_eq_ok.1 h
    obtain ⟨more, hmore, h⟩ := Attempt.bind_eq_ok.1 h
    obtain ⟨text, htext, hfirst⟩ := Attempt.bind_eq_ok.1 hfirst
    cases h
    cases hfirst
    obtain ⟨other, v⟩ := b
    simp only [List.lookup_cons]
    split
    · simp only [Option.bind_some]
      exact (Attempt.toOption_eq_some.2 htext).symm
    · exact ih hmore

theorem bindings_of_worded {n : Notice} {count : Nat} {said : String}
    (h : n.worded count = .ok said) :
    ∃ path, n.bindings count = .ok (("path", .text path) :: ("count", .int count) :: n.named) := by
  obtain ⟨bindings, hbindings, -⟩ := Attempt.bind_eq_ok.1 h
  obtain ⟨path, hpath, -⟩ := Attempt.bind_eq_ok.1 hbindings
  exact ⟨path, by rw [Notice.bindings, hpath]; rfl⟩

/-- What a context has under other names than those that a notice binds itself can be named. -/
theorem lookup_named (n : Notice) {name : String} (hpath : name ≠ "path")
    (hcount : name ≠ "count") :
    n.named.lookup name = n.get? name := by
  have hown : isOwnName name = false := by simp [isOwnName, hpath, hcount]
  unfold named get?
  induction n.context with
  | nil => rfl
  | cons b rest ih =>
    obtain ⟨other, v⟩ := b
    rw [List.filter_cons, List.lookup_cons]
    cases hother : name == other with
    | true =>
      rw [beq_iff_eq] at hother
      subst hother
      simp [hown]
    | false =>
      split
      · rw [List.lookup_cons, hother]
        exact ih
      · exact ih

/-- A variable that is neither the trail nor the number of parts is from the context. -/
theorem textOf?_of_worded {n : Notice} {count : Nat} {name said : String}
    (h : n.worded count = .ok said) (hpath : name ≠ "path") (hcount : name ≠ "count") :
    n.textOf? count name = (n.get? name).bind fun v => v.format.toOption := by
  obtain ⟨path, hbindings⟩ := bindings_of_worded h
  have hpath' : (name == "path") = false := by simpa using hpath
  have hcount' : (name == "count") = false := by simpa using hcount
  rw [textOf?, hbindings]
  simp only [Except.toOption, Option.bind_some, List.lookup_cons, hpath', hcount',
    n.lookup_named hpath hcount]

theorem textOf?_eq {n : Notice} {count : Nat} {name : String} (hn : n.isWritable = true)
    (hc : (Value.int count).isWritable = true) (hpath : name ≠ "path") (hcount : name ≠ "count") :
    n.textOf? count name = (n.get? name).bind fun v => v.format.toOption :=
  textOf?_of_worded (worded_eq hn hc) hpath hcount

/-- What a notice says is its template, filled with the texts of its variables. -/
theorem said_of_worded {n : Notice} {count : Nat} {template said : String}
    (h : n.worded count = .ok said) (ht : n.template.asText? = some template) :
    said = Text.fillTemplate template (n.textOf? count) := by
  obtain ⟨bindings, hbindings, hrender⟩ := Attempt.bind_eq_ok.1 h
  obtain ⟨texts, htexts, hrender⟩ := Attempt.bind_eq_ok.1 hrender
  have htemplate : n.template.templateText = .ok template := by
    simp only [Value.templateText, ht]
  rw [htemplate] at hrender
  have hvars : (fun name => texts.lookup name) = n.textOf? count := by
    funext name
    rw [lookup_formatted name htexts, textOf?, hbindings]
    rfl
  rw [← hvars]
  exact (Except.ok.inj hrender).symm

theorem said_of_asText? {n : Notice} {count : Nat} {template : String} (hn : n.isWritable = true)
    (hc : (Value.int count).isWritable = true) (ht : n.template.asText? = some template) :
    n.said count = Text.fillTemplate template (n.textOf? count) :=
  said_of_worded (worded_eq hn hc) ht

theorem said_eq {n : Notice} {count : Nat} {template : String} (hn : n.isWritable = true)
    (hc : (Value.int count).isWritable = true) (ht : n.template = .text template) :
    n.said count = Text.fillTemplate template (n.textOf? count) :=
  said_of_asText? hn hc (congrArg Value.asText? ht)

end Notice

end Attest
