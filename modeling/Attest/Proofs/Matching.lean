import Attest.Pattern.Match

/-!
# What patterns match

The matcher goes through a text from place to place and tries one way after the other. What it finds
does not depend on how it looks for it: a node takes a part of the text between what is before and
what is after it, and the matcher gets to the end of a pattern just if there is a part that the
pattern takes. This holds for patterns that do not refer to groups, do not look behind, do not cut
off ways, and repeat only a fixed number of times.

* `Node.Takes`: the part of a text that a node takes, between the rest of the text.
* `Node.isPlain`: the nodes for which this is all that matters.
* `Node.run_meets`: the matcher gets on just if there is such a part, and the continuation goes on
  behind it.
* `search_iff`: a pattern is found in a text just if it takes a part of it.
* `Node.Speaks`: what nodes take wherever they stand.
* `IsLine`, `search_from_start`: texts that are of a form up to their end.
-/

namespace Attest.Pattern

/-- What is taken from a text, between what is before it and what is after it. -/
abbrev Taking := List Char → List Char → List Char → Prop

/-- A number of times, one behind the other. -/
def Iterated (P : Taking) : Nat → Taking
  | 0 => fun _ part _ => part = []
  | n + 1 => fun done part rest =>
    ∃ first more, part = first ++ more ∧ P done first (more ++ rest) ∧
      Iterated P n (done ++ first) more rest

/-- What a node takes from a text, between what is before and what is after it. -/
def Node.Takes : Node → Taking
  | .empty => fun _ part _ => part = []
  | .any breaks => fun _ part _ => ∃ c, part = [c] ∧ (breaks || c != '\n') = true
  | .oneOf set => fun _ part _ => ∃ c, part = [c] ∧ set.holds c = true
  | .seq a b => fun done part rest =>
    ∃ first more, part = first ++ more ∧ a.Takes done first (more ++ rest) ∧
      b.Takes (done ++ first) more rest
  | .choice a b => fun done part rest => a.Takes done part rest ∨ b.Takes done part rest
  | .repetition least _ _ body => Iterated body.Takes least
  | .capture _ body => body.Takes
  | .anchor a => fun done part rest => part = [] ∧ a.holds (done ++ rest).toArray done.length = true
  | .ahead negated body => fun done part rest =>
    part = [] ∧ ((∃ seen more, rest = seen ++ more ∧ body.Takes done seen more) ↔ negated = false)
  | .reference _ _ _ | .behind _ _ _ | .atomic _ | .conditional _ _ _ => fun _ _ _ => False

theorem Node.takes_oneOf {set : CharSet} {done part rest : List Char} :
    (Node.oneOf set).Takes done part rest ↔ ∃ c, part = [c] ∧ set.holds c = true :=
  Iff.rfl

theorem Node.takes_seq {a b : Node} {done part rest : List Char} :
    (Node.seq a b).Takes done part rest ↔
    ∃ first more, part = first ++ more ∧ a.Takes done first (more ++ rest) ∧
    b.Takes (done ++ first) more rest :=
  Iff.rfl

theorem Node.takes_choice {a b : Node} {done part rest : List Char} :
    (Node.choice a b).Takes done part rest ↔ a.Takes done part rest ∨ b.Takes done part rest :=
  Iff.rfl

theorem Node.takes_repetition {least : Nat} {most : Option Nat} {manner : Manner} {body : Node}
    {done part rest : List Char} :
    (Node.repetition least most manner body).Takes done part rest ↔
    Iterated body.Takes least done part rest :=
  Iff.rfl

theorem Node.takes_anchor {a : Anchor} {done part rest : List Char} :
    (Node.anchor a).Takes done part rest ↔
    part = [] ∧ a.holds (done ++ rest).toArray done.length = true :=
  Iff.rfl

theorem Node.takes_ahead {negated : Bool} {body : Node} {done part rest : List Char} :
    (Node.ahead negated body).Takes done part rest ↔
      part = [] ∧ ((∃ seen more, rest = seen ++ more ∧ body.Takes done seen more) ↔
        negated = false) :=
  Iff.rfl

/-- Whether only the part that is taken matters: no references to groups and conditions on them, no
look behind, no ways that are cut off, and repetitions only a fixed number of times. -/
def Node.isPlain : Node → Bool
  | .empty | .any _ | .oneOf _ | .anchor _ => true
  | .seq a b | .choice a b => a.isPlain && b.isPlain
  | .repetition least most manner body => most == some least && manner == .greedy && body.isPlain
  | .capture _ body | .ahead _ body => body.isPlain
  | .reference _ _ _ | .behind _ _ _ | .atomic _ | .conditional _ _ _ => false

/-! ## Going on -/

/-- Something is taken, and then it goes on behind it. -/
def Then (P : Taking) (K : List Char → List Char → Prop) (done follow : List Char) : Prop :=
  ∃ part rest, follow = part ++ rest ∧ P done part rest ∧ K (done ++ part) rest

/-- A continuation gets to the end from just those places of a text of which something holds,
whatever has been captured on the way. -/
def Meets (text : List Char) (k : Continuation) (K : List Char → List Char → Prop) : Prop :=
  ∀ (done follow : List Char) (s : State), text = done ++ follow → s.pos = done.length →
    ((k s).isSome = true ↔ K done follow)

variable {text done follow : List Char} {k : Continuation}
    {K : List Char → List Char → Prop} {P Q : Taking}

/-- Nothing is taken. -/
theorem then_nil {condition : List Char → List Char → Prop} :
    Then (fun done part rest => part = [] ∧ condition done rest) K done follow ↔
      condition done follow ∧ K done follow := by
  constructor
  · rintro ⟨part, rest, rfl, ⟨rfl, hcondition⟩, hK⟩
    rw [List.append_nil] at hK
    exact ⟨hcondition, hK⟩
  · rintro ⟨hcondition, hK⟩
    exact ⟨[], follow, rfl, ⟨rfl, hcondition⟩, by rwa [List.append_nil]⟩

theorem then_empty : Then (fun _ part _ => part = []) K done follow ↔ K done follow := by
  have h := @then_nil done follow K fun _ _ => True
  simpa only [and_true, true_and] using h

/-- Two things are taken, one behind the other. -/
theorem then_then : Then P (Then Q K) done follow ↔ Then (fun done part rest =>
    ∃ first more, part = first ++ more ∧ P done first (more ++ rest) ∧ Q (done ++ first) more rest)
      K done follow := by
  constructor
  · rintro ⟨first, _, rfl, hP, more, rest, rfl, hQ, hK⟩
    exact ⟨first ++ more, rest, (List.append_assoc ..).symm, ⟨first, more, rfl, hP, hQ⟩,
      by rwa [← List.append_assoc]⟩
  · rintro ⟨_, rest, rfl, ⟨first, more, rfl, hP, hQ⟩, hK⟩
    exact ⟨first, more ++ rest, List.append_assoc .., hP, more, rest, rfl,
      hQ, by rwa [List.append_assoc]⟩

theorem getElem?_place (done follow : List Char) :
    (done ++ follow).toArray[done.length]? = follow.head? := by
  rw [List.getElem?_toArray, List.getElem?_append_right (Nat.le_refl _), Nat.sub_self,
    List.head?_eq_getElem?]

/-- One character is taken if it passes a test. -/
theorem single_meets (test : Char → Bool) (hk : Meets text k K) :
    Meets text (fun s => match text.toArray[s.pos]? with
      | some c => if test c then k { s with pos := s.pos + 1 } else none
      | none => none) (Then (fun _ part _ => ∃ c, part = [c] ∧ test c = true) K) := by
  intro done follow s htext hs
  subst htext
  simp only [hs, getElem?_place]
  cases follow with
  | nil =>
    simp only [List.head?_nil, Option.isSome_none, Bool.false_eq_true, false_iff]
    rintro ⟨part, rest, hnil, ⟨c, rfl, -⟩, -⟩
    cases hnil
  | cons c rest =>
    have hnext := hk (done ++ [c]) rest { s with pos := done.length + 1 } (by simp) (by simp)
    simp only [List.head?_cons]
    constructor
    · intro h
      split at h
      · next htest => exact ⟨[c], rest, rfl, ⟨c, rfl, htest⟩, hnext.1 h⟩
      · cases h
    · rintro ⟨_, _, hcons, ⟨d, rfl, htest⟩, hK⟩
      obtain ⟨rfl, rfl⟩ := List.cons.inj hcons
      rw [if_pos htest]
      exact hnext.2 hK

/-- A step that is repeated a fixed number of times takes as many parts. -/
theorem repeatStep_meets {step : State → Continuation → Option State} {n : Nat}
    (hstep : ∀ {k : Continuation} {K : List Char → List Char → Prop}, Meets text k K →
      Meets text (fun s => step s k) (Then P K)) (hk : Meets text k K) :
    ∀ (left count fuel : Nat) (last : Option Nat), count + left = n → left < fuel →
      Meets text (repeatStep step n (some n) false k fuel count last) (Then (Iterated P left) K)
  | 0, count, fuel + 1, last, hcount, _ => by
    intro done follow s htext hs
    have hfull : ¬ count < n := by omega
    have hmost : (decide (count < n) && last != some s.pos) = false := by
      rw [decide_eq_false hfull, Bool.false_and]
    have hstop : repeatStep step n (some n) false k (fuel + 1) count last s = k s := by
      rw [repeatStep, if_neg hfull]
      simp only [hmost, Bool.false_eq_true, ↓reduceIte, Option.none_or]
    rw [hstop]
    exact (hk done follow s htext hs).trans then_empty.symm
  | left + 1, count, fuel + 1, last, hcount, hfuel => by
    intro done follow s htext hs
    have hmore : count < n := by omega
    -- as long as repetitions are left the step has to be taken, so that stopping here is no way to
    -- go on
    have hrest : Meets text (repeatStep step n (some n) false k fuel (count + 1) last)
      (Then (Iterated P left) K) :=
      repeatStep_meets hstep hk left (count + 1) fuel last (by omega) (by omega)
    rw [repeatStep, if_pos hmore, hstep hrest done follow s htext hs]
    exact then_then

/-! ## Running -/

/-- The matcher gets on from a node just if there is a part that the node takes, behind which it
goes on. -/
theorem Node.run_meets :
    ∀ (n : Node) {k : Continuation} {K : List Char → List Char → Prop}, n.isPlain = true →
    Meets text k K → Meets text (fun s => n.run text.toArray s k) (Then n.Takes K)
  | .empty, k, K, _, hk => by
    intro done follow s htext hs
    exact (hk done follow s htext hs).trans then_empty.symm
  | .any breaks, _, _, _, hk => single_meets (fun c => breaks || c != '\n') hk
  | .oneOf set, _, _, _, hk => single_meets set.holds hk
  | .seq a b, k, K, hn, hk => by
    rw [isPlain, Bool.and_eq_true] at hn
    intro done follow s htext hs
    dsimp only
    rw [run, run_meets a hn.1 (run_meets b hn.2 hk) done follow s htext hs, then_then]
    rfl
  | .choice a b, k, K, hn, hk => by
    rw [isPlain, Bool.and_eq_true] at hn
    intro done follow s htext hs
    have ha := run_meets a hn.1 hk done follow s htext hs
    have hb := run_meets b hn.2 hk done follow s htext hs
    have heither : Then (Node.choice a b).Takes K done follow ↔
        Then a.Takes K done follow ∨ Then b.Takes K done follow := by
      simp only [Then, takes_choice]
      constructor
      · rintro ⟨part, rest, hfollow, ha | hb, hK⟩
        · exact .inl ⟨part, rest, hfollow, ha, hK⟩
        · exact .inr ⟨part, rest, hfollow, hb, hK⟩
      · rintro (⟨part, rest, hfollow, ha, hK⟩ | ⟨part, rest, hfollow, hb, hK⟩)
        · exact ⟨part, rest, hfollow, .inl ha, hK⟩
        · exact ⟨part, rest, hfollow, .inr hb, hK⟩
    dsimp only at ha hb ⊢
    rw [heither, ← ha, ← hb, run]
    cases a.run text.toArray s k <;> simp
  | .repetition least most manner body, k, K, hn, hk => by
    simp only [isPlain, Bool.and_eq_true, beq_iff_eq] at hn
    obtain ⟨⟨rfl, rfl⟩, hbody⟩ := hn
    intro done follow s htext hs
    have hpossessive : (Manner.greedy == Manner.possessive) = false := rfl
    have hlazy : (Manner.greedy == Manner.lazy) = false := rfl
    simp only [run, hpossessive, hlazy, Bool.false_eq_true, ↓reduceIte]
    exact repeatStep_meets (fun h => run_meets body hbody h) hk least 0 _ none
      (Nat.zero_add _) (by omega)
      done follow s htext hs
  | .capture group body, k, K, hn, hk => by
    intro done follow s htext hs
    -- a continuation is asked for every state at a place, so that what was captured makes no
    -- difference
    have hcaptured : Meets text (fun s' => k (s'.capture group s.pos s'.pos)) K :=
      fun done follow s' htext hs' =>
      hk done follow (s'.capture group s.pos s'.pos) htext hs'
    dsimp only
    rw [run]
    exact run_meets body hn hcaptured done follow s htext hs
  | .anchor a, k, K, _, hk => by
    intro done follow s htext hs
    have hhere := hk done follow s htext hs
    dsimp only
    rw [run, Takes, then_nil, ← hhere, ← htext, hs]
    cases a.holds text.toArray done.length <;> simp
  | .ahead negated body, k, K, hn, hk => by
    intro done follow s htext hs
    have hend : Meets text some (fun _ _ => True) := fun _ _ _ _ _ => by simp
    have hseen := run_meets body hn hend done follow s htext hs
    have hhere : ∀ s' : State, (k { s' with pos := s.pos }).isSome = true ↔
      K done follow := fun s' =>
      hk done follow { s' with pos := s.pos } htext hs
    have hself := hk done follow s htext hs
    simp only [Then, and_true] at hseen
    dsimp only
    rw [run, Takes, then_nil, ← hseen]
    cases body.run text.toArray s some with
    | none => cases negated <;> simp [hself]
    | some s' => cases negated <;> simp [hhere s']

/-- A pattern is found in a text just if it takes a part of it. -/
theorem search_iff {p : Pattern} (hp : p.root.isPlain = true) (text : String) :
    p.search text = true ↔
      ∃ before part after, text.toList = before ++ (part ++ after) ∧
      p.root.Takes before part after := by
  have hend : Meets text.toList some (fun _ _ => True) := fun _ _ _ _ _ => by simp
  have hrun := Node.run_meets p.root hp hend
  simp only [Pattern.search, List.any_eq_true, List.mem_range, List.size_toArray]
  constructor
  · rintro ⟨start, hstart, hfound⟩
    have hlength : (text.toList.take start).length = start := by
      rw [List.length_take]
      omega
    obtain ⟨part, after, hfollow, htakes, -⟩ :=
      (hrun (text.toList.take start) (text.toList.drop start) ⟨start, []⟩
      (List.take_append_drop ..).symm hlength.symm).1 hfound
    exact ⟨_, part, after, by rw [← hfollow, List.take_append_drop], htakes⟩
  · rintro ⟨before, part, after, htext, htakes⟩
    have hlength := congrArg List.length htext
    rw [List.length_append] at hlength
    exact ⟨before.length, by omega,
      (hrun before (part ++ after) ⟨before.length, []⟩ htext rfl).2
        ⟨part, after, rfl, htakes, trivial⟩⟩

/-! ## Nodes that look at nothing around them -/

variable {n a b : Node} {L M : List Char → Prop} {C : Char → Prop} {part rest : List Char}

/-- A node takes just the texts of which something holds, wherever they stand. -/
def Node.Speaks (n : Node) (L : List Char → Prop) :
    Prop := ∀ done part rest, n.Takes done part rest ↔ L part

theorem Node.Speaks.oneOf {set : CharSet} (h : ∀ c, set.holds c = true ↔ C c) :
    (Node.oneOf set).Speaks fun part => ∃ c, part = [c] ∧ C c := by
  intro done part rest
  simp only [takes_oneOf, h]

theorem Node.Speaks.congr (h : n.Speaks L) (hLM : ∀ part, L part ↔ M part) :
    n.Speaks M := fun done part rest =>
  (h done part rest).trans (hLM part)

theorem Node.Speaks.seq (ha : a.Speaks L) (hb : b.Speaks M) :
    (Node.seq a b).Speaks fun part => ∃ first more, part = first ++ more ∧ L first ∧ M more := by
  intro done part rest
  simp only [takes_seq, ha _ _ _, hb _ _ _]

theorem Node.Speaks.choice (ha : a.Speaks L) (hb : b.Speaks M) :
    (Node.choice a b).Speaks fun part => L part ∨ M part :=
  fun _ _ _ => or_congr (ha _ _ _) (hb _ _ _)

theorem Node.Speaks.empty : Node.empty.Speaks fun part => part = [] := fun _ _ _ => Iff.rfl

theorem Node.Speaks.capture (h : n.Speaks L) (group : Nat) : (Node.capture group n).Speaks L := h

/-- A set that is repeated takes as many of its characters. -/
theorem Node.Speaks.repetition (h : n.Speaks fun part => ∃ c, part = [c] ∧ C c) (count : Nat)
    (most : Option Nat) (manner : Manner) :
    (Node.repetition count most manner n).Speaks fun part => part.length = count ∧
    ∀ c ∈ part, C c := by
  intro done part rest
  rw [takes_repetition]
  induction count generalizing done part with
  | zero =>
    simp only [Iterated, List.length_eq_zero_iff]
    exact ⟨fun hnil => ⟨hnil, by simp [hnil]⟩, fun hnil => hnil.1⟩
  | succ count ih =>
    simp only [Iterated, h _ _ _, ih]
    constructor
    · rintro ⟨_, more, rfl, ⟨c, rfl, hc⟩, hlength, hmore⟩
      refine ⟨by simp [hlength], fun d hd => ?_⟩
      rcases List.mem_cons.1 hd with rfl | hd
      · exact hc
      · exact hmore d hd
    · rintro ⟨hlength, hall⟩
      cases part with
      | nil => cases hlength
      | cons c more =>
        exact ⟨[c], more, rfl, ⟨c, rfl, hall c List.mem_cons_self⟩, Nat.succ.inj hlength,
          fun d hd => hall d (List.mem_cons_of_mem c hd)⟩

/-- What is taken in front of a node that looks around. -/
theorem Node.Speaks.seq_takes (ha : a.Speaks L) : (Node.seq a b).Takes done part rest ↔
    ∃ first more, part = first ++ more ∧ L first ∧ b.Takes (done ++ first) more rest := by
  simp only [takes_seq, ha _ _ _]

/-! ## The ends of a text -/

/-- Nothing is left of a text, or a line break. -/
def AtEnd (rest : List Char) : Prop := rest = [] ∨ rest = ['\n']

/-- A text of a form, with or without a line break behind it. -/
def IsLine (L : List Char → Prop) (text : String) : Prop :=
  ∃ body tail, text.toList = body ++ tail ∧ AtEnd tail ∧ L body

/-- A text that does not end in a line break has no such one behind it. -/
theorem isLine_iff {text : String} (htext : text.toList.getLast? ≠ some '\n') :
    IsLine L text ↔ L text.toList := by
  constructor
  · rintro ⟨body, tail, hbody, rfl | rfl, hL⟩
    · rwa [hbody, List.append_nil]
    · rw [hbody, List.getLast?_concat] at htext
      exact absurd rfl htext
  · exact fun hL => ⟨_, [], (List.append_nil _).symm, .inl rfl, hL⟩

theorem holds_lineStart :
    Anchor.lineStart.holds (done ++ rest).toArray done.length = true ↔ done = [] := by
  rw [Anchor.holds, beq_iff_eq, List.length_eq_zero_iff]

theorem holds_lineEnd :
    (Anchor.lineEnd false).holds (done ++ rest).toArray done.length = true ↔ AtEnd rest := by
  simp only [Anchor.holds, getElem?_place, List.size_toArray, List.length_append, AtEnd,
    Bool.or_eq_true, beq_iff_eq, Bool.and_eq_true, Bool.false_eq_true, false_or]
  cases rest with
  | nil => simp
  | cons c rest => simp

/-- A pattern that stands at the beginning of a line is found only at the beginning of the text. -/
theorem search_from_start {p : Pattern} {body : Node}
    (hroot : p.root = .seq (.anchor .lineStart) body)
    (hbody : body.isPlain = true) (text : String) :
    p.search text = true ↔ ∃ part after, text.toList = part ++ after ∧
    body.Takes [] part after := by
  have hplain : p.root.isPlain = true := by
    rw [hroot]
    exact hbody
  rw [search_iff hplain, hroot]
  simp only [Node.takes_seq, Node.takes_anchor, holds_lineStart]
  constructor
  · rintro ⟨_, part, after, htext, first, more, rfl, ⟨rfl, rfl⟩, hmore⟩
    exact ⟨more, after, htext, hmore⟩
  · rintro ⟨part, after, htext, htakes⟩
    exact ⟨[], part, after, htext, [], part, rfl, ⟨rfl, rfl⟩, htakes⟩

end Attest.Pattern
