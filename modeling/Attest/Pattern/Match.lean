import Attest.Pattern.Syntax
import Attest.Text.Case
import Attest.Text.FoldTable

/-!
# Matching

A backtracking matcher. A node is run with a continuation that stands for the rest of the pattern,
so the first success in order of preference is found: choices try their first side first,
repetitions take as much (or as little) as they can, and an iteration that matched nothing is not
repeated.
-/

namespace Attest.Pattern

/-- A place in the text and the captured spans so far. -/
structure State where
  pos : Nat
  captures : List (Nat × Nat × Nat)

/-- The span of a group, if it has matched. -/
def State.captured? (s : State) (group : Nat) : Option (Nat × Nat) :=
  (s.captures.find? (·.1 == group)).map (·.2)

/-- Records the span of a group, over any earlier one. -/
def State.capture (s : State) (group first last : Nat) : State :=
  { s with captures := (group, first, last) :: s.captures.filter (·.1 != group) }

/-! ## Characters -/

/-- The small letter that stands for a character, over ASCII or over all letters. -/
def fold (ascii : Bool) (c : Char) : Char :=
  if ascii then (if c.toNat < 128 then c.toLower else c) else Text.foldChar c

/-- Whether two small letters count as one where case is ignored. -/
def sameLetter (ascii : Bool) (a b : Char) : Bool :=
  a == b || (!ascii && Text.sharedCapitals.any fun (small, others) =>
    small == a.toNat && others.contains b.toNat)

def CharClass.holds (cls : CharClass) (ascii : Bool) (c : Char) : Bool :=
  (!ascii || c.toNat < 128) && match cls with
    | .digit => Text.isDigit c
    | .blank => if ascii then c == ' ' || (9 ≤ c.toNat && c.toNat ≤ 13) else Text.isBlank c
    | .word => Text.isWord c

/-- The letters that count as one with a small letter where case is ignored, itself included. -/
def sameLetters (ascii : Bool) (c : Char) : List Char :=
  c :: (if ascii then []
    else ((Text.sharedCapitals.find? (·.1 == c.toNat)).map (·.2)).getD [] |>.map Char.ofNat)

/-- Whether a character is a member, as it is. -/
def SetItem.holds (ascii : Bool) (c : Char) : SetItem → Bool
  | .one code => c.toNat == code
  | .span first last => first ≤ c.toNat && c.toNat ≤ last
  | .named cls negated => cls.holds ascii c != negated

/-- Whether a small letter counts as one with the small letter of a number. -/
def isLetterOf (ascii : Bool) (c : Char) (code : Nat) : Bool :=
  code.isValidChar && sameLetter ascii (fold ascii (Char.ofNat code)) c

/-- The numbers of the basic plane. -/
def isBasic (code : Nat) : Bool := code < 0x10000

/-- Whether a small letter stands for a member of a set of several. Beyond the basic plane the
letter itself or its capital has to be a member. -/
def SetItem.holdsFolded (ascii : Bool) (c : Char) : SetItem → Bool
  | .one code => if isBasic code then isLetterOf ascii c code else c.toNat == code
  | .span first last =>
    let among (x : Char) : Bool := first ≤ x.toNat && x.toNat ≤ last
    let origins (x : Char) : List Char := if ascii then [x, x.toUpper] else Text.foldedTo x
    ((sameLetters ascii c).any fun x => (origins x).any fun y =>
        fold ascii y == x && among y && isBasic y.toNat) ||
      (!isBasic last && (among c || among (Text.capitalChar c)))
  | .named cls negated => cls.holds ascii c != negated

def CharSet.holds (set : CharSet) (c : Char) : Bool :=
  let member :=
    if set.ignoreCase then
      match set.items with
      | [.one code] => isLetterOf set.ascii (fold set.ascii c) code
      | items => items.any (·.holdsFolded set.ascii (fold set.ascii c))
    else set.items.any (·.holds set.ascii c)
  member != set.negated

/-! ## Places -/

def isWordAt (text : Array Char) (ascii : Bool) (i : Nat) : Bool :=
  match text[i]? with
  | some c => CharClass.word.holds ascii c
  | none => false

def Anchor.holds (text : Array Char) (pos : Nat) : Anchor → Bool
  | .lineStart | .textStart => pos == 0
  | .afterBreak => pos == 0 || text[pos - 1]? == some '\n'
  | .lineEnd everyLine =>
    pos == text.size || (text[pos]? == some '\n' && (everyLine || pos + 1 == text.size))
  | .textEnd => pos == text.size
  | .boundary negated ascii =>
    if text.size == 0 then false
    else
      let before := pos != 0 && isWordAt text ascii (pos - 1)
      let after := isWordAt text ascii pos
      (before != after) != negated

/-! ## Nodes -/

/-- A way to go on from a state to the end of the match. -/
abbrev Continuation := State → Option State

/-- Repeats a step. `count` iterations are done; `last` is where the last optional one began, and an
iteration that did not move from there ends the repetition. -/
def repeatStep (step : State → Continuation → Option State) (least : Nat) (most : Option Nat)
    (lazy : Bool) (k : Continuation) : (fuel count : Nat) → (last : Option Nat) → State → Option State
  | 0, _, _, s => k s
  | fuel + 1, count, last, s =>
    if count < least then
      step s (repeatStep step least most lazy k fuel (count + 1) last)
    else
      let mayRepeat := (match most with | some m => count < m | none => true) && last != some s.pos
      let more (_ : Unit) : Option State :=
        if mayRepeat then step s (repeatStep step least most lazy k fuel (count + 1) (some s.pos))
        else none
      if lazy then (k s).or (more ()) else (more ()).or (k s)

/-- Repeats a step that always ends in the same way, as often as it goes on. -/
def exhaust (step : State → Option State) (least : Nat) (most : Option Nat) :
    (fuel count : Nat) → (last : Option Nat) → State → Option State
  | 0, _, _, s => some s
  | fuel + 1, count, last, s =>
    if count < least then (step s).bind (exhaust step least most fuel (count + 1) last)
    else
      let mayRepeat := (match most with | some m => count < m | none => true) && last != some s.pos
      match if mayRepeat then step s else none with
      | some s' => exhaust step least most fuel (count + 1) (some s.pos) s'
      | none => some s

/-- Whether the characters of a captured span stand at a place. -/
def spanRepeats (text : Array Char) (ignoreCase ascii : Bool) (first last pos : Nat) : Bool :=
  (List.range (last - first)).all fun i =>
    match text[first + i]?, text[pos + i]? with
    | some a, some b => if ignoreCase then fold ascii a == fold ascii b else a == b
    | _, _ => false

/-- Runs a node from a state, then the continuation. -/
def Node.run (text : Array Char) : Node → State → Continuation → Option State
  | .empty, s, k => k s
  | .any breaks, s, k =>
    match text[s.pos]? with
    | some c => if breaks || c != '\n' then k { s with pos := s.pos + 1 } else none
    | none => none
  | .oneOf set, s, k =>
    match text[s.pos]? with
    | some c => if set.holds c then k { s with pos := s.pos + 1 } else none
    | none => none
  | .seq a b, s, k => a.run text s fun s => b.run text s k
  | .choice a b, s, k =>
    match a.run text s k with
    | some r => some r
    | none => b.run text s k
  | .repetition least most manner body, s, k =>
    let fuel := least + (text.size - s.pos) + 2
    if manner == .possessive then
      (exhaust (fun s => body.run text s some) least most fuel 0 none s).bind k
    else repeatStep (fun s k => body.run text s k) least most (manner == .lazy) k fuel 0 none s
  | .capture group body, s, k =>
    body.run text s fun s' => k (s'.capture group s.pos s'.pos)
  | .reference group ignoreCase ascii, s, k =>
    match s.captured? group with
    | some (first, last) =>
      if spanRepeats text ignoreCase ascii first last s.pos then
        k { s with pos := s.pos + (last - first) }
      else none
    | none => none
  | .anchor a, s, k => if a.holds text s.pos then k s else none
  | .ahead negated body, s, k =>
    match body.run text s some with
    | some s' => if negated then none else k { s' with pos := s.pos }
    | none => if negated then k s else none
  | .behind negated width body, s, k =>
    if s.pos < width then (if negated then k s else none)
    else
      match body.run text { s with pos := s.pos - width } some with
      | some s' => if negated then none else k { s' with pos := s.pos }
      | none => if negated then k s else none
  | .atomic body, s, k =>
    match body.run text s some with
    | some s' => k s'
    | none => none
  | .conditional group yes no, s, k =>
    match s.captured? group with
    | some _ => yes.run text s k
    | none => no.run text s k

end Attest.Pattern

namespace Attest

/-- Whether the pattern matches somewhere in the text. -/
def Pattern.search (p : Pattern) (text : String) : Bool :=
  let chars := text.toList.toArray
  (List.range (chars.size + 1)).any fun start => (p.root.run chars ⟨start, []⟩ some).isSome

end Attest
