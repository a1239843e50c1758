/-!
# Patterns

The syntax tree of a text pattern: single characters, sequences, choices, repetitions, captured
groups, references to them, and conditions on the place. Characters stand here by their numbers, as
a pattern can also name numbers that no character of a text has.
-/

namespace Attest.Pattern

/-- Options that change how a part of a pattern matches. -/
structure Options where
  ignoreCase : Bool
  multiline : Bool
  dotAll : Bool
  verbose : Bool
  ascii : Bool
  /-- Whether characters of all scripts were asked for by name. -/
  unicode : Bool
  /-- Whether repetitions are forbidden. -/
  template : Bool
  deriving DecidableEq, Repr

def Options.default : Options := ⟨false, false, false, false, false, false, false⟩

/-- A class of characters with a name of its own. -/
inductive CharClass where
  | digit
  | blank
  | word
  deriving DecidableEq, Repr

/-- One member of a bracketed set. -/
inductive SetItem where
  | one (code : Nat)
  | span (first last : Nat)
  | named (cls : CharClass) (negated : Bool)
  deriving DecidableEq, Repr

/-- A test on a single character. -/
structure CharSet where
  negated : Bool
  items : List SetItem
  ignoreCase : Bool
  ascii : Bool
  deriving DecidableEq, Repr

/-- A condition on a place in the text. -/
inductive Anchor where
  | lineStart
  | lineEnd (everyLine : Bool)
  | afterBreak
  | textStart
  | textEnd
  | boundary (negated : Bool) (ascii : Bool)
  deriving DecidableEq, Repr

/-- In what order the numbers of repetitions are tried. -/
inductive Manner where
  | greedy
  | lazy
  /-- As many as there are, and each in the first way that it matches, without a second try. -/
  | possessive
  deriving DecidableEq, Repr

inductive Node where
  | empty
  /-- Any character; a line break only if `breaks`. -/
  | any (breaks : Bool)
  | oneOf (set : CharSet)
  | seq (first second : Node)
  | choice (first second : Node)
  | repetition (least : Nat) (most : Option Nat) (manner : Manner) (body : Node)
  | capture (group : Nat) (body : Node)
  | reference (group : Nat) (ignoreCase ascii : Bool)
  | anchor (a : Anchor)
  /-- The body matches here, or does not, without moving. -/
  | ahead (negated : Bool) (body : Node)
  /-- The body matches the `width` characters before this place, or does not. -/
  | behind (negated : Bool) (width : Nat) (body : Node)
  /-- The first way in which the body matches, without a second try. -/
  | atomic (body : Node)
  | conditional (group : Nat) (yes no : Node)
  deriving DecidableEq, Repr

/-- Nodes one after the other. -/
def Node.ofList : List Node → Node
  | [] => .empty
  | [n] => n
  | n :: rest => .seq n (Node.ofList rest)

/-! ## Widths -/

/-- The least and the greatest number of characters that a part can match. -/
structure Width where
  least : Nat
  most : Option Nat
  deriving DecidableEq, Repr

/-- The width of a pattern, where the groups have widths of their own. -/
def Node.width (groups : Nat → Width) : Node → Width
  | .empty | .anchor _ | .ahead _ _ | .behind _ _ _ => ⟨0, some 0⟩
  | .any _ | .oneOf _ => ⟨1, some 1⟩
  | .seq a b =>
    let x := a.width groups
    let y := b.width groups
    ⟨x.least + y.least, do return (← x.most) + (← y.most)⟩
  | .choice a b | .conditional _ a b =>
    let x := a.width groups
    let y := b.width groups
    ⟨min x.least y.least, do return max (← x.most) (← y.most)⟩
  | .repetition least most _ body =>
    let x := body.width groups
    ⟨least * x.least, match most, x.most with
      | some m, some n => some (m * n)
      | none, some 0 => some 0
      | _, _ => none⟩
  | .capture _ body | .atomic body => body.width groups
  | .reference group _ _ => groups group

/-- Whether a test holds of every node of a tree. -/
def Node.all (test : Node → Bool) (n : Node) : Bool :=
  test n && match n with
    | .empty | .any _ | .oneOf _ | .anchor _ | .reference _ _ _ => true
    | .seq a b | .choice a b | .conditional _ a b => a.all test && b.all test
    | .repetition _ _ _ a | .capture _ a | .ahead _ a | .behind _ _ a | .atomic a => a.all test

end Attest.Pattern

namespace Attest

/-- What a pattern is written in: a text, or bytes. -/
inductive Pattern.Source where
  | text (s : String)
  | bytes (bs : List UInt8)
  deriving DecidableEq, Repr

/-- A pattern ready to be matched: its source, the options in force, and its tree. A pattern that is
written in bytes is searched in bytes. -/
structure Pattern where
  source : Pattern.Source
  options : Pattern.Options
  root : Pattern.Node
  groups : Nat
  deriving Repr

end Attest
