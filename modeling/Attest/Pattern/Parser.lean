import Attest.Fault
import Attest.Number.Written
import Attest.Pattern.Syntax
import Attest.Text.Class

/-!
# Reading patterns

From the source of a pattern to its tree. Reading fails on anything that the notation does not
allow: unclosed brackets, a repetition of nothing, an unknown escape, a reference to a group that is
not closed yet, options away from the start.

* `Pattern.compile`: the pattern of a source, or what is wrong with it.
-/

namespace Attest.Pattern

/-- What is left of the source, and what is known of the groups met so far. -/
structure Reader where
  rest : List Char
  groups : Nat
  /-- The widths of the groups that are closed. -/
  closed : List (Nat × Width)
  names : List (String × Nat)
  options : Options
  /-- The number of groups in front of the outermost look-behind that is open. -/
  behind : Option Nat
  /-- The greatest number of a group that a condition asks for. -/
  asked : Nat

abbrev Read := StateT Reader (Except Fault)

def fail {α : Type} : Read α := throw .badPattern

/-! ## Marks -/

/-- The next mark of a source: a character, or one behind a backslash. -/
inductive Mark where
  | plain (c : Char)
  | escaped (c : Char)
  deriving DecidableEq, Repr

def peek : Read (Option Mark) := do
  match (← get).rest with
  | [] => return none
  | '\\' :: c :: _ => return some (.escaped c)
  | c :: _ => return some (.plain c)

/-- Goes on with what is left, which must not be a backslash alone. -/
def goOn (rest : List Char) : Read Unit :=
  if rest == ['\\'] then fail else modify fun r => { r with rest }

/-- Passes over the next mark. -/
def skip : Read Unit := do
  match (← get).rest with
  | '\\' :: _ :: rest => goOn rest
  | _ :: rest => goOn rest
  | [] => return

/-- The next mark, which is passed over; there must be one. -/
def next : Read Mark := do
  match ← peek with
  | some m =>
    skip
    return m
  | none => fail

/-- Whether the next mark is a character; if so, passes over it. -/
def accept (c : Char) : Read Bool := do
  if (← peek) == some (.plain c) then
    skip
    return true
  else return false

/-- The characters in front that pass a test, up to a number of them. -/
def takeUpTo (test : Char → Bool) : (count : Nat) → Read (List Char)
  | 0 => return []
  | count + 1 => do
    match ← peek with
    | some (.plain c) =>
      if test c then
        skip
        return c :: (← takeUpTo test count)
      else return []
    | _ => return []

/-- All characters in front that pass a test. -/
def takeRun (test : Char → Bool) : Read (List Char) := do takeUpTo test (← get).rest.length

/-- The text up to a character, which is passed over; it must not be empty. -/
def takeUntil (close : Char) : Read String := do
  let rec go : (fuel : Nat) → Read (List Char)
    | 0 => fail
    | fuel + 1 => do
      match ← next with
      | .plain c => if c == close then return [] else return c :: (← go fuel)
      | .escaped c => return '\\' :: c :: (← go fuel)
  let name ← go ((← get).rest.length + 1)
  if name.isEmpty then fail else return String.ofList name

/-! ## Escapes -/

def isHex (c : Char) : Bool := c.isDigit || ('a' ≤ c && c ≤ 'f') || ('A' ≤ c && c ≤ 'F')

def isOctal (c : Char) : Bool := '0' ≤ c && c ≤ '7'

/-- The number that digits of a base denote. -/
def valueIn (base : Nat) (digits : List Char) : Nat :=
  digits.foldl (fun n c => base * n + Number.digitIn c) 0

/-- The number that exactly so many hexadecimal digits denote. -/
def hexCode (count : Nat) : Read Nat := do
  let digits ← takeUpTo isHex count
  if digits.length == count then return valueIn 16 digits else fail

/-- The named classes, by the letter of their escape. -/
def classOf? : Char → Option (CharClass × Bool)
  | 'd' => some (.digit, false)
  | 'D' => some (.digit, true)
  | 's' => some (.blank, false)
  | 'S' => some (.blank, true)
  | 'w' => some (.word, false)
  | 'W' => some (.word, true)
  | _ => none

/-- Control characters, by the letter of their escape. -/
def controlOf? (c : Char) : Option Nat :=
  [('a', 7), ('f', 12), ('n', 10), ('r', 13), ('t', 9), ('v', 11)].lookup c

/-- The number of an escape that means the same inside and outside a set, after its letter. -/
def commonEscape (c : Char) : Read Nat := do
  match controlOf? c with
  | some control => return control
  | none =>
    match c with
    | 'x' => hexCode 2
    | 'u' => hexCode 4
    | 'U' =>
      let code ← hexCode 8
      if code < 0x110000 then return code
      else if code < 0x80000000 then fail
      else throw (.noCharacter code)
    | _ => if c.isAlphanum then fail else return c.toNat

/-- A set under the options in force. -/
def mkSet (negated : Bool) (items : List SetItem) : Read Node := do
  let o := (← get).options
  return .oneOf ⟨negated, items.eraseDups, o.ignoreCase, o.ascii⟩

/-- Refuses a group that is not closed in front of the look-behind that is open, if one is. -/
def checkBehind (group : Nat) : Read Unit := do
  let r ← get
  match r.behind with
  | none => return
  | some groups => if (r.closed.lookup group).isNone || group > groups then fail

/-- A reference to a group that is already closed. -/
def reference (group : Nat) : Read Node := do
  let r ← get
  if (r.closed.lookup group).isNone then fail
  checkBehind group
  return .reference group r.options.ignoreCase r.options.ascii

/-- An octal escape or a reference, after its first digit. -/
def digitEscape (c : Char) : Read Node := do
  if c == '0' then mkSet false [.one (valueIn 8 (← takeUpTo isOctal 2))]
  else
    match ← takeUpTo Char.isDigit 1 with
    | [] => reference (valueIn 10 [c])
    | d :: _ =>
      let third ← if isOctal c && isOctal d then takeUpTo isOctal 1 else pure []
      if third.isEmpty then reference (valueIn 10 [c, d])
      else
        let code := valueIn 8 (c :: d :: third)
        if code > 255 then fail else mkSet false [.one code]

/-- An escape outside a set, after the backslash. -/
def escape (c : Char) : Read Node := do
  let o := (← get).options
  match classOf? c with
  | some (cls, negated) => mkSet false [.named cls negated]
  | none =>
    match c with
    | 'A' => return .anchor .textStart
    | 'Z' => return .anchor .textEnd
    | 'b' => return .anchor (.boundary false o.ascii)
    | 'B' => return .anchor (.boundary true o.ascii)
    | _ => if c.isDigit then digitEscape c else mkSet false [.one (← commonEscape c)]

/-- An escape inside a set, after the backslash. -/
def setEscape (c : Char) : Read SetItem := do
  match classOf? c with
  | some (cls, negated) => return .named cls negated
  | none =>
    if c == 'b' then return .one 8
    else if isOctal c then
      let code := valueIn 8 (c :: (← takeUpTo isOctal 2))
      if code > 255 then fail else return .one code
    else return .one (← commonEscape c)

/-! ## Sets -/

/-- One member of a set, ranges aside. -/
def setMember : Read SetItem := do
  match ← next with
  | .plain c => return .one c.toNat
  | .escaped c => setEscape c

/-- The members of a set up to the closing bracket, which the first member may be. -/
def setItems : (fuel : Nat) → (items : List SetItem) → Read (List SetItem)
  | 0, _ => fail
  | fuel + 1, items => do
    let closes ← if items.isEmpty then pure false else accept ']'
    if closes then return items
    let low ← setMember
    if ← accept '-' then
      if ← accept ']' then return items ++ [low, .one '-'.toNat]
      match low, ← setMember with
      | .one a, .one b => if b < a then fail else setItems fuel (items ++ [.span a b])
      | _, _ => fail
    else setItems fuel (items ++ [low])

/-! ## Repetitions -/

/-- One more than the greatest number of repetitions that can be asked for. -/
def repetitionLimit : Nat := 4294967295

/-- A bound of a repetition. -/
def bound (digits : List Char) : Read (Option Nat) := do
  if digits.isEmpty then return none
  if digits.length > Number.digitLimit then throw (.tooManyDigitsRead digits.length)
  let n := valueIn 10 digits
  if n ≥ repetitionLimit then throw .repetitionTooLarge
  return some n

/-- The bounds of a repetition in braces, behind the opening one; if what follows is not of that
form, nothing is passed over. -/
def bracedBounds : Read (Option (Nat × Option Nat)) := do
  let start := (← get).rest
  if start.head? == some '\x7d' then return none
  let low ← takeRun Char.isDigit
  let high ← if ← accept ',' then takeRun Char.isDigit else pure low
  if ← accept '\x7d' then
    let least := (← bound low).getD 0
    match ← bound high with
    | some most => if most < least then fail else return some (least, some most)
    | none => return some (least, none)
  else
    modify fun r => { r with rest := start }
    return none

/-- Whether a node may be repeated: it is neither a place nor a repetition itself. -/
def Node.isRepeatable : Node → Bool
  | .anchor _ | .repetition _ _ _ _ => false
  | _ => true

/-- A part of a sequence: a node, or the nodes of a group that only holds them together. -/
inductive Part where
  | node (n : Node)
  | group (nodes : List Node)

def Part.nodes : Part → List Node
  | .node n => [n]
  | .group nodes => nodes

/-- Repeats the last part, which comes first here. -/
def repeatLast (least : Nat) (most : Option Nat) : List Part → Read (List Part)
  | [] => fail
  | last :: before => do
    let body ← match last with
      | .node n => if n.isRepeatable then pure n else fail
      | .group nodes => pure (Node.ofList nodes)
    let manner ←
      if ← accept '?' then pure Manner.lazy
      else if ← accept '+' then pure Manner.possessive
      else pure Manner.greedy
    return .node (.repetition least most manner body) :: before

/-! ## Options -/

/-- Sets one option by its letter. -/
def Options.setLetter? (o : Options) (value : Bool) : Char → Option Options
  | 'i' => some { o with ignoreCase := value }
  | 'm' => some { o with multiline := value }
  | 's' => some { o with dotAll := value }
  | 'x' => some { o with verbose := value }
  | _ => none

/-- The letters that name options, and a mark that ends them. -/
def optionLetters (m : Mark) : (fuel : Nat) → Read (List Char × Char)
  | 0 => fail
  | fuel + 1 => do
    match m with
    | .escaped _ => fail
    | .plain c =>
      if "imsxatu".toList.contains c then
        let (letters, last) ← optionLetters (← next) fuel
        return (c :: letters, last)
      else if ")-:".toList.contains c then return ([], c)
      else fail

/-- Options with some turned on by their letters. Characters are those of all scripts or of one, and
not of both. -/
def turnOn (o : Options) (letters : List Char) : Read Options := do
  if letters.contains 'a' && letters.contains 'u' then fail
  return letters.foldl
    (fun o c =>
      match c with
      | 'a' => { o with ascii := true }
      | 'u' => { o with unicode := true }
      | 't' => { o with template := true }
      | c => (o.setLetter? true c).getD o)
    o

/-- What letters behind a question mark ask for. -/
inductive Asked where
  /-- The options of the whole pattern. -/
  | whole (options : Options)
  /-- The options of the group that follows. -/
  | inside (options : Options)

/-- The options that letters ask for, the first of which has been read. -/
def askedOptions (first : Mark) : Read Asked := do
  let fuel := (← get).rest.length + 2
  let outer := (← get).options
  let (letters, last) ← if first == .plain '-' then pure ([], '-') else optionLetters first fuel
  if letters.isEmpty && last != '-' then fail
  let on ← turnOn outer letters
  if last == ')' then return .whole on
  if letters.contains 't' then fail
  -- inside a group the last word on the characters counts
  let on := { on with
    ascii := letters.contains 'a' || (outer.ascii && !letters.contains 'u'), unicode := outer.unicode }
  if last == ':' then return .inside on
  let (off, last) ← optionLetters (← next) fuel
  if off.isEmpty || last != ':' || off.any letters.contains then fail
  match off.foldlM (fun o c => o.setLetter? false c) on with
  | some o => return .inside o
  | none => fail

/-! ## Choices -/

/-- Whether two nodes are the same where they begin alternatives; only simple ones can be. -/
def Node.sameStart : Node → Node → Bool
  | .any b, .any c => b == c
  | .oneOf s, .oneOf t => s == t
  | .anchor a, .anchor b => a == b
  | .reference g _ _, .reference h _ _ => g == h
  | _, _ => false

/-- What all alternatives begin with, and what is left of them. -/
def commonStart : (fuel : Nat) → List (List Node) → List Node × List (List Node)
  | 0, alternatives => ([], alternatives)
  | fuel + 1, alternatives =>
    match alternatives with
    | (first :: _) :: _ =>
      if alternatives.all fun nodes => nodes.head?.any first.sameStart then
        let (start, rest) := commonStart fuel (alternatives.map List.tail)
        (first :: start, rest)
      else ([], alternatives)
    | _ => ([], alternatives)

/-- The set that an alternative is, if it is one without negation. -/
def asSet? : List Node → Option CharSet
  | [.oneOf set] => if set.negated then none else some set
  | _ => none

/-- Alternatives as nodes one after the other: what they have in common stands in front of them, and
alternatives that are sets are one set. -/
def ofAlternatives (alternatives : List (List Node)) : List Node :=
  match alternatives with
  | [nodes] => nodes
  | _ =>
    let (start, rest) := commonStart ((alternatives.map List.length).foldl max 0) alternatives
    match rest.mapM asSet? with
    | some (set :: sets) =>
      let items := ((set :: sets).flatMap (·.items)).eraseDups
      start ++ [.oneOf { set with items }]
    | _ =>
      match (rest.map Node.ofList).reverse with
      | [] => start
      | last :: before => start ++ [before.foldl (fun choice n => .choice n choice) last]

/-! ## Groups and sequences -/

/-- The number of a group in front of a look at whether it has matched. -/
def conditionGroup (name : String) : Read Nat := do
  let r ← get
  if Text.isName name then
    match r.names.lookup name with
    | some group => return group
    | none => fail
  else
    match Number.readInt name with
    | .ok (.ofNat (n + 1)) =>
      modify fun r => { r with asked := max r.asked (n + 1) }
      return n + 1
    | _ => fail

/-- Begins a group with the next number, and perhaps a name. -/
def openGroup (name : Option String) : Read Nat := do
  let r ← get
  let group := r.groups + 1
  match name with
  | none => set { r with groups := group }
  | some n =>
    if (r.names.lookup n).isSome then fail
    set { r with groups := group, names := (n, group) :: r.names }
  return group

/-- The width of a closed group. -/
def Reader.widthOf (r : Reader) (group : Nat) : Width := (r.closed.lookup group).getD ⟨0, none⟩

/-- Ends a group. -/
def closeGroup (group : Nat) (body : Node) : Read Unit :=
  modify fun r => { r with closed := (group, body.width r.widthOf) :: r.closed }

/-- How many groups may stand inside of each other. -/
def nestingLimit : Nat := 488

mutual

/-- Alternatives up to a closing parenthesis or the end. -/
def readChoice : (fuel : Nat) → (depth : Nat) → (atStart : Bool) → Read (List Node)
  | 0, _, _ => fail
  | fuel + 1, depth, atStart => do
    if depth > nestingLimit then throw .endless
    return ofAlternatives (← readAlternatives fuel depth atStart)

def readAlternatives : (fuel : Nat) → (depth : Nat) → (atStart : Bool) → Read (List (List Node))
  | 0, _, _ => fail
  | fuel + 1, depth, atStart => do
    let first ← readParts fuel depth atStart []
    if ← accept '|' then return first :: (← readAlternatives fuel depth false) else return [first]

/-- Nodes up to a bar, a closing parenthesis or the end; the parts so far are in reverse. -/
def readParts : (fuel : Nat) → (depth : Nat) → (atStart : Bool) → (parts : List Part) →
    Read (List Node)
  | 0, _, _, _ => fail
  | fuel + 1, depth, atStart, parts => do
    let add (n : Node) : Read (List Node) := readParts fuel depth atStart (.node n :: parts)
    let repeated (least : Nat) (most : Option Nat) : Read (List Node) := do
      readParts fuel depth atStart (← repeatLast least most parts)
    match ← peek with
    | none | some (.plain '|') | some (.plain ')') => return parts.reverse.flatMap Part.nodes
    | some m =>
      skip
      let o := (← get).options
      match m with
      | .escaped c => add (← escape c)
      | .plain c =>
        if o.verbose && (c == ' ' || (9 ≤ c.toNat && c.toNat ≤ 13)) then
          readParts fuel depth atStart parts
        else if o.verbose && c == '#' then
          skipLine fuel
          readParts fuel depth atStart parts
        else
          match c with
          | '.' => add (.any o.dotAll)
          | '^' => add (.anchor (if o.multiline then .afterBreak else .lineStart))
          | '$' => add (.anchor (.lineEnd o.multiline))
          | '[' =>
            let negated ← accept '^'
            add (← mkSet negated (← setItems ((← get).rest.length + 1) []))
          | '*' => repeated 0 none
          | '+' => repeated 1 none
          | '?' => repeated 0 (some 1)
          | '\x7b' =>
            match ← bracedBounds with
            | some (least, most) => repeated least most
            | none => add (← mkSet false [.one c.toNat])
          | '(' =>
            match ← readGroup fuel depth (atStart && parts.isEmpty) with
            | some part => readParts fuel depth atStart (part :: parts)
            | none => readParts fuel depth atStart parts
          | _ => add (← mkSet false [.one c.toNat])

/-- Passes over what is left of a line. -/
def skipLine : (fuel : Nat) → Read Unit
  | 0 => return
  | fuel + 1 => do
    match ← peek with
    | none => return
    | some m =>
      skip
      if m == .plain '\n' then return else skipLine fuel

/-- Passes over a comment up to its closing parenthesis. -/
def skipComment : (fuel : Nat) → Read Unit
  | 0 => fail
  | fuel + 1 => do if (← next) == .plain ')' then return else skipComment fuel

/-- What an opening parenthesis begins; `none` for a comment or for options, which match nothing. -/
def readGroup : (fuel : Nat) → (depth : Nat) → (atStart : Bool) → Read (Option Part)
  | 0, _, _ => fail
  | fuel + 1, depth, atStart => do
    let captured (name : Option String) : Read (Option Part) := do
      let group ← openGroup name
      let body := Node.ofList (← readBody fuel depth)
      closeGroup group body
      return some (.node (.capture group body))
    if !(← accept '?') then captured none
    else
      let first ← next
      match first with
      | .plain ':' => return some (.group (← readBody fuel depth))
      | .plain '#' =>
        skipComment fuel
        return none
      | .plain '=' => return some (.node (.ahead false (Node.ofList (← readBody fuel depth))))
      | .plain '!' => return some (.node (.ahead true (Node.ofList (← readBody fuel depth))))
      | .plain '>' => return some (.node (.atomic (Node.ofList (← readBody fuel depth))))
      | .plain '<' =>
        let negated ← match ← next with
          | .plain '=' => pure false
          | .plain '!' => pure true
          | _ => fail
        let outer := (← get).behind
        modify fun r => { r with behind := some (outer.getD r.groups) }
        let body := Node.ofList (← readChoice fuel (depth + 1) false)
        modify fun r => { r with behind := outer }
        if !(← accept ')') then fail
        return some (.node (.behind negated (body.width (← get).widthOf).least body))
      | .plain 'P' =>
        match ← next with
        | .plain '<' =>
          let name ← takeUntil '>'
          if Text.isName name then captured (some name) else fail
        | .plain '=' =>
          match (← get).names.lookup (← takeUntil ')') with
          | some group => return some (.node (← reference group))
          | none => fail
        | _ => fail
      | .plain '(' =>
        let group ← conditionGroup (← takeUntil ')')
        checkBehind group
        let yes ← readParts fuel depth false []
        let no ← if ← accept '|' then readParts fuel depth false [] else pure []
        if ← accept ')' then
          return some (.node (.conditional group (Node.ofList yes) (Node.ofList no)))
        else fail
      | first =>
        match ← askedOptions first with
        | .whole options =>
          if !atStart then fail
          modify fun r => { r with options }
          return none
        | .inside options =>
          let outer := (← get).options
          modify fun r => { r with options }
          let body ← readBody fuel depth
          modify fun r => { r with options := outer }
          return some (.node (.seq .empty (Node.ofList body)))

/-- The body of a group, to its closing parenthesis. -/
def readBody : (fuel : Nat) → (depth : Nat) → Read (List Node)
  | 0, _ => fail
  | fuel + 1, depth => do
    let body ← readChoice fuel (depth + 1) false
    if ← accept ')' then return body else fail

end

/-- Whether a look-behind has one width, and not too large a one. -/
def hasOneWidth (groups : Nat → Width) : Node → Bool
  | .behind _ width body => body.width groups == ⟨width, some width⟩ && width ≤ repetitionLimit
  | _ => true

def isNoRepetition : Node → Bool
  | .repetition _ _ _ _ => false
  | _ => true

/-- The whole of a pattern. -/
def readAll (fuel : Nat) : Read Node := do
  goOn (← get).rest
  let root := Node.ofList (← readChoice fuel 0 true)
  let r ← get
  if r.options.ascii && r.options.unicode then throw .clashingOptions
  if !r.rest.isEmpty || r.asked > r.groups || !root.all (hasOneWidth r.widthOf) ||
      (r.options.template && !root.all isNoRepetition) then fail
  return root

end Attest.Pattern

namespace Attest

open Pattern in
/-- Reads a pattern from its source. -/
def Pattern.compile (source : String) (ignoreCase : Bool) : Except Fault Pattern := do
  let chars := source.toList
  let start : Reader :=
    ⟨chars, 0, [], [], { Options.default with ignoreCase }, none, 0⟩
  let (root, r) ← (readAll (8 * chars.length + 8)).run start
  return ⟨.text source, r.options, root, r.groups⟩

end Attest
