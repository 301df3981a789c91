import FluentBuilder.Go.Token
import FluentBuilder.Go.Tree

/-!
# Rules — grammar rules that read syntax trees

A `Rule` reads children of a node from the front of a text. Rules are put behind each other with
`++` and tried one after the other with `<|>`; the first one that reads anything is taken. A rule
reads each token behind its gap, so line breaks between tokens are white space, except where
`onLine` asks for the next token on the same line.
-/

namespace FluentBuilder.Go

/-- A reader of children; nothing is read where the text does not follow the rule. -/
structure Rule where
  read : List Char → Option (List Part × List Char)

namespace Rule

/-- Read nothing. -/
def nothing : Rule := ⟨fun s => some ([], s)⟩

/-- Follow no text. -/
def never : Rule := ⟨fun _ => none⟩

/-- Read one rule behind the other. -/
def append (first second : Rule) : Rule :=
  ⟨fun s =>
    match first.read s with
    | none => none
    | some (a, rest) =>
      match second.read rest with
      | none => none
      | some (b, left) => some (a ++ b, left)⟩

instance : Append Rule := ⟨append⟩

instance : OrElse Rule where
  orElse first second := ⟨fun s =>
    match first.read s with
    | some found => some found
    | none => (second ()).read s⟩

/-- Read a rule if the text follows it. -/
def opt (rule : Rule) : Rule := rule <|> nothing

/-- Follow a rule at most once for each character of `bound`. -/
def repeatFrom (rule : Rule) : List Char → List Char → List Part × List Char
  | [], s => ([], s)
  | _ :: bound, s =>
    match rule.read s with
    | none => ([], s)
    | some (a, rest) =>
      let (b, left) := repeatFrom rule bound rest
      (a ++ b, left)

/-- Follow a rule as often as the text does. -/
def many (rule : Rule) : Rule := ⟨fun s => some (rule.repeatFrom s s)⟩

/-- Follow a rule one or more times, with another rule in between. -/
def sepBy (rule separator : Rule) : Rule := rule ++ (separator ++ rule).many

/-- Read a rule and continue with one that depends on what it read. -/
def andThen (rule : Rule) (next : List Part → Rule) : Rule :=
  ⟨fun s =>
    match rule.read s with
    | none => none
    | some (parts, rest) => (next parts).read rest⟩

/-- Read nothing and give back children. -/
def yield (parts : List Part) : Rule := ⟨fun s => some (parts, s)⟩

/-- Make what a rule reads the children of a node. -/
def node (kind : Kind) (rule : Rule) : Rule :=
  rule.andThen fun parts => yield [⟨none, .node kind parts⟩]

/-- Give what a rule reads a role. -/
def as (rule : Rule) (role : Role) : Rule :=
  rule.andThen fun parts => yield (parts.map fun part => ⟨some role, part.tree⟩)

/-- Keep what a rule reads if it satisfies a test. -/
def satisfying (rule : Rule) (test : List Part → Bool) : Rule :=
  rule.andThen fun parts => if test parts then yield parts else never

/-- Extend what was read at most once for each character of `bound`. -/
def extendFrom (step : List Part → Rule) :
    List Char → List Part → List Char → List Part × List Char
  | [], parts, s => (parts, s)
  | _ :: bound, parts, s =>
    match (step parts).read s with
    | none => (parts, s)
    | some (longer, rest) => extendFrom step bound longer rest

/-- Extend what a rule reads as often as the text allows; every step gets what was read so far
and gives back all of it. -/
def extend (rule : Rule) (step : List Part → Rule) : Rule :=
  rule.andThen fun parts => ⟨fun s => some (extendFrom step s parts s)⟩

/-- Go on only where the text ahead satisfies a test. -/
def ahead (test : List Char → Bool) : Rule := ⟨fun s => if test s then some ([], s) else none⟩

/-- Go on only if a rule does not follow. -/
def notAhead (rule : Rule) : Rule := ahead fun s => (rule.read s).isNone

/-- Go on only if the next token stands on the same line, where `ends` says that a line break
ends the construct. -/
def onLine (ends : Bool) : Rule := ahead fun s => !(ends && breakAhead s)

/-! ## Tokens -/

/-- Read a gap and a token without a kind. -/
def scanToken (scan : Scan) : Rule :=
  ⟨fun s =>
    let (gap, rest) := takeGap s
    (scan rest).map fun (text, left) => ([⟨none, .token gap text⟩], left)⟩

/-- Read a gap and a token with a kind. -/
def scanLeaf (kind : Kind) (scan : Scan) : Rule :=
  ⟨fun s =>
    let (gap, rest) := takeGap s
    (scan rest).map fun (text, left) => ([⟨none, .leaf kind gap text⟩], left)⟩

/-- A mark such as `(`. -/
def token (text : String) : Rule := scanToken (mark text.toList)

/-- The longest of several marks, if it is one of `wanted`. -/
def tokenOf (all wanted : List String) : Rule :=
  scanToken fun s =>
    match longest (all.map String.toList) s with
    | none => none
    | some (text, rest) =>
      if (wanted.map String.toList).contains text then some (text, rest) else none

/-- A word that satisfies a test. -/
def wordThat (test : List Char → Bool) : Scan := fun s =>
  match word s with
  | none => none
  | some (text, rest) => if test text then some (text, rest) else none

/-- A keyword. -/
def keyword (text : String) : Rule := scanToken (wordThat (· == text.toList))

/-- A keyword that is a leaf of its own. -/
def keywordLeaf (kind : Kind) (text : String) : Rule :=
  scanLeaf kind (wordThat (· == text.toList))

/-- An identifier: a word that is none of the keywords of the place. -/
def name (kind : Kind) (keywords : List String) : Rule :=
  scanLeaf kind (wordThat fun text => !(keywords.map String.toList).contains text)

/-- What ends a statement: a line break or a semicolon. -/
def terminator : Rule :=
  ⟨fun s =>
    match takeLineGap s with
    | (gap, c :: rest) =>
      if c == '\n' || c == ';' || c == '\x00' then some ([⟨none, .token gap [c]⟩], rest)
      else none
    | _ => none⟩

/-- The end of the text. -/
def endOfText : Rule :=
  ⟨fun s =>
    match takeGap s with
    | (gap, []) => some ([⟨none, .token gap []⟩], [])
    | _ => none⟩

end Rule

end FluentBuilder.Go
