import FluentBuilder.Go.Grammar.Statements

/-!
# Rules for source files — the grammar tied together

`Go.readTree` reads the syntax tree of a source text. The rules refer to each other through a
`Grammar`; `grammar n` is one in which they may do so `n` deep, and a text cannot nest deeper than
a few levels for each of its characters.
-/

namespace FluentBuilder.Go

namespace Grammar

variable (g : Grammar)

/-- The name of the package of a file. -/
def packageClause : Rule :=
  .node .packageClause (.keyword "package" ++ .name .packageIdentifier [])

/-- One imported package. -/
def importSpec : Rule :=
  let name : Rule :=
    .scanLeaf .dot (mark ['.']) <|> .keywordLeaf .blankIdentifier "_" <|>
    .name .packageIdentifier []
  .node .importSpec ((name.as .name).opt ++ string.as .path)

/-- A declaration of imported packages. -/
def importDeclaration : Rule :=
  let list : Rule :=
    .node .importSpecList
      (enclosed "(" ((importSpec.sepBy .terminator ++ Rule.terminator.opt : Rule).opt) ")")
  .node .importDeclaration (.keyword "import" ++ (list <|> importSpec))

/-- The parameters, the result and the body of a function; without a body it is declared only. -/
def functionRest : Rule := g.signature true ++ (.onLine true ++ g.block.as .body : Rule).opt

/-- The declaration of a function. -/
def functionDeclaration : Rule :=
  .node .functionDeclaration
    (.keyword "func" ++ (Rule.name .identifier []).as .name ++
      ((g.typeParameters []).as .typeParameters).opt ++ g.functionRest)

/-- What the declaration of a method begins with. -/
def methodHead : Rule :=
  .keyword "func" ++ g.parameterList.as .receiver ++
    (Rule.name .fieldIdentifier typeKeywords).as .name

/-- The declaration of a method. -/
def methodDeclaration : Rule := .node .methodDeclaration (g.methodHead ++ g.functionRest)

/-- A declaration that may stand outside of functions only. -/
def topDeclaration : Rule :=
  packageClause <|> importDeclaration <|> g.functionDeclaration <|> g.methodDeclaration

/-- A source file: declarations and statements, of which only the last one, and only if it may
stand outside of functions only, need not be ended. What begins like a method is no statement. -/
def sourceFile : Rule :=
  let item :=
    g.topDeclaration <|>
    .notAhead (g.methodHead ++ .token "(") ++ g.statement ["package", "import"]
  .node .sourceFile
    ((item ++ .terminator).many ++ g.topDeclaration.opt ++ .endOfText)

end Grammar

/-- The grammar with rules that refer to each other up to a depth. -/
def grammar : Nat → Grammar
  | 0 => ⟨fun _ => .never, fun _ _ => .never, fun _ => .never, .never, .never, fun _ => .never⟩
  | depth + 1 =>
    { type := fun ends => ⟨fun s => ((grammar depth).typeRule ends).read s⟩
      binary := fun place least => ⟨fun s => ((grammar depth).binaryRule place least).read s⟩
      unary := fun place => ⟨fun s => ((grammar depth).unaryRule place).read s⟩
      literal := ⟨fun s => (grammar depth).literalRule.read s⟩
      block := ⟨fun s => (grammar depth).blockRule.read s⟩
      statement := fun keywords => ⟨fun s => ((grammar depth).statementRule keywords).read s⟩ }

/-- A source text without the mark that some editors put at its beginning. -/
def withoutMark : List Char → List Char
  | [] => []
  | c :: rest => if c.toNat == 0xFEFF then rest else c :: rest

/-- The depth to which the rules may refer to each other for a text. -/
def depthFor (s : List Char) : Nat := 8 * s.length + 8

/-- The syntax tree of a source text, if the text follows the grammar. -/
def readTree (source : String) : Option Tree :=
  let s := withoutMark source.toList
  match (grammar (depthFor s)).sourceFile.read s with
  | some ([⟨_, t⟩], _) => some t
  | _ => none

end FluentBuilder.Go
