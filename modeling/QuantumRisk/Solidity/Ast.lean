import QuantumRisk.Ast.WellFormed
import QuantumRisk.Solidity.Grammar

/-!
# From parse trees to syntax graphs

Each nonterminal has its own way to become a record. Parts are built before the record that holds
them, so a record's number is its place in the order of completion. A parse tree that recovery has
mended may lack parts; building stops at the first part that is needed and not there. Only
well-formed records can be completed.

The places of records are kept beside them and are put into the graph at the end, behind everything
else. So a graph with places is the graph without them and one more field in each record.
-/

namespace QuantumRisk.Solidity

open QuantumRisk.Grammar
open QuantumRisk.Ast (Datum Fields Graph)

/-- Why a parse tree could not be turned into a syntax graph. -/
inductive BuildFault where
  | unrecognizedExpression
  | expectedComma
  /-- A part is missing, and this was to be asked of it. -/
  | missing (what : String)
  /-- There are several parts where one is meant, and this was to be asked of it. -/
  | several (what : String)
  /-- A node without any parts was to be counted. -/
  | noParts
  /-- A node without any parts was to be entered. -/
  | noFirstPart
  /-- No form of declaration is there. -/
  | undeclared
  /-- The tree is deeper than its height. -/
  | tooDeep
  /-- Whatever another builder may come to. -/
  | other (kind message : String)
  deriving DecidableEq, Repr

namespace BuildFault

/-- The family of a fault as shown in messages. -/
def kind : BuildFault → String
  | .unrecognizedExpression => "Exception"
  | .expectedComma => "Exception"
  | .missing _ => "AttributeError"
  | .several _ => "AttributeError"
  | .noParts => "TypeError"
  | .noFirstPart => "TypeError"
  | .undeclared => "UnboundLocalError"
  | .tooDeep => "RecursionError"
  | .other kind _ => kind

def message : BuildFault → String
  | .unrecognizedExpression => "unrecognized expression"
  | .expectedComma => "expected comma"
  | .missing what => "'NoneType' object has no attribute '" ++ what ++ "'"
  | .several what => "'list' object has no attribute '" ++ what ++ "'"
  | .noParts => "object of type 'NoneType' has no len()"
  | .noFirstPart => "'NoneType' object is not subscriptable"
  | .undeclared =>
    "cannot access local variable 'variables' where it is not associated with a value"
  | .tooDeep => "maximum recursion depth exceeded"
  | .other _ message => message

end BuildFault

/-- Where a record begins and ends in the source; the end is missing if nothing was read. -/
structure Span where
  start : Token
  stop : Option Token

/-- A record that is complete. -/
structure Record where
  fields : Fields
  wellFormed : fields.WellFormed

/-- The records so far and their spans. -/
structure Records where
  complete : Array Record := #[]
  spans : Array Span := #[]

abbrev Build := ExceptT BuildFault (StateM Records)

namespace Build

/-- Complete a record for the tree `t`. -/
def record (t : Tree) (type : String) (fields : Fields)
    (wellFormed : Fields.WellFormed (("type", .str type) :: fields) := by
      constructor <;> simp [Fields.get, Fields.get?]) : Build Datum := do
  let span : Span := match t with
    | .leaf token => ⟨token, some token⟩
    | .node _ start stop _ => ⟨start, stop⟩
  modifyGet fun s ↦ (.record s.complete.size,
    { complete := s.complete.push ⟨_, wellFormed⟩, spans := s.spans.push span })

/-- A record that is already complete. -/
def recordAt (id : Nat) : Build Record :=
  return (← get).complete.getD id ⟨[], Fields.wellFormed_nil⟩

end Build

/-! ## Parts of a parse tree -/

namespace Part

/-- The first part of a kind. -/
def one? (t : Tree) (n : Nonterminal) : Option Tree := t.children.find? (·.isNode n.number)

/-- All parts of a kind. -/
def all (t : Tree) (n : Nonterminal) : List Tree := t.children.filter (·.isNode n.number)

/-- Is this word among the parts? -/
def has (t : Tree) (text : String) : Bool := t.children.any (·.isLeaf (word text))

/-- A part that has to be there, so that `what` can be asked of it. -/
def need (part : Option Tree) (what : String) : Build Tree :=
  match part with
  | some t => pure t
  | none => throw (.missing what)

/-- The text of a part that has to be there. -/
def textOf (part : Option Tree) : Build String := do return (← need part "getText").text

/-- The text of a part, if it is there. -/
def textOf? (part : Option Tree) : Datum :=
  match part with
  | some t => .str t.text
  | none => .null

@[simp]
theorem isTextOrNull_textOf? (part : Option Tree) : (textOf? part).isTextOrNull := by
  cases part <;> rfl

/-- The number of parts, of which there has to be one. -/
def count (t : Tree) : Build Nat :=
  if t.children.isEmpty then throw .noParts else pure t.children.length

/-- The part at an index, if there are so many. -/
def index (t : Tree) (i : Nat) : Build (Option Tree) := do
  let _ ← count t
  return t.children[i]?

/-- The text of the part at an index. -/
def textAt (t : Tree) (i : Nat) : Build String := do textOf (← index t i)

/-- Items with commas between them, any of which may be left out. -/
def betweenCommas (parts : List Tree) : Build (List (Option Tree)) :=
  if parts.isEmpty then pure []
  else go parts true
where
  /-- `gap` says that an item may stand here. -/
  go : List Tree → Bool → Build (List (Option Tree))
    | [], gap => pure (if gap then [none] else [])
    | t :: rest, true => do
      if t.text == "," then return none :: (← go rest true)
      return some t :: (← go rest false)
    | t :: rest, false => if t.text == "," then go rest true else throw .expectedComma

/-- All parts but the first and the last. -/
def inner (t : Tree) : List Tree := (t.children.drop 1).dropLast

end Part

open Build QuantumRisk.Solidity.Part

/-- The text without its first and last character. -/
def unquoted (s : String) : String := String.ofList (s.toList.drop 1).dropLast

/-- The keyword among `texts` that is there, first come first served. -/
def keywordAmong (t : Tree) (texts : List String) : Option String := texts.find? (has t)

def optText : Option String → Datum
  | some s => .str s
  | none => .null

namespace Build

-- Building goes from a tree to its parts through `visit`.
variable (visit : Tree → Build Datum)

/-- A part, or what stands for a missing one. -/
def visitOr (missing : Datum) : Option Tree → Build Datum
  | some t => visit t
  | none => pure missing

/-- A part that may be missing. -/
def visit? (part : Option Tree) : Build Datum := visitOr visit .null part

def visitAll (ts : List Tree) : Build Datum := return .list (← ts.mapM visit)

/-- All parts are built, the last one is the result. -/
def visitLast (t : Tree) : Build Datum :=
  t.children.foldlM (fun _ c ↦ visit c) .null

def only (t : Tree) (n : Nonterminal) : Build Datum := visit? visit (one? t n)

def every (t : Tree) (n : Nonterminal) : Build Datum := visitAll visit (all t n)

def at? (t : Tree) (i : Nat) : Build Datum := do visit? visit (← index t i)

/-! ## Declarations -/

/-- The arguments of a call: those given by position, or by name. -/
def callArguments (args : Option Tree) : Build (Datum × Datum) := do
  let args ← need args "expressionList"
  match one? args .expressionList, one? args .nameValueList with
  | some list, _ => return (← every visit list .expression, .list [])
  | none, some list =>
    let pairs ← (all list .nameValue).mapM fun pair ↦ do
      let v ← only visit pair .expression
      let k ← textOf (one? pair .identifier)
      return (v, Datum.str k)
    return (.list (pairs.map (·.1)), .list (pairs.map (·.2)))
  | none, none => return (.list [], .list [])

def functionName (t : Tree) : Build (String × String) := do
  let d ← need (one? t .functionDescriptor) "ConstructorKeyword"
  match keywordAmong d ["constructor", "fallback", "receive"], one? d .identifier with
  | some k, _ => return (k, k)
  | none, some i => return (i.text, "")
  | none, none => return (t.text, "")

def functionDefinition (t : Tree) : Build Datum := do
  let (name, special) ← functionName t
  let parameters ← only visit t .parameterList
  let returns ← visitOr visit (.list []) (one? t .returnParameters)
  let body ← visitOr visit (.list []) (one? t .block)
  let list ← need (one? t .modifierList) "modifierInvocation"
  let modifiers ← every visit list .modifierInvocation
  let visibility := (keywordAmong list ["external", "internal", "public", "private"]).getD "default"
  record t "FunctionDefinition" [("name", .str name), ("parameters", parameters),
    ("returnParameters", returns), ("body", body), ("visibility", .str visibility),
    ("modifiers", modifiers), ("isConstructor", .bool (special == "constructor")),
    ("isFallback", .bool (special == "fallback")), ("isReceive", .bool (special == "receive")),
    ("stateMutability", textOf? (one? list .stateMutability))]

def stateVariable (t : Tree) : Build Datum := do
  let type ← only visit t .typeName
  let name ← textOf (one? t .identifier)
  let expression ← only visit t .expression
  let visibility := (keywordAmong t ["internal", "public", "private"]).getD "default"
  let declared ← record t "VariableDeclaration" [("typeName", type), ("name", .str name),
    ("expression", expression), ("visibility", .str visibility), ("isStateVar", .bool true),
    ("isDeclaredConst", .bool (has t "constant")), ("isIndexed", .bool false)]
  record t "StateVariableDeclaration"
    [("variables", .list [declared]), ("initialValue", expression)]

def eventParameters (t : Tree) : Build Datum := do
  let parameters ← (all t .eventParameter).mapM fun p ↦ do
    let type ← only visit p .typeName
    record t "VariableDeclaration" [("typeName", type), ("name", textOf? (one? p .identifier)),
      ("isStateVar", .bool false), ("isIndexed", .bool (has p "indexed"))]
  record t "ParameterList" [("parameters", .list parameters)]

def modifierInvocation (t : Tree) : Build Datum := do
  let arguments ← match one? t .expressionList with
    | some list => every visit list .expression
    | none => pure .null
  let name ← textOf (one? t .identifier)
  record t "ModifierInvocation" [("name", .str name), ("arguments", arguments)]

def importDirective (t : Tree) : Build Datum := do
  let path ← textOf (one? t .importPath)
  record t "ImportDirective" [("path", .str path)]

def contractDefinition (t : Tree) : Build Datum := do
  let name ← textOf (one? t .identifier)
  let bases ← every visit t .inheritanceSpecifier
  let parts ← every visit t .contractPart
  let kind ← textAt t 0
  record t "ContractDefinition" [("name", .str name), ("baseContracts", bases),
    ("subNodes", parts), ("kind", .str kind)]

def declarationPart (t : Tree) : Nonterminal → Build Datum
  | .sourceUnit => do
    if t.children.isEmpty then throw .noFirstPart
    let children ← visitAll visit t.children.dropLast
    record t "SourceUnit" [("children", children)]
  | .pragmaDirective => do
    let name ← textOf (one? t .pragmaName)
    let value ← textOf (one? t .pragmaValue)
    record t "PragmaDirective" [("name", .str name), ("value", .str value)]
  | .importDirective => importDirective t
  | .contractDefinition => contractDefinition visit t
  | .inheritanceSpecifier => do
    let base ← only visit t .userDefinedTypeName
    let arguments ← only visit t .expressionList
    record t "InheritanceSpecifier" [("baseName", base), ("arguments", arguments)]
  | .contractPart => do
    if t.children.isEmpty then throw .noFirstPart
    at? visit t 0
  | .stateVariableDeclaration => stateVariable visit t
  | .fileLevelConstant => do
    let name ← only visit t .identifier
    record t "FileLevelConstant" [("name", name), ("ConstantKeyword", .null)]
  | .customErrorDefinition => do
    let name ← only visit t .identifier
    let parameters ← only visit t .parameterList
    record t "CustomErrorDefinition" [("name", name), ("parameterList", parameters)]
  | .typeDefinition => do
    let base ← only visit t .elementaryTypeName
    record t "TypeDefinition" [("elementaryTypeName", base)]
  | .usingForDeclaration => do
    let type ← at? visit t 3
    let library ← textOf (one? t .identifier)
    record t "UsingForDeclaration" [("typeName", type), ("libraryName", .str library)]
  | .structDefinition => do
    let name ← textOf (one? t .identifier)
    let members ← every visit t .variableDeclaration
    record t "StructDefinition" [("name", .str name), ("members", members)]
  | .modifierDefinition => do
    let parameters ← visitOr visit (.list []) (one? t .parameterList)
    let name ← textOf (one? t .identifier)
    let body ← only visit t .block
    record t "ModifierDefinition"
      [("name", .str name), ("parameters", parameters), ("body", body)]
  | .modifierInvocation => modifierInvocation visit t
  | .functionDefinition => functionDefinition visit t
  | .returnParameters => only visit t .parameterList
  | .eventDefinition => do
    let name ← textOf (one? t .identifier)
    let parameters ← only visit t .eventParameterList
    record t "EventDefinition" [("name", .str name), ("parameters", parameters),
      ("isAnonymous", .bool (has t "anonymous"))]
  | .enumValue => do
    let name ← textOf (one? t .identifier)
    record t "EnumValue" [("name", .str name)]
  | .enumDefinition => do
    let name ← textOf (one? t .identifier)
    let members ← every visit t .enumValue
    record t "EnumDefinition" [("name", .str name), ("members", members)]
  | .parameterList => do
    let parameters ← every visit t .parameter
    record t "ParameterList" [("parameters", parameters)]
  | .parameter => do
    let type ← only visit t .typeName
    record t "Parameter" [("typeName", type), ("name", textOf? (one? t .identifier)),
      ("storageLocation", textOf? (one? t .storageLocation)), ("isStateVar", .bool false),
      ("isIndexed", .bool false)]
  | .eventParameterList => eventParameters visit t
  | .functionTypeParameter => do
    let type ← only visit t .typeName
    record t "VariableDeclaration" [("typeName", type), ("name", .null),
      ("storageLocation", textOf? (one? t .storageLocation)), ("isStateVar", .bool false),
      ("isIndexed", .bool false)]
  | .variableDeclaration => do
    let type ← only visit t .typeName
    let name ← textOf (one? t .identifier)
    record t "VariableDeclaration" [("typeName", type), ("name", .str name),
      ("storageLocation", textOf? (one? t .storageLocation))]
  | _ => visitLast visit t

/-! ## Types -/

def functionTypeName (t : Tree) : Build Datum := do
  let lists := all t .functionTypeParameterList
  let first ← need lists[0]? "functionTypeParameter"
  let parameters ← every visit first .functionTypeParameter
  let returns ← match lists[1]? with
    | some second => every visit second .functionTypeParameter
    | none => pure (.list [])
  let visibility := (keywordAmong t ["internal", "external"]).getD "default"
  record t "FunctionTypeName" [("parameterTypes", parameters), ("returnTypes", returns),
    ("visibility", .str visibility), ("stateMutability", textOf? (one? t .stateMutability))]

def typeName (t : Tree) : Build Datum := do
  let n ← count t
  if n > 2 then
    let length ← if n == 4 then at? visit t 2 else pure .null
    let base ← at? visit t 0
    record t "ArrayTypeName" [("baseTypeName", base), ("length", length)]
  else if n == 2 then
    let name ← textAt t 0
    let mutability ← textAt t 1
    record t "ElementaryTypeName" [("name", .str name), ("stateMutability", .str mutability)]
  else at? visit t 0

def typePart (t : Tree) : Nonterminal → Build Datum
  | .typeName => typeName visit t
  | .userDefinedTypeName => record t "UserDefinedTypeName" [("namePath", .str t.text)]
  | .elementaryTypeName => record t "ElementaryTypeName" [("name", .str t.text)]
  | .mapping => do
    let key ← only visit t .mappingKey
    let value ← only visit t .typeName
    record t "Mapping" [("keyType", key), ("valueType", value)]
  | .functionTypeName => functionTypeName visit t
  | .typeNameExpression => visitLast visit t
  | _ => visitLast visit t

/-! ## Statements -/

/-- The expression of a statement that is part of a loop. -/
def loopCondition (t : Tree) : Build Datum := do
  match ← only visit t .expressionStatement with
  | .record id => return Fields.get (← recordAt id).fields "expression"
  | d => return d

def forStatement (t : Tree) : Build Datum := do
  let condition ← loopCondition visit t
  let start ← only visit t .simpleStatement
  let expression ← only visit t .expression
  let loop ← record t "ExpressionStatement" [("expression", expression)]
  let body ← only visit t .statement
  record t "ForStatement" [("initExpression", start), ("conditionExpression", condition),
    ("loopExpression", loop), ("body", body)]

def identifierList (t : Tree) : Build Datum := do
  let names ← betweenCommas (inner t)
  let declared ← names.mapM fun
    | some i => record t "VariableDeclaration" [("name", .str i.text), ("isStateVar", .bool false),
        ("isIndexed", .bool false)]
    | none => pure .null
  return .list declared

/-- A list of declarations with a gap declares nothing. -/
def variableDeclarationList (t : Tree) : Build Datum := do
  let parts ← betweenCommas t.children
  let before := (parts.takeWhile Option.isSome).filterMap id
  let declared ← before.mapM fun p ↦ do
    let name ← textOf (one? p .identifier)
    let type ← only visit p .typeName
    record t "VariableDeclaration" [("name", .str name), ("typeName", type),
      ("isStateVar", .bool false), ("isIndexed", .bool false)]
  return if parts.all Option.isSome then .list declared else .null

/-- What a statement declares, in one of three forms. -/
def declaredVariables (t : Tree) : Build Datum := do
  match one? t .variableDeclaration, one? t .identifierList, one? t .variableDeclarationList with
  | some d, _, _ => return .list [← visit d]
  | none, some l, _ => visit l
  | none, none, some l => visit l
  | none, none, none => throw .undeclared

def variableDeclarationStatement (t : Tree) : Build Datum := do
  let declared ← declaredVariables visit t
  let value ← only visit t .expression
  record t "VariableDeclarationStatement" [("variables", declared), ("initialValue", value)]

def statementPart (t : Tree) : Nonterminal → Build Datum
  | .block => do
    let statements ← every visit t .statement
    record t "Block" [("statements", statements)]
  | .statement => at? visit t 0
  | .simpleStatement => at? visit t 0
  | .expressionStatement => do
    let expression ← only visit t .expression
    record t "ExpressionStatement" [("expression", expression)]
  | .ifStatement => do
    let bodies := all t .statement
    let yes ← visit? visit bodies[0]?
    let no ← visit? visit bodies[1]?
    let condition ← only visit t .expression
    record t "IfStatement" [("condition", condition), ("TrueBody", yes), ("FalseBody", no)]
  | .tryStatement => do
    let expression ← only visit t .expression
    let block ← only visit t .block
    let returns ← only visit t .returnParameters
    let catches ← every visit t .catchClause
    record t "TryStatement" [("expression", expression), ("block", block),
      ("returnParameters", returns), ("catchClause", catches)]
  | .catchClause => do
    let name ← only visit t .identifier
    let parameters ← only visit t .parameterList
    let block ← only visit t .block
    record t "CatchClause"
      [("identifier", name), ("parameterList", parameters), ("block", block)]
  | .whileStatement => do
    let condition ← only visit t .expression
    let body ← only visit t .statement
    record t "WhileStatement" [("condition", condition), ("body", body)]
  | .doWhileStatement => do
    let condition ← only visit t .expression
    let body ← only visit t .statement
    record t "DoWhileStatement" [("condition", condition), ("body", body)]
  | .uncheckedStatement => do
    let body ← only visit t .block
    record t "UncheckedStatement" [("body", body)]
  | .forStatement => forStatement visit t
  | .inlineAssemblyStatement => do
    let language := (t.children.find? (·.isLeaf (classOf "StringLiteralFragment"))).map
      fun l ↦ unquoted l.text
    let body ← only visit t .assemblyBlock
    record t "InLineAssemblyStatement" [("language", optText language), ("body", body)]
  | .continueStatement => record t "ContinueStatement" []
  | .breakStatement => record t "BreakStatement" []
  | .returnStatement => only visit t .expression
  | .throwStatement => record t "ThrowStatement" []
  | .emitStatement => do
    let call ← only visit t .functionCall
    record t "EmitStatement" [("eventCall", call)]
  | .revertStatement => do
    let call ← only visit t .functionCall
    record t "RevertStatement" [("functionCall", call)]
  | .variableDeclarationStatement => variableDeclarationStatement visit t
  | .variableDeclarationList => variableDeclarationList visit t
  | .identifierList => identifierList t
  | _ => visitLast visit t

/-! ## Expressions -/

def unaryOperators : List String := ["+", "-", "++", "--", "!", "~", "after", "delete"]

def binaryOperators : List String :=
  ["+", "-", "*", "/", "**", "%", "<<", ">>", "&&", "||", "&", "|", "^", "<", ">", "<=", ">=",
    "==", "!=", "=", "|=", "^=", "&=", "<<=", ">>=", "+=", "-=", "*=", "/=", "%="]

def expressionOfTwo (t : Tree) : Build Datum := do
  let op ← textAt t 0
  if op == "new" then
    let type ← only visit t .typeName
    record t "NewExpression" [("typeName", type)]
  else if unaryOperators.contains op then
    let operand ← at? visit t 1
    record t "UnaryOperation"
      [("operator", .str op), ("subExpression", operand), ("isPrefix", .bool true)]
  else
    let op ← textAt t 1
    if op == "++" || op == "--" then
      let operand ← at? visit t 0
      record t "UnaryOperation"
        [("operator", .str op), ("subExpression", operand), ("isPrefix", .bool false)]
    else throw .unrecognizedExpression

def expressionOfThree (t : Tree) : Build Datum := do
  let left ← textAt t 0
  let op ← textAt t 1
  let right ← textAt t 2
  if left == "(" && right == ")" then
    let inside ← at? visit t 1
    record t "TupleExpression" [("components", .list [inside]), ("isArray", .bool false)]
  else if op == "," then
    let a ← at? visit t 0
    let b ← at? visit t 2
    record t "TupleExpression" [("components", .list [a, b]), ("isArray", .bool false)]
  else if op == "." then
    let object ← at? visit t 0
    record t "MemberAccess" [("expression", object), ("memberName", .str right)]
  else if binaryOperators.contains op then
    let a ← at? visit t 0
    let b ← at? visit t 2
    record t "BinaryOperation" [("operator", .str op), ("left", a), ("right", b)]
  else throw .unrecognizedExpression

def expressionOfFour (t : Tree) : Build Datum := do
  let opening ← textAt t 1
  let closing ← textAt t 3
  if opening == "(" && closing == ")" then
    let (arguments, names) ← callArguments visit (one? t .functionCallArguments)
    let callee ← at? visit t 0
    record t "FunctionCall"
      [("expression", callee), ("arguments", arguments), ("names", names)]
  else if opening == "[" && closing == "]" then
    let base ← at? visit t 0
    let index ← at? visit t 2
    record t "IndexAccess" [("base", base), ("index", index)]
  else throw .unrecognizedExpression

def expressionOfFive (t : Tree) : Build Datum := do
  if (← textAt t 1) == "?" && (← textAt t 3) == ":" then
    let condition ← at? visit t 0
    let yes ← at? visit t 2
    let no ← at? visit t 4
    record t "Conditional"
      [("condition", condition), ("TrueExpression", yes), ("FalseExpression", no)]
  else throw .unrecognizedExpression

/-- The record of a part, whose type is to be asked. -/
def recordOf : Datum → Build Record
  | .record id => recordAt id
  | _ => throw (.missing "type")

/-- The base of an open array, from the record of its name. -/
def arrayBase (t : Tree) (r : Record) : Build Datum :=
  match h : Fields.get r.fields "type" with
  | .str "Identifier" =>
    record t "UserDefinedTypeName" [("namePath", Fields.get r.fields "name")]
      (.userDefinedTypeName (r.wellFormed.identifier h))
  | _ => do
    let name ← textAt t 0
    record t "ElementaryTypeName" [("name", .str name)]

def openArray (t : Tree) (name : Datum) : Build Datum := do
  let r ← recordOf name
  let base ← arrayBase t r
  record t "ArrayTypeName" [("baseTypeName", base), ("length", .null)]

def primaryExpression (t : Tree) : Build Datum := do
  match t.children.find? (·.isLeaf (classOf "BooleanLiteral")) with
  | some b => record t "BooleanLiteral" [("value", .bool (b.text == "true"))]
  | none =>
  match one? t .hexLiteral with
  | some h => visit h
  | none =>
  match one? t .stringLiteral with
  | some _ => record t "stringLiteral" [("value", .str (unquoted t.text))]
  | none => do
    let n ← count t
    let texts := (t.children.drop 1).map (·.text)
    let brackets := n == 3 && texts == ["[", "]"]
    let first ← at? visit t 0
    if brackets then openArray t first else pure first

def expressionPart (t : Tree) : Nonterminal → Build Datum
  | .expression => do
    match ← count t with
    | 1 => at? visit t 0
    | 2 => expressionOfTwo visit t
    | 3 => expressionOfThree visit t
    | 4 => expressionOfFour visit t
    | 5 => expressionOfFive visit t
    | _ => throw .unrecognizedExpression
  | .primaryExpression => primaryExpression visit t
  | .functionCall => do
    let (arguments, names) ← callArguments visit (one? t .functionCallArguments)
    let callee ← only visit t .expression
    record t "FunctionCall"
      [("expression", callee), ("arguments", arguments), ("names", names)]
  | .tupleExpression => do
    let parts ← betweenCommas (inner t)
    let components ← parts.mapM (visit? visit)
    let opening ← textAt t 0
    record t "TupleExpression"
      [("components", .list components), ("isArray", .bool (opening == "["))]
  | .numberLiteral => do
    let number ← textAt t 0
    let unit ← if (← count t) == 2 then pure (Datum.str (← textAt t 1)) else pure .null
    record t "NumberLiteral" [("number", .str number), ("subdenomination", unit)]
  | .identifier => record t "Identifier" [("name", .str t.text)]
  | .hexLiteral => record t "HexLiteral" [("value", .str t.text)]
  | .stringLiteral => record t "StringLiteral" [("value", .str (unquoted t.text))]
  | _ => visitLast visit t

/-! ## Inline assembly -/

/-- The names that are defined or assigned: one, or a list in parentheses. -/
def assemblyNames (t : Tree) : Build Datum := do
  let names ← need (one? t .assemblyIdentifierOrList) "identifier"
  match one? names .identifier with
  | some i => return .list [← visit i]
  | none =>
    let list ← need (one? names .assemblyIdentifierList) "identifier"
    every visit list .identifier

def assemblyLiteral (t : Tree) : Build Datum := do
  match one? t .stringLiteral with
  | some s => record t "StringLiteral" [("value", .str (unquoted s.text))]
  | none =>
  match t.children.find? (·.isLeaf (classOf "DecimalNumber")) with
  | some n => record t "DecimalNumber" [("value", .str n.text)]
  | none =>
  match t.children.find? (·.isLeaf (classOf "HexNumber")) with
  | some n => record t "HexNumber" [("value", .str n.text)]
  | none => only visit t .hexLiteral

def assemblyPart (t : Tree) : Nonterminal → Build Datum
  | .assemblyBlock => do
    let operations ← every visit t .assemblyItem
    record t "AssemblyBlock" [("operations", operations)]
  | .assemblyItem => do
    match one? t .hexLiteral, one? t .stringLiteral with
    | some h, _ => visit h
    | none, some s => record t "StringLiteral" [("value", .str (unquoted s.text))]
    | none, none =>
      match keywordAmong t ["break", "continue"] with
      | some "break" => record t "Break" []
      | some _ => record t "Continue" []
      | none => at? visit t 0
  | .assemblyExpression => at? visit t 0
  | .assemblyMember => throw (.several "getText")
  | .assemblyCall => do
    let name ← textAt t 0
    let arguments ← every visit t .assemblyExpression
    record t "AssemblyExpression" [("functionName", .str name), ("arguments", arguments)]
  | .assemblyLiteral => assemblyLiteral visit t
  | .assemblySwitch => do
    let expression ← only visit t .assemblyExpression
    let cases ← every visit t .assemblyCase
    record t "AssemblySwitch" [("expression", expression), ("cases", cases)]
  | .assemblyCase => do
    let value ← if (← textAt t 0) == "case" then only visit t .assemblyLiteral else pure .null
    let block ← only visit t .assemblyBlock
    record t "AssemblyCase" [("block", block), ("value", value)]
  | .assemblyLocalDefinition => do
    let names ← assemblyNames visit t
    let expression ← only visit t .assemblyExpression
    record t "AssemblyLocalDefinition" [("names", names), ("expression", expression)]
  | .assemblyAssignment => do
    let names ← assemblyNames visit t
    let expression ← only visit t .assemblyExpression
    record t "AssemblyAssignment" [("names", names), ("expression", expression)]
  | .assemblyFunctionDefinition => do
    let parameters ← need (one? t .assemblyIdentifierList) "identifier"
    let returns ← need (one? t .assemblyFunctionReturns) "assemblyIdentifierList"
    let results ← need (one? returns .assemblyIdentifierList) "identifier"
    let name ← textOf (one? t .identifier)
    let arguments ← every visit parameters .identifier
    let returnArguments ← every visit results .identifier
    let body ← only visit t .assemblyBlock
    record t "AssemblyFunctionDefinition" [("name", .str name), ("arguments", arguments),
      ("returnArguments", returnArguments), ("body", body)]
  | .labelDefinition => do
    let name ← textOf (one? t .identifier)
    record t "LabelDefinition" [("name", .str name)]
  | .assemblyStackAssignment => do
    let name ← textOf (one? t .identifier)
    record t "AssemblyStackAssignment" [("name", .str name)]
  | .assemblyFor => do
    let pre ← at? visit t 1
    let condition ← at? visit t 2
    let post ← at? visit t 3
    let body ← at? visit t 4
    record t "AssemblyFor"
      [("pre", pre), ("condition", condition), ("post", post), ("body", body)]
  | .assemblyIf => do
    let condition ← only visit t .assemblyExpression
    let body ← only visit t .assemblyBlock
    record t "AssemblyIf" [("condition", condition), ("body", body)]
  | _ => visitLast visit t

/-- Which family of rules a nonterminal belongs to decides how it is built. -/
def nodeOf (t : Tree) (n : Nonterminal) : Build Datum :=
  match n with
  | .typeName | .userDefinedTypeName | .elementaryTypeName | .mapping | .functionTypeName
  | .typeNameExpression => typePart visit t n
  | .block | .statement | .simpleStatement | .expressionStatement | .ifStatement | .tryStatement
  | .catchClause | .whileStatement | .doWhileStatement | .uncheckedStatement | .forStatement
  | .inlineAssemblyStatement | .continueStatement | .breakStatement | .returnStatement
  | .throwStatement | .emitStatement | .revertStatement | .variableDeclarationStatement
  | .variableDeclarationList | .identifierList => statementPart visit t n
  | .expression | .primaryExpression | .functionCall | .tupleExpression | .numberLiteral
  | .identifier | .hexLiteral | .stringLiteral => expressionPart visit t n
  | .assemblyBlock | .assemblyItem | .assemblyExpression | .assemblyMember | .assemblyCall
  | .assemblyLiteral | .assemblySwitch | .assemblyCase | .assemblyLocalDefinition
  | .assemblyAssignment | .assemblyFunctionDefinition | .labelDefinition
  | .assemblyStackAssignment | .assemblyFor | .assemblyIf => assemblyPart visit t n
  | _ => declarationPart visit t n

end Build

/-! ## The whole graph -/

/-- Build a tree whose height is at most the first argument. -/
def buildTree : Nat → Tree → Build Datum
  | _, .leaf _ => pure .null
  | 0, .node .. => throw .tooDeep
  | n + 1, .node rule start stop children =>
    nodeOf (buildTree n) (.node rule start stop children) (Nonterminal.ofNumber rule)

mutual

/-- The number of nodes on the longest way to a leaf. -/
def height : Tree → Nat
  | .leaf _ => 0
  | .node _ _ _ children => heights children + 1

def heights : List Tree → Nat
  | [] => 0
  | t :: ts => max (height t) (heights ts)

end

/-- What building has come to, and the records up to there. -/
def build (t : Tree) : Except BuildFault Datum × Records := (buildTree (height t) t).run {}

namespace Records

/-- The records that state a place: its own, and those of its start and its end. -/
def placeFields (base i : Nat) (start stop : Token) : List Fields :=
  let point (t : Token) : Fields := [("line", .int t.line), ("column", .int t.column)]
  [[("start", .record (base + 3 * i + 1)), ("end", .record (base + 3 * i + 2))],
    point start, point stop]

def fields (r : Records) : Array Fields := r.complete.map (·.fields)

/-- Every record with its place, if all places are known. -/
def withPlaces (r : Records) : Option (Array Fields) := do
  let base := r.complete.size
  let spans ← r.spans.toList.mapM fun s ↦ s.stop.map (s.start, ·)
  let places := spans.mapIdx fun i (start, stop) ↦ placeFields base i start stop
  let fields := r.fields.mapIdx fun i fs ↦ fs ++ [("loc", .record (base + 3 * i))]
  return fields ++ places.flatten.toArray

/-- Is the end of some record unknown? -/
def lacksPlace (r : Records) : Bool := r.spans.any fun s ↦ s.stop.isNone

end Records

end QuantumRisk.Solidity
