import QuantumRisk.Solidity.Lexer

/-!
# The grammar of Solidity

The rules of the language as a value. `production` gives the branches of each nonterminal in order
of preference; expressions and type names are written left-recursively and are climbed by level.
-/

namespace QuantumRisk.Solidity

open QuantumRisk.Grammar

/-- The nonterminals, in the order of their rule numbers. -/
inductive Nonterminal where
  | sourceUnit | pragmaDirective | pragmaName | pragmaValue | version | versionOperator
  | versionConstraint | importDeclaration | importDirective | importPath | contractDefinition
  | inheritanceSpecifier | contractPart | stateVariableDeclaration | fileLevelConstant
  | customErrorDefinition | typeDefinition | usingForDeclaration | structDefinition
  | modifierDefinition | modifierInvocation | functionDefinition | functionDescriptor
  | returnParameters | modifierList | eventDefinition | enumValue | enumDefinition | parameterList
  | parameter | eventParameterList | eventParameter | functionTypeParameterList
  | functionTypeParameter | variableDeclaration | typeName | userDefinedTypeName | mappingKey
  | mapping | functionTypeName | storageLocation | stateMutability | block | statement
  | expressionStatement | ifStatement | tryStatement | catchClause | whileStatement
  | simpleStatement | uncheckedStatement | forStatement | inlineAssemblyStatement
  | doWhileStatement | continueStatement | breakStatement | returnStatement | throwStatement
  | emitStatement | revertStatement | variableDeclarationStatement | variableDeclarationList
  | identifierList | elementaryTypeName | expression | primaryExpression | expressionList
  | nameValueList | nameValue | functionCallArguments | functionCall | assemblyBlock | assemblyItem
  | assemblyExpression | assemblyMember | assemblyCall | assemblyLocalDefinition
  | assemblyAssignment | assemblyIdentifierOrList | assemblyIdentifierList
  | assemblyStackAssignment | labelDefinition | assemblySwitch | assemblyCase
  | assemblyFunctionDefinition | assemblyFunctionReturns | assemblyFor | assemblyIf
  | assemblyLiteral | subAssembly | tupleExpression | typeNameExpression | numberLiteral
  | identifier | overrideSpecifier | hexLiteral | stringLiteral
  deriving DecidableEq, Inhabited

namespace Nonterminal

/-- All nonterminals in the order of their rule numbers. -/
def all : Array Nonterminal := #[
  sourceUnit, pragmaDirective, pragmaName, pragmaValue, version, versionOperator,
  versionConstraint, importDeclaration, importDirective, importPath, contractDefinition,
  inheritanceSpecifier, contractPart, stateVariableDeclaration, fileLevelConstant,
  customErrorDefinition, typeDefinition, usingForDeclaration, structDefinition,
  modifierDefinition, modifierInvocation, functionDefinition, functionDescriptor,
  returnParameters, modifierList, eventDefinition, enumValue, enumDefinition, parameterList,
  parameter, eventParameterList, eventParameter, functionTypeParameterList,
  functionTypeParameter, variableDeclaration, typeName, userDefinedTypeName, mappingKey,
  mapping, functionTypeName, storageLocation, stateMutability, block, statement,
  expressionStatement, ifStatement, tryStatement, catchClause, whileStatement,
  simpleStatement, uncheckedStatement, forStatement, inlineAssemblyStatement,
  doWhileStatement, continueStatement, breakStatement, returnStatement, throwStatement,
  emitStatement, revertStatement, variableDeclarationStatement, variableDeclarationList,
  identifierList, elementaryTypeName, expression, primaryExpression, expressionList,
  nameValueList, nameValue, functionCallArguments, functionCall, assemblyBlock, assemblyItem,
  assemblyExpression, assemblyMember, assemblyCall, assemblyLocalDefinition,
  assemblyAssignment, assemblyIdentifierOrList, assemblyIdentifierList,
  assemblyStackAssignment, labelDefinition, assemblySwitch, assemblyCase,
  assemblyFunctionDefinition, assemblyFunctionReturns, assemblyFor, assemblyIf,
  assemblyLiteral, subAssembly, tupleExpression, typeNameExpression, numberLiteral,
  identifier, overrideSpecifier, hexLiteral, stringLiteral]

/-- The rule number of a nonterminal. -/
def number (n : Nonterminal) : Nat := n.ctorIdx

/-- The nonterminal of a rule number. -/
def ofNumber (i : Nat) : Nonterminal := all.getD i sourceUnit

theorem ofNumber_number (n : Nonterminal) : ofNumber n.number = n := by cases n <;> rfl

end Nonterminal

/-! ## Shorthands -/

private def t (text : String) : Phrase := .token (word text)

private def c (name : String) : Phrase := .token (classOf name)

private def r (n : Nonterminal) : Phrase := .call n.number 0

private def any (texts : List String) : Phrase := .oneOf (texts.map word)

private def opt (b : Branch) : Phrase := .optional [b]

private def many (b : Branch) : Phrase := .star [b]

/-- One or more, with commas between. -/
private def listOf (p : Phrase) : Branch := [p, many [t ",", p]]

open Nonterminal

/-! ## Declarations -/

private def declarationRules : Nonterminal → List Branch
  | sourceUnit => [[.star [[r pragmaDirective], [r importDirective], [r contractDefinition],
      [r enumDefinition], [r structDefinition], [r functionDefinition], [r fileLevelConstant],
      [r customErrorDefinition], [r typeDefinition]], .token endOfInput]]
  | pragmaDirective => [[t "pragma", r pragmaName, r pragmaValue, t ";"]]
  | pragmaName => [[r identifier]]
  | pragmaValue => [[r version], [r expression]]
  | version => [[r versionConstraint, many [opt [t "||"], r versionConstraint]]]
  | versionOperator => [[any ["^", "~", ">=", ">", "<", "<=", "="]]]
  | versionConstraint => [[opt [r versionOperator], c "VersionLiteral"],
      [opt [r versionOperator], c "DecimalNumber"]]
  | importDeclaration => [[r identifier, opt [t "as", r identifier]]]
  | importDirective => [
      [t "import", r importPath, opt [t "as", r identifier], t ";"],
      [t "import", .choice [[t "*"], [r identifier]], opt [t "as", r identifier], t "from",
        r importPath, t ";"],
      [t "import", t "\x7b"] ++ listOf (r importDeclaration)
        ++ [t "\x7d", t "from", r importPath, t ";"]]
  | importPath => [[c "StringLiteralFragment"]]
  | contractDefinition => [[opt [t "abstract"], any ["contract", "interface", "library"],
      r identifier, opt (t "is" :: listOf (r inheritanceSpecifier)), t "\x7b",
      many [r contractPart], t "\x7d"]]
  | inheritanceSpecifier => [[r userDefinedTypeName, opt [t "(", opt [r expressionList], t ")"]]]
  | contractPart => [[r stateVariableDeclaration], [r usingForDeclaration], [r structDefinition],
      [r modifierDefinition], [r functionDefinition], [r eventDefinition], [r enumDefinition],
      [r customErrorDefinition], [r typeDefinition]]
  | stateVariableDeclaration => [[r typeName, .star [[t "public"], [t "internal"], [t "private"],
      [t "constant"], [t "immutable"], [r overrideSpecifier]], r identifier,
      opt [t "=", r expression], t ";"]]
  | fileLevelConstant =>
    [[r typeName, t "constant", r identifier, t "=", r expression, t ";"]]
  | customErrorDefinition => [[t "error", r identifier, r parameterList, t ";"]]
  | typeDefinition => [[t "type", r identifier, t "is", r elementaryTypeName, t ";"]]
  | usingForDeclaration =>
    [[t "using", r identifier, t "for", .choice [[t "*"], [r typeName]], t ";"]]
  | structDefinition => [[t "struct", r identifier, t "\x7b",
      opt [r variableDeclaration, t ";", many [r variableDeclaration, t ";"]], t "\x7d"]]
  | modifierDefinition => [[t "modifier", r identifier, opt [r parameterList],
      .star [[t "virtual"], [r overrideSpecifier]], .choice [[t ";"], [r block]]]]
  | modifierInvocation => [[r identifier, opt [t "(", opt [r expressionList], t ")"]]]
  | functionDefinition => [[r functionDescriptor, r parameterList, r modifierList,
      opt [r returnParameters], .choice [[t ";"], [r block]]]]
  | functionDescriptor =>
    [[t "function", opt [r identifier]], [t "constructor"], [t "fallback"], [t "receive"]]
  | returnParameters => [[t "returns", r parameterList]]
  | modifierList => [[.star [[t "external"], [t "public"], [t "internal"], [t "private"],
      [t "virtual"], [r stateMutability], [r modifierInvocation], [r overrideSpecifier]]]]
  | eventDefinition =>
    [[t "event", r identifier, r eventParameterList, opt [t "anonymous"], t ";"]]
  | enumValue => [[r identifier]]
  | enumDefinition => [[t "enum", r identifier, t "\x7b", opt [r enumValue],
      many [t ",", r enumValue], t "\x7d"]]
  | parameterList => [[t "(", opt (listOf (r parameter)), t ")"]]
  | parameter => [[r typeName, opt [r storageLocation], opt [r identifier]]]
  | eventParameterList => [[t "(", opt (listOf (r eventParameter)), t ")"]]
  | eventParameter => [[r typeName, opt [t "indexed"], opt [r identifier]]]
  | functionTypeParameterList => [[t "(", opt (listOf (r functionTypeParameter)), t ")"]]
  | functionTypeParameter => [[r typeName, opt [r storageLocation]]]
  | variableDeclaration => [[r typeName, opt [r storageLocation], r identifier]]
  | overrideSpecifier =>
    [[t "override", opt ([t "("] ++ listOf (r userDefinedTypeName) ++ [t ")"])]]
  | _ => []

/-! ## Types -/

private def typeRules : Nonterminal → List Branch
  | typeName => [[r elementaryTypeName], [r userDefinedTypeName], [r mapping],
      [r typeName, t "[", opt [r expression], t "]"], [r functionTypeName],
      [t "address", t "payable"]]
  | userDefinedTypeName => [[r identifier, many [t ".", r identifier]]]
  | mappingKey => [[r elementaryTypeName], [r userDefinedTypeName]]
  | mapping => [[t "mapping", t "(", r mappingKey, t "=>", r typeName, t ")"]]
  | functionTypeName => [[t "function", r functionTypeParameterList,
      .star [[t "internal"], [t "external"], [r stateMutability]],
      opt [t "returns", r functionTypeParameterList]]]
  | storageLocation => [[any ["memory", "storage", "calldata"]]]
  | stateMutability => [[any ["pure", "constant", "view", "payable"]]]
  | elementaryTypeName => [[.oneOf [word "address", word "bool", word "string", word "var",
      classOf "Int", classOf "Uint", word "byte", classOf "Byte", classOf "Fixed",
      classOf "Ufixed"]]]
  | _ => []

/-! ## Statements -/

private def statementRules : Nonterminal → List Branch
  | block => [[t "\x7b", many [r statement], t "\x7d"]]
  | statement => [[r ifStatement], [r tryStatement], [r whileStatement], [r forStatement],
      [r block], [r inlineAssemblyStatement], [r doWhileStatement], [r continueStatement],
      [r breakStatement], [r returnStatement], [r throwStatement], [r emitStatement],
      [r simpleStatement], [r uncheckedStatement], [r revertStatement]]
  | expressionStatement => [[r expression, t ";"]]
  | ifStatement => [[t "if", t "(", r expression, t ")", r statement,
      opt [t "else", r statement]]]
  | tryStatement => [[t "try", r expression, opt [r returnParameters], r block,
      .plus [[r catchClause]]]]
  | catchClause => [[t "catch", opt [opt [r identifier], r parameterList], r block]]
  | whileStatement => [[t "while", t "(", r expression, t ")", r statement]]
  | simpleStatement => [[r variableDeclarationStatement], [r expressionStatement]]
  | uncheckedStatement => [[t "unchecked", r block]]
  | forStatement => [[t "for", t "(", .choice [[r simpleStatement], [t ";"]],
      .choice [[r expressionStatement], [t ";"]], opt [r expression], t ")", r statement]]
  | inlineAssemblyStatement =>
    [[t "assembly", opt [c "StringLiteralFragment"], r assemblyBlock]]
  | doWhileStatement =>
    [[t "do", r statement, t "while", t "(", r expression, t ")", t ";"]]
  | continueStatement => [[t "continue", t ";"]]
  | breakStatement => [[t "break", t ";"]]
  | returnStatement => [[t "return", opt [r expression], t ";"]]
  | throwStatement => [[t "throw", t ";"]]
  | emitStatement => [[t "emit", r functionCall, t ";"]]
  | revertStatement => [[t "revert", r functionCall, t ";"]]
  | variableDeclarationStatement => [[.choice [[t "var", r identifierList],
      [r variableDeclaration], [t "(", r variableDeclarationList, t ")"]],
      opt [t "=", r expression], t ";"]]
  | variableDeclarationList =>
    [[opt [r variableDeclaration], many [t ",", opt [r variableDeclaration]]]]
  | identifierList => [[t "(", many [opt [r identifier], t ","], opt [r identifier], t ")"]]
  | _ => []

/-! ## Expressions -/

private def expressionRules : Nonterminal → List Branch
  | expression => [
      [r expression, any ["++", "--"]],
      [t "new", r typeName],
      [r expression, t "[", r expression, t "]"],
      [r expression, t "[", opt [r expression], t ":", opt [r expression], t "]"],
      [r expression, t "(", r functionCallArguments, t ")"],
      [r expression, t "\x7b", r nameValueList, t "\x7d"],
      [r expression, t ".", r identifier],
      [t "(", r expression, t ")"],
      [any ["++", "--"], r expression],
      [any ["+", "-"], r expression],
      [any ["after", "delete"], r expression],
      [t "!", r expression],
      [t "~", r expression],
      [r expression, t "**", r expression],
      [r expression, any ["*", "/", "%"], r expression],
      [r expression, any ["+", "-"], r expression],
      [r expression, any ["<<", ">>"], r expression],
      [r expression, t "&", r expression],
      [r expression, t "^", r expression],
      [r expression, t "|", r expression],
      [r expression, any ["<", ">", "<=", ">="], r expression],
      [r expression, any ["==", "!="], r expression],
      [r expression, t "&&", r expression],
      [r expression, t "||", r expression],
      [r expression, t "?", r expression, t ":", r expression],
      [r expression, any ["=", "|=", "^=", "&=", "<<=", ">>=", "+=", "-=", "*=", "/=", "%="],
        r expression],
      [r primaryExpression]]
  | primaryExpression => [[c "BooleanLiteral"], [r numberLiteral], [r hexLiteral],
      [r stringLiteral], [r identifier, opt [t "[", t "]"]], [t "type"], [r tupleExpression],
      [r typeNameExpression, opt [t "[", t "]"]]]
  | expressionList => [listOf (r expression)]
  | nameValueList => [listOf (r nameValue) ++ [opt [t ","]]]
  | nameValue => [[r identifier, t ":", r expression]]
  | functionCallArguments =>
    [[t "\x7b", opt [r nameValueList], t "\x7d"], [opt [r expressionList]]]
  | functionCall => [[r expression, t "(", r functionCallArguments, t ")"]]
  | tupleExpression => [
      [t "(", opt [r expression], many [t ",", opt [r expression]], t ")"],
      [t "[", opt (listOf (r expression)), t "]"]]
  | typeNameExpression => [[r elementaryTypeName], [r userDefinedTypeName]]
  | numberLiteral =>
    [[.oneOf [classOf "DecimalNumber", classOf "HexNumber"], opt [c "NumberUnit"]]]
  | identifier => [[.oneOf ([classOf "Identifier"] ++ ["from", "calldata", "receive", "callback",
      "revert", "error", "constructor", "payable", "leave"].map word)]]
  | hexLiteral => [[.plus [[c "HexLiteralFragment"]]]]
  | stringLiteral => [[.plus [[c "StringLiteralFragment"]]]]
  | _ => []

/-! ## Inline assembly -/

private def assemblyRules : Nonterminal → List Branch
  | assemblyBlock => [[t "\x7b", many [r assemblyItem], t "\x7d"]]
  | assemblyItem => [[r identifier], [r assemblyBlock], [r assemblyExpression],
      [r assemblyLocalDefinition], [r assemblyAssignment], [r assemblyStackAssignment],
      [r labelDefinition], [r assemblySwitch], [r assemblyFunctionDefinition], [r assemblyFor],
      [r assemblyIf], [t "break"], [t "continue"], [t "leave"], [r subAssembly],
      [r numberLiteral], [r stringLiteral], [r hexLiteral]]
  | assemblyExpression => [[r assemblyCall], [r assemblyLiteral], [r assemblyMember]]
  | assemblyMember => [[r identifier, t ".", r identifier]]
  | assemblyCall => [[.choice [[t "return"], [t "address"], [t "byte"], [r identifier]],
      opt [t "(", opt [r assemblyExpression], many [t ",", r assemblyExpression], t ")"]]]
  | assemblyLocalDefinition =>
    [[t "let", r assemblyIdentifierOrList, opt [t ":=", r assemblyExpression]]]
  | assemblyAssignment => [[r assemblyIdentifierOrList, t ":=", r assemblyExpression]]
  | assemblyIdentifierOrList =>
    [[r identifier], [r assemblyMember], [t "(", r assemblyIdentifierList, t ")"]]
  | assemblyIdentifierList => [listOf (r identifier)]
  | assemblyStackAssignment => [[t "=:", r identifier]]
  | labelDefinition => [[r identifier, t ":"]]
  | assemblySwitch => [[t "switch", r assemblyExpression, many [r assemblyCase]]]
  | assemblyCase => [[t "case", r assemblyLiteral, r assemblyBlock],
      [t "default", r assemblyBlock]]
  | assemblyFunctionDefinition => [[t "function", r identifier, t "(",
      opt [r assemblyIdentifierList], t ")", opt [r assemblyFunctionReturns], r assemblyBlock]]
  | assemblyFunctionReturns => [[t "->", r assemblyIdentifierList]]
  | assemblyFor => [[t "for", .choice [[r assemblyBlock], [r assemblyExpression]],
      r assemblyExpression, .choice [[r assemblyBlock], [r assemblyExpression]],
      r assemblyBlock]]
  | assemblyIf => [[t "if", r assemblyExpression, r assemblyBlock]]
  | assemblyLiteral =>
    [[r stringLiteral], [c "DecimalNumber"], [c "HexNumber"], [r hexLiteral]]
  | subAssembly => [[t "assembly", r identifier, r assemblyBlock]]
  | _ => []

/-- The branches of a nonterminal. -/
def production (n : Nonterminal) : List Branch :=
  declarationRules n ++ typeRules n ++ statementRules n ++ expressionRules n ++ assemblyRules n

def grammar : Language := { rules := Nonterminal.all.map fun n ↦ ⟨"", production n⟩ }

/-- Everything the parser knows about Solidity in advance. -/
def tables : Tables := .ofLanguage grammar vocabulary

/-- Parse a Solidity text. -/
def parseText (text : String) : Parse := tables.parse sourceUnit.number (scan text)

end QuantumRisk.Solidity
