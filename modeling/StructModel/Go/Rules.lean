import StructModel.Grammar.Basic
import StructModel.Go.Token

/-!
# The grammar of Go

Nothing is checked beyond the grammar: a package clause may stand anywhere, statements may stand at
the top level, and any type may be negated. A newline, a semicolon and a zero character end a
statement, a specification or a field alike.

## Implementation notes

The levels from 1 to 5 are those of the binary operators, 6 is that of prefixed operators and
types, 7 that of what is attached to an operand. A composite literal has a level below all of
these, so that a brace after a condition opens a block. The weights choose between the readings of
`A [N]T` and its like.
-/

namespace StructModel.Go

open StructModel.Grammar

inductive Rule where
  | sourceFile | sourceItems
  | packageClause | importDeclaration | importSpec | importDot | importSpecs | importSpecList
  | declaration | constDeclaration | constSpecs | constSpec | moreIdentifiers
  | varDeclaration | varSpec | moreNames | varSpecs | varSpecList
  | functionDeclaration | methodDeclaration
  | typeParameterList | moreTypeParameters | typeParameterDeclaration
  | parameterList | moreParameters | parameterDeclaration | variadicParameter
  | typeAlias | typeDeclaration | moreTypeSpecs | typeSpec
  | expressionList | moreExpressions
  | parenthesizedType | simpleType | genericType | typeArguments | moreTypeElems
  | pointerType | arrayType | implicitLengthArrayType | sliceType | structType | negatedType
  | fieldDeclarationList | moreFieldDeclarations | fieldDeclaration | moreFieldNames
  | interfaceType | moreInterfaceElems | methodElem | typeElem | moreUnionTypes
  | mapType | channelType | functionType
  | block | statementList | moreStatements | statement | emptyStatement
  | simpleStatement | expressionStatement | sendStatement | receiveStatement | incStatement
  | decStatement | assignmentStatement | shortVarDeclaration
  | labeledStatement | emptyLabeledStatement | fallthroughStatement | breakStatement
  | continueStatement | gotoStatement | returnStatement | goStatement | deferStatement
  | ifStatement | forStatement | forClause | rangeClause
  | expressionSwitch | expressionCases | expressionCase | defaultCase
  | typeSwitch | typeSwitchHeader | typeCases | typeCase | moreTypes
  | selectStatement | communicationCases | communicationCase
  | expression | parenthesizedExpression | callExpression | variadicArgument
  | specialArgumentList | argumentList | moreArguments
  | selectorExpression | indexExpression | sliceExpression | typeAssertion | typeConversion
  | typeInstantiation | compositeLiteral | literalValue | moreLiteralElements | literalElement
  | keyedElement | funcLiteral | unaryExpression | binaryExpression | qualifiedType
  deriving DecidableEq, Hashable, Repr

def Rule.all : List Rule :=
  [.sourceFile, .sourceItems,
    .packageClause, .importDeclaration, .importSpec, .importDot, .importSpecs, .importSpecList,
    .declaration, .constDeclaration, .constSpecs, .constSpec, .moreIdentifiers,
    .varDeclaration, .varSpec, .moreNames, .varSpecs, .varSpecList,
    .functionDeclaration, .methodDeclaration,
    .typeParameterList, .moreTypeParameters, .typeParameterDeclaration,
    .parameterList, .moreParameters, .parameterDeclaration, .variadicParameter,
    .typeAlias, .typeDeclaration, .moreTypeSpecs, .typeSpec,
    .expressionList, .moreExpressions,
    .parenthesizedType, .simpleType, .genericType, .typeArguments, .moreTypeElems,
    .pointerType, .arrayType, .implicitLengthArrayType, .sliceType, .structType, .negatedType,
    .fieldDeclarationList, .moreFieldDeclarations, .fieldDeclaration, .moreFieldNames,
    .interfaceType, .moreInterfaceElems, .methodElem, .typeElem, .moreUnionTypes,
    .mapType, .channelType, .functionType,
    .block, .statementList, .moreStatements, .statement, .emptyStatement,
    .simpleStatement, .expressionStatement, .sendStatement, .receiveStatement, .incStatement,
    .decStatement, .assignmentStatement, .shortVarDeclaration,
    .labeledStatement, .emptyLabeledStatement, .fallthroughStatement, .breakStatement,
    .continueStatement, .gotoStatement, .returnStatement, .goStatement, .deferStatement,
    .ifStatement, .forStatement, .forClause, .rangeClause,
    .expressionSwitch, .expressionCases, .expressionCase, .defaultCase,
    .typeSwitch, .typeSwitchHeader, .typeCases, .typeCase, .moreTypes,
    .selectStatement, .communicationCases, .communicationCase,
    .expression, .parenthesizedExpression, .callExpression, .variadicArgument,
    .specialArgumentList, .argumentList, .moreArguments,
    .selectorExpression, .indexExpression, .sliceExpression, .typeAssertion, .typeConversion,
    .typeInstantiation, .compositeLiteral, .literalValue, .moreLiteralElements, .literalElement,
    .keyedElement, .funcLiteral, .unaryExpression, .binaryExpression, .qualifiedType]

/-- The rules that only group others or repeat. -/
def Rule.hidden : Rule → Bool
  | .sourceItems | .importSpecs | .declaration | .constSpecs | .moreIdentifiers | .moreNames
  | .varSpecs | .moreTypeParameters | .moreParameters | .moreTypeSpecs | .moreExpressions
  | .simpleType | .moreTypeElems | .moreFieldDeclarations | .moreFieldNames | .moreInterfaceElems
  | .moreUnionTypes | .moreStatements | .statement | .simpleStatement | .expressionCases
  | .typeSwitchHeader | .typeCases | .moreTypes | .communicationCases | .expression
  | .moreArguments | .moreLiteralElements => true
  | _ => false

namespace Rules

abbrev Part := Phrase Token Rule

def token (t : Token) : Part := .step ⟨.token t, t.name⟩

def op (o : Operator) : Part := token (.op o)

def word (k : Keyword) : Part := token (.word k)

def rule (r : Rule) : Part := .step ⟨.rule r, ""⟩

def seq (parts : List Part) : Part := .seq parts

def oneOf (choices : List Part) : Part := .oneOf choices

def opt (p : Part) : Part := .opt p

def identifier : Part := token .identifier

/-- An identifier that a missing token is reported under another name for. -/
def named (label : String) : Part := .step ⟨.token .identifier, label⟩

def typeName : Part := named "type_identifier"

def fieldName : Part := named "field_identifier"

def packageName : Part := named "package_identifier"

def labelName : Part := named "label_name"

def terminator : Part := oneOf [token .newline, token .semicolon, token .nul]

def stringLiteral : Part := oneOf [token .rawStringLiteral, token .stringLiteral]

def goType : Part := oneOf [rule .simpleType, rule .parenthesizedType]

def topLevel : Part :=
  oneOf [rule .packageClause, rule .functionDeclaration, rule .methodDeclaration,
    rule .importDeclaration]

def result : Part := oneOf [rule .parameterList, rule .simpleType]

def interfaceElem : Part := oneOf [rule .methodElem, rule .typeElem]

def plain (p : Part) : List (Alternative Token Rule) := [⟨p, 0, none, 0⟩]

def leveled (level : Int) (p : Part) : Alternative Token Rule := ⟨p, level, none, 0⟩

def leftAssoc (level : Int) (p : Part) : Alternative Token Rule := ⟨p, level, some .left, 0⟩

def rightAssoc (level : Int) (p : Part) : Alternative Token Rule := ⟨p, level, some .right, 0⟩

def weighted (weight : Int) (p : Part) : Alternative Token Rule := ⟨p, 0, none, weight⟩

/-- One or more of a part, as the rule of its own that is given. -/
def repeated (r : Rule) (p : Part) : List (Alternative Token Rule) :=
  plain (oneOf [p, seq [rule r, p]])

def binary (level : Int) (operators : List Operator) : Alternative Token Rule :=
  leftAssoc level (seq [rule .expression, oneOf (operators.map op), rule .expression])

def declarations : Rule → List (Alternative Token Rule)
  | .sourceFile => plain (seq [opt (rule .sourceItems), opt topLevel])
  | .sourceItems =>
    repeated .sourceItems (oneOf [seq [rule .statement, terminator], seq [topLevel, terminator]])
  | .packageClause => plain (seq [word .kwPackage, packageName])
  | .importDeclaration =>
    plain (seq [word .kwImport, oneOf [rule .importSpec, rule .importSpecList]])
  | .importSpec =>
    plain (seq [opt (oneOf [rule .importDot, word .kwBlank, packageName]), stringLiteral])
  | .importDot => plain (op .dot)
  | .importSpecs => repeated .importSpecs (seq [terminator, rule .importSpec])
  | .importSpecList =>
    plain (seq [op .lparen,
      opt (seq [rule .importSpec, opt (rule .importSpecs), opt terminator]), op .rparen])
  | .declaration =>
    plain (oneOf [rule .constDeclaration, rule .typeDeclaration, rule .varDeclaration])
  | .constDeclaration =>
    plain (seq [word .kwConst,
      oneOf [rule .constSpec, seq [op .lparen, opt (rule .constSpecs), op .rparen]]])
  | .constSpecs => repeated .constSpecs (seq [rule .constSpec, terminator])
  | .constSpec =>
    [leftAssoc 0 (seq [identifier, opt (rule .moreIdentifiers),
      opt (seq [opt goType, op .assign, rule .expressionList])])]
  | .moreIdentifiers => repeated .moreIdentifiers (seq [op .comma, identifier])
  | .varDeclaration => plain (seq [word .kwVar, oneOf [rule .varSpec, rule .varSpecList]])
  | .varSpec =>
    plain (seq [identifier, opt (rule .moreNames),
      oneOf [seq [goType, opt (seq [op .assign, rule .expressionList])],
        seq [op .assign, rule .expressionList]]])
  | .moreNames => repeated .moreNames (seq [op .comma, identifier])
  | .varSpecs => repeated .varSpecs (seq [rule .varSpec, terminator])
  | .varSpecList => plain (seq [op .lparen, opt (rule .varSpecs), op .rparen])
  | .functionDeclaration =>
    [rightAssoc 1 (seq [word .kwFunc, identifier, opt (rule .typeParameterList),
      rule .parameterList, opt result, opt (rule .block)])]
  | .methodDeclaration =>
    [rightAssoc 1 (seq [word .kwFunc, rule .parameterList, fieldName, rule .parameterList,
      opt result, opt (rule .block)])]
  | .typeParameterList =>
    plain (seq [op .lbrack, rule .typeParameterDeclaration, opt (rule .moreTypeParameters),
      opt (op .comma), op .rbrack])
  | .moreTypeParameters =>
    repeated .moreTypeParameters (seq [op .comma, rule .typeParameterDeclaration])
  | .typeParameterDeclaration =>
    plain (seq [identifier, opt (rule .moreNames), rule .typeElem])
  | .parameterList =>
    plain (seq [op .lparen,
      opt (seq [oneOf [rule .parameterDeclaration, rule .variadicParameter],
        opt (rule .moreParameters)]),
      opt (op .comma), op .rparen])
  | .moreParameters =>
    repeated .moreParameters
      (seq [op .comma, oneOf [rule .parameterDeclaration, rule .variadicParameter]])
  | .parameterDeclaration =>
    plain (seq [opt (seq [identifier, opt (rule .moreNames)]), goType])
  | .variadicParameter => plain (seq [opt identifier, op .ellipsis, goType])
  | .typeAlias =>
    plain (seq [typeName, opt (rule .typeParameterList), op .assign, goType])
  | .typeDeclaration =>
    plain (seq [word .kwType,
      oneOf [rule .typeSpec, rule .typeAlias,
        seq [op .lparen,
          opt (seq [oneOf [rule .typeSpec, rule .typeAlias], opt (rule .moreTypeSpecs),
            opt terminator]),
          op .rparen]]])
  | .moreTypeSpecs =>
    repeated .moreTypeSpecs (seq [terminator, oneOf [rule .typeSpec, rule .typeAlias]])
  | .typeSpec => plain (seq [typeName, opt (rule .typeParameterList), goType])
  | _ => []

def types : Rule → List (Alternative Token Rule)
  | .parenthesizedType => plain (seq [op .lparen, goType, op .rparen])
  | .simpleType =>
    [weighted (-1) typeName] ++ plain (rule .genericType) ++ plain (rule .qualifiedType) ++
      plain (rule .pointerType) ++ plain (rule .structType) ++ plain (rule .interfaceType) ++
      plain (rule .arrayType) ++ plain (rule .sliceType) ++ [weighted 3 (rule .mapType)] ++
      plain (rule .channelType) ++ plain (rule .functionType) ++ plain (rule .negatedType)
  | .genericType =>
    [weighted 1 (seq [oneOf [typeName, rule .qualifiedType, rule .negatedType],
      rule .typeArguments])]
  | .typeArguments =>
    [weighted 2 (seq [op .lbrack, rule .typeElem, opt (rule .moreTypeElems), opt (op .comma),
      op .rbrack])]
  | .moreTypeElems => repeated .moreTypeElems (seq [op .comma, rule .typeElem])
  | .pointerType => [leveled 6 (seq [op .star, goType])]
  | .arrayType =>
    [rightAssoc 0 (seq [op .lbrack, rule .expression, op .rbrack, goType])]
  | .implicitLengthArrayType =>
    plain (seq [op .lbrack, op .ellipsis, op .rbrack, goType])
  | .sliceType => [rightAssoc 0 (seq [op .lbrack, op .rbrack, goType])]
  | .structType => plain (seq [word .kwStruct, rule .fieldDeclarationList])
  | .negatedType => [leftAssoc 0 (seq [op .tilde, goType])]
  | .fieldDeclarationList =>
    plain (seq [op .lbrace,
      opt (seq [rule .fieldDeclaration, opt (rule .moreFieldDeclarations), opt terminator]),
      op .rbrace])
  | .moreFieldDeclarations =>
    repeated .moreFieldDeclarations (seq [terminator, rule .fieldDeclaration])
  | .fieldDeclaration =>
    plain (seq [
      oneOf [seq [fieldName, opt (rule .moreFieldNames), goType],
        seq [opt (op .star), oneOf [typeName, rule .qualifiedType, rule .genericType]]],
      opt stringLiteral])
  | .moreFieldNames => repeated .moreFieldNames (seq [op .comma, fieldName])
  | .interfaceType =>
    plain (seq [word .kwInterface, op .lbrace,
      opt (seq [interfaceElem, opt (rule .moreInterfaceElems), opt terminator]), op .rbrace])
  | .moreInterfaceElems => repeated .moreInterfaceElems (seq [terminator, interfaceElem])
  | .methodElem => plain (seq [fieldName, rule .parameterList, opt result])
  | .typeElem => plain (seq [goType, opt (rule .moreUnionTypes)])
  | .moreUnionTypes => repeated .moreUnionTypes (seq [op .bar, goType])
  | .mapType =>
    [rightAssoc 0 (seq [word .kwMap, op .lbrack, goType, op .rbrack, goType])]
  | .channelType =>
    [leftAssoc 0 (seq [word .kwChan, goType]),
      leftAssoc 0 (seq [word .kwChan, op .arrow, goType]),
      leftAssoc 6 (seq [op .arrow, word .kwChan, goType])]
  | .functionType => [rightAssoc 0 (seq [word .kwFunc, rule .parameterList, opt result])]
  | .qualifiedType => plain (seq [packageName, op .dot, typeName])
  | _ => []

def statements : Rule → List (Alternative Token Rule)
  | .block => plain (seq [op .lbrace, opt (rule .statementList), op .rbrace])
  | .statementList =>
    plain (oneOf [
      seq [rule .statement, opt (rule .moreStatements),
        opt (seq [terminator, opt (rule .emptyLabeledStatement)])],
      rule .emptyLabeledStatement])
  | .moreStatements => repeated .moreStatements (seq [terminator, rule .statement])
  | .statement =>
    plain (oneOf [rule .declaration, rule .simpleStatement, rule .returnStatement,
      rule .goStatement, rule .deferStatement, rule .ifStatement, rule .forStatement,
      rule .expressionSwitch, rule .typeSwitch, rule .selectStatement, rule .labeledStatement,
      rule .fallthroughStatement, rule .breakStatement, rule .continueStatement,
      rule .gotoStatement, rule .block, rule .emptyStatement])
  | .emptyStatement => plain (token .semicolon)
  | .simpleStatement =>
    plain (oneOf [rule .expressionStatement, rule .sendStatement, rule .incStatement,
      rule .decStatement, rule .assignmentStatement, rule .shortVarDeclaration])
  | .expressionStatement => plain (rule .expression)
  | .sendStatement => plain (seq [rule .expression, op .arrow, rule .expression])
  | .receiveStatement =>
    plain (seq [opt (seq [rule .expressionList, oneOf [op .assign, op .define]]),
      rule .expression])
  | .incStatement => plain (seq [rule .expression, op .increment])
  | .decStatement => plain (seq [rule .expression, op .decrement])
  | .assignmentStatement =>
    plain (seq [rule .expressionList,
      oneOf ([.starAssign, .slashAssign, .percentAssign, .shlAssign, .shrAssign, .ampAssign,
        .ampCaretAssign, .plusAssign, .minusAssign, .barAssign, .caretAssign, .assign].map op),
      rule .expressionList])
  | .shortVarDeclaration =>
    plain (seq [rule .expressionList, op .define, rule .expressionList])
  | .labeledStatement => plain (seq [labelName, op .colon, rule .statement])
  | .emptyLabeledStatement => plain (seq [labelName, op .colon])
  | .fallthroughStatement => [leftAssoc 0 (word .kwFallthrough)]
  | .breakStatement => plain (seq [word .kwBreak, opt labelName])
  | .continueStatement => plain (seq [word .kwContinue, opt labelName])
  | .gotoStatement => plain (seq [word .kwGoto, labelName])
  | .returnStatement => plain (seq [word .kwReturn, opt (rule .expressionList)])
  | .goStatement => plain (seq [word .kwGo, rule .expression])
  | .deferStatement => plain (seq [word .kwDefer, rule .expression])
  | .ifStatement =>
    plain (seq [word .kwIf, opt (seq [rule .simpleStatement, token .semicolon]),
      rule .expression, rule .block,
      opt (seq [word .kwElse, oneOf [rule .block, rule .ifStatement]])])
  | .forStatement =>
    plain (seq [word .kwFor,
      opt (oneOf [rule .expression, rule .forClause, rule .rangeClause]), rule .block])
  | .forClause =>
    plain (seq [opt (rule .simpleStatement), token .semicolon, opt (rule .expression),
      token .semicolon, opt (rule .simpleStatement)])
  | .rangeClause =>
    plain (seq [opt (seq [rule .expressionList, oneOf [op .assign, op .define]]),
      word .kwRange, rule .expression])
  | .expressionSwitch =>
    plain (seq [word .kwSwitch, opt (seq [rule .simpleStatement, token .semicolon]),
      opt (rule .expression), op .lbrace, opt (rule .expressionCases), op .rbrace])
  | .expressionCases =>
    repeated .expressionCases (oneOf [rule .expressionCase, rule .defaultCase])
  | .expressionCase =>
    plain (seq [word .kwCase, rule .expressionList, op .colon, opt (rule .statementList)])
  | .defaultCase =>
    plain (seq [word .kwDefault, op .colon, opt (rule .statementList)])
  | .typeSwitch =>
    plain (seq [word .kwSwitch, rule .typeSwitchHeader, op .lbrace, opt (rule .typeCases),
      op .rbrace])
  | .typeSwitchHeader =>
    plain (seq [opt (seq [rule .simpleStatement, token .semicolon]),
      opt (seq [rule .expressionList, op .define]), rule .expression, op .dot, op .lparen,
      word .kwType, op .rparen])
  | .typeCases => repeated .typeCases (oneOf [rule .typeCase, rule .defaultCase])
  | .typeCase =>
    plain (seq [word .kwCase, goType, opt (rule .moreTypes), op .colon,
      opt (rule .statementList)])
  | .moreTypes => repeated .moreTypes (seq [op .comma, goType])
  | .selectStatement =>
    plain (seq [word .kwSelect, op .lbrace, opt (rule .communicationCases), op .rbrace])
  | .communicationCases =>
    repeated .communicationCases (oneOf [rule .communicationCase, rule .defaultCase])
  | .communicationCase =>
    plain (seq [word .kwCase, oneOf [rule .sendStatement, rule .receiveStatement], op .colon,
      opt (rule .statementList)])
  | _ => []

def expressions : Rule → List (Alternative Token Rule)
  | .expressionList => plain (seq [rule .expression, opt (rule .moreExpressions)])
  | .moreExpressions => repeated .moreExpressions (seq [op .comma, rule .expression])
  | .expression =>
    plain (oneOf [rule .unaryExpression, rule .binaryExpression, rule .selectorExpression,
      rule .indexExpression, rule .sliceExpression, rule .callExpression, rule .typeAssertion,
      rule .typeConversion, rule .typeInstantiation, identifier, word .kwNew, word .kwMake,
      rule .compositeLiteral, rule .funcLiteral, stringLiteral, token .intLiteral,
      token .floatLiteral, token .imaginaryLiteral, token .runeLiteral, word .kwNil, word .kwTrue,
      word .kwFalse, word .kwIota, rule .parenthesizedExpression])
  | .parenthesizedExpression => plain (seq [op .lparen, rule .expression, op .rparen])
  | .callExpression =>
    [leveled 7 (oneOf [
      seq [oneOf [word .kwNew, word .kwMake], rule .specialArgumentList],
      seq [rule .expression, opt (rule .typeArguments), rule .argumentList]])]
  | .variadicArgument => [rightAssoc 0 (seq [rule .expression, op .ellipsis])]
  | .specialArgumentList =>
    plain (seq [op .lparen,
      opt (seq [goType, opt (rule .moreExpressions), opt (op .comma)]), op .rparen])
  | .argumentList =>
    plain (seq [op .lparen,
      opt (seq [oneOf [rule .expression, rule .variadicArgument], opt (rule .moreArguments),
        opt (op .comma)]),
      op .rparen])
  | .moreArguments =>
    repeated .moreArguments
      (seq [op .comma, oneOf [rule .expression, rule .variadicArgument]])
  | .selectorExpression => [leveled 7 (seq [rule .expression, op .dot, fieldName])]
  | .indexExpression =>
    [⟨seq [rule .expression, op .lbrack, rule .expression, op .rbrack], 7, none, 1⟩]
  | .sliceExpression =>
    [leveled 7 (seq [rule .expression, op .lbrack,
      oneOf [
        seq [opt (rule .expression), op .colon, opt (rule .expression)],
        seq [opt (rule .expression), op .colon, rule .expression, op .colon, rule .expression]],
      op .rbrack])]
  | .typeAssertion =>
    [leveled 7 (seq [rule .expression, op .dot, op .lparen, goType, op .rparen])]
  | .typeConversion =>
    [weighted (-1) (seq [goType, op .lparen, rule .expression, opt (op .comma), op .rparen])]
  | .typeInstantiation =>
    [weighted (-1) (seq [goType, op .lbrack, goType, opt (rule .moreTypes), opt (op .comma),
      op .rbrack])]
  | .compositeLiteral =>
    [leveled (-1) (seq [
      oneOf [rule .mapType, rule .sliceType, rule .arrayType, rule .implicitLengthArrayType,
        rule .structType, typeName, rule .genericType, rule .qualifiedType],
      rule .literalValue])]
  | .literalValue =>
    plain (seq [op .lbrace,
      opt (seq [oneOf [rule .literalElement, rule .keyedElement],
        opt (rule .moreLiteralElements)]),
      opt (op .comma), op .rbrace])
  | .moreLiteralElements =>
    repeated .moreLiteralElements
      (seq [op .comma, oneOf [rule .literalElement, rule .keyedElement]])
  | .literalElement => plain (oneOf [rule .expression, rule .literalValue])
  | .keyedElement => plain (seq [rule .literalElement, op .colon, rule .literalElement])
  | .funcLiteral =>
    plain (seq [word .kwFunc, rule .parameterList, opt result, rule .block])
  | .unaryExpression =>
    [leveled 6 (seq [
      oneOf ([.plus, .minus, .bang, .caret, .star, .amp, .arrow].map op), rule .expression])]
  | .binaryExpression =>
    [binary 5 [.star, .slash, .percent, .shl, .shr, .amp, .ampCaret],
      binary 4 [.plus, .minus, .bar, .caret],
      binary 3 [.equal, .notEqual, .less, .lessEqual, .greater, .greaterEqual],
      binary 2 [.andAnd],
      binary 1 [.orOr]]
  | _ => []

def alternatives (r : Rule) : List (Alternative Token Rule) :=
  declarations r ++ types r ++ statements r ++ expressions r

end Rules

def grammar : RuleSet Token Rule where
  rules := Rule.all
  start := .sourceFile
  alternatives := Rules.alternatives
  hidden := Rule.hidden

end StructModel.Go
