/-!
# Tokens of Go

The words of the language, its operators and the classes of literals, with the spelling of those
that have one.
-/

namespace StructModel.Go

inductive Keyword where
  | kwBreak | kwCase | kwChan | kwConst | kwContinue | kwDefault | kwDefer | kwElse
  | kwFallthrough | kwFor | kwFunc | kwGo | kwGoto | kwIf | kwImport | kwInterface | kwMap
  | kwPackage | kwRange | kwReturn | kwSelect | kwStruct | kwSwitch | kwType | kwVar
  | kwNil | kwTrue | kwFalse | kwIota | kwNew | kwMake | kwBlank
  deriving DecidableEq, Hashable, Repr

inductive Operator where
  | lparen | rparen | lbrack | rbrack | lbrace | rbrace
  | comma | dot | ellipsis | colon | define | assign | tilde | arrow
  | plus | minus | star | slash | percent | amp | bar | caret | ampCaret | shl | shr
  | plusAssign | minusAssign | starAssign | slashAssign | percentAssign | ampAssign
  | barAssign | caretAssign | ampCaretAssign | shlAssign | shrAssign
  | increment | decrement | bang | andAnd | orOr
  | equal | notEqual | less | lessEqual | greater | greaterEqual
  deriving DecidableEq, Hashable, Repr

inductive Token where
  | identifier
  | intLiteral
  | floatLiteral
  | imaginaryLiteral
  | runeLiteral
  | stringLiteral
  | rawStringLiteral
  | newline
  | semicolon
  | nul
  | word (k : Keyword)
  | op (o : Operator)
  deriving DecidableEq, Hashable, Repr

def Keyword.spelling : Keyword → String
  | .kwBreak => "break"
  | .kwCase => "case"
  | .kwChan => "chan"
  | .kwConst => "const"
  | .kwContinue => "continue"
  | .kwDefault => "default"
  | .kwDefer => "defer"
  | .kwElse => "else"
  | .kwFallthrough => "fallthrough"
  | .kwFor => "for"
  | .kwFunc => "func"
  | .kwGo => "go"
  | .kwGoto => "goto"
  | .kwIf => "if"
  | .kwImport => "import"
  | .kwInterface => "interface"
  | .kwMap => "map"
  | .kwPackage => "package"
  | .kwRange => "range"
  | .kwReturn => "return"
  | .kwSelect => "select"
  | .kwStruct => "struct"
  | .kwSwitch => "switch"
  | .kwType => "type"
  | .kwVar => "var"
  | .kwNil => "nil"
  | .kwTrue => "true"
  | .kwFalse => "false"
  | .kwIota => "iota"
  | .kwNew => "new"
  | .kwMake => "make"
  | .kwBlank => "_"

/-- The words that are never identifiers. -/
def Keyword.reserved : List Keyword :=
  [.kwBreak, .kwCase, .kwChan, .kwConst, .kwContinue, .kwDefault, .kwDefer, .kwElse,
    .kwFallthrough, .kwFor, .kwFunc, .kwGo, .kwGoto, .kwIf, .kwImport, .kwInterface, .kwMap,
    .kwPackage, .kwRange, .kwReturn, .kwSelect, .kwStruct, .kwSwitch, .kwType, .kwVar]

/-- The words that are identifiers where only an identifier can stand. -/
def Keyword.contextual : List Keyword :=
  [.kwNil, .kwTrue, .kwFalse, .kwIota, .kwNew, .kwMake, .kwBlank]

def Keyword.ofSpelling? (s : String) : Option Keyword :=
  (reserved ++ contextual).find? fun k => k.spelling == s

def Operator.spelling : Operator → String
  | .lparen => "("
  | .rparen => ")"
  | .lbrack => "["
  | .rbrack => "]"
  | .lbrace => "\x7b"
  | .rbrace => "\x7d"
  | .comma => ","
  | .dot => "."
  | .ellipsis => "..."
  | .colon => ":"
  | .define => ":="
  | .assign => "="
  | .tilde => "~"
  | .arrow => "<-"
  | .plus => "+"
  | .minus => "-"
  | .star => "*"
  | .slash => "/"
  | .percent => "%"
  | .amp => "&"
  | .bar => "|"
  | .caret => "^"
  | .ampCaret => "&^"
  | .shl => "<<"
  | .shr => ">>"
  | .plusAssign => "+="
  | .minusAssign => "-="
  | .starAssign => "*="
  | .slashAssign => "/="
  | .percentAssign => "%="
  | .ampAssign => "&="
  | .barAssign => "|="
  | .caretAssign => "^="
  | .ampCaretAssign => "&^="
  | .shlAssign => "<<="
  | .shrAssign => ">>="
  | .increment => "++"
  | .decrement => "--"
  | .bang => "!"
  | .andAnd => "&&"
  | .orOr => "||"
  | .equal => "=="
  | .notEqual => "!="
  | .less => "<"
  | .lessEqual => "<="
  | .greater => ">"
  | .greaterEqual => ">="

/-- The operators, those of more characters first. -/
def Operator.byLength : List Operator :=
  [.ellipsis, .ampCaretAssign, .shlAssign, .shrAssign,
    .define, .arrow, .ampCaret, .shl, .shr, .plusAssign, .minusAssign, .starAssign, .slashAssign,
    .percentAssign, .ampAssign, .barAssign, .caretAssign, .increment, .decrement, .andAnd, .orOr,
    .equal, .notEqual, .lessEqual, .greaterEqual,
    .lparen, .rparen, .lbrack, .rbrack, .lbrace, .rbrace, .comma, .dot, .colon, .assign, .tilde,
    .plus, .minus, .star, .slash, .percent, .amp, .bar, .caret, .bang, .less, .greater]

/-- How a token is named when it is missing. -/
def Token.name : Token → String
  | .identifier => "identifier"
  | .intLiteral => "int_literal"
  | .floatLiteral => "float_literal"
  | .imaginaryLiteral => "imaginary_literal"
  | .runeLiteral => "rune_literal"
  | .stringLiteral => "interpreted_string_literal"
  | .rawStringLiteral => "raw_string_literal"
  | .newline => "\n"
  | .semicolon => ";"
  | .nul => "\x00"
  | .word k => k.spelling
  | .op o => o.spelling

end StructModel.Go
