/-!
# Reserved words and symbols

The fixed vocabulary of the language. Each keyword and each symbol has one spelling, and the
spelling determines it.
-/

namespace Jack

/-- The reserved words. -/
inductive Keyword where
  | «class» | constructor | function | method | field | static | var
  | int | char | boolean | void | true | false | null | this
  | let | do | if | else | while | return
deriving DecidableEq

namespace Keyword

/-- Every keyword. -/
def all : List Keyword :=
  [.class, .constructor, .function, .method, .field, .static, .var,
   .int, .char, .boolean, .void, .true, .false, .null, .this,
   .let, .do, .if, .else, .while, .return]

/-- How a keyword is written in a source. -/
def spelling : Keyword → String
  | .class => "class"
  | .constructor => "constructor"
  | .function => "function"
  | .method => "method"
  | .field => "field"
  | .static => "static"
  | .var => "var"
  | .int => "int"
  | .char => "char"
  | .boolean => "boolean"
  | .void => "void"
  | .true => "true"
  | .false => "false"
  | .null => "null"
  | .this => "this"
  | .let => "let"
  | .do => "do"
  | .if => "if"
  | .else => "else"
  | .while => "while"
  | .return => "return"

/-- The keyword with a given spelling. -/
def ofSpelling? (text : String) : Option Keyword :=
  all.find? (·.spelling = text)

/-- A keyword is found again by its spelling. -/
@[simp] theorem ofSpelling?_spelling (keyword : Keyword) :
    ofSpelling? keyword.spelling = some keyword := by
  cases keyword <;> decide

theorem ofSpelling?_eq_some_iff {text : String} {keyword : Keyword} :
    ofSpelling? text = some keyword ↔ text = keyword.spelling := by
  constructor
  · intro found
    simpa [eq_comm] using List.find?_some found
  · rintro rfl
    exact ofSpelling?_spelling keyword

theorem spelling_injective : Function.Injective spelling := by
  intro first second same
  have found := congrArg ofSpelling? same
  rw [ofSpelling?_spelling, ofSpelling?_spelling] at found
  exact Option.some.inj found

/-- Whether a statement begins with this keyword. -/
def startsStatement : Keyword → Bool
  | .let | .if | .while | .do | .return => Bool.true
  | _ => Bool.false

end Keyword

/-- The punctuation marks and operators. -/
inductive Symbol where
  | leftBrace | rightBrace | leftParen | rightParen | leftBracket | rightBracket
  | dot | comma | semicolon
  | plus | minus | star | slash | ampersand | pipe | less | greater | equal | tilde
deriving DecidableEq

namespace Symbol

/-- Every symbol. -/
def all : List Symbol :=
  [.leftBrace, .rightBrace, .leftParen, .rightParen, .leftBracket, .rightBracket,
   .dot, .comma, .semicolon,
   .plus, .minus, .star, .slash, .ampersand, .pipe, .less, .greater, .equal, .tilde]

/-- The one character that a symbol consists of. -/
def character : Symbol → Char
  | .leftBrace => '{'
  | .rightBrace => '}'
  | .leftParen => '('
  | .rightParen => ')'
  | .leftBracket => '['
  | .rightBracket => ']'
  | .dot => '.'
  | .comma => ','
  | .semicolon => ';'
  | .plus => '+'
  | .minus => '-'
  | .star => '*'
  | .slash => '/'
  | .ampersand => '&'
  | .pipe => '|'
  | .less => '<'
  | .greater => '>'
  | .equal => '='
  | .tilde => '~'

/-- How a symbol is written in a source. -/
def spelling (symbol : Symbol) : String :=
  symbol.character.toString

/-- The symbol that consists of a given character. -/
def ofChar? (c : Char) : Option Symbol :=
  all.find? (·.character = c)

/-- The symbol with a given spelling. -/
def ofSpelling? (text : String) : Option Symbol :=
  all.find? (·.spelling = text)

/-- A symbol is found again by its character. -/
@[simp] theorem ofChar?_character (symbol : Symbol) :
    ofChar? symbol.character = some symbol := by
  cases symbol <;> decide

/-- Only the character of a symbol denotes it. -/
theorem character_of_ofChar? {c : Char} {symbol : Symbol} (found : ofChar? c = some symbol) :
    symbol.character = c := by
  simpa using List.find?_some found

theorem spelling_injective : Function.Injective spelling := by
  intro first second same
  have characters : first.character = second.character := by
    simpa [spelling] using congrArg String.toList same
  have found := congrArg ofChar? characters
  rw [ofChar?_character, ofChar?_character] at found
  exact Option.some.inj found

end Symbol

end Jack
