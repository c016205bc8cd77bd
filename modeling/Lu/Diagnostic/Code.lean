namespace Lu

/-- The part of the interpreter that reports an error. -/
inductive Phase where
  | lexing
  | parsing
  | checking
  | running
  | internal
deriving DecidableEq, Repr

/-- The name of an error for the reader to look up; its first digit names the phase. -/
inductive ErrorCode where
  | E0001 | E0002 | E0003 | E0004 | E0005
  | E1001 | E1002 | E1004 | E1005
  | E2001 | E2002 | E2003 | E2004 | E2005 | E2006 | E2007
  | E6001 | E6002 | E6003 | E6004 | E6005 | E6006 | E6007 | E6008 | E6009 | E6010 | E6011
  | E9001
deriving DecidableEq, Repr, Inhabited

namespace ErrorCode

/-- Every code, in ascending order. -/
def all : List ErrorCode :=
  [.E0001, .E0002, .E0003, .E0004, .E0005,
   .E1001, .E1002, .E1004, .E1005,
   .E2001, .E2002, .E2003, .E2004, .E2005, .E2006, .E2007,
   .E6001, .E6002, .E6003, .E6004, .E6005, .E6006, .E6007, .E6008, .E6009, .E6010, .E6011,
   .E9001]

def text : ErrorCode → String
  | .E0001 => "E0001" | .E0002 => "E0002" | .E0003 => "E0003" | .E0004 => "E0004"
  | .E0005 => "E0005"
  | .E1001 => "E1001" | .E1002 => "E1002" | .E1004 => "E1004" | .E1005 => "E1005"
  | .E2001 => "E2001" | .E2002 => "E2002" | .E2003 => "E2003" | .E2004 => "E2004"
  | .E2005 => "E2005" | .E2006 => "E2006" | .E2007 => "E2007"
  | .E6001 => "E6001" | .E6002 => "E6002" | .E6003 => "E6003" | .E6004 => "E6004"
  | .E6005 => "E6005" | .E6006 => "E6006" | .E6007 => "E6007" | .E6008 => "E6008"
  | .E6009 => "E6009" | .E6010 => "E6010" | .E6011 => "E6011"
  | .E9001 => "E9001"

def ofText? (name : String) : Option ErrorCode := all.find? (·.text == name)

/-- One line on what the code stands for. -/
def description : ErrorCode → String
  | .E0001 => "unterminated string literal"
  | .E0002 => "invalid character"
  | .E0003 => "invalid number literal"
  | .E0004 => "unterminated block comment"
  | .E0005 => "invalid escape sequence"
  | .E1001 => "unexpected token"
  | .E1002 => "expected expression"
  | .E1004 => "expected identifier"
  | .E1005 => "expected type"
  | .E2001 => "duplicate symbol"
  | .E2002 => "unknown symbol"
  | .E2003 => "invalid symbol"
  | .E2004 => "type error"
  | .E2005 => "invalid expression"
  | .E2006 => "invalid assignment"
  | .E2007 => "invalid function call"
  | .E6001 => "undefined variable"
  | .E6002 => "undefined function"
  | .E6003 => "duplicate definition"
  | .E6004 => "division by zero"
  | .E6005 => "modulo by zero"
  | .E6006 => "integer overflow"
  | .E6007 => "type mismatch"
  | .E6008 => "missing return"
  | .E6009 => "input exhausted"
  | .E6010 => "native function failed"
  | .E6011 => "stack overflow"
  | .E9001 => "internal error"

def phase : ErrorCode → Phase
  | .E0001 | .E0002 | .E0003 | .E0004 | .E0005 => .lexing
  | .E1001 | .E1002 | .E1004 | .E1005 => .parsing
  | .E2001 | .E2002 | .E2003 | .E2004 | .E2005 | .E2006 | .E2007 => .checking
  | .E6001 | .E6002 | .E6003 | .E6004 | .E6005 | .E6006 | .E6007 | .E6008 | .E6009 | .E6010
  | .E6011 => .running
  | .E9001 => .internal

end ErrorCode

end Lu
